import Mathlib.Algebra.Order.Ring.Nat
import Mathlib.Data.Nat.ModEq
import Mathlib.Data.Set.Function
import Argand.Littlewood.WordShape
import Argand.Proofs.Overflow

/-!
# Addresses in words

`WordShape.Addresses` collects what is wanted of the places in a table : it has its measures, polynomials with their
slots have addresses one to one, every address has its own row and column inside the table, no row is empty, and a row
and a column lead back. Words can overflow, so not every table has such places. `WordShape.addresses_iff` says that a
table with slots and columns has them exactly if there is room in a word for its slots and another row at once, since
that is what is added up for its height.

What has a result is the exact number (`slots?_eq_some`, `height?_eq_some`, `address?_eq_some`), and a quotient with
its remainder is the one way to take a number apart (`split?_eq_some`, `coordinate?_eq_some`).
-/

namespace Argand.Littlewood

namespace WordShape

/-- What the places in a table with these measures are wanted for. -/
structure Addresses (s : WordShape) (polynomials slots height : UInt64) : Prop where
  polynomials_eq : s.polynomials? = some polynomials
  slots_eq : s.slots? = some slots
  height_eq : s.height? = some height
  bijective : Set.BijOn (fun p : UInt64 × UInt64 => s.address? p.1 p.2)
    {p | p.1 < polynomials ∧ p.2 < s.maxDegree} (some '' {a | a < slots})
  split : ∀ id < polynomials, ∀ k < s.maxDegree, (s.address? id k).bind s.split? = some (id, k)
  address : ∀ a < slots, (s.split? a).bind (fun p => s.address? p.1 p.2) = some a
  distinct : Set.InjOn s.coordinate? {a | a < slots}
  inside : ∀ a < slots, ∃ row < height, ∃ column < s.width, s.coordinate? a = some (row, column)
  used : ∀ row < height, ∃ a < slots, ∃ column, s.coordinate? a = some (row, column)
  decode : ∀ id < polynomials, ∀ k < s.maxDegree,
    ((s.address? id k).bind s.coordinate?).bind (fun p => s.decode? p.1 p.2) = some (id, k)

variable {s : WordShape} {polynomials slots height id k a row column : UInt64}

/-! ## Measures -/

theorem polynomials?_eq_some :
    s.polynomials? = some polynomials ↔ polynomials.toNat = 2 ^ (s.maxDegree.toNat + 1) := by
  refine Option.bind_eq_some_iff.trans ⟨?_, fun exact => ?_⟩
  · rintro ⟨distance, sum, shifted⟩
    rw [Word.shiftLeft?_one_eq_some.mp shifted, Word.add?_eq_some.mp sum]
    rfl
  · have short : s.maxDegree.toNat + 1 < 64 :=
      (Nat.pow_lt_pow_iff_right (by decide)).mp (exact ▸ polynomials.toNat_lt)
    obtain ⟨distance, sum⟩ := Word.exists_toNat_eq (n := s.maxDegree.toNat + 1) (by omega)
    exact ⟨distance, Word.add?_eq_some.mpr sum, Word.shiftLeft?_one_eq_some.mpr (exact.trans (by rw [sum]))⟩

theorem slots?_eq_some :
    s.slots? = some slots ↔ slots.toNat = 2 ^ (s.maxDegree.toNat + 1) * s.maxDegree.toNat := by
  refine Option.bind_eq_some_iff.trans ⟨?_, fun exact => ?_⟩
  · rintro ⟨polynomials, some, product⟩
    rw [Word.mul?_eq_some.mp product, polynomials?_eq_some.mp some]
  · have room : 2 ^ (s.maxDegree.toNat + 1) < 2 ^ 64 := by
      rcases Nat.eq_zero_or_pos s.maxDegree.toNat with none | slot
      · rw [none]
        decide
      · exact (Nat.le_mul_of_pos_right _ slot).trans_lt (exact ▸ slots.toNat_lt)
    obtain ⟨polynomials, power⟩ := Word.exists_toNat_eq room
    exact ⟨polynomials, polynomials?_eq_some.mpr power, Word.mul?_eq_some.mpr (by rw [power, exact])⟩

/-- The height is a quotient that is rounded up, and on the way to it the slots and another row are added up. -/
theorem height?_eq_some (columns : 0 < s.width.toNat) :
    s.height? = some height ↔
      2 ^ (s.maxDegree.toNat + 1) * s.maxDegree.toNat + s.width.toNat < 2 ^ 64 ∧
        height.toNat = (2 ^ (s.maxDegree.toNat + 1) * s.maxDegree.toNat + s.width.toNat - 1) / s.width.toNat := by
  refine Option.bind_eq_some_iff.trans ⟨?_, fun ⟨room, exact⟩ => ?_⟩
  · rintro ⟨slots, some, rest⟩
    obtain ⟨sum, added, rest⟩ := Option.bind_eq_some_iff.mp rest
    obtain ⟨dividend, subtracted, divided⟩ := Option.bind_eq_some_iff.mp rest
    obtain rfl := Option.some.inj ((Word.div?_eq_some columns).symm.trans divided)
    have added := Word.add?_eq_some.mp added
    have subtracted : dividend.toNat + 1 = sum.toNat := Word.sub?_eq_some.mp subtracted
    rw [slots?_eq_some.mp some] at added
    refine ⟨added ▸ sum.toNat_lt, ?_⟩
    rw [UInt64.toNat_div, ← added, ← subtracted, Nat.add_sub_cancel]
  · obtain ⟨slots, some⟩ := Word.exists_toNat_eq (Nat.lt_of_le_of_lt (Nat.le_add_right _ _) room)
    rw [← some] at room exact
    obtain ⟨sum, added⟩ := Word.exists_toNat_eq room
    obtain ⟨dividend, subtracted⟩ :=
      Word.exists_toNat_eq (Nat.lt_of_le_of_lt (Nat.sub_le (slots.toNat + s.width.toNat) 1) room)
    have one : (1 : UInt64).toNat = 1 := rfl
    refine ⟨slots, slots?_eq_some.mpr some, Option.bind_eq_some_iff.mpr ⟨sum, Word.add?_eq_some.mpr added,
      Option.bind_eq_some_iff.mpr ⟨dividend, Word.sub?_eq_some.mpr (by omega), ?_⟩⟩⟩
    rw [Word.div?_eq_some columns, Option.some_inj, ← UInt64.toNat_inj, UInt64.toNat_div, subtracted, exact]

/-! ## Polynomials and their slots -/

theorem address?_eq_some :
    s.address? id k = some a ↔ a.toNat = id.toNat * s.maxDegree.toNat + k.toNat := by
  refine Option.bind_eq_some_iff.trans ⟨?_, fun exact => ?_⟩
  · rintro ⟨block, product, sum⟩
    rw [Word.add?_eq_some.mp sum, Word.mul?_eq_some.mp product]
  · obtain ⟨block, product⟩ := Word.exists_toNat_eq
      (Nat.lt_of_le_of_lt (Nat.le_add_right _ _) (exact ▸ a.toNat_lt : _ < 2 ^ 64))
    exact ⟨block, Word.mul?_eq_some.mpr product, Word.add?_eq_some.mpr (by rw [product, exact])⟩

/-- There is one way to take a word apart into a multiple and a remainder. -/
theorem quotient_eq_iff {n q r : UInt64} (h : 0 < n.toNat) :
    some (a / n, a % n) = some (q, r) ↔ a.toNat = q.toNat * n.toNat + r.toNat ∧ r < n := by
  rw [Option.some_inj, Prod.mk.injEq, ← UInt64.toNat_inj, ← UInt64.toNat_inj, UInt64.toNat_div, UInt64.toNat_mod,
    Nat.div_mod_unique h, UInt64.lt_iff_toNat_lt, Nat.add_comm, Nat.mul_comm, eq_comm]

theorem split?_eq (slot : 0 < s.maxDegree.toNat) (a : UInt64) :
    s.split? a = some (a / s.maxDegree, a % s.maxDegree) := by
  rw [split?, Word.div?_eq_some slot, Word.mod?_eq_some slot]
  rfl

theorem split?_eq_some (slot : 0 < s.maxDegree.toNat) :
    s.split? a = some (id, k) ↔ s.address? id k = some a ∧ k < s.maxDegree := by
  rw [split?_eq slot, address?_eq_some, quotient_eq_iff slot]

/-- The addresses below the number of slots are those of the slots of the polynomials. -/
theorem lt_polynomials_iff (polynomials_eq : s.polynomials? = some polynomials) (slots_eq : s.slots? = some slots)
    (found : s.address? id k = some a) (hk : k < s.maxDegree) : id < polynomials ↔ a < slots := by
  have hk := UInt64.lt_iff_toNat_lt.mp hk
  rw [UInt64.lt_iff_toNat_lt, UInt64.lt_iff_toNat_lt, polynomials?_eq_some.mp polynomials_eq,
    slots?_eq_some.mp slots_eq, address?_eq_some.mp found]
  constructor
  · intro hid
    have block := Nat.mul_le_mul_right s.maxDegree.toNat (Nat.succ_le_of_lt hid)
    rw [Nat.succ_mul] at block
    omega
  · intro below
    exact Nat.lt_of_mul_lt_mul_right (Nat.lt_of_le_of_lt (Nat.le_add_right _ _) below)

/-- Every slot of every polynomial has an address. -/
theorem exists_address? (polynomials_eq : s.polynomials? = some polynomials) (slots_eq : s.slots? = some slots)
    (hid : id < polynomials) (hk : k < s.maxDegree) : ∃ a < slots, s.address? id k = some a := by
  have block := Nat.mul_le_mul_right s.maxDegree.toNat (Nat.succ_le_of_lt (UInt64.lt_iff_toNat_lt.mp hid))
  have slot := UInt64.lt_iff_toNat_lt.mp hk
  rw [polynomials?_eq_some.mp polynomials_eq, ← slots?_eq_some.mp slots_eq, Nat.succ_mul] at block
  have word := slots.toNat_lt
  obtain ⟨a, exact⟩ := Word.exists_toNat_eq (n := id.toNat * s.maxDegree.toNat + k.toNat) (by omega)
  have found := address?_eq_some.mpr exact
  exact ⟨a, (lt_polynomials_iff polynomials_eq slots_eq found hk).mp hid, found⟩

/-! ## Rows and columns -/

theorem coordinate?_eq (columns : 0 < s.width.toNat) (a : UInt64) :
    s.coordinate? a = some (a / s.width, a % s.width) := by
  rw [coordinate?, Word.div?_eq_some columns, Word.mod?_eq_some columns]
  rfl

theorem coordinate?_eq_some (columns : 0 < s.width.toNat) :
    s.coordinate? a = some (row, column) ↔
      a.toNat = row.toNat * s.width.toNat + column.toNat ∧ column < s.width := by
  rw [coordinate?_eq columns, quotient_eq_iff columns]

/-- A row begins inside the table exactly if it is below the height. -/
theorem lt_height_iff (columns : 0 < s.width.toNat) (slots_eq : s.slots? = some slots)
    (height_eq : s.height? = some height) : row < height ↔ row.toNat * s.width.toNat < slots.toNat := by
  rw [UInt64.lt_iff_toNat_lt, ((height?_eq_some columns).mp height_eq).2, ← slots?_eq_some.mp slots_eq,
    ← Nat.succ_le_iff, Nat.le_div_iff_mul_le columns, Nat.succ_mul]
  omega

/-- A row and a column lead to where their address leads. -/
theorem decode?_eq (columns : 0 < s.width.toNat) (place : s.coordinate? a = some (row, column)) :
    s.decode? row column = s.split? a := by
  obtain ⟨exact, -⟩ := (coordinate?_eq_some columns).mp place
  have word := a.toNat_lt
  obtain ⟨first, product⟩ := Word.exists_toNat_eq (n := row.toNat * s.width.toNat) (by omega)
  have sum : Word.add? first column = some a := Word.add?_eq_some.mpr (by rw [product, exact])
  rw [decode?, Word.mul?_eq_some.mpr product]
  show (Word.add? first column).bind s.split? = _
  rw [sum, Option.bind_some]

/-! ## Room -/

/-- With slots and columns, a table that has a height has all that is wanted. -/
theorem addresses_of_height (slot : 0 < s.maxDegree.toNat) (columns : 0 < s.width.toNat)
    (polynomials_eq : s.polynomials? = some polynomials) (slots_eq : s.slots? = some slots)
    (height_eq : s.height? = some height) : s.Addresses polynomials slots height where
  polynomials_eq := polynomials_eq
  slots_eq := slots_eq
  height_eq := height_eq
  bijective := by
    refine ⟨?_, ?_, ?_⟩
    · rintro ⟨id, k⟩ ⟨hid, hk⟩
      obtain ⟨a, ha, found⟩ := exists_address? polynomials_eq slots_eq hid hk
      exact ⟨a, ha, found.symm⟩
    · rintro ⟨id, k⟩ ⟨hid, hk⟩ ⟨id', k'⟩ ⟨hid', hk'⟩ same
      obtain ⟨a, -, found⟩ := exists_address? polynomials_eq slots_eq hid hk
      have found' : s.address? id' k' = some a := same.symm.trans found
      have first := (split?_eq_some slot).mpr ⟨found, hk⟩
      have second := (split?_eq_some slot).mpr ⟨found', hk'⟩
      exact Option.some.inj (first.symm.trans second)
    · rintro _ ⟨a, ha, rfl⟩
      obtain ⟨found, hk⟩ := (split?_eq_some slot).mp (split?_eq slot a)
      exact ⟨(a / s.maxDegree, a % s.maxDegree),
        ⟨(lt_polynomials_iff polynomials_eq slots_eq found hk).mpr ha, hk⟩, found⟩
  split := by
    intro id hid k hk
    obtain ⟨a, -, found⟩ := exists_address? polynomials_eq slots_eq hid hk
    rw [found, Option.bind_some, (split?_eq_some slot).mpr ⟨found, hk⟩]
  address := by
    intro a _
    rw [split?_eq slot, Option.bind_some, ((split?_eq_some slot).mp (split?_eq slot a)).1]
  distinct := by
    intro a _ b _ same
    have place := coordinate?_eq columns a
    have first := ((coordinate?_eq_some columns).mp place).1
    have second := ((coordinate?_eq_some columns).mp (same.symm.trans place)).1
    exact UInt64.toNat_inj.mp (first.trans second.symm)
  inside := by
    intro a ha
    have place := coordinate?_eq columns a
    obtain ⟨exact, hcolumn⟩ := (coordinate?_eq_some columns).mp place
    refine ⟨_, ?_, _, hcolumn, place⟩
    rw [lt_height_iff columns slots_eq height_eq]
    have below := UInt64.lt_iff_toNat_lt.mp ha
    omega
  used := by
    intro row hrow
    have begins := (lt_height_iff columns slots_eq height_eq).mp hrow
    obtain ⟨a, exact⟩ := Word.exists_toNat_eq (begins.trans slots.toNat_lt)
    exact ⟨a, UInt64.lt_iff_toNat_lt.mpr (exact ▸ begins), 0,
      (coordinate?_eq_some columns).mpr ⟨exact, UInt64.lt_iff_toNat_lt.mpr columns⟩⟩
  decode := by
    intro id hid k hk
    obtain ⟨a, -, found⟩ := exists_address? polynomials_eq slots_eq hid hk
    have place := coordinate?_eq columns a
    rw [found, Option.bind_some, place, Option.bind_some, decode?_eq columns place,
      (split?_eq_some slot).mpr ⟨found, hk⟩]

/-- With slots and columns, a table has a height exactly if there is room for its slots and another row at once. -/
theorem exists_height?_iff (columns : 0 < s.width.toNat) : (∃ height, s.height? = some height) ↔
    2 ^ (s.maxDegree.toNat + 1) * s.maxDegree.toNat + s.width.toNat < 2 ^ 64 := by
  constructor
  · rintro ⟨height, height_eq⟩
    exact ((height?_eq_some columns).mp height_eq).1
  · intro room
    have below : (2 ^ (s.maxDegree.toNat + 1) * s.maxDegree.toNat + s.width.toNat - 1) / s.width.toNat < 2 ^ 64 :=
      Nat.lt_of_le_of_lt (Nat.div_le_self _ _) (Nat.lt_of_le_of_lt (Nat.sub_le _ _) room)
    obtain ⟨height, exact⟩ := Word.exists_toNat_eq below
    exact ⟨height, (height?_eq_some columns).mpr ⟨room, exact⟩⟩

/-- A table with slots and columns has places as wanted exactly if there is room in a word for its slots and another
row at once. Otherwise it has no height. -/
theorem addresses_iff (s : WordShape) (slot : 1 ≤ s.maxDegree) (column : 1 ≤ s.width) :
    ((∃ polynomials slots height, s.Addresses polynomials slots height) ↔
      2 ^ (s.maxDegree.toNat + 1) * s.maxDegree.toNat + s.width.toNat < 2 ^ 64) ∧
    (s.height? = none ↔ ¬2 ^ (s.maxDegree.toNat + 1) * s.maxDegree.toNat + s.width.toNat < 2 ^ 64) := by
  have slot : 0 < s.maxDegree.toNat := UInt64.le_iff_toNat_le.mp slot
  have columns : 0 < s.width.toNat := UInt64.le_iff_toNat_le.mp column
  rw [← exists_height?_iff columns]
  refine ⟨⟨?_, ?_⟩, ?_⟩
  · rintro ⟨_, _, height, wanted⟩
    exact ⟨height, wanted.height_eq⟩
  · rintro ⟨height, height_eq⟩
    obtain ⟨slots, slots_eq, -⟩ := Option.bind_eq_some_iff.mp height_eq
    obtain ⟨polynomials, polynomials_eq, -⟩ := Option.bind_eq_some_iff.mp slots_eq
    exact ⟨polynomials, slots, height, addresses_of_height slot columns polynomials_eq slots_eq height_eq⟩
  · rw [← Option.isSome_iff_exists, Option.not_isSome_iff_eq_none]

/-- The usual table has room, and so has the widest one of a single slot that there is room for. -/
theorem addresses_iff_usual :
    (∃ polynomials slots height, Shape.usual.words.Addresses polynomials slots height) ∧
    (∃ polynomials slots height, (⟨3, 7⟩ : WordShape).Addresses polynomials slots height) ∧
    (∃ polynomials slots height,
      (⟨1, 18446744073709551611⟩ : WordShape).Addresses polynomials slots height) :=
  ⟨(addresses_iff _ (by decide) (by decide)).1.mpr (by decide),
    (addresses_iff _ (by decide) (by decide)).1.mpr (by decide),
    (addresses_iff _ (by decide) (by decide)).1.mpr (by decide)⟩

/-- Four slots are all in the first row of the widest table, and it would have the height one. But on the way to it
there is no room for another row. -/
theorem not_addresses_widest : let s : WordShape := ⟨1, 18446744073709551615⟩
    s.slots? = some 4 ∧ s.coordinate? 0 = some (0, 0) ∧ s.height? = none ∧
      (¬∃ polynomials slots height, s.Addresses polynomials slots height) ∧
      (⟨1, 18446744073709551615⟩ : Shape).height = 1 := by
  refine ⟨by decide, by decide, by decide, ?_, by decide⟩
  rintro ⟨_, _, height, wanted⟩
  have none : (⟨1, 18446744073709551615⟩ : WordShape).height? = .none := by decide
  exact Option.some_ne_none height (wanted.height_eq.symm.trans none)

end WordShape

/-- In words a shape has the measures that it has in whole numbers, as long as there is room for its slots and another
row at once. -/
theorem Shape.words_agree (s : Shape) (columns : 0 < s.width) (room : s.slots + s.width < 2 ^ 64) :
    s.words.polynomials?.map UInt64.toNat = some s.polynomials ∧
      s.words.slots?.map UInt64.toNat = some s.slots ∧
      s.words.height?.map UInt64.toNat = some s.height := by
  have slot : s.maxDegree ≤ s.slots := Nat.le_mul_of_pos_left _ (Nat.two_pow_pos _)
  have degree : s.words.maxDegree.toNat = s.maxDegree := Nat.mod_eq_of_lt (by omega)
  have width : s.words.width.toNat = s.width := Nat.mod_eq_of_lt (by omega)
  have positive : 0 < s.words.width.toNat := width ▸ columns
  have fits : 2 ^ (s.words.maxDegree.toNat + 1) * s.words.maxDegree.toNat + s.words.width.toNat < 2 ^ 64 := by
    rw [degree, width]
    exact room
  obtain ⟨height, height_eq⟩ := (WordShape.exists_height?_iff positive).mpr fits
  obtain ⟨slots, slots_eq, -⟩ := Option.bind_eq_some_iff.mp height_eq
  obtain ⟨polynomials, polynomials_eq, -⟩ := Option.bind_eq_some_iff.mp slots_eq
  rw [height_eq, slots_eq, polynomials_eq, Option.map_some, Option.map_some, Option.map_some,
    WordShape.polynomials?_eq_some.mp polynomials_eq, WordShape.slots?_eq_some.mp slots_eq,
    ((WordShape.height?_eq_some positive).mp height_eq).2, degree, width]
  exact ⟨rfl, rfl, rfl⟩

end Argand.Littlewood
