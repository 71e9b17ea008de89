import Argand.CommandLine.Run
import Argand.Proofs.Outcome

/-!
# Values are read twice

A number on the command line is read by its check, and again by the run. `seen?` is what the check reads, and the
check accepts it if it is `Allowed` (`complaint?_eq_none`). `conversion` is what the run reads. Both use the same
reader for every parameter but one : the number of passes is checked as a signed number and read as a count. The two
readers differ in minus signs, and a signed number that is not negative can have one only as `MinusZero`. So the run
reads what the check has seen, unless it is that (`conversion_eq_ok`).
-/

namespace Argand

/-! ## Whole numbers -/

variable {cs : List Char} {most most' n : Nat} {text : String}

theorem readDigits?_eq_some : readDigits? most cs = some n ↔
    cs ≠ [] ∧ cs.all isDigit = true ∧ digitsValue cs = n ∧ n ≤ most := by
  rw [readDigits?]
  split
  · rename_i h
    simp only [Bool.or_eq_true, List.isEmpty_iff, Bool.not_eq_true'] at h
    refine iff_of_false nofun fun ⟨some_digit, digits, _⟩ => ?_
    rcases h with h | h
    · exact some_digit h
    · rw [h] at digits
      cases digits
  · rename_i h
    simp only [Bool.or_eq_true, List.isEmpty_iff, Bool.not_eq_true', not_or, Bool.not_eq_false] at h
    dsimp only
    split
    · rename_i bound
      rw [Option.some.injEq]
      exact ⟨fun value => ⟨h.1, h.2, value, value ▸ bound⟩, fun h => h.2.2.1⟩
    · rename_i bound
      exact iff_of_false nofun fun ⟨_, _, value, below⟩ => bound (value ▸ below)

theorem eq_zero_of_isDigit {c : Char} (digit : isDigit c = true) (h : c.toNat - '0'.toNat = 0) : c = '0' := by
  rw [isDigit, Bool.and_eq_true, decide_eq_true_eq] at digit
  have low : '0'.toNat ≤ c.toNat := digit.1
  exact Char.toNat_inj.mp (Nat.le_antisymm (Nat.le_of_sub_eq_zero h) low)

/-- Digits that are worth nothing are zeros. -/
theorem eq_zero_of_foldl : ∀ {cs : List Char} {n : Nat}, cs.all isDigit = true →
    cs.foldl (fun n c => 10 * n + (c.toNat - '0'.toNat)) n = 0 → n = 0 ∧ ∀ c ∈ cs, c = '0'
  | [], _, _, h => ⟨h, nofun⟩
  | c :: cs, n, digits, h => by
    rw [List.all_cons, Bool.and_eq_true] at digits
    obtain ⟨first, zeros⟩ := eq_zero_of_foldl digits.2 h
    obtain ⟨n_zero, c_zero⟩ := Nat.add_eq_zero_iff.mp first
    exact ⟨by omega, List.forall_mem_cons.mpr ⟨eq_zero_of_isDigit digits.1 c_zero, zeros⟩⟩

theorem eq_replicate_of_digitsValue (digits : cs.all isDigit = true) (h : digitsValue cs = 0) :
    cs = List.replicate cs.length '0' :=
  List.eq_replicate_of_mem (eq_zero_of_foldl digits h).2

namespace CommandLine

/-- A zero behind a minus sign. -/
def MinusZero (text : String) : Prop :=
  ∃ n, text.toList = '-' :: List.replicate (n + 1) '0'

theorem readCount?_of_minusZero (h : MinusZero text) : readCount? text = none := by
  obtain ⟨n, h⟩ := h
  rw [readCount?, readNat?, h]
  rfl

theorem readCount?_of_readSigned? {i : Int} (h : readSigned? text = some i) (positive : 0 ≤ i)
    (proper : ¬MinusZero text) : readCount? text = some i.toNat := by
  have wide {cs : List Char} {n : Nat} (read : readDigits? (Nat.pow 2 31 - 1) cs = some n) :
      readDigits? (Nat.pow 2 64 - 1) cs = some n := by
    obtain ⟨some_digit, digits, value, within⟩ := readDigits?_eq_some.mp read
    exact readDigits?_eq_some.mpr ⟨some_digit, digits, value, Nat.le_trans within (by decide)⟩
  rw [readSigned?, readInt?] at h
  rw [readCount?, readNat?]
  split at h
  · rename_i cs minus
    cases read : readDigits? (Nat.pow 2 31 - 1 + 1) cs with
    | none =>
      rw [read] at h
      cases h
    | some n =>
      rw [read] at h
      obtain rfl : -(n : Int) = i := Option.some.inj h
      obtain ⟨some_digit, digits, value, -⟩ := readDigits?_eq_some.mp read
      obtain rfl : n = 0 := by omega
      refine absurd ⟨cs.length - 1, ?_⟩ proper
      rw [minus, Nat.sub_add_cancel (List.length_pos_iff.mpr some_digit),
        ← eq_replicate_of_digitsValue digits value]
  · rename_i cs plus
    obtain ⟨n, read, rfl⟩ := Option.map_eq_some_iff.mp h
    rw [plus]
    exact wide read
  · rename_i no_minus no_plus
    obtain ⟨n, read, rfl⟩ := Option.map_eq_some_iff.mp h
    split
    · rename_i plus
      exact absurd plus (no_plus _)
    · exact wide read

/-! ## Readings -/

/-- A value that is read from a text. -/
inductive Reading where
  | sides (size : Nat × Nat)
  | point (z : Point Float)
  | real (x : Float)
  | whole (n : Int)

/-- The parameters whose values are numbers, or pairs of them. -/
def Parameter.numbers : List Parameter :=
  [.size, .center, .zoom, .julia, .start, .advances, .threads, .seed]

/-- What the check of a parameter reads. -/
def seen? : Parameter → String → Option Reading
  | .size, text => (readSize? text).map .sides
  | .center, text | .julia, text | .start, text => (readPoint? text).map .point
  | .zoom, text => (readFloat? text).map .real
  | .advances, text => (readSigned? text).map .whole
  | .threads, text => (readCount? text).map fun n : Nat => .whole n
  | .seed, text => (readWord? text).map fun n : Nat => .whole n
  | .mode, _ | .output, _ | .function, _ | .derivative, _ | .palette, _ => none

/-- What the check of a parameter lets through. -/
def Allowed (cores : Nat) : Parameter → Reading → Prop
  | .zoom, .real x => leastZoom ≤ x ∧ x ≤ greatestZoom
  | .advances, .whole n => 0 ≤ n ∧ n ≤ 100000
  | .threads, .whole n => 1 ≤ n ∧ n ≤ cores
  | .seed, .whole n => 0 ≤ n ∧ n ≤ (Nat.pow 2 32 - 1 : Nat)
  | _, _ => True

/-- What a run reads as the value of a parameter, if there is one. -/
def conversion (p : Parameter) (items : List Item) : Except Failure (Option Reading) :=
  match p with
  | .size =>
    match readSize? (textOf .size items) with
    | some size => .ok (some (.sides size))
    | none => .error .unreadableSize
  | .center | .julia | .start => (readValue readPoint? p items).map fun z => some (.point z)
  | .zoom => (readValue readFloat? .zoom items).map fun x => some (.real x)
  | .advances | .threads => (readValue? readCount? p items).map (·.map fun n : Nat => .whole n)
  | .seed => (readValue? readWord? .seed items).map (·.map fun n : Nat => .whole n)
  | .mode | .output | .function | .derivative | .palette => .ok none

variable {cores : Nat} {p : Parameter} {items : List Item} {r : Reading}

theorem checkReadable_eq_none {α : Type} {message : String} {x : Option α} :
    checkReadable message x = none ↔ ∃ a, x = some a := by
  cases x with
  | none => exact iff_of_false nofun nofun
  | some a => exact iff_of_true rfl ⟨a, rfl⟩

theorem checkWithin_eq_none {α : Type} [LE α] [DecidableLE α] {low high : α} {unreadable outside : String}
    {x : Option α} :
    checkWithin low high unreadable outside x = none ↔ ∃ a, x = some a ∧ low ≤ a ∧ a ≤ high := by
  cases x with
  | none => exact iff_of_false nofun nofun
  | some a =>
    rw [checkWithin]
    split
    · rename_i within
      exact iff_of_true rfl ⟨a, rfl, within⟩
    · rename_i beyond
      refine iff_of_false nofun fun ⟨b, same, within⟩ => beyond ?_
      cases same
      exact within

theorem exists_map_eq_some {α β : Type} {x : Option α} {f : α → β} {P : β → Prop} :
    (∃ b, x.map f = some b ∧ P b) ↔ ∃ a, x = some a ∧ P (f a) := by
  cases x <;> simp

/-- A text is accepted if what the check reads is allowed. -/
theorem complaint?_eq_none (number : p ∈ Parameter.numbers) :
    complaint? cores p text = none ↔ ∃ r, seen? p text = some r ∧ Allowed cores p r := by
  cases p
  case mode | output | function | derivative | palette => exact absurd number (by decide)
  case size | center | julia | start =>
    rw [complaint?, checkReadable_eq_none, seen?, exists_map_eq_some]
    exact exists_congr fun a => (and_iff_left trivial).symm
  case zoom | advances =>
    rw [complaint?, checkWithin_eq_none, seen?, exists_map_eq_some]
    rfl
  case threads | seed =>
    rw [complaint?, checkWithin_eq_none, seen?, exists_map_eq_some]
    exact exists_congr fun n => and_congr_right fun _ => and_congr Int.ofNat_le.symm Int.ofNat_le.symm

theorem readValue_eq_ok {α : Type} {read : String → Option α} {a : α} (given : value? p items = some text)
    (h : read text = some a) : readValue read p items = .ok a := by
  rw [readValue, textOf, given, Option.getD_some, h]

theorem readValue?_eq_ok {α : Type} {read : String → Option α} {a : α} (given : value? p items = some text)
    (h : read text = some a) : readValue? read p items = .ok (some a) := by
  rw [readValue?, given]
  dsimp only
  rw [readValue_eq_ok given h]
  rfl

/-- A run reads again what the check has read, but for the number of passes. -/
theorem conversion_of_seen (given : value? p items = some text) (seen : seen? p text = some r)
    (other : p ≠ .advances) : conversion p items = .ok (some r) := by
  cases p
  case mode | output | function | derivative | palette => cases seen
  case advances => exact absurd rfl other
  all_goals obtain ⟨a, read, rfl⟩ := Option.map_eq_some_iff.mp seen
  case size =>
    rw [conversion, textOf, given, Option.getD_some, read]
  case center | julia | start | zoom =>
    rw [conversion, readValue_eq_ok given read]
    rfl
  case threads | seed =>
    rw [conversion, readValue?_eq_ok given read]
    rfl

theorem conversion_minusZero (given : value? .advances items = some text) (minus : MinusZero text) :
    conversion .advances items = .error (.unreadable .advances text) := by
  rw [conversion, readValue?, given]
  dsimp only
  rw [readValue, textOf, given, Option.getD_some, readCount?_of_minusZero minus]
  rfl

theorem conversion_advances {n : Int} (given : value? .advances items = some text)
    (seen : readSigned? text = some n) (positive : 0 ≤ n) (proper : ¬MinusZero text) :
    conversion .advances items = .ok (some (.whole n)) := by
  rw [conversion, readValue?_eq_ok given (readCount?_of_readSigned? seen positive proper)]
  show Except.ok (some (Reading.whole (n.toNat : Int))) = _
  rw [Int.toNat_of_nonneg positive]

/-- A run reads what the check has read, and accepted, unless it is a zero behind a minus sign as a number of
passes. -/
theorem conversion_eq_ok (number : p ∈ Parameter.numbers) (given : value? p items = some text)
    (accepted : complaint? cores p text = none) :
    (∃ r, seen? p text = some r ∧ conversion p items = .ok (some r)) ↔ ¬(p = .advances ∧ MinusZero text) := by
  obtain ⟨r, seen, allowed⟩ := (complaint?_eq_none number).mp accepted
  constructor
  · rintro ⟨r, -, converted⟩ ⟨rfl, minus⟩
    rw [conversion_minusZero given minus] at converted
    cases converted
  · intro proper
    refine ⟨r, seen, ?_⟩
    by_cases advances : p = .advances
    · subst advances
      obtain ⟨n, read, rfl⟩ := Option.map_eq_some_iff.mp seen
      exact conversion_advances given read allowed.1 fun minus => proper ⟨rfl, minus⟩
    · exact conversion_of_seen given seen advances

end CommandLine

end Argand
