import Argand.Proofs.Expr.Height
import Argand.Proofs.Expr.Scanning
import Mathlib.Order.Bounds.Basic

/-!
# The tallest expressions

Texts whose expressions are as tall as can be. A `tower` has at each of its levels a power, a product of
as many factors as there are levels left, and a sum of as many terms, each wrapped around the one before.
With `n` levels that makes `n * (n + 1) - 1` nodes on the longest branch, so the bound of
`Derivable.height_lt` is attained; for the limit of this library it is 65791, where `nestingLimit` is 256
(`Expr.isGreatest_height_parse`).

The limit is meant for the height. It keeps to it exactly on the expressions in which the turns to the
left find room (`Expr.height_parse_le_iff`); a plain product of 256 factors plus one more term is too
high (`Expr.nestingLimit_lt_height_parse`).
-/

namespace Argand

/-! ## Chains and towers -/

theorem Expr.height_pos (e : Expr) : 1 ≤ e.height := by
  cases e <;> simp only [Expr.height] <;> omega

/-- The variable that stands wherever the height of an operand does not matter. -/
def leaf : Expr :=
  .symbol "z"

/-- An expression with `n` operands after it in a chain. -/
def Expr.chained (operation : String) : Nat → Expr → Expr
  | 0, e => e
  | n + 1, e => .call operation [e.chained operation n, leaf]

/-- The tallest expression of `m + 1` levels. -/
def tower : Nat → Expr
  | 0 => leaf
  | m + 1 =>
    ((Expr.call "pow" [.group (tower m), leaf]).chained "multiply" (m + 1)).chained "add" (m + 1)

theorem Expr.height_chained (operation : String) (e : Expr) :
    ∀ n, (e.chained operation n).height = e.height + n
  | 0 => rfl
  | n + 1 => by
    have := e.height_chained operation n
    have := e.height_pos
    simp only [chained, leaf, height, operandsHeight]
    omega

theorem height_tower : ∀ m, (tower m).height + 1 = (m + 1) * (m + 2)
  | 0 => rfl
  | m + 1 => by
    have := height_tower m
    simp only [tower, leaf, Expr.height_chained, Expr.height, Expr.operandsHeight, Nat.mul_add,
      Nat.add_mul] at *
    omega

section Writing

variable {α : Type} (letter : Token → α)

/-- The letters of `n` operands of a chain, each behind its sign, and of what follows. -/
def chainedLetters (sign : Token) : Nat → List α → List α
  | 0, rest => rest
  | n + 1, rest => chainedLetters sign n (letter sign :: letter (.name "z") :: rest)

/-- The letters of a tower, and of what follows. -/
def towerLetters : Nat → List α → List α
  | 0, rest => letter (.name "z") :: rest
  | m + 1, rest =>
    letter .opening :: towerLetters m (letter .closing :: letter .power :: letter (.name "z") ::
      chainedLetters letter .times (m + 1) (chainedLetters letter .plus (m + 1) rest))

end Writing

namespace Derives

variable {limit : Nat}

theorem Signed.leaf {d rest} (room : d + 1 ≤ limit) (hrest : rest.head? ≠ some .opening) :
    Signed limit d (.name "z" :: rest) leaf rest :=
  .power room (.base (.name hrest))

theorem Term.chained {d n ts e} : ∀ (k : Nat) {rest : List Token}, d + n + k + 1 ≤ limit →
    rest.head? ≠ some .opening → Term limit d n ts e (chainedLetters id .times k rest) →
    Term limit d (n + k) ts (e.chained "multiply" k) rest
  | 0, _, _, _, h => h
  | k + 1, _, room, hrest, h => by
    have before := Term.chained k (by omega) (by simp) h
    have next : Signed limit (d + (n + k + 1)) _ _ _ := .leaf (by omega) hrest
    exact .times before next

theorem Expression.chained {d n ts e} : ∀ (k : Nat) {rest : List Token}, d + n + k + 1 ≤ limit →
    rest.head? ≠ some .opening → Expression limit d n ts e (chainedLetters id .plus k rest) →
    Expression limit d (n + k) ts (e.chained "add" k) rest
  | 0, _, _, _, h => h
  | k + 1, _, room, hrest, h => by
    have before := Expression.chained k (by omega) (by simp) h
    have next : Signed limit (d + (n + k + 1)) _ _ _ := .leaf (by omega) hrest
    exact .plus before (.one next)

theorem head?_chainedLetters (sign : Token) (hsign : sign ≠ .opening) :
    ∀ (k : Nat) {rest : List Token}, rest.head? ≠ some .opening →
      (chainedLetters id sign k rest).head? ≠ some .opening
  | 0, _, hrest => hrest
  | k + 1, _, _ => head?_chainedLetters sign hsign k fun h => hsign (Option.some.inj h)

/-- A tower of `m + 1` levels is derived where `m + 1` levels are left. -/
theorem Expression.tower : ∀ (m : Nat) {d : Nat} {rest : List Token}, d + (m + 1) ≤ limit →
    rest.head? ≠ some .opening → Expression limit d m (towerLetters id m rest) (tower m) rest
  | 0, _, _, room, hrest => .one (.one (Signed.leaf room hrest))
  | m + 1, d, rest, room, hrest => by
    have hplus := head?_chainedLetters .plus nofun (m + 1) hrest
    have htimes := head?_chainedLetters .times nofun (m + 1) hplus
    have inner : Expression limit (d + 1) m _ _ (.closing :: .power :: .name "z" ::
        chainedLetters id .times (m + 1) (chainedLetters id .plus (m + 1) rest)) :=
      .tower m (by omega) (by simp)
    have power := Power.raised (.group inner) (Signed.leaf (by omega) htimes)
    have term := Term.chained (m + 1) (by omega) hplus (.one (.power (by omega) power))
    have expression := Expression.chained (m + 1) (by omega) hrest (.one term)
    rwa [Nat.zero_add] at expression

end Derives

theorem derivable_tower (m : Nat) : Derivable (m + 1) (towerLetters id m []) (tower m) :=
  ⟨m, .tower m (by omega) nofun⟩

/-! ## Texts -/

/-- The character of a token of a tower. -/
def towerCharacter (t : Token) : Char :=
  t.sign?.getD 'z'

theorem scans_leaf {cs : List Char} {ts : List Token} (h : Scans cs ts)
    (ends : Ends continuesName cs) : Scans ('z' :: cs) (.name "z" :: ts) :=
  @Scans.name 'z' cs ts [] (by decide +kernel) (by decide) (by decide +kernel) nofun ends h

theorem scans_chainedLetters (sign : Token) {c : Char} (hc : sign.sign? = some c)
    (hname : continuesName c = false) {cs : List Char} {ts : List Token} (n : Nat) (h : Scans cs ts)
    (ends : Ends continuesName cs) :
    Scans (chainedLetters towerCharacter sign n cs) (chainedLetters id sign n ts) ∧
      Ends continuesName (chainedLetters towerCharacter sign n cs) := by
  induction n generalizing cs ts with
  | zero => exact ⟨h, ends⟩
  | succ n ih =>
    have hsign : towerCharacter sign = c := by rw [towerCharacter, hc, Option.getD_some]
    rw [chainedLetters, chainedLetters, hsign]
    exact ih (.sign hc (scans_leaf h ends)) hname

/-- The signs of a sum of products, and the letters between them. -/
theorem scans_chains (m k : Nat) {cs : List Char} {ts : List Token} (h : Scans cs ts)
    (ends : Ends continuesName cs) :
    Scans (chainedLetters towerCharacter .times m (chainedLetters towerCharacter .plus k cs))
        (chainedLetters id .times m (chainedLetters id .plus k ts)) ∧
      Ends continuesName
        (chainedLetters towerCharacter .times m (chainedLetters towerCharacter .plus k cs)) := by
  obtain ⟨h, ends⟩ := scans_chainedLetters .plus rfl (by decide +kernel) k h ends
  exact scans_chainedLetters .times rfl (by decide +kernel) m h ends

theorem scans_towerLetters (m : Nat) {cs : List Char} {ts : List Token} (h : Scans cs ts)
    (ends : Ends continuesName cs) :
    Scans (towerLetters towerCharacter m cs) (towerLetters id m ts) := by
  induction m generalizing cs ts with
  | zero => exact scans_leaf h ends
  | succ m ih =>
    obtain ⟨h, ends⟩ := scans_chains (m + 1) (m + 1) h ends
    have closing : continuesName ')' = false := by decide +kernel
    exact .sign rfl (ih (.sign rfl (.sign rfl (scans_leaf h ends))) closing)

theorem Expr.parse_of_scans {cs : List Char} {ts : List Token} {e : Expr} (h : Scans cs ts)
    (hd : Derivable nestingLimit ts e) : Expr.parse (String.ofList cs) = .ok e := by
  obtain ⟨ls, hls, rfl⟩ := h 0
  exact Expr.parse_eq_ok_iff.2 ⟨ls, by rw [String.toList_ofList, hls], hd⟩

/-- The height of what a text reads as is bounded by the square of the limit on nesting, about, and the
bound is attained. -/
theorem Expr.isGreatest_height_parse :
    IsGreatest {h | ∃ source e, Expr.parse source = .ok e ∧ e.height = h}
      (nestingLimit * (nestingLimit + 1) - 1) := by
  constructor
  · have scans := scans_towerLetters 255 Scans.nil trivial
    exact ⟨_, tower 255, Expr.parse_of_scans scans (derivable_tower 255),
      Nat.eq_sub_of_add_eq (height_tower 255)⟩
  · rintro h ⟨source, e, he, rfl⟩
    obtain ⟨ls, -, hd⟩ := Expr.parse_eq_ok_iff.1 he
    exact Nat.le_sub_one_of_lt hd.height_lt

example : nestingLimit * (nestingLimit + 1) - 1 = 65791 := rfl

/-- The text of a product with `m` signs and `k` plus signs behind it. -/
def chainText (m k : Nat) : String :=
  String.ofList ('z' ::
    chainedLetters towerCharacter .times m (chainedLetters towerCharacter .plus k []))

theorem Expr.parse_chainText {m k : Nat} (hm : m < nestingLimit) (hk : k < nestingLimit) :
    Expr.parse (chainText m k) = .ok ((leaf.chained "multiply" m).chained "add" k) := by
  obtain ⟨scans, ends⟩ := scans_chains m k Scans.nil trivial
  refine Expr.parse_of_scans (scans_leaf scans ends) ⟨k, ?_⟩
  have hend : ([] : List Token).head? ≠ some .opening := nofun
  have hplus := Derives.head?_chainedLetters .plus nofun k hend
  have htimes := Derives.head?_chainedLetters .times nofun m hplus
  have first : Derives.Signed nestingLimit 0 _ _ _ := .leaf (by decide) htimes
  have term := Derives.Term.chained m (by omega) hplus (.one first)
  have expression := Derives.Expression.chained k (by omega) hend (.one term)
  rwa [Nat.zero_add] at expression

/-- What a text reads as has no more levels on any branch than the limit on nesting. So it is no higher
than the limit exactly if every branch has room for its turns to the left. -/
theorem Expr.height_parse_le_iff {source : String} {e : Expr} (h : Expr.parse source = .ok e) :
    e.Fits nestingLimit ∧
      (e.height ≤ nestingLimit ↔ ∀ b ∈ e.branches, b.turns ≤ nestingLimit - b.levels) ∧
      e.height < nestingLimit * (nestingLimit + 1) := by
  obtain ⟨ls, -, hd⟩ := Expr.parse_eq_ok_iff.1 h
  exact ⟨hd.fits, hd.height_le_iff, hd.height_lt⟩

/-- The limit holds for `z*z+z`. -/
theorem Expr.height_parse_le_iff_sum :
    ∃ e, Expr.parse (chainText 1 1) = .ok e ∧ e.height = 3 ∧
      ∀ b ∈ e.branches, b.turns ≤ nestingLimit - b.levels := by
  have h := Expr.parse_chainText (m := 1) (k := 1) (by decide) (by decide)
  refine ⟨_, h, rfl, ?_⟩
  exact (Expr.height_parse_le_iff h).2.1.mp (by decide)

/-- It does not hold for a product of 256 factors plus another one. -/
theorem Expr.nestingLimit_lt_height_parse :
    ∃ e, Expr.parse (chainText 255 1) = .ok e ∧ nestingLimit < e.height := by
  refine ⟨_, Expr.parse_chainText (m := 255) (k := 1) (by decide) (by decide), ?_⟩
  rw [Expr.height_chained, Expr.height_chained]
  decide

end Argand
