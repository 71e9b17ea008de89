import Argand.Proofs.Expr.Completeness

/-!
# How tall expressions get

The limit on nesting bounds the depth at which phrases are entered. It does not bound the height of
what is read : a sign adds a node above all that stands before it, and a power a node above its base,
while only what follows is entered deeper. With `m + 1` levels left, an operand that is as tall as can
be leaves room for `m` signs of a term and `m` signs of an expression, each of which adds a node. So an
expression of `n` levels has less than `n * (n + 1)` nodes on its longest branch
(`Derivable.height_lt`).

What the limit does bound is the number of nodes on a branch (`Branch`) without the calls of two
operands that it leaves for the first of them (`Derivable.fits`). The height is within the limit
exactly when such turns to the left find room on every branch (`Derivable.height_le_iff`).
-/

namespace Argand

namespace Derives

variable {limit : Nat}

/-! ## The bound -/

/-- The height of the tallest call or group with `m` levels left. -/
def tallest (m : Nat) : Nat :=
  m * (m + 1)

theorem tallest_eq {m : Nat} (h : 0 < m) : tallest m = tallest (m - 1) + 2 * m := by
  obtain ⟨k, rfl⟩ : ∃ k, m = k + 1 := ⟨m - 1, by omega⟩
  simp only [tallest, Nat.mul_add, Nat.add_mul, Nat.add_sub_cancel]
  omega

mutual

/-- A term adds `m` nodes to its operands at most, and an expression of `n + 1` terms adds `n`. -/
theorem Expression.height_le {d n ts e rest} :
    Expression limit d n ts e rest → ∀ m, limit ≤ d + (m + 1) → e.height ≤ tallest m + 1 + m + n
  | .one first, m, hm => by
    have := first.height_le m hm
    have := first.room
    omega
  | .plus before next, m, hm | .minus before next, m, hm => by
    have := before.height_le m hm
    have := next.height_le m (by omega)
    have := next.room
    simp only [Expr.height, Expr.operandsHeight]
    omega

theorem Term.height_le {d n ts e rest} :
    Term limit d n ts e rest → ∀ m, limit ≤ d + (m + 1) → e.height ≤ tallest m + 1 + n
  | .one first, m, hm => first.height_le m hm
  | .times before next, m, hm | .divide before next, m, hm | .juxtaposed before _ next, m, hm => by
    have := before.height_le m hm
    have := next.height_le m (by omega)
    simp only [Expr.height, Expr.operandsHeight]
    omega

theorem Signed.height_le {d ts e rest} :
    Signed limit d ts e rest → ∀ m, limit ≤ d + (m + 1) → e.height ≤ tallest m + 1
  | .minus _ operand, m, hm => by
    have := operand.room
    have := @tallest_eq m (by omega)
    have := operand.height_le (m - 1) (by omega)
    simp only [Expr.height, Expr.operandsHeight]
    omega
  | .plus _ operand, m, hm => by
    have := operand.room
    have := @tallest_eq m (by omega)
    have := operand.height_le (m - 1) (by omega)
    omega
  | .power _ inside, m, hm => inside.height_le m (by omega)

theorem Power.height_le {d ts e rest} :
    Power limit d ts e rest → ∀ m, limit ≤ d + m → e.height ≤ tallest m + 1
  | .base only, m, hm => by
    have := only.height_le m hm
    omega
  | .raised below above, m, hm => by
    have := above.room
    have := below.height_le m hm
    have := @tallest_eq m (by omega)
    have := above.height_le (m - 1) (by omega)
    simp only [Expr.height, Expr.operandsHeight]
    omega

theorem Primary.height_le {d ts e rest} :
    Primary limit d ts e rest → ∀ m, limit ≤ d + m → e.height ≤ max 1 (tallest m)
  | .number, m, hm | .name _, m, hm => by
    simp only [Expr.height]
    omega
  | .call inside, m, hm => by
    simpa only [Expr.height] using inside.height_lt m hm
  | .group inside, m, hm => by
    have := inside.room
    have := @tallest_eq m (by omega)
    have := inside.height_le (m - 1) (by omega)
    simp only [Expr.height]
    omega

theorem Operands.height_lt {d ts es rest} :
    Operands limit d ts es rest → ∀ m, limit ≤ d + m →
      Expr.operandsHeight es + 1 ≤ max 1 (tallest m)
  | .none, m, hm => by
    simp only [Expr.operandsHeight]
    omega
  | .some inside, m, hm => by
    have := inside.height_lt m hm
    omega

theorem Separated.height_lt {d ts es rest} :
    Separated limit d ts es rest → ∀ m, limit ≤ d + m → Expr.operandsHeight es < tallest m
  | .last only, m, hm => by
    have := only.room
    have := @tallest_eq m (by omega)
    have := only.height_le (m - 1) (by omega)
    simp only [Expr.operandsHeight]
    omega
  | .more first others, m, hm => by
    have := others.height_lt m hm
    have := first.room
    have := @tallest_eq m (by omega)
    have := first.height_le (m - 1) (by omega)
    simp only [Expr.operandsHeight]
    omega

end

end Derives

/-! ## Branches -/

/-- The way from the root of an expression to a leaf. -/
structure Branch where
  /-- The nodes on the way, but for those where it turns to the left. -/
  levels : Nat
  /-- How often the way leaves a call of two operands for the first of them. -/
  turns : Nat

namespace Branch

/-- The branch of a node without operands. -/
def leaf : Branch :=
  ⟨1, 0⟩

/-- A branch below a node that counts. -/
def descend (b : Branch) : Branch :=
  ⟨b.levels + 1, b.turns⟩

/-- A branch in the first operand of a call of two. -/
def turn (b : Branch) : Branch :=
  ⟨b.levels, b.turns + 1⟩

/-- The nodes on the way. -/
def length (b : Branch) : Nat :=
  b.levels + b.turns

theorem length_descend (b : Branch) : b.descend.length = b.length + 1 :=
  Nat.add_right_comm b.levels 1 b.turns

theorem length_turn (b : Branch) : b.turn.length = b.length + 1 :=
  rfl

end Branch

mutual

/-- The branches of an expression, from left to right. -/
def Expr.branches : Expr → List Branch
  | .symbol _ => [.leaf]
  | .literal _ => [.leaf]
  | .call _ [] => [.leaf]
  | .call _ [left, right] => left.branches.map .turn ++ right.branches.map .descend
  | .call _ operands => (Expr.operandsBranches operands).map .descend
  | .group inner => inner.branches.map .descend

/-- The branches of operands. -/
def Expr.operandsBranches : List Expr → List Branch
  | [] => []
  | e :: es => e.branches ++ Expr.operandsBranches es

end

mutual

theorem Expr.length_le_height : ∀ (e : Expr), ∀ b ∈ e.branches, b.length ≤ e.height
  | .symbol _, b, hb | .literal _, b, hb | .call _ [], b, hb => by
    rw [List.mem_singleton.mp hb]
    exact Nat.le_refl 1
  | .call _ [left, right], b, hb => by
    simp only [Expr.height, Expr.operandsHeight]
    rcases List.mem_append.mp hb with hb | hb
    · obtain ⟨below, hbelow, rfl⟩ := List.mem_map.mp hb
      have := Expr.length_le_height left below hbelow
      rw [Branch.length_turn]
      omega
    · obtain ⟨below, hbelow, rfl⟩ := List.mem_map.mp hb
      have := Expr.length_le_height right below hbelow
      rw [Branch.length_descend]
      omega
  | .call _ [a], b, hb => by
    obtain ⟨below, hbelow, rfl⟩ := List.mem_map.mp hb
    rw [Branch.length_descend]
    exact Nat.succ_le_succ (Expr.length_le_operandsHeight [a] below hbelow)
  | .call _ (a :: a' :: a'' :: es), b, hb => by
    obtain ⟨below, hbelow, rfl⟩ := List.mem_map.mp hb
    rw [Branch.length_descend]
    exact Nat.succ_le_succ (Expr.length_le_operandsHeight (a :: a' :: a'' :: es) below hbelow)
  | .group inner, b, hb => by
    obtain ⟨below, hbelow, rfl⟩ := List.mem_map.mp hb
    rw [Branch.length_descend]
    exact Nat.succ_le_succ (Expr.length_le_height inner below hbelow)

theorem Expr.length_le_operandsHeight : ∀ (es : List Expr), ∀ b ∈ Expr.operandsBranches es,
    b.length ≤ Expr.operandsHeight es
  | e :: es, b, hb => by
    simp only [Expr.operandsHeight]
    rcases List.mem_append.mp hb with hb | hb
    · have := Expr.length_le_height e b hb
      omega
    · have := Expr.length_le_operandsHeight es b hb
      omega

end

mutual

/-- Some branch is as long as the expression is high. -/
theorem Expr.exists_length_eq : ∀ e : Expr, ∃ b ∈ e.branches, b.length = e.height
  | .symbol _ | .literal _ | .call _ [] => ⟨.leaf, List.mem_cons_self, rfl⟩
  | .call _ [left, right] => by
    simp only [Expr.branches, Expr.height, Expr.operandsHeight, List.mem_append, List.mem_map]
    rcases Nat.le_total right.height left.height with h | h
    · obtain ⟨b, hb, hlength⟩ := Expr.exists_length_eq left
      refine ⟨b.turn, .inl ⟨b, hb, rfl⟩, ?_⟩
      rw [Branch.length_turn]
      omega
    · obtain ⟨b, hb, hlength⟩ := Expr.exists_length_eq right
      refine ⟨b.descend, .inr ⟨b, hb, rfl⟩, ?_⟩
      rw [Branch.length_descend]
      omega
  | .call _ [a] => by
    obtain ⟨b, hb, hlength⟩ := Expr.exists_length_eq_operands [a] nofun
    exact ⟨b.descend, List.mem_map_of_mem hb, by rw [Branch.length_descend, hlength]; rfl⟩
  | .call _ (a :: a' :: a'' :: es) => by
    obtain ⟨b, hb, hlength⟩ := Expr.exists_length_eq_operands (a :: a' :: a'' :: es) nofun
    exact ⟨b.descend, List.mem_map_of_mem hb, by rw [Branch.length_descend, hlength]; rfl⟩
  | .group inner => by
    obtain ⟨b, hb, hlength⟩ := Expr.exists_length_eq inner
    exact ⟨b.descend, List.mem_map_of_mem hb, by rw [Branch.length_descend, hlength]; rfl⟩

theorem Expr.exists_length_eq_operands : ∀ es : List Expr, es ≠ [] →
    ∃ b ∈ Expr.operandsBranches es, b.length = Expr.operandsHeight es
  | [e], _ => by
    obtain ⟨b, hb, hlength⟩ := Expr.exists_length_eq e
    refine ⟨b, List.mem_append_left _ hb, ?_⟩
    simp only [Expr.operandsHeight]
    omega
  | e :: e' :: es, _ => by
    rw [Expr.operandsBranches, Expr.operandsHeight]
    rcases Nat.le_total (Expr.operandsHeight (e' :: es)) e.height with h | h
    · obtain ⟨b, hb, hlength⟩ := Expr.exists_length_eq e
      exact ⟨b, List.mem_append_left _ hb, by omega⟩
    · obtain ⟨b, hb, hlength⟩ := Expr.exists_length_eq_operands (e' :: es) nofun
      exact ⟨b, List.mem_append_right _ hb, by omega⟩

end

/-! ## What the limit bounds -/

/-- Every branch of an expression has at most `n` levels. -/
def Expr.Fits (n : Nat) (e : Expr) : Prop :=
  ∀ b ∈ e.branches, b.levels ≤ n

/-- Every branch of some operands has at most `n` levels. -/
def Expr.OperandsFit (n : Nat) (es : List Expr) : Prop :=
  ∀ b ∈ Expr.operandsBranches es, b.levels ≤ n

namespace Expr

variable {n : Nat}

theorem fits_symbol (name : String) : (symbol name).Fits (n + 1) := by
  intro b hb
  rw [List.mem_singleton.mp hb]
  exact Nat.succ_le_succ (Nat.zero_le n)

theorem fits_literal (value : Float) : (literal value).Fits (n + 1) := by
  intro b hb
  rw [List.mem_singleton.mp hb]
  exact Nat.succ_le_succ (Nat.zero_le n)

theorem Fits.group {inner : Expr} (h : inner.Fits n) : (group inner).Fits (n + 1) := by
  intro b hb
  obtain ⟨below, hbelow, rfl⟩ := List.mem_map.mp hb
  exact Nat.succ_le_succ (h below hbelow)

theorem Fits.mono {m : Nat} {e : Expr} (h : e.Fits m) (hmn : m ≤ n) : e.Fits n :=
  fun b hb => Nat.le_trans (h b hb) hmn

/-- The first of two operands may have a level more than the second. -/
theorem Fits.pair {operation : String} {left right : Expr} (hleft : left.Fits (n + 1))
    (hright : right.Fits n) : (call operation [left, right]).Fits (n + 1) := by
  intro b hb
  rcases List.mem_append.mp hb with hb | hb
  · obtain ⟨below, hbelow, rfl⟩ := List.mem_map.mp hb
    exact hleft below hbelow
  · obtain ⟨below, hbelow, rfl⟩ := List.mem_map.mp hb
    exact Nat.succ_le_succ (hright below hbelow)

theorem OperandsFit.cons {e : Expr} {es : List Expr} (he : e.Fits n) (hes : OperandsFit n es) :
    OperandsFit n (e :: es) := by
  intro b hb
  rcases List.mem_append.mp hb with hb | hb
  · exact he b hb
  · exact hes b hb

theorem operandsFit_nil : OperandsFit n [] :=
  nofun

theorem OperandsFit.descend {es : List Expr} (h : OperandsFit n es) :
    ∀ b ∈ (operandsBranches es).map Branch.descend, b.levels ≤ n + 1 := by
  intro b hb
  obtain ⟨below, hbelow, rfl⟩ := List.mem_map.mp hb
  exact Nat.succ_le_succ (h below hbelow)

theorem OperandsFit.call {operation : String} : ∀ {es : List Expr}, OperandsFit n es →
    (call operation es).Fits (n + 1)
  | [], _ => fits_symbol operation
  | [_], h => h.descend
  | [left, right], h => by
    have hleft : left.Fits n := fun b hb => h b (List.mem_append_left _ hb)
    have hright : right.Fits n := fun b hb =>
      h b (List.mem_append_right _ (List.mem_append_left _ hb))
    exact (hleft.mono (Nat.le_succ n)).pair hright
  | _ :: _ :: _ :: _, h => h.descend

end Expr

namespace Derives

variable {limit : Nat}

mutual

/-- A phrase fits into the levels that are left where it is entered. -/
theorem Expression.fits {d n ts e rest} : Expression limit d n ts e rest → e.Fits (limit - d)
  | .one first => first.fits
  | .plus before next | .minus before next => by
    have := next.room
    obtain ⟨m, hm⟩ : ∃ m, limit - d = m + 1 := ⟨limit - d - 1, by omega⟩
    have hleft := before.fits
    rw [hm] at hleft ⊢
    exact hleft.pair (next.fits.mono (by omega))

theorem Term.fits {d n ts e rest} : Term limit d n ts e rest → e.Fits (limit - d)
  | .one first => first.fits
  | .times before next | .divide before next | .juxtaposed before _ next => by
    have := next.room
    obtain ⟨m, hm⟩ : ∃ m, limit - d = m + 1 := ⟨limit - d - 1, by omega⟩
    have hleft := before.fits
    rw [hm] at hleft ⊢
    exact hleft.pair (next.fits.mono (by omega))

theorem Signed.fits {d ts e rest} : Signed limit d ts e rest → e.Fits (limit - d)
  | .minus room operand => by
    have inside := Expr.OperandsFit.cons operand.fits Expr.operandsFit_nil
    exact inside.call.mono (by omega)
  | .plus room operand => operand.fits.mono (by omega)
  | .power room inside => inside.fits.mono (by omega)

theorem Power.fits {d ts e rest} : Power limit d ts e rest → e.Fits (limit - d + 1)
  | .base only => only.fits
  | .raised below above => below.fits.pair above.fits

theorem Primary.fits {d ts e rest} : Primary limit d ts e rest → e.Fits (limit - d + 1)
  | .number => Expr.fits_literal _
  | .name _ => Expr.fits_symbol _
  | .call inside => inside.fits.call
  | .group inside => inside.fits.group

theorem Operands.fits {d ts es rest} :
    Operands limit d ts es rest → Expr.OperandsFit (limit - d) es
  | .none => Expr.operandsFit_nil
  | .some inside => inside.fits

theorem Separated.fits {d ts es rest} :
    Separated limit d ts es rest → Expr.OperandsFit (limit - d) es
  | .last only => .cons only.fits Expr.operandsFit_nil
  | .more first others => .cons first.fits others.fits

end

end Derives

/-! ## Whole texts -/

theorem Derivable.height_lt {limit : Nat} {ts : List Token} {e : Expr} (h : Derivable limit ts e) :
    e.height < limit * (limit + 1) := by
  obtain ⟨n, h⟩ := h
  have := h.room
  have := @Derives.tallest_eq limit (by omega)
  have := h.height_le (limit - 1) (by omega)
  show e.height < Derives.tallest limit
  omega

theorem Derivable.fits {limit : Nat} {ts : List Token} {e : Expr} (h : Derivable limit ts e) :
    e.Fits limit := by
  obtain ⟨n, h⟩ := h
  exact h.fits

/-- Within the limit are the expressions in which every branch has room for its turns. -/
theorem Derivable.height_le_iff {limit : Nat} {ts : List Token} {e : Expr} (h : Derivable limit ts e) :
    e.height ≤ limit ↔ ∀ b ∈ e.branches, b.turns ≤ limit - b.levels := by
  constructor
  · intro hheight b hb
    have := Expr.length_le_height e b hb
    rw [Branch.length] at this
    omega
  · intro room
    obtain ⟨b, hb, hlength⟩ := e.exists_length_eq
    have := room b hb
    have := h.fits b hb
    rw [Branch.length] at hlength
    omega

end Argand
