import Argand.Proofs.CommandLine.Failures
import Argand.Proofs.Orbit.History

/-!
# Runs that have room

A fresh engine has room for every number of passes that the check of a command line lets through
(`CommandLine.asked_le`, `Engine.exists_advanceBy`). So no run fails because a counter overflows
(`CommandLine.runWith_ne_overflow`).
-/

namespace Argand

/-! ## Passes of an engine -/

namespace Engine

/-- An engine that works in batches has done `k` of them since the last start. -/
def HasRun : Engine → Nat → Prop
  | progressive p, k => p.HasRun k
  | _, _ => True

theorem hasRun_create {m : Mode} {viewport : Viewport Float} {settings : Settings} {e : Engine}
    (h : create m viewport settings = .ok e) : e.HasRun 0 := by
  cases m with
  | escape =>
    obtain ⟨_, -, h⟩ := bind_eq_ok.mp h
    obtain ⟨_, -, h⟩ := bind_eq_ok.mp h
    cases h
    trivial
  | newton =>
    obtain ⟨_, -, h⟩ := bind_eq_ok.mp h
    obtain ⟨_, -, h⟩ := bind_eq_ok.mp h
    cases h
    trivial
  | mandelbrot | julia =>
    cases h
    exact Progressive.hasRun_new ..
  | littlewood =>
    cases h
    trivial

theorem HasRun.exists_advance? {e : Engine} {k : Nat} (h : e.HasRun k)
    (room : Progressive.updatesPerAdvance * (k + 1) < 2 ^ 31) :
    ∃ next, e.advance? = some next ∧ next.HasRun (k + 1) := by
  cases e with
  | progressive p =>
    have run : p.HasRun k := h
    obtain ⟨q, next⟩ := Option.ne_none_iff_exists'.mp (run.advance?_ne_none room)
    exact ⟨progressive q, congrArg (Option.map progressive) next, run.advance? next⟩
  | escapeTime _ | newton _ | littlewood _ => exact ⟨_, rfl, trivial⟩

/-- As long as there is room no pass fails. -/
theorem exists_advanceBy : ∀ {k j : Nat} {e : Engine}, e.HasRun j →
    Progressive.updatesPerAdvance * (j + k) < 2 ^ 31 → ∃ e', advanceBy k e = .ok () e'
  | 0, _, e, _, _ => ⟨e, rfl⟩
  | k + 1, j, e, h, room => by
    rw [← Nat.succ_add_eq_add_succ] at room
    have now : Progressive.updatesPerAdvance * (j + 1) < 2 ^ 31 :=
      Nat.lt_of_le_of_lt (Nat.mul_le_mul_left _ (Nat.le_add_right ..)) room
    obtain ⟨next, first, run⟩ := h.exists_advance? now
    obtain ⟨e', rest⟩ := exists_advanceBy run room
    have done : advance e = .ok () next := by rw [advance, Move.attempt_eq, first]
    refine ⟨e', ?_⟩
    show EStateM.bind advance (fun _ => advanceBy k) e = _
    rw [EStateM.bind, done]
    exact rest

end Engine

/-! ## Checked command lines -/

namespace CommandLine

variable {cores : Nat} {items : List Item}

theorem usualAdvances_le (m : Mode) : usualAdvances m ≤ 100000 := by
  cases m <;> decide

/-- The check lets through a number of passes that is not large. -/
theorem asked_le (checked : check cores items = .ok ()) {n : Nat}
    (asked : readValue? readCount? .advances items = .ok (some n)) : n ≤ 100000 := by
  cases given : value? .advances items with
  | none =>
    rw [readValue?, given] at asked
    cases asked
  | some text =>
    have among : text ∈ givenTexts .advances items := by
      rcases value?_eq_some given with among | usual
      · exact among
      · cases usual
    obtain ⟨r, seen, allowed⟩ := (complaint?_eq_none (by decide)).mp (complaint?_of_check checked among)
    obtain ⟨i, read, rfl⟩ := Option.map_eq_some_iff.mp seen
    have bounds : 0 ≤ i ∧ i ≤ 100000 := allowed
    have proper : ¬MinusZero text := by
      intro minus
      have failed := conversion_minusZero given minus
      rw [conversion, asked] at failed
      cases failed
    rw [readValue?_eq_ok given (readCount?_of_readSigned? read bounds.1 proper)] at asked
    obtain rfl : i.toNat = n := Option.some.inj (Except.ok.inj asked)
    omega

theorem not_overruns (checked : check cores items = .ok ()) : ¬Overruns items := by
  rintro ⟨m, viewport, settings, engine, asked, error, left, created, read, overrun⟩
  have few : asked.getD (usualAdvances m) ≤ 100000 := by
    cases asked with
    | none => exact usualAdvances_le m
    | some n => exact asked_le checked read
  have room : Progressive.updatesPerAdvance * (0 + asked.getD (usualAdvances m)) < 2 ^ 31 := by
    rw [Nat.zero_add]
    exact Nat.lt_of_le_of_lt (Nat.mul_le_mul_left _ few) (by decide)
  obtain ⟨e', done⟩ := Engine.exists_advanceBy (Engine.hasRun_create created) room
  rw [done] at overrun
  cases overrun

/-- No command line makes a counter overflow. -/
theorem runWith_ne_overflow (read : List String → Except Stop (List Item)) (s : Surroundings)
    (arguments : List String) : runWith read s arguments ≠ .failed .overflow := by
  intro failed
  obtain ⟨items, -, checked, performed⟩ := exists_perform_of_runWith failed
  rcases perform_error performed trivial with ⟨p, h⟩ | ⟨-, overruns⟩
  · obtain ⟨_, -, -, same⟩ := conversion_error checked h
    cases same
  · exact not_overruns checked overruns

end CommandLine

end Argand
