import Argand.Proofs.CommandLine.Readings

/-!
# Runs that cannot read a value

Nothing but a `conversion` makes a run fail with a message that a value could not be read, and nothing but too many
passes makes it fail for want of room (`perform_error`). A run begins when the check has accepted all that is given, and
the usual values can be read. So there is one kind of command lines that are accepted and fail to be read, those with
zero passes behind a minus sign (`readings_agree`), whatever takes a command line apart into items.
-/

namespace Argand.CommandLine

variable {cores : Nat} {p : Parameter} {items : List Item} {text : String} {f : Failure}

/-! ## Checked command lines -/

theorem checkParameter_of_check (h : check cores items = .ok ()) (p : Parameter) :
    checkParameter cores items p = .ok () := by
  rw [check] at h
  split at h
  · cases h
  · dsimp only at h
    split at h
    · cases h
    · obtain ⟨_, all, -⟩ := bind_eq_ok.mp h
      exact forM_eq_ok.mp all p (by cases p <;> decide)

theorem complaint?_of_check (h : check cores items = .ok ()) (given : text ∈ givenTexts p items) :
    complaint? cores p text = none := by
  have checked := checkParameter_of_check h p
  rw [checkParameter] at checked
  split at checked
  · cases checked
  · obtain ⟨_, all, -⟩ := bind_eq_ok.mp checked
    have accepted := forM_eq_ok.mp all text given
    rw [checkText] at accepted
    split at accepted
    · split at accepted
      · cases accepted
      · assumption
    · cases accepted

/-! ## Failures to read -/

theorem seen?_usual (number : p ∈ Parameter.numbers) (usual : p.usual? = some text) :
    ∃ r, seen? p text = some r := by
  have readable : ∀ p ∈ Parameter.numbers, ∀ text ∈ p.usual?, (seen? p text).isSome = true := by
    decide +kernel
  exact Option.isSome_iff_exists.mp (readable p number text usual)

theorem conversion_of_none (absent : value? p items = none) : conversion p items = .ok none := by
  have unusual : p.usual? = none := (Option.or_eq_none_iff.mp absent).2
  cases p
  case advances | threads | seed => rw [conversion, readValue?, absent]; rfl
  case output | function | derivative => rfl
  all_goals cases unusual

theorem value?_eq_some (given : value? p items = some text) :
    text ∈ givenTexts p items ∨ p.usual? = some text := by
  rcases Option.or_eq_some_iff.mp given with first | ⟨-, usual⟩
  · exact .inl (List.mem_of_mem_head? first)
  · exact .inr usual

/-- On a checked command line, the run can read every value but zero passes behind a minus sign. -/
theorem conversion_error (checked : check cores items = .ok ()) (h : conversion p items = .error f) :
    ∃ text, value? .advances items = some text ∧ MinusZero text ∧ f = .unreadable .advances text := by
  have number : p ∈ Parameter.numbers := by
    cases p <;> first | decide | cases h
  cases given : value? p items with
  | none =>
    rw [conversion_of_none given] at h
    cases h
  | some text =>
    by_cases minus : p = .advances ∧ MinusZero text
    · obtain ⟨rfl, minus⟩ := minus
      rw [conversion_minusZero given minus] at h
      exact ⟨text, given, minus, (Except.error.inj h).symm⟩
    · have converted : ∃ r, conversion p items = .ok (some r) := by
        rcases value?_eq_some given with among | usual
        · obtain ⟨r, -, converted⟩ := (conversion_eq_ok number given (complaint?_of_check checked among)).mpr minus
          exact ⟨r, converted⟩
        · obtain ⟨r, seen⟩ := seen?_usual number usual
          refine ⟨r, conversion_of_seen given seen ?_⟩
          rintro rfl
          cases usual
      obtain ⟨r, converted⟩ := converted
      rw [converted] at h
      cases h

/-! ## Runs -/

/-- A value cannot be read. -/
def Failure.IsUnreadable : Failure → Prop
  | .unreadableSize | .unreadable _ _ => True
  | _ => False

/-- A value cannot be read, or there is no room to count so far. -/
def Failure.IsNumeric : Failure → Prop
  | .unreadableSize | .unreadable _ _ | .overflow => True
  | _ => False

theorem Failure.IsUnreadable.isNumeric (h : f.IsUnreadable) : f.IsNumeric := by
  cases f <;> trivial

/-- An engine has no room for the passes that are asked for. -/
def Overruns (items : List Item) : Prop :=
  ∃ m viewport settings engine asked error left, Engine.create m viewport settings = .ok engine ∧
    readValue? readCount? .advances items = .ok asked ∧
    Engine.advanceBy (asked.getD (usualAdvances m)) engine = .error error left

theorem head?_append {a b : String} {c : Char} (h : a.toList.head? = some c) : (a ++ b).toList.head? = some c := by
  rw [String.toList_append, List.head?_append, h]
  rfl

/-- No other failure begins as one to read a value. -/
theorem Failure.isUnreadable_of_message (h : "Could not parse".toList <+: f.message.toList) : f.IsUnreadable := by
  obtain ⟨rest, h⟩ := h
  have other {c : Char} (first : f.message.toList.head? = some c) (differs : c ≠ 'C') : f.IsUnreadable := by
    rw [← h] at first
    exact absurd (Option.some.inj first).symm differs
  cases f with
  | unreadableSize | unreadable p text => trivial
  | compile e =>
    cases e with
    | malformed e => exact other (head?_append (head?_append (head?_append rfl))) (by decide)
    | unbound name => exact other (head?_append (head?_append rfl)) (by decide)
    | unknownOperation name operands =>
      exact other (head?_append (head?_append (head?_append (head?_append rfl)))) (by decide)
  | view e =>
    cases e with
    | emptyViewport width height =>
      exact other (head?_append (head?_append (head?_append (head?_append rfl)))) (by decide)
    | badZoom zoom => exact other (head?_append (head?_append rfl)) (by decide)
  | lacks p => exact other (head?_append (head?_append rfl)) (by decide)
  | noFunction m => exact other (head?_append (head?_append rfl)) (by decide)
  | unknownMode name => exact other (head?_append (head?_append rfl)) (by decide)
  | unknownPalette name => exact other (head?_append (head?_append rfl)) (by decide)
  | overflow => exact other rfl (by decide)
  | noOutput => exact other rfl (by decide)

theorem viewportOf_error (h : viewportOf items = .error f) (numeric : f.IsNumeric) :
    ∃ p, conversion p items = .error f := by
  cases size : readSize? (textOf .size items) with
  | none =>
    rw [viewportOf, size] at h
    cases h
    exact ⟨.size, by rw [conversion, size]⟩
  | some sides =>
    rw [viewportOf, size] at h
    rcases bind_eq_error.mp h with h | ⟨zoom, -, h⟩
    · exact ⟨.zoom, map_eq_error.mpr h⟩
    rcases bind_eq_error.mp h with h | ⟨center, -, h⟩
    · exact ⟨.center, map_eq_error.mpr h⟩
    obtain ⟨e, -, rfl⟩ := mapError_eq_error.mp h
    exact numeric.elim

theorem settingsOf_error {s : Surroundings} {function derivative : String}
    (h : settingsOf s function derivative items = .error f) :
    ∃ p, conversion p items = .error f := by
  rw [settingsOf] at h
  rcases bind_eq_error.mp h with h | ⟨runSeed, -, h⟩
  · exact ⟨.seed, map_eq_error.mpr h⟩
  rcases bind_eq_error.mp h with h | ⟨seed, -, h⟩
  · exact ⟨.start, map_eq_error.mpr h⟩
  rcases bind_eq_error.mp h with h | ⟨julia, -, h⟩
  · exact ⟨.julia, map_eq_error.mpr h⟩
  rcases bind_eq_error.mp h with h | ⟨threads, -, h⟩
  · exact ⟨.threads, map_eq_error.mpr h⟩
  cases h

variable {s : Surroundings} {m : Mode} {function derivative : String}

theorem schemeOf_error {name : String} (h : schemeOf s name = .error f) : ¬f.IsNumeric := by
  rw [schemeOf] at h
  split at h
  · cases h
  · split at h
    · cases h
    · cases h
      exact id

theorem draw_error (h : draw s m function derivative items = .error f) (numeric : f.IsNumeric) :
    (∃ p, conversion p items = .error f) ∨ f = .overflow ∧ Overruns items := by
  rw [draw] at h
  rcases bind_eq_error.mp h with h | ⟨viewport, -, h⟩
  · exact .inl (viewportOf_error h numeric)
  rcases bind_eq_error.mp h with h | ⟨settings, -, h⟩
  · exact .inl (settingsOf_error h)
  rcases bind_eq_error.mp h with h | ⟨scheme, -, h⟩
  · exact absurd numeric (schemeOf_error h)
  rcases bind_eq_error.mp h with h | ⟨engine, created, h⟩
  · obtain ⟨e, -, rfl⟩ := mapError_eq_error.mp h
    exact numeric.elim
  rcases bind_eq_error.mp h with h | ⟨asked, read, h⟩
  · exact .inl ⟨.advances, map_eq_error.mpr h⟩
  dsimp only at h
  split at h
  · cases h
  · rename_i error left overrun
    cases h
    exact .inr ⟨rfl, m, viewport, settings, engine, asked, error, left, mapError_eq_ok.mp created, read, overrun⟩

theorem functions_error (h : functions m items = .error f) : ¬f.IsNumeric := by
  unfold functions at h
  split at h <;> cases h <;> exact id

theorem kernelOf_error (h : kernelOf m function derivative = .error f) : ¬f.IsNumeric := by
  unfold kernelOf at h
  split at h
  · obtain ⟨e, -, rfl⟩ := mapError_eq_error.mp h
    exact id
  · obtain ⟨e, -, rfl⟩ := mapError_eq_error.mp h
    exact id
  · cases h
    exact id

theorem modeOf_error (h : modeOf items = .error f) : ¬f.IsNumeric := by
  rw [modeOf] at h
  split at h <;> cases h
  exact id

theorem perform_error (h : perform s items = .error f) (numeric : f.IsNumeric) :
    (∃ p, conversion p items = .error f) ∨ f = .overflow ∧ Overruns items := by
  rw [perform] at h
  rcases bind_eq_error.mp h with h | ⟨mode, -, h⟩
  · exact absurd numeric (modeOf_error h)
  rcases bind_eq_error.mp h with h | ⟨fs, -, h⟩
  · exact absurd numeric (functions_error h)
  dsimp only at h
  split at h
  · rcases bind_eq_error.mp h with h | ⟨kernel, -, h⟩
    · exact absurd numeric (kernelOf_error h)
    · cases h
  · rcases bind_eq_error.mp h with h | ⟨picture, -, h⟩
    · exact draw_error h numeric
    · split at h
      · cases h
      · cases h
        exact numeric.elim

theorem perform_ne_failed : perform s items ≠ .ok (.failed f) := by
  intro h
  rw [perform] at h
  obtain ⟨mode, -, h⟩ := bind_eq_ok.mp h
  obtain ⟨fs, -, h⟩ := bind_eq_ok.mp h
  dsimp only at h
  split at h
  · obtain ⟨kernel, -, h⟩ := bind_eq_ok.mp h
    cases h
  · obtain ⟨picture, -, h⟩ := bind_eq_ok.mp h
    split at h <;> cases h

/-- What is said of a command line that fails. -/
def Outcome.message? : Outcome → Option String
  | .failed f => some f.message
  | _ => none

/-- A run that fails has items that are checked, and cannot do what they ask for. -/
theorem exists_perform_of_runWith {read : List String → Except Stop (List Item)} {arguments : List String}
    (failed : runWith read s arguments = .failed f) :
    ∃ items, read arguments = .ok items ∧ check s.cores items = .ok () ∧ perform s items = .error f := by
  rw [runWith] at failed
  split at failed
  case h_4 items done =>
    split at failed
    · cases failed
    · rename_i checked
      split at failed
      · rename_i performed
        rw [failed] at performed
        exact absurd performed perform_ne_failed
      · rename_i performed
        cases failed
        exact ⟨items, done, checked, performed⟩
  all_goals cases failed

theorem exists_minusZero_of_runWith {read : List String → Except Stop (List Item)} {arguments : List String}
    (failed : runWith read s arguments = .failed f) (unreadable : f.IsUnreadable) :
    ∃ items text, read arguments = .ok items ∧ value? .advances items = some text ∧ MinusZero text ∧
      f = .unreadable .advances text := by
  obtain ⟨items, done, checked, performed⟩ := exists_perform_of_runWith failed
  rcases perform_error performed unreadable.isNumeric with ⟨p, h⟩ | ⟨rfl, -⟩
  · obtain ⟨text, given, minus, same⟩ := conversion_error checked h
    exact ⟨items, text, done, given, minus, same⟩
  · exact unreadable.elim

/-- The run reads what the check has seen and accepted, for every value but zero passes behind a minus sign. So a
command line can be accepted and then fail with a message that a value could not be read only if it has that one. The
items of a command line may be any. -/
theorem readings_agree (read : List String → Except Stop (List Item)) (s : Surroundings) (arguments : List String) :
    (∀ (p : Parameter) (items : List Item) (text : String), p ∈ Parameter.numbers →
      value? p items = some text → complaint? s.cores p text = none →
        ((∃ r, seen? p text = some r ∧ conversion p items = .ok (some r)) ↔
          ¬(p = .advances ∧ MinusZero text))) ∧
    ∀ f : Failure, runWith read s arguments = .failed f → "Could not parse".toList <+: f.message.toList →
      ∃ items text, read arguments = .ok items ∧ value? .advances items = some text ∧
        MinusZero text ∧ f = .unreadable .advances text :=
  ⟨fun _ _ _ => conversion_eq_ok, fun _ failed begins =>
    exists_minusZero_of_runWith failed (Failure.isUnreadable_of_message begins)⟩

/-- A number of passes behind a plus sign, and a zero behind a minus sign. -/
theorem readings_agree_signs :
    (∃ r, seen? .advances "+12" = some r ∧
      conversion .advances [.value .advances (some "+12")] = .ok (some r)) ∧
    ∃ items text, readArguments ["-m", "newton", "--advances=-0", "-o", "x.ppm"] = .ok items ∧
      value? .advances items = some text ∧ MinusZero text := by
  obtain ⟨agree, fails⟩ := readings_agree readArguments ⟨4, 0, 0⟩ ["-m", "newton", "--advances=-0", "-o", "x.ppm"]
  constructor
  · have accepted : complaint? 4 .advances "+12" = none := by decide +kernel
    refine (agree _ _ _ (by decide) rfl accepted).mpr ?_
    rintro ⟨-, n, h⟩
    cases h
  · have message : (run ⟨4, 0, 0⟩ ["-m", "newton", "--advances=-0", "-o", "x.ppm"]).message? =
        some "Could not parse advances '-0'" := by
      decide +kernel
    cases failed : run ⟨4, 0, 0⟩ ["-m", "newton", "--advances=-0", "-o", "x.ppm"] with
    | failed f =>
      rw [failed] at message
      obtain ⟨items, text, read, given, minus, -⟩ :=
        fails f failed (Option.some.inj message ▸ ⟨" advances '-0'".toList, by decide⟩)
      exact ⟨items, text, read, given, minus⟩
    | printed text | drew path picture | misused m =>
      rw [failed] at message
      cases message

/-- Zero passes behind a minus sign are accepted, and cannot be read. -/
theorem run_minusZero : complaint? 4 .advances "-0" = none ∧
    (run ⟨4, 0, 0⟩ ["-m", "newton", "-s", "1x1", "--advances=-0", "-o", "x.ppm", "-t", "1"]).message? =
      some "Could not parse advances '-0'" := by
  decide +kernel

end Argand.CommandLine
