import Mathlib.Data.List.Induction

/-! A job that is tried again when it fails, up to a limit. A job of one phase is over with
its first attempt; one of two phases is triggered and then transferred, and goes back to its
trigger with every failure of either phase. -/
namespace Retry

inductive Phase where
  | trigger
  | transfer
  | single
  deriving DecidableEq

inductive Outcome where
  | done
  | warning
  | fail
  deriving DecidableEq

abbrev Attempt := Phase × Outcome

/-- The phase that is tried next with the number of failures still allowed, or the end. -/
inductive State where
  | pending (phase : Phase) (left : Nat)
  | finished
  deriving DecidableEq

/-- What becomes of a job with an attempt. Nothing is tried after the end. -/
def next : State → Attempt → Option State
  | .finished, _ => none
  | .pending phase left, (tried, outcome) =>
    if tried = phase then
      match phase, outcome, left with
      | .trigger, .done, left => some (.pending .transfer left)
      | .trigger, .fail, left + 1 | .transfer, .fail, left + 1 => some (.pending .trigger left)
      | _, _, _ => some .finished
    else none

/-- The attempts of a job, in their order. -/
def course (s : State) (attempts : List Attempt) : Option State := attempts.foldlM next s

/-- The attempts that failed. -/
def fails (attempts : List Attempt) : Nat := (attempts.filter fun a => a.2 = .fail).length

variable {s t : State} {phase first : Phase} {limit left : Nat} {attempts : List Attempt} {a b : Attempt}

theorem course_append {before after : List Attempt} :
    course s (before ++ after) = (course s before).bind fun t => course t after := by
  simp [course, List.foldlM_append]

theorem course_snoc : course s (attempts ++ [a]) = (course s attempts).bind fun t => next t a := by
  rw [course_append]
  congr 1
  funext t
  simp [course]

@[simp] theorem fails_snoc : fails (attempts ++ [a]) = fails attempts + if a.2 = .fail then 1 else 0 := by
  by_cases failed : a.2 = .fail <;> simp [fails, failed]

/-- A job goes on when its trigger is done, or when an attempt failed that is not the last one. -/
theorem next_pending (step : next s a = some (.pending phase left)) :
    (s = .pending .trigger left ∧ a = (.trigger, .done) ∧ phase = .transfer) ∨
      (s = .pending a.1 (left + 1) ∧ a.1 ≠ .single ∧ a.2 = .fail ∧ phase = .trigger) := by
  obtain ⟨tried, outcome⟩ := a
  cases s with
  | finished => cases step
  | pending before allowed =>
    simp only [next] at step
    split at step
    · rename_i same
      subst same
      split at step <;> cases step
      · exact .inl ⟨rfl, rfl, rfl⟩
      · exact .inr ⟨rfl, nofun, rfl, rfl⟩
      · exact .inr ⟨rfl, nofun, rfl, rfl⟩
    · cases step

/-- It ends with the success of its last phase, with a warning, or with the last failure. -/
theorem next_finished (step : next s a = some .finished) :
    ∃ allowed, s = .pending a.1 allowed ∧
      ((a.2 = .done ∧ a.1 ≠ .trigger) ∨ a.2 = .warning ∨ (a.2 = .fail ∧ (a.1 = .single ∨ allowed = 0))) := by
  obtain ⟨tried, outcome⟩ := a
  cases s with
  | finished => cases step
  | pending before allowed =>
    simp only [next] at step
    split at step
    · rename_i same
      subst same
      refine ⟨allowed, rfl, ?_⟩
      cases tried <;> cases outcome <;> cases allowed <;> simp_all
    · cases step

theorem next_triggered : next (.pending .trigger left) (.trigger, .done) = some (.pending .transfer left) := rfl

theorem next_retry (double : phase ≠ .single) :
    next (.pending phase (left + 1)) (phase, .fail) = some (.pending .trigger left) := by
  cases phase with
  | single => exact absurd rfl double
  | _ => rfl

theorem next_warning : next (.pending phase left) (phase, .warning) = some .finished := by
  cases phase <;> rfl

theorem next_done (last : phase ≠ .trigger) : next (.pending phase left) (phase, .done) = some .finished := by
  cases phase with
  | trigger => exact absurd rfl last
  | _ => rfl

theorem next_failed (last : phase = .single ∨ left = 0) :
    next (.pending phase left) (phase, .fail) = some .finished := by
  rcases last with rfl | rfl
  · rfl
  · cases phase <;> rfl

/-- The failures so far and those still allowed are the limit together. -/
theorem fails_of_pending (run : course (.pending first limit) attempts = some (.pending phase left)) :
    fails attempts + left = limit := by
  induction attempts using List.reverseRecOn generalizing phase left with
  | nil =>
    cases run
    simp [fails]
  | append_singleton attempts a ih =>
    rw [course_snoc, Option.bind_eq_some_iff] at run
    obtain ⟨middle, before, step⟩ := run
    rcases next_pending step with ⟨rfl, rfl, -⟩ | ⟨rfl, -, failed, -⟩
    · simpa using ih before
    · have sum := ih before
      rw [fails_snoc, if_pos failed]
      omega

/-- Only a job of two phases has a trigger or a transfer, and only after a done trigger it
is transferred. -/
theorem phase_of_pending (run : course (.pending first limit) attempts = some (.pending phase left)) :
    (phase = .single ↔ first = .single) ∧
      (phase = .transfer → attempts = [] ∧ first = .transfer ∨ attempts.getLast? = some (.trigger, .done)) := by
  induction attempts using List.reverseRecOn generalizing phase left with
  | nil =>
    cases run
    exact ⟨Iff.rfl, fun transfer => .inl ⟨rfl, transfer⟩⟩
  | append_singleton attempts a ih =>
    rw [course_snoc, Option.bind_eq_some_iff] at run
    obtain ⟨middle, before, step⟩ := run
    rcases next_pending step with ⟨rfl, rfl, rfl⟩ | ⟨rfl, double, -, rfl⟩
    · have kind := (ih before).1
      simp only [reduceCtorEq, false_iff] at kind
      exact ⟨by simpa using kind, fun _ => .inr (by simp)⟩
    · have kind := (ih before).1
      simp only [double, false_iff] at kind
      exact ⟨by simpa using kind, fun transfer => by cases transfer⟩

/-- After a failure the job is triggered again. -/
def Restarts (attempts : List Attempt) : Prop :=
  ∀ before a b after, attempts = before ++ a :: b :: after → a.2 = .fail → b.1 = .trigger

theorem restarts_of_course (run : course s attempts = some t) : Restarts attempts := by
  rintro before a b after rfl failed
  rw [course_append, Option.bind_eq_some_iff] at run
  obtain ⟨u, -, run⟩ := run
  simp only [course, List.foldlM_cons, Option.bind_eq_bind, Option.bind_eq_some_iff] at run
  obtain ⟨v, first, w, second, -⟩ := run
  cases v with
  | finished => cases second
  | pending phase left =>
    rcases next_pending first with ⟨-, rfl, -⟩ | ⟨-, -, -, rfl⟩
    · cases failed
    · simp only [next] at second
      split at second
      · assumption
      · cases second

/-- A job that goes on: every failure so far cost one of the tries it began with. -/
structure Pending (limit : Nat) (first : Phase) (attempts : List Attempt) (phase : Phase) (left : Nat) :
    Prop where
  run : course (.pending first limit) attempts = some (.pending phase left)
  retries : fails attempts + left = limit
  restarts : Restarts attempts

theorem pending_of_course (run : course (.pending first limit) attempts = some (.pending phase left)) :
    Pending limit first attempts phase left :=
  ⟨run, fails_of_pending run, restarts_of_course run⟩

/-- What a job has behind it at its end: at most so many failures that were not the last
one, and a success of its last phase, a warning, or the failure for which none was left. -/
structure Finished (limit : Nat) (first : Phase) (attempts : List Attempt) : Prop where
  run : course (.pending first limit) attempts = some .finished
  retries : fails attempts.dropLast ≤ limit
  restarts : Restarts attempts
  ends : ∃ before last, attempts = before ++ [last] ∧
    ((last = (.single, .done) ∧ first = .single) ∨
      (last = (.transfer, .done) ∧ (first = .trigger → before.getLast? = some (.trigger, .done))) ∨
      last.2 = .warning ∨
      (last.2 = .fail ∧ (first ≠ .single → fails before = limit)))

theorem finished_of_course (run : course (.pending first limit) attempts = some .finished) :
    Finished limit first attempts := by
  induction attempts using List.reverseRecOn with
  | nil => cases run
  | append_singleton attempts a _ =>
    have whole := run
    rw [course_snoc, Option.bind_eq_some_iff] at run
    obtain ⟨middle, before, step⟩ := run
    obtain ⟨allowed, rfl, ends⟩ := next_finished step
    have sum := fails_of_pending before
    obtain ⟨kind, transferred⟩ := phase_of_pending before
    refine ⟨whole, by simp; omega, restarts_of_course whole, attempts, a, rfl, ?_⟩
    obtain ⟨tried, outcome⟩ := a
    rcases ends with ⟨done, notTrigger⟩ | warning | ⟨failed, last⟩
    · simp only at done notTrigger kind transferred
      subst done
      cases tried with
      | trigger => exact absurd rfl notTrigger
      | transfer =>
        refine .inr (.inl ⟨rfl, fun two => ?_⟩)
        rcases transferred rfl with ⟨-, other⟩ | last
        · rw [two] at other
          cases other
        · exact last
      | single => exact .inl ⟨rfl, kind.mp rfl⟩
    · exact .inr (.inr (.inl warning))
    · refine .inr (.inr (.inr ⟨failed, fun two => ?_⟩))
      rcases last with single | none
      · exact absurd (kind.mp single) two
      · omega

end Retry
