import Mathlib.Data.List.Induction
import Mathlib.Logic.Function.Basic

/-! Runs of a partial transition function. A run is a list of inputs that were all
accepted, with a condition met by the state and the input before each step; every
state a run passes through is the end of one of its prefixes. -/
namespace Runs
variable {σ α : Type}

/-- From `init` the inputs were accepted one after the other, up to a last state. -/
inductive Run (next : σ → α → Option σ) (meets : σ → α → Prop) (init : σ) : List α → σ → Prop
  | nil : Run next meets init [] init
  | snoc (before : Run next meets init inputs s) (met : meets s input)
      (step : next s input = some s') : Run next meets init (inputs ++ [input]) s'

variable {next : σ → α → Option σ} {meets meets' : σ → α → Prop} {init s : σ} {inputs : List α}

/-- What holds at the start and is kept by every step holds after every run. -/
theorem Run.invariant (I : σ → Prop) (start : I init)
    (kept : ∀ s input s', I s → meets s input → next s input = some s' → I s')
    (run : Run next meets init inputs s) : I s := by
  induction run with
  | nil => exact start
  | snoc _ met step ih => exact kept _ _ _ ih met step

/-- As `invariant`, for a property of the inputs so far as well. -/
theorem Run.invariant_trace (I : List α → σ → Prop) (start : I [] init)
    (kept : ∀ inputs s input s', I inputs s → meets s input → next s input = some s' →
      I (inputs ++ [input]) s')
    (run : Run next meets init inputs s) : I inputs s := by
  induction run with
  | nil => exact start
  | snoc _ met step ih => exact kept _ _ _ _ ih met step

/-- A stronger condition gives fewer runs. -/
theorem Run.mono (weaker : ∀ s input, meets s input → meets' s input)
    (run : Run next meets init inputs s) : Run next meets' init inputs s := by
  induction run with
  | nil => exact .nil
  | snoc _ met step ih => exact ih.snoc (weaker _ _ met) step

/-- A run goes on from where another one ended. -/
theorem Run.trans {middle : σ} {more : List α} (run : Run next meets init inputs middle)
    (rest : Run next meets middle more s) : Run next meets init (inputs ++ more) s := by
  induction rest with
  | nil => simpa using run
  | snoc _ met step ih => simpa using ih.snoc met step

/-- Without inputs nothing happens. -/
theorem Run.nil_inv (run : Run next meets init [] s) : s = init := by
  generalize none : [] = inputs at run
  cases run with
  | nil => rfl
  | snoc => simp at none

/-- A run begins with its first input. -/
theorem Run.cons_inv {input : α} (run : Run next meets init (input :: inputs) s) :
    ∃ middle, meets init input ∧ next init input = some middle ∧ Run next meets middle inputs s := by
  generalize all : input :: inputs = taken at run
  induction run generalizing inputs with
  | nil => cases all
  | snoc before met step ih =>
    cases inputs using List.reverseRecOn with
    | nil =>
      obtain ⟨rfl, rfl⟩ := List.append_singleton_inj.mp (show [] ++ [input] = _ from all)
      cases before.nil_inv
      exact ⟨_, met, step, .nil⟩
    | append_singleton inputs last =>
      obtain ⟨rfl, rfl⟩ := List.append_singleton_inj.mp (show (input :: inputs) ++ [last] = _ from all)
      obtain ⟨middle, met', step', run⟩ := ih rfl
      exact ⟨middle, met', step', run.snoc met step⟩

/-- Where every step is matched by a run of another system that shows the same, so is every
run. -/
theorem Run.simulate {τ β γ : Type} {next' : τ → β → Option τ} {meetsToo : τ → β → Prop} {init' : τ}
    (R : σ → τ → Prop) (shown : α → List γ) (shown' : β → List γ) (start : R init init')
    (matched : ∀ s input s' t, R s t → meets s input → next s input = some s' → ∃ inputs' t',
      Run next' meetsToo t inputs' t' ∧ R s' t' ∧ inputs'.flatMap shown' = shown input)
    (run : Run next meets init inputs s) : ∃ inputs' t, Run next' meetsToo init' inputs' t ∧ R s t ∧
      inputs'.flatMap shown' = inputs.flatMap shown := by
  induction run with
  | nil => exact ⟨[], init', .nil, start, rfl⟩
  | snoc _ met step ih =>
    obtain ⟨before, t, run', related, same⟩ := ih
    obtain ⟨more, t', run'', related', shows⟩ := matched _ _ _ t related met step
    refine ⟨before ++ more, t', run'.trans run'', related', ?_⟩
    rw [List.flatMap_append, List.flatMap_append, List.flatMap_singleton, same, shows]

/-- Where a state is not final as long as some measure can be made smaller, a final state can
be reached in as many steps as the measure says. -/
theorem Run.exists_final (I : σ → Prop) (measure : σ → Nat) (final : σ → Prop)
    (progress : ∀ s, I s → final s ∨
      ∃ input s', meets s input ∧ next s input = some s' ∧ I s' ∧ measure s' < measure s)
    (start : I init) : ∃ inputs s, inputs.length ≤ measure init ∧ Run next meets init inputs s ∧ I s ∧ final s := by
  induction left : measure init using Nat.strongRecOn generalizing init with
  | ind left' ih =>
    subst left
    rcases progress init start with done | ⟨input, middle, met, step, inv, less⟩
    · exact ⟨[], init, Nat.zero_le _, .nil, start, done⟩
    · obtain ⟨inputs, s, short, run, inv, done⟩ := ih (measure middle) less inv rfl
      have first : Run next meets init [input] middle := Run.nil.snoc met step
      refine ⟨[input] ++ inputs, s, ?_, first.trans run, inv, done⟩
      rw [List.length_append, List.length_singleton]
      omega

/-- The inputs taken one after the other, stopping at the first one refused or
not meeting the condition. -/
def exec (next : σ → α → Option σ) (meets : σ → α → Prop) [∀ s input, Decidable (meets s input)]
    (init : σ) (inputs : List α) : Option σ :=
  inputs.foldlM (fun s input => if meets s input then next s input else none) init

/-- Successful executions are runs. -/
theorem run_of_exec [∀ s input, Decidable (meets s input)]
    (done : exec next meets init inputs = some s) : Run next meets init inputs s := by
  induction inputs using List.reverseRecOn generalizing s with
  | nil =>
    cases done
    exact .nil
  | append_singleton inputs input ih =>
    simp only [exec, List.foldlM_append, Option.bind_eq_bind, Option.bind_eq_some_iff] at done
    obtain ⟨middle, before, step⟩ := done
    simp only [List.foldlM_cons, List.foldlM_nil, Option.bind_eq_bind, Option.bind_eq_some_iff,
      Option.pure_def, Option.some.injEq] at step
    obtain ⟨last, step, rfl⟩ := step
    split at step
    · rename_i met
      exact (ih before).snoc met step
    · cases step

/-- A run whose last state passes a test. -/
theorem run_of_exec_any [∀ s input, Decidable (meets s input)] {test : σ → Bool}
    (done : (exec next meets init inputs).any test = true) :
    ∃ s, Run next meets init inputs s ∧ test s = true := by
  cases reached : exec next meets init inputs with
  | none => simp [reached] at done
  | some s => exact ⟨s, run_of_exec reached, by simpa [reached] using done⟩

/-- A loop each of whose turns is accepted and keeps a property is accepted. -/
theorem foldlM_kept {next : σ → α → Option σ} (I : σ → Prop) (start : I init)
    (kept : ∀ s, ∀ input ∈ inputs, I s → ∃ s', next s input = some s' ∧ I s') :
    ∃ s, inputs.foldlM next init = some s ∧ I s := by
  induction inputs generalizing init with
  | nil => exact ⟨init, rfl, start⟩
  | cons input inputs ih =>
    obtain ⟨middle, first, held⟩ := kept init input (List.mem_cons_self ..) start
    obtain ⟨s, rest, held⟩ := ih held fun s input member => kept s input (List.mem_cons_of_mem _ member)
    exact ⟨s, by rw [List.foldlM_cons, first]; exact rest, held⟩

/-- A loop over the indices of a map each of whose turns rewrites the entry at its index. -/
theorem foldlM_pointwise {β : Type} {next : (Nat → β) → Nat → Option (Nat → β)} {f : Nat → β → β} {n : Nat}
    (turn : ∀ m, ∀ i < n, next m i = some (Function.update m i (f i (m i)))) (m : Nat → β) :
    (List.range n).foldlM next m = some fun i => if i < n then f i (m i) else m i := by
  induction n with
  | zero => simp
  | succ n ih =>
    rw [List.range_succ, List.foldlM_append, ih fun m i low => turn m i (by omega)]
    simp only [Option.bind_eq_bind, Option.bind_some, List.foldlM_cons, List.foldlM_nil, turn _ n (by omega)]
    refine congrArg some (funext fun i => ?_)
    by_cases same : i = n
    · simp [same]
    · have order : i < n + 1 ↔ i < n := by omega
      simp [same, order]

/-- What each turn of a counting loop keeps holds when the loop is done. -/
theorem foldlM_range {next : σ → Nat → Option σ} {n : Nat} (I : Nat → σ → Prop) (start : I 0 init)
    (kept : ∀ i < n, ∀ s s', next s i = some s' → I i s → I (i + 1) s')
    (done : (List.range n).foldlM next init = some s) : I n s := by
  induction n generalizing s with
  | zero =>
    cases done
    exact start
  | succ n ih =>
    rw [List.range_succ, List.foldlM_append, Option.bind_eq_bind, Option.bind_eq_some_iff] at done
    obtain ⟨middle, before, last⟩ := done
    simp only [List.foldlM_cons, List.foldlM_nil, Option.bind_eq_bind, Option.pure_def, Option.bind_fun_some] at last
    exact kept n (Nat.lt_succ_self n) middle s last (ih (fun i low => kept i (Nat.lt_succ_of_lt low)) before)

/-- A counting loop each of whose turns is accepted is accepted, and what each turn keeps holds
when it is done. -/
theorem foldlM_range_kept {next : σ → Nat → Option σ} {n : Nat} (I : Nat → σ → Prop) (start : I 0 init)
    (kept : ∀ i < n, ∀ s, I i s → ∃ s', next s i = some s' ∧ I (i + 1) s') :
    ∃ s, (List.range n).foldlM next init = some s ∧ I n s := by
  induction n with
  | zero => exact ⟨init, rfl, start⟩
  | succ n ih =>
    obtain ⟨middle, before, inv⟩ := ih fun i low => kept i (Nat.lt_succ_of_lt low)
    obtain ⟨s, last, inv⟩ := kept n (Nat.lt_succ_self n) middle inv
    exact ⟨s, by simp [List.range_succ, List.foldlM_append, before, last], inv⟩

/-- The loop `while (again)`, each of whose turns takes an input. It has no result while it
goes on and the inputs are used up. -/
def loopWhile (again : σ → Prop) [DecidablePred again] (next : σ → α → Option σ) : List α → σ → Option σ
  | [], s => if again s then none else some s
  | input :: inputs, s => if again s then (next s input).bind (loopWhile again next inputs) else some s

/-- A loop that has ended is a run of its turns to where its condition fails. -/
theorem run_of_loopWhile {again : σ → Prop} [DecidablePred again] (done : loopWhile again next inputs init = some s) :
    ∃ taken, taken <+: inputs ∧ Run next (fun s _ => again s) init taken s ∧ ¬ again s := by
  induction inputs generalizing init with
  | nil =>
    rw [loopWhile] at done
    split at done
    · cases done
    · rename_i ended
      cases done
      exact ⟨[], List.prefix_rfl, .nil, ended⟩
  | cons input inputs ih =>
    rw [loopWhile] at done
    split at done
    · rename_i more
      obtain ⟨middle, step, done⟩ := Option.bind_eq_some_iff.mp done
      obtain ⟨taken, ⟨rest, shape⟩, run, ended⟩ := ih done
      refine ⟨input :: taken, ⟨rest, by rw [List.cons_append, shape]⟩, ?_, ended⟩
      exact (Run.nil.snoc more step).trans run
    · rename_i ended
      cases done
      exact ⟨[], List.nil_prefix, .nil, ended⟩

/-- A loop ends when no turn makes a bound larger, and again and again one makes it smaller. -/
theorem loopWhile_ends {again : σ → Prop} [DecidablePred again] {inputs : Nat → α} {n k : Nat}
    (I : Nat → Nat → σ → Prop)
    (turn : ∀ n k s, I n k s → again s → ∃ s' k', next s (inputs n) = some s' ∧ I (n + 1) k' s' ∧ k' ≤ k)
    (often : ∀ n, ∃ m, n ≤ m ∧ ∀ k s, I m k s → again s →
      ∃ s' k', next s (inputs m) = some s' ∧ I (m + 1) k' s' ∧ k' < k)
    (start : I n k s) : ∃ j s', loopWhile again next ((List.range' n j).map inputs) s = some s' := by
  have ended : ∀ {n s}, ¬ again s → ∃ j s', loopWhile again next ((List.range' n j).map inputs) s = some s' :=
    fun stopped => ⟨0, _, if_neg stopped⟩
  have one : ∀ {n s s'}, again s → next s (inputs n) = some s' →
      (∃ j s'', loopWhile again next ((List.range' (n + 1) j).map inputs) s' = some s'') →
      ∃ j s'', loopWhile again next ((List.range' n j).map inputs) s = some s'' := by
    rintro n s s' more step ⟨j, s'', done⟩
    exact ⟨j + 1, s'', by simp [List.range'_succ, loopWhile, more, step, done]⟩
  induction k using Nat.strongRecOn generalizing n s with
  | ind k ih =>
    obtain ⟨m, late, less⟩ := often n
    have walk : ∀ d n k' s, n + d = m → k' ≤ k → I n k' s →
        ∃ j s', loopWhile again next ((List.range' n j).map inputs) s = some s' := by
      intro d
      induction d with
      | zero =>
        rintro n k' s rfl le inv
        by_cases more : again s
        · obtain ⟨s', k'', step, inv, lt⟩ := less k' s inv more
          exact one more step (ih k'' (by omega) inv)
        · exact ended more
      | succ d walk =>
        rintro n k' s rfl le inv
        by_cases more : again s
        · obtain ⟨s', k'', step, inv, le'⟩ := turn n k' s inv more
          exact one more step (walk (n + 1) k'' s' (by omega) (by omega) inv)
        · exact ended more
    exact walk (m - n) n k s (by omega) (Nat.le_refl k) start

/-- A test that every turn of a loop makes before it goes on, up to where the loop ends, is
passed wherever the loop goes on. -/
theorem watched_of_loopWhile {again : σ → Prop} [DecidablePred again] {check : σ → Bool} {input : α} {n m : Nat}
    (ended : (loopWhile again (fun s input => if check s then next s input else none)
      (List.replicate n input) init).isSome = true)
    (run : Run next (fun s _ => again s) init (List.replicate m input) s) (more : again s) : check s = true := by
  have first : ∀ {m init}, Run next (fun s _ => again s) init (List.replicate m input) s → again init := by
    intro m init run
    cases m with
    | zero => exact run.nil_inv ▸ more
    | succ m =>
      obtain ⟨middle, goesOn, -⟩ := run.cons_inv
      exact goesOn
  induction n generalizing init m with
  | zero => simp [loopWhile, first run] at ended
  | succ n ih =>
    rw [List.replicate_succ, loopWhile, if_pos (first run)] at ended
    by_cases shown : check init = true
    · cases m with
      | zero => exact run.nil_inv ▸ shown
      | succ m =>
        obtain ⟨middle, -, step, rest⟩ := run.cons_inv
        rw [if_pos shown, step, Option.bind_some] at ended
        exact ih ended rest
    · rw [if_neg shown] at ended
      cases ended

end Runs
