import Mathlib.Logic.Relation

/-! Programs that run beside devices. Before every statement the devices may take any
number of steps of their own, and the program can wait until they are quiet. A triple says
what holds after every run; an assertion has to survive the steps of the devices. -/
namespace AsyncPrograms
open Relation (ReflTransGen)

variable {σ : Type}

inductive Prog (σ : Type) where
  | skip
  | act (f : σ → σ)
  | sync
  | seq (p q : Prog σ)
  | ite (test : σ → Bool) (p q : Prog σ)

/-- The body for every index below a bound, in order. -/
def Prog.forRange (body : Nat → Prog σ) : Nat → Prog σ
  | 0 => .skip
  | n + 1 => .seq (forRange body n) (body n)

variable (step : σ → σ → Prop) (quiet : σ → Prop)

/-- The runs of a program, devices included. -/
inductive Runs : Prog σ → σ → σ → Prop where
  | skip : Runs .skip s s
  | act : Runs (.act f) s (f s)
  | sync (done : quiet s) : Runs .sync s s
  | seq (first : Runs p s t) (second : Runs q t u) : Runs (.seq p q) s u
  | ite (branch : Runs (if test s then p else q) s t) : Runs (.ite test p q) s t
  | device (moves : step s t) (rest : Runs p t u) : Runs p s u

/-- Devices do not make the assertion false. -/
def Stable (P : σ → Prop) : Prop := ∀ s t, step s t → P s → P t

/-- After every run from a state with the first assertion the second one holds. -/
def Triple (P : σ → Prop) (p : Prog σ) (Q : σ → Prop) : Prop :=
  ∀ s t, Runs step quiet p s t → P s → Q t

variable {step : σ → σ → Prop} {quiet : σ → Prop} {P P' Q Q' R : σ → Prop} {p q : Prog σ} {s t : σ}

/-! ### Rules -/

theorem Triple.conseq (triple : Triple step quiet P p Q) (before : ∀ s, P' s → P s)
    (after : ∀ s, Q s → Q' s) : Triple step quiet P' p Q' :=
  fun s t run h => after t (triple s t run (before s h))

theorem Triple.skip (stable : Stable step P) : Triple step quiet P .skip P := by
  intro s t run
  generalize same : (Prog.skip : Prog σ) = p at run
  induction run with
  | skip => exact id
  | device moves _ ih => exact fun h => ih same (stable _ _ moves h)
  | _ => cases same

theorem Triple.act {f : σ → σ} (stable : Stable step P) (effect : ∀ s, P s → Q (f s)) :
    Triple step quiet P (.act f) Q := by
  intro s t run
  generalize same : Prog.act f = p at run
  induction run with
  | act =>
    cases same
    exact effect _
  | device moves _ ih => exact fun h => ih same (stable _ _ moves h)
  | _ => cases same

theorem Triple.sync (stable : Stable step P) : Triple step quiet P .sync fun s => P s ∧ quiet s := by
  intro s t run
  generalize same : (Prog.sync : Prog σ) = p at run
  induction run with
  | sync done => exact fun h => ⟨h, done⟩
  | device moves _ ih => exact fun h => ih same (stable _ _ moves h)
  | _ => cases same

theorem Triple.seq (stable : Stable step P) (first : Triple step quiet P p Q) (second : Triple step quiet Q q R) :
    Triple step quiet P (.seq p q) R := by
  intro s t run
  generalize same : Prog.seq p q = r at run
  induction run with
  | seq ran next =>
    cases same
    exact fun h => second _ _ next (first _ _ ran h)
  | device moves _ ih => exact fun h => ih same (stable _ _ moves h)
  | _ => cases same

theorem Triple.ite {test : σ → Bool} (stable : Stable step P)
    (yes : Triple step quiet (fun s => P s ∧ test s = true) p Q)
    (no : Triple step quiet (fun s => P s ∧ test s = false) q Q) : Triple step quiet P (.ite test p q) Q := by
  intro s t run
  generalize same : Prog.ite test p q = r at run
  induction run with
  | ite branch =>
    cases same
    intro h
    split at branch
    · rename_i result
      exact yes _ _ branch ⟨h, result⟩
    · rename_i result
      exact no _ _ branch ⟨h, by simpa using result⟩
  | device moves _ ih => exact fun h => ih same (stable _ _ moves h)
  | _ => cases same

/-- A loop keeps an invariant that counts its turns. -/
theorem Triple.forRange {body : Nat → Prog σ} {n : Nat} (I : Nat → σ → Prop) (stable : Stable step (I 0))
    (turn : ∀ i < n, Triple step quiet (I i) (body i) (I (i + 1))) :
    Triple step quiet (I 0) (.forRange body n) (I n) := by
  induction n with
  | zero => exact .skip stable
  | succ n ih => exact .seq stable (ih fun i low => turn i (by omega)) (turn n (by omega))

/-- Every statement of a program keeps an assertion. -/
def Prog.Keeps (P : σ → Prop) : Prog σ → Prop
  | skip | sync => True
  | act f => ∀ s, P s → P (f s)
  | seq p q | ite _ p q => p.Keeps P ∧ q.Keeps P

theorem Prog.Keeps.forRange {body : Nat → Prog σ} (each : ∀ i, (body i).Keeps P) (n : Nat) :
    (Prog.forRange body n).Keeps P := by
  induction n with
  | zero => trivial
  | succ n ih => exact ⟨ih, each n⟩

/-- An assertion that all statements and devices keep is an invariant. -/
theorem Triple.invariant (stable : Stable step P) (keeps : p.Keeps P) : Triple step quiet P p P := by
  induction p with
  | skip => exact .skip stable
  | act f => exact .act stable keeps
  | sync => exact (Triple.sync stable).conseq (fun _ => id) fun _ => And.left
  | seq p q ihp ihq => exact .seq stable (ihp keeps.1) (ihq keeps.2)
  | ite test p q ihp ihq =>
    refine .ite stable ?_ ?_
    · exact (ihp keeps.1).conseq (fun _ => And.left) fun _ => id
    · exact (ihq keeps.2).conseq (fun _ => And.left) fun _ => id

/-- A run of a sequence is a run of the one and then of the other. -/
theorem Runs.seq_inv (run : Runs step quiet (.seq p q) s t) :
    ∃ m, Runs step quiet p s m ∧ Runs step quiet q m t := by
  generalize same : Prog.seq p q = r at run
  induction run with
  | seq ran next =>
    cases same
    exact ⟨_, ran, next⟩
  | device moves _ ih =>
    obtain ⟨m, ran, next⟩ := ih same
    exact ⟨m, .device moves ran, next⟩
  | _ => cases same

/-- While all devices rest a statement takes effect at once. -/
theorem Runs.act_still {f : σ → σ} (still : ∀ t, ¬ step s t) (run : Runs step quiet (.act f) s t) : t = f s := by
  cases run with
  | act => rfl
  | device moves _ => exact absurd moves (still _)

theorem Runs.ite_still {test : σ → Bool} (still : ∀ t, ¬ step s t) (run : Runs step quiet (.ite test p q) s t) :
    Runs step quiet (if test s then p else q) s t := by
  cases run with
  | ite branch => exact branch
  | device moves _ => exact absurd moves (still _)

theorem Runs.skip_still (still : ∀ t, ¬ step s t) (run : Runs step quiet .skip s t) : t = s := by
  cases run with
  | skip => rfl
  | device moves _ => exact absurd moves (still _)

/-- Devices can always be waited for, so a program always runs to its end. -/
theorem runs_exists (settles : ∀ s, ∃ t, ReflTransGen step s t ∧ quiet t) (p : Prog σ) (s : σ) :
    ∃ t, Runs step quiet p s t := by
  induction p generalizing s with
  | skip => exact ⟨s, .skip⟩
  | act f => exact ⟨f s, .act⟩
  | sync =>
    obtain ⟨t, moves, done⟩ := settles s
    refine ⟨t, ?_⟩
    induction moves using ReflTransGen.head_induction_on with
    | refl => exact .sync done
    | head first _ ih => exact .device first ih
  | seq p q ihp ihq =>
    obtain ⟨t, first⟩ := ihp s
    obtain ⟨u, second⟩ := ihq t
    exact ⟨u, .seq first second⟩
  | ite test p q ihp ihq =>
    cases result : test s with
    | true =>
      obtain ⟨t, branch⟩ := ihp s
      exact ⟨t, .ite (by simpa [result] using branch)⟩
    | false =>
      obtain ⟨t, branch⟩ := ihq s
      exact ⟨t, .ite (by simpa [result] using branch)⟩

/-! ### Independent components

The state falls into components with a device each. An assertion about a component is
local if it depends on nothing else, survives the steps of its own device, and keeps them
off the other components. -/

section Components
variable (stepOf : Nat → σ → σ → Prop) (agree : Nat → σ → σ → Prop) (n : Nat)

/-- A step of the device of any component. -/
def StepOfAny (s t : σ) : Prop := ∃ i < n, stepOf i s t

structure Local (A : Nat → σ → Prop) : Prop where
  frame : ∀ i < n, ∀ s t, agree i s t → A i s → A i t
  own : ∀ i < n, ∀ s t, stepOf i s t → A i s → A i t
  others : ∀ i < n, ∀ s t, stepOf i s t → A i s → ∀ j < n, j ≠ i → agree j s t

/-- Every component has its assertion. -/
def Each (A : Nat → σ → Prop) (s : σ) : Prop := ∀ i < n, A i s

variable {stepOf : Nat → σ → σ → Prop} {agree : Nat → σ → σ → Prop} {A B : Nat → σ → Prop} {n : Nat}

theorem Local.stable (ok : Local stepOf agree n A) : Stable (StepOfAny stepOf n) (Each n A) := by
  rintro s t ⟨i, low, moves⟩ each j exist
  by_cases same : j = i
  · subst same
    exact ok.own j low s t moves (each j exist)
  · exact ok.frame j exist s t (ok.others i low s t moves (each i low) j exist same) (each j exist)

/-- The components that a loop has passed have the next assertion already. -/
theorem Local.passed (first : Local stepOf agree n A) (next : Local stepOf agree n B) (i : Nat) :
    Local stepOf agree n fun j s => if j < i then B j s else A j s where
  frame j low s t same := by
    split
    · exact next.frame j low s t same
    · exact first.frame j low s t same
  own j low s t moves := by
    split
    · exact next.own j low s t moves
    · exact first.own j low s t moves
  others j low s t moves := by
    split
    · exact next.others j low s t moves
    · exact first.others j low s t moves

/-- A loop that does something for one component after the other. -/
theorem Triple.forEach {f : Nat → σ → σ} (first : Local stepOf agree n A) (next : Local stepOf agree n B)
    (effect : ∀ i < n, ∀ s, A i s → B i (f i s))
    (others : ∀ i < n, ∀ s, A i s → ∀ j < n, j ≠ i → agree j s (f i s)) :
    Triple (StepOfAny stepOf n) quiet (Each n A) (.forRange (fun i => .act (f i)) n) (Each n B) := by
  let passed (i : Nat) : σ → Prop := Each n fun j s => if j < i then B j s else A j s
  have loop : Triple (StepOfAny stepOf n) quiet (passed 0) (.forRange (fun i => .act (f i)) n) (passed n) := by
    refine .forRange passed (first.passed next 0).stable fun i low => ?_
    refine .act (first.passed next i).stable fun s each j exist => ?_
    have here : A i s := by simpa using each i low
    by_cases same : j = i
    · subst same
      simpa using effect j low s here
    · have kept := others i low s here j exist same
      have before := each j exist
      by_cases passed : j < i
      · simp only [passed, ↓reduceIte] at before
        simp only [Nat.lt_succ_of_lt passed, ↓reduceIte]
        exact next.frame j exist s _ kept before
      · simp only [passed, ↓reduceIte] at before
        simp only [show ¬ j < i + 1 by omega, ↓reduceIte]
        exact first.frame j exist s _ kept before
  refine loop.conseq (fun s each j exist => ?_) (fun s each j exist => ?_)
  · simpa using each j exist
  · simpa [exist] using each j exist

/-- Waiting for all devices. -/
theorem Triple.syncEach {quietOf : Nat → σ → Prop} (first : Local stepOf agree n A)
    (after : ∀ i < n, ∀ s, A i s → quietOf i s → B i s) :
    Triple (StepOfAny stepOf n) (Each n quietOf) (Each n A) .sync (Each n B) :=
  (Triple.sync first.stable).conseq (fun _ => id) fun s h i low => after i low s (h.1 i low) (h.2 i low)

end Components

end AsyncPrograms
