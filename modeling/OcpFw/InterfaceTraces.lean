import Mathlib.Data.List.Basic
import Mathlib.Logic.Function.Basic

/-! Traces at the interface of a device. A program makes its accesses in an order of its
own, and before and after each of them the device takes any number of steps. A triple says
what holds of the device at every point of a trace, and of an access when it is made. -/
namespace InterfaceTraces

variable {σ α μ ι : Type}

section
variable (access : σ → α → Option σ) (move : σ → μ → Option σ)

/-- An access, or a step of the device. -/
def advance (s : σ) : α ⊕ μ → Option σ
  | .inl a => access s a
  | .inr m => move s m

/-- The device can answer these accesses in this order and end in the last state. -/
def Serves (s : σ) (as : List α) (t : σ) : Prop :=
  ∃ steps : List (α ⊕ μ), steps.filterMap Sum.getLeft? = as ∧ steps.foldlM (advance access move) s = some t

/-- The steps of the device do not make the assertion false. -/
def Stable (P : σ → Prop) : Prop := ∀ s m t, P s → move s m = some t → P t

/-- From the first assertion, every state on the way is in order and every access is safe
where it is made, and the second assertion holds in the end. -/
def Triple (always : σ → Prop) (safe : σ → α → Prop) (P : σ → Prop) (as : List α) (Q : σ → Prop) : Prop :=
  ∀ s, P s →
    (∀ before after t, as = before ++ after → Serves access move s before t →
      always t ∧ ∀ a ∈ after.head?, safe t a) ∧
    ∀ t, Serves access move s as t → Q t

end

variable {access : σ → α → Option σ} {move : σ → μ → Option σ} {always : σ → Prop} {safe : σ → α → Prop}
  {P Q R : σ → Prop} {s t : σ} {as bs : List α}

/-! ### Traces -/

/-- While no access is made the device is alone. -/
theorem Serves.alone (stable : Stable move P) (start : P s) (served : Serves access move s [] t) : P t := by
  obtain ⟨steps, silent, ran⟩ := served
  induction steps generalizing s with
  | nil =>
    cases ran
    exact start
  | cons step steps ih =>
    cases step with
    | inl a => simp at silent
    | inr m =>
      simp only [List.foldlM_cons, Option.bind_eq_bind, Option.bind_eq_some_iff, advance] at ran
      obtain ⟨u, first, ran⟩ := ran
      exact ih (stable s m u start first) (by simpa using silent) ran

theorem Serves.split (served : Serves access move s (as ++ bs) t) :
    ∃ u, Serves access move s as u ∧ Serves access move u bs t := by
  obtain ⟨steps, shown, ran⟩ := served
  obtain ⟨first, second, rfl, left, right⟩ := List.filterMap_eq_append_iff.mp shown
  simp only [List.foldlM_append, Option.bind_eq_bind, Option.bind_eq_some_iff] at ran
  obtain ⟨u, ran, rest⟩ := ran
  exact ⟨u, ⟨first, left, ran⟩, second, right, rest⟩

/-- The device is alone until the first access is made. -/
theorem Serves.first {a : α} (served : Serves access move s (a :: as) t) :
    ∃ u v, Serves access move s [] u ∧ access u a = some v ∧ Serves access move v as t := by
  obtain ⟨steps, shown, ran⟩ := served
  obtain ⟨quiet, step, rest, rfl, silent, isAccess, left⟩ := List.filterMap_eq_cons_iff.mp shown
  simp only [List.foldlM_append, List.foldlM_cons, Option.bind_eq_bind, Option.bind_eq_some_iff] at ran
  obtain ⟨u, alone, v, taken, ran⟩ := ran
  cases step with
  | inl b =>
    cases isAccess
    exact ⟨u, v, ⟨quiet, List.filterMap_eq_nil_iff.mpr silent, alone⟩, taken, rest, left, ran⟩
  | inr m => cases isAccess

/-! ### Rules -/

theorem Triple.conseq {P' Q' : σ → Prop} (triple : Triple access move always safe P as Q)
    (before : ∀ s, P' s → P s) (after : ∀ s, Q s → Q' s) : Triple access move always safe P' as Q' :=
  fun s start => ⟨(triple s (before s start)).1, fun t served => after t ((triple s (before s start)).2 t served)⟩

/-- The triples of all states that meet an assertion. -/
theorem Triple.exists {β : Type} {P : β → σ → Prop} (each : ∀ b, Triple access move always safe (P b) as Q) :
    Triple access move always safe (fun s => ∃ b, P b s) as Q :=
  fun s ⟨b, start⟩ => each b s start

/-- A fact about no state may be assumed. -/
theorem Triple.assume {p : Prop} (triple : p → Triple access move always safe P as Q) :
    Triple access move always safe (fun s => p ∧ P s) as Q := fun s start => triple start.1 s start.2

theorem Triple.nil (stable : Stable move P) (calm : ∀ s, P s → always s) :
    Triple access move always safe P [] P := by
  refine fun s start => ⟨fun before after t shape served => ?_, fun t served => served.alone stable start⟩
  obtain ⟨rfl, rfl⟩ := List.nil_eq_append_iff.mp shape
  exact ⟨calm t (served.alone stable start), nofun⟩

theorem Triple.cons {a : α} (stable : Stable move P) (calm : ∀ s, P s → always s) (ok : ∀ s, P s → safe s a)
    (effect : ∀ s t, P s → access s a = some t → Q t) (rest : Triple access move always safe Q as R) :
    Triple access move always safe P (a :: as) R := by
  refine fun s start => ⟨fun before after t shape served => ?_, fun t served => ?_⟩
  · cases before with
    | nil =>
      cases shape
      have here := served.alone stable start
      refine ⟨calm t here, fun b isHead => ?_⟩
      cases isHead
      exact ok t here
    | cons b before =>
      cases shape
      obtain ⟨u, v, alone, taken, served⟩ := served.first
      exact (rest v (effect u v (alone.alone stable start) taken)).1 before after t rfl served
  · obtain ⟨u, v, alone, taken, served⟩ := served.first
    exact (rest v (effect u v (alone.alone stable start) taken)).2 t served

theorem Triple.append (first : Triple access move always safe P as Q)
    (second : Triple access move always safe Q bs R) : Triple access move always safe P (as ++ bs) R := by
  refine fun s start => ⟨fun before after t shape served => ?_, fun t served => ?_⟩
  · rcases List.append_eq_append_iff.mp shape with ⟨more, rfl, rfl⟩ | ⟨left, rfl, rfl⟩
    · obtain ⟨u, done, served⟩ := served.split
      exact (second u ((first s start).2 u done)).1 more after t rfl served
    · cases left with
      | nil =>
        have here := (first s start).2 t (by simpa using served)
        exact (second t here).1 [] bs t rfl ⟨[], rfl, rfl⟩
      | cons a left => exact (first s start).1 before (a :: left) t rfl served
  · obtain ⟨u, done, served⟩ := served.split
    exact (second u ((first s start).2 u done)).2 t served

/-! ### Components

A device of independent components, each with accesses and steps of its own. -/

section
variable [DecidableEq ι]

/-- One component takes a step. -/
def onComponent {β : Type} (next : σ → β → Option σ) (s : ι → σ) (input : ι × β) : Option (ι → σ) :=
  (next (s input.1) input.2).map (Function.update s input.1)

theorem onComponent_eq {β : Type} {next : σ → β → Option σ} {s t : ι → σ} {input : ι × β}
    (step : onComponent next s input = some t) :
    next (s input.1) input.2 = some (t input.1) ∧ ∀ j, j ≠ input.1 → t j = s j := by
  obtain ⟨u, stepped, rfl⟩ := Option.map_eq_some_iff.mp step
  exact ⟨by simpa using stepped, fun j other => by simp [other]⟩

/-- A trace of the device is a trace of each of its components. -/
theorem Serves.component {s t : ι → σ} {as : List (ι × α)} (i : ι)
    (served : Serves (onComponent access) (onComponent move) s as t) :
    Serves access move (s i) (as.filterMap fun a => if a.1 = i then some a.2 else none) (t i) := by
  obtain ⟨steps, shown, ran⟩ := served
  induction steps generalizing s as with
  | nil =>
    cases ran
    cases shown
    exact ⟨[], rfl, rfl⟩
  | cons step steps ih =>
    simp only [List.foldlM_cons, Option.bind_eq_bind, Option.bind_eq_some_iff] at ran
    obtain ⟨u, first, ran⟩ := ran
    obtain ⟨rest, shown', ran'⟩ := ih rfl ran
    cases step with
    | inl a =>
      cases shown
      obtain ⟨own, others⟩ := onComponent_eq first
      by_cases here : a.1 = i
      · subst here
        refine ⟨.inl a.2 :: rest, by simp [shown'], ?_⟩
        simpa [advance, own] using ran'
      · refine ⟨rest, by simp [shown', here], ?_⟩
        rwa [← others i (Ne.symm here)]
    | inr m =>
      cases shown
      obtain ⟨own, others⟩ := onComponent_eq first
      have silent : (Sum.inr m :: steps).filterMap Sum.getLeft? = steps.filterMap Sum.getLeft? := rfl
      rw [silent, ← shown']
      by_cases here : m.1 = i
      · subst here
        refine ⟨.inr m.2 :: rest, rfl, ?_⟩
        simpa [advance, own] using ran'
      · refine ⟨rest, rfl, ?_⟩
        rwa [← others i (Ne.symm here)]

/-- Accesses to one component concern this component only. -/
theorem Triple.component {P Q : ι → σ → Prop} (i : ι) (own : Triple access move always safe (P i) as (Q i))
    (stable : ∀ j ≠ i, Stable move (P j)) (calm : ∀ j ≠ i, ∀ s, P j s → always s)
    (others : ∀ j ≠ i, ∀ s, P j s → Q j s) :
    Triple (onComponent access) (onComponent move) (fun s => ∀ j, always (s j)) (fun s a => safe (s a.1) a.2)
      (fun s => ∀ j, P j (s j)) (as.map (Prod.mk i)) (fun s => ∀ j, Q j (s j)) := by
  have shown : ∀ bs : List α, (bs.map (Prod.mk i)).filterMap
      (fun a => if a.1 = i then some a.2 else none) = bs := by
    intro bs
    simp [List.filterMap_map]
  have hidden : ∀ j ≠ i, ∀ bs : List α, (bs.map (Prod.mk i)).filterMap
      (fun a => if a.1 = j then some a.2 else none) = [] := by
    intro j other bs
    simp [List.filterMap_map, Ne.symm other]
  have away : ∀ {s t : ι → σ} {bs : List α}, (∀ j, P j (s j)) →
      Serves (onComponent access) (onComponent move) s (bs.map (Prod.mk i)) t → ∀ j ≠ i, P j (t j) := by
    intro s t bs start served j other
    have alone := served.component j
    rw [hidden j other] at alone
    exact alone.alone (stable j other) (start j)
  refine fun s start => ⟨fun before after t shape served => ?_, fun t served j => ?_⟩
  · obtain ⟨first, second, rfl, rfl, rfl⟩ := List.map_eq_append_iff.mp shape
    have here := served.component i
    rw [shown] at here
    obtain ⟨calm', ok⟩ := (own (s i) (start i)).1 first second (t i) rfl here
    refine ⟨fun j => ?_, fun a isHead => ?_⟩
    · by_cases same : j = i
      · exact same ▸ calm'
      · exact calm j same (t j) (away start served j same)
    · rw [List.head?_map, Option.mem_def, Option.map_eq_some_iff] at isHead
      obtain ⟨b, isHead, rfl⟩ := isHead
      exact ok b isHead
  · by_cases same : j = i
    · subst same
      have here := served.component j
      rw [shown] at here
      exact (own (s j) (start j)).2 (t j) here
    · exact others j same (t j) (away start served j same)

end

end InterfaceTraces
