import Mathlib.Data.Finset.Insert
import Mathlib.Data.List.Induction
import Mathlib.Data.List.Nodup

/-! Operations that read and write a memory, performed in another order than the one they
were submitted in. Two of them conflict when one writes a location the other reads or
writes; two readers do not. As long as conflicting operations stay in order, each sees what
it would see if all were performed as soon as they are submitted. -/
namespace AccessOrder
variable {Op Loc Val Out : Type}

/-! ### Orders that keep conflicting operations apart -/

section Orders

/-- An operation may be performed next: it was submitted, it was not performed yet, and
every earlier one it conflicts with was. -/
def Ready (Conflict : Op → Op → Prop) (ops : List Op) (order : List Nat) (i : Nat) (op : Op) : Prop :=
  ops[i]? = some op ∧ i ∉ order ∧ ∀ j op', j < i → ops[j]? = some op' → Conflict op' op → j ∈ order

instance [DecidableRel Conflict] (ops : List Op) (order : List Nat) (i : Nat) :
    Decidable (∃ op, Ready Conflict ops order i op) :=
  match here : ops[i]? with
  | none => isFalse fun ⟨_, ready⟩ => by simp [ready.1] at here
  | some op =>
    decidable_of_iff (i ∉ order ∧
        ∀ j < i, ((ops[j]?).all fun op' => decide (Conflict op' op → j ∈ order)) = true) (by
      constructor
      · intro ready
        refine ⟨op, here, ready.1, fun j op' less there => ?_⟩
        have checked := ready.2 j less
        rw [there] at checked
        exact of_decide_eq_true checked
      · rintro ⟨op', same, fresh, earlier⟩
        cases here.symm.trans same
        refine ⟨fresh, fun j less => ?_⟩
        cases there : ops[j]? with
        | none => rfl
        | some op' => exact decide_eq_true (earlier j op' less there))

/-- An order in which each operation was ready when it was performed. -/
inductive InOrder (Conflict : Op → Op → Prop) (ops : List Op) : List Nat → Prop
  | nil : InOrder Conflict ops []
  | snoc (before : InOrder Conflict ops order) (ready : Ready Conflict ops order i op) :
      InOrder Conflict ops (order ++ [i])

variable {Conflict Conflict' : Op → Op → Prop} {ops new : List Op} {order pre post : List Nat}
  {i j : Nat} {op op' : Op}

theorem Ready.inRange (ready : Ready Conflict ops order i op) : i < ops.length :=
  (List.getElem?_eq_some_iff.mp ready.1).1

/-- Fewer conflicts leave more orders. -/
theorem Ready.mono (fewer : ∀ op op', Conflict' op op' → Conflict op op')
    (ready : Ready Conflict ops order i op) : Ready Conflict' ops order i op :=
  ⟨ready.1, ready.2.1, fun j op' less here clash => ready.2.2 j op' less here (fewer _ _ clash)⟩

/-- What is submitted later does not matter. -/
theorem Ready.submit (ready : Ready Conflict ops order i op) : Ready Conflict (ops ++ new) order i op := by
  have inside := ready.inRange
  refine ⟨by rw [List.getElem?_append_left inside, ready.1], ready.2.1, fun j op' less here => ?_⟩
  rw [List.getElem?_append_left (by omega)] at here
  exact ready.2.2 j op' less here

namespace InOrder

theorem mono (fewer : ∀ op op', Conflict' op op' → Conflict op op')
    (ok : InOrder Conflict ops order) : InOrder Conflict' ops order := by
  induction ok with
  | nil => exact .nil
  | snoc _ ready ih => exact ih.snoc (ready.mono fewer)

theorem submit (ok : InOrder Conflict ops order) : InOrder Conflict (ops ++ new) order := by
  induction ok with
  | nil => exact .nil
  | snoc _ ready ih => exact ih.snoc ready.submit

theorem inRange (ok : InOrder Conflict ops order) (performed : i ∈ order) : i < ops.length := by
  induction ok with
  | nil => simp at performed
  | snoc _ ready ih =>
    rcases List.mem_append.mp performed with old | new
    · exact ih old
    · exact List.mem_singleton.mp new ▸ ready.inRange

theorem nodup (ok : InOrder Conflict ops order) : order.Nodup := by
  induction ok with
  | nil => exact List.nodup_nil
  | snoc _ ready ih => exact List.nodup_append'.mpr ⟨ih, by simp, by simpa using ready.2.1⟩

/-- What is performed is closed under earlier conflicts. -/
theorem closed (ok : InOrder Conflict ops order) (less : i < j) (performed : j ∈ order)
    (here : ops[i]? = some op) (there : ops[j]? = some op') (clash : Conflict op op') : i ∈ order := by
  induction ok with
  | nil => simp at performed
  | snoc _ ready ih =>
    rw [List.mem_append, List.mem_singleton] at performed ⊢
    rcases performed with old | rfl
    · exact .inl (ih old)
    · cases ready.1.symm.trans there
      exact .inl (ready.2.2 i op less here clash)

/-- What the order begins with is an order, and the next operation is ready. -/
theorem split (ok : InOrder Conflict ops order) (shape : order = pre ++ i :: post) :
    InOrder Conflict ops pre ∧ ∃ op, Ready Conflict ops pre i op := by
  induction ok generalizing post with
  | nil => simp at shape
  | snoc before ready ih =>
    rcases post.eq_nil_or_concat' with rfl | ⟨post, last, rfl⟩
    · obtain ⟨rfl, rfl⟩ := List.append_singleton_inj.mp shape
      exact ⟨before, _, ready⟩
    · rw [← List.cons_append, ← List.append_assoc] at shape
      exact ih (List.append_singleton_inj.mp shape).1

/-- Operations that carry more than what they conflict by. -/
theorem of_map {Op' : Type} {f : Op' → Op} {ops : List Op'} (ok : InOrder Conflict (ops.map f) order) :
    InOrder (fun op op' => Conflict (f op) (f op')) ops order := by
  induction ok with
  | nil => exact .nil
  | snoc _ ready ih =>
    obtain ⟨here, fresh, earlier⟩ := ready
    rw [List.getElem?_map, Option.map_eq_some_iff] at here
    obtain ⟨op, here, rfl⟩ := here
    exact ih.snoc ⟨here, fresh, fun j op' less there clash =>
      earlier j (f op') less (by rw [List.getElem?_map, there, Option.map_some]) clash⟩

end InOrder
end Orders

/-! ### What the operations see -/

/-- What an operation does to the locations it writes, and what it lets out. Both depend
only on the locations it reads. -/
structure Semantics (Op Loc Val Out : Type) where
  Reads : Op → Loc → Prop
  Writes : Op → Loc → Prop
  apply : Op → (Loc → Val) → Loc → Val
  output : Op → (Loc → Val) → Out
  frame : ∀ op m l, ¬ Writes op l → apply op m l = m l
  local_apply : ∀ op m m', (∀ l, Reads op l → m l = m' l) → ∀ l, Writes op l → apply op m l = apply op m' l
  local_output : ∀ op m m', (∀ l, Reads op l → m l = m' l) → output op m = output op m'

namespace Semantics

/-- One of the two writes what the other reads or writes. -/
def Conflict (sem : Semantics Op Loc Val Out) (op op' : Op) : Prop :=
  ∃ l, sem.Writes op l ∧ (sem.Reads op' l ∨ sem.Writes op' l) ∨ sem.Reads op l ∧ sem.Writes op' l

/-- The memory after all operations in the order of their submission. -/
def replay (sem : Semantics Op Loc Val Out) (m : Loc → Val) (ops : List Op) : Loc → Val :=
  ops.foldl (fun m op => sem.apply op m) m

/-- The memory after the operations at the given places were performed in the given order. -/
def perform (sem : Semantics Op Loc Val Out) (m : Loc → Val) (ops : List Op) (order : List Nat) : Loc → Val :=
  order.foldl (fun m i => (ops[i]?).elim m fun op => sem.apply op m) m

section
variable {sem : Semantics Op Loc Val Out} {m₀ : Loc → Val} {ops : List Op} {order pre post : List Nat}
  {i n k : Nat} {op : Op} {l : Loc}

theorem replay_append (ops ops' : List Op) :
    sem.replay m₀ (ops ++ ops') = sem.replay (sem.replay m₀ ops) ops' := List.foldl_append

theorem replay_take_succ (here : ops[n]? = some op) :
    sem.replay m₀ (ops.take (n + 1)) = sem.apply op (sem.replay m₀ (ops.take n)) := by
  rw [List.take_add_one, here, replay_append]
  rfl

/-- Between two points without a writer a location keeps its value. -/
theorem replay_take_frame (le : n ≤ k)
    (out : ∀ j op, n ≤ j → j < k → ops[j]? = some op → ¬ sem.Writes op l) :
    sem.replay m₀ (ops.take k) l = sem.replay m₀ (ops.take n) l := by
  induction k, le using Nat.le_induction with
  | base => rfl
  | succ k le ih =>
    have before := ih fun j op low high => out j op low (by omega)
    rw [← before]
    cases here : ops[k]? with
    | none =>
      have short : ops.length ≤ k := by simpa using here
      rw [List.take_of_length_le short, List.take_of_length_le (by omega)]
    | some op =>
      rw [replay_take_succ here]
      exact sem.frame op _ l (out k op le (by omega) here)

theorem perform_snoc (here : ops[i]? = some op) :
    sem.perform m₀ ops (order ++ [i]) = sem.apply op (sem.perform m₀ ops order) := by
  simp [perform, here]

/-- What is submitted later does not matter. -/
theorem perform_submit (inside : ∀ i ∈ order, i < ops.length) (new : List Op) :
    sem.perform m₀ (ops ++ new) order = sem.perform m₀ ops order := by
  induction order using List.reverseRecOn with
  | nil => rfl
  | append_singleton order i ih =>
    have here : (ops ++ new)[i]? = ops[i]? := List.getElem?_append_left (inside i (by simp))
    have before := ih fun j member => inside j (by simp [member])
    unfold perform at before ⊢
    rw [List.foldl_append, List.foldl_append, before]
    simp [here]

/-- A location holds what the writers performed so far leave there, as long as they are the
first ones submitted. -/
theorem perform_eq_replay (ok : InOrder sem.Conflict ops order) (inside : n ≤ ops.length)
    (before : ∀ j op, j < n → ops[j]? = some op → sem.Writes op l → j ∈ order)
    (after : ∀ j op, n ≤ j → ops[j]? = some op → sem.Writes op l → j ∉ order) :
    sem.perform m₀ ops order l = sem.replay m₀ (ops.take n) l := by
  induction ok generalizing n l with
  | nil =>
    have quiet : ∀ (j : Nat) (op : Op), 0 ≤ j → j < n → ops[j]? = some op → ¬ sem.Writes op l :=
      fun j op _ less here writes => by simpa using before j op less here writes
    exact (replay_take_frame (Nat.zero_le n) quiet).symm
  | @snoc order i op earlier ready ih =>
    rw [perform_snoc ready.1]
    by_cases writes : sem.Writes op l
    · have low : i < n := by
        by_contra high
        exact after i op (by omega) ready.1 writes (by simp)
      have quiet : ∀ (j : Nat) (op' : Op), i + 1 ≤ j → j < n → ops[j]? = some op' → ¬ sem.Writes op' l := by
        intro j op' behind less here writes'
        rcases List.mem_append.mp (before j op' less here writes') with old | new
        · exact ready.2.1 (earlier.closed (by omega) old ready.1 here ⟨l, .inl ⟨writes, .inr writes'⟩⟩)
        · rw [List.mem_singleton.mp new] at behind
          omega
      rw [replay_take_frame low quiet, replay_take_succ ready.1]
      refine sem.local_apply op _ _ (fun x reads => ?_) l writes
      refine ih ready.inRange.le (fun j op' less here writes' => ?_) fun j op' le here writes' old => ?_
      · exact ready.2.2 j op' less here ⟨x, .inl ⟨writes', .inl reads⟩⟩
      · rcases Nat.lt_or_eq_of_le le with less | rfl
        · exact ready.2.1 (earlier.closed less old ready.1 here ⟨x, .inr ⟨reads, writes'⟩⟩)
        · exact ready.2.1 old
    · rw [sem.frame op _ l writes]
      refine ih inside (fun j op' less here writes' => ?_) fun j op' le here writes' old =>
        after j op' le here writes' (by simp [old])
      rcases List.mem_append.mp (before j op' less here writes') with old | new
      · exact old
      · cases List.mem_singleton.mp new
        cases ready.1.symm.trans here
        exact absurd writes' writes

/-- An operation that is ready reads what it would read in order. -/
theorem sees (ok : InOrder sem.Conflict ops order) (ready : Ready sem.Conflict ops order i op)
    (reads : sem.Reads op l) : sem.perform m₀ ops order l = sem.replay m₀ (ops.take i) l := by
  refine perform_eq_replay ok ready.inRange.le (fun j op' less here writes => ?_) fun j op' le here writes old => ?_
  · exact ready.2.2 j op' less here ⟨l, .inl ⟨writes, .inl reads⟩⟩
  · rcases Nat.lt_or_eq_of_le le with less | rfl
    · exact ready.2.1 (ok.closed less old ready.1 here ⟨l, .inr ⟨reads, writes⟩⟩)
    · exact ready.2.1 old

theorem output_eq (ok : InOrder sem.Conflict ops order) (ready : Ready sem.Conflict ops order i op) :
    sem.output op (sem.perform m₀ ops order) = sem.output op (sem.replay m₀ (ops.take i)) :=
  sem.local_output op _ _ fun _ reads => sees ok ready reads

/-- Once everything is performed the memory is the one of the order of submission. -/
theorem perform_all (ok : InOrder sem.Conflict ops order) (all : ∀ i < ops.length, i ∈ order) :
    sem.perform m₀ ops order = sem.replay m₀ ops := by
  funext l
  have whole : sem.perform m₀ ops order l = sem.replay m₀ (ops.take ops.length) l :=
    perform_eq_replay ok le_rfl (fun j _ less _ _ => all j less) fun j op le here _ => by
      have inside := (List.getElem?_eq_some_iff.mp here).1
      omega
  rwa [List.take_length] at whole

end
end Semantics
end AccessOrder
