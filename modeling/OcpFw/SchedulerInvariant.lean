import OcpFw.SchedulerSteps

/-! The way lists of the scheduler. A way is in exactly one of seven lists, and the list
says what its die is doing and what its first request asks for; so it is after any
number of passes, whatever the hardware answers and whatever is queued in between. -/
namespace OcpFw
open RequestLayer (KeepsHeads KeepsOtherHeads Acts)
open Runs (Run exec run_of_exec_any)

/-- What being in a list says of a way. -/
def WayList.Allows (k : WayList) (entry : DieStateEntry) (head : Option ReqCode) : Prop :=
  match k with
  | .idle => entry.dieState = .idle
  | .readTrigger => entry.dieState = .idle ∧ head = some .read
  | .readTransfer => entry.dieState = .idle ∧ head = some .readTransfer
  | .erase => entry.dieState = .idle ∧ head = some .erase
  | .write => entry.dieState = .idle ∧
      (head = some .write ∨ head = some .reset ∨ head = some .setFeature)
  | .statusCheck => entry.dieState = .exe ∧ head ≠ none ∧
      (entry.reqStatusCheckOpt = .check ∨ entry.reqStatusCheckOpt = .none)
  | .statusReport => entry.dieState = .exe ∧ head ≠ none ∧
      (entry.reqStatusCheckOpt = .report ∨ entry.reqStatusCheckOpt = .completionFlag ∨
        entry.reqStatusCheckOpt = .none)

/-- The lists of a channel: well formed, holding every way, and true of their ways. -/
structure WayLists (g : Geometry) (s : Scheduler) (chNo : Nat) (lists : WayList → List Nat) : Prop where
  wellFormed : Dll.Holds wayNone (s.wayPriority chNo) lists
  everyWay : ∀ wayNo, (∃ k, wayNo ∈ lists k) ↔ wayNo < g.userWays
  allows : ∀ k, ∀ wayNo ∈ lists k, k.Allows (s.dieState chNo wayNo) (s.headReqCode chNo wayNo)

/-- The request layer keeps its slots, and every channel its ways. -/
structure SchedulerOk (g : Geometry) (s : Scheduler) (lists : Nat → WayList → List Nat) : Prop where
  layer : ∃ held flight, SlotsOk g s.layer held flight
  channel : ∀ chNo < g.userChannels, WayLists g s chNo (lists chNo)

variable {g : Geometry} {hw : Hardware} {s s' t : Scheduler} {lists : Nat → WayList → List Nat}
  {chNo wayNo cnt turns readyBusy : Nat} {k k' : WayList} {before rest : List Nat}

theorem WayList.Allows.mono {entry : DieStateEntry} {head head' : Option ReqCode}
    (allows : k.Allows entry head) (kept : head ≠ none → head' = head) : k.Allows entry head' := by
  cases head with
  | none => cases k <;> simp_all [WayList.Allows]
  | some code => rwa [kept (by simp)]

namespace WayLists
variable {lists : WayList → List Nat}

theorem real (ok : WayLists g s chNo lists) (member : wayNo ∈ lists k) : wayNo ≠ wayNone :=
  ok.wellFormed.ne_nil member

/-- A way outside the idle list has a request. -/
theorem headReq_real (ok : WayLists g s chNo lists) (member : wayNo ∈ lists k) (busy : k ≠ .idle) :
    s.headReq chNo wayNo ≠ reqSlotTagNone := by
  rw [Ne, ← Scheduler.headReqCode_eq_none]
  have allows := ok.allows k wayNo member
  cases k <;> simp only [WayList.Allows] at allows <;> simp_all
  rcases allows.2 with h | h | h <;> simp [h]

theorem next (ok : WayLists g s chNo lists) (shape : lists k = before ++ wayNo :: rest) :
    s.nextWay chNo wayNo = rest.headD wayNone := (ok.wellFormed.links shape).2

theorem head (ok : WayLists g s chNo lists) (k : WayList) :
    s.head chNo k = (lists k).headD wayNone := ok.wellFormed.head k

theorem head_eq_none (ok : WayLists g s chNo lists) : s.head chNo k = wayNone ↔ lists k = [] :=
  ok.wellFormed.head_eq_nil

theorem head_mem (ok : WayLists g s chNo lists) (some : s.head chNo k ≠ wayNone) : s.head chNo k ∈ lists k := by
  have shown := ok.head k
  cases listed : lists k with
  | nil => exact absurd (ok.head_eq_none.mpr listed) some
  | cons x xs => simp [shown, listed]

/-- No list is longer than the channel has ways. -/
theorem length_le (ok : WayLists g s chNo lists) (k : WayList) : (lists k).length ≤ g.userWays := by
  have inside : lists k ⊆ List.range g.userWays := fun wayNo listed =>
    List.mem_range.mpr ((ok.everyWay wayNo).mp ⟨k, listed⟩)
  simpa using (List.subperm_of_subset (ok.wellFormed.nodup k) inside).length_le

/-- When two lists have as many ways together as the channel, the others are empty. -/
theorem eq_nil_of_length (ok : WayLists g s chNo lists) (diff : k ≠ k')
    (all : (lists k).length + (lists k').length = g.userWays) {k'' : WayList} (other : k'' ≠ k)
    (other' : k'' ≠ k') : lists k'' = [] := by
  rw [List.eq_nil_iff_forall_not_mem]
  intro wayNo listed
  have separate : ∀ {k₁ k₂ : WayList}, k₁ ≠ k₂ → List.Disjoint (lists k₁) (lists k₂) :=
    fun ne way first second => ne (ok.wellFormed.disjoint _ _ way first second)
  have nodup : (wayNo :: (lists k ++ lists k')).Nodup := by
    rw [List.nodup_cons, List.mem_append, not_or]
    refine ⟨⟨separate other listed, separate other' listed⟩, ?_⟩
    exact (ok.wellFormed.nodup k).append (ok.wellFormed.nodup k') (separate diff)
  have inside : wayNo :: (lists k ++ lists k') ⊆ List.range g.userWays := by
    intro way member
    rw [List.mem_range, ← ok.everyWay]
    simp only [List.mem_cons, List.mem_append] at member
    rcases member with rfl | member | member
    · exact ⟨_, listed⟩
    · exact ⟨_, member⟩
    · exact ⟨_, member⟩
  have long := (List.subperm_of_subset nodup inside).length_le
  simp only [List.length_cons, List.length_append, List.length_range] at long
  omega

end WayLists

/-! ### A way stays in its list, or moves to another one -/

/-- The lists after a way moved. -/
def moved (lists : Nat → WayList → List Nat) (chNo : Nat) (k k' : WayList) (wayNo : Nat) :
    Nat → WayList → List Nat :=
  Function.update lists chNo (Function.update
    (Function.update (lists chNo) k ((lists chNo k).erase wayNo)) k' (lists chNo k' ++ [wayNo]))

@[simp] theorem moved_target : moved lists chNo k k' wayNo chNo k' = lists chNo k' ++ [wayNo] := by
  simp [moved]

theorem moved_source (diff : k ≠ k') :
    moved lists chNo k k' wayNo chNo k = (lists chNo k).erase wayNo := by
  simp [moved, diff]

theorem moved_other {k'' : WayList} (source : k'' ≠ k) (target : k'' ≠ k') :
    moved lists chNo k k' wayNo chNo k'' = lists chNo k'' := by
  simp [moved, source, target]

namespace SchedulerOk

/-- Reading a word of the hardware changes nothing. -/
theorem read (ok : SchedulerOk g s lists) (reads : Nat) :
    SchedulerOk g { s with reads := reads } lists where
  layer := ok.layer
  channel c inRange :=
    { wellFormed := (ok.channel c inRange).wellFormed
      everyWay := (ok.channel c inRange).everyWay
      allows := (ok.channel c inRange).allows }

/-- The step concerns one way only, and what its list says stays true. -/
theorem stay (ok : SchedulerOk g s lists) (channel : chNo < g.userChannels)
    (member : wayNo ∈ lists chNo k) (acts : Acts g s.layer s'.layer)
    (step : s.Concerns s' chNo wayNo) (heads : KeepsOtherHeads s.layer s'.layer chNo wayNo)
    (allows : k.Allows (s'.dieState chNo wayNo) (s'.headReqCode chNo wayNo)) :
    SchedulerOk g s' lists where
  layer := by
    obtain ⟨held, flight, slots⟩ := ok.layer
    exact ⟨held, flight, acts.slotsOk slots⟩
  channel c inRange := by
    have old := ok.channel c inRange
    refine ⟨step.wayPriority ▸ old.wellFormed, old.everyWay, fun k'' w listed => ?_⟩
    by_cases same : (c, w) = (chNo, wayNo)
    · cases same
      have sameList := (ok.channel chNo channel).wellFormed.disjoint k'' k wayNo listed member
      exact sameList ▸ allows
    · rw [step.dieState c w same]
      exact (old.allows k'' w listed).mono (heads c w same)

/-- The step concerns one way only, which goes to the end of another list. -/
theorem move (ok : SchedulerOk g s lists) (channel : chNo < g.userChannels)
    (member : wayNo ∈ lists chNo k) (diff : k ≠ k') (acts : Acts g s.layer s'.layer)
    (table : s'.wayPriority = Function.update s.wayPriority chNo
      (((s.wayPriority chNo).remove wayNone k wayNo).pushBack wayNone k' wayNo))
    (dies : ∀ c w, (c, w) ≠ (chNo, wayNo) → s'.dieState c w = s.dieState c w)
    (heads : KeepsOtherHeads s.layer s'.layer chNo wayNo)
    (allows : k'.Allows (s'.dieState chNo wayNo) (s'.headReqCode chNo wayNo)) :
    SchedulerOk g s' (moved lists chNo k k' wayNo) where
  layer := by
    obtain ⟨held, flight, slots⟩ := ok.layer
    exact ⟨held, flight, acts.slotsOk slots⟩
  channel c inRange := by
    have old := ok.channel c inRange
    by_cases same : c = chNo
    · subst same
      have removed := old.wellFormed.remove member
      have free : ∀ k'', wayNo ∉ Function.update (lists c) k ((lists c k).erase wayNo) k'' := by
        intro k'' listed
        by_cases here : k'' = k
        · subst here
          rw [Function.update_self] at listed
          exact (List.Nodup.not_mem_erase (old.wellFormed.nodup k'')) listed
        · rw [Function.update_of_ne here] at listed
          exact here (old.wellFormed.disjoint k'' k wayNo listed member)
      have pushed := removed.pushBack (k := k') (old.real member) free
      have shape : moved lists c k k' wayNo c = Function.update
          (Function.update (lists c) k ((lists c k).erase wayNo)) k'
          (Function.update (lists c) k ((lists c k).erase wayNo) k' ++ [wayNo]) := by
        simp [moved, diff.symm]
      have listed_iff : ∀ k'' w, w ∈ moved lists c k k' wayNo c k'' ↔
          (k'' = k' ∧ w = wayNo) ∨ (w ≠ wayNo ∧ w ∈ lists c k'') := by
        intro k'' w
        by_cases target : k'' = k'
        · subst target
          have out : wayNo ∉ lists c k'' := fun listed =>
            diff (old.wellFormed.disjoint k k'' wayNo member listed)
          simp only [moved_target, List.mem_append, List.mem_singleton, true_and]
          constructor
          · rintro (listed | rfl)
            · exact .inr ⟨fun same => out (same ▸ listed), listed⟩
            · exact .inl rfl
          · exact fun h => h.elim .inr fun h => .inl h.2
        · by_cases source : k'' = k
          · subst source
            rw [moved_source diff, List.Nodup.mem_erase_iff (old.wellFormed.nodup k'')]
            simp [target]
          · have out : w ∈ lists c k'' → w ≠ wayNo := fun listed same =>
              source (old.wellFormed.disjoint k'' k wayNo (same ▸ listed) member)
            rw [moved_other source target]
            simp only [target, false_and, false_or]
            exact ⟨fun listed => ⟨out listed, listed⟩, fun h => h.2⟩
      constructor
      · rw [table, Function.update_self, shape]
        exact pushed
      · intro w
        rw [← old.everyWay w]
        constructor
        · rintro ⟨k'', listed⟩
          rcases (listed_iff k'' w).mp listed with ⟨-, rfl⟩ | ⟨-, before⟩
          · exact ⟨k, member⟩
          · exact ⟨k'', before⟩
        · rintro ⟨k'', listed⟩
          by_cases here : w = wayNo
          · exact ⟨k', (listed_iff k' w).mpr (.inl ⟨rfl, here⟩)⟩
          · exact ⟨k'', (listed_iff k'' w).mpr (.inr ⟨here, listed⟩)⟩
      · intro k'' w listed
        rcases (listed_iff k'' w).mp listed with ⟨rfl, rfl⟩ | ⟨other, before⟩
        · exact allows
        · have away : (c, w) ≠ (c, wayNo) := fun same => other (by simpa using same)
          rw [dies c w away]
          exact (old.allows k'' w before).mono (heads c w away)
    · have away : ∀ w, (c, w) ≠ (chNo, wayNo) := fun w equal => same (by simpa using congrArg Prod.fst equal)
      have here : moved lists chNo k k' wayNo c = lists c := by simp [moved, same]
      refine ⟨?_, ?_, fun k'' w listed => ?_⟩
      · rw [table, Function.update_of_ne same, here]
        exact old.wellFormed
      · rw [here]
        exact old.everyWay
      · rw [here] at listed
        rw [dies c w (away w)]
        exact (old.allows k'' w listed).mono (heads c w (away w))

end SchedulerOk
end OcpFw
