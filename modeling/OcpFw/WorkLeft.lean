import OcpFw.Draining
import OcpFw.SchedulerProgress

/-! How far the scheduler has to go. With one request a way goes from list to list, with a READ
twice, and again after every failure that is retried. A report that is there belongs to a
request that is complete; then no part of a pass goes back, and as long as the hardware
answers, no part stands still while there is something to do. -/
namespace OcpFw
open RequestLayer (KeepsHeads Acts events GoesOn)

variable {g : Geometry} {hw : Hardware} {s s' t : Scheduler} {lists lists' lists₁ : Nat → WayList → List Nat}
  {chNo wayNo cnt turns readyBusy : Nat} {k k' : WayList} {before rest : List Nat}

/-! ### A measure -/

/-- How many lists a way still goes through with one request. -/
def WayList.toGo : WayList → Nat
  | .idle => 4
  | .readTrigger | .write | .readTransfer | .erase => 3
  | .statusCheck => 2
  | .statusReport => 1

/-- The list of a way. -/
def listOf (lists : WayList → List Nat) (wayNo : Nat) : WayList :=
  ([.idle, .statusReport, .statusCheck, .readTrigger, .erase, .write, .readTransfer].find? fun k =>
    decide (wayNo ∈ lists k)).getD .idle

theorem WayLists.listOf_eq {lists : WayList → List Nat} (ok : WayLists g s chNo lists) (member : wayNo ∈ lists k) :
    listOf lists wayNo = k := by
  unfold listOf
  cases found : [WayList.idle, .statusReport, .statusCheck, .readTrigger, .erase, .write, .readTransfer].find? fun k =>
      decide (wayNo ∈ lists k) with
  | none =>
    have out := List.find?_eq_none.mp found k (by cases k <;> simp)
    simp [member] at out
  | some k' =>
    have member' : wayNo ∈ lists k' := by simpa using List.find?_some found
    exact ok.wellFormed.disjoint k' k wayNo member' member

/-- What is left of the requests of a way, as far as its first one is concerned: the retries it
may still use, each with a way back to the first list, and the lists to go through. A READ
goes through them twice. -/
def wayToGo (k : WayList) (head : Option ReqCode) (retries : Nat) : Nat :=
  10 * retries + head.elim 0 fun code => k.toGo + if code = .read then 4 else 0

namespace Scheduler

def wayWork (s : Scheduler) (lists : Nat → WayList → List Nat) (chNo wayNo : Nat) : Nat :=
  wayToGo (listOf (lists chNo) wayNo) (s.headReqCode chNo wayNo) (s.retryLimit chNo wayNo)

/-- An event of the request layer counts for more than what it can add to all ways. -/
def work (g : Geometry) (s : Scheduler) (lists : Nat → WayList → List Nat) : Nat :=
  (66 * (g.userChannels * g.userWays) + 1) * s.layer.toGo g +
    ∑ chNo ∈ Finset.range g.userChannels, ∑ wayNo ∈ Finset.range g.userWays, s.wayWork lists chNo wayNo

theorem work_lt_of_layer (less : s'.layer.toGo g < s.layer.toGo g)
    (ways : ∀ chNo wayNo, s'.wayWork lists' chNo wayNo ≤ s.wayWork lists chNo wayNo + 66) :
    s'.work g lists' < s.work g lists := by
  have total : ∑ chNo ∈ Finset.range g.userChannels, ∑ wayNo ∈ Finset.range g.userWays, s'.wayWork lists' chNo wayNo ≤
      (∑ chNo ∈ Finset.range g.userChannels, ∑ wayNo ∈ Finset.range g.userWays, s.wayWork lists chNo wayNo) +
        66 * (g.userChannels * g.userWays) := by
    calc _ ≤ ∑ chNo ∈ Finset.range g.userChannels, ∑ wayNo ∈ Finset.range g.userWays,
            (s.wayWork lists chNo wayNo + 66) :=
          Finset.sum_le_sum fun chNo _ => Finset.sum_le_sum fun wayNo _ => ways chNo wayNo
      _ = _ := by
          simp only [Finset.sum_add_distrib, Finset.sum_const, Finset.card_range, smul_eq_mul]
          rw [← Nat.mul_assoc, Nat.mul_comm 66]
  unfold work
  generalize 66 * (g.userChannels * g.userWays) = most at *
  have step : (most + 1) * s'.layer.toGo g + (most + 1) ≤ (most + 1) * s.layer.toGo g := by
    rw [← Nat.mul_succ]
    exact Nat.mul_le_mul_left _ less
  omega

theorem work_lt_of_way (layer : s'.layer.toGo g ≤ s.layer.toGo g) (channel : chNo < g.userChannels)
    (inside : wayNo < g.userWays) (less : s'.wayWork lists' chNo wayNo < s.wayWork lists chNo wayNo)
    (others : ∀ c w, (c, w) ≠ (chNo, wayNo) → s'.wayWork lists' c w ≤ s.wayWork lists c w) :
    s'.work g lists' < s.work g lists := by
  have le : ∀ c w, s'.wayWork lists' c w ≤ s.wayWork lists c w := by
    intro c w
    by_cases same : (c, w) = (chNo, wayNo)
    · cases same
      exact less.le
    · exact others c w same
  have ways : ∑ c ∈ Finset.range g.userChannels, ∑ w ∈ Finset.range g.userWays, s'.wayWork lists' c w <
      ∑ c ∈ Finset.range g.userChannels, ∑ w ∈ Finset.range g.userWays, s.wayWork lists c w := by
    refine Finset.sum_lt_sum (fun c _ => Finset.sum_le_sum fun w _ => le c w)
      ⟨chNo, Finset.mem_range.mpr channel, ?_⟩
    exact Finset.sum_lt_sum (fun w _ => le chNo w) ⟨wayNo, Finset.mem_range.mpr inside, less⟩
  unfold work
  have layer := Nat.mul_le_mul_left (66 * (g.userChannels * g.userWays) + 1) layer
  omega

end Scheduler

/-! ### The request layer -/

/-- A property of the request layer under which no assertion fails, kept by everything that
happens while the firmware waits. -/
structure LayerWorks (g : Geometry) (I : RequestLayer → Prop) : Prop where
  event : ∀ {s s' e}, I s → s.event g e = some s' → I s'
  slots : ∀ {s}, I s → ∃ held flight, SlotsOk g s held flight
  issuable : ∀ {s}, I s → HeldIssuable s
  checkable : ∀ {s}, I s → ∀ x, s.reqQueueType x = .blockedByRowAddrDep → Checkable (s.reqPool x)
  nandCode : ∀ {s}, I s → ∀ x, s.reqQueueType x = .nand → (s.reqPool x).reqCode ∈
    [ReqCode.read, .readTransfer, .write, .erase, .reset, .setFeature]

theorem LayerWorks.acts {I : RequestLayer → Prop} {s s' : RequestLayer} (works : LayerWorks g I) (inv : I s)
    (acts : Acts g s s') : I s' := by
  obtain ⟨es, ran⟩ := acts
  induction es generalizing s with
  | nil =>
    cases ran
    exact inv
  | cons e es ih =>
    simp only [events, List.foldlM_cons, Option.bind_eq_bind, Option.bind_eq_some_iff] at ran
    obtain ⟨t, first, ran⟩ := ran
    exact ih (works.event inv first) ran

/-- Nothing that is blocked for a die passes its check. -/
def NonePasses (g : Geometry) (s : RequestLayer) (chNo wayNo : Nat) : Prop :=
  ∀ queued, QueuesOk g s.queues queued → ∀ x ∈ queued (.blockedByRowAddrDep chNo wayNo), ¬ s.Permitted g x

namespace RequestLayer
variable {s s' t : RequestLayer} {queued : ReqQueue → List Nat} {I : RequestLayer → Prop} {before rest : List Nat}

/-- The scan leaves everything as it is when nothing passes. -/
theorem scan_stays (queues : QueuesOk g s.queues queued)
    (shape : queued (.blockedByRowAddrDep chNo wayNo) = before ++ rest)
    (checkable : ∀ x ∈ rest, Checkable (s.reqPool x)) (none : ∀ x ∈ rest, ¬ s.Permitted g x) :
    scanBlockedByRowAddrDep g chNo wayNo turns s (rest.headD reqSlotTagNone) = some s := by
  induction turns generalizing before rest with
  | zero => rfl
  | succ turns ih =>
    cases rest with
    | nil => simp [scanBlockedByRowAddrDep]
    | cons y rest =>
      have real : y ≠ reqSlotTagNone := queues.ne_none (by rw [shape]; simp)
      have next : s.queues.links.next y = rest.headD reqSlotTagNone := (queues.holds.links shape).2
      have check := checkable y (List.mem_cons_self ..)
      obtain ⟨pass, u, checked⟩ := @checkRowAddrDep_isSome g s y false check
      obtain ⟨t, turn⟩ : ∃ t, s.recheckRowAddrDep g y chNo wayNo = some t := by
        unfold recheckRowAddrDep
        rw [if_pos check.1, show CheckRowAddrDepOpt.release = settled false from rfl, checked]
        cases pass <;> exact ⟨_, rfl⟩
      obtain ⟨-, ⟨passes, -⟩ | ⟨-, rfl⟩⟩ := recheckRowAddrDep_cases turn
      · exact absurd passes (none y (List.mem_cons_self ..))
      · have shape' : queued (.blockedByRowAddrDep chNo wayNo) = (before ++ [y]) ++ rest := by simp [shape]
        rw [List.headD_cons, scanBlockedByRowAddrDep, if_neg real, turn, next, Option.bind_eq_bind, Option.bind_some]
        exact ih shape' (fun x listed => checkable x (List.mem_cons_of_mem _ listed))
          fun x listed => none x (List.mem_cons_of_mem _ listed)

/-- A die is looked at again: some request moves on, or none passes and nothing changes. -/
theorem recheck_worksOn (works : LayerWorks g I) (inv : I s) (chNo wayNo : Nat) :
    ∃ s', s.releaseBlockedByRowAddrDepReq g chNo wayNo = some s' ∧
      ((∃ x < availableOutstandingReqCount g, GoesOn s s' x) ∨ s' = s ∧ NonePasses g s chNo wayNo) := by
  obtain ⟨held, flight, slots⟩ := works.slots inv
  obtain ⟨queued, queues⟩ := slots.queued
  have checkable : ∀ x ∈ queued (.blockedByRowAddrDep chNo wayNo), Checkable (s.reqPool x) :=
    fun x listed => works.checkable inv x (queues.typed _ x listed)
  by_cases passes : ∃ x ∈ queued (.blockedByRowAddrDep chNo wayNo), s.Permitted g x
  · obtain ⟨s', x, done, listed, goes⟩ := recheck_goesOn queues checkable passes
    exact ⟨s', done, .inl ⟨x, queues.slot _ x listed, goes⟩⟩
  · push Not at passes
    refine ⟨s, ?_, .inr ⟨rfl, fun queued' queues' => ?_⟩⟩
    · unfold releaseBlockedByRowAddrDepReq
      rw [queues.holds.head]
      exact scan_stays queues (List.nil_append _).symm checkable passes
    · cases queues.holds.unique queues'.holds
      exact passes

end RequestLayer

/-! ### What a part of a pass does -/

/-- Nothing but the count of the words read changes. -/
def Scheduler.Same (s s' : Scheduler) : Prop := ∃ n, s' = { s with reads := n }

/-- A part of a pass gets on with the work, or it leaves everything as it is, and then there
is nothing for it to do. -/
structure GetsOn (g : Geometry) (s : Scheduler) (lists : Nat → WayList → List Nat) (s' : Scheduler)
    (lists' : Nat → WayList → List Nat) (idle : Prop) : Prop where
  ok : SchedulerOk g s' lists'
  acts : Acts g s.layer s'.layer
  less : s'.work g lists' < s.work g lists ∨ s.Same s' ∧ lists' = lists ∧ idle

namespace GetsOn
variable {idle idle' : Prop}

theorem same (ok : SchedulerOk g s lists) (nothing : idle) : GetsOn g s lists s lists idle :=
  ⟨ok, .refl _, .inr ⟨⟨s.reads, rfl⟩, rfl, nothing⟩⟩

theorem read (ok : SchedulerOk g s lists) (word : Nat → Nat) (nothing : idle) :
    GetsOn g s lists (s.readWord word).2 lists idle :=
  ⟨ok.read _, .refl _, .inr ⟨⟨_, rfl⟩, rfl, nothing⟩⟩

theorem imp (gets : GetsOn g s lists s' lists' idle) (weaker : s.Same s' → lists' = lists → idle → idle') :
    GetsOn g s lists s' lists' idle' :=
  ⟨gets.ok, gets.acts, gets.less.imp_right fun ⟨same, sameLists, nothing⟩ =>
    ⟨same, sameLists, weaker same sameLists nothing⟩⟩

/-- Two parts get on when one of them does. -/
theorem trans (first : GetsOn g s lists t lists₁ idle) (second : GetsOn g t lists₁ s' lists' idle') :
    GetsOn g s lists s' lists' ((s.Same t ∧ lists₁ = lists) ∧ idle ∧ idle') := by
  refine ⟨second.ok, first.acts.trans second.acts, ?_⟩
  rcases first.less with less | ⟨⟨n, rfl⟩, rfl, nothing⟩
  · refine .inl ?_
    rcases second.less with less' | ⟨⟨m, rfl⟩, rfl, -⟩
    · exact less'.trans less
    · exact less
  · rcases second.less with less' | ⟨⟨m, rfl⟩, rfl, nothing'⟩
    · exact .inl less'
    · exact .inr ⟨⟨m, rfl⟩, rfl, ⟨⟨n, rfl⟩, rfl⟩, nothing, nothing'⟩

end GetsOn

/-! ### One way -/

theorem wayToGo_le (k : WayList) (head : Option ReqCode) (retries : Nat) : wayToGo k head retries ≤ 10 * retries + 8 := by
  have lists : k.toGo ≤ 4 := by cases k <;> simp [WayList.toGo]
  unfold wayToGo
  cases head with
  | none => simp
  | some code =>
    simp only [Option.elim_some]
    split <;> omega

/-- The other ways stay in their lists. -/
theorem listOf_moved {c w : Nat} (diff : (c, w) ≠ (chNo, wayNo)) :
    listOf (moved lists chNo k k' wayNo c) w = listOf (lists c) w := by
  by_cases channel : c = chNo
  · subst channel
    have other : w ≠ wayNo := fun same => diff (by rw [same])
    have listed : ∀ k'', w ∈ moved lists c k k' wayNo c k'' ↔ w ∈ lists c k'' := by
      intro k''
      by_cases target : k'' = k'
      · subst target
        simp [other]
      · by_cases source : k'' = k
        · subst source
          rw [moved_source target]
          exact List.mem_erase_of_ne other
        · rw [moved_other source target]
    simp only [listOf, listed]
  · simp [moved, Function.update_of_ne channel]

namespace Scheduler
variable {I : RequestLayer → Prop} {c w : Nat}

/-- A way that has a request keeps it; another one may get one. -/
theorem wayWork_le (list : listOf (lists' c) w = listOf (lists c) w) (retries : s'.retryLimit c w = s.retryLimit c w)
    (head : s.headReqCode c w ≠ none → s'.headReqCode c w = s.headReqCode c w) :
    s'.wayWork lists' c w ≤ s.wayWork lists c w + 8 := by
  unfold wayWork
  rw [list, retries]
  by_cases empty : s.headReqCode c w = none
  · have least : wayToGo (listOf (lists c) w) none (s.retryLimit c w) = 10 * s.retryLimit c w := rfl
    rw [empty, least]
    exact wayToGo_le ..
  · rw [head empty]
    omega

/-- A way with nothing to do looks for blocked requests. -/
theorem releaseBlocked_worksOn (works : LayerWorks g I) (inv : I s.layer) (chNo wayNo : Nat) :
    ∃ t, s.releaseBlocked g chNo wayNo = some t ∧ t = s.setLayer t.layer ∧ Acts g s.layer t.layer ∧
      (t.layer.toGo g < s.layer.toGo g ∨
        t = s ∧ (s.headReqCode chNo wayNo = none → NonePasses g s.layer chNo wayNo)) := by
  unfold releaseBlocked
  by_cases empty : s.headReq chNo wayNo = reqSlotTagNone
  · obtain ⟨layer, done, less⟩ := RequestLayer.recheck_worksOn works inv chNo wayNo
    have acts : Acts g s.layer layer := .of_event (e := .recheck chNo wayNo) ((if_pos empty).trans done)
    refine ⟨s.setLayer layer, by simp [empty, done], rfl, acts, less.imp ?_ ?_⟩
    · rintro ⟨x, slot, goes⟩
      exact goes.toGo_lt slot
    · rintro ⟨rfl, passes⟩
      exact ⟨rfl, fun _ => passes⟩
  · refine ⟨s, by simp [empty], rfl, .refl _, .inr ⟨rfl, fun none => absurd (headReqCode_eq_none.mp none) empty⟩⟩

/-- The first request of a die has a code the scheduler knows. -/
theorem putToNandWayPriorityTable_isSome (works : LayerWorks g I) (inv : I s.layer)
    (real : s.headReq chNo wayNo ≠ reqSlotTagNone) (layer : t.layer = s.layer) :
    ∃ u, t.putToNandWayPriorityTable (t.headReq chNo wayNo) chNo wayNo = some u := by
  obtain ⟨held, flight, slots⟩ := works.slots inv
  obtain ⟨queued, queues⟩ := slots.queued
  obtain ⟨xs, shape⟩ := queues.head_cons real
  have type : s.layer.reqQueueType (s.headReq chNo wayNo) = .nand :=
    queues.typed (.nand chNo wayNo) _ (by rw [shape]; exact List.mem_cons_self ..)
  have code := works.nandCode inv _ type
  have head : t.headReq chNo wayNo = s.headReq chNo wayNo := by rw [headReq, layer, headReq]
  rw [head]
  unfold putToNandWayPriorityTable
  rw [layer]
  simp only [List.mem_cons, List.not_mem_nil, or_false] at code
  rcases code with code | code | code | code | code | code <;> rw [code] <;> exact ⟨_, rfl⟩

/-- A way that goes to a list further on has less to do. -/
theorem work_lt_of_moved (channel : chNo < g.userChannels) (ok : SchedulerOk g s lists)
    (ok' : SchedulerOk g s' (moved lists chNo k k' wayNo)) (member : wayNo ∈ lists chNo k)
    (layer : s'.layer = s.layer) (retries : s'.retryLimit = s.retryLimit)
    (real : s.headReq chNo wayNo ≠ reqSlotTagNone) (less : k'.toGo < k.toGo) :
    s'.work g (moved lists chNo k k' wayNo) < s.work g lists := by
  have member' : wayNo ∈ moved lists chNo k k' wayNo chNo k' := by simp
  have inside := ((ok.channel chNo channel).everyWay wayNo).mp ⟨k, member⟩
  have head : ∀ c w, s'.headReqCode c w = s.headReqCode c w := fun c w => by rw [headReqCode, layer, headReqCode]
  refine work_lt_of_way (by rw [layer]) channel inside ?_ fun c w diff => ?_
  · unfold wayWork
    rw [(ok.channel chNo channel).listOf_eq member, (ok'.channel chNo channel).listOf_eq member', head, retries,
      headReqCode_of_real real]
    simp only [wayToGo, Option.elim_some]
    omega
  · unfold wayWork
    rw [listOf_moved diff, head, retries]

/-- The first loop takes every way that has a request to another list, and looks at the others. -/
theorem selectIdleWays_getsOn (cnt : Nat) (works : LayerWorks g I) (channel : chNo < g.userChannels) (inv : I s.layer)
    (ok : SchedulerOk g s lists) (shape : lists chNo .idle = before ++ rest) (enough : rest.length ≤ turns) :
    ∃ s' cnt' lists', selectIdleWays g chNo turns s (rest.headD wayNone) cnt = some (s', cnt') ∧
      GetsOn g s lists s' lists'
        (∀ wayNo ∈ rest, s.headReqCode chNo wayNo = none ∧ NonePasses g s.layer chNo wayNo) := by
  induction turns generalizing s lists before rest cnt with
  | zero =>
    cases List.length_eq_zero_iff.mp (Nat.le_zero.mp enough)
    exact ⟨s, cnt, lists, rfl, .same ok (by simp)⟩
  | succ turns ih =>
    cases rest with
    | nil => exact ⟨s, cnt, lists, by simp [selectIdleWays], .same ok (by simp)⟩
    | cons wayNo rest =>
      have way := ok.channel chNo channel
      have member : wayNo ∈ lists chNo .idle := by simp [shape]
      have next : s.nextWay chNo wayNo = rest.headD wayNone := way.next shape
      obtain ⟨held, flight, slots⟩ := ok.layer
      obtain ⟨t, released, same, acts, less⟩ := releaseBlocked_worksOn works inv chNo wayNo
      obtain ⟨concerns, die, -, phases⟩ := releaseBlocked_spec slots released
      have idle : (t.dieState chNo wayNo).dieState = .idle := by
        rw [die]
        exact way.allows .idle wayNo member
      have ok' : SchedulerOk g t lists :=
        ok.stay channel member acts concerns (fun c w _ => (phases c w).headReqCode) idle
      have first : GetsOn g s lists t lists
          (s.headReqCode chNo wayNo = none → NonePasses g s.layer chNo wayNo) := by
        refine ⟨ok', acts, ?_⟩
        rcases less with less | ⟨stays, passes⟩
        · refine .inl (work_lt_of_layer less fun c w => ?_)
          have retries : t.retryLimit c w = s.retryLimit c w := by rw [same]; rfl
          exact (wayWork_le rfl retries (phases c w).headReqCode).trans (by omega)
        · exact .inr ⟨⟨s.reads, stays⟩, rfl, passes⟩
      have next' : t.nextWay chNo wayNo = rest.headD wayNone := by
        rw [← next]
        simp [nextWay, concerns.wayPriority]
      have short : rest.length ≤ turns := by simpa using enough
      rw [List.headD_cons, selectIdleWays, if_neg (way.real member)]
      simp only [released, Option.bind_eq_bind, Option.bind_some, next']
      by_cases real : t.headReq chNo wayNo ≠ reqSlotTagNone
      · obtain ⟨u, put⟩ : ∃ u, (t.selectivGetFromNandIdleList chNo wayNo).putToNandWayPriorityTable
            (t.headReq chNo wayNo) chNo wayNo = some u :=
          putToNandWayPriorityTable_isSome works (works.acts inv acts) real rfl
        obtain ⟨k', notIdle, -, leads⟩ := regroup ok' channel member (.inl rfl)
          (t := t.selectivGetFromNandIdleList chNo wayNo) (.refl _) rfl (fun _ _ _ => rfl)
          (KeepsHeads.refl _).other idle real put
        obtain ⟨asked, result, -⟩ :=
          putToNandWayPriorityTable_spec (s := t.selectivGetFromNandIdleList chNo wayNo) idle real put
        have layer : u.layer = t.layer := by rw [result]; rfl
        have less : k'.toGo < WayList.idle.toGo := by cases k' <;> simp [WayList.toGo] at notIdle ⊢
        have second : GetsOn g t lists u (moved lists chNo .idle k' wayNo) False :=
          ⟨leads.1, layer ▸ .refl _, .inl (work_lt_of_moved channel ok' leads.1 member layer (by rw [result]; rfl) real less)⟩
        have shape' := ok'.moved_split channel shape (Ne.symm notIdle)
        obtain ⟨s', cnt', lists', done, third⟩ := @ih u _ before rest cnt (works.acts (works.acts inv acts) second.acts)
          leads.1 shape' short
        refine ⟨s', cnt', lists', ?_, ((first.trans second).trans third).imp fun _ _ nothing => nothing.2.1.2.2.elim⟩
        rw [if_pos real, put, Option.bind_some]
        exact done
      · have shape' : lists chNo .idle = (before ++ [wayNo]) ++ rest := by simp [shape]
        obtain ⟨s', cnt', lists', done, second⟩ := @ih t lists (before ++ [wayNo]) rest (cnt + 1)
          (works.acts inv acts) ok' shape' short
        refine ⟨s', cnt', lists', ?_, (first.trans second).imp ?_⟩
        · rw [if_neg real]
          exact done
        · rintro - - ⟨⟨⟨n, rfl⟩, -⟩, passes, others⟩
          have none : s.headReqCode chNo wayNo = none := headReqCode_eq_none.mpr (not_not.mp real)
          exact List.forall_mem_cons.mpr ⟨⟨none, passes none⟩, others⟩

end Scheduler
end OcpFw
