import OcpFw.WorkLeft

/-! A pass gets on. Reports are finished, status checks and requests are given to the controller
while it takes them; when a pass changes nothing although the hardware answers, no way of the
channel has a request, and nothing that is blocked passes its check. -/
namespace OcpFw
open RequestLayer (Acts)

variable {g : Geometry} {hw : Hardware} {s s' t : Scheduler} {lists lists' lists₁ : Nat → WayList → List Nat}
  {chNo wayNo cnt turns readyBusy : Nat} {k k' : WayList} {before rest : List Nat}

/-! ### Reports -/

/-- A report that is there belongs to a request that is complete. -/
def Hardware.ReportsComplete (hw : Hardware) : Prop :=
  ∀ reads, v2fRequestReportDone (hw.statusReport reads) = true →
    v2fRequestComplete (v2fEliminateReportDoneFlag (hw.statusReport reads)) = true

/-- Every die is ready, every report is there, and the controller takes what it is given. -/
structure Hardware.Answers (g : Geometry) (hw : Hardware) : Prop where
  free : hw.NeverBusy
  ready : hw.AllReady g
  transferred : ∀ reads, v2fTransferComplete (hw.completeFlag reads) = true
  reported : ∀ reads, v2fRequestReportDone (hw.statusReport reads) = true

namespace Scheduler
variable {I : RequestLayer → Prop} {c w : Nat} {reqStatus : ReqStatus}

theorem checkEccErrorInfo_same {errorInfo : ErrorInfo}
    (checked : s.checkEccErrorInfo hw chNo wayNo = (errorInfo, t)) : s.Same t := by
  simp only [checkEccErrorInfo] at checked
  split at checked
  · split at checked <;> cases checked <;> exact ⟨_, rfl⟩
  · cases checked
    exact ⟨_, rfl⟩

theorem checkReqStatus_retryLimit (checked : s.checkReqStatus hw chNo wayNo = (reqStatus, t)) :
    t.retryLimit = s.retryLimit := by
  unfold checkReqStatus at checked
  cases opt : (s.dieState chNo wayNo).reqStatusCheckOpt <;> simp only [opt] at checked
  case none => split at checked <;> cases checked <;> rfl
  case check =>
    cases checked
    rfl
  case report =>
    split at checked
    · split at checked
      · split at checked <;> cases checked <;> rfl
      · cases checked
        rfl
    · cases checked
      rfl
  case completionFlag =>
    split at checked
    · split at checked
      · cases ecc : checkEccErrorInfo hw (s.readWord hw.completeFlag).2 chNo wayNo with
        | mk errorInfo u =>
          obtain ⟨n, rfl⟩ := checkEccErrorInfo_same ecc
          cases errorInfo <;> simp only [ecc] at checked <;> cases checked <;> rfl
      · cases checked
        rfl
    · cases checked
      rfl

/-- A request is found running only where a word that would tell otherwise is not there yet. -/
theorem checkReqStatus_running (complete : hw.ReportsComplete) (inside : wayNo < g.userWays)
    (opt : (s.dieState chNo wayNo).reqStatusCheckOpt = .report ∨
      (s.dieState chNo wayNo).reqStatusCheckOpt = .completionFlag ∨ (s.dieState chNo wayNo).reqStatusCheckOpt = .none)
    (checked : s.checkReqStatus hw chNo wayNo = (.running, t)) : s.Same t ∧ ¬ hw.Answers g := by
  unfold checkReqStatus at checked
  rcases opt with opt | opt | opt <;> simp only [opt] at checked
  · split at checked
    · rename_i there
      have whole := complete s.reads there
      change v2fRequestComplete (v2fEliminateReportDoneFlag (s.readWord hw.statusReport).1) = true at whole
      rw [if_pos whole] at checked
      split at checked <;> cases checked
    · rename_i missing
      cases checked
      exact ⟨⟨_, rfl⟩, fun answers => missing (answers.reported _)⟩
  · split at checked
    · split at checked
      · cases ecc : checkEccErrorInfo hw (s.readWord hw.completeFlag).2 chNo wayNo with
        | mk errorInfo u => cases errorInfo <;> simp only [ecc] at checked <;> cases checked
      · cases checked
    · rename_i missing
      cases checked
      exact ⟨⟨_, rfl⟩, fun answers => missing (answers.transferred _)⟩
  · split at checked
    · cases checked
    · rename_i missing
      cases checked
      exact ⟨⟨_, rfl⟩, fun answers => missing (answers.ready _ wayNo inside)⟩

theorem setRetryLimit_elsewhere {limit : Nat} (diff : (c, w) ≠ (chNo, wayNo)) :
    (s.setRetryLimit chNo wayNo limit).retryLimit c w = s.retryLimit c w := by
  by_cases channel : c = chNo
  · have other : w ≠ wayNo := fun same => diff (by rw [channel, same])
    simp [setRetryLimit, channel, other]
  · simp [setRetryLimit, channel]

theorem finishNandReq_worksOn (works : LayerWorks g I) (inv : I s.layer) (real : s.headReq chNo wayNo ≠ reqSlotTagNone) :
    ∃ u, s.finishNandReq g chNo wayNo = some u ∧ Acts g s.layer u.layer ∧
      (∀ c w, (c, w) ≠ (chNo, wayNo) → u.retryLimit c w = s.retryLimit c w) ∧
      u.layer.toGo g < s.layer.toGo g ∧ u.retryLimit chNo wayNo = OcpFw.retryLimit := by
  obtain ⟨held, flight, slots⟩ := works.slots inv
  obtain ⟨layer, done, slot, goes⟩ := (works.issuable inv).finishes slots real
  refine ⟨((s.setRetryLimit chNo wayNo OcpFw.retryLimit).setLayer layer).setDieState chNo wayNo .idle, ?_, ?_, ?_, ?_, ?_⟩
  · simp [finishNandReq, setRetryLimit, done]
  · exact .of_event (e := .nandDone chNo wayNo) done
  · intro c w diff
    exact setRetryLimit_elsewhere diff
  · exact goes.toGo_lt slot
  · simp [setDieState, setDie, setLayer, setRetryLimit]

/-- What becomes of a request that is over: it is finished, or it is a READ and starts its
second phase, or is retried. -/
structure EndsPhase (g : Geometry) (s u : Scheduler) (chNo wayNo : Nat) : Prop where
  acts : Acts g s.layer u.layer
  retries : ∀ c w, (c, w) ≠ (chNo, wayNo) → u.retryLimit c w = s.retryLimit c w
  goesOn : u.layer.toGo g < s.layer.toGo g ∧ u.retryLimit chNo wayNo = OcpFw.retryLimit ∨
    u.layer.toGo g = s.layer.toGo g ∧ u.headReq chNo wayNo ≠ reqSlotTagNone ∧
      (∀ c w, (c, w) ≠ (chNo, wayNo) → u.headReqCode c w = s.headReqCode c w) ∧
      ∀ k : WayList, k.toGo ≤ 3 → wayToGo k (u.headReqCode chNo wayNo) (u.retryLimit chNo wayNo) <
        wayToGo .statusReport (s.headReqCode chNo wayNo) (s.retryLimit chNo wayNo)

/-- The first request of a die takes another code. -/
theorem EndsPhase.of_setReqCode (works : LayerWorks g I) (inv : I s.layer) (real : s.headReq chNo wayNo ≠ reqSlotTagNone)
    (transfer : Bool) (code : (s.layer.reqPool (s.headReq chNo wayNo)).reqCode = .read ∨
      (s.layer.reqPool (s.headReq chNo wayNo)).reqCode = .readTransfer)
    (layer : t.layer = s.layer.setReq (s.headReq chNo wayNo) { s.layer.reqPool (s.headReq chNo wayNo) with
      reqCode := if transfer then .readTransfer else .read })
    (retries : ∀ c w, (c, w) ≠ (chNo, wayNo) → t.retryLimit c w = s.retryLimit c w)
    (less : 10 * t.retryLimit chNo wayNo + (if transfer then 3 else 7) < 10 * s.retryLimit chNo wayNo +
      if (s.layer.reqPool (s.headReq chNo wayNo)).reqCode = .read then 5 else 1) : EndsPhase g s t chNo wayNo := by
  obtain ⟨held, flight, slots⟩ := works.slots inv
  obtain ⟨queued, queues⟩ := slots.queued
  obtain ⟨mine, others⟩ := RequestLayer.setReq_headReqCode (if transfer then .readTransfer else .read) queues real
  have head : ∀ c w, t.headReq c w = s.headReq c w := fun c w => by rw [headReq, layer]; rfl
  refine ⟨.of_event (e := .readPhase chNo wayNo transfer) ?_, retries,
    .inr ⟨by rw [layer]; rfl, by rwa [head], fun c w diff => ?_, fun k list => ?_⟩⟩
  · rw [layer]
    exact if_pos ⟨real, code⟩
  · by_cases empty : s.headReqCode c w = none
    · rw [empty, headReqCode_eq_none, head]
      exact headReqCode_eq_none.mp empty
    · rw [headReqCode, layer]
      exact others.heads c w diff empty
  · have code' : t.headReqCode chNo wayNo = some (if transfer then .readTransfer else .read) := by
      rw [headReqCode, layer]
      exact mine
    rw [code', headReqCode_of_real real]
    simp only [wayToGo, Option.elim_some]
    rw [show WayList.statusReport.toGo = 1 from rfl]
    by_cases read : (s.layer.reqPool (s.headReq chNo wayNo)).reqCode = .read <;> cases transfer <;>
      simp only [read, Bool.false_eq_true, reduceCtorEq, ↓reduceIte] at less ⊢ <;> omega

theorem executeNandReq_worksOn (works : LayerWorks g I) (inv : I s.layer) (real : s.headReq chNo wayNo ≠ reqSlotTagNone)
    (exe : (s.dieState chNo wayNo).dieState = .exe) (ended : reqStatus ≠ .running) :
    ∃ u, s.executeNandReq g chNo wayNo reqStatus = some u ∧ EndsPhase g s u chNo wayNo := by
  have finish : ∃ u, s.finishNandReq g chNo wayNo = some u ∧ EndsPhase g s u chNo wayNo := by
    obtain ⟨u, done, acts, retries, less⟩ := finishNandReq_worksOn works inv real
    exact ⟨u, done, acts, retries, .inl less⟩
  simp only [executeNandReq, exe]
  cases reqStatus with
  | running => exact absurd rfl ended
  | warning => exact finish
  | done =>
    simp only
    split
    · rename_i read
      refine ⟨_, rfl, .of_setReqCode works inv real true (.inl read) rfl (fun _ _ _ => rfl) ?_⟩
      simp [setDieState, setDie, setLayer, read]
    · exact finish
  | fail =>
    simp only
    split
    · rename_i retry
      refine ⟨_, rfl, .of_setReqCode works inv real false retry.1 rfl (fun c w diff => setRetryLimit_elsewhere diff) ?_⟩
      have positive := retry.2
      simp only [setDieState, setDie, setLayer, setRetryLimit, Function.update_self, Bool.false_eq_true, ↓reduceIte]
      split <;> omega
    · exact finish

/-- What an ended request leaves to do is less, wherever its way goes. -/
theorem work_lt_of_ended {u v : Scheduler} (channel : chNo < g.userChannels) (ok : SchedulerOk g s lists)
    (ok' : SchedulerOk g s' (moved lists chNo .statusReport k wayNo)) (member : wayNo ∈ lists chNo .statusReport)
    (checked : t.layer = s.layer ∧ t.retryLimit = s.retryLimit) (ends : EndsPhase g t u chNo wayNo)
    (released : (u.selectivGetFromNandStatusReportList chNo wayNo).releaseBlocked g chNo wayNo = some v)
    (same : v = (u.selectivGetFromNandStatusReportList chNo wayNo).setLayer v.layer)
    (less : v.layer.toGo g ≤ u.layer.toGo g) (phases : RequestLayer.KeepsOtherPhases s.layer v.layer chNo wayNo)
    (result : s'.layer = v.layer ∧ s'.retryLimit = v.retryLimit)
    (list : v.headReq chNo wayNo ≠ reqSlotTagNone → k.toGo ≤ 3) :
    s'.work g (moved lists chNo .statusReport k wayNo) < s.work g lists := by
  have retries : s'.retryLimit = u.retryLimit := by rw [result.2, same]; rfl
  have member' : wayNo ∈ moved lists chNo .statusReport k wayNo chNo k := by simp
  have head : ∀ c w, s'.headReqCode c w = v.headReqCode c w := fun c w => by rw [headReqCode, result.1, headReqCode]
  rcases ends.goesOn with ⟨finished, reset⟩ | ⟨toGo, real, others, phase⟩
  · rw [checked.1] at finished
    refine work_lt_of_layer (by rw [result.1]; omega) fun c w => ?_
    by_cases mine : (c, w) = (chNo, wayNo)
    · cases mine
      have bound := wayToGo_le (listOf (moved lists chNo .statusReport k wayNo chNo) wayNo)
        (s'.headReqCode chNo wayNo) (s'.retryLimit chNo wayNo)
      rw [retries, reset] at bound
      unfold wayWork
      rw [retries, reset]
      simp only [OcpFw.retryLimit] at bound
      simp only [OcpFw.retryLimit]
      omega
    · have bound : s'.wayWork (moved lists chNo .statusReport k wayNo) c w ≤ s.wayWork lists c w + 8 := by
        refine wayWork_le (listOf_moved mine) ?_ fun some => ?_
        · rw [retries, ends.retries c w mine, checked.2]
        · rw [head]
          exact phases.heads c w mine some
      omega
  · have stays : v = u.selectivGetFromNandStatusReportList chNo wayNo := by
      rw [releaseBlocked, if_neg (show ¬ (u.selectivGetFromNandStatusReportList chNo wayNo).headReq chNo wayNo = _ from real)]
        at released
      exact (Option.some.inj released).symm
    have short := list (by rw [stays]; exact real)
    have head' : ∀ c w, s'.headReqCode c w = u.headReqCode c w := fun c w => by rw [head, stays]; rfl
    have head'' : ∀ c w, t.headReqCode c w = s.headReqCode c w := fun c w => by rw [headReqCode, checked.1, headReqCode]
    have inside := ((ok.channel chNo channel).everyWay wayNo).mp ⟨_, member⟩
    refine work_lt_of_way ?_ channel inside ?_ fun c w diff => ?_
    · rw [result.1, stays, ← checked.1, ← toGo]
      rfl
    · unfold wayWork
      rw [(ok.channel chNo channel).listOf_eq member, (ok'.channel chNo channel).listOf_eq member', head', retries,
        ← head'', ← checked.2]
      exact phase k short
    · unfold wayWork
      rw [listOf_moved diff, head', others c w diff, head'', retries, ends.retries c w diff, checked.2]

/-- A turn of the second loop finishes what its way has been doing, or the report is not there. -/
theorem checkStatusReport_getsOn (readyBusy : Nat) (works : LayerWorks g I) (complete : hw.ReportsComplete)
    (channel : chNo < g.userChannels) (inv : I s.layer) (ok : SchedulerOk g s lists)
    (shape : lists chNo .statusReport = before ++ wayNo :: rest) :
    ∃ s' waits lists' before', s.checkStatusReport g hw chNo readyBusy wayNo = some (s', rest.headD wayNone, waits) ∧
      lists' chNo .statusReport = before' ++ rest ∧
      GetsOn g s lists s' lists' (hw.Answers g → ¬ v2fWayReady readyBusy wayNo = true) := by
  have member : wayNo ∈ lists chNo .statusReport := by simp [shape]
  have way := ok.channel chNo channel
  have next : s.nextWay chNo wayNo = rest.headD wayNone := way.next shape
  have allows := way.allows .statusReport wayNo member
  have inside := (way.everyWay wayNo).mp ⟨_, member⟩
  have passed : lists chNo .statusReport = (before ++ [wayNo]) ++ rest := by simp [shape]
  unfold checkStatusReport
  by_cases ready : v2fWayReady readyBusy wayNo = true
  swap
  · exact ⟨s, 1, lists, before ++ [wayNo], by simp [ready, next], passed, .same ok fun _ => ready⟩
  obtain ⟨⟨reqStatus, t⟩, checked⟩ : ∃ r, s.checkReqStatus hw chNo wayNo = r := ⟨_, rfl⟩
  obtain ⟨concerns, sameLayer, sameState, -⟩ := checkReqStatus_spec checked
  rw [if_pos ready, checked]
  simp only
  by_cases running : reqStatus = .running
  · subst running
    obtain ⟨⟨n, rfl⟩, silent⟩ := checkReqStatus_running complete inside allows.2.2 checked
    have notCheck : (s.dieState chNo wayNo).reqStatusCheckOpt ≠ .check := by
      rcases allows.2.2 with opt | opt | opt <;> simp [opt]
    refine ⟨{ s with reads := n }, 1, lists, before ++ [wayNo], ?_, passed, ok.read n, .refl _,
      .inr ⟨⟨n, rfl⟩, rfl, fun answers => absurd answers silent⟩⟩
    rw [if_neg (by simp), if_neg notCheck, ← next]
    rfl
  · have real : t.headReq chNo wayNo ≠ reqSlotTagNone := by
      rw [headReq, sameLayer]
      exact way.headReq_real member (by decide)
    have invT : I t.layer := sameLayer ▸ inv
    obtain ⟨u, finished, ends⟩ := executeNandReq_worksOn works invT real (by rw [sameState]; exact allows.1) running
    obtain ⟨v, released, same, -, less⟩ :=
      releaseBlocked_worksOn (s := u.selectivGetFromNandStatusReportList chNo wayNo) works
        (works.acts invT ends.acts) chNo wayNo
    obtain ⟨acts, table, kept, dies, phases, idle⟩ := reportDone_spec channel ok member checked running finished released
    have le : v.layer.toGo g ≤ u.layer.toGo g := by
      rcases less with less | ⟨stays, -⟩
      · exact less.le
      · rw [stays]
        exact le_rfl
    have after : u.nextWay chNo wayNo = rest.headD wayNone := by
      rw [← next]
      simp [nextWay, kept]
    have checked' := And.intro sameLayer (checkReqStatus_retryLimit checked)
    rw [if_pos running, finished]
    simp only [Option.bind_eq_bind, Option.bind_some, released, after]
    by_cases head : v.headReq chNo wayNo ≠ reqSlotTagNone
    · obtain ⟨x, put⟩ : ∃ x, v.putToNandWayPriorityTable (v.headReq chNo wayNo) chNo wayNo = some x :=
        putToNandWayPriorityTable_isSome works (works.acts inv acts) head rfl
      obtain ⟨k, notIdle, notReport, leads⟩ := regroup ok channel member (.inr rfl) acts table dies phases.heads idle head put
      obtain ⟨asked, result, -⟩ := putToNandWayPriorityTable_spec idle head put
      have short : k.toGo ≤ 3 := by cases k <;> simp [WayList.toGo] at notIdle ⊢
      refine ⟨x, 0, _, before, by rw [if_pos head, put]; rfl, ok.moved_split channel shape (Ne.symm notReport),
        leads.1, by rw [result]; exact acts, .inl ?_⟩
      exact work_lt_of_ended channel ok leads.1 member checked' ends released same le phases
        ⟨by rw [result]; rfl, by rw [result]; rfl⟩ fun _ => short
    · have ok' : SchedulerOk g (v.putToNandIdleList chNo wayNo) (moved lists chNo .statusReport .idle wayNo) :=
        ok.move channel member (by decide) acts (putToList_wayPriority table) dies phases.heads idle
      refine ⟨v.putToNandIdleList chNo wayNo, 1, moved lists chNo .statusReport .idle wayNo, before,
        by rw [if_neg head], ok.moved_split channel shape (by simp), ok', acts, .inl ?_⟩
      exact work_lt_of_ended channel ok ok' member checked' ends released same le phases ⟨rfl, rfl⟩
        fun some => absurd some head

/-- The second loop finishes what is reported. -/
theorem checkStatusReports_getsOn (readyBusy cnt : Nat) (works : LayerWorks g I) (complete : hw.ReportsComplete)
    (channel : chNo < g.userChannels) (inv : I s.layer) (ok : SchedulerOk g s lists)
    (shape : lists chNo .statusReport = before ++ rest) (enough : rest.length ≤ turns) :
    ∃ s' cnt' lists', checkStatusReports g hw chNo readyBusy turns s (rest.headD wayNone) cnt = some (s', cnt') ∧
      GetsOn g s lists s' lists' (hw.Answers g → ∀ wayNo ∈ rest, ¬ v2fWayReady readyBusy wayNo = true) := by
  induction turns generalizing s lists before rest cnt with
  | zero =>
    cases List.length_eq_zero_iff.mp (Nat.le_zero.mp enough)
    exact ⟨s, cnt, lists, rfl, .same ok (by simp)⟩
  | succ turns ih =>
    cases rest with
    | nil => exact ⟨s, cnt, lists, by simp [checkStatusReports], .same ok (by simp)⟩
    | cons wayNo rest =>
      have real : wayNo ≠ wayNone := (ok.channel chNo channel).real (k := .statusReport) (by simp [shape])
      obtain ⟨t, waits, lists₁, before₁, turn, shape₁, first⟩ :=
        checkStatusReport_getsOn readyBusy works complete channel inv ok shape
      have short : rest.length ≤ turns := by simpa using enough
      obtain ⟨s', cnt', lists', done, second⟩ := @ih t lists₁ before₁ rest (cnt + waits)
        (works.acts inv first.acts) first.ok shape₁ short
      refine ⟨s', cnt', lists', ?_, (first.trans second).imp fun _ _ nothing answers => ?_⟩
      · rw [List.headD_cons, checkStatusReports_succ, if_neg real, turn, Option.bind_some]
        exact done
      · exact List.forall_mem_cons.mpr ⟨nothing.2.1 answers, nothing.2.2 answers⟩

theorem selectWays_getsOn (works : LayerWorks g I) (complete : hw.ReportsComplete) (channel : chNo < g.userChannels)
    (inv : I s.layer) (ok : SchedulerOk g s lists) :
    ∃ s' cnt' lists', s.selectWays g hw chNo = some (s', cnt') ∧ GetsOn g s lists s' lists'
      ((∀ wayNo ∈ lists chNo .idle, s.headReqCode chNo wayNo = none ∧ NonePasses g s.layer chNo wayNo) ∧
        (hw.Answers g → lists chNo .statusReport = [])) := by
  have way := ok.channel chNo channel
  obtain ⟨t, cnt₁, lists₁, selected, first⟩ := selectIdleWays_getsOn 0 works channel inv ok
    (List.nil_append (lists chNo .idle)).symm (way.length_le .idle)
  have way₁ := first.ok.channel chNo channel
  unfold selectWays
  rw [head, way.wellFormed.head, selected]
  simp only [Option.bind_eq_bind, Option.bind_some]
  by_cases some : t.head chNo .statusReport ≠ wayNone
  · have inv₁ : I (t.readWord hw.readyBusy).2.layer := works.acts inv first.acts
    have read : GetsOn g t lists₁ (t.readWord hw.readyBusy).2 lists₁ True := .read first.ok _ trivial
    obtain ⟨s', cnt', lists', done, second⟩ := checkStatusReports_getsOn (hw.readyBusy t.reads) cnt₁
      works complete channel inv₁ read.ok (List.nil_append (lists₁ chNo .statusReport)).symm
      (way₁.length_le .statusReport)
    refine ⟨s', cnt', lists', ?_, ((first.trans read).trans second).imp ?_⟩
    · rw [if_pos some, ← done, ← way₁.wellFormed.head]
      rfl
    · rintro - - ⟨-, ⟨⟨⟨n, rfl⟩, rfl⟩, passes, -⟩, reports⟩
      refine ⟨passes, fun answers => List.eq_nil_iff_forall_not_mem.mpr fun wayNo listed => ?_⟩
      exact reports answers wayNo listed (answers.ready _ wayNo ((way.everyWay wayNo).mp ⟨_, listed⟩))
  · refine ⟨t, cnt₁, lists₁, by rw [if_neg some], first.imp ?_⟩
    rintro ⟨n, rfl⟩ rfl passes
    exact ⟨passes, fun _ => way₁.head_eq_none.mp (not_not.mp some)⟩

/-! ### Issuing -/

/-- The controller is given something, and asked whether it takes more. -/
theorem GetsOn.of_moved (channel : chNo < g.userChannels) (ok : SchedulerOk g s lists)
    (leads : s.Leads g t (moved lists chNo k k' wayNo)) (member : wayNo ∈ lists chNo k) (layer : t.layer = s.layer)
    (retries : t.retryLimit = s.retryLimit) (busy : k ≠ .idle) (less : k'.toGo < k.toGo) :
    GetsOn g s lists (t.v2fIsControllerBusy hw).2 (moved lists chNo k k' wayNo) False := by
  have real := (ok.channel chNo channel).headReq_real member busy
  have ok' : SchedulerOk g (t.v2fIsControllerBusy hw).2 (moved lists chNo k k' wayNo) := leads.1.read _
  exact ⟨ok', layer ▸ .refl _, .inl (work_lt_of_moved channel ok ok' member layer retries real less)⟩

/-- The status checks take the first way whose die is ready to the report list. -/
theorem checkStatuses_getsOn {returned : Bool} (channel : chNo < g.userChannels) (ok : SchedulerOk g s lists)
    (shape : lists chNo .statusCheck = before ++ rest) (enough : rest.length ≤ turns)
    (done : checkStatuses hw chNo readyBusy turns s (rest.headD wayNone) = (returned, s')) :
    ∃ lists', GetsOn g s lists s' lists' (returned = false ∧ ∀ wayNo ∈ rest, ¬ v2fWayReady readyBusy wayNo = true) := by
  induction turns generalizing before rest with
  | zero =>
    cases List.length_eq_zero_iff.mp (Nat.le_zero.mp enough)
    cases done
    exact ⟨lists, .same ok (by simp)⟩
  | succ turns ih =>
    cases rest with
    | nil =>
      rw [List.headD_nil, checkStatuses_none] at done
      cases done
      exact ⟨lists, .same ok (by simp)⟩
    | cons wayNo rest =>
      have member : wayNo ∈ lists chNo .statusCheck := by simp [shape]
      have way := ok.channel chNo channel
      rw [List.headD_cons, checkStatuses, if_neg (way.real member)] at done
      by_cases ready : v2fWayReady readyBusy wayNo = true
      · obtain ⟨⟨reqStatus, t⟩, checked⟩ : ∃ r, s.checkReqStatus hw chNo wayNo = r := ⟨_, rfl⟩
        obtain ⟨-, sameLayer, -, -⟩ := checkReqStatus_spec checked
        have leads := checkStatus_spec channel ok member checked
        have retries := checkReqStatus_retryLimit checked
        have gets := @GetsOn.of_moved _ hw _ _ _ _ _ _ _ channel ok leads member sameLayer retries (by decide)
          (by decide)
        rw [if_pos ready, checked] at done
        simp only at done
        generalize v2fIsControllerBusy hw
          ((t.selectiveGetFromNandStatusCheckList chNo wayNo).putToNandStatusReportList chNo wayNo) = answer at gets done
        refine ⟨moved lists chNo .statusCheck .statusReport wayNo, ?_⟩
        split at done
        · cases done
          exact gets.imp fun _ _ => False.elim
        · rw [nextWay_moved gets.ok channel, checkStatuses_none] at done
          cases done
          exact gets.imp fun _ _ => False.elim
      · have passed : lists chNo .statusCheck = (before ++ [wayNo]) ++ rest := by simp [shape]
        rw [if_neg ready, way.next shape] at done
        obtain ⟨lists', gets⟩ := ih passed (by simpa using enough) done
        exact ⟨lists', gets.imp fun _ _ others => ⟨others.1, List.forall_mem_cons.mpr ⟨ready, others.2⟩⟩⟩

theorem statusChecks_getsOn (hw : Hardware) (channel : chNo < g.userChannels) (ok : SchedulerOk g s lists) :
    ∃ returned s' lists', (if s.head chNo .statusCheck ≠ wayNone then
        checkStatuses hw chNo (s.v2fReadyBusyAsync hw).1 g.userWays (s.v2fReadyBusyAsync hw).2
          ((s.v2fReadyBusyAsync hw).2.head chNo .statusCheck)
      else (false, s)) = (returned, s') ∧
      GetsOn g s lists s' lists' (returned = false ∧ (hw.Answers g → lists chNo .statusCheck = [])) := by
  have way := ok.channel chNo channel
  by_cases some : s.head chNo .statusCheck ≠ wayNone
  · have read : GetsOn g s lists (s.v2fReadyBusyAsync hw).2 lists True := .read ok _ trivial
    obtain ⟨⟨returned, s'⟩, done⟩ : ∃ r, checkStatuses hw chNo (s.v2fReadyBusyAsync hw).1 g.userWays
      (s.v2fReadyBusyAsync hw).2 ((s.v2fReadyBusyAsync hw).2.head chNo .statusCheck) = r := ⟨_, rfl⟩
    rw [if_pos some, done]
    rw [(read.ok.channel chNo channel).head] at done
    obtain ⟨lists', gets⟩ := checkStatuses_getsOn channel read.ok (List.nil_append (lists chNo .statusCheck)).symm
      (way.length_le .statusCheck) done
    refine ⟨returned, s', lists', rfl, (read.trans gets).imp fun _ _ nothing => ⟨nothing.2.2.1, fun answers => ?_⟩⟩
    refine List.eq_nil_iff_forall_not_mem.mpr fun wayNo listed => ?_
    exact nothing.2.2.2 wayNo listed (answers.ready _ wayNo ((way.everyWay wayNo).mp ⟨_, listed⟩))
  · exact ⟨false, s, lists, if_neg some, .same ok ⟨rfl, fun _ => way.head_eq_none.mp (not_not.mp some)⟩⟩

theorem executeNandReq_retryLimit (idle : (s.dieState chNo wayNo).dieState = .idle)
    (issued : s.executeNandReq g chNo wayNo reqStatus = some t) : t.retryLimit = s.retryLimit := by
  simp only [executeNandReq, idle, Option.bind_eq_bind, Option.bind_eq_some_iff, Option.some.injEq] at issued
  obtain ⟨u, told, rfl⟩ := issued
  unfold issueNandReq at told
  split at told <;> cases told <;> rfl

/-- The way of a list that is issued goes where it has less to do. -/
theorem toGo_issueOrder : ∀ l ∈ issueOrder, l.1 ∈ issueLists ∧ l.2.toGo < l.1.toGo := by decide

/-- A loop of the issuing part starts the request of the first way of its list. -/
theorem issueWays_getsOn (hw : Hardware) (channel : chNo < g.userChannels) (ok : SchedulerOk g s lists)
    (listed : (k, k') ∈ issueOrder) :
    ∃ returned s' lists', issueWays g hw chNo (selectiveGetFromList · k) (putToList · k') g.userWays s (s.head chNo k) =
        some (returned, s') ∧ GetsOn g s lists s' lists' (returned = false ∧ lists chNo k = []) := by
  have way := ok.channel chNo channel
  obtain ⟨issuing, less⟩ := toGo_issueOrder _ listed
  have issues := issues_issueOrder _ listed
  by_cases none : s.head chNo k = wayNone
  · exact ⟨false, s, lists, by rw [none, issueWays_none], .same ok ⟨rfl, way.head_eq_none.mp none⟩⟩
  have member := way.head_mem none
  obtain ⟨turns, positive⟩ : ∃ turns, g.userWays = turns + 1 := ⟨g.userWays - 1, by have := g.ways_pos; omega⟩
  rw [positive, issueWays, if_neg none]
  generalize s.head chNo k = wayNo at none member
  obtain ⟨t, issued⟩ := executeNandReq_issues channel ok issuing member
  have real := way.headReq_real member issues.2.1
  have idle := (issues.2.2 _ _ (headReqCode_of_real real ▸ way.allows k wayNo member)).1
  obtain ⟨-, sameLayer, -⟩ := executeNandReq_idle real idle issued
  have leads := issueWay_spec channel ok issues member issued
  have retries := executeNandReq_retryLimit idle issued
  have gets := @GetsOn.of_moved _ hw _ _ _ _ _ _ _ channel ok leads member sameLayer retries issues.2.1 less
  simp only [issued, Option.bind_eq_bind, Option.bind_some]
  generalize v2fIsControllerBusy hw ((t.selectiveGetFromList k chNo wayNo).putToList k' chNo wayNo) = answer at gets
  by_cases busy : answer.1 = true
  · exact ⟨true, answer.2, _, by rw [if_pos busy], gets.imp fun _ _ => False.elim⟩
  · refine ⟨false, answer.2, _, ?_, gets.imp fun _ _ => False.elim⟩
    rw [if_neg busy, nextWay_moved gets.ok channel, issueWays_none]

theorem issueInOrder_getsOn {more : List (WayList × WayList)} (hw : Hardware) (channel : chNo < g.userChannels)
    (ok : SchedulerOk g s lists) (listed : more ⊆ issueOrder) :
    ∃ s' lists', issueInOrder g hw chNo more s = some s' ∧
      GetsOn g s lists s' lists' (∀ l ∈ more, lists chNo l.1 = []) := by
  induction more generalizing s lists with
  | nil => exact ⟨s, lists, rfl, .same ok (by simp)⟩
  | cons l more ih =>
    obtain ⟨here, listed⟩ := List.cons_subset.mp listed
    obtain ⟨returned, t, lists₁, issued, first⟩ := issueWays_getsOn hw channel ok here
    obtain ⟨s', lists', done, second⟩ := ih first.ok listed
    rw [issueInOrder, issued]
    cases returned with
    | true => exact ⟨t, lists₁, rfl, first.imp fun _ _ nothing => by cases nothing.1⟩
    | false =>
      refine ⟨s', lists', done, (first.trans second).imp ?_⟩
      rintro - - ⟨⟨-, rfl⟩, ⟨-, empty⟩, others⟩
      exact List.forall_mem_cons.mpr ⟨empty, others⟩

/-- The issuing part. -/
theorem issueRequests_getsOn (hw : Hardware) (channel : chNo < g.userChannels) (ok : SchedulerOk g s lists) :
    ∃ s' lists', s.issueRequests g hw chNo = some s' ∧ GetsOn g s lists s' lists'
      (hw.Answers g → ∀ k, k ≠ .idle → k ≠ .statusReport → lists chNo k = []) := by
  have read : GetsOn g s lists (s.v2fIsControllerBusy hw).2 lists True := .read ok hw.queueNotFull trivial
  have busy : hw.Answers g → (s.v2fIsControllerBusy hw).1 = false := fun answers => by rw [answers.free.takes]
  rw [issueRequests_eq]
  generalize s.v2fIsControllerBusy hw = answer at read busy
  obtain ⟨taken, s₀⟩ := answer
  simp only at read busy ⊢
  cases taken with
  | true => exact ⟨s₀, lists, rfl, read.imp fun _ _ _ answers => by cases busy answers⟩
  | false =>
    obtain ⟨returned, t, lists₁, checked, first⟩ := statusChecks_getsOn hw channel read.ok
    obtain ⟨s', lists', done, second⟩ := issueInOrder_getsOn hw channel first.ok (List.Subset.refl issueOrder)
    simp only [Bool.false_eq_true, ↓reduceIte, checked]
    cases returned with
    | true => exact ⟨t, lists₁, rfl, (read.trans first).imp fun _ _ nothing => by cases nothing.2.2.1⟩
    | false =>
      refine ⟨s', lists', done, ((read.trans first).trans second).imp ?_⟩
      rintro - - ⟨⟨-, rfl⟩, ⟨-, -, -, checks⟩, others⟩ answers k notIdle notReport
      simp only [issueOrder, List.forall_mem_cons] at others
      cases k with
      | idle => exact absurd rfl notIdle
      | statusReport => exact absurd rfl notReport
      | statusCheck => exact checks answers
      | readTrigger => exact others.1
      | erase => exact others.2.1
      | write => exact others.2.2.1
      | readTransfer => exact others.2.2.2.1

/-- A pass over a channel. When nothing gets on although the hardware answers, no way of the
channel has a request, and none is blocked that could go. -/
theorem schedulingNandReqPerCh_getsOn (works : LayerWorks g I) (complete : hw.ReportsComplete)
    (channel : chNo < g.userChannels) (inv : I s.layer) (ok : SchedulerOk g s lists) :
    ∃ s' lists', s.schedulingNandReqPerCh g hw chNo = some s' ∧ GetsOn g s lists s' lists'
      (hw.Answers g → ∀ wayNo < g.userWays, s.headReqCode chNo wayNo = none ∧ NonePasses g s.layer chNo wayNo) := by
  obtain ⟨t, cnt, lists₁, selected, first⟩ := selectWays_getsOn works complete channel inv ok
  have way := ok.channel chNo channel
  have idle : (∀ k, k ≠ .idle → k ≠ .statusReport → lists chNo k = []) → lists chNo .statusReport = [] →
      ∀ wayNo < g.userWays, wayNo ∈ lists chNo .idle := by
    intro others reports wayNo inside
    obtain ⟨k, member⟩ := (way.everyWay wayNo).mpr inside
    by_cases notIdle : k = .idle
    · exact notIdle ▸ member
    · by_cases notReport : k = .statusReport
      · rw [notReport, reports] at member
        cases member
      · rw [others k notIdle notReport] at member
        cases member
  rw [schedulingNandReqPerCh, selected]
  simp only [Option.bind_eq_bind, Option.bind_some]
  by_cases gate : cnt ≠ g.userWays
  · obtain ⟨s', lists', done, second⟩ := issueRequests_getsOn hw channel first.ok
    refine ⟨s', lists', by rw [if_pos gate, done], (first.trans second).imp ?_⟩
    rintro - - ⟨⟨-, rfl⟩, ⟨passes, reports⟩, others⟩ answers wayNo inside
    exact passes wayNo (idle (others answers) (reports answers) wayNo inside)
  · refine ⟨t, lists₁, by rw [if_neg gate], first.imp ?_⟩
    rintro ⟨n, rfl⟩ rfl ⟨passes, reports⟩ answers wayNo inside
    rw [not_not] at gate
    refine passes wayNo (idle (fun k notIdle notReport => ?_) (reports answers) wayNo inside)
    exact (first.ok.channel chNo channel).head_eq_none.mp (selectWays_gate channel ok (gate ▸ selected) notIdle notReport)

end Scheduler
end OcpFw
