import OcpFw.DmaPolling
import OcpFw.SchedulingTurns

/-! To a pass the request layer is three calls: requests of a die finish, blocked ones are looked
at again, and the phase of a READ changes. What these keep a pass keeps; so the DMA requests
stay in order in every run of the firmware with its scheduler. -/
namespace OcpFw
open Runs (Run loopWhile run_of_loopWhile)

/-- A property of the request layer that is kept by the calls a pass makes. -/
structure PassClosed (g : Geometry) (P : RequestLayer → Prop) : Prop where
  nandDone : ∀ {s s' chNo wayNo}, P s → s.getFromNandReqQ g chNo wayNo = some s' → P s'
  recheck : ∀ {s s' chNo wayNo}, P s → s.queues.links.head (.nand chNo wayNo) = reqSlotTagNone →
    s.releaseBlockedByRowAddrDepReq g chNo wayNo = some s' → P s'
  readPhase : ∀ {s chNo wayNo} (transfer : Bool), P s →
    (s.reqPool (s.queues.links.head (.nand chNo wayNo))).reqCode = .read ∨
      (s.reqPool (s.queues.links.head (.nand chNo wayNo))).reqCode = .readTransfer →
    P (s.setReq (s.queues.links.head (.nand chNo wayNo)) { s.reqPool (s.queues.links.head (.nand chNo wayNo)) with
      reqCode := if transfer then .readTransfer else .read })

namespace Scheduler
variable {g : Geometry} {P : RequestLayer → Prop} {s s' t : Scheduler} {hw : Hardware}
  {chNo wayNo cnt cnt' turns readyBusy : Nat}
  {k k' : WayList} {reqStatus : ReqStatus} {returned : Bool}

theorem releaseBlocked_kept (closed : PassClosed g P) (inv : P s.layer)
    (done : s.releaseBlocked g chNo wayNo = some s') : P s'.layer := by
  unfold releaseBlocked at done
  split at done
  · rename_i empty
    simp only [Option.bind_eq_bind, Option.bind_eq_some_iff, Option.some.injEq] at done
    obtain ⟨layer, ran, rfl⟩ := done
    exact closed.recheck inv empty ran
  · cases done
    exact inv

theorem putToNandWayPriorityTable_layer {x : Nat} (done : s.putToNandWayPriorityTable x chNo wayNo = some s') :
    s'.layer = s.layer := by
  unfold putToNandWayPriorityTable at done
  split at done <;> cases done <;> rfl

theorem finishNandReq_kept (closed : PassClosed g P) (inv : P s.layer)
    (done : s.finishNandReq g chNo wayNo = some s') : P s'.layer := by
  simp only [finishNandReq, Option.bind_eq_bind, Option.bind_eq_some_iff, Option.some.injEq] at done
  obtain ⟨layer, ran, rfl⟩ := done
  exact closed.nandDone (s := (s.setRetryLimit chNo wayNo OcpFw.retryLimit).layer) inv ran

theorem executeNandReq_kept (closed : PassClosed g P) (inv : P s.layer)
    (done : s.executeNandReq g chNo wayNo reqStatus = some s') : P s'.layer := by
  unfold executeNandReq at done
  simp only at done
  split at done
  · simp only [Option.bind_eq_bind, Option.bind_eq_some_iff, Option.some.injEq] at done
    obtain ⟨t, issued, rfl⟩ := done
    unfold issueNandReq at issued
    split at issued <;> cases issued <;> exact inv
  · split at done
    · split at done
      · rename_i read
        cases done
        exact closed.readPhase true inv (.inl read)
      · exact finishNandReq_kept closed inv done
    · split at done
      · rename_i retry
        cases done
        exact closed.readPhase false inv retry.1
      · exact finishNandReq_kept closed inv done
    · exact finishNandReq_kept closed inv done
    · cases done
      exact inv

theorem selectIdleWays_kept (closed : PassClosed g P) (inv : P s.layer)
    (done : selectIdleWays g chNo turns s wayNo cnt = some (s', cnt')) : P s'.layer := by
  induction turns generalizing s wayNo cnt with
  | zero =>
    cases done
    exact inv
  | succ turns ih =>
    unfold selectIdleWays at done
    split at done
    · cases done
      exact inv
    · simp only [Option.bind_eq_bind, Option.bind_eq_some_iff] at done
      obtain ⟨t, released, done⟩ := done
      have inv' := releaseBlocked_kept closed inv released
      split at done
      · simp only [Option.bind_eq_some_iff] at done
        obtain ⟨u, put, done⟩ := done
        refine ih ?_ done
        rw [putToNandWayPriorityTable_layer put]
        exact inv'
      · exact ih inv' done

theorem checkStatusReport_kept {next waits : Nat} (closed : PassClosed g P) (inv : P s.layer)
    (done : s.checkStatusReport g hw chNo readyBusy wayNo = some (s', next, waits)) : P s'.layer := by
  unfold checkStatusReport at done
  split at done
  · cases checked : s.checkReqStatus hw chNo wayNo with
    | mk reqStatus t =>
      obtain ⟨-, sameLayer, -⟩ := checkReqStatus_spec checked
      have inv' : P t.layer := sameLayer ▸ inv
      simp only [checked] at done
      split at done
      · simp only [Option.bind_eq_bind, Option.bind_eq_some_iff] at done
        obtain ⟨u, finished, v, released, done⟩ := done
        have inv'' := executeNandReq_kept closed inv' finished
        have after : P v.layer :=
          releaseBlocked_kept (s := u.selectivGetFromNandStatusReportList chNo wayNo) closed inv'' released
        split at done
        · simp only [Option.bind_eq_some_iff] at done
          obtain ⟨w, put, done⟩ := done
          cases done
          rw [putToNandWayPriorityTable_layer put]
          exact after
        · cases done
          exact after
      · split at done <;> cases done <;> exact inv'
  · cases done
    exact inv

theorem checkStatusReports_kept (closed : PassClosed g P) (inv : P s.layer)
    (done : checkStatusReports g hw chNo readyBusy turns s wayNo cnt = some (s', cnt')) : P s'.layer := by
  induction turns generalizing s wayNo cnt with
  | zero =>
    cases done
    exact inv
  | succ turns ih =>
    rw [checkStatusReports_succ] at done
    split at done
    · cases done
      exact inv
    · rw [Option.bind_eq_some_iff] at done
      obtain ⟨⟨t, next, waits⟩, turn, done⟩ := done
      exact ih (checkStatusReport_kept closed inv turn) done

theorem selectWays_kept (closed : PassClosed g P) (inv : P s.layer) (done : s.selectWays g hw chNo = some (s', cnt)) :
    P s'.layer := by
  simp only [selectWays, Option.bind_eq_bind, Option.bind_eq_some_iff] at done
  obtain ⟨⟨t, cnt'⟩, selected, done⟩ := done
  have inv' := selectIdleWays_kept closed inv selected
  simp only at done
  split at done
  · exact checkStatusReports_kept (s := (t.v2fReadyBusyAsync hw).2) closed inv' done
  · cases done
    exact inv'

/-- The status checks leave the request layer as it is. -/
theorem checkStatuses_layer (done : checkStatuses hw chNo readyBusy turns s wayNo = (returned, s')) :
    s'.layer = s.layer := by
  induction turns generalizing s wayNo with
  | zero =>
    cases done
    rfl
  | succ turns ih =>
    unfold checkStatuses at done
    split at done
    · cases done
      rfl
    · split at done
      · cases checked : s.checkReqStatus hw chNo wayNo with
        | mk reqStatus t =>
          obtain ⟨-, sameLayer, -⟩ := checkReqStatus_spec checked
          simp only [checked] at done
          have layer : (((t.selectiveGetFromNandStatusCheckList chNo wayNo).putToNandStatusReportList chNo
            wayNo).v2fIsControllerBusy hw).2.layer = s.layer := sameLayer
          split at done
          · cases done
            exact layer
          · exact (ih done).trans layer
      · exact ih done

theorem issueWays_kept (closed : PassClosed g P) (inv : P s.layer)
    (done : issueWays g hw chNo (selectiveGetFromList · k) (putToList · k') turns s wayNo = some (returned, s')) :
    P s'.layer := by
  induction turns generalizing s wayNo with
  | zero =>
    cases done
    exact inv
  | succ turns ih =>
    unfold issueWays at done
    split at done
    · cases done
      exact inv
    · simp only [Option.bind_eq_bind, Option.bind_eq_some_iff] at done
      obtain ⟨t, issued, done⟩ := done
      have told := executeNandReq_kept closed inv issued
      have inv' : P (((t.selectiveGetFromList k chNo wayNo).putToList k' chNo wayNo).v2fIsControllerBusy hw).2.layer :=
        told
      split at done
      · cases done
        exact inv'
      · exact ih inv' done

theorem issueInOrder_kept {more : List (WayList × WayList)} (closed : PassClosed g P) (inv : P s.layer)
    (done : issueInOrder g hw chNo more s = some s') : P s'.layer := by
  induction more generalizing s with
  | nil =>
    cases done
    exact inv
  | cons l more ih =>
    simp only [issueInOrder, Option.bind_eq_bind, Option.bind_eq_some_iff, Prod.exists] at done
    obtain ⟨returned, t, issued, done⟩ := done
    have inv' := issueWays_kept closed inv issued
    split at done
    · cases done
      exact inv'
    · exact ih inv' done

theorem issueRequests_kept (closed : PassClosed g P) (inv : P s.layer)
    (done : s.issueRequests g hw chNo = some s') : P s'.layer := by
  rw [issueRequests_eq] at done
  have asked : P (s.v2fIsControllerBusy hw).2.layer := inv
  generalize s.v2fIsControllerBusy hw = answer at asked done
  obtain ⟨busy, s₀⟩ := answer
  simp only at done asked
  split at done
  · cases done
    exact asked
  cases checked : (if s₀.head chNo .statusCheck ≠ wayNone then
      checkStatuses hw chNo (s₀.v2fReadyBusyAsync hw).1 g.userWays (s₀.v2fReadyBusyAsync hw).2
        ((s₀.v2fReadyBusyAsync hw).2.head chNo .statusCheck)
    else (false, s₀)) with
  | mk returned t =>
    have layer : t.layer = s₀.layer := by
      split at checked
      · have same := checkStatuses_layer checked
        exact same
      · cases checked
        rfl
    have inv' : P t.layer := layer ▸ asked
    rw [checked] at done
    simp only at done
    split at done
    · cases done
      exact inv'
    · exact issueInOrder_kept closed inv' done

theorem schedulingNandReq_kept {hw : Nat → Hardware} (closed : PassClosed g P) (inv : P s.layer)
    (done : s.schedulingNandReq g hw = some s') : P s'.layer := by
  refine Runs.foldlM_range (fun _ t => P t.layer) inv ?_ done
  intro chNo channel t t' pass inv
  simp only [schedulingNandReqPerCh, Option.bind_eq_bind, Option.bind_eq_some_iff, Prod.exists] at pass
  obtain ⟨u, waitWayCnt, selected, pass⟩ := pass
  have inv' := selectWays_kept closed inv selected
  split at pass
  · exact issueRequests_kept closed inv' pass
  · cases pass
    exact inv'

end Scheduler

/-! ### The DMA requests of a run -/

section
variable {g : Geometry} {s s' t : Scheduler} {held flight : Finset Nat} {x : Nat}

/-- The queues and the DMA requests stay in order through a pass. -/
theorem polledOk_closed (held flight : Finset Nat) :
    PassClosed g fun layer => PolledOk g ⟨⟨layer, held⟩, flight⟩ where
  nandDone := by
    intro s s' chNo wayNo ok done
    have other : ∀ x, RequestLayer.Event.nandDone chNo wayNo ≠ .nvmeDmaDone x := by simp
    refine @PolledOk.request g _ ok (.event (.nandDone chNo wayNo)) other _ ?_
    simp [requestStep, RequestLayer.event, done]
  recheck := by
    intro s s' chNo wayNo ok empty done
    have other : ∀ x, RequestLayer.Event.recheck chNo wayNo ≠ .nvmeDmaDone x := by simp
    refine @PolledOk.request g _ ok (.event (.recheck chNo wayNo)) other _ ?_
    simp [requestStep, RequestLayer.event, empty, done]
  readPhase := by
    intro s chNo wayNo transfer ok code
    by_cases real : s.queues.links.head (.nand chNo wayNo) ≠ reqSlotTagNone
    · have other : ∀ x, RequestLayer.Event.readPhase chNo wayNo transfer ≠ .nvmeDmaDone x := by simp
      refine @PolledOk.request g _ ok (.event (.readPhase chNo wayNo transfer)) other _ ?_
      simp [requestStep, RequestLayer.event, real, code]
    · rw [not_not] at real
      rw [real]
      obtain ⟨queued, queues, dma⟩ := ok.layer
      have small := slots_lt g
      refine ⟨ok.slots.frame rfl fun y blocked => ?_, ?_, fun y member => ?_, ok.single⟩
      · obtain ⟨q, listed⟩ := queues.listed y (by rw [show s.queues.reqQueueType y = _ from blocked]; simp)
        exact Function.update_of_ne (queues.ne_none listed) ..
      · exact LayerOk.frame dma queues rfl rfl fun y listed => Function.update_of_ne (queues.ne_none listed) ..
      · have slot := ok.slots.inPool y (.inr member)
        have diff : y ≠ reqSlotTagNone := by
          unfold reqSlotTagNone
          omega
        simpa [RequestLayer.setReq, diff] using ok.submittable y member

/-- So they do through a turn whose registers show what was completed. -/
theorem PolledOk.turn {hw : TurnHardware} (ok : PolledOk g ⟨⟨s.layer, held⟩, flight⟩)
    (fits : HeadsFit g s.layer hw.completed) (done : s.schedulingTurn g hw = some s') :
    PolledOk g ⟨⟨s'.layer, held⟩, flight⟩ := by
  simp only [Scheduler.schedulingTurn, Option.bind_eq_bind, Option.bind_eq_some_iff, Prod.exists] at done
  obtain ⟨visits, layer, retired, passes⟩ := done
  have first : PolledOk g ⟨⟨layer, held⟩, flight⟩ := ok.checkDone fits retired
  exact Scheduler.schedulingNandReq_kept (s := s.setLayer layer) (polledOk_closed held flight) first passes

/-- The turns of a wait find registers that show what was completed. -/
def TurnsFit (g : Geometry) (again : Scheduler → Prop) (turns : List TurnHardware) (s : Scheduler) : Prop :=
  ∀ before hw t, before ++ [hw] <+: turns → Run (Scheduler.schedulingTurn g) (fun t _ => again t) s before t → again t →
    HeadsFit g t.layer hw.completed

theorem PolledOk.loop {again : Scheduler → Prop} [DecidablePred again] {turns : List TurnHardware}
    (ok : PolledOk g ⟨⟨s.layer, held⟩, flight⟩) (fit : TurnsFit g again turns s)
    (done : loopWhile again (Scheduler.schedulingTurn g) turns s = some s') : PolledOk g ⟨⟨s'.layer, held⟩, flight⟩ := by
  induction turns generalizing s with
  | nil =>
    rw [loopWhile] at done
    split at done <;> cases done
    exact ok
  | cons hw turns ih =>
    rw [loopWhile] at done
    split at done
    · rename_i more
      obtain ⟨t, turn, done⟩ := Option.bind_eq_some_iff.mp done
      refine ih (ok.turn (fit [] hw s ⟨turns, rfl⟩ .nil more) turn) ?_ done
      rintro before hw' u ⟨rest, shape⟩ run more'
      have first : Run (Scheduler.schedulingTurn g) (fun t _ => again t) s [hw] t := Run.nil.snoc more turn
      exact fit ([hw] ++ before) hw' u ⟨rest, by rw [← shape]; rfl⟩ (first.trans run) more'
    · cases done
      exact ok

/-- The turns an operation takes find registers that show what was completed. -/
def ScheduledOp.Fits (g : Geometry) (s : ScheduledFirmware) : ScheduledOp → Prop
  | .alloc turns => TurnsFit g (fun t => t.layer.queues.links.head .free = reqSlotTagNone) turns s.scheduler
  | .putSlice .. | .getSlice => True
  | .submit x req turns =>
    TurnsFit g (fun t => (t.layer.rowAddrDependency (blockAddr g req.virtualSliceAddr)).blockedEraseReqFlag = true) turns
      (s.scheduler.setLayer (s.scheduler.layer.prepare x req))
  | .syncAll turns => TurnsFit g (fun t => ¬ t.layer.LowLevelReqDone) turns s.scheduler
  | .turn hw => HeadsFit g s.scheduler.layer hw.completed

theorem PolledOk.scheduled {f f' : ScheduledFirmware} {op : ScheduledOp} (ok : PolledOk g ⟨f.firmware, ∅⟩)
    (fits : op.Fits g f) (done : scheduledStep g f op = some f') : PolledOk g ⟨f'.firmware, ∅⟩ := by
  have request : ∀ {o : RequestOp}, (PollInput.request o).Allowed g ⟨f.firmware, ∅⟩ → f.request g o = some f' →
      PolledOk g ⟨f'.firmware, ∅⟩ := by
    intro o allowed done
    simp only [ScheduledFirmware.request, Option.bind_eq_bind, Option.bind_eq_some_iff, Option.some.injEq] at done
    obtain ⟨fw, ran, rfl⟩ := done
    exact ok.request allowed ran
  cases op with
  | putSlice x req => exact request (o := .putSlice x req) rfl done
  | getSlice => exact request (o := .getSlice) rfl done
  | alloc turns =>
    simp only [scheduledStep, Option.bind_eq_bind, Option.bind_eq_some_iff, Option.some.injEq] at done
    obtain ⟨t, waited, rfl⟩ := done
    have ok' : PolledOk g ⟨⟨t.layer, f.held⟩, ∅⟩ := PolledOk.loop ok fits waited
    obtain ⟨taken, -, -, ended⟩ := run_of_loopWhile waited
    refine @PolledOk.request g _ ok' (.alloc []) ⟨rfl, rfl⟩ _ ?_
    simp [requestStep, RequestLayer.syncAvailFreeReq, ended, Scheduler.setLayer, ScheduledFirmware.firmware]
  | submit x req turns =>
    simp only [scheduledStep] at done
    split at done
    · rename_i allowed
      simp only [Option.bind_eq_bind, Option.bind_eq_some_iff, Option.some.injEq, Scheduler.selectLowLevelReqQ] at done
      obtain ⟨u, ⟨t, waited, layer, placed, rfl⟩, rfl⟩ := done
      have prepared : PolledOk g ⟨⟨f.scheduler.layer.prepare x req, f.held.erase x⟩, {x}⟩ :=
        ok.prepare allowed.1 allowed.2 rfl
      have ok' : PolledOk g ⟨⟨t.layer, f.held.erase x⟩, {x}⟩ := by
        unfold Scheduler.waitForErase at waited
        split at waited
        · refine PolledOk.loop (s := f.scheduler.setLayer (f.scheduler.layer.prepare x req)) prepared fits ?_
          simpa [Scheduler.syncReleaseEraseReq, Scheduler.setLayer, RequestLayer.prepare] using waited
        · cases waited
          exact prepared
      have selected := ok'.select (Finset.mem_singleton_self x) placed
      simpa [ScheduledFirmware.firmware, Scheduler.setLayer] using selected
    · cases done
  | syncAll turns =>
    simp only [scheduledStep, Option.bind_eq_bind, Option.bind_eq_some_iff, Option.some.injEq] at done
    obtain ⟨t, waited, rfl⟩ := done
    exact PolledOk.loop ok fits waited
  | turn hw =>
    simp only [scheduledStep, Option.bind_eq_bind, Option.bind_eq_some_iff, Option.some.injEq] at done
    obtain ⟨t, passed, rfl⟩ := done
    exact PolledOk.turn ok fits passed

end

end OcpFw
