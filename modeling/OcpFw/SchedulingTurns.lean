import OcpFw.CompletionTraces
import OcpFw.DmaRetirement
import OcpFw.SchedulerRuns

/-! The firmware down to its scheduler. Wherever it waits, and in every turn of its main loop,
it retires the finished DMA requests and then passes over the channels. To the request layer
this is a list of events, so the runs of this firmware are runs of `requestStep`. -/
namespace OcpFw
open RequestLayer (Acts Appends Event WaitsForErase events events_closed events_undisturbed
  selectiveGetFromNvmeDmaReqQ_appends selectLowLevelReqQ_appends prepare_appends)
open Runs (Run exec run_of_exec_any loopWhile run_of_loopWhile)

/-- What the hardware shows during one turn: the DMA commands it has completed at each look at
them, and the words of each channel. -/
structure TurnHardware where
  completed : Nat → DmaDirection → Nat
  nand : Nat → Hardware

namespace Scheduler

def schedulingNandReq (g : Geometry) (hw : Nat → Hardware) (s : Scheduler) : Option Scheduler :=
  (List.range g.userChannels).foldlM (fun s chNo => s.schedulingNandReqPerCh g (hw chNo) chNo) s

/-- The body of every wait loop, and the end of a turn of the main loop. -/
def schedulingTurn (g : Geometry) (s : Scheduler) (hw : TurnHardware) : Option Scheduler := do
  let (_, layer) ← s.layer.checkDoneNvmeDmaReq g hw.completed
  (s.setLayer layer).schedulingNandReq g hw.nand

def syncAllLowLevelReqDone (g : Geometry) (turns : List TurnHardware) (s : Scheduler) : Option Scheduler :=
  loopWhile (fun s => ¬ s.layer.LowLevelReqDone) (schedulingTurn g) turns s

def syncAvailFreeReq (g : Geometry) (turns : List TurnHardware) (s : Scheduler) : Option Scheduler :=
  loopWhile (fun s => s.layer.queues.links.head .free = reqSlotTagNone) (schedulingTurn g) turns s

def syncReleaseEraseReq (g : Geometry) (turns : List TurnHardware) (s : Scheduler) (b : BlockAddr) :
    Option Scheduler :=
  loopWhile (fun s => (s.layer.rowAddrDependency b).blockedEraseReqFlag = true) (schedulingTurn g) turns s

/-- The wait of a READ that finds an ERASE of its block waiting. -/
def waitForErase (g : Geometry) (turns : List TurnHardware) (s : Scheduler) (reqSlotTag : Nat) : Option Scheduler :=
  if s.layer.WaitsForErase g reqSlotTag then
    s.syncReleaseEraseReq g turns (blockAddr g (s.layer.reqPool reqSlotTag).virtualSliceAddr)
  else some s

/-- `SelectLowLevelReqQ`, which goes on where `SyncReleaseEraseReq` returned, if it was called,
and then finds no ERASE waiting. -/
def selectLowLevelReqQ (g : Geometry) (turns : List TurnHardware) (s : Scheduler) (reqSlotTag : Nat) :
    Option Scheduler := do
  let s ← s.waitForErase g turns reqSlotTag
  let layer ← s.layer.selectLowLevelReqQ g [] reqSlotTag
  some (s.setLayer layer)

end Scheduler

/-! ### The firmware -/

/-- The scheduler over its request layer, and the slots whose tags the running code holds. -/
structure ScheduledFirmware where
  scheduler : Scheduler
  held : Finset Nat

/-- The operations of `RequestOp`, with the turns their waits take, and a turn of the main loop. -/
inductive ScheduledOp where
  | alloc (turns : List TurnHardware)
  | putSlice (reqSlotTag : Nat) (req : SsdReq)
  | getSlice
  | submit (reqSlotTag : Nat) (req : SsdReq) (turns : List TurnHardware)
  | syncAll (turns : List TurnHardware)
  | turn (hw : TurnHardware)

namespace ScheduledFirmware

/-- What is left without the scheduler. -/
def firmware (s : ScheduledFirmware) : Firmware := ⟨s.scheduler.layer, s.held⟩

/-- An operation in which the scheduler has no part. -/
def request (g : Geometry) (s : ScheduledFirmware) (op : RequestOp) : Option ScheduledFirmware := do
  let fw ← requestStep g s.firmware op
  some ⟨s.scheduler.setLayer fw.layer, fw.held⟩

end ScheduledFirmware

def scheduledStep (g : Geometry) (s : ScheduledFirmware) : ScheduledOp → Option ScheduledFirmware
  | .alloc turns => do
    let scheduler ← s.scheduler.syncAvailFreeReq g turns
    let (reqSlotTag, layer) := scheduler.layer.getFromFreeReqQ
    some ⟨scheduler.setLayer layer, insert reqSlotTag s.held⟩
  | .putSlice reqSlotTag req => s.request g (.putSlice reqSlotTag req)
  | .getSlice => s.request g .getSlice
  | .submit reqSlotTag req turns =>
    if reqSlotTag ∈ s.held ∧ Submittable g req then do
      let prepared := s.scheduler.setLayer (s.scheduler.layer.prepare reqSlotTag req)
      let scheduler ← prepared.selectLowLevelReqQ g turns reqSlotTag
      some ⟨scheduler, s.held.erase reqSlotTag⟩
    else none
  | .syncAll turns => do
    let scheduler ← s.scheduler.syncAllLowLevelReqDone g turns
    some ⟨scheduler, s.held⟩
  | .turn hw => do
    let scheduler ← s.scheduler.schedulingTurn g hw
    some ⟨scheduler, s.held⟩

def initScheduledFirmware (g : Geometry) : ScheduledFirmware := ⟨initReqScheduler g, ∅⟩

def ScheduledOp.submits : ScheduledOp → List SsdReq
  | .submit _ req _ => [req]
  | _ => []

variable {g : Geometry} {s s' t : Scheduler} {held flight : Finset Nat} {x : Nat} {turns : List TurnHardware}

/-! ### A turn is a list of events -/

namespace RequestLayer
variable {s s' : RequestLayer} {queued : ReqQueue → List Nat} {later r : List Nat} {turns turn : Nat}
  {completed : Nat → DmaDirection → Nat} {done : DmaDirection → Bool} {visits : List DmaVisit} {visit : DmaVisit}

theorem checkDoneTurn_acts {now : DmaDirection → Nat} (ok : SlotsOk g s held flight)
    (dma : s.reqQueueType x = .nvmeDma) (ran : s.checkDoneTurn g now done x = some (visit, s')) :
    Acts g s s' ∧ Appends g s s' := by
  unfold checkDoneTurn at ran
  simp only at ran
  split at ran
  · simp only [Option.bind_eq_bind, Option.bind_eq_some_iff, Option.some.injEq, Prod.mk.injEq] at ran
    obtain ⟨t, freed, -, rfl⟩ := ran
    refine ⟨.of_event (e := .nvmeDmaDone x) ?_, selectiveGetFromNvmeDmaReqQ_appends ok dma freed⟩
    rw [event, if_pos dma]
    exact freed
  · cases ran
    obtain ⟨queued, queues⟩ := ok.queued
    exact ⟨.refl _, .refl queues⟩

/-- The scan frees requests one after the other, whatever the flags and the register say. -/
theorem scanNvmeDmaReqQ_acts (ok : SlotsOk g s held flight) (queues : QueuesOk g s.queues queued)
    (shape : queued .nvmeDma = r.reverse ++ later)
    (ran : scanNvmeDmaReqQ g completed turns turn done s (r.headD reqSlotTagNone) = some (visits, s')) :
    Acts g s s' ∧ Appends g s s' := by
  have here : Acts g s s ∧ Appends g s s := ⟨.refl _, .refl queues⟩
  induction r generalizing s queued later turns turn done visits with
  | nil =>
    have stays : visits = [] ∧ s' = s := by
      cases turns <;> simpa [scanNvmeDmaReqQ, eq_comm] using ran
    exact stays.2 ▸ here
  | cons y r ih =>
    cases turns with
    | zero =>
      simp only [scanNvmeDmaReqQ, Option.some.injEq, Prod.mk.injEq] at ran
      exact ran.2 ▸ here
    | succ turns =>
      have split : queued .nvmeDma = r.reverse ++ y :: later := by simp [shape]
      have member : y ∈ queued .nvmeDma := by simp [split]
      have prev : s.queues.links.prev y = r.headD reqSlotTagNone := by
        rw [(queues.holds.links split).1]
        cases r <;> simp
      rw [List.headD_cons, scanNvmeDmaReqQ, if_neg (queues.ne_none member), prev] at ran
      simp only [Option.bind_eq_bind, Option.bind_eq_some_iff, Option.some.injEq, Prod.mk.injEq, Prod.exists] at ran
      obtain ⟨visit, t, first, rest, t', others, -, rfl⟩ := ran
      obtain ⟨-, ok', queued', appended, leaves⟩ := checkDoneTurn_spec ok queues split first
      obtain ⟨acts, appends⟩ := checkDoneTurn_acts ok (queues.mem_nvmeDma.mp member) first
      obtain ⟨acts', appends'⟩ := ih ok' leaves.queues leaves.nvmeDma others ⟨.refl _, .refl leaves.queues⟩
      exact ⟨acts.trans acts', appends.trans appends'⟩

theorem checkDoneNvmeDmaReq_acts (ok : SlotsOk g s held flight)
    (ran : s.checkDoneNvmeDmaReq g completed = some (visits, s')) : Acts g s s' ∧ Appends g s s' := by
  obtain ⟨queued, queues⟩ := ok.queued
  have tail : s.queues.links.tail .nvmeDma = (queued .nvmeDma).reverse.headD reqSlotTagNone := by
    rw [queues.holds.tail]
    cases shape : queued .nvmeDma using List.reverseRecOn <;> simp
  unfold checkDoneNvmeDmaReq at ran
  rw [tail] at ran
  exact scanNvmeDmaReqQ_acts ok queues (show queued .nvmeDma = (queued .nvmeDma).reverse.reverse ++ [] by simp) ran

end RequestLayer

namespace RequestLayer
variable {s s' t : RequestLayer} {es : List Event}

/-- A submission that finds no ERASE of its block waiting any more is the end of one that waited. -/
theorem selectLowLevelReqQ_of_wait (waits : s.WaitsForErase g x) (ran : s.events g es = some t)
    (clear : (t.rowAddrDependency (blockAddr g (s.reqPool x).virtualSliceAddr)).blockedEraseReqFlag = false)
    (same : t.reqPool x = s.reqPool x) (kept : s.CheckBufDep x → t.CheckBufDep x)
    (done : t.selectLowLevelReqQ g [] x = some s') : s.selectLowLevelReqQ g es x = some s' := by
  obtain ⟨type, ⟨check, addr, -⟩, code, flag⟩ := waits
  rw [dependency] at flag
  have waited : s.syncReleaseEraseReq g es (blockAddr g (s.reqPool x).virtualSliceAddr) = some t := by
    simp [syncReleaseEraseReq, flag, ran, clear]
  unfold selectLowLevelReqQ at done ⊢
  by_cases free : s.CheckBufDep x
  · rw [if_pos (kept free)] at done
    rw [if_pos free]
    simpa [same, type, dispatchNandReq, check, checkRowAddrDep, addr, code, flag, clear, waited, nandDie] using done
  · rw [if_neg free]
    simp only [type, check, and_self, ↓reduceIte, updateRowAddrDepTableForBufBlockedReq, addr, code, flag, waited,
      Option.bind_eq_bind, Option.bind_some]
    by_cases now : t.CheckBufDep x
    · rw [if_pos now] at done ⊢
      simp only [same, type, dispatchNandReq, check, ↓reduceIte, checkRowAddrDep, addr, code, clear, nandDie,
        Bool.false_eq_true, Option.bind_eq_bind, Option.bind_some] at done
      split at done
      · rename_i page
        simpa [page] using done
      · rename_i page
        simpa [page, clear] using done
    · rw [if_neg now] at done ⊢
      simpa [same, type, check, updateRowAddrDepTableForBufBlockedReq, addr, code, clear] using done

end RequestLayer

namespace Scheduler

/-- The way lists are in order, and what happened to the request layer are events. -/
def Progresses (g : Geometry) (s s' : Scheduler) : Prop := ∃ lists, s.Leads g s' lists

theorem Progresses.refl {lists : Nat → WayList → List Nat} (ok : SchedulerOk g s lists) : s.Progresses g s :=
  ⟨lists, ok, .refl _⟩

theorem Progresses.trans (first : s.Progresses g t) (second : t.Progresses g s') : s.Progresses g s' := by
  obtain ⟨lists, -, acts⟩ := first
  obtain ⟨lists', leads⟩ := second
  exact ⟨lists', .trans acts leads⟩

theorem schedulingNandReq_progresses {hw : Nat → Hardware} {lists : Nat → WayList → List Nat}
    (ok : SchedulerOk g s lists) (done : s.schedulingNandReq g hw = some s') : s.Progresses g s' := by
  refine Runs.foldlM_range (fun _ t => s.Progresses g t) (.refl ok) ?_ done
  rintro chNo channel t t' pass ⟨lists', ok', acts⟩
  exact Progresses.trans ⟨lists', ok', acts⟩ (schedulingNandReqPerCh_spec channel ok' pass)

theorem schedulingTurn_progresses {hw : TurnHardware} {lists : Nat → WayList → List Nat}
    (ok : SchedulerOk g s lists) (done : s.schedulingTurn g hw = some s') : s.Progresses g s' := by
  simp only [schedulingTurn, Option.bind_eq_bind, Option.bind_eq_some_iff, Prod.exists] at done
  obtain ⟨visits, layer, retired, passes⟩ := done
  obtain ⟨held, flight, slots⟩ := ok.layer
  obtain ⟨acts, appends⟩ := RequestLayer.checkDoneNvmeDmaReq_acts slots retired
  have ok' : SchedulerOk g (s.setLayer layer) lists := ok.append appends ⟨held, flight, acts.slotsOk slots⟩
  exact Progresses.trans ⟨lists, ok', acts⟩ (schedulingNandReq_progresses ok' passes)

/-! ### A wait is a list of events -/

theorem loopWhile_progresses {again : Scheduler → Prop} [DecidablePred again] {lists : Nat → WayList → List Nat}
    (ok : SchedulerOk g s lists) (done : loopWhile again (schedulingTurn g) turns s = some s') :
    s.Progresses g s' ∧ ¬ again s' ∧ (¬ again s → s' = s) := by
  refine ⟨?_, ?_, fun ended => ?_⟩
  · obtain ⟨taken, -, run, -⟩ := run_of_loopWhile done
    apply run.invariant (s.Progresses g) (.refl ok)
    intro t hw t' before _ turn
    obtain ⟨lists', ok', -⟩ := id before
    exact before.trans (schedulingTurn_progresses ok' turn)
  · obtain ⟨taken, -, -, ended⟩ := run_of_loopWhile done
    exact ended
  · cases turns <;> simpa [loopWhile, ended, eq_comm] using done

theorem syncAllLowLevelReqDone_refines {lists : Nat → WayList → List Nat} (ok : SchedulerOk g s lists)
    (done : s.syncAllLowLevelReqDone g turns = some s') :
    s.Progresses g s' ∧ ∃ es, s.layer.syncAllLowLevelReqDone g es = some s'.layer := by
  obtain ⟨progress, ended, same⟩ := loopWhile_progresses ok done
  refine ⟨progress, ?_⟩
  obtain ⟨lists', -, es, ran⟩ := progress
  refine ⟨es, ?_⟩
  unfold RequestLayer.syncAllLowLevelReqDone
  by_cases before : s.layer.LowLevelReqDone
  · rw [if_pos before, same (not_not.mpr before)]
  · rw [if_neg before]
    simp [ran, not_not.mp ended]

theorem syncAvailFreeReq_refines {lists : Nat → WayList → List Nat} (ok : SchedulerOk g s lists)
    (done : s.syncAvailFreeReq g turns = some s') :
    s.Progresses g s' ∧ s'.layer.queues.links.head .free ≠ reqSlotTagNone ∧
      ∃ es, s.layer.syncAvailFreeReq g es = some s'.layer := by
  obtain ⟨progress, ended, same⟩ := loopWhile_progresses ok done
  refine ⟨progress, ended, ?_⟩
  obtain ⟨lists', -, es, ran⟩ := progress
  refine ⟨es, ?_⟩
  unfold RequestLayer.syncAvailFreeReq
  by_cases empty : s.layer.queues.links.head .free = reqSlotTagNone
  · rw [if_pos empty]
    simp [ran, ended]
  · rw [if_neg empty, same empty]

/-- A READ that waits for an ERASE does so in events, and then is placed as the request layer
places it. -/
theorem selectLowLevelReqQ_refines {lists : Nat → WayList → List Nat} (ok : SchedulerOk g s lists)
    (slots : SlotsOk g s.layer held flight) (member : x ∈ flight) (allowed : Submittable g (s.layer.reqPool x))
    (done : s.selectLowLevelReqQ g turns x = some s') :
    (∃ lists', SchedulerOk g s' lists') ∧ ∃ es, s.layer.selectLowLevelReqQ g es x = some s'.layer := by
  simp only [selectLowLevelReqQ, Option.bind_eq_bind, Option.bind_eq_some_iff, Option.some.injEq] at done
  obtain ⟨t, waited, layer, placed, rfl⟩ := done
  have settles : ∀ {lists' : Nat → WayList → List Nat}, SchedulerOk g t lists' → SlotsOk g t.layer held flight →
      Submittable g (t.layer.reqPool x) → ∃ lists', SchedulerOk g (t.setLayer layer) lists' := by
    intro lists' ok' slots' allowed'
    refine ⟨lists', ok'.append (selectLowLevelReqQ_appends slots' member allowed' placed) ⟨held, flight.erase x, ?_⟩⟩
    exact RequestLayer.select_closed slotsOk_ops slots' member allowed' (fun _ _ => trivial) placed
  unfold waitForErase at waited
  split at waited
  · rename_i waits
    obtain ⟨⟨lists', ok', es, ran⟩, clear, -⟩ := loopWhile_progresses ok waited
    have slots' := events_closed slotsOk_events slots (fun _ _ => trivial) ran
    obtain ⟨same, free⟩ := events_undisturbed slotsOk_events slots (fun _ _ => trivial) ran member
    exact ⟨settles ok' slots' (same.symm ▸ allowed), es,
      RequestLayer.selectLowLevelReqQ_of_wait waits ran (by simpa using clear) same free placed⟩
  · cases waited
    exact ⟨settles ok slots allowed, [], placed⟩

end Scheduler

/-! ### The firmware refines the request layer -/

/-- Events are operations. -/
theorem run_of_events {s s' : RequestLayer} {es : List Event} (ran : s.events g es = some s') :
    Run (requestStep g) (fun _ _ => True) ⟨s, held⟩ (es.map .event) ⟨s', held⟩ := by
  induction es using List.reverseRecOn generalizing s' with
  | nil =>
    cases ran
    exact .nil
  | append_singleton es e ih =>
    simp only [events, List.foldlM_append, Option.bind_eq_bind, Option.bind_eq_some_iff, List.foldlM_cons,
      List.foldlM_nil, Option.pure_def, Option.bind_fun_some] at ran
    obtain ⟨t, before, last⟩ := ran
    rw [List.map_append, List.map_singleton]
    exact (ih before).snoc trivial (by simp [requestStep, last])

/-- What holds between two operations. -/
structure ScheduledOk (g : Geometry) (s : ScheduledFirmware) : Prop where
  slots : SlotsOk g s.scheduler.layer s.held ∅
  lists : ∃ lists, SchedulerOk g s.scheduler lists

namespace ScheduledOk
variable {s s' : ScheduledFirmware} {op : ScheduledOp}

theorem init (fits : g.userWays ≤ wayNone) : ScheduledOk g (initScheduledFirmware g) :=
  ⟨SlotsOk.init, _, schedulerOk_init fits⟩

/-- An operation of the request layer leaves the slots in order. -/
theorem slots_step {op : RequestOp} (ok : ScheduledOk g s) (done : requestStep g s.firmware op = some s'.firmware) :
    SlotsOk g s'.scheduler.layer s'.held ∅ :=
  RequestLayer.requestStep_closed slotsOk_ops ok.slots (fun _ req _ _ member _ => ok.slots.prepare member req)
    (fun _ _ => trivial) done

/-- One of its operations matches an operation of the firmware. -/
theorem of_request {o : RequestOp} (ok : ScheduledOk g s) (lists : ∃ lists, SchedulerOk g s'.scheduler lists)
    (done : requestStep g s.firmware o = some s'.firmware) (same : opSubmits o = op.submits) :
    ∃ ops, Run (requestStep g) (fun _ _ => True) s.firmware ops s'.firmware ∧ ScheduledOk g s' ∧
      ops.flatMap opSubmits = op.submits :=
  ⟨[o], Run.nil.snoc trivial done, ⟨ok.slots_step done, lists⟩, by rw [List.flatMap_singleton, same]⟩

theorem request {o : RequestOp} (ok : ScheduledOk g s) (quiet : o.Quiet) (done : s.request g o = some s')
    (same : opSubmits o = op.submits) :
    ∃ ops, Run (requestStep g) (fun _ _ => True) s.firmware ops s'.firmware ∧ ScheduledOk g s' ∧
      ops.flatMap opSubmits = op.submits := by
  simp only [ScheduledFirmware.request, Option.bind_eq_bind, Option.bind_eq_some_iff, Option.some.injEq] at done
  obtain ⟨fw, done, rfl⟩ := done
  obtain ⟨lists, listed⟩ := ok.lists
  obtain ⟨appends, slots⟩ := requestStep_appends ok.slots quiet done
  exact of_request ok ⟨lists, listed.append appends ⟨_, _, slots⟩⟩ done same

theorem step (ok : ScheduledOk g s) (done : scheduledStep g s op = some s') :
    ∃ ops, Run (requestStep g) (fun _ _ => True) s.firmware ops s'.firmware ∧ ScheduledOk g s' ∧
      ops.flatMap opSubmits = op.submits := by
  obtain ⟨lists, listed⟩ := ok.lists
  cases op with
  | putSlice x req => exact ok.request (o := .putSlice x req) trivial done rfl
  | getSlice => exact ok.request (o := .getSlice) trivial done rfl
  | alloc turns =>
    simp only [scheduledStep, Option.bind_eq_bind, Option.bind_eq_some_iff, Option.some.injEq] at done
    obtain ⟨t, waited, rfl⟩ := done
    obtain ⟨⟨lists', ok', acts⟩, some, es, waits⟩ := Scheduler.syncAvailFreeReq_refines listed waited
    have taken : requestStep g ⟨t.layer, s.held⟩ (.alloc []) =
        Option.some ⟨t.layer.getFromFreeReqQ.2, insert t.layer.getFromFreeReqQ.1 s.held⟩ := by
      simp [requestStep, RequestLayer.syncAvailFreeReq, some]
    obtain ⟨appends, slots⟩ := requestStep_appends (acts.slotsOk ok.slots) (show (RequestOp.alloc []).Quiet from rfl) taken
    refine ok.of_request (o := .alloc es) ⟨lists', ok'.append appends ⟨_, _, slots⟩⟩ ?_ rfl
    simp [requestStep, ScheduledFirmware.firmware, Scheduler.setLayer, waits]
  | submit x req turns =>
    simp only [scheduledStep] at done
    split at done
    · rename_i allowed
      simp only [Option.bind_eq_bind, Option.bind_eq_some_iff, Option.some.injEq] at done
      obtain ⟨t, selected, rfl⟩ := done
      have prepared := ok.slots.prepare allowed.1 req
      have submittable : Submittable g ((s.scheduler.layer.prepare x req).reqPool x) := by
        simpa [RequestLayer.prepare] using allowed.2
      have start := listed.append (prepare_appends ok.slots allowed.1 req) ⟨_, _, prepared⟩
      obtain ⟨lists', es, placed⟩ :=
        Scheduler.selectLowLevelReqQ_refines start prepared (Finset.mem_singleton_self x) submittable selected
      refine ok.of_request (o := .submit x req es) lists' ?_ rfl
      have placed : (s.scheduler.layer.prepare x req).selectLowLevelReqQ g es x = some t.layer := placed
      simp [requestStep, ScheduledFirmware.firmware, allowed, placed]
    · cases done
  | syncAll turns =>
    simp only [scheduledStep, Option.bind_eq_bind, Option.bind_eq_some_iff, Option.some.injEq] at done
    obtain ⟨t, waited, rfl⟩ := done
    obtain ⟨⟨lists', ok', acts⟩, es, waits⟩ := Scheduler.syncAllLowLevelReqDone_refines listed waited
    refine ok.of_request (o := .syncAll es) ⟨lists', ok'⟩ ?_ rfl
    simp [requestStep, ScheduledFirmware.firmware, waits]
  | turn hw =>
    simp only [scheduledStep, Option.bind_eq_bind, Option.bind_eq_some_iff, Option.some.injEq] at done
    obtain ⟨t, passed, rfl⟩ := done
    obtain ⟨lists', ok', es, ran⟩ := Scheduler.schedulingTurn_progresses listed passed
    refine ⟨es.map .event, run_of_events ran, ⟨?_, lists', ok'⟩, ?_⟩
    · exact events_closed slotsOk_events ok.slots (fun _ _ => trivial) ran
    · simp [ScheduledOp.submits, opSubmits, List.flatMap_map]

end ScheduledOk

/-- Whatever the hardware answers, a run of the firmware with its wait loops and its scheduler
is a run of the request layer on the same requests, and the way lists stay in order. -/
theorem scheduler_refines_requests (fits : g.userWays ≤ wayNone) {ops : List ScheduledOp} {s : ScheduledFirmware}
    (run : Run (scheduledStep g) (fun _ _ => True) (initScheduledFirmware g) ops s) :
    (∃ ops', Run (requestStep g) (fun _ _ => True) (initFirmware g) ops' s.firmware ∧
      ops'.flatMap opSubmits = ops.flatMap ScheduledOp.submits) ∧
    ∃ lists, SchedulerOk g s.scheduler lists := by
  obtain ⟨ops', fw, matched, ⟨ok, rfl⟩, same⟩ := run.simulate (fun s fw => ScheduledOk g s ∧ s.firmware = fw)
    ScheduledOp.submits opSubmits ⟨.init fits, rfl⟩ (by
      rintro s op s' fw ⟨ok, rfl⟩ - done
      obtain ⟨ops, matched, ok', same⟩ := ok.step done
      exact ⟨ops, s'.firmware, matched, ⟨ok', rfl⟩, same⟩)
  exact ⟨⟨ops', matched, same⟩, ok.lists⟩

/-- Hardware that is ready, and finishes what it was given before it is looked at again. -/
def promptHardware : Hardware where
  readyBusy _ := 0xff
  queueNotFull _ := 1
  completeFlag _ := 1
  statusReport _ := 0xc1
  errorInfo _ := 0x10000000

/-- A turn in which every NAND request finishes, and one transfer to the host has. -/
def promptTurn : TurnHardware where
  completed _ dir := if dir = .tx then 1 else 0
  nand _ := promptHardware

/-- A transfer waits for the write-back of its entry, and the firmware for both. -/
theorem scheduler_refines_requests_drained :
    ∃ ops s, Run (scheduledStep tinyGeometry) (fun _ _ => True) (initScheduledFirmware tinyGeometry) ops s ∧
      s.scheduler.layer.LowLevelReqDone ∧
      (∃ ops', Run (requestStep tinyGeometry) (fun _ _ => True) (initFirmware tinyGeometry) ops' s.firmware ∧
        ops'.flatMap opSubmits = [writeBackReq, hostReadReq]) ∧
      ∃ lists, SchedulerOk tinyGeometry s.scheduler lists := by
  have done : (exec (scheduledStep tinyGeometry) (fun _ _ => True) (initScheduledFirmware tinyGeometry)
      [.alloc [], .submit 0 writeBackReq [], .turn promptTurn, .alloc [], .submit 1 hostReadReq [],
        .syncAll (List.replicate 5 promptTurn)]).any fun s => s.scheduler.layer.LowLevelReqDone := by decide +kernel
  obtain ⟨s, run, drained⟩ := run_of_exec_any done
  exact ⟨_, s, run, of_decide_eq_true drained, scheduler_refines_requests (by decide) run⟩

end OcpFw
