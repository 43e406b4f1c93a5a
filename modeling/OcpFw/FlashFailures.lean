import OcpFw.BadBlocks
import OcpFw.DmaCompletion
import OcpFw.FlashFirmware
import OcpFw.SchedulerSteps
import OcpFw.WriteBackCache

/-! What a failure of the flash comes to. A read is tried again five times; what fails for
good is retired like what succeeds, with a mark for its block. A transfer that waited for it
goes to the host with automatic completion, as all commands of `IssueNvmeDmaReq` do, and a
slice whose program failed stays mapped to its page. -/
namespace OcpFw
open RequestLayer
open Runs (Run exec run_of_exec_any)

variable {F : Type} {c : FlashConfig} {g : Geometry} {chNo wayNo x y : Nat}

/-! ### The request layer -/

namespace RequestLayer
variable {s t : RequestLayer}

/-- A DMA request is with the host DMA engine, and so are the commands for its blocks. -/
structure HandedOver (g : Geometry) (s t : RequestLayer) (y : Nat) : Prop where
  queued : t.reqQueueType y = .nvmeDma
  commands : ∃ devAddr, generateDataBufAddr g (s.reqPool y) = some devAddr ∧
    t.hostDma.commands = s.hostDma.commands ++
      HostDma.autoDmas (s.reqPool y).dmaDirection (s.reqPool y).nvmeCmdSlotTag (s.reqPool y).nvmeDmaInfo.startIndex
        devAddr (s.reqPool y).nvmeDmaInfo.numOfNvmeBlock

theorem startNvmeDmaReq_handsOver (type : (s.reqPool y).reqType = .nvmeDma) (done : s.startNvmeDmaReq g y = some t) :
    HandedOver g s t y := by
  simp only [startNvmeDmaReq, Option.bind_eq_bind, Option.bind_eq_some_iff, Option.some.injEq, Prod.exists] at done
  obtain ⟨req, hostDma, issued, rfl⟩ := done
  obtain ⟨devAddr, addr, -, -, commands, -⟩ := issueNvmeDmaReq_spec type issued
  exact ⟨Function.update_self .., devAddr, addr, commands⟩

/-- The slot of a finished NAND request is free. -/
theorem getFromNandReqQ_frees {held flight : Finset Nat} (ok : SlotsOk g s held flight)
    (done : s.getFromNandReqQ g chNo wayNo = some t) :
    t.reqQueueType (s.queues.links.head (.nand chNo wayNo)) = .free := by
  obtain ⟨queues, taken, released⟩ := getFromNandReqQ_cases done
  have retires : s.Retires (s.queues.links.head (.nand chNo wayNo)) queues := .inr ⟨chNo, wayNo, taken⟩
  obtain ⟨queued, queuesOk⟩ := ok.queued
  obtain ⟨-, types, -⟩ := retires.spec queuesOk
  have free : (s.setQueues queues).reqQueueType (s.queues.links.head (.nand chNo wayNo)) = .free := by
    change queues.reqQueueType _ = _
    rw [types, Function.update_self]
  rcases releaseBlockedByBufDepReq_cases released with ⟨-, rfl⟩ | ⟨⟨-, blocked⟩, started⟩
  · exact free
  · have allowed := (ok.retire retires).submittable _ blocked
    obtain ⟨q, -, -, queues'⟩ := (Placed.of_startReleasedReq started allowed.1).queues allowed
    have diff : s.queues.links.head (.nand chNo wayNo) ≠
        (s.setQueues queues).blocking.nextBlockingReq (s.queues.links.head (.nand chNo wayNo)) := by
      intro same
      rw [← same, free] at blocked
      cases blocked
    rw [reqQueueType, queues']
    simp only [RequestQueues.putTo, Function.update_of_ne diff]
    exact (Function.update_of_ne diff ..).trans free

/-- A DMA request that was held back for its buffer is handed over. -/
theorem getFromNandReqQ_handsOver {held flight : Finset Nat} (ok : SlotsOk g s held flight)
    (done : s.getFromNandReqQ g chNo wayNo = some t)
    (next : s.blocking.nextBlockingReq (s.queues.links.head (.nand chNo wayNo)) = y)
    (blocked : s.reqQueueType y = .blockedByBufDep) (type : (s.reqPool y).reqType = .nvmeDma) :
    HandedOver g s t y := by
  obtain ⟨queues, taken, released⟩ := getFromNandReqQ_cases done
  have retires : s.Retires (s.queues.links.head (.nand chNo wayNo)) queues := .inr ⟨chNo, wayNo, taken⟩
  obtain ⟨queued, queuesOk⟩ := ok.queued
  obtain ⟨busy, types, -⟩ := retires.spec queuesOk
  have real : y ≠ reqSlotTagNone := queuesOk.ne_none (queuesOk.mem_bufDep.mpr blocked)
  have still : (s.setQueues queues).reqQueueType y = .blockedByBufDep := by
    have diff : y ≠ s.queues.links.head (.nand chNo wayNo) := by
      rintro rfl
      simp [blocked] at busy
    change queues.reqQueueType y = _
    rw [types, Function.update_of_ne diff]
    exact blocked
  have next' : (s.setQueues queues).blocking.nextBlockingReq (s.queues.links.head (.nand chNo wayNo)) = y := next
  rcases releaseBlockedByBufDepReq_cases released with ⟨other, -⟩ | ⟨-, started⟩
  · rw [next'] at other
    exact absurd ⟨real, still⟩ other
  · rw [next'] at started
    simp only [startReleasedReq] at started
    have kind : ((((s.setQueues queues).cut (s.queues.links.head (.nand chNo wayNo))).setQueues
        ((s.setQueues queues).queues.selectiveGetFromBlockedByBufDepReqQ y)).reqPool y).reqType = .nvmeDma := type
    rw [kind] at started
    obtain ⟨with', commands⟩ := startNvmeDmaReq_handsOver kind started
    exact ⟨with', commands⟩

end RequestLayer

/-! ### One report of a die -/

namespace Scheduler
variable {s t : Scheduler}

/-- A failure that is not the last one. -/
theorem executeNandReq_retry (exe : (s.dieState chNo wayNo).dieState = .exe) (retries : s.Retries chNo wayNo) :
    s.executeNandReq g chNo wayNo .fail =
      some (((s.setRetryLimit chNo wayNo (s.retryLimit chNo wayNo - 1)).setLayer
        (s.layer.setReq (s.headReq chNo wayNo)
          { s.layer.reqPool (s.headReq chNo wayNo) with reqCode := .read })).setDieState chNo wayNo .idle) := by
  unfold Retries at retries
  simp only [executeNandReq, exe]
  rw [if_pos retries]
  rfl

/-- Any other one is the end of the request. -/
theorem executeNandReq_finish (exe : (s.dieState chNo wayNo).dieState = .exe) (last : ¬ s.Retries chNo wayNo) :
    s.executeNandReq g chNo wayNo .fail = s.finishNandReq g chNo wayNo := by
  unfold Retries at last
  simp only [executeNandReq, exe]
  rw [if_neg last]

/-- A READ goes on with its transfer. -/
theorem executeNandReq_triggered (exe : (s.dieState chNo wayNo).dieState = .exe)
    (code : (s.layer.reqPool (s.headReq chNo wayNo)).reqCode = .read) :
    s.executeNandReq g chNo wayNo .done =
      some ((s.setLayer (s.layer.setReq (s.headReq chNo wayNo)
        { s.layer.reqPool (s.headReq chNo wayNo) with reqCode := .readTransfer })).setDieState chNo wayNo .idle) := by
  simp only [executeNandReq, exe]
  rw [if_pos code]

/-- Any other request ends with a success as it does with a failure. -/
theorem executeNandReq_done (exe : (s.dieState chNo wayNo).dieState = .exe)
    (code : (s.layer.reqPool (s.headReq chNo wayNo)).reqCode ≠ .read) :
    s.executeNandReq g chNo wayNo .done = s.finishNandReq g chNo wayNo := by
  simp only [executeNandReq, exe]
  rw [if_neg code]

theorem finishNandReq_cases (done : s.finishNandReq g chNo wayNo = some t) :
    (t.dieState chNo wayNo).dieState = .idle ∧
      t.retryLimit = (s.setRetryLimit chNo wayNo OcpFw.retryLimit).retryLimit ∧
      s.layer.getFromNandReqQ g chNo wayNo = some t.layer := by
  simp only [finishNandReq, Option.bind_eq_bind, Option.bind_eq_some_iff, Option.some.injEq] at done
  obtain ⟨layer, taken, rfl⟩ := done
  exact ⟨by simp [setDieState], rfl, taken⟩

end Scheduler

namespace FlashFirmware
variable {s t : FlashFirmware F} {reqStatus : ReqStatus}

theorem executeNandReq_cases (done : s.executeNandReq c chNo wayNo reqStatus = some t) :
    (s.scheduler.Marks chNo wayNo reqStatus →
      s.marks.markRequest c (s.headRequest chNo wayNo) chNo wayNo reqStatus = some t.marks) ∧
    (¬ s.scheduler.Marks chNo wayNo reqStatus → t.marks = s.marks) ∧
    s.scheduler.executeNandReq c.geometry chNo wayNo reqStatus = some t.scheduler ∧
    t = { s with
      scheduler := t.scheduler
      marks := t.marks
      retries := Function.update s.retries chNo
        (Function.update (s.retries chNo) wayNo (s.retriesAfter chNo wayNo reqStatus)) } := by
  unfold executeNandReq at done
  by_cases marking : s.scheduler.Marks chNo wayNo reqStatus
  · simp only [if_pos marking, Option.bind_eq_bind, Option.bind_eq_some_iff, Option.some.injEq] at done
    obtain ⟨marks, marked, scheduler, executed, rfl⟩ := done
    exact ⟨fun _ => marked, fun quiet => absurd marking quiet, executed, rfl⟩
  · simp only [if_neg marking, Option.bind_eq_bind, Option.bind_some, Option.bind_eq_some_iff,
      Option.some.injEq] at done
    obtain ⟨scheduler, executed, rfl⟩ := done
    exact ⟨fun mark => absurd mark marking, fun _ => rfl, executed, rfl⟩

theorem executeNandReq_eq {marks : FailureMarks} {scheduler : Scheduler}
    (marked : s.scheduler.Marks chNo wayNo reqStatus →
      s.marks.markRequest c (s.headRequest chNo wayNo) chNo wayNo reqStatus = some marks)
    (unmarked : ¬ s.scheduler.Marks chNo wayNo reqStatus → marks = s.marks)
    (executed : s.scheduler.executeNandReq c.geometry chNo wayNo reqStatus = some scheduler) :
    s.executeNandReq c chNo wayNo reqStatus = some { s with
      scheduler
      marks
      retries := Function.update s.retries chNo
        (Function.update (s.retries chNo) wayNo (s.retriesAfter chNo wayNo reqStatus)) } := by
  unfold executeNandReq
  by_cases marking : s.scheduler.Marks chNo wayNo reqStatus
  · simp only [if_pos marking, marked marking, executed, Option.bind_eq_bind, Option.bind_some]
  · simp only [if_neg marking, unmarked marking, executed, Option.bind_eq_bind, Option.bind_some]

/-- The code above the request layer is not told. -/
theorem executeNandReq_above (done : s.executeNandReq c chNo wayNo reqStatus = some t) :
    t.manager = s.manager ∧ t.pending = s.pending := by
  obtain ⟨-, -, -, shape⟩ := executeNandReq_cases done
  rw [shape]
  exact ⟨rfl, rfl⟩

/-- The limit of a die goes down with every retry, and both start again with the next request. -/
theorem executeNandReq_limit (limit : s.scheduler.retryLimit chNo wayNo + s.retries chNo wayNo = retryLimit)
    {scheduler : Scheduler} (done : s.scheduler.executeNandReq c.geometry chNo wayNo reqStatus = some scheduler) :
    ∃ n, scheduler.retryLimit = (s.scheduler.setRetryLimit chNo wayNo n).retryLimit ∧
      n + s.retriesAfter chNo wayNo reqStatus = retryLimit := by
  have same : (s.scheduler.setRetryLimit chNo wayNo (s.scheduler.retryLimit chNo wayNo)).retryLimit =
      s.scheduler.retryLimit := by
    simp [Scheduler.setRetryLimit]
  have finish : ∀ {u : Scheduler}, s.scheduler.finishNandReq c.geometry chNo wayNo = some u →
      u.retryLimit = (s.scheduler.setRetryLimit chNo wayNo retryLimit).retryLimit :=
    fun finished => (Scheduler.finishNandReq_cases finished).2.1
  unfold retriesAfter
  cases die : (s.scheduler.dieState chNo wayNo).dieState with
  | idle =>
    simp only [Scheduler.executeNandReq, die, Option.bind_eq_bind, Option.bind_eq_some_iff, Option.some.injEq] at done
    obtain ⟨u, issued, rfl⟩ := done
    refine ⟨_, ?_, limit⟩
    rw [same]
    unfold Scheduler.issueNandReq at issued
    split at issued <;> cases issued <;> rfl
  | exe =>
    cases reqStatus with
    | running =>
      simp only [Scheduler.executeNandReq, die, Option.some.injEq] at done
      subst done
      exact ⟨_, same.symm, limit⟩
    | warning =>
      simp only [Scheduler.executeNandReq, die] at done
      exact ⟨_, finish done, rfl⟩
    | done =>
      by_cases code : (s.headRequest chNo wayNo).req.reqCode = .read
      · refine ⟨s.scheduler.retryLimit chNo wayNo, ?_, by simpa only [if_pos code] using limit⟩
        rw [Scheduler.executeNandReq_triggered die code] at done
        cases done
        exact same.symm
      · rw [Scheduler.executeNandReq_done die code] at done
        exact ⟨_, finish done, by simp only [if_neg code, Nat.add_zero]⟩
    | fail =>
      by_cases retries : s.scheduler.Retries chNo wayNo
      · refine ⟨s.scheduler.retryLimit chNo wayNo - 1, ?_, ?_⟩
        · rw [Scheduler.executeNandReq_retry die retries] at done
          cases done
          rfl
        · have positive := retries.2
          simp only [if_pos retries]
          omega
      · rw [Scheduler.executeNandReq_finish die retries] at done
        exact ⟨_, finish done, by simp only [if_neg retries, Nat.add_zero]⟩

end FlashFirmware

/-! ### Runs -/

/-- What holds between two inputs. -/
structure FlashOk (c : FlashConfig) (s : FlashFirmware F) : Prop where
  submission : SubmissionOk c.geometry s.layer s.held s.flight
  limit : ∀ chNo wayNo, s.scheduler.retryLimit chNo wayNo + s.retries chNo wayNo = retryLimit

variable {s t : FlashFirmware F} {translate : BufferManager F → SliceReq → Option (BufferManager F × List FlashRequest)}

theorem FlashOk.init (manager : BufferManager F) (phyBlock : PhyBlockMap) :
    FlashOk c (initFlashFirmware c manager phyBlock) where
  submission := .init
  limit _ _ := rfl

/-- On the request layer, what a die reports is an event or nothing. -/
theorem executeNandReq_acts (ok : FlashOk c s) {reqStatus : ReqStatus}
    (real : s.scheduler.headReq chNo wayNo ≠ reqSlotTagNone) {scheduler : Scheduler}
    (done : s.scheduler.executeNandReq c.geometry chNo wayNo reqStatus = some scheduler) :
    Acts c.geometry s.layer scheduler.layer := by
  cases die : (s.scheduler.dieState chNo wayNo).dieState with
  | idle =>
    obtain ⟨-, same, -⟩ := Scheduler.executeNandReq_idle real die done
    rw [same]
    exact .refl _
  | exe =>
    by_cases running : reqStatus = .running
    · subst running
      simp only [Scheduler.executeNandReq, die, Option.some.injEq] at done
      subst done
      exact .refl _
    · exact (Scheduler.executeNandReq_exe ok.submission.slots real die running done).2.2.1

theorem FlashOk.execute (ok : FlashOk c s) {reqStatus : ReqStatus}
    (real : s.scheduler.headReq chNo wayNo ≠ reqSlotTagNone)
    (done : s.executeNandReq c chNo wayNo reqStatus = some t) : FlashOk c t := by
  obtain ⟨-, -, executed, shape⟩ := FlashFirmware.executeNandReq_cases done
  obtain ⟨es, acts⟩ := executeNandReq_acts ok real executed
  obtain ⟨n, limits, sum⟩ := FlashFirmware.executeNandReq_limit (ok.limit chNo wayNo) executed
  rw [shape]
  refine ⟨ok.submission.events acts, fun ch way => ?_⟩
  simp only [limits, Scheduler.setRetryLimit]
  by_cases sameCh : ch = chNo
  · subst sameCh
    by_cases sameWay : way = wayNo
    · subst sameWay
      simpa only [Function.update_self] using sum
    · simpa only [Function.update_self, Function.update_of_ne sameWay] using ok.limit ch way
  · simpa only [Function.update_of_ne sameCh] using ok.limit ch way

theorem FlashOk.step (ok : FlashOk c s) {input : FlashInput} (allowed : input.Allowed s)
    (done : flashStep c translate s input = some t) : FlashOk c t := by
  cases input with
  | consume slice =>
    simp only [flashStep, Option.bind_eq_bind, Option.bind_eq_some_iff, Option.some.injEq, Prod.exists] at done
    obtain ⟨manager, requests, -, rfl⟩ := done
    exact ⟨ok.submission, ok.limit⟩
  | request op =>
    simp only [flashStep, Option.bind_eq_bind, Option.bind_eq_some_iff, Option.some.injEq] at done
    obtain ⟨fw, ran, rfl⟩ := done
    refine ⟨?_, ok.limit⟩
    have quiet : s.flight = ∅ → (∀ x req es, op ≠ .submit x req es) →
        SubmissionOk c.geometry fw.layer fw.held s.flight := by
      intro idle other
      have ok' := ok.submission
      rw [idle] at ok' ⊢
      exact SubmissionOk.request ok' other ran
    cases op with
    | alloc es => exact quiet allowed.2 fun _ _ _ => RequestOp.noConfusion
    | putSlice => exact quiet allowed fun _ _ _ => RequestOp.noConfusion
    | getSlice => exact quiet allowed fun _ _ _ => RequestOp.noConfusion
    | event e =>
      simp only [requestStep, Option.bind_eq_bind, Option.bind_eq_some_iff, Option.some.injEq] at ran
      obtain ⟨layer, ran, rfl⟩ := ran
      have one : s.layer.events c.geometry [e] = some layer := by simp [RequestLayer.events, ran]
      exact ok.submission.events one
    | submit => cases allowed
    | syncAll => cases allowed
  | prepare x =>
    simp only [flashStep] at done
    split at done
    · split at done
      · rename_i ready
        cases done
        obtain ⟨member, submittable, idle⟩ := ready
        have ok' := ok.submission
        rw [idle] at ok'
        exact ⟨ok'.prepare member submittable, ok.limit⟩
      · cases done
    · cases done
  | select x =>
    simp only [flashStep] at done
    split at done
    · rename_i member
      simp only [Option.bind_eq_bind, Option.bind_eq_some_iff, Option.some.injEq] at done
      obtain ⟨layer, ran, rfl⟩ := done
      exact ⟨ok.submission.select member ran, ok.limit⟩
    · cases done
  | execute chNo wayNo reqStatus => exact ok.execute allowed done

theorem flashOk_of_run {manager : BufferManager F} {phyBlock : PhyBlockMap} {inputs : List FlashInput}
    (run : Run (flashStep c translate) (fun s input => input.Allowed s) (initFlashFirmware c manager phyBlock)
      inputs s) : FlashOk c s := by
  apply run.invariant (FlashOk c) (.init manager phyBlock)
  intro s input t ok allowed done
  exact ok.step allowed done

/-! ### The marks -/

/-- The block of the row is bad, and the table of its die is to be updated. -/
structure Marked (c : FlashConfig) (m m' : FailureMarks) (dieNo phyBlockNo : Nat) : Prop where
  inside : dieNo < c.geometry.userDies ∧ phyBlockNo < c.totalBlocksPerDie
  bad : ∀ d b, (m'.phyBlock d b).bad = true ↔ (m.phyBlock d b).bad = true ∨ d = dieNo ∧ b = phyBlockNo
  remapped : ∀ d b, (m'.phyBlock d b).remappedPhyBlock = (m.phyBlock d b).remappedPhyBlock
  booked : ∀ d, m'.grownBadUpdate d = true ↔ m.grownBadUpdate d = true ∨ d = dieNo

theorem updatePhyBlockMap_marked {m m' : FailureMarks} {dieNo phyBlockNo : Nat}
    (done : m.updatePhyBlockMapForGrownBadBlock c dieNo phyBlockNo = some m') : Marked c m m' dieNo phyBlockNo := by
  simp only [FailureMarks.updatePhyBlockMapForGrownBadBlock, PhyBlockMap.entry, PhyBlockMap.setEntry,
    Option.bind_eq_bind] at done
  by_cases inside : dieNo < c.geometry.userDies ∧ phyBlockNo < c.totalBlocksPerDie
  swap
  · simp [inside] at done
  simp only [if_pos inside, Option.bind_some, Option.some.injEq] at done
  subst done
  have entries : ∀ (e : PhyBlock) d b, Function.update m.phyBlock dieNo
      (Function.update (m.phyBlock dieNo) phyBlockNo e) d b =
        if d = dieNo ∧ b = phyBlockNo then e else m.phyBlock d b := by
    intro e d b
    by_cases sameDie : d = dieNo
    · subst sameDie
      by_cases sameBlock : b = phyBlockNo
      · subst sameBlock
        simp
      · simp [sameBlock]
    · simp [sameDie]
  refine ⟨inside, fun d b => ?_, fun d b => ?_, fun d => ?_⟩
  · simp only [entries]
    by_cases here : d = dieNo ∧ b = phyBlockNo <;> simp [here]
  · simp only [entries]
    split
    · rename_i here
      rw [here.1, here.2]
    · rfl
  · by_cases same : d = dieNo <;> simp [same]

theorem markRequest_marked {m m' : FailureMarks} {r : FlashRequest} {reqStatus : ReqStatus}
    (done : m.markRequest c r chNo wayNo reqStatus = some m') :
    ∃ rowAddr, generateNandRowAddr c m.phyBlock (r.req.nandRowInfo r.row) = some rowAddr ∧
      Marked c m m' (pcw2VdieTranslation c.geometry chNo wayNo) (FailureMarks.phyBlockNoOfRow rowAddr) := by
  simp only [FailureMarks.markRequest, Option.bind_eq_bind, Option.bind_eq_some_iff] at done
  obtain ⟨rowAddr, row, marked⟩ := done
  refine ⟨rowAddr, row, ?_⟩
  split at marked
  · obtain ⟨inside, bad, remapped, booked⟩ := updatePhyBlockMap_marked marked
    exact ⟨inside, bad, remapped, booked⟩
  · exact updatePhyBlockMap_marked marked

/-! ### Failures -/

/-- The request of the die is a READ to be issued again, and has one try less. -/
structure Retried (s t : FlashFirmware F) (chNo wayNo : Nat) : Prop where
  layer : t.layer = s.layer.setReq (s.scheduler.headReq chNo wayNo)
    { (s.headRequest chNo wayNo).req with reqCode := .read }
  idle : (t.scheduler.dieState chNo wayNo).dieState = .idle
  limit : t.scheduler.retryLimit chNo wayNo + 1 = s.scheduler.retryLimit chNo wayNo
  kept : t.manager = s.manager ∧ t.marks = s.marks

/-- The request of the die is retired, and only its block is marked. -/
structure GivenUp (c : FlashConfig) (s t : FlashFirmware F) (chNo wayNo : Nat) : Prop where
  /-- A read was tried again as often as there are retries. -/
  tried : (s.headRequest chNo wayNo).req.reqCode = .read ∨ (s.headRequest chNo wayNo).req.reqCode = .readTransfer →
    s.retries chNo wayNo = retryLimit
  freed : t.layer.reqQueueType (s.scheduler.headReq chNo wayNo) = .free
  idle : (t.scheduler.dieState chNo wayNo).dieState = .idle
  limit : t.scheduler.retryLimit chNo wayNo = retryLimit
  /-- A success is the same to the scheduler and the request layer. -/
  success : (s.headRequest chNo wayNo).req.reqCode ≠ .read →
    s.scheduler.executeNandReq c.geometry chNo wayNo .done = some t.scheduler
  /-- The DMA request chained behind it moves its blocks, whatever the buffer holds. -/
  handedOver : ∀ y, s.layer.blocking.nextBlockingReq (s.scheduler.headReq chNo wayNo) = y →
    s.layer.reqQueueType y = .blockedByBufDep → (s.layer.reqPool y).reqType = .nvmeDma →
    HandedOver c.geometry s.layer t.layer y
  /-- The maps and the buffers with their dirty flags stay, and nothing new is submitted. -/
  kept : t.manager = s.manager ∧ t.pending = s.pending
  marked : ∃ rowAddr,
    generateNandRowAddr c s.marks.phyBlock
        ((s.headRequest chNo wayNo).req.nandRowInfo (s.headRequest chNo wayNo).row) = some rowAddr ∧
      Marked c s.marks t.marks (pcw2VdieTranslation c.geometry chNo wayNo) (FailureMarks.phyBlockNoOfRow rowAddr)

theorem retried_of_execute (exe : (s.scheduler.dieState chNo wayNo).dieState = .exe)
    (retries : s.scheduler.Retries chNo wayNo) (done : s.executeNandReq c chNo wayNo .fail = some t) :
    Retried s t chNo wayNo := by
  obtain ⟨-, quiet, executed, -⟩ := FlashFirmware.executeNandReq_cases done
  have unmarked : ¬ s.scheduler.Marks chNo wayNo .fail := by
    rintro ⟨-, warning | ⟨-, last⟩⟩
    · cases warning
    · exact last retries
  rw [Scheduler.executeNandReq_retry exe retries, Option.some.injEq] at executed
  refine ⟨?_, ?_, ?_, (FlashFirmware.executeNandReq_above done).1, quiet unmarked⟩
  · unfold FlashFirmware.layer
    rw [← executed]
    rfl
  · rw [← executed]
    simp [Scheduler.setDieState]
  · have positive := retries.2
    have less : t.scheduler.retryLimit chNo wayNo = s.scheduler.retryLimit chNo wayNo - 1 := by
      rw [← executed]
      simp [Scheduler.setDieState, Scheduler.setDie, Scheduler.setLayer, Scheduler.setRetryLimit]
    omega

theorem FlashOk.givenUp (ok : FlashOk c s) (exe : (s.scheduler.dieState chNo wayNo).dieState = .exe)
    (last : ¬ s.scheduler.Retries chNo wayNo) (done : s.executeNandReq c chNo wayNo .fail = some t) :
    GivenUp c s t chNo wayNo := by
  obtain ⟨marked, -, executed, -⟩ := FlashFirmware.executeNandReq_cases done
  rw [Scheduler.executeNandReq_finish exe last] at executed
  obtain ⟨idle, limit, retired⟩ := Scheduler.finishNandReq_cases executed
  constructor
  · intro read
    have limit := ok.limit chNo wayNo
    have none : s.scheduler.retryLimit chNo wayNo = 0 := by
      by_contra some
      exact last ⟨read, Nat.pos_of_ne_zero some⟩
    omega
  · exact getFromNandReqQ_frees ok.submission.slots retired
  · exact idle
  · rw [limit]
    simp [Scheduler.setRetryLimit]
  · intro code
    rw [Scheduler.executeNandReq_done exe code]
    exact executed
  · intro y next blocked type
    exact getFromNandReqQ_handsOver ok.submission.slots retired next blocked type
  · exact FlashFirmware.executeNandReq_above done
  · exact markRequest_marked (marked ⟨exe, .inr ⟨rfl, last⟩⟩)

/-- Only the consumption of a slice changes the maps and the buffers, or brings requests to be
submitted, and only reports of dies leave marks. -/
theorem flashStep_keeps {input : FlashInput} (done : flashStep c translate s input = some t) :
    ((∀ slice, input ≠ .consume slice) → t.manager = s.manager ∧ ∀ r ∈ t.pending, r ∈ s.pending) ∧
      ((∀ chNo wayNo reqStatus, input ≠ .execute chNo wayNo reqStatus) → t.marks = s.marks) := by
  cases input with
  | consume slice =>
    simp only [flashStep, Option.bind_eq_bind, Option.bind_eq_some_iff, Option.some.injEq, Prod.exists] at done
    obtain ⟨manager, requests, -, rfl⟩ := done
    exact ⟨fun other => absurd rfl (other slice), fun _ => rfl⟩
  | request op =>
    simp only [flashStep, Option.bind_eq_bind, Option.bind_eq_some_iff, Option.some.injEq] at done
    obtain ⟨fw, -, rfl⟩ := done
    exact ⟨fun _ => ⟨rfl, fun _ => id⟩, fun _ => rfl⟩
  | prepare x =>
    simp only [flashStep] at done
    split at done
    · rename_i r rest pending
      split at done <;> cases done
      exact ⟨fun _ => ⟨rfl, fun r member => by rw [pending]; exact List.mem_cons_of_mem _ member⟩, fun _ => rfl⟩
    · cases done
  | select x =>
    simp only [flashStep] at done
    split at done
    · simp only [Option.bind_eq_bind, Option.bind_eq_some_iff, Option.some.injEq] at done
      obtain ⟨layer, -, rfl⟩ := done
      exact ⟨fun _ => ⟨rfl, fun _ => id⟩, fun _ => rfl⟩
    · cases done
  | execute chNo wayNo reqStatus =>
    obtain ⟨manager, pending⟩ := FlashFirmware.executeNandReq_above done
    exact ⟨fun _ => ⟨manager, fun r member => pending ▸ member⟩, fun other => absurd rfl (other chNo wayNo reqStatus)⟩

theorem manager_kept_of_run {inputs : List FlashInput}
    (run : Run (flashStep c translate) (fun s input => input.Allowed s ∧ ∀ slice, input ≠ .consume slice)
      s inputs t) : t.manager = s.manager := by
  apply run.invariant (fun t => t.manager = s.manager) rfl
  rintro t input u same ⟨-, other⟩ done
  exact ((flashStep_keeps done).1 other).1.trans same

/-- In every state of a run a failed request is tried again, or retired as a success is: its
transfer is handed over, and nothing but the mark of its block is left of the failure until
the next slice is consumed. -/
theorem failed_request_of_run (manager : BufferManager F) (phyBlock : PhyBlockMap) {inputs : List FlashInput}
    (run : Run (flashStep c translate) (fun s input => input.Allowed s) (initFlashFirmware c manager phyBlock)
      inputs s) (exe : (s.scheduler.dieState chNo wayNo).dieState = .exe)
    (done : flashStep c translate s (.execute chNo wayNo .fail) = some t) :
    (s.scheduler.Retries chNo wayNo → Retried s t chNo wayNo) ∧
      (¬ s.scheduler.Retries chNo wayNo → GivenUp c s t chNo wayNo) ∧
      ∀ inputs u, Run (flashStep c translate) (fun s input => input.Allowed s ∧ ∀ slice, input ≠ .consume slice)
        t inputs u → u.manager = s.manager := by
  have ok := flashOk_of_run run
  refine ⟨fun retries => retried_of_execute exe retries done, fun last => ok.givenUp exe last done, ?_⟩
  intro inputs u after
  rw [manager_kept_of_run after]
  exact (FlashFirmware.executeNandReq_above done).1

/-- The flash of one die after its initialization; the first block holds the table. -/
def initTinyFlash : FlashFirmware Ftl :=
  initFlashFirmware tinyFlash
    (initBufferManager tinyFlash.geometry (initFtl tinyFlash.geometry fun _ _ => false))
    (((initBlockDieMap tinyFlash (fun _ => 0) (initPhyBlockMap fun _ _ => false)).map Prod.fst).getD
      (initPhyBlockMap fun _ _ => false))

def tinyFlashStep : FlashFirmware Ftl → FlashInput → Option (FlashFirmware Ftl) :=
  flashStep tinyFlash (translateSlice tinyFlash.geometry)

/-- The next request is submitted in a slot. -/
def submitIn (x : Nat) : List FlashInput := [.request (.alloc []), .prepare x, .select x]

def dmaDone (x : Nat) : FlashInput := .request (.event (.nvmeDmaDone x))

/-- Slice 0 is written, and driven out by the reads of sixteen others: its program is issued. -/
def driveOut : List FlashInput :=
  .consume (sliceAt .write 0 0 4) :: submitIn 0 ++ [dmaDone 0] ++
    (List.range' 1 15).flatMap (fun i => .consume (sliceAt .read i 0 4) :: submitIn i ++ [dmaDone i]) ++
    .consume (sliceAt .read 16 0 4) :: submitIn 16 ++ submitIn 17 ++ [.execute 0 0 .running]

/-- Slice 0 is read: both phases of the READ are issued. -/
def readBack : List FlashInput :=
  let phases : List FlashInput := [.execute 0 0 .running, .execute 0 0 .done, .execute 0 0 .running]
  dmaDone 17 :: .consume (sliceAt .read 0 0 4) :: submitIn 18 ++ submitIn 19 ++
    (List.replicate 5 (phases ++ [.execute 0 0 .fail])).flatten ++ phases

/-- The program of a slice fails, and the transfer that waited for the entry is handed over. -/
theorem failed_request_of_run_program :
    ∃ s t, Run tinyFlashStep (fun s input => input.Allowed s) initTinyFlash driveOut s ∧
      tinyFlashStep s (.execute 0 0 .fail) = some t ∧ (s.headRequest 0 0).req.reqCode = .write ∧
      GivenUp tinyFlash s t 0 0 := by
  have done : (exec tinyFlashStep (fun s input => input.Allowed s) initTinyFlash driveOut).any (fun s =>
      (tinyFlashStep s (.execute 0 0 .fail)).isSome ∧
        (s.scheduler.dieState 0 0).dieState = .exe ∧ (s.headRequest 0 0).req.reqCode = .write) = true := by
    decide +kernel
  obtain ⟨s, run, shown⟩ := run_of_exec_any done
  obtain ⟨accepted, exe, code⟩ := of_decide_eq_true shown
  obtain ⟨t, step⟩ := Option.isSome_iff_exists.mp accepted
  have last : ¬ s.scheduler.Retries 0 0 := by
    rintro ⟨read | transfer, -⟩
    · cases code.symm.trans read
    · cases code.symm.trans transfer
  exact ⟨s, t, run, step, code, (failed_request_of_run _ _ run exe step).2.1 last⟩

/-- Slice 0 stays mapped to the page its program failed for, with nothing dirty in the buffer;
and when the READ of that page has failed six times, the blocks of the entry go to the host. -/
theorem failed_request_hidden :
    ∃ (s t s' t' : FlashFirmware Ftl) (vsa : Nat),
      (Run tinyFlashStep (fun s input => input.Allowed s) initTinyFlash driveOut s ∧
        (s.scheduler.dieState 0 0).dieState = .exe ∧ (s.headRequest 0 0).req.reqCode = .write ∧
        (s.headRequest 0 0).req.logicalSliceAddr = 0 ∧ (s.headRequest 0 0).req.virtualSliceAddr = vsa ∧
        tinyFlashStep s (.execute 0 0 .fail) = some t ∧
        addrTransRead tinyFlash.geometry t.manager.map 0 = some vsa ∧ ∀ e < 16, t.manager.buf.dirty e = false) ∧
      (Run tinyFlashStep (fun s input => input.Allowed s) t readBack s' ∧
        (s'.scheduler.dieState 0 0).dieState = .exe ∧ ¬ s'.scheduler.Retries 0 0 ∧
        (s'.headRequest 0 0).req.reqCode = .readTransfer ∧ (s'.headRequest 0 0).req.virtualSliceAddr = vsa ∧
        tinyFlashStep s' (.execute 0 0 .fail) = some t' ∧
        t'.layer.hostDma.commands = s'.layer.hostDma.commands ++ (List.range 4).map (fun i =>
          ⟨.tx, 0, i, dataBufferBaseAddr + (s'.headRequest 0 0).req.dataBufInfo * bytesPerDataRegionOfSlice +
            i * bytesPerNvmeBlock⟩) ∧
        addrTransRead tinyFlash.geometry t'.manager.map 0 = some vsa ∧ ∀ e < 16, t'.manager.buf.dirty e = false) := by
  have done : (exec tinyFlashStep (fun s input => input.Allowed s) initTinyFlash driveOut).any (fun s =>
      (tinyFlashStep s (.execute 0 0 .fail)).any fun t =>
        (exec tinyFlashStep (fun s input => input.Allowed s) t readBack).any fun s' =>
          (tinyFlashStep s' (.execute 0 0 .fail)).any fun t' =>
            ((s.scheduler.dieState 0 0).dieState = .exe ∧ (s.headRequest 0 0).req.reqCode = .write ∧
              (s.headRequest 0 0).req.logicalSliceAddr = 0 ∧
              addrTransRead tinyFlash.geometry t.manager.map 0 = some (s.headRequest 0 0).req.virtualSliceAddr ∧
              ∀ e < 16, t.manager.buf.dirty e = false) ∧
            ((s'.scheduler.dieState 0 0).dieState = .exe ∧ ¬ s'.scheduler.Retries 0 0 ∧
              (s'.headRequest 0 0).req.reqCode = .readTransfer ∧
              (s'.headRequest 0 0).req.virtualSliceAddr = (s.headRequest 0 0).req.virtualSliceAddr ∧
              t'.layer.hostDma.commands = s'.layer.hostDma.commands ++ (List.range 4).map (fun i =>
                ⟨.tx, 0, i, dataBufferBaseAddr + (s'.headRequest 0 0).req.dataBufInfo * bytesPerDataRegionOfSlice +
                  i * bytesPerNvmeBlock⟩) ∧
              addrTransRead tinyFlash.geometry t'.manager.map 0 = some (s.headRequest 0 0).req.virtualSliceAddr ∧
              ∀ e < 16, t'.manager.buf.dirty e = false)) = true := by
    decide +kernel
  obtain ⟨s, run, shown⟩ := run_of_exec_any done
  obtain ⟨t, step, shown⟩ := (Option.any_eq_true _ _).mp shown
  obtain ⟨s', run', shown⟩ := run_of_exec_any shown
  obtain ⟨t', step', shown⟩ := (Option.any_eq_true _ _).mp shown
  obtain ⟨⟨exe, write, lsa, mapped, clean⟩, exe', last, read, page, commands, mapped', clean'⟩ := of_decide_eq_true shown
  exact ⟨s, t, s', t', _, ⟨run, exe, write, lsa, rfl, step, mapped, clean⟩,
    run', exe', last, read, page, step', commands, mapped', clean'⟩

/-! ### Runs without failures -/

/-- A program, an erase or a transfer is given up. -/
def FlashInput.GivesUp (s : FlashFirmware F) : FlashInput → Prop
  | execute chNo wayNo reqStatus =>
    s.scheduler.Marks chNo wayNo reqStatus ∧ (s.headRequest chNo wayNo).req.reqCode ≠ .read
  | _ => False

/-- The blocks are remapped alike. -/
def FailureMarks.SameRemap (m m' : FailureMarks) : Prop :=
  ∀ d b, (m'.phyBlock d b).remappedPhyBlock = (m.phyBlock d b).remappedPhyBlock

def FlashFirmware.withMarks (s : FlashFirmware F) (m : FailureMarks) : FlashFirmware F := { s with marks := m }

/-- The row of a request does not depend on which blocks are bad. -/
theorem generateNandRowAddr_congr {m m' : FailureMarks} (same : m.SameRemap m') (req : NandRowInfo) :
    generateNandRowAddr c m'.phyBlock req = generateNandRowAddr c m.phyBlock req := by
  have entries : ∀ dieNo blockNo (row : Nat → Nat),
      ((m'.phyBlock.entry c dieNo blockNo).bind fun entry => some (row entry.remappedPhyBlock)) =
        (m.phyBlock.entry c dieNo blockNo).bind fun entry => some (row entry.remappedPhyBlock) := by
    intro dieNo blockNo row
    unfold PhyBlockMap.entry
    split
    · simp [same dieNo blockNo]
    · rfl
  unfold generateNandRowAddr
  cases req.nandAddr with
  | vsa => exact entries _ _ fun b => _ + b % totalBlocksPerLun * pagesPerMlcBlock + _
  | phyOrg =>
    cases req.blockSpace with
    | total => rfl
    | main => exact entries _ _ fun b => _ + b % totalBlocksPerLun * pagesPerMlcBlock + _

/-- Nor does it whether it can be marked. -/
theorem markRequest_congr {m m' n : FailureMarks} {r : FlashRequest} {reqStatus : ReqStatus} (same : m.SameRemap m')
    (done : m.markRequest c r chNo wayNo reqStatus = some n) :
    ∃ n', m'.markRequest c r chNo wayNo reqStatus = some n' ∧ n.SameRemap n' := by
  obtain ⟨rowAddr, row, marked⟩ := markRequest_marked done
  have accepted : (m'.markRequest c r chNo wayNo reqStatus).isSome := by
    simp only [FailureMarks.markRequest, generateNandRowAddr_congr same, row, Option.bind_eq_bind, Option.bind_some,
      FailureMarks.updatePhyBlockMapForGrownBadBlock, PhyBlockMap.entry, PhyBlockMap.setEntry, if_pos marked.inside,
      Option.isSome_some]
  obtain ⟨n', done'⟩ := Option.isSome_iff_exists.mp accepted
  obtain ⟨rowAddr', row', marked'⟩ := markRequest_marked done'
  refine ⟨n', done', fun d b => ?_⟩
  rw [marked'.remapped, marked.remapped]
  exact same d b

/-- A step goes the same way with other blocks marked. -/
theorem flashStep_withMarks {m : FailureMarks} {input : FlashInput} (same : s.marks.SameRemap m)
    (done : flashStep c translate s input = some t) :
    ∃ m', flashStep c translate (s.withMarks m) input = some (t.withMarks m') ∧ t.marks.SameRemap m' := by
  cases input with
  | consume slice =>
    simp only [flashStep, Option.bind_eq_bind, Option.bind_eq_some_iff, Option.some.injEq, Prod.exists] at done
    obtain ⟨manager, requests, ran, rfl⟩ := done
    exact ⟨m, by simp [flashStep, FlashFirmware.withMarks, ran], same⟩
  | request op =>
    simp only [flashStep, Option.bind_eq_bind, Option.bind_eq_some_iff, Option.some.injEq] at done
    obtain ⟨fw, ran, rfl⟩ := done
    exact ⟨m, by simp [flashStep, FlashFirmware.withMarks, FlashFirmware.layer, FlashFirmware.setLayer, ran], same⟩
  | prepare x =>
    simp only [flashStep] at done
    split at done
    · rename_i r rest pending
      split at done <;> cases done
      rename_i ready
      refine ⟨m, ?_, same⟩
      simp only [flashStep, FlashFirmware.withMarks, pending]
      rw [if_pos ready]
      rfl
    · cases done
  | select x =>
    simp only [flashStep] at done
    split at done
    · rename_i member
      simp only [Option.bind_eq_bind, Option.bind_eq_some_iff, Option.some.injEq] at done
      obtain ⟨layer, ran, rfl⟩ := done
      refine ⟨m, ?_, same⟩
      have member' : x ∈ (s.withMarks m).flight := member
      have ran' : (s.withMarks m).layer.selectLowLevelReqQ c.geometry [] x = some layer := ran
      simp only [flashStep, if_pos member', ran', Option.bind_eq_bind, Option.bind_some]
      rfl
    · cases done
  | execute chNo wayNo reqStatus =>
    obtain ⟨marked, unmarked, executed, shape⟩ := FlashFirmware.executeNandReq_cases done
    by_cases marking : s.scheduler.Marks chNo wayNo reqStatus
    · obtain ⟨m', accepted, same'⟩ := markRequest_congr same (marked marking)
      refine ⟨m', ?_, same'⟩
      rw [shape]
      exact FlashFirmware.executeNandReq_eq (s := s.withMarks m) (fun _ => accepted)
        (fun quiet => absurd marking quiet) executed
    · refine ⟨m, ?_, (unmarked marking).symm ▸ same⟩
      rw [shape]
      exact FlashFirmware.executeNandReq_eq (s := s.withMarks m) (fun mark => absurd mark marking) (fun _ => rfl)
        executed

/-- What is given up might as well have succeeded. -/
theorem flashStep_success {m : FailureMarks} {input : FlashInput} (same : s.marks.SameRemap m)
    (gives : input.GivesUp s) (allowed : input.Allowed s) (done : flashStep c translate s input = some t) :
    ∃ input' m', FlashInput.Allowed (s.withMarks m) input' ∧ ¬ FlashInput.GivesUp (s.withMarks m) input' ∧
      flashStep c translate (s.withMarks m) input' = some (t.withMarks m') ∧ t.marks.SameRemap m' := by
  cases input with
  | execute chNo wayNo reqStatus =>
    obtain ⟨⟨exe, status⟩, code⟩ := gives
    obtain ⟨marked, -, executed, shape⟩ := FlashFirmware.executeNandReq_cases done
    obtain ⟨rowAddr, -, marks⟩ := markRequest_marked (marked ⟨exe, status⟩)
    have success : s.scheduler.executeNandReq c.geometry chNo wayNo .done = some t.scheduler := by
      rw [Scheduler.executeNandReq_done exe code]
      rcases status with rfl | ⟨rfl, last⟩
      · simpa only [Scheduler.executeNandReq, exe] using executed
      · rwa [Scheduler.executeNandReq_finish exe last] at executed
    have count : s.retriesAfter chNo wayNo reqStatus = s.retriesAfter chNo wayNo .done := by
      unfold FlashFirmware.retriesAfter
      rcases status with rfl | ⟨rfl, last⟩
      · simp only [exe, if_neg code]
      · simp only [exe, if_neg code, if_neg last]
    have quiet : ¬ s.scheduler.Marks chNo wayNo .done := by
      rintro ⟨-, warning | ⟨fail, -⟩⟩
      · cases warning
      · cases fail
    refine ⟨.execute chNo wayNo .done, m, allowed, fun gives => quiet gives.1, ?_, fun d b => ?_⟩
    · rw [shape, count]
      exact FlashFirmware.executeNandReq_eq (s := s.withMarks m) (fun mark => absurd mark quiet) (fun _ => rfl) success
    · rw [marks.remapped]
      exact same d b
  | _ => exact absurd gives id

/-- Every state of a run is, but for the marks, that of a run in which no program, erase or
transfer is given up: to the rest of the firmware failures for good are successes. -/
theorem successful_run_of_run (manager : BufferManager F) (phyBlock : PhyBlockMap) {inputs : List FlashInput}
    (run : Run (flashStep c translate) (fun s input => input.Allowed s) (initFlashFirmware c manager phyBlock)
      inputs s) :
    ∃ inputs' m, Run (flashStep c translate) (fun s input => input.Allowed s ∧ ¬ input.GivesUp s)
      (initFlashFirmware c manager phyBlock) inputs' (s.withMarks m) ∧ s.marks.SameRemap m := by
  induction run with
  | nil => exact ⟨[], _, .nil, fun _ _ => rfl⟩
  | @snoc before s input t _ allowed done ih =>
    obtain ⟨inputs', m, run', same⟩ := ih
    by_cases gives : input.GivesUp s
    · obtain ⟨input', m', allowed', quiet, done', same'⟩ := flashStep_success same gives allowed done
      exact ⟨_, m', run'.snoc ⟨allowed', quiet⟩ done', same'⟩
    · obtain ⟨m', done', same'⟩ := flashStep_withMarks same done
      have allowed' : FlashInput.Allowed (s.withMarks m) input := by
        cases input <;> exact allowed
      have quiet : ¬ FlashInput.GivesUp (s.withMarks m) input := by
        cases input <;> exact gives
      exact ⟨_, m', run'.snoc ⟨allowed', quiet⟩ done', same'⟩

end OcpFw
