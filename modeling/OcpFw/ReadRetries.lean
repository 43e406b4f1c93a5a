import OcpFw.FlashFailures
import OcpFw.RetryCourse

/-! Every request of a die is a job with `RETRY_LIMIT` retries of its own. Nothing ties the
counter of a die to a request but the protocol of `ExecuteNandReq`: a failure that is not
the last one takes one from it and starts the READ again, and what ends a request sets it
back before the request leaves the queue. -/
namespace OcpFw
open RequestLayer
open Runs (Run exec run_of_exec_any)
open Retry (Attempt Phase Outcome)

variable {F : Type} {c : FlashConfig} {chNo wayNo x : Nat}

def ReqCode.phase : ReqCode → Phase
  | .read => .trigger
  | .readTransfer => .transfer
  | _ => .single

theorem ReqCode.phase_trigger {code : ReqCode} : code.phase = .trigger ↔ code = .read := by
  cases code <;> simp [ReqCode.phase]

theorem ReqCode.phase_single {code : ReqCode} : code.phase ≠ .single ↔ code = .read ∨ code = .readTransfer := by
  cases code <;> simp [ReqCode.phase]

def ReqStatus.outcome : ReqStatus → Option Outcome
  | .running => none
  | .done => some .done
  | .fail => some .fail
  | .warning => some .warning

/-- What became of the first request of a die with a report, if it was executing that request. -/
def FlashFirmware.attempt (s : FlashFirmware F) (chNo wayNo : Nat) (reqStatus : ReqStatus) : Option Attempt :=
  match (s.scheduler.dieState chNo wayNo).dieState with
  | .idle => none
  | .exe => reqStatus.outcome.map fun outcome => ((s.headRequest chNo wayNo).req.reqCode.phase, outcome)

/-- What every die reported of its first request, and of those that left its queue. No code
reads it. -/
structure DieReports where
  current : Nat → Nat → List Attempt := fun _ _ => []
  left : Nat → Nat → List (List Attempt) := fun _ _ => []

namespace DieReports

def setCurrent (l : DieReports) (chNo wayNo : Nat) (attempts : List Attempt) : DieReports :=
  { l with current := Function.update l.current chNo (Function.update (l.current chNo) wayNo attempts) }

def addLeft (l : DieReports) (chNo wayNo : Nat) (attempts : List Attempt) : DieReports :=
  { l with
    left := Function.update l.left chNo
      (Function.update (l.left chNo) wayNo (l.left chNo wayNo ++ [attempts])) }

@[simp] theorem setCurrent_self (l : DieReports) (attempts : List Attempt) :
    (l.setCurrent chNo wayNo attempts).current chNo wayNo = attempts := by
  simp [setCurrent]

theorem setCurrent_other (l : DieReports) (attempts : List Attempt) {ch way : Nat}
    (diff : (ch, way) ≠ (chNo, wayNo)) :
    (l.setCurrent chNo wayNo attempts).current ch way = l.current ch way := by
  unfold setCurrent
  by_cases same : ch = chNo
  · subst same
    have other : way ≠ wayNo := fun same => diff (by rw [same])
    simp [other]
  · simp [same]

@[simp] theorem setCurrent_left (l : DieReports) (attempts : List Attempt) :
    (l.setCurrent chNo wayNo attempts).left = l.left := rfl

@[simp] theorem addLeft_self (l : DieReports) (attempts : List Attempt) :
    (l.addLeft chNo wayNo attempts).left chNo wayNo = l.left chNo wayNo ++ [attempts] := by
  simp [addLeft]

theorem addLeft_other (l : DieReports) (attempts : List Attempt) {ch way : Nat}
    (diff : (ch, way) ≠ (chNo, wayNo)) : (l.addLeft chNo wayNo attempts).left ch way = l.left ch way := by
  unfold addLeft
  by_cases same : ch = chNo
  · subst same
    have other : way ≠ wayNo := fun same => diff (by rw [same])
    simp [other]
  · simp [same]

@[simp] theorem addLeft_current (l : DieReports) (attempts : List Attempt) :
    (l.addLeft chNo wayNo attempts).current = l.current := rfl

/-- A report is entered; when the request has left the queue, the next one begins. -/
def record (l : DieReports) (s t : FlashFirmware F) : FlashInput → DieReports
  | .execute chNo wayNo reqStatus =>
    match s.attempt chNo wayNo reqStatus with
    | none => l
    | some attempt =>
      let attempts := l.current chNo wayNo ++ [attempt]
      if t.layer.reqQueueType (s.scheduler.headReq chNo wayNo) = .nand then l.setCurrent chNo wayNo attempts
      else (l.setCurrent chNo wayNo []).addLeft chNo wayNo attempts
  | _ => l

end DieReports

/-- A step of the firmware, with the reports of the dies entered. -/
def reportStep (c : FlashConfig)
    (translate : BufferManager F → SliceReq → Option (BufferManager F × List FlashRequest))
    (p : FlashFirmware F × DieReports) (input : FlashInput) : Option (FlashFirmware F × DieReports) := do
  let t ← flashStep c translate p.1 input
  some (t, p.2.record p.1 t input)

variable {s t : FlashFirmware F} {l l' : DieReports} {reqStatus : ReqStatus} {a : Attempt}
  {translate : BufferManager F → SliceReq → Option (BufferManager F × List FlashRequest)}

/-! ### One report -/

/-- The die goes on with its first request, another phase or another try. -/
structure GoesOn (s t : FlashFirmware F) (chNo wayNo : Nat) (reqCode : ReqCode) (left : Nat) : Prop where
  layer : t.layer = s.layer.setReq (s.scheduler.headReq chNo wayNo)
    { (s.headRequest chNo wayNo).req with reqCode := reqCode }
  limit : t.scheduler.retryLimit = (s.scheduler.setRetryLimit chNo wayNo left).retryLimit

/-- The first request of the die leaves its queue. -/
structure Leaves (c : FlashConfig) (s t : FlashFirmware F) (chNo wayNo : Nat) : Prop where
  layer : s.layer.getFromNandReqQ c.geometry chNo wayNo = some t.layer
  limit : t.scheduler.retryLimit = (s.scheduler.setRetryLimit chNo wayNo retryLimit).retryLimit

theorem Scheduler.setRetryLimit_other {s : Scheduler} {limit ch way : Nat} (diff : (ch, way) ≠ (chNo, wayNo)) :
    (s.setRetryLimit chNo wayNo limit).retryLimit ch way = s.retryLimit ch way := by
  unfold Scheduler.setRetryLimit
  by_cases same : ch = chNo
  · subst same
    have other : way ≠ wayNo := fun same => diff (by rw [same])
    simp [other]
  · simp [same]

/-- The state of the job that the first request of a die is. -/
def FlashFirmware.job (s : FlashFirmware F) (chNo wayNo : Nat) : Retry.State :=
  .pending (s.headRequest chNo wayNo).req.reqCode.phase (s.scheduler.retryLimit chNo wayNo)

private theorem leaves_of_finish {scheduler : Scheduler} {marks : FailureMarks} {retries : Nat → Nat → Nat}
    (finished : s.scheduler.finishNandReq c.geometry chNo wayNo = some scheduler) :
    Leaves c s { s with scheduler, marks, retries } chNo wayNo := by
  obtain ⟨-, limit, layer⟩ := Scheduler.finishNandReq_cases finished
  exact ⟨layer, limit⟩

/-- A report takes the first request of the die on as a job with as many tries as the limit
of the die says. -/
theorem executeNandReq_job (real : s.scheduler.headReq chNo wayNo ≠ reqSlotTagNone)
    (done : s.executeNandReq c chNo wayNo reqStatus = some t) :
    (s.attempt chNo wayNo reqStatus = none ∧ t.layer = s.layer ∧
      t.scheduler.retryLimit = s.scheduler.retryLimit) ∨
    (∃ a reqCode left, s.attempt chNo wayNo reqStatus = some a ∧ GoesOn s t chNo wayNo reqCode left ∧
      Retry.next (s.job chNo wayNo) a = some (.pending reqCode.phase left)) ∨
    (∃ a, s.attempt chNo wayNo reqStatus = some a ∧ Leaves c s t chNo wayNo ∧
      Retry.next (s.job chNo wayNo) a = some .finished) := by
  obtain ⟨-, -, executed, shape⟩ := FlashFirmware.executeNandReq_cases done
  rw [shape]
  unfold FlashFirmware.attempt FlashFirmware.job
  cases die : (s.scheduler.dieState chNo wayNo).dieState with
  | idle =>
    obtain ⟨-, layer, -⟩ := Scheduler.executeNandReq_idle real die executed
    refine .inl ⟨rfl, layer, ?_⟩
    simp only [Scheduler.executeNandReq, die, Option.bind_eq_bind, Option.bind_eq_some_iff,
      Option.some.injEq] at executed
    obtain ⟨u, issued, executed⟩ := executed
    rw [← executed]
    unfold Scheduler.issueNandReq at issued
    split at issued <;> cases issued <;> rfl
  | exe =>
    cases reqStatus with
    | running =>
      simp only [Scheduler.executeNandReq, die, Option.some.injEq] at executed
      refine .inl ⟨rfl, ?_, ?_⟩
      · simp only [FlashFirmware.layer, ← executed]
      · simp only [← executed]
    | warning =>
      simp only [Scheduler.executeNandReq, die] at executed
      exact .inr (.inr ⟨_, rfl, leaves_of_finish executed, Retry.next_warning⟩)
    | done =>
      by_cases code : (s.headRequest chNo wayNo).req.reqCode = .read
      · rw [Scheduler.executeNandReq_triggered die code, Option.some.injEq] at executed
        refine .inr (.inl ⟨_, .readTransfer, s.scheduler.retryLimit chNo wayNo, rfl, ⟨?_, ?_⟩, ?_⟩)
        · rw [← executed]
          rfl
        · rw [← executed]
          simp [Scheduler.setRetryLimit, Scheduler.setDieState, Scheduler.setDie, Scheduler.setLayer]
        · rw [code]
          exact Retry.next_triggered
      · rw [Scheduler.executeNandReq_done die code] at executed
        refine .inr (.inr ⟨_, rfl, leaves_of_finish executed, Retry.next_done ?_⟩)
        exact fun trigger => code (ReqCode.phase_trigger.mp trigger)
    | fail =>
      by_cases retries : s.scheduler.Retries chNo wayNo
      · rw [Scheduler.executeNandReq_retry die retries, Option.some.injEq] at executed
        refine .inr (.inl ⟨_, .read, s.scheduler.retryLimit chNo wayNo - 1, rfl, ⟨?_, ?_⟩, ?_⟩)
        · rw [← executed]
          rfl
        · rw [← executed]
          rfl
        · obtain ⟨n, more⟩ := Nat.exists_eq_succ_of_ne_zero (Nat.ne_of_gt retries.2)
          rw [more]
          exact Retry.next_retry (ReqCode.phase_single.mpr retries.1)
      · rw [Scheduler.executeNandReq_finish die retries] at executed
        refine .inr (.inr ⟨_, rfl, leaves_of_finish executed, Retry.next_failed ?_⟩)
        by_contra more
        rw [not_or] at more
        exact retries ⟨ReqCode.phase_single.mp more.1, Nat.pos_of_ne_zero more.2⟩

/-! ### What is known of a die -/

/-- The reports of the first request of a die are those of a job with all its retries at the
beginning, and the limit of the die says how many it has left. A die without a request has
them all, and what left its queue was finished. -/
structure ReportsOk (s : FlashFirmware F) (l : DieReports) (chNo wayNo : Nat) : Prop where
  empty : s.scheduler.headReqCode chNo wayNo = none →
    l.current chNo wayNo = [] ∧ s.scheduler.retryLimit chNo wayNo = retryLimit
  current : ∀ reqCode, s.scheduler.headReqCode chNo wayNo = some reqCode →
    ∃ first, Retry.Pending retryLimit first (l.current chNo wayNo) reqCode.phase
      (s.scheduler.retryLimit chNo wayNo)
  left : ∀ attempts ∈ l.left chNo wayNo, ∃ first, Retry.Finished retryLimit first attempts

/-- What a step does to the queue of a die: it appends to it, or a report ends the first
request, which leaves. In a queue that was empty, and when a request left, the next one
finds all retries. -/
inductive DieStep (s t : FlashFirmware F) (l l' : DieReports) (queued queued' : ReqQueue → List Nat)
    (input : FlashInput) (chNo wayNo : Nat) : Prop
  | stays (grown : queued (.nand chNo wayNo) <+: queued' (.nand chNo wayNo))
      (left : l'.left chNo wayNo = l.left chNo wayNo)
      (fresh : queued (.nand chNo wayNo) = [] → t.scheduler.retryLimit chNo wayNo = retryLimit)
  | leaves (x : Nat) (rest : List Nat) (reqStatus : ReqStatus) (a : Attempt)
      (report : input = .execute chNo wayNo reqStatus) (attempt : s.attempt chNo wayNo reqStatus = some a)
      (first : queued (.nand chNo wayNo) = x :: rest) (grown : rest <+: queued' (.nand chNo wayNo))
      (left : l'.left chNo wayNo = l.left chNo wayNo ++ [l.current chNo wayNo ++ [a]])
      (fresh : t.scheduler.retryLimit chNo wayNo = retryLimit)

/-- A die whose first request stays as it is, or that had none. -/
theorem ReportsOk.kept (ok : ReportsOk s l chNo wayNo)
    (head : s.scheduler.headReqCode chNo wayNo ≠ none →
      t.scheduler.headReqCode chNo wayNo = s.scheduler.headReqCode chNo wayNo)
    (limit : t.scheduler.retryLimit chNo wayNo = s.scheduler.retryLimit chNo wayNo)
    (current : l'.current chNo wayNo = l.current chNo wayNo) (left : l'.left chNo wayNo = l.left chNo wayNo) :
    ReportsOk t l' chNo wayNo := by
  refine ⟨fun none => ?_, fun reqCode some => ?_, left ▸ ok.left⟩ <;> rw [current, limit]
  · apply ok.empty
    by_contra before
    rw [head before] at none
    exact before none
  · cases before : s.scheduler.headReqCode chNo wayNo with
    | none =>
      obtain ⟨nothing, all⟩ := ok.empty before
      rw [nothing, all]
      exact ⟨_, Retry.pending_of_course rfl⟩
    | some old =>
      have same := head (by simp [before])
      rw [some, before, Option.some.injEq] at same
      exact same ▸ ok.current old before

/-- A step that appends to the queues. -/
private theorem dieStep_of_appends {queued queued' : ReqQueue → List Nat} {input : FlashInput}
    (ok : ReportsOk s l chNo wayNo) (queues : QueuesOk c.geometry s.layer.queues queued)
    (holds' : Dll.Holds reqSlotTagNone t.layer.queues.links queued')
    (appends : Appends c.geometry s.layer t.layer)
    (limit : t.scheduler.retryLimit chNo wayNo = s.scheduler.retryLimit chNo wayNo)
    (left : l'.left chNo wayNo = l.left chNo wayNo) : DieStep s t l l' queued queued' input chNo wayNo := by
  obtain ⟨before, after, ok₁, ok₂, grown⟩ := appends
  cases ok₁.holds.unique queues.holds
  cases ok₂.holds.unique holds'
  refine .stays (grown chNo wayNo).1 left fun empty => ?_
  have head : s.scheduler.headReqCode chNo wayNo = none := by
    rw [Scheduler.headReqCode, headReqCode_eq queues, empty]
    rfl
  rw [limit]
  exact (ok.empty head).2

/-- Whatever is no report of a die appends to the queues. -/
theorem flashStep_appends {input : FlashInput} (ok : FlashOk c s) (allowed : input.Allowed s)
    (quiet : ∀ chNo wayNo reqStatus, input ≠ .execute chNo wayNo reqStatus)
    (done : flashStep c translate s input = some t) :
    Appends c.geometry s.layer t.layer ∧ t.scheduler.retryLimit = s.scheduler.retryLimit := by
  obtain ⟨queued, queues⟩ := ok.submission.slots.queued
  have slots := ok.submission.slots
  cases input with
  | consume slice =>
    simp only [flashStep, Option.bind_eq_bind, Option.bind_eq_some_iff, Option.some.injEq, Prod.exists] at done
    obtain ⟨manager, requests, -, rfl⟩ := done
    exact ⟨.refl queues, rfl⟩
  | request op =>
    simp only [flashStep, Option.bind_eq_bind, Option.bind_eq_some_iff, Option.some.injEq] at done
    obtain ⟨fw, ran, rfl⟩ := done
    refine ⟨?_, rfl⟩
    have still : s.flight = ∅ → op.Quiet → Appends c.geometry s.layer fw.layer := by
      intro idle quiet
      rw [idle] at slots
      exact (@requestStep_appends _ ⟨s.layer, s.held⟩ fw op slots quiet ran).1
    cases op with
    | alloc es => exact still allowed.2 allowed.1
    | putSlice => exact still allowed trivial
    | getSlice => exact still allowed trivial
    | event e =>
      simp only [requestStep, Option.bind_eq_bind, Option.bind_eq_some_iff, Option.some.injEq] at ran
      obtain ⟨layer, ran, rfl⟩ := ran
      cases e with
      | nvmeDmaDone x =>
        simp only [RequestLayer.event] at ran
        split at ran
        · rename_i dma
          exact selectiveGetFromNvmeDmaReqQ_appends slots dma ran
        · cases ran
      | recheck ch way =>
        simp only [RequestLayer.event] at ran
        split at ran
        · exact releaseBlockedByRowAddrDepReq_appends queues ran
        · cases ran
      | nandDone => cases allowed
      | readPhase => cases allowed
    | submit => cases allowed
    | syncAll => cases allowed
  | prepare x =>
    simp only [flashStep] at done
    split at done
    · split at done
      · rename_i ready
        cases done
        obtain ⟨member, -, idle⟩ := ready
        rw [idle] at slots
        exact ⟨prepare_appends slots member _, rfl⟩
      · cases done
    · cases done
  | select x =>
    simp only [flashStep] at done
    split at done
    · rename_i member
      simp only [Option.bind_eq_bind, Option.bind_eq_some_iff, Option.some.injEq] at done
      obtain ⟨layer, ran, rfl⟩ := done
      exact ⟨selectLowLevelReqQ_appends slots member (ok.submission.submittable x member) ran, rfl⟩
    · cases done
  | execute chNo wayNo reqStatus => exact absurd rfl (quiet chNo wayNo reqStatus)

/-- The queues after a request left: the rest of the queue of its die is in front. -/
theorem Leaves.queues (leaves : Leaves c s t chNo wayNo) (ok : FlashOk c s) {queued : ReqQueue → List Nat}
    (queues : QueuesOk c.geometry s.layer.queues queued) :
    ∃ rest, queued (.nand chNo wayNo) = s.scheduler.headReq chNo wayNo :: rest ∧
      ∃ queued', QueuesOk c.geometry t.layer.queues queued' ∧ rest <+: queued' (.nand chNo wayNo) ∧
        ∀ ch way, (ch, way) ≠ (chNo, wayNo) → queued (.nand ch way) <+: queued' (.nand ch way) := by
  obtain ⟨queues', taken, released⟩ := getFromNandReqQ_cases leaves.layer
  obtain ⟨rest, shape, after⟩ := queues.getFromNandReqQ taken
  have retired := ok.submission.slots.retire (.inr ⟨chNo, wayNo, taken⟩)
  obtain ⟨before, queued', okBefore, ok', grown⟩ := releaseBlockedByBufDepReq_appends retired released
  have middle : QueuesOk c.geometry (s.layer.setQueues queues').queues _ := after
  cases okBefore.holds.unique middle.holds
  refine ⟨rest, shape, queued', ok', ?_, fun ch way diff => ?_⟩
  · simpa using (grown chNo wayNo).1
  · have other : ReqQueue.nand ch way ≠ .nand chNo wayNo := by
      intro same
      cases same
      exact diff rfl
    simpa [other] using (grown ch way).1

/-- A report that ends no request. -/
private theorem reportsOk_goesOn {reqCode : ReqCode} {left : Nat} (okF : FlashOk c s)
    (ok : ∀ ch way, ReportsOk s l ch way) (real : s.scheduler.headReq chNo wayNo ≠ reqSlotTagNone)
    (goesOn : GoesOn s t chNo wayNo reqCode left)
    (next : Retry.next (s.job chNo wayNo) a = some (.pending reqCode.phase left)) :
    ∀ ch way, ReportsOk t (l.setCurrent chNo wayNo (l.current chNo wayNo ++ [a])) ch way := by
  obtain ⟨queued, queues⟩ := okF.submission.slots.queued
  obtain ⟨head, others⟩ := setReq_headReqCode reqCode queues real
  have layer : t.layer = s.layer.setReq (s.layer.queues.links.head (.nand chNo wayNo))
    { s.layer.reqPool (s.layer.queues.links.head (.nand chNo wayNo)) with reqCode := reqCode } := goesOn.layer
  intro ch way
  by_cases same : (ch, way) = (chNo, wayNo)
  · obtain ⟨rfl, rfl⟩ := Prod.mk.inj same
    have now : t.scheduler.headReqCode ch way = some reqCode := by
      rw [Scheduler.headReqCode, show t.scheduler.layer = t.layer from rfl, layer]
      exact head
    refine ⟨fun none => ?_, fun code some => ?_, (ok ch way).left⟩
    · rw [now] at none
      cases none
    · rw [now, Option.some.injEq] at some
      subst some
      obtain ⟨first, before⟩ := (ok ch way).current _ (Scheduler.headReqCode_of_real real)
      refine ⟨first, Retry.pending_of_course ?_⟩
      have limit : t.scheduler.retryLimit ch way = left := by
        rw [goesOn.limit]
        simp [Scheduler.setRetryLimit]
      rw [DieReports.setCurrent_self, Retry.course_snoc, before.run, limit]
      exact next
  · refine (ok ch way).kept (fun some => ?_) ?_ (DieReports.setCurrent_other _ _ same) rfl
    · rw [Scheduler.headReqCode, show t.scheduler.layer = t.layer from rfl, layer]
      exact others.heads ch way same some
    · rw [goesOn.limit]
      exact Scheduler.setRetryLimit_other same

/-- A report that ends the request. -/
private theorem reportsOk_leaves (okF : FlashOk c s) (ok : ∀ ch way, ReportsOk s l ch way)
    (real : s.scheduler.headReq chNo wayNo ≠ reqSlotTagNone) (leaves : Leaves c s t chNo wayNo)
    (next : Retry.next (s.job chNo wayNo) a = some .finished) :
    ∀ ch way, ReportsOk t ((l.setCurrent chNo wayNo []).addLeft chNo wayNo (l.current chNo wayNo ++ [a]))
      ch way := by
  intro ch way
  by_cases same : (ch, way) = (chNo, wayNo)
  · obtain ⟨rfl, rfl⟩ := Prod.mk.inj same
    have limit : t.scheduler.retryLimit ch way = retryLimit := by
      rw [leaves.limit]
      simp [Scheduler.setRetryLimit]
    obtain ⟨first, before⟩ := (ok ch way).current _ (Scheduler.headReqCode_of_real real)
    refine ⟨fun _ => ⟨by simp, limit⟩, fun code _ => ⟨code.phase, Retry.pending_of_course ?_⟩, ?_⟩
    · rw [limit, DieReports.addLeft_current, DieReports.setCurrent_self]
      rfl
    · intro attempts listed
      rw [DieReports.addLeft_self, DieReports.setCurrent_left, List.mem_append, List.mem_singleton] at listed
      rcases listed with old | rfl
      · exact (ok ch way).left attempts old
      · refine ⟨first, Retry.finished_of_course ?_⟩
        rw [Retry.course_snoc, before.run]
        exact next
  · refine (ok ch way).kept (fun some => ?_) ?_ ?_ ?_
    · exact (getFromNandReqQ_keepsPhases okF.submission.slots leaves.layer).heads ch way same some
    · rw [leaves.limit]
      exact Scheduler.setRetryLimit_other same
    · rw [DieReports.addLeft_current, DieReports.setCurrent_other _ _ same]
    · rw [DieReports.addLeft_other _ _ same, DieReports.setCurrent_left]

/-- What a step leaves of the reports of every die, and what it does to the queues. -/
theorem reportStep_spec {input : FlashInput} (okF : FlashOk c s) (ok : ∀ ch way, ReportsOk s l ch way)
    (allowed : input.Allowed s) (done : reportStep c translate (s, l) input = some (t, l')) :
    (∀ ch way, ReportsOk t l' ch way) ∧
    ∀ queued queued', Dll.Holds reqSlotTagNone s.layer.queues.links queued →
      Dll.Holds reqSlotTagNone t.layer.queues.links queued' →
      ∀ ch way, DieStep s t l l' queued queued' input ch way := by
  simp only [reportStep, Option.bind_eq_bind, Option.bind_eq_some_iff, Option.some.injEq, Prod.mk.injEq] at done
  obtain ⟨t, done, rfl, rfl⟩ := done
  obtain ⟨queued₀, queues₀⟩ := okF.submission.slots.queued
  have appending : ∀ {l' : DieReports}, Appends c.geometry s.layer t.layer →
      t.scheduler.retryLimit = s.scheduler.retryLimit → l' = l →
      (∀ ch way, ReportsOk t l' ch way) ∧
      ∀ queued queued', Dll.Holds reqSlotTagNone s.layer.queues.links queued →
        Dll.Holds reqSlotTagNone t.layer.queues.links queued' →
        ∀ ch way, DieStep s t l l' queued queued' input ch way := by
    rintro l' appends limit rfl
    refine ⟨fun ch way => (ok ch way).kept (appends.keepsHeads ch way) (by rw [limit]) rfl rfl, ?_⟩
    intro queued queued' holds holds' ch way
    cases queues₀.holds.unique holds
    exact dieStep_of_appends (ok ch way) queues₀ holds' appends (by rw [limit]) rfl
  cases input with
  | execute chNo wayNo reqStatus =>
    have real : s.scheduler.headReq chNo wayNo ≠ reqSlotTagNone := allowed
    obtain ⟨xs, shape⟩ := queues₀.head_cons real
    rcases executeNandReq_job real done with ⟨none, layer, limit⟩ | ⟨a, reqCode, left, report, goesOn, next⟩ |
      ⟨a, report, leaves, next⟩
    · refine appending ?_ limit (by simp [DieReports.record, none])
      rw [layer]
      exact .refl queues₀
    · have still : t.layer.reqQueueType (s.scheduler.headReq chNo wayNo) = .nand := by
        rw [goesOn.layer]
        exact queues₀.typed (.nand chNo wayNo) _ (by simp [shape, Scheduler.headReq])
      have recorded : l.record s t (.execute chNo wayNo reqStatus) =
          l.setCurrent chNo wayNo (l.current chNo wayNo ++ [a]) := by
        simp only [DieReports.record, report, if_pos still]
      rw [recorded]
      have after := reportsOk_goesOn okF ok real goesOn next
      refine ⟨after, fun queued queued' holds holds' ch way => ?_⟩
      cases queues₀.holds.unique holds
      rw [goesOn.layer] at holds'
      cases queues₀.holds.unique holds'
      refine .stays (List.prefix_refl _) rfl fun empty => ((after ch way).empty ?_).2
      rw [Scheduler.headReqCode, show t.scheduler.layer = t.layer from rfl, goesOn.layer,
        headReqCode_eq (g := c.geometry) (s := s.layer.setReq _ _) queues₀, empty]
      rfl
    · have freed := getFromNandReqQ_frees okF.submission.slots leaves.layer
      have gone : t.layer.reqQueueType (s.scheduler.headReq chNo wayNo) ≠ .nand := by
        rw [Scheduler.headReq, freed]
        nofun
      have recorded : l.record s t (.execute chNo wayNo reqStatus) =
          (l.setCurrent chNo wayNo []).addLeft chNo wayNo (l.current chNo wayNo ++ [a]) := by
        simp only [DieReports.record, report, if_neg gone]
      rw [recorded]
      have after := reportsOk_leaves okF ok real leaves next
      refine ⟨after, fun queued queued' holds holds' ch way => ?_⟩
      cases queues₀.holds.unique holds
      obtain ⟨rest, first, queuedAfter, queuesAfter, mine, others⟩ := leaves.queues okF queues₀
      cases queuesAfter.holds.unique holds'
      by_cases same : (ch, way) = (chNo, wayNo)
      · obtain ⟨rfl, rfl⟩ := Prod.mk.inj same
        refine .leaves _ rest reqStatus a rfl report first mine (by simp) ?_
        rw [leaves.limit]
        simp [Scheduler.setRetryLimit]
      · refine .stays (others ch way same) ?_ fun empty => ?_
        · rw [DieReports.addLeft_other _ _ same, DieReports.setCurrent_left]
        · have head : s.scheduler.headReqCode ch way = none := by
            rw [Scheduler.headReqCode, headReqCode_eq queues₀, empty]
            rfl
          rw [leaves.limit, Scheduler.setRetryLimit_other same]
          exact ((ok ch way).empty head).2
  | _ =>
    obtain ⟨appends, limit⟩ := flashStep_appends okF allowed (fun _ _ _ => FlashInput.noConfusion) done
    exact appending appends limit rfl

theorem reportsOk_of_run {manager : BufferManager F} {phyBlock : PhyBlockMap} {inputs : List FlashInput}
    (run : Run (reportStep c translate) (fun p input => input.Allowed p.1)
      (initFlashFirmware c manager phyBlock, {}) inputs (s, l)) :
    FlashOk c s ∧ ∀ ch way, ReportsOk s l ch way := by
  apply run.invariant (fun p => FlashOk c p.1 ∧ ∀ ch way, ReportsOk p.1 p.2 ch way)
  · refine ⟨.init manager phyBlock, fun ch way => ⟨fun _ => ⟨rfl, rfl⟩, fun code some => ?_, by simp⟩⟩
    exact ⟨code.phase, Retry.pending_of_course rfl⟩
  · rintro ⟨s, l⟩ input ⟨t, l'⟩ ⟨okF, ok⟩ allowed done
    refine ⟨?_, (reportStep_spec okF ok allowed done).1⟩
    simp only [reportStep, Option.bind_eq_bind, Option.bind_eq_some_iff, Option.some.injEq, Prod.mk.injEq] at done
    obtain ⟨u, done, rfl, -⟩ := done
    exact okF.step allowed done

/-- In every run of the firmware, whatever the dies report: the first request of every die
has as many retries left as its own failures have not used, a die without a request has all
of them, and a request leaves the queue of its die once, when its reports are finished: the
next one finds all retries again. -/
theorem readRetry_of_run (manager : BufferManager F) (phyBlock : PhyBlockMap) {inputs : List FlashInput}
    (run : Run (reportStep c translate) (fun p input => input.Allowed p.1)
      (initFlashFirmware c manager phyBlock, {}) inputs (s, l)) :
    (∀ chNo wayNo, ReportsOk s l chNo wayNo) ∧
    ∀ input t l', input.Allowed s → reportStep c translate (s, l) input = some (t, l') →
      ∀ queued queued', Dll.Holds reqSlotTagNone s.layer.queues.links queued →
        Dll.Holds reqSlotTagNone t.layer.queues.links queued' →
        ∀ chNo wayNo, DieStep s t l l' queued queued' input chNo wayNo := by
  obtain ⟨flash, reports⟩ := reportsOk_of_run run
  exact ⟨reports, fun input t l' allowed done => (reportStep_spec flash reports allowed done).2⟩

/-- A WRITE fails, and the READ of its page five times: the sixth failure is the last one. -/
theorem readRetry_of_run_fiveRetries :
    ∃ s l, Run (reportStep tinyFlash (translateSlice tinyFlash.geometry)) (fun p input => input.Allowed p.1)
      (initTinyFlash, {}) (driveOut ++ .execute 0 0 .fail :: readBack) (s, l) ∧
      l.left 0 0 = [[(.single, .fail)]] ∧ s.scheduler.retryLimit 0 0 = 0 ∧
      l.current 0 0 = (List.replicate 5 [(.trigger, .done), (.transfer, .fail)]).flatten ++ [(.trigger, .done)] ∧
      ReportsOk s l 0 0 ∧
      ∃ t l', reportStep tinyFlash (translateSlice tinyFlash.geometry) (s, l) (.execute 0 0 .fail) = some (t, l') ∧
        ∃ queued queued', Dll.Holds reqSlotTagNone s.layer.queues.links queued ∧
          Dll.Holds reqSlotTagNone t.layer.queues.links queued' ∧
          DieStep s t l l' queued queued' (.execute 0 0 .fail) 0 0 := by
  have done : (exec (reportStep tinyFlash (translateSlice tinyFlash.geometry)) (fun p input => input.Allowed p.1)
      (initTinyFlash, {}) (driveOut ++ .execute 0 0 .fail :: readBack)).any (fun p =>
        p.2.left 0 0 = [[(.single, .fail)]] ∧ p.1.scheduler.retryLimit 0 0 = 0 ∧
        p.2.current 0 0 =
          (List.replicate 5 [(.trigger, .done), (.transfer, .fail)]).flatten ++ [(.trigger, .done)] ∧
        p.1.scheduler.headReq 0 0 ≠ reqSlotTagNone ∧
        (reportStep tinyFlash (translateSlice tinyFlash.geometry) p (.execute 0 0 .fail)).isSome) = true := by
    decide +kernel
  obtain ⟨⟨s, l⟩, run, shown⟩ := run_of_exec_any done
  obtain ⟨left, none, reports, real, accepted⟩ := of_decide_eq_true shown
  obtain ⟨⟨t, l'⟩, step⟩ := Option.isSome_iff_exists.mp accepted
  have allowed : FlashInput.Allowed s (.execute 0 0 .fail) := real
  obtain ⟨state, steps⟩ := readRetry_of_run _ _ run
  obtain ⟨queued, queues⟩ := (reportsOk_of_run run).1.submission.slots.queued
  obtain ⟨queued', queues'⟩ := (reportsOk_of_run (run.snoc allowed step)).1.submission.slots.queued
  exact ⟨s, l, run, left, none, reports, state 0 0, t, l', step, queued, queued', queues.holds, queues'.holds,
    steps _ t l' allowed step queued queued' queues.holds queues'.holds 0 0⟩

end OcpFw
