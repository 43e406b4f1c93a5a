import OcpFw.SchedulerRuns
import OcpFw.InterfaceTraces

/-! What the scheduler and the flash controller see of each other. The firmware clears the
words of a way, issues commands and reads the words; the controller executes the commands
of a way in order and some time later sets the done bit of the word a command named. -/
namespace OcpFw
open InterfaceTraces (onComponent)

/-! ### The controller -/

/-- The words of a way that commands report to. -/
inductive ReportWord where
  | statusReport
  | completeFlag
  deriving DecidableEq

def ReportWord.done (k : ReportWord) (word : Nat) : Bool :=
  match k with
  | .statusReport => v2fRequestReportDone word
  | .completeFlag => v2fTransferComplete word

/-- The command of a phase of a request, from `IssueNandReq`, or that of `V2FStatusCheckAsync`. -/
inductive FlashCommand where
  | nandReq (reqSlotTag : Nat) (reqCode : ReqCode)
  | statusCheck
  deriving DecidableEq

/-- The word a command names. -/
def FlashCommand.names : FlashCommand → Option ReportWord
  | .nandReq _ .readTransfer => some .completeFlag
  | .nandReq _ _ => none
  | .statusCheck => some .statusReport

/-- A way as the controller knows it: the commands that were ever issued to it, how many of
them are executed, which ones have reported, and the words in memory. For each word it is
kept which command has set its done bit since it was cleared. -/
structure NandWay where
  commands : List FlashCommand := []
  executed : Nat := 0
  reported : List Nat := []
  word : ReportWord → Nat := fun _ => 0
  errorInfo : Nat := 0
  reporter : ReportWord → Option Nat := fun _ => none

/-- What the firmware does at a way; handing a result to `ExecuteNandReq` is no access to
the controller, but stands here in its place among the others. -/
inductive WayAccess where
  | clear (k : ReportWord)
  | issue (command : FlashCommand)
  | read (k : ReportWord) (value : Nat)
  | readErrorInfo (value : Nat)
  | execute (reqSlotTag : Nat) (req : SsdReq) (reqStatus : ReqStatus)

/-- What the controller does at a way: execute the next command, or report for an executed
one. A transfer writes the error information with its report. -/
inductive WayMove where
  | execute
  | report (command value errorInfo : Nat)

namespace NandWay

/-- The word that a command, given by its position, names. -/
def named (w : NandWay) (i : Nat) : Option ReportWord := w.commands[i]?.bind FlashCommand.names

/-- The command was issued and names the word, but has not reported to it. -/
def Outstanding (w : NandWay) (k : ReportWord) (i : Nat) : Prop := w.named i = some k ∧ i ∉ w.reported

def clear (w : NandWay) (k : ReportWord) : NandWay :=
  { w with
    word := Function.update w.word k 0
    reporter := Function.update w.reporter k none }

def issue (w : NandWay) (command : FlashCommand) : NandWay :=
  { w with commands := w.commands ++ [command] }

def access (w : NandWay) : WayAccess → Option NandWay
  | .clear k => some (w.clear k)
  | .issue command => some (w.issue command)
  | .read k value => if w.word k = value then some w else none
  | .readErrorInfo value => if w.errorInfo = value then some w else none
  | .execute .. => some w

def move (w : NandWay) : WayMove → Option NandWay
  | .execute => if w.executed < w.commands.length then some { w with executed := w.executed + 1 } else none
  | .report i value errorInfo =>
    match w.named i with
    | some k =>
      if i < w.executed ∧ i ∉ w.reported ∧ k.done value then
        some { w with
          reported := i :: w.reported
          word := Function.update w.word k value
          errorInfo := if k = .completeFlag then errorInfo else w.errorInfo
          reporter := Function.update w.reporter k (some i) }
      else none
    | none => none

/-- The last request phase that was issued to the way. -/
def LastPhase (w : NandWay) (i reqSlotTag : Nat) (reqCode : ReqCode) : Prop :=
  w.commands[i]? = some (.nandReq reqSlotTag reqCode) ∧
    ∀ j > i, ∀ tag code, w.commands[j]? ≠ some (.nandReq tag code)

end NandWay

/-- What a word, with the error information, says about a request. -/
def ReportWord.result (k : ReportWord) (req : SsdReq) (word errorInfo : Nat) : ReqStatus :=
  if k.done word then
    match k with
    | .statusReport =>
      if v2fRequestComplete (v2fEliminateReportDoneFlag word) then
        if v2fRequestFail (v2fEliminateReportDoneFlag word) then .fail else .done
      else .running
    | .completeFlag =>
      if req.nandEcc then
        if v2fCrcValid errorInfo then
          if req.nandEccWarning ∧ bitErrorThresholdPerChunk < v2fWorstChunkErrorCount errorInfo then .warning
          else .done
        else .fail
      else .done
  else .running

/-- The result stands in a word whose done bit was set by a command that was issued after
the request's own phase was, or that is this phase, a transfer. -/
def NandWay.Reported (w : NandWay) (reqSlotTag : Nat) (req : SsdReq) (reqStatus : ReqStatus) : Prop :=
  ∃ phase report k, w.LastPhase phase reqSlotTag req.reqCode ∧ phase ≤ report ∧
    w.named report = some k ∧ w.reporter k = some report ∧ k.result req (w.word k) w.errorInfo = reqStatus

/-- A channel number and a way number with an access. -/
abbrev FlashAccess := (Nat × Nat) × WayAccess

/-- All ways, before the first command. -/
def initFlashController : Nat × Nat → NandWay := fun _ => {}

/-! ### The accesses of a pass -/

namespace Scheduler

def checkReqStatusAccesses (hw : Hardware) (s : Scheduler) (chNo wayNo : Nat) : List WayAccess :=
  let req := s.layer.reqPool (s.headReq chNo wayNo)
  match (s.dieState chNo wayNo).reqStatusCheckOpt with
  | .completionFlag =>
    let (completeFlag, s) := s.readWord hw.completeFlag
    let (errorInfo0, s) := s.readWord hw.errorInfo
    let (errorInfo, _) := s.readWord hw.errorInfo
    .read .completeFlag completeFlag ::
      if v2fTransferComplete completeFlag ∧ req.nandEcc then
        [.readErrorInfo errorInfo0, .readErrorInfo errorInfo]
      else []
  | .check => [.clear .statusReport, .issue .statusCheck]
  | .report => [.read .statusReport (s.readWord hw.statusReport).1]
  | .none => []

def issueNandReqAccesses (s : Scheduler) (chNo wayNo : Nat) : List WayAccess :=
  let reqSlotTag := s.headReq chNo wayNo
  match (s.layer.reqPool reqSlotTag).reqCode with
  | .readTransfer => [.clear .completeFlag, .issue (.nandReq reqSlotTag .readTransfer)]
  | reqCode => [.issue (.nandReq reqSlotTag reqCode)]

def executeNandReqAccesses (s : Scheduler) (chNo wayNo : Nat) (reqStatus : ReqStatus) : List WayAccess :=
  match (s.dieState chNo wayNo).dieState with
  | .idle => s.issueNandReqAccesses chNo wayNo
  | .exe =>
    let reqSlotTag := s.headReq chNo wayNo
    [.execute reqSlotTag (s.layer.reqPool reqSlotTag) reqStatus]

def checkStatusReportAccesses (hw : Hardware) (s : Scheduler) (chNo readyBusy wayNo : Nat) :
    List FlashAccess :=
  if v2fWayReady readyBusy wayNo then
    let checks := s.checkReqStatusAccesses hw chNo wayNo
    let (reqStatus, s) := s.checkReqStatus hw chNo wayNo
    (checks ++ if reqStatus ≠ .running then s.executeNandReqAccesses chNo wayNo reqStatus else []).map
      (Prod.mk (chNo, wayNo))
  else []

def checkStatusReportsAccesses (g : Geometry) (hw : Hardware) (chNo readyBusy : Nat) :
    Nat → Scheduler → Nat → List FlashAccess
  | 0, _, _ => []
  | turns + 1, s, wayNo =>
    if wayNo = wayNone then []
    else
      s.checkStatusReportAccesses hw chNo readyBusy wayNo ++
        match s.checkStatusReport g hw chNo readyBusy wayNo with
        | some (s, nextWay, _) => checkStatusReportsAccesses g hw chNo readyBusy turns s nextWay
        | none => []

def selectWaysAccesses (g : Geometry) (hw : Hardware) (s : Scheduler) (chNo : Nat) : List FlashAccess :=
  match selectIdleWays g chNo g.userWays s (s.head chNo .idle) 0 with
  | some (s, _) =>
    if s.head chNo .statusReport ≠ wayNone then
      let (readyBusy, s) := s.v2fReadyBusyAsync hw
      checkStatusReportsAccesses g hw chNo readyBusy g.userWays s (s.head chNo .statusReport)
    else []
  | none => []

def checkStatusesAccesses (hw : Hardware) (chNo readyBusy : Nat) :
    Nat → Scheduler → Nat → List FlashAccess
  | 0, _, _ => []
  | turns + 1, s, wayNo =>
    if wayNo = wayNone then []
    else if v2fWayReady readyBusy wayNo then
      let checks := (s.checkReqStatusAccesses hw chNo wayNo).map (Prod.mk (chNo, wayNo))
      let (_, s) := s.checkReqStatus hw chNo wayNo
      let s := (s.selectiveGetFromNandStatusCheckList chNo wayNo).putToNandStatusReportList chNo wayNo
      let (busy, s) := s.v2fIsControllerBusy hw
      checks ++
        if busy then [] else checkStatusesAccesses hw chNo readyBusy turns s (s.nextWay chNo wayNo)
    else checkStatusesAccesses hw chNo readyBusy turns s (s.nextWay chNo wayNo)

def issueAccesses (chNo : Nat) (s : Scheduler) (wayNo : Nat) : List FlashAccess :=
  (s.executeNandReqAccesses chNo wayNo .running).map (Prod.mk (chNo, wayNo))

def issueRequestsAccesses (g : Geometry) (hw : Hardware) (s : Scheduler) (chNo : Nat) : List FlashAccess :=
  let (busy, s) := s.v2fIsControllerBusy hw
  if busy then []
  else if s.head chNo .statusCheck ≠ wayNone then
    let (readyBusy, s) := s.v2fReadyBusyAsync hw
    let checks := checkStatusesAccesses hw chNo readyBusy g.userWays s (s.head chNo .statusCheck)
    let (returned, s) := checkStatuses hw chNo readyBusy g.userWays s (s.head chNo .statusCheck)
    checks ++ if returned then [] else issueInOrderRecords (issueAccesses chNo) g hw chNo issueOrder s
  else issueInOrderRecords (issueAccesses chNo) g hw chNo issueOrder s

def schedulingNandReqPerChAccesses (g : Geometry) (hw : Hardware) (s : Scheduler) (chNo : Nat) :
    List FlashAccess :=
  s.selectWaysAccesses g hw chNo ++
    match s.selectWays g hw chNo with
    | some (s, waitWayCnt) => if waitWayCnt ≠ g.userWays then s.issueRequestsAccesses g hw chNo else []
    | none => []

end Scheduler

/-- A scheduler with all accesses so far. -/
structure TracedScheduler where
  scheduler : Scheduler
  accesses : List FlashAccess := []

def SchedulerOp.accesses (g : Geometry) (s : Scheduler) : SchedulerOp → List FlashAccess
  | .pass chNo hw => s.schedulingNandReqPerChAccesses g hw chNo
  | .append _ => []

def tracedStep (g : Geometry) (s : TracedScheduler) (op : SchedulerOp) : Option TracedScheduler :=
  (schedulerStep g s.scheduler op).map fun scheduler => ⟨scheduler, s.accesses ++ op.accesses g s.scheduler⟩

end OcpFw
