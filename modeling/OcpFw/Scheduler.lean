import OcpFw.RequestLayer

/-! The NAND scheduler of `request_schedule.c`. The ways of a channel are in seven
lists that share the links of the ways; a pass over a channel takes ways to the lists
their requests belong to, checks what the hardware reports, and issues requests until
the controller is busy. What the hardware answers is an input. -/
namespace OcpFw

/-- `WAY_NONE`, which a 4-bit way field cannot tell from way 15. -/
def wayNone : Nat := 0xF

def retryLimit : Nat := 5

def bitErrorThresholdPerChunk : Nat := 24

inductive DieState where
  | idle
  | exe
  deriving DecidableEq

/-- The `REQ_STATUS_CHECK_OPT_*` values. -/
inductive ReqStatusCheckOpt where
  | none
  | check
  | report
  | completionFlag
  deriving DecidableEq

inductive ReqStatus where
  | running
  | done
  | fail
  | warning
  deriving DecidableEq

inductive ErrorInfo where
  | fail
  | pass
  | warning
  deriving DecidableEq

/-- `DIE_STATE_ENTRY` without its two links. -/
structure DieStateEntry where
  dieState : DieState := .idle
  reqStatusCheckOpt : ReqStatusCheckOpt := .none

/-- The lists of a `WAY_PRIORITY_ENTRY`. -/
inductive WayList where
  | idle
  | statusReport
  | readTrigger
  | write
  | readTransfer
  | erase
  | statusCheck
  deriving DecidableEq

/-- The words the hardware shows, each as a function of the number of words read so far:
the firmware cannot know what changes between two reads. -/
structure Hardware where
  readyBusy : Nat → Nat
  queueNotFull : Nat → Nat
  completeFlag : Nat → Nat
  statusReport : Nat → Nat
  errorInfo : Nat → Nat

def v2fWayReady (readyBusy wayNo : Nat) : Bool := (readyBusy >>> wayNo) &&& 1 ≠ 0

def v2fTransferComplete (completeFlag : Nat) : Bool := completeFlag &&& 1 ≠ 0

def v2fRequestReportDone (statusReport : Nat) : Bool := statusReport &&& 1 ≠ 0

def v2fEliminateReportDoneFlag (statusReport : Nat) : Nat := statusReport >>> 1

def v2fRequestComplete (statusReport : Nat) : Bool := statusReport &&& 0x60 = 0x60

def v2fRequestFail (statusReport : Nat) : Bool := statusReport &&& 3 ≠ 0

def v2fCrcValid (errorInformation : Nat) : Bool := errorInformation &&& 0x10000000 ≠ 0

def v2fWorstChunkErrorCount (errorInformation : Nat) : Nat := (errorInformation &&& 0xff0000) >>> 16

/-- The tables of `request_schedule.c` over the request layer. The links of the ways and
the ends of the lists of a channel are one table; `reads` counts the words read. -/
structure Scheduler where
  layer : RequestLayer
  wayPriority : Nat → Dll.Table WayList Nat
  dieState : Nat → Nat → DieStateEntry := fun _ _ => {}
  retryLimit : Nat → Nat → Nat := fun _ _ => OcpFw.retryLimit
  reads : Nat := 0

/-- `InitReqScheduler` after the initialization of the request layer: the ways of every
channel are chained in serial order in its idle list. -/
def initReqScheduler (g : Geometry) : Scheduler where
  layer := initRequestLayer g
  wayPriority _ :=
    { prev := fun wayNo => if wayNo = 0 then wayNone else (wayNo + 15) % 16
      next := fun wayNo => if wayNo + 1 = g.userWays then wayNone else (wayNo + 1) % 16
      head := fun k => if k = .idle then 0 else wayNone
      tail := fun k => if k = .idle then g.userWays - 1 else wayNone }

namespace Scheduler

/-! ### Fields -/

def headReq (s : Scheduler) (chNo wayNo : Nat) : Nat := s.layer.queues.links.head (.nand chNo wayNo)

def head (s : Scheduler) (chNo : Nat) (k : WayList) : Nat := (s.wayPriority chNo).head k

def nextWay (s : Scheduler) (chNo wayNo : Nat) : Nat := (s.wayPriority chNo).next wayNo

def setLayer (s : Scheduler) (layer : RequestLayer) : Scheduler := { s with layer := layer }

def setWayPriority (s : Scheduler) (chNo : Nat) (t : Dll.Table WayList Nat) : Scheduler :=
  { s with wayPriority := Function.update s.wayPriority chNo t }

def setDie (s : Scheduler) (chNo wayNo : Nat) (entry : DieStateEntry) : Scheduler :=
  { s with
    dieState := Function.update s.dieState chNo (Function.update (s.dieState chNo) wayNo entry) }

def setDieState (s : Scheduler) (chNo wayNo : Nat) (dieState : DieState) : Scheduler :=
  s.setDie chNo wayNo { s.dieState chNo wayNo with dieState := dieState }

def setCheckOpt (s : Scheduler) (chNo wayNo : Nat) (opt : ReqStatusCheckOpt) : Scheduler :=
  s.setDie chNo wayNo { s.dieState chNo wayNo with reqStatusCheckOpt := opt }

def setRetryLimit (s : Scheduler) (chNo wayNo limit : Nat) : Scheduler :=
  { s with
    retryLimit := Function.update s.retryLimit chNo
      (Function.update (s.retryLimit chNo) wayNo limit) }

/-- Read one word of the hardware. -/
def readWord (s : Scheduler) (word : Nat → Nat) : Nat × Scheduler :=
  (word s.reads, { s with reads := s.reads + 1 })

def v2fReadyBusyAsync (hw : Hardware) (s : Scheduler) : Nat × Scheduler := s.readWord hw.readyBusy

def v2fIsControllerBusy (hw : Hardware) (s : Scheduler) : Bool × Scheduler :=
  let (queueNotFull, s) := s.readWord hw.queueNotFull
  (queueNotFull = 0, s)

/-! ### The lists of ways -/

/-- What every `PutToNand*List` does. -/
def putToList (s : Scheduler) (k : WayList) (chNo wayNo : Nat) : Scheduler :=
  s.setWayPriority chNo ((s.wayPriority chNo).pushBack wayNone k wayNo)

/-- What every `Selectiv(e)GetFromNand*List` does. -/
def selectiveGetFromList (s : Scheduler) (k : WayList) (chNo wayNo : Nat) : Scheduler :=
  s.setWayPriority chNo ((s.wayPriority chNo).remove wayNone k wayNo)

def putToNandIdleList (s : Scheduler) := s.putToList .idle
def selectivGetFromNandIdleList (s : Scheduler) := s.selectiveGetFromList .idle
def putToNandStatusReportList (s : Scheduler) := s.putToList .statusReport
def selectivGetFromNandStatusReportList (s : Scheduler) := s.selectiveGetFromList .statusReport
def putToNandReadTriggerList (s : Scheduler) := s.putToList .readTrigger
def selectiveGetFromNandReadTriggerList (s : Scheduler) := s.selectiveGetFromList .readTrigger
def putToNandWriteList (s : Scheduler) := s.putToList .write
def selectiveGetFromNandWriteList (s : Scheduler) := s.selectiveGetFromList .write
def putToNandReadTransferList (s : Scheduler) := s.putToList .readTransfer
def selectiveGetFromNandReadTransferList (s : Scheduler) := s.selectiveGetFromList .readTransfer
def putToNandEraseList (s : Scheduler) := s.putToList .erase
def selectiveGetFromNandEraseList (s : Scheduler) := s.selectiveGetFromList .erase
def putToNandStatusCheckList (s : Scheduler) := s.putToList .statusCheck
def selectiveGetFromNandStatusCheckList (s : Scheduler) := s.selectiveGetFromList .statusCheck

def putToNandWayPriorityTable (s : Scheduler) (reqSlotTag chNo wayNo : Nat) : Option Scheduler :=
  match (s.layer.reqPool reqSlotTag).reqCode with
  | .read => some (s.putToNandReadTriggerList chNo wayNo)
  | .readTransfer => some (s.putToNandReadTransferList chNo wayNo)
  | .write => some (s.putToNandWriteList chNo wayNo)
  | .erase => some (s.putToNandEraseList chNo wayNo)
  | .reset | .setFeature => some (s.putToNandWriteList chNo wayNo)
  | _ => none

/-! ### One request -/

def checkEccErrorInfo (hw : Hardware) (s : Scheduler) (chNo wayNo : Nat) : ErrorInfo × Scheduler :=
  let req := s.layer.reqPool (s.headReq chNo wayNo)
  let (errorInfo0, s) := s.readWord hw.errorInfo
  let (errorInfo, s) := s.readWord hw.errorInfo
  if v2fCrcValid errorInfo then
    if req.nandEccWarning ∧ bitErrorThresholdPerChunk < v2fWorstChunkErrorCount errorInfo0 then
      (.warning, s)
    else (.pass, s)
  else (.fail, s)

/-- `CheckReqStatus`, which also moves the check option along. -/
def checkReqStatus (hw : Hardware) (s : Scheduler) (chNo wayNo : Nat) : ReqStatus × Scheduler :=
  let req := s.layer.reqPool (s.headReq chNo wayNo)
  match (s.dieState chNo wayNo).reqStatusCheckOpt with
  | .completionFlag =>
    let (completeFlag, s) := s.readWord hw.completeFlag
    if v2fTransferComplete completeFlag then
      if req.nandEcc then
        let (errorInfo, s) := s.checkEccErrorInfo hw chNo wayNo
        match errorInfo with
        | .warning => (.warning, s)
        | .fail => (.fail, s)
        | .pass => (.done, s)
      else (.done, s)
    else (.running, s)
  | .check => (.running, s.setCheckOpt chNo wayNo .report)
  | .report =>
    let (statusReport, s) := s.readWord hw.statusReport
    if v2fRequestReportDone statusReport then
      let status := v2fEliminateReportDoneFlag statusReport
      if v2fRequestComplete status then
        if v2fRequestFail status then (.fail, s)
        else (.done, s.setCheckOpt chNo wayNo .none)
      else (.running, s.setCheckOpt chNo wayNo .check)
    else (.running, s)
  | .none =>
    let (readyBusy, s) := s.v2fReadyBusyAsync hw
    if v2fWayReady readyBusy wayNo then (.done, s) else (.running, s)

/-- `IssueNandReq`, as far as the firmware's own state goes. -/
def issueNandReq (s : Scheduler) (chNo wayNo : Nat) : Option Scheduler :=
  match (s.layer.reqPool (s.headReq chNo wayNo)).reqCode with
  | .read | .write | .erase => some (s.setCheckOpt chNo wayNo .check)
  | .readTransfer => some (s.setCheckOpt chNo wayNo .completionFlag)
  | .reset | .setFeature => some (s.setCheckOpt chNo wayNo .none)
  | _ => none

/-- A request is finished for good: it leaves the queue of its die, which becomes idle. -/
def finishNandReq (g : Geometry) (s : Scheduler) (chNo wayNo : Nat) : Option Scheduler := do
  let s := s.setRetryLimit chNo wayNo OcpFw.retryLimit
  let layer ← s.layer.getFromNandReqQ g chNo wayNo
  some ((s.setLayer layer).setDieState chNo wayNo .idle)

/-- `ExecuteNandReq`; the marks left for bad blocks are not part of the model. -/
def executeNandReq (g : Geometry) (s : Scheduler) (chNo wayNo : Nat) (reqStatus : ReqStatus) :
    Option Scheduler :=
  let reqSlotTag := s.headReq chNo wayNo
  let req := s.layer.reqPool reqSlotTag
  let setReqCode (s : Scheduler) (reqCode : ReqCode) : Scheduler :=
    s.setLayer (s.layer.setReq reqSlotTag { req with reqCode := reqCode })
  match (s.dieState chNo wayNo).dieState with
  | .idle => do
    let s ← s.issueNandReq chNo wayNo
    some (s.setDieState chNo wayNo .exe)
  | .exe =>
    match reqStatus with
    | .done =>
      if req.reqCode = .read then some ((setReqCode s .readTransfer).setDieState chNo wayNo .idle)
      else s.finishNandReq g chNo wayNo
    | .fail =>
      if (req.reqCode = .read ∨ req.reqCode = .readTransfer) ∧ 0 < s.retryLimit chNo wayNo then
        let s := s.setRetryLimit chNo wayNo (s.retryLimit chNo wayNo - 1)
        some ((setReqCode s .read).setDieState chNo wayNo .idle)
      else s.finishNandReq g chNo wayNo
    | .warning => s.finishNandReq g chNo wayNo
    | .running => some s

/-! ### One pass over a channel

The loops follow the links, for at most the given number of turns; a list has at most
as many ways as the channel. -/

/-- Look for blocked requests when a way has nothing to do. -/
def releaseBlocked (g : Geometry) (s : Scheduler) (chNo wayNo : Nat) : Option Scheduler :=
  if s.headReq chNo wayNo = reqSlotTagNone then do
    let layer ← s.layer.releaseBlockedByRowAddrDepReq g chNo wayNo
    some (s.setLayer layer)
  else some s

/-- The first part: take idle ways to the lists of their requests, and count the others. -/
def selectIdleWays (g : Geometry) (chNo : Nat) :
    Nat → Scheduler → Nat → Nat → Option (Scheduler × Nat)
  | 0, s, _, waitWayCnt => some (s, waitWayCnt)
  | turns + 1, s, wayNo, waitWayCnt =>
    if wayNo = wayNone then some (s, waitWayCnt)
    else do
      let s ← s.releaseBlocked g chNo wayNo
      if s.headReq chNo wayNo ≠ reqSlotTagNone then
        let nextWay := s.nextWay chNo wayNo
        let s ← (s.selectivGetFromNandIdleList chNo wayNo).putToNandWayPriorityTable
          (s.headReq chNo wayNo) chNo wayNo
        selectIdleWays g chNo turns s nextWay waitWayCnt
      else selectIdleWays g chNo turns s (s.nextWay chNo wayNo) (waitWayCnt + 1)

/-- The second part: finish what the hardware reports done. -/
def checkStatusReports (g : Geometry) (hw : Hardware) (chNo readyBusy : Nat) :
    Nat → Scheduler → Nat → Nat → Option (Scheduler × Nat)
  | 0, s, _, waitWayCnt => some (s, waitWayCnt)
  | turns + 1, s, wayNo, waitWayCnt =>
    if wayNo = wayNone then some (s, waitWayCnt)
    else if v2fWayReady readyBusy wayNo then
      let (reqStatus, s) := s.checkReqStatus hw chNo wayNo
      if reqStatus ≠ .running then do
        let s ← s.executeNandReq g chNo wayNo reqStatus
        let nextWay := s.nextWay chNo wayNo
        let s ← (s.selectivGetFromNandStatusReportList chNo wayNo).releaseBlocked g chNo wayNo
        if s.headReq chNo wayNo ≠ reqSlotTagNone then
          let s ← s.putToNandWayPriorityTable (s.headReq chNo wayNo) chNo wayNo
          checkStatusReports g hw chNo readyBusy turns s nextWay waitWayCnt
        else
          checkStatusReports g hw chNo readyBusy turns (s.putToNandIdleList chNo wayNo) nextWay
            (waitWayCnt + 1)
      else if (s.dieState chNo wayNo).reqStatusCheckOpt = .check then
        let nextWay := s.nextWay chNo wayNo
        let s := (s.selectivGetFromNandStatusReportList chNo wayNo).putToNandStatusCheckList chNo wayNo
        checkStatusReports g hw chNo readyBusy turns s nextWay waitWayCnt
      else
        checkStatusReports g hw chNo readyBusy turns s (s.nextWay chNo wayNo) (waitWayCnt + 1)
    else checkStatusReports g hw chNo readyBusy turns s (s.nextWay chNo wayNo) (waitWayCnt + 1)

/-- Both parts, with the count `waitWayCnt` at the end of them. -/
def selectWays (g : Geometry) (hw : Hardware) (s : Scheduler) (chNo : Nat) :
    Option (Scheduler × Nat) := do
  let (s, waitWayCnt) ← selectIdleWays g chNo g.userWays s (s.head chNo .idle) 0
  if s.head chNo .statusReport ≠ wayNone then
    let (readyBusy, s) := s.v2fReadyBusyAsync hw
    checkStatusReports g hw chNo readyBusy g.userWays s (s.head chNo .statusReport) waitWayCnt
  else some (s, waitWayCnt)

/-- The third part begins with the status checks. The result is true when the pass
returns because the controller is busy. -/
def checkStatuses (hw : Hardware) (chNo readyBusy : Nat) :
    Nat → Scheduler → Nat → Bool × Scheduler
  | 0, s, _ => (false, s)
  | turns + 1, s, wayNo =>
    if wayNo = wayNone then (false, s)
    else if v2fWayReady readyBusy wayNo then
      let (_, s) := s.checkReqStatus hw chNo wayNo
      let s := (s.selectiveGetFromNandStatusCheckList chNo wayNo).putToNandStatusReportList chNo wayNo
      let (busy, s) := s.v2fIsControllerBusy hw
      if busy then (true, s)
      else checkStatuses hw chNo readyBusy turns s (s.nextWay chNo wayNo)
    else checkStatuses hw chNo readyBusy turns s (s.nextWay chNo wayNo)

/-- The loop that issues the requests of one list. -/
def issueWays (g : Geometry) (hw : Hardware) (chNo : Nat)
    (getFromList putToList : Scheduler → Nat → Nat → Scheduler) :
    Nat → Scheduler → Nat → Option (Bool × Scheduler)
  | 0, s, _ => some (false, s)
  | turns + 1, s, wayNo =>
    if wayNo = wayNone then some (false, s)
    else do
      let s ← s.executeNandReq g chNo wayNo .running
      let s := putToList (getFromList s chNo wayNo) chNo wayNo
      let (busy, s) := s.v2fIsControllerBusy hw
      if busy then some (true, s)
      else issueWays g hw chNo getFromList putToList turns s (s.nextWay chNo wayNo)

/-- The third part: issue requests by the priority of the flash operations. -/
def issueRequests (g : Geometry) (hw : Hardware) (s : Scheduler) (chNo : Nat) : Option Scheduler :=
  let (busy, s) := s.v2fIsControllerBusy hw
  if busy then some s
  else
    let (returned, s) :=
      if s.head chNo .statusCheck ≠ wayNone then
        let (readyBusy, s) := s.v2fReadyBusyAsync hw
        checkStatuses hw chNo readyBusy g.userWays s (s.head chNo .statusCheck)
      else (false, s)
    if returned then some s
    else do
      let (returned, s) ← issueWays g hw chNo selectiveGetFromNandReadTriggerList
        putToNandStatusCheckList g.userWays s (s.head chNo .readTrigger)
      if returned then some s
      else
        let (returned, s) ← issueWays g hw chNo selectiveGetFromNandEraseList
          putToNandStatusCheckList g.userWays s (s.head chNo .erase)
        if returned then some s
        else
          let (returned, s) ← issueWays g hw chNo selectiveGetFromNandWriteList
            putToNandStatusCheckList g.userWays s (s.head chNo .write)
          if returned then some s
          else
            let (_, s) ← issueWays g hw chNo selectiveGetFromNandReadTransferList
              putToNandStatusReportList g.userWays s (s.head chNo .readTransfer)
            some s

def schedulingNandReqPerCh (g : Geometry) (hw : Hardware) (s : Scheduler) (chNo : Nat) :
    Option Scheduler := do
  let (s, waitWayCnt) ← s.selectWays g hw chNo
  if waitWayCnt ≠ g.userWays then s.issueRequests g hw chNo else some s

end Scheduler
end OcpFw
