import OcpFw.BlockingChains

/-! The request layer of `request_transform.c`: buffer and row-address
dependencies, the choice of a queue for a submitted request, and the releases that
completions trigger. A fired assertion is `none`. What the hardware completes, and
when the scheduler rechecks a die, is the input of a step. -/
namespace OcpFw

/-- A block as the row-address dependency table indexes it. -/
structure BlockAddr where
  chNo : Nat
  wayNo : Nat
  blockNo : Nat
  deriving DecidableEq

/-- The die and the block of a virtual slice. -/
def blockAddr (g : Geometry) (virtualSliceAddr : Nat) : BlockAddr :=
  let dieNo := vsa2VdieTranslation g virtualSliceAddr
  ⟨vdie2PchTranslation g dieNo, vdie2PwayTranslation g dieNo,
    vsa2VblockTranslation g virtualSliceAddr⟩

/-- `ROW_ADDR_DEPENDENCY_ENTRY`: a 12-bit page, a 16-bit count and a flag. -/
structure RowAddrDependency where
  permittedProgPage : Nat := 0
  blockedReadReqCnt : Nat := 0
  blockedEraseReqFlag : Bool := false
  deriving DecidableEq

/-- The request layer. The last three fields are a history that no code reads: every
request submitted so far, which of them a slot holds, and the order in which
submitted requests entered a NAND queue. -/
structure RequestLayer where
  reqPool : Nat → SsdReq := fun _ => {}
  queues : RequestQueues
  blocking : BlockingLinks := {}
  rowAddrDependency : BlockAddr → RowAddrDependency := fun _ => {}
  hostDma : HostDma := {}
  submissions : List SsdReq := []
  submission : Nat → Nat := fun _ => 0
  started : List Nat := []

/-- `ROW_ADDR_DEPENDENCY_CHECK_OPT_*`. A check for a submission may have to wait for
the ERASE of the block; how that wait goes comes with the option. -/
inductive CheckRowAddrDepOpt where
  | select (syncReleaseEraseReq : RequestLayer → BlockAddr → Option RequestLayer)
  | release

namespace RequestLayer

abbrev reqQueueType (s : RequestLayer) (reqSlotTag : Nat) : ReqQueueType :=
  s.queues.reqQueueType reqSlotTag

def setQueues (s : RequestLayer) (queues : RequestQueues) : RequestLayer :=
  { s with queues := queues }

def setReq (s : RequestLayer) (reqSlotTag : Nat) (req : SsdReq) : RequestLayer :=
  { s with reqPool := Function.update s.reqPool reqSlotTag req }

def setDependency (s : RequestLayer) (b : BlockAddr) (d : RowAddrDependency) : RequestLayer :=
  { s with rowAddrDependency := Function.update s.rowAddrDependency b d }

/-- Enter a NAND queue, and the history. -/
def putToNandReqQ (s : RequestLayer) (reqSlotTag chNo wayNo : Nat) : RequestLayer :=
  { s with
    queues := s.queues.putToNandReqQ reqSlotTag chNo wayNo
    started := s.started ++ [s.submission reqSlotTag] }

def putToBlockedByRowAddrDepReqQ (s : RequestLayer) (reqSlotTag chNo wayNo : Nat) : RequestLayer :=
  s.setQueues (s.queues.putToBlockedByRowAddrDepReqQ reqSlotTag chNo wayNo)

/-- `CheckBufDep` reports PASS. -/
def CheckBufDep (s : RequestLayer) (reqSlotTag : Nat) : Prop :=
  s.blocking.prevBlockingReq reqSlotTag = reqSlotTagNone

instance (s : RequestLayer) (reqSlotTag : Nat) : Decidable (s.CheckBufDep reqSlotTag) := by
  unfold CheckBufDep
  infer_instance

/-- `CheckRowAddrDep`, whose result is true for PASS. -/
def checkRowAddrDep (g : Geometry) (s : RequestLayer) (reqSlotTag : Nat)
    (checkRowAddrDepOpt : CheckRowAddrDepOpt) : Option (Bool × RequestLayer) :=
  let req := s.reqPool reqSlotTag
  let b := blockAddr g req.virtualSliceAddr
  let pageNo := vsa2VpageTranslation g req.virtualSliceAddr
  let d := s.rowAddrDependency b
  if req.nandAddr = .vsa then
    match req.reqCode with
    | .read =>
      match checkRowAddrDepOpt with
      | .select syncReleaseEraseReq => do
        let s ← if d.blockedEraseReqFlag then syncReleaseEraseReq s b else some s
        let d := s.rowAddrDependency b
        if pageNo < d.permittedProgPage then some (true, s)
        else
          some (false, s.setDependency b { d with blockedReadReqCnt := inc16 d.blockedReadReqCnt })
      | .release =>
        if pageNo < d.permittedProgPage then
          some (true, s.setDependency b { d with blockedReadReqCnt := dec16 d.blockedReadReqCnt })
        else some (false, s)
    | .write =>
      if pageNo = d.permittedProgPage then
        some (true, s.setDependency b { d with permittedProgPage := inc12 d.permittedProgPage })
      else some (false, s)
    | .erase =>
      if d.permittedProgPage = req.programmedPageCnt ∧ d.blockedReadReqCnt = 0 then
        some (true,
          s.setDependency b { d with permittedProgPage := 0, blockedEraseReqFlag := false })
      else
        match checkRowAddrDepOpt with
        | .select _ => some (false, s.setDependency b { d with blockedEraseReqFlag := true })
        | .release => some (false, s)
    | _ => none
  else none

/-- The end of `SelectLowLevelReqQ` and of `ReleaseBlockedByBufDepReq` for a NAND
request: check the row-address dependency where asked to, and choose the queue. -/
def dispatchNandReq (g : Geometry) (s : RequestLayer) (reqSlotTag chNo wayNo : Nat)
    (checkRowAddrDepOpt : CheckRowAddrDepOpt) : Option RequestLayer :=
  if (s.reqPool reqSlotTag).rowAddrDependencyCheck then do
    let (pass, s) ← checkRowAddrDep g s reqSlotTag checkRowAddrDepOpt
    if pass then some (s.putToNandReqQ reqSlotTag chNo wayNo)
    else some (s.putToBlockedByRowAddrDepReqQ reqSlotTag chNo wayNo)
  else some (s.putToNandReqQ reqSlotTag chNo wayNo)

/-- `IssueNvmeDmaReq`, then `PutToNvmeDmaReqQ`. -/
def startNvmeDmaReq (g : Geometry) (s : RequestLayer) (reqSlotTag : Nat) : Option RequestLayer := do
  let (req, hostDma) ← issueNvmeDmaReq g s.hostDma (s.reqPool reqSlotTag)
  some
    { s with
      reqPool := Function.update s.reqPool reqSlotTag req
      hostDma := hostDma
      queues := s.queues.putToNvmeDmaReqQ reqSlotTag }

/-- Start a request that was taken out of the buffer-dependency queue. A slice request
matches no branch of the source. -/
def startReleasedReq (g : Geometry) (s : RequestLayer) (reqSlotTag : Nat) : Option RequestLayer :=
  let req := s.reqPool reqSlotTag
  match req.reqType with
  | .nvmeDma => s.startNvmeDmaReq g reqSlotTag
  | .nand =>
    match req.nandAddr with
    | .vsa =>
      let b := blockAddr g req.virtualSliceAddr
      s.dispatchNandReq g reqSlotTag b.chNo b.wayNo .release
    | .phyOrg => none
  | .slice => some s

def releaseBlockedByBufDepReq (g : Geometry) (s : RequestLayer) (reqSlotTag : Nat) :
    Option RequestLayer :=
  let (targetReqSlotTag, blocking) := s.blocking.splitAt (s.reqPool reqSlotTag).bufEntry reqSlotTag
  let s := { s with blocking := blocking }
  if targetReqSlotTag ≠ reqSlotTagNone ∧ s.reqQueueType targetReqSlotTag = .blockedByBufDep then
    (s.setQueues (s.queues.selectiveGetFromBlockedByBufDepReqQ targetReqSlotTag)).startReleasedReq g
      targetReqSlotTag
  else some s

/-- One turn of the loop of `ReleaseBlockedByRowAddrDepReq`. -/
def recheckRowAddrDep (g : Geometry) (s : RequestLayer) (reqSlotTag chNo wayNo : Nat) :
    Option RequestLayer :=
  if (s.reqPool reqSlotTag).rowAddrDependencyCheck then do
    let (pass, s) ← checkRowAddrDep g s reqSlotTag .release
    if pass then
      some ((s.setQueues (s.queues.selectiveGetFromBlockedByRowAddrDepReqQ reqSlotTag chNo
        wayNo)).putToNandReqQ reqSlotTag chNo wayNo)
    else some s
  else none

/-- The loop from a given slot on, for at most the given number of turns. -/
def scanBlockedByRowAddrDep (g : Geometry) (chNo wayNo : Nat) :
    Nat → RequestLayer → Nat → Option RequestLayer
  | 0, s, _ => some s
  | turns + 1, s, reqSlotTag =>
    if reqSlotTag = reqSlotTagNone then some s
    else do
      let nextReq := s.queues.links.next reqSlotTag
      let s ← s.recheckRowAddrDep g reqSlotTag chNo wayNo
      scanBlockedByRowAddrDep g chNo wayNo turns s nextReq

/-- A queue is never longer than the pool, so that many turns are enough. -/
def releaseBlockedByRowAddrDepReq (g : Geometry) (s : RequestLayer) (chNo wayNo : Nat) :
    Option RequestLayer :=
  scanBlockedByRowAddrDep g chNo wayNo (availableOutstandingReqCount g) s
    (s.queues.links.head (.blockedByRowAddrDep chNo wayNo))

/-- `GetFromFreeReqQ` once the free queue is not empty. -/
def getFromFreeReqQ (s : RequestLayer) : Nat × RequestLayer :=
  let (reqSlotTag, queues) := s.queues.getFromFreeReqQ
  (reqSlotTag, s.setQueues queues)

def selectiveGetFromNvmeDmaReqQ (g : Geometry) (s : RequestLayer) (reqSlotTag : Nat) :
    Option RequestLayer :=
  (s.setQueues (s.queues.selectiveGetFromNvmeDmaReqQ reqSlotTag)).releaseBlockedByBufDepReq g
    reqSlotTag

def getFromNandReqQ (g : Geometry) (s : RequestLayer) (chNo wayNo : Nat) :
    Option RequestLayer := do
  let (reqSlotTag, queues) ← s.queues.getFromNandReqQ chNo wayNo
  (s.setQueues queues).releaseBlockedByBufDepReq g reqSlotTag

/-! ### What happens while the firmware waits -/

/-- What `CheckDoneNvmeDmaReq` and `SchedulingNandReq` do to the request layer: retire a
finished DMA request, retire the first request of a die, change the phase of a READ at
the head of a die (`ExecuteNandReq`), and recheck a die with an empty NAND queue. -/
inductive Event where
  | nvmeDmaDone (reqSlotTag : Nat)
  | nandDone (chNo wayNo : Nat)
  | readPhase (chNo wayNo : Nat) (transfer : Bool)
  | recheck (chNo wayNo : Nat)

def event (g : Geometry) (s : RequestLayer) : Event → Option RequestLayer
  | .nvmeDmaDone reqSlotTag =>
    if s.reqQueueType reqSlotTag = .nvmeDma then s.selectiveGetFromNvmeDmaReqQ g reqSlotTag else none
  | .nandDone chNo wayNo => s.getFromNandReqQ g chNo wayNo
  | .readPhase chNo wayNo transfer =>
    let reqSlotTag := s.queues.links.head (.nand chNo wayNo)
    let req := s.reqPool reqSlotTag
    if reqSlotTag ≠ reqSlotTagNone ∧ (req.reqCode = .read ∨ req.reqCode = .readTransfer) then
      some (s.setReq reqSlotTag { req with reqCode := if transfer then .readTransfer else .read })
    else none
  | .recheck chNo wayNo =>
    if s.queues.links.head (.nand chNo wayNo) = reqSlotTagNone then
      s.releaseBlockedByRowAddrDepReq g chNo wayNo
    else none

def events (g : Geometry) (s : RequestLayer) (es : List Event) : Option RequestLayer :=
  es.foldlM (event g) s

/-- `SyncReleaseEraseReq`, given what happens until the flag is found clear. -/
def syncReleaseEraseReq (g : Geometry) (es : List Event) (s : RequestLayer) (b : BlockAddr) :
    Option RequestLayer :=
  if (s.rowAddrDependency b).blockedEraseReqFlag then do
    let s ← s.events g es
    if (s.rowAddrDependency b).blockedEraseReqFlag then none else some s
  else some s

/-- `SyncAvailFreeReq`, given what happens until a slot is free. -/
def syncAvailFreeReq (g : Geometry) (es : List Event) (s : RequestLayer) : Option RequestLayer :=
  if s.queues.links.head .free = reqSlotTagNone then do
    let s ← s.events g es
    if s.queues.links.head .free = reqSlotTagNone then none else some s
  else some s

/-- The loop condition of `SyncAllLowLevelReqDone` is false. -/
def LowLevelReqDone (s : RequestLayer) : Prop :=
  s.queues.links.head .nvmeDma = reqSlotTagNone ∧ s.queues.notCompletedNandReqCnt = 0 ∧
    s.queues.blockedReqCnt = 0

instance (s : RequestLayer) : Decidable s.LowLevelReqDone := by
  unfold LowLevelReqDone
  infer_instance

/-- `SyncAllLowLevelReqDone`, given what happens until everything is done. -/
def syncAllLowLevelReqDone (g : Geometry) (es : List Event) (s : RequestLayer) :
    Option RequestLayer :=
  if s.LowLevelReqDone then some s
  else do
    let s ← s.events g es
    if s.LowLevelReqDone then some s else none

/-! ### Submission -/

/-- `UpdateRowAddrDepTableForBufBlockedReq`; the result is true for the report SYNC,
where the request was given its queue here. -/
def updateRowAddrDepTableForBufBlockedReq (g : Geometry) (es : List Event) (s : RequestLayer)
    (reqSlotTag : Nat) : Option (Bool × RequestLayer) :=
  let req := s.reqPool reqSlotTag
  let b := blockAddr g req.virtualSliceAddr
  let pageNo := vsa2VpageTranslation g req.virtualSliceAddr
  let countRead (s : RequestLayer) : RequestLayer :=
    let d := s.rowAddrDependency b
    s.setDependency b { d with blockedReadReqCnt := inc16 d.blockedReadReqCnt }
  if req.nandAddr = .vsa then
    match req.reqCode with
    | .read =>
      if (s.rowAddrDependency b).blockedEraseReqFlag then do
        let s ← s.syncReleaseEraseReq g es b
        if s.CheckBufDep reqSlotTag then
          if pageNo < (s.rowAddrDependency b).permittedProgPage then
            some (true, s.putToNandReqQ reqSlotTag b.chNo b.wayNo)
          else
            some (true, (countRead s).putToBlockedByRowAddrDepReqQ reqSlotTag b.chNo b.wayNo)
        else some (false, countRead s)
      else some (false, countRead s)
    | .erase =>
      let d := s.rowAddrDependency b
      some (false, s.setDependency b { d with blockedEraseReqFlag := true })
    | _ => some (false, s)
  else none

/-- The die a NAND request goes to. -/
def nandDie (g : Geometry) (req : SsdReq) : Nat × Nat :=
  match req.nandAddr with
  | .vsa =>
    let b := blockAddr g req.virtualSliceAddr
    (b.chNo, b.wayNo)
  | .phyOrg => (req.physicalCh, req.physicalWay)

/-- `SelectLowLevelReqQ`; a request that waits for an ERASE does so through `es`. -/
def selectLowLevelReqQ (g : Geometry) (es : List Event) (s : RequestLayer) (reqSlotTag : Nat) :
    Option RequestLayer :=
  let req := s.reqPool reqSlotTag
  if s.CheckBufDep reqSlotTag then
    match req.reqType with
    | .nvmeDma => s.startNvmeDmaReq g reqSlotTag
    | .nand =>
      let (chNo, wayNo) := nandDie g req
      s.dispatchNandReq g reqSlotTag chNo wayNo (.select (syncReleaseEraseReq g es))
    | .slice => none
  else if req.reqType = .nand ∧ req.rowAddrDependencyCheck then do
    let (sync, s) ← s.updateRowAddrDepTableForBufBlockedReq g es reqSlotTag
    if sync then some s
    else some (s.setQueues (s.queues.putToBlockedByBufDepReqQ reqSlotTag))
  else some (s.setQueues (s.queues.putToBlockedByBufDepReqQ reqSlotTag))

/-- What every caller of `SelectLowLevelReqQ` does first: fill in the slot and attach it
to its buffer entry. The submission is recorded in the history. -/
def prepare (s : RequestLayer) (reqSlotTag : Nat) (req : SsdReq) : RequestLayer :=
  { s with
    reqPool := Function.update s.reqPool reqSlotTag req
    blocking := s.blocking.attach req reqSlotTag
    submissions := s.submissions ++ [req]
    submission := Function.update s.submission reqSlotTag s.submissions.length }

end RequestLayer

/-- After `InitReqPool`, `InitDependencyTable` and `InitDataBuf`. -/
def initRequestLayer (g : Geometry) : RequestLayer where
  queues := RequestQueues.initReqPool g

/-! ### The firmware above the request layer -/

/-- The request layer and the slots whose tags the running code holds. -/
structure Firmware where
  layer : RequestLayer
  held : Finset Nat

/-- The operations the firmware performs on the request layer. `alloc` is
`GetFromFreeReqQ`; `submit` is the end of every function that issues a request. -/
inductive RequestOp where
  | alloc (es : List RequestLayer.Event)
  | putSlice (reqSlotTag : Nat) (req : SsdReq)
  | getSlice
  | submit (reqSlotTag : Nat) (req : SsdReq) (es : List RequestLayer.Event)
  | syncAll (es : List RequestLayer.Event)
  | event (e : RequestLayer.Event)

/-- The submissions the firmware makes: NVMe DMA and NAND requests, physical addresses
within the device. -/
def Submittable (g : Geometry) (req : SsdReq) : Prop :=
  req.reqType ≠ .slice ∧
    (req.nandAddr = .phyOrg → req.physicalCh < g.userChannels ∧ req.physicalWay < g.userWays)

instance (g : Geometry) (req : SsdReq) : Decidable (Submittable g req) := by
  unfold Submittable
  infer_instance

/-- One operation. A tag is given back to the code that holds it, or taken from it. -/
def requestStep (g : Geometry) (fw : Firmware) : RequestOp → Option Firmware
  | .alloc es => do
    let s ← fw.layer.syncAvailFreeReq g es
    let (reqSlotTag, s) := s.getFromFreeReqQ
    some ⟨s, insert reqSlotTag fw.held⟩
  | .putSlice reqSlotTag req =>
    if reqSlotTag ∈ fw.held then
      let s := fw.layer.setReq reqSlotTag req
      some ⟨s.setQueues (s.queues.putToSliceReqQ reqSlotTag), fw.held.erase reqSlotTag⟩
    else none
  | .getSlice =>
    match fw.layer.queues.getFromSliceReqQ with
    | some (reqSlotTag, queues) => some ⟨fw.layer.setQueues queues, insert reqSlotTag fw.held⟩
    | none => some fw
  | .submit reqSlotTag req es =>
    if reqSlotTag ∈ fw.held ∧ Submittable g req then do
      let s ← (fw.layer.prepare reqSlotTag req).selectLowLevelReqQ g es reqSlotTag
      some ⟨s, fw.held.erase reqSlotTag⟩
    else none
  | .syncAll es => do
    let s ← fw.layer.syncAllLowLevelReqDone g es
    some ⟨s, fw.held⟩
  | .event e => do
    let s ← fw.layer.event g e
    some ⟨s, fw.held⟩

def initFirmware (g : Geometry) : Firmware := ⟨initRequestLayer g, ∅⟩

end OcpFw
