import OcpFw.FlashSliceMap
import OcpFw.PhysicalBlocks
import OcpFw.Scheduler

/-! The firmware from the buffer manager down to the dies. Slices are consumed, their
requests submitted one after the other, and every die reports what became of its request:
`ExecuteNandReq` then goes on with the request, tries it again or gives it up. What a die
reports is an input. -/
namespace OcpFw

/-- The fields of `SSD_REQ_FORMAT` that only the row of a request is made of. -/
structure PhysicalRow where
  blockSpace : BlockSpace := .main
  physicalBlock : Nat := 0
  physicalPage : Nat := 0

/-- A request to be submitted, with these fields. -/
structure FlashRequest where
  req : SsdReq
  row : PhysicalRow := {}

def SsdReq.nandRowInfo (req : SsdReq) (row : PhysicalRow) : NandRowInfo where
  nandAddr := req.nandAddr
  blockSpace := row.blockSpace
  virtualSliceAddr := req.virtualSliceAddr
  physicalCh := req.physicalCh
  physicalWay := req.physicalWay
  physicalBlock := row.physicalBlock
  physicalPage := row.physicalPage

/-! ### Marks for failures -/

/-- Where a failure is recorded: the map of the physical blocks, `grownBadUpdate` of every die,
true for `BOOKED`, and the bytes the search for bad blocks looks at. -/
structure FailureMarks where
  phyBlock : PhyBlockMap
  grownBadUpdate : Nat → Bool := fun _ => false
  badCheck : Nat → Nat := fun _ => 0

namespace FailureMarks
variable (c : FlashConfig)

def updatePhyBlockMapForGrownBadBlock (m : FailureMarks) (dieNo phyBlockNo : Nat) : Option FailureMarks := do
  let entry ← m.phyBlock.entry c dieNo phyBlockNo
  let phyBlock ← m.phyBlock.setEntry c dieNo phyBlockNo { entry with bad := true }
  some { m with phyBlock, grownBadUpdate := Function.update m.grownBadUpdate dieNo true }

/-- `phyBlockNo` in `ExecuteNandReq`. -/
def phyBlockNoOfRow (rowAddr : Nat) : Nat :=
  rowAddr % lun1BaseAddr / pagesPerMlcBlock + rowAddr / lun1BaseAddr * totalBlocksPerLun

/-- The marks `ExecuteNandReq` leaves of a request before it retires it. -/
def markRequest (m : FailureMarks) (r : FlashRequest) (chNo wayNo : Nat) (reqStatus : ReqStatus) :
    Option FailureMarks := do
  let rowAddr ← generateNandRowAddr c m.phyBlock (r.req.nandRowInfo r.row)
  -- a request of the bad block detection
  let m :=
    if reqStatus = .fail ∧ r.req.nandEcc = false ∧ r.req.dataBufFormat = .addr then
      { m with badCheck := Function.update m.badCheck r.req.dataBufInfo pseudoBadBlockMark }
    else m
  m.updatePhyBlockMapForGrownBadBlock c (pcw2VdieTranslation c.geometry chNo wayNo) (phyBlockNoOfRow rowAddr)

end FailureMarks

/-! ### What a die reports -/

namespace Scheduler

/-- A FAIL of the first request of the die is not its last one. -/
def Retries (s : Scheduler) (chNo wayNo : Nat) : Prop :=
  let req := s.layer.reqPool (s.headReq chNo wayNo)
  (req.reqCode = .read ∨ req.reqCode = .readTransfer) ∧ 0 < s.retryLimit chNo wayNo

instance (s : Scheduler) (chNo wayNo : Nat) : Decidable (s.Retries chNo wayNo) := by
  unfold Retries
  infer_instance

/-- The branches of `ExecuteNandReq` that mark a block. -/
def Marks (s : Scheduler) (chNo wayNo : Nat) (reqStatus : ReqStatus) : Prop :=
  (s.dieState chNo wayNo).dieState = .exe ∧ (reqStatus = .warning ∨ reqStatus = .fail ∧ ¬ s.Retries chNo wayNo)

instance (s : Scheduler) (chNo wayNo : Nat) (reqStatus : ReqStatus) : Decidable (s.Marks chNo wayNo reqStatus) := by
  unfold Marks
  infer_instance

end Scheduler

/-- The scheduler over the request layer, the code above it with the requests it has yet to
submit, and the marks. `retries` counts how often the first request of a die was tried again;
no code reads it. -/
structure FlashFirmware (F : Type) where
  scheduler : Scheduler
  held : Finset Nat := ∅
  flight : Finset Nat := ∅
  row : Nat → PhysicalRow := fun _ => {}
  manager : BufferManager F
  pending : List FlashRequest := []
  marks : FailureMarks
  retries : Nat → Nat → Nat := fun _ _ => 0

namespace FlashFirmware
variable (c : FlashConfig)

abbrev layer (s : FlashFirmware F) : RequestLayer := s.scheduler.layer

def setLayer (s : FlashFirmware F) (layer : RequestLayer) : FlashFirmware F :=
  { s with scheduler := s.scheduler.setLayer layer }

/-- The first request of a die. -/
def headRequest (s : FlashFirmware F) (chNo wayNo : Nat) : FlashRequest :=
  let reqSlotTag := s.scheduler.headReq chNo wayNo
  ⟨s.layer.reqPool reqSlotTag, s.row reqSlotTag⟩

/-- `retries` after a die reported a status. -/
def retriesAfter (s : FlashFirmware F) (chNo wayNo : Nat) (reqStatus : ReqStatus) : Nat :=
  match (s.scheduler.dieState chNo wayNo).dieState, reqStatus with
  | .exe, .fail => if s.scheduler.Retries chNo wayNo then s.retries chNo wayNo + 1 else 0
  | .exe, .warning => 0
  | .exe, .done =>
    if (s.headRequest chNo wayNo).req.reqCode = .read then s.retries chNo wayNo else 0
  | _, _ => s.retries chNo wayNo

/-- `ExecuteNandReq` with its marks. -/
def executeNandReq (s : FlashFirmware F) (chNo wayNo : Nat) (reqStatus : ReqStatus) :
    Option (FlashFirmware F) := do
  let marks ←
    if s.scheduler.Marks chNo wayNo reqStatus then
      s.marks.markRequest c (s.headRequest chNo wayNo) chNo wayNo reqStatus
    else some s.marks
  let scheduler ← s.scheduler.executeNandReq c.geometry chNo wayNo reqStatus
  some { s with
    scheduler
    marks
    retries := Function.update s.retries chNo
      (Function.update (s.retries chNo) wayNo (s.retriesAfter chNo wayNo reqStatus)) }

end FlashFirmware

/-! ### Steps -/

/-- What happens in the firmware. A submission has two steps, and what goes on while it waits
is made of the other ones. -/
inductive FlashInput where
  | consume (slice : SliceReq)
  | request (op : RequestOp)
  | prepare (reqSlotTag : Nat)
  | select (reqSlotTag : Nat)
  | execute (chNo wayNo : Nat) (reqStatus : ReqStatus)

/-- `translate` is what consuming a slice does above the request layer, with the requests it
submits in their order. -/
def flashStep (c : FlashConfig)
    (translate : BufferManager F → SliceReq → Option (BufferManager F × List FlashRequest))
    (s : FlashFirmware F) : FlashInput → Option (FlashFirmware F)
  | .consume slice => do
    let (manager, requests) ← translate s.manager slice
    some { s with manager, pending := requests }
  | .request op => do
    let fw ← requestStep c.geometry ⟨s.layer, s.held⟩ op
    some { s.setLayer fw.layer with held := fw.held }
  | .prepare x =>
    match s.pending with
    | r :: rest =>
      if x ∈ s.held ∧ Submittable c.geometry r.req ∧ s.flight = ∅ then
        some { s.setLayer (s.layer.prepare x r.req) with
          held := s.held.erase x
          flight := {x}
          row := Function.update s.row x r.row
          pending := rest }
      else none
    | [] => none
  | .select x =>
    if x ∈ s.flight then do
      let layer ← s.layer.selectLowLevelReqQ c.geometry [] x
      some { s.setLayer layer with flight := s.flight.erase x }
    else none
  | .execute chNo wayNo reqStatus => s.executeNandReq c chNo wayNo reqStatus

/-- A slice is consumed when the requests of the one before are submitted; a die that reports
has a request. -/
def FlashInput.Allowed (s : FlashFirmware F) : FlashInput → Prop
  | consume _ => s.pending = [] ∧ s.flight = ∅
  | request (.alloc es) => es = [] ∧ s.flight = ∅
  | request (.putSlice ..) | request .getSlice => s.flight = ∅
  | request (.event (.nvmeDmaDone _)) | request (.event (.recheck ..)) => True
  | request _ => False
  | prepare _ | select _ => True
  | execute chNo wayNo _ => s.scheduler.headReq chNo wayNo ≠ reqSlotTagNone

instance FlashInput.instDecidableAllowed (s : FlashFirmware F) (input : FlashInput) :
    Decidable (input.Allowed s) := by
  unfold FlashInput.Allowed
  split <;> infer_instance

def initFlashFirmware (c : FlashConfig) (manager : BufferManager F) (phyBlock : PhyBlockMap) : FlashFirmware F where
  scheduler := initReqScheduler c.geometry
  manager := manager
  marks := { phyBlock := phyBlock }

/-! ### The code above the request layer -/

/-- The requests of `GarbageCollection` and `EraseBlock`; whose slice is copied, the request
layer does not look at. -/
def FlashReq.flashRequest (req : FlashReq) : FlashRequest where
  req :=
    match req with
    | .read virtualSliceAddr tempEntry =>
      { reqType := .nand
        reqCode := .read
        dataBufFormat := .tempEntry
        nandAddr := .vsa
        nandEcc := true
        nandEccWarning := false
        rowAddrDependencyCheck := true
        dataBufInfo := tempEntry
        virtualSliceAddr := virtualSliceAddr }
    | .write virtualSliceAddr tempEntry =>
      { reqType := .nand
        reqCode := .write
        dataBufFormat := .tempEntry
        nandAddr := .vsa
        nandEcc := true
        nandEccWarning := false
        rowAddrDependencyCheck := true
        dataBufInfo := tempEntry
        virtualSliceAddr := virtualSliceAddr }
    | .erase virtualSliceAddr programmedPageCnt =>
      { reqType := .nand
        reqCode := .erase
        dataBufFormat := .none
        nandAddr := .vsa
        rowAddrDependencyCheck := true
        virtualSliceAddr := virtualSliceAddr
        programmedPageCnt := programmedPageCnt }

/-- The loop body of `ReqTransSliceToLowLevel` over the maps of `address_translation.c`. What
the collector issues comes before the write back it makes room for. -/
def translateSlice (g : Geometry) (s : BufferManager Ftl) (slice : SliceReq) :
    Option (BufferManager Ftl × List FlashRequest) := do
  let s' ← s.reqTransSliceToLowLevel g (flashSliceMap g) slice
  let copies := s'.map.requests.drop s.map.requests.length
  let submitted := s'.submitted.drop s.submitted.length
  some (s', copies.map FlashReq.flashRequest ++ submitted.map fun r => { req := r.req })

theorem translateSlice_consumes {g : Geometry} {s s' : BufferManager Ftl} {slice : SliceReq}
    {requests : List FlashRequest} (done : translateSlice g s slice = some (s', requests)) :
    s.reqTransSliceToLowLevel g (flashSliceMap g) slice = some s' := by
  simp only [translateSlice, Option.bind_eq_bind, Option.bind_eq_some_iff, Option.some.injEq, Prod.mk.injEq] at done
  obtain ⟨t, done, rfl, -⟩ := done
  exact done

end OcpFw
