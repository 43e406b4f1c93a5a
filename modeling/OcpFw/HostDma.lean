import OcpFw.Geometry

/-! Requests and host DMA: the fields of a request pool entry that the modelled
code reads or writes, the address of a request's buffer, and the automatic DMA
commands a request is expanded into. The links and the queue type of an entry are
kept with the queues. -/
namespace OcpFw

/-- The `REQ_TYPE_*` values. -/
inductive ReqType where
  | slice
  | nand
  | nvmeDma
  deriving DecidableEq

/-- The `REQ_CODE_*` values. -/
inductive ReqCode where
  | write
  | read
  | readTransfer
  | erase
  | reset
  | setFeature
  | flush
  | rxDma
  | txDma
  deriving DecidableEq

/-- The `REQ_OPT_DATA_BUF_*` values. -/
inductive DataBufFormat where
  | entry
  | tempEntry
  | addr
  | none
  deriving DecidableEq

/-- The `REQ_OPT_NAND_ADDR_*` values. -/
inductive NandAddr where
  | vsa
  | phyOrg
  deriving DecidableEq

/-- `NVME_DMA_INFO`. -/
structure NvmeDmaInfo where
  startIndex : Nat := 0
  nvmeBlockOffset : Nat := 0
  numOfNvmeBlock : Nat := 0
  reqTail : Nat := 0
  overFlowCnt : Nat := 0

/-- `SSD_REQ_FORMAT`. The union `dataBufInfo` is one word, read as an entry or as
an address; the options that have two values are true for `CHECK` and for `ON`. -/
structure SsdReq where
  reqType : ReqType := .slice
  reqCode : ReqCode := .write
  nvmeCmdSlotTag : Nat := 0
  logicalSliceAddr : Nat := 0
  dataBufFormat : DataBufFormat := .entry
  nandAddr : NandAddr := .vsa
  nandEcc : Bool := true
  nandEccWarning : Bool := true
  rowAddrDependencyCheck : Bool := false
  dataBufInfo : Nat := 0
  nvmeDmaInfo : NvmeDmaInfo := {}
  virtualSliceAddr : Nat := 0
  physicalCh : Nat := 0
  physicalWay : Nat := 0
  programmedPageCnt : Nat := 0

/-! ### Buffer addresses -/

def availableDataBufferEntryCount (g : Geometry) : Nat := 16 * g.userDies

def availableTemporaryDataBufferEntryCount (g : Geometry) : Nat := g.userDies

def dataBufferBaseAddr : Nat := 0x10000000

def temporaryDataBufferBaseAddr (g : Geometry) : Nat :=
  dataBufferBaseAddr + availableDataBufferEntryCount g * bytesPerDataRegionOfSlice

def spareDataBufferBaseAddr (g : Geometry) : Nat :=
  temporaryDataBufferBaseAddr g +
    availableTemporaryDataBufferEntryCount g * bytesPerDataRegionOfSlice

def temporarySpareDataBufferBaseAddr (g : Geometry) : Nat :=
  spareDataBufferBaseAddr g + availableDataBufferEntryCount g * bytesPerSpareRegionOfSlice

def reservedDataBufferBaseAddr (g : Geometry) : Nat :=
  temporarySpareDataBufferBaseAddr g +
    availableTemporaryDataBufferEntryCount g * bytesPerSpareRegionOfSlice

/-- In 32-bit arithmetic; other request types and DMA requests without a data
buffer entry fail the assertions. -/
def generateDataBufAddr (g : Geometry) (req : SsdReq) : Option Nat :=
  match req.reqType with
  | .nand =>
    match req.dataBufFormat with
    | .entry => some ((dataBufferBaseAddr + req.dataBufInfo * bytesPerDataRegionOfSlice) % 2 ^ 32)
    | .tempEntry =>
      some ((temporaryDataBufferBaseAddr g + req.dataBufInfo * bytesPerDataRegionOfSlice) % 2 ^ 32)
    | .addr => some req.dataBufInfo
    | .none => some (reservedDataBufferBaseAddr g)
  | .nvmeDma =>
    match req.dataBufFormat with
    | .entry =>
      some ((dataBufferBaseAddr + req.dataBufInfo * bytesPerDataRegionOfSlice +
        req.nvmeDmaInfo.nvmeBlockOffset * bytesPerNvmeBlock) % 2 ^ 32)
    | _ => none
  | .slice => none

/-! ### Automatic DMA commands -/

inductive DmaDirection where
  | tx
  | rx
  deriving DecidableEq

/-- A command written to the FIFO of the host DMA engine. -/
structure AutoDma where
  dmaDirection : DmaDirection
  cmdSlotTag : Nat
  cmd4KBOffset : Nat
  devAddr : Nat
  deriving DecidableEq

/-- The 8-bit FIFO tails, their 32-bit overflow counters, and the commands written so far. -/
structure HostDma where
  fifoTail : DmaDirection → Nat := fun _ => 0
  overFlowCnt : DmaDirection → Nat := fun _ => 0
  commands : List AutoDma := []

namespace HostDma

/-- `set_auto_tx_dma` and `set_auto_rx_dma` once the FIFO has space; the wait for it
only reads the hardware's head again. -/
def setAutoDma (h : HostDma) (dir : DmaDirection) (cmdSlotTag cmd4KBOffset devAddr : Nat) :
    Option HostDma :=
  if cmd4KBOffset < 256 then
    let tempTail := h.fifoTail dir
    let tail := (tempTail + 1) % 256
    some
      { fifoTail := Function.update h.fifoTail dir tail
        overFlowCnt :=
          if tempTail > tail then Function.update h.overFlowCnt dir (inc32 (h.overFlowCnt dir))
          else h.overFlowCnt
        commands := h.commands ++ [⟨dir, cmdSlotTag, cmd4KBOffset, devAddr⟩] }
  else none

def setAutoTxDma (h : HostDma) (cmdSlotTag cmd4KBOffset devAddr : Nat) : Option HostDma :=
  h.setAutoDma .tx cmdSlotTag cmd4KBOffset devAddr

def setAutoRxDma (h : HostDma) (cmdSlotTag cmd4KBOffset devAddr : Nat) : Option HostDma :=
  h.setAutoDma .rx cmdSlotTag cmd4KBOffset devAddr

/-- One loop of `IssueNvmeDmaReq`: a command for each of the remaining NVMe blocks. -/
def setAutoDmas (setAutoDma : HostDma → Nat → Nat → Nat → Option HostDma) (cmdSlotTag : Nat)
    (h : HostDma) (dmaIndex devAddr : Nat) : Nat → Option HostDma
  | 0 => some h
  | numOfNvmeBlock + 1 => do
    let h ← setAutoDma h cmdSlotTag dmaIndex devAddr
    setAutoDmas setAutoDma cmdSlotTag h (inc32 dmaIndex)
      ((devAddr + bytesPerNvmeBlock) % 2 ^ 32) numOfNvmeBlock

end HostDma

/-- The request comes back with its `reqTail` and `overFlowCnt` recorded. -/
def issueNvmeDmaReq (g : Geometry) (h : HostDma) (req : SsdReq) : Option (SsdReq × HostDma) := do
  let info := req.nvmeDmaInfo
  let devAddr ← generateDataBufAddr g req
  match req.reqCode with
  | .rxDma =>
    let h ← HostDma.setAutoDmas HostDma.setAutoRxDma req.nvmeCmdSlotTag h info.startIndex devAddr
      info.numOfNvmeBlock
    some ({ req with nvmeDmaInfo :=
      { info with reqTail := h.fifoTail .rx, overFlowCnt := h.overFlowCnt .rx } }, h)
  | .txDma =>
    let h ← HostDma.setAutoDmas HostDma.setAutoTxDma req.nvmeCmdSlotTag h info.startIndex devAddr
      info.numOfNvmeBlock
    some ({ req with nvmeDmaInfo :=
      { info with reqTail := h.fifoTail .tx, overFlowCnt := h.overFlowCnt .tx } }, h)
  | _ => none

/-! ### When a request can be expanded -/

section Issue
variable {g : Geometry} {h : HostDma} {req : SsdReq}

/-- The loop runs to its end exactly when its last offset passes the assertion. -/
theorem setAutoDmas_isSome (dir : DmaDirection) (cmdSlotTag : Nat) (h : HostDma) (dmaIndex devAddr count : Nat)
    (fits : dmaIndex + count < 2 ^ 32) :
    (HostDma.setAutoDmas (·.setAutoDma dir) cmdSlotTag h dmaIndex devAddr count).isSome ↔
      ∀ i < count, dmaIndex + i < 256 := by
  induction count generalizing h dmaIndex devAddr with
  | zero => simp [HostDma.setAutoDmas]
  | succ count ih =>
    have next : inc32 dmaIndex = dmaIndex + 1 := inc32_of_lt (by omega)
    by_cases low : dmaIndex < 256
    · simp only [HostDma.setAutoDmas, HostDma.setAutoDma, low, ↓reduceIte, Option.bind_eq_bind,
        Option.bind_some, next]
      rw [ih _ _ _ (by omega)]
      constructor
      · intro rest i inside
        cases i with
        | zero => exact low
        | succ i =>
          have bound := rest i (by omega)
          omega
      · intro all i inside
        have bound := all (i + 1) (by omega)
        omega
    · have first : ¬ ∀ i < count + 1, dmaIndex + i < 256 := fun all => low (all 0 (by omega))
      rw [iff_false_intro first]
      simp [HostDma.setAutoDmas, HostDma.setAutoDma, low]

/-- A DMA request is expanded without a failed assertion exactly when every offset of
its blocks within the command is below 256. -/
theorem issueNvmeDmaReq_isSome (type : req.reqType = .nvmeDma) (format : req.dataBufFormat = .entry)
    (code : req.reqCode = .rxDma ∨ req.reqCode = .txDma)
    (fits : req.nvmeDmaInfo.startIndex + req.nvmeDmaInfo.numOfNvmeBlock < 2 ^ 32) :
    (issueNvmeDmaReq g h req).isSome ↔
      ∀ i < req.nvmeDmaInfo.numOfNvmeBlock, req.nvmeDmaInfo.startIndex + i < 256 := by
  have addr : ∃ devAddr, generateDataBufAddr g req = some devAddr := by
    simp [generateDataBufAddr, type, format]
  obtain ⟨devAddr, addr⟩ := addr
  rcases code with code | code
  · have loop := setAutoDmas_isSome .rx req.nvmeCmdSlotTag h _ devAddr _ fits
    change (HostDma.setAutoDmas HostDma.setAutoRxDma _ _ _ _ _).isSome ↔ _ at loop
    rw [← loop]
    simp only [issueNvmeDmaReq, addr, code, Option.bind_eq_bind, Option.bind_some]
    cases HostDma.setAutoDmas HostDma.setAutoRxDma req.nvmeCmdSlotTag h
      req.nvmeDmaInfo.startIndex devAddr req.nvmeDmaInfo.numOfNvmeBlock <;> simp
  · have loop := setAutoDmas_isSome .tx req.nvmeCmdSlotTag h _ devAddr _ fits
    change (HostDma.setAutoDmas HostDma.setAutoTxDma _ _ _ _ _).isSome ↔ _ at loop
    rw [← loop]
    simp only [issueNvmeDmaReq, addr, code, Option.bind_eq_bind, Option.bind_some]
    cases HostDma.setAutoDmas HostDma.setAutoTxDma req.nvmeCmdSlotTag h
      req.nvmeDmaInfo.startIndex devAddr req.nvmeDmaInfo.numOfNvmeBlock <;> simp

end Issue

end OcpFw
