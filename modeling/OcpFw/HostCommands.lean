import OcpFw.RequestLayer

/-! NVMe read and write commands. A handler checks a command and splits it at slice
boundaries; every slice takes a request slot, which waits in the slice queue until the
data buffer manager turns it into a DMA request. -/
namespace OcpFw

/-! ### Commands -/

/-- The words of an `NVME_IO_COMMAND` the handlers read; a PRP is two words, low word first. -/
structure NvmeIoCommand where
  prp1 : Nat × Nat := (0, 0)
  prp2 : Nat × Nat := (0, 0)
  dword10 : Nat
  dword11 : Nat := 0
  dword12 : Nat

namespace NvmeIoCommand

/-- The low word of the starting LBA. -/
def startLba (cmd : NvmeIoCommand) : Nat := cmd.dword10

/-- The 16-bit number of logical blocks, counted from zero. -/
def nlb (cmd : NvmeIoCommand) : Nat := cmd.dword12 % 65536

end NvmeIoCommand

/-- `STORAGE_CAPACITY_H` -/
def storageCapacityH : Nat := 0

/-! ### Slices -/

/-- What `ReqTransNvmeToSlice` writes into a request slot. -/
structure SliceReq where
  reqCode : ReqCode
  nvmeCmdSlotTag : Nat := 0
  logicalSliceAddr : Nat
  startIndex : Nat := 0
  nvmeBlockOffset : Nat
  numOfNvmeBlock : Nat
  deriving DecidableEq

namespace SliceReq

/-- The slot after its fields were written; the others keep what the last user left. -/
def fill (slice : SliceReq) (req : SsdReq) : SsdReq :=
  { req with
    reqType := .slice
    reqCode := slice.reqCode
    nvmeCmdSlotTag := slice.nvmeCmdSlotTag
    logicalSliceAddr := slice.logicalSliceAddr
    nvmeDmaInfo :=
      { req.nvmeDmaInfo with
        startIndex := slice.startIndex
        nvmeBlockOffset := slice.nvmeBlockOffset
        numOfNvmeBlock := slice.numOfNvmeBlock } }

/-- The code of the DMA request a slice becomes; other codes fail the assertion. -/
def dmaCode (slice : SliceReq) : Option ReqCode :=
  match slice.reqCode with
  | .write => some .rxDma
  | .read => some .txDma
  | _ => none

/-- The slot after `ReqTransSliceToLowLevel` replaced the slice by its DMA request. -/
def dmaReq (slice : SliceReq) (req : SsdReq) (dataBufEntry : Nat) : Option SsdReq := do
  let reqCode ← slice.dmaCode
  some
    { slice.fill req with
      reqType := .nvmeDma
      reqCode := reqCode
      dataBufFormat := .entry
      dataBufInfo := dataBufEntry }

end SliceReq

/-- The fields a slice is given, each with the width it has in the slot. -/
def sliceReq (reqCode : ReqCode) (cmdSlotTag tempLsa nvmeDmaStartIndex nvmeBlockOffset
    tempNumOfNvmeBlock : Nat) : SliceReq where
  reqCode := reqCode
  nvmeCmdSlotTag := cmdSlotTag % 65536
  logicalSliceAddr := tempLsa
  startIndex := nvmeDmaStartIndex % 65536
  nvmeBlockOffset := nvmeBlockOffset % 65536
  numOfNvmeBlock := tempNumOfNvmeBlock % 65536

/-- The slice for the blocks behind the last boundary, if there are any. -/
def lastTransform (slice : Nat → Nat → Nat → Nat → SliceReq) (tempNumOfNvmeBlock loop tempLsa
    nvmeDmaStartIndex : Nat) : List SliceReq :=
  if tempNumOfNvmeBlock = 0 ∨ loop = 0 then []
  else [slice tempLsa nvmeDmaStartIndex 0 tempNumOfNvmeBlock]

/-- The loop over whole slices, and what comes after it. -/
def transformContinue (slice : Nat → Nat → Nat → Nat → SliceReq) (last : Nat → Nat → List SliceReq) :
    Nat → Nat → Nat → List SliceReq
  | 0, tempLsa, nvmeDmaStartIndex => last tempLsa nvmeDmaStartIndex
  | left + 1, tempLsa, nvmeDmaStartIndex =>
    slice tempLsa nvmeDmaStartIndex 0 nvmeBlocksPerSlice ::
      transformContinue slice last left (inc32 tempLsa)
        ((nvmeDmaStartIndex + nvmeBlocksPerSlice) % 2 ^ 32)

/-- The slices of `ReqTransNvmeToSlice` in order: the first one up to a slice boundary,
whole ones, and the rest. -/
def reqTransNvmeToSlice (cmdSlotTag startLba nlb : Nat) (reqCode : ReqCode) : List SliceReq :=
  let requestedNvmeBlock := inc32 nlb
  let tempLsa := startLba / nvmeBlocksPerSlice
  let loop := (startLba % nvmeBlocksPerSlice + requestedNvmeBlock) % 2 ^ 32 / nvmeBlocksPerSlice
  let slice := sliceReq reqCode cmdSlotTag
  let nvmeBlockOffset := startLba % nvmeBlocksPerSlice
  let tempNumOfNvmeBlock :=
    if loop ≠ 0 then nvmeBlocksPerSlice - nvmeBlockOffset else requestedNvmeBlock
  let lastNumOfNvmeBlock := (startLba + requestedNvmeBlock) % 2 ^ 32 % nvmeBlocksPerSlice
  slice tempLsa 0 nvmeBlockOffset tempNumOfNvmeBlock ::
    transformContinue slice (lastTransform slice lastNumOfNvmeBlock loop) (loop - 1) (inc32 tempLsa)
      tempNumOfNvmeBlock

namespace RequestLayer

/-- A slice takes a slot, waiting for one if it has to, and is put to the slice queue. -/
def putSliceReq (g : Geometry) (es : List Event) (s : RequestLayer) (slice : SliceReq) :
    Option RequestLayer := do
  let s ← s.syncAvailFreeReq g es
  let (reqSlotTag, s) := s.getFromFreeReqQ
  let s := s.setReq reqSlotTag (slice.fill (s.reqPool reqSlotTag))
  some (s.setQueues (s.queues.putToSliceReqQ reqSlotTag))

/-- The slices of a command one after the other; `waits` is what happens in each wait. -/
def putSliceReqs (g : Geometry) (waits : List SliceReq → List Event) (s : RequestLayer) :
    List SliceReq → Option RequestLayer
  | [] => some s
  | slice :: slices => do
    let s ← s.putSliceReq g (waits slices) slice
    s.putSliceReqs g waits slices

end RequestLayer

/-! ### Handlers -/

/-- What both handlers do; `none` is a failed assertion, and `prpMask` the bits a PRP must
not have. -/
def handleNvmeIo (prpMask : Nat) (cmdCode : ReqCode) (storageCapacityL cmdSlotTag : Nat)
    (cmd : NvmeIoCommand) : Option (List SliceReq) :=
  if cmd.dword10 < storageCapacityL ∧ (cmd.dword11 < storageCapacityH ∨ cmd.dword11 = 0) then
    if cmd.prp1.1 &&& prpMask = 0 ∧ cmd.prp2.1 &&& prpMask = 0 then
      if cmd.prp1.2 < 0x10000 ∧ cmd.prp2.2 < 0x10000 then
        some (reqTransNvmeToSlice cmdSlotTag cmd.startLba cmd.nlb cmdCode)
      else none
    else none
  else none

def handleNvmeIoRead := handleNvmeIo 0x3 .read

def handleNvmeIoWrite := handleNvmeIo 0xF .write

/-! ### The slices cover the command -/

section Cover
variable {reqCode : ReqCode} {cmdSlotTag lba index n m : Nat}

/-- Consecutive blocks, each with its index in the command. -/
def span (lba index n : Nat) : List (Nat × Nat) :=
  (List.range n).map fun i => (lba + i, index + i)

theorem span_add : span lba index (m + n) = span lba index m ++ span (lba + m) (index + m) n := by
  simp [span, List.range_add, Nat.add_assoc]

theorem mem_span {block : Nat × Nat} :
    block ∈ span lba index n ↔ ∃ i < n, block = (lba + i, index + i) := by
  simp [span, eq_comm]

/-- The blocks a slice touches. -/
def SliceReq.blocks (slice : SliceReq) : List (Nat × Nat) :=
  span (slice.logicalSliceAddr * nvmeBlocksPerSlice + slice.nvmeBlockOffset) slice.startIndex
    slice.numOfNvmeBlock

theorem blocksPerSlice_eq : nvmeBlocksPerSlice = 4 := by decide

/-- A slice within the widths of its fields. -/
theorem sliceReq_blocks {offset count : Nat} (indices : index < 65536) (inside : offset + count ≤ 4) :
    (sliceReq reqCode cmdSlotTag lba index offset count).blocks =
      span (lba * 4 + offset) index count := by
  have small : offset % 65536 = offset := Nat.mod_eq_of_lt (by omega)
  have few : count % 65536 = count := Nat.mod_eq_of_lt (by omega)
  simp only [SliceReq.blocks, sliceReq, blocksPerSlice_eq, Nat.mod_eq_of_lt indices, small, few]

/-- The whole slices touch consecutive blocks, up to those of the last slice. -/
theorem transformContinue_blocks {last : Nat → Nat → List SliceReq} (lsas : lba + n < 2 ^ 32)
    (indices : index + n * 4 ≤ 65536) :
    (transformContinue (sliceReq reqCode cmdSlotTag) last n lba index).flatMap SliceReq.blocks =
      span (lba * 4) index (n * 4) ++ (last (lba + n) (index + n * 4)).flatMap SliceReq.blocks := by
  induction n generalizing lba index with
  | zero => rfl
  | succ n ih =>
    have next : inc32 lba = lba + 1 := inc32_of_lt (by omega)
    have step : (index + 4) % 2 ^ 32 = index + 4 := Nat.mod_eq_of_lt (by omega)
    have total : (n + 1) * 4 = 4 + n * 4 := by omega
    have nextLba : (lba + 1) * 4 = lba * 4 + 4 := by omega
    have lastLsa : lba + 1 + n = lba + (n + 1) := by omega
    rw [transformContinue, List.flatMap_cons, blocksPerSlice_eq, next, step, ih (by omega) (by omega),
      sliceReq_blocks (by omega) (by omega), total, span_add, nextLba, lastLsa, List.append_assoc,
      Nat.add_assoc index]
    rfl

/-- The slices touch the blocks of the command in order, each once. -/
theorem reqTransNvmeToSlice_blocks {startLba nlb : Nat} (lba32 : startLba < 2 ^ 32)
    (nlb16 : nlb < 65536) :
    (reqTransNvmeToSlice cmdSlotTag startLba nlb reqCode).flatMap SliceReq.blocks =
      span startLba 0 (nlb + 1) := by
  have requested : inc32 nlb = nlb + 1 := inc32_of_lt (by omega)
  have sum : (startLba % 4 + (nlb + 1)) % 2 ^ 32 = startLba % 4 + (nlb + 1) :=
    Nat.mod_eq_of_lt (by omega)
  have lsa : inc32 (startLba / 4) = startLba / 4 + 1 := inc32_of_lt (by omega)
  have first : startLba / 4 * 4 + startLba % 4 = startLba := by omega
  simp only [reqTransNvmeToSlice, requested, blocksPerSlice_eq, sum, lsa]
  generalize loopIs : (startLba % 4 + (nlb + 1)) / 4 = loop
  cases loop with
  | zero =>
    rw [if_neg (by omega), List.flatMap_cons, sliceReq_blocks (by omega) (by omega), first]
    simp [transformContinue, lastTransform]
  | succ left =>
    rw [if_pos (by omega), Nat.add_sub_cancel, List.flatMap_cons,
      sliceReq_blocks (by omega) (by omega), first,
      transformContinue_blocks (by omega) (by omega)]
    generalize lastIs : (startLba + (nlb + 1)) % 2 ^ 32 % 4 = last
    have total : nlb + 1 = (4 - startLba % 4) + (left * 4 + last) := by omega
    have body : (startLba / 4 + 1) * 4 = startLba + (4 - startLba % 4) := by omega
    have tail : (startLba / 4 + 1 + left) * 4 + 0 = startLba + (4 - startLba % 4) + left * 4 := by omega
    rw [total, span_add, span_add, body, Nat.zero_add]
    congr 2
    by_cases whole : last = 0
    · simp [whole, lastTransform, span]
    · rw [lastTransform, if_neg (by omega), List.flatMap_singleton, sliceReq_blocks (by omega) (by omega), tail]

end Cover

end OcpFw
