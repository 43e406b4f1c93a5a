import OcpFw.Dll
import OcpFw.HostCommands

/-! The data buffer of `data_buffer.c`, and the buffer manager of `request_transform.c`
that turns slices into low-level requests. An entry is in the LRU list and, while it
belongs to a slice, in the hash list of that slice. -/
namespace OcpFw

/-- `DATA_BUF_NONE`, also the value of `DATA_BUF_FAIL` and `REQ_SLOT_TAG_NONE`. -/
def dataBufNone : Nat := 0xffff

def findDataBufHashTableEntry (entryCount logicalSliceAddr : Nat) : Nat :=
  logicalSliceAddr % entryCount

/-- `DATA_BUF_MAP` without the blocking requests, `DATA_BUF_LRU_LIST` and
`DATA_BUF_HASH_TABLE`; the two pairs of links are tables of lists. The number of entries,
`AVAILABLE_DATA_BUFFER_ENTRY_COUNT`, is a parameter of what follows. -/
structure DataBuf where
  logicalSliceAddr : Nat → Nat
  dirty : Nat → Bool
  lru : Dll.Table Unit Nat
  hash : Dll.Table Nat Nat

def initDataBuf (entryCount : Nat) : DataBuf where
  logicalSliceAddr _ := lsaNone
  dirty _ := false
  lru :=
    { prev := fun bufEntry => if bufEntry = 0 then dataBufNone else (bufEntry + 65535) % 65536
      next := fun bufEntry =>
        if bufEntry + 1 = entryCount then dataBufNone else (bufEntry + 1) % 65536
      head := fun _ => 0
      tail := fun _ => entryCount - 1 }
  hash :=
    { prev := fun _ => dataBufNone
      next := fun _ => dataBufNone
      head := fun _ => dataBufNone
      tail := fun _ => dataBufNone }

namespace DataBuf

def setLsa (s : DataBuf) (bufEntry logicalSliceAddr : Nat) : DataBuf :=
  { s with logicalSliceAddr := Function.update s.logicalSliceAddr bufEntry logicalSliceAddr }

def setDirty (s : DataBuf) (bufEntry : Nat) (dirty : Bool) : DataBuf :=
  { s with dirty := Function.update s.dirty bufEntry dirty }

/-! ### Lists -/

/-- The walk along a bucket in `CheckDataBufHit`, for at most the given number of turns. -/
def findInBucket (s : DataBuf) (logicalSliceAddr : Nat) : Nat → Nat → Option Nat
  | 0, _ => none
  | turns + 1, bufEntry =>
    if bufEntry = dataBufNone then none
    else if s.logicalSliceAddr bufEntry = logicalSliceAddr then some bufEntry
    else findInBucket s logicalSliceAddr turns (s.hash.next bufEntry)

/-- `CheckDataBufHit`; an entry that is found moves to the head of the LRU list. -/
def checkDataBufHit (entryCount : Nat) (s : DataBuf) (logicalSliceAddr : Nat) : Option (Nat × DataBuf) := do
  let bufEntry ← s.findInBucket logicalSliceAddr entryCount
    (s.hash.head (findDataBufHashTableEntry entryCount logicalSliceAddr))
  let removed := s.lru.remove dataBufNone () bufEntry
  some (bufEntry, { s with lru := removed.pushFront dataBufNone () bufEntry })

def putToDataBufHashList (entryCount : Nat) (s : DataBuf) (bufEntry : Nat) : DataBuf :=
  { s with
    hash := s.hash.pushBack dataBufNone
      (findDataBufHashTableEntry entryCount (s.logicalSliceAddr bufEntry)) bufEntry }

def selectiveGetFromDataBufHashList (entryCount : Nat) (s : DataBuf) (bufEntry : Nat) : DataBuf :=
  if s.logicalSliceAddr bufEntry ≠ lsaNone then
    { s with
      hash := s.hash.remove dataBufNone
        (findDataBufHashTableEntry entryCount (s.logicalSliceAddr bufEntry)) bufEntry }
  else s

/-- `AllocateDataBuf` -/
def allocateDataBuf (entryCount : Nat) (s : DataBuf) : Option (Nat × DataBuf) :=
  let evictedEntry := s.lru.tail ()
  let prevEntry := s.lru.prev evictedEntry
  let headEntry := s.lru.head ()
  if evictedEntry = dataBufNone then none
  else
    let lru : Dll.Table Unit Nat :=
      if prevEntry ≠ dataBufNone then
        { prev := Function.update (Function.update s.lru.prev evictedEntry dataBufNone) headEntry
            evictedEntry
          next := Function.update (Function.update s.lru.next prevEntry dataBufNone) evictedEntry
            headEntry
          head := fun _ => evictedEntry
          tail := fun _ => prevEntry }
      else
        { prev := Function.update s.lru.prev evictedEntry dataBufNone
          next := Function.update s.lru.next evictedEntry dataBufNone
          head := fun _ => evictedEntry
          tail := fun _ => evictedEntry }
    some (evictedEntry, selectiveGetFromDataBufHashList entryCount { s with lru := lru } evictedEntry)

/-- The buffer steps of `ReqTransSliceToLowLevel`: look the slice up, or recycle an entry
for it. -/
def bufEntryOf (entryCount : Nat) (s : DataBuf) (logicalSliceAddr : Nat) : Option (Nat × DataBuf) :=
  match s.checkDataBufHit entryCount logicalSliceAddr with
  | some hit => some hit
  | none => do
    let (bufEntry, s) ← s.allocateDataBuf entryCount
    some (bufEntry, (s.setLsa bufEntry logicalSliceAddr).putToDataBufHashList entryCount bufEntry)

/-- The buffer steps for a sequence of slices. -/
def bufEntriesOf (entryCount : Nat) (s : DataBuf) (logicalSliceAddrs : List Nat) : Option DataBuf :=
  logicalSliceAddrs.foldlM (fun s logicalSliceAddr => (s.bufEntryOf entryCount logicalSliceAddr).map (·.2)) s

end DataBuf

/-! ### The buffer manager -/

/-- The mapping layer as the buffer manager uses it; `none` is a failed assertion. -/
structure SliceMap (F : Type) where
  addrTransWrite : F → Nat → Option (Nat × F)
  addrTransRead : F → Nat → Option Nat

/-- A read finds the slice. -/
def SliceMap.Mapped (M : SliceMap F) (f : F) (lsa : Nat) : Prop :=
  ∃ vsa, M.addrTransRead f lsa = some vsa ∧ vsa ≠ vsaFail

instance (M : SliceMap F) (f : F) (lsa : Nat) : Decidable (M.Mapped f lsa) :=
  decidable_of_iff ((M.addrTransRead f lsa).any (fun vsa => decide (vsa ≠ vsaFail)) = true) (by
    simp [SliceMap.Mapped, Option.any_eq_true])

/-- A write of the slice maps it besides those mapped before, and no other one. -/
def SliceMap.MapsOnly (M : SliceMap F) (f : F) (lsa : Nat) : Prop :=
  ∀ vsa f', M.addrTransWrite f lsa = some (vsa, f') → ∀ lsa', M.Mapped f' lsa' ↔ lsa' = lsa ∨ M.Mapped f lsa'

/-- A mapping layer that behaves as a store by slice address. -/
structure SliceStore (F : Type) extends SliceMap F where
  mapsOnly : ∀ f lsa, toSliceMap.MapsOnly f lsa

/-- A submitted request, with the number of slices consumed before its own. -/
structure LowLevelReq where
  req : SsdReq
  slice : Nat

/-- The buffer tables, the mapping, and what was consumed and submitted so far. -/
structure BufferManager (F : Type) where
  buf : DataBuf
  map : F
  slices : List SliceReq := []
  submitted : List LowLevelReq := []

namespace BufferManager
variable (g : Geometry) (M : SliceMap F)

def setBuf (s : BufferManager F) (buf : DataBuf) : BufferManager F := { s with buf := buf }

/-- The end of every function that issues a request: `SelectLowLevelReqQ`. -/
def submit (s : BufferManager F) (req : SsdReq) : BufferManager F :=
  { s with submitted := s.submitted ++ [⟨req, s.slices.length⟩] }

def evictDataBufEntry (s : BufferManager F) (origin : SsdReq) : Option (BufferManager F) :=
  let dataBufEntry := origin.dataBufInfo
  if s.buf.dirty dataBufEntry then do
    let (virtualSliceAddr, map) ← M.addrTransWrite s.map (s.buf.logicalSliceAddr dataBufEntry)
    let s := submit { s with map := map }
      { reqType := .nand
        reqCode := .write
        nvmeCmdSlotTag := origin.nvmeCmdSlotTag
        logicalSliceAddr := s.buf.logicalSliceAddr dataBufEntry
        dataBufFormat := .entry
        nandAddr := .vsa
        nandEcc := true
        nandEccWarning := true
        rowAddrDependencyCheck := true
        dataBufInfo := dataBufEntry
        virtualSliceAddr := virtualSliceAddr }
    some (s.setBuf (s.buf.setDirty dataBufEntry false))
  else some s

def dataReadFromNand (s : BufferManager F) (origin : SsdReq) : Option (BufferManager F) := do
  let virtualSliceAddr ← M.addrTransRead s.map origin.logicalSliceAddr
  if virtualSliceAddr ≠ vsaFail then
    some (s.submit
      { reqType := .nand
        reqCode := .read
        nvmeCmdSlotTag := origin.nvmeCmdSlotTag
        logicalSliceAddr := origin.logicalSliceAddr
        dataBufFormat := .entry
        nandAddr := .vsa
        nandEcc := true
        nandEccWarning := true
        rowAddrDependencyCheck := true
        dataBufInfo := origin.dataBufInfo
        virtualSliceAddr := virtualSliceAddr })
  else some s

/-- The read of a slice that is not written as a whole. -/
def fillDataBufEntry (s : BufferManager F) (slice : SliceReq) (origin : SsdReq) : Option (BufferManager F) :=
  if slice.reqCode = .read then dataReadFromNand M s origin
  else if slice.reqCode = .write ∧ slice.numOfNvmeBlock ≠ nvmeBlocksPerSlice then
    dataReadFromNand M s origin
  else some s

/-- A miss: an entry is recycled for the slice, and filled unless all of it is written. -/
def missDataBuf (s : BufferManager F) (slice : SliceReq) : Option (Nat × BufferManager F) := do
  let (dataBufEntry, buf) ← s.buf.allocateDataBuf (availableDataBufferEntryCount g)
  let origin := { slice.fill {} with dataBufInfo := dataBufEntry }
  let s ← evictDataBufEntry M (s.setBuf buf) origin
  let s := s.setBuf ((s.buf.setLsa dataBufEntry slice.logicalSliceAddr).putToDataBufHashList
    (availableDataBufferEntryCount g) dataBufEntry)
  let s ← fillDataBufEntry M s slice origin
  some (dataBufEntry, s)

/-- A written slice leaves its entry dirty. -/
def markDirty (s : BufferManager F) (slice : SliceReq) (dataBufEntry : Nat) : BufferManager F :=
  if slice.reqCode = .write then s.setBuf (s.buf.setDirty dataBufEntry true) else s

/-- The body of the loop of `ReqTransSliceToLowLevel`. -/
def reqTransSliceToLowLevel (s : BufferManager F) (slice : SliceReq) : Option (BufferManager F) := do
  let (dataBufEntry, s) ←
    match s.buf.checkDataBufHit (availableDataBufferEntryCount g) slice.logicalSliceAddr with
    | some (dataBufEntry, buf) => some (dataBufEntry, s.setBuf buf)
    | none => missDataBuf g M s slice
  let s := s.markDirty slice dataBufEntry
  let req ← slice.dmaReq {} dataBufEntry
  let s := s.submit req
  some { s with slices := s.slices ++ [slice] }

end BufferManager

def initBufferManager (g : Geometry) (map : F) : BufferManager F where
  buf := initDataBuf (availableDataBufferEntryCount g)
  map := map

end OcpFw
