import OcpFw.Dll
import OcpFw.Geometry

/-! The mapping layer: the slice maps, the block and die maps with their free and
garbage-collection lists, page allocation, invalidation, garbage collection and
erase, as in `address_translation.c` and `garbage_collection.c`. A fired assertion
is `none`. The flash requests the layer issues are logged in order; the request
layer below them never writes these maps. -/
namespace OcpFw

/-- The lists of one die that share `prevBlock` and `nextBlock`: its free list and
the garbage-collection lists indexed by the number of invalid slices. -/
inductive BlockList where
  | free
  | victim (invalidSliceCnt : Nat)
  deriving DecidableEq

/-- `VIRTUAL_BLOCK_ENTRY`, less its two links, which are in the die's table. -/
structure VirtualBlock where
  bad : Bool := false
  free : Bool := false
  invalidSliceCnt : Nat := 0
  currentPage : Nat := 0
  eraseCnt : Nat := 0

/-- One die: its `VIRTUAL_DIE_ENTRY`, its row of the block map and its row of
`gcVictimList`. -/
structure VirtualDie where
  currentBlock : Nat := blockNone
  freeBlockCnt : Nat := 0
  block : Nat → VirtualBlock := fun _ => {}
  lists : Dll.Table BlockList Nat :=
    ⟨fun _ => blockNone, fun _ => blockNone, fun _ => blockNone, fun _ => blockNone⟩

/-- A request issued to the flash. Copies of the garbage collector go through the
temporary buffer entry named here. -/
inductive FlashReq where
  | read (virtualSliceAddr tempEntry : Nat)
  | write (virtualSliceAddr tempEntry : Nat)
  | erase (virtualSliceAddr programmedPageCnt : Nat)
  deriving DecidableEq

/-- The maps of the translation layer, with the static round-robin position of
`FindDieForFreeSliceAllocation`. -/
structure Ftl where
  logicalSlice : Nat → Nat := fun _ => vsaNone
  virtualSlice : Nat → Nat := fun _ => lsaNone
  die : Nat → VirtualDie := fun _ => {}
  sliceAllocationTargetDie : Nat := 0
  targetCh : Nat := 0
  targetWay : Nat := 0
  requests : List FlashReq := []

/-- `GET_FREE_BLOCK_NORMAL` and `GET_FREE_BLOCK_GC`. -/
inductive GetFreeBlock where
  | normal
  | gc
  deriving DecidableEq

/-! ### The lists of one die -/

namespace VirtualDie

def setBlock (d : VirtualDie) (blockNo : Nat) (b : VirtualBlock) : VirtualDie :=
  { d with block := Function.update d.block blockNo b }

def putToFbList (d : VirtualDie) (blockNo : Nat) : VirtualDie :=
  { d with
    lists := d.lists.pushBack blockNone .free blockNo
    freeBlockCnt := inc16 d.freeBlockCnt }

/-- The guard of `GetFromFbList`: no block may be taken. -/
def NoFreeBlock (d : VirtualDie) : GetFreeBlock → Prop
  | .normal => d.freeBlockCnt ≤ reservedFreeBlockCount
  | .gc => d.lists.head .free = blockNone

instance (d : VirtualDie) (option : GetFreeBlock) : Decidable (d.NoFreeBlock option) := by
  cases option <;> unfold NoFreeBlock <;> infer_instance

def getFromFbList (d : VirtualDie) (getFreeBlockOption : GetFreeBlock) : Nat × VirtualDie :=
  let evictedBlockNo := d.lists.head .free
  if d.NoFreeBlock getFreeBlockOption then
    (blockFail, d)
  else
    (evictedBlockNo,
      { d with
        lists := (d.lists.popFront blockNone .free).clear blockNone evictedBlockNo
        block := Function.update d.block evictedBlockNo { d.block evictedBlockNo with free := false }
        freeBlockCnt := dec16 d.freeBlockCnt })

def putToGcVictimList (d : VirtualDie) (blockNo invalidSliceCnt : Nat) : VirtualDie :=
  { d with lists := d.lists.pushBack blockNone (.victim invalidSliceCnt) blockNo }

/-- The scan of `GetFromGcVictimList`: the non-empty list with the largest index
among `1 .. invalidSliceCnt`. -/
def findVictimList (d : VirtualDie) : Nat → Option Nat
  | 0 => none
  | invalidSliceCnt + 1 =>
    if d.lists.head (.victim (invalidSliceCnt + 1)) ≠ blockNone then some (invalidSliceCnt + 1)
    else findVictimList d invalidSliceCnt

/-- The scan's assertion fires when no list is populated. -/
def getFromGcVictimList (g : Geometry) (d : VirtualDie) : Option (Nat × VirtualDie) := do
  let invalidSliceCnt ← d.findVictimList g.slicesPerBlock
  some (d.lists.head (.victim invalidSliceCnt),
    { d with lists := d.lists.popFront blockNone (.victim invalidSliceCnt) })

def selectiveGetFromGcVictimList (d : VirtualDie) (blockNo : Nat) : VirtualDie :=
  { d with lists := d.lists.remove blockNone (.victim (d.block blockNo).invalidSliceCnt) blockNo }

/-- The sequence of `InvalidateOldVsa` on the block map: unlink, `invalidSliceCnt++`, relink. -/
def invalidateSlice (d : VirtualDie) (blockNo : Nat) : VirtualDie :=
  let d := d.selectiveGetFromGcVictimList blockNo
  let b := d.block blockNo
  let d := d.setBlock blockNo { b with invalidSliceCnt := inc16 b.invalidSliceCnt }
  d.putToGcVictimList blockNo (d.block blockNo).invalidSliceCnt

@[simp] theorem invalidateSlice_block (d : VirtualDie) (blockNo : Nat) :
    (d.invalidateSlice blockNo).block = Function.update d.block blockNo
      { d.block blockNo with invalidSliceCnt := inc16 (d.block blockNo).invalidSliceCnt } := rfl
@[simp] theorem invalidateSlice_currentBlock (d : VirtualDie) (blockNo : Nat) :
    (d.invalidateSlice blockNo).currentBlock = d.currentBlock := rfl
@[simp] theorem invalidateSlice_freeBlockCnt (d : VirtualDie) (blockNo : Nat) :
    (d.invalidateSlice blockNo).freeBlockCnt = d.freeBlockCnt := rfl

/-- The block map part of `EraseBlock`. -/
def recycleBlock (d : VirtualDie) (blockNo : Nat) : VirtualDie :=
  let b := d.block blockNo
  let d := d.setBlock blockNo
    { b with free := true, eraseCnt := inc16 b.eraseCnt, invalidSliceCnt := 0, currentPage := 0 }
  d.putToFbList blockNo

end VirtualDie

/-! ### The translation layer -/

namespace Ftl

def setDie (s : Ftl) (dieNo : Nat) (d : VirtualDie) : Ftl :=
  { s with die := Function.update s.die dieNo d }

def setCurrentBlock (s : Ftl) (dieNo blockNo : Nat) : Ftl :=
  s.setDie dieNo { s.die dieNo with currentBlock := blockNo }

def currentPage (s : Ftl) (dieNo blockNo : Nat) : Nat := ((s.die dieNo).block blockNo).currentPage

def issue (s : Ftl) (req : FlashReq) : Ftl := { s with requests := s.requests ++ [req] }

def getFromFbList (s : Ftl) (dieNo : Nat) (getFreeBlockOption : GetFreeBlock) : Nat × Ftl :=
  let (evictedBlockNo, d) := (s.die dieNo).getFromFbList getFreeBlockOption
  (evictedBlockNo, s.setDie dieNo d)

end Ftl

def addrTransRead (g : Geometry) (s : Ftl) (logicalSliceAddr : Nat) : Option Nat :=
  if logicalSliceAddr < g.slicesPerSsd then
    if s.logicalSlice logicalSliceAddr ≠ vsaNone then some (s.logicalSlice logicalSliceAddr)
    else some vsaFail
  else none

/-- Returns the die to use now and advances the static channel and way. -/
def findDieForFreeSliceAllocation (g : Geometry) (s : Ftl) : Nat × Ftl :=
  let targetDie := pcw2VdieTranslation g s.targetCh s.targetWay
  if s.targetCh ≠ g.userChannels - 1 then
    (targetDie, { s with targetCh := s.targetCh + 1 })
  else
    (targetDie, { s with targetCh := 0, targetWay := (s.targetWay + 1) % g.userWays })

def invalidateOldVsa (g : Geometry) (s : Ftl) (logicalSliceAddr : Nat) : Ftl :=
  let virtualSliceAddr := s.logicalSlice logicalSliceAddr
  if virtualSliceAddr ≠ vsaNone then
    if s.virtualSlice virtualSliceAddr ≠ logicalSliceAddr then s
    else
      let dieNo := vsa2VdieTranslation g virtualSliceAddr
      let blockNo := vsa2VblockTranslation g virtualSliceAddr
      { s.setDie dieNo ((s.die dieNo).invalidateSlice blockNo) with
        logicalSlice := Function.update s.logicalSlice logicalSliceAddr vsaNone }
  else s

/-- The closing loop of `EraseBlock` over the pages below `pages`. -/
def discardSlices (g : Geometry) (dieNo blockNo pages : Nat) (virtualSlice : Nat → Nat) : Nat → Nat :=
  (List.range pages).foldl
    (fun map pageNo => Function.update map (vorg2VsaTranslation g dieNo blockNo pageNo) lsaNone)
    virtualSlice

def eraseBlock (g : Geometry) (s : Ftl) (dieNo blockNo : Nat) : Ftl :=
  let s := s.issue (.erase (vorg2VsaTranslation g dieNo blockNo 0) (s.currentPage dieNo blockNo))
  let s := s.setDie dieNo ((s.die dieNo).recycleBlock blockNo)
  { s with virtualSlice := discardSlices g dieNo blockNo g.userPagesPerBlock s.virtualSlice }

/-- Hand out the next page of a block: its address, and `currentPage++`. -/
def takePage (g : Geometry) (s : Ftl) (dieNo blockNo : Nat) : Nat × Ftl :=
  let d := s.die dieNo
  let b := d.block blockNo
  (vorg2VsaTranslation g dieNo blockNo b.currentPage,
    s.setDie dieNo (d.setBlock blockNo { b with currentPage := inc16 b.currentPage }))

/-- Record that a logical slice now lives at a virtual one, in both maps. -/
def mapSlice (s : Ftl) (logicalSliceAddr virtualSliceAddr : Nat) : Ftl :=
  { s with
    logicalSlice := Function.update s.logicalSlice logicalSliceAddr virtualSliceAddr
    virtualSlice := Function.update s.virtualSlice virtualSliceAddr logicalSliceAddr }

/-- The block copies go to: never the victim itself, and never a full block. -/
def copyTargetBlock (g : Geometry) (s : Ftl) (dieNo victimBlockNo : Nat) : Option (Nat × Ftl) := do
  let s ←
    if victimBlockNo = (s.die dieNo).currentBlock then
      let (freeBlock, s) := s.getFromFbList dieNo .gc
      if freeBlock = blockFail then none else some (s.setCurrentBlock dieNo freeBlock)
    else some s
  let currentBlock := (s.die dieNo).currentBlock
  if s.currentPage dieNo currentBlock = g.userPagesPerBlock then
    let (freeBlock, s) := s.getFromFbList dieNo .gc
    if freeBlock ≠ blockFail then some (freeBlock, s.setCurrentBlock dieNo freeBlock) else none
  else if s.currentPage dieNo currentBlock > g.userPagesPerBlock then none
  else some (currentBlock, s)

def findFreeVirtualSliceForGc (g : Geometry) (s : Ftl) (copyTargetDieNo victimBlockNo : Nat) :
    Option (Nat × Ftl) := do
  let (currentBlock, s) ← copyTargetBlock g s copyTargetDieNo victimBlockNo
  some (takePage g s copyTargetDieNo currentBlock)

/-- The body of the copy loop: one page of the victim, copied when it is live. -/
def gcCopyPage (g : Geometry) (s : Ftl) (dieNo victimBlockNo pageNo : Nat) : Option Ftl := do
  let virtualSliceAddr := vorg2VsaTranslation g dieNo victimBlockNo pageNo
  let logicalSliceAddr := s.virtualSlice virtualSliceAddr
  if logicalSliceAddr ≠ lsaNone then
    if s.logicalSlice logicalSliceAddr = virtualSliceAddr then
      let s := s.issue (.read virtualSliceAddr dieNo)
      let (newSliceAddr, s) ← findFreeVirtualSliceForGc g s dieNo victimBlockNo
      let s := mapSlice s logicalSliceAddr newSliceAddr
      some (s.issue (.write newSliceAddr dieNo))
    else some s
  else some s

/-- The copy loop over the pages below its last argument. -/
def gcCopyPages (g : Geometry) (s : Ftl) (dieNo victimBlockNo : Nat) : Nat → Option Ftl
  | 0 => some s
  | pageNo + 1 => do
    let s ← gcCopyPages g s dieNo victimBlockNo pageNo
    gcCopyPage g s dieNo victimBlockNo pageNo

def garbageCollection (g : Geometry) (s : Ftl) (dieNo : Nat) : Option Ftl := do
  let (victimBlockNo, d) ← (s.die dieNo).getFromGcVictimList g
  let s := s.setDie dieNo d
  let s ←
    if ((s.die dieNo).block victimBlockNo).invalidSliceCnt ≠ g.slicesPerBlock then
      gcCopyPages g s dieNo victimBlockNo g.userPagesPerBlock
    else some s
  some (eraseBlock g s dieNo victimBlockNo)

/-- The block `FindFreeVirtualSlice` allocates from, after a block switch or a
garbage collection where the current block is full. -/
def allocationBlock (g : Geometry) (s : Ftl) (dieNo : Nat) : Option (Nat × Ftl) :=
  let currentBlock := (s.die dieNo).currentBlock
  if s.currentPage dieNo currentBlock = g.userPagesPerBlock then
    let (freeBlock, s) := s.getFromFbList dieNo .normal
    if freeBlock ≠ blockFail then some (freeBlock, s.setCurrentBlock dieNo freeBlock)
    else do
      let s ← garbageCollection g s dieNo
      let currentBlock := (s.die dieNo).currentBlock
      if s.currentPage dieNo currentBlock = g.userPagesPerBlock then
        let (freeBlock, s) := s.getFromFbList dieNo .normal
        if freeBlock ≠ blockFail then some (freeBlock, s.setCurrentBlock dieNo freeBlock) else none
      else if s.currentPage dieNo currentBlock > g.userPagesPerBlock then none
      else some (currentBlock, s)
  else if s.currentPage dieNo currentBlock > g.userPagesPerBlock then none
  else some (currentBlock, s)

def findFreeVirtualSlice (g : Geometry) (s : Ftl) : Option (Nat × Ftl) := do
  let dieNo := s.sliceAllocationTargetDie
  let (currentBlock, s) ← allocationBlock g s dieNo
  let (virtualSliceAddr, s) := takePage g s dieNo currentBlock
  let (targetDie, s) := findDieForFreeSliceAllocation g s
  some (virtualSliceAddr, { s with sliceAllocationTargetDie := targetDie })

def addrTransWrite (g : Geometry) (s : Ftl) (logicalSliceAddr : Nat) : Option (Nat × Ftl) :=
  if logicalSliceAddr < g.slicesPerSsd then do
    let s := invalidateOldVsa g s logicalSliceAddr
    let (virtualSliceAddr, s) ← findFreeVirtualSlice g s
    some (virtualSliceAddr, mapSlice s logicalSliceAddr virtualSliceAddr)
  else none

/-! ### Initialization -/

/-- `InitDieMap`, for one die. -/
def initDieMap (d : VirtualDie) : VirtualDie :=
  { d with
    lists := { d.lists with
      head := Function.update d.lists.head .free blockNone
      tail := Function.update d.lists.tail .free blockNone }
    freeBlockCnt := 0 }

/-- The body of `InitBlockMap` for one block, given its remapped bad flag. -/
def initBlock (bad : Nat → Bool) (d : VirtualDie) (virtualBlockNo : Nat) : VirtualDie :=
  let d := d.setBlock virtualBlockNo
    { bad := bad virtualBlockNo, free := true, invalidSliceCnt := 0, currentPage := 0, eraseCnt := 0 }
  if bad virtualBlockNo then { d with lists := d.lists.clear blockNone virtualBlockNo }
  else d.putToFbList virtualBlockNo

def initBlockMap (g : Geometry) (bad : Nat → Bool) (d : VirtualDie) : VirtualDie :=
  (List.range g.userBlocksPerDie).foldl (initBlock bad) d

def initCurrentBlockOfDieMap (d : VirtualDie) : VirtualDie :=
  let (currentBlock, d) := d.getFromFbList .normal
  { d with currentBlock := currentBlock }

/-- `InitGcVictimMap`, for one die. -/
def initGcVictimMap (g : Geometry) (d : VirtualDie) : VirtualDie :=
  (List.range (g.slicesPerBlock + 1)).foldl
    (fun d invalidSliceCnt =>
      { d with lists := { d.lists with
          head := Function.update d.lists.head (.victim invalidSliceCnt) blockNone
          tail := Function.update d.lists.tail (.victim invalidSliceCnt) blockNone } }) d

def initDie (g : Geometry) (bad : Nat → Bool) : VirtualDie :=
  initGcVictimMap g (initCurrentBlockOfDieMap (initBlockMap g bad (initDieMap {})))

/-- The mapping layer after `InitAddressMap` and `InitGcVictimMap`, given the bad
flag of the physical block each virtual block was remapped to. -/
def initFtl (g : Geometry) (bad : Nat → Nat → Bool) : Ftl :=
  let s : Ftl := { die := fun dieNo => initDie g (bad dieNo) }
  let (targetDie, s) := findDieForFreeSliceAllocation g s
  { s with sliceAllocationTargetDie := targetDie }

end OcpFw
