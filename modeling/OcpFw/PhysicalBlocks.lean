import OcpFw.AddressTranslation
import OcpFw.HostDma

/-! The physical blocks behind the virtual ones: the bad-block remapping of `RemapBadBlock`,
`InitBlockMap` over it, and the row a NAND request is addressed to. Every index into
`phyBlock` is checked; one that is out of range is `none`. -/
namespace OcpFw

def mainBlocksPerLun : Nat := 2732

def extendedBlocksPerLun : Nat := 224

def totalBlocksPerLun : Nat := mainBlocksPerLun + extendedBlocksPerLun

def pagesPerSlcBlock : Nat := 256

def pagesPerMlcBlock : Nat := 256

def lun0BaseAddr : Nat := 0x00000000

def lun1BaseAddr : Nat := 0x00100000

/-- `PSEUDO_BAD_BLOCK_MARK`. -/
def pseudoBadBlockMark : Nat := 0

def mbPerBlock : Nat := bytesPerDataRegionOfSlice * pagesPerSlcBlock / (1024 * 1024)

/-- The flash of the configuration, as far as `CheckConfigRestriction` lets it pass: cells
hold one bit, and the user blocks are among the main ones. -/
structure FlashConfig where
  userChannels : Nat
  userWays : Nat
  userBlocksPerLun : Nat
  lunsPerDie : Nat
  channels_pos : 0 < userChannels
  ways_pos : 0 < userWays
  dies_fit : userChannels * userWays ≤ 256
  luns : lunsPerDie = 1 ∨ lunsPerDie = 2
  blocks_main : userBlocksPerLun ≤ mainBlocksPerLun

namespace FlashConfig

def totalBlocksPerDie (c : FlashConfig) : Nat := totalBlocksPerLun * c.lunsPerDie

def userBlocksPerDie (c : FlashConfig) : Nat := c.userBlocksPerLun * c.lunsPerDie

theorem userBlocksPerDie_le (c : FlashConfig) : c.userBlocksPerDie ≤ 5464 := by
  have main := c.blocks_main
  unfold mainBlocksPerLun at main
  unfold userBlocksPerDie
  rcases c.luns with luns | luns <;> rw [luns] <;> omega

/-- The geometry the mapping layer sees. -/
def geometry (c : FlashConfig) : Geometry where
  userChannels := c.userChannels
  userWays := c.userWays
  userBlocksPerDie := c.userBlocksPerDie
  slicesPerBlock := pagesPerSlcBlock
  channels_pos := c.channels_pos
  ways_pos := c.ways_pos
  pages_pos := by decide
  dies_fit := c.dies_fit
  blocks_fit := c.userBlocksPerDie_le.trans (by decide)
  slices_fit := by decide
  ssd_fit := by
    have blocks := Nat.mul_le_mul_right pagesPerSlcBlock c.userBlocksPerDie_le
    exact (Nat.mul_le_mul c.dies_fit blocks).trans (by decide)

end FlashConfig

/-- `PHY_BLOCK_ENTRY`. -/
structure PhyBlock where
  remappedPhyBlock : Nat
  bad : Bool

/-- `phyBlock[dieNo][blockNo]`. -/
abbrev PhyBlockMap := Nat → Nat → PhyBlock

variable (c : FlashConfig)

namespace PhyBlockMap

/-- A read of the map. -/
def entry (phy : PhyBlockMap) (dieNo blockNo : Nat) : Option PhyBlock :=
  if dieNo < c.geometry.userDies ∧ blockNo < c.totalBlocksPerDie then some (phy dieNo blockNo) else none

/-- A write to the map. -/
def setEntry (phy : PhyBlockMap) (dieNo blockNo : Nat) (entry : PhyBlock) : Option PhyBlockMap :=
  if dieNo < c.geometry.userDies ∧ blockNo < c.totalBlocksPerDie then
    some (Function.update phy dieNo (Function.update (phy dieNo) blockNo entry))
  else none

end PhyBlockMap

/-- What `InitAddressMap` resets the map to, with the flags `RecoverBadBlockTable` reads. -/
def initPhyBlockMap (bad : Nat → Nat → Bool) : PhyBlockMap :=
  fun dieNo blockNo => { remappedPhyBlock := blockNo % 65536, bad := bad dieNo blockNo }

/-! ### Remapping -/

/-- The search of `RemapBadBlock` from a reserved block on, of which a number are left: the
reserved block it ends at, and `remapFlag`. -/
def findReservedBlock (phy : PhyBlockMap) (dieNo : Nat) : Nat → Nat → Option (Nat × Bool)
  | 0, reservedBlock => some (reservedBlock, false)
  | left + 1, reservedBlock => do
    let entry ← phy.entry c dieNo reservedBlock
    if entry.bad then findReservedBlock phy dieNo left (reservedBlock + 1) else some (reservedBlock, true)

/-- What `RemapBadBlock` does for a user block of a LUN whose reserved blocks end at `limit`:
the map, the first reserved block that is left and the number of bad blocks. -/
def remapUserBlock (phy : PhyBlockMap) (dieNo blockNo limit reservedBlock badBlockCount : Nat) :
    Option (PhyBlockMap × Nat × Nat) := do
  let entry ← phy.entry c dieNo blockNo
  if entry.bad then
    if reservedBlock < limit then do
      let (reservedBlock, remapFlag) ← findReservedBlock c phy dieNo (limit - reservedBlock) reservedBlock
      if remapFlag then do
        let entry ← phy.entry c dieNo blockNo
        let phy ← phy.setEntry c dieNo blockNo { entry with remappedPhyBlock := reservedBlock % 65536 }
        some (phy, reservedBlock + 1, badBlockCount)
      else some (phy, reservedBlock, badBlockCount + 1)
    else some (phy, reservedBlock, badBlockCount + 1)
  else some (phy, reservedBlock, badBlockCount)

/-- The variables of `RemapBadBlock`. -/
structure RemapState where
  phyBlock : PhyBlockMap
  reservedBlockOfLun0 : Nat → Nat
  reservedBlockOfLun1 : Nat → Nat
  badBlockCount : Nat → Nat

/-- The loop body for one block of a die. -/
def remapBlockOfDie (s : RemapState) (blockNo dieNo : Nat) : Option RemapState := do
  let (phyBlock, reservedBlock, badBlockCount) ←
    remapUserBlock c s.phyBlock dieNo blockNo totalBlocksPerLun (s.reservedBlockOfLun0 dieNo) (s.badBlockCount dieNo)
  let s := { s with
    phyBlock
    reservedBlockOfLun0 := Function.update s.reservedBlockOfLun0 dieNo reservedBlock
    badBlockCount := Function.update s.badBlockCount dieNo badBlockCount }
  if c.lunsPerDie > 1 then do
    let (phyBlock, reservedBlock, badBlockCount) ←
      remapUserBlock c s.phyBlock dieNo (blockNo + totalBlocksPerLun) c.totalBlocksPerDie (s.reservedBlockOfLun1 dieNo)
        (s.badBlockCount dieNo)
    some { s with
      phyBlock
      reservedBlockOfLun1 := Function.update s.reservedBlockOfLun1 dieNo reservedBlock
      badBlockCount := Function.update s.badBlockCount dieNo badBlockCount }
  else some s

/-- The blocks after the user blocks of each LUN are its reserved ones. -/
def initRemapState (phy : PhyBlockMap) : RemapState where
  phyBlock := phy
  reservedBlockOfLun0 _ := c.userBlocksPerLun
  reservedBlockOfLun1 _ := totalBlocksPerLun + c.userBlocksPerLun
  badBlockCount _ := 0

/-- The nested loops of `RemapBadBlock`. -/
def remapBlocks (phy : PhyBlockMap) : Option RemapState :=
  (List.range c.userBlocksPerLun).foldlM
    (fun s blockNo => (List.range c.geometry.userDies).foldlM (fun s dieNo => remapBlockOfDie c s blockNo dieNo) s)
    (initRemapState c phy)

/-- `RemapBadBlock`, with `mbPerbadBlockSpace`. -/
def remapBadBlock (phy : PhyBlockMap) : Option (PhyBlockMap × Nat) := do
  let s ← remapBlocks c phy
  let maxBadBlockCount := (List.range c.geometry.userDies).foldl
    (fun maxBadBlockCount dieNo => max maxBadBlockCount (s.badBlockCount dieNo)) 0
  some (s.phyBlock, maxBadBlockCount * c.geometry.userDies * mbPerBlock)

/-! ### The virtual blocks -/

def vblock2PblockOfTbsTranslation (blockNo : Nat) : Nat :=
  blockNo / c.userBlocksPerLun * totalBlocksPerLun + blockNo % c.userBlocksPerLun

/-- The flag `InitBlockMap` reads for a virtual block: that of the block its own was remapped to. -/
def remappedBad (phy : PhyBlockMap) (dieNo virtualBlockNo : Nat) : Option Bool := do
  let entry ← phy.entry c dieNo (vblock2PblockOfTbsTranslation c virtualBlockNo)
  let remapped ← phy.entry c dieNo entry.remappedPhyBlock
  some remapped.bad

/-- `InitBlockMap`, for one die of the map. -/
def initBlockMapOf (phy : PhyBlockMap) (dieNo : Nat) (d : VirtualDie) : Option VirtualDie :=
  (List.range c.geometry.userBlocksPerDie).foldlM
    (fun d virtualBlockNo => do
      let bad ← remappedBad c phy dieNo virtualBlockNo
      some (initBlock (fun _ => bad) d virtualBlockNo)) d

/-- `InitBlockDieMap` from the recovered table on: the block that holds it is marked bad on
each die, bad blocks are remapped and the virtual blocks entered. -/
def initBlockDieMap (bbtPhyBlock : Nat → Nat) (phy : PhyBlockMap) :
    Option (PhyBlockMap × Nat × (Nat → VirtualDie)) := do
  let phy ← (List.range c.geometry.userDies).foldlM
    (fun phy dieNo => do
      let entry ← phy.entry c dieNo (bbtPhyBlock dieNo)
      phy.setEntry c dieNo (bbtPhyBlock dieNo) { entry with bad := true }) phy
  let (phy, mbPerbadBlockSpace) ← remapBadBlock c phy
  let die ← (List.range c.geometry.userDies).foldlM
    (fun (die : Nat → VirtualDie) dieNo => do
      let d ← initBlockMapOf c phy dieNo (die dieNo)
      some (Function.update die dieNo d)) (fun _ => initDieMap {})
  some (phy, mbPerbadBlockSpace, fun dieNo => initCurrentBlockOfDieMap (die dieNo))

/-! ### Rows -/

/-- The `REQ_OPT_BLOCK_SPACE_*` values. -/
inductive BlockSpace where
  | main
  | total

/-- The fields of a request that its row is made of. -/
structure NandRowInfo where
  nandAddr : NandAddr := .vsa
  blockSpace : BlockSpace := .main
  virtualSliceAddr : Nat := 0
  physicalCh : Nat := 0
  physicalWay : Nat := 0
  physicalBlock : Nat := 0
  physicalPage : Nat := 0

def lunBaseAddr (lun : Nat) : Nat := if lun = 0 then lun0BaseAddr else lun1BaseAddr

def generateNandRowAddr (phy : PhyBlockMap) (req : NandRowInfo) : Option Nat :=
  let rowAddr (lun tempBlockNo tempPageNo : Nat) : Nat :=
    lunBaseAddr lun + tempBlockNo * pagesPerMlcBlock + tempPageNo
  match req.nandAddr with
  | .vsa => do
    let dieNo := vsa2VdieTranslation c.geometry req.virtualSliceAddr
    let virtualBlockNo := vsa2VblockTranslation c.geometry req.virtualSliceAddr
    let phyBlockNo := vblock2PblockOfTbsTranslation c virtualBlockNo
    let entry ← phy.entry c dieNo phyBlockNo
    some (rowAddr (phyBlockNo / totalBlocksPerLun) (entry.remappedPhyBlock % totalBlocksPerLun)
      (vsa2VpageTranslation c.geometry req.virtualSliceAddr))
  | .phyOrg =>
    let dieNo := pcw2VdieTranslation c.geometry req.physicalCh req.physicalWay
    match req.blockSpace with
    | .total =>
      some (rowAddr (req.physicalBlock / totalBlocksPerLun) (req.physicalBlock % totalBlocksPerLun) req.physicalPage)
    | .main => do
      let lun := req.physicalBlock / mainBlocksPerLun
      let entry ← phy.entry c dieNo (req.physicalBlock % mainBlocksPerLun + lun * totalBlocksPerLun)
      some (rowAddr lun (entry.remappedPhyBlock % totalBlocksPerLun) req.physicalPage)

/-- The row of a page, taken apart at the base of the second LUN. -/
theorem row_parts {lun blockNo pageNo : Nat} (exist : lun < 2) (block : blockNo < 4096) (page : pageNo < pagesPerMlcBlock) :
    let rowAddr := lunBaseAddr lun + blockNo * pagesPerMlcBlock + pageNo
    rowAddr % lun1BaseAddr / pagesPerMlcBlock = blockNo ∧ rowAddr / lun1BaseAddr = lun := by
  simp only [lunBaseAddr, lun0BaseAddr, lun1BaseAddr, pagesPerMlcBlock] at *
  rcases lun with - | lun
  · simp only [↓reduceIte]
    omega
  · obtain rfl : lun = 0 := by omega
    simp only [Nat.add_eq_zero_iff, one_ne_zero, and_false, ↓reduceIte]
    omega

end OcpFw
