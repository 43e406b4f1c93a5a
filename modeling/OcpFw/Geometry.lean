import Mathlib.Data.Nat.ModEq
import Mathlib.Tactic.Linarith

/-! The configured geometry and the virtual address arithmetic of the mapping
layer. The configuration constants are parameters; the side conditions are the
widths of the fields and variables that hold them. -/
namespace OcpFw

/-- No block, and the answer of a failed block allocation. -/
def blockNone : Nat := 0xffff
def blockFail : Nat := 0xffff

/-- No logical slice recorded for a virtual one. -/
def lsaNone : Nat := 0xffffffff

/-- No virtual slice recorded for a logical one, and the answer of a failed lookup. -/
def vsaNone : Nat := 0xffffffff
def vsaFail : Nat := 0xffffffff

def reservedFreeBlockCount : Nat := 1

def bytesPerDataRegionOfSlice : Nat := 16384

def bytesPerSpareRegionOfSlice : Nat := 256

def bytesPerNvmeBlock : Nat := 4096

def nvmeBlocksPerSlice : Nat := bytesPerDataRegionOfSlice / bytesPerNvmeBlock

/-- `++` on a 12-bit field. -/
def inc12 (x : Nat) : Nat := (x + 1) % 4096

/-- `++` on a 16-bit field. -/
def inc16 (x : Nat) : Nat := (x + 1) % 65536

/-- `--` on a 16-bit field. -/
def dec16 (x : Nat) : Nat := (x + 65535) % 65536

/-- `++` on a 32-bit counter. -/
def inc32 (x : Nat) : Nat := (x + 1) % 4294967296

/-- `--` on a 32-bit counter. -/
def dec32 (x : Nat) : Nat := (x + 4294967295) % 4294967296

theorem inc12_of_lt (fits : x < 4095) : inc12 x = x + 1 := by
  unfold inc12
  omega

theorem inc16_of_lt (fits : x < 65535) : inc16 x = x + 1 := by
  unfold inc16
  omega

theorem dec16_of_pos (positive : 0 < x) (fits : x < 65536) : dec16 x = x - 1 := by
  unfold dec16
  omega

theorem inc32_of_lt (fits : x < 4294967295) : inc32 x = x + 1 := by
  unfold inc32
  omega

theorem dec32_of_pos (positive : 0 < x) (fits : x < 4294967296) : dec32 x = x - 1 := by
  unfold dec32
  omega

/-- The user-configurable part of `ftl_config.h`. A slice is a page, so
`SLICES_PER_BLOCK` and `USER_PAGES_PER_BLOCK` are one parameter. Block numbers
and page counts live in 16-bit fields, die numbers in a byte, and slice
addresses in 32-bit words whose top value means "none". -/
structure Geometry where
  userChannels : Nat
  userWays : Nat
  userBlocksPerDie : Nat
  slicesPerBlock : Nat
  channels_pos : 0 < userChannels
  ways_pos : 0 < userWays
  pages_pos : 0 < slicesPerBlock
  dies_fit : userChannels * userWays ≤ 256
  blocks_fit : userBlocksPerDie ≤ blockNone
  slices_fit : slicesPerBlock < 65536
  ssd_fit : userChannels * userWays * (userBlocksPerDie * slicesPerBlock) ≤ vsaNone

/-- One die with two blocks of two pages. -/
def tinyGeometry : Geometry where
  userChannels := 1
  userWays := 1
  userBlocksPerDie := 2
  slicesPerBlock := 2
  channels_pos := by decide
  ways_pos := by decide
  pages_pos := by decide
  dies_fit := by decide
  blocks_fit := by decide
  slices_fit := by decide
  ssd_fit := by decide

namespace Geometry

def userDies (g : Geometry) : Nat := g.userChannels * g.userWays

def userPagesPerBlock (g : Geometry) : Nat := g.slicesPerBlock

def slicesPerSsd (g : Geometry) : Nat := g.userDies * (g.userBlocksPerDie * g.slicesPerBlock)

theorem dies_pos (g : Geometry) : 0 < g.userDies := Nat.mul_pos g.channels_pos g.ways_pos

end Geometry

variable (g : Geometry)

def vsa2VdieTranslation (virtualSliceAddr : Nat) : Nat := virtualSliceAddr % g.userDies

def vsa2VblockTranslation (virtualSliceAddr : Nat) : Nat :=
  virtualSliceAddr / g.userDies / g.slicesPerBlock

def vsa2VpageTranslation (virtualSliceAddr : Nat) : Nat :=
  virtualSliceAddr / g.userDies % g.slicesPerBlock

def vorg2VsaTranslation (dieNo blockNo pageNo : Nat) : Nat :=
  dieNo + g.userDies * (blockNo * g.slicesPerBlock + pageNo)

def pcw2VdieTranslation (chNo wayNo : Nat) : Nat := chNo + wayNo * g.userChannels

def vdie2PchTranslation (dieNo : Nat) : Nat := dieNo % g.userChannels

def vdie2PwayTranslation (dieNo : Nat) : Nat := dieNo / g.userChannels

variable {g} {dieNo blockNo pageNo vsa : Nat}

theorem vdie_lt : vsa2VdieTranslation g vsa < g.userDies := Nat.mod_lt _ g.dies_pos

theorem vpage_lt : vsa2VpageTranslation g vsa < g.slicesPerBlock := Nat.mod_lt _ g.pages_pos

/-- Composing an address and decoding its die. -/
theorem vdie_of_vorg (die : dieNo < g.userDies) :
    vsa2VdieTranslation g (vorg2VsaTranslation g dieNo blockNo pageNo) = dieNo := by
  simp [vsa2VdieTranslation, vorg2VsaTranslation, Nat.mod_eq_of_lt die]

private theorem vorg_div (die : dieNo < g.userDies) :
    vorg2VsaTranslation g dieNo blockNo pageNo / g.userDies =
      blockNo * g.slicesPerBlock + pageNo := by
  rw [vorg2VsaTranslation, Nat.add_mul_div_left _ _ g.dies_pos, Nat.div_eq_of_lt die, Nat.zero_add]

theorem vblock_of_vorg (die : dieNo < g.userDies) (page : pageNo < g.slicesPerBlock) :
    vsa2VblockTranslation g (vorg2VsaTranslation g dieNo blockNo pageNo) = blockNo := by
  rw [vsa2VblockTranslation, vorg_div die, Nat.mul_comm, Nat.mul_add_div g.pages_pos,
    Nat.div_eq_of_lt page, Nat.add_zero]

theorem vpage_of_vorg (die : dieNo < g.userDies) (page : pageNo < g.slicesPerBlock) :
    vsa2VpageTranslation g (vorg2VsaTranslation g dieNo blockNo pageNo) = pageNo := by
  rw [vsa2VpageTranslation, vorg_div die, Nat.mul_comm, Nat.mul_add_mod, Nat.mod_eq_of_lt page]

/-- Decoding an address and composing it again. -/
theorem vorg_of_vsa :
    vorg2VsaTranslation g (vsa2VdieTranslation g vsa) (vsa2VblockTranslation g vsa)
      (vsa2VpageTranslation g vsa) = vsa := by
  rw [vorg2VsaTranslation, vsa2VblockTranslation, vsa2VpageTranslation, vsa2VdieTranslation,
    Nat.div_add_mod', Nat.mod_add_div]

/-- Addresses of the device are exactly those of its blocks. -/
theorem vblock_lt_iff :
    vsa2VblockTranslation g vsa < g.userBlocksPerDie ↔ vsa < g.slicesPerSsd := by
  rw [vsa2VblockTranslation, Geometry.slicesPerSsd, Nat.div_lt_iff_lt_mul g.pages_pos,
    Nat.div_lt_iff_lt_mul g.dies_pos, Nat.mul_comm (_ * _) g.userDies]

theorem vorg_lt (die : dieNo < g.userDies) (block : blockNo < g.userBlocksPerDie)
    (page : pageNo < g.slicesPerBlock) :
    vorg2VsaTranslation g dieNo blockNo pageNo < g.slicesPerSsd := by
  rw [← vblock_lt_iff, vblock_of_vorg die page]
  exact block

/-- Two addresses with the same die, block and page are the same address. -/
theorem vorg_inj {dieNo' blockNo' pageNo' : Nat} (die : dieNo < g.userDies)
    (page : pageNo < g.slicesPerBlock) (die' : dieNo' < g.userDies)
    (page' : pageNo' < g.slicesPerBlock)
    (same : vorg2VsaTranslation g dieNo blockNo pageNo =
      vorg2VsaTranslation g dieNo' blockNo' pageNo') :
    dieNo = dieNo' ∧ blockNo = blockNo' ∧ pageNo = pageNo' := by
  have sameDie := congrArg (vsa2VdieTranslation g) same
  have sameBlock := congrArg (vsa2VblockTranslation g) same
  have samePage := congrArg (vsa2VpageTranslation g) same
  rw [vdie_of_vorg die, vdie_of_vorg die'] at sameDie
  rw [vblock_of_vorg die page, vblock_of_vorg die' page'] at sameBlock
  rw [vpage_of_vorg die page, vpage_of_vorg die' page'] at samePage
  exact ⟨sameDie, sameBlock, samePage⟩

end OcpFw
