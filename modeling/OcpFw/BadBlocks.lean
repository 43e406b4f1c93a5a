import OcpFw.Initialization
import OcpFw.PhysicalBlocks
import OcpFw.Replacement
import OcpFw.Runs

/-! Physical addressing is one to one. Bad blocks are remapped within their LUN, each to a
reserved block of its own, so that two user blocks never stand for the same physical one,
and the row of a slice tells its block and its page. -/
namespace OcpFw
open Replacement (Replaces)
open Runs (foldlM_kept foldlM_pointwise)

variable {c : FlashConfig} {phy phy' : PhyBlockMap} {dieNo blockNo base reservedBlock : Nat}

theorem FlashConfig.blocks_lt (c : FlashConfig) : c.userBlocksPerLun < totalBlocksPerLun := by
  have main := c.blocks_main
  unfold mainBlocksPerLun at main
  unfold totalBlocksPerLun mainBlocksPerLun extendedBlocksPerLun
  omega

theorem FlashConfig.totalBlocksPerDie_lt (c : FlashConfig) : c.totalBlocksPerDie < 65536 := by
  unfold totalBlocksPerDie totalBlocksPerLun mainBlocksPerLun extendedBlocksPerLun
  rcases c.luns with luns | luns <;> rw [luns] <;> omega

/-! ### Remapping one user block -/

namespace PhyBlockMap

theorem entry_eq (die : dieNo < c.geometry.userDies) (block : blockNo < c.totalBlocksPerDie) :
    phy.entry c dieNo blockNo = some (phy dieNo blockNo) :=
  if_pos ⟨die, block⟩

theorem setEntry_eq {entry : PhyBlock} (die : dieNo < c.geometry.userDies) (block : blockNo < c.totalBlocksPerDie) :
    phy.setEntry c dieNo blockNo entry =
      some (Function.update phy dieNo (Function.update (phy dieNo) blockNo entry)) :=
  if_pos ⟨die, block⟩

end PhyBlockMap

/-- The search ends at a good block of the range, or at its end. -/
theorem findReservedBlock_spec {left : Nat} (die : dieNo < c.geometry.userDies)
    (inside : reservedBlock + left ≤ c.totalBlocksPerDie) :
    ∃ found remapFlag, findReservedBlock c phy dieNo left reservedBlock = some (found, remapFlag) ∧
      reservedBlock ≤ found ∧ found ≤ reservedBlock + left ∧
      (remapFlag = true → found < reservedBlock + left ∧ (phy dieNo found).bad = false) := by
  induction left generalizing reservedBlock with
  | zero => exact ⟨reservedBlock, false, rfl, le_rfl, le_rfl, nofun⟩
  | succ left ih =>
    simp only [findReservedBlock, PhyBlockMap.entry_eq die (show reservedBlock < c.totalBlocksPerDie by omega),
      Option.bind_eq_bind, Option.bind_some]
    cases bad : (phy dieNo reservedBlock).bad with
    | false => exact ⟨reservedBlock, true, by simp, le_rfl, by omega, fun _ => ⟨by omega, bad⟩⟩
    | true =>
      obtain ⟨found, remapFlag, search, low, high, good⟩ := @ih (reservedBlock + 1) (by omega)
      refine ⟨found, remapFlag, by simpa using search, by omega, by omega, fun flag => ⟨?_, (good flag).2⟩⟩
      have := (good flag).1
      omega

/-- The user blocks of the LUN that starts at a block. -/
def userBlocks (c : FlashConfig) (base : Nat) : Set Nat := Set.Ico base (base + c.userBlocksPerLun)

/-- Its reserved blocks before the first one that is left. -/
def givenBlocks (c : FlashConfig) (base reservedBlock : Nat) : Set Nat :=
  Set.Ico (base + c.userBlocksPerLun) reservedBlock

/-- One LUN of a die: bad user blocks were replaced by good reserved ones. -/
structure LunOk (c : FlashConfig) (phy : PhyBlockMap) (dieNo base reservedBlock : Nat) : Prop where
  above : base + c.userBlocksPerLun ≤ reservedBlock
  inside : reservedBlock ≤ base + totalBlocksPerLun
  replaces : Replaces (fun blockNo => (phy dieNo blockNo).remappedPhyBlock) (userBlocks c base)
    (givenBlocks c base reservedBlock)
  good : ∀ blockNo ∈ userBlocks c base, (phy dieNo blockNo).remappedPhyBlock ≠ blockNo →
    (phy dieNo (phy dieNo blockNo).remappedPhyBlock).bad = false

theorem userBlocks_disjoint : Disjoint (userBlocks c base) (givenBlocks c base reservedBlock) := by
  rw [Set.disjoint_left]
  rintro x ⟨-, low⟩ ⟨high, -⟩
  omega

namespace LunOk

/-- Only its own user blocks matter, and the flags. -/
theorem frame (ok : LunOk c phy dieNo base reservedBlock)
    (same : ∀ blockNo ∈ userBlocks c base, phy' dieNo blockNo = phy dieNo blockNo)
    (flags : ∀ blockNo, (phy' dieNo blockNo).bad = (phy dieNo blockNo).bad) :
    LunOk c phy' dieNo base reservedBlock where
  above := ok.above
  inside := ok.inside
  replaces := ok.replaces.congr fun blockNo member => by simp only [same blockNo member]
  good blockNo member moved := by
    rw [same blockNo member] at moved ⊢
    rw [flags]
    exact ok.good blockNo member moved

/-- Reserved blocks are skipped. -/
theorem skip {found : Nat} (ok : LunOk c phy dieNo base reservedBlock) (low : reservedBlock ≤ found)
    (high : found ≤ base + totalBlocksPerLun) : LunOk c phy dieNo base found where
  above := ok.above.trans low
  inside := high
  replaces := ok.replaces.more (Set.Ico_subset_Ico_right low) userBlocks_disjoint
  good := ok.good

/-- What a block stands for is in its LUN. -/
theorem remapped (ok : LunOk c phy dieNo base reservedBlock) (member : blockNo ∈ userBlocks c base) :
    base ≤ (phy dieNo blockNo).remappedPhyBlock ∧ (phy dieNo blockNo).remappedPhyBlock < base + totalBlocksPerLun := by
  have few := c.blocks_lt
  have inside := ok.inside
  obtain ⟨low, high⟩ := member
  rcases ok.replaces.image blockNo ⟨low, high⟩ with self | ⟨above, below⟩
  · simp only [self]
    omega
  · omega

/-- A user block is given the next good reserved one. -/
theorem replace {found : Nat} (ok : LunOk c phy dieNo base reservedBlock) (die : dieNo < c.geometry.userDies)
    (lun : base + totalBlocksPerLun ≤ c.totalBlocksPerDie) (member : blockNo ∈ userBlocks c base)
    (low : reservedBlock ≤ found) (high : found < base + totalBlocksPerLun) (good : (phy dieNo found).bad = false) :
    ∃ phy' : PhyBlockMap, phy.setEntry c dieNo blockNo { phy dieNo blockNo with remappedPhyBlock := found % 65536 } =
        some phy' ∧
      LunOk c phy' dieNo base (found + 1) ∧ (∀ d b, (phy' d b).bad = (phy d b).bad) ∧
      ∀ d b, ¬ (d = dieNo ∧ b ∈ userBlocks c base) → phy' d b = phy d b := by
  have few := c.blocks_lt
  have total := c.totalBlocksPerDie_lt
  have above := ok.above
  obtain ⟨first, last⟩ := id member
  have fits : found % 65536 = found := Nat.mod_eq_of_lt (by omega)
  rw [fits]
  refine ⟨_, PhyBlockMap.setEntry_eq die (by omega), ?_⟩
  set phy' := Function.update phy dieNo
    (Function.update (phy dieNo) blockNo { phy dieNo blockNo with remappedPhyBlock := found }) with after
  have flags : ∀ d b, (phy' d b).bad = (phy d b).bad := by
    intro d b
    by_cases here : d = dieNo
    · subst here
      by_cases same : b = blockNo <;> simp [after, same]
    · simp [after, here]
  have map : (fun b => (phy' dieNo b).remappedPhyBlock) =
      Function.update (fun b => (phy dieNo b).remappedPhyBlock) blockNo found := by
    funext b
    by_cases same : b = blockNo <;> simp [after, same]
  refine ⟨⟨by omega, by omega, ?_, ?_⟩, flags, ?_⟩
  · rw [map]
    have fresh : found ∉ givenBlocks c base reservedBlock := fun given => by
      have := given.2
      omega
    have other : found ∉ userBlocks c base := fun user => by
      have := user.2
      omega
    refine (ok.replaces.replace fresh other).more ?_ userBlocks_disjoint
    rintro b (rfl | given)
    · exact ⟨by omega, by omega⟩
    · exact ⟨given.1, by have := given.2; omega⟩
  · intro b user moved
    rw [flags]
    rw [show (phy' dieNo b).remappedPhyBlock = _ from congrFun map b] at moved ⊢
    by_cases same : b = blockNo
    · subst same
      rw [Function.update_self]
      exact good
    · rw [Function.update_of_ne same] at moved ⊢
      exact ok.good b user moved
  · intro d b other
    by_cases here : d = dieNo
    · subst here
      have diff : b ≠ blockNo := by
        rintro rfl
        exact other ⟨rfl, member⟩
      simp [after, diff]
    · simp [after, here]

end LunOk

/-- A turn for one LUN: no index is out of range, the LUN stays in order, and nothing else changes. -/
theorem remapUserBlock_spec {badBlockCount limit : Nat} (ok : LunOk c phy dieNo base reservedBlock)
    (die : dieNo < c.geometry.userDies) (lun : base + totalBlocksPerLun ≤ c.totalBlocksPerDie)
    (ends : limit = base + totalBlocksPerLun) (member : blockNo ∈ userBlocks c base) :
    ∃ (phy' : PhyBlockMap) (reservedBlock' badBlockCount' : Nat),
      remapUserBlock c phy dieNo blockNo limit reservedBlock badBlockCount =
        some (phy', reservedBlock', badBlockCount') ∧
      LunOk c phy' dieNo base reservedBlock' ∧ (∀ d b, (phy' d b).bad = (phy d b).bad) ∧
      ∀ d b, ¬ (d = dieNo ∧ b ∈ userBlocks c base) → phy' d b = phy d b := by
  subst ends
  have few := c.blocks_lt
  have here : phy.entry c dieNo blockNo = some (phy dieNo blockNo) :=
    PhyBlockMap.entry_eq die (by have := member.2; omega)
  have unchanged : LunOk c phy dieNo base reservedBlock ∧ (∀ d b, (phy d b).bad = (phy d b).bad) ∧
      ∀ d b, ¬ (d = dieNo ∧ b ∈ userBlocks c base) → phy d b = phy d b := ⟨ok, fun _ _ => rfl, fun _ _ _ => rfl⟩
  simp only [remapUserBlock, here, Option.bind_eq_bind, Option.bind_some]
  cases bad : (phy dieNo blockNo).bad with
  | false => exact ⟨phy, reservedBlock, badBlockCount, rfl, unchanged⟩
  | true =>
    simp only [↓reduceIte]
    split
    swap
    · exact ⟨phy, reservedBlock, badBlockCount + 1, rfl, unchanged⟩
    rename_i left
    obtain ⟨found, remapFlag, search, low, high, good⟩ :=
      @findReservedBlock_spec c phy dieNo reservedBlock (base + totalBlocksPerLun - reservedBlock) die (by omega)
    have inside : found ≤ base + totalBlocksPerLun := by omega
    rw [search, Option.bind_some]
    cases remapFlag with
    | false => exact ⟨phy, found, badBlockCount + 1, rfl, ok.skip low inside, unchanged.2⟩
    | true =>
      obtain ⟨below, usable⟩ := good rfl
      obtain ⟨phy', stored, after⟩ := ok.replace die lun member low (by omega) usable
      simp only [bad] at stored
      exact ⟨phy', found + 1, badBlockCount, by simp only [↓reduceIte, stored, Option.bind_some], after⟩

/-! ### Remapping all of them -/

/-- All LUNs of all dies, and the flags of the table. -/
structure RemapOk (c : FlashConfig) (bad : Nat → Nat → Bool) (s : RemapState) : Prop where
  flags : ∀ dieNo blockNo, (s.phyBlock dieNo blockNo).bad = bad dieNo blockNo
  lun0 : ∀ dieNo < c.geometry.userDies, LunOk c s.phyBlock dieNo 0 (s.reservedBlockOfLun0 dieNo)
  lun1 : c.lunsPerDie > 1 → ∀ dieNo < c.geometry.userDies,
    LunOk c s.phyBlock dieNo totalBlocksPerLun (s.reservedBlockOfLun1 dieNo)

variable {bad : Nat → Nat → Bool} {s : RemapState}

/-- Nothing is remapped at the start. -/
theorem initRemapState_ok (flags : ∀ dieNo blockNo, (phy dieNo blockNo).bad = bad dieNo blockNo)
    (same : ∀ dieNo, ∀ blockNo < c.totalBlocksPerDie, (phy dieNo blockNo).remappedPhyBlock = blockNo) :
    RemapOk c bad (initRemapState c phy) := by
  have few := c.blocks_lt
  have lun : ∀ dieNo base, base + totalBlocksPerLun ≤ c.totalBlocksPerDie →
      LunOk c phy dieNo base (base + c.userBlocksPerLun) := by
    intro dieNo base inside
    have self : ∀ blockNo ∈ userBlocks c base, (phy dieNo blockNo).remappedPhyBlock = blockNo :=
      fun blockNo member => same dieNo blockNo (by have := member.2; omega)
    refine ⟨le_rfl, by omega, (Replaces.start self).more (Set.empty_subset _) userBlocks_disjoint, ?_⟩
    exact fun blockNo member moved => absurd (self blockNo member) moved
  refine ⟨flags, fun dieNo _ => ?_, fun luns dieNo _ => lun dieNo _ ?_⟩
  · have first := lun dieNo 0 (by
      unfold FlashConfig.totalBlocksPerDie
      rcases c.luns with luns | luns <;> rw [luns] <;> omega)
    rwa [Nat.zero_add] at first
  · unfold FlashConfig.totalBlocksPerDie
    rcases c.luns with one | two
    · omega
    · rw [two]
      omega

theorem FlashConfig.lun0_le (c : FlashConfig) : 0 + totalBlocksPerLun ≤ c.totalBlocksPerDie := by
  unfold totalBlocksPerDie
  rcases c.luns with luns | luns <;> rw [luns] <;> omega

theorem FlashConfig.lun1_eq (luns : c.lunsPerDie > 1) :
    c.totalBlocksPerDie = totalBlocksPerLun + totalBlocksPerLun := by
  unfold totalBlocksPerDie
  rcases c.luns with one | two
  · omega
  · rw [two]
    omega

/-- A turn for one LUN leaves the other LUNs alone. -/
theorem LunOk.others {d base' : Nat} (ok : LunOk c phy d base' reservedBlock)
    (apart : d = dieNo → base' + totalBlocksPerLun ≤ base ∨ base + totalBlocksPerLun ≤ base')
    (flags : ∀ d b, (phy' d b).bad = (phy d b).bad)
    (others : ∀ d b, ¬ (d = dieNo ∧ b ∈ userBlocks c base) → phy' d b = phy d b) :
    LunOk c phy' d base' reservedBlock := by
  have few := c.blocks_lt
  refine ok.frame (fun blockNo member => others d blockNo ?_) (flags d)
  rintro ⟨same, user⟩
  have := member.1
  have := member.2
  have := user.1
  have := user.2
  rcases apart same with before | behind <;> omega

namespace RemapOk

/-- The turn for the first LUN of a die. -/
theorem turn0 {count : Nat → Nat} (ok : RemapOk c bad s) (lun : LunOk c phy dieNo 0 reservedBlock)
    (flags : ∀ d b, (phy d b).bad = (s.phyBlock d b).bad)
    (others : ∀ d b, ¬ (d = dieNo ∧ b ∈ userBlocks c 0) → phy d b = s.phyBlock d b) :
    RemapOk c bad { s with
      phyBlock := phy
      reservedBlockOfLun0 := Function.update s.reservedBlockOfLun0 dieNo reservedBlock
      badBlockCount := count } where
  flags d b := (flags d b).trans (ok.flags d b)
  lun0 d die := by
    by_cases here : d = dieNo
    · subst here
      simp only [Function.update_self]
      exact lun
    · simp only [Function.update_of_ne here]
      exact (ok.lun0 d die).others (fun same => absurd same here) flags others
  lun1 luns d die := (ok.lun1 luns d die).others (fun _ => .inr (by omega)) flags others

/-- The turn for the second one. -/
theorem turn1 {count : Nat → Nat} (ok : RemapOk c bad s) (lun : LunOk c phy dieNo totalBlocksPerLun reservedBlock)
    (flags : ∀ d b, (phy d b).bad = (s.phyBlock d b).bad)
    (others : ∀ d b, ¬ (d = dieNo ∧ b ∈ userBlocks c totalBlocksPerLun) → phy d b = s.phyBlock d b) :
    RemapOk c bad { s with
      phyBlock := phy
      reservedBlockOfLun1 := Function.update s.reservedBlockOfLun1 dieNo reservedBlock
      badBlockCount := count } where
  flags d b := (flags d b).trans (ok.flags d b)
  lun0 d die := (ok.lun0 d die).others (fun _ => .inl (by omega)) flags others
  lun1 luns d die := by
    by_cases here : d = dieNo
    · subst here
      simp only [Function.update_self]
      exact lun
    · simp only [Function.update_of_ne here]
      exact (ok.lun1 luns d die).others (fun same => absurd same here) flags others

end RemapOk

/-- The loop body keeps all of it. -/
theorem remapBlockOfDie_kept (ok : RemapOk c bad s) (block : blockNo < c.userBlocksPerLun)
    (die : dieNo < c.geometry.userDies) : ∃ s', remapBlockOfDie c s blockNo dieNo = some s' ∧ RemapOk c bad s' := by
  obtain ⟨phy, reserved, count, turn, lun, flags, others⟩ :=
    @remapUserBlock_spec c s.phyBlock dieNo blockNo 0 _ (s.badBlockCount dieNo) totalBlocksPerLun (ok.lun0 dieNo die)
      die c.lun0_le (Nat.zero_add _).symm ⟨Nat.zero_le _, by omega⟩
  have first := @RemapOk.turn0 c phy dieNo reserved bad s (Function.update s.badBlockCount dieNo count) ok lun flags
    others
  simp only [remapBlockOfDie, turn, Option.bind_eq_bind, Option.bind_some]
  split
  · rename_i luns
    set s₁ : RemapState := { s with
      phyBlock := phy
      reservedBlockOfLun0 := Function.update s.reservedBlockOfLun0 dieNo reserved
      badBlockCount := Function.update s.badBlockCount dieNo count }
    obtain ⟨phy', reserved', count', turn', lun', flags', others'⟩ :=
      @remapUserBlock_spec c s₁.phyBlock dieNo (blockNo + totalBlocksPerLun) totalBlocksPerLun _
        (s₁.badBlockCount dieNo) c.totalBlocksPerDie (first.lun1 luns dieNo die) die (FlashConfig.lun1_eq luns).ge
        (FlashConfig.lun1_eq luns) ⟨by omega, by omega⟩
    exact ⟨_, by rw [turn', Option.bind_some], first.turn1 lun' flags' others'⟩
  · exact ⟨_, rfl, first⟩

/-- The loops of `RemapBadBlock` use no index out of range and put every LUN in order. -/
theorem remapBlocks_spec (flags : ∀ dieNo blockNo, (phy dieNo blockNo).bad = bad dieNo blockNo)
    (same : ∀ dieNo, ∀ blockNo < c.totalBlocksPerDie, (phy dieNo blockNo).remappedPhyBlock = blockNo) :
    ∃ s, remapBlocks c phy = some s ∧ RemapOk c bad s := by
  refine foldlM_kept (RemapOk c bad) (initRemapState_ok flags same) fun s blockNo block ok => ?_
  refine foldlM_kept (RemapOk c bad) ok fun s dieNo die ok => ?_
  exact remapBlockOfDie_kept ok (List.mem_range.mp block) (List.mem_range.mp die)

/-- The largest of the counts of the dies. -/
def maxBadBlockCount (c : FlashConfig) (s : RemapState) : Nat :=
  (List.range c.geometry.userDies).foldl (fun maxBadBlockCount dieNo => max maxBadBlockCount (s.badBlockCount dieNo)) 0

/-- It is kept free on every die. -/
theorem remapBadBlock_eq (done : remapBlocks c phy = some s) :
    remapBadBlock c phy = some (s.phyBlock, maxBadBlockCount c s * c.geometry.userDies * mbPerBlock) := by
  rw [remapBadBlock, done]
  rfl

/-! ### The virtual blocks -/

/-- A physical block is a user block of its LUN. -/
theorem vblock2Pblock_spec (c : FlashConfig) (virtual : blockNo < c.userBlocksPerDie) :
    ∃ lun < c.lunsPerDie, vblock2PblockOfTbsTranslation c blockNo ∈ userBlocks c (lun * totalBlocksPerLun) ∧
      vblock2PblockOfTbsTranslation c blockNo / totalBlocksPerLun = lun ∧ blockNo / c.userBlocksPerLun = lun := by
  have few := c.blocks_lt
  have positive : 0 < c.userBlocksPerLun := by
    rcases Nat.eq_zero_or_pos c.userBlocksPerLun with zero | positive
    · rw [FlashConfig.userBlocksPerDie, zero, Nat.zero_mul] at virtual
      omega
    · exact positive
  have lun : blockNo / c.userBlocksPerLun < c.lunsPerDie := Nat.div_lt_of_lt_mul virtual
  have offset : blockNo % c.userBlocksPerLun < c.userBlocksPerLun := Nat.mod_lt _ positive
  refine ⟨_, lun, ⟨Nat.le_add_right .., Nat.add_lt_add_left offset _⟩, ?_, rfl⟩
  rw [vblock2PblockOfTbsTranslation, Nat.add_comm, Nat.add_mul_div_right _ _ (by omega), Nat.div_eq_of_lt (by omega),
    Nat.zero_add]

theorem vblock2Pblock_lt (c : FlashConfig) (virtual : blockNo < c.userBlocksPerDie) :
    vblock2PblockOfTbsTranslation c blockNo < c.totalBlocksPerDie := by
  obtain ⟨lun, exist, -, quotient, -⟩ := vblock2Pblock_spec c virtual
  have few := c.blocks_lt
  rw [FlashConfig.totalBlocksPerDie, Nat.mul_comm]
  exact (Nat.div_lt_iff_lt_mul (by omega)).mp (by omega)

theorem vblock2Pblock_inj (c : FlashConfig) {blockNo' : Nat} (virtual : blockNo < c.userBlocksPerDie)
    (virtual' : blockNo' < c.userBlocksPerDie)
    (same : vblock2PblockOfTbsTranslation c blockNo = vblock2PblockOfTbsTranslation c blockNo') :
    blockNo = blockNo' := by
  obtain ⟨lun, -, -, quotient, rfl⟩ := vblock2Pblock_spec c virtual
  obtain ⟨lun', -, -, quotient', rfl⟩ := vblock2Pblock_spec c virtual'
  have luns : blockNo / c.userBlocksPerLun = blockNo' / c.userBlocksPerLun := by
    rw [← quotient, ← quotient', same]
  have offsets : blockNo % c.userBlocksPerLun = blockNo' % c.userBlocksPerLun := by
    simp only [vblock2PblockOfTbsTranslation, luns] at same
    omega
  rw [← Nat.div_add_mod blockNo c.userBlocksPerLun, luns, offsets, Nat.div_add_mod]

/-- The physical block that stands for a virtual one. -/
def physicalBlock (c : FlashConfig) (phy : PhyBlockMap) (dieNo virtualBlockNo : Nat) : Nat :=
  (phy dieNo (vblock2PblockOfTbsTranslation c virtualBlockNo)).remappedPhyBlock

namespace RemapOk

theorem lun {lun : Nat} (ok : RemapOk c bad s) (die : dieNo < c.geometry.userDies) (exist : lun < c.lunsPerDie) :
    ∃ reservedBlock, LunOk c s.phyBlock dieNo (lun * totalBlocksPerLun) reservedBlock := by
  rcases lun with - | lun
  · exact ⟨_, by simpa using ok.lun0 dieNo die⟩
  · have two : lun = 0 := by
      rcases c.luns with luns | luns <;> omega
    subst two
    exact ⟨_, by simpa using ok.lun1 (by omega) dieNo die⟩

/-- It is in the LUN of the virtual block. -/
theorem physicalBlock_lun (ok : RemapOk c bad s) (die : dieNo < c.geometry.userDies)
    (virtual : blockNo < c.userBlocksPerDie) :
    physicalBlock c s.phyBlock dieNo blockNo / totalBlocksPerLun = blockNo / c.userBlocksPerLun ∧
      physicalBlock c s.phyBlock dieNo blockNo < c.totalBlocksPerDie := by
  obtain ⟨lun, exist, member, -, rfl⟩ := vblock2Pblock_spec c virtual
  obtain ⟨reservedBlock, lunOk⟩ := ok.lun die exist
  obtain ⟨low, high⟩ := lunOk.remapped member
  have next : (blockNo / c.userBlocksPerLun + 1) * totalBlocksPerLun ≤ c.lunsPerDie * totalBlocksPerLun :=
    Nat.mul_le_mul_right _ exist
  rw [Nat.succ_mul] at next
  refine ⟨Nat.div_eq_of_lt_le low (by rwa [Nat.succ_mul]), ?_⟩
  rw [FlashConfig.totalBlocksPerDie, Nat.mul_comm]
  exact lt_of_lt_of_le high next

/-- No physical block stands for two virtual ones. -/
theorem physicalBlock_inj (ok : RemapOk c bad s) (die : dieNo < c.geometry.userDies) :
    Set.InjOn (physicalBlock c s.phyBlock dieNo) (Set.Iio c.userBlocksPerDie) := by
  intro blockNo virtual blockNo' virtual' same
  obtain ⟨lun, exist, member, -, rfl⟩ := vblock2Pblock_spec c virtual
  obtain ⟨lun', -, member', -, other⟩ := vblock2Pblock_spec c virtual'
  have luns : blockNo / c.userBlocksPerLun = lun' := by
    rw [← (ok.physicalBlock_lun die virtual).1, ← other, ← (ok.physicalBlock_lun die virtual').1, same]
  obtain ⟨reservedBlock, lunOk⟩ := ok.lun die exist
  exact vblock2Pblock_inj c virtual virtual' (lunOk.replaces.once member (luns ▸ member') same)

/-- The flag a virtual block is entered with is that of its physical block. -/
theorem remappedBad_eq (ok : RemapOk c bad s) (die : dieNo < c.geometry.userDies)
    (virtual : blockNo < c.userBlocksPerDie) :
    remappedBad c s.phyBlock dieNo blockNo = some (bad dieNo (physicalBlock c s.phyBlock dieNo blockNo)) := by
  have inside := vblock2Pblock_lt c virtual
  have reached := (ok.physicalBlock_lun die virtual).2
  simp only [remappedBad, PhyBlockMap.entry_eq die inside, Option.bind_eq_bind, Option.bind_some]
  change (PhyBlockMap.entry c s.phyBlock dieNo (physicalBlock c s.phyBlock dieNo blockNo)).bind _ = _
  rw [PhyBlockMap.entry_eq die reached, Option.bind_some, ok.flags]

/-- `InitBlockMap` uses no index out of range and enters every block with that flag. -/
theorem initBlockMapOf_eq (ok : RemapOk c bad s) (die : dieNo < c.geometry.userDies) (d : VirtualDie) :
    initBlockMapOf c s.phyBlock dieNo d =
      some (initBlockMap c.geometry (fun b => bad dieNo (physicalBlock c s.phyBlock dieNo b)) d) := by
  have blocks : ∀ blockNos : List Nat, (∀ b ∈ blockNos, b < c.userBlocksPerDie) → ∀ d,
      blockNos.foldlM (fun d virtualBlockNo => do
        let bad ← remappedBad c s.phyBlock dieNo virtualBlockNo
        some (initBlock (fun _ => bad) d virtualBlockNo)) d =
      some (blockNos.foldl (initBlock fun b => bad dieNo (physicalBlock c s.phyBlock dieNo b)) d) := by
    intro blockNos
    induction blockNos with
    | nil => exact fun _ _ => rfl
    | cons blockNo blockNos ih =>
      intro all d
      have rest := ih (fun b member => all b (List.mem_cons_of_mem _ member))
        (initBlock (fun b => bad dieNo (physicalBlock c s.phyBlock dieNo b)) d blockNo)
      rw [List.foldlM_cons, ok.remappedBad_eq die (all blockNo (by simp)), List.foldl_cons, ← rest]
      simp only [Option.bind_eq_bind, Option.bind_some, initBlock]
  exact blocks _ (fun b member => List.mem_range.mp member) d

end RemapOk

/-! ### The rows -/

/-- The physical block of its die that a row address is in. -/
def rowBlock (rowAddr : Nat) : Nat :=
  if rowAddr < lun1BaseAddr then (rowAddr - lun0BaseAddr) / pagesPerMlcBlock
  else totalBlocksPerLun + (rowAddr - lun1BaseAddr) / pagesPerMlcBlock

/-- The row of a page of a block, decoded; the first LUN ends below the base of the second. -/
theorem rowBlock_row {lun pageNo : Nat} (exist : lun < 2) (block : blockNo < totalBlocksPerLun)
    (page : pageNo < pagesPerMlcBlock) :
    let rowAddr := lunBaseAddr lun + blockNo * pagesPerMlcBlock + pageNo
    rowBlock rowAddr = lun * totalBlocksPerLun + blockNo ∧ rowAddr % pagesPerMlcBlock = pageNo := by
  simp only [rowBlock, lunBaseAddr, lun0BaseAddr, lun1BaseAddr, totalBlocksPerLun, mainBlocksPerLun,
    extendedBlocksPerLun, pagesPerMlcBlock] at *
  rcases lun with - | lun
  · simp only [↓reduceIte]
    rw [if_pos (by omega)]
    omega
  · obtain rfl : lun = 0 := by omega
    simp only [Nat.add_eq_zero_iff, one_ne_zero, and_false, ↓reduceIte]
    rw [if_neg (by omega)]
    omega

/-- The slices of a die. -/
def OnDie (c : FlashConfig) (dieNo vsa : Nat) : Prop :=
  vsa2VdieTranslation c.geometry vsa = dieNo ∧ vsa2VblockTranslation c.geometry vsa < c.userBlocksPerDie

/-- Those whose virtual block is not marked bad. -/
def GoodSlice (c : FlashConfig) (die : Nat → VirtualDie) (dieNo vsa : Nat) : Prop :=
  OnDie c dieNo vsa ∧ ((die dieNo).block (vsa2VblockTranslation c.geometry vsa)).bad = false

/-- The row of a slice is within the map, and is that of its page in its physical block. -/
theorem RemapOk.generateNandRowAddr_spec {vsa : Nat} (ok : RemapOk c bad s) (die : dieNo < c.geometry.userDies)
    (slice : OnDie c dieNo vsa) :
    ∃ rowAddr, generateNandRowAddr c s.phyBlock { virtualSliceAddr := vsa } = some rowAddr ∧
      rowBlock rowAddr = physicalBlock c s.phyBlock dieNo (vsa2VblockTranslation c.geometry vsa) ∧
      rowAddr % pagesPerMlcBlock = vsa2VpageTranslation c.geometry vsa := by
  obtain ⟨rfl, virtual⟩ := slice
  obtain ⟨lun, exist, -, quotient, same⟩ := vblock2Pblock_spec c virtual
  obtain ⟨inLun, -⟩ := ok.physicalBlock_lun die virtual
  have luns : lun < 2 := by
    rcases c.luns with luns | luns <;> omega
  have positive : 0 < totalBlocksPerLun := by decide
  obtain ⟨block, page⟩ := rowBlock_row luns (Nat.mod_lt (physicalBlock c s.phyBlock (vsa2VdieTranslation c.geometry vsa)
    (vsa2VblockTranslation c.geometry vsa)) positive) (@vpage_lt c.geometry vsa)
  rw [same] at inLun
  refine ⟨_, ?_, block.trans ?_, page⟩
  · simp only [generateNandRowAddr, PhyBlockMap.entry_eq die (vblock2Pblock_lt c virtual), Option.bind_eq_bind,
      Option.bind_some, quotient]
    rfl
  · rw [← inLun, Nat.div_add_mod']

/-! ### Initialization -/

/-- What `InitBlockDieMap` promises of one die. -/
structure DieAddressed (c : FlashConfig) (bad : Nat → Nat → Bool) (bbtPhyBlock : Nat → Nat) (phy : PhyBlockMap)
    (die : Nat → VirtualDie) (dieNo : Nat) : Prop where
  /-- The row of every slice is found in the map. -/
  row : ∀ vsa, OnDie c dieNo vsa → ∃ rowAddr, generateNandRowAddr c phy { virtualSliceAddr := vsa } = some rowAddr
  /-- A good slice is in a good block of its LUN, and not in that of the table. -/
  good : ∀ vsa rowAddr, GoodSlice c die dieNo vsa →
    generateNandRowAddr c phy { virtualSliceAddr := vsa } = some rowAddr →
      bad dieNo (rowBlock rowAddr) = false ∧ rowBlock rowAddr ≠ bbtPhyBlock dieNo ∧
        rowBlock rowAddr / totalBlocksPerLun = vsa2VblockTranslation c.geometry vsa / c.userBlocksPerLun
  /-- Different good slices have different rows. -/
  distinct : Set.InjOn (fun vsa => generateNandRowAddr c phy { virtualSliceAddr := vsa })
    { vsa | GoodSlice c die dieNo vsa }
  /-- No physical block stands for two user blocks. -/
  once : Set.InjOn (physicalBlock c phy dieNo) (Set.Iio c.userBlocksPerDie)

/-- The recovered table with the block it is stored in. -/
def bbtMarked (c : FlashConfig) (bbtPhyBlock : Nat → Nat) (bad : Nat → Nat → Bool) (dieNo blockNo : Nat) : Bool :=
  bad dieNo blockNo || (decide (dieNo < c.geometry.userDies) && blockNo == bbtPhyBlock dieNo)

variable {bbtPhyBlock : Nat → Nat}

theorem initPhyBlockMap_self (bad : Nat → Nat → Bool) (inside : blockNo < c.totalBlocksPerDie) :
    (initPhyBlockMap bad dieNo blockNo).remappedPhyBlock = blockNo := by
  have total := c.totalBlocksPerDie_lt
  exact Nat.mod_eq_of_lt (by omega)

/-- Each die's block of the table is marked. -/
theorem markBbtPhyBlock (c : FlashConfig) (bad : Nat → Nat → Bool)
    (bbt : ∀ dieNo < c.geometry.userDies, bbtPhyBlock dieNo < c.totalBlocksPerDie) :
    (List.range c.geometry.userDies).foldlM
      (fun (phy : PhyBlockMap) dieNo => do
        let entry ← phy.entry c dieNo (bbtPhyBlock dieNo)
        phy.setEntry c dieNo (bbtPhyBlock dieNo) { entry with bad := true }) (initPhyBlockMap bad) =
      some (initPhyBlockMap (bbtMarked c bbtPhyBlock bad)) := by
  let mark (dieNo : Nat) (row : Nat → PhyBlock) : Nat → PhyBlock :=
    Function.update row (bbtPhyBlock dieNo) { row (bbtPhyBlock dieNo) with bad := true }
  refine (foldlM_pointwise (f := mark) (fun phy dieNo die => ?_) (initPhyBlockMap bad)).trans ?_
  · simp only [PhyBlockMap.entry_eq die (bbt dieNo die), PhyBlockMap.setEntry_eq die (bbt dieNo die),
      Option.bind_eq_bind, Option.bind_some, mark]
  · refine congrArg some (funext fun dieNo => funext fun blockNo => ?_)
    by_cases die : dieNo < c.geometry.userDies <;> by_cases block : blockNo = bbtPhyBlock dieNo <;>
      simp [bbtMarked, initPhyBlockMap, mark, die, block]

/-- Initialization uses no index into the map that is out of range, and enters the virtual
blocks with the flags of the physical ones that stand for them. -/
theorem initBlockDieMap_spec (c : FlashConfig) (bad : Nat → Nat → Bool)
    (bbt : ∀ dieNo < c.geometry.userDies, bbtPhyBlock dieNo < c.totalBlocksPerDie) :
    ∃ (s : RemapState) (die : Nat → VirtualDie),
      remapBlocks c (initPhyBlockMap (bbtMarked c bbtPhyBlock bad)) = some s ∧
      initBlockDieMap c bbtPhyBlock (initPhyBlockMap bad) =
        some (s.phyBlock, maxBadBlockCount c s * c.geometry.userDies * mbPerBlock, die) ∧
      RemapOk c (bbtMarked c bbtPhyBlock bad) s ∧
      ∀ dieNo < c.geometry.userDies, die dieNo = initCurrentBlockOfDieMap (initBlockMap c.geometry
        (fun b => bbtMarked c bbtPhyBlock bad dieNo (physicalBlock c s.phyBlock dieNo b)) (initDieMap {})) := by
  obtain ⟨s, remapping, ok⟩ := @remapBlocks_spec c (initPhyBlockMap (bbtMarked c bbtPhyBlock bad))
    (bbtMarked c bbtPhyBlock bad) (fun _ _ => rfl) (fun _ _ inside => initPhyBlockMap_self _ inside)
  let enter (dieNo : Nat) : VirtualDie → VirtualDie :=
    initBlockMap c.geometry fun b => bbtMarked c bbtPhyBlock bad dieNo (physicalBlock c s.phyBlock dieNo b)
  have entering : (List.range c.geometry.userDies).foldlM
      (fun (die : Nat → VirtualDie) dieNo => do
        let d ← initBlockMapOf c s.phyBlock dieNo (die dieNo)
        some (Function.update die dieNo d)) (fun _ => initDieMap {}) =
      some fun dieNo => if dieNo < c.geometry.userDies then enter dieNo (initDieMap {}) else initDieMap {} := by
    refine foldlM_pointwise (f := enter) (fun die dieNo exist => ?_) _
    simp only [ok.initBlockMapOf_eq exist, Option.bind_eq_bind, Option.bind_some, enter]
  refine ⟨s, fun dieNo => initCurrentBlockOfDieMap (if dieNo < c.geometry.userDies then
    enter dieNo (initDieMap {}) else initDieMap {}), remapping, ?_, ok, ?_⟩
  · rw [initBlockDieMap, markBbtPhyBlock c bad bbt]
    simp only [Option.bind_eq_bind] at entering
    simp only [Option.bind_eq_bind, Option.bind_some, remapBadBlock_eq remapping, entering]
  · intro dieNo die
    simp only [die, ↓reduceIte, enter]

/-- The dies are those the mapping layer starts from. -/
theorem initBlockDieMap_initFtl (c : FlashConfig) (bad : Nat → Nat → Bool)
    (bbt : ∀ dieNo < c.geometry.userDies, bbtPhyBlock dieNo < c.totalBlocksPerDie) :
    ∃ (flags : Nat → Nat → Bool) (phy : PhyBlockMap) (mbPerbadBlockSpace : Nat) (die : Nat → VirtualDie),
      initBlockDieMap c bbtPhyBlock (initPhyBlockMap bad) = some (phy, mbPerbadBlockSpace, die) ∧
      ∀ dieNo < c.geometry.userDies,
        (initFtl c.geometry flags).die dieNo = initGcVictimMap c.geometry (die dieNo) := by
  obtain ⟨s, die, -, initialized, -, dies⟩ := initBlockDieMap_spec c bad bbt
  refine ⟨fun dieNo b => bbtMarked c bbtPhyBlock bad dieNo (physicalBlock c s.phyBlock dieNo b), s.phyBlock,
    _, die, initialized, fun dieNo exist => ?_⟩
  rw [initFtl_die, initDie, dies dieNo exist]

/-- For every table of bad blocks, physical addresses are one to one after initialization:
different slices of good virtual blocks of a die have different rows, in good blocks of
the right LUN; and no index into the map is ever out of range. -/
theorem physical_addresses_distinct (c : FlashConfig) (bad : Nat → Nat → Bool) (bbtPhyBlock : Nat → Nat)
    (bbt : ∀ dieNo < c.geometry.userDies, bbtPhyBlock dieNo < c.totalBlocksPerDie) :
    ∃ (phy : PhyBlockMap) (mbPerbadBlockSpace : Nat) (die : Nat → VirtualDie),
      initBlockDieMap c bbtPhyBlock (initPhyBlockMap bad) = some (phy, mbPerbadBlockSpace, die) ∧
      ∀ dieNo < c.geometry.userDies, DieAddressed c bad bbtPhyBlock phy die dieNo := by
  obtain ⟨s, die, -, initialized, ok, dies⟩ := initBlockDieMap_spec c bad bbt
  refine ⟨s.phyBlock, _, die, initialized, fun dieNo exist => ?_⟩
  constructor
  · intro vsa slice
    obtain ⟨rowAddr, row, -⟩ := ok.generateNandRowAddr_spec exist slice
    exact ⟨rowAddr, row⟩
  · rintro vsa rowAddr ⟨slice, good⟩ generated
    obtain ⟨rowAddr', row, block, -⟩ := ok.generateNandRowAddr_spec exist slice
    cases row.symm.trans generated
    have entered := @initDieMap_bad c.geometry _
      (fun b => bbtMarked c bbtPhyBlock bad dieNo (physicalBlock c s.phyBlock dieNo b)) slice.2
    rw [← dies dieNo exist, good, ← block, bbtMarked] at entered
    simp only [exist, decide_true, Bool.true_and] at entered
    obtain ⟨free, other⟩ := Bool.or_eq_false_iff.mp entered.symm
    refine ⟨free, by simpa using other, ?_⟩
    rw [block]
    exact (ok.physicalBlock_lun exist slice.2).1
  · rintro vsa ⟨slice, -⟩ vsa' ⟨slice', -⟩ same
    obtain ⟨rowAddr, row, block, page⟩ := ok.generateNandRowAddr_spec exist slice
    obtain ⟨rowAddr', row', block', page'⟩ := ok.generateNandRowAddr_spec exist slice'
    simp only [row, row', Option.some.injEq] at same
    subst same
    have blocks := ok.physicalBlock_inj exist slice.2 slice'.2 (block.symm.trans block')
    calc vsa = vorg2VsaTranslation c.geometry dieNo (vsa2VblockTranslation c.geometry vsa) _ := by
            rw [← slice.1, vorg_of_vsa]
      _ = vorg2VsaTranslation c.geometry dieNo (vsa2VblockTranslation c.geometry vsa') _ := by
            rw [blocks, ← page, page']
      _ = vsa' := by rw [← slice'.1, vorg_of_vsa]
  · exact ok.physicalBlock_inj exist

/-- One die with two user blocks. -/
def tinyFlash : FlashConfig where
  userChannels := 1
  userWays := 1
  userBlocksPerLun := 2
  lunsPerDie := 1
  channels_pos := tinyGeometry.channels_pos
  ways_pos := tinyGeometry.ways_pos
  dies_fit := tinyGeometry.dies_fit
  luns := .inl rfl
  blocks_main := by decide

/-- The first block holds the table and the first reserved one is bad as well. -/
theorem physical_addresses_distinct_reserved :
    ∃ (phy : PhyBlockMap) (mbPerbadBlockSpace : Nat) (die : Nat → VirtualDie),
      initBlockDieMap tinyFlash (fun _ => 0) (initPhyBlockMap fun _ blockNo => blockNo == 2) =
        some (phy, mbPerbadBlockSpace, die) ∧
      (phy 0 0).remappedPhyBlock = 3 ∧ DieAddressed tinyFlash (fun _ blockNo => blockNo == 2) (fun _ => 0) phy die 0 := by
  obtain ⟨phy, mbPerbadBlockSpace, die, initialized, dies⟩ :=
    physical_addresses_distinct tinyFlash (fun _ blockNo => blockNo == 2) (fun _ => 0) fun _ _ => by decide
  refine ⟨phy, mbPerbadBlockSpace, die, initialized, ?_, dies 0 (by decide)⟩
  have shown : (initBlockDieMap tinyFlash (fun _ => 0) (initPhyBlockMap fun _ blockNo => blockNo == 2)).any
      (fun r => (r.1 0 0).remappedPhyBlock = 3) = true := by decide +kernel
  rw [initialized] at shown
  exact of_decide_eq_true shown

end OcpFw
