import Mathlib.Algebra.BigOperators.Group.Finset.Basic
import Mathlib.Algebra.Order.BigOperators.Group.Finset
import OcpFw.Capacity
import OcpFw.ReservedBlocks

/-! The capacity `InitFTL` advertises against the blocks `InitBlockMap` enters. The largest
number of blocks a die could not replace is kept free on all dies, beside one block a die
and a tenth of the device; the difference to the device is unsigned. -/
namespace OcpFw

variable {c : FlashConfig} {bad : Nat → Nat → Bool} {s : RemapState} {die : Nat → VirtualDie} {m : Nat}

/-- The virtual blocks that are not marked bad. -/
def usableBlocks (c : FlashConfig) (die : Nat → VirtualDie) : Nat :=
  ∑ dieNo ∈ Finset.range c.geometry.userDies,
    Nat.count (fun b => ((die dieNo).block b).bad = false) c.userBlocksPerDie

/-- A capacity that the flash has room for, beside one free block of every die. -/
structure CapacityFits (c : FlashConfig) (storageCapacityL : Nat) (die : Nat → VirtualDie) : Prop where
  /-- The blocks that are left hold it, or there is none because they would hold nothing. -/
  space : storageCapacityL / nvmeBlocksPerSlice + c.geometry.userDies * c.geometry.slicesPerBlock ≤
      usableBlocks c die * c.geometry.slicesPerBlock ∨
    storageCapacityL = 0 ∧ usableBlocks c die < c.geometry.userDies
  /-- No block below it is in a slice outside the map. -/
  range : ∀ lba < storageCapacityL, lba / nvmeBlocksPerSlice < c.geometry.slicesPerSsd
  /-- A slice with such a block is read without an assertion, whatever the state. -/
  read : ∀ lba < storageCapacityL, ∀ s : Ftl, (addrTransRead c.geometry s (lba / nvmeBlocksPerSlice)).isSome
  /-- A write of it fails only where no page is found for it. -/
  write : ∀ lba < storageCapacityL, ∀ s : Ftl, addrTransWrite c.geometry s (lba / nvmeBlocksPerSlice) = none →
    findFreeVirtualSlice c.geometry (invalidateOldVsa c.geometry s (lba / nvmeBlocksPerSlice)) = none

/-- On no die so many blocks are left over that all that is kept free exceeds the device. -/
def CapacityCovered (c : FlashConfig) (bad : Nat → Nat → Bool) : Prop :=
  ∀ dieNo < c.geometry.userDies,
    (unreplaceableOfDie c (bad dieNo) + 1) * c.geometry.userDies + c.geometry.userBlocksPerSsd / 10 ≤
      c.geometry.userBlocksPerSsd

/-! ### What is kept free -/

/-- A maximum taken in a loop. -/
theorem foldl_max_le_iff (f : Nat → Nat) (xs : List Nat) (init bound : Nat) :
    xs.foldl (fun m x => max m (f x)) init ≤ bound ↔ init ≤ bound ∧ ∀ x ∈ xs, f x ≤ bound := by
  induction xs generalizing init with
  | nil => simp
  | cons x xs ih => simp only [List.foldl_cons, ih, max_le_iff, List.forall_mem_cons, and_assoc]

theorem maxBadBlockCount_le_iff {bound : Nat} :
    maxBadBlockCount c s ≤ bound ↔ ∀ dieNo < c.geometry.userDies, s.badBlockCount dieNo ≤ bound := by
  simp [maxBadBlockCount, foldl_max_le_iff]

theorem FlashConfig.userBlocksPerSsd_le (c : FlashConfig) : c.geometry.userBlocksPerSsd ≤ 1398784 :=
  (Nat.mul_le_mul c.userBlocksPerDie_le c.dies_fit).trans (by decide)

/-- As long as what is kept free is no more than the device, the capacity is the rest. -/
theorem storageCapacityL_of_le
    (covered : (m + 1) * c.geometry.userDies + c.geometry.userBlocksPerSsd / 10 ≤ c.geometry.userBlocksPerSsd) :
    c.geometry.storageCapacityL (m * c.geometry.userDies * mbPerBlock) =
      (c.geometry.userBlocksPerSsd - ((m + 1) * c.geometry.userDies + c.geometry.userBlocksPerSsd / 10)) * 1024 := by
  have few := c.userBlocksPerSsd_le
  have perBlock : c.geometry.mbPerBlock = 4 := by
    show bytesPerDataRegionOfSlice * pagesPerSlcBlock / (1024 * 1024) = 4
    decide
  have perMb : 1024 * 1024 / bytesPerNvmeBlock = 256 := by decide
  have block : mbPerBlock = 4 := by decide
  rw [Nat.add_mul, Nat.one_mul] at covered ⊢
  rw [Geometry.storageCapacityL, Geometry.mbPerSsd, Geometry.mbPerMinFreeBlockSpace,
    Geometry.mbPerOverProvisionBlockSpace, perBlock, perMb, block, sub32]
  omega

/-- Otherwise the subtraction wraps, to more than any flash has. -/
theorem storageCapacityL_of_lt (most : m ≤ c.userBlocksPerDie)
    (wraps : c.geometry.userBlocksPerSsd < (m + 1) * c.geometry.userDies + c.geometry.userBlocksPerSsd / 10) :
    2 ^ 31 ≤ c.geometry.storageCapacityL (m * c.geometry.userDies * mbPerBlock) := by
  have few := c.userBlocksPerSsd_le
  have dies := c.dies_fit
  change c.geometry.userDies ≤ 256 at dies
  have all : m * c.geometry.userDies ≤ c.geometry.userBlocksPerSsd := Nat.mul_le_mul_right _ most
  have perBlock : c.geometry.mbPerBlock = 4 := by
    show bytesPerDataRegionOfSlice * pagesPerSlcBlock / (1024 * 1024) = 4
    decide
  have perMb : 1024 * 1024 / bytesPerNvmeBlock = 256 := by decide
  have block : mbPerBlock = 4 := by decide
  rw [Nat.add_mul, Nat.one_mul] at wraps
  rw [Geometry.storageCapacityL, Geometry.mbPerSsd, Geometry.mbPerMinFreeBlockSpace,
    Geometry.mbPerOverProvisionBlockSpace, perBlock, perMb, block, sub32]
  omega

/-! ### What is left -/

/-- A block is bad or not. -/
theorem count_bad_add (flag : Nat → Bool) (n : Nat) :
    Nat.count (fun b => flag b = false) n + Nat.count (fun b => flag b = true) n = n := by
  induction n with
  | zero => simp
  | succ n ih =>
    rw [Nat.count_succ, Nat.count_succ]
    cases flag n <;> simp <;> omega

/-- The blocks `InitBlockMap` leaves usable, and those it does not. -/
theorem usableBlocks_add (counted : ∀ dieNo < c.geometry.userDies, DieCount c (bad dieNo) s dieNo c.userBlocksPerLun)
    (dies : ∀ dieNo < c.geometry.userDies, die dieNo = initCurrentBlockOfDieMap (initBlockMap c.geometry
      (fun b => bad dieNo (physicalBlock c s.phyBlock dieNo b)) (initDieMap {}))) :
    usableBlocks c die + ∑ dieNo ∈ Finset.range c.geometry.userDies, unreplaceableOfDie c (bad dieNo) =
      c.geometry.userBlocksPerSsd := by
  have whole : ∀ dieNo ∈ Finset.range c.geometry.userDies,
      Nat.count (fun b => ((die dieNo).block b).bad = false) c.userBlocksPerDie +
        unreplaceableOfDie c (bad dieNo) = c.userBlocksPerDie := by
    intro dieNo member
    have exist := Finset.mem_range.mp member
    have entered : ∀ b < c.userBlocksPerDie,
        ((die dieNo).block b).bad = bad dieNo (physicalBlock c s.phyBlock dieNo b) := by
      intro b low
      rw [dies dieNo exist, @initDieMap_bad c.geometry b _ low]
    rw [count_congr fun b low => by rw [entered b low], ← (counted dieNo exist).badVirtualBlocks_eq]
    exact count_bad_add _ _
  rw [usableBlocks, ← Finset.sum_add_distrib, Finset.sum_const_nat whole, Finset.card_range, Nat.mul_comm]
  rfl

/-- The tables are covered exactly when the largest count is. -/
theorem capacityCovered_iff
    (counted : ∀ dieNo < c.geometry.userDies, DieCount c (bad dieNo) s dieNo c.userBlocksPerLun) :
    CapacityCovered c bad ↔ (maxBadBlockCount c s + 1) * c.geometry.userDies + c.geometry.userBlocksPerSsd / 10 ≤
      c.geometry.userBlocksPerSsd := by
  have positive := c.geometry.dies_pos
  constructor
  · intro covered
    set rest := c.geometry.userBlocksPerSsd - c.geometry.userBlocksPerSsd / 10 with hrest
    have each : ∀ dieNo < c.geometry.userDies, s.badBlockCount dieNo + 1 ≤ rest / c.geometry.userDies := by
      intro dieNo exist
      rw [(counted dieNo exist).badBlockCount_eq, Nat.le_div_iff_mul_le positive]
      have := covered dieNo exist
      omega
    have some := each 0 positive
    have most : maxBadBlockCount c s ≤ rest / c.geometry.userDies - 1 :=
      maxBadBlockCount_le_iff.mpr fun dieNo exist => by have := each dieNo exist; omega
    have scaled : (maxBadBlockCount c s + 1) * c.geometry.userDies ≤ rest :=
      (Nat.le_div_iff_mul_le positive).mp (by omega)
    omega
  · intro most dieNo exist
    have less : unreplaceableOfDie c (bad dieNo) ≤ maxBadBlockCount c s := by
      rw [← (counted dieNo exist).badBlockCount_eq]
      exact maxBadBlockCount_le_iff.mp le_rfl dieNo exist
    have scaled := Nat.mul_le_mul_right c.geometry.userDies (Nat.succ_le_succ less)
    exact (Nat.add_le_add_right scaled _).trans most

/-- The capacity fits exactly for the tables of which the largest number of blocks left over
is covered. -/
theorem capacityFits_iff (counted : ∀ dieNo < c.geometry.userDies, DieCount c (bad dieNo) s dieNo c.userBlocksPerLun)
    (dies : ∀ dieNo < c.geometry.userDies, die dieNo = initCurrentBlockOfDieMap (initBlockMap c.geometry
      (fun b => bad dieNo (physicalBlock c s.phyBlock dieNo b)) (initDieMap {}))) :
    CapacityFits c (c.geometry.storageCapacityL (maxBadBlockCount c s * c.geometry.userDies * mbPerBlock)) die ↔
      CapacityCovered c bad := by
  have whole := usableBlocks_add counted dies
  have few := c.userBlocksPerSsd_le
  have perSlice : nvmeBlocksPerSlice = 4 := by decide
  have slices : c.geometry.slicesPerBlock = 256 := rfl
  rw [capacityCovered_iff counted]
  constructor
  · intro fits
    by_contra uncovered
    have most : maxBadBlockCount c s ≤ c.userBlocksPerDie := by
      refine maxBadBlockCount_le_iff.mpr fun dieNo exist => ?_
      rw [(counted dieNo exist).badBlockCount_eq, ← (counted dieNo exist).badVirtualBlocks_eq]
      exact Nat.count_le _
    have wrapped := storageCapacityL_of_lt most (Nat.lt_of_not_le uncovered)
    have space := fits.space
    rw [perSlice, slices] at space
    omega
  · intro covered
    have sum : ∑ dieNo ∈ Finset.range c.geometry.userDies, unreplaceableOfDie c (bad dieNo) ≤
        maxBadBlockCount c s * c.geometry.userDies := by
      rw [Nat.mul_comm]
      refine (Finset.sum_le_card_nsmul _ _ (maxBadBlockCount c s) fun dieNo member => ?_).trans_eq
        (by rw [Finset.card_range]; rfl)
      have exist := Finset.mem_range.mp member
      rw [← (counted dieNo exist).badBlockCount_eq]
      exact maxBadBlockCount_le_iff.mp le_rfl dieNo exist
    have ssd : c.geometry.slicesPerSsd = c.geometry.userBlocksPerSsd * 256 := by
      show c.geometry.userDies * (c.geometry.userBlocksPerDie * 256) = _
      rw [← Nat.mul_assoc, Nat.mul_comm c.geometry.userDies]
      rfl
    have capacity := storageCapacityL_of_le covered
    rw [Nat.add_mul, Nat.one_mul] at covered capacity
    have range : ∀ lba < c.geometry.storageCapacityL (maxBadBlockCount c s * c.geometry.userDies * mbPerBlock),
        lba / nvmeBlocksPerSlice < c.geometry.slicesPerSsd := by
      intro lba below
      rw [capacity] at below
      rw [perSlice, ssd]
      omega
    refine ⟨.inl ?_, range, fun lba below s => ?_, fun lba below s failed => ?_⟩
    · rw [capacity, perSlice, slices]
      omega
    · rw [addrTransRead, if_pos (range lba below)]
      split <;> rfl
    · rw [addrTransWrite, if_pos (range lba below)] at failed
      cases found : findFreeVirtualSlice c.geometry (invalidateOldVsa c.geometry s (lba / nvmeBlocksPerSlice)) with
      | none => rfl
      | some result =>
        simp only [found, Option.bind_eq_bind, Option.bind_some, reduceCtorEq] at failed

/-- For every table of bad blocks, the capacity advertised fits the blocks that are left
exactly if what is kept free for the worst die, for a free block of each die and for a
tenth of the device is no more than the device. -/
theorem advertisedCapacity_fits_iff (c : FlashConfig) (bad : Nat → Nat → Bool) (bbtPhyBlock : Nat → Nat)
    (bbt : ∀ dieNo < c.geometry.userDies, bbtPhyBlock dieNo < c.totalBlocksPerDie) :
    ∃ (phy : PhyBlockMap) (mbPerbadBlockSpace : Nat) (die : Nat → VirtualDie),
      initBlockDieMap c bbtPhyBlock (initPhyBlockMap bad) = some (phy, mbPerbadBlockSpace, die) ∧
      (CapacityFits c (c.geometry.storageCapacityL mbPerbadBlockSpace) die ↔
        CapacityCovered c (bbtMarked c bbtPhyBlock bad)) := by
  obtain ⟨s, die, remapping, initialized, -, dies⟩ := initBlockDieMap_spec c bad bbt
  have counted := remapBlocks_count (fun _ _ => rfl) (fun _ _ inside => initPhyBlockMap_self _ inside) remapping
  exact ⟨s.phyBlock, _, die, initialized, capacityFits_iff counted dies⟩

/-- Of two user blocks the first holds the table and is replaced. -/
theorem advertisedCapacity_fits_iff_replaced :
    ∃ (phy : PhyBlockMap) (mbPerbadBlockSpace : Nat) (die : Nat → VirtualDie),
      initBlockDieMap tinyFlash (fun _ => 0) (initPhyBlockMap fun _ blockNo => blockNo == 2) =
        some (phy, mbPerbadBlockSpace, die) ∧
      CapacityFits tinyFlash (tinyFlash.geometry.storageCapacityL mbPerbadBlockSpace) die := by
  obtain ⟨phy, mbPerbadBlockSpace, die, initialized, fits⟩ :=
    advertisedCapacity_fits_iff tinyFlash (fun _ blockNo => blockNo == 2) (fun _ => 0) fun _ _ => by decide
  have covered : CapacityCovered tinyFlash (bbtMarked tinyFlash (fun _ => 0) fun _ blockNo => blockNo == 2) := by
    intro dieNo exist
    obtain rfl : dieNo = 0 := Nat.lt_one_iff.mp exist
    decide +kernel
  exact ⟨phy, mbPerbadBlockSpace, die, initialized, fits.mpr covered⟩

/-- The flash of the configuration as it stands. -/
def configuredFlash : FlashConfig where
  userChannels := 8
  userWays := 8
  userBlocksPerLun := 2048
  lunsPerDie := 1
  channels_pos := by decide
  ways_pos := by decide
  dies_fit := by decide
  luns := tinyFlash.luns
  blocks_main := by decide

/-- On the first die only the first 100 blocks are good: 1949 user blocks are left over, and
64 times as many blocks with the others that are kept free are more than the device has. -/
theorem advertisedCapacity_wraps :
    ¬ ∀ (c : FlashConfig) (bad : Nat → Nat → Bool) (bbtPhyBlock : Nat → Nat),
      (∀ dieNo < c.geometry.userDies, bbtPhyBlock dieNo < c.totalBlocksPerDie) →
      ∀ (phy : PhyBlockMap) (mbPerbadBlockSpace : Nat) (die : Nat → VirtualDie),
        initBlockDieMap c bbtPhyBlock (initPhyBlockMap bad) = some (phy, mbPerbadBlockSpace, die) →
        CapacityFits c (c.geometry.storageCapacityL mbPerbadBlockSpace) die := by
  intro claim
  let bad (dieNo blockNo : Nat) : Bool := dieNo == 0 && decide (100 ≤ blockNo)
  have bbt : ∀ dieNo < configuredFlash.geometry.userDies, 0 < configuredFlash.totalBlocksPerDie :=
    fun _ _ => by decide
  obtain ⟨s, die, remapping, initialized, -, dies⟩ := initBlockDieMap_spec configuredFlash bad bbt
  have counted := remapBlocks_count (fun _ _ => rfl) (fun _ _ inside => initPhyBlockMap_self _ inside) remapping
  have covered := (capacityFits_iff counted dies).mp (claim configuredFlash bad (fun _ => 0) bbt _ _ _ initialized)
  have first := covered 0 (by decide)
  have tooMany : ¬ (unreplaceableOfDie configuredFlash (bbtMarked configuredFlash (fun _ => 0) bad 0) + 1) *
      configuredFlash.geometry.userDies + configuredFlash.geometry.userBlocksPerSsd / 10 ≤
        configuredFlash.geometry.userBlocksPerSsd := by decide +kernel
  exact tooMany first

end OcpFw
