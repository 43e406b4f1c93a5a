import Mathlib.Algebra.BigOperators.Group.Finset.Basic
import Mathlib.Data.Nat.Count
import OcpFw.BadBlocks

/-! How many blocks `RemapBadBlock` cannot replace. On each LUN the reserved blocks are
handed out in order to the bad user blocks in order, bad ones are skipped, and what is
left over when they run out is counted. -/
namespace OcpFw
open Runs (foldlM_range)

variable {c : FlashConfig} {phy phy' : PhyBlockMap} {dieNo blockNo base limit reservedBlock reservedBlock' : Nat}
  {badBlockCount badBlockCount' : Nat}

/-! ### Counting -/

/-- The bad ones among the first user blocks of a LUN. -/
def badUserBlocks (bad : Nat → Bool) (base n : Nat) : Nat :=
  Nat.count (fun i => bad (base + i) = true) n

/-- The good ones among the first reserved blocks of a LUN. -/
def goodReservedBlocks (c : FlashConfig) (bad : Nat → Bool) (base n : Nat) : Nat :=
  Nat.count (fun i => bad (base + c.userBlocksPerLun + i) = false) n

/-- The bad user blocks of a LUN for which there is no good reserved block. -/
def unreplaceable (c : FlashConfig) (bad : Nat → Bool) (base : Nat) : Nat :=
  badUserBlocks bad base c.userBlocksPerLun -
    goodReservedBlocks c bad base (totalBlocksPerLun - c.userBlocksPerLun)

/-- Those of all LUNs of a die. -/
def unreplaceableOfDie (c : FlashConfig) (bad : Nat → Bool) : Nat :=
  ∑ lun ∈ Finset.range c.lunsPerDie, unreplaceable c bad (lun * totalBlocksPerLun)

theorem badUserBlocks_succ (bad : Nat → Bool) (base n : Nat) :
    badUserBlocks bad base (n + 1) = badUserBlocks bad base n + if bad (base + n) = true then 1 else 0 :=
  Nat.count_succ ..

theorem goodReservedBlocks_succ (c : FlashConfig) (bad : Nat → Bool) (base n : Nat) :
    goodReservedBlocks c bad base (n + 1) =
      goodReservedBlocks c bad base n + if bad (base + c.userBlocksPerLun + n) = false then 1 else 0 :=
  Nat.count_succ ..

/-- Bad reserved blocks do not count. -/
theorem goodReservedBlocks_skip {bad : Nat → Bool} {found : Nat} (above : base + c.userBlocksPerLun ≤ reservedBlock)
    (low : reservedBlock ≤ found) (skipped : ∀ b, reservedBlock ≤ b → b < found → bad b = true) :
    goodReservedBlocks c bad base (found - (base + c.userBlocksPerLun)) =
      goodReservedBlocks c bad base (reservedBlock - (base + c.userBlocksPerLun)) := by
  set before := reservedBlock - (base + c.userBlocksPerLun) with hbefore
  have none : Nat.count (fun i => bad (base + c.userBlocksPerLun + (before + i)) = false) (found - reservedBlock) =
      0 := by
    rw [Nat.count_iff_forall_not]
    intro i inside
    simp [skipped (base + c.userBlocksPerLun + (before + i)) (by omega) (by omega)]
  rw [show found - (base + c.userBlocksPerLun) = before + (found - reservedBlock) by omega, goodReservedBlocks,
    Nat.count_add, none, Nat.add_zero, goodReservedBlocks]

/-! ### One block -/

theorem PhyBlockMap.entry_some {entry : PhyBlock} (read : phy.entry c dieNo blockNo = some entry) :
    entry = phy dieNo blockNo := by
  unfold PhyBlockMap.entry at read
  split at read
  · exact (Option.some.inj read).symm
  · cases read

theorem PhyBlockMap.setEntry_some {entry : PhyBlock} (stored : phy.setEntry c dieNo blockNo entry = some phy') :
    phy' = Function.update phy dieNo (Function.update (phy dieNo) blockNo entry) := by
  unfold PhyBlockMap.setEntry at stored
  split at stored
  · exact (Option.some.inj stored).symm
  · cases stored

/-- The search passes bad blocks only, and stops before the end just at a good one. -/
theorem findReservedBlock_ends {left found : Nat} {remapFlag : Bool}
    (search : findReservedBlock c phy dieNo left reservedBlock = some (found, remapFlag)) :
    reservedBlock ≤ found ∧ (∀ b, reservedBlock ≤ b → b < found → (phy dieNo b).bad = true) ∧
      if remapFlag then found < reservedBlock + left ∧ (phy dieNo found).bad = false
      else found = reservedBlock + left := by
  induction left generalizing reservedBlock with
  | zero =>
    cases search
    exact ⟨le_rfl, fun b low high => by omega, rfl⟩
  | succ left ih =>
    simp only [findReservedBlock, Option.bind_eq_bind, Option.bind_eq_some_iff] at search
    obtain ⟨entry, read, search⟩ := search
    obtain rfl := PhyBlockMap.entry_some read
    cases bad : (phy dieNo reservedBlock).bad with
    | false =>
      rw [bad, if_neg (by decide)] at search
      cases search
      exact ⟨le_rfl, fun b low high => by omega, Nat.lt_add_of_pos_right (Nat.succ_pos _), bad⟩
    | true =>
      rw [bad, if_pos rfl] at search
      obtain ⟨low, skipped, stop⟩ := ih search
      refine ⟨by omega, fun b first last => ?_, ?_⟩
      · rcases Nat.eq_or_lt_of_le first with rfl | later
        · exact bad
        · exact skipped b later last
      · rwa [show reservedBlock + (left + 1) = reservedBlock + 1 + left by omega]

/-- A good user block is left alone, a bad one gets the next good reserved block, and when
there is none it is counted. -/
theorem remapUserBlock_cases (inside : reservedBlock ≤ limit)
    (turn : remapUserBlock c phy dieNo blockNo limit reservedBlock badBlockCount =
      some (phy', reservedBlock', badBlockCount')) :
    ((phy dieNo blockNo).bad = false ∧ phy' = phy ∧ reservedBlock' = reservedBlock ∧
      badBlockCount' = badBlockCount) ∨
    ((phy dieNo blockNo).bad = true ∧ ∃ found, reservedBlock ≤ found ∧ found < limit ∧
      (∀ b, reservedBlock ≤ b → b < found → (phy dieNo b).bad = true) ∧ (phy dieNo found).bad = false ∧
      phy' = Function.update phy dieNo (Function.update (phy dieNo) blockNo
        { phy dieNo blockNo with remappedPhyBlock := found % 65536 }) ∧
      reservedBlock' = found + 1 ∧ badBlockCount' = badBlockCount) ∨
    ((phy dieNo blockNo).bad = true ∧ (∀ b, reservedBlock ≤ b → b < limit → (phy dieNo b).bad = true) ∧
      phy' = phy ∧ reservedBlock' = limit ∧ badBlockCount' = badBlockCount + 1) := by
  simp only [remapUserBlock, Option.bind_eq_bind, Option.bind_eq_some_iff] at turn
  obtain ⟨entry, read, turn⟩ := turn
  obtain rfl := PhyBlockMap.entry_some read
  cases bad : (phy dieNo blockNo).bad with
  | false =>
    rw [bad, if_neg (by decide)] at turn
    cases turn
    exact .inl ⟨rfl, rfl, rfl, rfl⟩
  | true =>
    rw [bad, if_pos rfl] at turn
    split at turn
    swap
    · cases turn
      exact .inr (.inr ⟨rfl, fun b low high => by omega, rfl, by omega, rfl⟩)
    simp only [Option.bind_eq_some_iff] at turn
    obtain ⟨⟨found, remapFlag⟩, search, turn⟩ := turn
    obtain ⟨low, skipped, stop⟩ := findReservedBlock_ends search
    cases remapFlag with
    | false =>
      simp only [Bool.false_eq_true, ↓reduceIte] at stop turn
      obtain rfl : found = limit := by omega
      cases turn
      exact .inr (.inr ⟨rfl, skipped, rfl, rfl, rfl⟩)
    | true =>
      rw [if_pos rfl] at stop
      simp only [↓reduceIte, Option.bind_eq_some_iff] at turn
      obtain ⟨entry, read, phy₁, stored, turn⟩ := turn
      obtain rfl := PhyBlockMap.entry_some read
      cases turn
      exact .inr (.inl ⟨rfl, found, low, by omega, skipped, stop.2, PhyBlockMap.setEntry_some stored, rfl, rfl⟩)

/-! ### One LUN -/

/-- A LUN after its first `n` user blocks: the bad ones have taken the good reserved blocks
so far, and `short` of them found none. -/
structure LunCount (c : FlashConfig) (bad : Nat → Bool) (row : Nat → PhyBlock) (base n reservedBlock short : Nat) :
    Prop where
  above : base + c.userBlocksPerLun ≤ reservedBlock
  inside : reservedBlock ≤ base + totalBlocksPerLun
  served : badUserBlocks bad base n =
    goodReservedBlocks c bad base (reservedBlock - (base + c.userBlocksPerLun)) + short
  dry : 0 < short → reservedBlock = base + totalBlocksPerLun
  left : Nat.count (fun i => bad (row (base + i)).remappedPhyBlock = true) n = short
  later : ∀ i, n ≤ i → i < c.userBlocksPerLun → (row (base + i)).remappedPhyBlock = base + i

namespace LunCount

variable {bad : Nat → Bool} {row row' : Nat → PhyBlock} {n short : Nat}

/-- Nothing is asked for yet. -/
theorem start (same : ∀ i < c.userBlocksPerLun, (row (base + i)).remappedPhyBlock = base + i) :
    LunCount c bad row base 0 (base + c.userBlocksPerLun) 0 where
  above := le_rfl
  inside := Nat.add_le_add_left c.blocks_lt.le _
  served := by simp [badUserBlocks, goodReservedBlocks]
  dry := nofun
  left := Nat.count_zero _
  later i _ := same i

/-- Only the entries of its user blocks matter. -/
theorem frame (ok : LunCount c bad row base n reservedBlock short)
    (same : ∀ i < c.userBlocksPerLun, row' (base + i) = row (base + i)) (few : n ≤ c.userBlocksPerLun) :
    LunCount c bad row' base n reservedBlock short where
  above := ok.above
  inside := ok.inside
  served := ok.served
  dry := ok.dry
  left := by
    rw [← ok.left]
    exact count_congr fun i low => by rw [same i (low.trans_le few)]
  later i first last := by rw [same i last, ok.later i first last]

/-- The turn of the next user block. -/
theorem turn (ok : LunCount c bad (phy dieNo) base n reservedBlock short)
    (flags : ∀ b, (phy dieNo b).bad = bad b) (next : n < c.userBlocksPerLun)
    (lun : base + totalBlocksPerLun ≤ c.totalBlocksPerDie)
    (turn : remapUserBlock c phy dieNo (base + n) (base + totalBlocksPerLun) reservedBlock badBlockCount =
      some (phy', reservedBlock', badBlockCount')) :
    ∃ short', LunCount c bad (phy' dieNo) base (n + 1) reservedBlock' short' ∧
      badBlockCount' + short = badBlockCount + short' := by
  have above := ok.above
  have inside := ok.inside
  have step := badUserBlocks_succ bad base n
  rcases remapUserBlock_cases ok.inside turn with ⟨good, rfl, rfl, rfl⟩ |
    ⟨isBad, found, low, high, skipped, good, rfl, rfl, rfl⟩ | ⟨isBad, skipped, rfl, rfl, rfl⟩
  · rw [flags] at good
    refine ⟨short, ⟨above, inside, ?_, ok.dry, ?_, fun i first => ok.later i (by omega)⟩, rfl⟩
    · rw [step, good, ok.served]
      simp
    · rw [Nat.count_succ, ok.left, ok.later n le_rfl next, good]
      simp
  · rw [flags] at isBad good
    have fits : found % 65536 = found := Nat.mod_eq_of_lt (by have := c.totalBlocksPerDie_lt; omega)
    have none : short = 0 := by
      rcases Nat.eq_zero_or_pos short with none | some
      · exact none
      · have := ok.dry some
        omega
    subst none
    refine ⟨0, ⟨by omega, by omega, ?_, nofun, ?_, fun i first last => ?_⟩, rfl⟩
    · have here : base + c.userBlocksPerLun + (found - (base + c.userBlocksPerLun)) = found := by omega
      rw [step, isBad, ok.served, show found + 1 - (base + c.userBlocksPerLun) =
          found - (base + c.userBlocksPerLun) + 1 by omega, goodReservedBlocks_succ, here, good,
        goodReservedBlocks_skip above low fun b first last => (flags b).symm.trans (skipped b first last)]
      simp
    · have before : Nat.count (fun i => bad ((Function.update (phy dieNo) (base + n)
          { phy dieNo (base + n) with remappedPhyBlock := found % 65536 }) (base + i)).remappedPhyBlock = true) n =
          0 := by
        rw [Nat.count_iff_forall_not]
        intro i low
        rw [Function.update_of_ne (by omega)]
        exact Nat.count_iff_forall_not.mp ok.left i low
      simp only [Function.update_self]
      rw [Nat.count_succ, before, Function.update_self]
      simp [fits, good]
    · simp only [Function.update_self]
      rw [Function.update_of_ne (by omega)]
      exact ok.later i (by omega) last
  · rw [flags] at isBad
    refine ⟨short + 1, ⟨by omega, le_rfl, ?_, fun _ => rfl, ?_, fun i first => ok.later i (by omega)⟩, by omega⟩
    · rw [step, isBad, ok.served,
        goodReservedBlocks_skip above inside fun b first last => (flags b).symm.trans (skipped b first last)]
      simp
      omega
    · rw [Nat.count_succ, ok.left, ok.later n le_rfl next, isBad]
      simp

/-- What is left over at the end. -/
theorem short_eq (ok : LunCount c bad row base c.userBlocksPerLun reservedBlock short) :
    short = unreplaceable c bad base := by
  have served := ok.served
  have inside := ok.inside
  have above := ok.above
  rcases Nat.eq_zero_or_pos short with none | some
  · have few : goodReservedBlocks c bad base (reservedBlock - (base + c.userBlocksPerLun)) ≤
        goodReservedBlocks c bad base (totalBlocksPerLun - c.userBlocksPerLun) :=
      Nat.count_monotone _ (by omega)
    unfold unreplaceable
    omega
  · rw [ok.dry some, show base + totalBlocksPerLun - (base + c.userBlocksPerLun) =
      totalBlocksPerLun - c.userBlocksPerLun by omega] at served
    unfold unreplaceable
    omega

end LunCount

/-! ### One die -/

/-- Only the entry of the block itself changes, and no flag does. -/
theorem remapUserBlock_frame (inside : reservedBlock ≤ limit)
    (turn : remapUserBlock c phy dieNo blockNo limit reservedBlock badBlockCount =
      some (phy', reservedBlock', badBlockCount')) :
    (∀ d b, (phy' d b).bad = (phy d b).bad) ∧ ∀ d b, ¬ (d = dieNo ∧ b = blockNo) → phy' d b = phy d b := by
  rcases remapUserBlock_cases inside turn with ⟨-, rfl, -⟩ | ⟨-, found, -, -, -, -, rfl, -⟩ | ⟨-, -, rfl, -⟩
  · exact ⟨fun _ _ => rfl, fun _ _ _ => rfl⟩
  · constructor <;> intro d b
    · by_cases die : d = dieNo
      · subst die
        by_cases block : b = blockNo <;> simp [block]
      · simp [die]
    · intro other
      by_cases die : d = dieNo
      · subst die
        have apart : b ≠ blockNo := fun block => other ⟨rfl, block⟩
        simp [apart]
      · simp [die]
  · exact ⟨fun _ _ => rfl, fun _ _ _ => rfl⟩

/-- A die after the first `n` user blocks of its LUNs. -/
structure DieCount (c : FlashConfig) (bad : Nat → Bool) (s : RemapState) (dieNo n : Nat) : Prop where
  flags : ∀ b, (s.phyBlock dieNo b).bad = bad b
  luns : ∃ short0 short1, s.badBlockCount dieNo = short0 + short1 ∧
    LunCount c bad (s.phyBlock dieNo) 0 n (s.reservedBlockOfLun0 dieNo) short0 ∧
    if c.lunsPerDie > 1 then
      LunCount c bad (s.phyBlock dieNo) totalBlocksPerLun n (s.reservedBlockOfLun1 dieNo) short1
    else short1 = 0

namespace DieCount

variable {bad : Nat → Bool} {s s' : RemapState} {n : Nat}

/-- At the start of the loops. -/
theorem start (flags : ∀ b, (phy dieNo b).bad = bad b)
    (same : ∀ b < c.totalBlocksPerDie, (phy dieNo b).remappedPhyBlock = b) :
    DieCount c bad (initRemapState c phy) dieNo 0 := by
  have few := c.blocks_lt
  have lun0 := c.lun0_le
  have first : LunCount c bad (phy dieNo) 0 0 (0 + c.userBlocksPerLun) 0 :=
    .start fun i low => same _ (by omega)
  rw [Nat.zero_add] at first
  refine ⟨flags, 0, 0, rfl, first, ?_⟩
  split
  · rename_i luns
    have lun1 := FlashConfig.lun1_eq luns
    exact .start fun i low => same _ (by omega)
  · rfl

/-- A die depends on what is its own. -/
theorem frame (ok : DieCount c bad s dieNo n) (row : s'.phyBlock dieNo = s.phyBlock dieNo)
    (lun0 : s'.reservedBlockOfLun0 dieNo = s.reservedBlockOfLun0 dieNo)
    (lun1 : s'.reservedBlockOfLun1 dieNo = s.reservedBlockOfLun1 dieNo)
    (count : s'.badBlockCount dieNo = s.badBlockCount dieNo) : DieCount c bad s' dieNo n := by
  obtain ⟨flags, luns⟩ := ok
  constructor
  · rwa [row]
  · rwa [row, lun0, lun1, count]

/-- The loop body counts one block of each LUN of its die. -/
theorem turn (ok : DieCount c bad s dieNo n) (next : n < c.userBlocksPerLun)
    (turn : remapBlockOfDie c s n dieNo = some s') :
    DieCount c bad s' dieNo (n + 1) ∧ ∀ d, d ≠ dieNo → s'.phyBlock d = s.phyBlock d ∧
      s'.reservedBlockOfLun0 d = s.reservedBlockOfLun0 d ∧ s'.reservedBlockOfLun1 d = s.reservedBlockOfLun1 d ∧
      s'.badBlockCount d = s.badBlockCount d := by
  obtain ⟨flags, short0, short1, sum, lun0, lun1⟩ := ok
  have few := c.blocks_lt
  have few0 := c.lun0_le
  simp only [remapBlockOfDie, Option.bind_eq_bind, Option.bind_eq_some_iff] at turn
  obtain ⟨⟨phy, reserved, count⟩, first, turn⟩ := turn
  rw [← Nat.zero_add n, ← Nat.zero_add totalBlocksPerLun] at first
  obtain ⟨short0', lun0', counted⟩ := lun0.turn flags next few0 first
  obtain ⟨flags', others⟩ := remapUserBlock_frame lun0.inside first
  split at turn
  · rename_i luns
    rw [if_pos luns] at lun1
    have twice := FlashConfig.lun1_eq luns
    simp only [Option.bind_eq_some_iff] at turn
    obtain ⟨⟨phy₁, reserved₁, count₁⟩, second, turn⟩ := turn
    cases turn
    simp only [Function.update_self] at second
    rw [Nat.add_comm n, twice] at second
    have kept : LunCount c bad (phy dieNo) totalBlocksPerLun n (s.reservedBlockOfLun1 dieNo) short1 :=
      lun1.frame (fun i low => others dieNo _ (by omega)) next.le
    obtain ⟨short1', lun1', counted'⟩ :=
      kept.turn (fun b => (flags' dieNo b).trans (flags b)) next twice.ge second
    obtain ⟨flags'', others'⟩ := remapUserBlock_frame kept.inside second
    have kept0 : LunCount c bad (phy₁ dieNo) 0 (n + 1) reserved short0' :=
      lun0'.frame (fun i low => others' dieNo _ (by omega)) next
    refine ⟨⟨fun b => ?_, short0', short1', ?_, ?_, ?_⟩, fun d other => ⟨funext fun b => ?_, ?_, ?_, ?_⟩⟩
    · exact (flags'' dieNo b).trans ((flags' dieNo b).trans (flags b))
    · simp only [Function.update_self]
      omega
    · simpa using kept0
    · rw [if_pos luns]
      simpa using lun1'
    · exact (others' d b fun same => other same.1).trans (others d b fun same => other same.1)
    all_goals simp [other]
  · rename_i luns
    cases turn
    rw [if_neg luns] at lun1
    refine ⟨⟨fun b => (flags' dieNo b).trans (flags b), short0', short1, ?_, ?_, ?_⟩,
      fun d other => ⟨funext fun b => others d b fun same => other same.1, ?_, ?_, ?_⟩⟩
    · simp only [Function.update_self]
      omega
    · simpa using lun0'
    · rwa [if_neg luns]
    all_goals simp [other]

end DieCount

/-! ### The loops -/

/-- The loops of `RemapBadBlock` count every user block of every die. -/
theorem remapBlocks_count {bad : Nat → Nat → Bool} {s : RemapState}
    (flags : ∀ dieNo blockNo, (phy dieNo blockNo).bad = bad dieNo blockNo)
    (same : ∀ dieNo, ∀ blockNo < c.totalBlocksPerDie, (phy dieNo blockNo).remappedPhyBlock = blockNo)
    (done : remapBlocks c phy = some s) :
    ∀ dieNo < c.geometry.userDies, DieCount c (bad dieNo) s dieNo c.userBlocksPerLun := by
  refine foldlM_range (fun n s => ∀ dieNo < c.geometry.userDies, DieCount c (bad dieNo) s dieNo n)
    (fun dieNo _ => .start (flags dieNo) (same dieNo)) (fun n next s s' turns ok => ?_) done
  have rows := foldlM_range
    (fun m s => ∀ dieNo < c.geometry.userDies, DieCount c (bad dieNo) s dieNo (if dieNo < m then n + 1 else n))
    (fun dieNo die => by simpa using ok dieNo die) (fun m die s s' turn ok dieNo exist => ?_) turns
  · intro dieNo die
    simpa [die] using rows dieNo die
  · have here := ok m die
    rw [if_neg (Nat.lt_irrefl m)] at here
    obtain ⟨counted, others⟩ := here.turn next turn
    by_cases current : dieNo = m
    · subst current
      rwa [if_pos (Nat.lt_succ_self _)]
    · obtain ⟨row, lun0, lun1, count⟩ := others dieNo current
      rw [if_congr (show dieNo < m + 1 ↔ dieNo < m by omega) rfl rfl]
      exact (ok dieNo exist).frame row lun0 lun1 count

/-! ### What is left over -/

namespace DieCount

variable {bad : Nat → Bool} {s : RemapState}

/-- `badBlockCount` of a die. -/
theorem badBlockCount_eq (ok : DieCount c bad s dieNo c.userBlocksPerLun) :
    s.badBlockCount dieNo = unreplaceableOfDie c bad := by
  obtain ⟨-, short0, short1, sum, lun0, lun1⟩ := ok
  rw [sum, lun0.short_eq, unreplaceableOfDie]
  rcases c.luns with luns | luns <;> rw [luns]
  · rw [if_neg (by omega)] at lun1
    simp [lun1]
  · rw [if_pos (by omega)] at lun1
    simp [Finset.sum_range_succ, lun1.short_eq]

end DieCount

/-- Counting over rows of equal length. -/
theorem count_mul (p : Nat → Prop) [DecidablePred p] (n m : Nat) :
    Nat.count p (n * m) = ∑ row ∈ Finset.range m, Nat.count (fun i => p (row * n + i)) n := by
  induction m with
  | zero => simp
  | succ m ih => rw [Nat.mul_succ, Nat.count_add, ih, Finset.sum_range_succ, Nat.mul_comm n m]

/-- The virtual blocks of a die that stand for a bad physical one are the ones left over. -/
theorem DieCount.badVirtualBlocks_eq {bad : Nat → Bool} {s : RemapState}
    (ok : DieCount c bad s dieNo c.userBlocksPerLun) :
    Nat.count (fun b => bad (physicalBlock c s.phyBlock dieNo b) = true) c.userBlocksPerDie =
      unreplaceableOfDie c bad := by
  obtain ⟨-, short0, short1, -, lun0, lun1⟩ := ok
  rw [FlashConfig.userBlocksPerDie, count_mul, unreplaceableOfDie]
  have lun : ∀ lun short reservedBlock, LunCount c bad (s.phyBlock dieNo) (lun * totalBlocksPerLun)
      c.userBlocksPerLun reservedBlock short →
      Nat.count (fun i => bad (physicalBlock c s.phyBlock dieNo (lun * c.userBlocksPerLun + i)) = true)
        c.userBlocksPerLun = unreplaceable c bad (lun * totalBlocksPerLun) := by
    intro lun short reservedBlock counted
    rw [← counted.short_eq, ← counted.left]
    have block : ∀ i < c.userBlocksPerLun, physicalBlock c s.phyBlock dieNo (lun * c.userBlocksPerLun + i) =
        (s.phyBlock dieNo (lun * totalBlocksPerLun + i)).remappedPhyBlock := by
      intro i low
      rw [physicalBlock, vblock2PblockOfTbsTranslation, Nat.mul_add_mod_of_lt low, Nat.mul_comm lun,
        Nat.mul_add_div (by omega), Nat.div_eq_of_lt low, Nat.add_zero]
    exact count_congr fun i low => by rw [block i low]
  rw [← Nat.zero_mul totalBlocksPerLun] at lun0
  refine Finset.sum_congr rfl fun l exist => ?_
  rcases l with - | l
  · exact lun 0 _ _ lun0
  · have two : l = 0 ∧ c.lunsPerDie > 1 := by
      have := Finset.mem_range.mp exist
      rcases c.luns with luns | luns <;> omega
    obtain ⟨rfl, luns⟩ := two
    rw [if_pos luns, ← Nat.one_mul totalBlocksPerLun] at lun1
    exact lun 1 _ _ lun1

end OcpFw
