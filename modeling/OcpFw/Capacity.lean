import Mathlib.Data.Finset.Card
import Mathlib.Data.Finset.Prod
import Mathlib.Tactic.Ring
import OcpFw.BlockLifecycle

/-! The advertised capacity against the space of one die. Pages are handed out to the
dies in turn, whatever a die still holds, so the capacity of the whole device does not
bound what one die is asked to keep. A write finds a page exactly as long as the blocks
of its die beside the reserved one are not all live. -/
namespace OcpFw
open Relation (ReflTransGen)
open Runs (Run exec run_of_exec)

/-! ### The capacity `InitFTL` computes -/

/-- Subtraction of 32-bit unsigned values. -/
def sub32 (x y : Nat) : Nat := (x + (2 ^ 32 - y % 2 ^ 32)) % 2 ^ 32

namespace Geometry

def userBlocksPerSsd (g : Geometry) : Nat := g.userBlocksPerDie * g.userDies

def mbPerBlock (g : Geometry) : Nat :=
  bytesPerDataRegionOfSlice * g.slicesPerBlock / (1024 * 1024)

def mbPerSsd (g : Geometry) : Nat := g.userBlocksPerSsd * g.mbPerBlock

def mbPerMinFreeBlockSpace (g : Geometry) : Nat := g.userDies * g.mbPerBlock

def mbPerOverProvisionBlockSpace (g : Geometry) : Nat := g.userBlocksPerSsd / 10 * g.mbPerBlock

/-- `storageCapacity_L`, in NVMe blocks. -/
def storageCapacityL (g : Geometry) (mbPerbadBlockSpace : Nat) : Nat :=
  sub32 g.mbPerSsd
      (g.mbPerMinFreeBlockSpace + mbPerbadBlockSpace + g.mbPerOverProvisionBlockSpace) *
    (1024 * 1024 / bytesPerNvmeBlock) % 2 ^ 32

/-- The slices a host can address when no block is bad. -/
def advertisedSlices (g : Geometry) : Nat := g.storageCapacityL 0 / nvmeBlocksPerSlice

end Geometry

/-- The slices other than `lsa` mapped to a die. -/
def liveSlices (g : Geometry) (s : Ftl) (dieNo lsa : Nat) : Nat :=
  Nat.count (fun l => l ≠ lsa ∧ s.logicalSlice l ≠ vsaNone ∧
    vsa2VdieTranslation g (s.logicalSlice l) = dieNo) g.slicesPerSsd

/-- A write has room: the slice is within the advertised capacity, the die whose turn it
is holds fewer other slices than its blocks beside the reserve, and its current block is
not about to be collected with all of its slices invalid. -/
def HasRoom (g : Geometry) (s : Ftl) (lsa : Nat) : Prop :=
  lsa < g.advertisedSlices ∧
    liveSlices g s s.sliceAllocationTargetDie lsa <
      (g.userBlocksPerDie - reservedFreeBlockCount) * g.slicesPerBlock ∧
    ¬ CurrentBlockIsVictim g s lsa

instance (g : Geometry) (s : Ftl) (lsa : Nat) : Decidable (HasRoom g s lsa) := by
  unfold HasRoom
  infer_instance

variable {g : Geometry} {s s' t : Ftl} {dieNo b lsa : Nat} {lists : Nat → BlockList → List Nat}

/-- With two blocks per die the subtraction does not wrap, and the capacity stays within
the device. -/
theorem advertisedSlices_le (two : 2 ≤ g.userBlocksPerDie) :
    g.advertisedSlices ≤ g.slicesPerSsd := by
  have dies := g.dies_pos
  have fits := g.ssd_fit
  change g.userDies * (g.userBlocksPerDie * g.slicesPerBlock) ≤ vsaNone at fits
  have blockMb : g.mbPerBlock * 64 ≤ g.slicesPerBlock := by
    unfold Geometry.mbPerBlock bytesPerDataRegionOfSlice
    omega
  set blocks := g.userBlocksPerSsd with hblocks
  have blocksIs : blocks = g.userBlocksPerDie * g.userDies := rfl
  have enough : g.userDies + blocks / 10 ≤ blocks := by
    have twice : 2 * g.userDies ≤ blocks := blocksIs ▸ Nat.mul_le_mul_right _ two
    omega
  have device : g.mbPerSsd * 64 ≤ g.slicesPerSsd := by
    calc g.mbPerSsd * 64 = blocks * (g.mbPerBlock * 64) := Nat.mul_assoc ..
      _ ≤ blocks * g.slicesPerBlock := Nat.mul_le_mul_left _ blockMb
      _ = g.slicesPerSsd := by rw [blocksIs, Geometry.slicesPerSsd]; ring
  have small : g.mbPerSsd < 2 ^ 32 := by
    have bound : g.slicesPerSsd ≤ vsaNone := fits
    unfold vsaNone at bound
    omega
  have spare : g.mbPerMinFreeBlockSpace + 0 + g.mbPerOverProvisionBlockSpace ≤ g.mbPerSsd := by
    calc g.userDies * g.mbPerBlock + 0 + blocks / 10 * g.mbPerBlock
        = (g.userDies + blocks / 10) * g.mbPerBlock := by ring
      _ ≤ g.mbPerSsd := Nat.mul_le_mul_right _ enough
  have noWrap : sub32 g.mbPerSsd
      (g.mbPerMinFreeBlockSpace + 0 + g.mbPerOverProvisionBlockSpace) ≤ g.mbPerSsd := by
    unfold sub32
    omega
  have perSlice : nvmeBlocksPerSlice = 4 := by decide
  have perMb : 1024 * 1024 / bytesPerNvmeBlock = 256 := by decide
  rw [Geometry.advertisedSlices, perSlice, Geometry.storageCapacityL, perMb]
  have capacity := Nat.mod_le (sub32 g.mbPerSsd
    (g.mbPerMinFreeBlockSpace + 0 + g.mbPerOverProvisionBlockSpace) * 256) (2 ^ 32)
  omega

/-- A die with only the reserve free and no victim is asked to keep every page of its
other blocks. -/
theorem MappingOk.crowded (ok : MappingOk g t lists noneOut) (die : dieNo < g.userDies)
    (good : ∀ b < g.userBlocksPerDie, ((t.die dieNo).block b).bad = false)
    (done : t.currentPage dieNo (t.die dieNo).currentBlock = g.slicesPerBlock)
    (scarce : (t.die dieNo).NoFreeBlock .normal)
    (empty : (t.die dieNo).findVictimList g.slicesPerBlock = none) :
    (g.userBlocksPerDie - reservedFreeBlockCount) * g.slicesPerBlock ≤
      Nat.count (fun l => t.logicalSlice l ≠ vsaNone ∧
        vsa2VdieTranslation g (t.logicalSlice l) = dieNo) g.slicesPerSsd := by
  have here := ok.die dieNo die
  obtain ⟨f, onlyFree⟩ : ∃ f, lists dieNo .free = [f] := by
    have filled := List.length_pos_of_ne_nil (here.reserve rfl)
    have few := here.blockLists.noFreeBlock_normal.mp scarce
    unfold reservedFreeBlockCount at few
    exact List.length_eq_one_iff.mp (by omega)
  have fUsable := here.blockLists.usable .free f (by simp [onlyFree])
  have mapped : ∀ b, b < g.userBlocksPerDie → b ≠ f → ∀ p < g.slicesPerBlock,
      ∃ l, t.logicalSlice l = vorg2VsaTranslation g dieNo b p := by
    intro b low notFree p hp
    have usable : (t.die dieNo).Usable g b := ⟨low, good b low⟩
    have outside : b ∉ lists dieNo .free := by simp [onlyFree, notFree]
    have full : t.currentPage dieNo b = g.slicesPerBlock := by
      by_cases current : b = (t.die dieNo).currentBlock
      · rw [current, done]
      · exact here.full b usable outside current
    have exactly := here.exactCount b usable (by simp [noneOut])
    rw [here.blockLists.clean_of_no_victim empty usable, full] at exactly
    have live := Nat.count_iff_forall_not.mp exactly.symm p hp
    rw [ok.unmapped_iff (vorg_ne_vsaNone die usable hp)] at live
    push Not at live
    exact live
  rw [Nat.count_eq_card_filter_range]
  calc (g.userBlocksPerDie - reservedFreeBlockCount) * g.slicesPerBlock
      = (((Finset.range g.userBlocksPerDie).erase f) ×ˢ Finset.range g.slicesPerBlock).card := by
        rw [Finset.card_product, Finset.card_erase_of_mem (Finset.mem_range.mpr fUsable.1),
          Finset.card_range, Finset.card_range]
        rfl
    _ ≤ _ := by
        refine Finset.card_le_card_of_injOn
          (fun bp => t.virtualSlice (vorg2VsaTranslation g dieNo bp.1 bp.2)) ?_ ?_
        · intro bp member
          simp only [Finset.coe_product, Set.mem_prod, Finset.mem_coe, Finset.mem_erase,
            Finset.mem_range] at member
          obtain ⟨⟨notFree, low⟩, hp⟩ := member
          obtain ⟨l, hl⟩ := mapped bp.1 low notFree bp.2 hp
          have real := vorg_ne_vsaNone die (⟨low, good bp.1 low⟩ : (t.die dieNo).Usable g bp.1) hp
          have there := ok.mapped l (hl ▸ real)
          rw [hl] at there
          simp only [Finset.coe_filter, Finset.mem_range, Set.mem_ofPred_eq, there.inverse, hl]
          exact ⟨there.lsa_lt, real, vdie_of_vorg die⟩
        · intro bp first bp' second same
          simp only [Finset.coe_product, Set.mem_prod, Finset.mem_coe, Finset.mem_erase,
            Finset.mem_range] at first second
          obtain ⟨l, hl⟩ := mapped bp.1 first.1.2 first.1.1 bp.2 first.2
          obtain ⟨l', hl'⟩ := mapped bp'.1 second.1.2 second.1.1 bp'.2 second.2
          have real := vorg_ne_vsaNone die
            (⟨first.1.2, good bp.1 first.1.2⟩ : (t.die dieNo).Usable g bp.1) first.2
          have real' := vorg_ne_vsaNone die
            (⟨second.1.2, good bp'.1 second.1.2⟩ : (t.die dieNo).Usable g bp'.1) second.2
          have back := (ok.mapped l (hl ▸ real)).inverse
          have back' := (ok.mapped l' (hl' ▸ real')).inverse
          rw [hl] at back
          rw [hl'] at back'
          have sameSlice : l = l' := back.symm.trans (same.trans back')
          obtain ⟨-, h₁, h₂⟩ := vorg_inj die first.2 die second.2
            (hl.symm.trans (sameSlice ▸ hl'))
          exact Prod.ext h₁ h₂

/-- What a run that never lacks room keeps: the invariant, and no block is bad. -/
def RoomInvariant (g : Geometry) (s : Ftl) : Prop :=
  (∃ lists, MappingOk g s lists noneOut) ∧
    ∀ dieNo, ∀ b < g.userBlocksPerDie, ((s.die dieNo).block b).bad = false

/-- A write with room succeeds. -/
theorem RoomInvariant.write (ok : RoomInvariant g s) (room : HasRoom g s lsa) :
    ∃ vsa s', addrTransWrite g s lsa = some (vsa, s') ∧ RoomInvariant g s' := by
  obtain ⟨⟨lists, mapping⟩, good⟩ := ok
  obtain ⟨advertised, few, safe⟩ := room
  have two : 2 ≤ g.userBlocksPerDie := by
    by_contra one
    have zero : g.userBlocksPerDie - reservedFreeBlockCount = 0 := by
      unfold reservedFreeBlockCount
      omega
    rw [zero, Nat.zero_mul] at few
    omega
  have low : lsa < g.slicesPerSsd := Nat.lt_of_lt_of_le advertised (advertisedSlices_le two)
  obtain ⟨lists₀, same, dropped, map, kept⟩ := mapping.invalidateOldVsa lsa
  rcases mapping.addrTransWrite low safe with ⟨b, t, lists₁, s', lists', steps, after, gone, current,
    space, result, dies, -, -, last⟩ | ⟨failed, done, scarce, empty⟩
  · refine ⟨_, s', result, ⟨lists', last⟩, fun d x hx => ?_⟩
    rw [dies, assignPage_block space]
    exact (mapSteps_bad_kept steps d x).trans ((same.bad d x).trans (good d x hx))
  · have die : s.sliceAllocationTargetDie < g.userDies := mapping.targetDie
    have full : (invalidateOldVsa g s lsa).currentPage s.sliceAllocationTargetDie
        ((invalidateOldVsa g s lsa).die s.sliceAllocationTargetDie).currentBlock =
          g.slicesPerBlock := by
      rw [same.currentPage, (kept _).1, done]
    have crowded := dropped.crowded die
      (fun x hx => (same.bad _ x).trans (good _ x hx)) full scarce empty
    have within : Nat.count (fun l => (invalidateOldVsa g s lsa).logicalSlice l ≠ vsaNone ∧
        vsa2VdieTranslation g ((invalidateOldVsa g s lsa).logicalSlice l) =
          s.sliceAllocationTargetDie) g.slicesPerSsd ≤
        liveSlices g s s.sliceAllocationTargetDie lsa := by
      refine Nat.count_mono_left fun l _ => ?_
      rw [map]
      rintro ⟨real, there⟩
      have other : l ≠ lsa := by
        rintro rfl
        simp at real
      rw [Function.update_of_ne other] at real there
      exact ⟨other, real, there⟩
    omega

/-- In every run of writes that all have room on the die whose turn it is, no assertion
fires, and none fires at the next write that has room. -/
theorem writable_of_room (g : Geometry) (lsas : List Nat) (s : Ftl)
    (run : Run (writeStep g) (HasRoom g) (initFtl g fun _ _ => false) lsas s) (lsa : Nat)
    (room : HasRoom g s lsa) : (addrTransWrite g s lsa).isSome := by
  have two : 2 ≤ g.userBlocksPerDie := by
    by_contra one
    have few := room.2.1
    rw [show g.userBlocksPerDie - reservedFreeBlockCount = 0 by
      unfold reservedFreeBlockCount; omega, Nat.zero_mul] at few
    omega
  have start : RoomInvariant g (initFtl g fun _ _ => false) := by
    refine ⟨initFtl_ok _ fun _ _ => by simpa [goodBlocks] using two, fun dieNo b hb => ?_⟩
    obtain ⟨-, -, -, -, block, -⟩ := initDie_eq (g := g) (fun _ => false)
      (by simpa [goodBlocks] using two)
    have same : ((initFtl g fun _ _ => false).die dieNo) = initDie g fun _ => false := by
      simp only [initFtl, findDieForFreeSliceAllocation]
      split <;> rfl
    rw [same, (block b).2.2 hb]
  have kept : RoomInvariant g s := by
    refine run.invariant (RoomInvariant g) start fun s lsa s' ok room wrote => ?_
    obtain ⟨vsa, s'', result, after⟩ := ok.write room
    rw [writeStep, result, Option.map_some, Option.some.injEq] at wrote
    exact wrote ▸ after
  obtain ⟨vsa, s', result, -⟩ := kept.write room
  rw [result]
  rfl

/-- Two dies of two blocks of 64 pages, 2 MB of which are advertised. -/
def twoDies : Geometry where
  userChannels := 2
  userWays := 1
  userBlocksPerDie := 2
  slicesPerBlock := 64
  channels_pos := tinyGeometry.pages_pos
  ways_pos := tinyGeometry.ways_pos
  pages_pos := by decide
  dies_fit := by decide
  blocks_fit := tinyGeometry.blocks_fit
  slices_fit := by decide
  ssd_fit := by decide

/-- Four slices over both dies, and one of them again. -/
theorem writable_of_room_twoDies :
    ∃ s, Run (writeStep twoDies) (HasRoom twoDies) (initFtl twoDies fun _ _ => false) [0, 1, 2, 3] s ∧
      HasRoom twoDies s 1 ∧ (addrTransWrite twoDies s 1).isSome := by
  have done : (exec (writeStep twoDies) (HasRoom twoDies) (initFtl twoDies fun _ _ => false)
      [0, 1, 2, 3]).map (fun s => decide (HasRoom twoDies s 1)) = some true := by decide +kernel
  obtain ⟨s, ran, room⟩ := Option.map_eq_some_iff.mp done
  have run := run_of_exec ran
  have room := of_decide_eq_true room
  exact ⟨s, run, room, writable_of_room twoDies _ s run 1 room⟩

/-- 64 new slices on die 0 between 64 rewrites of one slice on die 1: the 129th write
belongs to die 0, whose one block beside the reserve is all live. -/
theorem writable_broken :
    ¬ ∀ (g : Geometry) (lsas : List Nat) (s : Ftl),
      Run (writeStep g) (fun _ lsa => lsa < g.advertisedSlices) (initFtl g fun _ _ => false) lsas s →
      ∀ lsa, lsa < g.advertisedSlices → lsa < g.slicesPerSsd → (addrTransWrite g s lsa).isSome := by
  intro claim
  have done : ((exec (writeStep twoDies) (fun _ lsa => lsa < twoDies.advertisedSlices)
      (initFtl twoDies fun _ _ => false)
      ((List.range 128).map fun i => if i % 2 = 0 then i / 2 else 64)).map fun s =>
        (addrTransWrite twoDies s 65).isSome) = some false := by decide +kernel
  obtain ⟨s, ran, fails⟩ := Option.map_eq_some_iff.mp done
  have works := claim twoDies _ s (run_of_exec ran) 65 (by decide) (by decide)
  rw [works] at fails
  cases fails

end OcpFw
