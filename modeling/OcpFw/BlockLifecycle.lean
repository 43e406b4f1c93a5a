import OcpFw.Initialization
import OcpFw.Runs

/-! The life cycle of the blocks over whole runs of writes: every block is free, a
victim candidate or neither, exactly as its count says, as long as no collection takes
the current block with all of its slices invalid. -/
namespace OcpFw
open Runs (Run exec run_of_exec)

/-- One host write, as a step on the maps. -/
def writeStep (g : Geometry) (s : Ftl) (lsa : Nat) : Option Ftl :=
  (addrTransWrite g s lsa).map Prod.snd

/-- The life cycle of the blocks of one die, whose links represent `lists`. -/
structure DieLifecycle (g : Geometry) (s : Ftl) (dieNo : Nat) (lists : BlockList → List Nat) :
    Prop where
  listed : Dll.Holds blockNone (s.die dieNo).lists lists
  onePlace : ∀ b, (s.die dieNo).Usable g b →
    (b ∈ lists .free ∧ ∀ i, b ∉ lists (.victim i)) ∨
    (0 < ((s.die dieNo).block b).invalidSliceCnt ∧
      ∀ k, b ∈ lists k ↔ k = .victim ((s.die dieNo).block b).invalidSliceCnt) ∨
    (((s.die dieNo).block b).invalidSliceCnt = 0 ∧ ∀ k, b ∉ lists k)
  currentNotFree : (s.die dieNo).currentBlock ∉ lists .free
  counted : (s.die dieNo).freeBlockCnt = (lists .free).length
  reserve : reservedFreeBlockCount ≤ (s.die dieNo).freeBlockCnt
  blank : ∀ b ∈ lists .free, ((s.die dieNo).block b).currentPage = 0
  exactCount : ∀ b, (s.die dieNo).Usable g b → b ∉ lists .free →
    ((s.die dieNo).block b).invalidSliceCnt =
      unmappedPages g s dieNo b ((s.die dieNo).block b).currentPage

/-- Every die's blocks are where their state says. -/
def BlockLifecycle (g : Geometry) (s : Ftl) : Prop :=
  ∀ dieNo < g.userDies, ∃ lists, DieLifecycle g s dieNo lists

variable {g : Geometry} {s s' : Ftl} {lsa : Nat}

/-- The invariant of the mapping layer contains the life cycle. -/
theorem MappingOk.lifecycle {lists : Nat → BlockList → List Nat}
    (ok : MappingOk g s lists noneOut) : BlockLifecycle g s := by
  intro dieNo die
  have here := ok.die dieNo die
  refine ⟨lists dieNo, here.blockLists.holds, ?_, here.currentNotFree, here.blockLists.counted, ?_,
    fun b hb => (here.blockLists.clean b hb).1, fun b hu _ => here.exactCount b hu (by simp [noneOut])⟩
  · intro b usable
    have elsewhere : ∀ i, b ∈ lists dieNo (.victim i) →
        0 < i ∧ ((s.die dieNo).block b).invalidSliceCnt = i := fun i hb =>
      let counts := here.blockLists.indexed i b hb
      ⟨counts.1, counts.2.2⟩
    by_cases free : b ∈ lists dieNo .free
    · refine .inl ⟨free, fun i victim => ?_⟩
      exact absurd (here.blockLists.holds.disjoint _ _ b free victim) (by simp)
    · rcases Nat.eq_zero_or_pos ((s.die dieNo).block b).invalidSliceCnt with zero | positive
      · refine .inr (.inr ⟨zero, fun k hb => ?_⟩)
        cases k with
        | free => exact free hb
        | victim i =>
          have counts := elsewhere i hb
          omega
      · refine .inr (.inl ⟨positive, fun k => ⟨fun hb => ?_, ?_⟩⟩)
        · cases k with
          | free => exact absurd hb free
          | victim i => rw [(elsewhere i hb).2]
        · rintro rfl
          exact here.blockLists.listed b usable free (by simp [noneOut]) positive
  · rw [here.blockLists.counted]
    exact List.length_pos_of_ne_nil (here.reserve rfl)

/-- A successful write outside the defect keeps the invariant. -/
theorem writeStep_ok {lists : Nat → BlockList → List Nat} (ok : MappingOk g s lists noneOut)
    (safe : ¬ CurrentBlockIsVictim g s lsa) (wrote : writeStep g s lsa = some s') :
    ∃ lists', MappingOk g s' lists' noneOut := by
  have low : lsa < g.slicesPerSsd := by
    by_contra high
    simp [writeStep, addrTransWrite, high] at wrote
  rcases ok.addrTransWrite low safe with ⟨b, t, _, s'', lists', -, -, -, -, -, result, -, -, -, after⟩ |
    ⟨failed, -⟩
  · rw [writeStep, result, Option.map_some, Option.some.injEq] at wrote
    exact wrote ▸ ⟨lists', after⟩
  · rw [writeStep, failed] at wrote
    cases wrote

/-- The invariant of the mapping layer, after every run outside the defect. -/
theorem mappingOk_of_run {bad : Nat → Nat → Bool}
    (two : ∀ dieNo < g.userDies, 2 ≤ (goodBlocks (bad dieNo) g.userBlocksPerDie).length) {lsas : List Nat}
    (run : Run (writeStep g) (fun s lsa => ¬ CurrentBlockIsVictim g s lsa) (initFtl g bad) lsas s) :
    ∃ lists, MappingOk g s lists noneOut :=
  run.invariant (fun s => ∃ lists, MappingOk g s lists noneOut) (initFtl_ok bad two)
    fun _ _ _ ⟨_, ok⟩ safe wrote => writeStep_ok ok safe wrote

/-- In every run of writes none of which lets the collector take a fully invalid
current block, the life cycle holds in every state reached. -/
theorem lifecycle_of_run (g : Geometry) (bad : Nat → Nat → Bool)
    (two : ∀ dieNo < g.userDies, 2 ≤ (goodBlocks (bad dieNo) g.userBlocksPerDie).length)
    (lsas : List Nat) (s : Ftl)
    (run : Run (writeStep g) (fun s lsa => ¬ CurrentBlockIsVictim g s lsa) (initFtl g bad) lsas s) :
    BlockLifecycle g s := by
  obtain ⟨lists, ok⟩ := mappingOk_of_run two run
  exact ok.lifecycle

/-- Two slices written alternately: each collection copies the live one. -/
theorem lifecycle_of_run_alternating :
    ∃ s, Run (writeStep tinyGeometry) (fun s lsa => ¬ CurrentBlockIsVictim tinyGeometry s lsa)
      (initFtl tinyGeometry fun _ _ => false) [0, 1, 0, 1] s ∧ BlockLifecycle tinyGeometry s := by
  have done : (exec (writeStep tinyGeometry) (fun s lsa => ¬ CurrentBlockIsVictim tinyGeometry s lsa)
      (initFtl tinyGeometry fun _ _ => false) [0, 1, 0, 1]).isSome := by decide +kernel
  obtain ⟨s, ran⟩ := Option.isSome_iff_exists.mp done
  have run := run_of_exec ran
  exact ⟨s, run, lifecycle_of_run tinyGeometry (fun _ _ => false) (by decide) _ s run⟩

/-- Writing one slice three times: the third write collects the current block, both of
whose pages are dead, and leaves it free and current at once. -/
theorem lifecycle_broken :
    ¬ ∀ (g : Geometry) (bad : Nat → Nat → Bool),
      (∀ dieNo < g.userDies, 2 ≤ (goodBlocks (bad dieNo) g.userBlocksPerDie).length) →
      ∀ (lsas : List Nat) (s : Ftl),
        Run (writeStep g) (fun _ _ => True) (initFtl g bad) lsas s → BlockLifecycle g s := by
  intro claim
  have done : (exec (writeStep tinyGeometry) (fun _ _ => True)
      (initFtl tinyGeometry fun _ _ => false) [0, 0, 0]).map
        (fun s => ((s.die 0).currentBlock, (s.die 0).lists.tail .free)) = some (0, 0) := by
    decide +kernel
  obtain ⟨s, ran, ends⟩ := Option.map_eq_some_iff.mp done
  obtain ⟨lists, die⟩ := claim tinyGeometry (fun _ _ => false) (by decide) _ s (run_of_exec ran) 0
    (by decide)
  obtain ⟨current, tail⟩ := Prod.mk.injEq .. ▸ ends
  have filled : lists .free ≠ [] := fun empty => by
    have last := die.listed.tail_eq_nil.mpr empty
    rw [tail] at last
    cases last
  have member := die.listed.tail_mem filled
  rw [tail, ← current] at member
  exact die.currentNotFree member

end OcpFw
