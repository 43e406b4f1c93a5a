import OcpFw.TableRecovery

/-! Saving the tables for grown bad blocks and reading them after the next boot. A table of
one page comes back as it was. Of a longer one every page is programmed over the one
before, and the two loops may disagree on the number of pages. -/
namespace OcpFw

variable {c : TableConfig} {rawReadFails : Nat → Nat → Nat → Bool} {s t : TableState} {d : Nat}

/-- All reads succeed. -/
def noFailure : Nat → Nat → Nat → Bool := fun _ _ _ => false

/-- What a save and the boot after it promise. -/
structure TablesSurvive (c : TableConfig) (s t : TableState) : Prop where
  /-- No page of a table is programmed twice since it was erased. -/
  once : ∀ d < c.geometry.userDies, s.grownBadUpdate d = true → ∀ p, (t.flash d (c.bbtPhyBlock d) p).programs ≤ 1
  /-- The other dies keep what they have. -/
  hold : ∀ d < c.geometry.userDies, s.grownBadUpdate d = false → t.flash d = s.flash d
  /-- The next boot finds the tables, and in them every block as it was but their own. -/
  reload : ∀ s' u, s'.flash = t.flash → (∀ d, s'.nandReqQ d = []) →
    TableRuns c noFailure (recoverBadBlockTable c) s' u → ∀ d < c.geometry.userDies, s.grownBadUpdate d = true →
      u.dieState d = .exist ∧ ∀ b < c.totalBlocksPerDie, b ≠ c.bbtPhyBlock d → u.bad d b = s.bad d b
  /-- It reads as many pages as were written. -/
  pages : ∀ s' u, s'.flash = t.flash → (∀ d, s'.nandReqQ d = []) →
    TableRuns c noFailure (readBadBlockTable c) s' u → u.readLoop = t.saveLoop

/-- A table shorter than a page; or no table to save, and loops of the same length. -/
def SavesOnePage (c : TableConfig) (s : TableState) : Prop :=
  c.totalBlocksPerDie < 16384 ∨
    (∀ d < c.geometry.userDies, s.grownBadUpdate d = false) ∧
      (c.totalBlocksPerDie + 16382) / 16383 = (c.totalBlocksPerDie + 16383) / 16384

/-! ### The tables that are saved -/

/-- A die before its table is made. -/
def Untouched (s₀ : TableState) (d : Nat) (queue : List TableReq) (s : TableState) : Prop :=
  queue = [] ∧ s.flash d = s₀.flash d ∧ s.bad d = s₀.bad d ∧ s.grownBadUpdate d = s₀.grownBadUpdate d

/-- And after. -/
structure Made (c : TableConfig) (s₀ : TableState) (d : Nat) (queue : List TableReq) (s : TableState) : Prop where
  empty : queue = []
  flash : s.flash d = s₀.flash d
  marked : s₀.grownBadUpdate d = true → s.dieState d = .update ∧ ∀ b < c.totalBlocksPerDie,
    s.mem (c.tempBbtBufAddr d + b) =
      if b ≠ c.bbtPhyBlock d then blockState (s₀.bad d b) else blockState false
  unmarked : s₀.grownBadUpdate d = false → s.dieState d = .hold

theorem untouched_serves : Serves c rawReadFails (Untouched s) where
  frame _ _ _ _ same ok :=
    ⟨ok.1, same.flash.trans ok.2.1, same.bad.trans ok.2.2.1, same.grown.trans ok.2.2.2⟩
  within _ _ _ ok req member := by simp [ok.1] at member
  complete _ _ _ _ _ ok := by cases ok.1
  fail _ _ _ _ _ _ ok := by cases ok.1

theorem made_serves : Serves c rawReadFails (Made c s) where
  frame d queue s t same ok := by
    refine ⟨ok.empty, same.flash.trans ok.flash, fun marked => ?_, fun unmarked => ?_⟩
    · refine ⟨same.dieState.trans (ok.marked marked).1, fun b block => ?_⟩
      rw [same.mem _ (TableConfig.own_block block)]
      exact (ok.marked marked).2 b block
    · exact same.dieState.trans (ok.unmarked unmarked)
  within _ _ _ ok req member := by simp [ok.empty] at member
  complete _ _ _ _ _ ok := by cases ok.empty
  fail _ _ _ _ _ _ ok := by cases ok.empty

theorem makeTable_others (different : d ≠ dieNo) (exist : d < c.geometry.userDies)
    (die : dieNo < c.geometry.userDies) : SameDie c d s (makeTable c dieNo s) := by
  unfold makeTable
  split
  · refine ⟨fun a own => ?_, rfl, rfl, rfl, rfl, rfl, Function.update_of_ne different .., rfl, id⟩
    dsimp only
    rw [storeBytes_outside]
    intro inside
    have block := @TableConfig.own_block c dieNo (a - c.tempBbtBufAddr dieNo) (by omega)
    rw [show c.tempBbtBufAddr dieNo + (a - c.tempBbtBufAddr dieNo) = a by omega] at block
    exact TableConfig.own_apart die exist different.symm block own
  · exact ⟨fun _ _ => rfl, rfl, rfl, rfl, rfl, rfl, Function.update_of_ne different .., rfl, id⟩

theorem makeTable_makes {s₀ : TableState} (ok : AtQueue (Untouched s₀) d s) :
    AtQueue (Made c s₀) d (makeTable c d s) := by
  obtain ⟨empty, flash, bad, grown⟩ := ok
  unfold AtQueue makeTable
  rw [grown]
  split
  · rename_i marked
    refine ⟨empty, flash, fun _ => ⟨by simp, fun b block => ?_⟩, fun unmarked => ?_⟩
    · dsimp only
      rw [storeBytes_at block, bad]
    · rw [marked] at unmarked
      cases unmarked
  · rename_i unmarked
    exact ⟨empty, flash, fun marked => absurd marked unmarked, fun _ => by simp⟩

/-- The whole update: the marked dies have a new table, the others what they had. -/
theorem updateBadBlockTable_spec (quiet : ∀ d < c.geometry.userDies, s.nandReqQ d = [])
    (run : TableRuns c rawReadFails (updateBadBlockTableForGrownBadBlock c) s t) :
    t.saveLoop = saveTurns c.totalBlocksPerDie ∧ ∀ d < c.geometry.userDies,
      (s.grownBadUpdate d = false → t.flash d = s.flash d) ∧
      (s.grownBadUpdate d = true → ∃ m : TableState, TableSaved c m d (saveTurns c.totalBlocksPerDie) t ∧
        ∀ b < c.totalBlocksPerDie, m.mem (c.tempBbtBufAddr d + b) =
          if b ≠ c.bbtPhyBlock d then blockState (s.bad d b) else blockState false) := by
  obtain ⟨m, make, save⟩ := run.seq_inv
  have made : EachDie c (Made c s) m :=
    forDies_triple untouched_serves made_serves (fun d _ s ok => makeTable_makes ok)
      (fun d s e exist different die => makeTable_others different exist die) _ _ make
      fun d exist => ⟨quiet d exist, rfl, rfl, rfl⟩
  obtain ⟨saved, turns⟩ := saveBadBlockTable_spec save fun d exist => (made d exist).empty
  refine ⟨turns, fun d exist => ⟨fun unmarked => ?_, fun marked => ?_⟩⟩
  · have hold : ¬ Selected m d := by
      unfold Selected
      rw [(made d exist).unmarked unmarked]
      exact nofun
    rw [((saved d exist).hold hold).1, (made d exist).flash]
  · obtain ⟨state, bytes⟩ := (made d exist).marked marked
    exact ⟨m, (saved d exist).saved (.inr state), bytes⟩

/-! ### The next boot -/

theorem blockState_cases (bad : Bool) : blockState bad = blockState false ∨ blockState bad = blockState true := by
  cases bad <;> simp

theorem badFlag_blockState (bad : Bool) : badFlag (blockState bad) = bad := by
  cases bad <;> decide

/-- A table of one page survives. -/
theorem tablesSurvive_of_onePage (short : c.totalBlocksPerDie < 16384)
    (quiet : ∀ d < c.geometry.userDies, s.nandReqQ d = [])
    (run : TableRuns c noFailure (updateBadBlockTableForGrownBadBlock c) s t) : TablesSurvive c s t := by
  have blocks := c.blocks_pos
  change 0 < c.totalBlocksPerDie at blocks
  have onePage : c.usedPagesForBadBlockTablePerDie = 1 := by
    unfold TableConfig.usedPagesForBadBlockTablePerDie bytesPerDataRegionOfPage
    omega
  have oneTurn : saveTurns c.totalBlocksPerDie = 1 := by
    unfold saveTurns
    omega
  obtain ⟨turns, dies⟩ := updateBadBlockTable_spec quiet run
  rw [oneTurn] at turns dies
  refine ⟨fun d exist marked p => ?_, fun d exist unmarked => (dies d exist).1 unmarked,
    fun s' u flash idle boot d exist marked => ?_, fun s' u flash idle boot => ?_⟩
  · obtain ⟨m, saved, -⟩ := (dies d exist).2 marked
    by_cases page : p = tablePageNo
    · rw [page, saved.programs]
    · rw [saved.pages p page]
      exact Nat.zero_le 1
  · obtain ⟨m, saved, bytes⟩ := (dies d exist).2 marked
    have stored : ∀ b < c.totalBlocksPerDie, (storedTable c s' d).data b =
        if b ≠ c.bbtPhyBlock d then blockState (s.bad d b) else blockState false := by
      intro b block
      have byte := saved.data Nat.one_pos onePage.ge b (by
        unfold bytesPerDataRegionOfPage
        omega)
      rw [storedTable, flash, byte, Nat.sub_self, Nat.zero_mul, Nat.add_zero, bytes b block]
    have table : HasTable c s' d := by
      unfold HasTable
      rw [stored 0 blocks]
      split
      · exact blockState_cases _
      · exact .inl rfl
    have decode : FailuresDecode c noFailure := fun _ _ _ fails => by cases fails
    obtain ⟨-, found⟩ := recoverBadBlockTable_spec onePage decode (fun d _ => idle d) boot d exist
    obtain ⟨state, bad, -⟩ := found.table table
    refine ⟨state, fun b block other => ?_⟩
    rw [bad b block, stored b block, if_pos other, badFlag_blockState]
  · rw [turns, readBadBlockTable_count boot]
    unfold readTurns
    omega

/-- Tables survive a save and a boot exactly if they are shorter than a page, or there is
nothing to save and the loops agree. -/
theorem tablesSurvive_iff (c : TableConfig) (s : TableState) (quiet : ∀ d, s.nandReqQ d = []) :
    (∀ t, TableRuns c noFailure (updateBadBlockTableForGrownBadBlock c) s t → TablesSurvive c s t) ↔
      SavesOnePage c s := by
  have turns : saveTurns c.totalBlocksPerDie = (c.totalBlocksPerDie + 16382) / 16383 := by
    unfold saveTurns
    omega
  have reads : readTurns c.totalBlocksPerDie = (c.totalBlocksPerDie + 16383) / 16384 := by
    unfold readTurns
    omega
  constructor
  · intro survives
    obtain ⟨t, run⟩ := tableRuns_exists c noFailure (updateBadBlockTableForGrownBadBlock c) s
    have kept := survives t run
    obtain ⟨count, dies⟩ := updateBadBlockTable_spec (fun d _ => quiet d) run
    by_contra long
    obtain ⟨long, apart⟩ := not_or.mp long
    refine apart ⟨fun d exist => ?_, ?_⟩
    · cases marked : s.grownBadUpdate d with
      | false => rfl
      | true =>
        obtain ⟨m, saved, -⟩ := (dies d exist).2 marked
        have programs := kept.once d exist marked tablePageNo
        rw [saved.programs, turns] at programs
        omega
    · let booted : TableState := { t with nandReqQ := fun _ => [] }
      obtain ⟨u, boot⟩ := tableRuns_exists c noFailure (readBadBlockTable c) booted
      have agree := kept.pages booted u rfl (fun _ => rfl) boot
      rwa [readBadBlockTable_count boot, count, reads, turns, eq_comm] at agree
  · rintro (short | ⟨unmarked, agree⟩) t run
    · exact tablesSurvive_of_onePage short (fun d _ => quiet d) run
    · obtain ⟨count, dies⟩ := updateBadBlockTable_spec (fun d _ => quiet d) run
      have none : ∀ d < c.geometry.userDies, s.grownBadUpdate d ≠ true := fun d exist => by simp [unmarked d exist]
      refine ⟨fun d exist marked => absurd marked (none d exist), fun d exist => (dies d exist).1,
        fun s' u flash idle boot d exist marked => absurd marked (none d exist), fun s' u flash idle boot => ?_⟩
      rw [count, readBadBlockTable_count boot, turns, reads, agree]

/-- The firmware's table is shorter than a page. -/
theorem tablesSurvive_iff_grown :
    let tables := tinyFlash.tableConfig 0 (fun _ => 0) (fun data _ => data) fun _ => by decide
    ∀ t, TableRuns tables noFailure (updateBadBlockTableForGrownBadBlock tables)
      { blankTables (fun _ => 0) with bad := fun _ b => b == 7, grownBadUpdate := fun _ => true } t →
      TablesSurvive tables
        { blankTables (fun _ => 0) with bad := fun _ b => b == 7, grownBadUpdate := fun _ => true } t :=
  (tablesSurvive_iff (tinyFlash.tableConfig 0 (fun _ => 0) (fun data _ => data) fun _ => by decide)
    { blankTables (fun _ => 0) with bad := fun _ b => b == 7, grownBadUpdate := fun _ => true } fun _ => rfl).mpr
    (.inl (by decide))

/-- One die with a table of two pages. -/
def twoPages : TableConfig where
  geometry := tinyFlash.geometry
  totalBlocksPerLun := 20000
  lunsPerDie := 1
  reservedDataBufferBaseAddr := 0
  bbtPhyBlock _ := 0
  encode data _ := data
  blocks_pos := by decide
  bbt_lt _ := by decide

/-- Its two pages are programmed at the same place. -/
theorem tablesSurvive_twoPages :
    ¬ ∀ (c : TableConfig) (s : TableState), (∀ d, s.nandReqQ d = []) →
      ∀ t, TableRuns c noFailure (updateBadBlockTableForGrownBadBlock c) s t → TablesSurvive c s t := by
  intro claim
  let s : TableState := { blankTables (fun _ => 0) with grownBadUpdate := fun _ => true }
  obtain ⟨t, run⟩ := tableRuns_exists twoPages noFailure (updateBadBlockTableForGrownBadBlock twoPages) s
  have kept := claim twoPages s (fun _ => rfl) t run
  obtain ⟨m, saved, -⟩ := ((updateBadBlockTable_spec (fun _ _ => rfl) run).2 0 (by decide)).2 rfl
  have programs := kept.once 0 (by decide) rfl tablePageNo
  rw [saved.programs] at programs
  exact absurd programs (by decide)

end OcpFw
