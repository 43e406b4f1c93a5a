import OcpFw.BadBlocks
import OcpFw.TableSave
import OcpFw.TableScan

/-! Recovering the tables. A die whose table can be read is marked from it and is only read;
on the others the blocks are searched and the result is saved. -/
namespace OcpFw
open AsyncPrograms (Stable StepOfAny Triple runs_exists)
open Relation (ReflTransGen)

variable {c : TableConfig} {rawReadFails : Nat → Nat → Nat → Bool} {s₀ s₁ s t : TableState} {d b : Nat}
  {queue rest : List TableReq} {req : TableReq}

/-- The page a die stores its table in. -/
def storedTable (c : TableConfig) (s₀ : TableState) (dieNo : Nat) : TablePage :=
  s₀.flash dieNo (c.bbtPhyBlock dieNo) tablePageNo

/-- Its first byte is a block state. -/
def HasTable (c : TableConfig) (s₀ : TableState) (dieNo : Nat) : Prop :=
  (storedTable c s₀ dieNo).data 0 = blockState false ∨ (storedTable c s₀ dieNo).data 0 = blockState true

/-- The request of `ReadBadBlockTable` for the first page. -/
def tableRead (c : TableConfig) (dieNo : Nat) : TableReq where
  reqCode := .read
  dataBufAddr := some (c.tempBbtBufAddr dieNo + 0 * TableConfig.tempBbtBufEntrySize)
  physicalCh := vdie2PchTranslation c.geometry dieNo
  physicalWay := vdie2PwayTranslation c.geometry dieNo
  physicalBlock := c.bbtPhyBlock dieNo
  physicalPage := tablePageNo

/-! ### Reading -/

/-- The turns of the loop that reads. -/
def readTurns (dataSize : Int) : Nat := ((dataSize + 16383) / 16384).toNat

theorem always_stable : Stable (StepOfAny (TableDieStep c rawReadFails) c.geometry.userDies) fun _ => True :=
  fun _ _ _ _ => trivial

theorem readTablePages_count (dataSize : Int) (tempPage l : Nat) :
    TableTriple c rawReadFails (fun _ => True) (readTablePages c dataSize tempPage l)
      (fun s => s.readLoop = l + readTurns dataSize) := by
  induction dataSize, tempPage, l using readTablePages.induct with
  | case1 dataSize tempPage l positive ih =>
    rw [readTablePages, if_pos positive]
    have turns : l + readTurns dataSize = l + 1 + readTurns (dataSize - bytesPerDataRegionOfPage) := by
      unfold readTurns bytesPerDataRegionOfPage
      omega
    rw [turns]
    exact .seq always_stable (fun _ _ _ _ => trivial) ih
  | case2 dataSize tempPage l done =>
    rw [readTablePages, if_neg done]
    have none : readTurns dataSize = 0 := by
      unfold readTurns
      omega
    rw [none, Nat.add_zero]
    exact .act always_stable fun _ _ => rfl

/-- How many pages are read. -/
theorem readBadBlockTable_count (run : TableRuns c rawReadFails (readBadBlockTable c) s t) :
    t.readLoop = readTurns c.totalBlocksPerDie := by
  obtain ⟨m, loop, sync⟩ := run.seq_inv
  have turns := readTablePages_count _ _ _ s m loop trivial
  rw [Nat.zero_add] at turns
  have kept : Stable (StepOfAny (TableDieStep c rawReadFails) c.geometry.userDies)
      fun s => s.readLoop = readTurns c.dataSizeOfBadBlockTablePerDie := by
    rintro s u ⟨d, -, moves⟩ same
    exact moves.loops.1.trans same
  exact (Triple.sync kept m t sync turns).1

/-- A die while its page is read. -/
structure Reading (c : TableConfig) (s₀ : TableState) (d : Nat) (queue : List TableReq) (s : TableState) : Prop where
  flash : s.flash d = s₀.flash d
  issued : s.issued d = s₀.issued d ++ [tableRead c d]
  reads : queue = [tableRead c d] ∨ queue = [] ∧ ∀ i < bytesPerDataRegionOfPage,
    s.mem (c.tempBbtBufAddr d + i) = (storedTable c s₀ d).data i

theorem TableConfig.own_data {i : Nat} (inside : i < bytesPerDataRegionOfPage) : c.Own d (c.tempBbtBufAddr d + i) := by
  have page := @own_page c d 0 i (Nat.succ_pos _) (by
    unfold tempBbtBufEntrySize
    omega)
  rwa [Nat.zero_mul, Nat.add_zero] at page

theorem reading_serves : Serves c rawReadFails (Reading c s₀) where
  frame d queue s t same ok := by
    refine ⟨same.flash.trans ok.flash, same.issued.trans ok.issued, ok.reads.imp_right fun ⟨empty, data⟩ =>
      ⟨empty, fun i inside => ?_⟩⟩
    rw [same.mem _ (TableConfig.own_data inside)]
    exact data i inside
  within d queue s ok req member _ := by
    rcases ok.reads with rfl | ⟨rfl, -⟩
    · rw [List.mem_singleton] at member
      subst member
      exact ⟨0, Nat.succ_pos _, rfl⟩
    · simp at member
  complete d die s req rest ok fine := by
    rcases ok.reads with first | ⟨empty, -⟩
    · cases first
      refine ⟨ok.flash, ok.issued, .inr ⟨rfl, fun i inside => ?_⟩⟩
      have page : s.flash d (c.bbtPhyBlock d) tablePageNo = storedTable c s₀ d := by
        rw [ok.flash]
        rfl
      simp only [TableState.complete, tableRead, ↓reduceIte, TableReq.generateSpareDataBufAddr,
        TableReq.generateDataBufAddr, Option.getD_some, Nat.zero_mul, Nat.add_zero, page]
      rw [storeBytes_outside, storeBytes_at inside]
      unfold bytesPerDataRegionOfSlice
      unfold bytesPerDataRegionOfPage at inside
      omega
    · cases empty
  fail d die s req rest garbage ok fails := by
    rcases ok.reads with first | ⟨empty, -⟩
    · cases first
      cases fails.2.1
    · cases empty

/-- A die with no request left, of which only the memory has changed since. -/
def Unread (s₀ : TableState) (d : Nat) (queue : List TableReq) (s : TableState) : Prop :=
  queue = [] ∧ s.flash d = s₀.flash d ∧ s.issued d = s₀.issued d

theorem unread_serves : Serves c rawReadFails (Unread s₀) where
  frame _ _ _ _ same ok := ⟨ok.1, same.flash.trans ok.2.1, same.issued.trans ok.2.2⟩
  within _ _ _ ok req member := by simp [ok.1] at member
  complete _ _ _ _ _ ok := by cases ok.1
  fail _ _ _ _ _ _ ok := by cases ok.1

/-- A table of one page is in its buffer after it was waited for. -/
theorem readBadBlockTable_spec (onePage : c.usedPagesForBadBlockTablePerDie = 1)
    (quiet : ∀ d < c.geometry.userDies, s₀.nandReqQ d = [])
    (run : TableRuns c rawReadFails (readBadBlockTable c) s₀ t) :
    EachDie c (fun d queue s => queue = [] ∧ Reading c s₀ d queue s) t := by
  have few : c.totalBlocksPerDie < 16384 := by
    unfold TableConfig.usedPagesForBadBlockTablePerDie bytesPerDataRegionOfPage at onePage
    omega
  have some := c.blocks_pos
  change 0 < c.dataSizeOfBadBlockTablePerDie at some
  have program : readTablePages c c.dataSizeOfBadBlockTablePerDie
      (plsbPage2VpageTranslation startPageNoOfBadBlockTableBlock) 0 =
      .seq (forDies c (readTablePage c (plsbPage2VpageTranslation startPageNoOfBadBlockTableBlock) 0))
        (.act fun s => { s with readLoop := 1 }) := by
    rw [readTablePages, if_pos (Int.natCast_pos.mpr some), readTablePages, if_neg]
    unfold TableConfig.dataSizeOfBadBlockTablePerDie bytesPerDataRegionOfPage
    omega
  have issue : TableTriple c rawReadFails (EachDie c (Unread s₀))
      (forDies c (readTablePage c (plsbPage2VpageTranslation startPageNoOfBadBlockTableBlock) 0))
      (EachDie c (Reading c s₀)) := by
    refine forDies_triple unread_serves reading_serves (fun d _ s ok => ?_)
      fun d s e exist different die => .select different rfl rfl
    obtain ⟨empty, flash, issued⟩ := ok
    have request := @TableState.select_eq c s d (tableRead c d) rfl rfl
    change AtQueue (Reading c s₀) d (s.selectLowLevelReqQ c (tableRead c d))
    rw [request]
    exact ⟨flash, by simp [issued], .inl (by simp [empty])⟩
  have counts : TableTriple c rawReadFails (EachDie c (Reading c s₀)) (.act fun s => { s with readLoop := 1 })
      (EachDie c (Reading c s₀)) := by
    refine .act reading_serves.local.stable fun s each d exist => ?_
    have same : SameDie c d s { s with readLoop := 1 } := ⟨fun _ _ => rfl, rfl, rfl, rfl, rfl, rfl, rfl, rfl, id⟩
    exact (@reading_serves c rawReadFails s₀).frame d _ s _ same (each d exist)
  rw [readBadBlockTable, program] at run
  have whole := Triple.seq unread_serves.local.stable (.seq unread_serves.local.stable issue counts)
    (sync_triple (@reading_serves c rawReadFails s₀))
  exact whole s₀ t run fun d exist => ⟨quiet d exist, rfl, rfl⟩

/-! ### The tables that were read -/

/-- A die after its table was looked at. -/
structure Checked (c : TableConfig) (s₀ : TableState) (d : Nat) (queue : List TableReq) (s : TableState) : Prop where
  empty : queue = []
  flash : s.flash d = s₀.flash d
  issued : s.issued d = s₀.issued d ++ [tableRead c d]
  table : HasTable c s₀ d → s.dieState d = .exist ∧
    ∀ b < c.totalBlocksPerDie, s.bad d b = badFlag ((storedTable c s₀ d).data b)
  none : ¬ HasTable c s₀ d → s.dieState d = .notExist ∧ s.bbtMaker = true

theorem checked_serves : Serves c rawReadFails (Checked c s₀) where
  frame d queue s t same ok := by
    refine ⟨ok.empty, same.flash.trans ok.flash, same.issued.trans ok.issued, fun exist => ?_, fun none => ?_⟩
    · obtain ⟨state, bad⟩ := ok.table exist
      refine ⟨same.dieState.trans state, fun b block => ?_⟩
      rw [same.bad]
      exact bad b block
    · exact ⟨same.dieState.trans (ok.none none).1, same.maker (ok.none none).2⟩
  within _ _ _ ok req member := by simp [ok.empty] at member
  complete _ _ _ _ _ ok := by cases ok.empty
  fail _ _ _ _ _ _ ok := by cases ok.empty

theorem checkTable_others (different : d ≠ dieNo) : SameDie c d s (checkTable c dieNo s) := by
  unfold checkTable
  simp only
  split
  · exact ⟨fun _ _ => rfl, Function.update_of_ne different .., rfl, rfl, rfl, rfl, Function.update_of_ne different ..,
      rfl, id⟩
  · exact ⟨fun _ _ => rfl, rfl, rfl, rfl, rfl, rfl, Function.update_of_ne different .., rfl, fun _ => rfl⟩

theorem checkTable_checks (few : c.totalBlocksPerDie ≤ bytesPerDataRegionOfPage)
    (ok : AtQueue (fun d queue s => queue = [] ∧ Reading c s₀ d queue s) d s) :
    AtQueue (Checked c s₀) d (checkTable c d s) := by
  obtain ⟨empty, flash, issued, pending | ⟨-, data⟩⟩ := ok
  · rw [empty] at pending
    cases pending
  have first : s.mem (c.tempBbtBufAddr d) = (storedTable c s₀ d).data 0 := data 0 (by decide)
  unfold AtQueue checkTable
  simp only [first]
  split
  · rename_i exist
    refine ⟨empty, flash, issued, fun _ => ⟨by simp, fun b block => ?_⟩, fun none => absurd exist none⟩
    simp only [Function.update_self, block, ↓reduceIte]
    rw [data b (by omega)]
  · rename_i none
    exact ⟨empty, flash, issued, fun exist => absurd exist none, fun _ => ⟨by simp, rfl⟩⟩

/-! ### The whole recovery -/

/-- A die after its table was recovered. -/
structure DieRecovered (c : TableConfig) (rawReadFails : Nat → Nat → Nat → Bool) (s₀ : TableState) (d : Nat)
    (t : TableState) : Prop where
  /-- A table that exists is taken over, and the die is asked for nothing else. -/
  table : HasTable c s₀ d → t.dieState d = .exist ∧
    (∀ b < c.totalBlocksPerDie, t.bad d b = badFlag ((storedTable c s₀ d).data b)) ∧
    t.flash d = s₀.flash d ∧ t.issued d = s₀.issued d ++ [tableRead c d]
  /-- Otherwise all blocks are judged, and the judgement is what is stored. -/
  none : ¬ HasTable c s₀ d → ∀ b < c.totalBlocksPerDie,
    t.bad d b = isBadBlock rawReadFails s₀ d b ∧
    (storedTable c t d).data b = blockState (isBadBlock rawReadFails s₀ d b)
  /-- Nothing has to be saved any more. -/
  grown : t.grownBadUpdate d = false

/-- Dies without requests take no step. -/
theorem still_of_quiet (quiet : ∀ d < c.geometry.userDies, s.nandReqQ d = []) (t : TableState) :
    ¬ StepOfAny (TableDieStep c rawReadFails) c.geometry.userDies s t := by
  rintro ⟨d, exist, moves⟩
  have empty := quiet d exist
  cases moves with
  | complete first fine =>
    rw [empty] at first
    cases first
  | fail first fails garbage =>
    rw [empty] at first
    cases first

/-- Before the last loop, which clears what is left to save. -/
structure DieKnown (c : TableConfig) (rawReadFails : Nat → Nat → Nat → Bool) (s₀ : TableState) (d : Nat)
    (queue : List TableReq) (t : TableState) : Prop where
  empty : queue = []
  table : HasTable c s₀ d → t.dieState d = .exist ∧
    (∀ b < c.totalBlocksPerDie, t.bad d b = badFlag ((storedTable c s₀ d).data b)) ∧
    t.flash d = s₀.flash d ∧ t.issued d = s₀.issued d ++ [tableRead c d]
  none : ¬ HasTable c s₀ d → ∀ b < c.totalBlocksPerDie,
    t.bad d b = isBadBlock rawReadFails s₀ d b ∧
    (storedTable c t d).data b = blockState (isBadBlock rawReadFails s₀ d b)

theorem dieKnown_serves : Serves c rawReadFails (DieKnown c rawReadFails s₀) where
  frame d queue s t same ok := by
    refine ⟨ok.empty, fun exist => ?_, fun none b block => ?_⟩
    · obtain ⟨state, bad, flash, issued⟩ := ok.table exist
      refine ⟨same.dieState.trans state, fun b block => ?_, same.flash.trans flash, same.issued.trans issued⟩
      rw [same.bad, bad b block]
    · rw [same.bad, storedTable, same.flash]
      exact ok.none none b block
  within _ _ _ ok req member := by simp [ok.empty] at member
  complete _ _ _ _ _ ok := by cases ok.empty
  fail _ _ _ _ _ _ ok := by cases ok.empty

/-- The last loop of `RecoverBadBlockTable`. -/
theorem clearGrown_triple :
    TableTriple c rawReadFails (EachDie c (DieKnown c rawReadFails s₀))
      (forDies c fun dieNo s => { s with grownBadUpdate := Function.update s.grownBadUpdate dieNo false })
      (EachDie c fun d queue s => DieKnown c rawReadFails s₀ d queue s ∧ s.grownBadUpdate d = false) := by
  have cleared : Serves c rawReadFails
      fun d queue s => DieKnown c rawReadFails s₀ d queue s ∧ s.grownBadUpdate d = false :=
    { frame := fun d queue s t same ok => ⟨dieKnown_serves.frame d queue s t same ok.1, same.grown.trans ok.2⟩
      within := fun d queue s ok => (@dieKnown_serves c rawReadFails s₀).within d queue s ok.1
      complete := fun _ _ _ _ _ ok => by cases ok.1.empty
      fail := fun _ _ _ _ _ _ ok => by cases ok.1.empty }
  refine forDies_triple dieKnown_serves cleared (fun d _ s ok => ⟨⟨ok.empty, ok.table, ok.none⟩, by simp⟩)
    fun d s e _ different _ => ?_
  exact ⟨fun _ _ => rfl, rfl, Function.update_of_ne different .., rfl, rfl, rfl, rfl, rfl, id⟩

/-- The dies without a table are searched and their tables saved. -/
theorem makeTables_spec (onePage : c.usedPagesForBadBlockTablePerDie = 1) (decode : FailuresDecode c rawReadFails)
    (checked : EachDie c (Checked c s₀) s₁)
    (run : TableRuns c rawReadFails (.seq (findBadBlock c) (saveBadBlockTable c)) s₁ t) :
    EachDie c (DieKnown c rawReadFails s₀) t := by
  have few : c.totalBlocksPerDie < 16384 := by
    unfold TableConfig.usedPagesForBadBlockTablePerDie bytesPerDataRegionOfPage at onePage
    omega
  have blocks := c.blocks_pos
  change 0 < c.totalBlocksPerDie at blocks
  obtain ⟨m, find, save⟩ := run.seq_inv
  have found := findBadBlock_triple decode s₁ m find fun d exist =>
    ⟨(checked d exist).empty, rfl, rfl, fun _ => ⟨rfl, rfl⟩, fun _ b low => absurd low (Nat.not_lt_zero b)⟩
  obtain ⟨done, -⟩ := saveBadBlockTable_spec save fun d exist => (found d exist).1
  have oneTurn : saveTurns c.totalBlocksPerDie = 1 := by
    unfold saveTurns
    omega
  rw [oneTurn] at done
  intro d exist
  have check := checked d exist
  obtain ⟨-, scanned⟩ := found d exist
  have saved := done d exist
  refine ⟨saved.quiet, fun table => ?_, fun none b block => ?_⟩
  · obtain ⟨state, bad⟩ := check.table table
    have other : s₁.dieState d ≠ .notExist := by simp [state]
    have hold : ¬ Selected m d := by
      unfold Selected
      rw [scanned.state, state]
      exact nofun
    refine ⟨?_, fun b block => ?_, ?_, ?_⟩
    · rw [saved.state, scanned.state, state]
    · rw [saved.bad, (scanned.kept other).1, bad b block]
    · rw [(saved.hold hold).1, scanned.flash, check.flash]
    · rw [(saved.hold hold).2, (scanned.kept other).2, check.issued]
  · obtain ⟨state, -⟩ := check.none none
    have chosen : Selected m d := .inl (scanned.state.trans state)
    have judged : isBadBlock rawReadFails s₁ d b = isBadBlock rawReadFails s₀ d b := by
      simp only [isBadBlock, cleanPage, check.flash]
    obtain ⟨byte, bad⟩ := scanned.found state b block
    rw [judged] at byte bad
    refine ⟨?_, ?_⟩
    · rw [saved.bad, bad]
    · have stored := (saved.saved chosen).data Nat.one_pos onePage.ge b (by
        unfold bytesPerDataRegionOfPage
        omega)
      rw [storedTable, stored, Nat.sub_self, Nat.zero_mul, Nat.add_zero, byte]

theorem recoverBadBlockTable_spec (onePage : c.usedPagesForBadBlockTablePerDie = 1)
    (decode : FailuresDecode c rawReadFails) (quiet : ∀ d < c.geometry.userDies, s₀.nandReqQ d = [])
    (run : TableRuns c rawReadFails (recoverBadBlockTable c) s₀ t) :
    ∀ d < c.geometry.userDies, t.nandReqQ d = [] ∧ DieRecovered c rawReadFails s₀ d t := by
  have few : c.totalBlocksPerDie ≤ bytesPerDataRegionOfPage := by
    unfold TableConfig.usedPagesForBadBlockTablePerDie at onePage
    unfold bytesPerDataRegionOfPage at onePage ⊢
    omega
  obtain ⟨before, run, clear⟩ := run.seq_inv
  obtain ⟨checked, run, make⟩ := run.seq_inv
  obtain ⟨reset, run, check⟩ := run.seq_inv
  obtain ⟨read, reading, idle⟩ := run.seq_inv
  have pages := readBadBlockTable_spec onePage quiet reading
  obtain rfl := idle.act_still (still_of_quiet fun d exist => (pages d exist).1)
  have reads : Serves c rawReadFails fun d queue s => queue = [] ∧ Reading c s₀ d queue s := reading_serves.quiet
  have known : EachDie c (Checked c s₀) checked := by
    refine forDies_triple reads checked_serves (fun d _ s => checkTable_checks few)
      (fun d s e _ different _ => checkTable_others different) _ _ check fun d exist => ?_
    exact ⟨(pages d exist).1, (pages d exist).2.flash, (pages d exist).2.issued, (pages d exist).2.reads⟩
  have all : EachDie c (DieKnown c rawReadFails s₀) before := by
    have branch := make.ite_still (still_of_quiet fun d exist => (known d exist).empty)
    cases maker : checked.bbtMaker with
    | true =>
      rw [if_pos maker] at branch
      exact makeTables_spec onePage decode known branch
    | false =>
      rw [if_neg (by simp [maker])] at branch
      obtain rfl := branch.skip_still (still_of_quiet fun d exist => (known d exist).empty)
      intro d exist
      have die := known d exist
      refine ⟨die.empty, fun table => ⟨(die.table table).1, (die.table table).2, die.flash, die.issued⟩, fun none => ?_⟩
      rw [(die.none none).2] at maker
      cases maker
  intro d exist
  obtain ⟨ok, grown⟩ := clearGrown_triple before t clear all d exist
  exact ⟨ok.empty, ok.table, ok.none, grown⟩

/-! ### Runs -/

/-- A die completes all its requests, whatever the others do not. -/
theorem die_drains (exist : d < c.geometry.userDies) (queue : List TableReq) (s : TableState)
    (first : s.nandReqQ d = queue) :
    ∃ t, ReflTransGen (StepOfAny (TableDieStep c rawReadFails) c.geometry.userDies) s t ∧ t.nandReqQ d = [] ∧
      ∀ e, e ≠ d → t.nandReqQ e = s.nandReqQ e := by
  induction queue generalizing s with
  | nil => exact ⟨s, .refl, first, fun _ _ => rfl⟩
  | cons req rest ih =>
    by_cases fails : req.Fails rawReadFails d
    · obtain ⟨t, moves, empty, others⟩ := ih (s.fail c d req rest fun _ => 0) (by simp [TableState.fail])
      refine ⟨t, .head ⟨d, exist, .fail first fails _⟩ moves, empty, fun e other => (others e other).trans ?_⟩
      simp [TableState.fail, other]
    · obtain ⟨t, moves, empty, others⟩ := ih (s.complete c d req rest) TableState.complete_queue
      refine ⟨t, .head ⟨d, exist, .complete first fails⟩ moves, empty, fun e other => (others e other).trans ?_⟩
      unfold TableState.complete
      cases req.reqCode with
      | read => cases req.nandEcc <;> simp [other]
      | write => simp [other]
      | erase => simp [other]

/-- All dies do. -/
theorem dies_drain (c : TableConfig) (rawReadFails : Nat → Nat → Nat → Bool) (s : TableState) :
    ∃ t, ReflTransGen (StepOfAny (TableDieStep c rawReadFails) c.geometry.userDies) s t ∧
      AsyncPrograms.Each c.geometry.userDies TableState.Quiet t := by
  have firsts : ∀ n ≤ c.geometry.userDies, ∃ t,
      ReflTransGen (StepOfAny (TableDieStep c rawReadFails) c.geometry.userDies) s t ∧
      ∀ d < n, t.nandReqQ d = [] := by
    intro n
    induction n with
    | zero => exact fun _ => ⟨s, .refl, fun _ low => absurd low (Nat.not_lt_zero _)⟩
    | succ n ih =>
      intro inside
      obtain ⟨m, moves, quiet⟩ := ih (by omega)
      obtain ⟨t, more, empty, others⟩ := @die_drains c rawReadFails n inside _ m rfl
      refine ⟨t, moves.trans more, fun d low => ?_⟩
      by_cases last : d = n
      · rw [last, empty]
      · rw [others d last]
        exact quiet d (by omega)
  exact firsts _ le_rfl

/-- Every program on the tables ends. -/
theorem tableRuns_exists (c : TableConfig) (rawReadFails : Nat → Nat → Nat → Bool)
    (p : AsyncPrograms.Prog TableState) (s : TableState) : ∃ t, TableRuns c rawReadFails p s t :=
  runs_exists (dies_drain c rawReadFails) p s

/-! ### The firmware's tables -/

/-- The tables of a configuration: one page is enough for one or two LUNs. -/
def FlashConfig.tableConfig (c : FlashConfig) (reservedDataBufferBaseAddr : Nat) (bbtPhyBlock : Nat → Nat)
    (encode : (Nat → UInt8) → (Nat → UInt8) → Nat → UInt8) (bbt : ∀ dieNo, bbtPhyBlock dieNo < c.totalBlocksPerDie) :
    TableConfig where
  geometry := c.geometry
  totalBlocksPerLun := totalBlocksPerLun
  lunsPerDie := c.lunsPerDie
  reservedDataBufferBaseAddr := reservedDataBufferBaseAddr
  bbtPhyBlock := bbtPhyBlock
  encode := encode
  blocks_pos := by
    rcases c.luns with luns | luns <;> rw [luns] <;> decide
  bbt_lt := bbt

/-- What is found on a die at boot. -/
structure FoundExactly (c : TableConfig) (rawReadFails : Nat → Nat → Nat → Bool) (s₀ : TableState) (d : Nat)
    (t : TableState) : Prop where
  /-- With a table: the low bits of its bytes, and the die is only read. -/
  table : HasTable c s₀ d → (∀ b < c.totalBlocksPerDie, t.bad d b = badFlag ((storedTable c s₀ d).data b)) ∧
    t.flash d = s₀.flash d ∧ ∀ req ∈ t.issued d, req.reqCode = .read
  /-- Without: a block is bad if and only if a mark on its first or last page is not clean or
  one of these pages cannot be read, and this is what the table says from now on. -/
  none : ¬ HasTable c s₀ d → ∀ b < c.totalBlocksPerDie,
    (t.bad d b = true ↔ ∃ p, (p = badBlockMarkPage0 ∨ p = badBlockMarkPage1) ∧
      ((s₀.flash d b p).row badBlockMarkByte0 ≠ cleanDataInByte ∨
        (s₀.flash d b p).row badBlockMarkByte1 ≠ cleanDataInByte ∨ rawReadFails d b p = true)) ∧
    (storedTable c t d).data b = blockState (t.bad d b)

theorem isBadBlock_iff : isBadBlock rawReadFails s₀ d b = true ↔ ∃ p, (p = badBlockMarkPage0 ∨ p = badBlockMarkPage1) ∧
    ((s₀.flash d b p).row badBlockMarkByte0 ≠ cleanDataInByte ∨
      (s₀.flash d b p).row badBlockMarkByte1 ≠ cleanDataInByte ∨ rawReadFails d b p = true) := by
  have page : ∀ p, cleanPage rawReadFails s₀ d b p = false ↔
      ((s₀.flash d b p).row badBlockMarkByte0 ≠ cleanDataInByte ∨
        (s₀.flash d b p).row badBlockMarkByte1 ≠ cleanDataInByte ∨ rawReadFails d b p = true) := by
    intro p
    simp only [cleanPage, Bool.and_eq_false_iff, beq_eq_false_iff_ne, ne_eq, Bool.not_eq_false', or_assoc]
  simp only [isBadBlock, Bool.not_eq_true', Bool.and_eq_false_iff, page, or_and_right, exists_or, exists_eq_left]

/-- At boot the bad blocks of every die are found exactly, in whatever order the dies
complete their requests, and what is found on a die depends on nothing but this die. -/
theorem badBlocks_found_exactly (c : FlashConfig) (reservedDataBufferBaseAddr : Nat) (bbtPhyBlock : Nat → Nat)
    (encode : (Nat → UInt8) → (Nat → UInt8) → Nat → UInt8) (bbt : ∀ dieNo, bbtPhyBlock dieNo < c.totalBlocksPerDie)
    (rawReadFails : Nat → Nat → Nat → Bool) (s₀ : TableState)
    (booted : ∀ d, s₀.nandReqQ d = [] ∧ s₀.issued d = []) :
    let tables := c.tableConfig reservedDataBufferBaseAddr bbtPhyBlock encode bbt
    (∃ t, TableRuns tables rawReadFails (recoverBadBlockTable tables) s₀ t) ∧
    ∀ t, TableRuns tables rawReadFails (recoverBadBlockTable tables) s₀ t → ∀ d < c.geometry.userDies,
      FoundExactly tables rawReadFails s₀ d t ∧
      ∀ rawReadFails' s₀' t', (∀ d, s₀'.nandReqQ d = []) → s₀'.flash d = s₀.flash d →
        rawReadFails' d = rawReadFails d →
        TableRuns tables rawReadFails' (recoverBadBlockTable tables) s₀' t' → ∀ b < c.totalBlocksPerDie,
          t'.bad d b = t.bad d b ∧ (storedTable tables t' d).data b = (storedTable tables t d).data b := by
  intro tables
  have onePage : tables.usedPagesForBadBlockTablePerDie = 1 := by
    show c.totalBlocksPerDie / bytesPerDataRegionOfPage + 1 = 1
    unfold FlashConfig.totalBlocksPerDie
    rcases c.luns with luns | luns <;> rw [luns] <;> decide
  have decode : ∀ fails, FailuresDecode tables fails := by
    have rows : totalBlocksPerLun ≤ 4096 := by decide
    refine fun _ _ _ _ _ => ⟨rows, ?_⟩
    show c.lunsPerDie ≤ 2
    rcases c.luns with luns | luns <;> omega
  refine ⟨tableRuns_exists tables rawReadFails _ s₀, fun t run d exist => ?_⟩
  obtain ⟨-, found⟩ := recoverBadBlockTable_spec onePage (decode _) (fun d _ => (booted d).1) run d exist
  refine ⟨⟨fun table => ?_, fun none b block => ?_⟩, fun rawReadFails' s₀' t' quiet flash pattern run' b block => ?_⟩
  · obtain ⟨-, bad, flash, issued⟩ := found.table table
    refine ⟨bad, flash, fun req member => ?_⟩
    rw [issued, (booted d).2, List.nil_append, List.mem_singleton] at member
    rw [member]
    rfl
  · obtain ⟨bad, stored⟩ := found.none none b block
    rw [bad]
    exact ⟨isBadBlock_iff, stored⟩
  · obtain ⟨-, found'⟩ := recoverBadBlockTable_spec onePage (decode _) (fun d _ => quiet d) run' d exist
    have page : storedTable tables s₀' d = storedTable tables s₀ d := by rw [storedTable, flash, storedTable]
    by_cases table : HasTable tables s₀ d
    · have table' : HasTable tables s₀' d := by rwa [HasTable, page]
      obtain ⟨-, bad, kept, -⟩ := found.table table
      obtain ⟨-, bad', kept', -⟩ := found'.table table'
      refine ⟨by rw [bad b block, bad' b block, page], ?_⟩
      rw [storedTable, kept', flash, storedTable, kept]
    · have table' : ¬ HasTable tables s₀' d := by rwa [HasTable, page]
      obtain ⟨bad, stored⟩ := found.none table b block
      obtain ⟨bad', stored'⟩ := found'.none table' b block
      have judged : isBadBlock rawReadFails' s₀' d b = isBadBlock rawReadFails s₀ d b := by
        simp only [isBadBlock, cleanPage, flash, pattern]
      rw [bad, bad', stored, stored', judged]
      exact ⟨rfl, rfl⟩

/-- A flash that was never written, and memory of any content. -/
def blankTables (mem : Nat → UInt8) : TableState where
  mem := mem
  bad _ _ := false
  grownBadUpdate _ := false
  nandReqQ _ := []
  issued _ := []
  flash _ _ _ := .erased
  dieState _ := .exist
  blockChecker _ := false
  bbtMaker := false
  readLoop := 0
  saveLoop := 0

/-- The last page of the second block cannot be read. -/
theorem badBlocks_found_exactly_unreadable :
    let tables := tinyFlash.tableConfig 0 (fun _ => 0) (fun data _ => data) fun _ => by decide
    let fails (_ b p : Nat) : Bool := b == 1 && p == 255
    ∃ t, TableRuns tables fails (recoverBadBlockTable tables) (blankTables fun _ => 0) t ∧
      t.bad 0 1 = true ∧ (storedTable tables t 0).data 1 = 1 ∧ t.bad 0 0 = false := by
  intro tables fails
  obtain ⟨⟨t, run⟩, found⟩ := badBlocks_found_exactly tinyFlash 0 (fun _ => 0) (fun data _ => data)
    (fun _ => by decide) fails (blankTables fun _ => 0) fun _ => ⟨rfl, rfl⟩
  obtain ⟨exactly, -⟩ := found t run 0 (by decide)
  have none : ¬ HasTable tables (blankTables fun _ => 0) 0 := by
    unfold HasTable storedTable blankTables
    decide
  obtain ⟨second, stored⟩ := exactly.none none 1 (by decide)
  obtain ⟨first, -⟩ := exactly.none none 0 (by decide)
  have bad : t.bad 0 1 = true := second.mpr ⟨badBlockMarkPage1, .inr rfl, .inr (.inr rfl)⟩
  refine ⟨t, run, bad, by rw [stored, bad]; rfl, ?_⟩
  cases good : t.bad 0 0 with
  | false => rfl
  | true =>
    obtain ⟨p, -, dirty | dirty | unread⟩ := first.mp good
    · exact absurd rfl dirty
    · exact absurd rfl dirty
    · simp [fails] at unread

end OcpFw
