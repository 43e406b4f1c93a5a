import OcpFw.TableSteps

/-! Saving the tables. The block of a die is erased and then programmed once in every turn
of the loop, always at the same page. -/
namespace OcpFw

variable {c : TableConfig} {rawReadFails : Nat → Nat → Nat → Bool} {s₁ s t : TableState} {d l k : Nat}
  {queue rest : List TableReq} {req : TableReq}

/-- The page a table starts at. -/
def tablePageNo : Nat :=
  vpage2PlsbPageTranslation (plsbPage2VpageTranslation startPageNoOfBadBlockTableBlock)

def tableErase (c : TableConfig) (dieNo : Nat) : TableReq where
  reqCode := .erase
  dataBufAddr := none
  physicalCh := vdie2PchTranslation c.geometry dieNo
  physicalWay := vdie2PwayTranslation c.geometry dieNo
  physicalBlock := c.bbtPhyBlock dieNo
  physicalPage := 0

/-- The write of a turn. -/
def tableWrite (c : TableConfig) (dieNo loop : Nat) : TableReq where
  reqCode := .write
  dataBufAddr := some (c.tempBbtBufAddr dieNo + loop * TableConfig.tempBbtBufEntrySize)
  physicalCh := vdie2PchTranslation c.geometry dieNo
  physicalWay := vdie2PwayTranslation c.geometry dieNo
  physicalBlock := c.bbtPhyBlock dieNo
  physicalPage := tablePageNo

/-- The writes of the turns from one on. -/
def tableWrites (c : TableConfig) (dieNo from_ n : Nat) : List TableReq :=
  (List.range' from_ n).map (tableWrite c dieNo)

/-- The dies whose table is saved. -/
def Selected (s : TableState) (dieNo : Nat) : Prop :=
  s.dieState dieNo = .notExist ∨ s.dieState dieNo = .update

/-- The block of a table after a number of turns: only its page is programmed, with the
part of the buffer the last turn wrote. -/
structure TableSaved (c : TableConfig) (s₁ : TableState) (d k : Nat) (s : TableState) : Prop where
  blocks : ∀ b, b ≠ c.bbtPhyBlock d → s.flash d b = s₁.flash d b
  pages : ∀ p, p ≠ tablePageNo → (s.flash d (c.bbtPhyBlock d) p).programs = 0
  programs : (s.flash d (c.bbtPhyBlock d) tablePageNo).programs = k
  data : 0 < k → k ≤ c.usedPagesForBadBlockTablePerDie → ∀ i < bytesPerDataRegionOfPage,
    (s.flash d (c.bbtPhyBlock d) tablePageNo).data i =
      s₁.mem (c.tempBbtBufAddr d + (k - 1) * TableConfig.tempBbtBufEntrySize + i)

/-- A die after a number of turns, some requests of which may be left. -/
structure Saving (c : TableConfig) (s₁ : TableState) (l d : Nat) (queue : List TableReq) (s : TableState) : Prop where
  mem : ∀ a, c.Own d a → s.mem a = s₁.mem a
  bad : s.bad d = s₁.bad d
  state : s.dieState d = s₁.dieState d
  hold : ¬ Selected s₁ d → queue = [] ∧ s.flash d = s₁.flash d ∧ s.issued d = s₁.issued d
  saves : Selected s₁ d → (l = 0 ∧ queue = [] ∧ s.flash d = s₁.flash d) ∨
    (0 < l ∧ queue = tableErase c d :: tableWrites c d 0 l ∧ s.flash d = s₁.flash d) ∨
    ∃ k ≤ l, 0 < l ∧ queue = tableWrites c d k (l - k) ∧ TableSaved c s₁ d k s

theorem tableWrites_cons : tableWrites c d k (l + 1) = tableWrite c d k :: tableWrites c d (k + 1) l := by
  simp [tableWrites, List.range'_succ]

theorem tableWrites_snoc : tableWrites c d k l ++ [tableWrite c d (k + l)] = tableWrites c d k (l + 1) := by
  simp [tableWrites, List.range'_1_concat]

/-! ### What a die does -/

theorem complete_tableErase : s.complete c d (tableErase c d) rest = { s with
    nandReqQ := Function.update s.nandReqQ d rest
    flash := Function.update s.flash d (Function.update (s.flash d) (c.bbtPhyBlock d) fun _ => .erased) } :=
  rfl

theorem erase_saved (flash : s.flash d = s₁.flash d) : TableSaved c s₁ d 0 (s.complete c d (tableErase c d) rest) where
  blocks b other := by
    rw [complete_tableErase]
    simp [other, flash]
  pages p _ := by
    rw [complete_tableErase]
    simp [TablePage.erased]
  programs := by
    rw [complete_tableErase]
    simp [TablePage.erased]
  data := nofun

/-- A turn's write programs the page once more. -/
theorem TableSaved.write (ok : TableSaved c s₁ d k s) (mem : ∀ a, c.Own d a → s.mem a = s₁.mem a) :
    TableSaved c s₁ d (k + 1) (s.complete c d (tableWrite c d k) rest) where
  blocks b other := by
    simp only [TableState.complete, tableWrite, Function.update_self]
    rw [Function.update_of_ne other]
    exact ok.blocks b other
  pages p other := by
    simp only [TableState.complete, tableWrite, Function.update_self]
    rw [Function.update_of_ne other]
    exact ok.pages p other
  programs := by
    simp only [TableState.complete, tableWrite, Function.update_self]
    rw [ok.programs]
  data _ used i inside := by
    simp only [TableState.complete, tableWrite, Function.update_self, TableReq.generateDataBufAddr, Option.getD_some,
      Nat.add_sub_cancel]
    refine mem _ (TableConfig.own_page (by omega) ?_)
    unfold TableConfig.tempBbtBufEntrySize
    omega

theorem TableSaved.frame (ok : TableSaved c s₁ d k s) (flash : t.flash d = s.flash d) : TableSaved c s₁ d k t where
  blocks b other := by rw [flash, ok.blocks b other]
  pages p other := by rw [flash, ok.pages p other]
  programs := by rw [flash, ok.programs]
  data some used i inside := by rw [flash, ok.data some used i inside]

theorem saving_serves : Serves c rawReadFails (Saving c s₁ l) where
  frame d queue s t same ok := by
    refine ⟨fun a own => (same.mem a own).trans (ok.mem a own), same.bad.trans ok.bad, same.dieState.trans ok.state,
      fun none => ?_, fun chosen => ?_⟩
    · obtain ⟨empty, flash, issued⟩ := ok.hold none
      exact ⟨empty, same.flash.trans flash, same.issued.trans issued⟩
    · rcases ok.saves chosen with ⟨zero, empty, flash⟩ | ⟨some, first, flash⟩ | ⟨k, few, some, rest, saved⟩
      · exact .inl ⟨zero, empty, same.flash.trans flash⟩
      · exact .inr (.inl ⟨some, first, same.flash.trans flash⟩)
      · exact .inr (.inr ⟨k, few, some, rest, saved.frame same.flash⟩)
  within d queue s ok req member code := by
    have noRead : ∀ r ∈ queue, r.reqCode ≠ .read := by
      by_cases chosen : Selected s₁ d
      · have writes : ∀ k n, ∀ r ∈ tableWrites c d k n, r.reqCode ≠ .read := by
          intro k n r member
          obtain ⟨loop, -, rfl⟩ := List.mem_map.mp member
          exact nofun
        rcases ok.saves chosen with ⟨-, rfl, -⟩ | ⟨-, rfl, -⟩ | ⟨k, -, -, rfl, -⟩
        · simp
        · intro r member
          rcases List.mem_cons.mp member with rfl | later
          · exact nofun
          · exact writes _ _ r later
        · exact writes _ _
      · simp [(ok.hold chosen).1]
    exact absurd code (noRead req member)
  complete d die s req rest ok fine := by
    by_cases chosen : Selected s₁ d
    · rcases ok.saves chosen with ⟨-, empty, -⟩ | ⟨some, first, flash⟩ | ⟨k, few, some, first, saved⟩
      · cases empty
      · obtain ⟨rfl, rfl⟩ := List.cons.inj first
        exact ⟨ok.mem, ok.bad, ok.state, fun none => absurd chosen none,
          fun _ => .inr (.inr ⟨0, Nat.zero_le _, some, rfl, erase_saved flash⟩)⟩
      · obtain ⟨n, left⟩ : ∃ n, l - k = n + 1 := by
          cases left : l - k with
          | zero =>
            rw [left] at first
            cases first
          | succ n => exact ⟨n, rfl⟩
        rw [left, tableWrites_cons] at first
        obtain ⟨rfl, rfl⟩ := List.cons.inj first
        refine ⟨ok.mem, ok.bad, ok.state, fun none => absurd chosen none,
          fun _ => .inr (.inr ⟨k + 1, by omega, some, ?_, saved.write ok.mem⟩)⟩
        rw [show l - (k + 1) = n by omega]
    · cases (ok.hold chosen).1
  fail d die s req rest garbage ok fails := by
    by_cases chosen : Selected s₁ d
    · exfalso
      have code := fails.1
      rcases ok.saves chosen with ⟨-, empty, -⟩ | ⟨some, first, flash⟩ | ⟨k, few, some, first, saved⟩
      · cases empty
      · obtain ⟨rfl, -⟩ := List.cons.inj first
        cases code
      · have member : req ∈ tableWrites c d k (l - k) := by simp [← first]
        obtain ⟨loop, -, rfl⟩ := List.mem_map.mp member
        cases code
    · cases (ok.hold chosen).1

/-! ### The loop -/

theorem saveTablePage_others (different : d ≠ dieNo) (tempPage : Nat) :
    SameDie c d s (saveTablePage c tempPage l dieNo s) := by
  unfold saveTablePage
  split
  · split
    · exact SameDie.trans (.select different rfl rfl) (.select different rfl rfl)
    · exact .select different rfl rfl
  · exact .refl s

/-- The requests of a turn. -/
theorem saveTablePage_saves (ok : AtQueue (Saving c s₁ l) d s) :
    AtQueue (Saving c s₁ (l + 1)) d
      (saveTablePage c (plsbPage2VpageTranslation startPageNoOfBadBlockTableBlock) l d s) := by
  unfold AtQueue at ok ⊢
  have same : Selected s₁ d ↔ s.dieState d = .notExist ∨ s.dieState d = .update := by
    rw [ok.state]
    rfl
  unfold saveTablePage
  split
  · rename_i chosen
    have chosen := same.mpr chosen
    have queue : ∀ t : TableState, t.nandReqQ d = (if l = 0 then [tableErase c d] else s.nandReqQ d) →
        t.flash d = s.flash d → t.bad d = s.bad d → t.dieState d = s.dieState d → (∀ a, t.mem a = s.mem a) →
        Saving c s₁ (l + 1) d ((t.selectLowLevelReqQ c (tableWrite c d l)).nandReqQ d)
          (t.selectLowLevelReqQ c (tableWrite c d l)) := by
      intro t before flash bad state mem
      rw [TableState.select_eq rfl rfl]
      refine ⟨fun a own => (mem a).trans (ok.mem a own), bad.trans ok.bad, state.trans ok.state,
        fun none => absurd chosen none, fun _ => ?_⟩
      simp only [Function.update_self, before, flash]
      rcases ok.saves chosen with ⟨zero, empty, erased⟩ | ⟨some, first, erased⟩ | ⟨k, few, some, rest, saved⟩
      · subst zero
        exact .inr (.inl ⟨Nat.one_pos, by simp [tableWrites], erased⟩)
      · rw [if_neg (by omega), first]
        refine .inr (.inl ⟨Nat.succ_pos l, ?_, erased⟩)
        have more := @tableWrites_snoc c d l 0
        rw [Nat.zero_add] at more
        rw [List.cons_append, more]
      · rw [if_neg (by omega), rest]
        refine .inr (.inr ⟨k, by omega, Nat.succ_pos l, ?_, saved.frame flash⟩)
        have more := @tableWrites_snoc c d (l - k) k
        rw [show k + (l - k) = l by omega, show l - k + 1 = l + 1 - k by omega] at more
        exact more
    split
    · rename_i zero
      have empty : s.nandReqQ d = [] := by
        rcases ok.saves chosen with ⟨-, empty, -⟩ | ⟨some, -⟩ | ⟨k, -, some, -⟩
        · exact empty
        · omega
        · omega
      have first := @TableState.select_eq c s d (tableErase c d) rfl rfl
      refine queue (s.selectLowLevelReqQ c (tableErase c d)) ?_ ?_ ?_ ?_ ?_
      · rw [first, if_pos zero]
        simp [empty]
      all_goals simp [first]
    · rename_i later
      exact queue s (by rw [if_neg later]) rfl rfl rfl fun _ => rfl
  · rename_i hold
    have hold : ¬ Selected s₁ d := fun chosen => hold (same.mp chosen)
    exact ⟨ok.mem, ok.bad, ok.state, fun _ => ok.hold hold, fun chosen => absurd chosen hold⟩

/-- The turns of the loop. -/
def saveTurns (dataSize : Int) : Nat := ((dataSize + 16382) / 16383).toNat

theorem saveTablePages_triple (dataSize : Int) (l : Nat) :
    TableTriple c rawReadFails (EachDie c (Saving c s₁ l))
      (saveTablePages c dataSize (plsbPage2VpageTranslation startPageNoOfBadBlockTableBlock) l)
      (fun s => EachDie c (Saving c s₁ (l + saveTurns dataSize)) s ∧ s.saveLoop = l + saveTurns dataSize) := by
  induction dataSize, l using saveTablePages.induct with
  | case1 dataSize l positive ih =>
    rw [saveTablePages, if_pos positive]
    have turns : l + saveTurns dataSize = l + 1 + saveTurns (dataSize + 1 - bytesPerDataRegionOfPage) := by
      unfold saveTurns bytesPerDataRegionOfPage
      omega
    rw [turns]
    exact .seq saving_serves.local.stable
      (forDies_triple saving_serves saving_serves (fun d _ s => saveTablePage_saves)
        fun _ _ _ _ different _ => saveTablePage_others different _) ih
  | case2 dataSize l done =>
    rw [saveTablePages, if_neg done]
    have none : saveTurns dataSize = 0 := by
      unfold saveTurns
      omega
    rw [none, Nat.add_zero]
    refine .act saving_serves.local.stable fun s each => ⟨fun d exist => ?_, rfl⟩
    have same : SameDie c d s { s with saveLoop := l } := ⟨fun _ _ => rfl, rfl, rfl, rfl, rfl, rfl, rfl, rfl, id⟩
    exact (@saving_serves c rawReadFails s₁ l).frame d _ s _ same (each d exist)

/-- What saving leaves on a die. -/
structure SaveDone (c : TableConfig) (s₁ : TableState) (turns d : Nat) (t : TableState) : Prop where
  quiet : t.nandReqQ d = []
  mem : ∀ a, c.Own d a → t.mem a = s₁.mem a
  bad : t.bad d = s₁.bad d
  state : t.dieState d = s₁.dieState d
  hold : ¬ Selected s₁ d → t.flash d = s₁.flash d ∧ t.issued d = s₁.issued d
  saved : Selected s₁ d → TableSaved c s₁ d turns t

/-- After the last turn every write is waited for. -/
theorem saveBadBlockTable_spec (run : TableRuns c rawReadFails (saveBadBlockTable c) s₁ t)
    (quiet : ∀ d < c.geometry.userDies, s₁.nandReqQ d = []) :
    (∀ d < c.geometry.userDies, SaveDone c s₁ (saveTurns c.totalBlocksPerDie) d t) ∧
      t.saveLoop = saveTurns c.totalBlocksPerDie := by
  obtain ⟨m, loop, sync⟩ := run.seq_inv
  have start : EachDie c (Saving c s₁ 0) s₁ := fun d exist =>
    ⟨fun _ _ => rfl, rfl, rfl, fun _ => ⟨quiet d exist, rfl, rfl⟩, fun _ => .inl ⟨rfl, quiet d exist, rfl⟩⟩
  obtain ⟨each, turns⟩ := saveTablePages_triple _ _ s₁ m loop start
  rw [Nat.zero_add] at each turns
  refine ⟨fun d exist => ?_, ?_⟩
  · obtain ⟨empty, ok⟩ := sync_triple saving_serves m t sync each d exist
    refine ⟨empty, ok.mem, ok.bad, ok.state, fun none => (ok.hold none).2, fun chosen => ?_⟩
    have blocks := c.blocks_pos
    change 0 < c.dataSizeOfBadBlockTablePerDie at blocks
    have some : 0 < saveTurns c.dataSizeOfBadBlockTablePerDie := by
      unfold saveTurns
      omega
    rcases ok.saves chosen with ⟨zero, -⟩ | ⟨-, pending, -⟩ | ⟨k, few, -, pending, saved⟩
    · omega
    · rw [empty] at pending
      cases pending
    · rw [empty] at pending
      have none := congrArg List.length pending
      simp only [List.length_nil, tableWrites, List.length_map, List.length_range'] at none
      obtain rfl : k = saveTurns c.dataSizeOfBadBlockTablePerDie := by omega
      exact saved
  · have kept : AsyncPrograms.Stable (AsyncPrograms.StepOfAny (TableDieStep c rawReadFails) c.geometry.userDies)
        fun s => s.saveLoop = saveTurns c.dataSizeOfBadBlockTablePerDie := by
      rintro s u ⟨d, -, moves⟩ same
      exact moves.loops.2.trans same
    exact (AsyncPrograms.Triple.sync kept m t sync turns).1

end OcpFw
