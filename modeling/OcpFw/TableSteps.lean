import OcpFw.BadBlockTable

/-! What one die does to the memory while a table is read, built or saved: every die has
buffers of its own, its requests transfer within them, and the other dies are unaffected. -/
namespace OcpFw
open AsyncPrograms (Local StepOfAny)
open Relation (ReflTransGen)

variable {c : TableConfig} {rawReadFails : Nat → Nat → Nat → Bool} {s t : TableState} {dieNo d : Nat}
  {req : TableReq} {rest : List TableReq}

/-! ### The buffers -/

/-- The buffers of a die: that of its table and that of the page it reads. -/
def TableConfig.Own (c : TableConfig) (dieNo a : Nat) : Prop :=
  (c.tempBbtBufAddr dieNo ≤ a ∧
    a < c.tempBbtBufAddr dieNo + c.usedPagesForBadBlockTablePerDie * TableConfig.tempBbtBufEntrySize) ∨
  (c.tempReadBufAddr dieNo ≤ a ∧ a < c.tempReadBufAddr dieNo + bytesPerNandRow)

/-- Rows of one length do not overlap. -/
theorem rows_apart {i j size x : Nat} (different : i ≠ j) (first : i * size ≤ x ∧ x < i * size + size)
    (second : j * size ≤ x ∧ x < j * size + size) : False := by
  rcases Nat.lt_or_gt_of_ne different with before | behind
  · have next := Nat.mul_le_mul_right size (Nat.succ_le_of_lt before)
    rw [Nat.succ_mul] at next
    omega
  · have next := Nat.mul_le_mul_right size (Nat.succ_le_of_lt behind)
    rw [Nat.succ_mul] at next
    omega

/-- The room of one table. -/
def TableConfig.tableSize (c : TableConfig) : Nat :=
  c.usedPagesForBadBlockTablePerDie * TableConfig.tempBbtBufEntrySize

theorem TableConfig.tempBbtBufAddr_eq (c : TableConfig) (dieNo : Nat) :
    c.tempBbtBufAddr dieNo = c.reservedDataBufferBaseAddr + dieNo * c.tableSize := by
  rw [tempBbtBufAddr, Nat.mul_assoc, tableSize]

theorem TableConfig.tempReadBufAddr_eq (c : TableConfig) (dieNo : Nat) :
    c.tempReadBufAddr dieNo =
      c.reservedDataBufferBaseAddr + c.geometry.userDies * c.tableSize + dieNo * bytesPerNandRow := by
  rw [tempReadBufAddr, tempReadBufBaseAddr, Nat.mul_assoc c.geometry.userDies, tableSize, tempReadBufEntrySize]

/-- The tables are before the pages that are read. -/
theorem TableConfig.table_below (die : dieNo < c.geometry.userDies) :
    dieNo * c.tableSize + c.tableSize ≤ c.geometry.userDies * c.tableSize := by
  have next := Nat.mul_le_mul_right c.tableSize (Nat.succ_le_of_lt die)
  rwa [Nat.succ_mul] at next

theorem TableConfig.own_apart {a : Nat} (die : dieNo < c.geometry.userDies) (other : d < c.geometry.userDies)
    (different : dieNo ≠ d) (own : c.Own dieNo a) : ¬ c.Own d a := by
  have below := table_below die
  have below' := table_below other
  unfold Own at own ⊢
  rw [tempBbtBufAddr_eq, tempReadBufAddr_eq] at own ⊢
  change (_ ∧ a < _ + c.tableSize) ∨ _ at own
  change ¬ ((_ ∧ a < _ + c.tableSize) ∨ _)
  rintro own'
  rcases own with own | own <;> rcases own' with own' | own'
  · exact @rows_apart dieNo d c.tableSize (a - c.reservedDataBufferBaseAddr) different (by omega) (by omega)
  · omega
  · omega
  · exact @rows_apart dieNo d bytesPerNandRow
      (a - (c.reservedDataBufferBaseAddr + c.geometry.userDies * c.tableSize)) different (by omega) (by omega)

/-- The pages of a table are within its buffer. -/
theorem TableConfig.own_page {loop i : Nat} (page : loop < c.usedPagesForBadBlockTablePerDie)
    (inside : i < TableConfig.tempBbtBufEntrySize) :
    c.Own dieNo (c.tempBbtBufAddr dieNo + loop * TableConfig.tempBbtBufEntrySize + i) := by
  have next := Nat.mul_le_mul_right TableConfig.tempBbtBufEntrySize (Nat.succ_le_of_lt page)
  rw [Nat.succ_mul] at next
  exact .inl ⟨by omega, by omega⟩

theorem TableConfig.block_inside {b : Nat} (block : b < c.totalBlocksPerDie) : b < c.tableSize := by
  unfold tableSize usedPagesForBadBlockTablePerDie tempBbtBufEntrySize bytesPerDataRegionOfPage
    bytesPerSpareRegionOfPage
  have whole := Nat.div_add_mod c.totalBlocksPerDie 16384
  have part := Nat.mod_lt c.totalBlocksPerDie (show 0 < 16384 by decide)
  omega

theorem TableConfig.own_block {b : Nat} (block : b < c.totalBlocksPerDie) :
    c.Own dieNo (c.tempBbtBufAddr dieNo + b) :=
  .inl ⟨by omega, Nat.add_lt_add_left (block_inside block) _⟩

theorem TableConfig.own_read {i : Nat} (inside : i < bytesPerNandRow) : c.Own dieNo (c.tempReadBufAddr dieNo + i) :=
  .inr ⟨by omega, by omega⟩

/-- The two buffers of a die. -/
theorem TableConfig.table_read_apart {b i : Nat} (die : dieNo < c.geometry.userDies) (block : b < c.totalBlocksPerDie) :
    c.tempBbtBufAddr dieNo + b < c.tempReadBufAddr dieNo + i := by
  have below := table_below die
  have inside := block_inside block
  rw [tempBbtBufAddr_eq, tempReadBufAddr_eq]
  omega

theorem storeBytes_at {mem bytes : Nat → UInt8} {addr size i : Nat} (inside : i < size) :
    storeBytes mem addr size bytes (addr + i) = bytes i := by
  rw [storeBytes, if_pos ⟨by omega, by omega⟩, Nat.add_sub_cancel_left]

theorem storeBytes_outside {mem bytes : Nat → UInt8} {addr size a : Nat} (outside : ¬ (addr ≤ a ∧ a < addr + size)) :
    storeBytes mem addr size bytes a = mem a :=
  if_neg outside

/-! ### What belongs to a die -/

/-- Nothing of the die has changed. -/
structure SameDie (c : TableConfig) (dieNo : Nat) (s t : TableState) : Prop where
  mem : ∀ a, c.Own dieNo a → t.mem a = s.mem a
  bad : t.bad dieNo = s.bad dieNo
  grown : t.grownBadUpdate dieNo = s.grownBadUpdate dieNo
  queue : t.nandReqQ dieNo = s.nandReqQ dieNo
  issued : t.issued dieNo = s.issued dieNo
  flash : t.flash dieNo = s.flash dieNo
  dieState : t.dieState dieNo = s.dieState dieNo
  blockChecker : t.blockChecker dieNo = s.blockChecker dieNo
  maker : s.bbtMaker = true → t.bbtMaker = true

/-- A read into a buffer of the die, or no read. -/
def TableReq.Within (c : TableConfig) (dieNo : Nat) (req : TableReq) : Prop :=
  req.reqCode = .read →
    if req.nandEcc then ∃ loop < c.usedPagesForBadBlockTablePerDie,
      req.dataBufAddr = some (c.tempBbtBufAddr dieNo + loop * TableConfig.tempBbtBufEntrySize)
    else req.dataBufAddr = some (c.tempReadBufAddr dieNo)

/-- A transfer changes only the buffers of its die. -/
theorem TableState.complete_mem {a : Nat} (within : req.Within c dieNo) (outside : ¬ c.Own dieNo a) :
    (s.complete c dieNo req rest).mem a = s.mem a := by
  unfold TableState.complete
  cases code : req.reqCode with
  | read =>
    have buffer := within code
    cases ecc : req.nandEcc with
    | true =>
      rw [ecc, if_pos rfl] at buffer
      obtain ⟨loop, page, addr⟩ := buffer
      simp only [↓reduceIte, TableReq.generateSpareDataBufAddr, TableReq.generateDataBufAddr, addr,
        Option.getD_some]
      have all : ∀ i < TableConfig.tempBbtBufEntrySize,
          c.tempBbtBufAddr dieNo + loop * TableConfig.tempBbtBufEntrySize + i ≠ a := by
        rintro i inside rfl
        exact outside (TableConfig.own_page page inside)
      have apart := all (a - (c.tempBbtBufAddr dieNo + loop * TableConfig.tempBbtBufEntrySize))
      unfold TableConfig.tempBbtBufEntrySize bytesPerDataRegionOfPage bytesPerSpareRegionOfPage at apart
      unfold bytesPerDataRegionOfSlice bytesPerSpareRegionOfPage bytesPerDataRegionOfPage
      unfold TableConfig.tempBbtBufEntrySize bytesPerDataRegionOfPage bytesPerSpareRegionOfPage
      rw [storeBytes_outside (by omega), storeBytes_outside (by omega)]
    | false =>
      rw [ecc, if_neg (by decide)] at buffer
      simp only [Bool.false_eq_true, ↓reduceIte, TableReq.generateDataBufAddr, buffer, Option.getD_some]
      exact storeBytes_outside fun inside => outside (.inr inside)
  | write => rfl
  | erase => rfl

theorem TableState.fail_mem {a : Nat} {garbage : Nat → UInt8} (within : req.Within c dieNo)
    (fails : req.Fails rawReadFails dieNo) (outside : ¬ c.Own dieNo a) :
    (s.fail c dieNo req rest garbage).mem a = s.mem a := by
  have buffer := within fails.1
  rw [fails.2.1, if_neg (by decide)] at buffer
  have start : c.Own dieNo (c.tempReadBufAddr dieNo + 0) := TableConfig.own_read (by decide)
  simp only [TableState.fail, TableReq.generateDataBufAddr, buffer, Option.getD_some]
  rw [Function.update_of_ne (by rintro rfl; exact outside start)]
  exact storeBytes_outside fun inside => outside (.inr inside)

/-- A die leaves the others alone. -/
theorem TableDieStep.others (moves : TableDieStep c rawReadFails dieNo s t)
    (within : ∀ req ∈ s.nandReqQ dieNo, req.Within c dieNo) (die : dieNo < c.geometry.userDies)
    (exist : d < c.geometry.userDies) (different : d ≠ dieNo) : SameDie c d s t := by
  cases moves with
  | complete first fine =>
    rename_i req rest
    have buffer := within req (by simp [first])
    have mem : ∀ a, c.Own d a → (s.complete c dieNo req rest).mem a = s.mem a := fun a own =>
      TableState.complete_mem buffer (TableConfig.own_apart exist die different own)
    unfold TableState.complete at mem ⊢
    cases code : req.reqCode <;> simp only [code] at mem ⊢
    · cases ecc : req.nandEcc <;> simp only [ecc] at mem ⊢ <;>
        constructor <;> simp_all
    · constructor <;> simp_all
    · constructor <;> simp_all
  | fail first fails garbage =>
    rename_i req rest
    have buffer := within req (by simp [first])
    refine ⟨fun a own => TableState.fail_mem buffer fails (TableConfig.own_apart exist die different own),
      ?_, ?_, ?_, rfl, rfl, rfl, rfl, id⟩ <;> simp [TableState.fail, Function.update_of_ne different]

/-- The scheduler does not touch the counters of the loops. -/
theorem TableDieStep.loops (moves : TableDieStep c rawReadFails dieNo s t) :
    t.readLoop = s.readLoop ∧ t.saveLoop = s.saveLoop := by
  cases moves with
  | complete first fine =>
    rename_i req rest
    unfold TableState.complete
    cases req.reqCode with
    | read => cases req.nandEcc <;> exact ⟨rfl, rfl⟩
    | write => exact ⟨rfl, rfl⟩
    | erase => exact ⟨rfl, rfl⟩
  | fail first fails garbage => exact ⟨rfl, rfl⟩

/-! ### Assertions about the requests of a die -/

/-- An assertion about a die and the requests it still has. -/
structure Serves (c : TableConfig) (rawReadFails : Nat → Nat → Nat → Bool)
    (P : Nat → List TableReq → TableState → Prop) : Prop where
  frame : ∀ dieNo queue s t, SameDie c dieNo s t → P dieNo queue s → P dieNo queue t
  within : ∀ dieNo queue s, P dieNo queue s → ∀ req ∈ queue, req.Within c dieNo
  complete : ∀ dieNo < c.geometry.userDies, ∀ s req rest, P dieNo (req :: rest) s →
    ¬ req.Fails rawReadFails dieNo → P dieNo rest (s.complete c dieNo req rest)
  fail : ∀ dieNo < c.geometry.userDies, ∀ s req rest garbage, P dieNo (req :: rest) s →
    req.Fails rawReadFails dieNo → P dieNo rest (s.fail c dieNo req rest garbage)

/-- The assertion about the queue as it is. -/
def AtQueue (P : Nat → List TableReq → TableState → Prop) (dieNo : Nat) (s : TableState) : Prop :=
  P dieNo (s.nandReqQ dieNo) s

theorem TableState.complete_queue : (s.complete c dieNo req rest).nandReqQ dieNo = rest := by
  unfold TableState.complete
  cases req.reqCode with
  | read => cases req.nandEcc <;> simp
  | write => simp
  | erase => simp

theorem Serves.local {P : Nat → List TableReq → TableState → Prop} (ok : Serves c rawReadFails P) :
    Local (TableDieStep c rawReadFails) (SameDie c) c.geometry.userDies (AtQueue P) where
  frame dieNo _ s t same h := by
    unfold AtQueue at h ⊢
    rw [same.queue]
    exact ok.frame dieNo _ s t same h
  own dieNo die s t moves h := by
    unfold AtQueue at h ⊢
    cases moves with
    | complete first fine =>
      rw [first] at h
      rw [TableState.complete_queue]
      exact ok.complete dieNo die s _ _ h fine
    | fail first fails garbage =>
      rw [first] at h
      simp only [TableState.fail, Function.update_self]
      exact ok.fail dieNo die s _ _ garbage h fails
  others dieNo die s t moves h d exist different :=
    moves.others (ok.within dieNo _ s h) die exist different

/-- A die with nothing left to do is at rest. -/
theorem Serves.quiet {P : Nat → List TableReq → TableState → Prop} (ok : Serves c rawReadFails P) :
    Serves c rawReadFails fun dieNo queue s => queue = [] ∧ P dieNo queue s where
  frame dieNo queue s t same h := ⟨h.1, ok.frame dieNo queue s t same h.2⟩
  within dieNo queue s h := ok.within dieNo queue s h.2
  complete _ _ _ _ _ h := by cases h.1
  fail _ _ _ _ _ _ h := by cases h.1

/-! ### Statements for every die -/

variable {P P' : Nat → List TableReq → TableState → Prop} {f : Nat → TableState → TableState}

/-- What holds after every run of a program on the dies. -/
abbrev TableTriple (c : TableConfig) (rawReadFails : Nat → Nat → Nat → Bool) :=
  AsyncPrograms.Triple (StepOfAny (TableDieStep c rawReadFails) c.geometry.userDies)
    (AsyncPrograms.Each c.geometry.userDies TableState.Quiet)

/-- The assertion about every die. -/
abbrev EachDie (c : TableConfig) (P : Nat → List TableReq → TableState → Prop) : TableState → Prop :=
  AsyncPrograms.Each c.geometry.userDies (AtQueue P)

theorem forDies_triple (first : Serves c rawReadFails P) (next : Serves c rawReadFails P')
    (effect : ∀ i < c.geometry.userDies, ∀ s, AtQueue P i s → AtQueue P' i (f i s))
    (others : ∀ i s, ∀ j < c.geometry.userDies, j ≠ i → i < c.geometry.userDies → SameDie c j s (f i s)) :
    TableTriple c rawReadFails (EachDie c P) (forDies c f) (EachDie c P') :=
  .forEach first.local next.local effect fun i low s _ j exist different => others i s j exist different low

theorem sync_triple (first : Serves c rawReadFails P) :
    TableTriple c rawReadFails (EachDie c P) .sync (EachDie c fun dieNo queue s => queue = [] ∧ P dieNo queue s) :=
  .syncEach first.local fun _ _ _ h quiet => ⟨quiet, h⟩

theorem SameDie.refl (s : TableState) : SameDie c d s s :=
  ⟨fun _ _ => rfl, rfl, rfl, rfl, rfl, rfl, rfl, rfl, id⟩

theorem SameDie.trans {u : TableState} (first : SameDie c d s t) (second : SameDie c d t u) : SameDie c d s u where
  mem a own := (second.mem a own).trans (first.mem a own)
  bad := second.bad.trans first.bad
  grown := second.grown.trans first.grown
  queue := second.queue.trans first.queue
  issued := second.issued.trans first.issued
  flash := second.flash.trans first.flash
  dieState := second.dieState.trans first.dieState
  blockChecker := second.blockChecker.trans first.blockChecker
  maker := second.maker ∘ first.maker

/-- The way of a die has its number. -/
theorem pcw2Vdie_vdie (g : Geometry) (dieNo : Nat) :
    pcw2VdieTranslation g (vdie2PchTranslation g dieNo) (vdie2PwayTranslation g dieNo) = dieNo :=
  Nat.mod_add_div' ..

/-- A request goes to the end of the queue of its die. -/
theorem TableState.select_eq (ch : req.physicalCh = vdie2PchTranslation c.geometry dieNo)
    (way : req.physicalWay = vdie2PwayTranslation c.geometry dieNo) :
    s.selectLowLevelReqQ c req = { s with
      nandReqQ := Function.update s.nandReqQ dieNo (s.nandReqQ dieNo ++ [req])
      issued := Function.update s.issued dieNo (s.issued dieNo ++ [req]) } := by
  simp only [TableState.selectLowLevelReqQ, ch, way, pcw2Vdie_vdie]

/-- And to no other die. -/
theorem SameDie.select (different : d ≠ dieNo) (ch : req.physicalCh = vdie2PchTranslation c.geometry dieNo)
    (way : req.physicalWay = vdie2PwayTranslation c.geometry dieNo) :
    SameDie c d s (s.selectLowLevelReqQ c req) := by
  rw [TableState.select_eq ch way]
  refine ⟨fun _ _ => rfl, rfl, rfl, ?_, ?_, rfl, rfl, rfl, id⟩ <;> simp [different]

end OcpFw
