import OcpFw.TableSteps

/-! The search for bad blocks on the dies without a table. The buffer of a die holds first
the one and then, unless that was bad already, the other page with a mark, and what is kept
of the block is whether both were read and clean. -/
namespace OcpFw

variable {c : TableConfig} {rawReadFails : Nat → Nat → Nat → Bool} {s₁ s t : TableState} {d b p : Nat}
  {queue rest : List TableReq} {req : TableReq}

/-- A raw read of the page succeeds and finds both bytes clean. -/
def cleanPage (rawReadFails : Nat → Nat → Nat → Bool) (s₁ : TableState) (d b p : Nat) : Bool :=
  (s₁.flash d b p).row badBlockMarkByte0 == cleanDataInByte &&
    (s₁.flash d b p).row badBlockMarkByte1 == cleanDataInByte && !rawReadFails d b p

/-- A mark of the block is not clean, or a page with marks cannot be read. -/
def isBadBlock (rawReadFails : Nat → Nat → Nat → Bool) (s₁ : TableState) (d b : Nat) : Bool :=
  !(cleanPage rawReadFails s₁ d b badBlockMarkPage0 && cleanPage rawReadFails s₁ d b badBlockMarkPage1)

/-- Rows of failing reads stay below the base of their LUN. -/
def FailuresDecode (c : TableConfig) (rawReadFails : Nat → Nat → Nat → Bool) : Prop :=
  ∀ d b p, rawReadFails d b p = true → c.totalBlocksPerLun ≤ 4096 ∧ c.lunsPerDie ≤ 2

/-- The request of `FindBadBlock` for a page. -/
def markRead (c : TableConfig) (phyBlockNo pageNo dieNo : Nat) : TableReq where
  reqCode := .read
  nandEcc := false
  dataBufAddr := some (c.tempReadBufAddr dieNo)
  physicalCh := vdie2PchTranslation c.geometry dieNo
  physicalWay := vdie2PwayTranslation c.geometry dieNo
  physicalBlock := phyBlockNo
  physicalPage := pageNo

theorem readMarkPage_eq : readMarkPage c b p d s = { s with
    nandReqQ := Function.update s.nandReqQ d (s.nandReqQ d ++ [markRead c b p d])
    issued := Function.update s.issued d (s.issued d ++ [markRead c b p d]) } :=
  TableState.select_eq rfl rfl

/-! ### One page -/

theorem marksClean_eq (mem : ∀ i < bytesPerNandRow, t.mem (c.tempReadBufAddr d + i) = s.mem (c.tempReadBufAddr d + i)) :
    marksClean c d t = marksClean c d s := by
  unfold marksClean
  rw [mem badBlockMarkByte0 (by decide), mem badBlockMarkByte1 (by decide)]

theorem SameDie.marksClean (same : SameDie c d s t) : marksClean c d t = OcpFw.marksClean c d s :=
  marksClean_eq fun _ inside => same.mem _ (TableConfig.own_read inside)

/-- The buffer after a read that succeeds. -/
theorem complete_markRead :
    s.complete c d (markRead c b p d) rest = { s with
      nandReqQ := Function.update s.nandReqQ d rest
      mem := storeBytes s.mem (c.tempReadBufAddr d) bytesPerNandRow (s.flash d b p).row } :=
  rfl

theorem marksClean_complete (fine : ¬ (markRead c b p d).Fails rawReadFails d) (flash : s.flash d = s₁.flash d) :
    marksClean c d (s.complete c d (markRead c b p d) rest) = cleanPage rawReadFails s₁ d b p := by
  have succeeds : rawReadFails d b p = false := by
    cases fails : rawReadFails d b p with
    | false => rfl
    | true => exact absurd ⟨rfl, rfl, fails⟩ fine
  rw [complete_markRead, marksClean, cleanPage, succeeds]
  simp only [storeBytes_at (show badBlockMarkByte0 < bytesPerNandRow by decide),
    storeBytes_at (show badBlockMarkByte1 < bytesPerNandRow by decide), flash, Bool.not_false, Bool.and_true]

/-- The block a row address is decoded to. -/
theorem phyBlockNo_row (rows : c.totalBlocksPerLun ≤ 4096 ∧ c.lunsPerDie ≤ 2) (block : b < c.totalBlocksPerDie)
    (page : p < pagesPerMlcBlock) :
    let rowAddr := (markRead c b p d).generateNandRowAddr c
    rowAddr % lun1BaseAddr / pagesPerMlcBlock + rowAddr / lun1BaseAddr * c.totalBlocksPerLun = b := by
  have positive : 0 < c.totalBlocksPerLun := Nat.pos_of_mul_pos_right c.blocks_pos
  have lun : b / c.totalBlocksPerLun < 2 := by
    have inside : b / c.totalBlocksPerLun < c.lunsPerDie := Nat.div_lt_of_lt_mul block
    omega
  obtain ⟨offset, quotient⟩ := row_parts lun (Nat.lt_of_lt_of_le (Nat.mod_lt b positive) rows.1) page
  simp only [TableReq.generateNandRowAddr, markRead, offset, quotient]
  rw [Nat.mul_comm]
  exact Nat.mod_add_div b c.totalBlocksPerLun

/-- A read that is given up leaves a mark, and marks the block it was for. -/
theorem fail_markRead {garbage : Nat → UInt8} (rows : c.totalBlocksPerLun ≤ 4096 ∧ c.lunsPerDie ≤ 2)
    (block : b < c.totalBlocksPerDie) (page : p < pagesPerMlcBlock) :
    s.fail c d (markRead c b p d) rest garbage = { s with
      nandReqQ := Function.update s.nandReqQ d rest
      mem := Function.update (storeBytes s.mem (c.tempReadBufAddr d) bytesPerNandRow garbage) (c.tempReadBufAddr d) 0
      bad := Function.update s.bad d (Function.update (s.bad d) b true)
      grownBadUpdate := Function.update s.grownBadUpdate d true } := by
  have decoded := @phyBlockNo_row c d b p rows block page
  simp only at decoded
  simp only [TableState.fail, decoded]
  rfl

theorem marksClean_fail {garbage : Nat → UInt8} (fails : (markRead c b p d).Fails rawReadFails d) :
    marksClean c d (s.fail c d (markRead c b p d) rest garbage) = cleanPage rawReadFails s₁ d b p := by
  have unreadable : rawReadFails d b p = true := fails.2.2
  have first : (s.fail c d (markRead c b p d) rest garbage).mem (c.tempReadBufAddr d + badBlockMarkByte0) = 0 := by
    simp [TableState.fail, markRead, badBlockMarkByte0, pseudoBadBlockMark]
  rw [marksClean, first, cleanPage, unreadable]
  simp [cleanDataInByte]

/-! ### The state of a die -/

/-- A die after the search went through a number of blocks. -/
structure BlocksScanned (c : TableConfig) (rawReadFails : Nat → Nat → Nat → Bool) (s₁ : TableState) (done d : Nat)
    (s : TableState) : Prop where
  flash : s.flash d = s₁.flash d
  state : s.dieState d = s₁.dieState d
  kept : s₁.dieState d ≠ .notExist → s.bad d = s₁.bad d ∧ s.issued d = s₁.issued d
  found : s₁.dieState d = .notExist → ∀ b < done, s.mem (c.tempBbtBufAddr d + b) =
    blockState (isBadBlock rawReadFails s₁ d b) ∧ s.bad d b = isBadBlock rawReadFails s₁ d b

/-- A die while the search is at a block: what the search knows so far, and the page it reads. -/
structure Scanning (c : TableConfig) (rawReadFails : Nat → Nat → Nat → Bool) (s₁ : TableState) (b : Nat)
    (checker : Nat → Bool) (page : Nat → Option Nat) (d : Nat) (queue : List TableReq) (s : TableState) : Prop where
  scanned : BlocksScanned c rawReadFails s₁ b d s
  idle : s₁.dieState d ≠ .notExist → queue = []
  checker : s₁.dieState d = .notExist → s.blockChecker d = checker d
  nothing : s₁.dieState d = .notExist → page d = none → queue = []
  reads : s₁.dieState d = .notExist → ∀ p ∈ page d, p < pagesPerMlcBlock ∧
    (queue = [markRead c b p d] ∨ queue = [] ∧ marksClean c d s = cleanPage rawReadFails s₁ d b p)

theorem BlocksScanned.frame {done : Nat} (ok : BlocksScanned c rawReadFails s₁ done d s) (same : SameDie c d s t)
    (inside : done ≤ c.totalBlocksPerDie) : BlocksScanned c rawReadFails s₁ done d t where
  flash := same.flash.trans ok.flash
  state := same.dieState.trans ok.state
  kept exist := ⟨same.bad.trans (ok.kept exist).1, same.issued.trans (ok.kept exist).2⟩
  found none b low := by
    rw [same.mem _ (TableConfig.own_block (by omega)), same.bad]
    exact ok.found none b low

/-- A transfer into the other buffer, and a mark for the block the search is at. -/
theorem BlocksScanned.transfer (ok : BlocksScanned c rawReadFails s₁ b d s) (die : d < c.geometry.userDies)
    (inside : b ≤ c.totalBlocksPerDie) (none : s₁.dieState d = .notExist)
    (mem : ∀ a < c.tempReadBufAddr d, t.mem a = s.mem a) (bad : ∀ b', b' ≠ b → t.bad d b' = s.bad d b')
    (flash : t.flash d = s.flash d) (state : t.dieState d = s.dieState d) : BlocksScanned c rawReadFails s₁ b d t where
  flash := flash.trans ok.flash
  state := state.trans ok.state
  kept exist := absurd none exist
  found _ b' low := by
    have below := @TableConfig.table_read_apart c d b' 0 die (by omega)
    rw [mem _ (by omega), bad b' (by omega)]
    exact ok.found none b' low

/-- What a die does for a request of the search. -/
theorem scanning_serves {checker : Nat → Bool} {page : Nat → Option Nat} (block : b < c.totalBlocksPerDie)
    (decode : FailuresDecode c rawReadFails) :
    Serves c rawReadFails (Scanning c rawReadFails s₁ b checker page) where
  frame d queue s t same ok := by
    refine ⟨ok.scanned.frame same (by omega), ok.idle, fun none => ?_, ok.nothing, fun none p member => ?_⟩
    · rw [same.blockChecker]
      exact ok.checker none
    · rw [same.marksClean]
      exact ok.reads none p member
  within d queue s ok req member := by
    rcases Decidable.em (s₁.dieState d = .notExist) with none | exist
    · cases at_ : page d with
      | none => simp [ok.nothing none at_] at member
      | some p =>
        rcases (ok.reads none p at_).2 with first | ⟨empty, -⟩
        · rw [first, List.mem_singleton] at member
          subst member
          exact fun _ => rfl
        · simp [empty] at member
    · simp [ok.idle exist] at member
  complete d die s req rest ok fine := by
    have none : s₁.dieState d = .notExist := Decidable.byContradiction fun exist => by cases ok.idle exist
    cases at_ : page d with
    | none => cases ok.nothing none at_
    | some p =>
      obtain ⟨inside, first | ⟨empty, -⟩⟩ := ok.reads none p at_
      swap
      · cases empty
      cases first
      have clean := @marksClean_complete c rawReadFails s₁ s d b p [] fine ok.scanned.flash
      rw [complete_markRead] at clean ⊢
      refine ⟨ok.scanned.transfer die block.le none (fun a low => ?_) (fun _ _ => rfl) rfl rfl, fun _ => rfl,
        ok.checker, fun _ _ => rfl, fun _ p' member => ?_⟩
      · exact storeBytes_outside (by omega)
      · rw [at_, Option.mem_some] at member
        subst member
        exact ⟨inside, .inr ⟨rfl, clean⟩⟩
  fail d die s req rest garbage ok fails := by
    have none : s₁.dieState d = .notExist := Decidable.byContradiction fun exist => by cases ok.idle exist
    cases at_ : page d with
    | none => cases ok.nothing none at_
    | some p =>
      obtain ⟨inside, first | ⟨empty, -⟩⟩ := ok.reads none p at_
      swap
      · cases empty
      cases first
      have clean := @marksClean_fail c rawReadFails s₁ s d b p [] garbage fails
      rw [fail_markRead (decode d b p fails.2.2) block inside] at clean ⊢
      refine ⟨ok.scanned.transfer die block.le none (fun a low => ?_) (fun b' other => ?_) rfl rfl, fun _ => rfl,
        ok.checker, fun _ _ => rfl, fun _ p' member => ?_⟩
      · exact (Function.update_of_ne (by omega) ..).trans (storeBytes_outside (by omega))
      · simp [other]
      · rw [at_, Option.mem_some] at member
        subst member
        exact ⟨inside, .inr ⟨rfl, clean⟩⟩

/-- Between two blocks. -/
def AtRest (c : TableConfig) (rawReadFails : Nat → Nat → Nat → Bool) (s₁ : TableState) (done d : Nat)
    (queue : List TableReq) (s : TableState) : Prop :=
  queue = [] ∧ BlocksScanned c rawReadFails s₁ done d s

theorem atRest_serves {done : Nat} (inside : done ≤ c.totalBlocksPerDie) :
    Serves c rawReadFails (AtRest c rawReadFails s₁ done) where
  frame _ _ _ _ same ok := ⟨ok.1, ok.2.frame same inside⟩
  within _ _ _ ok req member := by simp [ok.1] at member
  complete _ _ _ _ _ ok := by cases ok.1
  fail _ _ _ _ _ _ ok := by cases ok.1

/-! ### The three loops over the dies -/

theorem checkFirstPage_others (different : d ≠ dieNo) : SameDie c d s (checkFirstPage c b dieNo s) := by
  unfold checkFirstPage
  split
  · have checker : SameDie c d s { s with blockChecker := Function.update s.blockChecker dieNo false } :=
      ⟨fun _ _ => rfl, rfl, rfl, rfl, rfl, rfl, rfl, Function.update_of_ne different .., id⟩
    exact checker.trans (.select different rfl rfl)
  · exact .refl s

theorem checkLastPage_others (different : d ≠ dieNo) : SameDie c d s (checkLastPage c b dieNo s) := by
  unfold checkLastPage
  split
  · split
    · exact .select different rfl rfl
    · exact ⟨fun _ _ => rfl, rfl, rfl, rfl, rfl, rfl, rfl, Function.update_of_ne different .., id⟩
  · exact .refl s

theorem updateBlockState_others (different : d ≠ dieNo) (exist : d < c.geometry.userDies)
    (die : dieNo < c.geometry.userDies) (block : b < c.totalBlocksPerDie) :
    SameDie c d s (updateBlockState c b dieNo s) := by
  unfold updateBlockState
  split
  · refine SameDie.trans (t := if !marksClean c dieNo s then
      if s.blockChecker dieNo = false then { s with blockChecker := Function.update s.blockChecker dieNo true } else s
      else s) ?_ ?_
    · split
      · split
        · exact ⟨fun _ _ => rfl, rfl, rfl, rfl, rfl, rfl, rfl, Function.update_of_ne different .., id⟩
        · exact .refl s
      · exact .refl s
    · refine ⟨fun a own => ?_, Function.update_of_ne different .., rfl, rfl, rfl, rfl, rfl, rfl, id⟩
      refine Function.update_of_ne ?_ ..
      rintro rfl
      exact TableConfig.own_apart die exist different.symm (TableConfig.own_block block) own
  · exact .refl s

/-- The first page is asked for. -/
theorem checkFirstPage_scans (rest : AtQueue (AtRest c rawReadFails s₁ b) d s) :
    AtQueue (Scanning c rawReadFails s₁ b (fun _ => false) fun _ => some badBlockMarkPage0) d
      (checkFirstPage c b d s) := by
  obtain ⟨empty, ok⟩ := rest
  unfold AtQueue checkFirstPage
  rw [ok.state]
  split
  · rename_i none
    rw [readMarkPage_eq]
    refine ⟨⟨ok.flash, ok.state, fun exist => absurd none exist, ok.found⟩, fun exist => absurd none exist, ?_, nofun,
      fun _ p member => ?_⟩
    · simp
    · cases member
      exact ⟨by decide, .inl (by simp [empty])⟩
  · rename_i exist
    exact ⟨ok, fun _ => empty, fun none => absurd none exist, fun none => absurd none exist,
      fun none => absurd none exist⟩

/-- The last page is asked for if the first one is clean. -/
theorem checkLastPage_scans
    (rest : AtQueue (fun d queue s => queue = [] ∧
      Scanning c rawReadFails s₁ b (fun _ => false) (fun _ => some badBlockMarkPage0) d queue s) d s) :
    AtQueue (Scanning c rawReadFails s₁ b (fun d => !cleanPage rawReadFails s₁ d b badBlockMarkPage0)
      fun d => if cleanPage rawReadFails s₁ d b badBlockMarkPage0 then some badBlockMarkPage1 else none) d
      (checkLastPage c b d s) := by
  obtain ⟨empty, ok⟩ := rest
  unfold AtQueue checkLastPage
  rw [ok.scanned.state]
  split
  · rename_i none
    have marks : marksClean c d s = cleanPage rawReadFails s₁ d b badBlockMarkPage0 := by
      rcases (ok.reads none _ rfl).2 with pending | ⟨-, read⟩
      · rw [empty] at pending
        cases pending
      · exact read
    have known := ok.checker none
    have kept : BlocksScanned c rawReadFails s₁ b d s := ok.scanned
    rw [marks]
    cases clean : cleanPage rawReadFails s₁ d b badBlockMarkPage0 with
    | true =>
      simp only [↓reduceIte, readMarkPage_eq]
      refine ⟨⟨kept.flash, kept.state, fun exist => absurd none exist, kept.found⟩, fun exist => absurd none exist,
        fun _ => ?_, fun _ nowhere => ?_, fun _ p member => ?_⟩
      · simpa [clean] using known
      · simp [clean] at nowhere
      · simp only [clean, ↓reduceIte, Option.mem_some] at member
        subst member
        exact ⟨by decide, .inl (by simp [empty])⟩
    | false =>
      simp only [Bool.false_eq_true, ↓reduceIte]
      refine ⟨⟨kept.flash, kept.state, fun exist => absurd none exist, kept.found⟩, fun exist => absurd none exist,
        fun _ => ?_, fun _ _ => empty, fun _ p member => ?_⟩
      · simp [clean]
      · simp [clean] at member
  · rename_i exist
    exact ⟨ok.scanned, fun _ => empty, fun none => absurd none exist, fun none => absurd none exist,
      fun none => absurd none exist⟩

/-- The block is entered in the table and in the map. -/
theorem updateBlockState_scans (block : b < c.totalBlocksPerDie)
    (rest : AtQueue (fun d queue s => queue = [] ∧
      Scanning c rawReadFails s₁ b (fun d => !cleanPage rawReadFails s₁ d b badBlockMarkPage0)
        (fun d => if cleanPage rawReadFails s₁ d b badBlockMarkPage0 then some badBlockMarkPage1 else none) d queue s)
      d s) :
    AtQueue (AtRest c rawReadFails s₁ (b + 1)) d (updateBlockState c b d s) := by
  obtain ⟨empty, ok⟩ := rest
  unfold AtQueue updateBlockState
  rw [ok.scanned.state]
  split
  · rename_i none
    have known := ok.checker none
    have decided : (s.blockChecker d || !marksClean c d s) = isBadBlock rawReadFails s₁ d b := by
      rw [known, isBadBlock]
      cases clean : cleanPage rawReadFails s₁ d b badBlockMarkPage0 with
      | true =>
        rcases (ok.reads none badBlockMarkPage1 (by simp [clean])).2 with pending | ⟨-, read⟩
        · rw [empty] at pending
          cases pending
        · simp [read]
      | false => simp
    have checker : (if (!marksClean c d s) = true then
        if s.blockChecker d = false then { s with blockChecker := Function.update s.blockChecker d true } else s
        else s) = { s with blockChecker := Function.update s.blockChecker d (isBadBlock rawReadFails s₁ d b) } := by
      have same : Function.update s.blockChecker d (s.blockChecker d) = s.blockChecker := Function.update_eq_self ..
      rw [← decided]
      cases marksClean c d s <;> cases before : s.blockChecker d <;> rw [before] at same <;> simp [same]
    simp only [checker, Function.update_self]
    refine ⟨empty, ok.scanned.flash, ok.scanned.state, fun exist => absurd none exist, fun _ b' low => ?_⟩
    by_cases here : b' = b
    · subst here
      simp
    · have other : c.tempBbtBufAddr d + b' ≠ c.tempBbtBufAddr d + b := by omega
      simp only [Function.update_self, Function.update_of_ne here, Function.update_of_ne other]
      exact ok.scanned.found none b' (by omega)
  · rename_i exist
    exact ⟨empty, ok.scanned.flash, ok.scanned.state, ok.scanned.kept, fun none => absurd none exist⟩

/-- The search leaves the tables of the other dies alone, and finds for every block of a die
without a table whether it is bad. -/
theorem findBadBlock_triple (decode : FailuresDecode c rawReadFails) :
    TableTriple c rawReadFails (EachDie c (AtRest c rawReadFails s₁ 0)) (findBadBlock c)
      (EachDie c (AtRest c rawReadFails s₁ c.totalBlocksPerDie)) := by
  refine .forRange (fun b => EachDie c (AtRest c rawReadFails s₁ b)) (atRest_serves (Nat.zero_le _)).local.stable
    fun b block => ?_
  have rest : Serves c rawReadFails (AtRest c rawReadFails s₁ b) := atRest_serves block.le
  have next : Serves c rawReadFails (AtRest c rawReadFails s₁ (b + 1)) := atRest_serves block
  have first := @scanning_serves c rawReadFails s₁ b (fun _ => false) (fun _ => some badBlockMarkPage0) block decode
  have last := @scanning_serves c rawReadFails s₁ b (fun d => !cleanPage rawReadFails s₁ d b badBlockMarkPage0)
    (fun d => if cleanPage rawReadFails s₁ d b badBlockMarkPage0 then some badBlockMarkPage1 else none) block decode
  refine .seq rest.local.stable (.seq rest.local.stable (.seq rest.local.stable (.seq rest.local.stable
    (forDies_triple rest first (fun d _ s => checkFirstPage_scans) fun _ _ _ _ different _ =>
      checkFirstPage_others different)
    (sync_triple first))
    (forDies_triple first.quiet last (fun d _ s => checkLastPage_scans) fun _ _ _ _ different _ =>
      checkLastPage_others different))
    (sync_triple last))
    (forDies_triple last.quiet next (fun d _ s => updateBlockState_scans block) fun _ _ _ exist different die =>
      updateBlockState_others different exist die block)

end OcpFw
