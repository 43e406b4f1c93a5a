import OcpFw.BlockLifecycle
import OcpFw.BufferSteps
import OcpFw.FlashFirmware
import OcpFw.TableSave

/-! The ERASEs of the firmware: those of `EraseBlock`, which the collector runs, of
`EraseTotalBlockSpace` and `EraseUserBlockSpace`, and of `SaveBadBlockTable`. All of them
address the first page of their block. -/
namespace OcpFw
open AsyncPrograms (Prog Triple Stable StepOfAny)
open Runs (Run)

/-- The loops of `EraseTotalBlockSpace`. -/
def eraseTotalBlockSpace (c : FlashConfig) : List FlashRequest :=
  (List.range c.totalBlocksPerDie).flatMap fun blockNo =>
    (List.range c.geometry.userDies).map fun dieNo => {
      req := {
        reqType := .nand
        reqCode := .erase
        nandAddr := .phyOrg
        dataBufFormat := .none
        rowAddrDependencyCheck := false
        physicalCh := vdie2PchTranslation c.geometry dieNo
        physicalWay := vdie2PwayTranslation c.geometry dieNo }
      row := { blockSpace := .total, physicalBlock := blockNo, physicalPage := 0 } }

/-- The loops of `EraseUserBlockSpace`. -/
def eraseUserBlockSpace (c : FlashConfig) (die : Nat → VirtualDie) : List FlashRequest :=
  (List.range c.userBlocksPerDie).flatMap fun blockNo =>
    ((List.range c.geometry.userDies).filter fun dieNo => !((die dieNo).block blockNo).bad).map fun dieNo => {
      req := {
        reqType := .nand
        reqCode := .erase
        nandAddr := .vsa
        dataBufFormat := .none
        rowAddrDependencyCheck := false
        virtualSliceAddr := vorg2VsaTranslation c.geometry dieNo blockNo 0 }
      row := { blockSpace := .main } }

/-- A request for the table as the scheduler finds it. -/
def TableReq.flashRequest (req : TableReq) : FlashRequest where
  req :=
    { reqType := .nand
      reqCode :=
        match req.reqCode with
        | .read => .read
        | .write => .write
        | .erase => .erase
      nandAddr := .phyOrg
      dataBufFormat := if req.dataBufAddr.isSome then .addr else .none
      dataBufInfo := req.dataBufAddr.getD 0
      nandEcc := req.nandEcc
      rowAddrDependencyCheck := false
      physicalCh := req.physicalCh
      physicalWay := req.physicalWay }
  row := { blockSpace := .total, physicalBlock := req.physicalBlock, physicalPage := req.physicalPage }

/-- The page a request addresses. -/
def FlashRequest.pageNo (g : Geometry) (r : FlashRequest) : Nat :=
  match r.req.nandAddr with
  | .vsa => vsa2VpageTranslation g r.req.virtualSliceAddr
  | .phyOrg => r.row.physicalPage

/-- The requests a function of the firmware erases with: the collector after any writes, the
two functions that erase all blocks, and those that save tables. -/
inductive FirmwareErase (c : FlashConfig) : FlashRequest → Prop where
  | eraseBlock (run : Run (writeStep c.geometry) (fun _ _ => True) (initFtl c.geometry bad) writes s)
      (issued : FlashReq.erase vsa programmedPageCnt ∈ s.requests) :
      FirmwareErase c (FlashReq.erase vsa programmedPageCnt).flashRequest
  | eraseTotalBlockSpace (member : r ∈ eraseTotalBlockSpace c) : FirmwareErase c r
  | eraseUserBlockSpace (member : r ∈ eraseUserBlockSpace c die) : FirmwareErase c r
  | saveBadBlockTable (program : p = recoverBadBlockTable k ∨ p = updateBadBlockTableForGrownBadBlock k)
      (start : ∀ dieNo, s.issued dieNo = []) (run : TableRuns k rawReadFails p s t)
      (issued : req ∈ t.issued dieNo) (code : req.reqCode = .erase) : FirmwareErase c req.flashRequest

/-! ### The mapping layer -/

/-- The ERASEs among some requests address first pages. -/
def ErasesFirstPages (g : Geometry) (requests : List FlashReq) : Prop :=
  ∀ vsa programmedPageCnt, .erase vsa programmedPageCnt ∈ requests → vsa2VpageTranslation g vsa = 0

/-- The die to write to next stays, and nothing but such ERASEs is issued. -/
structure IssuesOnly (g : Geometry) (s t : Ftl) : Prop where
  targetCh : t.targetCh = s.targetCh
  targetWay : t.targetWay = s.targetWay
  targetDie : t.sliceAllocationTargetDie = s.sliceAllocationTargetDie
  requests : ErasesFirstPages g s.requests → ErasesFirstPages g t.requests

/-- The die to write to next exists. -/
structure TargetsOk (g : Geometry) (s : Ftl) : Prop where
  ch : s.targetCh < g.userChannels
  way : s.targetWay < g.userWays
  die : s.sliceAllocationTargetDie < g.userDies
  erases : ErasesFirstPages g s.requests

variable {g : Geometry} {s t u : Ftl} {lsa dieNo blockNo : Nat}

namespace IssuesOnly

theorem refl : IssuesOnly g s s := ⟨rfl, rfl, rfl, id⟩

theorem trans (first : IssuesOnly g s t) (second : IssuesOnly g t u) : IssuesOnly g s u where
  targetCh := second.targetCh.trans first.targetCh
  targetWay := second.targetWay.trans first.targetWay
  targetDie := second.targetDie.trans first.targetDie
  requests := second.requests ∘ first.requests

/-- Changes of the maps issue nothing. -/
theorem of_maps (ch : t.targetCh = s.targetCh) (way : t.targetWay = s.targetWay)
    (die : t.sliceAllocationTargetDie = s.sliceAllocationTargetDie) (requests : t.requests = s.requests) :
    IssuesOnly g s t :=
  ⟨ch, way, die, fun ok => requests ▸ ok⟩

/-- Nor do copies issue an ERASE. -/
theorem issue {req : FlashReq} (fine : ∀ vsa n, req = .erase vsa n → vsa2VpageTranslation g vsa = 0) :
    IssuesOnly g s (s.issue req) where
  targetCh := rfl
  targetWay := rfl
  targetDie := rfl
  requests ok vsa n member := by
    rcases List.mem_append.mp member with before | new
    · exact ok vsa n before
    · exact fine vsa n (List.mem_singleton.mp new).symm

theorem invalidate : IssuesOnly g s (invalidateOldVsa g s lsa) := by
  simp only [invalidateOldVsa]
  split
  · split
    · exact .refl
    · exact .of_maps rfl rfl rfl rfl
  · exact .refl

private theorem roomInBlock {b : Nat}
    (done : (let currentBlock := (s.die dieNo).currentBlock
      if s.currentPage dieNo currentBlock = g.userPagesPerBlock then
        let (freeBlock, s) := s.getFromFbList dieNo .gc
        if freeBlock ≠ blockFail then some (freeBlock, s.setCurrentBlock dieNo freeBlock) else none
      else if s.currentPage dieNo currentBlock > g.userPagesPerBlock then none
      else some (currentBlock, s)) = some (b, t)) : IssuesOnly g s t := by
  simp only at done
  split at done
  · split at done
    · cases done
      exact .of_maps rfl rfl rfl rfl
    · cases done
  · split at done
    · cases done
    · cases done
      exact .refl

theorem copyTargetBlock {victimBlockNo b : Nat} (done : copyTargetBlock g s dieNo victimBlockNo = some (b, t)) :
    IssuesOnly g s t := by
  unfold OcpFw.copyTargetBlock at done
  split at done
  · simp only at done
    split at done
    · cases done
    · have switched : IssuesOnly g s ((s.getFromFbList dieNo .gc).2.setCurrentBlock dieNo
          (s.getFromFbList dieNo .gc).1) := .of_maps rfl rfl rfl rfl
      exact switched.trans (roomInBlock done)
  · exact roomInBlock done

theorem gcCopyPage {victimBlockNo pageNo : Nat} (done : gcCopyPage g s dieNo victimBlockNo pageNo = some t) :
    IssuesOnly g s t := by
  simp only [OcpFw.gcCopyPage, findFreeVirtualSliceForGc] at done
  split at done
  · split at done
    · simp only [Option.bind_eq_bind, Option.bind_eq_some_iff, Option.some.injEq, Prod.exists] at done
      obtain ⟨vsa, u, ⟨b, v, taken, rest⟩, rfl⟩ := done
      have read : IssuesOnly g s (s.issue (.read (vorg2VsaTranslation g dieNo victimBlockNo pageNo) dieNo)) :=
        .issue fun _ _ => FlashReq.noConfusion
      refine (read.trans (copyTargetBlock taken)).trans ?_
      cases rest
      set newSliceAddr := (takePage g v dieNo b).1
      set lsa := s.virtualSlice (vorg2VsaTranslation g dieNo victimBlockNo pageNo)
      have mapped : IssuesOnly g v (mapSlice (takePage g v dieNo b).2 lsa newSliceAddr) := .of_maps rfl rfl rfl rfl
      exact mapped.trans (.issue fun _ _ => FlashReq.noConfusion)
    · cases done
      exact .refl
  · cases done
    exact .refl

theorem gcCopyPages {victimBlockNo pages : Nat} (done : gcCopyPages g s dieNo victimBlockNo pages = some t) :
    IssuesOnly g s t := by
  induction pages generalizing t with
  | zero =>
    cases done
    exact .refl
  | succ pages ih =>
    simp only [OcpFw.gcCopyPages, Option.bind_eq_bind, Option.bind_eq_some_iff] at done
    obtain ⟨u, before, last⟩ := done
    exact (ih before).trans (gcCopyPage last)

/-- `EraseBlock` addresses the first page. -/
theorem eraseBlock (die : dieNo < g.userDies) : IssuesOnly g s (eraseBlock g s dieNo blockNo) := by
  have first : IssuesOnly g s
      (s.issue (.erase (vorg2VsaTranslation g dieNo blockNo 0) (s.currentPage dieNo blockNo))) := by
    refine .issue ?_
    rintro vsa n ⟨⟩
    exact vpage_of_vorg die g.pages_pos
  exact first.trans (.of_maps rfl rfl rfl rfl)

theorem garbageCollection (die : dieNo < g.userDies) (done : garbageCollection g s dieNo = some t) :
    IssuesOnly g s t := by
  simp only [OcpFw.garbageCollection, Option.bind_eq_bind, Option.bind_eq_some_iff, Prod.exists] at done
  obtain ⟨victimBlockNo, d, -, done⟩ := done
  have found : IssuesOnly g s (s.setDie dieNo d) := .of_maps rfl rfl rfl rfl
  refine found.trans ?_
  split at done
  · simp only [Option.bind_eq_some_iff, Option.some.injEq] at done
    obtain ⟨u, copied, rfl⟩ := done
    exact (gcCopyPages copied).trans (eraseBlock die)
  · cases done
    exact eraseBlock die

theorem allocationBlock {b : Nat} (die : dieNo < g.userDies) (done : allocationBlock g s dieNo = some (b, t)) :
    IssuesOnly g s t := by
  simp only [OcpFw.allocationBlock] at done
  split at done
  · split at done
    · cases done
      exact .of_maps rfl rfl rfl rfl
    · simp only [Option.bind_eq_bind, Option.bind_eq_some_iff] at done
      obtain ⟨u, collected, done⟩ := done
      have switched : IssuesOnly g s (s.getFromFbList dieNo .normal).2 := .of_maps rfl rfl rfl rfl
      refine (switched.trans (garbageCollection die collected)).trans ?_
      split at done
      · split at done
        · cases done
          exact .of_maps rfl rfl rfl rfl
        · cases done
      · split at done
        · cases done
        · cases done
          exact .refl
  · split at done
    · cases done
    · cases done
      exact .refl

end IssuesOnly

/-- A way has a die. -/
theorem pcw2Vdie_lt {chNo wayNo : Nat} (exist : chNo < g.userChannels ∧ wayNo < g.userWays) :
    pcw2VdieTranslation g chNo wayNo < g.userDies := by
  have rows : (wayNo + 1) * g.userChannels ≤ g.userWays * g.userChannels := Nat.mul_le_mul_right _ exist.2
  rw [Nat.succ_mul] at rows
  rw [Geometry.userDies, Nat.mul_comm]
  unfold pcw2VdieTranslation
  omega

namespace TargetsOk

/-- The static channel and way go round. -/
theorem next (ok : TargetsOk g s) :
    (findDieForFreeSliceAllocation g s).1 < g.userDies ∧
      (findDieForFreeSliceAllocation g s).2.targetCh < g.userChannels ∧
      (findDieForFreeSliceAllocation g s).2.targetWay < g.userWays ∧
      (findDieForFreeSliceAllocation g s).2.requests = s.requests := by
  obtain ⟨ch, way, -, -⟩ := ok
  have die : pcw2VdieTranslation g s.targetCh s.targetWay < g.userDies := pcw2Vdie_lt ⟨ch, way⟩
  unfold findDieForFreeSliceAllocation
  split
  · exact ⟨die, by simp only; omega, way, rfl⟩
  · exact ⟨die, g.channels_pos, Nat.mod_lt _ g.ways_pos, rfl⟩

theorem addrTransWrite {vsa : Nat} (ok : TargetsOk g s) (done : addrTransWrite g s lsa = some (vsa, t)) :
    TargetsOk g t := by
  simp only [OcpFw.addrTransWrite] at done
  split at done
  · simp only [findFreeVirtualSlice, Option.bind_eq_bind, Option.bind_eq_some_iff, Option.some.injEq, Prod.exists,
      Prod.mk.injEq] at done
    obtain ⟨_, u, ⟨b, v, allocated, -, rfl⟩, -, rfl⟩ := done
    have target : (invalidateOldVsa g s lsa).sliceAllocationTargetDie < g.userDies :=
      lt_of_eq_of_lt IssuesOnly.invalidate.targetDie ok.die
    have issues : IssuesOnly g s (takePage g v (invalidateOldVsa g s lsa).sliceAllocationTargetDie b).2 :=
      (IssuesOnly.invalidate.trans (.allocationBlock target allocated)).trans (.of_maps rfl rfl rfl rfl)
    have before : TargetsOk g (takePage g v (invalidateOldVsa g s lsa).sliceAllocationTargetDie b).2 :=
      ⟨issues.targetCh ▸ ok.ch, issues.targetWay ▸ ok.way, issues.targetDie ▸ ok.die, issues.requests ok.erases⟩
    obtain ⟨die, ch, way, requests⟩ := before.next
    refine ⟨ch, way, die, fun vsa n member => before.erases vsa n ?_⟩
    rw [← requests]
    exact member
  · cases done

theorem init {bad : Nat → Nat → Bool} : TargetsOk g (initFtl g bad) := by
  have start : TargetsOk g { die := fun dieNo => initDie g (bad dieNo) } :=
    ⟨g.channels_pos, g.ways_pos, g.dies_pos, by simp [ErasesFirstPages]⟩
  obtain ⟨die, ch, way, requests⟩ := start.next
  refine ⟨ch, way, die, fun vsa n member => ?_⟩
  change _ ∈ (findDieForFreeSliceAllocation g { die := fun dieNo => initDie g (bad dieNo) }).2.requests at member
  rw [requests] at member
  cases member

theorem of_run {bad : Nat → Nat → Bool} {writes : List Nat}
    (run : Run (writeStep g) (fun _ _ => True) (initFtl g bad) writes s) : TargetsOk g s := by
  apply run.invariant (TargetsOk g) .init
  intro s lsa t ok _ step
  simp only [writeStep, Option.map_eq_some_iff, Prod.exists] at step
  obtain ⟨vsa, _, done, rfl⟩ := step
  exact ok.addrTransWrite done

end TargetsOk

/-! ### The buffer manager -/

/-- A slice may cost a write of the mapping layer, and submits no ERASE itself. -/
structure WritesOnce {F : Type} (M : SliceMap F) (m m' : BufferManager F) : Prop where
  map : m'.map = m.map ∨ ∃ lsa vsa, M.addrTransWrite m.map lsa = some (vsa, m'.map)
  submitted : ∃ reqs, m'.submitted = m.submitted ++ reqs ∧ ∀ r ∈ reqs, r.req.reqCode ≠ .erase

namespace WritesOnce

variable {F : Type} {M : SliceMap F} {m m' m'' : BufferManager F} {slice : SliceReq} {origin : SsdReq}

/-- What follows a write back leaves the map alone. -/
theorem trans (first : WritesOnce M m m') (map : m''.map = m'.map)
    (next : ∃ reqs, m''.submitted = m'.submitted ++ reqs ∧ ∀ r ∈ reqs, r.req.reqCode ≠ .erase) :
    WritesOnce M m m'' := by
  obtain ⟨before, submitted, fine⟩ := first.submitted
  obtain ⟨after, submitted', fine'⟩ := next
  refine ⟨by rw [map]; exact first.map, before ++ after, by rw [submitted', submitted, List.append_assoc], ?_⟩
  intro r member
  rcases List.mem_append.mp member with member | member
  · exact fine r member
  · exact fine' r member

theorem evictDataBufEntry (done : m.evictDataBufEntry M origin = some m') : WritesOnce M m m' := by
  obtain ⟨evict, evicts, -, -, submitted⟩ := BufferManager.evictDataBufEntry_evicts done
  generalize after : m'.map = map at evicts
  cases evicts with
  | clean => exact ⟨.inl after, [], by simpa using submitted, by simp⟩
  | dirty isDirty written =>
    refine ⟨.inr ⟨_, _, after.symm ▸ written⟩, _, submitted, ?_⟩
    simp [BufferManager.evictReq]

theorem fillDataBufEntry (done : m.fillDataBufEntry M slice origin = some m') :
    m'.map = m.map ∧ ∃ reqs, m'.submitted = m.submitted ++ reqs ∧ ∀ r ∈ reqs, r.req.reqCode ≠ .erase := by
  have read : m.dataReadFromNand M origin = some m' →
      m'.map = m.map ∧ ∃ reqs, m'.submitted = m.submitted ++ reqs ∧ ∀ r ∈ reqs, r.req.reqCode ≠ .erase := by
    intro done
    simp only [BufferManager.dataReadFromNand, Option.bind_eq_bind, Option.bind_eq_some_iff] at done
    obtain ⟨vsa, -, done⟩ := done
    split at done <;> cases done
    · exact ⟨rfl, [_], rfl, by simp⟩
    · exact ⟨rfl, [], by simp, by simp⟩
  unfold BufferManager.fillDataBufEntry at done
  split at done
  · exact read done
  · split at done
    · exact read done
    · cases done
      exact ⟨rfl, [], by simp, by simp⟩

theorem reqTransSliceToLowLevel (done : m.reqTransSliceToLowLevel g M slice = some m') : WritesOnce M m m' := by
  have transfer : ∀ (n : BufferManager F) dataBufEntry, WritesOnce M m n →
      ((slice.dmaReq {} dataBufEntry).bind fun req =>
        let n := (n.markDirty slice dataBufEntry).submit req
        some { n with slices := n.slices ++ [slice] }) = some m' → WritesOnce M m m' := by
    intro n dataBufEntry before done
    simp only [Option.bind_eq_some_iff, Option.some.injEq] at done
    obtain ⟨req, made, rfl⟩ := done
    obtain ⟨-, -, map, slices, submitted, -⟩ := BufferManager.markDirty_spec (g := g) slice n dataBufEntry
    refine before.trans map ⟨[⟨req, n.slices.length⟩], ?_, ?_⟩
    · simp only [BufferManager.submit, submitted, slices]
    · rcases BufferManager.code_of_dmaReq made with code | code <;>
        · simp only [SliceReq.dmaReq, SliceReq.dmaCode, code, Option.bind_eq_bind, Option.bind_some,
            Option.some.injEq] at made
          simp [← made]
  simp only [BufferManager.reqTransSliceToLowLevel, Option.bind_eq_bind] at done
  split at done
  · rename_i dataBufEntry buf _
    exact transfer (m.setBuf buf) dataBufEntry ⟨.inl rfl, [], (List.append_nil _).symm, by simp⟩ done
  · simp only [Option.bind_eq_some_iff, Prod.exists] at done
    obtain ⟨dataBufEntry, n, missed, done⟩ := done
    refine transfer n dataBufEntry ?_ (Option.bind_eq_some_iff.mpr done)
    simp only [BufferManager.missDataBuf, Option.bind_eq_bind, Option.bind_eq_some_iff, Option.some.injEq,
      Prod.exists, Prod.mk.injEq] at missed
    obtain ⟨e, buf, -, u, evicted, v, filled, -, rfl⟩ := missed
    obtain ⟨map, submitted⟩ := fillDataBufEntry filled
    have evicts : WritesOnce M m u := ⟨(evictDataBufEntry evicted).map, (evictDataBufEntry evicted).submitted⟩
    exact evicts.trans map submitted

end WritesOnce

/-! ### The tables -/

/-- The ERASEs that were ever put in a queue address first pages. -/
def TableErasesFirstPages (s : TableState) : Prop :=
  ∀ dieNo, ∀ req ∈ s.issued dieNo, req.reqCode = .erase → req.physicalPage = 0

variable {c : TableConfig} {rawReadFails : Nat → Nat → Nat → Bool}

theorem TableErasesFirstPages.stable :
    Stable (StepOfAny (TableDieStep c rawReadFails) c.geometry.userDies) TableErasesFirstPages := by
  rintro s t ⟨dieNo, -, moves⟩ ok
  have same : t.issued = s.issued := by
    cases moves with
    | complete first fine =>
      unfold TableState.complete
      split
      · split <;> rfl
      · rfl
      · rfl
    | fail => rfl
  unfold TableErasesFirstPages
  rwa [same]

/-- A request is put in a queue. -/
theorem TableErasesFirstPages.select {s : TableState} {req : TableReq} (ok : TableErasesFirstPages s)
    (first : req.reqCode = .erase → req.physicalPage = 0) : TableErasesFirstPages (s.selectLowLevelReqQ c req) := by
  intro dieNo req' member
  simp only [TableState.selectLowLevelReqQ] at member
  by_cases here : dieNo = pcw2VdieTranslation c.geometry req.physicalCh req.physicalWay
  · rw [here, Function.update_self, List.mem_append, List.mem_singleton] at member
    rcases member with before | rfl
    · exact ok _ req' before
    · exact first
  · rw [Function.update_of_ne here] at member
    exact ok dieNo req' member

theorem forDies_keeps {P : TableState → Prop} {body : Nat → TableState → TableState}
    (each : ∀ dieNo s, P s → P (body dieNo s)) : (forDies c body).Keeps P :=
  @Prog.Keeps.forRange _ P (fun dieNo => .act (body dieNo)) each _

theorem saveTablePage_keeps {tempPage loop dieNo : Nat} {s : TableState} (ok : TableErasesFirstPages s) :
    TableErasesFirstPages (saveTablePage c tempPage loop dieNo s) := by
  unfold saveTablePage
  split
  · refine TableErasesFirstPages.select ?_ (by simp)
    split
    · exact ok.select fun _ => rfl
    · exact ok
  · exact ok

theorem saveBadBlockTable_keeps : (saveBadBlockTable c).Keeps TableErasesFirstPages := by
  have pages : ∀ (dataSize : Int) (tempPage loop : Nat),
      (saveTablePages c dataSize tempPage loop).Keeps TableErasesFirstPages := by
    intro dataSize tempPage loop
    induction dataSize, loop using saveTablePages.induct with
    | case1 dataSize loop positive ih =>
      rw [saveTablePages, if_pos positive]
      exact ⟨forDies_keeps fun dieNo s ok => saveTablePage_keeps ok, ih⟩
    | case2 dataSize loop done =>
      rw [saveTablePages, if_neg done]
      exact fun s ok => ok
  exact ⟨pages _ _ _, trivial⟩

/-- The two functions that save tables. -/
theorem updateBadBlockTable_keeps : (updateBadBlockTableForGrownBadBlock c).Keeps TableErasesFirstPages := by
  refine ⟨forDies_keeps fun dieNo s ok => ?_, saveBadBlockTable_keeps⟩
  unfold makeTable
  split <;> exact ok

theorem recoverBadBlockTable_keeps : (recoverBadBlockTable c).Keeps TableErasesFirstPages := by
  have reads : ∀ (dataSize : Int) (tempPage loop : Nat),
      (readTablePages c dataSize tempPage loop).Keeps TableErasesFirstPages := by
    intro dataSize tempPage loop
    induction dataSize, tempPage, loop using readTablePages.induct with
    | case1 dataSize tempPage loop positive ih =>
      rw [readTablePages, if_pos positive]
      exact ⟨forDies_keeps fun dieNo s ok => ok.select (by simp), ih⟩
    | case2 dataSize tempPage loop done =>
      rw [readTablePages, if_neg done]
      exact fun s ok => ok
  have marks : ∀ phyBlockNo pageNo dieNo s, TableErasesFirstPages s →
      TableErasesFirstPages (readMarkPage c phyBlockNo pageNo dieNo s) := fun _ _ _ _ ok => ok.select (by simp)
  have firsts : ∀ phyBlockNo, (forDies c (checkFirstPage c phyBlockNo)).Keeps TableErasesFirstPages := by
    refine fun phyBlockNo => forDies_keeps fun dieNo s ok => ?_
    unfold checkFirstPage
    split
    · exact marks _ _ _ { s with blockChecker := Function.update s.blockChecker dieNo false } ok
    · exact ok
  have lasts : ∀ phyBlockNo, (forDies c (checkLastPage c phyBlockNo)).Keeps TableErasesFirstPages := by
    refine fun phyBlockNo => forDies_keeps fun dieNo s ok => ?_
    unfold checkLastPage
    split
    · split
      · exact marks _ _ _ _ ok
      · exact ok
    · exact ok
  have states : ∀ phyBlockNo, (forDies c (updateBlockState c phyBlockNo)).Keeps TableErasesFirstPages := by
    refine fun phyBlockNo => forDies_keeps fun dieNo s ok => ?_
    simp only [updateBlockState]
    split
    · split
      · split <;> exact ok
      · exact ok
    · exact ok
  have find : (findBadBlock c).Keeps TableErasesFirstPages :=
    @Prog.Keeps.forRange _ TableErasesFirstPages (fun phyBlockNo =>
      .seq (.seq (.seq (.seq (forDies c (checkFirstPage c phyBlockNo)) .sync)
        (forDies c (checkLastPage c phyBlockNo))) .sync)
        (forDies c (updateBlockState c phyBlockNo)))
      (fun phyBlockNo => ⟨⟨⟨⟨firsts _, trivial⟩, lasts _⟩, trivial⟩, states _⟩) _
  have check : (forDies c (checkTable c)).Keeps TableErasesFirstPages := by
    refine forDies_keeps fun dieNo s ok => ?_
    simp only [checkTable]
    split <;> exact ok
  exact ⟨⟨⟨⟨⟨reads _ _ _, trivial⟩, fun s ok => ok⟩, check⟩, ⟨find, saveBadBlockTable_keeps⟩, trivial⟩,
    forDies_keeps fun _ _ ok => ok⟩

/-! ### All of them -/

/-- They address the first pages of blocks. -/
theorem FirmwareErase.firstPage {c : FlashConfig} {r : FlashRequest} (erase : FirmwareErase c r) :
    r.pageNo c.geometry = 0 := by
  cases erase with
  | eraseBlock run issued => exact (TargetsOk.of_run run).erases _ _ issued
  | eraseTotalBlockSpace member =>
    simp only [OcpFw.eraseTotalBlockSpace, List.mem_flatMap, List.mem_map] at member
    obtain ⟨blockNo, -, dieNo, -, rfl⟩ := member
    rfl
  | eraseUserBlockSpace member =>
    simp only [OcpFw.eraseUserBlockSpace, List.mem_flatMap, List.mem_map, List.mem_filter, List.mem_range] at member
    obtain ⟨blockNo, -, dieNo, ⟨die, -⟩, rfl⟩ := member
    exact vpage_of_vorg die c.geometry.pages_pos
  | saveBadBlockTable program start run issued code =>
    rename_i p k rawReadFails s t dieNo req
    have keeps : p.Keeps TableErasesFirstPages := by
      rcases program with rfl | rfl
      · exact recoverBadBlockTable_keeps
      · exact updateBadBlockTable_keeps
    have before : TableErasesFirstPages s := fun dieNo req member => by simp [start dieNo] at member
    exact Triple.invariant TableErasesFirstPages.stable keeps s t run before dieNo req issued code

/-! ### Slices -/

/-- The maps of a manager are those after some writes. -/
def WrittenMaps (g : Geometry) (bad : Nat → Nat → Bool) (m : BufferManager Ftl) : Prop :=
  ∃ writes, Run (writeStep g) (fun _ _ => True) (initFtl g bad) writes m.map

/-- The ERASEs a slice costs are those of `EraseBlock`. -/
theorem WrittenMaps.translateSlice {c : FlashConfig} {bad : Nat → Nat → Bool}
    {m m' : BufferManager Ftl} {slice : SliceReq} {requests : List FlashRequest}
    (written : WrittenMaps c.geometry bad m) (done : translateSlice c.geometry m slice = some (m', requests)) :
    WrittenMaps c.geometry bad m' ∧ ∀ r ∈ requests, r.req.reqCode = .erase → FirmwareErase c r := by
  simp only [OcpFw.translateSlice, Option.bind_eq_bind, Option.bind_eq_some_iff, Option.some.injEq,
    Prod.mk.injEq] at done
  obtain ⟨n, consumed, rfl, rfl⟩ := done
  obtain ⟨map, reqs, submitted, fine⟩ := WritesOnce.reqTransSliceToLowLevel consumed
  have written' : WrittenMaps c.geometry bad n := by
    obtain ⟨writes, run⟩ := written
    rcases map with same | ⟨lsa, vsa, wrote⟩
    · exact ⟨writes, same ▸ run⟩
    · refine ⟨writes ++ [lsa], run.snoc trivial ?_⟩
      have result : addrTransWrite c.geometry m.map lsa = some (vsa, n.map) := wrote
      simp only [writeStep, result, Option.map_some]
  refine ⟨written', fun r member code => ?_⟩
  obtain ⟨writes, run⟩ := written'
  rcases List.mem_append.mp member with copy | own
  · obtain ⟨req, issued, rfl⟩ := List.mem_map.mp copy
    have issued := List.mem_of_mem_drop issued
    cases req with
    | read => cases code
    | write => cases code
    | erase => exact .eraseBlock run issued
  · rw [submitted, List.drop_left] at own
    obtain ⟨r, new, rfl⟩ := List.mem_map.mp own
    exact absurd code (fine r new)

end OcpFw
