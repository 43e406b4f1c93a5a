import OcpFw.BlockLifecycle

/-! What a collection does to every slice. The copy loop writes both maps while it reads
them; seen from its start, the pages it went through are moved in their order and nothing
else is, whatever block the copies go to. -/
namespace OcpFw
open Runs (Run exec run_of_exec_any)

/-- The pages below `pages` of a block that hold a slice. -/
def livePages (g : Geometry) (s : Ftl) (dieNo blockNo pages : Nat) : List Nat :=
  (List.range pages).filter fun p => ¬ Unmapped g s (vorg2VsaTranslation g dieNo blockNo p)

/-- For each page the READ of it and the WRITE to where its slice is at the end, both through
the temporary buffer entry of the die. -/
def copyRequests (g : Geometry) (s t : Ftl) (dieNo blockNo : Nat) (pages : List Nat) : List FlashReq :=
  pages.flatMap fun p =>
    let virtualSliceAddr := vorg2VsaTranslation g dieNo blockNo p
    [.read virtualSliceAddr dieNo, .write (t.logicalSlice (s.virtualSlice virtualSliceAddr)) dieNo]

/-- The slice was in block `v` and is now in a page of another block of the die that was not
programmed before. -/
def Relocated (g : Geometry) (s t : Ftl) (dieNo v lsa : Nat) : Prop :=
  ∃ b q, b ≠ v ∧ (s.die dieNo).Usable g b ∧ s.currentPage dieNo b ≤ q ∧ q < g.slicesPerBlock ∧
    t.logicalSlice lsa = vorg2VsaTranslation g dieNo b q

/-- The copy loop went through the first `n` pages of block `v`. -/
structure CopiedPages (g : Geometry) (s t : Ftl) (dieNo v n : Nat) : Prop where
  kept : ∀ lsa, (∀ p < n, s.logicalSlice lsa ≠ vorg2VsaTranslation g dieNo v p) →
    t.logicalSlice lsa = s.logicalSlice lsa
  moved : ∀ lsa, ∀ p < n, s.logicalSlice lsa = vorg2VsaTranslation g dieNo v p → Relocated g s t dieNo v lsa
  pages : ∀ b, s.currentPage dieNo b ≤ t.currentPage dieNo b
  victim : t.currentPage dieNo v = s.currentPage dieNo v
  bad : ∀ b, ((t.die dieNo).block b).bad = ((s.die dieNo).block b).bad
  requests : t.requests = s.requests ++ copyRequests g s t dieNo v (livePages g s dieNo v n)

variable {g : Geometry} {s t u : Ftl} {dieNo b v lsa n : Nat} {popped : Nat → Option Nat}
  {lists lists' : Nat → BlockList → List Nat}

/-! ### The copy loop -/

theorem CopiedPages.start : CopiedPages g s s dieNo v 0 where
  kept _ _ := rfl
  moved _ p low := absurd low (Nat.not_lt_zero p)
  pages _ := le_rfl
  victim := rfl
  bad _ := rfl
  requests := by simp [livePages, copyRequests]

/-- A page that is still to come holds what it held at the start. -/
theorem CopiedPages.ahead (copied : CopiedPages g s t dieNo v n) (die : dieNo < g.userDies)
    (low : n < g.slicesPerBlock) :
    t.logicalSlice lsa = vorg2VsaTranslation g dieNo v n ↔ s.logicalSlice lsa = vorg2VsaTranslation g dieNo v n := by
  by_cases before : ∃ p < n, s.logicalSlice lsa = vorg2VsaTranslation g dieNo v p
  · obtain ⟨p, behind, source⟩ := before
    obtain ⟨b, q, other, -, -, room, target⟩ := copied.moved lsa p behind source
    rw [source, target]
    constructor
    · exact fun same => absurd (vorg_inj die room die low same).2.1 other
    · intro same
      have page := (vorg_inj die (behind.trans low) die low same).2.2
      omega
  · push Not at before
    rw [copied.kept lsa before]

theorem CopiedPages.unmapped (copied : CopiedPages g s t dieNo v n) (die : dieNo < g.userDies)
    (low : n < g.slicesPerBlock) :
    Unmapped g t (vorg2VsaTranslation g dieNo v n) ↔ Unmapped g s (vorg2VsaTranslation g dieNo v n) := by
  unfold Unmapped
  simp only [ne_eq, copied.ahead die low]

theorem livePages_succ : livePages g s dieNo v (n + 1) = livePages g s dieNo v n ++
    if Unmapped g s (vorg2VsaTranslation g dieNo v n) then [] else [n] := by
  unfold livePages
  rw [List.range_succ, List.filter_append]
  by_cases dead : Unmapped g s (vorg2VsaTranslation g dieNo v n) <;> simp [dead]

theorem copyRequests_append (xs ys : List Nat) :
    copyRequests g s t dieNo v (xs ++ ys) = copyRequests g s t dieNo v xs ++ copyRequests g s t dieNo v ys := by
  simp [copyRequests]

/-- A page nobody is mapped to is passed over. -/
theorem CopiedPages.skip (copied : CopiedPages g s t dieNo v n) (ok : MappingOk g s lists popped)
    (real : vorg2VsaTranslation g dieNo v n ≠ vsaNone) (dead : Unmapped g s (vorg2VsaTranslation g dieNo v n)) :
    CopiedPages g s t dieNo v (n + 1) where
  kept lsa outside := copied.kept lsa fun p low => outside p (by omega)
  moved lsa p low source := by
    rcases Nat.lt_succ_iff_lt_or_eq.mp low with low | rfl
    · exact copied.moved lsa p low source
    · exact absurd source ((ok.unmapped_iff real).mp dead lsa)
  pages := copied.pages
  victim := copied.victim
  bad := copied.bad
  requests := by rw [livePages_succ, if_pos dead, List.append_nil, copied.requests]

theorem CopiedPages.dead (ok : MappingOk g s lists popped) (die : dieNo < g.userDies)
    (victim : (s.die dieNo).Usable g v) (le : n ≤ g.slicesPerBlock)
    (dead : ∀ p < n, Unmapped g s (vorg2VsaTranslation g dieNo v p)) : CopiedPages g s s dieNo v n := by
  induction n with
  | zero => exact .start
  | succ n ih =>
    have before := ih (by omega) fun p low => dead p (by omega)
    exact before.skip ok (vorg_ne_vsaNone die victim le) (dead n (by omega))

/-- A live page is read and written to the target of its slice. -/
theorem CopiedPages.copy (copied : CopiedPages g s t dieNo v n) (ok : MappingOk g s lists popped)
    (die : dieNo < g.userDies) (victim : (s.die dieNo).Usable g v) (low : n < g.slicesPerBlock)
    (step : CopyStep g t u dieNo b v n lsa) : CopiedPages g s u dieNo v (n + 1) := by
  have source : s.logicalSlice lsa = vorg2VsaTranslation g dieNo v n := (copied.ahead die low).mp step.source
  have others : ∀ l, l ≠ lsa → u.logicalSlice l = t.logicalSlice l := fun l diff => by
    rw [step.map, Function.update_of_ne diff]
  have here : u.logicalSlice lsa = vorg2VsaTranslation g dieNo b (t.currentPage dieNo b) := by
    rw [step.map, Function.update_self]
  have usable : (s.die dieNo).Usable g b := ⟨step.usable.1, (copied.bad b) ▸ step.usable.2⟩
  have earlier : ∀ l, ∀ p < n, s.logicalSlice l = vorg2VsaTranslation g dieNo v p → l ≠ lsa := by
    rintro l p behind source' rfl
    have page := (vorg_inj die (behind.trans low) die low (source'.symm.trans source)).2.2
    omega
  have live : ¬ Unmapped g s (vorg2VsaTranslation g dieNo v n) := fun dead =>
    (ok.unmapped_iff step.real).mp dead lsa source
  constructor
  · intro l outside
    have diff : l ≠ lsa := by
      rintro rfl
      exact outside n (by omega) source
    rw [others l diff]
    exact copied.kept l fun p behind => outside p (by omega)
  · intro l p behind source'
    rcases Nat.lt_succ_iff_lt_or_eq.mp behind with behind | rfl
    · obtain ⟨b', q, other, usable', fresh, room, target⟩ := copied.moved l p behind source'
      exact ⟨b', q, other, usable', fresh, room, (others l (earlier l p behind source')).trans target⟩
    · have same : l = lsa := ok.mapped_unique step.real source' source
      exact ⟨b, _, step.other, usable, copied.pages b, step.room, same ▸ here⟩
  · intro x
    rw [step.pages]
    exact (copied.pages x).trans (Nat.le_add_right _ _)
  · rw [step.pages, if_neg fun both => step.other both.2.symm, copied.victim]
    rfl
  · intro x
    rw [step.bad, copied.bad]
  · have inverse : s.virtualSlice (vorg2VsaTranslation g dieNo v n) = lsa := by
      rw [← source]
      exact (ok.mapped lsa (source ▸ step.real)).inverse
    have older : copyRequests g s u dieNo v (livePages g s dieNo v n) =
        copyRequests g s t dieNo v (livePages g s dieNo v n) := by
      unfold copyRequests
      apply List.flatMap_congr
      intro p member
      obtain ⟨behind, live⟩ := List.mem_filter.mp member
      have behind := List.mem_range.mp behind
      have real := vorg_ne_vsaNone die victim (behind.trans low)
      have source' := ((ok.copied_iff real).mpr (by simpa using live)).2
      simp only [others _ (earlier _ p behind source')]
    rw [step.requests, copied.requests, livePages_succ, if_neg live, copyRequests_append, older, List.append_assoc]
    simp [copyRequests, inverse, here]

namespace MappingOk

theorem gcCopyPages_copied (ok : MappingOk g s lists popped) (die : dieNo < g.userDies)
    (out : popped dieNo = some v) (le : n ≤ g.slicesPerBlock) (ran : OcpFw.gcCopyPages g s dieNo v n = some t) :
    CopiedPages g s t dieNo v n ∧ ∃ lists', MappingOk g t lists' popped := by
  have victim := ((ok.die dieNo die).blockLists.unlisted v out).1
  induction n generalizing t with
  | zero =>
    cases ran
    exact ⟨.start, lists, ok⟩
  | succ n ih =>
    simp only [OcpFw.gcCopyPages, Option.bind_eq_bind, Option.bind_eq_some_iff] at ran
    obtain ⟨m, before, turn⟩ := ran
    obtain ⟨copied, lists', ok'⟩ := ih (by omega) before
    have low : n < g.slicesPerBlock := le
    rcases ok'.gcCopyPage die out low with ⟨skipped, dead⟩ | ⟨u, lists'', b, lsa, moved, step, ok'', -⟩
    · cases skipped.symm.trans turn
      have real := vorg_ne_vsaNone die victim low
      exact ⟨copied.skip ok real ((copied.unmapped die low).mp dead), lists', ok'⟩
    · cases moved.symm.trans turn
      exact ⟨copied.copy ok die victim low step, lists'', ok''⟩

end MappingOk

/-! ### A whole collection -/

/-- What a collection of block `v` does. -/
structure Collected (g : Geometry) (s s' : Ftl) (dieNo v : Nat) (lists : BlockList → List Nat) : Prop where
  largest : ∀ b, (s.die dieNo).Usable g b →
    ((s.die dieNo).block b).invalidSliceCnt ≤ ((s.die dieNo).block v).invalidSliceCnt
  oldest : (lists (.victim ((s.die dieNo).block v).invalidSliceCnt)).head? = some v
  kept : ∀ lsa, (∀ p < g.slicesPerBlock, s.logicalSlice lsa ≠ vorg2VsaTranslation g dieNo v p) →
    s'.logicalSlice lsa = s.logicalSlice lsa
  moved : ∀ lsa, ∀ p < g.slicesPerBlock, s.logicalSlice lsa = vorg2VsaTranslation g dieNo v p →
    Relocated g s s' dieNo v lsa
  inverse : ∀ lsa, s'.logicalSlice lsa ≠ vsaNone → s'.virtualSlice (s'.logicalSlice lsa) = lsa
  distinct : ∀ lsa lsa', s'.logicalSlice lsa ≠ vsaNone → s'.logicalSlice lsa = s'.logicalSlice lsa' → lsa = lsa'
  requests : s'.requests = s.requests ++ copyRequests g s s' dieNo v (livePages g s dieNo v g.slicesPerBlock) ++
    [.erase (vorg2VsaTranslation g dieNo v 0) (s.currentPage dieNo v)]
  emptied : ∀ lsa, ∀ p < g.slicesPerBlock, s'.logicalSlice lsa ≠ vorg2VsaTranslation g dieNo v p
  cleared : ∀ p < g.slicesPerBlock, s'.virtualSlice (vorg2VsaTranslation g dieNo v p) = lsaNone
  recycled : ∃ lists', BlockLists g (s'.die dieNo) lists' none ∧ (lists' .free).getLast? = some v
  blank : s'.currentPage dieNo v = 0 ∧ ((s'.die dieNo).block v).invalidSliceCnt = 0

/-- From the popped victim on: the copies, then the erase. -/
theorem CopiedPages.erase (copied : CopiedPages g s t dieNo v g.slicesPerBlock) (die : dieNo < g.userDies)
    (ok : MappingOk g t lists popped) :
    (∀ lsa, ∀ p < g.slicesPerBlock, t.logicalSlice lsa ≠ vorg2VsaTranslation g dieNo v p) ∧
      (∀ lsa, t.logicalSlice lsa ≠ vsaNone → (eraseBlock g t dieNo v).virtualSlice (t.logicalSlice lsa) = lsa) := by
  have emptied : ∀ lsa, ∀ p < g.slicesPerBlock, t.logicalSlice lsa ≠ vorg2VsaTranslation g dieNo v p := by
    intro lsa p low same
    by_cases before : ∃ q < g.slicesPerBlock, s.logicalSlice lsa = vorg2VsaTranslation g dieNo v q
    · obtain ⟨q, behind, source⟩ := before
      obtain ⟨b, r, other, -, -, room, target⟩ := copied.moved lsa q behind source
      exact other (vorg_inj die room die low (target.symm.trans same)).2.1
    · push Not at before
      exact before p low ((copied.kept lsa before).symm.trans same)
  refine ⟨emptied, fun lsa real => ?_⟩
  exact (discardSlices_of_ne (emptied lsa) t.virtualSlice).trans (ok.mapped lsa real).inverse

/-- Once the victim is popped nothing fails: its pages are copied, unless none is mapped, and
it is erased. -/
theorem garbageCollection_copies (ok : MappingOk g s lists noneOut) (die : dieNo < g.userDies)
    (full : s.currentPage dieNo (s.die dieNo).currentBlock = g.slicesPerBlock)
    (taken : (s.die dieNo).getFromGcVictimList g = some (v, d)) :
    ∃ t, garbageCollection g s dieNo = some (eraseBlock g t dieNo v) ∧
      CopiedPages g (s.setDie dieNo d) t dieNo v g.slicesPerBlock ∧
      ∃ lists', MappingOk g t lists' (Function.update noneOut dieNo (some v)) := by
  obtain ⟨i, rest, first, found, same, -, counted, after⟩ := ok.popVictim die rfl full taken
  set u := s.setDie dieNo d with hu
  have member : v ∈ lists dieNo (.victim i) := by simp [first]
  have out : Function.update noneOut dieNo (some v) dieNo = some v := Function.update_self ..
  have usable : (u.die dieNo).Usable g v := same.usable.mpr ((ok.die dieNo die).blockLists.usable _ v member)
  have uDie : u.die dieNo = d := by simp [hu]
  by_cases whole : i = g.slicesPerBlock
  · have dead : ∀ p < g.slicesPerBlock, Unmapped g u (vorg2VsaTranslation g dieNo v p) := by
      have all := ok.victim_unmappedPages die full member
      rw [whole] at all
      exact fun p low => same.unmapped.mpr (Nat.count_iff_forall.mp all p low)
    refine ⟨u, ?_, .dead after die usable le_rfl dead, _, after⟩
    simp only [garbageCollection, taken, Option.bind_eq_bind, Option.bind_some, ← hu, uDie, counted, whole, ne_eq,
      not_true_eq_false, ↓reduceIte]
  · have some : ∃ t, gcCopyPages g u dieNo v g.userPagesPerBlock = some t := by
      rcases after.gcCopyPages die out (Nat.le_refl _) with ⟨ran, -⟩ | ⟨t, -, ran, -⟩
      · exact ⟨u, ran⟩
      · exact ⟨t, ran⟩
    obtain ⟨t, ran⟩ := some
    obtain ⟨copied, lists', ok'⟩ := after.gcCopyPages_copied die out (Nat.le_refl _) ran
    refine ⟨t, ?_, copied, lists', ok'⟩
    simp only [garbageCollection, taken, Option.bind_eq_bind, Option.bind_some, ← hu, uDie, counted, whole, ne_eq,
      not_false_eq_true, ↓reduceIte, ran]

/-- In every state with the invariant in which the current block of a die is full and some
block of the die has an invalid slice, a collection finishes and loses nothing. -/
theorem garbageCollection_preserves (ok : MappingOk g s lists noneOut) (die : dieNo < g.userDies)
    (full : s.currentPage dieNo (s.die dieNo).currentBlock = g.slicesPerBlock)
    (dirty : ∃ b, (s.die dieNo).Usable g b ∧ 0 < ((s.die dieNo).block b).invalidSliceCnt) :
    ∃ v s', garbageCollection g s dieNo = some s' ∧ Collected g s s' dieNo v (lists dieNo) := by
  have here := ok.die dieNo die
  have blockLists : BlockLists g (s.die dieNo) (lists dieNo) none := here.blockLists
  obtain ⟨v, d, taken⟩ : ∃ v d, (s.die dieNo).getFromGcVictimList g = some (v, d) := by
    obtain ⟨b, usable, positive⟩ := dirty
    cases found : (s.die dieNo).findVictimList g.slicesPerBlock with
    | none =>
      have clean := blockLists.clean_of_no_victim found usable
      omega
    | some i =>
      unfold VirtualDie.getFromGcVictimList
      rw [found]
      exact ⟨_, _, rfl⟩
  obtain ⟨i, rest, first, found, same, -, -, -⟩ := ok.popVictim die rfl full taken
  obtain ⟨t, ran, copied, lists', ok'⟩ := garbageCollection_copies ok die full taken
  set u := s.setDie dieNo d with hu
  have out : Function.update noneOut dieNo (some v) dieNo = some v := Function.update_self ..
  have count : ((s.die dieNo).block v).invalidSliceCnt = i :=
    (blockLists.indexed i v (by simp [first])).2.2
  obtain ⟨emptied, inverse⟩ := copied.erase die ok'
  refine ⟨v, _, ran, ?_⟩
  constructor
  · intro b usable
    rw [count]
    exact blockLists.le_victim found usable
  · rw [count, first]
    rfl
  · intro lsa outside
    have before : u.logicalSlice lsa = s.logicalSlice lsa := congrFun same.logicalSlice lsa
    rw [← before]
    exact copied.kept lsa fun p low => before ▸ outside p low
  · intro lsa p low source
    obtain ⟨b, q, other, usable, fresh, room, target⟩ :=
      copied.moved lsa p low ((congrFun same.logicalSlice lsa).trans source)
    exact ⟨b, q, other, same.usable.mp usable, same.currentPage dieNo b ▸ fresh, room, target⟩
  · exact inverse
  · intro lsa lsa' real equal
    rw [← inverse lsa real, ← inverse lsa' (equal ▸ real)]
    exact congrArg _ equal
  · have live : livePages g u dieNo v g.slicesPerBlock = livePages g s dieNo v g.slicesPerBlock := by
      unfold livePages
      simp only [same.unmapped]
    have copies := copied.requests
    rw [live, same.requests] at copies
    have page : t.currentPage dieNo v = s.currentPage dieNo v := copied.victim.trans (same.currentPage dieNo v)
    change t.requests ++ [.erase _ (t.currentPage dieNo v)] = _
    rw [copies, page]
    unfold copyRequests
    rw [same.virtualSlice]
    rfl
  · exact emptied
  · exact fun p low => discardSlices_page _ low
  · have recycled := ((ok'.die dieNo die).blockLists)
    rw [out] at recycled
    have erased : (eraseBlock g t dieNo v).die dieNo = (t.die dieNo).recycleBlock v := by
      simp [eraseBlock, Ftl.issue]
    refine ⟨_, erased ▸ recycled.recycleBlock, ?_⟩
    simp
  · rw [eraseBlock_currentPage, eraseBlock_block]
    simp

/-- One slice written twice fills the only block in use, which is then the victim: its second
page is copied to the reserve. -/
theorem garbageCollection_preserves_current :
    ∃ (s : Ftl) (lists : Nat → BlockList → List Nat),
      Run (writeStep tinyGeometry) (fun s lsa => ¬ CurrentBlockIsVictim tinyGeometry s lsa)
        (initFtl tinyGeometry fun _ _ => false) [0, 0] s ∧
      ∃ v s', garbageCollection tinyGeometry s 0 = some s' ∧ s'.requests = [.read 1 0, .write 2 0, .erase 0 2] ∧
        Collected tinyGeometry s s' 0 v (lists 0) := by
  have done : (exec (writeStep tinyGeometry) (fun s lsa => ¬ CurrentBlockIsVictim tinyGeometry s lsa)
      (initFtl tinyGeometry fun _ _ => false) [0, 0]).any (fun s =>
        decide (s.currentPage 0 (s.die 0).currentBlock = 2 ∧ ((s.die 0).block 0).bad = false ∧
          ((s.die 0).block 0).invalidSliceCnt = 1) &&
        (garbageCollection tinyGeometry s 0).any fun s' =>
          decide (s'.requests = [.read 1 0, .write 2 0, .erase 0 2])) = true := by decide +kernel
  obtain ⟨s, run, shown⟩ := run_of_exec_any done
  rw [Bool.and_eq_true, Option.any_eq_true] at shown
  obtain ⟨state, s', collected, requests⟩ := shown
  obtain ⟨full, good, invalid⟩ := of_decide_eq_true state
  obtain ⟨lists, ok⟩ := mappingOk_of_run (by decide) run
  have usable : (s.die 0).Usable tinyGeometry 0 := ⟨by decide, good⟩
  obtain ⟨v, t, ran, what⟩ := garbageCollection_preserves ok (by decide) full ⟨0, usable, by omega⟩
  cases collected.symm.trans ran
  exact ⟨s, lists, run, v, s', collected, of_decide_eq_true requests, what⟩

end OcpFw
