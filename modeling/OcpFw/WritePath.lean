import Mathlib.Logic.Relation
import OcpFw.MappingInvariant

/-! Garbage collection and the write path keep the mapping invariant, as long as no
collection erases the current block of its die while allocation still uses it. What a
write does to the slices on its way is a chain of `MapStep`s. -/
namespace OcpFw
open Relation (ReflTransGen)

variable {g : Geometry} {s s' t : Ftl} {dieNo b v lsa : Nat} {popped : Nat → Option Nat}
  {lists : Nat → BlockList → List Nat}

/-- What a write does to the slices besides writing its own: lists are rearranged, a
live page of a victim is copied to a page nobody is mapped to, an abandoned block is
erased. -/
inductive MapStep (g : Geometry) (s t : Ftl) : Prop
  | rearrange (same : SameMap s t)
  | copy (dieNo b v p lsa : Nat) (die : dieNo < g.userDies) (usable : (s.die dieNo).Usable g b)
      (room : s.currentPage dieNo b < g.slicesPerBlock)
      (source : s.logicalSlice lsa = vorg2VsaTranslation g dieNo v p)
      (real : vorg2VsaTranslation g dieNo v p ≠ vsaNone)
      (map : t.logicalSlice = Function.update s.logicalSlice lsa
        (vorg2VsaTranslation g dieNo b (s.currentPage dieNo b)))
      (pages : ∀ d x, t.currentPage d x = s.currentPage d x + if d = dieNo ∧ x = b then 1 else 0)
      (bad : ∀ d x, ((t.die d).block x).bad = ((s.die d).block x).bad)
      (requests : t.requests = s.requests ++ [.read (vorg2VsaTranslation g dieNo v p) dieNo,
        .write (vorg2VsaTranslation g dieNo b (s.currentPage dieNo b)) dieNo])
  | erase (dieNo b : Nat) (die : dieNo < g.userDies)
      (empty : ∀ l p, p < g.slicesPerBlock →
        s.logicalSlice l ≠ vorg2VsaTranslation g dieNo b p)
      (map : t.logicalSlice = s.logicalSlice)
      (pages : ∀ d x, t.currentPage d x = if d = dieNo ∧ x = b then 0 else s.currentPage d x)
      (bad : ∀ d x, ((t.die d).block x).bad = ((s.die d).block x).bad)
      (requests : t.requests = s.requests ++
        [.erase (vorg2VsaTranslation g dieNo b 0) (s.currentPage dieNo b)])

/-! ### Garbage collection -/

/-- A copy that is made while `v` is collected. -/
structure CopyStep (g : Geometry) (s t : Ftl) (dieNo b v p lsa : Nat) : Prop where
  usable : (s.die dieNo).Usable g b
  other : b ≠ v
  room : s.currentPage dieNo b < g.slicesPerBlock
  source : s.logicalSlice lsa = vorg2VsaTranslation g dieNo v p
  real : vorg2VsaTranslation g dieNo v p ≠ vsaNone
  map : t.logicalSlice = Function.update s.logicalSlice lsa
    (vorg2VsaTranslation g dieNo b (s.currentPage dieNo b))
  pages : ∀ d x, t.currentPage d x = s.currentPage d x + if d = dieNo ∧ x = b then 1 else 0
  bad : ∀ d x, ((t.die d).block x).bad = ((s.die d).block x).bad
  requests : t.requests = s.requests ++ [.read (vorg2VsaTranslation g dieNo v p) dieNo,
    .write (vorg2VsaTranslation g dieNo b (s.currentPage dieNo b)) dieNo]

theorem CopyStep.mapStep {p : Nat} (step : CopyStep g s t dieNo b v p lsa) (die : dieNo < g.userDies) :
    MapStep g s t :=
  .copy dieNo b v p lsa die step.usable step.room step.source step.real step.map step.pages step.bad step.requests

namespace MappingOk

/-- The block the collector copies to exists, is not the victim and keeps room for
every page still to be copied. -/
theorem copyTargetBlock (ok : MappingOk g s lists popped) (die : dieNo < g.userDies)
    (out : popped dieNo = some v) :
    ∃ b t lists', OcpFw.copyTargetBlock g s dieNo v = some (b, t) ∧ SameMap s t ∧
      MappingOk g t lists' popped ∧ (t.die dieNo).currentBlock = b ∧ b ≠ v ∧
      t.currentPage dieNo b < unmappedPages g t dieNo v g.slicesPerBlock := by
  have here := ok.die dieNo die
  have switched : ∀ option, ¬ (s.die dieNo).NoFreeBlock option →
      s.currentPage dieNo (s.die dieNo).currentBlock = g.slicesPerBlock ∨
        popped dieNo = some (s.die dieNo).currentBlock →
      0 < unmappedPages g s dieNo v g.slicesPerBlock →
      ∃ b lists', (s.getFromFbList dieNo option).1 = b ∧ b ≠ blockFail ∧
        SameMap s ((s.getFromFbList dieNo option).2.setCurrentBlock dieNo b) ∧
        MappingOk g ((s.getFromFbList dieNo option).2.setCurrentBlock dieNo b) lists' popped ∧
        (((s.getFromFbList dieNo option).2.setCurrentBlock dieNo b).die dieNo).currentBlock = b ∧
        b ≠ v ∧ s.currentPage dieNo b = 0 := by
    intro option available done some
    obtain ⟨b, rest, listed, taken, real, same, current, blank, after⟩ :=
      ok.switchBlock die available done fun idle => by rw [out] at idle; cases idle
    refine ⟨b, _, taken, real, same, after, current, fun hv => ?_, blank⟩
    exact (here.blockLists.unlisted v out).2 .free (by simp [listed, hv])
  rcases here.copyRoom v out with ⟨done, filled, some⟩ | ⟨moved, behind⟩
  · have available : ¬ (s.die dieNo).NoFreeBlock .gc := fun none =>
      filled (here.blockLists.noFreeBlock_gc.mp none)
    obtain ⟨b, lists', taken, real, same, after, current, diff, blank⟩ := switched .gc available
      (done.elim (fun isVictim => .inr (isVictim ▸ out)) .inl) some
    refine ⟨b, _, lists', ?_, same, after, current, diff, ?_⟩
    · by_cases isVictim : v = (s.die dieNo).currentBlock
      · have page : ((s.getFromFbList dieNo .gc).2.setCurrentBlock dieNo b).currentPage dieNo b = 0 :=
          (same.currentPage dieNo b).trans blank
        have pagesPos : ¬ 0 = g.userPagesPerBlock := by
          have := g.pages_pos
          unfold Geometry.userPagesPerBlock
          omega
        simp only [OcpFw.copyTargetBlock, ← isVictim, ↓reduceIte, taken, real, Option.bind_eq_bind,
          Option.bind_some, current, page, pagesPos, gt_iff_lt, Nat.not_lt_zero]
      · have full := done.resolve_left (Ne.symm isVictim)
        have fullPage : s.currentPage dieNo (s.die dieNo).currentBlock = g.userPagesPerBlock := full
        simp only [OcpFw.copyTargetBlock, isVictim, ↓reduceIte, Option.bind_eq_bind,
          Option.bind_some, fullPage, taken, real, ne_eq, not_false_eq_true]
    · rw [same.currentPage, same.unmappedPages, blank]
      exact some
  · have bound := @unmappedPages_le g s dieNo v g.slicesPerBlock
    have notFull : ¬ s.currentPage dieNo (s.die dieNo).currentBlock = g.userPagesPerBlock := by
      unfold Geometry.userPagesPerBlock
      omega
    have notOver : ¬ g.userPagesPerBlock < s.currentPage dieNo (s.die dieNo).currentBlock := by
      unfold Geometry.userPagesPerBlock
      omega
    refine ⟨_, s, lists, ?_, ⟨⟨rfl, fun _ _ => rfl, fun _ _ => rfl, rfl, rfl, rfl, rfl⟩, rfl⟩, ok,
      rfl, moved, behind⟩
    simp only [OcpFw.copyTargetBlock, Ne.symm moved, ↓reduceIte, Option.bind_eq_bind,
      Option.bind_some, notFull, gt_iff_lt, notOver]

/-- One turn of the copy loop. Either the page was dead and nothing happens, or it is
copied, and then the current block is not the victim and not full. -/
theorem gcCopyPage (ok : MappingOk g s lists popped) (die : dieNo < g.userDies)
    (out : popped dieNo = some v) (low : p < g.slicesPerBlock) :
    (OcpFw.gcCopyPage g s dieNo v p = some s ∧
        Unmapped g s (vorg2VsaTranslation g dieNo v p)) ∨
    ∃ t lists' b lsa, OcpFw.gcCopyPage g s dieNo v p = some t ∧ CopyStep g s t dieNo b v p lsa ∧
      MappingOk g t lists' popped ∧
      Unmapped g t (vorg2VsaTranslation g dieNo v p) ∧
      (∀ q < g.slicesPerBlock, Unmapped g s (vorg2VsaTranslation g dieNo v q) →
        Unmapped g t (vorg2VsaTranslation g dieNo v q)) ∧
      (t.die dieNo).currentBlock ≠ v ∧
      t.currentPage dieNo (t.die dieNo).currentBlock < g.slicesPerBlock := by
  have victim := ((ok.die dieNo die).blockLists.unlisted v out).1
  have real := vorg_ne_vsaNone die victim low
  set old := vorg2VsaTranslation g dieNo v p with hold
  by_cases dead : Unmapped g s old
  · refine .inl ⟨?_, dead⟩
    have test : ¬ (s.virtualSlice old ≠ lsaNone ∧ s.logicalSlice (s.virtualSlice old) = old) :=
      fun live => (ok.copied_iff real).mp live dead
    simp only [OcpFw.gcCopyPage, ← hold]
    split
    · rename_i some
      rw [if_neg fun live => test ⟨some, live⟩]
    · rfl
  · refine .inr ?_
    obtain ⟨some, live⟩ := (ok.copied_iff real).mpr dead
    set lsa := s.virtualSlice old with hlsa
    have low' : lsa < g.slicesPerSsd := (ok.mapped lsa (live ▸ real)).lsa_lt
    obtain ⟨b, u, lists', target, same, after, current, diff, behind⟩ :=
      (ok.issue (.read old dieNo)).copyTargetBlock die out
    have source : u.logicalSlice lsa = old := same.logicalSlice ▸ live
    have spare : unmappedPages g u dieNo v g.slicesPerBlock < g.slicesPerBlock := by
      refine lt_of_le_of_ne unmappedPages_le fun all => ?_
      exact Nat.count_iff_forall.mp all p low lsa low' source
    have room : u.currentPage dieNo b < g.slicesPerBlock := by omega
    have copied := after.assign die current room low' (by rw [out]; simpa using Ne.symm diff)
      (.inr ⟨v, p, out, low, source⟩)
    have map : (assignPage g u dieNo b lsa).logicalSlice = Function.update u.logicalSlice lsa
      (vorg2VsaTranslation g dieNo b (u.currentPage dieNo b)) := rfl
    have usable : (u.die dieNo).Usable g b := current ▸ (after.die dieNo die).currentUsable
    have samePage : u.currentPage dieNo b = s.currentPage dieNo b := same.currentPage dieNo b
    have pageNow : (assignPage g u dieNo b lsa).currentPage dieNo b = u.currentPage dieNo b + 1 := by
      rw [assignPage_currentPage room, if_pos ⟨rfl, rfl⟩]
    have currentNow : ((assignPage g u dieNo b lsa).die dieNo).currentBlock = b := by
      simp [assignPage, mapSlice, takePage, VirtualDie.setBlock, current]
    have unmapped : ∀ q < g.slicesPerBlock,
        (Unmapped g (assignPage g u dieNo b lsa) (vorg2VsaTranslation g dieNo v q) ↔
          Unmapped g s (vorg2VsaTranslation g dieNo v q) ∨ old = vorg2VsaTranslation g dieNo v q) := by
      intro q hq
      rw [after.unmapped_update low' (vorg_ne_vsaNone die victim hq) map, source,
        same.unmapped, Unmapped, Unmapped]
      have notNew : vorg2VsaTranslation g dieNo b (u.currentPage dieNo b) ≠
          vorg2VsaTranslation g dieNo v q := fun eq => diff (vorg_inj die room die hq eq).2.1
      exact and_iff_left notNew
    refine ⟨(assignPage g u dieNo b lsa).issue
        (.write (vorg2VsaTranslation g dieNo b (u.currentPage dieNo b)) dieNo), lists', b, lsa, ?_, ?_,
      copied.issue _, ?_, ?_, ?_, ?_⟩
    · simp only [OcpFw.gcCopyPage, ← hold, ← hlsa, some, ne_eq, not_false_eq_true, ↓reduceIte, live,
        findFreeVirtualSliceForGc, target, Option.bind_eq_bind, Option.bind_some]
      rfl
    · refine ⟨?_, diff, samePage ▸ room, live, real, ?_, ?_, ?_, ?_⟩
      · exact same.usable.mp usable
      · rw [← samePage]
        exact congrArg (Function.update · lsa _) same.logicalSlice
      · intro d x
        exact (assignPage_currentPage room lsa d x).trans (by rw [same.currentPage]; rfl)
      · intro d x
        exact (congrArg VirtualBlock.bad (assignPage_block room lsa d x)).trans (same.bad d x)
      · rw [← samePage]
        change u.requests ++ [_] = _
        rw [same.requests]
        simp [Ftl.issue, hold]
    · exact (unmapped p low).mpr (.inr rfl)
    · exact fun q hq before => (unmapped q hq).mpr (.inl before)
    · change ((assignPage g u dieNo b lsa).die dieNo).currentBlock ≠ v
      rw [currentNow]
      exact diff
    · change (assignPage g u dieNo b lsa).currentPage dieNo _ < _
      rw [show ((assignPage g u dieNo b lsa).issue _).die = (assignPage g u dieNo b lsa).die from rfl,
        currentNow, pageNow]
      omega

/-- The copy loop leaves no mapped page in the part of the victim it went through.
Either all of that part was dead and nothing happened, or the die now has another
current block that is not full. -/
theorem gcCopyPages (ok : MappingOk g s lists popped) (die : dieNo < g.userDies)
    (out : popped dieNo = some v) (le : n ≤ g.slicesPerBlock) :
    (OcpFw.gcCopyPages g s dieNo v n = some s ∧
        ∀ p < n, Unmapped g s (vorg2VsaTranslation g dieNo v p)) ∨
    ∃ t lists', OcpFw.gcCopyPages g s dieNo v n = some t ∧ ReflTransGen (MapStep g) s t ∧
      MappingOk g t lists' popped ∧
      (∀ p < n, Unmapped g t (vorg2VsaTranslation g dieNo v p)) ∧
      (t.die dieNo).currentBlock ≠ v ∧
      t.currentPage dieNo (t.die dieNo).currentBlock < g.slicesPerBlock := by
  induction n with
  | zero => exact .inl ⟨rfl, fun p hp => absurd hp (Nat.not_lt_zero p)⟩
  | succ n ih =>
    have extend : ∀ u : Ftl, (∀ p < n, Unmapped g u (vorg2VsaTranslation g dieNo v p)) →
        Unmapped g u (vorg2VsaTranslation g dieNo v n) →
        ∀ p < n + 1, Unmapped g u (vorg2VsaTranslation g dieNo v p) := by
      intro u below last p hp
      rcases Nat.lt_succ_iff_lt_or_eq.mp hp with hp | rfl
      · exact below p hp
      · exact last
    rcases ih (by omega) with ⟨ran, dead⟩ | ⟨t, lists', ran, steps, after, dead, moved, room⟩
    · rcases ok.gcCopyPage die out (show n < _ by omega) with ⟨turn, here⟩ |
        ⟨u, lists'', b, lsa, turn, step, after, here, kept, moved, room⟩
      · refine .inl ⟨?_, extend s dead here⟩
        simp only [OcpFw.gcCopyPages, ran, Option.bind_eq_bind, Option.bind_some, turn]
      · refine .inr ⟨u, lists'', ?_, .single (step.mapStep die), after, extend u ?_ here, moved, room⟩
        · simp only [OcpFw.gcCopyPages, ran, Option.bind_eq_bind, Option.bind_some, turn]
        · exact fun p hp => kept p (by omega) (dead p hp)
    · rcases after.gcCopyPage die out (show n < _ by omega) with ⟨turn, here⟩ |
        ⟨u, lists'', b, lsa, turn, step, last, here, kept, moved', room'⟩
      · refine .inr ⟨t, lists', ?_, steps, after, extend t dead here, moved, room⟩
        simp only [OcpFw.gcCopyPages, ran, Option.bind_eq_bind, Option.bind_some, turn]
      · refine .inr ⟨u, lists'', ?_, .tail steps (step.mapStep die), last, extend u ?_ here, moved', room'⟩
        · simp only [OcpFw.gcCopyPages, ran, Option.bind_eq_bind, Option.bind_some, turn]
        · exact fun p hp => kept p (by omega) (dead p hp)

/-- The erase that ends a collection, as a step on the slices. -/
private theorem erase_step (ok : MappingOk g s lists popped) (die : dieNo < g.userDies)
    (out : popped dieNo = some v)
    (empty : ∀ p < g.slicesPerBlock, Unmapped g s (vorg2VsaTranslation g dieNo v p)) :
    MapStep g s (eraseBlock g s dieNo v) := by
  have victim := ((ok.die dieNo die).blockLists.unlisted v out).1
  refine .erase dieNo v die ?_ rfl (fun d x => eraseBlock_currentPage d x) ?_ rfl
  · intro l p hp
    exact (ok.unmapped_iff (vorg_ne_vsaNone die victim hp)).mp (empty p hp) l
  · intro d x
    rw [eraseBlock_block]
    split <;> rfl

/-- When the current block is full, so are the blocks with invalid slices, and the index of
their list is the number of their pages nobody is mapped to. -/
theorem victim_unmappedPages (ok : MappingOk g s lists noneOut) (die : dieNo < g.userDies)
    (done : s.currentPage dieNo (s.die dieNo).currentBlock = g.slicesPerBlock) {i : Nat}
    (member : v ∈ lists dieNo (.victim i)) : unmappedPages g s dieNo v g.slicesPerBlock = i := by
  have here := ok.die dieNo die
  have usable := here.blockLists.usable _ v member
  have filled : s.currentPage dieNo v = g.slicesPerBlock := by
    by_cases current : v = (s.die dieNo).currentBlock
    · rw [current, done]
    · apply here.full v usable _ current
      intro free
      cases here.blockLists.holds.disjoint _ _ v free member
  have exactly := here.exactCount v usable nofun
  rw [(here.blockLists.indexed i v member).2.2, filled] at exactly
  exact exactly.symm

/-- A collection on a die whose current block is full, provided that it does not take
the current block while all of its slices are invalid. Afterwards the die can go on:
its current block has room again, or it has more free blocks than the reserve. -/
theorem garbageCollection (ok : MappingOk g s lists noneOut) (die : dieNo < g.userDies)
    (done : s.currentPage dieNo (s.die dieNo).currentBlock = g.slicesPerBlock)
    (taken : (s.die dieNo).getFromGcVictimList g = some (v, d))
    (safe : (s.die dieNo).lists.head (.victim g.slicesPerBlock) ≠ (s.die dieNo).currentBlock) :
    ∃ t lists', OcpFw.garbageCollection g s dieNo = some t ∧ ReflTransGen (MapStep g) s t ∧
      MappingOk g t lists' noneOut ∧
      (t.currentPage dieNo (t.die dieNo).currentBlock < g.slicesPerBlock ∨
        t.currentPage dieNo (t.die dieNo).currentBlock = g.slicesPerBlock ∧
          1 < (lists' dieNo .free).length) := by
  obtain ⟨i, rest, listed, found, same, current, counted, after⟩ :=
    ok.popVictim die rfl done taken
  set u := s.setDie dieNo d with hu
  have uDie : u.die dieNo = d := by simp [hu]
  have here := after.die dieNo die
  have out : Function.update noneOut dieNo (some v) dieNo = some v := Function.update_self ..
  have recycled : Function.update (Function.update noneOut dieNo (some v)) dieNo none = noneOut := by
    rw [Function.update_idem]
    exact Function.update_eq_self ..
  have countIs := ok.victim_unmappedPages die done (show v ∈ lists dieNo (.victim i) by simp [listed])
  by_cases whole : i = g.slicesPerBlock
  · subst whole
    have notCurrent : (u.die dieNo).currentBlock ≠ v := by
      rw [uDie, current]
      rw [(ok.die dieNo die).blockLists.holds.head_cons listed] at safe
      exact Ne.symm safe
    have empty : ∀ p < g.slicesPerBlock, Unmapped g u (vorg2VsaTranslation g dieNo v p) :=
      fun p hp => same.unmapped.mpr (Nat.count_iff_forall.mp countIs p hp)
    have erased := after.erase die out notCurrent empty
    rw [recycled] at erased
    refine ⟨_, _, ?_, .tail (.single (.rearrange same)) (after.erase_step die out empty),
      erased, .inr ⟨?_, ?_⟩⟩
    · simp only [OcpFw.garbageCollection, taken, Option.bind_eq_bind, Option.bind_some, ← hu, uDie,
        counted, ne_eq, not_true_eq_false, ↓reduceIte]
    · have currentNow : ((eraseBlock g u dieNo v).die dieNo).currentBlock =
          (s.die dieNo).currentBlock := by
        rw [← current, ← uDie]
        simp [eraseBlock, Ftl.issue, VirtualDie.recycleBlock, VirtualDie.setBlock,
          VirtualDie.putToFbList]
      rw [currentNow, eraseBlock_currentPage, if_neg, same.currentPage, done]
      rintro ⟨-, isVictim⟩
      exact notCurrent (by rw [uDie, current, isVictim])
    · have filled := List.length_pos_of_ne_nil ((ok.die dieNo die).reserve rfl)
      simpa using filled
  · have live : ¬ ∀ p < g.slicesPerBlock, Unmapped g u (vorg2VsaTranslation g dieNo v p) := by
      intro dead
      refine whole (countIs ▸ Nat.count_iff_forall.mpr fun p hp => ?_)
      exact same.unmapped.mp (dead p hp)
    rcases after.gcCopyPages die out (Nat.le_refl _) with ⟨-, dead⟩ |
      ⟨t, lists', ran, steps, last, empty, moved, room⟩
    · exact absurd dead live
    · have erased := last.erase die out moved empty
      rw [recycled] at erased
      refine ⟨_, _, ?_, ?_, erased, .inl ?_⟩
      · have notWhole : (d.block v).invalidSliceCnt ≠ g.slicesPerBlock := counted ▸ whole
        have ran' : OcpFw.gcCopyPages g u dieNo v g.userPagesPerBlock = some t := ran
        simp only [OcpFw.garbageCollection, taken, Option.bind_eq_bind, Option.bind_some, ← hu,
          uDie, notWhole, ne_eq, not_false_eq_true, ↓reduceIte, ran']
      · exact .tail (.trans (.single (.rearrange same)) steps) (last.erase_step die out empty)
      · have currentNow : ((eraseBlock g t dieNo v).die dieNo).currentBlock =
            (t.die dieNo).currentBlock := by
          simp [eraseBlock, Ftl.issue, VirtualDie.recycleBlock, VirtualDie.setBlock,
            VirtualDie.putToFbList]
        rw [currentNow, eraseBlock_currentPage, if_neg fun both => moved both.2]
        exact room

/-! ### Page allocation -/

private theorem setDie_self : s.setDie dieNo (s.die dieNo) = s := by
  cases s
  simp [Ftl.setDie]

/-- A free block beyond the reserve becomes the current block. -/
private theorem nextBlock (ok : MappingOk g s lists noneOut) (die : dieNo < g.userDies)
    (done : s.currentPage dieNo (s.die dieNo).currentBlock = g.slicesPerBlock)
    (available : ¬ (s.die dieNo).NoFreeBlock .normal) :
    ∃ b t lists', (s.getFromFbList dieNo .normal).1 = b ∧ b ≠ blockFail ∧
      (s.getFromFbList dieNo .normal).2.setCurrentBlock dieNo b = t ∧ SameMap s t ∧
      MappingOk g t lists' noneOut ∧ (t.die dieNo).currentBlock = b ∧
      t.currentPage dieNo b < g.slicesPerBlock := by
  have spare : 1 < (lists dieNo .free).length := by
    rw [(ok.die dieNo die).blockLists.noFreeBlock_normal] at available
    exact Nat.lt_of_not_le available
  obtain ⟨b, rest, -, taken, real, same, current, blank, after⟩ :=
    ok.switchBlock die available (.inl done) fun _ => spare
  refine ⟨b, _, _, taken, real, rfl, same, after, current, ?_⟩
  rw [same.currentPage, blank]
  exact g.pages_pos

/-- The block the next page comes from, or the failure to find one: the current block
is full, only the reserve is free and no block has an invalid slice. -/
theorem allocationBlock (ok : MappingOk g s lists noneOut) (die : dieNo < g.userDies)
    (safe : s.currentPage dieNo (s.die dieNo).currentBlock = g.slicesPerBlock →
      (s.die dieNo).NoFreeBlock .normal →
      (s.die dieNo).lists.head (.victim g.slicesPerBlock) ≠ (s.die dieNo).currentBlock) :
    (∃ b t lists', OcpFw.allocationBlock g s dieNo = some (b, t) ∧ ReflTransGen (MapStep g) s t ∧
      MappingOk g t lists' noneOut ∧ (t.die dieNo).currentBlock = b ∧
      t.currentPage dieNo b < g.slicesPerBlock) ∨
    OcpFw.allocationBlock g s dieNo = none ∧
      s.currentPage dieNo (s.die dieNo).currentBlock = g.slicesPerBlock ∧
      (s.die dieNo).NoFreeBlock .normal ∧
      (s.die dieNo).findVictimList g.slicesPerBlock = none := by
  have bound := (ok.die dieNo die).pages (s.die dieNo).currentBlock
  by_cases done : s.currentPage dieNo (s.die dieNo).currentBlock = g.slicesPerBlock
  · have done' : s.currentPage dieNo (s.die dieNo).currentBlock = g.userPagesPerBlock := done
    by_cases available : (s.die dieNo).NoFreeBlock .normal
    · have refused : s.getFromFbList dieNo .normal = (blockFail, s) := by
        simp only [Ftl.getFromFbList, VirtualDie.getFromFbList_none available, setDie_self]
      cases found : (s.die dieNo).findVictimList g.slicesPerBlock with
      | none =>
        refine .inr ⟨?_, done, available, rfl⟩
        simp only [OcpFw.allocationBlock, done', ↓reduceIte, refused, ne_eq, not_true_eq_false,
          OcpFw.garbageCollection, VirtualDie.getFromGcVictimList, found, Option.bind_eq_bind,
          Option.bind_none]
      | some i =>
        have taken : ∃ v d, (s.die dieNo).getFromGcVictimList g = some (v, d) := by
          simp [VirtualDie.getFromGcVictimList, found]
        obtain ⟨v, d, taken⟩ := taken
        obtain ⟨t, lists', collected, steps, after, room⟩ :=
          ok.garbageCollection die done taken (safe done available)
        refine .inl ?_
        rcases room with room | ⟨full, spare⟩
        · have notFull : ¬ t.currentPage dieNo (t.die dieNo).currentBlock = g.userPagesPerBlock := by
            unfold Geometry.userPagesPerBlock
            omega
          have notOver : ¬ g.userPagesPerBlock < t.currentPage dieNo (t.die dieNo).currentBlock := by
            unfold Geometry.userPagesPerBlock
            omega
          refine ⟨_, t, lists', ?_, steps, after, rfl, room⟩
          simp only [OcpFw.allocationBlock, done', ↓reduceIte, refused, ne_eq, not_true_eq_false,
            collected, Option.bind_eq_bind, Option.bind_some, notFull, gt_iff_lt, notOver]
        · have more : ¬ (t.die dieNo).NoFreeBlock .normal := by
            rw [(after.die dieNo die).blockLists.noFreeBlock_normal]
            exact Nat.not_le_of_lt spare
          have full' : t.currentPage dieNo (t.die dieNo).currentBlock = g.userPagesPerBlock := full
          obtain ⟨b, u, lists'', took, real, rfl, same, last, current, fresh⟩ :=
            after.nextBlock die full more
          refine ⟨b, _, lists'', ?_, .tail steps (.rearrange same), last, current, fresh⟩
          simp only [OcpFw.allocationBlock, done', ↓reduceIte, refused, ne_eq, not_true_eq_false,
            collected, Option.bind_eq_bind, Option.bind_some, full', took, real, not_false_eq_true]
    · obtain ⟨b, t, lists', took, real, rfl, same, after, current, fresh⟩ :=
        ok.nextBlock die done available
      refine .inl ⟨b, _, lists', ?_, .single (.rearrange same), after, current, fresh⟩
      simp only [OcpFw.allocationBlock, done', ↓reduceIte, took, real, ne_eq, not_false_eq_true]
  · have notFull : ¬ s.currentPage dieNo (s.die dieNo).currentBlock = g.userPagesPerBlock := done
    have notOver : ¬ g.userPagesPerBlock < s.currentPage dieNo (s.die dieNo).currentBlock := by
      unfold Geometry.userPagesPerBlock
      omega
    refine .inl ⟨_, s, lists, ?_, .refl, ok, rfl, lt_of_le_of_ne bound done⟩
    simp only [OcpFw.allocationBlock, notFull, ↓reduceIte, gt_iff_lt, notOver]

end MappingOk

/-! ### The write path -/

/-- The next collection on the target die erases the block the die is still
allocating from: the current block is full, only the reserve is free, and the block is,
or by dropping the old copy of `lsa` becomes, the first one with no valid slice left. -/
def CurrentBlockIsVictim (g : Geometry) (s : Ftl) (lsa : Nat) : Prop :=
  let dieNo := s.sliceAllocationTargetDie
  let d := s.die dieNo
  s.currentPage dieNo d.currentBlock = g.slicesPerBlock ∧ d.NoFreeBlock .normal ∧
    (d.lists.head (.victim g.slicesPerBlock) = d.currentBlock ∨
      d.lists.head (.victim g.slicesPerBlock) = blockNone ∧ s.logicalSlice lsa ≠ vsaNone ∧
      vsa2VdieTranslation g (s.logicalSlice lsa) = dieNo ∧
      vsa2VblockTranslation g (s.logicalSlice lsa) = d.currentBlock ∧
      (d.block d.currentBlock).invalidSliceCnt + 1 = g.slicesPerBlock)

instance (g : Geometry) (s : Ftl) (lsa : Nat) : Decidable (CurrentBlockIsVictim g s lsa) := by
  unfold CurrentBlockIsVictim
  infer_instance

/-- A slice nobody is mapped to stays so: only mapped slices are copied. -/
theorem MapStep.unmapped_kept (step : MapStep g s t) (none : s.logicalSlice lsa = vsaNone) :
    t.logicalSlice lsa = vsaNone := by
  cases step with
  | rearrange same => rw [same.logicalSlice, none]
  | copy dieNo b v p l die usable room source real map pages bad requests =>
    have diff : lsa ≠ l := by
      rintro rfl
      exact real (source.symm.trans none)
    rw [map, Function.update_of_ne diff, none]
  | erase dieNo b die empty map pages bad requests => rw [map, none]

/-- No step of the mapping layer marks a block bad or good. -/
theorem MapStep.bad_kept (step : MapStep g s t) (d x : Nat) :
    ((t.die d).block x).bad = ((s.die d).block x).bad := by
  cases step with
  | rearrange same => exact same.bad d x
  | copy dieNo b v p l die usable room source real map pages bad requests => exact bad d x
  | erase dieNo b die empty map pages bad requests => exact bad d x

theorem mapSteps_bad_kept (steps : ReflTransGen (MapStep g) s t) (d x : Nat) :
    ((t.die d).block x).bad = ((s.die d).block x).bad := by
  induction steps with
  | refl => rfl
  | tail _ step ih => exact (step.bad_kept d x).trans ih

theorem mapSteps_unmapped_kept (steps : ReflTransGen (MapStep g) s t)
    (none : s.logicalSlice lsa = vsaNone) : t.logicalSlice lsa = vsaNone := by
  induction steps with
  | refl => exact none
  | tail _ step ih => exact step.unmapped_kept ih

private theorem findDie_mapSlice (vsa : Nat) :
    findDieForFreeSliceAllocation g (mapSlice s lsa vsa) =
      ((findDieForFreeSliceAllocation g s).1,
        mapSlice (findDieForFreeSliceAllocation g s).2 lsa vsa) := by
  unfold findDieForFreeSliceAllocation mapSlice
  split <;> rfl

namespace MappingOk

/-- Dropping the old copy, mapped or not. -/
theorem invalidateOldVsa (ok : MappingOk g s lists noneOut) (lsa : Nat) :
    ∃ lists', SamePages s (OcpFw.invalidateOldVsa g s lsa) ∧
      MappingOk g (OcpFw.invalidateOldVsa g s lsa) lists' noneOut ∧
      (OcpFw.invalidateOldVsa g s lsa).logicalSlice =
        Function.update s.logicalSlice lsa vsaNone ∧
      ∀ d, ((OcpFw.invalidateOldVsa g s lsa).die d).currentBlock = (s.die d).currentBlock ∧
        ((OcpFw.invalidateOldVsa g s lsa).die d).freeBlockCnt = (s.die d).freeBlockCnt := by
  by_cases mapped : s.logicalSlice lsa = vsaNone
  · have same : OcpFw.invalidateOldVsa g s lsa = s := by
      simp [OcpFw.invalidateOldVsa, mapped]
    rw [same, Function.update_eq_self_iff.mpr mapped.symm]
    exact ⟨lists, ⟨rfl, fun _ _ => rfl, fun _ _ => rfl, rfl, rfl, rfl, rfl⟩, ok, rfl,
      fun _ => ⟨rfl, rfl⟩⟩
  · obtain ⟨shape, same, after⟩ := ok.invalidate rfl mapped rfl rfl
    refine ⟨_, same, after, by rw [shape], fun d => ?_⟩
    rw [shape]
    by_cases hd : d = vsa2VdieTranslation g (s.logicalSlice lsa) <;>
      simp [hd]

/-- Dropping the old copy puts the current block in front of the list of fully
invalid blocks only as `CurrentBlockIsVictim` foresees. -/
theorem victim_after_invalidate (ok : MappingOk g s lists noneOut)
    (die : dieNo < g.userDies)
    (first : ((OcpFw.invalidateOldVsa g s lsa).die dieNo).lists.head (.victim g.slicesPerBlock) =
      (s.die dieNo).currentBlock) :
    (s.die dieNo).lists.head (.victim g.slicesPerBlock) = (s.die dieNo).currentBlock ∨
      (s.die dieNo).lists.head (.victim g.slicesPerBlock) = blockNone ∧
      s.logicalSlice lsa ≠ vsaNone ∧ vsa2VdieTranslation g (s.logicalSlice lsa) = dieNo ∧
      vsa2VblockTranslation g (s.logicalSlice lsa) = (s.die dieNo).currentBlock ∧
      ((s.die dieNo).block (s.die dieNo).currentBlock).invalidSliceCnt + 1 = g.slicesPerBlock := by
  by_cases mapped : s.logicalSlice lsa = vsaNone
  · have same : OcpFw.invalidateOldVsa g s lsa = s := by
      simp [OcpFw.invalidateOldVsa, mapped]
    rw [same] at first
    exact .inl first
  · obtain ⟨shape, same, after⟩ := ok.invalidate rfl mapped rfl rfl
    have before := ok.die dieNo die
    by_cases there : vsa2VdieTranslation g (s.logicalSlice lsa) = dieNo
    · have now := (after.die dieNo die).blockLists.holds.head (.victim g.slicesPerBlock)
      subst there
      rw [Function.update_self] at now
      set b := vsa2VblockTranslation g (s.logicalSlice lsa) with hb
      set d := s.die (vsa2VdieTranslation g (s.logicalSlice lsa)) with hd
      have room := ok.invalid_lt rfl mapped
      have full := before.pages b
      have counts : (d.block b).invalidSliceCnt < g.slicesPerBlock := Nat.lt_of_lt_of_le room full
      rw [first] at now
      have old := before.blockLists.holds.head (.victim g.slicesPerBlock)
      by_cases top : (d.block b).invalidSliceCnt + 1 = g.slicesPerBlock
      · rw [demoted, top, Function.update_self] at now
        cases listed : lists (vsa2VdieTranslation g (s.logicalSlice lsa))
            (.victim g.slicesPerBlock) with
        | nil =>
          rw [listed] at now old
          have isCurrent : b = d.currentBlock := now.symm
          exact .inr ⟨old, mapped, rfl, isCurrent, isCurrent ▸ top⟩
        | cons x rest =>
          rw [listed] at now old
          exact .inl (old.trans now.symm)
      · rw [demoted, Function.update_of_ne (by simpa using Ne.symm top),
          Function.update_of_ne (by simp; omega)] at now
        exact .inl (old.trans now.symm)
    · have same : (OcpFw.invalidateOldVsa g s lsa).die dieNo = s.die dieNo := by
        rw [shape]
        simp [Ne.symm there]
      rw [same] at first
      exact .inl first

/-- A write outside the reported defect either succeeds, or finds neither a page nor
a victim on the target die. -/
theorem addrTransWrite (ok : MappingOk g s lists noneOut) (low : lsa < g.slicesPerSsd)
    (safe : ¬ CurrentBlockIsVictim g s lsa) :
    (∃ b t lists₁ s' lists', ReflTransGen (MapStep g) (OcpFw.invalidateOldVsa g s lsa) t ∧
      MappingOk g t lists₁ noneOut ∧ t.logicalSlice lsa = vsaNone ∧
      (t.die s.sliceAllocationTargetDie).currentBlock = b ∧
      t.currentPage s.sliceAllocationTargetDie b < g.slicesPerBlock ∧
      OcpFw.addrTransWrite g s lsa = some (vorg2VsaTranslation g s.sliceAllocationTargetDie b
        (t.currentPage s.sliceAllocationTargetDie b), s') ∧
      s'.die = (assignPage g t s.sliceAllocationTargetDie b lsa).die ∧
      s'.logicalSlice = (assignPage g t s.sliceAllocationTargetDie b lsa).logicalSlice ∧
      s'.requests = t.requests ∧ MappingOk g s' lists' noneOut) ∨
    OcpFw.addrTransWrite g s lsa = none ∧
      s.currentPage s.sliceAllocationTargetDie (s.die s.sliceAllocationTargetDie).currentBlock =
        g.slicesPerBlock ∧
      ((OcpFw.invalidateOldVsa g s lsa).die s.sliceAllocationTargetDie).NoFreeBlock .normal ∧
      ((OcpFw.invalidateOldVsa g s lsa).die s.sliceAllocationTargetDie).findVictimList
        g.slicesPerBlock = none := by
  obtain ⟨lists₀, same, dropped, map, kept⟩ := ok.invalidateOldVsa lsa
  set die := s.sliceAllocationTargetDie with hdie
  set u := OcpFw.invalidateOldVsa g s lsa with hu
  have targetIs : u.sliceAllocationTargetDie = die := same.target.1
  have dieLow : die < g.userDies := ok.targetDie
  obtain ⟨currentSame, freeSame⟩ := kept die
  have available : (u.die die).NoFreeBlock .normal ↔ (s.die die).NoFreeBlock .normal := by
    rw [VirtualDie.NoFreeBlock, VirtualDie.NoFreeBlock, freeSame]
  have away : u.currentPage die (u.die die).currentBlock = g.slicesPerBlock →
      (u.die die).NoFreeBlock .normal →
      (u.die die).lists.head (.victim g.slicesPerBlock) ≠ (u.die die).currentBlock := by
    intro full none first
    rw [currentSame] at full first
    rw [same.currentPage] at full
    exact safe ⟨full, available.mp none, ok.victim_after_invalidate dieLow first⟩
  rcases dropped.allocationBlock dieLow away with ⟨b, t, lists₁, allocated, steps, after, current,
    room⟩ | ⟨failed, full, none, empty⟩
  · have gone : t.logicalSlice lsa = vsaNone :=
      mapSteps_unmapped_kept steps (by rw [map, Function.update_self])
    have assigned := after.assign dieLow current room low (by simp [noneOut])
      (.inl ⟨rfl, gone⟩)
    refine .inl ⟨b, t, lists₁, _, lists₁, steps, after, gone, current, room, ?_, ?_, ?_, ?_,
      assigned.rotate⟩
    · simp only [OcpFw.addrTransWrite, low, ↓reduceIte, ← hu, findFreeVirtualSlice, targetIs,
        allocated, Option.bind_eq_bind, Option.bind_some, Option.some.injEq, Prod.mk.injEq]
      refine ⟨rfl, ?_⟩
      rw [assignPage, findDie_mapSlice]
      rfl
    all_goals
      unfold findDieForFreeSliceAllocation
      split <;> rfl
  · refine .inr ⟨?_, ?_, none, empty⟩
    · simp only [OcpFw.addrTransWrite, low, ↓reduceIte, ← hu, findFreeVirtualSlice, targetIs,
        failed, Option.bind_eq_bind, Option.bind_none]
    · rw [← same.currentPage, ← currentSame]
      exact full

end MappingOk

end OcpFw
