import Mathlib.Data.Nat.Count
import OcpFw.BlockLists

/-! The invariant of the mapping layer and the elementary changes a write makes:
taking a block, popping a victim, dropping an old copy, handing out a page and
recycling an erased block. Every function of the layer is a sequence of these. -/
namespace OcpFw

/-! ### Counting -/

section Counting
variable {p q : Nat → Prop} [DecidablePred p] [DecidablePred q] {n k : Nat}

theorem count_congr (same : ∀ j < n, p j ↔ q j) : Nat.count p n = Nat.count q n :=
  le_antisymm (Nat.count_mono_left fun j low => (same j low).mp)
    (Nat.count_mono_left fun j low => (same j low).mpr)

/-- One more element below the bound has the property. -/
private theorem count_gain (low : k < n) (before : ¬ p k) (after : q k)
    (others : ∀ j < n, j ≠ k → (p j ↔ q j)) : Nat.count q n = Nat.count p n + 1 := by
  induction n with
  | zero => omega
  | succ n ih =>
    rw [Nat.count_succ, Nat.count_succ]
    by_cases last : k = n
    · subst last
      have below : Nat.count p k = Nat.count q k :=
        count_congr fun j hj => others j (by omega) (by omega)
      rw [if_pos after, if_neg before, below]
    · have lower := ih (by omega) fun j hj => others j (by omega)
      simp only [others n (by omega) (Ne.symm last)]
      omega

end Counting

/-! ### The invariant -/

/-- No logical slice is mapped to this virtual one. -/
def Unmapped (g : Geometry) (s : Ftl) (virtualSliceAddr : Nat) : Prop :=
  ∀ lsa < g.slicesPerSsd, s.logicalSlice lsa ≠ virtualSliceAddr

instance (g : Geometry) (s : Ftl) : DecidablePred (Unmapped g s) := fun vsa =>
  inferInstanceAs (Decidable (∀ lsa < g.slicesPerSsd, s.logicalSlice lsa ≠ vsa))

/-- How many of the first `pages` pages of a block no logical slice is mapped to. -/
def unmappedPages (g : Geometry) (s : Ftl) (dieNo blockNo pages : Nat) : Nat :=
  Nat.count (fun p => Unmapped g s (vorg2VsaTranslation g dieNo blockNo p)) pages

/-- A mapped logical slice is mapped back, from a written page of a usable block. -/
structure Mapped (g : Geometry) (s : Ftl) (lsa vsa : Nat) : Prop where
  lsa_lt : lsa < g.slicesPerSsd
  vsa_lt : vsa < g.slicesPerSsd
  inverse : s.virtualSlice vsa = lsa
  usable : (s.die (vsa2VdieTranslation g vsa)).Usable g (vsa2VblockTranslation g vsa)
  written : vsa2VpageTranslation g vsa <
    s.currentPage (vsa2VdieTranslation g vsa) (vsa2VblockTranslation g vsa)

/-- The invariant of one die. Blocks other than the current one are full or free, and
the invalid slices of a block are counted exactly. During a garbage collection the
pages still to be copied fit behind the current page, or a free block is left for them. -/
structure DieOk (g : Geometry) (s : Ftl) (dieNo : Nat) (lists : BlockList → List Nat)
    (popped : Option Nat) : Prop where
  blockLists : BlockLists g (s.die dieNo) lists popped
  currentUsable : (s.die dieNo).Usable g (s.die dieNo).currentBlock
  currentNotFree : (s.die dieNo).currentBlock ∉ lists .free
  pages : ∀ b, s.currentPage dieNo b ≤ g.slicesPerBlock
  full : ∀ b, (s.die dieNo).Usable g b → b ∉ lists .free → b ≠ (s.die dieNo).currentBlock →
    s.currentPage dieNo b = g.slicesPerBlock
  poppedFull : ∀ b, popped = some b → s.currentPage dieNo b = g.slicesPerBlock
  exactCount : ∀ b, (s.die dieNo).Usable g b → popped ≠ some b →
    ((s.die dieNo).block b).invalidSliceCnt = unmappedPages g s dieNo b (s.currentPage dieNo b)
  reserve : popped = none → lists .free ≠ []
  copyRoom : ∀ b, popped = some b →
    ((s.die dieNo).currentBlock = b ∨
        s.currentPage dieNo (s.die dieNo).currentBlock = g.slicesPerBlock) ∧
      lists .free ≠ [] ∧ 0 < unmappedPages g s dieNo b g.slicesPerBlock ∨
    (s.die dieNo).currentBlock ≠ b ∧
      s.currentPage dieNo (s.die dieNo).currentBlock < unmappedPages g s dieNo b g.slicesPerBlock

/-- The invariant of the mapping layer. -/
structure MappingOk (g : Geometry) (s : Ftl) (lists : Nat → BlockList → List Nat)
    (popped : Nat → Option Nat) : Prop where
  die : ∀ dieNo < g.userDies, DieOk g s dieNo (lists dieNo) (popped dieNo)
  mapped : ∀ lsa, s.logicalSlice lsa ≠ vsaNone → Mapped g s lsa (s.logicalSlice lsa)
  targetDie : s.sliceAllocationTargetDie < g.userDies
  targetCh : s.targetCh < g.userChannels
  targetWay : s.targetWay < g.userWays

/-- No die has a popped victim: the state between two writes. -/
def noneOut : Nat → Option Nat := fun _ => none

variable {g : Geometry} {s s' : Ftl} {dieNo b pageNo lsa vsa : Nat} {popped : Nat → Option Nat}
  {lists : Nat → BlockList → List Nat}

@[simp] theorem setDie_die (d : VirtualDie) (n : Nat) :
    (s.setDie dieNo d).die n = if n = dieNo then d else s.die n := by
  simp [Ftl.setDie, Function.update_apply]

theorem unmappedPages_le : unmappedPages g s dieNo b n ≤ n := Nat.count_le ..

theorem unmappedPages_congr
    (same : ∀ p < n, Unmapped g s' (vorg2VsaTranslation g dieNo b p) ↔
      Unmapped g s (vorg2VsaTranslation g dieNo b p)) :
    unmappedPages g s' dieNo b n = unmappedPages g s dieNo b n :=
  count_congr same

theorem Mapped.vorg (mapped : Mapped g s lsa vsa) :
    ∃ dieNo b p, vsa = vorg2VsaTranslation g dieNo b p ∧ dieNo < g.userDies ∧
      p < g.slicesPerBlock ∧ (s.die dieNo).Usable g b ∧ p < s.currentPage dieNo b :=
  ⟨_, _, _, vorg_of_vsa.symm, vdie_lt, vpage_lt, mapped.usable, mapped.written⟩

/-- A mapping stays good while its page stays written and mapped back. -/
theorem Mapped.kept (mapped : Mapped g s lsa vsa) (back : s'.virtualSlice vsa = s.virtualSlice vsa)
    (usable : (s.die (vsa2VdieTranslation g vsa)).Usable g (vsa2VblockTranslation g vsa) →
      (s'.die (vsa2VdieTranslation g vsa)).Usable g (vsa2VblockTranslation g vsa))
    (pages : s.currentPage (vsa2VdieTranslation g vsa) (vsa2VblockTranslation g vsa) ≤
      s'.currentPage (vsa2VdieTranslation g vsa) (vsa2VblockTranslation g vsa)) : Mapped g s' lsa vsa :=
  ⟨mapped.lsa_lt, mapped.vsa_lt, back.trans mapped.inverse, usable mapped.usable,
    Nat.lt_of_lt_of_le mapped.written pages⟩

theorem ne_vsaNone (low : vsa < g.slicesPerSsd) : vsa ≠ vsaNone := by
  have fits := g.ssd_fit
  have bound : vsa < vsaNone := Nat.lt_of_lt_of_le low fits
  omega

theorem vorg_ne_vsaNone (die : dieNo < g.userDies) (usable : (s.die dieNo).Usable g b)
    (page : pageNo < g.slicesPerBlock) : vorg2VsaTranslation g dieNo b pageNo ≠ vsaNone :=
  ne_vsaNone (vorg_lt die usable.1 page)

namespace MappingOk

/-- A virtual slice has at most one logical slice. -/
theorem mapped_unique (ok : MappingOk g s lists popped) (real : vsa ≠ vsaNone)
    (first : s.logicalSlice x = vsa) (second : s.logicalSlice y = vsa) : x = y := by
  have hx := (ok.mapped x (first ▸ real)).inverse
  have hy := (ok.mapped y (second ▸ real)).inverse
  rw [first] at hx
  rw [second] at hy
  exact hx.symm.trans hy

/-- Nobody is mapped to a page that has not been handed out. -/
theorem fresh_page (ok : MappingOk g s lists popped) (die : dieNo < g.userDies)
    (unwritten : s.currentPage dieNo b ≤ p) (low : p < g.slicesPerBlock) (l : Nat)
    (some : s.logicalSlice l ≠ vsaNone) :
    s.logicalSlice l ≠ vorg2VsaTranslation g dieNo b p := by
  intro same
  have written := (ok.mapped l some).written
  rw [same, vdie_of_vorg die, vblock_of_vorg die low, vpage_of_vorg die low] at written
  omega

theorem unmapped_iff (ok : MappingOk g s lists popped) (real : vsa ≠ vsaNone) :
    Unmapped g s vsa ↔ ∀ lsa, s.logicalSlice lsa ≠ vsa := by
  constructor
  · intro unmapped lsa same
    exact unmapped lsa (ok.mapped lsa (same ▸ real)).lsa_lt same
  · exact fun none lsa _ => none lsa

/-- The test of the garbage collector finds exactly the pages somebody is mapped to. -/
theorem copied_iff (ok : MappingOk g s lists popped) (real : vsa ≠ vsaNone) :
    (s.virtualSlice vsa ≠ lsaNone ∧ s.logicalSlice (s.virtualSlice vsa) = vsa) ↔
      ¬ Unmapped g s vsa := by
  rw [ok.unmapped_iff real]
  push Not
  constructor
  · exact fun test => ⟨_, test.2⟩
  · rintro ⟨lsa, same⟩
    have mapped := ok.mapped lsa (same ▸ real)
    rw [same] at mapped
    refine ⟨?_, by rw [mapped.inverse, same]⟩
    rw [mapped.inverse]
    exact ne_vsaNone mapped.lsa_lt

end MappingOk

/-- The invariant of a die reads the die and which of its pages are mapped. -/
theorem DieOk.frame {lists : BlockList → List Nat} {popped : Option Nat}
    (ok : DieOk g s dieNo lists popped) (same : s'.die dieNo = s.die dieNo)
    (unmapped : ∀ b p, (s.die dieNo).Usable g b → p < g.slicesPerBlock →
      (Unmapped g s' (vorg2VsaTranslation g dieNo b p) ↔
        Unmapped g s (vorg2VsaTranslation g dieNo b p))) : DieOk g s' dieNo lists popped := by
  have samePage : ∀ b, s'.currentPage dieNo b = s.currentPage dieNo b := fun b => by
    rw [Ftl.currentPage, same, Ftl.currentPage]
  have count : ∀ b n, (s.die dieNo).Usable g b → n ≤ g.slicesPerBlock →
      unmappedPages g s' dieNo b n = unmappedPages g s dieNo b n := fun b n usable le =>
    unmappedPages_congr fun p low => unmapped b p usable (by omega)
  constructor
  · exact same ▸ ok.blockLists
  · exact same ▸ ok.currentUsable
  · exact same ▸ ok.currentNotFree
  · exact fun b => samePage b ▸ ok.pages b
  · intro b
    rw [same, samePage]
    exact ok.full b
  · exact fun b hp => (samePage b).trans (ok.poppedFull b hp)
  · intro b usable out
    rw [same] at usable ⊢
    rw [samePage, count b _ usable (ok.pages b)]
    exact ok.exactCount b usable out
  · exact ok.reserve
  · intro b out
    have usable := (ok.blockLists.unlisted b out).1
    rw [same, samePage, count b _ usable (Nat.le_refl _)]
    exact ok.copyRoom b out

/-- The same page counters, back map and requests: the lists of a die may have changed. -/
structure SamePages (s s' : Ftl) : Prop where
  virtualSlice : s'.virtualSlice = s.virtualSlice
  currentPage : ∀ dieNo b, s'.currentPage dieNo b = s.currentPage dieNo b
  bad : ∀ dieNo b, ((s'.die dieNo).block b).bad = ((s.die dieNo).block b).bad
  requests : s'.requests = s.requests
  target : s'.sliceAllocationTargetDie = s.sliceAllocationTargetDie ∧
    s'.targetCh = s.targetCh ∧ s'.targetWay = s.targetWay

theorem SamePages.usable (same : SamePages s s') :
    (s'.die dieNo).Usable g b ↔ (s.die dieNo).Usable g b := by
  rw [VirtualDie.Usable, VirtualDie.Usable, same.bad]

theorem SamePages.mapped (same : SamePages s s') (mapped : Mapped g s lsa vsa) : Mapped g s' lsa vsa :=
  mapped.kept (by rw [same.virtualSlice]) same.usable.mpr (by rw [same.currentPage])

/-- The same logical map as well. -/
structure SameMap (s s' : Ftl) : Prop extends SamePages s s' where
  logicalSlice : s'.logicalSlice = s.logicalSlice

namespace SameMap

theorem unmapped (same : SameMap s s') : Unmapped g s' vsa ↔ Unmapped g s vsa := by
  rw [Unmapped, Unmapped, same.logicalSlice]

theorem unmappedPages (same : SameMap s s') :
    unmappedPages g s' dieNo b n = unmappedPages g s dieNo b n :=
  unmappedPages_congr fun _ _ => same.unmapped

/-- Only one die has changed, and not the maps. -/
theorem mappingOk (same : SameMap s s') (ok : MappingOk g s lists popped)
    (away : ∀ d, d ≠ dieNo → s'.die d = s.die d) {l : BlockList → List Nat} {out : Option Nat}
    (here : DieOk g s' dieNo l out) :
    MappingOk g s' (Function.update lists dieNo l) (Function.update popped dieNo out) := by
  constructor
  · intro d hd
    by_cases same' : d = dieNo
    · subst same'
      simpa using here
    · rw [Function.update_of_ne same', Function.update_of_ne same']
      exact (ok.die d hd).frame (away d same') fun b p _ _ => same.unmapped
  · intro lsa real
    rw [same.logicalSlice] at real ⊢
    exact same.mapped (ok.mapped lsa real)
  · rw [same.target.1]
    exact ok.targetDie
  · rw [same.target.2.1]
    exact ok.targetCh
  · rw [same.target.2.2]
    exact ok.targetWay

end SameMap

/-! ### The elementary changes -/

namespace MappingOk

/-- A die switches to a fresh current block. Outside a garbage collection the free
list must keep its reserve. -/
theorem switchBlock {option : GetFreeBlock} (ok : MappingOk g s lists popped)
    (die : dieNo < g.userDies) (available : ¬ (s.die dieNo).NoFreeBlock option)
    (done : s.currentPage dieNo (s.die dieNo).currentBlock = g.slicesPerBlock ∨
      popped dieNo = some (s.die dieNo).currentBlock)
    (spare : popped dieNo = none → 1 < (lists dieNo .free).length) :
    ∃ b rest, lists dieNo .free = b :: rest ∧ (s.getFromFbList dieNo option).1 = b ∧
      b ≠ blockFail ∧ SameMap s ((s.getFromFbList dieNo option).2.setCurrentBlock dieNo b) ∧
      (((s.getFromFbList dieNo option).2.setCurrentBlock dieNo b).die dieNo).currentBlock = b ∧
      s.currentPage dieNo b = 0 ∧
      MappingOk g ((s.getFromFbList dieNo option).2.setCurrentBlock dieNo b)
        (Function.update lists dieNo (Function.update (lists dieNo) .free rest)) popped := by
  have here := ok.die dieNo die
  obtain ⟨b, rest, listed⟩ := here.blockLists.free_cons available
  have member : b ∈ lists dieNo .free := by simp [listed]
  have usable := here.blockLists.usable .free b member
  have taken := here.blockLists.getFromFbList available listed
  have shape := here.blockLists.getFromFbList_eq available listed
  have same : SameMap s ((s.getFromFbList dieNo option).2.setCurrentBlock dieNo b) := by
    refine ⟨⟨rfl, fun d x => ?_, fun d x => ?_, rfl, rfl, rfl, rfl⟩, rfl⟩ <;>
      by_cases hd : d = dieNo <;> by_cases hx : x = b <;>
      simp [Ftl.currentPage, Ftl.getFromFbList, Ftl.setCurrentBlock, shape, hd, hx]
  set next := (s.getFromFbList dieNo option).2.setCurrentBlock dieNo b with hnext
  have isCurrent : (next.die dieNo).currentBlock = b := by simp [hnext, Ftl.setCurrentBlock]
  have away : ∀ d, d ≠ dieNo → next.die d = s.die d := by
    intro d hd
    simp [hnext, Ftl.setCurrentBlock, Ftl.getFromFbList, hd]
  have notRest : b ∉ rest := by
    have nodup := here.blockLists.holds.nodup .free
    rw [listed] at nodup
    exact (List.nodup_cons.mp nodup).1
  have filled : ∀ x, (s.die dieNo).Usable g x → x ∉ rest → x ≠ b →
      s.currentPage dieNo x = g.slicesPerBlock := by
    intro x hu hx hb
    by_cases wasCurrent : x = (s.die dieNo).currentBlock
    · rw [wasCurrent]
      exact done.elim id fun isPopped => here.poppedFull _ isPopped
    · exact here.full x hu (by simp [listed, hx, hb]) wasCurrent
  refine ⟨b, rest, listed, by simp [Ftl.getFromFbList, shape], BlockLists.ne_blockNone usable, same,
    isCurrent, (here.blockLists.clean b member).1, ?_⟩
  have now : DieOk g next dieNo (Function.update (lists dieNo) .free rest) (popped dieNo) := by
    constructor
    · refine taken.frame ?_ ?_ (fun x => ?_) fun x hx => ?_ <;>
        simp only [hnext, Ftl.setCurrentBlock, Ftl.getFromFbList, setDie_die, ↓reduceIte, and_self]
      exact (taken.clean x hx).1
    · rw [isCurrent]
      exact same.usable.mpr usable
    · rw [isCurrent]
      simpa using notRest
    · intro x
      rw [same.currentPage]
      exact here.pages x
    · intro x hu hx hb
      rw [isCurrent] at hb
      rw [same.currentPage]
      exact filled x (same.usable.mp hu) (by simpa using hx) hb
    · intro x out
      rw [same.currentPage]
      exact here.poppedFull x out
    · intro x hu out
      have count : ((next.die dieNo).block x).invalidSliceCnt =
          ((s.die dieNo).block x).invalidSliceCnt := by
        by_cases hx : x = b <;>
          simp [hnext, Ftl.setCurrentBlock, Ftl.getFromFbList, shape, hx]
      rw [count, same.unmappedPages, same.currentPage]
      exact here.exactCount x (same.usable.mp hu) out
    · intro out
      have room := spare out
      rw [listed, List.length_cons] at room
      rw [Function.update_self]
      exact List.ne_nil_of_length_pos (by omega)
    · intro v out
      have blank : s.currentPage dieNo b = 0 := (here.blockLists.clean b member).1
      rw [isCurrent, same.currentPage, same.unmappedPages, blank]
      have notVictim : b ≠ v := fun hv =>
        (here.blockLists.unlisted v out).2 .free (hv ▸ member)
      refine .inr ⟨notVictim, ?_⟩
      rcases here.copyRoom v out with ⟨-, -, some⟩ | ⟨notCurrent, room⟩
      · exact some
      · omega
  have result := same.mappingOk ok away now
  rwa [Function.update_eq_self] at result

/-- Garbage collection starts: the current block is full and a victim is popped. -/
theorem popVictim (ok : MappingOk g s lists popped) (die : dieNo < g.userDies)
    (idle : popped dieNo = none)
    (done : s.currentPage dieNo (s.die dieNo).currentBlock = g.slicesPerBlock)
    (taken : (s.die dieNo).getFromGcVictimList g = some (b, d)) :
    ∃ i rest, lists dieNo (.victim i) = b :: rest ∧
      (s.die dieNo).findVictimList g.slicesPerBlock = some i ∧ SameMap s (s.setDie dieNo d) ∧
      d.currentBlock = (s.die dieNo).currentBlock ∧ (d.block b).invalidSliceCnt = i ∧
      MappingOk g (s.setDie dieNo d)
        (Function.update lists dieNo (Function.update (lists dieNo) (.victim i) rest))
        (Function.update popped dieNo (some b)) := by
  have here := ok.die dieNo die
  rw [idle] at here
  obtain ⟨i, rest, listed, found, rfl, after⟩ := here.blockLists.getFromGcVictimList taken
  have member : b ∈ lists dieNo (.victim i) := by simp [listed]
  obtain ⟨positive, -, counted⟩ := here.blockLists.indexed i b member
  have usable := here.blockLists.usable _ b member
  have notFree : b ∉ lists dieNo .free := fun other =>
    absurd (here.blockLists.holds.disjoint _ _ b other member) (by simp)
  have filled : s.currentPage dieNo b = g.slicesPerBlock := by
    by_cases current : b = (s.die dieNo).currentBlock
    · rw [current]
      exact done
    · exact here.full b usable notFree current
  set next := s.setDie dieNo _ with hnext
  have same : SameMap s next := by
    refine ⟨⟨rfl, fun d x => ?_, fun d x => ?_, rfl, rfl, rfl, rfl⟩, rfl⟩ <;>
      by_cases hd : d = dieNo <;> simp [hnext, Ftl.currentPage, hd]
  have away : ∀ d, d ≠ dieNo → next.die d = s.die d := fun d hd => by simp [hnext, hd]
  have nextDie : next.die dieNo = { s.die dieNo with
      lists := (s.die dieNo).lists.popFront blockNone (.victim i) } := by simp [hnext]
  refine ⟨i, rest, listed, found, same, rfl, counted, same.mappingOk ok away ?_⟩
  constructor
  · rw [nextDie]
    exact after
  · rw [nextDie]
    exact here.currentUsable
  · rw [nextDie]
    simpa using here.currentNotFree
  · intro x
    rw [same.currentPage]
    exact here.pages x
  · intro x hu hx hb
    rw [nextDie] at hu hb
    rw [same.currentPage]
    exact here.full x hu (by simpa using hx) hb
  · intro x out
    cases out
    rw [same.currentPage, filled]
  · intro x hu out
    rw [same.currentPage, same.unmappedPages, nextDie]
    rw [nextDie] at hu
    exact here.exactCount x hu (by simp)
  · simp
  · intro v out
    cases out
    refine .inl ⟨.inr ?_, ?_, ?_⟩
    · rw [same.currentPage, nextDie]
      exact done
    · simpa using here.reserve rfl
    · have exactly := here.exactCount b usable (by simp)
      rw [filled, counted] at exactly
      rw [same.unmappedPages]
      omega

/-- Remapping one logical slice frees its old virtual slice and takes the new one. -/
theorem unmapped_update (ok : MappingOk g s lists popped) (low : lsa < g.slicesPerSsd)
    (real : vsa ≠ vsaNone) (map : s'.logicalSlice = Function.update s.logicalSlice lsa new) :
    Unmapped g s' vsa ↔ (Unmapped g s vsa ∨ s.logicalSlice lsa = vsa) ∧ new ≠ vsa := by
  have here : s'.logicalSlice lsa = new := by simp [map]
  have others : ∀ l, l ≠ lsa → s'.logicalSlice l = s.logicalSlice l := fun l hl => by
    simp [map, hl]
  constructor
  · intro unmapped
    refine ⟨or_iff_not_imp_right.mpr fun old l hl => ?_, here ▸ unmapped lsa low⟩
    by_cases hlsa : l = lsa
    · exact hlsa ▸ old
    · exact others l hlsa ▸ unmapped l hl
  · rintro ⟨before, notNew⟩ l hl
    by_cases hlsa : l = lsa
    · rw [hlsa, here]
      exact notNew
    · rw [others l hlsa]
      rcases before with unmapped | old
      · exact unmapped l hl
      · exact fun same => hlsa (ok.mapped_unique real same old)

/-- For the other virtual slices nothing changes. -/
theorem unmapped_others (ok : MappingOk g s lists popped) (low : lsa < g.slicesPerSsd)
    (real : vsa ≠ vsaNone) (map : s'.logicalSlice = Function.update s.logicalSlice lsa new)
    (notNew : new ≠ vsa) (notOld : s.logicalSlice lsa ≠ vsa) : Unmapped g s' vsa ↔ Unmapped g s vsa := by
  rw [ok.unmapped_update low real map]
  simp [notNew, notOld]

/-- The block a logical slice leaves has one more unmapped page. -/
theorem unmappedPages_left (ok : MappingOk g s lists popped) (low : lsa < g.slicesPerSsd)
    (die : dieNo < g.userDies) (usable : (s.die dieNo).Usable g b) (fits : n ≤ g.slicesPerBlock)
    (below : pageNo < n) (old : s.logicalSlice lsa = vorg2VsaTranslation g dieNo b pageNo)
    (map : s'.logicalSlice = Function.update s.logicalSlice lsa new)
    (left : ∀ p < n, new ≠ vorg2VsaTranslation g dieNo b p) :
    unmappedPages g s' dieNo b n = unmappedPages g s dieNo b n + 1 := by
  have page : pageNo < g.slicesPerBlock := by omega
  refine count_gain below ?_ ?_ fun p hp diff => ?_
  · exact fun none => none lsa low old
  · rw [ok.unmapped_update low (vorg_ne_vsaNone die usable page) map]
    exact ⟨.inr old, left pageNo below⟩
  · have real : vorg2VsaTranslation g dieNo b p ≠ vsaNone := vorg_ne_vsaNone die usable (by omega)
    have notOld : s.logicalSlice lsa ≠ vorg2VsaTranslation g dieNo b p := fun same =>
      diff (vorg_inj die page die (by omega) (old.symm.trans same)).2.2.symm
    exact (ok.unmapped_others low real map (left p hp) notOld).symm

/-- A mapped page keeps its block's count below the number of its written pages. -/
theorem invalid_lt (ok : MappingOk g s lists noneOut) (real : s.logicalSlice lsa = vsa)
    (some : vsa ≠ vsaNone) :
    ((s.die (vsa2VdieTranslation g vsa)).block (vsa2VblockTranslation g vsa)).invalidSliceCnt <
      s.currentPage (vsa2VdieTranslation g vsa) (vsa2VblockTranslation g vsa) := by
  have mapped := ok.mapped lsa (real ▸ some)
  rw [real] at mapped
  have here := ok.die _ (@vdie_lt g vsa)
  rw [here.exactCount _ mapped.usable (by simp [noneOut])]
  refine lt_of_le_of_ne unmappedPages_le fun all => ?_
  have unmapped := Nat.count_iff_forall.mp all _ mapped.written
  rw [vorg_of_vsa] at unmapped
  exact unmapped lsa mapped.lsa_lt real

section Invalidate
variable (ok : MappingOk g s lists noneOut) (real : s.logicalSlice lsa = vsa) (some : vsa ≠ vsaNone)
include ok real some

theorem invalidateOldVsa_eq : invalidateOldVsa g s lsa =
    { s.setDie (vsa2VdieTranslation g vsa)
        ((s.die (vsa2VdieTranslation g vsa)).invalidateSlice (vsa2VblockTranslation g vsa)) with
      logicalSlice := Function.update s.logicalSlice lsa vsaNone } := by
  have mapped := ok.mapped lsa (real ▸ some)
  rw [real] at mapped
  simp only [invalidateOldVsa, real, some, mapped.inverse, ne_eq, not_false_eq_true, not_true_eq_false,
    ↓reduceIte]

theorem invalidateOldVsa_samePages : SamePages s (invalidateOldVsa g s lsa) := by
  rw [ok.invalidateOldVsa_eq real some]
  refine ⟨rfl, fun d x => ?_, fun d x => ?_, rfl, rfl, rfl, rfl⟩ <;>
    by_cases hd : d = vsa2VdieTranslation g vsa <;> by_cases hx : x = vsa2VblockTranslation g vsa <;>
    simp [Ftl.currentPage, hd, hx]

theorem invalidateOldVsa_map :
    (invalidateOldVsa g s lsa).logicalSlice = Function.update s.logicalSlice lsa vsaNone := by
  rw [ok.invalidateOldVsa_eq real some]

theorem invalidateOldVsa_unmapped (low : x ≠ vsaNone) (diff : x ≠ vsa) :
    Unmapped g (invalidateOldVsa g s lsa) x ↔ Unmapped g s x :=
  ok.unmapped_others (ok.mapped lsa (real ▸ some)).lsa_lt low (ok.invalidateOldVsa_map real some) (Ne.symm low)
    (real.trans_ne (Ne.symm diff))

/-- The die of the old copy: its block moves to the next list. -/
theorem invalidateOldVsa_die (hd : vsa2VdieTranslation g vsa = dieNo) (hb : vsa2VblockTranslation g vsa = b) :
    DieOk g (invalidateOldVsa g s lsa) dieNo
      (demoted (lists dieNo) ((s.die dieNo).block b).invalidSliceCnt b) none := by
  have mapped := ok.mapped lsa (real ▸ some)
  rw [real] at mapped
  have die : dieNo < g.userDies := hd ▸ vdie_lt
  have room := ok.invalid_lt real some
  have usable := mapped.usable
  have written := mapped.written
  have shape := ok.invalidateOldVsa_eq real some
  have same := ok.invalidateOldVsa_samePages real some
  have map := ok.invalidateOldVsa_map real some
  have vsaIs : vorg2VsaTranslation g dieNo b (vsa2VpageTranslation g vsa) = vsa := by
    rw [← hd, ← hb, vorg_of_vsa]
  rw [hd, hb] at room usable written shape
  have here := ok.die dieNo die
  have notFree : b ∉ lists dieNo .free := by
    intro free
    have blank : s.currentPage dieNo b = 0 := (here.blockLists.clean b free).1
    omega
  have small := g.slices_fit
  have full := here.pages b
  have count : inc16 ((s.die dieNo).block b).invalidSliceCnt =
      ((s.die dieNo).block b).invalidSliceCnt + 1 := inc16_of_lt (by omega)
  set next := invalidateOldVsa g s lsa with hnext
  have nextDie : next.die dieNo = (s.die dieNo).invalidateSlice b := by simp [shape]
  have current : (next.die dieNo).currentBlock = (s.die dieNo).currentBlock := by simp [nextDie]
  have free : demoted (lists dieNo) ((s.die dieNo).block b).invalidSliceCnt b .free = lists dieNo .free := by
    simp [demoted]
  constructor
  · rw [nextDie]
    exact here.blockLists.invalidateSlice usable notFree (by omega)
  · rw [current]
    exact same.usable.mpr here.currentUsable
  · rw [current, free]
    exact here.currentNotFree
  · exact fun x => same.currentPage dieNo x ▸ here.pages x
  · intro x hu hx hc
    rw [same.currentPage]
    exact here.full x (same.usable.mp hu) (free ▸ hx) (current ▸ hc)
  · simp
  · intro x hu out
    have invalid : ((next.die dieNo).block x).invalidSliceCnt =
        ((s.die dieNo).block x).invalidSliceCnt + if x = b then 1 else 0 := by
      by_cases hx : x = b <;> simp [nextDie, count, hx]
    rw [invalid, same.currentPage, here.exactCount x (same.usable.mp hu) out]
    by_cases hx : x = b
    · subst hx
      rw [if_pos rfl]
      refine (ok.unmappedPages_left mapped.lsa_lt die usable full written (real.trans vsaIs.symm) map ?_).symm
      exact fun p hp => (vorg_ne_vsaNone die usable (by omega)).symm
    · have pages := here.pages x
      rw [if_neg hx, Nat.add_zero]
      refine (unmappedPages_congr fun p hp => ok.invalidateOldVsa_unmapped real some ?_ ?_).symm
      · exact vorg_ne_vsaNone die (same.usable.mp hu) (by omega)
      · rw [← vsaIs]
        exact fun same => hx (vorg_inj die (by omega) die vpage_lt same).2.1
  · exact fun _ => free ▸ here.reserve rfl
  · simp

/-- Dropping the old copy of a logical slice moves its block to the next list. -/
theorem invalidate (hd : vsa2VdieTranslation g vsa = dieNo) (hb : vsa2VblockTranslation g vsa = b) :
    invalidateOldVsa g s lsa = { s.setDie dieNo ((s.die dieNo).invalidateSlice b) with
        logicalSlice := Function.update s.logicalSlice lsa vsaNone } ∧
      SamePages s (invalidateOldVsa g s lsa) ∧
      MappingOk g (invalidateOldVsa g s lsa) (Function.update lists dieNo
        (demoted (lists dieNo) ((s.die dieNo).block b).invalidSliceCnt b)) noneOut := by
  have now := ok.invalidateOldVsa_die real some hd hb
  subst hd hb
  have shape := ok.invalidateOldVsa_eq real some
  have same := ok.invalidateOldVsa_samePages real some
  refine ⟨shape, same, ?_⟩
  constructor
  · intro d hd'
    by_cases hdie : d = vsa2VdieTranslation g vsa
    · subst hdie
      simpa [noneOut] using now
    · have away : (invalidateOldVsa g s lsa).die d = s.die d := by simp [shape, hdie]
      rw [Function.update_of_ne hdie]
      refine (ok.die d hd').frame away fun x p hu hp => ok.invalidateOldVsa_unmapped real some ?_ ?_
      · exact vorg_ne_vsaNone hd' hu hp
      · rintro rfl
        exact hdie (vdie_of_vorg hd').symm
  · intro l hl
    by_cases hlsa : l = lsa
    · simp [ok.invalidateOldVsa_map real some, hlsa] at hl
    · have same' : (invalidateOldVsa g s lsa).logicalSlice l = s.logicalSlice l := by
        simp [ok.invalidateOldVsa_map real some, hlsa]
      rw [same'] at hl ⊢
      exact same.mapped (ok.mapped l hl)
  · rw [same.target.1]
    exact ok.targetDie
  · rw [same.target.2.1]
    exact ok.targetCh
  · rw [same.target.2.2]
    exact ok.targetWay

end Invalidate

/-- The logged requests do not matter to the maps. -/
theorem withRequests (ok : MappingOk g s lists popped) (requests : List FlashReq) :
    MappingOk g { s with requests := requests } lists popped where
  die d hd := (ok.die d hd).frame rfl fun _ _ _ _ => Iff.rfl
  mapped lsa real := (ok.mapped lsa real).kept rfl id (Nat.le_refl _)
  targetDie := ok.targetDie
  targetCh := ok.targetCh
  targetWay := ok.targetWay

theorem issue (ok : MappingOk g s lists popped) (req : FlashReq) :
    MappingOk g (s.issue req) lists popped :=
  ok.withRequests _

end MappingOk

/-- Give the next page of a block to a logical slice. -/
def assignPage (g : Geometry) (s : Ftl) (dieNo blockNo lsa : Nat) : Ftl :=
  mapSlice (takePage g s dieNo blockNo).2 lsa (takePage g s dieNo blockNo).1

theorem takePage_fst :
    (takePage g s dieNo b).1 = vorg2VsaTranslation g dieNo b (s.currentPage dieNo b) := rfl

section Assign
variable (room : s.currentPage dieNo b < g.slicesPerBlock)
include room

theorem assignPage_block (lsa d x : Nat) :
    ((assignPage g s dieNo b lsa).die d).block x =
      { (s.die d).block x with
        currentPage := s.currentPage d x + if d = dieNo ∧ x = b then 1 else 0 } := by
  have small := g.slices_fit
  have next : inc16 ((s.die dieNo).block b).currentPage =
      ((s.die dieNo).block b).currentPage + 1 := inc16_of_lt (Nat.lt_of_lt_of_le room (by omega))
  by_cases hd : d = dieNo <;> by_cases hx : x = b
  · subst hd hx
    simp only [assignPage, mapSlice, takePage, setDie_die, ↓reduceIte, VirtualDie.setBlock,
      Function.update_self, and_self, next, Ftl.currentPage]
  all_goals simp [assignPage, mapSlice, takePage, VirtualDie.setBlock, Ftl.currentPage, hd, hx]

theorem assignPage_currentPage (lsa d x : Nat) :
    (assignPage g s dieNo b lsa).currentPage d x =
      s.currentPage d x + if d = dieNo ∧ x = b then 1 else 0 := by
  rw [Ftl.currentPage, assignPage_block room]

end Assign

namespace MappingOk

section Assign
variable (ok : MappingOk g s lists popped) (die : dieNo < g.userDies)
  (isCurrent : (s.die dieNo).currentBlock = b) (room : s.currentPage dieNo b < g.slicesPerBlock)
  (low : lsa < g.slicesPerSsd)
include ok die room low

/-- Two pages change hands: the new one and the one the slice leaves. -/
theorem assign_unmapped (hd : d < g.userDies) (usable : (s.die d).Usable g x) (page : pageNo < g.slicesPerBlock)
    (notNew : d = dieNo → x = b → pageNo ≠ s.currentPage dieNo b)
    (notOld : s.logicalSlice lsa ≠ vorg2VsaTranslation g d x pageNo) :
    Unmapped g (assignPage g s dieNo b lsa) (vorg2VsaTranslation g d x pageNo) ↔
      Unmapped g s (vorg2VsaTranslation g d x pageNo) := by
  apply ok.unmapped_others low (vorg_ne_vsaNone hd usable page) rfl ?_ notOld
  rw [takePage_fst]
  intro same
  obtain ⟨h₁, h₂, h₃⟩ := vorg_inj die room hd page same
  exact notNew h₁.symm h₂.symm h₃.symm

include isCurrent

/-- The slice is mapped to the new page, the others to where they were. -/
theorem assign_mapped (real : (assignPage g s dieNo b lsa).logicalSlice l ≠ vsaNone) :
    Mapped g (assignPage g s dieNo b lsa) l ((assignPage g s dieNo b lsa).logicalSlice l) := by
  have here := ok.die dieNo die
  have usable := isCurrent ▸ here.currentUsable
  have map : (assignPage g s dieNo b lsa).logicalSlice =
      Function.update s.logicalSlice lsa (vorg2VsaTranslation g dieNo b (s.currentPage dieNo b)) := rfl
  by_cases hlsa : l = lsa
  · subst hlsa
    rw [map, Function.update_self]
    refine ⟨low, vorg_lt die usable.1 room, ?_, ?_, ?_⟩
    · simp [assignPage, mapSlice, takePage_fst]
    · rw [vdie_of_vorg die, vblock_of_vorg die room, VirtualDie.Usable, assignPage_block room]
      exact usable
    · rw [vdie_of_vorg die, vblock_of_vorg die room, vpage_of_vorg die room, assignPage_currentPage room,
        if_pos ⟨rfl, rfl⟩]
      omega
  · have there : (assignPage g s dieNo b lsa).logicalSlice l = s.logicalSlice l := by simp [map, hlsa]
    rw [there] at real ⊢
    apply (ok.mapped l real).kept
    · exact Function.update_of_ne (ok.fresh_page die le_rfl room l real) ..
    · rw [VirtualDie.Usable, VirtualDie.Usable, assignPage_block room]
      exact id
    · rw [assignPage_currentPage room]
      exact Nat.le_add_right ..

/-- A page of the current block is used for every page copied from the victim. -/
theorem assign_room (out : popped dieNo = some v) (diff : v ≠ b) (below : pageNo < g.slicesPerBlock)
    (old : s.logicalSlice lsa = vorg2VsaTranslation g dieNo v pageNo) :
    s.currentPage dieNo b + 1 < unmappedPages g (assignPage g s dieNo b lsa) dieNo v g.slicesPerBlock := by
  have here := ok.die dieNo die
  have gained : unmappedPages g (assignPage g s dieNo b lsa) dieNo v g.slicesPerBlock =
      unmappedPages g s dieNo v g.slicesPerBlock + 1 :=
    ok.unmappedPages_left low die (here.blockLists.unlisted v out).1 (Nat.le_refl _) below old rfl
      fun p hp same => diff (vorg_inj die room die hp same).2.1.symm
  rcases here.copyRoom v out with ⟨same | full, -⟩ | ⟨-, behind⟩
  · exact absurd (same.symm.trans isCurrent) diff
  · rw [isCurrent] at full
    omega
  · rw [isCurrent] at behind
    omega

theorem assign_die (kept : popped dieNo ≠ some b)
    (source : popped dieNo = none ∧ s.logicalSlice lsa = vsaNone ∨
      ∃ v p, popped dieNo = some v ∧ p < g.slicesPerBlock ∧
        s.logicalSlice lsa = vorg2VsaTranslation g dieNo v p) :
    DieOk g (assignPage g s dieNo b lsa) dieNo (lists dieNo) (popped dieNo) := by
  set next := assignPage g s dieNo b lsa with hnext
  have here := ok.die dieNo die
  have usable := isCurrent ▸ here.currentUsable
  have notFree := isCurrent ▸ here.currentNotFree
  have map : next.logicalSlice =
      Function.update s.logicalSlice lsa (vorg2VsaTranslation g dieNo b (s.currentPage dieNo b)) := rfl
  have page : ∀ x, next.currentPage dieNo x = s.currentPage dieNo x + if dieNo = dieNo ∧ x = b then 1 else 0 :=
    fun x => assignPage_currentPage room lsa dieNo x
  have block : ∀ x, (next.die dieNo).block x = { (s.die dieNo).block x with
      currentPage := s.currentPage dieNo x + if dieNo = dieNo ∧ x = b then 1 else 0 } :=
    fun x => assignPage_block room lsa dieNo x
  have current : (next.die dieNo).currentBlock = b := by
    simp [hnext, assignPage, mapSlice, takePage, VirtualDie.setBlock, isCurrent]
  have notVictim : ∀ x, popped dieNo = some x → x ≠ b := fun x out same => kept (same ▸ out)
  have usableNow : ∀ x, (next.die dieNo).Usable g x ↔ (s.die dieNo).Usable g x := fun x => by
    rw [VirtualDie.Usable, VirtualDie.Usable, block]
  have unmapped : ∀ x p, (s.die dieNo).Usable g x → p < g.slicesPerBlock →
      (x = b → p ≠ s.currentPage dieNo b) → popped dieNo ≠ some x →
      (Unmapped g next (vorg2VsaTranslation g dieNo x p) ↔
        Unmapped g s (vorg2VsaTranslation g dieNo x p)) := by
    intro x p hx hp notNew notPopped
    apply ok.assign_unmapped die room low die hx hp (fun _ => notNew)
    rcases source with ⟨-, fresh⟩ | ⟨v, q, out, hq, old⟩
    · exact fresh ▸ (vorg_ne_vsaNone die hx hp).symm
    · intro same
      obtain ⟨-, rfl, -⟩ := vorg_inj die hq die hp (old.symm.trans same)
      exact notPopped out
  constructor
  · refine here.blockLists.frame ?_ ?_ (fun x => by rw [block]; exact ⟨rfl, rfl⟩) fun x hx => ?_
    · simp [hnext, assignPage, mapSlice, takePage, VirtualDie.setBlock]
    · simp [hnext, assignPage, mapSlice, takePage, VirtualDie.setBlock]
    · have diff : x ≠ b := fun same => notFree (same ▸ hx)
      have blank : s.currentPage dieNo x = 0 := (here.blockLists.clean x hx).1
      rw [block, if_neg fun both => diff both.2, blank]
  · rw [current]
    exact (usableNow b).mpr usable
  · rw [current]
    exact notFree
  · intro x
    have before := here.pages x
    rw [page]
    split
    · rename_i both
      rw [both.2]
      omega
    · omega
  · intro x hu hx hc
    rw [current] at hc
    rw [page, if_neg fun both => hc both.2]
    exact here.full x ((usableNow x).mp hu) hx (isCurrent ▸ hc)
  · intro x out
    rw [page, if_neg fun both => notVictim x out both.2]
    exact here.poppedFull x out
  · intro x hu out
    have before := here.exactCount x ((usableNow x).mp hu) out
    have bound := here.pages x
    rw [block, page, before]
    by_cases hx : x = b
    · subst hx
      rw [if_pos ⟨rfl, rfl⟩, unmappedPages, unmappedPages, Nat.count_succ, if_neg ?_]
      · exact count_congr fun p hp => (unmapped x p usable (by omega) (fun _ => by omega) out).symm
      · exact fun none => none lsa low (by simp [map])
    · rw [if_neg fun both => hx both.2]
      exact (unmappedPages_congr fun p hp => unmapped x p ((usableNow x).mp hu) (by omega)
        (fun same => absurd same hx) out).symm
  · exact here.reserve
  · intro v out
    have diff := notVictim v out
    rw [current, page, if_pos ⟨rfl, rfl⟩]
    rcases source with ⟨idle, -⟩ | ⟨v', q, out', hq, old⟩
    · rw [idle] at out
      cases out
    · rw [out] at out'
      cases out'
      exact .inr ⟨Ne.symm diff, ok.assign_room die isCurrent room low out diff hq old⟩

/-- Giving the next page of the current block to a logical slice that is mapped
nowhere, or into the victim being collected. -/
theorem assign (kept : popped dieNo ≠ some b)
    (source : popped dieNo = none ∧ s.logicalSlice lsa = vsaNone ∨
      ∃ v p, popped dieNo = some v ∧ p < g.slicesPerBlock ∧
        s.logicalSlice lsa = vorg2VsaTranslation g dieNo v p) :
    MappingOk g (assignPage g s dieNo b lsa) lists popped where
  die := by
    intro d hd
    by_cases hdie : d = dieNo
    · rw [hdie]
      exact ok.assign_die die isCurrent room low kept source
    · have away : (assignPage g s dieNo b lsa).die d = s.die d := by
        simp [assignPage, mapSlice, takePage, hdie]
      refine (ok.die d hd).frame away fun x p hu hp => ?_
      apply ok.assign_unmapped die room low hd hu hp (fun same => absurd same hdie)
      rcases source with ⟨-, fresh⟩ | ⟨v, q, -, hq, old⟩
      · exact fresh ▸ (vorg_ne_vsaNone hd hu hp).symm
      · exact fun same => hdie (vorg_inj die hq hd hp (old.symm.trans same)).1.symm
  mapped _ real := ok.assign_mapped die isCurrent room low real
  targetDie := ok.targetDie
  targetCh := ok.targetCh
  targetWay := ok.targetWay

end Assign

end MappingOk

theorem discardSlices_of_ne (apart : ∀ p < pages, x ≠ vorg2VsaTranslation g dieNo b p)
    (map : Nat → Nat) : discardSlices g dieNo b pages map x = map x := by
  unfold discardSlices
  induction pages with
  | zero => rfl
  | succ n ih =>
    rw [List.range_succ, List.foldl_append, List.foldl_cons, List.foldl_nil,
      Function.update_of_ne (apart n (by omega)), ih fun p hp => apart p (by omega)]

theorem discardSlices_page (map : Nat → Nat) {p : Nat} (low : p < pages) :
    discardSlices g dieNo b pages map (vorg2VsaTranslation g dieNo b p) = lsaNone := by
  unfold discardSlices
  induction pages with
  | zero => omega
  | succ n ih =>
    rw [List.range_succ, List.foldl_append, List.foldl_cons, List.foldl_nil, Function.update_apply]
    split
    · rfl
    · rename_i other
      have below : p ≠ n := fun last => other (last ▸ rfl)
      exact ih (by omega)

theorem eraseBlock_block (d x : Nat) : ((eraseBlock g s dieNo b).die d).block x =
    if d = dieNo ∧ x = b then
      { (s.die d).block x with
        free := true, eraseCnt := inc16 ((s.die d).block x).eraseCnt, invalidSliceCnt := 0,
        currentPage := 0 }
    else (s.die d).block x := by
  by_cases hd : d = dieNo <;> by_cases hx : x = b <;>
    simp [eraseBlock, Ftl.issue, VirtualDie.recycleBlock, VirtualDie.setBlock,
      VirtualDie.putToFbList, hd, hx]

theorem eraseBlock_currentPage (d x : Nat) : (eraseBlock g s dieNo b).currentPage d x =
    if d = dieNo ∧ x = b then 0 else s.currentPage d x := by
  rw [Ftl.currentPage, eraseBlock_block]
  split <;> rfl

namespace MappingOk

/-- Erasing a popped victim that holds no mapped page and is no longer current. -/
theorem erase (ok : MappingOk g s lists popped) (die : dieNo < g.userDies)
    (out : popped dieNo = some b) (moved : (s.die dieNo).currentBlock ≠ b)
    (empty : ∀ p < g.slicesPerBlock, Unmapped g s (vorg2VsaTranslation g dieNo b p)) :
    MappingOk g (eraseBlock g s dieNo b)
      (Function.update lists dieNo
        (Function.update (lists dieNo) .free (lists dieNo .free ++ [b])))
      (Function.update popped dieNo none) := by
  set next := eraseBlock g s dieNo b with hnext
  have here := ok.die dieNo die
  have block := fun d x => @eraseBlock_block g s dieNo b d x
  have page := fun d x => @eraseBlock_currentPage g s dieNo b d x
  have away : ∀ d, d ≠ dieNo → next.die d = s.die d := fun d hd => by
    simp [hnext, eraseBlock, Ftl.issue, hd]
  have nextDie : next.die dieNo = (s.die dieNo).recycleBlock b := by
    simp [hnext, eraseBlock, Ftl.issue]
  have current : (next.die dieNo).currentBlock = (s.die dieNo).currentBlock := by
    rw [nextDie]
    rfl
  have usable : ∀ d x, (next.die d).Usable g x ↔ (s.die d).Usable g x := fun d x => by
    rw [VirtualDie.Usable, VirtualDie.Usable, block]
    split <;> rfl
  have unmapped : ∀ x, Unmapped g next x ↔ Unmapped g s x := fun x => Iff.rfl
  have now : DieOk g next dieNo
      (Function.update (lists dieNo) .free (lists dieNo .free ++ [b])) none := by
    constructor
    · rw [nextDie]
      exact (out ▸ here.blockLists).recycleBlock
    · rw [current]
      exact (usable dieNo _).mpr here.currentUsable
    · rw [current]
      simpa [moved] using here.currentNotFree
    · intro x
      rw [page]
      split
      · omega
      · exact here.pages x
    · intro x hu hx hc
      have apart : x ∉ lists dieNo .free ∧ x ≠ b := by simpa using hx
      rw [page, if_neg fun both => apart.2 both.2]
      exact here.full x ((usable dieNo x).mp hu) apart.1 (current ▸ hc)
    · simp
    · intro x hu _
      rw [block, page]
      split
      · rfl
      · rename_i diff
        refine (here.exactCount x ((usable dieNo x).mp hu) ?_).trans
          (unmappedPages_congr fun p _ => unmapped _).symm
        rw [out]
        exact fun same => diff ⟨rfl, (Option.some.inj same).symm⟩
    · simp
    · simp
  constructor
  · intro d hd
    by_cases hdie : d = dieNo
    · subst hdie
      simpa using now
    · rw [Function.update_of_ne hdie, Function.update_of_ne hdie]
      exact (ok.die d hd).frame (away d hdie) fun x p _ _ => unmapped _
  · intro l hl
    have mapped := ok.mapped l hl
    obtain ⟨d, x, p, shape, hd, hp, hu, written⟩ := mapped.vorg
    have apart : ¬ (d = dieNo ∧ x = b) := by
      rintro ⟨rfl, rfl⟩
      exact empty p hp l mapped.lsa_lt shape
    have vsaNe : ∀ q < g.userPagesPerBlock,
        s.logicalSlice l ≠ vorg2VsaTranslation g dieNo b q := fun q hq same => by
      obtain ⟨h₁, h₂, -⟩ := vorg_inj hd hp die hq (shape.symm.trans same)
      exact apart ⟨h₁, h₂⟩
    apply mapped.kept (discardSlices_of_ne vsaNe s.virtualSlice) (usable _ _).mpr
    rw [shape, vdie_of_vorg hd, vblock_of_vorg hd hp, page, if_neg apart]
  · exact ok.targetDie
  · exact ok.targetCh
  · exact ok.targetWay

/-- Advancing the round robin over the dies. -/
theorem rotate (ok : MappingOk g s lists popped) :
    MappingOk g
      { (findDieForFreeSliceAllocation g s).2 with
        sliceAllocationTargetDie := (findDieForFreeSliceAllocation g s).1 } lists popped := by
  have target : pcw2VdieTranslation g s.targetCh s.targetWay < g.userDies := by
    have ch := ok.targetCh
    have way := ok.targetWay
    calc s.targetCh + s.targetWay * g.userChannels
        < (s.targetWay + 1) * g.userChannels := by rw [Nat.succ_mul]; omega
      _ ≤ g.userWays * g.userChannels := Nat.mul_le_mul_right _ way
      _ = g.userDies := Nat.mul_comm ..
  have ch := ok.targetCh
  have chPos := g.channels_pos
  have shape : ∀ t : Ftl, t.die = s.die → t.logicalSlice = s.logicalSlice →
      t.virtualSlice = s.virtualSlice → t.sliceAllocationTargetDie < g.userDies →
      t.targetCh < g.userChannels → t.targetWay < g.userWays → MappingOk g t lists popped := by
    intro t die logical virtual h₁ h₂ h₃
    refine ⟨fun d hd => (ok.die d hd).frame (by rw [die]) fun x p _ _ => ?_, fun l hl => ?_,
      h₁, h₂, h₃⟩
    · rw [Unmapped, Unmapped, logical]
    · rw [logical] at hl ⊢
      exact (ok.mapped l hl).kept (by rw [virtual]) (by rw [die]; exact id)
        (by rw [Ftl.currentPage, Ftl.currentPage, die])
  unfold findDieForFreeSliceAllocation
  split
  · exact shape _ rfl rfl rfl target (by simp only; omega) ok.targetWay
  · exact shape _ rfl rfl rfl target chPos (Nat.mod_lt _ g.ways_pos)

end MappingOk

end OcpFw
