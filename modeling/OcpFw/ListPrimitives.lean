import Mathlib.Data.List.Perm.Subperm
import OcpFw.AddressTranslation

/-! The primitives on the lists of one die, whatever the other fields of its blocks are. All
the lists share the two links of a block, and a victim keeps its links until it is free again. -/
namespace OcpFw

/-- The links of the die represent the lists. Stale blocks are those whose links are left open
while they are in no list: victims that are not free yet, and numbers of no block. -/
structure ListsWellFormed (g : Geometry) (d : VirtualDie) (lists : BlockList → List Nat) (stale : Set Nat) : Prop where
  tidy : Dll.Tidy blockNone d.lists lists stale
  real : ∀ k, ∀ b ∈ lists k, b < g.userBlocksPerDie
  indexed : ∀ i, lists (.victim i) ≠ [] → 0 < i ∧ i ≤ g.slicesPerBlock

/-- The lists after one more slice of a block has become invalid. -/
def demoted (lists : BlockList → List Nat) (invalidSliceCnt blockNo : Nat) : BlockList → List Nat :=
  Function.update
    (Function.update lists (.victim invalidSliceCnt) ((lists (.victim invalidSliceCnt)).erase blockNo))
    (.victim (invalidSliceCnt + 1)) (lists (.victim (invalidSliceCnt + 1)) ++ [blockNo])

variable {g : Geometry} {d d' : VirtualDie} {lists : BlockList → List Nat} {stale stale' : Set Nat}
  {b i : Nat} {rest : List Nat} {option : GetFreeBlock}

/-- The scan finds the non-empty list with the largest index. -/
theorem VirtualDie.findVictimList_eq_some (h : Dll.Holds blockNone d.lists lists)
    (found : d.findVictimList top = some i) :
    i ≤ top ∧ lists (.victim i) ≠ [] ∧ ∀ j, i < j → j ≤ top → lists (.victim j) = [] := by
  induction top with
  | zero => simp [VirtualDie.findVictimList] at found
  | succ top ih =>
    simp only [VirtualDie.findVictimList] at found
    split at found
    · rename_i filled
      cases found
      refine ⟨by omega, fun empty => filled (h.head_eq_nil.mpr empty), by omega⟩
    · rename_i empty
      obtain ⟨le, filled, above⟩ := ih found
      refine ⟨by omega, filled, fun j low high => ?_⟩
      by_cases last : j = top + 1
      · subst last
        exact h.head_eq_nil.mp (by simpa using empty)
      · exact above j low (by omega)

/-- The scan fails only where every list it looks at is empty. -/
theorem VirtualDie.findVictimList_eq_none (h : Dll.Holds blockNone d.lists lists)
    (failed : d.findVictimList top = none) : ∀ i, 0 < i → i ≤ top → lists (.victim i) = [] := by
  induction top with
  | zero => exact fun i low high => absurd low (by omega)
  | succ top ih =>
    simp only [VirtualDie.findVictimList] at failed
    split at failed
    · cases failed
    · rename_i empty
      intro i low high
      by_cases last : i = top + 1
      · subst last
        exact h.head_eq_nil.mp (by simpa using empty)
      · exact ih failed i low (by omega)

/-- A failed request for a free block changes nothing. -/
theorem VirtualDie.getFromFbList_none (none : d.NoFreeBlock option) : d.getFromFbList option = (blockFail, d) := by
  simp [VirtualDie.getFromFbList, none]

namespace ListsWellFormed

theorem ne_blockNone (real : b < g.userBlocksPerDie) : b ≠ blockNone := by
  have fits := g.blocks_fit
  omega

theorem mono (h : ListsWellFormed g d lists stale) (sub : stale ⊆ stale') : ListsWellFormed g d lists stale' :=
  ⟨h.tidy.mono sub, h.real, h.indexed⟩

/-- One list is replaced. -/
theorem update {k : BlockList} {l : List Nat} (h : ListsWellFormed g d lists stale)
    (tidy : Dll.Tidy blockNone d'.lists (Function.update lists k l) stale') (real : ∀ b ∈ l, b < g.userBlocksPerDie)
    (indexed : ∀ i, k = .victim i → l ≠ [] → 0 < i ∧ i ≤ g.slicesPerBlock) :
    ListsWellFormed g d' (Function.update lists k l) stale' where
  tidy := tidy
  real k' b member := by
    by_cases same : k' = k
    · subst same
      exact real b (by simpa using member)
    · exact h.real k' b (by simpa [same] using member)
  indexed i some := by
    by_cases same : .victim i = k
    · subst same
      exact indexed i rfl (by simpa using some)
    · exact h.indexed i (by simpa [same] using some)

/-! ### The free list -/

theorem putToFbList (h : ListsWellFormed g d lists stale) (real : b < g.userBlocksPerDie) (out : ∀ k, b ∉ lists k) :
    ListsWellFormed g (d.putToFbList b) (Function.update lists .free (lists .free ++ [b])) (stale \ {b}) := by
  refine h.update (h.tidy.pushBack (ne_blockNone real) out) ?_ (by simp)
  intro x member
  rcases List.mem_append.mp member with member | last
  · exact h.real .free x member
  · exact List.mem_singleton.mp last ▸ real

theorem getFromFbList (h : ListsWellFormed g d lists stale) (some : ¬ d.NoFreeBlock option)
    (listed : lists .free = b :: rest) :
    (d.getFromFbList option).1 = b ∧
      ListsWellFormed g (d.getFromFbList option).2 (Function.update lists .free rest) stale := by
  have first : d.lists.head .free = b := h.tidy.head_cons listed
  have notRest : b ∉ rest := by
    have nodup := h.tidy.nodup .free
    rw [listed] at nodup
    exact (List.nodup_cons.mp nodup).1
  have gone : ∀ k, b ∉ Function.update lists .free rest k := by
    intro k
    by_cases free : k = .free
    · simpa [free] using notRest
    · simpa [free] using fun other => free (h.tidy.disjoint k .free b other (by simp [listed]))
  have cleared : Dll.Tidy blockNone _ _ stale := ((h.tidy.popFront listed).clear gone).mono (by simp)
  simp only [VirtualDie.getFromFbList, some, ↓reduceIte, first]
  refine ⟨trivial, h.update cleared ?_ (by simp)⟩
  exact fun x member => h.real .free x (by simp [listed, member])

/-! ### The lists of victims -/

theorem victim_zero (h : ListsWellFormed g d lists stale) : lists (.victim 0) = [] := by
  by_contra some
  exact absurd (h.indexed 0 some).1 (Nat.lt_irrefl 0)

/-- The victim is the oldest block of the last list with a block, and keeps its links. -/
theorem getFromGcVictimList (h : ListsWellFormed g d lists stale) (taken : d.getFromGcVictimList g = some (b, d')) :
    ∃ i rest, lists (.victim i) = b :: rest ∧ (∀ j, i < j → lists (.victim j) = []) ∧
      d'.lists.prev b = d.lists.prev b ∧ d'.lists.next b = d.lists.next b ∧
      d.findVictimList g.slicesPerBlock = some i ∧
      d' = { d with lists := d.lists.popFront blockNone (.victim i) } ∧
      ListsWellFormed g d' (Function.update lists (.victim i) rest) (insert b stale) := by
  simp only [VirtualDie.getFromGcVictimList, Option.bind_eq_bind, Option.bind_eq_some_iff, Option.some.injEq,
    Prod.mk.injEq] at taken
  obtain ⟨i, found, first, rfl⟩ := taken
  obtain ⟨-, filled, above⟩ := VirtualDie.findVictimList_eq_some h.tidy.toHolds found
  obtain ⟨x, rest, listed⟩ := List.exists_cons_of_ne_nil filled
  rw [h.tidy.head_cons listed] at first
  subst first
  have links := h.tidy.popFront_links_self listed
  refine ⟨i, rest, listed, fun j later => ?_, links.1, links.2, found, rfl, h.update (h.tidy.popFront listed) ?_ ?_⟩
  · by_contra some
    exact some (above j later (h.indexed j some).2)
  · exact fun y member => h.real (.victim i) y (by simp [listed, member])
  · rintro j same -
    cases same
    exact h.indexed i filled

theorem getFromGcVictimList_eq_none (h : ListsWellFormed g d lists stale) :
    d.getFromGcVictimList g = none ↔ ∀ i, lists (.victim i) = [] := by
  constructor
  · intro failed i
    by_contra some
    obtain ⟨positive, low⟩ := h.indexed i some
    have none : d.findVictimList g.slicesPerBlock = none := by
      simpa [VirtualDie.getFromGcVictimList, ← Option.eq_none_iff_forall_ne_some] using failed
    exact some (VirtualDie.findVictimList_eq_none h.tidy.toHolds none i positive low)
  · intro empty
    cases found : d.findVictimList g.slicesPerBlock with
    | none => simp [VirtualDie.getFromGcVictimList, found]
    | some i => exact absurd (empty i) (VirtualDie.findVictimList_eq_some h.tidy.toHolds found).2.1

/-- Where a block has to be before one more of its slices becomes invalid. -/
def Placed (d : VirtualDie) (lists : BlockList → List Nat) (stale : Set Nat) (b : Nat) : Prop :=
  if 0 < (d.block b).invalidSliceCnt then b ∈ lists (.victim (d.block b).invalidSliceCnt)
  else (∀ k, b ∉ lists k) ∧ b ∉ stale

theorem selectiveGetFromGcVictimList (h : ListsWellFormed g d lists stale) (placed : Placed d lists stale b) :
    ListsWellFormed g (d.selectiveGetFromGcVictimList b)
      (Function.update lists (.victim (d.block b).invalidSliceCnt)
        ((lists (.victim (d.block b).invalidSliceCnt)).erase b)) (insert b stale) := by
  unfold Placed at placed
  split at placed
  · refine h.update (h.tidy.remove placed) ?_ ?_
    · exact fun x member => h.real _ x (List.mem_of_mem_erase member)
    · rintro i same -
      cases same
      exact h.indexed _ (List.ne_nil_of_mem placed)
  · rename_i none
    obtain ⟨out, fresh⟩ := placed
    obtain ⟨noPrev, noNext⟩ := h.tidy.detached b out fresh
    have zero : (d.block b).invalidSliceCnt = 0 := by omega
    have still : d.selectiveGetFromGcVictimList b = d := by
      rw [VirtualDie.selectiveGetFromGcVictimList, zero, h.tidy.remove_detached h.victim_zero noPrev noNext]
    have same : Function.update lists (.victim 0) ((lists (.victim 0)).erase b) = lists := by
      rw [Function.update_eq_self_iff, h.victim_zero]
      rfl
    rw [still, zero, same]
    exact h.mono (Set.subset_insert b stale)

theorem invalidateSlice (h : ListsWellFormed g d lists stale) (real : b < g.userBlocksPerDie)
    (placed : Placed d lists stale b) (room : (d.block b).invalidSliceCnt < g.slicesPerBlock) :
    ListsWellFormed g (d.invalidateSlice b) (demoted lists (d.block b).invalidSliceCnt b) stale := by
  have unlinked := h.selectiveGetFromGcVictimList placed
  have out : ∀ k, b ∉ Function.update lists (.victim (d.block b).invalidSliceCnt)
      ((lists (.victim (d.block b).invalidSliceCnt)).erase b) k := by
    intro k member
    by_cases own : k = .victim (d.block b).invalidSliceCnt
    · subst own
      rw [Function.update_self] at member
      exact ((h.tidy.nodup _).mem_erase_iff.mp member).1 rfl
    · rw [Function.update_of_ne own] at member
      unfold Placed at placed
      split at placed
      · exact own (h.tidy.disjoint _ _ b member placed)
      · exact placed.1 k member
  have small := g.slices_fit
  have count : inc16 (d.block b).invalidSliceCnt = (d.block b).invalidSliceCnt + 1 := inc16_of_lt (by omega)
  have linked := unlinked.tidy.pushBack (k := .victim ((d.block b).invalidSliceCnt + 1)) (ne_blockNone real) out
  rw [Function.update_of_ne (by simp)] at linked
  have links : (d.invalidateSlice b).lists = (d.selectiveGetFromGcVictimList b).lists.pushBack blockNone
      (.victim ((d.block b).invalidSliceCnt + 1)) b := by
    simp [VirtualDie.invalidateSlice, VirtualDie.setBlock, VirtualDie.putToGcVictimList,
      VirtualDie.selectiveGetFromGcVictimList, count]
  refine unlinked.update (links ▸ linked.mono (by simp)) ?_ ?_
  · intro x member
    rcases List.mem_append.mp member with member | last
    · exact h.real _ x member
    · exact List.mem_singleton.mp last ▸ real
  · rintro i same -
    cases same
    omega

/-! ### The count of free blocks -/

private theorem nodup_length_le {l : List Nat} (nodup : l.Nodup) (below : ∀ x ∈ l, x < n) :
    l.length ≤ n := by
  have sub : l ⊆ List.range n := fun x hx => List.mem_range.mpr (below x hx)
  simpa using (nodup.subperm sub).length_le

theorem free_length_le (h : ListsWellFormed g d lists stale) : (lists .free).length ≤ g.userBlocksPerDie :=
  nodup_length_le (h.tidy.nodup .free) (h.real .free)

/-- A block that is not free leaves room in the free list, so the count never wraps. -/
theorem free_length_lt (h : ListsWellFormed g d lists stale) (real : b < g.userBlocksPerDie)
    (out : b ∉ lists .free) : (lists .free).length < g.userBlocksPerDie := by
  refine nodup_length_le (List.nodup_cons.mpr ⟨out, h.tidy.nodup .free⟩) fun x hx => ?_
  rcases List.mem_cons.mp hx with rfl | hx
  · exact real
  · exact h.real .free x hx

end ListsWellFormed

/-- Besides, the count is that of the free blocks. -/
structure CountedLists (g : Geometry) (d : VirtualDie) (lists : BlockList → List Nat) (stale : Set Nat) : Prop where
  wellFormed : ListsWellFormed g d lists stale
  counted : d.freeBlockCnt = (lists .free).length

/-- The blocks that have to stay in the free list. -/
def GetFreeBlock.leaves : GetFreeBlock → Nat
  | .normal => reservedFreeBlockCount
  | .gc => 0

namespace CountedLists

theorem noFreeBlock_iff (h : CountedLists g d lists stale) :
    d.NoFreeBlock option ↔ (lists .free).length ≤ option.leaves := by
  cases option with
  | normal => rw [VirtualDie.NoFreeBlock, h.counted, GetFreeBlock.leaves]
  | gc =>
    rw [VirtualDie.NoFreeBlock, h.wellFormed.tidy.head_eq_nil, GetFreeBlock.leaves, Nat.le_zero, List.length_eq_zero_iff]

theorem putToFbList (h : CountedLists g d lists stale) (real : b < g.userBlocksPerDie) (out : ∀ k, b ∉ lists k) :
    CountedLists g (d.putToFbList b) (Function.update lists .free (lists .free ++ [b])) (stale \ {b}) where
  wellFormed := h.wellFormed.putToFbList real out
  counted := by
    have room := h.wellFormed.free_length_lt real (out .free)
    have fits := g.blocks_fit
    have count : inc16 d.freeBlockCnt = (lists .free).length + 1 := by
      rw [h.counted, inc16_of_lt (by simp only [blockNone] at fits; omega)]
    simpa [VirtualDie.putToFbList] using count

theorem getFromFbList (h : CountedLists g d lists stale) (some : ¬ d.NoFreeBlock option)
    (listed : lists .free = b :: rest) :
    CountedLists g (d.getFromFbList option).2 (Function.update lists .free rest) stale where
  wellFormed := (h.wellFormed.getFromFbList some listed).2
  counted := by
    have bound := h.wellFormed.free_length_le
    have fits := g.blocks_fit
    simp only [listed, List.length_cons, blockNone] at bound fits
    have count : dec16 d.freeBlockCnt = rest.length := by
      rw [h.counted, listed, List.length_cons, dec16_of_pos (by omega) (by omega), Nat.add_sub_cancel]
    simpa [VirtualDie.getFromFbList, some] using count

end CountedLists

/-- What the primitives do to the lists of a die in a state where they are in order: to append
at the end, to take from the front, to remove, and nothing else. -/
structure PrimitivesKeep (g : Geometry) (Ok : VirtualDie → (BlockList → List Nat) → Set Nat → Prop) (d : VirtualDie)
    (lists : BlockList → List Nat) (stale : Set Nat) : Prop where
  putToFbList : ∀ b < g.userBlocksPerDie, (∀ k, b ∉ lists k) →
    Ok (d.putToFbList b) (Function.update lists .free (lists .free ++ [b])) (stale \ {b})
  getFromFbList : ∀ option,
    if (lists .free).length ≤ option.leaves then d.getFromFbList option = (blockFail, d)
    else ∃ b rest d', d.getFromFbList option = (b, d') ∧ lists .free = b :: rest ∧
      Ok d' (Function.update lists .free rest) stale
  getFromGcVictimList :
    match d.getFromGcVictimList g with
    | none => ∀ i, lists (.victim i) = []
    | some (b, d') => ∃ i rest, lists (.victim i) = b :: rest ∧ (∀ j, i < j → lists (.victim j) = []) ∧
      d'.lists.prev b = d.lists.prev b ∧ d'.lists.next b = d.lists.next b ∧
      Ok d' (Function.update lists (.victim i) rest) (insert b stale)
  invalidateSlice : ∀ b < g.userBlocksPerDie, ListsWellFormed.Placed d lists stale b →
    (d.block b).invalidSliceCnt < g.slicesPerBlock →
    Ok (d.invalidateSlice b) (demoted lists (d.block b).invalidSliceCnt b) stale

/-- The primitives keep the lists and the count. -/
theorem primitives_keep_lists (h : CountedLists g d lists stale) :
    PrimitivesKeep g (CountedLists g) d lists stale where
  putToFbList b := h.putToFbList
  getFromFbList option := by
    split
    · rename_i low
      exact VirtualDie.getFromFbList_none (h.noFreeBlock_iff.mpr low)
    · rename_i some
      have available : ¬ d.NoFreeBlock option := fun none => some (h.noFreeBlock_iff.mp none)
      obtain ⟨b, rest, listed⟩ := List.exists_cons_of_ne_nil (l := lists .free) fun empty => some (by simp [empty])
      exact ⟨b, rest, _, Prod.ext (h.wellFormed.getFromFbList available listed).1 rfl, listed,
        h.getFromFbList available listed⟩
  getFromGcVictimList := by
    cases taken : d.getFromGcVictimList g with
    | none => exact h.wellFormed.getFromGcVictimList_eq_none.mp taken
    | some result =>
      obtain ⟨b, d'⟩ := result
      obtain ⟨i, rest, listed, last, prev, next, -, rfl, kept⟩ := h.wellFormed.getFromGcVictimList taken
      exact ⟨i, rest, listed, last, prev, next, kept, by simpa using h.counted⟩
  invalidateSlice b real placed room :=
    ⟨h.wellFormed.invalidateSlice real placed room, by simpa [demoted] using h.counted⟩

/-- Block 0 is the only free one, whatever the count says. -/
def oneFreeBlock (freeBlockCnt : Nat) : VirtualDie where
  lists :=
    { prev := fun _ => blockNone
      next := fun _ => blockNone
      head := fun k => if k = .free then 0 else blockNone
      tail := fun k => if k = .free then 0 else blockNone }
  freeBlockCnt := freeBlockCnt

theorem oneFreeBlock_holds (freeBlockCnt : Nat) :
    Dll.Holds blockNone (oneFreeBlock freeBlockCnt).lists fun k => if k = .free then List.range 1 else [] := by
  apply Dll.holds_serial
  · decide
  · decide
  · rfl
  · exact fun i low => absurd low (by omega)
  · exact fun i low => absurd low (by omega)
  · rfl
  · exact fun k => rfl
  · exact fun k => rfl

theorem oneFreeBlock_wellFormed (freeBlockCnt : Nat) :
    ListsWellFormed tinyGeometry (oneFreeBlock freeBlockCnt) (fun k => if k = .free then List.range 1 else []) ∅ where
  tidy := ⟨oneFreeBlock_holds freeBlockCnt, fun _ _ _ => ⟨rfl, rfl⟩⟩
  real k b member := by
    split at member
    · have first : b = 0 := by simpa using member
      simp [first, tinyGeometry]
    · simp at member
  indexed i some := by simp at some

theorem primitives_keep_lists_one_free : PrimitivesKeep tinyGeometry (CountedLists tinyGeometry) (oneFreeBlock 1)
    (fun k => if k = .free then List.range 1 else []) ∅ :=
  primitives_keep_lists ⟨oneFreeBlock_wellFormed 1, rfl⟩

/-- With a count above the number of free blocks the last one is taken. -/
theorem last_free_block_taken :
    ListsWellFormed tinyGeometry (oneFreeBlock 2) (fun k => if k = .free then List.range 1 else []) ∅ ∧
      ¬ PrimitivesKeep tinyGeometry (ListsWellFormed tinyGeometry) (oneFreeBlock 2)
        (fun k => if k = .free then List.range 1 else []) ∅ := by
  refine ⟨oneFreeBlock_wellFormed 2, fun keeps => ?_⟩
  have fails := keeps.getFromFbList .normal
  rw [if_pos (by decide)] at fails
  have taken : ((oneFreeBlock 2).getFromFbList .normal).1 = 0 := by
    simp [VirtualDie.getFromFbList, VirtualDie.NoFreeBlock, oneFreeBlock, reservedFreeBlockCount]
  rw [fails] at taken
  exact absurd taken (by decide)

end OcpFw
