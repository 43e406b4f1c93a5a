import OcpFw.ListPrimitives

/-! The free list and the garbage-collection lists of one die. `BlockLists` relates
the link fields of a die to the sequences they represent; each primitive of
`address_translation.c` and `garbage_collection.c` appends to, pops from or removes
from these sequences, and keeps the relation. -/
namespace OcpFw

/-- A block of the die that is not marked bad. -/
def VirtualDie.Usable (g : Geometry) (d : VirtualDie) (b : Nat) : Prop :=
  b < g.userBlocksPerDie ∧ (d.block b).bad = false

/-- The die's links represent `lists`. A block with invalid slices is in the list of
their number, a block in no list has no links, and `popped` is the block a garbage
collection has taken and not yet erased, which is in no list whatever its count. -/
structure BlockLists (g : Geometry) (d : VirtualDie) (lists : BlockList → List Nat)
    (popped : Option Nat) : Prop where
  holds : Dll.Holds blockNone d.lists lists
  usable : ∀ k, ∀ b ∈ lists k, d.Usable g b
  indexed : ∀ i, ∀ b ∈ lists (.victim i),
    0 < i ∧ i ≤ g.slicesPerBlock ∧ (d.block b).invalidSliceCnt = i
  listed : ∀ b, d.Usable g b → b ∉ lists .free → popped ≠ some b → 0 < (d.block b).invalidSliceCnt →
    b ∈ lists (.victim (d.block b).invalidSliceCnt)
  detached : ∀ b, (∀ k, b ∉ lists k) → popped ≠ some b →
    d.lists.prev b = blockNone ∧ d.lists.next b = blockNone
  unlisted : ∀ b, popped = some b → d.Usable g b ∧ ∀ k, b ∉ lists k
  counted : d.freeBlockCnt = (lists .free).length
  clean : ∀ b ∈ lists .free, (d.block b).currentPage = 0 ∧ (d.block b).invalidSliceCnt = 0

namespace BlockLists
variable {g : Geometry} {d d' : VirtualDie} {lists : BlockList → List Nat} {popped : Option Nat}
  {b i : Nat} {rest : List Nat} {option : GetFreeBlock}

theorem ne_blockNone (usable : d.Usable g b) : b ≠ blockNone := ListsWellFormed.ne_blockNone usable.1

/-- The popped block is the one whose links are stale. -/
theorem wellFormed (h : BlockLists g d lists popped) : ListsWellFormed g d lists {b | popped = some b} where
  tidy := ⟨h.holds, h.detached⟩
  real k b member := (h.usable k b member).1
  indexed i some := by
    obtain ⟨b, member⟩ := List.exists_mem_of_ne_nil _ some
    exact ⟨(h.indexed i b member).1, (h.indexed i b member).2.1⟩

theorem countedLists (h : BlockLists g d lists popped) : CountedLists g d lists {b | popped = some b} :=
  ⟨h.wellFormed, h.counted⟩

/-- The relation reads the links, the counts and the flags of a die and nothing else. -/
theorem frame (h : BlockLists g d lists popped) (links : d'.lists = d.lists)
    (count : d'.freeBlockCnt = d.freeBlockCnt)
    (same : ∀ b, (d'.block b).bad = (d.block b).bad ∧
      (d'.block b).invalidSliceCnt = (d.block b).invalidSliceCnt)
    (fresh : ∀ b ∈ lists .free, (d'.block b).currentPage = 0) : BlockLists g d' lists popped := by
  have usable : ∀ b, d'.Usable g b ↔ d.Usable g b := fun b => by
    rw [VirtualDie.Usable, VirtualDie.Usable, (same b).1]
  constructor
  · exact links ▸ h.holds
  · exact fun k b hb => (usable b).mpr (h.usable k b hb)
  · exact fun i b hb => by simpa only [(same b).2] using h.indexed i b hb
  · intro b hu hf hp hc
    rw [(same b).2] at hc ⊢
    exact h.listed b ((usable b).mp hu) hf hp hc
  · exact fun b => links ▸ h.detached b
  · exact fun b hp => ⟨(usable b).mpr (h.unlisted b hp).1, (h.unlisted b hp).2⟩
  · exact count.trans h.counted
  · exact fun b hb => ⟨fresh b hb, (same b).2.trans (h.clean b hb).2⟩

/-! ### The free list -/

theorem noFreeBlock_normal (h : BlockLists g d lists popped) :
    d.NoFreeBlock .normal ↔ (lists .free).length ≤ reservedFreeBlockCount := by
  rw [VirtualDie.NoFreeBlock, h.counted]

theorem noFreeBlock_gc (h : BlockLists g d lists popped) :
    d.NoFreeBlock .gc ↔ lists .free = [] :=
  h.holds.head_eq_nil

/-- A block can be taken only where the free list has one. -/
theorem free_cons (h : BlockLists g d lists popped) (some : ¬ d.NoFreeBlock option) :
    ∃ b rest, lists .free = b :: rest := by
  have empty : lists .free ≠ [] := by
    intro empty
    cases option with
    | normal => exact some (h.noFreeBlock_normal.mpr (by simp [empty]))
    | gc => exact some (h.noFreeBlock_gc.mpr empty)
  exact List.exists_cons_of_ne_nil empty

/-- What `GetFromFbList` returns and the die it leaves. -/
theorem getFromFbList_eq (h : BlockLists g d lists popped) (some : ¬ d.NoFreeBlock option)
    (listed : lists .free = b :: rest) :
    d.getFromFbList option =
      (b, { d with
        lists := (d.lists.popFront blockNone .free).clear blockNone b
        block := Function.update d.block b { d.block b with free := false }
        freeBlockCnt := rest.length }) := by
  have fits : rest.length + 1 < 65536 := by
    have bound := h.wellFormed.free_length_le
    have fits := g.blocks_fit
    simp only [listed, List.length_cons, blockNone] at bound fits
    omega
  have count : dec16 d.freeBlockCnt = rest.length := by
    rw [h.counted, listed, List.length_cons, dec16_of_pos (by omega) fits, Nat.add_sub_cancel]
  simp only [VirtualDie.getFromFbList, some, ↓reduceIte, h.holds.head_cons listed, count]

/-- Taking a free block pops the head of the free list. -/
theorem getFromFbList (h : BlockLists g d lists popped) (some : ¬ d.NoFreeBlock option)
    (listed : lists .free = b :: rest) :
    BlockLists g (d.getFromFbList option).2 (Function.update lists .free rest) popped := by
  have taken := h.countedLists.getFromFbList some listed
  rw [h.getFromFbList_eq some listed] at taken ⊢
  have sub : ∀ k, Function.update lists .free rest k ⊆ lists k := by
    intro k
    cases k with
    | free => simp [listed]
    | victim i => simp
  have same : ∀ x, ((Function.update d.block b { d.block b with free := false }) x).bad =
      (d.block x).bad ∧ ((Function.update d.block b { d.block b with free := false }) x).currentPage =
      (d.block x).currentPage ∧
      ((Function.update d.block b { d.block b with free := false }) x).invalidSliceCnt =
      (d.block x).invalidSliceCnt := by
    intro x
    by_cases hx : x = b
    · subst hx
      simp
    · simp [hx]
  constructor
  · exact taken.wellFormed.tidy.toHolds
  · exact fun k x hx => ⟨(h.usable k x (sub k hx)).1, (same x).1.trans (h.usable k x (sub k hx)).2⟩
  · exact fun i x hx => by simpa only [(same x).2.2] using h.indexed i x (sub _ hx)
  · intro x hu hf hp hc
    simp only [(same x).2.2] at hc ⊢
    have listedIn : x ∈ lists (.victim (d.block x).invalidSliceCnt) := by
      refine h.listed x ⟨hu.1, (same x).1.symm.trans hu.2⟩ ?_ hp hc
      intro inFree
      rw [(h.clean x inFree).2] at hc
      exact absurd hc (by omega)
    simpa using listedIn
  · exact taken.wellFormed.tidy.detached
  · intro x hp
    obtain ⟨hu, out⟩ := h.unlisted x hp
    exact ⟨⟨hu.1, (same x).1.trans hu.2⟩, fun k hx => out k (sub k hx)⟩
  · exact taken.counted
  · intro x hx
    rw [(same x).2.1, (same x).2.2]
    exact h.clean x (sub .free hx)

/-- Returning the popped block, reset by an erase, appends it to the free list. -/
theorem recycleBlock (h : BlockLists g d lists (some b)) :
    BlockLists g (d.recycleBlock b) (Function.update lists .free (lists .free ++ [b])) none := by
  obtain ⟨usable, out⟩ := h.unlisted b rfl
  have put : CountedLists g (d.recycleBlock b) (Function.update lists .free (lists .free ++ [b])) _ :=
    CountedLists.putToFbList (d := d.setBlock b _) ⟨⟨h.wellFormed.tidy, h.wellFormed.real, h.wellFormed.indexed⟩, h.counted⟩
      usable.1 out
  have listedNow : ∀ k x, x ∈ Function.update lists .free (lists .free ++ [b]) k ↔
      x ∈ lists k ∨ (k = .free ∧ x = b) := by
    intro k x
    cases k <;> simp
  have kept : ∀ x, x ≠ b → (d.recycleBlock b).block x = d.block x := by
    intro x hx
    simp [VirtualDie.recycleBlock, VirtualDie.setBlock, VirtualDie.putToFbList, hx]
  have reset : ((d.recycleBlock b).block b).invalidSliceCnt = 0 ∧
      ((d.recycleBlock b).block b).currentPage = 0 := by
    simp [VirtualDie.recycleBlock, VirtualDie.setBlock, VirtualDie.putToFbList]
  have bad : ∀ x, ((d.recycleBlock b).block x).bad = (d.block x).bad := by
    intro x
    by_cases hx : x = b
    · subst hx
      simp [VirtualDie.recycleBlock, VirtualDie.setBlock, VirtualDie.putToFbList]
    · rw [kept x hx]
  constructor
  · exact put.wellFormed.tidy.toHolds
  · intro k x hx
    rw [VirtualDie.Usable, bad x]
    rcases (listedNow k x).mp hx with hx | ⟨-, rfl⟩
    · exact h.usable k x hx
    · exact usable
  · intro i x hx
    rcases (listedNow _ x).mp hx with hx | ⟨isFree, -⟩
    · have diff : x ≠ b := fun same => out _ (same ▸ hx)
      rw [kept x diff]
      exact h.indexed i x hx
    · cases isFree
  · rintro x hu hf - hc
    have diff : x ≠ b := by
      rintro rfl
      exact hf (by simp)
    rw [kept x diff] at hc ⊢
    rw [VirtualDie.Usable, bad x] at hu
    refine (listedNow _ x).mpr (.inl (h.listed x hu ?_ (by simpa using diff.symm) hc))
    exact fun inFree => hf ((listedNow _ x).mpr (.inl inFree))
  · exact fun x outside _ => put.wellFormed.tidy.detached x outside (by simp)
  · simp
  · exact put.counted
  · intro x hx
    rcases (listedNow _ x).mp hx with hx | ⟨-, rfl⟩
    · have diff : x ≠ b := fun same => out _ (same ▸ hx)
      rw [kept x diff]
      exact h.clean x hx
    · exact ⟨reset.2, reset.1⟩

/-! ### The garbage-collection lists -/

/-- Between two collections every block with an invalid slice is in the list of its count. -/
theorem victim_listed (h : BlockLists g d lists none) (usable : d.Usable g b)
    (positive : 0 < (d.block b).invalidSliceCnt) : b ∈ lists (.victim (d.block b).invalidSliceCnt) := by
  apply h.listed b usable _ (by simp) positive
  intro free
  have clean := (h.clean b free).2
  omega

/-- No victim is found only where no block has an invalid slice. -/
theorem clean_of_no_victim (h : BlockLists g d lists none) (failed : d.findVictimList g.slicesPerBlock = none)
    (usable : d.Usable g b) : (d.block b).invalidSliceCnt = 0 := by
  by_contra some
  have member := h.victim_listed usable (by omega)
  rw [VirtualDie.findVictimList_eq_none h.holds failed _ (by omega) (h.indexed _ b member).2.1] at member
  cases member

/-- The list the victim is taken from is the one of the largest count. -/
theorem le_victim (h : BlockLists g d lists none) (found : d.findVictimList g.slicesPerBlock = some i)
    (usable : d.Usable g b) : (d.block b).invalidSliceCnt ≤ i := by
  by_contra more
  have member := h.victim_listed usable (by omega)
  rw [(VirtualDie.findVictimList_eq_some h.holds found).2.2 _ (by omega) (h.indexed _ b member).2.1] at member
  cases member

/-- Taking a victim pops the oldest block of the fullest list. It keeps its links,
and from now on it is the popped block. -/
theorem getFromGcVictimList (h : BlockLists g d lists none)
    (taken : d.getFromGcVictimList g = some (b, d')) :
    ∃ i rest, lists (.victim i) = b :: rest ∧ d.findVictimList g.slicesPerBlock = some i ∧
      d' = { d with lists := d.lists.popFront blockNone (.victim i) } ∧
      BlockLists g d' (Function.update lists (.victim i) rest) (some b) := by
  obtain ⟨i, rest, listed, -, -, -, found, rfl, kept⟩ := h.wellFormed.getFromGcVictimList taken
  refine ⟨i, rest, listed, found, rfl, ?_⟩
  have member : b ∈ lists (.victim i) := by simp [listed]
  have notRest : b ∉ rest := by
    have nodup := h.holds.nodup (.victim i)
    rw [listed] at nodup
    exact (List.nodup_cons.mp nodup).1
  have sub : ∀ k y, y ∈ Function.update lists (.victim i) rest k ↔ y ∈ lists k ∧ y ≠ b := by
    intro k y
    by_cases hk : k = .victim i
    · subst hk
      rw [Function.update_self, listed, List.mem_cons]
      exact ⟨fun hy => ⟨.inr hy, fun same => notRest (same ▸ hy)⟩,
        fun ⟨hy, diff⟩ => hy.resolve_left diff⟩
    · rw [Function.update_of_ne hk]
      exact ⟨fun hy => ⟨hy, h.holds.ne_of_key_ne hk hy member⟩, fun hy => hy.1⟩
  constructor
  · exact kept.tidy.toHolds
  · exact fun k y hy => h.usable k y ((sub k y).mp hy).1
  · exact fun j y hy => h.indexed j y ((sub _ y).mp hy).1
  · intro y hu hf hp hc
    refine (sub _ y).mpr ⟨h.listed y hu ?_ (by simp) hc, by simpa [eq_comm] using hp⟩
    simpa using hf
  · exact fun y out hp => kept.tidy.detached y out (by simpa [eq_comm] using hp)
  · intro y hy
    cases hy
    exact ⟨h.usable _ b member, fun k hx => ((sub k b).mp hx).2 rfl⟩
  · simpa using h.counted
  · simpa using h.clean

private theorem mem_demoted (h : BlockLists g d lists none) (notFree : b ∉ lists .free) :
    x ∈ demoted lists (d.block b).invalidSliceCnt b k ↔
      x ∈ lists k ∧ x ≠ b ∨ x = b ∧ k = .victim ((d.block b).invalidSliceCnt + 1) := by
  have inList : ∀ {j}, b ∈ lists j → j = .victim (d.block b).invalidSliceCnt := by
    intro j hb
    cases j with
    | free => exact absurd hb notFree
    | victim j => rw [(h.indexed j b hb).2.2]
  have erased : ∀ {j}, (x ∈ (lists j).erase b ↔ x ≠ b ∧ x ∈ lists j) := fun {j} =>
    (h.holds.nodup j).mem_erase_iff
  unfold demoted
  by_cases top : k = .victim ((d.block b).invalidSliceCnt + 1)
  · subst top
    have notThere : b ∉ lists (.victim ((d.block b).invalidSliceCnt + 1)) := fun hb => by
      simpa using inList hb
    rw [Function.update_self, List.mem_append, List.mem_singleton]
    constructor
    · rintro (hx | hx)
      · exact .inl ⟨hx, fun same => notThere (same ▸ hx)⟩
      · exact .inr ⟨hx, rfl⟩
    · rintro (⟨hx, -⟩ | ⟨hx, -⟩)
      · exact .inl hx
      · exact .inr hx
  · rw [Function.update_of_ne top]
    by_cases bottom : k = .victim (d.block b).invalidSliceCnt
    · subst bottom
      rw [Function.update_self, erased]
      simp only [top, and_false, or_false]
      exact and_comm
    · rw [Function.update_of_ne bottom]
      simp only [top, and_false, or_false]
      exact ⟨fun hx => ⟨hx, fun same => bottom (inList (same ▸ hx))⟩, fun hx => hx.1⟩

/-- A block that is not free is where its count says. -/
theorem placed (h : BlockLists g d lists none) (usable : d.Usable g b) (notFree : b ∉ lists .free) :
    ListsWellFormed.Placed d lists {b | none = some b} b := by
  unfold ListsWellFormed.Placed
  split
  · rename_i positive
    exact h.listed b usable notFree (by simp) positive
  · rename_i zero
    refine ⟨fun k hb => ?_, by simp⟩
    cases k with
    | free => exact notFree hb
    | victim i =>
      have counts := h.indexed i b hb
      omega

/-- One more invalid slice moves a block to the end of the next list. -/
theorem invalidateSlice (h : BlockLists g d lists none) (usable : d.Usable g b)
    (notFree : b ∉ lists .free) (room : (d.block b).invalidSliceCnt < g.slicesPerBlock) :
    BlockLists g (d.invalidateSlice b) (demoted lists (d.block b).invalidSliceCnt b) none := by
  have member : ∀ {x k}, x ∈ demoted lists (d.block b).invalidSliceCnt b k ↔
      x ∈ lists k ∧ x ≠ b ∨ x = b ∧ k = .victim ((d.block b).invalidSliceCnt + 1) :=
    h.mem_demoted notFree
  have moved := h.wellFormed.invalidateSlice usable.1 (h.placed usable notFree) room
  have small := g.slices_fit
  have here : (d.invalidateSlice b).block b =
      { d.block b with invalidSliceCnt := (d.block b).invalidSliceCnt + 1 } := by
    rw [VirtualDie.invalidateSlice_block, Function.update_self, inc16_of_lt (by omega)]
  have same : ∀ x, x ≠ b → (d.invalidateSlice b).block x = d.block x := fun x hx => by
    rw [VirtualDie.invalidateSlice_block, Function.update_of_ne hx]
  have bad : ∀ x, ((d.invalidateSlice b).block x).bad = (d.block x).bad := by
    intro x
    by_cases hx : x = b
    · rw [hx, here]
    · rw [same x hx]
  constructor
  · exact moved.tidy.toHolds
  · intro k x hx
    rw [VirtualDie.Usable, bad x]
    rcases member.mp hx with ⟨hx, -⟩ | ⟨rfl, -⟩
    · exact h.usable k x hx
    · exact usable
  · intro i x hx
    rcases member.mp hx with ⟨hx, diff⟩ | ⟨rfl, top⟩
    · rw [same x diff]
      exact h.indexed i x hx
    · cases top
      rw [here]
      exact ⟨by omega, room, rfl⟩
  · rintro x hu hf - hc
    rw [VirtualDie.Usable, bad x] at hu
    by_cases hx : x = b
    · subst hx
      exact member.mpr (.inr ⟨rfl, by rw [here]⟩)
    · rw [same x hx] at hc ⊢
      refine member.mpr (.inl ⟨h.listed x hu ?_ (by simp) hc, hx⟩)
      exact fun inFree => hf (member.mpr (.inl ⟨inFree, hx⟩))
  · exact moved.tidy.detached
  · simp
  · simpa [demoted] using h.counted
  · intro x hx
    have inFree : x ∈ lists .free := by simpa [demoted] using hx
    have diff : x ≠ b := fun same => notFree (same ▸ inFree)
    rw [same x diff]
    exact h.clean x inFree

end BlockLists

end OcpFw
