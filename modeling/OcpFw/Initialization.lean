import OcpFw.WritePath

/-! Initialization establishes the mapping invariant: on every die the first good block
becomes current and the other good blocks are free, in order. -/
namespace OcpFw

variable {g : Geometry} {b : Nat}

/-- The blocks of a die not marked bad, in order. -/
def goodBlocks (bad : Nat → Bool) (blocks : Nat) : List Nat :=
  (List.range blocks).filter fun b => !bad b

private theorem mem_goodBlocks {bad : Nat → Bool} :
    b ∈ goodBlocks bad n ↔ b < n ∧ bad b = false := by
  simp [goodBlocks]

/-- The lists after `n` blocks have been entered. -/
def initLists (bad : Nat → Bool) (n : Nat) : BlockList → List Nat
  | .free => goodBlocks bad n
  | .victim _ => []

/-- The die after `n` turns of the loop of `InitBlockMap`. -/
private structure InitBlocks (bad : Nat → Bool) (n : Nat) (d : VirtualDie) : Prop where
  holds : Dll.Holds blockNone d.lists (initLists bad n)
  block : ∀ b, d.block b = if b < n then { bad := bad b, free := true } else {}
  links : ∀ b, b ∉ goodBlocks bad n → d.lists.prev b = blockNone ∧ d.lists.next b = blockNone
  counted : d.freeBlockCnt = (goodBlocks bad n).length

private theorem initBlocks_succ {bad : Nat → Bool} {d : VirtualDie} (h : InitBlocks bad n d)
    (small : n < blockNone) : InitBlocks bad (n + 1) (initBlock bad d n) := by
  have out : ∀ k, n ∉ initLists bad n k := by
    intro k
    cases k with
    | free => simp [initLists, mem_goodBlocks]
    | victim i => simp [initLists]
  have real : n ≠ blockNone := by omega
  have block : ∀ b, (initBlock bad d n).block b =
      if b < n + 1 then { bad := bad b, free := true } else {} := by
    intro b
    have here : (initBlock bad d n).block b =
        if b = n then { bad := bad n, free := true } else d.block b := by
      by_cases hb : b = n <;> cases hn : bad n <;>
        simp [initBlock, VirtualDie.setBlock, VirtualDie.putToFbList, hb, hn]
    rw [here, h.block]
    split
    · rename_i hb
      rw [hb, if_pos (by omega)]
    · split <;> split <;> first | rfl | omega
  cases hn : bad n with
  | true =>
    have sameGood : goodBlocks bad (n + 1) = goodBlocks bad n := by
      simp [goodBlocks, List.range_succ, hn]
    have sameLists : initLists bad (n + 1) = initLists bad n := by
      funext k
      cases k with
      | free => exact sameGood
      | victim i => rfl
    have shape : (initBlock bad d n).lists = d.lists.clear blockNone n := by
      simp [initBlock, VirtualDie.setBlock, hn]
    refine ⟨?_, block, fun b hb => ?_, ?_⟩
    · rw [shape, sameLists]
      exact h.holds.clear out
    · rw [shape]
      by_cases hbn : b = n
      · simp [Dll.Table.clear, hbn]
      · simpa [Dll.Table.clear, hbn] using h.links b (sameGood ▸ hb)
    · rw [sameGood, ← h.counted]
      simp [initBlock, VirtualDie.setBlock, hn]
  | false =>
    have moreGood : goodBlocks bad (n + 1) = goodBlocks bad n ++ [n] := by
      simp [goodBlocks, List.range_succ, hn]
    have moreLists : initLists bad (n + 1) =
        Function.update (initLists bad n) .free (initLists bad n .free ++ [n]) := by
      funext k
      cases k with
      | free => simpa [initLists] using moreGood
      | victim i => rfl
    have shape : (initBlock bad d n).lists = d.lists.pushBack blockNone .free n := by
      simp [initBlock, VirtualDie.setBlock, VirtualDie.putToFbList, hn]
    have short : (goodBlocks bad n).length ≤ n := by
      simpa [goodBlocks] using List.length_filter_le (fun b => !bad b) (List.range n)
    refine ⟨?_, block, fun b hb => ?_, ?_⟩
    · rw [shape, moreLists]
      exact h.holds.pushBack real out
    · rw [moreGood, List.mem_append, List.mem_singleton, not_or] at hb
      have outside : b ∉ initLists bad n .free := hb.1
      have links := h.holds.pushBack_links hb.2 outside
      rw [shape, links.1, links.2]
      exact h.links b hb.1
    · have count : (initBlock bad d n).freeBlockCnt = inc16 d.freeBlockCnt := by
        simp [initBlock, VirtualDie.setBlock, VirtualDie.putToFbList, hn]
      rw [count, h.counted, moreGood, List.length_append]
      simp only [blockNone] at small
      exact inc16_of_lt (by omega)

private theorem initBlocks_all (bad : Nat → Bool) (small : n ≤ blockNone) :
    InitBlocks bad n ((List.range n).foldl (initBlock bad) (initDieMap {})) := by
  induction n with
  | zero =>
    have empty : initLists bad 0 = fun _ => [] := by
      funext k
      cases k <;> rfl
    refine ⟨?_, fun b => by simp [initDieMap], fun b _ => ⟨rfl, rfl⟩, rfl⟩
    rw [empty]
    constructor
    · simp [Dll.Seg]
    · intro k
      by_cases hk : k = .free <;> simp [initDieMap, hk]
    · intro k
      by_cases hk : k = .free <;> simp [initDieMap, hk]
    · simp
    · simp
    · simp
  | succ n ih =>
    rw [List.range_succ, List.foldl_append]
    exact initBlocks_succ (ih (by omega)) (by omega)

private theorem initBlocks_lists {bad : Nat → Bool} {d : VirtualDie}
    (h : InitBlocks bad g.userBlocksPerDie d) :
    BlockLists g d (initLists bad g.userBlocksPerDie) none := by
  have blank : ∀ b, (d.block b).invalidSliceCnt = 0 ∧ (d.block b).currentPage = 0 := by
    intro b
    rw [h.block]
    split <;> exact ⟨rfl, rfl⟩
  constructor
  · exact h.holds
  · intro k b hb
    cases k with
    | free =>
      obtain ⟨low, good⟩ := mem_goodBlocks.mp hb
      exact ⟨low, by rw [h.block, if_pos low]; exact good⟩
    | victim i => exact nomatch hb
  · exact fun i b hb => nomatch hb
  · intro b _ _ _ some
    rw [(blank b).1] at some
    exact absurd some (Nat.lt_irrefl 0)
  · exact fun b out _ => h.links b (out .free)
  · exact fun b hb => nomatch hb
  · exact h.counted
  · exact fun b _ => ⟨(blank b).2, (blank b).1⟩

/-- `InitGcVictimMap` finds every list empty already. -/
private theorem initGcVictimMap_eq {d : VirtualDie}
    (empty : ∀ i, d.lists.head (.victim i) = blockNone ∧ d.lists.tail (.victim i) = blockNone) :
    initGcVictimMap g d = d := by
  unfold initGcVictimMap
  generalize List.range (g.slicesPerBlock + 1) = counts
  induction counts with
  | nil => rfl
  | cons i counts ih =>
    rw [List.foldl_cons]
    have head : Function.update d.lists.head (.victim i) blockNone = d.lists.head :=
      Function.update_eq_self_iff.mpr (empty i).1.symm
    have tail : Function.update d.lists.tail (.victim i) blockNone = d.lists.tail :=
      Function.update_eq_self_iff.mpr (empty i).2.symm
    rw [head, tail]
    exact ih

/-- Taking a free block leaves the flags alone. -/
theorem getFromFbList_bad (d : VirtualDie) (option : GetFreeBlock) :
    ((d.getFromFbList option).2.block b).bad = (d.block b).bad := by
  rw [VirtualDie.getFromFbList]
  split
  · rfl
  · by_cases head : b = d.lists.head .free
    · simp [head]
    · simp [head]

/-- Every virtual block has the flag it was entered with. -/
theorem initDieMap_bad {bad : Nat → Bool} (low : b < g.userBlocksPerDie) :
    ((initCurrentBlockOfDieMap (initBlockMap g bad (initDieMap {}))).block b).bad = bad b := by
  have block := (initBlocks_all bad g.blocks_fit).block b
  rw [if_pos low] at block
  have taken := getFromFbList_bad (b := b) (initBlockMap g bad (initDieMap {})) .normal
  exact taken.trans (by rw [initBlockMap, block])

/-- The die initialization leaves: the first good block is current, the others free. -/
theorem initDie_eq (bad : Nat → Bool) (two : 2 ≤ (goodBlocks bad g.userBlocksPerDie).length) :
    ∃ b rest, goodBlocks bad g.userBlocksPerDie = b :: rest ∧
      (initDie g bad).currentBlock = b ∧
      (∀ x, ((initDie g bad).block x).currentPage = 0 ∧
        ((initDie g bad).block x).invalidSliceCnt = 0 ∧
        (x < g.userBlocksPerDie → ((initDie g bad).block x).bad = bad x)) ∧
      BlockLists g (initDie g bad)
        (Function.update (initLists bad g.userBlocksPerDie) .free rest) none := by
  have all := initBlocks_all bad g.blocks_fit
  set d := (List.range g.userBlocksPerDie).foldl (initBlock bad) (initDieMap {}) with hd
  have lists := initBlocks_lists all
  obtain ⟨b, rest, shape⟩ : ∃ b rest, goodBlocks bad g.userBlocksPerDie = b :: rest :=
    List.exists_cons_of_ne_nil (List.ne_nil_of_length_pos (by omega))
  have available : ¬ d.NoFreeBlock .normal := by
    rw [lists.noFreeBlock_normal]
    change ¬ (goodBlocks bad g.userBlocksPerDie).length ≤ 1
    omega
  have listed : initLists bad g.userBlocksPerDie .free = b :: rest := shape
  have taken := lists.getFromFbList available listed
  have result := lists.getFromFbList_eq available shape
  have current : initCurrentBlockOfDieMap d =
      { (d.getFromFbList .normal).2 with currentBlock := b } := by
    simp only [initCurrentBlockOfDieMap, result]
  have same : initDie g bad = { (d.getFromFbList .normal).2 with currentBlock := b } := by
    rw [initDie, initBlockMap, ← hd, current]
    refine initGcVictimMap_eq fun i => ⟨?_, ?_⟩
    · exact taken.holds.head_eq_nil.mpr (by simp [initLists])
    · exact taken.holds.tail_eq_nil.mpr (by simp [initLists])
  have block : ∀ x, (((initDie g bad).block x).currentPage = 0 ∧
      ((initDie g bad).block x).invalidSliceCnt = 0 ∧
      (x < g.userBlocksPerDie → ((initDie g bad).block x).bad = bad x)) := by
    intro x
    have before := all.block x
    rw [same, result]
    by_cases hx : x = b
    · subst hx
      simp only [Function.update_self, before]
      split
      · exact ⟨rfl, rfl, fun _ => rfl⟩
      · rename_i high
        exact ⟨rfl, rfl, fun low => absurd low high⟩
    · simp only [Function.update_of_ne hx, before]
      split
      · exact ⟨rfl, rfl, fun _ => rfl⟩
      · rename_i high
        exact ⟨rfl, rfl, fun low => absurd low high⟩
  refine ⟨b, rest, shape, by rw [same], block, ?_⟩
  rw [same]
  exact taken.frame rfl rfl (fun _ => ⟨rfl, rfl⟩) fun x hx => (taken.clean x hx).1

theorem initFtl_die (g : Geometry) (bad : Nat → Nat → Bool) (dieNo : Nat) :
    (initFtl g bad).die dieNo = initDie g (bad dieNo) := by
  simp only [initFtl, findDieForFreeSliceAllocation]
  split <;> rfl

/-- Initialization establishes the invariant. -/
theorem initFtl_ok (bad : Nat → Nat → Bool)
    (two : ∀ dieNo < g.userDies, 2 ≤ (goodBlocks (bad dieNo) g.userBlocksPerDie).length) :
    ∃ lists, MappingOk g (initFtl g bad) lists noneOut := by
  set s₀ : Ftl := { die := fun dieNo => initDie g (bad dieNo) } with hs
  refine ⟨fun dieNo => Function.update (initLists (bad dieNo) g.userBlocksPerDie) .free
    (goodBlocks (bad dieNo) g.userBlocksPerDie).tail, ?_⟩
  have start : MappingOk g s₀ (fun dieNo =>
      Function.update (initLists (bad dieNo) g.userBlocksPerDie) .free
        (goodBlocks (bad dieNo) g.userBlocksPerDie).tail) noneOut := by
    refine ⟨fun dieNo hd => ?_, fun lsa some => absurd rfl some, g.dies_pos, g.channels_pos,
      g.ways_pos⟩
    obtain ⟨b, rest, shape, current, block, lists⟩ := initDie_eq (bad dieNo) (two dieNo hd)
    have page : ∀ x, s₀.currentPage dieNo x = 0 := fun x => (block x).1
    have usable : ∀ x, (s₀.die dieNo).Usable g x ↔ x ∈ b :: rest := by
      intro x
      rw [← shape, mem_goodBlocks]
      exact and_congr_right fun low => by
        change ((initDie g (bad dieNo)).block x).bad = false ↔ _
        rw [(block x).2.2 low]
    have nodup : (b :: rest).Nodup := shape ▸ List.Nodup.filter _ List.nodup_range
    have more := two dieNo hd
    rw [shape] at more ⊢
    constructor
    · exact lists
    · exact current ▸ (usable _).mpr (by simp)
    · change (initDie g (bad dieNo)).currentBlock ∉ _
      rw [current]
      simpa using (List.nodup_cons.mp nodup).1
    · exact fun x => (page x).symm ▸ Nat.zero_le _
    · intro x hu hx hc
      rcases List.mem_cons.mp ((usable x).mp hu) with same | free
      · exact absurd (same.trans current.symm) hc
      · exact absurd free (by simpa using hx)
    · exact fun x out => nomatch out
    · intro x _ _
      change ((initDie g (bad dieNo)).block x).invalidSliceCnt = _
      rw [(block x).2.1, page]
      rfl
    · intro _
      rw [Function.update_self, List.tail_cons]
      refine List.ne_nil_of_length_pos ?_
      simp only [List.length_cons] at more
      omega
    · exact fun x out => nomatch out
  exact start.rotate

end OcpFw
