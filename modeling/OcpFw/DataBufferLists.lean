import OcpFw.DataBuffer

/-! The lists of the data buffer. All entries are in the LRU list, every entry that
belongs to a slice is in the bucket of its slice, and no two entries belong to one slice;
so a lookup finds the entry of a slice whenever there is one. -/
namespace OcpFw

/-- The tables represent these lists. `out` is an entry on its way to another slice, which
is in no bucket. -/
structure DataBufOk (n : Nat) (s : DataBuf) (out : Option Nat) (order : List Nat)
    (buckets : Nat → List Nat) : Prop where
  pos : 0 < n
  lru : Dll.Holds dataBufNone s.lru fun _ => order
  entries : ∀ e, e ∈ order ↔ e < n
  hash : Dll.Holds dataBufNone s.hash buckets
  bucketed : ∀ b e, e ∈ buckets b ↔ out ≠ some e ∧ e < n ∧
    s.logicalSliceAddr e ≠ lsaNone ∧ findDataBufHashTableEntry n (s.logicalSliceAddr e) = b
  owner : ∀ e e', e < n → e' < n →
    s.logicalSliceAddr e ≠ lsaNone → s.logicalSliceAddr e = s.logicalSliceAddr e' → e = e'

variable {s s' : DataBuf} {out : Option Nat} {order before rest : List Nat}
  {buckets : Nat → List Nat} {n e lsa turns : Nat}

namespace DataBufOk

/-- All entries are free and in the LRU list. -/
theorem init (pos : 0 < n) (few : n < dataBufNone) :
    DataBufOk n (initDataBuf n) none (List.range n) fun _ => [] := by
  have width : n < 65535 := few
  refine ⟨pos, ?_, fun e => List.mem_range, ?_, fun b e => ?_, fun e e' _ _ owned => absurd rfl owned⟩
  · have serial : Dll.Holds dataBufNone (initDataBuf n).lru
        fun k => if k = () then List.range n else [] := by
      refine Dll.holds_serial pos few.le rfl ?_ ?_ ?_ ?_ ?_
      · intro i inside
        simp only [initDataBuf, Nat.add_one_ne_zero, if_false]
        omega
      · intro i inside
        simp only [initDataBuf, show i + 1 ≠ n by omega, if_false]
        omega
      · simp [initDataBuf, Nat.sub_add_cancel pos]
      · exact fun _ => rfl
      · exact fun _ => rfl
    simpa using serial
  · exact ⟨fun _ => trivial, fun _ => rfl, fun _ => rfl, fun _ => .nil, fun _ => by simp, by simp⟩
  · simp [initDataBuf]

/-- A lookup walks along the bucket of the slice. -/
theorem findInBucket_eq (ok : DataBufOk n s out order buckets) {b : Nat}
    (shape : buckets b = before ++ rest) (enough : rest.length ≤ turns) :
    s.findInBucket lsa turns (rest.headD dataBufNone) =
      rest.find? fun e => s.logicalSliceAddr e = lsa := by
  induction turns generalizing before rest with
  | zero =>
    obtain rfl := List.length_eq_zero_iff.mp (Nat.le_zero.mp enough)
    rfl
  | succ turns ih =>
    cases rest with
    | nil => simp [DataBuf.findInBucket]
    | cons x rest =>
      have real : x ≠ dataBufNone := ok.hash.ne_nil (k := b) (by simp [shape])
      have next : s.hash.next x = rest.headD dataBufNone := (ok.hash.links shape).2
      rw [List.headD_cons, DataBuf.findInBucket, if_neg real, List.find?_cons, next]
      by_cases found : s.logicalSliceAddr x = lsa
      · simp [found]
      · have passed : buckets b = (before ++ [x]) ++ rest := by simp [shape]
        rw [if_neg found, ih passed (by simpa using enough)]
        simp [found]

theorem bucket_length_le (ok : DataBufOk n s out order buckets) (b : Nat) :
    (buckets b).length ≤ n := by
  have inside : buckets b ⊆ List.range n := fun e listed =>
    List.mem_range.mpr ((ok.bucketed b e).mp listed).2.1
  simpa using (List.subperm_of_subset (ok.hash.nodup b) inside).length_le

/-! ### Lookups -/

/-- An entry moves to the head of the LRU list. -/
theorem touch (ok : DataBufOk n s out order buckets) (real : e < n) :
    DataBufOk n { s with lru := (s.lru.remove dataBufNone () e).pushFront dataBufNone () e } out
      (e :: order.erase e) buckets := by
  have listed : e ∈ order := (ok.entries e).mpr real
  have removed := ok.lru.remove (k := ()) listed
  have ne : e ≠ dataBufNone := ok.lru.ne_nil (k := ()) listed
  have gone : e ∉ order.erase e := (ok.lru.nodup ()).not_mem_erase
  have moved := removed.pushFront (k := ()) ne fun k => by simpa using gone
  refine { ok with lru := ?_, entries := fun x => ?_ }
  · have same : (fun _ : Unit => e :: order.erase e) =
        Function.update (Function.update (fun _ => order) () (order.erase e)) () (e :: order.erase e) := by
      funext k
      simp
    rw [same]
    simpa using moved
  · rw [← ok.entries x, (List.perm_cons_erase listed).mem_iff]

/-- A hit is the entry of the slice, which becomes the most recent one. -/
theorem checkDataBufHit (ok : DataBufOk n s out order buckets)
    (hit : s.checkDataBufHit n lsa = some (e, s')) :
    e < n ∧ s.logicalSliceAddr e = lsa ∧
      s'.logicalSliceAddr = s.logicalSliceAddr ∧ s'.dirty = s.dirty ∧
      DataBufOk n s' out (e :: order.erase e) buckets := by
  set b := findDataBufHashTableEntry n lsa
  have all : buckets b = [] ++ buckets b := rfl
  rw [DataBuf.checkDataBufHit, ok.hash.head b, ok.findInBucket_eq all (ok.bucket_length_le b)] at hit
  cases found : (buckets b).find? fun e => s.logicalSliceAddr e = lsa with
  | none => simp [found] at hit
  | some x =>
    simp only [found, Option.bind_eq_bind, Option.bind_some, Option.some.injEq, Prod.mk.injEq] at hit
    obtain ⟨rfl, rfl⟩ := hit
    have inside := (ok.bucketed b x).mp (List.mem_of_find?_eq_some found)
    exact ⟨inside.2.1, by simpa using List.find?_some found, rfl, rfl, ok.touch inside.2.1⟩

/-- After a miss no entry belongs to the slice. -/
theorem missed (ok : DataBufOk n s none order buckets) (real : lsa ≠ lsaNone)
    (miss : s.checkDataBufHit n lsa = none) :
    ∀ e < n, s.logicalSliceAddr e ≠ lsa := by
  rintro e inside rfl
  set b := findDataBufHashTableEntry n (s.logicalSliceAddr e)
  have all : buckets b = [] ++ buckets b := rfl
  have listed : e ∈ buckets b := (ok.bucketed b e).mpr ⟨by simp, inside, real, rfl⟩
  rw [DataBuf.checkDataBufHit, ok.hash.head b, ok.findInBucket_eq all (ok.bucket_length_le b)] at miss
  cases found : (buckets b).find? fun x => s.logicalSliceAddr x = s.logicalSliceAddr e with
  | none => simpa using List.find?_eq_none.mp found e listed
  | some x => simp [found] at miss

/-! ### Recycling an entry -/

/-- The entry to recycle is the least recent one. -/
theorem tail_eq (ok : DataBufOk n s out order buckets) : s.lru.tail () ∈ order := by
  apply ok.lru.tail_mem (k := ())
  intro empty
  have listed := (ok.entries 0).mpr ok.pos
  rw [show order = [] from empty] at listed
  cases listed

/-- The links `AllocateDataBuf` writes are those of taking the entry out of the LRU list and
putting it in front. -/
theorem allocate_links (ok : DataBufOk n s out order buckets) :
    s.allocateDataBuf n =
      let evictedEntry := s.lru.tail ()
      let removed := s.lru.remove dataBufNone () evictedEntry
      some (evictedEntry,
        { s with lru := removed.pushFront dataBufNone () evictedEntry }
          |>.selectiveGetFromDataBufHashList n evictedEntry) := by
  have listed := ok.tail_eq
  have some : order ≠ [] := List.ne_nil_of_mem listed
  obtain ⟨front, e, shape⟩ : ∃ front e, order = front ++ [e] :=
    ⟨_, _, (List.dropLast_append_getLast some).symm⟩
  have tail : s.lru.tail () = e := by rw [ok.lru.tail (), shape, List.getLastD_concat]
  have real : e ≠ dataBufNone := tail ▸ ok.lru.ne_nil (k := ()) listed
  obtain ⟨prev, next⟩ := ok.lru.links (k := ()) shape
  have nextNone : s.lru.next e = dataBufNone := next
  have headReal : s.lru.head () ≠ dataBufNone := mt ok.lru.head_eq_nil.mp some
  have ends : ∀ (f : Unit → Nat) x, Function.update f () x = fun _ => x :=
    fun f x => Function.update_eq_const_of_subsingleton () x f
  rcases front.eq_nil_or_concat' with rfl | ⟨front, w, rfl⟩
  · have prevNone : s.lru.prev e = dataBufNone := prev
    simp [DataBuf.allocateDataBuf, Dll.Table.remove, Dll.Table.pushFront, tail, real, prevNone,
      nextNone, ends]
  · have wReal : w ≠ dataBufNone := ok.lru.ne_nil (k := ()) (by simp [shape])
    have prevIs : s.lru.prev e = w := by simpa using prev
    simp [DataBuf.allocateDataBuf, Dll.Table.remove, Dll.Table.pushFront, tail, real, prevIs,
      nextNone, wReal, headReal, ends]

/-- The recycled entry leaves the bucket of its old slice. -/
theorem selectiveGetFromDataBufHashList (ok : DataBufOk n s none order buckets)
    (real : e < n) :
    ∃ buckets', DataBufOk n (s.selectiveGetFromDataBufHashList n e) (some e) order buckets' := by
  set b := findDataBufHashTableEntry n (s.logicalSliceAddr e) with hb
  unfold DataBuf.selectiveGetFromDataBufHashList
  by_cases owned : s.logicalSliceAddr e = lsaNone
  · rw [if_neg (by simpa using owned)]
    refine ⟨buckets, { ok with bucketed := fun b x => ?_ }⟩
    rw [ok.bucketed]
    grind
  · rw [if_pos owned]
    have listed : e ∈ buckets b := (ok.bucketed b e).mpr ⟨by simp, real, owned, rfl⟩
    refine ⟨_, { ok with hash := ok.hash.remove listed, bucketed := fun b' x => ?_ }⟩
    by_cases same : b' = b
    · subst same
      rw [Function.update_self, (ok.hash.nodup b).mem_erase_iff, ok.bucketed]
      grind
    · rw [Function.update_of_ne same, ok.bucketed]
      grind

/-- A miss takes the least recent entry, which becomes the most recent one and is in no
bucket. -/
theorem allocateDataBuf (ok : DataBufOk n s none order buckets) :
    ∃ e s', s.allocateDataBuf n = some (e, s') ∧ e = s.lru.tail () ∧
      e < n ∧ s'.logicalSliceAddr = s.logicalSliceAddr ∧
      s'.dirty = s.dirty ∧ ∃ buckets', DataBufOk n s' (some e) (e :: order.erase e) buckets' := by
  have real := (ok.entries _).mp ok.tail_eq
  obtain ⟨buckets', detached⟩ := (ok.touch real).selectiveGetFromDataBufHashList real
  refine ⟨_, _, ok.allocate_links, rfl, real, ?_, ?_, _, detached⟩
  · unfold DataBuf.selectiveGetFromDataBufHashList
    split <;> rfl
  · unfold DataBuf.selectiveGetFromDataBufHashList
    split <;> rfl

/-- The entry now belongs to another slice, which no entry belonged to. -/
theorem attach (ok : DataBufOk n s (some e) order buckets) (real : lsa ≠ lsaNone)
    (inside : e < n)
    (new : ∀ x < n, s.logicalSliceAddr x ≠ lsa) :
    ∃ buckets', DataBufOk n ((s.setLsa e lsa).putToDataBufHashList n e) none order buckets' := by
  have free : ∀ b, e ∉ buckets b := fun b listed => ((ok.bucketed b e).mp listed).1 rfl
  have ne : e ≠ dataBufNone := ok.lru.ne_nil (k := ()) ((ok.entries e).mpr inside)
  set b := findDataBufHashTableEntry n lsa with hb
  have pushed := ok.hash.pushBack (k := b) ne free
  have atEntry : (s.setLsa e lsa).logicalSliceAddr e = lsa := by simp [DataBuf.setLsa]
  have other : ∀ x, x ≠ e → (s.setLsa e lsa).logicalSliceAddr x = s.logicalSliceAddr x :=
    fun x diff => by simp [DataBuf.setLsa, diff]
  refine ⟨Function.update buckets b (buckets b ++ [e]), { ok with
    hash := ?_, bucketed := fun b' x => ?_, owner := fun x y low low' owned same => ?_ }⟩
  · simp only [DataBuf.putToDataBufHashList, atEntry]
    exact pushed
  · change x ∈ Function.update buckets b (buckets b ++ [e]) b' ↔ none ≠ some x ∧ _ ∧
      (s.setLsa e lsa).logicalSliceAddr x ≠ _ ∧
        findDataBufHashTableEntry n ((s.setLsa e lsa).logicalSliceAddr x) = b'
    by_cases here : x = e
    · subst here
      rw [atEntry]
      by_cases same : b' = b
      · subst same
        simp [inside, real, hb]
      · simp [same, free, Ne.symm same, ← hb]
    · rw [other x here]
      by_cases same : b' = b
      · subst same
        simp [ok.bucketed, here, Ne.symm here]
      · rw [Function.update_of_ne same, ok.bucketed]
        simp [Ne.symm here]
  · change (s.setLsa e lsa).logicalSliceAddr x ≠ lsaNone at owned
    change (s.setLsa e lsa).logicalSliceAddr x = (s.setLsa e lsa).logicalSliceAddr y at same
    by_cases hx : x = e <;> by_cases hy : y = e
    · rw [hx, hy]
    · rw [hx, atEntry, other y hy] at same
      exact absurd same.symm (new y low')
    · rw [hy, atEntry, other x hx] at same
      exact absurd same (new x low)
    · rw [other x hx] at owned same
      rw [other y hy] at same
      exact ok.owner x y low low' owned same

theorem setDirty (ok : DataBufOk n s out order buckets) (e : Nat) (dirty : Bool) :
    DataBufOk n (s.setDirty e dirty) out order buckets :=
  { ok with }

end DataBufOk
end OcpFw
