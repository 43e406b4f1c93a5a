import OcpFw.DataBufferLists
import OcpFw.LruCache

/-! The data buffer as a cache of slices. Over every sequence of slices the entries in
the order of the LRU list hold the slices used last, and a miss recycles the entry whose
slice was used longest ago. -/
namespace OcpFw
open LruCache (recent recent_append recent_hit recent_miss recent_evict length_recent_le)

/-- What the LRU list and the buckets are after a sequence of slices. -/
structure RefinesLru (n : Nat) (history : List Nat) (s : DataBuf) (order : List Nat)
    (buckets : Nat → List Nat) : Prop where
  lists : DataBufOk n s none order buckets
  cached : order.map s.logicalSliceAddr =
    recent n history ++ List.replicate (n - (recent n history).length) lsaNone

variable {n e lsa : Nat} {s s' : DataBuf} {order history : List Nat} {buckets : Nat → List Nat}

namespace DataBufOk

/-- A lookup finds an entry exactly when one belongs to the slice. -/
theorem checkDataBufHit_isSome (ok : DataBufOk n s none order buckets) (real : lsa ≠ lsaNone) :
    (s.checkDataBufHit n lsa).isSome ↔ lsa ∈ order.map s.logicalSliceAddr := by
  constructor
  · intro found
    obtain ⟨⟨e, s'⟩, hit⟩ := Option.isSome_iff_exists.mp found
    obtain ⟨inside, owner, -⟩ := ok.checkDataBufHit hit
    exact List.mem_map.mpr ⟨e, (ok.entries e).mpr inside, owner⟩
  · intro listed
    obtain ⟨e, member, owner⟩ := List.mem_map.mp listed
    by_contra miss
    exact ok.missed real (by simpa using miss) e ((ok.entries e).mp member) owner

end DataBufOk

namespace RefinesLru

theorem init (pos : 0 < n) (few : n < dataBufNone) :
    RefinesLru n [] (initDataBuf n) (List.range n) fun _ => [] where
  lists := .init pos few
  cached := by
    have none : ∀ l : List Nat, l.map (fun _ => lsaNone) = List.replicate l.length lsaNone :=
      fun l => List.map_const' ..
    simp [initDataBuf, recent, LruCache.byLastUse, none]

theorem mem_cached (ok : RefinesLru n history s order buckets) (real : lsa ≠ lsaNone) :
    lsa ∈ order.map s.logicalSliceAddr ↔ lsa ∈ recent n history := by
  simp [ok.cached, real]

/-- The entry of a slice moves to the front with it. -/
theorem hit (ok : RefinesLru n history s order buckets) (real : lsa ≠ lsaNone)
    (found : s.checkDataBufHit n lsa = some (e, s')) :
    RefinesLru n (history ++ [lsa]) s' (e :: order.erase e) buckets := by
  obtain ⟨inside, owner, same, -, lists⟩ := ok.lists.checkDataBufHit found
  refine ⟨lists, ?_⟩
  have listed : e ∈ order := (ok.lists.entries e).mpr inside
  have member : lsa ∈ recent n history := by
    rw [← ok.mem_cached real, ← ok.lists.checkDataBufHit_isSome real, found]
    rfl
  have erased : (order.erase e).map s.logicalSliceAddr = (order.map s.logicalSliceAddr).erase lsa := by
    obtain ⟨front, back, shape⟩ := List.append_of_mem listed
    obtain ⟨notFront, -⟩ := ok.lists.lru.split_ne (k := ()) shape
    have other : lsa ∉ front.map s.logicalSliceAddr := by
      intro again
      obtain ⟨x, hx, same⟩ := List.mem_map.mp again
      have low : x < n := (ok.lists.entries x).mp (by simp [shape, hx])
      have twice := ok.lists.owner x e low inside (same ▸ real) (same.trans owner.symm)
      exact notFront (twice ▸ hx)
    rw [shape, List.erase_append_right _ notFront, List.erase_cons_head, List.map_append,
      List.map_append, List.map_cons, owner, List.erase_append_right _ other, List.erase_cons_head]
  have some : 0 < (recent n history).length := List.length_pos_of_mem member
  rw [same, List.map_cons, owner, erased, ok.cached, List.erase_append_left _ member, recent_hit member,
    List.length_cons, List.length_erase_of_mem member, Nat.sub_add_cancel some, List.cons_append]

/-- The entry used longest ago moves to the front, for the new slice. -/
theorem miss (ok : RefinesLru n history s order buckets) (real : lsa ≠ lsaNone)
    (missed : s.checkDataBufHit n lsa = none) :
    ∃ e s' buckets', s.allocateDataBuf n = some (e, s') ∧
      RefinesLru n (history ++ [lsa]) ((s'.setLsa e lsa).putToDataBufHashList n e) (e :: order.erase e)
        buckets' := by
  obtain ⟨e, s', allocated, oldest, inside, same, -, buckets', detached⟩ := ok.lists.allocateDataBuf
  have new := ok.lists.missed real missed
  obtain ⟨buckets'', lists⟩ := detached.attach real inside (same ▸ new)
  refine ⟨e, s', buckets'', allocated, lists, ?_⟩
  have listed : e ∈ order := (ok.lists.entries e).mpr inside
  have some : order ≠ [] := List.ne_nil_of_mem listed
  obtain ⟨front, z, shape⟩ : ∃ front z, order = front ++ [z] :=
    ⟨_, _, (List.dropLast_append_getLast some).symm⟩
  obtain rfl : e = z := by rw [oldest, ok.lists.lru.tail (), shape, List.getLastD_concat]
  obtain ⟨notFront, -⟩ := ok.lists.lru.split_ne (k := ()) shape
  have erased : order.erase e = front := by
    rw [shape, List.erase_append_right _ notFront, List.erase_cons_head, List.append_nil]
  have others : front.map ((s'.setLsa e lsa).putToDataBufHashList n e).logicalSliceAddr =
      (order.map s.logicalSliceAddr).dropLast := by
    have kept : ∀ x ∈ front, ((s'.setLsa e lsa).putToDataBufHashList n e).logicalSliceAddr x =
        s.logicalSliceAddr x := by
      intro x hx
      have diff : x ≠ e := fun here => notFront (here ▸ hx)
      simp [DataBuf.putToDataBufHashList, DataBuf.setLsa, diff, same]
    rw [List.map_congr_left kept, shape, List.map_append, List.map_singleton, List.dropLast_concat]
  have first : ((s'.setLsa e lsa).putToDataBufHashList n e).logicalSliceAddr e = lsa := by
    simp [DataBuf.putToDataBufHashList, DataBuf.setLsa]
  have unused : lsa ∉ recent n history := by
    rw [← ok.mem_cached real, ← ok.lists.checkDataBufHit_isSome real, missed]
    simp
  rw [erased, List.map_cons, first, others, ok.cached]
  by_cases full : (recent n history).length = n
  · rw [recent_evict ok.lists.pos unused full, List.length_cons, List.length_dropLast, full,
      Nat.sub_self, Nat.sub_add_cancel ok.lists.pos, Nat.sub_self]
    simp
  · have short := length_recent_le n history
    have space : (recent n history).length < n := by omega
    obtain ⟨m, left⟩ : ∃ m, n - (recent n history).length = m + 1 :=
      ⟨n - (recent n history).length - 1, by omega⟩
    have after : n - ((recent n history).length + 1) = m := by omega
    rw [recent_miss unused space, List.length_cons, left, after, List.replicate_succ',
      ← List.append_assoc, List.dropLast_concat, List.cons_append]

/-- The buffer steps of one slice never fail, and refine one use of it. -/
theorem step (ok : RefinesLru n history s order buckets) (real : lsa ≠ lsaNone) :
    ∃ e s' buckets', s.bufEntryOf n lsa = some (e, s') ∧
      RefinesLru n (history ++ [lsa]) s' (e :: order.erase e) buckets' := by
  unfold DataBuf.bufEntryOf
  cases found : s.checkDataBufHit n lsa with
  | some hit =>
    obtain ⟨e, s'⟩ := hit
    exact ⟨e, s', buckets, rfl, ok.hit real found⟩
  | none =>
    obtain ⟨e, s', buckets', allocated, after⟩ := ok.miss real found
    exact ⟨e, _, buckets', by simp [allocated], after⟩

/-- So do those of a sequence of slices. -/
theorem steps (pos : 0 < n) (few : n < dataBufNone) (real : ∀ lsa ∈ history, lsa ≠ lsaNone) :
    ∃ s order buckets, (initDataBuf n).bufEntriesOf n history = some s ∧
      RefinesLru n history s order buckets := by
  induction history using List.reverseRecOn with
  | nil => exact ⟨_, _, _, rfl, init pos few⟩
  | append_singleton history lsa ih =>
    obtain ⟨s, order, buckets, ran, ok⟩ := ih fun x listed => real x (by simp [listed])
    obtain ⟨e, s', buckets', stepped, after⟩ := ok.step (real lsa (by simp))
    refine ⟨s', _, buckets', ?_, after⟩
    rw [DataBuf.bufEntriesOf] at ran ⊢
    simp [ran, stepped]

end RefinesLru

/-- The directory is an exact LRU cache after a sequence of slices: lists and buckets are
well formed, a lookup finds an entry exactly when one has the slice, and the entry a miss
recycles is the one used longest ago, which is then in no bucket. -/
structure ExactLru (n : Nat) (history : List Nat) (s : DataBuf) (order : List Nat)
    (buckets : Nat → List Nat) : Prop extends RefinesLru n history s order buckets where
  hits : ∀ lsa, lsa ≠ lsaNone →
    ((s.checkDataBufHit n lsa).isSome ↔ ∃ e < n, s.logicalSliceAddr e = lsa)
  caches : ∀ lsa, lsa ≠ lsaNone → ((∃ e < n, s.logicalSliceAddr e = lsa) ↔ lsa ∈ recent n history)
  hitOwner : ∀ lsa e s', s.checkDataBufHit n lsa = some (e, s') → e < n ∧ s.logicalSliceAddr e = lsa
  recycled : ∃ e s' buckets', s.allocateDataBuf n = some (e, s') ∧ order.getLast? = some e ∧
    (∀ b, e ∉ buckets' b) ∧ DataBufOk n s' (some e) (e :: order.erase e) buckets'

/-- For every number of entries and every sequence of slices, the buffer steps run and
the directory is an exact LRU cache. -/
theorem dataBuf_exact_lru (n : Nat) (history : List Nat) (pos : 1 ≤ n) (few : n ≤ dataBufNone - 1)
    (real : ∀ lsa ∈ history, lsa ≠ lsaNone) :
    ∃ s order buckets, (initDataBuf n).bufEntriesOf n history = some s ∧
      ExactLru n history s order buckets := by
  have width : n < dataBufNone := Nat.lt_of_le_pred (by decide) few
  obtain ⟨s, order, buckets, ran, ok⟩ := RefinesLru.steps pos width real
  have owners : ∀ lsa, lsa ∈ order.map s.logicalSliceAddr ↔ ∃ e < n, s.logicalSliceAddr e = lsa := by
    simp [ok.lists.entries]
  refine ⟨s, order, buckets, ran, ok, fun lsa real => ?_, fun lsa real => ?_, fun lsa e s' hit => ?_, ?_⟩
  · rw [ok.lists.checkDataBufHit_isSome real, owners]
  · rw [← owners, ok.mem_cached real]
  · obtain ⟨inside, owner, -⟩ := ok.lists.checkDataBufHit hit
    exact ⟨inside, owner⟩
  · obtain ⟨e, s', allocated, oldest, inside, -, -, buckets', detached⟩ := ok.lists.allocateDataBuf
    refine ⟨e, s', buckets', allocated, ?_, fun b listed => ?_, detached⟩
    · have some : order ≠ [] := List.ne_nil_of_mem ((ok.lists.entries e).mpr inside)
      have last : order.getLastD dataBufNone = order.getLast some := by
        rw [List.getLastD_eq_getLast?, List.getLast?_eq_some_getLast some, Option.getD_some]
      rw [oldest, ok.lists.lru.tail (), last, List.getLast?_eq_some_getLast]
    · exact ((detached.bucketed b e).mp listed).1 rfl

/-- Two entries and four slices; the last one recycles the entry of the second. -/
theorem dataBuf_exact_lru_evicts :
    ∃ s order buckets, (initDataBuf 2).bufEntriesOf 2 [5, 6, 5, 7] = some s ∧
      ExactLru 2 [5, 6, 5, 7] s order buckets :=
  dataBuf_exact_lru 2 [5, 6, 5, 7] (by decide) (by decide) (by decide)

end OcpFw
