import OcpFw.AccessOrder
import OcpFw.BufferSteps

/-! What the requests of the buffer manager do to the data in the buffer and in flash.
Flash is a store by slice address. The data found under a slice is described by a
predicate; consuming a slice keeps the predicate for all of the buffer and of flash,
whatever is hit, recycled, written back or read. -/
namespace OcpFw
open AccessOrder (Semantics)
open AccessOrder.Semantics (replay_append)

/-- Where the data of a slice can be: in an entry of the buffer, or in flash. -/
inductive Place where
  | buf (dataBufEntry : Nat)
  | flash (logicalSliceAddr : Nat)
  deriving DecidableEq

/-- A block moved to the host for a slice. -/
structure Delivery (D : Type) where
  slice : Nat
  block : Nat
  data : D

namespace LowLevelReq
variable {D : Type}

/-- The place of the data in the buffer. -/
def bufPlace (r : LowLevelReq) : Place := .buf r.req.dataBufInfo

/-- The place of the data in flash. -/
def flashPlace (r : LowLevelReq) : Place := .flash r.req.logicalSliceAddr

def touches (r : LowLevelReq) : List Place :=
  match r.req.reqCode with
  | .write | .read => [r.bufPlace, r.flashPlace]
  | _ => [r.bufPlace]

/-- A DMA request moves the block at this position of its slice. -/
def Moves (r : LowLevelReq) (p : Nat) : Prop :=
  r.req.nvmeDmaInfo.nvmeBlockOffset ≤ p ∧
    p < r.req.nvmeDmaInfo.nvmeBlockOffset + r.req.nvmeDmaInfo.numOfNvmeBlock

instance (r : LowLevelReq) (p : Nat) : Decidable (r.Moves p) := inferInstanceAs (Decidable (_ ∧ _))

/-- A NAND request copies a whole slice; a DMA request writes the blocks the host has for
the slice it belongs to. -/
def apply (hostData : Nat → Nat → D) (r : LowLevelReq) (m : Place → Nat → D) : Place → Nat → D :=
  match r.req.reqCode with
  | .write => Function.update m r.flashPlace (m r.bufPlace)
  | .read => Function.update m r.bufPlace (m r.flashPlace)
  | .rxDma =>
    Function.update m r.bufPlace fun p => if r.Moves p then hostData r.slice p else m r.bufPlace p
  | _ => m

/-- The blocks a TxDMA request delivers. -/
def deliveries (r : LowLevelReq) (m : Place → Nat → D) : List (Delivery D) :=
  if r.req.reqCode = .txDma then
    (List.range r.req.nvmeDmaInfo.numOfNvmeBlock).map fun i =>
      ⟨r.slice, r.req.nvmeDmaInfo.nvmeBlockOffset + i, m r.bufPlace (r.req.nvmeDmaInfo.nvmeBlockOffset + i)⟩
  else []

end LowLevelReq

/-- The requests as operations on the places. Those that touch one place stay in order. -/
def bufferSemantics {D : Type} (hostData : Nat → Nat → D) :
    Semantics LowLevelReq Place (Nat → D) (List (Delivery D)) where
  Reads r l := l ∈ r.touches
  Writes r l := l ∈ r.touches
  apply := LowLevelReq.apply hostData
  output := LowLevelReq.deliveries
  frame r m l out := by
    unfold LowLevelReq.touches at out
    unfold LowLevelReq.apply
    cases code : r.req.reqCode <;> simp_all
  local_apply r m m' same l touched := by
    have here := same l touched
    unfold LowLevelReq.touches at same
    unfold LowLevelReq.apply
    cases code : r.req.reqCode <;> simp_all [Function.update_apply]
  local_output r m m' same := by
    have here : m r.bufPlace = m' r.bufPlace := same _ (by
      unfold LowLevelReq.touches
      cases r.req.reqCode <;> simp)
    simp [LowLevelReq.deliveries, here]

instance {D : Type} (hostData : Nat → Nat → D) : DecidableRel (bufferSemantics hostData).Conflict := fun r r' =>
  decidable_of_iff (∃ l ∈ r.touches, l ∈ r'.touches) (by simp [Semantics.Conflict, bufferSemantics])

/-! ### What the data found under a slice is -/

/-- The slice writes the block at this position of a slice. -/
def SliceReq.Writes (slice : SliceReq) (lsa p : Nat) : Prop :=
  slice.reqCode = .write ∧ slice.logicalSliceAddr = lsa ∧ slice.nvmeBlockOffset ≤ p ∧
    p < slice.nvmeBlockOffset + slice.numOfNvmeBlock

instance (slice : SliceReq) (lsa p : Nat) : Decidable (slice.Writes lsa p) :=
  inferInstanceAs (Decidable (_ ∧ _))

namespace BufferManager
variable {F D : Type}

/-- Some entry holds data of the slice that flash does not have. -/
def HeldDirty (g : Geometry) (s : BufferManager F) (lsa : Nat) : Prop :=
  ∃ e < availableDataBufferEntryCount g, s.buf.logicalSliceAddr e = lsa ∧ s.buf.dirty e = true

/-- What is found under a slice has the property: in the entry of the slice, and in flash
unless an entry holds something newer. -/
structure Holds (g : Geometry) (M : SliceMap F) (P : Nat → Nat → D → Prop) (s : BufferManager F)
    (m : Place → Nat → D) : Prop where
  entry : ∀ e < availableDataBufferEntryCount g, ∀ p < nvmeBlocksPerSlice,
    P (s.buf.logicalSliceAddr e) p (m (.buf e) p)
  flash : ∀ lsa, M.Mapped s.map lsa → s.HeldDirty g lsa ∨ ∀ p < nvmeBlocksPerSlice, P lsa p (m (.flash lsa) p)

/-- The requests of a slice with the number of slices before it. -/
def tagged (s : BufferManager F) (reqs : List SsdReq) : List LowLevelReq :=
  reqs.map fun req => ⟨req, s.slices.length⟩

/-- A slice finds no data of its own: it misses, flash has nothing of it, and its entry is
not written as a whole. -/
def FindsNothing (g : Geometry) (M : SliceMap F) (s : BufferManager F) (slice : SliceReq) : Prop :=
  s.buf.checkDataBufHit (availableDataBufferEntryCount g) slice.logicalSliceAddr = none ∧
    ¬ M.Mapped s.map slice.logicalSliceAddr ∧ NeedsContent slice

variable {g : Geometry} {M : SliceMap F} {P P' : Nat → Nat → D → Prop} {s s' : BufferManager F}
  {m : Place → Nat → D} {hostData : Nat → Nat → D} {slice : SliceReq} {e : Nat}
  {before evict fill : List SsdReq} {map : F} {held : Bool} {dma : SsdReq}

/-- The memory after the requests of a slice that come before its DMA request. -/
def memoryAfter (hostData : Nat → Nat → D) (s : BufferManager F) (m : Place → Nat → D)
    (reqs : List SsdReq) : Place → Nat → D :=
  (bufferSemantics hostData).replay m (s.tagged reqs)

theorem memoryAfter_append (reqs reqs' : List SsdReq) :
    s.memoryAfter hostData m (reqs ++ reqs') =
      s.memoryAfter hostData (s.memoryAfter hostData m reqs) reqs' := by
  unfold memoryAfter tagged
  rw [List.map_append, replay_append]

/-- Halfway through a slice: the other entries have the property, so has the entry of the
slice wherever the slice does not write it, and flash unless some entry is newer. -/
structure Prepared (g : Geometry) (M : SliceMap F) (P : Nat → Nat → D → Prop) (s : BufferManager F)
    (slice : SliceReq) (e : Nat) (map : F) (held : Bool) (m : Place → Nat → D) : Prop where
  others : ∀ x < availableDataBufferEntryCount g, x ≠ e → ∀ p < nvmeBlocksPerSlice,
    P (s.buf.logicalSliceAddr x) p (m (.buf x) p)
  entry : ∀ p < nvmeBlocksPerSlice, ¬ slice.Writes slice.logicalSliceAddr p →
    P slice.logicalSliceAddr p (m (.buf e) p)
  flash : ∀ lsa, M.Mapped map lsa →
    (∃ x < availableDataBufferEntryCount g, x ≠ e ∧ s.buf.logicalSliceAddr x = lsa ∧
      s.buf.dirty x = true) ∨
    (held = true ∧ lsa = slice.logicalSliceAddr) ∨ ∀ p < nvmeBlocksPerSlice, P lsa p (m (.flash lsa) p)

variable (hostData) in
/-- A write back moves the newest data of the old slice to flash. -/
theorem Evicts.holds (evicts : Evicts M s e evict map)
    (mapsOnly : s.buf.dirty e = true → M.MapsOnly s.map (s.buf.logicalSliceAddr e))
    (inside : e < availableDataBufferEntryCount g) (ok : s.Holds g M P m) :
    let m' := s.memoryAfter hostData m evict
    (∀ x, m' (.buf x) = m (.buf x)) ∧
      ∀ lsa, M.Mapped map lsa →
        (∃ x < availableDataBufferEntryCount g, x ≠ e ∧ s.buf.logicalSliceAddr x = lsa ∧
          s.buf.dirty x = true) ∨
        ∀ p < nvmeBlocksPerSlice, P lsa p (m' (.flash lsa) p) := by
  cases evicts with
  | clean clean =>
    refine ⟨fun _ => rfl, fun lsa mapped => ?_⟩
    rcases ok.flash lsa mapped with ⟨x, low, owner, dirty⟩ | good
    · refine .inl ⟨x, low, ?_, owner, dirty⟩
      rintro rfl
      simp [clean] at dirty
    · exact .inr good
  | @dirty vsa _ tag dirty written =>
    have after : s.memoryAfter hostData m [evictReq tag (s.buf.logicalSliceAddr e) e vsa] =
        Function.update m (.flash (s.buf.logicalSliceAddr e)) (m (.buf e)) := rfl
    simp only [after]
    refine ⟨fun x => by simp, fun lsa now => ?_⟩
    by_cases same : lsa = s.buf.logicalSliceAddr e
    · subst same
      simpa using .inr (ok.entry e inside)
    · have old : M.Mapped s.map lsa := ((mapsOnly dirty _ _ written lsa).mp now).resolve_left same
      rcases ok.flash lsa old with ⟨x, low, holds, newer⟩ | good
      · refine .inl ⟨x, low, ?_, holds, newer⟩
        rintro rfl
        exact same holds.symm
      · exact .inr (by simpa [same] using good)

/-- The write that needs no content writes every block. -/
theorem writes_of_whole (code : slice.reqCode = .read ∨ slice.reqCode = .write)
    (inside : slice.nvmeBlockOffset + slice.numOfNvmeBlock ≤ nvmeBlocksPerSlice)
    (whole : ¬ NeedsContent slice) {p : Nat} (low : p < nvmeBlocksPerSlice) :
    slice.Writes slice.logicalSliceAddr p := by
  unfold NeedsContent at whole
  push Not at whole
  obtain ⟨notRead, all⟩ := whole
  refine ⟨code.resolve_left notRead, rfl, ?_, ?_⟩ <;> omega

variable (hostData) in
/-- Consuming a slice up to its DMA request. -/
theorem Prepares.prepared (prepares : Prepares g M s slice e before map held)
    (lists : s.ListsOk g) (real : slice.logicalSliceAddr ≠ lsaNone)
    (code : slice.reqCode = .read ∨ slice.reqCode = .write)
    (fits : slice.nvmeBlockOffset + slice.numOfNvmeBlock ≤ nvmeBlocksPerSlice)
    (mapsOnly : s.EvictMapsOnly g M slice) (inside : e < availableDataBufferEntryCount g) (ok : s.Holds g M P m)
    (stale : s.FindsNothing g M slice → ∀ p < nvmeBlocksPerSlice, ¬ slice.Writes slice.logicalSliceAddr p →
      P slice.logicalSliceAddr p (m (.buf (s.buf.lru.tail ())) p)) :
    Prepared g M P s slice e map held (s.memoryAfter hostData m before) := by
  cases prepares with
  | hit owner =>
    refine ⟨fun x low _ p => ok.entry x low p, fun p low _ => owner ▸ ok.entry e inside p low, ?_⟩
    intro lsa mapped
    rcases ok.flash lsa mapped with ⟨x, low, holds, newer⟩ | good
    · by_cases same : x = e
      · subst same
        exact .inr (.inl ⟨newer, holds.symm.trans owner⟩)
      · exact .inl ⟨x, low, same, holds, newer⟩
    · exact .inr (.inr good)
  | miss evict fill map missed oldest evicts fills =>
    obtain ⟨order, buckets, listed⟩ := lists
    have new := listed.missed real missed
    have onlyOwn : s.buf.dirty e = true → M.MapsOnly s.map (s.buf.logicalSliceAddr e) := oldest ▸ mapsOnly missed
    obtain ⟨kept, flash⟩ := evicts.holds hostData onlyOwn inside ok
    rw [memoryAfter_append]
    set m' := s.memoryAfter hostData m evict
    have newest : M.Mapped map slice.logicalSliceAddr →
        ∀ p < nvmeBlocksPerSlice, P slice.logicalSliceAddr p (m' (.flash slice.logicalSliceAddr) p) := by
      intro mapped
      rcases flash _ mapped with ⟨x, low, -, holds, -⟩ | good
      · exact absurd holds (new x low)
      · exact good
    have same : ∀ lsa, lsa = slice.logicalSliceAddr → (M.Mapped s.map lsa → M.Mapped map lsa) := by
      rintro lsa - mapped
      cases evicts with
      | clean => exact mapped
      | dirty dirty written => exact (onlyOwn dirty _ _ written lsa).mpr (.inr mapped)
    have others : ∀ x < availableDataBufferEntryCount g, ∀ p < nvmeBlocksPerSlice,
        P (s.buf.logicalSliceAddr x) p (m' (.buf x) p) := by
      intro x low p small
      rw [kept x]
      exact ok.entry x low p small
    have empty : s.memoryAfter hostData m' [] = m' := rfl
    cases fills with
    | whole whole =>
      rw [empty]
      refine ⟨fun x low diff p small => ?_, fun p low unwritten => ?_, fun lsa mapped => ?_⟩
      · exact others x low p small
      · exact absurd (writes_of_whole code fits whole low) unwritten
      · exact (flash lsa mapped).imp_right .inr
    | unmapped needed unmapped =>
      rw [empty]
      refine ⟨fun x low diff p small => ?_, fun p low unwritten => ?_, fun lsa mapped => ?_⟩
      · exact others x low p small
      · have nothing : s.FindsNothing g M slice := ⟨missed, mt (same _ rfl) unmapped, needed⟩
        have found := stale nothing p low unwritten
        rwa [← oldest, ← kept e] at found
      · exact (flash lsa mapped).imp_right .inr
    | @mapped vsa tag needed found real =>
      have after : s.memoryAfter hostData m' [fillReq tag slice.logicalSliceAddr e vsa] =
          Function.update m' (.buf e) (m' (.flash slice.logicalSliceAddr)) := rfl
      rw [after]
      refine ⟨fun x low diff p small => ?_, fun p low unwritten => ?_, fun lsa mapped => ?_⟩
      · simpa [diff] using others x low p small
      · simpa using newest ⟨vsa, found, real⟩ p low
      · simp only [ne_eq, reduceCtorEq, not_false_eq_true, Function.update_of_ne]
        exact (flash lsa mapped).imp_right .inr

/-- The DMA request of a slice. -/
theorem dmaReq_spec (dmaReq : slice.dmaReq {} e = some dma) :
    dma.dataBufInfo = e ∧ dma.nvmeDmaInfo.nvmeBlockOffset = slice.nvmeBlockOffset ∧
      dma.nvmeDmaInfo.numOfNvmeBlock = slice.numOfNvmeBlock ∧
      ((slice.reqCode = .write ∧ dma.reqCode = .rxDma) ∨ (slice.reqCode = .read ∧ dma.reqCode = .txDma)) := by
  simp only [SliceReq.dmaReq, SliceReq.dmaCode] at dmaReq
  cases code : slice.reqCode <;>
    simp only [code, Option.bind_eq_bind, Option.bind_some, Option.bind_none, Option.some.injEq,
      reduceCtorEq] at dmaReq
  · subst dmaReq
    exact ⟨rfl, rfl, rfl, .inl ⟨rfl, rfl⟩⟩
  · subst dmaReq
    exact ⟨rfl, rfl, rfl, .inr ⟨rfl, rfl⟩⟩

/-- A DMA request writes the entry of its slice, at the blocks the slice writes. -/
theorem memoryAfter_dma (dmaReq : slice.dmaReq {} e = some dma) (m : Place → Nat → D) (l : Place) (p : Nat) :
    s.memoryAfter hostData m [dma] l p =
      if l = .buf e ∧ slice.Writes slice.logicalSliceAddr p then hostData s.slices.length p else m l p := by
  obtain ⟨entry, offset, count, ⟨write, rx⟩ | ⟨read, tx⟩⟩ := dmaReq_spec dmaReq
  · have place : ∀ t, LowLevelReq.bufPlace ⟨dma, t⟩ = .buf e := fun t => by
      rw [LowLevelReq.bufPlace, entry]
    by_cases here : l = .buf e
    · simp [memoryAfter, tagged, Semantics.replay, bufferSemantics, LowLevelReq.apply, rx, place, here,
        LowLevelReq.Moves, offset, count, SliceReq.Writes, write]
    · simp [memoryAfter, tagged, Semantics.replay, bufferSemantics, LowLevelReq.apply, rx, place, here]
  · have unwritten : ¬ slice.Writes slice.logicalSliceAddr p := by simp [SliceReq.Writes, read]
    simp [memoryAfter, tagged, Semantics.replay, bufferSemantics, LowLevelReq.apply, tx, unwritten]

/-- No other entry belongs to the slice. -/
theorem Prepares.alone (prepares : Prepares g M s slice e before map held) (lists : s.ListsOk g)
    (real : slice.logicalSliceAddr ≠ lsaNone) (inside : e < availableDataBufferEntryCount g) {x : Nat}
    (low : x < availableDataBufferEntryCount g) (diff : x ≠ e) :
    s.buf.logicalSliceAddr x ≠ slice.logicalSliceAddr := by
  obtain ⟨order, buckets, listed⟩ := lists
  cases prepares with
  | hit owner =>
    intro again
    exact diff (listed.owner x e low inside (again ▸ real) (again.trans owner.symm))
  | miss evict fill map missed oldest evicts fills => exact listed.missed real missed x low

/-- Consuming a slice keeps a property of the data found, if what an entry is left with
that finds nothing has it too. A write moves the property on at the blocks it writes. -/
theorem Consumes.holds (consumes : Consumes g M s slice s' e before held dma)
    (lists : s.ListsOk g) (real : slice.logicalSliceAddr ≠ lsaNone)
    (fits : slice.nvmeBlockOffset + slice.numOfNvmeBlock ≤ nvmeBlocksPerSlice)
    (mapsOnly : s.EvictMapsOnly g M slice) (ok : s.Holds g M P m)
    (stale : s.FindsNothing g M slice → ∀ p < nvmeBlocksPerSlice, ¬ slice.Writes slice.logicalSliceAddr p →
      P slice.logicalSliceAddr p (m (.buf (s.buf.lru.tail ())) p))
    (kept : ∀ lsa p d, ¬ slice.Writes lsa p → P lsa p d → P' lsa p d)
    (written : ∀ lsa p, slice.Writes lsa p → P' lsa p (hostData s.slices.length p)) :
    s'.Holds g M P' (s.memoryAfter hostData m (before ++ [dma])) := by
  have code := code_of_dmaReq consumes.dmaReq
  have ready := consumes.prepares.prepared hostData lists real code fits mapsOnly consumes.inside ok stale
  rw [memoryAfter_append]
  set m' := s.memoryAfter hostData m before
  constructor
  · intro x low p small
    rw [memoryAfter_dma consumes.dmaReq, consumes.lsa]
    by_cases here : x = e
    · subst here
      rw [Function.update_self]
      by_cases writes : slice.Writes slice.logicalSliceAddr p
      · rw [if_pos ⟨rfl, writes⟩]
        exact written _ p writes
      · rw [if_neg (fun h => writes h.2)]
        exact kept _ p _ writes (ready.entry p small writes)
    · have other := consumes.prepares.alone lists real consumes.inside low here
      rw [Function.update_of_ne here, if_neg (by simp [here])]
      exact kept _ p _ (fun h => other h.2.1.symm) (ready.others x low here p small)
  · intro lsa mapped
    by_cases newer : slice.logicalSliceAddr = lsa ∧ (slice.reqCode = .write ∨ held = true)
    · refine .inl ⟨e, consumes.inside, ?_, ?_⟩
      · rw [consumes.lsa, Function.update_self, newer.1]
      · rw [consumes.dirty, Function.update_self]
        rcases newer.2 with write | held <;> simp [*]
    · rcases ready.flash lsa mapped with ⟨x, low, diff, owner, dirty⟩ | ⟨held, same⟩ | good
      · refine .inl ⟨x, low, ?_, ?_⟩
        · rw [consumes.lsa, Function.update_of_ne diff, owner]
        · rw [consumes.dirty, Function.update_of_ne diff, dirty]
      · exact absurd ⟨same.symm, .inr held⟩ newer
      · refine .inr fun p small => ?_
        rw [memoryAfter_dma consumes.dmaReq, if_neg (by simp)]
        exact kept lsa p _ (fun h => newer ⟨h.2.1, .inl h.1⟩) (good p small)

/-- What the requests of a slice deliver is what its entry holds once it is prepared. -/
theorem Consumes.deliveries (consumes : Consumes g M s slice s' e before held dma)
    (m : Place → Nat → D) {i : Nat} {r : LowLevelReq} (new : s.submitted.length ≤ i)
    (listed : s'.submitted[i]? = some r) {d : Delivery D}
    (delivered : d ∈ r.deliveries ((bufferSemantics hostData).replay m (s'.submitted.take i))) :
    d.slice = s.slices.length ∧ slice.reqCode = .read ∧ slice.nvmeBlockOffset ≤ d.block ∧
      d.block < slice.nvmeBlockOffset + slice.numOfNvmeBlock ∧
      d.data = s.memoryAfter hostData ((bufferSemantics hostData).replay m s.submitted) before (.buf e)
        d.block := by
  obtain ⟨j, rfl⟩ := Nat.exists_eq_add_of_le new
  rw [consumes.submitted, List.getElem?_append_right (by omega), Nat.add_sub_cancel_left,
    List.map_append] at listed
  have nand := consumes.prepares.nand
  by_cases inside : j < before.length
  · rw [List.getElem?_append_left (by simpa using inside), List.getElem?_map] at listed
    obtain ⟨req, at_, rfl⟩ := Option.map_eq_some_iff.mp listed
    obtain ⟨tag, lsa, vsa, rfl | rfl⟩ := nand req (List.mem_of_getElem? at_)
    · simp [LowLevelReq.deliveries, evictReq] at delivered
    · simp [LowLevelReq.deliveries, fillReq] at delivered
  · have last : j = before.length := by
      have bound := (List.getElem?_eq_some_iff.mp listed).1
      simp at bound
      omega
    subst last
    rw [List.getElem?_append_right (by simp)] at listed
    obtain rfl : r = ⟨dma, s.slices.length⟩ := by simpa [eq_comm] using listed
    have shape : s'.submitted.take (s.submitted.length + before.length) = s.submitted ++ s.tagged before := by
      rw [consumes.submitted, List.take_append, List.take_of_length_le (by omega), Nat.add_sub_cancel_left,
        List.map_append, List.take_left' (by simp)]
      rfl
    obtain ⟨entry, offset, count, ⟨-, rx⟩ | ⟨read, tx⟩⟩ := dmaReq_spec consumes.dmaReq
    · simp [LowLevelReq.deliveries, rx] at delivered
    · rw [shape, replay_append] at delivered
      simp only [LowLevelReq.deliveries, tx, if_true, List.mem_map, List.mem_range, offset, count] at delivered
      obtain ⟨p, low, rfl⟩ := delivered
      refine ⟨rfl, read, Nat.le_add_right _ _, Nat.add_lt_add_left low _, ?_⟩
      rw [LowLevelReq.bufPlace, entry]
      rfl

/-- What is delivered for a slice is what its entry holds once it is prepared. -/
theorem Consumes.entry (consumes : Consumes g M s slice s' e before held dma)
    (lists : s.ListsOk g) (real : slice.logicalSliceAddr ≠ lsaNone)
    (fits : slice.nvmeBlockOffset + slice.numOfNvmeBlock ≤ nvmeBlocksPerSlice)
    (mapsOnly : s.EvictMapsOnly g M slice) (ok : s.Holds g M P m)
    (stale : s.FindsNothing g M slice → ∀ p < nvmeBlocksPerSlice, ¬ slice.Writes slice.logicalSliceAddr p →
      P slice.logicalSliceAddr p (m (.buf (s.buf.lru.tail ())) p)) (read : slice.reqCode = .read) :
    ∀ p < nvmeBlocksPerSlice, P slice.logicalSliceAddr p (s.memoryAfter hostData m before (.buf e) p) := by
  intro p low
  have code := code_of_dmaReq consumes.dmaReq
  have ready := consumes.prepares.prepared hostData lists real code fits mapsOnly consumes.inside ok stale
  exact ready.entry p low fun writes => by simp [writes.1] at read

/-! ### All requests in the order of submission -/

/-- The block belongs to a READ slice, and its data has the property that the slices before
it give. -/
def DeliversAs (P : List SliceReq → Nat → Nat → D → Prop) (slices : List SliceReq) (d : Delivery D) : Prop :=
  ∃ slice, slices[d.slice]? = some slice ∧ slice.reqCode = .read ∧ slice.nvmeBlockOffset ≤ d.block ∧
    d.block < slice.nvmeBlockOffset + slice.numOfNvmeBlock ∧
    P (slices.take d.slice) slice.logicalSliceAddr d.block d.data

/-- A block of an earlier slice was delivered for good. -/
theorem DeliversAs.append {P : List SliceReq → Nat → Nat → D → Prop} {slices : List SliceReq} {d : Delivery D}
    (delivers : DeliversAs P slices d) (slice : SliceReq) : DeliversAs P (slices ++ [slice]) d := by
  obtain ⟨own, listed, read, low, high, shown⟩ := delivers
  have inside : d.slice < slices.length := (List.getElem?_eq_some_iff.mp listed).1
  refine ⟨own, ?_, read, low, high, ?_⟩
  · rw [List.getElem?_append_left inside, listed]
  · rwa [List.take_append_of_le_length inside.le]

/-- Were all requests carried out as they are submitted, the data found and the blocks
delivered would have the property. -/
structure ReplayOk (g : Geometry) (M : SliceMap F) (hostData : Nat → Nat → D) (memory : Place → Nat → D)
    (P : List SliceReq → Nat → Nat → D → Prop) (s : BufferManager F) : Prop where
  lists : s.ListsOk g
  holds : s.Holds g M (P s.slices) ((bufferSemantics hostData).replay memory s.submitted)
  delivers : ∀ i r, s.submitted[i]? = some r →
    ∀ d ∈ LowLevelReq.deliveries r ((bufferSemantics hostData).replay memory (s.submitted.take i)),
      DeliversAs P s.slices d

theorem ReplayOk.init {memory : Place → Nat → D} {P : List SliceReq → Nat → Nat → D → Prop} (map : F)
    (holds : ∀ lsa l p, P [] lsa p (memory l p)) : (initBufferManager g map).ReplayOk g M hostData memory P where
  lists := initBufferManager_lists g map
  holds := ⟨fun e _ p _ => holds _ (.buf e) p, fun lsa _ => .inr fun p _ => holds lsa (.flash lsa) p⟩
  delivers i r listed := by simp [initBufferManager] at listed

/-- Consuming a slice keeps the property, under the conditions of `Consumes.holds`. -/
theorem ReplayOk.consume {memory : Place → Nat → D} {P : List SliceReq → Nat → Nat → D → Prop}
    (ok : s.ReplayOk g M hostData memory P) (real : slice.logicalSliceAddr ≠ lsaNone)
    (fits : slice.nvmeBlockOffset + slice.numOfNvmeBlock ≤ nvmeBlocksPerSlice)
    (mapsOnly : s.EvictMapsOnly g M slice) (done : reqTransSliceToLowLevel g M s slice = some s')
    (stale : s.FindsNothing g M slice → ∀ p < nvmeBlocksPerSlice, ¬ slice.Writes slice.logicalSliceAddr p →
      P s.slices slice.logicalSliceAddr p
        ((bufferSemantics hostData).replay memory s.submitted (.buf (s.buf.lru.tail ())) p))
    (kept : ∀ lsa p d, ¬ slice.Writes lsa p → P s.slices lsa p d → P (s.slices ++ [slice]) lsa p d)
    (written : ∀ lsa p, slice.Writes lsa p →
      P (s.slices ++ [slice]) lsa p (hostData s.slices.length p)) :
    s'.ReplayOk g M hostData memory P := by
  obtain ⟨lists, e, before, held, dma, consumes⟩ := reqTransSliceToLowLevel_consumes ok.lists real done
  have holds := consumes.holds ok.lists real fits mapsOnly ok.holds stale kept written
  constructor
  · exact lists
  · simp only [consumes.slices, consumes.submitted, replay_append]
    exact holds
  · intro i r listed d member
    by_cases old : i < s.submitted.length
    · have shape : s'.submitted.take i = s.submitted.take i := by
        rw [consumes.submitted, List.take_append_of_le_length old.le]
      rw [consumes.submitted, List.getElem?_append_left old] at listed
      rw [shape] at member
      rw [consumes.slices]
      exact (ok.delivers i r listed d member).append slice
    · obtain ⟨number, read, low, high, data⟩ := consumes.deliveries memory (by omega) listed member
      refine ⟨slice, ?_, read, low, high, ?_⟩
      · simp [consumes.slices, number]
      · simp only [consumes.slices, number, List.take_left']
        rw [data]
        exact consumes.entry ok.lists real fits mapsOnly ok.holds stale read _ (by omega)

end BufferManager
end OcpFw
