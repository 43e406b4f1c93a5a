import OcpFw.DataBufferLists

/-! What consuming one slice does. A hit issues the DMA request of the slice alone; a miss
recycles the least recent entry, writes it back if it is dirty, and reads the new slice
from flash unless all of it is written or flash has nothing of it. -/
namespace OcpFw
namespace BufferManager

/-- The content of the slice is needed in the entry: all but a write of a whole slice. -/
def NeedsContent (slice : SliceReq) : Prop :=
  slice.reqCode = .read ∨ slice.numOfNvmeBlock ≠ nvmeBlocksPerSlice

instance (slice : SliceReq) : Decidable (NeedsContent slice) := inferInstanceAs (Decidable (_ ∨ _))

/-- The write back of an entry. -/
def evictReq (nvmeCmdSlotTag logicalSliceAddr dataBufEntry virtualSliceAddr : Nat) : SsdReq where
  reqType := .nand
  reqCode := .write
  nvmeCmdSlotTag := nvmeCmdSlotTag
  logicalSliceAddr := logicalSliceAddr
  dataBufFormat := .entry
  nandAddr := .vsa
  nandEcc := true
  nandEccWarning := true
  rowAddrDependencyCheck := true
  dataBufInfo := dataBufEntry
  virtualSliceAddr := virtualSliceAddr

/-- The read of a slice into its entry: the same fields but the code. -/
def fillReq (nvmeCmdSlotTag logicalSliceAddr dataBufEntry virtualSliceAddr : Nat) : SsdReq :=
  { evictReq nvmeCmdSlotTag logicalSliceAddr dataBufEntry virtualSliceAddr with reqCode := .read }

/-- The write back of a recycled entry, and the map after it. -/
inductive Evicts (M : SliceMap F) (s : BufferManager F) (dataBufEntry : Nat) : List SsdReq → F → Prop
  | clean (clean : s.buf.dirty dataBufEntry = false) : Evicts M s dataBufEntry [] s.map
  | dirty (dirty : s.buf.dirty dataBufEntry = true)
    (written : M.addrTransWrite s.map (s.buf.logicalSliceAddr dataBufEntry) = some (vsa, map')) :
    Evicts M s dataBufEntry [evictReq tag (s.buf.logicalSliceAddr dataBufEntry) dataBufEntry vsa] map'

/-- The read of a slice into the entry it is given. -/
inductive Fills (M : SliceMap F) (map : F) (slice : SliceReq) (dataBufEntry : Nat) : List SsdReq → Prop
  | whole (whole : ¬ NeedsContent slice) : Fills M map slice dataBufEntry []
  | unmapped (needed : NeedsContent slice) (unmapped : ¬ M.Mapped map slice.logicalSliceAddr) :
    Fills M map slice dataBufEntry []
  | mapped (needed : NeedsContent slice) (found : M.addrTransRead map slice.logicalSliceAddr = some vsa)
    (real : vsa ≠ vsaFail) : Fills M map slice dataBufEntry [fillReq tag slice.logicalSliceAddr dataBufEntry vsa]

/-- The requests before the DMA request of the slice, the map they leave, and whether the
entry then holds data that flash does not have. -/
inductive Prepares (g : Geometry) (M : SliceMap F) (s : BufferManager F) (slice : SliceReq)
    (dataBufEntry : Nat) : List SsdReq → F → Bool → Prop
  | hit (owner : s.buf.logicalSliceAddr dataBufEntry = slice.logicalSliceAddr) :
    Prepares g M s slice dataBufEntry [] s.map (s.buf.dirty dataBufEntry)
  | miss (evict fill : List SsdReq) (map : F)
    (missed : s.buf.checkDataBufHit (availableDataBufferEntryCount g) slice.logicalSliceAddr = none)
    (oldest : dataBufEntry = s.buf.lru.tail ())
    (evicts : Evicts M s dataBufEntry evict map) (fills : Fills M map slice dataBufEntry fill) :
    Prepares g M s slice dataBufEntry (evict ++ fill) map false

/-- All that consuming a slice does, apart from the lists of the entries. -/
structure Consumes (g : Geometry) (M : SliceMap F) (s : BufferManager F) (slice : SliceReq)
    (s' : BufferManager F) (dataBufEntry : Nat) (before : List SsdReq) (held : Bool) (dma : SsdReq) :
    Prop where
  inside : dataBufEntry < availableDataBufferEntryCount g
  prepares : Prepares g M s slice dataBufEntry before s'.map held
  dmaReq : slice.dmaReq {} dataBufEntry = some dma
  lsa : s'.buf.logicalSliceAddr =
    Function.update s.buf.logicalSliceAddr dataBufEntry slice.logicalSliceAddr
  dirty : s'.buf.dirty =
    Function.update s.buf.dirty dataBufEntry (decide (slice.reqCode = .write) || held)
  slices : s'.slices = s.slices ++ [slice]
  submitted : s'.submitted = s.submitted ++ (before ++ [dma]).map fun req => ⟨req, s.slices.length⟩

/-- The write back that a slice causes maps the slice written back and no other one. -/
def EvictMapsOnly (g : Geometry) (M : SliceMap F) (s : BufferManager F) (slice : SliceReq) : Prop :=
  s.buf.checkDataBufHit (availableDataBufferEntryCount g) slice.logicalSliceAddr = none →
    s.buf.dirty (s.buf.lru.tail ()) = true → M.MapsOnly s.map (s.buf.logicalSliceAddr (s.buf.lru.tail ()))

/-- The lists of the buffer are in order. -/
def ListsOk (g : Geometry) (s : BufferManager F) : Prop :=
  ∃ order buckets, DataBufOk (availableDataBufferEntryCount g) s.buf none order buckets

variable {g : Geometry} {M : SliceMap F} {s s' : BufferManager F} {slice : SliceReq} {origin : SsdReq}

/-- A write back depends on the entry's slice and dirty flag and on the map only. -/
theorem Evicts.congr {e : Nat} {evict : List SsdReq} {map : F} (evicts : Evicts M s e evict map)
    (lsa : s'.buf.logicalSliceAddr = s.buf.logicalSliceAddr) (dirty : s'.buf.dirty = s.buf.dirty)
    (sameMap : s'.map = s.map) : Evicts M s' e evict map := by
  cases evicts with
  | clean isClean => exact sameMap ▸ .clean (dirty ▸ isClean)
  | dirty isDirty written =>
    rw [← lsa]
    exact .dirty (dirty ▸ isDirty) (by rw [sameMap, lsa]; exact written)

/-- The requests before the DMA request are a write back and a read. -/
theorem Prepares.nand {e : Nat} {before : List SsdReq} {map : F} {held : Bool}
    (prepares : Prepares g M s slice e before map held) :
    ∀ req ∈ before, ∃ tag lsa vsa, req = evictReq tag lsa e vsa ∨ req = fillReq tag lsa e vsa := by
  cases prepares with
  | hit => simp
  | miss evict fill map missed oldest evicts fills =>
    intro req listed
    rcases List.mem_append.mp listed with listed | listed
    · cases evicts with
      | clean => simp at listed
      | dirty => exact ⟨_, _, _, .inl (List.mem_singleton.mp listed)⟩
    · cases fills with
      | whole => simp at listed
      | unmapped => simp at listed
      | mapped => exact ⟨_, _, _, .inr (List.mem_singleton.mp listed)⟩

theorem evictDataBufEntry_evicts (evicted : evictDataBufEntry M s origin = some s') :
    ∃ evict, Evicts M s origin.dataBufInfo evict s'.map ∧
      s'.buf = s.buf.setDirty origin.dataBufInfo false ∧ s'.slices = s.slices ∧
      s'.submitted = s.submitted ++ evict.map fun req => ⟨req, s.slices.length⟩ := by
  unfold evictDataBufEntry at evicted
  cases dirty : s.buf.dirty origin.dataBufInfo with
  | false =>
    simp only [dirty, Bool.false_eq_true, if_false, Option.some.injEq] at evicted
    subst evicted
    have same : s.buf.setDirty origin.dataBufInfo false = s.buf := by
      simp [DataBuf.setDirty, ← dirty]
    exact ⟨[], .clean dirty, same.symm, rfl, by simp⟩
  | true =>
    simp only [dirty, if_true, Option.bind_eq_bind, Option.bind_eq_some_iff, Option.some.injEq,
      Prod.exists] at evicted
    obtain ⟨vsa, map, written, rfl⟩ := evicted
    exact ⟨[evictReq origin.nvmeCmdSlotTag (s.buf.logicalSliceAddr origin.dataBufInfo) origin.dataBufInfo vsa],
      .dirty dirty written, rfl, rfl, rfl⟩

theorem dataReadFromNand_fills (needed : NeedsContent slice)
    (lsa : origin.logicalSliceAddr = slice.logicalSliceAddr)
    (filled : dataReadFromNand M s origin = some s') :
    ∃ fill, Fills M s.map slice origin.dataBufInfo fill ∧
      s'.buf = s.buf ∧ s'.map = s.map ∧ s'.slices = s.slices ∧
      s'.submitted = s.submitted ++ fill.map fun req => ⟨req, s.slices.length⟩ := by
  simp only [dataReadFromNand, Option.bind_eq_bind, Option.bind_eq_some_iff] at filled
  obtain ⟨vsa, found, filled⟩ := filled
  rw [lsa] at found
  split at filled
  · rename_i real
    cases filled
    refine ⟨[fillReq origin.nvmeCmdSlotTag slice.logicalSliceAddr origin.dataBufInfo vsa], .mapped needed found real,
      rfl, rfl, rfl, ?_⟩
    rw [← lsa]
    rfl
  · rename_i fail
    cases filled
    refine ⟨[], .unmapped needed ?_, rfl, rfl, rfl, by simp⟩
    rintro ⟨vsa', found', real⟩
    cases found.symm.trans found'
    exact fail real

theorem fillDataBufEntry_fills (code : slice.reqCode = .read ∨ slice.reqCode = .write)
    (lsa : origin.logicalSliceAddr = slice.logicalSliceAddr)
    (filled : fillDataBufEntry M s slice origin = some s') :
    ∃ fill, Fills M s.map slice origin.dataBufInfo fill ∧
      s'.buf = s.buf ∧ s'.map = s.map ∧ s'.slices = s.slices ∧
      s'.submitted = s.submitted ++ fill.map fun req => ⟨req, s.slices.length⟩ := by
  unfold fillDataBufEntry at filled
  split at filled
  · rename_i read
    exact dataReadFromNand_fills (.inl read) lsa filled
  · rename_i notRead
    have write := code.resolve_left notRead
    split at filled
    · rename_i part
      exact dataReadFromNand_fills (.inr part.2) lsa filled
    · rename_i whole
      cases filled
      refine ⟨[], .whole ?_, rfl, rfl, rfl, by simp⟩
      rintro (read | part)
      · exact notRead read
      · exact whole ⟨write, part⟩

/-- A miss prepares the recycled entry. -/
theorem missDataBuf_prepares {e : Nat} (lists : s.ListsOk g) (real : slice.logicalSliceAddr ≠ lsaNone)
    (code : slice.reqCode = .read ∨ slice.reqCode = .write)
    (missed : s.buf.checkDataBufHit (availableDataBufferEntryCount g) slice.logicalSliceAddr = none)
    (done : missDataBuf g M s slice = some (e, s')) :
    e < availableDataBufferEntryCount g ∧
      (∃ before, Prepares g M s slice e before s'.map false ∧
        s'.submitted = s.submitted ++ before.map fun req => ⟨req, s.slices.length⟩) ∧
      s'.buf.logicalSliceAddr = Function.update s.buf.logicalSliceAddr e slice.logicalSliceAddr ∧
      s'.buf.dirty = Function.update s.buf.dirty e false ∧ s'.slices = s.slices ∧ s'.ListsOk g := by
  obtain ⟨order, buckets, ok⟩ := lists
  obtain ⟨e', buf, allocated, oldest, inside, sameLsa, sameDirty, buckets', detached⟩ := ok.allocateDataBuf
  have new := ok.missed real missed
  simp only [missDataBuf, allocated, Option.bind_eq_bind, Option.bind_some, Option.bind_eq_some_iff,
    Option.some.injEq, Prod.mk.injEq] at done
  obtain ⟨t, evicted, u, filled, rfl, rfl⟩ := done
  obtain ⟨evict, evicts, evictBuf, evictSlices, evictSubmitted⟩ := evictDataBufEntry_evicts evicted
  obtain ⟨fill, fills, fillBuf, fillMap, fillSlices, fillSubmitted⟩ :=
    fillDataBufEntry_fills code (by rfl) filled
  simp only [setBuf] at evicts evictBuf evictSlices evictSubmitted
  simp only [setBuf] at fills fillBuf fillMap fillSlices fillSubmitted
  have fits : ∀ x < availableDataBufferEntryCount g, t.buf.logicalSliceAddr x ≠ slice.logicalSliceAddr := by
    rw [evictBuf]
    exact sameLsa ▸ new
  have clean := detached.setDirty e' false
  rw [← evictBuf] at clean
  obtain ⟨buckets'', attached⟩ := clean.attach real inside fits
  refine ⟨inside, ⟨evict ++ fill, ?_, ?_⟩, ?_, ?_, ?_, ?_⟩
  · rw [fillMap]
    exact .miss evict fill t.map missed oldest (evicts.congr sameLsa.symm sameDirty.symm rfl) fills
  · rw [fillSubmitted, evictSubmitted, evictSlices, List.map_append, List.append_assoc]
  · rw [fillBuf, evictBuf, ← sameLsa]
    rfl
  · rw [fillBuf, evictBuf, ← sameDirty]
    rfl
  · rw [fillSlices, evictSlices]
  · exact ⟨_, _, fillBuf ▸ attached⟩

theorem markDirty_spec (slice : SliceReq) (s : BufferManager F) (e : Nat) :
    (s.markDirty slice e).buf.logicalSliceAddr = s.buf.logicalSliceAddr ∧
      (s.markDirty slice e).buf.dirty =
        Function.update s.buf.dirty e (decide (slice.reqCode = .write) || s.buf.dirty e) ∧
      (s.markDirty slice e).map = s.map ∧ (s.markDirty slice e).slices = s.slices ∧
      (s.markDirty slice e).submitted = s.submitted ∧
      (s.ListsOk g → (s.markDirty slice e).ListsOk g) := by
  unfold markDirty
  by_cases write : slice.reqCode = .write
  · simp only [write, if_true, decide_true, Bool.true_or]
    exact ⟨rfl, rfl, rfl, rfl, rfl, fun ⟨order, buckets, ok⟩ => ⟨order, buckets, ok.setDirty e true⟩⟩
  · simp [write]

theorem code_of_dmaReq {e : Nat} {dma : SsdReq} (dmaReq : slice.dmaReq {} e = some dma) :
    slice.reqCode = .read ∨ slice.reqCode = .write := by
  simp only [SliceReq.dmaReq, SliceReq.dmaCode] at dmaReq
  cases code : slice.reqCode <;> simp_all

/-- What consuming a slice does. -/
theorem reqTransSliceToLowLevel_consumes (lists : s.ListsOk g) (real : slice.logicalSliceAddr ≠ lsaNone)
    (done : reqTransSliceToLowLevel g M s slice = some s') :
    s'.ListsOk g ∧ ∃ e before held dma, Consumes g M s slice s' e before held dma := by
  unfold reqTransSliceToLowLevel at done
  cases found : s.buf.checkDataBufHit (availableDataBufferEntryCount g) slice.logicalSliceAddr with
  | some hit =>
    obtain ⟨e, buf⟩ := hit
    obtain ⟨order, buckets, ok⟩ := lists
    obtain ⟨inside, owner, sameLsa, sameDirty, after⟩ := ok.checkDataBufHit found
    simp only [found, Option.bind_eq_bind, Option.bind_some, Option.bind_eq_some_iff,
      Option.some.injEq] at done
    obtain ⟨dma, dmaReq, rfl⟩ := done
    obtain ⟨lsa, dirty, map, slices, submitted, kept⟩ := markDirty_spec (g := g) slice (s.setBuf buf) e
    refine ⟨kept ⟨_, _, after⟩, e, [], s.buf.dirty e, dma, inside, ?_, dmaReq, ?_, ?_, ?_, ?_⟩
    · have same : (s.setBuf buf).map = s.map := rfl
      simpa only [submit, map, same] using .hit owner
    · have same : Function.update s.buf.logicalSliceAddr e slice.logicalSliceAddr = s.buf.logicalSliceAddr :=
        Function.update_eq_self_iff.mpr owner.symm
      rw [same, ← sameLsa]
      exact lsa
    · rw [← sameDirty]
      exact dirty
    · exact congrArg (· ++ [slice]) slices
    · simp only [submit, submitted, slices, List.nil_append, List.map_singleton]
      rfl
  | none =>
    simp only [found, Option.bind_eq_bind, Option.bind_eq_some_iff, Option.some.injEq, Prod.exists] at done
    obtain ⟨e, t, missed, dma, dmaReq, rfl⟩ := done
    obtain ⟨inside, ⟨before, prepares, before'⟩, missLsa, missDirty, missSlices, after⟩ :=
      missDataBuf_prepares lists real (code_of_dmaReq dmaReq) found missed
    obtain ⟨lsa, dirty, map, slices, submitted, kept⟩ := markDirty_spec (g := g) slice t e
    refine ⟨kept after, e, before, false, dma, inside, ?_, dmaReq, ?_, ?_, ?_, ?_⟩
    · simpa only [submit, map] using prepares
    · rw [← missLsa]
      exact lsa
    · have same := missDirty ▸ dirty
      simpa [submit] using same
    · rw [← missSlices]
      exact congrArg (· ++ [slice]) slices
    · simp only [submit, submitted, slices, before', missSlices, List.map_append, List.map_singleton,
        List.append_assoc]

end BufferManager

theorem bufferCount_pos (g : Geometry) : 0 < availableDataBufferEntryCount g :=
  Nat.mul_pos (by decide) g.dies_pos

theorem bufferCount_lt (g : Geometry) : availableDataBufferEntryCount g < dataBufNone := by
  have fits : g.userDies ≤ 256 := g.dies_fit
  unfold availableDataBufferEntryCount dataBufNone
  omega

theorem initBufferManager_lists (g : Geometry) (map : F) : (initBufferManager g map).ListsOk g :=
  ⟨_, _, .init (bufferCount_pos g) (bufferCount_lt g)⟩

end OcpFw
