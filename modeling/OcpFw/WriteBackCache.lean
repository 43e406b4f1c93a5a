import OcpFw.BufferContents
import OcpFw.Runs

/-! The buffer manager as a write-back cache. Slices are consumed and submitted requests
carried out, in any order that keeps conflicting requests in the order of submission.
Every block that was written is delivered as it was written last. -/
namespace OcpFw
open AccessOrder (InOrder Ready Semantics)
open Runs (Run exec run_of_exec_any)
open BufferManager

variable {F D : Type}

/-- The firmware consumes a slice, or the hardware carries out a submitted request. -/
inductive CacheInput where
  | consume (slice : SliceReq)
  | execute (i : Nat)

/-- The buffer manager, the requests carried out so far in their order, the memory they left,
and the blocks moved to the host. -/
structure CacheRun (F D : Type) where
  manager : BufferManager F
  order : List Nat := []
  memory : Place → Nat → D
  delivered : List (Delivery D) := []

/-- `hostData` is what the host has for the blocks of each slice. -/
def cacheStep (g : Geometry) (M : SliceMap F) (hostData : Nat → Nat → D) (s : CacheRun F D) :
    CacheInput → Option (CacheRun F D)
  | .consume slice => do
    let manager ← reqTransSliceToLowLevel g M s.manager slice
    some { s with manager := manager }
  | .execute i => do
    let r ← s.manager.submitted[i]?
    some
      { s with
        order := s.order ++ [i]
        memory := r.apply hostData s.memory
        delivered := s.delivered ++ r.deliveries s.memory }

def initCacheRun (g : Geometry) (map : F) (memory : Place → Nat → D) : CacheRun F D where
  manager := initBufferManager g map
  memory := memory

/-- A slice stays inside its address; a request waits for the ones it conflicts with. -/
def CacheInput.Allowed (hostData : Nat → Nat → D) (s : CacheRun F D) : CacheInput → Prop
  | consume slice => slice.logicalSliceAddr ≠ lsaNone ∧
    slice.nvmeBlockOffset + slice.numOfNvmeBlock ≤ nvmeBlocksPerSlice
  | execute i => ∃ r, Ready (bufferSemantics hostData).Conflict s.manager.submitted s.order i r

instance (hostData : Nat → Nat → D) (s : CacheRun F D) (input : CacheInput) :
    Decidable (input.Allowed hostData s) := by
  cases input <;> unfold CacheInput.Allowed <;> infer_instance

/-- The last slice that wrote a block, by its number. -/
def lastWrite (lsa p : Nat) (slices : List SliceReq) : Option Nat :=
  slices.zipIdx.foldl (fun last slice => if slice.1.Writes lsa p then some slice.2 else last) none

theorem lastWrite_append (lsa p : Nat) (slices : List SliceReq) (slice : SliceReq) :
    lastWrite lsa p (slices ++ [slice]) =
      if slice.Writes lsa p then some slices.length else lastWrite lsa p slices := by
  simp [lastWrite, List.zipIdx_append]

/-- The data is what the host wrote to the block last, if it wrote the block. -/
def LastData (hostData : Nat → Nat → D) (slices : List SliceReq) (lsa p : Nat) (d : D) : Prop :=
  ∀ k, lastWrite lsa p slices = some k → d = hostData k p

theorem LastData.append {hostData : Nat → Nat → D} {slices : List SliceReq} {slice : SliceReq} {lsa p : Nat} {d : D}
    (unwritten : ¬ slice.Writes lsa p) (last : LastData hostData slices lsa p d) :
    LastData hostData (slices ++ [slice]) lsa p d := by
  intro k
  rw [lastWrite_append, if_neg unwritten]
  exact last k

theorem LastData.written {slices : List SliceReq} {slice : SliceReq} {lsa p : Nat} (hostData : Nat → Nat → D)
    (writes : slice.Writes lsa p) : LastData hostData (slices ++ [slice]) lsa p (hostData slices.length p) := by
  intro k last
  rw [lastWrite_append, if_pos writes] at last
  cases last
  rfl

/-- The block belongs to a READ slice, and is what was written to it last before the slice. -/
def DeliversLast (hostData : Nat → Nat → D) (slices : List SliceReq) (d : Delivery D) : Prop :=
  ∃ slice, slices[d.slice]? = some slice ∧ slice.reqCode = .read ∧ slice.nvmeBlockOffset ≤ d.block ∧
    d.block < slice.nvmeBlockOffset + slice.numOfNvmeBlock ∧
    LastData hostData (slices.take d.slice) slice.logicalSliceAddr d.block d.data

variable {g : Geometry} {M : SliceMap F} {hostData : Nat → Nat → D}

/-! ### Written slices stay in reach -/

namespace BufferManager

/-- A written slice is in the buffer or in flash. -/
def InReach (g : Geometry) (M : SliceMap F) (s : BufferManager F) (lsa : Nat) : Prop :=
  s.HeldDirty g lsa ∨ M.Mapped s.map lsa

variable {s s' : BufferManager F} {slice : SliceReq} {e lsa : Nat} {before : List SsdReq} {held : Bool}
  {dma : SsdReq} {map : F}

theorem Evicts.inReach {evict : List SsdReq} (evicts : Evicts M s e evict map)
    (mapsOnly : s.buf.dirty e = true → M.MapsOnly s.map (s.buf.logicalSliceAddr e))
    (known : InReach g M s lsa) :
    (∃ x < availableDataBufferEntryCount g, x ≠ e ∧ s.buf.logicalSliceAddr x = lsa ∧
      s.buf.dirty x = true) ∨ M.Mapped map lsa := by
  rcases known with ⟨x, low, owner, newer⟩ | mapped
  · by_cases here : x = e
    · subst here
      cases evicts with
      | clean clean => simp [clean] at newer
      | dirty dirty written => exact .inr ((mapsOnly dirty _ _ written lsa).mpr (.inl owner.symm))
    · exact .inl ⟨x, low, here, owner, newer⟩
  · cases evicts with
    | clean => exact .inr mapped
    | dirty dirty written => exact .inr ((mapsOnly dirty _ _ written lsa).mpr (.inr mapped))

/-- A slice in reach stays so, and a written slice comes into reach. -/
theorem Consumes.inReach (consumes : Consumes g M s slice s' e before held dma)
    (mapsOnly : s.EvictMapsOnly g M slice)
    (known : InReach g M s lsa ∨ slice.reqCode = .write ∧ slice.logicalSliceAddr = lsa) :
    InReach g M s' lsa := by
  by_cases newer : slice.logicalSliceAddr = lsa ∧ (slice.reqCode = .write ∨ held = true)
  · refine .inl ⟨e, consumes.inside, ?_, ?_⟩
    · rw [consumes.lsa, Function.update_self, newer.1]
    · rw [consumes.dirty, Function.update_self]
      rcases newer.2 with write | held <;> simp [*]
  · have old : InReach g M s lsa := known.resolve_right fun h => newer ⟨h.2, .inl h.1⟩
    have other : (∃ x < availableDataBufferEntryCount g, x ≠ e ∧ s.buf.logicalSliceAddr x = lsa ∧
        s.buf.dirty x = true) → s'.HeldDirty g lsa := by
      rintro ⟨x, low, diff, owner, dirty⟩
      refine ⟨x, low, ?_, ?_⟩
      · rw [consumes.lsa, Function.update_of_ne diff, owner]
      · rw [consumes.dirty, Function.update_of_ne diff, dirty]
    have prepares := consumes.prepares
    unfold InReach
    generalize s'.map = map at prepares ⊢
    cases prepares with
    | hit owner =>
      rcases old with ⟨x, low, holds, dirty⟩ | mapped
      · by_cases here : x = e
        · subst here
          exact absurd ⟨owner.symm.trans holds, .inr dirty⟩ newer
        · exact .inl (other ⟨x, low, here, holds, dirty⟩)
      · exact .inr mapped
    | miss evict fill map missed oldest evicts fills =>
      exact (evicts.inReach (oldest ▸ mapsOnly missed) old).imp_left other

/-- Every slice that was written is in reach. -/
def WrittenInReach (g : Geometry) (M : SliceMap F) (s : BufferManager F) : Prop :=
  ∀ lsa p k, lastWrite lsa p s.slices = some k → InReach g M s lsa

theorem WrittenInReach.init (map : F) : (initBufferManager g map).WrittenInReach g M := fun lsa p k last => by
  simp [initBufferManager, lastWrite] at last

theorem WrittenInReach.consume (reach : s.WrittenInReach g M)
    (consumes : Consumes g M s slice s' e before held dma) (mapsOnly : s.EvictMapsOnly g M slice) :
    s'.WrittenInReach g M := by
  intro lsa p k last
  simp only [consumes.slices, lastWrite_append] at last
  split at last
  · rename_i writes
    exact consumes.inReach mapsOnly (.inr ⟨writes.1, writes.2.1⟩)
  · exact consumes.inReach mapsOnly (.inl (reach lsa p k last))

/-- A slice that finds nothing was never written. -/
theorem FindsNothing.unwritten (nothing : s.FindsNothing g M slice) (lists : s.ListsOk g)
    (real : slice.logicalSliceAddr ≠ lsaNone) (reach : s.WrittenInReach g M) (p : Nat) :
    lastWrite slice.logicalSliceAddr p s.slices = none := by
  by_contra written
  obtain ⟨missed, unmapped, -⟩ := nothing
  obtain ⟨k, last⟩ := Option.ne_none_iff_exists'.mp written
  obtain ⟨order, buckets, listed⟩ := lists
  rcases reach _ p k last with ⟨x, low, owner, -⟩ | mapped
  · exact listed.missed real missed x low owner
  · exact unmapped mapped

/-- The data found stays what was written last. -/
theorem ReplayOk.consumeLast {memory : Place → Nat → D} (ok : s.ReplayOk g M hostData memory (LastData hostData))
    (reach : s.WrittenInReach g M) (real : slice.logicalSliceAddr ≠ lsaNone)
    (fits : slice.nvmeBlockOffset + slice.numOfNvmeBlock ≤ nvmeBlocksPerSlice)
    (mapsOnly : s.EvictMapsOnly g M slice) (done : reqTransSliceToLowLevel g M s slice = some s') :
    s'.ReplayOk g M hostData memory (LastData hostData) := by
  apply ok.consume real fits mapsOnly done
  · intro nothing p _ _ k last
    rw [nothing.unwritten ok.lists real reach] at last
    cases last
  · exact fun lsa p d => LastData.append
  · exact fun lsa p => LastData.written hostData

end BufferManager

/-! ### Runs -/

/-- What holds between two inputs. -/
structure CacheOk (g : Geometry) (M : SliceMap F) (hostData : Nat → Nat → D) (memory : Place → Nat → D)
    (s : CacheRun F D) : Prop where
  replay : s.manager.ReplayOk g M hostData memory (LastData hostData)
  reach : s.manager.WrittenInReach g M
  order : InOrder (bufferSemantics hostData).Conflict s.manager.submitted s.order
  memory : s.memory = (bufferSemantics hostData).perform memory s.manager.submitted s.order
  delivered : ∀ d ∈ s.delivered, DeliversLast hostData s.manager.slices d

variable {memory : Place → Nat → D} {s s' : CacheRun F D} {slice : SliceReq}

theorem LastData.unwritten (hostData : Nat → Nat → D) (lsa p : Nat) (d : D) : LastData hostData [] lsa p d := by
  intro k last
  simp [lastWrite] at last

namespace CacheOk

theorem init (map : F) : CacheOk g M hostData memory (initCacheRun g map memory) where
  replay := .init map fun lsa l p => .unwritten hostData lsa p _
  reach := .init map
  order := .nil
  memory := rfl
  delivered d listed := by simp [initCacheRun] at listed

/-- Consuming a slice. -/
theorem consume (ok : CacheOk g M hostData memory s) (real : slice.logicalSliceAddr ≠ lsaNone)
    (fits : slice.nvmeBlockOffset + slice.numOfNvmeBlock ≤ nvmeBlocksPerSlice)
    (mapsOnly : s.manager.EvictMapsOnly g M slice) {manager : BufferManager F}
    (done : reqTransSliceToLowLevel g M s.manager slice = some manager) :
    CacheOk g M hostData memory { s with manager := manager } := by
  obtain ⟨-, e, before, held, dma, consumes⟩ := reqTransSliceToLowLevel_consumes ok.replay.lists real done
  have inside : ∀ i ∈ s.order, i < s.manager.submitted.length := fun i => ok.order.inRange
  constructor
  · exact ok.replay.consumeLast ok.reach real fits mapsOnly done
  · exact ok.reach.consume consumes mapsOnly
  · simp only [consumes.submitted]
    exact ok.order.submit
  · simp only [consumes.submitted]
    rw [Semantics.perform_submit inside]
    exact ok.memory
  · intro d member
    simp only [consumes.slices]
    exact DeliversAs.append (ok.delivered d member) slice

/-- Carrying out a request. -/
theorem execute (ok : CacheOk g M hostData memory s) {i : Nat} {r : LowLevelReq}
    (ready : Ready (bufferSemantics hostData).Conflict s.manager.submitted s.order i r) :
    CacheOk g M hostData memory
      { s with
        order := s.order ++ [i]
        memory := r.apply hostData s.memory
        delivered := s.delivered ++ r.deliveries s.memory } := by
  refine ⟨ok.replay, ok.reach, ok.order.snoc ready, ?_, fun d member => ?_⟩
  · rw [Semantics.perform_snoc ready.1, ← ok.memory]
    rfl
  · rcases List.mem_append.mp member with member | member
    · exact ok.delivered d member
    · have seen : r.deliveries s.memory =
          r.deliveries ((bufferSemantics hostData).replay memory (s.manager.submitted.take i)) := by
        rw [ok.memory]
        exact Semantics.output_eq ok.order ready
      exact ok.replay.delivers i r ready.1 d (seen ▸ member)

theorem step {M : SliceStore F} (ok : CacheOk g M.toSliceMap hostData memory s) {input : CacheInput}
    (allowed : input.Allowed hostData s) (done : cacheStep g M.toSliceMap hostData s input = some s') :
    CacheOk g M.toSliceMap hostData memory s' := by
  cases input with
  | consume slice =>
    simp only [cacheStep, Option.bind_eq_bind, Option.bind_eq_some_iff, Option.some.injEq] at done
    obtain ⟨manager, consumed, rfl⟩ := done
    exact ok.consume allowed.1 allowed.2 (fun _ _ => M.mapsOnly _ _) consumed
  | execute i =>
    simp only [cacheStep, Option.bind_eq_bind, Option.bind_eq_some_iff, Option.some.injEq] at done
    obtain ⟨r, listed, rfl⟩ := done
    obtain ⟨r', ready⟩ := allowed
    cases listed.symm.trans ready.1
    exact ok.execute ready

end CacheOk

/-- In every run every block delivered for a slice is the one written last before it. -/
theorem cache_delivers_last_written (g : Geometry) (M : SliceStore F) (hostData : Nat → Nat → D) (map : F)
    (memory : Place → Nat → D) (inputs : List CacheInput) (s : CacheRun F D)
    (run : Run (cacheStep g M.toSliceMap hostData) (fun s input => input.Allowed hostData s)
      (initCacheRun g map memory) inputs s) :
    ∀ d ∈ s.delivered, DeliversLast hostData s.manager.slices d :=
  (run.invariant (CacheOk g M.toSliceMap hostData memory) (.init map) fun _ _ _ ok allowed done =>
    ok.step allowed done).delivered

/-- One die with twice as many slices as the buffer has entries. -/
def oneDie : Geometry where
  userChannels := 1
  userWays := 1
  userBlocksPerDie := 2
  slicesPerBlock := 16
  channels_pos := tinyGeometry.channels_pos
  ways_pos := tinyGeometry.ways_pos
  pages_pos := by decide
  dies_fit := tinyGeometry.dies_fit
  blocks_fit := tinyGeometry.blocks_fit
  slices_fit := by decide
  ssd_fit := by decide

/-- Blocks of a slice that start at an offset. -/
def sliceAt (reqCode : ReqCode) (lsa offset count : Nat) : SliceReq where
  reqCode := reqCode
  logicalSliceAddr := lsa
  nvmeBlockOffset := offset
  numOfNvmeBlock := count

/-- The page of each slice, and the next page to be written. -/
structure PageLog where
  next : Nat := 0
  page : Nat → Nat := fun _ => vsaFail

/-- A mapping layer that hands out one page after the other, as the firmware does as long as
nothing is collected. -/
def pageLog : SliceStore PageLog where
  addrTransWrite f lsa :=
    if f.next < vsaFail then some (f.next, ⟨f.next + 1, Function.update f.page lsa f.next⟩) else none
  addrTransRead f lsa := some (f.page lsa)
  mapsOnly f lsa vsa f' wrote lsa' := by
    simp only at wrote
    split at wrote
    · rename_i room
      cases wrote
      by_cases same : lsa' = lsa
      · simp [SliceMap.Mapped, same, room.ne]
      · simp [SliceMap.Mapped, same]
    · cases wrote

/-- Slice 0 is written, driven out by sixteen reads, written again in part and read: its
blocks come from the first write, twice from the second one, and from the first. -/
theorem cache_delivers_last_written_oneDie :
    let hostData := fun k p => 10 * k + p
    let inputs : List CacheInput :=
      [.consume (sliceAt .write 0 0 4)] ++
        (List.range 16).map (fun i => .consume (sliceAt .read (i + 1) 0 4)) ++
        [.consume (sliceAt .write 0 1 2), .consume (sliceAt .read 0 0 4)] ++
        (List.range 21).map .execute
    ∃ s, Run (cacheStep oneDie pageLog.toSliceMap hostData) (fun s input => input.Allowed hostData s)
        (initCacheRun oneDie {} fun _ _ => 777) inputs s ∧
      (s.delivered.map Delivery.data).drop 64 = [0, 171, 172, 3] ∧
      ∀ d ∈ s.delivered, DeliversLast hostData s.manager.slices d := by
  intro hostData inputs
  have done : (exec (cacheStep oneDie pageLog.toSliceMap hostData) (fun s input => input.Allowed hostData s)
      (initCacheRun oneDie {} fun _ _ => 777) inputs).any
        (fun s => (s.delivered.map Delivery.data).drop 64 = [0, 171, 172, 3]) := by
    decide +kernel
  obtain ⟨s, run, shown⟩ := run_of_exec_any done
  exact ⟨s, run, by simpa using shown, cache_delivers_last_written _ _ _ _ _ _ s run⟩

end OcpFw
