import OcpFw.FlashFirmware
import OcpFw.RequestTurns
import OcpFw.WriteBackCache

/-! The requests of one slice, in the order in which they are submitted: what the collector
needs to make room, the write back of the entry that is recycled, the read that fills it,
and the transfer. Over every sequence of slices they are in turn for every block. -/
namespace OcpFw
open Runs (Run exec run_of_exec_any)
open BufferManager

theorem evictReq_toPage {tag lsa e vsa : Nat} : ToPage (evictReq tag lsa e vsa) .write vsa := ⟨rfl, rfl, rfl, rfl, rfl⟩

theorem fillReq_toPage {tag lsa e vsa : Nat} : ToPage (fillReq tag lsa e vsa) .read vsa := ⟨rfl, rfl, rfl, rfl, rfl⟩

variable {g : Geometry} {s s' : BufferManager Ftl} {slice : SliceReq} {requests : List FlashRequest} {map : Ftl}
  {e : Nat} {before evict fill : List SsdReq} {held : Bool} {dma : SsdReq} {lists : Nat → BlockList → List Nat}

/-! ### What a slice submits -/

/-- The transfer of a slice is one of its entry. -/
theorem dmaReq_transfers (dmaReq : slice.dmaReq {} e = some dma) :
    dma.reqType = .nvmeDma ∧ dma.bufEntry = some (.dataBuf e) := by
  simp only [SliceReq.dmaReq, Option.bind_eq_bind, Option.bind_eq_some_iff, Option.some.injEq] at dmaReq
  obtain ⟨code, -, rfl⟩ := dmaReq
  exact ⟨rfl, rfl⟩

/-- The condition on the collector, in terms of the mapping layer. -/
theorem EvictsSafely.mapsOnly (safe : EvictsSafely g s slice) (ok : MappingOk g s.map lists noneOut) :
    s.EvictMapsOnly g (flashSliceMap g) slice :=
  fun missed dirty => flashSliceMap_mapsOnly ok (safe missed dirty)

/-- A write back appends to the requests of the maps. -/
theorem BufferManager.Evicts.copies (evicts : Evicts (flashSliceMap g) s e evict map) (ok : MappingOk g s.map lists noneOut)
    (safe : s.buf.dirty e = true → ¬ CurrentBlockIsVictim g s.map (s.buf.logicalSliceAddr e)) :
    (∃ lists', MappingOk g map lists' noneOut) ∧ ∃ new, map.requests = s.map.requests ++ new := by
  cases evicts with
  | clean => exact ⟨⟨lists, ok⟩, [], by simp⟩
  | dirty dirty written =>
    have wrote : addrTransWrite g s.map (s.buf.logicalSliceAddr e) = some (_, map) := written
    refine ⟨(addrTransWrite_maps ok (safe dirty) wrote).1, ?_⟩
    have low : s.buf.logicalSliceAddr e < g.slicesPerSsd := by
      by_contra high
      simp [addrTransWrite, high] at wrote
    rcases ok.addrTransWrite low (safe dirty) with ⟨b, u, -, t, -, steps, -, -, -, -, result, -, -, requests, -⟩ |
      ⟨failed, -⟩
    · cases result.symm.trans wrote
      obtain ⟨lists₀, same, -⟩ := ok.invalidateOldVsa _
      obtain ⟨more, after⟩ := mapSteps_requests_grow steps
      exact ⟨more, by rw [requests, after, same.requests]⟩
    · cases failed.symm.trans wrote

/-- The requests of a write back, and of the collector before it, are in turn. -/
theorem TurnsOk.evicts {new : List FlashReq} (turns : TurnsOk g s.map before)
    (ok : ∃ lists, MappingOk g s.map lists noneOut) (evicts : Evicts (flashSliceMap g) s e evict map)
    (safe : s.buf.dirty e = true → ¬ CurrentBlockIsVictim g s.map (s.buf.logicalSliceAddr e))
    (copies : map.requests = s.map.requests ++ new) :
    AllInTurn g before (new.map (fun r => r.flashRequest.req) ++ evict) ∧
      TurnsOk g map (before ++ (new.map (fun r => r.flashRequest.req) ++ evict)) := by
  cases evicts with
  | clean =>
    obtain rfl : new = [] := by simpa using copies
    simpa using ⟨AllInTurn.nil, turns⟩
  | dirty dirty written =>
    obtain ⟨lists, ok⟩ := ok
    obtain ⟨new', issued, inTurn, handsOut⟩ := ok.addrTransWrite_turns (safe dirty) turns written
    obtain rfl := List.append_cancel_left (copies.symm.trans issued)
    obtain ⟨turn, after⟩ := handsOut _ evictReq_toPage
    rw [← List.append_assoc]
    exact ⟨inTurn.append (.single turn), after⟩

/-- So is the read that fills an entry. -/
theorem TurnsOk.fills (turns : TurnsOk g map before) (fills : Fills (flashSliceMap g) map slice e fill) :
    AllInTurn g before fill ∧ TurnsOk g map (before ++ fill) := by
  cases fills with
  | whole => simpa using ⟨AllInTurn.nil, turns⟩
  | unmapped => simpa using ⟨AllInTurn.nil, turns⟩
  | mapped needed found real =>
    obtain ⟨rfl, mapped⟩ := flashSliceMap_addrTransRead found real
    exact ⟨.single (fillReq_toPage.read (turns.readable mapped)), turns.read fillReq_toPage⟩

/-- What a slice does to the buffer and the maps, and what it submits: the requests of the
collector, a write back and a read, and the transfer. -/
structure Translates (g : Geometry) (s : BufferManager Ftl) (slice : SliceReq) (s' : BufferManager Ftl)
    (requests : List FlashRequest) (new : List FlashReq) (e : Nat) (before : List SsdReq) (held : Bool)
    (dma : SsdReq) : Prop where
  consumes : Consumes g (flashSliceMap g) s slice s' e before held dma
  copies : s'.map.requests = s.map.requests ++ new
  requests : requests.map FlashRequest.req = new.map (fun r => r.flashRequest.req) ++ (before ++ [dma])

/-- The buffer and the maps are consistent, and the maps agree with the requests submitted. -/
structure SlicesOk (g : Geometry) (s : BufferManager Ftl) (before : List SsdReq) : Prop where
  lists : s.ListsOk g
  maps : ∃ lists, MappingOk g s.map lists noneOut
  turns : TurnsOk g s.map before

namespace SlicesOk

/-- A slice keeps the buffer and the maps consistent. -/
theorem translates (ok : SlicesOk g s before) (real : slice.logicalSliceAddr ≠ lsaNone) (safe : EvictsSafely g s slice)
    (done : translateSlice g s slice = some (s', requests)) :
    s'.ListsOk g ∧ (∃ lists, MappingOk g s'.map lists noneOut) ∧
      ∃ new e before held dma, Translates g s slice s' requests new e before held dma := by
  simp only [translateSlice, Option.bind_eq_bind, Option.bind_eq_some_iff, Option.some.injEq, Prod.mk.injEq] at done
  obtain ⟨t, done, rfl, rfl⟩ := done
  obtain ⟨after, e, before', held, dma, consumes⟩ := reqTransSliceToLowLevel_consumes ok.lists real done
  obtain ⟨lists, consistent⟩ := ok.maps
  obtain ⟨maps, new, copies⟩ :
      (∃ lists', MappingOk g t.map lists' noneOut) ∧ ∃ new, t.map.requests = s.map.requests ++ new := by
    have prepares := consumes.prepares
    generalize t.map = map at prepares ⊢
    cases prepares with
    | hit => exact ⟨⟨lists, consistent⟩, [], by simp⟩
    | miss evict fill map missed oldest evicts fills => exact evicts.copies consistent (oldest ▸ safe missed)
  refine ⟨after, maps, new, e, before', held, dma, consumes, copies, ?_⟩
  rw [copies, List.drop_left, consumes.submitted, List.drop_left]
  simp [Function.comp_def]

/-- The requests of a slice are in turn. -/
theorem translate (ok : SlicesOk g s before) (real : slice.logicalSliceAddr ≠ lsaNone) (safe : EvictsSafely g s slice)
    (done : translateSlice g s slice = some (s', requests)) :
    AllInTurn g before (requests.map FlashRequest.req) ∧
      SlicesOk g s' (before ++ requests.map FlashRequest.req) := by
  obtain ⟨lists, maps, new, e, before', held, dma, what⟩ := ok.translates real safe done
  have transfers : dma.reqType ≠ .nand := by simp [(dmaReq_transfers what.consumes.dmaReq).1]
  obtain ⟨first, middle⟩ : AllInTurn g before (new.map (fun r => r.flashRequest.req) ++ before') ∧
      TurnsOk g s'.map (before ++ (new.map (fun r => r.flashRequest.req) ++ before')) := by
    have prepares := what.consumes.prepares
    have copies := what.copies
    generalize s'.map = map at prepares copies
    cases prepares with
    | hit =>
      obtain rfl : new = [] := by simpa using copies
      simpa using ⟨AllInTurn.nil, ok.turns⟩
    | miss evict fill map missed oldest evicts fills =>
      obtain ⟨first, middle⟩ := ok.turns.evicts ok.maps evicts (oldest ▸ safe missed) copies
      obtain ⟨second, last⟩ := middle.fills fills
      exact ⟨by simpa using first.append second, by simpa using last⟩
  rw [what.requests, ← List.append_assoc, ← List.append_assoc]
  exact ⟨first.append (.single (InTurn.dma transfers)), lists, maps, middle.dma transfers⟩

end SlicesOk

/-! ### Sequences of slices -/

theorem TurnsOk.init (bad : Nat → Nat → Bool)
    (two : ∀ dieNo < g.userDies, 2 ≤ (goodBlocks (bad dieNo) g.userBlocksPerDie).length) :
    TurnsOk g (initFtl g bad) [] where
  pages dieNo die blockNo := by
    obtain ⟨b, rest, -, -, block, -⟩ := initDie_eq (bad dieNo) (two dieNo die)
    rw [Ftl.currentPage, initFtl_die]
    exact (block blockNo).1.symm
  written lsa real := by
    have unmapped : (initFtl g bad).logicalSlice lsa = vsaNone := by
      simp only [initFtl, findDieForFreeSliceAllocation]
      split <;> rfl
    exact absurd unmapped real

theorem SlicesOk.init (bad : Nat → Nat → Bool)
    (two : ∀ dieNo < g.userDies, 2 ≤ (goodBlocks (bad dieNo) g.userBlocksPerDie).length) :
    SlicesOk g (initBufferManager g (initFtl g bad)) [] where
  lists := initBufferManager_lists g _
  maps := initFtl_ok bad two
  turns := .init bad two

/-- A slice is consumed; its requests come behind those before. -/
def translateStep (g : Geometry) (s : BufferManager Ftl × List SsdReq) (slice : SliceReq) :
    Option (BufferManager Ftl × List SsdReq) := do
  let (manager, requests) ← translateSlice g s.1 slice
  some (manager, s.2 ++ requests.map FlashRequest.req)

/-- The requests submitted are in turn. -/
theorem translateSteps_ok (bad : Nat → Nat → Bool)
    (two : ∀ dieNo < g.userDies, 2 ≤ (goodBlocks (bad dieNo) g.userBlocksPerDie).length) {slices : List SliceReq}
    {t : BufferManager Ftl × List SsdReq}
    (run : Run (translateStep g) (fun s slice => slice.logicalSliceAddr ≠ lsaNone ∧ EvictsSafely g s.1 slice)
      (initBufferManager g (initFtl g bad), []) slices t) : AllInTurn g [] t.2 ∧ SlicesOk g t.1 t.2 := by
  apply run.invariant (fun t => AllInTurn g [] t.2 ∧ SlicesOk g t.1 t.2) ⟨.nil, .init bad two⟩
  rintro t slice u ⟨inTurn, ok⟩ ⟨real, safe⟩ done
  simp only [translateStep, Option.bind_eq_bind, Option.bind_eq_some_iff, Option.some.injEq, Prod.exists] at done
  obtain ⟨manager, requests, translated, rfl⟩ := done
  obtain ⟨next, after⟩ := ok.translate real safe translated
  exact ⟨inTurn.append (by simpa using next), after⟩

/-- As long as no write back collects a current block without valid slices, the requests of
the buffer manager and of the collector are in turn for every block when they are submitted
in their order: pages are written one after the other, written pages are read, full blocks
are erased. The current page of a block is the page that its next request writes. -/
theorem translateSlices_inTurn (g : Geometry) (bad : Nat → Nat → Bool)
    (two : ∀ dieNo < g.userDies, 2 ≤ (goodBlocks (bad dieNo) g.userBlocksPerDie).length) (slices : List SliceReq)
    (s : BufferManager Ftl) (reqs : List SsdReq)
    (run : Run (translateStep g) (fun s slice => slice.logicalSliceAddr ≠ lsaNone ∧ EvictsSafely g s.1 slice)
      (initBufferManager g (initFtl g bad), []) slices (s, reqs)) :
    AllInTurn g [] reqs ∧ ∀ dieNo < g.userDies, ∀ blockNo,
      BlockReq.nextPage (reqs.map (blockReq g (dieBlock g dieNo blockNo))) = s.map.currentPage dieNo blockNo := by
  obtain ⟨turns, after⟩ := translateSteps_ok bad two run
  exact ⟨turns, after.turns.pages⟩

/-- Seventeen slices drive out the first two, and one of these is read again. -/
theorem translateSlices_inTurn_oneDie :
    let slices := (List.range 16).map (fun lsa => sliceAt .write lsa 0 4) ++ [sliceAt .read 16 0 4, sliceAt .read 0 0 4]
    ∃ s reqs,
      Run (translateStep oneDie) (fun s slice => slice.logicalSliceAddr ≠ lsaNone ∧ EvictsSafely oneDie s.1 slice)
        (initBufferManager oneDie (initFtl oneDie fun _ _ => false), []) slices (s, reqs) ∧
      (reqs.filter (·.reqType = .nand)).map (fun req => (req.reqCode, req.virtualSliceAddr)) =
        [(.write, 0), (.write, 1), (.read, 0)] ∧
      AllInTurn oneDie [] reqs := by
  intro slices
  have done : (exec (translateStep oneDie)
      (fun s slice => slice.logicalSliceAddr ≠ lsaNone ∧ EvictsSafely oneDie s.1 slice)
      (initBufferManager oneDie (initFtl oneDie fun _ _ => false), []) slices).any
      (fun r => (r.2.filter (·.reqType = .nand)).map (fun req => (req.reqCode, req.virtualSliceAddr)) =
        [(.write, 0), (.write, 1), (.read, 0)]) = true := by decide +kernel
  obtain ⟨⟨s, reqs⟩, run, shown⟩ := run_of_exec_any done
  exact ⟨s, reqs, run, of_decide_eq_true shown, (translateSlices_inTurn _ _ (by decide) _ s reqs run).1⟩

end OcpFw
