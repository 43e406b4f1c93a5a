import OcpFw.DataBuffer
import OcpFw.FlashImage

/-! The mapping layer of the firmware as the buffer manager uses it. As long as it keeps clear
of the collection of a fully invalid current block, a write maps its slice and no other one. -/
namespace OcpFw
open Relation (ReflTransGen)

variable {g : Geometry} {s t : Ftl} {lsa : Nat} {lists : Nat → BlockList → List Nat}

/-- Copies and erases map the slices that were mapped. -/
theorem MapStep.mapped_iff (step : MapStep g s t) :
    t.logicalSlice lsa ≠ vsaNone ↔ s.logicalSlice lsa ≠ vsaNone := by
  refine ⟨fun after => ?_, step.mapped_kept⟩
  cases step with
  | rearrange same => rwa [← same.logicalSlice]
  | copy dieNo b v p l die usable room source real map pages bad requests =>
    rw [map] at after
    by_cases same : lsa = l
    · rw [same, source]
      exact real
    · rwa [Function.update_of_ne same] at after
  | erase dieNo b die empty map pages bad requests => rwa [map] at after

theorem mapSteps_mapped_iff (steps : ReflTransGen (MapStep g) s t) :
    t.logicalSlice lsa ≠ vsaNone ↔ s.logicalSlice lsa ≠ vsaNone := by
  induction steps with
  | refl => rfl
  | tail _ step ih => exact step.mapped_iff.trans ih

/-- The mapping layer of `address_translation.c`. -/
def flashSliceMap (g : Geometry) : SliceMap Ftl where
  addrTransWrite := addrTransWrite g
  addrTransRead := addrTransRead g

/-- The write back that a slice causes does not collect a current block without valid slices. -/
def EvictsSafely (g : Geometry) (s : BufferManager Ftl) (slice : SliceReq) : Prop :=
  s.buf.checkDataBufHit (availableDataBufferEntryCount g) slice.logicalSliceAddr = none →
    s.buf.dirty (s.buf.lru.tail ()) = true →
      ¬ CurrentBlockIsVictim g s.map (s.buf.logicalSliceAddr (s.buf.lru.tail ()))

instance (g : Geometry) (s : BufferManager Ftl) (slice : SliceReq) : Decidable (EvictsSafely g s slice) :=
  inferInstanceAs (Decidable (_ → _ → ¬ _))

theorem addrTransRead_mapped (ok : MappingOk g s lists noneOut) :
    (∃ vsa, addrTransRead g s lsa = some vsa ∧ vsa ≠ vsaFail) ↔ s.logicalSlice lsa ≠ vsaNone := by
  constructor
  · rintro ⟨vsa, found, real⟩
    unfold addrTransRead at found
    split at found
    · split at found
      · assumption
      · cases found
        exact absurd rfl real
    · cases found
  · intro some
    have low := (ok.mapped lsa some).lsa_lt
    exact ⟨s.logicalSlice lsa, by simp [addrTransRead, low, some], some⟩

/-- A write keeps the maps consistent, and maps its slice besides those mapped before. -/
theorem addrTransWrite_maps (ok : MappingOk g s lists noneOut) (safe : ¬ CurrentBlockIsVictim g s lsa)
    {vsa : Nat} (wrote : addrTransWrite g s lsa = some (vsa, t)) :
    (∃ lists', MappingOk g t lists' noneOut) ∧
      ∀ l, t.logicalSlice l ≠ vsaNone ↔ l = lsa ∨ s.logicalSlice l ≠ vsaNone := by
  have low : lsa < g.slicesPerSsd := by
    by_contra high
    simp [addrTransWrite, high] at wrote
  rcases ok.addrTransWrite low safe with ⟨b, u, lists₁, s', lists', steps, after, gone, current, room,
    result, dies, map, requests, last⟩ | ⟨failed, -⟩
  · obtain ⟨-, rfl⟩ := Prod.mk.inj (Option.some.inj (result.symm.trans wrote))
    obtain ⟨_, same, _, dropped, -⟩ := ok.invalidateOldVsa lsa
    refine ⟨⟨lists', last⟩, fun l => ?_⟩
    have die : s.sliceAllocationTargetDie < g.userDies := ok.targetDie
    have usable : (u.die s.sliceAllocationTargetDie).Usable g b :=
      current ▸ (after.die _ die).currentUsable
    rw [map]
    by_cases here : l = lsa
    · simp only [assignPage, mapSlice, here, Function.update_self, true_or, iff_true]
      exact vorg_ne_vsaNone die usable room
    · simp only [assignPage, mapSlice, Function.update_of_ne here, here, false_or]
      have kept : u.logicalSlice l ≠ vsaNone ↔ s.logicalSlice l ≠ vsaNone := by
        rw [mapSteps_mapped_iff steps, dropped, Function.update_of_ne here]
      exact kept
  · cases failed.symm.trans wrote

theorem flashSliceMap_mapsOnly (ok : MappingOk g s lists noneOut) (safe : ¬ CurrentBlockIsVictim g s lsa) :
    (flashSliceMap g).MapsOnly s lsa := by
  intro vsa t wrote lsa'
  obtain ⟨⟨lists', ok'⟩, maps⟩ := addrTransWrite_maps ok safe wrote
  have before : (flashSliceMap g).Mapped s lsa' ↔ s.logicalSlice lsa' ≠ vsaNone := addrTransRead_mapped ok
  have after : (flashSliceMap g).Mapped t lsa' ↔ t.logicalSlice lsa' ≠ vsaNone := addrTransRead_mapped ok'
  rw [before, after, maps]

/-- What is read of a slice is the page it is mapped to. -/
theorem flashSliceMap_addrTransRead {vsa : Nat} (found : (flashSliceMap g).addrTransRead s lsa = some vsa)
    (real : vsa ≠ vsaFail) : s.logicalSlice lsa = vsa ∧ vsa ≠ vsaNone := by
  have found' : addrTransRead g s lsa = some vsa := found
  unfold addrTransRead at found'
  split at found'
  · split at found'
    · rename_i mapped
      cases found'
      exact ⟨rfl, mapped⟩
    · cases found'
      exact absurd rfl real
  · cases found'

end OcpFw
