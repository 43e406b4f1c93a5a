import OcpFw.BlockLifecycle

/-! The mapping layer as a store. The issued requests take effect on an array of pages
in submission order; over every run that keeps clear of the collection of a fully
invalid current block, a read finds the last data written. -/
namespace OcpFw
open Relation (ReflTransGen)
open Runs (Run exec run_of_exec)

variable {δ : Type}

/-- The flash pages, erased ones `none`, and the temporary buffers of the collector.
`programs` logs every page handed out for programming, and whether it was erased then. -/
structure Nand (δ : Type) where
  page : Nat → Option δ := fun _ => none
  tempBuf : Nat → Option δ := fun _ => none
  programs : List (Nat × Bool) := []

namespace Nand

def program (n : Nand δ) (virtualSliceAddr : Nat) (data : Option δ) : Nand δ :=
  { n with
    page := Function.update n.page virtualSliceAddr data
    programs := n.programs ++ [(virtualSliceAddr, (n.page virtualSliceAddr).isNone)] }

/-- The effect of one request. A copy programs what its paired read left in the buffer. -/
def perform (g : Geometry) (n : Nand δ) : FlashReq → Nand δ
  | .read virtualSliceAddr tempEntry =>
    { n with tempBuf := Function.update n.tempBuf tempEntry (n.page virtualSliceAddr) }
  | .write virtualSliceAddr tempEntry => n.program virtualSliceAddr (n.tempBuf tempEntry)
  | .erase virtualSliceAddr _ =>
    { n with
      page := fun vsa =>
        if vsa2VdieTranslation g vsa = vsa2VdieTranslation g virtualSliceAddr ∧
          vsa2VblockTranslation g vsa = vsa2VblockTranslation g virtualSliceAddr then none
        else n.page vsa }

end Nand

/-- The maps over the flash. -/
structure FlashStore (δ : Type) where
  ftl : Ftl
  nand : Nand δ := {}

/-- `AddrTransWrite` for a slice with data: its requests are performed, then the page
it hands out is programmed. -/
def FlashStore.write (g : Geometry) (m : FlashStore δ) (w : Nat × δ) : Option (FlashStore δ) := do
  let (virtualSliceAddr, s) ← addrTransWrite g { m.ftl with requests := [] } w.1
  let nand := s.requests.foldl (Nand.perform g) m.nand
  some { ftl := s, nand := nand.program virtualSliceAddr (some w.2) }

/-- The last data written to each slice. -/
def lastWritten (writes : List (Nat × δ)) : Nat → Option δ :=
  writes.foldl (fun last w => Function.update last w.1 (some w.2)) fun _ => none

/-- The flash holds what was written last, the maps are inverse and injective, and
every page handed out was an erased page of the device. -/
structure StoreCorrect (g : Geometry) (writes : List (Nat × δ)) (m : FlashStore δ) : Prop where
  readBack : ∀ lsa data, lastWritten writes lsa = some data →
    ∃ vsa, addrTransRead g m.ftl lsa = some vsa ∧ vsa ≠ vsaFail ∧ m.nand.page vsa = some data ∧
      m.ftl.virtualSlice vsa = lsa
  injective : ∀ lsa lsa', m.ftl.logicalSlice lsa ≠ vsaNone →
    m.ftl.logicalSlice lsa = m.ftl.logicalSlice lsa' → lsa = lsa'
  handedOut : ∀ e ∈ m.nand.programs, e.2 = true ∧ e.1 < g.slicesPerSsd ∧
    vsa2VpageTranslation g e.1 < g.userPagesPerBlock

/-! ### What the flash holds along a write -/

/-- Mapped slices hold their data, pages not handed out are erased. -/
structure Content (g : Geometry) (s : Ftl) (n : Nand δ) (data : Nat → Option δ) : Prop where
  stored : ∀ lsa, s.logicalSlice lsa ≠ vsaNone →
    ∃ d, data lsa = some d ∧ n.page (s.logicalSlice lsa) = some d
  blank : ∀ dieNo < g.userDies, ∀ b p, (s.die dieNo).Usable g b → s.currentPage dieNo b ≤ p →
    p < g.slicesPerBlock → n.page (vorg2VsaTranslation g dieNo b p) = none
  handedOut : ∀ e ∈ n.programs, e.2 = true ∧ e.1 < g.slicesPerSsd

variable {g : Geometry} {s t : Ftl} {n : Nand δ} {data : Nat → Option δ} {dieNo b lsa : Nat}
  {lists : Nat → BlockList → List Nat}

namespace Content

/-- Programming the next page of a block with the data of the slice mapped to it. -/
theorem program (content : Content g s n data) (die : dieNo < g.userDies)
    (usable : (s.die dieNo).Usable g b) (room : s.currentPage dieNo b < g.slicesPerBlock)
    (map : t.logicalSlice = Function.update s.logicalSlice lsa
      (vorg2VsaTranslation g dieNo b (s.currentPage dieNo b)))
    (pages : ∀ d x, t.currentPage d x = s.currentPage d x + if d = dieNo ∧ x = b then 1 else 0)
    (bad : ∀ d x, ((t.die d).block x).bad = ((s.die d).block x).bad) (d : δ) :
    Content g t (n.program (vorg2VsaTranslation g dieNo b (s.currentPage dieNo b)) (some d))
      (Function.update data lsa (some d)) := by
  have erased := content.blank dieNo die b _ usable (Nat.le_refl _) room
  set vsa := vorg2VsaTranslation g dieNo b (s.currentPage dieNo b) with hvsa
  constructor
  · intro l real
    by_cases same : l = lsa
    · subst same
      exact ⟨d, by simp, by simp [Nand.program, map]⟩
    · have there : t.logicalSlice l = s.logicalSlice l := by simp [map, same]
      rw [there] at real ⊢
      obtain ⟨d', before, held⟩ := content.stored l real
      have other : s.logicalSlice l ≠ vsa := by
        intro hit
        rw [hit, erased] at held
        cases held
      exact ⟨d', by simp [same, before], by simp [Nand.program, other, held]⟩
  · intro d' hd x p hu unwritten low
    rw [pages] at unwritten
    have before : (s.die d').Usable g x := by
      rw [VirtualDie.Usable, bad] at hu
      exact hu
    have other : vorg2VsaTranslation g d' x p ≠ vsa := by
      intro hit
      obtain ⟨h₁, h₂, h₃⟩ := vorg_inj hd low die room hit
      subst h₁ h₂
      rw [if_pos ⟨rfl, rfl⟩] at unwritten
      omega
    have still := content.blank d' hd x p before (by omega) low
    simp [Nand.program, other, still]
  · intro e he
    rcases List.mem_append.mp he with he | he
    · exact content.handedOut e he
    · cases List.mem_singleton.mp he
      exact ⟨by rw [erased]; rfl, vorg_lt die usable.1 room⟩

/-- One step of the mapping layer, with its requests performed. -/
theorem step (content : Content g s n data) (step : MapStep g s t) :
    ∃ requests, t.requests = s.requests ++ requests ∧
      Content g t (requests.foldl (Nand.perform g) n) data := by
  cases step with
  | rearrange same =>
    refine ⟨[], by simp [same.requests], ?_, ?_, content.handedOut⟩
    · exact same.logicalSlice ▸ content.stored
    · intro d hd x p hu unwritten low
      rw [same.currentPage] at unwritten
      exact content.blank d hd x p (same.usable.mp hu) unwritten low
  | copy dieNo b v p lsa die usable room source real map pages bad requests =>
    refine ⟨_, requests, ?_⟩
    obtain ⟨d, before, held⟩ := content.stored lsa (source ▸ real)
    rw [source] at held
    have copied := content.program die usable room map pages bad d
    have same : Function.update data lsa (some d) = data :=
      Function.update_eq_self_iff.mpr before.symm
    rw [same] at copied
    have shape : ([FlashReq.read (vorg2VsaTranslation g dieNo v p) dieNo,
        .write (vorg2VsaTranslation g dieNo b (s.currentPage dieNo b)) dieNo].foldl
          (Nand.perform g) n) =
        { n.program (vorg2VsaTranslation g dieNo b (s.currentPage dieNo b)) (some d) with
          tempBuf := Function.update n.tempBuf dieNo (some d) } := by
      simp [Nand.perform, Nand.program, held]
    rw [shape]
    exact ⟨copied.stored, copied.blank, copied.handedOut⟩
  | erase dieNo b die empty map pages bad requests =>
    refine ⟨_, requests, ?_, ?_, content.handedOut⟩
    · intro l real
      rw [map] at real ⊢
      obtain ⟨d, before, held⟩ := content.stored l real
      refine ⟨d, before, ?_⟩
      have away := empty l (vsa2VpageTranslation g (s.logicalSlice l)) vpage_lt
      have kept : ¬ (vsa2VdieTranslation g (s.logicalSlice l) = dieNo ∧
          vsa2VblockTranslation g (s.logicalSlice l) = b) := by
        rintro ⟨h₁, h₂⟩
        rw [← h₁, ← h₂, vorg_of_vsa] at away
        exact away rfl
      simpa [Nand.perform, vdie_of_vorg die, vblock_of_vorg die g.pages_pos, kept] using held
    · intro d hd x p hu unwritten low
      have before : (s.die d).Usable g x := by
        rw [VirtualDie.Usable, bad] at hu
        exact hu
      rw [pages] at unwritten
      simp only [List.foldl_cons, List.foldl_nil, Nand.perform, vdie_of_vorg die,
        vblock_of_vorg die g.pages_pos, vdie_of_vorg hd, vblock_of_vorg hd low]
      split
      · rfl
      · rename_i other
        rw [if_neg other] at unwritten
        exact content.blank d hd x p before unwritten low

theorem steps (content : Content g s n data) (steps : ReflTransGen (MapStep g) s t) :
    ∃ requests, t.requests = s.requests ++ requests ∧
      Content g t (requests.foldl (Nand.perform g) n) data := by
  induction steps with
  | refl => exact ⟨[], by simp, content⟩
  | tail _ last ih =>
    obtain ⟨first, before, middle⟩ := ih
    obtain ⟨more, after, done⟩ := middle.step last
    exact ⟨first ++ more, by rw [after, before, List.append_assoc], by rwa [List.foldl_append]⟩

end Content

/-- A mapped slice stays mapped: a copy remaps it, nothing else touches it. -/
theorem MapStep.mapped_kept (step : MapStep g s t) (some : s.logicalSlice lsa ≠ vsaNone) :
    t.logicalSlice lsa ≠ vsaNone := by
  cases step with
  | rearrange same => rwa [same.logicalSlice]
  | copy dieNo b v p l die usable room source real map pages bad requests =>
    rw [map]
    by_cases same : lsa = l
    · rw [same, Function.update_self]
      exact vorg_ne_vsaNone die usable room
    · rwa [Function.update_of_ne same]
  | erase dieNo b die empty map pages bad requests => rwa [map]

theorem mapSteps_mapped_kept (steps : ReflTransGen (MapStep g) s t)
    (some : s.logicalSlice lsa ≠ vsaNone) : t.logicalSlice lsa ≠ vsaNone := by
  induction steps with
  | refl => exact some
  | tail _ step ih => exact step.mapped_kept ih

/-! ### Runs of writes -/

/-- What holds between two writes of data. -/
structure StoreOk (g : Geometry) (writes : List (Nat × δ)) (m : FlashStore δ) : Prop where
  mapping : ∃ lists, MappingOk g m.ftl lists noneOut
  content : Content g m.ftl m.nand (lastWritten writes)
  present : ∀ lsa, (lastWritten writes lsa).isSome → m.ftl.logicalSlice lsa ≠ vsaNone

theorem lastWritten_append (writes : List (Nat × δ)) (w : Nat × δ) :
    lastWritten (writes ++ [w]) = Function.update (lastWritten writes) w.1 (some w.2) := by
  simp [lastWritten]

/-- A write that meets the condition stores its data and disturbs no other slice. -/
theorem StoreOk.write {writes : List (Nat × δ)} {m m' : FlashStore δ} {w : Nat × δ}
    (ok : StoreOk g writes m) (safe : ¬ CurrentBlockIsVictim g m.ftl w.1)
    (wrote : m.write g w = some m') : StoreOk g (writes ++ [w]) m' := by
  obtain ⟨lists, mapping⟩ := ok.mapping
  have low : w.1 < g.slicesPerSsd := by
    by_contra high
    simp [FlashStore.write, addrTransWrite, high] at wrote
  have cleared := mapping.withRequests []
  set s₀ : Ftl := { m.ftl with requests := [] } with hs₀
  rcases cleared.addrTransWrite low safe with ⟨b, t, lists₁, s', lists', steps, after, gone, current,
    room, result, dies, map, requests, last⟩ | ⟨failed, -⟩
  · obtain ⟨_, same, _, dropped, -⟩ := cleared.invalidateOldVsa w.1
    have content₀ : Content g (invalidateOldVsa g s₀ w.1) m.nand (lastWritten writes) := by
      refine ⟨fun l real => ?_, fun d hd x p hu unwritten low' => ?_, ok.content.handedOut⟩
      · by_cases here : l = w.1
        · simp [dropped, here] at real
        · have there : (invalidateOldVsa g s₀ w.1).logicalSlice l = m.ftl.logicalSlice l := by
            rw [dropped, Function.update_of_ne here]
          rw [there] at real ⊢
          exact ok.content.stored l real
      · rw [same.currentPage] at unwritten
        exact ok.content.blank d hd x p (same.usable.mp hu) unwritten low'
    obtain ⟨performed, logged, content₁⟩ := content₀.steps steps
    have die : s₀.sliceAllocationTargetDie < g.userDies := cleared.targetDie
    have usable : (t.die s₀.sliceAllocationTargetDie).Usable g b :=
      current ▸ (after.die _ die).currentUsable
    have noLog : (invalidateOldVsa g s₀ w.1).requests = [] := same.requests
    have sameLog : s'.requests = performed := by
      rw [requests, logged, noLog, List.nil_append]
    simp only [FlashStore.write, ← hs₀, result, Option.bind_eq_bind, Option.bind_some, sameLog,
      Option.some.injEq] at wrote
    subst wrote
    have programmed := content₁.program (t := s') die usable room map
      (fun d x => by rw [Ftl.currentPage, dies]; exact assignPage_currentPage room w.1 d x)
      (fun d x => by rw [dies, assignPage_block room]) w.2
    refine ⟨⟨lists', last⟩, lastWritten_append writes w ▸ programmed, fun l some => ?_⟩
    change s'.logicalSlice l ≠ vsaNone
    rw [map]
    by_cases here : l = w.1
    · simp only [assignPage, mapSlice, here, Function.update_self]
      exact vorg_ne_vsaNone die usable room
    · rw [lastWritten_append, Function.update_of_ne here] at some
      simp only [assignPage, mapSlice, Function.update_of_ne here]
      change t.logicalSlice l ≠ vsaNone
      refine mapSteps_mapped_kept steps ?_
      rw [dropped, Function.update_of_ne here]
      exact ok.present l some
  · simp [FlashStore.write, ← hs₀, failed] at wrote

/-- The invariant answers every read with the last data written. -/
theorem StoreOk.correct {writes : List (Nat × δ)} {m : FlashStore δ} (ok : StoreOk g writes m) :
    StoreCorrect g writes m := by
  obtain ⟨lists, mapping⟩ := ok.mapping
  constructor
  · intro lsa d last
    have real := ok.present lsa (by simp [last])
    have mapped := mapping.mapped lsa real
    obtain ⟨d', same, held⟩ := ok.content.stored lsa real
    rw [last] at same
    cases same
    refine ⟨m.ftl.logicalSlice lsa, ?_, real, held, mapped.inverse⟩
    simp [addrTransRead, mapped.lsa_lt, real]
  · exact fun lsa lsa' real same => mapping.mapped_unique real rfl same.symm
  · intro e he
    obtain ⟨erased, low⟩ := ok.content.handedOut e he
    exact ⟨erased, low, vpage_lt⟩

/-- The store right after initialization, every page erased. -/
def initStore (g : Geometry) (bad : Nat → Nat → Bool) : FlashStore δ := { ftl := initFtl g bad }

/-- In every run of writes none of which lets the collector take a fully invalid
current block, the store is correct in every state reached. -/
theorem store_correct_of_run (g : Geometry) (bad : Nat → Nat → Bool)
    (two : ∀ dieNo < g.userDies, 2 ≤ (goodBlocks (bad dieNo) g.userBlocksPerDie).length)
    (writes : List (Nat × δ)) (m : FlashStore δ)
    (run : Run (FlashStore.write g) (fun m w => ¬ CurrentBlockIsVictim g m.ftl w.1)
      (initStore g bad) writes m) : StoreCorrect g writes m := by
  have unmapped : ∀ lsa, (initFtl g bad).logicalSlice lsa = vsaNone := by
    intro lsa
    simp only [initFtl, findDieForFreeSliceAllocation]
    split <;> rfl
  have ok : StoreOk g writes m := by
    refine run.invariant_trace (StoreOk g) ?_ fun writes m w m' ok safe wrote => ok.write safe wrote
    refine ⟨initFtl_ok bad two, ⟨fun lsa real => absurd (unmapped lsa) real, ?_, ?_⟩, ?_⟩
    · exact fun _ _ _ _ _ _ _ => rfl
    · simp [initStore]
    · simp [lastWritten]
  exact ok.correct

/-- Two slices written alternately: the third write collects a block and copies. -/
theorem store_correct_of_run_alternating :
    ∃ m, Run (FlashStore.write tinyGeometry)
      (fun m w => ¬ CurrentBlockIsVictim tinyGeometry m.ftl w.1)
      (initStore tinyGeometry fun _ _ => false) [(0, 7), (1, 8), (0, 9)] m ∧
      StoreCorrect tinyGeometry [(0, 7), (1, 8), (0, 9)] m := by
  have done : (exec (FlashStore.write tinyGeometry)
      (fun m w => ¬ CurrentBlockIsVictim tinyGeometry m.ftl w.1)
      (initStore tinyGeometry fun _ _ => false) [(0, 7), (1, 8), (0, 9)]).isSome := by
    decide +kernel
  obtain ⟨m, ran⟩ := Option.isSome_iff_exists.mp done
  have run := run_of_exec ran
  exact ⟨m, run, store_correct_of_run tinyGeometry (fun _ _ => false) (by decide) _ m run⟩

/-- Writing slices 0, 0, 0, 1, 2, 3, 0: the third write frees the current block, and the
last one hands a page to slice 2 that slice 1 still maps to. -/
theorem store_broken :
    ¬ ∀ (g : Geometry) (bad : Nat → Nat → Bool),
      (∀ dieNo < g.userDies, 2 ≤ (goodBlocks (bad dieNo) g.userBlocksPerDie).length) →
      ∀ (writes : List (Nat × Nat)) (m : FlashStore Nat),
        Run (FlashStore.write g) (fun _ _ => True) (initStore g bad) writes m →
        StoreCorrect g writes m := by
  intro claim
  have done : (exec (FlashStore.write tinyGeometry) (fun _ _ => True)
      (initStore tinyGeometry fun _ _ => false)
      [(0, 1), (0, 2), (0, 3), (1, 4), (2, 5), (3, 6), (0, 7)]).map
        (fun m => (m.ftl.logicalSlice 1, m.ftl.logicalSlice 2)) = some (2, 2) := by
    decide +kernel
  obtain ⟨m, ran, ends⟩ := Option.map_eq_some_iff.mp done
  obtain ⟨first, second⟩ := Prod.mk.injEq .. ▸ ends
  have correct := claim tinyGeometry (fun _ _ => false) (by decide) _ m (run_of_exec ran)
  have same := correct.injective 1 2 (by rw [first]; decide) (by rw [first, second])
  cases same

end OcpFw
