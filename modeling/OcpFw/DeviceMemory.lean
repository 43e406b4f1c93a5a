import OcpFw.CompletionOrder
import OcpFw.SliceRequests

/-! The memory of the device: the entries of the buffer and the pages of flash. The requests
of slices, of write backs and of the collector are carried out on it. In the order of their
submission they deliver what the cache over a store of slices delivers, wherever the
collector moves the slices. -/
namespace OcpFw
open Relation (ReflTransGen)
open AccessOrder (Semantics)
open BufferManager

variable {D : Type}

instance (g : Geometry) (req : SsdReq) (l : RequestPlace) : Decidable (req.Writes g l) :=
  match l with
  | .buf b => inferInstanceAs (Decidable (req.bufEntry = some b))
  | .page _ => inferInstanceAs (Decidable (_ ∧ _ ∧ (_ ∧ _ ∨ _ ∧ _)))

/-! ### Carrying out requests -/

namespace LowLevelReq

/-- What a request leaves in a place it writes. `erased` is what an erased page reads as. -/
def leaves (hostData : Nat → Nat → D) (erased : Nat → D) (r : LowLevelReq) (m : RequestPlace → Nat → D) :
    RequestPlace → Nat → D
  | .buf b =>
    if r.req.reqCode = .read ∧ r.req.reqType = .nand ∧ r.req.nandAddr = .vsa then m (.page r.req.virtualSliceAddr)
    else if r.req.reqCode = .rxDma then fun p => if r.Moves p then hostData r.slice p else m (.buf b) p
    else m (.buf b)
  | .page _ => if r.req.reqCode = .write then r.req.bufEntry.elim erased fun b => m (.buf b) else erased

/-- A request carried out. -/
def carryOut (g : Geometry) (hostData : Nat → Nat → D) (erased : Nat → D) (r : LowLevelReq)
    (m : RequestPlace → Nat → D) (l : RequestPlace) : Nat → D :=
  if r.req.Writes g l then r.leaves hostData erased m l else m l

/-- The blocks a TxDMA request moves to the host. -/
def delivered (r : LowLevelReq) (m : RequestPlace → Nat → D) : List (Delivery D) :=
  r.req.bufEntry.elim [] fun b => r.deliveries fun _ => m (.buf b)

/-- The slice and the position of each block. -/
def answers (r : LowLevelReq) : List (Nat × Nat) :=
  if r.req.bufEntry.isSome ∧ r.req.reqCode = .txDma then
    (List.range r.req.nvmeDmaInfo.numOfNvmeBlock).map fun i => (r.slice, r.req.nvmeDmaInfo.nvmeBlockOffset + i)
  else []

theorem delivered_answers (r : LowLevelReq) (m : RequestPlace → Nat → D) :
    (r.delivered m).map (fun d => (d.slice, d.block)) = r.answers := by
  unfold delivered answers deliveries
  cases r.req.bufEntry with
  | none => simp
  | some b => by_cases code : r.req.reqCode = .txDma <;> simp [code]

end LowLevelReq

/-- The requests as operations on the memory of the device. -/
def deviceSemantics (g : Geometry) (hostData : Nat → Nat → D) (erased : Nat → D) :
    Semantics LowLevelReq RequestPlace (Nat → D) (List (Delivery D)) where
  Reads r := r.req.Reads
  Writes r := r.req.Writes g
  apply := LowLevelReq.carryOut g hostData erased
  output := LowLevelReq.delivered
  frame r m l out := if_neg out
  local_apply r m m' same l writes := by
    simp only [LowLevelReq.carryOut, if_pos writes]
    cases l with
    | buf b =>
      have here : m (.buf b) = m' (.buf b) := same (.buf b) writes
      simp only [LowLevelReq.leaves, here]
      split
      · rename_i read
        exact same (.page r.req.virtualSliceAddr) ⟨read.2.1, read.2.2, read.1, rfl⟩
      · rfl
    | page vsa =>
      simp only [LowLevelReq.leaves]
      split
      · cases entry : r.req.bufEntry with
        | none => rfl
        | some b => exact same (.buf b) entry
      · rfl
  local_output r m m' same := by
    unfold LowLevelReq.delivered
    cases entry : r.req.bufEntry with
    | none => rfl
    | some b =>
      have here : m (.buf b) = m' (.buf b) := same (.buf b) entry
      simp only [Option.elim_some, here]

section
variable {g : Geometry} {hostData : Nat → Nat → D} {erased : Nat → D} {m : RequestPlace → Nat → D}
  {req : SsdReq} {vsa k : Nat} {b : BufEntry}

/-- A read copies its page to its entry. -/
theorem ToPage.carry_read (goes : ToPage req .read vsa) (entry : req.bufEntry = some b) :
    LowLevelReq.carryOut g hostData erased ⟨req, k⟩ m = Function.update m (.buf b) (m (.page vsa)) := by
  funext l
  cases l with
  | buf b' =>
    by_cases same : b' = b
    · subst same
      simp [LowLevelReq.carryOut, SsdReq.Writes, entry, LowLevelReq.leaves, goes.reqCode, goes.reqType,
        goes.nandAddr, goes.page]
    · simp [LowLevelReq.carryOut, SsdReq.Writes, entry, Ne.symm same, same]
  | page v => simp [LowLevelReq.carryOut, SsdReq.Writes, goes.reqCode]

/-- A write copies its entry to its page. -/
theorem ToPage.carry_write (goes : ToPage req .write vsa) (entry : req.bufEntry = some b) :
    LowLevelReq.carryOut g hostData erased ⟨req, k⟩ m = Function.update m (.page vsa) (m (.buf b)) := by
  funext l
  cases l with
  | buf b' =>
    by_cases same : b' = b
    · subst same
      simp [LowLevelReq.carryOut, SsdReq.Writes, entry, LowLevelReq.leaves, goes.reqCode]
    · simp [LowLevelReq.carryOut, SsdReq.Writes, entry, Ne.symm same]
  | page v =>
    by_cases same : v = vsa
    · subst same
      simp [LowLevelReq.carryOut, SsdReq.Writes, entry, LowLevelReq.leaves, goes.reqCode, goes.reqType,
        goes.nandAddr, goes.page]
    · simp [LowLevelReq.carryOut, SsdReq.Writes, goes.reqCode, goes.page, Ne.symm same, same]

/-- An erase blanks the pages of its block. -/
theorem ToPage.carry_erase (goes : ToPage req .erase vsa) (entry : req.bufEntry = none) :
    LowLevelReq.carryOut g hostData erased ⟨req, k⟩ m = fun l =>
      match l with
      | .buf _ => m l
      | .page v => if blockAddr g vsa = blockAddr g v then erased else m l := by
  funext l
  cases l with
  | buf b' => simp [LowLevelReq.carryOut, SsdReq.Writes, entry]
  | page v => simp [LowLevelReq.carryOut, SsdReq.Writes, LowLevelReq.leaves, goes.reqCode, goes.reqType,
      goes.nandAddr, goes.page]

end

/-! ### The pages as the mapping layer knows them -/

/-- The device holds what is known of the pages and of the temporary entries. -/
structure HoldsNand (n : Nand (Nat → D)) (m : RequestPlace → Nat → D) : Prop where
  page : ∀ vsa d, n.page vsa = some d → m (.page vsa) = d
  tempBuf : ∀ tempEntry d, n.tempBuf tempEntry = some d → m (.buf (.tempDataBuf tempEntry)) = d

section
variable {g : Geometry} {hostData : Nat → Nat → D} {erased : Nat → D} {n : Nand (Nat → D)}
  {m : RequestPlace → Nat → D} {e : Nat} {reqs : List FlashReq}

variable (g hostData erased) in
/-- A request of the collector carried out. -/
theorem HoldsNand.carry (holds : HoldsNand n m) (r : FlashReq) (k : Nat) :
    HoldsNand (n.perform g r) (LowLevelReq.carryOut g hostData erased ⟨r.flashRequest.req, k⟩ m) ∧
      ∀ e, LowLevelReq.carryOut g hostData erased ⟨r.flashRequest.req, k⟩ m (.buf (.dataBuf e)) =
        m (.buf (.dataBuf e)) := by
  have goes := r.toPage
  cases r with
  | read vsa t =>
    rw [ToPage.carry_read goes (show _ = some (.tempDataBuf t) from rfl)]
    refine ⟨⟨fun v d known => ?_, fun t' d known => ?_⟩, fun e => by simp⟩
    · simpa using holds.page v d known
    · by_cases same : t' = t
      · subst same
        have known' : n.page vsa = some d := by simpa [Nand.perform] using known
        simpa using holds.page vsa d known'
      · have known' : n.tempBuf t' = some d := by simpa [Nand.perform, same] using known
        simpa [same] using holds.tempBuf t' d known'
  | write vsa t =>
    rw [ToPage.carry_write goes (show _ = some (.tempDataBuf t) from rfl)]
    refine ⟨⟨fun v d known => ?_, fun t' d known => ?_⟩, fun e => by simp⟩
    · by_cases same : v = vsa
      · subst same
        have known' : n.tempBuf t = some d := by simpa [Nand.perform, Nand.program] using known
        simpa using holds.tempBuf t d known'
      · have known' : n.page v = some d := by simpa [Nand.perform, Nand.program, same] using known
        simpa [same] using holds.page v d known'
    · simpa using holds.tempBuf t' d known
  | erase vsa count =>
    rw [ToPage.carry_erase goes rfl]
    refine ⟨⟨fun v d known => ?_, fun t' d known => holds.tempBuf t' d known⟩, fun e => rfl⟩
    simp only [Nand.perform] at known
    split at known
    · cases known
    · rename_i other
      have apart : blockAddr g vsa ≠ blockAddr g v := by
        rw [blockAddr_eq, blockAddr_eq, ne_eq, dieBlock_inj]
        rintro ⟨die, block⟩
        exact other ⟨die.symm, block.symm⟩
      simpa only [if_neg apart] using holds.page v d known

variable (g hostData erased) in
theorem HoldsNand.carries (holds : HoldsNand n m) (reqs : List FlashReq) (k : Nat) :
    HoldsNand (reqs.foldl (Nand.perform g) n)
        ((deviceSemantics g hostData erased).replay m (reqs.map fun r => ⟨r.flashRequest.req, k⟩)) ∧
      ∀ e, (deviceSemantics g hostData erased).replay m (reqs.map fun r => ⟨r.flashRequest.req, k⟩)
        (.buf (.dataBuf e)) = m (.buf (.dataBuf e)) := by
  induction reqs generalizing n m with
  | nil => exact ⟨holds, fun _ => rfl⟩
  | cons r reqs ih =>
    obtain ⟨after, same⟩ := holds.carry g hostData erased r k
    obtain ⟨last, same'⟩ := ih after
    exact ⟨last, fun e => (same' e).trans (same e)⟩

end

/-! ### The cache over the pages -/

/-- The device holds the data of the cache: the entries are the same, and a mapped slice is
in the page it is mapped to. -/
structure SameData (g : Geometry) (f : Ftl) (n : Nand (Nat → D)) (am : Place → Nat → D)
    (m : RequestPlace → Nat → D) : Prop where
  content : Content g f n fun lsa => some (am (.flash lsa))
  holds : HoldsNand n m
  entry : ∀ e, am (.buf e) = m (.buf (.dataBuf e))

section
variable {g : Geometry} {hostData : Nat → Nat → D} {erased : Nat → D} {s : BufferManager Ftl} {f f' : Ftl}
  {n : Nand (Nat → D)} {am : Place → Nat → D} {m : RequestPlace → Nat → D} {k e lsa : Nat}
  {before evict fill : List SsdReq} {new : List FlashReq} {slice : SliceReq} {held : Bool} {dma : SsdReq}

/-- A mapped slice is found in its page. -/
theorem SameData.mapped (same : SameData g f n am m) (real : f.logicalSlice lsa ≠ vsaNone) :
    m (.page (f.logicalSlice lsa)) = am (.flash lsa) := by
  obtain ⟨d, known, page⟩ := same.content.stored lsa real
  cases known
  exact same.holds.page _ _ page

variable (hostData erased) in
/-- The requests of the collector and the write back after them. -/
theorem SameData.evicts (same : SameData g s.map n am m) (ok : ∃ lists, MappingOk g s.map lists noneOut)
    (evicts : Evicts (flashSliceMap g) s e evict f')
    (safe : s.buf.dirty e = true → ¬ CurrentBlockIsVictim g s.map (s.buf.logicalSliceAddr e))
    (copies : f'.requests = s.map.requests ++ new) (k : Nat) :
    ∃ n', SameData g f' n' ((bufferSemantics hostData).replay am (evict.map fun req => ⟨req, k⟩))
      ((deviceSemantics g hostData erased).replay m
        ((new.map (fun r => r.flashRequest.req) ++ evict).map fun req => ⟨req, k⟩)) := by
  cases evicts with
  | clean =>
    obtain rfl : new = [] := by simpa using copies
    exact ⟨n, same⟩
  | @dirty vsa _ tag dirty written =>
    set lsa := s.buf.logicalSliceAddr e
    have wrote : addrTransWrite g s.map lsa = some (vsa, f') := written
    obtain ⟨lists, ok⟩ := ok
    have low : lsa < g.slicesPerSsd := by
      by_contra high
      simp [addrTransWrite, high] at wrote
    rcases ok.addrTransWrite low (safe dirty) with ⟨b, t, lists₁, s', -, steps, after, -, current, room, result, dies, map,
      requests, -⟩ | ⟨failed, -⟩
    swap
    · cases failed.symm.trans wrote
    obtain ⟨rfl, rfl⟩ := Prod.mk.inj (Option.some.inj (result.symm.trans wrote))
    obtain ⟨-, samePages, -, dropped, -⟩ := ok.invalidateOldVsa lsa
    have content₀ : Content g (invalidateOldVsa g s.map lsa) n fun lsa => some (am (.flash lsa)) := by
      refine ⟨fun l real => ?_, fun d die x p usable unwritten page => ?_, same.content.handedOut⟩
      · by_cases here : l = lsa
        · simp [dropped, here] at real
        · have there : (invalidateOldVsa g s.map lsa).logicalSlice l = s.map.logicalSlice l := by
            rw [dropped, Function.update_of_ne here]
          rw [there] at real ⊢
          exact same.content.stored l real
      · rw [samePages.currentPage] at unwritten
        exact same.content.blank d die x p (samePages.usable.mp usable) unwritten page
    obtain ⟨performed, logged, content₁⟩ := content₀.steps steps
    obtain rfl : performed = new := by
      rw [requests, logged, samePages.requests] at copies
      exact List.append_cancel_left copies
    obtain ⟨holds, entries⟩ := same.holds.carries g hostData erased performed k
    have die : s.map.sliceAllocationTargetDie < g.userDies := ok.targetDie
    have usable : (t.die s.map.sliceAllocationTargetDie).Usable g b := current ▸ (after.die _ die).currentUsable
    have programmed := content₁.program (t := s') die usable room map
      (fun d x => by rw [Ftl.currentPage, dies]; exact assignPage_currentPage room lsa d x)
      (fun d x => by rw [dies, assignPage_block room]) (am (.buf e))
    set page := vorg2VsaTranslation g s.map.sliceAllocationTargetDie b (t.currentPage s.map.sliceAllocationTargetDie b)
    have abstract : (bufferSemantics hostData).replay am [⟨evictReq tag lsa e page, k⟩] =
        Function.update am (.flash lsa) (am (.buf e)) := rfl
    have physical : (deviceSemantics g hostData erased).replay m
        ((performed.map (fun r => r.flashRequest.req) ++ [evictReq tag lsa e page]).map fun req => ⟨req, k⟩) =
        Function.update ((deviceSemantics g hostData erased).replay m
          (performed.map fun r => ⟨r.flashRequest.req, k⟩)) (.page page) (m (.buf (.dataBuf e))) := by
      rw [List.map_append, Semantics.replay_append, List.map_map, ← entries e]
      exact ToPage.carry_write evictReq_toPage rfl
    rw [List.map_singleton, abstract, physical]
    refine ⟨(performed.foldl (Nand.perform g) n).program page (some (am (.buf e))), ?_,
      ⟨fun v d known => ?_, fun t' d known => ?_⟩, fun x => ?_⟩
    · convert programmed using 1
      funext l
      by_cases here : l = lsa <;> simp [here]
    · by_cases here : v = page
      · have known' : am (.buf e) = d := by simpa [Nand.program, here] using known
        simpa [here, ← same.entry e] using known'
      · have known' : (performed.foldl (Nand.perform g) n).page v = some d := by
          simpa [Nand.program, here] using known
        simpa [here] using holds.page v d known'
    · simpa using holds.tempBuf t' d known
    · have kept : am (.buf x) = (deviceSemantics g hostData erased).replay m
          (performed.map fun r => ⟨r.flashRequest.req, k⟩) (.buf (.dataBuf x)) := (same.entry x).trans (entries x).symm
      simpa using kept

variable (hostData erased) in
/-- The read that fills an entry. -/
theorem SameData.fills (same : SameData g f n am m) (fills : Fills (flashSliceMap g) f slice e fill) (k : Nat) :
    SameData g f n ((bufferSemantics hostData).replay am (fill.map fun req => ⟨req, k⟩))
      ((deviceSemantics g hostData erased).replay m (fill.map fun req => ⟨req, k⟩)) := by
  cases fills with
  | whole => exact same
  | unmapped => exact same
  | @mapped vsa tag needed found real =>
    set lsa := slice.logicalSliceAddr
    obtain ⟨rfl, mapped⟩ := flashSliceMap_addrTransRead found real
    have abstract : (bufferSemantics hostData).replay am [⟨fillReq tag lsa e (f.logicalSlice lsa), k⟩] =
        Function.update am (.buf e) (am (.flash lsa)) := rfl
    have physical : (deviceSemantics g hostData erased).replay m [⟨fillReq tag lsa e (f.logicalSlice lsa), k⟩] =
        Function.update m (.buf (.dataBuf e)) (m (.page (f.logicalSlice lsa))) :=
      ToPage.carry_read fillReq_toPage rfl
    rw [List.map_singleton, abstract, physical, same.mapped mapped]
    refine ⟨?_, ⟨fun v d known => ?_, fun t d known => ?_⟩, fun x => ?_⟩
    · simpa using same.content
    · simpa using same.holds.page v d known
    · simpa using same.holds.tempBuf t d known
    · by_cases here : x = e
      · simp [here]
      · simpa [here] using same.entry x

variable (hostData erased) in
/-- The transfer of the slice. -/
theorem SameData.transfer (same : SameData g f n am m) (dmaReq : slice.dmaReq {} e = some dma) (k : Nat) :
    SameData g f n ((bufferSemantics hostData).replay am [⟨dma, k⟩])
        ((deviceSemantics g hostData erased).replay m [⟨dma, k⟩]) ∧
      LowLevelReq.delivered ⟨dma, k⟩ m = LowLevelReq.deliveries ⟨dma, k⟩ am := by
  obtain ⟨type, entry⟩ := dmaReq_transfers dmaReq
  obtain ⟨info, -, -, code⟩ := dmaReq_spec dmaReq
  have place : LowLevelReq.bufPlace ⟨dma, k⟩ = .buf e := by rw [LowLevelReq.bufPlace, info]
  constructor
  · rcases code with ⟨-, rx⟩ | ⟨-, tx⟩
    · have abstract : (bufferSemantics hostData).replay am [⟨dma, k⟩] = Function.update am (.buf e)
          fun p => if LowLevelReq.Moves ⟨dma, k⟩ p then hostData k p else am (.buf e) p := by
        simp only [Semantics.replay, List.foldl_cons, List.foldl_nil, bufferSemantics,
          LowLevelReq.apply, rx, place]
      have physical : (deviceSemantics g hostData erased).replay m [⟨dma, k⟩] = Function.update m (.buf (.dataBuf e))
          fun p => if LowLevelReq.Moves ⟨dma, k⟩ p then hostData k p else m (.buf (.dataBuf e)) p := by
        funext l
        change LowLevelReq.carryOut g hostData erased ⟨dma, k⟩ m l = _
        cases l with
        | buf b =>
          by_cases here : b = .dataBuf e
          · subst here
            simp [LowLevelReq.carryOut, SsdReq.Writes, entry, LowLevelReq.leaves, rx]
          · simp [LowLevelReq.carryOut, SsdReq.Writes, entry, Ne.symm here, here]
        | page v => simp [LowLevelReq.carryOut, SsdReq.Writes, type]
      rw [abstract, physical, same.entry e]
      refine ⟨?_, ⟨fun v d known => ?_, fun t d known => ?_⟩, fun x => ?_⟩
      · simpa using same.content
      · simpa using same.holds.page v d known
      · simpa using same.holds.tempBuf t d known
      · by_cases here : x = e
        · simp [here]
        · simpa [here] using same.entry x
    · have abstract : (bufferSemantics hostData).replay am [⟨dma, k⟩] = am := by
        simp only [Semantics.replay, List.foldl_cons, List.foldl_nil, bufferSemantics,
          LowLevelReq.apply, tx]
      have physical : (deviceSemantics g hostData erased).replay m [⟨dma, k⟩] = m := by
        funext l
        change LowLevelReq.carryOut g hostData erased ⟨dma, k⟩ m l = _
        cases l with
        | buf b => simp [LowLevelReq.carryOut, LowLevelReq.leaves, tx]
        | page v => simp [LowLevelReq.carryOut, SsdReq.Writes, type]
      rw [abstract, physical]
      exact same
  · simp [LowLevelReq.delivered, entry, LowLevelReq.deliveries, place, same.entry e]

end

/-! ### Sequences of slices -/

/-- The data of the cache at the start: the entries of the device, and no slice in flash. -/
def cacheMemory (erased : Nat → D) (m : RequestPlace → Nat → D) : Place → Nat → D
  | .buf e => m (.buf (.dataBuf e))
  | .flash _ => erased

/-- Were all requests carried out as they are submitted, the device would hold the data of the
cache, and what it delivers would have the property that the cache keeps. -/
structure DeviceOk (g : Geometry) (hostData : Nat → Nat → D) (erased : Nat → D) (m₀ : RequestPlace → Nat → D)
    (P : List SliceReq → Nat → Nat → D → Prop) (s : BufferManager Ftl) (ops : List LowLevelReq) : Prop where
  replay : s.ReplayOk g (flashSliceMap g) hostData (cacheMemory erased m₀) P
  same : ∃ n, SameData g s.map n ((bufferSemantics hostData).replay (cacheMemory erased m₀) s.submitted)
    ((deviceSemantics g hostData erased).replay m₀ ops)
  delivers : ∀ (i : Nat) (r : LowLevelReq), ops[i]? = some r →
    ∀ d ∈ r.delivered ((deviceSemantics g hostData erased).replay m₀ (ops.take i)), DeliversAs P s.slices d

namespace DeviceOk
variable {g : Geometry} {hostData : Nat → Nat → D} {erased : Nat → D} {m₀ : RequestPlace → Nat → D}
  {P : List SliceReq → Nat → Nat → D → Prop} {s s' : BufferManager Ftl} {ops : List LowLevelReq} {slice : SliceReq}
  {requests : List FlashRequest} {before : List SsdReq} {new : List FlashReq} {e : Nat} {held : Bool} {dma : SsdReq}

theorem init (bad : Nat → Nat → Bool) (holds : ∀ lsa l p, P [] lsa p (cacheMemory erased m₀ l p)) :
    DeviceOk g hostData erased m₀ P (initBufferManager g (initFtl g bad)) [] where
  replay := .init _ holds
  same := by
    refine ⟨{}, ⟨fun lsa real => ?_, fun _ _ _ _ _ _ _ => rfl, by simp⟩, ⟨by simp, by simp⟩, fun _ => rfl⟩
    have unmapped : (initFtl g bad).logicalSlice lsa = vsaNone := by
      simp only [initFtl, findDieForFreeSliceAllocation]
      split <;> rfl
    exact absurd unmapped real
  delivers i r listed := by simp at listed

theorem delivered_nil {r : LowLevelReq} {m : RequestPlace → Nat → D} (code : r.req.reqCode ≠ .txDma) :
    r.delivered m = [] := by
  unfold LowLevelReq.delivered
  cases r.req.bufEntry with
  | none => rfl
  | some b => simp [LowLevelReq.deliveries, code]

/-- Only the last request of a slice moves data to the host. -/
theorem code_ne {req : SsdReq} (what : Translates g s slice s' requests new e before held dma)
    (member : req ∈ new.map (fun r => r.flashRequest.req) ++ before) : req.reqCode ≠ .txDma := by
  rcases List.mem_append.mp member with copy | member
  · obtain ⟨r, -, rfl⟩ := List.mem_map.mp copy
    cases r <;> simp [FlashReq.flashRequest]
  · obtain ⟨tag, lsa, vsa, rfl | rfl⟩ := what.consumes.prepares.nand req member
    · simp [evictReq]
    · simp [fillReq]

/-- The requests of a slice before its transfer. -/
theorem prepares (same : ∃ n, SameData g s.map n ((bufferSemantics hostData).replay (cacheMemory erased m₀) s.submitted)
      ((deviceSemantics g hostData erased).replay m₀ ops)) (maps : ∃ lists, MappingOk g s.map lists noneOut)
    (safe : EvictsSafely g s slice) (what : Translates g s slice s' requests new e before held dma) (k : Nat) :
    ∃ n, SameData g s'.map n
      ((bufferSemantics hostData).replay (cacheMemory erased m₀) (s.submitted ++ before.map fun req => ⟨req, k⟩))
      ((deviceSemantics g hostData erased).replay m₀
        (ops ++ (new.map (fun r => r.flashRequest.req) ++ before).map fun req => ⟨req, k⟩)) := by
  obtain ⟨n, same⟩ := same
  have prepares := what.consumes.prepares
  have copies := what.copies
  generalize s'.map = map at prepares copies ⊢
  cases prepares with
  | hit =>
    obtain rfl : new = [] := by simpa using copies
    exact ⟨n, by simpa using same⟩
  | miss evict fill map missed oldest evicts fills =>
    obtain ⟨n', written⟩ := same.evicts hostData erased maps evicts (oldest ▸ safe missed) copies k
    have filled := written.fills hostData erased fills k
    rw [← Semantics.replay_append, ← Semantics.replay_append, ← Semantics.replay_append,
      ← Semantics.replay_append] at filled
    exact ⟨n', by simpa only [List.map_append, List.append_assoc] using filled⟩

/-- Consuming a slice. -/
theorem consume (ok : DeviceOk g hostData erased m₀ P s ops) {reqs : List SsdReq} (slices : SlicesOk g s reqs)
    (real : slice.logicalSliceAddr ≠ lsaNone) (safe : EvictsSafely g s slice)
    (replay : s'.ReplayOk g (flashSliceMap g) hostData (cacheMemory erased m₀) P)
    (done : translateSlice g s slice = some (s', requests)) :
    DeviceOk g hostData erased m₀ P s' (ops ++ requests.map fun r => ⟨r.req, s.slices.length⟩) := by
  obtain ⟨-, -, new, e, before, held, dma, what⟩ := slices.translates real safe done
  set k := s.slices.length with hk
  obtain ⟨n, filled⟩ := prepares ok.same slices.maps safe what k
  obtain ⟨after, transferred⟩ := filled.transfer hostData erased what.consumes.dmaReq k
  rw [← Semantics.replay_append, ← Semantics.replay_append] at after
  set front := new.map (fun r => r.flashRequest.req) ++ before with hfront
  have issued : (requests.map fun r => (⟨r.req, k⟩ : LowLevelReq)) =
      front.map (fun req => ⟨req, k⟩) ++ [⟨dma, k⟩] := by
    have shape : (requests.map fun r => (⟨r.req, k⟩ : LowLevelReq)) =
        (requests.map FlashRequest.req).map fun req => ⟨req, k⟩ := by simp
    rw [shape, what.requests]
    simp [hfront]
  have submitted : s'.submitted = (s.submitted ++ before.map fun req => ⟨req, k⟩) ++ [⟨dma, k⟩] := by
    rw [what.consumes.submitted]
    simp [hk]
  rw [issued, ← List.append_assoc]
  refine ⟨replay, ⟨n, submitted ▸ after⟩, fun i r listed d member => ?_⟩
  rcases Nat.lt_trichotomy i (ops ++ front.map fun req => (⟨req, k⟩ : LowLevelReq)).length with old | rfl | high
  · rw [List.getElem?_append_left old] at listed
    rw [List.take_append_of_le_length old.le] at member
    by_cases earlier : i < ops.length
    · rw [List.getElem?_append_left earlier] at listed
      rw [List.take_append_of_le_length earlier.le] at member
      rw [what.consumes.slices]
      exact DeliversAs.append (ok.delivers i r listed d member) slice
    · rw [List.getElem?_append_right (by omega), List.getElem?_map] at listed
      obtain ⟨req, there, rfl⟩ := Option.map_eq_some_iff.mp listed
      have code := code_ne what (List.mem_of_getElem? there)
      simp [delivered_nil (r := ⟨req, k⟩) code] at member
  · obtain rfl : r = ⟨dma, k⟩ := by simpa [eq_comm] using listed
    rw [List.take_left, transferred] at member
    apply replay.delivers (s.submitted ++ before.map fun req => (⟨req, k⟩ : LowLevelReq)).length ⟨dma, k⟩
      (by simp [submitted]) d
    rw [submitted, List.take_left]
    exact member
  · have bound := (List.getElem?_eq_some_iff.mp listed).1
    rw [List.length_append, List.length_singleton] at bound
    omega

end DeviceOk
end OcpFw
