import OcpFw.BlockConflicts
import OcpFw.BlockRequests
import OcpFw.FlashFirmware
import OcpFw.GarbageCollection

/-! The requests that consuming slices submits, as the blocks of flash see them. Pages are
written in their order, only written pages are read, and only full blocks are erased: the
current page of a block is the page its requests write next. -/
namespace OcpFw
open Relation (ReflTransGen)
open BlockReq (Allowed nextPage AllowedAll)
open Runs (Run)

/-! ### Requests in turn -/

/-- The request asks for the check and keeps the discipline of the block, after those before
it. -/
def InTurn (g : Geometry) (b : BlockAddr) (before : List SsdReq) (req : SsdReq) : Prop :=
  Allowed g.userPagesPerBlock (before.map (blockReq g b)) (blockReq g b req) ∧
    (blockReq g b req ≠ none → req.rowAddrDependencyCheck = true) ∧
    (blockReq g b req = some .erase →
      req.programmedPageCnt = g.userPagesPerBlock ∧ req.bufEntry = none)

/-- Each request is in turn for every block. -/
inductive AllInTurn (g : Geometry) : List SsdReq → List SsdReq → Prop
  | nil : AllInTurn g before []
  | cons (turn : ∀ b, InTurn g b before req) (rest : AllInTurn g (before ++ [req]) reqs) :
      AllInTurn g before (req :: reqs)

/-- The block of a die. -/
def dieBlock (g : Geometry) (dieNo blockNo : Nat) : BlockAddr :=
  ⟨vdie2PchTranslation g dieNo, vdie2PwayTranslation g dieNo, blockNo⟩

/-- A checked NAND request to a page. -/
structure ToPage (req : SsdReq) (reqCode : ReqCode) (virtualSliceAddr : Nat) : Prop where
  reqType : req.reqType = .nand
  nandAddr : req.nandAddr = .vsa
  check : req.rowAddrDependencyCheck = true
  reqCode : req.reqCode = reqCode
  page : req.virtualSliceAddr = virtualSliceAddr

/-- What such a request asks of the block of the page. -/
def pageReq (pageNo : Nat) : ReqCode → Option BlockReq
  | .write => some (.write pageNo)
  | .read => some (.read pageNo)
  | .erase => some .erase
  | _ => none

variable {g : Geometry} {s t : Ftl} {before reqs reqs' : List SsdReq} {req : SsdReq} {b : BlockAddr}
  {vsa dieNo blockNo pageNo lsa : Nat} {reqCode : ReqCode}

theorem AllInTurn.append (first : AllInTurn g before reqs) (second : AllInTurn g (before ++ reqs) reqs') :
    AllInTurn g before (reqs ++ reqs') := by
  induction first with
  | nil => simpa using second
  | cons turn rest ih => exact .cons turn (ih (by simpa using second))

theorem AllInTurn.rest (turns : AllInTurn g before (reqs ++ reqs')) : AllInTurn g (before ++ reqs) reqs' := by
  induction reqs generalizing before with
  | nil => simpa using turns
  | cons req reqs ih =>
    cases turns with
    | cons turn rest => simpa using ih rest

theorem AllInTurn.single (turn : ∀ b, InTurn g b before req) : AllInTurn g before [req] := .cons turn .nil

/-- Each request was allowed when it was submitted. -/
theorem AllInTurn.allowed (turns : AllInTurn g before reqs)
    (old : AllowedAll g.userPagesPerBlock (before.map (blockReq g b))) :
    AllowedAll g.userPagesPerBlock ((before ++ reqs).map (blockReq g b)) := by
  induction turns with
  | nil => simpa using old
  | cons turn rest ih => simpa using ih (by simpa using old.submit (turn b).1)

theorem blockAddr_eq (vsa : Nat) :
    blockAddr g vsa = dieBlock g (vsa2VdieTranslation g vsa) (vsa2VblockTranslation g vsa) := rfl

theorem dieBlock_inj {d x : Nat} : dieBlock g d x = dieBlock g dieNo blockNo ↔ d = dieNo ∧ x = blockNo := by
  constructor
  · intro same
    simp only [dieBlock, vdie2PchTranslation, vdie2PwayTranslation, BlockAddr.mk.injEq] at same
    obtain ⟨ch, way, block⟩ := same
    refine ⟨?_, block⟩
    rw [← Nat.div_add_mod d g.userChannels, ← Nat.div_add_mod dieNo g.userChannels, ch, way]
  · rintro ⟨rfl, rfl⟩
    rfl

theorem blockAddr_vorg (die : dieNo < g.userDies) (page : pageNo < g.slicesPerBlock) :
    blockAddr g (vorg2VsaTranslation g dieNo blockNo pageNo) = dieBlock g dieNo blockNo := by
  rw [blockAddr_eq, vdie_of_vorg die, vblock_of_vorg die page]

namespace ToPage

theorem asks (goes : ToPage req reqCode vsa) (b : BlockAddr) : blockReq g b req =
    if blockAddr g vsa = b then pageReq (vsa2VpageTranslation g vsa) reqCode else none := by
  cases reqCode <;> simp [blockReq, pageReq, goes.reqType, goes.nandAddr, goes.reqCode, goes.page]

theorem other (goes : ToPage req reqCode vsa) (block : blockAddr g vsa ≠ b) : InTurn g b before req := by
  have none : blockReq g b req = none := by rw [goes.asks, if_neg block]
  simp [InTurn, none, Allowed]

/-- A written page may be read. -/
theorem read (goes : ToPage req .read vsa)
    (written : vsa2VpageTranslation g vsa < nextPage (before.map (blockReq g (blockAddr g vsa)))) :
    ∀ b, InTurn g b before req := by
  intro b
  by_cases block : blockAddr g vsa = b
  · subst block
    have asks := goes.asks (g := g) (blockAddr g vsa)
    rw [if_pos rfl] at asks
    rw [InTurn, asks]
    exact ⟨written, fun _ => goes.check, by simp [pageReq]⟩
  · exact goes.other block

/-- The next page may be written. -/
theorem write (goes : ToPage req .write vsa)
    (next : vsa2VpageTranslation g vsa = nextPage (before.map (blockReq g (blockAddr g vsa)))) :
    ∀ b, InTurn g b before req := by
  intro b
  by_cases block : blockAddr g vsa = b
  · subst block
    have asks := goes.asks (g := g) (blockAddr g vsa)
    rw [if_pos rfl] at asks
    rw [InTurn, asks]
    exact ⟨⟨next, vpage_lt⟩, fun _ => goes.check, by simp [pageReq]⟩
  · exact goes.other block

/-- A full block may be erased. -/
theorem erase (goes : ToPage req .erase vsa)
    (full : nextPage (before.map (blockReq g (blockAddr g vsa))) = g.userPagesPerBlock)
    (count : req.programmedPageCnt = g.userPagesPerBlock) (entry : req.bufEntry = none) :
    ∀ b, InTurn g b before req := by
  intro b
  by_cases block : blockAddr g vsa = b
  · subst block
    have asks := goes.asks (g := g) (blockAddr g vsa)
    rw [if_pos rfl] at asks
    rw [InTurn, asks]
    exact ⟨full, fun _ => goes.check, fun _ => ⟨count, entry⟩⟩
  · exact goes.other block

end ToPage

/-- A request that is not one to flash. -/
theorem InTurn.dma (type : req.reqType ≠ .nand) (b : BlockAddr) : InTurn g b before req := by
  have none : blockReq g b req = none := by simp [blockReq, type]
  simp [InTurn, none, Allowed]

theorem FlashReq.toPage (r : FlashReq) :
    match r with
    | .read virtualSliceAddr _ => ToPage r.flashRequest.req .read virtualSliceAddr
    | .write virtualSliceAddr _ => ToPage r.flashRequest.req .write virtualSliceAddr
    | .erase virtualSliceAddr _ => ToPage r.flashRequest.req .erase virtualSliceAddr := by
  cases r <;> exact ⟨rfl, rfl, rfl, rfl, rfl⟩

/-! ### The current pages -/

/-- What the maps know of the requests submitted so far. -/
structure TurnsOk (g : Geometry) (s : Ftl) (reqs : List SsdReq) : Prop where
  pages : ∀ dieNo < g.userDies, ∀ blockNo,
    nextPage (reqs.map (blockReq g (dieBlock g dieNo blockNo))) = s.currentPage dieNo blockNo
  written : ∀ lsa, s.logicalSlice lsa ≠ vsaNone → vsa2VpageTranslation g (s.logicalSlice lsa) <
    s.currentPage (vsa2VdieTranslation g (s.logicalSlice lsa)) (vsa2VblockTranslation g (s.logicalSlice lsa))

namespace TurnsOk

/-- The slices mapped before are, and the pages stay. -/
theorem frame (ok : TurnsOk g s reqs) (pages : ∀ d x, t.currentPage d x = s.currentPage d x)
    (mapped : ∀ lsa, t.logicalSlice lsa ≠ vsaNone → t.logicalSlice lsa = s.logicalSlice lsa) : TurnsOk g t reqs where
  pages d die x := (ok.pages d die x).trans (pages d x).symm
  written lsa real := by
    have same := mapped lsa real
    rw [same] at real ⊢
    rw [pages]
    exact ok.written lsa real

/-- The page of a mapped slice may be read. -/
theorem readable (ok : TurnsOk g s reqs) (real : s.logicalSlice lsa ≠ vsaNone) :
    vsa2VpageTranslation g (s.logicalSlice lsa) <
      nextPage (reqs.map (blockReq g (blockAddr g (s.logicalSlice lsa)))) := by
  rw [blockAddr_eq, ok.pages _ vdie_lt]
  exact ok.written lsa real

/-- A request that changes no block. -/
theorem quiet (ok : TurnsOk g s reqs) (none : ∀ H b, nextPage (H ++ [blockReq g b req]) = nextPage H) :
    TurnsOk g s (reqs ++ [req]) where
  pages d die x := by
    rw [List.map_append, List.map_singleton, none]
    exact ok.pages d die x
  written := ok.written

theorem read (ok : TurnsOk g s reqs) (goes : ToPage req .read vsa) : TurnsOk g s (reqs ++ [req]) := by
  apply ok.quiet
  intro H b
  rw [goes.asks]
  split <;> simp [pageReq]

theorem dma (ok : TurnsOk g s reqs) (type : req.reqType ≠ .nand) : TurnsOk g s (reqs ++ [req]) := by
  apply ok.quiet
  intro H b
  simp [blockReq, type]

/-- The next page of a block is written and given to a slice. -/
theorem write (ok : TurnsOk g s reqs) (die : dieNo < g.userDies) (room : s.currentPage dieNo blockNo < g.slicesPerBlock)
    (goes : ToPage req .write (vorg2VsaTranslation g dieNo blockNo (s.currentPage dieNo blockNo)))
    (map : t.logicalSlice = Function.update s.logicalSlice lsa
      (vorg2VsaTranslation g dieNo blockNo (s.currentPage dieNo blockNo)))
    (pages : ∀ d x, t.currentPage d x = s.currentPage d x + if d = dieNo ∧ x = blockNo then 1 else 0) :
    (∀ b, InTurn g b reqs req) ∧ TurnsOk g t (reqs ++ [req]) := by
  have block : blockAddr g (vorg2VsaTranslation g dieNo blockNo (s.currentPage dieNo blockNo)) =
      dieBlock g dieNo blockNo := blockAddr_vorg die room
  constructor
  · apply goes.write
    rw [block, vpage_of_vorg die room, ok.pages dieNo die]
  constructor
  · intro d low x
    rw [List.map_append, List.map_singleton, goes.asks, block, vpage_of_vorg die room, pages]
    by_cases here : d = dieNo ∧ x = blockNo
    · rw [if_pos (dieBlock_inj.mpr ⟨here.1.symm, here.2.symm⟩), if_pos here]
      rw [pageReq, BlockReq.nextPage_write, ok.pages d low]
    · rw [if_neg fun same => here (by simpa [eq_comm] using dieBlock_inj.mp same), if_neg here]
      rw [BlockReq.nextPage_none, ok.pages d low, Nat.add_zero]
  · intro l real
    rw [map] at real ⊢
    rw [pages]
    by_cases own : l = lsa
    · rw [own, Function.update_self, vdie_of_vorg die, vblock_of_vorg die room, vpage_of_vorg die room]
      simp
    · rw [Function.update_of_ne own] at real ⊢
      have before := ok.written l real
      omega

/-- A full block without a mapped page is erased. -/
theorem erase (ok : TurnsOk g s reqs) (die : dieNo < g.userDies)
    (full : s.currentPage dieNo blockNo = g.slicesPerBlock)
    (goes : ToPage req .erase (vorg2VsaTranslation g dieNo blockNo 0))
    (count : req.programmedPageCnt = g.userPagesPerBlock) (entry : req.bufEntry = none)
    (empty : ∀ l p, p < g.slicesPerBlock → s.logicalSlice l ≠ vorg2VsaTranslation g dieNo blockNo p)
    (map : t.logicalSlice = s.logicalSlice)
    (pages : ∀ d x, t.currentPage d x = if d = dieNo ∧ x = blockNo then 0 else s.currentPage d x) :
    (∀ b, InTurn g b reqs req) ∧ TurnsOk g t (reqs ++ [req]) := by
  have block : blockAddr g (vorg2VsaTranslation g dieNo blockNo 0) = dieBlock g dieNo blockNo :=
    blockAddr_vorg die g.pages_pos
  constructor
  · apply goes.erase _ count entry
    rw [block, ok.pages dieNo die, full]
    rfl
  constructor
  · intro d low x
    rw [List.map_append, List.map_singleton, goes.asks, block, pages]
    by_cases here : d = dieNo ∧ x = blockNo
    · rw [if_pos (dieBlock_inj.mpr ⟨here.1.symm, here.2.symm⟩), if_pos here, pageReq, BlockReq.nextPage_erase]
    · rw [if_neg fun same => here (by simpa [eq_comm] using dieBlock_inj.mp same), if_neg here]
      rw [BlockReq.nextPage_none, ok.pages d low]
  · intro l real
    rw [map] at real ⊢
    have away : ¬ (vsa2VdieTranslation g (s.logicalSlice l) = dieNo ∧
        vsa2VblockTranslation g (s.logicalSlice l) = blockNo) := by
      rintro ⟨sameDie, sameBlock⟩
      apply empty l (vsa2VpageTranslation g (s.logicalSlice l)) vpage_lt
      rw [← sameDie, ← sameBlock, vorg_of_vsa]
    rw [pages, if_neg away]
    exact ok.written l real

end TurnsOk

/-! ### Copies and erases -/

/-- The ERASEs among the requests are of full blocks. -/
def ErasesFull (g : Geometry) (requests : List FlashReq) : Prop :=
  ∀ vsa programmedPageCnt, .erase vsa programmedPageCnt ∈ requests → programmedPageCnt = g.slicesPerBlock

/-- A step of the mapping layer submits in turn. -/
theorem TurnsOk.step {new : List FlashReq} (ok : TurnsOk g s reqs) (step : MapStep g s t)
    (requests : t.requests = s.requests ++ new) (full : ErasesFull g new) :
    AllInTurn g reqs (new.map fun r => r.flashRequest.req) ∧
      TurnsOk g t (reqs ++ new.map fun r => r.flashRequest.req) := by
  cases step with
  | rearrange same =>
    obtain rfl : new = [] := by simpa [same.requests] using requests
    refine ⟨.nil, ?_⟩
    rw [List.map_nil, List.append_nil]
    exact ok.frame same.currentPage fun lsa _ => congrFun same.logicalSlice lsa
  | copy dieNo b v p lsa die usable room source real map pages bad issued =>
    obtain rfl := List.append_cancel_left (requests.symm.trans issued)
    have goes := FlashReq.toPage (.read (vorg2VsaTranslation g dieNo v p) dieNo)
    have mapped : s.logicalSlice lsa ≠ vsaNone := source ▸ real
    have readable := ok.readable mapped
    rw [source] at readable
    have first := ToPage.read goes readable
    obtain ⟨second, after⟩ := (ok.read goes).write die room (FlashReq.toPage (.write _ dieNo)) map pages
    refine ⟨.cons first (.single second), ?_⟩
    simpa using after
  | erase dieNo b die empty map pages bad issued =>
    obtain rfl := List.append_cancel_left (requests.symm.trans issued)
    have filled := full _ _ (List.mem_singleton.mpr rfl)
    obtain ⟨turn, after⟩ := ok.erase die filled (FlashReq.toPage (.erase _ _)) filled rfl empty map pages
    exact ⟨.single turn, after⟩

/-- Requests are only appended. -/
theorem MapStep.requests_grow (step : MapStep g s t) : ∃ more, t.requests = s.requests ++ more := by
  cases step with
  | rearrange same => exact ⟨[], by simp [same.requests]⟩
  | copy dieNo b v p lsa die usable room source real map pages bad issued => exact ⟨_, issued⟩
  | erase dieNo b die empty map pages bad issued => exact ⟨_, issued⟩

theorem mapSteps_requests_grow (steps : ReflTransGen (MapStep g) s t) : ∃ more, t.requests = s.requests ++ more := by
  induction steps with
  | refl => exact ⟨[], by simp⟩
  | tail _ step ih =>
    obtain ⟨more, before⟩ := ih
    obtain ⟨more', after⟩ := step.requests_grow
    exact ⟨more ++ more', by rw [after, before, List.append_assoc]⟩

theorem TurnsOk.steps {new : List FlashReq} (ok : TurnsOk g s reqs) (steps : ReflTransGen (MapStep g) s t)
    (requests : t.requests = s.requests ++ new) (full : ErasesFull g new) :
    AllInTurn g reqs (new.map fun r => r.flashRequest.req) ∧
      TurnsOk g t (reqs ++ new.map fun r => r.flashRequest.req) := by
  induction steps generalizing new with
  | refl =>
    obtain rfl : new = [] := by simpa using requests
    simpa using ⟨AllInTurn.nil, ok⟩
  | tail earlier last ih =>
    obtain ⟨first, middle⟩ := mapSteps_requests_grow earlier
    obtain ⟨second, after⟩ := last.requests_grow
    obtain rfl : new = first ++ second := by
      rw [after, middle, List.append_assoc] at requests
      exact (List.append_cancel_left requests).symm
    obtain ⟨turns, ok'⟩ := ih middle fun vsa n member => full vsa n (List.mem_append_left _ member)
    obtain ⟨turns', ok''⟩ := ok'.step last after fun vsa n member => full vsa n (List.mem_append_right _ member)
    rw [List.map_append, ← List.append_assoc]
    exact ⟨turns.append turns', ok''⟩

namespace MappingOk
variable {lists : Nat → BlockList → List Nat}

/-- What the collector erases is full. -/
theorem garbageCollection_erasesFull (ok : MappingOk g s lists noneOut) (die : dieNo < g.userDies)
    (full : s.currentPage dieNo (s.die dieNo).currentBlock = g.slicesPerBlock)
    (done : OcpFw.garbageCollection g s dieNo = some t) :
    ∃ new, t.requests = s.requests ++ new ∧ ErasesFull g new := by
  obtain ⟨v, d, taken⟩ : ∃ v d, (s.die dieNo).getFromGcVictimList g = some (v, d) := by
    simp only [OcpFw.garbageCollection, Option.bind_eq_bind, Option.bind_eq_some_iff, Prod.exists] at done
    obtain ⟨v, d, taken, -⟩ := done
    exact ⟨v, d, taken⟩
  obtain ⟨u, ran, copied, lists', ok'⟩ := garbageCollection_copies ok die full taken
  cases done.symm.trans ran
  have requests : (eraseBlock g u dieNo v).requests =
      u.requests ++ [.erase (vorg2VsaTranslation g dieNo v 0) (u.currentPage dieNo v)] := rfl
  refine ⟨_, by rw [requests, copied.requests, List.append_assoc]; rfl, fun vsa n member => ?_⟩
  rcases List.mem_append.mp member with copies | erase
  · simp [copyRequests] at copies
  · cases List.mem_singleton.mp erase
    exact (ok'.die dieNo die).poppedFull v (Function.update_self ..)

theorem allocationBlock_erasesFull (ok : MappingOk g s lists noneOut) (die : dieNo < g.userDies)
    (done : OcpFw.allocationBlock g s dieNo = some (blockNo, t)) :
    ∃ new, t.requests = s.requests ++ new ∧ ErasesFull g new := by
  have nothing : ∀ {u : Ftl}, u.requests = s.requests → ∃ new, u.requests = s.requests ++ new ∧ ErasesFull g new :=
    fun same => ⟨[], by rw [same, List.append_nil], fun _ _ member => by simp at member⟩
  by_cases full : s.currentPage dieNo (s.die dieNo).currentBlock = g.userPagesPerBlock
  · simp only [OcpFw.allocationBlock, full, ↓reduceIte] at done
    split at done
    · cases done
      exact nothing rfl
    · rename_i refused
      have same : s.getFromFbList dieNo .normal = (blockFail, s) := by
        have none : (s.die dieNo).NoFreeBlock .normal := by
          by_contra available
          obtain ⟨b, rest, listed⟩ := List.exists_cons_of_ne_nil ((ok.die dieNo die).reserve rfl)
          obtain ⟨b', -, -, taken, real, -⟩ := ok.switchBlock die available (.inl full) fun _ => by
            rw [(ok.die dieNo die).blockLists.noFreeBlock_normal] at available
            exact Nat.lt_of_not_le available
          exact refused (taken ▸ real)
        simp only [Ftl.getFromFbList, VirtualDie.getFromFbList_none none]
        rw [Ftl.setDie, Function.update_eq_self]
      rw [same] at done
      simp only [Option.bind_eq_bind, Option.bind_eq_some_iff] at done
      obtain ⟨u, collected, done⟩ := done
      obtain ⟨new, requests, erases⟩ := ok.garbageCollection_erasesFull die full collected
      refine ⟨new, ?_, erases⟩
      rw [← requests]
      split at done
      · split at done
        · cases done
          rfl
        · cases done
      · split at done
        · cases done
        · cases done
          rfl
  · simp only [OcpFw.allocationBlock, full, ↓reduceIte] at done
    split at done
    · cases done
    · cases done
      exact nothing rfl

/-- The requests of a write are in turn; it hands out the next page of a block. -/
theorem addrTransWrite_turns (ok : MappingOk g s lists noneOut) (safe : ¬ CurrentBlockIsVictim g s lsa)
    (turns : TurnsOk g s reqs) (wrote : OcpFw.addrTransWrite g s lsa = some (vsa, t)) :
    ∃ new, t.requests = s.requests ++ new ∧ AllInTurn g reqs (new.map fun r => r.flashRequest.req) ∧
      ∀ req, ToPage req .write vsa → (∀ b, InTurn g b (reqs ++ new.map fun r => r.flashRequest.req) req) ∧
        TurnsOk g t ((reqs ++ new.map fun r => r.flashRequest.req) ++ [req]) := by
  have low : lsa < g.slicesPerSsd := by
    by_contra high
    simp [OcpFw.addrTransWrite, high] at wrote
  obtain ⟨lists₀, same, dropped, map, -⟩ := ok.invalidateOldVsa lsa
  set u := OcpFw.invalidateOldVsa g s lsa with hu
  have turns' : TurnsOk g u reqs := by
    apply turns.frame same.currentPage
    intro l real
    rw [map] at real ⊢
    by_cases own : l = lsa
    · rw [own, Function.update_self] at real
      exact absurd rfl real
    · rw [Function.update_of_ne own]
  obtain ⟨b, v, lists₁, t', lists', steps, -, -, -, room, result, dies, mapped, requests, -⟩ | ⟨failed, -⟩ :=
    ok.addrTransWrite low safe
  swap
  · cases failed.symm.trans wrote
  obtain ⟨new, issued, erases⟩ : ∃ new, t.requests = u.requests ++ new ∧ ErasesFull g new := by
    simp only [OcpFw.addrTransWrite, low, ↓reduceIte, ← hu, findFreeVirtualSlice, Option.bind_eq_bind,
      Option.bind_eq_some_iff, Prod.exists, Option.some.injEq, Prod.mk.injEq] at wrote
    obtain ⟨vsa', x, ⟨b', y, allocated, rfl, rfl⟩, -, rfl⟩ := wrote
    obtain ⟨new, issued, erases⟩ := dropped.allocationBlock_erasesFull (dropped.targetDie) allocated
    refine ⟨new, ?_, erases⟩
    rw [← issued]
    unfold findDieForFreeSliceAllocation
    split <;> rfl
  cases result.symm.trans wrote
  have die : s.sliceAllocationTargetDie < g.userDies := ok.targetDie
  obtain ⟨inTurn, after⟩ := turns'.steps steps (requests ▸ issued) erases
  refine ⟨new, by rw [issued, same.requests], inTurn, fun req goes => ?_⟩
  refine after.write die room goes mapped fun d x => ?_
  rw [Ftl.currentPage, dies]
  exact assignPage_currentPage room lsa d x

end MappingOk

end OcpFw
