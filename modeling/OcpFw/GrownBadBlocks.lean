import OcpFw.EraseRequests
import OcpFw.FlashFailures
import OcpFw.RequestRouting
import OcpFw.ReservedBlocks

/-! Grown bad blocks. The row of a request is decoded to the physical block it was made of,
for every address and every remapping, so that a failure marks the block it happened in; and
an ERASE has a row at the start of its block. -/
namespace OcpFw
open RequestLayer
open Runs (Run exec run_of_exec_any foldlM_range)

variable {F : Type} {c : FlashConfig} {phy phy' : PhyBlockMap} {dieNo blockNo base chNo wayNo : Nat}

/-! ### Remapping keeps to the LUN -/

/-- All entries of the map, with the bounds of the reserved blocks. -/
structure LunsKept (c : FlashConfig) (s : RemapState) : Prop where
  lun0 : ∀ dieNo, s.reservedBlockOfLun0 dieNo ≤ totalBlocksPerLun
  lun1 : ∀ dieNo, totalBlocksPerLun ≤ s.reservedBlockOfLun1 dieNo ∧
    s.reservedBlockOfLun1 dieNo ≤ totalBlocksPerLun + totalBlocksPerLun
  entries : ∀ dieNo, ∀ blockNo < c.totalBlocksPerDie,
    (s.phyBlock dieNo blockNo).remappedPhyBlock / totalBlocksPerLun = blockNo / totalBlocksPerLun

/-- A block is remapped to one between the reserved blocks and their end, or not at all. -/
theorem remapUserBlock_between {limit reservedBlock reservedBlock' badBlockCount badBlockCount' : Nat}
    (inside : reservedBlock ≤ limit) (small : limit ≤ 65536)
    (turn : remapUserBlock c phy dieNo blockNo limit reservedBlock badBlockCount =
      some (phy', reservedBlock', badBlockCount')) :
    reservedBlock ≤ reservedBlock' ∧ reservedBlock' ≤ limit ∧ ∀ d b, phy' d b = phy d b ∨
      b = blockNo ∧ reservedBlock ≤ (phy' d b).remappedPhyBlock ∧ (phy' d b).remappedPhyBlock < limit := by
  obtain ⟨-, others⟩ := remapUserBlock_frame inside turn
  rcases remapUserBlock_cases inside turn with
    ⟨-, rfl, rfl, -⟩ | ⟨-, found, low, high, -, -, stored, rfl, -⟩ | ⟨-, -, rfl, rfl, -⟩
  · exact ⟨le_rfl, inside, fun _ _ => .inl rfl⟩
  · refine ⟨by omega, by omega, fun d b => ?_⟩
    by_cases here : d = dieNo ∧ b = blockNo
    · obtain ⟨rfl, rfl⟩ := here
      have fits : found % 65536 = found := Nat.mod_eq_of_lt (by omega)
      refine .inr ⟨rfl, ?_⟩
      simp only [stored, Function.update_self, fits]
      exact ⟨low, high⟩
    · exact .inl (others d b here)
  · exact ⟨inside, le_rfl, fun _ _ => .inl rfl⟩

namespace LunsKept

variable {s s' : RemapState}

theorem init (same : ∀ dieNo, ∀ blockNo < c.totalBlocksPerDie, (phy dieNo blockNo).remappedPhyBlock = blockNo) :
    LunsKept c (initRemapState c phy) where
  lun0 _ := c.blocks_lt.le
  lun1 _ := ⟨Nat.le_add_right .., Nat.add_le_add_left c.blocks_lt.le _⟩
  entries dieNo blockNo inside := by rw [initRemapState, same dieNo blockNo inside]

/-- The loop body. -/
theorem turn (ok : LunsKept c s) (block : blockNo < c.userBlocksPerLun)
    (done : remapBlockOfDie c s blockNo dieNo = some s') : LunsKept c s' := by
  obtain ⟨lun0, lun1, entries⟩ := ok
  have few := c.blocks_lt
  have size : totalBlocksPerLun = 2956 := by decide
  simp only [remapBlockOfDie, Option.bind_eq_bind, Option.bind_eq_some_iff] at done
  obtain ⟨⟨phy, reserved, count⟩, first, done⟩ := done
  obtain ⟨-, inside, between⟩ := remapUserBlock_between (lun0 dieNo) (by omega) first
  have lun0' : ∀ d, Function.update s.reservedBlockOfLun0 dieNo reserved d ≤ totalBlocksPerLun := by
    intro d
    by_cases here : d = dieNo
    · rwa [here, Function.update_self]
    · rw [Function.update_of_ne here]
      exact lun0 d
  have entries' : ∀ d, ∀ b < c.totalBlocksPerDie,
      (phy d b).remappedPhyBlock / totalBlocksPerLun = b / totalBlocksPerLun := by
    intro d b exist
    rcases between d b with same | ⟨rfl, -, below⟩
    · rw [same]
      exact entries d b exist
    · rw [Nat.div_eq_of_lt below, Nat.div_eq_of_lt (by omega)]
  split at done
  · rename_i luns
    simp only [Option.bind_eq_some_iff] at done
    obtain ⟨⟨phy₁, reserved₁, count₁⟩, second, done⟩ := done
    cases done
    rw [FlashConfig.lun1_eq luns] at second
    obtain ⟨above, inside', between'⟩ := remapUserBlock_between (lun1 dieNo).2 (by omega) second
    have low := (lun1 dieNo).1
    refine ⟨lun0', fun d => ?_, fun d b exist => ?_⟩
    · by_cases here : d = dieNo
      · simp only [here, Function.update_self]
        omega
      · simp only [Function.update_of_ne here]
        exact lun1 d
    · change (phy₁ d b).remappedPhyBlock / totalBlocksPerLun = _
      rcases between' d b with same | ⟨rfl, least, below⟩
      · rw [same]
        exact entries' d b exist
      · have left : (phy₁ d (blockNo + totalBlocksPerLun)).remappedPhyBlock / totalBlocksPerLun = 1 :=
          Nat.div_eq_of_lt_le (by omega) (by omega)
        have right : (blockNo + totalBlocksPerLun) / totalBlocksPerLun = 1 :=
          Nat.div_eq_of_lt_le (by omega) (by omega)
        rw [left, right]
  · cases done
    exact ⟨lun0', lun1, entries'⟩

end LunsKept

/-- Every entry `RemapBadBlock` leaves stays in its LUN. -/
theorem remapBlocks_kept {s : RemapState}
    (same : ∀ dieNo, ∀ blockNo < c.totalBlocksPerDie, (phy dieNo blockNo).remappedPhyBlock = blockNo)
    (done : remapBlocks c phy = some s) : LunsKept c s := by
  refine foldlM_range (fun _ s => LunsKept c s) (.init same) (fun blockNo block s s' turns ok => ?_) done
  refine foldlM_range (fun _ s => LunsKept c s) ok (fun dieNo _ s s' turn ok => ?_) turns
  exact ok.turn block turn

/-! ### Rows -/

/-- The address of a request exists: a slice of the drive, or a page of a physical block in
one of the two block spaces. -/
def FlashRequest.InFlash (c : FlashConfig) (r : FlashRequest) : Prop :=
  match r.req.nandAddr with
  | .vsa => r.req.virtualSliceAddr < c.geometry.slicesPerSsd
  | .phyOrg => r.row.physicalPage < pagesPerMlcBlock ∧
    match r.row.blockSpace with
    | .total => r.row.physicalBlock < c.totalBlocksPerDie
    | .main => r.row.physicalBlock < mainBlocksPerLun * c.lunsPerDie

/-- The physical block it is sent to: main blocks are remapped, those of the total space are not. -/
def FlashRequest.sentTo (c : FlashConfig) (phy : PhyBlockMap) (dieNo : Nat) (r : FlashRequest) : Nat :=
  match r.req.nandAddr with
  | .vsa => physicalBlock c phy dieNo (vsa2VblockTranslation c.geometry r.req.virtualSliceAddr)
  | .phyOrg =>
    match r.row.blockSpace with
    | .total => r.row.physicalBlock
    | .main => (phy dieNo (r.row.physicalBlock % mainBlocksPerLun +
        r.row.physicalBlock / mainBlocksPerLun * totalBlocksPerLun)).remappedPhyBlock

/-- A row of the block, decoded in the two ways. -/
structure RowOf (c : FlashConfig) (blockNo pageNo rowAddr : Nat) : Prop where
  inside : blockNo < c.totalBlocksPerDie
  block : rowBlock rowAddr = blockNo
  page : rowAddr % pagesPerMlcBlock = pageNo
  phyBlockNo : FailureMarks.phyBlockNoOfRow rowAddr = blockNo

theorem FlashConfig.lun_lt (c : FlashConfig) : blockNo / totalBlocksPerLun < c.lunsPerDie ↔
    blockNo < c.totalBlocksPerDie := by
  rw [totalBlocksPerDie, Nat.div_lt_iff_lt_mul (by decide), Nat.mul_comm]

/-- The row made of a page of a block. -/
theorem rowOf_row {pageNo : Nat} (inside : blockNo < c.totalBlocksPerDie) (page : pageNo < pagesPerMlcBlock) :
    RowOf c blockNo pageNo
      (lunBaseAddr (blockNo / totalBlocksPerLun) + blockNo % totalBlocksPerLun * pagesPerMlcBlock + pageNo) := by
  have lun := c.lun_lt.mpr inside
  have two : blockNo / totalBlocksPerLun < 2 := by
    rcases c.luns with luns | luns <;> omega
  have low : blockNo % totalBlocksPerLun < totalBlocksPerLun := Nat.mod_lt _ (by decide)
  have small : blockNo % totalBlocksPerLun < 4096 := lt_trans low (by decide)
  obtain ⟨block, sector⟩ := rowBlock_row two low page
  obtain ⟨offset, first⟩ := row_parts two small page
  refine ⟨inside, ?_, sector, ?_⟩
  · rw [block, Nat.div_add_mod']
  · rw [FailureMarks.phyBlockNoOfRow, offset, first, Nat.mod_add_div']

/-- The row of a request is one of the block it is sent to, whatever its address. -/
theorem generateNandRowAddr_rowOf {r : FlashRequest}
    (kept : ∀ dieNo, ∀ blockNo < c.totalBlocksPerDie,
      (phy dieNo blockNo).remappedPhyBlock / totalBlocksPerLun = blockNo / totalBlocksPerLun)
    (exist : chNo < c.geometry.userChannels ∧ wayNo < c.geometry.userWays)
    (die : nandDie c.geometry r.req = (chNo, wayNo)) (address : r.InFlash c) :
    ∃ rowAddr, generateNandRowAddr c phy (r.req.nandRowInfo r.row) = some rowAddr ∧
      RowOf c (r.sentTo c phy (pcw2VdieTranslation c.geometry chNo wayNo)) (r.pageNo c.geometry) rowAddr := by
  have dieNo_lt : pcw2VdieTranslation c.geometry chNo wayNo < c.geometry.userDies := pcw2Vdie_lt exist
  have remapped : ∀ {d b}, d < c.geometry.userDies → b < c.totalBlocksPerDie →
      (phy d b).remappedPhyBlock < c.totalBlocksPerDie := by
    intro d b _ inside
    rw [← c.lun_lt, kept d b inside]
    exact c.lun_lt.mpr inside
  set dieNo := pcw2VdieTranslation c.geometry chNo wayNo
  cases addr : r.req.nandAddr with
  | vsa =>
    simp only [FlashRequest.InFlash, addr] at address
    have inside := vblock2Pblock_lt c (vblock_lt_iff.mpr address)
    have same : vsa2VdieTranslation c.geometry r.req.virtualSliceAddr = dieNo := by
      simp only [nandDie, addr, blockAddr, Prod.mk.injEq] at die
      rw [← pcw2Vdie_vdie c.geometry (vsa2VdieTranslation ..), die.1, die.2]
    have row := rowOf_row (remapped dieNo_lt inside) (@vpage_lt c.geometry r.req.virtualSliceAddr)
    rw [kept dieNo _ inside] at row
    refine ⟨_, ?_, by simpa only [FlashRequest.sentTo, FlashRequest.pageNo, addr, physicalBlock] using row⟩
    simp only [generateNandRowAddr, SsdReq.nandRowInfo, addr, same, PhyBlockMap.entry_eq dieNo_lt inside,
      Option.bind_eq_bind, Option.bind_some]
  | phyOrg =>
    have same : pcw2VdieTranslation c.geometry r.req.physicalCh r.req.physicalWay = dieNo := by
      simp only [nandDie, addr, Prod.mk.injEq] at die
      rw [die.1, die.2]
    cases space : r.row.blockSpace with
    | total =>
      simp only [FlashRequest.InFlash, addr, space] at address
      have row := rowOf_row address.2 address.1
      refine ⟨_, ?_, by simpa only [FlashRequest.sentTo, FlashRequest.pageNo, addr, space] using row⟩
      simp only [generateNandRowAddr, SsdReq.nandRowInfo, addr, space]
    | main =>
      simp only [FlashRequest.InFlash, addr, space] at address
      obtain ⟨page, main⟩ := address
      have offset : r.row.physicalBlock % mainBlocksPerLun < mainBlocksPerLun := Nat.mod_lt _ (by decide)
      have lun : r.row.physicalBlock / mainBlocksPerLun < c.lunsPerDie := Nat.div_lt_of_lt_mul main
      set blockNo := r.row.physicalBlock % mainBlocksPerLun +
        r.row.physicalBlock / mainBlocksPerLun * totalBlocksPerLun with block
      have quotient : blockNo / totalBlocksPerLun = r.row.physicalBlock / mainBlocksPerLun := by
        have below : mainBlocksPerLun < totalBlocksPerLun := by decide
        rw [block, Nat.add_mul_div_right _ _ (by decide), Nat.div_eq_of_lt (offset.trans below), Nat.zero_add]
      have inside : blockNo < c.totalBlocksPerDie := c.lun_lt.mp (quotient ▸ lun)
      have row := rowOf_row (remapped dieNo_lt inside) page
      rw [kept dieNo _ inside, quotient] at row
      refine ⟨_, ?_, by simpa only [FlashRequest.sentTo, FlashRequest.pageNo, addr, space] using row⟩
      simp only [generateNandRowAddr, SsdReq.nandRowInfo, addr, space, same, ← block,
        PhyBlockMap.entry_eq dieNo_lt inside, Option.bind_eq_bind, Option.bind_some]

/-- The lower bits of a row are those of the page, whatever the map holds. -/
theorem generateNandRowAddr_page {r : FlashRequest} {rowAddr : Nat}
    (done : generateNandRowAddr c phy (r.req.nandRowInfo r.row) = some rowAddr) :
    rowAddr % pagesPerMlcBlock = r.pageNo c.geometry % pagesPerMlcBlock := by
  have row : ∀ lun tempBlockNo tempPageNo : Nat,
      (lunBaseAddr lun + tempBlockNo * pagesPerMlcBlock + tempPageNo) % pagesPerMlcBlock =
        tempPageNo % pagesPerMlcBlock := by
    intro lun tempBlockNo tempPageNo
    unfold lunBaseAddr
    split <;> simp only [lun0BaseAddr, lun1BaseAddr, pagesPerMlcBlock] <;> omega
  unfold generateNandRowAddr at done
  cases addr : r.req.nandAddr with
  | vsa =>
    simp only [SsdReq.nandRowInfo, addr, Option.bind_eq_bind, Option.bind_eq_some_iff, Option.some.injEq] at done
    obtain ⟨entry, -, rfl⟩ := done
    simp only [FlashRequest.pageNo, addr, row]
  | phyOrg =>
    cases space : r.row.blockSpace with
    | total =>
      simp only [SsdReq.nandRowInfo, addr, space, Option.some.injEq] at done
      simp only [FlashRequest.pageNo, addr, ← done, row]
    | main =>
      simp only [SsdReq.nandRowInfo, addr, space, Option.bind_eq_bind, Option.bind_eq_some_iff,
        Option.some.injEq] at done
      obtain ⟨entry, -, rfl⟩ := done
      simp only [FlashRequest.pageNo, addr, row]

/-! ### Runs -/

/-- What is promised of all requests the firmware submits holds where they are queued. -/
structure FlashRouted (c : FlashConfig) (P : FlashRequest → Prop) (s : FlashFirmware F) : Prop where
  flash : FlashOk c s
  routed : RoutedOk c.geometry (fun x req => P ⟨req, s.row x⟩) s.layer s.held s.flight
  pending : ∀ r ∈ s.pending, P r

variable {s t : FlashFirmware F} {translate : BufferManager F → SliceReq → Option (BufferManager F × List FlashRequest)}
  {P : FlashRequest → Prop} {input : FlashInput}

/-- The requests of a slice that is consumed keep the promise. -/
def FlashInput.Promises (translate : BufferManager F → SliceReq → Option (BufferManager F × List FlashRequest))
    (P : FlashRequest → Prop) (s : FlashFirmware F) (input : FlashInput) : Prop :=
  ∀ slice manager requests, input = .consume slice → translate s.manager slice = some (manager, requests) →
    ∀ r ∈ requests, P r

namespace FlashRouted

theorem init (manager : BufferManager F) (phyBlock : PhyBlockMap) :
    FlashRouted c P (initFlashFirmware c manager phyBlock) where
  flash := .init manager phyBlock
  routed := ⟨SlotsOk.init, .init, fun x member => by simp [initFlashFirmware] at member⟩
  pending r member := by simp [initFlashFirmware] at member

/-- The first request of a die is one for this die. -/
theorem head (ok : FlashRouted c P s) (real : s.scheduler.headReq chNo wayNo ≠ reqSlotTagNone) :
    (chNo < c.geometry.userChannels ∧ wayNo < c.geometry.userWays) ∧ P (s.headRequest chNo wayNo) ∧
      nandDie c.geometry (s.headRequest chNo wayNo).req = (chNo, wayNo) := by
  obtain ⟨exist, promised, -, die⟩ := ok.routed.head real
  exact ⟨exist, promised, die⟩

theorem step (phases : ∀ r code, P r → code = .read ∨ code = .readTransfer → P { r with req.reqCode := code })
    (ok : FlashRouted c P s) (allowed : input.Allowed s) (promises : input.Promises translate P s)
    (done : flashStep c translate s input = some t) : FlashRouted c P t := by
  have phaseFree : PhaseFree fun x req => P ⟨req, s.row x⟩ := fun x req code promised phase =>
    phases ⟨req, s.row x⟩ code promised phase
  refine ⟨ok.flash.step allowed done, ?_, ?_⟩
  · have events : ∀ {layer : RequestLayer}, Acts c.geometry s.layer layer →
        RoutedOk c.geometry (fun x req => P ⟨req, s.row x⟩) layer s.held s.flight := by
      rintro layer ⟨es, ran⟩
      exact events_closed (routedOk_events phaseFree) ok.routed (fun _ _ => trivial) ran
    cases input with
    | consume slice =>
      simp only [flashStep, Option.bind_eq_bind, Option.bind_eq_some_iff, Option.some.injEq, Prod.exists] at done
      obtain ⟨manager, requests, -, rfl⟩ := done
      exact ok.routed
    | request op =>
      simp only [flashStep, Option.bind_eq_bind, Option.bind_eq_some_iff, Option.some.injEq] at done
      obtain ⟨fw, ran, rfl⟩ := done
      have quiet : s.flight = ∅ → (∀ x req es, op ≠ .submit x req es) →
          RoutedOk c.geometry (fun x req => P ⟨req, s.row x⟩) fw.layer fw.held s.flight := by
        intro idle other
        have before := ok.routed
        rw [idle] at before ⊢
        exact requestStep_closed (routedOk_ops phaseFree) before (fun x req es same => absurd same (other x req es))
          (fun _ _ => trivial) ran
      cases op with
      | alloc es => exact quiet allowed.2 fun _ _ _ => RequestOp.noConfusion
      | putSlice => exact quiet allowed fun _ _ _ => RequestOp.noConfusion
      | getSlice => exact quiet allowed fun _ _ _ => RequestOp.noConfusion
      | event e =>
        simp only [requestStep, Option.bind_eq_bind, Option.bind_eq_some_iff, Option.some.injEq] at ran
        obtain ⟨layer, ran, rfl⟩ := ran
        have one : s.layer.events c.geometry [e] = some layer := by simp [RequestLayer.events, ran]
        exact events ⟨[e], one⟩
      | submit => cases allowed
      | syncAll => cases allowed
    | prepare x =>
      simp only [flashStep] at done
      split at done
      · rename_i r rest pending
        split at done
        · rename_i ready
          cases done
          obtain ⟨member, -, idle⟩ := ready
          have before := ok.routed
          rw [idle] at before
          refine before.prepare member ?_ fun y req diff promised => ?_
          · simpa using ok.pending r (by simp [pending])
          · simpa [Function.update_of_ne diff] using promised
        · cases done
      · cases done
    | select x =>
      simp only [flashStep] at done
      split at done
      · rename_i member
        simp only [Option.bind_eq_bind, Option.bind_eq_some_iff, Option.some.injEq] at done
        obtain ⟨layer, ran, rfl⟩ := done
        exact select_closed (routedOk_ops phaseFree) ok.routed member
          (ok.flash.submission.submittable x member) (fun _ _ => trivial) ran
      · cases done
    | execute chNo wayNo reqStatus =>
      obtain ⟨-, -, executed, shape⟩ := FlashFirmware.executeNandReq_cases done
      rw [shape]
      exact events (executeNandReq_acts ok.flash allowed executed)
  · by_cases consumes : ∃ slice, input = .consume slice
    · obtain ⟨slice, rfl⟩ := consumes
      simp only [flashStep, Option.bind_eq_bind, Option.bind_eq_some_iff, Option.some.injEq, Prod.exists] at done
      obtain ⟨manager, requests, ran, rfl⟩ := done
      exact promises slice manager requests rfl ran
    · have kept := ((flashStep_keeps done).1 fun slice same => consumes ⟨slice, same⟩).2
      exact fun r member => ok.pending r (kept r member)

theorem of_run (phases : ∀ r code, P r → code = .read ∨ code = .readTransfer → P { r with req.reqCode := code })
    {manager : BufferManager F} {phyBlock : PhyBlockMap} {inputs : List FlashInput}
    (run : Run (flashStep c translate) (fun s input => input.Allowed s ∧ input.Promises translate P s)
      (initFlashFirmware c manager phyBlock) inputs s) : FlashRouted c P s := by
  apply run.invariant (FlashRouted c P) (.init manager phyBlock)
  rintro s input t ok ⟨allowed, promises⟩ done
  exact ok.step phases allowed promises done

end FlashRouted

/-- The map that was made at the start stays but for the flags. -/
theorem sameRemap_of_run {manager : BufferManager F} {phyBlock : PhyBlockMap} {inputs : List FlashInput}
    {allow : FlashFirmware F → FlashInput → Prop}
    (run : Run (flashStep c translate) allow (initFlashFirmware c manager phyBlock) inputs s) :
    FailureMarks.SameRemap { phyBlock } s.marks := by
  apply run.invariant (fun s => FailureMarks.SameRemap { phyBlock } s.marks) fun _ _ => rfl
  intro s input t same _ done
  have kept : t.marks = s.marks → FailureMarks.SameRemap { phyBlock } t.marks := fun marks => marks ▸ same
  cases input with
  | execute chNo wayNo reqStatus =>
    obtain ⟨marked, unmarked, -⟩ := FlashFirmware.executeNandReq_cases done
    by_cases marking : s.scheduler.Marks chNo wayNo reqStatus
    · obtain ⟨rowAddr, -, after⟩ := markRequest_marked (marked marking)
      intro d b
      rw [after.remapped]
      exact same d b
    · exact kept (unmarked marking)
  | _ => exact kept ((flashStep_keeps done).2 fun _ _ _ => FlashInput.noConfusion)

/-- Slices that go through the mapping layer of the firmware submit its ERASEs. -/
theorem promises_of_run {bad : Nat → Nat → Bool} {phyBlock : PhyBlockMap} {inputs : List FlashInput}
    {s : FlashFirmware Ftl}
    (run : Run (flashStep c (translateSlice c.geometry)) (fun s input => input.Allowed s)
      (initFlashFirmware c (initBufferManager c.geometry (initFtl c.geometry bad)) phyBlock) inputs s) :
    WrittenMaps c.geometry bad s.manager ∧
      Run (flashStep c (translateSlice c.geometry))
        (fun s input => input.Allowed s ∧
          input.Promises (translateSlice c.geometry) (fun r => r.req.reqCode = .erase → FirmwareErase c r) s)
        (initFlashFirmware c (initBufferManager c.geometry (initFtl c.geometry bad)) phyBlock)
        inputs s := by
  induction run with
  | nil => exact ⟨⟨[], .nil⟩, .nil⟩
  | @snoc before s input t _ allowed done ih =>
    obtain ⟨written, run⟩ := ih
    have promises : input.Promises (translateSlice c.geometry)
        (fun r => r.req.reqCode = .erase → FirmwareErase c r) s :=
      fun slice manager requests _ ran => (written.translateSlice ran).2
    refine ⟨?_, run.snoc ⟨allowed, promises⟩ done⟩
    by_cases consumes : ∃ slice, input = .consume slice
    · obtain ⟨slice, rfl⟩ := consumes
      simp only [flashStep, Option.bind_eq_bind, Option.bind_eq_some_iff, Option.some.injEq, Prod.exists] at done
      obtain ⟨manager, requests, ran, rfl⟩ := done
      exact (written.translateSlice ran).1
    · rw [((flashStep_keeps done).1 fun slice same => consumes ⟨slice, same⟩).1]
      exact written

/-! ### Failures and erases -/

/-- What a failure or a warning marks. -/
structure BlamesItsBlock (c : FlashConfig) (phyBlock : PhyBlockMap) (s : FlashFirmware F) (chNo wayNo : Nat)
    (reqStatus : ReqStatus) : Prop where
  /-- The request is one for this die. -/
  die : nandDie c.geometry (s.headRequest chNo wayNo).req = (chNo, wayNo)
  /-- Its row is still that of its page of the block it was sent to. -/
  row : ∃ rowAddr,
    generateNandRowAddr c s.marks.phyBlock
      ((s.headRequest chNo wayNo).req.nandRowInfo (s.headRequest chNo wayNo).row) = some rowAddr ∧
    generateNandRowAddr c phyBlock
      ((s.headRequest chNo wayNo).req.nandRowInfo (s.headRequest chNo wayNo).row) = some rowAddr ∧
    RowOf c ((s.headRequest chNo wayNo).sentTo c phyBlock (pcw2VdieTranslation c.geometry chNo wayNo))
      ((s.headRequest chNo wayNo).pageNo c.geometry) rowAddr
  /-- This block gets the flag, and no other one. -/
  marked : ∃ marks, s.marks.markRequest c (s.headRequest chNo wayNo) chNo wayNo reqStatus = some marks ∧
    Marked c s.marks marks (pcw2VdieTranslation c.geometry chNo wayNo)
      ((s.headRequest chNo wayNo).sentTo c phyBlock (pcw2VdieTranslation c.geometry chNo wayNo))
  executed : ∀ t, s.executeNandReq c chNo wayNo reqStatus = some t → s.scheduler.Marks chNo wayNo reqStatus →
    Marked c s.marks t.marks (pcw2VdieTranslation c.geometry chNo wayNo)
      ((s.headRequest chNo wayNo).sentTo c phyBlock (pcw2VdieTranslation c.geometry chNo wayNo))

/-- The row recomputed for a failure is one of the block the request was sent to. -/
theorem blamesItsBlock {phyBlock : PhyBlockMap} {reqStatus : ReqStatus}
    (kept : ∀ dieNo, ∀ blockNo < c.totalBlocksPerDie,
      (phyBlock dieNo blockNo).remappedPhyBlock / totalBlocksPerLun = blockNo / totalBlocksPerLun)
    (same : FailureMarks.SameRemap { phyBlock } s.marks) (ok : FlashRouted c P s)
    (real : s.scheduler.headReq chNo wayNo ≠ reqSlotTagNone) (address : (s.headRequest chNo wayNo).InFlash c) :
    BlamesItsBlock c phyBlock s chNo wayNo reqStatus := by
  obtain ⟨exist, -, die⟩ := ok.head real
  obtain ⟨rowAddr, row, rowOf⟩ := generateNandRowAddr_rowOf kept exist die address
  have dieNo_lt : pcw2VdieTranslation c.geometry chNo wayNo < c.geometry.userDies := pcw2Vdie_lt exist
  have row' := (generateNandRowAddr_congr same
    ((s.headRequest chNo wayNo).req.nandRowInfo (s.headRequest chNo wayNo).row)).trans row
  have accepted : (s.marks.markRequest c (s.headRequest chNo wayNo) chNo wayNo reqStatus).isSome := by
    simp only [FailureMarks.markRequest, row', rowOf.phyBlockNo, Option.bind_eq_bind, Option.bind_some,
      FailureMarks.updatePhyBlockMapForGrownBadBlock, PhyBlockMap.entry_eq dieNo_lt rowOf.inside,
      PhyBlockMap.setEntry_eq dieNo_lt rowOf.inside, Option.isSome_some]
  have marked : ∀ marks, s.marks.markRequest c (s.headRequest chNo wayNo) chNo wayNo reqStatus = some marks →
      Marked c s.marks marks (pcw2VdieTranslation c.geometry chNo wayNo)
        ((s.headRequest chNo wayNo).sentTo c phyBlock (pcw2VdieTranslation c.geometry chNo wayNo)) := by
    intro marks done
    obtain ⟨rowAddr', again, marked⟩ := markRequest_marked done
    cases row'.symm.trans again
    rwa [rowOf.phyBlockNo] at marked
  obtain ⟨marks, done⟩ := Option.isSome_iff_exists.mp accepted
  exact ⟨die, ⟨rowAddr, row', row, rowOf⟩, ⟨marks, done, marked marks done⟩, fun t executed marking =>
    marked _ ((FlashFirmware.executeNandReq_cases executed).1 marking)⟩

/-- Whose ERASEs are the firmware's own issues none but at the start of a block. -/
theorem erase_row_of_run {manager : BufferManager F} {phyBlock : PhyBlockMap} {inputs : List FlashInput}
    (run : Run (flashStep c translate)
      (fun s input => input.Allowed s ∧
        input.Promises translate (fun r => r.req.reqCode = .erase → FirmwareErase c r) s)
      (initFlashFirmware c manager phyBlock) inputs s)
    (real : s.scheduler.headReq chNo wayNo ≠ reqSlotTagNone)
    (code : (s.headRequest chNo wayNo).req.reqCode = .erase) {rowAddr : Nat}
    (row : generateNandRowAddr c s.marks.phyBlock
      ((s.headRequest chNo wayNo).req.nandRowInfo (s.headRequest chNo wayNo).row) = some rowAddr) :
    rowAddr &&& 0xFF = 0 := by
  have ok : FlashRouted c (fun r => r.req.reqCode = .erase → r.pageNo c.geometry = 0) s := by
    refine .of_run (fun r code _ phase erase => ?_) (run.mono fun s input met => ⟨met.1, ?_⟩)
    · rcases phase with rfl | rfl <;> cases erase
    · exact fun slice manager requests same ran r member erase =>
        (met.2 slice manager requests same ran r member erase).firstPage
  have page := generateNandRowAddr_page row
  rw [(ok.head real).2.1 code] at page
  rwa [show (0xFF : Nat) = 2 ^ 8 - 1 from rfl, Nat.and_two_pow_sub_one_eq_mod]

/-- With every map `RemapBadBlock` makes and in every run of the firmware, a failure is put
down to the physical block the request was sent to. ERASEs have rows at the start of a block,
as `V2FEraseBlockAsync` asserts, when they come from the firmware's own functions; those of
slices do. -/
theorem grownBadBlocks_attributed (c : FlashConfig) (bad : Nat → Nat → Bool) :
    ∃ (phyBlock : PhyBlockMap) (mbPerbadBlockSpace : Nat),
      remapBadBlock c (initPhyBlockMap bad) = some (phyBlock, mbPerbadBlockSpace) ∧
      (∀ {F : Type} (translate : BufferManager F → SliceReq → Option (BufferManager F × List FlashRequest))
        (manager : BufferManager F) (inputs : List FlashInput) (s : FlashFirmware F) (chNo wayNo : Nat),
        s.scheduler.headReq chNo wayNo ≠ reqSlotTagNone →
        (Run (flashStep c translate) (fun s input => input.Allowed s) (initFlashFirmware c manager phyBlock) inputs s →
          (s.headRequest chNo wayNo).InFlash c → ∀ reqStatus, BlamesItsBlock c phyBlock s chNo wayNo reqStatus) ∧
        (Run (flashStep c translate)
            (fun s input => input.Allowed s ∧
              input.Promises translate (fun r => r.req.reqCode = .erase → FirmwareErase c r) s)
            (initFlashFirmware c manager phyBlock) inputs s →
          (s.headRequest chNo wayNo).req.reqCode = .erase → ∀ rowAddr,
            generateNandRowAddr c s.marks.phyBlock
              ((s.headRequest chNo wayNo).req.nandRowInfo (s.headRequest chNo wayNo).row) = some rowAddr →
            rowAddr &&& 0xFF = 0)) ∧
      ∀ (flags : Nat → Nat → Bool) (inputs : List FlashInput) (s : FlashFirmware Ftl) (chNo wayNo : Nat),
        Run (flashStep c (translateSlice c.geometry)) (fun s input => input.Allowed s)
          (initFlashFirmware c (initBufferManager c.geometry (initFtl c.geometry flags)) phyBlock)
          inputs s →
        s.scheduler.headReq chNo wayNo ≠ reqSlotTagNone → (s.headRequest chNo wayNo).req.reqCode = .erase →
        ∀ rowAddr, generateNandRowAddr c s.marks.phyBlock
          ((s.headRequest chNo wayNo).req.nandRowInfo (s.headRequest chNo wayNo).row) = some rowAddr →
          rowAddr &&& 0xFF = 0 := by
  have self : ∀ dieNo, ∀ blockNo < c.totalBlocksPerDie,
      (initPhyBlockMap bad dieNo blockNo).remappedPhyBlock = blockNo := fun _ _ inside => initPhyBlockMap_self bad inside
  obtain ⟨r, remapping, -⟩ := @remapBlocks_spec c (initPhyBlockMap bad) bad (fun _ _ => rfl) self
  refine ⟨r.phyBlock, _, remapBadBlock_eq remapping,
    fun translate manager inputs s chNo wayNo real => ⟨fun run address reqStatus => ?_, ?_⟩, ?_⟩
  · have ok : FlashRouted c (fun _ => True) s := .of_run (fun _ _ _ _ => trivial)
      (run.mono fun _ _ allowed => ⟨allowed, fun _ _ _ _ _ _ _ => trivial⟩)
    exact blamesItsBlock (remapBlocks_kept self remapping).entries (sameRemap_of_run run) ok real address
  · exact fun run code rowAddr row => erase_row_of_run run real code row
  · exact fun flags inputs s chNo wayNo run real code rowAddr row =>
      erase_row_of_run (promises_of_run run).2 real code row

/-- A table in which the first block and the first reserved one are bad. -/
def tinyBad : Nat → Nat → Bool := fun _ blockNo => blockNo == 0 || blockNo == 2

/-- The ERASE of the first virtual block goes to the second reserved block, which is marked
when it fails. -/
theorem grownBadBlocks_attributed_remapped :
    ∃ (phyBlock : PhyBlockMap) (mbPerbadBlockSpace : Nat) (s : FlashFirmware Unit),
      remapBadBlock tinyFlash (initPhyBlockMap tinyBad) = some (phyBlock, mbPerbadBlockSpace) ∧
      (s.headRequest 0 0).req.reqCode = .erase ∧ (s.headRequest 0 0).sentTo tinyFlash phyBlock 0 = 3 ∧
      BlamesItsBlock tinyFlash phyBlock s 0 0 .fail ∧
      ∃ rowAddr, generateNandRowAddr tinyFlash s.marks.phyBlock
        ((s.headRequest 0 0).req.nandRowInfo (s.headRequest 0 0).row) = some rowAddr ∧ rowAddr &&& 0xFF = 0 := by
  obtain ⟨phyBlock, mbPerbadBlockSpace, remapping, attributed, -⟩ := grownBadBlocks_attributed tinyFlash tinyBad
  have made : ((remapBadBlock tinyFlash (initPhyBlockMap tinyBad)).map Prod.fst).getD (initPhyBlockMap tinyBad) =
      phyBlock := by
    rw [remapping]
    rfl
  subst made
  set phyBlock := ((remapBadBlock tinyFlash (initPhyBlockMap tinyBad)).map Prod.fst).getD (initPhyBlockMap tinyBad)
  let translate : BufferManager Unit → SliceReq → Option (BufferManager Unit × List FlashRequest) :=
    fun manager _ => some (manager, eraseUserBlockSpace tinyFlash fun _ => {})
  have done : (exec (flashStep tinyFlash translate) (fun s input => input.Allowed s)
      (initFlashFirmware tinyFlash (initBufferManager tinyFlash.geometry ()) phyBlock)
      (.consume (sliceAt .read 0 0 4) :: submitIn 0)).any (fun s =>
        s.scheduler.headReq 0 0 ≠ reqSlotTagNone ∧ (s.headRequest 0 0).req.reqCode = .erase ∧
        (s.headRequest 0 0).req.nandAddr = .vsa ∧ (s.headRequest 0 0).req.virtualSliceAddr = 0 ∧
        (phyBlock 0 0).remappedPhyBlock = 3) = true := by
    decide +kernel
  obtain ⟨s, run, shown⟩ := run_of_exec_any done
  obtain ⟨real, code, addr, vsa, moved⟩ := of_decide_eq_true shown
  have address : (s.headRequest 0 0).InFlash tinyFlash := by
    simp only [FlashRequest.InFlash, addr, vsa]
    decide
  obtain ⟨blames, erases⟩ := attributed translate _ _ s 0 0 real
  have own := blames run address .fail
  obtain ⟨rowAddr, row, -, -⟩ := own.row
  refine ⟨phyBlock, mbPerbadBlockSpace, s, remapping, code, ?_, own, rowAddr, row, ?_⟩
  · simp only [FlashRequest.sentTo, addr, vsa]
    exact moved
  · refine erases (run.mono fun s input allowed => ⟨allowed, ?_⟩) code rowAddr row
    rintro slice manager requests - ran r member -
    cases ran
    exact .eraseUserBlockSpace member

end OcpFw
