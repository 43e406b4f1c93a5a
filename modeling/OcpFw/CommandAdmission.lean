import OcpFw.Capacity
import OcpFw.HostCommands
import OcpFw.SlotConservation

/-! What the admission of a command promises to the code behind it. The handlers look at
the first block of a command only, and not at its length; a long command runs into the
assertion of the DMA driver, and one that starts near the end of the device leaves it. -/
namespace OcpFw
open RequestLayer

variable {g : Geometry} {s s' : RequestLayer} {held flight : Finset Nat} {x n : Nat} {es : List Event}
  {cmdSlotTag startLba nlb storageCapacityL : Nat} {reqCode : ReqCode} {slices : List SliceReq}

/-- What the code behind the admission relies on: the blocks are on the device, every
DMA request is issued without a failed assertion, and the slices do not use up the slots,
so that a slice that has to wait for a slot waits for one that is not a slice. -/
structure Serviceable (g : Geometry) (storageCapacityL : Nat) (slices : List SliceReq) : Prop where
  onDevice : ∀ slice ∈ slices, ∀ i < slice.numOfNvmeBlock,
    slice.logicalSliceAddr * nvmeBlocksPerSlice + slice.nvmeBlockOffset + i < storageCapacityL
  issued : ∀ slice ∈ slices, ∀ req dataBufEntry h,
    ((slice.dmaReq req dataBufEntry).bind (issueNvmeDmaReq g h)).isSome
  fewSlots : slices.length ≤ availableOutstandingReqCount g
  neverStuck : ∀ s waits before slice after s', SlotsOk g s ∅ ∅ → s.queues.reqCnt .slice = 0 →
    slices = before ++ slice :: after → s.putSliceReqs g waits before = some s' →
    ∃ x < availableOutstandingReqCount g, s'.reqQueueType x ≠ .slice

/-! ### The slice queue -/

/-- Whatever happens in a wait, the slice queue keeps its length. -/
theorem sliceCnt_events (n : Nat) :
    EventClosed g (fun _ _ => True) fun s held flight =>
      SlotsOk g s held flight ∧ s.queues.reqCnt .slice = n where
  queued inv := slotsOk_events.queued inv.1
  idle inv := slotsOk_events.idle inv.1
  submittable inv := slotsOk_events.submittable inv.1
  complete := by
    intro s held flight x queues s' inv retires met done
    refine ⟨slotsOk_events.complete inv.1 retires met done, ?_⟩
    have retired : queues.reqCnt .slice = n := by
      rw [← inv.2]
      rcases retires with ⟨-, rfl⟩ | ⟨chNo, wayNo, taken⟩
      · simp [RequestQueues.selectiveGetFromNvmeDmaReqQ, RequestQueues.selectiveGetFrom,
          RequestQueues.putToFreeReqQ, RequestQueues.putTo]
      · obtain ⟨-, -, rfl⟩ := RequestQueues.getFromNandReqQ_cases taken
        simp [RequestQueues.getFrom, RequestQueues.putToFreeReqQ, RequestQueues.putTo]
    have after := inv.1.retire retires
    rcases releaseBlockedByBufDepReq_cases done with ⟨-, rfl⟩ | ⟨⟨-, blocked⟩, started⟩
    · exact retired
    · have allowed := after.submittable _ blocked
      obtain ⟨q, -, kind, placed⟩ := (Placed.of_startReleasedReq started allowed.1).queues allowed
      have other : ReqQueue.slice ≠ q := by
        rintro rfl
        simp [ReqQueue.queueType] at kind
      rw [placed]
      simpa [RequestQueues.putTo, other, setQueues, RequestQueues.selectiveGetFromBlockedByBufDepReqQ,
        RequestQueues.selectiveGetFrom] using retired
  recheck := by
    intro s held flight queued x chNo wayNo s' inv queuesOk listed met done
    refine ⟨slotsOk_events.recheck inv.1 queuesOk listed met done, ?_⟩
    obtain ⟨-, ⟨-, rfl⟩ | ⟨-, rfl⟩⟩ := recheckRowAddrDep_cases done
    · simpa [putToNandReqQ, setQueues, RequestQueues.putToNandReqQ, RequestQueues.putTo,
        RequestQueues.selectiveGetFromBlockedByRowAddrDepReqQ, RequestQueues.selectiveGetFrom] using inv.2
    · exact inv.2
  readPhase := by
    intro s held flight chNo wayNo code phase inv some
    exact ⟨slotsOk_events.readPhase code phase inv.1 some, inv.2⟩

/-- A slice takes a free slot to the slice queue. -/
theorem putSliceReq_sliceCnt {slice : SliceReq} (slots : SlotsOk g s ∅ ∅)
    (done : s.putSliceReq g es slice = some s') :
    SlotsOk g s' ∅ ∅ ∧ s'.queues.reqCnt .slice = s.queues.reqCnt .slice + 1 := by
  simp only [putSliceReq, Option.bind_eq_bind, Option.bind_eq_some_iff, Option.some.injEq] at done
  obtain ⟨t, waited, rfl⟩ := done
  obtain ⟨ok, same, some⟩ : SlotsOk g t ∅ ∅ ∧ t.queues.reqCnt .slice = s.queues.reqCnt .slice ∧
      t.queues.links.head .free ≠ reqSlotTagNone := by
    simp only [syncAvailFreeReq, Option.bind_eq_bind] at waited
    split at waited
    · simp only [Option.bind_eq_some_iff] at waited
      obtain ⟨u, ran, waited⟩ := waited
      obtain ⟨ok, same⟩ := events_closed (sliceCnt_events _) ⟨slots, rfl⟩ (fun _ _ => trivial) ran
      split at waited
      · cases waited
      · rename_i some
        cases waited
        exact ⟨ok, same, some⟩
    · rename_i some
      cases waited
      exact ⟨slots, rfl, some⟩
  have taken := slotsOk_ops.alloc ok some
  have mine : t.getFromFreeReqQ.1 ∈ insert t.getFromFreeReqQ.1 (∅ : Finset Nat) := by simp
  have put := slotsOk_ops.putSlice (slice.fill (t.getFromFreeReqQ.2.reqPool t.getFromFreeReqQ.1)) taken
    mine
  rw [Finset.erase_insert (Finset.notMem_empty t.getFromFreeReqQ.1)] at put
  refine ⟨put, ?_⟩
  obtain ⟨queued, queues⟩ := ok.queued
  have length := queues.length_le .slice
  rw [← queues.reqCnt] at length
  have small := slots_lt g
  have counted : (t.getFromFreeReqQ.2.queues.putToSliceReqQ t.getFromFreeReqQ.1).reqCnt .slice =
      inc16 (t.queues.reqCnt .slice) := by
    simp [getFromFreeReqQ, setQueues, RequestQueues.getFromFreeReqQ, RequestQueues.getFrom,
      RequestQueues.putToSliceReqQ, RequestQueues.putTo]
  change (t.getFromFreeReqQ.2.queues.putToSliceReqQ t.getFromFreeReqQ.1).reqCnt .slice = _
  rw [counted, inc16_of_lt (by omega), same]

/-- The slice queue counts the slices of the command so far. -/
theorem putSliceReqs_sliceCnt {waits : List SliceReq → List Event} (slots : SlotsOk g s ∅ ∅)
    (done : s.putSliceReqs g waits slices = some s') :
    SlotsOk g s' ∅ ∅ ∧ s'.queues.reqCnt .slice = s.queues.reqCnt .slice + slices.length := by
  induction slices generalizing s with
  | nil =>
    cases done
    exact ⟨slots, rfl⟩
  | cons slice slices ih =>
    simp only [putSliceReqs, Option.bind_eq_bind, Option.bind_eq_some_iff] at done
    obtain ⟨t, put, done⟩ := done
    obtain ⟨slots', count⟩ := putSliceReq_sliceCnt slots put
    obtain ⟨slots'', count'⟩ := ih slots' done
    refine ⟨slots'', ?_⟩
    rw [count', count, List.length_cons]
    omega

/-- A slice queue shorter than the pool leaves a slot that is not a slice. -/
theorem exists_not_slice (slots : SlotsOk g s held flight)
    (short : s.queues.reqCnt .slice < availableOutstandingReqCount g) :
    ∃ x < availableOutstandingReqCount g, s.reqQueueType x ≠ .slice := by
  by_contra all
  push Not at all
  obtain ⟨queued, ok⟩ := slots.queued
  have inside : List.range (availableOutstandingReqCount g) ⊆ queued .slice := by
    intro x member
    apply ok.mem_of_type (q := .slice) (all x (List.mem_range.mp member))
    intro q' type
    cases q' <;> simp_all [ReqQueue.queueType]
  have long := (List.subperm_of_subset List.nodup_range inside).length_le
  rw [List.length_range, ← ok.reqCnt] at long
  omega

/-! ### The slices of a command -/

/-- A property of the blocks of the slices is one of the blocks of the command. -/
theorem reqTransNvmeToSlice_forall (lba32 : startLba < 2 ^ 32) (nlb16 : nlb < 65536)
    (P : Nat → Nat → Prop) :
    (∀ slice ∈ reqTransNvmeToSlice cmdSlotTag startLba nlb reqCode, ∀ i < slice.numOfNvmeBlock,
      P (slice.logicalSliceAddr * nvmeBlocksPerSlice + slice.nvmeBlockOffset + i) (slice.startIndex + i)) ↔
    ∀ i ≤ nlb, P (startLba + i) i := by
  have all : (reqTransNvmeToSlice cmdSlotTag startLba nlb reqCode).flatMap SliceReq.blocks =
      span startLba 0 (nlb + 1) := reqTransNvmeToSlice_blocks lba32 nlb16
  calc _ ↔ ∀ block ∈ (reqTransNvmeToSlice cmdSlotTag startLba nlb reqCode).flatMap SliceReq.blocks,
        P block.1 block.2 := by
        simp only [List.mem_flatMap, SliceReq.blocks, mem_span]
        constructor
        · rintro each block ⟨slice, member, i, inside, rfl⟩
          exact each slice member i inside
        · exact fun each slice member i inside => each _ ⟨slice, member, i, inside, rfl⟩
    _ ↔ ∀ i ≤ nlb, P (startLba + i) i := by
        simp only [all, mem_span, Nat.zero_add, Nat.lt_succ_iff]
        constructor
        · exact fun each i inside => each _ ⟨i, inside, rfl⟩
        · rintro each block ⟨i, inside, rfl⟩
          exact each i inside

section Slices
variable {slice : Nat → Nat → Nat → Nat → SliceReq} {last : Nat → Nat → List SliceReq}
  {left tempLsa index : Nat} {P : SliceReq → Prop}

theorem transformContinue_forall (whole : ∀ lsa i, P (slice lsa i 0 nvmeBlocksPerSlice))
    (rest : ∀ lsa i, ∀ r ∈ last lsa i, P r) :
    ∀ r ∈ transformContinue slice last left tempLsa index, P r := by
  induction left generalizing tempLsa index with
  | zero => exact rest tempLsa index
  | succ left ih =>
    rw [transformContinue, List.forall_mem_cons]
    exact ⟨whole _ _, ih⟩

theorem transformContinue_length (rest : ∀ lsa i, (last lsa i).length ≤ 1) :
    (transformContinue slice last left tempLsa index).length ≤ left + 1 := by
  induction left generalizing tempLsa index with
  | zero => exact rest tempLsa index
  | succ left ih =>
    rw [transformContinue, List.length_cons]
    have tail := @ih (inc32 tempLsa) ((index + nvmeBlocksPerSlice) % 2 ^ 32)
    omega

end Slices

/-- Every slice is filled in from its command. -/
theorem eq_sliceReq {r : SliceReq} (member : r ∈ reqTransNvmeToSlice cmdSlotTag startLba nlb reqCode) :
    ∃ lsa i offset count, r = sliceReq reqCode cmdSlotTag lsa i offset count := by
  rcases List.mem_cons.mp member with rfl | later
  · exact ⟨_, _, _, _, rfl⟩
  · refine transformContinue_forall (P := fun r => ∃ lsa i offset count,
      r = sliceReq reqCode cmdSlotTag lsa i offset count) (fun _ _ => ⟨_, _, _, _, rfl⟩) ?_ r later
    intro lsa i r listed
    unfold lastTransform at listed
    split at listed
    · cases listed
    · exact ⟨_, _, _, _, List.mem_singleton.mp listed⟩

/-- Every slice has the code of its command, and fields within their widths. -/
theorem mem_reqTransNvmeToSlice {r : SliceReq}
    (member : r ∈ reqTransNvmeToSlice cmdSlotTag startLba nlb reqCode) :
    r.reqCode = reqCode ∧ r.startIndex < 65536 ∧ r.numOfNvmeBlock < 65536 := by
  obtain ⟨lsa, i, offset, count, rfl⟩ := eq_sliceReq member
  exact ⟨rfl, Nat.mod_lt _ (by decide), Nat.mod_lt _ (by decide)⟩

/-- A short command has few slices. -/
theorem reqTransNvmeToSlice_length (short : nlb < 256) :
    (reqTransNvmeToSlice cmdSlotTag startLba nlb reqCode).length ≤ 65 := by
  have requested : inc32 nlb = nlb + 1 := inc32_of_lt (by omega)
  simp only [reqTransNvmeToSlice, requested, blocksPerSlice_eq, List.length_cons]
  generalize loopIs : (startLba % 4 + (nlb + 1)) % 2 ^ 32 / 4 = loop
  have few : loop ≤ 64 := by omega
  cases loop with
  | zero => simp [transformContinue, lastTransform]
  | succ left =>
    have one : ∀ count lsa i,
        (lastTransform (sliceReq reqCode cmdSlotTag) count (left + 1) lsa i).length ≤ 1 := by
      intro count lsa i
      unfold lastTransform
      split <;> simp
    apply Nat.succ_le_succ
    exact (transformContinue_length (one _)).trans (by omega)

/-! ### Admitted commands -/

/-- The DMA requests of the slices pass the assertions of the driver exactly when their
blocks are among the first 256 of the command. -/
theorem issued_iff (code : reqCode = .read ∨ reqCode = .write)
    (fields : ∀ slice ∈ slices,
      slice.reqCode = reqCode ∧ slice.startIndex < 65536 ∧ slice.numOfNvmeBlock < 65536) :
    (∀ slice ∈ slices, ∀ req dataBufEntry h,
      ((slice.dmaReq req dataBufEntry).bind (issueNvmeDmaReq g h)).isSome) ↔
    ∀ slice ∈ slices, ∀ i < slice.numOfNvmeBlock, slice.startIndex + i < 256 := by
  have each : ∀ slice ∈ slices, ∀ req dataBufEntry h,
      ((slice.dmaReq req dataBufEntry).bind (issueNvmeDmaReq g h)).isSome ↔
        ∀ i < slice.numOfNvmeBlock, slice.startIndex + i < 256 := by
    intro slice member req dataBufEntry h
    obtain ⟨same, widths⟩ := fields slice member
    obtain ⟨dma, kind, dmaIs⟩ :
        ∃ dma : ReqCode, (dma = .rxDma ∨ dma = .txDma) ∧ slice.dmaCode = some dma := by
      unfold SliceReq.dmaCode
      rcases code with code | code <;> simp [same, code]
    rw [SliceReq.dmaReq, dmaIs]
    exact issueNvmeDmaReq_isSome rfl rfl kind
      (show slice.startIndex + slice.numOfNvmeBlock < 2 ^ 32 by omega)
  constructor
  · exact fun all slice member => (each slice member {} 0 {}).mp (all slice member {} 0 {})
  · exact fun all slice member req dataBufEntry h =>
      (each slice member req dataBufEntry h).mpr (all slice member)

/-- What an admitted command is. -/
theorem handleNvmeIo_eq_some {prpMask : Nat} {cmd : NvmeIoCommand}
    (handled : handleNvmeIo prpMask reqCode storageCapacityL cmdSlotTag cmd = some slices) :
    cmd.startLba < storageCapacityL ∧ slices = reqTransNvmeToSlice cmdSlotTag cmd.startLba cmd.nlb reqCode := by
  unfold handleNvmeIo at handled
  split at handled
  · rename_i onDevice
    split at handled
    · split at handled
      · cases handled
        exact ⟨onDevice.1, rfl⟩
      · cases handled
    · cases handled
  · cases handled

/-- For every capacity the initialization computes and every admitted read or write
command, the code behind the handlers gets what it relies on exactly when the command
has at most 256 blocks and ends before the capacity. -/
theorem serviceable_iff_short {mbPerbadBlockSpace : Nat} {cmd : NvmeIoCommand}
    (handled :
      handleNvmeIoRead (g.storageCapacityL mbPerbadBlockSpace) cmdSlotTag cmd = some slices ∨
      handleNvmeIoWrite (g.storageCapacityL mbPerbadBlockSpace) cmdSlotTag cmd = some slices) :
    Serviceable g (g.storageCapacityL mbPerbadBlockSpace) slices ↔
      cmd.nlb < 256 ∧ cmd.startLba + cmd.nlb < g.storageCapacityL mbPerbadBlockSpace := by
  generalize capacityIs : g.storageCapacityL mbPerbadBlockSpace = capacity at handled ⊢
  have fits : capacity < 2 ^ 32 := capacityIs ▸ Nat.mod_lt _ (by decide)
  obtain ⟨reqCode, code, first, rfl⟩ : ∃ reqCode, (reqCode = .read ∨ reqCode = .write) ∧
      cmd.startLba < capacity ∧
      slices = reqTransNvmeToSlice cmdSlotTag cmd.startLba cmd.nlb reqCode := by
    rcases handled with read | write
    · exact ⟨.read, .inl rfl, handleNvmeIo_eq_some read⟩
    · exact ⟨.write, .inr rfl, handleNvmeIo_eq_some write⟩
  have nlb16 : cmd.nlb < 65536 := Nat.mod_lt _ (by decide)
  have lba32 : cmd.startLba < 2 ^ 32 := by omega
  set slices := reqTransNvmeToSlice cmdSlotTag cmd.startLba cmd.nlb reqCode with slicesAre
  have onDevice : (∀ slice ∈ slices, ∀ i < slice.numOfNvmeBlock,
      slice.logicalSliceAddr * nvmeBlocksPerSlice + slice.nvmeBlockOffset + i < capacity) ↔
      ∀ i ≤ cmd.nlb, cmd.startLba + i < capacity :=
    reqTransNvmeToSlice_forall lba32 nlb16 fun lba _ => lba < capacity
  have offsets : (∀ slice ∈ slices, ∀ i < slice.numOfNvmeBlock, slice.startIndex + i < 256) ↔
      ∀ i ≤ cmd.nlb, i < 256 :=
    reqTransNvmeToSlice_forall lba32 nlb16 fun _ index => index < 256
  have fields : ∀ slice ∈ slices,
      slice.reqCode = reqCode ∧ slice.startIndex < 65536 ∧ slice.numOfNvmeBlock < 65536 :=
    fun _ => mem_reqTransNvmeToSlice
  have issued := issued_iff (g := g) code fields
  constructor
  · intro ok
    have lastIndex := offsets.mp (issued.mp ok.issued) cmd.nlb le_rfl
    have lastLba := onDevice.mp ok.onDevice cmd.nlb le_rfl
    exact ⟨lastIndex, lastLba⟩
  · rintro ⟨short, inside⟩
    have length : slices.length ≤ 65 := reqTransNvmeToSlice_length short
    have slots : 128 ≤ availableOutstandingReqCount g := by
      have dies := g.dies_pos
      unfold availableOutstandingReqCount
      omega
    refine ⟨onDevice.mpr fun i le => by omega, issued.mpr (offsets.mpr fun i le => by omega),
      by omega, ?_⟩
    intro s waits before slice after s' ok empty shape put
    obtain ⟨ok', count⟩ := putSliceReqs_sliceCnt ok put
    apply exists_not_slice ok'
    have part : before.length < slices.length := by simp [shape]
    omega

/-- A read of the last four blocks of a device of two megabytes. -/
theorem serviceable_iff_short_last :
    handleNvmeIoRead (twoDies.storageCapacityL 0) 0 { dword10 := 508, dword12 := 3 } =
      some (reqTransNvmeToSlice 0 508 3 .read) ∧
    Serviceable twoDies (twoDies.storageCapacityL 0) (reqTransNvmeToSlice 0 508 3 .read) := by
  have handled : handleNvmeIoRead (twoDies.storageCapacityL 0) 0 { dword10 := 508, dword12 := 3 } =
      some (reqTransNvmeToSlice 0 508 3 .read) := by decide +kernel
  exact ⟨handled, (serviceable_iff_short (.inl handled)).mpr (by decide +kernel)⟩

/-- A write of two blocks to the last block of the device is admitted. -/
theorem serviceable_broken :
    ¬ ∀ (g : Geometry) (mbPerbadBlockSpace cmdSlotTag : Nat) (cmd : NvmeIoCommand)
      (slices : List SliceReq),
      (handleNvmeIoRead (g.storageCapacityL mbPerbadBlockSpace) cmdSlotTag cmd = some slices ∨
        handleNvmeIoWrite (g.storageCapacityL mbPerbadBlockSpace) cmdSlotTag cmd = some slices) →
      Serviceable g (g.storageCapacityL mbPerbadBlockSpace) slices := by
  intro claim
  have handled : handleNvmeIoWrite (twoDies.storageCapacityL 0) 0 { dword10 := 511, dword12 := 1 } =
      some (reqTransNvmeToSlice 0 511 1 .write) := by decide +kernel
  have ok := claim twoDies 0 0 _ _ (.inr handled)
  have second := ok.onDevice
    { reqCode := .write, logicalSliceAddr := 128, startIndex := 1, nvmeBlockOffset := 0, numOfNvmeBlock := 1 }
    (by decide +kernel) 0 (by decide)
  exact absurd second (by decide +kernel)

end OcpFw
