import OcpFw.CommandAdmission
import OcpFw.DmaCompletion

/-! Where the blocks of a command are in the buffer. A command is split into slices, every
slice is given a buffer entry, and its DMA request is expanded into one command for each
block; together these move every block of the command once, to or from its own place in
the entry of its slice. -/
namespace OcpFw

variable {g : Geometry} {reqCode : ReqCode} {cmdSlotTag startLba nlb : Nat}

/-! ### The slices of a command -/

/-- A slice has blocks, and stays inside its slice address. -/
def SliceReq.Aligned (slice : SliceReq) : Prop :=
  1 ≤ slice.numOfNvmeBlock ∧ slice.nvmeBlockOffset + slice.numOfNvmeBlock ≤ nvmeBlocksPerSlice

theorem sliceReq_aligned {lsa index offset count : Nat} (nonempty : 1 ≤ count) (inside : offset + count ≤ 4) :
    (sliceReq reqCode cmdSlotTag lsa index offset count).Aligned := by
  have small : offset % 65536 = offset := Nat.mod_eq_of_lt (by omega)
  have few : count % 65536 = count := Nat.mod_eq_of_lt (by omega)
  simp only [SliceReq.Aligned, sliceReq, small, few, blocksPerSlice_eq]
  exact ⟨nonempty, inside⟩

theorem reqTransNvmeToSlice_aligned (nlb16 : nlb < 65536) :
    ∀ slice ∈ reqTransNvmeToSlice cmdSlotTag startLba nlb reqCode, slice.Aligned := by
  have requested : inc32 nlb = nlb + 1 := inc32_of_lt (by omega)
  intro slice member
  simp only [reqTransNvmeToSlice, requested, blocksPerSlice_eq] at member
  rcases List.mem_cons.mp member with rfl | later
  · apply sliceReq_aligned <;> split <;> omega
  · refine transformContinue_forall (fun lsa i => sliceReq_aligned (by decide) (by decide)) ?_ slice later
    intro lsa i r listed
    unfold lastTransform at listed
    split at listed
    · cases listed
    · rw [List.mem_singleton.mp listed]
      apply sliceReq_aligned <;> omega

/-- The whole slices are at consecutive addresses, up to those of the last slice. -/
theorem transformContinue_lsas {last : Nat → Nat → List SliceReq} {lsa n index : Nat}
    (fits : lsa + n < 2 ^ 32) (few : ∀ i, (last (lsa + n) i).map SliceReq.logicalSliceAddr =
      List.range' (lsa + n) (last (lsa + n) i).length) :
    (transformContinue (sliceReq reqCode cmdSlotTag) last n lsa index).map SliceReq.logicalSliceAddr =
      List.range' lsa (transformContinue (sliceReq reqCode cmdSlotTag) last n lsa index).length := by
  induction n generalizing lsa index with
  | zero => exact few index
  | succ n ih =>
    have next : inc32 lsa = lsa + 1 := inc32_of_lt (by omega)
    have sum : lsa + 1 + n = lsa + (n + 1) := by omega
    rw [transformContinue, List.map_cons, List.length_cons, List.range'_succ, next,
      ih (by omega) (by rwa [sum])]
    rfl

theorem reqTransNvmeToSlice_lsas (lba32 : startLba + nlb + 1 < 2 ^ 32) :
    (reqTransNvmeToSlice cmdSlotTag startLba nlb reqCode).map SliceReq.logicalSliceAddr =
      List.range' (startLba / nvmeBlocksPerSlice)
        (reqTransNvmeToSlice cmdSlotTag startLba nlb reqCode).length := by
  have next : inc32 (startLba / 4) = startLba / 4 + 1 := inc32_of_lt (by omega)
  have requested : inc32 nlb = nlb + 1 := inc32_of_lt (by omega)
  simp only [reqTransNvmeToSlice, requested, blocksPerSlice_eq, next, List.map_cons, List.length_cons,
    List.range'_succ]
  rw [transformContinue_lsas (by omega)]
  · rfl
  · intro i
    unfold lastTransform
    split <;> rfl

/-! ### The commands of a slice -/

/-- The place of a logical block in the buffer, its slice having the given entry. -/
def blockDevAddr (e : Nat → Nat) (lba : Nat) : Nat :=
  dataBufferBaseAddr + e (lba / nvmeBlocksPerSlice) * bytesPerDataRegionOfSlice +
    lba % nvmeBlocksPerSlice * bytesPerNvmeBlock

/-- The direction of the commands of a slice. -/
def SliceReq.dmaDirection (slice : SliceReq) : DmaDirection := if slice.reqCode = .write then .rx else .tx

/-- The commands that move the blocks of a slice. -/
def SliceReq.autoDmas (slice : SliceReq) (e : Nat → Nat) : List AutoDma :=
  slice.blocks.map fun (lba, index) =>
    ⟨slice.dmaDirection, slice.nvmeCmdSlotTag, index, blockDevAddr e lba⟩

/-- `IssueNvmeDmaReq` of the DMA request a slice is turned into; `stale` is what the slot held. -/
def SliceReq.issue (g : Geometry) (stale : SsdReq) (e : Nat → Nat) (h : HostDma) (slice : SliceReq) :
    Option HostDma := do
  let req ← slice.dmaReq stale (e slice.logicalSliceAddr)
  let (_, h) ← issueNvmeDmaReq g h req
  some h

/-- A slice is issued, and its commands move its blocks. -/
theorem issue_spec {e : Nat → Nat} {slice : SliceReq} (stale : SsdReq) (h : HostDma)
    (code : slice.reqCode = .read ∨ slice.reqCode = .write) (aligned : slice.Aligned)
    (short : slice.startIndex + slice.numOfNvmeBlock ≤ 256)
    (entry : e slice.logicalSliceAddr < availableDataBufferEntryCount g) :
    ∃ h', slice.issue g stale e h = some h' ∧ h'.commands = h.commands ++ slice.autoDmas e := by
  obtain ⟨nonempty, inside⟩ := aligned
  obtain ⟨dma, made, type, format, kind, dir, tag, info, place⟩ :
      ∃ dma, slice.dmaReq stale (e slice.logicalSliceAddr) = some dma ∧ dma.reqType = .nvmeDma ∧
        dma.dataBufFormat = .entry ∧ (dma.reqCode = .rxDma ∨ dma.reqCode = .txDma) ∧
        dma.dmaDirection = slice.dmaDirection ∧ dma.nvmeCmdSlotTag = slice.nvmeCmdSlotTag ∧
        (dma.nvmeDmaInfo.startIndex = slice.startIndex ∧
          dma.nvmeDmaInfo.nvmeBlockOffset = slice.nvmeBlockOffset ∧
          dma.nvmeDmaInfo.numOfNvmeBlock = slice.numOfNvmeBlock) ∧
        dma.dataBufInfo = e slice.logicalSliceAddr := by
    unfold SliceReq.dmaReq SliceReq.dmaCode
    rcases code with code | code <;>
      simp [code, SsdReq.dmaDirection, SliceReq.dmaDirection, SliceReq.fill]
  have runs : (issueNvmeDmaReq g h dma).isSome := by
    apply (issueNvmeDmaReq_isSome type format kind (by omega)).mpr
    intro i low
    omega
  obtain ⟨⟨req', h'⟩, issued⟩ := Option.isSome_iff_exists.mp runs
  obtain ⟨devAddr, addr, -, -, commands, -⟩ := issueNvmeDmaReq_spec type issued
  refine ⟨h', by simp [SliceReq.issue, made, issued], ?_⟩
  rw [commands, dir, tag, info.1, info.2.2]
  congr 1
  unfold HostDma.autoDmas SliceReq.autoDmas SliceReq.blocks span
  rw [List.map_map]
  apply List.map_congr_left
  intro i low
  rw [List.mem_range] at low
  have dies : g.userDies ≤ 256 := g.dies_fit
  simp only [generateDataBufAddr, type, format, Option.some.injEq, place, info.2.1] at addr
  simp only [Function.comp_apply, AutoDma.mk.injEq, true_and, blockDevAddr]
  rw [blocksPerSlice_eq] at inside ⊢
  unfold availableDataBufferEntryCount at entry
  have slot : (slice.logicalSliceAddr * 4 + slice.nvmeBlockOffset + i) / 4 = slice.logicalSliceAddr := by omega
  have block : (slice.logicalSliceAddr * 4 + slice.nvmeBlockOffset + i) % 4 = slice.nvmeBlockOffset + i := by omega
  rw [slot, block]
  unfold dataBufferBaseAddr bytesPerDataRegionOfSlice bytesPerNvmeBlock at *
  omega

/-! ### The commands of a command of the host -/

/-- The DMA requests of slices, issued one after the other. -/
def issueSlices (g : Geometry) (stale : SliceReq → SsdReq) (e : Nat → Nat) (h : HostDma) (slices : List SliceReq) :
    Option HostDma :=
  slices.foldlM (fun h slice => slice.issue g (stale slice) e h) h

theorem issueSlices_spec {e : Nat → Nat} {slices : List SliceReq} (stale : SliceReq → SsdReq) (h : HostDma)
    (each : ∀ slice ∈ slices, ∀ h, ∃ h', slice.issue g (stale slice) e h = some h' ∧
      h'.commands = h.commands ++ slice.autoDmas e) :
    ∃ h', issueSlices g stale e h slices = some h' ∧
      h'.commands = h.commands ++ slices.flatMap fun slice => slice.autoDmas e := by
  induction slices generalizing h with
  | nil => exact ⟨h, rfl, by simp⟩
  | cons slice rest ih =>
    obtain ⟨t, first, commands⟩ := each slice (by simp) h
    obtain ⟨h', done, all⟩ := ih t fun slice member => each slice (by simp [member])
    refine ⟨h', ?_, ?_⟩
    · unfold issueSlices at done ⊢
      simpa [first] using done
    · rw [all, commands, List.flatMap_cons, List.append_assoc]

/-- Slice after slice, the commands move the blocks of the command in order. -/
theorem reqTransNvmeToSlice_autoDmas {e : Nat → Nat} (lba32 : startLba < 2 ^ 32) (nlb16 : nlb < 65536) :
    (reqTransNvmeToSlice cmdSlotTag startLba nlb reqCode).flatMap (fun slice => slice.autoDmas e) =
      (List.range (nlb + 1)).map fun i =>
        ⟨if reqCode = .write then .rx else .tx, cmdSlotTag % 65536, i, blockDevAddr e (startLba + i)⟩ := by
  have same : ∀ slice ∈ reqTransNvmeToSlice cmdSlotTag startLba nlb reqCode, slice.autoDmas e =
      slice.blocks.map fun block =>
        ⟨if reqCode = .write then .rx else .tx, cmdSlotTag % 65536, block.2, blockDevAddr e block.1⟩ := by
    intro slice member
    obtain ⟨lsa, i, offset, count, rfl⟩ := eq_sliceReq member
    rfl
  rw [List.flatMap_congr same, ← List.map_flatMap, reqTransNvmeToSlice_blocks lba32 nlb16, span, List.map_map]
  simp only [Function.comp_def, Nat.zero_add]

/-- The slices of a command, in any order, are issued with one DMA command for every block,
whose address is the place of the block. The slices follow each other, and none of them
leaves its entry. -/
theorem dma_addresses_exact (g : Geometry) (reqCode : ReqCode) (cmdSlotTag startLba nlb : Nat)
    (code : reqCode = .read ∨ reqCode = .write) (lba32 : startLba + nlb + 1 < 2 ^ 32) (short : nlb < 256)
    (e : Nat → Nat) (entries : ∀ slice ∈ reqTransNvmeToSlice cmdSlotTag startLba nlb reqCode,
      e slice.logicalSliceAddr < availableDataBufferEntryCount g)
    (stale : SliceReq → SsdReq) (h : HostDma) (order : List SliceReq)
    (perm : order.Perm (reqTransNvmeToSlice cmdSlotTag startLba nlb reqCode)) :
    (∃ h' new, issueSlices g stale e h order = some h' ∧ h'.commands = h.commands ++ new ∧
      new.Perm ((List.range (nlb + 1)).map fun i =>
        ⟨if reqCode = .write then .rx else .tx, cmdSlotTag % 65536, i, blockDevAddr e (startLba + i)⟩)) ∧
    (∀ slice ∈ reqTransNvmeToSlice cmdSlotTag startLba nlb reqCode, 1 ≤ slice.numOfNvmeBlock ∧
      slice.nvmeBlockOffset + slice.numOfNvmeBlock ≤ nvmeBlocksPerSlice) ∧
    (reqTransNvmeToSlice cmdSlotTag startLba nlb reqCode).map SliceReq.logicalSliceAddr =
      List.range' (startLba / nvmeBlocksPerSlice)
        (reqTransNvmeToSlice cmdSlotTag startLba nlb reqCode).length := by
  have aligned : ∀ slice ∈ reqTransNvmeToSlice cmdSlotTag startLba nlb reqCode, slice.Aligned :=
    reqTransNvmeToSlice_aligned (by omega)
  refine ⟨?_, aligned, reqTransNvmeToSlice_lsas lba32⟩
  have indices : ∀ slice ∈ reqTransNvmeToSlice cmdSlotTag startLba nlb reqCode,
      ∀ i < slice.numOfNvmeBlock, slice.startIndex + i < 256 :=
    (reqTransNvmeToSlice_forall (by omega) (by omega) fun _ index => index < 256).mpr fun i inside => by omega
  have each : ∀ slice ∈ order, ∀ h, ∃ h', slice.issue g (stale slice) e h = some h' ∧
      h'.commands = h.commands ++ slice.autoDmas e := by
    intro slice member h
    have listed := perm.mem_iff.mp member
    have nonempty := (aligned slice listed).1
    have last := indices slice listed (slice.numOfNvmeBlock - 1) (by omega)
    have fields := mem_reqTransNvmeToSlice listed
    exact issue_spec (stale slice) h (fields.1 ▸ code) (aligned slice listed) (by omega) (entries slice listed)
  obtain ⟨h', done, commands⟩ := issueSlices_spec stale h each
  refine ⟨h', _, done, commands, (perm.flatMap_right _).trans (.of_eq ?_)⟩
  exact reqTransNvmeToSlice_autoDmas (by omega) (by omega)

/-- Seven blocks from block 6 on: two of slice 1, slice 2, one of slice 3, issued backwards. -/
theorem dma_addresses_exact_backwards :
    ∃ h', issueSlices twoDies (fun _ => {}) (· % 32) {} (reqTransNvmeToSlice 3 6 6 .write).reverse = some h' ∧
      h'.commands.Perm
        [⟨.rx, 3, 0, 0x10006000⟩, ⟨.rx, 3, 1, 0x10007000⟩, ⟨.rx, 3, 2, 0x10008000⟩,
          ⟨.rx, 3, 3, 0x10009000⟩, ⟨.rx, 3, 4, 0x1000a000⟩, ⟨.rx, 3, 5, 0x1000b000⟩,
          ⟨.rx, 3, 6, 0x1000c000⟩] ∧
      (reqTransNvmeToSlice 3 6 6 .write).map SliceReq.logicalSliceAddr = [1, 2, 3] := by
  have exact := dma_addresses_exact twoDies .write 3 6 6 (.inr rfl) (by decide) (by decide) (· % 32)
    (by decide) (fun _ => {}) {} _ (List.reverse_perm _)
  obtain ⟨⟨h', new, done, commands, all⟩, -, lsas⟩ := exact
  exact ⟨h', done, by rw [commands]; exact all, lsas⟩

end OcpFw
