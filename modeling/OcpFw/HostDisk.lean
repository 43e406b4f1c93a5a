import OcpFw.Device
import OcpFw.DmaAddresses

/-! The host sees a disk. Commands are fetched one after the other; a command is split into
slices, which wait in the slice queue and are all consumed before the next command is fetched.
Whatever overlaps below, every block that comes back is what the commands before it left on
the disk. -/
namespace OcpFw
open Runs (Run exec run_of_exec_any)
open RequestLayer

variable {D : Type} {g : Geometry}

/-! ### The disk -/

/-- `OPC` of an I/O command. -/
inductive IoOpcode where
  | flush | write | read | other
  deriving DecidableEq

/-- What `handle_nvme_io_cmd` reads of an `NVME_COMMAND`. -/
structure NvmeCommand where
  opc : IoOpcode
  cmdSlotTag : Nat := 0
  cmd : NvmeIoCommand

namespace NvmeCommand

/-- The block is one of those of the command. -/
def Covers (c : NvmeCommand) (lba : Nat) : Prop := c.cmd.startLba ≤ lba ∧ lba ≤ c.cmd.startLba + c.cmd.nlb

instance (c : NvmeCommand) (lba : Nat) : Decidable (c.Covers lba) := inferInstanceAs (Decidable (_ ∧ _))

/-- The slices of an admitted command. -/
def slices (c : NvmeCommand) : List SliceReq :=
  match c.opc with
  | .write => reqTransNvmeToSlice c.cmdSlotTag c.cmd.startLba c.cmd.nlb .write
  | .read => reqTransNvmeToSlice c.cmdSlotTag c.cmd.startLba c.cmd.nlb .read
  | _ => []

end NvmeCommand

/-- What is on the disk after some commands, with the data of every block of every command;
a block that was never written holds nothing in particular. -/
def diskAfter (data : Nat → Nat → D) (cmds : List NvmeCommand) : Nat → Option D :=
  cmds.zipIdx.foldl
    (fun disk c lba => if c.1.opc = .write ∧ c.1.Covers lba then some (data c.2 (lba - c.1.cmd.startLba)) else disk lba)
    fun _ => none

theorem diskAfter_append (data : Nat → Nat → D) (cmds : List NvmeCommand) (c : NvmeCommand) (lba : Nat) :
    diskAfter data (cmds ++ [c]) lba =
      if c.opc = .write ∧ c.Covers lba then some (data cmds.length (lba - c.cmd.startLba))
      else diskAfter data cmds lba := by
  simp [diskAfter, List.zipIdx_append]

/-- A block of a command, by the number of the command and the index in it. -/
structure HostBlock where
  command : Nat
  index : Nat
  deriving DecidableEq

/-- The blocks the READ commands ask for. -/
def blocksAsked (cmds : List NvmeCommand) : List HostBlock :=
  cmds.zipIdx.flatMap fun c =>
    if c.1.opc = .read then (List.range (c.1.cmd.nlb + 1)).map (HostBlock.mk c.2) else []

theorem blocksAsked_append (cmds : List NvmeCommand) (c : NvmeCommand) :
    blocksAsked (cmds ++ [c]) = blocksAsked cmds ++
      if c.opc = .read then (List.range (c.cmd.nlb + 1)).map (HostBlock.mk cmds.length) else [] := by
  simp [blocksAsked, List.zipIdx_append]

/-! ### The firmware -/

/-- `handle_nvme_io_cmd`: what it puts to the slice queue. -/
def handleNvmeIoCmd (storageCapacityL : Nat) (c : NvmeCommand) : Option (List SliceReq) :=
  match c.opc with
  | .flush => some []
  | .write => handleNvmeIoWrite storageCapacityL c.cmdSlotTag c.cmd
  | .read => handleNvmeIoRead storageCapacityL c.cmdSlotTag c.cmd
  | .other => none

/-- The device, how many commands were fetched, and the slices that wait. -/
structure HostSession (g : Geometry) (D : Type) where
  device : Device g D
  fetched : Nat := 0
  sliceReqQ : List SliceReq := []

/-- The next command is fetched, the next slice is consumed, or the request layer goes on. -/
inductive HostInput where
  | command
  | slice
  | submit (reqSlotTag : Nat) (es : List Event)
  | request (op : RequestOp)

/-- The slices of the commands, each with the number of its command. -/
def commandSlices (cmds : List NvmeCommand) : List (Nat × SliceReq) :=
  cmds.zipIdx.flatMap fun c => c.1.slices.map fun slice => (c.2, slice)

/-- Block `p` of the `k`-th slice; the index is the `cmd4KBOffset` it is moved with. -/
def hostBlock (cmds : List NvmeCommand) (k p : Nat) : HostBlock :=
  (commandSlices cmds)[k]?.elim ⟨0, 0⟩ fun s => ⟨s.1, s.2.startIndex + (p - s.2.nvmeBlockOffset)⟩

/-- The data of the host for a block of a slice. -/
def sliceData (cmds : List NvmeCommand) (data : Nat → Nat → D) (k p : Nat) : D :=
  data (hostBlock cmds k p).command (hostBlock cmds k p).index

namespace HostSession

def deviceInput (s : HostSession g D) : HostInput → Option DeviceInput
  | .command => none
  | .slice => s.sliceReqQ.head?.map .consume
  | .submit reqSlotTag es => some (.submit reqSlotTag es)
  | .request op => some (.request op)

/-- The slices that wait after an input. -/
def rest (s : HostSession g D) : HostInput → List SliceReq
  | .slice => s.sliceReqQ.tail
  | _ => s.sliceReqQ

end HostSession

/-- One step, with the commands the host issues and the data it writes. -/
def hostStep (cmds : List NvmeCommand) (data : Nat → Nat → D) (erased : Nat → D) (storageCapacityL : Nat)
    (s : HostSession g D) (input : HostInput) : Option (HostSession g D) :=
  match input with
  | .command =>
    -- the slices of a command are consumed, and their requests submitted, before the next one is fetched
    if s.sliceReqQ = [] ∧ s.device.next = none then do
      let c ← cmds[s.fetched]?
      let slices ← handleNvmeIoCmd storageCapacityL c
      some { s with fetched := s.fetched + 1, sliceReqQ := slices }
    else none
  | input => do
    let deviceInput ← s.deviceInput input
    let device ← deviceStep (sliceData cmds data) erased s.device deviceInput
    some { s with device := device, sliceReqQ := s.rest input }

def initHostSession (g : Geometry) (bad : Nat → Nat → Bool) (memory : RequestPlace → Nat → D) : HostSession g D where
  device := initDevice g bad memory

/-- No write back collects a current block without valid slices, and no check lets a request
overtake an ERASE. -/
def HostInput.Allowed (s : HostSession g D) (input : HostInput) : Prop :=
  ∀ d ∈ s.deviceInput input, (∀ slice, d = .consume slice → EvictsSafely g s.device.manager slice) ∧
    ∀ op ∈ s.device.operation d, KeepsErases g s.device.traced.fw op

instance (s : HostSession g D) (input : HostInput) : Decidable (input.Allowed s) := by
  unfold HostInput.Allowed
  infer_instance

namespace HostSession

/-- The blocks moved to the host, with the command and the index of each. -/
def delivered (cmds : List NvmeCommand) (s : HostSession g D) : List (HostBlock × D) :=
  s.device.delivered.map fun d => (hostBlock cmds d.slice d.block, d.data)

/-- No slice waits, and the device is drained. -/
def Idle (s : HostSession g D) : Prop := s.sliceReqQ = [] ∧ s.device.Drained

instance (s : HostSession g D) : Decidable s.Idle := inferInstanceAs (Decidable (_ ∧ _))

end HostSession

/-! ### Slices and commands -/

section
variable {c : NvmeCommand} {cmds all : List NvmeCommand} {slice : SliceReq} {slices old new : List SliceReq}
  {data : Nat → Nat → D} {lba lsa p k n storageCapacityL : Nat}

theorem handleNvmeIoCmd_slices (handled : handleNvmeIoCmd storageCapacityL c = some slices) :
    slices = c.slices ∧ (c.opc = .flush ∨ c.cmd.startLba < storageCapacityL) := by
  unfold handleNvmeIoCmd at handled
  unfold NvmeCommand.slices
  cases opc : c.opc with
  | flush =>
    rw [opc] at handled
    cases handled
    exact ⟨rfl, .inl rfl⟩
  | write =>
    rw [opc] at handled
    obtain ⟨low, rfl⟩ := handleNvmeIo_eq_some handled
    exact ⟨rfl, .inr low⟩
  | read =>
    rw [opc] at handled
    obtain ⟨low, rfl⟩ := handleNvmeIo_eq_some handled
    exact ⟨rfl, .inr low⟩
  | other =>
    rw [opc] at handled
    cases handled

namespace NvmeCommand

theorem mem_slices (member : slice ∈ c.slices) :
    ∃ code, slice ∈ reqTransNvmeToSlice c.cmdSlotTag c.cmd.startLba c.cmd.nlb code ∧
      (c.opc = .write ∧ code = .write ∨ c.opc = .read ∧ code = .read) := by
  unfold slices at member
  cases opc : c.opc with
  | write =>
    rw [opc] at member
    exact ⟨_, member, .inl ⟨rfl, rfl⟩⟩
  | read =>
    rw [opc] at member
    exact ⟨_, member, .inr ⟨rfl, rfl⟩⟩
  | flush | other =>
    rw [opc] at member
    cases member

theorem nlb_lt (c : NvmeCommand) : c.cmd.nlb < 65536 := Nat.mod_lt _ (by decide)

theorem slice_aligned (member : slice ∈ c.slices) : slice.Aligned := by
  obtain ⟨code, listed, -⟩ := mem_slices member
  exact reqTransNvmeToSlice_aligned c.nlb_lt slice listed

theorem slice_code (member : slice ∈ c.slices) :
    (slice.reqCode = .write ↔ c.opc = .write) ∧ (slice.reqCode = .read ↔ c.opc = .read) := by
  obtain ⟨code, listed, ⟨opc, rfl⟩ | ⟨opc, rfl⟩⟩ := mem_slices member
  · simp [(mem_reqTransNvmeToSlice listed).1, opc]
  · simp [(mem_reqTransNvmeToSlice listed).1, opc]

/-- The blocks of the slices are those of the command. -/
theorem slice_block (member : slice ∈ c.slices) (lba32 : c.cmd.startLba < 2 ^ 32) (low : slice.nvmeBlockOffset ≤ p)
    (high : p < slice.nvmeBlockOffset + slice.numOfNvmeBlock) :
    ∃ i ≤ c.cmd.nlb, slice.logicalSliceAddr * nvmeBlocksPerSlice + p = c.cmd.startLba + i ∧
      slice.startIndex + (p - slice.nvmeBlockOffset) = i := by
  obtain ⟨code, listed, -⟩ := mem_slices member
  have each := (@reqTransNvmeToSlice_forall c.cmdSlotTag c.cmd.startLba c.cmd.nlb code lba32 c.nlb_lt fun lba index =>
    ∃ i ≤ c.cmd.nlb, lba = c.cmd.startLba + i ∧ index = i).mpr fun i le => ⟨i, le, rfl, rfl⟩
  obtain ⟨i, le, lba, index⟩ := each slice listed (p - slice.nvmeBlockOffset) (by omega)
  exact ⟨i, le, by omega, index⟩

theorem slices_blocks (opc : c.opc = .write ∨ c.opc = .read) (lba32 : c.cmd.startLba < 2 ^ 32) :
    c.slices.flatMap SliceReq.blocks = span c.cmd.startLba 0 (c.cmd.nlb + 1) := by
  unfold slices
  rcases opc with opc | opc <;> rw [opc] <;> exact reqTransNvmeToSlice_blocks lba32 c.nlb_lt

/-- Each block of a command is in one of its slices. -/
theorem exists_slice (opc : c.opc = .write ∨ c.opc = .read) (lba32 : c.cmd.startLba < 2 ^ 32) (covers : c.Covers lba) :
    ∃ slice ∈ c.slices, slice.logicalSliceAddr = lba / nvmeBlocksPerSlice ∧
      slice.nvmeBlockOffset ≤ lba % nvmeBlocksPerSlice ∧
      lba % nvmeBlocksPerSlice < slice.nvmeBlockOffset + slice.numOfNvmeBlock := by
  obtain ⟨low, high⟩ := covers
  have listed : (lba, lba - c.cmd.startLba) ∈ c.slices.flatMap SliceReq.blocks := by
    rw [slices_blocks opc lba32, mem_span]
    refine ⟨lba - c.cmd.startLba, by omega, Prod.ext ?_ ?_⟩
    · simp only
      omega
    · simp only
      omega
  obtain ⟨slice, member, inside⟩ := List.mem_flatMap.mp listed
  obtain ⟨i, below, same⟩ := mem_span.mp inside
  have inEntry := (slice_aligned member).2
  have lbaIs : lba = slice.logicalSliceAddr * nvmeBlocksPerSlice + slice.nvmeBlockOffset + i := congrArg Prod.fst same
  rw [blocksPerSlice_eq] at inEntry lbaIs ⊢
  exact ⟨slice, member, by omega, by omega, by omega⟩

end NvmeCommand

theorem commandSlices_append (cmds : List NvmeCommand) (c : NvmeCommand) :
    commandSlices (cmds ++ [c]) = commandSlices cmds ++ c.slices.map fun slice => (cmds.length, slice) := by
  simp [commandSlices, List.zipIdx_append]

theorem commandSlices_mono (first : cmds <+: all) : commandSlices cmds <+: commandSlices all := by
  obtain ⟨rest, rfl⟩ := first
  induction rest using List.reverseRecOn with
  | nil => rw [List.append_nil]
  | append_singleton rest c ih =>
    rw [← List.append_assoc, commandSlices_append]
    exact ih.trans (List.prefix_append ..)

/-- The slice of a command keeps its number when more commands come. -/
theorem commandSlices_getElem {i : Nat} (first : cmds ++ [c] <+: all) (here : c.slices[i]? = some slice) :
    (commandSlices all)[(commandSlices cmds).length + i]? = some (cmds.length, slice) := by
  have mine : (commandSlices (cmds ++ [c]))[(commandSlices cmds).length + i]? = some (cmds.length, slice) := by
    rw [commandSlices_append, List.getElem?_append_right (by omega), Nat.add_sub_cancel_left, List.getElem?_map, here,
      Option.map_some]
  obtain ⟨inside, same⟩ := List.getElem?_eq_some_iff.mp mine
  rw [(commandSlices_mono first).getElem inside] at same
  exact List.getElem?_eq_some_iff.mpr ⟨_, same⟩

/-- A slice comes from a command, behind the slices of the commands before it. -/
theorem commandSlices_split (here : (commandSlices cmds)[k]? = some (n, slice)) :
    ∃ c before, cmds[n]? = some c ∧ slice ∈ c.slices ∧ (∀ s ∈ before, s ∈ c.slices) ∧
      ((commandSlices cmds).take k).map Prod.snd = (commandSlices (cmds.take n)).map Prod.snd ++ before := by
  induction cmds using List.reverseRecOn with
  | nil => simp [commandSlices] at here
  | append_singleton cmds c ih =>
    rw [commandSlices_append] at here ⊢
    by_cases low : k < (commandSlices cmds).length
    · rw [List.getElem?_append_left low] at here
      obtain ⟨c', before, named, member, inside, taken⟩ := ih here
      have short := (List.getElem?_eq_some_iff.mp named).1
      refine ⟨c', before, by rwa [List.getElem?_append_left short], member, inside, ?_⟩
      rw [List.take_append_of_le_length low.le, List.take_append_of_le_length short.le, taken]
    · rw [List.getElem?_append_right (by omega), List.getElem?_map, Option.map_eq_some_iff] at here
      obtain ⟨slice', named, same⟩ := here
      cases same
      refine ⟨c, c.slices.take (k - (commandSlices cmds).length), by simp, List.mem_of_getElem? named,
        fun s => List.mem_of_mem_take, ?_⟩
      rw [List.take_append, List.take_of_length_le (by omega), List.map_append, List.take_left, ← List.map_take,
        List.map_map]
      simp [Function.comp_def]

theorem hostBlock_eq (here : (commandSlices cmds)[k]? = some (n, slice)) :
    hostBlock cmds k p = ⟨n, slice.startIndex + (p - slice.nvmeBlockOffset)⟩ := by
  rw [hostBlock, here, Option.elim_some]

/-! ### The disk in the slices -/

theorem lastWrite_append_of_none (none : ∀ slice ∈ new, ¬ slice.Writes lsa p) :
    lastWrite lsa p (old ++ new) = lastWrite lsa p old := by
  induction new using List.reverseRecOn with
  | nil => rw [List.append_nil]
  | append_singleton new slice ih =>
    rw [← List.append_assoc, lastWrite_append, if_neg (none slice (by simp))]
    exact ih fun slice' member => none slice' (by simp [member])

theorem lastWrite_append_of_some (writes : ∃ slice ∈ new, slice.Writes lsa p) :
    ∃ i slice, new[i]? = some slice ∧ slice.Writes lsa p ∧ lastWrite lsa p (old ++ new) = some (old.length + i) := by
  induction new using List.reverseRecOn with
  | nil => simp at writes
  | append_singleton new slice ih =>
    rw [← List.append_assoc, lastWrite_append]
    by_cases last : slice.Writes lsa p
    · exact ⟨new.length, slice, by simp, last, by rw [if_pos last, List.length_append]⟩
    · obtain ⟨slice', member, written⟩ := writes
      have earlier : slice' ∈ new := by
        rcases List.mem_append.mp member with old | new
        · exact old
        · rw [List.mem_singleton.mp new] at written
          exact absurd written last
      obtain ⟨i, found, here, writes', same⟩ := ih ⟨slice', earlier, written⟩
      refine ⟨i, found, ?_, writes', by rw [if_neg last, same]⟩
      rw [List.getElem?_append_left (List.getElem?_eq_some_iff.mp here).1, here]

/-- A block that a slice writes is one of its WRITE. -/
theorem NvmeCommand.covers_of_writes (member : slice ∈ c.slices) (lba32 : c.opc = .flush ∨ c.cmd.startLba < 2 ^ 32)
    (writes : slice.Writes (lba / nvmeBlocksPerSlice) (lba % nvmeBlocksPerSlice)) : c.opc = .write ∧ c.Covers lba := by
  obtain ⟨code, lsa, from', below⟩ := writes
  have opc := (slice_code member).1.mp code
  have low : c.cmd.startLba < 2 ^ 32 := lba32.resolve_left (by simp [opc])
  obtain ⟨i, le, block, -⟩ := slice_block member low from' below
  refine ⟨opc, ?_⟩
  rw [blocksPerSlice_eq] at lsa block
  unfold Covers
  omega

/-- No slice of commands that leave a block alone writes it. -/
theorem lastWrite_of_unwritten (lba32 : ∀ c ∈ cmds, c.opc = .flush ∨ c.cmd.startLba < 2 ^ 32)
    (unwritten : ∀ c ∈ cmds, c.opc = .write → ¬ c.Covers lba) :
    lastWrite (lba / nvmeBlocksPerSlice) (lba % nvmeBlocksPerSlice) ((commandSlices cmds).map Prod.snd) = none := by
  have none := @lastWrite_append_of_none [] ((commandSlices cmds).map Prod.snd) (lba / nvmeBlocksPerSlice)
    (lba % nvmeBlocksPerSlice) ?_
  · rw [← List.nil_append ((commandSlices cmds).map Prod.snd), none]
    rfl
  · intro slice listed writes
    obtain ⟨⟨n, slice'⟩, member, rfl⟩ := List.mem_map.mp listed
    obtain ⟨⟨c, n'⟩, named, inside⟩ := List.mem_flatMap.mp member
    obtain ⟨slice', member, same⟩ := List.mem_map.mp inside
    cases same
    have command := List.mem_of_getElem? (List.mk_mem_zipIdx_iff_getElem?.mp named)
    obtain ⟨opc, covers⟩ := NvmeCommand.covers_of_writes member (lba32 c command) writes
    exact unwritten c command opc covers

/-- What is on the disk is what the last slice wrote that wrote the block. -/
theorem lastWrite_of_disk {d : D} (first : cmds <+: all)
    (lba32 : ∀ c ∈ cmds, c.opc = .flush ∨ c.cmd.startLba < 2 ^ 32) (written : diskAfter data cmds lba = some d) :
    ∃ k, lastWrite (lba / nvmeBlocksPerSlice) (lba % nvmeBlocksPerSlice) ((commandSlices cmds).map Prod.snd) = some k ∧
      sliceData all data k (lba % nvmeBlocksPerSlice) = d := by
  induction cmds using List.reverseRecOn with
  | nil => simp [diskAfter] at written
  | append_singleton cmds c ih =>
    have shape : (commandSlices (cmds ++ [c])).map Prod.snd = (commandSlices cmds).map Prod.snd ++ c.slices := by
      rw [commandSlices_append, List.map_append, List.map_map]
      simp [Function.comp_def]
    rw [diskAfter_append] at written
    rw [shape]
    by_cases mine : c.opc = .write ∧ c.Covers lba
    · obtain ⟨opc, covers⟩ := mine
      rw [if_pos ⟨opc, covers⟩, Option.some.injEq] at written
      have low : c.cmd.startLba < 2 ^ 32 := (lba32 c (by simp)).resolve_left (by simp [opc])
      obtain ⟨slice, member, lsa, from', below⟩ := NvmeCommand.exists_slice (.inl opc) low covers
      obtain ⟨i, slice', here, ⟨-, lsa', from'', below'⟩, last⟩ := @lastWrite_append_of_some
        ((commandSlices cmds).map Prod.snd) c.slices (lba / nvmeBlocksPerSlice) (lba % nvmeBlocksPerSlice)
        ⟨slice, member, (NvmeCommand.slice_code member).1.mpr opc, lsa, from', below⟩
      refine ⟨_, last, ?_⟩
      have named := commandSlices_getElem first here
      rw [← List.length_map Prod.snd] at named
      obtain ⟨j, -, block, index⟩ := NvmeCommand.slice_block (List.mem_of_getElem? here) low from'' below'
      have same : j = lba - c.cmd.startLba := by
        rw [blocksPerSlice_eq] at lsa' block
        omega
      rw [sliceData, hostBlock_eq named, ← written, index, same]
    · rw [if_neg mine] at written
      obtain ⟨k, last, same⟩ := ih ((List.prefix_append ..).trans first) (fun c' member => lba32 c' (by simp [member]))
        written
      refine ⟨k, ?_, same⟩
      rw [lastWrite_append_of_none, last]
      exact fun slice member writes => mine (NvmeCommand.covers_of_writes member (lba32 c (by simp)) writes)

/-- The blocks the slices ask for are those the commands ask for. -/
theorem blocksToRead_commandSlices (first : cmds <+: all)
    (lba32 : ∀ c ∈ cmds, c.opc = .flush ∨ c.cmd.startLba < 2 ^ 32) :
    (blocksToRead ((commandSlices cmds).map Prod.snd)).map (fun b => hostBlock all b.1 b.2) = blocksAsked cmds := by
  induction cmds using List.reverseRecOn with
  | nil => rfl
  | append_singleton cmds c ih =>
    have shape : (commandSlices (cmds ++ [c])).map Prod.snd = (commandSlices cmds).map Prod.snd ++ c.slices := by
      rw [commandSlices_append, List.map_append, List.map_map]
      simp [Function.comp_def]
    have split : blocksToRead ((commandSlices cmds).map Prod.snd ++ c.slices) =
        blocksToRead ((commandSlices cmds).map Prod.snd) ++ (c.slices.zipIdx (commandSlices cmds).length).flatMap fun s =>
          if s.1.reqCode = .read then (List.range s.1.numOfNvmeBlock).map fun i => (s.2, s.1.nvmeBlockOffset + i)
          else [] := by
      simp [blocksToRead, List.zipIdx_append]
    rw [shape, split, List.map_append, ih ((List.prefix_append ..).trans first) (fun c' member => lba32 c' (by simp [member])),
      blocksAsked_append, List.map_flatMap]
    congr 1
    by_cases opc : c.opc = .read
    · have low : c.cmd.startLba < 2 ^ 32 := (lba32 c (by simp)).resolve_left (by simp [opc])
      have each : ∀ s ∈ c.slices.zipIdx (commandSlices cmds).length,
          (if s.1.reqCode = .read then (List.range s.1.numOfNvmeBlock).map fun i => (s.2, s.1.nvmeBlockOffset + i)
            else []).map (fun b => hostBlock all b.1 b.2) =
          s.1.blocks.map fun block => HostBlock.mk cmds.length block.2 := by
        rintro ⟨slice, k⟩ listed
        obtain ⟨le, here⟩ := List.mk_mem_zipIdx_iff_le_and_getElem?_sub.mp listed
        have named := commandSlices_getElem first here
        rw [Nat.add_sub_cancel' le] at named
        rw [if_pos ((NvmeCommand.slice_code (List.mem_of_getElem? here)).2.mpr opc), SliceReq.blocks, span, List.map_map,
          List.map_map]
        refine List.map_congr_left fun i _ => ?_
        simp only [Function.comp_apply, hostBlock_eq named, Nat.add_sub_cancel_left]
      rw [if_pos opc, List.flatMap_congr each]
      calc (c.slices.zipIdx (commandSlices cmds).length).flatMap
            (fun s => s.1.blocks.map fun block => HostBlock.mk cmds.length block.2)
          = (((c.slices.zipIdx (commandSlices cmds).length).map Prod.fst).flatMap SliceReq.blocks).map
              fun block => HostBlock.mk cmds.length block.2 := by rw [List.flatMap_map, List.map_flatMap]
        _ = (c.slices.flatMap SliceReq.blocks).map fun block => HostBlock.mk cmds.length block.2 := by
            rw [List.zipIdx_map_fst]
        _ = (List.range (c.cmd.nlb + 1)).map (HostBlock.mk cmds.length) := by
            rw [NvmeCommand.slices_blocks (.inr opc) low, span, List.map_map]
            simp [Function.comp_def]
    · rw [if_neg opc, List.flatMap_eq_nil_iff]
      rintro ⟨slice, k⟩ listed
      have here := (List.mk_mem_zipIdx_iff_le_and_getElem?_sub.mp listed).2
      have code := (NvmeCommand.slice_code (List.mem_of_getElem? here)).2
      simp only [List.map_eq_nil_iff, ite_eq_right_iff]
      exact fun read => absurd (code.mp read) opc

end

/-! ### Runs -/

/-- The slice an input of the device consumes. -/
def DeviceInput.slices : DeviceInput → List SliceReq
  | .consume slice => [slice]
  | _ => []

theorem DeviceRunOk.step_slices {hostData : Nat → Nat → D} {erased : Nat → D} {m₀ : RequestPlace → Nat → D}
    {s s' : Device g D} {input : DeviceInput} (ok : DeviceRunOk hostData erased m₀ s) (allowed : input.Allowed s)
    (done : deviceStep hostData erased s input = some s') : s'.manager.slices = s.manager.slices ++ input.slices := by
  have performed : ∀ op, s.perform hostData erased op = some s' → s'.manager = s.manager := by
    intro op done
    simp only [Device.perform, Option.bind_eq_bind, Option.bind_eq_some_iff, Option.some.injEq] at done
    obtain ⟨t, -, rfl⟩ := done
    exact (Device.finish_foldl hostData erased _ _).1
  cases input with
  | consume slice =>
    simp only [deviceStep] at done
    split at done
    · cases done
    · simp only [Option.bind_eq_bind, Option.bind_eq_some_iff, Option.some.injEq, Prod.exists] at done
      obtain ⟨manager, requests, translated, rfl⟩ := done
      obtain ⟨real, -, safe⟩ := allowed.1 slice rfl
      obtain ⟨-, -, new, e, before, held, dma, what⟩ := ok.slices.translates real safe translated
      exact what.consumes.slices
  | submit | request =>
    simp only [deviceStep, Option.bind_eq_bind, Option.bind_eq_some_iff] at done
    obtain ⟨op, -, done⟩ := done
    rw [performed op done]
    exact (List.append_nil _).symm

/-- An input of the session for the device: what it consumes is the first slice that waits. -/
theorem HostSession.deviceInput_spec {s : HostSession g D} {input : HostInput} {d : DeviceInput}
    (named : s.deviceInput input = some d) :
    d.slices ++ s.rest input = s.sliceReqQ ∧ ∀ slice, d = .consume slice → slice ∈ s.sliceReqQ := by
  cases input with
  | command => cases named
  | slice =>
    obtain ⟨slice, first, rfl⟩ := Option.map_eq_some_iff.mp named
    obtain ⟨rest, shape⟩ := List.head?_eq_some_iff.mp first
    refine ⟨by simp [DeviceInput.slices, HostSession.rest, shape], ?_⟩
    rintro slice' ⟨⟩
    simp [shape]
  | submit | request =>
    cases named
    exact ⟨rfl, by simp⟩

/-- A command is fetched, or the device takes a step. -/
theorem hostStep_cases {cmds : List NvmeCommand} {data : Nat → Nat → D} {erased : Nat → D} {storageCapacityL : Nat}
    {s s' : HostSession g D} {input : HostInput} (done : hostStep cmds data erased storageCapacityL s input = some s') :
    (s.deviceInput input = none ∧ ∃ c, cmds[s.fetched]? = some c ∧
      handleNvmeIoCmd storageCapacityL c = some s'.sliceReqQ ∧ s.sliceReqQ = [] ∧ s.device.next = none ∧
      s'.device = s.device ∧ s'.fetched = s.fetched + 1) ∨
    ∃ d device, s.deviceInput input = some d ∧ deviceStep (sliceData cmds data) erased s.device d = some device ∧
      s' = { s with device := device, sliceReqQ := s.rest input } := by
  cases input with
  | command =>
    simp only [hostStep] at done
    split at done
    · rename_i idle
      simp only [Option.bind_eq_bind, Option.bind_eq_some_iff, Option.some.injEq] at done
      obtain ⟨c, named, slices, handled, rfl⟩ := done
      exact .inl ⟨rfl, c, named, handled, idle.1, idle.2, rfl, rfl⟩
    · cases done
  | slice | submit | request =>
    simp only [hostStep, Option.bind_eq_bind, Option.bind_eq_some_iff, Option.some.injEq] at done
    obtain ⟨d, named, device, stepped, rfl⟩ := done
    exact .inr ⟨d, device, named, stepped, rfl⟩

/-- What holds between two inputs. -/
structure HostOk (cmds : List NvmeCommand) (data : Nat → Nat → D) (erased : Nat → D) (m₀ : RequestPlace → Nat → D)
    (s : HostSession g D) : Prop where
  device : DeviceRunOk (sliceData cmds data) erased m₀ s.device
  few : s.fetched ≤ cmds.length
  admitted : ∀ c ∈ cmds.take s.fetched, c.opc = .flush ∨ c.cmd.startLba < 2 ^ 32
  slices : s.device.manager.slices ++ s.sliceReqQ = (commandSlices (cmds.take s.fetched)).map Prod.snd

section
variable {cmds : List NvmeCommand} {data : Nat → Nat → D} {erased : Nat → D} {m₀ : RequestPlace → Nat → D}
  {s s' : HostSession g D} {input : HostInput} {storageCapacityL : Nat}

namespace HostOk

/-- A slice that waits is one of a command. -/
theorem of_queued (ok : HostOk cmds data erased m₀ s) {slice : SliceReq} (queued : slice ∈ s.sliceReqQ) :
    ∃ c ∈ cmds.take s.fetched, slice ∈ c.slices := by
  have listed : slice ∈ (commandSlices (cmds.take s.fetched)).map Prod.snd := by
    rw [← ok.slices]
    exact List.mem_append_right _ queued
  obtain ⟨⟨n, slice'⟩, member, rfl⟩ := List.mem_map.mp listed
  obtain ⟨⟨c, n'⟩, named, inside⟩ := List.mem_flatMap.mp member
  obtain ⟨slice', member, same⟩ := List.mem_map.mp inside
  cases same
  exact ⟨c, List.mem_of_getElem? (List.mk_mem_zipIdx_iff_getElem?.mp named), member⟩

/-- A slice that waits stays inside a real address. -/
theorem queued_fits (ok : HostOk cmds data erased m₀ s) {slice : SliceReq} (queued : slice ∈ s.sliceReqQ) :
    slice.logicalSliceAddr ≠ lsaNone ∧ slice.nvmeBlockOffset + slice.numOfNvmeBlock ≤ nvmeBlocksPerSlice := by
  obtain ⟨c, listed, member⟩ := ok.of_queued queued
  obtain ⟨nonempty, fits⟩ := NvmeCommand.slice_aligned member
  refine ⟨?_, fits⟩
  obtain ⟨code, -, opc⟩ := NvmeCommand.mem_slices member
  have some : c.opc ≠ .flush := by rcases opc with ⟨opc, -⟩ | ⟨opc, -⟩ <;> simp [opc]
  have low : c.cmd.startLba < 2 ^ 32 := (ok.admitted c listed).resolve_left some
  obtain ⟨i, le, block, -⟩ := NvmeCommand.slice_block (p := slice.nvmeBlockOffset) member low le_rfl (by omega)
  have short := c.nlb_lt
  rw [blocksPerSlice_eq] at block
  unfold lsaNone
  omega

/-- What the session lets the device do, the device may do. -/
theorem allowed (ok : HostOk cmds data erased m₀ s) (allowed : input.Allowed s) {d : DeviceInput}
    (named : s.deviceInput input = some d) : d.Allowed s.device := by
  obtain ⟨safe, keeps⟩ := allowed d named
  refine ⟨fun slice consumed => ?_, keeps⟩
  obtain ⟨real, fits⟩ := ok.queued_fits ((HostSession.deviceInput_spec named).2 slice consumed)
  exact ⟨real, fits, safe slice consumed⟩

theorem init (bad : Nat → Nat → Bool)
    (two : ∀ dieNo < g.userDies, 2 ≤ (goodBlocks (bad dieNo) g.userBlocksPerDie).length)
    (small : g.userPagesPerBlock < 4096) : HostOk cmds data erased m₀ (initHostSession g bad m₀) where
  device := .init bad two small
  few := Nat.zero_le _
  admitted := by simp [initHostSession]
  slices := rfl

theorem step (small : g.userPagesPerBlock < 4096) (fits : storageCapacityL < 2 ^ 32) (ok : HostOk cmds data erased m₀ s)
    (allowed : input.Allowed s) (done : hostStep cmds data erased storageCapacityL s input = some s') :
    HostOk cmds data erased m₀ s' := by
  rcases hostStep_cases done with ⟨-, c, named, handled, none, -, device, fetched⟩ | ⟨d, device, named, stepped, rfl⟩
  · obtain ⟨slices, low⟩ := handleNvmeIoCmd_slices handled
    obtain ⟨inside, here⟩ := List.getElem?_eq_some_iff.mp named
    have taken : cmds.take s'.fetched = cmds.take s.fetched ++ [c] := by
      rw [fetched, List.take_succ_eq_append_getElem inside, here]
    refine ⟨device ▸ ok.device, fetched ▸ inside, ?_, ?_⟩
    · rw [taken]
      intro c' member
      rcases List.mem_append.mp member with old | new
      · exact ok.admitted c' old
      · rw [List.mem_singleton.mp new]
        exact low.imp_right fun low => low.trans fits
    · have consumed := ok.slices
      rw [none, List.append_nil] at consumed
      rw [taken, commandSlices_append, List.map_append, device, consumed, List.map_map, slices]
      simp [Function.comp_def]
  · have may := ok.allowed allowed named
    refine ⟨ok.device.step small may stepped, ok.few, ok.admitted, ?_⟩
    change device.manager.slices ++ s.rest input = _
    rw [ok.device.step_slices may stepped, List.append_assoc, (HostSession.deviceInput_spec named).1, ok.slices]

/-- A block of a READ slice is one of its command, and the slices before it have written what
the commands before have. -/
theorem block_of_slice (ok : HostOk cmds data erased m₀ s) {k p : Nat} {slice : SliceReq}
    (here : s.device.manager.slices[k]? = some slice) (read : slice.reqCode = .read) (low : slice.nvmeBlockOffset ≤ p)
    (high : p < slice.nvmeBlockOffset + slice.numOfNvmeBlock) :
    ∃ n c i, hostBlock cmds k p = ⟨n, i⟩ ∧ n < s.fetched ∧ cmds[n]? = some c ∧ c.opc = .read ∧ i ≤ c.cmd.nlb ∧
      (c.cmd.startLba + i) / nvmeBlocksPerSlice = slice.logicalSliceAddr ∧
      (c.cmd.startLba + i) % nvmeBlocksPerSlice = p ∧
      ∀ lsa p, lastWrite lsa p (s.device.manager.slices.take k) =
        lastWrite lsa p ((commandSlices (cmds.take n)).map Prod.snd) := by
  have inside := (List.getElem?_eq_some_iff.mp here).1
  have listed : ((commandSlices (cmds.take s.fetched)).map Prod.snd)[k]? = some slice := by
    rw [← ok.slices, List.getElem?_append_left inside, here]
  rw [List.getElem?_map, Option.map_eq_some_iff] at listed
  obtain ⟨⟨n, slice'⟩, listed, same⟩ := listed
  cases same
  obtain ⟨c, before, named, member, reads, taken⟩ := commandSlices_split listed
  have opc := (NvmeCommand.slice_code member).2.mp read
  have lba32 : c.cmd.startLba < 2 ^ 32 :=
    (ok.admitted c (List.mem_of_getElem? named)).resolve_left (by simp [opc])
  have named' : (commandSlices cmds)[k]? = some (n, slice') := by
    obtain ⟨short, same⟩ := List.getElem?_eq_some_iff.mp listed
    rw [(commandSlices_mono (List.take_prefix s.fetched cmds)).getElem short] at same
    exact List.getElem?_eq_some_iff.mpr ⟨_, same⟩
  have short := (List.getElem?_eq_some_iff.mp named).1
  rw [List.length_take] at short
  rw [List.getElem?_take_of_lt (by omega)] at named
  obtain ⟨i, le, block, index⟩ := NvmeCommand.slice_block member lba32 low high
  have within : p < nvmeBlocksPerSlice := high.trans_le (NvmeCommand.slice_aligned member).2
  have place : (c.cmd.startLba + i) / nvmeBlocksPerSlice = slice'.logicalSliceAddr ∧
      (c.cmd.startLba + i) % nvmeBlocksPerSlice = p := by
    rw [blocksPerSlice_eq] at block within ⊢
    omega
  refine ⟨n, c, i, by rw [hostBlock_eq named', index], by omega, named, opc, le, place.1, place.2, fun lsa q => ?_⟩
  have earlier : s.device.manager.slices.take k = (commandSlices (cmds.take n)).map Prod.snd ++ before := by
    have cut : (cmds.take s.fetched).take n = cmds.take n := by rw [List.take_take, Nat.min_eq_left (by omega)]
    rw [cut, List.map_take, ← ok.slices, List.take_append_of_le_length inside.le] at taken
    exact taken
  rw [earlier, lastWrite_append_of_none]
  rintro slice member ⟨write, -⟩
  have write' := (NvmeCommand.slice_code (reads slice member)).1.mp write
  rw [opc] at write'
  cases write'

/-- The commands before a fetched one were admitted. -/
theorem admitted_take (ok : HostOk cmds data erased m₀ s) {n : Nat} (fetched : n < s.fetched) :
    ∀ c ∈ cmds.take n, c.opc = .flush ∨ c.cmd.startLba < 2 ^ 32 :=
  fun c member => ok.admitted c (List.take_subset_take_left cmds (by omega) member)

/-- Every block that was delivered is what the commands before its READ left on the disk. -/
theorem delivered (ok : HostOk cmds data erased m₀ s) : ∀ b ∈ s.delivered cmds,
    ∃ c, cmds[b.1.command]? = some c ∧ c.opc = .read ∧ b.1.index ≤ c.cmd.nlb ∧
      ∀ d, diskAfter data (cmds.take b.1.command) (c.cmd.startLba + b.1.index) = some d → b.2 = d := by
  intro b member
  obtain ⟨delivery, listed, rfl⟩ := List.mem_map.mp member
  obtain ⟨slice, here, read, low, high, last⟩ := ok.device.delivers delivery listed
  obtain ⟨n, c, i, block, fetched, named, opc, le, lsa, place, before⟩ := ok.block_of_slice here read low high
  simp only [block]
  refine ⟨c, named, opc, le, fun d written => ?_⟩
  obtain ⟨k, wrote, same⟩ := lastWrite_of_disk (List.take_prefix n cmds) (ok.admitted_take fetched) written
  rw [lsa, place, ← before] at wrote
  rw [place] at same
  rw [← same]
  exact last k wrote

/-- With nothing left to do, every block a READ asked for was delivered, once. -/
theorem answered (ok : HostOk cmds data erased m₀ s) (idle : s.Idle) :
    ((s.delivered cmds).map Prod.fst).Perm (blocksAsked (cmds.take s.fetched)) := by
  have slices := ok.slices
  rw [idle.1, List.append_nil] at slices
  have all := (ok.device.answersAll idle.2).map fun b => hostBlock cmds b.1 b.2
  rw [slices, blocksToRead_commandSlices (List.take_prefix ..) ok.admitted, List.map_map] at all
  rw [HostSession.delivered, List.map_map]
  exact all

/-- And everything on the disk is held. -/
theorem held (ok : HostOk cmds data erased m₀ s) (idle : s.Idle) {lba : Nat} {d : D}
    (written : diskAfter data (cmds.take s.fetched) lba = some d) :
    s.device.Holds (lba / nvmeBlocksPerSlice) (lba % nvmeBlocksPerSlice) d := by
  have slices := ok.slices
  rw [idle.1, List.append_nil] at slices
  obtain ⟨k, last, same⟩ := lastWrite_of_disk (List.take_prefix ..) ok.admitted written
  rw [← slices] at last
  rw [← same]
  exact ok.device.holds idle.2 _ _ k (Nat.mod_lt _ (by decide)) last

end HostOk

/-- Some slots from `x` on are allocated and submitted. -/
def submitsFrom (x count : Nat) : List HostInput :=
  (List.range count).flatMap fun i => [.request (.alloc []), .submit (x + i) []]

def freshSession : HostSession oneDie Nat := initHostSession oneDie (fun _ _ => false) fun _ _ => 777

end

end OcpFw
