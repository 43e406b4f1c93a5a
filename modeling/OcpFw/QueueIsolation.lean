import OcpFw.QueueAdministration

/-! What a command that creates or deletes a queue touches. A creation is checked; a deletion
is not, and its index may be that of another entry, another register or no entry at all. -/
namespace OcpFw
open ByteMemory
open Runs (Run)

variable {s s' s₀ : NvmeController} {cmd : NvmeAdminCommand} {reserved1 : BitVec 3} {c d : QueueCommand}
  {cmds before rest : List QueueCommand} {a i : BitVec 32}

/-! ### The handlers -/

namespace NvmeController

/-- The effect of a handler that returns: stores to one entry, and the two dwords of a register. -/
structure Writes (entry : BitVec 32) (size : Nat) (register : BitVec 32) (s s' : NvmeController) : Prop where
  frame : Frame s.memory s'.memory entry size
  regWrites : ∃ dword0 dword1, s'.regWrites = s.regWrites ++ [(register, dword0), (register + 4, dword1)]

/-- The same, with the fields that are stored. -/
structure Stores (entry : BitVec 32) (fields : List (Field 32)) (register : BitVec 32) (s s' : NvmeController) :
    Prop where
  memory : s'.memory = storeFields s.memory entry fields
  regWrites : ∃ dword0 dword1, s'.regWrites = s.regWrites ++ [(register, dword0), (register + 4, dword1)]

theorem Stores.writes {entry register : BitVec 32} {fields : List (Field 32)} {size : Nat}
    (stores : Stores entry fields register s s') (part : ∀ f ∈ fields, f.offset.toNat + f.width ≤ size)
    (small : size ≤ 2 ^ 32) : Writes entry size register s s' :=
  ⟨stores.memory ▸ Frame.of_storeFields part small, stores.regWrites⟩

@[simp] theorem store_memory (s : NvmeController) (addr : BitVec 32) (width : Nat) {v : Nat} (value : BitVec v) :
    (s.store addr width value).memory = ByteMemory.store s.memory addr width value := rfl

@[simp] theorem setIoSq_memory (s : NvmeController) (reserved1 : BitVec 3) (ioSqIdx valid cqVector qSzie l h : BitVec 32) :
    (s.setIoSq reserved1 ioSqIdx valid cqVector qSzie l h).memory = s.memory := rfl

@[simp] theorem setIoCq_memory (s : NvmeController) (reserved1 : BitVec 3)
    (ioCqIdx valid irqEn irqVector qSzie l h : BitVec 32) :
    (s.setIoCq reserved1 ioCqIdx valid irqEn irqVector qSzie l h).memory = s.memory := rfl

theorem setIoSq_regWrites (s : NvmeController) (reserved1 : BitVec 3) (ioSqIdx valid cqVector qSzie l h : BitVec 32) :
    ∃ dword0 dword1, (s.setIoSq reserved1 ioSqIdx valid cqVector qSzie l h).regWrites =
      s.regWrites ++ [(nvmeIoSqSetRegAddr + ioSqIdx * 8, dword0), (nvmeIoSqSetRegAddr + ioSqIdx * 8 + 4, dword1)] :=
  ⟨_, _, by simp [setIoSq, ioWrite32]; exact ⟨rfl, rfl⟩⟩

theorem setIoCq_regWrites (s : NvmeController) (reserved1 : BitVec 3)
    (ioCqIdx valid irqEn irqVector qSzie l h : BitVec 32) :
    ∃ dword0 dword1, (s.setIoCq reserved1 ioCqIdx valid irqEn irqVector qSzie l h).regWrites =
      s.regWrites ++ [(nvmeIoCqSetRegAddr + ioCqIdx * 8, dword0), (nvmeIoCqSetRegAddr + ioCqIdx * 8 + 4, dword1)] :=
  ⟨_, _, by simp [setIoCq, ioWrite32]; exact ⟨rfl, rfl⟩⟩

theorem handleCreateIoSq_spec (s : NvmeController) (reserved1 : BitVec 3)
    (aligned : cmd.prp1L &&& 3 = 0 ∧ cmd.prp1H < 0x10000)
    (fields : 0 < cmd.QID ∧ cmd.QID ≤ 8 ∧ cmd.QSIZE < 0x100 ∧ 0 < cmd.CQID ∧ cmd.CQID ≤ 8) :
    ∃ s', s.handleCreateIoSq cmd reserved1 = .ok (s', ⟨0, 0⟩) ∧
      Stores (ioSqStatusAddr (cmd.QID.setWidth 32 - 1))
        [⟨0, 1, (1 : BitVec 8)⟩, ⟨2, 2, cmd.QSIZE⟩, ⟨1, 1, cmd.CQID.setWidth 8⟩, ⟨4, 4, cmd.prp1L⟩, ⟨8, 4, cmd.prp1H⟩]
        (nvmeIoSqSetRegAddr + (cmd.QID.setWidth 32 - 1) * 8) s s' := by
  rw [handleCreateIoSq, if_neg (not_not.mpr aligned), if_neg (not_not.mpr fields)]
  exact ⟨_, rfl, by simp [storeFields], setIoSq_regWrites _ ..⟩

theorem handleDeleteIoSq_spec (s : NvmeController) (cmd : NvmeAdminCommand) (reserved1 : BitVec 3) :
    ∃ s', s.handleDeleteIoSq cmd reserved1 = .ok (s', ⟨0, 0⟩) ∧
      Stores (ioSqStatusAddr (cmd.QID.setWidth 32 - 1))
        [⟨0, 1, (0 : BitVec 8)⟩, ⟨1, 1, (0 : BitVec 8)⟩, ⟨2, 2, (0 : BitVec 16)⟩, ⟨4, 4, (0 : BitVec 32)⟩,
          ⟨8, 4, (0 : BitVec 32)⟩]
        (nvmeIoSqSetRegAddr + (cmd.QID.setWidth 32 - 1) * 8) s s' :=
  ⟨_, rfl, by simp [storeFields], setIoSq_regWrites _ ..⟩

/-- The enable bit of the interrupt takes a byte, and two bytes of the entry are not written. -/
theorem handleCreateIoCq_spec (s : NvmeController) (reserved1 : BitVec 3)
    (aligned : cmd.prp1L &&& 3 = 0 ∧ cmd.prp1H < 0x10000)
    (fields : cmd.IV < 8 ∧ cmd.QSIZE < 0x100 ∧ 0 < cmd.QID ∧ cmd.QID ≤ 8) :
    ∃ s', s.handleCreateIoCq cmd reserved1 = .ok (s', ⟨0, 0⟩) ∧
      Stores (ioCqStatusAddr (cmd.QID.setWidth 32 - 1))
        [⟨0, 1, (1 : BitVec 8)⟩, ⟨6, 2, cmd.QSIZE⟩, ⟨1, 1, cmd.IEN.setWidth 8⟩, ⟨4, 2, cmd.IV⟩, ⟨8, 4, cmd.prp1L⟩,
          ⟨12, 4, cmd.prp1H⟩]
        (nvmeIoCqSetRegAddr + (cmd.QID.setWidth 32 - 1) * 8) s s' := by
  rw [handleCreateIoCq, if_neg (not_not.mpr aligned), if_neg (not_not.mpr fields)]
  exact ⟨_, rfl, by simp [storeFields], setIoCq_regWrites _ ..⟩

/-- The fields that are cleared leave three bytes. -/
theorem handleDeleteIoCq_spec (s : NvmeController) (cmd : NvmeAdminCommand) (reserved1 : BitVec 3) :
    ∃ s', s.handleDeleteIoCq cmd reserved1 = .ok (s', ⟨0, 0⟩) ∧
      Stores (ioCqStatusAddr (cmd.QID.setWidth 32 - 1))
        [⟨0, 1, (0 : BitVec 8)⟩, ⟨4, 2, (0 : BitVec 16)⟩, ⟨6, 2, (0 : BitVec 16)⟩, ⟨8, 4, (0 : BitVec 32)⟩,
          ⟨12, 4, (0 : BitVec 32)⟩]
        (nvmeIoCqSetRegAddr + (cmd.QID.setWidth 32 - 1) * 8) s s' :=
  ⟨_, rfl, by simp [storeFields], setIoCq_regWrites _ ..⟩

/-- After a creation the byte of the enable bit holds it. -/
theorem Stores.irqEn {entry register : BitVec 32} {irqEn : BitVec 8} {qSzie irqVector : BitVec 16} {l h : BitVec 32}
    (stores : Stores entry [⟨0, 1, (1 : BitVec 8)⟩, ⟨6, 2, qSzie⟩, ⟨1, 1, irqEn⟩, ⟨4, 2, irqVector⟩, ⟨8, 4, l⟩,
      ⟨12, 4, h⟩] register s s') : s'.memory (entry + 1) = irqEn := by
  have last : storeFields s.memory entry ([⟨0, 1, (1 : BitVec 8)⟩, ⟨6, 2, qSzie⟩] ++
      ⟨1, 1, irqEn⟩ :: [⟨4, 2, irqVector⟩, ⟨8, 4, l⟩, ⟨12, 4, h⟩]) (entry + 1) = _ :=
    storeFields_of_last (by simp) (by simp [Field.Covers])
  rw [stores.memory]
  refine last.trans ?_
  rw [store_first, BitVec.setWidth_eq]

/-- A deletion clears the entry of a completion queue but for three bytes. -/
theorem Stores.cleared {entry register : BitVec 32}
    (stores : Stores entry [⟨0, 1, (0 : BitVec 8)⟩, ⟨4, 2, (0 : BitVec 16)⟩, ⟨6, 2, (0 : BitVec 16)⟩,
      ⟨8, 4, (0 : BitVec 32)⟩, ⟨12, 4, (0 : BitVec 32)⟩] register s s') :
    (∀ a, Within entry sizeofIoCqStatus a → ¬ Within (entry + 1) 3 a → s'.memory a = 0) ∧
      ∀ a, Within (entry + 1) 3 a → s'.memory a = s.memory a := by
  rw [stores.memory]
  constructor
  · intro a inside cleared
    rw [within_add (by decide)] at cleared
    refine storeFields_zero (by simp) (by simp) (.inr ?_)
    simp only [Within, sizeofIoCqStatus] at inside
    generalize (a - entry).toNat = distance at inside cleared ⊢
    simp [Field.Covers] at cleared ⊢
    omega
  · intro a inside
    rw [within_add (by decide)] at inside
    refine storeFields_of_uncovered (by simp) ?_
    generalize (a - entry).toNat = distance at inside ⊢
    simp [Field.Covers] at inside ⊢
    omega

end NvmeController

/-! ### One command -/

namespace QueueCommand
open NvmeController

/-- A deletion of the queue that the other command creates. -/
def Undoes (d c : QueueCommand) : Prop :=
  c.create = true ∧ d.create = false ∧ d.kind = c.kind ∧ d.cmd.QID = c.cmd.QID

theorem idx_lt (addresses : c.Addresses) : c.idx < 8 := by
  obtain ⟨positive, low⟩ := addresses
  unfold idx
  bv_omega

theorem Passes.addresses (passes : c.Passes) (create : c.create = true) : c.Addresses := by
  have fields := (passes create).2
  have order (q : BitVec 16) : 0 < q → 1 ≤ q := by bv_omega
  cases kind : c.kind with
  | submission =>
    simp only [kind] at fields
    exact ⟨order _ fields.1, fields.2.1⟩
  | completion =>
    simp only [kind] at fields
    exact ⟨order _ fields.2.2.1, fields.2.2.2⟩

/-- A command that fails an `ASSERT` changes nothing. -/
theorem handle_of_not_passes (fails : ¬ c.Passes) (s : NvmeController) : c.handle s = .error s := by
  obtain ⟨kind, create, cmd, reserved1⟩ := c
  cases create with
  | false => exact absurd (fun create => by cases create) fails
  | true =>
    cases kind with
    | submission =>
      simp only [handle, handleCreateIoSq]
      by_cases aligned : cmd.prp1L &&& 3 = 0 ∧ cmd.prp1H < 0x10000
      · have fields : ¬ (0 < cmd.QID ∧ cmd.QID ≤ 8 ∧ cmd.QSIZE < 0x100 ∧ 0 < cmd.CQID ∧ cmd.CQID ≤ 8) :=
          fun fields => fails fun _ => ⟨aligned, fields⟩
        rw [if_neg (not_not.mpr aligned), if_pos fields]
      · rw [if_pos aligned]
    | completion =>
      simp only [handle, handleCreateIoCq]
      by_cases aligned : cmd.prp1L &&& 3 = 0 ∧ cmd.prp1H < 0x10000
      · have fields : ¬ (cmd.IV < 8 ∧ cmd.QSIZE < 0x100 ∧ 0 < cmd.QID ∧ cmd.QID ≤ 8) :=
          fun fields => fails fun _ => ⟨aligned, fields⟩
        rw [if_neg (not_not.mpr aligned), if_pos fields]
      · rw [if_pos aligned]

theorem entrySize_le (c : QueueCommand) : c.entrySize ≤ 2 ^ 32 := by
  unfold entrySize
  cases c.kind <;> decide

/-- A command that passes touches the entry and the register with its index. -/
theorem handle_spec (passes : c.Passes) (s : NvmeController) :
    c.handle s = .ok (c.after s, ⟨0, 0⟩) ∧ Writes c.entry c.entrySize c.register s (c.after s) := by
  obtain ⟨kind, create, cmd, reserved1⟩ := c
  cases kind <;> cases create
  case submission.true =>
    obtain ⟨aligned, fields⟩ := passes rfl
    obtain ⟨s', done, stores⟩ := handleCreateIoSq_spec s reserved1 aligned fields
    simp only [after, handle, done]
    exact ⟨trivial, stores.writes (by simp [entrySize, sizeofIoSqStatus]) (entrySize_le _)⟩
  case submission.false =>
    obtain ⟨s', done, stores⟩ := handleDeleteIoSq_spec s cmd reserved1
    simp only [after, handle, done]
    exact ⟨trivial, stores.writes (by simp [entrySize, sizeofIoSqStatus]) (entrySize_le _)⟩
  case completion.true =>
    obtain ⟨aligned, fields⟩ := passes rfl
    obtain ⟨s', done, stores⟩ := handleCreateIoCq_spec s reserved1 aligned fields
    simp only [after, handle, done]
    exact ⟨trivial, stores.writes (by simp [entrySize, sizeofIoCqStatus]) (entrySize_le _)⟩
  case completion.false =>
    obtain ⟨s', done, stores⟩ := handleDeleteIoCq_spec s cmd reserved1
    simp only [after, handle, done]
    exact ⟨trivial, stores.writes (by simp [entrySize, sizeofIoCqStatus]) (entrySize_le _)⟩

/-- No command writes the two reserved bytes of the entry of its completion queue. -/
theorem reserved0_kept (passes : c.Passes) (completion : c.kind = .completion) (s : NvmeController)
    (inside : Within (c.entry + 2) 2 a) : (c.after s).memory a = s.memory a := by
  obtain ⟨kind, create, cmd, reserved1⟩ := c
  cases completion
  simp only [entry, idx, within_add (n := 32) (k := 2) (w := 2) (by decide)] at inside
  cases create with
  | false =>
    obtain ⟨s', done, stores⟩ := handleDeleteIoCq_spec s cmd reserved1
    simp only [after, handle, done, stores.memory]
    refine storeFields_of_uncovered (by simp) ?_
    generalize (a - ioCqStatusAddr _).toNat = distance at inside ⊢
    simp [Field.Covers] at inside ⊢
    omega
  | true =>
    obtain ⟨aligned, fields⟩ := passes rfl
    obtain ⟨s', done, stores⟩ := handleCreateIoCq_spec s reserved1 aligned fields
    simp only [after, handle, done, stores.memory]
    refine storeFields_of_uncovered (by simp) ?_
    generalize (a - ioCqStatusAddr _).toNat = distance at inside ⊢
    simp [Field.Covers] at inside ⊢
    omega

/-- A deletion right after a creation: the enable bit of the interrupt is what stays. -/
theorem zero_entry_iff (passes : c.Passes) (undoes : Undoes d c) (s : NvmeController)
    (clear : c.kind = .completion → Zero s.memory (c.entry + 2) 2) :
    Zero (d.after (c.after s)).memory c.entry c.entrySize ↔ (c.kind = .completion → c.cmd.IEN = 0) := by
  obtain ⟨_, create, cmd, reserved1⟩ := c
  obtain ⟨kind, create', cmd', reserved1'⟩ := d
  obtain ⟨rfl, rfl, rfl, QID⟩ : create = true ∧ create' = false ∧ kind = _ ∧ cmd'.QID = cmd.QID := undoes
  cases kind with
  | submission =>
    obtain ⟨s', done, stores⟩ := handleDeleteIoSq_spec (after ⟨.submission, true, cmd, reserved1⟩ s) cmd' reserved1'
    rw [QID] at stores
    simp only [after, handle] at done stores ⊢
    rw [done]
    refine ⟨by simp, fun _ a inside => ?_⟩
    rw [stores.memory]
    refine storeFields_zero (by simp) (by simp) (.inr ?_)
    simp only [Within, entry, entrySize, idx, sizeofIoSqStatus] at inside
    generalize (a - ioSqStatusAddr _).toNat = distance at inside ⊢
    simp [Field.Covers]
    omega
  | completion =>
    obtain ⟨aligned, fields⟩ := passes rfl
    obtain ⟨s', done, stores⟩ := handleCreateIoCq_spec s reserved1 aligned fields
    obtain ⟨s'', done', stores'⟩ := handleDeleteIoCq_spec s' cmd' reserved1'
    have reserved {a : BitVec 32} := reserved0_kept (a := a) passes rfl s
    have irqEn := stores.irqEn
    rw [QID] at stores'
    obtain ⟨cleared, kept'⟩ := stores'.cleared
    simp only [after, handle, done, done', entry, entrySize, idx] at clear reserved ⊢
    generalize ioCqStatusAddr _ = entry at *
    have stays : s''.memory (entry + 1) = cmd.IEN.setWidth 8 := by
      rw [kept' (entry + 1) (by simp [Within]), irqEn]
    constructor
    · intro zero _
      have narrow : ∀ b : BitVec 1, b.setWidth 8 = (0 : BitVec 8) → b = 0 := by decide
      refine narrow _ (stays.symm.trans (zero (entry + 1) ?_))
      simp [Within, sizeofIoCqStatus]
    · intro disabled a inside
      by_cases uncleared : Within (entry + 1) 3 a
      · by_cases first : a = entry + 1
        · rw [first, stays, disabled trivial]
          rfl
        · have inside0 : Within (entry + 2) 2 a := by
            have second : (a - entry).toNat ≠ 1 :=
              fun same => first (sub_eq_iff_eq_add'.mp (BitVec.eq_of_toNat_eq same))
            rw [within_add (by decide)] at uncleared ⊢
            simp only [BitVec.ofNat_eq_ofNat, BitVec.toNat_ofNat, Nat.reducePow, Nat.reduceMod] at uncleared ⊢
            omega
          rw [kept' a uncleared]
          exact (reserved inside0).trans (clear trivial a inside0)
      · exact cleared a inside uncleared

theorem serve_iff : serveQueueCommand s c = some s' ↔ c.Passes ∧ s' = c.after s := by
  by_cases passes : c.Passes
  · rw [serveQueueCommand, (handle_spec passes s).1]
    simp [passes, eq_comm]
  · rw [serveQueueCommand, handle_of_not_passes passes s]
    simp [passes]

end QueueCommand

/-! ### Runs -/

/-- The commands up to a state are those that passed. -/
theorem queueRun_iff : Run serveQueueCommand (fun _ _ => True) s₀ cmds s ↔
    (∀ c ∈ cmds, c.Passes) ∧ s = cmds.foldl (fun s c => c.after s) s₀ := by
  induction cmds using List.reverseRecOn generalizing s with
  | nil =>
    refine ⟨fun run => ?_, fun ⟨_, last⟩ => last ▸ .nil⟩
    generalize none : [] = cmds at run
    cases run with
    | nil => exact ⟨by simp, rfl⟩
    | snoc => simp at none
  | append_singleton cmds c ih =>
    rw [List.foldl_concat]
    constructor
    · intro run
      generalize all : cmds ++ [c] = cmds' at run
      cases run with
      | nil => simp at all
      | snoc before _ step =>
        obtain ⟨rfl, rfl⟩ := List.append_singleton_inj.mp all
        obtain ⟨passed, rfl⟩ := ih.mp before
        obtain ⟨passes, rfl⟩ := QueueCommand.serve_iff.mp step
        exact ⟨fun b member => (List.mem_append.mp member).elim (passed b) (fun last => List.mem_singleton.mp last ▸ passes),
          rfl⟩
    · rintro ⟨passed, rfl⟩
      have before := ih.mpr ⟨fun b member => passed b (List.mem_append_left _ member), rfl⟩
      exact before.snoc trivial (QueueCommand.serve_iff.mpr ⟨passed c (by simp), rfl⟩)

/-! ### Sequences of commands -/

/-- Only the entry and the register of the queue change, and without a queue nothing. -/
def OnlyItsQueue (c : QueueCommand) (s s' : NvmeController) : Prop :=
  if c.Addresses then
    Frame s.memory s'.memory c.entry c.entrySize ∧ ∃ writes, s'.regWrites = s.regWrites ++ writes ∧
      ∀ write ∈ writes, write.1 = c.register ∨ write.1 = c.register + 4
  else (∀ a, Within 0 sizeofNvmeContext a → s'.memory a = s.memory a) ∧ s'.regWrites = s.regWrites

/-- Every command that is served keeps to its queue, and a deletion right after the creation
leaves zeros in the entry. -/
structure Isolated (s₀ : NvmeController) (cmds : List QueueCommand) : Prop where
  only : ∀ before c rest s, cmds = before ++ c :: rest → Run serveQueueCommand (fun _ _ => True) s₀ before s →
    OnlyItsQueue c s (c.after s)
  restored : ∀ before c d rest s, cmds = before ++ c :: d :: rest → d.Undoes c →
    Run serveQueueCommand (fun _ _ => True) s₀ (before ++ [c, d]) s → Zero s.memory c.entry c.entrySize

/-- The deletions that are served are of queues. -/
def DeletesAddress (cmds : List QueueCommand) : Prop :=
  ∀ before c rest, cmds = before ++ c :: rest → (∀ b ∈ before, b.Passes) → c.create = false → c.Addresses

/-- Besides, a completion queue that is deleted right after its creation was created without
its interrupt. -/
structure NamesQueues (cmds : List QueueCommand) : Prop where
  deletes : DeletesAddress cmds
  interrupts : ∀ before c d rest, cmds = before ++ c :: d :: rest → (∀ b ∈ before, b.Passes) → c.Passes →
    d.Undoes c → c.kind = .completion → c.cmd.IEN = 0

/-- The reserved bytes of all completion queues are zero. -/
def ReservedClear (s : NvmeController) : Prop := ∀ i : BitVec 32, i < 8 → Zero s.memory (ioCqStatusAddr i + 2) 2

theorem ioSqStatusAddr_toNat (low : i < 8) : (ioSqStatusAddr i).toNat = 16 + i.toNat * 12 := by
  unfold ioSqStatusAddr ioSqInfo
  have : i.toNat < 8 := low
  simp only [BitVec.toNat_add, BitVec.toNat_mul, BitVec.ofNat_eq_ofNat, BitVec.toNat_ofNat]
  omega

theorem ioCqStatusAddr_toNat (low : i < 8) : (ioCqStatusAddr i).toNat = 112 + i.toNat * 16 := by
  unfold ioCqStatusAddr ioCqInfo
  have : i.toNat < 8 := low
  simp only [BitVec.toNat_add, BitVec.toNat_mul, BitVec.ofNat_eq_ofNat, BitVec.toNat_ofNat]
  omega

/-- The reserved bytes of another entry are not in the entry of a queue. -/
theorem reserved_outside (addresses : c.Addresses) (low : i < 8) (other : c.kind = .completion → i ≠ c.idx)
    (inside : Within (ioCqStatusAddr i + 2) 2 a) : ¬ Within c.entry c.entrySize a := by
  have own := QueueCommand.idx_lt addresses
  have first := ioCqStatusAddr_toNat low
  have : i.toNat < 8 := low
  have : c.idx.toNat < 8 := own
  replace inside : Within (ioCqStatusAddr i + 0) 16 a := inside.part (by decide) (by decide) (by decide) (by decide)
  rw [add_zero, within_iff (by omega)] at inside
  cases kind : c.kind with
  | submission =>
    have last := ioSqStatusAddr_toNat own
    simp only [QueueCommand.entry, QueueCommand.entrySize, kind, sizeofIoSqStatus]
    rw [within_iff (by omega)]
    omega
  | completion =>
    have last := ioCqStatusAddr_toNat own
    have distinct : i.toNat ≠ c.idx.toNat := fun same => other kind (BitVec.eq_of_toNat_eq same)
    simp only [QueueCommand.entry, QueueCommand.entrySize, kind, sizeofIoCqStatus]
    rw [within_iff (by omega)]
    omega

theorem ReservedClear.after (clear : ReservedClear s) (passes : c.Passes) (addresses : c.Addresses) :
    ReservedClear (c.after s) := by
  intro i low a inside
  by_cases own : c.kind = .completion ∧ i = c.idx
  · obtain ⟨completion, rfl⟩ := own
    have entry : c.entry = ioCqStatusAddr c.idx := by simp [QueueCommand.entry, completion]
    rw [QueueCommand.reserved0_kept passes completion s (entry ▸ inside)]
    exact clear _ low a inside
  · have outside := reserved_outside addresses low (fun completion same => own ⟨completion, same⟩) inside
    rw [(QueueCommand.handle_spec passes s).2.frame a outside]
    exact clear i low a inside

/-- Zeros in all entries. -/
theorem ReservedClear.init (zero : Zero s.memory ioCqInfo (8 * sizeofIoCqStatus)) : ReservedClear s := by
  intro i low a inside
  have first := ioCqStatusAddr_toNat low
  have : i.toNat < 8 := low
  replace inside : Within (ioCqStatusAddr i + 0) 16 a := inside.part (by decide) (by decide) (by decide) (by decide)
  rw [add_zero, within_iff (by omega)] at inside
  refine zero a ?_
  have start : ioCqInfo.toNat = 112 := rfl
  rw [within_iff (by decide), start, sizeofIoCqStatus]
  omega

theorem ReservedClear.run (zero : Zero s₀.memory ioCqInfo (8 * sizeofIoCqStatus)) (addresses : ∀ c ∈ cmds, c.Addresses)
    (run : Run serveQueueCommand (fun _ _ => True) s₀ cmds s) : ReservedClear s := by
  induction run with
  | nil => exact .init zero
  | snoc _ _ step ih =>
    obtain ⟨passes, rfl⟩ := QueueCommand.serve_iff.mp step
    exact (ih fun c member => addresses c (List.mem_append_left _ member)).after passes (addresses _ (by simp))

theorem ReservedClear.entry (clear : ReservedClear s) (addresses : c.Addresses) (completion : c.kind = .completion) :
    Zero s.memory (c.entry + 2) 2 := by
  have entry : c.entry = ioCqStatusAddr c.idx := by simp [QueueCommand.entry, completion]
  exact entry ▸ clear _ (QueueCommand.idx_lt addresses)

theorem OnlyItsQueue.refl (c : QueueCommand) (s : NvmeController) : OnlyItsQueue c s s := by
  unfold OnlyItsQueue
  split
  · exact ⟨.refl _ _ _, [], by simp⟩
  · exact ⟨fun _ _ => rfl, rfl⟩

theorem OnlyItsQueue.of_writes (addresses : c.Addresses)
    (writes : NvmeController.Writes c.entry c.entrySize c.register s s') :
    OnlyItsQueue c s s' := by
  obtain ⟨dword0, dword1, regWrites⟩ := writes.regWrites
  unfold OnlyItsQueue
  rw [if_pos addresses]
  exact ⟨writes.frame, _, regWrites, by simp⟩

/-- A deletion that names no queue writes to registers. -/
theorem addresses_of_onlyItsQueue (passes : c.Passes) (only : OnlyItsQueue c s (c.after s)) : c.Addresses := by
  by_contra outside
  obtain ⟨dword0, dword1, regWrites⟩ := (QueueCommand.handle_spec passes s).2.regWrites
  unfold OnlyItsQueue at only
  rw [if_neg outside, regWrites] at only
  simp at only

theorem QueueCommand.Undoes.passes (undoes : d.Undoes c) : d.Passes :=
  fun create => absurd create (by simp [undoes.2.1])

theorem run_passed (s₀ : NvmeController) (passed : ∀ b ∈ cmds, b.Passes) :
    ∃ s, Run serveQueueCommand (fun _ _ => True) s₀ cmds s :=
  ⟨_, queueRun_iff.mpr ⟨passed, rfl⟩⟩

/-- The last two commands of a run. -/
theorem run_pair (run : Run serveQueueCommand (fun _ _ => True) s₀ (before ++ [c, d]) s) :
    ∃ s', Run serveQueueCommand (fun _ _ => True) s₀ before s' ∧ c.Passes ∧ d.Passes ∧ s = d.after (c.after s') := by
  obtain ⟨passed, rfl⟩ := queueRun_iff.mp run
  refine ⟨_, queueRun_iff.mpr ⟨fun b member => passed b (by simp [member]), rfl⟩, passed c (by simp), passed d (by simp), ?_⟩
  simp

theorem DeletesAddress.passed (deletes : DeletesAddress cmds) (split : cmds = before ++ rest)
    (passed : ∀ b ∈ before, b.Passes) : ∀ b ∈ before, b.Addresses := by
  intro b member
  cases create : b.create with
  | true => exact (passed b member).addresses create
  | false =>
    obtain ⟨first, last, rfl⟩ := List.append_of_mem member
    rw [List.append_assoc] at split
    exact deletes first b _ split (fun b earlier => passed b (List.mem_append_left _ earlier)) create

theorem namesQueues_of_isolated (zero : Zero s₀.memory ioCqInfo (8 * sizeofIoCqStatus)) (isolated : Isolated s₀ cmds) :
    NamesQueues cmds := by
  have deletes : DeletesAddress cmds := by
    intro before c rest split passed delete
    obtain ⟨s, run⟩ := run_passed s₀ passed
    exact addresses_of_onlyItsQueue (fun create => absurd create (by simp [delete])) (isolated.only before c rest s split run)
  refine ⟨deletes, fun before c d rest split passed passes undoes => ?_⟩
  obtain ⟨s, run⟩ := run_passed s₀ passed
  have clear := ReservedClear.run zero (deletes.passed split passed) run
  have both := (run.snoc trivial (QueueCommand.serve_iff.mpr ⟨passes, rfl⟩)).snoc trivial
    (QueueCommand.serve_iff.mpr ⟨undoes.passes, rfl⟩)
  rw [List.append_assoc] at both
  exact (QueueCommand.zero_entry_iff passes undoes s (clear.entry (passes.addresses undoes.1))).mp
    (isolated.restored before c d rest _ split undoes both)

theorem isolated_of_namesQueues (zero : Zero s₀.memory ioCqInfo (8 * sizeofIoCqStatus)) (names : NamesQueues cmds) :
    Isolated s₀ cmds where
  only before c rest s split run := by
    by_cases passes : c.Passes
    · refine .of_writes ?_ (QueueCommand.handle_spec passes s).2
      cases create : c.create with
      | true => exact passes.addresses create
      | false => exact names.deletes before c rest split (queueRun_iff.mp run).1 create
    · rw [QueueCommand.after, QueueCommand.handle_of_not_passes passes]
      exact .refl c s
  restored before c d rest s split undoes run := by
    obtain ⟨s', run', passes, -, rfl⟩ := run_pair run
    have passed := (queueRun_iff.mp run').1
    have clear := ReservedClear.run zero (names.deletes.passed split passed) run'
    exact (QueueCommand.zero_entry_iff passes undoes s' (clear.entry (passes.addresses undoes.1))).mpr
      (names.interrupts before c d rest split passed passes undoes)

/-- The handlers keep to the queue of the command, and a deletion right after the creation
leaves zeros, exactly when the deletions name queues and no completion queue is deleted right
after it was created with its interrupt. -/
theorem queues_isolated_iff (zero : Zero s₀.memory ioCqInfo (8 * sizeofIoCqStatus)) :
    Isolated s₀ cmds ↔ NamesQueues cmds :=
  ⟨namesQueues_of_isolated zero, isolated_of_namesQueues zero⟩

/-- A controller whose context is zero. -/
def resetController : NvmeController where
  memory := 0

/-- A submission queue with two slots, and its deletion. -/
def createThenDeleteSq : List QueueCommand :=
  [⟨.submission, true, { dword10 := 0x10001, dword11 := 0x10000 }, 0⟩, ⟨.submission, false, { dword10 := 1 }, 0⟩]

theorem queues_isolated_iff_sq : Isolated resetController createThenDeleteSq := by
  refine (queues_isolated_iff fun _ _ => rfl).mpr ⟨fun before c rest split _ _ => ?_, fun before c d rest split _ _ _ => ?_⟩
  · have all : ∀ c ∈ createThenDeleteSq, c.Addresses := by decide
    exact all c (split ▸ by simp)
  · have all : ∀ c ∈ createThenDeleteSq, c.kind ≠ .completion := by decide
    exact fun completion => absurd completion (all c (split ▸ by simp))

/-- The deletion of submission queue 0. -/
def deleteSqZero : QueueCommand := ⟨.submission, false, {}, 0⟩

/-- A completion queue with its interrupt, and its deletion. -/
def createThenDeleteCq : List QueueCommand :=
  [⟨.completion, true, { dword10 := 0x10001, dword11 := 2 }, 0⟩, ⟨.completion, false, { dword10 := 1 }, 0⟩]

/-- The deletion of submission queue 0 writes to the register of the admin queue, and the
entry of a completion queue keeps `irqEn`. -/
theorem deletions_not_isolated :
    ¬ Isolated resetController [deleteSqZero] ∧
    (deleteSqZero.after resetController).regWrites = [(0x83C00218, 0), (nvmeAdminQueueSetRegAddr, 0)] ∧
    ¬ Isolated resetController createThenDeleteCq := by
  refine ⟨fun isolated => ?_, rfl, fun isolated => ?_⟩
  · have names := namesQueues_of_isolated (fun _ _ => rfl) isolated
    exact absurd (names.deletes [] deleteSqZero [] rfl (by simp) rfl) (by decide)
  · have names := namesQueues_of_isolated (fun _ _ => rfl) isolated
    have passes : QueueCommand.Passes ⟨.completion, true, { dword10 := 0x10001, dword11 := 2 }, 0⟩ := by
      unfold QueueCommand.Passes
      decide
    have disabled := names.interrupts [] _ _ [] rfl (by simp) passes ⟨rfl, rfl, rfl, rfl⟩ rfl
    exact absurd disabled (by decide)

end OcpFw
