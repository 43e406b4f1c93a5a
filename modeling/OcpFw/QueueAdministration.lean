import OcpFw.ByteMemory
import OcpFw.Runs

/-! The admin commands that create and delete I/O queues. The handlers write an entry of
`g_nvmeTask` through a pointer and two registers of the host interface, at indices that
come from the queue identifier of the command. -/
namespace OcpFw
open ByteMemory
open Runs (Run)

/-- The memory, by the distance from `g_nvmeTask`, and the writes to the registers of the
host interface so far. -/
structure NvmeController where
  memory : BitVec 32 → BitVec 8
  regWrites : List (BitVec 32 × BitVec 32) := []

/-- The dwords of an `NVME_ADMIN_COMMAND` that the handlers read. -/
structure NvmeAdminCommand where
  prp1L : BitVec 32 := 0
  prp1H : BitVec 32 := 0
  dword10 : BitVec 32 := 0
  dword11 : BitVec 32 := 0

namespace NvmeAdminCommand

def QID (cmd : NvmeAdminCommand) : BitVec 16 := cmd.dword10.extractLsb' 0 16
def QSIZE (cmd : NvmeAdminCommand) : BitVec 16 := cmd.dword10.extractLsb' 16 16
def CQID (cmd : NvmeAdminCommand) : BitVec 16 := cmd.dword11.extractLsb' 16 16
def IEN (cmd : NvmeAdminCommand) : BitVec 1 := cmd.dword11.extractLsb' 1 1
def IV (cmd : NvmeAdminCommand) : BitVec 16 := cmd.dword11.extractLsb' 16 16

end NvmeAdminCommand

structure NvmeCompletion where
  dword : BitVec 32
  specific : BitVec 32

/-! ### Addresses -/

/-- The offsets of the two arrays in `NVME_CONTEXT`, the sizes of their entries, and its size. -/
def ioSqInfo : BitVec 32 := 16
def ioCqInfo : BitVec 32 := 112
def sizeofIoSqStatus : Nat := 12
def sizeofIoCqStatus : Nat := 16
def sizeofNvmeContext : Nat := 240

def hostIpAddr : BitVec 32 := 0x83C00000
def nvmeAdminQueueSetRegAddr : BitVec 32 := hostIpAddr + 0x21C
def nvmeIoSqSetRegAddr : BitVec 32 := hostIpAddr + 0x220
def nvmeIoCqSetRegAddr : BitVec 32 := hostIpAddr + 0x260

/-- `ioSqInfo + ioSqIdx` and `ioCqInfo + ioCqIdx`. -/
def ioSqStatusAddr (ioSqIdx : BitVec 32) : BitVec 32 := ioSqInfo + ioSqIdx * 12
def ioCqStatusAddr (ioCqIdx : BitVec 32) : BitVec 32 := ioCqInfo + ioCqIdx * 16

namespace NvmeController

def store (s : NvmeController) (addr : BitVec 32) (width : Nat) {v : Nat} (value : BitVec v) : NvmeController :=
  { s with memory := ByteMemory.store s.memory addr width value }

def load (s : NvmeController) (addr : BitVec 32) (width : Nat) : BitVec 32 :=
  .ofNat 32 (ByteMemory.load s.memory addr width)

def ioWrite32 (s : NvmeController) (addr val : BitVec 32) : NvmeController :=
  { s with regWrites := s.regWrites ++ [(addr, val)] }

/-- `set_io_sq`; the reserved bits of its local variable are not initialized. -/
def setIoSq (s : NvmeController) (reserved1 : BitVec 3)
    (ioSqIdx valid cqVector qSzie pcieBaseAddrL pcieBaseAddrH : BitVec 32) : NvmeController :=
  let dword1 : BitVec 32 := qSzie.setWidth 8 ++ reserved1 ++ cqVector.setWidth 4 ++ valid.setWidth 1 ++
    pcieBaseAddrH.setWidth 16
  let addr := nvmeIoSqSetRegAddr + ioSqIdx * 8
  (s.ioWrite32 addr pcieBaseAddrL).ioWrite32 (addr + 4) dword1

def setIoCq (s : NvmeController) (reserved1 : BitVec 3)
    (ioCqIdx valid irqEn irqVector qSzie pcieBaseAddrL pcieBaseAddrH : BitVec 32) : NvmeController :=
  let dword1 : BitVec 32 := qSzie.setWidth 8 ++ reserved1 ++ irqEn.setWidth 1 ++ irqVector.setWidth 3 ++
    valid.setWidth 1 ++ pcieBaseAddrH.setWidth 16
  let addr := nvmeIoCqSetRegAddr + ioCqIdx * 8
  (s.ioWrite32 addr pcieBaseAddrL).ioWrite32 (addr + 4) dword1

/-! ### The handlers

A failed `ASSERT` never returns: the state it loops in is the error. -/

def handleCreateIoSq (s : NvmeController) (cmd : NvmeAdminCommand) (reserved1 : BitVec 3) :
    Except NvmeController (NvmeController × NvmeCompletion) :=
  if ¬ (cmd.prp1L &&& 3 = 0 ∧ cmd.prp1H < 0x10000) then .error s
  else if ¬ (0 < cmd.QID ∧ cmd.QID ≤ 8 ∧ cmd.QSIZE < 0x100 ∧ 0 < cmd.CQID ∧ cmd.CQID ≤ 8) then .error s
  else
    let ioSqIdx := cmd.QID.setWidth 32 - 1
    let ioSqStatus := ioSqStatusAddr ioSqIdx
    let s := s.store ioSqStatus 1 (1 : BitVec 8)
    let s := s.store (ioSqStatus + 2) 2 cmd.QSIZE
    let s := s.store (ioSqStatus + 1) 1 (cmd.CQID.setWidth 8)
    let s := s.store (ioSqStatus + 4) 4 cmd.prp1L
    let s := s.store (ioSqStatus + 8) 4 cmd.prp1H
    .ok (s.setIoSq reserved1 ioSqIdx (s.load ioSqStatus 1) (s.load (ioSqStatus + 1) 1)
      (s.load (ioSqStatus + 2) 2) (s.load (ioSqStatus + 4) 4) (s.load (ioSqStatus + 8) 4), ⟨0, 0⟩)

def handleDeleteIoSq (s : NvmeController) (cmd : NvmeAdminCommand) (reserved1 : BitVec 3) :
    Except NvmeController (NvmeController × NvmeCompletion) :=
  let ioSqIdx := cmd.QID.setWidth 32 - 1
  let ioSqStatus := ioSqStatusAddr ioSqIdx
  let s := s.store ioSqStatus 1 (0 : BitVec 8)
  let s := s.store (ioSqStatus + 1) 1 (0 : BitVec 8)
  let s := s.store (ioSqStatus + 2) 2 (0 : BitVec 16)
  let s := s.store (ioSqStatus + 4) 4 (0 : BitVec 32)
  let s := s.store (ioSqStatus + 8) 4 (0 : BitVec 32)
  .ok (s.setIoSq reserved1 ioSqIdx 0 0 0 0 0, ⟨0, 0⟩)

def handleCreateIoCq (s : NvmeController) (cmd : NvmeAdminCommand) (reserved1 : BitVec 3) :
    Except NvmeController (NvmeController × NvmeCompletion) :=
  if ¬ (cmd.prp1L &&& 3 = 0 ∧ cmd.prp1H < 0x10000) then .error s
  else if ¬ (cmd.IV < 8 ∧ cmd.QSIZE < 0x100 ∧ 0 < cmd.QID ∧ cmd.QID ≤ 8) then .error s
  else
    let ioCqIdx := cmd.QID.setWidth 32 - 1
    let ioCqStatus := ioCqStatusAddr ioCqIdx
    let s := s.store ioCqStatus 1 (1 : BitVec 8)
    let s := s.store (ioCqStatus + 6) 2 cmd.QSIZE
    let s := s.store (ioCqStatus + 1) 1 (cmd.IEN.setWidth 8)
    let s := s.store (ioCqStatus + 4) 2 cmd.IV
    let s := s.store (ioCqStatus + 8) 4 cmd.prp1L
    let s := s.store (ioCqStatus + 12) 4 cmd.prp1H
    .ok (s.setIoCq reserved1 ioCqIdx (s.load ioCqStatus 1) (s.load (ioCqStatus + 1) 1)
      (s.load (ioCqStatus + 4) 2) (s.load (ioCqStatus + 6) 2) (s.load (ioCqStatus + 8) 4)
      (s.load (ioCqStatus + 12) 4), ⟨0, 0⟩)

/-- Unlike the deletion of a submission queue this one leaves a field, `irqEn`. -/
def handleDeleteIoCq (s : NvmeController) (cmd : NvmeAdminCommand) (reserved1 : BitVec 3) :
    Except NvmeController (NvmeController × NvmeCompletion) :=
  let ioCqIdx := cmd.QID.setWidth 32 - 1
  let ioCqStatus := ioCqStatusAddr ioCqIdx
  let s := s.store ioCqStatus 1 (0 : BitVec 8)
  let s := s.store (ioCqStatus + 4) 2 (0 : BitVec 16)
  let s := s.store (ioCqStatus + 6) 2 (0 : BitVec 16)
  let s := s.store (ioCqStatus + 8) 4 (0 : BitVec 32)
  let s := s.store (ioCqStatus + 12) 4 (0 : BitVec 32)
  .ok (s.setIoCq reserved1 ioCqIdx 0 0 0 0 0 0, ⟨0, 0⟩)

end NvmeController

/-! ### Commands -/

inductive QueueKind where
  | submission
  | completion
  deriving DecidableEq

/-- A command that creates or deletes a queue, with what the local variable of `set_io_sq`
or `set_io_cq` happens to hold. -/
structure QueueCommand where
  kind : QueueKind
  create : Bool
  cmd : NvmeAdminCommand
  reserved1 : BitVec 3 := 0

namespace QueueCommand

def idx (c : QueueCommand) : BitVec 32 := c.cmd.QID.setWidth 32 - 1

/-- The identifiers of the queues. -/
def Addresses (c : QueueCommand) : Prop := 1 ≤ c.cmd.QID ∧ c.cmd.QID ≤ 8

instance : DecidablePred Addresses := fun c => inferInstanceAs (Decidable (1 ≤ c.cmd.QID ∧ c.cmd.QID ≤ 8))

/-- The entry with the index, and its size. -/
def entry (c : QueueCommand) : BitVec 32 :=
  match c.kind with
  | .submission => ioSqStatusAddr c.idx
  | .completion => ioCqStatusAddr c.idx

def entrySize (c : QueueCommand) : Nat :=
  match c.kind with
  | .submission => sizeofIoSqStatus
  | .completion => sizeofIoCqStatus

/-- The register with the index, which has two dwords. -/
def register (c : QueueCommand) : BitVec 32 :=
  match c.kind with
  | .submission => nvmeIoSqSetRegAddr + c.idx * 8
  | .completion => nvmeIoCqSetRegAddr + c.idx * 8

def handle (c : QueueCommand) (s : NvmeController) : Except NvmeController (NvmeController × NvmeCompletion) :=
  match c.kind, c.create with
  | .submission, true => s.handleCreateIoSq c.cmd c.reserved1
  | .submission, false => s.handleDeleteIoSq c.cmd c.reserved1
  | .completion, true => s.handleCreateIoCq c.cmd c.reserved1
  | .completion, false => s.handleDeleteIoCq c.cmd c.reserved1

/-- The state the handler leaves, or loops in. -/
def after (c : QueueCommand) (s : NvmeController) : NvmeController :=
  match c.handle s with
  | .ok (s', _) => s'
  | .error s' => s'

/-- What the handlers assert; those that delete assert nothing. -/
def Passes (c : QueueCommand) : Prop :=
  c.create = true →
    (c.cmd.prp1L &&& 3 = 0 ∧ c.cmd.prp1H < 0x10000) ∧
    match c.kind with
    | .submission => 0 < c.cmd.QID ∧ c.cmd.QID ≤ 8 ∧ c.cmd.QSIZE < 0x100 ∧ 0 < c.cmd.CQID ∧ c.cmd.CQID ≤ 8
    | .completion => c.cmd.IV < 8 ∧ c.cmd.QSIZE < 0x100 ∧ 0 < c.cmd.QID ∧ c.cmd.QID ≤ 8

end QueueCommand

/-- The next command is only served when the handler returned. -/
def serveQueueCommand (s : NvmeController) (c : QueueCommand) : Option NvmeController :=
  match c.handle s with
  | .ok (s', _) => some s'
  | .error _ => none

end OcpFw
