import Mathlib.Logic.Function.Basic

/-! The loop of `nvme_main`, one statement at a time, and `dev_irq_handler`, which may run
between any two of them; the host changes the registers at any moment. What the statements
do to the requests is left to the other layers: here they read commands, the registers of
the host interface and `g_nvmeTask`. -/
namespace OcpFw

/-- The `NVME_TASK_*` values. -/
inductive NvmeTask where
  | idle
  | waitCcEn
  | running
  | shutdown
  | waitReset
  | reset
  deriving DecidableEq

/-- The bits of `DEV_IRQ_REG` for which the handler does more than print. -/
structure DevIrqReg where
  pcieLink : Bool := false
  nvmeCcEn : Bool := false
  nvmeCcShn : Bool := false

/-- The registers of the host interface, the command FIFO with the queues of its commands. -/
structure HostRegs where
  devIrq : DevIrqReg := {}
  pcieLinkUp : Bool := true
  ccEn : Bool := false
  ccShn : Nat := 0
  cstsRdy : Bool := false
  cstsShst : Nat := 0
  rstCnt : Nat := 0
  adminQueueValid : Bool := false
  ioSqValid : Nat → Bool := fun _ => false
  ioCqValid : Nat → Bool := fun _ => false
  cmdFifo : List Nat := []

/-! ### The statements of the branches -/

inductive WaitCcEnPc where
  | checkCcEn
  | ifEnabled
  | adminQueue
  | cstsRdy
  | assign
  deriving DecidableEq

inductive RunningPc where
  | getCmd
  | ifValid
  | clearRstCnt
  | ifAdmin
  | adminCmd
  | ioCmd
  | transSlices
  | noLlr
  deriving DecidableEq

inductive ShutdownPc where
  | readStatus
  | ifShn
  | shst
  | firstQueue
  | ifQueue
  | ioCq
  | ioSq
  | adminQueue
  | cacheEn
  | shstDone
  | assign
  | updateBbt
  deriving DecidableEq

inductive WaitResetPc where
  | checkCcEn
  | ifDisabled
  | cacheEn
  | cstsShst
  | cstsRdy
  | assign
  deriving DecidableEq

inductive ResetPc where
  | firstQueue
  | ifQueue
  | ioCq
  | ioSq
  | ifRstCnt
  | asyncReset
  | clearRstCnt
  | incRstCnt
  | cacheEn
  | adminQueue
  | cstsShst
  | cstsRdy
  | assign
  deriving DecidableEq

/-- The statement that is executed next. `dispatch` is one test of the chain on the status. -/
inductive MainPc where
  | exeLlr
  | dispatch (task : NvmeTask)
  | waitCcEn (pc : WaitCcEnPc)
  | running (pc : RunningPc)
  | shutdown (pc : ShutdownPc)
  | waitReset (pc : WaitResetPc)
  | reset (pc : ResetPc)
  | ifLlr
  | checkDoneNvmeDmaReq
  | schedulingNandReq
  deriving DecidableEq

/-- `g_nvmeTask`, the local variables of `nvme_main` and the registers. The last three fields
are the history: whether the handler stored a status the dispatch has not found yet, whether
an assignment of the loop ever overwrote such a status, and the last CC.EN event handled. -/
structure MainLoop where
  status : NvmeTask := .idle
  cacheEn : Bool := false
  pc : MainPc := .exeLlr
  exeLlr : Bool := true
  ccEn : Bool := false
  ccShn : Nat := 0
  cmdValid : Bool := false
  cmdQueue : Nat := 0
  qID : Nat := 0
  rstCnt : Nat := 0
  regs : HostRegs := {}
  untested : Bool := false
  lost : Bool := false
  lastCcEn : Option Bool := none

namespace MainLoop

def goto (s : MainLoop) (pc : MainPc) : MainLoop := { s with pc }

/-- An assignment of `nvme_main` to the status. -/
def assign (s : MainLoop) (status : NvmeTask) : MainLoop :=
  { s with status, lost := s.lost || s.untested, untested := false }

/-- An assignment of `dev_irq_handler` to it. -/
def store (s : MainLoop) (status : NvmeTask) : MainLoop := { s with status, untested := true }

/-! ### nvme_main -/

def setIoCq (s : MainLoop) (qID : Nat) : MainLoop :=
  { s with regs := { s.regs with ioCqValid := Function.update s.regs.ioCqValid qID false } }

def setIoSq (s : MainLoop) (qID : Nat) : MainLoop :=
  { s with regs := { s.regs with ioSqValid := Function.update s.regs.ioSqValid qID false } }

def setAdminQueue (s : MainLoop) (valid : Bool) : MainLoop :=
  { s with regs := { s.regs with adminQueueValid := valid } }

def setCstsRdy (s : MainLoop) (rdy : Bool) : MainLoop := { s with regs := { s.regs with cstsRdy := rdy } }

def setCstsShst (s : MainLoop) (shst : Nat) : MainLoop := { s with regs := { s.regs with cstsShst := shst } }

def stepWaitCcEn (s : MainLoop) : WaitCcEnPc → MainLoop
  | .checkCcEn => { s with ccEn := s.regs.ccEn, pc := .waitCcEn .ifEnabled }
  | .ifEnabled => s.goto (if s.ccEn then .waitCcEn .adminQueue else .ifLlr)
  | .adminQueue => (s.setAdminQueue true).goto (.waitCcEn .cstsRdy)
  | .cstsRdy => (s.setCstsRdy true).goto (.waitCcEn .assign)
  | .assign => (s.assign .running).goto .ifLlr

/-- The handlers of the commands do not touch the status. -/
def stepRunning (s : MainLoop) : RunningPc → MainLoop
  | .getCmd =>
    match s.regs.cmdFifo with
    | [] => { s with cmdValid := false, pc := .running .ifValid }
    | qID :: rest =>
      { s with
        cmdValid := true, cmdQueue := qID, regs := { s.regs with cmdFifo := rest }, pc := .running .ifValid }
  | .ifValid => s.goto (if s.cmdValid then .running .clearRstCnt else .ifLlr)
  | .clearRstCnt => { s with rstCnt := 0, pc := .running .ifAdmin }
  | .ifAdmin => s.goto (.running (if s.cmdQueue = 0 then .adminCmd else .ioCmd))
  | .adminCmd => s.goto .ifLlr
  | .ioCmd => s.goto (.running .transSlices)
  | .transSlices => s.goto (.running .noLlr)
  | .noLlr => { s with exeLlr := false, pc := .ifLlr }

def stepShutdown (s : MainLoop) : ShutdownPc → MainLoop
  | .readStatus => { s with ccShn := s.regs.ccShn, pc := .shutdown .ifShn }
  | .ifShn => s.goto (if s.ccShn ≠ 0 then .shutdown .shst else .ifLlr)
  | .shst => (s.setCstsShst 1).goto (.shutdown .firstQueue)
  | .firstQueue => { s with qID := 0, pc := .shutdown .ifQueue }
  | .ifQueue => s.goto (.shutdown (if s.qID < 8 then .ioCq else .adminQueue))
  | .ioCq => (s.setIoCq s.qID).goto (.shutdown .ioSq)
  | .ioSq => { s.setIoSq s.qID with qID := s.qID + 1, pc := .shutdown .ifQueue }
  | .adminQueue => (s.setAdminQueue false).goto (.shutdown .cacheEn)
  | .cacheEn => { s with cacheEn := false, pc := .shutdown .shstDone }
  | .shstDone => (s.setCstsShst 2).goto (.shutdown .assign)
  | .assign => (s.assign .waitReset).goto (.shutdown .updateBbt)
  | .updateBbt => s.goto .ifLlr

def stepWaitReset (s : MainLoop) : WaitResetPc → MainLoop
  | .checkCcEn => { s with ccEn := s.regs.ccEn, pc := .waitReset .ifDisabled }
  | .ifDisabled => s.goto (if s.ccEn then .ifLlr else .waitReset .cacheEn)
  | .cacheEn => { s with cacheEn := false, pc := .waitReset .cstsShst }
  | .cstsShst => (s.setCstsShst 0).goto (.waitReset .cstsRdy)
  | .cstsRdy => (s.setCstsRdy false).goto (.waitReset .assign)
  | .assign => (s.assign .idle).goto .ifLlr

def stepReset (s : MainLoop) : ResetPc → MainLoop
  | .firstQueue => { s with qID := 0, pc := .reset .ifQueue }
  | .ifQueue => s.goto (.reset (if s.qID < 8 then .ioCq else .ifRstCnt))
  | .ioCq => (s.setIoCq s.qID).goto (.reset .ioSq)
  | .ioSq => { s.setIoSq s.qID with qID := s.qID + 1, pc := .reset .ifQueue }
  | .ifRstCnt => s.goto (.reset (if s.rstCnt ≥ 5 then .asyncReset else .incRstCnt))
  | .asyncReset => { s with regs := { s.regs with rstCnt := s.rstCnt % 16 }, pc := .reset .clearRstCnt }
  | .clearRstCnt => { s with rstCnt := 0, pc := .reset .cacheEn }
  | .incRstCnt => { s with rstCnt := s.rstCnt + 1, pc := .reset .cacheEn }
  | .cacheEn => { s with cacheEn := false, pc := .reset .adminQueue }
  | .adminQueue => (s.setAdminQueue false).goto (.reset .cstsShst)
  | .cstsShst => (s.setCstsShst 0).goto (.reset .cstsRdy)
  | .cstsRdy => (s.setCstsRdy false).goto (.reset .assign)
  | .assign => (s.assign .idle).goto .ifLlr

/-- The first statement of the branch for a status; none is there for `NVME_TASK_IDLE`. -/
def firstStatement : NvmeTask → MainPc
  | .idle => .ifLlr
  | .waitCcEn => .waitCcEn .checkCcEn
  | .running => .running .getCmd
  | .shutdown => .shutdown .readStatus
  | .waitReset => .waitReset .checkCcEn
  | .reset => .reset .firstQueue

/-- The test after a failed one. -/
def nextTest : NvmeTask → MainPc
  | .waitCcEn => .dispatch .running
  | .running => .dispatch .shutdown
  | .shutdown => .dispatch .waitReset
  | .waitReset => .dispatch .reset
  | .reset => .ifLlr
  | .idle => .ifLlr

/-- One statement. `work` is whether there are requests left for the scheduler. -/
def statement (s : MainLoop) (work : Bool) : MainLoop :=
  match s.pc with
  | .exeLlr => { s with exeLlr := true, pc := .dispatch .waitCcEn }
  | .dispatch task =>
    if s.status = task then { s with untested := false, pc := firstStatement task } else s.goto (nextTest task)
  | .waitCcEn pc => s.stepWaitCcEn pc
  | .running pc => s.stepRunning pc
  | .shutdown pc => s.stepShutdown pc
  | .waitReset pc => s.stepWaitReset pc
  | .reset pc => s.stepReset pc
  | .ifLlr => s.goto (if s.exeLlr && work then .checkDoneNvmeDmaReq else .exeLlr)
  | .checkDoneNvmeDmaReq => s.goto .schedulingNandReq
  | .schedulingNandReq => s.goto .exeLlr

/-! ### dev_irq_handler -/

def onPcieLink (devReg : DevIrqReg) (s : MainLoop) : MainLoop :=
  if devReg.pcieLink ∧ s.regs.pcieLinkUp = false then s.store .reset else s

def onNvmeCcEn (devReg : DevIrqReg) (s : MainLoop) : MainLoop :=
  if devReg.nvmeCcEn then
    { s.store (if s.regs.ccEn then .waitCcEn else .reset) with lastCcEn := some s.regs.ccEn }
  else s

def onNvmeCcShn (devReg : DevIrqReg) (s : MainLoop) : MainLoop :=
  if devReg.nvmeCcShn ∧ s.regs.ccShn = 1 then s.store .shutdown else s

/-- The reports are read and cleared, and then looked at one after the other. -/
def devIrqHandler (s : MainLoop) : MainLoop :=
  let devReg := s.regs.devIrq
  onNvmeCcShn devReg (onNvmeCcEn devReg (onPcieLink devReg
    { s with regs := { s.regs with devIrq := {} } }))

/-- What can happen next: a statement of the loop, the handler, or the host writes CC.EN or
CC.SHN, the link goes up or down, a command arrives. -/
inductive Input where
  | statement (work : Bool)
  | interrupt
  | ccEn (ccEn : Bool)
  | ccShn (ccShn : Nat)
  | link (up : Bool)
  | command (qID : Nat)

def next (s : MainLoop) : Input → Option MainLoop
  | .statement work => some (s.statement work)
  | .interrupt => some s.devIrqHandler
  | .ccEn ccEn =>
    some { s with regs := { s.regs with ccEn, devIrq := { s.regs.devIrq with nvmeCcEn := true } } }
  | .ccShn ccShn =>
    some { s with regs := { s.regs with ccShn := ccShn % 4, devIrq := { s.regs.devIrq with nvmeCcShn := true } } }
  | .link up =>
    some { s with regs := { s.regs with pcieLinkUp := up, devIrq := { s.regs.devIrq with pcieLink := true } } }
  | .command qID => some { s with regs := { s.regs with cmdFifo := s.regs.cmdFifo ++ [qID] } }

end MainLoop

end OcpFw
