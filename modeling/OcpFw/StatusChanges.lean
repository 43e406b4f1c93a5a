import OcpFw.MainLoop
import OcpFw.Runs

/-! Status changes between the interrupt handler and the main loop. A branch of the loop
assigns the status some statements after the test that led to it. What the handler stores
in between is overwritten, and a disable or an enable of the controller goes unnoticed;
what it stores at any other time is found by the next test. -/
namespace OcpFw
open Runs (Run exec run_of_exec_any)

namespace MainLoop

/-- The branch the next statement belongs to, up to its assignment. -/
def branch (s : MainLoop) : Option NvmeTask :=
  match s.pc with
  | .waitCcEn _ => some .waitCcEn
  | .running _ => some .running
  | .shutdown .updateBbt => none
  | .shutdown _ => some .shutdown
  | .waitReset _ => some .waitReset
  | .reset _ => some .reset
  | _ => none

/-- The branch is past the check of the register it depends on, so that it will assign the status. -/
def Committed (s : MainLoop) : Prop :=
  match s.pc with
  | .waitCcEn .checkCcEn => False
  | .waitCcEn .ifEnabled => s.ccEn = true
  | .waitCcEn _ => True
  | .shutdown .readStatus => False
  | .shutdown .ifShn => s.ccShn ≠ 0
  | .shutdown .updateBbt => False
  | .shutdown _ => True
  | .waitReset .checkCcEn => False
  | .waitReset .ifDisabled => s.ccEn = false
  | .waitReset _ => True
  | .reset _ => True
  | _ => False

instance (s : MainLoop) : Decidable s.Committed := by
  unfold Committed
  split <;> infer_instance

/-- The next statement is that check, and it will be passed. -/
def Commits (s : MainLoop) : Prop :=
  (s.pc = .waitCcEn .checkCcEn ∧ s.regs.ccEn = true) ∨ (s.pc = .shutdown .readStatus ∧ s.regs.ccShn ≠ 0) ∨
    (s.pc = .waitReset .checkCcEn ∧ s.regs.ccEn = false)

instance (s : MainLoop) : Decidable s.Commits := by
  unfold Commits
  infer_instance

/-- The link is reported to be down. -/
def LinkDown (s : MainLoop) : Prop := s.regs.devIrq.pcieLink = true ∧ s.regs.pcieLinkUp = false

/-- A shutdown is reported. -/
def ShutdownRequested (s : MainLoop) : Prop := s.regs.devIrq.nvmeCcShn = true ∧ s.regs.ccShn = 1

/-- The handler would store a status. -/
def Stores (s : MainLoop) : Prop := s.LinkDown ∨ s.regs.devIrq.nvmeCcEn = true ∨ s.ShutdownRequested

instance (s : MainLoop) : Decidable s.LinkDown := by
  unfold LinkDown
  infer_instance

instance (s : MainLoop) : Decidable s.ShutdownRequested := by
  unfold ShutdownRequested
  infer_instance

instance (s : MainLoop) : Decidable s.Stores := by
  unfold Stores
  infer_instance

/-- The handler stores no status while a branch is committed, and no branch commits after the
handler stored one that was not tested. -/
def InTime (s : MainLoop) : Input → Prop
  | .interrupt => s.Stores → ¬ s.Committed
  | .statement _ => s.Commits → s.untested = false
  | _ => True

/-- The link is not reported to be down, and nothing else, while the controller is enabled. -/
def LinkKept (s : MainLoop) : Input → Prop
  | .interrupt => s.LinkDown → ¬ s.regs.devIrq.nvmeCcEn = true → ¬ s.ShutdownRequested → s.lastCcEn ≠ some true
  | _ => True

instance (s : MainLoop) (input : Input) : Decidable (s.InTime input) := by
  cases input <;> unfold InTime <;> infer_instance

instance (s : MainLoop) (input : Input) : Decidable (s.LinkKept input) := by
  cases input <;> unfold LinkKept <;> infer_instance

/-- The loop stays as it is: no CC.EN event is left to be handled. -/
def Settled (s : MainLoop) (status : NvmeTask) : Prop := s.status = status ∧ s.regs.devIrq.nvmeCcEn = false

variable {s s' : MainLoop} {input : Input} {inputs : List Input}

/-! ### What a statement can do -/

/-- A statement that leaves alone what the status and the CC.EN events are about. -/
structure Quiet (s s' : MainLoop) : Prop where
  status : s'.status = s.status
  lost : s'.lost = s.lost
  lastCcEn : s'.lastCcEn = s.lastCcEn
  devIrq : s'.regs.devIrq = s.regs.devIrq
  ccEn : s'.regs.ccEn = s.regs.ccEn

/-- The status a branch assigns. -/
def target : NvmeTask → Option NvmeTask
  | .waitCcEn => some .running
  | .shutdown => some .waitReset
  | .waitReset => some .idle
  | .reset => some .idle
  | _ => none

/-- A statement goes on in its branch or leaves it, or is a test that leads into a branch, or
is the assignment of one. -/
inductive Statement (s s' : MainLoop) : Prop
  | goesOn (quiet : Quiet s s') (same : s'.untested = s.untested) (branch : s'.branch = s.branch ∨ s'.branch = none)
      (committed : s'.Committed → s.Committed ∨ s.Commits)
  | enters (quiet : Quiet s s') (tested : s'.untested = false) (branch : s'.branch = some s.status ∨ s'.branch = none)
      (committed : s'.Committed → s.status = .reset)
  | assigns (task : NvmeTask) (branch : s.branch = some task) (committed : s.Committed)
      (status : target task = some s'.status) (lost : s'.lost = (s.lost || s.untested)) (left : s'.branch = none)
      (lastCcEn : s'.lastCcEn = s.lastCcEn) (regs : s'.regs = s.regs)

theorem stepWaitCcEn_cases {pc : WaitCcEnPc} (here : s.pc = .waitCcEn pc) : Statement s (s.stepWaitCcEn pc) := by
  cases pc with
  | checkCcEn =>
    refine .goesOn ⟨rfl, rfl, rfl, rfl, rfl⟩ rfl (.inl (by simp [branch, here, stepWaitCcEn])) fun enabled => ?_
    exact .inr (.inl ⟨here, enabled⟩)
  | ifEnabled =>
    cases enabled : s.ccEn with
    | false =>
      refine .goesOn ⟨rfl, rfl, rfl, rfl, rfl⟩ rfl (.inr ?_) ?_ <;> simp [branch, Committed, stepWaitCcEn, goto, enabled]
    | true =>
      refine .goesOn ⟨rfl, rfl, rfl, rfl, rfl⟩ rfl (.inl ?_) ?_ <;>
        simp [branch, Committed, stepWaitCcEn, goto, here, enabled]
  | assign => exact .assigns .waitCcEn (by simp [branch, here]) (by simp [Committed, here]) rfl rfl rfl rfl rfl
  | _ =>
    refine .goesOn ⟨rfl, rfl, rfl, rfl, rfl⟩ rfl (.inl ?_) ?_ <;>
      simp [branch, Committed, stepWaitCcEn, goto, here]

theorem stepRunning_cases {pc : RunningPc} (here : s.pc = .running pc) : Statement s (s.stepRunning pc) := by
  have moves : ∀ {s' : MainLoop}, Quiet s s' → s'.untested = s.untested →
      (∃ pc, s'.pc = .running pc) ∨ s'.pc = .ifLlr → Statement s s' := by
    intro s' quiet same next
    rcases next with ⟨pc', next⟩ | next <;> refine .goesOn quiet same ?_ ?_ <;>
      simp [branch, Committed, here, next]
  cases pc with
  | getCmd =>
    rw [stepRunning]
    split <;> exact moves ⟨rfl, rfl, rfl, rfl, rfl⟩ rfl (.inl ⟨_, rfl⟩)
  | ifValid =>
    refine moves ⟨rfl, rfl, rfl, rfl, rfl⟩ rfl ?_
    cases valid : s.cmdValid <;> simp [stepRunning, goto, valid]
  | adminCmd => exact moves ⟨rfl, rfl, rfl, rfl, rfl⟩ rfl (.inr rfl)
  | noLlr => exact moves ⟨rfl, rfl, rfl, rfl, rfl⟩ rfl (.inr rfl)
  | _ => exact moves ⟨rfl, rfl, rfl, rfl, rfl⟩ rfl (.inl ⟨_, rfl⟩)

theorem stepShutdown_cases {pc : ShutdownPc} (here : s.pc = .shutdown pc) : Statement s (s.stepShutdown pc) := by
  cases pc with
  | readStatus =>
    refine .goesOn ⟨rfl, rfl, rfl, rfl, rfl⟩ rfl (.inl (by simp [branch, here, stepShutdown])) fun requested => ?_
    exact .inr (.inr (.inl ⟨here, requested⟩))
  | ifShn =>
    by_cases requested : s.ccShn = 0
    · refine .goesOn ⟨rfl, rfl, rfl, rfl, rfl⟩ rfl (.inr ?_) ?_ <;>
        simp [branch, Committed, stepShutdown, goto, requested]
    · refine .goesOn ⟨rfl, rfl, rfl, rfl, rfl⟩ rfl (.inl ?_) ?_ <;>
        simp [branch, Committed, stepShutdown, goto, here, requested]
  | ifQueue =>
    by_cases more : s.qID < 8 <;> refine .goesOn ⟨rfl, rfl, rfl, rfl, rfl⟩ rfl (.inl ?_) ?_ <;>
      simp [branch, Committed, stepShutdown, goto, here, more]
  | assign => exact .assigns .shutdown (by simp [branch, here]) (by simp [Committed, here]) rfl rfl rfl rfl rfl
  | updateBbt =>
    refine .goesOn ⟨rfl, rfl, rfl, rfl, rfl⟩ rfl (.inr ?_) ?_ <;> simp [branch, Committed, stepShutdown, goto]
  | _ =>
    refine .goesOn ⟨rfl, rfl, rfl, rfl, rfl⟩ rfl (.inl ?_) ?_ <;>
      simp [branch, Committed, stepShutdown, goto, here]

theorem stepWaitReset_cases {pc : WaitResetPc} (here : s.pc = .waitReset pc) :
    Statement s (s.stepWaitReset pc) := by
  cases pc with
  | checkCcEn =>
    refine .goesOn ⟨rfl, rfl, rfl, rfl, rfl⟩ rfl (.inl (by simp [branch, here, stepWaitReset])) fun disabled => ?_
    exact .inr (.inr (.inr ⟨here, disabled⟩))
  | ifDisabled =>
    cases enabled : s.ccEn with
    | true =>
      refine .goesOn ⟨rfl, rfl, rfl, rfl, rfl⟩ rfl (.inr ?_) ?_ <;> simp [branch, Committed, stepWaitReset, goto, enabled]
    | false =>
      refine .goesOn ⟨rfl, rfl, rfl, rfl, rfl⟩ rfl (.inl ?_) ?_ <;>
        simp [branch, Committed, stepWaitReset, goto, here, enabled]
  | assign => exact .assigns .waitReset (by simp [branch, here]) (by simp [Committed, here]) rfl rfl rfl rfl rfl
  | _ =>
    refine .goesOn ⟨rfl, rfl, rfl, rfl, rfl⟩ rfl (.inl ?_) ?_ <;>
      simp [branch, Committed, stepWaitReset, goto, here]

theorem stepReset_cases {pc : ResetPc} (here : s.pc = .reset pc) : Statement s (s.stepReset pc) := by
  have committed : s.Committed := by simp [Committed, here]
  cases pc with
  | assign => exact .assigns .reset (by simp [branch, here]) committed rfl rfl rfl rfl rfl
  | _ =>
    refine .goesOn ⟨rfl, rfl, rfl, rfl, rfl⟩ rfl (.inl ?_) fun _ => .inl committed
    simp [branch, stepReset, goto, here]

/-- Every statement is one of the three. -/
theorem statement_cases (s : MainLoop) (work : Bool) : Statement s (s.statement work) := by
  have moves : ∀ {pc : MainPc}, s.branch = none → (∃ task, pc = .dispatch task) ∨ pc = .ifLlr ∨
      pc = .checkDoneNvmeDmaReq ∨ pc = .schedulingNandReq ∨ pc = .exeLlr → Statement s (s.goto pc) := by
    intro pc outside next
    rcases next with ⟨task, rfl⟩ | rfl | rfl | rfl | rfl <;>
      exact .goesOn ⟨rfl, rfl, rfl, rfl, rfl⟩ rfl (.inr rfl) nofun
  cases here : s.pc with
  | exeLlr =>
    simp only [statement, here]
    exact .goesOn ⟨rfl, rfl, rfl, rfl, rfl⟩ rfl (.inr rfl) nofun
  | dispatch task =>
    simp only [statement, here]
    split
    · rename_i found
      subst found
      refine .enters ⟨rfl, rfl, rfl, rfl, rfl⟩ rfl ?_ ?_ <;> cases s.status <;>
        simp [firstStatement, branch, Committed]
    · have outside : s.branch = none := by simp [branch, here]
      cases task <;> exact moves outside (by simp [nextTest])
  | waitCcEn pc =>
    simp only [statement, here]
    exact stepWaitCcEn_cases here
  | running pc =>
    simp only [statement, here]
    exact stepRunning_cases here
  | shutdown pc =>
    simp only [statement, here]
    exact stepShutdown_cases here
  | waitReset pc =>
    simp only [statement, here]
    exact stepWaitReset_cases here
  | reset pc =>
    simp only [statement, here]
    exact stepReset_cases here
  | ifLlr =>
    simp only [statement, here]
    exact moves (by simp [branch, here]) (by split <;> simp)
  | checkDoneNvmeDmaReq =>
    simp only [statement, here]
    exact moves (by simp [branch, here]) (by simp)
  | schedulingNandReq =>
    simp only [statement, here]
    exact moves (by simp [branch, here]) (by simp)

/-! ### What the handler can do -/

/-- What the handler leaves alone. -/
structure SameMain (s s' : MainLoop) : Prop where
  pc : s'.pc = s.pc
  ccEn : s'.ccEn = s.ccEn
  ccShn : s'.ccShn = s.ccShn
  lost : s'.lost = s.lost
  regs : s'.regs = s.regs

theorem SameMain.trans {s'' : MainLoop} (h : SameMain s s') (h' : SameMain s' s'') : SameMain s s'' :=
  ⟨h'.pc.trans h.pc, h'.ccEn.trans h.ccEn, h'.ccShn.trans h.ccShn, h'.lost.trans h.lost, h'.regs.trans h.regs⟩

section reports
variable {devReg : DevIrqReg}

theorem onPcieLink_same : SameMain s (onPcieLink devReg s) := by
  unfold onPcieLink
  split <;> exact ⟨rfl, rfl, rfl, rfl, rfl⟩

theorem onNvmeCcEn_same : SameMain s (onNvmeCcEn devReg s) := by
  unfold onNvmeCcEn
  split <;> exact ⟨rfl, rfl, rfl, rfl, rfl⟩

theorem onNvmeCcShn_same : SameMain s (onNvmeCcShn devReg s) := by
  unfold onNvmeCcShn
  split <;> exact ⟨rfl, rfl, rfl, rfl, rfl⟩

@[simp] theorem onPcieLink_status : (onPcieLink devReg s).status =
    if devReg.pcieLink ∧ s.regs.pcieLinkUp = false then .reset else s.status := by
  unfold onPcieLink
  split <;> rfl

@[simp] theorem onNvmeCcEn_status : (onNvmeCcEn devReg s).status =
    if devReg.nvmeCcEn then if s.regs.ccEn then .waitCcEn else .reset else s.status := by
  unfold onNvmeCcEn
  split <;> rfl

@[simp] theorem onNvmeCcShn_status : (onNvmeCcShn devReg s).status =
    if devReg.nvmeCcShn ∧ s.regs.ccShn = 1 then .shutdown else s.status := by
  unfold onNvmeCcShn
  split <;> rfl

@[simp] theorem onPcieLink_untested : (onPcieLink devReg s).untested =
    (decide (devReg.pcieLink ∧ s.regs.pcieLinkUp = false) || s.untested) := by
  unfold onPcieLink
  split <;> simp [store, *]

@[simp] theorem onNvmeCcEn_untested : (onNvmeCcEn devReg s).untested = (devReg.nvmeCcEn || s.untested) := by
  unfold onNvmeCcEn
  split <;> simp [store, *]

@[simp] theorem onNvmeCcShn_untested : (onNvmeCcShn devReg s).untested =
    (decide (devReg.nvmeCcShn ∧ s.regs.ccShn = 1) || s.untested) := by
  unfold onNvmeCcShn
  split <;> simp [store, *]

@[simp] theorem onPcieLink_lastCcEn : (onPcieLink devReg s).lastCcEn = s.lastCcEn := by
  unfold onPcieLink
  split <;> rfl

@[simp] theorem onNvmeCcEn_lastCcEn : (onNvmeCcEn devReg s).lastCcEn =
    if devReg.nvmeCcEn then some s.regs.ccEn else s.lastCcEn := by
  unfold onNvmeCcEn
  split <;> rfl

@[simp] theorem onNvmeCcShn_lastCcEn : (onNvmeCcShn devReg s).lastCcEn = s.lastCcEn := by
  unfold onNvmeCcShn
  split <;> rfl

end reports

theorem devIrqHandler_same (s : MainLoop) :
    SameMain { s with regs := { s.regs with devIrq := {} } } s.devIrqHandler :=
  (onPcieLink_same.trans onNvmeCcEn_same).trans onNvmeCcShn_same

/-- The later a report is looked at, the more it counts. -/
theorem devIrqHandler_status (s : MainLoop) :
    s.devIrqHandler.status =
      if s.ShutdownRequested then .shutdown
      else if s.regs.devIrq.nvmeCcEn then if s.regs.ccEn then .waitCcEn else .reset
      else if s.LinkDown then .reset
      else s.status := by
  simp only [devIrqHandler, onNvmeCcShn_status, onNvmeCcEn_status, onPcieLink_status, onNvmeCcEn_same.regs,
    onPcieLink_same.regs, ShutdownRequested, LinkDown]

theorem devIrqHandler_untested (s : MainLoop) : s.devIrqHandler.untested = (decide s.Stores || s.untested) := by
  simp only [devIrqHandler, onNvmeCcShn_untested, onNvmeCcEn_untested, onPcieLink_untested, onNvmeCcEn_same.regs,
    onPcieLink_same.regs, Stores, ShutdownRequested, LinkDown]
  grind

theorem devIrqHandler_lastCcEn (s : MainLoop) :
    s.devIrqHandler.lastCcEn = if s.regs.devIrq.nvmeCcEn then some s.regs.ccEn else s.lastCcEn := by
  simp only [devIrqHandler, onNvmeCcShn_lastCcEn, onNvmeCcEn_lastCcEn, onPcieLink_lastCcEn, onPcieLink_same.regs]

/-! ### The invariant -/

/-- What a status tells of the last CC.EN event, one more of which may be left to be handled. -/
def Fits (lastCcEn : Option Bool) (left : Bool) : NvmeTask → Prop
  | .waitCcEn => lastCcEn = some true
  | .running => lastCcEn = some true
  | .reset => lastCcEn ≠ some true
  | .idle => lastCcEn ≠ some true ∨ left = true
  | .shutdown => True
  | .waitReset => True

/-- The status fits the last CC.EN event, and so does what a branch was entered for as long as
the handler stored nothing since. -/
structure StatusOk (s : MainLoop) : Prop where
  kept : s.lost = false
  tested : s.Committed → s.untested = false
  register : s.regs.devIrq.nvmeCcEn = false →
    s.lastCcEn = some s.regs.ccEn ∨ s.lastCcEn = none ∧ s.regs.ccEn = false
  fits : Fits s.lastCcEn s.regs.devIrq.nvmeCcEn s.status
  entered : ∀ task, s.branch = some task → s.untested = false → Fits s.lastCcEn s.regs.devIrq.nvmeCcEn task
  aim : s.branch = some .waitReset → s.Committed → Fits s.lastCcEn s.regs.devIrq.nvmeCcEn .idle

theorem statusOk_init : StatusOk {} where
  kept := rfl
  tested := nofun
  register _ := .inr ⟨rfl, rfl⟩
  fits := .inl nofun
  entered _ branch := nomatch branch
  aim branch := nomatch branch

theorem Committed.branch_ne (committed : s.Committed) : s.branch ≠ none := by
  unfold Committed at committed
  unfold branch
  split at committed <;> simp_all

/-- A check that finds the controller disabled tells of the last event, or of one to come. -/
theorem StatusOk.disabled (ok : StatusOk s) (disabled : s.regs.ccEn = false) :
    Fits s.lastCcEn s.regs.devIrq.nvmeCcEn .idle := by
  cases left : s.regs.devIrq.nvmeCcEn with
  | true => exact .inr rfl
  | false =>
    left
    rcases ok.register left with last | ⟨last, -⟩ <;> simp [last, disabled]

/-- What a branch assigns fits when what it was entered for did. -/
theorem StatusOk.target_fits {task status : NvmeTask} (ok : StatusOk s) (branch : s.branch = some task)
    (committed : s.Committed) (assigned : target task = some status) :
    Fits s.lastCcEn s.regs.devIrq.nvmeCcEn status := by
  have entered := ok.entered task branch (ok.tested committed)
  cases task with
  | waitCcEn =>
    cases assigned
    exact entered
  | shutdown =>
    cases assigned
    trivial
  | waitReset =>
    cases assigned
    exact ok.aim branch committed
  | reset =>
    cases assigned
    exact .inl entered
  | running => cases assigned
  | idle => cases assigned

theorem StatusOk.statement (ok : StatusOk s) {work : Bool} (inTime : s.Commits → s.untested = false) :
    StatusOk (s.statement work) := by
  have register : ∀ {s' : MainLoop}, s'.lastCcEn = s.lastCcEn → s'.regs.devIrq = s.regs.devIrq →
      s'.regs.ccEn = s.regs.ccEn → s'.regs.devIrq.nvmeCcEn = false →
        s'.lastCcEn = some s'.regs.ccEn ∨ s'.lastCcEn = none ∧ s'.regs.ccEn = false := by
    intro s' last irq ccEn left
    rw [irq] at left
    rw [last, ccEn]
    exact ok.register left
  cases statement_cases s work with
  | goesOn quiet same branch committed =>
    obtain ⟨status, lost, last, irq, ccEn⟩ := quiet
    have stays : ∀ task, (s.statement work).branch = some task → s.branch = some task := by
      intro task here
      rcases branch with branch | branch
      · exact branch ▸ here
      · rw [branch] at here
        cases here
    refine ⟨lost.trans ok.kept, fun now => ?_, register last irq ccEn, ?_, ?_, ?_⟩
    · rw [same]
      exact (committed now).elim ok.tested inTime
    · rw [last, irq, status]
      exact ok.fits
    · intro task here
      rw [last, irq, same]
      exact ok.entered task (stays task here)
    · intro here now
      rw [last, irq]
      rcases committed now with before | ⟨pc, -⟩ | ⟨pc, -⟩ | ⟨-, disabled⟩
      · exact ok.aim (stays _ here) before
      · have other := stays _ here
        simp [MainLoop.branch, pc] at other
      · have other := stays _ here
        simp [MainLoop.branch, pc] at other
      · exact ok.disabled disabled
  | enters quiet tested branch committed =>
    obtain ⟨status, lost, last, irq, ccEn⟩ := quiet
    have entered : ∀ task, (s.statement work).branch = some task → s.status = task := by
      intro task here
      rcases branch with branch | branch <;> rw [branch] at here
      · exact Option.some.inj here
      · cases here
    refine ⟨lost.trans ok.kept, fun _ => tested, register last irq ccEn, ?_, ?_, ?_⟩
    · rw [last, irq, status]
      exact ok.fits
    · intro task here _
      rw [last, irq, ← entered task here]
      exact ok.fits
    · intro here now
      cases (entered _ here).symm.trans (committed now)
  | assigns task branch committed status lost left last regs =>
    refine ⟨by simp [lost, ok.kept, ok.tested committed], fun now => absurd left now.branch_ne,
      register last (by rw [regs]) (by rw [regs]), ?_, ?_, ?_⟩
    · rw [last, regs]
      exact ok.target_fits branch committed status
    · intro task' here
      rw [left] at here
      cases here
    · intro here
      rw [left] at here
      cases here

theorem StatusOk.interrupt (ok : StatusOk s) (inTime : s.Stores → ¬ s.Committed)
    (linkKept : s.LinkDown → ¬ s.regs.devIrq.nvmeCcEn = true → ¬ s.ShutdownRequested → s.lastCcEn ≠ some true) :
    StatusOk s.devIrqHandler := by
  obtain ⟨pc, ccEn, ccShn, lost, regs⟩ := devIrqHandler_same s
  have committed : s.devIrqHandler.Committed ↔ s.Committed := by
    unfold Committed
    rw [pc, ccEn, ccShn]
  have branch : s.devIrqHandler.branch = s.branch := by
    unfold MainLoop.branch
    rw [pc]
  have last := devIrqHandler_lastCcEn s
  have untested := devIrqHandler_untested s
  have status := devIrqHandler_status s
  have register : s.devIrqHandler.lastCcEn = some s.regs.ccEn ∨
      s.devIrqHandler.lastCcEn = none ∧ s.regs.ccEn = false := by
    rw [last]
    split
    · exact .inl rfl
    · rename_i none
      exact ok.register (by simpa using none)
  have handled : s.devIrqHandler.regs.devIrq.nvmeCcEn = false := by rw [regs]
  have enabled : s.devIrqHandler.regs.ccEn = s.regs.ccEn := by rw [regs]
  by_cases stores : s.Stores
  · simp only [stores, decide_true, Bool.true_or] at untested
    refine ⟨lost.trans ok.kept, fun now => absurd (committed.mp now) (inTime stores), fun _ => by rw [enabled]; exact register,
      ?_, fun _ _ tested => absurd (untested.symm.trans tested) nofun,
      fun _ now => absurd (committed.mp now) (inTime stores)⟩
    rw [status, last]
    by_cases requested : s.ShutdownRequested
    · rw [if_pos requested]
      trivial
    · rw [if_neg requested]
      by_cases report : s.regs.devIrq.nvmeCcEn = true
      · rw [if_pos report, if_pos report]
        cases s.regs.ccEn <;> simp [Fits]
      · rw [if_neg report, if_neg report]
        have link : s.LinkDown := stores.elim id fun other => absurd other (not_or.mpr ⟨report, requested⟩)
        rw [if_pos link]
        exact linkKept link report requested
  · obtain ⟨link, report, requested⟩ : ¬ s.LinkDown ∧ ¬ s.regs.devIrq.nvmeCcEn = true ∧ ¬ s.ShutdownRequested := by
      simpa [Stores] using stores
    rw [if_neg requested, if_neg report, if_neg link] at status
    rw [if_neg report] at last
    rw [Bool.not_eq_true] at report
    simp only [stores, decide_false, Bool.false_or] at untested
    have fits : ∀ task, Fits s.lastCcEn s.regs.devIrq.nvmeCcEn task →
        Fits s.devIrqHandler.lastCcEn s.devIrqHandler.regs.devIrq.nvmeCcEn task := by
      intro task before
      rw [last, handled]
      rwa [report] at before
    refine ⟨lost.trans ok.kept, fun now => ?_, fun _ => by rw [enabled]; exact register, ?_, ?_, ?_⟩
    · rw [untested]
      exact ok.tested (committed.mp now)
    · rw [status]
      exact fits _ ok.fits
    · intro task here tested
      exact fits task (ok.entered task (branch ▸ here) (untested ▸ tested))
    · intro here now
      exact fits _ (ok.aim (branch ▸ here) (committed.mp now))

/-- A change by the host only leaves something more to be handled. -/
theorem StatusOk.host (ok : StatusOk s) {regs : HostRegs}
    (left : s.regs.devIrq.nvmeCcEn = true → regs.devIrq.nvmeCcEn = true)
    (changed : regs.devIrq.nvmeCcEn = false → regs.ccEn = s.regs.ccEn) : StatusOk { s with regs } := by
  have before : regs.devIrq.nvmeCcEn = false → s.regs.devIrq.nvmeCcEn = false := by
    intro none
    rw [← Bool.not_eq_true]
    exact fun some => absurd (none.symm.trans (left some)) nofun
  have fits : ∀ task, Fits s.lastCcEn s.regs.devIrq.nvmeCcEn task → Fits s.lastCcEn regs.devIrq.nvmeCcEn task := by
    intro task fits
    cases task with
    | idle => exact fits.imp_right left
    | _ => exact fits
  exact ⟨ok.kept, ok.tested, fun none => by rw [changed none]; exact ok.register (before none), fits _ ok.fits,
    fun task here tested => fits task (ok.entered task here tested), fun here now => fits _ (ok.aim here now)⟩

theorem StatusOk.next (ok : StatusOk s) (inTime : s.InTime input) (linkKept : s.LinkKept input)
    (step : s.next input = some s') : StatusOk s' := by
  cases input with
  | statement work =>
    cases step
    exact ok.statement inTime
  | interrupt =>
    cases step
    exact ok.interrupt inTime linkKept
  | ccEn ccEn =>
    cases step
    exact ok.host (fun _ => rfl) nofun
  | ccShn ccShn =>
    cases step
    exact ok.host id fun _ => rfl
  | link up =>
    cases step
    exact ok.host id fun _ => rfl
  | command qID =>
    cases step
    exact ok.host id fun _ => rfl

/-! ### The runs -/

/-- In every interleaving in which the handler stores no status between the check of a branch and
its assignment, and the link does not go down while the controller is enabled, no status it
stores is lost; the loop does not settle as running after a disable, nor as idle after an enable. -/
theorem status_kept_of_run (run : Run next (fun s input => s.InTime input ∧ s.LinkKept input) {} inputs s) :
    s.lost = false ∧ ¬ (s.Settled .running ∧ s.lastCcEn = some false) ∧
      ¬ (s.Settled .idle ∧ s.lastCcEn = some true) := by
  have ok : StatusOk s := by
    apply run.invariant StatusOk statusOk_init
    intro s input s' ok met step
    exact ok.next met.1 met.2 step
  refine ⟨ok.kept, ?_, ?_⟩
  · rintro ⟨⟨status, -⟩, last⟩
    have fits := ok.fits
    rw [status, last] at fits
    cases fits
  · rintro ⟨⟨status, handled⟩, last⟩
    have fits := ok.fits
    rw [status, handled, last] at fits
    exact fits.elim (· rfl) nofun

/-- The statements of the loop one after the other. -/
def statements (n : Nat) : List Input := List.replicate n (.statement false)

/-- The controller is enabled, disabled and enabled again, each time while the loop is elsewhere. -/
theorem status_kept_of_run_enable :
    ∃ s, Run next (fun s input => s.InTime input ∧ s.LinkKept input) {}
      ([.ccEn true, .interrupt] ++ statements 7 ++ [.ccEn false, .interrupt] ++ statements 40 ++
        [.ccEn true, .interrupt] ++ statements 10) s ∧
      s.status = .running ∧ s.lost = false := by
  have done : (exec next (fun s input => s.InTime input ∧ s.LinkKept input) {}
      ([.ccEn true, .interrupt] ++ statements 7 ++ [.ccEn false, .interrupt] ++ statements 40 ++
        [.ccEn true, .interrupt] ++ statements 10)).any (fun s => s.status = .running) = true := by decide +kernel
  obtain ⟨s, run, shown⟩ := run_of_exec_any done
  exact ⟨s, run, of_decide_eq_true shown, (status_kept_of_run run).1⟩

/-- The controller is disabled after the loop has seen that it is enabled: the loop goes on as
running. It is enabled again while the loop resets it: the loop goes on as idle. -/
theorem status_lost :
    (∃ inputs s, Run next (fun _ _ => True) {} inputs s ∧
      s.lost = true ∧ s.Settled .running ∧ s.lastCcEn = some false) ∧
    ∃ inputs s, Run next (fun _ _ => True) {} inputs s ∧
      s.lost = true ∧ s.Settled .idle ∧ s.lastCcEn = some true := by
  have disabled : (exec next (fun _ _ => True) {} ([.ccEn true, .interrupt] ++ statements 3 ++
      [.ccEn false, .interrupt] ++ statements 4)).any
        (fun s => s.lost = true ∧ s.status = .running ∧ s.regs.devIrq.nvmeCcEn = false ∧ s.lastCcEn = some false) =
      true := by decide +kernel
  have enabled : (exec next (fun _ _ => True) {} ([.ccEn true, .interrupt, .ccEn false, .interrupt] ++
      statements 6 ++ [.ccEn true, .interrupt] ++ statements 33)).any
        (fun s => s.lost = true ∧ s.status = .idle ∧ s.regs.devIrq.nvmeCcEn = false ∧ s.lastCcEn = some true) =
      true := by decide +kernel
  obtain ⟨s, run, shown⟩ := run_of_exec_any disabled
  obtain ⟨t, run', shown'⟩ := run_of_exec_any enabled
  obtain ⟨lost, status, handled, last⟩ := of_decide_eq_true shown
  obtain ⟨lost', status', handled', last'⟩ := of_decide_eq_true shown'
  exact ⟨⟨_, s, run, lost, ⟨status, handled⟩, last⟩, _, t, run', lost', ⟨status', handled'⟩, last'⟩

end MainLoop

end OcpFw
