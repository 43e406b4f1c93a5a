import OcpFw.HostDma
import OcpFw.Runs

/-! Which automatic DMA commands are done. The hardware shows the number of commands it
completed in 8 bits, and the firmware counts the commands it issued in 8 bits and the laps
of that counter. While the FIFO never holds more than 255 commands, comparing these tells
exactly whether a command is done. -/
namespace OcpFw
open Runs (Run exec run_of_exec_any)

namespace HostDma

/-- The commands issued in a direction so far. -/
def issuedCommands (h : HostDma) (dir : DmaDirection) : List AutoDma :=
  h.commands.filter fun c => decide (c.dmaDirection = dir)

def issued (h : HostDma) (dir : DmaDirection) : Nat := (h.issuedCommands dir).length

/-- The body of the two functions below, for the head the register shows. -/
def checkAutoDmaPartialDone (h : HostDma) (dir : DmaDirection) (fifoHead tailIndex tailAssistIndex : Nat) : Bool :=
  if fifoHead = h.fifoTail dir then true
  else if fifoHead < tailIndex then
    if h.fifoTail dir < tailIndex then
      if h.fifoTail dir > fifoHead then true
      else decide (h.overFlowCnt dir ≠ inc32 tailAssistIndex)
    else decide (h.overFlowCnt dir ≠ tailAssistIndex)
  else if fifoHead = tailIndex then true
  else if h.fifoTail dir < tailIndex then true
  else if h.fifoTail dir > fifoHead then true
  else decide (h.overFlowCnt dir ≠ tailAssistIndex)

def checkAutoTxDmaPartialDone (h : HostDma) (fifoHead tailIndex tailAssistIndex : Nat) : Bool :=
  h.checkAutoDmaPartialDone .tx fifoHead tailIndex tailAssistIndex

def checkAutoRxDmaPartialDone (h : HostDma) (fifoHead tailIndex tailAssistIndex : Nat) : Bool :=
  h.checkAutoDmaPartialDone .rx fifoHead tailIndex tailAssistIndex

variable {h h' : HostDma} {dir : DmaDirection} {cmdSlotTag cmd4KBOffset devAddr : Nat}

/-! ### Counting commands -/

/-- The tails and the overflow counters count the commands. -/
structure CountsOk (h : HostDma) : Prop where
  fifoTail : ∀ dir, h.fifoTail dir = h.issued dir % 256
  overFlowCnt : ∀ dir, h.overFlowCnt dir = h.issued dir / 256 % 2 ^ 32

theorem CountsOk.init : CountsOk {} where
  fifoTail dir := by simp [issued, issuedCommands]
  overFlowCnt dir := by simp [issued, issuedCommands]

theorem issuedCommands_append (h : HostDma) (tail cnt : DmaDirection → Nat) (new : List AutoDma)
    (d : DmaDirection) :
    issuedCommands ⟨tail, cnt, h.commands ++ new⟩ d =
      h.issuedCommands d ++ new.filter fun c => decide (c.dmaDirection = d) := List.filter_append _ _

/-- A command is counted in its direction. -/
theorem CountsOk.setAutoDma (ok : CountsOk h)
    (done : h.setAutoDma dir cmdSlotTag cmd4KBOffset devAddr = some h') :
    CountsOk h' ∧ cmd4KBOffset < 256 ∧
      h'.commands = h.commands ++ [⟨dir, cmdSlotTag, cmd4KBOffset, devAddr⟩] := by
  unfold HostDma.setAutoDma at done
  split at done
  · rename_i low
    cases done
    refine ⟨⟨fun d => ?_, fun d => ?_⟩, low, rfl⟩
    · simp only [issued, issuedCommands_append, List.length_append]
      by_cases here : d = dir
      · subst here
        simp [ok.fifoTail d, issued]
      · simp [here, Ne.symm here, ok.fifoTail d, issued]
    · simp only [issued, issuedCommands_append, List.length_append]
      by_cases here : d = dir
      · subst here
        have tail := ok.fifoTail d
        have laps := ok.overFlowCnt d
        simp only [issued] at tail laps
        simp only [tail, decide_true, List.filter_cons_of_pos, List.filter_nil, List.length_cons,
          List.length_nil]
        split
        · rename_i wrapped
          rw [Function.update_self, laps, inc32]
          omega
        · rename_i plain
          rw [laps]
          omega
      · split <;> simp [here, Ne.symm here, ok.overFlowCnt d, issued]
  · cases done

/-- The check is exact while the FIFO holds at most 255 commands and the overflow counter has
not made a whole turn since the command. -/
theorem CountsOk.partialDone_iff (ok : CountsOk h) {completed last : Nat} (done : completed ≤ h.issued dir)
    (window : h.issued dir - completed ≤ 255) (past : last ≤ h.issued dir)
    (young : h.issued dir / 256 < last / 256 + 2 ^ 32) :
    h.checkAutoDmaPartialDone dir (completed % 256) (last % 256) (last / 256 % 2 ^ 32) = true ↔
      last ≤ completed := by
  unfold checkAutoDmaPartialDone inc32
  rw [ok.fifoTail dir, ok.overFlowCnt dir]
  generalize h.issued dir = issued at *
  split_ifs <;> simp only [true_iff, decide_eq_true_eq] <;> omega

/-! ### The commands of a request -/

/-- The commands for consecutive blocks at consecutive addresses. -/
def autoDmas (dir : DmaDirection) (cmdSlotTag dmaIndex devAddr numOfNvmeBlock : Nat) : List AutoDma :=
  (List.range numOfNvmeBlock).map fun i =>
    ⟨dir, cmdSlotTag, dmaIndex + i, (devAddr + i * bytesPerNvmeBlock) % 2 ^ 32⟩

theorem autoDmas_succ (dir : DmaDirection) (cmdSlotTag dmaIndex devAddr n : Nat) (word : devAddr < 2 ^ 32) :
    autoDmas dir cmdSlotTag dmaIndex devAddr (n + 1) =
      ⟨dir, cmdSlotTag, dmaIndex, devAddr⟩ ::
        autoDmas dir cmdSlotTag (dmaIndex + 1) ((devAddr + bytesPerNvmeBlock) % 2 ^ 32) n := by
  unfold autoDmas
  rw [List.range_succ_eq_map, List.map_cons, List.map_map]
  congr 1
  · simp only [Nat.add_zero, Nat.zero_mul, Nat.mod_eq_of_lt word]
  · apply List.map_congr_left
    intro i _
    simp only [Function.comp_apply, AutoDma.mk.injEq, true_and, Nat.succ_mul]
    omega

/-- The loop issues the commands of the request, all with offsets below 256. -/
theorem setAutoDmas_spec {dmaIndex n : Nat} (word : devAddr < 2 ^ 32)
    (done : setAutoDmas (·.setAutoDma dir) cmdSlotTag h dmaIndex devAddr n = some h') :
    (n ≠ 0 → dmaIndex + n ≤ 256) ∧ h'.commands = h.commands ++ autoDmas dir cmdSlotTag dmaIndex devAddr n ∧
      (CountsOk h → CountsOk h') := by
  induction n generalizing h dmaIndex devAddr with
  | zero =>
    cases done
    exact ⟨fun some => absurd rfl some, by simp [autoDmas], id⟩
  | succ n ih =>
    simp only [setAutoDmas, Option.bind_eq_bind, Option.bind_eq_some_iff] at done
    obtain ⟨t, first, rest⟩ := done
    have low : dmaIndex < 256 ∧ t.commands = h.commands ++ [⟨dir, cmdSlotTag, dmaIndex, devAddr⟩] := by
      unfold setAutoDma at first
      split at first
      · cases first
        exact ⟨‹_›, rfl⟩
      · cases first
    have next : inc32 dmaIndex = dmaIndex + 1 := inc32_of_lt (by omega)
    rw [next] at rest
    obtain ⟨offsets, commands, counts⟩ := ih (Nat.mod_lt _ (by decide)) rest
    refine ⟨fun _ => ?_, ?_, fun ok => counts (ok.setAutoDma first).1⟩
    · by_cases last : n = 0
      · omega
      · have bound := offsets last
        omega
    · rw [commands, low.2, List.append_assoc, autoDmas_succ _ _ _ _ _ word]
      rfl

end HostDma

/-- The direction a DMA request is checked in. -/
def SsdReq.dmaDirection (req : SsdReq) : DmaDirection := if req.reqCode = .rxDma then .rx else .tx

/-- A request after its commands were issued. -/
def SsdReq.recorded (req : SsdReq) (h : HostDma) : SsdReq :=
  { req with
    nvmeDmaInfo :=
      { req.nvmeDmaInfo with
        reqTail := h.fifoTail req.dmaDirection, overFlowCnt := h.overFlowCnt req.dmaDirection } }

/-- Issuing a request appends its commands and records the counters after them. -/
theorem issueNvmeDmaReq_spec {g : Geometry} {h h' : HostDma} {req req' : SsdReq}
    (type : req.reqType = .nvmeDma) (done : issueNvmeDmaReq g h req = some (req', h')) :
    ∃ devAddr, generateDataBufAddr g req = some devAddr ∧ req' = req.recorded h' ∧
      (req.nvmeDmaInfo.numOfNvmeBlock ≠ 0 →
        req.nvmeDmaInfo.startIndex + req.nvmeDmaInfo.numOfNvmeBlock ≤ 256) ∧
      h'.commands = h.commands ++ HostDma.autoDmas req.dmaDirection req.nvmeCmdSlotTag
        req.nvmeDmaInfo.startIndex devAddr req.nvmeDmaInfo.numOfNvmeBlock ∧
      (h.CountsOk → h'.CountsOk) := by
  simp only [issueNvmeDmaReq, Option.bind_eq_bind, Option.bind_eq_some_iff] at done
  obtain ⟨devAddr, addr, done⟩ := done
  have word : devAddr < 2 ^ 32 := by
    simp only [generateDataBufAddr, type] at addr
    split at addr
    · cases addr
      exact Nat.mod_lt _ (by decide)
    · cases addr
  refine ⟨devAddr, addr, ?_⟩
  split at done
  · rename_i code
    simp only [Option.bind_eq_some_iff, Option.some.injEq, Prod.mk.injEq] at done
    obtain ⟨t, issued, rfl, rfl⟩ := done
    have dir : req.dmaDirection = .rx := by simp [SsdReq.dmaDirection, code]
    rw [SsdReq.recorded, dir]
    exact ⟨rfl, HostDma.setAutoDmas_spec word issued⟩
  · rename_i code
    simp only [Option.bind_eq_some_iff, Option.some.injEq, Prod.mk.injEq] at done
    obtain ⟨t, issued, rfl, rfl⟩ := done
    have dir : req.dmaDirection = .tx := by simp [SsdReq.dmaDirection, code]
    rw [SsdReq.recorded, dir]
    exact ⟨rfl, HostDma.setAutoDmas_spec word issued⟩
  · cases done

/-! ### Histories -/

/-- The counters of the firmware, and how many commands the hardware completed. -/
structure DmaEngine where
  hostDma : HostDma := {}
  completed : DmaDirection → Nat := fun _ => 0

/-- The firmware issues a command, or the hardware completes the next one. -/
inductive DmaInput where
  | issue (dir : DmaDirection) (cmdSlotTag cmd4KBOffset devAddr : Nat)
  | complete (dir : DmaDirection)

/-- The firmware waits until the register shows that the FIFO is not full; what is completed
during the wait are steps of their own. -/
def dmaStep (s : DmaEngine) : DmaInput → Option DmaEngine
  | .issue dir cmdSlotTag cmd4KBOffset devAddr =>
    if (s.hostDma.fifoTail dir + 1) % 256 = s.completed dir % 256 then none
    else do
      let h ← s.hostDma.setAutoDma dir cmdSlotTag cmd4KBOffset devAddr
      some { s with hostDma := h }
  | .complete dir =>
    if s.completed dir < s.hostDma.issued dir then
      some { s with completed := Function.update s.completed dir (s.completed dir + 1) }
    else none

/-- The counters count, and at most 255 commands are not completed. -/
structure DmaEngineOk (s : DmaEngine) : Prop where
  counts : s.hostDma.CountsOk
  completed : ∀ dir, s.completed dir ≤ s.hostDma.issued dir
  window : ∀ dir, s.hostDma.issued dir - s.completed dir ≤ 255

variable {s s' : DmaEngine}

theorem DmaEngineOk.init : DmaEngineOk {} where
  counts := .init
  completed dir := Nat.zero_le _
  window dir := by simp [HostDma.issued, HostDma.issuedCommands]

/-- A step keeps the counters, and issues at most one command more. -/
theorem DmaEngineOk.step (ok : DmaEngineOk s) {input : DmaInput} (done : dmaStep s input = some s') :
    DmaEngineOk s' ∧ ∀ dir, s.hostDma.issued dir ≤ s'.hostDma.issued dir := by
  cases input with
  | issue dir cmdSlotTag cmd4KBOffset devAddr =>
    simp only [dmaStep] at done
    split at done
    · cases done
    · rename_i room
      simp only [Option.bind_eq_bind, Option.bind_eq_some_iff, Option.some.injEq] at done
      obtain ⟨h, set, rfl⟩ := done
      obtain ⟨counts, -, commands⟩ := ok.counts.setAutoDma set
      have issued : ∀ d, h.issued d = s.hostDma.issued d + if d = dir then 1 else 0 := by
        intro d
        by_cases here : d = dir
        · simp [HostDma.issued, HostDma.issuedCommands, commands, here]
        · simp [HostDma.issued, HostDma.issuedCommands, commands, here, Ne.symm here]
      refine ⟨⟨counts, fun d => ?_, fun d => ?_⟩, fun d => ?_⟩
      · have before := ok.completed d
        simp only [issued d]
        omega
      · have before := ok.completed d
        have window := ok.window d
        simp only [issued d]
        by_cases here : d = dir
        · subst here
          rw [ok.counts.fifoTail d] at room
          simp only [↓reduceIte]
          omega
        · simp only [here, ↓reduceIte]
          omega
      · simp only [issued d]
        omega
  | complete dir =>
    simp only [dmaStep] at done
    split at done
    · rename_i pending
      cases done
      refine ⟨⟨ok.counts, fun d => ?_, fun d => ?_⟩, fun d => le_rfl⟩
      · by_cases here : d = dir
        · subst here
          simp only [Function.update_self]
          exact pending
        · simpa [here] using ok.completed d
      · have window := ok.window d
        by_cases here : d = dir
        · subst here
          simp only [Function.update_self]
          omega
        · simpa [here] using window
    · cases done

theorem DmaEngineOk.run {init : DmaEngine} {inputs : List DmaInput} (ok : DmaEngineOk init)
    (run : Run dmaStep (fun _ _ => True) init inputs s) :
    DmaEngineOk s ∧ ∀ dir, init.hostDma.issued dir ≤ s.hostDma.issued dir :=
  run.invariant (fun s => DmaEngineOk s ∧ ∀ dir, init.hostDma.issued dir ≤ s.hostDma.issued dir)
    ⟨ok, fun _ => le_rfl⟩ fun _ _ _ ⟨ok, more⟩ _ done =>
      ⟨(ok.step done).1, fun dir => (more dir).trans ((ok.step done).2 dir)⟩

/-- A request recorded the tail and the overflow counter when it was issued. In every history
after that the check finds it done exactly when the hardware completed its last command. -/
theorem partial_done_exact (before after : List DmaInput) (s s' : DmaEngine)
    (issue : Run dmaStep (fun _ _ => True) {} before s)
    (later : Run dmaStep (fun _ _ => True) s after s')
    (bound : ∀ dir, s'.hostDma.issued dir < 2 ^ 40) :
    (s'.hostDma.checkAutoTxDmaPartialDone (s'.completed .tx % 256) (s.hostDma.fifoTail .tx)
        (s.hostDma.overFlowCnt .tx) = true ↔ s.hostDma.issued .tx ≤ s'.completed .tx) ∧
      (s'.hostDma.checkAutoRxDmaPartialDone (s'.completed .rx % 256) (s.hostDma.fifoTail .rx)
        (s.hostDma.overFlowCnt .rx) = true ↔ s.hostDma.issued .rx ≤ s'.completed .rx) ∧
      ∀ dir, s'.completed dir ≤ s'.hostDma.issued dir ∧
        s'.hostDma.issued dir - s'.completed dir ≤ 255 ∧
        s'.hostDma.fifoTail dir = s'.hostDma.issued dir % 256 ∧
        s'.hostDma.overFlowCnt dir = s'.hostDma.issued dir / 256 := by
  obtain ⟨recorded, -⟩ := DmaEngineOk.init.run issue
  obtain ⟨ok, more⟩ := recorded.run later
  have exact : ∀ dir, s'.hostDma.checkAutoDmaPartialDone dir (s'.completed dir % 256) (s.hostDma.fifoTail dir)
      (s.hostDma.overFlowCnt dir) = true ↔ s.hostDma.issued dir ≤ s'.completed dir := by
    intro dir
    have fits := bound dir
    rw [recorded.counts.fifoTail dir, recorded.counts.overFlowCnt dir]
    exact ok.counts.partialDone_iff (ok.completed dir) (ok.window dir) (more dir) (by omega)
  refine ⟨exact .tx, exact .rx, fun dir => ⟨ok.completed dir, ok.window dir, ok.counts.fifoTail dir, ?_⟩⟩
  have fits := bound dir
  rw [ok.counts.overFlowCnt dir, Nat.mod_eq_of_lt (by omega)]

/-- The last command of the request is the first one after the 8-bit tail wrapped; it is found
done once it is completed, with another command behind it. -/
theorem partial_done_exact_wrapped :
    ∃ s s', Run dmaStep (fun _ _ => True) {}
        ((List.replicate 255 [.issue .tx 0 0 0x10000000, .complete .tx]).flatten ++ [.issue .tx 0 0 0x10000000]) s ∧
      Run dmaStep (fun _ _ => True) s [.issue .tx 1 0 0x10004000, .complete .tx] s' ∧
      (s.hostDma.fifoTail .tx, s.hostDma.overFlowCnt .tx) = (0, 1) ∧
      s'.hostDma.checkAutoTxDmaPartialDone (s'.completed .tx % 256) 0 1 = true ∧
      s.hostDma.issued .tx ≤ s'.completed .tx := by
  have done : (exec dmaStep (fun _ _ => True) {}
      ((List.replicate 255 [.issue .tx 0 0 0x10000000, .complete .tx]).flatten ++
        [.issue .tx 0 0 0x10000000])).any (fun s =>
          (s.hostDma.fifoTail .tx, s.hostDma.overFlowCnt .tx) = (0, 1) ∧
          (exec dmaStep (fun _ _ => True) s [.issue .tx 1 0 0x10004000, .complete .tx]).any (fun s' =>
            s'.hostDma.checkAutoTxDmaPartialDone (s'.completed .tx % 256) 0 1 = true ∧
              s'.hostDma.issued .tx < 2 ^ 40 ∧ s'.hostDma.issued .rx < 2 ^ 40) = true) = true := by
    decide +kernel
  obtain ⟨s, issue, rest⟩ := run_of_exec_any done
  obtain ⟨recorded, rest⟩ := of_decide_eq_true rest
  obtain ⟨s', later, shown⟩ := run_of_exec_any rest
  obtain ⟨found, fewTx, fewRx⟩ := of_decide_eq_true shown
  have exact := partial_done_exact _ _ s s' issue later fun dir => by cases dir <;> assumption
  simp only [Prod.mk.injEq] at recorded
  rw [recorded.1, recorded.2] at exact
  exact ⟨s, s', issue, later, by simp [recorded], found, exact.1.mp found⟩

end OcpFw
