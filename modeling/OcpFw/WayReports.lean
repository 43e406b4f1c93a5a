import OcpFw.FlashController

/-! What a way has to report. A word is cleared before the command that names it is issued,
and only when no other command has a report to make; so what the scheduler finds in it
was reported by the last command, and that was issued after the request's phase. -/
namespace OcpFw
open InterfaceTraces (Stable Triple)

variable {w w' : NandWay} {m : WayMove} {k : ReportWord} {i phase report reqSlotTag : Nat} {reqCode : ReqCode}
  {req : SsdReq} {reqStatus : ReqStatus}

namespace NandWay

/-! ### One way -/

/-- No command has a report to make. -/
def Silent (w : NandWay) : Prop := ∀ k i, ¬ w.Outstanding k i

/-- The command at the position is the only one that may have a report to make; if its word
shows a report then it is this one. -/
structure Awaits (w : NandWay) (k : ReportWord) (report : Nat) : Prop where
  named : w.named report = some k
  only : ∀ k' j, w.Outstanding k' j → j = report
  shown : k.done (w.word k) = true → w.reporter k = some report ∧ report ∈ w.reported

/-- What is true of a way at any time. -/
def OneStatusCheck (w : NandWay) : Prop :=
  ∀ i j, w.Outstanding .statusReport i → w.Outstanding .statusReport j → i = j

/-- What is true when `ExecuteNandReq` receives a result. -/
def NotStale (w : NandWay) : WayAccess → Prop
  | .execute reqSlotTag req reqStatus =>
    reqStatus ≠ .running → req.reqCode ∈ [.read, .readTransfer, .write, .erase] →
      w.Reported reqSlotTag req reqStatus
  | _ => True

theorem Silent.oneStatusCheck (silent : w.Silent) : w.OneStatusCheck :=
  fun i _ outstanding => absurd outstanding (silent .statusReport i)

theorem Awaits.oneStatusCheck (awaits : w.Awaits k report) : w.OneStatusCheck :=
  fun i j first second => (awaits.only _ i first).trans (awaits.only _ j second).symm

/-- Once the report is there the way is silent. -/
theorem Awaits.silent (awaits : w.Awaits k report) (done : k.done (w.word k) = true) : w.Silent := by
  intro k' j outstanding
  cases awaits.only k' j outstanding
  exact outstanding.2 (awaits.shown done).2

/-! ### Steps of the controller -/

theorem move_commands (step : w.move m = some w') : w'.commands = w.commands := by
  cases m with
  | execute =>
    simp only [move] at step
    split at step <;> cases step
    rfl
  | report i value errorInfo =>
    simp only [move] at step
    split at step
    · split at step <;> cases step
      rfl
    · cases step

/-- Without a report to make the controller only executes. -/
theorem Silent.move (silent : w.Silent) (step : w.move m = some w') :
    w' = { w with executed := w'.executed } := by
  cases m with
  | execute =>
    simp only [NandWay.move] at step
    split at step <;> cases step
    rfl
  | report i value errorInfo =>
    simp only [NandWay.move] at step
    split at step
    · rename_i k named
      split at step <;> cases step
      rename_i allowed
      exact absurd ⟨named, allowed.2.1⟩ (silent k i)
    · cases step

theorem Awaits.move (awaits : w.Awaits k report) (step : w.move m = some w') : w'.Awaits k report := by
  cases m with
  | execute =>
    simp only [NandWay.move] at step
    split at step <;> cases step
    exact ⟨awaits.named, awaits.only, awaits.shown⟩
  | report i value errorInfo =>
    simp only [NandWay.move] at step
    split at step
    · rename_i k' named
      split at step <;> cases step
      rename_i allowed
      cases awaits.only k' i ⟨named, allowed.2.1⟩
      cases awaits.named.symm.trans named
      refine ⟨awaits.named, fun k' j outstanding => ?_, fun _ => ⟨by simp, List.mem_cons_self ..⟩⟩
      exact awaits.only k' j ⟨outstanding.1, fun old => outstanding.2 (List.mem_cons_of_mem _ old)⟩
    · cases step

theorem stable_silent : Stable NandWay.move Silent := by
  intro w m w' silent step
  rw [silent.move step]
  exact silent

theorem stable_awaits : Stable NandWay.move (Awaits · k report) := fun _ _ _ awaits step => awaits.move step

theorem stable_lastPhase : Stable NandWay.move (LastPhase · phase reqSlotTag reqCode) := by
  intro w m w' last step
  unfold LastPhase
  rw [move_commands step]
  exact last

theorem stable_and {P Q : NandWay → Prop} (first : Stable NandWay.move P) (second : Stable NandWay.move Q) :
    Stable NandWay.move fun w => P w ∧ Q w :=
  fun w m w' both step => ⟨first w m w' both.1 step, second w m w' both.2 step⟩

/-- What does not depend on how far the commands are executed. -/
theorem stable_silent_and {P : NandWay → Prop} (free : ∀ w n, P w → P { w with executed := n }) :
    Stable NandWay.move fun w => w.Silent ∧ P w := by
  rintro w m w' ⟨silent, holds⟩ step
  rw [silent.move step]
  exact ⟨silent, free w _ holds⟩

/-! ### Accesses of the firmware -/

theorem named_issue (w : NandWay) (command : FlashCommand) :
    (w.issue command).named i = if i = w.commands.length then command.names else w.named i := by
  unfold named issue
  by_cases last : i = w.commands.length
  · simp [last]
  · by_cases inside : i < w.commands.length
    · simp [last, List.getElem?_append_left inside]
    · have outside : w.commands.length + 1 ≤ i := by omega
      simp [last, List.getElem?_eq_none (by omega : w.commands.length ≤ i),
        List.getElem?_eq_none (l := w.commands ++ [command]) (by simpa using outside)]

/-- A command that names no word is issued. -/
theorem Silent.issue {command : FlashCommand} (silent : w.Silent) (names : command.names = none) :
    (w.issue command).Silent := by
  rintro k i ⟨named, still⟩
  rw [named_issue, names] at named
  split at named
  · cases named
  · exact silent k i ⟨named, still⟩

/-- A command is issued whose word was cleared. -/
theorem Silent.issue_awaits {command : FlashCommand} (silent : w.Silent) (names : command.names = some k)
    (clear : k.done (w.word k) = false) : (w.issue command).Awaits k w.commands.length where
  named := by simp [named_issue, names]
  only k' j outstanding := by
    by_contra older
    have named := outstanding.1
    rw [named_issue, if_neg older] at named
    exact silent k' j ⟨named, outstanding.2⟩
  shown done := by
    change k.done (w.word k) = true at done
    rw [clear] at done
    cases done

/-- A status check is no phase of a request. -/
theorem LastPhase.statusCheck (last : w.LastPhase phase reqSlotTag reqCode) :
    phase < w.commands.length ∧ (w.issue .statusCheck).LastPhase phase reqSlotTag reqCode := by
  have inside : phase < w.commands.length := (List.getElem?_eq_some_iff.mp last.1).1
  refine ⟨inside, ?_, fun j later tag code => ?_⟩
  · simpa [issue, List.getElem?_append_left inside] using last.1
  · by_cases old : j < w.commands.length
    · simpa [issue, List.getElem?_append_left old] using last.2 j later tag code
    · intro found
      simp only [issue] at found
      rw [List.getElem?_append_right (by omega), List.getElem?_singleton] at found
      split at found <;> cases found

theorem lastPhase_issue (w : NandWay) (reqSlotTag : Nat) (reqCode : ReqCode) :
    (w.issue (.nandReq reqSlotTag reqCode)).LastPhase w.commands.length reqSlotTag reqCode := by
  refine ⟨by simp [issue], fun j later tag code => ?_⟩
  have outside : (w.commands ++ [FlashCommand.nandReq reqSlotTag reqCode]).length ≤ j := by
    simp
    omega
  simp [issue, List.getElem?_eq_none outside]

theorem silent_clear (silent : w.Silent) (k : ReportWord) :
    (w.clear k).Silent ∧ k.done ((w.clear k).word k) = false := by
  refine ⟨silent, ?_⟩
  cases k <;> simp [clear, ReportWord.done, v2fRequestReportDone, v2fTransferComplete]

end NandWay

/-! ### What the scheduler knows of a way -/

/-- What the check option tells of a way after the phase at a position of its commands. -/
def ReqStatusCheckOpt.Agrees (opt : ReqStatusCheckOpt) (reqCode : ReqCode) (phase : Nat) (w : NandWay) : Prop :=
  match opt with
  | .check => Scheduler.issueOpt reqCode = .check ∧ w.Silent
  | .report => Scheduler.issueOpt reqCode = .check ∧ ∃ report > phase, w.Awaits .statusReport report
  | .completionFlag => reqCode = .readTransfer ∧ w.Awaits .completeFlag phase
  | .none => Scheduler.issueOpt reqCode = .none ∧ w.Silent

/-- The state of a die against its way: an idle die has no report to come, an executing
one has issued the phase its first request is in. -/
def DieStateEntry.Agrees (entry : DieStateEntry) (head : Option (Nat × ReqCode)) (w : NandWay) : Prop :=
  match entry.dieState with
  | .idle => w.Silent
  | .exe => ∃ reqSlotTag reqCode phase, head = some (reqSlotTag, reqCode) ∧
      w.LastPhase phase reqSlotTag reqCode ∧ entry.reqStatusCheckOpt.Agrees reqCode phase w

namespace NandWay

theorem silent_calm {P : NandWay → Prop} : ∀ w, w.Silent ∧ P w → w.OneStatusCheck :=
  fun _ both => both.1.oneStatusCheck

/-- A triple about one way. -/
abbrev WayTriple := Triple NandWay.access NandWay.move OneStatusCheck NotStale

variable {entry : DieStateEntry} {head : Option (Nat × ReqCode)}

theorem agrees_idle (idle : entry.dieState = .idle) : entry.Agrees head = NandWay.Silent := by
  funext w
  simp [DieStateEntry.Agrees, idle]

/-- A phase that was issued a moment ago. -/
theorem agrees_issued (last : w.LastPhase phase reqSlotTag reqCode)
    (transfer : reqCode = .readTransfer → w.Awaits .completeFlag phase)
    (other : reqCode ≠ .readTransfer → w.Silent) :
    DieStateEntry.Agrees ⟨.exe, Scheduler.issueOpt reqCode⟩ (some (reqSlotTag, reqCode)) w := by
  refine ⟨reqSlotTag, reqCode, phase, rfl, last, ?_⟩
  cases reqCode with
  | readTransfer => exact ⟨rfl, transfer rfl⟩
  | _ => exact ⟨rfl, other (by simp)⟩

/-- What an executing die knows of its way. -/
theorem agrees_exe (exe : entry.dieState = .exe) :
    entry.Agrees (some (reqSlotTag, reqCode)) = fun w =>
      ∃ phase, w.LastPhase phase reqSlotTag reqCode ∧ entry.reqStatusCheckOpt.Agrees reqCode phase w := by
  funext w
  simp [DieStateEntry.Agrees, exe]

theorem agrees_mono {head' : Option (Nat × ReqCode)} (agrees : entry.Agrees head w)
    (kept : head ≠ none → head' = head) : entry.Agrees head' w := by
  unfold DieStateEntry.Agrees at agrees ⊢
  split at agrees
  · exact agrees
  · obtain ⟨reqSlotTag, reqCode, phase, shape, rest⟩ := agrees
    exact ⟨reqSlotTag, reqCode, phase, (kept (by simp [shape])).trans shape, rest⟩

theorem stable_optAgrees {opt : ReqStatusCheckOpt} : Stable NandWay.move (opt.Agrees reqCode phase) := by
  intro w m w' agrees step
  cases opt with
  | check => exact ⟨agrees.1, stable_silent w m w' agrees.2 step⟩
  | none => exact ⟨agrees.1, stable_silent w m w' agrees.2 step⟩
  | completionFlag => exact ⟨agrees.1, agrees.2.move step⟩
  | report =>
    obtain ⟨code, report, later, awaits⟩ := agrees
    exact ⟨code, report, later, awaits.move step⟩

theorem optAgrees_calm {opt : ReqStatusCheckOpt} (agrees : opt.Agrees reqCode phase w) : w.OneStatusCheck := by
  cases opt with
  | check => exact agrees.2.oneStatusCheck
  | none => exact agrees.2.oneStatusCheck
  | completionFlag => exact agrees.2.oneStatusCheck
  | report =>
    obtain ⟨-, report, -, awaits⟩ := agrees
    exact awaits.oneStatusCheck

theorem stable_agrees (entry : DieStateEntry) (head : Option (Nat × ReqCode)) :
    Stable NandWay.move (entry.Agrees head) := by
  intro w m w' agrees step
  unfold DieStateEntry.Agrees at agrees ⊢
  split at agrees
  · exact stable_silent w m w' agrees step
  · obtain ⟨reqSlotTag, reqCode, phase, shape, last, opt⟩ := agrees
    exact ⟨reqSlotTag, reqCode, phase, shape, stable_lastPhase w m w' last step,
      stable_optAgrees w m w' opt step⟩

theorem agrees_calm (agrees : entry.Agrees head w) : w.OneStatusCheck := by
  unfold DieStateEntry.Agrees at agrees
  split at agrees
  · exact agrees.oneStatusCheck
  · obtain ⟨reqSlotTag, reqCode, phase, -, -, opt⟩ := agrees
    exact optAgrees_calm opt

/-- Nothing is accessed while a die and its way agree. -/
theorem agrees_triple (entry : DieStateEntry) (head : Option (Nat × ReqCode)) :
    WayTriple (entry.Agrees head) [] (entry.Agrees head) :=
  .nil (stable_agrees entry head) fun _ => agrees_calm

/-! ### Issuing -/

theorem issueNandReqAccesses_eq (s : Scheduler) (chNo wayNo : Nat) :
    s.issueNandReqAccesses chNo wayNo =
      let tag := s.headReq chNo wayNo
      let code := (s.layer.reqPool tag).reqCode
      if code = .readTransfer then [.clear .completeFlag, .issue (.nandReq tag code)]
      else [.issue (.nandReq tag code)] := by
  unfold Scheduler.issueNandReqAccesses
  cases code : (s.layer.reqPool (s.headReq chNo wayNo)).reqCode <;> simp [code]

theorem nandReq_names (tag : Nat) {code : ReqCode} (other : code ≠ .readTransfer) :
    (FlashCommand.nandReq tag code).names = none := by
  cases code <;> first | rfl | exact absurd rfl other

/-- A phase is issued to a way with no report to come. -/
theorem issueNandReq_triple {s : Scheduler} {chNo wayNo : Nat} (real : s.headReq chNo wayNo ≠ reqSlotTagNone) :
    WayTriple Silent (s.issueNandReqAccesses chNo wayNo)
      (DieStateEntry.Agrees ⟨.exe, Scheduler.issueOpt (s.layer.reqPool (s.headReq chNo wayNo)).reqCode⟩
        (s.layer.headPhase chNo wayNo)) := by
  have head : s.layer.headPhase chNo wayNo =
      some (s.headReq chNo wayNo, (s.layer.reqPool (s.headReq chNo wayNo)).reqCode) := if_neg real
  rw [issueNandReqAccesses_eq, head]
  simp only
  generalize s.headReq chNo wayNo = tag
  generalize (s.layer.reqPool tag).reqCode = code
  split
  · rename_i transfer
    subst transfer
    refine .cons (Q := fun w => w.Silent ∧ ReportWord.done .completeFlag (w.word .completeFlag) = false)
      stable_silent (fun _ => Silent.oneStatusCheck) (fun _ _ => trivial) ?_ ?_
    · intro w w' silent step
      cases step
      exact silent_clear silent _
    · refine .cons (stable_silent_and fun _ _ => id) silent_calm (fun _ _ => trivial) ?_ (agrees_triple _ _)
      intro w w' both step
      cases step
      exact agrees_issued (lastPhase_issue w tag _) (fun _ => both.1.issue_awaits rfl both.2)
        fun other => absurd rfl other
  · rename_i other
    refine .cons stable_silent (fun _ => Silent.oneStatusCheck) (fun _ _ => trivial) ?_ (agrees_triple _ _)
    intro w w' silent step
    cases step
    exact agrees_issued (lastPhase_issue w tag _) (fun transfer => absurd transfer other)
      fun _ => silent.issue (nandReq_names tag other)

/-! ### Checking -/

/-- A result that may be handed to `ExecuteNandReq`. -/
def Ended (reqSlotTag : Nat) (req : SsdReq) (reqStatus : ReqStatus) (w : NandWay) : Prop :=
  w.Silent ∧ w.NotStale (.execute reqSlotTag req reqStatus)

theorem stable_ended : Stable NandWay.move (Ended reqSlotTag req reqStatus) :=
  stable_silent_and fun _ _ ok => ok

/-- A result is handed over. -/
theorem execute_triple :
    WayTriple (Ended reqSlotTag req reqStatus) [.execute reqSlotTag req reqStatus] Silent := by
  refine .cons stable_ended silent_calm (fun _ ended => ended.2) ?_
    (.nil stable_silent fun _ => Silent.oneStatusCheck)
  intro w w' ended step
  cases step
  exact ended.1

/-- The report of the awaited command is there and has been read. -/
def Shows (k : ReportWord) (phase report reqSlotTag : Nat) (reqCode : ReqCode) (value : Nat) (w : NandWay) : Prop :=
  w.Silent ∧ w.LastPhase phase reqSlotTag reqCode ∧ w.named report = some k ∧
    w.reporter k = some report ∧ w.word k = value

theorem stable_shows {value : Nat} : Stable NandWay.move (Shows k phase report reqSlotTag reqCode value) :=
  stable_silent_and fun _ _ ok => ok

/-- A word is read: either there is no report yet, or it is that of the awaited command. -/
theorem read_triple {value : Nat} {accesses : List WayAccess} {Q : NandWay → Prop}
    (yet : k.done value = false → WayTriple (fun w => w.LastPhase phase reqSlotTag reqCode ∧ w.Awaits k report) accesses Q)
    (done : k.done value = true → WayTriple (Shows k phase report reqSlotTag reqCode value) accesses Q) :
    WayTriple (fun w => w.LastPhase phase reqSlotTag reqCode ∧ w.Awaits k report) (.read k value :: accesses) Q := by
  have stable : Stable NandWay.move fun w => w.LastPhase phase reqSlotTag reqCode ∧ w.Awaits k report :=
    stable_and stable_lastPhase stable_awaits
  cases shown : k.done value with
  | false =>
    refine .cons stable (fun _ both => both.2.oneStatusCheck) (fun _ _ => trivial) ?_ (yet shown)
    intro w w' both step
    simp only [NandWay.access] at step
    split at step <;> cases step
    exact both
  | true =>
    refine .cons stable (fun _ both => both.2.oneStatusCheck) (fun _ _ => trivial) ?_ (done shown)
    intro w w' both step
    simp only [NandWay.access] at step
    split at step <;> cases step
    rename_i same
    have there : k.done (w.word k) = true := same ▸ shown
    exact ⟨both.2.silent there, both.1, both.2.named, (both.2.shown there).1, same⟩

/-- What a read report says is not stale. -/
theorem Shows.ended {value : Nat} (shows : w.Shows k phase report reqSlotTag req.reqCode value)
    (later : phase ≤ report) (result : k.result req value w.errorInfo = reqStatus) :
    w.Ended reqSlotTag req reqStatus := by
  obtain ⟨silent, last, named, reporter, word⟩ := shows
  exact ⟨silent, fun _ _ => ⟨phase, report, k, last, later, named, reporter, word ▸ result⟩⟩

end NandWay

namespace Scheduler
variable {hw : Hardware} {s t : Scheduler} {chNo wayNo : Nat}

/-- What a check makes of the status report. -/
theorem checkReqStatus_report (opt : (s.dieState chNo wayNo).reqStatusCheckOpt = .report)
    (checked : s.checkReqStatus hw chNo wayNo = (reqStatus, t)) (errorInfo : Nat) :
    reqStatus = ReportWord.result .statusReport (s.layer.reqPool (s.headReq chNo wayNo))
      (hw.statusReport s.reads) errorInfo ∧
    (reqStatus = .running → (t.dieState chNo wayNo).reqStatusCheckOpt =
      if ReportWord.done .statusReport (hw.statusReport s.reads) then .check else .report) := by
  simp only [checkReqStatus, opt, readWord] at checked
  simp only [ReportWord.result, ReportWord.done]
  by_cases done : v2fRequestReportDone (hw.statusReport s.reads) = true
  · simp only [done, ↓reduceIte] at checked ⊢
    by_cases complete : v2fRequestComplete (v2fEliminateReportDoneFlag (hw.statusReport s.reads)) = true
    · simp only [complete, ↓reduceIte] at checked ⊢
      by_cases failed : v2fRequestFail (v2fEliminateReportDoneFlag (hw.statusReport s.reads)) = true
      · simp only [failed, ↓reduceIte] at checked ⊢
        cases checked
        exact ⟨rfl, by simp⟩
      · simp only [failed, Bool.false_eq_true, ↓reduceIte] at checked ⊢
        cases checked
        exact ⟨rfl, by simp⟩
    · simp only [complete, Bool.false_eq_true, ↓reduceIte] at checked ⊢
      cases checked
      exact ⟨rfl, fun _ => by simp [setCheckOpt]⟩
  · simp only [done, Bool.false_eq_true, ↓reduceIte] at checked ⊢
    cases checked
    exact ⟨rfl, fun _ => opt⟩

/-- Both reads of the error information find the same word. -/
theorem checkEccErrorInfo_eq {errorInfo : Nat} (head : s.layer.reqPool (s.headReq chNo wayNo) = req)
    (first : hw.errorInfo s.reads = errorInfo) (second : hw.errorInfo (s.reads + 1) = errorInfo) :
    (s.checkEccErrorInfo hw chNo wayNo).1 =
      if v2fCrcValid errorInfo then
        if req.nandEccWarning ∧ bitErrorThresholdPerChunk < v2fWorstChunkErrorCount errorInfo then .warning
        else .pass
      else .fail := by
  simp only [checkEccErrorInfo, readWord, head, first, second]
  split
  · split <;> rfl
  · rfl

/-- What a check makes of the completion flag and the error information. -/
theorem checkReqStatus_completionFlag (opt : (s.dieState chNo wayNo).reqStatusCheckOpt = .completionFlag)
    (checked : s.checkReqStatus hw chNo wayNo = (reqStatus, t)) :
    (t.dieState chNo wayNo).reqStatusCheckOpt = .completionFlag ∧
    (ReportWord.done .completeFlag (hw.completeFlag s.reads) = false → reqStatus = .running) ∧
    ∀ errorInfo, ((s.layer.reqPool (s.headReq chNo wayNo)).nandEcc = true →
        hw.errorInfo (s.reads + 1) = errorInfo ∧ hw.errorInfo (s.reads + 1 + 1) = errorInfo) →
      reqStatus = ReportWord.result .completeFlag (s.layer.reqPool (s.headReq chNo wayNo))
        (hw.completeFlag s.reads) errorInfo := by
  have kept : (t.dieState chNo wayNo).reqStatusCheckOpt = .completionFlag := by
    have checkedTo := (checkReqStatus_spec checked).2.2.2
    rw [opt] at checkedTo
    exact checkedTo
  refine ⟨kept, ?_⟩
  simp only [checkReqStatus, opt] at checked
  simp only [ReportWord.result, ReportWord.done]
  change (if v2fTransferComplete (hw.completeFlag s.reads) = true then _ else _) = _ at checked
  by_cases done : v2fTransferComplete (hw.completeFlag s.reads) = true
  · simp only [done, ↓reduceIte] at checked ⊢
    refine ⟨by simp, fun errorInfo same => ?_⟩
    by_cases ecc : (s.layer.reqPool (s.headReq chNo wayNo)).nandEcc = true
    · have head : (s.readWord hw.completeFlag).2.layer.reqPool
          ((s.readWord hw.completeFlag).2.headReq chNo wayNo) = s.layer.reqPool (s.headReq chNo wayNo) := rfl
      have found := checkEccErrorInfo_eq head (same ecc).1 (same ecc).2
      simp only [ecc, ↓reduceIte] at checked ⊢
      generalize checkEccErrorInfo hw (s.readWord hw.completeFlag).2 chNo wayNo = answer at checked found
      obtain ⟨info, u⟩ := answer
      simp only at found checked
      by_cases valid : v2fCrcValid errorInfo = true
      · simp only [valid, ↓reduceIte] at found ⊢
        by_cases many : (s.layer.reqPool (s.headReq chNo wayNo)).nandEccWarning = true ∧
            bitErrorThresholdPerChunk < v2fWorstChunkErrorCount errorInfo
        · rw [if_pos many] at found ⊢
          subst found
          cases checked
          rfl
        · rw [if_neg many] at found ⊢
          subst found
          cases checked
          rfl
      · simp only [valid, Bool.false_eq_true, ↓reduceIte] at found ⊢
        subst found
        cases checked
        rfl
    · simp only [ecc, Bool.false_eq_true, ↓reduceIte] at checked ⊢
      cases checked
      rfl
  · simp only [done, Bool.false_eq_true, ↓reduceIte] at checked ⊢
    cases checked
    exact ⟨fun _ => rfl, fun _ _ => rfl⟩

/-- A complete flag is no report of a request that is still running. -/
theorem result_completeFlag {value errorInfo : Nat} (done : ReportWord.done .completeFlag value = true) :
    ReportWord.result .completeFlag req value errorInfo ≠ .running := by
  simp only [ReportWord.result, done, ↓reduceIte]
  split
  · split
    · split <;> simp
    · simp
  · simp

end Scheduler

namespace NandWay
open Scheduler
variable {hw : Hardware} {s t : Scheduler} {chNo wayNo : Nat} {value : Nat}

/-- What a check of an executing die leaves: the request runs on, or its result is not stale. -/
def CheckedWay (s t : Scheduler) (chNo wayNo : Nat) (reqStatus : ReqStatus) (w : NandWay) : Prop :=
  if reqStatus = .running then (t.dieState chNo wayNo).Agrees (s.layer.headPhase chNo wayNo) w
  else Ended (s.headReq chNo wayNo) (s.layer.reqPool (s.headReq chNo wayNo)) reqStatus w

theorem checkedWay_running (head : s.layer.headPhase chNo wayNo = some (reqSlotTag, reqCode))
    (exe : (t.dieState chNo wayNo).dieState = .exe) (last : w.LastPhase phase reqSlotTag reqCode)
    (opt : (t.dieState chNo wayNo).reqStatusCheckOpt.Agrees reqCode phase w) : CheckedWay s t chNo wayNo .running w := by
  rw [CheckedWay, if_pos rfl, head, agrees_exe exe]
  exact ⟨phase, last, opt⟩

theorem stable_checkedWay : Stable NandWay.move (CheckedWay s t chNo wayNo reqStatus) := by
  unfold CheckedWay
  by_cases running : reqStatus = .running
  · simp only [running, ↓reduceIte]
    exact stable_agrees _ _
  · simp only [running, ↓reduceIte]
    exact stable_ended

theorem checkedWay_calm (checked : CheckedWay s t chNo wayNo reqStatus w) : w.OneStatusCheck := by
  unfold CheckedWay at checked
  split at checked
  · exact agrees_calm checked
  · exact checked.1.oneStatusCheck

theorem checkedWay_triple : WayTriple (CheckedWay s t chNo wayNo reqStatus) [] (CheckedWay s t chNo wayNo reqStatus) :=
  .nil stable_checkedWay fun _ => checkedWay_calm

/-- `V2FStatusCheckAsync` for an executing request. -/
theorem statusCheck_triple :
    WayTriple (fun w => w.Silent ∧ w.LastPhase phase reqSlotTag reqCode) [.clear .statusReport, .issue .statusCheck]
      (fun w => w.LastPhase phase reqSlotTag reqCode ∧ ∃ report > phase, w.Awaits .statusReport report) := by
  have stable : Stable NandWay.move fun w => w.LastPhase phase reqSlotTag reqCode ∧
      ∃ report > phase, w.Awaits .statusReport report := by
    rintro w m w' ⟨last, report, later, awaits⟩ step
    exact ⟨stable_lastPhase w m w' last step, report, later, awaits.move step⟩
  refine .cons (Q := fun w => w.Silent ∧ (w.LastPhase phase reqSlotTag reqCode ∧
    ReportWord.done .statusReport (w.word .statusReport) = false)) (stable_silent_and fun _ _ => id) silent_calm
    (fun _ _ => trivial) ?_ ?_
  · intro w w' both step
    cases step
    obtain ⟨silent, clear⟩ := silent_clear both.1 .statusReport
    exact ⟨silent, both.2, clear⟩
  · refine .cons (stable_silent_and fun _ _ => id) silent_calm (fun _ _ => trivial) ?_
      (.nil stable fun w ⟨_, _, _, awaits⟩ => awaits.oneStatusCheck)
    intro w w' both step
    cases step
    obtain ⟨later, last⟩ := both.2.1.statusCheck
    exact ⟨last, w.commands.length, later, both.1.issue_awaits rfl both.2.2⟩

/-- The error information is read after the completion flag. -/
theorem readErrorInfo_triple {first second : Nat} {Q : NandWay → Prop} (stable : Stable NandWay.move Q)
    (calm : ∀ w, Q w → w.OneStatusCheck)
    (after : ∀ w, Shows k phase report reqSlotTag reqCode value w → w.errorInfo = first →
      w.errorInfo = second → Q w) :
    WayTriple (Shows k phase report reqSlotTag reqCode value) [.readErrorInfo first, .readErrorInfo second] Q := by
  refine .cons (Q := fun w => w.Silent ∧ (Shows k phase report reqSlotTag reqCode value w ∧ w.errorInfo = first))
    stable_shows silent_calm (fun _ _ => trivial) ?_ ?_
  · intro w w' shows' step
    simp only [NandWay.access] at step
    split at step <;> cases step
    rename_i same
    exact ⟨shows'.1, shows', same⟩
  · refine .cons (stable_silent_and fun _ _ => id) silent_calm (fun _ _ => trivial) ?_ (.nil stable calm)
    intro w w' both step
    simp only [NandWay.access] at step
    split at step <;> cases step
    rename_i same
    exact after w both.2.1 both.2.2 same

section
variable {req : SsdReq} (shape : s.headReq chNo wayNo = reqSlotTag) (request : s.layer.reqPool reqSlotTag = req)
  (exe : (t.dieState chNo wayNo).dieState = .exe) (checked : s.checkReqStatus hw chNo wayNo = (reqStatus, t))
include shape request

theorem checkedWay_ended (over' : reqStatus ≠ .running) (later : phase ≤ report)
    (shows' : Shows k phase report reqSlotTag req.reqCode value w)
    (result : k.result req value w.errorInfo = reqStatus) :
    CheckedWay s t chNo wayNo reqStatus w := by
  rw [CheckedWay, if_neg over', shape, request]
  exact shows'.ended later result

variable (head : s.layer.headPhase chNo wayNo = some (reqSlotTag, req.reqCode))
include exe checked head

/-- A check of an executing die that has asked for its status. -/
private theorem checkReport_triple (opt : (s.dieState chNo wayNo).reqStatusCheckOpt = .report) :
    WayTriple (fun w => w.LastPhase phase reqSlotTag req.reqCode ∧ ReqStatusCheckOpt.report.Agrees req.reqCode phase w)
      (s.checkReqStatusAccesses hw chNo wayNo) (CheckedWay s t chNo wayNo reqStatus) := by
  simp only [checkReqStatusAccesses, opt, readWord]
  refine .conseq (P := fun w => ∃ report, (report > phase ∧ issueOpt req.reqCode = .check) ∧
    w.LastPhase phase reqSlotTag req.reqCode ∧ w.Awaits .statusReport report) ?_ ?_ fun _ => id
  · refine .exists fun report => .assume fun asked => ?_
    obtain ⟨later, code⟩ := asked
    refine read_triple (fun yet => ?_) fun done => ?_
    · obtain ⟨result, opt'⟩ := checkReqStatus_report opt checked 0
      have running : reqStatus = .running := by simpa [ReportWord.result, yet] using result
      subst running
      refine checkedWay_triple.conseq (fun w both => ?_) fun _ => id
      refine checkedWay_running head exe both.1 ?_
      rw [opt' rfl, yet]
      exact ⟨code, report, later, both.2⟩
    · refine checkedWay_triple.conseq (fun w shows' => ?_) fun _ => id
      obtain ⟨result, opt'⟩ := checkReqStatus_report opt checked w.errorInfo
      by_cases running : reqStatus = .running
      · subst running
        refine checkedWay_running head exe shows'.2.1 ?_
        rw [opt' rfl, done]
        exact ⟨code, shows'.1⟩
      · rw [shape, request] at result
        exact checkedWay_ended shape request running (Nat.le_of_lt later) shows' result.symm
  · rintro w ⟨last, code, report, later, awaits⟩
    exact ⟨report, ⟨later, code⟩, last, awaits⟩

/-- A check of an executing die whose transfer shows a completion flag. -/
private theorem checkCompletionFlag_triple (opt : (s.dieState chNo wayNo).reqStatusCheckOpt = .completionFlag) :
    WayTriple (fun w => w.LastPhase phase reqSlotTag req.reqCode ∧
        ReqStatusCheckOpt.completionFlag.Agrees req.reqCode phase w)
      (s.checkReqStatusAccesses hw chNo wayNo) (CheckedWay s t chNo wayNo reqStatus) := by
  obtain ⟨opt', waits, result⟩ := checkReqStatus_completionFlag opt checked
  rw [shape, request] at result
  simp only [checkReqStatusAccesses, opt, readWord]
  change WayTriple _ (_ :: if v2fTransferComplete (hw.completeFlag s.reads) = true ∧
    (s.layer.reqPool (s.headReq chNo wayNo)).nandEcc = true then _ else _) _
  rw [shape, request]
  refine .conseq (P := fun w => req.reqCode = .readTransfer ∧
    w.LastPhase phase reqSlotTag req.reqCode ∧ w.Awaits .completeFlag phase) ?_ ?_ fun _ => id
  · refine .assume fun code => read_triple (fun yet => ?_) fun done => ?_
    · have incomplete : ¬ (v2fTransferComplete (hw.completeFlag s.reads) = true ∧ req.nandEcc = true) :=
        fun both => by simp [ReportWord.done, both.1] at yet
      rw [if_neg incomplete]
      cases waits yet
      refine checkedWay_triple.conseq (fun w both => ?_) fun _ => id
      refine checkedWay_running head exe both.1 ?_
      rw [opt']
      exact ⟨code, both.2⟩
    · by_cases ecc : req.nandEcc = true
      · rw [if_pos ⟨done, ecc⟩]
        refine readErrorInfo_triple stable_checkedWay (fun _ => checkedWay_calm) fun w shows' first second => ?_
        have found := result w.errorInfo fun _ => ⟨first.symm, second.symm⟩
        refine checkedWay_ended shape request ?_ le_rfl shows' found.symm
        rw [found]
        exact result_completeFlag done
      · rw [if_neg fun both => ecc both.2]
        refine checkedWay_triple.conseq (fun w shows' => ?_) fun _ => id
        have found := result w.errorInfo fun on => absurd on ecc
        refine checkedWay_ended shape request ?_ le_rfl shows' found.symm
        rw [found]
        exact result_completeFlag done
  · rintro w ⟨last, code, awaits⟩
    exact ⟨code, last, awaits⟩

end

/-- A check of an executing die. -/
theorem checkReqStatus_triple (exe : (s.dieState chNo wayNo).dieState = .exe)
    (real : s.headReq chNo wayNo ≠ reqSlotTagNone)
    (checked : s.checkReqStatus hw chNo wayNo = (reqStatus, t)) :
    WayTriple ((s.dieState chNo wayNo).Agrees (s.layer.headPhase chNo wayNo))
      (s.checkReqStatusAccesses hw chNo wayNo) (CheckedWay s t chNo wayNo reqStatus) := by
  have head : s.layer.headPhase chNo wayNo =
      some (s.headReq chNo wayNo, (s.layer.reqPool (s.headReq chNo wayNo)).reqCode) := if_neg real
  obtain ⟨-, -, sameState, checkedTo⟩ := checkReqStatus_spec checked
  have exe' : (t.dieState chNo wayNo).dieState = .exe := sameState.trans exe
  rw [head, agrees_exe exe]
  refine .exists fun phase => ?_
  cases opt : (s.dieState chNo wayNo).reqStatusCheckOpt with
  | check =>
    rw [opt] at checkedTo
    obtain ⟨rfl, opt'⟩ := checkedTo
    simp only [checkReqStatusAccesses, opt]
    refine .conseq (.assume fun code => statusCheck_triple.conseq (fun _ => id) ?_)
      (fun w agrees => ⟨agrees.2.1, agrees.2.2, agrees.1⟩) fun _ => id
    rintro w ⟨last, awaits⟩
    exact checkedWay_running head exe' last (opt' ▸ ⟨code, awaits⟩)
  | report => exact checkReport_triple rfl rfl exe' checked head opt
  | completionFlag => exact checkCompletionFlag_triple rfl rfl exe' checked head opt
  | none =>
    rw [opt] at checkedTo
    simp only [checkReqStatusAccesses, opt]
    refine checkedWay_triple.conseq (fun w agrees => ?_) fun _ => id
    obtain ⟨last, code, silent⟩ := agrees
    by_cases running : reqStatus = .running
    · subst running
      refine checkedWay_running head exe' last ?_
      rw [checkedTo]
      exact ⟨code, silent⟩
    · rw [CheckedWay, if_neg running]
      refine ⟨silent, fun _ reported => ?_⟩
      simp only [List.mem_cons, List.not_mem_nil, or_false] at reported
      rcases reported with same | same | same | same <;> rw [same] at code <;> cases code

end NandWay
end OcpFw
