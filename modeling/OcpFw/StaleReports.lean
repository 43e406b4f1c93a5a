import OcpFw.WayReports

/-! No request is finished on a stale report. Every die and its way agree after each turn
of a pass, whatever the controller does in between; so they do after every run of passes,
and a result that `ExecuteNandReq` receives was reported for the phase it is about. -/
namespace OcpFw
open InterfaceTraces (Stable Triple onComponent)
open RequestLayer (KeepsPhase KeepsOtherPhases Acts)
open Runs (Run run_of_exec_any)

variable {g : Geometry} {hw : Hardware} {s s' t u : Scheduler} {lists : Nat → WayList → List Nat}
  {chNo wayNo cnt cnt' turns readyBusy : Nat} {k k' : WayList} {before rest : List Nat}
  {reqStatus : ReqStatus} {accesses : List WayAccess} {as bs : List FlashAccess}

/-- A triple about all ways. -/
abbrev FlashTriple :=
  Triple (onComponent NandWay.access) (onComponent NandWay.move)
    (fun c : Nat × Nat → NandWay => ∀ die, (c die).OneStatusCheck) fun c a => (c a.1).NotStale a.2

namespace Scheduler

/-- Every die agrees with its way. -/
def Agrees (s : Scheduler) (c : Nat × Nat → NandWay) : Prop :=
  ∀ die, (s.dieState die.1 die.2).Agrees (s.layer.headPhase die.1 die.2) (c die)

/-- Dies and ways agree before and after the accesses, and no result is stale meanwhile. -/
def Keeps (s : Scheduler) (as : List FlashAccess) (s' : Scheduler) : Prop := FlashTriple s.Agrees as s'.Agrees

/-- A die is as it was: its state, and its first request. -/
def Spares (s s' : Scheduler) (chNo wayNo : Nat) : Prop :=
  s'.dieState chNo wayNo = s.dieState chNo wayNo ∧ KeepsPhase s.layer s'.layer chNo wayNo

/-- All dies but one are as they were. -/
def SparesOthers (s s' : Scheduler) (chNo wayNo : Nat) : Prop :=
  ∀ c w, (c, w) ≠ (chNo, wayNo) → Spares s s' c w

theorem Spares.trans (first : Spares s t chNo wayNo) (second : Spares t s' chNo wayNo) : Spares s s' chNo wayNo :=
  ⟨second.1.trans first.1, first.2.trans second.2⟩

theorem Spares.agrees {w : NandWay} (spares : Spares s s' chNo wayNo)
    (agrees : (s.dieState chNo wayNo).Agrees (s.layer.headPhase chNo wayNo) w) :
    (s'.dieState chNo wayNo).Agrees (s'.layer.headPhase chNo wayNo) w := by
  rw [spares.1]
  exact NandWay.agrees_mono agrees spares.2

theorem Keeps.trans (first : s.Keeps as t) (second : t.Keeps bs s') : s.Keeps (as ++ bs) s' := first.append second

/-- A step without accesses. -/
theorem Keeps.silent (spares : ∀ c w, Spares s s' c w) : s.Keeps [] s' := by
  refine Triple.conseq (P := s.Agrees) (Q := s.Agrees) ?_ (fun _ => id) fun c agrees die =>
    (spares die.1 die.2).agrees (agrees die)
  refine .nil ?_ fun c agrees die => NandWay.agrees_calm (agrees die)
  intro c m c' agrees step die
  obtain ⟨moved, others⟩ := InterfaceTraces.onComponent_eq step
  by_cases here : die = m.1
  · subst here
    exact NandWay.stable_agrees _ _ _ _ _ (agrees m.1) moved
  · rw [others die here]
    exact agrees die

theorem Keeps.refl (s : Scheduler) : s.Keeps [] s := .silent fun _ _ => ⟨rfl, fun _ => rfl⟩

/-- A step with accesses to one way. -/
theorem Keeps.way (others : SparesOthers s s' chNo wayNo)
    (own : NandWay.WayTriple ((s.dieState chNo wayNo).Agrees (s.layer.headPhase chNo wayNo)) accesses
      ((s'.dieState chNo wayNo).Agrees (s'.layer.headPhase chNo wayNo))) :
    s.Keeps (accesses.map (Prod.mk (chNo, wayNo))) s' :=
  Triple.component (chNo, wayNo) own (fun _ _ => NandWay.stable_agrees _ _) (fun _ _ _ => NandWay.agrees_calm)
    fun die other _ => (others die.1 die.2 other).agrees

theorem sparesOthers_of_check (checked : s.checkReqStatus hw chNo wayNo = (reqStatus, t)) :
    SparesOthers s t chNo wayNo := by
  obtain ⟨concerns, sameLayer, -⟩ := checkReqStatus_spec checked
  exact fun c w diff => ⟨concerns.dieState c w diff, fun _ => by rw [sameLayer]⟩

/-! ### The two parts that select -/

/-- The first loop makes no access and spares every die. -/
theorem selectIdleWays_spares (layer : ∃ held flight, SlotsOk g s.layer held flight)
    (done : selectIdleWays g chNo turns s wayNo cnt = some (s', cnt')) (c w : Nat) : Spares s s' c w := by
  induction turns generalizing s wayNo cnt with
  | zero =>
    cases done
    exact ⟨rfl, fun _ => rfl⟩
  | succ turns ih =>
    unfold selectIdleWays at done
    split at done
    · cases done
      exact ⟨rfl, fun _ => rfl⟩
    simp only [Option.bind_eq_bind, Option.bind_eq_some_iff] at done
    obtain ⟨t, released, done⟩ := done
    obtain ⟨held, flight, slots⟩ := layer
    obtain ⟨concerns, same, acts, phases⟩ := releaseBlocked_spec slots released
    have first : Spares s t c w := by
      refine ⟨?_, phases c w⟩
      by_cases here : (c, w) = (chNo, wayNo)
      · cases here
        exact same
      · exact concerns.dieState c w here
    have layer' : ∃ held flight, SlotsOk g t.layer held flight := ⟨held, flight, acts.slotsOk slots⟩
    split at done
    · simp only [Option.bind_eq_some_iff] at done
      obtain ⟨u, put, done⟩ := done
      obtain ⟨k, rfl⟩ : ∃ k, u = (t.selectivGetFromNandIdleList chNo wayNo).putToList k chNo wayNo := by
        unfold putToNandWayPriorityTable at put
        split at put <;> cases put <;> exact ⟨_, rfl⟩
      have after : Spares ((t.selectivGetFromNandIdleList chNo wayNo).putToList k chNo wayNo) s' c w :=
        ih layer' done
      exact first.trans after
    · exact first.trans (ih layer' done)

/-- A result that is not running is handed over, and the die is idle. -/
theorem checkAndExecute_triple (exe : (s.dieState chNo wayNo).dieState = .exe)
    (real : s.headReq chNo wayNo ≠ reqSlotTagNone) (checked : s.checkReqStatus hw chNo wayNo = (reqStatus, t))
    (ended : reqStatus ≠ .running) :
    NandWay.WayTriple ((s.dieState chNo wayNo).Agrees (s.layer.headPhase chNo wayNo))
      (s.checkReqStatusAccesses hw chNo wayNo ++ t.executeNandReqAccesses chNo wayNo reqStatus) NandWay.Silent := by
  obtain ⟨-, sameLayer, sameState, -⟩ := checkReqStatus_spec checked
  have accesses : t.executeNandReqAccesses chNo wayNo reqStatus =
      [.execute (s.headReq chNo wayNo) (s.layer.reqPool (s.headReq chNo wayNo)) reqStatus] := by
    simp only [executeNandReqAccesses, sameState, exe, headReq, sameLayer]
  rw [accesses]
  refine .append ((NandWay.checkReqStatus_triple exe real checked).conseq (fun _ => id) fun w checked => ?_)
    NandWay.execute_triple
  rwa [NandWay.CheckedWay, if_neg ended] at checked

/-- A turn of the second loop. -/
theorem checkStatusReport_keeps {next waits : Nat} (channel : chNo < g.userChannels) (ok : SchedulerOk g s lists)
    (member : wayNo ∈ lists chNo .statusReport)
    (done : s.checkStatusReport g hw chNo readyBusy wayNo = some (s', next, waits)) :
    s.Keeps (s.checkStatusReportAccesses hw chNo readyBusy wayNo) s' := by
  have way := ok.channel chNo channel
  obtain ⟨exe, -, -⟩ := way.allows .statusReport wayNo member
  have real := way.headReq_real member (by simp)
  unfold checkStatusReport at done
  unfold checkStatusReportAccesses
  split at done
  · rename_i ready
    simp only [ready, ↓reduceIte]
    cases checked : s.checkReqStatus hw chNo wayNo with
    | mk reqStatus t =>
      simp only [checked] at done ⊢
      have checks := NandWay.checkReqStatus_triple exe real checked
      have spares := sparesOthers_of_check checked
      obtain ⟨-, sameLayer, sameState, -⟩ := checkReqStatus_spec checked
      split at done
      · rename_i ended
        simp only [Option.bind_eq_bind, Option.bind_eq_some_iff] at done
        obtain ⟨u, finished, v, released, done⟩ := done
        obtain ⟨-, -, -, dies, phases, idle⟩ := reportDone_spec channel ok member checked ended finished released
        have kept : s.Keeps ((s.checkReqStatusAccesses hw chNo wayNo ++
            t.executeNandReqAccesses chNo wayNo reqStatus).map (Prod.mk (chNo, wayNo))) v := by
          refine Keeps.way (fun c w diff => ⟨dies c w diff, phases c w diff⟩) ?_
          rw [NandWay.agrees_idle idle]
          exact checkAndExecute_triple exe real checked ended
        rw [if_pos ended]
        split at done
        · simp only [Option.bind_eq_some_iff] at done
          obtain ⟨x, put, done⟩ := done
          cases done
          unfold putToNandWayPriorityTable at put
          split at put <;> cases put <;> exact kept
        · cases done
          exact kept
      · rename_i running
        rw [not_not] at running
        subst running
        rw [if_neg (by simp), List.append_nil]
        have own : NandWay.WayTriple ((s.dieState chNo wayNo).Agrees (s.layer.headPhase chNo wayNo))
            (s.checkReqStatusAccesses hw chNo wayNo)
            ((t.dieState chNo wayNo).Agrees (t.layer.headPhase chNo wayNo)) := by
          rw [sameLayer]
          exact checks.conseq (fun _ => id) fun w checked => by simpa [NandWay.CheckedWay] using checked
        split at done <;> cases done <;> exact Keeps.way spares own
  · rename_i busy
    cases done
    simp only [busy, Bool.false_eq_true, ↓reduceIte]
    exact .refl _

theorem checkStatusReports_keeps (channel : chNo < g.userChannels) (ok : SchedulerOk g s lists)
    (shape : lists chNo .statusReport = before ++ rest)
    (done : checkStatusReports g hw chNo readyBusy turns s (rest.headD wayNone) cnt = some (s', cnt')) :
    s.Keeps (checkStatusReportsAccesses g hw chNo readyBusy turns s (rest.headD wayNone)) s' := by
  induction turns generalizing s lists before rest cnt with
  | zero =>
    cases done
    exact .refl _
  | succ turns ih =>
    rw [checkStatusReports_succ] at done
    rw [checkStatusReportsAccesses]
    split at done
    · rename_i ended
      cases done
      rw [if_pos ended]
      exact .refl _
    · rename_i more
      rw [if_neg more]
      obtain ⟨wayNo, rest', rfl, isHead, member, -⟩ := ok.split_head channel shape more
      rw [isHead, Option.bind_eq_some_iff] at done
      obtain ⟨⟨t, nextWay, waits⟩, turn, done⟩ := done
      obtain ⟨lists', before', leads, shape', rfl, -⟩ := checkStatusReport_spec channel ok shape turn
      rw [isHead, turn]
      exact (checkStatusReport_keeps channel ok member turn).trans (ih leads.1 shape' done)

/-- Reading a word concerns no die. -/
theorem Keeps.readWord (s : Scheduler) (word : Nat → Nat) : s.Keeps [] (s.readWord word).2 :=
  .silent fun _ _ => ⟨rfl, fun _ => rfl⟩

theorem selectWays_keeps (channel : chNo < g.userChannels) (ok : SchedulerOk g s lists)
    (done : s.selectWays g hw chNo = some (s', cnt')) : s.Keeps (s.selectWaysAccesses g hw chNo) s' := by
  simp only [selectWays, Option.bind_eq_bind, Option.bind_eq_some_iff] at done
  obtain ⟨⟨t, cnt⟩, selected, done⟩ := done
  have idles : s.Keeps [] t := .silent (selectIdleWays_spares ok.layer selected)
  simp only [selectWaysAccesses, selected]
  rw [head, (ok.channel chNo channel).wellFormed.head] at selected
  have all : lists chNo .idle = [] ++ lists chNo .idle := rfl
  obtain ⟨lists', ⟨ok', -⟩, -⟩ := selectIdleWays_spec channel ok all
    ((ok.channel chNo channel).length_le .idle) rfl selected
  split at done
  · rename_i some
    rw [if_pos some]
    have read := idles.trans (Keeps.readWord t hw.readyBusy)
    have ok'' : SchedulerOk g (t.v2fReadyBusyAsync hw).2 lists' := ok'.read _
    change s.Keeps [] (t.v2fReadyBusyAsync hw).2 at read
    generalize t.v2fReadyBusyAsync hw = answer at read done ok''
    simp only at done ⊢
    rw [(ok''.channel chNo channel).head] at done ⊢
    have reports : lists' chNo .statusReport = [] ++ lists' chNo .statusReport := rfl
    exact read.trans (checkStatusReports_keeps channel ok'' reports done)
  · rename_i empty
    cases done
    rw [if_neg empty]
    exact idles

/-! ### The part that issues -/

/-- A status check of a way of the status check list, whose result is thrown away. -/
theorem checkStatus_keeps (channel : chNo < g.userChannels) (ok : SchedulerOk g s lists)
    (member : wayNo ∈ lists chNo .statusCheck) (checked : s.checkReqStatus hw chNo wayNo = (reqStatus, t)) :
    s.Keeps ((s.checkReqStatusAccesses hw chNo wayNo).map (Prod.mk (chNo, wayNo))) t := by
  have way := ok.channel chNo channel
  obtain ⟨exe, -, opt⟩ := way.allows .statusCheck wayNo member
  have real := way.headReq_real member (by simp)
  have checks := NandWay.checkReqStatus_triple exe real checked
  have spares := sparesOthers_of_check checked
  obtain ⟨-, sameLayer, sameState, checkedTo⟩ := checkReqStatus_spec checked
  rcases opt with opt | opt <;> rw [opt] at checkedTo
  · obtain ⟨rfl, -⟩ := checkedTo
    refine .way spares ?_
    rw [sameLayer]
    exact checks.conseq (fun _ => id) fun w checked => by simpa [NandWay.CheckedWay] using checked
  · have none : s.checkReqStatusAccesses hw chNo wayNo = [] := by simp only [checkReqStatusAccesses, opt]
    have entry : ∀ e e' : DieStateEntry, e.dieState = e'.dieState →
        e.reqStatusCheckOpt = e'.reqStatusCheckOpt → e = e' := by
      rintro ⟨_, _⟩ ⟨_, _⟩ rfl rfl
      rfl
    have same : t.dieState chNo wayNo = s.dieState chNo wayNo :=
      entry _ _ sameState (Eq.trans checkedTo opt.symm)
    rw [none]
    refine .silent fun c w => ?_
    by_cases here : (c, w) = (chNo, wayNo)
    · cases here
      exact ⟨same, fun _ => by rw [sameLayer]⟩
    · exact spares c w here

theorem checkStatusesAccesses_none (turns : Nat) :
    checkStatusesAccesses hw chNo readyBusy turns s wayNone = [] := by
  cases turns <;> simp [checkStatusesAccesses]

theorem checkStatuses_keeps {returned : Bool} (channel : chNo < g.userChannels) (ok : SchedulerOk g s lists)
    (shape : lists chNo .statusCheck = before ++ rest)
    (done : checkStatuses hw chNo readyBusy turns s (rest.headD wayNone) = (returned, s')) :
    s.Keeps (checkStatusesAccesses hw chNo readyBusy turns s (rest.headD wayNone)) s' := by
  induction turns generalizing before rest with
  | zero =>
    cases done
    exact .refl _
  | succ turns ih =>
    unfold checkStatuses at done
    unfold checkStatusesAccesses
    split at done
    · rename_i ended
      cases done
      rw [if_pos ended]
      exact .refl _
    rename_i more
    rw [if_neg more]
    obtain ⟨wayNo, rest', rfl, isHead, member, next⟩ := ok.split_head channel shape more
    rw [isHead] at done ⊢
    split at done
    · rename_i ready
      rw [if_pos ready]
      cases checked : s.checkReqStatus hw chNo wayNo with
      | mk reqStatus t =>
        simp only [checked] at done ⊢
        have leads := checkStatus_spec channel ok member checked
        have kept := checkStatus_keeps channel ok member checked
        change s.Keeps _ ((t.selectiveGetFromNandStatusCheckList chNo wayNo).putToNandStatusReportList
          chNo wayNo) at kept
        generalize (t.selectiveGetFromNandStatusCheckList chNo wayNo).putToNandStatusReportList
          chNo wayNo = u at leads kept done
        have leads' : s.Leads g (u.v2fIsControllerBusy hw).2 _ := leads.readWord hw.queueNotFull
        have kept' := kept.trans (Keeps.readWord u hw.queueNotFull)
        change s.Keeps _ (u.v2fIsControllerBusy hw).2 at kept'
        generalize u.v2fIsControllerBusy hw = answer at leads' kept' done
        rw [nextWay_moved leads'.1 channel] at done ⊢
        rw [checkStatusesAccesses_none, ite_self]
        split at done
        · cases done
          exact kept'
        · rw [checkStatuses_none] at done
          cases done
          exact kept'
    · rename_i busy
      rw [if_neg busy]
      rw [next] at done ⊢
      have passed : lists chNo .statusCheck = (before ++ [wayNo]) ++ rest' := by simp [shape]
      exact ih passed done

/-- An idle die starts its first request. -/
theorem executeNandReq_keeps (idle : (s.dieState chNo wayNo).dieState = .idle)
    (real : s.headReq chNo wayNo ≠ reqSlotTagNone)
    (issued : s.executeNandReq g chNo wayNo .running = some t) :
    s.Keeps ((s.executeNandReqAccesses chNo wayNo .running).map (Prod.mk (chNo, wayNo))) t := by
  obtain ⟨concerns, sameLayer, code, head, entry⟩ := executeNandReq_idle real idle issued
  rw [headReqCode_of_real real] at head
  cases head
  refine .way (fun c w diff => ⟨concerns.dieState c w diff, fun _ => by rw [sameLayer]⟩) ?_
  rw [entry, sameLayer, NandWay.agrees_idle idle]
  simp only [executeNandReqAccesses, idle]
  exact NandWay.issueNandReq_triple real

theorem issueWays_keeps {returned : Bool} (channel : chNo < g.userChannels) (ok : SchedulerOk g s lists)
    (issues : Issues k k')
    (done : issueWays g hw chNo (selectiveGetFromList · k) (putToList · k') turns s (s.head chNo k) =
      some (returned, s')) :
    s.Keeps (issueWaysRecords (issueAccesses chNo) g hw chNo k k' turns s (s.head chNo k)) s' := by
  have way := ok.channel chNo channel
  cases turns with
  | zero =>
    cases done
    exact .refl _
  | succ turns =>
    unfold issueWays at done
    unfold issueWaysRecords
    split at done
    · rename_i ended
      cases done
      rw [if_pos ended]
      exact .refl _
    rename_i more
    rw [if_neg more]
    have member : s.head chNo k ∈ lists chNo k := way.head_mem more
    generalize s.head chNo k = wayNo at done member
    simp only [Option.bind_eq_bind, Option.bind_eq_some_iff] at done
    obtain ⟨t, issued, done⟩ := done
    have real := way.headReq_real member issues.2.1
    obtain ⟨idle, -⟩ := issues.2.2 _ _ (headReqCode_of_real real ▸ way.allows k wayNo member)
    have kept := executeNandReq_keeps idle real issued
    have leads := (issueWay_spec channel ok issues member issued).readWord hw.queueNotFull
    change s.Leads g (v2fIsControllerBusy hw _).2 _ at leads
    change s.Keeps _ ((t.selectiveGetFromList k chNo wayNo).putToList k' chNo wayNo) at kept
    simp only [issued]
    have kept' := kept.trans (Keeps.readWord _ hw.queueNotFull)
    change s.Keeps _ (v2fIsControllerBusy hw _).2 at kept'
    generalize v2fIsControllerBusy hw
      ((t.selectiveGetFromList k chNo wayNo).putToList k' chNo wayNo) = answer at leads kept' done
    rw [nextWay_moved leads.1 channel] at done ⊢
    rw [issueWaysRecords_none, ite_self]
    split at done
    · cases done
      exact kept'
    · rw [issueWays_none] at done
      cases done
      exact kept'

theorem issueInOrder_keeps {more : List (WayList × WayList)} (channel : chNo < g.userChannels)
    (ok : SchedulerOk g s lists) (issues : ∀ l ∈ more, Issues l.1 l.2)
    (done : issueInOrder g hw chNo more s = some s') :
    s.Keeps (issueInOrderRecords (issueAccesses chNo) g hw chNo more s) s' := by
  induction more generalizing s lists with
  | nil =>
    cases done
    exact .refl _
  | cons l more ih =>
    simp only [issueInOrder, Option.bind_eq_bind, Option.bind_eq_some_iff, Prod.exists] at done
    obtain ⟨returned, t, issued, done⟩ := done
    rw [List.forall_mem_cons] at issues
    obtain ⟨lists', leads⟩ := issueWays_spec channel ok issues.1 issued
    have kept := issueWays_keeps channel ok issues.1 issued
    simp only [issueInOrderRecords, issued]
    split at done
    · rename_i busy
      cases done
      rw [if_pos busy, List.append_nil]
      exact kept
    · rename_i free
      rw [if_neg free]
      exact kept.trans (ih leads.1 issues.2 done)

theorem issueRequests_keeps (channel : chNo < g.userChannels) (ok : SchedulerOk g s lists)
    (done : s.issueRequests g hw chNo = some s') : s.Keeps (s.issueRequestsAccesses g hw chNo) s' := by
  rw [issueRequests_eq] at done
  unfold issueRequestsAccesses
  have read := Keeps.readWord s hw.queueNotFull
  have ok₀ : SchedulerOk g (s.v2fIsControllerBusy hw).2 lists := ok.read _
  change s.Keeps [] (s.v2fIsControllerBusy hw).2 at read
  generalize s.v2fIsControllerBusy hw = answer at read ok₀ done
  obtain ⟨busy, s₀⟩ := answer
  simp only at done read ok₀ ⊢
  split at done
  · rename_i returns
    cases done
    rw [if_pos returns]
    exact read
  rename_i goesOn
  rw [if_neg goesOn]
  by_cases some : s₀.head chNo .statusCheck ≠ wayNone
  · rw [if_pos some]
    rw [if_pos some] at done
    have read' := read.trans (Keeps.readWord s₀ hw.readyBusy)
    have ok₁ : SchedulerOk g (s₀.v2fReadyBusyAsync hw).2 lists := ok₀.read _
    change s.Keeps [] (s₀.v2fReadyBusyAsync hw).2 at read'
    generalize s₀.v2fReadyBusyAsync hw = answer at read' ok₁ done
    obtain ⟨readyBusy, s₁⟩ := answer
    simp only at done read' ok₁ ⊢
    have all : lists chNo .statusCheck = [] ++ lists chNo .statusCheck := rfl
    rw [(ok₁.channel chNo channel).head] at done ⊢
    cases checks : checkStatuses hw chNo readyBusy g.userWays s₁ ((lists chNo .statusCheck).headD wayNone) with
    | mk returned s₂ =>
      simp only [checks] at done ⊢
      have kept := read'.trans (checkStatuses_keeps channel ok₁ all checks)
      obtain ⟨lists', leads⟩ := checkStatuses_spec channel ok₁ all checks
      split at done
      · rename_i returns
        cases done
        rw [if_pos returns, List.append_nil]
        exact kept
      · rename_i goesOn
        rw [if_neg goesOn]
        exact kept.trans (issueInOrder_keeps channel leads.1 issues_issueOrder done)
  · rw [if_neg some]
    rw [if_neg some] at done
    exact read.trans (issueInOrder_keeps channel ok₀ issues_issueOrder done)

/-- A pass keeps dies and ways in agreement, and hands over no stale result. -/
theorem schedulingNandReqPerCh_keeps (channel : chNo < g.userChannels) (ok : SchedulerOk g s lists)
    (done : s.schedulingNandReqPerCh g hw chNo = some s') :
    s.Keeps (s.schedulingNandReqPerChAccesses g hw chNo) s' := by
  simp only [schedulingNandReqPerCh, Option.bind_eq_bind, Option.bind_eq_some_iff, Prod.exists] at done
  obtain ⟨t, waitWayCnt, selected, done⟩ := done
  have select := selectWays_keeps channel ok selected
  obtain ⟨lists', leads, -⟩ := selectWays_spec channel ok selected
  simp only [schedulingNandReqPerChAccesses, selected]
  split at done
  · rename_i more
    rw [if_pos more]
    exact select.trans (issueRequests_keeps channel leads.1 done)
  · rename_i all
    cases done
    rw [if_neg all, List.append_nil]
    exact select

end Scheduler

/-! ### Runs -/

/-- What holds after every run: the lists are in order, and every way agrees with its die
however the controller served the accesses. -/
theorem tracedStep_keeps {s s' : TracedScheduler} {op : SchedulerOp} {I : (Nat × Nat → NandWay) → Prop}
    (ok : SchedulerOk g s.scheduler lists) (kept : FlashTriple I s.accesses s.scheduler.Agrees)
    (allowed : op.Allowed g s.scheduler) (step : tracedStep g s op = some s') :
    (∃ lists', SchedulerOk g s'.scheduler lists') ∧ FlashTriple I s'.accesses s'.scheduler.Agrees := by
  simp only [tracedStep, Option.map_eq_some_iff] at step
  obtain ⟨scheduler, step, rfl⟩ := step
  cases op with
  | pass chNo hw =>
    obtain ⟨lists', leads⟩ := Scheduler.schedulingNandReqPerCh_spec allowed ok step
    exact ⟨⟨lists', leads.1⟩, kept.append (Scheduler.schedulingNandReqPerCh_keeps allowed ok step)⟩
  | append layer =>
    cases step
    refine ⟨⟨lists, ok.append allowed.1 allowed.2⟩, kept.append (Scheduler.Keeps.silent fun c w => ?_)⟩
    exact ⟨rfl, allowed.1.keepsPhase c w⟩

theorem agrees_init (g : Geometry) : (initReqScheduler g).Agrees initFlashController := by
  intro die k i outstanding
  cases outstanding.1

/-- In every run of passes, with any answers of the hardware and with the controller taking
any steps before and after every access: a way never has more than one status check
outstanding, and what `ExecuteNandReq` receives for a read, a transfer, a write or an erase
was reported by a command issued after this very phase of this request, or by the
transfer that the phase is. -/
theorem reports_not_stale (fits : g.userWays ≤ wayNone) {ops : List SchedulerOp} {s : TracedScheduler}
    (run : Run (tracedStep g) (fun s op => op.Allowed g s.scheduler) ⟨initReqScheduler g, []⟩ ops s)
    {before after : List FlashAccess} (shape : s.accesses = before ++ after) {c : Nat × Nat → NandWay}
    (served : InterfaceTraces.Serves (onComponent NandWay.access) (onComponent NandWay.move) initFlashController before c) :
    (∀ die i j, (c die).Outstanding .statusReport i → (c die).Outstanding .statusReport j → i = j) ∧
    ∀ die reqSlotTag req reqStatus, after.head? = some (die, .execute reqSlotTag req reqStatus) →
      reqStatus ≠ .running → req.reqCode ∈ [.read, .readTransfer, .write, .erase] →
      (c die).Reported reqSlotTag req reqStatus := by
  have kept : (∃ lists, SchedulerOk g s.scheduler lists) ∧
      FlashTriple (initReqScheduler g).Agrees s.accesses s.scheduler.Agrees := by
    apply run.invariant (fun s => (∃ lists, SchedulerOk g s.scheduler lists) ∧
      FlashTriple (initReqScheduler g).Agrees s.accesses s.scheduler.Agrees)
    · exact ⟨⟨_, schedulerOk_init fits⟩, Scheduler.Keeps.refl _⟩
    · rintro s op s' ⟨⟨lists, ok⟩, kept⟩ allowed step
      exact tracedStep_keeps ok kept allowed step
  obtain ⟨calm, safe⟩ := (kept.2 _ (agrees_init g)).1 before after c shape served
  exact ⟨calm, fun die reqSlotTag req reqStatus isHead => safe _ isHead⟩

/-- Ready dies, and a status report that shows success. -/
def reportingHardware : Hardware := { readyHardware with statusReport := fun _ => 0xC1 }

/-- The pass that finishes a WRITE comes last, and the controller serves the accesses before it
with a report for the second command. -/
def EndsWritten : List FlashAccess → Bool
  | [a₁, a₂, a₃, a₄, (_, .execute _ req .done)] =>
    req.reqCode = .write ∧
      ([.inl a₁, .inr ((0, 0), .execute), .inl a₂, .inl a₃, .inr ((0, 0), .execute),
        .inr ((0, 0), .report 1 0xC1 0), .inl a₄].foldlM
          (InterfaceTraces.advance (onComponent NandWay.access) (onComponent NandWay.move))
          initFlashController).isSome
  | _ => false

/-- A write-back is queued; three passes issue it, ask for its status and finish it. The
controller executes both commands and reports for the second one. -/
theorem reports_not_stale_written :
    ∃ ops s before after c die reqSlotTag req,
      Run (tracedStep tinyGeometry) (fun s op => op.Allowed tinyGeometry s.scheduler)
        ⟨initReqScheduler tinyGeometry, []⟩ ops s ∧ s.accesses = before ++ after ∧
      InterfaceTraces.Serves (onComponent NandWay.access) (onComponent NandWay.move) initFlashController before c ∧
      after.head? = some (die, .execute reqSlotTag req .done) ∧ req.reqCode = .write ∧
      (c die).Reported reqSlotTag req .done := by
  let pass : SchedulerOp := .pass 0 reportingHardware
  have done : ((requestStep tinyGeometry (initFirmware tinyGeometry) (.alloc [])).any fun fw =>
      (requestStep tinyGeometry fw (.submit 0 writeBackReq [])).any fun fw' =>
        (tracedStep tinyGeometry ⟨initReqScheduler tinyGeometry, []⟩ (.append fw'.layer)).any fun s =>
          (tracedStep tinyGeometry s pass).any fun s₁ => (tracedStep tinyGeometry s₁ pass).any fun s₂ =>
            (tracedStep tinyGeometry s₂ pass).any fun s₃ => EndsWritten s₃.accesses) = true := by
    decide +kernel
  simp only [Option.any_eq_true] at done
  obtain ⟨fw, allocated, fw', submitted, s, queued, s₁, issued, s₂, asked, s₃, finished, shown⟩ := done
  unfold EndsWritten at shown
  split at shown
  · rename_i a₁ a₂ a₃ a₄ die reqSlotTag req shape
    simp only [decide_eq_true_eq, Option.isSome_iff_exists] at shown
    obtain ⟨code, c, ran⟩ := shown
    have quiet : (RequestOp.alloc []).Quiet := rfl
    have quiet' : (RequestOp.submit 0 writeBackReq []).Quiet := rfl
    obtain ⟨first, slots⟩ := requestStep_appends SlotsOk.init quiet allocated
    obtain ⟨second, slots'⟩ := requestStep_appends slots quiet' submitted
    let allowed (s : TracedScheduler) (op : SchedulerOp) : Prop := op.Allowed tinyGeometry s.scheduler
    have append : allowed ⟨initReqScheduler tinyGeometry, []⟩ (.append fw'.layer) :=
      ⟨first.trans second, _, _, slots'⟩
    have channel : ∀ s, allowed s pass := fun _ => show 0 < 1 by decide
    have run : Run (tracedStep tinyGeometry) allowed ⟨initReqScheduler tinyGeometry, []⟩ _ s₃ :=
      (((Run.nil.snoc append queued).snoc (channel _) issued).snoc (channel _) asked).snoc (channel _) finished
    have served : InterfaceTraces.Serves (onComponent NandWay.access) (onComponent NandWay.move) initFlashController
        [a₁, a₂, a₃, a₄] c := ⟨_, rfl, ran⟩
    have split : s₃.accesses = [a₁, a₂, a₃, a₄] ++ [(die, .execute reqSlotTag req .done)] := shape
    have reported := (reports_not_stale (by decide) run split served).2 die reqSlotTag req .done rfl (by simp)
      (by simp [code])
    exact ⟨_, s₃, _, _, c, die, reqSlotTag, req, run, split, served, rfl, code, reported⟩
  · cases shown

end OcpFw
