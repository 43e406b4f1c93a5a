import OcpFw.SchedulerRuns

/-! How far one pass gets. The issuing loops follow the link of a way that was just appended
to another list, where it is the last one: every loop handles the first way of its list and
ends, although the controller would have taken more. -/
namespace OcpFw
open RequestLayer (Appends Acts)
open Runs (Run exec run_of_exec_any)

/-- The controller takes every request. -/
def Hardware.NeverBusy (hw : Hardware) : Prop := ∀ reads, hw.queueNotFull reads ≠ 0

def Hardware.AllReady (g : Geometry) (hw : Hardware) : Prop :=
  ∀ reads, ∀ wayNo < g.userWays, v2fWayReady (hw.readyBusy reads) wayNo = true

namespace Scheduler

/-! ### The calls of `ExecuteNandReq` in the issuing part -/

/-- The ways that the issuing part calls `ExecuteNandReq` for, in the order of the calls. -/
def issueRequestsCalls (g : Geometry) (hw : Hardware) (s : Scheduler) (chNo : Nat) : List Nat :=
  let (busy, s) := s.v2fIsControllerBusy hw
  if busy then []
  else
    let (returned, s) :=
      if s.head chNo .statusCheck ≠ wayNone then
        let (readyBusy, s) := s.v2fReadyBusyAsync hw
        checkStatuses hw chNo readyBusy g.userWays s (s.head chNo .statusCheck)
      else (false, s)
    if returned then [] else issueInOrderRecords (fun _ wayNo => [wayNo]) g hw chNo issueOrder s

/-- `schedulingNandReqPerCh`, with the ways its issuing part calls `ExecuteNandReq` for. -/
def schedulingNandReqPerChCalls (g : Geometry) (hw : Hardware) (s : Scheduler) (chNo : Nat) :
    Option (List Nat × Scheduler) := do
  let (t, waitWayCnt) ← s.selectWays g hw chNo
  let s' ← s.schedulingNandReqPerCh g hw chNo
  some (if waitWayCnt ≠ g.userWays then t.issueRequestsCalls g hw chNo else [], s')

end Scheduler

variable {g : Geometry} {hw : Hardware} {s s' t : Scheduler} {lists lists' : Nat → WayList → List Nat}
  {chNo wayNo cnt turns readyBusy : Nat} {k k' k'' : WayList}

namespace Scheduler

theorem schedulingNandReqPerChCalls_state :
    (s.schedulingNandReqPerChCalls g hw chNo).map Prod.snd = s.schedulingNandReqPerCh g hw chNo := by
  unfold schedulingNandReqPerChCalls schedulingNandReqPerCh
  cases s.selectWays g hw chNo with
  | none => rfl
  | some r =>
    simp only [Option.bind_eq_bind, Option.bind_some]
    split
    · cases r.1.issueRequests g hw chNo <;> rfl
    · rfl

end Scheduler

/-! ### The first way of a list -/

/-- The lists after the first way of one of them moved. -/
def advance (lists : Nat → WayList → List Nat) (chNo : Nat) (k k' : WayList) : Nat → WayList → List Nat :=
  match lists chNo k with
  | [] => lists
  | wayNo :: _ => moved lists chNo k k' wayNo

theorem advance_source (diff : k ≠ k') : advance lists chNo k k' chNo k = (lists chNo k).tail := by
  unfold advance
  cases shape : lists chNo k with
  | nil => simp [shape]
  | cons wayNo rest => simp [moved_source diff, shape]

theorem advance_target : advance lists chNo k k' chNo k' = lists chNo k' ++ (lists chNo k).head?.toList := by
  unfold advance
  cases shape : lists chNo k with
  | nil => simp
  | cons wayNo rest => simp

theorem advance_other (source : k'' ≠ k) (target : k'' ≠ k') :
    advance lists chNo k k' chNo k'' = lists chNo k'' := by
  unfold advance
  cases shape : lists chNo k with
  | nil => rfl
  | cons wayNo rest => exact moved_other source target

/-- The lists whose requests are issued, in the order of the loops. -/
def issueLists : List WayList := [.readTrigger, .erase, .write, .readTransfer]

/-- The answer of a controller that is never busy. -/
theorem Hardware.NeverBusy.takes (free : hw.NeverBusy) (s : Scheduler) :
    s.v2fIsControllerBusy hw = (false, (s.readWord hw.queueNotFull).2) := by
  have open_ := free s.reads
  simp [Scheduler.v2fIsControllerBusy, Scheduler.readWord, open_]

namespace Scheduler

/-- The request of a way in one of these lists is one the controller is told of. -/
theorem executeNandReq_issues (channel : chNo < g.userChannels) (ok : SchedulerOk g s lists)
    (issuing : k ∈ issueLists) (member : wayNo ∈ lists chNo k) :
    ∃ t, s.executeNandReq g chNo wayNo .running = some t := by
  have way := ok.channel chNo channel
  have allows := way.allows k wayNo member
  have busy : k ≠ .idle := by
    rintro rfl
    simp [issueLists] at issuing
  have code := headReqCode_of_real (way.headReq_real member busy)
  rw [code] at allows
  simp only [issueLists, List.mem_cons, List.not_mem_nil, or_false] at issuing
  unfold executeNandReq issueNandReq
  rcases issuing with rfl | rfl | rfl | rfl <;> simp only [WayList.Allows, Option.some.injEq] at allows
  · simp [allows]
  · simp [allows]
  · rcases allows with ⟨idle, code | code | code⟩ <;> simp [idle, code]
  · simp [allows]

/-- A loop of the issuing part handles the first way of its list. -/
theorem issueWays_first (channel : chNo < g.userChannels) (ok : SchedulerOk g s lists) (free : hw.NeverBusy)
    (issues : Issues k k') (issuing : k ∈ issueLists) :
    ∃ s', issueWays g hw chNo (selectiveGetFromList · k) (putToList · k') g.userWays s (s.head chNo k) =
        some (false, s') ∧
      issueWaysRecords (fun _ wayNo => [wayNo]) g hw chNo k k' g.userWays s (s.head chNo k) =
        (lists chNo k).head?.toList ∧
      SchedulerOk g s' (advance lists chNo k k') := by
  have way := ok.channel chNo channel
  obtain ⟨turns, positive⟩ : ∃ turns, g.userWays = turns + 1 := ⟨g.userWays - 1, by have := g.ways_pos; omega⟩
  rw [positive, way.head]
  unfold advance issueWays issueWaysRecords
  cases shape : lists chNo k with
  | nil => exact ⟨s, by simp, by simp, ok⟩
  | cons wayNo rest =>
    have member : wayNo ∈ lists chNo k := by simp [shape]
    have real := way.real member
    obtain ⟨t, issued⟩ := executeNandReq_issues channel ok issuing member
    have leads := (issueWay_spec channel ok issues member issued).readWord hw.queueNotFull
    have ended := nextWay_moved leads.1 channel
    refine ⟨_, ?_, ?_, leads.1⟩
    · simp [real, issued, free.takes, ended, issueWays_none]
    · simp [real, issued, free.takes, ended, issueWaysRecords_none]

/-- So do the status checks, when every die is ready. -/
theorem checkStatuses_ready (channel : chNo < g.userChannels) (ok : SchedulerOk g s lists) (free : hw.NeverBusy)
    (ready : hw.AllReady g) :
    ∃ s', (if s.head chNo .statusCheck ≠ wayNone then
        checkStatuses hw chNo (s.v2fReadyBusyAsync hw).1 g.userWays (s.v2fReadyBusyAsync hw).2
          ((s.v2fReadyBusyAsync hw).2.head chNo .statusCheck)
      else (false, s)) = (false, s') ∧ SchedulerOk g s' (advance lists chNo .statusCheck .statusReport) := by
  have way := ok.channel chNo channel
  unfold advance
  cases shape : lists chNo .statusCheck with
  | nil =>
    have empty := way.head_eq_none.mpr shape
    exact ⟨s, by simp [empty], ok⟩
  | cons wayNo rest =>
    have member : wayNo ∈ lists chNo .statusCheck := by simp [shape]
    have real := way.real member
    have first : s.head chNo .statusCheck = wayNo := by simp [way.head, shape]
    have inside := (way.everyWay wayNo).mp ⟨_, member⟩
    have read := (show s.Leads g s lists from ⟨ok, .refl _⟩).readWord hw.readyBusy
    have shown := ready s.reads wayNo inside
    obtain ⟨turns, positive⟩ : ∃ turns, g.userWays = turns + 1 := ⟨g.userWays - 1, by omega⟩
    obtain ⟨⟨reqStatus, t⟩, checked⟩ : ∃ r, checkReqStatus hw (s.readWord hw.readyBusy).2 chNo wayNo = r := ⟨_, rfl⟩
    have leads := (checkStatus_spec channel read.1 member checked).readWord hw.queueNotFull
    refine ⟨_, ?_, leads.1⟩
    have ended := nextWay_moved leads.1 channel
    have first' : (s.readWord hw.readyBusy).2.head chNo .statusCheck = wayNo := first
    have shown' : v2fWayReady (s.readWord hw.readyBusy).1 wayNo = true := shown
    rw [if_pos (by rw [first]; exact real), positive]
    unfold v2fReadyBusyAsync
    rw [first', checkStatuses]
    simp only [real, ↓reduceIte, shown', checked, free.takes]
    rw [ended, checkStatuses_none]
    simp

end Scheduler

/-! ### The issuing part -/

/-- The lists after the five loops. -/
def afterIssuing (lists : Nat → WayList → List Nat) (chNo : Nat) : Nat → WayList → List Nat :=
  let lists := advance lists chNo .statusCheck .statusReport
  let lists := advance lists chNo .readTrigger .statusCheck
  let lists := advance lists chNo .erase .statusCheck
  let lists := advance lists chNo .write .statusCheck
  advance lists chNo .readTransfer .statusReport

theorem afterIssuing_issueLists (issuing : k ∈ issueLists) :
    afterIssuing lists chNo chNo k = (lists chNo k).tail := by
  simp only [issueLists, List.mem_cons, List.not_mem_nil, or_false] at issuing
  rcases issuing with rfl | rfl | rfl | rfl <;> simp [afterIssuing, advance_source, advance_other]

theorem afterIssuing_statusCheck : afterIssuing lists chNo chNo .statusCheck = (lists chNo .statusCheck).tail ++
    (lists chNo .readTrigger).head?.toList ++ (lists chNo .erase).head?.toList ++
    (lists chNo .write).head?.toList := by
  simp [afterIssuing, advance_source, advance_target, advance_other]

theorem afterIssuing_statusReport : afterIssuing lists chNo chNo .statusReport = lists chNo .statusReport ++
    (lists chNo .statusCheck).head?.toList ++ (lists chNo .readTransfer).head?.toList := by
  simp [afterIssuing, advance_target, advance_other]

/-- The first ways of the lists, in the order of the loops. -/
def firstWays (lists : WayList → List Nat) : List Nat := issueLists.flatMap fun k => (lists k).head?.toList

theorem firstWays_nodup {lists : WayList → List Nat} (ok : WayLists g s chNo lists) : (firstWays lists).Nodup := by
  have first : ∀ {k wayNo}, wayNo ∈ (lists k).head?.toList → wayNo ∈ lists k := fun member =>
    List.mem_of_mem_head? (by simpa using member)
  unfold firstWays
  rw [List.nodup_flatMap]
  constructor
  · intro k _
    cases (lists k).head? <;> simp
  · have apart : issueLists.Pairwise (· ≠ ·) := by decide
    refine apart.imp fun diff wayNo one other => ?_
    exact diff (ok.wellFormed.disjoint _ _ wayNo (first one) (first other))

/-- The issuing part, when nothing holds it up. -/
theorem Scheduler.issueRequestsCalls_spec (channel : chNo < g.userChannels) (ok : SchedulerOk g s lists)
    (free : hw.NeverBusy) (ready : hw.AllReady g) :
    ∃ s', s.issueRequests g hw chNo = some s' ∧ s.issueRequestsCalls g hw chNo = firstWays (lists chNo) ∧
      SchedulerOk g s' (afterIssuing lists chNo) := by
  have start : s.Leads g (s.readWord hw.queueNotFull).2 lists := Leads.readWord ⟨ok, .refl _⟩ _
  obtain ⟨s₁, checks, ok₁⟩ := checkStatuses_ready channel start.1 free ready
  obtain ⟨s₂, reads, readCalls, ok₂⟩ := issueWays_first channel ok₁ free issues_readTrigger (by simp [issueLists])
  obtain ⟨s₃, erases, eraseCalls, ok₃⟩ := issueWays_first channel ok₂ free issues_erase (by simp [issueLists])
  obtain ⟨s₄, writes, writeCalls, ok₄⟩ := issueWays_first channel ok₃ free issues_write (by simp [issueLists])
  obtain ⟨s₅, transfers, transferCalls, ok₅⟩ :=
    issueWays_first channel ok₄ free issues_readTransfer (by simp [issueLists])
  refine ⟨s₅, ?_, ?_, ok₅⟩
  · simp only [issueRequests_eq, free.takes, Bool.false_eq_true, ↓reduceIte, checks, issueOrder, issueInOrder,
      Option.bind_eq_bind, reads, erases, writes, transfers, Option.bind_some]
  · simp only [issueRequestsCalls, free.takes, Bool.false_eq_true, ↓reduceIte, checks, issueOrder, issueInOrderRecords,
      reads, erases, writes, transfers, readCalls, eraseCalls, writeCalls, transferCalls]
    simp [advance_other, firstWays, issueLists]

/-- Everything that was ready was issued, and every status was asked for. -/
structure AllIssued (before after : WayList → List Nat) (calls : List Nat) : Prop where
  once : ∀ k ∈ issueLists, ∀ wayNo ∈ before k, calls.count wayNo = 1
  reported : ∀ wayNo ∈ before .statusCheck, wayNo ∈ after .statusReport
  empty : ∀ k ∈ issueLists, after k = []

/-- No list has a second way. -/
def SingleWays (lists : WayList → List Nat) : Prop := ∀ k ∈ .statusCheck :: issueLists, (lists k).length ≤ 1

theorem allIssued_iff (ok : WayLists g s chNo (lists chNo)) (ok' : WayLists g s' chNo (afterIssuing lists chNo chNo)) :
    AllIssued (lists chNo) (afterIssuing lists chNo chNo) (firstWays (lists chNo)) ↔ SingleWays (lists chNo) := by
  constructor
  · intro all k listed
    rcases List.mem_cons.mp listed with rfl | issuing
    · cases shape : lists chNo .statusCheck with
      | nil => simp
      | cons wayNo rest =>
        cases rest with
        | nil => simp
        | cons second rest =>
          have stays : second ∈ afterIssuing lists chNo chNo .statusCheck := by
            rw [afterIssuing_statusCheck, shape]
            simp
          have left := all.reported second (by simp [shape])
          cases ok'.wellFormed.disjoint _ _ second stays left
    · have empty := all.empty k issuing
      rw [afterIssuing_issueLists issuing] at empty
      have length := congrArg List.length empty
      simp only [List.length_tail, List.length_nil] at length
      omega
  · intro single
    constructor
    · intro k issuing wayNo member
      have short := single k (List.mem_cons_of_mem _ issuing)
      apply List.count_eq_one_of_mem (firstWays_nodup ok)
      refine List.mem_flatMap.mpr ⟨k, issuing, ?_⟩
      match shape : lists chNo k with
      | [] => simp [shape] at member
      | [_] => simpa [shape] using member
      | _ :: _ :: _ => simp [shape] at short
    · intro wayNo member
      have short := single .statusCheck (by simp)
      rw [afterIssuing_statusReport]
      match shape : lists chNo .statusCheck with
      | [] => simp [shape] at member
      | [_] =>
        rw [shape] at member
        simp [List.mem_singleton.mp member]
      | _ :: _ :: _ => simp [shape] at short
    · intro k issuing
      have short := single k (List.mem_cons_of_mem _ issuing)
      rw [afterIssuing_issueLists issuing, List.eq_nil_iff_length_eq_zero, List.length_tail]
      omega

/-- A pass whose controller is never busy and whose dies are all ready issues everything
exactly when no list had a second way. -/
theorem all_ready_issued_iff (channel : chNo < g.userChannels) (ok : SchedulerOk g s lists) (free : hw.NeverBusy)
    (ready : hw.AllReady g) (selected : s.selectWays g hw chNo = some (t, cnt)) :
    ∃ before calls s' after, SchedulerOk g t before ∧
      s.schedulingNandReqPerChCalls g hw chNo = some (calls, s') ∧
      s.schedulingNandReqPerCh g hw chNo = some s' ∧ SchedulerOk g s' after ∧
      (AllIssued (before chNo) (after chNo) calls ↔ SingleWays (before chNo)) := by
  obtain ⟨before, ⟨ok₁, -⟩, counted⟩ := Scheduler.selectWays_spec channel ok selected
  have way := ok₁.channel chNo channel
  by_cases gate : cnt = g.userWays
  · have diff : WayList.idle ≠ .statusReport := nofun
    have empty : ∀ k, k ≠ .idle → k ≠ .statusReport → before chNo k = [] := fun k notIdle notReport =>
      way.eq_nil_of_length diff (counted.symm.trans gate) notIdle notReport
    have passed : s.schedulingNandReqPerCh g hw chNo = some t := by
      simp [Scheduler.schedulingNandReqPerCh, selected, gate]
    refine ⟨before, [], t, before, ok₁, ?_, passed, ok₁, ?_⟩
    · simp [Scheduler.schedulingNandReqPerChCalls, selected, passed, gate]
    · have none : ∀ k ∈ .statusCheck :: issueLists, before chNo k = [] := by
        intro k listed
        apply empty k <;> rintro rfl <;> simp [issueLists] at listed
      refine iff_of_true ⟨?_, ?_, ?_⟩ fun k listed => by simp [none k listed]
      · intro k listed wayNo member
        simp [none k (List.mem_cons_of_mem _ listed)] at member
      · intro wayNo member
        simp [none .statusCheck (by simp)] at member
      · exact fun k listed => none k (List.mem_cons_of_mem _ listed)
  · obtain ⟨s', issued, calls, ok₂⟩ := Scheduler.issueRequestsCalls_spec channel ok₁ free ready
    have passed : s.schedulingNandReqPerCh g hw chNo = some s' := by
      simp [Scheduler.schedulingNandReqPerCh, selected, gate, issued]
    refine ⟨before, _, s', _, ok₁, ?_, passed, ok₂, allIssued_iff way (ok₂.channel chNo channel)⟩
    simp [Scheduler.schedulingNandReqPerChCalls, selected, passed, gate, calls]

/-! ### One way in a list, and two -/

/-- Operations of the rest of the firmware, one after the other. -/
theorem requestRun_appends {fw : Firmware} {ops : List RequestOp}
    (run : Run (requestStep g) (fun _ op => op.Quiet) (initFirmware g) ops fw) :
    Appends g (initRequestLayer g) fw.layer ∧ SlotsOk g fw.layer fw.held ∅ := by
  apply run.invariant (fun fw => Appends g (initRequestLayer g) fw.layer ∧ SlotsOk g fw.layer fw.held ∅)
  · exact ⟨.refl (initReqPool_ok g), SlotsOk.init⟩
  · rintro fw op fw' ⟨appends, slots⟩ quiet step
    obtain ⟨more, slots'⟩ := requestStep_appends slots quiet step
    exact ⟨appends.trans more, slots'⟩

instance (op : RequestOp) : Decidable op.Quiet :=
  match op with
  | .alloc es | .submit _ _ es | .syncAll es => inferInstanceAs (Decidable (es = []))
  | .putSlice .. | .getSlice | .event (.nvmeDmaDone _) => inferInstanceAs (Decidable True)
  | .event (.nandDone ..) | .event (.readPhase ..) | .event (.recheck ..) => inferInstanceAs (Decidable False)

/-- One channel of two ways. -/
def twoWays : Geometry where
  userChannels := 1
  userWays := 2
  userBlocksPerDie := 2
  slicesPerBlock := 2
  channels_pos := tinyGeometry.channels_pos
  ways_pos := tinyGeometry.pages_pos
  pages_pos := tinyGeometry.pages_pos
  dies_fit := by decide
  blocks_fit := tinyGeometry.blocks_fit
  slices_fit := tinyGeometry.slices_fit
  ssd_fit := by decide

/-- The write-back of another entry, to the other die. -/
def otherWriteBackReq : SsdReq := { writeBackReq with dataBufInfo := 1, virtualSliceAddr := 1 }

/-- A run in which the given operations are followed by nothing. -/
theorem schedulerRun_of_requests {fw : Firmware} {ops : List RequestOp}
    (run : Run (requestStep g) (fun _ op => op.Quiet) (initFirmware g) ops fw) :
    Run (schedulerStep g) (fun s op => op.Allowed g s) (initReqScheduler g) [.append fw.layer]
      ((initReqScheduler g).setLayer fw.layer) := by
  obtain ⟨appends, slots⟩ := requestRun_appends run
  have queued : (SchedulerOp.append fw.layer).Allowed g (initReqScheduler g) := ⟨appends, _, _, slots⟩
  exact Run.nil.snoc queued rfl

theorem readyHardware_neverBusy : readyHardware.NeverBusy := fun _ => by simp [readyHardware]

theorem readyHardware_allReady : readyHardware.AllReady twoWays := by
  intro reads wayNo inside
  have both : ∀ wayNo < 2, v2fWayReady 0xff wayNo = true := by decide
  exact both wayNo inside

/-- One write-back, to the first die. -/
theorem all_ready_issued_iff_single :
    ∃ (s : Scheduler) (t : Scheduler) (cnt : Nat), s.selectWays twoWays readyHardware 0 = some (t, cnt) ∧
      ∃ before calls s' after, SchedulerOk twoWays t before ∧
        s.schedulingNandReqPerChCalls twoWays readyHardware 0 = some (calls, s') ∧
        s.schedulingNandReqPerCh twoWays readyHardware 0 = some s' ∧ SchedulerOk twoWays s' after ∧
        (AllIssued (before 0) (after 0) calls ↔ SingleWays (before 0)) := by
  have done : (exec (requestStep twoWays) (fun _ op => op.Quiet) (initFirmware twoWays)
      [.alloc [], .submit 0 writeBackReq []]).any (fun fw =>
        (((initReqScheduler twoWays).setLayer fw.layer).selectWays twoWays readyHardware 0).isSome) = true := by
    decide +kernel
  obtain ⟨fw, run, selected⟩ := run_of_exec_any done
  obtain ⟨⟨t, cnt⟩, selected⟩ := Option.isSome_iff_exists.mp selected
  obtain ⟨lists, ok⟩ := schedulerOk_of_run (by decide) (schedulerRun_of_requests run)
  exact ⟨_, t, cnt, selected,
    all_ready_issued_iff (by decide) ok readyHardware_neverBusy readyHardware_allReady selected⟩

/-- Two write-backs, to the two dies: the second one is not issued. -/
theorem ready_way_left :
    ¬ ∀ (g : Geometry) (ops : List SchedulerOp) (s : Scheduler), g.userWays ≤ wayNone →
      Run (schedulerStep g) (fun s op => op.Allowed g s) (initReqScheduler g) ops s →
      ∀ (hw : Hardware) (chNo : Nat), chNo < g.userChannels → hw.NeverBusy → hw.AllReady g →
        ∀ t cnt before calls s' after, s.selectWays g hw chNo = some (t, cnt) → SchedulerOk g t before →
          s.schedulingNandReqPerChCalls g hw chNo = some (calls, s') → SchedulerOk g s' after →
          AllIssued (before chNo) (after chNo) calls := by
  intro claim
  have done : (exec (requestStep twoWays) (fun _ op => op.Quiet) (initFirmware twoWays)
      [.alloc [], .submit 0 writeBackReq [], .alloc [], .submit 1 otherWriteBackReq []]).any (fun fw =>
        (((initReqScheduler twoWays).setLayer fw.layer).schedulingNandReqPerChCalls twoWays readyHardware 0).any
          fun r => decide (r.1 = [0] ∧ r.2.head 0 .write = 1)) = true := by
    decide +kernel
  obtain ⟨fw, requests, shown⟩ := run_of_exec_any done
  have run := schedulerRun_of_requests requests
  obtain ⟨⟨calls, s'⟩, passed, shown⟩ := (Option.any_eq_true _ _).mp shown
  obtain ⟨-, left⟩ := of_decide_eq_true shown
  obtain ⟨lists, ok⟩ := schedulerOk_of_run (by decide) run
  have channel : 0 < twoWays.userChannels := by decide
  have state : (((initReqScheduler twoWays).setLayer fw.layer).schedulingNandReqPerChCalls twoWays readyHardware 0).map
      Prod.snd = _ := Scheduler.schedulingNandReqPerChCalls_state
  rw [passed] at state
  obtain ⟨after, ok', -⟩ := Scheduler.schedulingNandReqPerCh_spec channel ok state.symm
  simp only [Scheduler.schedulingNandReqPerCh, Option.bind_eq_bind, Option.map_some] at state
  obtain ⟨⟨t, cnt⟩, selected, -⟩ := Option.bind_eq_some_iff.mp state.symm
  obtain ⟨before, ⟨ok₁, -⟩, -⟩ := Scheduler.selectWays_spec channel ok selected
  have all := claim twoWays _ _ (by decide) run readyHardware 0 channel readyHardware_neverBusy
    readyHardware_allReady t cnt before calls s' after selected ok₁ passed ok'
  have gone := (ok'.channel 0 channel).head_eq_none.mpr (all.empty .write (by simp [issueLists]))
  rw [left] at gone
  cases gone

end OcpFw
