import OcpFw.SchedulerInvariant

/-! A scheduling pass, part by part. Each loop walks a list from its head while it takes
ways out of it; what it has passed and what is left are always the whole list. -/
namespace OcpFw
open RequestLayer (KeepsHeads KeepsOtherHeads KeepsOtherPhases Acts)

variable {g : Geometry} {hw : Hardware} {s s' t : Scheduler} {lists : Nat → WayList → List Nat}
  {chNo wayNo cnt cnt' turns readyBusy : Nat} {k k' : WayList} {before rest : List Nat}

/-- The state at the end of a part, with its lists, and what the part did to the requests. -/
def Scheduler.Leads (g : Geometry) (s s' : Scheduler) (lists' : Nat → WayList → List Nat) : Prop :=
  SchedulerOk g s' lists' ∧ Acts g s.layer s'.layer

theorem Scheduler.Leads.trans {lists' : Nat → WayList → List Nat} (first : Acts g s.layer t.layer)
    (second : t.Leads g s' lists') : s.Leads g s' lists' := ⟨second.1, first.trans second.2⟩

theorem Scheduler.Leads.readWord (leads : s.Leads g t lists) (word : Nat → Nat) :
    s.Leads g (t.readWord word).2 lists := ⟨leads.1.read _, leads.2⟩

/-- A loop that is not at the end of its list has a way before it. -/
theorem SchedulerOk.split_head (ok : SchedulerOk g s lists) (channel : chNo < g.userChannels)
    (shape : lists chNo k = before ++ rest) (more : rest.headD wayNone ≠ wayNone) :
    ∃ wayNo rest', rest = wayNo :: rest' ∧ rest.headD wayNone = wayNo ∧ wayNo ∈ lists chNo k ∧
      s.nextWay chNo wayNo = rest'.headD wayNone := by
  cases rest with
  | nil => simp at more
  | cons x rest' =>
    exact ⟨x, rest', rfl, rfl, by simp [shape], (ok.channel chNo channel).next shape⟩

/-- A loop that is at the end of its list has passed all of it. -/
theorem SchedulerOk.end_nil (ok : SchedulerOk g s lists) (channel : chNo < g.userChannels)
    (shape : lists chNo k = before ++ rest) (ended : rest.headD wayNone = wayNone) : rest = [] := by
  cases rest with
  | nil => rfl
  | cons x rest' =>
    have real : x ≠ wayNone := (ok.channel chNo channel).real (k := k) (by simp [shape])
    exact absurd ended real

/-- Moving a way out of a list leaves what is before and what is after it. -/
theorem SchedulerOk.moved_split (ok : SchedulerOk g s lists) (channel : chNo < g.userChannels)
    (shape : lists chNo k = before ++ wayNo :: rest) (diff : k ≠ k') :
    moved lists chNo k k' wayNo chNo k = before ++ rest := by
  have out := ((ok.channel chNo channel).wellFormed.split_ne shape).1
  rw [moved_source diff, shape, List.erase_append_right _ out, List.erase_cons_head]

namespace Scheduler

/-- The list a way with a request goes to. -/
theorem putToNandWayPriorityTable_spec (idle : (s.dieState chNo wayNo).dieState = .idle)
    (real : s.headReq chNo wayNo ≠ reqSlotTagNone)
    (done : s.putToNandWayPriorityTable (s.headReq chNo wayNo) chNo wayNo = some s') :
    ∃ k, s' = s.putToList k chNo wayNo ∧ (k ≠ .idle ∧ k ≠ .statusReport) ∧
      k.Allows (s.dieState chNo wayNo) (s.headReqCode chNo wayNo) := by
  rw [headReqCode_of_real real]
  unfold putToNandWayPriorityTable at done
  cases code : (s.layer.reqPool (s.headReq chNo wayNo)).reqCode <;> simp only [code] at done <;>
    cases done
  case read => exact ⟨.readTrigger, rfl, by simp, idle, rfl⟩
  case readTransfer => exact ⟨.readTransfer, rfl, by simp, idle, rfl⟩
  case write => exact ⟨.write, rfl, by simp, idle, .inl rfl⟩
  case erase => exact ⟨.erase, rfl, by simp, idle, rfl⟩
  case reset => exact ⟨.write, rfl, by simp, idle, .inr (.inl rfl)⟩
  case setFeature => exact ⟨.write, rfl, by simp, idle, .inr (.inr rfl)⟩

/-- Appending after unlinking, on the table of one channel. -/
theorem putToList_wayPriority {w : Dll.Table WayList Nat}
    (table : t.wayPriority = Function.update s.wayPriority chNo w) :
    (t.putToList k chNo wayNo).wayPriority =
      Function.update s.wayPriority chNo (w.pushBack wayNone k wayNo) := by
  simp [putToList, setWayPriority, table]

/-- An idle way with a request leaves its list for the one its request asks for. -/
theorem regroup (ok : SchedulerOk g s lists) (channel : chNo < g.userChannels)
    (member : wayNo ∈ lists chNo k) (source : k = .idle ∨ k = .statusReport)
    (acts : Acts g s.layer t.layer)
    (table : t.wayPriority =
      Function.update s.wayPriority chNo ((s.wayPriority chNo).remove wayNone k wayNo))
    (dies : ∀ c w, (c, w) ≠ (chNo, wayNo) → t.dieState c w = s.dieState c w)
    (heads : KeepsOtherHeads s.layer t.layer chNo wayNo)
    (idle : (t.dieState chNo wayNo).dieState = .idle)
    (real : t.headReq chNo wayNo ≠ reqSlotTagNone)
    (done : t.putToNandWayPriorityTable (t.headReq chNo wayNo) chNo wayNo = some s') :
    ∃ k', k' ≠ .idle ∧ k' ≠ .statusReport ∧ s.Leads g s' (moved lists chNo k k' wayNo) := by
  obtain ⟨k', rfl, ⟨notIdle, notReport⟩, allows⟩ := putToNandWayPriorityTable_spec idle real done
  have diff : k ≠ k' := by
    rintro rfl
    exact source.elim notIdle notReport
  refine ⟨k', notIdle, notReport, ?_, acts⟩
  exact ok.move channel member diff acts (putToList_wayPriority table) dies heads allows

/-! ### The two parts that select -/

/-- The first loop leaves in the idle list the ways it counts. -/
theorem selectIdleWays_spec (channel : chNo < g.userChannels) (ok : SchedulerOk g s lists)
    (shape : lists chNo .idle = before ++ rest) (enough : rest.length ≤ turns)
    (counted : cnt = before.length)
    (done : selectIdleWays g chNo turns s (rest.headD wayNone) cnt = some (s', cnt')) :
    ∃ lists', s.Leads g s' lists' ∧ cnt' = (lists' chNo .idle).length := by
  induction turns generalizing s lists before rest cnt with
  | zero =>
    cases done
    cases List.length_eq_zero_iff.mp (Nat.le_zero.mp enough)
    exact ⟨lists, ⟨ok, .refl _⟩, by simp [shape, counted]⟩
  | succ turns ih =>
    unfold selectIdleWays at done
    split at done
    · rename_i ended
      cases done
      cases ok.end_nil channel shape ended
      exact ⟨lists, ⟨ok, .refl _⟩, by simp [shape, counted]⟩
    · rename_i more
      obtain ⟨wayNo, rest', rfl, isHead, member, next⟩ := ok.split_head channel shape more
      rw [isHead] at done
      simp only [Option.bind_eq_bind, Option.bind_eq_some_iff] at done
      obtain ⟨t, released, done⟩ := done
      obtain ⟨held, flight, slots⟩ := ok.layer
      obtain ⟨concerns, same, acts, phases⟩ := releaseBlocked_spec slots released
      have idle : (t.dieState chNo wayNo).dieState = .idle := by
        rw [same]
        exact (ok.channel chNo channel).allows .idle wayNo member
      have ok' : SchedulerOk g t lists :=
        ok.stay channel member acts concerns (fun c w _ => (phases c w).headReqCode) idle
      have next' : t.nextWay chNo wayNo = rest'.headD wayNone := by
        rw [← next]
        simp [nextWay, concerns.wayPriority]
      rw [next'] at done
      split at done
      · rename_i real
        simp only [Option.bind_eq_some_iff] at done
        obtain ⟨u, put, done⟩ := done
        obtain ⟨k', notIdle, -, leads⟩ := regroup ok' channel member (.inl rfl)
          (t := t.selectivGetFromNandIdleList chNo wayNo) (.refl _) rfl (fun _ _ _ => rfl)
          (KeepsHeads.refl _).other idle real put
        have shape' := ok'.moved_split channel shape (Ne.symm notIdle)
        have short : rest'.length ≤ turns := by simpa using enough
        obtain ⟨lists', after, count⟩ := ih leads.1 shape' short counted done
        exact ⟨lists', .trans (acts.trans leads.2) after, count⟩
      · have shape' : lists chNo .idle = (before ++ [wayNo]) ++ rest' := by simp [shape]
        have short : rest'.length ≤ turns := by simpa using enough
        obtain ⟨lists', after, count⟩ := ih ok' shape' short (by simp [counted]) done
        exact ⟨lists', .trans acts after, count⟩

/-- A way whose request is no longer running: it finishes, and the way is regrouped or
becomes idle. -/
theorem reportDone_spec {reqStatus : ReqStatus} {u v : Scheduler} (channel : chNo < g.userChannels)
    (ok : SchedulerOk g s lists) (member : wayNo ∈ lists chNo .statusReport)
    (checked : s.checkReqStatus hw chNo wayNo = (reqStatus, t)) (ended : reqStatus ≠ .running)
    (finished : t.executeNandReq g chNo wayNo reqStatus = some u)
    (released : (u.selectivGetFromNandStatusReportList chNo wayNo).releaseBlocked g chNo wayNo = some v) :
    Acts g s.layer v.layer ∧
    v.wayPriority = Function.update s.wayPriority chNo
      ((s.wayPriority chNo).remove wayNone .statusReport wayNo) ∧
    u.wayPriority = s.wayPriority ∧
    (∀ c w, (c, w) ≠ (chNo, wayNo) → v.dieState c w = s.dieState c w) ∧
    KeepsOtherPhases s.layer v.layer chNo wayNo ∧ (v.dieState chNo wayNo).dieState = .idle := by
  obtain ⟨held, flight, slots⟩ := ok.layer
  have way := ok.channel chNo channel
  obtain ⟨exe, -, -⟩ := way.allows .statusReport wayNo member
  have real := way.headReq_real member nofun
  obtain ⟨concerns, sameLayer, sameState, -⟩ := checkReqStatus_spec checked
  have slots' : SlotsOk g t.layer held flight := sameLayer ▸ slots
  obtain ⟨concerns', idle, acts, phases⟩ := executeNandReq_exe slots' (by simpa [headReq, sameLayer] using real)
    (by rw [sameState, exe]) ended finished
  have slots'' : SlotsOk g (u.selectivGetFromNandStatusReportList chNo wayNo).layer held flight :=
    acts.slotsOk slots'
  obtain ⟨concerns'', same, acts', phases'⟩ := releaseBlocked_spec slots'' released
  have before := concerns.trans concerns'
  refine ⟨?_, ?_, before.wayPriority, fun c w diff => ?_, ?_, ?_⟩
  · rw [← sameLayer]
    exact acts.trans acts'
  · rw [concerns''.wayPriority, ← before.wayPriority]
    rfl
  · rw [concerns''.dieState c w diff]
    exact before.dieState c w diff
  · rw [← sameLayer]
    exact phases.trans fun c w _ => phases' c w
  · rw [same]
    exact idle

/-- A turn of the second loop: the state after it, the next way, and 1 if the way waits. -/
def checkStatusReport (g : Geometry) (hw : Hardware) (s : Scheduler) (chNo readyBusy wayNo : Nat) :
    Option (Scheduler × Nat × Nat) :=
  if v2fWayReady readyBusy wayNo then
    let (reqStatus, s) := s.checkReqStatus hw chNo wayNo
    if reqStatus ≠ .running then do
      let s ← s.executeNandReq g chNo wayNo reqStatus
      let nextWay := s.nextWay chNo wayNo
      let s ← (s.selectivGetFromNandStatusReportList chNo wayNo).releaseBlocked g chNo wayNo
      if s.headReq chNo wayNo ≠ reqSlotTagNone then
        let s ← s.putToNandWayPriorityTable (s.headReq chNo wayNo) chNo wayNo
        some (s, nextWay, 0)
      else some (s.putToNandIdleList chNo wayNo, nextWay, 1)
    else if (s.dieState chNo wayNo).reqStatusCheckOpt = .check then
      let nextWay := s.nextWay chNo wayNo
      let s := (s.selectivGetFromNandStatusReportList chNo wayNo).putToNandStatusCheckList chNo wayNo
      some (s, nextWay, 0)
    else some (s, s.nextWay chNo wayNo, 1)
  else some (s, s.nextWay chNo wayNo, 1)

theorem checkStatusReports_succ :
    checkStatusReports g hw chNo readyBusy (turns + 1) s wayNo cnt =
      if wayNo = wayNone then some (s, cnt)
      else (s.checkStatusReport g hw chNo readyBusy wayNo).bind fun (s, nextWay, waits) =>
        checkStatusReports g hw chNo readyBusy turns s nextWay (cnt + waits) := by
  rw [checkStatusReports, checkStatusReport]
  by_cases ended : wayNo = wayNone
  · simp [ended]
  simp only [ended, ↓reduceIte]
  by_cases ready : v2fWayReady readyBusy wayNo = true
  · simp only [ready, ↓reduceIte]
    split
    · simp only [Option.bind_eq_bind, Option.bind_assoc]
      refine congrArg _ (funext fun u => congrArg _ (funext fun v => ?_))
      split <;> simp [Option.bind_assoc]
    · split <;> rfl
  · simp [ready]

/-- What a turn makes of its way: it stays in the list and waits, or it leaves the list,
and waits if it is idle then. -/
theorem checkStatusReport_spec {next' waits : Nat} (channel : chNo < g.userChannels)
    (ok : SchedulerOk g s lists) (shape : lists chNo .statusReport = before ++ wayNo :: rest)
    (done : s.checkStatusReport g hw chNo readyBusy wayNo = some (s', next', waits)) :
    ∃ lists' before', s.Leads g s' lists' ∧ lists' chNo .statusReport = before' ++ rest ∧
      next' = rest.headD wayNone ∧
      (lists chNo .idle).length + before.length + waits = (lists' chNo .idle).length + before'.length := by
  have member : wayNo ∈ lists chNo .statusReport := by simp [shape]
  have way := ok.channel chNo channel
  have next : s.nextWay chNo wayNo = rest.headD wayNone := way.next shape
  have allows := way.allows .statusReport wayNo member
  have passed : lists chNo .statusReport = (before ++ [wayNo]) ++ rest := by simp [shape]
  unfold checkStatusReport at done
  split at done
  · cases checked : s.checkReqStatus hw chNo wayNo with
    | mk reqStatus t =>
      simp only [checked] at done
      obtain ⟨concerns, sameLayer, sameState, checkedTo⟩ := checkReqStatus_spec checked
      have after : t.nextWay chNo wayNo = rest.headD wayNone := by
        rw [← next]
        simp [nextWay, concerns.wayPriority]
      have acts : Acts g s.layer t.layer := sameLayer ▸ Acts.refl _
      have heads : KeepsOtherHeads s.layer t.layer chNo wayNo := sameLayer ▸ (KeepsHeads.refl _).other
      split at done
      · rename_i ended
        simp only [Option.bind_eq_bind, Option.bind_eq_some_iff] at done
        obtain ⟨u, finished, v, released, done⟩ := done
        obtain ⟨acts, table, kept, dies, phases, idle⟩ :=
          reportDone_spec channel ok member checked ended finished released
        have after' : u.nextWay chNo wayNo = rest.headD wayNone := by
          rw [← next]
          simp [nextWay, kept]
        split at done
        · rename_i real
          simp only [Option.bind_eq_some_iff] at done
          obtain ⟨w, put, done⟩ := done
          cases done
          obtain ⟨k', notIdle, notReport, leads⟩ :=
            regroup ok channel member (.inr rfl) acts table dies phases.heads idle real put
          have shape' := ok.moved_split channel shape (Ne.symm notReport)
          have idles : moved lists chNo .statusReport k' wayNo chNo .idle = lists chNo .idle :=
            moved_other nofun (Ne.symm notIdle)
          exact ⟨_, before, leads, shape', after', by rw [idles]; rfl⟩
        · cases done
          have ok' : SchedulerOk g (v.putToNandIdleList chNo wayNo)
              (moved lists chNo .statusReport .idle wayNo) :=
            ok.move channel member nofun acts (putToList_wayPriority table) dies phases.heads idle
          have shape' : moved lists chNo .statusReport .idle wayNo chNo .statusReport =
              before ++ rest := ok.moved_split channel shape nofun
          refine ⟨_, before, ⟨ok', acts⟩, shape', after', ?_⟩
          simp
          omega
      · rename_i still
        rw [not_not] at still
        have asked : t.headReqCode chNo wayNo ≠ none := by
          unfold headReqCode
          rw [sameLayer]
          exact allows.2.1
        split at done
        · rename_i check
          cases done
          have ok' : SchedulerOk g ((t.selectivGetFromNandStatusReportList chNo wayNo).putToNandStatusCheckList
              chNo wayNo) (moved lists chNo .statusReport .statusCheck wayNo) := by
            refine ok.move channel member nofun acts ?_ concerns.dieState heads ?_
            · exact putToList_wayPriority (by rw [← concerns.wayPriority]; rfl)
            · exact ⟨sameState.trans allows.1, asked, .inl check⟩
          have shape' : moved lists chNo .statusReport .statusCheck wayNo chNo .statusReport =
              before ++ rest := ok.moved_split channel shape nofun
          have idles : moved lists chNo .statusReport .statusCheck wayNo chNo .idle =
              lists chNo .idle := moved_other nofun nofun
          exact ⟨_, before, ⟨ok', acts⟩, shape', after, by rw [idles]; rfl⟩
        · rename_i notCheck
          have ok' : SchedulerOk g t lists := by
            refine ok.stay channel member acts concerns heads
              ⟨sameState.trans allows.1, asked, ?_⟩
            rcases allows.2.2 with opt | opt | opt <;> rw [opt] at checkedTo
            · rcases checkedTo with ended | opt' | opt'
              · exact absurd still ended
              · exact absurd opt' notCheck
              · exact .inl opt'
            · exact .inr (.inl checkedTo)
            · exact .inr (.inr checkedTo)
          cases done
          exact ⟨lists, before ++ [wayNo], ⟨ok', acts⟩, passed, after, by simp [Nat.add_assoc]⟩
  · cases done
    exact ⟨lists, before ++ [wayNo], ⟨ok, .refl _⟩, passed, next, by simp [Nat.add_assoc]⟩

/-- The second loop leaves in the status report list the ways it passes, and in the idle
list those that have nothing more to do, and counts both. -/
theorem checkStatusReports_spec (channel : chNo < g.userChannels) (ok : SchedulerOk g s lists)
    (shape : lists chNo .statusReport = before ++ rest) (enough : rest.length ≤ turns)
    (counted : cnt = (lists chNo .idle).length + before.length)
    (done : checkStatusReports g hw chNo readyBusy turns s (rest.headD wayNone) cnt = some (s', cnt')) :
    ∃ lists', s.Leads g s' lists' ∧
      cnt' = (lists' chNo .idle).length + (lists' chNo .statusReport).length := by
  induction turns generalizing s lists before rest cnt with
  | zero =>
    cases done
    cases List.length_eq_zero_iff.mp (Nat.le_zero.mp enough)
    exact ⟨lists, ⟨ok, .refl _⟩, by simp [shape, counted]⟩
  | succ turns ih =>
    rw [checkStatusReports_succ] at done
    split at done
    · rename_i ended
      cases done
      cases ok.end_nil channel shape ended
      exact ⟨lists, ⟨ok, .refl _⟩, by simp [shape, counted]⟩
    · rename_i more
      obtain ⟨wayNo, rest', rfl, isHead, -⟩ := ok.split_head channel shape more
      rw [isHead, Option.bind_eq_some_iff] at done
      obtain ⟨⟨t, nextWay, waits⟩, turn, done⟩ := done
      obtain ⟨lists', before', leads, shape', rfl, sum⟩ := checkStatusReport_spec channel ok shape turn
      have short : rest'.length ≤ turns := by simpa using enough
      obtain ⟨lists'', after, count⟩ := ih leads.1 shape' short (by rw [counted, sum]) done
      exact ⟨lists'', .trans leads.2 after, count⟩

/-- Both selecting parts: the count is the number of ways that are idle or under way. -/
theorem selectWays_spec (channel : chNo < g.userChannels) (ok : SchedulerOk g s lists)
    (done : s.selectWays g hw chNo = some (s', cnt')) :
    ∃ lists', s.Leads g s' lists' ∧
      cnt' = (lists' chNo .idle).length + (lists' chNo .statusReport).length := by
  simp only [selectWays, Option.bind_eq_bind, Option.bind_eq_some_iff] at done
  obtain ⟨⟨t, cnt⟩, selected, done⟩ := done
  rw [head, (ok.channel chNo channel).wellFormed.head] at selected
  have idles : lists chNo .idle = [] ++ lists chNo .idle := rfl
  obtain ⟨lists', ⟨ok', acts⟩, counted⟩ := selectIdleWays_spec channel ok idles
    ((ok.channel chNo channel).length_le .idle) rfl selected
  have way := ok'.channel chNo channel
  simp only at done
  split at done
  · have leads : s.Leads g (t.v2fReadyBusyAsync hw).2 lists' := .readWord ⟨ok', acts⟩ hw.readyBusy
    generalize t.v2fReadyBusyAsync hw = answer at leads done
    rw [head, (leads.1.channel chNo channel).wellFormed.head] at done
    have reports : lists' chNo .statusReport = [] ++ lists' chNo .statusReport := rfl
    obtain ⟨lists'', after, counted'⟩ := checkStatusReports_spec channel leads.1 reports
      (way.length_le .statusReport) (by simp [counted]) done
    exact ⟨lists'', .trans leads.2 after, counted'⟩
  · rename_i empty
    rw [not_not, way.head_eq_none] at empty
    cases done
    exact ⟨lists', ⟨ok', acts⟩, by simp [counted, empty]⟩

/-! ### The part that issues -/

/-- A moved way is the last of its list, so the loop that moved it is at an end. -/
theorem nextWay_moved (ok : SchedulerOk g s (moved lists chNo k k' wayNo))
    (channel : chNo < g.userChannels) : s.nextWay chNo wayNo = wayNone := by
  have shape : moved lists chNo k k' wayNo chNo k' = lists chNo k' ++ wayNo :: [] := moved_target
  exact (ok.channel chNo channel).next shape

theorem checkStatuses_none (turns : Nat) :
    checkStatuses hw chNo readyBusy turns s wayNone = (false, s) := by
  cases turns <;> simp [checkStatuses]

theorem issueWays_none (getFromList putToList : Scheduler → Nat → Nat → Scheduler) (turns : Nat) :
    issueWays g hw chNo getFromList putToList turns s wayNone = some (false, s) := by
  cases turns <;> simp [issueWays]

/-- The gate: when the pass stops at it, no way waits for anything to be issued. -/
theorem selectWays_gate (channel : chNo < g.userChannels) (ok : SchedulerOk g s lists)
    (done : s.selectWays g hw chNo = some (s', g.userWays)) (notIdle : k ≠ .idle)
    (notReport : k ≠ .statusReport) : s'.head chNo k = wayNone := by
  obtain ⟨lists', ⟨ok', -⟩, counted⟩ := selectWays_spec channel ok done
  have way := ok'.channel chNo channel
  rw [way.head_eq_none]
  have diff : WayList.idle ≠ .statusReport := nofun
  exact way.eq_nil_of_length diff counted.symm notIdle notReport

/-- A status check takes its way to the report list. -/
theorem checkStatus_spec {reqStatus : ReqStatus} (channel : chNo < g.userChannels)
    (ok : SchedulerOk g s lists) (member : wayNo ∈ lists chNo .statusCheck)
    (checked : s.checkReqStatus hw chNo wayNo = (reqStatus, t)) :
    s.Leads g ((t.selectiveGetFromNandStatusCheckList chNo wayNo).putToNandStatusReportList chNo wayNo)
      (moved lists chNo .statusCheck .statusReport wayNo) := by
  obtain ⟨exe, some, opt⟩ := (ok.channel chNo channel).allows .statusCheck wayNo member
  obtain ⟨concerns, sameLayer, sameState, checkedTo⟩ := checkReqStatus_spec checked
  have acts : Acts g s.layer t.layer := sameLayer ▸ Acts.refl _
  have waits : t.headReqCode chNo wayNo ≠ none := by
    unfold headReqCode
    rw [sameLayer]
    exact some
  refine ⟨ok.move channel member nofun acts ?_ concerns.dieState ?_ ⟨sameState.trans exe, waits, ?_⟩, acts⟩
  · exact putToList_wayPriority (by rw [← concerns.wayPriority]; rfl)
  · exact sameLayer ▸ (KeepsHeads.refl _).other
  · rcases opt with opt | opt <;> rw [opt] at checkedTo
    · exact .inl checkedTo.2
    · exact .inr (.inr checkedTo)

/-- The status checks leave every way in a list that is true of it. -/
theorem checkStatuses_spec {returned : Bool} (channel : chNo < g.userChannels)
    (ok : SchedulerOk g s lists) (shape : lists chNo .statusCheck = before ++ rest)
    (done : checkStatuses hw chNo readyBusy turns s (rest.headD wayNone) = (returned, s')) :
    ∃ lists', s.Leads g s' lists' := by
  induction turns generalizing before rest with
  | zero =>
    cases done
    exact ⟨lists, ok, .refl _⟩
  | succ turns ih =>
    unfold checkStatuses at done
    split at done
    · cases done
      exact ⟨lists, ok, .refl _⟩
    rename_i more
    obtain ⟨wayNo, rest', rfl, isHead, member, next⟩ := ok.split_head channel shape more
    rw [isHead] at done
    split at done
    · cases checked : s.checkReqStatus hw chNo wayNo with
      | mk reqStatus t =>
        simp only [checked] at done
        have leads := checkStatus_spec channel ok member checked
        generalize (t.selectiveGetFromNandStatusCheckList chNo wayNo).putToNandStatusReportList
          chNo wayNo = u at leads done
        have leads' : s.Leads g (u.v2fIsControllerBusy hw).2 _ := leads.readWord hw.queueNotFull
        generalize u.v2fIsControllerBusy hw = answer at leads' done
        split at done
        · cases done
          exact ⟨_, leads'⟩
        · rw [nextWay_moved leads'.1 channel, checkStatuses_none] at done
          cases done
          exact ⟨_, leads'⟩
    · rw [next] at done
      have passed : lists chNo .statusCheck = (before ++ [wayNo]) ++ rest' := by simp [shape]
      exact ih passed done

/-- What the loops of the issuing part move: the die of an idle way starts its request,
and the way goes where the check option of the request belongs. -/
def Issues (k k' : WayList) : Prop :=
  k ≠ k' ∧ k ≠ .idle ∧ ∀ entry code, k.Allows entry (some code) →
    entry.dieState = .idle ∧ k'.Allows ⟨.exe, issueOpt code⟩ (some code)

/-- One turn of these loops. -/
theorem issueWay_spec (channel : chNo < g.userChannels) (ok : SchedulerOk g s lists) (issues : Issues k k')
    (member : wayNo ∈ lists chNo k) (issued : s.executeNandReq g chNo wayNo .running = some t) :
    s.Leads g ((t.selectiveGetFromList k chNo wayNo).putToList k' chNo wayNo) (moved lists chNo k k' wayNo) := by
  obtain ⟨diff, busy, allowed⟩ := issues
  have way := ok.channel chNo channel
  have real := way.headReq_real member busy
  have code := headReqCode_of_real real
  obtain ⟨idle, -⟩ := allowed _ _ (code ▸ way.allows k wayNo member)
  obtain ⟨concerns, sameLayer, code', head, entry⟩ := executeNandReq_idle real idle issued
  have acts : Acts g s.layer t.layer := sameLayer ▸ Acts.refl _
  refine ⟨ok.move channel member diff acts ?_ concerns.dieState ?_ ?_, acts⟩
  · exact putToList_wayPriority (by rw [← concerns.wayPriority]; rfl)
  · exact sameLayer ▸ (KeepsHeads.refl _).other
  · have head' : t.headReqCode chNo wayNo = some code' := by
      unfold headReqCode
      rw [sameLayer]
      exact head
    change k'.Allows (t.dieState chNo wayNo) (t.headReqCode chNo wayNo)
    rw [head', entry]
    exact (allowed _ _ (head ▸ way.allows k wayNo member)).2

theorem issueWays_spec {returned : Bool} (channel : chNo < g.userChannels)
    (ok : SchedulerOk g s lists) (issues : Issues k k')
    (done : issueWays g hw chNo (selectiveGetFromList · k) (putToList · k') turns s (s.head chNo k) =
      some (returned, s')) : ∃ lists', s.Leads g s' lists' := by
  have way := ok.channel chNo channel
  cases turns with
  | zero =>
    cases done
    exact ⟨lists, ok, .refl _⟩
  | succ turns =>
    unfold issueWays at done
    split at done
    · cases done
      exact ⟨lists, ok, .refl _⟩
    rename_i more
    have member : s.head chNo k ∈ lists chNo k := way.head_mem more
    generalize s.head chNo k = wayNo at done member
    simp only [Option.bind_eq_bind, Option.bind_eq_some_iff] at done
    obtain ⟨t, issued, done⟩ := done
    have leads := (issueWay_spec channel ok issues member issued).readWord hw.queueNotFull
    change s.Leads g (v2fIsControllerBusy hw _).2 _ at leads
    generalize v2fIsControllerBusy hw
      ((t.selectiveGetFromList k chNo wayNo).putToList k' chNo wayNo) = answer at leads done
    split at done
    · cases done
      exact ⟨_, leads⟩
    · rw [nextWay_moved leads.1 channel, issueWays_none] at done
      cases done
      exact ⟨_, leads⟩

theorem issues_readTrigger : Issues .readTrigger .statusCheck := by
  refine ⟨nofun, nofun, ?_⟩
  rintro entry code ⟨idle, head⟩
  cases head
  exact ⟨idle, rfl, nofun, .inl rfl⟩

theorem issues_erase : Issues .erase .statusCheck := by
  refine ⟨nofun, nofun, ?_⟩
  rintro entry code ⟨idle, head⟩
  cases head
  exact ⟨idle, rfl, nofun, .inl rfl⟩

theorem issues_write : Issues .write .statusCheck := by
  refine ⟨nofun, nofun, ?_⟩
  rintro entry code ⟨idle, head | head | head⟩ <;> cases head
  · exact ⟨idle, rfl, nofun, .inl rfl⟩
  · exact ⟨idle, rfl, nofun, .inr rfl⟩
  · exact ⟨idle, rfl, nofun, .inr rfl⟩

theorem issues_readTransfer : Issues .readTransfer .statusReport := by
  refine ⟨nofun, nofun, ?_⟩
  rintro entry code ⟨idle, head⟩
  cases head
  exact ⟨idle, rfl, nofun, .inr (.inl rfl)⟩

/-- The status checks at the beginning of the issuing part. -/
private theorem statusChecks_spec (hw : Hardware) (channel : chNo < g.userChannels)
    (ok : SchedulerOk g s lists) :
    ∃ lists', s.Leads g (if s.head chNo .statusCheck ≠ wayNone then
      checkStatuses hw chNo (s.v2fReadyBusyAsync hw).1 g.userWays (s.v2fReadyBusyAsync hw).2
        ((s.v2fReadyBusyAsync hw).2.head chNo .statusCheck)
    else (false, s)).2 lists' := by
  have start : s.Leads g s lists := ⟨ok, .refl _⟩
  split
  · have leads : s.Leads g (s.v2fReadyBusyAsync hw).2 lists := start.readWord hw.readyBusy
    generalize s.v2fReadyBusyAsync hw = answer at leads
    rw [(leads.1.channel chNo channel).head]
    have checks : lists chNo .statusCheck = [] ++ lists chNo .statusCheck := rfl
    obtain ⟨lists', after⟩ := checkStatuses_spec channel leads.1 checks
      (Prod.eta (checkStatuses hw chNo answer.1 g.userWays answer.2 _)).symm
    exact ⟨lists', .trans leads.2 after⟩
  · exact ⟨lists, start⟩

/-- The lists that are issued, in the order of their priority, each with the list its ways
go to. -/
def issueOrder : List (WayList × WayList) :=
  [(.readTrigger, .statusCheck), (.erase, .statusCheck), (.write, .statusCheck), (.readTransfer, .statusReport)]

theorem issues_issueOrder : ∀ lists ∈ issueOrder, Issues lists.1 lists.2 := by
  simp only [issueOrder, List.forall_mem_cons, List.not_mem_nil, false_imp_iff, implies_true, and_true]
  exact ⟨issues_readTrigger, issues_erase, issues_write, issues_readTransfer⟩

/-- One list after the other, until the controller is busy. -/
def issueInOrder (g : Geometry) (hw : Hardware) (chNo : Nat) : List (WayList × WayList) → Scheduler → Option Scheduler
  | [], s => some s
  | (k, k') :: more, s => do
    let (returned, s) ← issueWays g hw chNo (selectiveGetFromList · k) (putToList · k') g.userWays s (s.head chNo k)
    if returned then some s else issueInOrder g hw chNo more s

section
variable {α : Type} (record : Scheduler → Nat → List α)

/-- What is recorded of the ways that `issueWays` calls `ExecuteNandReq` for, before each call. -/
def issueWaysRecords (g : Geometry) (hw : Hardware) (chNo : Nat) (k k' : WayList) : Nat → Scheduler → Nat → List α
  | 0, _, _ => []
  | turns + 1, s, wayNo =>
    if wayNo = wayNone then []
    else
      record s wayNo ++
        match s.executeNandReq g chNo wayNo .running with
        | some s =>
          let s := (s.selectiveGetFromList k chNo wayNo).putToList k' chNo wayNo
          let (busy, s) := s.v2fIsControllerBusy hw
          if busy then [] else issueWaysRecords g hw chNo k k' turns s (s.nextWay chNo wayNo)
        | none => []

def issueInOrderRecords (g : Geometry) (hw : Hardware) (chNo : Nat) : List (WayList × WayList) → Scheduler → List α
  | [], _ => []
  | (k, k') :: more, s =>
    issueWaysRecords record g hw chNo k k' g.userWays s (s.head chNo k) ++
      match issueWays g hw chNo (selectiveGetFromList · k) (putToList · k') g.userWays s (s.head chNo k) with
      | some (returned, s) => if returned then [] else issueInOrderRecords g hw chNo more s
      | none => []

theorem issueWaysRecords_none (turns : Nat) : issueWaysRecords record g hw chNo k k' turns s wayNone = [] := by
  cases turns <;> simp [issueWaysRecords]

end

theorem issueRequests_eq (s : Scheduler) :
    s.issueRequests g hw chNo =
      let (busy, s) := s.v2fIsControllerBusy hw
      if busy then some s
      else
        let (returned, s) :=
          if s.head chNo .statusCheck ≠ wayNone then
            let (readyBusy, s) := s.v2fReadyBusyAsync hw
            checkStatuses hw chNo readyBusy g.userWays s (s.head chNo .statusCheck)
          else (false, s)
        if returned then some s else issueInOrder g hw chNo issueOrder s := by
  have last : ∀ (x : Option (Bool × Scheduler)),
      (x.bind fun p => if p.1 = true then some p.2 else some p.2) = x.bind fun p => some p.2 := by
    intro x
    exact congrArg _ (funext fun p => ite_self _)
  simp only [issueOrder, issueInOrder, Option.bind_eq_bind, last]
  rfl

theorem issueInOrder_spec {more : List (WayList × WayList)} (channel : chNo < g.userChannels)
    (ok : SchedulerOk g s lists) (issues : ∀ l ∈ more, Issues l.1 l.2)
    (done : issueInOrder g hw chNo more s = some s') : ∃ lists', s.Leads g s' lists' := by
  induction more generalizing s lists with
  | nil =>
    cases done
    exact ⟨lists, ok, .refl _⟩
  | cons l more ih =>
    simp only [issueInOrder, Option.bind_eq_bind, Option.bind_eq_some_iff, Prod.exists] at done
    obtain ⟨returned, t, issued, done⟩ := done
    rw [List.forall_mem_cons] at issues
    obtain ⟨lists', leads⟩ := issueWays_spec channel ok issues.1 issued
    split at done
    · cases done
      exact ⟨lists', leads⟩
    · obtain ⟨lists'', after⟩ := ih leads.1 issues.2 done
      exact ⟨lists'', .trans leads.2 after⟩

/-- The issuing part, wherever it returns. -/
theorem issueRequests_spec (channel : chNo < g.userChannels) (ok : SchedulerOk g s lists)
    (done : s.issueRequests g hw chNo = some s') : ∃ lists', s.Leads g s' lists' := by
  have start : s.Leads g s lists := ⟨ok, .refl _⟩
  have idle := start.readWord hw.queueNotFull
  rw [issueRequests_eq] at done
  change s.Leads g (s.v2fIsControllerBusy hw).2 _ at idle
  generalize s.v2fIsControllerBusy hw = answer at idle done
  obtain ⟨busy, s₀⟩ := answer
  simp only at done idle
  split at done
  · cases done
    exact ⟨_, idle⟩
  have checks := statusChecks_spec hw channel idle.1
  generalize (if s₀.head chNo .statusCheck ≠ wayNone then
      checkStatuses hw chNo (s₀.v2fReadyBusyAsync hw).1 g.userWays (s₀.v2fReadyBusyAsync hw).2
        ((s₀.v2fReadyBusyAsync hw).2.head chNo .statusCheck)
    else (false, s₀)) = answer at checks done
  obtain ⟨lists₁, checked⟩ := checks
  split at done
  · cases done
    exact ⟨_, .trans idle.2 checked⟩
  obtain ⟨lists₂, issued⟩ := issueInOrder_spec channel checked.1 issues_issueOrder done
  exact ⟨lists₂, .trans (idle.2.trans checked.2) issued⟩

/-- A whole pass keeps the lists true, and is a list of events to the request layer. -/
theorem schedulingNandReqPerCh_spec (channel : chNo < g.userChannels) (ok : SchedulerOk g s lists)
    (done : s.schedulingNandReqPerCh g hw chNo = some s') : ∃ lists', s.Leads g s' lists' := by
  simp only [schedulingNandReqPerCh, Option.bind_eq_bind, Option.bind_eq_some_iff, Prod.exists] at done
  obtain ⟨t, waitWayCnt, selected, done⟩ := done
  obtain ⟨lists₁, select, -⟩ := selectWays_spec channel ok selected
  split at done
  · obtain ⟨lists₂, issue⟩ := issueRequests_spec channel select.1 done
    exact ⟨lists₂, .trans select.2 issue⟩
  · cases done
    exact ⟨lists₁, select⟩

end Scheduler
end OcpFw
