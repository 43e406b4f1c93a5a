import OcpFw.SchedulerPasses

/-! The way lists over whole runs: passes over any channels, with any answers of the
hardware, and requests queued in between. -/
namespace OcpFw
open RequestLayer (Appends)
open Runs (Run exec run_of_exec)

/-- A pass over a channel with what the hardware shows during it, or requests appended to
the NAND queues by the rest of the firmware. -/
inductive SchedulerOp where
  | pass (chNo : Nat) (hw : Hardware)
  | append (layer : RequestLayer)

def schedulerStep (g : Geometry) (s : Scheduler) : SchedulerOp → Option Scheduler
  | .pass chNo hw => s.schedulingNandReqPerCh g hw chNo
  | .append layer => some (s.setLayer layer)

/-- The channel exists; the queues were only appended to and the slots are in order. -/
def SchedulerOp.Allowed (g : Geometry) (s : Scheduler) : SchedulerOp → Prop
  | .pass chNo _ => chNo < g.userChannels
  | .append layer => Appends g s.layer layer ∧ ∃ held flight, SlotsOk g layer held flight

variable {g : Geometry} {s s' : Scheduler} {lists : Nat → WayList → List Nat}

/-- All ways start in the idle list. -/
theorem schedulerOk_init (fits : g.userWays ≤ wayNone) :
    SchedulerOk g (initReqScheduler g) fun _ k => if k = .idle then List.range g.userWays else [] where
  layer := ⟨∅, ∅, SlotsOk.init⟩
  channel chNo inRange := by
    have few : g.userWays ≤ 15 := fits
    have some := g.ways_pos
    constructor
    · apply Dll.holds_serial some fits
      · rfl
      · intro i inside
        simp only [initReqScheduler]
        rw [if_neg (by omega)]
        omega
      · intro i inside
        simp only [initReqScheduler]
        rw [if_neg (by omega)]
        omega
      · simp only [initReqScheduler]
        rw [if_pos (by omega)]
      · exact fun k => rfl
      · exact fun k => rfl
    · intro wayNo
      constructor
      · rintro ⟨k, listed⟩
        by_cases idle : k = .idle
        · simpa [idle] using listed
        · simp [idle] at listed
      · exact fun inside => ⟨.idle, by simpa using inside⟩
    · intro k wayNo listed
      by_cases idle : k = .idle
      · subst idle
        rfl
      · simp [idle] at listed

/-- Queued requests leave the lists as they are and as true as they were. -/
theorem SchedulerOk.append (ok : SchedulerOk g s lists) {layer : RequestLayer}
    (appends : Appends g s.layer layer) (slots : ∃ held flight, SlotsOk g layer held flight) :
    SchedulerOk g (s.setLayer layer) lists where
  layer := slots
  channel chNo inRange := by
    have old := ok.channel chNo inRange
    refine ⟨old.wellFormed, old.everyWay, fun k wayNo listed => ?_⟩
    exact (old.allows k wayNo listed).mono (appends.keepsHeads chNo wayNo)

/-- The invariant holds after every run. -/
theorem schedulerOk_of_run (fits : g.userWays ≤ wayNone) {ops : List SchedulerOp}
    (run : Run (schedulerStep g) (fun s op => op.Allowed g s) (initReqScheduler g) ops s) :
    ∃ lists, SchedulerOk g s lists := by
  apply run.invariant (fun s => ∃ lists, SchedulerOk g s lists)
  · exact ⟨_, schedulerOk_init fits⟩
  · rintro s op s' ⟨lists, ok⟩ allowed step
    cases op with
    | pass chNo hw =>
      obtain ⟨lists', leads⟩ := Scheduler.schedulingNandReqPerCh_spec allowed ok step
      exact ⟨lists', leads.1⟩
    | append layer =>
      cases step
      exact ⟨lists, ok.append allowed.1 allowed.2⟩

/-- After any run of passes and queued requests, whatever the hardware answers, every way
of every channel is in exactly one of the well-formed lists and its list says what its
die is doing, how its status is checked and what its first request is. A pass that now
stops at the gate finds all lists but the idle and the status report one empty. -/
theorem scheduler_ways_of_run (fits : g.userWays ≤ wayNone) {ops : List SchedulerOp}
    (run : Run (schedulerStep g) (fun s op => op.Allowed g s) (initReqScheduler g) ops s) :
    ∃ lists : Nat → WayList → List Nat, ∀ chNo < g.userChannels,
      WayLists g s chNo (lists chNo) ∧
      (∀ wayNo < g.userWays, ∃! k, wayNo ∈ lists chNo k) ∧
      ∀ hw t, s.selectWays g hw chNo = some (t, g.userWays) →
        t.head chNo .statusCheck = wayNone ∧ t.head chNo .readTrigger = wayNone ∧
        t.head chNo .erase = wayNone ∧ t.head chNo .write = wayNone ∧
        t.head chNo .readTransfer = wayNone := by
  obtain ⟨lists, ok⟩ := schedulerOk_of_run fits run
  refine ⟨lists, fun chNo channel => ⟨ok.channel chNo channel, ?_, ?_⟩⟩
  · intro wayNo inside
    have way := ok.channel chNo channel
    obtain ⟨k, listed⟩ := (way.everyWay wayNo).mpr inside
    exact ⟨k, listed, fun k' listed' => way.wellFormed.disjoint k' k wayNo listed' listed⟩
  · intro hw t selected
    have gate : ∀ k : WayList, k ≠ .idle → k ≠ .statusReport → t.head chNo k = wayNone :=
      fun k notIdle notReport => Scheduler.selectWays_gate channel ok selected notIdle notReport
    exact ⟨gate _ nofun nofun, gate _ nofun nofun, gate _ nofun nofun, gate _ nofun nofun,
      gate _ nofun nofun⟩

/-- Ready dies and a controller that takes every request. -/
def readyHardware : Hardware where
  readyBusy _ := 0xff
  queueNotFull _ := 1
  completeFlag _ := 0
  statusReport _ := 0
  errorInfo _ := 0

/-- A write-back is queued, and a pass issues it: its die waits for a status check. -/
theorem scheduler_ways_of_run_issued :
    ∃ ops s, Run (schedulerStep tinyGeometry) (fun s op => op.Allowed tinyGeometry s)
        (initReqScheduler tinyGeometry) ops s ∧
      s.head 0 .statusCheck = 0 ∧
      ∃ lists : Nat → WayList → List Nat, ∀ chNo < tinyGeometry.userChannels,
        WayLists tinyGeometry s chNo (lists chNo) ∧
        (∀ wayNo < tinyGeometry.userWays, ∃! k, wayNo ∈ lists chNo k) ∧
        ∀ hw t, s.selectWays tinyGeometry hw chNo = some (t, tinyGeometry.userWays) →
          t.head chNo .statusCheck = wayNone ∧ t.head chNo .readTrigger = wayNone ∧
          t.head chNo .erase = wayNone ∧ t.head chNo .write = wayNone ∧
          t.head chNo .readTransfer = wayNone := by
  have done : ((requestStep tinyGeometry (initFirmware tinyGeometry) (.alloc [])).any fun fw =>
      (requestStep tinyGeometry fw (.submit 0 writeBackReq [])).any fun fw' =>
        (schedulerStep tinyGeometry ((initReqScheduler tinyGeometry).setLayer fw'.layer)
          (.pass 0 readyHardware)).any fun s => s.head 0 .statusCheck = 0) = true := by
    decide +kernel
  simp only [Option.any_eq_true, decide_eq_true_eq] at done
  obtain ⟨fw, allocated, fw', submitted, s, passed, waits⟩ := done
  have quiet : (RequestOp.alloc []).Quiet := rfl
  have quiet' : (RequestOp.submit 0 writeBackReq []).Quiet := rfl
  obtain ⟨first, slots⟩ := requestStep_appends SlotsOk.init quiet allocated
  obtain ⟨second, slots'⟩ := requestStep_appends slots quiet' submitted
  have queued : (SchedulerOp.append fw'.layer).Allowed tinyGeometry (initReqScheduler tinyGeometry) :=
    ⟨first.trans second, _, _, slots'⟩
  have channel : (SchedulerOp.pass 0 readyHardware).Allowed tinyGeometry
      ((initReqScheduler tinyGeometry).setLayer fw'.layer) := show 0 < 1 by decide
  have run : Run (schedulerStep tinyGeometry) (fun s op => op.Allowed tinyGeometry s)
      (initReqScheduler tinyGeometry) _ s := (Run.nil.snoc queued rfl).snoc channel passed
  exact ⟨_, s, run, waits, scheduler_ways_of_run (by decide) run⟩

end OcpFw
