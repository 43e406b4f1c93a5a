import OcpFw.PassProgress
import OcpFw.PolledPasses
import OcpFw.RequestRouting

/-! The waits of the firmware end. In every turn of a wait loop the work that is left gets less,
or there is nothing for the turn to do; and with nothing to do at hardware that has answered
everything, the oldest request of all would pass its check. So hardware that answers again and
again brings every wait to its end, unless a check can happen that is not fair. -/
namespace OcpFw
open RequestLayer (Acts events)
open Runs (Run exec run_of_exec_any loopWhile)

variable {g : Geometry} {s s' t : Scheduler} {lists lists' : Nat → WayList → List Nat} {held flight : Finset Nat}
  {x : Nat} {I : RequestLayer → Prop}

/-! ### The DMA engine -/

namespace RequestLayer
variable {s s' : RequestLayer} {queued : ReqQueue → List Nat} {later r : List Nat} {turns turn : Nat}
  {completed : Nat → DmaDirection → Nat} {done : DmaDirection → Bool} {visits : List DmaVisit}

theorem checkDoneTurn_worksOn (works : LayerWorks g I) (inv : I s) (now : DmaDirection → Nat)
    (done : DmaDirection → Bool) (dma : s.reqQueueType x = .nvmeDma) :
    ∃ visit t, s.checkDoneTurn g now done x = some (visit, t) ∧
      (t.toGo g < s.toGo g ∨ t = s ∧ visit.freed = false) := by
  obtain ⟨held, flight, slots⟩ := works.slots inv
  obtain ⟨queued, queues⟩ := slots.queued
  obtain ⟨t, freed, goes⟩ := (works.issuable inv).retires slots (.inl ⟨dma, rfl⟩)
  have freed : s.selectiveGetFromNvmeDmaReqQ g x = some t := freed
  unfold checkDoneTurn
  simp only
  split
  · rw [freed]
    exact ⟨_, t, rfl, .inl (goes.toGo_lt (queues.slot _ x (queues.mem_nvmeDma.mpr dma)))⟩
  · rename_i pending
    exact ⟨_, s, rfl, .inr ⟨rfl, Bool.eq_false_iff.mpr pending⟩⟩

/-- The scan frees a request, or leaves everything as it is. -/
theorem scanNvmeDmaReqQ_worksOn (works : LayerWorks g I) (inv : I s) (queues : QueuesOk g s.queues queued)
    (shape : queued .nvmeDma = r.reverse ++ later) (enough : r.length ≤ turns) :
    ∃ visits s', scanNvmeDmaReqQ g completed turns turn done s (r.headD reqSlotTagNone) = some (visits, s') ∧ I s' ∧
      (s'.toGo g < s.toGo g ∨ s' = s ∧ ∀ visit ∈ visits, visit.freed = false) := by
  induction r generalizing s queued later turns turn done with
  | nil => exact ⟨[], s, by cases turns <;> simp [scanNvmeDmaReqQ], inv, .inr ⟨rfl, by simp⟩⟩
  | cons y r ih =>
    obtain ⟨turns, rfl⟩ : ∃ n, turns = n + 1 := ⟨turns - 1, by simp at enough; omega⟩
    have split : queued .nvmeDma = r.reverse ++ y :: later := by simp [shape]
    have member : y ∈ queued .nvmeDma := by simp [split]
    have prev : s.queues.links.prev y = r.headD reqSlotTagNone := by
      rw [(queues.holds.links split).1]
      cases r <;> simp
    obtain ⟨held, flight, slots⟩ := works.slots inv
    obtain ⟨visit, t, first, less⟩ := checkDoneTurn_worksOn works inv (completed turn) done (queues.mem_nvmeDma.mp member)
    obtain ⟨-, -, queued', appended, leaves⟩ := checkDoneTurn_spec slots queues split first
    have inv' := works.acts inv (checkDoneTurn_acts slots (queues.mem_nvmeDma.mp member) first).1
    obtain ⟨visits, s', rest, inv'', less'⟩ := @ih t queued' _ turns (turn + 1) (Function.update done visit.dir visit.freed)
      inv' leaves.queues leaves.nvmeDma (by simpa using enough)
    refine ⟨visit :: visits, s', ?_, inv'', ?_⟩
    · rw [List.headD_cons, scanNvmeDmaReqQ, if_neg (queues.ne_none member), prev, first]
      simp only [Option.bind_eq_bind, Option.bind_some, rest]
    · rcases less with less | ⟨rfl, kept⟩
      · exact .inl (less'.elim (fun less' => less'.trans less) fun same => same.1 ▸ less)
      · rcases less' with less' | ⟨same, others⟩
        · exact .inl less'
        · exact .inr ⟨same, List.forall_mem_cons.mpr ⟨kept, others⟩⟩

theorem checkDoneNvmeDmaReq_worksOn (works : LayerWorks g I) (inv : I s) (completed : Nat → DmaDirection → Nat) :
    ∃ visits s', s.checkDoneNvmeDmaReq g completed = some (visits, s') ∧ I s' ∧
      (s'.toGo g < s.toGo g ∨ s' = s ∧ ∀ visit ∈ visits, visit.freed = false) := by
  obtain ⟨held, flight, slots⟩ := works.slots inv
  obtain ⟨queued, queues⟩ := slots.queued
  have tail : s.queues.links.tail .nvmeDma = (queued .nvmeDma).reverse.headD reqSlotTagNone := by
    rw [queues.holds.tail]
    cases shape : queued .nvmeDma using List.reverseRecOn <;> simp
  unfold checkDoneNvmeDmaReq
  rw [tail]
  refine scanNvmeDmaReqQ_worksOn works inv queues (show queued .nvmeDma = (queued .nvmeDma).reverse.reverse ++ [] by simp) ?_
  simpa using queues.length_le .nvmeDma

/-- Once the engine has completed all of its commands, a call frees something if there is
anything. -/
theorem checkDone_frees (ok : SlotsOk g s held flight) (layer : LayerOk g s) (fits : HeadsFit g s completed)
    (ran : s.checkDoneNvmeDmaReq g completed = some (visits, s'))
    (all : ∀ dir, s.hostDma.issued dir ≤ completed 0 dir) (kept : ∀ visit ∈ visits, visit.freed = false) (x : Nat) :
    s.reqQueueType x ≠ .nvmeDma := by
  obtain ⟨queued, queues, dma⟩ := layer
  obtain ⟨-, -, queued', last, -, -, retired⟩ := checkDone_spec ok queues dma fits.1 ran (fits.2 visits s' ran)
  intro type
  have member : x ∈ queued .nvmeDma := queues.mem_nvmeDma.mpr type
  have visited : x ∈ visits.map DmaVisit.reqSlotTag := by
    rw [retired.visited]
    simpa using member
  obtain ⟨visit, listed, rfl⟩ := List.mem_map.mp visited
  have freed := retired.done visit listed (((retired.issuedAs _ member).past).trans (all _))
  rw [kept visit listed] at freed
  cases freed

end RequestLayer

/-! ### A turn -/

/-- Every die is ready, every report is there, and every DMA command is completed. -/
structure TurnHardware.Answers (g : Geometry) (s : RequestLayer) (hw : TurnHardware) : Prop where
  completed : ∀ dir, s.hostDma.issued dir ≤ hw.completed 0 dir
  nand : ∀ chNo < g.userChannels, (hw.nand chNo).Answers g

namespace Scheduler

theorem schedulingNandReq_getsOn {hw : Nat → Hardware} (works : LayerWorks g I)
    (complete : ∀ chNo < g.userChannels, (hw chNo).ReportsComplete) (inv : I s.layer) (ok : SchedulerOk g s lists) :
    ∃ s' lists', s.schedulingNandReq g hw = some s' ∧ GetsOn g s lists s' lists'
      ((∀ chNo < g.userChannels, (hw chNo).Answers g) → ∀ chNo < g.userChannels, ∀ wayNo < g.userWays,
        s.headReqCode chNo wayNo = none ∧ NonePasses g s.layer chNo wayNo) := by
  obtain ⟨s', done, lists', gets⟩ := @Runs.foldlM_range_kept _ s
    (fun s chNo => s.schedulingNandReqPerCh g (hw chNo) chNo) g.userChannels
    (fun n t => ∃ lists', GetsOn g s lists t lists' ((∀ chNo < g.userChannels, (hw chNo).Answers g) →
      ∀ chNo < n, ∀ wayNo < g.userWays, s.headReqCode chNo wayNo = none ∧ NonePasses g s.layer chNo wayNo))
    ⟨lists, .same ok (by simp)⟩ (by
      rintro chNo channel t ⟨lists₁, first⟩
      obtain ⟨s', lists', done, second⟩ := schedulingNandReqPerCh_getsOn works (complete chNo channel) channel
        (works.acts inv first.acts) first.ok
      refine ⟨s', done, lists', (first.trans second).imp ?_⟩
      rintro - - ⟨⟨⟨n, rfl⟩, -⟩, before, here⟩ answers c low wayNo inside
      rcases Nat.lt_succ_iff_lt_or_eq.mp low with low | rfl
      · exact before answers c low wayNo inside
      · exact here (answers c channel) wayNo inside)
  exact ⟨s', lists', done, gets⟩

/-- A turn makes the work less, or nothing is left that it could do. -/
theorem schedulingTurn_getsOn {hw : TurnHardware} (works : LayerWorks g I)
    (complete : ∀ chNo < g.userChannels, (hw.nand chNo).ReportsComplete) (inv : I s.layer) (ok : SchedulerOk g s lists)
    (polled : PolledOk g ⟨⟨s.layer, held⟩, flight⟩) (fits : HeadsFit g s.layer hw.completed) :
    ∃ s' lists', s.schedulingTurn g hw = some s' ∧ I s'.layer ∧ SchedulerOk g s' lists' ∧
      Acts g s.layer s'.layer ∧ (s'.work g lists' < s.work g lists ∨ s'.work g lists' ≤ s.work g lists ∧
        (hw.Answers g s.layer → (∀ x, s.layer.reqQueueType x ≠ .nvmeDma) ∧ ∀ chNo < g.userChannels,
          ∀ wayNo < g.userWays, s.headReqCode chNo wayNo = none ∧ NonePasses g s.layer chNo wayNo)) := by
  obtain ⟨visits, layer', retired, inv', less⟩ := RequestLayer.checkDoneNvmeDmaReq_worksOn works inv hw.completed
  obtain ⟨acts, appends⟩ := RequestLayer.checkDoneNvmeDmaReq_acts polled.slots retired
  have ok' : SchedulerOk g (s.setLayer layer') lists :=
    ok.append appends ⟨held, flight, acts.slotsOk polled.slots⟩
  obtain ⟨s', lists', done, gets⟩ := schedulingNandReq_getsOn (s := s.setLayer layer') works complete inv' ok'
  refine ⟨s', lists', ?_, works.acts inv' gets.acts, gets.ok, acts.trans gets.acts, ?_⟩
  · simp [schedulingTurn, retired, done]
  · rcases less with less | ⟨rfl, pending⟩
    · have first : (s.setLayer layer').work g lists < s.work g lists := by
        refine work_lt_of_layer less fun c w => ?_
        have most : (s.setLayer layer').wayWork lists c w ≤ s.wayWork lists c w + 8 :=
          wayWork_le rfl rfl (appends.keepsPhase c w).headReqCode
        omega
      refine .inl (gets.less.elim (fun less' => less'.trans first) ?_)
      rintro ⟨⟨n, rfl⟩, rfl, -⟩
      exact first
    · rcases gets.less with less' | ⟨⟨n, rfl⟩, rfl, idle⟩
      · exact .inl less'
      · refine .inr ⟨le_rfl, fun answers => ⟨fun x => ?_, idle answers.nand⟩⟩
        exact RequestLayer.checkDone_frees polled.slots polled.layer fits retired answers.completed pending x

end Scheduler

/-! ### The request layer while the firmware waits -/

/-- A check that is not fair can happen, after events whose checks are fair. -/
def CanBeUnfair (g : Geometry) (s : RequestLayer) : Prop :=
  ∃ es t e, Run (RequestLayer.event g) (EventFair g) s es t ∧ (t.event g e).isSome ∧ ¬ EventFair g t e

/-- A NAND request has a code that the scheduler has a list for. -/
def Schedulable (req : SsdReq) : Prop :=
  req.reqType = .nand → req.reqCode ∈ [ReqCode.read, .readTransfer, .write, .erase, .reset, .setFeature]

instance (req : SsdReq) : Decidable (Schedulable req) := by
  unfold Schedulable
  infer_instance

theorem schedulable_phaseFree : PhaseFree fun _ req => Schedulable req := by
  intro x req code _ phase _
  rcases phase with rfl | rfl <;> simp

/-- What holds of the request layer while the firmware waits. -/
structure DrainsOk (g : Geometry) (held flight : Finset Nat) (s : RequestLayer) : Prop where
  waits : WaitOk g s held flight
  issuable : ∀ req ∈ s.submissions, Issuable req
  codes : RoutedOk g (fun _ req => Schedulable req) s held flight
  fair : ¬ CanBeUnfair g s

theorem drainsOk_works (small : g.userPagesPerBlock < 4096) : LayerWorks g (DrainsOk g held flight) where
  event := by
    intro s s' e ok done
    have fair : EventFair g s e := by
      by_contra unfair
      exact ok.fair ⟨[], s, e, .nil, by rw [done]; rfl, unfair⟩
    refine ⟨?_, ?_, ?_, ?_⟩
    · exact RequestLayer.event_closed (waitOk_events small) ok.waits (fun p member b => (fair p member).all b) done
    · rw [event_submissions ok.waits.1.1 done]
      exact ok.issuable
    · exact RequestLayer.event_closed (routedOk_events schedulable_phaseFree) ok.codes (fun _ _ => trivial) done
    · rintro ⟨es, t, e', run, possible, unfair⟩
      exact ok.fair ⟨[e] ++ es, t, e', .trans (Run.nil.snoc fair done) run, possible, unfair⟩
  slots ok := ⟨held, flight, ok.codes.slots⟩
  issuable ok := ok.waits.heldIssuable ok.issuable
  checkable ok := (ok.waits.1.2 ⟨0, 0, 0⟩).2.2.checkable
  nandCode := by
    intro s ok x type
    obtain ⟨queued, queues, reqs⟩ := ok.codes.queues
    obtain ⟨chNo, -, wayNo, -, listed⟩ := queues.mem_nand type
    obtain ⟨schedulable, nand, -⟩ := reqs _ x listed
    exact schedulable nand

/-- When nothing is at the hardware, and nothing blocked passes its check, nothing is
outstanding. -/
theorem DrainsOk.idle {s : Scheduler} (ok : DrainsOk g held flight s.layer) (dma : ∀ x, s.layer.reqQueueType x ≠ .nvmeDma)
    (ways : ∀ chNo < g.userChannels, ∀ wayNo < g.userWays,
      s.headReqCode chNo wayNo = none ∧ NonePasses g s.layer chNo wayNo) (x : Nat) : ¬ s.layer.Outstanding x := by
  obtain ⟨queued, queues⟩ := ok.codes.slots.queued
  have nand : ∀ y, s.layer.reqQueueType y ≠ .nand := by
    intro y type
    obtain ⟨chNo, channel, wayNo, inside, listed⟩ := queues.mem_nand type
    have empty := Scheduler.headReqCode_eq_none.mp (ways chNo channel wayNo inside).1
    rw [queues.holds.head_eq_nil.mp empty] at listed
    cases listed
  intro busy
  obtain ⟨y, row, permitted⟩ :=
    ok.waits.exists_permitted (fun y => ⟨dma y, nand y⟩) ⟨x, busy.blocked ⟨dma x, nand x⟩⟩
  obtain ⟨chNo, channel, wayNo, inside, listed⟩ := queues.mem_rowAddrDep row
  exact (ways chNo channel wayNo inside).2 queued queues y listed permitted

/-- Whatever happens, what was outstanding is outstanding or free. -/
theorem FreesOnly.acts {s t t' : RequestLayer} (works : LayerWorks g I) (inv : I t) (frees : FreesOnly s t)
    (acts : Acts g t t') : FreesOnly s t' := by
  obtain ⟨es, ran⟩ := acts
  induction es generalizing t with
  | nil =>
    cases ran
    exact frees
  | cons e es ih =>
    simp only [events, List.foldlM_cons, Option.bind_eq_bind, Option.bind_eq_some_iff] at ran
    obtain ⟨u, first, ran⟩ := ran
    refine ih (works.event inv first) ?_ ran
    obtain ⟨held, flight, slots⟩ := works.slots inv
    cases e with
    | nvmeDmaDone x =>
      simp only [RequestLayer.event] at first
      split at first
      · rename_i dma
        exact frees.step (RequestLayer.complete_goesOn slots (.inl ⟨dma, rfl⟩) first)
      · cases first
    | nandDone chNo wayNo =>
      obtain ⟨queues, taken, released⟩ := RequestLayer.getFromNandReqQ_cases first
      exact frees.step (RequestLayer.complete_goesOn slots (.inr ⟨chNo, wayNo, taken⟩) released)
    | readPhase chNo wayNo transfer =>
      simp only [RequestLayer.event] at first
      split at first
      · cases first
        exact frees
      · cases first
    | recheck chNo wayNo =>
      simp only [RequestLayer.event] at first
      split at first
      · obtain ⟨u', done, goes⟩ := RequestLayer.recheck_worksOn works inv chNo wayNo
        cases first.symm.trans done
        rcases goes with ⟨x, -, goes⟩ | ⟨rfl, -⟩
        · exact frees.step goes
        · exact frees
      · cases first

/-! ### A loop -/

/-- The turns of a wait from a state on: no report is there too early, the registers show
what was completed, and again and again everything is done. -/
structure KeepsAnswering (g : Geometry) (again : Scheduler → Prop) (s : Scheduler) (hw : Nat → TurnHardware) : Prop where
  complete : ∀ n, ∀ chNo < g.userChannels, ((hw n).nand chNo).ReportsComplete
  fits : ∀ n t, Run (Scheduler.schedulingTurn g) (fun t _ => again t) s ((List.range n).map hw) t → again t →
    HeadsFit g t.layer (hw n).completed
  answers : ∀ n, ∃ m, n ≤ m ∧ ∀ t, Run (Scheduler.schedulingTurn g) (fun t _ => again t) s ((List.range m).map hw) t →
    again t → (hw m).Answers g t.layer

/-- A wait ends that is over when nothing is outstanding. -/
theorem DrainsOk.loop_ends {again : Scheduler → Prop} [DecidablePred again] {hw : Nat → TurnHardware}
    (small : g.userPagesPerBlock < 4096) (ok : SchedulerOk g s lists) (drains : DrainsOk g held flight s.layer)
    (polled : PolledOk g ⟨⟨s.layer, held⟩, flight⟩) (answers : KeepsAnswering g again s hw)
    (busy : ∀ t : Scheduler, FreesOnly s.layer t.layer → DrainsOk g held flight t.layer → again t →
      ∃ x, t.layer.Outstanding x) :
    ∃ n s', loopWhile again (Scheduler.schedulingTurn g) ((List.range n).map hw) s = some s' := by
  have works : LayerWorks g (DrainsOk g held flight) := drainsOk_works small
  let I := fun n k t => (DrainsOk g held flight t.layer ∧ PolledOk g ⟨⟨t.layer, held⟩, flight⟩ ∧ FreesOnly s.layer t.layer) ∧
    Run (Scheduler.schedulingTurn g) (fun t _ => again t) s ((List.range n).map hw) t ∧
    ∃ lists, SchedulerOk g t lists ∧ t.work g lists = k
  have turn : ∀ n k t, I n k t → again t → ∃ t' k', t.schedulingTurn g (hw n) = some t' ∧ I (n + 1) k' t' ∧
      (k' < k ∨ k' ≤ k ∧ ¬ (hw n).Answers g t.layer) := by
    rintro n k t ⟨⟨drains, polled, frees⟩, run, lists, ok, rfl⟩ more
    have fits := answers.fits n t run more
    obtain ⟨t', lists', done, drains', ok', acts, less⟩ :=
      Scheduler.schedulingTurn_getsOn works (answers.complete n) drains ok polled fits
    refine ⟨t', _, done, ⟨⟨drains', polled.turn fits done, frees.acts works drains acts⟩, ?_, lists', ok', rfl⟩, ?_⟩
    · rw [List.range_succ, List.map_append]
      exact run.snoc more done
    · rcases less with less | ⟨le, stuck⟩
      · exact .inl less
      refine .inr ⟨le, fun answered => ?_⟩
      obtain ⟨dma, ways⟩ := stuck answered
      obtain ⟨x, outstanding⟩ := busy t frees drains more
      exact drains.idle dma ways x outstanding
  obtain ⟨n, s', done⟩ := @Runs.loopWhile_ends _ _ (Scheduler.schedulingTurn g) s again _ hw 0 _ I (by
      intro n k t inv more
      obtain ⟨t', k', done, inv', less⟩ := turn n k t inv more
      exact ⟨t', k', done, inv', less.elim Nat.le_of_lt And.left⟩) (by
      intro n
      obtain ⟨m, late, answered⟩ := answers.answers n
      refine ⟨m, late, fun k t inv more => ?_⟩
      obtain ⟨t', k', done, inv', less⟩ := turn m k t inv more
      exact ⟨t', k', done, inv', less.resolve_right fun stuck => stuck.2 (answered t inv.2.1 more)⟩)
    ⟨⟨drains, polled, fun _ busy => .inl busy⟩, .nil, lists, ok, rfl⟩
  rw [← List.range_eq_range'] at done
  exact ⟨n, s', done⟩

/-! ### The firmware -/

section
variable {s s' : ScheduledFirmware} {op : ScheduledOp} {x : Nat} {req : SsdReq}

/-- Once no ERASE of its block waits, a submission passes all assertions. -/
theorem selectLowLevelReqQ_isSome {s : RequestLayer} (issuable : Issuable (s.reqPool x))
    (clear : ¬ s.WaitsForErase g x) : ∃ s', s.selectLowLevelReqQ g [] x = some s' := by
  have started := startReleasedReq_isSome (g := g) issuable
  unfold RequestLayer.selectLowLevelReqQ
  rcases issuable with ⟨type, -⟩ | ⟨type, addr, code⟩
  · simp only [RequestLayer.startReleasedReq, type] at started
    by_cases free : s.CheckBufDep x
    · simpa [free, type] using started
    · simp [free, type]
  · by_cases check : (s.reqPool x).rowAddrDependencyCheck = true
    · have checkable : Checkable (s.reqPool x) := ⟨check, addr, code check⟩
      have noErase : (s.reqPool x).reqCode = .read →
          (s.rowAddrDependency (blockAddr g (s.reqPool x).virtualSliceAddr)).blockedEraseReqFlag = false := by
        intro read
        rw [← Bool.not_eq_true]
        exact fun flag => clear ⟨type, checkable, read, flag⟩
      by_cases free : s.CheckBufDep x
      · simp only [free, type, ↓reduceIte, RequestLayer.dispatchNandReq, check, RequestLayer.checkRowAddrDep, addr]
        rcases code check with read | write | erase
        · simp only [read, noErase read, Bool.false_eq_true, ↓reduceIte, Option.bind_eq_bind, Option.bind_some]
          split <;> exact ⟨_, rfl⟩
        · simp only [write]
          split <;> exact ⟨_, rfl⟩
        · simp only [erase]
          split <;> exact ⟨_, rfl⟩
      · simp only [free, type, check, ↓reduceIte, and_self, RequestLayer.updateRowAddrDepTableForBufBlockedReq, addr]
        rcases code check with read | write | erase
        · simp [read, noErase read]
        · simp [write]
        · simp [erase]
    · by_cases free : s.CheckBufDep x
      · simp [free, type, RequestLayer.dispatchNandReq, check]
      · simp [free, check]

/-- The registers show what was completed, and the request layer sees operations that submit
in turn and make fair checks. -/
def FairlyScheduled (g : Geometry) (s : ScheduledFirmware) (op : ScheduledOp) : Prop :=
  op.Fits g s ∧ ∀ s', scheduledStep g s op = some s' → ∃ ops, Run (requestStep g)
    (fun fw op => WorksFairly g fw op ∧ ∀ req ∈ opSubmits op, Schedulable req) s.firmware ops s'.firmware

/-- A state in which the firmware can wait. -/
structure MayWait (g : Geometry) (s : ScheduledFirmware) : Prop where
  lists : ∃ lists, SchedulerOk g s.scheduler lists
  polled : PolledOk g ⟨s.firmware, ∅⟩
  waits : WaitOk g s.scheduler.layer s.held ∅
  issuable : ∀ req ∈ s.scheduler.layer.submissions, Issuable req
  codes : RoutedOk g (fun _ req => Schedulable req) s.scheduler.layer s.held ∅

theorem mayWait_of_run (fits : g.userWays ≤ wayNone) (small : g.userPagesPerBlock < 4096) {ops : List ScheduledOp}
    (run : Run (scheduledStep g) (FairlyScheduled g) (initScheduledFirmware g) ops s) : MayWait g s := by
  have scheduled : ScheduledOk g s := by
    apply run.invariant (ScheduledOk g) (.init fits)
    intro s op s' ok _ done
    obtain ⟨-, -, ok', -⟩ := ok.step done
    exact ok'
  have polled : PolledOk g ⟨s.firmware, ∅⟩ := by
    apply run.invariant (fun s => PolledOk g ⟨s.firmware, ∅⟩) PolledOk.init
    intro s op s' ok fair done
    exact ok.scheduled fair.1 done
  obtain ⟨ops', requests⟩ : ∃ ops', Run (requestStep g) (fun fw op => WorksFairly g fw op ∧
      ∀ req ∈ opSubmits op, Schedulable req) (initFirmware g) ops' s.firmware := by
    apply run.invariant (fun s => ∃ ops', Run (requestStep g) (fun fw op => WorksFairly g fw op ∧
      ∀ req ∈ opSubmits op, Schedulable req) (initFirmware g) ops' s.firmware) ⟨[], .nil⟩
    rintro s op s' ⟨ops', before⟩ fair done
    obtain ⟨more, after⟩ := fair.2 s' done
    exact ⟨ops' ++ more, before.trans after⟩
  obtain ⟨waits, issuable⟩ := waitOk_of_run small (requests.mono fun _ _ met => met.1)
  have codes : RoutedOk g (fun _ req => Schedulable req) s.firmware.layer s.firmware.held ∅ := by
    apply requests.invariant (fun fw => RoutedOk g (fun _ req => Schedulable req) fw.layer fw.held ∅)
      ⟨SlotsOk.init, Queued.init, by simp⟩
    intro fw op fw' ok met step
    refine RequestLayer.requestStep_closed (routedOk_ops schedulable_phaseFree) ok ?_ (fun _ _ => trivial) step
    rintro x req es rfl member -
    exact ok.prepare member (met.2 req (by simp [opSubmits])) fun _ _ _ promised => promised
  exact ⟨scheduled.lists, polled, waits, issuable, codes⟩

section
variable {hw : Nat → TurnHardware}

theorem MayWait.sync_ends (small : g.userPagesPerBlock < 4096) (may : MayWait g s)
    (answers : KeepsAnswering g (fun t => ¬ t.layer.LowLevelReqDone) s.scheduler hw) :
    CanBeUnfair g s.scheduler.layer ∨
      ∃ n t, s.scheduler.syncAllLowLevelReqDone g ((List.range n).map hw) = some t := by
  obtain ⟨⟨lists, ok⟩, polled, waits, issuable, codes⟩ := may
  by_cases unfair : CanBeUnfair g s.scheduler.layer
  · exact .inl unfair
  refine .inr (DrainsOk.loop_ends small ok ⟨waits, issuable, codes, unfair⟩ polled answers fun t _ drains more => ?_)
  by_contra idle
  exact more (drains.codes.slots.done_of_idle (not_exists.mp idle))

/-- What was outstanding when the wait began is free at its end. -/
theorem MayWait.alloc_ends (small : g.userPagesPerBlock < 4096) (may : MayWait g s)
    (answers : KeepsAnswering g (fun t => t.layer.queues.links.head .free = reqSlotTagNone) s.scheduler hw)
    (busy : s.scheduler.layer.Outstanding x) :
    CanBeUnfair g s.scheduler.layer ∨ ∃ n t, s.scheduler.syncAvailFreeReq g ((List.range n).map hw) = some t := by
  obtain ⟨⟨lists, ok⟩, polled, waits, issuable, codes⟩ := may
  by_cases unfair : CanBeUnfair g s.scheduler.layer
  · exact .inl unfair
  refine .inr (DrainsOk.loop_ends small ok ⟨waits, issuable, codes, unfair⟩ polled answers
    fun t frees drains empty => ?_)
  by_contra idle
  obtain ⟨queued, queues⟩ := drains.codes.slots.queued
  have listed := queues.mem_free ((frees x busy).resolve_left (not_exists.mp idle x))
  rw [queues.holds.head_eq_nil.mp empty] at listed
  cases listed

/-- A request that is filled in and not submitted yet leaves the rest of the layer to drain. -/
theorem MayWait.prepared (small : g.userPagesPerBlock < 4096) (may : MayWait g s) (member : x ∈ s.held)
    (inTurn : ∀ b, SubmitsInTurn g b s.scheduler.layer req) (mine : Issuable req) (code : Schedulable req)
    (fair : ¬ CanBeUnfair g (s.scheduler.layer.prepare x req)) :
    DrainsOk g (s.held.erase x) {x} (s.scheduler.layer.prepare x req) := by
  refine ⟨may.waits.prepare small member inTurn, fun req' listed => ?_,
    may.codes.prepare member code fun _ _ _ promised => promised, fair⟩
  rcases List.mem_append.mp listed with old | new
  · exact may.issuable req' old
  · exact List.mem_singleton.mp new ▸ mine

/-- The wait for the ERASE of the block ends, and then no assertion stops the submission. -/
theorem MayWait.submission_ends (small : g.userPagesPerBlock < 4096) (may : MayWait g s) (member : x ∈ s.held)
    (allowed : Submittable g req) (inTurn : ∀ b, SubmitsInTurn g b s.scheduler.layer req) (mine : Issuable req)
    (code : Schedulable req) (answers : KeepsAnswering g
      (fun t => (t.layer.rowAddrDependency (blockAddr g req.virtualSliceAddr)).blockedEraseReqFlag = true)
      (s.scheduler.setLayer (s.scheduler.layer.prepare x req)) hw) :
    CanBeUnfair g (s.scheduler.layer.prepare x req) ∨
      ∃ n t, (s.scheduler.setLayer (s.scheduler.layer.prepare x req)).selectLowLevelReqQ g ((List.range n).map hw) x =
        some t := by
  by_cases unfair : CanBeUnfair g (s.scheduler.layer.prepare x req)
  · exact .inl unfair
  refine .inr ?_
  have drains := may.prepared small member inTurn mine code unfair
  have slots := drains.codes.slots
  obtain ⟨lists, ok⟩ := may.lists
  have start : SchedulerOk g (s.scheduler.setLayer (s.scheduler.layer.prepare x req)) lists :=
    ok.append (RequestLayer.prepare_appends may.codes.slots member req) ⟨_, _, slots⟩
  set prepared := s.scheduler.setLayer (s.scheduler.layer.prepare x req) with shape
  have request : prepared.layer.reqPool x = req := by simp [shape, Scheduler.setLayer, RequestLayer.prepare]
  unfold Scheduler.selectLowLevelReqQ Scheduler.waitForErase
  by_cases erase : prepared.layer.WaitsForErase g x
  · obtain ⟨n, t, waited⟩ := DrainsOk.loop_ends small start drains (may.polled.prepare member allowed rfl) answers
      fun t _ drains flag => by
        obtain ⟨y, row, -⟩ := (drains.waits.1.2 _).2.1.flag.mp flag
        exact ⟨y, .inr (.inl row)⟩
    obtain ⟨⟨lists', -, es, ran⟩, clear, -⟩ := Scheduler.loopWhile_progresses start waited
    have same := (RequestLayer.events_undisturbed slotsOk_events slots (fun _ _ => trivial) ran
      (Finset.mem_singleton_self x)).1
    have kept : t.layer.reqPool x = req := same.trans request
    obtain ⟨layer, placed⟩ := selectLowLevelReqQ_isSome (g := g) (kept ▸ mine) fun waits => by
      have flag := waits.2.2.2
      rw [RequestLayer.dependency, kept] at flag
      exact clear flag
    refine ⟨n, t.setLayer layer, ?_⟩
    have waited : prepared.syncReleaseEraseReq g ((List.range n).map hw) (blockAddr g req.virtualSliceAddr) = some t :=
      waited
    simp [erase, request, waited, placed]
  · obtain ⟨layer, placed⟩ := selectLowLevelReqQ_isSome (g := g) (request ▸ mine) erase
    exact ⟨0, prepared.setLayer layer, by simp [erase, placed]⟩

end

/-- Over every run whose registers show what was completed, that submits in turn, and whose
checks are fair: a wait of the firmware ends as soon as the hardware answers again and again.
The drain loop ends, so does the wait for a free slot while something is outstanding, and so
does the submission of a request that waits for an ERASE. Else a check can happen that is not
fair. -/
theorem waits_end_of_scheduledRun (fits : g.userWays ≤ wayNone) (small : g.userPagesPerBlock < 4096)
    {ops : List ScheduledOp} (run : Run (scheduledStep g) (FairlyScheduled g) (initScheduledFirmware g) ops s) :
    (∀ hw, KeepsAnswering g (fun t => ¬ t.layer.LowLevelReqDone) s.scheduler hw → CanBeUnfair g s.scheduler.layer ∨
      ∃ n t, s.scheduler.syncAllLowLevelReqDone g ((List.range n).map hw) = some t) ∧
    (∀ hw, KeepsAnswering g (fun t => t.layer.queues.links.head .free = reqSlotTagNone) s.scheduler hw →
      (∃ x, s.scheduler.layer.Outstanding x) → CanBeUnfair g s.scheduler.layer ∨
      ∃ n t, s.scheduler.syncAvailFreeReq g ((List.range n).map hw) = some t) ∧
    ∀ x ∈ s.held, ∀ req, Submittable g req → (∀ b, SubmitsInTurn g b s.scheduler.layer req) → Issuable req →
      Schedulable req → ∀ hw, KeepsAnswering g
        (fun t => (t.layer.rowAddrDependency (blockAddr g req.virtualSliceAddr)).blockedEraseReqFlag = true)
        (s.scheduler.setLayer (s.scheduler.layer.prepare x req)) hw →
      CanBeUnfair g (s.scheduler.layer.prepare x req) ∨
        ∃ n t, (s.scheduler.setLayer (s.scheduler.layer.prepare x req)).selectLowLevelReqQ g ((List.range n).map hw) x =
          some t := by
  have may := mayWait_of_run fits small run
  refine ⟨fun hw answers => may.sync_ends small answers, ?_, ?_⟩
  · rintro hw answers ⟨x, busy⟩
    exact may.alloc_ends small answers busy
  · intro x member req allowed inTurn mine code hw answers
    exact may.submission_ends small member allowed inTurn mine code answers

/-! ### A wait of which every turn is watched -/

/-- An operation without turns is one of the request layer. -/
theorem fairlyScheduled_alloc (fair : WorksFairly g s.firmware (.alloc [])) : FairlyScheduled g s (.alloc []) := by
  refine ⟨fun before hw t taken => by simp at taken, fun s' done =>
    ⟨[.alloc []], Run.nil.snoc ⟨fair, by simp [opSubmits]⟩ ?_⟩⟩
  simp only [scheduledStep, Scheduler.syncAvailFreeReq, loopWhile, Option.bind_eq_bind, Option.bind_eq_some_iff,
    Option.some.injEq] at done
  obtain ⟨t, waited, rfl⟩ := done
  split at waited
  · cases waited
  · rename_i some
    cases waited
    simp [requestStep, RequestLayer.syncAvailFreeReq, ScheduledFirmware.firmware, some, Scheduler.setLayer]

theorem fairlyScheduled_submit (fair : WorksFairly g s.firmware (.submit x req [])) (code : Schedulable req) :
    FairlyScheduled g s (.submit x req []) := by
  refine ⟨fun before hw t taken => by simp at taken, fun s' done =>
    ⟨[.submit x req []], Run.nil.snoc ⟨fair, by simpa [opSubmits] using code⟩ ?_⟩⟩
  simp only [scheduledStep] at done
  split at done
  · rename_i allowed
    simp only [Scheduler.selectLowLevelReqQ, Scheduler.waitForErase, Scheduler.syncReleaseEraseReq, loopWhile,
      Option.bind_eq_bind, Option.bind_eq_some_iff, Option.some.injEq] at done
    obtain ⟨u, ⟨t, waited, layer, placed, rfl⟩, rfl⟩ := done
    have stays : t = s.scheduler.setLayer (s.scheduler.layer.prepare x req) := by
      split at waited
      · split at waited <;> cases waited
        rfl
      · cases waited
        rfl
    subst stays
    have placed : (s.scheduler.layer.prepare x req).selectLowLevelReqQ g [] x = some layer := placed
    simp [requestStep, ScheduledFirmware.firmware, allowed, placed, Scheduler.setLayer]
  · cases done

/-- The operations of a run without turns that are fair. -/
def fairWithoutTurns (g : Geometry) (s : ScheduledFirmware) : ScheduledOp → Bool
  | .alloc [] => decide (WorksFairly g s.firmware (.alloc []))
  | .submit x req [] => decide (WorksFairly g s.firmware (.submit x req []) ∧ Schedulable req)
  | _ => false

theorem fairlyScheduled_of_fairWithoutTurns (fair : fairWithoutTurns g s op = true) : FairlyScheduled g s op := by
  unfold fairWithoutTurns at fair
  split at fair
  · exact fairlyScheduled_alloc (of_decide_eq_true fair)
  · exact fairlyScheduled_submit (of_decide_eq_true fair).1 (of_decide_eq_true fair).2
  · cases fair

/-- What a turn of the DMA engine finds: no more is completed than was issued, and nothing less. -/
def promptCheck (s : Scheduler) : Bool :=
  ((s.layer.checkDoneNvmeDmaReq tinyGeometry promptTurn.completed).all fun r =>
    decide (∀ visit ∈ r.1, ∀ completed ∈ visit.head, completed ≤ visit.issued ∧ visit.issued - completed ≤ 255)) &&
  decide (s.layer.hostDma.issued .rx ≤ promptTurn.completed 0 .rx ∧ s.layer.hostDma.issued .tx ≤ promptTurn.completed 0 .tx)

/-- A transfer waits for the write-back of its entry, and the firmware for both. -/
theorem waits_end_of_scheduledRun_drained :
    ∃ s, Run (scheduledStep tinyGeometry) (FairlyScheduled tinyGeometry) (initScheduledFirmware tinyGeometry)
        [.alloc [], .submit 0 writeBackReq [], .alloc [], .submit 1 hostReadReq []] s ∧
      ¬ s.scheduler.layer.LowLevelReqDone ∧
      (CanBeUnfair tinyGeometry s.scheduler.layer ∨
        ∃ n t, s.scheduler.syncAllLowLevelReqDone tinyGeometry ((List.range n).map fun _ => promptTurn) = some t) := by
  have done : (exec (scheduledStep tinyGeometry) (fun s op => fairWithoutTurns tinyGeometry s op)
      (initScheduledFirmware tinyGeometry) [.alloc [], .submit 0 writeBackReq [], .alloc [], .submit 1 hostReadReq []]).any
      (fun s => ¬ s.scheduler.layer.LowLevelReqDone ∧
        (loopWhile (fun t => ¬ t.layer.LowLevelReqDone)
          (fun s hw => if promptCheck s then s.schedulingTurn tinyGeometry hw else none)
          (List.replicate 6 promptTurn) s.scheduler).isSome) = true := by decide +kernel
  obtain ⟨s, run, shown⟩ := run_of_exec_any done
  obtain ⟨busy, ended⟩ := of_decide_eq_true shown
  have run' := run.mono fun _ _ fair => fairlyScheduled_of_fairWithoutTurns fair
  have prompt : promptHardware.Answers tinyGeometry := by
    have taken : (1 : Nat) ≠ 0 := by decide
    have transferred : v2fTransferComplete 1 = true := by decide
    have reported : v2fRequestReportDone 0xc1 = true := by decide
    have ready : v2fWayReady 0xff 0 = true := by decide
    refine ⟨fun _ => taken, fun _ wayNo inside => ?_, fun _ => transferred, fun _ => reported⟩
    obtain rfl : wayNo = 0 := Nat.lt_one_iff.mp inside
    exact ready
  have passes : ∀ m t, Run (Scheduler.schedulingTurn tinyGeometry) (fun t _ => ¬ t.layer.LowLevelReqDone) s.scheduler
      ((List.range m).map fun _ => promptTurn) t → ¬ t.layer.LowLevelReqDone → promptCheck t = true := by
    intro m t turns more
    rw [List.map_const', List.length_range] at turns
    exact Runs.watched_of_loopWhile ended turns more
  refine ⟨s, run', busy, (waits_end_of_scheduledRun (by decide) (by decide) run').1 _ ⟨?_, ?_, ?_⟩⟩
  · have complete : v2fRequestComplete (v2fEliminateReportDoneFlag 0xc1) = true := by decide
    exact fun _ _ _ _ _ => complete
  · intro m t turns more
    have fits := (Bool.and_eq_true_iff.mp (passes m t turns more)).1
    refine ⟨fun _ _ _ => le_rfl, fun visits layer ran visit listed => ?_⟩
    rw [show t.layer.checkDoneNvmeDmaReq tinyGeometry promptTurn.completed = some (visits, layer) from ran] at fits
    exact of_decide_eq_true fits visit listed
  · intro n
    refine ⟨n, le_rfl, fun t turns more => ⟨fun dir => ?_, fun _ _ => prompt⟩⟩
    have all := of_decide_eq_true (Bool.and_eq_true_iff.mp (passes n t turns more)).2
    cases dir with
    | rx => exact all.1
    | tx => exact all.2

end

end OcpFw
