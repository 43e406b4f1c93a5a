import Mathlib.Data.Finset.Max
import OcpFw.ReadsFirst

/-! The request layer drains. As long as something is outstanding the hardware has something
to finish, or the oldest request of all passes its check when its die is looked at again; so
no wait of the firmware is forever, unless some check lets a request overtake an ERASE, or
leaves one blocked without its flag. -/
namespace OcpFw
open RequestLayer
open Runs (Run exec run_of_exec_any)
open BlockReq (Progress)

variable {g : Geometry} {b : BlockAddr} {s s' : RequestLayer} {held flight : Finset Nat} {x y : Nat}
  {queued : ReqQueue → List Nat} {select : Bool} {req : SsdReq} {chNo wayNo : Nat}

/-! ### No assertion fails -/

/-- A transfer of an entry within the offsets a command can have, or a NAND request to a
virtual page; a checked one has a code that can be checked. -/
def Issuable (req : SsdReq) : Prop :=
  (req.reqType = .nvmeDma ∧ req.dataBufFormat = .entry ∧ (req.reqCode = .rxDma ∨ req.reqCode = .txDma) ∧
    req.nvmeDmaInfo.startIndex + req.nvmeDmaInfo.numOfNvmeBlock ≤ 256) ∨
  (req.reqType = .nand ∧ req.nandAddr = .vsa ∧
    (req.rowAddrDependencyCheck = true → req.reqCode = .read ∨ req.reqCode = .write ∨ req.reqCode = .erase))

instance (req : SsdReq) : Decidable (Issuable req) := by
  unfold Issuable
  infer_instance

theorem startReleasedReq_isSome (issuable : Issuable (s.reqPool x)) : ∃ s', s.startReleasedReq g x = some s' := by
  rcases issuable with ⟨type, format, code, fits⟩ | ⟨type, addr, code⟩
  · have some := (issueNvmeDmaReq_isSome (g := g) (h := s.hostDma) type format code (by omega)).mpr
      fun i low => by omega
    obtain ⟨⟨req, hostDma⟩, issued⟩ := Option.isSome_iff_exists.mp some
    simp [startReleasedReq, type, startNvmeDmaReq, issued]
  · simp only [startReleasedReq, type, addr, dispatchNandReq]
    split
    · rename_i check
      obtain ⟨pass, t, checked⟩ := @checkRowAddrDep_isSome g s x false ⟨check, addr, code check⟩
      rw [show CheckRowAddrDepOpt.release = settled false from rfl, checked]
      cases pass <;> exact ⟨_, rfl⟩
    · exact ⟨_, rfl⟩

theorem releaseBlockedByBufDepReq_isSome
    (issuable : ∀ t, s.reqQueueType t = .blockedByBufDep → Issuable (s.reqPool t)) :
    ∃ s', s.releaseBlockedByBufDepReq g x = some s' := by
  simp only [releaseBlockedByBufDepReq]
  split
  · rename_i held
    exact startReleasedReq_isSome (issuable _ held.2)
  · exact ⟨_, rfl⟩

/-! ### How far a request has to go -/

/-- How many events a request can still wait for. -/
def ReqQueueType.toGo : ReqQueueType → Nat
  | .blockedByBufDep => 3
  | .blockedByRowAddrDep => 2
  | .nvmeDma | .nand => 1
  | _ => 0

namespace RequestLayer

def toGo (g : Geometry) (s : RequestLayer) : Nat :=
  ∑ x ∈ Finset.range (availableOutstandingReqCount g), (s.reqQueueType x).toGo

/-- No request falls back, and one goes on. -/
structure GoesOn (s s' : RequestLayer) (x : Nat) : Prop where
  le : ∀ y, (s'.reqQueueType y).toGo ≤ (s.reqQueueType y).toGo
  lt : (s'.reqQueueType x).toGo < (s.reqQueueType x).toGo
  held : ∀ y, s'.reqQueueType y = .blockedByBufDep → s.reqQueueType y = .blockedByBufDep ∧ s'.reqPool y = s.reqPool y
  settled : ∀ y, (s'.reqQueueType y).toGo = 0 → s'.reqQueueType y = s.reqQueueType y ∨ s'.reqQueueType y = .free

theorem GoesOn.toGo_lt (goes : GoesOn s s' x) (slot : x < availableOutstandingReqCount g) : s'.toGo g < s.toGo g :=
  Finset.sum_lt_sum (fun y _ => goes.le y) ⟨x, Finset.mem_range.mpr slot, goes.lt⟩

/-- A request leaves the hardware, and what waited for its buffer is placed. -/
theorem complete_goesOn {queues : RequestQueues} (slots : SlotsOk g s held flight) (retires : s.Retires x queues)
    (done : (s.setQueues queues).releaseBlockedByBufDepReq g x = some s') : GoesOn s s' x := by
  obtain ⟨queued, queuesOk⟩ := slots.queued
  obtain ⟨busy, types, -⟩ := retires.spec queuesOk
  have type : ∀ y, ((s.setQueues queues).cut x).reqQueueType y = Function.update s.queues.reqQueueType x .free y :=
    fun y => congrFun types y
  have mine : 0 < (s.reqQueueType x).toGo := by
    rcases busy with dma | nand
    · simp [dma, ReqQueueType.toGo]
    · simp [nand, ReqQueueType.toGo]
  have retired : GoesOn s ((s.setQueues queues).cut x) x := by
    refine ⟨fun y => ?_, by simpa [type, ReqQueueType.toGo] using mine, fun y blocked => ?_, fun y _ => ?_⟩
    · rw [type]
      by_cases same : y = x
      · subst same
        rw [Function.update_self]
        exact Nat.zero_le _
      · rw [Function.update_of_ne same]
    · rw [type] at blocked
      by_cases same : y = x
      · subst same
        rw [Function.update_self] at blocked
        cases blocked
      · rw [Function.update_of_ne same] at blocked
        exact ⟨blocked, rfl⟩
    · rw [type]
      by_cases same : y = x
      · subst same
        rw [Function.update_self]
        exact .inr rfl
      · rw [Function.update_of_ne same]
        exact .inl rfl
  rcases releaseBlockedByBufDepReq_cases done with ⟨-, rfl⟩ | ⟨⟨-, blocked⟩, started⟩
  · exact retired
  · set t := (s.setQueues queues).blocking.nextBlockingReq x
    have submittable := (slots.retire retires).submittable t blocked
    have placed := Placed.of_startReleasedReq started submittable.1
    obtain ⟨released, others, -⟩ := placed.released submittable
    have blocked' : ((s.setQueues queues).cut x).reqQueueType t = .blockedByBufDep := blocked
    have diff : x ≠ t := by
      intro same
      rw [← same, type, Function.update_self] at blocked'
      cases blocked'
    have kept : ∀ y, y ≠ t → s'.reqQueueType y = ((s.setQueues queues).cut x).reqQueueType y := fun y other =>
      (others y other).trans (Function.update_of_ne other ..)
    have before : s.reqQueueType t = .blockedByBufDep := (retired.held t blocked').1
    have low : (s'.reqQueueType t).toGo ≤ 2 := by
      rcases released with now | now | now <;> simp [now, ReqQueueType.toGo]
    have positive : 0 < (s'.reqQueueType t).toGo := by
      rcases released with now | now | now <;> simp [now, ReqQueueType.toGo]
    refine ⟨fun y => ?_, by rw [kept x diff]; exact retired.lt, fun y waits => ?_, fun y zero => ?_⟩
    · by_cases same : y = t
      · rw [same, before]
        exact low.trans (by simp [ReqQueueType.toGo])
      · rw [kept y same]
        exact retired.le y
    · have other : y ≠ t := by
        rintro rfl
        rcases released with now | now | now <;> rw [now] at waits <;> cases waits
      rw [kept y other] at waits
      obtain ⟨old, same⟩ := retired.held y waits
      exact ⟨old, (placed.undisturbed other).1.trans same⟩
    · have other : y ≠ t := by
        rintro rfl
        omega
      rw [kept y other] at zero ⊢
      exact retired.settled y zero

/-- A die is looked at again, and one of its requests passes its check. -/
theorem recheck_goesOn (queuesOk : QueuesOk g s.queues queued)
    (checkable : ∀ x ∈ queued (.blockedByRowAddrDep chNo wayNo), Checkable (s.reqPool x))
    (passes : ∃ x ∈ queued (.blockedByRowAddrDep chNo wayNo), s.Permitted g x) :
    ∃ s' x, s.releaseBlockedByRowAddrDepReq g chNo wayNo = some s' ∧
      x ∈ queued (.blockedByRowAddrDep chNo wayNo) ∧ GoesOn s s' x := by
  have turns := queuesOk.length_le (.blockedByRowAddrDep chNo wayNo)
  have all : queued (.blockedByRowAddrDep chNo wayNo) = [] ++ queued (.blockedByRowAddrDep chNo wayNo) := rfl
  obtain ⟨s', queued', done, after, -, moved⟩ := scan_moves queuesOk all turns checkable
  obtain ⟨x, listed, now⟩ := moved passes
  have kept := @scan_closed g s s' queued (fun _ _ => True)
    (fun t => (∀ y, (t.reqQueueType y).toGo ≤ (s.reqQueueType y).toGo) ∧
      (∀ y, t.reqQueueType y = .blockedByBufDep → s.reqQueueType y = .blockedByBufDep ∧ t.reqPool y = s.reqPool y) ∧
      ∀ y, (t.reqQueueType y).toGo = 0 → t.reqQueueType y = s.reqQueueType y ∨ t.reqQueueType y = .free)
    chNo wayNo (by
      intro t queued x t' inv queues listed _ turn
      obtain ⟨-, ⟨-, rfl⟩ | ⟨-, rfl⟩⟩ := recheckRowAddrDep_cases turn
      · have moved : ∀ y, (((t.passed g x false).setQueues (t.queues.selectiveGetFromBlockedByRowAddrDepReqQ x chNo
            wayNo)).putToNandReqQ x chNo wayNo).reqQueueType y =
            Function.update (Function.update t.queues.reqQueueType x .none) x .nand y := fun _ => rfl
        have row : t.reqQueueType x = .blockedByRowAddrDep := queues.typed _ x listed
        refine ⟨fun y => ?_, fun y waits => ?_, fun y zero => ?_⟩
        · rw [moved]
          by_cases same : y = x
          · subst same
            have before := inv.1 y
            rw [row] at before
            rw [Function.update_self]
            exact le_trans (by simp [ReqQueueType.toGo]) before
          · rw [Function.update_of_ne same, Function.update_of_ne same]
            exact inv.1 y
        · rw [moved] at waits
          by_cases same : y = x
          · subst same
            rw [Function.update_self] at waits
            cases waits
          · rw [Function.update_of_ne same, Function.update_of_ne same] at waits
            exact inv.2.1 y waits
        · rw [moved] at zero ⊢
          by_cases same : y = x
          · subst same
            simp [ReqQueueType.toGo] at zero
          · rw [Function.update_of_ne same, Function.update_of_ne same] at zero ⊢
            exact inv.2.2 y zero
      · exact inv)
  rw [← queuesOk.holds.head] at done
  have scanned := kept ⟨fun _ => le_rfl, fun y waits => ⟨waits, rfl⟩, fun _ _ => .inl rfl⟩ queuesOk all (fun _ _ => trivial)
    (by rw [← queuesOk.holds.head]; exact done)
  refine ⟨s', x, done, listed, scanned.1, ?_, scanned.2.1, scanned.2.2⟩
  have row : s.reqQueueType x = .blockedByRowAddrDep := queuesOk.typed _ x listed
  have nand : s'.reqQueueType x = .nand := after.typed _ x now
  simp [row, nand, ReqQueueType.toGo]

end RequestLayer

/-! ### Something goes on -/

/-- With nothing at the hardware the oldest request passes its check. -/
theorem WaitOk.exists_permitted (ok : WaitOk g s held flight)
    (idle : ∀ x, s.reqQueueType x ≠ .nvmeDma ∧ s.reqQueueType x ≠ .nand) (some : ∃ x, s.Blocked x) :
    ∃ y, s.reqQueueType y = .blockedByRowAddrDep ∧ s.Permitted g y := by
  obtain ⟨⟨⟨slots, chain, chains⟩, blocks⟩, first⟩ := ok
  have waiting : ∀ b, WaitingOk g b s flight := fun b => (blocks b).2.1.waiting
  have waits : ∀ x, s.Blocked x → s.Waiting flight x := fun x blocked =>
    blocked.elim .inl fun row => .inr (.inl row)
  obtain ⟨z, blocked⟩ := some
  have inPool : ∀ x, s.Blocked x → x ∈ (Finset.range (availableOutstandingReqCount g)).filter fun x => s.Blocked x :=
    fun x blocked => by simpa using ⟨(waiting ⟨0, 0, 0⟩).inPool x (waits x blocked), blocked⟩
  obtain ⟨y, member, oldest⟩ := Finset.exists_min_image _ s.submission ⟨z, inPool z blocked⟩
  have blockedY : s.Blocked y := (Finset.mem_filter.mp member).2
  have oldest' : ∀ x, s.Blocked x → s.submission y ≤ s.submission x := fun x blocked => oldest x (inPool x blocked)
  have none : ∀ x, s.Outstanding x ∨ x ∈ flight → ¬ s.submission x < s.submission y := by
    rintro x ((held | row | dma | nand) | inFlight)
    · exact Nat.not_lt.mpr (oldest' x (.inl held))
    · exact Nat.not_lt.mpr (oldest' x (.inr row))
    · exact absurd dma (idle x).1
    · exact absurd nand (idle x).2
    · exact Nat.not_lt.mpr ((waiting ⟨0, 0, 0⟩).newest x inFlight y (waits y blockedY))
  have row : s.reqQueueType y = .blockedByRowAddrDep := by
    refine blockedY.resolve_left fun held => ?_
    obtain ⟨e, listed⟩ := chains.blocked y held
    cases shape : chain e with
    | nil => simp [shape] at listed
    | cons x xs =>
      rw [shape] at listed
      rcases List.mem_cons.mp listed with rfl | later
      · exact chains.head e y xs shape held
      · have order := chains.order e
        rw [shape] at order
        exact none x (chains.member e x (by simp [shape])) ((List.pairwise_cons.mp order).1 y later)
  refine ⟨y, row, ?_⟩
  have check := (blocks ⟨0, 0, 0⟩).2.2.checkable y row
  set b := blockAddr g (s.reqPool y).virtualSliceAddr with block
  obtain ⟨⟨order, allowed⟩, -, ledger⟩ := blocks b
  obtain ⟨e, progress⟩ := order.progress
  have asks : ∃ r, blockReq g b (s.reqPool y) = Option.some r := by
    obtain ⟨-, addr, code⟩ := check
    have type := order.rowNand y row
    rcases code with code | code | code <;> simp [blockReq, type, addr, code, ← block]
  obtain ⟨r, kind⟩ := asks
  have here := (waiting b).here (waits y blockedY)
  rw [kind] at here
  have fits := progress.first_fits allowed here (order.notStarted y (waits y blockedY)) (by
    intro j q less listed
    by_contra out
    obtain ⟨x, w, rfl⟩ := order.covered j q listed out
    refine none x ?_ less
    rcases w with held | row | inFlight
    · exact .inl (.inl held)
    · exact .inl (.inr (.inl row))
    · exact .inr inFlight)
  obtain ⟨own, code⟩ := blockReq_cases kind
  unfold Permitted RowAddrDependency.Permits
  rw [dependency, own]
  rcases code with ⟨code, rfl⟩ | ⟨code, rfl⟩ | ⟨code, rfl⟩ <;> simp only [code]
  · exact fits
  · exact fits
  · have full := Nat.le_antisymm ledger.tally.bounded fits
    refine ⟨full.trans (order.whole y (waits y blockedY) kind).1.symm, ?_⟩
    rw [order.counted, Finset.card_eq_zero, Finset.eq_empty_iff_forall_notMem]
    intro i member
    obtain ⟨⟨p, read⟩, out, settled⟩ := WaitingOk.mem_readsWaiting.mp member
    obtain ⟨x, w, rfl⟩ := order.covered i (.read p) read out
    have readX : blockReq g b (s.reqPool x) = Option.some (.read p) := by
      have mine := (waiting b).here w
      rw [read, Option.some.injEq] at mine
      exact mine.symm
    have blockedX : s.Blocked x := by
      rcases w with held | row | inFlight
      · exact .inl held
      · exact .inr row
      · exact absurd (Finset.mem_image_of_mem _ inFlight) settled
    have older := first b x y p blockedX readX row kind
    have notOlder := oldest' x blockedX
    omega

/-- The requests held back for a buffer pass all assertions when they are released. -/
def HeldIssuable (s : RequestLayer) : Prop := ∀ x, s.reqQueueType x = .blockedByBufDep → Issuable (s.reqPool x)

/-- Whether an event makes fair checks only. -/
def EventFair (g : Geometry) (s : RequestLayer) (e : Event) : Prop := ∀ p ∈ s.eventChecks g e, PassesFairly g p.1 p.2

instance (g : Geometry) (s : RequestLayer) (e : Event) : Decidable (EventFair g s e) := by
  unfold EventFair
  infer_instance

/-- The hardware finishes a request. -/
theorem HeldIssuable.retires {queues : RequestQueues} (issuable : HeldIssuable s) (slots : SlotsOk g s held flight)
    (retires : s.Retires x queues) :
    ∃ s', (s.setQueues queues).releaseBlockedByBufDepReq g x = some s' ∧ GoesOn s s' x := by
  obtain ⟨queued, queuesOk⟩ := slots.queued
  obtain ⟨-, types, -⟩ := retires.spec queuesOk
  obtain ⟨s', done⟩ := @releaseBlockedByBufDepReq_isSome g (s.setQueues queues) x fun t held => by
    have type : Function.update s.queues.reqQueueType x .free t = .blockedByBufDep := congrFun types t ▸ held
    refine issuable t ?_
    by_cases same : t = x
    · subst same
      rw [Function.update_self] at type
      cases type
    · rwa [Function.update_of_ne same] at type
  exact ⟨s', done, complete_goesOn slots retires done⟩

theorem HeldIssuable.finishes {chNo wayNo : Nat} (issuable : HeldIssuable s) (slots : SlotsOk g s held flight)
    (real : s.queues.links.head (.nand chNo wayNo) ≠ reqSlotTagNone) :
    ∃ s', s.getFromNandReqQ g chNo wayNo = some s' ∧
      s.queues.links.head (.nand chNo wayNo) < availableOutstandingReqCount g ∧
      GoesOn s s' (s.queues.links.head (.nand chNo wayNo)) := by
  obtain ⟨queued, queuesOk⟩ := slots.queued
  have taken : s.queues.getFromNandReqQ chNo wayNo = some (s.queues.links.head (.nand chNo wayNo),
      (s.queues.getFrom (.nand chNo wayNo)).putToFreeReqQ (s.queues.links.head (.nand chNo wayNo))) := by
    rw [RequestQueues.getFromNandReqQ, if_neg real]
  obtain ⟨s', released, goes⟩ := issuable.retires slots (.inr ⟨chNo, wayNo, taken⟩)
  obtain ⟨xs, shape⟩ := queuesOk.head_cons real
  refine ⟨s', ?_, queuesOk.slot (.nand chNo wayNo) _ (by simp [shape]), goes⟩
  rw [getFromNandReqQ, taken]
  exact released

/-- What is neither with the DMA engine nor at a die is blocked. -/
theorem RequestLayer.Outstanding.blocked (busy : s.Outstanding x)
    (idle : s.reqQueueType x ≠ .nvmeDma ∧ s.reqQueueType x ≠ .nand) : s.Blocked x := by
  rcases busy with held | row | type | type
  · exact .inl held
  · exact .inr row
  · exact absurd type idle.1
  · exact absurd type idle.2

/-- While something is outstanding, some event happens in which a request goes on. -/
theorem WaitOk.exists_event (ok : WaitOk g s held flight) (issuable : HeldIssuable s) (busy : s.Outstanding x) :
    ∃ e s' y, s.event g e = some s' ∧ y < availableOutstandingReqCount g ∧ GoesOn s s' y := by
  have slots := ok.1.1.1
  obtain ⟨queued, queuesOk⟩ := slots.queued
  by_cases dma : ∃ y, s.reqQueueType y = .nvmeDma
  · obtain ⟨y, dma⟩ := dma
    obtain ⟨s', done, goes⟩ := issuable.retires slots (.inl ⟨dma, rfl⟩)
    refine ⟨.nvmeDmaDone y, s', y, ?_, queuesOk.slot _ y (queuesOk.mem_nvmeDma.mpr dma), goes⟩
    rw [event, if_pos dma]
    exact done
  by_cases nand : ∃ y, s.reqQueueType y = .nand
  · obtain ⟨y, nand⟩ := nand
    obtain ⟨chNo, -, wayNo, -, listed⟩ := queuesOk.mem_nand nand
    have real : s.queues.links.head (.nand chNo wayNo) ≠ reqSlotTagNone := by
      rw [ne_eq, queuesOk.holds.head_eq_nil]
      exact List.ne_nil_of_mem listed
    obtain ⟨s', done, slot, goes⟩ := issuable.finishes slots real
    exact ⟨.nandDone chNo wayNo, s', _, done, slot, goes⟩
  have idle : ∀ y, s.reqQueueType y ≠ .nvmeDma ∧ s.reqQueueType y ≠ .nand :=
    fun y => ⟨fun type => dma ⟨y, type⟩, fun type => nand ⟨y, type⟩⟩
  obtain ⟨y, row, permitted⟩ := ok.exists_permitted idle ⟨x, busy.blocked (idle x)⟩
  obtain ⟨chNo, -, wayNo, -, listed⟩ := queuesOk.mem_rowAddrDep row
  have checkable : ∀ x ∈ queued (.blockedByRowAddrDep chNo wayNo), Checkable (s.reqPool x) :=
    fun x listed => (ok.1.2 ⟨0, 0, 0⟩).2.2.checkable x (queuesOk.typed _ x listed)
  obtain ⟨s', z, done, member, goes⟩ := recheck_goesOn queuesOk checkable ⟨y, listed, permitted⟩
  have empty : s.queues.links.head (.nand chNo wayNo) = reqSlotTagNone := by
    rw [queuesOk.holds.head_eq_nil, List.eq_nil_iff_forall_not_mem]
    exact fun z listed => (idle z).2 (queuesOk.typed _ z listed)
  exact ⟨.recheck chNo wayNo, s', z, by rw [event, if_pos empty]; exact done, queuesOk.slot _ z member, goes⟩

/-- What was outstanding is outstanding or free. -/
def FreesOnly (s s' : RequestLayer) : Prop := ∀ x, s.Outstanding x → s'.Outstanding x ∨ s'.reqQueueType x = .free

theorem RequestLayer.outstanding_iff : s.Outstanding x ↔ 0 < (s.reqQueueType x).toGo := by
  unfold Outstanding
  cases s.reqQueueType x <;> simp [ReqQueueType.toGo]

theorem FreesOnly.step {t : RequestLayer} (frees : FreesOnly s t) (goes : GoesOn t s' y) : FreesOnly s s' := by
  intro x busy
  by_cases zero : (s'.reqQueueType x).toGo = 0
  · rcases frees x busy with busy' | free
    · refine (goes.settled x zero).imp_left fun same => ?_
      rw [outstanding_iff, ← same, zero] at busy'
      omega
    · refine .inr ((goes.settled x zero).elim (fun same => same.trans free) id)
  · exact .inl (outstanding_iff.mpr (Nat.pos_of_ne_zero zero))

/-- Events bring the layer to where nothing is outstanding, unless one of them makes a check
that is not fair. -/
theorem WaitOk.drains (small : g.userPagesPerBlock < 4096) (ok : WaitOk g s held flight) (issuable : HeldIssuable s) :
    ∃ es s', es.length ≤ s.toGo g ∧ Run (event g) (EventFair g) s es s' ∧ WaitOk g s' held flight ∧ FreesOnly s s' ∧
      ((∀ x, ¬ s'.Outstanding x) ∨ ∃ e, (s'.event g e).isSome ∧ ¬ EventFair g s' e) := by
  obtain ⟨es, s', short, run, ⟨ok', -, frees⟩, final⟩ := @Run.exists_final _ _ (event g) (EventFair g) s
    (fun t => WaitOk g t held flight ∧ HeldIssuable t ∧ FreesOnly s t) (toGo g)
    (fun t => (∀ x, ¬ t.Outstanding x) ∨ ∃ e, (t.event g e).isSome ∧ ¬ EventFair g t e) (by
      rintro t ⟨ok, issuable, frees⟩
      by_cases drained : ∀ x, ¬ t.Outstanding x
      · exact .inl (.inl drained)
      push Not at drained
      obtain ⟨x, busy⟩ := drained
      obtain ⟨e, t', y, done, slot, goes⟩ := ok.exists_event issuable busy
      by_cases fair : EventFair g t e
      · refine .inr ⟨e, t', fair, done, ⟨?_, fun z held => ?_, frees.step goes⟩, goes.toGo_lt slot⟩
        · exact event_closed (waitOk_events small) ok (fun p member b => (fair p member).all b) done
        · obtain ⟨before, same⟩ := goes.held z held
          exact same ▸ issuable z before
      · exact .inl (.inr ⟨e, by rw [done]; rfl, fair⟩)) ⟨ok, issuable, fun _ busy => .inl busy⟩
  exact ⟨es, s', short, run, ok', frees, final⟩

/-! ### The waits of the firmware end -/

theorem RequestLayer.toGo_le : s.toGo g ≤ 3 * availableOutstandingReqCount g := by
  have each : ∀ x ∈ Finset.range (availableOutstandingReqCount g), (s.reqQueueType x).toGo ≤ 3 := by
    intro x _
    cases s.reqQueueType x <;> simp [ReqQueueType.toGo]
  have total := Finset.sum_le_card_nsmul _ _ 3 each
  rwa [Finset.card_range, smul_eq_mul, Nat.mul_comm] at total

/-- The wait may end: a bounded number of events whose checks are fair lead to where it does,
or to where a check that is not fair can happen. -/
def CanEnd (g : Geometry) (s : RequestLayer) (done : RequestLayer → Prop) : Prop :=
  ∃ es s', es.length ≤ 3 * availableOutstandingReqCount g ∧ Run (event g) (EventFair g) s es s' ∧
    (done s' ∨ ∃ e, (s'.event g e).isSome ∧ ¬ EventFair g s' e)

theorem WaitOk.canEnd {done : RequestLayer → Prop} (small : g.userPagesPerBlock < 4096) (ok : WaitOk g s held flight)
    (issuable : HeldIssuable s) (drained : ∀ s', WaitOk g s' held flight → FreesOnly s s' →
      (∀ x, ¬ s'.Outstanding x) → done s') : CanEnd g s done := by
  obtain ⟨es, s', short, run, ok', frees, final⟩ := ok.drains small issuable
  exact ⟨es, s', short.trans toGo_le, run, final.imp_left (drained s' ok' frees)⟩

/-- With nothing outstanding the drain loop ends. -/
theorem SlotsOk.done_of_idle (ok : SlotsOk g s held flight) (idle : ∀ x, ¬ s.Outstanding x) : s.LowLevelReqDone := by
  obtain ⟨queued, queues⟩ := ok.queued
  have empty : ∀ q : ReqQueue, q.queueType.toGo ≠ 0 → queued q = [] := by
    intro q busy
    rw [List.eq_nil_iff_forall_not_mem]
    intro x listed
    have type : s.reqQueueType x = q.queueType := queues.typed q x listed
    exact idle x (outstanding_iff.mpr (by rw [type]; omega))
  have zero : ∀ c, s.queues.sharedCnt c = 0 := by
    intro c
    rw [queues.sharedCnt, Finset.sum_eq_zero_iff]
    intro q counted
    refine List.length_eq_zero_iff.mpr (empty q ?_)
    cases c <;> simp only [countedQueues, Finset.mem_insert, Finset.mem_image] at counted
    · obtain ⟨_, -, rfl⟩ := counted
      simp [ReqQueue.queueType, ReqQueueType.toGo]
    · rcases counted with rfl | ⟨_, -, rfl⟩ <;> simp [ReqQueue.queueType, ReqQueueType.toGo]
  exact ⟨queues.holds.head_eq_nil.mpr (empty .nvmeDma (by simp [ReqQueue.queueType, ReqQueueType.toGo])),
    zero _, zero _⟩

/-- What an operation submits is in turn and passes the assertions, and its checks are fair. -/
def WorksFairly (g : Geometry) (fw : Firmware) (op : RequestOp) : Prop :=
  SubmitsInOrder g fw op ∧ (∀ req ∈ opSubmits op, Issuable req) ∧ ChecksFairly g fw op

instance (g : Geometry) (fw : Firmware) (op : RequestOp) : Decidable (WorksFairly g fw op) := by
  unfold WorksFairly
  infer_instance

theorem WaitOk.heldIssuable (ok : WaitOk g s held flight) (issuable : ∀ req ∈ s.submissions, Issuable req) :
    HeldIssuable s := by
  intro x blocked
  have stamp := (ok.1.2 ⟨0, 0, 0⟩).2.1.waiting.stamp x (.inl blocked)
  exact issuable _ (List.mem_of_getElem? stamp)

theorem waitOk_of_run {ops : List RequestOp} {fw : Firmware} (small : g.userPagesPerBlock < 4096)
    (run : Run (requestStep g) (WorksFairly g) (initFirmware g) ops fw) :
    WaitOk g fw.layer fw.held ∅ ∧ ∀ req ∈ fw.layer.submissions, Issuable req := by
  apply run.invariant (fun fw => WaitOk g fw.layer fw.held ∅ ∧ ∀ req ∈ fw.layer.submissions, Issuable req)
    ⟨.init small, by simp [initFirmware, initRequestLayer]⟩
  intro fw op fw' ok met step
  refine ⟨ok.1.step small met.1 met.2.2 step, ?_⟩
  rw [requestStep_submissions ok.1.1.1 step]
  intro req member
  rcases List.mem_append.mp member with old | new
  · exact ok.2 req old
  · exact met.2.1 req new

/-- In every run that submits in turn and whose checks are fair, no wait of the firmware is
forever: the drain loop can end, so can the wait for a free slot while something is
outstanding, and so can at any time the wait of a READ for the ERASE of its block. Else a
check can happen that is not fair. -/
theorem waits_end_of_run {ops : List RequestOp} {fw : Firmware} (small : g.userPagesPerBlock < 4096)
    (run : Run (requestStep g) (WorksFairly g) (initFirmware g) ops fw) :
    CanEnd g fw.layer LowLevelReqDone ∧
    ((∃ x, fw.layer.Outstanding x) → CanEnd g fw.layer fun s => s.queues.links.head .free ≠ reqSlotTagNone) ∧
    ∀ x req es s, x ∈ fw.held → (∀ b, SubmitsInTurn g b fw.layer req) → Issuable req →
      Run (event g) (EventFair g) (fw.layer.prepare x req) es s →
      CanEnd g s fun s => (s.rowAddrDependency (blockAddr g req.virtualSliceAddr)).blockedEraseReqFlag = false := by
  obtain ⟨ok, issuable⟩ := waitOk_of_run small run
  refine ⟨?_, fun some => ?_, fun x req es s member turn mine waited => ?_⟩
  · exact ok.canEnd small (ok.heldIssuable issuable) fun s' ok' _ idle => ok'.1.1.1.done_of_idle idle
  · obtain ⟨x, busy⟩ := some
    refine ok.canEnd small (ok.heldIssuable issuable) fun s' ok' frees idle => ?_
    obtain ⟨queued, queues⟩ := ok'.1.1.1.queued
    have free := (frees x busy).resolve_left (idle x)
    rw [ne_eq, queues.holds.head_eq_nil]
    exact List.ne_nil_of_mem (queues.mem_free free)
  · have start := ok.prepare small member turn
    have now : WaitOk g s (fw.held.erase x) {x} ∧ s.submissions = fw.layer.submissions ++ [req] := by
      apply waited.invariant (fun s => WaitOk g s (fw.held.erase x) {x} ∧
        s.submissions = fw.layer.submissions ++ [req]) ⟨start, rfl⟩
      intro t e t' inv fair done
      exact ⟨event_closed (waitOk_events small) inv.1 (fun p member b => (fair p member).all b) done,
        (event_submissions inv.1.1.1 done).trans inv.2⟩
    have all : ∀ req' ∈ s.submissions, Issuable req' := by
      rw [now.2]
      intro req' listed
      rcases List.mem_append.mp listed with old | new
      · exact issuable req' old
      · exact List.mem_singleton.mp new ▸ mine
    refine now.1.canEnd small (now.1.heldIssuable all) fun s' ok' _ idle => ?_
    rw [← Bool.not_eq_true]
    intro flag
    obtain ⟨y, row, -⟩ := (ok'.1.2 _).2.1.flag.mp flag
    exact idle y (.inr (.inl row))

/-- The ERASE and a WRITE of the next generation wait for a READ that a transfer holds back. -/
theorem waits_end_of_run_blockedErase :
    ∃ fw, Run (requestStep tinyGeometry) (WorksFairly tinyGeometry) (initFirmware tinyGeometry)
      [.alloc [], .submit 0 (blockReqOf .write 0 (some 0)) [], .alloc [], .submit 1 (blockReqOf .write 1 (some 1)) [],
        .alloc [], .submit 2 { hostReadReq with reqCode := .rxDma, dataBufInfo := 2 } [],
        .alloc [], .submit 3 (blockReqOf .read 0 (some 2)) [], .alloc [], .submit 4 (blockReqOf .erase 0 none) [],
        .alloc [], .submit 5 (blockReqOf .write 0 (some 3)) [], .alloc []] fw ∧
      fw.layer.reqQueueType 4 = .blockedByRowAddrDep ∧ fw.layer.reqQueueType 5 = .blockedByRowAddrDep ∧
      CanEnd tinyGeometry fw.layer LowLevelReqDone := by
  have done : (exec (requestStep tinyGeometry) (WorksFairly tinyGeometry) (initFirmware tinyGeometry)
      [.alloc [], .submit 0 (blockReqOf .write 0 (some 0)) [], .alloc [], .submit 1 (blockReqOf .write 1 (some 1)) [],
        .alloc [], .submit 2 { hostReadReq with reqCode := .rxDma, dataBufInfo := 2 } [],
        .alloc [], .submit 3 (blockReqOf .read 0 (some 2)) [], .alloc [], .submit 4 (blockReqOf .erase 0 none) [],
        .alloc [], .submit 5 (blockReqOf .write 0 (some 3)) [], .alloc []]).any
      (fun fw => fw.layer.reqQueueType 4 = .blockedByRowAddrDep ∧
        fw.layer.reqQueueType 5 = .blockedByRowAddrDep) = true := by decide +kernel
  obtain ⟨fw, run, shown⟩ := run_of_exec_any done
  obtain ⟨erase, write⟩ := of_decide_eq_true shown
  exact ⟨fw, run, erase, write, (waits_end_of_run (by decide) run).1⟩

/-! ### A deadlock -/

/-- With nothing at the hardware, and no request that passes its check, nothing happens. -/
theorem SlotsOk.stuck {e : Event} (ok : SlotsOk g s held flight)
    (idle : ∀ x, s.reqQueueType x ≠ .nvmeDma ∧ s.reqQueueType x ≠ .nand)
    (refused : ∀ x, s.reqQueueType x = .blockedByRowAddrDep → ¬ s.Permitted g x) (done : s.event g e = some s') :
    s' = s := by
  obtain ⟨queued, queues⟩ := ok.queued
  have none : ∀ chNo wayNo, s.queues.links.head (.nand chNo wayNo) = reqSlotTagNone := by
    intro chNo wayNo
    rw [queues.holds.head_eq_nil, List.eq_nil_iff_forall_not_mem]
    exact fun x listed => (idle x).2 (queues.typed _ x listed)
  cases e with
  | nvmeDmaDone x =>
    rw [event, if_neg (idle x).1] at done
    cases done
  | nandDone chNo wayNo =>
    obtain ⟨queues', taken, -⟩ := getFromNandReqQ_cases done
    rw [RequestQueues.getFromNandReqQ, if_pos (none chNo wayNo)] at taken
    cases taken
  | readPhase chNo wayNo transfer =>
    simp only [event, none, ne_eq, not_true_eq_false, false_and, ↓reduceIte, reduceCtorEq] at done
  | recheck chNo wayNo =>
    rw [event, if_pos (none chNo wayNo), releaseBlockedByRowAddrDepReq, queues.holds.head] at done
    have all : queued (.blockedByRowAddrDep chNo wayNo) = [] ++ queued (.blockedByRowAddrDep chNo wayNo) := rfl
    refine @scan_closed g s s' queued (fun _ _ => True) (fun t => t = s) chNo wayNo ?_ _ _ _ rfl queues all
      (fun _ _ => trivial) done
    rintro t queued' x t' rfl queues' listed - turn
    obtain ⟨-, ⟨permitted, -⟩ | ⟨-, rfl⟩⟩ := recheckRowAddrDep_cases turn
    · exact absurd permitted (refused x (queues'.typed _ x listed))
    · rfl

/-- Two ERASEs of a block wait at once, and the first one that goes clears the flag of both.
A READ that comes next does not wait, and is counted: the second ERASE waits for the READ, the
READ for the buffer of a WRITE, and the WRITE for the ERASE. -/
def readBehindErase : List RequestOp :=
  [.alloc [], .submit 0 (blockReqOf .write 0 (some 0)) [], .alloc [], .submit 1 (blockReqOf .write 1 (some 1)) [],
    .event (.nandDone 0 0), .event (.nandDone 0 0),
    .alloc [], .submit 2 { hostReadReq with reqCode := .rxDma, dataBufInfo := 5 } [],
    .alloc [], .submit 3 (blockReqOf .read 0 (some 5)) [],
    .alloc [], .submit 4 (blockReqOf .erase 0 none) [],
    .alloc [], .submit 5 (blockReqOf .write 0 (some 2)) [],
    .alloc [], .submit 6 { hostReadReq with reqCode := .rxDma, dataBufInfo := 3 } [],
    .alloc [], .submit 7 (blockReqOf .write 1 (some 3)) [],
    .alloc [], .submit 8 (blockReqOf .erase 0 none) [],
    .event (.nvmeDmaDone 2), .event (.nandDone 0 0), .event (.recheck 0 0),
    .event (.nandDone 0 0), .event (.nandDone 0 0),
    .alloc [], .submit 9 (blockReqOf .write 0 (some 4)) [],
    .alloc [], .submit 10 (blockReqOf .read 0 (some 4)) [],
    .event (.nvmeDmaDone 6), .event (.nandDone 0 0), .event (.recheck 0 0)]

/-- Without the condition on the checks the layer can stop for good: whatever happens, the
drain loop goes on. -/
theorem waits_forever :
    ∃ fw, Run (requestStep tinyGeometry)
        (fun fw op => SubmitsInOrder tinyGeometry fw op ∧ ∀ req ∈ opSubmits op, Issuable req)
        (initFirmware tinyGeometry) readBehindErase fw ∧
      ¬ fw.layer.LowLevelReqDone ∧ ∀ es s', fw.layer.events tinyGeometry es = some s' → s' = fw.layer := by
  have done : (exec (requestStep tinyGeometry)
      (fun fw op => SubmitsInOrder tinyGeometry fw op ∧ ∀ req ∈ opSubmits op, Issuable req)
      (initFirmware tinyGeometry) readBehindErase).any (fun fw => ¬ fw.layer.LowLevelReqDone ∧
        ∀ x < availableOutstandingReqCount tinyGeometry,
          fw.layer.reqQueueType x ≠ .nvmeDma ∧ fw.layer.reqQueueType x ≠ .nand ∧
          (fw.layer.reqQueueType x = .blockedByRowAddrDep → ¬ fw.layer.Permitted tinyGeometry x)) = true := by
    decide +kernel
  obtain ⟨fw, run, shown⟩ := run_of_exec_any done
  obtain ⟨waits, still⟩ := of_decide_eq_true shown
  have ok := slotsOk_of_run (run.mono fun _ _ _ => trivial)
  obtain ⟨queued, queues⟩ := ok.queued
  have inside : ∀ x, fw.layer.reqQueueType x ≠ .none → x < availableOutstandingReqCount tinyGeometry := by
    intro x busy
    obtain ⟨q, listed⟩ := queues.listed x busy
    exact queues.slot q x listed
  refine ⟨fw, run, waits, fun es => ?_⟩
  induction es with
  | nil =>
    rintro s' ⟨⟩
    rfl
  | cons e es ih =>
    intro s' after
    simp only [events, List.foldlM_cons, Option.bind_eq_bind, Option.bind_eq_some_iff] at after
    obtain ⟨middle, first, rest⟩ := after
    have same : middle = fw.layer := by
      refine ok.stuck (fun x => ⟨fun dma => ?_, fun nand => ?_⟩) (fun x row => ?_) first
      · exact (still x (inside x (by simp [dma]))).1 dma
      · exact (still x (inside x (by simp [nand]))).2.1 nand
      · exact (still x (inside x (by simp [row]))).2.2 row
    subst same
    exact ih s' rest

end OcpFw
