import OcpFw.RequestInvariants
import OcpFw.Runs

/-! No request slot is lost or duplicated: whatever completes in whatever order, every
slot is in the one queue its type names or in the hands of the code that took it, and
the counters the drain loops look at count exactly what is queued. -/
namespace OcpFw
open RequestLayer
open Runs (Run exec run_of_exec)

/-- Every slot is in exactly one queue or taken, and the counters count. -/
structure SlotsConserved (g : Geometry) (s : RequestLayer) (taken : Finset Nat)
    (queued : ReqQueue → List Nat) : Prop where
  wellFormed : Dll.Holds reqSlotTagNone s.queues.links queued
  inPool : ∀ q, ∀ x ∈ queued q, x < availableOutstandingReqCount g
  onePlace : ∀ x < availableOutstandingReqCount g,
    (x ∈ taken ∧ s.reqQueueType x = .none ∧ ∀ q, x ∉ queued q) ∨
    (x ∉ taken ∧ ∃ q, q.queueType = s.reqQueueType x ∧ ∀ q', x ∈ queued q' ↔ q' = q)
  reqCnt : ∀ q, s.queues.reqCnt q = (queued q).length
  notCompletedNandReqCnt : s.queues.notCompletedNandReqCnt =
    ∑ chNo ∈ Finset.range g.userChannels, ∑ wayNo ∈ Finset.range g.userWays,
      (queued (.nand chNo wayNo)).length
  blockedReqCnt : s.queues.blockedReqCnt = (queued .blockedByBufDep).length +
    ∑ chNo ∈ Finset.range g.userChannels, ∑ wayNo ∈ Finset.range g.userWays,
      (queued (.blockedByRowAddrDep chNo wayNo)).length

/-- The invariant behind it: the queues are well formed, the slots of no type are the
taken ones, and what waits for a buffer can be submitted. -/
structure SlotsOk (g : Geometry) (s : RequestLayer) (held flight : Finset Nat) : Prop where
  queued : ∃ queued, QueuesOk g s.queues queued
  taken : ∀ x < availableOutstandingReqCount g,
    s.reqQueueType x = .none ↔ x ∈ held ∨ x ∈ flight
  inPool : ∀ x, x ∈ held ∨ x ∈ flight → x < availableOutstandingReqCount g
  apart : Disjoint held flight
  submittable : ∀ x, s.reqQueueType x = .blockedByBufDep → Submittable g (s.reqPool x)

variable {g : Geometry} {s s' : RequestLayer} {held flight held' flight' : Finset Nat} {x : Nat}
  {queued : ReqQueue → List Nat} {q : ReqQueue}

/-- The die of a submitted NAND request exists. -/
theorem nandDie_lt {req : SsdReq} (ok : Submittable g req) :
    (nandDie g req).1 < g.userChannels ∧ (nandDie g req).2 < g.userWays := by
  cases addr : req.nandAddr with
  | vsa =>
    have die : vsa2VdieTranslation g req.virtualSliceAddr < g.userDies := vdie_lt
    simp only [nandDie, addr, blockAddr, vdie2PchTranslation, vdie2PwayTranslation]
    exact ⟨Nat.mod_lt _ g.channels_pos, Nat.div_lt_of_lt_mul die⟩
  | phyOrg => simpa [nandDie, addr] using ok.2 addr

/-- A request is placed by appending it to a queue for the hardware or for its die. -/
theorem RequestLayer.Placed.queues {select : Bool} (placed : Placed g s x select s')
    (ok : Submittable g (s.reqPool x)) :
    ∃ q : ReqQueue, q.Exists g ∧
      (q.queueType = .nvmeDma ∨ q.queueType = .nand ∨ q.queueType = .blockedByRowAddrDep) ∧
      s'.queues = s.queues.putTo q x := by
  have die := nandDie_lt ok
  rcases placed.cases with ⟨-, info, hostDma, rfl⟩ | ⟨-, chNo, wayNo, named, cases⟩
  · exact ⟨.nvmeDma, trivial, .inl rfl, rfl⟩
  · rw [← named] at die
    rcases cases with ⟨-, rfl⟩ | ⟨-, -, rfl⟩ | ⟨-, -, rfl⟩
    · exact ⟨.nand chNo wayNo, die, .inr (.inl rfl), rfl⟩
    · exact ⟨.nand chNo wayNo, die, .inr (.inl rfl), rfl⟩
    · refine ⟨.blockedByRowAddrDep chNo wayNo, die, .inr (.inr rfl), ?_⟩
      simp [putToBlockedByRowAddrDepReqQ, setQueues, RequestQueues.putToBlockedByRowAddrDepReqQ]

namespace SlotsOk

/-- A slot with a queue type is not taken. -/
theorem busy (ok : SlotsOk g s held flight) (slot : x < availableOutstandingReqCount g)
    (some : s.reqQueueType x ≠ .none) : x ∉ held ∧ x ∉ flight := by
  constructor
  · exact fun member => some ((ok.taken x slot).mpr (.inl member))
  · exact fun member => some ((ok.taken x slot).mpr (.inr member))

/-- A taken slot is appended to a queue. -/
theorem put (ok : SlotsOk g s held flight) (out : x ∈ held ∨ x ∈ flight) (exist : q.Exists g)
    (queues : s'.queues = s.queues.putTo q x)
    (taken : ∀ y, y ∈ held' ∨ y ∈ flight' ↔ (y ∈ held ∨ y ∈ flight) ∧ y ≠ x)
    (apart : Disjoint held' flight') (others : ∀ y, y ≠ x → s'.reqPool y = s.reqPool y)
    (mine : q = .blockedByBufDep → Submittable g (s'.reqPool x)) :
    SlotsOk g s' held' flight' := by
  have inPool := ok.inPool x out
  have none := (ok.taken x inPool).mpr out
  have type : ∀ y, s'.reqQueueType y =
      Function.update s.queues.reqQueueType x q.queueType y := by
    intro y
    rw [reqQueueType, queues]
    rfl
  constructor
  · obtain ⟨queued, queuesOk⟩ := ok.queued
    exact ⟨_, queues ▸ queuesOk.putTo exist inPool none⟩
  · intro y slot
    rw [taken, type]
    by_cases same : y = x
    · simp [same, q.queueType_ne_none]
    · rw [Function.update_of_ne same]
      simpa [same] using ok.taken y slot
  · intro y member
    exact ok.inPool y ((taken y).mp member).1
  · exact apart
  · intro y blocked
    rw [type] at blocked
    by_cases same : y = x
    · subst same
      rw [Function.update_self] at blocked
      apply mine
      cases q <;> simp_all [ReqQueue.queueType]
    · rw [Function.update_of_ne same] at blocked
      rw [others y same]
      exact ok.submittable y blocked

/-- A queued slot is taken out of its queue. -/
theorem take (ok : SlotsOk g s held flight) (slot : x < availableOutstandingReqCount g)
    (queues : ∃ queued, QueuesOk g s'.queues queued)
    (type : s'.queues.reqQueueType = Function.update s.queues.reqQueueType x .none)
    (taken : ∀ y, y ∈ held' ∨ y ∈ flight' ↔ (y ∈ held ∨ y ∈ flight) ∨ y = x)
    (apart : Disjoint held' flight') (reqs : s'.reqPool = s.reqPool) :
    SlotsOk g s' held' flight' := by
  constructor
  · exact queues
  · intro y inPool
    rw [taken, reqQueueType, type]
    by_cases same : y = x
    · simp [same]
    · rw [Function.update_of_ne same]
      simpa [same] using ok.taken y inPool
  · intro y member
    rcases (taken y).mp member with member | rfl
    · exact ok.inPool y member
    · exact slot
  · exact apart
  · intro y blocked
    rw [reqQueueType, type] at blocked
    by_cases same : y = x
    · simp [same] at blocked
    · rw [Function.update_of_ne same] at blocked
      rw [reqs]
      exact ok.submittable y blocked

/-- What leaves the queues and the requests alone. -/
theorem frame (ok : SlotsOk g s held flight) (queues : s'.queues = s.queues)
    (reqs : ∀ y, s.reqQueueType y = .blockedByBufDep → s'.reqPool y = s.reqPool y) :
    SlotsOk g s' held flight := by
  have type : s'.reqQueueType = s.reqQueueType := by
    unfold reqQueueType
    rw [queues]
  constructor
  · rw [queues]
    exact ok.queued
  · rw [type]
    exact ok.taken
  · exact ok.inPool
  · exact ok.apart
  · intro y blocked
    rw [type] at blocked
    rw [reqs y blocked]
    exact ok.submittable y blocked

theorem init : SlotsOk g (initRequestLayer g) ∅ ∅ where
  queued := ⟨_, initReqPool_ok g⟩
  taken x slot := by simp [initRequestLayer, reqQueueType, RequestQueues.initReqPool, slot]
  inPool x member := by simp at member
  apart := Finset.disjoint_empty_left _
  submittable x blocked := by
    simp only [initRequestLayer, reqQueueType, RequestQueues.initReqPool] at blocked
    split at blocked <;> cases blocked

/-- A request leaves the hardware for the free queue. -/
theorem retire {queues : RequestQueues} (ok : SlotsOk g s held flight)
    (retires : s.Retires x queues) : SlotsOk g (s.setQueues queues) held flight := by
  obtain ⟨queued, queuesOk⟩ := ok.queued
  obtain ⟨busy, type, after⟩ := retires.spec queuesOk
  have types : ∀ y, (s.setQueues queues).reqQueueType y =
      Function.update s.queues.reqQueueType x .free y := fun y => congrFun type y
  constructor
  · exact after
  · intro y slot
    rw [types]
    by_cases same : y = x
    · subst same
      have old := ok.taken y slot
      rcases busy with busy | busy <;> simp_all
    · rw [Function.update_of_ne same]
      exact ok.taken y slot
  · exact ok.inPool
  · exact ok.apart
  · intro y blocked
    rw [types] at blocked
    by_cases same : y = x
    · simp [same] at blocked
    · rw [Function.update_of_ne same] at blocked
      exact ok.submittable y blocked

/-- A request in progress is placed. -/
theorem place {select : Bool} (ok : SlotsOk g s held flight) (member : x ∈ flight)
    (submittable : Submittable g (s.reqPool x)) (placed : Placed g s x select s') :
    SlotsOk g s' held (flight.erase x) := by
  obtain ⟨q, exist, kind, queues⟩ := placed.queues submittable
  have apart := ok.apart
  have notHeld : x ∉ held := Finset.disjoint_right.mp apart member
  apply ok.put (.inr member) exist queues
  · intro y
    by_cases same : y = x
    · simp [same, notHeld]
    · simp [same]
  · exact apart.mono_right (Finset.erase_subset _ _)
  · exact fun y diff => (placed.undisturbed diff).1
  · rintro rfl
    simp [ReqQueue.queueType] at kind

end SlotsOk

/-- The invariant is kept by everything that can happen while the firmware waits. -/
theorem slotsOk_events : EventClosed g (fun _ _ => True) (SlotsOk g) where
  queued ok := ok.queued
  idle ok member := (ok.taken _ (ok.inPool _ (.inr member))).mpr (.inr member)
  submittable ok blocked := (ok.submittable _ blocked).1
  complete := by
    intro s held flight x queues s' ok retires _ done
    have retired := ok.retire retires
    have cutOk : SlotsOk g ((s.setQueues queues).cut x) held flight :=
      retired.frame rfl fun _ _ => rfl
    rcases releaseBlockedByBufDepReq_cases done with ⟨-, rfl⟩ | ⟨⟨-, blocked⟩, started⟩
    · exact cutOk
    · obtain ⟨queued, queuesOk⟩ := retired.queued
      have listed := queuesOk.mem_bufDep.mpr blocked
      have submittable := retired.submittable _ blocked
      have slot := queuesOk.slot _ _ listed
      obtain ⟨notHeld, free⟩ := retired.busy slot (by rw [blocked]; nofun)
      have taken : SlotsOk g (((s.setQueues queues).cut x).setQueues
          ((s.setQueues queues).queues.selectiveGetFromBlockedByBufDepReqQ
            ((s.setQueues queues).blocking.nextBlockingReq x))) held
          (insert ((s.setQueues queues).blocking.nextBlockingReq x) flight) :=
        cutOk.take slot ⟨_, queuesOk.selectiveGetFrom listed⟩ rfl (by simp; tauto)
          (by simp [notHeld, ok.apart]) rfl
      have placed := Placed.of_startReleasedReq started submittable.1
      have after := taken.place (by simp) submittable placed
      rwa [Finset.erase_insert free] at after
  recheck := by
    intro s held flight queued x chNo wayNo s' ok queuesOk listed _ done
    obtain ⟨-, ⟨-, rfl⟩ | ⟨-, rfl⟩⟩ := recheckRowAddrDep_cases done
    · have slot := queuesOk.slot _ _ listed
      have type : s.reqQueueType x = .blockedByRowAddrDep := queuesOk.typed _ _ listed
      have exist : (ReqQueue.blockedByRowAddrDep chNo wayNo).Exists g :=
        queuesOk.exist _ (List.ne_nil_of_mem listed)
      obtain ⟨notHeld, notFlight⟩ := ok.busy slot (by rw [type]; nofun)
      have taken : SlotsOk g (s.setQueues
          (s.queues.selectiveGetFromBlockedByRowAddrDepReqQ x chNo wayNo)) held (insert x flight) :=
        ok.take slot ⟨_, queuesOk.selectiveGetFrom listed⟩ rfl (by simp; tauto)
          (by simp [notHeld, ok.apart]) rfl
      exact taken.put (q := .nand chNo wayNo) (.inr (by simp)) exist rfl (by
        intro y
        by_cases same : y = x <;> simp [same, notHeld, notFlight]) ok.apart (fun _ _ => rfl) nofun
    · exact ok
  readPhase := by
    intro s held flight chNo wayNo code _ ok some
    refine ok.frame rfl fun y blocked => ?_
    obtain ⟨queued, queuesOk⟩ := ok.queued
    obtain ⟨xs, shape⟩ := queuesOk.head_cons some
    have listed : s.queues.links.head (.nand chNo wayNo) ∈ queued (.nand chNo wayNo) := by
      simp [shape]
    have type : s.reqQueueType (s.queues.links.head (.nand chNo wayNo)) = .nand :=
      queuesOk.typed (.nand chNo wayNo) _ listed
    have diff : y ≠ s.queues.links.head (.nand chNo wayNo) := by
      rintro rfl
      rw [blocked] at type
      cases type
    simp [setReq, diff]

/-- The invariant is kept by every operation. -/
theorem slotsOk_ops : OpClosed g (fun _ _ => True) (SlotsOk g) where
  toEventClosed := slotsOk_events
  place := by
    intro s held flight x s' ok member _ _ allowed placed
    exact ok.place member allowed placed
  hold := by
    intro s held flight x ok member blocked allowed _
    have notHeld : x ∉ held := Finset.disjoint_right.mp ok.apart member
    refine ok.put (q := .blockedByBufDep) (.inr member) trivial rfl ?_ ?_ ?_ ?_
    · intro y
      by_cases same : y = x <;> simp [same, notHeld]
    · exact ok.apart.mono_right (Finset.erase_subset _ _)
    · exact fun y _ => congrFun hold_reqPool y
    · intro _
      rw [hold_reqPool]
      exact allowed
  alloc := by
    intro s held ok some
    obtain ⟨queued, queuesOk⟩ := ok.queued
    obtain ⟨xs, shape⟩ := queuesOk.head_cons some
    have listed : s.queues.links.head .free ∈ queued .free := by simp [shape]
    refine ok.take (queuesOk.slot _ _ listed) ⟨_, queuesOk.getFrom shape⟩ rfl (fun y => ?_)
      (Finset.disjoint_empty_right _) rfl
    change y ∈ insert (s.queues.links.head .free) held ∨ _ ↔ _
    simp [or_comm]
  putSlice := by
    intro s held x req ok member
    refine ok.put (q := .slice) (.inl member) trivial rfl ?_ (Finset.disjoint_empty_right _) ?_ nofun
    · intro y
      by_cases same : y = x <;> simp [same]
    · intro y diff
      simp [setReq, setQueues, diff]
  getSlice := by
    intro s held ok some
    obtain ⟨queued, queuesOk⟩ := ok.queued
    obtain ⟨xs, shape⟩ := queuesOk.head_cons some
    have listed : s.queues.links.head .slice ∈ queued .slice := by simp [shape]
    exact ok.take (queuesOk.slot _ _ listed) ⟨_, queuesOk.getFrom shape⟩ rfl (by simp [or_comm])
      (Finset.disjoint_empty_right _) rfl

/-- Filling in and attaching a slot that is held puts it in progress. -/
theorem SlotsOk.prepare (ok : SlotsOk g s held ∅) (member : x ∈ held) (req : SsdReq) :
    SlotsOk g (s.prepare x req) (held.erase x) {x} where
  queued := ok.queued
  taken y slot := by
    change s.reqQueueType y = .none ↔ _
    by_cases same : y = x
    · subst same
      simpa using (ok.taken y slot).mpr (.inl member)
    · simpa [same] using ok.taken y slot
  inPool y out := by
    rcases out with out | out
    · exact ok.inPool y (.inl (Finset.mem_of_mem_erase out))
    · exact ok.inPool y (.inl (Finset.mem_singleton.mp out ▸ member))
  apart := by simp
  submittable y blocked := by
    change s.reqQueueType y = .blockedByBufDep at blocked
    have diff : y ≠ x := by
      rintro rfl
      have none := (ok.taken y (ok.inPool y (.inl member))).mpr (.inl member)
      rw [none] at blocked
      cases blocked
    simpa [RequestLayer.prepare, diff] using ok.submittable y blocked

/-! ### Submissions in two steps -/

/-- At most one submission is in progress, of a request that may be submitted. -/
structure SubmissionOk (g : Geometry) (s : RequestLayer) (held flight : Finset Nat) : Prop where
  slots : SlotsOk g s held flight
  submittable : ∀ x ∈ flight, Submittable g (s.reqPool x)
  single : flight.card ≤ 1

namespace SubmissionOk

theorem init : SubmissionOk g (initRequestLayer g) ∅ ∅ := ⟨SlotsOk.init, by simp, by simp⟩

/-- What happens while it waits. -/
theorem events (ok : SubmissionOk g s held flight) {es : List Event} (done : s.events g es = some s') :
    SubmissionOk g s' held flight := by
  refine ⟨events_closed slotsOk_events ok.slots (fun _ _ => trivial) done, fun x member => ?_, ok.single⟩
  have same := (events_undisturbed slotsOk_events ok.slots (fun _ _ => trivial) done member).1
  exact same.symm ▸ ok.submittable x member

/-- Another operation, when none is in progress. -/
theorem request {fw fw' : Firmware} {op : RequestOp} (ok : SubmissionOk g fw.layer fw.held ∅)
    (other : ∀ x req es, op ≠ .submit x req es) (done : requestStep g fw op = some fw') :
    SubmissionOk g fw'.layer fw'.held ∅ := by
  refine ⟨?_, by simp, by simp⟩
  apply requestStep_closed slotsOk_ops ok.slots _ (fun _ _ => trivial) done
  intro x req es same
  exact absurd same (other x req es)

/-- The first step. -/
theorem prepare (ok : SubmissionOk g s held ∅) (member : x ∈ held) {req : SsdReq} (allowed : Submittable g req) :
    SubmissionOk g (s.prepare x req) (held.erase x) {x} where
  slots := ok.slots.prepare member req
  submittable y inFlight := by
    cases Finset.mem_singleton.mp inFlight
    simpa [RequestLayer.prepare] using allowed
  single := by simp

/-- The second one. -/
theorem select (ok : SubmissionOk g s held flight) (member : x ∈ flight) {es : List Event}
    (done : s.selectLowLevelReqQ g es x = some s') : SubmissionOk g s' held (flight.erase x) := by
  refine ⟨select_closed slotsOk_ops ok.slots member (ok.submittable x member) (fun _ _ => trivial) done, ?_,
    Finset.card_erase_le.trans ok.single⟩
  intro y other
  have two := Finset.one_lt_card.mpr ⟨x, member, y, Finset.mem_of_mem_erase other, (Finset.ne_of_mem_erase other).symm⟩
  have single := ok.single
  omega

end SubmissionOk

/-- The invariant holds after every run. -/
theorem slotsOk_of_run {ops : List RequestOp} {fw : Firmware}
    (run : Run (requestStep g) (fun _ _ => True) (initFirmware g) ops fw) :
    SlotsOk g fw.layer fw.held ∅ := by
  apply run.invariant (fun fw => SlotsOk g fw.layer fw.held ∅) SlotsOk.init
  intro fw op fw' ok _ step
  apply requestStep_closed slotsOk_ops ok _ (fun _ _ => trivial) step
  intro x req es _ member _
  exact ok.prepare member req

/-- A drained layer leaves nothing with the hardware and nothing blocked. -/
theorem SlotsOk.drained (ok : SlotsOk g s held flight) (done : s.LowLevelReqDone)
    (slot : x < availableOutstandingReqCount g) :
    s.reqQueueType x = .free ∨ s.reqQueueType x = .slice ∨ x ∈ held ∨ x ∈ flight := by
  obtain ⟨queued, queues⟩ := ok.queued
  obtain ⟨dma, nand, blocked⟩ := done
  have empty : ∀ q c, q.Exists g → q.sharedCnt = some c → s.queues.sharedCnt c = 0 → queued q = [] := by
    intro q c exist counts zero
    rw [queues.sharedCnt c, Finset.sum_eq_zero_iff] at zero
    exact List.length_eq_zero_iff.mp (zero q ((mem_countedQueues exist).mpr counts))
  by_cases none : s.reqQueueType x = .none
  · exact .inr (.inr ((ok.taken x slot).mp none))
  · obtain ⟨q, member⟩ := queues.listed x none
    have exist := queues.exist q (List.ne_nil_of_mem member)
    have type : s.reqQueueType x = q.queueType := queues.typed q x member
    cases q with
    | free => exact .inl type
    | slice => exact .inr (.inl type)
    | blockedByBufDep => simp [empty .blockedByBufDep .blockedReq exist rfl blocked] at member
    | blockedByRowAddrDep chNo wayNo =>
      simp [empty (.blockedByRowAddrDep chNo wayNo) .blockedReq exist rfl blocked] at member
    | nvmeDma => simp [queues.holds.head_eq_nil.mp dma] at member
    | nand chNo wayNo =>
      simp [empty (.nand chNo wayNo) .notCompletedNandReq exist rfl nand] at member

/-- The invariant, said of the queues and counters themselves. -/
theorem SlotsOk.conserved (ok : SlotsOk g s held flight) :
    ∃ queued, SlotsConserved g s (held ∪ flight) queued := by
  obtain ⟨queued, queues⟩ := ok.queued
  have dies : ∀ f : Nat → Nat → ReqQueue, (∀ a b c d, f a b = f c d → (a, b) = (c, d)) →
      ∑ q ∈ (Finset.range g.userChannels ×ˢ Finset.range g.userWays).image
        (fun die => f die.1 die.2), (queued q).length =
      ∑ chNo ∈ Finset.range g.userChannels, ∑ wayNo ∈ Finset.range g.userWays,
        (queued (f chNo wayNo)).length := by
    intro f inj
    rw [Finset.sum_image fun a _ b _ same => inj _ _ _ _ same]
    exact Finset.sum_product _ _ _
  refine ⟨queued, queues.holds, queues.slot, ?_, queues.reqCnt, ?_, ?_⟩
  · intro x slot
    by_cases none : s.reqQueueType x = .none
    · refine .inl ⟨by simpa using (ok.taken x slot).mp none, none, queues.unlisted none⟩
    · obtain ⟨q, member⟩ := queues.listed x none
      refine .inr ⟨fun out => none ((ok.taken x slot).mpr (by simpa using out)), q,
        (queues.typed q x member).symm, fun q' => ⟨fun other => ?_, fun same => same ▸ member⟩⟩
      exact queues.holds.disjoint q' q x other member
  · rw [RequestQueues.notCompletedNandReqCnt, queues.sharedCnt, countedQueues,
      dies .nand (by simp)]
  · rw [RequestQueues.blockedReqCnt, queues.sharedCnt, countedQueues,
      Finset.sum_insert (by simp), dies .blockedByRowAddrDep (by simp)]

/-- In every run of the firmware's operations, with any completions and waits, every slot
is between two operations in exactly the queue its type names or held by the code that
took it; so it is while a submission waits for an ERASE, and the drain loop ends only
when every slot is free, queued as a slice or held. -/
theorem slots_conserved_of_run {ops : List RequestOp} {fw : Firmware}
    (run : Run (requestStep g) (fun _ _ => True) (initFirmware g) ops fw) :
    (∃ queued, SlotsConserved g fw.layer fw.held queued) ∧
    (∀ x req es s, x ∈ fw.held → (fw.layer.prepare x req).events g es = some s →
      ∃ queued, SlotsConserved g s fw.held queued) ∧
    (∀ es s, fw.layer.syncAllLowLevelReqDone g es = some s →
      ∀ x < availableOutstandingReqCount g,
        s.reqQueueType x = .free ∨ s.reqQueueType x = .slice ∨ x ∈ fw.held) := by
  have ok := slotsOk_of_run run
  refine ⟨by simpa using ok.conserved, ?_, ?_⟩
  · intro x req es s member ran
    have after := events_closed slotsOk_events (ok.prepare member req) (fun _ _ => trivial) ran
    have all : fw.held.erase x ∪ {x} = fw.held := by
      rw [Finset.union_comm]
      exact Finset.insert_erase member
    exact all ▸ after.conserved
  · intro es s drained x slot
    have after : SlotsOk g s fw.held ∅ ∧ s.LowLevelReqDone := by
      simp only [syncAllLowLevelReqDone] at drained
      split at drained
      · rename_i done
        cases drained
        exact ⟨ok, done⟩
      · simp only [Option.bind_eq_bind, Option.bind_eq_some_iff] at drained
        obtain ⟨t, ran, drained⟩ := drained
        split at drained
        · rename_i done
          cases drained
          exact ⟨events_closed slotsOk_events ok (fun _ _ => trivial) ran, done⟩
        · cases drained
    simpa using after.1.drained after.2 slot

/-- The write-back of a dirty buffer entry. -/
def writeBackReq : SsdReq :=
  { reqType := .nand, reqCode := .write, dataBufFormat := .entry, rowAddrDependencyCheck := true }

/-- A transfer of one block to the host from the same entry. -/
def hostReadReq : SsdReq :=
  { reqType := .nvmeDma, reqCode := .txDma, nvmeDmaInfo := { numOfNvmeBlock := 1 } }

/-- The transfer is held back until the write-back is done, and everything is drained. -/
theorem slots_conserved_of_run_drained :
    ∃ fw, Run (requestStep tinyGeometry) (fun _ _ => True) (initFirmware tinyGeometry)
      [.alloc [], .submit 0 writeBackReq [], .alloc [], .submit 1 hostReadReq [],
        .syncAll [.nandDone 0 0, .nvmeDmaDone 1]] fw ∧
      ∃ queued, SlotsConserved tinyGeometry fw.layer fw.held queued := by
  have done : (exec (requestStep tinyGeometry) (fun _ _ => True) (initFirmware tinyGeometry)
      [.alloc [], .submit 0 writeBackReq [], .alloc [], .submit 1 hostReadReq [],
        .syncAll [.nandDone 0 0, .nvmeDmaDone 1]]).isSome := by decide +kernel
  obtain ⟨fw, ran⟩ := Option.isSome_iff_exists.mp done
  have run := run_of_exec ran
  exact ⟨fw, run, (slots_conserved_of_run run).1⟩

end OcpFw
