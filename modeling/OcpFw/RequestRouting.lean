import OcpFw.SlotConservation

/-! Every request in the queue of a die was submitted for that die, and what is promised of
the requests when they are submitted holds as long as they are queued. -/
namespace OcpFw
open RequestLayer

variable {g : Geometry} {Q Q' : Nat → SsdReq → Prop} {s s' : RequestLayer} {held flight : Finset Nat} {x : Nat}
  {queued : ReqQueue → List Nat} {q : ReqQueue} {select : Bool}

/-- What the requests of a queue are known for: those of the code that runs are not looked at. -/
def ReqQueue.Takes (g : Geometry) (P : SsdReq → Prop) : ReqQueue → SsdReq → Prop
  | free, _ | slice, _ | nvmeDma, _ => True
  | blockedByBufDep, req => P req
  | blockedByRowAddrDep chNo wayNo, req | nand chNo wayNo, req =>
    P req ∧ req.reqType = .nand ∧ nandDie g req = (chNo, wayNo)

/-- The contents of all queues. -/
def Queued (g : Geometry) (Q : Nat → SsdReq → Prop) (s : RequestLayer) : Prop :=
  ∃ queued, QueuesOk g s.queues queued ∧ ∀ q, ∀ x ∈ queued q, q.Takes g (Q x) (s.reqPool x)

/-- A property that the phase of a READ does not matter to. -/
def PhaseFree (Q : Nat → SsdReq → Prop) : Prop :=
  ∀ x req code, Q x req → code = .read ∨ code = .readTransfer → Q x { req with reqCode := code }

theorem ReqQueue.Takes.phase {req : SsdReq} {code : ReqCode} (phases : PhaseFree Q) (takes : q.Takes g (Q x) req)
    (phase : code = .read ∨ code = .readTransfer) : q.Takes g (Q x) { req with reqCode := code } := by
  cases q with
  | free | slice | nvmeDma => trivial
  | blockedByBufDep => exact phases x req code takes phase
  | blockedByRowAddrDep | nand =>
    obtain ⟨promised, type, die⟩ := takes
    exact ⟨phases x req code promised phase, type, die⟩

namespace Queued

/-- A slot is appended to a queue that takes it. -/
theorem put (ok : Queued g Q s) (exist : q.Exists g) (slot : x < availableOutstandingReqCount g)
    (idle : s.reqQueueType x = .none) (queues : s'.queues = s.queues.putTo q x)
    (others : ∀ y, y ≠ x → s'.reqPool y = s.reqPool y) (takes : q.Takes g (Q x) (s'.reqPool x)) : Queued g Q s' := by
  obtain ⟨queued, queuesOk, reqs⟩ := ok
  refine ⟨_, queues ▸ queuesOk.putTo exist slot idle, ?_⟩
  intro q' y listed
  have old : y ∈ queued q' → q'.Takes g (Q y) (s'.reqPool y) := by
    intro before
    have diff : y ≠ x := fun same => queuesOk.unlisted idle _ (same ▸ before)
    rw [others y diff]
    exact reqs q' y before
  by_cases here : q' = q
  · subst here
    rw [Function.update_self, List.mem_append, List.mem_singleton] at listed
    rcases listed with before | rfl
    · exact old before
    · exact takes
  · rw [Function.update_of_ne here] at listed
    exact old listed

/-- A slot is taken out of a queue. -/
theorem take (ok : Queued g Q s) (queues : QueuesOk g s.queues queued) (listed : x ∈ queued q)
    (after : s'.queues = s.queues.selectiveGetFrom q x) (reqs : s'.reqPool = s.reqPool) : Queued g Q s' := by
  obtain ⟨queued', queuesOk, old⟩ := ok
  cases queuesOk.holds.unique queues.holds
  refine ⟨_, after ▸ queues.selectiveGetFrom listed, ?_⟩
  intro q' y member
  rw [reqs]
  by_cases here : q' = q
  · subst here
    rw [Function.update_self] at member
    exact old q' y (List.mem_of_mem_erase member)
  · rw [Function.update_of_ne here] at member
    exact old q' y member

/-- The first slot of a queue is taken. -/
theorem takeFirst (ok : Queued g Q s) (some : s.queues.links.head q ≠ reqSlotTagNone)
    (after : s'.queues = s.queues.getFrom q) (reqs : s'.reqPool = s.reqPool) : Queued g Q s' := by
  obtain ⟨queued, queuesOk, old⟩ := ok
  obtain ⟨xs, shape⟩ := queuesOk.head_cons some
  refine ⟨_, after ▸ queuesOk.getFrom shape, ?_⟩
  intro q' y member
  rw [reqs]
  by_cases here : q' = q
  · subst here
    rw [Function.update_self] at member
    exact old q' y (by rw [shape]; exact List.mem_cons_of_mem _ member)
  · rw [Function.update_of_ne here] at member
    exact old q' y member

/-- The queues stay, with the requests in them. -/
theorem frame (ok : Queued g Q s) (queues : s'.queues = s.queues)
    (reqs : ∀ y, s.reqQueueType y ≠ .none → s'.reqPool y = s.reqPool y)
    (promised : ∀ y req, s.reqQueueType y ≠ .none → Q y req → Q' y req) : Queued g Q' s' := by
  obtain ⟨queued, queuesOk, old⟩ := ok
  refine ⟨queued, queues ▸ queuesOk, ?_⟩
  intro q y member
  have busy : s.reqQueueType y ≠ .none := by
    rw [show s.reqQueueType y = _ from queuesOk.typed q y member]
    exact q.queueType_ne_none
  rw [reqs y busy]
  have takes := old q y member
  cases q with
  | free | slice | nvmeDma => trivial
  | blockedByBufDep => exact promised y _ busy takes
  | blockedByRowAddrDep | nand => exact ⟨promised y _ busy takes.1, takes.2⟩

theorem init : Queued g Q (initRequestLayer g) := by
  refine ⟨_, initReqPool_ok g, fun q x member => ?_⟩
  cases q with
  | free | slice | nvmeDma => trivial
  | _ => simp at member

/-- A request leaves the hardware for the free queue. -/
theorem retire {queues : RequestQueues} (ok : Queued g Q s) (retires : s.Retires x queues) :
    Queued g Q (s.setQueues queues) := by
  obtain ⟨queued, queuesOk, -⟩ := id ok
  rcases retires with ⟨dma, rfl⟩ | ⟨chNo, wayNo, taken⟩
  · have member : x ∈ queued .nvmeDma := queuesOk.mem_nvmeDma.mpr dma
    have out : Queued g Q (s.setQueues (s.queues.selectiveGetFrom .nvmeDma x)) := ok.take queuesOk member rfl rfl
    refine out.put (q := .free) trivial (queuesOk.slot _ x member) ?_ rfl (fun _ _ => rfl) trivial
    simp [reqQueueType, setQueues, RequestQueues.selectiveGetFrom]
  · obtain ⟨xs, shape, -⟩ := queuesOk.getFromNandReqQ taken
    obtain ⟨head, some, rfl⟩ := RequestQueues.getFromNandReqQ_cases taken
    have out : Queued g Q (s.setQueues (s.queues.getFrom (.nand chNo wayNo))) :=
      ok.takeFirst (q := .nand chNo wayNo) (head ▸ some) rfl rfl
    refine out.put (q := .free) trivial (queuesOk.slot (.nand chNo wayNo) x (by simp [shape])) ?_ rfl
      (fun _ _ => rfl) trivial
    simp [reqQueueType, setQueues, RequestQueues.getFrom, head]

/-- A slot in no queue is placed. -/
theorem place (ok : Queued g Q s) (submittable : Submittable g (s.reqPool x))
    (slot : x < availableOutstandingReqCount g) (idle : s.reqQueueType x = .none) (promised : Q x (s.reqPool x))
    (placed : Placed g s x select s') : Queued g Q s' := by
  have die := nandDie_lt submittable
  have others : ∀ y, y ≠ x → s'.reqPool y = s.reqPool y := fun y diff => (placed.undisturbed diff).1
  rcases placed.cases with ⟨-, info, hostDma, rfl⟩ | ⟨nand, chNo, wayNo, named, cases⟩
  · exact ok.put (q := .nvmeDma) trivial slot idle rfl others trivial
  · rw [← named] at die
    rcases cases with ⟨-, rfl⟩ | ⟨-, -, rfl⟩ | ⟨-, -, rfl⟩
    · exact ok.put (q := .nand chNo wayNo) die slot idle rfl others ⟨promised, nand, named.symm⟩
    · exact ok.put (q := .nand chNo wayNo) die slot idle rfl others ⟨promised, nand, named.symm⟩
    · refine ok.put (q := .blockedByRowAddrDep chNo wayNo) die slot idle ?_ others ?_
      · simp [putToBlockedByRowAddrDepReqQ, setQueues, RequestQueues.putToBlockedByRowAddrDepReqQ]
      · simp only [ReqQueue.Takes, putToBlockedByRowAddrDepReqQ, setQueues, refused_reqPool]
        exact ⟨promised, nand, named.symm⟩

end Queued

/-- The queues with the requests that are being submitted. -/
structure RoutedOk (g : Geometry) (Q : Nat → SsdReq → Prop) (s : RequestLayer) (held flight : Finset Nat) : Prop where
  slots : SlotsOk g s held flight
  queues : Queued g Q s
  promised : ∀ x ∈ flight, Q x (s.reqPool x)

/-- The first request of a die. -/
theorem RoutedOk.head {chNo wayNo : Nat} (ok : RoutedOk g Q s held flight)
    (real : s.queues.links.head (.nand chNo wayNo) ≠ reqSlotTagNone) :
    let req := s.reqPool (s.queues.links.head (.nand chNo wayNo))
    (chNo < g.userChannels ∧ wayNo < g.userWays) ∧ Q (s.queues.links.head (.nand chNo wayNo)) req ∧
      req.reqType = .nand ∧ nandDie g req = (chNo, wayNo) := by
  obtain ⟨queued, queuesOk, reqs⟩ := ok.queues
  obtain ⟨xs, shape⟩ := queuesOk.head_cons real
  have member : s.queues.links.head (.nand chNo wayNo) ∈ queued (.nand chNo wayNo) := by simp [shape]
  exact ⟨queuesOk.exist (.nand chNo wayNo) (List.ne_nil_of_mem member), reqs _ _ member⟩

theorem routedOk_events (phases : PhaseFree Q) : EventClosed g (fun _ _ => True) (RoutedOk g Q) where
  queued ok := ok.slots.queued
  idle ok := slotsOk_events.idle ok.slots
  submittable ok := slotsOk_events.submittable ok.slots
  complete := by
    intro s held flight x queues s' ok retires _ done
    have slots := slotsOk_events.complete ok.slots retires (fun _ _ => trivial) done
    have retired := ok.slots.retire retires
    have cutOk : Queued g Q ((s.setQueues queues).cut x) :=
      (ok.queues.retire retires).frame rfl (fun _ _ => rfl) fun _ _ _ => id
    rcases releaseBlockedByBufDepReq_cases done with ⟨-, rfl⟩ | ⟨⟨-, blocked⟩, started⟩
    · exact ⟨slots, cutOk, ok.promised⟩
    · set t := (s.setQueues queues).blocking.nextBlockingReq x
      obtain ⟨queued', queuesOk', reqs⟩ := id cutOk
      have listed := queuesOk'.mem_bufDep.mpr blocked
      have placed := Placed.of_startReleasedReq started (retired.submittable _ blocked).1
      have out : Queued g Q (((s.setQueues queues).cut x).setQueues
          ((s.setQueues queues).queues.selectiveGetFromBlockedByBufDepReqQ t)) :=
        cutOk.take (q := .blockedByBufDep) queuesOk' listed rfl rfl
      have none : (((s.setQueues queues).cut x).setQueues
          ((s.setQueues queues).queues.selectiveGetFromBlockedByBufDepReqQ t)).reqQueueType t = .none :=
        Function.update_self ..
      refine ⟨slots, out.place (retired.submittable _ blocked) (queuesOk'.slot _ _ listed) none
        (reqs .blockedByBufDep t listed) placed, fun y member => ?_⟩
      have diff : y ≠ t := by
        rintro rfl
        have idle : (s.setQueues queues).reqQueueType t = .none := slotsOk_events.idle retired member
        rw [idle] at blocked
        cases blocked
      rw [(placed.undisturbed diff).1]
      exact ok.promised y member
  recheck := by
    intro s held flight queued x chNo wayNo s' ok queuesOk listed _ done
    have slots := slotsOk_events.recheck ok.slots queuesOk listed trivial done
    obtain ⟨-, ⟨-, rfl⟩ | ⟨-, rfl⟩⟩ := recheckRowAddrDep_cases done
    · obtain ⟨queued', queuesOk', reqs⟩ := id ok.queues
      cases queuesOk'.holds.unique queuesOk.holds
      have exist : (ReqQueue.nand chNo wayNo).Exists g :=
        queuesOk.exist (.blockedByRowAddrDep chNo wayNo) (List.ne_nil_of_mem listed)
      have out : Queued g Q ((s.passed g x false).setQueues
          (s.queues.selectiveGetFromBlockedByRowAddrDepReqQ x chNo wayNo)) :=
        ok.queues.take queuesOk listed rfl rfl
      have none : ((s.passed g x false).setQueues
          (s.queues.selectiveGetFromBlockedByRowAddrDepReqQ x chNo wayNo)).reqQueueType x = .none :=
        Function.update_self ..
      have takes := reqs (.blockedByRowAddrDep chNo wayNo) x listed
      exact ⟨slots, out.put (q := .nand chNo wayNo) exist (queuesOk.slot _ _ listed) none rfl (fun _ _ => rfl) takes,
        ok.promised⟩
    · exact ok
  readPhase := by
    intro s held flight chNo wayNo code phase ok real
    set head := s.queues.links.head (.nand chNo wayNo) with first
    have same : ∀ y, y ≠ head → (s.setReq head { s.reqPool head with reqCode := code }).reqPool y = s.reqPool y :=
      fun y diff => Function.update_of_ne diff ..
    obtain ⟨queued, queuesOk, reqs⟩ := ok.queues
    refine ⟨slotsOk_events.readPhase code phase ok.slots real, ⟨queued, queuesOk, fun q y member => ?_⟩, ?_⟩
    · by_cases here : y = head
      · subst here
        simp only [setReq, Function.update_self]
        exact (reqs q _ member).phase phases phase
      · rw [same y here]
        exact reqs q y member
    · intro y member
      have diff : y ≠ head := by
        rintro rfl
        obtain ⟨xs, shape⟩ := queuesOk.head_cons real
        have type : s.reqQueueType head = .nand := queuesOk.typed (.nand chNo wayNo) _ (by simp [shape, ← first])
        rw [slotsOk_events.idle ok.slots member] at type
        cases type
      rw [same y diff]
      exact ok.promised y member

theorem routedOk_ops (phases : PhaseFree Q) : OpClosed g (fun _ _ => True) (RoutedOk g Q) where
  toEventClosed := routedOk_events phases
  place := by
    intro s held flight x s' ok member free _ allowed placed
    have slot := ok.slots.inPool x (.inr member)
    have idle := slotsOk_events.idle ok.slots member
    refine ⟨slotsOk_ops.place ok.slots member free trivial allowed placed,
      ok.queues.place allowed slot idle (ok.promised x member) placed, fun y inFlight => ?_⟩
    obtain ⟨diff, before⟩ := Finset.mem_erase.mp inFlight
    rw [(placed.undisturbed diff).1]
    exact ok.promised y before
  hold := by
    intro s held flight x ok member busy allowed addr
    have slot := ok.slots.inPool x (.inr member)
    have idle := slotsOk_events.idle ok.slots member
    refine ⟨slotsOk_ops.hold ok.slots member busy allowed addr, ?_, fun y inFlight => ?_⟩
    · refine ok.queues.put (q := .blockedByBufDep) trivial slot idle rfl (fun y _ => by rw [hold_reqPool]) ?_
      simp only [ReqQueue.Takes, hold_reqPool]
      exact ok.promised x member
    · rw [hold_reqPool]
      exact ok.promised y (Finset.mem_of_mem_erase inFlight)
  alloc := by
    intro s held ok real
    exact ⟨slotsOk_ops.alloc ok.slots real, ok.queues.takeFirst (q := .free) real rfl rfl, by simp⟩
  putSlice := by
    intro s held x req ok member
    have slot := ok.slots.inPool x (.inl member)
    have idle := (ok.slots.taken x slot).mpr (.inl member)
    refine ⟨slotsOk_ops.putSlice req ok.slots member, ?_, by simp⟩
    exact ok.queues.put (q := .slice) trivial slot idle rfl (fun y diff => Function.update_of_ne diff ..) trivial
  getSlice := by
    intro s held ok real
    exact ⟨slotsOk_ops.getSlice ok.slots real, ok.queues.takeFirst (q := .slice) real rfl rfl, by simp⟩

/-- A slot that is held is filled in with a request that keeps the promise. -/
theorem RoutedOk.prepare (ok : RoutedOk g Q s held ∅) (member : x ∈ held) {req : SsdReq} (promised : Q' x req)
    (others : ∀ y req, y ≠ x → Q y req → Q' y req) : RoutedOk g Q' (s.prepare x req) (held.erase x) {x} := by
  have idle := (ok.slots.taken x (ok.slots.inPool x (.inl member))).mpr (.inl member)
  have diff : ∀ y, s.reqQueueType y ≠ .none → y ≠ x := by
    rintro y busy rfl
    exact busy idle
  refine ⟨ok.slots.prepare member req, ?_, fun y inFlight => ?_⟩
  · refine ok.queues.frame rfl (fun y busy => ?_) fun y req busy => others y req (diff y busy)
    exact Function.update_of_ne (diff y busy) ..
  · obtain rfl := Finset.mem_singleton.mp inFlight
    simpa [RequestLayer.prepare] using promised

end OcpFw
