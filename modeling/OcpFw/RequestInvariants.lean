import OcpFw.RequestSteps

/-! Invariants of the request layer. An invariant speaks of a state, of the slots the
running code holds, and of the slots whose submission is in progress; it is kept by
every operation once it is kept by the few actions the operations consist of. Each
row-address check an operation makes can be given a condition. -/
namespace OcpFw
namespace RequestLayer

variable {g : Geometry}

/-! ### The checks an operation makes -/

/-- The request a finished one releases, if it was held back for the buffer. -/
def releaseChecks (s : RequestLayer) (x : Nat) : List (RequestLayer × Nat) :=
  let t := s.blocking.nextBlockingReq x
  if t ≠ reqSlotTagNone ∧ s.reqQueueType t = .blockedByBufDep then [(s, t)] else []

/-- The turns of the loop over the blocked queue of a die. -/
def scanChecks (g : Geometry) (chNo wayNo : Nat) :
    Nat → RequestLayer → Nat → List (RequestLayer × Nat)
  | 0, _, _ => []
  | turns + 1, s, x =>
    if x = reqSlotTagNone then []
    else
      (s, x) ::
        match s.recheckRowAddrDep g x chNo wayNo with
        | some s' => scanChecks g chNo wayNo turns s' (s.queues.links.next x)
        | none => []

def eventChecks (g : Geometry) (s : RequestLayer) : Event → List (RequestLayer × Nat)
  | .nvmeDmaDone x => s.releaseChecks x
  | .nandDone chNo wayNo => s.releaseChecks (s.queues.links.head (.nand chNo wayNo))
  | .readPhase .. => []
  | .recheck chNo wayNo =>
    scanChecks g chNo wayNo (availableOutstandingReqCount g) s
      (s.queues.links.head (.blockedByRowAddrDep chNo wayNo))

def eventsChecks (g : Geometry) (s : RequestLayer) : List Event → List (RequestLayer × Nat)
  | [] => []
  | e :: es =>
    s.eventChecks g e ++
      match s.event g e with
      | some s' => s'.eventsChecks g es
      | none => []

instance (req : SsdReq) : Decidable (Checkable req) := by
  unfold Checkable
  infer_instance

instance (s : RequestLayer) (x : Nat) : Decidable (s.WaitsForErase g x) := by
  unfold WaitsForErase
  infer_instance

/-- A submission is checked when it does not have to wait for its buffer. -/
def selectChecks (g : Geometry) (es : List Event) (s : RequestLayer) (x : Nat) :
    List (RequestLayer × Nat) :=
  if s.WaitsForErase g x then
    s.eventsChecks g es ++
      match s.events g es with
      | some t => if t.CheckBufDep x then [(t, x)] else []
      | none => []
  else if s.CheckBufDep x then [(s, x)] else []

end RequestLayer

/-- The states and slots of all checks an operation makes. -/
def opChecks (g : Geometry) (fw : Firmware) : RequestOp → List (RequestLayer × Nat)
  | .alloc es =>
    if fw.layer.queues.links.head .free = reqSlotTagNone then fw.layer.eventsChecks g es else []
  | .putSlice .. | .getSlice => []
  | .submit x req es => (fw.layer.prepare x req).selectChecks g es x
  | .syncAll es => if fw.layer.LowLevelReqDone then [] else fw.layer.eventsChecks g es
  | .event e => fw.layer.eventChecks g e

namespace RequestLayer

variable {g : Geometry} {s s' : RequestLayer} {held flight : Finset Nat} {x : Nat} {es : List Event}
  {queued : ReqQueue → List Nat}

/-! ### Invariants kept by the actions -/

/-- A request leaves the hardware: it is taken from its queue and put to the free queue. -/
def Retires (s : RequestLayer) (x : Nat) (queues : RequestQueues) : Prop :=
  (s.reqQueueType x = .nvmeDma ∧ queues = s.queues.selectiveGetFromNvmeDmaReqQ x) ∨
  ∃ chNo wayNo, s.queues.getFromNandReqQ chNo wayNo = some (x, queues)

/-- A retired request was with the hardware, and its slot is free now. -/
theorem Retires.spec {queues : RequestQueues} (retires : s.Retires x queues)
    (ok : QueuesOk g s.queues queued) :
    (s.reqQueueType x = .nvmeDma ∨ s.reqQueueType x = .nand) ∧
      queues.reqQueueType = Function.update s.queues.reqQueueType x .free ∧
      ∃ queued', QueuesOk g queues queued' := by
  obtain ⟨dma, rfl⟩ | ⟨chNo, wayNo, taken⟩ := retires
  · have member : x ∈ queued .nvmeDma := ok.mem_nvmeDma.mpr dma
    have free : (s.queues.selectiveGetFrom .nvmeDma x).reqQueueType x = .none := by
      simp [RequestQueues.selectiveGetFrom]
    have moved := (ok.selectiveGetFrom member).putTo (q := .free) trivial (ok.slot _ x member) free
    refine ⟨.inl dma, ?_, _, moved⟩
    simp [RequestQueues.selectiveGetFromNvmeDmaReqQ, RequestQueues.putToFreeReqQ,
      RequestQueues.putTo, RequestQueues.selectiveGetFrom, ReqQueue.queueType]
  · obtain ⟨xs, shape, moved⟩ := ok.getFromNandReqQ taken
    obtain ⟨head, -, rfl⟩ := RequestQueues.getFromNandReqQ_cases taken
    refine ⟨.inr (ok.typed (.nand chNo wayNo) x (by simp [shape])), ?_, _, moved⟩
    simp [RequestQueues.putToFreeReqQ, RequestQueues.putTo, RequestQueues.getFrom, head, ReqQueue.queueType]

/-- A die gives up the head of its queue, and what waits for its buffer is released. -/
theorem getFromNandReqQ_cases (done : s.getFromNandReqQ g chNo wayNo = some s') :
    ∃ queues, s.queues.getFromNandReqQ chNo wayNo = some (s.queues.links.head (.nand chNo wayNo), queues) ∧
      (s.setQueues queues).releaseBlockedByBufDepReq g (s.queues.links.head (.nand chNo wayNo)) = some s' := by
  simp only [getFromNandReqQ, Option.bind_eq_bind, Option.bind_eq_some_iff, Prod.exists] at done
  obtain ⟨x, queues, taken, released⟩ := done
  obtain ⟨rfl, -⟩ := RequestQueues.getFromNandReqQ_cases taken
  exact ⟨queues, taken, released⟩

/-- The property is kept by whatever can happen while the firmware waits, provided the
condition `ok` is met at every check. -/
structure EventClosed (g : Geometry) (ok : RequestLayer → Nat → Prop)
    (I : RequestLayer → Finset Nat → Finset Nat → Prop) : Prop where
  queued : ∀ {s held flight}, I s held flight → ∃ queued, QueuesOk g s.queues queued
  idle : ∀ {s held flight x}, I s held flight → x ∈ flight → s.reqQueueType x = .none
  submittable : ∀ {s held flight x}, I s held flight → s.reqQueueType x = .blockedByBufDep →
    (s.reqPool x).reqType ≠ .slice
  complete : ∀ {s held flight x queues s'}, I s held flight → s.Retires x queues →
    (∀ p ∈ s.releaseChecks x, ok p.1 p.2) →
    (s.setQueues queues).releaseBlockedByBufDepReq g x = some s' → I s' held flight
  recheck : ∀ {s held flight queued x chNo wayNo s'}, I s held flight →
    QueuesOk g s.queues queued → x ∈ queued (.blockedByRowAddrDep chNo wayNo) → ok s x →
    s.recheckRowAddrDep g x chNo wayNo = some s' → I s' held flight
  readPhase : ∀ {s held flight chNo wayNo} (code : ReqCode), code = .read ∨ code = .readTransfer → I s held flight →
    s.queues.links.head (.nand chNo wayNo) ≠ reqSlotTagNone →
    I (s.setReq (s.queues.links.head (.nand chNo wayNo))
      { s.reqPool (s.queues.links.head (.nand chNo wayNo)) with reqCode := code }) held flight

/-- A turn of the recheck loop takes at most the slot it looked at out of the queue. -/
theorem recheck_queues {chNo wayNo : Nat} {before rest : List Nat}
    (queues : QueuesOk g s.queues queued)
    (shape : queued (.blockedByRowAddrDep chNo wayNo) = before ++ x :: rest)
    (turn : s.recheckRowAddrDep g x chNo wayNo = some s') :
    ∃ queued', QueuesOk g s'.queues queued' ∧ ∃ before',
      queued' (.blockedByRowAddrDep chNo wayNo) = before' ++ rest := by
  have member : x ∈ queued (.blockedByRowAddrDep chNo wayNo) := by simp [shape]
  obtain ⟨-, ⟨-, rfl⟩ | ⟨-, rfl⟩⟩ := recheckRowAddrDep_cases turn
  · obtain ⟨notLeft, -, -⟩ := queues.holds.split_ne shape
    have none : (s.queues.selectiveGetFromBlockedByRowAddrDepReqQ x chNo wayNo).reqQueueType x =
        .none := by
      simp [RequestQueues.selectiveGetFromBlockedByRowAddrDepReqQ, RequestQueues.selectiveGetFrom]
    have exist : (ReqQueue.nand chNo wayNo).Exists g :=
      queues.exist (.blockedByRowAddrDep chNo wayNo) (List.ne_nil_of_mem member)
    have moves := (queues.selectiveGetFrom member).putTo (q := .nand chNo wayNo) exist
      (queues.slot _ x member) none
    exact ⟨_, moves, before, by simp [shape, List.erase_append_right _ notLeft]⟩
  · exact ⟨queued, queues, before ++ [x], by simp [shape]⟩

/-- The loop over a blocked queue visits the queue as it was. -/
theorem scan_closed {ok : RequestLayer → Nat → Prop} {I : RequestLayer → Prop} {chNo wayNo : Nat}
    (kept : ∀ {s queued x s'}, I s → QueuesOk g s.queues queued →
      x ∈ queued (.blockedByRowAddrDep chNo wayNo) → ok s x →
      s.recheckRowAddrDep g x chNo wayNo = some s' → I s')
    {turns : Nat} {before rest : List Nat} (inv : I s) (queues : QueuesOk g s.queues queued)
    (shape : queued (.blockedByRowAddrDep chNo wayNo) = before ++ rest)
    (met : ∀ p ∈ scanChecks g chNo wayNo turns s (rest.headD reqSlotTagNone), ok p.1 p.2)
    (done : scanBlockedByRowAddrDep g chNo wayNo turns s (rest.headD reqSlotTagNone) = some s') :
    I s' := by
  induction turns generalizing s queued before rest with
  | zero =>
    cases done
    exact inv
  | succ turns ih =>
    cases rest with
    | nil =>
      simp only [List.headD_nil, scanBlockedByRowAddrDep, ↓reduceIte, Option.some.injEq] at done
      exact done ▸ inv
    | cons y rest =>
      have real : y ≠ reqSlotTagNone := queues.ne_none (by rw [shape]; simp)
      have next : s.queues.links.next y = rest.headD reqSlotTagNone :=
        (queues.holds.links shape).2
      rw [List.headD_cons, scanBlockedByRowAddrDep, if_neg real] at done
      simp only [Option.bind_eq_bind, Option.bind_eq_some_iff] at done
      obtain ⟨t, turn, done⟩ := done
      simp only [List.headD_cons, scanChecks, real, ↓reduceIte, turn, List.forall_mem_cons, next]
        at met
      have member : y ∈ queued (.blockedByRowAddrDep chNo wayNo) := by simp [shape]
      have after := kept inv queues member met.1 turn
      obtain ⟨queued', queues', before', shape'⟩ := recheck_queues queues shape turn
      rw [next] at done
      exact ih after queues' shape' met.2 done

/-- As many turns as the queue has slots are enough. -/
theorem scan_turns {chNo wayNo turns : Nat} {before rest : List Nat}
    (queues : QueuesOk g s.queues queued)
    (shape : queued (.blockedByRowAddrDep chNo wayNo) = before ++ rest) (enough : rest.length ≤ turns) :
    scanBlockedByRowAddrDep g chNo wayNo (turns + 1) s (rest.headD reqSlotTagNone) =
      scanBlockedByRowAddrDep g chNo wayNo turns s (rest.headD reqSlotTagNone) := by
  induction turns generalizing s queued before rest with
  | zero =>
    obtain rfl : rest = [] := List.length_eq_zero_iff.mp (by omega)
    simp [scanBlockedByRowAddrDep]
  | succ turns ih =>
    cases rest with
    | nil => simp [scanBlockedByRowAddrDep]
    | cons y rest =>
      have next : s.queues.links.next y = rest.headD reqSlotTagNone :=
        (queues.holds.links shape).2
      have real : y ≠ reqSlotTagNone := queues.ne_none (by rw [shape]; simp)
      rw [List.headD_cons, scanBlockedByRowAddrDep, if_neg real, scanBlockedByRowAddrDep, if_neg real,
        next]
      cases turn : s.recheckRowAddrDep g y chNo wayNo with
      | none => rfl
      | some t =>
        obtain ⟨queued', queues', before', shape'⟩ := recheck_queues queues shape turn
        exact ih queues' shape' (by simpa using enough)

/-- Releasing blocked requests looks at every one of them. -/
theorem releaseBlockedByRowAddrDepReq_turns {chNo wayNo turns : Nat}
    (queues : QueuesOk g s.queues queued) (more : availableOutstandingReqCount g ≤ turns) :
    scanBlockedByRowAddrDep g chNo wayNo turns s
        (s.queues.links.head (.blockedByRowAddrDep chNo wayNo)) =
      s.releaseBlockedByRowAddrDepReq g chNo wayNo := by
  have length := queues.length_le (.blockedByRowAddrDep chNo wayNo)
  rw [releaseBlockedByRowAddrDepReq, queues.holds.head]
  induction turns, more using Nat.le_induction with
  | base => rfl
  | succ turns more ih =>
    have all : queued (.blockedByRowAddrDep chNo wayNo) =
        [] ++ queued (.blockedByRowAddrDep chNo wayNo) := rfl
    rw [scan_turns queues all (by omega), ih]

theorem event_closed {ok : RequestLayer → Nat → Prop}
    {I : RequestLayer → Finset Nat → Finset Nat → Prop} (closed : EventClosed g ok I) {e : Event}
    (inv : I s held flight) (met : ∀ p ∈ s.eventChecks g e, ok p.1 p.2)
    (done : s.event g e = some s') : I s' held flight := by
  cases e with
  | nvmeDmaDone x =>
    simp only [event] at done
    split at done
    · rename_i queue
      exact closed.complete inv (.inl ⟨queue, rfl⟩) met done
    · cases done
  | nandDone chNo wayNo =>
    obtain ⟨queues, taken, done⟩ := getFromNandReqQ_cases done
    exact closed.complete inv (.inr ⟨chNo, wayNo, taken⟩) met done
  | readPhase chNo wayNo transfer =>
    simp only [event] at done
    split at done
    · rename_i some
      cases done
      refine closed.readPhase _ ?_ inv some.1
      cases transfer <;> simp
    · cases done
  | recheck chNo wayNo =>
    obtain ⟨queued, queues⟩ := closed.queued inv
    simp only [event] at done
    split at done
    · have head := queues.holds.head (.blockedByRowAddrDep chNo wayNo)
      unfold releaseBlockedByRowAddrDepReq at done
      simp only [eventChecks] at met
      rw [head] at met done
      have kept := @scan_closed g s s' queued ok (fun t => I t held flight) chNo wayNo
        (fun inv queues listed met turn => closed.recheck inv queues listed met turn)
      have all : queued (.blockedByRowAddrDep chNo wayNo) =
          [] ++ queued (.blockedByRowAddrDep chNo wayNo) := rfl
      exact kept inv queues all met done
    · cases done

theorem events_closed {ok : RequestLayer → Nat → Prop}
    {I : RequestLayer → Finset Nat → Finset Nat → Prop} (closed : EventClosed g ok I)
    (inv : I s held flight) (met : ∀ p ∈ s.eventsChecks g es, ok p.1 p.2)
    (done : s.events g es = some s') : I s' held flight := by
  induction es generalizing s with
  | nil =>
    cases done
    exact inv
  | cons e es ih =>
    simp only [events, List.foldlM_cons, Option.bind_eq_bind, Option.bind_eq_some_iff] at done
    obtain ⟨t, first, done⟩ := done
    simp only [eventsChecks, first, List.forall_mem_append] at met
    exact ih (event_closed closed inv met.1 first) met.2 done

/-! ### The submission in progress -/

/-- What a slot in no queue sees of a step: its request stays, and it does not get a
predecessor. -/
def Undisturbed (s s' : RequestLayer) (y : Nat) : Prop :=
  s'.reqPool y = s.reqPool y ∧ (s.CheckBufDep y → s'.CheckBufDep y)

theorem Placed.undisturbed (placed : Placed g s x select s') {y : Nat} (diff : y ≠ x) :
    Undisturbed s s' y := by
  rcases placed.cases with ⟨-, info, hostDma, rfl⟩ |
    ⟨-, chNo, wayNo, -, ⟨-, rfl⟩ | ⟨-, -, rfl⟩ | ⟨-, -, rfl⟩⟩
  · exact ⟨by simp [issued, setQueues, diff], id⟩
  · exact ⟨rfl, id⟩
  · exact ⟨rfl, id⟩
  · cases select <;> exact ⟨rfl, id⟩

private theorem cut_undisturbed (y : Nat) : Undisturbed s (s.cut x) y := by
  refine ⟨rfl, fun free => ?_⟩
  unfold CheckBufDep at free ⊢
  have same : ∀ (l : BlockingLinks) (b : Option BufEntry),
      (l.resetTail b x).prevBlockingReq = l.prevBlockingReq := by
    intro l b
    unfold BlockingLinks.resetTail
    cases b with
    | none => rfl
    | some b =>
      simp only
      split <;> rfl
  simp only [cut, BlockingLinks.splitAt, same]
  split
  · by_cases next : y = s.blocking.nextBlockingReq x
    · simp [next]
    · simpa [next] using free
  · exact free

/-- A completion does not touch a slot that is in no queue. -/
theorem releaseBlockedByBufDepReq_undisturbed
    (done : s.releaseBlockedByBufDepReq g x = some s')
    (submittable : ∀ t, s.reqQueueType t = .blockedByBufDep → (s.reqPool t).reqType ≠ .slice)
    {y : Nat} (idle : s.reqQueueType y = .none) : Undisturbed s s' y := by
  have first : Undisturbed s (s.cut x) y := cut_undisturbed y
  rcases releaseBlockedByBufDepReq_cases done with ⟨-, rfl⟩ | ⟨⟨-, held⟩, started⟩
  · exact first
  · have diff : y ≠ s.blocking.nextBlockingReq x := by
      intro same
      rw [← same, idle] at held
      cases held
    have placed := Placed.of_startReleasedReq started (submittable _ held)
    have second := placed.undisturbed diff
    exact ⟨second.1.trans first.1, fun free => second.2 (first.2 free)⟩

/-- The submission in progress is not disturbed by what happens while it waits. -/
theorem events_undisturbed {ok : RequestLayer → Nat → Prop}
    {I : RequestLayer → Finset Nat → Finset Nat → Prop} (closed : EventClosed g ok I)
    (inv : I s held flight) (met : ∀ p ∈ s.eventsChecks g es, ok p.1 p.2)
    (done : s.events g es = some s') (member : x ∈ flight) : Undisturbed s s' x := by
  have both : EventClosed g ok fun t held flight =>
      I t held flight ∧ x ∈ flight ∧ Undisturbed s t x := by
    constructor
    · exact fun h => closed.queued h.1
    · exact fun h => closed.idle h.1
    · exact fun h => closed.submittable h.1
    · intro t held flight y queues t' h retires checks done
      obtain ⟨inv, member, before⟩ := h
      refine ⟨closed.complete inv retires checks done, member, ?_⟩
      obtain ⟨queued, ok⟩ := closed.queued inv
      obtain ⟨busy, types, -⟩ := retires.spec ok
      have idle := closed.idle inv member
      have diff : x ≠ y := by
        rintro rfl
        simp [idle] at busy
      have kept : ∀ z, (t.setQueues queues).reqQueueType z =
          Function.update t.queues.reqQueueType y .free z := fun z => congrFun types z
      have after : Undisturbed (t.setQueues queues) t' x := by
        apply releaseBlockedByBufDepReq_undisturbed done
        · intro z held
          apply closed.submittable inv
          rw [kept] at held
          by_cases same : z = y
          · simp [same] at held
          · rwa [Function.update_of_ne same] at held
        · rw [kept, Function.update_of_ne diff]
          exact idle
      exact ⟨after.1.trans before.1, fun free => after.2 (before.2 free)⟩
    · intro t held flight queued y chNo wayNo t' h ok listed check done
      refine ⟨closed.recheck h.1 ok listed check done, h.2.1, ?_⟩
      obtain ⟨-, ⟨-, rfl⟩ | ⟨-, rfl⟩⟩ := recheckRowAddrDep_cases done
      · exact h.2.2
      · exact h.2.2
    · intro t held flight chNo wayNo code phase h some
      refine ⟨closed.readPhase code phase h.1 some, h.2.1, ?_, h.2.2.2⟩
      obtain ⟨queued, ok⟩ := closed.queued h.1
      obtain ⟨xs, shape⟩ := ok.head_cons some
      have diff : x ≠ t.queues.links.head (.nand chNo wayNo) := by
        intro same
        have type := ok.typed (.nand chNo wayNo) x (by simp [shape, same])
        have idle : t.queues.reqQueueType x = .none := closed.idle h.1 h.2.1
        rw [idle] at type
        cases type
      simpa [setReq, diff] using h.2.2.1
  exact (events_closed both ⟨inv, member, rfl, id⟩ met done).2.2

/-! ### Invariants of the operations -/

/-- The property is kept by every operation, provided `ok` is met at every check. -/
structure OpClosed (g : Geometry) (ok : RequestLayer → Nat → Prop)
    (I : RequestLayer → Finset Nat → Finset Nat → Prop) : Prop extends EventClosed g ok I where
  place : ∀ {s held flight x s'}, I s held flight → x ∈ flight → s.CheckBufDep x → ok s x →
    Submittable g (s.reqPool x) → Placed g s x true s' → I s' held (flight.erase x)
  hold : ∀ {s held flight x}, I s held flight → x ∈ flight → ¬ s.CheckBufDep x →
    Submittable g (s.reqPool x) → Addressed (s.reqPool x) → I (s.hold g x) held (flight.erase x)
  alloc : ∀ {s held}, I s held ∅ → s.queues.links.head .free ≠ reqSlotTagNone →
    I s.getFromFreeReqQ.2 (insert s.getFromFreeReqQ.1 held) ∅
  putSlice : ∀ {s held x} (req : SsdReq), I s held ∅ → x ∈ held →
    I ((s.setReq x req).setQueues (s.queues.putToSliceReqQ x)) (held.erase x) ∅
  getSlice : ∀ {s held}, I s held ∅ → s.queues.links.head .slice ≠ reqSlotTagNone →
    I (s.setQueues (s.queues.getFrom .slice)) (insert (s.queues.links.head .slice) held) ∅

/-- A submission that was prepared keeps the property to its end. -/
theorem select_closed {ok : RequestLayer → Nat → Prop}
    {I : RequestLayer → Finset Nat → Finset Nat → Prop} (closed : OpClosed g ok I)
    (inv : I s held flight) (member : x ∈ flight) (allowed : Submittable g (s.reqPool x))
    (met : ∀ p ∈ s.selectChecks g es x, ok p.1 p.2)
    (done : s.selectLowLevelReqQ g es x = some s') : I s' held (flight.erase x) := by
  rcases selectLowLevelReqQ_cases done with ⟨now, free, placed⟩ |
    ⟨now, blocked, addr, rfl⟩ | ⟨waits, t, ran, after⟩
  · simp only [selectChecks, now, free, ↓reduceIte, List.forall_mem_singleton] at met
    exact closed.place inv member free met allowed placed
  · exact closed.hold inv member blocked allowed addr
  · simp only [selectChecks, waits, ↓reduceIte, ran, List.forall_mem_append] at met
    have inv' := events_closed closed.toEventClosed inv met.1 ran
    obtain ⟨same, kept⟩ := events_undisturbed closed.toEventClosed inv met.1 ran member
    rcases after same kept with ⟨free, placed⟩ | ⟨blocked, addr, rfl⟩
    · have checked : ok t x := by simpa [free] using met.2
      exact closed.place inv' member free checked (same ▸ allowed) placed
    · exact closed.hold inv' member blocked (same ▸ allowed) (same ▸ addr)

/-- Every operation keeps the property once its submissions are prepared so. -/
theorem requestStep_closed {ok : RequestLayer → Nat → Prop}
    {I : RequestLayer → Finset Nat → Finset Nat → Prop} (closed : OpClosed g ok I)
    {fw fw' : Firmware} {op : RequestOp} (inv : I fw.layer fw.held ∅)
    (prepared : ∀ x req es, op = .submit x req es → x ∈ fw.held → Submittable g req →
      I (fw.layer.prepare x req) (fw.held.erase x) {x})
    (met : ∀ p ∈ opChecks g fw op, ok p.1 p.2) (step : requestStep g fw op = some fw') :
    I fw'.layer fw'.held ∅ := by
  cases op with
  | alloc es =>
    simp only [requestStep, syncAvailFreeReq, Option.bind_eq_bind, Option.bind_eq_some_iff,
      Option.some.injEq] at step
    obtain ⟨t, waited, rfl⟩ := step
    split at waited
    · rename_i empty
      simp only [opChecks, empty, ↓reduceIte] at met
      simp only [Option.bind_eq_some_iff] at waited
      obtain ⟨u, ran, waited⟩ := waited
      split at waited
      · cases waited
      · rename_i some
        cases waited
        exact closed.alloc (events_closed closed.toEventClosed inv met ran) some
    · rename_i some
      cases waited
      exact closed.alloc inv some
  | putSlice x req =>
    simp only [requestStep] at step
    split at step
    · rename_i member
      cases step
      exact closed.putSlice req inv member
    · cases step
  | getSlice =>
    simp only [requestStep, RequestQueues.getFromSliceReqQ] at step
    by_cases empty : fw.layer.queues.links.head .slice = reqSlotTagNone
    · simp only [empty, ↓reduceIte, Option.some.injEq] at step
      exact step ▸ inv
    · simp only [empty, ↓reduceIte, Option.some.injEq] at step
      exact step ▸ closed.getSlice inv empty
  | submit x req es =>
    simp only [requestStep] at step
    split at step
    · rename_i allowed
      simp only [Option.bind_eq_bind, Option.bind_eq_some_iff, Option.some.injEq] at step
      obtain ⟨t, submitted, rfl⟩ := step
      have start := prepared x req es rfl allowed.1 allowed.2
      have submittable : Submittable g ((fw.layer.prepare x req).reqPool x) := by
        simpa [prepare] using allowed.2
      have after := select_closed closed start (by simp) submittable met submitted
      simpa using after
    · cases step
  | syncAll es =>
    simp only [requestStep, syncAllLowLevelReqDone, Option.bind_eq_bind, Option.bind_eq_some_iff,
      Option.some.injEq] at step
    obtain ⟨t, waited, rfl⟩ := step
    split at waited
    · cases waited
      exact inv
    · rename_i busy
      simp only [opChecks, busy, ↓reduceIte] at met
      simp only [Option.bind_eq_some_iff] at waited
      obtain ⟨u, ran, waited⟩ := waited
      split at waited
      · cases waited
        exact events_closed closed.toEventClosed inv met ran
      · cases waited
  | event e =>
    simp only [requestStep, Option.bind_eq_bind, Option.bind_eq_some_iff, Option.some.injEq] at step
    obtain ⟨t, done, rfl⟩ := step
    exact event_closed closed.toEventClosed inv met done

/-! ### Where a check is made -/

/-- Some slots are held and in progress, and the property holds. -/
abbrev Somewhere (I : RequestLayer → Finset Nat → Finset Nat → Prop) (s : RequestLayer) : Prop :=
  ∃ held flight, I s held flight

variable {I : RequestLayer → Finset Nat → Finset Nat → Prop}

private theorem scan_checks (closed : EventClosed g (fun _ _ => True) I) {chNo wayNo turns : Nat}
    {before rest : List Nat} (inv : I s held flight) (queues : QueuesOk g s.queues queued)
    (shape : queued (.blockedByRowAddrDep chNo wayNo) = before ++ rest) :
    ∀ p ∈ scanChecks g chNo wayNo turns s (rest.headD reqSlotTagNone), Somewhere I p.1 := by
  induction turns generalizing s queued before rest with
  | zero => nofun
  | succ turns ih =>
    cases rest with
    | nil => simp [scanChecks]
    | cons y rest =>
      have real : y ≠ reqSlotTagNone := queues.ne_none (by rw [shape]; simp)
      have next : s.queues.links.next y = rest.headD reqSlotTagNone := (queues.holds.links shape).2
      have member : y ∈ queued (.blockedByRowAddrDep chNo wayNo) := by simp [shape]
      simp only [List.headD_cons, scanChecks, real, ↓reduceIte, next, List.forall_mem_cons]
      refine ⟨⟨held, flight, inv⟩, ?_⟩
      cases turn : s.recheckRowAddrDep g y chNo wayNo with
      | none => nofun
      | some t =>
        obtain ⟨queued', queues', before', shape'⟩ := recheck_queues queues shape turn
        exact ih (closed.recheck inv queues member trivial turn) queues' shape'

theorem event_checks (closed : EventClosed g (fun _ _ => True) I) (inv : I s held flight) (e : Event) :
    ∀ p ∈ s.eventChecks g e, Somewhere I p.1 := by
  have release : ∀ x, ∀ p ∈ s.releaseChecks x, Somewhere I p.1 := by
    intro x p member
    simp only [releaseChecks] at member
    split at member
    · cases List.mem_singleton.mp member
      exact ⟨held, flight, inv⟩
    · cases member
  cases e with
  | nvmeDmaDone x => exact release x
  | nandDone chNo wayNo => exact release _
  | readPhase => nofun
  | recheck chNo wayNo =>
    obtain ⟨queued, queues⟩ := closed.queued inv
    have all : queued (.blockedByRowAddrDep chNo wayNo) =
        [] ++ queued (.blockedByRowAddrDep chNo wayNo) := rfl
    rw [eventChecks, queues.holds.head]
    exact scan_checks closed inv queues all

theorem events_checks (closed : EventClosed g (fun _ _ => True) I) (inv : I s held flight) :
    ∀ p ∈ s.eventsChecks g es, Somewhere I p.1 := by
  induction es generalizing s with
  | nil => nofun
  | cons e es ih =>
    rw [eventsChecks, List.forall_mem_append]
    refine ⟨event_checks closed inv e, ?_⟩
    cases done : s.event g e with
    | none => nofun
    | some t => exact ih (event_closed closed inv (fun _ _ => trivial) done)

theorem select_checks (closed : EventClosed g (fun _ _ => True) I) (inv : I s held flight) :
    ∀ p ∈ s.selectChecks g es x, Somewhere I p.1 := by
  have one : ∀ {t : RequestLayer}, I t held flight →
      ∀ p ∈ (if t.CheckBufDep x then [(t, x)] else []), Somewhere I p.1 := by
    intro t after p member
    split at member
    · cases List.mem_singleton.mp member
      exact ⟨held, flight, after⟩
    · cases member
  unfold selectChecks
  split
  · rw [List.forall_mem_append]
    refine ⟨events_checks closed inv, ?_⟩
    cases done : s.events g es with
    | none => nofun
    | some t => exact one (events_closed closed inv (fun _ _ => trivial) done)
  · exact one inv

/-- Every check an operation makes, it makes in a state that has the property. -/
theorem op_checks (closed : EventClosed g (fun _ _ => True) I) {fw : Firmware} {op : RequestOp}
    (inv : I fw.layer fw.held ∅)
    (prepared : ∀ x req es, op = .submit x req es →
      I (fw.layer.prepare x req) (fw.held.erase x) {x}) :
    ∀ p ∈ opChecks g fw op, Somewhere I p.1 := by
  cases op with
  | alloc es =>
    rw [opChecks]
    split
    · exact events_checks closed inv
    · nofun
  | putSlice => nofun
  | getSlice => nofun
  | submit x req es => exact select_checks closed (prepared x req es rfl)
  | syncAll es =>
    rw [opChecks]
    split
    · nofun
    · exact events_checks closed inv
  | event e => exact event_checks closed inv e

end RequestLayer
end OcpFw
