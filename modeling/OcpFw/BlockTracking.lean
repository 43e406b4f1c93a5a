import OcpFw.BlockRequests

/-! What is to be known of a block over a whole run only has to follow a request that waits
on, one that starts, and what leaves all of them alone; the request layer does nothing else
to it. -/
namespace OcpFw
open RequestLayer
open Runs (Run)

variable {g : Geometry} {b : BlockAddr} {s s' : RequestLayer} {held flight : Finset Nat} {x : Nat}
  {req : SsdReq} {r : BlockReq}

/-- The property follows the requests of the block: it is kept when one of them, or of
another block, starts or is blocked, and by everything that touches none of them. -/
structure Tracks (g : Geometry) (b : BlockAddr) (fair : RequestLayer → Nat → Prop)
    (O : RequestLayer → Finset Nat → Prop) : Prop where
  waiting : ∀ {s flight}, O s flight → WaitingOk g b s flight
  init : O (initRequestLayer g) ∅
  prepare : ∀ {s x req}, O s ∅ → s.reqQueueType x = .none → x < availableOutstandingReqCount g →
    SubmitsInTurn g b s req → O (s.prepare x req) {x}
  stable : ∀ {s s' x}, fair s x →
    (∀ y, s'.reqQueueType y = .blockedByRowAddrDep ↔ s.reqQueueType y = .blockedByRowAddrDep) →
    s'.reqPool = s.reqPool → s'.rowAddrDependency = s.rowAddrDependency →
    s'.submission = s.submission → fair s' x
  pass : ∀ {s s' flight x r select}, O s flight → Concerns s s' x → s.Waiting flight x →
    (select = true ↔ x ∈ flight) → blockReq g b (s.reqPool x) = some r → s.Permitted g x → fair s x →
    s'.reqQueueType x ≠ .blockedByBufDep ∧ s'.reqQueueType x ≠ .blockedByRowAddrDep →
    s'.started = s.started ++ [s.submission x] →
    s'.rowAddrDependency b = (s.rowAddrDependency b).passed (s.reqPool x) select → O s' (flight.erase x)
  pass_other : ∀ {s s' flight x}, O s flight → Concerns s s' x → s.Waiting flight x →
    blockReq g b (s.reqPool x) = none →
    s'.reqQueueType x ≠ .blockedByBufDep ∧ s'.reqQueueType x ≠ .blockedByRowAddrDep →
    s'.started = s.started ++ [s.submission x] ∨ s'.started = s.started →
    s'.rowAddrDependency b = s.rowAddrDependency b → O s' (flight.erase x)
  refuse : ∀ {s s' flight x r select}, O s flight → Concerns s s' x → s'.reqPool x = s.reqPool x →
    s.Waiting flight x → (select = true ↔ x ∈ flight) → blockReq g b (s.reqPool x) = some r →
    s'.started = s.started → BlockedAgain g b s s' x →
    (s'.rowAddrDependency b =
      if select then (s.rowAddrDependency b).refused (s.reqPool x) else s.rowAddrDependency b) →
    O s' (flight.erase x)
  refuse_other : ∀ {s s' flight x}, O s flight → Concerns s s' x → s'.reqPool x = s.reqPool x →
    s.Waiting flight x → blockReq g b (s.reqPool x) = none → s'.started = s.started →
    BlockedAgain g b s s' x → s'.rowAddrDependency b = s.rowAddrDependency b → O s' (flight.erase x)
  frame : ∀ {s s' flight}, O s flight →
    (∀ y, s'.reqQueueType y = .blockedByBufDep ∨ s'.reqQueueType y = .blockedByRowAddrDep ∨
      s.reqQueueType y = .blockedByBufDep ∨ s.reqQueueType y = .blockedByRowAddrDep →
      s'.reqQueueType y = s.reqQueueType y) →
    (∀ y, s.Waiting flight y → s'.reqPool y = s.reqPool y) →
    s'.submissions = s.submissions → s'.submission = s.submission → s'.started = s.started →
    s'.rowAddrDependency b = s.rowAddrDependency b → O s' flight

theorem RowAddrDependency.refused_permittedProgPage {d : RowAddrDependency} :
    (d.refused req).permittedProgPage = d.permittedProgPage := by
  unfold RowAddrDependency.refused
  split <;> rfl

/-- The entry of the block after a refusal. -/
theorem refused_dependency {select : Bool} (kind : blockReq g b (s.reqPool x) = some r) :
    (s.refused g x select).rowAddrDependency b =
      if select then (s.rowAddrDependency b).refused (s.reqPool x) else s.rowAddrDependency b := by
  have block := (blockReq_cases kind).1
  cases select with
  | false => rfl
  | true => simp [refused, updateDependency, setDependency, dependency, block]

/-- A refusal of what asks nothing of the block leaves its entry alone. -/
theorem refused_dependency_other {select : Bool} (kind : blockReq g b (s.reqPool x) = none)
    (type : (s.reqPool x).reqType = .nand) (addr : (s.reqPool x).nandAddr = .vsa) :
    (s.refused g x select).rowAddrDependency b = s.rowAddrDependency b := by
  cases select with
  | false => rfl
  | true =>
    by_cases block : blockAddr g (s.reqPool x).virtualSliceAddr = b
    · cases code : (s.reqPool x).reqCode <;>
        simp_all [blockReq, refused, updateDependency, setDependency, dependency, RowAddrDependency.refused]
    · have other : b ≠ blockAddr g (s.reqPool x).virtualSliceAddr := fun same => block same.symm
      simp [refused, updateDependency, setDependency, other]

namespace Tracks

variable {fair : RequestLayer → Nat → Prop} {O : RequestLayer → Finset Nat → Prop}

/-- A slot goes from one queue in which nothing waits to another. -/
theorem frame_slot {type : ReqQueueType} (tracks : Tracks g b fair O) (ok : O s flight)
    (types : s'.queues.reqQueueType = Function.update s.queues.reqQueueType x type)
    (before : s.reqQueueType x ≠ .blockedByBufDep ∧ s.reqQueueType x ≠ .blockedByRowAddrDep)
    (after : type ≠ .blockedByBufDep ∧ type ≠ .blockedByRowAddrDep)
    (reqs : ∀ y, s.Waiting flight y → s'.reqPool y = s.reqPool y)
    (submissions : s'.submissions = s.submissions) (submission : s'.submission = s.submission)
    (started : s'.started = s.started)
    (entry : s'.rowAddrDependency b = s.rowAddrDependency b) : O s' flight := by
  apply tracks.frame ok ?_ reqs submissions submission started entry
  intro y blocked
  simp only [reqQueueType, types] at blocked before ⊢
  apply Function.update_of_ne
  rintro rfl
  simp [before, after] at blocked

/-- A waiting request, taken out of its queue, passes its check and enters a NAND queue. -/
theorem enter {select : Bool} {queues : RequestQueues} {chNo wayNo : Nat} (tracks : Tracks g b fair O)
    (ok : O s flight) (waits : s.Waiting flight x) (selects : select = true ↔ x ∈ flight)
    (types : ∀ y, y ≠ x → queues.reqQueueType y = s.reqQueueType y)
    (type : (s.reqPool x).reqType = .nand) (check : Checkable (s.reqPool x))
    (permitted : s.Permitted g x) (allowed : fair s x) :
    O (((s.setQueues queues).passed g x select).putToNandReqQ x chNo wayNo) (flight.erase x) := by
  have moved : ∀ y, (((s.setQueues queues).passed g x select).putToNandReqQ x chNo
      wayNo).reqQueueType y = Function.update queues.reqQueueType x .nand y := fun _ => rfl
  have step : Concerns s (((s.setQueues queues).passed g x select).putToNandReqQ x chNo wayNo) x :=
    ⟨fun _ _ => rfl, fun y diff => by rw [moved, Function.update_of_ne diff, types y diff], rfl, rfl⟩
  have gone : (((s.setQueues queues).passed g x select).putToNandReqQ x chNo wayNo).reqQueueType x ≠
      .blockedByBufDep ∧ (((s.setQueues queues).passed g x select).putToNandReqQ x chNo
        wayNo).reqQueueType x ≠ .blockedByRowAddrDep := by
    rw [moved, Function.update_self]
    exact ⟨by simp, by simp⟩
  have table : (((s.setQueues queues).passed g x select).putToNandReqQ x chNo
      wayNo).rowAddrDependency = Function.update s.rowAddrDependency
        (blockAddr g (s.reqPool x).virtualSliceAddr)
        ((s.dependency g x).passed (s.reqPool x) select) := rfl
  cases kind : blockReq g b (s.reqPool x) with
  | none =>
    apply tracks.pass_other ok step waits kind gone (.inl rfl)
    have other : b ≠ blockAddr g (s.reqPool x).virtualSliceAddr := (blockAddr_ne kind type check).symm
    rw [table, Function.update_of_ne other]
  | some r =>
    apply tracks.pass ok step waits selects kind permitted allowed gone rfl
    have block := (blockReq_cases kind).1
    rw [table, block, Function.update_self, RequestLayer.dependency, block]

/-- A waiting NAND request is refused. -/
private theorem again {select : Bool} (tracks : Tracks g b fair O) (ok : O s flight)
    (step : Concerns s s' x) (req : s'.reqPool x = s.reqPool x) (waits : s.Waiting flight x)
    (selects : select = true ↔ x ∈ flight) (type : (s.reqPool x).reqType = .nand)
    (addr : (s.reqPool x).nandAddr = .vsa) (started : s'.started = s.started)
    (blocked : BlockedAgain g b s s' x)
    (entry : s'.rowAddrDependency = (s.refused g x select).rowAddrDependency) : O s' (flight.erase x) := by
  cases kind : blockReq g b (s.reqPool x) with
  | none =>
    apply tracks.refuse_other ok step req waits kind started blocked
    rw [entry, refused_dependency_other kind type addr]
  | some r =>
    apply tracks.refuse ok step req waits selects kind started blocked
    rw [entry, refused_dependency kind]

/-- A waiting request, taken out of its queue, is placed. -/
theorem place {select : Bool} {queues : RequestQueues} (tracks : Tracks g b fair O) (ok : O s flight)
    (waits : s.Waiting flight x) (selects : select = true ↔ x ∈ flight)
    (types : ∀ y, y ≠ x → queues.reqQueueType y = s.reqQueueType y)
    (placed : Placed g (s.setQueues queues) x select s') (allowed : fair s x) : O s' (flight.erase x) := by
  rcases placed.cases with ⟨type, info, hostDma, rfl⟩ |
    ⟨type, chNo, wayNo, -, ⟨unchecked, rfl⟩ | ⟨check, permitted, rfl⟩ | ⟨check, -, rfl⟩⟩
  · have notNand : (s.reqPool x).reqType = .nvmeDma := type
    have moved : ∀ y, (((s.setQueues queues).issued x info hostDma).setQueues
        ((s.setQueues queues).queues.putToNvmeDmaReqQ x)).reqQueueType y =
        Function.update queues.reqQueueType x .nvmeDma y := fun _ => rfl
    refine tracks.pass_other ok ?_ waits (by simp [blockReq, notNand]) ?_ (.inr rfl) rfl
    · constructor
      · intro y diff
        simp [issued, setQueues, diff]
      · intro y diff
        exact (moved y).trans (by rw [Function.update_of_ne diff, types y diff])
      · rfl
      · rfl
    · rw [moved, Function.update_self]
      exact ⟨by simp, by simp⟩
  · have moved : ∀ y, ((s.setQueues queues).putToNandReqQ x chNo wayNo).reqQueueType y =
        Function.update queues.reqQueueType x .nand y := fun _ => rfl
    have kind : blockReq g b (s.reqPool x) = none := by
      by_contra asks
      have checked := (tracks.waiting ok).checked x waits asks
      rw [show (s.reqPool x).rowAddrDependencyCheck = false from unchecked] at checked
      cases checked
    refine tracks.pass_other ok ?_ waits kind ?_ (.inl rfl) rfl
    · exact ⟨fun _ _ => rfl, fun y diff => by rw [moved, Function.update_of_ne diff, types y diff],
        rfl, rfl⟩
    · rw [moved, Function.update_self]
      exact ⟨by simp, by simp⟩
  · exact tracks.enter ok waits selects types type check permitted allowed
  · have moved : ∀ y, (((s.setQueues queues).refused g x select).putToBlockedByRowAddrDepReqQ x chNo
        wayNo).reqQueueType y = Function.update queues.reqQueueType x .blockedByRowAddrDep y := by
      intro y
      cases select <;> rfl
    apply tracks.again ok _ _ waits selects type check.2.1
    · cases select <;> rfl
    · exact .inl ⟨by rw [moved, Function.update_self], type, check⟩
    · cases select <;> rfl
    · constructor
      · intro y _
        cases select <;> rfl
      · exact fun y diff => by rw [moved, Function.update_of_ne diff, types y diff]
      · cases select <;> rfl
      · cases select <;> rfl
    · cases select <;> rfl

/-- A completion: the request that waited for the buffer is placed, if there is one. -/
private theorem complete {queues : RequestQueues} (tracks : Tracks g b fair O) (slots : SlotsOk g s held flight)
    (ok : O s flight) (retires : s.Retires x queues) (allowed : ∀ p ∈ s.releaseChecks x, fair p.1 p.2)
    (done : (s.setQueues queues).releaseBlockedByBufDepReq g x = some s') : O s' flight := by
  obtain ⟨queued, queuesOk⟩ := slots.queued
  obtain ⟨busy, types, -⟩ := retires.spec queuesOk
  have others : ∀ y, y ≠ x → queues.reqQueueType y = s.reqQueueType y := by
    intro y diff
    rw [types, Function.update_of_ne diff]
  have freed : queues.reqQueueType x = .free := by rw [types, Function.update_self]
  have cutOk : O ((s.setQueues queues).cut x) flight := by
    refine tracks.frame ok ?_ (fun _ _ => rfl) rfl rfl rfl rfl
    intro y blocked
    apply others
    rintro rfl
    have now : ((s.setQueues queues).cut y).reqQueueType y = .free := freed
    rw [now] at blocked
    rcases busy with h | h <;> rw [h] at blocked <;> simp at blocked
  rcases releaseBlockedByBufDepReq_cases done with ⟨-, rfl⟩ | ⟨⟨real, blocked⟩, started⟩
  · exact cutOk
  · set t := (s.setQueues queues).blocking.nextBlockingReq x
    have diff : t ≠ x := by
      intro same
      have free : (s.setQueues queues).reqQueueType t = .free := same ▸ freed
      rw [free] at blocked
      cases blocked
    have before : s.reqQueueType t = .blockedByBufDep := (others t diff).symm.trans blocked
    have notFlight : t ∉ flight := by
      intro member
      rw [slotsOk_events.idle slots member] at before
      cases before
    have placed := Placed.of_startReleasedReq started (slots.submittable t before).1
    have allowedNow : fair ((s.setQueues queues).cut x) t := by
      have checked : fair s t := by
        apply allowed (s, t)
        rw [releaseChecks, if_pos ⟨real, before⟩]
        exact List.mem_singleton.mpr rfl
      refine tracks.stable checked ?_ rfl rfl rfl
      intro y
      by_cases same : y = x
      · subst same
        have now : ((s.setQueues queues).cut y).reqQueueType y = .free := freed
        rw [now]
        rcases busy with h | h <;> simp [h]
      · have now : ((s.setQueues queues).cut x).reqQueueType y = s.reqQueueType y := others y same
        rw [now]
    have after := tracks.place cutOk (.inl blocked) (by simp [notFlight])
      (fun y other => by
        have taken : ((s.setQueues queues).queues.selectiveGetFromBlockedByBufDepReqQ
          t).reqQueueType y = Function.update queues.reqQueueType t .none y := rfl
        rw [taken, Function.update_of_ne other]
        rfl) placed allowedNow
    rwa [Finset.erase_eq_of_notMem notFlight] at after

/-- A request blocked by its row address is checked again. -/
private theorem recheck {queued : ReqQueue → List Nat} {chNo wayNo : Nat} (tracks : Tracks g b fair O)
    (slots : SlotsOk g s held flight) (ok : O s flight) (queuesOk : QueuesOk g s.queues queued)
    (listed : x ∈ queued (.blockedByRowAddrDep chNo wayNo)) (allowed : fair s x)
    (done : s.recheckRowAddrDep g x chNo wayNo = some s') : O s' flight := by
  obtain ⟨check, ⟨permitted, rfl⟩ | ⟨-, rfl⟩⟩ := recheckRowAddrDep_cases done
  · have type : s.reqQueueType x = .blockedByRowAddrDep := queuesOk.typed _ _ listed
    have notFlight : x ∉ flight := by
      intro member
      rw [slotsOk_events.idle slots member] at type
      cases type
    have others : ∀ y, y ≠ x → (s.queues.selectiveGetFromBlockedByRowAddrDepReqQ x chNo
        wayNo).reqQueueType y = s.reqQueueType y := by
      intro y other
      have taken : (s.queues.selectiveGetFromBlockedByRowAddrDepReqQ x chNo
        wayNo).reqQueueType y = Function.update s.queues.reqQueueType x .none y := rfl
      rw [taken, Function.update_of_ne other]
    have released : false = true ↔ x ∈ flight := by simp [notFlight]
    have nand := (tracks.waiting ok).rowNand x type
    have after : O (((s.passed g x false).setQueues
        (s.queues.selectiveGetFromBlockedByRowAddrDepReqQ x chNo wayNo)).putToNandReqQ x chNo wayNo)
        (flight.erase x) :=
      tracks.enter ok (.inr (.inl type)) released others nand check permitted allowed
    rwa [Finset.erase_eq_of_notMem notFlight] at after
  · exact ok

/-- A READ goes from one phase to the other. -/
private theorem readPhase {chNo wayNo : Nat} (tracks : Tracks g b fair O) (slots : SlotsOk g s held flight)
    (ok : O s flight) (code : ReqCode) (real : s.queues.links.head (.nand chNo wayNo) ≠ reqSlotTagNone) :
    O (s.setReq (s.queues.links.head (.nand chNo wayNo))
      { s.reqPool (s.queues.links.head (.nand chNo wayNo)) with reqCode := code }) flight := by
  obtain ⟨queued, queuesOk⟩ := slots.queued
  obtain ⟨xs, shape⟩ := queuesOk.head_cons real
  have type : s.reqQueueType (s.queues.links.head (.nand chNo wayNo)) = .nand :=
    queuesOk.typed (.nand chNo wayNo) _ (by simp [shape])
  refine tracks.frame ok (fun _ _ => rfl) ?_ rfl rfl rfl rfl
  intro y waits
  have diff : y ≠ s.queues.links.head (.nand chNo wayNo) := by
    rintro rfl
    rcases waits with h | h | h
    · rw [h] at type
      cases type
    · rw [h] at type
      cases type
    · rw [slotsOk_events.idle slots h] at type
      cases type
  simp [setReq, diff]

/-- The property is kept by everything that can happen while the firmware waits. -/
theorem events (tracks : Tracks g b fair O) :
    EventClosed g fair fun s held flight => BuffersOk g s held flight ∧ O s flight where
  queued ok := buffersOk_events.queued ok.1
  idle ok := buffersOk_events.idle ok.1
  submittable ok := buffersOk_events.submittable ok.1
  complete ok retires allowed done :=
    ⟨buffersOk_events.complete ok.1 retires (fun _ _ => trivial) done,
      tracks.complete ok.1.1 ok.2 retires allowed done⟩
  recheck ok queuesOk listed allowed done :=
    ⟨buffersOk_events.recheck ok.1 queuesOk listed trivial done,
      tracks.recheck ok.1.1 ok.2 queuesOk listed allowed done⟩
  readPhase code phase ok real :=
    ⟨buffersOk_events.readPhase code phase ok.1 real, tracks.readPhase ok.1.1 ok.2 code real⟩

/-- The property is kept by every operation. -/
theorem ops (tracks : Tracks g b fair O) :
    OpClosed g fair fun s held flight => BuffersOk g s held flight ∧ O s flight where
  toEventClosed := tracks.events
  place := by
    intro s held flight x s' ok member free allowed submittable placed
    refine ⟨buffersOk_ops.place ok.1 member free trivial submittable placed, ?_⟩
    have placed' : Placed g (s.setQueues s.queues) x true s' := placed
    exact tracks.place ok.2 (.inr (.inr member)) (by simp [member]) (fun _ _ => rfl) placed' allowed
  hold := by
    intro s held flight x ok member blocked allowed addr
    refine ⟨buffersOk_ops.hold ok.1 member blocked allowed addr, ?_⟩
    obtain ⟨⟨slots, chain, chains⟩, order⟩ := ok
    have waits : s.Waiting flight x := .inr (.inr member)
    have moved : ∀ y, (s.hold g x).reqQueueType y =
        Function.update s.queues.reqQueueType x .blockedByBufDep y := fun _ => rfl
    have step : Concerns s (s.hold g x) x :=
      ⟨fun y _ => by rw [hold_reqPool], fun y diff => by rw [moved, Function.update_of_ne diff],
        hold_submissions, hold_submission⟩
    have notErase : blockReq g b (s.reqPool x) ≠ some .erase := by
      intro erase
      have entry := ((tracks.waiting order).whole x waits erase).2
      refine blocked (chains.linked.detached x fun k listed => ?_).1
      rw [chains.owner k x listed] at entry
      cases entry
    have queue : (s.hold g x).reqQueueType x = .blockedByBufDep := by
      rw [moved, Function.update_self]
    by_cases checked : (s.reqPool x).reqType = .nand ∧ (s.reqPool x).rowAddrDependencyCheck = true
    · exact tracks.again order step (by rw [hold_reqPool]) waits (by simp [member]) checked.1
        (addr checked.1 checked.2) hold_started (.inr ⟨queue, notErase⟩) (hold_checked checked)
    · have none : blockReq g b (s.reqPool x) = none := by
        by_contra asks
        have nand : (s.reqPool x).reqType = .nand := by
          by_contra other
          exact asks (by simp [blockReq, other])
        exact checked ⟨nand, (tracks.waiting order).checked x waits asks⟩
      have table : (s.hold g x).rowAddrDependency = s.rowAddrDependency := hold_unchecked checked
      exact tracks.refuse_other order step (by rw [hold_reqPool]) waits none hold_started
        (.inr ⟨queue, notErase⟩) (by rw [table])
  alloc := by
    intro s held ok real
    refine ⟨buffersOk_ops.alloc ok.1 real, ?_⟩
    obtain ⟨⟨slots, chains⟩, order⟩ := ok
    obtain ⟨queued, queuesOk⟩ := slots.queued
    obtain ⟨xs, shape⟩ := queuesOk.head_cons real
    have type : s.reqQueueType (s.queues.links.head .free) = .free :=
      queuesOk.typed .free _ (by simp [shape])
    exact tracks.frame_slot (x := s.queues.links.head .free) order rfl (by simp [type]) (by simp)
      (fun _ _ => rfl) rfl rfl rfl rfl
  putSlice := by
    intro s held x req ok member
    refine ⟨buffersOk_ops.putSlice req ok.1 member, ?_⟩
    obtain ⟨⟨slots, chains⟩, order⟩ := ok
    have type : s.reqQueueType x = .none :=
      (slots.taken x (slots.inPool x (.inl member))).mpr (.inl member)
    refine tracks.frame_slot (x := x) order rfl (by simp [type]) (by simp [ReqQueue.queueType]) ?_ rfl rfl
      rfl rfl
    intro y waits
    have diff : y ≠ x := by
      rintro rfl
      simp [Waiting, type] at waits
    simp [setReq, setQueues, diff]
  getSlice := by
    intro s held ok real
    refine ⟨buffersOk_ops.getSlice ok.1 real, ?_⟩
    obtain ⟨⟨slots, chains⟩, order⟩ := ok
    obtain ⟨queued, queuesOk⟩ := slots.queued
    obtain ⟨xs, shape⟩ := queuesOk.head_cons real
    have type : s.reqQueueType (s.queues.links.head .slice) = .slice :=
      queuesOk.typed .slice _ (by simp [shape])
    exact tracks.frame_slot (x := s.queues.links.head .slice) order rfl (by simp [type]) (by simp)
      (fun _ _ => rfl) rfl rfl rfl rfl

/-- A submission in turn is prepared in a slot the running code holds. -/
theorem submit (tracks : Tracks g b fair O) (ok : BuffersOk g s held ∅ ∧ O s ∅) (member : x ∈ held)
    (turn : SubmitsInTurn g b s req) :
    BuffersOk g (s.prepare x req) (held.erase x) {x} ∧ O (s.prepare x req) {x} := by
  have slots := ok.1.1
  have inPool := slots.inPool x (.inl member)
  have idle := (slots.taken x inPool).mpr (.inl member)
  exact ⟨buffersOk_prepare ok.1 member req, tracks.prepare ok.2 idle inPool turn⟩

/-- An operation in turn keeps the property as long as its checks are fair. -/
theorem step {fw fw' : Firmware} {op : RequestOp} (tracks : Tracks g b fair O)
    (ok : BuffersOk g fw.layer fw.held ∅ ∧ O fw.layer ∅) (turn : OpInTurn g b fw op)
    (met : ∀ p ∈ opChecks g fw op, fair p.1 p.2) (done : requestStep g fw op = some fw') :
    BuffersOk g fw'.layer fw'.held ∅ ∧ O fw'.layer ∅ := by
  apply requestStep_closed tracks.ops ok _ met done
  rintro x req es rfl member -
  exact tracks.submit ok member turn

/-- The property holds after every run of operations in turn whose checks are fair. -/
theorem run {ops : List RequestOp} {fw : Firmware} (tracks : Tracks g b fair O)
    (run : Run (requestStep g)
      (fun fw op => OpInTurn g b fw op ∧ ∀ p ∈ opChecks g fw op, fair p.1 p.2) (initFirmware g) ops fw) :
    BuffersOk g fw.layer fw.held ∅ ∧ O fw.layer ∅ := by
  apply run.invariant (fun fw => BuffersOk g fw.layer fw.held ∅ ∧ O fw.layer ∅)
    ⟨⟨SlotsOk.init, _, ChainsOk.init⟩, tracks.init⟩
  intro fw op fw' ok met done
  exact tracks.step ok met.1 met.2 done

end Tracks
end OcpFw
