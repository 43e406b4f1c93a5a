import OcpFw.SlotConservation

/-! Requests that share a buffer entry run one after the other, in the order in which
they were attached. The chain of an entry holds exactly its outstanding requests; only
the first of them is with the hardware or at its die, and completing it starts the next. -/
namespace OcpFw
open RequestLayer
open Runs (Run exec run_of_exec_any)

namespace RequestLayer

/-- The slot holds a request that was submitted and is not finished. -/
def Outstanding (s : RequestLayer) (x : Nat) : Prop :=
  s.reqQueueType x = .blockedByBufDep ∨ s.reqQueueType x = .blockedByRowAddrDep ∨
    s.reqQueueType x = .nvmeDma ∨ s.reqQueueType x = .nand

/-- The request left the queue of its buffer: it is with the hardware or at its die. -/
def Released (s : RequestLayer) (x : Nat) : Prop :=
  s.reqQueueType x = .nvmeDma ∨ s.reqQueueType x = .nand ∨
    s.reqQueueType x = .blockedByRowAddrDep

@[simp] theorem prepare_outstanding {s : RequestLayer} {x y : Nat} {req : SsdReq} :
    (s.prepare x req).Outstanding y ↔ s.Outstanding y := Iff.rfl

theorem Released.outstanding {s : RequestLayer} {x : Nat} (h : s.Released x) : s.Outstanding x := by
  rcases h with h | h | h
  · exact .inr (.inr (.inl h))
  · exact .inr (.inr (.inr h))
  · exact .inr (.inl h)

end RequestLayer

/-- The chains of all buffer entries between two operations. -/
structure BufferChains (s : RequestLayer) (chain : BufEntry → List Nat) : Prop where
  linked : ∀ b, Dll.Seg s.blocking.prevBlockingReq s.blocking.nextBlockingReq reqSlotTagNone
    (chain b) reqSlotTagNone
  tail : ∀ b, s.blocking.blockingReqTail b = (chain b).getLastD reqSlotTagNone
  tailNone : ∀ b, s.blocking.blockingReqTail b = reqSlotTagNone ↔ chain b = []
  members : ∀ b x, x ∈ chain b ↔ s.Outstanding x ∧ (s.reqPool x).bufEntry = some b
  attachmentOrder : ∀ b, (chain b).Pairwise fun x y => s.submission x < s.submission y
  onlyHead : ∀ b x xs, chain b = x :: xs →
    s.Released x ∧ ∀ y ∈ xs, s.reqQueueType y = .blockedByBufDep
  nothingElse : ∀ x, s.reqQueueType x = .blockedByBufDep → ∃ b z xs, chain b = z :: xs ∧ x ∈ xs
  freeDetached : ∀ x, s.reqQueueType x = .free →
    s.blocking.prevBlockingReq x = reqSlotTagNone ∧ s.blocking.nextBlockingReq x = reqSlotTagNone

/-- The invariant behind it, in which requests in progress may already be attached. -/
structure ChainsOk (s : RequestLayer) (flight : Finset Nat) (chain : BufEntry → List Nat) : Prop where
  linked : Chained s.blocking chain
  owner : ∀ b, ∀ x ∈ chain b, (s.reqPool x).bufEntry = some b
  member : ∀ b, ∀ x ∈ chain b, s.Outstanding x ∨ x ∈ flight
  attached : ∀ b x, (s.reqPool x).bufEntry = some b → s.Outstanding x ∨ x ∈ flight → x ∈ chain b
  head : ∀ b x xs, chain b = x :: xs → s.reqQueueType x ≠ .blockedByBufDep
  waiting : ∀ b x xs, chain b = x :: xs → ∀ y ∈ xs, s.reqQueueType y = .blockedByBufDep ∨ y ∈ flight
  blocked : ∀ x, s.reqQueueType x = .blockedByBufDep → ∃ b, x ∈ chain b
  order : ∀ b, (chain b).Pairwise fun x y => s.submission x < s.submission y
  recent : ∀ b, ∀ x ∈ chain b, s.submission x < s.submissions.length

namespace ChainsOk
variable {g : Geometry} {s s' : RequestLayer} {held flight flight' : Finset Nat} {x y : Nat}
  {b : BufEntry} {xs : List Nat} {chain : BufEntry → List Nat}

theorem init : ChainsOk (initRequestLayer g) ∅ (fun _ => []) where
  linked := .init
  owner b x member := by simp at member
  member b x member := by simp at member
  attached b x _ busy := by
    rcases busy with busy | busy
    · simp only [Outstanding, reqQueueType, initRequestLayer, RequestQueues.initReqPool] at busy
      split at busy <;> simp at busy
    · simp at busy
  head b x xs shape := by simp at shape
  waiting b x xs shape := by simp at shape
  blocked x type := by
    simp only [reqQueueType, initRequestLayer, RequestQueues.initReqPool] at type
    split at type <;> cases type
  order b := .nil
  recent b x member := by simp at member

/-- A request with the hardware is first in its chain or has no buffer entry. -/
theorem first_of_released (ok : ChainsOk s flight chain) (idle : ∀ y ∈ flight, s.reqQueueType y = .none)
    (released : s.Released x) (member : x ∈ chain b) : ∃ xs, chain b = x :: xs := by
  cases shape : chain b with
  | nil => simp [shape] at member
  | cons z zs =>
    rw [shape] at member
    rcases List.mem_cons.mp member with rfl | later
    · exact ⟨zs, rfl⟩
    · rcases ok.waiting b z zs shape x later with type | inFlight
      · rcases released with h | h | h <;> rw [type] at h <;> cases h
      · have type := idle x inFlight
        rcases released with h | h | h <;> rw [type] at h <;> cases h

/-- A request that is first in its chain, or in none, is released. -/
theorem release (ok : ChainsOk s flight chain) (blocking : s'.blocking = s.blocking)
    (entries : ∀ y, (s'.reqPool y).bufEntry = (s.reqPool y).bufEntry)
    (stamps : s'.submission = s.submission) (count : s'.submissions = s.submissions)
    (types : ∀ y, y ≠ x → s'.reqQueueType y = s.reqQueueType y)
    (busy : s.Outstanding x ∨ x ∈ flight) (released : s'.Released x)
    (first : ∀ b z xs, chain b = z :: xs → x ∉ xs) : ChainsOk s' (flight.erase x) chain := by
  have here : s'.reqQueueType x ≠ .blockedByBufDep := by
    intro type
    rcases released with h | h | h <;> rw [type] at h <;> cases h
  have busy' : ∀ y, s'.Outstanding y ∨ y ∈ flight.erase x ↔ s.Outstanding y ∨ y ∈ flight := by
    intro y
    by_cases same : y = x
    · subst same
      simp [released.outstanding, busy]
    · simp [Outstanding, types y same, same]
  constructor
  · exact blocking ▸ ok.linked
  · exact fun b y member => (entries y).trans (ok.owner b y member)
  · exact fun b y member => (busy' y).mpr (ok.member b y member)
  · exact fun b y entry busy => ok.attached b y ((entries y).symm.trans entry) ((busy' y).mp busy)
  · intro b y ys shape
    by_cases same : y = x
    · exact same ▸ here
    · rw [types y same]
      exact ok.head b y ys shape
  · intro b z xs shape y later
    have diff : y ≠ x := fun same => first b z xs shape (same ▸ later)
    rw [types y diff]
    rcases ok.waiting b z xs shape y later with type | inFlight
    · exact .inl type
    · exact .inr (Finset.mem_erase.mpr ⟨diff, inFlight⟩)
  · intro y type
    have diff : y ≠ x := by
      rintro rfl
      exact here type
    exact ok.blocked y (types y diff ▸ type)
  · exact fun b => stamps ▸ ok.order b
  · exact fun b y member => by simpa [stamps, count] using ok.recent b y member

/-- A request in progress that has a predecessor is held back. -/
theorem hold (ok : ChainsOk s flight chain) (member : x ∈ flight) (blocked : ¬ s.CheckBufDep x)
    (blocking : s'.blocking = s.blocking)
    (entries : ∀ y, (s'.reqPool y).bufEntry = (s.reqPool y).bufEntry)
    (stamps : s'.submission = s.submission) (count : s'.submissions = s.submissions)
    (types : ∀ y, y ≠ x → s'.reqQueueType y = s.reqQueueType y)
    (type : s'.reqQueueType x = .blockedByBufDep) : ChainsOk s' (flight.erase x) chain := by
  have busy' : ∀ y, s'.Outstanding y ∨ y ∈ flight.erase x ↔ s.Outstanding y ∨ y ∈ flight := by
    intro y
    by_cases same : y = x
    · subst same
      simp [Outstanding, type, member]
    · simp [Outstanding, types y same, same]
  constructor
  · exact blocking ▸ ok.linked
  · exact fun b y listed => (entries y).trans (ok.owner b y listed)
  · exact fun b y listed => (busy' y).mpr (ok.member b y listed)
  · exact fun b y entry busy => ok.attached b y ((entries y).symm.trans entry) ((busy' y).mp busy)
  · intro b y ys shape
    have diff : y ≠ x := by
      rintro rfl
      exact blocked ((ok.linked.prev_eq_none (b := b) (by simp [shape])).mpr ⟨ys, shape⟩)
    rw [types y diff]
    exact ok.head b y ys shape
  · intro b z xs shape y later
    by_cases same : y = x
    · exact .inl (same ▸ type)
    · rw [types y same]
      rcases ok.waiting b z xs shape y later with type | inFlight
      · exact .inl type
      · exact .inr (Finset.mem_erase.mpr ⟨same, inFlight⟩)
  · intro y held
    by_cases same : y = x
    · subst same
      by_contra none
      exact blocked (ok.linked.detached y (by simpa using none)).1
    · exact ok.blocked y (types y same ▸ held)
  · exact fun b => stamps ▸ ok.order b
  · exact fun b y listed => by simpa [stamps, count] using ok.recent b y listed

/-- A held request is taken out of the buffer queue. -/
theorem wake (ok : ChainsOk s flight chain) (held : s.reqQueueType y = .blockedByBufDep) :
    ChainsOk (s.setQueues { s.queues with
      reqQueueType := Function.update s.queues.reqQueueType y .none }) (insert y flight) chain := by
  set t := s.setQueues { s.queues with
    reqQueueType := Function.update s.queues.reqQueueType y .none }
  have here : t.reqQueueType y = .none := Function.update_self ..
  have types : ∀ z, z ≠ y → t.reqQueueType z = s.reqQueueType z :=
    fun z diff => Function.update_of_ne diff ..
  have busy' : ∀ z, t.Outstanding z ∨ z ∈ insert y flight ↔ s.Outstanding z ∨ z ∈ flight := by
    intro z
    by_cases same : z = y
    · simp [same, Outstanding, held]
    · simp [Outstanding, types z same, same]
  constructor
  · exact ok.linked
  · exact ok.owner
  · exact fun b z listed => (busy' z).mpr (ok.member b z listed)
  · exact fun b z entry busy => ok.attached b z entry ((busy' z).mp busy)
  · intro b z zs shape
    by_cases same : z = y
    · simp [same, here]
    · rw [types z same]
      exact ok.head b z zs shape
  · intro b w xs shape z later
    by_cases same : z = y
    · exact .inr (by simp [same])
    · rw [types z same]
      exact (ok.waiting b w xs shape z later).imp_right (Finset.mem_insert_of_mem ·)
  · intro z type
    have diff : z ≠ y := by
      rintro rfl
      rw [here] at type
      cases type
    exact ok.blocked z (types z diff ▸ type)
  · exact ok.order
  · exact ok.recent

/-- The first request of a chain is finished and cut off. -/
theorem drop (ok : ChainsOk s flight chain) (shape : chain b = x :: xs) (notFlight : x ∉ flight)
    (blocking : s'.blocking = (s.blocking.splitAt (some b) x).2)
    (reqs : s'.reqPool = s.reqPool)
    (stamps : s'.submission = s.submission) (count : s'.submissions = s.submissions)
    (types : ∀ y, y ≠ x → s'.reqQueueType y = s.reqQueueType y) (free : s'.reqQueueType x = .free)
    (next : ∀ y ys, xs = y :: ys → s.reqQueueType y ≠ .blockedByBufDep) :
    ChainsOk s' flight (Function.update chain b xs) := by
  have apart : x ∉ xs := (ok.linked.holds.split_ne (show chain b = [] ++ x :: xs from shape)).2.1
  have old : ∀ k, ∀ y ∈ Function.update chain b xs k, y ∈ chain k ∧ y ≠ x := by
    intro k y listed
    by_cases same : k = b
    · subst same
      rw [Function.update_self] at listed
      exact ⟨by simp [shape, listed], fun here => apart (here ▸ listed)⟩
    · rw [Function.update_of_ne same] at listed
      refine ⟨listed, fun here => same ?_⟩
      exact ok.linked.holds.disjoint k b x (here ▸ listed) (by simp [shape])
  constructor
  · exact blocking ▸ (ok.linked.splitAt shape).2
  · exact fun k y listed => reqs ▸ ok.owner k y (old k y listed).1
  · intro k y listed
    obtain ⟨before, diff⟩ := old k y listed
    simpa [Outstanding, types y diff] using ok.member k y before
  · intro k y entry busy
    have diff : y ≠ x := by
      rintro rfl
      simp [Outstanding, free, notFlight] at busy
    have before := ok.attached k y (reqs ▸ entry) (by simpa [Outstanding, types y diff] using busy)
    by_cases same : k = b
    · subst same
      rw [shape] at before
      simpa [diff] using before
    · simpa [same] using before
  · intro k y ys listed
    by_cases same : k = b
    · subst same
      rw [Function.update_self] at listed
      have diff : y ≠ x := fun here => apart (by simp [listed, here])
      rw [types y diff]
      exact next y ys listed
    · rw [Function.update_of_ne same] at listed
      have diff : y ≠ x := (old k y (by simp [same, listed])).2
      rw [types y diff]
      exact ok.head k y ys listed
  · intro k z zs listed y later
    have diff : y ≠ x := (old k y (by rw [listed]; simp [later])).2
    rw [types y diff]
    by_cases same : k = b
    · subst same
      rw [Function.update_self] at listed
      exact ok.waiting k x xs shape y (by simp [listed, later])
    · rw [Function.update_of_ne same] at listed
      exact ok.waiting k z zs listed y later
  · intro y type
    have diff : y ≠ x := by
      rintro rfl
      rw [free] at type
      cases type
    obtain ⟨k, listed⟩ := ok.blocked y (types y diff ▸ type)
    by_cases same : k = b
    · subst same
      rw [shape] at listed
      exact ⟨k, by simpa [diff] using listed⟩
    · exact ⟨k, by simpa [same] using listed⟩
  · intro k
    rw [stamps]
    by_cases same : k = b
    · subst same
      have all := ok.order k
      rw [shape] at all
      simpa using (List.pairwise_cons.mp all).2
    · simpa [same] using ok.order k
  · intro k y listed
    rw [stamps, count]
    exact ok.recent k y (old k y listed).1

/-- A slot in no chain changes its state or its fields, and holds no request afterwards. -/
theorem other (ok : ChainsOk s flight chain) (blocking : s'.blocking = s.blocking)
    (stamps : s'.submission = s.submission) (count : s'.submissions = s.submissions)
    (same : ∀ y, y ≠ x → s'.reqQueueType y = s.reqQueueType y ∧ s'.reqPool y = s.reqPool y)
    (outside : ∀ b, x ∉ chain b) (after : ¬ s'.Outstanding x) (notFlight : x ∉ flight) :
    ChainsOk s' flight chain := by
  have diff : ∀ b, ∀ y ∈ chain b, y ≠ x := fun b y listed here => outside b (here ▸ listed)
  have busy : ∀ y, s'.Outstanding y ∨ y ∈ flight → y ≠ x := by
    rintro y busy rfl
    exact busy.elim after notFlight
  constructor
  · exact blocking ▸ ok.linked
  · exact fun b y listed => (same y (diff b y listed)).2 ▸ ok.owner b y listed
  · intro b y listed
    simpa [Outstanding, (same y (diff b y listed)).1] using ok.member b y listed
  · intro b y entry out
    have kept := same y (busy y out)
    exact ok.attached b y (kept.2 ▸ entry) (by simpa [Outstanding, kept.1] using out)
  · intro b y ys shape
    rw [(same y (diff b y (by simp [shape]))).1]
    exact ok.head b y ys shape
  · intro b z xs shape y later
    rw [(same y (diff b y (by simp [shape, later]))).1]
    exact ok.waiting b z xs shape y later
  · intro y type
    have kept := same y (busy y (.inl (.inl type)))
    exact ok.blocked y (kept.1 ▸ type)
  · exact fun b => stamps ▸ ok.order b
  · exact fun b y listed => by simpa [stamps, count] using ok.recent b y listed

/-- A slot that holds no submitted request is in no chain. -/
theorem outside (ok : ChainsOk s flight chain) (idle : ¬ s.Outstanding x) (notFlight : x ∉ flight)
    (b : BufEntry) : x ∉ chain b :=
  fun listed => (ok.member b x listed).elim idle notFlight

/-- A slot in no queue is filled in; with no buffer entry it joins no chain. -/
private theorem prepare_none (ok : ChainsOk s ∅ chain) (outside : ∀ b, x ∉ chain b) (req : SsdReq)
    (entry : req.bufEntry = none) : ChainsOk (s.prepare x req) {x} chain := by
  have diff : ∀ b, ∀ y ∈ chain b, y ≠ x := fun b y listed same => outside b (same ▸ listed)
  constructor
  · simpa [RequestLayer.prepare, BlockingLinks.attach_eq, entry] using ok.linked
  · intro b y listed
    simpa [RequestLayer.prepare, diff b y listed] using ok.owner b y listed
  · exact fun b y listed => .inl (by simpa using ok.member b y listed)
  · intro b y owner busy
    by_cases same : y = x
    · simp [RequestLayer.prepare, same, entry] at owner
    · exact ok.attached b y (by simpa [RequestLayer.prepare, same] using owner)
        (.inl (by simpa [same] using busy))
  · exact ok.head
  · exact fun b z xs shape y later => (ok.waiting b z xs shape y later).imp_right (by simp)
  · exact ok.blocked
  · intro b
    apply (ok.order b).imp_of_mem
    intro y z first second before
    simpa [RequestLayer.prepare, diff b y first, diff b z second] using before
  · intro b y listed
    have before := ok.recent b y listed
    simp only [RequestLayer.prepare, Function.update_of_ne (diff b y listed), List.length_append,
      List.length_singleton]
    omega

/-- A slot in no queue is filled in and becomes the last one of its buffer entry. -/
private theorem prepare_some (ok : ChainsOk s ∅ chain) (real : x ≠ reqSlotTagNone)
    (outside : ∀ b, x ∉ chain b) (idle : s.reqQueueType x = .none) (req : SsdReq)
    (entry : req.bufEntry = some b) :
    ChainsOk (s.prepare x req) {x} (Function.update chain b (chain b ++ [x])) := by
  have diff : ∀ b, ∀ y ∈ chain b, y ≠ x := fun b y listed same => outside b (same ▸ listed)
  have listed_iff : ∀ k y, y ∈ Function.update chain b (chain b ++ [x]) k ↔
      y ∈ chain k ∨ k = b ∧ y = x := by
    intro k y
    by_cases same : k = b
    · subst same
      simp
    · simp [same]
  constructor
  · simpa [RequestLayer.prepare, BlockingLinks.attach_eq, entry] using ok.linked.update real outside
  · intro k y listed
    rcases (listed_iff k y).mp listed with old | ⟨rfl, rfl⟩
    · simpa [RequestLayer.prepare, diff k y old] using ok.owner k y old
    · simpa [RequestLayer.prepare] using entry
  · intro k y listed
    rcases (listed_iff k y).mp listed with old | ⟨-, rfl⟩
    · exact .inl (by simpa using ok.member k y old)
    · exact .inr (by simp)
  · intro k y owner busy
    rw [listed_iff]
    by_cases same : y = x
    · subst same
      simp only [RequestLayer.prepare, Function.update_self, entry, Option.some.injEq] at owner
      exact .inr ⟨owner.symm, rfl⟩
    · exact .inl (ok.attached k y (by simpa [RequestLayer.prepare, same] using owner)
        (.inl (by simpa [same] using busy)))
  · intro k y ys shape
    change s.reqQueueType y ≠ _
    by_cases same : k = b
    · subst same
      rw [Function.update_self] at shape
      cases old : chain k with
      | nil =>
        rw [old, List.nil_append, List.cons.injEq] at shape
        rw [← shape.1, idle]
        simp
      | cons z zs =>
        rw [old, List.cons_append, List.cons.injEq] at shape
        exact shape.1 ▸ ok.head k z zs old
    · rw [Function.update_of_ne same] at shape
      exact ok.head k y ys shape
  · intro k z zs shape y later
    change s.reqQueueType y = _ ∨ _
    by_cases same : k = b
    · subst same
      rw [Function.update_self] at shape
      cases old : chain k with
      | nil =>
        rw [old, List.nil_append, List.cons.injEq] at shape
        simp [← shape.2] at later
      | cons w ws =>
        rw [old, List.cons_append, List.cons.injEq] at shape
        rw [← shape.2, List.mem_append, List.mem_singleton] at later
        rcases later with later | rfl
        · exact .inl (by simpa using ok.waiting k w ws old y later)
        · exact .inr (by simp)
    · rw [Function.update_of_ne same] at shape
      exact (ok.waiting k z zs shape y later).imp_right (by simp)
  · intro y type
    obtain ⟨k, old⟩ := ok.blocked y type
    exact ⟨k, (listed_iff k y).mpr (.inl old)⟩
  · intro k
    have kept : (chain k).Pairwise fun y z =>
        (s.prepare x req).submission y < (s.prepare x req).submission z := by
      apply (ok.order k).imp_of_mem
      intro y z first second before
      simpa [RequestLayer.prepare, diff k y first, diff k z second] using before
    by_cases same : k = b
    · subst same
      rw [Function.update_self, List.pairwise_append]
      refine ⟨kept, by simp, fun y listed z last => ?_⟩
      rw [List.mem_singleton.mp last]
      simpa [RequestLayer.prepare, diff k y listed] using ok.recent k y listed
    · rwa [Function.update_of_ne same]
  · intro k y listed
    rcases (listed_iff k y).mp listed with old | ⟨-, rfl⟩
    · have before := ok.recent k y old
      simp only [RequestLayer.prepare, Function.update_of_ne (diff k y old), List.length_append,
        List.length_singleton]
      omega
    · simp [RequestLayer.prepare]

/-- A slot in no queue is filled in and attached to its buffer entry, if it has one. -/
theorem prepare (ok : ChainsOk s ∅ chain) (real : x ≠ reqSlotTagNone)
    (idle : s.reqQueueType x = .none) (req : SsdReq) :
    ∃ chain', ChainsOk (s.prepare x req) {x} chain' := by
  have outside := ok.outside (by simp [Outstanding, idle]) (Finset.notMem_empty x)
  cases entry : req.bufEntry with
  | none => exact ⟨chain, ok.prepare_none outside req entry⟩
  | some b => exact ⟨_, ok.prepare_some real outside idle req entry⟩

end ChainsOk

/-! ### The invariant over whole runs -/

/-- The queues and the chains together. -/
def BuffersOk (g : Geometry) (s : RequestLayer) (held flight : Finset Nat) : Prop :=
  SlotsOk g s held flight ∧ ∃ chain, ChainsOk s flight chain

variable {g : Geometry} {s s' : RequestLayer} {held flight : Finset Nat} {x y : Nat} {b : BufEntry}
  {chain : BufEntry → List Nat}

/-- A placed request is released; nothing else that a chain depends on changes. -/
theorem RequestLayer.Placed.released {select : Bool} (placed : Placed g s x select s')
    (allowed : Submittable g (s.reqPool x)) :
    s'.Released x ∧ (∀ y, y ≠ x → s'.reqQueueType y = s.reqQueueType y) ∧
      s'.blocking = s.blocking ∧ s'.submission = s.submission ∧ s'.submissions = s.submissions ∧
      ∀ y, (s'.reqPool y).bufEntry = (s.reqPool y).bufEntry := by
  obtain ⟨q, -, kind, queues⟩ := placed.queues allowed
  have here : s'.reqQueueType x = q.queueType := by
    rw [reqQueueType, queues]
    simp [RequestQueues.putTo]
  refine ⟨by simpa [Released, here] using kind, ?_, ?_⟩
  · intro y diff
    rw [reqQueueType, queues]
    simp [RequestQueues.putTo, diff]
  · rcases placed.cases with ⟨-, info, hostDma, rfl⟩ |
      ⟨-, chNo, wayNo, -, ⟨-, rfl⟩ | ⟨-, -, rfl⟩ | ⟨-, -, rfl⟩⟩
    · refine ⟨rfl, rfl, rfl, fun y => ?_⟩
      by_cases same : y = x <;> simp [issued, setQueues, same, SsdReq.bufEntry]
    · exact ⟨rfl, rfl, rfl, fun _ => rfl⟩
    · exact ⟨rfl, rfl, rfl, fun _ => rfl⟩
    · simp [putToBlockedByRowAddrDepReqQ, setQueues]

/-- The one behind the first request comes first without it, and is in no other chain. -/
private theorem ChainsOk.head_first (ok : ChainsOk s flight chain) {y : Nat} {ys : List Nat}
    (shape : chain b = x :: y :: ys) :
    ∀ k z zs, Function.update chain b (y :: ys) k = z :: zs → y ∉ zs := by
  intro k z zs listed later
  by_cases same : k = b
  · subst same
    rw [Function.update_self, List.cons.injEq] at listed
    rw [← listed.2] at later
    have apart := ok.linked.holds.nodup k
    rw [shape] at apart
    simp [later] at apart
  · rw [Function.update_of_ne same] at listed
    exact same (ok.linked.holds.disjoint k b y (by simp [listed, later]) (by simp [shape]))

section
variable {queues : RequestQueues} {xs : List Nat}

/-- A request with no buffer entry finishes. -/
private theorem ChainsOk.finish_alone (ok : ChainsOk s flight chain) (outside : ∀ b, x ∉ chain b)
    (real : x ≠ reqSlotTagNone) (notFlight : x ∉ flight)
    (others : ∀ y, y ≠ x → queues.reqQueueType y = s.reqQueueType y) (freed : queues.reqQueueType x = .free) :
    ChainsOk ((s.setQueues queues).cut x) flight chain := by
  have same := ok.linked.splitAt_detached real outside (s.reqPool x).bufEntry
  refine ok.other (x := x) ?_ rfl rfl (fun y diff => ⟨others y diff, rfl⟩) outside ?_ notFlight
  · simp [RequestLayer.cut, setQueues, same]
  · have type : ((s.setQueues queues).cut x).reqQueueType x = .free := freed
    simp [Outstanding, type]

/-- The first request of a chain finishes, and the one behind it is not held back. -/
private theorem ChainsOk.finish_first (ok : ChainsOk s flight chain) (shape : chain b = x :: xs)
    (notFlight : x ∉ flight) (others : ∀ y, y ≠ x → queues.reqQueueType y = s.reqQueueType y)
    (freed : queues.reqQueueType x = .free)
    (none : ¬ (s.blocking.nextBlockingReq x ≠ reqSlotTagNone ∧
      queues.reqQueueType (s.blocking.nextBlockingReq x) = .blockedByBufDep)) :
    ChainsOk ((s.setQueues queues).cut x) flight (Function.update chain b xs) := by
  have entry := ok.owner b x (by simp [shape])
  have blocking : ((s.setQueues queues).cut x).blocking = (s.blocking.splitAt (some b) x).2 := by
    simp [RequestLayer.cut, setQueues, entry]
  refine ok.drop shape notFlight blocking rfl rfl rfl others freed ?_
  rintro y ys rfl type
  have diff : y ≠ x := by
    rintro rfl
    exact (ok.linked.holds.split_ne (show chain b = [] ++ y :: y :: ys from shape)).2.1 (by simp)
  apply none
  rw [ok.linked.next_of_head shape, List.headD_cons]
  exact ⟨ok.linked.holds.ne_nil (k := b) (by simp [shape]), (others y diff).trans type⟩

/-- The first request of a chain finishes, and the one behind it is taken out of its queue. -/
private theorem ChainsOk.finish_wake (ok : ChainsOk s flight chain) {ys : List Nat} (shape : chain b = x :: y :: ys)
    (notFlight : x ∉ flight) (diff : y ≠ x) (others : ∀ y, y ≠ x → queues.reqQueueType y = s.reqQueueType y)
    (freed : queues.reqQueueType x = .free) (held : s.reqQueueType y = .blockedByBufDep) :
    ChainsOk (((s.setQueues queues).cut x).setQueues (queues.selectiveGetFromBlockedByBufDepReqQ y)) (insert y flight)
      (Function.update chain b (y :: ys)) := by
  have entry := ok.owner b x (by simp [shape])
  have blocking : (((s.setQueues queues).cut x).setQueues (queues.selectiveGetFromBlockedByBufDepReqQ y)).blocking =
      (s.blocking.splitAt (some b) x).2 := by
    simp [RequestLayer.cut, setQueues, entry]
  have taken : ∀ z, (queues.selectiveGetFromBlockedByBufDepReqQ y).reqQueueType z =
      Function.update queues.reqQueueType y .none z := fun _ => rfl
  apply (ok.wake held).drop shape (by simp [diff.symm, notFlight]) blocking rfl rfl rfl
  · intro z other
    refine (taken z).trans ?_
    change _ = Function.update s.queues.reqQueueType y .none z
    by_cases same : z = y
    · simp [same]
    · simp [same, others z other]
  · refine (taken x).trans ?_
    rw [Function.update_of_ne diff.symm, freed]
  · intro z zs first
    rw [List.cons.injEq] at first
    rw [← first.1]
    change Function.update s.queues.reqQueueType y .none y ≠ _
    simp

end

/-- A completion: the finished request was first in its chain or had no buffer entry, and
the chain goes on without it. -/
theorem BuffersOk.complete {queues : RequestQueues} (ok : BuffersOk g s held flight)
    (retires : s.Retires x queues)
    (done : (s.setQueues queues).releaseBlockedByBufDepReq g x = some s') :
    ∃ chain, ChainsOk s' flight chain := by
  obtain ⟨slots, chain, chains⟩ := ok
  obtain ⟨queued, queuesOk⟩ := slots.queued
  obtain ⟨busy, types, -⟩ := retires.spec queuesOk
  have idle : ∀ y ∈ flight, s.reqQueueType y = .none := fun y member => slotsOk_events.idle slots member
  have released : s.Released x := busy.imp_right .inl
  have notFlight : x ∉ flight := by
    intro member
    rcases busy with h | h <;> rw [idle x member] at h <;> cases h
  have others : ∀ y, y ≠ x → queues.reqQueueType y = s.reqQueueType y := by
    intro y diff
    rw [types, Function.update_of_ne diff]
  have freed : queues.reqQueueType x = .free := by
    rw [types, Function.update_self]
  by_cases attached : ∃ b, x ∈ chain b
  · obtain ⟨b, listed⟩ := attached
    obtain ⟨xs, shape⟩ := chains.first_of_released idle released listed
    rcases releaseBlockedByBufDepReq_cases done with ⟨other, rfl⟩ | ⟨⟨real, held⟩, started⟩
    · exact ⟨_, chains.finish_first shape notFlight others freed other⟩
    · set t := (s.setQueues queues).blocking.nextBlockingReq x with ht
      have target : t = xs.headD reqSlotTagNone := chains.linked.next_of_head shape
      have diff : t ≠ x := by
        intro same
        rw [same, reqQueueType, setQueues, freed] at held
        cases held
      have heldBefore : s.reqQueueType t = .blockedByBufDep := (others t diff).symm.trans held
      obtain ⟨ys, rfl⟩ : ∃ ys, xs = t :: ys := by
        cases xs with
        | nil => exact absurd target real
        | cons y ys => exact ⟨ys, by rw [target, List.headD_cons]⟩
      have tNotFlight : t ∉ flight := by
        intro member
        rw [idle t member] at heldBefore
        cases heldBefore
      have woken := chains.finish_wake shape notFlight diff others freed heldBefore
      have allowed : Submittable g (s.reqPool t) := slots.submittable t heldBefore
      have placed := Placed.of_startReleasedReq started allowed.1
      obtain ⟨now, kept, blockingKept, stamps, count, entries⟩ := placed.released allowed
      have after := woken.release blockingKept entries stamps count kept (.inr (by simp)) now (chains.head_first shape)
      rw [Finset.erase_insert tNotFlight] at after
      exact ⟨_, after⟩
  · have outside : ∀ b, x ∉ chain b := by simpa using attached
    have real : x ≠ reqSlotTagNone := by
      have some : s.reqQueueType x ≠ .none := by rcases busy with h | h <;> rw [h] <;> simp
      obtain ⟨q, listed⟩ := queuesOk.listed x some
      exact queuesOk.ne_none listed
    have next : s.blocking.nextBlockingReq x = reqSlotTagNone := (chains.linked.detached x outside).2
    rcases releaseBlockedByBufDepReq_cases done with ⟨-, rfl⟩ | ⟨⟨real', -⟩, -⟩
    · exact ⟨chain, chains.finish_alone outside real notFlight others freed⟩
    · exact absurd next real'

/-- The invariant is kept by everything that can happen while the firmware waits. -/
theorem buffersOk_events : EventClosed g (fun _ _ => True) (BuffersOk g) where
  queued ok := ok.1.queued
  idle ok := slotsOk_events.idle ok.1
  submittable ok := slotsOk_events.submittable ok.1
  complete ok retires met done := ⟨slotsOk_events.complete ok.1 retires met done, ok.complete retires done⟩
  recheck := by
    intro s held flight queued x chNo wayNo s' ok queuesOk listed met done
    refine ⟨slotsOk_events.recheck ok.1 queuesOk listed met done, ?_⟩
    obtain ⟨slots, chain, chains⟩ := ok
    obtain ⟨-, ⟨-, rfl⟩ | ⟨-, rfl⟩⟩ := recheckRowAddrDep_cases done
    · have type : s.reqQueueType x = .blockedByRowAddrDep := queuesOk.typed _ _ listed
      have idle : ∀ y ∈ flight, s.reqQueueType y = .none :=
        fun y member => slotsOk_events.idle slots member
      have notFlight : x ∉ flight := by
        intro member
        rw [idle x member] at type
        cases type
      have first : ∀ b z xs, chain b = z :: xs → x ∉ xs := by
        intro b z xs shape later
        rcases chains.waiting b z xs shape x later with waits | member
        · rw [waits] at type
          cases type
        · exact notFlight member
      have moved : ∀ y, ((s.queues.selectiveGetFromBlockedByRowAddrDepReqQ x chNo
          wayNo).putToNandReqQ x chNo wayNo).reqQueueType y =
          Function.update (Function.update s.queues.reqQueueType x .none) x .nand y := fun _ => rfl
      have after : ChainsOk (((s.passed g x false).setQueues
          (s.queues.selectiveGetFromBlockedByRowAddrDepReqQ x chNo wayNo)).putToNandReqQ x chNo wayNo)
          (flight.erase x) chain :=
        chains.release rfl (fun _ => rfl) rfl rfl (fun y diff => (moved y).trans (by simp [diff]))
          (.inl (.inr (.inl type))) (.inr (.inl ((moved x).trans (by simp)))) first
      rw [Finset.erase_eq_of_notMem notFlight] at after
      exact ⟨chain, after⟩
    · exact ⟨chain, chains⟩
  readPhase := by
    intro s held flight chNo wayNo code phase ok some
    refine ⟨slotsOk_events.readPhase code phase ok.1 some, ?_⟩
    obtain ⟨-, chain, chains⟩ := ok
    have entries : ∀ y, (Function.update s.reqPool (s.queues.links.head (.nand chNo wayNo))
        { s.reqPool (s.queues.links.head (.nand chNo wayNo)) with reqCode := code } y).bufEntry =
        (s.reqPool y).bufEntry := by
      intro y
      by_cases same : y = s.queues.links.head (.nand chNo wayNo) <;> simp [same, SsdReq.bufEntry]
    exact ⟨chain, chains.linked, fun b y listed => (entries y).trans (chains.owner b y listed),
      chains.member, fun b y entry => chains.attached b y ((entries y).symm.trans entry), chains.head,
      chains.waiting, chains.blocked, chains.order, chains.recent⟩

/-- The invariant is kept by every operation. -/
theorem buffersOk_ops : OpClosed g (fun _ _ => True) (BuffersOk g) where
  toEventClosed := buffersOk_events
  place := by
    intro s held flight x s' ok member free met allowed placed
    refine ⟨slotsOk_ops.place ok.1 member free met allowed placed, ?_⟩
    obtain ⟨-, chain, chains⟩ := ok
    obtain ⟨released, others, blocking, stamps, count, entries⟩ := placed.released allowed
    refine ⟨chain, chains.release blocking entries stamps count others (.inr member) released ?_⟩
    intro b z xs shape later
    obtain ⟨ys, first⟩ := (chains.linked.prev_eq_none (b := b) (by simp [shape, later])).mp free
    have apart := chains.linked.holds.nodup b
    rw [shape, List.cons.injEq] at first
    rw [shape, first.1] at apart
    exact (List.nodup_cons.mp apart).1 later
  hold := by
    intro s held flight x ok member blocked allowed addr
    refine ⟨slotsOk_ops.hold ok.1 member blocked allowed addr, ?_⟩
    obtain ⟨-, chain, chains⟩ := ok
    have types : ∀ y, (s.hold g x).reqQueueType y =
        Function.update s.queues.reqQueueType x .blockedByBufDep y := fun _ => rfl
    exact ⟨chain, chains.hold member blocked hold_blocking (fun y => by rw [hold_reqPool]) hold_submission
      hold_submissions
      (fun y diff => (types y).trans (Function.update_of_ne diff ..))
      ((types x).trans (Function.update_self ..))⟩
  alloc := by
    intro s held ok some
    refine ⟨slotsOk_ops.alloc ok.1 some, ?_⟩
    obtain ⟨slots, chain, chains⟩ := ok
    obtain ⟨queued, queuesOk⟩ := slots.queued
    obtain ⟨xs, shape⟩ := queuesOk.head_cons some
    have type : s.reqQueueType (s.queues.links.head .free) = .free :=
      queuesOk.typed .free _ (by simp [shape])
    have types : ∀ y, s.getFromFreeReqQ.2.reqQueueType y =
        Function.update s.queues.reqQueueType (s.queues.links.head .free) .none y := fun _ => rfl
    refine ⟨chain, chains.other (x := s.queues.links.head .free) rfl rfl rfl ?_ ?_ ?_ (by simp)⟩
    · exact fun y diff => ⟨(types y).trans (Function.update_of_ne diff ..), rfl⟩
    · exact chains.outside (by simp [Outstanding, type]) (by simp)
    · simp [Outstanding, types]
  putSlice := by
    intro s held x req ok member
    refine ⟨slotsOk_ops.putSlice req ok.1 member, ?_⟩
    obtain ⟨slots, chain, chains⟩ := ok
    have type : s.reqQueueType x = .none :=
      (slots.taken x (slots.inPool x (.inl member))).mpr (.inl member)
    have types : ∀ y, ((s.setReq x req).setQueues (s.queues.putToSliceReqQ x)).reqQueueType y =
        Function.update s.queues.reqQueueType x .slice y := fun _ => rfl
    refine ⟨chain, chains.other (x := x) rfl rfl rfl ?_ ?_ ?_ (by simp)⟩
    · intro y diff
      refine ⟨(types y).trans (Function.update_of_ne diff ..), ?_⟩
      simp [setReq, setQueues, diff]
    · exact chains.outside (by simp [Outstanding, type]) (by simp)
    · simp [Outstanding, types]
  getSlice := by
    intro s held ok some
    refine ⟨slotsOk_ops.getSlice ok.1 some, ?_⟩
    obtain ⟨slots, chain, chains⟩ := ok
    obtain ⟨queued, queuesOk⟩ := slots.queued
    obtain ⟨xs, shape⟩ := queuesOk.head_cons some
    have type : s.reqQueueType (s.queues.links.head .slice) = .slice :=
      queuesOk.typed .slice _ (by simp [shape])
    have types : ∀ y, (s.setQueues (s.queues.getFrom .slice)).reqQueueType y =
        Function.update s.queues.reqQueueType (s.queues.links.head .slice) .none y := fun _ => rfl
    refine ⟨chain, chains.other (x := s.queues.links.head .slice) rfl rfl rfl ?_ ?_ ?_ (by simp)⟩
    · exact fun y diff => ⟨(types y).trans (Function.update_of_ne diff ..), rfl⟩
    · exact chains.outside (by simp [Outstanding, type]) (by simp)
    · simp [Outstanding, types]

/-- Filling in and attaching a held slot puts it in progress. -/
theorem buffersOk_prepare (ok : BuffersOk g s held ∅) (member : x ∈ held) (req : SsdReq) :
    BuffersOk g (s.prepare x req) (held.erase x) {x} := by
  obtain ⟨slots, chain, chains⟩ := ok
  have inPool := slots.inPool x (.inl member)
  have real : x ≠ reqSlotTagNone := by
    have bound := slots_lt g
    simp only [reqSlotTagNone]
    omega
  have idle := (slots.taken x inPool).mpr (.inl member)
  exact ⟨slots.prepare member req, chains.prepare real idle req⟩

/-- The invariant holds after every run. -/
theorem buffersOk_of_run {ops : List RequestOp} {fw : Firmware}
    (run : Run (requestStep g) (fun _ _ => True) (initFirmware g) ops fw) :
    BuffersOk g fw.layer fw.held ∅ := by
  apply run.invariant (fun fw => BuffersOk g fw.layer fw.held ∅) ⟨SlotsOk.init, _, ChainsOk.init⟩
  intro fw op fw' ok _ step
  apply requestStep_closed buffersOk_ops ok _ (fun _ _ => trivial) step
  exact fun x req es _ member _ => buffersOk_prepare ok member req

/-- Between operations nothing is in progress, so the chains hold what is outstanding. -/
theorem BuffersOk.chains (ok : BuffersOk g s held ∅) : ∃ chain, BufferChains s chain := by
  obtain ⟨slots, chain, chains⟩ := ok
  have waiting : ∀ b x xs, chain b = x :: xs → ∀ y ∈ xs, s.reqQueueType y = .blockedByBufDep :=
    fun b x xs shape y later => by simpa using chains.waiting b x xs shape y later
  have member : ∀ b x, x ∈ chain b → s.Outstanding x :=
    fun b x listed => by simpa using chains.member b x listed
  refine ⟨chain, chains.linked.holds.seg, chains.linked.holds.tail, ?_, ?_, chains.order, ?_, ?_, ?_⟩
  · exact fun b => chains.linked.holds.tail_eq_nil
  · intro b x
    constructor
    · exact fun listed => ⟨member b x listed, chains.owner b x listed⟩
    · exact fun busy => chains.attached b x busy.2 (.inl busy.1)
  · intro b x xs shape
    refine ⟨?_, waiting b x xs shape⟩
    rcases member b x (by simp [shape]) with h | h | h | h
    · exact absurd h (chains.head b x xs shape)
    · exact .inr (.inr h)
    · exact .inl h
    · exact .inr (.inl h)
  · intro x type
    obtain ⟨b, listed⟩ := chains.blocked x type
    cases shape : chain b with
    | nil => simp [shape] at listed
    | cons z zs =>
      rw [shape] at listed
      rcases List.mem_cons.mp listed with rfl | later
      · exact absurd type (chains.head b x zs shape)
      · exact ⟨b, z, zs, shape, later⟩
  · intro x type
    exact chains.linked.detached x (chains.outside (by simp [Outstanding, type]) (by simp))

/-! ### What a completion starts -/

/-- A recheck takes slots to NAND queues only. -/
theorem scanBlockedByRowAddrDep_types {turns chNo wayNo : Nat}
    (done : scanBlockedByRowAddrDep g chNo wayNo turns s x = some s') (y : Nat) :
    s'.reqQueueType y = s.reqQueueType y ∨ s'.reqQueueType y = .nand := by
  induction turns generalizing s x with
  | zero =>
    cases done
    exact .inl rfl
  | succ turns ih =>
    unfold scanBlockedByRowAddrDep at done
    split at done
    · cases done
      exact .inl rfl
    · simp only [Option.bind_eq_bind, Option.bind_eq_some_iff] at done
      obtain ⟨t, turn, done⟩ := done
      have first : t.reqQueueType y = s.reqQueueType y ∨ t.reqQueueType y = .nand := by
        obtain ⟨-, ⟨-, rfl⟩ | ⟨-, rfl⟩⟩ := recheckRowAddrDep_cases turn
        · have moved : (((s.passed g x false).setQueues
              (s.queues.selectiveGetFromBlockedByRowAddrDepReqQ x chNo wayNo)).putToNandReqQ x chNo
                wayNo).reqQueueType y =
              Function.update (Function.update s.queues.reqQueueType x .none) x .nand y := rfl
          rw [moved]
          by_cases same : y = x
          · exact .inr (by simp [same])
          · exact .inl (by simp [same])
        · exact .inl rfl
      rcases ih done with kept | nand
      · exact kept ▸ first
      · exact .inr nand

/-- A completion frees the finished request only, and starts the next one of its chain
unless that one is still being submitted. -/
theorem BuffersOk.completed {queues : RequestQueues} (ok : BuffersOk g s held flight)
    (retires : s.Retires x queues)
    (done : (s.setQueues queues).releaseBlockedByBufDepReq g x = some s') :
    (∀ y, s.Outstanding y → s'.reqQueueType y = .free → y = x) ∧
      (s.blocking.nextBlockingReq x ≠ reqSlotTagNone →
        s'.Released (s.blocking.nextBlockingReq x) ∨ s.blocking.nextBlockingReq x ∈ flight) := by
  obtain ⟨slots, chain, chains⟩ := ok
  obtain ⟨queued, queuesOk⟩ := slots.queued
  obtain ⟨busy, types, -⟩ := retires.spec queuesOk
  have others : ∀ y, y ≠ x → queues.reqQueueType y = s.reqQueueType y := by
    intro y diff
    rw [types, Function.update_of_ne diff]
  have notFree : ∀ y, s.Outstanding y → s.reqQueueType y ≠ .free := by
    rintro y (h | h | h | h) <;> rw [h] <;> simp
  rcases releaseBlockedByBufDepReq_cases done with ⟨other, rfl⟩ | ⟨⟨-, blocked⟩, started⟩
  · constructor
    · intro y outstanding free
      by_contra diff
      exact notFree y outstanding ((others y diff).symm.trans free)
    · intro real
      have attached : ∃ b, x ∈ chain b := by
        by_contra none
        exact real (chains.linked.detached x (by simpa using none)).2
      obtain ⟨b, listed⟩ := attached
      have idle : ∀ y ∈ flight, s.reqQueueType y = .none :=
        fun y member => slotsOk_events.idle slots member
      obtain ⟨xs, shape⟩ := chains.first_of_released idle (busy.imp_right .inl) listed
      have next := chains.linked.next_of_head shape
      cases xs with
      | nil => exact absurd next real
      | cons y ys =>
        rw [List.headD_cons] at next
        have diff : y ≠ x := by
          rintro rfl
          have apart := chains.linked.holds.nodup b
          simp [shape] at apart
        rw [next]
        rcases chains.waiting b x _ shape y (by simp) with type | member
        · exact absurd ⟨next ▸ real, next ▸ (others y diff).trans type⟩ other
        · exact .inr member
  · set t := (s.setQueues queues).blocking.nextBlockingReq x
    have allowed : Submittable g (s.reqPool t) := by
      apply slots.submittable t
      by_cases same : t = x
      · have type : queues.reqQueueType t = .blockedByBufDep := blocked
        rw [types, same, Function.update_self] at type
        cases type
      · exact (others t same).symm.trans blocked
    have placed := Placed.of_startReleasedReq started allowed.1
    obtain ⟨released, kept, -⟩ := placed.released allowed
    refine ⟨fun y outstanding free => ?_, fun _ => .inl released⟩
    by_contra diff
    by_cases same : y = t
    · subst same
      rcases released with h | h | h <;> rw [h] at free <;> cases free
    · have before : (queues.selectiveGetFromBlockedByBufDepReqQ t).reqQueueType y = .free :=
        (kept y same).symm.trans free
      have taken : (queues.selectiveGetFromBlockedByBufDepReqQ t).reqQueueType y =
          Function.update queues.reqQueueType t .none y := rfl
      rw [taken, Function.update_of_ne same, others y diff] at before
      exact notFree y outstanding before

/-- Whatever happens: a request that finishes starts the next one of its chain. -/
theorem BuffersOk.event_starts {e : Event} (ok : BuffersOk g s held flight)
    (done : s.event g e = some s') (outstanding : s.Outstanding x) (free : s'.reqQueueType x = .free)
    (next : s.blocking.nextBlockingReq x ≠ reqSlotTagNone) :
    s'.Released (s.blocking.nextBlockingReq x) ∨ s.blocking.nextBlockingReq x ∈ flight := by
  have notFree : s.reqQueueType x ≠ .free := by
    rcases outstanding with h | h | h | h <;> rw [h] <;> simp
  cases e with
  | nvmeDmaDone y =>
    simp only [event] at done
    split at done
    · rename_i queue
      obtain ⟨only, starts⟩ := ok.completed (.inl ⟨queue, rfl⟩) done
      cases only x outstanding free
      exact starts next
    · cases done
  | nandDone chNo wayNo =>
    obtain ⟨queues, taken, done⟩ := getFromNandReqQ_cases done
    obtain ⟨only, starts⟩ := ok.completed (.inr ⟨chNo, wayNo, taken⟩) done
    cases only x outstanding free
    exact starts next
  | readPhase chNo wayNo transfer =>
    simp only [event] at done
    split at done <;> cases done
    exact absurd free notFree
  | recheck chNo wayNo =>
    simp only [event] at done
    split at done
    · rcases scanBlockedByRowAddrDep_types done x with kept | nand
      · exact absurd (kept.symm.trans free) notFree
      · rw [nand] at free
        cases free
    · cases done

/-- In every state between two operations the outstanding requests of every buffer entry
form its chain, so that requests run in the order in which they were attached: one that
has left the buffer queue is the earliest of its entry. A completion starts the next
request of the chain; while a submission waits, all but the one being submitted. -/
theorem buffer_chains_of_run {ops : List RequestOp} {fw : Firmware}
    (run : Run (requestStep g) (fun _ _ => True) (initFirmware g) ops fw) :
    (∃ chain, BufferChains fw.layer chain) ∧
    (∀ x y, fw.layer.Released x → fw.layer.Outstanding y →
      (fw.layer.reqPool x).bufEntry = (fw.layer.reqPool y).bufEntry →
      (fw.layer.reqPool x).bufEntry ≠ none → y ≠ x →
      fw.layer.submission x < fw.layer.submission y) ∧
    (∀ e s', fw.layer.event g e = some s' → ∀ x, fw.layer.Outstanding x →
      s'.reqQueueType x = .free → fw.layer.blocking.nextBlockingReq x ≠ reqSlotTagNone →
      s'.Released (fw.layer.blocking.nextBlockingReq x)) ∧
    (∀ z req es s e s', z ∈ fw.held → (fw.layer.prepare z req).events g es = some s →
      s.event g e = some s' → ∀ x, s.Outstanding x → s'.reqQueueType x = .free →
      s.blocking.nextBlockingReq x ≠ reqSlotTagNone →
      s'.Released (s.blocking.nextBlockingReq x) ∨ s.blocking.nextBlockingReq x = z) := by
  have ok := buffersOk_of_run run
  obtain ⟨chain, chains⟩ := ok.chains
  refine ⟨⟨chain, chains⟩, ?_, ?_, ?_⟩
  · intro x y released busy entry some diff
    obtain ⟨b, owner⟩ := Option.ne_none_iff_exists'.mp some
    have listed : x ∈ chain b := (chains.members b x).mpr ⟨released.outstanding, owner⟩
    have listed' : y ∈ chain b := (chains.members b y).mpr ⟨busy, entry ▸ owner⟩
    cases shape : chain b with
    | nil => simp [shape] at listed
    | cons z zs =>
      have order := chains.attachmentOrder b
      rw [shape] at listed listed' order
      rcases List.mem_cons.mp listed with rfl | later
      · exact (List.pairwise_cons.mp order).1 y ((List.mem_cons.mp listed').resolve_left diff)
      · have waits := (chains.onlyHead b z zs shape).2 x later
        rcases released with h | h | h <;> rw [waits] at h <;> cases h
  · intro e s' done x outstanding free next
    simpa using ok.event_starts done outstanding free next
  · intro z req es s e s' member ran done x outstanding free next
    have start := buffersOk_prepare ok member req
    have after := events_closed buffersOk_events start (fun _ _ => trivial) ran
    simpa using after.event_starts done outstanding free next

/-- A transfer waits behind the write-back of its entry. -/
theorem buffer_chains_of_run_waiting :
    ∃ fw, Run (requestStep tinyGeometry) (fun _ _ => True) (initFirmware tinyGeometry)
      [.alloc [], .submit 0 writeBackReq [], .alloc [], .submit 1 hostReadReq []] fw ∧
      fw.layer.reqQueueType 1 = .blockedByBufDep ∧ ∃ chain, BufferChains fw.layer chain := by
  have done : (exec (requestStep tinyGeometry) (fun _ _ => True) (initFirmware tinyGeometry)
      [.alloc [], .submit 0 writeBackReq [], .alloc [], .submit 1 hostReadReq []]).any
        (fun fw => fw.layer.reqQueueType 1 = .blockedByBufDep) := by decide +kernel
  obtain ⟨fw, run, waits⟩ := run_of_exec_any done
  exact ⟨fw, run, by simpa using waits, (buffer_chains_of_run run).1⟩

end OcpFw
