import OcpFw.DmaCompletion
import OcpFw.SlotConservation

/-! The DMA requests with the hardware, in the order of their commands. Going from the
newest request in the queue to the oldest, the last command of each one is the last of
its direction that no newer request has; the recorded counters say so. -/
namespace OcpFw
open RequestLayer

variable {g : Geometry} {s s' : RequestLayer} {held flight : Finset Nat}
  {queued : ReqQueue → List Nat} {queue appended : List Nat} {x : Nat}

/-! ### The commands of a queued request -/

/-- The commands of a request are the ones of its direction that end with command number
`last`, and it recorded the counters as they were then. -/
structure IssuedAs (g : Geometry) (s : RequestLayer) (x last : Nat) : Prop where
  reqTail : (s.reqPool x).nvmeDmaInfo.reqTail = last % 256
  overFlowCnt : (s.reqPool x).nvmeDmaInfo.overFlowCnt = last / 256 % 2 ^ 32
  few : (s.reqPool x).nvmeDmaInfo.numOfNvmeBlock ≤ 256
  first : (s.reqPool x).nvmeDmaInfo.numOfNvmeBlock ≤ last
  past : last ≤ s.hostDma.issued (s.reqPool x).dmaDirection
  commands : ∃ devAddr, generateDataBufAddr g (s.reqPool x) = some devAddr ∧
    ((s.hostDma.issuedCommands (s.reqPool x).dmaDirection).take last).drop
        (last - (s.reqPool x).nvmeDmaInfo.numOfNvmeBlock) =
      HostDma.autoDmas (s.reqPool x).dmaDirection (s.reqPool x).nvmeCmdSlotTag
        (s.reqPool x).nvmeDmaInfo.startIndex devAddr (s.reqPool x).nvmeDmaInfo.numOfNvmeBlock

/-- More commands were issued since. -/
theorem IssuedAs.mono {last : Nat} (issued : IssuedAs g s x last) (same : s'.reqPool x = s.reqPool x)
    (more : ∃ new, s'.hostDma.commands = s.hostDma.commands ++ new) : IssuedAs g s' x last := by
  obtain ⟨new, more⟩ := more
  have longer : ∀ dir, ∃ later, s'.hostDma.issuedCommands dir = s.hostDma.issuedCommands dir ++ later := by
    intro dir
    refine ⟨new.filter fun c => decide (c.dmaDirection = dir), ?_⟩
    rw [HostDma.issuedCommands, more, List.filter_append]
    rfl
  obtain ⟨later, extended⟩ := longer (s.reqPool x).dmaDirection
  constructor
  · rw [same]
    exact issued.reqTail
  · rw [same]
    exact issued.overFlowCnt
  · rw [same]
    exact issued.few
  · rw [same]
    exact issued.first
  · rw [same, HostDma.issued, extended, List.length_append]
    exact issued.past.trans (Nat.le_add_right _ _)
  · obtain ⟨devAddr, addr, commands⟩ := issued.commands
    refine ⟨devAddr, by rw [same]; exact addr, ?_⟩
    have past : last ≤ (s.hostDma.issuedCommands (s.reqPool x).dmaDirection).length := issued.past
    rw [same, extended, List.take_append_of_le_length past]
    exact commands

/-- From the newest request to the oldest, `top` being the last commands before the first of
them and `bottom` those left after the last. -/
def InIssueOrder (g : Geometry) (s : RequestLayer) (last : Nat → Nat) (top : DmaDirection → Nat) :
    List Nat → (DmaDirection → Nat) → Prop
  | [], bottom => bottom = top
  | x :: older, bottom =>
    last x = top (s.reqPool x).dmaDirection ∧ IssuedAs g s x (last x) ∧
      InIssueOrder g s last
        (Function.update top (s.reqPool x).dmaDirection (last x - (s.reqPool x).nvmeDmaInfo.numOfNvmeBlock))
        older bottom

namespace InIssueOrder
variable {last : Nat → Nat} {top middle bottom : DmaDirection → Nat} {newer older xs : List Nat}

theorem append (above : InIssueOrder g s last top newer middle) (below : InIssueOrder g s last middle older bottom) :
    InIssueOrder g s last top (newer ++ older) bottom := by
  induction newer generalizing top with
  | nil =>
    cases above
    exact below
  | cons x newer ih => exact ⟨above.1, above.2.1, ih above.2.2⟩

/-- The order stays as it is while more commands are issued. -/
theorem mono (last' : Nat → Nat) (order : InIssueOrder g s last top xs bottom) (same : ∀ x ∈ xs, s'.reqPool x = s.reqPool x)
    (known : ∀ x ∈ xs, last' x = last x) (more : ∃ new, s'.hostDma.commands = s.hostDma.commands ++ new) :
    InIssueOrder g s' last' top xs bottom := by
  induction xs generalizing top with
  | nil => exact order
  | cons x xs ih =>
    obtain ⟨number, issued, rest⟩ := order
    have here := same x (by simp)
    have numbered := known x (by simp)
    refine ⟨by rw [here, numbered, number], numbered ▸ issued.mono here more, ?_⟩
    rw [here, numbered]
    exact ih rest (fun y member => same y (by simp [member])) fun y member => known y (by simp [member])

/-- Two parts of a queue, each with its own numbering. -/
theorem join {last' : Nat → Nat} (above : InIssueOrder g s last' top newer middle)
    (below : InIssueOrder g s last middle older bottom) (apart : ∀ y ∈ newer, y ∉ older) :
    InIssueOrder g s (fun y => if y ∈ newer then last' y else last y) top (newer ++ older) bottom := by
  refine @append _ _ _ _ middle _ _ _ ?_ ?_
  · exact above.mono _ (fun _ _ => rfl) (fun y member => if_pos member) ⟨[], by simp⟩
  · exact below.mono _ (fun _ _ => rfl) (fun y member => if_neg fun new => apart y new member) ⟨[], by simp⟩

/-- Only the directions of the requests in the list matter. -/
theorem change_top {top' : DmaDirection → Nat} (order : InIssueOrder g s last top xs bottom)
    (same : ∀ x ∈ xs, top' (s.reqPool x).dmaDirection = top (s.reqPool x).dmaDirection) :
    ∃ bottom, InIssueOrder g s last top' xs bottom := by
  induction xs generalizing top top' with
  | nil => exact ⟨_, rfl⟩
  | cons x xs ih =>
    obtain ⟨number, issued, rest⟩ := order
    rw [List.forall_mem_cons] at same
    obtain ⟨after, afterIs⟩ : ∃ after, after = Function.update top' (s.reqPool x).dmaDirection
      (last x - (s.reqPool x).nvmeDmaInfo.numOfNvmeBlock) := ⟨_, rfl⟩
    have agree : ∀ y ∈ xs, after (s.reqPool y).dmaDirection = Function.update top (s.reqPool x).dmaDirection
        (last x - (s.reqPool x).nvmeDmaInfo.numOfNvmeBlock) (s.reqPool y).dmaDirection := by
      intro y member
      by_cases dir : (s.reqPool y).dmaDirection = (s.reqPool x).dmaDirection
      · rw [afterIs, dir, Function.update_self, Function.update_self]
      · rw [afterIs, Function.update_of_ne dir, Function.update_of_ne dir]
        exact same.2 y member
    obtain ⟨bottom, below⟩ := ih rest agree
    rw [afterIs] at below
    exact ⟨bottom, number.trans same.1.symm, issued, below⟩

theorem issuedAs (order : InIssueOrder g s last top xs bottom) : ∀ x ∈ xs, IssuedAs g s x (last x) := by
  induction xs generalizing top with
  | nil => simp
  | cons x xs ih =>
    rw [List.forall_mem_cons]
    exact ⟨order.2.1, ih order.2.2⟩

/-- An older request of a direction ends before the commands of a newer one, and none is far
behind the newest command. -/
theorem bounds (order : InIssueOrder g s last top xs bottom) :
    ∀ x ∈ xs, last x ≤ top (s.reqPool x).dmaDirection ∧
      top (s.reqPool x).dmaDirection ≤ last x + 256 * xs.length := by
  induction xs generalizing top with
  | nil => simp
  | cons x xs ih =>
    obtain ⟨number, issued, rest⟩ := order
    have first := issued.first
    have few := issued.few
    rw [List.forall_mem_cons]
    refine ⟨⟨number.le, by omega⟩, fun y member => ?_⟩
    obtain ⟨upper, lower⟩ := ih rest y member
    rw [List.length_cons]
    by_cases dir : (s.reqPool y).dmaDirection = (s.reqPool x).dmaDirection
    · rw [dir, Function.update_self] at upper lower
      rw [dir]
      omega
    · rw [Function.update_of_ne dir] at upper lower
      omega

/-- Requests of one direction have their commands in the order of the queue. -/
theorem pairwise (order : InIssueOrder g s last top xs bottom) :
    xs.Pairwise fun newer older => (s.reqPool newer).dmaDirection = (s.reqPool older).dmaDirection →
      last older + (s.reqPool newer).nvmeDmaInfo.numOfNvmeBlock ≤ last newer := by
  induction xs generalizing top with
  | nil => exact .nil
  | cons x xs ih =>
    obtain ⟨number, issued, rest⟩ := order
    refine .cons (fun y member dir => ?_) (ih rest)
    have first := issued.first
    have upper := (rest.bounds y member).1
    rw [dir, Function.update_self] at upper
    omega

end InIssueOrder

/-- The counters count, and the requests with the hardware are in the order of their
commands up to the last one issued. -/
structure DmaOk (g : Geometry) (s : RequestLayer) (queue : List Nat) : Prop where
  counts : s.hostDma.CountsOk
  order : ∃ last bottom, InIssueOrder g s last s.hostDma.issued queue.reverse bottom

/-! ### Requests that are started -/

/-- What the DMA side sees of a step that finishes no DMA request: nothing, or one request
that is issued and appended. -/
inductive DmaStart (g : Geometry) (s s' : RequestLayer) (queue : List Nat) : List Nat → Prop
  | quiet (hostDma : s'.hostDma = s.hostDma) (reqs : ∀ x ∈ queue, s'.reqPool x = s.reqPool x) :
    DmaStart g s s' queue []
  | start (x : Nat) (fresh : x ∉ queue) (type : (s.reqPool x).reqType = .nvmeDma) (hostDma : HostDma)
    (issue : issueNvmeDmaReq g s.hostDma (s.reqPool x) = some ((s.reqPool x).recorded hostDma, hostDma))
    (after : s'.hostDma = hostDma) (own : s'.reqPool x = (s.reqPool x).recorded hostDma)
    (reqs : ∀ y ∈ queue, s'.reqPool y = s.reqPool y) : DmaStart g s s' queue [x]

/-- Only the pool and the DMA engine are looked at. -/
theorem DmaStart.congr {t : RequestLayer} (start : DmaStart g t s' queue appended) (hostDma : t.hostDma = s.hostDma)
    (reqs : t.reqPool = s.reqPool) : DmaStart g s s' queue appended := by
  cases start with
  | quiet kept same => exact .quiet (kept.trans hostDma) (reqs ▸ same)
  | start x fresh type dma issue after own same =>
    rw [hostDma, reqs] at issue
    exact .start x fresh (reqs ▸ type) dma issue after (reqs ▸ own) (reqs ▸ same)

/-- What is issued is at most one request, on top of what was issued before. -/
theorem DmaStart.spec (start : DmaStart g s s' queue appended) (counts : s.hostDma.CountsOk) :
    s'.hostDma.CountsOk ∧ (∃ new, s'.hostDma.commands = s.hostDma.commands ++ new) ∧
      (∀ x ∈ queue, s'.reqPool x = s.reqPool x) ∧ (∀ x ∈ appended, x ∉ queue) ∧
      (∀ dir, s'.hostDma.issued dir ≤ s.hostDma.issued dir + 256) ∧
      ∃ last, InIssueOrder g s' last s'.hostDma.issued appended.reverse s.hostDma.issued := by
  cases start with
  | quiet hostDma reqs =>
    rw [hostDma]
    exact ⟨counts, ⟨[], by simp⟩, reqs, by simp, fun dir => by omega, id, rfl⟩
  | start x fresh type hostDma issue after own reqs =>
    obtain ⟨devAddr, addr, -, offsets, commands, counted⟩ := issueNvmeDmaReq_spec type issue
    have counts' := counted counts
    set req := s.reqPool x with reqIs
    set n := req.nvmeDmaInfo.numOfNvmeBlock with count
    have few : n ≤ 256 := by
      by_cases none : n = 0
      · omega
      · have bound := offsets none
        omega
    have extended : ∀ dir, hostDma.issuedCommands dir = s.hostDma.issuedCommands dir ++
        if dir = req.dmaDirection then HostDma.autoDmas req.dmaDirection req.nvmeCmdSlotTag
          req.nvmeDmaInfo.startIndex devAddr n else [] := by
      intro dir
      rw [HostDma.issuedCommands, commands, List.filter_append, HostDma.issuedCommands]
      congr 1
      by_cases here : dir = req.dmaDirection
      · rw [if_pos here, List.filter_eq_self]
        intro c member
        obtain ⟨i, -, rfl⟩ := List.mem_map.mp member
        simp [here]
      · rw [if_neg here, List.filter_eq_nil_iff]
        intro c member
        obtain ⟨i, -, rfl⟩ := List.mem_map.mp member
        simpa using Ne.symm here
    have length : ∀ dir, hostDma.issued dir = s.hostDma.issued dir + if dir = req.dmaDirection then n else 0 := by
      intro dir
      rw [HostDma.issued, extended, List.length_append]
      congr 1
      split <;> simp [HostDma.autoDmas]
    rw [after]
    refine ⟨counts', ⟨_, commands⟩, reqs, by simpa using fresh, fun dir => ?_,
      fun _ => hostDma.issued req.dmaDirection, ?_⟩
    · rw [length dir]
      split <;> omega
    · have mine := length req.dmaDirection
      rw [if_pos rfl] at mine
      have dir : (s'.reqPool x).dmaDirection = req.dmaDirection := by rw [own]; rfl
      refine ⟨by rw [dir], ⟨?_, ?_, ?_, ?_, ?_, devAddr, ?_, ?_⟩, ?_⟩
      · rw [own]
        exact counts'.fifoTail _
      · rw [own]
        exact counts'.overFlowCnt _
      · rw [own]
        exact few
      · rw [own]
        exact mine ▸ Nat.le_add_left _ _
      · rw [dir, after]
      · rw [own]
        exact addr
      · rw [dir, after, own]
        have all := extended req.dmaDirection
        rw [if_pos rfl] at all
        change ((hostDma.issuedCommands req.dmaDirection).take (hostDma.issued req.dmaDirection)).drop
          (hostDma.issued req.dmaDirection - n) = _
        rw [HostDma.issued, List.take_length, ← HostDma.issued, mine, Nat.add_sub_cancel, all, HostDma.issued,
          List.drop_left]
        rfl
      · rw [own]
        funext d
        have total := length d
        by_cases here : d = req.dmaDirection
        · subst here
          change _ = Function.update hostDma.issued req.dmaDirection (hostDma.issued req.dmaDirection - n) _
          rw [Function.update_self, mine, Nat.add_sub_cancel]
        · change _ = Function.update hostDma.issued req.dmaDirection _ d
          rw [Function.update_of_ne here, total, if_neg here, Nat.add_zero]

/-- Requests that were started come after those in the queue. -/
theorem DmaOk.start (ok : DmaOk g s queue) (start : DmaStart g s s' queue appended) :
    DmaOk g s' (queue ++ appended) := by
  obtain ⟨last, bottom, order⟩ := ok.order
  obtain ⟨counts, more, same, fresh, -, last', above⟩ := start.spec ok.counts
  have old := order.mono last (fun y member => same y (by simpa using member)) (fun _ _ => rfl) more
  have both := above.join old fun y started listed => fresh y (by simpa using started) (by simpa using listed)
  rw [← List.reverse_append] at both
  exact ⟨counts, _, bottom, both⟩

/-- What the DMA side does not see. -/
theorem DmaOk.frame (ok : DmaOk g s queue) (hostDma : s'.hostDma = s.hostDma)
    (reqs : ∀ x ∈ queue, s'.reqPool x = s.reqPool x) : DmaOk g s' queue := by
  have quiet := ok.start (.quiet hostDma reqs)
  rwa [List.append_nil] at quiet

theorem DmaOk.init : DmaOk g (initRequestLayer g) [] where
  counts := .init
  order := ⟨fun _ => 0, _, rfl⟩

/-! ### Placing and releasing requests -/

/-- A request that is placed is started, or is none of the DMA side's. -/
theorem placed_dmaStart {select : Bool} (queues : QueuesOk g s.queues queued) (placed : Placed g s x select s')
    (submittable : Submittable g (s.reqPool x)) (slot : x < availableOutstandingReqCount g)
    (idle : s.reqQueueType x = .none) :
    ∃ appended queued', QueuesOk g s'.queues queued' ∧ queued' .nvmeDma = queued .nvmeDma ++ appended ∧
      queued' .free = queued .free ∧ DmaStart g s s' (queued .nvmeDma) appended := by
  have fresh := queues.unlisted idle
  have put : ∀ q : ReqQueue, q.Exists g → q ≠ .nvmeDma → q ≠ .free → s'.queues = s.queues.putTo q x →
      s'.hostDma = s.hostDma → s'.reqPool = s.reqPool →
      ∃ appended queued', QueuesOk g s'.queues queued' ∧ queued' .nvmeDma = queued .nvmeDma ++ appended ∧
        queued' .free = queued .free ∧ DmaStart g s s' (queued .nvmeDma) appended := by
    intro q exist notDma notFree moved hostDma reqs
    have after := queues.putTo exist slot idle
    rw [← moved] at after
    refine ⟨[], _, after, ?_, ?_, .quiet hostDma fun y _ => by rw [reqs]⟩
    · rw [Function.update_of_ne (Ne.symm notDma), List.append_nil]
    · rw [Function.update_of_ne (Ne.symm notFree)]
  obtain ⟨type, dma⟩ | ⟨type, nand⟩ := placed
  · simp only [startNvmeDmaReq, Option.bind_eq_bind, Option.bind_eq_some_iff, Option.some.injEq] at dma
    obtain ⟨⟨req, hostDma⟩, issue, rfl⟩ := dma
    obtain ⟨-, -, rfl, -⟩ := issueNvmeDmaReq_spec type issue
    have after := queues.putTo (q := .nvmeDma) trivial slot idle
    refine ⟨[x], _, after, by simp, by simp, .start x (fresh _) type hostDma issue rfl (by simp) ?_⟩
    intro y listed
    have diff : y ≠ x := fun here => fresh _ (here ▸ listed)
    simp [diff]
  · have die := nandDie_lt submittable
    rcases dispatchNandReq_settled nand with ⟨-, rfl⟩ | ⟨-, -, rfl⟩ | ⟨-, -, rfl⟩
    · exact put (.nand _ _) die (by simp) (by simp) rfl rfl rfl
    · exact put (.nand _ _) die (by simp) (by simp) rfl rfl rfl
    · refine put (.blockedByRowAddrDep _ _) die (by simp) (by simp) ?_ ?_ ?_
      · simp [putToBlockedByRowAddrDepReqQ, setQueues, RequestQueues.putToBlockedByRowAddrDepReqQ]
      · cases select <;> rfl
      · simp [putToBlockedByRowAddrDepReqQ, setQueues]

/-- The successor a finished request releases. -/
theorem release_dmaStart (ok : SlotsOk g s held flight) (queues : QueuesOk g s.queues queued)
    (done : s.releaseBlockedByBufDepReq g x = some s') :
    ∃ appended queued', QueuesOk g s'.queues queued' ∧ queued' .nvmeDma = queued .nvmeDma ++ appended ∧
      queued' .free = queued .free ∧ DmaStart g s s' (queued .nvmeDma) appended := by
  rcases releaseBlockedByBufDepReq_cases done with ⟨-, rfl⟩ | ⟨⟨-, blocked⟩, started⟩
  · exact ⟨[], queued, queues, by simp, rfl, .quiet rfl fun _ _ => rfl⟩
  · set t := s.blocking.nextBlockingReq x
    have listed := queues.mem_bufDep.mpr blocked
    have submittable := ok.submittable t blocked
    have taken := queues.selectiveGetFrom listed
    have idle : (s.queues.selectiveGetFromBlockedByBufDepReqQ t).reqQueueType t = .none := by
      simp [RequestQueues.selectiveGetFromBlockedByBufDepReqQ, RequestQueues.selectiveGetFrom]
    have placed := Placed.of_startReleasedReq started submittable.1
    obtain ⟨appended, queued', after, dma, free, start⟩ :=
      placed_dmaStart taken placed submittable (queues.slot _ t listed) idle
    have sameDma : Function.update queued .blockedByBufDep ((queued .blockedByBufDep).erase t) .nvmeDma =
        queued .nvmeDma := Function.update_of_ne (by simp) _ _
    rw [sameDma] at dma start
    exact ⟨appended, queued', after, dma, by simpa using free, start.congr rfl rfl⟩

end OcpFw
