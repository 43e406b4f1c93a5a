import OcpFw.AccessOrder
import OcpFw.BlockConflicts
import OcpFw.BlockTracking
import OcpFw.BlockOrder
import OcpFw.CompletionTraces
import OcpFw.RequestRouting

/-! Requests finish in an order that keeps all conflicting ones as they were submitted.
Requests of one buffer entry are chained; requests to one block enter the queue of their
die in the order of the block's generations, and the queue is first in, first out. -/
namespace OcpFw
open RequestLayer
open AccessOrder (InOrder Ready)
open BlockReq (AllowedAll Clash)
open Runs (Run exec run_of_exec_any)

/-! ### What requests touch -/

/-- What a request can read or write: the entries of the buffer and the pages of flash. -/
inductive RequestPlace where
  | buf (b : BufEntry)
  | page (virtualSliceAddr : Nat)
  deriving DecidableEq

namespace SsdReq

/-- Requests attached to an entry may read and write it; a READ reads its page. -/
def Reads (req : SsdReq) : RequestPlace → Prop
  | .buf b => req.bufEntry = some b
  | .page virtualSliceAddr => req.reqType = .nand ∧ req.nandAddr = .vsa ∧ req.reqCode = .read ∧
      req.virtualSliceAddr = virtualSliceAddr

/-- A WRITE writes its page, and an ERASE all pages of its block. -/
def Writes (g : Geometry) (req : SsdReq) : RequestPlace → Prop
  | .buf b => req.bufEntry = some b
  | .page virtualSliceAddr => req.reqType = .nand ∧ req.nandAddr = .vsa ∧
      (req.reqCode = .write ∧ req.virtualSliceAddr = virtualSliceAddr ∨
        req.reqCode = .erase ∧ blockAddr g req.virtualSliceAddr = blockAddr g virtualSliceAddr)

/-- One request writes what the other one reads or writes. -/
def Conflict (g : Geometry) (req req' : SsdReq) : Prop :=
  ∃ l, req.Writes g l ∧ (req'.Reads l ∨ req'.Writes g l) ∨ req.Reads l ∧ req'.Writes g l

/-- The part of a request that the code does not change any more. -/
structure SameAccess (req req' : SsdReq) : Prop where
  reqType : req'.reqType = req.reqType
  nandAddr : req'.nandAddr = req.nandAddr
  virtualSliceAddr : req'.virtualSliceAddr = req.virtualSliceAddr
  bufEntry : req'.bufEntry = req.bufEntry

theorem SameAccess.refl (req : SsdReq) : SameAccess req req := ⟨rfl, rfl, rfl, rfl⟩

theorem SameAccess.trans {req₁ req₂ req₃ : SsdReq} (h : SameAccess req₁ req₂) (h' : SameAccess req₂ req₃) :
    SameAccess req₁ req₃ :=
  ⟨h'.reqType.trans h.reqType, h'.nandAddr.trans h.nandAddr, h'.virtualSliceAddr.trans h.virtualSliceAddr,
    h'.bufEntry.trans h.bufEntry⟩

variable {g : Geometry} {req req' : SsdReq}

/-- Requests that conflict share a buffer entry, or clash on a block. -/
theorem Conflict.cases (conflict : Conflict g req req') :
    (∃ b, req.bufEntry = some b ∧ req'.bufEntry = some b) ∨
    ∃ b r r', blockReq g b req = some r ∧ blockReq g b req' = some r' ∧ Clash r r' := by
  obtain ⟨l, touched⟩ := conflict
  cases l with
  | buf b =>
    simp only [Reads, Writes, or_self] at touched
    exact .inl ⟨b, touched⟩
  | page vsa =>
    have page : ∀ {req : SsdReq}, req.Reads (.page vsa) → blockReq g (blockAddr g vsa) req =
        some (.read (vsa2VpageTranslation g vsa)) := by
      rintro req ⟨type, addr, code, rfl⟩
      simp [blockReq, type, addr, code]
    have writes : ∀ {req : SsdReq}, req.Writes g (.page vsa) → blockReq g (blockAddr g vsa) req =
        some (.write (vsa2VpageTranslation g vsa)) ∨ blockReq g (blockAddr g vsa) req = some .erase := by
      rintro req ⟨type, addr, ⟨code, rfl⟩ | ⟨code, block⟩⟩
      · exact .inl (by simp [blockReq, type, addr, code])
      · exact .inr (by simp [blockReq, type, addr, code, block])
    refine .inr ⟨blockAddr g vsa, ?_⟩
    rcases touched with ⟨first, second | second⟩ | ⟨first, second⟩
    · rcases writes first with write | erase
      · exact ⟨_, _, write, page second, rfl⟩
      · exact ⟨_, _, erase, page second, trivial⟩
    · rcases writes first with write | erase <;> rcases writes second with write' | erase'
      · exact ⟨_, _, write, write', rfl⟩
      · exact ⟨_, _, write, erase', trivial⟩
      · exact ⟨_, _, erase, write', trivial⟩
      · exact ⟨_, _, erase, erase', trivial⟩
    · rcases writes second with write | erase
      · exact ⟨_, _, page first, write, rfl⟩
      · exact ⟨_, _, page first, erase, trivial⟩

end SsdReq

variable {g : Geometry} {s s' : RequestLayer} {held flight flight' : Finset Nat} {x y i : Nat}
  {queued : ReqQueue → List Nat} {q : ReqQueue} {select : Bool} {log : List Nat} {req : SsdReq}

/-! ### The queues of the dies are first in, first out -/

/-- Every die's queue is in the order in which its requests entered it. -/
def EnteredOk (g : Geometry) (s : RequestLayer) : Prop :=
  ∃ queued, QueuesOk g s.queues queued ∧
    ∀ chNo wayNo, List.Sublist ((queued (.nand chNo wayNo)).map s.submission) s.started

namespace EnteredOk

/-- A slot is appended to a queue, and to the history if it is the queue of a die. -/
theorem put (ok : EnteredOk g s) (exist : q.Exists g) (slot : x < availableOutstandingReqCount g)
    (idle : s.reqQueueType x = .none) (queues : s'.queues = s.queues.putTo q x)
    (submission : s'.submission = s.submission)
    (started : (∃ chNo wayNo, q = .nand chNo wayNo) ∧ s'.started = s.started ++ [s.submission x] ∨
      (∀ chNo wayNo, q ≠ .nand chNo wayNo) ∧ s'.started = s.started) : EnteredOk g s' := by
  obtain ⟨queued, queuesOk, order⟩ := ok
  refine ⟨_, queues ▸ queuesOk.putTo exist slot idle, fun chNo wayNo => ?_⟩
  rw [submission]
  have before := order chNo wayNo
  by_cases here : ReqQueue.nand chNo wayNo = q
  · subst here
    have entered : s'.started = s.started ++ [s.submission x] := by
      rcases started with ⟨-, entered⟩ | ⟨other, -⟩
      · exact entered
      · exact absurd rfl (other chNo wayNo)
    rw [Function.update_self, List.map_append, List.map_singleton, entered]
    exact before.append_right _
  · rw [Function.update_of_ne here]
    rcases started with ⟨-, entered⟩ | ⟨-, same⟩
    · rw [entered]
      exact before.trans (List.sublist_append_left _ _)
    · rwa [same]

/-- A slot is taken out of a queue. -/
theorem take (ok : EnteredOk g s) (queues : QueuesOk g s.queues queued) (listed : x ∈ queued q)
    (after : s'.queues = s.queues.selectiveGetFrom q x) (submission : s'.submission = s.submission)
    (started : s'.started = s.started) : EnteredOk g s' := by
  obtain ⟨queued', queuesOk, order⟩ := ok
  cases queuesOk.holds.unique queues.holds
  refine ⟨_, after ▸ queues.selectiveGetFrom listed, fun chNo wayNo => ?_⟩
  rw [submission, started]
  by_cases here : ReqQueue.nand chNo wayNo = q
  · subst here
    rw [Function.update_self]
    exact (List.erase_sublist.map _).trans (order chNo wayNo)
  · rw [Function.update_of_ne here]
    exact order chNo wayNo

/-- The first slot of a queue is taken. -/
theorem takeFirst (ok : EnteredOk g s) (some : s.queues.links.head q ≠ reqSlotTagNone)
    (after : s'.queues = s.queues.getFrom q) (submission : s'.submission = s.submission)
    (started : s'.started = s.started) : EnteredOk g s' := by
  obtain ⟨queued, queuesOk, order⟩ := ok
  obtain ⟨xs, shape⟩ := queuesOk.head_cons some
  refine ⟨_, after ▸ queuesOk.getFrom shape, fun chNo wayNo => ?_⟩
  rw [submission, started]
  by_cases here : ReqQueue.nand chNo wayNo = q
  · subst here
    have before := order chNo wayNo
    rw [shape] at before
    rw [Function.update_self]
    exact (List.sublist_cons_self _ _).trans before
  · rw [Function.update_of_ne here]
    exact order chNo wayNo

/-- The queues stay, with the stamps of what is in them. -/
theorem frame (ok : EnteredOk g s) (queues : s'.queues = s.queues)
    (submission : ∀ y, s.reqQueueType y ≠ .none → s'.submission y = s.submission y)
    (started : s'.started = s.started) : EnteredOk g s' := by
  obtain ⟨queued, queuesOk, order⟩ := ok
  refine ⟨queued, queues ▸ queuesOk, fun chNo wayNo => ?_⟩
  have same : (queued (.nand chNo wayNo)).map s'.submission = (queued (.nand chNo wayNo)).map s.submission := by
    apply List.map_congr_left
    intro y member
    apply submission
    rw [show s.reqQueueType y = _ from queuesOk.typed _ y member]
    exact ReqQueue.queueType_ne_none _
  rw [same, started]
  exact order chNo wayNo

theorem init : EnteredOk g (initRequestLayer g) :=
  ⟨_, initReqPool_ok g, fun _ _ => by simp⟩

/-- A request leaves the hardware for the free queue. -/
theorem retire {queues : RequestQueues} (ok : EnteredOk g s) (retires : s.Retires x queues) :
    EnteredOk g (s.setQueues queues) := by
  obtain ⟨queued, queuesOk, -⟩ := id ok
  rcases retires with ⟨dma, rfl⟩ | ⟨chNo, wayNo, taken⟩
  · have member : x ∈ queued .nvmeDma := queuesOk.mem_nvmeDma.mpr dma
    have out : EnteredOk g (s.setQueues (s.queues.selectiveGetFrom .nvmeDma x)) := ok.take queuesOk member rfl rfl rfl
    refine out.put (q := .free) trivial (queuesOk.slot _ x member) ?_ rfl rfl (.inr ⟨by simp, rfl⟩)
    simp [reqQueueType, setQueues, RequestQueues.selectiveGetFrom]
  · obtain ⟨xs, shape, -⟩ := queuesOk.getFromNandReqQ taken
    obtain ⟨head, some, rfl⟩ := RequestQueues.getFromNandReqQ_cases taken
    have out : EnteredOk g (s.setQueues (s.queues.getFrom (.nand chNo wayNo))) :=
      ok.takeFirst (q := .nand chNo wayNo) (head ▸ some) rfl rfl rfl
    refine out.put (q := .free) trivial (queuesOk.slot (.nand chNo wayNo) x (by simp [shape])) ?_ rfl rfl
      (.inr ⟨by simp, rfl⟩)
    simp [reqQueueType, setQueues, RequestQueues.getFrom, head]

/-- A slot in no queue is placed. -/
theorem place (ok : EnteredOk g s) (submittable : Submittable g (s.reqPool x))
    (slot : x < availableOutstandingReqCount g) (idle : s.reqQueueType x = .none)
    (placed : Placed g s x select s') : EnteredOk g s' := by
  have die := nandDie_lt submittable
  rcases placed.cases with ⟨-, info, hostDma, rfl⟩ | ⟨nand, chNo, wayNo, named, cases⟩
  · exact ok.put (q := .nvmeDma) trivial slot idle rfl rfl (.inr ⟨by simp, rfl⟩)
  · rw [← named] at die
    rcases cases with ⟨-, rfl⟩ | ⟨-, -, rfl⟩ | ⟨-, -, rfl⟩
    · exact ok.put (q := .nand chNo wayNo) die slot idle rfl rfl (.inl ⟨⟨_, _, rfl⟩, rfl⟩)
    · exact ok.put (q := .nand chNo wayNo) die slot idle rfl rfl (.inl ⟨⟨_, _, rfl⟩, rfl⟩)
    · refine ok.put (q := .blockedByRowAddrDep chNo wayNo) die slot idle ?_ ?_ (.inr ⟨by simp, ?_⟩)
      · simp [putToBlockedByRowAddrDepReqQ, setQueues, RequestQueues.putToBlockedByRowAddrDepReqQ]
      · simp [putToBlockedByRowAddrDepReqQ, setQueues]
      · simp [putToBlockedByRowAddrDepReqQ, setQueues]

end EnteredOk

/-! ### What is known of a block, and of all blocks -/

/-- With the order of a block its history is known, too. -/
theorem Tracks.withHistory {b : BlockAddr} {fair : RequestLayer → Nat → Prop} {O : RequestLayer → Finset Nat → Prop}
    {Q : BlockReq.History → Prop} (tracks : Tracks g b fair O) (start : Q [])
    (kept : ∀ H r, Q H → BlockReq.Allowed g.userPagesPerBlock H r → Q (H ++ [r])) :
    Tracks g b fair fun s flight => O s flight ∧ Q (s.history g b) where
  waiting ok := tracks.waiting ok.1
  init := ⟨tracks.init, start⟩
  prepare ok idle slot turn :=
    ⟨tracks.prepare ok.1 idle slot turn, prepare_history ▸ kept _ _ ok.2 turn.1⟩
  stable := tracks.stable
  pass ok step waits selects kind permitted met gone started entry :=
    ⟨tracks.pass ok.1 step waits selects kind permitted met gone started entry, step.history g b ▸ ok.2⟩
  pass_other ok step waits kind gone started entry :=
    ⟨tracks.pass_other ok.1 step waits kind gone started entry, step.history g b ▸ ok.2⟩
  refuse ok step req waits selects kind started blocked entry :=
    ⟨tracks.refuse ok.1 step req waits selects kind started blocked entry, step.history g b ▸ ok.2⟩
  refuse_other ok step req waits kind started blocked entry :=
    ⟨tracks.refuse_other ok.1 step req waits kind started blocked entry, step.history g b ▸ ok.2⟩
  frame ok types reqs submissions submission started entry := by
    refine ⟨tracks.frame ok.1 types reqs submissions submission started entry, ?_⟩
    rw [RequestLayer.history, submissions]
    exact ok.2

/-- What is followed for every block is followed for all of them at once. -/
theorem Tracks.all {fair : BlockAddr → RequestLayer → Nat → Prop}
    {O : BlockAddr → RequestLayer → Finset Nat → Prop} (tracks : ∀ b, Tracks g b (fair b) (O b)) :
    OpClosed g (fun s x => ∀ b, fair b s x) fun s held flight => BuffersOk g s held flight ∧ ∀ b, O b s flight where
  queued ok := buffersOk_events.queued ok.1
  idle ok := buffersOk_events.idle ok.1
  submittable ok := buffersOk_events.submittable ok.1
  complete ok retires met done :=
    ⟨buffersOk_events.complete ok.1 retires (fun _ _ => trivial) done, fun b =>
      ((tracks b).ops.complete ⟨ok.1, ok.2 b⟩ retires (fun p member => met p member b) done).2⟩
  recheck ok queues listed met done :=
    ⟨buffersOk_events.recheck ok.1 queues listed trivial done, fun b =>
      ((tracks b).ops.recheck ⟨ok.1, ok.2 b⟩ queues listed (met b) done).2⟩
  readPhase code phase ok real :=
    ⟨buffersOk_events.readPhase code phase ok.1 real, fun b =>
      ((tracks b).ops.readPhase code phase ⟨ok.1, ok.2 b⟩ real).2⟩
  place ok member free met allowed placed :=
    ⟨buffersOk_ops.place ok.1 member free trivial allowed placed, fun b =>
      ((tracks b).ops.place ⟨ok.1, ok.2 b⟩ member free (met b) allowed placed).2⟩
  hold ok member busy allowed addr :=
    ⟨buffersOk_ops.hold ok.1 member busy allowed addr, fun b =>
      ((tracks b).ops.hold ⟨ok.1, ok.2 b⟩ member busy allowed addr).2⟩
  alloc ok real :=
    ⟨buffersOk_ops.alloc ok.1 real, fun b => ((tracks b).ops.alloc ⟨ok.1, ok.2 b⟩ real).2⟩
  putSlice req ok member :=
    ⟨buffersOk_ops.putSlice req ok.1 member, fun b => ((tracks b).ops.putSlice req ⟨ok.1, ok.2 b⟩ member).2⟩
  getSlice ok real :=
    ⟨buffersOk_ops.getSlice ok.1 real, fun b => ((tracks b).ops.getSlice ⟨ok.1, ok.2 b⟩ real).2⟩

/-- Two invariants, one of which needs no condition on the checks. -/
theorem RequestLayer.OpClosed.and {ok : RequestLayer → Nat → Prop}
    {I I' : RequestLayer → Finset Nat → Finset Nat → Prop} (closed : OpClosed g ok I)
    (closed' : OpClosed g (fun _ _ => True) I') :
    OpClosed g ok fun s held flight => I s held flight ∧ I' s held flight where
  queued both := closed.queued both.1
  idle both := closed.idle both.1
  submittable both := closed.submittable both.1
  complete both retires met done :=
    ⟨closed.complete both.1 retires met done, closed'.complete both.2 retires (fun _ _ => trivial) done⟩
  recheck both queues listed met done :=
    ⟨closed.recheck both.1 queues listed met done, closed'.recheck both.2 queues listed trivial done⟩
  readPhase code phase both real := ⟨closed.readPhase code phase both.1 real, closed'.readPhase code phase both.2 real⟩
  place both member free met allowed placed :=
    ⟨closed.place both.1 member free met allowed placed, closed'.place both.2 member free trivial allowed placed⟩
  hold both member busy allowed addr :=
    ⟨closed.hold both.1 member busy allowed addr, closed'.hold both.2 member busy allowed addr⟩
  alloc both real := ⟨closed.alloc both.1 real, closed'.alloc both.2 real⟩
  putSlice req both member := ⟨closed.putSlice req both.1 member, closed'.putSlice req both.2 member⟩
  getSlice both real := ⟨closed.getSlice both.1 real, closed'.getSlice both.2 real⟩

/-- The order of a block, and what was submitted to it. -/
def BlockHistoryOk (g : Geometry) (b : BlockAddr) (s : RequestLayer) (flight : Finset Nat) : Prop :=
  OrderOk g b s flight ∧ AllowedAll g.userPagesPerBlock (s.history g b)

theorem blockHistoryOk_tracks (small : g.userPagesPerBlock < 4096) (b : BlockAddr) :
    Tracks g b (fun s x => ¬ Overtakes g b s x) (BlockHistoryOk g b) :=
  (orderOk_tracks small).withHistory .init fun _ _ ok allowed => ok.submit allowed

/-- The chains of the buffers, the order of every block and the queues of the dies. -/
def AllBlocksOk (g : Geometry) (s : RequestLayer) (held flight : Finset Nat) : Prop :=
  (BuffersOk g s held flight ∧ ∀ b, BlockHistoryOk g b s flight) ∧ RoutedOk g (fun _ _ => True) s held flight

theorem allBlocksOk_ops (small : g.userPagesPerBlock < 4096) :
    OpClosed g (fun s x => ∀ b, ¬ Overtakes g b s x) (AllBlocksOk g) :=
  (Tracks.all (blockHistoryOk_tracks small)).and (routedOk_ops fun _ _ _ _ _ => trivial)

/-! ### The log of the completions -/

namespace RequestLayer

/-- The slot holds a request that was submitted, or is being submitted, and has not finished. -/
def Pending (s : RequestLayer) (flight : Finset Nat) (x : Nat) : Prop := s.Outstanding x ∨ x ∈ flight

end RequestLayer

/-- Everything submitted is pending or logged, and was logged in order. -/
structure LogOk (g : Geometry) (log : List Nat) (s : RequestLayer) (flight : Finset Nat) : Prop where
  logged : ∀ i, i ∈ log ↔ i < s.submissions.length ∧ ∀ x, s.Pending flight x → s.submission x ≠ i
  stamp : ∀ x, s.Pending flight x →
    ∃ req, s.submissions[s.submission x]? = some req ∧ req.SameAccess (s.reqPool x)
  apart : ∀ x y, s.Pending flight x → s.Pending flight y → s.submission x = s.submission y → x = y
  dma : ∀ x, s.reqQueueType x = .nvmeDma → (s.reqPool x).reqType = .nvmeDma
  entered : EnteredOk g s
  order : InOrder (SsdReq.Conflict g) s.submissions log

namespace LogOk

theorem init : LogOk g [] (initRequestLayer g) ∅ := by
  have idle : ∀ x, ¬ (initRequestLayer g).Pending ∅ x := by
    rintro x (busy | inFlight)
    · simp only [Outstanding, reqQueueType, initRequestLayer, RequestQueues.initReqPool] at busy
      split at busy <;> simp at busy
    · simp at inFlight
  refine ⟨by simp [initRequestLayer], fun x busy => absurd busy (idle x), fun x _ busy => absurd busy (idle x), ?_,
    .init, .nil⟩
  intro x type
  exact absurd (.inl (.inr (.inr (.inl type)))) (idle x)

/-- A pending slot changes its queue, or its request only in what the code may change. -/
theorem move (ok : LogOk g log s flight) (step : Concerns s s' x) (before : s.Pending flight x)
    (after : s'.Pending flight' x) (flights : ∀ y, y ≠ x → (y ∈ flight' ↔ y ∈ flight))
    (access : (s.reqPool x).SameAccess (s'.reqPool x))
    (dma : s'.reqQueueType x = .nvmeDma → (s'.reqPool x).reqType = .nvmeDma) (entered : EnteredOk g s') :
    LogOk g log s' flight' := by
  have pending : ∀ y, s'.Pending flight' y ↔ s.Pending flight y := by
    intro y
    by_cases same : y = x
    · subst same
      exact iff_of_true after before
    · simp [Pending, Outstanding, step.types y same, flights y same]
  constructor
  · simpa [pending, step.submission, step.submissions] using ok.logged
  · intro y busy
    obtain ⟨req, here, same⟩ := ok.stamp y ((pending y).mp busy)
    refine ⟨req, by rw [step.submission, step.submissions, here], ?_⟩
    by_cases mine : y = x
    · subst mine
      exact same.trans access
    · rw [step.reqs y mine]
      exact same
  · intro y z busy busy' same
    rw [step.submission] at same
    exact ok.apart y z ((pending y).mp busy) ((pending z).mp busy') same
  · intro y type
    by_cases mine : y = x
    · subst mine
      exact dma type
    · rw [step.reqs y mine]
      exact ok.dma y (step.types y mine ▸ type)
  · exact entered
  · exact step.submissions ▸ ok.order

/-- A slot that is not pending, before and after, changes in any way. -/
theorem idle (ok : LogOk g log s flight) (step : Concerns s s' x) (before : ¬ s.Pending flight x)
    (after : ¬ s'.Outstanding x) (entered : EnteredOk g s') : LogOk g log s' flight := by
  have pending : ∀ y, s'.Pending flight y ↔ s.Pending flight y := by
    intro y
    by_cases same : y = x
    · subst same
      refine iff_of_false ?_ before
      rintro (busy | inFlight)
      · exact after busy
      · exact before (.inr inFlight)
    · simp [Pending, Outstanding, step.types y same]
  have diff : ∀ y, s'.Pending flight y → y ≠ x := fun y busy same => before (same ▸ (pending y).mp busy)
  constructor
  · simpa [pending, step.submission, step.submissions] using ok.logged
  · intro y busy
    rw [step.submission, step.submissions, step.reqs y (diff y busy)]
    exact ok.stamp y ((pending y).mp busy)
  · intro y z busy busy' same
    rw [step.submission] at same
    exact ok.apart y z ((pending y).mp busy) ((pending z).mp busy') same
  · intro y type
    have mine := diff y (.inl (.inr (.inr (.inl type))))
    rw [step.reqs y mine]
    exact ok.dma y (step.types y mine ▸ type)
  · exact entered
  · exact step.submissions ▸ ok.order

/-- A request leaves the hardware when it is ready, and is logged. -/
theorem retire {queues : RequestQueues} (ok : LogOk g log s flight) (queuesOk : QueuesOk g s.queues queued)
    (retires : s.Retires x queues) (out : x ∉ flight)
    (ready : Ready (SsdReq.Conflict g) s.submissions log (s.submission x) req) :
    LogOk g (log ++ [s.submission x]) (s.setQueues queues) flight := by
  obtain ⟨busy, types, -⟩ := retires.spec queuesOk
  have mine : s.Pending flight x := by
    rcases busy with type | type
    · exact .inl (.inr (.inr (.inl type)))
    · exact .inl (.inr (.inr (.inr type)))
  have type : ∀ y, (s.setQueues queues).reqQueueType y = Function.update s.queues.reqQueueType x .free y :=
    fun y => congrFun types y
  have pending : ∀ y, (s.setQueues queues).Pending flight y ↔ s.Pending flight y ∧ y ≠ x := by
    intro y
    by_cases same : y = x
    · subst same
      simp [Pending, Outstanding, type, out]
    · simp [Pending, Outstanding, type, same]
  constructor
  · intro i
    rw [List.mem_append, List.mem_singleton, ok.logged]
    constructor
    · rintro (⟨inRange, gone⟩ | rfl)
      · exact ⟨inRange, fun y now => gone y ((pending y).mp now).1⟩
      · refine ⟨ready.inRange, fun y now same => ?_⟩
        obtain ⟨before, diff⟩ := (pending y).mp now
        exact diff (ok.apart y x before mine same)
    · rintro ⟨inRange, gone⟩
      by_cases same : i = s.submission x
      · exact .inr same
      · refine .inl ⟨inRange, fun y before hit => ?_⟩
        have diff : y ≠ x := by
          rintro rfl
          exact same hit.symm
        exact gone y ((pending y).mpr ⟨before, diff⟩) hit
  · exact fun y now => ok.stamp y ((pending y).mp now).1
  · exact fun y z now now' => ok.apart y z ((pending y).mp now).1 ((pending z).mp now').1
  · intro y queue
    rw [type] at queue
    by_cases same : y = x
    · subst same
      rw [Function.update_self] at queue
      cases queue
    · rw [Function.update_of_ne same] at queue
      exact ok.dma y queue
  · exact ok.entered.retire retires
  · exact ok.order.snoc ready

/-- A slot in no queue is filled in, and its submission is in progress. -/
theorem prepare (ok : LogOk g log s ∅) (free : s.reqQueueType x = .none) (req : SsdReq) :
    LogOk g log (s.prepare x req) {x} := by
  have idle : ¬ s.Outstanding x := by simp [Outstanding, free]
  have pending : ∀ y, (s.prepare x req).Pending {x} y ↔ s.Pending ∅ y ∨ y = x := by
    intro y
    simp [Pending]
  have old : ∀ y, s.Pending ∅ y → y ≠ x ∧ s.submission y < s.submissions.length := by
    intro y busy
    refine ⟨?_, ?_⟩
    · rintro rfl
      simp [Pending, idle] at busy
    · obtain ⟨req', here, -⟩ := ok.stamp y busy
      exact (List.getElem?_eq_some_iff.mp here).1
  have stamps : ∀ y, y ≠ x → (s.prepare x req).submission y = s.submission y :=
    fun y diff => Function.update_of_ne diff ..
  have mine : (s.prepare x req).submission x = s.submissions.length := Function.update_self ..
  constructor
  · intro i
    have count : (s.prepare x req).submissions.length = s.submissions.length + 1 := by simp [RequestLayer.prepare]
    rw [ok.logged, count]
    constructor
    · rintro ⟨inRange, gone⟩
      refine ⟨by omega, fun y busy hit => ?_⟩
      rcases (pending y).mp busy with before | rfl
      · exact gone y before ((stamps y (old y before).1).symm.trans hit)
      · omega
    · rintro ⟨inRange, gone⟩
      have last := gone x ((pending x).mpr (.inr rfl))
      refine ⟨by omega, fun y before hit => gone y ((pending y).mpr (.inl before)) ?_⟩
      exact (stamps y (old y before).1).trans hit
  · intro y busy
    rcases (pending y).mp busy with before | rfl
    · obtain ⟨diff, inRange⟩ := old y before
      obtain ⟨req', here, access⟩ := ok.stamp y before
      refine ⟨req', ?_, ?_⟩
      · rw [stamps y diff, RequestLayer.prepare, List.getElem?_append_left inRange, here]
      · simpa [RequestLayer.prepare, diff] using access
    · refine ⟨req, ?_, ?_⟩
      · rw [mine, RequestLayer.prepare, List.getElem?_concat_length]
      · simpa [RequestLayer.prepare] using SsdReq.SameAccess.refl req
  · intro y z busy busy' same
    rcases (pending y).mp busy with before | rfl <;> rcases (pending z).mp busy' with before' | rfl
    · rw [stamps y (old y before).1, stamps z (old z before').1] at same
      exact ok.apart y z before before' same
    · rw [stamps y (old y before).1, mine] at same
      have inRange := (old y before).2
      omega
    · rw [stamps z (old z before').1, mine] at same
      have inRange := (old z before').2
      omega
    · rfl
  · intro y type
    have diff : y ≠ x := by
      rintro rfl
      have free' : (s.prepare y req).reqQueueType y = .none := free
      rw [free'] at type
      cases type
    simpa [RequestLayer.prepare, diff] using ok.dma y type
  · refine ok.entered.frame rfl (fun y busy => ?_) rfl
    apply stamps
    rintro rfl
    exact busy free
  · exact ok.order.submit

end LogOk

/-! ### What the hardware may finish is ready -/

theorem blockReq_nand {b : BlockAddr} {r : BlockReq} (kind : blockReq g b req = some r) :
    req.reqType = .nand ∧ req.nandAddr = .vsa ∧ blockAddr g req.virtualSliceAddr = b := by
  unfold blockReq at kind
  split at kind
  · assumption
  · cases kind

/-- An earlier request that shares the buffer of a released one has finished. -/
private theorem chain_first (ok : BuffersOk g s held flight) {b : BufEntry} (released : s.Released x)
    (pending : s.Pending flight y) (mine : (s.reqPool x).bufEntry = some b)
    (other : (s.reqPool y).bufEntry = some b) (less : s.submission y < s.submission x) : False := by
  obtain ⟨slots, chain, chains⟩ := ok
  have inChain := chains.attached b x mine (.inl released.outstanding)
  obtain ⟨xs, shape⟩ := chains.first_of_released (fun _ => slotsOk_events.idle slots) released inChain
  have listed := chains.attached b y other pending
  have order := chains.order b
  rw [shape] at listed order
  rcases List.mem_cons.mp listed with rfl | later
  · omega
  · have behind := (List.pairwise_cons.mp order).1 y later
    omega

/-- An earlier request that clashes with the first one of a die has finished. -/
private theorem die_first (ok : AllBlocksOk g s held flight) (logOk : LogOk g log s flight)
    (pages : 0 < g.userPagesPerBlock) {chNo wayNo : Nat} {queues : RequestQueues}
    (taken : s.queues.getFromNandReqQ chNo wayNo = some (x, queues)) (pending : s.Pending flight y)
    {b : BlockAddr} {r r' : BlockReq} (here : (s.history g b)[s.submission y]? = some (some r))
    (there : (s.history g b)[s.submission x]? = some (some r'))
    (mine : (s.reqPool x).nandAddr = .vsa ∧ blockAddr g (s.reqPool x).virtualSliceAddr = b)
    (other : (s.reqPool y).reqType = .nand ∧ (s.reqPool y).nandAddr = .vsa ∧
      blockAddr g (s.reqPool y).virtualSliceAddr = b)
    (clash : Clash r r') (less : s.submission y < s.submission x) : False := by
  obtain ⟨⟨-, blocks⟩, routed⟩ := ok
  obtain ⟨order, allowed⟩ := blocks b
  obtain ⟨e, progress⟩ := order.progress
  obtain ⟨queued, queuesOk, fifo⟩ := logOk.entered
  obtain ⟨xs, shape, -⟩ := queuesOk.getFromNandReqQ taken
  have sub := fifo chNo wayNo
  rw [shape, List.map_cons] at sub
  have listed : s.submission x ∈ s.started := sub.subset (List.mem_cons_self ..)
  obtain ⟨started, first⟩ := progress.ordered.clash allowed order.disciplined pages here there less clash listed
  have waits : ¬ s.Waiting flight y := fun w => order.notStarted y w started
  have type : s.reqQueueType y = .nand := by
    rcases pending with (blocked | row | dma | nand) | inFlight
    · exact absurd (.inl blocked) waits
    · exact absurd (.inr (.inl row)) waits
    · have isDma := logOk.dma y dma
      rw [other.1] at isDma
      cases isDma
    · exact nand
    · exact absurd (.inr (.inr inFlight)) waits
  obtain ⟨queued', queuesOk', takes⟩ := routed.queues
  cases queuesOk'.holds.unique queuesOk.holds
  obtain ⟨q, member⟩ := queuesOk.listed y (by rw [show s.queues.reqQueueType y = _ from type]; simp)
  have kind := queuesOk.typed q y member
  rw [show s.queues.reqQueueType y = _ from type] at kind
  cases q with
  | nand chNo' wayNo' =>
    have dieX := (takes (.nand chNo wayNo) x (by simp [shape])).2.2
    have dieY := (takes (.nand chNo' wayNo') y member).2.2
    simp only [nandDie, mine.1, mine.2, Prod.mk.injEq] at dieX
    simp only [nandDie, other.2.1, other.2.2, Prod.mk.injEq] at dieY
    rw [← dieY.1, ← dieY.2, dieX.1, dieX.2, shape] at member
    rcases List.mem_cons.mp member with rfl | later
    · omega
    · have pair : List.Sublist [s.submission x, s.submission y] s.started :=
        ((List.singleton_sublist.mpr (List.mem_map_of_mem later)).cons_cons _).trans sub
      have second := BlockReq.idxOf_lt_of_sublist progress.ordered.once pair
      omega
  | _ => cases kind

/-- What the hardware may finish now is ready. -/
theorem ready_of_retires (ok : AllBlocksOk g s held flight) (logOk : LogOk g log s flight)
    (pages : 0 < g.userPagesPerBlock) {queues : RequestQueues} (retires : s.Retires x queues) :
    ∃ req, Ready (SsdReq.Conflict g) s.submissions log (s.submission x) req := by
  obtain ⟨queued, queuesOk⟩ := ok.1.1.1.queued
  obtain ⟨busy, -, -⟩ := retires.spec queuesOk
  have released : s.Released x := busy.elim .inl fun nand => .inr (.inl nand)
  have mine : s.Pending flight x := .inl released.outstanding
  obtain ⟨req, here, access⟩ := logOk.stamp x mine
  refine ⟨req, here, fun done => ((logOk.logged _).mp done).2 x mine rfl, ?_⟩
  intro j req' less there conflict
  by_contra out
  have inRange := (List.getElem?_eq_some_iff.mp there).1
  rw [logOk.logged] at out
  push Not at out
  obtain ⟨y, pending, rfl⟩ := out inRange
  obtain ⟨req'', again, access'⟩ := logOk.stamp y pending
  cases there.symm.trans again
  rcases conflict.cases with ⟨b, first, second⟩ | ⟨b, r, r', first, second, clash⟩
  · exact chain_first ok.1.1 released pending (access.bufEntry.trans second) (access'.bufEntry.trans first) less
  · obtain ⟨type, addr, block⟩ := blockReq_nand second
    obtain ⟨type', addr', block'⟩ := blockReq_nand first
    rcases retires with ⟨dma, -⟩ | ⟨chNo, wayNo, taken⟩
    · have isDma := logOk.dma x dma
      rw [access.reqType, type] at isDma
      cases isDma
    · refine die_first ok logOk pages taken pending ?_ ?_
        ⟨access.nandAddr.trans addr, access.virtualSliceAddr ▸ block⟩
        ⟨access'.reqType.trans type', access'.nandAddr.trans addr', access'.virtualSliceAddr ▸ block'⟩ clash less
      · rw [RequestLayer.history, List.getElem?_map, there, Option.map_some, first]
      · rw [RequestLayer.history, List.getElem?_map, here, Option.map_some, second]

/-! ### The log over whole runs -/

/-- A placed request keeps what it accesses; only transfers go to the queue of the DMA. -/
theorem RequestLayer.Placed.access (placed : Placed g s x select s') :
    (s.reqPool x).SameAccess (s'.reqPool x) ∧
      (s'.reqQueueType x = .nvmeDma → (s'.reqPool x).reqType = .nvmeDma) := by
  rcases placed.cases with ⟨type, info, hostDma, rfl⟩ | ⟨-, chNo, wayNo, -, ⟨-, rfl⟩ | ⟨-, -, rfl⟩ | ⟨-, -, rfl⟩⟩
  · have mine : ((s.issued x info hostDma).setQueues (s.queues.putToNvmeDmaReqQ x)).reqPool x =
        { s.reqPool x with nvmeDmaInfo := info } := Function.update_self ..
    rw [mine]
    exact ⟨⟨rfl, rfl, rfl, rfl⟩, fun _ => type⟩
  · have nand : (s.putToNandReqQ x chNo wayNo).reqQueueType x = .nand := Function.update_self ..
    exact ⟨.refl _, by simp [nand]⟩
  · have nand : ((s.passed g x select).putToNandReqQ x chNo wayNo).reqQueueType x = .nand := Function.update_self ..
    exact ⟨.refl _, by simp [nand]⟩
  · have row : ((s.refused g x select).putToBlockedByRowAddrDepReqQ x chNo wayNo).reqQueueType x =
        .blockedByRowAddrDep := Function.update_self ..
    refine ⟨?_, by simp [row]⟩
    cases select <;> exact .refl _

namespace LogOk

/-- A slot in progress is placed. -/
theorem place (ok : LogOk g log s flight) (member : x ∈ flight) (submittable : Submittable g (s.reqPool x))
    (slot : x < availableOutstandingReqCount g) (free : s.reqQueueType x = .none) (placed : Placed g s x select s') :
    LogOk g log s' (flight.erase x) := by
  obtain ⟨released, types, -, submission, submissions, -⟩ := placed.released submittable
  have step : Concerns s s' x := ⟨fun y diff => (placed.undisturbed diff).1, types, submissions, submission⟩
  refine ok.move step (.inr member) (.inl released.outstanding) (fun y diff => by simp [diff])
    placed.access.1 placed.access.2 ?_
  exact ok.entered.place submittable slot free placed

/-- A request held back for a buffer is taken out of its queue. -/
theorem wake (ok : LogOk g log s flight) (queues : QueuesOk g s.queues queued)
    (listed : x ∈ queued .blockedByBufDep) :
    LogOk g log (s.setQueues (s.queues.selectiveGetFrom .blockedByBufDep x)) (insert x flight) := by
  have type : s.reqQueueType x = .blockedByBufDep := queues.mem_bufDep.mp listed
  have moved : ∀ y, (s.setQueues (s.queues.selectiveGetFrom .blockedByBufDep x)).reqQueueType y =
      Function.update s.queues.reqQueueType x .none y := fun _ => rfl
  have step : Concerns s (s.setQueues (s.queues.selectiveGetFrom .blockedByBufDep x)) x :=
    ⟨fun _ _ => rfl, fun y diff => by rw [moved, Function.update_of_ne diff], rfl, rfl⟩
  refine ok.move step (.inl (.inl type)) (.inr (Finset.mem_insert_self ..)) (fun y diff => by simp [diff])
    (.refl _) ?_ (ok.entered.take queues listed rfl rfl rfl)
  intro dma
  rw [moved, Function.update_self] at dma
  cases dma

/-- Cutting a request off its chain changes nothing the log depends on. -/
theorem cut (ok : LogOk g log s flight) : LogOk g log (s.cut x) flight :=
  ⟨ok.logged, ok.stamp, ok.apart, ok.dma, ok.entered.frame rfl (fun _ _ => rfl) rfl, ok.order⟩

/-- A request leaves the hardware, and the one behind it in its buffer goes on. -/
theorem complete (pages : 0 < g.userPagesPerBlock) (inv : AllBlocksOk g s held flight) (ok : LogOk g log s flight)
    {queues : RequestQueues} (retires : s.Retires x queues)
    (done : (s.setQueues queues).releaseBlockedByBufDepReq g x = some s') :
    LogOk g (log ++ [s.submission x]) s' flight := by
  obtain ⟨req, ready⟩ := ready_of_retires inv ok pages retires
  have slots := inv.1.1.1
  obtain ⟨queued, queuesOk⟩ := slots.queued
  obtain ⟨busy, -, -⟩ := retires.spec queuesOk
  have out : x ∉ flight := by
    intro member
    have idle := slotsOk_events.idle slots member
    rcases busy with type | type <;> rw [type] at idle <;> cases idle
  have retired := ok.retire queuesOk retires out ready
  rcases releaseBlockedByBufDepReq_cases done with ⟨-, rfl⟩ | ⟨⟨-, blocked⟩, started⟩
  · exact retired.cut
  · have slots' := slots.retire retires
    obtain ⟨queued', queuesOk'⟩ := slots'.queued
    have listed := queuesOk'.mem_bufDep.mpr blocked
    have submittable := slots'.submittable _ blocked
    obtain ⟨-, free⟩ := slots'.busy (queuesOk'.slot _ _ listed) (by simp [blocked])
    have woken := (retired.wake queuesOk' listed).cut (x := x)
    have placed := Placed.of_startReleasedReq started submittable.1
    have after := woken.place (by simp) submittable (queuesOk'.slot _ _ listed) (Function.update_self ..) placed
    rwa [Finset.erase_insert free] at after

/-- A blocked request is checked again, and goes to the queue of its die if it passes. -/
theorem recheck (ok : LogOk g log s flight) (queuesOk : QueuesOk g s.queues queued) {chNo wayNo : Nat}
    (listed : x ∈ queued (.blockedByRowAddrDep chNo wayNo))
    (done : s.recheckRowAddrDep g x chNo wayNo = some s') : LogOk g log s' flight := by
  obtain ⟨-, ⟨-, rfl⟩ | ⟨-, rfl⟩⟩ := recheckRowAddrDep_cases done
  · have slot := queuesOk.slot _ _ listed
    have type : s.reqQueueType x = .blockedByRowAddrDep := queuesOk.typed _ _ listed
    have exist : (ReqQueue.nand chNo wayNo).Exists g :=
      queuesOk.exist (.blockedByRowAddrDep chNo wayNo) (List.ne_nil_of_mem listed)
    have moved : ∀ y, (((s.passed g x false).setQueues (s.queues.selectiveGetFromBlockedByRowAddrDepReqQ x chNo
        wayNo)).putToNandReqQ x chNo wayNo).reqQueueType y =
        Function.update (Function.update s.queues.reqQueueType x .none) x .nand y := fun _ => rfl
    have nand : (((s.passed g x false).setQueues (s.queues.selectiveGetFromBlockedByRowAddrDepReqQ x chNo
        wayNo)).putToNandReqQ x chNo wayNo).reqQueueType x = .nand := Function.update_self ..
    refine ok.move (x := x) ⟨fun _ _ => rfl, fun y diff => ?_, rfl, rfl⟩ (.inl (.inr (.inl type)))
      (.inl (.inr (.inr (.inr nand)))) (fun _ _ => Iff.rfl) (.refl _) (by simp [nand]) ?_
    · rw [moved, Function.update_of_ne diff, Function.update_of_ne diff]
    · have taken : EnteredOk g ((s.passed g x false).setQueues
          (s.queues.selectiveGetFromBlockedByRowAddrDepReqQ x chNo wayNo)) :=
        ok.entered.take queuesOk listed rfl rfl rfl
      exact taken.put (q := .nand chNo wayNo) exist slot (Function.update_self ..) rfl rfl (.inl ⟨⟨_, _, rfl⟩, rfl⟩)
  · exact ok

/-- The first request of a die goes from one phase of a READ to the other. -/
theorem readPhase (ok : LogOk g log s flight) (queuesOk : QueuesOk g s.queues queued) {chNo wayNo : Nat}
    (code : ReqCode) (real : s.queues.links.head (.nand chNo wayNo) ≠ reqSlotTagNone) :
    LogOk g log (s.setReq (s.queues.links.head (.nand chNo wayNo))
      { s.reqPool (s.queues.links.head (.nand chNo wayNo)) with reqCode := code }) flight := by
  obtain ⟨xs, shape⟩ := queuesOk.head_cons real
  have type : s.reqQueueType (s.queues.links.head (.nand chNo wayNo)) = .nand :=
    queuesOk.typed (.nand chNo wayNo) _ (by simp [shape])
  have busy : s.Pending flight (s.queues.links.head (.nand chNo wayNo)) := .inl (.inr (.inr (.inr type)))
  have mine : ((s.setReq (s.queues.links.head (.nand chNo wayNo))
      { s.reqPool (s.queues.links.head (.nand chNo wayNo)) with reqCode := code }).reqPool
        (s.queues.links.head (.nand chNo wayNo))) =
      { s.reqPool (s.queues.links.head (.nand chNo wayNo)) with reqCode := code } := Function.update_self ..
  refine ok.move ⟨fun y diff => Function.update_of_ne diff .., fun _ _ => rfl, rfl, rfl⟩ busy busy
    (fun _ _ => Iff.rfl) ?_ ?_ (ok.entered.frame rfl (fun _ _ => rfl) rfl)
  · rw [mine]
    exact ⟨rfl, rfl, rfl, rfl⟩
  · intro dma
    have nand : (s.setReq (s.queues.links.head (.nand chNo wayNo))
        { s.reqPool (s.queues.links.head (.nand chNo wayNo)) with reqCode := code }).reqQueueType
          (s.queues.links.head (.nand chNo wayNo)) = .nand := type
    rw [nand] at dma
    cases dma

/-- A slot in progress is held back for its buffer. -/
theorem hold (ok : LogOk g log s flight) (member : x ∈ flight) (slot : x < availableOutstandingReqCount g)
    (free : s.reqQueueType x = .none) : LogOk g log (s.hold g x) (flight.erase x) := by
  have moved : ∀ y, (s.hold g x).reqQueueType y =
      Function.update s.queues.reqQueueType x .blockedByBufDep y := fun _ => rfl
  have blocked : (s.hold g x).reqQueueType x = .blockedByBufDep := by
    rw [moved, Function.update_self]
  refine ok.move (x := x) ⟨fun y _ => by rw [hold_reqPool], fun y diff => ?_, hold_submissions, hold_submission⟩
    (.inr member) (.inl (.inl blocked)) (fun y diff => by simp [diff]) ?_ (by simp [blocked]) ?_
  · rw [moved, Function.update_of_ne diff]
  · rw [hold_reqPool]
    exact .refl _
  · exact ok.entered.put (q := .blockedByBufDep) trivial slot free rfl hold_submission (.inr ⟨by simp, hold_started⟩)

/-- The first slot of a queue that holds no pending requests is taken. -/
theorem takeIdle (ok : LogOk g log s ∅) (queuesOk : QueuesOk g s.queues queued)
    (some : s.queues.links.head q ≠ reqSlotTagNone) (queue : q = .free ∨ q = .slice) :
    LogOk g log (s.setQueues (s.queues.getFrom q)) ∅ := by
  obtain ⟨xs, shape⟩ := queuesOk.head_cons some
  have type : s.reqQueueType (s.queues.links.head q) = q.queueType := queuesOk.typed q _ (by simp [shape])
  have moved : ∀ y, (s.setQueues (s.queues.getFrom q)).reqQueueType y =
      Function.update s.queues.reqQueueType (s.queues.links.head q) .none y := fun _ => rfl
  refine ok.idle (x := s.queues.links.head q) ⟨fun _ _ => rfl, fun y diff => ?_, rfl, rfl⟩ ?_ ?_
    (ok.entered.takeFirst some rfl rfl rfl)
  · rw [moved, Function.update_of_ne diff]
  · rcases queue with rfl | rfl <;> simp [Pending, Outstanding, type, ReqQueue.queueType]
  · simp [Outstanding, moved]

/-- A slot in no queue becomes a slice request. -/
theorem putSlice (ok : LogOk g log s ∅) (slot : x < availableOutstandingReqCount g)
    (free : s.reqQueueType x = .none) (req : SsdReq) :
    LogOk g log ((s.setReq x req).setQueues (s.queues.putToSliceReqQ x)) ∅ := by
  have moved : ∀ y, ((s.setReq x req).setQueues (s.queues.putToSliceReqQ x)).reqQueueType y =
      Function.update s.queues.reqQueueType x .slice y := fun _ => rfl
  refine ok.idle (x := x) ⟨fun y diff => Function.update_of_ne diff .., fun y diff => ?_, rfl, rfl⟩ ?_ ?_
    (ok.entered.put (q := .slice) trivial slot free rfl rfl (.inr ⟨by simp, rfl⟩))
  · rw [moved, Function.update_of_ne diff]
  · simp [Pending, Outstanding, free]
  · simp [Outstanding, moved]

end LogOk

/-- Every operation keeps the log; a completion is appended to it. -/
theorem logOk_logged (pages : 0 < g.userPagesPerBlock) :
    LogClosed g (fun s x => ∀ b, ¬ Overtakes g b s x) (AllBlocksOk g) (LogOk g) where
  complete inv ok retires _ done := ok.complete pages inv retires done
  recheck _ ok queuesOk listed done := ok.recheck queuesOk listed done
  readPhase code inv ok real := by
    obtain ⟨queued, queuesOk⟩ := inv.1.1.1.queued
    exact ok.readPhase queuesOk code real
  place inv ok member submittable placed :=
    ok.place member submittable (inv.1.1.1.inPool _ (.inr member)) (slotsOk_events.idle inv.1.1.1 member) placed
  hold inv ok member :=
    ok.hold member (inv.1.1.1.inPool _ (.inr member)) (slotsOk_events.idle inv.1.1.1 member)
  alloc inv ok real := by
    obtain ⟨queued, queuesOk⟩ := inv.1.1.1.queued
    exact ok.takeIdle queuesOk real (.inl rfl)
  putSlice req inv ok member := by
    have slot := inv.1.1.1.inPool _ (.inl member)
    exact ok.putSlice slot ((inv.1.1.1.taken _ slot).mpr (.inl member)) req
  getSlice inv ok real := by
    obtain ⟨queued, queuesOk⟩ := inv.1.1.1.queued
    exact ok.takeIdle queuesOk real (.inr rfl)

/-! ### What an operation submits -/

/-- Nothing but the preparation of a submission changes what was submitted. -/
private theorem submissions_logged (l : List SsdReq) :
    LogClosed g (fun _ _ => True) (BuffersOk g) fun _ s _ => s.submissions = l where
  complete := by
    intro log s held flight x queues s' inv same retires met done
    rcases releaseBlockedByBufDepReq_cases done with ⟨-, rfl⟩ | ⟨⟨-, blocked⟩, started⟩
    · exact same
    · have submittable := (inv.1.retire retires).submittable _ blocked
      have placed := Placed.of_startReleasedReq started submittable.1
      obtain ⟨-, -, -, -, submissions, -⟩ := placed.released submittable
      exact submissions.trans same
  recheck := by
    intro log s held flight queued x chNo wayNo s' inv same queues listed done
    obtain ⟨-, ⟨-, rfl⟩ | ⟨-, rfl⟩⟩ := recheckRowAddrDep_cases done <;> exact same
  readPhase code inv same real := same
  place := by
    intro log s held flight x s' inv same member submittable placed
    obtain ⟨-, -, -, -, submissions, -⟩ := placed.released submittable
    exact submissions.trans same
  hold inv same member := hold_submissions.trans same
  alloc inv same real := same
  putSlice req inv same member := same
  getSlice inv same real := same

theorem event_submissions {e : Event} (inv : BuffersOk g s held flight) (done : s.event g e = some s') :
    s'.submissions = s.submissions :=
  @event_logged _ _ _ held flight [] _ _ _ buffersOk_ops.toEventClosed (submissions_logged _) e inv rfl
    (fun _ _ => trivial) done

theorem requestStep_submissions {fw fw' : Firmware} {op : RequestOp} (inv : BuffersOk g fw.layer fw.held ∅)
    (step : requestStep g fw op = some fw') :
    fw'.layer.submissions = fw.layer.submissions ++ opSubmits op := by
  by_cases submission : ∃ x req es, op = .submit x req es
  · obtain ⟨x, req, es, rfl⟩ := submission
    simp only [requestStep] at step
    split at step
    · rename_i allowed
      simp only [Option.bind_eq_bind, Option.bind_eq_some_iff, Option.some.injEq] at step
      obtain ⟨t, submitted, rfl⟩ := step
      have submittable : Submittable g ((fw.layer.prepare x req).reqPool x) := by
        simpa [prepare] using allowed.2
      exact @select_logged _ _ _ _ _ _ _ [] _ _ _ buffersOk_ops (submissions_logged _)
        (buffersOk_prepare inv allowed.1 req) rfl (by simp) submittable (fun _ _ => trivial) submitted
    · cases step
  · have none : opSubmits op = [] := by
      cases op with
      | submit x req es => exact absurd ⟨x, req, es, rfl⟩ submission
      | _ => rfl
    rw [none, List.append_nil]
    exact @requestStep_logged _ [] _ _ _ buffersOk_ops (submissions_logged _) _ _ _ inv rfl
      (fun x req es same _ _ => absurd ⟨x, req, es, same⟩ submission) (fun _ _ => trivial) step

/-! ### Runs that keep the order of every block -/

/-- No check that the operation makes lets a request overtake an ERASE of its block. -/
def KeepsErases (g : Geometry) (fw : Firmware) (op : RequestOp) : Prop :=
  ∀ p ∈ opChecks g fw op, ¬ Overtakes g (blockAddr g (p.1.reqPool p.2).virtualSliceAddr) p.1 p.2

instance (g : Geometry) (fw : Firmware) (op : RequestOp) : Decidable (KeepsErases g fw op) := by
  unfold KeepsErases
  infer_instance

/-- What an operation submits is in turn for its block. -/
def SubmitsInOrder (g : Geometry) (fw : Firmware) (op : RequestOp) : Prop :=
  ∀ req ∈ opSubmits op, SubmitsInTurn g (blockAddr g req.virtualSliceAddr) fw.layer req

instance (g : Geometry) (fw : Firmware) (op : RequestOp) : Decidable (SubmitsInOrder g fw op) := by
  unfold SubmitsInOrder
  infer_instance

def KeepsBlockOrder (g : Geometry) (fw : Firmware) (op : RequestOp) : Prop :=
  SubmitsInOrder g fw op ∧ KeepsErases g fw op

instance (g : Geometry) (fw : Firmware) (op : RequestOp) : Decidable (KeepsBlockOrder g fw op) := by
  unfold KeepsBlockOrder
  infer_instance

section
variable {fw : Firmware} {op : RequestOp}

/-- No block is concerned but the one the request goes to. -/
theorem SubmitsInOrder.all (turn : SubmitsInOrder g fw op) (b : BlockAddr) : OpInTurn g b fw op := by
  cases op with
  | submit x req es =>
    by_cases here : blockReq g b req = none
    · exact ⟨by simp [here, BlockReq.Allowed], by simp [here], by simp [here]⟩
    · obtain ⟨r, kind⟩ := Option.ne_none_iff_exists'.mp here
      exact (blockReq_cases kind).1 ▸ turn req (List.mem_singleton_self req)
  | _ => trivial

theorem KeepsErases.all (keeps : KeepsErases g fw op) : ∀ p ∈ opChecks g fw op, ∀ b, ¬ Overtakes g b p.1 p.2 := by
  intro p member b passes
  obtain ⟨r, kind⟩ := Option.ne_none_iff_exists'.mp passes.1
  exact keeps p member ((blockReq_cases kind).1 ▸ passes)

end

theorem AllBlocksOk.init (small : g.userPagesPerBlock < 4096) : AllBlocksOk g (initRequestLayer g) ∅ ∅ :=
  ⟨⟨⟨SlotsOk.init, _, ChainsOk.init⟩, fun b => (blockHistoryOk_tracks small b).init⟩, ⟨SlotsOk.init, .init, by simp⟩⟩

/-- A submission that keeps the order of the blocks is prepared. -/
theorem AllBlocksOk.prepare (small : g.userPagesPerBlock < 4096) (ok : AllBlocksOk g s held ∅)
    (member : x ∈ held) (turn : ∀ b, SubmitsInTurn g b s req) :
    AllBlocksOk g (s.prepare x req) (held.erase x) {x} := by
  obtain ⟨⟨buffers, blocks⟩, routed⟩ := ok
  exact ⟨⟨buffersOk_prepare buffers member req, fun b =>
    ((blockHistoryOk_tracks small b).submit ⟨buffers, blocks b⟩ member (turn b)).2⟩,
    routed.prepare member trivial fun _ _ _ _ => trivial⟩

/-- An operation that keeps the order of the blocks keeps the invariant and the log. -/
theorem loggedStep_ok {t t' : TracedFirmware} {op : RequestOp} (small : g.userPagesPerBlock < 4096)
    (ok : AllBlocksOk g t.fw.layer t.fw.held ∅ ∧ LogOk g t.finished t.fw.layer ∅)
    (met : KeepsBlockOrder g t.fw op) (step : loggedStep g t op = some t') :
    AllBlocksOk g t'.fw.layer t'.fw.held ∅ ∧ LogOk g t'.finished t'.fw.layer ∅ := by
  simp only [loggedStep, Option.bind_eq_bind, Option.bind_eq_some_iff, Option.some.injEq] at step
  obtain ⟨fw, step, rfl⟩ := step
  have prepared : ∀ x req es, op = .submit x req es → x ∈ t.fw.held → Submittable g req →
      AllBlocksOk g (t.fw.layer.prepare x req) (t.fw.held.erase x) {x} ∧
        LogOk g t.finished (t.fw.layer.prepare x req) {x} := by
    rintro x req es rfl member -
    have slots := ok.1.1.1.1
    exact ⟨ok.1.prepare small member met.1.all,
      ok.2.prepare ((slots.taken x (slots.inPool x (.inl member))).mpr (.inl member)) req⟩
  exact ⟨requestStep_closed (allBlocksOk_ops small) ok.1
      (fun x req es eq member allowed => (prepared x req es eq member allowed).1) met.2.all step,
    requestStep_logged (allBlocksOk_ops small) (logOk_logged g.pages_pos) ok.1 ok.2 prepared met.2.all step⟩

theorem logOk_of_run {ops : List RequestOp} {t : TracedFirmware} (small : g.userPagesPerBlock < 4096)
    (run : Run (loggedStep g) (fun t op => KeepsBlockOrder g t.fw op) (initTraced g) ops t) :
    AllBlocksOk g t.fw.layer t.fw.held ∅ ∧ LogOk g t.finished t.fw.layer ∅ := by
  apply run.invariant (fun t => AllBlocksOk g t.fw.layer t.fw.held ∅ ∧ LogOk g t.finished t.fw.layer ∅)
    ⟨.init small, .init⟩
  intro t op t' ok met step
  exact loggedStep_ok small ok met step

/-- In every run that submits in turn and in which no check lets a request overtake an
ERASE, whatever was submitted is outstanding or has finished, once, and requests that
conflict on a buffer entry or on flash finish in the order of their submission. -/
theorem completion_order_of_run {ops : List RequestOp} {t : TracedFirmware} (small : g.userPagesPerBlock < 4096)
    (run : Run (loggedStep g) (fun t op => KeepsBlockOrder g t.fw op) (initTraced g) ops t) :
    InOrder (SsdReq.Conflict g) t.fw.layer.submissions t.finished ∧ t.finished.Nodup ∧
      ∀ i, i ∈ t.finished ↔ i < t.fw.layer.submissions.length ∧
        ∀ x, t.fw.layer.Outstanding x → t.fw.layer.submission x ≠ i := by
  obtain ⟨-, ok⟩ := logOk_of_run small run
  refine ⟨ok.order, ok.order.nodup, fun i => ?_⟩
  simpa [Pending] using ok.logged i

/-- The second WRITE finishes before the READ, which waits for the buffer of the first one. -/
theorem completion_order_of_run_twoGenerations :
    ∃ t, Run (loggedStep tinyGeometry) (fun t op => KeepsBlockOrder tinyGeometry t.fw op) (initTraced tinyGeometry)
      [.alloc [], .submit 0 (blockReqOf .write 0 (some 0)) [],
        .alloc [], .submit 1 (blockReqOf .read 0 (some 0)) [],
        .alloc [], .submit 2 (blockReqOf .write 1 (some 1)) [],
        .alloc [], .submit 3 (blockReqOf .erase 0 none) [],
        .alloc [], .submit 4 (blockReqOf .write 0 (some 2)) [],
        .syncAll [.nandDone 0 0, .nandDone 0 0, .nandDone 0 0, .recheck 0 0, .nandDone 0 0,
          .nandDone 0 0]] t ∧
      t.finished = [0, 2, 1, 3, 4] ∧
      InOrder (SsdReq.Conflict tinyGeometry) t.fw.layer.submissions t.finished := by
  have done : (exec (loggedStep tinyGeometry) (fun t op => KeepsBlockOrder tinyGeometry t.fw op)
      (initTraced tinyGeometry)
      [.alloc [], .submit 0 (blockReqOf .write 0 (some 0)) [],
        .alloc [], .submit 1 (blockReqOf .read 0 (some 0)) [],
        .alloc [], .submit 2 (blockReqOf .write 1 (some 1)) [],
        .alloc [], .submit 3 (blockReqOf .erase 0 none) [],
        .alloc [], .submit 4 (blockReqOf .write 0 (some 2)) [],
        .syncAll [.nandDone 0 0, .nandDone 0 0, .nandDone 0 0, .recheck 0 0, .nandDone 0 0,
          .nandDone 0 0]]).any (fun t => t.finished = [0, 2, 1, 3, 4]) := by
    decide +kernel
  obtain ⟨t, run, finished⟩ := run_of_exec_any done
  exact ⟨t, run, by simpa using finished, (completion_order_of_run (by decide) run).1⟩

end OcpFw
