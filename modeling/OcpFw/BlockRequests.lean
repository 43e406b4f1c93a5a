import OcpFw.BlockGenerations
import OcpFw.BufferOrder

/-! The requests of one block that wait: those held back for a buffer, those in the queue
of the die, and the one being submitted. They are known by their place in the history of
the block. -/
namespace OcpFw
open RequestLayer
open BlockReq (Allowed)

/-- What a request asks of a block; nothing if it does not go there. -/
def blockReq (g : Geometry) (b : BlockAddr) (req : SsdReq) : Option BlockReq :=
  if req.reqType = .nand ∧ req.nandAddr = .vsa ∧ blockAddr g req.virtualSliceAddr = b then
    match req.reqCode with
    | .write => some (.write (vsa2VpageTranslation g req.virtualSliceAddr))
    | .read => some (.read (vsa2VpageTranslation g req.virtualSliceAddr))
    | .erase => some .erase
    | _ => none
  else none

/-- Everything submitted so far, as the block sees it. -/
def RequestLayer.history (g : Geometry) (b : BlockAddr) (s : RequestLayer) : BlockReq.History :=
  s.submissions.map (blockReq g b)

/-- Submissions to the block ask for the check and keep its discipline; an ERASE names
the whole block and has no buffer. -/
def SubmitsInTurn (g : Geometry) (b : BlockAddr) (s : RequestLayer) (req : SsdReq) : Prop :=
  Allowed g.userPagesPerBlock (s.history g b) (blockReq g b req) ∧
    (blockReq g b req ≠ none → req.rowAddrDependencyCheck = true) ∧
    (blockReq g b req = some .erase →
      req.programmedPageCnt = g.userPagesPerBlock ∧ req.bufEntry = none)

instance (g : Geometry) (b : BlockAddr) (s : RequestLayer) (req : SsdReq) :
    Decidable (SubmitsInTurn g b s req) := by
  unfold SubmitsInTurn
  infer_instance

/-- What an operation submits to the block is in turn. -/
def OpInTurn (g : Geometry) (b : BlockAddr) (fw : Firmware) : RequestOp → Prop
  | .submit _ req _ => SubmitsInTurn g b fw.layer req
  | _ => True

instance (g : Geometry) (b : BlockAddr) (fw : Firmware) (op : RequestOp) :
    Decidable (OpInTurn g b fw op) := by
  unfold OpInTurn
  split <;> infer_instance

variable {g : Geometry} {b : BlockAddr} {s s' : RequestLayer} {held flight : Finset Nat} {x y i : Nat}
  {req : SsdReq} {r : BlockReq}

theorem blockReq_cases (h : blockReq g b req = some r) :
    blockAddr g req.virtualSliceAddr = b ∧
      ((req.reqCode = .write ∧ r = .write (vsa2VpageTranslation g req.virtualSliceAddr)) ∨
      (req.reqCode = .read ∧ r = .read (vsa2VpageTranslation g req.virtualSliceAddr)) ∨
      (req.reqCode = .erase ∧ r = .erase)) := by
  unfold blockReq at h
  split at h
  · rename_i here
    refine ⟨here.2.2, ?_⟩
    split at h <;> simp_all
  · cases h

/-- A checked request that asks nothing of the block goes to another one. -/
theorem blockAddr_ne (none : blockReq g b req = none) (type : req.reqType = .nand)
    (check : Checkable req) : blockAddr g req.virtualSliceAddr ≠ b := by
  intro here
  obtain ⟨-, addr, code | code | code⟩ := check <;> simp [blockReq, type, addr, here, code] at none

/-- What the operation submits goes to the block, if to any. -/
def SubmitsTo (g : Geometry) (b : BlockAddr) : RequestOp → Prop
  | .submit _ req _ => blockAddr g req.virtualSliceAddr = b
  | _ => True

instance (g : Geometry) (b : BlockAddr) (op : RequestOp) : Decidable (SubmitsTo g b op) := by
  unfold SubmitsTo
  split <;> infer_instance

/-- What is in turn for the only block that is submitted to is in turn for all. -/
theorem SubmitsTo.inTurn {fw : Firmware} {op : RequestOp} (only : SubmitsTo g b op)
    (turn : OpInTurn g b fw op) (b' : BlockAddr) : OpInTurn g b' fw op := by
  by_cases same : b' = b
  · exact same ▸ turn
  · cases op with
    | submit x req es =>
      have none : blockReq g b' req = none := by
        have block : blockAddr g req.virtualSliceAddr = b := only
        simp [blockReq, block, Ne.symm same]
      exact ⟨by simp [none, Allowed], by simp [none], by simp [none]⟩
    | _ => trivial

namespace RequestLayer

/-- The slot holds a request that has not started. -/
def Waiting (s : RequestLayer) (flight : Finset Nat) (x : Nat) : Prop :=
  s.reqQueueType x = .blockedByBufDep ∨ s.reqQueueType x = .blockedByRowAddrDep ∨ x ∈ flight

open Classical in
/-- The READs of the block that were checked or held back, and have not started. -/
noncomputable def readsWaiting (g : Geometry) (b : BlockAddr) (s : RequestLayer)
    (flight : Finset Nat) : Finset Nat :=
  (Finset.range s.submissions.length).filter fun i =>
    (∃ p, (s.history g b)[i]? = some (some (.read p))) ∧ i ∉ s.started ∧
      i ∉ flight.image s.submission

/-- A step that concerns one slot. -/
structure Concerns (s s' : RequestLayer) (x : Nat) : Prop where
  reqs : ∀ y, y ≠ x → s'.reqPool y = s.reqPool y
  types : ∀ y, y ≠ x → s'.reqQueueType y = s.reqQueueType y
  submissions : s'.submissions = s.submissions
  submission : s'.submission = s.submission

/-- The history stays as it is. -/
theorem Concerns.history (step : Concerns s s' x) (g : Geometry) (b : BlockAddr) :
    s'.history g b = s.history g b := by
  simp [RequestLayer.history, step.submissions]

theorem prepare_history : (s.prepare x req).history g b = s.history g b ++ [blockReq g b req] := by
  simp [history, prepare]

/-- The request is in one of the blocked queues, in that of its die if it can be checked there. -/
def BlockedAgain (g : Geometry) (b : BlockAddr) (s s' : RequestLayer) (x : Nat) : Prop :=
  (s'.reqQueueType x = .blockedByRowAddrDep ∧ (s.reqPool x).reqType = .nand ∧ Checkable (s.reqPool x)) ∨
  (s'.reqQueueType x = .blockedByBufDep ∧ blockReq g b (s.reqPool x) ≠ some .erase)

end RequestLayer

/-- The requests of the block that wait are known by their place in the history, and the
READs among them are counted. -/
structure WaitingOk (g : Geometry) (b : BlockAddr) (s : RequestLayer) (flight : Finset Nat) : Prop where
  inPool : ∀ x, s.Waiting flight x → x < availableOutstandingReqCount g
  stamp : ∀ x, s.Waiting flight x → s.submissions[s.submission x]? = some (s.reqPool x)
  apart : ∀ x y, s.Waiting flight x → s.Waiting flight y → s.submission x = s.submission y → x = y
  startedIn : ∀ i ∈ s.started, i < s.submissions.length
  notStarted : ∀ x, s.Waiting flight x → s.submission x ∉ s.started
  covered : ∀ (i : Nat) (r : BlockReq), (s.history g b)[i]? = some (some r) → i ∉ s.started →
    ∃ x, s.Waiting flight x ∧ s.submission x = i
  eraseBlocked : ∀ x, s.reqQueueType x = .blockedByBufDep → blockReq g b (s.reqPool x) ≠ some .erase
  rowNand : ∀ x, s.reqQueueType x = .blockedByRowAddrDep → (s.reqPool x).reqType = .nand
  newest : ∀ x ∈ flight, ∀ y, s.Waiting flight y → s.submission y ≤ s.submission x
  checked : ∀ x, s.Waiting flight x → blockReq g b (s.reqPool x) ≠ none →
    (s.reqPool x).rowAddrDependencyCheck = true
  whole : ∀ x, s.Waiting flight x → blockReq g b (s.reqPool x) = some .erase →
    (s.reqPool x).programmedPageCnt = g.userPagesPerBlock ∧ (s.reqPool x).bufEntry = none
  counted : (s.rowAddrDependency b).blockedReadReqCnt = (s.readsWaiting g b flight).card

namespace WaitingOk

theorem mem_readsWaiting : i ∈ s.readsWaiting g b flight ↔
    (∃ p, (s.history g b)[i]? = some (some (.read p))) ∧ i ∉ s.started ∧
      i ∉ flight.image s.submission := by
  have range : (∃ p, (s.history g b)[i]? = some (some (.read p))) → i < s.submissions.length := by
    rintro ⟨p, here⟩
    simpa [history] using (List.getElem?_eq_some_iff.mp here).1
  simp only [readsWaiting, Finset.mem_filter, Finset.mem_range]
  exact ⟨fun member => member.2, fun member => ⟨range member.1, member⟩⟩

/-- The request of a waiting slot, in the history. -/
theorem here (ok : WaitingOk g b s flight) (waits : s.Waiting flight x) :
    (s.history g b)[s.submission x]? = some (blockReq g b (s.reqPool x)) := by
  simp [history, ok.stamp x waits]

/-- The READ counter does not overflow: there are no more requests than slots. -/
theorem reads_le (ok : WaitingOk g b s flight) :
    (s.readsWaiting g b flight).card ≤ availableOutstandingReqCount g := by
  have sub : s.readsWaiting g b flight ⊆
      (Finset.range (availableOutstandingReqCount g)).image s.submission := by
    intro i member
    obtain ⟨⟨p, read⟩, out, -⟩ := mem_readsWaiting.mp member
    obtain ⟨x, waits, rfl⟩ := ok.covered i _ read out
    exact Finset.mem_image_of_mem _ (Finset.mem_range.mpr (ok.inPool x waits))
  calc (s.readsWaiting g b flight).card
      ≤ ((Finset.range (availableOutstandingReqCount g)).image s.submission).card :=
        Finset.card_le_card sub
    _ ≤ (Finset.range (availableOutstandingReqCount g)).card := Finset.card_image_le
    _ = availableOutstandingReqCount g := Finset.card_range _

theorem reads_fit (ok : WaitingOk g b s flight) : (s.readsWaiting g b flight).card < 65535 := by
  have few := ok.reads_le
  have slots := slots_lt g
  omega

/-- A slot in progress shares its place with no other one. -/
theorem mem_stamps (ok : WaitingOk g b s flight) (waits : s.Waiting flight x) :
    s.submission x ∈ flight.image s.submission ↔ x ∈ flight := by
  constructor
  · intro member
    obtain ⟨y, listed, same⟩ := Finset.mem_image.mp member
    exact ok.apart y x (.inr (.inr listed)) waits same ▸ listed
  · exact Finset.mem_image_of_mem _

theorem mem_stamps_erase (diff : i ≠ s.submission x) :
    i ∈ (flight.erase x).image s.submission ↔ i ∈ flight.image s.submission := by
  simp only [Finset.mem_image, Finset.mem_erase]
  constructor
  · rintro ⟨y, ⟨-, listed⟩, same⟩
    exact ⟨y, listed, same⟩
  · rintro ⟨y, listed, same⟩
    refine ⟨y, ⟨?_, listed⟩, same⟩
    rintro rfl
    exact diff same.symm

/-- A waiting READ is counted unless its submission is in progress. -/
theorem mem_readsWaiting_self (ok : WaitingOk g b s flight) (waits : s.Waiting flight x) :
    s.submission x ∈ s.readsWaiting g b flight ↔
      (∃ p, blockReq g b (s.reqPool x) = some (.read p)) ∧ x ∉ flight := by
  rw [mem_readsWaiting, ok.here waits, ok.mem_stamps waits]
  simp [ok.notStarted x waits]

/-- While the READ counter is zero, a READ that waits is the one being submitted. -/
theorem read_inFlight {p : Nat} (ok : WaitingOk g b s flight)
    (zero : (s.rowAddrDependency b).blockedReadReqCnt = 0)
    (read : (s.history g b)[i]? = some (some (.read p))) (waits : i ∉ s.started) :
    ∃ y ∈ flight, s.submission y = i := by
  have empty : s.readsWaiting g b flight = ∅ := by
    rw [← Finset.card_eq_zero, ← ok.counted, zero]
  rw [← Finset.mem_image]
  by_contra notFlight
  have listed := mem_readsWaiting.mpr ⟨⟨p, read⟩, waits, notFlight⟩
  rw [empty] at listed
  simp at listed

/-- A slot that waits on is a waiting READ from now on, if its submission was in progress. -/
private theorem readsWaiting_stay (ok : WaitingOk g b s flight) (step : Concerns s s' x) (waits : s.Waiting flight x)
    (started : s'.started = s.started) :
    i ∈ s'.readsWaiting g b (flight.erase x) ↔ i ∈ s.readsWaiting g b flight ∨
      i = s.submission x ∧ x ∈ flight ∧ ∃ p, blockReq g b (s.reqPool x) = some (.read p) := by
  have history := step.history g b
  by_cases same : i = s.submission x
  · subst same
    have out : s.submission x ∉ (flight.erase x).image s.submission := by
      intro member
      obtain ⟨y, listed, same⟩ := Finset.mem_image.mp member
      have eq := ok.apart y x (.inr (.inr (Finset.mem_of_mem_erase listed))) waits same
      exact (Finset.mem_erase.mp listed).1 eq
    have mine : s.submission x ∈ s'.readsWaiting g b (flight.erase x) ↔
        ∃ p, blockReq g b (s.reqPool x) = some (.read p) := by
      rw [mem_readsWaiting, history, started, step.submission, ok.here waits]
      simp [out, ok.notStarted x waits]
    rw [mine, ok.mem_readsWaiting_self waits]
    by_cases member : x ∈ flight <;> simp [member]
  · rw [mem_readsWaiting, mem_readsWaiting, history, started, step.submission, mem_stamps_erase same]
    simp [same]

/-- A slot that stops waiting is a waiting READ no more. -/
private theorem readsWaiting_leave (ok : WaitingOk g b s flight) (step : Concerns s s' x) (waits : s.Waiting flight x)
    (started : s'.started = s.started ++ [s.submission x] ∨
      blockReq g b (s.reqPool x) = none ∧ s'.started = s.started) :
    s'.readsWaiting g b (flight.erase x) = (s.readsWaiting g b flight).erase (s.submission x) := by
  ext i
  rw [mem_readsWaiting, Finset.mem_erase, mem_readsWaiting, step.history g b, step.submission]
  by_cases same : i = s.submission x
  · subst same
    rw [ok.here waits]
    rcases started with now | ⟨none, -⟩
    · simp [now]
    · simp [none]
  · rw [mem_stamps_erase same]
    rcases started with now | ⟨-, now⟩ <;> simp [now, same]

/-- The slot waits on, in one of the blocked queues. -/
theorem stay (ok : WaitingOk g b s flight) (step : Concerns s s' x) (req : s'.reqPool x = s.reqPool x)
    (waits : s.Waiting flight x) (started : s'.started = s.started)
    (type : (s'.reqQueueType x = .blockedByRowAddrDep ∧ (s.reqPool x).reqType = .nand) ∨
      (s'.reqQueueType x = .blockedByBufDep ∧ blockReq g b (s.reqPool x) ≠ some .erase))
    (counts : (x ∈ flight ∧ ∃ p, blockReq g b (s.reqPool x) = some (.read p)) →
      (s'.rowAddrDependency b).blockedReadReqCnt = inc16 (s.rowAddrDependency b).blockedReadReqCnt)
    (keeps : ¬ (x ∈ flight ∧ ∃ p, blockReq g b (s.reqPool x) = some (.read p)) →
      (s'.rowAddrDependency b).blockedReadReqCnt = (s.rowAddrDependency b).blockedReadReqCnt) :
    WaitingOk g b s' (flight.erase x) := by
  have reqs : ∀ y, s'.reqPool y = s.reqPool y := by
    intro y
    by_cases same : y = x
    · exact same ▸ req
    · exact step.reqs y same
  have history := step.history g b
  have waiting : ∀ y, s'.Waiting (flight.erase x) y ↔ s.Waiting flight y := by
    intro y
    by_cases same : y = x
    · subst same
      refine iff_of_true ?_ waits
      exact type.elim (fun h => .inr (.inl h.1)) (fun h => .inl h.1)
    · simp [Waiting, step.types y same, same]
  constructor
  · exact fun y w => ok.inPool y ((waiting y).mp w)
  · intro y w
    rw [step.submissions, step.submission, reqs]
    exact ok.stamp y ((waiting y).mp w)
  · intro y z w w' same
    rw [step.submission] at same
    exact ok.apart y z ((waiting y).mp w) ((waiting z).mp w') same
  · rw [started, step.submissions]
    exact ok.startedIn
  · intro y w
    rw [step.submission, started]
    exact ok.notStarted y ((waiting y).mp w)
  · intro i r here out
    rw [history] at here
    rw [started] at out
    obtain ⟨y, w, same⟩ := ok.covered i r here out
    exact ⟨y, (waiting y).mpr w, by rw [step.submission]; exact same⟩
  · intro y held
    rw [reqs]
    by_cases same : y = x
    · subst same
      rcases type with ⟨row, -⟩ | ⟨-, notErase⟩
      · rw [row] at held
        cases held
      · exact notErase
    · exact ok.eraseBlocked y (step.types y same ▸ held)
  · intro y row
    rw [reqs]
    by_cases same : y = x
    · subst same
      rcases type with ⟨-, nand⟩ | ⟨held, -⟩
      · exact nand
      · rw [held] at row
        cases row
    · exact ok.rowNand y (step.types y same ▸ row)
  · intro y member z w
    rw [step.submission]
    exact ok.newest y (Finset.mem_of_mem_erase member) z ((waiting z).mp w)
  · exact fun y w => by simpa [reqs] using ok.checked y ((waiting y).mp w)
  · exact fun y w => by simpa [reqs] using ok.whole y ((waiting y).mp w)
  · by_cases read : x ∈ flight ∧ ∃ p, blockReq g b (s.reqPool x) = some (.read p)
    · have new : s'.readsWaiting g b (flight.erase x) =
          insert (s.submission x) (s.readsWaiting g b flight) := by
        ext i
        rw [ok.readsWaiting_stay step waits started, Finset.mem_insert, or_comm]
        simp [read]
      have out : s.submission x ∉ s.readsWaiting g b flight :=
        fun member => ((ok.mem_readsWaiting_self waits).mp member).2 read.1
      rw [counts read, new, Finset.card_insert_of_notMem out, ok.counted, inc16_of_lt ok.reads_fit]
    · have new : s'.readsWaiting g b (flight.erase x) = s.readsWaiting g b flight := by
        ext i
        rw [ok.readsWaiting_stay step waits started]
        simp [read]
      rw [keeps read, new, ok.counted]

/-- The slot stops waiting: its request starts, or asks nothing of the block. -/
theorem leave (ok : WaitingOk g b s flight) (step : Concerns s s' x) (waits : s.Waiting flight x)
    (gone : s'.reqQueueType x ≠ .blockedByBufDep ∧ s'.reqQueueType x ≠ .blockedByRowAddrDep)
    (started : s'.started = s.started ++ [s.submission x] ∨
      blockReq g b (s.reqPool x) = none ∧ s'.started = s.started)
    (counts : (x ∉ flight ∧ ∃ p, blockReq g b (s.reqPool x) = some (.read p)) →
      (s'.rowAddrDependency b).blockedReadReqCnt = dec16 (s.rowAddrDependency b).blockedReadReqCnt)
    (keeps : ¬ (x ∉ flight ∧ ∃ p, blockReq g b (s.reqPool x) = some (.read p)) →
      (s'.rowAddrDependency b).blockedReadReqCnt = (s.rowAddrDependency b).blockedReadReqCnt) :
    WaitingOk g b s' (flight.erase x) := by
  have history := step.history g b
  have waiting : ∀ y, s'.Waiting (flight.erase x) y ↔ s.Waiting flight y ∧ y ≠ x := by
    intro y
    by_cases same : y = x
    · simp [Waiting, same, gone]
    · simp [Waiting, step.types y same, same]
  have starts : ∀ i, i ∉ s'.started → i ∉ s.started := by
    intro i out old
    rcases started with now | ⟨-, now⟩ <;> rw [now] at out <;> simp [old] at out
  constructor
  · exact fun y w => ok.inPool y ((waiting y).mp w).1
  · intro y w
    obtain ⟨old, diff⟩ := (waiting y).mp w
    rw [step.submissions, step.submission, step.reqs y diff]
    exact ok.stamp y old
  · intro y z w w' same
    rw [step.submission] at same
    exact ok.apart y z ((waiting y).mp w).1 ((waiting z).mp w').1 same
  · intro i listed
    rw [step.submissions]
    rcases started with now | ⟨-, now⟩ <;> rw [now] at listed
    · rcases List.mem_append.mp listed with old | new
      · exact ok.startedIn i old
      · rw [List.mem_singleton.mp new]
        exact (List.getElem?_eq_some_iff.mp (ok.stamp x waits)).1
    · exact ok.startedIn i listed
  · intro y w
    obtain ⟨old, diff⟩ := (waiting y).mp w
    have out := ok.notStarted y old
    rw [step.submission]
    rcases started with now | ⟨-, now⟩
    · rw [now, List.mem_append, List.mem_singleton]
      rintro (before | same)
      · exact out before
      · exact diff (ok.apart y x old waits same)
    · rwa [now]
  · intro i r here out
    rw [history] at here
    obtain ⟨y, w, same⟩ := ok.covered i r here (starts i out)
    refine ⟨y, (waiting y).mpr ⟨w, ?_⟩, by rw [step.submission]; exact same⟩
    rintro rfl
    rw [← same, ok.here w] at here
    rcases started with now | ⟨none, -⟩
    · simp [now, ← same] at out
    · rw [none] at here
      cases here
  · intro y held
    have diff : y ≠ x := fun same => gone.1 (same ▸ held)
    rw [step.reqs y diff]
    exact ok.eraseBlocked y (step.types y diff ▸ held)
  · intro y row
    have diff : y ≠ x := fun same => gone.2 (same ▸ row)
    rw [step.reqs y diff]
    exact ok.rowNand y (step.types y diff ▸ row)
  · intro y member z w
    rw [step.submission]
    exact ok.newest y (Finset.mem_of_mem_erase member) z ((waiting z).mp w).1
  · intro y w
    obtain ⟨old, diff⟩ := (waiting y).mp w
    simpa [step.reqs y diff] using ok.checked y old
  · intro y w
    obtain ⟨old, diff⟩ := (waiting y).mp w
    simpa [step.reqs y diff] using ok.whole y old
  · have new := ok.readsWaiting_leave step waits started
    have old := ok.mem_readsWaiting_self waits
    by_cases read : x ∉ flight ∧ ∃ p, blockReq g b (s.reqPool x) = some (.read p)
    · have member := old.mpr ⟨read.2, read.1⟩
      have some : 0 < (s.readsWaiting g b flight).card := Finset.card_pos.mpr ⟨_, member⟩
      have fits := ok.reads_fit
      rw [counts read, new, ok.counted, Finset.card_erase_of_mem member, dec16_of_pos some (by omega)]
    · have out : s.submission x ∉ s.readsWaiting g b flight :=
        fun member => read ⟨(old.mp member).2, (old.mp member).1⟩
      rw [keeps read, new, ok.counted, Finset.erase_eq_of_notMem out]

/-- What leaves the waiting requests and the entry of the block alone. -/
theorem frame (ok : WaitingOk g b s flight)
    (types : ∀ y, s'.reqQueueType y = .blockedByBufDep ∨ s'.reqQueueType y = .blockedByRowAddrDep ∨
      s.reqQueueType y = .blockedByBufDep ∨ s.reqQueueType y = .blockedByRowAddrDep →
      s'.reqQueueType y = s.reqQueueType y)
    (reqs : ∀ y, s.Waiting flight y → s'.reqPool y = s.reqPool y)
    (submissions : s'.submissions = s.submissions) (submission : s'.submission = s.submission)
    (started : s'.started = s.started)
    (entry : s'.rowAddrDependency b = s.rowAddrDependency b) : WaitingOk g b s' flight := by
  have history : s'.history g b = s.history g b := by
    simp [RequestLayer.history, submissions]
  have waiting : ∀ y, s'.Waiting flight y ↔ s.Waiting flight y := by
    intro y
    constructor
    · rintro (held | row | inFlight)
      · exact .inl ((types y (.inl held)).symm.trans held)
      · exact .inr (.inl ((types y (.inr (.inl row))).symm.trans row))
      · exact .inr (.inr inFlight)
    · rintro (held | row | inFlight)
      · exact .inl ((types y (.inr (.inr (.inl held)))).trans held)
      · exact .inr (.inl ((types y (.inr (.inr (.inr row)))).trans row))
      · exact .inr (.inr inFlight)
  have reads : s'.readsWaiting g b flight = s.readsWaiting g b flight := by
    ext i
    rw [mem_readsWaiting, mem_readsWaiting, history, started, submission]
  constructor
  · exact fun y w => ok.inPool y ((waiting y).mp w)
  · intro y w
    rw [submissions, submission, reqs y ((waiting y).mp w)]
    exact ok.stamp y ((waiting y).mp w)
  · intro y z w w' same
    rw [submission] at same
    exact ok.apart y z ((waiting y).mp w) ((waiting z).mp w') same
  · rw [started, submissions]
    exact ok.startedIn
  · intro y w
    rw [submission, started]
    exact ok.notStarted y ((waiting y).mp w)
  · intro i r here out
    rw [history] at here
    rw [started] at out
    obtain ⟨y, w, same⟩ := ok.covered i r here out
    exact ⟨y, (waiting y).mpr w, by rw [submission]; exact same⟩
  · intro y held
    have before := (types y (.inl held)).symm.trans held
    rw [reqs y (.inl before)]
    exact ok.eraseBlocked y before
  · intro y row
    have before := (types y (.inr (.inl row))).symm.trans row
    rw [reqs y (.inr (.inl before))]
    exact ok.rowNand y before
  · intro y member z w
    rw [submission]
    exact ok.newest y member z ((waiting z).mp w)
  · intro y w
    rw [reqs y ((waiting y).mp w)]
    exact ok.checked y ((waiting y).mp w)
  · intro y w
    rw [reqs y ((waiting y).mp w)]
    exact ok.whole y ((waiting y).mp w)
  · rw [entry, reads, ok.counted]

theorem init : WaitingOk g b (initRequestLayer g) ∅ := by
  have none : ∀ x, ¬ (initRequestLayer g).Waiting ∅ x := by
    intro x waits
    simp only [Waiting, reqQueueType, initRequestLayer, RequestQueues.initReqPool] at waits
    split at waits <;> simp at waits
  constructor
  · exact fun x w => absurd w (none x)
  · exact fun x w => absurd w (none x)
  · exact fun x y w => absurd w (none x)
  · simp [initRequestLayer]
  · exact fun x w => absurd w (none x)
  · intro i r here
    simp [RequestLayer.history, initRequestLayer] at here
  · exact fun x held => absurd (.inl held) (none x)
  · exact fun x row => absurd (.inr (.inl row)) (none x)
  · simp
  · exact fun x w => absurd w (none x)
  · exact fun x w => absurd w (none x)
  · have empty : (initRequestLayer g).readsWaiting g b ∅ = ∅ := by
      ext i
      rw [mem_readsWaiting]
      simp [RequestLayer.history, initRequestLayer]
    rw [empty]
    rfl

/-- The slot in which a request is prepared waits besides those before. -/
theorem waiting_prepare :
    (s.prepare x req).Waiting {x} y ↔ y = x ∨ s.Waiting ∅ y ∧ y ≠ x := by
  have types : (s.prepare x req).reqQueueType y = s.reqQueueType y := rfl
  simp only [Waiting, Finset.mem_singleton, Finset.notMem_empty, or_false, types]
  by_cases same : y = x
  · simp [same]
  · simp [same]

theorem prepare_submission : (s.prepare x req).submission x = s.submissions.length := by simp [RequestLayer.prepare]

theorem prepare_others (other : y ≠ x) : (s.prepare x req).submission y = s.submission y ∧
    (s.prepare x req).reqPool y = s.reqPool y := by
  simp [RequestLayer.prepare, other]

/-- The request that is prepared is in progress, so it is not counted yet. -/
theorem readsWaiting_prepare : (s.prepare x req).readsWaiting g b {x} = s.readsWaiting g b ∅ := by
  have length : (s.history g b).length = s.submissions.length := by simp [RequestLayer.history]
  ext i
  rw [mem_readsWaiting, mem_readsWaiting, prepare_history, Finset.image_singleton, prepare_submission,
    Finset.image_empty]
  rcases Nat.lt_or_ge i s.submissions.length with inRange | out
  · rw [List.getElem?_append_left (by omega), Finset.mem_singleton]
    simp [RequestLayer.prepare, inRange.ne]
  · have none : (s.history g b)[i]? = none := List.getElem?_eq_none_iff.mpr (by omega)
    rw [none]
    constructor
    · rintro ⟨⟨p, here⟩, -, other⟩
      have inRange := (List.getElem?_eq_some_iff.mp here).1
      rw [List.length_append, List.length_singleton, length] at inRange
      exact absurd (Finset.mem_singleton.mpr (by omega)) other
    · rintro ⟨⟨p, here⟩, -⟩
      cases here

/-- What waited before was submitted before. -/
theorem submission_lt (ok : WaitingOk g b s flight) (waits : s.Waiting flight x) :
    s.submission x < s.submissions.length :=
  (List.getElem?_eq_some_iff.mp (ok.stamp x waits)).1

/-- What has not started after the preparation is the request prepared or waited before. -/
theorem prepare_covered (ok : WaitingOk g b s ∅) (idle : s.reqQueueType x = .none) :
    ∀ (i : Nat) (r : BlockReq), ((s.prepare x req).history g b)[i]? = some (some r) → i ∉ s.started →
      ∃ y, (s.prepare x req).Waiting {x} y ∧ (s.prepare x req).submission y = i := by
  intro i r here out
  rw [prepare_history] at here
  by_cases last : i = s.submissions.length
  · exact ⟨x, waiting_prepare.mpr (.inl rfl), prepare_submission.trans last.symm⟩
  · have inRange := (List.getElem?_eq_some_iff.mp here).1
    simp only [RequestLayer.history, List.length_append, List.length_map, List.length_singleton] at inRange
    rw [List.getElem?_append_left (by simp [RequestLayer.history]; omega)] at here
    obtain ⟨y, w, same⟩ := ok.covered i r here out
    have other : y ≠ x := by
      rintro rfl
      simp [Waiting, idle] at w
    exact ⟨y, waiting_prepare.mpr (.inr ⟨w, other⟩), (prepare_others other).1.trans same⟩

/-- A submission in turn is prepared in a slot in no queue. -/
theorem prepare (ok : WaitingOk g b s ∅) (idle : s.reqQueueType x = .none)
    (slot : x < availableOutstandingReqCount g) (turn : SubmitsInTurn g b s req) :
    WaitingOk g b (s.prepare x req) {x} := by
  have waiting : ∀ y, (s.prepare x req).Waiting {x} y → y = x ∨ s.Waiting ∅ y ∧ y ≠ x := fun y =>
    waiting_prepare.mp
  have diff : ∀ y, s.Waiting ∅ y → y ≠ x := by
    rintro y w rfl
    simp [Waiting, idle] at w
  constructor
  · intro y w
    rcases waiting y w with rfl | ⟨w, -⟩
    · exact slot
    · exact ok.inPool y w
  · intro y w
    rcases waiting y w with rfl | ⟨w, other⟩
    · simp [RequestLayer.prepare]
    · rw [(prepare_others other).1, (prepare_others other).2]
      change (s.submissions ++ [req])[s.submission y]? = _
      rw [List.getElem?_append_left (ok.submission_lt w)]
      exact ok.stamp y w
  · intro y z w w' same
    rcases waiting y w with first | ⟨first, other⟩ <;> rcases waiting z w' with second | ⟨second, other'⟩
    · exact first.trans second.symm
    · rw [first, prepare_submission, (prepare_others other').1] at same
      have before := ok.submission_lt second
      omega
    · rw [second, prepare_submission, (prepare_others other).1] at same
      have before := ok.submission_lt first
      omega
    · rw [(prepare_others other).1, (prepare_others other').1] at same
      exact ok.apart y z first second same
  · intro i listed
    change i < (s.submissions ++ [req]).length
    have inRange := ok.startedIn i listed
    rw [List.length_append, List.length_singleton]
    omega
  · intro y w
    rcases waiting y w with rfl | ⟨w, other⟩
    · rw [prepare_submission]
      intro listed
      have inRange := ok.startedIn _ listed
      omega
    · rw [(prepare_others other).1]
      exact ok.notStarted y w
  · exact ok.prepare_covered idle
  · intro y held
    rw [(prepare_others (diff y (.inl held))).2]
    exact ok.eraseBlocked y held
  · intro y row
    rw [(prepare_others (diff y (.inr (.inl row)))).2]
    exact ok.rowNand y row
  · intro y member z w
    rw [Finset.mem_singleton.mp member, prepare_submission]
    rcases waiting z w with rfl | ⟨w, other⟩
    · exact prepare_submission.le
    · rw [(prepare_others other).1]
      exact (ok.submission_lt w).le
  · intro y w
    rcases waiting y w with rfl | ⟨w, other⟩
    · simpa [RequestLayer.prepare] using turn.2.1
    · rw [(prepare_others other).2]
      exact ok.checked y w
  · intro y w
    rcases waiting y w with rfl | ⟨w, other⟩
    · simpa [RequestLayer.prepare] using turn.2.2
    · rw [(prepare_others other).2]
      exact ok.whole y w
  · rw [readsWaiting_prepare]
    exact ok.counted

/-- A request of the block passes its check and starts. -/
theorem pass {select : Bool} (ok : WaitingOk g b s flight) (step : Concerns s s' x)
    (waits : s.Waiting flight x) (selects : select = true ↔ x ∈ flight)
    (kind : blockReq g b (s.reqPool x) = some r)
    (gone : s'.reqQueueType x ≠ .blockedByBufDep ∧ s'.reqQueueType x ≠ .blockedByRowAddrDep)
    (started : s'.started = s.started ++ [s.submission x])
    (entry : s'.rowAddrDependency b = (s.rowAddrDependency b).passed (s.reqPool x) select) :
    WaitingOk g b s' (flight.erase x) := by
  obtain ⟨-, code⟩ := blockReq_cases kind
  apply ok.leave step waits gone (.inl started)
  · rintro ⟨notFlight, p, read⟩
    have release : select = false := by
      rw [← Bool.not_eq_true]
      exact fun yes => notFlight (selects.mp yes)
    rw [kind, Option.some.injEq] at read
    rcases code with ⟨-, rfl⟩ | ⟨code, rfl⟩ | ⟨-, rfl⟩
    · cases read
    · simp [entry, RowAddrDependency.passed, code, release]
    · cases read
  · intro other
    rcases code with ⟨code, rfl⟩ | ⟨code, rfl⟩ | ⟨code, rfl⟩
    · simp [entry, RowAddrDependency.passed, code]
    · have yes : select = true := by
        apply selects.mpr
        by_contra notFlight
        exact other ⟨notFlight, _, kind⟩
      simp [entry, RowAddrDependency.passed, code, yes]
    · simp [entry, RowAddrDependency.passed, code]

/-- A request that asks nothing of the block starts. -/
theorem pass_other (ok : WaitingOk g b s flight) (step : Concerns s s' x) (waits : s.Waiting flight x)
    (kind : blockReq g b (s.reqPool x) = none)
    (gone : s'.reqQueueType x ≠ .blockedByBufDep ∧ s'.reqQueueType x ≠ .blockedByRowAddrDep)
    (started : s'.started = s.started ++ [s.submission x] ∨ s'.started = s.started)
    (entry : s'.rowAddrDependency b = s.rowAddrDependency b) : WaitingOk g b s' (flight.erase x) := by
  apply ok.leave step waits gone (started.imp_right fun same => ⟨kind, same⟩)
  · rintro ⟨-, p, read⟩
    rw [kind] at read
    cases read
  · exact fun _ => by rw [entry]

/-- A refused request of the block waits on; it is counted when it is refused for the first time. -/
theorem refuse {select : Bool} (ok : WaitingOk g b s flight) (step : Concerns s s' x)
    (req : s'.reqPool x = s.reqPool x) (waits : s.Waiting flight x)
    (selects : select = true ↔ x ∈ flight) (kind : blockReq g b (s.reqPool x) = some r)
    (started : s'.started = s.started) (blocked : BlockedAgain g b s s' x)
    (entry : s'.rowAddrDependency b =
      if select then (s.rowAddrDependency b).refused (s.reqPool x) else s.rowAddrDependency b) :
    WaitingOk g b s' (flight.erase x) := by
  obtain ⟨-, code⟩ := blockReq_cases kind
  apply ok.stay step req waits started (blocked.imp_left fun row => ⟨row.1, row.2.1⟩)
  · rintro ⟨inFlight, p, read⟩
    rw [kind, Option.some.injEq] at read
    rw [entry, if_pos (selects.mpr inFlight)]
    rcases code with ⟨-, rfl⟩ | ⟨code, rfl⟩ | ⟨-, rfl⟩
    · cases read
    · simp [RowAddrDependency.refused, code]
    · cases read
  · intro other
    rw [entry]
    split
    · rename_i yes
      rcases code with ⟨code, rfl⟩ | ⟨-, rfl⟩ | ⟨code, rfl⟩
      · simp [RowAddrDependency.refused, code]
      · exact absurd ⟨selects.mp yes, _, kind⟩ other
      · simp [RowAddrDependency.refused, code]
    · rfl

/-- A request that asks nothing of the block waits on. -/
theorem refuse_other (ok : WaitingOk g b s flight) (step : Concerns s s' x)
    (req : s'.reqPool x = s.reqPool x) (waits : s.Waiting flight x)
    (kind : blockReq g b (s.reqPool x) = none) (started : s'.started = s.started)
    (blocked : BlockedAgain g b s s' x) (entry : s'.rowAddrDependency b = s.rowAddrDependency b) :
    WaitingOk g b s' (flight.erase x) := by
  apply ok.stay step req waits started (blocked.imp_left fun row => ⟨row.1, row.2.1⟩)
  · rintro ⟨-, p, read⟩
    rw [kind] at read
    cases read
  · exact fun _ => by rw [entry]

end WaitingOk

end OcpFw
