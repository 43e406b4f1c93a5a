import OcpFw.Scheduler
import OcpFw.SlotConservation

/-! What the steps of a scheduling pass do. On the request layer they are events, which
take requests out of one NAND queue at most and append to the others; on the die a
status check and an execution change the state and the check option in step. -/
namespace OcpFw

variable {g : Geometry}

namespace RequestLayer
variable {s s' t : RequestLayer} {queued : ReqQueue → List Nat} {chNo wayNo x : Nat} {es : List Event}

/-! ### The heads of the NAND queues -/

/-- The code of the first request of a die, if there is one. -/
def headReqCode (s : RequestLayer) (chNo wayNo : Nat) : Option ReqCode :=
  if s.queues.links.head (.nand chNo wayNo) = reqSlotTagNone then none
  else some (s.reqPool (s.queues.links.head (.nand chNo wayNo))).reqCode

/-- What is first in a NAND queue stays first, and keeps its code. -/
def KeepsHeads (s s' : RequestLayer) : Prop :=
  ∀ chNo wayNo, s.headReqCode chNo wayNo ≠ none →
    s'.headReqCode chNo wayNo = s.headReqCode chNo wayNo

/-- As `KeepsHeads`, for all dies but one. -/
def KeepsOtherHeads (s s' : RequestLayer) (chNo wayNo : Nat) : Prop :=
  ∀ c w, (c, w) ≠ (chNo, wayNo) → s.headReqCode c w ≠ none → s'.headReqCode c w = s.headReqCode c w

theorem KeepsHeads.refl (s : RequestLayer) : KeepsHeads s s := fun _ _ _ => rfl

theorem KeepsHeads.other (kept : KeepsHeads s s') : KeepsOtherHeads s s' chNo wayNo :=
  fun c w _ some => kept c w some

/-- The first request of a die, with its code. -/
def headPhase (s : RequestLayer) (chNo wayNo : Nat) : Option (Nat × ReqCode) :=
  if s.queues.links.head (.nand chNo wayNo) = reqSlotTagNone then none
  else some (s.queues.links.head (.nand chNo wayNo),
    (s.reqPool (s.queues.links.head (.nand chNo wayNo))).reqCode)

/-- What is first in the queue of a die stays first, with its code. -/
def KeepsPhase (s s' : RequestLayer) (chNo wayNo : Nat) : Prop :=
  s.headPhase chNo wayNo ≠ none → s'.headPhase chNo wayNo = s.headPhase chNo wayNo

/-- As `KeepsPhase`, for all dies but one. -/
def KeepsOtherPhases (s s' : RequestLayer) (chNo wayNo : Nat) : Prop :=
  ∀ c w, (c, w) ≠ (chNo, wayNo) → KeepsPhase s s' c w

theorem headReqCode_eq_map (s : RequestLayer) (chNo wayNo : Nat) :
    s.headReqCode chNo wayNo = (s.headPhase chNo wayNo).map Prod.snd := by
  unfold headReqCode headPhase
  split <;> rfl

theorem KeepsPhase.trans (first : KeepsPhase s t chNo wayNo) (second : KeepsPhase t s' chNo wayNo) :
    KeepsPhase s s' chNo wayNo := by
  intro some
  have middle := first some
  exact (second (middle ▸ some)).trans middle

theorem KeepsPhase.headReqCode (kept : KeepsPhase s s' chNo wayNo) (some : s.headReqCode chNo wayNo ≠ none) :
    s'.headReqCode chNo wayNo = s.headReqCode chNo wayNo := by
  rw [headReqCode_eq_map] at some
  rw [headReqCode_eq_map, headReqCode_eq_map, kept fun empty => some (by rw [empty]; rfl)]

theorem KeepsOtherPhases.trans (first : KeepsOtherPhases s t chNo wayNo)
    (second : KeepsOtherPhases t s' chNo wayNo) : KeepsOtherPhases s s' chNo wayNo :=
  fun c w diff => (first c w diff).trans (second c w diff)

theorem KeepsOtherPhases.heads (kept : KeepsOtherPhases s s' chNo wayNo) : KeepsOtherHeads s s' chNo wayNo :=
  fun c w diff => (kept c w diff).headReqCode

theorem headPhase_eq (ok : QueuesOk g s.queues queued) :
    s.headPhase chNo wayNo =
      (queued (.nand chNo wayNo)).head?.map fun x => (x, (s.reqPool x).reqCode) := by
  have head := ok.holds.head (.nand chNo wayNo)
  unfold headPhase
  cases shape : queued (.nand chNo wayNo) with
  | nil => simp [head, shape]
  | cons x xs =>
    have real : x ≠ reqSlotTagNone := ok.ne_none (q := .nand chNo wayNo) (by simp [shape])
    simp [head, shape, real]

theorem headReqCode_eq (ok : QueuesOk g s.queues queued) :
    s.headReqCode chNo wayNo =
      (queued (.nand chNo wayNo)).head?.map fun x => (s.reqPool x).reqCode := by
  rw [headReqCode_eq_map, headPhase_eq ok, Option.map_map]
  rfl

/-! ### Appending to the NAND queues -/

/-- The NAND queues only get longer, and what is in them keeps its code. -/
def Appends (g : Geometry) (s s' : RequestLayer) : Prop :=
  ∃ queued queued', QueuesOk g s.queues queued ∧ QueuesOk g s'.queues queued' ∧
    ∀ chNo wayNo, queued (.nand chNo wayNo) <+: queued' (.nand chNo wayNo) ∧
      ∀ x ∈ queued (.nand chNo wayNo), (s'.reqPool x).reqCode = (s.reqPool x).reqCode

theorem Appends.trans (first : Appends g s t) (second : Appends g t s') : Appends g s s' := by
  obtain ⟨queued, queued₁, ok, ok₁, grown⟩ := first
  obtain ⟨queued₁', queued', ok₁', ok', grown'⟩ := second
  cases ok₁.holds.unique ok₁'.holds
  refine ⟨queued, queued', ok, ok', fun chNo wayNo => ⟨?_, fun x listed => ?_⟩⟩
  · exact (grown chNo wayNo).1.trans (grown' chNo wayNo).1
  · have listed' := (grown chNo wayNo).1.subset listed
    exact ((grown' chNo wayNo).2 x listed').trans ((grown chNo wayNo).2 x listed)

/-- The NAND queues stay as they are. -/
theorem Appends.of_same {queued' : ReqQueue → List Nat} (ok : QueuesOk g s.queues queued)
    (ok' : QueuesOk g s'.queues queued')
    (same : ∀ chNo wayNo, queued' (.nand chNo wayNo) = queued (.nand chNo wayNo))
    (codes : ∀ y, s.reqQueueType y = .nand → (s'.reqPool y).reqCode = (s.reqPool y).reqCode) :
    Appends g s s' := by
  refine ⟨queued, queued', ok, ok', fun chNo wayNo => ⟨?_, fun y listed => ?_⟩⟩
  · rw [same]
  · exact codes y (ok.typed (.nand chNo wayNo) y listed)

theorem Appends.refl (ok : QueuesOk g s.queues queued) : Appends g s s :=
  .of_same ok ok (fun _ _ => rfl) fun _ _ => rfl

/-- A slot that is in no queue is put to one of them. -/
theorem Appends.of_putTo {q : ReqQueue} (ok : QueuesOk g s.queues queued) (exist : q.Exists g)
    (slot : x < availableOutstandingReqCount g) (idle : s.reqQueueType x = .none)
    (queues : s'.queues = s.queues.putTo q x)
    (codes : ∀ y, y ≠ x → (s'.reqPool y).reqCode = (s.reqPool y).reqCode) : Appends g s s' := by
  have ok' : QueuesOk g s'.queues _ := queues ▸ ok.putTo exist slot idle
  refine ⟨queued, _, ok, ok', fun chNo wayNo => ⟨?_, fun y listed => ?_⟩⟩
  · by_cases same : ReqQueue.nand chNo wayNo = q
    · simp [same]
    · simp [same]
  · apply codes
    rintro rfl
    exact ok.unlisted idle _ listed

/-- What is first stays first. -/
theorem Appends.keepsPhase (appends : Appends g s s') (chNo wayNo : Nat) : KeepsPhase s s' chNo wayNo := by
  obtain ⟨queued, queued', ok, ok', grown⟩ := appends
  intro some
  obtain ⟨⟨new, shape⟩, codes⟩ := grown chNo wayNo
  rw [headPhase_eq ok] at some ⊢
  rw [headPhase_eq ok', ← shape]
  cases listed : queued (.nand chNo wayNo) with
  | nil => simp [listed] at some
  | cons x xs => simp [codes x (by simp [listed])]

theorem Appends.keepsHeads (appends : Appends g s s') : KeepsHeads s s' :=
  fun chNo wayNo => (appends.keepsPhase chNo wayNo).headReqCode

/-- Placing a slot that is in no queue. -/
theorem Placed.appends {select : Bool} (placed : Placed g s x select s')
    (ok : QueuesOk g s.queues queued) (slot : x < availableOutstandingReqCount g)
    (idle : s.reqQueueType x = .none) (allowed : Submittable g (s.reqPool x)) : Appends g s s' := by
  obtain ⟨q, exist, -, queues⟩ := placed.queues allowed
  apply Appends.of_putTo ok exist slot idle queues
  intro y diff
  rw [(placed.undisturbed diff).1]

/-- A turn of the recheck loop. -/
private theorem recheckRowAddrDep_appends (ok : QueuesOk g s.queues queued)
    (listed : x ∈ queued (.blockedByRowAddrDep chNo wayNo))
    (turn : s.recheckRowAddrDep g x chNo wayNo = some s') : Appends g s s' := by
  obtain ⟨-, ⟨-, rfl⟩ | ⟨-, rfl⟩⟩ := recheckRowAddrDep_cases turn
  · have idle : (s.queues.selectiveGetFromBlockedByRowAddrDepReqQ x chNo wayNo).reqQueueType x =
        .none := by
      simp [RequestQueues.selectiveGetFromBlockedByRowAddrDepReqQ, RequestQueues.selectiveGetFrom]
    have exist : (ReqQueue.nand chNo wayNo).Exists g :=
      ok.exist (.blockedByRowAddrDep chNo wayNo) (List.ne_nil_of_mem listed)
    have ok' := ok.selectiveGetFrom listed
    have out : Appends g s (s.setQueues (s.queues.selectiveGetFromBlockedByRowAddrDepReqQ x chNo wayNo)) :=
      .of_same ok ok' (fun _ _ => by simp) fun _ _ => rfl
    exact out.trans (.of_putTo ok' exist (ok.slot _ x listed) idle rfl fun _ _ => rfl)
  · exact .refl ok

/-- Releasing blocked requests appends to the queue of their die. -/
theorem releaseBlockedByRowAddrDepReq_appends (ok : QueuesOk g s.queues queued)
    (done : s.releaseBlockedByRowAddrDepReq g chNo wayNo = some s') : Appends g s s' := by
  unfold releaseBlockedByRowAddrDepReq at done
  rw [ok.holds.head] at done
  have kept := @scan_closed g s s' queued (fun _ _ => True) (Appends g s) chNo wayNo
    fun before queues listed _ turn => before.trans (recheckRowAddrDep_appends queues listed turn)
  have all : queued (.blockedByRowAddrDep chNo wayNo) = [] ++ queued (.blockedByRowAddrDep chNo wayNo) := rfl
  exact kept (.refl ok) ok all (fun _ _ => trivial) done

/-- Releasing what waits for the buffer of a retired request. -/
theorem releaseBlockedByBufDepReq_appends {held flight : Finset Nat} (slots : SlotsOk g s held flight)
    (done : s.releaseBlockedByBufDepReq g x = some s') : Appends g s s' := by
  obtain ⟨queued, ok⟩ := slots.queued
  rcases releaseBlockedByBufDepReq_cases done with ⟨-, rfl⟩ | ⟨⟨-, blocked⟩, started⟩
  · exact .of_same ok ok (fun _ _ => rfl) fun _ _ => rfl
  · have listed := ok.mem_bufDep.mpr blocked
    have allowed := slots.submittable _ blocked
    have placed := Placed.of_startReleasedReq started allowed.1
    have ok' := ok.selectiveGetFrom listed
    have out : Appends g s ((s.cut x).setQueues
        (s.queues.selectiveGetFromBlockedByBufDepReqQ (s.blocking.nextBlockingReq x))) :=
      .of_same ok ok' (fun _ _ => by simp) fun _ _ => rfl
    have idle : ((s.cut x).setQueues (s.queues.selectiveGetFromBlockedByBufDepReqQ
        (s.blocking.nextBlockingReq x))).reqQueueType (s.blocking.nextBlockingReq x) = .none := by
      change Function.update s.queues.reqQueueType _ _ _ = _
      simp
    exact out.trans (placed.appends ok' (ok.slot _ _ listed) idle allowed)

/-- A finished NAND request leaves its queue; what it releases is appended to others. -/
theorem getFromNandReqQ_keepsPhases {held flight : Finset Nat} (slots : SlotsOk g s held flight)
    (done : s.getFromNandReqQ g chNo wayNo = some s') : KeepsOtherPhases s s' chNo wayNo := by
  obtain ⟨queues, taken, done⟩ := getFromNandReqQ_cases done
  have retired := slots.retire (.inr ⟨chNo, wayNo, taken⟩)
  obtain ⟨queued, ok⟩ := slots.queued
  have first : KeepsOtherPhases s (s.setQueues queues) chNo wayNo := by
    obtain ⟨xs, -, ok'⟩ := ok.getFromNandReqQ taken
    intro c w diff some
    have after : QueuesOk g (s.setQueues queues).queues _ := ok'
    rw [headPhase_eq ok, headPhase_eq after]
    have other : ReqQueue.nand c w ≠ .nand chNo wayNo := by
      intro same
      cases same
      exact diff rfl
    simp [other, setQueues]
  exact first.trans fun c w _ => (releaseBlockedByBufDepReq_appends retired done).keepsPhase c w

/-- A finished DMA request leaves its queue and releases what waits for its buffer. -/
theorem selectiveGetFromNvmeDmaReqQ_appends {held flight : Finset Nat} (slots : SlotsOk g s held flight)
    (dma : s.reqQueueType x = .nvmeDma) (done : s.selectiveGetFromNvmeDmaReqQ g x = some s') :
    Appends g s s' := by
  have retired := slots.retire (.inl ⟨dma, rfl⟩)
  obtain ⟨queued, ok⟩ := slots.queued
  have listed := ok.mem_nvmeDma.mpr dma
  have idle : (s.queues.selectiveGetFrom .nvmeDma x).reqQueueType x = .none := by
    simp [RequestQueues.selectiveGetFrom]
  have ok' := (ok.selectiveGetFrom listed).putTo (q := .free) trivial (ok.slot _ x listed) idle
  have out : Appends g s (s.setQueues (s.queues.selectiveGetFromNvmeDmaReqQ x)) :=
    .of_same ok ok' (fun _ _ => by simp) fun _ _ => rfl
  exact out.trans (releaseBlockedByBufDepReq_appends retired done)

/-- Filling in and attaching a slot that is held. -/
theorem prepare_appends {held : Finset Nat} (slots : SlotsOk g s held ∅) (member : x ∈ held) (req : SsdReq) :
    Appends g s (s.prepare x req) := by
  obtain ⟨queued, ok⟩ := slots.queued
  refine .of_same ok ok (fun _ _ => rfl) fun y nand => ?_
  have diff : y ≠ x := by
    rintro rfl
    have idle := (slots.taken y (slots.inPool y (.inl member))).mpr (.inl member)
    rw [idle] at nand
    cases nand
  simp [prepare, diff]

/-- A submission that does not have to wait for an ERASE. -/
theorem selectLowLevelReqQ_appends {held flight : Finset Nat} (slots : SlotsOk g s held flight)
    (member : x ∈ flight) (allowed : Submittable g (s.reqPool x))
    (done : s.selectLowLevelReqQ g [] x = some s') : Appends g s s' := by
  have slot := slots.inPool x (.inr member)
  have idle := (slots.taken x slot).mpr (.inr member)
  obtain ⟨queued, ok⟩ := slots.queued
  have held : Appends g s (s.hold g x) := by
    refine .of_putTo (q := .blockedByBufDep) ok trivial slot idle rfl fun y diff => ?_
    unfold hold
    split <;> simp [setQueues]
  rcases selectLowLevelReqQ_cases done with ⟨-, -, placed⟩ | ⟨-, -, -, rfl⟩ | ⟨-, t, ran, after⟩
  · exact placed.appends ok slot idle allowed
  · exact held
  · cases ran
    rcases after rfl id with ⟨-, placed⟩ | ⟨-, -, rfl⟩
    · exact placed.appends ok slot idle allowed
    · exact held

/-- The code of the first request of a die changes. -/
theorem setReq_headReqCode (code : ReqCode) (ok : QueuesOk g s.queues queued)
    (real : s.queues.links.head (.nand chNo wayNo) ≠ reqSlotTagNone) :
    let x := s.queues.links.head (.nand chNo wayNo)
    let s' := s.setReq x { s.reqPool x with reqCode := code }
    s'.headReqCode chNo wayNo = some code ∧ KeepsOtherPhases s s' chNo wayNo := by
  obtain ⟨xs, shape⟩ := ok.head_cons real
  constructor
  · simp [headReqCode, setReq, real]
  · intro c w diff some
    have after : QueuesOk g (s.setReq (s.queues.links.head (.nand chNo wayNo))
        { s.reqPool (s.queues.links.head (.nand chNo wayNo)) with reqCode := code }).queues queued := ok
    rw [headPhase_eq ok, headPhase_eq after]
    cases listed : queued (.nand c w) with
    | nil => rfl
    | cons y ys =>
      have other : y ≠ s.queues.links.head (.nand chNo wayNo) := by
        rintro rfl
        have same := ok.holds.disjoint (.nand c w) (.nand chNo wayNo)
          (s.queues.links.head (.nand chNo wayNo)) (by simp [listed]) (by simp [shape])
        cases same
        exact diff rfl
      simp [setReq, other]

/-! ### Steps that are events -/

/-- One layer follows from the other by events. -/
def Acts (g : Geometry) (s s' : RequestLayer) : Prop := ∃ es, s.events g es = some s'

theorem Acts.refl (s : RequestLayer) : Acts g s s := ⟨[], rfl⟩

theorem Acts.trans (first : Acts g s t) (second : Acts g t s') : Acts g s s' := by
  obtain ⟨es, first⟩ := first
  obtain ⟨es', second⟩ := second
  refine ⟨es ++ es', ?_⟩
  unfold events at first second ⊢
  simp [List.foldlM_append, first, second]

theorem Acts.of_event {e : Event} (done : s.event g e = some s') : Acts g s s' :=
  ⟨[e], by simp [events, done]⟩

/-- Events keep every slot in its place. -/
theorem Acts.slotsOk {held flight : Finset Nat} (acts : Acts g s s') (ok : SlotsOk g s held flight) :
    SlotsOk g s' held flight := by
  obtain ⟨es, ran⟩ := acts
  exact events_closed slotsOk_events ok (fun _ _ => trivial) ran

end RequestLayer

/-! ### The rest of the firmware -/

/-- The operations during which the scheduler does not run. -/
def RequestOp.Quiet : RequestOp → Prop
  | .alloc es | .submit _ _ es | .syncAll es => es = []
  | .putSlice .. | .getSlice | .event (.nvmeDmaDone _) => True
  | .event _ => False

/-- To the scheduler, what the rest of the firmware does between two passes is that
requests are appended to the NAND queues. -/
theorem requestStep_appends {fw fw' : Firmware} {op : RequestOp} (slots : SlotsOk g fw.layer fw.held ∅)
    (quiet : op.Quiet) (step : requestStep g fw op = some fw') :
    RequestLayer.Appends g fw.layer fw'.layer ∧ SlotsOk g fw'.layer fw'.held ∅ := by
  have after : SlotsOk g fw'.layer fw'.held ∅ :=
    RequestLayer.requestStep_closed slotsOk_ops slots (fun x req es _ member _ => slots.prepare member req)
      (fun _ _ => trivial) step
  refine ⟨?_, after⟩
  obtain ⟨queued, ok⟩ := slots.queued
  cases op with
  | alloc es =>
    cases quiet
    simp only [requestStep, RequestLayer.syncAvailFreeReq, Option.bind_eq_bind, Option.bind_eq_some_iff,
      Option.some.injEq] at step
    obtain ⟨t, waited, rfl⟩ := step
    split at waited
    · rename_i empty
      simp [RequestLayer.events, empty] at waited
    · rename_i some
      cases waited
      obtain ⟨xs, shape⟩ := ok.head_cons some
      exact .of_same ok (ok.getFrom shape) (fun _ _ => by simp) fun _ _ => rfl
  | putSlice x req =>
    simp only [requestStep] at step
    split at step
    · rename_i member
      cases step
      have slot := slots.inPool x (.inl member)
      have idle := (slots.taken x slot).mpr (.inl member)
      refine .of_putTo (q := .slice) ok trivial slot idle rfl fun y diff => ?_
      simp [RequestLayer.setReq, RequestLayer.setQueues, diff]
    · cases step
  | getSlice =>
    simp only [requestStep, RequestQueues.getFromSliceReqQ] at step
    by_cases empty : fw.layer.queues.links.head .slice = reqSlotTagNone
    · simp only [empty, ↓reduceIte, Option.some.injEq] at step
      exact step ▸ .refl ok
    · simp only [empty, ↓reduceIte, Option.some.injEq] at step
      obtain ⟨xs, shape⟩ := ok.head_cons empty
      exact step ▸ .of_same ok (ok.getFrom shape) (fun _ _ => by simp) fun _ _ => rfl
  | submit x req es =>
    cases quiet
    simp only [requestStep] at step
    split at step
    · rename_i allowed
      simp only [Option.bind_eq_bind, Option.bind_eq_some_iff, Option.some.injEq] at step
      obtain ⟨t, submitted, rfl⟩ := step
      have prepared := slots.prepare allowed.1 req
      refine (RequestLayer.prepare_appends slots allowed.1 req).trans
        (RequestLayer.selectLowLevelReqQ_appends prepared (by simp) ?_ submitted)
      simpa [RequestLayer.prepare] using allowed.2
    · cases step
  | syncAll es =>
    cases quiet
    simp only [requestStep, RequestLayer.syncAllLowLevelReqDone, Option.bind_eq_bind,
      Option.bind_eq_some_iff, Option.some.injEq] at step
    obtain ⟨t, drained, rfl⟩ := step
    split at drained
    · cases drained
      exact .refl ok
    · rename_i more
      simp [RequestLayer.events, more] at drained
  | event e =>
    cases e with
    | nvmeDmaDone x =>
      simp only [requestStep, RequestLayer.event, Option.bind_eq_bind, Option.bind_eq_some_iff,
        Option.some.injEq] at step
      obtain ⟨t, done, rfl⟩ := step
      split at done
      · rename_i dma
        exact RequestLayer.selectiveGetFromNvmeDmaReqQ_appends slots dma done
      · cases done
    | _ => exact absurd quiet id

namespace Scheduler
open RequestLayer (KeepsPhase KeepsOtherPhases Acts)
variable {hw : Hardware} {s s' : Scheduler} {chNo wayNo : Nat}

def headReqCode (s : Scheduler) (chNo wayNo : Nat) : Option ReqCode := s.layer.headReqCode chNo wayNo

theorem headReqCode_of_real (real : s.headReq chNo wayNo ≠ reqSlotTagNone) :
    s.headReqCode chNo wayNo = some (s.layer.reqPool (s.headReq chNo wayNo)).reqCode := if_neg real

theorem headReqCode_eq_none : s.headReqCode chNo wayNo = none ↔ s.headReq chNo wayNo = reqSlotTagNone := by
  unfold headReqCode RequestLayer.headReqCode headReq
  split <;> simp_all

/-! ### A status check -/

/-- What concerns one die only: its state, its retries, and words read. -/
structure Concerns (s s' : Scheduler) (chNo wayNo : Nat) : Prop where
  wayPriority : s'.wayPriority = s.wayPriority
  dieState : ∀ c w, (c, w) ≠ (chNo, wayNo) → s'.dieState c w = s.dieState c w

theorem Concerns.refl (s : Scheduler) : Concerns s s chNo wayNo := ⟨rfl, fun _ _ _ => rfl⟩

theorem Concerns.trans {t : Scheduler} (first : Concerns s t chNo wayNo)
    (second : Concerns t s' chNo wayNo) : Concerns s s' chNo wayNo :=
  ⟨second.wayPriority.trans first.wayPriority,
    fun c w diff => (second.dieState c w diff).trans (first.dieState c w diff)⟩

theorem concerns_setDie (s : Scheduler) (entry : DieStateEntry) :
    Concerns s (s.setDie chNo wayNo entry) chNo wayNo := by
  refine ⟨rfl, fun c w diff => ?_⟩
  by_cases sameCh : c = chNo
  · have other : w ≠ wayNo := fun same => diff (by rw [sameCh, same])
    simp [setDie, sameCh, other]
  · simp [setDie, sameCh]

@[simp] theorem setDie_dieState (s : Scheduler) (entry : DieStateEntry) :
    (s.setDie chNo wayNo entry).dieState chNo wayNo = entry := by
  simp [setDie]

/-- How a status check moves the check option along. -/
def CheckedTo (opt : ReqStatusCheckOpt) (reqStatus : ReqStatus) (opt' : ReqStatusCheckOpt) : Prop :=
  match opt with
  | .check => reqStatus = .running ∧ opt' = .report
  | .report => reqStatus ≠ .running ∨ opt' = .check ∨ opt' = .report
  | .none | .completionFlag => opt' = opt

/-- Looking at the error words changes nothing. -/
private theorem checkEccErrorInfo_frame {errorInfo : ErrorInfo}
    (checked : s.checkEccErrorInfo hw chNo wayNo = (errorInfo, s')) :
    s' = { s with reads := s.reads + 1 + 1 } := by
  simp only [checkEccErrorInfo] at checked
  split at checked
  · split at checked <;> cases checked <;> rfl
  · cases checked
    rfl

theorem checkReqStatus_spec {reqStatus : ReqStatus}
    (checked : s.checkReqStatus hw chNo wayNo = (reqStatus, s')) :
    Concerns s s' chNo wayNo ∧ s'.layer = s.layer ∧
      (s'.dieState chNo wayNo).dieState = (s.dieState chNo wayNo).dieState ∧
      CheckedTo (s.dieState chNo wayNo).reqStatusCheckOpt reqStatus
        (s'.dieState chNo wayNo).reqStatusCheckOpt := by
  have read : ∀ n, Concerns s { s with reads := n } chNo wayNo := fun _ => ⟨rfl, fun _ _ _ => rfl⟩
  have set : ∀ n opt, Concerns s (({ s with reads := n } : Scheduler).setCheckOpt chNo wayNo opt) chNo wayNo :=
    fun n opt => (read n).trans (concerns_setDie _ _)
  unfold checkReqStatus at checked
  cases opt : (s.dieState chNo wayNo).reqStatusCheckOpt with
  | none =>
    simp only [opt] at checked
    split at checked <;> cases checked <;> exact ⟨read _, rfl, rfl, opt⟩
  | check =>
    simp only [opt] at checked
    cases checked
    exact ⟨concerns_setDie _ _, rfl, by simp [setCheckOpt], rfl, by simp [setCheckOpt]⟩
  | report =>
    simp only [opt] at checked
    split at checked
    · split at checked
      · split at checked <;> cases checked
        · exact ⟨read _, rfl, rfl, .inl nofun⟩
        · exact ⟨set _ _, rfl, by simp [setCheckOpt, readWord], .inl nofun⟩
      · cases checked
        exact ⟨set _ _, rfl, by simp [setCheckOpt, readWord], .inr (.inl (by simp [setCheckOpt]))⟩
    · cases checked
      exact ⟨read _, rfl, rfl, .inr (.inr opt)⟩
  | completionFlag =>
    simp only [opt] at checked
    split at checked
    · split at checked
      · cases ecc : checkEccErrorInfo hw (s.readWord hw.completeFlag).2 chNo wayNo with
        | mk errorInfo t =>
          have same := checkEccErrorInfo_frame ecc
          subst same
          cases errorInfo <;> simp only [ecc] at checked <;> cases checked <;>
            exact ⟨read _, rfl, rfl, opt⟩
      · cases checked
        exact ⟨read _, rfl, rfl, opt⟩
    · cases checked
      exact ⟨read _, rfl, rfl, opt⟩

/-! ### An execution -/

/-- The check option a request is issued with. -/
def issueOpt : ReqCode → ReqStatusCheckOpt
  | .readTransfer => .completionFlag
  | .reset | .setFeature => .none
  | _ => .check

/-- An idle die starts its first request. -/
theorem executeNandReq_idle {reqStatus : ReqStatus} (real : s.headReq chNo wayNo ≠ reqSlotTagNone)
    (idle : (s.dieState chNo wayNo).dieState = .idle)
    (done : s.executeNandReq g chNo wayNo reqStatus = some s') :
    Concerns s s' chNo wayNo ∧ s'.layer = s.layer ∧ ∃ code, s.headReqCode chNo wayNo = some code ∧
      s'.dieState chNo wayNo = ⟨.exe, issueOpt code⟩ := by
  simp only [executeNandReq, idle, issueNandReq, Option.bind_eq_bind, Option.bind_eq_some_iff,
    Option.some.injEq] at done
  obtain ⟨t, issued, rfl⟩ := done
  have result : t = s.setCheckOpt chNo wayNo
      (issueOpt (s.layer.reqPool (s.headReq chNo wayNo)).reqCode) := by
    cases code : (s.layer.reqPool (s.headReq chNo wayNo)).reqCode <;> simp only [code] at issued <;>
      cases issued <;> rfl
  subst result
  refine ⟨(concerns_setDie _ _).trans (concerns_setDie _ _), rfl, _, headReqCode_of_real real, ?_⟩
  simp [setDieState, setCheckOpt]

/-- A finished request leaves its die idle and lets the layer go on. -/
private theorem finishNandReq_spec {held flight : Finset Nat} (slots : SlotsOk g s.layer held flight)
    (done : s.finishNandReq g chNo wayNo = some s') :
    Concerns s s' chNo wayNo ∧ (s'.dieState chNo wayNo).dieState = .idle ∧
      Acts g s.layer s'.layer ∧ KeepsOtherPhases s.layer s'.layer chNo wayNo := by
  simp only [finishNandReq, Option.bind_eq_bind, Option.bind_eq_some_iff, Option.some.injEq] at done
  obtain ⟨layer, taken, rfl⟩ := done
  refine ⟨?_, by simp [setDieState], Acts.of_event (e := .nandDone chNo wayNo) taken,
    RequestLayer.getFromNandReqQ_keepsPhases slots taken⟩
  have first : Concerns s ((s.setRetryLimit chNo wayNo OcpFw.retryLimit).setLayer layer) chNo wayNo :=
    ⟨rfl, fun _ _ _ => rfl⟩
  exact first.trans (concerns_setDie _ _)

/-- The first request of a die changes its code and the die becomes idle. -/
private theorem setReqCode_spec {held flight : Finset Nat} (slots : SlotsOk g s.layer held flight)
    (real : s.headReq chNo wayNo ≠ reqSlotTagNone) (transfer : Bool) (limit : Nat)
    (code : (s.layer.reqPool (s.headReq chNo wayNo)).reqCode = .read ∨
      (s.layer.reqPool (s.headReq chNo wayNo)).reqCode = .readTransfer)
    (result : s' = ((s.setRetryLimit chNo wayNo limit).setLayer
      (s.layer.setReq (s.headReq chNo wayNo) { s.layer.reqPool (s.headReq chNo wayNo) with
        reqCode := if transfer then .readTransfer else .read })).setDieState chNo wayNo .idle) :
    Concerns s s' chNo wayNo ∧ (s'.dieState chNo wayNo).dieState = .idle ∧
      Acts g s.layer s'.layer ∧ KeepsOtherPhases s.layer s'.layer chNo wayNo := by
  obtain ⟨queued, queues⟩ := slots.queued
  subst result
  refine ⟨?_, by simp [setDieState], ?_, (RequestLayer.setReq_headReqCode _ queues real).2⟩
  · have first : ∀ layer, Concerns s ((s.setRetryLimit chNo wayNo limit).setLayer layer) chNo wayNo :=
      fun _ => ⟨rfl, fun _ _ _ => rfl⟩
    exact (first _).trans (concerns_setDie _ _)
  · apply Acts.of_event (e := .readPhase chNo wayNo transfer)
    exact if_pos ⟨real, code⟩

/-- A die whose request is no longer running becomes idle. -/
theorem executeNandReq_exe {reqStatus : ReqStatus} {held flight : Finset Nat}
    (slots : SlotsOk g s.layer held flight) (real : s.headReq chNo wayNo ≠ reqSlotTagNone)
    (exe : (s.dieState chNo wayNo).dieState = .exe) (ended : reqStatus ≠ .running)
    (done : s.executeNandReq g chNo wayNo reqStatus = some s') :
    Concerns s s' chNo wayNo ∧ (s'.dieState chNo wayNo).dieState = .idle ∧
      Acts g s.layer s'.layer ∧ KeepsOtherPhases s.layer s'.layer chNo wayNo := by
  simp only [executeNandReq, exe] at done
  cases reqStatus with
  | running => exact absurd rfl ended
  | done =>
    simp only at done
    split at done
    · rename_i read
      cases done
      exact setReqCode_spec slots real true (s.retryLimit chNo wayNo) (.inl read) (by
        simp [setRetryLimit, setLayer, setDieState, setDie])
    · exact finishNandReq_spec slots done
  | fail =>
    simp only at done
    split at done
    · rename_i retry
      cases done
      exact setReqCode_spec slots real false _ retry.1 rfl
    · exact finishNandReq_spec slots done
  | warning => exact finishNandReq_spec slots done

/-- Releasing what is blocked for an empty queue. -/
theorem releaseBlocked_spec {held flight : Finset Nat} (slots : SlotsOk g s.layer held flight)
    (done : s.releaseBlocked g chNo wayNo = some s') :
    Concerns s s' chNo wayNo ∧ s'.dieState chNo wayNo = s.dieState chNo wayNo ∧
      Acts g s.layer s'.layer ∧ ∀ c w, KeepsPhase s.layer s'.layer c w := by
  unfold releaseBlocked at done
  split at done
  · rename_i empty
    simp only [Option.bind_eq_bind, Option.bind_eq_some_iff, Option.some.injEq] at done
    obtain ⟨layer, released, rfl⟩ := done
    obtain ⟨queued, queues⟩ := slots.queued
    refine ⟨⟨rfl, fun _ _ _ => rfl⟩, rfl, Acts.of_event (e := .recheck chNo wayNo) ?_,
      (RequestLayer.releaseBlockedByRowAddrDepReq_appends queues released).keepsPhase⟩
    exact (if_pos empty).trans released
  · cases done
    exact ⟨.refl s, rfl, .refl _, fun _ _ _ => rfl⟩

end Scheduler
end OcpFw
