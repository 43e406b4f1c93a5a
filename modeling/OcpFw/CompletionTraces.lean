import OcpFw.SlotConservation

/-! The completions of a run. Every event that retires a request is logged with the place
of the request among the submissions; an invariant may speak of the state and of this log. -/
namespace OcpFw
namespace RequestLayer

variable {g : Geometry}

/-- The slot whose request an event finishes. -/
def finishedSlot (s : RequestLayer) : Event → Option Nat
  | .nvmeDmaDone reqSlotTag => some reqSlotTag
  | .nandDone chNo wayNo => some (s.queues.links.head (.nand chNo wayNo))
  | .readPhase .. | .recheck .. => none

/-- The submission an event finishes. -/
def eventFinishes (s : RequestLayer) (e : Event) : List Nat :=
  (s.finishedSlot e).toList.map s.submission

def eventsFinish (g : Geometry) (s : RequestLayer) : List Event → List Nat
  | [] => []
  | e :: es => s.eventFinishes e ++ ((s.event g e).elim [] fun s' => s'.eventsFinish g es)

/-- What finishes while a submission waits for an ERASE. -/
def selectFinishes (g : Geometry) (es : List Event) (s : RequestLayer) (x : Nat) : List Nat :=
  if s.WaitsForErase g x then s.eventsFinish g es else []

end RequestLayer

/-- What an operation submits. -/
def opSubmits : RequestOp → List SsdReq
  | .submit _ req _ => [req]
  | _ => []

/-- The submissions an operation finishes, in order. -/
def opFinishes (g : Geometry) (fw : Firmware) : RequestOp → List Nat
  | .alloc es => if fw.layer.queues.links.head .free = reqSlotTagNone then fw.layer.eventsFinish g es else []
  | .putSlice .. | .getSlice => []
  | .submit x req es => (fw.layer.prepare x req).selectFinishes g es x
  | .syncAll es => if fw.layer.LowLevelReqDone then [] else fw.layer.eventsFinish g es
  | .event e => fw.layer.eventFinishes e

/-- The firmware with the submissions that have finished so far. -/
structure TracedFirmware where
  fw : Firmware
  finished : List Nat := []

def loggedStep (g : Geometry) (t : TracedFirmware) (op : RequestOp) : Option TracedFirmware := do
  let fw ← requestStep g t.fw op
  some ⟨fw, t.finished ++ opFinishes g t.fw op⟩

def initTraced (g : Geometry) : TracedFirmware := ⟨initFirmware g, []⟩

namespace RequestLayer

variable {g : Geometry} {s s' : RequestLayer} {held flight : Finset Nat} {x : Nat} {es : List Event}
  {log : List Nat}

/-- The property of the state and the log is kept by every operation that keeps the
invariant; a completion is logged. -/
structure LogClosed (g : Geometry) (ok : RequestLayer → Nat → Prop)
    (I : RequestLayer → Finset Nat → Finset Nat → Prop) (J : List Nat → RequestLayer → Finset Nat → Prop) :
    Prop where
  complete : ∀ {log s held flight x queues s'}, I s held flight → J log s flight → s.Retires x queues →
    (∀ p ∈ s.releaseChecks x, ok p.1 p.2) →
    (s.setQueues queues).releaseBlockedByBufDepReq g x = some s' → J (log ++ [s.submission x]) s' flight
  recheck : ∀ {log s held flight queued x chNo wayNo s'}, I s held flight → J log s flight →
    QueuesOk g s.queues queued → x ∈ queued (.blockedByRowAddrDep chNo wayNo) →
    s.recheckRowAddrDep g x chNo wayNo = some s' → J log s' flight
  readPhase : ∀ {log s held flight chNo wayNo} (code : ReqCode), I s held flight → J log s flight →
    s.queues.links.head (.nand chNo wayNo) ≠ reqSlotTagNone →
    J log (s.setReq (s.queues.links.head (.nand chNo wayNo))
      { s.reqPool (s.queues.links.head (.nand chNo wayNo)) with reqCode := code }) flight
  place : ∀ {log s held flight x s'}, I s held flight → J log s flight → x ∈ flight →
    Submittable g (s.reqPool x) → Placed g s x true s' → J log s' (flight.erase x)
  hold : ∀ {log s held flight x}, I s held flight → J log s flight → x ∈ flight →
    J log (s.hold g x) (flight.erase x)
  alloc : ∀ {log s held}, I s held ∅ → J log s ∅ → s.queues.links.head .free ≠ reqSlotTagNone →
    J log s.getFromFreeReqQ.2 ∅
  putSlice : ∀ {log s held x} (req : SsdReq), I s held ∅ → J log s ∅ → x ∈ held →
    J log ((s.setReq x req).setQueues (s.queues.putToSliceReqQ x)) ∅
  getSlice : ∀ {log s held}, I s held ∅ → J log s ∅ → s.queues.links.head .slice ≠ reqSlotTagNone →
    J log (s.setQueues (s.queues.getFrom .slice)) ∅

variable {ok : RequestLayer → Nat → Prop} {I : RequestLayer → Finset Nat → Finset Nat → Prop}
  {J : List Nat → RequestLayer → Finset Nat → Prop}

theorem event_logged (closed : EventClosed g ok I) (logs : LogClosed g ok I J) {e : Event}
    (inv : I s held flight) (before : J log s flight) (met : ∀ p ∈ s.eventChecks g e, ok p.1 p.2)
    (done : s.event g e = some s') : J (log ++ s.eventFinishes e) s' flight := by
  cases e with
  | nvmeDmaDone x =>
    simp only [event] at done
    split at done
    · rename_i queue
      exact logs.complete inv before (.inl ⟨queue, rfl⟩) met done
    · cases done
  | nandDone chNo wayNo =>
    obtain ⟨queues, taken, done⟩ := getFromNandReqQ_cases done
    exact logs.complete inv before (.inr ⟨chNo, wayNo, taken⟩) met done
  | readPhase chNo wayNo transfer =>
    have none : s.eventFinishes (.readPhase chNo wayNo transfer) = [] := rfl
    rw [none, List.append_nil]
    simp only [event] at done
    split at done
    · rename_i some
      cases done
      exact logs.readPhase _ inv before some.1
    · cases done
  | recheck chNo wayNo =>
    have none : s.eventFinishes (.recheck chNo wayNo) = [] := rfl
    rw [none, List.append_nil]
    obtain ⟨queued, queues⟩ := closed.queued inv
    simp only [event] at done
    split at done
    · have head := queues.holds.head (.blockedByRowAddrDep chNo wayNo)
      unfold releaseBlockedByRowAddrDepReq at done
      simp only [eventChecks] at met
      rw [head] at met done
      have kept := @scan_closed g s s' queued ok (fun t => I t held flight ∧ J log t flight) chNo wayNo
        (fun both queues listed met turn => ⟨closed.recheck both.1 queues listed met turn,
          logs.recheck both.1 both.2 queues listed turn⟩)
      have all : queued (.blockedByRowAddrDep chNo wayNo) =
          [] ++ queued (.blockedByRowAddrDep chNo wayNo) := rfl
      exact (kept ⟨inv, before⟩ queues all met done).2
    · cases done

theorem events_logged (closed : EventClosed g ok I) (logs : LogClosed g ok I J)
    (inv : I s held flight) (before : J log s flight) (met : ∀ p ∈ s.eventsChecks g es, ok p.1 p.2)
    (done : s.events g es = some s') : J (log ++ s.eventsFinish g es) s' flight := by
  induction es generalizing s log with
  | nil =>
    cases done
    rwa [eventsFinish, List.append_nil]
  | cons e es ih =>
    simp only [events, List.foldlM_cons, Option.bind_eq_bind, Option.bind_eq_some_iff] at done
    obtain ⟨t, first, done⟩ := done
    simp only [eventsChecks, first, List.forall_mem_append] at met
    rw [eventsFinish, first, Option.elim_some, ← List.append_assoc]
    exact ih (event_closed closed inv met.1 first) (event_logged closed logs inv before met.1 first) met.2 done

/-- A submission that was prepared, to its end. -/
theorem select_logged (closed : OpClosed g ok I) (logs : LogClosed g ok I J)
    (inv : I s held flight) (before : J log s flight) (member : x ∈ flight)
    (allowed : Submittable g (s.reqPool x)) (met : ∀ p ∈ s.selectChecks g es x, ok p.1 p.2)
    (done : s.selectLowLevelReqQ g es x = some s') : J (log ++ s.selectFinishes g es x) s' (flight.erase x) := by
  rcases selectLowLevelReqQ_cases done with ⟨now, -, placed⟩ | ⟨now, -, -, rfl⟩ | ⟨waits, t, ran, after⟩
  · rw [selectFinishes, if_neg now, List.append_nil]
    exact logs.place inv before member allowed placed
  · rw [selectFinishes, if_neg now, List.append_nil]
    exact logs.hold inv before member
  · simp only [selectChecks, waits, ↓reduceIte, ran, List.forall_mem_append] at met
    rw [selectFinishes, if_pos waits]
    have inv' := events_closed closed.toEventClosed inv met.1 ran
    have after' := events_logged closed.toEventClosed logs inv before met.1 ran
    obtain ⟨same, kept⟩ := events_undisturbed closed.toEventClosed inv met.1 ran member
    rcases after same kept with ⟨-, placed⟩ | ⟨-, -, rfl⟩
    · exact logs.place inv' after' member (same ▸ allowed) placed
    · exact logs.hold inv' after' member

/-- Every operation keeps the property of the state and the log. -/
theorem requestStep_logged (closed : OpClosed g ok I) (logs : LogClosed g ok I J) {fw fw' : Firmware}
    {op : RequestOp} (inv : I fw.layer fw.held ∅) (before : J log fw.layer ∅)
    (prepared : ∀ x req es, op = .submit x req es → x ∈ fw.held → Submittable g req →
      I (fw.layer.prepare x req) (fw.held.erase x) {x} ∧ J log (fw.layer.prepare x req) {x})
    (met : ∀ p ∈ opChecks g fw op, ok p.1 p.2) (step : requestStep g fw op = some fw') :
    J (log ++ opFinishes g fw op) fw'.layer ∅ := by
  cases op with
  | alloc es =>
    simp only [requestStep, syncAvailFreeReq, Option.bind_eq_bind, Option.bind_eq_some_iff,
      Option.some.injEq] at step
    obtain ⟨t, waited, rfl⟩ := step
    split at waited
    · rename_i empty
      simp only [opChecks, empty, ↓reduceIte] at met
      simp only [Option.bind_eq_some_iff] at waited
      obtain ⟨u, ran, waited⟩ := waited
      split at waited
      · cases waited
      · rename_i some
        cases waited
        rw [opFinishes, if_pos empty]
        exact logs.alloc (events_closed closed.toEventClosed inv met ran)
          (events_logged closed.toEventClosed logs inv before met ran) some
    · rename_i some
      cases waited
      rw [opFinishes, if_neg some, List.append_nil]
      exact logs.alloc inv before some
  | putSlice x req =>
    have none : opFinishes g fw (.putSlice x req) = [] := rfl
    rw [none, List.append_nil]
    simp only [requestStep] at step
    split at step
    · rename_i member
      cases step
      exact logs.putSlice req inv before member
    · cases step
  | getSlice =>
    have none : opFinishes g fw .getSlice = [] := rfl
    rw [none, List.append_nil]
    simp only [requestStep, RequestQueues.getFromSliceReqQ] at step
    by_cases empty : fw.layer.queues.links.head .slice = reqSlotTagNone
    · simp only [empty, ↓reduceIte, Option.some.injEq] at step
      exact step ▸ before
    · simp only [empty, ↓reduceIte, Option.some.injEq] at step
      exact step ▸ logs.getSlice inv before empty
  | submit x req es =>
    simp only [requestStep] at step
    split at step
    · rename_i allowed
      simp only [Option.bind_eq_bind, Option.bind_eq_some_iff, Option.some.injEq] at step
      obtain ⟨t, submitted, rfl⟩ := step
      obtain ⟨inv', before'⟩ := prepared x req es rfl allowed.1 allowed.2
      have submittable : Submittable g ((fw.layer.prepare x req).reqPool x) := by
        simpa [prepare] using allowed.2
      have after := select_logged closed logs inv' before' (by simp) submittable met submitted
      rw [opFinishes]
      simpa using after
    · cases step
  | syncAll es =>
    simp only [requestStep, syncAllLowLevelReqDone, Option.bind_eq_bind, Option.bind_eq_some_iff,
      Option.some.injEq] at step
    obtain ⟨t, waited, rfl⟩ := step
    split at waited
    · rename_i idle
      cases waited
      rw [opFinishes, if_pos idle, List.append_nil]
      exact before
    · rename_i busy
      simp only [opChecks, busy, ↓reduceIte] at met
      simp only [Option.bind_eq_some_iff] at waited
      obtain ⟨u, ran, waited⟩ := waited
      split at waited
      · cases waited
        rw [opFinishes, if_neg busy]
        exact events_logged closed.toEventClosed logs inv before met ran
      · cases waited
  | event e =>
    simp only [requestStep, Option.bind_eq_bind, Option.bind_eq_some_iff, Option.some.injEq] at step
    obtain ⟨t, done, rfl⟩ := step
    exact event_logged closed.toEventClosed logs inv before met done

end RequestLayer
end OcpFw
