import OcpFw.DmaRetirement

/-! Runs of the firmware in which it looks at the DMA engine now and then. Between two looks
requests are submitted and NAND requests finish; in every state reached this way, a call of
`CheckDoneNvmeDmaReq` frees exactly the finished requests. -/
namespace OcpFw
open RequestLayer
open Runs (Run exec run_of_exec_any)

/-- The firmware, and the slots whose submission is in progress. -/
structure PolledFirmware where
  fw : Firmware
  flight : Finset Nat := ∅

/-- What the firmware does between two looks at the DMA engine, and the calls that look at
it. A submission has two steps: a READ that finds an ERASE of its block waits between them,
and the wait is made of the other steps. -/
inductive PollInput where
  | request (op : RequestOp)
  | prepare (reqSlotTag : Nat) (req : SsdReq)
  | select (reqSlotTag : Nat)
  | checkDone (completed : Nat → DmaDirection → Nat)

def pollStep (g : Geometry) (s : PolledFirmware) : PollInput → Option PolledFirmware
  | .request op => do
    let fw ← requestStep g s.fw op
    some { s with fw := fw }
  | .prepare x req =>
    if x ∈ s.fw.held ∧ Submittable g req ∧ s.flight = ∅ then
      some ⟨⟨s.fw.layer.prepare x req, s.fw.held.erase x⟩, {x}⟩
    else none
  | .select x =>
    if x ∈ s.flight then do
      let layer ← s.fw.layer.selectLowLevelReqQ g [] x
      some ⟨⟨layer, s.fw.held⟩, s.flight.erase x⟩
    else none
  | .checkDone completed => do
    let (_, layer) ← s.fw.layer.checkDoneNvmeDmaReq g completed
    some { s with fw := ⟨layer, s.fw.held⟩ }

/-- What the hardware completes goes on from read to read, and agrees with what the call
issues meanwhile. -/
def HeadsFit (g : Geometry) (s : RequestLayer) (completed : Nat → DmaDirection → Nat) : Prop :=
  Monotone completed ∧ ∀ visits s', s.checkDoneNvmeDmaReq g completed = some (visits, s') →
    ∀ visit ∈ visits, visit.Fits

/-- Waits are steps of their own, and DMA requests finish in calls only. -/
def PollInput.Allowed (g : Geometry) (s : PolledFirmware) : PollInput → Prop
  | request (.alloc es) => es = [] ∧ s.flight = ∅
  | request (.putSlice ..) | request .getSlice => s.flight = ∅
  | request (.event e) => ∀ x, e ≠ .nvmeDmaDone x
  | request (.submit ..) | request (.syncAll _) => False
  | prepare .. | select _ => True
  | checkDone completed => HeadsFit g s.fw.layer completed

variable {g : Geometry} {s s' : RequestLayer} {held flight : Finset Nat} {f f' : PolledFirmware}
  {queued : ReqQueue → List Nat} {completed : Nat → DmaDirection → Nat} {visits : List DmaVisit} {x : Nat}

/-! ### The queues and the engine -/

/-- The queues, and the DMA requests with the hardware, are in order. -/
def LayerOk (g : Geometry) (s : RequestLayer) : Prop :=
  ∃ queued, QueuesOk g s.queues queued ∧ DmaOk g s (queued .nvmeDma)

/-- What leaves the DMA queue, its requests and the engine alone. -/
theorem LayerOk.frame {queued' : ReqQueue → List Nat} (dma : DmaOk g s (queued .nvmeDma))
    (queues : QueuesOk g s'.queues queued') (same : queued' .nvmeDma = queued .nvmeDma)
    (hostDma : s'.hostDma = s.hostDma) (reqs : ∀ x ∈ queued .nvmeDma, s'.reqPool x = s.reqPool x) : LayerOk g s' :=
  ⟨queued', queues, same ▸ dma.frame hostDma reqs⟩

/-- A request that is placed. -/
theorem LayerOk.place {select : Bool} (queues : QueuesOk g s.queues queued) (dma : DmaOk g s (queued .nvmeDma))
    (placed : Placed g s x select s') (submittable : Submittable g (s.reqPool x))
    (slot : x < availableOutstandingReqCount g) (idle : s.reqQueueType x = .none) : LayerOk g s' := by
  obtain ⟨appended, queued', queues', shape, -, start⟩ := placed_dmaStart queues placed submittable slot idle
  exact ⟨queued', queues', shape ▸ dma.start start⟩

/-- What happens while the firmware waits, but for the DMA requests that finish. -/
theorem LayerOk.event {e : Event} (ok : SlotsOk g s held flight) (layer : LayerOk g s)
    (other : ∀ x, e ≠ .nvmeDmaDone x) (done : s.event g e = some s') : LayerOk g s' := by
  obtain ⟨queued, queues, dma⟩ := layer
  cases e with
  | nvmeDmaDone x => exact absurd rfl (other x)
  | nandDone chNo wayNo =>
    obtain ⟨moved, taken, released⟩ := getFromNandReqQ_cases done
    have ok' := ok.retire (.inr ⟨chNo, wayNo, taken⟩)
    obtain ⟨xs, -, retired⟩ := queues.getFromNandReqQ taken
    obtain ⟨appended, queued', queues', dma', -, start⟩ := release_dmaStart ok' retired released
    have same : Function.update (Function.update queued (.nand chNo wayNo) xs) .free
        (queued .free ++ [s.queues.links.head (.nand chNo wayNo)]) .nvmeDma = queued .nvmeDma := by simp
    rw [same] at dma' start
    exact ⟨queued', queues', dma' ▸ dma.start (start.congr rfl rfl)⟩
  | readPhase chNo wayNo transfer =>
    simp only [RequestLayer.event] at done
    split at done
    · rename_i some
      cases done
      obtain ⟨xs, shape⟩ := queues.head_cons some.1
      refine LayerOk.frame dma queues rfl rfl fun x member => ?_
      have diff : x ≠ s.queues.links.head (.nand chNo wayNo) := by
        have head : s.queues.links.head (.nand chNo wayNo) ∈ queued (.nand chNo wayNo) := by simp [shape]
        exact queues.holds.ne_of_key_ne (by simp) member head
      simp [setReq, diff]
    · cases done
  | recheck chNo wayNo =>
    simp only [RequestLayer.event] at done
    split at done
    · unfold releaseBlockedByRowAddrDepReq at done
      rw [queues.holds.head] at done
      have all : queued (.blockedByRowAddrDep chNo wayNo) = [] ++ queued (.blockedByRowAddrDep chNo wayNo) := rfl
      refine @scan_closed g s s' queued (fun _ _ => True) (LayerOk g) chNo wayNo ?_ _ _ _ ⟨queued, queues, dma⟩ queues
        all (fun _ _ => trivial) done
      rintro t queuedT y t' ⟨queued₁, queues₁, dma₁⟩ queuesT listed - turn
      obtain rfl := queues₁.holds.unique queuesT.holds
      obtain ⟨-, ⟨-, rfl⟩ | ⟨-, rfl⟩⟩ := recheckRowAddrDep_cases turn
      · have exist : (ReqQueue.blockedByRowAddrDep chNo wayNo).Exists g :=
          queues₁.exist _ (List.ne_nil_of_mem listed)
        have idle : (t.queues.selectiveGetFrom (.blockedByRowAddrDep chNo wayNo) y).reqQueueType y = .none := by
          simp [RequestQueues.selectiveGetFrom]
        have moved := (queues₁.selectiveGetFrom listed).putTo (q := .nand chNo wayNo) exist
          (queues₁.slot _ y listed) idle
        exact LayerOk.frame dma₁ moved (by simp) rfl fun _ _ => rfl
      · exact ⟨_, queues₁, dma₁⟩
    · cases done

/-! ### One input -/

/-- What holds between two inputs. -/
structure PolledOk (g : Geometry) (s : PolledFirmware) : Prop where
  slots : SlotsOk g s.fw.layer s.fw.held s.flight
  layer : LayerOk g s.fw.layer
  submittable : ∀ x ∈ s.flight, Submittable g (s.fw.layer.reqPool x)
  single : s.flight.card ≤ 1

theorem PolledOk.init : PolledOk g ⟨initFirmware g, ∅⟩ where
  slots := SlotsOk.init
  layer := ⟨_, initReqPool_ok g, DmaOk.init⟩
  submittable := by simp
  single := by simp

theorem PolledOk.submission (ok : PolledOk g f) : SubmissionOk g f.fw.layer f.fw.held f.flight :=
  ⟨ok.slots, ok.submittable, ok.single⟩

theorem PolledOk.of_submission (ok : SubmissionOk g f.fw.layer f.fw.held f.flight) (layer : LayerOk g f.fw.layer) :
    PolledOk g f :=
  ⟨ok.slots, layer, ok.submittable, ok.single⟩

theorem PolledOk.request (ok : PolledOk g f) {op : RequestOp} (allowed : (PollInput.request op).Allowed g f)
    {fw : Firmware} (done : requestStep g f.fw op = some fw) : PolledOk g { f with fw := fw } := by
  have quiet : f.flight = ∅ → (∀ x req es, op ≠ .submit x req es) → SubmissionOk g fw.layer fw.held f.flight := by
    intro idle other
    have ok' := ok.submission
    rw [idle] at ok' ⊢
    exact SubmissionOk.request ok' other done
  obtain ⟨queued, queues, dma⟩ := ok.layer
  cases op with
  | alloc es =>
    obtain ⟨rfl, idle⟩ := allowed
    refine .of_submission (quiet idle fun _ _ _ => RequestOp.noConfusion) ?_
    simp only [requestStep, syncAvailFreeReq, events, List.foldlM_nil, Option.pure_def, Option.bind_eq_bind,
      Option.bind_some, Option.bind_eq_some_iff, Option.some.injEq] at done
    obtain ⟨t, waited, rfl⟩ := done
    split at waited
    · cases waited
    · rename_i some
      cases waited
      obtain ⟨xs, shape⟩ := queues.head_cons some
      exact LayerOk.frame dma (queues.getFrom shape) (by simp) rfl fun _ _ => rfl
  | putSlice x req =>
    refine .of_submission (quiet allowed fun _ _ _ => RequestOp.noConfusion) ?_
    simp only [requestStep] at done
    split at done
    · rename_i member
      cases done
      have idle := (ok.slots.taken x (ok.slots.inPool x (.inl member))).mpr (.inl member)
      have moved := queues.putTo (q := .slice) trivial (ok.slots.inPool x (.inl member)) idle
      refine LayerOk.frame dma moved (by simp) rfl fun y listed => ?_
      have diff : y ≠ x := fun same => queues.unlisted idle _ (same ▸ listed)
      simp [setReq, setQueues, diff]
    · cases done
  | getSlice =>
    refine .of_submission (quiet allowed fun _ _ _ => RequestOp.noConfusion) ?_
    simp only [requestStep, RequestQueues.getFromSliceReqQ] at done
    by_cases empty : f.fw.layer.queues.links.head .slice = reqSlotTagNone
    · simp only [empty, ↓reduceIte, Option.some.injEq] at done
      exact done ▸ ok.layer
    · simp only [empty, ↓reduceIte, Option.some.injEq] at done
      subst done
      obtain ⟨xs, shape⟩ := queues.head_cons empty
      exact LayerOk.frame dma (queues.getFrom shape) (by simp) rfl fun _ _ => rfl
  | event e =>
    simp only [requestStep, Option.bind_eq_bind, Option.bind_eq_some_iff, Option.some.injEq] at done
    obtain ⟨t, ran, rfl⟩ := done
    have one : f.fw.layer.events g [e] = some t := by simp [events, ran]
    exact .of_submission (ok.submission.events one) (.event ok.slots ok.layer allowed ran)
  | submit => cases allowed
  | syncAll => cases allowed

/-- A request is filled in and attached. -/
theorem PolledOk.prepare (ok : PolledOk g f) (member : x ∈ f.fw.held) {req : SsdReq} (submittable : Submittable g req)
    (idle : f.flight = ∅) : PolledOk g ⟨⟨f.fw.layer.prepare x req, f.fw.held.erase x⟩, {x}⟩ := by
  have ok' := ok.submission
  rw [idle] at ok'
  refine .of_submission (ok'.prepare member submittable) ?_
  obtain ⟨queued, queues, dma⟩ := ok.layer
  have none := (ok.slots.taken x (ok.slots.inPool x (.inl member))).mpr (.inl member)
  refine LayerOk.frame dma queues rfl rfl fun y listed => ?_
  have diff : y ≠ x := by
    rintro rfl
    exact queues.unlisted none _ listed
  simp [RequestLayer.prepare, diff]

theorem PolledOk.select (ok : PolledOk g f) (member : x ∈ f.flight) {layer : RequestLayer}
    (done : f.fw.layer.selectLowLevelReqQ g [] x = some layer) :
    PolledOk g ⟨⟨layer, f.fw.held⟩, f.flight.erase x⟩ := by
  refine .of_submission (ok.submission.select member done) ?_
  have submittable := ok.submittable x member
  obtain ⟨queued, queues, dma⟩ := ok.layer
  have slot := ok.slots.inPool x (.inr member)
  have idle := (ok.slots.taken x slot).mpr (.inr member)
  have hold : LayerOk g (f.fw.layer.hold g x) := by
    have moved := queues.putTo (q := .blockedByBufDep) trivial slot idle
    exact LayerOk.frame dma moved (by simp) hold_hostDma fun y _ => by rw [hold_reqPool]
  rcases selectLowLevelReqQ_cases done with ⟨-, -, placed⟩ | ⟨-, -, -, rfl⟩ | ⟨-, t, ran, after⟩
  · exact LayerOk.place queues dma placed submittable slot idle
  · exact hold
  · cases ran
    rcases after rfl id with ⟨-, placed⟩ | ⟨-, -, rfl⟩
    · exact LayerOk.place queues dma placed submittable slot idle
    · exact hold

/-- A look at the DMA engine. -/
theorem PolledOk.checkDone (ok : PolledOk g f) (fit : HeadsFit g f.fw.layer completed) {layer : RequestLayer}
    (done : f.fw.layer.checkDoneNvmeDmaReq g completed = some (visits, layer)) :
    PolledOk g { f with fw := ⟨layer, f.fw.held⟩ } := by
  obtain ⟨queued, queues, dma⟩ := ok.layer
  obtain ⟨slots, idle, queued', -, queues', dma', -⟩ :=
    checkDone_spec ok.slots queues dma fit.1 done (fit.2 visits layer done)
  refine ⟨slots, ⟨queued', queues', dma'⟩, fun x member => ?_, ok.single⟩
  rw [idle x member]
  exact ok.submittable x member

theorem PolledOk.step (ok : PolledOk g f) {input : PollInput} (allowed : input.Allowed g f)
    (done : pollStep g f input = some f') : PolledOk g f' := by
  cases input with
  | request op =>
    simp only [pollStep, Option.bind_eq_bind, Option.bind_eq_some_iff, Option.some.injEq] at done
    obtain ⟨fw, ran, rfl⟩ := done
    exact ok.request allowed ran
  | prepare x req =>
    simp only [pollStep] at done
    split at done
    · rename_i ready
      cases done
      exact ok.prepare ready.1 ready.2.1 ready.2.2
    · cases done
  | select x =>
    simp only [pollStep] at done
    split at done
    · rename_i member
      simp only [Option.bind_eq_bind, Option.bind_eq_some_iff, Option.some.injEq] at done
      obtain ⟨layer, ran, rfl⟩ := done
      exact ok.select member ran
    · cases done
  | checkDone completed =>
    simp only [pollStep, Option.bind_eq_bind, Option.bind_eq_some_iff, Option.some.injEq, Prod.exists] at done
    obtain ⟨visits, layer, ran, rfl⟩ := done
    exact ok.checkDone allowed ran

theorem polledOk_of_run {inputs : List PollInput}
    (run : Run (pollStep g) (fun s input => input.Allowed g s) ⟨initFirmware g, ∅⟩ inputs f) : PolledOk g f := by
  apply run.invariant (PolledOk g) PolledOk.init
  intro f input f' ok allowed done
  exact ok.step allowed done

/-- In every state the firmware reaches, `CheckDoneNvmeDmaReq` frees what is finished and
nothing else. -/
theorem checkDone_exact {inputs : List PollInput}
    (run : Run (pollStep g) (fun s input => input.Allowed g s) ⟨initFirmware g, ∅⟩ inputs f)
    (grows : Monotone completed) (ran : f.fw.layer.checkDoneNvmeDmaReq g completed = some (visits, s'))
    (fits : ∀ visit ∈ visits, visit.Fits) :
    ∃ queued queued' last, QueuesOk g f.fw.layer.queues queued ∧ QueuesOk g s'.queues queued' ∧
      Retired g completed f.fw.layer s' (queued .nvmeDma) (queued' .nvmeDma) (queued .free) (queued' .free) visits
        last := by
  have ok := polledOk_of_run run
  obtain ⟨queued, queues, dma⟩ := ok.layer
  obtain ⟨-, -, queued', last, queues', -, retired⟩ := checkDone_spec ok.slots queues dma grows ran fits
  exact ⟨queued, queued', last, queues, queues', retired⟩

/-- The inputs of a run without waits. -/
def PollInput.waitless (s : PolledFirmware) : PollInput → Bool
  | .request (.alloc es) => es.isEmpty && decide (s.flight = ∅)
  | .prepare .. | .select _ => true
  | _ => false

/-- A transfer of one block from the host into the second entry. -/
def hostWriteReq : SsdReq :=
  { reqType := .nvmeDma, reqCode := .rxDma, dataBufInfo := 1, nvmeDmaInfo := { numOfNvmeBlock := 1 } }

/-- Three requests: a transfer to the host, one from the host into another entry, and one to
the host that waits for the first. -/
def threeTransfers : List PollInput :=
  [.request (.alloc []), .prepare 0 hostReadReq, .select 0, .request (.alloc []), .prepare 1 hostWriteReq, .select 1,
    .request (.alloc []), .prepare 2 hostReadReq, .select 2]

/-- The first is done and freed, which issues the last during the call; the second goes on. -/
theorem checkDone_exact_released :
    ∃ f, Run (pollStep tinyGeometry) (fun s input => input.Allowed tinyGeometry s) ⟨initFirmware tinyGeometry, ∅⟩
        threeTransfers f ∧
      ∃ visits s', f.fw.layer.checkDoneNvmeDmaReq tinyGeometry (fun _ dir => if dir = .tx then 1 else 0) =
          some (visits, s') ∧ (freedBy visits = [0] ∧ s'.reqQueueType 2 = .nvmeDma) ∧
        ∃ queued queued' last, QueuesOk tinyGeometry f.fw.layer.queues queued ∧
          QueuesOk tinyGeometry s'.queues queued' ∧
          Retired tinyGeometry (fun _ dir => if dir = .tx then 1 else 0) f.fw.layer s' (queued .nvmeDma)
            (queued' .nvmeDma) (queued .free) (queued' .free) visits last := by
  have done : (exec (pollStep tinyGeometry) (fun s input => input.waitless s) ⟨initFirmware tinyGeometry, ∅⟩
      threeTransfers).any (fun f =>
      (f.fw.layer.checkDoneNvmeDmaReq tinyGeometry fun _ dir => if dir = .tx then 1 else 0).any fun r =>
        decide ((freedBy r.1 = [0] ∧ r.2.reqQueueType 2 = .nvmeDma) ∧ ∀ visit ∈ r.1, ∀ completed ∈ visit.head,
          completed ≤ visit.issued ∧ visit.issued - completed ≤ 255)) = true := by decide +kernel
  obtain ⟨f, run, shown⟩ := run_of_exec_any done
  have waits : ∀ (s : PolledFirmware) (input : PollInput), input.waitless s → input.Allowed tinyGeometry s := by
    intro s input met
    unfold PollInput.waitless at met
    split at met
    · simpa [PollInput.Allowed] using met
    · trivial
    · trivial
    · cases met
  have run' := run.mono waits
  obtain ⟨⟨visits, s'⟩, ran, shown⟩ := (Option.any_eq_true _ _).mp shown
  obtain ⟨freed, fits⟩ := of_decide_eq_true shown
  exact ⟨f, run', visits, s', ran, freed, checkDone_exact run' (fun _ _ _ => le_rfl) ran fits⟩

end OcpFw
