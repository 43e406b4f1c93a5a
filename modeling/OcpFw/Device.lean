import OcpFw.DeviceMemory

/-! The firmware and the hardware together. The buffer manager translates slices, the request
layer schedules their requests, and a request is carried out on the memory of the device when
the hardware finishes it. Whatever overlaps, the host is answered as if every slice were done
before the next one. -/
namespace OcpFw
open AccessOrder (InOrder Ready Semantics)
open Runs (Run exec run_of_exec_any)
open RequestLayer

variable {D : Type} {g : Geometry}

/-! ### The device -/

/-- The buffer manager, the requests of the slices consumed so far, the request layer, which
takes them in this order, the memory, and the blocks moved to the host. -/
structure Device (g : Geometry) (D : Type) where
  manager : BufferManager Ftl
  issued : List LowLevelReq := []
  traced : TracedFirmware
  memory : RequestPlace → Nat → D
  delivered : List (Delivery D) := []

/-- A slice is translated, the next request is submitted, or the request layer does
something else. -/
inductive DeviceInput where
  | consume (slice : SliceReq)
  | submit (reqSlotTag : Nat) (es : List Event)
  | request (op : RequestOp)

namespace Device

/-- The first request that is not submitted yet. -/
def next (s : Device g D) : Option LowLevelReq := s.issued[s.traced.fw.layer.submissions.length]?

/-- A request is carried out. -/
def finish (hostData : Nat → Nat → D) (erased : Nat → D) (s : Device g D) (i : Nat) : Device g D :=
  s.issued[i]?.elim s fun r =>
    { s with
      memory := r.carryOut g hostData erased s.memory
      delivered := s.delivered ++ r.delivered s.memory }

/-- An operation of the request layer, with what the hardware finishes meanwhile. -/
def perform (hostData : Nat → Nat → D) (erased : Nat → D) (s : Device g D) (op : RequestOp) : Option (Device g D) := do
  let traced ← loggedStep g s.traced op
  some ((opFinishes g s.traced.fw op).foldl (finish hostData erased) { s with traced := traced })

/-- The operation of the request layer an input stands for. -/
def operation (s : Device g D) : DeviceInput → Option RequestOp
  | .consume _ => none
  | .submit reqSlotTag es => s.next.map fun r => .submit reqSlotTag r.req es
  | .request op => if opSubmits op = [] then some op else none

end Device

def deviceStep (hostData : Nat → Nat → D) (erased : Nat → D) (s : Device g D) (input : DeviceInput) :
    Option (Device g D) :=
  match input with
  | .consume slice =>
    -- all requests of a slice are submitted before the next slice is taken
    if s.next.isSome then none
    else do
      let (manager, requests) ← translateSlice g s.manager slice
      some
        { s with
          manager := manager
          issued := s.issued ++ requests.map fun r => ⟨r.req, s.manager.slices.length⟩ }
  | input => do
    let op ← s.operation input
    s.perform hostData erased op

def initDevice (g : Geometry) (bad : Nat → Nat → Bool) (memory : RequestPlace → Nat → D) : Device g D where
  manager := initBufferManager g (initFtl g bad)
  traced := initTraced g
  memory := memory

/-- A slice stays inside its address, its write back does not collect a current block without
valid slices, and no check lets a request overtake an ERASE. -/
def DeviceInput.Allowed (s : Device g D) (input : DeviceInput) : Prop :=
  (∀ slice, input = .consume slice → slice.logicalSliceAddr ≠ lsaNone ∧
    slice.nvmeBlockOffset + slice.numOfNvmeBlock ≤ nvmeBlocksPerSlice ∧ EvictsSafely g s.manager slice) ∧
  ∀ op ∈ s.operation input, KeepsErases g s.traced.fw op

instance (P : SliceReq → Prop) [DecidablePred P] (input : DeviceInput) :
    Decidable (∀ slice, input = .consume slice → P slice) :=
  match input with
  | .consume slice => decidable_of_iff (P slice) (by simp)
  | .submit _ _ | .request _ => isTrue (by simp)

instance (s : Device g D) (input : DeviceInput) : Decidable (input.Allowed s) :=
  inferInstanceAs (Decidable (_ ∧ _))

/-! ### What the host sees -/

/-- The blocks a request moves to the host when every request is carried out before the next one. -/
def deliveriesInOrder (g : Geometry) (hostData : Nat → Nat → D) (erased : Nat → D) (m₀ : RequestPlace → Nat → D)
    (issued : List LowLevelReq) (i : Nat) : List (Delivery D) :=
  issued[i]?.elim [] fun r => r.delivered ((deviceSemantics g hostData erased).replay m₀ (issued.take i))

/-- The blocks the READ slices ask for, by the number of the slice and the position. -/
def blocksToRead (slices : List SliceReq) : List (Nat × Nat) :=
  slices.zipIdx.flatMap fun slice =>
    if slice.1.reqCode = .read then
      (List.range slice.1.numOfNvmeBlock).map fun i => (slice.2, slice.1.nvmeBlockOffset + i)
    else []

theorem blocksToRead_append (slices : List SliceReq) (slice : SliceReq) :
    blocksToRead (slices ++ [slice]) = blocksToRead slices ++
      if slice.reqCode = .read then
        (List.range slice.numOfNvmeBlock).map fun i => (slices.length, slice.nvmeBlockOffset + i)
      else [] := by
  simp [blocksToRead, List.zipIdx_append]

/-- What holds between two inputs. -/
structure DeviceRunOk (hostData : Nat → Nat → D) (erased : Nat → D) (m₀ : RequestPlace → Nat → D)
    (s : Device g D) : Prop where
  layer : AllBlocksOk g s.traced.fw.layer s.traced.fw.held ∅
  log : LogOk g s.traced.finished s.traced.fw.layer ∅
  manager : DeviceOk g hostData erased m₀ (LastData hostData) s.manager s.issued
  reach : s.manager.WrittenInReach g (flashSliceMap g)
  slices : SlicesOk g s.manager (s.issued.map LowLevelReq.req)
  inTurn : AllInTurn g s.traced.fw.layer.submissions
    ((s.issued.drop s.traced.fw.layer.submissions.length).map LowLevelReq.req)
  submitted : s.traced.fw.layer.submissions ++
    (s.issued.drop s.traced.fw.layer.submissions.length).map LowLevelReq.req = s.issued.map LowLevelReq.req
  memory : s.memory = (deviceSemantics g hostData erased).perform m₀ s.issued s.traced.finished
  delivered : s.delivered = s.traced.finished.flatMap (deliveriesInOrder g hostData erased m₀ s.issued)
  answers : s.issued.flatMap LowLevelReq.answers = blocksToRead s.manager.slices

section
variable {hostData : Nat → Nat → D} {erased : Nat → D} {m₀ : RequestPlace → Nat → D} {s s' : Device g D}
  {log new : List Nat} {op : RequestOp} {slice : SliceReq}

theorem Device.finish_foldl (hostData : Nat → Nat → D) (erased : Nat → D) (s : Device g D) (new : List Nat) :
    (new.foldl (finish hostData erased) s).manager = s.manager ∧
      (new.foldl (finish hostData erased) s).issued = s.issued ∧
      (new.foldl (finish hostData erased) s).traced = s.traced := by
  induction new generalizing s with
  | nil => exact ⟨rfl, rfl, rfl⟩
  | cons i new ih =>
    obtain ⟨manager, issued, traced⟩ := ih (s.finish hostData erased i)
    have same : (s.finish hostData erased i).manager = s.manager ∧ (s.finish hostData erased i).issued = s.issued ∧
        (s.finish hostData erased i).traced = s.traced := by
      unfold finish
      cases s.issued[i]? <;> exact ⟨rfl, rfl, rfl⟩
    exact ⟨manager.trans same.1, issued.trans same.2.1, traced.trans same.2.2⟩

/-- Requests that finish in an order that keeps the conflicts leave the memory performed in
that order, and deliver what they deliver in the order of submission. -/
theorem Device.finish_inOrder (memory : s.memory = (deviceSemantics g hostData erased).perform m₀ s.issued log)
    (delivered : s.delivered = log.flatMap (deliveriesInOrder g hostData erased m₀ s.issued))
    (order : InOrder (deviceSemantics g hostData erased).Conflict s.issued (log ++ new)) :
    (new.foldl (finish hostData erased) s).memory =
        (deviceSemantics g hostData erased).perform m₀ s.issued (log ++ new) ∧
      (new.foldl (finish hostData erased) s).delivered =
        (log ++ new).flatMap (deliveriesInOrder g hostData erased m₀ s.issued) := by
  induction new generalizing s log with
  | nil => simpa using ⟨memory, delivered⟩
  | cons i new ih =>
    obtain ⟨before, r, ready⟩ := @InOrder.split _ _ _ _ log new _ order rfl
    have here : s.issued[i]? = some r := ready.1
    have seen : r.delivered s.memory =
        r.delivered ((deviceSemantics g hostData erased).replay m₀ (s.issued.take i)) := by
      rw [memory]
      exact Semantics.output_eq before ready
    have finished : s.finish hostData erased i =
        { s with
          memory := r.carryOut g hostData erased s.memory
          delivered := s.delivered ++ r.delivered s.memory } := by
      simp [finish, here]
    rw [List.foldl_cons, finished]
    have next := @ih { s with
        memory := r.carryOut g hostData erased s.memory
        delivered := s.delivered ++ r.delivered s.memory } (log ++ [i])
    rw [List.append_assoc, List.singleton_append] at next
    refine next ?_ ?_ order
    · rw [memory, Semantics.perform_snoc here]
      rfl
    · rw [seen, delivered, List.flatMap_append, List.flatMap_singleton, deliveriesInOrder, here, Option.elim_some]

/-- The log of the request layer is an order for the requests that were issued. -/
theorem LogOk.issued {reqs : List SsdReq} {issued : List LowLevelReq} {layer : RequestLayer}
    (ok : LogOk g log layer ∅) (submitted : layer.submissions ++ reqs = issued.map LowLevelReq.req) :
    InOrder (deviceSemantics g hostData erased).Conflict issued log :=
  (submitted ▸ @InOrder.submit _ _ _ reqs _ ok.order).of_map

/-- What an operation submits is the next request. -/
theorem Device.operation_submits {input : DeviceInput} (named : s.operation input = some op) :
    (s.issued.drop s.traced.fw.layer.submissions.length).map LowLevelReq.req =
      opSubmits op ++ (s.issued.drop (s.traced.fw.layer.submissions ++ opSubmits op).length).map LowLevelReq.req := by
  cases input with
  | consume slice => cases named
  | submit x es =>
    obtain ⟨r, next, rfl⟩ := Option.map_eq_some_iff.mp named
    obtain ⟨inside, here⟩ := List.getElem?_eq_some_iff.mp next
    rw [List.drop_eq_getElem_cons inside, here]
    simp [opSubmits]
  | request op' =>
    simp only [operation] at named
    split at named
    · rename_i none
      cases named
      simp [none]
    · cases named

/-- A READ slice is answered by its last request, and no other request answers. -/
theorem Translates.answers {manager manager' : BufferManager Ftl} {requests : List FlashRequest} {new : List FlashReq}
    {e : Nat} {before : List SsdReq} {held : Bool} {dma : SsdReq}
    (what : Translates g manager slice manager' requests new e before held dma) :
    (requests.map fun r => (⟨r.req, manager.slices.length⟩ : LowLevelReq)).flatMap LowLevelReq.answers =
      if slice.reqCode = .read then
        (List.range slice.numOfNvmeBlock).map fun i => (manager.slices.length, slice.nvmeBlockOffset + i)
      else [] := by
  have shape : (requests.map fun r => (⟨r.req, manager.slices.length⟩ : LowLevelReq)) =
      (requests.map FlashRequest.req).map fun req => ⟨req, manager.slices.length⟩ := by simp
  have quiet : ((new.map (fun r => r.flashRequest.req) ++ before).map fun req =>
      (⟨req, manager.slices.length⟩ : LowLevelReq)).flatMap LowLevelReq.answers = [] := by
    rw [List.flatMap_eq_nil_iff]
    intro r member
    obtain ⟨req, listed, rfl⟩ := List.mem_map.mp member
    simp [LowLevelReq.answers, DeviceOk.code_ne what listed]
  rw [shape, what.requests, ← List.append_assoc, List.map_append, List.flatMap_append, quiet, List.nil_append]
  obtain ⟨-, offset, count, code⟩ := BufferManager.dmaReq_spec what.consumes.dmaReq
  have entry := (dmaReq_transfers what.consumes.dmaReq).2
  rcases code with ⟨write, rx⟩ | ⟨read, tx⟩
  · simp [LowLevelReq.answers, rx, write]
  · simp [LowLevelReq.answers, entry, tx, read, offset, count]

namespace DeviceRunOk

theorem init (bad : Nat → Nat → Bool)
    (two : ∀ dieNo < g.userDies, 2 ≤ (goodBlocks (bad dieNo) g.userBlocksPerDie).length)
    (small : g.userPagesPerBlock < 4096) : DeviceRunOk hostData erased m₀ (initDevice g bad m₀) where
  layer := .init small
  log := .init
  manager := .init bad fun lsa _ p => .unwritten hostData lsa p _
  reach := .init _
  slices := .init bad two
  inTurn := .nil
  submitted := rfl
  memory := rfl
  delivered := rfl
  answers := rfl

/-- The next request is in turn. -/
theorem submitsInOrder (ok : DeviceRunOk hostData erased m₀ s)
    (subs : (s.issued.drop s.traced.fw.layer.submissions.length).map LowLevelReq.req =
      opSubmits op ++ (s.issued.drop (s.traced.fw.layer.submissions ++ opSubmits op).length).map LowLevelReq.req) :
    SubmitsInOrder g s.traced.fw op := by
  have inTurn := ok.inTurn
  rw [subs] at inTurn
  intro req member
  cases op with
  | submit x req' es =>
    cases inTurn with
    | cons turn rest => exact List.mem_singleton.mp member ▸ turn _
  | _ => simp [opSubmits] at member

/-- An operation of the request layer. -/
theorem perform (small : g.userPagesPerBlock < 4096) (ok : DeviceRunOk hostData erased m₀ s)
    (subs : (s.issued.drop s.traced.fw.layer.submissions.length).map LowLevelReq.req =
      opSubmits op ++ (s.issued.drop (s.traced.fw.layer.submissions ++ opSubmits op).length).map LowLevelReq.req)
    (keeps : KeepsErases g s.traced.fw op) (done : s.perform hostData erased op = some s') :
    DeviceRunOk hostData erased m₀ s' := by
  simp only [Device.perform, Option.bind_eq_bind, Option.bind_eq_some_iff, Option.some.injEq] at done
  obtain ⟨t, step, rfl⟩ := done
  obtain ⟨layer, log⟩ := loggedStep_ok small ⟨ok.layer, ok.log⟩ ⟨ok.submitsInOrder subs, keeps⟩ step
  have inTurn := ok.inTurn
  have submitted := ok.submitted
  rw [subs] at inTurn submitted
  simp only [loggedStep, Option.bind_eq_bind, Option.bind_eq_some_iff, Option.some.injEq] at step
  obtain ⟨fw, step, rfl⟩ := step
  have submissions := requestStep_submissions ok.layer.1.1 step
  obtain ⟨manager, issued, traced⟩ := Device.finish_foldl hostData erased
    { s with traced := ⟨fw, s.traced.finished ++ opFinishes g s.traced.fw op⟩ } (opFinishes g s.traced.fw op)
  rw [← submissions, ← List.append_assoc, ← submissions] at submitted
  obtain ⟨memory, delivered⟩ := @Device.finish_inOrder _ _ hostData erased m₀
    { s with traced := ⟨fw, s.traced.finished ++ opFinishes g s.traced.fw op⟩ } _ (opFinishes g s.traced.fw op)
    ok.memory ok.delivered (log.issued submitted)
  refine ⟨traced ▸ layer, traced ▸ log, ?_, ?_, ?_, ?_, ?_, ?_, ?_, ?_⟩
  · rw [manager, issued]
    exact ok.manager
  · rw [manager]
    exact ok.reach
  · rw [manager, issued]
    exact ok.slices
  · rw [traced, issued]
    rw [← submissions] at inTurn
    exact submissions ▸ inTurn.rest
  · rw [traced, issued]
    exact submitted
  · rw [memory, traced, issued]
  · rw [delivered, traced, issued]
  · rw [manager, issued]
    exact ok.answers

/-- Consuming a slice. -/
theorem consume (ok : DeviceRunOk hostData erased m₀ s) (real : slice.logicalSliceAddr ≠ lsaNone)
    (fits : slice.nvmeBlockOffset + slice.numOfNvmeBlock ≤ nvmeBlocksPerSlice)
    (safe : EvictsSafely g s.manager slice) (done : deviceStep hostData erased s (.consume slice) = some s') :
    DeviceRunOk hostData erased m₀ s' := by
  simp only [deviceStep] at done
  split at done
  · cases done
  rename_i all
  simp only [Option.bind_eq_bind, Option.bind_eq_some_iff, Option.some.injEq, Prod.exists] at done
  obtain ⟨manager, requests, translated, rfl⟩ := done
  have short : s.issued.length ≤ s.traced.fw.layer.submissions.length := by
    simpa [Device.next] using all
  have whole : s.traced.fw.layer.submissions = s.issued.map LowLevelReq.req := by
    simpa [List.drop_eq_nil_of_le short] using ok.submitted
  have count : s.traced.fw.layer.submissions.length = s.issued.length := by simp [whole]
  obtain ⟨lists, maps⟩ := ok.slices.maps
  have mapsOnly := safe.mapsOnly maps
  obtain ⟨-, -, new, e, before, held, dma, what⟩ := ok.slices.translates real safe translated
  obtain ⟨inTurn, after⟩ := ok.slices.translate real safe translated
  have replay := ok.manager.replay.consumeLast ok.reach real fits mapsOnly (translateSlice_consumes translated)
  have inside : ∀ i ∈ s.traced.finished, i < s.issued.length := fun i member =>
    count ▸ ((ok.log.logged i).mp member).1
  have reqs : (requests.map fun r => (⟨r.req, s.manager.slices.length⟩ : LowLevelReq)).map LowLevelReq.req =
      requests.map FlashRequest.req := by simp
  constructor
  · exact ok.layer
  · exact ok.log
  · exact ok.manager.consume ok.slices real safe replay translated
  · exact ok.reach.consume what.consumes mapsOnly
  · simpa [reqs] using after
  · rw [count, List.drop_left, reqs, whole]
    exact inTurn
  · rw [count, List.drop_left, List.map_append, whole]
  · rw [Semantics.perform_submit inside]
    exact ok.memory
  · rw [ok.delivered]
    refine List.flatMap_congr fun i member => ?_
    have low := inside i member
    rw [deliveriesInOrder, deliveriesInOrder, List.getElem?_append_left low, List.take_append_of_le_length low.le]
  · rw [List.flatMap_append, ok.answers, what.answers, what.consumes.slices, blocksToRead_append]

theorem step (small : g.userPagesPerBlock < 4096) (ok : DeviceRunOk hostData erased m₀ s) {input : DeviceInput}
    (allowed : input.Allowed s) (done : deviceStep hostData erased s input = some s') :
    DeviceRunOk hostData erased m₀ s' := by
  by_cases slice : ∃ slice, input = .consume slice
  · obtain ⟨slice, rfl⟩ := slice
    obtain ⟨real, fits, safe⟩ := allowed.1 slice rfl
    exact ok.consume real fits safe done
  · have performs : deviceStep hostData erased s input =
        (s.operation input).bind fun op => s.perform hostData erased op := by
      cases input with
      | consume slice' => exact absurd ⟨slice', rfl⟩ slice
      | submit | request => rfl
    rw [performs, Option.bind_eq_some_iff] at done
    obtain ⟨op, named, done⟩ := done
    exact ok.perform small (Device.operation_submits named) (allowed.2 op named) done

end DeviceRunOk

theorem deviceRunOk_of_run (bad : Nat → Nat → Bool)
    (two : ∀ dieNo < g.userDies, 2 ≤ (goodBlocks (bad dieNo) g.userBlocksPerDie).length)
    (small : g.userPagesPerBlock < 4096) {inputs : List DeviceInput}
    (run : Run (deviceStep hostData erased) (fun s input => input.Allowed s) (initDevice g bad m₀) inputs s) :
    DeviceRunOk hostData erased m₀ s :=
  run.invariant (DeviceRunOk hostData erased m₀) (.init bad two small) fun _ _ _ ok allowed done =>
    ok.step small allowed done

/-! ### Drained -/

/-- Every request was submitted, and the request layer waits for nothing. -/
def Device.Drained (s : Device g D) : Prop := s.next = none ∧ s.traced.fw.layer.LowLevelReqDone

instance (s : Device g D) : Decidable s.Drained := by
  unfold Device.Drained
  infer_instance

/-- A block is in the buffer entry of its slice, or in the page its slice is mapped to. -/
def Device.Holds (s : Device g D) (lsa p : Nat) (d : D) : Prop :=
  (∃ e < availableDataBufferEntryCount g, s.manager.buf.logicalSliceAddr e = lsa ∧ s.memory (.buf (.dataBuf e)) p = d) ∨
    s.manager.map.logicalSlice lsa ≠ vsaNone ∧ s.memory (.page (s.manager.map.logicalSlice lsa)) p = d

/-- Nothing is outstanding in a drained layer. -/
theorem SlotsOk.idle_of_drained {layer : RequestLayer} {held : Finset Nat} (ok : SlotsOk g layer held ∅)
    (done : layer.LowLevelReqDone) (x : Nat) : ¬ layer.Outstanding x := by
  intro busy
  obtain ⟨queued, queues⟩ := ok.queued
  have some : layer.reqQueueType x ≠ .none := by
    intro none
    simp [Outstanding, none] at busy
  obtain ⟨q, member⟩ := queues.listed x some
  have slot := queues.slot q x member
  rcases ok.drained done slot with free | slice | held | flight
  · simp [Outstanding, free] at busy
  · simp [Outstanding, slice] at busy
  · exact some ((ok.taken x slot).mpr (.inl held))
  · simp at flight

namespace DeviceRunOk

/-- In a drained device every request has finished, once. -/
theorem finished_perm (ok : DeviceRunOk hostData erased m₀ s) (drained : s.Drained) :
    s.traced.finished.Perm (List.range s.issued.length) := by
  have short : s.issued.length ≤ s.traced.fw.layer.submissions.length := by
    simpa [Device.next] using drained.1
  have count : s.traced.fw.layer.submissions.length = s.issued.length := by
    have whole := congrArg List.length ok.submitted
    simp only [List.length_append, List.length_map, List.length_drop] at whole
    omega
  rw [List.perm_ext_iff_of_nodup ok.log.order.nodup List.nodup_range]
  intro i
  rw [ok.log.logged, List.mem_range, count, and_iff_left]
  rintro x (busy | inFlight)
  · exact absurd busy (SlotsOk.idle_of_drained ok.layer.1.1.1 drained.2 x)
  · simp at inFlight

theorem memory_drained (ok : DeviceRunOk hostData erased m₀ s) (drained : s.Drained) :
    s.memory = (deviceSemantics g hostData erased).replay m₀ s.issued := by
  have all := ok.finished_perm drained
  have short : s.issued.length ≤ s.traced.fw.layer.submissions.length := by
    simpa [Device.next] using drained.1
  rw [ok.memory]
  apply Semantics.perform_all
  · have submitted := ok.submitted
    rw [List.drop_eq_nil_of_le short] at submitted
    exact ok.log.issued submitted
  · intro i low
    exact all.mem_iff.mpr (List.mem_range.mpr low)

/-- Every block that was delivered is the one the host wrote last before the READ. -/
theorem delivers (ok : DeviceRunOk hostData erased m₀ s) : ∀ d ∈ s.delivered, DeliversLast hostData s.manager.slices d := by
  intro d member
  rw [ok.delivered, List.mem_flatMap] at member
  obtain ⟨i, -, member⟩ := member
  unfold deliveriesInOrder at member
  cases here : s.issued[i]? with
  | none => simp [here] at member
  | some r =>
    rw [here, Option.elim_some] at member
    exact ok.manager.delivers i r here d member

theorem answersAll (ok : DeviceRunOk hostData erased m₀ s) (drained : s.Drained) :
    (s.delivered.map fun d => (d.slice, d.block)).Perm (blocksToRead s.manager.slices) := by
  have answers : ∀ i, (deliveriesInOrder g hostData erased m₀ s.issued i).map (fun d => (d.slice, d.block)) =
      s.issued[i]?.elim [] LowLevelReq.answers := by
    intro i
    unfold deliveriesInOrder
    cases s.issued[i]? with
    | none => rfl
    | some r => exact r.delivered_answers _
  have inOrder : (List.range s.issued.length).flatMap (fun i => s.issued[i]?.elim [] LowLevelReq.answers) =
      s.issued.flatMap LowLevelReq.answers := by
    induction s.issued using List.reverseRecOn with
    | nil => rfl
    | append_singleton issued r ih =>
      rw [List.length_append, List.length_singleton, List.range_succ, List.flatMap_append, List.flatMap_append, ← ih]
      congr 1
      · exact List.flatMap_congr fun i member => by
          rw [List.getElem?_append_left (List.mem_range.mp member)]
      · simp
  rw [ok.delivered, List.map_flatMap, ← ok.answers, ← inOrder]
  simp only [answers]
  exact (ok.finished_perm drained).flatMap_right _

/-- The block is where the firmware looks for it. -/
theorem holds (ok : DeviceRunOk hostData erased m₀ s) (drained : s.Drained) (lsa p k : Nat)
    (inside : p < nvmeBlocksPerSlice) (last : lastWrite lsa p s.manager.slices = some k) :
    s.Holds lsa p (hostData k p) := by
  obtain ⟨n, same⟩ := ok.manager.same
  unfold Device.Holds
  rw [ok.memory_drained drained]
  have entry : s.manager.HeldDirty g lsa → ∃ e < availableDataBufferEntryCount g,
      s.manager.buf.logicalSliceAddr e = lsa ∧
        (deviceSemantics g hostData erased).replay m₀ s.issued (.buf (.dataBuf e)) p = hostData k p := by
    rintro ⟨e, low, rfl, -⟩
    refine ⟨e, low, rfl, ?_⟩
    rw [← same.entry e]
    exact ok.manager.replay.holds.entry e low p inside k last
  rcases ok.reach lsa p k last with dirty | mapped
  · exact .inl (entry dirty)
  · rcases ok.manager.replay.holds.flash lsa mapped with dirty | holds
    · exact .inl (entry dirty)
    · obtain ⟨vsa, found, real⟩ := mapped
      obtain ⟨rfl, stored⟩ := flashSliceMap_addrTransRead found real
      refine .inr ⟨stored, ?_⟩
      rw [same.mapped stored]
      exact holds p inside k last

end DeviceRunOk

/-- Sixteen slices fill the buffer, the next one and a READ of the first one drive out two. The
write back of slice 1 finishes before the transfer that waited for the one of slice 0. -/
def overlappingInputs : List DeviceInput :=
  (List.range 16).flatMap (fun i =>
    [.consume (sliceAt .write i 0 4), .request (.alloc []), .submit i [], .request (.event (.nvmeDmaDone i))]) ++
  [.consume (sliceAt .write 16 0 4), .request (.alloc []), .submit 16 [], .request (.alloc []), .submit 17 [],
    .consume (sliceAt .read 0 0 4), .request (.alloc []), .submit 18 [], .request (.alloc []), .submit 19 [],
    .request (.alloc []), .submit 20 [],
    .request (.event (.nandDone 0 0)), .request (.event (.nandDone 0 0)), .request (.event (.nvmeDmaDone 17)),
    .request (.event (.nandDone 0 0)), .request (.event (.nvmeDmaDone 20))]

def hostTens (k p : Nat) : Nat := 10 * k + p

private theorem overlappingInputs_run :
    ∃ s, Run (deviceStep hostTens fun _ => 777) (fun s input => input.Allowed s)
      (initDevice oneDie (fun _ _ => false) fun _ _ => 777) overlappingInputs s ∧ s.Drained ∧
      s.traced.finished.drop 16 = [16, 18, 17, 19, 20] ∧ s.delivered.map Delivery.data = [0, 1, 2, 3] ∧
      blocksToRead s.manager.slices = [(17, 0), (17, 1), (17, 2), (17, 3)] ∧
      lastWrite 1 2 s.manager.slices = some 1 := by
  have done : (exec (deviceStep hostTens fun _ => 777) (fun s input => input.Allowed s)
      (initDevice oneDie (fun _ _ => false) fun _ _ => 777) overlappingInputs).any fun s =>
        s.Drained ∧ s.traced.finished.drop 16 = [16, 18, 17, 19, 20] ∧
        s.delivered.map Delivery.data = [0, 1, 2, 3] ∧
        blocksToRead s.manager.slices = [(17, 0), (17, 1), (17, 2), (17, 3)] ∧
        lastWrite 1 2 s.manager.slices = some 1 := by decide +kernel
  obtain ⟨s, run, shown⟩ := run_of_exec_any done
  exact ⟨s, run, of_decide_eq_true shown⟩

/-- Once the device is drained, every block of every READ has been delivered, once. -/
theorem device_answers_all (bad : Nat → Nat → Bool)
    (two : ∀ dieNo < g.userDies, 2 ≤ (goodBlocks (bad dieNo) g.userBlocksPerDie).length)
    (small : g.userPagesPerBlock < 4096) (inputs : List DeviceInput)
    (run : Run (deviceStep hostData erased) (fun s input => input.Allowed s) (initDevice g bad m₀) inputs s)
    (drained : s.Drained) :
    (s.delivered.map fun d => (d.slice, d.block)).Perm (blocksToRead s.manager.slices) :=
  (deviceRunOk_of_run bad two small run).answersAll drained

theorem device_answers_all_overlapping :
    ∃ s, Run (deviceStep hostTens fun _ => 777) (fun s input => input.Allowed s)
      (initDevice oneDie (fun _ _ => false) fun _ _ => 777) overlappingInputs s ∧
      (s.delivered.map fun d => (d.slice, d.block)).Perm [(17, 0), (17, 1), (17, 2), (17, 3)] := by
  obtain ⟨s, run, drained, -, -, asked, -⟩ := overlappingInputs_run
  exact ⟨s, run, asked ▸ device_answers_all _ (by decide) (by decide) _ run drained⟩

end

end OcpFw
