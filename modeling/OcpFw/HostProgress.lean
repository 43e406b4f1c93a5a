import OcpFw.Draining
import OcpFw.HostDisk

/-! Every READ can be answered. Once the requests of the commands fetched so far have been
submitted, hardware events alone lead to where nothing is left to do, and no command needs
anything of another one that is still to come. -/
namespace OcpFw
open Runs (Run exec run_of_exec_any)
open RequestLayer

variable {D : Type} {g : Geometry}

/-! ### No assertion fails -/

theorem FlashReq.issuable (r : FlashReq) : Issuable r.flashRequest.req := by
  cases r <;> exact .inr ⟨rfl, rfl, fun _ => by simp [flashRequest]⟩

/-- The requests of a slice whose offsets a command can have pass the assertions. -/
theorem Translates.issuable {manager manager' : BufferManager Ftl} {slice : SliceReq} {requests : List FlashRequest}
    {new : List FlashReq} {e : Nat} {before : List SsdReq} {held : Bool} {dma : SsdReq}
    (what : Translates g manager slice manager' requests new e before held dma)
    (fits : slice.startIndex + slice.numOfNvmeBlock ≤ 256) : ∀ r ∈ requests, Issuable r.req := by
  have moves : Issuable dma := by
    obtain ⟨-, -, -, code⟩ := BufferManager.dmaReq_spec what.consumes.dmaReq
    have dmaReq := what.consumes.dmaReq
    simp only [SliceReq.dmaReq, Option.bind_eq_bind, Option.bind_eq_some_iff, Option.some.injEq] at dmaReq
    obtain ⟨kind, -, rfl⟩ := dmaReq
    exact .inl ⟨rfl, rfl, code.imp And.right And.right, fits⟩
  intro r member
  have listed : r.req ∈ requests.map FlashRequest.req := List.mem_map_of_mem member
  rw [what.requests] at listed
  simp only [List.mem_append, List.mem_map, List.mem_singleton] at listed
  rcases listed with ⟨r', -, same⟩ | own | same
  · exact same ▸ r'.issuable
  · obtain ⟨tag, lsa, vsa, same | same⟩ := what.consumes.prepares.nand _ own
    · exact same ▸ .inr ⟨rfl, rfl, fun _ => by simp [BufferManager.evictReq]⟩
    · exact same ▸ .inr ⟨rfl, rfl, fun _ => by simp [BufferManager.fillReq, BufferManager.evictReq]⟩
  · exact same ▸ moves

/-! ### Fair runs -/

/-- What the device has issued passes the assertions, and every wait can end. -/
structure DeviceGoesOn (hostData : Nat → Nat → D) (erased : Nat → D) (m₀ : RequestPlace → Nat → D)
    (s : Device g D) : Prop where
  device : DeviceRunOk hostData erased m₀ s
  waits : WaitOk g s.traced.fw.layer s.traced.fw.held ∅
  issuable : ∀ r ∈ s.issued, Issuable r.req

namespace DeviceGoesOn
variable {hostData : Nat → Nat → D} {erased : Nat → D} {m₀ : RequestPlace → Nat → D} {s s' : Device g D}
  {input : DeviceInput} {es : List Event} {layer : RequestLayer}

theorem step (small : g.userPagesPerBlock < 4096) (ok : DeviceGoesOn hostData erased m₀ s)
    (allowed : input.Allowed s) (after : DeviceRunOk hostData erased m₀ s')
    (short : ∀ slice, input = .consume slice → slice.startIndex + slice.numOfNvmeBlock ≤ 256)
    (fair : ∀ op ∈ s.operation input, ChecksFairly g s.traced.fw op)
    (done : deviceStep hostData erased s input = some s') : DeviceGoesOn hostData erased m₀ s' := by
  have performed : ∀ op, s.operation input = some op → s.perform hostData erased op = some s' →
      WaitOk g s'.traced.fw.layer s'.traced.fw.held ∅ ∧ s'.issued = s.issued := by
    intro op named done
    simp only [Device.perform, Option.bind_eq_bind, Option.bind_eq_some_iff, Option.some.injEq] at done
    obtain ⟨t, step, rfl⟩ := done
    simp only [loggedStep, Option.bind_eq_bind, Option.bind_eq_some_iff, Option.some.injEq] at step
    obtain ⟨fw, step, rfl⟩ := step
    obtain ⟨-, issued, traced⟩ := Device.finish_foldl hostData erased
      { s with traced := ⟨fw, s.traced.finished ++ opFinishes g s.traced.fw op⟩ } (opFinishes g s.traced.fw op)
    rw [traced, issued]
    exact ⟨ok.waits.step small (ok.device.submitsInOrder (Device.operation_submits named)) (fair op named) step, rfl⟩
  cases input with
  | consume slice =>
    simp only [deviceStep] at done
    split at done
    · cases done
    · simp only [Option.bind_eq_bind, Option.bind_eq_some_iff, Option.some.injEq, Prod.exists] at done
      obtain ⟨manager, requests, translated, rfl⟩ := done
      refine ⟨after, ok.waits, fun r member => ?_⟩
      rcases List.mem_append.mp member with old | new
      · exact ok.issuable r old
      · obtain ⟨r', listed, rfl⟩ := List.mem_map.mp new
        obtain ⟨real, -, safe⟩ := allowed.1 slice rfl
        obtain ⟨-, -, copies, e, before, held, dma, what⟩ := ok.device.slices.translates real safe translated
        exact what.issuable (short slice rfl) r' listed
  | submit | request =>
    simp only [deviceStep, Option.bind_eq_bind, Option.bind_eq_some_iff] at done
    obtain ⟨op, named, done⟩ := done
    obtain ⟨waits, issued⟩ := performed op named done
    exact ⟨after, waits, issued ▸ ok.issuable⟩

/-- What the hardware does to the request layer it does to the device. -/
theorem event (small : g.userPagesPerBlock < 4096) (ok : DeviceGoesOn hostData erased m₀ s) {e : Event}
    (fair : EventFair g s.traced.fw.layer e) (done : s.traced.fw.layer.event g e = some layer) :
    ∃ s', deviceStep hostData erased s (.request (.event e)) = some s' ∧ s'.traced.fw.layer = layer ∧
      s'.next = s.next ∧ DeviceGoesOn hostData erased m₀ s' := by
  set traced : TracedFirmware := ⟨⟨layer, s.traced.fw.held⟩, s.traced.finished ++ opFinishes g s.traced.fw (.event e)⟩
  have step : loggedStep g s.traced (.event e) = some traced := by simp [loggedStep, requestStep, done, traced]
  have named : s.operation (.request (.event e)) = some (.event e) := by simp [Device.operation, opSubmits]
  have fair' : ∀ op ∈ s.operation (.request (.event e)), ChecksFairly g s.traced.fw op := by
    intro op member
    cases named.symm.trans member
    exact fair
  obtain ⟨s', done', same⟩ : ∃ s', deviceStep hostData erased s (.request (.event e)) = some s' ∧
      s' = (opFinishes g s.traced.fw (.event e)).foldl (Device.finish hostData erased) { s with traced := traced } := by
    simp only [deviceStep, named, Device.perform, step, Option.bind_eq_bind, Option.bind_some, Option.some.injEq,
      exists_eq_left']
  obtain ⟨-, issued, after⟩ := Device.finish_foldl hostData erased { s with traced := traced }
    (opFinishes g s.traced.fw (.event e))
  rw [← same] at issued after
  have allowed : (DeviceInput.request (.event e)).Allowed s :=
    ⟨by simp, fun op member p listed => (fair' op member p listed).1⟩
  have ok' := ok.device.step small allowed done'
  have next : s'.next = s.next := by
    rw [Device.next, Device.next, issued, after]
    exact congrArg (fun submissions => s.issued[List.length submissions]?) (event_submissions ok.waits.1.1 done)
  exact ⟨s', done', by rw [after], next, ok.step small allowed ok' (by simp) fair' done'⟩

end DeviceGoesOn

/-- No write back collects a current block without valid slices, and the checks an input makes
are fair. -/
def HostInput.Fair (s : HostSession g D) (input : HostInput) : Prop :=
  ∀ d ∈ s.deviceInput input, (∀ slice, d = .consume slice → EvictsSafely g s.device.manager slice) ∧
    ∀ op ∈ s.device.operation d, ChecksFairly g s.device.traced.fw op

instance (s : HostSession g D) (input : HostInput) : Decidable (input.Fair s) := by
  unfold HostInput.Fair
  infer_instance

theorem HostInput.Fair.allowed {s : HostSession g D} {input : HostInput} (fair : input.Fair s) : input.Allowed s :=
  fun d named => ⟨(fair d named).1, fun op submits p member => ((fair d named).2 op submits p member).1⟩

section
variable {cmds : List NvmeCommand} {data : Nat → Nat → D} {erased : Nat → D} {m₀ : RequestPlace → Nat → D}
  {s s' : HostSession g D} {input : HostInput} {storageCapacityL : Nat}

/-- A slice that waits has offsets a command can have. -/
theorem HostOk.queued_short (ok : HostOk cmds data erased m₀ s) (short : ∀ c ∈ cmds, c.opc = .flush ∨ c.cmd.nlb < 256)
    {slice : SliceReq} (queued : slice ∈ s.sliceReqQ) : slice.startIndex + slice.numOfNvmeBlock ≤ 256 := by
  obtain ⟨c, listed, member⟩ := ok.of_queued queued
  obtain ⟨nonempty, -⟩ := NvmeCommand.slice_aligned member
  obtain ⟨code, -, opc⟩ := NvmeCommand.mem_slices member
  have some : c.opc ≠ .flush := by rcases opc with ⟨opc, -⟩ | ⟨opc, -⟩ <;> simp [opc]
  have low : c.cmd.startLba < 2 ^ 32 := (ok.admitted c listed).resolve_left some
  have few : c.cmd.nlb < 256 := (short c (List.mem_of_mem_take listed)).resolve_left some
  obtain ⟨i, le, -, index⟩ := NvmeCommand.slice_block
    (p := slice.nvmeBlockOffset + slice.numOfNvmeBlock - 1) member low (by omega) (by omega)
  omega

/-- What holds between two inputs of a fair run. -/
structure HostGoesOn (cmds : List NvmeCommand) (data : Nat → Nat → D) (erased : Nat → D) (m₀ : RequestPlace → Nat → D)
    (s : HostSession g D) : Prop where
  host : HostOk cmds data erased m₀ s
  device : DeviceGoesOn (sliceData cmds data) erased m₀ s.device

namespace HostGoesOn

theorem init (bad : Nat → Nat → Bool)
    (two : ∀ dieNo < g.userDies, 2 ≤ (goodBlocks (bad dieNo) g.userBlocksPerDie).length)
    (small : g.userPagesPerBlock < 4096) : HostGoesOn cmds data erased m₀ (initHostSession g bad m₀) :=
  ⟨.init bad two small, .init bad two small, .init small, by simp [initHostSession, initDevice]⟩

theorem step (small : g.userPagesPerBlock < 4096) (fits : storageCapacityL < 2 ^ 32)
    (short : ∀ c ∈ cmds, c.opc = .flush ∨ c.cmd.nlb < 256) (ok : HostGoesOn cmds data erased m₀ s)
    (fair : input.Fair s) (done : hostStep cmds data erased storageCapacityL s input = some s') :
    HostGoesOn cmds data erased m₀ s' := by
  have host := ok.host.step small fits fair.allowed done
  refine ⟨host, ?_⟩
  rcases hostStep_cases done with ⟨-, -, -, -, -, -, device, -⟩ | ⟨d, device, named, stepped, rfl⟩
  · exact device ▸ ok.device
  · obtain ⟨-, queued⟩ := HostSession.deviceInput_spec named
    exact ok.device.step small (ok.host.allowed fair.allowed named) host.device
      (fun slice consumed => ok.host.queued_short short (queued slice consumed)) (fair d named).2 stepped

/-- What the hardware does to the request layer it does to the session. -/
theorem events (small : g.userPagesPerBlock < 4096) (fits : storageCapacityL < 2 ^ 32)
    (short : ∀ c ∈ cmds, c.opc = .flush ∨ c.cmd.nlb < 256) (ok : HostGoesOn cmds data erased m₀ s)
    {es : List Event} {layer : RequestLayer}
    (run : Run (event g) (EventFair g) s.device.traced.fw.layer es layer) :
    ∃ s', Run (hostStep cmds data erased storageCapacityL) (fun s input => input.Fair s) s
        (es.map fun e => .request (.event e)) s' ∧ s'.device.traced.fw.layer = layer ∧
      s'.device.next = s.device.next ∧ s'.sliceReqQ = s.sliceReqQ ∧ s'.fetched = s.fetched ∧
      HostGoesOn cmds data erased m₀ s' := by
  generalize start : s.device.traced.fw.layer = from' at run
  induction run with
  | nil => exact ⟨s, .nil, start, rfl, rfl, rfl, ok⟩
  | @snoc es t e layer before fair done ih =>
    obtain ⟨s', run, rfl, submitted, waiting, fetched, ok'⟩ := ih
    obtain ⟨device, stepped, layer, submitted', -⟩ := ok'.device.event small fair done
    have fair' : (HostInput.request (.event e)).Fair s' := by
      rintro d ⟨⟩
      refine ⟨by simp, ?_⟩
      rintro op ⟨⟩
      exact fair
    have next : hostStep cmds data erased storageCapacityL s' (.request (.event e)) =
        some { s' with device := device } := by
      simp only [hostStep, HostSession.deviceInput, stepped, HostSession.rest, Option.bind_eq_bind, Option.bind_some]
    refine ⟨{ s' with device := device }, ?_, layer, submitted'.trans submitted, waiting, fetched,
      ok'.step small fits short fair' next⟩
    rw [List.map_append, List.map_singleton]
    exact run.snoc fair' next

end HostGoesOn

theorem hostGoesOn_of_run (bad : Nat → Nat → Bool)
    (two : ∀ dieNo < g.userDies, 2 ≤ (goodBlocks (bad dieNo) g.userBlocksPerDie).length)
    (small : g.userPagesPerBlock < 4096) (fits : storageCapacityL < 2 ^ 32)
    (short : ∀ c ∈ cmds, c.opc = .flush ∨ c.cmd.nlb < 256) {inputs : List HostInput}
    (run : Run (hostStep cmds data erased storageCapacityL) (fun s input => input.Fair s)
      (initHostSession g bad m₀) inputs s) : HostGoesOn cmds data erased m₀ s :=
  run.invariant (HostGoesOn cmds data erased m₀) (.init bad two small) fun _ _ _ ok fair done =>
    ok.step small fits short fair done

/-- Once everything that was fetched has been submitted, a bounded number of hardware events
answers every READ, or leads to where a check can happen that is not fair. -/
theorem host_answers (bad : Nat → Nat → Bool)
    (two : ∀ dieNo < g.userDies, 2 ≤ (goodBlocks (bad dieNo) g.userBlocksPerDie).length)
    (small : g.userPagesPerBlock < 4096) (fits : storageCapacityL < 2 ^ 32)
    (short : ∀ c ∈ cmds, c.opc = .flush ∨ c.cmd.nlb < 256) (inputs : List HostInput)
    (run : Run (hostStep cmds data erased storageCapacityL) (fun s input => input.Fair s)
      (initHostSession g bad m₀) inputs s)
    (consumed : s.sliceReqQ = []) (submitted : s.device.next = none) :
    ∃ (es : List Event) (s' : HostSession g D), es.length ≤ 3 * availableOutstandingReqCount g ∧
      Run (hostStep cmds data erased storageCapacityL) (fun s input => input.Fair s) s
        (es.map fun e => .request (.event e)) s' ∧
      (s'.Idle ∧ ((s'.delivered cmds).map Prod.fst).Perm (blocksAsked (cmds.take s.fetched)) ∨
        ∃ e, (s'.device.traced.fw.layer.event g e).isSome ∧ ¬ EventFair g s'.device.traced.fw.layer e) := by
  have ok := hostGoesOn_of_run bad two small fits short run
  have issuable : ∀ req ∈ s.device.traced.fw.layer.submissions, Issuable req := by
    intro req member
    have listed : req ∈ s.device.issued.map LowLevelReq.req := by
      rw [← ok.host.device.submitted]
      exact List.mem_append_left _ member
    obtain ⟨r, issued, rfl⟩ := List.mem_map.mp listed
    exact ok.device.issuable r issued
  obtain ⟨es, layer, few, drains, -, -, final⟩ := ok.device.waits.drains small (ok.device.waits.heldIssuable issuable)
  obtain ⟨s', run', rfl, next, waiting, fetched, ok'⟩ := ok.events small fits short drains
  refine ⟨es, s', few.trans toGo_le, run', final.imp_left fun idle => ?_⟩
  have drained : s'.Idle :=
    ⟨waiting.trans consumed, next.trans submitted, ok'.host.device.layer.1.1.1.done_of_idle idle⟩
  exact ⟨drained, fetched ▸ ok'.host.answered drained⟩

/-- A READ of two slices, behind the WRITE that brings them in. -/
def writeThenRead : List NvmeCommand :=
  [⟨.write, 0, { dword10 := 0, dword12 := 5 }⟩, ⟨.read, 1, { dword10 := 2, dword12 := 3 }⟩]

def writeThenReadInputs : List HostInput :=
  [.command, .slice] ++ submitsFrom 0 1 ++ [.slice] ++ submitsFrom 1 1 ++
  [.command, .slice] ++ submitsFrom 2 1 ++ [.slice] ++ submitsFrom 3 1

theorem host_answers_writeThenRead :
    ∃ (s s' : HostSession oneDie Nat) (es : List Event),
      Run (hostStep writeThenRead hostTens (fun _ => 777) 1000) (fun s input => input.Fair s) freshSession
        writeThenReadInputs s ∧
      Run (hostStep writeThenRead hostTens (fun _ => 777) 1000) (fun s input => input.Fair s) s
        (es.map fun e => .request (.event e)) s' ∧
      (s'.Idle ∧ ((s'.delivered writeThenRead).map Prod.fst).Perm [⟨1, 0⟩, ⟨1, 1⟩, ⟨1, 2⟩, ⟨1, 3⟩] ∨
        ∃ e, (s'.device.traced.fw.layer.event oneDie e).isSome ∧ ¬ EventFair oneDie s'.device.traced.fw.layer e) := by
  have done : (exec (hostStep writeThenRead hostTens (fun _ => 777) 1000) (fun s input => input.Fair s) freshSession
      writeThenReadInputs).any (fun s => s.sliceReqQ = [] ∧ s.device.next = none ∧ s.fetched = 2) = true := by
    decide +kernel
  obtain ⟨s, run, shown⟩ := run_of_exec_any done
  obtain ⟨consumed, submitted, fetched⟩ := of_decide_eq_true shown
  obtain ⟨es, s', -, goes, final⟩ := host_answers (fun _ _ => false) (by decide) (by decide) (by decide) (by decide) _
    run consumed submitted
  rw [fetched] at final
  exact ⟨s, s', es, run, goes, final⟩

end

end OcpFw
