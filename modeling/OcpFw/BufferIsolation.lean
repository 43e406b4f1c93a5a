import OcpFw.HostDisk

/-! What the host sees of blocks it never wrote. A slice that finds no data of its own
takes what the recycled entry was left with. As long as no data of the host is left there, two
sessions that differ in the data written deliver the same unwritten blocks. -/
namespace OcpFw
open AccessOrder (Semantics)
open Runs (Run exec run_of_exec_any)
open BufferManager

variable {D : Type} {g : Geometry} {hostData hostData' : Nat → Nat → D} {erased : Nat → D}

/-! ### Where the data of the host is -/

/-- Whether a block at a place came from the host, with the requests carried out in their
order; no block did at the start. -/
def hostWritten (g : Geometry) (reqs : List LowLevelReq) : RequestPlace → Nat → Bool :=
  (deviceSemantics g (fun _ _ => true) fun _ => false).replay (fun _ _ => false) reqs

/-- Two memories agree wherever the data did not come from the host. -/
def AgreeOutside (fromHost : RequestPlace → Nat → Bool) (m m' : RequestPlace → Nat → D) : Prop :=
  ∀ l p, fromHost l p = false → m l p = m' l p

section
variable {fromHost : RequestPlace → Nat → Bool} {m m' : RequestPlace → Nat → D}

/-- One request, carried out on both memories and on the marks. -/
theorem AgreeOutside.carryOut (agree : AgreeOutside fromHost m m') (r : LowLevelReq) :
    AgreeOutside (r.carryOut g (fun _ _ => true) (fun _ => false) fromHost) (r.carryOut g hostData erased m)
      (r.carryOut g hostData' erased m') := by
  intro l p clean
  unfold LowLevelReq.carryOut at clean ⊢
  by_cases writes : r.req.Writes g l
  · simp only [if_pos writes] at clean ⊢
    cases l with
    | buf b =>
      simp only [LowLevelReq.leaves] at clean ⊢
      split
      · rename_i read
        rw [if_pos read] at clean
        exact agree _ p clean
      · rename_i other
        rw [if_neg other] at clean
        split
        · rename_i rx
          simp only [if_pos rx] at clean ⊢
          by_cases moves : r.Moves p
          · simp [moves] at clean
          · simp only [if_neg moves] at clean ⊢
            exact agree _ p clean
        · rename_i still
          rw [if_neg still] at clean
          exact agree _ p clean
    | page vsa =>
      simp only [LowLevelReq.leaves] at clean ⊢
      split
      · rename_i write
        rw [if_pos write] at clean
        cases entry : r.req.bufEntry with
        | none => rfl
        | some b =>
          rw [entry] at clean
          exact agree _ p clean
      · rfl
  · simp only [if_neg writes] at clean ⊢
    exact agree l p clean

theorem AgreeOutside.replay (agree : AgreeOutside fromHost m m') (reqs : List LowLevelReq) :
    AgreeOutside ((deviceSemantics g (fun _ _ => true) fun _ => false).replay fromHost reqs)
      ((deviceSemantics g hostData erased).replay m reqs) ((deviceSemantics g hostData' erased).replay m' reqs) := by
  induction reqs generalizing fromHost m m' with
  | nil => exact agree
  | cons r rest ih => exact ih (agree.carryOut r)

end

/-! ### Slices that find no data -/

/-- The slice finds no data of its own, and leaves data of the host in its entry that
belongs to another slice. -/
def TakesInHostData (s : Device g D) (slice : SliceReq) : Prop :=
  s.manager.FindsNothing g (flashSliceMap g) slice ∧ ∃ p < nvmeBlocksPerSlice,
    ¬ slice.Writes slice.logicalSliceAddr p ∧
      hostWritten g s.issued (.buf (.dataBuf (s.manager.buf.lru.tail ()))) p = true

instance (s : Device g D) (slice : SliceReq) : Decidable (TakesInHostData s slice) :=
  inferInstanceAs (Decidable ((_ ∧ ¬ _ ∧ _) ∧ _))

/-- No slice takes in data of the host that was written elsewhere. -/
def HostInput.TakesInNothing (s : HostSession g D) (input : HostInput) : Prop :=
  ∀ d ∈ s.deviceInput input, ∀ slice, d = .consume slice → ¬ TakesInHostData s.device slice

instance (s : HostSession g D) (input : HostInput) : Decidable (input.TakesInNothing s) := by
  unfold HostInput.TakesInNothing
  infer_instance

/-- Data that came from the host was written to the block. -/
def WrittenIfFromHost (slices : List SliceReq) (lsa p : Nat) (fromHost : Bool) : Prop :=
  fromHost = true → lastWrite lsa p slices ≠ none

/-- The marks say what was written, as long as no slice takes in host data. -/
def MarksOk (s : Device g D) : Prop :=
  DeviceOk g (fun _ _ => true) (fun _ => false) (fun _ _ => false) WrittenIfFromHost s.manager s.issued

section
variable {m₀ : RequestPlace → Nat → D} {s s' : Device g D} {input : DeviceInput}

theorem MarksOk.init (bad : Nat → Nat → Bool) : MarksOk (initDevice g bad m₀) := by
  refine DeviceOk.init bad fun lsa l p fromHost => ?_
  cases l <;> cases fromHost

theorem MarksOk.consume (marks : MarksOk s) (ok : DeviceRunOk hostData erased m₀ s) {slice : SliceReq}
    (real : slice.logicalSliceAddr ≠ lsaNone)
    (fits : slice.nvmeBlockOffset + slice.numOfNvmeBlock ≤ nvmeBlocksPerSlice)
    (safe : EvictsSafely g s.manager slice) (clean : ¬ TakesInHostData s slice) {manager : BufferManager Ftl}
    {requests : List FlashRequest} (done : translateSlice g s.manager slice = some (manager, requests)) :
    DeviceOk g (fun _ _ => true) (fun _ => false) (fun _ _ => false) WrittenIfFromHost manager
      (s.issued ++ requests.map fun r => ⟨r.req, s.manager.slices.length⟩) := by
  obtain ⟨lists, maps⟩ := ok.slices.maps
  refine DeviceOk.consume marks ok.slices real safe ?_ done
  refine BufferManager.ReplayOk.consume marks.replay real fits (safe.mapsOnly maps) (translateSlice_consumes done)
    ?_ ?_ ?_
  · intro nothing p low unwritten fromHost
    obtain ⟨n, same⟩ := marks.same
    rw [same.entry] at fromHost
    exact absurd ⟨nothing, p, low, unwritten, fromHost⟩ clean
  · intro lsa p d unwritten written fromHost
    rw [lastWrite_append, if_neg unwritten]
    exact written fromHost
  · intro lsa p writes fromHost
    rw [lastWrite_append, if_pos writes]
    exact Option.some_ne_none _

theorem MarksOk.step (marks : MarksOk s) (ok : DeviceRunOk hostData erased m₀ s) (allowed : input.Allowed s)
    (clean : ∀ slice, input = .consume slice → ¬ TakesInHostData s slice)
    (done : deviceStep hostData erased s input = some s') : MarksOk s' := by
  have performed : ∀ op, s.perform hostData erased op = some s' → MarksOk s' := by
    intro op done
    simp only [Device.perform, Option.bind_eq_bind, Option.bind_eq_some_iff, Option.some.injEq] at done
    obtain ⟨t, -, rfl⟩ := done
    obtain ⟨manager, issued, -⟩ := Device.finish_foldl hostData erased { s with traced := t }
      (opFinishes g s.traced.fw op)
    unfold MarksOk
    rw [manager, issued]
    exact marks
  cases input with
  | consume slice =>
    simp only [deviceStep] at done
    split at done
    · cases done
    · simp only [Option.bind_eq_bind, Option.bind_eq_some_iff, Option.some.injEq, Prod.exists] at done
      obtain ⟨manager, requests, translated, rfl⟩ := done
      obtain ⟨real, fits, safe⟩ := allowed.1 slice rfl
      exact marks.consume ok real fits safe (clean slice rfl) translated
  | submit | request =>
    simp only [deviceStep, Option.bind_eq_bind, Option.bind_eq_some_iff] at done
    obtain ⟨op, -, done⟩ := done
    exact performed op done

end

/-! ### What is done does not depend on the data -/

/-- The firmware and the requests it has issued, without the data. -/
def Device.withoutData (s : Device g D) : Device g Unit where
  manager := s.manager
  issued := s.issued
  traced := s.traced
  memory _ _ := ()

theorem Device.withoutData_eq {E : Type} {s : Device g D} {t : Device g E} : t.withoutData = s.withoutData ↔
    t.manager = s.manager ∧ t.issued = s.issued ∧ t.traced = s.traced := by
  simp [withoutData]

/-- Two devices that differ in the data take the same steps. -/
theorem deviceStep_withoutData {s s' t t' : Device g D} {input : DeviceInput} (same : t.withoutData = s.withoutData)
    (done : deviceStep hostData erased s input = some s') (done' : deviceStep hostData' erased t input = some t') :
    t'.withoutData = s'.withoutData := by
  obtain ⟨manager, issued, traced⟩ := Device.withoutData_eq.mp same
  have next : t.next = s.next := by simp only [Device.next, issued, traced]
  have operation : t.operation input = s.operation input := by
    cases input <;> simp only [Device.operation, next]
  have performed : ∀ op, s.perform hostData erased op = some s' → t.perform hostData' erased op = some t' →
      t'.withoutData = s'.withoutData := by
    intro op done done'
    simp only [Device.perform, traced, Option.bind_eq_bind, Option.bind_eq_some_iff, Option.some.injEq] at done done'
    obtain ⟨u, step, rfl⟩ := done
    obtain ⟨u', step', rfl⟩ := done'
    cases step.symm.trans step'
    obtain ⟨manager₁, issued₁, traced₁⟩ := Device.finish_foldl hostData erased { s with traced := u }
      (opFinishes g s.traced.fw op)
    obtain ⟨manager₂, issued₂, traced₂⟩ := Device.finish_foldl hostData' erased { t with traced := u }
      (opFinishes g s.traced.fw op)
    rw [Device.withoutData_eq, manager₁, issued₁, traced₁, manager₂, issued₂, traced₂]
    exact ⟨manager, issued, rfl⟩
  cases input with
  | consume slice =>
    simp only [deviceStep, next, manager, issued] at done done'
    split at done
    · cases done
    · rename_i all
      simp only [all, Bool.false_eq_true, if_false, Option.bind_eq_bind, Option.bind_eq_some_iff, Option.some.injEq,
        Prod.exists] at done done'
      obtain ⟨m, requests, translated, rfl⟩ := done
      obtain ⟨m', requests', translated', rfl⟩ := done'
      cases translated.symm.trans translated'
      exact Device.withoutData_eq.mpr ⟨rfl, rfl, traced⟩
  | submit | request =>
    simp only [deviceStep, operation, Option.bind_eq_bind, Option.bind_eq_some_iff] at done done'
    obtain ⟨op, named, done⟩ := done
    obtain ⟨op', named', done'⟩ := done'
    cases named.symm.trans named'
    exact performed op done done'

/-- The session without the data. -/
def HostSession.withoutData (s : HostSession g D) : HostSession g Unit where
  device := s.device.withoutData
  fetched := s.fetched
  sliceReqQ := s.sliceReqQ

section
variable {cmds : List NvmeCommand} {data data' : Nat → Nat → D} {m₀ : RequestPlace → Nat → D}
  {s s' t t' : HostSession g D} {input : HostInput} {storageCapacityL : Nat}

theorem HostSession.withoutData_eq {E : Type} {t : HostSession g E} : t.withoutData = s.withoutData ↔
    t.device.withoutData = s.device.withoutData ∧ t.fetched = s.fetched ∧ t.sliceReqQ = s.sliceReqQ := by
  simp [withoutData]

theorem hostStep_withoutData (same : t.withoutData = s.withoutData)
    (done : hostStep cmds data erased storageCapacityL s input = some s')
    (done' : hostStep cmds data' erased storageCapacityL t input = some t') : t'.withoutData = s'.withoutData := by
  obtain ⟨device, fetched, sliceReqQ⟩ := HostSession.withoutData_eq.mp same
  have named : t.deviceInput input = s.deviceInput input := by
    cases input <;> simp only [HostSession.deviceInput, sliceReqQ]
  have rest : t.rest input = s.rest input := by
    cases input <;> simp only [HostSession.rest, sliceReqQ]
  rcases hostStep_cases done with ⟨none, c, here, handled, -, -, device₁, fetched₁⟩ | ⟨d, u, named₁, stepped, rfl⟩
  · rcases hostStep_cases done' with ⟨-, c', here', handled', -, -, device₂, fetched₂⟩ | ⟨d, u, named₂, -, -⟩
    · rw [fetched] at here'
      cases here.symm.trans here'
      refine HostSession.withoutData_eq.mpr ⟨by rw [device₁, device₂, device], by rw [fetched₁, fetched₂, fetched], ?_⟩
      exact Option.some.inj (handled'.symm.trans handled)
    · rw [named, none] at named₂
      cases named₂
  · rcases hostStep_cases done' with ⟨none, -⟩ | ⟨d', u', named₂, stepped', rfl⟩
    · rw [← named, none] at named₁
      cases named₁
    · rw [named] at named₂
      cases named₁.symm.trans named₂
      exact HostSession.withoutData_eq.mpr ⟨deviceStep_withoutData device stepped stepped', fetched, rest⟩

/-- What may be done next does not depend on the data. -/
theorem HostInput.Allowed.withoutData (same : t.withoutData = s.withoutData) (allowed : input.Allowed s) :
    input.Allowed t := by
  have without : input.Allowed s.withoutData := allowed
  rw [← same] at without
  exact without

end

/-! ### Two sessions -/

/-- A block delivered on two devices belongs to one READ slice, and has the same data on both
unless it was written before the slice. -/
def DeliversAlike (slices : List SliceReq) (d d' : Delivery D) : Prop :=
  ∃ slice, slices[d.slice]? = some slice ∧ slice.reqCode = .read ∧ slice.nvmeBlockOffset ≤ d.block ∧
    d.block < slice.nvmeBlockOffset + slice.numOfNvmeBlock ∧ d'.slice = d.slice ∧ d'.block = d.block ∧
    (lastWrite slice.logicalSliceAddr d.block (slices.take d.slice) = none → d'.data = d.data)

/-- A request delivers alike on two memories that agree outside the marks, if its blocks with
a mark were written. -/
theorem delivered_alike {slices : List SliceReq} {fromHost : RequestPlace → Nat → Bool}
    {m m' : RequestPlace → Nat → D} (agree : AgreeOutside fromHost m m') (r : LowLevelReq)
    (marks : ∀ d ∈ r.delivered fromHost, DeliversAs WrittenIfFromHost slices d) :
    List.Forall₂ (DeliversAlike slices) (r.delivered m) (r.delivered m') := by
  unfold LowLevelReq.delivered at marks ⊢
  cases entry : r.req.bufEntry with
  | none => exact .nil
  | some b =>
    simp only [entry, Option.elim_some, LowLevelReq.deliveries] at marks ⊢
    split
    · rename_i tx
      simp only [tx, if_true, List.mem_map] at marks
      rw [List.forall₂_map_left_iff, List.forall₂_map_right_iff, List.forall₂_same]
      intro i member
      obtain ⟨slice, listed, read, low, high, written⟩ := marks _ ⟨i, member, rfl⟩
      refine ⟨slice, listed, read, low, high, rfl, rfl, fun unwritten => (agree _ _ ?_).symm⟩
      by_contra marked
      exact written (by simpa using marked) unwritten
    · exact .nil

section
variable {m₀ : RequestPlace → Nat → D} {s t : Device g D}

/-- Two devices in the same order of completion deliver alike. -/
theorem Device.delivered_alike (ok : DeviceRunOk hostData erased m₀ s) (ok' : DeviceRunOk hostData' erased m₀ t)
    (same : t.withoutData = s.withoutData) (marks : MarksOk s) :
    List.Forall₂ (DeliversAlike s.manager.slices) s.delivered t.delivered := by
  obtain ⟨-, issued, traced⟩ := Device.withoutData_eq.mp same
  have start : AgreeOutside (fun _ _ => false) m₀ m₀ := fun _ _ _ => rfl
  have each : ∀ i, List.Forall₂ (DeliversAlike s.manager.slices) (deliveriesInOrder g hostData erased m₀ s.issued i)
      (deliveriesInOrder g hostData' erased m₀ s.issued i) := by
    intro i
    unfold deliveriesInOrder
    cases here : s.issued[i]? with
    | none => exact .nil
    | some r => exact OcpFw.delivered_alike (start.replay (s.issued.take i)) r (marks.delivers i r here)
  rw [ok.delivered, ok'.delivered, issued, traced]
  induction s.traced.finished with
  | nil => exact .nil
  | cons i rest ih =>
    rw [List.flatMap_cons, List.flatMap_cons]
    exact List.rel_append (each i) ih

end

/-- A block moved to the host in two sessions is one of a READ, and its data is the same in
both unless a WRITE before the READ covers it. -/
def BlocksAlike (cmds : List NvmeCommand) (b b' : HostBlock × D) : Prop :=
  b'.1 = b.1 ∧ ∃ c, cmds[b.1.command]? = some c ∧ c.opc = .read ∧ b.1.index ≤ c.cmd.nlb ∧
    ((∀ w ∈ cmds.take b.1.command, w.opc = .write → ¬ w.Covers (c.cmd.startLba + b.1.index)) → b'.2 = b.2)

section
variable {cmds : List NvmeCommand} {data data' : Nat → Nat → D} {m₀ : RequestPlace → Nat → D}
  {s s' t t' : HostSession g D} {input : HostInput} {storageCapacityL : Nat}

/-- What holds between two inputs of two sessions that differ in the data of the host. -/
structure SessionsAgree (cmds : List NvmeCommand) (data data' : Nat → Nat → D) (erased : Nat → D)
    (m₀ : RequestPlace → Nat → D) (s t : HostSession g D) : Prop where
  same : t.withoutData = s.withoutData
  first : HostOk cmds data erased m₀ s
  second : HostOk cmds data' erased m₀ t
  marks : MarksOk s.device

namespace SessionsAgree

theorem init (bad : Nat → Nat → Bool)
    (two : ∀ dieNo < g.userDies, 2 ≤ (goodBlocks (bad dieNo) g.userBlocksPerDie).length)
    (small : g.userPagesPerBlock < 4096) :
    SessionsAgree cmds data data' erased m₀ (initHostSession g bad m₀) (initHostSession g bad m₀) where
  same := rfl
  first := .init bad two small
  second := .init bad two small
  marks := .init bad

theorem step (small : g.userPagesPerBlock < 4096) (fits : storageCapacityL < 2 ^ 32)
    (ok : SessionsAgree cmds data data' erased m₀ s t) (allowed : input.Allowed s) (clean : input.TakesInNothing s)
    (done : hostStep cmds data erased storageCapacityL s input = some s')
    (done' : hostStep cmds data' erased storageCapacityL t input = some t') :
    SessionsAgree cmds data data' erased m₀ s' t' := by
  refine ⟨hostStep_withoutData ok.same done done', ok.first.step small fits allowed done,
    ok.second.step small fits (allowed.withoutData ok.same) done', ?_⟩
  rcases hostStep_cases done with ⟨-, c, -, -, -, -, device, -⟩ | ⟨d, device, named, stepped, rfl⟩
  · rw [device]
    exact ok.marks
  · exact ok.marks.step ok.first.device (ok.first.allowed allowed named) (clean d named) stepped

/-- What two sessions that agree have delivered. -/
theorem delivered (ok : SessionsAgree cmds data data' erased m₀ s t) :
    List.Forall₂ (BlocksAlike cmds) (s.delivered cmds) (t.delivered cmds) := by
  obtain ⟨device, -, -⟩ := HostSession.withoutData_eq.mp ok.same
  have alike := Device.delivered_alike ok.first.device ok.second.device device ok.marks
  unfold HostSession.delivered
  rw [List.forall₂_map_left_iff, List.forall₂_map_right_iff]
  refine alike.imp fun d d' own => ?_
  obtain ⟨slice, here, read, low, high, number, block, unwritten⟩ := own
  obtain ⟨n, c, i, named, fetched, command, opc, le, lsa, place, before⟩ := ok.first.block_of_slice here read low high
  simp only [BlocksAlike, number, block, named, true_and]
  refine ⟨c, command, opc, le, fun none => unwritten ?_⟩
  rw [before, ← lsa, ← place]
  exact lastWrite_of_unwritten (ok.first.admitted_take fetched) none

end SessionsAgree

end

end OcpFw
