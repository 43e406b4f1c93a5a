import OcpFw.BlockedReads

/-! The ERASE flag of a block stands for every ERASE of the block that waits in the queue
of the die. It goes up where an ERASE is refused while it is submitted, and down where one
passes; a second one that is still blocked then has no flag, so that this has to be excluded. -/
namespace OcpFw
open RequestLayer
open Runs (Run exec run_of_exec_any)

/-- An ERASE of the block would pass its check although another one is blocked. -/
def LeavesErase (g : Geometry) (b : BlockAddr) (s : RequestLayer) (x : Nat) : Prop :=
  blockReq g b (s.reqPool x) = some .erase ∧ s.Permitted g x ∧
    ∃ y < availableOutstandingReqCount g, y ≠ x ∧ s.reqQueueType y = .blockedByRowAddrDep ∧
      blockReq g b (s.reqPool y) = some .erase

instance (g : Geometry) (b : BlockAddr) (s : RequestLayer) (x : Nat) : Decidable (LeavesErase g b s x) := by
  unfold LeavesErase
  infer_instance

variable {g : Geometry} {b : BlockAddr} {s s' t : RequestLayer} {held flight : Finset Nat} {x : Nat}
  {req : SsdReq} {r : BlockReq} {select : Bool}

namespace RequestLayer

/-- Some ERASE of the block waits for its row address. -/
def EraseBlocked (g : Geometry) (b : BlockAddr) (s : RequestLayer) : Prop :=
  ∃ x, s.reqQueueType x = .blockedByRowAddrDep ∧ blockReq g b (s.reqPool x) = some .erase

/-- What does not touch an ERASE that is blocked. -/
theorem eraseBlocked_congr
    (same : ∀ y, (s'.reqQueueType y = .blockedByRowAddrDep ∧ blockReq g b (s'.reqPool y) = some .erase) ↔
      (s.reqQueueType y = .blockedByRowAddrDep ∧ blockReq g b (s.reqPool y) = some .erase)) :
    s'.EraseBlocked g b ↔ s.EraseBlocked g b :=
  exists_congr same

/-- A step that concerns a request which is no ERASE of the block. -/
theorem Concerns.eraseBlocked (step : Concerns s s' x) (kind : blockReq g b (s.reqPool x) ≠ some .erase)
    (after : s'.reqQueueType x = .blockedByRowAddrDep → s'.reqPool x = s.reqPool x) :
    s'.EraseBlocked g b ↔ s.EraseBlocked g b := by
  apply eraseBlocked_congr
  intro y
  by_cases same : y = x
  · subst same
    refine iff_of_false ?_ fun before => kind before.2
    rintro ⟨row, erase⟩
    exact kind (after row ▸ erase)
  · rw [step.types y same, step.reqs y same]

end RequestLayer

/-- The flag of the block is set while an ERASE of it is blocked. -/
structure FlagOk (g : Geometry) (b : BlockAddr) (s : RequestLayer) (flight : Finset Nat) : Prop where
  waiting : WaitingOk g b s flight
  flag : (s.rowAddrDependency b).blockedEraseReqFlag = true ↔ s.EraseBlocked g b

/-- Only an ERASE that passes clears the flag. -/
theorem RowAddrDependency.passed_flag {d : RowAddrDependency} :
    (d.passed req select).blockedEraseReqFlag =
      if req.reqCode = .erase then false else d.blockedEraseReqFlag := by
  unfold RowAddrDependency.passed
  split <;> rename_i code <;> cases select <;> simp_all

/-- Only an ERASE that is refused sets it. -/
theorem RowAddrDependency.refused_flag {d : RowAddrDependency} :
    (d.refused req).blockedEraseReqFlag = if req.reqCode = .erase then true else d.blockedEraseReqFlag := by
  unfold RowAddrDependency.refused
  split <;> simp_all

theorem reqCode_erase (kind : blockReq g b req = some r) : req.reqCode = .erase ↔ r = .erase := by
  obtain ⟨-, ⟨code, rfl⟩ | ⟨code, rfl⟩ | ⟨code, rfl⟩⟩ := blockReq_cases kind <;> simp [code]

theorem reqCode_read {p : Nat} (kind : blockReq g b req = some (.read p)) : req.reqCode = .read := by
  obtain ⟨-, ⟨-, same⟩ | ⟨code, -⟩ | ⟨-, same⟩⟩ := blockReq_cases kind
  · cases same
  · exact code
  · cases same

/-- The flag follows the ERASEs of the block as long as none passes while another is blocked. -/
theorem flagOk_tracks : Tracks g b (fun s x => ¬ LeavesErase g b s x) (FlagOk g b) where
  waiting ok := ok.waiting
  init := by
    refine ⟨WaitingOk.init, iff_of_false Bool.false_ne_true ?_⟩
    rintro ⟨x, row, -⟩
    simp only [reqQueueType, initRequestLayer, RequestQueues.initReqPool] at row
    split at row <;> cases row
  prepare := by
    intro s x req ok idle slot turn
    refine ⟨ok.waiting.prepare idle slot turn, ok.flag.trans (eraseBlocked_congr fun y => ?_).symm⟩
    by_cases same : y = x
    · subst same
      have type : (s.prepare y req).reqQueueType y = .none := idle
      simp [idle, type]
    · simp [RequestLayer.prepare, same]
  stable := by
    rintro s s' x fair rows reqs table submission ⟨erase, permitted, y, slot, diff, row, other⟩
    rw [reqs] at erase other
    have permitted' : s.Permitted g x := by
      unfold Permitted dependency at permitted ⊢
      rwa [reqs, table] at permitted
    exact fair ⟨erase, permitted', y, slot, diff, (rows y).mp row, other⟩
  pass := by
    intro s s' flight x r select ok step waits selects kind permitted fair gone started entry
    refine ⟨ok.waiting.pass step waits selects kind gone started entry, ?_⟩
    rw [entry, RowAddrDependency.passed_flag]
    split
    · rename_i code
      obtain rfl := (reqCode_erase kind).mp code
      refine iff_of_false Bool.false_ne_true ?_
      rintro ⟨y, row, other⟩
      have diff : y ≠ x := fun same => gone.2 (same ▸ row)
      rw [step.types y diff] at row
      rw [step.reqs y diff] at other
      exact fair ⟨kind, permitted, y, ok.waiting.inPool y (.inr (.inl row)), diff, row, other⟩
    · rename_i other
      have notErase : blockReq g b (s.reqPool x) ≠ some .erase := by
        rw [kind, ne_eq, Option.some.injEq]
        exact fun erase => other ((reqCode_erase kind).mpr erase)
      exact ok.flag.trans (step.eraseBlocked notErase fun row => absurd row gone.2).symm
  pass_other := by
    intro s s' flight x ok step waits kind gone started entry
    refine ⟨ok.waiting.pass_other step waits kind gone started entry, ?_⟩
    rw [entry]
    exact ok.flag.trans (step.eraseBlocked (by simp [kind]) fun row => absurd row gone.2).symm
  refuse := by
    intro s s' flight x r select ok step req waits selects kind started blocked entry
    refine ⟨ok.waiting.refuse step req waits selects kind started blocked entry, ?_⟩
    have notErase : r ≠ .erase → (s'.EraseBlocked g b ↔ s.EraseBlocked g b) := fun other =>
      step.eraseBlocked (by simpa [kind] using other) fun _ => req
    by_cases erase : r = .erase
    · subst erase
      have row : s'.reqQueueType x = .blockedByRowAddrDep :=
        blocked.elim (·.1) fun held => absurd kind held.2
      refine iff_of_true ?_ ⟨x, row, req ▸ kind⟩
      rw [entry]
      split
      · rw [RowAddrDependency.refused_flag, if_pos ((reqCode_erase kind).mpr rfl)]
      · rename_i notSelect
        have before : s.reqQueueType x = .blockedByRowAddrDep := by
          rcases waits with held | row | inFlight
          · exact absurd kind (ok.waiting.eraseBlocked x held)
          · exact row
          · exact absurd (selects.mpr inFlight) notSelect
        exact ok.flag.mpr ⟨x, before, kind⟩
    · rw [entry]
      split
      · rw [RowAddrDependency.refused_flag, if_neg (fun code => erase ((reqCode_erase kind).mp code))]
        exact ok.flag.trans (notErase erase).symm
      · exact ok.flag.trans (notErase erase).symm
  refuse_other := by
    intro s s' flight x ok step req waits kind started blocked entry
    refine ⟨ok.waiting.refuse_other step req waits kind started blocked entry, ?_⟩
    rw [entry]
    exact ok.flag.trans (step.eraseBlocked (by simp [kind]) fun _ => req).symm
  frame := by
    intro s s' flight ok types reqs submissions submission started entry
    refine ⟨ok.waiting.frame types reqs submissions submission started entry, ?_⟩
    rw [entry]
    refine ok.flag.trans (eraseBlocked_congr fun y => ?_).symm
    constructor
    · rintro ⟨row, erase⟩
      have before := (types y (.inr (.inl row))).symm.trans row
      exact ⟨before, reqs y (.inr (.inl before)) ▸ erase⟩
    · rintro ⟨row, erase⟩
      exact ⟨(types y (.inr (.inr (.inr row)))).trans row, (reqs y (.inr (.inl row))).symm ▸ erase⟩

/-! ### A READ waits for the ERASEs before it -/

/-- Placing a READ that is submitted does not touch the flag. -/
theorem RequestLayer.Placed.read_flag {p : Nat} (placed : Placed g s x true s')
    (kind : blockReq g b (s.reqPool x) = some (.read p))
    (check : (s.reqPool x).rowAddrDependencyCheck = true) :
    (s'.rowAddrDependency b).blockedEraseReqFlag = (s.rowAddrDependency b).blockedEraseReqFlag := by
  have block := (blockReq_cases kind).1
  have read := reqCode_read kind
  rcases placed.cases with ⟨-, info, hostDma, rfl⟩ |
    ⟨-, chNo, wayNo, -, ⟨unchecked, -⟩ | ⟨-, -, rfl⟩ | ⟨-, -, rfl⟩⟩
  · rfl
  · rw [check] at unchecked
    cases unchecked
  · simp [putToNandReqQ, RequestLayer.passed, updateDependency, setDependency, dependency, block,
      RowAddrDependency.passed_flag, read]
  · change ((s.refused g x true).rowAddrDependency b).blockedEraseReqFlag = _
    rw [refused_dependency kind]
    simp [RowAddrDependency.refused_flag, read]

/-- Nor does holding it back. -/
theorem hold_read_flag {p : Nat} (kind : blockReq g b (s.reqPool x) = some (.read p)) :
    ((s.hold g x).rowAddrDependency b).blockedEraseReqFlag =
      (s.rowAddrDependency b).blockedEraseReqFlag := by
  have read := reqCode_read kind
  by_cases checked : (s.reqPool x).reqType = .nand ∧ (s.reqPool x).rowAddrDependencyCheck = true
  · rw [hold_checked checked, refused_dependency kind]
    simp [RowAddrDependency.refused_flag, read]
  · rw [hold_unchecked checked]

/-- Once a READ is submitted no ERASE of its block is blocked. -/
theorem read_settles {p : Nat} {es : List Event} (ok : BuffersOk g s held flight ∧ FlagOk g b s flight)
    (member : x ∈ flight) (kind : blockReq g b (s.reqPool x) = some (.read p))
    (met : ∀ c ∈ s.selectChecks g es x, ¬ LeavesErase g b c.1 c.2)
    (done : s.selectLowLevelReqQ g es x = some s') :
    (s'.rowAddrDependency b).blockedEraseReqFlag = false := by
  have block := (blockReq_cases kind).1
  have read := reqCode_read kind
  have type : (s.reqPool x).reqType = .nand ∧ (s.reqPool x).nandAddr = .vsa := by
    unfold blockReq at kind
    split at kind
    · rename_i here
      exact ⟨here.1, here.2.1⟩
    · cases kind
  have check := ok.2.waiting.checked x (.inr (.inr member)) (by simp [kind])
  have clear : ¬ s.WaitsForErase g x → (s.rowAddrDependency b).blockedEraseReqFlag = false := by
    intro now
    rw [← Bool.not_eq_true]
    intro set
    refine now ⟨type.1, ⟨check, type.2, .inl read⟩, read, ?_⟩
    rwa [dependency, block]
  rcases selectLowLevelReqQ_cases done with ⟨now, -, placed⟩ | ⟨now, -, -, rfl⟩ | ⟨waits, t, ran, after⟩
  · rw [placed.read_flag kind check, clear now]
  · rw [hold_read_flag kind, clear now]
  · have down := selectLowLevelReqQ_clear done waits ran
    rw [block] at down
    simp only [selectChecks, waits, ↓reduceIte, ran, List.forall_mem_append] at met
    obtain ⟨same, kept⟩ := events_undisturbed flagOk_tracks.events ok met.1 ran member
    rcases after same kept with ⟨-, placed⟩ | ⟨-, -, rfl⟩
    · rw [placed.read_flag (same ▸ kind) (same ▸ check), down]
    · rw [hold_read_flag (same ▸ kind), down]

/-! ### The flag over whole runs -/

/-- The flag of the block tells whether an ERASE of it waits in the queue of its die. -/
structure FlagExact (g : Geometry) (b : BlockAddr) (s : RequestLayer) (queued : ReqQueue → List Nat) :
    Prop where
  wellFormed : Dll.Holds reqSlotTagNone s.queues.links queued
  exact : (s.rowAddrDependency b).blockedEraseReqFlag = true ↔
    ∃ x ∈ queued (.blockedByRowAddrDep b.chNo b.wayNo), blockReq g b (s.reqPool x) = some .erase

/-- A blocked ERASE is in the queue of its die. -/
theorem eraseBlocked_iff {queued : ReqQueue → List Nat} (queues : QueuesOk g s.queues queued) (rows : RowOk g s) :
    s.EraseBlocked g b ↔
      ∃ x ∈ queued (.blockedByRowAddrDep b.chNo b.wayNo), blockReq g b (s.reqPool x) = some .erase := by
  obtain ⟨queued', queuesOk, die⟩ := rows
  cases queuesOk.holds.unique queues.holds
  constructor
  · rintro ⟨x, row, erase⟩
    refine ⟨x, ?_, erase⟩
    obtain ⟨chNo, -, wayNo, -, listed⟩ := queues.mem_rowAddrDep row
    have own := (die chNo wayNo x listed).2
    unfold blockReq at erase
    split at erase
    · rename_i here
      simp only [nandDie, here.2.1, here.2.2, Prod.mk.injEq] at own
      rw [own.1, own.2]
      exact listed
    · cases erase
  · rintro ⟨x, listed, erase⟩
    exact ⟨x, queues.typed _ x listed, erase⟩

/-- No check that the operation makes lets an ERASE of the block pass while another one is blocked. -/
def NoneLeavesErase (g : Geometry) (b : BlockAddr) (fw : Firmware) (op : RequestOp) : Prop :=
  ∀ p ∈ opChecks g fw op, ¬ LeavesErase g b p.1 p.2

instance (g : Geometry) (b : BlockAddr) (fw : Firmware) (op : RequestOp) :
    Decidable (NoneLeavesErase g b fw op) := by
  unfold NoneLeavesErase
  infer_instance

/-- In every run whose operations submit to a block in turn, and in which no check lets an
ERASE of the block pass while another one is blocked, the flag is exact between two
operations, and a READ that is submitted leaves no ERASE of the block pending. -/
theorem blockedEraseReqFlag_of_run {ops : List RequestOp} {fw : Firmware} (b : BlockAddr)
    (run : Run (requestStep g) (fun fw op => OpInTurn g b fw op ∧ NoneLeavesErase g b fw op)
      (initFirmware g) ops fw) :
    (∃ queued, FlagExact g b fw.layer queued) ∧
    ∀ x req es p fw', blockReq g b req = some (.read p) → OpInTurn g b fw (.submit x req es) →
      NoneLeavesErase g b fw (.submit x req es) → requestStep g fw (.submit x req es) = some fw' →
      ∃ queued, Dll.Holds reqSlotTagNone fw'.layer.queues.links queued ∧
        ∀ y ∈ queued (.blockedByRowAddrDep b.chNo b.wayNo), blockReq g b (fw'.layer.reqPool y) ≠ some .erase := by
  have ok := flagOk_tracks.run run
  have counted := countedOk_of_run b (run.mono fun _ _ _ => trivial)
  constructor
  · obtain ⟨queued, queues⟩ := counted.slots.queued
    exact ⟨queued, queues.holds, ok.2.flag.trans (eraseBlocked_iff queues counted.rows)⟩
  · intro x req es p fw' kind turn met step
    have after := flagOk_tracks.step ok turn met step
    have counted' := countedOk_of_run b ((run.mono fun _ _ _ => trivial).snoc trivial step)
    obtain ⟨queued, queues⟩ := counted'.slots.queued
    refine ⟨queued, queues.holds, fun y listed erase => ?_⟩
    have set := after.2.flag.mpr ((eraseBlocked_iff queues counted'.rows).mpr ⟨y, listed, erase⟩)
    simp only [requestStep] at step
    split at step
    · rename_i allowed
      simp only [Option.bind_eq_bind, Option.bind_eq_some_iff, Option.some.injEq] at step
      obtain ⟨t, submitted, rfl⟩ := step
      have start := flagOk_tracks.submit ok allowed.1 turn
      have mine : (fw.layer.prepare x req).reqPool x = req := by simp [RequestLayer.prepare]
      have clear := read_settles start (Finset.mem_singleton_self x) (mine.symm ▸ kind) met submitted
      rw [clear] at set
      cases set
    · cases step

/-- The ERASE of the first generation waits for its second WRITE, which waits for a write-back. -/
theorem blockedEraseReqFlag_of_run_blockedErase :
    ∃ fw, Run (requestStep tinyGeometry)
      (fun fw op => OpInTurn tinyGeometry ⟨0, 0, 0⟩ fw op ∧ NoneLeavesErase tinyGeometry ⟨0, 0, 0⟩ fw op)
      (initFirmware tinyGeometry)
      [.alloc [], .submit 0 (blockReqOf .write 0 (some 0)) [],
        .alloc [], .submit 1 (blockReqOf .write 1 (some 0)) [],
        .alloc [], .submit 2 (blockReqOf .erase 0 none) [],
        .alloc [], .submit 3 (blockReqOf .write 0 (some 1)) []] fw ∧
      (fw.layer.rowAddrDependency ⟨0, 0, 0⟩).blockedEraseReqFlag = true ∧
      ∃ queued, FlagExact tinyGeometry ⟨0, 0, 0⟩ fw.layer queued := by
  have done : (exec (requestStep tinyGeometry)
      (fun fw op => OpInTurn tinyGeometry ⟨0, 0, 0⟩ fw op ∧ NoneLeavesErase tinyGeometry ⟨0, 0, 0⟩ fw op)
      (initFirmware tinyGeometry)
      [.alloc [], .submit 0 (blockReqOf .write 0 (some 0)) [],
        .alloc [], .submit 1 (blockReqOf .write 1 (some 0)) [],
        .alloc [], .submit 2 (blockReqOf .erase 0 none) [],
        .alloc [], .submit 3 (blockReqOf .write 0 (some 1)) []]).any
      (fun fw => (fw.layer.rowAddrDependency ⟨0, 0, 0⟩).blockedEraseReqFlag) = true := by decide +kernel
  obtain ⟨fw, run, flag⟩ := run_of_exec_any done
  exact ⟨fw, run, flag, (blockedEraseReqFlag_of_run ⟨0, 0, 0⟩ run).1⟩

/-- While the first ERASE of the block waits for a WRITE that is held back, the WRITEs of the
next generation pass, and the second ERASE after them: the flag is clear, and the first one
is still blocked. -/
theorem blockedEraseReqFlag_stale :
    ∃ ops fw, Run (requestStep tinyGeometry) (fun fw op => ∀ b, OpInTurn tinyGeometry b fw op)
      (initFirmware tinyGeometry) ops fw ∧
      (fw.layer.rowAddrDependency ⟨0, 0, 0⟩).blockedEraseReqFlag = false ∧
      ∃ queued, Dll.Holds reqSlotTagNone fw.layer.queues.links queued ∧
        ∃ x ∈ queued (.blockedByRowAddrDep 0 0),
          blockReq tinyGeometry ⟨0, 0, 0⟩ (fw.layer.reqPool x) = some .erase := by
  have done : (exec (requestStep tinyGeometry)
      (fun fw op => OpInTurn tinyGeometry ⟨0, 0, 0⟩ fw op ∧ SubmitsTo tinyGeometry ⟨0, 0, 0⟩ op)
      (initFirmware tinyGeometry)
      [.alloc [], .submit 0 (blockReqOf .write 0 (some 0)) [],
        .alloc [], .submit 1 { hostReadReq with reqCode := .rxDma, dataBufInfo := 1 } [],
        .alloc [], .submit 2 (blockReqOf .write 1 (some 1)) [],
        .alloc [], .submit 3 (blockReqOf .erase 0 none) [],
        .alloc [], .submit 4 (blockReqOf .write 0 (some 2)) [],
        .alloc [], .submit 5 (blockReqOf .write 1 (some 3)) [],
        .alloc [], .submit 6 (blockReqOf .erase 0 none) []]).any
      (fun fw => (fw.layer.rowAddrDependency ⟨0, 0, 0⟩).blockedEraseReqFlag = false ∧
        fw.layer.reqQueueType 3 = .blockedByRowAddrDep ∧
        blockReq tinyGeometry ⟨0, 0, 0⟩ (fw.layer.reqPool 3) = some .erase) = true := by decide +kernel
  obtain ⟨fw, run, shown⟩ := run_of_exec_any done
  obtain ⟨flag, row, erase⟩ := of_decide_eq_true shown
  have turn : Run (requestStep tinyGeometry) (fun fw op => ∀ b, OpInTurn tinyGeometry b fw op)
      (initFirmware tinyGeometry) _ fw := run.mono fun _ _ met b => met.2.inTurn met.1 b
  have counted := countedOk_of_run ⟨0, 0, 0⟩ (turn.mono fun _ _ _ => trivial)
  obtain ⟨queued, queues⟩ := counted.slots.queued
  exact ⟨_, fw, turn, flag, queued, queues.holds, (eraseBlocked_iff queues counted.rows).mp ⟨3, row, erase⟩⟩

end OcpFw
