import OcpFw.BlockTracking

/-! The requests of one block start in the order of its generations, as long as no
check lets a request pass an ERASE of the block that was submitted earlier and still
waits. The dependency entry of the block compares page numbers only, so that this has
to be asked. -/
namespace OcpFw
open RequestLayer
open Runs (Run exec run_of_exec_any)
open BlockReq (Disciplined Ordered Progress generation)

/-- A request to the block would pass its check although an ERASE that was submitted
earlier still waits. -/
def Overtakes (g : Geometry) (b : BlockAddr) (s : RequestLayer) (x : Nat) : Prop :=
  blockReq g b (s.reqPool x) ≠ none ∧ s.Permitted g x ∧
    ∃ y < availableOutstandingReqCount g, s.reqQueueType y = .blockedByRowAddrDep ∧
      blockReq g b (s.reqPool y) = some .erase ∧ s.submission y < s.submission x

instance (g : Geometry) (b : BlockAddr) (s : RequestLayer) (x : Nat) :
    Decidable (Overtakes g b s x) := by
  unfold Overtakes
  infer_instance

variable {g : Geometry} {b : BlockAddr} {s s' : RequestLayer} {held flight : Finset Nat} {x y i : Nat}
  {req : SsdReq} {r : BlockReq}

/-- The requests of the block that wait, and the block has progressed so far. -/
structure OrderOk (g : Geometry) (b : BlockAddr) (s : RequestLayer) (flight : Finset Nat) : Prop
    extends WaitingOk g b s flight where
  disciplined : Disciplined g.userPagesPerBlock (s.history g b)
  progress : ∃ e, Progress (s.history g b) s.started e (s.rowAddrDependency b).permittedProgPage

namespace OrderOk

/-- A request that overtakes no ERASE belongs to the open generation. -/
private theorem current (ok : OrderOk g b s flight) (waits : s.Waiting flight x) {e k : Nat}
    (progress : Progress (s.history g b) s.started e k)
    (kind : blockReq g b (s.reqPool x) = some r) (permitted : s.Permitted g x)
    (fair : ¬ Overtakes g b s x) : generation (s.history g b) (s.submission x) = e := by
  have here := ok.toWaitingOk.here waits
  rw [kind] at here
  apply progress.current here (ok.notStarted x waits)
  intro j before erase
  by_contra out
  obtain ⟨y, w, rfl⟩ := ok.covered j .erase erase out
  have kindY : blockReq g b (s.reqPool y) = some .erase := by
    have hereY := ok.toWaitingOk.here w
    rw [erase, Option.some.injEq] at hereY
    exact hereY.symm
  rcases w with held | row | inFlight
  · exact ok.eraseBlocked y held kindY
  · exact fair ⟨by simp [kind], permitted, y, ok.inPool y (.inr (.inl row)), row, kindY, before⟩
  · have newest := ok.newest y inFlight x waits
    omega

/-- A request of the block passes its check and starts. -/
theorem pass {select : Bool} (small : g.userPagesPerBlock < 4096) (ok : OrderOk g b s flight)
    (step : Concerns s s' x) (waits : s.Waiting flight x) (selects : select = true ↔ x ∈ flight)
    (kind : blockReq g b (s.reqPool x) = some r) (permitted : s.Permitted g x)
    (fair : ¬ Overtakes g b s x)
    (gone : s'.reqQueueType x ≠ .blockedByBufDep ∧ s'.reqQueueType x ≠ .blockedByRowAddrDep)
    (started : s'.started = s.started ++ [s.submission x])
    (entry : s'.rowAddrDependency b = (s.rowAddrDependency b).passed (s.reqPool x) select) :
    OrderOk g b s' (flight.erase x) := by
  obtain ⟨e, progress⟩ := ok.progress
  have gen := ok.current waits progress kind permitted fair
  have here := ok.toWaitingOk.here waits
  have out := ok.notStarted x waits
  have after := ok.toWaitingOk.pass step waits selects kind gone started entry
  have history := step.history g b
  obtain ⟨block, code⟩ := blockReq_cases kind
  have dependency : s.dependency g x = s.rowAddrDependency b := by rw [RequestLayer.dependency, block]
  unfold Permitted RowAddrDependency.Permits at permitted
  rw [dependency] at permitted
  rw [kind] at here
  refine ⟨after, history ▸ ok.disciplined, ?_⟩
  rw [history, started, entry]
  rcases code with ⟨code, rfl⟩ | ⟨code, rfl⟩ | ⟨code, rfl⟩ <;> simp only [code] at permitted <;>
    simp only [RowAddrDependency.passed, code]
  · rw [permitted] at here
    have page := ok.disciplined.pages _ _ here
    rw [inc12_of_lt (by omega)]
    exact ⟨e, progress.startWrite ok.disciplined here gen out⟩
  · have same : (if select = true then s.rowAddrDependency b else { s.rowAddrDependency b with
        blockedReadReqCnt := dec16 (s.rowAddrDependency b).blockedReadReqCnt }).permittedProgPage =
        (s.rowAddrDependency b).permittedProgPage := by
      split <;> rfl
    rw [same]
    exact ⟨e, progress.startRead here gen permitted out⟩
  · rw [(ok.whole x waits kind).1] at permitted
    rw [permitted.1] at progress
    refine ⟨e + 1, progress.startErase ok.disciplined here gen out fun j p read same => ?_⟩
    by_contra waiting
    obtain ⟨y, inFlight, rfl⟩ := ok.toWaitingOk.read_inFlight permitted.2 read waiting
    have newest := ok.newest y inFlight x waits
    have diff : s.submission x ≠ s.submission y := by
      intro eq
      rw [← eq, here] at read
      cases read
    have closed := BlockReq.generation_lt_of_erase here (j := s.submission y) (by omega)
    omega

end OrderOk

/-- The order of the block is followed as long as no request of it overtakes an ERASE. -/
theorem orderOk_tracks (small : g.userPagesPerBlock < 4096) :
    Tracks g b (fun s x => ¬ Overtakes g b s x) (OrderOk g b) where
  waiting ok := ok.toWaitingOk
  init := ⟨WaitingOk.init, Disciplined.init, 0, Progress.init⟩
  prepare := by
    intro s x req ok idle slot turn
    obtain ⟨e, progress⟩ := ok.progress
    refine ⟨ok.toWaitingOk.prepare idle slot turn, ?_, ?_⟩ <;> rw [prepare_history]
    · exact ok.disciplined.submit turn.1
    · exact ⟨e, progress.submit turn.1⟩
  stable := by
    rintro s s' x fair rows reqs table submission ⟨asks, permitted, y, slot, row, erase, earlier⟩
    rw [reqs] at asks erase
    rw [submission] at earlier
    have permitted' : s.Permitted g x := by
      unfold Permitted dependency at permitted ⊢
      rwa [reqs, table] at permitted
    exact fair ⟨asks, permitted', y, slot, (rows y).mp row, erase, earlier⟩
  pass ok step waits selects kind permitted fair gone started entry :=
    ok.pass small step waits selects kind permitted fair gone started entry
  pass_other := by
    intro s s' flight x ok step waits kind gone started entry
    obtain ⟨e, progress⟩ := ok.progress
    have history := step.history g b
    refine ⟨ok.toWaitingOk.pass_other step waits kind gone started entry,
      history ▸ ok.disciplined, ?_⟩
    rw [history, entry]
    rcases started with now | same
    · rw [now]
      exact ⟨e, progress.startOther (kind ▸ ok.toWaitingOk.here waits) (ok.notStarted x waits)⟩
    · rw [same]
      exact ⟨e, progress⟩
  refuse := by
    intro s s' flight x r select ok step req waits selects kind started blocked entry
    have history := step.history g b
    refine ⟨ok.toWaitingOk.refuse step req waits selects kind started blocked entry,
      history ▸ ok.disciplined, ?_⟩
    have same : (s'.rowAddrDependency b).permittedProgPage = (s.rowAddrDependency b).permittedProgPage := by
      rw [entry]
      split
      · exact RowAddrDependency.refused_permittedProgPage
      · rfl
    rw [history, started, same]
    exact ok.progress
  refuse_other := by
    intro s s' flight x ok step req waits kind started blocked entry
    have history := step.history g b
    refine ⟨ok.toWaitingOk.refuse_other step req waits kind started blocked entry,
      history ▸ ok.disciplined, ?_⟩
    rw [history, started, entry]
    exact ok.progress
  frame := by
    intro s s' flight ok types reqs submissions submission started entry
    have history : s'.history g b = s.history g b := by simp [RequestLayer.history, submissions]
    refine ⟨ok.toWaitingOk.frame types reqs submissions submission started entry,
      history ▸ ok.disciplined, ?_⟩
    rw [history, started, entry]
    exact ok.progress

/-! ### The invariant over whole runs -/

/-- The chains of the buffers, and the order of the block. -/
def BlockOk (g : Geometry) (b : BlockAddr) (s : RequestLayer) (held flight : Finset Nat) : Prop :=
  BuffersOk g s held flight ∧ OrderOk g b s flight

/-- No check that the operation makes lets a request of the block overtake an ERASE. -/
def NoneOvertakes (g : Geometry) (b : BlockAddr) (fw : Firmware) (op : RequestOp) : Prop :=
  ∀ p ∈ opChecks g fw op, ¬ Overtakes g b p.1 p.2

instance (g : Geometry) (b : BlockAddr) (fw : Firmware) (op : RequestOp) :
    Decidable (NoneOvertakes g b fw op) := by
  unfold NoneOvertakes
  infer_instance

/-- In every run whose operations submit to a block in turn, and in which no check lets a
request of the block pass while an ERASE submitted before it is still blocked, the block's
requests enter the NAND queue in the order of its generations. -/
theorem block_order_of_run {ops : List RequestOp} {fw : Firmware} (b : BlockAddr)
    (small : g.userPagesPerBlock < 4096)
    (run : Run (requestStep g) (fun fw op => OpInTurn g b fw op ∧ NoneOvertakes g b fw op)
      (initFirmware g) ops fw) :
    Ordered (fw.layer.history g b) fw.layer.started := by
  have ok : BlockOk g b fw.layer fw.held ∅ := (orderOk_tracks small).run run
  obtain ⟨e, progress⟩ := ok.2.progress
  exact progress.ordered

/-- A request to the first block of `tinyGeometry`. -/
def blockReqOf (reqCode : ReqCode) (pageNo : Nat) (entry : Option Nat) : SsdReq :=
  { reqType := .nand, reqCode, virtualSliceAddr := pageNo, rowAddrDependencyCheck := true
    dataBufFormat := if entry.isSome then .entry else .none
    dataBufInfo := entry.getD 0, programmedPageCnt := 2 }

/-- Two generations, the READ held back by the WRITE of the same entry. -/
theorem block_order_of_run_twoGenerations :
    ∃ fw, Run (requestStep tinyGeometry)
      (fun fw op => OpInTurn tinyGeometry ⟨0, 0, 0⟩ fw op ∧ NoneOvertakes tinyGeometry ⟨0, 0, 0⟩ fw op)
      (initFirmware tinyGeometry)
      [.alloc [], .submit 0 (blockReqOf .write 0 (some 0)) [],
        .alloc [], .submit 1 (blockReqOf .read 0 (some 0)) [],
        .alloc [], .submit 2 (blockReqOf .write 1 (some 1)) [],
        .alloc [], .submit 3 (blockReqOf .erase 0 none) [],
        .alloc [], .submit 4 (blockReqOf .write 0 (some 2)) [],
        .syncAll [.nandDone 0 0, .nandDone 0 0, .nandDone 0 0, .recheck 0 0, .nandDone 0 0,
          .nandDone 0 0]] fw ∧
      fw.layer.started = [0, 2, 1, 3, 4] ∧
      Ordered (fw.layer.history tinyGeometry ⟨0, 0, 0⟩) fw.layer.started := by
  have done : (exec (requestStep tinyGeometry)
      (fun fw op => OpInTurn tinyGeometry ⟨0, 0, 0⟩ fw op ∧ NoneOvertakes tinyGeometry ⟨0, 0, 0⟩ fw op)
      (initFirmware tinyGeometry)
      [.alloc [], .submit 0 (blockReqOf .write 0 (some 0)) [],
        .alloc [], .submit 1 (blockReqOf .read 0 (some 0)) [],
        .alloc [], .submit 2 (blockReqOf .write 1 (some 1)) [],
        .alloc [], .submit 3 (blockReqOf .erase 0 none) [],
        .alloc [], .submit 4 (blockReqOf .write 0 (some 2)) [],
        .syncAll [.nandDone 0 0, .nandDone 0 0, .nandDone 0 0, .recheck 0 0, .nandDone 0 0,
          .nandDone 0 0]]).any (fun fw => fw.layer.started = [0, 2, 1, 3, 4]) := by
    decide +kernel
  obtain ⟨fw, run, started⟩ := run_of_exec_any done
  exact ⟨fw, run, by simpa using started, block_order_of_run ⟨0, 0, 0⟩ (by decide) run⟩

/-- The last WRITE of the first generation waits for a transfer into its buffer, and the
ERASE for that WRITE; meanwhile the WRITE of the same page of the next generation passes. -/
theorem block_order_broken :
    ∃ ops fw, Run (requestStep tinyGeometry) (OpInTurn tinyGeometry ⟨0, 0, 0⟩)
      (initFirmware tinyGeometry) ops fw ∧
      ¬ Ordered (fw.layer.history tinyGeometry ⟨0, 0, 0⟩) fw.layer.started := by
  have done : (exec (requestStep tinyGeometry) (OpInTurn tinyGeometry ⟨0, 0, 0⟩)
      (initFirmware tinyGeometry)
      [.alloc [], .submit 0 (blockReqOf .write 0 (some 0)) [],
        .alloc [], .submit 1 { hostReadReq with reqCode := .rxDma, dataBufInfo := 1 } [],
        .alloc [], .submit 2 (blockReqOf .write 1 (some 1)) [],
        .alloc [], .submit 3 (blockReqOf .erase 0 none) [],
        .alloc [], .submit 4 (blockReqOf .write 0 (some 2)) [],
        .alloc [], .submit 5 (blockReqOf .write 1 (some 3)) []]).any
        (fun fw => fw.layer.started = [0, 5] ∧
          fw.layer.history tinyGeometry ⟨0, 0, 0⟩ = [some (.write 0), none, some (.write 1),
            some .erase, some (.write 0), some (.write 1)]) := by decide +kernel
  obtain ⟨fw, run, reached⟩ := run_of_exec_any done
  obtain ⟨started, history⟩ := of_decide_eq_true reached
  refine ⟨_, fw, run, fun ordered => ?_⟩
  have late := ordered.after 3 5
  rw [started, history] at late
  exact absurd (late (by simp [BlockReq.Precedes, generation]) (by simp)) (by decide)

end OcpFw
