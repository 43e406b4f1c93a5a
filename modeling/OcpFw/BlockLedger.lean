import OcpFw.BlockTally
import OcpFw.BlockedReads

/-! A die does not get stuck on row addresses. The entry of a block counts the requests of
the block that started well enough for one of those that wait to pass its check, even when
requests of two generations wait together; only a request that waits for a buffer can keep
the others from it. -/
namespace OcpFw
open RequestLayer
open Runs (Run exec run_of_exec_any)
open BlockReq (Tallied Tally Startable)

variable {g : Geometry} {b : BlockAddr} {s s' t : RequestLayer} {held flight : Finset Nat} {x : Nat}
  {req : SsdReq} {r : BlockReq} {queued : ReqQueue → List Nat}

/-- The requests that wait, the block's discipline in numbers, and its entry in numbers. What
is being submitted is the last of the history. -/
structure LedgerOk (g : Geometry) (b : BlockAddr) (s : RequestLayer) (flight : Finset Nat) : Prop where
  waiting : WaitingOk g b s flight
  last : ∀ x ∈ flight, s.submission x + 1 = s.submissions.length
  checkable : ∀ x, s.reqQueueType x = .blockedByRowAddrDep → Checkable (s.reqPool x)
  tallied : Tallied g.userPagesPerBlock (s.history g b)
  tally : Tally g.userPagesPerBlock (s.history g b) s.started (s.rowAddrDependency b).permittedProgPage

namespace LedgerOk

/-- A step that concerns one slot leaves what waits for a row address checkable. -/
private theorem step_checkable (ok : LedgerOk g b s flight) (step : Concerns s s' x)
    (mine : s'.reqQueueType x = .blockedByRowAddrDep → Checkable (s'.reqPool x)) :
    ∀ y, s'.reqQueueType y = .blockedByRowAddrDep → Checkable (s'.reqPool y) := by
  intro y row
  by_cases same : y = x
  · subst same
    exact mine row
  · rw [step.reqs y same]
    exact ok.checkable y (step.types y same ▸ row)

private theorem step_last (ok : LedgerOk g b s flight) (step : Concerns s s' x) :
    ∀ y ∈ flight.erase x, s'.submission y + 1 = s'.submissions.length := by
  intro y listed
  rw [step.submission, step.submissions]
  exact ok.last y (Finset.mem_of_mem_erase listed)

/-- A request of the block that passes its check is entered in the tally. -/
private theorem pass_tally {select : Bool} (small : g.userPagesPerBlock < 4096) (ok : LedgerOk g b s flight)
    (waits : s.Waiting flight x) (kind : blockReq g b (s.reqPool x) = some r) (permitted : s.Permitted g x) :
    Tally g.userPagesPerBlock (s.history g b) (s.started ++ [s.submission x])
      ((s.rowAddrDependency b).passed (s.reqPool x) select).permittedProgPage := by
  have here := ok.waiting.here waits
  have out := ok.waiting.notStarted x waits
  obtain ⟨block, code⟩ := blockReq_cases kind
  unfold Permitted RowAddrDependency.Permits at permitted
  rw [dependency, block] at permitted
  rw [kind] at here
  rcases code with ⟨code, rfl⟩ | ⟨code, rfl⟩ | ⟨code, rfl⟩ <;> simp only [code] at permitted
  · rw [permitted] at here
    have page := ok.tallied.pages _ _ here
    simp only [RowAddrDependency.passed, code]
    rw [inc12_of_lt (by omega)]
    exact ok.tally.startWrite here out page
  · have same : ((s.rowAddrDependency b).passed (s.reqPool x) select).permittedProgPage =
        (s.rowAddrDependency b).permittedProgPage := by
      simp only [RowAddrDependency.passed, code]
      split <;> rfl
    rw [same]
    refine ok.tally.start (List.getElem?_eq_some_iff.mp here).1 out ?_
    intro r' listed
    rw [here, Option.some.injEq, Option.some.injEq] at listed
    exact ⟨_, listed.symm⟩
  · rw [(ok.waiting.whole x waits kind).1] at permitted
    have tally := ok.tally
    rw [permitted.1] at tally
    simp only [RowAddrDependency.passed, code]
    refine tally.startErase here out fun j p waitsToo read => ?_
    obtain ⟨y, inFlight, rfl⟩ := ok.waiting.read_inFlight permitted.2 read waitsToo
    have last := ok.last y inFlight
    have length : (s.history g b).length = s.submissions.length := by simp [RequestLayer.history]
    rw [← BlockReq.generation_length, length, ← last, BlockReq.generation_succ read]
    simp

end LedgerOk

/-- The tally of a block is kept by whatever the request layer does. -/
theorem ledgerOk_tracks (small : g.userPagesPerBlock < 4096) : Tracks g b (fun _ _ => True) (LedgerOk g b) where
  waiting ok := ok.waiting
  init := by
    refine ⟨WaitingOk.init, by simp, fun x row => ?_, Tallied.init, Tally.init⟩
    simp only [reqQueueType, initRequestLayer, RequestQueues.initReqPool] at row
    split at row <;> cases row
  prepare := by
    intro s x req ok idle slot turn
    refine ⟨ok.waiting.prepare idle slot turn, ?_, ?_, ?_, ?_⟩
    · simp [RequestLayer.prepare]
    · intro y row
      have before : s.reqQueueType y = .blockedByRowAddrDep := row
      have diff : y ≠ x := by
        rintro rfl
        rw [idle] at before
        cases before
      simpa [RequestLayer.prepare, diff] using ok.checkable y before
    · rw [prepare_history]
      exact ok.tallied.submit turn.1
    · rw [prepare_history]
      exact ok.tally.submit _
  stable _ _ _ _ _ := trivial
  pass := by
    intro s s' flight x r select ok step waits selects kind permitted _ gone started entry
    refine ⟨ok.waiting.pass step waits selects kind gone started entry, ok.step_last step,
      ok.step_checkable step fun row => absurd row gone.2, step.history g b ▸ ok.tallied, ?_⟩
    rw [step.history g b, started, entry]
    exact ok.pass_tally small waits kind permitted
  pass_other := by
    intro s s' flight x ok step waits kind gone started entry
    refine ⟨ok.waiting.pass_other step waits kind gone started entry, ok.step_last step,
      ok.step_checkable step fun row => absurd row gone.2, step.history g b ▸ ok.tallied, ?_⟩
    rw [step.history g b, entry]
    rcases started with now | same
    · have here := ok.waiting.here waits
      rw [now]
      refine ok.tally.start (List.getElem?_eq_some_iff.mp here).1 (ok.waiting.notStarted x waits) ?_
      intro r listed
      rw [here, kind] at listed
      cases listed
    · rw [same]
      exact ok.tally
  refuse := by
    intro s s' flight x r select ok step req waits selects kind started blocked entry
    refine ⟨ok.waiting.refuse step req waits selects kind started blocked entry, ok.step_last step,
      ok.step_checkable step fun row => ?_, step.history g b ▸ ok.tallied, ?_⟩
    · rw [req]
      exact blocked.elim (·.2.2) fun held => by rw [held.1] at row; cases row
    · have same : (s'.rowAddrDependency b).permittedProgPage = (s.rowAddrDependency b).permittedProgPage := by
        rw [entry]
        split
        · exact RowAddrDependency.refused_permittedProgPage
        · rfl
      rw [step.history g b, started, same]
      exact ok.tally
  refuse_other := by
    intro s s' flight x ok step req waits kind started blocked entry
    refine ⟨ok.waiting.refuse_other step req waits kind started blocked entry, ok.step_last step,
      ok.step_checkable step fun row => ?_, step.history g b ▸ ok.tallied, ?_⟩
    · rw [req]
      exact blocked.elim (·.2.2) fun held => by rw [held.1] at row; cases row
    · rw [step.history g b, started, entry]
      exact ok.tally
  frame := by
    intro s s' flight ok types reqs submissions submission started entry
    have history : s'.history g b = s.history g b := by simp [RequestLayer.history, submissions]
    refine ⟨ok.waiting.frame types reqs submissions submission started entry, ?_, ?_, history ▸ ok.tallied, ?_⟩
    · intro y listed
      rw [submission, submissions]
      exact ok.last y listed
    · intro y row
      have before := (types y (.inr (.inl row))).symm.trans row
      rw [reqs y (.inr (.inl before))]
      exact ok.checkable y before
    · rw [history, started, entry]
      exact ok.tally

/-! ### One request passes -/

/-- While a request of the block waits for its row address, and none for a buffer, one of
those that wait for their row address passes its check. What is being submitted meanwhile
can only be a READ. -/
theorem LedgerOk.exists_permitted (ok : LedgerOk g b s flight)
    (coming : ∀ y ∈ flight, (s.reqPool y).reqCode = .read)
    (free : ∀ y, s.reqQueueType y = .blockedByBufDep → blockReq g b (s.reqPool y) = none)
    (row : s.reqQueueType x = .blockedByRowAddrDep) (out : x ∉ flight)
    (kind : blockReq g b (s.reqPool x) = some r) :
    ∃ y, s.reqQueueType y = .blockedByRowAddrDep ∧ blockReq g b (s.reqPool y) ≠ none ∧ s.Permitted g y := by
  have waits : s.Waiting flight x := .inr (.inl row)
  have here := ok.waiting.here waits
  rw [kind] at here
  have reads : ∀ j ∈ flight.image s.submission, ∀ q, (s.history g b)[j]? = some (some q) →
      ∃ p, q = .read p := by
    intro j member q listed
    obtain ⟨y, inFlight, rfl⟩ := Finset.mem_image.mp member
    rw [ok.waiting.here (.inr (.inr inFlight)), Option.some.injEq] at listed
    have code := coming y inFlight
    obtain ⟨-, ⟨other, -⟩ | ⟨-, rfl⟩ | ⟨other, -⟩⟩ := blockReq_cases listed
    · rw [code] at other
      cases other
    · exact ⟨_, rfl⟩
    · rw [code] at other
      cases other
  have notFlight : s.submission x ∉ flight.image s.submission :=
    fun member => out ((ok.waiting.mem_stamps waits).mp member)
  obtain ⟨j, q, first, second, listed, startable⟩ := ok.tally.exists_startable ok.tallied reads here
    (ok.waiting.notStarted x waits) notFlight
  obtain ⟨y, waitsToo, rfl⟩ := ok.waiting.covered j q listed first
  have kindToo : blockReq g b (s.reqPool y) = some q := by
    have own := ok.waiting.here waitsToo
    rw [listed, Option.some.injEq] at own
    exact own.symm
  have rowToo : s.reqQueueType y = .blockedByRowAddrDep := by
    rcases waitsToo with held | row | inFlight
    · rw [free y held] at kindToo
      cases kindToo
    · exact row
    · exact absurd (Finset.mem_image_of_mem _ inFlight) second
  refine ⟨y, rowToo, by simp [kindToo], ?_⟩
  obtain ⟨block, code⟩ := blockReq_cases kindToo
  unfold Permitted RowAddrDependency.Permits
  rw [dependency, block]
  rcases code with ⟨code, rfl⟩ | ⟨code, rfl⟩ | ⟨code, rfl⟩ <;> simp only [code]
  · exact startable
  · exact startable
  · obtain ⟨full, none⟩ := startable
    refine ⟨full.trans (ok.waiting.whole y waitsToo kindToo).1.symm, ?_⟩
    rw [ok.waiting.counted, Finset.card_eq_zero, Finset.eq_empty_iff_forall_notMem]
    intro i member
    obtain ⟨⟨p, read⟩, waiting, settled⟩ := WaitingOk.mem_readsWaiting.mp member
    exact none i p waiting settled read

/-! ### The loop over the blocked queue of a die -/

/-- The loop meets no assertion, it takes nothing back from the NAND queue, and if one of the
requests it visits passes its check, some request moves there. -/
theorem scan_moves {chNo wayNo turns : Nat} {before rest : List Nat} (queues : QueuesOk g s.queues queued)
    (shape : queued (.blockedByRowAddrDep chNo wayNo) = before ++ rest) (enough : rest.length ≤ turns)
    (checkable : ∀ x ∈ rest, Checkable (s.reqPool x)) :
    ∃ s' queued', scanBlockedByRowAddrDep g chNo wayNo turns s (rest.headD reqSlotTagNone) = some s' ∧
      QueuesOk g s'.queues queued' ∧ (∀ x ∈ queued (.nand chNo wayNo), x ∈ queued' (.nand chNo wayNo)) ∧
      ((∃ x ∈ rest, s.Permitted g x) → ∃ x ∈ rest, x ∈ queued' (.nand chNo wayNo)) := by
  induction turns generalizing s queued before rest with
  | zero =>
    obtain rfl : rest = [] := List.length_eq_zero_iff.mp (by omega)
    exact ⟨s, queued, rfl, queues, fun _ listed => listed, by simp⟩
  | succ turns ih =>
    cases rest with
    | nil => exact ⟨s, queued, rfl, queues, fun _ listed => listed, by simp⟩
    | cons y rest =>
      have member : y ∈ queued (.blockedByRowAddrDep chNo wayNo) := by simp [shape]
      have real : y ≠ reqSlotTagNone := queues.ne_none (by rw [shape]; simp)
      have next : s.queues.links.next y = rest.headD reqSlotTagNone := (queues.holds.links shape).2
      have check := checkable y (List.mem_cons_self ..)
      obtain ⟨pass, u, checked⟩ := @checkRowAddrDep_isSome g s y false check
      obtain ⟨t, turn⟩ : ∃ t, s.recheckRowAddrDep g y chNo wayNo = some t := by
        unfold recheckRowAddrDep
        rw [if_pos check.1, show CheckRowAddrDepOpt.release = settled false from rfl, checked]
        cases pass <;> exact ⟨_, rfl⟩
      have length : rest.length ≤ turns := by simpa using enough
      rw [List.headD_cons, scanBlockedByRowAddrDep, if_neg real]
      simp only [turn, Option.bind_eq_bind, Option.bind_some, next]
      obtain ⟨-, ⟨permitted, after⟩ | ⟨blocked, rfl⟩⟩ := recheckRowAddrDep_cases turn
      · obtain ⟨notLeft, -, -⟩ := queues.holds.split_ne shape
        have none : (s.queues.selectiveGetFromBlockedByRowAddrDepReqQ y chNo wayNo).reqQueueType y = .none :=
          Function.update_self ..
        have exist : (ReqQueue.nand chNo wayNo).Exists g :=
          queues.exist (.blockedByRowAddrDep chNo wayNo) (List.ne_nil_of_mem member)
        have moves := (queues.selectiveGetFrom member).putTo (q := .nand chNo wayNo) exist
          (queues.slot _ y member) none
        have turned : t.queues = (s.queues.selectiveGetFrom (.blockedByRowAddrDep chNo wayNo) y).putTo
            (.nand chNo wayNo) y := by rw [after]; rfl
        rw [← turned] at moves
        have same : t.reqPool = s.reqPool := by rw [after]; rfl
        obtain ⟨s', queued', done, after, kept, -⟩ := @ih t _ before rest moves
          (by simp [shape, List.erase_append_right _ notLeft]) length
          (fun z listed => same ▸ checkable z (List.mem_cons_of_mem _ listed))
        refine ⟨s', queued', done, after, fun z listed => kept z ?_, fun _ => ⟨y, List.mem_cons_self .., ?_⟩⟩
        · simp [listed]
        · exact kept y (by simp)
      · obtain ⟨s', queued', done, after, kept, moved⟩ := @ih _ _ (before ++ [y]) rest queues
          (by simp [shape]) length (fun z listed => checkable z (List.mem_cons_of_mem _ listed))
        refine ⟨s', queued', done, after, kept, ?_⟩
        rintro ⟨z, listed, permitted⟩
        rcases List.mem_cons.mp listed with rfl | later
        · exact absurd permitted blocked
        · obtain ⟨w, listed, now⟩ := moved ⟨z, later, permitted⟩
          exact ⟨w, List.mem_cons_of_mem _ listed, now⟩

/-! ### Every die goes on -/

/-- A die with an empty NAND queue starts one of the requests that wait for their row
address, unless a request to the die waits for a buffer. -/
def NeverStuck (g : Geometry) (s : RequestLayer) : Prop :=
  ∀ chNo wayNo queued, Dll.Holds reqSlotTagNone s.queues.links queued → queued (.nand chNo wayNo) = [] →
    queued (.blockedByRowAddrDep chNo wayNo) ≠ [] →
    (∀ x ∈ queued .blockedByBufDep,
      ¬ ((s.reqPool x).reqType = .nand ∧ nandDie g (s.reqPool x) = (chNo, wayNo))) →
    ∃ s' queued', s.releaseBlockedByRowAddrDepReq g chNo wayNo = some s' ∧
      Dll.Holds reqSlotTagNone s'.queues.links queued' ∧
      ∃ x ∈ queued (.blockedByRowAddrDep chNo wayNo), x ∈ queued' (.nand chNo wayNo)

/-- The states in which dies are rechecked: between two operations, and while a READ that is
being submitted waits for an ERASE. -/
inductive Reached (g : Geometry) (fw : Firmware) : RequestLayer → Prop
  | between : Reached g fw fw.layer
  | waiting {s : RequestLayer} {x : Nat} {req : SsdReq} {es : List Event} (held : x ∈ fw.held)
    (turn : ∀ b, SubmitsInTurn g b fw.layer req)
      (waits : (fw.layer.prepare x req).WaitsForErase g x)
      (ran : (fw.layer.prepare x req).events g es = some s) : Reached g fw s

/-- With the ledgers of all blocks no die is stuck. -/
theorem neverStuck_of_ledgers (rows : RowOk g s) (queue : ∃ queued, QueuesOk g s.queues queued)
    (idle : ∀ y ∈ flight, s.reqQueueType y = .none) (ledgers : ∀ b, LedgerOk g b s flight)
    (coming : ∀ y ∈ flight, (s.reqPool y).reqCode = .read) : NeverStuck g s := by
  intro chNo wayNo queued holds _ some free
  obtain ⟨queued', queues⟩ := queue
  cases queues.holds.unique holds
  obtain ⟨queued', queuesOk, die⟩ := rows
  cases queuesOk.holds.unique holds
  have checkable : ∀ x ∈ queued (.blockedByRowAddrDep chNo wayNo), Checkable (s.reqPool x) :=
    fun x listed => (ledgers ⟨0, 0, 0⟩).checkable x (queues.typed _ x listed)
  obtain ⟨x, listed⟩ := List.exists_mem_of_ne_nil _ some
  have row : s.reqQueueType x = .blockedByRowAddrDep := queues.typed _ x listed
  obtain ⟨type, own⟩ := die chNo wayNo x listed
  obtain ⟨-, addr, code⟩ := checkable x listed
  set b := blockAddr g (s.reqPool x).virtualSliceAddr with block
  have onDie : b.chNo = chNo ∧ b.wayNo = wayNo := by simpa [nandDie, addr, ← block] using own
  obtain ⟨r, kind⟩ : ∃ r, blockReq g b (s.reqPool x) = Option.some r := by
    rcases code with code | code | code <;> simp [blockReq, type, addr, code, ← block]
  have toDie : ∀ y, blockReq g b (s.reqPool y) ≠ none →
      (s.reqPool y).reqType = .nand ∧ nandDie g (s.reqPool y) = (chNo, wayNo) := by
    intro y asks
    unfold blockReq at asks
    split at asks
    · rename_i here
      refine ⟨here.1, ?_⟩
      simp only [nandDie, here.2.1, here.2.2, onDie]
    · exact absurd rfl asks
  have unheld : ∀ y, s.reqQueueType y = .blockedByBufDep → blockReq g b (s.reqPool y) = none := by
    intro y held
    by_contra asks
    exact free y (queues.mem_bufDep.mpr held) (toDie y asks)
  have out : x ∉ flight := by
    intro member
    rw [idle x member] at row
    cases row
  obtain ⟨y, rowToo, asks, permitted⟩ := (ledgers b).exists_permitted coming unheld row out kind
  have listedToo : y ∈ queued (.blockedByRowAddrDep chNo wayNo) := by
    obtain ⟨chNo', -, wayNo', -, listed⟩ := queues.mem_rowAddrDep rowToo
    have same := (die chNo' wayNo' y listed).2.symm.trans (toDie y asks).2
    rw [Prod.mk.injEq] at same
    rw [← same.1, ← same.2]
    exact listed
  have turns := queues.length_le (.blockedByRowAddrDep chNo wayNo)
  have all : queued (.blockedByRowAddrDep chNo wayNo) = [] ++ queued (.blockedByRowAddrDep chNo wayNo) := rfl
  obtain ⟨s', queued', done, after, -, moved⟩ := scan_moves queues all turns checkable
  rw [← queues.holds.head] at done
  exact ⟨s', queued', done, after.holds, moved ⟨y, listedToo, permitted⟩⟩

/-- In every run of operations that submit to every block in turn, with any completions and
waits, no die gets stuck on row addresses: neither between two operations, nor while a READ
waits for an ERASE. -/
theorem neverStuck_of_run {ops : List RequestOp} {fw : Firmware} (small : g.userPagesPerBlock < 4096)
    (run : Run (requestStep g) (fun fw op => ∀ b, OpInTurn g b fw op) (initFirmware g) ops fw)
    (reached : Reached g fw s) : NeverStuck g s := by
  have ok : ∀ b, BuffersOk g fw.layer fw.held ∅ ∧ LedgerOk g b fw.layer ∅ := fun b =>
    (ledgerOk_tracks small).run (run.mono fun _ _ met => ⟨met b, fun _ _ => trivial⟩)
  have counted := countedOk_of_run ⟨0, 0, 0⟩ (run.mono fun _ _ _ => trivial)
  cases reached with
  | between =>
    exact neverStuck_of_ledgers counted.rows counted.slots.queued (by simp) (fun b => (ok b).2) (by simp)
  | @waiting s x req es held turn waits ran =>
    have later : ∀ b, BuffersOk g s (fw.held.erase x) {x} ∧ LedgerOk g b s {x} := fun b =>
      events_closed (ledgerOk_tracks small).events ((ledgerOk_tracks small).submit (ok b) held (turn b))
        (fun _ _ => trivial) ran
    have counts : CountedOk g ⟨0, 0, 0⟩ s (fw.held.erase x) {x} :=
      events_closed countedOk_events (counted.prepare held req) (fun _ _ => trivial) ran
    have same := (events_undisturbed (x := x) countedOk_events (counted.prepare held req) (fun _ _ => trivial) ran
      (by simp)).1
    refine neverStuck_of_ledgers counts.rows counts.slots.queued ?_ (fun b => (later b).2) ?_
    · intro y member
      exact slotsOk_events.idle counts.slots member
    · intro y member
      rw [Finset.mem_singleton.mp member, same]
      exact waits.2.2.1

/-- The ERASE of the first generation and the first WRITE of the next one wait together. -/
theorem neverStuck_of_run_twoGenerations :
    ∃ fw, Run (requestStep tinyGeometry) (fun fw op => ∀ b, OpInTurn tinyGeometry b fw op)
      (initFirmware tinyGeometry)
      [.alloc [], .submit 0 (blockReqOf .write 0 (some 0)) [],
        .alloc [], .submit 1 (blockReqOf .read 0 (some 0)) [],
        .alloc [], .submit 2 (blockReqOf .write 1 (some 1)) [],
        .alloc [], .submit 3 (blockReqOf .erase 0 none) [],
        .alloc [], .submit 4 (blockReqOf .write 0 (some 2)) [],
        .event (.nandDone 0 0), .event (.nandDone 0 0), .event (.nandDone 0 0)] fw ∧
      fw.layer.queues.links.head (.nand 0 0) = reqSlotTagNone ∧
      fw.layer.reqQueueType 3 = .blockedByRowAddrDep ∧ fw.layer.reqQueueType 4 = .blockedByRowAddrDep ∧
      NeverStuck tinyGeometry fw.layer := by
  have done : (exec (requestStep tinyGeometry)
      (fun fw op => OpInTurn tinyGeometry ⟨0, 0, 0⟩ fw op ∧ SubmitsTo tinyGeometry ⟨0, 0, 0⟩ op)
      (initFirmware tinyGeometry)
      [.alloc [], .submit 0 (blockReqOf .write 0 (some 0)) [],
        .alloc [], .submit 1 (blockReqOf .read 0 (some 0)) [],
        .alloc [], .submit 2 (blockReqOf .write 1 (some 1)) [],
        .alloc [], .submit 3 (blockReqOf .erase 0 none) [],
        .alloc [], .submit 4 (blockReqOf .write 0 (some 2)) [],
        .event (.nandDone 0 0), .event (.nandDone 0 0), .event (.nandDone 0 0)]).any
      (fun fw => fw.layer.queues.links.head (.nand 0 0) = reqSlotTagNone ∧
        fw.layer.reqQueueType 3 = .blockedByRowAddrDep ∧
        fw.layer.reqQueueType 4 = .blockedByRowAddrDep) = true := by decide +kernel
  obtain ⟨fw, run, shown⟩ := run_of_exec_any done
  obtain ⟨empty, third, fourth⟩ := of_decide_eq_true shown
  have turn : Run (requestStep tinyGeometry) (fun fw op => ∀ b, OpInTurn tinyGeometry b fw op)
      (initFirmware tinyGeometry) _ fw := run.mono fun _ _ met b => met.2.inTurn met.1 b
  exact ⟨fw, turn, empty, third, fourth, neverStuck_of_run (by decide) turn .between⟩

end OcpFw
