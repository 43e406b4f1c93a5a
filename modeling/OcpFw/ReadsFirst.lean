import OcpFw.BlockLedger
import OcpFw.CompletionOrder
import OcpFw.EraseFlags

/-! While an ERASE waits in the queue of its die, the READs of its block that are held back
were submitted before it: a READ that finds the flag of its block set waits for the ERASE
first. So an ERASE never waits for a READ that was submitted after it. -/
namespace OcpFw
open RequestLayer
open Runs (Run)
open BlockReq (AllowedAll)

variable {g : Geometry} {b : BlockAddr} {s s' : RequestLayer} {held flight : Finset Nat} {x : Nat}
  {queued : ReqQueue → List Nat} {select : Bool} {log : List Nat} {req : SsdReq}

/-! ### Properties of a block together -/

/-- Two properties of the requests of a block, each with its condition. -/
theorem Tracks.and {fair fair' : RequestLayer → Nat → Prop} {O O' : RequestLayer → Finset Nat → Prop}
    (tracks : Tracks g b fair O) (tracks' : Tracks g b fair' O') :
    Tracks g b (fun s x => fair s x ∧ fair' s x) fun s flight => O s flight ∧ O' s flight where
  waiting ok := tracks.waiting ok.1
  init := ⟨tracks.init, tracks'.init⟩
  prepare ok idle slot turn := ⟨tracks.prepare ok.1 idle slot turn, tracks'.prepare ok.2 idle slot turn⟩
  stable fair rows reqs table submission :=
    ⟨tracks.stable fair.1 rows reqs table submission, tracks'.stable fair.2 rows reqs table submission⟩
  pass ok step waits selects kind permitted fair gone started entry :=
    ⟨tracks.pass ok.1 step waits selects kind permitted fair.1 gone started entry,
      tracks'.pass ok.2 step waits selects kind permitted fair.2 gone started entry⟩
  pass_other ok step waits kind gone started entry :=
    ⟨tracks.pass_other ok.1 step waits kind gone started entry,
      tracks'.pass_other ok.2 step waits kind gone started entry⟩
  refuse ok step req waits selects kind started blocked entry :=
    ⟨tracks.refuse ok.1 step req waits selects kind started blocked entry,
      tracks'.refuse ok.2 step req waits selects kind started blocked entry⟩
  refuse_other ok step req waits kind started blocked entry :=
    ⟨tracks.refuse_other ok.1 step req waits kind started blocked entry,
      tracks'.refuse_other ok.2 step req waits kind started blocked entry⟩
  frame ok types reqs submissions submission started entry :=
    ⟨tracks.frame ok.1 types reqs submissions submission started entry,
      tracks'.frame ok.2 types reqs submissions submission started entry⟩

/-- The order of a block, its flag and its ledger. -/
def BlockStateOk (g : Geometry) (b : BlockAddr) (s : RequestLayer) (flight : Finset Nat) : Prop :=
  BlockHistoryOk g b s flight ∧ FlagOk g b s flight ∧ LedgerOk g b s flight

/-- A request passes its check without overtaking an ERASE of its block or leaving one
blocked without its flag. -/
def PassesFairly (g : Geometry) (s : RequestLayer) (x : Nat) : Prop :=
  ¬ Overtakes g (blockAddr g (s.reqPool x).virtualSliceAddr) s x ∧
    ¬ LeavesErase g (blockAddr g (s.reqPool x).virtualSliceAddr) s x

instance (g : Geometry) (s : RequestLayer) (x : Nat) : Decidable (PassesFairly g s x) := by
  unfold PassesFairly
  infer_instance

/-- No other block is concerned. -/
theorem PassesFairly.all (fair : PassesFairly g s x) (b : BlockAddr) :
    ¬ Overtakes g b s x ∧ ¬ LeavesErase g b s x ∧ True := by
  refine ⟨fun passes => ?_, fun leaves => ?_, trivial⟩
  · obtain ⟨r, kind⟩ := Option.ne_none_iff_exists'.mp passes.1
    exact fair.1 ((blockReq_cases kind).1 ▸ passes)
  · exact fair.2 ((blockReq_cases leaves.1).1 ▸ leaves)

/-- The chains of the buffers and the state of every block. -/
def BlocksOk (g : Geometry) (s : RequestLayer) (held flight : Finset Nat) : Prop :=
  BuffersOk g s held flight ∧ ∀ b, BlockStateOk g b s flight

theorem blocksOk_tracks (small : g.userPagesPerBlock < 4096) (b : BlockAddr) :
    Tracks g b (fun s x => ¬ Overtakes g b s x ∧ ¬ LeavesErase g b s x ∧ True) (BlockStateOk g b) :=
  (blockHistoryOk_tracks small b).and (flagOk_tracks.and (ledgerOk_tracks small))

theorem blocksOk_ops (small : g.userPagesPerBlock < 4096) :
    OpClosed g (fun s x => ∀ b, ¬ Overtakes g b s x ∧ ¬ LeavesErase g b s x ∧ True) (BlocksOk g) :=
  Tracks.all (blocksOk_tracks small)

/-! ### READs come before a blocked ERASE -/

/-- The READs of the block that are held back are older than its blocked ERASEs. -/
def ReadsFirst (g : Geometry) (b : BlockAddr) (s : RequestLayer) : Prop :=
  ∀ x y p, s.Blocked x → blockReq g b (s.reqPool x) = some (.read p) →
    s.reqQueueType y = .blockedByRowAddrDep → blockReq g b (s.reqPool y) = some .erase →
    s.submission x < s.submission y

namespace ReadsFirst

/-- A step that concerns one slot. A READ is not held back by it, and an ERASE that is
blocked by it is the newest request. -/
theorem step (ok : ReadsFirst g b s) (step : Concerns s s' x)
    (read : ∀ p, s'.Blocked x → blockReq g b (s'.reqPool x) = some (.read p) →
      s.Blocked x ∧ blockReq g b (s.reqPool x) = some (.read p))
    (erase : s'.reqQueueType x = .blockedByRowAddrDep → blockReq g b (s'.reqPool x) = some .erase →
      s.reqQueueType x = .blockedByRowAddrDep ∧ blockReq g b (s.reqPool x) = some .erase ∨
      ∀ y, y ≠ x → s.Blocked y → s.submission y < s.submission x) : ReadsFirst g b s' := by
  intro y z p blocked kind row erased
  rw [step.submission]
  have before : s.Blocked y ∧ blockReq g b (s.reqPool y) = some (.read p) := by
    by_cases mine : y = x
    · subst mine
      exact read p blocked kind
    · rw [← step.reqs y mine]
      refine ⟨?_, kind⟩
      simpa only [Blocked, step.types y mine] using blocked
  by_cases mine : z = x
  · subst mine
    rcases erase row erased with ⟨row', erased'⟩ | newest
    · exact ok y z p before.1 before.2 row' erased'
    · refine newest y ?_ before.1
      rintro rfl
      rw [erased] at kind
      cases kind
  · rw [step.types z mine] at row
    rw [step.reqs z mine] at erased
    exact ok y z p before.1 before.2 row erased

/-- A slot that is not held back afterwards. -/
theorem leave (ok : ReadsFirst g b s) (step : Concerns s s' x) (gone : ¬ s'.Blocked x) : ReadsFirst g b s' :=
  ok.step step (fun _ blocked => absurd blocked gone) fun row _ => absurd (.inr row) gone

/-- Without a blocked ERASE. -/
theorem of_clear (clear : ¬ s.EraseBlocked g b) : ReadsFirst g b s :=
  fun _ y _ _ _ row erase => absurd ⟨y, row, erase⟩ clear

theorem init : ReadsFirst g b (initRequestLayer g) := by
  intro x y p _ _ row
  simp only [reqQueueType, initRequestLayer, RequestQueues.initReqPool] at row
  split at row <;> cases row

/-- A request leaves the hardware. -/
theorem retire {queues : RequestQueues} (ok : ReadsFirst g b s) (queuesOk : QueuesOk g s.queues queued)
    (retires : s.Retires x queues) : ReadsFirst g b ((s.setQueues queues).cut x) := by
  obtain ⟨-, types, -⟩ := retires.spec queuesOk
  have type : ∀ y, ((s.setQueues queues).cut x).reqQueueType y =
      Function.update s.queues.reqQueueType x .free y := fun y => congrFun types y
  refine ok.leave (x := x) ⟨fun _ _ => rfl, fun y diff => ?_, rfl, rfl⟩ ?_
  · rw [type, Function.update_of_ne diff]
  · rw [Blocked, type, Function.update_self]
    rintro (held | row)
    · cases held
    · cases row

/-- A request that was held back for its buffer is placed. -/
theorem released {queues : RequestQueues} (ok : ReadsFirst g b s) (blocked : s.reqQueueType x = .blockedByBufDep)
    (notErase : blockReq g b (s.reqPool x) ≠ some .erase)
    (others : ∀ y, y ≠ x → queues.reqQueueType y = s.reqQueueType y)
    (submittable : Submittable g (s.reqPool x)) (placed : Placed g (s.setQueues queues) x select s') :
    ReadsFirst g b s' := by
  obtain ⟨-, types, -, submission, submissions, -⟩ := placed.released submittable
  have step : Concerns s s' x :=
    ⟨fun y diff => (placed.undisturbed diff).1, fun y diff => (types y diff).trans (others y diff),
      submissions, submission⟩
  have same : s'.Blocked x → s'.reqPool x = s.reqPool x := by
    rcases placed.cases with ⟨-, info, hostDma, rfl⟩ | ⟨-, chNo, wayNo, -, ⟨-, rfl⟩ | ⟨-, -, rfl⟩ | ⟨-, -, rfl⟩⟩
    · have dma : (((s.setQueues queues).issued x info hostDma).setQueues
          ((s.setQueues queues).queues.putToNvmeDmaReqQ x)).reqQueueType x = .nvmeDma := Function.update_self ..
      simp [Blocked, dma]
    · exact fun _ => rfl
    · exact fun _ => rfl
    · intro _
      cases select <;> rfl
  refine ok.step step (fun p now kind => ⟨.inl blocked, same now ▸ kind⟩) fun row kind => ?_
  exact absurd (same (.inr row) ▸ kind) notErase

end ReadsFirst

/-! ### What can happen while the firmware waits -/

/-- The invariant of a layer that waits. -/
def WaitOk (g : Geometry) (s : RequestLayer) (held flight : Finset Nat) : Prop :=
  BlocksOk g s held flight ∧ ∀ b, ReadsFirst g b s

section
variable {queues : RequestQueues} {chNo wayNo : Nat}

private theorem complete_readsFirst (inv : BlocksOk g s held flight) (ok : ReadsFirst g b s)
    (retires : s.Retires x queues) (done : (s.setQueues queues).releaseBlockedByBufDepReq g x = some s') :
    ReadsFirst g b s' := by
  have slots := inv.1.1
  obtain ⟨queued, queuesOk⟩ := slots.queued
  have cut := ok.retire queuesOk retires
  rcases releaseBlockedByBufDepReq_cases done with ⟨-, rfl⟩ | ⟨⟨-, blocked⟩, started⟩
  · exact cut
  · set t := (s.setQueues queues).blocking.nextBlockingReq x
    have submittable := (slots.retire retires).submittable t blocked
    have notErase : blockReq g b (((s.setQueues queues).cut x).reqPool t) ≠ some .erase := by
      obtain ⟨busy, types, -⟩ := retires.spec queuesOk
      have before : s.reqQueueType t = .blockedByBufDep := by
        have now : Function.update s.queues.reqQueueType x .free t = .blockedByBufDep := congrFun types t ▸ blocked
        by_cases same : t = x
        · rw [same, Function.update_self] at now
          cases now
        · rwa [Function.update_of_ne same] at now
      exact (inv.2 b).2.1.waiting.eraseBlocked t before
    refine cut.released blocked notErase (fun y diff => ?_) submittable (Placed.of_startReleasedReq started submittable.1)
    exact Function.update_of_ne diff ..

private theorem recheck_readsFirst (ok : ReadsFirst g b s)
    (done : s.recheckRowAddrDep g x chNo wayNo = some s') : ReadsFirst g b s' := by
  obtain ⟨-, ⟨-, rfl⟩ | ⟨-, rfl⟩⟩ := recheckRowAddrDep_cases done
  · have moved : ∀ y, (((s.passed g x false).setQueues (s.queues.selectiveGetFromBlockedByRowAddrDepReqQ x chNo
        wayNo)).putToNandReqQ x chNo wayNo).reqQueueType y =
        Function.update (Function.update s.queues.reqQueueType x .none) x .nand y := fun _ => rfl
    refine ok.leave (x := x) ⟨fun _ _ => rfl, fun y diff => ?_, rfl, rfl⟩ ?_
    · rw [moved, Function.update_of_ne diff, Function.update_of_ne diff]
    · rw [Blocked, moved, Function.update_self]
      rintro (held | row)
      · cases held
      · cases row
  · exact ok

private theorem readPhase_readsFirst (inv : BlocksOk g s held flight) (ok : ReadsFirst g b s)
    (real : s.queues.links.head (.nand chNo wayNo) ≠ reqSlotTagNone) (req : SsdReq) :
    ReadsFirst g b (s.setReq (s.queues.links.head (.nand chNo wayNo)) req) := by
  obtain ⟨queued, queuesOk⟩ := inv.1.1.queued
  obtain ⟨xs, shape⟩ := queuesOk.head_cons real
  have type : s.reqQueueType (s.queues.links.head (.nand chNo wayNo)) = .nand :=
    queuesOk.typed (.nand chNo wayNo) _ (by simp [shape])
  refine ok.leave ⟨fun y diff => Function.update_of_ne diff .., fun _ _ => rfl, rfl, rfl⟩ ?_
  have same : (s.setReq (s.queues.links.head (.nand chNo wayNo)) req).reqQueueType
      (s.queues.links.head (.nand chNo wayNo)) = .nand := type
  simp [Blocked, same]

end

theorem waitOk_events (small : g.userPagesPerBlock < 4096) :
    EventClosed g (fun s x => ∀ b, ¬ Overtakes g b s x ∧ ¬ LeavesErase g b s x ∧ True) (WaitOk g) where
  queued ok := (blocksOk_ops small).queued ok.1
  idle ok := (blocksOk_ops small).idle ok.1
  submittable ok := (blocksOk_ops small).submittable ok.1
  complete ok retires met done :=
    ⟨(blocksOk_ops small).complete ok.1 retires met done, fun b => complete_readsFirst ok.1 (ok.2 b) retires done⟩
  recheck ok queues listed met done :=
    ⟨(blocksOk_ops small).recheck ok.1 queues listed met done, fun b => recheck_readsFirst (ok.2 b) done⟩
  readPhase code phase ok real :=
    ⟨(blocksOk_ops small).readPhase code phase ok.1 real, fun b => readPhase_readsFirst ok.1 (ok.2 b) real _⟩

/-! ### Over the operations -/

/-- Nothing in progress is a READ of the block. -/
def NoReadComes (g : Geometry) (b : BlockAddr) (s : RequestLayer) (flight : Finset Nat) : Prop :=
  ∀ x ∈ flight, ∀ p, blockReq g b (s.reqPool x) ≠ some (.read p)

/-- What is in progress is the newest. -/
private theorem newest_lt (inv : BlocksOk g s held flight) (member : x ∈ flight) {y : Nat} (diff : y ≠ x)
    (blocked : s.Blocked y) : s.submission y < s.submission x := by
  have waiting := (inv.2 ⟨0, 0, 0⟩).2.1.waiting
  have waits : s.Waiting flight y := blocked.elim .inl fun row => .inr (.inl row)
  have le := waiting.newest x member y waits
  have apart := waiting.apart y x waits (.inr (.inr member))
  omega

private theorem submitted_readsFirst (inv : BlocksOk g s held flight) (ok : ReadsFirst g b s)
    (coming : NoReadComes g b s flight) (member : x ∈ flight) (step : Concerns s s' x)
    (same : s'.Blocked x → s'.reqPool x = s.reqPool x) : ReadsFirst g b s' := by
  refine ok.step step (fun p now kind => ?_) fun _ _ => .inr fun y diff blocked => newest_lt inv member diff blocked
  exact absurd (same now ▸ kind) (coming x member p)

/-- A slot in no queue is in no blocked queue afterwards either. -/
private theorem idle_readsFirst (ok : ReadsFirst g b s) (step : Concerns s s' x)
    (gone : s'.reqQueueType x = .none ∨ s'.reqQueueType x = .slice) : ReadsFirst g b s' := by
  refine ok.leave step ?_
  rcases gone with type | type <;> simp [Blocked, type]

theorem readsFirst_logged (b : BlockAddr) :
    LogClosed g (fun s x => ∀ b, ¬ Overtakes g b s x ∧ ¬ LeavesErase g b s x ∧ True) (BlocksOk g)
      fun _ s flight => ReadsFirst g b s ∧ NoReadComes g b s flight where
  complete := by
    intro log s held flight x queues s' inv ok retires met done
    refine ⟨complete_readsFirst inv ok.1 retires done, fun y member p => ?_⟩
    have slots := inv.1.1
    obtain ⟨queued, queuesOk⟩ := slots.queued
    obtain ⟨busy, types, -⟩ := retires.spec queuesOk
    have idle := slotsOk_events.idle slots member
    have diff : y ≠ x := by
      rintro rfl
      rw [idle] at busy
      simp at busy
    have idle' : (s.setQueues queues).reqQueueType y = .none := by
      have type : (s.setQueues queues).reqQueueType y = Function.update s.queues.reqQueueType x .free y :=
        congrFun types y
      rw [type, Function.update_of_ne diff]
      exact idle
    have same := (releaseBlockedByBufDepReq_undisturbed done
      (fun t held => ((slots.retire retires).submittable t held).1) idle').1
    rw [same]
    exact ok.2 y member p
  recheck := by
    intro log s held flight queued x chNo wayNo s' inv ok queues listed done
    refine ⟨recheck_readsFirst ok.1 done, fun y member p => ?_⟩
    obtain ⟨-, ⟨-, rfl⟩ | ⟨-, rfl⟩⟩ := recheckRowAddrDep_cases done <;> exact ok.2 y member p
  readPhase := by
    intro log s held flight chNo wayNo code inv ok real
    refine ⟨readPhase_readsFirst inv ok.1 real _, fun y member p => ?_⟩
    obtain ⟨queued, queuesOk⟩ := inv.1.1.queued
    obtain ⟨xs, shape⟩ := queuesOk.head_cons real
    have type : s.reqQueueType (s.queues.links.head (.nand chNo wayNo)) = .nand :=
      queuesOk.typed (.nand chNo wayNo) _ (by simp [shape])
    have diff : y ≠ s.queues.links.head (.nand chNo wayNo) := by
      rintro rfl
      rw [slotsOk_events.idle inv.1.1 member] at type
      cases type
    simpa [setReq, diff] using ok.2 y member p
  place := by
    intro log s held flight x s' inv ok member submittable placed
    obtain ⟨-, types, -, submission, submissions, -⟩ := placed.released submittable
    have step : Concerns s s' x := ⟨fun y diff => (placed.undisturbed diff).1, types, submissions, submission⟩
    refine ⟨submitted_readsFirst inv ok.1 ok.2 member step fun blocked => ?_, fun y listed p => ?_⟩
    · rcases placed.cases with ⟨-, info, hostDma, rfl⟩ | ⟨-, chNo, wayNo, -, ⟨-, rfl⟩ | ⟨-, -, rfl⟩ | ⟨-, -, rfl⟩⟩
      · have dma : ((s.issued x info hostDma).setQueues (s.queues.putToNvmeDmaReqQ x)).reqQueueType x = .nvmeDma :=
          Function.update_self ..
        simp [Blocked, dma] at blocked
      · rfl
      · rfl
      · simp [putToBlockedByRowAddrDepReqQ, setQueues]
    · have diff := Finset.ne_of_mem_erase listed
      rw [step.reqs y diff]
      exact ok.2 y (Finset.mem_of_mem_erase listed) p
  hold := by
    intro log s held flight x inv ok member
    have moved : ∀ y, (s.hold g x).reqQueueType y =
        Function.update s.queues.reqQueueType x .blockedByBufDep y := fun _ => rfl
    have step : Concerns s (s.hold g x) x :=
      ⟨fun y _ => by rw [hold_reqPool], fun y diff => by rw [moved, Function.update_of_ne diff],
        hold_submissions, hold_submission⟩
    refine ⟨submitted_readsFirst inv ok.1 ok.2 member step fun _ => by rw [hold_reqPool], fun y listed p => ?_⟩
    rw [hold_reqPool]
    exact ok.2 y (Finset.mem_of_mem_erase listed) p
  alloc := by
    intro log s held inv ok real
    have moved : ∀ y, s.getFromFreeReqQ.2.reqQueueType y =
        Function.update s.queues.reqQueueType (s.queues.links.head .free) .none y := fun _ => rfl
    refine ⟨idle_readsFirst ok.1 (x := s.queues.links.head .free)
      ⟨fun _ _ => rfl, fun y diff => by rw [moved, Function.update_of_ne diff], rfl, rfl⟩
      (.inl (by rw [moved, Function.update_self])), fun y listed => by simp at listed⟩
  putSlice := by
    intro log s held x req inv ok member
    have moved : ∀ y, ((s.setReq x req).setQueues (s.queues.putToSliceReqQ x)).reqQueueType y =
        Function.update s.queues.reqQueueType x .slice y := fun _ => rfl
    refine ⟨idle_readsFirst ok.1 (x := x) ⟨fun y diff => Function.update_of_ne diff ..,
      fun y diff => by rw [moved, Function.update_of_ne diff], rfl, rfl⟩
      (.inr (by rw [moved, Function.update_self])), fun y listed => by simp at listed⟩
  getSlice := by
    intro log s held inv ok real
    have moved : ∀ y, (s.setQueues (s.queues.getFrom .slice)).reqQueueType y =
        Function.update s.queues.reqQueueType (s.queues.links.head .slice) .none y := fun _ => rfl
    refine ⟨idle_readsFirst ok.1 (x := s.queues.links.head .slice)
      ⟨fun _ _ => rfl, fun y diff => by rw [moved, Function.update_of_ne diff], rfl, rfl⟩
      (.inl (by rw [moved, Function.update_self])), fun y listed => by simp at listed⟩

/-- The checks that an operation makes are fair. -/
def ChecksFairly (g : Geometry) (fw : Firmware) (op : RequestOp) : Prop :=
  ∀ p ∈ opChecks g fw op, PassesFairly g p.1 p.2

instance (g : Geometry) (fw : Firmware) (op : RequestOp) : Decidable (ChecksFairly g fw op) := by
  unfold ChecksFairly
  infer_instance

namespace WaitOk
variable {fw fw' : Firmware} {op : RequestOp}

/-- A submission in turn is prepared. -/
theorem prepare (small : g.userPagesPerBlock < 4096) (ok : WaitOk g s held ∅) (member : x ∈ held)
    (turn : ∀ b, SubmitsInTurn g b s req) : WaitOk g (s.prepare x req) (held.erase x) {x} := by
  have idle := (ok.1.1.1.taken x (ok.1.1.1.inPool x (.inl member))).mpr (.inl member)
  refine ⟨⟨buffersOk_prepare ok.1.1 member req, fun b =>
    ((blocksOk_tracks small b).submit ⟨ok.1.1, ok.1.2 b⟩ member (turn b)).2⟩, fun b y z p blocked read row erase => ?_⟩
  have diff : ∀ w, s.Blocked w → w ≠ x := by
    rintro w waits rfl
    simp [Blocked, idle] at waits
  have mine := diff y blocked
  have other := diff z (.inr row)
  simp only [RequestLayer.prepare, Function.update_of_ne mine, Function.update_of_ne other] at read erase ⊢
  exact ok.2 b y z p blocked read row erase

theorem step (small : g.userPagesPerBlock < 4096) (ok : WaitOk g fw.layer fw.held ∅)
    (turn : SubmitsInOrder g fw op) (fair : ChecksFairly g fw op) (step : requestStep g fw op = some fw') :
    WaitOk g fw'.layer fw'.held ∅ := by
  have met : ∀ p ∈ opChecks g fw op, ∀ b, ¬ Overtakes g b p.1 p.2 ∧ ¬ LeavesErase g b p.1 p.2 ∧ True :=
    fun p member b => (fair p member).all b
  have prepared : ∀ x req es, op = .submit x req es → x ∈ fw.held → Submittable g req →
      WaitOk g (fw.layer.prepare x req) (fw.held.erase x) {x} := by
    rintro x req es rfl member -
    exact ok.prepare small member turn.all
  have after := requestStep_closed (blocksOk_ops small) ok.1
    (fun x req es same member allowed => (prepared x req es same member allowed).1) met step
  refine ⟨after, fun b => ?_⟩
  by_cases read : ∃ x req es p, op = .submit x req es ∧ blockReq g b req = some (.read p)
  · obtain ⟨x, req, es, p, rfl, kind⟩ := read
    refine .of_clear fun blocked => ?_
    have flag := (after.2 b).2.1.flag.mpr blocked
    simp only [requestStep] at step
    split at step
    · rename_i allowed
      simp only [Option.bind_eq_bind, Option.bind_eq_some_iff, Option.some.injEq] at step
      obtain ⟨t, submitted, rfl⟩ := step
      have start := (prepared x req es rfl allowed.1 allowed.2).1
      have mine : (fw.layer.prepare x req).reqPool x = req := by simp [RequestLayer.prepare]
      have clear := read_settles ⟨start.1, (start.2 b).2.1⟩ (Finset.mem_singleton_self x) (mine.symm ▸ kind)
        (fun c member => (met c member b).2.1) submitted
      rw [clear] at flag
      cases flag
    · cases step
  · refine (@requestStep_logged g [] _ _ _ (blocksOk_ops small) (readsFirst_logged b) _ _ _ ok.1
      ⟨ok.2 b, fun y listed => by simp at listed⟩ (fun x req es same member allowed => ?_) met step).1
    obtain ⟨start, first⟩ := prepared x req es same member allowed
    refine ⟨start, first b, fun y listed p kind => ?_⟩
    obtain rfl := Finset.mem_singleton.mp listed
    have mine : (fw.layer.prepare y req).reqPool y = req := by simp [RequestLayer.prepare]
    exact read ⟨y, req, es, p, same, mine ▸ kind⟩

theorem init (small : g.userPagesPerBlock < 4096) : WaitOk g (initRequestLayer g) ∅ ∅ :=
  ⟨⟨⟨SlotsOk.init, _, ChainsOk.init⟩, fun b => (blocksOk_tracks small b).init⟩, fun _ => .init⟩

end WaitOk
end OcpFw
