import OcpFw.BlockOrder

/-! The READ counter of a block counts what it is named after: the checked READs of the
block that wait for a buffer or in the queue of their die. It goes up where a request is
held back while it is submitted and down where a released one passes, on whatever way it
travels from the one queue to the other. -/
namespace OcpFw
open RequestLayer
open Runs (Run exec run_of_exec_any)

/-- A READ of the block whose row address is checked. -/
def ReadsBlock (g : Geometry) (b : BlockAddr) (req : SsdReq) : Prop :=
  req.reqType = .nand ∧ req.rowAddrDependencyCheck = true ∧ req.nandAddr = .vsa ∧ req.reqCode = .read ∧
    blockAddr g req.virtualSliceAddr = b

instance (g : Geometry) (b : BlockAddr) (req : SsdReq) : Decidable (ReadsBlock g b req) := by
  unfold ReadsBlock
  infer_instance

namespace RequestLayer

/-- The READs of the block in `blockedByBufDepReqQ` and in the `blockedByRowAddrDepReqQ` of its die. -/
def blockedReads (g : Geometry) (b : BlockAddr) (s : RequestLayer) (queued : ReqQueue → List Nat) : List Nat :=
  (queued .blockedByBufDep ++ queued (.blockedByRowAddrDep b.chNo b.wayNo)).filter
    fun x => ReadsBlock g b (s.reqPool x)

def Blocked (s : RequestLayer) (x : Nat) : Prop :=
  s.reqQueueType x = .blockedByBufDep ∨ s.reqQueueType x = .blockedByRowAddrDep

instance (s : RequestLayer) (x : Nat) : Decidable (s.Blocked x) := by
  unfold Blocked
  infer_instance

/-- The same READs, by their slots. -/
def heldReads (g : Geometry) (b : BlockAddr) (s : RequestLayer) : Finset Nat :=
  (Finset.range (availableOutstandingReqCount g)).filter fun x => s.Blocked x ∧ ReadsBlock g b (s.reqPool x)

end RequestLayer

/-- What waits for a row address is a NAND request in the queue of its die. -/
def RowOk (g : Geometry) (s : RequestLayer) : Prop :=
  ∃ queued, QueuesOk g s.queues queued ∧ ∀ chNo wayNo, ∀ x ∈ queued (.blockedByRowAddrDep chNo wayNo),
    (s.reqPool x).reqType = .nand ∧ nandDie g (s.reqPool x) = (chNo, wayNo)

/-- The counter of the block is the number of its blocked READs. -/
def ReadsOk (g : Geometry) (b : BlockAddr) (s : RequestLayer) : Prop :=
  (s.rowAddrDependency b).blockedReadReqCnt = (s.heldReads g b).card

variable {g : Geometry} {b : BlockAddr} {s s' t : RequestLayer} {held flight : Finset Nat} {x : Nat}
  {queued queued' : ReqQueue → List Nat} {q : ReqQueue} {select : Bool}

/-! ### The queues of the dies -/

namespace RowOk

/-- A slot is appended to a queue; the queue of a die takes its own requests only. -/
theorem put (ok : RowOk g s) (exist : q.Exists g) (slot : x < availableOutstandingReqCount g)
    (idle : s.reqQueueType x = .none) (queues : s'.queues = s.queues.putTo q x)
    (others : ∀ y, y ≠ x → s'.reqPool y = s.reqPool y)
    (own : ∀ chNo wayNo, q = .blockedByRowAddrDep chNo wayNo →
      (s'.reqPool x).reqType = .nand ∧ nandDie g (s'.reqPool x) = (chNo, wayNo)) : RowOk g s' := by
  obtain ⟨queued, queuesOk, rows⟩ := ok
  refine ⟨_, queues ▸ queuesOk.putTo exist slot idle, ?_⟩
  intro chNo wayNo y listed
  have old : y ∈ queued (.blockedByRowAddrDep chNo wayNo) →
      (s'.reqPool y).reqType = .nand ∧ nandDie g (s'.reqPool y) = (chNo, wayNo) := by
    intro before
    have diff : y ≠ x := fun same => queuesOk.unlisted idle _ (same ▸ before)
    rw [others y diff]
    exact rows chNo wayNo y before
  by_cases here : ReqQueue.blockedByRowAddrDep chNo wayNo = q
  · subst here
    rw [Function.update_self, List.mem_append, List.mem_singleton] at listed
    rcases listed with before | rfl
    · exact old before
    · exact own chNo wayNo rfl
  · rw [Function.update_of_ne here] at listed
    exact old listed

/-- A slot is taken out of a queue. -/
theorem take (ok : RowOk g s) (queues : QueuesOk g s.queues queued) (listed : x ∈ queued q)
    (after : s'.queues = s.queues.selectiveGetFrom q x) (reqs : s'.reqPool = s.reqPool) : RowOk g s' := by
  obtain ⟨queued', queuesOk, rows⟩ := ok
  cases queuesOk.holds.unique queues.holds
  refine ⟨_, after ▸ queues.selectiveGetFrom listed, ?_⟩
  intro chNo wayNo y member
  rw [reqs]
  by_cases here : ReqQueue.blockedByRowAddrDep chNo wayNo = q
  · subst here
    rw [Function.update_self] at member
    exact rows chNo wayNo y (List.mem_of_mem_erase member)
  · rw [Function.update_of_ne here] at member
    exact rows chNo wayNo y member

/-- The first slot of a queue for the hardware, or of slots in reserve, is taken. -/
theorem takeFirst (ok : RowOk g s) (some : s.queues.links.head q ≠ reqSlotTagNone)
    (other : ∀ chNo wayNo, q ≠ .blockedByRowAddrDep chNo wayNo) (after : s'.queues = s.queues.getFrom q)
    (reqs : s'.reqPool = s.reqPool) : RowOk g s' := by
  obtain ⟨queued, queuesOk, rows⟩ := ok
  obtain ⟨xs, shape⟩ := queuesOk.head_cons some
  refine ⟨_, after ▸ queuesOk.getFrom shape, ?_⟩
  intro chNo wayNo y member
  rw [Function.update_of_ne (other chNo wayNo).symm] at member
  rw [reqs]
  exact rows chNo wayNo y member

theorem frame (ok : RowOk g s) (queues : s'.queues = s.queues)
    (reqs : ∀ y, s.reqQueueType y = .blockedByRowAddrDep → s'.reqPool y = s.reqPool y) : RowOk g s' := by
  obtain ⟨queued, queuesOk, rows⟩ := ok
  refine ⟨queued, queues ▸ queuesOk, ?_⟩
  intro chNo wayNo y member
  rw [reqs y (queuesOk.typed _ y member)]
  exact rows chNo wayNo y member

theorem init : RowOk g (initRequestLayer g) :=
  ⟨_, initReqPool_ok g, fun _ _ _ member => by simp at member⟩

theorem nand (ok : RowOk g s) (blocked : s.reqQueueType x = .blockedByRowAddrDep) :
    (s.reqPool x).reqType = .nand := by
  obtain ⟨queued, queuesOk, rows⟩ := ok
  have queue : s.queues.reqQueueType x ≠ .none := by
    intro none
    rw [reqQueueType, none] at blocked
    cases blocked
  obtain ⟨q, listed⟩ := queuesOk.listed x queue
  have type := queuesOk.typed q x listed
  have row : s.queues.reqQueueType x = .blockedByRowAddrDep := blocked
  rw [row] at type
  cases q with
  | blockedByRowAddrDep chNo wayNo => exact (rows chNo wayNo x listed).1
  | _ => cases type

/-- A request leaves the hardware for the free queue. -/
theorem retire {queues : RequestQueues} (ok : RowOk g s) (retires : s.Retires x queues) :
    RowOk g (s.setQueues queues) := by
  obtain ⟨queued, queuesOk, -⟩ := id ok
  rcases retires with ⟨dma, rfl⟩ | ⟨chNo, wayNo, taken⟩
  · have member : x ∈ queued .nvmeDma := queuesOk.mem_nvmeDma.mpr dma
    have out : RowOk g (s.setQueues (s.queues.selectiveGetFrom .nvmeDma x)) := ok.take queuesOk member rfl rfl
    refine out.put (q := .free) trivial (queuesOk.slot _ x member) ?_ rfl (fun _ _ => rfl) (by simp)
    simp [reqQueueType, setQueues, RequestQueues.selectiveGetFrom]
  · obtain ⟨xs, shape, -⟩ := queuesOk.getFromNandReqQ taken
    obtain ⟨head, some, rfl⟩ := RequestQueues.getFromNandReqQ_cases taken
    have out : RowOk g (s.setQueues (s.queues.getFrom (.nand chNo wayNo))) :=
      ok.takeFirst (q := .nand chNo wayNo) (head ▸ some) (by simp) rfl rfl
    refine out.put (q := .free) trivial (queuesOk.slot (.nand chNo wayNo) x (by simp [shape])) ?_ rfl
      (fun _ _ => rfl) (by simp)
    simp [reqQueueType, setQueues, RequestQueues.getFrom, head]

/-- A slot in no queue is placed. -/
theorem place (ok : RowOk g s) (submittable : Submittable g (s.reqPool x))
    (slot : x < availableOutstandingReqCount g) (idle : s.reqQueueType x = .none)
    (placed : Placed g s x select s') : RowOk g s' := by
  have die := nandDie_lt submittable
  have others : ∀ y, y ≠ x → s'.reqPool y = s.reqPool y := fun y diff => (placed.undisturbed diff).1
  rcases placed.cases with ⟨-, info, hostDma, rfl⟩ | ⟨nand, chNo, wayNo, named, cases⟩
  · exact ok.put (q := .nvmeDma) trivial slot idle rfl others (by simp)
  · rw [← named] at die
    rcases cases with ⟨-, rfl⟩ | ⟨-, -, rfl⟩ | ⟨-, -, rfl⟩
    · exact ok.put (q := .nand chNo wayNo) die slot idle rfl others (by simp)
    · exact ok.put (q := .nand chNo wayNo) die slot idle rfl others (by simp)
    · refine ok.put (q := .blockedByRowAddrDep chNo wayNo) die slot idle ?_ others ?_
      · simp [putToBlockedByRowAddrDepReqQ, setQueues, RequestQueues.putToBlockedByRowAddrDepReqQ]
      · rintro _ _ ⟨⟩
        simp only [putToBlockedByRowAddrDepReqQ, setQueues, refused_reqPool]
        exact ⟨nand, named.symm⟩

end RowOk

/-! ### The counter -/

theorem mem_heldReads : x ∈ s.heldReads g b ↔
    x < availableOutstandingReqCount g ∧ s.Blocked x ∧ ReadsBlock g b (s.reqPool x) := by
  simp [heldReads]

/-- There are no more READs than slots. -/
theorem heldReads_le : (s.heldReads g b).card ≤ availableOutstandingReqCount g := by
  have few := Finset.card_filter_le (Finset.range (availableOutstandingReqCount g))
    fun x => s.Blocked x ∧ ReadsBlock g b (s.reqPool x)
  simpa [heldReads] using few

/-- A step that concerns one slot changes the number by that slot. -/
theorem card_heldReads (types : ∀ y, y ≠ x → (s'.Blocked y ↔ s.Blocked y))
    (reqs : ∀ y, y ≠ x → s.Blocked y → s'.reqPool y = s.reqPool y) :
    (s'.heldReads g b).card + (if x ∈ s.heldReads g b then 1 else 0) =
      (s.heldReads g b).card + (if x ∈ s'.heldReads g b then 1 else 0) := by
  have same : (s'.heldReads g b).erase x = (s.heldReads g b).erase x := by
    ext y
    rw [Finset.mem_erase, Finset.mem_erase, mem_heldReads, mem_heldReads]
    apply and_congr_right
    intro diff
    rw [types y diff]
    by_cases blocked : s.Blocked y
    · rw [reqs y diff blocked]
    · simp [blocked]
  have erased : ∀ S : Finset Nat, (S.erase x).card + (if x ∈ S then 1 else 0) = S.card := by
    intro S
    split
    · rename_i member
      exact Finset.card_erase_add_one member
    · rename_i out
      rw [Finset.erase_eq_of_notMem out, Nat.add_zero]
  have before := erased (s.heldReads g b)
  have after := erased (s'.heldReads g b)
  rw [same] at after
  omega

namespace ReadsOk

/-- Nothing blocked is touched. -/
theorem frame (ok : ReadsOk g b s) (types : ∀ y, s'.Blocked y ↔ s.Blocked y)
    (reqs : ∀ y, s.Blocked y → s'.reqPool y = s.reqPool y)
    (entry : (s'.rowAddrDependency b).blockedReadReqCnt = (s.rowAddrDependency b).blockedReadReqCnt) :
    ReadsOk g b s' := by
  have same : s'.heldReads g b = s.heldReads g b := by
    ext y
    rw [mem_heldReads, mem_heldReads, types]
    by_cases blocked : s.Blocked y
    · rw [reqs y blocked]
    · simp [blocked]
  unfold ReadsOk
  rw [entry, same]
  exact ok

/-- One slot becomes blocked, stays so or is no longer so, and the counter follows. -/
theorem step (ok : ReadsOk g b s) (slot : x < availableOutstandingReqCount g)
    (types : ∀ y, y ≠ x → (s'.Blocked y ↔ s.Blocked y))
    (reqs : ∀ y, y ≠ x → s.Blocked y → s'.reqPool y = s.reqPool y)
    (up : (ReadsBlock g b (s'.reqPool x) ∧ s'.Blocked x) → ¬ (ReadsBlock g b (s.reqPool x) ∧ s.Blocked x) →
      (s'.rowAddrDependency b).blockedReadReqCnt = inc16 (s.rowAddrDependency b).blockedReadReqCnt)
    (down : ¬ (ReadsBlock g b (s'.reqPool x) ∧ s'.Blocked x) → (ReadsBlock g b (s.reqPool x) ∧ s.Blocked x) →
      (s'.rowAddrDependency b).blockedReadReqCnt = dec16 (s.rowAddrDependency b).blockedReadReqCnt)
    (level : ((ReadsBlock g b (s'.reqPool x) ∧ s'.Blocked x) ↔ (ReadsBlock g b (s.reqPool x) ∧ s.Blocked x)) →
      (s'.rowAddrDependency b).blockedReadReqCnt = (s.rowAddrDependency b).blockedReadReqCnt) :
    ReadsOk g b s' := by
  have count := card_heldReads (g := g) (b := b) types reqs
  have few := heldReads_le (g := g) (b := b) (s := s)
  have slots := slots_lt g
  have old : x ∈ s.heldReads g b ↔ ReadsBlock g b (s.reqPool x) ∧ s.Blocked x := by
    rw [mem_heldReads, and_comm (a := s.Blocked x)]
    exact and_iff_right slot
  have new : x ∈ s'.heldReads g b ↔ ReadsBlock g b (s'.reqPool x) ∧ s'.Blocked x := by
    rw [mem_heldReads, and_comm (a := s'.Blocked x)]
    exact and_iff_right slot
  rw [← old, ← new] at level
  rw [← old, ← new] at up
  rw [← old, ← new] at down
  unfold ReadsOk at ok ⊢
  by_cases before : x ∈ s.heldReads g b <;> by_cases after : x ∈ s'.heldReads g b <;>
    simp only [before, after, ↓reduceIte] at count
  · rw [level (iff_of_true after before), ok]
    omega
  · have some : 0 < (s.heldReads g b).card := Finset.card_pos.mpr ⟨x, before⟩
    rw [down after before, ok, dec16_of_pos some (by omega)]
    omega
  · rw [up after before, ok, inc16_of_lt (by omega)]
    omega
  · rw [level (iff_of_false after before), ok]
    omega

/-- The slot that changes its queue is the only one that becomes blocked or stops being so. -/
theorem blocked_others {type : ReqQueueType} {types : Nat → ReqQueueType}
    (others : ∀ y, y ≠ x → types y = s.reqQueueType y)
    (after : s'.queues.reqQueueType = Function.update types x type) :
    ∀ y, y ≠ x → (s'.Blocked y ↔ s.Blocked y) := by
  intro y diff
  have same : s'.reqQueueType y = s.reqQueueType y := by
    rw [← others y diff, reqQueueType, after, Function.update_of_ne diff]
  unfold Blocked
  rw [same]

/-- The checked READs of a NAND request that passes its check. -/
theorem checked (ok : Checkable (s.reqPool x)) (nand : (s.reqPool x).reqType = .nand) :
    ReadsBlock g b (s.reqPool x) ↔
      blockAddr g (s.reqPool x).virtualSliceAddr = b ∧ (s.reqPool x).reqCode = .read := by
  obtain ⟨check, addr, -⟩ := ok
  simp [ReadsBlock, check, addr, nand, and_comm]

/-- A request passes its check: a released READ is no longer counted. -/
theorem pass {queues : RequestQueues} {chNo wayNo : Nat} (ok : ReadsOk g b s)
    (slot : x < availableOutstandingReqCount g)
    (before : select = true ∧ ¬ s.Blocked x ∨ select = false ∧ s.Blocked x) (check : Checkable (s.reqPool x))
    (nand : (s.reqPool x).reqType = .nand) (others : ∀ y, y ≠ x → queues.reqQueueType y = s.reqQueueType y)
    (entry : s'.rowAddrDependency = (s.passed g x select).rowAddrDependency) (pool : s'.reqPool = s.reqPool)
    (after : s'.queues = queues.putToNandReqQ x chNo wayNo) : ReadsOk g b s' := by
  obtain ⟨counts, keeps⟩ := passed_entry g b s x select
  have out : ¬ s'.Blocked x := by
    have type : s'.reqQueueType x = .nand := by
      rw [reqQueueType, after]
      exact Function.update_self ..
    simp [Blocked, type]
  have types : s'.queues.reqQueueType = Function.update queues.reqQueueType x .nand := by
    rw [after]
    rfl
  refine ok.step slot (blocked_others others types) (fun y _ _ => by rw [pool]) ?_ ?_ ?_ <;> rw [entry]
  · exact fun now => absurd now.2 out
  · rintro - ⟨read, blocked⟩
    have release : select = false := before.elim (fun h => absurd blocked h.2) (·.1)
    exact counts ⟨release, (checked check nand).mp read⟩
  · intro same
    apply keeps
    rintro ⟨release, read⟩
    have blocked : s.Blocked x := before.elim (fun h => absurd (h.1.symm.trans release) (by simp)) (·.2)
    exact out (same.mpr ⟨(checked check nand).mpr read, blocked⟩).2

/-- A request that was held back is released, or one that was not is submitted, and placed. -/
theorem place {queues : RequestQueues} (ok : ReadsOk g b s) (slot : x < availableOutstandingReqCount g)
    (before : select = true ∧ ¬ s.Blocked x ∨ select = false ∧ s.Blocked x)
    (others : ∀ y, y ≠ x → queues.reqQueueType y = s.reqQueueType y)
    (placed : Placed g (s.setQueues queues) x select s') : ReadsOk g b s' := by
  have reqs : ∀ y, y ≠ x → s.Blocked y → s'.reqPool y = s.reqPool y := fun y diff _ => (placed.undisturbed diff).1
  rcases placed.cases with ⟨dma, info, hostDma, rfl⟩ |
    ⟨nand, chNo, wayNo, -, ⟨unchecked, rfl⟩ | ⟨check, -, rfl⟩ | ⟨check, -, rfl⟩⟩
  · have type : (s.reqPool x).reqType = .nvmeDma := dma
    have none : ¬ ReadsBlock g b (s.reqPool x) := by simp [ReadsBlock, type]
    have none' : ¬ ReadsBlock g b ((((s.setQueues queues).issued x info hostDma).setQueues
        (queues.putToNvmeDmaReqQ x)).reqPool x) := by simp [ReadsBlock, issued, setQueues, type]
    refine ok.step slot (blocked_others others rfl) reqs ?_ ?_ fun _ => rfl
    · exact fun now => absurd now.1 none'
    · exact fun _ old => absurd old.1 none
  · have option : (s.reqPool x).rowAddrDependencyCheck = false := unchecked
    have none : ¬ ReadsBlock g b (s.reqPool x) := by simp [ReadsBlock, option]
    refine ok.step slot (blocked_others others rfl) reqs ?_ ?_ fun _ => rfl
    · exact fun now => absurd now.1 none
    · exact fun _ old => absurd old.1 none
  · exact ok.pass slot before check nand others rfl rfl rfl
  · obtain ⟨-, counts, keeps⟩ := refused_entry g b (s.setQueues queues) x select
    have types : (((s.setQueues queues).refused g x select).putToBlockedByRowAddrDepReqQ x chNo
        wayNo).queues.reqQueueType = Function.update queues.reqQueueType x .blockedByRowAddrDep := by
      cases select <;> rfl
    have waits : (((s.setQueues queues).refused g x select).putToBlockedByRowAddrDepReqQ x chNo wayNo).Blocked x :=
      .inr (by rw [reqQueueType, types, Function.update_self])
    have pool : (((s.setQueues queues).refused g x select).putToBlockedByRowAddrDepReqQ x chNo wayNo).reqPool =
        s.reqPool := by
      cases select <;> rfl
    have table : (((s.setQueues queues).refused g x select).putToBlockedByRowAddrDepReqQ x chNo
        wayNo).rowAddrDependency = ((s.setQueues queues).refused g x select).rowAddrDependency := rfl
    refine ok.step slot (blocked_others others types) reqs ?_ ?_ ?_ <;> rw [pool, table]
    · rintro ⟨read, -⟩ notBefore
      have submit : select = true := before.elim (·.1) fun h => absurd ⟨read, h.2⟩ notBefore
      exact counts ⟨submit, (checked check nand).mp read⟩
    · exact fun notNow old => absurd ⟨old.1, waits⟩ notNow
    · intro same
      apply keeps
      rintro ⟨submit, read⟩
      have blocked : ¬ s.Blocked x := before.elim (·.2) fun h => absurd (h.1.symm.trans submit) (by simp)
      exact blocked (same.mp ⟨(checked check nand).mpr read, waits⟩).2

/-- A submission is held back for its buffer. -/
theorem hold (ok : ReadsOk g b s) (slot : x < availableOutstandingReqCount g) (idle : ¬ s.Blocked x)
    (addr : Addressed (s.reqPool x)) : ReadsOk g b (s.hold g x) := by
  have types : (s.hold g x).queues.reqQueueType = Function.update s.queues.reqQueueType x .blockedByBufDep := rfl
  have waits : (s.hold g x).Blocked x := .inl (by rw [reqQueueType, types, Function.update_self])
  obtain ⟨-, counts, keeps⟩ := refused_entry g b s x true
  by_cases checked : (s.reqPool x).reqType = .nand ∧ (s.reqPool x).rowAddrDependencyCheck = true
  · have reads : ReadsBlock g b (s.reqPool x) ↔
        blockAddr g (s.reqPool x).virtualSliceAddr = b ∧ (s.reqPool x).reqCode = .read := by
      simp [ReadsBlock, checked, addr checked.1 checked.2, and_comm]
    refine ok.step slot (blocked_others (fun _ _ => rfl) types) (fun y _ _ => by rw [hold_reqPool]) ?_ ?_ ?_ <;>
      rw [hold_reqPool, hold_checked checked]
    · exact fun now _ => counts ⟨rfl, reads.mp now.1⟩
    · exact fun notNow old => absurd ⟨old.1, waits⟩ notNow
    · exact fun same => keeps fun counted => idle (same.mp ⟨reads.mpr counted.2, waits⟩).2
  · have none : ¬ ReadsBlock g b (s.reqPool x) := fun read => checked ⟨read.1, read.2.1⟩
    refine ok.step slot (blocked_others (fun _ _ => rfl) types) (fun y _ _ => by rw [hold_reqPool]) ?_ ?_ ?_ <;>
      rw [hold_reqPool, hold_unchecked checked]
    · exact fun now => absurd now.1 none
    · exact fun _ old => absurd old.1 none
    · exact fun _ => rfl

theorem init : ReadsOk g b (initRequestLayer g) := by
  have none : (initRequestLayer g).heldReads g b = ∅ := by
    ext y
    simp only [mem_heldReads, Blocked, reqQueueType, initRequestLayer, RequestQueues.initReqPool]
    split <;> simp
  rw [ReadsOk, none]
  rfl

end ReadsOk

/-! ### The invariant over whole runs -/

/-- Slots, queues of the dies, and the counter of the block. -/
structure CountedOk (g : Geometry) (b : BlockAddr) (s : RequestLayer) (held flight : Finset Nat) : Prop where
  slots : SlotsOk g s held flight
  rows : RowOk g s
  reads : ReadsOk g b s

/-- What leaves the blocked queues alone, and the dependency table. -/
theorem CountedOk.frame (ok : CountedOk g b s held flight) {held' flight' : Finset Nat}
    (slots : SlotsOk g s' held' flight') (rows : RowOk g s') {type : ReqQueueType}
    (types : s'.queues.reqQueueType = Function.update s.queues.reqQueueType x type) (idle : ¬ s.Blocked x)
    (still : type ≠ .blockedByBufDep ∧ type ≠ .blockedByRowAddrDep)
    (reqs : ∀ y, s.Blocked y → s'.reqPool y = s.reqPool y) (table : s'.rowAddrDependency = s.rowAddrDependency) :
    CountedOk g b s' held' flight' := by
  refine ⟨slots, rows, ok.reads.frame (fun y => ?_) reqs (by rw [table])⟩
  by_cases same : y = x
  · subst same
    have now : s'.reqQueueType y = type := by rw [reqQueueType, types, Function.update_self]
    exact iff_of_false (by simp [Blocked, now, still]) idle
  · exact ReadsOk.blocked_others (fun _ _ => rfl) types y same

theorem countedOk_events : EventClosed g (fun _ _ => True) (CountedOk g b) where
  queued ok := ok.slots.queued
  idle ok := slotsOk_events.idle ok.slots
  submittable ok := slotsOk_events.submittable ok.slots
  complete := by
    intro s held flight x queues s' ok retires _ done
    have slots := slotsOk_events.complete ok.slots retires (fun _ _ => trivial) done
    obtain ⟨queued, queuesOk⟩ := ok.slots.queued
    obtain ⟨busy, types, -⟩ := retires.spec queuesOk
    have free : ¬ s.Blocked x := by
      unfold Blocked
      rcases busy with type | type <;> simp [type]
    have retired := ok.slots.retire retires
    have cutOk : CountedOk g b ((s.setQueues queues).cut x) held flight :=
      ok.frame (retired.frame rfl fun _ _ => rfl) ((ok.rows.retire retires).frame rfl fun _ _ => rfl) types free
        ⟨by simp, by simp⟩ (fun _ _ => rfl) rfl
    rcases releaseBlockedByBufDepReq_cases done with ⟨-, rfl⟩ | ⟨⟨-, blocked⟩, started⟩
    · exact cutOk
    · set t := (s.setQueues queues).blocking.nextBlockingReq x
      obtain ⟨queued', queuesOk'⟩ := retired.queued
      have listed := queuesOk'.mem_bufDep.mpr blocked
      have slot := queuesOk'.slot _ _ listed
      have submittable := retired.submittable _ blocked
      have placed := Placed.of_startReleasedReq started submittable.1
      have rows : RowOk g (((s.setQueues queues).cut x).setQueues
          ((s.setQueues queues).queues.selectiveGetFromBlockedByBufDepReqQ t)) :=
        cutOk.rows.take (q := .blockedByBufDep) queuesOk' listed rfl rfl
      have none : (((s.setQueues queues).cut x).setQueues
          ((s.setQueues queues).queues.selectiveGetFromBlockedByBufDepReqQ t)).reqQueueType t = .none :=
        Function.update_self ..
      refine ⟨slots, rows.place submittable slot none placed, ?_⟩
      have held : ((s.setQueues queues).cut x).Blocked t := .inl blocked
      exact cutOk.reads.place slot (.inr ⟨rfl, held⟩) (fun y diff => Function.update_of_ne diff ..) placed
  recheck := by
    intro s held flight queued x chNo wayNo s' ok queuesOk listed _ done
    have slots := slotsOk_events.recheck ok.slots queuesOk listed trivial done
    obtain ⟨check, ⟨-, rfl⟩ | ⟨-, rfl⟩⟩ := recheckRowAddrDep_cases done
    · have slot := queuesOk.slot _ _ listed
      have row : s.reqQueueType x = .blockedByRowAddrDep := queuesOk.typed _ _ listed
      have exist : (ReqQueue.nand chNo wayNo).Exists g :=
        queuesOk.exist (.blockedByRowAddrDep chNo wayNo) (List.ne_nil_of_mem listed)
      have rows : RowOk g ((s.passed g x false).setQueues
          (s.queues.selectiveGetFromBlockedByRowAddrDepReqQ x chNo wayNo)) :=
        ok.rows.take queuesOk listed rfl rfl
      have none : ((s.passed g x false).setQueues
          (s.queues.selectiveGetFromBlockedByRowAddrDepReqQ x chNo wayNo)).reqQueueType x = .none :=
        Function.update_self ..
      refine ⟨slots, rows.put (q := .nand chNo wayNo) exist slot none rfl (fun _ _ => rfl) (by simp), ?_⟩
      exact ok.reads.pass slot (.inr ⟨rfl, .inr row⟩) check (ok.rows.nand row)
        (fun y diff => Function.update_of_ne diff ..) rfl rfl rfl
    · exact ok
  readPhase := by
    intro s held flight chNo wayNo code phase ok some
    obtain ⟨queued, queuesOk⟩ := ok.slots.queued
    obtain ⟨xs, shape⟩ := queuesOk.head_cons some
    have type : s.reqQueueType (s.queues.links.head (.nand chNo wayNo)) = .nand :=
      queuesOk.typed (.nand chNo wayNo) _ (by simp [shape])
    have reqs : ∀ y, s.Blocked y → (s.setReq (s.queues.links.head (.nand chNo wayNo))
        { s.reqPool (s.queues.links.head (.nand chNo wayNo)) with reqCode := code }).reqPool y = s.reqPool y := by
      intro y blocked
      have diff : y ≠ s.queues.links.head (.nand chNo wayNo) := by
        rintro rfl
        simp [Blocked, type] at blocked
      simp [setReq, diff]
    refine ⟨slotsOk_events.readPhase code phase ok.slots some, ok.rows.frame rfl fun y row => reqs y (.inr row), ?_⟩
    exact ok.reads.frame (fun _ => Iff.rfl) reqs rfl

theorem countedOk_ops : OpClosed g (fun _ _ => True) (CountedOk g b) where
  toEventClosed := countedOk_events
  place := by
    intro s held flight x s' ok member free _ allowed placed
    have slot := ok.slots.inPool x (.inr member)
    have idle := slotsOk_events.idle ok.slots member
    have out : ¬ s.Blocked x := by simp [Blocked, idle]
    refine ⟨slotsOk_ops.place ok.slots member free trivial allowed placed, ok.rows.place allowed slot idle placed, ?_⟩
    have here : Placed g (s.setQueues s.queues) x true s' := placed
    exact ok.reads.place slot (.inl ⟨rfl, out⟩) (fun _ _ => rfl) here
  hold := by
    intro s held flight x ok member busy allowed addr
    have slot := ok.slots.inPool x (.inr member)
    have idle := slotsOk_events.idle ok.slots member
    have out : ¬ s.Blocked x := by simp [Blocked, idle]
    refine ⟨slotsOk_ops.hold ok.slots member busy allowed addr, ?_, ok.reads.hold slot out addr⟩
    exact ok.rows.put (q := .blockedByBufDep) trivial slot idle rfl (fun y _ => by rw [hold_reqPool]) (by simp)
  alloc := by
    intro s held ok some
    obtain ⟨queued, queuesOk⟩ := ok.slots.queued
    obtain ⟨xs, shape⟩ := queuesOk.head_cons some
    have type : s.reqQueueType (s.queues.links.head .free) = .free := queuesOk.typed .free _ (by simp [shape])
    exact ok.frame (slotsOk_ops.alloc ok.slots some) (ok.rows.takeFirst some (by simp) rfl rfl)
      (x := s.queues.links.head .free) rfl (by simp [Blocked, type]) ⟨by simp, by simp⟩ (fun _ _ => rfl) rfl
  putSlice := by
    intro s held x req ok member
    have slot := ok.slots.inPool x (.inl member)
    have idle := (ok.slots.taken x slot).mpr (.inl member)
    have reqs : ∀ y, y ≠ x →
        ((s.setReq x req).setQueues (s.queues.putToSliceReqQ x)).reqPool y = s.reqPool y := by
      intro y diff
      simp [setReq, setQueues, diff]
    have others : ∀ y, s.Blocked y → y ≠ x := by
      rintro y blocked rfl
      simp [Blocked, idle] at blocked
    exact ok.frame (slotsOk_ops.putSlice req ok.slots member)
      (ok.rows.put (q := .slice) trivial slot idle rfl reqs (by simp))
      (x := x) rfl (by simp [Blocked, idle]) ⟨by decide, by decide⟩ (fun y blocked => reqs y (others y blocked)) rfl
  getSlice := by
    intro s held ok some
    obtain ⟨queued, queuesOk⟩ := ok.slots.queued
    obtain ⟨xs, shape⟩ := queuesOk.head_cons some
    have type : s.reqQueueType (s.queues.links.head .slice) = .slice := queuesOk.typed .slice _ (by simp [shape])
    exact ok.frame (slotsOk_ops.getSlice ok.slots some) (ok.rows.takeFirst some (by simp) rfl rfl)
      (x := s.queues.links.head .slice) rfl (by simp [Blocked, type]) ⟨by simp, by simp⟩ (fun _ _ => rfl) rfl

/-- Filling in and attaching a slot that is held touches nothing blocked. -/
theorem CountedOk.prepare (ok : CountedOk g b s held ∅) (member : x ∈ held) (req : SsdReq) :
    CountedOk g b (s.prepare x req) (held.erase x) {x} := by
  have idle := (ok.slots.taken x (ok.slots.inPool x (.inl member))).mpr (.inl member)
  have reqs : ∀ y, s.reqQueueType y ≠ .none → (s.prepare x req).reqPool y = s.reqPool y := by
    intro y queue
    have diff : y ≠ x := by
      rintro rfl
      exact queue idle
    simp [RequestLayer.prepare, diff]
  refine ⟨ok.slots.prepare member req, ok.rows.frame rfl fun y row => reqs y (by simp [row]), ?_⟩
  exact ok.reads.frame (fun _ => Iff.rfl) (fun y blocked => reqs y (by rcases blocked with h | h <;> simp [h])) rfl

/-- The invariant holds after every run. -/
theorem countedOk_of_run {ops : List RequestOp} {fw : Firmware} (b : BlockAddr)
    (run : Run (requestStep g) (fun _ _ => True) (initFirmware g) ops fw) : CountedOk g b fw.layer fw.held ∅ := by
  apply run.invariant (fun fw => CountedOk g b fw.layer fw.held ∅) ⟨SlotsOk.init, RowOk.init, ReadsOk.init⟩
  intro fw op fw' ok _ step
  apply requestStep_closed countedOk_ops ok _ (fun _ _ => trivial) step
  intro x req es _ member _
  exact ok.prepare member req

/-! ### The READs of the queues -/

/-- What the die of a block has blocked is what the two queues hold of it. -/
theorem blockedReads_length (queues : QueuesOk g s.queues queued) (rows : RowOk g s) :
    (s.blockedReads g b queued).length = (s.heldReads g b).card := by
  obtain ⟨queued', queuesOk, die⟩ := rows
  cases queuesOk.holds.unique queues.holds
  have nodup : (s.blockedReads g b queued).Nodup := by
    apply List.Nodup.filter
    refine List.nodup_append'.mpr ⟨queues.holds.nodup _, queues.holds.nodup _, ?_⟩
    intro x buf row
    cases queues.holds.disjoint _ _ x buf row
  rw [← List.toFinset_card_of_nodup nodup]
  congr 1
  ext x
  simp only [List.mem_toFinset, blockedReads, List.mem_filter, List.mem_append, decide_eq_true_eq, mem_heldReads]
  constructor
  · rintro ⟨buf | row, read⟩
    · exact ⟨queues.slot _ x buf, .inl (queues.typed _ x buf), read⟩
    · exact ⟨queues.slot _ x row, .inr (queues.typed _ x row), read⟩
  · rintro ⟨-, buf | row, read⟩
    · exact ⟨.inl (queues.mem_bufDep.mpr buf), read⟩
    · refine ⟨.inr ?_, read⟩
      obtain ⟨chNo, -, wayNo, -, listed⟩ := queues.mem_rowAddrDep row
      have own := (die chNo wayNo x listed).2
      obtain ⟨-, -, addr, -, block⟩ := read
      simp only [nandDie, addr, block, Prod.mk.injEq] at own
      rw [own.1, own.2]
      exact listed

/-- The counter of the block is the number of its READs that are blocked, and did not wrap. -/
structure CountsBlockedReads (g : Geometry) (b : BlockAddr) (s : RequestLayer) (queued : ReqQueue → List Nat) :
    Prop where
  wellFormed : Dll.Holds reqSlotTagNone s.queues.links queued
  exact : (s.rowAddrDependency b).blockedReadReqCnt = (s.blockedReads g b queued).length
  inRange : (s.blockedReads g b queued).length < 2 ^ 16

theorem CountedOk.counts (ok : CountedOk g b s held flight) : ∃ queued, CountsBlockedReads g b s queued := by
  obtain ⟨queued, queues⟩ := ok.slots.queued
  have length := blockedReads_length (b := b) queues ok.rows
  refine ⟨queued, queues.holds, ?_, ?_⟩
  · rw [length]
    exact ok.reads
  · have few := heldReads_le (g := g) (b := b) (s := s)
    have slots := slots_lt g
    omega

/-- An ERASE passes its check only while no READ of its block is counted. -/
theorem checkRowAddrDep_erase {o : CheckRowAddrDepOpt} (code : (s.reqPool x).reqCode = .erase)
    (pass : s.checkRowAddrDep g x o = some (true, s')) : (s.dependency g x).blockedReadReqCnt = 0 := by
  simp only [checkRowAddrDep, code] at pass
  unfold dependency
  split at pass
  · split at pass
    · rename_i permitted
      exact permitted.2
    · cases o <;> simp at pass
  · cases pass

/-- In every run of the firmware's operations, with any completions and waits, the READ
counter of every block is exact between two operations. It is exact at every check an
operation makes as well, and an ERASE of the block only passes its check when none of the
block's READs is blocked. -/
theorem blockedReadReqCnt_exact {ops : List RequestOp} {fw : Firmware} (b : BlockAddr)
    (run : Run (requestStep g) (fun _ _ => True) (initFirmware g) ops fw) :
    (∃ queued, CountsBlockedReads g b fw.layer queued) ∧
    ∀ op fw', requestStep g fw op = some fw' → ∀ p ∈ opChecks g fw op,
      ∃ queued, CountsBlockedReads g b p.1 queued ∧
        ∀ o s', p.1.checkRowAddrDep g p.2 o = some (true, s') →
          (p.1.reqPool p.2).reqCode = .erase → blockAddr g (p.1.reqPool p.2).virtualSliceAddr = b →
            p.1.blockedReads g b queued = [] := by
  have ok := countedOk_of_run b run
  refine ⟨ok.counts, ?_⟩
  intro op fw' step p check
  have somewhere : Somewhere (CountedOk g b) p.1 := by
    refine op_checks countedOk_events ok ?_ p check
    rintro x req es rfl
    have member : x ∈ fw.held := by
      simp only [requestStep] at step
      split at step
      · rename_i allowed
        exact allowed.1
      · cases step
    exact ok.prepare member req
  obtain ⟨held, flight, here⟩ := somewhere
  obtain ⟨queued, counts⟩ := here.counts
  refine ⟨queued, counts, fun o s' pass code block => ?_⟩
  have zero := checkRowAddrDep_erase code pass
  rw [dependency, block, counts.exact] at zero
  exact List.length_eq_zero_iff.mp zero

/-- A READ waits for the write-back of its buffer, and the ERASE of the block for the READ. -/
theorem blockedReadReqCnt_exact_heldErase :
    ∃ fw, Run (requestStep tinyGeometry) (fun _ _ => True) (initFirmware tinyGeometry)
      [.alloc [], .submit 0 (blockReqOf .write 0 (some 0)) [],
        .alloc [], .submit 1 (blockReqOf .read 0 (some 0)) [],
        .alloc [], .submit 2 { blockReqOf .erase 0 none with programmedPageCnt := 1 } []] fw ∧
      (fw.layer.rowAddrDependency ⟨0, 0, 0⟩).blockedReadReqCnt = 1 ∧
      fw.layer.reqQueueType 2 = .blockedByRowAddrDep ∧
      ∃ queued, CountsBlockedReads tinyGeometry ⟨0, 0, 0⟩ fw.layer queued := by
  have done : (exec (requestStep tinyGeometry) (fun _ _ => True) (initFirmware tinyGeometry)
      [.alloc [], .submit 0 (blockReqOf .write 0 (some 0)) [],
        .alloc [], .submit 1 (blockReqOf .read 0 (some 0)) [],
        .alloc [], .submit 2 { blockReqOf .erase 0 none with programmedPageCnt := 1 } []]).any
      (fun fw => (fw.layer.rowAddrDependency ⟨0, 0, 0⟩).blockedReadReqCnt = 1 ∧
        fw.layer.reqQueueType 2 = .blockedByRowAddrDep) = true := by decide +kernel
  obtain ⟨fw, run, shown⟩ := run_of_exec_any done
  obtain ⟨counted, waits⟩ := of_decide_eq_true shown
  exact ⟨fw, run, counted, waits, (blockedReadReqCnt_exact ⟨0, 0, 0⟩ run).1⟩

end OcpFw
