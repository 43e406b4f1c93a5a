import OcpFw.RequestLayer

/-! What a step of the request layer can do. The checks are reduced to what they do
to one entry of the dependency table, a submission to a wait and one placement, and
the loop over a blocked queue to its turns. An invariant then only has to be kept by
the few actions named in `EventClosed` and `OpClosed`. -/
namespace OcpFw

variable {g : Geometry}

/-! ### The row-address check -/

/-- The requests `CheckRowAddrDep` and its callers accept. -/
def Checkable (req : SsdReq) : Prop :=
  req.rowAddrDependencyCheck = true ∧ req.nandAddr = .vsa ∧
    (req.reqCode = .read ∨ req.reqCode = .write ∨ req.reqCode = .erase)

namespace RowAddrDependency

/-- The entry of its block lets a request pass. -/
def Permits (g : Geometry) (d : RowAddrDependency) (req : SsdReq) : Prop :=
  match req.reqCode with
  | .read => vsa2VpageTranslation g req.virtualSliceAddr < d.permittedProgPage
  | .write => vsa2VpageTranslation g req.virtualSliceAddr = d.permittedProgPage
  | .erase => d.permittedProgPage = req.programmedPageCnt ∧ d.blockedReadReqCnt = 0
  | _ => False

instance (d : RowAddrDependency) (req : SsdReq) : Decidable (d.Permits g req) := by
  unfold Permits
  cases req.reqCode <;> infer_instance

/-- The entry after a request passed. -/
def passed (d : RowAddrDependency) (req : SsdReq) (select : Bool) : RowAddrDependency :=
  match req.reqCode with
  | .read => if select then d else { d with blockedReadReqCnt := dec16 d.blockedReadReqCnt }
  | .write => { d with permittedProgPage := inc12 d.permittedProgPage }
  | .erase => { d with permittedProgPage := 0, blockedEraseReqFlag := false }
  | _ => d

/-- The entry after a request was refused; only a submission leaves a trace. -/
def refused (d : RowAddrDependency) (req : SsdReq) : RowAddrDependency :=
  match req.reqCode with
  | .read => { d with blockedReadReqCnt := inc16 d.blockedReadReqCnt }
  | .erase => { d with blockedEraseReqFlag := true }
  | _ => d

end RowAddrDependency

/-- The two check options, the wait of a submission being over. -/
def settled (select : Bool) : CheckRowAddrDepOpt :=
  if select then .select fun s _ => some s else .release

namespace RequestLayer
variable {s s' : RequestLayer} {x chNo wayNo : Nat} {select pass : Bool} {es : List Event}

/-- The entry of the block a request is addressed to. -/
def dependency (g : Geometry) (s : RequestLayer) (x : Nat) : RowAddrDependency :=
  s.rowAddrDependency (blockAddr g (s.reqPool x).virtualSliceAddr)

def updateDependency (g : Geometry) (s : RequestLayer) (x : Nat)
    (f : RowAddrDependency → RowAddrDependency) : RequestLayer :=
  s.setDependency (blockAddr g (s.reqPool x).virtualSliceAddr) (f (s.dependency g x))

/-- The check passes. -/
def Permitted (g : Geometry) (s : RequestLayer) (x : Nat) : Prop :=
  (s.dependency g x).Permits g (s.reqPool x)

instance (s : RequestLayer) (x : Nat) : Decidable (s.Permitted g x) := by
  unfold Permitted
  infer_instance

/-- The entry of its block after a request passed. -/
def passed (g : Geometry) (s : RequestLayer) (x : Nat) (select : Bool) : RequestLayer :=
  s.updateDependency g x fun d => d.passed (s.reqPool x) select

/-- The entry of its block after a request was refused. -/
def refused (g : Geometry) (s : RequestLayer) (x : Nat) (select : Bool) : RequestLayer :=
  if select then s.updateDependency g x fun d => d.refused (s.reqPool x) else s

theorem setDependency_self (s : RequestLayer) (b : BlockAddr) :
    s.setDependency b (s.rowAddrDependency b) = s := by
  simp [setDependency]

/-! What the dependency table does not touch. -/

@[simp] theorem passed_reqPool : (s.passed g x select).reqPool = s.reqPool := rfl
@[simp] theorem passed_queues : (s.passed g x select).queues = s.queues := rfl
@[simp] theorem passed_blocking : (s.passed g x select).blocking = s.blocking := rfl
@[simp] theorem passed_submissions : (s.passed g x select).submissions = s.submissions := rfl
@[simp] theorem passed_submission : (s.passed g x select).submission = s.submission := rfl
@[simp] theorem passed_started : (s.passed g x select).started = s.started := rfl

@[simp] theorem refused_reqPool : (s.refused g x select).reqPool = s.reqPool := by
  cases select <;> rfl
@[simp] theorem refused_queues : (s.refused g x select).queues = s.queues := by
  cases select <;> rfl
@[simp] theorem refused_blocking : (s.refused g x select).blocking = s.blocking := by
  cases select <;> rfl
@[simp] theorem refused_submissions : (s.refused g x select).submissions = s.submissions := by
  cases select <;> rfl
@[simp] theorem refused_submission : (s.refused g x select).submission = s.submission := by
  cases select <;> rfl
@[simp] theorem refused_started : (s.refused g x select).started = s.started := by
  cases select <;> rfl

/-- A refusal changes the counter of its block, for a READ that is submitted. -/
theorem refused_entry (g : Geometry) (b : BlockAddr) (s : RequestLayer) (x : Nat) (select : Bool) :
    let d := s.rowAddrDependency b
    let d' := (s.refused g x select).rowAddrDependency b
    let counted := select = true ∧ blockAddr g (s.reqPool x).virtualSliceAddr = b ∧
      (s.reqPool x).reqCode = .read
    d'.permittedProgPage = d.permittedProgPage ∧
      (counted → d'.blockedReadReqCnt = inc16 d.blockedReadReqCnt) ∧
      (¬ counted → d'.blockedReadReqCnt = d.blockedReadReqCnt) := by
  cases select with
  | false => simp [refused]
  | true =>
    by_cases block : blockAddr g (s.reqPool x).virtualSliceAddr = b
    · subst block
      cases code : (s.reqPool x).reqCode <;>
        simp [refused, updateDependency, setDependency, RowAddrDependency.refused, dependency, code]
    · have other : b ≠ blockAddr g (s.reqPool x).virtualSliceAddr := fun same => block same.symm
      simp [refused, updateDependency, setDependency, block, other]

/-- A pass changes it for a READ that is released. -/
theorem passed_entry (g : Geometry) (b : BlockAddr) (s : RequestLayer) (x : Nat) (select : Bool) :
    let d := s.rowAddrDependency b
    let d' := (s.passed g x select).rowAddrDependency b
    let counted := select = false ∧ blockAddr g (s.reqPool x).virtualSliceAddr = b ∧
      (s.reqPool x).reqCode = .read
    (counted → d'.blockedReadReqCnt = dec16 d.blockedReadReqCnt) ∧
      (¬ counted → d'.blockedReadReqCnt = d.blockedReadReqCnt) := by
  by_cases block : blockAddr g (s.reqPool x).virtualSliceAddr = b
  · subst block
    cases select <;> cases code : (s.reqPool x).reqCode <;>
      simp [passed, updateDependency, setDependency, RowAddrDependency.passed, dependency, code]
  · have other : b ≠ blockAddr g (s.reqPool x).virtualSliceAddr := fun same => block same.symm
    simp [passed, updateDependency, setDependency, block, other]

/-- A check that does not wait writes the entry of one block. -/
theorem checkRowAddrDep_settled
    (h : s.checkRowAddrDep g x (settled select) = some (pass, s')) :
    (s.reqPool x).nandAddr = .vsa ∧
      ((s.reqPool x).reqCode = .read ∨ (s.reqPool x).reqCode = .write ∨
        (s.reqPool x).reqCode = .erase) ∧
      ((pass = true ∧ s.Permitted g x ∧ s' = s.passed g x select) ∨
        (pass = false ∧ ¬ s.Permitted g x ∧ s' = s.refused g x select)) := by
  unfold checkRowAddrDep at h
  by_cases addr : (s.reqPool x).nandAddr = .vsa
  swap
  · simp [addr] at h
  simp only [addr, ↓reduceIte] at h
  refine ⟨addr, ?_⟩
  have same := setDependency_self s (blockAddr g (s.reqPool x).virtualSliceAddr)
  unfold Permitted RowAddrDependency.Permits passed refused updateDependency
    RowAddrDependency.passed RowAddrDependency.refused dependency
  cases code : (s.reqPool x).reqCode <;> simp only [code] at h ⊢ <;> try cases h
  · split at h <;> cases h <;> simp_all
  · cases select with
    | false =>
      simp only [settled, Bool.false_eq_true, ↓reduceIte] at h
      split at h <;> cases h <;> simp_all
    | true =>
      simp only [settled, ↓reduceIte, ite_self, Option.bind_eq_bind, Option.bind_some] at h
      split at h <;> cases h <;> simp_all
  · cases select with
    | false =>
      simp only [settled, Bool.false_eq_true, ↓reduceIte] at h
      split at h <;> cases h <;> simp_all
    | true =>
      simp only [settled, ↓reduceIte] at h
      split at h <;> cases h <;> simp_all

/-- A checkable request passes or fails its check; no assertion fires. -/
theorem checkRowAddrDep_isSome (ok : Checkable (s.reqPool x)) :
    ∃ pass s', s.checkRowAddrDep g x (settled select) = some (pass, s') := by
  obtain ⟨-, addr, code | code | code⟩ := ok <;> unfold checkRowAddrDep <;>
    simp only [addr, code, ↓reduceIte]
  · cases select <;> simp only [settled, Bool.false_eq_true, ↓reduceIte, ite_self,
      Option.bind_eq_bind, Option.bind_some] <;> split <;> exact ⟨_, _, rfl⟩
  · split <;> exact ⟨_, _, rfl⟩
  · split
    · exact ⟨_, _, rfl⟩
    · cases select <;> exact ⟨_, _, rfl⟩

/-- What dispatching a NAND request that does not wait can do. -/
theorem dispatchNandReq_settled
    (h : s.dispatchNandReq g x chNo wayNo (settled select) = some s') :
    ((s.reqPool x).rowAddrDependencyCheck = false ∧ s' = s.putToNandReqQ x chNo wayNo) ∨
    (Checkable (s.reqPool x) ∧ s.Permitted g x ∧
      s' = (s.passed g x select).putToNandReqQ x chNo wayNo) ∨
    (Checkable (s.reqPool x) ∧ ¬ s.Permitted g x ∧
      s' = (s.refused g x select).putToBlockedByRowAddrDepReqQ x chNo wayNo) := by
  unfold dispatchNandReq at h
  cases check : (s.reqPool x).rowAddrDependencyCheck with
  | false =>
    simp only [check, Bool.false_eq_true, ↓reduceIte, Option.some.injEq] at h
    exact .inl ⟨rfl, h.symm⟩
  | true =>
    simp only [check, ↓reduceIte, Option.bind_eq_bind, Option.bind_eq_some_iff] at h
    obtain ⟨⟨pass, t⟩, checked, placed⟩ := h
    obtain ⟨addr, code, ⟨rfl, permitted, rfl⟩ | ⟨rfl, blocked, rfl⟩⟩ :=
      checkRowAddrDep_settled checked
    · simp only [↓reduceIte, Option.some.injEq] at placed
      exact .inr (.inl ⟨⟨check, addr, code⟩, permitted, placed.symm⟩)
    · simp only [Bool.false_eq_true, ↓reduceIte, Option.some.injEq] at placed
      exact .inr (.inr ⟨⟨check, addr, code⟩, blocked, placed.symm⟩)

/-- What one turn of the recheck loop can do. -/
theorem recheckRowAddrDep_cases (h : s.recheckRowAddrDep g x chNo wayNo = some s') :
    Checkable (s.reqPool x) ∧
      ((s.Permitted g x ∧
        s' = ((s.passed g x false).setQueues
          (s.queues.selectiveGetFromBlockedByRowAddrDepReqQ x chNo wayNo)).putToNandReqQ x chNo
            wayNo) ∨
      (¬ s.Permitted g x ∧ s' = s)) := by
  unfold recheckRowAddrDep at h
  cases check : (s.reqPool x).rowAddrDependencyCheck with
  | false => simp [check] at h
  | true =>
    simp only [check, ↓reduceIte, Option.bind_eq_bind, Option.bind_eq_some_iff] at h
    obtain ⟨⟨pass, t⟩, checked, placed⟩ := h
    have release : CheckRowAddrDepOpt.release = settled false := rfl
    rw [release] at checked
    obtain ⟨addr, code, ⟨rfl, permitted, rfl⟩ | ⟨rfl, blocked, rfl⟩⟩ :=
      checkRowAddrDep_settled checked
    · simp only [↓reduceIte, Option.some.injEq] at placed
      exact ⟨⟨check, addr, code⟩, .inl ⟨permitted, placed.symm⟩⟩
    · simp only [Bool.false_eq_true, ↓reduceIte, Option.some.injEq] at placed
      exact ⟨⟨check, addr, code⟩, .inr ⟨blocked, placed.symm⟩⟩

/-! ### Placing a request -/

/-- A request that is in no queue goes to the hardware or to the blocked queue of its die. -/
def Placed (g : Geometry) (s : RequestLayer) (x : Nat) (select : Bool) (s' : RequestLayer) : Prop :=
  ((s.reqPool x).reqType = .nvmeDma ∧ s.startNvmeDmaReq g x = some s') ∨
  ((s.reqPool x).reqType = .nand ∧
    s.dispatchNandReq g x (nandDie g (s.reqPool x)).1 (nandDie g (s.reqPool x)).2
      (settled select) = some s')

/-- Recording where the commands of a DMA request end. -/
def issued (s : RequestLayer) (x : Nat) (info : NvmeDmaInfo) (hostDma : HostDma) : RequestLayer :=
  { s with
    reqPool := Function.update s.reqPool x { s.reqPool x with nvmeDmaInfo := info }
    hostDma := hostDma }

/-- The four ways a request is placed. -/
theorem Placed.cases (h : Placed g s x select s') :
    ((s.reqPool x).reqType = .nvmeDma ∧
      ∃ info hostDma, s' = (s.issued x info hostDma).setQueues (s.queues.putToNvmeDmaReqQ x)) ∨
    ((s.reqPool x).reqType = .nand ∧ ∃ chNo wayNo, (chNo, wayNo) = nandDie g (s.reqPool x) ∧
      (((s.reqPool x).rowAddrDependencyCheck = false ∧ s' = s.putToNandReqQ x chNo wayNo) ∨
      (Checkable (s.reqPool x) ∧ s.Permitted g x ∧
        s' = (s.passed g x select).putToNandReqQ x chNo wayNo) ∨
      (Checkable (s.reqPool x) ∧ ¬ s.Permitted g x ∧
        s' = (s.refused g x select).putToBlockedByRowAddrDepReqQ x chNo wayNo))) := by
  obtain ⟨type, dma⟩ | ⟨type, nand⟩ := h
  · refine .inl ⟨type, ?_⟩
    simp only [startNvmeDmaReq, Option.bind_eq_bind, Option.bind_eq_some_iff, Option.some.injEq] at dma
    obtain ⟨⟨req, hostDma⟩, issue, rfl⟩ := dma
    have same : ∃ info, req = { s.reqPool x with nvmeDmaInfo := info } := by
      simp only [issueNvmeDmaReq, Option.bind_eq_bind, Option.bind_eq_some_iff] at issue
      obtain ⟨devAddr, -, issue⟩ := issue
      split at issue
      · simp only [Option.bind_eq_some_iff, Option.some.injEq, Prod.mk.injEq] at issue
        obtain ⟨-, -, rfl, -⟩ := issue
        exact ⟨_, rfl⟩
      · simp only [Option.bind_eq_some_iff, Option.some.injEq, Prod.mk.injEq] at issue
        obtain ⟨-, -, rfl, -⟩ := issue
        exact ⟨_, rfl⟩
      · cases issue
    obtain ⟨info, rfl⟩ := same
    exact ⟨info, hostDma, rfl⟩
  · exact .inr ⟨type, _, _, rfl, dispatchNandReq_settled nand⟩

/-- A released request is placed. -/
theorem Placed.of_startReleasedReq (h : s.startReleasedReq g x = some s')
    (type : (s.reqPool x).reqType ≠ .slice) : Placed g s x false s' := by
  unfold startReleasedReq at h
  cases reqType : (s.reqPool x).reqType with
  | nvmeDma => exact .inl ⟨reqType, by simpa only [reqType] using h⟩
  | nand =>
    simp only [reqType] at h
    cases addr : (s.reqPool x).nandAddr with
    | vsa =>
      simp only [addr, show CheckRowAddrDepOpt.release = settled false from rfl] at h
      refine .inr ⟨reqType, ?_⟩
      simpa only [nandDie, addr] using h
    | phyOrg =>
      simp only [addr] at h
      cases h
  | slice => exact absurd reqType type

/-! ### Releasing the successor of a finished request -/

/-- The finished request is cut off the chain of its buffer entry. -/
def cut (s : RequestLayer) (x : Nat) : RequestLayer :=
  { s with blocking := (s.blocking.splitAt (s.reqPool x).bufEntry x).2 }

/-- The successor is started when it was held back for the buffer. -/
theorem releaseBlockedByBufDepReq_cases (h : s.releaseBlockedByBufDepReq g x = some s') :
    (¬ (s.blocking.nextBlockingReq x ≠ reqSlotTagNone ∧
        s.reqQueueType (s.blocking.nextBlockingReq x) = .blockedByBufDep) ∧ s' = s.cut x) ∨
    ((s.blocking.nextBlockingReq x ≠ reqSlotTagNone ∧
        s.reqQueueType (s.blocking.nextBlockingReq x) = .blockedByBufDep) ∧
      ((s.cut x).setQueues (s.queues.selectiveGetFromBlockedByBufDepReqQ
        (s.blocking.nextBlockingReq x))).startReleasedReq g (s.blocking.nextBlockingReq x) =
          some s') := by
  simp only [releaseBlockedByBufDepReq] at h
  split at h
  · rename_i held
    exact .inr ⟨held, h⟩
  · rename_i other
    cases h
    exact .inl ⟨other, rfl⟩

/-! ### Submitting a request -/

/-- A READ that finds an ERASE of its block waiting. -/
def WaitsForErase (g : Geometry) (s : RequestLayer) (x : Nat) : Prop :=
  (s.reqPool x).reqType = .nand ∧ Checkable (s.reqPool x) ∧ (s.reqPool x).reqCode = .read ∧
    (s.dependency g x).blockedEraseReqFlag = true

/-- A NAND request whose row address is checked has a virtual address; the source asserts it. -/
def Addressed (req : SsdReq) : Prop :=
  req.reqType = .nand → req.rowAddrDependencyCheck = true → req.nandAddr = .vsa

/-- Hold a request back for its buffer; a checked one leaves a trace in the entry of its block. -/
def hold (g : Geometry) (s : RequestLayer) (x : Nat) : RequestLayer :=
  (if (s.reqPool x).reqType = .nand ∧ (s.reqPool x).rowAddrDependencyCheck then s.refused g x true
    else s).setQueues (s.queues.putToBlockedByBufDepReqQ x)

/-! What holding a request back touches: the queues, and the entry of a checked request. -/

@[simp] theorem hold_queues : (s.hold g x).queues = s.queues.putToBlockedByBufDepReqQ x := rfl
@[simp] theorem hold_reqPool : (s.hold g x).reqPool = s.reqPool := by
  unfold hold; split <;> simp [setQueues]
@[simp] theorem hold_hostDma : (s.hold g x).hostDma = s.hostDma := by
  unfold hold; split <;> rfl
@[simp] theorem hold_blocking : (s.hold g x).blocking = s.blocking := by
  unfold hold; split <;> simp [setQueues]
@[simp] theorem hold_submissions : (s.hold g x).submissions = s.submissions := by
  unfold hold; split <;> simp [setQueues]
@[simp] theorem hold_submission : (s.hold g x).submission = s.submission := by
  unfold hold; split <;> simp [setQueues]
@[simp] theorem hold_started : (s.hold g x).started = s.started := by
  unfold hold; split <;> simp [setQueues]

theorem hold_checked (checked : (s.reqPool x).reqType = .nand ∧ (s.reqPool x).rowAddrDependencyCheck) :
    (s.hold g x).rowAddrDependency = (s.refused g x true).rowAddrDependency := by
  rw [hold, if_pos checked]
  rfl

theorem hold_unchecked (free : ¬ ((s.reqPool x).reqType = .nand ∧ (s.reqPool x).rowAddrDependencyCheck)) :
    (s.hold g x).rowAddrDependency = s.rowAddrDependency := by
  rw [hold, if_neg free]
  rfl

/-- A check that finds no ERASE waiting does not wait. -/
private theorem checkRowAddrDep_select (sync : RequestLayer → BlockAddr → Option RequestLayer)
    (clear : (s.reqPool x).reqCode = .read → (s.dependency g x).blockedEraseReqFlag = false) :
    s.checkRowAddrDep g x (.select sync) = s.checkRowAddrDep g x (settled true) := by
  unfold checkRowAddrDep
  cases code : (s.reqPool x).reqCode with
  | read =>
    have flag : (s.rowAddrDependency (blockAddr g
      (s.reqPool x).virtualSliceAddr)).blockedEraseReqFlag = false := clear code
    simp [settled, code, flag]
  | _ => simp [settled, code]

/-- A dispatch that waits is the wait followed by a dispatch. -/
private theorem dispatchNandReq_select (type : (s.reqPool x).reqType = .nand)
    (h : s.dispatchNandReq g x chNo wayNo (.select (syncReleaseEraseReq g es)) = some s') :
    (¬ s.WaitsForErase g x ∧ s.dispatchNandReq g x chNo wayNo (settled true) = some s') ∨
    (s.WaitsForErase g x ∧ ∃ t, s.events g es = some t ∧ (t.reqPool x = s.reqPool x →
      t.dispatchNandReq g x chNo wayNo (settled true) = some s')) := by
  by_cases waits : s.WaitsForErase g x
  · refine .inr ⟨waits, ?_⟩
    obtain ⟨-, ⟨check, addr, -⟩, code, flag⟩ := waits
    simp only [dispatchNandReq, check, ↓reduceIte, checkRowAddrDep, addr, code,
      show (s.rowAddrDependency _).blockedEraseReqFlag = true from flag, syncReleaseEraseReq,
      Option.bind_eq_bind, Option.bind_eq_some_iff] at h
    obtain ⟨result, ⟨t, ⟨u, ran, clear⟩, checked⟩, placed⟩ := h
    split at clear <;> cases clear
    refine ⟨t, ran, fun same => ?_⟩
    simp only [dispatchNandReq, same, check, ↓reduceIte, checkRowAddrDep, addr, code, settled,
      ite_self, Option.bind_eq_bind, Option.bind_some, Option.bind_eq_some_iff]
    exact ⟨result, checked, placed⟩
  · refine .inl ⟨waits, ?_⟩
    rw [← h]
    by_cases check : (s.reqPool x).rowAddrDependencyCheck = true
    · by_cases addr : (s.reqPool x).nandAddr = .vsa
      · have clear : (s.reqPool x).reqCode = .read →
            (s.dependency g x).blockedEraseReqFlag = false := by
          intro code
          rw [← Bool.not_eq_true]
          exact fun set => waits ⟨type, ⟨check, addr, .inl code⟩, code, set⟩
        simp only [dispatchNandReq, checkRowAddrDep_select _ clear]
      · simp [dispatchNandReq, checkRowAddrDep, addr]
    · simp [dispatchNandReq, check]

/-- A held request is given its trace, or waits and then leaves its trace or is dispatched. -/
private theorem updateRowAddrDep_cases (sync : Bool) (t : RequestLayer)
    (type : (s.reqPool x).reqType = .nand) (check : (s.reqPool x).rowAddrDependencyCheck = true)
    (h : s.updateRowAddrDepTableForBufBlockedReq g es x = some (sync, t)) :
    (s.reqPool x).nandAddr = .vsa ∧
    ((¬ s.WaitsForErase g x ∧ sync = false ∧ t = s.refused g x true) ∨
    (s.WaitsForErase g x ∧ ∃ u, s.events g es = some u ∧ (u.reqPool x = s.reqPool x →
      (u.CheckBufDep x ∧ sync = true ∧ Placed g u x true t) ∨
      (¬ u.CheckBufDep x ∧ sync = false ∧ t = u.refused g x true)))) := by
  unfold updateRowAddrDepTableForBufBlockedReq at h
  by_cases addr : (s.reqPool x).nandAddr = .vsa
  swap
  · simp [addr] at h
  refine ⟨addr, ?_⟩
  simp only [addr, ↓reduceIte] at h
  by_cases waits : s.WaitsForErase g x
  · refine .inr ⟨waits, ?_⟩
    obtain ⟨-, -, code, flag⟩ := waits
    simp only [code, show (s.rowAddrDependency _).blockedEraseReqFlag = true from flag, ↓reduceIte,
      syncReleaseEraseReq, Option.bind_eq_bind, Option.bind_eq_some_iff] at h
    obtain ⟨u, ⟨v, ran, clear⟩, result⟩ := h
    split at clear <;> cases clear
    refine ⟨u, ran, fun same => ?_⟩
    have refused : u.refused g x true = u.setDependency (blockAddr g (s.reqPool x).virtualSliceAddr)
        { u.rowAddrDependency (blockAddr g (s.reqPool x).virtualSliceAddr) with
          blockedReadReqCnt := inc16 (u.rowAddrDependency
            (blockAddr g (s.reqPool x).virtualSliceAddr)).blockedReadReqCnt } := by
      simp [RequestLayer.refused, updateDependency, RowAddrDependency.refused, dependency, same, code]
    by_cases free : u.CheckBufDep x
    · refine .inl ⟨free, ?_⟩
      simp only [free, ↓reduceIte] at result
      have dispatch : u.dispatchNandReq g x (nandDie g (u.reqPool x)).1 (nandDie g (u.reqPool x)).2
          (settled true) = some t ∧ sync = true := by
        simp only [dispatchNandReq, same, check, ↓reduceIte, checkRowAddrDep, addr, code, settled,
          ite_self, nandDie, Option.bind_eq_bind, Option.bind_some]
        by_cases page : vsa2VpageTranslation g (s.reqPool x).virtualSliceAddr <
            (u.rowAddrDependency (blockAddr g (s.reqPool x).virtualSliceAddr)).permittedProgPage
        · simp only [page, ↓reduceIte, Option.some.injEq, Prod.mk.injEq] at result
          simp [page, ← result.1, ← result.2]
        · simp only [page, ↓reduceIte, Option.some.injEq, Prod.mk.injEq] at result
          simp [page, ← result.1, ← result.2]
      exact ⟨dispatch.2, .inr ⟨same ▸ type, dispatch.1⟩⟩
    · refine .inr ⟨free, ?_⟩
      simp only [free, ↓reduceIte, Option.some.injEq, Prod.mk.injEq] at result
      exact ⟨result.1.symm, by rw [refused, ← result.2]⟩
  · refine .inl ⟨waits, ?_⟩
    unfold RequestLayer.refused updateDependency RowAddrDependency.refused dependency
    cases code : (s.reqPool x).reqCode with
    | read =>
      have flag : (s.rowAddrDependency (blockAddr g
          (s.reqPool x).virtualSliceAddr)).blockedEraseReqFlag = false := by
        rw [← Bool.not_eq_true]
        exact fun set => waits ⟨type, ⟨check, addr, .inl code⟩, code, set⟩
      simp only [code, flag, Bool.false_eq_true, ↓reduceIte, Option.some.injEq, Prod.mk.injEq] at h
      exact ⟨h.1.symm, by simp [← h.2, flag]⟩
    | erase =>
      simp only [code, Option.some.injEq, Prod.mk.injEq] at h
      exact ⟨h.1.symm, by simp [← h.2]⟩
    | _ =>
      simp only [code, Option.some.injEq, Prod.mk.injEq] at h
      exact ⟨h.1.symm, by simp [← h.2, setDependency_self]⟩

/-- The wait for an ERASE ends when the flag of the block is clear. -/
theorem selectLowLevelReqQ_clear (h : s.selectLowLevelReqQ g es x = some s') (waits : s.WaitsForErase g x)
    (ran : s.events g es = some t) :
    (t.rowAddrDependency (blockAddr g (s.reqPool x).virtualSliceAddr)).blockedEraseReqFlag = false := by
  obtain ⟨type, ⟨check, addr, -⟩, code, flag⟩ := waits
  rw [dependency] at flag
  by_contra set
  rw [Bool.not_eq_false] at set
  have stuck : s.syncReleaseEraseReq g es (blockAddr g (s.reqPool x).virtualSliceAddr) = none := by
    simp [syncReleaseEraseReq, flag, ran, set]
  unfold selectLowLevelReqQ at h
  by_cases free : s.CheckBufDep x
  · simp [free, type, dispatchNandReq, check, checkRowAddrDep, addr, code, flag, stuck] at h
  · simp [free, type, check, updateRowAddrDepTableForBufBlockedReq, addr, code, flag, stuck] at h

/-- A submission waits for an ERASE or not, and then the request is placed or held back. -/
theorem selectLowLevelReqQ_cases (h : s.selectLowLevelReqQ g es x = some s') :
    (¬ s.WaitsForErase g x ∧ s.CheckBufDep x ∧ Placed g s x true s') ∨
    (¬ s.WaitsForErase g x ∧ ¬ s.CheckBufDep x ∧ Addressed (s.reqPool x) ∧ s' = s.hold g x) ∨
    (s.WaitsForErase g x ∧ ∃ t, s.events g es = some t ∧
      (t.reqPool x = s.reqPool x → (s.CheckBufDep x → t.CheckBufDep x) →
        (t.CheckBufDep x ∧ Placed g t x true s') ∨
        (¬ t.CheckBufDep x ∧ Addressed (s.reqPool x) ∧ s' = t.hold g x))) := by
  unfold selectLowLevelReqQ at h
  by_cases free : s.CheckBufDep x
  · simp only [free, ↓reduceIte] at h
    cases reqType : (s.reqPool x).reqType with
    | slice =>
      simp only [reqType] at h
      cases h
    | nvmeDma =>
      simp only [reqType] at h
      refine .inl ⟨?_, free, .inl ⟨reqType, h⟩⟩
      rintro ⟨nand, -⟩
      simp [reqType] at nand
    | nand =>
      simp only [reqType] at h
      rcases dispatchNandReq_select reqType h with ⟨no, placed⟩ | ⟨waits, t, ran, placed⟩
      · exact .inl ⟨no, free, .inr ⟨reqType, placed⟩⟩
      · refine .inr (.inr ⟨waits, t, ran, fun same kept => .inl ⟨kept free, ?_⟩⟩)
        exact .inr ⟨same ▸ reqType, same ▸ placed same⟩
  · simp only [free, ↓reduceIte] at h
    by_cases checked : (s.reqPool x).reqType = .nand ∧ (s.reqPool x).rowAddrDependencyCheck = true
    · rw [if_pos checked] at h
      simp only [Option.bind_eq_bind, Option.bind_eq_some_iff] at h
      obtain ⟨⟨sync, t⟩, updated, result⟩ := h
      obtain ⟨addr, ⟨no, rfl, rfl⟩ | ⟨waits, u, ran, after⟩⟩ :=
        updateRowAddrDep_cases sync t checked.1 checked.2 updated
      · simp only [Bool.false_eq_true, ↓reduceIte, Option.some.injEq] at result
        refine .inr (.inl ⟨no, free, fun _ _ => addr, ?_⟩)
        rw [← result, hold, if_pos checked, refused_queues]
      · refine .inr (.inr ⟨waits, u, ran, fun same _ => ?_⟩)
        rcases after same with ⟨now, rfl, placed⟩ | ⟨still, rfl, rfl⟩
        · simp only [↓reduceIte, Option.some.injEq] at result
          exact .inl ⟨now, result ▸ placed⟩
        · simp only [Bool.false_eq_true, ↓reduceIte, Option.some.injEq] at result
          refine .inr ⟨still, fun _ _ => addr, ?_⟩
          rw [← result, hold, same, if_pos checked, refused_queues]
    · rw [if_neg checked, Option.some.injEq] at h
      refine .inr (.inl ⟨fun waits => checked ⟨waits.1, waits.2.1.1⟩, free, ?_, ?_⟩)
      · exact fun nand check => absurd ⟨nand, check⟩ checked
      · rw [← h, hold, if_neg checked]

end RequestLayer

end OcpFw
