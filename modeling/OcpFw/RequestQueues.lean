import OcpFw.Dll
import OcpFw.Geometry
import Mathlib.Algebra.Order.BigOperators.Group.Finset
import Mathlib.Data.Finset.Prod
import Mathlib.Algebra.Group.Action.Defs

/-! The request queues of `request_allocation.c`. All queues share the links of
the request pool, and every slot records the kind of queue it is in. The copied
Put/Get routines of the source are one definition each for appending, popping
and unlinking, used at their own queue. -/
namespace OcpFw

/-- `REQ_SLOT_TAG_NONE`. -/
def reqSlotTagNone : Nat := 0xffff

/-- `AVAILABLE_OUNTSTANDING_REQ_COUNT`. -/
def availableOutstandingReqCount (g : Geometry) : Nat := g.userDies * 128

theorem slots_lt (g : Geometry) : availableOutstandingReqCount g ≤ 32768 := by
  have dies := g.dies_fit
  unfold availableOutstandingReqCount Geometry.userDies
  omega

/-- The `REQ_QUEUE_TYPE_*` values. -/
inductive ReqQueueType where
  | none
  | free
  | slice
  | blockedByBufDep
  | blockedByRowAddrDep
  | nvmeDma
  | nand
  deriving DecidableEq

/-- The queues themselves; two kinds have one queue for each die. -/
inductive ReqQueue where
  | free
  | slice
  | blockedByBufDep
  | blockedByRowAddrDep (chNo wayNo : Nat)
  | nvmeDma
  | nand (chNo wayNo : Nat)
  deriving DecidableEq

/-- The two counters kept over several queues: `notCompletedNandReqCnt` and `blockedReqCnt`. -/
inductive SharedCnt where
  | notCompletedNandReq
  | blockedReq
  deriving DecidableEq

namespace ReqQueue

def queueType : ReqQueue → ReqQueueType
  | free => .free
  | slice => .slice
  | blockedByBufDep => .blockedByBufDep
  | blockedByRowAddrDep _ _ => .blockedByRowAddrDep
  | nvmeDma => .nvmeDma
  | nand _ _ => .nand

def sharedCnt : ReqQueue → Option SharedCnt
  | free | slice | nvmeDma => none
  | blockedByBufDep | blockedByRowAddrDep _ _ => some .blockedReq
  | nand _ _ => some .notCompletedNandReq

/-- The queue exists: its die is a die of the device. -/
def Exists (g : Geometry) : ReqQueue → Prop
  | blockedByRowAddrDep chNo wayNo | nand chNo wayNo => chNo < g.userChannels ∧ wayNo < g.userWays
  | _ => True

theorem queueType_ne_none (q : ReqQueue) : q.queueType ≠ .none := by
  cases q <;> simp [queueType]

end ReqQueue

/-- The queues, with the `reqQueueType` of every slot and the counters. -/
structure RequestQueues where
  links : Dll.Table ReqQueue Nat
  reqQueueType : Nat → ReqQueueType
  reqCnt : ReqQueue → Nat
  sharedCnt : SharedCnt → Nat

namespace RequestQueues

def notCompletedNandReqCnt (s : RequestQueues) : Nat := s.sharedCnt .notCompletedNandReq

def blockedReqCnt (s : RequestQueues) : Nat := s.sharedCnt .blockedReq

/-- Step the shared counter of a queue, when it has one. -/
def countShared (q : ReqQueue) (step : Nat → Nat) (cnt : SharedCnt → Nat) : SharedCnt → Nat :=
  match q.sharedCnt with
  | none => cnt
  | some c => Function.update cnt c (step (cnt c))

/-- Append a slot to a queue. -/
def putTo (s : RequestQueues) (q : ReqQueue) (reqSlotTag : Nat) : RequestQueues where
  links := s.links.pushBack reqSlotTagNone q reqSlotTag
  reqQueueType := Function.update s.reqQueueType reqSlotTag q.queueType
  reqCnt := Function.update s.reqCnt q (inc16 (s.reqCnt q))
  sharedCnt := countShared q inc32 s.sharedCnt

/-- Take the first slot of a queue. -/
def getFrom (s : RequestQueues) (q : ReqQueue) : RequestQueues where
  links := s.links.popFront reqSlotTagNone q
  reqQueueType := Function.update s.reqQueueType (s.links.head q) .none
  reqCnt := Function.update s.reqCnt q (dec16 (s.reqCnt q))
  sharedCnt := countShared q dec32 s.sharedCnt

/-- Take a given slot out of a queue. -/
def selectiveGetFrom (s : RequestQueues) (q : ReqQueue) (reqSlotTag : Nat) : RequestQueues where
  links := s.links.remove reqSlotTagNone q reqSlotTag
  reqQueueType := Function.update s.reqQueueType reqSlotTag .none
  reqCnt := Function.update s.reqCnt q (dec16 (s.reqCnt q))
  sharedCnt := countShared q dec32 s.sharedCnt

/-! ### The routines of the source -/

def putToFreeReqQ (s : RequestQueues) (reqSlotTag : Nat) : RequestQueues := s.putTo .free reqSlotTag

/-- The part of `GetFromFreeReqQ` after the free queue was found or made non-empty. -/
def getFromFreeReqQ (s : RequestQueues) : Nat × RequestQueues := (s.links.head .free, s.getFrom .free)

def putToSliceReqQ (s : RequestQueues) (reqSlotTag : Nat) : RequestQueues := s.putTo .slice reqSlotTag

/-- `none` is `REQ_SLOT_TAG_FAIL`. -/
def getFromSliceReqQ (s : RequestQueues) : Option (Nat × RequestQueues) :=
  if s.links.head .slice = reqSlotTagNone then none
  else some (s.links.head .slice, s.getFrom .slice)

def putToBlockedByBufDepReqQ (s : RequestQueues) (reqSlotTag : Nat) : RequestQueues :=
  s.putTo .blockedByBufDep reqSlotTag

def selectiveGetFromBlockedByBufDepReqQ (s : RequestQueues) (reqSlotTag : Nat) : RequestQueues :=
  s.selectiveGetFrom .blockedByBufDep reqSlotTag

def putToBlockedByRowAddrDepReqQ (s : RequestQueues) (reqSlotTag chNo wayNo : Nat) : RequestQueues :=
  s.putTo (.blockedByRowAddrDep chNo wayNo) reqSlotTag

def selectiveGetFromBlockedByRowAddrDepReqQ (s : RequestQueues) (reqSlotTag chNo wayNo : Nat) :
    RequestQueues :=
  s.selectiveGetFrom (.blockedByRowAddrDep chNo wayNo) reqSlotTag

def putToNvmeDmaReqQ (s : RequestQueues) (reqSlotTag : Nat) : RequestQueues :=
  s.putTo .nvmeDma reqSlotTag

/-- `SelectiveGetFromNvmeDmaReqQ` up to the release of the slot's buffer. -/
def selectiveGetFromNvmeDmaReqQ (s : RequestQueues) (reqSlotTag : Nat) : RequestQueues :=
  (s.selectiveGetFrom .nvmeDma reqSlotTag).putToFreeReqQ reqSlotTag

def putToNandReqQ (s : RequestQueues) (reqSlotTag chNo wayNo : Nat) : RequestQueues :=
  s.putTo (.nand chNo wayNo) reqSlotTag

/-- `GetFromNandReqQ` up to the release of the slot's buffer; the assertion fires
on an empty queue. -/
def getFromNandReqQ (s : RequestQueues) (chNo wayNo : Nat) : Option (Nat × RequestQueues) :=
  let reqSlotTag := s.links.head (.nand chNo wayNo)
  if reqSlotTag = reqSlotTagNone then none
  else some (reqSlotTag, (s.getFrom (.nand chNo wayNo)).putToFreeReqQ reqSlotTag)

/-- `InitReqPool`. -/
def initReqPool (g : Geometry) : RequestQueues where
  links :=
    { prev := fun reqSlotTag => if reqSlotTag = 0 then reqSlotTagNone else reqSlotTag - 1
      next := fun reqSlotTag =>
        if reqSlotTag = availableOutstandingReqCount g - 1 then reqSlotTagNone else reqSlotTag + 1
      head := fun q => if q = .free then 0 else reqSlotTagNone
      tail := fun q => if q = .free then availableOutstandingReqCount g - 1 else reqSlotTagNone }
  reqQueueType := fun reqSlotTag =>
    if reqSlotTag < availableOutstandingReqCount g then .free else .none
  reqCnt := fun q => if q = .free then availableOutstandingReqCount g else 0
  sharedCnt := fun _ => 0

end RequestQueues

/-! ### What the queues represent -/

/-- The queues of the device a shared counter ranges over. -/
def countedQueues (g : Geometry) : SharedCnt → Finset ReqQueue
  | .notCompletedNandReq =>
    (Finset.range g.userChannels ×ˢ Finset.range g.userWays).image fun die => .nand die.1 die.2
  | .blockedReq =>
    insert .blockedByBufDep
      ((Finset.range g.userChannels ×ˢ Finset.range g.userWays).image
        fun die => .blockedByRowAddrDep die.1 die.2)

/-- The queues hold exactly these slots in this order, every slot is in the queue
its type names or in none, and the counters count. -/
structure QueuesOk (g : Geometry) (s : RequestQueues) (queued : ReqQueue → List Nat) : Prop where
  holds : Dll.Holds reqSlotTagNone s.links queued
  slot : ∀ q, ∀ x ∈ queued q, x < availableOutstandingReqCount g
  typed : ∀ q, ∀ x ∈ queued q, s.reqQueueType x = q.queueType
  listed : ∀ x, s.reqQueueType x ≠ .none → ∃ q, x ∈ queued q
  exist : ∀ q, queued q ≠ [] → q.Exists g
  reqCnt : ∀ q, s.reqCnt q = (queued q).length
  sharedCnt : ∀ c, s.sharedCnt c = ∑ q ∈ countedQueues g c, (queued q).length

section Counters
variable {g : Geometry} {q : ReqQueue} {c : SharedCnt}

theorem mem_countedQueues (exist : q.Exists g) : q ∈ countedQueues g c ↔ q.sharedCnt = some c := by
  cases c <;> cases q <;> simp_all [countedQueues, ReqQueue.sharedCnt, ReqQueue.Exists]

private theorem card_countedQueues : (countedQueues g c).card ≤ 257 := by
  have dies : (Finset.range g.userChannels ×ˢ Finset.range g.userWays).card ≤ 256 := by
    simpa [Finset.card_product] using g.dies_fit
  cases c with
  | notCompletedNandReq => exact le_trans Finset.card_image_le (by omega)
  | blockedReq =>
    apply le_trans (Finset.card_insert_le _ _)
    apply Nat.succ_le_succ
    exact le_trans Finset.card_image_le dies

/-- Changing one list changes the total by the difference of its lengths. -/
private theorem sum_update (queues : Finset ReqQueue) (queued : ReqQueue → List Nat) (l : List Nat)
    (member : q ∈ queues) :
    ∑ k ∈ queues, (Function.update queued q l k).length + (queued q).length =
      ∑ k ∈ queues, (queued k).length + l.length := by
  rw [← Finset.add_sum_erase _ _ member, ← Finset.add_sum_erase _ _ member]
  have rest : ∑ k ∈ queues.erase q, (Function.update queued q l k).length =
      ∑ k ∈ queues.erase q, (queued k).length := by
    apply Finset.sum_congr rfl
    intro k other
    rw [Function.update_of_ne (Finset.ne_of_mem_erase other)]
  rw [rest, Function.update_self]
  omega

private theorem sum_update_of_notMem (queues : Finset ReqQueue) (queued : ReqQueue → List Nat)
    (l : List Nat) (other : q ∉ queues) :
    ∑ k ∈ queues, (Function.update queued q l k).length = ∑ k ∈ queues, (queued k).length := by
  apply Finset.sum_congr rfl
  intro k member
  have diff : k ≠ q := fun same => other (same ▸ member)
  rw [Function.update_of_ne diff]

end Counters

/-- A die hands out the head of its queue, to the free queue. -/
theorem RequestQueues.getFromNandReqQ_cases {s t : RequestQueues}
    (taken : s.getFromNandReqQ chNo wayNo = some (x, t)) :
    s.links.head (.nand chNo wayNo) = x ∧ x ≠ reqSlotTagNone ∧
      t = (s.getFrom (.nand chNo wayNo)).putToFreeReqQ x := by
  simp only [RequestQueues.getFromNandReqQ] at taken
  split at taken
  · cases taken
  · rename_i some
    cases taken
    exact ⟨rfl, some, rfl⟩

namespace QueuesOk
variable {g : Geometry} {s : RequestQueues} {queued : ReqQueue → List Nat} {q : ReqQueue} {x : Nat}
  {xs : List Nat}

theorem ne_none (ok : QueuesOk g s queued) (member : x ∈ queued q) : x ≠ reqSlotTagNone :=
  ok.holds.ne_nil member

/-- A slot of no queue type is in no queue. -/
theorem unlisted (ok : QueuesOk g s queued) (none : s.reqQueueType x = .none) (q : ReqQueue) :
    x ∉ queued q :=
  fun member => q.queueType_ne_none ((ok.typed q x member).symm.trans none)

/-- A queue whose head is a slot starts with that slot. -/
theorem head_cons (ok : QueuesOk g s queued) (some : s.links.head q ≠ reqSlotTagNone) :
    ∃ xs, queued q = s.links.head q :: xs := by
  obtain ⟨y, ys, shape⟩ : ∃ y ys, queued q = y :: ys := by
    apply List.exists_cons_of_ne_nil
    exact fun empty => some (ok.holds.head_eq_nil.mpr empty)
  exact ⟨ys, by rw [ok.holds.head_cons shape, shape]⟩

/-- A slot whose type names a single queue is in that queue. -/
theorem mem_of_type (ok : QueuesOk g s queued) (typed : s.reqQueueType x = q.queueType)
    (single : ∀ q', q'.queueType = q.queueType → q' = q) : x ∈ queued q := by
  obtain ⟨q', member⟩ := ok.listed x (typed ▸ q.queueType_ne_none)
  rwa [single q' ((ok.typed q' x member).symm.trans typed)] at member

theorem mem_bufDep (ok : QueuesOk g s queued) :
    x ∈ queued .blockedByBufDep ↔ s.reqQueueType x = .blockedByBufDep := by
  constructor
  · exact ok.typed .blockedByBufDep x
  · intro typed
    apply ok.mem_of_type (q := .blockedByBufDep) typed
    intro q' same
    cases q' <;> simp_all [ReqQueue.queueType]

theorem mem_nvmeDma (ok : QueuesOk g s queued) :
    x ∈ queued .nvmeDma ↔ s.reqQueueType x = .nvmeDma := by
  constructor
  · exact ok.typed .nvmeDma x
  · intro typed
    apply ok.mem_of_type (q := .nvmeDma) typed
    intro q' same
    cases q' <;> simp_all [ReqQueue.queueType]

theorem mem_free (ok : QueuesOk g s queued) (typed : s.reqQueueType x = .free) : x ∈ queued .free := by
  apply ok.mem_of_type (q := .free) typed
  intro q' same
  cases q' <;> simp_all [ReqQueue.queueType]

/-- The type of a slot at the dies does not say at which die it is. -/
theorem mem_nand (ok : QueuesOk g s queued) (typed : s.reqQueueType x = .nand) :
    ∃ chNo < g.userChannels, ∃ wayNo < g.userWays, x ∈ queued (.nand chNo wayNo) := by
  obtain ⟨q, listed⟩ := ok.listed x (by simp [typed])
  have same := (ok.typed q x listed).symm.trans typed
  cases q with
  | nand chNo wayNo =>
    obtain ⟨channel, inside⟩ : chNo < g.userChannels ∧ wayNo < g.userWays :=
      ok.exist (.nand chNo wayNo) (List.ne_nil_of_mem listed)
    exact ⟨chNo, channel, wayNo, inside, listed⟩
  | _ => cases same

theorem mem_rowAddrDep (ok : QueuesOk g s queued) (typed : s.reqQueueType x = .blockedByRowAddrDep) :
    ∃ chNo < g.userChannels, ∃ wayNo < g.userWays, x ∈ queued (.blockedByRowAddrDep chNo wayNo) := by
  obtain ⟨q, listed⟩ := ok.listed x (by simp [typed])
  have same := (ok.typed q x listed).symm.trans typed
  cases q with
  | blockedByRowAddrDep chNo wayNo =>
    obtain ⟨channel, inside⟩ : chNo < g.userChannels ∧ wayNo < g.userWays :=
      ok.exist (.blockedByRowAddrDep chNo wayNo) (List.ne_nil_of_mem listed)
    exact ⟨chNo, channel, wayNo, inside, listed⟩
  | _ => cases same

theorem length_le (ok : QueuesOk g s queued) (q : ReqQueue) :
    (queued q).length ≤ availableOutstandingReqCount g := by
  have subset : (queued q).toFinset ⊆ Finset.range (availableOutstandingReqCount g) := by
    intro x member
    simpa using ok.slot q x (by simpa using member)
  rw [← List.toFinset_card_of_nodup (ok.holds.nodup q), ← Finset.card_range (availableOutstandingReqCount g)]
  exact Finset.card_le_card subset

/-- The shared counters stay far below the word size. -/
theorem sharedCnt_lt (ok : QueuesOk g s queued) (c : SharedCnt) : s.sharedCnt c < 4294967295 := by
  have each : ∀ q ∈ countedQueues g c, (queued q).length ≤ 32768 :=
    fun q _ => le_trans (ok.length_le q) (slots_lt g)
  have total := Finset.sum_le_card_nsmul _ _ _ each
  have queues := card_countedQueues (g := g) (c := c)
  rw [ok.sharedCnt c]
  simp only [smul_eq_mul] at total
  omega

/-- Setting one list and stepping the counters of its queue accordingly. -/
private theorem count (ok : QueuesOk g s queued) (exist : q.Exists g) (l : List Nat)
    (step : Nat → Nat)
    (steps : ∀ n, n < 4294967295 → (queued q).length ≤ n →
      step n + (queued q).length = n + l.length) (c : SharedCnt) :
    RequestQueues.countShared q step s.sharedCnt c =
      ∑ k ∈ countedQueues g c, (Function.update queued q l k).length := by
  unfold RequestQueues.countShared
  by_cases member : q ∈ countedQueues g c
  · have counted := (mem_countedQueues exist).mp member
    have total := sum_update _ queued l member
    have least : (queued q).length ≤ s.sharedCnt c := by
      rw [ok.sharedCnt c]
      exact Finset.single_le_sum (f := fun k => (queued k).length) (fun _ _ => Nat.zero_le _) member
    have stepped := steps (s.sharedCnt c) (ok.sharedCnt_lt c) least
    rw [ok.sharedCnt c] at stepped
    simp only [counted, Function.update_self, ok.sharedCnt c]
    omega
  · have total := sum_update_of_notMem _ queued l member
    have other := mt (mem_countedQueues exist).mpr member
    rw [total, ← ok.sharedCnt c]
    cases counter : q.sharedCnt with
    | none => rfl
    | some c' =>
      have diff : c ≠ c' := by
        rintro rfl
        exact other counter
      simp [diff]

/-- Appending a slot that is in no queue. -/
theorem putTo (ok : QueuesOk g s queued) (exist : q.Exists g)
    (slot : x < availableOutstandingReqCount g) (none : s.reqQueueType x = .none) :
    QueuesOk g (s.putTo q x) (Function.update queued q (queued q ++ [x])) where
  holds := by
    apply ok.holds.pushBack _ (ok.unlisted none)
    have slots := slots_lt g
    unfold reqSlotTagNone
    omega
  slot q' y member := by
    by_cases same : q' = q
    · subst same
      rw [Function.update_self, List.mem_append, List.mem_singleton] at member
      rcases member with member | rfl
      · exact ok.slot q' y member
      · exact slot
    · rw [Function.update_of_ne same] at member
      exact ok.slot q' y member
  typed q' y member := by
    have other : ∀ k, y ∈ queued k → y ≠ x := by
      rintro k listed rfl
      exact ok.unlisted none k listed
    by_cases same : q' = q
    · subst same
      rw [Function.update_self, List.mem_append, List.mem_singleton] at member
      rcases member with member | rfl
      · simpa [RequestQueues.putTo, other q' member] using ok.typed q' y member
      · simp [RequestQueues.putTo]
    · rw [Function.update_of_ne same] at member
      simpa [RequestQueues.putTo, other q' member] using ok.typed q' y member
  listed y some := by
    by_cases here : y = x
    · exact ⟨q, by simp [here]⟩
    · obtain ⟨q', member⟩ := ok.listed y (by simpa [RequestQueues.putTo, here] using some)
      by_cases same : q' = q
      · exact ⟨q, by simp [← same, member]⟩
      · exact ⟨q', by simpa [same] using member⟩
  exist q' some := by
    by_cases same : q' = q
    · exact same ▸ exist
    · exact ok.exist q' (by simpa [same] using some)
  reqCnt q' := by
    have length := ok.length_le q
    have slots := slots_lt g
    by_cases same : q' = q
    · subst same
      simp only [RequestQueues.putTo, Function.update_self, ok.reqCnt q']
      rw [inc16_of_lt (by omega), List.length_append, List.length_singleton]
    · simpa [RequestQueues.putTo, same] using ok.reqCnt q'
  sharedCnt c := by
    apply ok.count exist
    intro n fits _
    rw [inc32_of_lt fits, List.length_append, List.length_singleton]
    omega

/-- What taking a slot out of a queue leaves, whichever way its links were cut. -/
private theorem taken (ok : QueuesOk g s queued) (member : x ∈ queued q) {s' : RequestQueues}
    {l : List Nat} (kept : ∀ y, y ∈ l ↔ y ∈ queued q ∧ y ≠ x)
    (shorter : l.length + 1 = (queued q).length)
    (holds : Dll.Holds reqSlotTagNone s'.links (Function.update queued q l))
    (typed : s'.reqQueueType = Function.update s.reqQueueType x .none)
    (reqCnt : s'.reqCnt = Function.update s.reqCnt q (dec16 (s.reqCnt q)))
    (sharedCnt : s'.sharedCnt = RequestQueues.countShared q dec32 s.sharedCnt) :
    QueuesOk g s' (Function.update queued q l) := by
  have old : ∀ k y, y ∈ Function.update queued q l k → y ∈ queued k ∧ y ≠ x := by
    intro k y listed
    by_cases same : k = q
    · subst same
      rw [Function.update_self] at listed
      exact (kept y).mp listed
    · rw [Function.update_of_ne same] at listed
      exact ⟨listed, fun here => same (ok.holds.disjoint k q x (here ▸ listed) member)⟩
  have exist : q.Exists g := ok.exist q (List.ne_nil_of_mem member)
  constructor
  · exact holds
  · exact fun k y listed => ok.slot k y (old k y listed).1
  · intro k y listed
    rw [typed, Function.update_of_ne (old k y listed).2]
    exact ok.typed k y (old k y listed).1
  · intro y some
    have diff : y ≠ x := by
      rintro rfl
      simp [typed] at some
    rw [typed, Function.update_of_ne diff] at some
    obtain ⟨k, listed⟩ := ok.listed y some
    by_cases same : k = q
    · subst same
      exact ⟨k, by simpa using (kept y).mpr ⟨listed, diff⟩⟩
    · exact ⟨k, by simpa [same] using listed⟩
  · intro k some
    by_cases same : k = q
    · exact same ▸ exist
    · exact ok.exist k (by simpa [same] using some)
  · intro k
    have length := ok.length_le q
    have slots := slots_lt g
    by_cases same : k = q
    · subst same
      simp only [reqCnt, Function.update_self, ok.reqCnt k]
      rw [dec16_of_pos (by omega) (by omega)]
      omega
    · simpa [reqCnt, same] using ok.reqCnt k
  · intro c
    rw [sharedCnt]
    apply ok.count exist
    intro n fits least
    rw [dec32_of_pos (by omega) (by omega)]
    omega

/-- Taking the first slot. -/
theorem getFrom (ok : QueuesOk g s queued) (shape : queued q = x :: xs) :
    QueuesOk g (s.getFrom q) (Function.update queued q xs) := by
  have head : s.links.head q = x := ok.holds.head_cons shape
  have nodup : (x :: xs).Nodup := shape ▸ ok.holds.nodup q
  obtain ⟨apart, -⟩ := List.nodup_cons.mp nodup
  apply ok.taken (q := q) (x := x) (by simp [shape])
  · intro y
    rw [shape, List.mem_cons]
    constructor
    · intro listed
      exact ⟨.inr listed, fun same => apart (same ▸ listed)⟩
    · rintro ⟨rfl | listed, diff⟩
      · exact absurd rfl diff
      · exact listed
  · simp [shape]
  · exact ok.holds.popFront shape
  · simp [RequestQueues.getFrom, head]
  · rfl
  · rfl

/-- Taking a given slot. -/
theorem selectiveGetFrom (ok : QueuesOk g s queued) (member : x ∈ queued q) :
    QueuesOk g (s.selectiveGetFrom q x) (Function.update queued q ((queued q).erase x)) := by
  have nodup := ok.holds.nodup q
  apply ok.taken (q := q) (x := x) member
  · intro y
    rw [nodup.mem_erase_iff]
    exact and_comm
  · have some := List.length_pos_of_mem member
    rw [List.length_erase_of_mem member]
    omega
  · exact ok.holds.remove member
  · rfl
  · rfl
  · rfl

/-- Taking the first slot of a die and freeing it. -/
theorem getFromNandReqQ {t : RequestQueues} (ok : QueuesOk g s queued)
    (taken : s.getFromNandReqQ chNo wayNo = some (x, t)) :
    ∃ xs, queued (.nand chNo wayNo) = x :: xs ∧
      QueuesOk g t (Function.update (Function.update queued (.nand chNo wayNo) xs) .free (queued .free ++ [x])) := by
  obtain ⟨head, some, rfl⟩ := RequestQueues.getFromNandReqQ_cases taken
  obtain ⟨xs, shape⟩ := ok.head_cons (head ▸ some)
  rw [head] at shape
  have free : (s.getFrom (.nand chNo wayNo)).reqQueueType x = .none := by
    simp [RequestQueues.getFrom, head]
  have moved := (ok.getFrom shape).putTo (q := .free) trivial (ok.slot (.nand chNo wayNo) x (by simp [shape])) free
  rw [Function.update_of_ne (by simp)] at moved
  exact ⟨xs, shape, moved⟩

end QueuesOk

/-- After `InitReqPool` every slot is in the free queue, in serial order. -/
theorem initReqPool_ok (g : Geometry) :
    QueuesOk g (RequestQueues.initReqPool g)
      (fun q => if q = .free then List.range (availableOutstandingReqCount g) else []) where
  holds := by
    have slots := slots_lt g
    have dies := g.dies_pos
    have some : 0 < availableOutstandingReqCount g := by
      unfold availableOutstandingReqCount
      omega
    apply Dll.holds_serial some
    · unfold reqSlotTagNone
      omega
    · simp [RequestQueues.initReqPool]
    · intro i _
      simp [RequestQueues.initReqPool]
    · intro i inside
      simp [RequestQueues.initReqPool, show i ≠ availableOutstandingReqCount g - 1 by omega]
    · simp [RequestQueues.initReqPool]
    · exact fun _ => rfl
    · exact fun _ => rfl
  slot q x member := by
    split at member
    · simpa using member
    · simp at member
  typed q x member := by
    split at member
    · rename_i free
      simpa [RequestQueues.initReqPool, free, ReqQueue.queueType] using member
    · simp at member
  listed x some := by
    refine ⟨.free, ?_⟩
    by_contra outside
    simp_all [RequestQueues.initReqPool]
  exist q some := by
    split at some
    · rename_i free
      simp [free, ReqQueue.Exists]
    · simp at some
  reqCnt q := by
    by_cases free : q = .free <;> simp [RequestQueues.initReqPool, free]
  sharedCnt c := by
    symm
    apply Finset.sum_eq_zero
    intro q member
    have counted : q ≠ .free := by
      rintro rfl
      cases c <;> simp [countedQueues] at member
    simp [counted]

end OcpFw
