import OcpFw.HostDma
import OcpFw.RequestQueues

/-! The blocking request queues of the data buffers. The requests attached to a
buffer entry are chained through `prevBlockingReq` and `nextBlockingReq`; an entry
knows the last of them only. Attaching appends to the chain, and a finished request
is cut off its front. -/
namespace OcpFw

/-- An entry of `dataBuf` or of `tempDataBuf`. -/
inductive BufEntry where
  | dataBuf (entry : Nat)
  | tempDataBuf (entry : Nat)
  deriving DecidableEq

/-- The buffer entry a request is attached to. -/
def SsdReq.bufEntry (req : SsdReq) : Option BufEntry :=
  match req.dataBufFormat with
  | .entry => some (.dataBuf req.dataBufInfo)
  | .tempEntry => some (.tempDataBuf req.dataBufInfo)
  | .addr | .none => none

/-- `prevBlockingReq` and `nextBlockingReq` of every slot, `blockingReqTail` of every entry. -/
structure BlockingLinks where
  prevBlockingReq : Nat → Nat := fun _ => reqSlotTagNone
  nextBlockingReq : Nat → Nat := fun _ => reqSlotTagNone
  blockingReqTail : BufEntry → Nat := fun _ => reqSlotTagNone

namespace BlockingLinks

/-- Make a request the last one of an entry; its own `nextBlockingReq` is not written. -/
def updateBlockingReq (l : BlockingLinks) (bufEntry : BufEntry) (reqSlotTag : Nat) :
    BlockingLinks :=
  if l.blockingReqTail bufEntry ≠ reqSlotTagNone then
    { prevBlockingReq :=
        Function.update l.prevBlockingReq reqSlotTag (l.blockingReqTail bufEntry)
      nextBlockingReq :=
        Function.update l.nextBlockingReq (l.blockingReqTail bufEntry) reqSlotTag
      blockingReqTail := Function.update l.blockingReqTail bufEntry reqSlotTag }
  else
    { l with blockingReqTail := Function.update l.blockingReqTail bufEntry reqSlotTag }

def updateDataBufEntryInfoBlockingReq (l : BlockingLinks) (bufEntry reqSlotTag : Nat) :
    BlockingLinks :=
  l.updateBlockingReq (.dataBuf bufEntry) reqSlotTag

def updateTempDataBufEntryInfoBlockingReq (l : BlockingLinks) (bufEntry reqSlotTag : Nat) :
    BlockingLinks :=
  l.updateBlockingReq (.tempDataBuf bufEntry) reqSlotTag

/-- The attachment of a request to the entry its options name, if any. -/
def attach (l : BlockingLinks) (req : SsdReq) (reqSlotTag : Nat) : BlockingLinks :=
  match req.dataBufFormat with
  | .entry => l.updateDataBufEntryInfoBlockingReq req.dataBufInfo reqSlotTag
  | .tempEntry => l.updateTempDataBufEntryInfoBlockingReq req.dataBufInfo reqSlotTag
  | .addr | .none => l

/-- An entry whose last request is the given one has no last request any more. -/
def resetTail (l : BlockingLinks) (bufEntry : Option BufEntry) (reqSlotTag : Nat) : BlockingLinks :=
  match bufEntry with
  | some b =>
    if l.blockingReqTail b = reqSlotTag then
      { l with blockingReqTail := Function.update l.blockingReqTail b reqSlotTagNone }
    else l
  | none => l

/-- The first half of `ReleaseBlockedByBufDepReq`: cut a request off, and return its
successor as `targetReqSlotTag`. -/
def splitAt (l : BlockingLinks) (bufEntry : Option BufEntry) (reqSlotTag : Nat) :
    Nat × BlockingLinks :=
  let targetReqSlotTag := l.nextBlockingReq reqSlotTag
  let l :=
    if targetReqSlotTag ≠ reqSlotTagNone then
      { l with
        prevBlockingReq := Function.update l.prevBlockingReq targetReqSlotTag reqSlotTagNone
        nextBlockingReq := Function.update l.nextBlockingReq reqSlotTag reqSlotTagNone }
    else l
  (targetReqSlotTag, l.resetTail bufEntry reqSlotTag)

theorem attach_eq (l : BlockingLinks) (req : SsdReq) (reqSlotTag : Nat) :
    l.attach req reqSlotTag =
      match req.bufEntry with
      | some b => l.updateBlockingReq b reqSlotTag
      | none => l := by
  unfold attach SsdReq.bufEntry
  cases req.dataBufFormat <;> rfl

end BlockingLinks

/-- The heads of the chains, which the firmware does not record. -/
def chainHeads (chain : BufEntry → List Nat) (b : BufEntry) : Nat := (chain b).headD reqSlotTagNone

theorem chainHeads_update (chain : BufEntry → List Nat) (b : BufEntry) (l : List Nat) :
    chainHeads (Function.update chain b l) =
      Function.update (chainHeads chain) b (l.headD reqSlotTagNone) := by
  funext k
  by_cases same : k = b
  · subst same
    simp [chainHeads]
  · simp [chainHeads, same]

/-- The links, completed to a table of lists. -/
def chainTable (l : BlockingLinks) (chain : BufEntry → List Nat) : Dll.Table BufEntry Nat where
  prev := l.prevBlockingReq
  next := l.nextBlockingReq
  head := chainHeads chain
  tail := l.blockingReqTail

/-- The entries have exactly these chains, and a slot in no chain has both links NONE. -/
structure Chained (l : BlockingLinks) (chain : BufEntry → List Nat) : Prop where
  holds : Dll.Holds reqSlotTagNone (chainTable l chain) chain
  detached : ∀ x, (∀ b, x ∉ chain b) →
    l.prevBlockingReq x = reqSlotTagNone ∧ l.nextBlockingReq x = reqSlotTagNone

namespace Chained
variable {l : BlockingLinks} {chain : BufEntry → List Nat} {b : BufEntry} {x y : Nat} {xs : List Nat}

theorem init : Chained {} (fun _ => []) where
  holds := ⟨fun _ => trivial, fun _ => rfl, fun _ => rfl, by simp, by simp, by simp⟩
  detached _ _ := ⟨rfl, rfl⟩

/-- `CheckBufDep` passes exactly the requests that are first in their chain or in none. -/
theorem prev_eq_none (ok : Chained l chain) (member : x ∈ chain b) :
    l.prevBlockingReq x = reqSlotTagNone ↔ ∃ xs, chain b = x :: xs := by
  obtain ⟨before, after, shape⟩ := List.append_of_mem member
  have prev : l.prevBlockingReq x = before.getLastD reqSlotTagNone := (ok.holds.links shape).1
  rcases before.eq_nil_or_concat' with rfl | ⟨front, w, rfl⟩
  · simp [prev, shape]
  · have real : w ≠ reqSlotTagNone := ok.holds.ne_nil (k := b) (by simp [shape])
    have apart := ok.holds.split_ne shape
    simp only [prev, List.getLastD_concat, real, false_iff, not_exists]
    intro xs first
    rw [shape] at first
    cases front with
    | nil =>
      simp only [List.nil_append, List.cons_append, List.cons.injEq] at first
      exact apart.1 (by simp [first.1])
    | cons v front =>
      simp only [List.cons_append, List.cons.injEq] at first
      exact apart.1 (by simp [first.1])

theorem next_of_head (ok : Chained l chain) (shape : chain b = x :: xs) :
    l.nextBlockingReq x = xs.headD reqSlotTagNone :=
  (ok.holds.links (show chain b = [] ++ x :: xs from shape)).2

/-- Attaching a slot that is in no chain. -/
theorem update (ok : Chained l chain) (real : x ≠ reqSlotTagNone) (free : ∀ b, x ∉ chain b) :
    Chained (l.updateBlockingReq b x) (Function.update chain b (chain b ++ [x])) := by
  obtain ⟨noPrev, noNext⟩ := ok.detached x free
  have table : chainTable (l.updateBlockingReq b x) (Function.update chain b (chain b ++ [x])) =
      (chainTable l chain).pushBack reqSlotTagNone b x := by
    have cleared : Function.update l.nextBlockingReq x reqSlotTagNone = l.nextBlockingReq :=
      Function.update_eq_self_iff.mpr noNext.symm
    have unlinked : Function.update l.prevBlockingReq x reqSlotTagNone = l.prevBlockingReq :=
      Function.update_eq_self_iff.mpr noPrev.symm
    cases shape : chain b with
    | nil =>
      have tail : l.blockingReqTail b = reqSlotTagNone := ok.holds.tail_eq_nil.mpr shape
      simp [chainTable, BlockingLinks.updateBlockingReq, Dll.Table.pushBack, tail, cleared,
        unlinked, chainHeads_update]
    | cons y ys =>
      have tail : l.blockingReqTail b ≠ reqSlotTagNone := by
        intro empty
        have nil := ok.holds.tail_eq_nil.mp empty
        rw [shape] at nil
        cases nil
      have head : Function.update (chainHeads chain) b y = chainHeads chain :=
        Function.update_eq_self_iff.mpr (by simp [chainHeads, shape])
      simp [chainTable, BlockingLinks.updateBlockingReq, Dll.Table.pushBack, tail, cleared,
        chainHeads_update, head]
  constructor
  · rw [table]
    exact ok.holds.pushBack real free
  · intro y outside
    have diff : y ≠ x := by
      rintro rfl
      exact outside b (by simp)
    have out : ∀ k, y ∉ chain k := by
      intro k member
      by_cases same : k = b
      · exact outside b (by simp [← same, member])
      · exact outside k (by simpa [same] using member)
    obtain ⟨links, links'⟩ := ok.holds.pushBack_links diff (out b)
    rw [← table] at links links'
    have old := ok.detached y out
    exact ⟨links.trans old.1, links'.trans old.2⟩

/-- Cutting off the first request of a chain. -/
theorem splitAt (ok : Chained l chain) (shape : chain b = x :: xs) :
    (l.splitAt (some b) x).1 = xs.headD reqSlotTagNone ∧
      Chained (l.splitAt (some b) x).2 (Function.update chain b xs) := by
  have next := ok.next_of_head shape
  have first : l.prevBlockingReq x = reqSlotTagNone :=
    (ok.prev_eq_none (b := b) (by simp [shape])).mpr ⟨xs, shape⟩
  have headIs : chainHeads chain b = x := by simp [chainHeads, shape]
  have noDup : x ∉ xs := (ok.holds.split_ne (show chain b = [] ++ x :: xs from shape)).2.1
  have tailIs : l.blockingReqTail b = (x :: xs).getLastD reqSlotTagNone := shape ▸ ok.holds.tail b
  have out : ∀ k, x ∉ Function.update chain b xs k := by
    intro k
    by_cases same : k = b
    · subst same
      simpa using noDup
    · rw [Function.update_of_ne same]
      exact fun member => same (ok.holds.disjoint k b x member (by simp [shape]))
  have table : chainTable (l.splitAt (some b) x).2 (Function.update chain b xs) =
      ((chainTable l chain).popFront reqSlotTagNone b).clear reqSlotTagNone x := by
    cases xs with
    | nil =>
      have noNext : l.nextBlockingReq x = reqSlotTagNone := by simpa using next
      have cleared : Function.update l.nextBlockingReq x reqSlotTagNone = l.nextBlockingReq :=
        Function.update_eq_self_iff.mpr noNext.symm
      have unlinked : Function.update l.prevBlockingReq x reqSlotTagNone = l.prevBlockingReq :=
        Function.update_eq_self_iff.mpr first.symm
      have last : l.blockingReqTail b = x := by simpa using tailIs
      simp [chainTable, BlockingLinks.splitAt, BlockingLinks.resetTail, Dll.Table.popFront,
        Dll.Table.clear, noNext, last, headIs, chainHeads_update, cleared, unlinked]
    | cons y ys =>
      have real : y ≠ reqSlotTagNone := ok.holds.ne_nil (k := b) (by simp [shape])
      have nextIs : l.nextBlockingReq x = y := by simpa using next
      have diff : x ≠ y := by
        rintro rfl
        exact noDup (by simp)
      have unlinked : Function.update (Function.update l.prevBlockingReq y reqSlotTagNone) x
          reqSlotTagNone = Function.update l.prevBlockingReq y reqSlotTagNone :=
        Function.update_eq_self_iff.mpr (by simp [diff, first])
      have kept : l.blockingReqTail b ≠ x := by
        intro last
        have member : (y :: ys).getLastD reqSlotTagNone ∈ y :: ys := by
          rw [List.getLastD_eq_getLast?, List.getLast?_eq_some_getLast (by simp)]
          exact List.getLast_mem _
        have same : (x :: y :: ys).getLastD reqSlotTagNone = (y :: ys).getLastD reqSlotTagNone := rfl
        rw [← same, ← tailIs, last] at member
        exact noDup member
      simp [chainTable, BlockingLinks.splitAt, BlockingLinks.resetTail, Dll.Table.popFront,
        Dll.Table.clear, nextIs, real, kept, headIs, chainHeads_update, unlinked]
  refine ⟨next, ?_, ?_⟩
  · rw [table]
    exact (ok.holds.popFront shape).clear out
  · intro y outside
    have links := congrArg Dll.Table.prev table
    have links' := congrArg Dll.Table.next table
    simp only [chainTable] at links links'
    rw [links, links']
    by_cases same : y = x
    · subst same
      simp [Dll.Table.clear]
    · have away : ∀ k, y ∉ chain k := by
        intro k member
        by_cases here : k = b
        · subst here
          rw [shape] at member
          rcases List.mem_cons.mp member with rfl | member
          · exact same rfl
          · exact outside k (by simpa using member)
        · exact outside k (by simpa [here] using member)
      obtain ⟨popPrev, popNext⟩ := ok.holds.popFront_links shape (away b)
      have old := ok.detached y away
      simp only [Dll.Table.clear, Function.update_of_ne same]
      exact ⟨popPrev.trans old.1, popNext.trans old.2⟩

/-- Cutting off a slot that is in no chain does nothing. -/
theorem splitAt_detached (ok : Chained l chain) (real : x ≠ reqSlotTagNone)
    (free : ∀ b, x ∉ chain b) (bufEntry : Option BufEntry) :
    l.splitAt bufEntry x = (reqSlotTagNone, l) := by
  have noNext := (ok.detached x free).2
  cases bufEntry with
  | none => simp [BlockingLinks.splitAt, BlockingLinks.resetTail, noNext]
  | some b =>
    have other : l.blockingReqTail b ≠ x := by
      intro last
      by_cases empty : chain b = []
      · exact real (last ▸ ok.holds.tail_eq_nil.mpr empty)
      · exact free b (last ▸ ok.holds.tail_mem empty)
    simp [BlockingLinks.splitAt, BlockingLinks.resetTail, noNext, other]

end Chained

end OcpFw
