import OcpFw.DmaOrder

/-! `CheckDoneNvmeDmaReq`: from the newest DMA request to the oldest, the finished ones are
freed, and with each one the request that waited for its buffer is started. Once a request
of a direction is found done, the older ones of that direction are freed unchecked. -/
namespace OcpFw
open RequestLayer
open Runs (Run exec run_of_exec_any)

/-- One turn of the loop: the request it looks at, the commands of its direction issued so
far, how many of them the hardware had completed when the turn read its register, if it
did, and whether the request was freed. -/
structure DmaVisit where
  reqSlotTag : Nat
  dir : DmaDirection
  issued : Nat
  head : Option Nat
  freed : Bool

namespace RequestLayer

/-- The body of the loop; `done` are the flags `rxDone` and `txDone`, and `completed` is what
the hardware has completed. The register shows the last 8 bits of it. -/
def checkDoneTurn (g : Geometry) (completed : DmaDirection → Nat) (done : DmaDirection → Bool) (s : RequestLayer)
    (reqSlotTag : Nat) : Option (DmaVisit × RequestLayer) :=
  let req := s.reqPool reqSlotTag
  let dir := req.dmaDirection
  let found := done dir || s.hostDma.checkAutoDmaPartialDone dir (completed dir % 256) req.nvmeDmaInfo.reqTail
    req.nvmeDmaInfo.overFlowCnt
  let visit : DmaVisit :=
    ⟨reqSlotTag, dir, s.hostDma.issued dir, if done dir then none else some (completed dir), found⟩
  if found then do
    let s ← s.selectiveGetFromNvmeDmaReqQ g reqSlotTag
    some (visit, s)
  else some (visit, s)

/-- The loop from a given slot back to the head of the queue, for at most the given number of
turns; the hardware may complete more before each turn. -/
def scanNvmeDmaReqQ (g : Geometry) (completed : Nat → DmaDirection → Nat) :
    Nat → Nat → (DmaDirection → Bool) → RequestLayer → Nat → Option (List DmaVisit × RequestLayer)
  | 0, _, _, s, _ => some ([], s)
  | turns + 1, turn, done, s, reqSlotTag =>
    if reqSlotTag = reqSlotTagNone then some ([], s)
    else do
      let prevReq := s.queues.links.prev reqSlotTag
      let (visit, s) ← s.checkDoneTurn g (completed turn) done reqSlotTag
      let (visits, s) ←
        scanNvmeDmaReqQ g completed turns (turn + 1) (Function.update done visit.dir visit.freed) s prevReq
      some (visit :: visits, s)

/-- The queue is never longer than the pool, so that many turns are enough. -/
def checkDoneNvmeDmaReq (g : Geometry) (completed : Nat → DmaDirection → Nat) (s : RequestLayer) :
    Option (List DmaVisit × RequestLayer) :=
  scanNvmeDmaReqQ g completed (availableOutstandingReqCount g) 0 (fun _ => false) s
    (s.queues.links.tail .nvmeDma)

end RequestLayer

/-- What the turns freed and what they kept, newest first. -/
def freedBy (visits : List DmaVisit) : List Nat := (visits.filter (·.freed)).map DmaVisit.reqSlotTag

def keptBy (visits : List DmaVisit) : List Nat := (visits.filter (! ·.freed)).map DmaVisit.reqSlotTag

/-- The hardware completes no more than was issued, and the full-FIFO wait keeps 255
commands at most in the FIFO. -/
def DmaVisit.Fits (visit : DmaVisit) : Prop :=
  ∀ completed, visit.head = some completed → completed ≤ visit.issued ∧ visit.issued - completed ≤ 255

variable {g : Geometry} {s s' : RequestLayer} {held flight : Finset Nat} {completed : Nat → DmaDirection → Nat}
  {queued : ReqQueue → List Nat} {done : DmaDirection → Bool} {last : Nat → Nat}
  {top bottom seen : DmaDirection → Nat} {older later r : List Nat} {visit : DmaVisit} {visits : List DmaVisit}
  {x turns turn n : Nat}

/-! ### One turn -/

/-- What a turn sees. -/
structure DmaVisit.Sees (s : RequestLayer) (now : DmaDirection → Nat) (done : DmaDirection → Bool) (x : Nat)
    (visit : DmaVisit) : Prop where
  reqSlotTag : visit.reqSlotTag = x
  dir : visit.dir = (s.reqPool x).dmaDirection
  issued : visit.issued = s.hostDma.issued visit.dir
  head : visit.head = if done visit.dir then none else some (now visit.dir)
  freed : visit.freed = (done visit.dir || s.hostDma.checkAutoDmaPartialDone visit.dir (now visit.dir % 256)
    (s.reqPool x).nvmeDmaInfo.reqTail (s.reqPool x).nvmeDmaInfo.overFlowCnt)

/-- What a turn does to the queues. -/
structure DmaVisit.Leaves (g : Geometry) (s : RequestLayer) (visit : DmaVisit) (s' : RequestLayer)
    (queued queued' : ReqQueue → List Nat) (older later appended : List Nat) : Prop where
  queues : QueuesOk g s'.queues queued'
  nvmeDma : queued' .nvmeDma =
    older ++ ((if visit.freed then [] else [visit.reqSlotTag]) ++ later ++ appended)
  free : queued' .free = queued .free ++ if visit.freed then [visit.reqSlotTag] else []
  start : DmaStart g s s' (older ++ ((if visit.freed then [] else [visit.reqSlotTag]) ++ later)) appended
  idle : ∀ y, s.reqQueueType y = .none → s'.reqPool y = s.reqPool y

theorem checkDoneTurn_spec {now : DmaDirection → Nat} (ok : SlotsOk g s held flight)
    (queues : QueuesOk g s.queues queued) (shape : queued .nvmeDma = older ++ x :: later)
    (ran : s.checkDoneTurn g now done x = some (visit, s')) :
    visit.Sees s now done x ∧ SlotsOk g s' held flight ∧
      ∃ queued' appended, visit.Leaves g s s' queued queued' older later appended := by
  unfold checkDoneTurn at ran
  simp only at ran
  split at ran
  · rename_i found
    simp only [Option.bind_eq_bind, Option.bind_eq_some_iff, Option.some.injEq, Prod.mk.injEq] at ran
    obtain ⟨t, freed, rfl, rfl⟩ := ran
    refine ⟨⟨rfl, rfl, rfl, rfl, rfl⟩, ?_⟩
    have member : x ∈ queued .nvmeDma := by simp [shape]
    have type : s.reqQueueType x = .nvmeDma := queues.mem_nvmeDma.mp member
    have retires : s.Retires x (s.queues.selectiveGetFromNvmeDmaReqQ x) := .inl ⟨type, rfl⟩
    have after := slotsOk_events.complete ok retires (fun _ _ => trivial) freed
    refine ⟨after, ?_⟩
    have idle : (s.queues.selectiveGetFrom .nvmeDma x).reqQueueType x = .none := by
      simp [RequestQueues.selectiveGetFrom]
    have moved := (queues.selectiveGetFrom member).putTo (q := .free) trivial (queues.slot _ x member) idle
    obtain ⟨notOlder, -, -⟩ := queues.holds.split_ne shape
    obtain ⟨appended, queued', queues', dma, free, start⟩ := release_dmaStart (ok.retire retires) moved freed
    have cut : (older ++ x :: later).erase x = older ++ later := by
      rw [List.erase_append_right _ notOlder, List.erase_cons_head]
    simp only [ne_eq, reduceCtorEq, not_false_eq_true, Function.update_of_ne, Function.update_self, shape, cut]
      at dma free start
    refine ⟨queued', appended, queues', ?_, ?_, ?_, fun y unqueued => ?_⟩
    · simpa [found] using dma
    · simpa [found] using free
    · have same : DmaStart g s t (older ++ later) appended := start.congr rfl rfl
      simpa [found] using same
    · have diff : y ≠ x := by
        rintro rfl
        rw [type] at unqueued
        cases unqueued
      have types : (s.setQueues (s.queues.selectiveGetFromNvmeDmaReqQ x)).reqQueueType y = .none := by
        obtain ⟨-, moved, -⟩ := retires.spec queues
        exact (congrFun moved y).trans ((Function.update_of_ne diff _ _).trans unqueued)
      have blocked := fun z waits => ((ok.retire retires).submittable z waits).1
      exact (releaseBlockedByBufDepReq_undisturbed freed blocked types).1
  · rename_i pending
    cases ran
    refine ⟨⟨rfl, rfl, rfl, rfl, rfl⟩, ok, queued, [], queues, ?_, ?_, .quiet rfl fun _ _ => rfl, fun _ _ => rfl⟩
    · simp [pending, shape]
    · simp [pending]

/-! ### The loop -/

/-- A turn finds its request done exactly when it is: by its own look at the register, or
because a newer request of the direction was. -/
theorem DmaVisit.Sees.exact {now : DmaDirection → Nat} (sees : visit.Sees s now done x) (fits : visit.Fits)
    (counts : s.hostDma.CountsOk) (issued : IssuedAs g s x (last x))
    (near : s.hostDma.issued visit.dir ≤ last x + 256 * n) (small : n ≤ 100000) :
    visit.freed = true ↔ done visit.dir = true ∨ (visit.head = some (now visit.dir) ∧ last x ≤ now visit.dir) := by
  have head := sees.head
  rw [sees.freed, Bool.or_eq_true]
  cases found : done visit.dir with
  | true => simp
  | false =>
    rw [found] at head
    obtain ⟨done, window⟩ := fits (now visit.dir) head
    rw [sees.issued] at done window
    have past := issued.past
    rw [← sees.dir] at past
    rw [issued.reqTail, issued.overFlowCnt, counts.partialDone_iff done window past (by omega)]
    simp [head]

/-- What the loop leaves, seen from its start. -/
structure Scanned (g : Geometry) (flight : Finset Nat) (s s' : RequestLayer)
    (queued queued' : ReqQueue → List Nat) (later appended : List Nat) (visits : List DmaVisit) : Prop where
  queues : QueuesOk g s'.queues queued'
  nvmeDma : queued' .nvmeDma = (keptBy visits).reverse ++ (later ++ appended)
  free : queued' .free = queued .free ++ freedBy visits
  counts : s'.hostDma.CountsOk
  more : ∃ new, s'.hostDma.commands = s.hostDma.commands ++ new
  reqs : ∀ y, y ∈ keptBy visits ∨ y ∈ later → s'.reqPool y = s.reqPool y
  order : ∃ last, InIssueOrder g s' last s'.hostDma.issued appended.reverse s.hostDma.issued
  idle : ∀ y ∈ flight, s'.reqPool y = s.reqPool y

/-- Why each request was freed or kept. -/
structure Justified (s : RequestLayer) (last : Nat → Nat) (now : DmaDirection → Nat) (done : DmaDirection → Bool)
    (seen : DmaDirection → Nat) (r : List Nat) (visits : List DmaVisit) : Prop where
  visited : visits.map DmaVisit.reqSlotTag = r
  dir : ∀ visit ∈ visits, visit.dir = (s.reqPool visit.reqSlotTag).dmaDirection
  freed : ∀ (i : Nat) (visit : DmaVisit), visits[i]? = some visit → visit.freed = true →
    (done visit.dir = true ∧ last visit.reqSlotTag ≤ seen visit.dir) ∨
      ∃ j ≤ i, ∃ (read : DmaVisit) (head : Nat), visits[j]? = some read ∧ read.dir = visit.dir ∧ read.head = some head ∧
        last visit.reqSlotTag ≤ head
  kept : ∀ visit ∈ visits, visit.freed = false → done visit.dir = false ∧ now visit.dir < last visit.reqSlotTag

/-- The reasons of a turn before those of the turns after it. -/
theorem Justified.cons {t : RequestLayer} {rest : List DmaVisit} (sees : visit.Sees s (completed turn) done x)
    (exact : visit.freed = true ↔ done visit.dir = true ∨
      (visit.head = some (completed turn visit.dir) ∧ last x ≤ completed turn visit.dir))
    (why : Justified t last (completed (turn + 1)) (Function.update done visit.dir visit.freed)
      (Function.update seen visit.dir (if done visit.dir then seen visit.dir else completed turn visit.dir)) r rest)
    (found : done visit.dir = true → last x ≤ seen visit.dir)
    (same : ∀ y ∈ r, t.reqPool y = s.reqPool y) (grows : Monotone completed) :
    Justified s last (completed turn) done seen (x :: r) (visit :: rest) := by
  have inR : ∀ w ∈ rest, w.reqSlotTag ∈ r := by
    intro w member
    rw [← why.visited]
    exact List.mem_map_of_mem member
  constructor
  · rw [List.map_cons, sees.reqSlotTag, why.visited]
  · rw [List.forall_mem_cons, sees.reqSlotTag]
    exact ⟨sees.dir, fun w member => by rw [why.dir w member, same _ (inR w member)]⟩
  · intro i w listed freed
    cases i with
    | zero =>
      cases listed
      rw [sees.reqSlotTag]
      rcases exact.mp freed with earlier | ⟨head, now⟩
      · exact .inl ⟨earlier, found earlier⟩
      · exact .inr ⟨0, le_rfl, visit, _, rfl, rfl, head, now⟩
    | succ i =>
      rcases why.freed i w listed freed with ⟨set, bound⟩ | ⟨j, le, read, head, at_, dir, shown, bound⟩
      · by_cases here : w.dir = visit.dir
        · rw [here, Function.update_self] at set bound
          rcases exact.mp set with earlier | ⟨head, now⟩
          · rw [if_pos earlier] at bound
            exact .inl (here ▸ ⟨earlier, bound⟩)
          · by_cases earlier : done visit.dir = true
            · rw [if_pos earlier] at bound
              exact .inl (here ▸ ⟨earlier, bound⟩)
            · rw [if_neg earlier] at bound
              exact .inr ⟨0, Nat.zero_le _, visit, _, rfl, here.symm, head, bound⟩
        · rw [Function.update_of_ne here] at set bound
          exact .inl ⟨set, bound⟩
      · exact .inr ⟨j + 1, Nat.succ_le_succ le, read, head, at_, dir, shown, bound⟩
  · rw [List.forall_mem_cons]
    constructor
    · intro pending
      have not := mt exact.mpr (by simp [pending])
      push Not at not
      have clear : done visit.dir = false := by simpa using not.1
      have head := sees.head
      rw [clear] at head
      rw [sees.reqSlotTag]
      exact ⟨clear, not.2 head⟩
    · intro w member pending
      obtain ⟨clear, later⟩ := why.kept w member pending
      have more : completed turn w.dir ≤ completed (turn + 1) w.dir := grows (Nat.le_succ turn) w.dir
      refine ⟨?_, by omega⟩
      by_cases here : w.dir = visit.dir
      · rw [here, Function.update_self] at clear
        have not := mt exact.mpr (by simp [clear])
        push Not at not
        rw [here]
        simpa using not.1
      · rwa [Function.update_of_ne here] at clear

/-- A turn before the turns after it, seen from its start. -/
theorem Scanned.cons {t : RequestLayer} {queuedT queuedS : ReqQueue → List Nat} {started appended : List Nat}
    {rest : List DmaVisit} (ok : SlotsOk g s held flight)
    (leaves : visit.Leaves g s t queued queuedT r.reverse later started) (counts : s.hostDma.CountsOk)
    (inR : ∀ y ∈ keptBy rest, y ∈ r)
    (scanned : Scanned g flight t s' queuedT queuedS
      ((if visit.freed then [] else [visit.reqSlotTag]) ++ later ++ started) appended rest) :
    Scanned g flight s s' queued queuedS later (started ++ appended) (visit :: rest) := by
  obtain ⟨-, ⟨new, more⟩, same, -, -, lastT, orderT⟩ := leaves.start.spec counts
  obtain ⟨new', more'⟩ := scanned.more
  obtain ⟨lastS, orderS⟩ := scanned.order
  have shape : queuedS .nvmeDma = (keptBy (visit :: rest)).reverse ++ (later ++ (started ++ appended)) := by
    rw [scanned.nvmeDma]
    cases freed : visit.freed <;> simp [keptBy, freed]
  constructor
  · exact scanned.queues
  · exact shape
  · rw [scanned.free, leaves.free]
    cases freed : visit.freed <;> simp [freedBy, freed]
  · exact scanned.counts
  · exact ⟨new ++ new', by rw [more', more, List.append_assoc]⟩
  · intro y listed
    have before : y ∈ keptBy rest ∨ y ∈ (if visit.freed then [] else [visit.reqSlotTag]) ++ later := by
      rcases listed with listed | listed
      · cases freed : visit.freed with
        | true => simpa [keptBy, freed] using Or.inl listed
        | false =>
          rcases List.mem_cons.mp (show y ∈ visit.reqSlotTag :: keptBy rest by simpa [keptBy, freed] using listed)
            with here | kept
          · exact .inr (by simp [here])
          · exact .inl kept
      · exact .inr (List.mem_append_right _ listed)
    have second : s'.reqPool y = t.reqPool y :=
      scanned.reqs y (before.imp_right (List.mem_append_left _))
    rw [second]
    apply same
    rcases before with kept | other
    · exact List.mem_append_left _ (by simpa using inR y kept)
    · exact List.mem_append_right _ other
  · have nodup := scanned.queues.holds.nodup .nvmeDma
    rw [shape] at nodup
    have apart : ∀ y ∈ appended.reverse, y ∉ started.reverse := by
      intro y new old
      have inner := (List.nodup_append.mp (List.nodup_append.mp nodup).2.1).2.1
      exact (List.nodup_append.mp inner).2.2 y (by simpa using old) y (by simpa using new) rfl
    have below := orderT.mono lastT (fun y member => scanned.reqs y
      (.inr (List.mem_append_right _ (by simpa using member)))) (fun _ _ => rfl) scanned.more
    have both := orderS.join below apart
    rw [← List.reverse_append] at both
    exact ⟨_, both⟩
  · intro y member
    have none := (ok.taken y (ok.inPool y (.inr member))).mpr (.inr member)
    rw [scanned.idle y member, leaves.idle y none]

theorem mem_of_keptBy (visited : visits.map DmaVisit.reqSlotTag = r) (member : x ∈ keptBy visits) : x ∈ r := by
  obtain ⟨w, listed, rfl⟩ := List.mem_map.mp member
  rw [← visited]
  exact List.mem_map_of_mem (List.mem_of_mem_filter listed)

/-- The bound of one direction goes down by a little. -/
theorem le_update_add {d : DmaDirection} {value few : Nat} (near : top d ≤ value + few) (e : DmaDirection) :
    top e ≤ Function.update top d value e + few := by
  by_cases here : e = d
  · subst here
    rw [Function.update_self]
    exact near
  · rw [Function.update_of_ne here]
    omega

/-- When a direction was found done, its commands before the bound have been seen completed;
so it is after one more turn. -/
theorem found_update {d : DmaDirection} {freed : Bool} (value now : Nat)
    (found : ∀ dir, done dir = true → top dir ≤ seen dir) (lower : value ≤ top d)
    (looked : freed = true → done d = true ∨ value ≤ now) (e : DmaDirection)
    (set : Function.update done d freed e = true) :
    Function.update top d value e ≤ Function.update seen d (if done d then seen d else now) e := by
  by_cases here : e = d
  · subst here
    rw [Function.update_self] at set
    rw [Function.update_self, Function.update_self]
    split
    · rename_i earlier
      exact lower.trans (found _ earlier)
    · rename_i earlier
      exact (looked set).resolve_left earlier
  · rw [Function.update_of_ne here] at set
    rw [Function.update_of_ne here, Function.update_of_ne here]
    exact found e set

/-- What is kept stays in order: a freed request leaves no later one of its direction. -/
theorem Justified.keeps {t : RequestLayer} {rest : List DmaVisit} {now now' : DmaDirection → Nat}
    (sees : visit.Sees s now done x)
    (why : Justified t last now' (Function.update done visit.dir visit.freed) seen r rest)
    (number : last x = top visit.dir) (issued : IssuedAs g s x (last x))
    (same : visit.freed = false → s'.reqPool x = s.reqPool x) (others : ∀ y ∈ keptBy rest, s'.reqPool y = t.reqPool y)
    (more : ∃ new, s'.hostDma.commands = s.hostDma.commands ++ new)
    (kept : InIssueOrder g s' last
      (Function.update top visit.dir (last x - (s.reqPool x).nvmeDmaInfo.numOfNvmeBlock)) (keptBy rest) bottom) :
    ∃ bottom, InIssueOrder g s' last top (keptBy (visit :: rest)) bottom := by
  cases freed : visit.freed with
  | true =>
    have other : ∀ y ∈ keptBy rest, top (s'.reqPool y).dmaDirection = Function.update top visit.dir
        (last x - (s.reqPool x).nvmeDmaInfo.numOfNvmeBlock) (s'.reqPool y).dmaDirection := by
      intro y member
      rw [others y member]
      obtain ⟨w, listed, rfl⟩ := List.mem_map.mp member
      obtain ⟨listed, pending⟩ := List.mem_filter.mp listed
      have clear := (why.kept w listed (by simpa using pending)).1
      rw [← why.dir w listed]
      have diff : w.dir ≠ visit.dir := by
        rintro same
        rw [same, Function.update_self, freed] at clear
        cases clear
      rw [Function.update_of_ne diff]
    have none : keptBy (visit :: rest) = keptBy rest := by simp [keptBy, freed]
    rw [none]
    exact kept.change_top other
  | false =>
    have some : keptBy (visit :: rest) = x :: keptBy rest := by simp [keptBy, freed, sees.reqSlotTag]
    rw [some]
    refine ⟨bottom, ?_, issued.mono (same freed) more, ?_⟩
    · rw [same freed, ← sees.dir, number]
    · rw [same freed, ← sees.dir]
      exact kept

theorem scan_spec (ok : SlotsOk g s held flight) (queues : QueuesOk g s.queues queued)
    (shape : queued .nvmeDma = r.reverse ++ later) (enough : r.length ≤ turns) (counts : s.hostDma.CountsOk)
    (order : InIssueOrder g s last top r bottom)
    (near : ∀ dir, s.hostDma.issued dir ≤ top dir + 256 * n) (small : n + 2 * r.length ≤ 100000)
    (grows : Monotone completed) (found : ∀ dir, done dir = true → top dir ≤ seen dir)
    (ran : scanNvmeDmaReqQ g completed turns turn done s (r.headD reqSlotTagNone) = some (visits, s'))
    (fits : ∀ visit ∈ visits, visit.Fits) :
    SlotsOk g s' held flight ∧ Justified s last (completed turn) done seen r visits ∧
      (∃ bottom, InIssueOrder g s' last top (keptBy visits) bottom) ∧
      ∃ queued' appended, Scanned g flight s s' queued queued' later appended visits := by
  induction r generalizing s queued later turns turn n done top seen visits with
  | nil =>
    have shown : visits = [] ∧ s' = s := by
      cases turns <;> simpa [scanNvmeDmaReqQ, eq_comm] using ran
    obtain ⟨rfl, rfl⟩ := shown
    refine ⟨ok, ⟨rfl, by simp, by simp, by simp⟩, ⟨top, rfl⟩, queued, [], ?_⟩
    exact ⟨queues, by simpa [keptBy] using shape, by simp [freedBy], counts, ⟨[], by simp⟩, fun _ _ => rfl, ⟨last, rfl⟩,
      fun _ _ => rfl⟩
  | cons x r ih =>
    obtain ⟨turns, rfl⟩ : ∃ n, turns = n + 1 := ⟨turns - 1, by simp at enough; omega⟩
    have split : queued .nvmeDma = r.reverse ++ x :: later := by simp [shape]
    have real : x ≠ reqSlotTagNone := queues.ne_none (q := .nvmeDma) (by simp [split])
    have prev : s.queues.links.prev x = r.headD reqSlotTagNone := by
      rw [(queues.holds.links split).1]
      cases r <;> simp
    rw [List.headD_cons, scanNvmeDmaReqQ, if_neg real] at ran
    simp only [Option.bind_eq_bind, Option.bind_eq_some_iff, Option.some.injEq, Prod.mk.injEq, Prod.exists] at ran
    obtain ⟨visit, t, first, rest, t', others, rfl, rfl⟩ := ran
    rw [prev] at others
    obtain ⟨sees, ok', queuedT, started, leaves⟩ := checkDoneTurn_spec ok queues split first
    obtain ⟨number, issued, below⟩ := order
    rw [List.forall_mem_cons] at fits
    rw [← sees.dir] at number below
    have less := issued.first
    have few := issued.few
    have exact := sees.exact (n := n) fits.1 counts issued (by rw [number]; exact near _) (by omega)
    obtain ⟨countsT, moreT, sameT, -, fewT, -, -⟩ := leaves.start.spec counts
    have orderT := below.mono last (fun y member => sameT y (by simp [member])) (fun _ _ => rfl) moreT
    have nearT : ∀ e, t.hostDma.issued e ≤ Function.update top visit.dir
        (last x - (s.reqPool x).nvmeDmaInfo.numOfNvmeBlock) e + 256 * (n + 2) := by
      intro e
      have bound := near e
      have new := fewT e
      have drop := le_update_add (show top visit.dir ≤
        last x - (s.reqPool x).nvmeDmaInfo.numOfNvmeBlock + 256 by omega) e
      linarith
    have foundT := found_update (last x - (s.reqPool x).nvmeDmaInfo.numOfNvmeBlock) (completed turn visit.dir) found
      (by omega) fun freed => (exact.mp freed).imp_right fun looked => (Nat.sub_le ..).trans looked.2
    simp only [List.length_cons] at small enough
    obtain ⟨okS, why, ⟨bottomS, keptS⟩, queuedS, appended, scanned⟩ := ih (n := n + 2) ok' leaves.queues
      leaves.nvmeDma (by omega) countsT orderT nearT (by omega) foundT others fits.2
    have after := Scanned.cons ok leaves counts (fun y => mem_of_keptBy why.visited) scanned
    refine ⟨okS, ?_, ?_, queuedS, started ++ appended, after⟩
    · apply Justified.cons sees exact why _ (fun y member => sameT y (by simp [member])) grows
      intro earlier
      rw [number]
      exact found _ earlier
    · refine Justified.keeps sees why number issued (fun pending => ?_) (fun y member => scanned.reqs y (.inl member))
        after.more keptS
      exact after.reqs x (.inl (by simp [keptBy, pending, sees.reqSlotTag]))

/-! ### One call -/

/-- What is kept is the queue without what is freed, in the order of the queue. -/
theorem keptBy_reverse {queue : List Nat} (visited : visits.map DmaVisit.reqSlotTag = queue.reverse)
    (nodup : queue.Nodup) :
    (keptBy visits).reverse = queue.filter fun x => decide (x ∉ freedBy visits) := by
  have slots : (visits.map DmaVisit.reqSlotTag).Nodup := visited ▸ List.nodup_reverse.mpr nodup
  have same : keptBy visits = (visits.map DmaVisit.reqSlotTag).filter fun x => decide (x ∉ freedBy visits) := by
    rw [List.filter_map]
    unfold keptBy
    congr 1
    apply List.filter_congr
    intro visit member
    have once : ∀ w ∈ visits, w.reqSlotTag = visit.reqSlotTag → w = visit := fun w listed same =>
      List.inj_on_of_nodup_map slots listed member same
    cases freed : visit.freed with
    | true =>
      have gone : visit.reqSlotTag ∈ freedBy visits :=
        List.mem_map_of_mem (List.mem_filter.mpr ⟨member, freed⟩)
      simp [gone]
    | false =>
      have stays : visit.reqSlotTag ∉ freedBy visits := by
        intro gone
        obtain ⟨w, listed, same⟩ := List.mem_map.mp gone
        obtain ⟨listed, freed'⟩ := List.mem_filter.mp listed
        rw [once w listed same, freed] at freed'
        cases freed'
      simp [stays]
  rw [same, visited, ← List.filter_reverse, List.reverse_reverse]

/-- What a call does. -/
structure Retired (g : Geometry) (completed : Nat → DmaDirection → Nat) (s s' : RequestLayer)
    (queue queue' free free' : List Nat) (visits : List DmaVisit) (last : Nat → Nat) : Prop where
  /-- Every request has its commands, and those of one direction follow each other. -/
  issuedAs : ∀ x ∈ queue, IssuedAs g s x (last x)
  inOrder : queue.Pairwise fun older newer => (s.reqPool newer).dmaDirection = (s.reqPool older).dmaDirection →
    last older + (s.reqPool newer).nvmeDmaInfo.numOfNvmeBlock ≤ last newer
  /-- Every request is visited, once, from the newest to the oldest. -/
  visited : visits.map DmaVisit.reqSlotTag = queue.reverse
  /-- What is freed was done when the register was read for its direction. -/
  freed : ∀ (i : Nat) (visit : DmaVisit), visits[i]? = some visit → visit.freed = true →
    ∃ j ≤ i, ∃ (read : DmaVisit) (head : Nat), visits[j]? = some read ∧
      (s.reqPool read.reqSlotTag).dmaDirection = (s.reqPool visit.reqSlotTag).dmaDirection ∧
      read.head = some head ∧ last visit.reqSlotTag ≤ head
  /-- What was done at the start is freed. -/
  done : ∀ visit ∈ visits, last visit.reqSlotTag ≤ completed 0 (s.reqPool visit.reqSlotTag).dmaDirection →
    visit.freed = true
  /-- The freed requests are put to the free queue, each once. -/
  free : free' = free ++ freedBy visits
  once : (freedBy visits).Nodup
  /-- The others stay in their order, before the requests issued in between. -/
  queue : ∃ appended, queue' = (queue.filter fun x => decide (x ∉ freedBy visits)) ++ appended ∧
    (∀ x ∈ appended, x ∉ queue) ∧
    ∃ last' : Nat → Nat, (∀ x ∈ queue', IssuedAs g s' x (last' x)) ∧
      queue'.Pairwise fun older newer => (s'.reqPool newer).dmaDirection = (s'.reqPool older).dmaDirection →
        last' older + (s'.reqPool newer).nvmeDmaInfo.numOfNvmeBlock ≤ last' newer

theorem checkDone_spec (ok : SlotsOk g s held flight) (queues : QueuesOk g s.queues queued)
    (dma : DmaOk g s (queued .nvmeDma)) (grows : Monotone completed)
    (ran : s.checkDoneNvmeDmaReq g completed = some (visits, s')) (fits : ∀ visit ∈ visits, visit.Fits) :
    SlotsOk g s' held flight ∧ (∀ y ∈ flight, s'.reqPool y = s.reqPool y) ∧
      ∃ queued' last, QueuesOk g s'.queues queued' ∧ DmaOk g s' (queued' .nvmeDma) ∧
      Retired g completed s s' (queued .nvmeDma) (queued' .nvmeDma) (queued .free) (queued' .free) visits last := by
  obtain ⟨last, bottom, order⟩ := dma.order
  have length := queues.length_le .nvmeDma
  have slots := slots_lt g
  have head : s.queues.links.tail .nvmeDma = (queued .nvmeDma).reverse.headD reqSlotTagNone := by
    rw [queues.holds.tail]
    cases shape : queued .nvmeDma using List.reverseRecOn <;> simp
  have unset : ∀ dir : DmaDirection, (fun _ => false) dir = true → s.hostDma.issued dir ≤ s.hostDma.issued dir :=
    fun _ _ => le_rfl
  unfold checkDoneNvmeDmaReq at ran
  rw [head] at ran
  obtain ⟨ok', why, ⟨bottom', kept⟩, queued', appended, scanned⟩ :=
    scan_spec (n := 0) ok queues (show queued .nvmeDma = (queued .nvmeDma).reverse.reverse ++ [] by simp)
      (by simpa using length) dma.counts order (fun dir => by simp) (by simp; omega) grows unset ran fits
  have shape := scanned.nvmeDma
  have nodup := scanned.queues.holds.nodup .nvmeDma
  rw [List.nil_append] at shape
  rw [shape] at nodup
  obtain ⟨lastNew, above⟩ := scanned.order
  have apart : ∀ y ∈ appended.reverse, y ∉ keptBy visits := by
    intro y new old
    exact (List.nodup_append.mp nodup).2.2 y (by simpa using old) y (by simpa using new) rfl
  have both := above.join kept apart
  have newest : appended.reverse ++ keptBy visits = (queued' .nvmeDma).reverse := by simp [shape]
  rw [newest] at both
  have inOrder : ∀ {t : RequestLayer} {l : Nat → Nat} {xs : List Nat} {a b}, InIssueOrder g t l a xs.reverse b →
      (∀ x ∈ xs, IssuedAs g t x (l x)) ∧
      xs.Pairwise fun older newer => (t.reqPool newer).dmaDirection = (t.reqPool older).dmaDirection →
        l older + (t.reqPool newer).nvmeDmaInfo.numOfNvmeBlock ≤ l newer := by
    intro t l xs a b order
    exact ⟨fun x member => order.issuedAs x (by simpa using member), List.pairwise_reverse.mp order.pairwise⟩
  obtain ⟨each, pairs⟩ := inOrder order
  obtain ⟨each', pairs'⟩ := inOrder both
  refine ⟨ok', scanned.idle, queued', last, scanned.queues, ⟨scanned.counts, _, _, both⟩, ?_⟩
  constructor
  · exact each
  · exact pairs
  · exact why.visited
  · intro i visit listed freed
    rcases why.freed i visit listed freed with ⟨set, -⟩ | ⟨j, le, read, head, at_, dir, shown, bound⟩
    · cases set
    · rw [why.dir read (List.mem_of_getElem? at_), why.dir visit (List.mem_of_getElem? listed)] at dir
      exact ⟨j, le, read, head, at_, dir, shown, bound⟩
  · intro visit member early
    by_contra pending
    have late := (why.kept visit member (by simpa using pending)).2
    rw [why.dir visit member] at late
    omega
  · exact scanned.free
  · have listed : (freedBy visits).Sublist (queued .nvmeDma).reverse := by
      rw [← why.visited]
      exact List.filter_sublist.map _
    exact listed.nodup (List.nodup_reverse.mpr (queues.holds.nodup _))
  · refine ⟨appended, ?_, ?_, _, each', pairs'⟩
    · rw [shape, keptBy_reverse why.visited (queues.holds.nodup _)]
    · intro y new old
      by_cases gone : y ∈ freedBy visits
      · have free : y ∈ queued' .free := by simp [scanned.free, gone]
        have dma : y ∈ queued' .nvmeDma := by simp [shape, new]
        cases scanned.queues.holds.disjoint _ _ y free dma
      · have stays : y ∈ (keptBy visits).reverse := by
          rw [keptBy_reverse why.visited (queues.holds.nodup _)]
          simp [old, gone]
        exact apart y (by simpa using new) (by simpa using stays)

end OcpFw
