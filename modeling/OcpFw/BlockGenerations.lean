import Mathlib.Data.List.Nodup
import Mathlib.Tactic.Linarith

/-! The requests of one flash block, generation after generation: its pages are
written in order, read once they are written, and then erased together. A history
lists what was submitted; the orders in which requests may start are those that give
every read the page its own generation wrote. -/
namespace OcpFw

/-- What the requests to a block ask for. -/
inductive BlockReq where
  | write (pageNo : Nat)
  | read (pageNo : Nat)
  | erase
  deriving DecidableEq

namespace BlockReq

/-- Everything submitted, with nothing in the place of requests to other blocks. -/
abbrev History := List (Option BlockReq)

variable {H : History} {started : List Nat} {P e k i j p : Nat} {r : Option BlockReq}

/-- The generation of the request at a place: the number of erases before it. -/
def generation (H : History) (i : Nat) : Nat := (H.take i).count (some .erase)

/-- The page the open generation writes next. -/
def nextPage (H : History) : Nat :=
  H.foldl (fun pageNo r =>
    match r with
    | some (.write _) => pageNo + 1
    | some .erase => 0
    | _ => pageNo) 0

/-- A block of `P` pages is written page after page, read where it is written, and
erased once all of its pages are written. -/
def Allowed (P : Nat) (H : History) : Option BlockReq → Prop
  | some (.write pageNo) => pageNo = nextPage H ∧ pageNo < P
  | some (.read pageNo) => pageNo < nextPage H
  | some .erase => nextPage H = P
  | none => True

instance : Decidable (Allowed P H r) := by
  unfold Allowed
  split <;> infer_instance

/-- The request at `j` has to start before the one at `i`. -/
def Precedes (H : History) (j i : Nat) : Prop :=
  match H[j]?, H[i]? with
  | some (some (.write q)), some (some (.write p)) => generation H j = generation H i ∧ q < p
  | some (some .erase), some (some (.write _)) => generation H j + 1 = generation H i
  | some (some (.write q)), some (some (.read p)) => generation H j = generation H i ∧ q = p
  | some (some (.write _)), some (some .erase) => generation H j = generation H i
  | some (some (.read _)), some (some .erase) => generation H j = generation H i
  | _, _ => False

/-- No request starts twice, and each starts after those that precede it. -/
structure Ordered (H : History) (started : List Nat) : Prop where
  once : started.Nodup
  after : ∀ j i, Precedes H j i → i ∈ started → List.Sublist [j, i] started

theorem generation_append (inRange : i ≤ H.length) : generation (H ++ [r]) i = generation H i := by
  rw [generation, List.take_append_of_le_length inRange, generation]

theorem generation_succ (here : H[i]? = some r) :
    generation H (i + 1) = generation H i + if r = some .erase then 1 else 0 := by
  rw [generation, List.take_add_one, here, Option.toList_some, List.count_append,
    List.count_singleton, generation]
  simp only [beq_iff_eq]

theorem generation_mono (le : i ≤ j) : generation H i ≤ generation H j :=
  (List.take_sublist_take_left le).count_le _

/-- An erase closes its generation. -/
theorem generation_lt_of_erase (erase : H[i]? = some (some .erase)) (later : i < j) :
    generation H i < generation H j := by
  have next := generation_succ erase
  have mono : generation H (i + 1) ≤ generation H j := generation_mono later
  simp only [↓reduceIte] at next
  omega

/-- Every generation before the one of a request was closed by an erase. -/
theorem exists_erase (earlier : e < generation H i) :
    ∃ j < i, H[j]? = some (some .erase) ∧ generation H j = e := by
  induction i with
  | zero => simp [generation] at earlier
  | succ i ih =>
    cases here : H[i]? with
    | none =>
      have same : generation H (i + 1) = generation H i := by
        have long := List.getElem?_eq_none_iff.mp here
        simp [generation, List.take_of_length_le long, List.take_of_length_le (Nat.le_succ_of_le long)]
      obtain ⟨j, before, erase, gen⟩ := ih (same ▸ earlier)
      exact ⟨j, by omega, erase, gen⟩
    | some r =>
      by_cases last : e < generation H i
      · obtain ⟨j, before, erase, gen⟩ := ih last
        exact ⟨j, by omega, erase, gen⟩
      · rw [generation_succ here] at earlier
        split at earlier
        · rename_i erase
          exact ⟨i, by omega, by rw [here, erase], by omega⟩
        · omega

@[simp] theorem nextPage_write : nextPage (H ++ [some (.write p)]) = nextPage H + 1 := by
  simp [nextPage]

@[simp] theorem nextPage_read : nextPage (H ++ [some (.read p)]) = nextPage H := by
  simp [nextPage]

@[simp] theorem nextPage_erase : nextPage (H ++ [some .erase]) = 0 := by
  simp [nextPage]

@[simp] theorem nextPage_none : nextPage (H ++ [none]) = nextPage H := by
  simp [nextPage]

/-- The request writes or reads a page below `k`. -/
def Below (k : Nat) : BlockReq → Prop
  | .write pageNo => pageNo < k
  | .read pageNo => pageNo < k
  | .erase => False

/-- What the history of a block keeps while only allowed requests are added to it. -/
structure Disciplined (P : Nat) (H : History) : Prop where
  pages : ∀ (i p : Nat), H[i]? = some (some (.write p)) → p < P
  open_ : ∀ (i p : Nat), H[i]? = some (some (.write p)) → generation H i = generation H H.length →
    p < nextPage H
  unique : ∀ (i j p : Nat), H[i]? = some (some (.write p)) → H[j]? = some (some (.write p)) →
    generation H i = generation H j → i = j

theorem Disciplined.init : Disciplined P [] := ⟨by simp, by simp, by simp⟩

theorem Disciplined.submit (ok : Disciplined P H) (allowed : Allowed P H r) :
    Disciplined P (H ++ [r]) := by
  have old : ∀ (i p : Nat), (H ++ [r])[i]? = some (some (.write p)) → i ≠ H.length →
      H[i]? = some (some (.write p)) ∧ i ≤ H.length := by
    intro i p here notLast
    obtain ⟨inRange, -⟩ := List.getElem?_eq_some_iff.mp here
    rw [List.length_append, List.length_singleton] at inRange
    rw [List.getElem?_append_left (by omega)] at here
    exact ⟨here, by omega⟩
  have gen : ∀ i ≤ H.length, generation (H ++ [r]) i = generation H i :=
    fun i inRange => generation_append inRange
  have last : ∀ p, (H ++ [r])[H.length]? = some (some (.write p)) → p = nextPage H ∧ p < P ∧
      r = some (.write p) := by
    intro p here
    rw [List.getElem?_concat_length, Option.some.injEq] at here
    subst here
    exact ⟨allowed.1, allowed.2, rfl⟩
  constructor
  · intro i p here
    by_cases same : i = H.length
    · exact (last p (same ▸ here)).2.1
    · exact ok.pages i p (old i p here same).1
  · intro i p here current
    rw [List.length_append, List.length_singleton] at current
    by_cases same : i = H.length
    · obtain ⟨page, -, rfl⟩ := last p (same ▸ here)
      simp [page]
    · obtain ⟨before, inRange⟩ := old i p here same
      rw [gen i inRange, generation_succ (List.getElem?_concat_length ..), gen _ le_rfl] at current
      have mono : generation H i ≤ generation H H.length := generation_mono inRange
      rcases r with _ | (_ | _ | _)
      · simpa using ok.open_ i p before (by simpa using current)
      · have page := ok.open_ i p before (by simpa using current)
        rw [nextPage_write]
        omega
      · simpa using ok.open_ i p before (by simpa using current)
      · simp only [↓reduceIte] at current
        omega
  · intro i j p first second same
    by_cases lastFirst : i = H.length
    · by_cases lastSecond : j = H.length
      · omega
      · obtain ⟨before, inRange⟩ := old j p second lastSecond
        rw [lastFirst, gen _ le_rfl, gen j inRange] at same
        have page := ok.open_ j p before same.symm
        have current := (last p (lastFirst ▸ first)).1
        omega
    · obtain ⟨before, inRange⟩ := old i p first lastFirst
      by_cases lastSecond : j = H.length
      · rw [lastSecond, gen _ le_rfl, gen i inRange] at same
        have page := ok.open_ i p before same
        have current := (last p (lastSecond ▸ second)).1
        omega
      · obtain ⟨before', inRange'⟩ := old j p second lastSecond
        rw [gen i inRange, gen j inRange'] at same
        exact ok.unique i j p before before' same

/-- `e` generations are done, and of the next one the first `k` pages were written. -/
structure Progress (H : History) (started : List Nat) (e k : Nat) : Prop where
  ordered : Ordered H started
  inRange : ∀ i ∈ started, i < H.length
  past : ∀ (i : Nat) (r : BlockReq), H[i]? = some (some r) → generation H i < e → i ∈ started
  written : ∀ (i p : Nat), H[i]? = some (some (.write p)) → generation H i = e → p < k → i ∈ started
  sound : ∀ i ∈ started, ∀ r, H[i]? = some (some r) →
    generation H i < e ∨ generation H i = e ∧ Below k r
  bounded : e < generation H H.length ∨ e = generation H H.length ∧ k ≤ nextPage H

namespace Progress

theorem init : Progress [] [] 0 0 where
  ordered := ⟨.nil, by simp⟩
  inRange := by simp
  past := by simp
  written := by simp
  sound := by simp
  bounded := by simp [generation, nextPage]

/-- A request that no waiting erase precedes belongs to the open generation. -/
theorem current (ok : Progress H started e k) {r : BlockReq} (here : H[i]? = some (some r))
    (waits : i ∉ started) (first : ∀ j < i, H[j]? = some (some .erase) → j ∈ started) :
    generation H i = e := by
  have notPast : ¬ generation H i < e := fun past => waits (ok.past i r here past)
  have notLater : ¬ e < generation H i := by
    intro later
    obtain ⟨j, before, erase, gen⟩ := exists_erase later
    rcases ok.sound j (first j before erase) .erase erase with past | ⟨-, below⟩
    · omega
    · exact below
  omega

/-- What precedes a request started; then so can the request. -/
private theorem start_ordered (ok : Ordered H started) (waits : i ∉ started)
    (before : ∀ j, Precedes H j i → j ∈ started) : Ordered H (started ++ [i]) where
  once := by
    rw [List.nodup_append]
    exact ⟨ok.once, by simp, fun j listed k last same => by simp_all⟩
  after j m precedes listed := by
    rw [List.mem_append, List.mem_singleton] at listed
    rcases listed with old | rfl
    · exact (ok.after j m precedes old).trans (List.sublist_append_left _ _)
    · have first : List.Sublist [j] started := List.singleton_sublist.mpr (before j precedes)
      exact first.append (List.Sublist.refl [m])

private theorem start_inRange (ok : Progress H started e k) (here : H[i]? = some r) :
    ∀ j ∈ started ++ [i], j < H.length := by
  intro j listed
  rw [List.mem_append, List.mem_singleton] at listed
  rcases listed with old | rfl
  · exact ok.inRange j old
  · exact (List.getElem?_eq_some_iff.mp here).1

/-- The next page of the open generation is written. -/
theorem startWrite (ok : Progress H started e k) (disciplined : Disciplined P H)
    (here : H[i]? = some (some (.write k))) (current : generation H i = e) (waits : i ∉ started) :
    Progress H (started ++ [i]) e (k + 1) where
  ordered := by
    apply start_ordered ok.ordered waits
    intro j precedes
    rw [Precedes, here] at precedes
    split at precedes <;> simp_all
    · exact ok.written _ _ ‹_› precedes.1 precedes.2
    · exact ok.past _ _ ‹_› (by omega)
  inRange := start_inRange ok here
  past j r there earlier := List.mem_append_left _ (ok.past j r there earlier)
  written j p there gen below := by
    by_cases old : p < k
    · exact List.mem_append_left _ (ok.written j p there gen old)
    · obtain rfl : p = k := by omega
      have same := disciplined.unique j i p there here (gen.trans current.symm)
      simp [same]
  sound j listed r there := by
    rw [List.mem_append, List.mem_singleton] at listed
    rcases listed with old | rfl
    · refine (ok.sound j old r there).imp_right fun ⟨gen, below⟩ => ⟨gen, ?_⟩
      cases r <;> simp only [Below] at below ⊢ <;> omega
    · rw [here, Option.some.injEq, Option.some.injEq] at there
      exact .inr ⟨current, by simp [Below, ← there]⟩
  bounded := by
    refine ok.bounded.imp_right fun ⟨last, _⟩ => ⟨last, ?_⟩
    exact disciplined.open_ i k here (current.trans last)

/-- A page of the open generation is read. -/
theorem startRead (ok : Progress H started e k) (here : H[i]? = some (some (.read p)))
    (current : generation H i = e) (below : p < k) (waits : i ∉ started) : Progress H (started ++ [i]) e k where
  ordered := by
    apply start_ordered ok.ordered waits
    intro j precedes
    rw [Precedes, here] at precedes
    split at precedes <;> simp_all
    exact ok.written _ _ ‹_› precedes.1 below
  inRange := start_inRange ok here
  past j r there earlier := List.mem_append_left _ (ok.past j r there earlier)
  written j p there gen low := List.mem_append_left _ (ok.written j p there gen low)
  sound j listed r there := by
    rw [List.mem_append, List.mem_singleton] at listed
    rcases listed with old | rfl
    · exact ok.sound j old r there
    · rw [here, Option.some.injEq, Option.some.injEq] at there
      exact .inr ⟨current, by simp [Below, ← there, below]⟩
  bounded := ok.bounded

/-- The open generation is erased: its pages are written, and its reads started. -/
theorem startErase (ok : Progress H started e P) (disciplined : Disciplined P H)
    (here : H[i]? = some (some .erase)) (current : generation H i = e) (waits : i ∉ started)
    (reads : ∀ (j p : Nat), H[j]? = some (some (.read p)) → generation H j = e → j ∈ started) :
    Progress H (started ++ [i]) (e + 1) 0 where
  ordered := by
    apply start_ordered ok.ordered waits
    intro j precedes
    rw [Precedes, here] at precedes
    split at precedes <;> simp_all
    · exact ok.written _ _ ‹_› precedes (disciplined.pages _ _ ‹_›)
  inRange := start_inRange ok here
  past j r there earlier := by
    rw [List.mem_append, List.mem_singleton]
    by_cases old : generation H j < e
    · exact .inl (ok.past j r there old)
    · have gen : generation H j = e := by omega
      cases r with
      | write p => exact .inl (ok.written j p there gen (disciplined.pages j p there))
      | read p => exact .inl (reads j p there gen)
      | erase =>
        refine .inr ?_
        by_contra diff
        rcases Nat.lt_or_gt_of_ne diff with before | later
        · have closed := generation_lt_of_erase there before
          omega
        · have closed := generation_lt_of_erase here later
          omega
  written j p there gen low := absurd low (Nat.not_lt_zero p)
  sound j listed r there := by
    rw [List.mem_append, List.mem_singleton] at listed
    rcases listed with old | rfl
    · rcases ok.sound j old r there with past | now
      · exact .inl (by omega)
      · exact .inl (by omega)
    · exact .inl (by omega)
  bounded := by
    have closed := generation_lt_of_erase here (List.getElem?_eq_some_iff.mp here).1
    rcases Nat.lt_or_ge (e + 1) (generation H H.length) with more | last
    · exact .inl more
    · exact .inr ⟨by omega, Nat.zero_le _⟩

/-- A request to another block starts. -/
theorem startOther (ok : Progress H started e k) (here : H[i]? = some none) (waits : i ∉ started) :
    Progress H (started ++ [i]) e k where
  ordered := by
    apply start_ordered ok.ordered waits
    intro j precedes
    rw [Precedes, here] at precedes
    split at precedes <;> simp_all
  inRange := start_inRange ok here
  past j r there earlier := List.mem_append_left _ (ok.past j r there earlier)
  written j p there gen low := List.mem_append_left _ (ok.written j p there gen low)
  sound j listed r there := by
    rw [List.mem_append, List.mem_singleton] at listed
    rcases listed with old | rfl
    · exact ok.sound j old r there
    · rw [here] at there
      cases there
  bounded := ok.bounded

/-- What has started is behind what the history allows next. -/
private theorem behind (ok : Progress H started e k) (listed : i ∈ started) {r : BlockReq}
    (here : H[i]? = some (some r)) :
    generation H i < generation H H.length ∨
      generation H i = generation H H.length ∧ Below (nextPage H) r := by
  rcases ok.bounded with more | ⟨last, pages⟩
  · rcases ok.sound i listed r here with past | ⟨now, -⟩
    · exact .inl (by omega)
    · exact .inl (by omega)
  · rcases ok.sound i listed r here with past | ⟨now, below⟩
    · exact .inl (by omega)
    · refine .inr ⟨by omega, ?_⟩
      cases r <;> simp only [Below] at below ⊢ <;> omega

/-- A request that is only allowed now precedes none of those that have started. -/
private theorem submit_precedes (ok : Progress H started e k) (allowed : Allowed P H r)
    (listed : i ∈ started) : ¬ Precedes (H ++ [r]) H.length i := by
  have inRange := ok.inRange i listed
  have mono : generation H i ≤ generation H H.length := generation_mono inRange.le
  intro precedes
  rw [Precedes, List.getElem?_concat_length, List.getElem?_append_left inRange,
    generation_append le_rfl, generation_append inRange.le] at precedes
  split at precedes
  · rename_i q p new here
    cases new
    rcases ok.behind listed here with past | ⟨-, below⟩
    · omega
    · have page : q = nextPage H := allowed.1
      simp only [Below] at below
      omega
  · omega
  · rename_i q p new here
    cases new
    rcases ok.behind listed here with past | ⟨-, below⟩
    · omega
    · have page : q = nextPage H := allowed.1
      simp only [Below] at below
      omega
  · rename_i q new here
    rcases ok.behind listed here with past | ⟨-, below⟩
    · omega
    · exact below
  · rename_i q new here
    rcases ok.behind listed here with past | ⟨-, below⟩
    · omega
    · exact below
  · exact precedes

/-- An allowed request is submitted. -/
theorem submit (ok : Progress H started e k) (allowed : Allowed P H r) :
    Progress (H ++ [r]) started e k := by
  have before : ∀ i, i < H.length → (H ++ [r])[i]? = H[i]? ∧
      generation (H ++ [r]) i = generation H i := by
    intro i inRange
    exact ⟨List.getElem?_append_left inRange, generation_append inRange.le⟩
  have cases : ∀ i, ((H ++ [r])[i]?).isSome → i < H.length ∨ i = H.length := by
    intro i some
    have inRange : i < (H ++ [r]).length := by simpa using some
    simp only [List.length_append, List.length_singleton] at inRange
    omega
  have top : e ≤ generation H H.length := by
    rcases ok.bounded with more | ⟨last, -⟩ <;> omega
  have last : (H ++ [r])[H.length]? = some r ∧
      generation (H ++ [r]) H.length = generation H H.length :=
    ⟨List.getElem?_concat_length .., generation_append le_rfl⟩
  constructor
  · refine ⟨ok.ordered.once, fun j i precedes listed => ?_⟩
    have inRange := ok.inRange i listed
    rcases Nat.lt_trichotomy j H.length with old | rfl | out
    · apply ok.ordered.after j i _ listed
      unfold Precedes at precedes ⊢
      rwa [(before i inRange).1, (before j old).1, (before i inRange).2, (before j old).2] at precedes
    · exact absurd precedes (ok.submit_precedes allowed listed)
    · have none : (H ++ [r])[j]? = none := List.getElem?_eq_none_iff.mpr (by simp; omega)
      simp [Precedes, none] at precedes
  · intro i listed
    have inRange := ok.inRange i listed
    simp only [List.length_append, List.length_singleton]
    omega
  · intro i r' here earlier
    rcases cases i (by simp [here]) with old | rfl
    · rw [(before i old).1] at here
      exact ok.past i r' here ((before i old).2 ▸ earlier)
    · rw [last.2] at earlier
      omega
  · intro i p here gen below
    rcases cases i (by simp [here]) with old | rfl
    · rw [(before i old).1] at here
      exact ok.written i p here ((before i old).2 ▸ gen) below
    · rw [last.1, Option.some.injEq] at here
      subst here
      rw [last.2] at gen
      rcases ok.bounded with more | ⟨-, pages⟩
      · omega
      · have page : p = nextPage H := allowed.1
        omega
  · intro i listed r' here
    have inRange := ok.inRange i listed
    rw [(before i inRange).1] at here
    exact (before i inRange).2.symm ▸ ok.sound i listed r' here
  · have next : generation (H ++ [r]) (H ++ [r]).length =
        generation H H.length + if r = some .erase then 1 else 0 := by
      rw [List.length_append, List.length_singleton, generation_succ last.1, last.2]
    rw [next]
    rcases ok.bounded with more | ⟨same, pages⟩
    · exact .inl (by omega)
    · rcases r with _ | (p | p | _)
      · exact .inr ⟨by simpa using same, by simpa using pages⟩
      · exact .inr ⟨by simpa using same, by rw [nextPage_write]; omega⟩
      · exact .inr ⟨by simpa using same, by simpa using pages⟩
      · exact .inl (by simp; omega)

end Progress
end BlockReq
end OcpFw
