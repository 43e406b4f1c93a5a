import Mathlib.Data.Finset.Defs
import Mathlib.Data.List.Induction
import Mathlib.Data.List.Perm.Subperm
import OcpFw.BlockGenerations

/-! Counting the requests of a block. The dependency entry compares page numbers and does
not know generations, so that the same page of two generations may start in either order;
how many of each request have started does not depend on it. From the numbers alone, some
request can always start. -/
namespace OcpFw
namespace BlockReq

variable {H : History} {started : List Nat} {P k i j p : Nat} {q : Option BlockReq} {r : BlockReq}

/-! ### Submitted and started requests -/

/-- How often a request has started. -/
def starts (H : History) (started : List Nat) (r : BlockReq) : Nat :=
  (started.filter fun i => H[i]? = some (some r)).length

/-- Where a request was submitted. -/
def places (H : History) (r : BlockReq) : List Nat :=
  (List.range H.length).filter fun i => H[i]? = some (some r)

theorem mem_places : i ∈ places H r ↔ H[i]? = some (some r) := by
  simp only [places, List.mem_filter, List.mem_range, decide_eq_true_eq, and_iff_right_iff_imp]
  exact fun here => (List.getElem?_eq_some_iff.mp here).1

theorem length_places : (places H r).length = H.count (some r) := by
  induction H using List.reverseRecOn with
  | nil => rfl
  | append_singleton H q ih =>
    have before : (List.range H.length).filter (fun i => decide ((H ++ [q])[i]? = some (some r))) =
        places H r := by
      apply List.filter_congr
      intro i inRange
      rw [List.getElem?_append_left (List.mem_range.mp inRange)]
    rw [places, List.length_append, List.length_singleton, List.range_succ, List.filter_append, before,
      List.length_append, ih, List.count_append, List.count_singleton]
    by_cases same : q = some r
    · simp [same]
    · simp [same]

theorem starts_append (inRange : ∀ i ∈ started, i < H.length) :
    starts (H ++ [q]) started r = starts H started r := by
  unfold starts
  congr 1
  apply List.filter_congr
  intro i listed
  rw [List.getElem?_append_left (inRange i listed)]

theorem starts_snoc : starts H (started ++ [i]) r =
    starts H started r + if H[i]? = some (some r) then 1 else 0 := by
  rw [starts, List.filter_append, List.length_append, starts]
  by_cases here : H[i]? = some (some r) <;> simp [here]

private theorem filter_subset : (started.filter fun i => H[i]? = some (some r)) ⊆ places H r := by
  intro i listed
  exact mem_places.mpr (by simpa using (List.mem_filter.mp listed).2)

theorem starts_le (once : started.Nodup) : starts H started r ≤ H.count (some r) := by
  rw [← length_places]
  exact ((once.filter _).subperm filter_subset).length_le

/-- A request that waits is not among those that have started. -/
theorem starts_lt (once : started.Nodup) (here : H[i]? = some (some r)) (waits : i ∉ started) :
    starts H started r < H.count (some r) := by
  have apart : (i :: started.filter fun j => H[j]? = some (some r)).Nodup :=
    List.nodup_cons.mpr ⟨fun listed => waits (List.mem_filter.mp listed).1, once.filter _⟩
  have sub : (i :: started.filter fun j => H[j]? = some (some r)) ⊆ places H r :=
    List.cons_subset.mpr ⟨mem_places.mpr here, filter_subset⟩
  have fewer := (apart.subperm sub).length_le
  rw [length_places, List.length_cons] at fewer
  exact fewer

/-- When fewer have started than were submitted, one waits. -/
theorem exists_waiting (fewer : starts H started r < H.count (some r)) :
    ∃ i, i ∉ started ∧ H[i]? = some (some r) := by
  by_contra none
  push Not at none
  have sub : places H r ⊆ started.filter fun i => H[i]? = some (some r) := by
    intro i listed
    have here := mem_places.mp listed
    refine List.mem_filter.mpr ⟨?_, by simpa using here⟩
    by_contra waits
    exact none i waits here
  have nodup : (places H r).Nodup := List.nodup_range.filter _
  have most := (nodup.subperm sub).length_le
  rw [length_places] at most
  exact absurd fewer (Nat.not_lt.mpr most)

theorem generation_le : generation H i ≤ H.count (some .erase) :=
  (List.take_sublist _ _).count_le _

theorem generation_length : generation H H.length = H.count (some .erase) := by
  rw [generation, List.take_length]

/-! ### The discipline in numbers -/

/-- Every closed generation wrote each page once, the open one the pages up to the next;
what is read was written in the generation it is read in. -/
structure Tallied (P : Nat) (H : History) : Prop where
  writes : ∀ p < P, H.count (some (.write p)) = H.count (some .erase) + if p < nextPage H then 1 else 0
  next : nextPage H ≤ P
  pages : ∀ (i p : Nat), H[i]? = some (some (.write p)) → p < P
  reads : ∀ (i p : Nat), H[i]? = some (some (.read p)) →
    p < P ∧ (generation H i = H.count (some .erase) → p < nextPage H)

theorem Tallied.init : Tallied P [] :=
  ⟨fun p _ => by simp [nextPage], by simp [nextPage], by simp, by simp⟩

theorem Tallied.submit (ok : Tallied P H) (allowed : Allowed P H q) : Tallied P (H ++ [q]) := by
  have here : ∀ {i : Nat} {r : Option BlockReq}, (H ++ [q])[i]? = some r →
      H[i]? = some r ∧ i ≤ H.length ∨ i = H.length ∧ q = r := by
    intro i r listed
    obtain ⟨inRange, -⟩ := List.getElem?_eq_some_iff.mp listed
    rw [List.length_append, List.length_singleton] at inRange
    by_cases last : i = H.length
    · rw [last, List.getElem?_concat_length, Option.some.injEq] at listed
      exact .inr ⟨last, listed⟩
    · rw [List.getElem?_append_left (by omega)] at listed
      exact .inl ⟨listed, by omega⟩
  have count : ∀ r, (H ++ [q]).count (some r) = H.count (some r) + if q = some r then 1 else 0 := by
    intro r
    rw [List.count_append, List.count_singleton]
    simp only [beq_iff_eq]
  have next := ok.next
  constructor
  · intro p low
    have before := ok.writes p low
    rw [count, count, before]
    rcases q with _ | (p' | p' | _)
    · simp
    · obtain ⟨page, -⟩ := allowed
      rw [nextPage_write]
      by_cases same : p' = p
      · subst same
        simp [← page]
      · have order : p < nextPage H + 1 ↔ p < nextPage H := by omega
        simp [same, order]
    · simp
    · have full : nextPage H = P := allowed
      simp [full, low]
  · rcases q with _ | (p | p | _)
    · simpa using next
    · obtain ⟨page, low⟩ := allowed
      rw [nextPage_write]
      omega
    · simpa using next
    · simp
  · intro i p listed
    rcases here listed with ⟨old, -⟩ | ⟨-, rfl⟩
    · exact ok.pages i p old
    · exact allowed.2
  · intro i p listed
    rcases here listed with ⟨old, inRange⟩ | ⟨rfl, rfl⟩
    · obtain ⟨low, current⟩ := ok.reads i p old
      refine ⟨low, fun same => ?_⟩
      rw [generation_append inRange, count] at same
      have most : generation H i ≤ H.count (some .erase) := generation_le
      rcases q with _ | (p' | p' | _)
      · simpa using current (by simpa using same)
      · have page := current (by simpa using same)
        rw [nextPage_write]
        omega
      · simpa using current (by simpa using same)
      · simp only [↓reduceIte] at same
        omega
    · have page : p < nextPage H := allowed
      exact ⟨by omega, fun _ => by simpa using page⟩

/-! ### The entry in numbers -/

/-- With `k` as the next page the entry permits, each page below `k` was written once more
than the block was erased, the others as often. A waiting READ is not older than the
erases that have started. -/
structure Tally (P : Nat) (H : History) (started : List Nat) (k : Nat) : Prop where
  once : started.Nodup
  inRange : ∀ i ∈ started, i < H.length
  writes : ∀ p < P, starts H started (.write p) = starts H started .erase + if p < k then 1 else 0
  bounded : k ≤ P
  reads : ∀ (i p : Nat), i ∉ started → H[i]? = some (some (.read p)) →
    starts H started .erase ≤ generation H i

/-- What the entry of the block tests before it lets a request start. The requests in
`F` are just being submitted, and the entry does not count them yet. -/
def Startable (P : Nat) (H : History) (started : List Nat) (F : Finset Nat) (k : Nat) : BlockReq → Prop
  | .write p => p = k
  | .read p => p < k
  | .erase => k = P ∧ ∀ (i p : Nat), i ∉ started → i ∉ F → H[i]? ≠ some (some (.read p))

namespace Tally

theorem init : Tally P [] [] 0 :=
  ⟨.nil, by simp, fun _ _ => by simp [starts], Nat.zero_le _, by simp⟩

theorem submit (ok : Tally P H started k) (q : Option BlockReq) : Tally P (H ++ [q]) started k where
  once := ok.once
  inRange i listed := by
    have inRange := ok.inRange i listed
    rw [List.length_append, List.length_singleton]
    omega
  writes p low := by
    rw [starts_append ok.inRange, starts_append ok.inRange]
    exact ok.writes p low
  bounded := ok.bounded
  reads i p waits listed := by
    rw [starts_append ok.inRange]
    obtain ⟨inRange, -⟩ := List.getElem?_eq_some_iff.mp listed
    rw [List.length_append, List.length_singleton] at inRange
    by_cases last : i = H.length
    · rw [last, generation_append le_rfl, generation_length]
      exact starts_le ok.once
    · rw [List.getElem?_append_left (by omega)] at listed
      rw [generation_append (by omega)]
      exact ok.reads i p waits listed

/-- A request starts that is neither a WRITE nor an ERASE of the block. -/
theorem start (ok : Tally P H started k) (here : i < H.length) (waits : i ∉ started)
    (other : ∀ r, H[i]? = some (some r) → ∃ p, r = .read p) : Tally P H (started ++ [i]) k := by
  have same : ∀ r, (∀ p, r ≠ .read p) → starts H (started ++ [i]) r = starts H started r := by
    intro r notRead
    rw [starts_snoc, if_neg, Nat.add_zero]
    intro listed
    obtain ⟨p, read⟩ := other r listed
    exact notRead p read
  constructor
  · exact List.nodup_append'.mpr ⟨ok.once, by simp, by simpa using waits⟩
  · intro j listed
    rcases List.mem_append.mp listed with old | new
    · exact ok.inRange j old
    · rwa [List.mem_singleton.mp new]
  · intro p low
    rw [same (.write p) (by simp), same .erase (by simp)]
    exact ok.writes p low
  · exact ok.bounded
  · intro j p out listed
    rw [same .erase (by simp)]
    exact ok.reads j p (fun old => out (List.mem_append_left _ old)) listed

/-- The WRITE of the permitted page starts. -/
theorem startWrite (ok : Tally P H started k) (here : H[i]? = some (some (.write k))) (waits : i ∉ started)
    (low : k < P) : Tally P H (started ++ [i]) (k + 1) where
  once := List.nodup_append'.mpr ⟨ok.once, by simp, by simpa using waits⟩
  inRange j listed := by
    rcases List.mem_append.mp listed with old | new
    · exact ok.inRange j old
    · rw [List.mem_singleton.mp new]
      exact (List.getElem?_eq_some_iff.mp here).1
  writes p low := by
    have before := ok.writes p low
    rw [starts_snoc, starts_snoc, here, before]
    by_cases same : k = p
    · simp [same]
    · have order : p < k + 1 ↔ p < k := by omega
      simp [same, order]
  bounded := low
  reads j p out listed := by
    rw [starts_snoc, here]
    simpa using ok.reads j p (fun old => out (List.mem_append_left _ old)) listed

/-- An ERASE starts: the waiting READs were submitted after every ERASE. -/
theorem startErase (ok : Tally P H started P) (here : H[i]? = some (some .erase)) (waits : i ∉ started)
    (newest : ∀ (j p : Nat), j ∉ started → H[j]? = some (some (.read p)) →
      generation H j = H.count (some .erase)) : Tally P H (started ++ [i]) 0 where
  once := List.nodup_append'.mpr ⟨ok.once, by simp, by simpa using waits⟩
  inRange j listed := by
    rcases List.mem_append.mp listed with old | new
    · exact ok.inRange j old
    · rw [List.mem_singleton.mp new]
      exact (List.getElem?_eq_some_iff.mp here).1
  writes p low := by
    have before := ok.writes p low
    rw [starts_snoc, starts_snoc, here, before]
    simp [low]
  bounded := Nat.zero_le _
  reads j p out listed := by
    rw [newest j p (fun old => out (List.mem_append_left _ old)) listed]
    have nodup : (started ++ [i]).Nodup := List.nodup_append'.mpr ⟨ok.once, by simp, by simpa using waits⟩
    exact starts_le nodup

/-- While a request of the block waits, some waiting request can start, and not one that
is just being submitted as long as that is a READ. -/
theorem exists_startable {F : Finset Nat} (ok : Tally P H started k) (tallied : Tallied P H)
    (coming : ∀ j ∈ F, ∀ q, H[j]? = some (some q) → ∃ p, q = .read p) (here : H[i]? = some (some r))
    (waits : i ∉ started) (out : i ∉ F) :
    ∃ j r', j ∉ started ∧ j ∉ F ∧ H[j]? = some (some r') ∧ Startable P H started F k r' := by
  by_contra stuck
  push Not at stuck
  have blocked : ∀ {j r'}, j ∉ started → j ∉ F → H[j]? = some (some r') → ¬ Startable P H started F k r' :=
    fun waits out listed => stuck _ _ waits out listed
  have settled : ∀ {j r'}, H[j]? = some (some r') → (∀ p, r' ≠ .read p) → j ∉ F := by
    intro j r' listed notRead member
    obtain ⟨p, read⟩ := coming j member r' listed
    exact notRead p read
  have erases : starts H started .erase ≤ H.count (some .erase) := starts_le ok.once
  have permitted : ∀ {p}, p = k → ¬ starts H started (.write p) < H.count (some (.write p)) := by
    rintro p rfl fewer
    obtain ⟨j, waits, listed⟩ := exists_waiting fewer
    exact blocked waits (settled listed (by simp)) listed rfl
  have allErased : starts H started .erase = H.count (some .erase) := by
    by_cases full : k = P
    · by_contra fewer
      obtain ⟨j, waits, listed⟩ := exists_waiting (Nat.lt_of_le_of_ne erases fewer)
      refine blocked waits (settled listed (by simp)) listed ⟨full, fun m p waits' out' read => ?_⟩
      exact blocked waits' out' read (show p < k from full ▸ (tallied.reads m p read).1)
    · have low : k < P := Nat.lt_of_le_of_ne ok.bounded full
      have written := ok.writes k low
      have submitted := tallied.writes k low
      have none := permitted rfl
      simp only [lt_irrefl, ↓reduceIte, Nat.add_zero] at written
      omega
  have pages : nextPage H ≤ k := by
    by_contra more
    have low : k < P := by
      have next := tallied.next
      omega
    have written := ok.writes k low
    have submitted := tallied.writes k low
    have none := permitted rfl
    rw [if_pos (by omega)] at submitted
    simp only [lt_irrefl, ↓reduceIte, Nat.add_zero] at written
    omega
  cases r with
  | write p =>
    have low := tallied.pages i p here
    have fewer := starts_lt ok.once here waits
    have written := ok.writes p low
    have submitted := tallied.writes p low
    split at written <;> split at submitted <;> omega
  | read p =>
    have age := ok.reads i p waits here
    have most : generation H i ≤ H.count (some .erase) := generation_le
    have page := (tallied.reads i p here).2 (by omega)
    exact blocked waits out here (show p < k by omega)
  | erase =>
    have fewer := starts_lt ok.once here waits
    omega

end Tally
end BlockReq
end OcpFw
