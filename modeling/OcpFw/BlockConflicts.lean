import Mathlib.Data.List.Induction
import OcpFw.BlockGenerations

/-! The requests of one block that touch the same page, and those of which one erases the
block. In an allowed history that is started in the order of its generations, any two of
them start in the order they were submitted in. -/
namespace OcpFw
namespace BlockReq

variable {H : History} {started : List Nat} {P e i j t p : Nat} {q : Option BlockReq} {r r' : BlockReq}

/-! ### Places in a list without repetition -/

/-- What stands before something else has the smaller index. -/
theorem idxOf_lt_of_sublist {l : List Nat} (once : l.Nodup) (sub : List.Sublist [i, j] l) :
    l.idxOf i < l.idxOf j := by
  obtain ⟨front, back, rfl, first, rest⟩ := List.cons_sublist_iff.mp sub
  have second : j ∈ back := List.singleton_sublist.mp rest
  have apart : j ∉ front := fun here => (List.disjoint_of_nodup_append once) here second
  rw [List.idxOf_append_of_mem first, List.idxOf_append_of_notMem apart]
  have low := List.idxOf_lt_length_of_mem first
  omega

/-! ### Allowed histories -/

/-- Every request was allowed when it was submitted. -/
def AllowedAll (P : Nat) (H : History) : Prop :=
  ∀ (i : Nat) (q : Option BlockReq), H[i]? = some q → Allowed P (H.take i) q

theorem AllowedAll.init : AllowedAll P [] := fun i q here => by simp at here

theorem AllowedAll.submit (ok : AllowedAll P H) (allowed : Allowed P H q) : AllowedAll P (H ++ [q]) := by
  intro i q' here
  obtain ⟨inRange, -⟩ := List.getElem?_eq_some_iff.mp here
  rw [List.length_append, List.length_singleton] at inRange
  by_cases last : i = H.length
  · rw [last, List.getElem?_concat_length, Option.some.injEq] at here
    rw [last, List.take_left, ← here]
    exact allowed
  · rw [List.getElem?_append_left (by omega)] at here
    rw [List.take_append_of_le_length (by omega)]
    exact ok i q' here

theorem AllowedAll.take (ok : AllowedAll P H) (n : Nat) : AllowedAll P (H.take n) := by
  intro i q here
  obtain ⟨inRange, -⟩ := List.getElem?_eq_some_iff.mp here
  have less : i < n := by
    rw [List.length_take] at inRange
    omega
  rw [List.getElem?_take_of_lt less] at here
  rw [List.take_take, Nat.min_eq_left less.le]
  exact ok i q here

/-- The pages below the next one were written in the open generation. -/
theorem AllowedAll.exists_write (ok : AllowedAll P H) (low : p < nextPage H) :
    ∃ w, H[w]? = some (some (.write p)) ∧ generation H w = generation H H.length := by
  induction H using List.reverseRecOn with
  | nil => simp [nextPage] at low
  | append_singleton H q ih =>
    have before : AllowedAll P H := by simpa using ok.take H.length
    have allowed : Allowed P H q := by simpa using ok H.length q (by simp)
    have last : generation (H ++ [q]) (H ++ [q]).length =
        generation H H.length + if q = some .erase then 1 else 0 := by
      rw [List.length_append, List.length_singleton, generation_succ (List.getElem?_concat_length ..),
        generation_append le_rfl]
    have old : p < nextPage H → q ≠ some .erase → ∃ w, (H ++ [q])[w]? = some (some (.write p)) ∧
        generation (H ++ [q]) w = generation (H ++ [q]) (H ++ [q]).length := by
      intro low' noErase
      obtain ⟨w, here, gen⟩ := ih before low'
      have inside := (List.getElem?_eq_some_iff.mp here).1
      refine ⟨w, by rw [List.getElem?_append_left inside, here], ?_⟩
      rw [last, generation_append inside.le, gen, if_neg noErase, Nat.add_zero]
    rcases q with _ | (p' | p' | _)
    · exact old (by simpa using low) (by simp)
    · rw [nextPage_write] at low
      by_cases now : p = nextPage H
      · obtain ⟨page, -⟩ := allowed
        refine ⟨H.length, by rw [List.getElem?_concat_length, now, page], ?_⟩
        rw [last, generation_append le_rfl]
        simp
      · exact old (by omega) (by simp)
    · exact old (by simpa using low) (by simp)
    · simp at low

/-- What a READ reads was written earlier in its generation, and what an ERASE erases was
written in its generation. -/
theorem AllowedAll.written (ok : AllowedAll P H) (pages : 0 < P) (here : H[i]? = some (some r))
    (other : ∀ p, r ≠ .write p) : ∃ w p, w < i ∧ H[w]? = some (some (.write p)) ∧
      generation H w = generation H i ∧ (∀ q, r = .read q → q = p) := by
  have inside := (List.getElem?_eq_some_iff.mp here).1
  have allowed := ok i (some r) here
  have length : (H.take i).length = i := by
    rw [List.length_take]
    omega
  have found : ∀ p, p < nextPage (H.take i) → ∃ w, w < i ∧ H[w]? = some (some (.write p)) ∧
      generation H w = generation H i := by
    intro p low
    obtain ⟨w, write, gen⟩ := (ok.take i).exists_write low
    have less := (List.getElem?_eq_some_iff.mp write).1
    rw [length] at less gen
    rw [List.getElem?_take_of_lt less] at write
    refine ⟨w, less, write, ?_⟩
    rwa [generation, generation, List.take_take, List.take_take, Nat.min_eq_left less.le, Nat.min_self] at gen
  cases r with
  | write p => exact absurd rfl (other p)
  | read p =>
    obtain ⟨w, less, write, gen⟩ := found p allowed
    exact ⟨w, p, less, write, gen, fun q same => by cases same; rfl⟩
  | erase =>
    have full : nextPage (H.take i) = P := allowed
    obtain ⟨w, less, write, gen⟩ := found 0 (by omega)
    exact ⟨w, 0, less, write, gen, by simp⟩

/-! ### The order of the generations -/

namespace Ordered

/-- What precedes a started request has started, at a smaller index. -/
theorem before (ok : Ordered H started) (precedes : Precedes H j i) (listed : i ∈ started) :
    j ∈ started ∧ started.idxOf j < started.idxOf i := by
  have sub := ok.after j i precedes listed
  exact ⟨sub.subset (by simp), idxOf_lt_of_sublist ok.once sub⟩

private theorem before_trans (first : t ∈ started ∧ started.idxOf t < started.idxOf j)
    (second : started.idxOf j < started.idxOf i) : t ∈ started ∧ started.idxOf t < started.idxOf i :=
  ⟨first.1, by omega⟩

/-- The ERASE of a generation starts before everything of the later ones. -/
theorem erase_before (ok : Ordered H started) (allowed : AllowedAll P H) (pages : 0 < P)
    (erase : H[t]? = some (some .erase)) (here : H[j]? = some (some r))
    (later : generation H t < generation H j) (listed : j ∈ started) :
    t ∈ started ∧ started.idxOf t < started.idxOf j := by
  induction gen : generation H j using Nat.strong_induction_on generalizing j r with
  | _ n ih =>
    subst gen
    have write : ∀ {w p}, H[w]? = some (some (.write p)) → generation H w = generation H j → w ∈ started →
        t ∈ started ∧ started.idxOf t < started.idxOf w := by
      intro w p write same began
      by_cases next : generation H t + 1 = generation H w
      · exact ok.before (by rw [Precedes, erase, write]; exact next) began
      · obtain ⟨u, -, last, close⟩ := exists_erase (H := H) (e := generation H w - 1) (i := w) (by omega)
        have step := ok.before (j := u) (i := w) (by rw [Precedes, last, write]; omega) began
        exact before_trans (ih _ (by omega) last (by omega) step.1 rfl) step.2
    by_cases isWrite : ∃ p, r = .write p
    · obtain ⟨p, rfl⟩ := isWrite
      exact write here rfl listed
    · obtain ⟨w, p, -, first, same, page⟩ := allowed.written pages here fun p eq => isWrite ⟨p, eq⟩
      have step : w ∈ started ∧ started.idxOf w < started.idxOf j := by
        apply ok.before _ listed
        rw [Precedes, first, here]
        cases r with
        | write p => exact absurd ⟨p, rfl⟩ isWrite
        | read q => exact ⟨same, (page q rfl).symm⟩
        | erase => exact same
      exact before_trans (write first same step.1) step.2

end Ordered

/-! ### Conflicts -/

/-- Two requests touch the same page, and not both only read it; an ERASE touches all. -/
def Clash : BlockReq → BlockReq → Prop
  | .write p, .write q => p = q
  | .write p, .read q => p = q
  | .read p, .write q => p = q
  | .read _, .read _ => False
  | .erase, _ => True
  | _, .erase => True

/-- Of two clashing requests the one submitted first starts first. -/
theorem Ordered.clash (ok : Ordered H started) (allowed : AllowedAll P H) (disciplined : Disciplined P H)
    (pages : 0 < P) (here : H[i]? = some (some r)) (there : H[j]? = some (some r')) (less : i < j)
    (clash : Clash r r') (listed : j ∈ started) : i ∈ started ∧ started.idxOf i < started.idxOf j := by
  have mono : generation H i ≤ generation H j := generation_mono less.le
  rcases Nat.lt_or_eq_of_le mono with later | same
  · obtain ⟨t, -, erase, gen⟩ := exists_erase later
    have step := ok.erase_before allowed pages erase there (by omega) listed
    by_cases isErase : r = .erase
    · subst isErase
      exact ok.erase_before allowed pages here there later listed
    · have first : i ∈ started ∧ started.idxOf i < started.idxOf t := by
        apply ok.before _ step.1
        rw [Precedes, here, erase]
        cases r with
        | write p => exact gen.symm
        | read p => exact gen.symm
        | erase => exact absurd rfl isErase
      exact ⟨first.1, by omega⟩
  · cases r with
    | erase =>
      have closed := generation_lt_of_erase here less
      omega
    | write p =>
      cases r' with
      | write q =>
        cases (show p = q from clash)
        exact absurd (disciplined.unique i j p here there same) (by omega)
      | read q => exact ok.before (by rw [Precedes, here, there]; exact ⟨same, clash⟩) listed
      | erase => exact ok.before (by rw [Precedes, here, there]; exact same) listed
    | read p =>
      cases r' with
      | write q =>
        cases (show p = q from clash)
        obtain ⟨w, p', earlier, write, gen, page⟩ := allowed.written pages here (by simp)
        cases page p rfl
        have once := disciplined.unique w j p write there (by omega)
        omega
      | read q => exact absurd clash id
      | erase => exact ok.before (by rw [Precedes, here, there]; exact same) listed

/-- A request before which all others have started fits the entry of the block. -/
theorem Progress.first_fits {k : Nat} (ok : Progress H started e k) (allowed : AllowedAll P H)
    (here : H[i]? = some (some r)) (waits : i ∉ started)
    (earlier : ∀ j q, j < i → H[j]? = some (some q) → j ∈ started) :
    match r with
    | .write p => p = k
    | .read p => p < k
    | .erase => P ≤ k := by
  have gen := ok.current here waits fun j less erase => earlier j .erase less erase
  have inside := (List.getElem?_eq_some_iff.mp here).1
  have turn := allowed i (some r) here
  have below : ∀ p, p < nextPage (H.take i) → p < k := by
    intro p low
    obtain ⟨w, write, same⟩ := (allowed.take i).exists_write low
    have less := (List.getElem?_eq_some_iff.mp write).1
    rw [List.length_take, Nat.min_eq_left inside.le] at less same
    rw [List.getElem?_take_of_lt less] at write
    rw [generation, generation, List.take_take, List.take_take, Nat.min_eq_left less.le, Nat.min_self] at same
    have written : generation H w = e := by
      rw [← gen]
      exact same
    rcases ok.sound w (earlier w _ less write) _ write with past | ⟨-, low⟩
    · omega
    · exact low
  cases r with
  | write p =>
    obtain ⟨page, -⟩ := turn
    have notPast : ¬ p < k := fun low => waits (ok.written i p here gen low)
    have reached : p - 1 < p → p - 1 < k := fun low => below (p - 1) (page ▸ low)
    change p = k
    omega
  | read p => exact below p turn
  | erase =>
    have full : nextPage (H.take i) = P := turn
    rcases Nat.eq_zero_or_pos P with zero | pos
    · change P ≤ k
      omega
    · have last := below (P - 1) (by omega)
      change P ≤ k
      omega

end BlockReq

end OcpFw
