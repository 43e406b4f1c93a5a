import Mathlib.Data.List.Dedup

/-! The least-recently-used cache. A cache of `n` keys holds the `n` keys used last; the
history of uses determines it, and one more use moves its key to the front. -/
namespace LruCache
variable {κ : Type} [DecidableEq κ]

/-- The keys in order of their last use, the most recent one first. -/
def byLastUse (history : List κ) : List κ := history.dedup.reverse

/-- What a cache of `n` keys holds. -/
def recent (n : Nat) (history : List κ) : List κ := (byLastUse history).take n

variable {n : Nat} {history : List κ} {k : κ}

private theorem dedup_append_singleton (history : List κ) (k : κ) :
    (history ++ [k]).dedup = history.dedup.erase k ++ [k] := by
  induction history with
  | nil => simp
  | cons x history ih =>
    rw [List.cons_append]
    by_cases listed : x ∈ history
    · rw [List.dedup_cons_of_mem (by simp [listed]), List.dedup_cons_of_mem listed, ih]
    · rw [List.dedup_cons_of_notMem listed]
      by_cases same : x = k
      · subst same
        rw [List.dedup_cons_of_mem (by simp), ih, List.erase_cons_head,
          List.erase_of_not_mem (by simpa using listed)]
      · rw [List.dedup_cons_of_notMem (by simp [listed, same]), ih,
          List.erase_cons_tail (by simpa using same), List.cons_append]

theorem byLastUse_append (history : List κ) (k : κ) :
    byLastUse (history ++ [k]) = k :: (byLastUse history).erase k := by
  have once : history.dedup.Nodup := List.nodup_dedup history
  have reversed : (history.dedup.erase k).reverse = history.dedup.reverse.erase k := by
    rw [once.erase_eq_filter, (List.nodup_reverse.mpr once).erase_eq_filter, List.filter_reverse]
  rw [byLastUse, dedup_append_singleton, List.reverse_append, List.reverse_singleton, reversed]
  rfl

theorem length_recent_le (n : Nat) (history : List κ) : (recent n history).length ≤ n :=
  List.length_take_le _ _

private theorem take_erase (l : List κ) (m : Nat) (k : κ) :
    (l.erase k).take m = ((l.take (m + 1)).erase k).take m := by
  induction l generalizing m with
  | nil => simp
  | cons x l ih =>
    by_cases same : x = k
    · subst same
      simp [List.take_take]
    · cases m with
      | zero => simp
      | succ m =>
        have other : ¬ (x == k) = true := by simpa using same
        rw [List.take_succ_cons, List.erase_cons_tail other, List.erase_cons_tail other,
          List.take_succ_cons, List.take_succ_cons, ih]

/-- One more use, from what the cache holds. -/
theorem recent_append (pos : 0 < n) (history : List κ) (k : κ) :
    recent n (history ++ [k]) = k :: ((recent n history).erase k).take (n - 1) := by
  obtain ⟨m, rfl⟩ : ∃ m, n = m + 1 := ⟨n - 1, by omega⟩
  rw [recent, byLastUse_append, List.take_succ_cons, take_erase]
  rfl

/-- A hit moves the key to the front. -/
theorem recent_hit (listed : k ∈ recent n history) :
    recent n (history ++ [k]) = k :: (recent n history).erase k := by
  have length := length_recent_le n history
  have some : 0 < (recent n history).length := List.length_pos_of_mem listed
  have short : ((recent n history).erase k).length ≤ n - 1 := by
    rw [List.length_erase_of_mem listed]
    omega
  rw [recent_append (by omega), List.take_of_length_le short]

/-- A miss with space left adds the key. -/
theorem recent_miss (new : k ∉ recent n history) (space : (recent n history).length < n) :
    recent n (history ++ [k]) = k :: recent n history := by
  rw [recent_append (by omega), List.erase_of_not_mem new, List.take_of_length_le (by omega)]

/-- A miss without space drops the key used longest ago. -/
theorem recent_evict (pos : 0 < n) (new : k ∉ recent n history)
    (full : (recent n history).length = n) :
    recent n (history ++ [k]) = k :: (recent n history).dropLast := by
  rw [recent_append pos, List.erase_of_not_mem new, List.dropLast_eq_take, full]

end LruCache
