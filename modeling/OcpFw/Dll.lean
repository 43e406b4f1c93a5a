import Mathlib.Data.List.Nodup
import Mathlib.Data.Set.Insert
import Mathlib.Logic.Function.Basic

/-! Intrusive doubly linked lists. Many lists, named by keys, share one pair of
link fields per cell; a list is known only by its two ends. The operations are
the usual case splits on the ends and on the cell's own links. `Holds` says
which sequences a table of such lists represents, and each operation is the
corresponding operation on sequences, for lists of every length. -/
namespace Dll

/-- The link fields of every cell and the ends of every list. -/
structure Table (κ ι : Type) where
  prev : ι → ι
  next : ι → ι
  head : κ → ι
  tail : κ → ι

variable {κ ι : Type}

/-- The cells of the list are chained in order between `before` and `after`. -/
def Seg (prev next : ι → ι) : ι → List ι → ι → Prop
  | _, [], _ => True
  | before, x :: rest, after =>
    prev x = before ∧ next x = rest.headD after ∧ Seg prev next x rest after

/-- The table represents exactly these sequences: each list is chained in order
from its head to its tail, no cell occurs twice, and `nil` is never a cell. -/
structure Holds (nil : ι) (t : Table κ ι) (lists : κ → List ι) : Prop where
  seg : ∀ k, Seg t.prev t.next nil (lists k) nil
  head : ∀ k, t.head k = (lists k).headD nil
  tail : ∀ k, t.tail k = (lists k).getLastD nil
  nodup : ∀ k, (lists k).Nodup
  fresh : ∀ k, nil ∉ lists k
  disjoint : ∀ k k' x, x ∈ lists k → x ∈ lists k' → k = k'

/-! ### Segments -/

section Segments
variable {prev next prev' next' : ι → ι} {before after x : ι} {xs ys : List ι}

theorem seg_append :
    Seg prev next before (xs ++ ys) after ↔
      Seg prev next before xs (ys.headD after) ∧ Seg prev next (xs.getLastD before) ys after := by
  induction xs generalizing before with
  | nil => simp [Seg]
  | cons x xs ih =>
    have headSame : (xs ++ ys).headD after = xs.headD (ys.headD after) := by cases xs <;> rfl
    have lastSame : (x :: xs).getLastD before = xs.getLastD x := by cases xs <;> rfl
    simp only [List.cons_append, Seg, ih, headSame, lastSame, and_assoc]

theorem seg_snoc :
    Seg prev next before (xs ++ [x]) after ↔
      Seg prev next before xs x ∧ prev x = xs.getLastD before ∧ next x = after := by
  rw [seg_append]
  simp [Seg]

/-- The links and the first cell determine a segment. -/
theorem seg_unique (seg : Seg prev next before xs after) (seg' : Seg prev next before ys after)
    (fresh : after ∉ xs) (fresh' : after ∉ ys) (first : xs.headD after = ys.headD after) : xs = ys := by
  induction xs generalizing before ys with
  | nil =>
    cases ys with
    | nil => rfl
    | cons y ys => exact absurd (by simp [show after = y from first]) fresh'
  | cons x xs ih =>
    cases ys with
    | nil => exact absurd (by simp [show x = after from first]) fresh
    | cons y ys =>
      obtain rfl : x = y := first
      obtain ⟨-, next, rest⟩ := seg
      obtain ⟨-, next', rest'⟩ := seg'
      have tails := ih rest rest' (fun h => fresh (.tail _ h)) (fun h => fresh' (.tail _ h))
        (next.symm.trans next')
      rw [tails]

/-- A segment depends only on the links of its own cells. -/
theorem seg_frame (seg : Seg prev next before xs after)
    (same : ∀ x ∈ xs, prev' x = prev x ∧ next' x = next x) : Seg prev' next' before xs after := by
  induction xs generalizing before with
  | nil => trivial
  | cons x xs ih =>
    obtain ⟨atPrev, atNext, rest⟩ := seg
    have here := same x (by simp)
    exact ⟨here.1.trans atPrev, here.2.trans atNext, ih rest fun y hy => same y (by simp [hy])⟩

/-- The two links of a cell inside a segment. -/
theorem seg_links (seg : Seg prev next before (xs ++ x :: ys) after) :
    prev x = xs.getLastD before ∧ next x = ys.headD after := by
  obtain ⟨-, seg⟩ := seg_append.mp seg
  exact ⟨seg.1, seg.2.1⟩

end Segments

/-! ### The represented sequences -/

namespace Holds
variable {nil x y : ι} {t : Table κ ι} {lists : κ → List ι} {k k' : κ} {xs ys : List ι}

/-- A table represents one family of sequences only. -/
theorem unique {lists' : κ → List ι} (h : Holds nil t lists) (h' : Holds nil t lists') :
    lists = lists' := by
  funext k
  apply seg_unique (h.seg k) (h'.seg k) (h.fresh k) (h'.fresh k)
  rw [← h.head, ← h'.head]

theorem ne_nil (h : Holds nil t lists) (hx : x ∈ lists k) : x ≠ nil :=
  fun same => h.fresh k (same ▸ hx)

theorem head_eq_nil (h : Holds nil t lists) : t.head k = nil ↔ lists k = [] := by
  rw [h.head k]
  cases listed : lists k with
  | nil => simp
  | cons y ys => simpa using h.ne_nil (k := k) (by simp [listed])

theorem tail_mem (h : Holds nil t lists) (some : lists k ≠ []) : t.tail k ∈ lists k := by
  rw [h.tail k, List.getLastD_eq_getLast?, List.getLast?_eq_some_getLast some]
  exact List.getLast_mem some

theorem tail_eq_nil (h : Holds nil t lists) : t.tail k = nil ↔ lists k = [] := by
  constructor
  · intro tail
    by_contra some
    exact h.ne_nil (h.tail_mem some) tail
  · intro empty
    rw [h.tail k, empty]
    rfl

theorem head_cons (h : Holds nil t lists) (listed : lists k = x :: xs) : t.head k = x := by
  rw [h.head k, listed]
  rfl

/-- The two links of a listed cell name its neighbours. -/
theorem links (h : Holds nil t lists) (listed : lists k = xs ++ x :: ys) :
    t.prev x = xs.getLastD nil ∧ t.next x = ys.headD nil :=
  seg_links (by simpa only [listed] using h.seg k)

/-- Cells of two different lists are different. -/
theorem ne_of_key_ne (h : Holds nil t lists) (diff : k ≠ k') (hx : x ∈ lists k)
    (hy : y ∈ lists k') : x ≠ y :=
  fun same => diff (h.disjoint k k' x hx (same ▸ hy))

/-- A cell to the left of another one in a list is a different cell. -/
theorem split_ne (h : Holds nil t lists) (listed : lists k = xs ++ x :: ys) :
    x ∉ xs ∧ x ∉ ys ∧ ∀ y ∈ xs, y ∉ ys := by
  have nodup := h.nodup k
  rw [listed, List.nodup_append] at nodup
  obtain ⟨-, right, apart⟩ := nodup
  refine ⟨fun hx => apart x hx x (by simp) rfl, (List.nodup_cons.mp right).1, ?_⟩
  exact fun y left hy => apart y left y (by simp [hy]) rfl

end Holds

/-! ### Cells chained in serial order -/

/-- The first cells of a serial chain. -/
theorem seg_range {prev next : Nat → Nat} {nil n m : Nat} (first : prev 0 = nil)
    (back : ∀ i, i + 1 < n → prev (i + 1) = i) (forth : ∀ i, i + 1 < n → next i = i + 1)
    (last : next (n - 1) = nil) (inside : m ≤ n) :
    Seg prev next nil (List.range m) (if m = n then nil else m) := by
  induction m with
  | zero => trivial
  | succ m ih =>
    rw [List.range_succ]
    apply seg_snoc.mpr
    refine ⟨?_, ?_, ?_⟩
    · simpa [show m ≠ n by omega] using ih (by omega)
    · cases m with
      | zero => simpa using first
      | succ m => simpa [List.range_succ] using back m (by omega)
    · by_cases whole : m + 1 = n
      · subst whole
        simpa using last
      · simpa [whole] using forth m (by omega)

/-- A table whose only non-empty list chains the cells `0 .. n - 1` in order. -/
theorem holds_serial [DecidableEq κ] {t : Table κ Nat} {nil n : Nat} {k : κ} (some : 0 < n)
    (real : n ≤ nil) (first : t.prev 0 = nil) (back : ∀ i, i + 1 < n → t.prev (i + 1) = i)
    (forth : ∀ i, i + 1 < n → t.next i = i + 1) (last : t.next (n - 1) = nil)
    (head : ∀ k', t.head k' = if k' = k then 0 else nil)
    (tail : ∀ k', t.tail k' = if k' = k then n - 1 else nil) :
    Holds nil t (fun k' => if k' = k then List.range n else []) where
  seg k' := by
    by_cases same : k' = k
    · simpa [same] using seg_range first back forth last (Nat.le_refl n)
    · simp [same, Seg]
  head k' := by
    by_cases same : k' = k
    · obtain ⟨m, rfl⟩ : ∃ m, n = m + 1 := ⟨n - 1, by omega⟩
      simp [head, same, List.range_succ_eq_map]
    · simp [head, same]
  tail k' := by
    by_cases same : k' = k
    · obtain ⟨m, rfl⟩ : ∃ m, n = m + 1 := ⟨n - 1, by omega⟩
      simp [tail, same, List.range_succ]
    · simp [tail, same]
  nodup k' := by
    by_cases same : k' = k
    · simpa [same] using List.nodup_range
    · simp [same]
  fresh k' := by
    by_cases same : k' = k
    · simp [same]
      omega
    · simp [same]
  disjoint k₁ k₂ x h₁ h₂ := by
    by_cases s₁ : k₁ = k <;> by_cases s₂ : k₂ = k <;> simp_all

/-! ### The operations -/

variable [DecidableEq κ] [DecidableEq ι]

namespace Table

/-- Append a cell to a list, rewriting both of its links. -/
def pushBack (nil : ι) (t : Table κ ι) (k : κ) (x : ι) : Table κ ι :=
  if t.tail k ≠ nil then
    { t with
      prev := Function.update t.prev x (t.tail k)
      next := Function.update (Function.update t.next x nil) (t.tail k) x
      tail := Function.update t.tail k x }
  else
    { prev := Function.update t.prev x nil
      next := Function.update t.next x nil
      head := Function.update t.head k x
      tail := Function.update t.tail k x }

/-- Put a cell in front of a list, rewriting both of its links. -/
def pushFront (nil : ι) (t : Table κ ι) (k : κ) (x : ι) : Table κ ι :=
  if t.head k ≠ nil then
    { t with
      prev := Function.update (Function.update t.prev x nil) (t.head k) x
      next := Function.update t.next x (t.head k)
      head := Function.update t.head k x }
  else
    { prev := Function.update t.prev x nil
      next := Function.update t.next x nil
      head := Function.update t.head k x
      tail := Function.update t.tail k x }

/-- Unlink the first cell of a list; its own links are left as they were. -/
def popFront (nil : ι) (t : Table κ ι) (k : κ) : Table κ ι :=
  if t.next (t.head k) ≠ nil then
    { t with
      prev := Function.update t.prev (t.next (t.head k)) nil
      head := Function.update t.head k (t.next (t.head k)) }
  else
    { t with
      head := Function.update t.head k nil
      tail := Function.update t.tail k nil }

/-- Unlink a cell of a list, whose position is read off the cell's own links;
these are left as they were. -/
def remove (nil : ι) (t : Table κ ι) (k : κ) (x : ι) : Table κ ι :=
  if t.next x ≠ nil ∧ t.prev x ≠ nil then
    { t with
      prev := Function.update t.prev (t.next x) (t.prev x)
      next := Function.update t.next (t.prev x) (t.next x) }
  else if t.next x = nil ∧ t.prev x ≠ nil then
    { t with
      next := Function.update t.next (t.prev x) nil
      tail := Function.update t.tail k (t.prev x) }
  else if t.next x ≠ nil ∧ t.prev x = nil then
    { t with
      prev := Function.update t.prev (t.next x) nil
      head := Function.update t.head k (t.next x) }
  else
    { t with
      head := Function.update t.head k nil
      tail := Function.update t.tail k nil }

/-- Reset both links of a cell. -/
def clear (nil : ι) (t : Table κ ι) (x : ι) : Table κ ι :=
  { t with prev := Function.update t.prev x nil, next := Function.update t.next x nil }

end Table

namespace Holds
variable {nil x y : ι} {t : Table κ ι} {lists : κ → List ι} {k k' : κ} {xs ys : List ι}

omit [DecidableEq ι] in
/-- Replacing one list by another one, and nothing else. -/
private theorem update_lists (h : Holds nil t lists) {t' : Table κ ι} {l : List ι}
    (seg : Seg t'.prev t'.next nil l nil)
    (frame : ∀ k', k' ≠ k → ∀ y ∈ lists k', t'.prev y = t.prev y ∧ t'.next y = t.next y)
    (head : t'.head = Function.update t.head k (l.headD nil))
    (tail : t'.tail = Function.update t.tail k (l.getLastD nil))
    (nodup : l.Nodup) (fresh : nil ∉ l) (apart : ∀ k', k' ≠ k → ∀ y ∈ l, y ∉ lists k') :
    Holds nil t' (Function.update lists k l) where
  seg k' := by
    by_cases same : k' = k
    · subst same
      simpa using seg
    · rw [Function.update_of_ne same]
      exact seg_frame (h.seg k') (frame k' same)
  head k' := by
    by_cases same : k' = k
    · subst same
      simp [head]
    · simp [head, same, h.head k']
  tail k' := by
    by_cases same : k' = k
    · subst same
      simp [tail]
    · simp [tail, same, h.tail k']
  nodup k' := by
    by_cases same : k' = k
    · subst same
      simpa using nodup
    · simpa [same] using h.nodup k'
  fresh k' := by
    by_cases same : k' = k
    · subst same
      simpa using fresh
    · simpa [same] using h.fresh k'
  disjoint k₁ k₂ y h₁ h₂ := by
    by_cases s₁ : k₁ = k <;> by_cases s₂ : k₂ = k
    · rw [s₁, s₂]
    · subst s₁
      rw [Function.update_self] at h₁
      rw [Function.update_of_ne s₂] at h₂
      exact absurd h₂ (apart k₂ s₂ y h₁)
    · subst s₂
      rw [Function.update_self] at h₂
      rw [Function.update_of_ne s₁] at h₁
      exact absurd h₁ (apart k₁ s₁ y h₂)
    · rw [Function.update_of_ne s₁] at h₁
      rw [Function.update_of_ne s₂] at h₂
      exact h.disjoint k₁ k₂ y h₁ h₂

/-- Appending a cell that is in no list. -/
theorem pushBack (h : Holds nil t lists) (real : x ≠ nil) (free : ∀ k', x ∉ lists k') :
    Holds nil (t.pushBack nil k x) (Function.update lists k (lists k ++ [x])) := by
  have nodup : (lists k ++ [x]).Nodup := by
    refine List.nodup_append.mpr ⟨h.nodup k, by simp, fun y hy z hz same => free k ?_⟩
    rwa [← List.mem_singleton.mp hz, ← same]
  have fresh : nil ∉ lists k ++ [x] := by simp [h.fresh k, real.symm]
  have apart : ∀ k', k' ≠ k → ∀ y ∈ lists k ++ [x], y ∉ lists k' := by
    intro k' diff y hy listed
    rcases List.mem_append.mp hy with hy | hy
    · exact diff (h.disjoint k' k y listed hy)
    · exact free k' (by simpa [List.mem_singleton.mp hy] using listed)
  have away : ∀ k', ∀ y ∈ lists k', y ≠ x := fun k' y hy same => free k' (same ▸ hy)
  by_cases empty : lists k = []
  · have tail : t.tail k = nil := h.tail_eq_nil.mpr empty
    rw [empty] at nodup fresh apart ⊢
    simp only [Table.pushBack, tail, ne_eq, not_true_eq_false, ↓reduceIte]
    refine h.update_lists (by simp [Seg]) ?_ rfl rfl nodup fresh apart
    intro k' _ y hy
    simp [away k' y hy]
  · obtain ⟨ys, z, shape⟩ : ∃ ys z, lists k = ys ++ [z] :=
      ⟨_, _, (List.dropLast_append_getLast empty).symm⟩
    have tailIs : t.tail k = z := by rw [h.tail k, shape]; simp
    have zn : z ≠ nil := h.ne_nil (k := k) (by simp [shape])
    have zx : z ≠ x := away k z (by simp [shape])
    have seg := h.seg k
    rw [shape] at seg
    obtain ⟨front, zPrev, -⟩ := seg_snoc.mp seg
    have headSame : (ys ++ [z] ++ [x]).headD nil = t.head k := by
      rw [h.head k, shape]
      cases ys <;> rfl
    rw [shape] at nodup fresh apart ⊢
    simp only [Table.pushBack, tailIs, ne_eq, zn, not_false_eq_true, ↓reduceIte]
    refine h.update_lists ?_ ?_ (by simp only [headSame, Function.update_eq_self]) (by simp)
      nodup fresh apart
    · refine seg_snoc.mpr ⟨seg_snoc.mpr ⟨seg_frame front ?_, ?_, ?_⟩, ?_, ?_⟩
      · intro y hy
        have yz : y ≠ z := fun same => (h.split_ne shape).1 (same ▸ hy)
        simp [away k y (by simp [shape, hy]), yz]
      · simpa [zx] using zPrev
      · simp
      · simp
      · simp [zx.symm]
    · intro k' diff y hy
      have yz : y ≠ z := h.ne_of_key_ne diff hy (by simp [shape])
      simp [away k' y hy, yz]

/-- Putting a cell that is in no list in front. -/
theorem pushFront (h : Holds nil t lists) (real : x ≠ nil) (free : ∀ k', x ∉ lists k') :
    Holds nil (t.pushFront nil k x) (Function.update lists k (x :: lists k)) := by
  have nodup : (x :: lists k).Nodup := List.nodup_cons.mpr ⟨free k, h.nodup k⟩
  have fresh : nil ∉ x :: lists k := by simp [h.fresh k, real.symm]
  have apart : ∀ k', k' ≠ k → ∀ y ∈ x :: lists k, y ∉ lists k' := by
    intro k' diff y hy listed
    rcases List.mem_cons.mp hy with rfl | hy
    · exact free k' listed
    · exact diff (h.disjoint k' k y listed hy)
  have away : ∀ k', ∀ y ∈ lists k', y ≠ x := fun k' y hy same => free k' (same ▸ hy)
  cases shape : lists k with
  | nil =>
    have head : t.head k = nil := h.head_eq_nil.mpr shape
    rw [shape] at nodup fresh apart
    simp only [Table.pushFront, head, ne_eq, not_true_eq_false, ↓reduceIte]
    refine h.update_lists (by simp [Seg]) ?_ rfl rfl nodup fresh apart
    intro k' _ y hy
    simp [away k' y hy]
  | cons z zs =>
    have headIs : t.head k = z := h.head_cons shape
    have zn : z ≠ nil := h.ne_nil (k := k) (by simp [shape])
    have zx : z ≠ x := away k z (by simp [shape])
    have seg := h.seg k
    rw [shape] at seg
    obtain ⟨-, zNext, back⟩ := seg
    have tailSame : (x :: z :: zs).getLastD nil = t.tail k := by
      rw [h.tail k, shape]
      rfl
    rw [shape] at nodup fresh apart
    simp only [Table.pushFront, headIs, ne_eq, zn, not_false_eq_true, ↓reduceIte]
    refine h.update_lists ?_ ?_ (by simp) (by simp only [tailSame, Function.update_eq_self])
      nodup fresh apart
    · refine ⟨by simp [zx.symm], by simp, by simp, by simpa [zx] using zNext, seg_frame back ?_⟩
      intro y hy
      have yz : y ≠ z := fun same => (h.split_ne (show lists k = [] ++ z :: zs from shape)).2.1 (same ▸ hy)
      simp [away k y (by simp [shape, hy]), yz]
    · intro k' diff y hy
      have yz : y ≠ z := h.ne_of_key_ne diff hy (by simp [shape])
      simp [away k' y hy, yz]

/-- Unlinking the first cell. -/
theorem popFront (h : Holds nil t lists) (listed : lists k = x :: xs) :
    Holds nil (t.popFront nil k) (Function.update lists k xs) := by
  have headIs : t.head k = x := h.head_cons listed
  have nextIs : t.next x = xs.headD nil := (h.links (show lists k = [] ++ x :: xs from listed)).2
  have nodup : xs.Nodup := by
    have all := h.nodup k
    rw [listed] at all
    exact (List.nodup_cons.mp all).2
  have fresh : nil ∉ xs := by
    have all := h.fresh k
    rw [listed] at all
    exact fun member => all (by simp [member])
  have apart : ∀ k', k' ≠ k → ∀ y ∈ xs, y ∉ lists k' :=
    fun k' diff y hy other => diff (h.disjoint k' k y other (by simp [listed, hy]))
  cases xs with
  | nil =>
    simp only [Table.popFront, headIs, nextIs, List.headD_nil, ne_eq, not_true_eq_false, ↓reduceIte]
    exact h.update_lists (by simp [Seg]) (by simp) rfl rfl nodup fresh apart
  | cons z zs =>
    have zn : z ≠ nil := h.ne_nil (k := k) (by simp [listed])
    have seg := h.seg k
    rw [listed] at seg
    obtain ⟨-, -, -, zNext, back⟩ := seg
    simp only [Table.popFront, headIs, nextIs, List.headD_cons, ne_eq, zn, not_false_eq_true,
      ↓reduceIte]
    have tailSame : (z :: zs).getLastD nil = t.tail k := by
      rw [h.tail k, listed]
      rfl
    refine h.update_lists ?_ ?_ (by simp) (by simp only [tailSame, Function.update_eq_self])
      nodup fresh apart
    · refine ⟨by simp, zNext, seg_frame back ?_⟩
      intro y hy
      have yz : y ≠ z := fun same => (List.nodup_cons.mp nodup).1 (same ▸ hy)
      simp [yz]
    · intro k' diff y hy
      have yz : y ≠ z := h.ne_of_key_ne diff hy (by simp [listed])
      simp [yz]

/-- Unlinking a cell at any position. -/
theorem remove_split (h : Holds nil t lists) (listed : lists k = xs ++ x :: ys) :
    Holds nil (t.remove nil k x) (Function.update lists k (xs ++ ys)) := by
  obtain ⟨prevIs, nextIs⟩ := h.links listed
  obtain ⟨notLeft, notRight, leftRight⟩ := h.split_ne listed
  have seg := h.seg k
  rw [listed] at seg
  obtain ⟨left, -, -, right⟩ := seg_append.mp seg
  have nodup : (xs ++ ys).Nodup := by
    have all := h.nodup k
    rw [listed, List.nodup_append] at all
    exact List.nodup_append.mpr ⟨all.1, (List.nodup_cons.mp all.2.1).2,
      fun y hy z hz => all.2.2 y hy z (by simp [hz])⟩
  have fresh : nil ∉ xs ++ ys := by
    intro member
    exact h.fresh k (by rw [listed]; simp at member ⊢; tauto)
  have apart : ∀ k', k' ≠ k → ∀ y ∈ xs ++ ys, y ∉ lists k' := by
    intro k' diff y hy other
    exact diff (h.disjoint k' k y other (by rw [listed]; simp at hy ⊢; tauto))
  have others : ∀ k', k' ≠ k → ∀ y ∈ lists k', ∀ z ∈ xs ++ ys, y ≠ z :=
    fun k' diff y hy z hz same => apart k' diff z hz (same ▸ hy)
  have headKept : xs ≠ [] → (xs ++ ys).headD nil = t.head k := by
    intro some
    rw [h.head k, listed]
    cases xs with
    | nil => exact absurd rfl some
    | cons _ _ => rfl
  have tailKept : ys ≠ [] → (xs ++ ys).getLastD nil = t.tail k := by
    intro some
    rw [h.tail k, listed]
    simp [List.getLastD_eq_getLast?, List.getLast?_append, List.getLast?_cons,
      List.getLast?_eq_some_getLast some]
  rcases xs.eq_nil_or_concat' with rfl | ⟨front, w, rfl⟩
  · cases ys with
    | nil =>
      simp only [List.getLastD_nil, List.headD_nil] at prevIs nextIs
      simp only [Table.remove, prevIs, nextIs, ne_eq, not_true_eq_false, and_self, and_false,
        ↓reduceIte]
      exact h.update_lists (by simp [Seg]) (by simp) rfl rfl nodup fresh apart
    | cons z zs =>
      have zn : z ≠ nil := h.ne_nil (k := k) (by simp [listed])
      simp only [List.getLastD_nil, List.headD_cons] at prevIs nextIs
      simp only [Table.remove, prevIs, nextIs, ne_eq, zn, not_true_eq_false, not_false_eq_true,
        and_self, and_false, ↓reduceIte]
      refine h.update_lists ?_ ?_ (by simp) ?_ nodup fresh apart
      · refine ⟨by simp, right.2.1, seg_frame right.2.2 fun y hy => ?_⟩
        have yz : y ≠ z := fun same => (List.nodup_cons.mp nodup).1 (same ▸ hy)
        simp [yz]
      · intro k' diff y hy
        simp [others k' diff y hy z (by simp)]
      · simp only [tailKept (by simp), Function.update_eq_self]
  · have wn : w ≠ nil := h.ne_nil (k := k) (by simp [listed])
    have lastIs : (front ++ [w]).getLastD nil = w := by simp
    rw [lastIs] at prevIs
    obtain ⟨start, wPrev, -⟩ := seg_snoc.mp left
    have frontAway : ∀ y ∈ front, y ≠ w := by
      have shape : lists k = front ++ w :: (x :: ys) := by simp [listed]
      exact fun y hy same => (h.split_ne shape).1 (same ▸ hy)
    cases ys with
    | nil =>
      simp only [List.headD_nil] at nextIs
      simp only [Table.remove, prevIs, nextIs, ne_eq, wn, not_true_eq_false, not_false_eq_true,
        and_self, false_and, ↓reduceIte]
      rw [List.append_nil] at nodup fresh headKept ⊢
      refine h.update_lists ?_ ?_ ?_ (by simp) nodup fresh (by simpa using apart)
      · exact seg_snoc.mpr ⟨seg_frame start fun y hy => by simp [frontAway y hy], wPrev, by simp⟩
      · intro k' diff y hy
        simp [others k' diff y hy w (by simp)]
      · simp only [headKept (by simp), Function.update_eq_self]
    | cons z zs =>
      have zn : z ≠ nil := h.ne_nil (k := k) (by simp [listed])
      simp only [List.headD_cons] at nextIs
      simp only [Table.remove, prevIs, nextIs, ne_eq, wn, zn, not_false_eq_true, and_self,
        ↓reduceIte]
      have rightAway : ∀ y ∈ zs, y ≠ z := by
        rintro y hy rfl
        exact (List.nodup_cons.mp (List.nodup_append.mp nodup).2.1).1 hy
      have apartLR : ∀ y ∈ front ++ [w], ∀ v ∈ z :: zs, y ≠ v :=
        fun y hy v hv same => leftRight y hy (same ▸ hv)
      refine h.update_lists (seg_append.mpr ⟨seg_snoc.mpr ⟨?_, ?_, by simp⟩, ?_, ?_, ?_⟩) ?_ ?_ ?_
        nodup fresh apart
      · refine seg_frame start fun y hy => ?_
        simp [frontAway y hy, apartLR y (by simp [hy]) z (by simp)]
      · simpa [apartLR w (by simp) z (by simp)] using wPrev
      · simp
      · simpa [(apartLR w (by simp) z (by simp)).symm] using right.2.1
      · refine seg_frame right.2.2 fun y hy => ?_
        simp [rightAway y hy, (apartLR w (by simp) y (by simp [hy])).symm]
      · intro k' diff y hy
        simp [others k' diff y hy w (by simp), others k' diff y hy z (by simp)]
      · simp only [headKept (by simp), Function.update_eq_self]
      · simp only [tailKept (by simp), Function.update_eq_self]

/-- Unlinking a listed cell removes exactly that cell from its list. -/
theorem remove (h : Holds nil t lists) (listed : x ∈ lists k) :
    Holds nil (t.remove nil k x) (Function.update lists k ((lists k).erase x)) := by
  obtain ⟨xs, ys, shape⟩ := List.append_of_mem listed
  have erased : (lists k).erase x = xs ++ ys := by
    rw [shape, List.erase_append_right _ (h.split_ne shape).1, List.erase_cons_head]
  rw [erased]
  exact h.remove_split shape

omit [DecidableEq κ] in
/-- Resetting the links of a cell that is in no list. -/
theorem clear (h : Holds nil t lists) (free : ∀ k', x ∉ lists k') :
    Holds nil (t.clear nil x) lists :=
  { h with
    seg := fun k => seg_frame (h.seg k) fun y hy => by
      have diff : y ≠ x := fun same => free k (same ▸ hy)
      simp [Table.clear, diff] }

/-! ### What the operations leave alone -/

omit [DecidableEq κ] [DecidableEq ι] in
private theorem ne_tail (h : Holds nil t lists) (out : y ∉ lists k) (some : t.tail k ≠ nil) :
    y ≠ t.tail k := by
  rintro rfl
  exact out (h.tail_mem fun empty => some (h.tail_eq_nil.mpr empty))

/-- Appending writes the links of the new cell and of cells of that list only. -/
theorem pushBack_links (h : Holds nil t lists) (diff : y ≠ x) (out : y ∉ lists k) :
    (t.pushBack nil k x).prev y = t.prev y ∧ (t.pushBack nil k x).next y = t.next y := by
  by_cases empty : t.tail k = nil
  · simp [Table.pushBack, empty, diff]
  · simp [Table.pushBack, empty, diff, h.ne_tail out empty]

/-- Unlinking the first cell writes the links of cells of that list only. -/
theorem popFront_links (h : Holds nil t lists) (listed : lists k = x :: xs) (out : y ∉ lists k) :
    (t.popFront nil k).prev y = t.prev y ∧ (t.popFront nil k).next y = t.next y := by
  have nextIs : t.next x = xs.headD nil := (h.links (show lists k = [] ++ x :: xs from listed)).2
  cases xs with
  | nil => simp [Table.popFront, h.head_cons listed, nextIs]
  | cons z zs =>
    have zn : z ≠ nil := h.ne_nil (k := k) (by simp [listed])
    have yz : y ≠ z := fun same => out (by simp [listed, same])
    simp [Table.popFront, h.head_cons listed, nextIs, zn, yz]

/-- The cell that is unlinked keeps its links. -/
theorem popFront_links_self (h : Holds nil t lists) (listed : lists k = x :: xs) :
    (t.popFront nil k).prev x = t.prev x ∧ (t.popFront nil k).next x = t.next x := by
  have nextIs : t.next x = xs.headD nil := (h.links (show lists k = [] ++ x :: xs from listed)).2
  have nodup := h.nodup k
  rw [listed] at nodup
  cases xs with
  | nil => simp [Table.popFront, h.head_cons listed, nextIs]
  | cons z zs =>
    have zn : z ≠ nil := h.ne_nil (k := k) (by simp [listed])
    have xz : x ≠ z := fun same => (List.nodup_cons.mp nodup).1 (by simp [same])
    simp [Table.popFront, h.head_cons listed, nextIs, zn, xz]

/-- Unlinking a cell writes the links of cells of that list only. -/
theorem remove_links (h : Holds nil t lists) (listed : x ∈ lists k) (out : y ∉ lists k) :
    (t.remove nil k x).prev y = t.prev y ∧ (t.remove nil k x).next y = t.next y := by
  obtain ⟨xs, ys, shape⟩ := List.append_of_mem listed
  obtain ⟨prevIs, nextIs⟩ := h.links shape
  have prevOther : t.prev x ≠ nil → y ≠ t.prev x := by
    rintro some rfl
    rcases xs.eq_nil_or_concat' with rfl | ⟨front, w, rfl⟩
    · exact some (by simpa using prevIs)
    · exact out (by simp [shape, prevIs])
  have nextOther : t.next x ≠ nil → y ≠ t.next x := by
    rintro some rfl
    cases ys with
    | nil => exact some (by simpa using nextIs)
    | cons z zs => exact out (by simp [shape, nextIs])
  by_cases noPrev : t.prev x = nil <;> by_cases noNext : t.next x = nil
  · simp [Table.remove, noPrev, noNext]
  · simp [Table.remove, noPrev, noNext, nextOther noNext]
  · simp [Table.remove, noPrev, noNext, prevOther noPrev]
  · simp [Table.remove, noPrev, noNext, prevOther noPrev, nextOther noNext]

/-- Unlinking a detached cell from an empty list does nothing. -/
theorem remove_detached (h : Holds nil t lists) (empty : lists k = []) (noPrev : t.prev x = nil)
    (noNext : t.next x = nil) : t.remove nil k x = t := by
  have head : Function.update t.head k nil = t.head := by
    rw [Function.update_eq_self_iff, h.head_eq_nil.mpr empty]
  have tail : Function.update t.tail k nil = t.tail := by
    rw [Function.update_eq_self_iff, h.tail_eq_nil.mpr empty]
  simp [Table.remove, noPrev, noNext, head, tail]

end Holds

/-! ### Cells in no list -/

/-- Besides, the cells in no list have no links, but for some stale ones. -/
structure Tidy (nil : ι) (t : Table κ ι) (lists : κ → List ι) (stale : Set ι) : Prop extends Holds nil t lists where
  detached : ∀ x, (∀ k, x ∉ lists k) → x ∉ stale → t.prev x = nil ∧ t.next x = nil

namespace Tidy
variable {nil x : ι} {t : Table κ ι} {lists : κ → List ι} {stale stale' : Set ι}
  {k : κ} {xs : List ι}

omit [DecidableEq κ] [DecidableEq ι] in
theorem mono (h : Tidy nil t lists stale) (sub : stale ⊆ stale') : Tidy nil t lists stale' where
  toHolds := h.toHolds
  detached x out fresh := h.detached x out fun member => fresh (sub member)

omit [DecidableEq ι] in
private theorem unlisted_before {l : List ι} (out : ∀ k', x ∉ Function.update lists k l k') (before : x ∉ lists k) :
    ∀ k', x ∉ lists k' := by
  intro k'
  by_cases same : k' = k
  · exact same ▸ before
  · simpa [same] using out k'

/-- An appended cell has new links. -/
theorem pushBack (h : Tidy nil t lists stale) (real : x ≠ nil) (free : ∀ k', x ∉ lists k') :
    Tidy nil (t.pushBack nil k x) (Function.update lists k (lists k ++ [x])) (stale \ {x}) where
  toHolds := h.toHolds.pushBack real free
  detached y out fresh := by
    obtain ⟨before, diff⟩ : y ∉ lists k ∧ y ≠ x := by simpa using out k
    have links := h.pushBack_links diff before
    rw [links.1, links.2]
    exact h.detached y (unlisted_before out before) fun member => fresh ⟨member, diff⟩

/-- A cell that is unlinked from the front keeps its links. -/
theorem popFront (h : Tidy nil t lists stale) (listed : lists k = x :: xs) :
    Tidy nil (t.popFront nil k) (Function.update lists k xs) (insert x stale) where
  toHolds := h.toHolds.popFront listed
  detached y out fresh := by
    obtain ⟨diff, rest⟩ : y ≠ x ∧ y ∉ stale := by simpa using fresh
    have before : y ∉ lists k := by simpa [listed, diff] using out k
    have links := h.popFront_links listed before
    rw [links.1, links.2]
    exact h.detached y (unlisted_before out before) rest

/-- So does one that is unlinked anywhere. -/
theorem remove (h : Tidy nil t lists stale) (listed : x ∈ lists k) :
    Tidy nil (t.remove nil k x) (Function.update lists k ((lists k).erase x)) (insert x stale) where
  toHolds := h.toHolds.remove listed
  detached y out fresh := by
    obtain ⟨diff, rest⟩ : y ≠ x ∧ y ∉ stale := by simpa using fresh
    have before : y ∉ lists k := by
      simpa [List.mem_erase_of_ne diff] using out k
    have links := h.remove_links listed before
    rw [links.1, links.2]
    exact h.detached y (unlisted_before out before) rest

omit [DecidableEq κ] in
theorem clear (h : Tidy nil t lists stale) (free : ∀ k', x ∉ lists k') :
    Tidy nil (t.clear nil x) lists (stale \ {x}) where
  toHolds := h.toHolds.clear free
  detached y out fresh := by
    by_cases same : y = x
    · simp [Table.clear, same]
    · simpa [Table.clear, same] using h.detached y out fun member => fresh ⟨member, same⟩

end Tidy
end Dll
