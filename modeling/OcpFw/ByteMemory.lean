import Mathlib.Data.BitVec

/-! A memory of bytes whose addresses have a fixed width and wrap around. Values are stored
with the lowest byte first. A region is a first address and a length, and an address is in
it when its distance from the first one is below the length. -/
namespace ByteMemory

variable {n v : Nat} {m m' : BitVec n → BitVec 8} {addr a : BitVec n} {width : Nat}

def Within (addr : BitVec n) (width : Nat) (a : BitVec n) : Prop := (a - addr).toNat < width

instance : Decidable (Within addr width a) := inferInstanceAs (Decidable (_ < _))

def store (m : BitVec n → BitVec 8) (addr : BitVec n) (width : Nat) (value : BitVec v) : BitVec n → BitVec 8 :=
  fun a => if Within addr width a then value.extractLsb' (8 * (a - addr).toNat) 8 else m a

def load (m : BitVec n → BitVec 8) (addr : BitVec n) : Nat → Nat
  | 0 => 0
  | width + 1 => (m addr).toNat + 256 * load m (addr + 1) width

/-- Only the region may differ. -/
def Frame (m m' : BitVec n → BitVec 8) (addr : BitVec n) (width : Nat) : Prop :=
  ∀ a, ¬ Within addr width a → m' a = m a

/-- A field of an entry: its distance from the begin, its width, and what is stored in it. -/
structure Field (n : Nat) where
  offset : BitVec n
  width : Nat
  {size : Nat}
  value : BitVec size

/-- The field has the byte at this distance from the begin of the entry. -/
def Field.Covers (f : Field n) (distance : Nat) : Prop :=
  f.offset.toNat ≤ distance ∧ distance < f.offset.toNat + f.width

/-- Fields of an entry are stored, one after the other. -/
def storeFields (m : BitVec n → BitVec 8) (entry : BitVec n) (fields : List (Field n)) : BitVec n → BitVec 8 :=
  fields.foldl (fun m f => store m (entry + f.offset) f.width f.value) m

/-- The region holds zeros. -/
def Zero (m : BitVec n → BitVec 8) (addr : BitVec n) (width : Nat) : Prop :=
  ∀ a, Within addr width a → m a = 0

/-- A part of a region, by the distances in it. -/
theorem within_add {k : BitVec n} {w : Nat} (fits : k.toNat + w ≤ 2 ^ n) :
    Within (addr + k) w a ↔ k.toNat ≤ (a - addr).toNat ∧ (a - addr).toNat < k.toNat + w := by
  have shift : a - (addr + k) = (a - addr) - k := by
    rw [sub_add_eq_sub_sub]
  unfold Within
  rw [shift]
  generalize a - addr = o
  have := o.isLt
  have := k.isLt
  rw [BitVec.toNat_sub]
  by_cases before : o.toNat < k.toNat
  · have small : 2 ^ n - k.toNat + o.toNat < 2 ^ n := by omega
    rw [Nat.mod_eq_of_lt small]
    omega
  · have wrapped : 2 ^ n - k.toNat + o.toNat = o.toNat - k.toNat + 2 ^ n := by omega
    have small : o.toNat - k.toNat < 2 ^ n := by omega
    rw [wrapped, Nat.add_mod_right, Nat.mod_eq_of_lt small]
    omega

/-- A part of a region is in every larger one. -/
theorem Within.part {j k : BitVec n} {w w' : Nat} (inside : Within (addr + k) w a) (fits : k.toNat + w ≤ 2 ^ n)
    (fits' : j.toNat + w' ≤ 2 ^ n) (first : j.toNat ≤ k.toNat) (last : k.toNat + w ≤ j.toNat + w') :
    Within (addr + j) w' a := by
  rw [within_add fits] at inside
  rw [within_add fits']
  omega

/-- A region that does not wrap around. -/
theorem within_iff (fits : addr.toNat + width ≤ 2 ^ n) :
    Within addr width a ↔ addr.toNat ≤ a.toNat ∧ a.toNat < addr.toNat + width := by
  have whole : Within (0 + addr) width a ↔ _ := within_add fits
  simpa using whole

theorem store_apply (m : BitVec n → BitVec 8) (addr : BitVec n) (width : Nat) (value : BitVec v) (a : BitVec n) :
    store m addr width value a =
      if Within addr width a then value.extractLsb' (8 * (a - addr).toNat) 8 else m a := rfl

theorem store_of_not_within {value : BitVec v} (outside : ¬ Within addr width a) :
    store m addr width value a = m a := if_neg outside

theorem store_first (m : BitVec n → BitVec 8) (addr : BitVec n) (value : BitVec v) :
    store m addr 1 value addr = value.setWidth 8 := by
  have inside : Within addr 1 addr := by simp [Within]
  rw [store_apply, if_pos inside, sub_self]
  ext i hi
  simp

/-- Zero is stored as zeros. -/
theorem store_zero_apply (m : BitVec n → BitVec 8) (addr : BitVec n) (width : Nat) (a : BitVec n) :
    store m addr width (0 : BitVec v) a = if Within addr width a then 0 else m a := by
  simp [store_apply]

/-! ### Fields -/

section
variable {entry : BitVec n} {f : Field n} {fields before after : List (Field n)}

theorem Field.store_apply (fits : f.offset.toNat + f.width ≤ 2 ^ n) (out : ¬ f.Covers (a - entry).toNat) :
    store m (entry + f.offset) f.width f.value a = m a :=
  store_of_not_within (mt (within_add fits).mp out)

/-- A byte that no field has stays. -/
theorem storeFields_of_uncovered (fits : ∀ f ∈ fields, f.offset.toNat + f.width ≤ 2 ^ n)
    (out : ∀ f ∈ fields, ¬ f.Covers (a - entry).toNat) : storeFields m entry fields a = m a := by
  induction fields generalizing m with
  | nil => rfl
  | cons f fields ih =>
    rw [List.forall_mem_cons] at fits out
    rw [storeFields, List.foldl_cons, ← storeFields, ih fits.2 out.2, f.store_apply fits.1 out.1]

/-- A byte is what the last field that has it stores. -/
theorem storeFields_of_last (fits : ∀ f ∈ after, f.offset.toNat + f.width ≤ 2 ^ n)
    (out : ∀ f ∈ after, ¬ f.Covers (a - entry).toNat) :
    storeFields m entry (before ++ f :: after) a =
      store (storeFields m entry before) (entry + f.offset) f.width f.value a := by
  rw [storeFields, List.foldl_append, List.foldl_cons, ← storeFields, ← storeFields, storeFields_of_uncovered fits out]

/-- Where zeros are stored there are zeros. -/
theorem storeFields_zero (fits : ∀ f ∈ fields, f.offset.toNat + f.width ≤ 2 ^ n) (zeros : ∀ f ∈ fields, f.value = 0)
    (covered : m a = 0 ∨ ∃ f ∈ fields, f.Covers (a - entry).toNat) : storeFields m entry fields a = 0 := by
  induction fields generalizing m with
  | nil => exact covered.resolve_right (by simp)
  | cons f fields ih =>
    rw [List.forall_mem_cons] at fits zeros
    rw [List.exists_mem_cons_iff] at covered
    rw [storeFields, List.foldl_cons, ← storeFields]
    apply ih fits.2 zeros.2
    rw [zeros.1, store_zero_apply]
    by_cases here : f.Covers (a - entry).toNat
    · exact .inl (if_pos ((within_add fits.1).mpr here))
    · have outside : ¬ Within (entry + f.offset) f.width a := mt (within_add fits.1).mp here
      rw [if_neg outside]
      exact covered.imp_right fun some => some.resolve_left here

end

/-! ### Frames -/

theorem Frame.refl (m : BitVec n → BitVec 8) (addr : BitVec n) (width : Nat) : Frame m m addr width := fun _ _ => rfl

/-- Stores to fields that the region has. -/
theorem Frame.of_storeFields {fields : List (Field n)} (part : ∀ f ∈ fields, f.offset.toNat + f.width ≤ width)
    (small : width ≤ 2 ^ n) : Frame m (storeFields m addr fields) addr width := by
  intro a outside
  apply storeFields_of_uncovered fun f member => (part f member).trans small
  intro f member covers
  exact outside (covers.2.trans_le (part f member))

end ByteMemory
