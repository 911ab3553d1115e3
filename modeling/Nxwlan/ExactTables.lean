import Mathlib.Data.List.AList
import Mathlib.Tactic.Common

/-!
Match tables with exact keys, as a switch holds them: at most `size` entries,
one per key, and an action for keys without an entry. Adding an entry for a
key that has one, or to a full table, is rejected.
-/
namespace Nxwlan.ExactTables

structure Table (K A : Type) (size : ℕ) where
  entries : AList (fun _ : K => A) := ∅
  default_action : Option A := none
  bounded : entries.keys.length ≤ size := by exact Nat.zero_le _

namespace Table

variable {K A : Type} [DecidableEq K] {size : ℕ} (t : Table K A size)

/-- The action for a key; a table without a default action does nothing on a miss. -/
def apply (k : K) : Option A := (t.entries.lookup k).or t.default_action

def count : ℕ := t.entries.keys.length

/-- `table_add`. -/
def add (k : K) (a : A) : Table K A size :=
  if h : k ∉ t.entries ∧ t.count < size then
    { t with
      entries := t.entries.insert k a
      bounded := by
        rw [AList.keys_insert, List.erase_of_not_mem h.1]
        exact h.2 }
  else t

/-- `table_set_default`. -/
def set_default (a : A) : Table K A size := { t with default_action := some a }

theorem add_of_fresh {k : K} {a : A} (h : k ∉ t.entries) (hroom : t.count < size) :
    (t.add k a).entries = t.entries.insert k a := by
  rw [add, dif_pos ⟨h, hroom⟩]

theorem add_of_full {k : K} {a : A} (h : size ≤ t.count) : t.add k a = t := by
  rw [add, dif_neg (fun hno => absurd hno.2 (by omega))]

/-- An entry after an addition is an old one or the added one. -/
theorem lookup_add {k k' : K} {a b : A} (h : (t.add k a).entries.lookup k' = some b) :
    t.entries.lookup k' = some b ∨
      (k' = k ∧ b = a ∧ t.entries.lookup k = none ∧ t.count < size) := by
  unfold add at h
  split at h
  · rename_i hnew
    by_cases hk : k' = k
    · subst hk
      rw [AList.lookup_insert, Option.some.injEq] at h
      exact Or.inr ⟨rfl, h.symm, AList.lookup_eq_none.mpr hnew.1, hnew.2⟩
    · rw [AList.lookup_insert_ne hk] at h
      exact Or.inl h
  · exact Or.inl h

/-- Entries stay when others are added. -/
theorem lookup_add_of_some {k k' : K} {a b : A} (h : t.entries.lookup k' = some b) :
    (t.add k a).entries.lookup k' = some b := by
  unfold add
  split
  · rename_i hnew
    have hne : k' ≠ k := by
      rintro rfl
      rw [AList.lookup_eq_none.mpr hnew.1] at h
      simp at h
    rwa [AList.lookup_insert_ne hne]
  · exact h

theorem lookup_add_of_ne {k k' : K} (a : A) (hne : k' ≠ k) :
    (t.add k a).entries.lookup k' = t.entries.lookup k' := by
  unfold add
  split
  · rw [AList.lookup_insert_ne hne]
  · rfl

theorem count_add_of_fresh {k : K} (a : A) (h : k ∉ t.entries) (hroom : t.count < size) :
    (t.add k a).count = t.count + 1 := by
  rw [count, add_of_fresh t h hroom, AList.keys_insert, List.erase_of_not_mem h]
  rfl

theorem count_le_count_add (k : K) (a : A) : t.count ≤ (t.add k a).count := by
  by_cases h : k ∉ t.entries ∧ t.count < size
  · rw [count_add_of_fresh t a h.1 h.2]
    omega
  · rw [add, dif_neg h]

/-- The entry of a key after an addition for it: the old one, or the added one if there
is room. -/
theorem lookup_add_self (k : K) (a : A) :
    (t.add k a).entries.lookup k =
      (t.entries.lookup k).or (if t.count < size then some a else none) := by
  unfold add
  split
  · rename_i hnew
    rw [AList.lookup_insert, AList.lookup_eq_none.mpr hnew.1, Option.none_or, if_pos hnew.2]
  · rename_i hold
    cases hlook : t.entries.lookup k with
    | some b => rfl
    | none =>
      have hroom : ¬ t.count < size := fun hlt => hold ⟨AList.lookup_eq_none.mp hlook, hlt⟩
      rw [if_neg hroom, Option.none_or]

theorem count_add (k : K) (a : A) :
    (t.add k a).count = if k ∈ t.entries then t.count else min size (t.count + 1) := by
  have hbound : t.count ≤ size := t.bounded
  split
  · rename_i hmem
    rw [add, dif_neg (fun hnew => hnew.1 hmem)]
  · rename_i hfresh
    rcases Nat.lt_or_ge t.count size with hroom | hfull
    · rw [count_add_of_fresh t a hfresh hroom]
      omega
    · rw [add_of_full t hfull]
      omega

theorem mem_add_of_ne {k k' : K} (a : A) (hne : k' ≠ k) :
    k' ∈ (t.add k a).entries ↔ k' ∈ t.entries := by
  rw [← AList.lookup_isSome, lookup_add_of_ne t a hne, AList.lookup_isSome]

@[simp] theorem add_default_action (k : K) (a : A) :
    (t.add k a).default_action = t.default_action := by
  unfold add
  split <;> rfl

/-- A table with one entry. -/
theorem apply_single (hsize : 0 < size) (d a : A) (k k' : K) :
    ((({} : Table K A size).set_default d).add k a).apply k' = some (if k' = k then a else d) := by
  have hadd : ((({} : Table K A size).set_default d).add k a).entries =
      (∅ : AList (fun _ : K => A)).insert k a :=
    add_of_fresh _ (AList.notMem_empty k) hsize
  rw [apply, hadd, add_default_action]
  by_cases h : k' = k
  · subst h
    rw [AList.lookup_insert, if_pos rfl, Option.some_or]
  · rw [AList.lookup_insert_ne h, AList.lookup_empty, if_neg h, Option.none_or]
    rfl

end Table

end Nxwlan.ExactTables
