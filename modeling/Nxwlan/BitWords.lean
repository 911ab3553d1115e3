import Mathlib.Data.List.FinRange

/-!
Bit maps in words of `w` bits: the bit `n` is bit `n % w` of the word `n / w`. A search
takes the first clear bit.
-/
namespace Nxwlan.BitWords

variable {w k : ℕ} {words : Vector (BitVec w) k}

def bit (words : Vector (BitVec w) k) (n : ℕ) : Bool :=
  (words[n / w]?).any (fun word => word.getLsbD (n % w))

/-- `words[i] |= BIT(j)`. -/
def setBit (words : Vector (BitVec w) k) (i j : ℕ) : Vector (BitVec w) k :=
  words.setIfInBounds i ((words[i]?).getD 0 ||| BitVec.twoPow w j)

/-- `words[i] &= ~BIT(j)`. -/
def clearBit (words : Vector (BitVec w) k) (i j : ℕ) : Vector (BitVec w) k :=
  words.setIfInBounds i ((words[i]?).getD 0 &&& ~~~BitVec.twoPow w j)

/-- Full words are passed over. -/
def firstClear (words : Vector (BitVec w) k) : Option (Fin k × Fin w) :=
  (List.finRange k).findSome? (fun i =>
    if words.get i = BitVec.allOnes w then none
    else ((List.finRange w).find? (fun j : Fin w => !(words.get i).getLsbD j)).map (fun j => (i, j)))

theorem bit_place {i j : ℕ} (hj : j < w) : (i * w + j) / w = i ∧ (i * w + j) % w = j := by
  have hw : 0 < w := by omega
  rw [Nat.mul_comm, Nat.mul_add_div hw, Nat.mul_add_mod, Nat.div_eq_of_lt hj, Nat.mod_eq_of_lt hj]
  exact ⟨rfl, rfl⟩

theorem eq_place_iff {i j n : ℕ} (hj : j < w) : n = i * w + j ↔ n / w = i ∧ n % w = j := by
  constructor
  · rintro rfl
    exact bit_place hj
  · rintro ⟨rfl, rfl⟩
    rw [Nat.mul_comm]
    exact (Nat.div_add_mod n w).symm

theorem bit_setBit {i j : ℕ} (hi : i < k) (hj : j < w) (n : ℕ) :
    bit (setBit words i j) n = true ↔ n = i * w + j ∨ bit words n = true := by
  rw [eq_place_iff hj, bit, bit, setBit, Vector.getElem?_setIfInBounds]
  by_cases hword : n / w = i
  · subst hword
    simp only [if_true, hi, Vector.getElem?_eq_getElem hi, Option.getD_some, Option.any_some,
      BitVec.getLsbD_or, BitVec.getLsbD_twoPow, Bool.or_eq_true, Bool.and_eq_true,
      decide_eq_true_eq, true_and]
    constructor
    · rintro (h | h)
      · exact Or.inr h
      · exact Or.inl h.2.symm
    · rintro (h | h)
      · exact Or.inr ⟨hj, h.symm⟩
      · exact Or.inl h
  · simp [hword, Ne.symm hword]

theorem bit_clearBit {i j : ℕ} (hj : j < w) (n : ℕ) :
    bit (clearBit words i j) n = true ↔ n ≠ i * w + j ∧ bit words n = true := by
  rw [ne_eq, eq_place_iff hj, bit, bit, clearBit, Vector.getElem?_setIfInBounds]
  by_cases hword : n / w = i
  · subst hword
    have hmod : n % w < w := Nat.mod_lt n (by omega)
    by_cases hi : n / w < k
    · simp only [if_true, hi, Vector.getElem?_eq_getElem hi, Option.getD_some, Option.any_some,
        BitVec.getLsbD_and, BitVec.getLsbD_not, BitVec.getLsbD_twoPow, Bool.and_eq_true,
        Bool.not_eq_true', true_and, hmod, hj, decide_true, Bool.true_and,
        decide_eq_false_iff_not]
      constructor
      · rintro ⟨hset, hne⟩
        exact ⟨Ne.symm hne, hset⟩
      · rintro ⟨hne, hset⟩
        exact ⟨hset, Ne.symm hne⟩
    · simp [hi]
  · simp [hword, Ne.symm hword]

/-- The bit found is clear. -/
theorem bit_of_firstClear {i : Fin k} {j : Fin w} (h : firstClear words = some (i, j)) :
    bit words (i * w + j) = false := by
  obtain ⟨i', -, hfound⟩ := List.exists_of_findSome?_eq_some h
  split at hfound
  · cases hfound
  · obtain ⟨j', hj', heq⟩ := Option.map_eq_some_iff.mp hfound
    cases heq
    have hclear : (words.get i).getLsbD j = false := by simpa using List.find?_some hj'
    obtain ⟨hdiv, hmod⟩ := bit_place (i := i) j.isLt
    rw [bit, hdiv, hmod, Vector.getElem?_eq_getElem i.isLt, Option.any_some]
    exact hclear

/-- The lowest bit is found where it is clear. -/
theorem firstClear_zero {words : Vector (BitVec (w + 1)) (k + 1)} (h : bit words 0 = false) :
    firstClear words = some (0, 0) := by
  have hclear : (words.get 0).getLsbD 0 = false := by
    rw [bit, Nat.zero_div, Nat.zero_mod, Vector.getElem?_eq_getElem (Nat.succ_pos k)] at h
    exact h
  have hfull : words.get 0 ≠ BitVec.allOnes (w + 1) := by
    intro hall
    rw [hall] at hclear
    simp at hclear
  have hwords : List.finRange (k + 1) = 0 :: (List.finRange k).map Fin.succ := List.finRange_succ
  rw [firstClear, hwords, List.findSome?_cons, if_neg hfull, List.finRange_succ,
    List.find?_cons_of_pos (by simpa using hclear)]
  rfl

end Nxwlan.BitWords
