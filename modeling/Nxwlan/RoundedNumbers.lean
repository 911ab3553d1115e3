import Mathlib.Data.Int.Log
import Mathlib.Data.Rat.Floor
import Mathlib.Algebra.Order.BigOperators.Group.List
import Mathlib.Algebra.Order.Field.Rat
import Mathlib.Algebra.Order.Ring.Int
import Mathlib.Algebra.Ring.Int.Parity
import Mathlib.Tactic.Linarith
import Mathlib.Tactic.Ring

/-!
Floating-point numbers of base two, without a largest one. A number of a format is an integer
of bounded size times a power of two of bounded fineness, and a result that is none is
rounded to the nearest one, to the even one of two. Rounding is monotone and leaves the
numbers of the format alone; that is all that bounds of rounded sums need. Sums of multiples
of one power of two are exact as long as they are small.
-/
namespace Nxwlan.RoundedNumbers

section Nearest

/-- The nearest integer, the even one of two that are equally near. -/
def nearestEven (x : ℚ) : ℤ :=
  if (⌊x + 1 / 2⌋ : ℚ) = x + 1 / 2 ∧ ⌊x + 1 / 2⌋ % 2 = 1 then ⌊x + 1 / 2⌋ - 1 else ⌊x + 1 / 2⌋

structure IsNearestEven (x : ℚ) (n : ℤ) : Prop where
  low : x ≤ n + 1 / 2
  high : n - 1 / 2 ≤ x
  even : x = n + 1 / 2 ∨ x = n - 1 / 2 → n % 2 = 0

variable {x y : ℚ} {m n : ℤ}

theorem isNearestEven_nearestEven (x : ℚ) : IsNearestEven x (nearestEven x) := by
  have hle : (⌊x + 1 / 2⌋ : ℚ) ≤ x + 1 / 2 := Int.floor_le _
  have hlt : x + 1 / 2 < ⌊x + 1 / 2⌋ + 1 := Int.lt_floor_add_one _
  rw [nearestEven]
  generalize ⌊x + 1 / 2⌋ = n at hle hlt ⊢
  split
  · rename_i htie
    refine ⟨?_, ?_, fun _ => by omega⟩
    · push_cast
      linarith [htie.1]
    · push_cast
      linarith [htie.1]
  · rename_i htie
    refine ⟨by linarith, by linarith, ?_⟩
    rintro (h | h)
    · linarith
    · by_contra hodd
      exact htie ⟨by linarith, by omega⟩

/-- Two integers that are nearest are at most one apart, and if they are, both are even. -/
theorem IsNearestEven.le (hm : IsNearestEven x m) (hn : IsNearestEven y n) (h : x ≤ y) :
    m ≤ n := by
  by_contra hlt
  have hstep : (n : ℚ) + 1 ≤ m := by exact_mod_cast not_le.mp hlt
  have hx : x = m - 1 / 2 := by linarith [hm.high, hn.low]
  have hy : y = n + 1 / 2 := by linarith [hm.high, hn.low]
  have heq : m = n + 1 := by
    have hcast : (m : ℚ) = n + 1 := by linarith
    exact_mod_cast hcast
  have hmeven := hm.even (.inr hx)
  have hneven := hn.even (.inl hy)
  omega

theorem nearestEven_eq (h : IsNearestEven x n) : nearestEven x = n :=
  le_antisymm ((isNearestEven_nearestEven x).le h le_rfl) (h.le (isNearestEven_nearestEven x) le_rfl)

theorem nearestEven_mono (h : x ≤ y) : nearestEven x ≤ nearestEven y :=
  (isNearestEven_nearestEven x).le (isNearestEven_nearestEven y) h

theorem nearestEven_intCast (n : ℤ) : nearestEven n = n := by
  refine nearestEven_eq ⟨by linarith, by linarith, ?_⟩
  rintro (h | h)
  · linarith
  · linarith

theorem nearestEven_neg (x : ℚ) : nearestEven (-x) = -nearestEven x := by
  have h := isNearestEven_nearestEven x
  refine nearestEven_eq ⟨?_, ?_, ?_⟩
  · push_cast
    linarith [h.high]
  · push_cast
    linarith [h.low]
  · push_cast
    rintro (htie | htie)
    · have := h.even (.inr (by linarith))
      omega
    · have := h.even (.inl (by linarith))
      omega

end Nearest

/-- The number of binary places, and the exponent of the least positive number. -/
structure Format where
  prec : ℕ
  prec_pos : 0 < prec
  emin : ℤ

namespace Format

variable {F : Format} {x y r : ℚ} {e k m : ℤ}

/-- The exponent of the last place of a number of the size of `x`. -/
def exponent (F : Format) (x : ℚ) : ℤ := max F.emin (Int.log 2 |x| - F.prec + 1)

def unit (F : Format) (x : ℚ) : ℚ := 2 ^ F.exponent x

def round (F : Format) (x : ℚ) : ℚ := nearestEven (x / F.unit x) * F.unit x

def Representable (F : Format) (x : ℚ) : Prop :=
  ∃ m e : ℤ, F.emin ≤ e ∧ |m| ≤ 2 ^ F.prec ∧ x = m * 2 ^ e

theorem unit_pos : 0 < F.unit x := zpow_pos two_pos _

theorem abs_lt (F : Format) (x : ℚ) : |x| < 2 ^ (F.exponent x + F.prec) := by
  have hlog : |x| < 2 ^ (Int.log 2 |x| + 1) := Int.lt_zpow_succ_log_self one_lt_two |x|
  refine hlog.trans_le (zpow_le_zpow_right₀ one_le_two ?_)
  have := le_max_right F.emin (Int.log 2 |x| - F.prec + 1)
  rw [exponent]
  omega

theorem round_neg (F : Format) (x : ℚ) : F.round (-x) = -F.round x := by
  rw [round, round, unit, unit, exponent, exponent, abs_neg, neg_div, nearestEven_neg]
  push_cast
  ring

/-- A multiple of the last place is an integer number of them. -/
theorem multiple_eq (h : F.exponent x ≤ e) (m : ℤ) :
    ((m * 2 ^ (e - F.exponent x).toNat : ℤ) : ℚ) * F.unit x = m * 2 ^ e := by
  have hpow : (2 : ℚ) ^ (e - F.exponent x).toNat * F.unit x = 2 ^ e := by
    rw [unit, ← zpow_natCast, ← zpow_add₀ two_ne_zero]
    congr 1
    omega
  push_cast
  rw [mul_assoc, hpow]

theorem round_le_multiple (h : F.exponent x ≤ e) (hx : x ≤ m * 2 ^ e) : F.round x ≤ m * 2 ^ e := by
  rw [← multiple_eq h] at hx ⊢
  have hle := nearestEven_mono ((div_le_iff₀ unit_pos).mpr hx)
  rw [nearestEven_intCast] at hle
  exact mul_le_mul_of_nonneg_right (by exact_mod_cast hle) unit_pos.le

theorem multiple_le_round (h : F.exponent x ≤ e) (hx : m * 2 ^ e ≤ x) : m * 2 ^ e ≤ F.round x := by
  rw [← multiple_eq h] at hx ⊢
  have hle := nearestEven_mono ((le_div_iff₀ unit_pos).mpr hx)
  rw [nearestEven_intCast] at hle
  exact mul_le_mul_of_nonneg_right (by exact_mod_cast hle) unit_pos.le

theorem round_multiple (h : F.exponent x ≤ e) (hx : x = m * 2 ^ e) : F.round x = x := by
  refine le_antisymm ?_ ?_
  · have hle := round_le_multiple h hx.le
    rwa [← hx] at hle
  · have hle := multiple_le_round h hx.ge
    rwa [← hx] at hle

theorem round_zero (F : Format) : F.round 0 = 0 :=
  round_multiple le_rfl (m := 0) (by simp)

theorem round_nonneg (hx : 0 ≤ x) : 0 ≤ F.round x := by
  have h := multiple_le_round (F := F) (m := 0) (e := F.exponent x) le_rfl (by simpa using hx)
  simpa using h

/-- The exponent of a number below a power of two. -/
theorem exponent_le (hx : x ≠ 0) (hlt : |x| < 2 ^ k) (hmin : F.emin ≤ e)
    (he : k - F.prec ≤ e) : F.exponent x ≤ e := by
  have hlog : Int.log 2 |x| < k := (Int.lt_zpow_iff_log_lt one_lt_two (abs_pos.mpr hx)).mp hlt
  refine max_le hmin ?_
  omega

theorem round_of_representable (h : F.Representable x) : F.round x = x := by
  obtain ⟨m, e, hmin, hm, rfl⟩ := h
  have hpos : (0 : ℚ) < 2 ^ e := zpow_pos two_pos e
  have hsize : |(m : ℚ) * 2 ^ e| ≤ 2 ^ (e + F.prec) := by
    rw [abs_mul, abs_of_pos hpos, zpow_add₀ two_ne_zero, mul_comm (2 ^ e), zpow_natCast]
    exact mul_le_mul_of_nonneg_right (by exact_mod_cast hm) hpos.le
  by_cases hzero : (m : ℚ) * 2 ^ e = 0
  · rw [hzero, round_zero]
  · rcases hsize.lt_or_eq with hlt | heq
    · exact round_multiple (exponent_le hzero hlt hmin (by omega)) rfl
    · -- The greatest number of an exponent is one place of the next binade.
      have hprec := F.prec_pos
      have hexp : F.exponent (m * 2 ^ e) ≤ e + F.prec := by
        refine exponent_le (k := e + F.prec + 1) hzero ?_ (by omega) (by omega)
        rw [heq]
        exact zpow_lt_zpow_right₀ one_lt_two (by omega)
      rcases abs_choice ((m : ℚ) * 2 ^ e) with habs | habs
      · exact round_multiple (m := 1) hexp (by rw [← habs, heq, Int.cast_one, one_mul])
      · refine round_multiple (m := -1) hexp ?_
        rw [habs] at heq
        push_cast
        linarith

theorem representable_round (F : Format) (x : ℚ) : F.Representable (F.round x) := by
  refine ⟨nearestEven (x / F.unit x), F.exponent x, le_max_left _ _, ?_, rfl⟩
  have hbound : |x / F.unit x| ≤ ((2 ^ F.prec : ℤ) : ℚ) := by
    rw [abs_div, abs_of_pos (unit_pos (F := F)), div_le_iff₀ unit_pos, unit]
    push_cast
    rw [← zpow_natCast, ← zpow_add₀ two_ne_zero, add_comm]
    exact (F.abs_lt x).le
  obtain ⟨hlow, hhigh⟩ := abs_le.mp hbound
  refine abs_le.mpr ⟨?_, ?_⟩
  · have h := nearestEven_mono hlow
    rwa [nearestEven_neg, nearestEven_intCast] at h
  · have h := nearestEven_mono hhigh
    rwa [nearestEven_intCast] at h

theorem exponent_mono (hx : 0 < x) (h : x ≤ y) : F.exponent x ≤ F.exponent y := by
  rw [exponent, exponent, abs_of_pos hx, abs_of_pos (hx.trans_le h)]
  have := Int.log_mono_right (b := 2) hx h
  omega

/-- Between two binades lies a power of two, which rounding leaves alone. -/
theorem round_mono_of_pos (hx : 0 < x) (h : x ≤ y) : F.round x ≤ F.round y := by
  rcases (exponent_mono (F := F) hx h).lt_or_eq with hlt | heq
  · have hy : 0 < y := hx.trans_le h
    have hprec := F.prec_pos
    have hexp : F.exponent y = Int.log 2 |y| - F.prec + 1 := by
      have := le_max_left F.emin (Int.log 2 |x| - F.prec + 1)
      rw [exponent] at hlt ⊢
      rw [exponent] at hlt
      omega
    have hlogs : Int.log 2 x < Int.log 2 y := by
      have := le_max_right F.emin (Int.log 2 |x| - F.prec + 1)
      rw [hexp, exponent, abs_of_pos hx, abs_of_pos hy] at hlt
      rw [abs_of_pos hx] at this
      omega
    rw [abs_of_pos hy] at hexp
    have hbelow : x ≤ ((1 : ℤ) : ℚ) * 2 ^ Int.log 2 y := by
      rw [Int.cast_one, one_mul]
      exact ((Int.lt_zpow_iff_log_lt one_lt_two hx).mpr hlogs).le
    have habove : ((1 : ℤ) : ℚ) * 2 ^ Int.log 2 y ≤ y := by
      rw [Int.cast_one, one_mul]
      exact Int.zpow_log_le_self one_lt_two hy
    exact (round_le_multiple (by omega) hbelow).trans (multiple_le_round (by omega) habove)
  · rw [round, round, unit, unit, heq]
    have hle : x / 2 ^ F.exponent y ≤ y / 2 ^ F.exponent y :=
      div_le_div_of_nonneg_right h (zpow_pos two_pos _).le
    exact mul_le_mul_of_nonneg_right (by exact_mod_cast nearestEven_mono hle)
      (zpow_pos two_pos _).le

theorem round_mono (F : Format) : Monotone F.round := by
  intro x y h
  rcases lt_trichotomy x 0 with hx | rfl | hx
  · rcases lt_or_ge y 0 with hy | hy
    · have hneg := round_mono_of_pos (F := F) (neg_pos.mpr hy) (neg_le_neg h)
      rw [round_neg, round_neg] at hneg
      exact neg_le_neg_iff.mp hneg
    · have hle := round_nonneg (F := F) (neg_pos.mpr hx).le
      rw [round_neg] at hle
      exact (neg_nonneg.mp hle).trans (round_nonneg hy)
  · rw [round_zero]
    exact round_nonneg h
  · exact round_mono_of_pos hx h

theorem le_round (hr : F.Representable r) (h : r ≤ x) : r ≤ F.round x := by
  rw [← round_of_representable hr]
  exact F.round_mono h

theorem round_le (hr : F.Representable r) (h : x ≤ r) : F.round x ≤ r := by
  rw [← round_of_representable hr]
  exact F.round_mono h

theorem lt_of_round_lt (hr : F.Representable r) (h : F.round x < r) : x < r := by
  by_contra hle
  exact absurd (le_round hr (not_lt.mp hle)) (not_le.mpr h)

theorem Representable.zero (F : Format) : F.Representable 0 :=
  ⟨0, F.emin, le_rfl, by simp, by simp⟩

theorem Representable.neg (h : F.Representable x) : F.Representable (-x) := by
  obtain ⟨m, e, hmin, hm, rfl⟩ := h
  exact ⟨-m, e, hmin, by rwa [abs_neg], by push_cast; ring⟩

/-- Small multiples of a power of two that is not too fine. -/
theorem representable_of_multiple (hmin : F.emin ≤ k) (hx : x = m * 2 ^ k)
    (hbound : |x| ≤ 2 ^ (k + F.prec)) : F.Representable x := by
  refine ⟨m, k, hmin, ?_, hx⟩
  have hpos : (0 : ℚ) < 2 ^ k := zpow_pos two_pos k
  rw [hx, abs_mul, abs_of_pos hpos, zpow_add₀ two_ne_zero, mul_comm (2 ^ k), zpow_natCast] at hbound
  exact_mod_cast le_of_mul_le_mul_right hbound hpos

/-- Half a place of error. -/
theorem abs_round_sub_le (hmin : F.emin + F.prec ≤ k) (hx : |x| < 2 ^ k) :
    |F.round x - x| ≤ 2 ^ (k - F.prec - 1) := by
  by_cases hzero : x = 0
  · rw [hzero, round_zero, sub_zero, abs_zero]
    exact (zpow_pos two_pos _).le
  · have hunit : F.unit x ≤ 2 ^ (k - F.prec) :=
      zpow_le_zpow_right₀ one_le_two (exponent_le hzero hx (by omega) le_rfl)
    have hnear := isNearestEven_nearestEven (x / F.unit x)
    have hplaces : |(nearestEven (x / F.unit x) : ℚ) - x / F.unit x| ≤ 1 / 2 :=
      abs_le.mpr ⟨by linarith [hnear.low], by linarith [hnear.high]⟩
    have hsub : F.round x - x = (nearestEven (x / F.unit x) - x / F.unit x) * F.unit x := by
      rw [round, sub_mul, div_mul_cancel₀ x unit_pos.ne']
    rw [hsub, abs_mul, abs_of_pos (unit_pos (F := F)), zpow_sub_one₀ two_ne_zero]
    calc _ ≤ 1 / 2 * F.unit x := mul_le_mul_of_nonneg_right hplaces unit_pos.le
      _ ≤ 1 / 2 * 2 ^ (k - F.prec) := mul_le_mul_of_nonneg_left hunit (by norm_num)
      _ = 2 ^ (k - F.prec) * 2⁻¹ := by ring

end Format

/-- A number of a format. -/
def Rounded (F : Format) : Type := {x : ℚ // F.Representable x}

namespace Rounded

variable {F : Format} {x y z : Rounded F} {k : ℤ}

instance : LinearOrder (Rounded F) := inferInstanceAs (LinearOrder {x : ℚ // F.Representable x})

def val (x : Rounded F) : ℚ := Subtype.val x

/-- The number that stands for a rational one. -/
def ofRat (x : ℚ) : Rounded F := ⟨F.round x, F.representable_round x⟩

instance : Zero (Rounded F) := ⟨⟨0, .zero F⟩⟩
instance : One (Rounded F) := ⟨ofRat 1⟩
instance : NatCast (Rounded F) := ⟨fun n => ofRat n⟩
instance : Neg (Rounded F) := ⟨fun x => ⟨-x.val, x.property.neg⟩⟩
instance : Add (Rounded F) := ⟨fun x y => ofRat (x.val + y.val)⟩
instance : Sub (Rounded F) := ⟨fun x y => ofRat (x.val - y.val)⟩
instance : Mul (Rounded F) := ⟨fun x y => ofRat (x.val * y.val)⟩

theorem representable (x : Rounded F) : F.Representable x.val := x.property

theorem val_ofRat (x : ℚ) : (ofRat x : Rounded F).val = F.round x := rfl

@[simp]
theorem val_zero : (0 : Rounded F).val = 0 := rfl

@[simp]
theorem val_neg (x : Rounded F) : (-x).val = -x.val := rfl

theorem val_add (x y : Rounded F) : (x + y).val = F.round (x.val + y.val) := rfl

theorem val_sub (x y : Rounded F) : (x - y).val = F.round (x.val - y.val) := rfl

theorem val_mul (x y : Rounded F) : (x * y).val = F.round (x.val * y.val) := rfl

theorem val_le_val : x.val ≤ y.val ↔ x ≤ y := Iff.rfl

theorem val_lt_val : x.val < y.val ↔ x < y := Iff.rfl

theorem val_injective : Function.Injective (val : Rounded F → ℚ) := Subtype.val_injective

protected theorem add_comm (x y : Rounded F) : x + y = y + x := by
  apply val_injective
  rw [val_add, val_add, add_comm]

protected theorem add_le_add_right (h : x ≤ y) (z : Rounded F) : x + z ≤ y + z :=
  F.round_mono (add_le_add_left (val_le_val.mpr h) z.val)

/-- A sum with something that is not negative does not get less by rounding. -/
protected theorem le_add_of_nonneg_right (h : 0 ≤ y) : x ≤ x + y :=
  Format.le_round x.representable (le_add_of_nonneg_right (val_le_val.mpr h))

protected theorem add_nonneg (hx : 0 ≤ x) (hy : 0 ≤ y) : 0 ≤ x + y :=
  hx.trans (Rounded.le_add_of_nonneg_right hy)

protected theorem mul_nonneg (hx : 0 ≤ x) (hy : 0 ≤ y) : 0 ≤ x * y :=
  Format.round_nonneg (mul_nonneg (val_le_val.mpr hx) (val_le_val.mpr hy))

protected theorem sub_nonneg_of_le (h : x ≤ y) : 0 ≤ y - x :=
  Format.round_nonneg (sub_nonneg.mpr (val_le_val.mpr h))

/-- A multiple of a power of two. -/
def Multiple (k : ℤ) (x : Rounded F) : Prop := ∃ n : ℤ, x.val = n * 2 ^ k

theorem Multiple.val_ofRat {n : ℤ} {q : ℚ} (hmin : F.emin ≤ k) (hq : q = n * 2 ^ k)
    (hbound : |q| ≤ 2 ^ (k + F.prec)) : (ofRat q : Rounded F).val = q :=
  Format.round_of_representable (Format.representable_of_multiple hmin hq hbound)

/-- Small multiples are added without rounding. -/
theorem Multiple.add (hx : Multiple k x) (hy : Multiple k y) (hmin : F.emin ≤ k)
    (hbound : |x.val + y.val| ≤ 2 ^ (k + F.prec)) :
    (x + y).val = x.val + y.val ∧ Multiple k (x + y) := by
  obtain ⟨n, hn⟩ := hx
  obtain ⟨m, hm⟩ := hy
  have hsum : x.val + y.val = ((n + m : ℤ) : ℚ) * 2 ^ k := by
    rw [hn, hm]
    push_cast
    ring
  have hval : (x + y).val = x.val + y.val := val_ofRat hmin hsum hbound
  exact ⟨hval, n + m, hval.trans hsum⟩

theorem Multiple.neg (h : Multiple k x) : Multiple k (-x) := by
  obtain ⟨n, hn⟩ := h
  exact ⟨-n, by rw [val_neg, hn]; push_cast; ring⟩

theorem Multiple.sub (hx : Multiple k x) (hy : Multiple k y) (hmin : F.emin ≤ k)
    (hbound : |x.val - y.val| ≤ 2 ^ (k + F.prec)) :
    (x - y).val = x.val - y.val ∧ Multiple k (x - y) := by
  have hsub : x - y = x + -y := by
    apply val_injective
    rw [val_sub, val_add, val_neg, sub_eq_add_neg]
  rw [sub_eq_add_neg, ← val_neg] at hbound ⊢
  rw [hsub]
  exact hx.add hy.neg hmin hbound

section Sums

variable {s t : Rounded F} {l l' : List (Rounded F)}

theorem foldl_add_mono (h : s ≤ t) : l.foldl (· + ·) s ≤ l.foldl (· + ·) t := by
  induction l generalizing s t with
  | nil => exact h
  | cons x l ih => exact ih (Rounded.add_le_add_right h x)

/-- Leaving out what is not negative makes no rounded sum greater. -/
theorem foldl_add_le_of_sublist (h : l.Sublist l') (hpos : ∀ x ∈ l', 0 ≤ x) :
    l.foldl (· + ·) s ≤ l'.foldl (· + ·) s := by
  induction h generalizing s with
  | slnil => exact le_rfl
  | cons x h ih =>
    have hle : s ≤ s + x := Rounded.le_add_of_nonneg_right (hpos x List.mem_cons_self)
    exact (ih (fun y hy => hpos y (List.mem_cons_of_mem x hy))).trans (foldl_add_mono hle)
  | cons_cons x h ih => exact ih (fun y hy => hpos y (List.mem_cons_of_mem x hy))

theorem le_foldl_add (hpos : ∀ x ∈ l, 0 ≤ x) : s ≤ l.foldl (· + ·) s :=
  foldl_add_le_of_sublist (List.nil_sublist l) hpos

/-- Multiples of a power of two are added without rounding while the sum stays small, in
whatever order they come. -/
theorem val_foldl_add (hmin : F.emin ≤ k) (hs : Multiple k s) (hl : ∀ x ∈ l, Multiple k x)
    (hs0 : 0 ≤ s) (hpos : ∀ x ∈ l, 0 ≤ x)
    (hbound : s.val + (l.map val).sum ≤ 2 ^ (k + F.prec)) :
    (l.foldl (· + ·) s).val = s.val + (l.map val).sum := by
  induction l generalizing s with
  | nil => simp
  | cons x l ih =>
    have hx0 : 0 ≤ x := hpos x List.mem_cons_self
    have hl0 : ∀ y ∈ l, 0 ≤ y := fun y hy => hpos y (List.mem_cons_of_mem x hy)
    have hrest : 0 ≤ (l.map val).sum := by
      apply List.sum_nonneg
      intro q hq
      obtain ⟨y, hy, rfl⟩ := List.mem_map.mp hq
      exact val_le_val.mpr (hl0 y hy)
    rw [List.map_cons, List.sum_cons, ← add_assoc] at hbound ⊢
    have hsmall : |s.val + x.val| ≤ 2 ^ (k + F.prec) := by
      rw [abs_of_nonneg (add_nonneg (val_le_val.mpr hs0) (val_le_val.mpr hx0))]
      linarith
    obtain ⟨hval, hmul⟩ := hs.add (hl x List.mem_cons_self) hmin hsmall
    rw [List.foldl_cons, ih hmul (fun y hy => hl y (List.mem_cons_of_mem x hy))
      (Rounded.add_nonneg hs0 hx0) hl0 (by rwa [hval]), hval]

/-- A rounded sum that stays small has a small exact sum. -/
theorem sum_lt_of_foldl_add_lt (hmin : F.emin ≤ k) (hs : Multiple k s)
    (hl : ∀ x ∈ l, Multiple k x) (hs0 : 0 ≤ s) (hpos : ∀ x ∈ l, 0 ≤ x)
    (hbound : (l.foldl (· + ·) s).val < 2 ^ (k + F.prec)) :
    s.val + (l.map val).sum < 2 ^ (k + F.prec) := by
  induction l generalizing s with
  | nil => simpa using hbound
  | cons x l ih =>
    have hx0 : 0 ≤ x := hpos x List.mem_cons_self
    have hl0 : ∀ y ∈ l, 0 ≤ y := fun y hy => hpos y (List.mem_cons_of_mem x hy)
    have hpow : F.Representable (2 ^ (k + F.prec)) := by
      refine ⟨1, k + F.prec, by omega, ?_, by simp⟩
      rw [abs_one]
      exact one_le_pow₀ one_le_two
    have hlt : s.val + x.val < 2 ^ (k + F.prec) :=
      Format.lt_of_round_lt hpow ((val_le_val.mpr (le_foldl_add hl0)).trans_lt hbound)
    have hsmall : |s.val + x.val| ≤ 2 ^ (k + F.prec) := by
      rw [abs_of_nonneg (add_nonneg (val_le_val.mpr hs0) (val_le_val.mpr hx0))]
      exact hlt.le
    obtain ⟨hval, hmul⟩ := hs.add (hl x List.mem_cons_self) hmin hsmall
    have h := ih hmul (fun y hy => hl y (List.mem_cons_of_mem x hy)) (Rounded.add_nonneg hs0 hx0)
      hl0 hbound
    rwa [hval, add_assoc, ← List.sum_cons, ← List.map_cons] at h

end Sums

end Rounded

/-- The numbers of a language whose floats are doubles. -/
def binary64 : Format := ⟨53, by decide, -1074⟩

abbrev Double := Rounded binary64

end Nxwlan.RoundedNumbers
