import Mathlib.Algebra.BigOperators.Ring.List
import Mathlib.Algebra.Order.BigOperators.Group.List
import Mathlib.Algebra.Order.Field.Basic

/-!
The rate that each of several users of one medium gets when all are served in turn, unit
by unit: the reciprocal of the sum of the reciprocals of their own rates. It depends
on nobody's place, is at most the slowest rate, and falls with every further user.
-/
namespace Nxwlan.SharedRates

variable {K : Type*} [Field K]

/-- The time that one unit takes for all users together. -/
def unitTime (rates : List K) : K := (rates.map (fun r => 1 / r)).sum

def sharedRate (rates : List K) : K := 1 / unitTime rates

variable {rates rates' : List K} {r : K}

theorem unitTime_cons (r : K) (rates : List K) :
    unitTime (r :: rates) = 1 / r + unitTime rates := by
  rw [unitTime, List.map_cons, List.sum_cons]
  rfl

/-- The part of the time that a user with rate `r` takes. -/
def timeShare (rates : List K) (r : K) : K := 1 / r / unitTime rates

/-- What a user gets does not depend on its own rate. -/
theorem timeShare_mul (hr : r ≠ 0) : timeShare rates r * r = sharedRate rates := by
  rw [timeShare, sharedRate, div_mul_eq_mul_div, one_div_mul_cancel hr]

theorem sum_timeShare (h : unitTime rates ≠ 0) : (rates.map (timeShare rates)).sum = 1 := by
  have hparts : rates.map (timeShare rates) =
      rates.map (fun r => 1 / r * (unitTime rates)⁻¹) := by
    apply List.map_congr_left
    intro r _
    exact div_eq_mul_inv _ _
  rw [hparts, List.sum_map_mul_right]
  exact mul_inv_cancel₀ h

theorem unitTime_perm (h : rates.Perm rates') : unitTime rates = unitTime rates' :=
  (h.map _).sum_eq

theorem sharedRate_perm (h : rates.Perm rates') : sharedRate rates = sharedRate rates' := by
  rw [sharedRate, sharedRate, unitTime_perm h]

variable [LinearOrder K] [IsStrictOrderedRing K]

/-- Each user's own part of the time is positive. -/
theorem parts_pos (h : ∀ r ∈ rates, 0 < r) : ∀ t ∈ rates.map (fun r => 1 / r), 0 < t := by
  intro t ht
  obtain ⟨r, hr, rfl⟩ := List.mem_map.mp ht
  exact one_div_pos.mpr (h r hr)

theorem unitTime_pos (h : ∀ r ∈ rates, 0 < r) (hne : rates ≠ []) : 0 < unitTime rates :=
  List.sum_pos _ (parts_pos h) (by simpa using hne)

theorem one_div_le_unitTime (h : ∀ r ∈ rates, 0 < r) (hr : r ∈ rates) :
    1 / r ≤ unitTime rates :=
  List.single_le_sum (fun t ht => (parts_pos h t ht).le) _ (List.mem_map_of_mem hr)

theorem sharedRate_pos (h : ∀ r ∈ rates, 0 < r) (hne : rates ≠ []) : 0 < sharedRate rates :=
  one_div_pos.mpr (unitTime_pos h hne)

theorem sharedRate_le (h : ∀ r ∈ rates, 0 < r) (hr : r ∈ rates) : sharedRate rates ≤ r := by
  have hpos : 0 < r := h r hr
  calc sharedRate rates ≤ 1 / (1 / r) :=
        one_div_le_one_div_of_le (one_div_pos.mpr hpos) (one_div_le_unitTime h hr)
    _ = r := one_div_one_div r

/-- A further user takes time of its own. -/
theorem sharedRate_cons_le (h : ∀ r ∈ rates, 0 < r) (hne : rates ≠ []) (hr : 0 < r) :
    sharedRate (r :: rates) ≤ sharedRate rates := by
  apply one_div_le_one_div_of_le (unitTime_pos h hne)
  rw [unitTime_cons]
  exact le_add_of_nonneg_left (one_div_pos.mpr hr).le

end Nxwlan.SharedRates
