import Nxwlan.ProbePower

/-!
The airtime shares of the rate test beside the estimators of the cran application and of
the power control package. The test divides the time of the medium among the clients and
takes each client's part of its own rate; the estimators fold over the rates. A Python
index counts from the end when it is negative.
-/
namespace Nxwlan.AirtimeShares

open SharedRates ProbePower

inductive Failed where
  | arithmetic (e : Failure)
  | index
  deriving DecidableEq

/-- `R[k]`. -/
def item (R : List ℚ) (k : ℤ) : Except Failed ℚ :=
  match R[(if 0 ≤ k then k else R.length + k).toNat]? with
  | some r => if -R.length ≤ k then .ok r else .error .index
  | none => .error .index

/-- `1.0 / r`. -/
def reciprocal (r : ℚ) : Except Failed ℚ := (divide 1 r).mapError .arithmetic

def rel_airtime (R : List ℚ) (k : ℤ) : Except Failed ℚ := do
  let Rtmp ← R.mapM reciprocal
  let R_k ← item R k
  let part ← reciprocal R_k
  (divide part Rtmp.sum).mapError .arithmetic

def eff_data_rate (gamma_k R_k : ℚ) : ℚ := gamma_k * R_k

/-- The estimator of the power control package, which knows no backhaul. -/
def CapacityEstimator.calc (per_client_phy_rate : List ℚ) : Except Failure ℚ := do
  let mac_rate ← macRate 0 per_client_phy_rate
  divide 1 mac_rate

variable {R : List ℚ} {r b : ℚ} {k : ℤ}

theorem reciprocal_eq (h : r ≠ 0) : reciprocal r = .ok (1 / r) := by
  rw [reciprocal, divide, if_neg h]
  rfl

theorem reciprocals_eq (h : ∀ r ∈ R, r ≠ 0) :
    R.mapM reciprocal = .ok (R.map (fun r => 1 / r)) := by
  induction R with
  | nil => rfl
  | cons r R ih =>
    have hr : r ≠ 0 := h r List.mem_cons_self
    rw [List.mapM_cons, reciprocal_eq hr, ih (fun x hx => h x (List.mem_cons_of_mem r hx))]
    rfl

/-- An index within the bounds, from either end, names a client. -/
theorem item_mem (hlow : -R.length ≤ k) (hhigh : k < R.length) :
    ∃ r ∈ R, item R k = .ok r := by
  have hk : (if 0 ≤ k then k else R.length + k).toNat < R.length := by
    split <;> omega
  refine ⟨R[(if 0 ≤ k then k else R.length + k).toNat], List.getElem_mem hk, ?_⟩
  rw [item, List.getElem?_eq_getElem hk]
  exact if_pos hlow

theorem item_natCast {i : ℕ} (hi : i < R.length) : item R i = .ok R[i] := by
  have hk : (if 0 ≤ (i : ℤ) then (i : ℤ) else R.length + i).toNat = i := by
    rw [if_pos (Int.natCast_nonneg i), Int.toNat_natCast]
  rw [item, hk, List.getElem?_eq_getElem hi]
  exact if_pos (by omega)

theorem rel_airtime_eq (h : ∀ r ∈ R, 0 < r) (hr : r ∈ R) (hk : item R k = .ok r) :
    rel_airtime R k = .ok (timeShare R r) := by
  have hpart : reciprocal r = .ok (1 / r) := reciprocal_eq (h r hr).ne'
  have htime : unitTime R ≠ 0 := (unitTime_pos h (List.ne_nil_of_mem hr)).ne'
  rw [rel_airtime, reciprocals_eq (fun r hr => (h r hr).ne'), hk]
  change ((reciprocal r).bind _) = _
  rw [hpart]
  change (divide (1 / r) (unitTime R)).mapError _ = _
  rw [divide, if_neg htime]
  rfl

theorem CapacityEstimator.calc_eq (hne : R ≠ []) (h : ∀ r ∈ R, 0 < r) :
    CapacityEstimator.calc R = .ok (sharedRate R) := by
  have htime : unitTime R ≠ 0 := (unitTime_pos h hne).ne'
  rw [CapacityEstimator.calc, macRate_eq 0 (fun r hr => (h r hr).ne'), zero_add]
  change divide 1 (unitTime R) = _
  rw [divide, if_neg htime]
  rfl

/-- The shares of any clients, asked for one by one. -/
theorem rel_airtimes_eq (h : ∀ r ∈ R, 0 < r) {is : List ℕ} (his : ∀ i ∈ is, i < R.length) :
    is.mapM (fun i : ℕ => rel_airtime R i) =
      .ok ((is.map (fun i => R[i]?.getD 0)).map (timeShare R)) := by
  induction is with
  | nil => rfl
  | cons i is ih =>
    have hi : i < R.length := his i List.mem_cons_self
    have hone : rel_airtime R i = .ok (timeShare R (R[i]?.getD 0)) := by
      rw [List.getElem?_eq_getElem hi]
      exact rel_airtime_eq h (List.getElem_mem hi) (item_natCast hi)
    rw [List.mapM_cons, hone, ih (fun j hj => his j (List.mem_cons_of_mem i hj))]
    rfl

/-- All places together name every client once. -/
theorem map_range_getD (R : List ℚ) :
    (List.range R.length).map (fun i => R[i]?.getD 0) = R := by
  apply List.ext_getElem
  · rw [List.length_map, List.length_range]
  · intro i _ hi
    rw [List.getElem_map, List.getElem_range, List.getElem?_eq_getElem hi, Option.getD_some]

/-- The airtime that each client gets, taken at its own rate, is the rate that both estimators
compute while the backhaul does not bound it, and the shares add up to the whole time. -/
theorem airtime_fair_rate (R : List ℚ) (hne : R ≠ []) (hpos : ∀ r ∈ R, 0 < r) :
    CapacityEstimator.calc R = .ok (1 / (R.map (fun r => 1 / r)).sum) ∧
    (∀ b, 1 / (R.map (fun r => 1 / r)).sum ≤ b / 10 ^ 6 →
      WifiCapacityEstimator.calc R b = .ok (1 / (R.map (fun r => 1 / r)).sum)) ∧
    (∀ k : ℤ, -R.length ≤ k → k < R.length → ∃ gamma_k R_k, rel_airtime R k = .ok gamma_k ∧
      item R k = .ok R_k ∧ eff_data_rate gamma_k R_k = 1 / (R.map (fun r => 1 / r)).sum) ∧
    ∃ gammas, (List.range R.length).mapM (fun k : ℕ => rel_airtime R k) = .ok gammas ∧
      gammas.sum = 1 := by
  refine ⟨CapacityEstimator.calc_eq hne hpos, ?_, ?_, ?_⟩
  · intro b hb
    rw [ProbePower.calc_eq b hne hpos]
    exact congrArg Except.ok (min_eq_left hb)
  · intro k hlow hhigh
    obtain ⟨r, hr, hk⟩ := item_mem hlow hhigh
    refine ⟨timeShare R r, r, rel_airtime_eq hpos hr hk, hk, ?_⟩
    exact timeShare_mul (hpos r hr).ne'
  · refine ⟨_, rel_airtimes_eq hpos (fun k hk => List.mem_range.mp hk), ?_⟩
    rw [map_range_getD]
    exact sum_timeShare (unitTime_pos hpos hne).ne'

/-- The rates of the test. -/
theorem airtime_fair_rate_test : ∃ gamma_k R_k, rel_airtime [6, 12] 1 = .ok gamma_k ∧
    item [6, 12] 1 = .ok R_k ∧ eff_data_rate gamma_k R_k = 4 := by
  obtain ⟨-, -, hrate, -⟩ := airtime_fair_rate [6, 12] (by simp) (by simp)
  obtain ⟨gamma_k, R_k, hgamma, hR, heq⟩ := hrate 1 (by simp) (by simp)
  refine ⟨gamma_k, R_k, hgamma, hR, ?_⟩
  rw [heq]
  norm_num

end Nxwlan.AirtimeShares
