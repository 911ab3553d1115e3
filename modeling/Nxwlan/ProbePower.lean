import Mathlib.Algebra.Order.Field.Rat
import Mathlib.Tactic.Linarith
import Nxwlan.SharedRates

/-!
The power of a probe reply in the cran application. `WifiCapacityEstimator` estimates the
rate that a newcomer gets beside the served clients, `ProbeReplyTxPowerCtrl` turns it
into a power between 1 dBm and the maximum. Numbers are exact rationals here; a division
by zero and a failed assertion raise.
-/
namespace Nxwlan.ProbePower

open SharedRates

inductive Failure where
  | zeroDivision
  | assertion
  deriving DecidableEq

/-- `a / b`. -/
def divide (a b : ℚ) : Except Failure ℚ := if b = 0 then .error .zeroDivision else .ok (a / b)

structure WifiCapacityEstimator where
  max_mac_rate : ℚ

/-- The loop of `calc`, with the sum so far. -/
def macRate : ℚ → List ℚ → Except Failure ℚ
  | mac_rate, [] => .ok mac_rate
  | mac_rate, r_phy :: rest =>
      match divide 1 r_phy with
      | .error e => .error e
      | .ok part => macRate (mac_rate + part) rest

def WifiCapacityEstimator.calc (per_client_phy_rate : List ℚ) (av_backhaul : ℚ) :
    Except Failure ℚ := do
  let mac_rate ← macRate 0 per_client_phy_rate
  let nac_rate ← divide 1 mac_rate
  pure (min nac_rate (av_backhaul / 10 ^ 6))

def get_normalized (est : WifiCapacityEstimator) (per_client_phy_rate : List ℚ)
    (av_backhaul : ℚ) : Except Failure ℚ := do
  let rate ← WifiCapacityEstimator.calc per_client_phy_rate av_backhaul
  let share ← divide rate est.max_mac_rate
  pure (min 1 share)

structure ProbeReplyTxPowerCtrl where
  max_tx_power_dbm : ℚ
  default_tx_power_dbm : ℚ
  low_p_rx_dbm : ℚ := -90
  high_p_rx_dbm : ℚ := -50

def ProbeReplyTxPowerCtrl.delta_p_rx_dbm (c : ProbeReplyTxPowerCtrl) : ℚ :=
  c.high_p_rx_dbm - c.low_p_rx_dbm

def ProbeReplyTxPowerCtrl.tx_power_dbm_low (c : ProbeReplyTxPowerCtrl) (p_rx_dbm : ℚ) : ℚ :=
  max 1 (c.default_tx_power_dbm - (p_rx_dbm - c.low_p_rx_dbm))

def ProbeReplyTxPowerCtrl.tx_power_dbm_adapted (c : ProbeReplyTxPowerCtrl) (p_rx_dbm prio : ℚ) :
    ℚ :=
  min c.max_tx_power_dbm (c.tx_power_dbm_low p_rx_dbm + prio * c.delta_p_rx_dbm)

def calc_tx_power (c : ProbeReplyTxPowerCtrl) (p_rx_dbm prio : ℚ) : Except Failure ℚ :=
  if 0 ≤ c.tx_power_dbm_adapted p_rx_dbm prio then
    if c.tx_power_dbm_adapted p_rx_dbm prio ≤ c.max_tx_power_dbm then
      .ok (c.tx_power_dbm_adapted p_rx_dbm prio)
    else .error .assertion
  else .error .assertion

/-- The power for a newcomer whose probe request is received with `p_rx_dbm`, from the rates
of all clients and its own. -/
def replyPower (est : WifiCapacityEstimator) (c : ProbeReplyTxPowerCtrl)
    (per_client_phy_rate : List ℚ) (av_backhaul p_rx_dbm : ℚ) : Except Failure ℚ := do
  let prio ← get_normalized est per_client_phy_rate av_backhaul
  calc_tx_power c p_rx_dbm prio

variable {est : WifiCapacityEstimator} {c : ProbeReplyTxPowerCtrl} {rates rates' : List ℚ}
  {b r p p' prio prio' : ℚ}

theorem macRate_eq (acc : ℚ) (h : ∀ r ∈ rates, r ≠ 0) :
    macRate acc rates = .ok (acc + unitTime rates) := by
  induction rates generalizing acc with
  | nil => simp [macRate, unitTime]
  | cons r rates ih =>
    have hr : r ≠ 0 := h r List.mem_cons_self
    rw [macRate, divide, if_neg hr]
    dsimp only
    rw [ih _ (fun x hx => h x (List.mem_cons_of_mem r hx)), unitTime_cons, add_assoc]

/-- One rate of zero is enough to raise. -/
theorem macRate_zero (acc : ℚ) (h : 0 ∈ rates) : macRate acc rates = .error .zeroDivision := by
  induction rates generalizing acc with
  | nil => cases h
  | cons r rates ih =>
    rw [macRate, divide]
    by_cases hr : r = 0
    · rw [if_pos hr]
    · rw [if_neg hr]
      have htail : 0 ∈ rates := (List.mem_cons.mp h).resolve_left (fun h0 => hr h0.symm)
      exact ih _ htail

theorem calc_zero (b : ℚ) (h : 0 ∈ rates) :
    WifiCapacityEstimator.calc rates b = .error .zeroDivision := by
  rw [WifiCapacityEstimator.calc, macRate_zero 0 h]
  rfl

theorem calc_eq (b : ℚ) (hne : rates ≠ []) (h : ∀ r ∈ rates, 0 < r) :
    WifiCapacityEstimator.calc rates b = .ok (min (sharedRate rates) (b / 10 ^ 6)) := by
  have htime : unitTime rates ≠ 0 := (unitTime_pos h hne).ne'
  rw [WifiCapacityEstimator.calc, macRate_eq 0 (fun r hr => (h r hr).ne'), zero_add]
  change (divide 1 (unitTime rates)).bind _ = _
  rw [divide, if_neg htime]
  rfl

/-- The share of the best rate that is estimated. -/
def share (est : WifiCapacityEstimator) (rates : List ℚ) (b : ℚ) : ℚ :=
  min 1 (min (sharedRate rates) (b / 10 ^ 6) / est.max_mac_rate)

theorem get_normalized_eq (b : ℚ) (hmac : 0 < est.max_mac_rate) (hne : rates ≠ [])
    (h : ∀ r ∈ rates, 0 < r) : get_normalized est rates b = .ok (share est rates b) := by
  rw [get_normalized, calc_eq b hne h]
  change (divide _ est.max_mac_rate).bind _ = _
  rw [divide, if_neg hmac.ne']
  rfl

theorem share_pos (hmac : 0 < est.max_mac_rate) (hb : 0 < b) (hne : rates ≠ [])
    (h : ∀ r ∈ rates, 0 < r) : 0 < share est rates b := by
  have hrate : 0 < min (sharedRate rates) (b / 10 ^ 6) :=
    lt_min (sharedRate_pos h hne) (div_pos hb (by norm_num))
  exact lt_min one_pos (div_pos hrate hmac)

theorem share_le_one : share est rates b ≤ 1 := min_le_left _ _

theorem share_mono (hmac : 0 < est.max_mac_rate) (h : sharedRate rates' ≤ sharedRate rates) :
    share est rates' b ≤ share est rates b := by
  apply min_le_min_left
  exact div_le_div_of_nonneg_right (min_le_min_right _ h) hmac.le

section Control

theorem one_le_low : 1 ≤ c.tx_power_dbm_low p := le_max_left _ _

theorem one_le_adapted (hmax : 1 ≤ c.max_tx_power_dbm) (hlevels : c.low_p_rx_dbm ≤ c.high_p_rx_dbm)
    (hprio : 0 ≤ prio) : 1 ≤ c.tx_power_dbm_adapted p prio := by
  apply le_min hmax
  have hdelta : 0 ≤ c.delta_p_rx_dbm := sub_nonneg.mpr hlevels
  have hextra : 0 ≤ prio * c.delta_p_rx_dbm := mul_nonneg hprio hdelta
  have hlow : 1 ≤ c.tx_power_dbm_low p := one_le_low
  linarith

theorem adapted_le : c.tx_power_dbm_adapted p prio ≤ c.max_tx_power_dbm := min_le_left _ _

theorem adapted_mono_prio (hlevels : c.low_p_rx_dbm ≤ c.high_p_rx_dbm) (h : prio ≤ prio') :
    c.tx_power_dbm_adapted p prio ≤ c.tx_power_dbm_adapted p prio' := by
  have hdelta : 0 ≤ c.delta_p_rx_dbm := sub_nonneg.mpr hlevels
  apply min_le_min_left
  exact add_le_add_right (mul_le_mul_of_nonneg_right h hdelta) _

theorem adapted_anti_level (h : p ≤ p') :
    c.tx_power_dbm_adapted p' prio ≤ c.tx_power_dbm_adapted p prio := by
  apply min_le_min_left
  apply add_le_add_left
  apply max_le_max_left
  linarith

/-- Both assertions hold. -/
theorem calc_tx_power_eq (hmax : 1 ≤ c.max_tx_power_dbm)
    (hlevels : c.low_p_rx_dbm ≤ c.high_p_rx_dbm) (p : ℚ) (hprio : 0 ≤ prio) :
    calc_tx_power c p prio = .ok (c.tx_power_dbm_adapted p prio) := by
  have hone := one_le_adapted (p := p) hmax hlevels hprio
  rw [calc_tx_power, if_pos (by linarith), if_pos adapted_le]

theorem replyPower_eq (hmac : 0 < est.max_mac_rate) (hmax : 1 ≤ c.max_tx_power_dbm)
    (hlevels : c.low_p_rx_dbm ≤ c.high_p_rx_dbm) (hb : 0 < b) (p : ℚ) (hne : rates ≠ [])
    (h : ∀ r ∈ rates, 0 < r) :
    replyPower est c rates b p = .ok (c.tx_power_dbm_adapted p (share est rates b)) := by
  rw [replyPower, get_normalized_eq b hmac hne h]
  exact calc_tx_power_eq hmax hlevels p (share_pos hmac hb hne h).le

end Control

/-- The estimate is the shared rate of all clients within the bounds of the backhaul, the
share of the best rate lies in (0,1], and the power in the range of the controller. A
client more never raises the power for a newcomer. -/
theorem load_aware_power (est : WifiCapacityEstimator) (c : ProbeReplyTxPowerCtrl) (rates : List ℚ)
    (b : ℚ) (hmac : 0 < est.max_mac_rate) (hmax : 1 ≤ c.max_tx_power_dbm)
    (hlevels : c.low_p_rx_dbm ≤ c.high_p_rx_dbm) (hb : 0 < b) (hne : rates ≠ [])
    (hpos : ∀ r ∈ rates, 0 < r) :
    WifiCapacityEstimator.calc rates b =
      .ok (min (1 / (rates.map (fun r => 1 / r)).sum) (b / 10 ^ 6)) ∧
    (∀ rates', rates'.Perm rates →
      WifiCapacityEstimator.calc rates' b = WifiCapacityEstimator.calc rates b) ∧
    (∃ rate, WifiCapacityEstimator.calc rates b = .ok rate ∧ (∀ r ∈ rates, rate ≤ r) ∧
      ∀ r rates', 0 < r → rates'.Perm (r :: rates) →
        ∃ rate', WifiCapacityEstimator.calc rates' b = .ok rate' ∧ rate' ≤ rate) ∧
    (∃ prio, get_normalized est rates b = .ok prio ∧ 0 < prio ∧ prio ≤ 1) ∧
    (∀ p prio, 0 ≤ prio → ∃ power, calc_tx_power c p prio = .ok power ∧ 1 ≤ power ∧
      power ≤ c.max_tx_power_dbm) ∧
    (∀ p prio prio' power power', 0 ≤ prio → prio ≤ prio' → calc_tx_power c p prio = .ok power →
      calc_tx_power c p prio' = .ok power' → power ≤ power') ∧
    (∀ p p' prio power power', 0 ≤ prio → p ≤ p' → calc_tx_power c p prio = .ok power →
      calc_tx_power c p' prio = .ok power' → power' ≤ power) ∧
    ∀ p r rates', 0 < r → rates'.Perm (r :: rates) → ∃ power power',
      replyPower est c rates b p = .ok power ∧ replyPower est c rates' b p = .ok power' ∧
        power' ≤ power := by
  have hmore : ∀ r rates', 0 < r → rates'.Perm (r :: rates) →
      rates' ≠ [] ∧ (∀ x ∈ rates', 0 < x) ∧ sharedRate rates' ≤ sharedRate rates := by
    intro r rates' hr hperm
    refine ⟨?_, ?_, ?_⟩
    · rintro rfl
      exact absurd hperm.nil_eq (by simp)
    · intro x hx
      rcases List.mem_cons.mp (hperm.subset hx) with rfl | hx
      · exact hr
      · exact hpos x hx
    · rw [sharedRate_perm hperm]
      exact sharedRate_cons_le hpos hne hr
  have hpower : ∀ p prio power, 0 ≤ prio → calc_tx_power c p prio = .ok power →
      power = c.tx_power_dbm_adapted p prio := by
    intro p prio power hprio hcalc
    rw [calc_tx_power_eq hmax hlevels p hprio] at hcalc
    exact (Except.ok.inj hcalc).symm
  refine ⟨calc_eq b hne hpos, ?_, ?_, ?_, ?_, ?_, ?_, ?_⟩
  · intro rates' hperm
    have hne' : rates' ≠ [] := by
      rintro rfl
      exact hne hperm.nil_eq.symm
    rw [calc_eq b hne hpos, calc_eq b hne' (fun r hr => hpos r (hperm.subset hr)),
      sharedRate_perm hperm]
  · refine ⟨_, calc_eq b hne hpos, ?_, ?_⟩
    · intro r hr
      exact (min_le_left _ _).trans (sharedRate_le hpos hr)
    · intro r rates' hr hperm
      obtain ⟨hne', hpos', hle⟩ := hmore r rates' hr hperm
      exact ⟨_, calc_eq b hne' hpos', min_le_min_right _ hle⟩
  · exact ⟨_, get_normalized_eq b hmac hne hpos, share_pos hmac hb hne hpos, share_le_one⟩
  · intro p prio hprio
    exact ⟨_, calc_tx_power_eq hmax hlevels p hprio, one_le_adapted hmax hlevels hprio, adapted_le⟩
  · intro p prio prio' power power' hprio hle hcalc hcalc'
    rw [hpower p prio power hprio hcalc, hpower p prio' power' (hprio.trans hle) hcalc']
    exact adapted_mono_prio hlevels hle
  · intro p p' prio power power' hprio hle hcalc hcalc'
    rw [hpower p prio power hprio hcalc, hpower p' prio power' hprio hcalc']
    exact adapted_anti_level hle
  · intro p r rates' hr hperm
    obtain ⟨hne', hpos', hle⟩ := hmore r rates' hr hperm
    exact ⟨_, _, replyPower_eq hmac hmax hlevels hb p hne hpos,
      replyPower_eq hmac hmax hlevels hb p hne' hpos',
      adapted_mono_prio hlevels (share_mono hmac hle)⟩

/-- The settings of `ReadinessToServe`. -/
def capacity_est : WifiCapacityEstimator := ⟨35⟩

def p_ctrl : ProbeReplyTxPowerCtrl where
  max_tx_power_dbm := 16
  default_tx_power_dbm := 16

theorem load_aware_power_pair : ∃ power power',
    replyPower capacity_est p_ctrl [54] 50000000 (-60) = .ok power ∧
      replyPower capacity_est p_ctrl [6, 54] 50000000 (-60) = .ok power' ∧ power' ≤ power := by
  have hmac : 0 < capacity_est.max_mac_rate := by norm_num [capacity_est]
  have hmax : 1 ≤ p_ctrl.max_tx_power_dbm := by norm_num [p_ctrl]
  have hlevels : p_ctrl.low_p_rx_dbm ≤ p_ctrl.high_p_rx_dbm := by norm_num [p_ctrl]
  obtain ⟨-, -, -, -, -, -, -, hadd⟩ := load_aware_power capacity_est p_ctrl [54] 50000000 hmac hmax
    hlevels (by norm_num) (by simp) (by simp)
  exact hadd (-60) 6 [6, 54] (by norm_num) (List.Perm.refl _)

end Nxwlan.ProbePower
