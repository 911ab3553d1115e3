import Nxwlan.ProbePower
import Nxwlan.RoundedNumbers

/-!
Whether a probe reply is heard. The power control package and its copy in the test of the
cran application bound the power from below by 0 dBm and assert at the end that the client
receives at least the low level; the cran application itself bounds it by 1 dBm and has
that assertion commented out. The cap at the maximum decides both: a request that arrives
below the low level is answered below it as well. Levels are doubles here. Those of whole
dBm are added and subtracted without rounding; of others the assertion can fail by a
rounding error where the priority adds nothing.
-/
namespace Nxwlan.AudibleReplies

open ProbePower (Failure)
open RoundedNumbers

structure ProbeReplyTxPowerCtrl where
  max_tx_power_dbm : Double
  default_tx_power_dbm : Double
  low_p_rx_dbm : Double := -90
  high_p_rx_dbm : Double := -50

def ProbeReplyTxPowerCtrl.delta_p_rx_dbm (c : ProbeReplyTxPowerCtrl) : Double :=
  c.high_p_rx_dbm - c.low_p_rx_dbm

def pl_db (c : ProbeReplyTxPowerCtrl) (p_rx_dbm : Double) : Double :=
  c.default_tx_power_dbm - p_rx_dbm

/-- The scaled power above a floor, which the copies choose differently. -/
def tx_power_dbm_low (floor : Double) (c : ProbeReplyTxPowerCtrl) (p_rx_dbm : Double) : Double :=
  max floor (c.default_tx_power_dbm - (p_rx_dbm - c.low_p_rx_dbm))

def tx_power_dbm_adapted (floor : Double) (c : ProbeReplyTxPowerCtrl) (p_rx_dbm prio : Double) :
    Double :=
  min c.max_tx_power_dbm (tx_power_dbm_low floor c p_rx_dbm + prio * c.delta_p_rx_dbm)

def p_rx_dbm_after (floor : Double) (c : ProbeReplyTxPowerCtrl) (p_rx_dbm prio : Double) : Double :=
  tx_power_dbm_adapted floor c p_rx_dbm prio - pl_db c p_rx_dbm

/-- The copies with the final assertion. -/
def calc_tx_power (c : ProbeReplyTxPowerCtrl) (p_rx_dbm prio : Double) : Except Failure Double :=
  if 0 ≤ tx_power_dbm_adapted 0 c p_rx_dbm prio then
    if tx_power_dbm_adapted 0 c p_rx_dbm prio ≤ c.max_tx_power_dbm then
      if c.low_p_rx_dbm ≤ p_rx_dbm_after 0 c p_rx_dbm prio then
        .ok (tx_power_dbm_adapted 0 c p_rx_dbm prio)
      else .error .assertion
    else .error .assertion
  else .error .assertion

/-- The copy of the cran application. -/
def Cran.calc_tx_power (c : ProbeReplyTxPowerCtrl) (p_rx_dbm prio : Double) :
    Except Failure Double :=
  if 0 ≤ tx_power_dbm_adapted 1 c p_rx_dbm prio then
    if tx_power_dbm_adapted 1 c p_rx_dbm prio ≤ c.max_tx_power_dbm then
      .ok (tx_power_dbm_adapted 1 c p_rx_dbm prio)
    else .error .assertion
  else .error .assertion

variable {c : ProbeReplyTxPowerCtrl} {floor p prio : Double}

theorem adapted_le : tx_power_dbm_adapted floor c p prio ≤ c.max_tx_power_dbm := min_le_left _ _

theorem extra_nonneg (hlevels : c.low_p_rx_dbm ≤ c.high_p_rx_dbm) (hprio : 0 ≤ prio) :
    0 ≤ prio * c.delta_p_rx_dbm :=
  Rounded.mul_nonneg hprio (Rounded.sub_nonneg_of_le hlevels)

theorem adapted_nonneg (hfloor : 0 ≤ floor) (hmax : 0 ≤ c.max_tx_power_dbm)
    (hlevels : c.low_p_rx_dbm ≤ c.high_p_rx_dbm) (hprio : 0 ≤ prio) :
    0 ≤ tx_power_dbm_adapted floor c p prio := by
  apply le_min hmax
  exact Rounded.add_nonneg (hfloor.trans (le_max_left _ _)) (extra_nonneg hlevels hprio)

/-- The first two assertions hold in any case, the last one when the client hears the reply. -/
theorem calc_tx_power_eq (hmax : 0 ≤ c.max_tx_power_dbm)
    (hlevels : c.low_p_rx_dbm ≤ c.high_p_rx_dbm) (hprio : 0 ≤ prio) :
    calc_tx_power c p prio = if c.low_p_rx_dbm ≤ p_rx_dbm_after 0 c p prio then
      .ok (tx_power_dbm_adapted 0 c p prio) else .error .assertion := by
  rw [calc_tx_power, if_pos (adapted_nonneg le_rfl hmax hlevels hprio), if_pos adapted_le]

theorem Cran.calc_tx_power_eq (hmax : 0 ≤ c.max_tx_power_dbm)
    (hlevels : c.low_p_rx_dbm ≤ c.high_p_rx_dbm) (hprio : 0 ≤ prio) :
    Cran.calc_tx_power c p prio = .ok (tx_power_dbm_adapted 1 c p prio) := by
  have hone : (0 : Double) ≤ 1 := Format.round_nonneg zero_le_one
  rw [Cran.calc_tx_power, if_pos (adapted_nonneg hone hmax hlevels hprio), if_pos adapted_le]

/-- A reply is sent and predicted to arrive at the low level or above. -/
def Audible (c : ProbeReplyTxPowerCtrl) (p : Double) (reply : Except Failure Double) : Prop :=
  ∃ tx, reply = .ok tx ∧ c.low_p_rx_dbm ≤ tx - (c.default_tx_power_dbm - p)

theorem audible_error (e : Failure) : ¬ Audible c p (.error e) := by
  intro ⟨tx, h, _⟩
  cases h

theorem audible_ok (tx : Double) : Audible c p (.ok tx) ↔ c.low_p_rx_dbm ≤ tx - pl_db c p := by
  constructor
  · intro ⟨tx', htx, hle⟩
    cases htx
    exact hle
  · intro hle
    exact ⟨tx, rfl, hle⟩

/-- What is predicted decides both copies. -/
theorem audible_calc (hmax : 0 ≤ c.max_tx_power_dbm)
    (hlevels : c.low_p_rx_dbm ≤ c.high_p_rx_dbm) (hprio : 0 ≤ prio) :
    (Audible c p (calc_tx_power c p prio) ↔ c.low_p_rx_dbm ≤ p_rx_dbm_after 0 c p prio) ∧
    (calc_tx_power c p prio = .error .assertion ↔ ¬ c.low_p_rx_dbm ≤ p_rx_dbm_after 0 c p prio) ∧
    (Audible c p (Cran.calc_tx_power c p prio) ↔
      c.low_p_rx_dbm ≤ p_rx_dbm_after 1 c p prio) := by
  rw [calc_tx_power_eq hmax hlevels hprio, Cran.calc_tx_power_eq hmax hlevels hprio]
  refine ⟨?_, ?_, audible_ok _⟩
  · by_cases h : c.low_p_rx_dbm ≤ p_rx_dbm_after 0 c p prio
    · rw [if_pos h, audible_ok]
      rfl
    · rw [if_neg h]
      exact iff_of_false (audible_error _) h
  · by_cases h : c.low_p_rx_dbm ≤ p_rx_dbm_after 0 c p prio
    · rw [if_pos h]
      exact iff_of_false (fun heq => by cases heq) (not_not.mpr h)
    · rw [if_neg h]
      exact iff_of_true rfl h

section Exact

/-- A level of at most `2 ^ 50` steps of a common size. -/
structure Steps (k : ℤ) (x : Double) : Prop where
  multiple : x.Multiple k
  size : |x.val| ≤ 2 ^ (k + 50)

/-- Levels with a common step. -/
structure Exact (k : ℤ) (c : ProbeReplyTxPowerCtrl) (p : Double) : Prop where
  fine : -1074 ≤ k
  default : Steps k c.default_tx_power_dbm
  low : Steps k c.low_p_rx_dbm
  p : Steps k p

variable {k : ℤ}

theorem Exact.subtracted (h : Exact k c p) :
    (pl_db c p).val = c.default_tx_power_dbm.val - p.val ∧
      (c.default_tx_power_dbm - (p - c.low_p_rx_dbm)).val =
        c.default_tx_power_dbm.val - (p.val - c.low_p_rx_dbm.val) := by
  have hpow : (2 : ℚ) ^ (k + binary64.prec) = 8 * 2 ^ (k + 50) := by
    change (2 : ℚ) ^ (k + (53 : ℕ)) = 8 * 2 ^ (k + 50)
    rw [zpow_add₀ two_ne_zero, zpow_add₀ two_ne_zero]
    norm_num
    ring
  have hpos : (0 : ℚ) < 2 ^ (k + 50) := zpow_pos two_pos _
  obtain ⟨hdefault, hdefault'⟩ := abs_le.mp h.default.size
  obtain ⟨hlow, hlow'⟩ := abs_le.mp h.low.size
  obtain ⟨hp, hp'⟩ := abs_le.mp h.p.size
  have hsmall : ∀ q : ℚ, -(3 * 2 ^ (k + 50)) ≤ q → q ≤ 3 * 2 ^ (k + 50) →
      |q| ≤ 2 ^ (k + binary64.prec) := by
    intro q hq hq'
    rw [hpow]
    exact abs_le.mpr ⟨by linarith, by linarith⟩
  obtain ⟨hlevel, hmultiple⟩ := h.p.multiple.sub h.low.multiple h.fine
    (hsmall _ (by linarith) (by linarith))
  refine ⟨(h.default.multiple.sub h.p.multiple h.fine
    (hsmall _ (by linarith) (by linarith))).1, ?_⟩
  rw [(h.default.multiple.sub hmultiple h.fine
    (by rw [hlevel]; exact hsmall _ (by linarith) (by linarith))).1, hlevel]

/-- Whatever the floor is, the client hears the reply exactly when the request came in at the
low level or above: the cap leaves the client no more than the request's own level. -/
theorem Exact.audible_iff (h : Exact k c p) (hdefault : c.default_tx_power_dbm = c.max_tx_power_dbm)
    (hlevels : c.low_p_rx_dbm ≤ c.high_p_rx_dbm) (hprio : 0 ≤ prio) :
    c.low_p_rx_dbm ≤ p_rx_dbm_after floor c p prio ↔ c.low_p_rx_dbm ≤ p := by
  obtain ⟨hpl, hscaled⟩ := h.subtracted
  have hcap : (tx_power_dbm_adapted floor c p prio).val ≤ c.default_tx_power_dbm.val := by
    rw [hdefault]
    exact Rounded.val_le_val.mpr adapted_le
  constructor
  · intro hafter
    have hle : p_rx_dbm_after floor c p prio ≤ p := by
      rw [← Rounded.val_le_val, p_rx_dbm_after, Rounded.val_sub, hpl]
      exact Format.round_le p.representable (by linarith)
    exact hafter.trans hle
  · intro hlow
    rw [← Rounded.val_le_val] at hlow ⊢
    have hneed : c.default_tx_power_dbm - (p - c.low_p_rx_dbm) ≤
        tx_power_dbm_adapted floor c p prio := by
      refine le_min ?_ ?_
      · rw [← hdefault, ← Rounded.val_le_val, hscaled]
        linarith
      · exact (le_max_right _ _).trans
          (Rounded.le_add_of_nonneg_right (extra_nonneg hlevels hprio))
    rw [← Rounded.val_le_val, hscaled] at hneed
    rw [p_rx_dbm_after, Rounded.val_sub, hpl]
    exact Format.le_round c.low_p_rx_dbm.representable (by linarith)

end Exact

section Rounding

/-- Levels of some size, of any fineness. -/
structure Sized (b : ℕ) (c : ProbeReplyTxPowerCtrl) (p : Double) : Prop where
  default : |c.default_tx_power_dbm.val| ≤ 2 ^ b
  low : |c.low_p_rx_dbm.val| ≤ 2 ^ b
  p : |p.val| ≤ 2 ^ b

/-- More than the rounding errors of all steps together. -/
def margin (b : ℕ) : ℚ := 2 ^ ((b : ℤ) - 49)

variable {b : ℕ} {q : ℚ}

theorem pow_eq_margin (b : ℕ) : (2 : ℚ) ^ b = 2 ^ 49 * margin b := by
  rw [margin, ← zpow_natCast, ← zpow_natCast, ← zpow_add₀ two_ne_zero]
  congr 1
  push_cast
  ring

theorem margin_pos (b : ℕ) : 0 < margin b := zpow_pos two_pos _

/-- The error of one step. -/
theorem round_near (hlow : -(2 ^ 51 * margin b) < q) (hhigh : q < 2 ^ 51 * margin b) :
    q - margin b / 8 ≤ binary64.round q ∧ binary64.round q ≤ q + margin b / 8 := by
  have hpow : (2 : ℚ) ^ ((b : ℤ) + 2) = 2 ^ 51 * margin b := by
    rw [margin, ← zpow_natCast, ← zpow_add₀ two_ne_zero]
    congr 1
    push_cast
    ring
  have hstep : (2 : ℚ) ^ ((b : ℤ) + 2 - binary64.prec - 1) = margin b / 8 := by
    rw [margin, show (8 : ℚ) = 2 ^ (3 : ℤ) by norm_num, ← zpow_sub₀ two_ne_zero]
    congr 1
    simp only [binary64]
    push_cast
    ring
  have h := Format.abs_round_sub_le (F := binary64) (k := (b : ℤ) + 2) (x := q)
    (by simp only [binary64]; omega) (abs_lt.mpr ⟨by rw [hpow]; exact hlow, by rw [hpow]; exact hhigh⟩)
  rw [hstep] at h
  obtain ⟨h₁, h₂⟩ := abs_le.mp h
  exact ⟨by linarith, by linarith⟩

theorem Sized.subtracted (h : Sized b c p) :
    |(pl_db c p).val - (c.default_tx_power_dbm.val - p.val)| ≤ margin b / 8 ∧
      |(c.default_tx_power_dbm - (p - c.low_p_rx_dbm)).val -
        (c.default_tx_power_dbm.val - (p.val - c.low_p_rx_dbm.val))| ≤ margin b / 4 := by
  have hpos := margin_pos b
  obtain ⟨hdefault, hdefault'⟩ := abs_le.mp h.default
  obtain ⟨hlow, hlow'⟩ := abs_le.mp h.low
  obtain ⟨hp, hp'⟩ := abs_le.mp h.p
  rw [pow_eq_margin] at hdefault hdefault' hlow hlow' hp hp'
  obtain ⟨hpl, hpl'⟩ := round_near (b := b) (q := c.default_tx_power_dbm.val - p.val)
    (by linarith) (by linarith)
  obtain ⟨hlevel, hlevel'⟩ := round_near (b := b) (q := p.val - c.low_p_rx_dbm.val)
    (by linarith) (by linarith)
  rw [← Rounded.val_sub] at hpl hpl' hlevel hlevel'
  obtain ⟨hscaled, hscaled'⟩ := round_near (b := b)
    (q := c.default_tx_power_dbm.val - (p - c.low_p_rx_dbm).val) (by linarith) (by linarith)
  rw [← Rounded.val_sub] at hscaled hscaled'
  exact ⟨abs_le.mpr ⟨by rw [pl_db]; linarith, by rw [pl_db]; linarith⟩,
    abs_le.mpr ⟨by linarith, by linarith⟩⟩

/-- Well above the low level, and with some priority, the client hears the reply. -/
theorem Sized.low_le_after (h : Sized b c p) (hdefault : c.default_tx_power_dbm = c.max_tx_power_dbm)
    (hfloor : floor ≤ 1) (hlow : c.low_p_rx_dbm.val + margin b ≤ p.val)
    (hextra : margin b ≤ (prio * c.delta_p_rx_dbm).val) :
    c.low_p_rx_dbm ≤ p_rx_dbm_after floor c p prio := by
  have hpos := margin_pos b
  obtain ⟨hpl, hpl'⟩ := abs_le.mp h.subtracted.1
  obtain ⟨hscaled, hscaled'⟩ := abs_le.mp h.subtracted.2
  have hfloor_val : floor.val ≤ 2 ^ b := by
    have hone : (1 : Double).val = 1 := by decide +kernel
    have hle : floor.val ≤ (1 : Double).val := hfloor
    rw [hone] at hle
    exact hle.trans (one_le_pow₀ one_le_two)
  obtain ⟨hsize, hsize'⟩ := abs_le.mp h.default
  obtain ⟨hsizelow, hsizelow'⟩ := abs_le.mp h.low
  obtain ⟨hsizep, hsizep'⟩ := abs_le.mp h.p
  rw [pow_eq_margin] at hsize hsize' hsizelow hsizelow' hsizep hsizep' hfloor_val
  set low := tx_power_dbm_low floor c p with hlow_def
  have hlow_ge : (c.default_tx_power_dbm - (p - c.low_p_rx_dbm)).val ≤ low.val :=
    Rounded.val_le_val.mpr (le_max_right _ _)
  have hlow_le : low.val + margin b < 2 ^ 51 * margin b := by
    rcases max_choice floor (c.default_tx_power_dbm - (p - c.low_p_rx_dbm)) with hmax | hmax
    · rw [hlow_def, tx_power_dbm_low, hmax]
      linarith
    · rw [hlow_def, tx_power_dbm_low, hmax]
      linarith
  have hsum : low.val + margin b - margin b / 8 ≤ (low + prio * c.delta_p_rx_dbm).val := by
    refine (round_near (by linarith) hlow_le).1.trans ?_
    rw [Rounded.val_add]
    exact binary64.round_mono (by linarith)
  rw [← Rounded.val_le_val, p_rx_dbm_after, Rounded.val_sub]
  apply Format.le_round c.low_p_rx_dbm.representable
  rcases min_choice c.max_tx_power_dbm (low + prio * c.delta_p_rx_dbm) with hmin | hmin
  · rw [tx_power_dbm_adapted, hmin, ← hdefault]
    linarith
  · rw [tx_power_dbm_adapted, hmin]
    linarith

/-- Well below the low level it does not, whatever the priority. -/
theorem Sized.after_lt_low (h : Sized b c p) (hdefault : c.default_tx_power_dbm = c.max_tx_power_dbm)
    (hlow : p.val + margin b ≤ c.low_p_rx_dbm.val) :
    ¬ c.low_p_rx_dbm ≤ p_rx_dbm_after floor c p prio := by
  have hpos := margin_pos b
  obtain ⟨hpl, hpl'⟩ := abs_le.mp h.subtracted.1
  obtain ⟨hsizep, hsizep'⟩ := abs_le.mp h.p
  rw [pow_eq_margin] at hsizep hsizep'
  have hcap : (tx_power_dbm_adapted floor c p prio).val ≤ c.default_tx_power_dbm.val := by
    rw [hdefault]
    exact Rounded.val_le_val.mpr adapted_le
  have hafter : (p_rx_dbm_after floor c p prio).val ≤ p.val + margin b / 8 + margin b / 8 := by
    rw [p_rx_dbm_after, Rounded.val_sub]
    refine (binary64.round_mono (by linarith : _ ≤ p.val + margin b / 8)).trans ?_
    exact (round_near (by linarith) (by linarith)).2
  rw [not_le, ← Rounded.val_lt_val]
  linarith

end Rounding

/-- The power of the reply keeps the client at the low level exactly when its request arrived
there; below it the copies with the assertion raise and the application sends a reply that
arrives too weak. So it is for levels of whole dBm and all others that need no rounding.
In general the rounding errors come on top. -/
theorem reply_audible_iff (c : ProbeReplyTxPowerCtrl) (p prio : Double)
    (hdefault : c.default_tx_power_dbm = c.max_tx_power_dbm) (hmax : 0 ≤ c.max_tx_power_dbm)
    (hlevels : c.low_p_rx_dbm ≤ c.high_p_rx_dbm) (hprio : 0 ≤ prio) :
    (∀ k, Exact k c p →
      (Audible c p (calc_tx_power c p prio) ↔ c.low_p_rx_dbm ≤ p) ∧
      (calc_tx_power c p prio = .error .assertion ↔ p < c.low_p_rx_dbm) ∧
      (Audible c p (Cran.calc_tx_power c p prio) ↔ c.low_p_rx_dbm ≤ p)) ∧
    ∀ b, Sized b c p →
      (c.low_p_rx_dbm.val + margin b ≤ p.val → margin b ≤ (prio * c.delta_p_rx_dbm).val →
        Audible c p (calc_tx_power c p prio) ∧ Audible c p (Cran.calc_tx_power c p prio)) ∧
      (p.val + margin b ≤ c.low_p_rx_dbm.val →
        calc_tx_power c p prio = .error .assertion ∧
          ¬ Audible c p (Cran.calc_tx_power c p prio)) := by
  obtain ⟨hcalc, hraise, hcran⟩ := audible_calc (p := p) hmax hlevels hprio
  refine ⟨?_, ?_⟩
  · intro k h
    have hafter : ∀ floor, c.low_p_rx_dbm ≤ p_rx_dbm_after floor c p prio ↔ c.low_p_rx_dbm ≤ p :=
      fun floor => h.audible_iff hdefault hlevels hprio
    rw [hcalc, hraise, hcran, hafter, hafter]
    exact ⟨Iff.rfl, not_le, Iff.rfl⟩
  · intro b h
    refine ⟨?_, ?_⟩
    · intro hlow hextra
      have hzero : (0 : Double) ≤ 1 := Format.round_nonneg zero_le_one
      exact ⟨hcalc.mpr (h.low_le_after hdefault hzero hlow hextra),
        hcran.mpr (h.low_le_after hdefault le_rfl hlow hextra)⟩
    · intro hlow
      rw [hraise, hcran]
      exact ⟨h.after_lt_low hdefault hlow, h.after_lt_low hdefault hlow⟩

/-- The settings of the package's main program. -/
def main_p_ctrl : ProbeReplyTxPowerCtrl where
  max_tx_power_dbm := 24
  default_tx_power_dbm := 24

/-- Whole levels need no rounding. -/
theorem steps_natCast {n : ℕ} (hn : n ≤ 2 ^ 50) :
    Steps 0 (n : Double) ∧ Steps 0 (-(n : Double)) := by
  have hsize : |(n : ℚ)| ≤ 2 ^ (0 + (binary64.prec : ℤ)) := by
    rw [abs_of_nonneg (Nat.cast_nonneg n)]
    have hle : (n : ℚ) ≤ 2 ^ 50 := by exact_mod_cast hn
    refine hle.trans ?_
    norm_num [binary64]
  have hval : (n : Double).val = n :=
    Rounded.Multiple.val_ofRat (k := 0) (n := n) (by decide) (by simp) hsize
  have hmultiple : (n : Double).Multiple 0 := ⟨n, by rw [hval]; simp⟩
  have hbound : |(n : Double).val| ≤ 2 ^ ((0 : ℤ) + 50) := by
    rw [hval, abs_of_nonneg (Nat.cast_nonneg n)]
    exact_mod_cast hn
  exact ⟨⟨hmultiple, hbound⟩, hmultiple.neg, by rwa [Rounded.val_neg, abs_neg]⟩

theorem main_exact {n : ℕ} (hn : n ≤ 2 ^ 50) : Exact 0 main_p_ctrl (-(n : Double)) where
  fine := by decide
  default := (steps_natCast (n := 24) (by norm_num)).1
  low := (steps_natCast (n := 90) (by norm_num)).2
  p := (steps_natCast hn).2

theorem reply_audible_main : Audible main_p_ctrl (-55) (calc_tx_power main_p_ctrl (-55) 1) := by
  have h := (reply_audible_iff main_p_ctrl (-55) 1 rfl (by decide +kernel) (by decide +kernel)
    (by decide +kernel)).1 0 (main_exact (n := 55) (by norm_num))
  exact h.1.mpr (by decide +kernel)

/-- A request at -95 dBm with the highest priority. -/
theorem reply_too_weak : main_p_ctrl.default_tx_power_dbm = main_p_ctrl.max_tx_power_dbm ∧
    0 ≤ main_p_ctrl.max_tx_power_dbm ∧ main_p_ctrl.low_p_rx_dbm ≤ main_p_ctrl.high_p_rx_dbm ∧
    p_rx_dbm_after 0 main_p_ctrl (-95) 1 < main_p_ctrl.low_p_rx_dbm ∧
    calc_tx_power main_p_ctrl (-95) 1 = .error .assertion ∧
    Cran.calc_tx_power main_p_ctrl (-95) 1 = .ok 24 ∧
    ¬ Audible main_p_ctrl (-95) (Cran.calc_tx_power main_p_ctrl (-95) 1) := by
  have hmax : 0 ≤ main_p_ctrl.max_tx_power_dbm := by decide +kernel
  have hlevels : main_p_ctrl.low_p_rx_dbm ≤ main_p_ctrl.high_p_rx_dbm := by decide +kernel
  have hprio : (0 : Double) ≤ 1 := by decide +kernel
  have hweak : p_rx_dbm_after 0 main_p_ctrl (-95) 1 < main_p_ctrl.low_p_rx_dbm := by decide +kernel
  have hcran : Cran.calc_tx_power main_p_ctrl (-95) 1 = .ok 24 := by
    rw [Cran.calc_tx_power_eq hmax hlevels hprio]
    congr 1
    decide +kernel
  refine ⟨rfl, hmax, hlevels, hweak, ?_, hcran, ?_⟩
  · rw [calc_tx_power_eq hmax hlevels hprio]
    exact if_neg (not_le.mpr hweak)
  · rw [hcran, audible_ok]
    decide +kernel

/-- Levels that are no whole numbers, without priority: the request is 4 dBm above the low
level, and the prediction is a rounding error below it. -/
def fractional_p_ctrl : ProbeReplyTxPowerCtrl where
  max_tx_power_dbm := .ofRat (184 / 10)
  default_tx_power_dbm := .ofRat (184 / 10)
  low_p_rx_dbm := -62
  high_p_rx_dbm := -49

example : calc_tx_power fractional_p_ctrl (-58) 0 = .error .assertion := by
  rw [calc_tx_power_eq (by decide +kernel) (by decide +kernel) le_rfl]
  exact if_neg (by decide +kernel)

end Nxwlan.AudibleReplies
