import Nxwlan.PerFlowPower

/-!
The transmit power of a frame in the patched ath9k driver. `ath_buf_set_rate` asks
`ath_get_rate_txpower` for the limit of each rate of the frame's rate series, and then
lets `ath_overwrite_rate_txpower` replace it by the power of the per-flow table, which
may lie above the limit.
-/
namespace Nxwlan.TxPowerLimit

open PerFlowPower

/-- The hardware: its version, the limits for each rate, the values of the EEPROM and the
legacy rates of both bands. -/
structure Hw where
  macVersion : ℕ
  tx_power : BitVec 8 → BitVec 8
  tx_power_stbc : BitVec 8 → BitVec 8
  paprd_training_power : BitVec 32
  eepVersion : ℕ
  ht40PowerIncForPdadc : Bool → BitVec 8
  pwrTableOffset : BitVec 8
  olPwrctrl : Bool
  hw_value : Bool → ℕ → ℕ
  hw_value_short : Bool → ℕ → ℕ

def AR_SREV_9280_20_OR_LATER (ah : Hw) : Bool := 0x80 ≤ ah.macVersion
def AR_SREV_9285 (ah : Hw) : Bool := ah.macVersion = 0xC0
def AR_SREV_9287 (ah : Hw) : Bool := ah.macVersion = 0x180
def AR_SREV_9271 (ah : Hw) : Bool := ah.macVersion = 0x140
def AR_SREV_9300_20_OR_LATER (ah : Hw) : Bool := 0x1c0 ≤ ah.macVersion

/-- An entry of a rate series. -/
structure Rate where
  idx : ℤ
  count : ℕ
  mcs : Bool
  width_40_mhz : Bool
  short_preamble : Bool

/-- `ath_buf`, with what is read of its frame. -/
structure Buf where
  frame : Frame
  tx_power : BitVec 8
  band_2ghz : Bool
  stbc : Bool
  paprd : Bool
  rates : Vector Rate 4

/-- `min_t(u8, a, b)`. -/
def minU8 (a b : BitVec 8) : BitVec 8 := if a ≤ b then a else b

/-- The power of a frame before the AR9300: corrected by the EEPROM, not below 0, and cut
to eight bits. -/
def eepromPower (ah : Hw) (bf : Buf) (is_40 is_cck : Bool) : BitVec 8 :=
  let txpower : ℤ := bf.tx_power.toNat
  let txpower :=
    if is_40 then
      txpower + (if 2 ≤ ah.eepVersion &&& 0x0FFF then (ah.ht40PowerIncForPdadc bf.band_2ghz).toNat
        else 2)
    else txpower
  let txpower :=
    if AR_SREV_9287 ah || AR_SREV_9285 ah || AR_SREV_9271 ah then txpower - 2 * -5
    else if AR_SREV_9280_20_OR_LATER ah then txpower - 2 * ah.pwrTableOffset.toInt
    else txpower
  let txpower := if (AR_SREV_9280_20_OR_LATER ah && ah.olPwrctrl) && is_cck then txpower - 2 else txpower
  BitVec.ofInt 8 (max txpower 0)

def ath_get_rate_txpower (sc : Softc) (ah : Hw) (bf : Buf) (rateidx : BitVec 8)
    (is_40 is_cck : Bool) : BitVec 8 :=
  if sc.tx99_state || !sc.tpc_enabled then MAX_RATE_POWER
  else if !AR_SREV_9300_20_OR_LATER ah then
    let max_power := minU8 (ah.tx_power rateidx) (eepromPower ah bf is_40 is_cck)
    -- frames with power 0 would go out at full power
    if max_power = 0 ∧ AR_SREV_9280_20_OR_LATER ah = false then 1 else max_power
  else if !bf.paprd then
    if rateidx < 8 ∧ bf.stbc then minU8 (ah.tx_power_stbc rateidx) bf.tx_power
    else minU8 (ah.tx_power rateidx) bf.tx_power
  else ah.paprd_training_power.setWidth 8

def IS_CCK_RATE (rate : ℕ) : Bool := 0x18 ≤ rate && rate ≤ 0x1e

/-- `info->rates[i].Rate` of a legacy rate. -/
def legacyRate (ah : Hw) (bf : Buf) (r : Rate) : ℕ :=
  let hw_value := ah.hw_value bf.band_2ghz r.idx.toNat
  let hw_value_short := ah.hw_value_short bf.band_2ghz r.idx.toNat
  if hw_value_short ≠ 0 ∧ r.short_preamble then hw_value ||| hw_value_short else hw_value

/-- The limit of an entry. -/
def rateLimit (sc : Softc) (ah : Hw) (bf : Buf) (r : Rate) : BitVec 8 :=
  let rix := BitVec.ofInt 8 r.idx
  if r.mcs then ath_get_rate_txpower sc ah bf rix r.width_40_mhz false
  else ath_get_rate_txpower sc ah bf rix false (IS_CCK_RATE (legacyRate ah bf r))

/-- Entries that are not used are passed over. -/
def used (r : Rate) : Bool := r.count ≠ 0 && 0 ≤ r.idx

/-- `ath_buf_set_rate` as far as `info->txpower` goes. -/
def ath_buf_set_rate (sc : Softc) (ah : Hw) (bf : Buf) (txpower : Vector (BitVec 8) 4) :
    Vector (BitVec 8) 4 :=
  Vector.zipWith (fun r old =>
    if used r then
      if r.mcs then
        let power := ath_get_rate_txpower sc ah bf (BitVec.ofInt 8 r.idx) r.width_40_mhz false
        ath_overwrite_rate_txpower sc bf.frame power
      else
        let is_cck := IS_CCK_RATE (legacyRate ah bf r)
        let power := ath_get_rate_txpower sc ah bf (BitVec.ofInt 8 r.idx) false is_cck
        ath_overwrite_rate_txpower sc bf.frame power
    else old) bf.rates txpower

/-- The power of the table for a frame. -/
def tablePower (sc : Softc) (frame : Frame) : Option (BitVec 8) :=
  powerAt sc.per_flow_txpower (frameMark frame)

/-- A stored power respects the limit: it does not exceed it, and it is the power of the
table where that is lower and not 0. -/
def Respects (stored limit : BitVec 8) (table : Option (BitVec 8)) : Prop :=
  stored ≤ limit ∧ ∀ power, table = some power → power < limit → power ≠ 0 → stored = power

/-- With power control the table stays within the limit; without it, or in tx99 mode, it asks
for nothing below the full power. -/
def WithinLimit (sc : Softc) (limit : BitVec 8) (table : Option (BitVec 8)) : Prop :=
  ∀ power, table = some power →
    if sc.tx99_state || !sc.tpc_enabled then power = 0 ∨ MAX_RATE_POWER ≤ power else power ≤ limit

theorem overwrite_eq (sc : Softc) (frame : Frame) (old : BitVec 8) :
    ath_overwrite_rate_txpower sc frame old =
      if sc.tx99_state || !sc.tpc_enabled then MAX_RATE_POWER
      else (tablePower sc frame).getD old := by
  unfold ath_overwrite_rate_txpower tablePower powerAt
  split
  · rfl
  · cases sc.per_flow_txpower.find? (fun tmp => tmp.mark = frameMark frame) with
    | none => rfl
    | some tmp => rfl

/-- A used entry stores what is left of its limit. -/
theorem set_rate_used {sc : Softc} {ah : Hw} {bf : Buf} (txpower : Vector (BitVec 8) 4) (i : Fin 4)
    (hused : used (bf.rates.get i) = true) :
    (ath_buf_set_rate sc ah bf txpower).get i =
      ath_overwrite_rate_txpower sc bf.frame (rateLimit sc ah bf (bf.rates.get i)) := by
  have hused' : used bf.rates[i.val] = true := hused
  change (ath_buf_set_rate sc ah bf txpower)[i.val] = _
  rw [ath_buf_set_rate, Vector.getElem_zipWith, if_pos hused', rateLimit]
  change (if bf.rates[i.val].mcs then _ else _) =
    ath_overwrite_rate_txpower sc bf.frame (if bf.rates[i.val].mcs then _ else _)
  split
  · rfl
  · rfl

theorem limit_of_off {sc : Softc} {ah : Hw} {bf : Buf} {r : Rate}
    (h : (sc.tx99_state || !sc.tpc_enabled) = true) : rateLimit sc ah bf r = MAX_RATE_POWER := by
  unfold rateLimit ath_get_rate_txpower
  rw [h]
  dsimp only
  split
  · rfl
  · rfl

theorem respects_iff (sc : Softc) (ah : Hw) (bf : Buf) (r : Rate) :
    Respects (ath_overwrite_rate_txpower sc bf.frame (rateLimit sc ah bf r))
        (rateLimit sc ah bf r) (tablePower sc bf.frame) ↔
      WithinLimit sc (rateLimit sc ah bf r) (tablePower sc bf.frame) := by
  rw [overwrite_eq, Respects, WithinLimit]
  by_cases hoff : (sc.tx99_state || !sc.tpc_enabled) = true
  · rw [limit_of_off hoff]
    simp only [hoff, if_true]
    constructor
    · rintro ⟨-, hlower⟩ power hpower
      by_contra hno
      rw [not_or, BitVec.not_le] at hno
      have heq := hlower power hpower hno.2 hno.1
      rw [← heq] at hno
      exact absurd hno.2 (by decide)
    · intro hwithin
      refine ⟨BitVec.le_refl _, ?_⟩
      intro power hpower hlt hne
      rcases hwithin power hpower with hzero | hfull
      · exact absurd hzero hne
      · exact absurd hlt (BitVec.not_lt.mpr hfull)
  · simp only [hoff, if_false, Bool.false_eq_true]
    cases htable : tablePower sc bf.frame with
    | none =>
      constructor
      · intro _ power hpower
        cases hpower
      · intro _
        refine ⟨BitVec.le_refl _, ?_⟩
        intro power hpower
        cases hpower
    | some power =>
      constructor
      · rintro ⟨hle, -⟩ power' hpower
        cases hpower
        exact hle
      · intro hwithin
        refine ⟨hwithin power rfl, ?_⟩
        intro power' hpower _ _
        exact Option.some.inj hpower

/-- For every frame, hardware and table: the powers stored for the used entries of the rate
series respect their limits if and only if the table's power for the frame is within the
limit of each of them. -/
theorem stored_power_iff (sc : Softc) (ah : Hw) (bf : Buf) (txpower : Vector (BitVec 8) 4) :
    (∀ i, used (bf.rates.get i) = true →
      Respects ((ath_buf_set_rate sc ah bf txpower).get i)
        (rateLimit sc ah bf (bf.rates.get i)) (tablePower sc bf.frame)) ↔
      ∀ i, used (bf.rates.get i) = true →
        WithinLimit sc (rateLimit sc ah bf (bf.rates.get i)) (tablePower sc bf.frame) := by
  constructor
  · intro hall i hused
    have hrespects := hall i hused
    rw [set_rate_used txpower i hused] at hrespects
    exact (respects_iff sc ah bf (bf.rates.get i)).mp hrespects
  · intro hall i hused
    rw [set_rate_used txpower i hused]
    exact (respects_iff sc ah bf (bf.rates.get i)).mpr (hall i hused)

/-- An AR9300 whose limit is 20 dBm for every rate. -/
def ar9300 : Hw :=
  { macVersion := 0x1c0, tx_power := fun _ => 40, tx_power_stbc := fun _ => 40,
    paprd_training_power := 0, eepVersion := 0, ht40PowerIncForPdadc := fun _ => 0,
    pwrTableOffset := 0, olPwrctrl := false, hw_value := fun _ _ => 0x1b,
    hw_value_short := fun _ _ => 0 }

/-- The table after `echo "10002 100 0"`. -/
def fiftyDbm : Softc :=
  { tx99_state := false, tpc_enabled := true, per_flow_txpower := [⟨10002, 100, 0⟩] }

/-- A probe response with a legacy rate. -/
def probeResponse : Buf :=
  { frame := { probe_resp := true, injected := false, mark := 0 }, tx_power := 40,
    band_2ghz := true, stbc := false, paprd := false,
    rates := Vector.replicate 4
      { idx := 0, count := 1, mcs := false, width_40_mhz := false, short_preamble := false } }

theorem limit_exceeded :
    ¬∀ (sc : Softc) (ah : Hw) (bf : Buf) (txpower : Vector (BitVec 8) 4) (i : Fin 4),
      used (bf.rates.get i) = true →
        Respects ((ath_buf_set_rate sc ah bf txpower).get i)
          (rateLimit sc ah bf (bf.rates.get i)) (tablePower sc bf.frame) := by
  intro hall
  have hle := (hall fiftyDbm ar9300 probeResponse (Vector.replicate 4 0) 0 (by decide)).1
  rw [set_rate_used _ 0 (by decide)] at hle
  revert hle
  decide

end Nxwlan.TxPowerLimit
