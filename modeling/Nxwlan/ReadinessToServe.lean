import Nxwlan.ProbePower
import Nxwlan.StationDumps
import Mathlib.Data.Rat.Floor

/-!
The power map of the cran application. One thread samples the bytes sent to each
associated station, a probe request then asks for the rates of the stations that were
sampled and may have left. The rates come from a new station dump each, where
everything that cannot be found or read counts as a rate of 0.
-/
namespace Nxwlan.ReadinessToServe

open PyText JsonFrames StationDumps ProbePower

/-! `float`, without the texts for infinity and not-a-number that iw does not print. -/

def readMantissa (s : Text) : Option ℚ :=
  match cut ['.'] s with
  | none => (readNat s).map (fun n => (n : ℚ))
  | some (a, b) => (readNat (a ++ b)).map (fun n => (n : ℚ) / 10 ^ b.length)

def readExponent : Text → Option ℤ
  | '-' :: t => (readNat t).map (fun n => -(n : ℤ))
  | '+' :: t => (readNat t).map (fun n => (n : ℤ))
  | t => (readNat t).map (fun n => (n : ℤ))

def readUnsigned (s : Text) : Option ℚ :=
  match cut ['e'] (s.map Char.toLower) with
  | none => readMantissa s
  | some (a, b) => do
      let mantissa ← readMantissa a
      let exponent ← readExponent b
      pure (mantissa * 10 ^ exponent)

/-- `float(s)`; `none` where a ValueError is raised. -/
def readFloat (s : Text) : Option ℚ :=
  match strip s with
  | '-' :: t => (readUnsigned t).map (fun x => -x)
  | '+' :: t => readUnsigned t
  | t => readUnsigned t

/-! What the connector says about a station. A dump is the result of
`getInfoOfAssociatedSTAs`. -/

/-- `tmp[mac_addr][key]`. -/
def entryOf (tmp : Stations) (mac_addr key : Text) : Option (Text × Option Text) :=
  (tmp.lookup mac_addr).bind (fun stats => stats.lookup key)

def getTxBitrateStation (dump : Option Stations) (mac_addr : Text) : ℚ :=
  match dump with
  | none => 0
  | some tmp =>
    match entryOf tmp mac_addr "tx bitrate".toList with
    | none => 0
    | some entry => (readFloat entry.1).getD 0

def getMACTxBytesStation (dump : Option Stations) (mac_addr : Text) :
    Except PyError (Option ℚ) :=
  match dump with
  | none => .ok (some 0)
  | some tmp =>
    match entryOf tmp mac_addr "tx bytes".toList with
    | none => .error .keyError
    | some entry =>
      match readFloat entry.1 with
      | none => .error .valueError
      | some bytes => .ok (some bytes)

def getMacAddrAssociatedClients (dump : Option Stations) : Option (List Text) :=
  dump.map AList.keys

/-! The thread that samples. -/

def MOV_AVG_WND : ℕ := 5

/-- `append` to a deque of at most `MOV_AVG_WND` values. -/
def push (v : List ℚ) (x : ℚ) : List ℚ := (v ++ [x]).drop ((v ++ [x]).length - MOV_AVG_WND)

/-- `tbl`: the last samples of each client, in bits. -/
abbrev Table := AList (fun _ : Text => List ℚ)

/-- Where `run` stands in a round; `ended` after an exception. -/
inductive Place where
  | top
  | joining (todo client_addrs : List Text)
  | sampling (todo : List Text)
  | ended

structure Collector where
  tbl : Table := ∅
  place : Place := .top

/-- One sample of a client. The branch without bytes deletes the client. -/
def Collector.sample (c : Collector) (client_addr : Text) (todo : List Text)
    (cl_tx_bytes : Except PyError (Option ℚ)) : Collector :=
  match cl_tx_bytes, c.tbl.lookup client_addr with
  | .ok (some bytes), some v =>
    { tbl := c.tbl.insert client_addr (push v (bytes * 8)), place := .sampling todo }
  | .ok none, some _ => { tbl := c.tbl.erase client_addr, place := .sampling todo }
  | _, _ => { c with place := .ended }

/-- One step of `run`, with the dump that it gets if it asks for one. -/
def Collector.step (c : Collector) (dump : Option Stations) : Collector :=
  match c.place with
  | .top =>
    match getMacAddrAssociatedClients dump with
    | none => { c with place := .ended }
    | some client_addrs => { c with place := .joining client_addrs client_addrs }
  | .joining [] client_addrs => { c with place := .sampling client_addrs }
  | .joining (client_addr :: todo) client_addrs =>
    { tbl := if client_addr ∈ c.tbl then c.tbl else c.tbl.insert client_addr []
      place := .joining todo client_addrs }
  | .sampling [] => { c with place := .top }
  | .sampling (client_addr :: todo) =>
    c.sample client_addr todo (getMACTxBytesStation dump client_addr)
  | .ended => c

/-- The thread after some steps. -/
def Collector.run (dumps : List (Option Stations)) : Collector := dumps.foldl Collector.step {}

/-! The power map. -/

/-- The order in which a dictionary is walked. -/
structure DictOrder (K : Type) where
  walk : List K → List K
  perm : ∀ keys, (walk keys).Perm keys

def sample_interval : ℚ := 1

def mac_thr_values (v : List ℚ) : List ℚ :=
  List.zipWith (fun next cur => (next - cur) / sample_interval) v.tail v

def mac_txrate_avg (v : List ℚ) : ℚ :=
  (mac_thr_values v).sum / (mac_thr_values v).length / 10 ^ 6

def min_client_avg_tx_rate_mbps : ℚ := 0

/-- A client whose rate is asked for. -/
def Counted (v : List ℚ) : Prop :=
  mac_thr_values v ≠ [] ∧ min_client_avg_tx_rate_mbps ≤ mac_txrate_avg v

instance (v : List ℚ) : Decidable (Counted v) := inferInstanceAs (Decidable (_ ∧ _))

def data_rate_sensitivity_tbl : List (ℚ × ℚ) :=
  [(6, -86), (9, -84), (12, -82), (18, -80), (24, -77), (36, -74), (48, -72), (54, -70)]

/-- `get_phy_bitrate` of a table. -/
def phyBitrate (tbl : List (ℚ × ℚ)) (rx_signal best_rate : ℚ) : ℚ :=
  tbl.foldl (fun best_rate entry =>
    if entry.2 ≤ rx_signal then (if best_rate < entry.1 then entry.1 else best_rate)
    else best_rate) best_rate

def get_phy_bitrate (rx_signal : ℚ) : ℚ := phyBitrate data_rate_sensitivity_tbl rx_signal 1

/-- The clients that are counted, in the order of the table. -/
def countedClients (order : DictOrder Text) (tbl : Table) : List Text :=
  (order.walk tbl.keys).filter (fun client_addr => Counted ((tbl.lookup client_addr).getD []))

/-- The rates passed to the estimator: those of the counted clients, each from a dump of
its own, and the one expected of the newcomer. -/
def phy_rate_tbl (order : DictOrder Text) (tbl : Table) (dumps : Text → Option Stations)
    (new_client_preq_rx_dbm : ℚ) : List ℚ :=
  (countedClients order tbl).map (fun client_addr =>
    getTxBitrateStation (dumps client_addr) client_addr) ++ [get_phy_bitrate new_client_preq_rx_dbm]

/-- The application; of the announced backhauls only the senders are used. -/
structure App where
  hostname : String
  infoAvBackhaulMap : List String

abbrev PowerMap := AList (fun _ : String => ℚ)

def my_av_dl : ℚ := 50 * 10 ^ 6

def own_av_dl (hostname : String) : ℚ := if hostname = "XXXXXXXX" then 10 ^ 3 else my_av_dl

/-- The same for every neighbor, since what they announce is not used. -/
def bottleneck_rate : ℚ := min (min (50 * 10 ^ 6) (50 * 10 ^ 6)) my_av_dl

def neighborPowers (rates : List ℚ) (p_rx_dbm : ℚ) :
    List String → PowerMap → Except Failure PowerMap
  | [], powers => .ok powers
  | nb :: rest, powers =>
      match replyPower capacity_est p_ctrl rates bottleneck_rate p_rx_dbm with
      | .error e => .error e
      | .ok power => neighborPowers rates p_rx_dbm rest (powers.insert nb power)

def calculate_preply_tx_power (app : App) (order : DictOrder Text) (tbl : Table)
    (dumps : Text → Option Stations) (new_client_preq_rx_dbm : ℚ) : Except Failure PowerMap :=
  let rates := phy_rate_tbl order tbl dumps new_client_preq_rx_dbm
  match replyPower capacity_est p_ctrl rates (own_av_dl app.hostname) new_client_preq_rx_dbm with
  | .error e => .error e
  | .ok power =>
    neighborPowers rates new_client_preq_rx_dbm app.infoAvBackhaulMap
      ((∅ : PowerMap).insert app.hostname power)

section PowerMaps

variable {app : App} {order : DictOrder Text} {tbl : Table} {dumps : Text → Option Stations}
  {p : ℚ} {rates : List ℚ}

theorem mem_countedClients {client_addr : Text} : client_addr ∈ countedClients order tbl ↔
    ∃ v, tbl.lookup client_addr = some v ∧ Counted v := by
  rw [countedClients, List.mem_filter, (order.perm tbl.keys).mem_iff, ← AList.mem_keys,
    ← AList.lookup_isSome, Option.isSome_iff_exists]
  constructor
  · rintro ⟨⟨v, hv⟩, hcounted⟩
    rw [hv] at hcounted
    exact ⟨v, hv, by simpa using hcounted⟩
  · rintro ⟨v, hv, hcounted⟩
    exact ⟨⟨v, hv⟩, by simpa [hv] using hcounted⟩

theorem le_phyBitrate (entries : List (ℚ × ℚ)) (rx_signal best_rate : ℚ) :
    best_rate ≤ phyBitrate entries rx_signal best_rate := by
  induction entries generalizing best_rate with
  | nil => exact le_refl _
  | cons entry entries ih =>
    rw [phyBitrate, List.foldl_cons]
    refine le_trans ?_ (ih _)
    split_ifs with hlevel hrate
    · exact hrate.le
    · exact le_refl _
    · exact le_refl _

theorem get_phy_bitrate_pos (rx_signal : ℚ) : 0 < get_phy_bitrate rx_signal :=
  lt_of_lt_of_le one_pos (le_phyBitrate data_rate_sensitivity_tbl rx_signal 1)

/-- The dump has a positive rate of the station. -/
def Reported (dump : Option Stations) (client_addr : Text) : Prop :=
  ∃ tmp entry rate, dump = some tmp ∧ entryOf tmp client_addr "tx bitrate".toList = some entry ∧
    readFloat entry.1 = some rate ∧ 0 < rate

theorem getTxBitrateStation_pos_iff {dump : Option Stations} {client_addr : Text} :
    0 < getTxBitrateStation dump client_addr ↔ Reported dump client_addr := by
  constructor
  · intro h
    cases dump with
    | none => exact absurd h (lt_irrefl 0)
    | some tmp =>
      rw [getTxBitrateStation] at h
      cases hentry : entryOf tmp client_addr "tx bitrate".toList with
      | none =>
        rw [hentry] at h
        exact absurd h (lt_irrefl 0)
      | some entry =>
        rw [hentry] at h
        cases hrate : readFloat entry.1 with
        | none => simp [hrate] at h
        | some rate => exact ⟨tmp, entry, rate, rfl, hentry, hrate, by simpa [hrate] using h⟩
  · rintro ⟨tmp, entry, rate, rfl, hentry, hrate, hpos⟩
    rw [getTxBitrateStation, hentry]
    simpa [hrate] using hpos

theorem phy_rate_tbl_pos_iff : (∀ r ∈ phy_rate_tbl order tbl dumps p, 0 < r) ↔
    ∀ client_addr v, tbl.lookup client_addr = some v → Counted v →
      Reported (dumps client_addr) client_addr := by
  constructor
  · intro h client_addr v hv hcounted
    rw [← getTxBitrateStation_pos_iff]
    apply h
    apply List.mem_append_left
    exact List.mem_map_of_mem (mem_countedClients.mpr ⟨v, hv, hcounted⟩)
  · intro h r hr
    rcases List.mem_append.mp hr with hr | hr
    · obtain ⟨client_addr, hmem, rfl⟩ := List.mem_map.mp hr
      obtain ⟨v, hv, hcounted⟩ := mem_countedClients.mp hmem
      exact getTxBitrateStation_pos_iff.mpr (h client_addr v hv hcounted)
    · rw [List.mem_singleton.mp hr]
      exact get_phy_bitrate_pos p

theorem phy_rate_tbl_ne_nil : phy_rate_tbl order tbl dumps p ≠ [] := by simp [phy_rate_tbl]

/-- The power of a reply for the given backhaul. -/
def powerFor (rates : List ℚ) (b p : ℚ) : ℚ := p_ctrl.tx_power_dbm_adapted p (share capacity_est rates b)

theorem replyPower_app {b : ℚ} (hb : 0 < b) (hne : rates ≠ []) (h : ∀ r ∈ rates, 0 < r) :
    replyPower capacity_est p_ctrl rates b p = .ok (powerFor rates b p) :=
  replyPower_eq (by norm_num [capacity_est]) (by norm_num [p_ctrl]) (by norm_num [p_ctrl]) hb p
    hne h

theorem bottleneck_rate_pos : 0 < bottleneck_rate := by norm_num [bottleneck_rate, my_av_dl]

theorem own_av_dl_pos (hostname : String) : 0 < own_av_dl hostname := by
  rw [own_av_dl]
  split
  · norm_num
  · norm_num [my_av_dl]

theorem neighborPowers_eq (hne : rates ≠ []) (h : ∀ r ∈ rates, 0 < r) (nbs : List String)
    (powers : PowerMap) : ∃ powers', neighborPowers rates p nbs powers = .ok powers' ∧
      ∀ key, powers'.lookup key =
        if key ∈ nbs then some (powerFor rates bottleneck_rate p) else powers.lookup key := by
  induction nbs generalizing powers with
  | nil => exact ⟨powers, rfl, fun key => by simp⟩
  | cons nb nbs ih =>
    obtain ⟨powers', hpowers, hlook⟩ := ih (powers.insert nb (powerFor rates bottleneck_rate p))
    refine ⟨powers', ?_, ?_⟩
    · rw [neighborPowers, replyPower_app bottleneck_rate_pos hne h]
      exact hpowers
    · intro key
      rw [hlook]
      by_cases hkey : key = nb
      · subst hkey
        simp
      · rw [AList.lookup_insert_ne hkey]
        simp [hkey]

/-- With positive rates there is a map: an entry for each neighbor and the own one, unless a
neighbor has the same name. -/
theorem calculate_preply_tx_power_eq (h : ∀ r ∈ phy_rate_tbl order tbl dumps p, 0 < r) :
    ∃ powers, calculate_preply_tx_power app order tbl dumps p = .ok powers ∧
      ∀ key, powers.lookup key =
        if key ∈ app.infoAvBackhaulMap then
          some (powerFor (phy_rate_tbl order tbl dumps p) bottleneck_rate p)
        else if key = app.hostname then
          some (powerFor (phy_rate_tbl order tbl dumps p) (own_av_dl app.hostname) p)
        else none := by
  obtain ⟨powers, hpowers, hlook⟩ := neighborPowers_eq (p := p) phy_rate_tbl_ne_nil h
    app.infoAvBackhaulMap ((∅ : PowerMap).insert app.hostname
      (powerFor (phy_rate_tbl order tbl dumps p) (own_av_dl app.hostname) p))
  refine ⟨powers, ?_, ?_⟩
  · rw [calculate_preply_tx_power, replyPower_app (own_av_dl_pos _) phy_rate_tbl_ne_nil h]
    exact hpowers
  · intro key
    rw [hlook]
    by_cases hkey : key = app.hostname
    · subst hkey
      rw [AList.lookup_insert, if_pos rfl]
    · rw [AList.lookup_insert_ne hkey, if_neg hkey, AList.lookup_empty]

theorem calculate_preply_tx_power_zero (h : 0 ∈ phy_rate_tbl order tbl dumps p) :
    calculate_preply_tx_power app order tbl dumps p = .error .zeroDivision := by
  rw [calculate_preply_tx_power, replyPower, get_normalized, calc_zero _ h]
  rfl

end PowerMaps

/-- After any steps of the sampling thread, a probe request gets its power map from positive
rates when each client that is counted is still reported with one, and only then. -/
theorem power_map_iff (run : List (Option Stations)) (app : App) (order : DictOrder Text)
    (dumps : Text → Option Stations) (p : ℚ) :
    ((∃ powers, calculate_preply_tx_power app order (Collector.run run).tbl dumps p = .ok powers) ∧
      ∀ r ∈ phy_rate_tbl order (Collector.run run).tbl dumps p, 0 < r) ↔
    ∀ client_addr v, (Collector.run run).tbl.lookup client_addr = some v → Counted v →
      Reported (dumps client_addr) client_addr := by
  rw [← @phy_rate_tbl_pos_iff order (Collector.run run).tbl dumps p]
  constructor
  · exact fun h => h.2
  · intro h
    obtain ⟨powers, hpowers, -⟩ := @calculate_preply_tx_power_eq app _ _ _ _ h
    exact ⟨⟨powers, hpowers⟩, h⟩

/-- A dump with one station and the bytes sent to it. -/
def oneClient (bytes : Text) : Option Stations :=
  some ((∅ : Stations).insert "b8:a3".toList ((∅ : Stats).insert "tx bytes".toList (bytes, none)))

/-- Two rounds that sample it. -/
def twoSamples : List (Option Stations) :=
  List.replicate 5 (oneClient "1000".toList) ++ List.replicate 4 (oneClient "2000".toList)

def plainOrder : DictOrder Text := ⟨id, fun _ => List.Perm.refl _⟩

theorem twoSamples_counted :
    countedClients plainOrder (Collector.run twoSamples).tbl = ["b8:a3".toList] := by
  decide +kernel

/-- The station has left by the time of the probe request. -/
theorem departed_client_divides_by_zero :
    calculate_preply_tx_power ⟨"10.0.0.1", []⟩ plainOrder (Collector.run twoSamples).tbl
      (fun _ => some ∅) (-60) = .error .zeroDivision ∧
    0 ∈ phy_rate_tbl plainOrder (Collector.run twoSamples).tbl (fun _ => some ∅) (-60) := by
  have hzero : 0 ∈ phy_rate_tbl plainOrder (Collector.run twoSamples).tbl (fun _ => some ∅) (-60) := by
    rw [phy_rate_tbl, twoSamples_counted]
    exact List.mem_cons_self
  exact ⟨calculate_preply_tx_power_zero hzero, hzero⟩

end Nxwlan.ReadinessToServe
