import Nxwlan.ReadinessToServe

/-!
The values that the cran application writes for probe replies. The power map has an entry
under the name of the application and one for each neighbor, but the callback looks for
the own entry under the name of the agent, and starts from 20 dBm on both sides.
-/
namespace Nxwlan.ProbeReplies

open PyText StationDumps ProbePower ReadinessToServe

/-- `int(x)`. -/
def truncate (x : ℚ) : ℤ := if 0 ≤ x then ⌊x⌋ else ⌈x⌉

/-- A line written to the table of powers per flow. -/
structure FlowWrite where
  mark : ℕ
  power : ℤ
  deriving DecidableEq

def FlowWrite.command (w : FlowWrite) : Text :=
  "sudo bash -c 'echo \"".toList ++ showInt w.mark ++ [' '] ++ showInt w.power ++
    " 0\" > /sys/kernel/debug/ieee80211/phy0/ath9k/per_flow_tx_power'".toList

example : (FlowWrite.mk 10002 32).command = ("sudo bash -c 'echo \"10002 32 0\" > " ++
    "/sys/kernel/debug/ieee80211/phy0/ath9k/per_flow_tx_power'").toList := by
  decide +kernel

/-- The two commands, home first. -/
def set_proberesponse_TXPWR (homepwr neighborpwr : ℚ) : List FlowWrite :=
  [⟨10002, truncate (homepwr * 2)⟩, ⟨10001, truncate (neighborpwr * 2)⟩]

/-- The application with what the callback asks of its agent. -/
structure ResFiApp extends App where
  getNodeID : String
  startTime : Option ℚ

/-- 30 seconds have passed since the start. -/
def ResFiApp.started (app : ResFiApp) (now : ℚ) : Bool :=
  match app.startTime with
  | none => false
  | some t => !(t == 0) && !(now - t < 30)

/-- One pass of the loop over the power map. -/
def pick (nodeID : String) (powers : PowerMap) (pwr : ℚ × ℚ) (key : String) : ℚ × ℚ :=
  let power := (powers.lookup key).getD 0
  if key = nodeID then (power, pwr.2) else (pwr.1, power)

/-- `homepwr` and `neighborpwr` after the loop. -/
def pickPowers (nodeID : String) (powers : PowerMap) (keys : List String) : ℚ × ℚ :=
  keys.foldl (pick nodeID powers) (20, 20)

/-- What is written for a probe request; `none` after an exception. -/
def probeReqRec_cb (app : ResFiApp) (clients : DictOrder Text) (order : DictOrder String)
    (tbl : Table) (dumps : Text → Option Stations) (now : ℚ) (payload rssi : Text) :
    Option (List FlowWrite) :=
  if contains "EC1F72820956".toList payload = false then some []
  else if app.started now = false then some []
  else
    match readFloat rssi with
    | none => none
    | some p_rx_dbm =>
      match calculate_preply_tx_power app.toApp clients tbl dumps p_rx_dbm with
      | .error _ => none
      | .ok probe_reply_tx_power =>
        let pwr := pickPowers app.getNodeID probe_reply_tx_power
          (order.walk probe_reply_tx_power.keys)
        some (set_proberesponse_TXPWR pwr.1 pwr.2)

/-- The two values are within the range of the controller, the one twice the own entry of
the map and the other twice the entry of a neighbor. -/
def RegistersRight (app : ResFiApp) (powers : PowerMap) (writes : List FlowWrite) : Prop :=
  ∃ home neighbor own key power, writes = [⟨10002, home⟩, ⟨10001, neighbor⟩] ∧
    (2 ≤ home ∧ (home : ℚ) ≤ 2 * p_ctrl.max_tx_power_dbm) ∧
    (2 ≤ neighbor ∧ (neighbor : ℚ) ≤ 2 * p_ctrl.max_tx_power_dbm) ∧
    powers.lookup app.hostname = some own ∧ home = ⌊2 * own⌋ ∧
    key ≠ app.hostname ∧ powers.lookup key = some power ∧ neighbor = ⌊2 * power⌋

section Picked

variable {nodeID : String} {powers : PowerMap}

theorem pick_home (keys : List String) (pwr : ℚ × ℚ) :
    (keys.foldl (pick nodeID powers) pwr).1 =
      if nodeID ∈ keys then (powers.lookup nodeID).getD 0 else pwr.1 := by
  induction keys generalizing pwr with
  | nil => rfl
  | cons key keys ih =>
    rw [List.foldl_cons, ih]
    by_cases hkey : key = nodeID
    · subst hkey
      simp [pick]
    · have hne : nodeID ≠ key := fun h => hkey h.symm
      simp [pick, hkey, hne]

/-- The other power is the one of the last key that is not the agent's. -/
theorem pick_neighbor (keys : List String) (pwr : ℚ × ℚ) :
    ((∀ key ∈ keys, key = nodeID) ∧ (keys.foldl (pick nodeID powers) pwr).2 = pwr.2) ∨
      ∃ key ∈ keys, key ≠ nodeID ∧
        (keys.foldl (pick nodeID powers) pwr).2 = (powers.lookup key).getD 0 := by
  induction keys generalizing pwr with
  | nil => exact Or.inl ⟨fun key hkey => absurd hkey List.not_mem_nil, rfl⟩
  | cons key keys ih =>
    rw [List.foldl_cons]
    rcases ih (pick nodeID powers pwr key) with ⟨hall, hsame⟩ | ⟨other, hmem, hne, hlast⟩
    · by_cases hkey : key = nodeID
      · refine Or.inl ⟨List.forall_mem_cons.mpr ⟨hkey, hall⟩, ?_⟩
        rw [hsame, pick, if_pos hkey]
      · refine Or.inr ⟨key, List.mem_cons_self, hkey, ?_⟩
        rw [hsame, pick, if_neg hkey]
    · exact Or.inr ⟨other, List.mem_cons_of_mem key hmem, hne, hlast⟩

end Picked

/-! The values. -/

theorem truncate_double {x : ℚ} (h : 1 ≤ x) : truncate (x * 2) = ⌊2 * x⌋ := by
  rw [truncate, if_pos (by linarith), mul_comm]

/-- Twice a power of the controller, rounded down. -/
theorem double_in_range {x : ℚ} (hone : 1 ≤ x) (hmax : x ≤ p_ctrl.max_tx_power_dbm) :
    2 ≤ ⌊2 * x⌋ ∧ ((⌊2 * x⌋ : ℤ) : ℚ) ≤ 2 * p_ctrl.max_tx_power_dbm := by
  constructor
  · rw [Int.le_floor]
    push_cast
    linarith
  · have hfloor : ((⌊2 * x⌋ : ℤ) : ℚ) ≤ 2 * x := Int.floor_le _
    linarith

/-- The powers at the start of the loop are above the range. -/
theorem default_above : truncate (20 * 2) = 40 ∧ ¬ ((40 : ℤ) : ℚ) ≤ 2 * p_ctrl.max_tx_power_dbm := by
  constructor
  · norm_num [truncate]
  · norm_num [p_ctrl]

section Callback

variable {app : ResFiApp} {clients : DictOrder Text} {order : DictOrder String} {tbl : Table}
  {dumps : Text → Option Stations} {now p : ℚ} {payload rssi : Text} {powers : PowerMap}

theorem powerFor_range {rates : List ℚ} {b : ℚ} (hb : 0 < b) (hne : rates ≠ [])
    (h : ∀ r ∈ rates, 0 < r) : 1 ≤ powerFor rates b p ∧
      powerFor rates b p ≤ p_ctrl.max_tx_power_dbm := by
  have hshare : 0 < share capacity_est rates b :=
    share_pos (by norm_num [capacity_est]) hb hne h
  exact ⟨one_le_adapted (by norm_num [p_ctrl]) (by norm_num [p_ctrl]) hshare.le, adapted_le⟩

/-- The entries of the map: the announced neighbors all have the same power. -/
structure Entries (app : ResFiApp) (powers : PowerMap) (own nb : ℚ) : Prop where
  announced : ∀ key ∈ app.infoAvBackhaulMap, powers.lookup key = some nb
  hostname : app.hostname ∉ app.infoAvBackhaulMap → powers.lookup app.hostname = some own
  keys : ∀ key, key ∈ powers.keys ↔ key ∈ app.infoAvBackhaulMap ∨ key = app.hostname

theorem callback_writes (hpayload : contains "EC1F72820956".toList payload = true)
    (hstart : app.started now = true) (hrssi : readFloat rssi = some p)
    (hrates : ∀ r ∈ phy_rate_tbl clients tbl dumps p, 0 < r) :
    ∃ powers, calculate_preply_tx_power app.toApp clients tbl dumps p = .ok powers ∧
      Entries app powers (powerFor (phy_rate_tbl clients tbl dumps p) (own_av_dl app.hostname) p)
        (powerFor (phy_rate_tbl clients tbl dumps p) bottleneck_rate p) ∧
      probeReqRec_cb app clients order tbl dumps now payload rssi =
        some (set_proberesponse_TXPWR (pickPowers app.getNodeID powers (order.walk powers.keys)).1
          (pickPowers app.getNodeID powers (order.walk powers.keys)).2) := by
  obtain ⟨powers, hpowers, hlook⟩ := @calculate_preply_tx_power_eq app.toApp _ _ _ _ hrates
  refine ⟨powers, hpowers, ⟨?_, ?_, ?_⟩, ?_⟩
  · intro key hkey
    rw [hlook, if_pos hkey]
  · intro hhost
    rw [hlook, if_neg hhost, if_pos rfl]
  · intro key
    rw [AList.mem_keys.symm, ← AList.lookup_isSome, hlook]
    by_cases hkey : key ∈ app.infoAvBackhaulMap
    · simp [hkey]
    · by_cases hhost : key = app.hostname
      · rw [if_neg hkey, if_pos hhost]
        simp [hhost]
      · simp [hkey, hhost]
  · rw [probeReqRec_cb, hpayload, if_neg (by decide), hstart, if_neg (by decide), hrssi]
    simp only [hpowers]

/-- The entry of a key of the map. -/
theorem Entries.lookup {own nb : ℚ} (h : Entries app powers own nb) {key : String}
    (hkey : key ∈ powers.keys) : powers.lookup key = some nb ∨
      key = app.hostname ∧ key ∉ app.infoAvBackhaulMap ∧ powers.lookup key = some own := by
  by_cases hmem : key ∈ app.infoAvBackhaulMap
  · exact Or.inl (h.announced key hmem)
  · obtain rfl := ((h.keys key).mp hkey).resolve_left hmem
    exact Or.inr ⟨rfl, hmem, h.hostname hmem⟩

/-- What the names must be like. -/
def NamesRight (app : ResFiApp) (own nb : ℚ) : Prop :=
  (app.getNodeID = app.hostname ∧ ∃ key ∈ app.infoAvBackhaulMap, key ≠ app.hostname) ∨
    (app.getNodeID ≠ app.hostname ∧ app.getNodeID ∈ app.infoAvBackhaulMap ∧
      (app.hostname ∈ app.infoAvBackhaulMap ∨ ⌊2 * own⌋ = ⌊2 * nb⌋))

section Ranges

variable {own nb : ℚ} (hown : 1 ≤ own ∧ own ≤ p_ctrl.max_tx_power_dbm)
  (hnb : 1 ≤ nb ∧ nb ≤ p_ctrl.max_tx_power_dbm) (h : Entries app powers own nb)
include hown hnb h

theorem Entries.range {key : String} {power : ℚ} (hlook : powers.lookup key = some power) :
    1 ≤ power ∧ power ≤ p_ctrl.max_tx_power_dbm := by
  have hkey : key ∈ powers.keys := by
    rw [← AList.mem_keys, ← AList.lookup_isSome, hlook]
    rfl
  rcases h.lookup hkey with hnb' | ⟨-, -, hown'⟩
  · rw [hnb', Option.some.injEq] at hlook
    rwa [← hlook]
  · rw [hown', Option.some.injEq] at hlook
    rwa [← hlook]

/-- Two entries of the map are written right. -/
theorem Entries.right {own' power : ℚ} {key : String}
    (hhost : powers.lookup app.hostname = some own') (hkey : powers.lookup key = some power)
    (hne : key ≠ app.hostname) {x y : ℚ} (hx : 1 ≤ x) (hy : 1 ≤ y) (hhome : ⌊2 * x⌋ = ⌊2 * own'⌋)
    (hneighbor : ⌊2 * y⌋ = ⌊2 * power⌋) :
    RegistersRight app powers (set_proberesponse_TXPWR x y) := by
  have hrange := h.range hown hnb hhost
  have hrange' := h.range hown hnb hkey
  refine ⟨_, _, own', key, power, rfl, ?_, ?_, hhost, ?_, hne, hkey, ?_⟩
  · rw [truncate_double hx, hhome]
    exact double_in_range hrange.1 hrange.2
  · rw [truncate_double hy, hneighbor]
    exact double_in_range hrange'.1 hrange'.2
  · rw [truncate_double hx, hhome]
  · rw [truncate_double hy, hneighbor]

omit hown in
theorem Entries.namesRight {keys : List String} (hkeys : keys.Perm powers.keys)
    (hright : RegistersRight app powers (set_proberesponse_TXPWR
      (pickPowers app.getNodeID powers keys).1 (pickPowers app.getNodeID powers keys).2)) :
    NamesRight app own nb := by
  obtain ⟨home, neighbor, own', key, power, hwrites, ⟨-, hhome⟩, ⟨-, hneighbor⟩, hhost, hval, -⟩ :=
    hright
  simp only [set_proberesponse_TXPWR, List.cons.injEq, FlowWrite.mk.injEq, true_and,
    and_true] at hwrites
  obtain ⟨hwhome, hwneighbor⟩ := hwrites
  by_cases hname : app.getNodeID = app.hostname
  · refine Or.inl ⟨hname, ?_⟩
    -- without another key the power of the neighbors is still the one of the start
    rcases pick_neighbor keys (20, 20) with ⟨hall, hsame⟩ | ⟨other, hmem, hne, -⟩
    · rw [pickPowers, hsame, default_above.1] at hwneighbor
      rw [← hwneighbor] at hneighbor
      exact absurd hneighbor default_above.2
    · refine ⟨other, ?_, hname ▸ hne⟩
      exact ((h.keys other).mp (hkeys.mem_iff.mp hmem)).resolve_right (hname ▸ hne)
  · refine Or.inr ⟨hname, ?_⟩
    rw [pickPowers, pick_home] at hwhome
    by_cases hmem : app.getNodeID ∈ keys
    · have hinfo := ((h.keys _).mp (hkeys.mem_iff.mp hmem)).resolve_right hname
      refine ⟨hinfo, ?_⟩
      by_cases hhostinfo : app.hostname ∈ app.infoAvBackhaulMap
      · exact Or.inl hhostinfo
      · right
        rw [h.hostname hhostinfo, Option.some.injEq] at hhost
        rw [if_pos hmem, h.announced _ hinfo, Option.getD_some, truncate_double hnb.1] at hwhome
        rw [hwhome, hval, hhost]
    · rw [if_neg hmem, default_above.1] at hwhome
      rw [← hwhome] at hhome
      exact absurd hhome default_above.2

theorem Entries.registersRight {keys : List String} (hkeys : keys.Perm powers.keys)
    (hnames : NamesRight app own nb) : RegistersRight app powers (set_proberesponse_TXPWR
      (pickPowers app.getNodeID powers keys).1 (pickPowers app.getNodeID powers keys).2) := by
  have hkeep : ∀ {key}, key ∈ keys ↔ key ∈ app.infoAvBackhaulMap ∨ key = app.hostname :=
    fun {key} => hkeys.mem_iff.trans (h.keys key)
  have hhome : ∃ own', powers.lookup app.hostname = some own' := by
    rw [← Option.isSome_iff_exists, AList.lookup_isSome, AList.mem_keys, h.keys]
    exact Or.inr rfl
  obtain ⟨own', hown'⟩ := hhome
  have hneighbor : ∃ other ∈ keys, other ≠ app.getNodeID := by
    rcases hnames with ⟨hname, other, hmem, hne⟩ | ⟨hname, -, -⟩
    · exact ⟨other, hkeep.mpr (Or.inl hmem), hname ▸ hne⟩
    · exact ⟨app.hostname, hkeep.mpr (Or.inr rfl), Ne.symm hname⟩
  obtain ⟨key, hkey, hne, hlast⟩ := (@pick_neighbor app.getNodeID powers keys (20, 20)).resolve_left
    (fun hall => hneighbor.elim (fun other hother => hother.2 (hall.1 other hother.1)))
  obtain ⟨power, hpower⟩ : ∃ power, powers.lookup key = some power := by
    rw [← Option.isSome_iff_exists, AList.lookup_isSome, AList.mem_keys]
    exact hkeys.mem_iff.mp hkey
  rw [pickPowers, hlast, pick_home, hpower, Option.getD_some]
  have hpow := (h.range hown hnb hpower).1
  have hownone := (h.range hown hnb hown').1
  rcases hnames with ⟨hname, -⟩ | ⟨hname, hinfo, hagree⟩
  · rw [if_pos (hkeep.mpr (Or.inr hname)), hname, hown', Option.getD_some]
    exact h.right hown hnb hown' hpower (hname ▸ hne) hownone hpow rfl rfl
  · rw [if_pos (hkeep.mpr (Or.inl hinfo)), h.announced _ hinfo, Option.getD_some]
    have hsame : ⌊2 * nb⌋ = ⌊2 * own'⌋ := by
      rcases hagree with hmem | hagree
      · rw [h.announced _ hmem, Option.some.injEq] at hown'
        rw [hown']
      · rcases h.lookup (hkeys.mem_iff.mp (hkeep.mpr (Or.inr rfl))) with hlook | ⟨-, -, hlook⟩
        · rw [hlook, Option.some.injEq] at hown'
          rw [hown']
        · rw [hlook, Option.some.injEq] at hown'
          rw [← hown', hagree]
    by_cases hhost : key = app.hostname
    · -- the last key is the own one, whose entry is written as that of the agent's name
      rw [hhost, hown', Option.some.injEq] at hpower
      exact h.right hown hnb hown' (h.announced _ hinfo) hname hnb.1 hpow hsame
        (by rw [← hpower, hsame])
    · exact h.right hown hnb hown' hpower hhost hnb.1 hpow hsame rfl

end Ranges

end Callback

/-- For a probe request that passes the filters, the values are right when the agent and the
application use one name and a neighbor has announced itself, or when the agent's own name is
announced and the own power is the one of the neighbors. -/
theorem register_values_iff (app : ResFiApp) (clients : DictOrder Text) (order : DictOrder String)
    (tbl : Table) (dumps : Text → Option Stations) (now p : ℚ) (payload rssi : Text)
    (hpayload : contains "EC1F72820956".toList payload = true) (hstart : app.started now = true)
    (hrssi : readFloat rssi = some p)
    (hrates : ∀ r ∈ phy_rate_tbl clients tbl dumps p, 0 < r) :
    (∃ powers writes, calculate_preply_tx_power app.toApp clients tbl dumps p = .ok powers ∧
      probeReqRec_cb app clients order tbl dumps now payload rssi = some writes ∧
      RegistersRight app powers writes) ↔
    (app.getNodeID = app.hostname ∧ ∃ key ∈ app.infoAvBackhaulMap, key ≠ app.hostname) ∨
    (app.getNodeID ≠ app.hostname ∧ app.getNodeID ∈ app.infoAvBackhaulMap ∧
      (app.hostname ∈ app.infoAvBackhaulMap ∨ app.hostname ≠ "XXXXXXXX" ∨
        ⌊2 * powerFor (phy_rate_tbl clients tbl dumps p) (10 ^ 3) p⌋ =
          ⌊2 * powerFor (phy_rate_tbl clients tbl dumps p) bottleneck_rate p⌋)) := by
  obtain ⟨powers, hpowers, hentries, hwrites⟩ :=
    @callback_writes app clients order tbl dumps now p payload rssi hpayload hstart hrssi hrates
  have hown := powerFor_range (p := p) (own_av_dl_pos app.hostname) phy_rate_tbl_ne_nil hrates
  have hnb := powerFor_range (p := p) bottleneck_rate_pos phy_rate_tbl_ne_nil hrates
  have hplain : app.hostname ≠ "XXXXXXXX" → own_av_dl app.hostname = bottleneck_rate := by
    intro hne
    rw [own_av_dl, if_neg hne]
    norm_num [bottleneck_rate, my_av_dl]
  have hspecial : app.hostname = "XXXXXXXX" → own_av_dl app.hostname = 10 ^ 3 := fun heq => by
    rw [own_av_dl, if_pos heq]
  constructor
  · rintro ⟨powers', writes, hpowers', hwrites', hright⟩
    rw [hpowers, Except.ok.injEq] at hpowers'
    rw [hwrites, Option.some.injEq] at hwrites'
    subst hpowers' hwrites'
    rcases hentries.namesRight hnb (order.perm _) hright with hname | ⟨hname, hinfo, hagree⟩
    · exact Or.inl hname
    · refine Or.inr ⟨hname, hinfo, hagree.imp_right ?_⟩
      intro hagree
      by_cases hhost : app.hostname = "XXXXXXXX"
      · rw [hspecial hhost] at hagree
        exact Or.inr hagree
      · exact Or.inl hhost
  · intro hcond
    refine ⟨powers, _, hpowers, hwrites, hentries.registersRight hown hnb (order.perm _) ?_⟩
    refine hcond.imp_right (fun hcond => ⟨hcond.1, hcond.2.1, hcond.2.2.imp_right ?_⟩)
    intro hagree
    by_cases hhost : app.hostname = "XXXXXXXX"
    · rw [hspecial hhost]
      exact hagree.resolve_left (fun hne => hne hhost)
    · rw [hplain hhost]

/-- An application that uses the same name as its agent. -/
def sameName (infoAvBackhaulMap : List String) : ResFiApp where
  hostname := "10.0.0.1"
  infoAvBackhaulMap := infoAvBackhaulMap
  getNodeID := "10.0.0.1"
  startTime := some 1

theorem no_clients_pos : ∀ r ∈ phy_rate_tbl plainOrder ∅ (fun _ => none) (-60), 0 < r := by
  rw [phy_rate_tbl_pos_iff]
  intro client_addr v hv
  cases hv

def plainKeys : DictOrder String := ⟨id, fun _ => List.Perm.refl _⟩

theorem register_values_announced : ∃ powers writes,
    calculate_preply_tx_power (sameName ["10.0.0.2"]).toApp plainOrder ∅ (fun _ => none) (-60) =
      .ok powers ∧
    probeReqRec_cb (sameName ["10.0.0.2"]) plainOrder plainKeys ∅ (fun _ => none) 100
      "EC1F72820956".toList "-60".toList = some writes ∧
    RegistersRight (sameName ["10.0.0.2"]) powers writes := by
  refine (register_values_iff (sameName ["10.0.0.2"]) plainOrder plainKeys ∅ (fun _ => none) 100 (-60)
    "EC1F72820956".toList "-60".toList (by decide) (by decide +kernel) (by decide +kernel)
    no_clients_pos).mpr ?_
  exact Or.inl ⟨rfl, "10.0.0.2", List.mem_cons_self, by decide⟩

/-- No neighbor has announced itself: the neighbor value is 40, twice 20 dBm. -/
theorem default_written :
    probeReqRec_cb (sameName []) plainOrder plainKeys ∅ (fun _ => none) 100
      "EC1F72820956".toList "-60".toList = some [⟨10002, 32⟩, ⟨10001, 40⟩] ∧
    ¬ ∃ powers writes,
      calculate_preply_tx_power (sameName []).toApp plainOrder ∅ (fun _ => none) (-60) =
        .ok powers ∧
      probeReqRec_cb (sameName []) plainOrder plainKeys ∅ (fun _ => none) 100
        "EC1F72820956".toList "-60".toList = some writes ∧
      RegistersRight (sameName []) powers writes := by
  have hwritten : probeReqRec_cb (sameName []) plainOrder plainKeys ∅ (fun _ => none) 100
      "EC1F72820956".toList "-60".toList = some [⟨10002, 32⟩, ⟨10001, 40⟩] := by
    decide +kernel
  refine ⟨hwritten, ?_⟩
  rintro ⟨powers, writes, -, hwrites, home, neighbor, own, key, power, heq, -, ⟨-, hneighbor⟩, -⟩
  rw [hwritten, Option.some.injEq] at hwrites
  rw [← hwrites] at heq
  simp only [List.cons.injEq, FlowWrite.mk.injEq, true_and, and_true] at heq
  rw [← heq.2] at hneighbor
  exact default_above.2 hneighbor

end Nxwlan.ProbeReplies
