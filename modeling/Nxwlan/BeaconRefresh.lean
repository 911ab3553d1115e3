import Nxwlan.ClientBlacklist

/-!
The beacon of an access point. `ieee802_11_set_beacon` builds the parameters of the
beacon from the state of the BSS and its interface and gives them to the driver, and a
dozen places call it after a change of that state. Only the first call outside a channel
switch reaches the driver; later ones return when everything is built, and during a switch
they return at once. The elements for probe responses are built and never put into the
parameters.
-/
namespace Nxwlan.BeaconRefresh

open Base64 (Bytes)
open ClientBlacklist (Mac)

inductive HwMode where
  | b | g | a | ad
  deriving DecidableEq

inductive Preamble where
  | long | short
  deriving DecidableEq

inductive HideSsid where
  | no_ssid_hiding | hidden_ssid_zero_len | hidden_ssid_zero_contents
  deriving DecidableEq

/-- The state of an interface and its configuration. `rest` is what only the writers of
elements read. -/
structure IfaceState (ρ : Type) where
  csa_in_progress : Bool := false
  current_mode : Option HwMode
  olbc : Bool := false
  num_sta_non_erp : ℕ := 0
  num_sta_no_short_preamble : ℕ := 0
  num_sta_no_short_slot_time : ℕ := 0
  ht_op_mode : ℕ := 0
  basic_rates : List ℤ := []
  beacon_int : ℕ
  channel : UInt8
  preamble : Preamble
  ieee80211n : Bool
  rest : ρ

/-- The state of a BSS and its configuration. -/
structure BssState (ρ : Type) where
  own_addr : Mac
  ssid : Bytes
  ignore_broadcast_ssid : ℕ := 0
  dtim_period : ℕ
  rsn_pairwise : ℕ := 0
  wpa_pairwise : ℕ := 0
  wpa_group : ℕ := 0
  wpa_key_mgmt : ℕ := 0
  auth_algs : ℕ
  wpa : ℕ := 0
  wep_keys_set : Bool := false
  ieee802_1x : Bool := false
  default_wep_key_len : ℕ := 0
  individual_wep_key_len : ℕ := 0
  isolate : Bool := false
  disable_11n : Bool := false
  interworking : Bool := false
  hessid : Mac
  access_network_type : ℕ := 0
  ap_max_inactivity : ℕ := 300
  wps_state : ℕ := 0
  vendor_elements : Option Bytes := none
  wps_beacon_ie : Option Bytes := none
  wps_probe_resp_ie : Option Bytes := none
  vendorspec_beacon_ie : Option Bytes := none
  rest : ρ

/-- `wpa_driver_ap_params`. -/
structure Params where
  head : Bytes
  tail : Bytes
  proberesp : Option Bytes
  dtim_period : ℕ
  beacon_int : ℕ
  basic_rates : List ℤ
  ssid : Bytes
  pairwise_ciphers : ℕ
  group_cipher : ℕ
  key_mgmt_suites : ℕ
  auth_algs : ℕ
  wpa_version : ℕ
  privacy : Bool
  hide_ssid : HideSsid
  isolate : Bool
  cts_protect : Bool
  preamble : Bool
  short_slot_time : ℤ
  ht_opmode : ℤ
  interworking : Bool
  hessid : Option Mac
  access_network_type : ℕ
  ap_max_inactivity : ℕ
  beacon_ies : Option Bytes := none
  proberesp_ies : Option Bytes := none
  assocresp_ies : Option Bytes := none
  deriving DecidableEq

/-- The elements with a writer of their own, `hostapd_eid_*`. -/
inductive Eid where
  | supp_rates | country | ext_supp_rates | wpa | bss_load | ht_capabilities | ht_operation
  | ext_capab | time_adv | time_zone | interworking | adv_proto | roaming_consortium | csa
  | vht_capabilities | vht_operation | wmm

/-- The writers of elements, which see the whole state, `hostapd_own_capab_info`, the
template of `hostapd_probe_resp_offloads`, and the element that `wps_build_assoc_resp_ie`
makes. -/
structure Writers (ρ : Type) where
  eid : Eid → IfaceState ρ → BssState ρ → Bytes
  own_capab_info : IfaceState ρ → BssState ρ → ℕ
  probe_resp_offloads : IfaceState ρ → BssState ρ → Option Bytes
  wps_assoc_resp_ie : Option Bytes

variable {ρ : Type} (writers : Writers ρ)

def le16 (n : ℕ) : Bytes := [UInt8.ofNat n, UInt8.ofNat (n / 256)]

/-- The bits NonERP_present, use_protection and barker_preamble_mode. -/
structure Erp where
  non_erp_present : Bool := false
  use_protection : Bool := false
  barker_preamble_mode : Bool := false

def ieee802_11_erp_info (iface : IfaceState ρ) : Erp :=
  if iface.current_mode = some .g then
    { non_erp_present := decide (0 < iface.num_sta_non_erp)
      use_protection := iface.olbc || decide (0 < iface.num_sta_non_erp)
      barker_preamble_mode := decide (0 < iface.num_sta_no_short_preamble ∨ iface.preamble = .long) }
  else {}

def hostapd_eid_erp_info (iface : IfaceState ρ) : Bytes :=
  if iface.current_mode = some .g then
    let erp := ieee802_11_erp_info iface
    [42, 1, (if erp.non_erp_present then 1 else 0) + (if erp.use_protection then 2 else 0) +
      (if erp.barker_preamble_mode then 4 else 0)]
  else []

def hostapd_eid_ds_params (iface : IfaceState ρ) : Bytes := [3, 1, iface.channel]

def ssidElement (hapd : BssState ρ) : Bytes :=
  if hapd.ignore_broadcast_ssid = 2 then
    0 :: UInt8.ofNat hapd.ssid.length :: List.replicate hapd.ssid.length 0
  else if hapd.ignore_broadcast_ssid ≠ 0 then [0, 0]
  else 0 :: UInt8.ofNat hapd.ssid.length :: hapd.ssid

/-- The beacon up to the traffic map: header, timestamp, fixed fields, first elements. -/
def beaconHead (iface : IfaceState ρ) (hapd : BssState ρ) : Bytes :=
  [0x80, 0, 0, 0] ++ List.replicate 6 0xff ++ hapd.own_addr.toList ++ hapd.own_addr.toList ++
    [0, 0] ++ List.replicate 8 0 ++ le16 iface.beacon_int ++
    le16 (writers.own_capab_info iface hapd) ++ ssidElement hapd ++
    writers.eid .supp_rates iface hapd ++ hostapd_eid_ds_params iface

/-- The elements behind the traffic map. -/
def beaconTail (iface : IfaceState ρ) (hapd : BssState ρ) : Bytes :=
  let eid := fun e => writers.eid e iface hapd
  eid .country ++ hostapd_eid_erp_info iface ++ eid .ext_supp_rates ++ eid .wpa ++ eid .bss_load ++
    eid .ht_capabilities ++ eid .ht_operation ++ eid .ext_capab ++ eid .time_adv ++
    eid .interworking ++ eid .adv_proto ++ eid .roaming_consortium ++ eid .csa ++
    eid .vht_capabilities ++ eid .vht_operation ++ eid .wmm ++
    (if hapd.wps_state ≠ 0 then hapd.wps_beacon_ie.getD [] else []) ++
    hapd.vendorspec_beacon_ie.getD [] ++ hapd.vendor_elements.getD []

/-- `ieee802_11_build_ap_params`, where there is memory for it. -/
def ieee802_11_build_ap_params (iface : IfaceState ρ) (hapd : BssState ρ) : Params where
  head := beaconHead writers iface hapd
  tail := beaconTail writers iface hapd
  proberesp := writers.probe_resp_offloads iface hapd
  dtim_period := hapd.dtim_period
  beacon_int := iface.beacon_int
  basic_rates := iface.basic_rates
  ssid := hapd.ssid
  pairwise_ciphers := if hapd.rsn_pairwise ≠ 0 then hapd.rsn_pairwise else hapd.wpa_pairwise
  group_cipher := hapd.wpa_group
  key_mgmt_suites := hapd.wpa_key_mgmt
  auth_algs := hapd.auth_algs
  wpa_version := hapd.wpa
  privacy := hapd.wep_keys_set || decide (hapd.wpa ≠ 0) || (hapd.ieee802_1x &&
    decide (hapd.default_wep_key_len ≠ 0 ∨ hapd.individual_wep_key_len ≠ 0))
  hide_ssid :=
    match hapd.ignore_broadcast_ssid with
    | 1 => .hidden_ssid_zero_len
    | 2 => .hidden_ssid_zero_contents
    | _ => .no_ssid_hiding
  isolate := hapd.isolate
  cts_protect := (ieee802_11_erp_info iface).use_protection
  preamble := decide (iface.num_sta_no_short_preamble = 0 ∧ iface.preamble = .short)
  short_slot_time :=
    if iface.current_mode = some .g then (if 0 < iface.num_sta_no_short_slot_time then 0 else 1)
    else -1
  ht_opmode := if iface.ieee80211n && !hapd.disable_11n then iface.ht_op_mode else -1
  interworking := hapd.interworking
  hessid :=
    if hapd.interworking = true ∧ hapd.hessid ≠ Vector.replicate 6 0 then some hapd.hessid else none
  access_network_type := hapd.access_network_type
  ap_max_inactivity := hapd.ap_max_inactivity

/-- Whether there is memory: for the parameters, for the elements that must be added, and
for those that are left out without it. -/
structure Memory where
  params : Bool := true
  extra : Bool := true
  wps : Bool := true
  vendorBeacon : Bool := true
  vendorProberesp : Bool := true

/-- `wpabuf_resize` and `wpabuf_put_data`; a buffer that is NULL is made. -/
def put (buf : Option Bytes) (data : Bytes) : Option Bytes := some (buf.getD [] ++ data)

/-- Elements from `buf`, if there are any. -/
def putWritten (buf : Option Bytes) (data : Bytes) : Option Bytes :=
  if data = [] then buf else put buf data

structure ExtraIes where
  beacon : Option Bytes
  proberesp : Option Bytes
  assocresp : Option Bytes
  deriving DecidableEq

def hostapd_build_ap_extra_ies (iface : IfaceState ρ) (hapd : BssState ρ) (memory : Memory) :
    Option ExtraIes :=
  let eid := fun e => writers.eid e iface hapd
  let beacon := putWritten none (eid .time_adv)
  let proberesp := putWritten none (eid .time_adv ++ eid .time_zone)
  let assocresp := putWritten none (eid .ext_capab)
  let access := eid .ext_capab ++ eid .interworking ++ eid .adv_proto ++ eid .roaming_consortium
  let beacon := putWritten beacon access
  let proberesp := putWritten proberesp access
  let beacon := match hapd.wps_beacon_ie with | none => beacon | some ie => put beacon ie
  let proberesp := match hapd.wps_probe_resp_ie with | none => proberesp | some ie => put proberesp ie
  let assocresp :=
    match writers.wps_assoc_resp_ie with
    | none => assocresp
    | some ie => if hapd.wps_state ≠ 0 ∧ memory.wps then put assocresp ie else assocresp
  let beacon :=
    match hapd.vendor_elements with
    | none => beacon
    | some ie => if memory.vendorBeacon then put beacon ie else beacon
  let proberesp :=
    match hapd.vendor_elements with
    | none => proberesp
    | some ie => if memory.vendorProberesp then put proberesp ie else proberesp
  if memory.extra then some { beacon, proberesp, assocresp } else none

/-- `driver` has the parameters last given to the driver. -/
structure Bss (ρ : Type) where
  state : BssState ρ
  beacon_set_done : Bool := false
  driver : Option Params := none

def ieee802_11_set_beacon (iface : IfaceState ρ) (memory : Memory) (hapd : Bss ρ) : Bss ρ :=
  if iface.csa_in_progress then hapd
  else
    let firstRun := !hapd.beacon_set_done
    let hapd := { hapd with beacon_set_done := true }
    if memory.params then
      let params := ieee802_11_build_ap_params writers iface hapd.state
      match hostapd_build_ap_extra_ies writers iface hapd.state memory with
      | none => hapd
      | some ies =>
          let params := { params with beacon_ies := ies.beacon }
          let params := { params with beacon_ies := ies.beacon }
          let params := { params with assocresp_ies := ies.assocresp }
          if firstRun then { hapd with driver := some params } else hapd
    else hapd

structure Iface (ρ : Type) where
  state : IfaceState ρ
  bss : List (Bss ρ)

def ieee802_11_set_beacons (memory : ℕ → Memory) (iface : Iface ρ) : Iface ρ :=
  { iface with bss :=
      iface.bss.mapIdx (fun i hapd => ieee802_11_set_beacon writers iface.state (memory i) hapd) }

/-- Only started BSSs. -/
def ieee802_11_update_beacons (memory : ℕ → Memory) (iface : Iface ρ) : Iface ρ :=
  { iface with bss :=
      iface.bss.mapIdx (fun i hapd =>
        if hapd.beacon_set_done then ieee802_11_set_beacon writers iface.state (memory i) hapd
        else hapd) }

/-- A change of the state by the rest of the program, or a call. -/
inductive Event (ρ : Type) where
  | change (iface : IfaceState ρ → IfaceState ρ) (bss : ℕ → BssState ρ → BssState ρ)
  | setBeacon (i : ℕ) (memory : Memory)
  | setBeacons (memory : ℕ → Memory)
  | updateBeacons (memory : ℕ → Memory)

def handle (iface : Iface ρ) : Event ρ → Iface ρ
  | .change f g =>
      { state := f iface.state
        bss := iface.bss.mapIdx (fun i hapd => { hapd with state := g i hapd.state }) }
  | .setBeacon i memory =>
      { iface with bss :=
          iface.bss.modify i (ieee802_11_set_beacon writers iface.state memory) }
  | .setBeacons memory => ieee802_11_set_beacons writers memory iface
  | .updateBeacons memory => ieee802_11_update_beacons writers memory iface

def run (start : Iface ρ) (events : List (Event ρ)) : Iface ρ := events.foldl (handle writers) start

/-- An interface before any beacon is set. -/
def startUp (iface : IfaceState ρ) (bss : List (BssState ρ)) : Iface ρ :=
  { state := iface, bss := bss.map (fun state => { state }) }

/-- The parameters that a state asks for, with each buffer in its own field. -/
def currentParams (iface : IfaceState ρ) (hapd : BssState ρ) (ies : ExtraIes) : Params :=
  { ieee802_11_build_ap_params writers iface hapd with
    beacon_ies := ies.beacon
    proberesp_ies := ies.proberesp
    assocresp_ies := ies.assocresp }

/-- A call of `ieee802_11_set_beacon`, with the state that it finds. -/
structure Call (ρ : Type) where
  iface : IfaceState ρ
  state : BssState ρ
  memory : Memory

/-- Which call of `ieee802_11_set_beacon` an event makes for the BSS `i`. -/
def memoryOf (hapd : Bss ρ) (i : ℕ) : Event ρ → Option Memory
  | .change _ _ => none
  | .setBeacon j memory => if j = i then some memory else none
  | .setBeacons memory => some (memory i)
  | .updateBeacons memory => if hapd.beacon_set_done then some (memory i) else none

/-- The call that an event makes for the BSS `i` outside a channel switch. -/
def callAt (iface : Iface ρ) (i : ℕ) (e : Event ρ) : Option (Call ρ) :=
  (iface.bss[i]?).bind (fun hapd =>
    (memoryOf hapd i e).bind (fun memory =>
      if iface.state.csa_in_progress then none
      else some { iface := iface.state, state := hapd.state, memory }))

/-- The first call for the BSS `i` in a run. -/
def firstCall (iface : Iface ρ) (i : ℕ) : List (Event ρ) → Option (Call ρ)
  | [] => none
  | e :: events => (callAt iface i e).or (firstCall (handle writers iface e) i events)

/-- The parameters that a first call gives to the driver. -/
def sent (c : Call ρ) : Option Params :=
  if c.memory.params then
    (hostapd_build_ap_extra_ies writers c.iface c.state c.memory).map (fun ies =>
      { ieee802_11_build_ap_params writers c.iface c.state with
        beacon_ies := ies.beacon
        assocresp_ies := ies.assocresp })
  else none

/-- Whether an event announces a change to a BSS: `ieee802_11_set_beacons` does to all, and
`ieee802_11_update_beacons` to those that are started. -/
def announces (hapd : Bss ρ) : Event ρ → Bool
  | .setBeacons _ => true
  | .updateBeacons _ => hapd.beacon_set_done
  | _ => false

/-- The beacon on the air is the one that the state asks for; the buffers of extra elements are
no part of it. -/
def OnAir (iface : IfaceState ρ) (hapd : Bss ρ) : Prop :=
  ∃ beacon proberesp assocresp, hapd.driver =
    some { ieee802_11_build_ap_params writers iface hapd.state with
      beacon_ies := beacon
      proberesp_ies := proberesp
      assocresp_ies := assocresp }

/-- What an event should leave of the BSS `i`: a call outside a channel switch whose building
succeeds gives the current parameters to the driver, and what is announced is on the air. -/
structure Refreshed (iface : Iface ρ) (i : ℕ) (e : Event ρ) : Prop where
  called : ∀ c ies hapd, callAt iface i e = some c → c.memory.params = true →
    hostapd_build_ap_extra_ies writers c.iface c.state c.memory = some ies →
    (handle writers iface e).bss[i]? = some hapd →
    hapd.driver = some (currentParams writers c.iface c.state ies)
  announced : ∀ before hapd, iface.bss[i]? = some before → announces before e = true →
    (handle writers iface e).bss[i]? = some hapd → OnAir writers iface.state hapd

/-- Nothing that the beacon is made of differs between two states: the elements, the ERP
information, the slot time, the preamble, and the configuration. -/
structure SameBeacon (iface iface' : IfaceState ρ) (hapd hapd' : BssState ρ) : Prop where
  eid : ∀ e, writers.eid e iface hapd = writers.eid e iface' hapd'
  capab : writers.own_capab_info iface hapd = writers.own_capab_info iface' hapd'
  offloads : writers.probe_resp_offloads iface hapd = writers.probe_resp_offloads iface' hapd'
  erp : ieee802_11_erp_info iface = ieee802_11_erp_info iface'
  mode : iface.current_mode = some .g ↔ iface'.current_mode = some .g
  slot : iface.current_mode = some .g →
    (0 < iface.num_sta_no_short_slot_time ↔ 0 < iface'.num_sta_no_short_slot_time)
  preamble : (iface.num_sta_no_short_preamble = 0 ∧ iface.preamble = .short) ↔
    iface'.num_sta_no_short_preamble = 0 ∧ iface'.preamble = .short
  ht : iface.ieee80211n = iface'.ieee80211n ∧ iface.ht_op_mode = iface'.ht_op_mode
  channel : iface.channel = iface'.channel
  beacon_int : iface.beacon_int = iface'.beacon_int
  basic_rates : iface.basic_rates = iface'.basic_rates
  conf : ∃ rest, hapd' = { hapd with rest := rest }

/-- Nothing asks for elements that are for probe responses only. -/
structure NoProbeElements (iface : IfaceState ρ) (hapd : BssState ρ) (memory : Memory) : Prop where
  time : writers.eid .time_adv iface hapd = [] ∧ writers.eid .time_zone iface hapd = []
  access : ∀ e ∈ [Eid.ext_capab, .interworking, .adv_proto, .roaming_consortium],
    writers.eid e iface hapd = []
  wps : hapd.wps_probe_resp_ie = none
  vendor : hapd.vendor_elements = none ∨ memory.vendorProberesp = false

/-- When an event refreshes the BSS `i`, whose first call outside a channel switch was `first`:
a call whose building succeeds has no elements for probe responses, and is the first one or
finds nothing changed since then; and a change that is announced otherwise is none. -/
structure Meets (first : Option (Call ρ)) (iface : Iface ρ) (i : ℕ) (e : Event ρ) : Prop where
  called : ∀ c, callAt iface i e = some c → c.memory.params = true → c.memory.extra = true →
    NoProbeElements writers c.iface c.state c.memory ∧
      ∀ c', first = some c' → c'.memory = c.memory ∧
        SameBeacon writers c'.iface c.iface c'.state c.state
  announced : ∀ hapd, iface.bss[i]? = some hapd → announces hapd e = true →
    (first = none ∧ ∃ c, callAt iface i e = some c ∧ c.memory.params = true ∧
      c.memory.extra = true) ∨
    ∃ c', first = some c' ∧ c'.memory.params = true ∧ c'.memory.extra = true ∧
      SameBeacon writers c'.iface iface.state c'.state hapd.state

variable {writers}

theorem set_beacon_eq (iface : IfaceState ρ) (memory : Memory) (hapd : Bss ρ) :
    ieee802_11_set_beacon writers iface memory hapd =
      if iface.csa_in_progress then hapd
      else
        { hapd with
          beacon_set_done := true
          driver :=
            if hapd.beacon_set_done then hapd.driver
            else (sent writers { iface, state := hapd.state, memory }).or hapd.driver } := by
  unfold ieee802_11_set_beacon sent
  by_cases hcsa : iface.csa_in_progress = true
  · simp [hcsa]
  · simp only [hcsa, if_false, Bool.false_eq_true]
    by_cases hmemory : memory.params = true
    · simp only [hmemory, if_true]
      cases hostapd_build_ap_extra_ies writers iface hapd.state memory with
      | none => cases hapd.beacon_set_done <;> simp
      | some ies => cases hapd.beacon_set_done <;> simp
    · simp [hmemory]

/-- What an event does to the BSS `i`. -/
theorem handle_bss (iface : Iface ρ) (e : Event ρ) (i : ℕ) :
    (handle writers iface e).bss[i]? =
      (iface.bss[i]?).map (fun hapd =>
        match e with
        | .change _ g => { hapd with state := g i hapd.state }
        | e =>
            match memoryOf hapd i e with
            | none => hapd
            | some memory => ieee802_11_set_beacon writers iface.state memory hapd) := by
  cases e with
  | change f g => simp [handle]
  | setBeacon j memory =>
    rw [handle, List.getElem?_modify]
    by_cases hj : j = i
    · simp [hj, memoryOf]
    · simp [hj, memoryOf]
  | setBeacons memory => simp [handle, ieee802_11_set_beacons, memoryOf]
  | updateBeacons memory =>
    rw [handle, ieee802_11_update_beacons, List.getElem?_mapIdx]
    congr 1
    funext hapd
    cases hdone : hapd.beacon_set_done <;> simp [memoryOf, hdone]

theorem firstCall_append (iface : Iface ρ) (i : ℕ) (pre : List (Event ρ)) (e : Event ρ) :
    firstCall writers iface i (pre ++ [e]) =
      (firstCall writers iface i pre).or (callAt (run writers iface pre) i e) := by
  induction pre generalizing iface with
  | nil => simp [firstCall, run]
  | cons e' pre ih =>
    rw [List.cons_append, firstCall, ih, firstCall, Option.or_assoc]
    rfl

theorem run_append (iface : Iface ρ) (pre : List (Event ρ)) (e : Event ρ) :
    run writers iface (pre ++ [e]) = handle writers (run writers iface pre) e := by
  rw [run, run, List.foldl_append]
  rfl

/-- The flag says that there was a call, and the driver has what the first one sent. -/
def Follows (writers : Writers ρ) (hapd : Bss ρ) (first : Option (Call ρ)) : Prop :=
  hapd.beacon_set_done = first.isSome ∧ hapd.driver = first.bind (sent writers)

theorem Follows.set_beacon {hapd : Bss ρ} {first : Option (Call ρ)} (h : Follows writers hapd first)
    (iface : IfaceState ρ) (memory : Memory) :
    Follows writers (ieee802_11_set_beacon writers iface memory hapd)
      (first.or (if iface.csa_in_progress then none
        else some { iface, state := hapd.state, memory })) := by
  obtain ⟨hdone, hdriver⟩ := h
  rw [set_beacon_eq]
  by_cases hcsa : iface.csa_in_progress = true
  · simpa [hcsa] using ⟨hdone, hdriver⟩
  · simp only [hcsa, if_false, Bool.false_eq_true]
    cases first with
    | none =>
      refine ⟨rfl, ?_⟩
      simp [hdone, hdriver]
    | some c =>
      refine ⟨rfl, ?_⟩
      simp [hdone, hdriver]

theorem Follows.handle {iface : Iface ρ} {i : ℕ} {first : Option (Call ρ)} {hapd hapd' : Bss ρ}
    (h : Follows writers hapd first) (e : Event ρ) (hget : iface.bss[i]? = some hapd)
    (hget' : (handle writers iface e).bss[i]? = some hapd') :
    Follows writers hapd' (first.or (callAt iface i e)) := by
  rw [handle_bss, hget, Option.map_some, Option.some.injEq] at hget'
  have hcall : callAt iface i e = (memoryOf hapd i e).bind (fun memory =>
      if iface.state.csa_in_progress then none
      else some { iface := iface.state, state := hapd.state, memory }) := by
    rw [callAt, hget, Option.bind_some]
  rw [hcall, ← hget']
  cases e with
  | change f g =>
    rw [memoryOf, Option.bind_none, Option.or_none]
    exact h
  | _ =>
    dsimp only
    split
    · rename_i hnone
      rw [hnone, Option.bind_none, Option.or_none]
      exact h
    · rename_i memory hsome
      rw [hsome, Option.bind_some]
      exact h.set_beacon iface.state memory

theorem follows_run (iface : IfaceState ρ) (bss : List (BssState ρ)) (i : ℕ)
    (events : List (Event ρ)) {hapd : Bss ρ}
    (hget : (run writers (startUp iface bss) events).bss[i]? = some hapd) :
    Follows writers hapd (firstCall writers (startUp iface bss) i events) := by
  induction events using List.reverseRecOn generalizing hapd with
  | nil =>
    rw [run, List.foldl_nil, startUp, List.getElem?_map] at hget
    obtain ⟨state, -, rfl⟩ := Option.map_eq_some_iff.mp hget
    exact ⟨rfl, rfl⟩
  | append_singleton pre e ih =>
    rw [run_append] at hget
    have hbefore := hget
    rw [handle_bss] at hbefore
    obtain ⟨hapd', hget', -⟩ := Option.map_eq_some_iff.mp hbefore
    rw [firstCall_append]
    exact (ih hget').handle e hget' hget

/-- The buffer for probe responses is in no parameters that are sent. -/
theorem proberesp_ies_of_sent {c : Call ρ} {params : Params} (h : sent writers c = some params) :
    params.proberesp_ies = none := by
  unfold sent at h
  split at h
  · obtain ⟨ies, -, rfl⟩ := Option.map_eq_some_iff.mp h
    rfl
  · cases h

theorem sent_eq_currentParams {c : Call ρ} {ies : ExtraIes} (hmemory : c.memory.params = true)
    (hies : hostapd_build_ap_extra_ies writers c.iface c.state c.memory = some ies)
    (hnone : ies.proberesp = none) :
    sent writers c = some (currentParams writers c.iface c.state ies) := by
  rw [sent, if_pos hmemory, hies, currentParams, hnone]
  rfl

/-- What a call whose building succeeds leaves with the driver. -/
theorem driver_current_iff {c : Call ρ} {ies : ExtraIes} {hapd : Bss ρ} {first : Option (Call ρ)}
    (hmemory : c.memory.params = true)
    (hies : hostapd_build_ap_extra_ies writers c.iface c.state c.memory = some ies)
    (h : Follows writers hapd (first.or (some c))) :
    hapd.driver = some (currentParams writers c.iface c.state ies) ↔
      ies.proberesp = none ∧ ∀ c', first = some c' → sent writers c' = sent writers c := by
  rw [h.2]
  constructor
  · intro hdriver
    obtain ⟨c', hfirst, hsent⟩ := Option.bind_eq_some_iff.mp hdriver
    have hnone : ies.proberesp = none := proberesp_ies_of_sent hsent
    refine ⟨hnone, ?_⟩
    rintro c'' rfl
    rw [Option.or_some, Option.some.injEq] at hfirst
    rw [sent_eq_currentParams hmemory hies hnone, ← hsent, ← hfirst]
    rfl
  · rintro ⟨hnone, hfirst⟩
    have hsent := sent_eq_currentParams hmemory hies hnone
    cases first with
    | none => exact hsent
    | some c' =>
      rw [Option.some_or, Option.bind_some, hfirst c' rfl]
      exact hsent

/-- For every run: after each call outside a channel switch whose building succeeds the
driver has the parameters of the current state, each buffer in its field, if and only if at
each such call the buffer for probe responses is NULL and the first call for the BSS, if
there was one, has sent the same parameters. -/
theorem beacon_refresh_iff (writers : Writers ρ) (iface : IfaceState ρ) (bss : List (BssState ρ))
    (events : List (Event ρ)) :
    (∀ pre e i c ies hapd, pre ++ [e] <+: events →
      callAt (run writers (startUp iface bss) pre) i e = some c → c.memory.params = true →
      hostapd_build_ap_extra_ies writers c.iface c.state c.memory = some ies →
      (run writers (startUp iface bss) (pre ++ [e])).bss[i]? = some hapd →
      hapd.driver = some (currentParams writers c.iface c.state ies)) ↔
    ∀ pre e i c ies, pre ++ [e] <+: events →
      callAt (run writers (startUp iface bss) pre) i e = some c → c.memory.params = true →
      hostapd_build_ap_extra_ies writers c.iface c.state c.memory = some ies →
      ies.proberesp = none ∧
        ∀ c', firstCall writers (startUp iface bss) i pre = some c' →
          sent writers c' = sent writers c := by
  have hfollows : ∀ pre e i c hapd, callAt (run writers (startUp iface bss) pre) i e = some c →
      (run writers (startUp iface bss) (pre ++ [e])).bss[i]? = some hapd →
      Follows writers hapd ((firstCall writers (startUp iface bss) i pre).or (some c)) := by
    intro pre e i c hapd hcall hget
    have hrun := follows_run iface bss i (pre ++ [e]) hget
    rwa [firstCall_append, hcall] at hrun
  constructor
  · intro hall pre e i c ies hpre hcall hmemory hies
    have hbss : ∃ hapd, (run writers (startUp iface bss) (pre ++ [e])).bss[i]? = some hapd := by
      obtain ⟨hapd, hget, -⟩ := Option.bind_eq_some_iff.mp hcall
      rw [run_append, handle_bss, hget]
      exact ⟨_, rfl⟩
    obtain ⟨hapd, hget⟩ := hbss
    exact (driver_current_iff hmemory hies (hfollows pre e i c hapd hcall hget)).mp
      (hall pre e i c ies hapd hpre hcall hmemory hies hget)
  · intro hall pre e i c ies hapd hpre hcall hmemory hies hget
    exact (driver_current_iff hmemory hies (hfollows pre e i c hapd hcall hget)).mpr
      (hall pre e i c ies hpre hcall hmemory hies)

section Unchanged

variable {iface iface' : IfaceState ρ} {hapd hapd' : BssState ρ}

/-- Such states have the same parameters. -/
theorem SameBeacon.params (h : SameBeacon writers iface iface' hapd hapd') :
    ieee802_11_build_ap_params writers iface hapd =
      ieee802_11_build_ap_params writers iface' hapd' := by
  have heid := h.eid
  have hcapab := h.capab
  have hoffloads := h.offloads
  have hmode := h.mode
  have hslot := h.slot
  obtain ⟨rest, rfl⟩ := h.conf
  have herpElement : hostapd_eid_erp_info iface = hostapd_eid_erp_info iface' := by
    unfold hostapd_eid_erp_info
    rw [h.erp]
    simp only [hmode]
  have hds : hostapd_eid_ds_params iface = hostapd_eid_ds_params iface' := by
    unfold hostapd_eid_ds_params
    rw [h.channel]
  have hhead : beaconHead writers iface hapd =
      beaconHead writers iface' { hapd with rest } := by
    simp only [beaconHead, heid, hcapab, hds, h.beacon_int]
    rfl
  have htail : beaconTail writers iface hapd =
      beaconTail writers iface' { hapd with rest } := by
    have hall : (fun e => writers.eid e iface hapd) =
        fun e => writers.eid e iface' { hapd with rest } := funext heid
    unfold beaconTail
    rw [hall, herpElement]
  have hslotTime : (if iface.current_mode = some .g then
      (if 0 < iface.num_sta_no_short_slot_time then (0 : ℤ) else 1) else -1) =
      if iface'.current_mode = some .g then
        (if 0 < iface'.num_sta_no_short_slot_time then (0 : ℤ) else 1) else -1 := by
    by_cases hg : iface.current_mode = some .g
    · rw [if_pos hg, if_pos (hmode.mp hg)]
      simp only [hslot hg]
    · rw [if_neg hg, if_neg (fun hg' => hg (hmode.mpr hg'))]
  simp only [ieee802_11_build_ap_params, hhead, htail, hoffloads, h.beacon_int, h.basic_rates,
    h.erp, h.preamble, hslotTime, h.ht.1, h.ht.2]

theorem SameBeacon.extra (h : SameBeacon writers iface iface' hapd hapd') (memory : Memory) :
    hostapd_build_ap_extra_ies writers iface hapd memory =
      hostapd_build_ap_extra_ies writers iface' hapd' memory := by
  have heid := h.eid
  obtain ⟨rest, rfl⟩ := h.conf
  simp only [hostapd_build_ap_extra_ies, heid]

theorem putWritten_eq_none_iff {buf : Option Bytes} {data : Bytes} :
    putWritten buf data = none ↔ buf = none ∧ data = [] := by
  unfold putWritten
  split
  · rename_i hnil
    simp [hnil]
  · rename_i hne
    simp [put, hne]

/-- The buffer for probe responses is NULL exactly then. -/
theorem proberesp_none_iff {memory : Memory} {ies : ExtraIes}
    (h : hostapd_build_ap_extra_ies writers iface hapd memory = some ies) :
    ies.proberesp = none ↔ NoProbeElements writers iface hapd memory := by
  unfold hostapd_build_ap_extra_ies at h
  dsimp only at h
  split at h
  · obtain rfl := (Option.some.inj h).symm
    constructor
    · intro hnone
      dsimp only at hnone
      cases hvendor : hapd.vendor_elements with
      | none =>
        cases hwps : hapd.wps_probe_resp_ie with
        | none =>
          simp only [hvendor, hwps, putWritten_eq_none_iff, List.append_eq_nil_iff] at hnone
          exact ⟨hnone.1.2, by simpa [and_assoc] using hnone.2, hwps, Or.inl hvendor⟩
        | some ie => simp [hvendor, hwps, put] at hnone
      | some vendor =>
        cases hmemory : memory.vendorProberesp with
        | true => simp [hvendor, hmemory, put] at hnone
        | false =>
          cases hwps : hapd.wps_probe_resp_ie with
          | none =>
            simp only [hvendor, hmemory, hwps, putWritten_eq_none_iff, List.append_eq_nil_iff,
              Bool.false_eq_true, if_false] at hnone
            exact ⟨hnone.1.2, by simpa [and_assoc] using hnone.2, hwps, Or.inr hmemory⟩
          | some ie => simp [hvendor, hmemory, hwps, put] at hnone
    · intro hno
      have haccess := hno.access
      simp only [List.mem_cons, List.not_mem_nil, or_false, forall_eq_or_imp, forall_eq] at haccess
      obtain ⟨hcap, hinter, hadv, hroam⟩ := haccess
      rcases hno.vendor with hvendor | hmemory
      · simp [hno.time, hcap, hinter, hadv, hroam, hno.wps, hvendor, putWritten]
      · cases hvendor : hapd.vendor_elements with
        | none => simp [hno.time, hcap, hinter, hadv, hroam, hno.wps, putWritten]
        | some vendor => simp [hno.time, hcap, hinter, hadv, hroam, hno.wps, hmemory, putWritten]
  · cases h

theorem memory_of_extra {memory : Memory} {ies : ExtraIes}
    (h : hostapd_build_ap_extra_ies writers iface hapd memory = some ies) :
    memory.extra = true := by
  unfold hostapd_build_ap_extra_ies at h
  dsimp only at h
  split at h
  · assumption
  · cases h

variable (writers) in
/-- A call whose memory lasts sends the parameters of its own state, with element blocks. -/
theorem sent_of_memory {c : Call ρ} (hparams : c.memory.params = true)
    (hextra : c.memory.extra = true) : ∃ beacon assocresp, sent writers c =
      some { ieee802_11_build_ap_params writers c.iface c.state with
        beacon_ies := beacon
        assocresp_ies := assocresp } := by
  rw [sent, if_pos hparams]
  unfold hostapd_build_ap_extra_ies
  dsimp only
  rw [if_pos hextra]
  exact ⟨_, _, rfl⟩

/-- A first call sends what a later one finds unchanged. -/
theorem sent_eq_of_same {c c' : Call ρ} (hmemory : c'.memory = c.memory)
    (h : SameBeacon writers c'.iface c.iface c'.state c.state) :
    sent writers c' = sent writers c := by
  rw [sent, sent, hmemory, h.params, h.extra]

end Unchanged

/-- One event that meets the condition, after the run behind `first`. -/
theorem Meets.refreshed {first : Option (Call ρ)} {iface : Iface ρ} {i : ℕ} {e : Event ρ}
    (h : Meets writers first iface i e)
    (hfollows : ∀ hapd, (handle writers iface e).bss[i]? = some hapd →
      Follows writers hapd (first.or (callAt iface i e))) : Refreshed writers iface i e where
  called c ies hapd hcall hmemory hies hget := by
    have hafter := hfollows hapd hget
    rw [hcall] at hafter
    obtain ⟨hno, hsame⟩ := h.called c hcall hmemory (memory_of_extra hies)
    refine (driver_current_iff hmemory hies hafter).mpr ⟨(proberesp_none_iff hies).mpr hno, ?_⟩
    intro c' hfirst
    exact sent_eq_of_same (hsame c' hfirst).1 (hsame c' hfirst).2
  announced before hapd hbefore hannounces hget := by
    obtain ⟨-, hdriver⟩ := hfollows hapd hget
    have hstate : hapd.state = before.state := by
      rw [handle_bss, hbefore, Option.map_some, Option.some.injEq] at hget
      rw [← hget]
      cases e with
      | change f g => cases hannounces
      | _ =>
        dsimp only
        split
        · rfl
        · rw [set_beacon_eq]
          split
          · rfl
          · rfl
    rcases h.announced before hbefore hannounces with
      ⟨rfl, c, hcall, hparams, hextra⟩ | ⟨c', rfl, hparams, hextra, hsame⟩
    · obtain ⟨beacon, assocresp, hsent⟩ := sent_of_memory writers hparams hextra
      have hstates : c.iface = iface.state ∧ c.state = before.state := by
        rw [callAt, hbefore, Option.bind_some] at hcall
        obtain ⟨memory, -, hcase⟩ := Option.bind_eq_some_iff.mp hcall
        split at hcase
        · cases hcase
        · rw [← Option.some.inj hcase]
          exact ⟨rfl, rfl⟩
      rw [hcall, Option.none_or, Option.bind_some, hsent, hstates.1, hstates.2, ← hstate] at hdriver
      exact ⟨beacon, none, assocresp, hdriver⟩
    · obtain ⟨beacon, assocresp, hsent⟩ := sent_of_memory writers hparams hextra
      rw [Option.some_or, Option.bind_some, hsent, hsame.params, ← hstate] at hdriver
      exact ⟨beacon, none, assocresp, hdriver⟩

/-- In every run whose events meet the condition, each call outside a channel switch whose
building succeeds leaves the parameters of the current state with the driver, and every
change that is announced is on the air. -/
theorem beacons_refreshed (writers : Writers ρ) (iface : IfaceState ρ) (bss : List (BssState ρ))
    (events : List (Event ρ))
    (hmeets : ∀ pre e i, pre ++ [e] <+: events →
      Meets writers (firstCall writers (startUp iface bss) i pre)
        (run writers (startUp iface bss) pre) i e) :
    ∀ pre e i, pre ++ [e] <+: events →
      Refreshed writers (run writers (startUp iface bss) pre) i e := by
  intro pre e i hpre
  refine (hmeets pre e i hpre).refreshed ?_
  intro hapd hget
  rw [← run_append] at hget
  have hrun := follows_run iface bss i (pre ++ [e]) hget
  rwa [firstCall_append] at hrun

def plainWriters : Writers Unit :=
  { eid := fun _ _ _ => [], own_capab_info := fun _ _ => 1,
    probe_resp_offloads := fun _ _ => none, wps_assoc_resp_ie := none }

/-- An 802.11g interface on channel 6. -/
def channelSix : IfaceState Unit :=
  { current_mode := some .g, beacon_int := 100, channel := 6, preamble := .short,
    ieee80211n := false, rest := () }

def testBss : BssState Unit :=
  { own_addr := Vector.replicate 6 2, ssid := [110, 120], dtim_period := 2, auth_algs := 1,
    hessid := Vector.replicate 6 0, rest := () }

/-- The beacon is set, and during a channel switch it is set again. -/
def switchAnnounced : List (Event Unit) :=
  [.setBeacon 0 {}, .change (fun iface => { iface with csa_in_progress := true }) (fun _ hapd => hapd),
    .setBeacons fun _ => {}]

theorem switchAnnounced_meets : ∀ pre e i, pre ++ [e] <+: switchAnnounced →
    Meets plainWriters (firstCall plainWriters (startUp channelSix [testBss]) i pre)
      (run plainWriters (startUp channelSix [testBss]) pre) i e := by
  have hplain : NoProbeElements plainWriters channelSix testBss {} :=
    ⟨⟨rfl, rfl⟩, fun _ _ => rfl, rfl, Or.inl rfl⟩
  intro pre e i hpre
  have hcases : (pre = [] ∧ e = .setBeacon 0 {}) ∨ (∃ e₁, pre = [e₁] ∧ ∃ f g, e = .change f g) ∨
      pre = switchAnnounced.take 2 ∧ e = .setBeacons fun _ => {} := by
    obtain ⟨rest, hrest⟩ := hpre
    match pre, hrest with
    | [], hrest => exact Or.inl ⟨rfl, (List.cons.inj hrest).1⟩
    | [e₁], hrest => exact Or.inr (Or.inl ⟨e₁, rfl, _, _, (List.cons.inj (List.cons.inj hrest).2).1⟩)
    | [e₁, e₂], hrest =>
      simp only [switchAnnounced, List.cons_append, List.nil_append, List.cons.injEq] at hrest
      obtain ⟨rfl, rfl, rfl, -⟩ := hrest
      exact Or.inr (Or.inr ⟨rfl, rfl⟩)
    | e₁ :: e₂ :: e₃ :: pre, hrest =>
      have hlength := congrArg List.length hrest
      simp only [switchAnnounced, List.length_append, List.length_cons, List.length_nil] at hlength
      omega
  rcases hcases with ⟨rfl, rfl⟩ | ⟨e₁, rfl, f, g, rfl⟩ | ⟨rfl, rfl⟩
  · refine ⟨?_, fun hapd _ hannounces => by cases hannounces⟩
    intro c hcall _ _
    cases i with
    | zero =>
      obtain rfl := (Option.some.inj hcall).symm
      exact ⟨hplain, fun c' hfirst => by cases hfirst⟩
    | succ i => cases hcall
  · refine ⟨?_, fun hapd _ hannounces => by cases hannounces⟩
    intro c hcall
    obtain ⟨hapd, -, hnone⟩ := Option.bind_eq_some_iff.mp hcall
    cases hnone
  · cases i with
    | zero =>
      refine ⟨fun c hcall => (by cases hcall), ?_⟩
      intro hapd hget _
      obtain rfl := (Option.some.inj hget).symm
      exact Or.inr ⟨_, rfl, rfl, rfl, fun _ => rfl, rfl, rfl, rfl, Iff.rfl, fun _ => Iff.rfl,
        Iff.rfl, ⟨rfl, rfl⟩, rfl, rfl, rfl, (), rfl⟩
    | succ i =>
      exact ⟨fun c hcall => (by cases hcall), fun hapd hget => (by cases hget)⟩

theorem beacons_refreshed_switch :
    Refreshed plainWriters (run plainWriters (startUp channelSix [testBss]) (switchAnnounced.take 2))
      0 (.setBeacons fun _ => {}) :=
  beacons_refreshed plainWriters channelSix [testBss] switchAnnounced switchAnnounced_meets _ _ 0
    (List.prefix_refl _)

/-- The beacon is set, then a station without ERP associates. -/
def nonErpJoins : List (Event Unit) :=
  [.setBeacon 0 {},
   .change (fun iface => { iface with num_sta_non_erp := iface.num_sta_non_erp + 1 })
     (fun _ hapd => hapd)]

/-- The beacon stays without protection when `handle_assoc` sets it again for the first
station without ERP. -/
theorem protection_not_sent :
    ¬∀ (writers : Writers Unit) (iface : IfaceState Unit) (bss : List (BssState Unit))
      (events pre : List (Event Unit)) (e : Event Unit) (i : ℕ), pre ++ [e] <+: events →
      Refreshed writers (run writers (startUp iface bss) pre) i e := by
  intro hall
  let before := run plainWriters (startUp channelSix [testBss]) nonErpJoins
  let c : Call Unit := { iface := before.state, state := testBss, memory := {} }
  have hcall := (hall plainWriters channelSix [testBss] _ nonErpJoins (.setBeacons fun _ => {}) 0
    (List.prefix_refl _)).called c { beacon := none, proberesp := none, assocresp := none } _ rfl
    rfl rfl rfl
  have hprotect := congrArg (Option.map (·.cts_protect)) hcall
  revert hprotect
  decide

end Nxwlan.BeaconRefresh
