import Nxwlan.BeaconRefresh
import Nxwlan.ScanResults

/-!
The buffers of the probe response and of the beacon. Both are as large as a constant, for
all elements that are not counted, plus the WPS, P2P and vendor elements. The element that
`ADD_IE` stores is written into both and counted for neither, so it shares the constant
with everything else.
-/
namespace Nxwlan.FrameBuffers

open BeaconRefresh ScanResults
open PyText (Text)
open Base64 (Bytes)
open ClientBlacklist (Mac)

/-- The writers of elements, with the room up to the constant size that some of them keep to,
and the capabilities in a probe response. -/
structure FrameWriters (ρ : Type) where
  eid : Eid → ℤ → IfaceState ρ → BssState ρ → Bytes
  own_capab_info : IfaceState ρ → BssState ρ → ℕ

/-- The state that only the builders with P2P and Hotspot 2.0 read; `manager` says whether they
were compiled with it. -/
structure P2pState where
  p2p : BitVec 32 := 0
  p2p_beacon_ie : Option Bytes := none
  p2p_probe_resp_ie : Option Bytes := none
  manager : Bool := false
  hs20 : Bool := false
  disable_dgaf : Bool := false

def P2P_ENABLED : BitVec 32 := 1

def P2P_GROUP_OWNER : BitVec 32 := 2

def P2P_MANAGE : BitVec 32 := 8

def P2P_ALLOW_CROSS_CONNECTION : BitVec 32 := 16

def MAX_PROBERESP_LEN : ℕ := 2320

def BEACON_TAIL_BUF_SIZE : ℕ := 2064

def hostapd_eid_p2p_manage (p2p : P2pState) : Bytes :=
  [221, 8, 0x50, 0x6f, 0x9a, 9, 10, 1, 0,
    if p2p.p2p &&& P2P_ALLOW_CROSS_CONNECTION ≠ 0 then 7 else 5]

def hostapd_eid_hs20_indication (p2p : P2pState) : Bytes :=
  if p2p.hs20 then [221, 5, 0x50, 0x6f, 0x9a, 16, if p2p.disable_dgaf then 1 else 0] else []

/-- The element of a P2P manager, if it is written. -/
def manageElement (p2p : P2pState) : Bytes :=
  if p2p.manager ∧
      p2p.p2p &&& (P2P_MANAGE ||| P2P_ENABLED ||| P2P_GROUP_OWNER) = P2P_MANAGE then
    hostapd_eid_p2p_manage p2p
  else []

variable {ρ : Type} (w : FrameWriters ρ) (iface : IfaceState ρ) (hapd : BssState ρ) (p2p : P2pState)

/-- One element behind what was written; `size` is the constant part of the buffer. -/
def putEid (size : ℕ) (buf : Bytes) (e : Eid) : Bytes :=
  buf ++ w.eid e (size - buf.length) iface hapd

/-- The elements of both frames behind the extended rates. -/
def commonEids (zone : List Eid) : List Eid :=
  [.ext_supp_rates, .wpa, .bss_load, .ht_capabilities, .ht_operation, .ext_capab, .time_adv] ++
    zone ++ [.interworking, .adv_proto, .roaming_consortium, .csa, .vht_capabilities,
      .vht_operation, .wmm]

/-- A probe response up to the element for WMM; without a request it has no receiver. -/
def probeRespStart (da : Option Mac) : Bytes :=
  let header := [0x50, 0, 0, 0] ++ (da.getD (Vector.replicate 6 0)).toList ++
    hapd.own_addr.toList ++ hapd.own_addr.toList ++ [0, 0] ++ List.replicate 8 0 ++
    le16 iface.beacon_int ++ le16 (w.own_capab_info iface hapd)
  let buf := header ++ 0 :: UInt8.ofNat hapd.ssid.length :: hapd.ssid
  let buf := putEid w iface hapd MAX_PROBERESP_LEN buf .supp_rates
  let buf := buf ++ hostapd_eid_ds_params iface
  let buf := putEid w iface hapd MAX_PROBERESP_LEN buf .country
  let buf := buf ++ hostapd_eid_erp_info iface
  (commonEids [.time_zone]).foldl (putEid w iface hapd MAX_PROBERESP_LEN) buf

/-- The tail of a beacon up to the element for WMM. -/
def tailStart : Bytes :=
  let buf := putEid w iface hapd BEACON_TAIL_BUF_SIZE [] .country
  let buf := buf ++ hostapd_eid_erp_info iface
  (commonEids []).foldl (putEid w iface hapd BEACON_TAIL_BUF_SIZE) buf

/-- What is written, and the size that was allocated. -/
structure Buffer where
  written : Bytes
  allocated : ℕ

/-- Nothing is written beyond the size. -/
def Buffer.Holds (b : Buffer) : Prop := b.written.length ≤ b.allocated

def hostapd_gen_probe_resp (da : Option Mac) (is_p2p : Bool) : Buffer where
  written := probeRespStart w iface hapd da ++
    (if hapd.wps_state ≠ 0 then hapd.wps_probe_resp_ie.getD [] else []) ++
    hapd.vendorspec_beacon_ie.getD [] ++
    (if p2p.p2p &&& P2P_ENABLED ≠ 0 ∧ is_p2p then p2p.p2p_probe_resp_ie.getD [] else []) ++
    manageElement p2p ++ hostapd_eid_hs20_indication p2p ++ hapd.vendor_elements.getD []
  allocated := MAX_PROBERESP_LEN + (hapd.wps_probe_resp_ie.getD []).length +
    (p2p.p2p_probe_resp_ie.getD []).length + (hapd.vendor_elements.getD []).length

/-- The tail part of `ieee802_11_build_ap_params`. -/
def buildTail : Buffer where
  written := tailStart w iface hapd ++
    (if hapd.wps_state ≠ 0 then hapd.wps_beacon_ie.getD [] else []) ++
    hapd.vendorspec_beacon_ie.getD [] ++
    (if p2p.p2p &&& P2P_ENABLED ≠ 0 then p2p.p2p_beacon_ie.getD [] else []) ++
    manageElement p2p ++ hostapd_eid_hs20_indication p2p ++ hapd.vendor_elements.getD []
  allocated := BEACON_TAIL_BUF_SIZE +
    (if hapd.wps_state ≠ 0 then (hapd.wps_beacon_ie.getD []).length else 0) +
    (p2p.p2p_beacon_ie.getD []).length + (hapd.vendor_elements.getD []).length

/-- The length of the elements that are not counted on their own, without the one of `ADD_IE`. -/
def probeRespOthers (da : Option Mac) : ℕ :=
  (probeRespStart w iface hapd da).length + (manageElement p2p).length +
    (hostapd_eid_hs20_indication p2p).length

def tailOthers : ℕ :=
  (tailStart w iface hapd).length + (manageElement p2p).length +
    (hostapd_eid_hs20_indication p2p).length

/-- The length of the elements that are counted and left out. -/
def probeRespSpare (is_p2p : Bool) : ℕ :=
  (if hapd.wps_state ≠ 0 then 0 else (hapd.wps_probe_resp_ie.getD []).length) +
    if p2p.p2p &&& P2P_ENABLED ≠ 0 ∧ is_p2p then 0 else (p2p.p2p_probe_resp_ie.getD []).length

def tailSpare : ℕ :=
  if p2p.p2p &&& P2P_ENABLED ≠ 0 then 0 else (p2p.p2p_beacon_ie.getD []).length

/-- The state after a request to the daemon. -/
def afterRequest (request : Text) : BssState ρ :=
  { hapd with
    vendorspec_beacon_ie := hostapd_ctrl_iface_receive hapd.vendorspec_beacon_ie request }

variable {w iface hapd p2p}

/-- An optional element is written or left out. -/
theorem length_optional (c : Prop) [Decidable c] (ie : Bytes) :
    (if c then ie else []).length + (if c then 0 else ie.length) = ie.length := by
  split
  · exact Nat.add_zero _
  · exact Nat.zero_add _

theorem probe_resp_holds_iff (da : Option Mac) (is_p2p : Bool) :
    (hostapd_gen_probe_resp w iface hapd p2p da is_p2p).Holds ↔
      probeRespOthers w iface hapd p2p da + (hapd.vendorspec_beacon_ie.getD []).length ≤
        MAX_PROBERESP_LEN + probeRespSpare hapd p2p is_p2p := by
  simp only [Buffer.Holds, hostapd_gen_probe_resp, probeRespOthers, probeRespSpare,
    List.length_append]
  have hwps := length_optional (hapd.wps_state ≠ 0) (hapd.wps_probe_resp_ie.getD [])
  have hp2p := length_optional (p2p.p2p &&& P2P_ENABLED ≠ 0 ∧ is_p2p = true)
    (p2p.p2p_probe_resp_ie.getD [])
  omega

theorem tail_holds_iff :
    (buildTail w iface hapd p2p).Holds ↔
      tailOthers w iface hapd p2p + (hapd.vendorspec_beacon_ie.getD []).length ≤
        BEACON_TAIL_BUF_SIZE + tailSpare p2p := by
  simp only [Buffer.Holds, buildTail, tailOthers, tailSpare, List.length_append]
  have hwps : (if hapd.wps_state ≠ 0 then hapd.wps_beacon_ie.getD [] else []).length =
      if hapd.wps_state ≠ 0 then (hapd.wps_beacon_ie.getD []).length else 0 := by
    rw [apply_ite List.length, List.length_nil]
  have hp2p := length_optional (p2p.p2p &&& P2P_ENABLED ≠ 0) (p2p.p2p_beacon_ie.getD [])
  omega

/-- Without P2P and Hotspot 2.0, and with writers that take no notice of the room, the tail is
the one of the beacon parameters. -/
theorem written_buildTail (writers : Writers ρ) (iface : IfaceState ρ) (hapd : BssState ρ) :
    (buildTail ⟨fun e _ => writers.eid e, writers.own_capab_info⟩ iface hapd {}).written =
      beaconTail writers iface hapd := by
  unfold buildTail tailStart commonEids beaconTail manageElement hostapd_eid_hs20_indication
  simp only [putEid, List.foldl_cons, List.foldl_nil, List.cons_append, List.nil_append,
    List.append_assoc]
  simp

/-- What is stored is never longer than half the digits that a request has room for. -/
theorem length_receive (stored : Option Bytes) (request : Text)
    (hstored : (stored.getD []).length ≤ 2044) :
    ((hostapd_ctrl_iface_receive stored request).getD []).length ≤ 2044 := by
  rw [hostapd_ctrl_iface_receive]
  have hlen : ((request.take 4095).drop 7).length ≤ 4088 := by
    rw [List.length_drop, List.length_take]
    omega
  split
  · rw [hostapd_ctrl_iface_add_ie]
    split
    · exact Nat.zero_le _
    · cases hhex : hexstr2bin ((request.take 4095).drop 7)
          (((request.take 4095).drop 7).length / 2) with
      | none => exact hstored
      | some elems =>
        have hbytes := PyText.length_of_unhex hhex
        rw [List.length_take] at hbytes
        simp only [Option.getD_some]
        omega
  · exact hstored

/-- When the other elements are within the original limits, an element of up to 1552 bytes fits
into both frames. -/
theorem holds_of_limits (da : Option Mac) (is_p2p : Bool)
    (hprobe : probeRespOthers w iface hapd p2p da ≤ 768)
    (htail : tailOthers w iface hapd p2p ≤ 512)
    (hstored : (hapd.vendorspec_beacon_ie.getD []).length ≤ 1552) :
    (hostapd_gen_probe_resp w iface hapd p2p da is_p2p).Holds ∧
      (buildTail w iface hapd p2p).Holds := by
  rw [probe_resp_holds_iff, tail_holds_iff, MAX_PROBERESP_LEN, BEACON_TAIL_BUF_SIZE]
  constructor
  · omega
  · omega

/-- After any request, each buffer holds what is written exactly when the stored element and
the uncounted elements together fit into its constant part and what is counted in vain; both
hold it when the other elements are within the original limits and the stored one has up to
1552 bytes. -/
theorem frame_buffers_iff (w : FrameWriters ρ) (iface : IfaceState ρ) (hapd : BssState ρ)
    (p2p : P2pState) (request : Text) :
    (∀ (da : Option Mac) (is_p2p : Bool),
      (hostapd_gen_probe_resp w iface (afterRequest hapd request) p2p da is_p2p).Holds ↔
        probeRespOthers w iface (afterRequest hapd request) p2p da +
            ((hostapd_ctrl_iface_receive hapd.vendorspec_beacon_ie request).getD []).length ≤
          MAX_PROBERESP_LEN + probeRespSpare hapd p2p is_p2p) ∧
    ((buildTail w iface (afterRequest hapd request) p2p).Holds ↔
      tailOthers w iface (afterRequest hapd request) p2p +
          ((hostapd_ctrl_iface_receive hapd.vendorspec_beacon_ie request).getD []).length ≤
        BEACON_TAIL_BUF_SIZE + tailSpare p2p) ∧
    ∀ (da : Option Mac) (is_p2p : Bool),
      probeRespOthers w iface (afterRequest hapd request) p2p da ≤ 768 →
      tailOthers w iface (afterRequest hapd request) p2p ≤ 512 →
      ((hostapd_ctrl_iface_receive hapd.vendorspec_beacon_ie request).getD []).length ≤ 1552 →
      (hostapd_gen_probe_resp w iface (afterRequest hapd request) p2p da is_p2p).Holds ∧
        (buildTail w iface (afterRequest hapd request) p2p).Holds :=
  ⟨fun _ _ => probe_resp_holds_iff _ _, tail_holds_iff, fun da is_p2p => holds_of_limits da is_p2p⟩

/-- An access point of 802.11g with long and short rates that advertises the time. -/
def timeIface : IfaceState Unit :=
  { current_mode := some .g, beacon_int := 100, channel := 6, preamble := .long,
    ieee80211n := false, rest := () }

def timeBss : BssState Unit :=
  { own_addr := Vector.replicate 6 2, ssid := List.replicate 32 110, dtim_period := 2,
    auth_algs := 1, hessid := Vector.replicate 6 0, rest := () }

/-- Its elements; the name of the time zone is as long as it may be. -/
def timeWriters : FrameWriters Unit where
  eid := fun e _ _ _ =>
    match e with
    | .supp_rates => [1, 8, 0x82, 0x84, 0x8b, 0x96, 0x0c, 0x12, 0x18, 0x24]
    | .ext_supp_rates => [50, 4, 0x30, 0x48, 0x60, 0x6c]
    | .time_adv => [69, 17, 2, 0xe0, 0x07, 1, 1, 0, 0, 0, 0, 0, 0, 0, 0, 0, 0, 0, 0]
    | .time_zone => 98 :: 255 :: List.replicate 255 65
    | _ => []
  own_capab_info := fun _ _ => 1

/-- As many bytes as a request has room for. -/
def longElement : Bytes := List.replicate 2044 0

def longRequest : Text := "ADD_IE ".toList ++ ReceiveLoop.hexEncode longElement

/-- With the longest element the other ones are within the original limits and both buffers
are too small. -/
theorem long_element_overflows :
    probeRespOthers timeWriters timeIface (afterRequest timeBss longRequest) {} none ≤ 768 ∧
    ¬ (hostapd_gen_probe_resp timeWriters timeIface (afterRequest timeBss longRequest) {} none
      false).Holds ∧
    tailOthers timeWriters timeIface (afterRequest timeBss longRequest) {} ≤ 512 ∧
    ¬ (buildTail timeWriters timeIface (afterRequest timeBss longRequest) {}).Holds := by
  have hlen : longElement.length = 2044 := List.length_replicate
  have hne : longElement ≠ [] := List.length_pos_iff.mp (by omega)
  have hstored : hostapd_ctrl_iface_receive timeBss.vendorspec_beacon_ie longRequest =
      some longElement := receive_add_ie _ hne hlen.le
  have hafter : afterRequest timeBss longRequest =
      { timeBss with vendorspec_beacon_ie := some longElement } := by
    rw [afterRequest, hstored]
  have hprobe : probeRespOthers timeWriters timeIface (afterRequest timeBss longRequest) {} none =
      368 := by
    rw [hafter]
    decide +kernel
  have htail : tailOthers timeWriters timeIface (afterRequest timeBss longRequest) {} = 28 := by
    rw [hafter]
    rfl
  have hdata : (afterRequest timeBss longRequest).vendorspec_beacon_ie.getD [] = longElement := by
    rw [hafter, Option.getD_some]
  have hprobeSpare : probeRespSpare (afterRequest timeBss longRequest) {} false = 0 := by
    rw [hafter]
    rfl
  rw [probe_resp_holds_iff, tail_holds_iff, hprobe, htail, hdata, hlen, hprobeSpare]
  decide

end Nxwlan.FrameBuffers
