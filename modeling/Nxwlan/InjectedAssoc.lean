import Nxwlan.AssocIds
import Nxwlan.ByteMemory
import Nxwlan.InfoElements

/-!
The association request that `NEW_STA` builds in a `struct ieee80211_mgmt` on the stack. Its
length is the size of the structure plus that of the elements, but the elements begin inside
the structure: `handle_assoc` reads twelve bytes behind them, beyond the structure.
-/
namespace Nxwlan.InjectedAssoc

open AssocIds ByteMemory InfoElements TaggedRecords
open Base64 (Bytes)
open ClientBlacklist (Mac)

def IEEE80211_HDRLEN : ℕ := 24

/-- The category and the largest of the actions. -/
def sizeofAction : ℕ := 1 + [3, 6, 13, 15, 3, 3, 2, 4, 1, 4, 6, 4, 3].foldl max 0

/-- The header and the largest member of the union, in the order of the source: `auth`,
`deauth`, `assoc_req`, `assoc_resp`, `reassoc_req`, `disassoc`, `beacon`, `probe_req`,
`probe_resp`, `action`. -/
def sizeofMgmt : ℕ :=
  IEEE80211_HDRLEN + [6, 2, 4, 6, 10, 2, 12, 0, 12, sizeofAction].foldl max 0

def sizeofAssocReq : ℕ := 4

/-- The offset of `u.assoc_req.variable`. -/
def assocVariable : ℕ := IEEE80211_HDRLEN + sizeofAssocReq

/-- A number of 16 bits in the order of the host. -/
def u16Bytes (big : Bool) (hi lo : UInt8) : Bytes := if big then [hi, lo] else [lo, hi]

def ssidElement (ssid : Bytes) : Bytes := encode (0, ssid)

/-- The supported rates. -/
def ratesElement : Bytes := [0x01, 0x05, 0x24, 0xb0, 0x48, 0x60, 0x6c]

/-- The configuration that `check_assoc_ies` reads. `memory` tells whether the allocations that it
makes succeed, and `unparsed` stands for a parse that fails, where the part for the capability
database returns without a value. The tests of a WPS element, and those that begin with
`wpa_validate_wpa_ie`, are parameters. -/
structure IesConf where
  ssid : Bytes
  wmm_enabled : Bool := true
  ieee80211n : Bool := false
  require_ht : Bool := false
  disable_11n : Bool := false
  ieee80211ac : Bool := false
  require_vht : Bool := false
  disable_11ac : Bool := false
  wpa : ℕ := 0
  wps_state : Bool := false
  memory : Bool := true
  wps_validate_assoc_req : Bytes → Bool := fun _ => true
  wpa_validate_wpa_ie : Bytes → Elems → Bool := fun _ _ => true
  unparsed : Bool := false

def check_ssid (ssid : Bytes) : Option Bytes → Bool
  | none => false
  | some ssid_ie => decide (ssid_ie.length = ssid.length ∧ ssid_ie = ssid)

/-- Seven bytes: three of the vendor, type, subtype, version, information. -/
def hostapd_eid_wmm_valid : Bytes → Bool
  | _ :: _ :: _ :: _ :: oui_subtype :: version :: _ :: _ => oui_subtype == 0 && version == 1
  | _ => false

def check_wmm (wmm_enabled : Bool) (wmm_ie : Option Bytes) : Bool :=
  match wmm_ie with
  | some eid => !wmm_enabled || hostapd_eid_wmm_valid eid
  | none => true

def copy_supp_rates (elems : Elems) : Bool :=
  match elems .supp_rates with
  | none => false
  | some rates => decide (rates.length + ((elems .ext_supp_rates).getD []).length ≤ 32)

/-- Whether the station is one with the capabilities of an element of at least `size` bytes. -/
def copyCapab (size : ℕ) (disabled : Bool) : Option Bytes → Bool
  | none => false
  | some capab => !decide (capab.length < size) && !disabled

def copy_sta_ht_capab (conf : IesConf) (elems : Elems) : Bool :=
  copyCapab 26 conf.disable_11n (elems .ht_capabilities)

def copy_sta_vht_capab (conf : IesConf) (elems : Elems) : Bool :=
  copyCapab 12 conf.disable_11ac (elems .vht_capabilities)

/-- `wpa_ie`, before a WPS element takes its place. -/
def wpaIe (conf : IesConf) (elems : Elems) : Option Bytes :=
  if conf.wpa.testBit 1 && (elems .rsn_ie).isSome then elems .rsn_ie
  else if conf.wpa.testBit 0 && (elems .wpa_ie).isSome then elems .wpa_ie
  else none

def checkSecurity (conf : IesConf) (ies : Bytes) (elems : Elems) : Bool :=
  if conf.wps_state && (elems .wps_ie).isSome then conf.wps_validate_assoc_req ies
  else
    match wpaIe conf elems with
    | none => conf.wps_state || conf.wpa == 0
    | some wpa_ie => conf.wpa_validate_wpa_ie wpa_ie elems

/-- `check_assoc_ies`; `true` for the status of success. -/
def check_assoc_ies (conf : IesConf) (ies : Bytes) : Bool :=
  if conf.memory = false then false
  else
    let (res, elems) := ieee802_11_parse_elems ies
    if res = .ParseFailed then conf.unparsed
    else check_ssid conf.ssid (elems .ssid) && check_wmm conf.wmm_enabled (elems .wmm) &&
      copy_supp_rates elems &&
      !(conf.ieee80211n && conf.require_ht && !copy_sta_ht_capab conf elems) &&
      !(conf.ieee80211ac && conf.require_vht && !copy_sta_vht_capab conf elems) &&
      checkSecurity conf ies elems

/-- A command `NEW_STA` for `addr`. The addresses of `mem` are relative to `mgmt`: it holds the
stack before the command, `mgmt` itself and what is behind it. -/
structure Injection where
  addr : Mac
  mem : Memory UInt8
  big : Bool := false
  ies : IesConf
  conf : Conf
  hapd : Hapd := {}
  env : Env := {}

namespace Injection

variable (x : Injection)

/-- The memory with the fixed fields of the association request. -/
def fixedFields : Memory UInt8 :=
  let mgmt := store x.mem 0 (List.replicate sizeofMgmt 0)
  let mgmt := store mgmt 0 [0, 0]
  let mgmt := store mgmt 4 x.conf.own_addr.toList
  let mgmt := store mgmt 10 x.addr.toList
  let mgmt := store mgmt 16 x.conf.own_addr.toList
  let mgmt := store mgmt IEEE80211_HDRLEN (u16Bytes x.big 0x31 0x04)
  -- `assoc_resp.aid`, where the elements begin
  store mgmt (IEEE80211_HDRLEN + 4) (u16Bytes x.big 0x01 0x00)

/-- The memory with the elements. -/
def frame : Memory UInt8 :=
  let mgmt := store x.fixedFields assocVariable [0, UInt8.ofNat x.ies.ssid.length]
  let mgmt := store mgmt (assocVariable + 2) x.ies.ssid
  store mgmt (assocVariable + 2 + x.ies.ssid.length) ratesElement

/-- `ies_assoc_ptr - mgmt.u.assoc_req.variable`. -/
def iesLen : ℕ := 2 + x.ies.ssid.length + 7

/-- The length that `handle_assoc` is called with. -/
def len : ℕ := sizeofMgmt + x.iesLen

/-- The number of bytes behind the fixed fields, in `handle_assoc`. -/
def left : ℕ := x.len - (IEEE80211_HDRLEN + sizeofAssocReq)

/-- The bytes that `handle_assoc` gives to `check_assoc_ies`. -/
def region : Bytes := load x.frame assocVariable x.left

/-- The fields that `handle_assoc` reads. -/
def received : AssocFrame where
  sa := Vector.ofFn (fun i : Fin 6 => x.frame (10 + i))
  short := decide (x.len < IEEE80211_HDRLEN + sizeofAssocReq)
  listen_interval := (x.frame 26).toNat + 256 * (x.frame 27).toNat

/-- The environment of the injection, with the answer of `check_assoc_ies` to its elements. -/
def answered : Env := { x.env with check_assoc_ies := check_assoc_ies x.ies x.region }

/-- The state after the injected authentication. -/
def authenticated : Hapd := handle_auth x.conf x.hapd (injectedAuth x.addr) x.answered

/-- The request is well formed: its elements are the SSID and the rates, within `mgmt`; they are
accepted, and the AID after the command is the one that `hostapd_get_aid` gave. -/
structure WellFormed : Prop where
  region : x.region = ssidElement x.ies.ssid ++ ratesElement
  inside : assocVariable + x.left ≤ sizeofMgmt
  accepted : check_assoc_ies x.ies x.region = true
  aid : ∃ sta hapd, ap_get_sta x.authenticated x.addr = some sta ∧
    hostapd_get_aid x.authenticated sta = some hapd ∧
    aidAt (inject x.conf x.hapd x.addr x.answered) x.addr = aidAt hapd x.addr

end Injection

variable {x : Injection}

theorem sizeofMgmt_eq : sizeofMgmt = 40 := rfl

theorem length_u16Bytes (big : Bool) (hi lo : UInt8) : (u16Bytes big hi lo).length = 2 := by
  cases big
  · rfl
  · rfl

theorem length_ssidElement (ssid : Bytes) : (ssidElement ssid).length = ssid.length + 2 := rfl

/-- The elements are stored one behind the other. -/
theorem frame_eq (x : Injection) :
    x.frame = store x.fixedFields assocVariable (ssidElement x.ies.ssid ++ ratesElement) := by
  have hssid : store (store x.fixedFields assocVariable [0, UInt8.ofNat x.ies.ssid.length])
      (assocVariable + 2) x.ies.ssid =
        store x.fixedFields assocVariable (ssidElement x.ies.ssid) :=
    store_store _ _ _ _
  have hlen : assocVariable + 2 + x.ies.ssid.length =
      assocVariable + (ssidElement x.ies.ssid).length := by
    rw [length_ssidElement]
    omega
  rw [Injection.frame, hssid, hlen, store_store]

theorem fixedFields_addr (x : Injection) (i : Fin 6) : x.fixedFields (10 + i) = x.addr[i] := by
  have hlen : x.addr.toList.length = 6 := Vector.length_toList
  have hi : (i : ℕ) < x.addr.toList.length := by omega
  rw [Injection.fixedFields]
  dsimp only [IEEE80211_HDRLEN]
  rw [store_before (by omega), store_before (by omega), store_before (by omega), store_at hi,
    Vector.getElem_toList]
  rfl

/-- The listen interval is not set. -/
theorem fixedFields_listen (x : Injection) {i : ℕ} (hi : 26 ≤ i) (hi' : i < 28) :
    x.fixedFields i = 0 := by
  have hcapab := length_u16Bytes x.big 0x31 0x04
  have hown : x.conf.own_addr.toList.length = 6 := Vector.length_toList
  have haddr : x.addr.toList.length = 6 := Vector.length_toList
  have hzero : store x.mem 0 (List.replicate sizeofMgmt 0) (0 + i) = 0 := by
    rw [store_at (by rw [List.length_replicate, sizeofMgmt_eq]; omega), List.getElem_replicate]
  rw [Nat.zero_add] at hzero
  rw [Injection.fixedFields]
  dsimp only [IEEE80211_HDRLEN]
  rw [store_before (by omega), store_behind (by omega), store_behind (by omega),
    store_behind (by omega), store_behind (by omega),
    store_behind (by rw [List.length_cons, List.length_singleton]; omega), hzero]

/-- The fixed fields are those of the request that is injected. -/
theorem received_eq (x : Injection) : x.received = injectedAssoc x.addr := by
  have hvariable : assocVariable = 28 := rfl
  have hsa : Vector.ofFn (fun i : Fin 6 => x.frame (10 + i)) = x.addr := by
    apply Vector.ext
    intro i hi
    rw [Vector.getElem_ofFn, frame_eq, store_before (by rw [hvariable]; simp only; omega)]
    exact fixedFields_addr x ⟨i, hi⟩
  have hshort : ¬ x.len < IEEE80211_HDRLEN + sizeofAssocReq := by
    rw [Injection.len, sizeofMgmt_eq, IEEE80211_HDRLEN, sizeofAssocReq]
    omega
  have hlisten : ∀ i, 26 ≤ i → i < 28 → x.frame i = 0 := by
    intro i hi hi'
    rw [frame_eq, store_before (by omega), fixedFields_listen x hi hi']
  rw [Injection.received, hsa, hlisten 26 le_rfl (by omega), hlisten 27 (by omega) (by omega),
    decide_eq_false hshort]
  rfl

/-- Behind the two elements there are twelve more bytes in the region. -/
theorem region_eq (x : Injection) :
    x.region = ssidElement x.ies.ssid ++ ratesElement ++
      load x.frame (assocVariable + x.iesLen) 12 := by
  have hlen : x.iesLen = (ssidElement x.ies.ssid ++ ratesElement).length := by
    have hrates : ratesElement.length = 7 := rfl
    rw [Injection.iesLen, List.length_append, length_ssidElement, hrates]
    omega
  have hleft : x.left = x.iesLen + 12 := by
    rw [Injection.left, Injection.len, sizeofMgmt_eq, IEEE80211_HDRLEN, sizeofAssocReq]
    omega
  have helements : load x.frame assocVariable x.iesLen =
      ssidElement x.ies.ssid ++ ratesElement := by
    rw [frame_eq, hlen, load_store]
  rw [Injection.region, hleft, load_add, helements]

/-- The region ends behind `mgmt`, by as many bytes as the elements have. -/
theorem region_end (x : Injection) : assocVariable + x.left = sizeofMgmt + x.iesLen := by
  rw [Injection.left, Injection.len, sizeofMgmt_eq, assocVariable, IEEE80211_HDRLEN,
    sizeofAssocReq]
  omega

/-- Zeros behind the elements are empty SSID elements, and the last SSID counts. -/
theorem rejected_of_zeros (hssid : x.ies.ssid ≠ []) (hshort : x.ies.ssid.length < 256)
    (hzeros : load x.frame (assocVariable + x.iesLen) 12 = List.replicate 12 0) :
    check_assoc_ies x.ies x.region = false := by
  let records : List Record :=
    (0, x.ies.ssid) :: (1, [0x24, 0xb0, 0x48, 0x60, 0x6c]) :: List.replicate 6 (0, [])
  have hregion : x.region = records.flatMap encode := by
    rw [region_eq, hzeros, List.append_assoc]
    rfl
  have hrecords : ∀ r ∈ records, Short r :=
    List.forall_mem_cons.mpr ⟨hshort, by simp [Short]⟩
  have hparse := parse_records hrecords
  have hlast : (records.foldl takeElement {}).elems .ssid = some [] := rfl
  have hknown : (records.foldl takeElement {}).unknown = 0 := rfl
  have hcheck : check_ssid x.ies.ssid (some []) = false := by
    rw [check_ssid, decide_eq_false_iff_not]
    exact fun h => hssid h.2.symm
  rw [check_assoc_ies, hregion, hparse, hknown]
  split
  · rfl
  · simp only [if_true, reduceCtorEq, if_false, hlast, hcheck, Bool.false_and]

/-- With zeros there no AID is taken; the callback writes 1 into the station all the same. -/
theorem aid_of_zeros (hssid : x.ies.ssid ≠ []) (hshort : x.ies.ssid.length < 256)
    (hzeros : load x.frame (assocVariable + x.iesLen) 12 = List.replicate 12 0)
    (hnew : ap_get_sta x.hapd x.addr = none) (hadds : Adds x.conf x.hapd x.addr x.answered) :
    aidAt (inject x.conf x.hapd x.addr x.answered) x.addr = some 1 ∧
      (inject x.conf x.hapd x.addr x.answered).sta_aid = x.hapd.sta_aid := by
  have hrejected : x.answered.check_assoc_ies = false := rejected_of_zeros hssid hshort hzeros
  refine ⟨?_, injectedAssoc_rejected hnew hadds ?_⟩
  · rw [aidAt_inject hnew hadds, if_pos rfl]
  · rw [hrejected]
    exact fun h => Bool.false_ne_true h.2

/-- For no SSID is the request well formed: its fixed fields are those of the request that is
injected, but the region has twelve bytes too many and ends behind `mgmt`. -/
theorem injected_assoc_never (x : Injection) :
    x.received = injectedAssoc x.addr ∧
    (∃ more : Bytes, more.length = 12 ∧
      x.region = ssidElement x.ies.ssid ++ ratesElement ++ more) ∧
    sizeofMgmt < assocVariable + x.left ∧ ¬ x.WellFormed := by
  have hend := region_end x
  have hlong : sizeofMgmt < assocVariable + x.left := by
    rw [hend, Injection.iesLen]
    omega
  refine ⟨received_eq x, ⟨_, length_load _ _ _, region_eq x⟩, hlong, fun hformed => ?_⟩
  have hinside := hformed.inside
  omega

/-- The SSID is `A` and the stack is cleared. -/
def shortSsid : Injection where
  addr := Vector.replicate 6 4
  mem := fun _ => 0
  ies := { ssid := [65] }
  conf := openConf

theorem short_ssid_rejected :
    check_assoc_ies shortSsid.ies shortSsid.region = false ∧
    ¬ shortSsid.WellFormed ∧
    aidAt (inject shortSsid.conf shortSsid.hapd shortSsid.addr shortSsid.answered)
      shortSsid.addr = some 1 := by
  have hzeros : load shortSsid.frame (assocVariable + shortSsid.iesLen) 12 =
      List.replicate 12 0 := by decide +kernel
  have hadds : Adds shortSsid.conf shortSsid.hapd shortSsid.addr shortSsid.answered :=
    ⟨by decide +kernel, by decide, rfl⟩
  have hrejected := rejected_of_zeros (x := shortSsid) (by decide) (by decide) hzeros
  refine ⟨hrejected, fun hformed => ?_,
    (aid_of_zeros (x := shortSsid) (by decide) (by decide) hzeros rfl hadds).1⟩
  rw [hformed.accepted] at hrejected
  cases hrejected

end Nxwlan.InjectedAssoc
