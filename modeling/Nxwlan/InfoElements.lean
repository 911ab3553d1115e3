import Nxwlan.Base64
import Nxwlan.TaggedRecords

/-!
`ieee802_11_parse_elems` of hostapd. The fields of the result are cleared first and filled
while the elements are read, so a parse that fails leaves the elements in front of the
broken one.
-/
namespace Nxwlan.InfoElements

open TaggedRecords
open Base64 (Bytes)

/-- The pointers of `ieee802_11_elems`. -/
inductive Field where
  | ssid | supp_rates | fh_params | ds_params | cf_params | tim | ibss_params | challenge
  | erp_info | ext_supp_rates | wpa_ie | rsn_ie | wmm | wmm_tspec | wps_ie | power_cap
  | supp_channels | mdie | ftie | timeout_int | ht_capabilities | ht_operation
  | vht_capabilities | vht_operation | vendor_ht_cap | p2p | wfd | link_id | interworking
  | qos_map_set | hs20 | ext_capab | bss_max_idle_period | ssid_list
  deriving DecidableEq

/-- `ieee802_11_elems`: what each pointer and its length delimit. -/
abbrev Elems := Field → Option Bytes

inductive ParseRes where
  | ParseOK | ParseUnknown | ParseFailed
  deriving DecidableEq

/-- The field of an element; one that is too short for it is ignored, others are unknown. -/
inductive Place where
  | field (f : Field)
  | ignored
  | unknown

/-- `ieee802_11_parse_vendor_specific`; `none` for -1. -/
def ieee802_11_parse_vendor_specific : Bytes → Option Field
  | o1 :: o2 :: o3 :: type :: rest =>
      if (o1, o2, o3) = (0x00, 0x50, 0xf2) then
        if type = 1 then some .wpa_ie
        else if type = 2 then
          match rest with
          | [] => none
          | subtype :: _ =>
              if subtype = 0 ∨ subtype = 1 then some .wmm
              else if subtype = 2 then some .wmm_tspec
              else none
        else if type = 4 then some .wps_ie
        else none
      else if (o1, o2, o3) = (0x50, 0x6f, 0x9a) then
        if type = 9 then some .p2p
        else if type = 10 then some .wfd
        else if type = 16 then some .hs20
        else none
      else if (o1, o2, o3) = (0x00, 0x90, 0x4c) then
        if type = 0x33 then some .vendor_ht_cap else none
      else none
  | _ => none

/-- The `switch` over the identifiers. -/
def place (id : UInt8) (data : Bytes) : Place :=
  match id.toNat with
  | 0 => .field .ssid
  | 1 => .field .supp_rates
  | 2 => .field .fh_params
  | 3 => .field .ds_params
  | 4 => .field .cf_params
  | 5 => .field .tim
  | 6 => .field .ibss_params
  | 16 => .field .challenge
  | 33 => .field .power_cap
  | 36 => .field .supp_channels
  | 42 => .field .erp_info
  | 45 => .field .ht_capabilities
  | 48 => .field .rsn_ie
  | 50 => .field .ext_supp_rates
  | 54 => .field .mdie
  | 55 => .field .ftie
  | 56 => .field .timeout_int
  | 61 => .field .ht_operation
  | 84 => .field .ssid_list
  | 90 => if data.length < 3 then .ignored else .field .bss_max_idle_period
  | 101 => if data.length < 18 then .ignored else .field .link_id
  | 107 => .field .interworking
  | 110 => if data.length < 16 then .ignored else .field .qos_map_set
  | 127 => .field .ext_capab
  | 191 => .field .vht_capabilities
  | 192 => .field .vht_operation
  | 221 =>
      match ieee802_11_parse_vendor_specific data with
      | some f => .field f
      | none => .unknown
  | _ => .unknown

/-- The fields so far and the number of unknown elements. -/
structure Parsed where
  elems : Elems := fun _ => none
  unknown : ℕ := 0

/-- One round of the loop. -/
def takeElement (parsed : Parsed) (e : Record) : Parsed :=
  match place e.1 e.2 with
  | .field f => { parsed with elems := Function.update parsed.elems f (some e.2) }
  | .ignored => parsed
  | .unknown => { parsed with unknown := parsed.unknown + 1 }

/-- The result and what is in the fields after it. -/
def ieee802_11_parse_elems (start : Bytes) : ParseRes × Elems :=
  let (parsed, whole) := scan takeElement {} start
  (if whole = false then .ParseFailed
    else if parsed.unknown = 0 then .ParseOK
    else .ParseUnknown, parsed.elems)

theorem parse_failed_iff (start : Bytes) :
    (ieee802_11_parse_elems start).1 = .ParseFailed ↔ ¬ IsRecords start := by
  rw [← scan_complete_iff takeElement {} start, ieee802_11_parse_elems]
  dsimp only
  cases hwhole : (scan takeElement {} start).2 with
  | false => simp
  | true =>
    rw [if_neg (by decide)]
    split
    · simp
    · simp

theorem parse_records {records : List Record} (hshort : ∀ r ∈ records, Short r) :
    ieee802_11_parse_elems (records.flatMap encode) =
      (if (records.foldl takeElement {}).unknown = 0 then .ParseOK else .ParseUnknown,
        (records.foldl takeElement {}).elems) := by
  have hscan := scan_records takeElement {} hshort []
  rw [List.append_nil, scan] at hscan
  rw [ieee802_11_parse_elems, hscan]
  rfl

end Nxwlan.InfoElements
