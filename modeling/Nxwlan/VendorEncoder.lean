import Nxwlan.ScanCommands

/-!
The encoder of vendor elements for any text of hex digits, in lower and upper case. Both
forms are a head of six bytes and the digits of the data, the plain form without a break
and the dotted one with a colon between each two pairs.
-/
namespace Nxwlan.VendorEncoder

open PyText ReceiveLoop ScanCommands
open Base64 (Bytes)

/-- The bytes in front of the data; the second one is the number of those behind it. -/
def vendorHead (data : Bytes) : Bytes :=
  [0xdd, UInt8.ofNat (data.length + 4), 0xb1, 0x6b, 0x00, 0xb5]

/-- The two forms of an element with `data`: the bytes of the plain one, whose second one is the
number of those behind it, and the same bytes between colons. -/
structure Encodes (data : Bytes) (plain colons : Text) : Prop where
  bytes : ∃ size : UInt8,
    unhex plain = some (0xdd :: size :: ([0xb1, 0x6b, 0x00, 0xb5] ++ data)) ∧
      size.toNat = ([0xb1, 0x6b, 0x00, 0xb5] ++ data).length
  listing : colons.splitOn ':' = pairs plain
  whole : (pairs plain).flatten = plain
  leading : colons.head? ≠ some ':'
  trailing : colons.getLast? ≠ some ':'

variable {s t : Text} {data : Bytes}

theorem pairs_append (h : s.length % 2 = 0) (t : Text) : pairs (s ++ t) = pairs s ++ pairs t := by
  induction s, h using even_induction with
  | nil => rfl
  | pair a b s h ih =>
    rw [List.cons_append, List.cons_append, pairs, pairs, ih, List.cons_append]

theorem pairs_flatten (h : s.length % 2 = 0) : (pairs s).flatten = s := by
  induction s, h using even_induction with
  | nil => rfl
  | pair a b s h ih =>
    rw [pairs, List.flatten_cons, ih]
    rfl

theorem pairs_ne_nil (h : s.length % 2 = 0) (hne : s ≠ []) : pairs s ≠ [] := by
  intro hnil
  rw [← pairs_flatten h, hnil] at hne
  exact hne rfl

theorem getLast?_intercalate_pairs (h : s.length % 2 = 0) :
    ([':'].intercalate (pairs s)).getLast? = s.getLast? := by
  induction s, h using even_induction with
  | nil => rfl
  | pair a b s h ih =>
    by_cases hs : s = []
    · subst hs
      rfl
    · obtain ⟨c, hc⟩ := Option.ne_none_iff_exists'.mp (List.getLast?_eq_none_iff.not.mpr hs)
      rw [pairs, List.intercalate_cons_of_ne_nil (pairs_ne_nil h hs), List.getLast?_append, ih, hc,
        List.getLast?_cons_cons, List.getLast?_cons, hc]
      simp [List.getLast?_cons]

theorem returns_odd (h : s.length % 2 = 1) (dotFormatted : Bool) :
    hex_to_vendor_spec_ie s dotFormatted = .inr (-1) := by
  rw [hex_to_vendor_spec_ie, if_pos (by omega)]

theorem returns_long (h : s.length % 2 = 0) (hlong : 249 < s.length / 2) (dotFormatted : Bool) :
    hex_to_vendor_spec_ie s dotFormatted = .inr (-2) := by
  rw [hex_to_vendor_spec_ie, if_neg (by omega), if_pos (by omega)]

theorem returns_text (h : s.length % 2 = 0) (hlong : ¬ 249 < s.length / 2) (dotFormatted : Bool)
    (n : ℤ) : hex_to_vendor_spec_ie s dotFormatted ≠ .inr n := by
  rw [hex_to_vendor_spec_ie, if_neg (by omega), if_neg (by omega)]
  exact Sum.inl_ne_inr

/-- The plain form is the head in digits and the data as it was given. -/
theorem plain_form (h : s.length % 2 = 0) (hlong : s.length ≤ 249 * 2)
    (hdata : unhex s = some data) :
    hex_to_vendor_spec_ie s false = .inl (hexEncode (vendorHead data) ++ s) := by
  have hlen := length_of_unhex hdata
  have hhalf : s.length / 2 + 4 = data.length + 4 := by omega
  rw [hex_to_vendor_spec_ie, if_neg (by omega), if_neg (by omega), hhalf, format02x_eq _ (by omega)]
  rfl

/-- The dotted form has the same pairs with colons in between. -/
theorem dotted_form (h : s.length % 2 = 0) (hlong : s.length ≤ 249 * 2) (hne : s ≠ [])
    (hdata : unhex s = some data) :
    hex_to_vendor_spec_ie s true =
      .inl ([':'].intercalate (pairs (hexEncode (vendorHead data) ++ s))) := by
  have hlen := length_of_unhex hdata
  have hhalf : s.length / 2 + 4 = data.length + 4 := by omega
  have hhead : (vendorHead data).map hexPair ≠ [] := List.cons_ne_nil _ _
  have heven : (hexEncode (vendorHead data)).length % 2 = 0 := by
    rw [hexEncode_length]
    omega
  rw [hex_to_vendor_spec_ie, if_neg (by omega), if_neg (by omega), hhalf, format02x_eq _ (by omega),
    slice_hexStringDotted h, pairs_append heven, pairs_hexEncode,
    intercalate_append hhead (pairs_ne_nil h hne), ← dotted, vendorHead, dotted_vendorHead]
  rfl

theorem colon_not_hex : (hexValue ':').isSome ≠ true := by decide

theorem colon_not_mem_head (data : Bytes) : ':' ∉ hexEncode (vendorHead data) :=
  hexEncode_free (by decide) _

theorem mem_of_mem_pairs {w : Text} {c : Char} (h : s.length % 2 = 0) (hw : w ∈ pairs s)
    (hc : c ∈ w) : c ∈ s := by
  rw [← pairs_flatten h]
  exact List.mem_flatten.mpr ⟨w, hw, hc⟩

/-- Both forms of an element whose data fit. -/
theorem encodes_forms (h : s.length % 2 = 0) (hlong : s.length ≤ 249 * 2) (hne : s ≠ [])
    (hhex : ∀ c ∈ s, (hexValue c).isSome = true) (hdata : unhex s = some data) :
    Encodes data (hexEncode (vendorHead data) ++ s)
      ([':'].intercalate (pairs (hexEncode (vendorHead data) ++ s))) := by
  have hlen := length_of_unhex hdata
  have hhead : (hexEncode (vendorHead data)).length % 2 = 0 := by
    rw [hexEncode_length]
    omega
  have heven : (hexEncode (vendorHead data) ++ s).length % 2 = 0 := by
    rw [List.length_append]
    omega
  have hcolon : ':' ∉ hexEncode (vendorHead data) ++ s := by
    intro hmem
    rcases List.mem_append.mp hmem with hmem | hmem
    · exact colon_not_mem_head data hmem
    · exact colon_not_hex (hhex ':' hmem)
  have hwords : pairs (hexEncode (vendorHead data) ++ s) ≠ [] :=
    pairs_ne_nil heven (List.append_ne_nil_of_right_ne_nil _ hne)
  refine ⟨⟨UInt8.ofNat (data.length + 4), ?_, ?_⟩, ?_, pairs_flatten heven, ?_, ?_⟩
  · rw [unhex_append hhead, unhex_hexEncode, hdata]
    rfl
  · rw [List.length_append]
    exact (Nat.mod_eq_of_lt (by omega)).trans (Nat.add_comm _ _)
  · exact List.splitOn_intercalate ':'
      (fun w hw hmem => hcolon (mem_of_mem_pairs heven hw hmem)) hwords
  · have hfront : (vendorHead data).map hexPair ≠ [] := List.cons_ne_nil _ _
    rw [pairs_append hhead, pairs_hexEncode, intercalate_append hfront (pairs_ne_nil h hne)]
    exact (by decide : some 'd' ≠ some ':')
  · rw [getLast?_intercalate_pairs heven]
    intro hlast
    exact hcolon (List.mem_of_getLast? hlast)

/-- For every text of hex digits: -1 exactly for an odd length, -2 exactly for more than 249
bytes, and otherwise the element in both forms. -/
theorem vendor_encoder (hexString : Text) (hne : hexString ≠ [])
    (hhex : ∀ c ∈ hexString, (hexValue c).isSome = true) :
    (∀ dotFormatted, hex_to_vendor_spec_ie hexString dotFormatted = .inr (-1) ↔
      hexString.length % 2 = 1) ∧
    (∀ dotFormatted, hex_to_vendor_spec_ie hexString dotFormatted = .inr (-2) ↔
      hexString.length % 2 = 0 ∧ 249 < hexString.length / 2) ∧
    (¬ hexString.length % 2 = 1 → ¬ 249 < hexString.length / 2 →
      ∃ data plain colons, unhex hexString = some data ∧
        hex_to_vendor_spec_ie hexString false = .inl plain ∧
        hex_to_vendor_spec_ie hexString true = .inl colons ∧ Encodes data plain colons) := by
  refine ⟨fun dotFormatted => ?_, fun dotFormatted => ?_, fun hodd hlong => ?_⟩
  · by_cases hodd : hexString.length % 2 = 1
    · exact ⟨fun _ => hodd, fun _ => returns_odd hodd dotFormatted⟩
    have heven : hexString.length % 2 = 0 := by omega
    refine ⟨fun h => ?_, fun h => absurd h hodd⟩
    by_cases hlong : 249 < hexString.length / 2
    · rw [returns_long heven hlong] at h
      exact absurd (Sum.inr.inj h) (by decide)
    · exact absurd h (returns_text heven hlong dotFormatted _)
  · refine ⟨fun h => ?_, fun h => returns_long h.1 h.2 dotFormatted⟩
    by_cases hodd : hexString.length % 2 = 1
    · rw [returns_odd hodd] at h
      exact absurd (Sum.inr.inj h) (by decide)
    have heven : hexString.length % 2 = 0 := by omega
    by_contra hlong
    exact returns_text heven (fun hlong' => hlong ⟨heven, hlong'⟩) dotFormatted _ h
  · have heven : hexString.length % 2 = 0 := by omega
    have hfits : hexString.length ≤ 249 * 2 := by omega
    obtain ⟨data, hdata⟩ := Option.isSome_iff_exists.mp ((unhex_isSome_iff hhex).mpr heven)
    exact ⟨data, _, _, hdata, plain_form heven hfits hdata, dotted_form heven hfits hne hdata,
      encodes_forms heven hfits hne hhex hdata⟩

theorem vendor_encoder_key :
    ∃ data plain colons, unhex "aB07".toList = some data ∧
      hex_to_vendor_spec_ie "aB07".toList false = .inl plain ∧
      hex_to_vendor_spec_ie "aB07".toList true = .inl colons ∧ Encodes data plain colons :=
  (vendor_encoder "aB07".toList (by decide) (forall_of_all (by decide))).2.2 (by decide) (by decide)

end Nxwlan.VendorEncoder
