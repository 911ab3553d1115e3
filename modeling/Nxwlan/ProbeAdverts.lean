import Nxwlan.ScanCommands

/-!
The advertisement of an agent in its probe requests, read by another agent. The
reader works on hex digits without lengths: it cuts at two markers and deletes
DD06 wherever it stands. What was sent comes back exactly when neither text
occurs in the digits of the keys, at an even or an odd place.
-/
namespace Nxwlan.ProbeAdverts

open JsonFrames AgentState PyText ProbeRequests ScanCommands
open ReceiveLoop (hexEncode unhex_hexEncode)
open Base64 (Bytes)

/-- The entry that the text of a probe request is read as; with it, the handler goes on
to `onAPJoined`. -/
def probeEntry (p : Platform) (now : ℤ) (me : Identity) (a : Agent) (prPayload : Text) :
    Except PyError Neighbor :=
  match split "RSSI:".toList 1 prPayload with
  | [payload, rssi] => do
      let (resfiIe, freq) ← splitElement payload
      match readInt rssi with
      | none => .error .valueError
      | some rssi =>
          parse_resfi_ie p now resfiIe (2 * a.key.length) (2 * a.iv.length)
            (2 * (p.exportKey me.rsaKey.publickey).length) rssi 0 freq none
  | _ => .error .nameError

theorem probeEntry_probeText (p : Platform) (now : ℤ) (me : Identity) (a : Agent) (sa ie : Bytes)
    (ssi_signal : ℤ) :
    probeEntry p now me a (probeText sa ie ssi_signal) = (do
      let (resfiIe, freq) ← splitElement (hexDump (sa ++ ie))
      parse_resfi_ie p now resfiIe (2 * a.key.length) (2 * a.iv.length)
        (2 * (p.exportKey me.rsaKey.publickey).length) ssi_signal 0 freq none) := by
  rw [probeEntry, split_probeText]
  simp only [readInt_showInt]

/-- The handler joins the entry that is read. -/
theorem subscribe_joins {p : Platform} {world : World} {me : Identity} {a a₁ : Agent}
    {rssi : Option Text} {sa ie : Bytes} {ssi_signal : ℤ} {entry : Neighbor}
    (hmarker : contains marker (hexDump (sa ++ ie)) = true) (hwait : world.wait a = some a₁)
    (hentry : probeEntry p world.now me a₁ (probeText sa ie ssi_signal) = .ok entry) :
    subscribeToProbeRequests p world me a rssi (probeText sa ie ssi_signal) =
      (setProbeRequest (onAPJoined world.outside me (setProbeRequest a₁ false) [entry]) true,
        .returned) := by
  rw [probeEntry_probeText] at hentry
  rw [subscribe_probeText, handle_incoming_probe_requests, if_pos hmarker]
  cases hsplit : splitElement (hexDump (sa ++ ie)) with
  | error e =>
    rw [hsplit] at hentry
    cases hentry
  | ok found =>
    obtain ⟨resfiIe, freq⟩ := found
    rw [hsplit] at hentry
    simp only [hwait, joinElement, readInt_showInt]
    have hparse : parse_resfi_ie p world.now resfiIe (2 * (setProbeRequest a₁ false).key.length)
        (2 * (setProbeRequest a₁ false).iv.length)
        (2 * (p.exportKey me.rsaKey.publickey).length) ssi_signal 0 freq none = .ok entry := hentry
    rw [hparse]

section Parts

variable {p : Platform} {now rssiProbeRequest rssiProbeResponse freq : ℤ} {ssid : Option String}

/-- What stands between a beginning and a non-empty end, which is counted from behind. -/
theorem slice_middle (a b : Text) {c : Text} (hc : c ≠ []) {i j : ℤ} (hi : i = a.length)
    (hj : j = -c.length) : slice (a ++ b ++ c) i j = b := by
  have hpos := List.length_pos_iff.mpr hc
  have hlow : bound (a ++ b ++ c).length i = a.length := by
    rw [bound, if_neg (by omega), hi]
    simp
  have hhigh : bound (a ++ b ++ c).length j = (a ++ b).length := by
    rw [bound, if_pos (by omega), hj]
    simp only [List.length_append]
    omega
  rw [slice, hlow, hhigh, List.take_left, List.drop_left]

/-- An element whose parts can be decoded is read as they say, if something follows the
public key. -/
theorem parse_resfi_ie_parts {kt it dt ht : Text} {key iv der host : Bytes} {pubKey : RsaPublicKey}
    (hkey : unhex kt = some key) (hiv : unhex it = some iv) (hder : unhex dt = some der)
    (hhost : unhex ht = some host) (hne : host ≠ []) (hpub : p.importKey der = some pubKey) :
    parse_resfi_ie p now (kt ++ it ++ dt ++ ht) kt.length it.length dt.length rssiProbeRequest
        rssiProbeResponse freq ssid =
      .ok
        { ipAddress := String.ofList (Messaging.asciiText host)
          encryptionKey := key
          encryptionIV := iv
          pubKey := some pubKey
          rssiProbeRequest := rssiProbeRequest
          rssiProbeResponse := rssiProbeResponse
          freq := freq
          ssid := ssid.getD ""
          timestampLastKCM := now } := by
  have hht : ht ≠ [] := by
    rintro rfl
    exact hne (Option.some.inj hhost).symm
  have hkeyPart : keyPart (kt ++ it ++ dt ++ ht) kt.length = kt := by
    have hassoc : kt ++ it ++ dt ++ ht = [] ++ kt ++ (it ++ dt ++ ht) := by
      simp
    rw [keyPart, hassoc]
    refine slice_middle [] kt (by simp [hht]) rfl ?_
    simp only [List.length_append, List.length_nil]
    omega
  have hivPart : ivPart (kt ++ it ++ dt ++ ht) kt.length it.length = it := by
    have hassoc : kt ++ it ++ dt ++ ht = kt ++ it ++ (dt ++ ht) := by
      simp
    rw [ivPart, hassoc]
    refine slice_middle kt it (by simp [hht]) rfl ?_
    simp only [List.length_append]
    omega
  have hpubPart : pubKeyPart (kt ++ it ++ dt ++ ht) kt.length it.length dt.length = dt := by
    rw [pubKeyPart]
    refine slice_middle (kt ++ it) dt hht ?_ ?_
    · simp
    · simp only [List.length_append]
      omega
  have hipPart : ipPart (kt ++ it ++ dt ++ ht) kt.length it.length dt.length = ht := by
    have hlow : bound (kt ++ it ++ dt ++ ht).length (kt.length + it.length + dt.length) =
        (kt ++ it ++ dt).length := by
      rw [bound, if_neg (by omega)]
      simp only [List.length_append]
      omega
    have hhigh : bound (kt ++ it ++ dt ++ ht).length (kt ++ it ++ dt ++ ht).length =
        (kt ++ it ++ dt ++ ht).length := by
      rw [bound, if_neg (by omega)]
      omega
    rw [ipPart, slice, hlow, hhigh, List.take_length, List.drop_left]
  refine parse_resfi_ie_ok ?_ ?_ ?_ ?_ hpub
  · rw [hkeyPart, hkey]
  · rw [hivPart, hiv]
  · rw [hpubPart, hder]
  · rw [hipPart, hhost]

/-- What an entry that is read has from the element. -/
theorem parse_resfi_ie_inv {data : Text} {k i d : ℤ} {entry : Neighbor}
    (h : parse_resfi_ie p now data k i d rssiProbeRequest rssiProbeResponse freq ssid = .ok entry)
    (hkey : entry.encryptionKey ≠ []) :
    ∃ der host, unhex (pubKeyPart data k i d) = some der ∧ p.importKey der = entry.pubKey ∧
      unhex (ipPart data k i d) = some host ∧
      entry.ipAddress = String.ofList (Messaging.asciiText host) := by
  rcases parse_resfi_ie_cases h with
    ⟨-, rfl⟩ | ⟨rsona, rstna, der, host, pubKey, -, -, hder, hhost, hpub, rfl⟩
  · exact absurd rfl hkey
  · exact ⟨der, host, hder, hpub, hhost, rfl⟩

end Parts

section Texts

theorem hexDump_append (s t : Bytes) : hexDump (s ++ t) = hexDump s ++ hexDump t := by
  simp [hexDump]

theorem unhex_hexDump (s : Bytes) : unhex (hexDump s) = some s := by
  have hdigit : ∀ n < 16, hexValue (upperHex n) = some n := by
    decide
  exact unhex_digits hdigit s

theorem hexDump_length (s : Bytes) : (hexDump s).length = 2 * s.length :=
  length_of_unhex (unhex_hexDump s)

theorem hexDump_vendorElement (payload : Bytes) :
    hexDump (vendorElement payload) = "DD".toList ++ hexByte (UInt8.ofNat (payload.length + 4)) ++
      marker ++ hexDump payload := by
  have hhead : hexDump [0xdd] = "DD".toList := by decide
  have hmarker : hexDump [0xb1, 0x6b, 0x00, 0xb5] = marker := by decide
  have hparts : vendorElement payload =
      [0xdd] ++ [UInt8.ofNat (payload.length + 4)] ++ [0xb1, 0x6b, 0x00, 0xb5] ++ payload := rfl
  rw [hparts, hexDump_append, hexDump_append, hexDump_append, hhead, hmarker]
  simp [hexDump]

theorem marker_borderless : Borderless marker := by
  decide

theorem dd06_borderless : Borderless "DD06".toList := by
  decide

/-- Behind a D, two digits do not make a marker. -/
theorem marker_not_infix_append {text digits : Text} (h : ¬ marker <:+: text)
    (hdigits : digits.length = 2) : ¬ marker <:+: text ++ "DD".toList ++ digits := by
  have hshort : ¬ marker <:+: digits := by
    intro hin
    have hle := hin.length_le
    rw [hdigits] at hle
    exact absurd hle (by decide)
  have hnil : ¬ marker <:+: [] := by
    decide
  have hassoc : text ++ "DD".toList ++ digits = text ++ 'D' :: ([] ++ 'D' :: digits) := by
    simp
  rw [hassoc, infix_append_cons (by decide), infix_append_cons (by decide)]
  simp [h, hshort, hnil]

/-- The digits of the two elements behind what was sent before. -/
def advertText (before payload digits : Bytes) : Text :=
  hexDump (before ++ (vendorElement payload ++ vendorElement digits))

theorem advertText_eq (before payload : Bytes) {digits : Bytes} (hdigits : digits.length = 2) :
    advertText before payload digits =
      (hexDump before ++ "DD".toList ++ hexByte (UInt8.ofNat (payload.length + 4))) ++ marker ++
        (hexDump payload ++ "DD06".toList ++ marker ++ hexDump digits) := by
  have hsix : "DD".toList ++ hexByte (UInt8.ofNat (digits.length + 4)) = "DD06".toList := by
    rw [hdigits]
    decide
  rw [advertText, hexDump_append, hexDump_append, hexDump_vendorElement, hexDump_vendorElement, hsix]
  simp only [List.append_assoc]

variable {before payload digits : Bytes}

/-- The first cut is at the marker of the keys. -/
theorem cut_advertText (hbefore : ¬ marker <:+: hexDump before) (hdigits : digits.length = 2) :
    cut marker (advertText before payload digits) =
      some (hexDump before ++ "DD".toList ++ hexByte (UInt8.ofNat (payload.length + 4)),
        hexDump payload ++ "DD06".toList ++ marker ++ hexDump digits) := by
  rw [advertText_eq before payload hdigits]
  exact cut_borderless marker_borderless (by decide) (marker_not_infix_append hbefore rfl)

/-- Without a marker in the digits of the keys, the second cut is at the marker of the
frequency. -/
theorem splitElement_clean (hbefore : ¬ marker <:+: hexDump before) (hdigits : digits.length = 2)
    {freq : ℤ} (hfreq : hexDump digits = showInt freq) (hclean : ¬ marker <:+: hexDump payload) :
    splitElement (advertText before payload digits) =
      .ok (replace "DD06".toList [] (hexDump payload ++ "DD06".toList), freq) := by
  have hcut : cut marker (hexDump payload ++ "DD06".toList ++ marker ++ hexDump digits) =
      some (hexDump payload ++ "DD06".toList, hexDump digits) := by
    have hfree : ¬ marker <:+: hexDump payload ++ "DD".toList ++ "06".toList :=
      marker_not_infix_append hclean rfl
    rw [List.append_assoc] at hfree
    exact cut_borderless marker_borderless (by decide) hfree
  have hread : readInt (hexDump digits) = some freq := by
    rw [hfreq, readInt_showInt]
  simp only [splitElement, split, cut_advertText hbefore hdigits, hcut, hread]

/-- With a marker in them, what is taken for the frequency is no number. -/
theorem splitElement_marked (hbefore : ¬ marker <:+: hexDump before) (hdigits : digits.length = 2)
    (hmarked : marker <:+: hexDump payload) :
    splitElement (advertText before payload digits) = .error .valueError := by
  cases hcut : cut marker (hexDump payload) with
  | none => exact absurd hmarked (cut_none_iff.mp hcut)
  | some uv =>
    obtain ⟨u, v⟩ := uv
    have hrest : cut marker (hexDump payload ++ "DD06".toList ++ marker ++ hexDump digits) =
        some (u, v ++ ("DD06".toList ++ (marker ++ hexDump digits))) := by
      rw [List.append_assoc, List.append_assoc]
      exact cut_append_right hcut
    have hupper : ∀ c ∈ v ++ ("DD06".toList ++ (marker ++ hexDump digits)),
        isUpperHex c = true := by
      intro c hc
      rcases List.mem_append.mp hc with hc | hc
      · exact hexDump_isUpperHex payload c (mem_of_cut hcut (Or.inr hc))
      · rcases List.mem_append.mp hc with hc | hc
        · exact (forall_of_all (by decide) : ∀ c ∈ "DD06".toList, isUpperHex c = true) c hc
        · rcases List.mem_append.mp hc with hc | hc
          · exact (forall_of_all (by decide) : ∀ c ∈ marker, isUpperHex c = true) c hc
          · exact hexDump_isUpperHex digits c hc
    have hread : readInt (v ++ ("DD06".toList ++ (marker ++ hexDump digits))) = none := by
      rw [← Option.not_isSome_iff_eq_none, readInt_isSome_iff hupper]
      rintro ⟨-, hdecimal⟩
      exact absurd (hdecimal 'D' (by simp)) (by decide)
    simp only [splitElement, split, cut_advertText hbefore hdigits, hrest, hread]

end Texts

section Adverts

/-- What an agent advertises. -/
structure Advert where
  key : Bytes
  iv : Bytes
  pubKey : RsaPublicKey
  hostname : Bytes
  freq : ℤ

def Advert.payload (p : Platform) (ad : Advert) : Bytes :=
  ad.key ++ ad.iv ++ p.exportKey ad.pubKey ++ ad.hostname

/-- The command of a full scan that advertises. -/
def Advert.command (p : Platform) (wireless : Text) (ad : Advert) : Except PyError Text :=
  scanCommand wireless true [] 0 (hexEncode (p.exportKey ad.pubKey)) (hexEncode ad.key)
    (hexEncode ad.iv) (hexEncode ad.hostname) ad.freq

/-- The entry that says what was advertised. -/
def Advert.entry (ad : Advert) (now ssi_signal : ℤ) : Neighbor where
  ipAddress := String.ofList (Messaging.asciiText ad.hostname)
  encryptionKey := ad.key
  encryptionIV := ad.iv
  pubKey := some ad.pubKey
  rssiProbeRequest := ssi_signal
  freq := ad.freq
  timestampLastKCM := now

/-- iw sends the advertisement as the last elements of a probe request, behind the
elements `ie`, and the agent that receives it at this level reads what was sent. -/
def RoundTrip (p : Platform) (random : Text → Bool) (wireless : Text) (now : ℤ) (me : Identity)
    (a : Agent) (ad : Advert) (sa ie : Bytes) (ssi_signal : ℤ) : Prop :=
  ∃ command ies, ad.command p wireless = .ok command ∧ runScan random command = some ies ∧
    probeEntry p now me a (probeText sa (ie ++ ies) ssi_signal) = .ok (ad.entry now ssi_signal)

/-- A public key of 1024 bits in DER: 162 bytes, which can be imported again; no text of
fewer bytes than its modulus is imported as it. -/
structure DerKey (p : Platform) (k : RsaPublicKey) : Prop where
  length : (p.exportKey k).length = 162
  imported : p.importKey (p.exportKey k) = some k
  modulus : ∀ der, p.importKey der = some k → 128 ≤ der.length

/-- Keys of 16 bytes and a frequency of four digits. -/
structure Advert.Proper (p : Platform) (ad : Advert) : Prop where
  key : ad.key.length = 16
  iv : ad.iv.length = 16
  pubKey : DerKey p ad.pubKey
  freq : 1000 ≤ ad.freq ∧ ad.freq ≤ 9999

/-- The reader has keys of the same lengths. -/
structure Reader (p : Platform) (me : Identity) (a : Agent) : Prop where
  key : a.key.length = 16
  iv : a.iv.length = 16
  pubKey : (p.exportKey me.rsaKey.publickey).length = 162

/-- The condition: there is a hostname, it has room in the element, and the digits of
the keys and of the hostname have neither of the two texts in them. -/
def Advert.Clean (p : Platform) (ad : Advert) : Prop :=
  ad.hostname ≠ [] ∧ ad.hostname.length ≤ 55 ∧
    contains "DD06".toList (hexDump (ad.payload p)) = false ∧
    contains marker (hexDump (ad.payload p)) = false

variable {p : Platform} {random : Text → Bool} {wireless : Text} {now : ℤ} {me : Identity}
  {a : Agent} {ad : Advert} {sa ie : Bytes} {ssi_signal : ℤ}

theorem Advert.Proper.payload_length (h : ad.Proper p) :
    (ad.payload p).length = 194 + ad.hostname.length := by
  simp only [Advert.payload, List.length_append, h.key, h.iv, h.pubKey.length]

theorem Advert.Proper.key_ne_nil (h : ad.Proper p) : ad.key ≠ [] := by
  intro hnil
  have := h.key
  rw [hnil] at this
  cases this

/-- The two elements that iw sends. -/
theorem Advert.Proper.sent (h : ad.Proper p) (wireless : Text) (random : Text → Bool)
    (hlen : ad.hostname.length ≤ 55) :
    ∃ command digits, ad.command p wireless = .ok command ∧ hexDump digits = showInt ad.freq ∧
      digits.length = 2 ∧
      runScan random command = some (vendorElement (ad.payload p) ++ vendorElement digits) := by
  refine scanCommand_elements wireless [] 0 random h.freq h.key_ne_nil ?_
  have := h.payload_length
  rw [Advert.payload] at this
  omega

/-- What comes back is an element that the reader has made of the digits. -/
theorem probeEntry_advert (hread : Reader p me a) {digits : Bytes} :
    probeEntry p now me a (probeText sa (ie ++ (vendorElement (ad.payload p) ++
        vendorElement digits)) ssi_signal) = (do
      let (resfiIe, freq) ← splitElement (advertText (sa ++ ie) (ad.payload p) digits)
      parse_resfi_ie p now resfiIe 32 32 324 ssi_signal 0 freq none) := by
  rw [probeEntry_probeText, hread.key, hread.iv, hread.pubKey, advertText, List.append_assoc]
  rfl

theorem roundTrip_of_clean (had : ad.Proper p) (hread : Reader p me a)
    (hbefore : contains marker (hexDump (sa ++ ie)) = false) (hclean : ad.Clean p) :
    RoundTrip p random wireless now me a ad sa ie ssi_signal := by
  obtain ⟨hne, hlen, hdd06, hmarker⟩ := hclean
  rw [contains_eq_false_iff] at hbefore hdd06 hmarker
  obtain ⟨command, digits, hcommand, hdigits, htwo, hrun⟩ := had.sent wireless random hlen
  refine ⟨command, _, hcommand, hrun, ?_⟩
  rw [probeEntry_advert hread, splitElement_clean hbefore htwo hdigits hmarker,
    replace_nil_append dd06_borderless (by decide) hdd06]
  have hparse : parse_resfi_ie p now (hexDump ad.key ++ hexDump ad.iv ++
      hexDump (p.exportKey ad.pubKey) ++ hexDump ad.hostname) (hexDump ad.key).length
      (hexDump ad.iv).length (hexDump (p.exportKey ad.pubKey)).length ssi_signal 0 ad.freq none =
        .ok (ad.entry now ssi_signal) :=
    parse_resfi_ie_parts (unhex_hexDump _) (unhex_hexDump _) (unhex_hexDump _) (unhex_hexDump _)
      hne had.pubKey.imported
  rw [hexDump_length, hexDump_length, hexDump_length, had.key, had.iv, had.pubKey.length,
    ← hexDump_append, ← hexDump_append, ← hexDump_append] at hparse
  simp only [bind, Except.bind]
  exact hparse

theorem length_ipPart (data : Text) : (ipPart data 32 32 324).length = data.length - 388 := by
  have hlow : bound data.length (32 + 32 + 324) = min 388 data.length := by
    rw [bound, if_neg (by omega)]
    rfl
  have hhigh : bound data.length data.length = data.length := by
    rw [bound, if_neg (by omega)]
    omega
  rw [ipPart, slice, hlow, hhigh, List.take_length, List.length_drop]
  omega

/-- An element without a hostname ends before half of a public key could be read. -/
theorem length_pubKeyPart_le {data : Text} (h : data.length ≤ 388) :
    (pubKeyPart data 32 32 324).length ≤ 130 := by
  have hlow : bound data.length (32 + 32) = min 64 data.length := by
    rw [bound, if_neg (by omega)]
    rfl
  have hhigh : bound data.length (-(data.length - 32 - 32 - 324)) =
      min (388 - data.length) data.length := by
    rw [bound, if_neg (by omega)]
    omega
  rw [pubKeyPart, slice, hlow, hhigh, List.length_drop, List.length_take]
  omega

/-- What the reader makes of the digits of the keys is not longer than they are, and
shorter if they have DD06 in them. -/
theorem length_element (H : Text) :
    (replace "DD06".toList [] (H ++ "DD06".toList)).length ≤ H.length ∧
      ("DD06".toList <:+: H →
        (replace "DD06".toList [] (H ++ "DD06".toList)).length + 4 ≤ H.length) := by
  have hne : "DD06".toList ≠ [] := by
    decide
  constructor
  · have hle := length_replace_nil_lt hne (List.suffix_append H "DD06".toList).isInfix
    simp only [List.length_append] at hle
    omega
  · exact length_replace_append_lt hne

/-- What the reader gets back only if the condition holds. -/
theorem clean_of_roundTrip (had : ad.Proper p) (hread : Reader p me a)
    (hbefore : contains marker (hexDump (sa ++ ie)) = false)
    (h : RoundTrip p random wireless now me a ad sa ie ssi_signal) : ad.Clean p := by
  obtain ⟨command, ies, hcommand, hrun, hentry⟩ := h
  rw [contains_eq_false_iff] at hbefore
  have hpayload := had.payload_length
  have hroom : ad.hostname.length ≤ 55 := by
    by_contra hlong
    have hnone : ad.command p wireless = .error .typeError := by
      refine scanCommand_long wireless [] 0 ad.freq ?_
      rw [Advert.payload] at hpayload
      omega
    rw [hnone] at hcommand
    cases hcommand
  obtain ⟨command', digits, hcommand', hdigits, htwo, hrun'⟩ := had.sent wireless random hroom
  obtain rfl := Except.ok.inj (hcommand.symm.trans hcommand')
  obtain rfl := Option.some.inj (hrun.symm.trans hrun')
  rw [probeEntry_advert hread] at hentry
  have hmarker : ¬ marker <:+: hexDump (ad.payload p) := by
    intro hmarked
    rw [splitElement_marked hbefore htwo hmarked] at hentry
    cases hentry
  rw [splitElement_clean hbefore htwo hdigits hmarker] at hentry
  simp only [bind, Except.bind] at hentry
  obtain ⟨der, host, hder, hpub, hip, hname⟩ := parse_resfi_ie_inv hentry had.key_ne_nil
  -- the parts that the reader has found have the lengths of what was sent
  have hhost : host.length = ad.hostname.length := by
    have := congrArg List.length (String.ofList_injective hname)
    simpa [Messaging.asciiText] using this.symm
  have hhostText := length_of_unhex hip
  have hderText := length_of_unhex hder
  have hmodulus := had.pubKey.modulus der hpub
  obtain ⟨hle, hlt⟩ := length_element (hexDump (ad.payload p))
  rw [hexDump_length, hpayload] at hle hlt
  rw [length_ipPart, hhost] at hhostText
  have hne : ad.hostname ≠ [] := by
    intro hnil
    rw [hnil] at hle
    have := length_pubKeyPart_le hle
    omega
  refine ⟨hne, hroom, contains_eq_false_iff.mpr ?_, contains_eq_false_iff.mpr hmarker⟩
  intro hdd06
  have hpos := List.length_pos_iff.mpr hne
  have := hlt hdd06
  omega

/-- The receiving agent reads the key, the vector, the public key, the hostname, the
frequency and the level that were sent exactly when the digits of the keys and of
the hostname hide no marker and no DD06, and the hostname fits. -/
theorem advert_round_trip_iff (had : ad.Proper p) (hread : Reader p me a)
    (hbefore : contains marker (hexDump (sa ++ ie)) = false) :
    RoundTrip p random wireless now me a ad sa ie ssi_signal ↔ ad.Clean p :=
  ⟨clean_of_roundTrip had hread hbefore, roundTrip_of_clean had hread hbefore⟩

theorem sample_derKey : DerKey listPlatform ⟨162, 65537⟩ where
  length := List.length_replicate
  imported := by decide +kernel
  modulus der h := by
    simp only [listPlatform] at h
    split at h
    · cases h
    · simp only [Option.some.injEq, RsaPublicKey.mk.injEq] at h
      omega

/-- An advertisement of 10.0.0.1 on 2412 MHz. -/
def sampleAdvert (key : Bytes) : Advert where
  key := key
  iv := List.replicate 16 2
  pubKey := ⟨162, 65537⟩
  hostname := Messaging.asciiBytes "10.0.0.1".toList
  freq := 2412

def sampleReader : Agent := { key := List.replicate 16 7, iv := List.replicate 16 9 }

theorem advert_round_trip_sample :
    RoundTrip listPlatform (fun _ => true) "wlan0".toList 0 ⟨"10.0.0.2", ⟨162, 3, 7⟩⟩ sampleReader
      (sampleAdvert (List.replicate 16 1)) [2, 0, 0, 0, 0, 1] [0, 0, 1, 1, 2] (-42) :=
  (advert_round_trip_iff ⟨rfl, rfl, sample_derKey, by decide⟩ ⟨rfl, rfl, rfl⟩ (by decide)).mpr
    (by unfold Advert.Clean; decide +kernel)

/-- A key that begins with the bytes dd and 06 is not what the other agents read. -/
theorem dd06_in_key_lost :
    (sampleAdvert (0xdd :: 0x06 :: List.replicate 14 1)).Proper listPlatform ∧
      Reader listPlatform ⟨"10.0.0.2", ⟨162, 3, 7⟩⟩ sampleReader ∧
      contains marker (hexDump ([2, 0, 0, 0, 0, 1] ++ [0, 0, 1, 1, 2])) = false ∧
      ¬ RoundTrip listPlatform (fun _ => true) "wlan0".toList 0 ⟨"10.0.0.2", ⟨162, 3, 7⟩⟩
        sampleReader (sampleAdvert (0xdd :: 0x06 :: List.replicate 14 1)) [2, 0, 0, 0, 0, 1]
        [0, 0, 1, 1, 2] (-42) := by
  have hproper : (sampleAdvert (0xdd :: 0x06 :: List.replicate 14 1)).Proper listPlatform :=
    ⟨rfl, rfl, sample_derKey, by decide⟩
  have hbefore : contains marker (hexDump ([2, 0, 0, 0, 0, 1] ++ [0, 0, 1, 1, 2])) = false := by
    decide
  refine ⟨hproper, ⟨rfl, rfl, rfl⟩, hbefore, ?_⟩
  intro htrip
  have hclean := (clean_of_roundTrip hproper ⟨rfl, rfl, rfl⟩ hbefore htrip).2.2.1
  have hfound : contains "DD06".toList (hexDump ((sampleAdvert
      (0xdd :: 0x06 :: List.replicate 14 1)).payload listPlatform)) = true := by
    decide +kernel
  rw [hfound] at hclean
  cases hclean

end Adverts

end Nxwlan.ProbeAdverts
