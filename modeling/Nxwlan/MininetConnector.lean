import Nxwlan.ScanResults

/-!
The connector for emulated networks. Datagrams stand for probe requests and responses: a
scan sends its advertisement to the broadcast address of every interface and reads what
comes back within a second, and a thread answers whoever asks. The digits of the keys are
small letters here, so that neither the markers nor DD06 can be found in them.
-/
namespace Nxwlan.MininetConnector

open JsonFrames AgentState PyText ProbeRequests ScanCommands ProbeAdverts ScanResults
open ReceiveLoop (hexEncode unhex_hexEncode lowerHex)
open Base64 (Bytes)

section Connector

/-- The content of the probe responses from now on. -/
def addIEtoProbeResponses (pubKeyStr SymKeyStr SymIVStr IpStr : Text) : Text :=
  "\t Vendor specific: OUI b1:6b:00, data: b5 ".toList ++ SymKeyStr ++ SymIVStr ++ pubKeyStr ++
    IpStr

/-- What a scan sends; only a full scan advertises. -/
def vProbeReq (fullScan : Bool) (pubKeyStr SymKeyStr SymIVStr IpStr : Text) (ownFreq : ℤ) : Text :=
  if fullScan then
    "B16B00B5".toList ++ SymKeyStr ++ SymIVStr ++ pubKeyStr ++ IpStr ++ "B16B00B5".toList ++
      showInt ownFreq
  else []

structure Datagram where
  address : String
  content : Text

/-- The variables of the scan that stay from one datagram to the next. -/
structure Scan where
  addressList : List String := []
  dataArray : List ScanEntry := []

/-- One line of a response. The level is a number in the source, which `int` leaves as it
is. -/
def scanLine (dataArray : List ScanEntry) (line : Text) : List ScanEntry :=
  if contains vendorText line then
    dataArray ++
      [⟨.inr 99, "MininetVirtualAP".toList, showInt 999, replace vendorText [] line⟩]
  else dataArray

/-- One datagram that the socket returns; an address is heard once, and the own ones not at
all. -/
def receiveResponse (ips : List String) (s : Scan) (d : Datagram) : Scan :=
  if d.address ∉ s.addressList ∧ d.address ∉ ips ∧ d.content.length > 0 then
    { addressList := s.addressList ++ [d.address]
      dataArray := (splitlines d.content).foldl scanLine s.dataArray }
  else s

/-- One interface, with the datagrams that are read while it is its turn. The wired
interface and the loop-back one are passed over. -/
def scanInterface (hostname : String) (ips : List String) (s : Scan)
    (i : String × List Datagram) : Scan :=
  if i.1 = hostname ∨ i.1 = "127.0.0.1" then s
  else i.2.foldl (receiveResponse ips) s

/-- The addresses of the interfaces come with what is read; the arguments that only the
request depends on are left to `vProbeReq`. -/
def performActiveScan (p : Platform) (now : ℤ) (hostname : String)
    (ifs : List (String × List Datagram)) (pubKeyStr SymKeyStr SymIVStr : Text) :
    Except PyError NeighborList :=
  readEntries p now pubKeyStr SymKeyStr SymIVStr ∅
    (ifs.foldl (scanInterface hostname (ifs.map Prod.fst)) {}).dataArray

/-- One round of the loop that answers probe requests: what the agent makes of it, and the
response. -/
def subscribeToProbeRequests (p : Platform) (world : World) (me : Identity) (ips : List String)
    (probeResponseContent : Text) (a : Agent) (d : Datagram) : (Agent × Ended) × Option Text :=
  if d.address ∉ ips then
    (handle_incoming_probe_requests p world me a d.content (showInt 999), some probeResponseContent)
  else ((a, .returned), none)

/-- The network name in `getAPparams`. -/
def virtualSsid (hostname : String) : String := hostname ++ "-virtual-SSID"

end Connector

section Requests

variable {p : Platform} {ad : Advert}

/-- The digits that an advertisement is made of. -/
def digits (p : Platform) (ad : Advert) : Text := hexEncode (ad.payload p)

/-- The probe request of a full scan. -/
def requestOf (p : Platform) (ad : Advert) : Text :=
  vProbeReq true (hexEncode (p.exportKey ad.pubKey)) (hexEncode ad.key) (hexEncode ad.iv)
    (hexEncode ad.hostname) ad.freq

/-- The probe response. -/
def responseOf (p : Platform) (ad : Advert) : Text :=
  addIEtoProbeResponses (hexEncode (p.exportKey ad.pubKey)) (hexEncode ad.key) (hexEncode ad.iv)
    (hexEncode ad.hostname)

theorem digits_eq (p : Platform) (ad : Advert) :
    digits p ad = hexEncode ad.key ++ hexEncode ad.iv ++ hexEncode (p.exportKey ad.pubKey) ++
      hexEncode ad.hostname := by
  rw [digits, Advert.payload, hexEncode_append, hexEncode_append, hexEncode_append]

theorem requestOf_eq (p : Platform) (ad : Advert) :
    requestOf p ad = marker ++ digits p ad ++ marker ++ showInt ad.freq := by
  rw [requestOf, vProbeReq, if_pos rfl]
  simp only [digits_eq, List.append_assoc]
  rfl

theorem responseOf_eq (p : Platform) (ad : Advert) :
    responseOf p ad = "\t ".toList ++ vendorText ++ digits p ad := by
  have hfront : "\t Vendor specific: OUI b1:6b:00, data: b5 ".toList =
      "\t ".toList ++ vendorText := by decide
  unfold responseOf addIEtoProbeResponses
  simp only [hfront, digits_eq, List.append_assoc]

/-- A letter that is no digit of a small hex text is not in the digits. -/
theorem digits_free {c : Char} (hc : ∀ n < 16, lowerHex n ≠ c) : c ∉ digits p ad :=
  hexEncode_free hc _

/-- The handler cuts a request where it was put together, whatever the keys are. -/
theorem splitElement_requestOf (p : Platform) (ad : Advert) :
    splitElement (requestOf p ad) = .ok (digits p ad, ad.freq) := by
  have hfirst : cut marker (requestOf p ad) =
      some ([], digits p ad ++ marker ++ showInt ad.freq) := by
    rw [requestOf_eq, List.append_assoc, List.append_assoc, ← List.append_assoc (digits p ad)]
    exact cut_append (d := 'B') (a := []) _ (by simp)
  have hsecond : cut marker (digits p ad ++ marker ++ showInt ad.freq) =
      some (digits p ad, showInt ad.freq) :=
    cut_append (d := 'B') _ (digits_free (by decide))
  have hkeep : replace "DD06".toList [] (digits p ad) = digits p ad :=
    replace_of_cut_none (cut_none_iff.mpr
      (not_infix_of_not_mem (d := 'D') (by decide) (digits_free (by decide))))
  simp only [splitElement, split, hfirst, hsecond, readInt_showInt, hkeep]

theorem contains_requestOf (p : Platform) (ad : Advert) :
    contains marker (requestOf p ad) = true := by
  rw [contains_iff, requestOf_eq]
  exact ⟨[], digits p ad ++ marker ++ showInt ad.freq, by simp⟩

/-- What a reader needs to know the lengths by: keys of 16 bytes, and a public key as long in
DER as its own. -/
structure Readable (p : Platform) (der : ℕ) (ad : Advert) : Prop where
  key : ad.key.length = 16
  iv : ad.iv.length = 16
  der : (p.exportKey ad.pubKey).length = der
  imported : p.importKey (p.exportKey ad.pubKey) = some ad.pubKey
  hostname : ad.hostname ≠ []

variable {der : ℕ} {now rssiProbeRequest rssiProbeResponse freq : ℤ} {ssid : Option String}

theorem parse_digits (h : Readable p der ad) :
    parse_resfi_ie p now (digits p ad) 32 32 (2 * der) rssiProbeRequest rssiProbeResponse freq
        ssid =
      .ok
        { ipAddress := String.ofList (Messaging.asciiText ad.hostname)
          encryptionKey := ad.key
          encryptionIV := ad.iv
          pubKey := some ad.pubKey
          rssiProbeRequest := rssiProbeRequest
          rssiProbeResponse := rssiProbeResponse
          freq := freq
          ssid := ssid.getD ""
          timestampLastKCM := now } := by
  have hkey : ((hexEncode ad.key).length : ℤ) = 32 := by
    rw [hexEncode_length, h.key]
    rfl
  have hiv : ((hexEncode ad.iv).length : ℤ) = 32 := by
    rw [hexEncode_length, h.iv]
    rfl
  have hder : ((hexEncode (p.exportKey ad.pubKey)).length : ℤ) = 2 * der := by
    rw [hexEncode_length, h.der]
    push_cast
    rfl
  rw [digits_eq, ← hkey, ← hder]
  nth_rewrite 2 [hkey]
  rw [← hiv]
  exact parse_resfi_ie_parts (unhex_hexEncode _) (unhex_hexEncode _) (unhex_hexEncode _)
    (unhex_hexEncode _) h.hostname h.imported

end Requests

section Scans

variable {p : Platform} {ad : Advert} {der : ℕ} {now : ℤ} {ips : List String}

theorem splitlinesFrom_last {line : Text} (hline : '\n' ∉ line ∧ '\r' ∉ line) (front : Text)
    (hne : front ++ line ≠ []) : splitlinesFrom front line = [front ++ line] := by
  induction line generalizing front with
  | nil =>
    rw [List.append_nil] at hne ⊢
    rw [splitlinesFrom, if_neg hne]
  | cons c line ih =>
    simp only [List.mem_cons, not_or] at hline
    obtain ⟨⟨hnewline, htail⟩, hreturn, htail'⟩ := hline
    rw [splitlinesFrom]
    · rw [ih ⟨htail, htail'⟩ _ (by simp), List.append_assoc]
      rfl
    · intro s hc
      exact absurd hc.symm hreturn
    · intro hc
      exact hreturn hc.symm
    · intro hc
      exact hnewline hc.symm

/-- What is left of a response when the text in front of the digits is taken away. -/
def responseData (p : Platform) (ad : Advert) : Text := "\t ".toList ++ digits p ad

/-- The entry that a response adds. -/
def virtualEntry (p : Platform) (ad : Advert) : ScanEntry :=
  ⟨.inr 99, "MininetVirtualAP".toList, showInt 999, responseData p ad⟩

/-- A response is one line, and adds one entry. -/
theorem scan_responseOf (p : Platform) (ad : Advert) (dataArray : List ScanEntry) :
    (splitlines (responseOf p ad)).foldl scanLine dataArray =
      dataArray ++ [virtualEntry p ad] := by
  have hletters : ∀ c, c ∉ "\t ".toList ++ vendorText → (∀ n < 16, lowerHex n ≠ c) →
      c ∉ responseOf p ad := by
    intro c hfront hdigits
    rw [responseOf_eq, List.mem_append, not_or]
    exact ⟨hfront, digits_free hdigits⟩
  have hline : splitlines (responseOf p ad) = [responseOf p ad] := by
    refine splitlinesFrom_last ⟨hletters '\n' (by decide) (by decide),
      hletters '\r' (by decide) (by decide)⟩ [] ?_
    rw [responseOf_eq]
    simp
  have hfound : contains vendorText (responseOf p ad) = true := by
    rw [contains_iff, responseOf_eq]
    exact ⟨"\t ".toList, digits p ad, rfl⟩
  have hcut : replace vendorText [] (responseOf p ad) = responseData p ad := by
    rw [responseOf_eq]
    have honce : replace vendorText [] ("\t ".toList ++ vendorText ++ digits p ad) =
        "\t ".toList ++ [] ++ digits p ad :=
      replace_once (d := 'V') (by decide) (by decide)
        (not_infix_of_not_mem (d := 'V') (by decide) (digits_free (by decide)))
    rwa [List.append_nil] at honce
  rw [hline, List.foldl_cons, List.foldl_nil, scanLine, if_pos hfound, hcut]
  rfl

/-- The entry of a node that was heard in a scan. -/
def heard (ad : Advert) (now : ℤ) : Neighbor where
  ipAddress := String.ofList (Messaging.asciiText ad.hostname)
  encryptionKey := ad.key
  encryptionIV := ad.iv
  pubKey := some ad.pubKey
  rssiProbeResponse := 999
  freq := 99
  ssid := "MininetVirtualAP"
  timestampLastKCM := now

theorem readEntry_virtual (h : Readable p der ad) {pubKeyStr SymKeyStr SymIVStr : Text}
    (hpubKey : pubKeyStr.length = 2 * der) (hSymKey : SymKeyStr.length = 32)
    (hSymIV : SymIVStr.length = 32) :
    readEntry p now pubKeyStr SymKeyStr SymIVStr (virtualEntry p ad) =
      .ok (some (heard ad now)) := by
  have hdata : replace ['\t'] [] (replace ['\n'] [] (replace [' '] [] (responseData p ad))) =
      digits p ad := by
    have hkeep : ∀ c, (∀ n < 16, lowerHex n ≠ c) →
        (digits p ad).filter (· ≠ c) = digits p ad :=
      fun c hc => filter_eq_self_of_not_mem (digits_free hc)
    have hfront : ∀ c, (responseData p ad).filter (· ≠ c) =
        ['\t', ' '].filter (· ≠ c) ++ (digits p ad).filter (· ≠ c) :=
      fun c => List.filter_append ['\t', ' '] (digits p ad)
    rw [replace_letter, replace_letter, replace_letter, hfront, hkeep ' ' (by decide),
      List.filter_append, hkeep '\n' (by decide), List.filter_append, hkeep '\t' (by decide)]
    rfl
  have hlong : ¬ (responseData p ad).length ≤ 10 := by
    have hlen : (responseData p ad).length = 2 + (digits p ad).length := by
      rw [responseData, List.length_append]
      rfl
    rw [hlen, digits, hexEncode_length, Advert.payload]
    simp only [List.length_append, h.key]
    omega
  have hparse : parse_resfi_ie p now (digits p ad) 32 32 (2 * der) 0 999 99
      (some "MininetVirtualAP") = .ok (heard ad now) := parse_digits h
  rw [readEntry]
  simp only [virtualEntry, if_neg hlong, hdata, readInt_showInt, toInt, hpubKey, hSymKey, hSymIV,
    String.ofList_toList]
  push_cast
  rw [hparse]
  rfl

/-- The datagrams that a scan reads, one interface after the other. -/
def received (hostname : String) (ifs : List (String × List Datagram)) : List Datagram :=
  (ifs.filter (fun i => ¬ (i.1 = hostname ∨ i.1 = "127.0.0.1"))).flatMap Prod.snd

theorem foldl_scanInterface (hostname : String) (ips : List String)
    (ifs : List (String × List Datagram)) (s : Scan) :
    ifs.foldl (scanInterface hostname ips) s =
      (received hostname ifs).foldl (receiveResponse ips) s := by
  induction ifs generalizing s with
  | nil => rfl
  | cons i ifs ih =>
    rw [List.foldl_cons, ih, received, received, scanInterface]
    by_cases hskip : i.1 = hostname ∨ i.1 = "127.0.0.1"
    · rw [if_pos hskip, List.filter_cons_of_neg (by simp [hskip])]
    · rw [if_neg hskip, List.filter_cons_of_pos (by simp [hskip]), List.flatMap_cons,
        List.foldl_append]

/-- A datagram that a scan does not pass over. -/
def Foreign (ips : List String) (d : Datagram) : Prop := d.address ∉ ips ∧ d.content ≠ []

/-- Every foreign datagram is the response of the node that has its address. -/
def Answers (p : Platform) (answer : String → Advert) (ips : List String) (ds : List Datagram) :
    Prop :=
  ∀ d ∈ ds, Foreign ips d → d.content = responseOf p (answer d.address)

/-- After the datagrams `ds`: the addresses that were heard, with one entry for each. -/
structure Scanned (p : Platform) (answer : String → Advert) (ips : List String)
    (ds : List Datagram) (s : Scan) : Prop where
  addresses : ∀ address, address ∈ s.addressList ↔ ∃ d ∈ ds, d.address = address ∧ Foreign ips d
  entries : s.dataArray = s.addressList.map (fun address => virtualEntry p (answer address))

variable {answer : String → Advert} {ds : List Datagram} {s : Scan} {d : Datagram}

theorem Scanned.receive (h : Scanned p answer ips ds s)
    (hd : Foreign ips d → d.content = responseOf p (answer d.address)) :
    Scanned p answer ips (ds ++ [d]) (receiveResponse ips s d) := by
  by_cases hnew : d.address ∉ s.addressList ∧ Foreign ips d
  · obtain ⟨hfirst, hforeign⟩ := hnew
    rw [receiveResponse, if_pos ⟨hfirst, hforeign.1, List.length_pos_iff.mpr hforeign.2⟩]
    refine ⟨?_, ?_⟩
    · intro address
      simp only [List.mem_append, List.mem_singleton, h.addresses]
      constructor
      · rintro (⟨d', hd', haddress, hforeign'⟩ | rfl)
        · exact ⟨d', Or.inl hd', haddress, hforeign'⟩
        · exact ⟨d, Or.inr rfl, rfl, hforeign⟩
      · rintro ⟨d', hd' | rfl, haddress, hforeign'⟩
        · exact Or.inl ⟨d', hd', haddress, hforeign'⟩
        · exact Or.inr haddress.symm
    · rw [hd hforeign, scan_responseOf, h.entries, List.map_append, List.map_singleton]
  · have hold : ¬ (d.address ∉ s.addressList ∧ d.address ∉ ips ∧ d.content.length > 0) := by
      rintro ⟨hfirst, haddress, hlength⟩
      exact hnew ⟨hfirst, haddress, List.length_pos_iff.mp hlength⟩
    rw [receiveResponse, if_neg hold]
    refine ⟨?_, h.entries⟩
    intro address
    rw [h.addresses]
    constructor
    · rintro ⟨d', hd', haddress, hforeign⟩
      exact ⟨d', List.mem_append_left _ hd', haddress, hforeign⟩
    · rintro ⟨d', hd', haddress, hforeign⟩
      rcases List.mem_append.mp hd' with hd' | hd'
      · exact ⟨d', hd', haddress, hforeign⟩
      · -- the address has been heard before
        rw [List.mem_singleton.mp hd'] at haddress hforeign
        have hknown : d.address ∈ s.addressList := by
          by_contra hfirst
          exact hnew ⟨hfirst, hforeign⟩
        rw [haddress] at hknown
        exact (h.addresses address).mp hknown

theorem scanned (h : Answers p answer ips ds) :
    Scanned p answer ips ds (ds.foldl (receiveResponse ips) {}) := by
  induction ds using List.reverseRecOn with
  | nil => exact ⟨by simp, rfl⟩
  | append_singleton ds d ih =>
    rw [List.foldl_append, List.foldl_cons, List.foldl_nil]
    exact (ih (fun d' hd' => h d' (List.mem_append_left _ hd'))).receive (h d (by simp))

/-- The loop over entries of responses puts each under its hostname. -/
theorem readEntries_virtual {ads : List Advert} (hads : ∀ ad ∈ ads, Readable p der ad)
    (hnames : ∀ ad ∈ ads, (heard ad now).ipAddress ≠ "Error") {pubKeyStr SymKeyStr SymIVStr : Text}
    (hpubKey : pubKeyStr.length = 2 * der) (hSymKey : SymKeyStr.length = 32)
    (hSymIV : SymIVStr.length = 32) (list : NeighborList) :
    readEntries p now pubKeyStr SymKeyStr SymIVStr list (ads.map (virtualEntry p)) =
      .ok (ads.foldl (fun list ad => list.insert (heard ad now).ipAddress (heard ad now)) list) := by
  induction ads generalizing list with
  | nil => rfl
  | cons ad ads ih =>
    rw [List.map_cons, readEntries, readEntry_virtual (hads ad (by simp)) hpubKey hSymKey hSymIV]
    simp only [if_neg (hnames ad (by simp))]
    rw [ih (fun ad' h' => hads ad' (by simp [h'])) (fun ad' h' => hnames ad' (by simp [h']))]
    rfl

theorem lookup_heard {ads : List Advert} (list : NeighborList)
    (hsame : ∀ ad ∈ ads, ∀ ad' ∈ ads, (heard ad now).ipAddress = (heard ad' now).ipAddress →
      ad = ad') (h : String) (e : Neighbor) :
    (ads.foldl (fun list ad => list.insert (heard ad now).ipAddress (heard ad now))
        list).lookup h = some e ↔
      (∃ ad ∈ ads, (heard ad now).ipAddress = h ∧ e = heard ad now) ∨
        ((∀ ad ∈ ads, (heard ad now).ipAddress ≠ h) ∧ list.lookup h = some e) := by
  induction ads using List.reverseRecOn with
  | nil => simp
  | append_singleton ads ad ih =>
    rw [List.foldl_append, List.foldl_cons, List.foldl_nil]
    by_cases hname : (heard ad now).ipAddress = h
    · subst hname
      rw [AList.lookup_insert]
      constructor
      · rintro ⟨rfl⟩
        exact Or.inl ⟨ad, by simp, rfl, rfl⟩
      · rintro (⟨ad', had', hname, rfl⟩ | ⟨hnone, -⟩)
        · rw [hsame ad' had' ad (by simp) hname]
        · exact absurd rfl (hnone ad (by simp))
    · rw [AList.lookup_insert_ne (Ne.symm hname),
        ih (fun ad₁ h₁ ad₂ h₂ => hsame ad₁ (by simp [h₁]) ad₂ (by simp [h₂]))]
      simp only [List.mem_append, List.mem_singleton]
      constructor
      · rintro (⟨ad', had', hfound⟩ | ⟨hnone, hlook⟩)
        · exact Or.inl ⟨ad', Or.inl had', hfound⟩
        · refine Or.inr ⟨?_, hlook⟩
          rintro ad' (had' | rfl)
          · exact hnone ad' had'
          · exact hname
      · rintro (⟨ad', had' | rfl, hfound, he⟩ | ⟨hnone, hlook⟩)
        · exact Or.inl ⟨ad', had', hfound, he⟩
        · exact absurd hfound hname
        · exact Or.inr ⟨fun ad' had' => hnone ad' (Or.inl had'), hlook⟩

/-- A scan has an entry for every host that was heard, with what it advertises, and no other,
however often and in whatever order its addresses were heard. -/
theorem performActiveScan_hears {hostname : String} {ifs : List (String × List Datagram)}
    (hanswers : Answers p answer (ifs.map Prod.fst) (received hostname ifs))
    (hread : ∀ d ∈ received hostname ifs, Foreign (ifs.map Prod.fst) d →
      Readable p der (answer d.address))
    (hnames : ∀ d ∈ received hostname ifs, Foreign (ifs.map Prod.fst) d →
      (heard (answer d.address) now).ipAddress ≠ "Error")
    (hsame : ∀ d ∈ received hostname ifs, Foreign (ifs.map Prod.fst) d →
      ∀ d' ∈ received hostname ifs, Foreign (ifs.map Prod.fst) d' →
        (heard (answer d.address) now).ipAddress = (heard (answer d'.address) now).ipAddress →
          answer d.address = answer d'.address)
    {pubKeyStr SymKeyStr SymIVStr : Text} (hpubKey : pubKeyStr.length = 2 * der)
    (hSymKey : SymKeyStr.length = 32) (hSymIV : SymIVStr.length = 32) :
    ∃ list, performActiveScan p now hostname ifs pubKeyStr SymKeyStr SymIVStr = .ok list ∧
      ∀ h e, list.lookup h = some e ↔ ∃ d ∈ received hostname ifs,
        Foreign (ifs.map Prod.fst) d ∧ (heard (answer d.address) now).ipAddress = h ∧
          e = heard (answer d.address) now := by
  obtain ⟨haddresses, hentries⟩ := scanned hanswers
  let s := (received hostname ifs).foldl (receiveResponse (ifs.map Prod.fst)) {}
  have hads : ∀ ad ∈ s.addressList.map answer, ∃ d ∈ received hostname ifs,
      Foreign (ifs.map Prod.fst) d ∧ ad = answer d.address := by
    intro ad had
    obtain ⟨address, haddress, rfl⟩ := List.mem_map.mp had
    obtain ⟨d, hd, rfl, hforeign⟩ := (haddresses address).mp haddress
    exact ⟨d, hd, hforeign, rfl⟩
  have hread' : ∀ ad ∈ s.addressList.map answer, Readable p der ad := by
    intro ad had
    obtain ⟨d, hd, hforeign, rfl⟩ := hads ad had
    exact hread d hd hforeign
  have hnames' : ∀ ad ∈ s.addressList.map answer, (heard ad now).ipAddress ≠ "Error" := by
    intro ad had
    obtain ⟨d, hd, hforeign, rfl⟩ := hads ad had
    exact hnames d hd hforeign
  have hsame' : ∀ ad ∈ s.addressList.map answer, ∀ ad' ∈ s.addressList.map answer,
      (heard ad now).ipAddress = (heard ad' now).ipAddress → ad = ad' := by
    intro ad had ad' had'
    obtain ⟨d, hd, hforeign, rfl⟩ := hads ad had
    obtain ⟨d', hd', hforeign', rfl⟩ := hads ad' had'
    exact hsame d hd hforeign d' hd' hforeign'
  have hmap : s.dataArray = (s.addressList.map answer).map (virtualEntry p) := by
    rw [hentries, List.map_map]
    rfl
  have hscan : performActiveScan p now hostname ifs pubKeyStr SymKeyStr SymIVStr = .ok
      ((s.addressList.map answer).foldl
        (fun list ad => list.insert (heard ad now).ipAddress (heard ad now)) ∅) := by
    rw [performActiveScan, foldl_scanInterface]
    exact hmap ▸ readEntries_virtual hread' hnames' hpubKey hSymKey hSymIV ∅
  refine ⟨_, hscan, ?_⟩
  intro h e
  rw [lookup_heard ∅ hsame']
  constructor
  · rintro (⟨ad, had, hname, rfl⟩ | ⟨-, hlook⟩)
    · obtain ⟨d, hd, hforeign, rfl⟩ := hads ad had
      exact ⟨d, hd, hforeign, hname, rfl⟩
    · cases hlook
  · rintro ⟨d, hd, hforeign, hname, rfl⟩
    exact Or.inl ⟨answer d.address,
      List.mem_map.mpr ⟨d.address, (haddresses d.address).mpr ⟨d, hd, rfl, hforeign⟩, rfl⟩,
      hname, rfl⟩

/-- The entry of a node that sent a probe request. -/
def asked (ad : Advert) (now : ℤ) : Neighbor where
  ipAddress := String.ofList (Messaging.asciiText ad.hostname)
  encryptionKey := ad.key
  encryptionIV := ad.iv
  pubKey := some ad.pubKey
  rssiProbeRequest := 999
  freq := ad.freq
  timestampLastKCM := now

/-- An advertisement that comes from another node is answered and joined as it was sent. -/
theorem subscribe_requestOf (h : Readable p der ad) {world : World} {me : Identity} {a a₁ : Agent}
    {probeResponseContent : Text} {address : String} (haddress : address ∉ ips)
    (hwait : world.wait a = some a₁) (hkey : a₁.key.length = 16) (hiv : a₁.iv.length = 16)
    (hder : (p.exportKey me.rsaKey.publickey).length = der) :
    subscribeToProbeRequests p world me ips probeResponseContent a ⟨address, requestOf p ad⟩ =
      ((setProbeRequest (onAPJoined world.outside me (setProbeRequest a₁ false)
        [asked ad world.now]) true, .returned), some probeResponseContent) := by
  have hparse : parse_resfi_ie p world.now (digits p ad) 32 32 (2 * der) 999 0 ad.freq none =
      .ok (asked ad world.now) := parse_digits h
  have hjoin : joinElement p world me a₁ (digits p ad) ad.freq (showInt 999) =
      (setProbeRequest (onAPJoined world.outside me (setProbeRequest a₁ false)
        [asked ad world.now]) true, .returned) := by
    have hlengths : (2 * (setProbeRequest a₁ false).key.length : ℤ) = 32 ∧
        (2 * (setProbeRequest a₁ false).iv.length : ℤ) = 32 := by
      constructor
      · exact_mod_cast congrArg (2 * ·) hkey
      · exact_mod_cast congrArg (2 * ·) hiv
    simp only [joinElement, readInt_showInt]
    rw [hlengths.1, hlengths.2, hder, hparse]
  rw [subscribeToProbeRequests, if_pos haddress, handle_incoming_probe_requests,
    if_pos (contains_requestOf p ad), splitElement_requestOf]
  simp only [hwait, hjoin]

end Scans

end Nxwlan.MininetConnector
