import Nxwlan.PublishedFrames
import Nxwlan.ScanResults
import Nxwlan.SoundTables

/-!
Elements from which no key, vector and address can be read. The bounds of the parser change
their meaning when an element is shorter than expected, so that two kinds of malformed
elements are read as entries: an odd number of digits below the length of a key gives the
entry "Error", and a short public key that can be imported gives one without a name. The
scan leaves the first kind out, a probe request joins it.
-/
namespace Nxwlan.MalformedAdverts

open JsonFrames AgentState Forwarder PyText ProbeRequests ProbeAdverts ScanResults
open ReceiveLoop (hexEncode)
open ScanCommands (hexEncode_length)
open Base64 (Bytes)

variable {p : Platform} {now rssiProbeRequest rssiProbeResponse freq : ℤ} {ssid : Option String}
  {data : Text} {n : ℕ} {entry : Neighbor} {out : Outside} {me : Identity} {a : Agent}

/-- The neighbors and the endpoints of `a` and `b` are the same. -/
structure SameLinks (a b : Agent) : Prop where
  table : ∀ name, b.globalNeighborList.lookup name = a.globalNeighborList.lookup name
  endpoints : b.frontend = a.frontend

/-- The parser gets no 16-byte key, 16-byte vector and address out of the element, for own
keys of 16 bytes and a public key of `n` bytes. -/
def Malformed (p : Platform) (n : ℕ) (data : Text) : Prop :=
  ∀ now rssiProbeRequest rssiProbeResponse freq ssid entry,
    parse_resfi_ie p now data 32 32 (2 * n) rssiProbeRequest rssiProbeResponse freq ssid =
      .ok entry →
    ¬ (entry.encryptionKey.length = 16 ∧ entry.encryptionIV.length = 16 ∧ entry.ipAddress ≠ "")

/-! Lengths of the parts. -/

theorem bound_le (len : ℕ) (i : ℤ) : bound len i ≤ len := by
  unfold bound
  split
  · omega
  · exact min_le_right _ _

theorem length_slice (s : Text) (i j : ℤ) :
    (slice s i j).length = bound s.length j - bound s.length i := by
  rw [slice, List.length_drop, List.length_take, min_eq_left (bound_le _ _)]

theorem length_keyPart (data : Text) : (keyPart data 32).length =
    if 32 < data.length then 32 else min (32 - data.length) data.length := by
  rw [keyPart, length_slice, bound, bound]
  split_ifs <;> omega

theorem length_ivPart (data : Text) : (ivPart data 32 32).length =
    if 64 < data.length then 32 else 0 := by
  rw [ivPart, length_slice, bound, bound]
  split_ifs <;> omega

theorem length_pubKeyPart (data : Text) (n : ℕ) : (pubKeyPart data 32 32 (2 * n)).length =
    if 64 + 2 * n < data.length then 2 * n
    else min (64 + 2 * n - data.length) data.length - min 64 data.length := by
  rw [pubKeyPart, length_slice, bound, bound]
  split_ifs <;> omega

theorem length_ipPart (data : Text) (n : ℕ) :
    (ipPart data 32 32 (2 * n)).length = data.length - (64 + 2 * n) := by
  rw [ipPart, length_slice, bound, bound]
  split_ifs <;> omega

/-- The entry of an element that cannot be used. -/
def errorEntry (now : ℤ) : Neighbor := { ipAddress := "Error", timestampLastKCM := now }

theorem parse_odd (hodd : data.length % 2 = 1) (hshort : data.length < 32) :
    parse_resfi_ie p now data 32 32 (2 * n) rssiProbeRequest rssiProbeResponse freq ssid =
      .ok (errorEntry now) := by
  have hkey : (keyPart data 32).length % 2 ≠ 0 := by
    rw [length_keyPart, if_neg (by omega)]
    omega
  rw [parse_resfi_ie]
  exact if_pos (Or.inl hkey)

/-- What is read of a malformed element, if anything. -/
theorem parse_malformed (himport : p.importKey [] = none) (hmal : Malformed p n data)
    (h : parse_resfi_ie p now data 32 32 (2 * n) rssiProbeRequest rssiProbeResponse freq ssid =
      .ok entry) :
    (data.length % 2 = 1 ∧ data.length < 32 ∧ entry = errorEntry now) ∨
      (64 < data.length ∧ data.length < 2 * n ∧ entry.ipAddress = "") := by
  have hnot := hmal _ _ _ _ _ _ h
  have hkeylen := length_keyPart data
  have hivlen := length_ivPart data
  have hpublen := length_pubKeyPart data n
  have hiplen := length_ipPart data n
  rcases parse_resfi_ie_cases h with
    ⟨hodd, hentry⟩ | ⟨rsona, rstna, der, host, pubKey, hrsona, hrstna, hder, hhost, hpub, rfl⟩
  · left
    refine ⟨?_, ?_, hentry⟩
    · split_ifs at hkeylen hivlen <;> omega
    · split_ifs at hkeylen hivlen <;> omega
  · right
    have hkey16 := length_of_unhex hrsona
    have hiv16 := length_of_unhex hrstna
    have hderlen := length_of_unhex hder
    have hhostlen := length_of_unhex hhost
    have hderne : 0 < der.length := by
      rw [List.length_pos_iff]
      rintro rfl
      rw [himport] at hpub
      cases hpub
    by_cases hlong : 64 + 2 * n < data.length
    · -- long enough for all parts, so that it is not malformed
      refine absurd ⟨?_, ?_, ?_⟩ hnot
      · rw [hkeylen, if_pos (by omega)] at hkey16
        exact by simpa using (show rsona.length = 16 by omega)
      · rw [hivlen, if_pos (by omega)] at hiv16
        exact by simpa using (show rstna.length = 16 by omega)
      · intro hempty
        have hnil : host = [] := by simpa [Messaging.asciiText] using hempty
        rw [hnil] at hhostlen
        simp only [List.length_nil] at hhostlen
        omega
    · rw [if_neg hlong] at hpublen
      have hnil : host = [] := List.length_eq_zero_iff.mp (by omega)
      refine ⟨by omega, by omega, ?_⟩
      rw [hnil]
      rfl

/-! What joining an entry changes. -/

/-- The entry changes no link: its address is unknown and cannot be connected, or it is known
with these values. -/
def Inert (out : Outside) (a : Agent) (entry : Neighbor) : Prop :=
  match a.globalNeighborList.lookup entry.ipAddress with
  | none => out.connects entry.ipAddress = false
  | some old => old.update entry = old

theorem joinOne_sameLinks_iff : SameLinks a (joinOne out me a entry) ↔ Inert out a entry := by
  unfold Inert
  cases hlook : a.globalNeighborList.lookup entry.ipAddress with
  | some old =>
    have hjoin : joinOne out me a entry = Agent.putNeighbor a entry.ipAddress (old.update entry) := by
      simp [joinOne, hlook, parse_existing_neighbor, Agent.putNeighbor]
    rw [hjoin]
    constructor
    · intro hsame
      have hentry := hsame.table entry.ipAddress
      rw [Rescans.lookup_putNeighbor, hlook] at hentry
      exact Option.some.inj hentry
    · intro hupdate
      refine ⟨?_, rfl⟩
      intro name
      by_cases hname : name = entry.ipAddress
      · rw [hname, Rescans.lookup_putNeighbor, hupdate, hlook]
      · exact (Rescans.EntryOnly.putNeighbor _ a _).others name hname
  | none =>
    cases hconn : out.connects entry.ipAddress with
    | false =>
      have hjoin : joinOne out me a entry = a := by simp [joinOne, hlook, hconn]
      rw [hjoin]
      exact iff_of_true ⟨fun name => rfl, rfl⟩ rfl
    | true =>
      refine iff_of_false ?_ (by simp)
      intro hsame
      have hentry := hsame.table entry.ipAddress
      simp only [joinOne, hlook, Option.isSome_none, Bool.false_eq_true, if_false, hconn,
        if_true] at hentry
      rw [(SoundTables.notifyNewLink_spec out _ _ _).2.2.1, AList.lookup_insert] at hentry
      cases hentry

/-- The entry of an unusable element carries nothing. -/
theorem inert_errorEntry_iff : Inert out a (errorEntry now) ↔
    (a.globalNeighborList.lookup "Error").isSome = true ∨ out.connects "Error" = false := by
  unfold Inert errorEntry
  dsimp only
  cases a.globalNeighborList.lookup "Error" with
  | none => simp
  | some old => simp [Neighbor.update]

section Probe

variable {world : World} {level : ℤ}

theorem joinElement_sameLinks_iff (hkey : a.key.length = 16) (hiv : a.iv.length = 16) :
    SameLinks a (joinElement p world me a data freq (showInt level)).1 ↔
      ∀ entry, parse_resfi_ie p world.now data 32 32
        (2 * (p.exportKey me.rsaKey.publickey).length) level 0 freq none = .ok entry →
        Inert world.outside a entry := by
  have hargs : parse_resfi_ie p world.now data (2 * (setProbeRequest a false).key.length)
      (2 * (setProbeRequest a false).iv.length) (2 * (p.exportKey me.rsaKey.publickey).length)
      level 0 freq none = parse_resfi_ie p world.now data 32 32
        (2 * (p.exportKey me.rsaKey.publickey).length) level 0 freq none := by
    have hkey' : (setProbeRequest a false).key.length = 16 := hkey
    have hiv' : (setProbeRequest a false).iv.length = 16 := hiv
    rw [hkey', hiv']
    norm_num
  simp only [joinElement, readInt_showInt, hargs]
  cases parse_resfi_ie p world.now data 32 32
      (2 * (p.exportKey me.rsaKey.publickey).length) level 0 freq none with
  | error err => exact iff_of_true ⟨fun name => rfl, rfl⟩ (fun entry hentry => by cases hentry)
  | ok entry =>
    have hjoin := @joinOne_sameLinks_iff entry world.outside me (setProbeRequest a false)
    constructor
    · intro hsame entry' hentry
      obtain rfl := Except.ok.inj hentry
      exact hjoin.mp ⟨hsame.table, hsame.endpoints⟩
    · intro hinert
      have hsame := hjoin.mpr (hinert entry rfl)
      exact ⟨hsame.table, hsame.endpoints⟩

/-- The element of a probe request, once the waits are over. -/
theorem handle_element {payload rssi : Text} {a₁ : Agent}
    (helement : splitElement payload = .ok (data, freq)) (hwait : world.wait a = some a₁) :
    handle_incoming_probe_requests p world me a payload rssi =
      joinElement p world me a₁ data freq rssi := by
  have hmarked : contains marker payload = true := by
    by_contra hfree
    have hcut : cut marker payload = none := by simpa [contains] using hfree
    have hsplit : split marker 2 payload = [payload] := by simp [split, hcut]
    simp [splitElement, hsplit] at helement
  simp only [handle_incoming_probe_requests, hmarked, if_true, helement, hwait]

end Probe

section Scan

variable {pubKeyStr SymKeyStr SymIVStr : Text}

/-- The digits that a scan reads of an element. -/
def digitsOf (e : ScanEntry) : Text :=
  replace ['\t'] [] (replace ['\n'] [] (replace [' '] [] e.data))

/-- The entry without a name that a scan is left with: that of the last element without one. -/
def lastNameless (p : Platform) (now : ℤ) (pubKeyStr SymKeyStr SymIVStr : Text)
    (last : Option Neighbor) : List ScanEntry → Option Neighbor
  | [] => last
  | e :: rest =>
      lastNameless p now pubKeyStr SymKeyStr SymIVStr
        (match readEntry p now pubKeyStr SymKeyStr SymIVStr e with
          | .ok (some entry) => if entry.ipAddress = "" then some entry else last
          | _ => last) rest

/-- A table with at most one entry, without a name. -/
def unnamed : Option Neighbor → NeighborList
  | none => ∅
  | some entry => (∅ : NeighborList).insert "" entry

theorem insert_unnamed (last : Option Neighbor) (entry : Neighbor) :
    (unnamed last).insert "" entry = unnamed (some entry) := by
  cases last with
  | none => rfl
  | some old => exact AList.insert_insert _

theorem readEntry_malformed {e : ScanEntry} (himport : p.importKey [] = none)
    (hSymKey : SymKeyStr.length = 32) (hSymIV : SymIVStr.length = 32)
    (hpubKey : pubKeyStr.length = 2 * n) (hmal : Malformed p n (digitsOf e))
    (h : readEntry p now pubKeyStr SymKeyStr SymIVStr e = .ok (some entry)) :
    entry.ipAddress = "Error" ∨ entry.ipAddress = "" := by
  unfold readEntry at h
  split at h
  · cases h
  · split at h
    · rename_i rssi freq hrssi hfreq
      rw [hSymKey, hSymIV, hpubKey] at h
      push_cast at h
      change (parse_resfi_ie p now (digitsOf e) 32 32 (2 * n) 0 rssi freq
        (some (String.ofList e.ssid))).map some = _ at h
      cases hparse : parse_resfi_ie p now (digitsOf e) 32 32 (2 * n) 0 rssi freq
          (some (String.ofList e.ssid)) with
      | error err =>
        rw [hparse] at h
        cases h
      | ok entry' =>
        rw [hparse] at h
        obtain rfl := Option.some.inj (Except.ok.inj h)
        rcases parse_malformed himport hmal hparse with ⟨-, -, rfl⟩ | ⟨-, -, hname⟩
        · exact Or.inl rfl
        · exact Or.inr hname
    · cases h

/-- A scan of malformed elements returns at most one entry, without a name. -/
theorem readEntries_malformed {elements : List ScanEntry} {results : NeighborList}
    (himport : p.importKey [] = none) (hSymKey : SymKeyStr.length = 32)
    (hSymIV : SymIVStr.length = 32) (hpubKey : pubKeyStr.length = 2 * n)
    (hmal : ∀ e ∈ elements, Malformed p n (digitsOf e)) (last : Option Neighbor)
    (h : readEntries p now pubKeyStr SymKeyStr SymIVStr (unnamed last) elements = .ok results) :
    results = unnamed (lastNameless p now pubKeyStr SymKeyStr SymIVStr last elements) := by
  induction elements generalizing last with
  | nil => exact (Except.ok.inj h).symm
  | cons e rest ih =>
    obtain ⟨he, hrest⟩ := List.forall_mem_cons.mp hmal
    rw [readEntries] at h
    rw [lastNameless]
    cases hread : readEntry p now pubKeyStr SymKeyStr SymIVStr e with
    | error err =>
      rw [hread] at h
      cases h
    | ok found =>
      rw [hread] at h
      cases found with
      | none => exact ih hrest last h
      | some entry =>
        dsimp only at h ⊢
        rcases readEntry_malformed himport hSymKey hSymIV hpubKey he hread with hname | hname
        · have hne : entry.ipAddress ≠ "" := by
            rw [hname]
            decide
          rw [if_pos hname] at h
          rw [if_neg hne]
          exact ih hrest last h
        · have hne : entry.ipAddress ≠ "Error" := by
            rw [hname]
            decide
          rw [if_neg hne, hname, insert_unnamed] at h
          rw [if_pos hname]
          exact ih hrest (some entry) h

theorem onAPJoined_unnamed_iff (last : Option Neighbor) :
    SameLinks a (onAPJoined out me a ((unnamed last).entries.map Sigma.snd)) ↔
      ∀ entry, last = some entry → Inert out a entry := by
  cases last with
  | none => exact iff_of_true ⟨fun name => rfl, rfl⟩ (fun entry hentry => by cases hentry)
  | some entry =>
    have hjoin : onAPJoined out me a ((unnamed (some entry)).entries.map Sigma.snd) =
        joinOne out me a entry := rfl
    rw [hjoin, joinOne_sameLinks_iff]
    constructor
    · intro hinert entry' hentry
      rwa [← Option.some.inj hentry]
    · exact fun hinert => hinert entry rfl

end Scan

/-- Malformed elements change no neighbor and no endpoint. In a probe request: unless an odd
number of digits below a key makes the entry "Error", which is not known and can be connected,
or a public key that is too short makes an entry without a name that is not inert. In a scan:
unless the last entry without a name is not inert. -/
theorem malformed_element_iff (p : Platform) (world : World) (me : Identity) (a a₁ : Agent)
    (payload data : Text) (freq level now : ℤ) (elements : List ScanEntry) (results : NeighborList)
    (hkey : a₁.key.length = 16) (hiv : a₁.iv.length = 16) (himport : p.importKey [] = none)
    (hwait : world.wait a = some a₁) (helement : splitElement payload = .ok (data, freq))
    (hmal : Malformed p (p.exportKey me.rsaKey.publickey).length data)
    (hmals : ∀ e ∈ elements, Malformed p (p.exportKey me.rsaKey.publickey).length (digitsOf e))
    (hscan : readEntries p now (hexEncode (p.exportKey me.rsaKey.publickey)) (hexEncode a₁.key)
      (hexEncode a₁.iv) ∅ elements = .ok results) :
    (SameLinks a₁ (handle_incoming_probe_requests p world me a payload (showInt level)).1 ↔
      (data.length % 2 = 1 → data.length < 32 →
        (a₁.globalNeighborList.lookup "Error").isSome = true ∨
          world.outside.connects "Error" = false) ∧
      (64 < data.length → data.length < 2 * (p.exportKey me.rsaKey.publickey).length →
        ∀ entry, parse_resfi_ie p world.now data 32 32
          (2 * (p.exportKey me.rsaKey.publickey).length) level 0 freq none = .ok entry →
          Inert world.outside a₁ entry)) ∧
    (SameLinks a₁ (onAPJoined world.outside me a₁ (results.entries.map Sigma.snd)) ↔
      ∀ entry, lastNameless p now (hexEncode (p.exportKey me.rsaKey.publickey)) (hexEncode a₁.key)
        (hexEncode a₁.iv) none elements = some entry → Inert world.outside a₁ entry) := by
  constructor
  · rw [handle_element helement hwait, joinElement_sameLinks_iff hkey hiv]
    constructor
    · intro hinert
      refine ⟨?_, fun _ _ => hinert⟩
      intro hodd hshort
      rw [← @inert_errorEntry_iff world.now]
      exact hinert _ (parse_odd hodd hshort)
    · rintro ⟨herror, hnameless⟩ entry hparse
      rcases parse_malformed himport hmal hparse with ⟨hodd, hshort, rfl⟩ | ⟨hlong, hshort, -⟩
      · exact inert_errorEntry_iff.mpr (herror hodd hshort)
      · exact hnameless hlong hshort entry hparse
  · have hSymKey : (hexEncode a₁.key).length = 32 := by
      rw [hexEncode_length, hkey]
    have hSymIV : (hexEncode a₁.iv).length = 32 := by
      rw [hexEncode_length, hiv]
    have hresults := readEntries_malformed himport hSymKey hSymIV (hexEncode_length _) hmals none
      hscan
    rw [hresults, onAPJoined_unnamed_iff]

/-- The sample agent's public key has 33 bytes. -/
theorem malformed_digits {data : Text} (heven : ∀ now rq rs freq ssid,
    parse_resfi_ie listPlatform now data 32 32 (2 * (33 : ℕ)) rq rs freq ssid = .error .valueError) :
    Malformed listPlatform 33 data := by
  intro now rq rs freq ssid entry h
  rw [heven] at h
  cases h

/-- An element of two digits, in a probe request and in a scan. -/
def shortPayload : Text := "B16B00B5D2B16B00B52412".toList

def shortElement : ScanEntry := ⟨.inr 2412, "home".toList, "-40".toList, "\td2".toList⟩

theorem malformed_element_short :
    SameLinks PublishedFrames.sampleAgent (handle_incoming_probe_requests listPlatform quietWorld
      PublishedFrames.sampleIdentity PublishedFrames.sampleAgent shortPayload (showInt (-40))).1 ∧
    SameLinks PublishedFrames.sampleAgent (onAPJoined quietWorld.outside
      PublishedFrames.sampleIdentity PublishedFrames.sampleAgent
      ((∅ : NeighborList).entries.map Sigma.snd)) := by
  have hmal : Malformed listPlatform 33 "D2".toList := malformed_digits (fun _ _ _ _ _ => rfl)
  have hmals : ∀ e ∈ [shortElement], Malformed listPlatform 33 (digitsOf e) := by
    intro e he
    rw [List.mem_singleton.mp he]
    exact malformed_digits (fun _ _ _ _ _ => rfl)
  obtain ⟨hprobe, hscan⟩ := malformed_element_iff listPlatform quietWorld
    PublishedFrames.sampleIdentity PublishedFrames.sampleAgent PublishedFrames.sampleAgent
    shortPayload "D2".toList 2412 (-40) 0 [shortElement] ∅ (by decide) (by decide) (by decide) rfl
    (by decide) hmal hmals rfl
  refine ⟨hprobe.mpr ⟨?_, ?_⟩, hscan.mpr ?_⟩
  · exact fun hodd => absurd hodd (by decide)
  · exact fun hlong => absurd hlong (by decide)
  · intro entry hentry
    cases hentry

/-- The element DD 0A B1 6B 00 B5 AB 16 B0 0B 52 41: its markers stand at odd places, with one
digit between them. -/
def oddPayload : Text :=
  hexDump [0xdd, 0x0a, 0xb1, 0x6b, 0x00, 0xb5, 0xab, 0x16, 0xb0, 0x0b, 0x52, 0x41]

theorem odd_element_joined :
    splitElement oddPayload = .ok ("A".toList, 241) ∧ Malformed listPlatform 33 "A".toList ∧
    ¬ SameLinks PublishedFrames.sampleAgent (handle_incoming_probe_requests listPlatform quietWorld
      PublishedFrames.sampleIdentity PublishedFrames.sampleAgent oddPayload (showInt (-40))).1 := by
  refine ⟨by decide, ?_, ?_⟩
  · intro now rq rs freq ssid entry h hread
    rw [parse_odd (by decide) (by decide)] at h
    rw [← Except.ok.inj h, errorEntry] at hread
    cases hread.1
  · intro hsame
    have hjoined : ((handle_incoming_probe_requests listPlatform quietWorld
        PublishedFrames.sampleIdentity PublishedFrames.sampleAgent oddPayload
        (showInt (-40))).1.globalNeighborList.lookup "Error").isSome = true := by decide
    rw [hsame.table] at hjoined
    exact absurd hjoined (by decide)

end Nxwlan.MalformedAdverts
