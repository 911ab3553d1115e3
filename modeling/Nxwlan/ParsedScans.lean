import Nxwlan.MalformedAdverts
import Nxwlan.MininetConnector

/-!
What comes out of a scan of one of the two connectors. The results are the values of a
dictionary under their addresses, and an entry that the parser has read of an element, and
not given up as "Error", has a whole key and vector and a public key.
-/
namespace Nxwlan.ParsedScans

open JsonFrames AgentState Forwarder PyText ProbeRequests ProbeAdverts ScanResults MalformedAdverts
open Rescans SoundTables
open ReceiveLoop (hexEncode)
open ScanCommands (hexEncode_length)
open Base64 (Bytes)

variable {p : Platform} {now rssiProbeRequest rssiProbeResponse freq d : ℤ} {ssid : Option String}
  {data pubKeyStr SymKeyStr SymIVStr : Text} {entry : Neighbor} {me : Identity}
  {list list' : NeighborList} {key iv : Bytes}

/-- A key and a vector of 16 bytes and a public key, and none of old. -/
structure Whole (entry : Neighbor) : Prop where
  key : entry.encryptionKey.length = 16
  iv : entry.encryptionIV.length = 16
  pubKey : entry.pubKey.isSome = true
  old : entry.oldEncryptionKey = none

theorem Whole.sized (h : Whole entry) : Sized entry := by
  refine ⟨aesAccepts_of_length h.key h.iv, ?_⟩
  intro key iv hkey
  rw [h.old] at hkey
  cases hkey

theorem Whole.complete (h : Whole entry) : Complete me entry :=
  ⟨fun _ => h.sized, fun _ => h.pubKey⟩

theorem Whole.key_ne_nil (h : Whole entry) : entry.encryptionKey ≠ [] :=
  List.ne_nil_of_length_pos (by rw [h.key]; decide)

/-- A public key is only read behind whole texts of key and vector. -/
theorem parse_whole (himport : p.importKey [] = none)
    (h : parse_resfi_ie p now data 32 32 d rssiProbeRequest rssiProbeResponse freq ssid =
      .ok entry) : entry = errorEntry now ∨ Whole entry := by
  rcases parse_resfi_ie_cases h with
    ⟨-, rfl⟩ | ⟨rsona, rstna, der, host, pubKey, hrsona, hrstna, hder, -, hpub, rfl⟩
  · exact Or.inl rfl
  · right
    have hkeylen := length_of_unhex hrsona
    have hivlen := length_of_unhex hrstna
    have hderlen := length_of_unhex hder
    have hderpos : 0 < der.length := by
      rw [List.length_pos_iff]
      rintro rfl
      rw [himport] at hpub
      cases hpub
    have hlong : 64 < data.length := by
      rw [pubKeyPart, length_slice] at hderlen
      have hstart : bound data.length (32 + 32) = min 64 data.length := by
        rw [bound, if_neg (by omega)]
        rfl
      have hend := bound_le data.length (-(data.length - 32 - 32 - d))
      rw [hstart] at hderlen
      omega
    rw [length_keyPart, if_pos (by omega)] at hkeylen
    rw [length_ivPart, if_pos hlong] at hivlen
    refine ⟨?_, ?_, rfl, rfl⟩
    · dsimp only
      omega
    · dsimp only
      omega

/-- Whatever is read of an element, for own keys of 16 bytes, is complete. -/
theorem parse_complete (himport : p.importKey [] = none)
    (h : parse_resfi_ie p now data 32 32 d rssiProbeRequest rssiProbeResponse freq ssid =
      .ok entry) : Complete me entry := by
  rcases parse_whole himport h with rfl | hwhole
  · exact ⟨fun hne => absurd rfl hne, fun hname => absurd rfl hname.2.2⟩
  · exact hwhole.complete

/-- The dictionary of the results of a scan. -/
def Read (list : NeighborList) : Prop :=
  ∀ name entry, list.lookup name = some entry → entry.ipAddress = name ∧ Whole entry

theorem Read.insert (h : Read list) (hwhole : Whole entry) :
    Read (list.insert entry.ipAddress entry) := by
  intro name e hlook
  by_cases hname : name = entry.ipAddress
  · subst hname
    rw [AList.lookup_insert] at hlook
    obtain rfl := Option.some.inj hlook
    exact ⟨rfl, hwhole⟩
  · rw [AList.lookup_insert_ne hname] at hlook
    exact h name e hlook

theorem readEntries_read (himport : p.importKey [] = none) (hSymKey : SymKeyStr.length = 32)
    (hSymIV : SymIVStr.length = 32) {entries : List ScanEntry} (h : Read list)
    (hread : readEntries p now pubKeyStr SymKeyStr SymIVStr list entries = .ok list') :
    Read list' := by
  induction entries generalizing list with
  | nil =>
    obtain rfl := Except.ok.inj hread
    exact h
  | cons e rest ih =>
    rw [readEntries] at hread
    cases hentry : readEntry p now pubKeyStr SymKeyStr SymIVStr e with
    | error err =>
      rw [hentry] at hread
      cases hread
    | ok found =>
      rw [hentry] at hread
      cases found with
      | none => exact ih h hread
      | some entry =>
        refine ih ?_ hread
        split
        · exact h
        · rename_i hnamed
          refine h.insert ?_
          unfold readEntry at hentry
          split at hentry
          · cases hentry
          · dsimp only at hentry
            split at hentry
            · rw [hSymKey, hSymIV] at hentry
              cases hparse : parse_resfi_ie p now _ _ _ _ _ _ _ _ with
              | error err =>
                rw [hparse] at hentry
                cases hentry
              | ok entry' =>
                rw [hparse] at hentry
                obtain rfl := Option.some.inj (Except.ok.inj hentry)
                rcases parse_whole himport hparse with rfl | hwhole
                · exact absurd rfl hnamed
                · exact hwhole
            · cases hentry

/-- The results of a scan in the order of its dictionary. -/
def values (list : NeighborList) : List Neighbor := list.entries.map Sigma.snd

theorem mem_values (h : entry ∈ values list) : ∃ name, list.lookup name = some entry := by
  obtain ⟨⟨name, e⟩, hmem, rfl⟩ := List.mem_map.mp h
  exact ⟨name, AList.mem_lookup_iff.mpr hmem⟩

theorem Read.nodup (h : Read list) : ((values list).map Neighbor.ipAddress).Nodup := by
  have hkeys : (values list).map Neighbor.ipAddress = list.keys := by
    rw [values, List.map_map]
    refine List.map_congr_left ?_
    rintro ⟨name, e⟩ hmem
    exact (h name e (AList.mem_lookup_iff.mpr hmem)).1
  rw [hkeys]
  exact list.keys_nodup

/-- One of the connectors, with what it finds in each scan of a search: the text that iw prints
for its command, or the datagrams that come to the interfaces. -/
inductive Connector where
  | hostapd (wireless : Text) (run : ℕ → Text → Text)
  | mininet (heard : ℕ → List (String × List MininetConnector.Datagram))

/-- A scan of `rescan_neighbor`, by an agent with these keys. -/
def Connector.scan (p : Platform) (now : ℤ) (me : Identity) (key iv : Bytes) (freq : ℤ)
    (ssid : String) (k : ℕ) : Connector → Except PyError NeighborList
  | .hostapd wireless run =>
      ScanResults.performActiveScan p now (run k) wireless false ssid.toList freq
        (hexEncode (p.exportKey me.rsaKey.publickey)) (hexEncode key) (hexEncode iv)
        me.hostname.toList 0
  | .mininet heard =>
      MininetConnector.performActiveScan p now me.hostname (heard k)
        (hexEncode (p.exportKey me.rsaKey.publickey)) (hexEncode key) (hexEncode iv)

theorem Connector.scan_read (himport : p.importKey [] = none) (hkey : key.length = 16)
    (hiv : iv.length = 16) (c : Connector) {name : String} {k : ℕ}
    (h : c.scan p now me key iv freq name k = .ok list) : Read list := by
  have hSymKey : (hexEncode key).length = 32 := by
    rw [hexEncode_length, hkey]
  have hSymIV : (hexEncode iv).length = 32 := by
    rw [hexEncode_length, hiv]
  have hempty : Read ∅ := by
    intro n e hlook
    rw [AList.lookup_empty] at hlook
    cases hlook
  cases c with
  | hostapd wireless run =>
    simp only [Connector.scan, ScanResults.performActiveScan, bind, Except.bind] at h
    split at h
    · cases h
    · split at h
      · cases h
      · exact readEntries_read himport hSymKey hSymIV hempty h
  | mininet heard => exact readEntries_read himport hSymKey hSymIV hempty h

/-- What is outside the agent's own code, with the scans of a connector. -/
def Connector.outside (p : Platform) (now : ℤ) (me : Identity) (key iv : Bytes) (c : Connector)
    (out : Outside) : Outside :=
  { out with performActiveScan := fun freq ssid k =>
      (c.scan p now me key iv freq ssid k).map values }

/-- They are complete as well. -/
theorem Connector.complete (himport : p.importKey [] = none) (hkey : key.length = 16)
    (hiv : iv.length = 16) (c : Connector) (out : Outside) :
    CompleteScans me (c.outside p now me key iv out) := by
  intro freq ssid k results hscan r hr
  cases hlist : c.scan p now me key iv freq ssid k with
  | error e =>
    simp only [Connector.outside, hlist] at hscan
    cases hscan
  | ok list =>
    simp only [Connector.outside, hlist] at hscan
    obtain rfl := Except.ok.inj hscan
    obtain ⟨name, hlook⟩ := mem_values hr
    exact (c.scan_read himport hkey hiv hlist name r hlook).2.complete

/-- An emulated network in which nobody answers. -/
def silentAir : Connector := .mininet (fun _ => [])

/-- The scans of the agent of the samples there. -/
def silentOutside : Outside :=
  silentAir.outside listPlatform 0 PublishedFrames.sampleIdentity PublishedFrames.sampleKey
    PublishedFrames.sampleKey PublishedFrames.quietOutside

end Nxwlan.ParsedScans
