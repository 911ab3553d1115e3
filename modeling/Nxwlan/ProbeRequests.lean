import Nxwlan.Messaging

/-!
Probe requests on their way from hostapd to the agent: the text that hostapd
publishes for one, the loop body of `subscribeToProbeRequests`, and
`handle_incoming_probe_requests` with the element parser below it. All of it
runs in one thread; what it raises ends that thread.
-/
namespace Nxwlan.ProbeRequests

open JsonFrames AgentState PyText
open Base64 (Bytes)

/-- How the handling of one probe request ends. -/
inductive Ended where
  | returned
  | raised (e : PyError)
  | blocked
  deriving DecidableEq

/-- What the handler meets outside its own code: the state in which its four waits
return, if they do, the clock, whether an application's `probeReqRec_cb`
returns, and the rest. -/
structure World where
  wait : Agent → Option Agent
  now : ℤ
  probeReqRec_cb : String → Text → Text → Bool
  outside : Outside

/-- The text that hostapd publishes for a probe request of `sa`. -/
def probeText (sa ie : Bytes) (ssi_signal : ℤ) : Text :=
  hexDump sa ++ hexDump ie ++ "RSSI:".toList ++ showInt ssi_signal

def marker : Text := "B16B00B5".toList

/-- `s.decode("hex")` where it raises TypeError. -/
def decodeHex (s : Text) : Except PyError Bytes :=
  match unhex s with
  | some b => .ok b
  | none => .error .typeError

theorem decodeHex_ok_iff {s : Text} {b : Bytes} : decodeHex s = .ok b ↔ unhex s = some b := by
  unfold decodeHex
  cases unhex s <;> simp

/-- The four parts of an element, cut at the lengths of key, vector and public key.
The upper bounds are negative numbers only as long as the data is longer. -/
def keyPart (data : Text) (SymKeyStrLen : ℤ) : Text :=
  slice data 0 (-(data.length - SymKeyStrLen))

def ivPart (data : Text) (SymKeyStrLen SymIVStrLen : ℤ) : Text :=
  slice data SymKeyStrLen (-(data.length - SymKeyStrLen - SymIVStrLen))

def pubKeyPart (data : Text) (SymKeyStrLen SymIVStrLen pubKeyStrLen : ℤ) : Text :=
  slice data (SymKeyStrLen + SymIVStrLen)
    (-(data.length - SymKeyStrLen - SymIVStrLen - pubKeyStrLen))

def ipPart (data : Text) (SymKeyStrLen SymIVStrLen pubKeyStrLen : ℤ) : Text :=
  slice data (SymKeyStrLen + SymIVStrLen + pubKeyStrLen) data.length

/-- `ssid` is none where the caller passes 0. -/
def parse_resfi_ie (p : Platform) (now : ℤ) (data : Text)
    (SymKeyStrLen SymIVStrLen pubKeyStrLen rssiProbeRequest rssiProbeResponse freq : ℤ)
    (ssid : Option String) : Except PyError Neighbor :=
  let encryptionKeyNeighbor := keyPart data SymKeyStrLen
  let encryptionIVNeighbor := ivPart data SymKeyStrLen SymIVStrLen
  if encryptionKeyNeighbor.length % 2 ≠ 0 ∨ encryptionIVNeighbor.length % 2 ≠ 0 then
    .ok { ipAddress := "Error", timestampLastKCM := now }
  else do
    let rsona ← decodeHex encryptionKeyNeighbor
    let rstna ← decodeHex encryptionIVNeighbor
    let pkey ← decodeHex (pubKeyPart data SymKeyStrLen SymIVStrLen pubKeyStrLen)
    let ipna ← decodeHex (ipPart data SymKeyStrLen SymIVStrLen pubKeyStrLen)
    match p.importKey pkey with
    | none => .error .valueError
    | some pubKey =>
        .ok
          { ipAddress := String.ofList (Messaging.asciiText ipna)
            encryptionKey := rsona
            encryptionIV := rstna
            pubKey := some pubKey
            rssiProbeRequest := rssiProbeRequest
            rssiProbeResponse := rssiProbeResponse
            freq := freq
            ssid := ssid.getD ""
            timestampLastKCM := now }

section Parsed

variable {p : Platform} {now k i d rssiProbeRequest rssiProbeResponse freq : ℤ}
  {ssid : Option String} {data : Text}

/-- An element whose parts can be decoded is read as they say. -/
theorem parse_resfi_ie_ok {rsona rstna pkey ipna : Bytes} {pubKey : RsaPublicKey}
    (hkey : unhex (keyPart data k) = some rsona) (hiv : unhex (ivPart data k i) = some rstna)
    (hder : unhex (pubKeyPart data k i d) = some pkey)
    (hhost : unhex (ipPart data k i d) = some ipna) (hpub : p.importKey pkey = some pubKey) :
    parse_resfi_ie p now data k i d rssiProbeRequest rssiProbeResponse freq ssid =
      .ok
        { ipAddress := String.ofList (Messaging.asciiText ipna)
          encryptionKey := rsona
          encryptionIV := rstna
          pubKey := some pubKey
          rssiProbeRequest := rssiProbeRequest
          rssiProbeResponse := rssiProbeResponse
          freq := freq
          ssid := ssid.getD ""
          timestampLastKCM := now } := by
  have heven : ¬ ((keyPart data k).length % 2 ≠ 0 ∨ (ivPart data k i).length % 2 ≠ 0) := by
    rw [length_of_unhex hkey, length_of_unhex hiv]
    omega
  rw [parse_resfi_ie]
  simp only [if_neg heven, decodeHex, hkey, hiv, hder, hhost, hpub, bind, Except.bind]

/-- An entry is read of an odd number of digits, or of parts that can be decoded. -/
theorem parse_resfi_ie_cases {entry : Neighbor}
    (h : parse_resfi_ie p now data k i d rssiProbeRequest rssiProbeResponse freq ssid = .ok entry) :
    (((keyPart data k).length % 2 ≠ 0 ∨ (ivPart data k i).length % 2 ≠ 0) ∧
      entry = { ipAddress := "Error", timestampLastKCM := now }) ∨
    ∃ rsona rstna pkey ipna pubKey, unhex (keyPart data k) = some rsona ∧
      unhex (ivPart data k i) = some rstna ∧ unhex (pubKeyPart data k i d) = some pkey ∧
      unhex (ipPart data k i d) = some ipna ∧ p.importKey pkey = some pubKey ∧
      entry =
        { ipAddress := String.ofList (Messaging.asciiText ipna)
          encryptionKey := rsona
          encryptionIV := rstna
          pubKey := some pubKey
          rssiProbeRequest := rssiProbeRequest
          rssiProbeResponse := rssiProbeResponse
          freq := freq
          ssid := ssid.getD ""
          timestampLastKCM := now } := by
  unfold parse_resfi_ie at h
  dsimp only at h
  split at h
  · rename_i hodd
    exact Or.inl ⟨hodd, (Except.ok.inj h).symm⟩
  · simp only [bind, Except.bind] at h
    split at h
    · cases h
    · rename_i rsona hrsona
      split at h
      · cases h
      · rename_i rstna hrstna
        split at h
        · cases h
        · rename_i pkey hpkey
          split at h
          · cases h
          · rename_i ipna hipna
            split at h
            · cases h
            · rename_i pubKey hpub
              exact Or.inr ⟨rsona, rstna, pkey, ipna, pubKey, decodeHex_ok_iff.mp hrsona,
                decodeHex_ok_iff.mp hrstna, decodeHex_ok_iff.mp hpkey, decodeHex_ok_iff.mp hipna,
                hpub, (Except.ok.inj h).symm⟩

end Parsed

/-- Element and frequency: what stands behind the first and the second marker. -/
def splitElement (payload : Text) : Except PyError (Text × ℤ) :=
  match split marker 2 payload with
  | _ :: resfiIe :: resfiFreq :: _ =>
      match readInt resfiFreq with
      | none => .error .valueError
      | some freq => .ok (replace "DD06".toList [] resfiIe, freq)
  | _ => .error .indexError

/-- The callbacks of the applications, up to one that raises. -/
def notifyProbe (world : World) (payload rssi : Text) : List String → Ended
  | [] => .returned
  | ns :: rest =>
      if world.probeReqRec_cb ns payload rssi then notifyProbe world payload rssi rest
      else .raised .callbackError

def setProbeRequest (a : Agent) (b : Bool) : Agent :=
  { a with gates := { a.gates with processingProbeRequestEvent := b } }

/-- From the clearing of the event to its setting. -/
def joinElement (p : Platform) (world : World) (me : Identity) (a : Agent) (resfiIe : Text)
    (freq : ℤ) (rssi : Text) : Agent × Ended :=
  let a := setProbeRequest a false
  match readInt rssi with
  | none => (a, .raised .valueError)
  | some rssi =>
      match parse_resfi_ie p world.now resfiIe (2 * a.key.length) (2 * a.iv.length)
          (2 * (p.exportKey me.rsaKey.publickey).length) rssi 0 freq none with
      | .error e => (a, .raised e)
      | .ok newNeighbor =>
          (setProbeRequest (onAPJoined world.outside me a [newNeighbor]) true, .returned)

def handle_incoming_probe_requests (p : Platform) (world : World) (me : Identity) (a : Agent)
    (payload rssi : Text) : Agent × Ended :=
  if contains marker payload then
    match splitElement payload with
    | .error e => (a, .raised e)
    | .ok (resfiIe, freq) =>
        match world.wait a with
        | none => (a, .blocked)
        | some a => joinElement p world me a resfiIe freq rssi
  else (a, notifyProbe world payload rssi a.globalAppList)

/-- One round of `subscribeToProbeRequests`. A text without a level is handled with
the level of the round before. -/
def subscribeToProbeRequests (p : Platform) (world : World) (me : Identity) (a : Agent)
    (rssi : Option Text) (prPayload : Text) : Agent × Ended :=
  match split "RSSI:".toList 1 prPayload, rssi with
  | [payload, rssi], _ => handle_incoming_probe_requests p world me a payload rssi
  | _, some rssi => handle_incoming_probe_requests p world me a prPayload rssi
  | _, none => (a, .raised .nameError)

theorem split_probeText (sa ie : Bytes) (ssi_signal : ℤ) :
    split "RSSI:".toList 1 (probeText sa ie ssi_signal) =
      [hexDump (sa ++ ie), showInt ssi_signal] := by
  have hdump : hexDump sa ++ hexDump ie = hexDump (sa ++ ie) := by
    simp [hexDump]
  have hfree : 'R' ∉ hexDump (sa ++ ie) := fun hmem =>
    absurd (hexDump_isUpperHex _ 'R' hmem) (by decide)
  have hcut : cut "RSSI:".toList (probeText sa ie ssi_signal) =
      some (hexDump (sa ++ ie), showInt ssi_signal) := by
    rw [probeText, hdump]
    exact cut_append _ hfree
  simp only [split, hcut]

/-- The connector takes hostapd's text apart again. -/
theorem subscribe_probeText (p : Platform) (world : World) (me : Identity) (a : Agent)
    (rssi : Option Text) (sa ie : Bytes) (ssi_signal : ℤ) :
    subscribeToProbeRequests p world me a rssi (probeText sa ie ssi_signal) =
      handle_incoming_probe_requests p world me a (hexDump (sa ++ ie)) (showInt ssi_signal) := by
  simp only [subscribeToProbeRequests, split_probeText]

theorem notifyProbe_returned_iff (world : World) (payload rssi : Text) (apps : List String) :
    notifyProbe world payload rssi apps = .returned ↔
      ∀ ns ∈ apps, world.probeReqRec_cb ns payload rssi = true := by
  induction apps with
  | nil => simp [notifyProbe]
  | cons ns rest ih =>
    rw [notifyProbe]
    split
    · rename_i hcb
      simp [ih, hcb]
    · rename_i hcb
      simp [hcb]

/-- The parts of a split have no letters of their own. -/
theorem split_isUpperHex {payload pre resfiIe resfiFreq : Text}
    (h : ∀ c ∈ payload, isUpperHex c = true)
    (hsplit : split marker 2 payload = [pre, resfiIe, resfiFreq]) :
    (∀ c ∈ resfiIe, isUpperHex c = true) ∧ ∀ c ∈ resfiFreq, isUpperHex c = true := by
  unfold split at hsplit
  split at hsplit
  · simp at hsplit
  · rename_i u rest hcut
    unfold split at hsplit
    split at hsplit
    · simp at hsplit
    · rename_i v w hcut'
      simp only [split, List.cons.injEq, and_true] at hsplit
      obtain ⟨-, rfl, rfl⟩ := hsplit
      have hrest : ∀ c ∈ rest, isUpperHex c = true := fun c hc => h c (mem_of_cut hcut (Or.inr hc))
      exact ⟨fun c hc => hrest c (mem_of_cut hcut' (Or.inl hc)),
        fun c hc => hrest c (mem_of_cut hcut' (Or.inr hc))⟩

theorem split_marker_length (payload : Text) : (split marker 2 payload).length ≤ 3 := by
  unfold split
  split
  · simp
  · unfold split
    split
    · simp
    · simp [split]

theorem splitElement_ok_iff {payload data : Text} {freq : ℤ} :
    splitElement payload = .ok (data, freq) ↔
      ∃ pre resfiIe resfiFreq, split marker 2 payload = [pre, resfiIe, resfiFreq] ∧
        readInt resfiFreq = some freq ∧ data = replace "DD06".toList [] resfiIe := by
  have hlen := split_marker_length payload
  unfold splitElement
  split
  · rename_i pre resfiIe resfiFreq rest hsplit
    obtain rfl : rest = [] := by
      rw [hsplit] at hlen
      simp only [List.length_cons] at hlen
      exact List.length_eq_zero_iff.mp (by omega)
    rw [hsplit]
    cases hread : readInt resfiFreq with
    | none => simp [hread]
    | some f =>
      simp only [Except.ok.injEq, Prod.mk.injEq, List.cons.injEq, and_true]
      constructor
      · rintro ⟨rfl, rfl⟩
        exact ⟨pre, resfiIe, resfiFreq, ⟨rfl, rfl, rfl⟩, hread, rfl⟩
      · rintro ⟨_, _, _, ⟨rfl, rfl, rfl⟩, hf, rfl⟩
        rw [hread, Option.some.injEq] at hf
        exact ⟨rfl, hf⟩
  · rename_i hshort
    simp only [reduceCtorEq, false_iff, not_exists, not_and]
    intro pre resfiIe resfiFreq hsplit
    exact absurd hsplit (hshort pre resfiIe resfiFreq [])

/-- An element that the parser gets through: its key or vector has an odd number of
digits, or its address has an even number of them and its public key part
decodes to a key that can be imported. -/
def Usable (p : Platform) (me : Identity) (a : Agent) (data : Text) : Prop :=
  (keyPart data (2 * a.key.length)).length % 2 = 1 ∨
    (ivPart data (2 * a.key.length) (2 * a.iv.length)).length % 2 = 1 ∨
    (ipPart data (2 * a.key.length) (2 * a.iv.length)
        (2 * (p.exportKey me.rsaKey.publickey).length)).length % 2 = 0 ∧
      ∃ der, unhex (pubKeyPart data (2 * a.key.length) (2 * a.iv.length)
          (2 * (p.exportKey me.rsaKey.publickey).length)) = some der ∧
        (p.importKey der).isSome = true

theorem parse_ok_iff (p : Platform) (me : Identity) (a : Agent) (now rssi freq : ℤ) {data : Text}
    (h : ∀ c ∈ data, isUpperHex c = true) :
    (∃ entry, parse_resfi_ie p now data (2 * a.key.length) (2 * a.iv.length)
      (2 * (p.exportKey me.rsaKey.publickey).length) rssi 0 freq none = .ok entry) ↔
      Usable p me a data := by
  have hhex : ∀ {i j : ℤ}, (unhex (slice data i j)).isSome = true ↔
      (slice data i j).length % 2 = 0 := fun {i j} =>
    unhex_isSome_iff (fun c hc => hexValue_of_isUpperHex (h c (mem_of_slice hc)))
  constructor
  · rintro ⟨entry, hparse⟩
    rcases parse_resfi_ie_cases hparse with
      ⟨hodd, -⟩ | ⟨rsona, rstna, der, ipna, pubKey, -, -, hder, hip, hpub, -⟩
    · rcases hodd with hodd | hodd
      · exact Or.inl (Nat.mod_two_ne_zero.mp hodd)
      · exact Or.inr (Or.inl (Nat.mod_two_ne_zero.mp hodd))
    · refine Or.inr (Or.inr ⟨?_, der, hder, by rw [hpub]; rfl⟩)
      rw [length_of_unhex hip]
      omega
  · intro husable
    by_cases hodd : (keyPart data (2 * a.key.length)).length % 2 ≠ 0 ∨
        (ivPart data (2 * a.key.length) (2 * a.iv.length)).length % 2 ≠ 0
    · rw [parse_resfi_ie]
      exact ⟨_, if_pos hodd⟩
    · simp only [not_or, ne_eq, Decidable.not_not] at hodd
      obtain ⟨hkeyEven, hivEven⟩ := hodd
      simp only [Usable, hkeyEven, hivEven, Nat.zero_ne_one, false_or] at husable
      obtain ⟨hipEven, der, hder, hpub⟩ := husable
      obtain ⟨rsona, hkey⟩ := Option.isSome_iff_exists.mp (hhex.mpr hkeyEven)
      obtain ⟨rstna, hiv⟩ := Option.isSome_iff_exists.mp (hhex.mpr hivEven)
      obtain ⟨ipna, hip⟩ := Option.isSome_iff_exists.mp (hhex.mpr hipEven)
      obtain ⟨pubKey, hpub⟩ := Option.isSome_iff_exists.mp hpub
      exact ⟨_, parse_resfi_ie_ok hkey hiv hder hip hpub⟩

theorem joinElement_returns_iff (p : Platform) (world : World) (me : Identity) (a : Agent)
    {resfiIe : Text} (freq ssi_signal : ℤ) (h : ∀ c ∈ resfiIe, isUpperHex c = true) :
    ((joinElement p world me a resfiIe freq (showInt ssi_signal)).2 = .returned ∧
      (joinElement p world me a resfiIe freq
        (showInt ssi_signal)).1.gates.processingProbeRequestEvent = true) ↔
      Usable p me a resfiIe := by
  rw [← parse_ok_iff p me a world.now ssi_signal freq h]
  simp only [joinElement, readInt_showInt, setProbeRequest]
  cases parse_resfi_ie p world.now resfiIe (2 * a.key.length) (2 * a.iv.length)
    (2 * (p.exportKey me.rsaKey.publickey).length) ssi_signal 0 freq none with
  | error e => simp
  | ok entry => simp

/-- A probe request that does no harm. Without a marker: the event is set, and no
application's callback raises. With one: the marker occurs twice, a decimal
number follows its second occurrence, the waits return, and the element
between the two is usable. -/
def Harmless (p : Platform) (world : World) (me : Identity) (a : Agent) (payload rssi : Text) :
    Prop :=
  if contains marker payload then
    ∃ pre resfiIe resfiFreq a₁, split marker 2 payload = [pre, resfiIe, resfiFreq] ∧
      resfiFreq ≠ [] ∧ (∀ c ∈ resfiFreq, c.isDigit = true) ∧ world.wait a = some a₁ ∧
      Usable p me a₁ (replace "DD06".toList [] resfiIe)
  else a.gates.processingProbeRequestEvent = true ∧
    ∀ ns ∈ a.globalAppList, world.probeReqRec_cb ns payload rssi = true

/-- The probe request gate. The handling of a probe request comes back to the
connector's loop with the event set exactly when the request is harmless:
everything else that hostapd can pass on ends the thread. -/
theorem probe_gate_iff_harmless (p : Platform) (world : World) (me : Identity) (a : Agent)
    (rssi : Option Text) (sa ie : Bytes) (ssi_signal : ℤ) :
    ((subscribeToProbeRequests p world me a rssi (probeText sa ie ssi_signal)).2 = .returned ∧
      (subscribeToProbeRequests p world me a rssi
        (probeText sa ie ssi_signal)).1.gates.processingProbeRequestEvent = true) ↔
      Harmless p world me a (hexDump (sa ++ ie)) (showInt ssi_signal) := by
  rw [subscribe_probeText]
  have hupper := hexDump_isUpperHex (sa ++ ie)
  generalize hexDump (sa ++ ie) = payload at hupper
  unfold handle_incoming_probe_requests Harmless
  split
  · constructor
    · cases helem : splitElement payload with
      | error e => simp
      | ok found =>
        obtain ⟨data, freq⟩ := found
        obtain ⟨pre, resfiIe, resfiFreq, hsplit, hread, rfl⟩ := splitElement_ok_iff.mp helem
        obtain ⟨hie, hfreq⟩ := split_isUpperHex hupper hsplit
        have hdigits := (readInt_isSome_iff hfreq).mp (by simp [hread])
        cases hwait : world.wait a with
        | none => simp
        | some a₁ =>
          intro hjoin
          have huse := (joinElement_returns_iff p world me a₁ freq ssi_signal
            (fun c hc => hie c (mem_of_replace_nil hc))).mp hjoin
          exact ⟨pre, resfiIe, resfiFreq, a₁, hsplit, hdigits.1, hdigits.2, rfl, huse⟩
    · rintro ⟨pre, resfiIe, resfiFreq, a₁, hsplit, hne, hdigits, hwait, huse⟩
      obtain ⟨hie, hfreq⟩ := split_isUpperHex hupper hsplit
      obtain ⟨freq, hread⟩ :=
        Option.isSome_iff_exists.mp ((readInt_isSome_iff hfreq).mpr ⟨hne, hdigits⟩)
      rw [splitElement_ok_iff.mpr ⟨pre, resfiIe, resfiFreq, hsplit, hread, rfl⟩]
      simp only [hwait]
      exact (joinElement_returns_iff p world me a₁ freq ssi_signal
        (fun c hc => hie c (mem_of_replace_nil hc))).mpr huse
  · rw [notifyProbe_returned_iff]
    exact and_comm

/-- Waits return at once and callbacks return. -/
def quietWorld : World where
  wait := some
  now := 0
  probeReqRec_cb _ _ _ := true
  outside := ⟨fun _ => true, fun _ _ => true, fun _ _ => true, fun _ _ _ => .ok []⟩

/-- The vendor element of this probe request holds two markers with nothing between
them and the frequency 2437. The empty public key cannot be imported: the
thread ends and leaves the event cleared, so that all who wait for it
wait forever. -/
theorem empty_element_ends_thread :
    (subscribeToProbeRequests listPlatform quietWorld ⟨"10.0.0.1", ⟨33, 3, 7⟩⟩
        { key := List.replicate 16 7, iv := List.replicate 16 9 } none
        (probeText [2, 0, 0, 0, 0, 1]
          [221, 10, 177, 107, 0, 181, 177, 107, 0, 181, 36, 55] (-42))).2 = .raised .valueError ∧
      (subscribeToProbeRequests listPlatform quietWorld ⟨"10.0.0.1", ⟨33, 3, 7⟩⟩
        { key := List.replicate 16 7, iv := List.replicate 16 9 } none
        (probeText [2, 0, 0, 0, 0, 1]
          [221, 10, 177, 107, 0, 181, 177, 107, 0, 181, 36, 55]
          (-42))).1.gates.processingProbeRequestEvent = false := by
  decide

end Nxwlan.ProbeRequests
