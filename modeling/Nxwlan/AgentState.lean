import Nxwlan.Base64
import Nxwlan.JsonFrames
import Mathlib.Data.List.AList

/-!
The state of a ResFi agent that its threads share: group key and vector, the
neighbor table, the connected endpoints, the registered applications and the
seven events. Host name and RSA key are never assigned after start-up and are
kept apart. What PyCrypto and the language leave to their own code is a
parameter, `Platform`; what the rest of the world does is `Outside`.
-/
namespace Nxwlan.AgentState

open JsonFrames
open Base64 (Bytes)

structure RsaPublicKey where
  n : ℕ
  e : ℕ
  deriving DecidableEq, Repr

structure RsaKey where
  n : ℕ
  e : ℕ
  d : ℕ
  deriving DecidableEq, Repr

def RsaKey.publickey (k : RsaKey) : RsaPublicKey := ⟨k.n, k.e⟩

/-- The primitives of PyCrypto and hashlib, and the order of unlike values. -/
structure Platform where
  /-- `hashlib.sha1(repr(data)).digest()` -/
  sha1 : Bytes → Bytes
  /-- `key.sign(hash, '')`, a tuple that travels as a JSON list -/
  sign : RsaKey → Bytes → Json
  /-- `key.verify(hash, signature)` -/
  verify : RsaPublicKey → Bytes → Json → Bool
  /-- AES in CFB mode, from key, vector and data -/
  encrypt : Bytes → Bytes → Bytes → Bytes
  decrypt : Bytes → Bytes → Bytes → Bytes
  /-- `PKCS1_OAEP.new(key).encrypt(message)`; `none` for a message too long -/
  oaepEncrypt : RsaPublicKey → Bytes → Option Bytes
  oaepDecrypt : RsaKey → Bytes → Option Bytes
  /-- `RSA.importKey(der)`; `none` where it raises -/
  importKey : Bytes → Option RsaPublicKey
  /-- `key.exportKey('DER')` -/
  exportKey : RsaPublicKey → Bytes
  mixedGe : Json → Json → Bool

/-- What the protocol relies on: a signature verifies under the signer's public
key, and decryption undoes encryption under the same key and vector. -/
structure Platform.Lawful (p : Platform) : Prop where
  verify_sign : ∀ k h, p.verify k.publickey h (p.sign k h) = true
  decrypt_encrypt : ∀ k iv m, p.decrypt k iv (p.encrypt k iv m) = m

/-- The elements of a byte string as JSON numbers. -/
def asNumbers (b : Bytes) : List Json := b.map (fun x => .int x.toNat)

/-- A signature that lists the modulus of its key and the signed bytes. -/
def listVerify (k : RsaPublicKey) (h : Bytes) : Json → Bool
  | .arr (.int m :: rest) => m == (k.n : ℤ) && rest.map Json.num? == (asNumbers h).map Json.num?
  | _ => false

/-- A small platform that satisfies the laws: signatures list what they sign,
and encryption shifts every byte by the first bytes of key and vector. -/
def listPlatform : Platform where
  sha1 := id
  sign k h := .arr (.int k.n :: asNumbers h)
  verify := listVerify
  encrypt k iv m := m.map (· + (k.headD 0 + iv.headD 0))
  decrypt k iv m := m.map (· - (k.headD 0 + iv.headD 0))
  oaepEncrypt _ m := if m.length ≤ 86 then some m else none
  oaepDecrypt _ m := some m
  importKey b := if b = [] then none else some ⟨b.length, 65537⟩
  exportKey k := List.replicate k.n 48
  mixedGe _ _ := false

theorem listPlatform_lawful : listPlatform.Lawful where
  verify_sign := by
    intro k h
    simp [listPlatform, listVerify, RsaKey.publickey]
  decrypt_encrypt := by
    intro k iv m
    simp [listPlatform, Function.comp_def]

/-- A neighbor entry; an unset `pubKey` is the empty string of the source, an
unset old key or vector its 0. -/
structure Neighbor where
  ipAddress : String := ""
  encryptionKey : Bytes := []
  encryptionIV : Bytes := []
  pubKey : Option RsaPublicKey := none
  freq : ℤ := 0
  ssid : String := ""
  rssiProbeRequest : ℤ := 0
  rssiProbeResponse : ℤ := 0
  timestampLastKCM : ℤ
  oldEncryptionKey : Option Bytes := none
  oldEncryptionIV : Option Bytes := none
  lostMessages : ℕ := 0
  rxStatsLost : ℕ := 0
  rxStatsSuccess : ℕ := 0
  unicastSendKey : Bytes := []
  unicastSendIv : Bytes := []
  unicastRecKey : Bytes := []
  unicastRecIv : Bytes := []
  waitingForUnicastKeys : Bool := false
  deriving DecidableEq, Repr

abbrev NeighborList := AList (fun _ : String => Neighbor)

/-- The threading events; true is set. -/
structure Gates where
  processingProbeRequestEvent : Bool := true
  processingChangeKeysEvent : Bool := true
  sendingUserSpaceMessageEvent : Bool := true
  sendingUserCtrlMessageEvent : Bool := true
  processingNeighborUpdateEvent : Bool := true
  processingNeighborMessageEvent : Bool := true
  processingChannelSwitchEvent : Bool := true
  deriving DecidableEq, Repr

inductive Port where
  | fwd | snd
  deriving DecidableEq, Repr

/-- A link notification given to an application. -/
inductive Notice where
  | newLink (ns node : String)
  | linkFailure (ns node : String)
  deriving DecidableEq, Repr

structure Identity where
  hostname : String
  rsaKey : RsaKey

structure Agent where
  key : Bytes
  iv : Bytes
  globalNeighborList : NeighborList := ∅
  globalAppList : List String := []
  frontend : List (String × Port) := []
  gates : Gates := {}
  local_id : ℤ := 1
  notices : List Notice := []

/-- The answers of the world around the agent: whether an endpoint can be
connected, whether a callback of an application returns, and what the scans
started by one rescan show. A scan raises on an element it cannot parse. -/
structure Outside where
  connects : String → Bool
  newLink_cb : String → String → Bool
  linkFailure_cb : String → String → Bool
  performActiveScan : ℤ → String → ℕ → Except PyError (List Neighbor)

/-- Whether `entry` carries a field that `parse_existing_neighbor` copies. -/
def Neighbor.carriesUpdate (entry : Neighbor) : Bool :=
  entry.encryptionKey ≠ [] || entry.encryptionIV ≠ [] || entry.pubKey.isSome ||
    entry.ssid ≠ "" || entry.freq ≠ 0 || entry.rssiProbeRequest ≠ 0 ||
    entry.rssiProbeResponse ≠ 0

/-- The fields of `entry` that are set replace those of `old`. The time stamp is
copied together with the probe response level, as in the source. -/
def Neighbor.update (old entry : Neighbor) : Neighbor :=
  { old with
    encryptionKey := if entry.encryptionKey ≠ [] then entry.encryptionKey else old.encryptionKey
    encryptionIV := if entry.encryptionIV ≠ [] then entry.encryptionIV else old.encryptionIV
    pubKey := if entry.pubKey.isSome then entry.pubKey else old.pubKey
    ssid := if entry.ssid ≠ "" then entry.ssid else old.ssid
    freq := if entry.freq ≠ 0 then entry.freq else old.freq
    rssiProbeRequest := if entry.rssiProbeRequest ≠ 0 then entry.rssiProbeRequest
      else old.rssiProbeRequest
    rssiProbeResponse := if entry.rssiProbeResponse ≠ 0 then entry.rssiProbeResponse
      else old.rssiProbeResponse
    timestampLastKCM := if entry.rssiProbeResponse ≠ 0 then entry.timestampLastKCM
      else old.timestampLastKCM }

def parse_existing_neighbor (entry : Neighbor) (list : NeighborList) :
    Except PyError NeighborList :=
  match list.lookup entry.ipAddress with
  | some old => .ok (list.insert entry.ipAddress (old.update entry))
  | none => if entry.carriesUpdate then .error .keyError else .ok list

/-- The notification loop of `onAPJoined`; a raising callback ends it. -/
def notifyNewLink (out : Outside) (node : String) : List String → Agent → Agent
  | [], a => a
  | ns :: rest, a =>
      let a := { a with
        gates := { a.gates with processingProbeRequestEvent := true }
        notices := a.notices ++ [.newLink ns node] }
      if out.newLink_cb ns node then notifyNewLink out node rest a else a

/-- One entry of `onAPJoined`. Whatever raises in it is caught and logged. -/
def joinOne (out : Outside) (me : Identity) (a : Agent) (entry : Neighbor) : Agent :=
  let adjacentNode := entry.ipAddress
  if (a.globalNeighborList.lookup adjacentNode).isSome then
    match parse_existing_neighbor entry a.globalNeighborList with
    | .ok list => { a with globalNeighborList := list }
    | .error _ => a
  else if out.connects adjacentNode then
    let tmp_port := if adjacentNode = me.hostname then Port.snd else Port.fwd
    notifyNewLink out adjacentNode a.globalAppList
      { a with
        frontend := a.frontend ++ [(adjacentNode, tmp_port)]
        globalNeighborList := a.globalNeighborList.insert adjacentNode entry }
  else a

def onAPJoined (out : Outside) (me : Identity) (a : Agent) (scanResults : List Neighbor) : Agent :=
  scanResults.foldl (joinOne out me) a

def notifyLinkFailure (out : Outside) (node : String) :
    List String → Agent → Agent × Except PyError Unit
  | [], a => (a, .ok ())
  | ns :: rest, a =>
      let a := { a with
        gates := { a.gates with processingNeighborUpdateEvent := true }
        notices := a.notices ++ [.linkFailure ns node] }
      if out.linkFailure_cb ns node then notifyLinkFailure out node rest a
      else (a, .error .callbackError)

/-- Disconnecting an endpoint that is not connected raises, and so does deleting
a missing entry. -/
def onAPLeft (out : Outside) (a : Agent) (adjacentNode : String) :
    Agent × Except PyError Unit :=
  if (adjacentNode, Port.fwd) ∈ a.frontend then
    let a := { a with frontend := a.frontend.erase (adjacentNode, Port.fwd) }
    if (a.globalNeighborList.lookup adjacentNode).isSome then
      notifyLinkFailure out adjacentNode a.globalAppList
        { a with globalNeighborList := a.globalNeighborList.erase adjacentNode }
    else (a, .error .keyError)
  else (a, .error .zmqError)

/-- The inner loop of `rescan_neighbor` over one scan's results. -/
def rescanResults (out : Outside) (me : Identity) (host : String) :
    List Neighbor → Bool → Agent → Agent × Except PyError Bool
  | [], found, a => (a, .ok found)
  | r :: rest, found, a =>
      if r.ipAddress = host then
        match a.globalNeighborList.lookup host with
        | none => (a, .error .keyError)
        | some old =>
            if r.encryptionKey ≠ old.encryptionKey then
              let kept := { old with
                oldEncryptionKey := some old.encryptionKey
                oldEncryptionIV := some old.encryptionIV }
              let a := { a with globalNeighborList := a.globalNeighborList.insert host kept }
              rescanResults out me host rest true (onAPJoined out me a [r])
            else rescanResults out me host rest found a
      else rescanResults out me host rest found a

/-- The retry loop: `left` rounds remain and `cc` is the number of the next one.
The value returned is the loop variable as the loop leaves it. -/
def rescanLoop (out : Outside) (me : Identity) (freq : ℤ) (ssid host : String) :
    ℕ → ℕ → Agent → Agent × Except PyError ℕ
  | 0, cc, a => (a, .ok (cc - 1))
  | left + 1, cc, a =>
      match out.performActiveScan freq ssid cc with
      | .error e => (a, .error e)
      | .ok scanResults =>
          match rescanResults out me host scanResults false a with
          | (a, .error e) => (a, .error e)
          | (a, .ok true) => (a, .ok cc)
          | (a, .ok false) => rescanLoop out me freq ssid host left (cc + 1) a

/-- Without a round there is no loop variable to look at. -/
def rescan_neighbor (out : Outside) (me : Identity) (a : Agent) (freq : ℤ) (ssid host : String)
    (retries : ℕ) : Agent × Except PyError Bool :=
  if retries = 0 then (a, .error .nameError)
  else
    match rescanLoop out me freq ssid host retries 0 a with
    | (a, .error e) => (a, .error e)
    | (a, .ok cc) =>
        if cc = retries - 1 then
          match onAPLeft out a host with
          | (a, .error e) => (a, .error e)
          | (a, .ok ()) => (a, .ok false)
        else (a, .ok true)

/-- With a round to make, the outcome is that of the loop. -/
theorem rescan_neighbor_eq {retries : ℕ} (h : retries ≠ 0) (out : Outside) (me : Identity)
    (a : Agent) (freq : ℤ) (ssid host : String) :
    rescan_neighbor out me a freq ssid host retries =
      match rescanLoop out me freq ssid host retries 0 a with
      | (a, .error e) => (a, .error e)
      | (a, .ok cc) =>
          if cc = retries - 1 then
            match onAPLeft out a host with
            | (a, .error e) => (a, .error e)
            | (a, .ok ()) => (a, .ok false)
          else (a, .ok true) := if_neg h

end Nxwlan.AgentState
