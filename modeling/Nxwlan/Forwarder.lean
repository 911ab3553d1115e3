import Nxwlan.AgentState

/-!
One pass of the loop in `initForwardingTTL`, from a received frame to its
publication or to the place where the pass ends. The pass is cut where the
source waits for other threads: `Waits` says what these have made of the
agent's state when a wait returns, `none` standing for a wait that never does.
An exception leaves the loop and closes both sockets.
-/
namespace Nxwlan.Forwarder

open JsonFrames AgentState
open Base64 (Bytes encodestring decodestring)

abbrev FwdCache := AList (fun _ : DictKey => Json)

/-- Why a pass ended before its last line. -/
inductive Stop where
  | raised (e : PyError)
  | blocked
  | expired
  | duplicate
  | notForMe
  | ownUndecodable
  | unknownLasthop
  | lost
  | rescanned
  | removed
  deriving DecidableEq, Repr

structure Waits where
  /-- before the frame is handled -/
  gate : Agent → Option Agent
  /-- after two failed decryptions -/
  retry : Agent → Option Agent
  /-- before a rescan of the last hop -/
  rescan : Agent → Option Agent
  outside : Outside

/-- `host in fwd_cache and fwd_cache[host] >= id`. -/
def seen (p : Platform) (cache : FwdCache) (f : Frame) : Except PyError Bool :=
  match (field f.host).bind Json.dictKey with
  | .error e => .error e
  | .ok key =>
      match cache.lookup key with
      | none => .ok false
      | some last => (field f.id).map (last.ge p.mixedGe)

/-- The frame is the agent's own, a broadcast, or a unicast to the agent. -/
def addressed (me : Identity) (f : Frame) : Except PyError Bool :=
  match field f.host with
  | .error e => .error e
  | .ok host =>
      if host.isStr me.hostname then .ok true
      else (field f.receiver).map (fun r => r.isStr broadcast || r.isStr me.hostname)

/-- The filters in front of the first wait. The time to live counts down first. -/
def filterFrame (p : Platform) (me : Identity) (cache : FwdCache) (f : Frame) : Except Stop Frame :=
  match (field f.ttl).bind Json.toInt with
  | .error e => .error (.raised e)
  | .ok ttl =>
      if ttl - 1 ≤ 0 then .error .expired
      else
        match seen p cache f with
        | .error e => .error (.raised e)
        | .ok true => .error .duplicate
        | .ok false =>
            match addressed me f with
            | .error e => .error (.raised e)
            | .ok false => .error .notForMe
            | .ok true => .ok { f with ttl := some (.int (ttl - 1)) }

/-- Whether the frame is a neighbor's; handling one clears its event. The log
line before that reads both names. -/
def mark (me : Identity) (f : Frame) (a : Agent) : Except PyError (Bool × Agent) := do
  let lasthop ← field f.lasthop
  lasthop.printable
  let host ← field f.host
  host.printable
  if host.isStr me.hostname then pure (false, a)
  else pure (true, { a with gates := { a.gates with processingNeighborMessageEvent := false } })

/-- The table entry of the claimed last hop; only texts can be keys. -/
def lasthopEntry (f : Frame) (list : NeighborList) : Except PyError (Option (String × Neighbor)) :=
  match (field f.lasthop).bind Json.dictKey with
  | .error e => .error e
  | .ok (.str name) => .ok ((list.lookup name).map (fun entry => (name, entry)))
  | .ok _ => .ok none

/-- `AES.new` checks the sizes of key and vector. -/
def aesAccepts (key iv : Bytes) : Bool :=
  (key.length == 16 || key.length == 24 || key.length == 32) && iv.length == 16

theorem aesAccepts_of_length {key iv : Bytes} (hkey : key.length = 16) (hiv : iv.length = 16) :
    aesAccepts key iv = true := by
  simp [aesAccepts, hkey, hiv]

theorem ne_nil_of_aesAccepts {key iv : Bytes} (h : aesAccepts key iv = true) :
    key ≠ [] ∧ iv ≠ [] := by
  refine ⟨?_, ?_⟩
  · rintro rfl
    simp [aesAccepts] at h
  · rintro rfl
    simp [aesAccepts] at h

/-- `base64.decodestring(json_data['msg'])`. -/
def encodedMsg (f : Frame) : Except PyError Bytes :=
  match field f.msg with
  | .error e => .error e
  | .ok (.str s) =>
      if s.toList.all (fun c => c.toNat < 128) then
        match decodestring s.toList with
        | some b => .ok b
        | none => .error .binasciiError
      else .error .unicodeError
  | .ok _ => .error .typeError

/-- One decryption: the plain text and whether the signature verifies for it. -/
def attempt (p : Platform) (key iv : Bytes) (pubKey : Option RsaPublicKey) (f : Frame) :
    Except PyError (Bytes × Bool) :=
  if aesAccepts key iv then
    match encodedMsg f with
    | .error e => .error e
    | .ok enc =>
        match field f.sig, pubKey with
        | .error e, _ => .error e
        | .ok _, none => .error .attributeError
        | .ok sig, some k =>
            .ok (p.decrypt key iv enc, p.verify k (p.sha1 (p.decrypt key iv enc)) sig)
  else .error .valueError

/-- The key that a last hop's signature is checked with. -/
def verificationKey (me : Identity) (name : String) (entry : Neighbor) : Option RsaPublicKey :=
  if name ≠ me.hostname ∧ name ≠ "old_keys" then entry.pubKey else some me.rsaKey.publickey

/-- What the decryption stage hands on. -/
structure Decoded where
  lasthop : String
  key : Bytes
  iv : Bytes
  plain : Bytes

def Agent.setNeighborMessage (a : Agent) (b : Bool) : Agent :=
  { a with gates := { a.gates with processingNeighborMessageEvent := b } }

def Agent.setNeighborUpdate (a : Agent) (b : Bool) : Agent :=
  { a with gates := { a.gates with processingNeighborUpdateEvent := b } }

/-- Both sender events are set again. -/
def Agent.releaseSenders (a : Agent) : Agent :=
  { a with gates := { a.gates with
      sendingUserSpaceMessageEvent := true, sendingUserCtrlMessageEvent := true } }

def Agent.putNeighbor (a : Agent) (name : String) (entry : Neighbor) : Agent :=
  { a with globalNeighborList := a.globalNeighborList.insert name entry }

/-- The rescan of a last hop whose messages keep failing. -/
def rescanLasthop (me : Identity) (w : Waits) (a : Agent) (name : String) : Agent × Stop :=
  match w.rescan (Agent.setNeighborMessage a true) with
  | none => (Agent.setNeighborMessage a true, .blocked)
  | some a =>
      let a := Agent.setNeighborUpdate a false
      match a.globalNeighborList.lookup name with
      | none => (a, .raised .keyError)
      | some entry =>
          match rescan_neighbor w.outside me a entry.freq entry.ssid name 10 with
          | (a, .error e) => (a, .raised e)
          | (a, .ok _) => (Agent.setNeighborUpdate a true, .rescanned)

/-- A frame that could not be decrypted is counted; the fifth in a row leads to
a rescan, or to the removal of a neighbor whose frequency is not known. -/
def loseMessage (me : Identity) (w : Waits) (a : Agent) (name : String) : Agent × Stop :=
  match a.globalNeighborList.lookup name with
  | none => (a, .raised .keyError)
  | some entry =>
      if entry.lostMessages + 1 ≥ 5 then
        let entry := { entry with lostMessages := 0, rxStatsLost := entry.rxStatsLost + 1 }
        let a := Agent.putNeighbor a name entry
        if entry.freq ≠ 0 then rescanLasthop me w a name
        else
          match onAPLeft w.outside a name with
          | (a, .error e) => (a, .raised e)
          | (a, .ok ()) => (Agent.setNeighborMessage a true, .removed)
      else
        let entry := { entry with
          lostMessages := entry.lostMessages + 1, rxStatsLost := entry.rxStatsLost + 1 }
        (Agent.setNeighborMessage (Agent.putNeighbor a name entry) true, .lost)

/-- The decryption with the old key, where the entry has one. -/
def attemptOld (p : Platform) (pubKey : Option RsaPublicKey) (entry : Neighbor) (f : Frame) :
    Except PyError (Bytes × Bool) :=
  match entry.oldEncryptionKey, entry.oldEncryptionIV with
  | some key, some iv => attempt p key iv pubKey f
  | _, _ => .ok ([], false)

/-- The third decryption, after a pause. It uses the key and vector read before. -/
def retryStage (p : Platform) (me : Identity) (w : Waits) (a : Agent) (f : Frame)
    (name : String) (entry : Neighbor) : Agent × Except Stop Decoded :=
  match w.retry (Agent.setNeighborMessage a true) with
  | none => (Agent.setNeighborMessage a true, .error .blocked)
  | some a =>
      let a := Agent.setNeighborMessage a false
      match attempt p entry.encryptionKey entry.encryptionIV (verificationKey me name entry) f with
      | .error e => (a, .error (.raised e))
      | .ok (plain, true) =>
          (a, .ok ⟨name, entry.encryptionKey, entry.encryptionIV, plain⟩)
      | .ok (_, false) =>
          let lost := loseMessage me w a name
          (lost.1, .error lost.2)

/-- The three decryptions of the source, one after the other. -/
def decodeStage (p : Platform) (me : Identity) (w : Waits) (a : Agent) (isNeighborMessage : Bool)
    (f : Frame) : Agent × Except Stop Decoded :=
  match lasthopEntry f a.globalNeighborList with
  | .error e => (a, .error (.raised e))
  | .ok none => (a, .error .unknownLasthop)
  | .ok (some (name, entry)) =>
      let pubKey := verificationKey me name entry
      match attempt p entry.encryptionKey entry.encryptionIV pubKey f with
      | .error e => (a, .error (.raised e))
      | .ok (plain, true) =>
          (a, .ok ⟨name, entry.encryptionKey, entry.encryptionIV, plain⟩)
      | .ok (_, false) =>
          if isNeighborMessage then
            match attemptOld p pubKey entry f with
            | .error e => (a, .error (.raised e))
            | .ok (plain, true) =>
                (a, .ok ⟨name, entry.encryptionKey, entry.encryptionIV, plain⟩)
            | .ok (_, false) => retryStage p me w a f name entry
          else (Agent.releaseSenders a, .error .ownUndecodable)

/-- What one pass leaves behind. -/
structure Outcome where
  agent : Agent
  cache : FwdCache
  published : Option Frame := none
  stop : Option Stop := none

/-- A neighbor's frame resets its loss counter and counts as a success. -/
def countSuccess (a : Agent) (name : String) : Except PyError Agent :=
  match a.globalNeighborList.lookup name with
  | none => .error .keyError
  | some entry =>
      .ok (Agent.putNeighbor a name
        { entry with lostMessages := 0, rxStatsSuccess := entry.rxStatsSuccess + 1 })

/-- The frame as it is sent on: re-signed, re-encrypted and with a new last hop. -/
def republished (p : Platform) (me : Identity) (sendKey sendIv plain : Bytes) (f : Frame) : Frame :=
  { f with
    sig := some (p.sign me.rsaKey (p.sha1 plain))
    msg := some (.str (String.ofList (encodestring (p.encrypt sendKey sendIv plain))))
    lasthop := some (.str me.hostname) }

/-- The cache is written after the frame has been sent, so that a frame without
an id is sent and then raises. -/
def remember (cache : FwdCache) (f : Frame) : Except PyError FwdCache := do
  let host ← field f.host
  let key ← host.dictKey
  let id ← field f.id
  pure (cache.insert key id)

def publish (p : Platform) (me : Identity) (a : Agent) (cache : FwdCache)
    (isNeighborMessage : Bool) (d : Decoded) (f : Frame) : Outcome :=
  let sendKey := if d.lasthop = "old_keys" then d.key else a.key
  let sendIv := if d.lasthop = "old_keys" then d.iv else a.iv
  if aesAccepts sendKey sendIv then
    match (if isNeighborMessage then countSuccess a d.lasthop else .ok a) with
    | .error e => { agent := a, cache := cache, stop := some (.raised e) }
    | .ok a =>
        let g := republished p me sendKey sendIv d.plain f
        match remember cache f with
        | .error e =>
            { agent := a, cache := cache, published := some g, stop := some (.raised e) }
        | .ok cache =>
            { agent := if isNeighborMessage then a else Agent.releaseSenders a
              cache := cache, published := some g }
  else { agent := a, cache := cache, stop := some (.raised .valueError) }

/-- One pass of the loop of `initForwardingTTL`. -/
def initForwardingTTL (p : Platform) (me : Identity) (w : Waits) (a : Agent) (cache : FwdCache)
    (f : Frame) : Outcome :=
  match filterFrame p me cache f with
  | .error s => { agent := a, cache := cache, stop := some s }
  | .ok f =>
      match w.gate a with
      | none => { agent := a, cache := cache, stop := some .blocked }
      | some a =>
          match mark me f a with
          | .error e => { agent := a, cache := cache, stop := some (.raised e) }
          | .ok (isNeighborMessage, a) =>
              match decodeStage p me w a isNeighborMessage f with
              | (a, .error s) => { agent := a, cache := cache, stop := some s }
              | (a, .ok d) => publish p me a cache isNeighborMessage d f

end Nxwlan.Forwarder
