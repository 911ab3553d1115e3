import Nxwlan.Forwarder

/-!
The two ends of a message: `sendFloodingMessage` with the calls of the northbound
interface that lead to it, and the decryption half of `receiveMessage` up to
the application callback. The waits in front of a send are over when a
function of this module starts.
-/
namespace Nxwlan.Messaging

open JsonFrames AgentState Forwarder
open Base64 (Bytes encodestring decodestring)

/-- A text held in a byte string. -/
def asciiBytes (s : List Char) : Bytes := s.map (fun c => UInt8.ofNat c.toNat)

def asciiText (b : Bytes) : List Char := b.map (fun x => Char.ofNat x.toNat)

/-- The additional encryption of a unicast; `none` is the logged error return for
a neighbor that is not in the table. -/
def unicastLayer (p : Platform) (a : Agent) (message : Bytes) (msg_type nodeID : String) :
    Except PyError (Option Bytes) :=
  if nodeID ≠ broadcast ∧ msg_type = "ctrl" then
    match a.globalNeighborList.lookup nodeID with
    | none => .ok none
    | some entry =>
        match entry.pubKey with
        | none => .error .attributeError
        | some k =>
            match p.oaepEncrypt k message with
            | none => .error .valueError
            | some enc => .ok (some enc)
  else if nodeID ≠ broadcast ∧ msg_type = "data" then
    match a.globalNeighborList.lookup nodeID with
    | none => .ok none
    | some entry =>
        if aesAccepts entry.unicastSendKey entry.unicastSendIv then
          .ok (some (asciiBytes (encodestring
            (p.encrypt entry.unicastSendKey entry.unicastSendIv message))))
        else .error .valueError
  else .ok (some message)

/-- The frame handed to the sender socket. -/
def initialFrame (p : Platform) (me : Identity) (lasthop : String) (key iv : Bytes) (id max_ttl : ℤ)
    (msg_type sub_type nodeID : String) (message : Bytes) : Frame where
  host := some (.str me.hostname)
  lasthop := some (.str lasthop)
  id := some (.int id)
  receiver := some (.str nodeID)
  ttl := some (.int max_ttl)
  msg_type := some (.str msg_type)
  sub_type := some (.str sub_type)
  msg := some (.str (String.ofList (encodestring (p.encrypt key iv message))))
  sig := some (p.sign me.rsaKey (p.sha1 message))

/-- Last hop, key and vector of an outgoing frame: the agent's own, unless a key
and a vector of 16 bytes are given. -/
def sendKeys (me : Identity) (a : Agent) (key iv : Bytes) : String × Bytes × Bytes :=
  if key.length ≠ 16 ∨ iv.length ≠ 16 then (me.hostname, a.key, a.iv) else ("old_keys", key, iv)

/-- Given keys are stored as the entry "old_keys", stamped with `now`. -/
def storeOldKeys (me : Identity) (now : ℤ) (a : Agent) (key iv : Bytes) : Agent :=
  if key.length ≠ 16 ∨ iv.length ≠ 16 then a
  else Agent.putNeighbor a "old_keys"
    { encryptionKey := key, encryptionIV := iv, pubKey := some me.rsaKey.publickey,
      timestampLastKCM := now }

/-- The frame sent, if any. -/
def sendFloodingMessage (p : Platform) (me : Identity) (now : ℤ) (a : Agent) (message : Bytes)
    (max_ttl : ℤ) (msg_type sub_type : String) (key iv : Bytes) (nodeID : String) :
    Agent × Except PyError (Option Frame) :=
  let k := sendKeys me a key iv
  let a := storeOldKeys me now a key iv
  match unicastLayer p a message msg_type nodeID with
  | .error e => (a, .error e)
  | .ok none =>
      ({ a with gates := { a.gates with sendingUserSpaceMessageEvent := true } }, .ok none)
  | .ok (some message) =>
      if aesAccepts k.2.1 k.2.2 then
        ({ a with local_id := a.local_id + 1 },
          .ok (some (initialFrame p me k.1 k.2.1 k.2.2 a.local_id max_ttl
            msg_type sub_type nodeID message)))
      else (a, .error .valueError)

/-- A frame that is sent carries the message under the layer its address asks for. -/
theorem sendFloodingMessage_ok {p : Platform} {me : Identity} {now : ℤ} {a a' : Agent}
    {message : Bytes} {max_ttl : ℤ} {msg_type sub_type : String} {key iv : Bytes} {nodeID : String}
    {f : Frame} (h : sendFloodingMessage p me now a message max_ttl msg_type sub_type key iv nodeID =
      (a', .ok (some f))) :
    ∃ plain, unicastLayer p (storeOldKeys me now a key iv) message msg_type nodeID =
        .ok (some plain) ∧
      f = initialFrame p me (sendKeys me a key iv).1 (sendKeys me a key iv).2.1
        (sendKeys me a key iv).2.2 (storeOldKeys me now a key iv).local_id max_ttl msg_type sub_type
        nodeID plain := by
  unfold sendFloodingMessage at h
  dsimp only at h
  split at h
  · cases h
  · cases h
  · rename_i plain hplain
    split at h
    · simp only [Prod.mk.injEq, Except.ok.injEq, Option.some.injEq] at h
      exact ⟨plain, hplain, h.2.symm⟩
    · cases h

/-- The sends of an agent. A unicast of `sendToNeighbor` gets here once its
session key is known; key-change, key-request and key-reply messages are
control messages. -/
inductive Call where
  | sendToNeighbors (message : Bytes) (ttl : ℤ)
  | sendToNeighbor (message : Bytes) (nodeID : String)
  | sendCtrlToNeighbors (message : Bytes) (sub_type : String) (key iv : Bytes) (nodeID : String)

namespace Call

def receiver : Call → String
  | sendToNeighbors _ _ => broadcast
  | sendToNeighbor _ nodeID => nodeID
  | sendCtrlToNeighbors _ _ _ _ nodeID => nodeID

def message : Call → Bytes
  | sendToNeighbors message _ => message
  | sendToNeighbor message _ => message
  | sendCtrlToNeighbors message _ _ _ _ => message

def msgType : Call → String
  | sendToNeighbors _ _ => "data"
  | sendToNeighbor _ _ => "data"
  | sendCtrlToNeighbors _ _ _ _ _ => "ctrl"

def subType : Call → String
  | sendToNeighbors _ _ => "std"
  | sendToNeighbor _ _ => "std"
  | sendCtrlToNeighbors _ sub_type _ _ _ => sub_type

/-- The keys that the caller gives: the previous ones, for a key change message. -/
def keys : Call → Bytes × Bytes
  | sendToNeighbors _ _ => ([], [])
  | sendToNeighbor _ _ => ([], [])
  | sendCtrlToNeighbors _ _ key iv _ => (key, iv)

/-- Last hop and keys of the frame that a call hands to the sender socket. -/
def sendKeys (me : Identity) (a : Agent) (call : Call) : String × Bytes × Bytes :=
  Messaging.sendKeys me a call.keys.1 call.keys.2

/-- The time to live of the first frame: two hops are used up by the sender's
own forwarder and by the receiver. -/
def initialTtl : Call → ℤ
  | sendToNeighbors _ ttl => ttl + 2
  | sendToNeighbor _ _ => 3
  | sendCtrlToNeighbors _ _ _ _ _ => 3

def perform (p : Platform) (me : Identity) (now : ℤ) (a : Agent) (call : Call) :
    Agent × Except PyError (Option Frame) :=
  match call with
  | sendToNeighbors message _ =>
      sendFloodingMessage p me now
        { a with gates := { a.gates with sendingUserSpaceMessageEvent := false } }
        message call.initialTtl "data" "std" [] [] call.receiver
  | sendToNeighbor message _ =>
      sendFloodingMessage p me now
        { a with gates := { a.gates with sendingUserSpaceMessageEvent := false } }
        message call.initialTtl "data" "std" [] [] call.receiver
  | sendCtrlToNeighbors message sub_type key iv _ =>
      sendFloodingMessage p me now
        { a with gates := { a.gates with sendingUserCtrlMessageEvent := false } }
        message call.initialTtl "ctrl" sub_type key iv call.receiver

end Call

/-- Where `receiveMessage` gets to with a frame of the own forwarder. -/
inductive Received where
  | own
  | badSignature
  | noUnicastKey
  | raised (e : PyError)
  | ctrl (plain : Bytes)
  | callback (plain : Bytes)
  deriving DecidableEq

/-- The inner decryption of a unicast to this agent; `none` is the warning for a
missing session key. -/
def unwrapUnicast (p : Platform) (me : Identity) (a : Agent) (f : Frame) (plain : Bytes) :
    Except PyError (Option Bytes) := do
  let receiver ← field f.receiver
  if receiver.isStr broadcast || !receiver.isStr me.hostname then pure (some plain)
  else do
    let msg_type ← field f.msg_type
    if msg_type.isStr "ctrl" then
      match p.oaepDecrypt me.rsaKey plain with
      | none => .error .valueError
      | some plain => pure (some plain)
    else if msg_type.isStr "data" && (a.globalNeighborList.lookup me.hostname).isSome then
      match decodestring (asciiText plain), field f.host with
      | none, _ => .error .binasciiError
      | some enc, .ok (.str host) =>
          match a.globalNeighborList.lookup host with
          | none => .error .keyError
          | some entry =>
              if entry.unicastRecKey = [] then pure none
              else if aesAccepts entry.unicastRecKey entry.unicastRecIv then
                pure (some (p.decrypt entry.unicastRecKey entry.unicastRecIv enc))
              else .error .valueError
      | some _, _ => .error .keyError
    else pure (some plain)

/-- The loop body of `receiveMessage` up to the point where a control message is
handled or the application callback is called. -/
def receiveMessage (p : Platform) (me : Identity) (a : Agent) (f : Frame) : Received :=
  match field f.host with
  | .error e => .raised e
  | .ok host =>
      if host.isStr me.hostname then .own
      else
        match attempt p a.key a.iv (some me.rsaKey.publickey) f with
        | .error e => .raised e
        | .ok (_, false) => .badSignature
        | .ok (plain, true) =>
            match unwrapUnicast p me a f plain, field f.msg_type with
            | .error e, _ => .raised e
            | .ok none, _ => .noUnicastKey
            | .ok (some _), .error e => .raised e
            | .ok (some plain), .ok msg_type =>
                if msg_type.isStr "ctrl" then .ctrl plain else .callback plain

end Nxwlan.Messaging
