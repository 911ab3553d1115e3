import Nxwlan.ForwarderStages
import Nxwlan.ReceiveLoop

/-!
The threads of one agent as a system of interleaved steps. A step is one wait
that returns, one event cleared, one reading of the keys, one frame sent: the
threads that send (applications, `changeKeys` with its key change message,
`receiveMessage` with its answers to key requests), the key rotation itself,
the forwarder and the decryption of its frames by the receive thread. What any
thread does beside these is the step `other`, which may change the rest of the
agent at will. Frames reach the forwarder in one sequence, the own ones in the
order in which they were sent.
-/
namespace Nxwlan.AgentThreads

open JsonFrames AgentState Forwarder ForwarderStages Messaging ReceiveLoop
open Base64 (Bytes)

inductive Event where
  | probeRequest | changeKeys | userSpace | userCtrl | neighborUpdate | neighborMessage
  deriving DecidableEq, Repr

def Agent.isSet (a : Agent) : Event → Bool
  | .probeRequest => a.gates.processingProbeRequestEvent
  | .changeKeys => a.gates.processingChangeKeysEvent
  | .userSpace => a.gates.sendingUserSpaceMessageEvent
  | .userCtrl => a.gates.sendingUserCtrlMessageEvent
  | .neighborUpdate => a.gates.processingNeighborUpdateEvent
  | .neighborMessage => a.gates.processingNeighborMessageEvent

def Agent.setEvent (a : Agent) (b : Bool) : Event → Agent
  | .probeRequest => { a with gates := { a.gates with processingProbeRequestEvent := b } }
  | .changeKeys => { a with gates := { a.gates with processingChangeKeysEvent := b } }
  | .userSpace => { a with gates := { a.gates with sendingUserSpaceMessageEvent := b } }
  | .userCtrl => { a with gates := { a.gates with sendingUserCtrlMessageEvent := b } }
  | .neighborUpdate => { a with gates := { a.gates with processingNeighborUpdateEvent := b } }
  | .neighborMessage => { a with gates := { a.gates with processingNeighborMessageEvent := b } }

/-- The threads that send. -/
inductive Tid where
  | app (n : ℕ)
  | changeKeys
  | receiveMessage
  deriving DecidableEq

/-- The calls a thread makes on its own: data and key requests by the applications,
answers to key requests by the receive thread. -/
def Tid.calls : Tid → Call → Bool
  | .app _, .sendCtrlToNeighbors _ sub_type key iv _ => sub_type = "ruk" ∧ key = [] ∧ iv = []
  | .app _, _ => true
  | .receiveMessage, .sendCtrlToNeighbors _ sub_type key iv _ =>
      sub_type = "nuk" ∧ key = [] ∧ iv = []
  | _, _ => false

namespace Call

/-- The waits of `sendToInternal` and of `sendCtrlToNeighbors`. -/
def waits (call : Call) : List Event :=
  if call.msgType = "ctrl" then [.probeRequest, .changeKeys, .userSpace]
  else [.probeRequest, .changeKeys, .userCtrl]

/-- The event that is cleared after them. -/
def event (call : Call) : Event := if call.msgType = "ctrl" then .userCtrl else .userSpace

/-- The frame that is built and handed to the sender socket; `none` is the logged
error return for a neighbor that is not in the table. -/
def build (p : Platform) (me : Identity) (a : Agent) (call : Call) (lasthop : String)
    (key iv : Bytes) : Except PyError (Option Frame) :=
  match unicastLayer p a call.message call.msgType call.receiver with
  | .error e => .error e
  | .ok none => .ok none
  | .ok (some message) =>
      if aesAccepts key iv then
        .ok (some (initialFrame p me lasthop key iv a.local_id call.initialTtl call.msgType
          call.subType call.receiver message))
      else .error .valueError

theorem perform_flooding (p : Platform) (me : Identity) (now : ℤ) (a : Agent) (call : Call) :
    call.perform p me now a =
      sendFloodingMessage p me now (Agent.setEvent a false (event call)) call.message
        call.initialTtl call.msgType call.subType call.keys.1 call.keys.2 call.receiver := by
  cases call with
  | sendToNeighbors message ttl => rfl
  | sendToNeighbor message nodeID => rfl
  | sendCtrlToNeighbors message sub_type key iv nodeID => rfl

/-- A send that no other thread interrupts is `perform`. -/
theorem perform_eq (p : Platform) (me : Identity) (now : ℤ) (a : Agent) (call : Call) :
    call.perform p me now a =
      let a₁ := Agent.setEvent a false (event call)
      let keys := call.sendKeys me a₁
      let a₂ := storeOldKeys me now a₁ call.keys.1 call.keys.2
      match build p me a₂ call keys.1 keys.2.1 keys.2.2 with
      | .error e => (a₂, .error e)
      | .ok none => (Agent.setEvent a₂ true .userSpace, .ok none)
      | .ok (some f) => ({ a₂ with local_id := a₂.local_id + 1 }, .ok (some f)) := by
  rw [perform_flooding]
  unfold sendFloodingMessage build Call.sendKeys
  dsimp only
  rcases unicastLayer p (storeOldKeys me now (Agent.setEvent a false (event call)) call.keys.1
    call.keys.2) call.message call.msgType call.receiver with e | _ | message
  · rfl
  · rfl
  · dsimp only
    split
    · rfl
    · rfl

end Call

/-- Where a sending thread is: in front of the waits left and then of the clearing of
its event, in front of the reading of the keys, of the sending, of the increment
of the message number, or ended by an exception. -/
inductive Sender where
  | idle
  | await (call : Call) (events : List Event)
  | read (call : Call)
  | send (call : Call) (lasthop : String) (key iv : Bytes)
  | increment
  | raised

/-- The call that a thread is busy with. -/
def Sender.call? : Sender → Option Call
  | .await call _ => some call
  | .read call => some call
  | .send call _ _ _ => some call
  | _ => none

/-- Where `changeKeys` is; `remove` and `release` are in `validateCurrentNeighborList`. -/
inductive KeyStage where
  | sleeping
  | await (events : List Event)
  | replace
  | connect (key_old iv_old : Bytes)
  | announce (key_old iv_old : Bytes)
  | sending
  | validate (events : List Event)
  | remove
  | release
  | ended
  deriving DecidableEq

/-- Where the forwarder is with its frame, whose time to live is counted down. -/
inductive FwdStage where
  | idle
  | await (f : Frame) (events : List Event)
  | decode (f : Frame) (isNeighborMessage : Bool)
  | retry (f : Frame) (name : String) (entry : Neighbor) (events : List Event)
  | again (f : Frame) (name : String) (entry : Neighbor)
  | rescan (name : String) (events : List Event)
  | scan (name : String)
  | keys (f : Frame) (isNeighborMessage : Bool) (d : Decoded)
  | send (f : Frame) (isNeighborMessage : Bool) (d : Decoded) (sendKey sendIv : Bytes)
  | closed

/-- The receive thread has no frame, has one in hand, or is ended by an exception. -/
inductive RcvStage where
  | idle
  | check (g : Frame)
  | ended

def RcvStage.inHand : RcvStage → List Frame
  | .check g => [g]
  | _ => []

/-- A frame that comes to the forwarder: from the agent's own sender socket, with the
last hop and the keys it was built with, or from the network. -/
structure Arrival where
  source : Option (String × Bytes × Bytes)
  frame : Frame

/-- The agent, its threads, all frames that have come to the forwarder, how the pass
over each of them has ended so far (`none` is the end after a publication), the
frames on their way to the receive thread and what has become of the others. -/
structure Sys where
  agent : Agent
  cache : FwdCache := ∅
  senders : Tid → Sender := fun _ => .idle
  keyThread : KeyStage := .sleeping
  forwarder : FwdStage := .idle
  receiver : RcvStage := .idle
  arrived : List Arrival := []
  log : List (Option Stop) := []
  toReceive : List Frame := []
  received : List (Frame × Received) := []

/-- The frames that the forwarder has published and the receive thread has not opened
yet. -/
def Sys.pending (s : Sys) : List Frame := s.toReceive ++ s.receiver.inHand

def Sys.setSender (s : Sys) (t : Tid) (stage : Sender) : Sys :=
  { s with senders := Function.update s.senders t stage }

theorem Sys.setSender_self (s : Sys) (t : Tid) (stage : Sender) :
    (s.setSender t stage).senders t = stage := by
  simp only [Sys.setSender, Function.update_self]

theorem Sys.setSender_of_ne (s : Sys) {t t' : Tid} (stage : Sender) (h : t' ≠ t) :
    (s.setSender t stage).senders t' = s.senders t' := by
  simp only [Sys.setSender, Function.update_of_ne h]

/-- The next step of a sending thread. -/
def senderStep (p : Platform) (me : Identity) (now : ℤ) (s : Sys) (t : Tid) : Option Sys :=
  match s.senders t with
  | .idle => none
  | .raised => none
  | .await call (e :: events) =>
      if Agent.isSet s.agent e then some (s.setSender t (.await call events)) else none
  | .await call [] =>
      some { s.setSender t (.read call) with
        agent := Agent.setEvent s.agent false (Call.event call) }
  | .read call =>
      let keys := call.sendKeys me s.agent
      some { s.setSender t (.send call keys.1 keys.2.1 keys.2.2) with
        agent := storeOldKeys me now s.agent call.keys.1 call.keys.2 }
  | .send call lasthop key iv =>
      match Call.build p me s.agent call lasthop key iv with
      | .error _ => some (s.setSender t .raised)
      | .ok none =>
          some { s.setSender t .idle with agent := Agent.setEvent s.agent true .userSpace }
      | .ok (some f) =>
          some { s.setSender t .increment with
            arrived := s.arrived ++ [⟨some (lasthop, key, iv), f⟩] }
  | .increment =>
      some { s.setSender t .idle with
        agent := { s.agent with local_id := s.agent.local_id + 1 } }

def keyChangeInterval : ℤ := 6000

/-- The neighbors that have not changed their key for three intervals. -/
def expiredNeighbors (me : Identity) (now : ℤ) (list : NeighborList) : List String :=
  list.entries.filterMap (fun e =>
    if e.2.ipAddress ≠ me.hostname ∧ now - e.2.timestampLastKCM > 3 * keyChangeInterval
    then some e.2.ipAddress else none)

def leaveAll (out : Outside) : List String → Agent → Agent × Except PyError Unit
  | [], a => (a, .ok ())
  | node :: rest, a =>
      match onAPLeft out a node with
      | (a, .error e) => (a, .error e)
      | (a, .ok ()) => leaveAll out rest a

/-- The entry of `init_self_connection`. -/
def ownEntry (me : Identity) (now : ℤ) (a : Agent) : Neighbor :=
  { ipAddress := me.hostname, encryptionKey := a.key, encryptionIV := a.iv,
    timestampLastKCM := now }

/-- What a step of the key thread takes from outside: the clock, new keys, which have
16 bytes each, the text of its message and the answers of the world. -/
structure Rotation where
  now : ℤ
  key : Bytes
  iv : Bytes
  key_length : key.length = 16
  iv_length : iv.length = 16
  kcm : Bytes
  outside : Outside

/-- The next step of `changeKeys`. -/
def keyStep (me : Identity) (x : Rotation) (s : Sys) : Option Sys :=
  match s.keyThread with
  | .sleeping => some { s with keyThread := .await [.userSpace, .userCtrl, .probeRequest] }
  | .await (e :: events) =>
      if Agent.isSet s.agent e then some { s with keyThread := .await events } else none
  | .await [] =>
      some { s with
        agent := Agent.setEvent s.agent false .changeKeys
        keyThread := .replace }
  | .replace =>
      some { s with
        agent := { s.agent with key := x.key, iv := x.iv }
        keyThread := .connect s.agent.key s.agent.iv }
  | .connect key_old iv_old =>
      some { s with
        agent := onAPJoined x.outside me s.agent [ownEntry me x.now s.agent]
        keyThread := .announce key_old iv_old }
  | .announce key_old iv_old =>
      let call := Call.sendCtrlToNeighbors x.kcm "kcm" key_old iv_old broadcast
      some { s.setSender .changeKeys (.await call (Call.waits call)) with
        agent := Agent.setEvent s.agent true .changeKeys
        keyThread := .sending }
  | .sending =>
      match s.senders .changeKeys with
      | .idle =>
          match s.agent.globalNeighborList.lookup me.hostname with
          | none => some { s with keyThread := .ended }
          | some entry =>
              some { s with
                agent := Agent.putNeighbor s.agent me.hostname
                  { entry with timestampLastKCM := x.now }
                keyThread := .validate [.probeRequest, .userSpace, .userCtrl, .neighborMessage] }
      | .raised => some { s with keyThread := .ended }
      | _ => none
  | .validate (e :: events) =>
      if Agent.isSet s.agent e then some { s with keyThread := .validate events } else none
  | .validate [] =>
      some { s with
        agent := Agent.setEvent s.agent false .neighborUpdate
        keyThread := .remove }
  | .remove =>
      let left := leaveAll x.outside (expiredNeighbors me x.now s.agent.globalNeighborList) s.agent
      some { s with
        agent := left.1
        keyThread := match left.2 with
          | .error _ => .ended
          | .ok () => .release }
  | .release =>
      some { s with
        agent := Agent.setEvent s.agent true .neighborUpdate
        keyThread := .sleeping }
  | .ended => none

/-- The end of a pass; an exception closes the forwarder. -/
def Sys.finish (s : Sys) (stop : Option Stop) : Sys :=
  { s with
    forwarder := match stop with
      | some (.raised _) => .closed
      | _ => .idle
    log := s.log ++ [stop] }

/-- The next step of the forwarder. Its frame is the first one that the log does not
cover yet. -/
def forwarderStep (p : Platform) (me : Identity) (out : Outside) (s : Sys) : Option Sys :=
  match s.forwarder with
  | .idle =>
      match s.arrived[s.log.length]? with
      | none => none
      | some arrival =>
          match filterFrame p me s.cache arrival.frame with
          | .error stop => some (s.finish (some stop))
          | .ok f =>
              some { s with forwarder := .await f [.probeRequest, .changeKeys, .neighborUpdate] }
  | .await f (e :: events) =>
      if Agent.isSet s.agent e then some { s with forwarder := .await f events } else none
  | .await f [] =>
      match mark me f s.agent with
      | .error e => some (s.finish (some (.raised e)))
      | .ok (nb, a) => some { s with agent := a, forwarder := .decode f nb }
  | .decode f nb =>
      match firstDecode p me s.agent nb f with
      | .stop a stop => some ({ s with agent := a }.finish (some stop))
      | .decoded d => some { s with forwarder := .keys f nb d }
      | .retry name entry =>
          some { s with
            agent := Agent.setNeighborMessage s.agent true
            forwarder := .retry f name entry [.neighborUpdate, .probeRequest, .changeKeys] }
  | .retry f name entry (e :: events) =>
      if Agent.isSet s.agent e then some { s with forwarder := .retry f name entry events }
      else none
  | .retry f name entry [] =>
      some { s with
        agent := Agent.setNeighborMessage s.agent false
        forwarder := .again f name entry }
  | .again f name entry =>
      match attempt p entry.encryptionKey entry.encryptionIV (verificationKey me name entry) f with
      | .error e => some (s.finish (some (.raised e)))
      | .ok (plain, true) =>
          some { s with
            forwarder := .keys f true ⟨name, entry.encryptionKey, entry.encryptionIV, plain⟩ }
      | .ok (_, false) =>
          match countLoss out s.agent name with
          | .stop a stop => some ({ s with agent := a }.finish (some stop))
          | .rescan a =>
              some { s with
                agent := Agent.setNeighborMessage a true
                forwarder := .rescan name [.neighborUpdate, .probeRequest, .changeKeys] }
  | .rescan name (e :: events) =>
      if Agent.isSet s.agent e then some { s with forwarder := .rescan name events } else none
  | .rescan name [] =>
      some { s with
        agent := Agent.setNeighborUpdate s.agent false
        forwarder := .scan name }
  | .scan name =>
      let rescan := rescanStep out me s.agent name
      some ({ s with agent := rescan.1 }.finish (some rescan.2))
  | .keys f nb d =>
      let keys := publicationKeys s.agent d
      some { s with forwarder := .send f nb d keys.1 keys.2 }
  | .send f nb d sendKey sendIv =>
      let o := sendOn p me s.agent s.cache nb d sendKey sendIv f
      some ({ s with
        agent := o.agent
        cache := o.cache
        toReceive := s.toReceive ++ o.published.toList }.finish o.stop)
  | .closed => none

/-- The next step of the receive thread: it takes a frame, or opens the one in hand.
An opened frame sets the neighbor message event. -/
def receiveStep (p : Platform) (me : Identity) (s : Sys) : Option Sys :=
  match s.receiver with
  | .idle =>
      match s.toReceive with
      | [] => none
      | g :: rest => some { s with receiver := .check g, toReceive := rest }
  | .check g =>
      let r := receiveMessage p me s.agent g
      let s := { s with received := s.received ++ [(g, r)] }
      match r with
      | .own => some { s with receiver := .idle }
      | .badSignature => some { s with receiver := .idle }
      | .noUnicastKey => some { s with receiver := .idle }
      | .raised _ => some { s with receiver := .ended }
      | .ctrl _ =>
          if toMe me g && g.sub_type.isNone then some { s with receiver := .ended }
          else
            some { s with
              agent := Agent.setNeighborMessage s.agent true
              receiver := .idle }
      | .callback _ =>
          some { s with
            agent := Agent.setNeighborMessage s.agent true
            receiver := .idle }
  | .ended => none

/-- What no other thread writes: the agent's keys and its message number, and the
events of the key rotation and of the neighbor messages. -/
def Kept (a b : Agent) : Prop :=
  b.key = a.key ∧ b.iv = a.iv ∧ b.local_id = a.local_id ∧
    b.gates.processingChangeKeysEvent = a.gates.processingChangeKeysEvent ∧
    b.gates.processingNeighborMessageEvent = a.gates.processingNeighborMessageEvent

instance (a b : Agent) : Decidable (Kept a b) :=
  inferInstanceAs (Decidable (_ ∧ _ ∧ _ ∧ _ ∧ _))

/-- A thread without a call under way; an application may go on after an exception. -/
def Sys.free (s : Sys) (t : Tid) : Bool :=
  match s.senders t, t with
  | .idle, _ => true
  | .raised, .app _ => true
  | _, _ => false

inductive Action where
  | call (t : Tid) (call : Call)
  | sender (t : Tid) (now : ℤ)
  | changeKeys (x : Rotation)
  | forwarder (out : Outside)
  | receive
  | arrive (f : Frame)
  | other (b : Agent)

/-- One step of the agent's threads; `none` where it cannot be taken. -/
def step (p : Platform) (me : Identity) (s : Sys) : Action → Option Sys
  | .call t call =>
      if s.free t && t.calls call then some (s.setSender t (.await call (Call.waits call)))
      else none
  | .sender t now => senderStep p me now s t
  | .changeKeys x => keyStep me x s
  | .forwarder out => forwarderStep p me out s
  | .receive => receiveStep p me s
  | .arrive f => some { s with arrived := s.arrived ++ [⟨none, f⟩] }
  | .other b => if Kept s.agent b then some { s with agent := b } else none

/-- The steps of a schedule, one after the other. -/
def runAll (p : Platform) (me : Identity) (s : Sys) : List Action → Option Sys
  | [] => some s
  | act :: rest => (step p me s act).bind (fun s => runAll p me s rest)

/-- An agent after its start-up: no thread is at work, all events are set, and the
agent is in its own table with its present keys. -/
structure Started (me : Identity) (s : Sys) : Prop where
  gates : s.agent.gates = {}
  cache : s.cache = ∅
  senders : s.senders = fun _ => .idle
  keyThread : s.keyThread = .sleeping
  forwarder : s.forwarder = .idle
  receiver : s.receiver = .idle
  arrived : s.arrived = []
  log : s.log = []
  toReceive : s.toReceive = []
  received : s.received = []
  key : s.agent.key.length = 16
  iv : s.agent.iv.length = 16
  own : ∃ e, s.agent.globalNeighborList.lookup me.hostname = some e ∧
    e.encryptionKey = s.agent.key ∧ e.encryptionIV = s.agent.iv
  frontend : (me.hostname, Port.fwd) ∉ s.agent.frontend ∧ ("old_keys", Port.fwd) ∉ s.agent.frontend

end Nxwlan.AgentThreads
