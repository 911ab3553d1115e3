import Nxwlan.SessionKeys
import Nxwlan.JsonText

/-!
Two agents and the frames that they have ever sent to each other. An agent that
removes the entry of the other one forgets the key it has given out; what was sent
before that is old. The condition of agreement is that nobody sends a message under
a key that the other one has forgotten.
-/
namespace Nxwlan.SessionAgreement

open JsonFrames AgentState Forwarder Messaging Rescans ReceiveLoop ReceiveSurvival SessionKeys
open OwnEntry
open PayloadPaths (Layered Carries)
open Base64 (Bytes)

structure Host where
  agent : Agent
  thread : Handling := .idle
  senders : ℕ → Sending := fun _ => .idle

/-- A frame on the air: who has sent it, for which call and in which state. -/
structure Sent where
  origin : Bool
  now : ℤ
  agent : Agent
  call : Call

/-- All that has been sent, and what has been sent since an agent last forgot a key. -/
structure Pair where
  host : Bool → Host
  sent : List Sent := []
  recent : Bool → List Sent := fun _ => []

def Pair.push (s : Pair) (frames : List Sent) : Pair :=
  { s with sent := s.sent ++ frames, recent := fun y => s.recent y ++ frames }

/-- A step of the agent `x`, with the call of the frame that it has sent, if any. -/
def Pair.advance (s : Pair) (x : Bool) (h : Host) (now : ℤ) (call : Option Call) : Pair :=
  let frames := (call.map (fun call => (⟨x, now, (s.host x).agent, call⟩ : Sent))).toList
  { s.push frames with host := Function.update s.host x h }

/-- The agent `x` forgets the key that it has given out. -/
def Pair.forget (s : Pair) (x : Bool) : Pair :=
  { s with recent := Function.update s.recent x [] }

@[simp] theorem Pair.forget_self (s : Pair) (x : Bool) : (s.forget x).recent x = [] :=
  Function.update_self ..

theorem Pair.forget_other (s : Pair) {x y : Bool} (h : y ≠ x) :
    (s.forget x).recent y = s.recent y :=
  Function.update_of_ne h ..

/-- The entry `n` goes away, and a key with it. -/
def forgets (n : String) (a b : Agent) : Bool :=
  (a.globalNeighborList.lookup n).any (fun e => !e.unicastRecKey.isEmpty) &&
    (b.globalNeighborList.lookup n).isNone

/-- What other threads do to the table of an agent. A search for a neighbor's key is a
number of scans and, at its end, a removal; `aside` is anything that leaves the
own entry and that of the other agent alone. -/
inductive Op where
  | onAPJoined (out : Outside) (scanResultList : List Neighbor)
  | rescanResults (out : Outside) (host : String) (scanResults : List Neighbor)
  | onAPLeft (out : Outside) (adjacentNode : String)
  | parse_existing_neighbor (now freq : ℤ) (ssid ipAddress : String)
  | changeKeys (key iv : Bytes)
  | count (name : String) (lostMessages rxStatsLost rxStatsSuccess : ℕ)
  | aside (b : Agent)

def Op.apply (me : Identity) (a : Agent) : Op → Agent
  | .onAPJoined out scanResultList => AgentState.onAPJoined out me a scanResultList
  | .rescanResults out host scanResults =>
      (AgentState.rescanResults out me host scanResults false a).1
  | .onAPLeft out adjacentNode => (AgentState.onAPLeft out a adjacentNode).1
  | .parse_existing_neighbor now freq ssid ipAddress =>
      match AgentState.parse_existing_neighbor (kcmEntry now freq ssid ipAddress)
          a.globalNeighborList with
      | .ok list => { a with globalNeighborList := list }
      | .error _ => a
  | .changeKeys key iv => { a with key := key, iv := iv }
  | .count name lostMessages rxStatsLost rxStatsSuccess =>
      match a.globalNeighborList.lookup name with
      | some entry => Agent.putNeighbor a name { entry with
          lostMessages := lostMessages
          rxStatsLost := rxStatsLost
          rxStatsSuccess := rxStatsSuccess }
      | none => a
  | .aside b => b

inductive Act where
  | sendToNeighbor (x : Bool) (t : ℕ) (message : Bytes) (nodeID : String)
  | sender (x : Bool) (t : ℕ) (now : ℤ)
  | receive (x : Bool) (world : World) (g : Frame)
  | handle (x : Bool) (now : ℤ)
  | table (x : Bool) (op : Op)

/-- A thread of an application that can call `sendToNeighbor`. -/
def Sending.free : Sending → Bool
  | .idle => true
  | .returned _ => true
  | .raised => true
  | _ => false

/-- The receive thread is ready for the next frame. -/
def Handling.ready : Handling → Bool
  | .idle => true
  | _ => false

theorem idle_of_ready {thread : Handling} (h : Handling.ready thread = true) : thread = .idle := by
  cases thread with
  | idle => rfl
  | _ => cases h

def step (p : Platform) (names : Bool → Identity) (s : Pair) : Act → Option Pair
  | .sendToNeighbor x t message nodeID =>
      let h := s.host x
      if Sending.free (h.senders t) then
        let next := SessionKeys.sendToNeighbor h.agent message nodeID
        some (s.advance x { h with
          agent := next.1, senders := Function.update h.senders t next.2 } 0 none)
      else none
  | .sender x t now =>
      let h := s.host x
      let next := sendStep p (names x) now h.agent (h.senders t)
      some (s.advance x { h with
        agent := next.1, senders := Function.update h.senders t next.2.1 } now next.2.2)
  | .receive x world g =>
      let h := s.host x
      if Handling.ready h.thread then
        let next := takeFrame p world (names x) h.agent g
        some (s.advance x { h with agent := next.1, thread := next.2 } 0 none)
      else none
  | .handle x now =>
      let h := s.host x
      let next := handleStep p (names x) now h.agent h.thread
      some (s.advance x { h with agent := next.1, thread := next.2.1 } now next.2.2)
  | .table x op =>
      let h := s.host x
      let b := op.apply (names x) h.agent
      let next := s.advance x { h with agent := b } 0 none
      some (if forgets (names !x).hostname h.agent b then next.forget x else next)

variable {p : Platform} {names : Bool → Identity} {s s' s₀ : Pair} {x y : Bool} {a b : Agent}
  {e d : Neighbor} {n : String}

/-- The session keys of an entry. -/
def unicast (e : Neighbor) : Bytes × Bytes × Bytes × Bytes :=
  (e.unicastSendKey, e.unicastSendIv, e.unicastRecKey, e.unicastRecIv)

/-- An entry as it comes from an advertisement of the agent with this public key. -/
structure Blank (k : RsaPublicKey) (e : Neighbor) : Prop where
  keys : unicast e = ([], [], [], [])
  pubKey : e.pubKey = some k

/-- What is advertised under the address of the other agent is its own advertisement. -/
def Authentic (names : Bool → Identity) (x : Bool) (e : Neighbor) : Prop :=
  e.ipAddress = (names !x).hostname → Blank (names !x).rsaKey.publickey e

def Op.Proper (names : Bool → Identity) (x : Bool) (a : Agent) : Op → Prop
  | .onAPJoined _ scanResultList => ∀ e ∈ scanResultList, Authentic names x e
  | .rescanResults _ _ scanResults => ∀ e ∈ scanResults, Authentic names x e
  | .aside b => (∀ x', b.globalNeighborList.lookup (names x').hostname =
      a.globalNeighborList.lookup (names x').hostname) ∧ b.frontend = a.frontend
  | _ => True

/-- The frame `g` of the record `r` has come to `x`: its forwarder has published it under
the present keys. -/
structure Arrives (p : Platform) (names : Bool → Identity) (s : Pair) (x : Bool) (g : Frame)
    (r : Sent) : Prop where
  sent : r ∈ s.sent
  origin : r.origin = !x
  receiver : r.call.receiver = (names x).hostname
  accepts : aesAccepts (s.host x).agent.key (s.host x).agent.iv = true
  carries : ∃ plain, Layered p (names !x) r.now r.agent r.call plain ∧
    Carries p (names !x) r.call plain (names x).hostname (names x) (s.host x).agent.key
      (s.host x).agent.iv g

/-- `json.loads` reads what a JSON text says, at least up to a hundred nested brackets. -/
def ReadsJson (loads : PyText.Text → Option Json) : Prop :=
  ∃ float, ∀ text j, JsonText.loads float 100 text = some j → loads text = some j

/-- The network delivers what was sent, late, again or never; new keys have 16 bytes. -/
def Faithful (p : Platform) (names : Bool → Identity) (s : Pair) : Act → Prop
  | .receive x world g => (∃ r, Arrives p names s x g r) ∧ ReadsJson world.loads ∧
      world.freshKeys.1.length = 16 ∧ world.freshKeys.2.length = 16
  | .table x op => op.Proper names x (s.host x).agent
  | _ => True

def Sized (k i : Bytes) : Prop := k.length = 16 ∧ i.length = 16

/-- The agent `y` has answered a request of the other one with these keys. -/
def Answered (names : Bool → Identity) (sent : List Sent) (y : Bool) (k i : Bytes) : Prop :=
  Sized k i ∧ ∃ r ∈ sent, r.origin = y ∧ r.call = nukCall k i (names !y).hostname

/-- What an entry of `x` has from answers, it has from answers that the other agent has
given since it last forgot a key. -/
structure Current (names : Bool → Identity) (s : Pair) (x : Bool) (e : Neighbor) : Prop where
  key : ∀ i, Answered names s.sent (!x) e.unicastSendKey i →
    ∃ i', Answered names (s.recent !x) (!x) e.unicastSendKey i'
  iv : ∀ k, Answered names s.sent (!x) k e.unicastSendIv →
    ∃ k', Answered names (s.recent !x) (!x) k' e.unicastSendIv

/-- The condition: a message goes out only under keys that the other agent has not
forgotten, and an agent does not forget a key that it is about to send again. -/
def Renews (names : Bool → Identity) (s : Pair) : Act → Prop
  | .sender x t _ => ∀ message, (s.host x).senders t = .send message (names !x).hostname →
      ∀ e, (s.host x).agent.globalNeighborList.lookup (names !x).hostname = some e →
        Current names s x e
  | .table x op =>
      forgets (names !x).hostname (s.host x).agent (op.apply (names x) (s.host x).agent) = true →
        ∀ host k i, (s.host x).thread ≠ .reply host k i false
  | _ => True

/-- Two agents with names of their own and RSA keys of 1024 bits. -/
structure Peers (names : Bool → Identity) : Prop where
  distinct : ∀ x, (names x).hostname ≠ (names !x).hostname
  named : ∀ x, (names x).hostname ≠ "old_keys" ∧ (names x).hostname ≠ broadcast
  sized : ∀ x, 2 ^ 1023 ≤ (names x).rsaKey.n ∧ (names x).rsaKey.n < 2 ^ 1024

/-- The own entry is in the table, and the agent is not connected to itself as to a
neighbor. -/
structure Home (me : Identity) (a : Agent) : Prop where
  present : (a.globalNeighborList.lookup me.hostname).isSome = true
  unlinked : (me.hostname, Port.fwd) ∉ a.frontend

/-- Two agents that have not talked yet; they may or may not know each other. -/
structure Started (names : Bool → Identity) (s : Pair) : Prop where
  sent : s.sent = []
  recent : ∀ x, s.recent x = []
  thread : ∀ x, (s.host x).thread = .idle
  home : ∀ x, Home (names x) (s.host x).agent
  blank : ∀ x e, (s.host x).agent.globalNeighborList.lookup (names !x).hostname = some e →
    Blank (names !x).rsaKey.publickey e

end Nxwlan.SessionAgreement
