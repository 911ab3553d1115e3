import Nxwlan.ForwarderRuns
import Nxwlan.Messaging
import Mathlib.Combinatorics.SimpleGraph.Metric

/-!
Agents that hear each other over a graph of links. A sent frame goes to the
sender's own forwarder; a published frame goes to the forwarder of every
neighbor and to the publisher's own receive loop. Copies may arrive in any
order, and between any two steps other threads may change an agent's state.
-/
namespace Nxwlan.FloodNetwork

open JsonFrames AgentState Forwarder Messaging

/-- Who is connected to whom: the neighbors whose frontend hears a host. -/
structure Topology where
  links : String → List String
  symm : ∀ u v, v ∈ links u → u ∈ links v
  irrefl : ∀ u, u ∉ links u

def Topology.graph (T : Topology) : SimpleGraph String where
  Adj u v := v ∈ T.links u
  symm := ⟨fun u v h => T.symm u v h⟩
  loopless := ⟨fun u h => T.irrefl u h⟩

/-- The topology with the given links. -/
def Topology.ofEdges (edges : List (String × String)) (hne : ∀ e ∈ edges, e.1 ≠ e.2) :
    Topology where
  links u := edges.filterMap (fun e =>
    if e.1 = u then some e.2 else if e.2 = u then some e.1 else none)
  symm := by
    intro u v h
    obtain ⟨e, he, hv⟩ := List.mem_filterMap.mp h
    refine List.mem_filterMap.mpr ⟨e, he, ?_⟩
    have hends := hne e he
    split_ifs at hv with h₁ h₂
    · obtain rfl := Option.some.inj hv
      rw [if_neg hends, if_pos rfl, h₁]
    · obtain rfl := Option.some.inj hv
      rw [if_pos rfl, h₂]
  irrefl := by
    intro u h
    obtain ⟨e, he, hu⟩ := List.mem_filterMap.mp h
    have hends := hne e he
    split_ifs at hu with h₁ h₂
    · exact hends (h₁.trans (Option.some.inj hu).symm)
    · exact h₁ (Option.some.inj hu)

/-- Every link leads to an end of one of the given links. -/
theorem Topology.mem_ofEdges {edges : List (String × String)} {hne : ∀ e ∈ edges, e.1 ≠ e.2}
    {u v : String} (h : v ∈ (Topology.ofEdges edges hne).links u) :
    ∃ e ∈ edges, v = e.1 ∨ v = e.2 := by
  obtain ⟨e, he, hv⟩ := List.mem_filterMap.mp h
  refine ⟨e, he, ?_⟩
  split_ifs at hv
  · exact Or.inr (Option.some.inj hv).symm
  · exact Or.inl (Option.some.inj hv).symm

structure Node where
  me : Identity
  agent : Agent
  cache : FwdCache
  up : Bool := true

/-- A frame together with the send it stems from. While it is on its way `node`
is where it goes; once published, `node` is the publisher. -/
structure Copy where
  source : String
  call : Call
  frame : Frame
  node : String

structure Net where
  nodes : String → Node
  flight : List Copy
  published : List Copy
  delivered : List Copy

/-- What an update of one node leaves as it was there it leaves everywhere. -/
theorem update_field {α : Type} {nodes : String → Node} {host : String} {node : Node}
    (proj : Node → α) (h : proj node = proj (nodes host)) (v : String) :
    proj (Function.update nodes host node v) = proj (nodes v) := by
  by_cases hv : v = host
  · subst hv
    rw [Function.update_self, h]
  · rw [Function.update_of_ne hv]

/-- The copies on their way are the arriving one and the rest. -/
theorem mem_flight_iff {net : Net} {before after : List Copy} {c : Copy}
    (hc : net.flight = before ++ c :: after) (d : Copy) :
    d ∈ net.flight ↔ d = c ∨ d ∈ before ++ after := by
  rw [hc]
  simp only [List.mem_append, List.mem_cons]
  tauto

/-- The send of `call` at `host`, which leaves the resulting frame, if there is
one, in front of the sender's own forwarder. -/
def Net.send (p : Platform) (net : Net) (host : String) (call : Call) (now : ℤ) : Net :=
  let node := net.nodes host
  let r := call.perform p node.me now node.agent
  { net with
    nodes := Function.update net.nodes host { node with agent := r.1 }
    flight := net.flight ++
      match r.2 with
      | .ok (some f) => [⟨host, call, f, host⟩]
      | _ => [] }

/-- The copies of a frame published at `c.node`. -/
def spread (T : Topology) (c : Copy) : List Copy :=
  (T.links c.node).map (fun v => { c with node := v })

/-- A copy reaches its node and is handled by the forwarder there, unless that
has left its loop. `rest` are the copies still on their way. -/
def Net.arrive (p : Platform) (T : Topology) (net : Net) (c : Copy) (rest : List Copy)
    (w : Waits) : Net :=
  let node := net.nodes c.node
  if node.up then
    let o := initForwardingTTL p node.me w node.agent node.cache c.frame
    let sent := o.published.toList.map (fun g => { c with frame := g })
    { net with
      nodes := Function.update net.nodes c.node
        { node with
          agent := o.agent, cache := o.cache, up := !o.stop.any ForwarderRuns.Stop.isFinal }
      flight := rest ++ sent.flatMap (spread T)
      published := net.published ++ sent }
  else { net with flight := rest }

/-- The receive loop of a publisher handles one of its own publications. -/
def Net.receive (p : Platform) (net : Net) (c : Copy) : Net :=
  let node := net.nodes c.node
  match receiveMessage p node.me node.agent c.frame with
  | .callback _ => { net with delivered := net.delivered ++ [c] }
  | _ => net

inductive Step (p : Platform) (T : Topology) : Net → Net → Prop
  | send (net : Net) (host : String) (call : Call) (now : ℤ) :
      Step p T net (net.send p host call now)
  | arrive (net : Net) (before after : List Copy) (c : Copy) (w : Waits)
      (hc : net.flight = before ++ c :: after) :
      Step p T net (net.arrive p T c (before ++ after) w)
  | receive (net : Net) (c : Copy) (hc : c ∈ net.published) :
      Step p T net (net.receive p c)
  | others (net : Net) (host : String) (agent : Agent) :
      Step p T net { net with
        nodes := Function.update net.nodes host { net.nodes host with agent := agent } }

/-- The arrival of the copy at position `i` of those on their way. -/
def Net.arriveAt (p : Platform) (T : Topology) (net : Net) (i : ℕ) (w : Waits) : Net :=
  match net.flight[i]? with
  | none => net
  | some c => net.arrive p T c (net.flight.eraseIdx i) w

theorem arriveAt_split (p : Platform) (T : Topology) (net : Net) (i : ℕ) (w : Waits)
    (hi : i < net.flight.length) :
    ∃ before c after, net.flight = before ++ c :: after ∧ net.flight[i]? = some c ∧
      net.arriveAt p T i w = net.arrive p T c (before ++ after) w := by
  refine ⟨net.flight.take i, net.flight.get ⟨i, hi⟩, net.flight.drop (i + 1), ?_, ?_, ?_⟩
  · rw [List.get_eq_getElem, List.getElem_cons_drop, List.take_append_drop]
  · exact List.getElem?_eq_getElem hi
  · simp [Net.arriveAt, List.getElem?_eq_getElem hi, List.eraseIdx_eq_take_drop_succ]

theorem step_arriveAt (p : Platform) (T : Topology) (net : Net) (i : ℕ) (w : Waits)
    (hi : i < net.flight.length) : Step p T net (net.arriveAt p T i w) := by
  obtain ⟨before, c, after, hflight, -, heq⟩ := arriveAt_split p T net i w hi
  rw [heq]
  exact Step.arrive net before after c w hflight

/-- Every node answers to its own name, and nothing has been sent. -/
structure Net.Initial (net : Net) : Prop where
  names : ∀ v, (net.nodes v).me.hostname = v
  flight : net.flight = []
  published : net.published = []
  delivered : net.delivered = []

/-- The table entry of `u` when all agents use one key, one vector and one RSA
modulus. -/
def uniformEntry (u : String) : Neighbor :=
  { ipAddress := u, encryptionKey := PublishedFrames.sampleKey,
    encryptionIV := PublishedFrames.sampleKey, pubKey := some ⟨33, 3⟩, timestampLastKCM := 0 }

/-- Agents that have joined themselves and their neighbors, before any send. -/
def uniformNet (T : Topology) : Net where
  nodes v :=
    { me := ⟨v, ⟨33, 3, 7⟩⟩
      agent :=
        { key := PublishedFrames.sampleKey, iv := PublishedFrames.sampleKey,
          globalNeighborList :=
            (v :: T.links v).foldr (fun u list => list.insert u (uniformEntry u)) ∅ }
      cache := ∅ }
  flight := []
  published := []
  delivered := []

theorem uniformNet_initial (T : Topology) : (uniformNet T).Initial :=
  ⟨fun _ => rfl, rfl, rfl, rfl⟩

end Nxwlan.FloodNetwork
