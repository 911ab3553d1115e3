import Nxwlan.DistChan
import Nxwlan.FloodNetwork

/-!
Nodes that run the distchan application. Each of them says now and then on which channel it
is and what its load is, and every message that it takes may make it change its channel.
Messages may be lost, repeated and taken in any order. Two neighbors that are the heaviest
ones of each other do not fall back into a conflict, as long as either of them knows the
channel of the other when it takes a message.
-/
namespace Nxwlan.ChannelRuns

open DistChan FirstMinima
open ReadinessToServe (DictOrder)
open FloodNetwork (Topology)
open RoundedNumbers

section Model

/-- The application of a node, and the channel of its radio. -/
structure Node where
  app : App
  channel : ℤ

/-- All messages that were ever sent, with the node that hears them. -/
structure Net where
  nodes : String → Node
  sent : List (String × Message)

/-- `max(self.min_load, self.getNetworkLoad())`, for loads that do not change. -/
def loadOf (load : String → Double) (v : String) : Double := max min_load (load v)

/-- What `run` does once. -/
def initPhase (app : App) : App :=
  { app with
    Hc := setAll (fun _ => 0) app.ch_lst app.Hc
    Sc := setAll (fun _ => 0) app.ch_lst app.Sc
    Mc := setAll (fun _ => 0) app.ch_lst app.Mc }

def Net.setNode (net : Net) (v : String) (node : Node) : Net :=
  { net with nodes := Function.update net.nodes v node }

/-- A round of `run`. -/
def Net.sendToNeighbors (T : Topology) (load : String → Double) (net : Net) (v : String) : Net where
  nodes := Function.update net.nodes v
    { net.nodes v with app := { (net.nodes v).app with my_rf_channel := (net.nodes v).channel } }
  sent := net.sent ++ (T.links v).map (fun w => (w, ⟨v, (net.nodes v).channel, loadOf load v⟩))

/-- The radio goes to the channel that it is told. -/
def Net.rx_cb (load : String → Double) (net : Net) (u : String) (msg : Message)
    (order : DictOrder String) (getChannelAgain : ℤ) : Net :=
  let node := net.nodes u
  match DistChan.rx_cb node.app ⟨order, load u, node.channel, getChannelAgain⟩ msg with
  | .error _ => net
  | .ok out => net.setNode u ⟨out.app, out.setChannel.getD node.channel⟩

/-- The message in the place `i` is taken by the node that hears it. -/
inductive Event where
  | initPhase (v : String)
  | round (v : String)
  | receive (i : ℕ) (order : DictOrder String) (getChannelAgain : ℤ)

def Net.handle (T : Topology) (load : String → Double) (net : Net) : Event → Net
  | .initPhase v => net.setNode v { net.nodes v with app := ChannelRuns.initPhase (net.nodes v).app }
  | .round v => net.sendToNeighbors T load v
  | .receive i order getChannelAgain =>
      match net.sent[i]? with
      | none => net
      | some (u, msg) => net.rx_cb load u msg order getChannelAgain

def Net.run (T : Topology) (load : String → Double) (net : Net) (events : List Event) : Net :=
  events.foldl (Net.handle T load) net

/-- Nothing was sent, and no report was taken. -/
structure Net.Initial (net : Net) : Prop where
  nbMap : ∀ v, (net.nodes v).app.nbMap = ∅
  sent : net.sent = []

/-- `u` takes the message `msg`. -/
def Takes (net : Net) (event : Event) (u : String) (msg : Message) : Prop :=
  ∃ i order getChannelAgain, event = .receive i order getChannelAgain ∧ net.sent[i]? = some (u, msg)

/-- Whenever `u` takes a message, it knows the channel of `v`. -/
def Informed (u v : String) (net : Net) (event : Event) : Prop :=
  ∀ msg, Takes net event u msg →
    (((net.nodes u).app.nbMap.insert msg.originator ⟨msg.load, msg.ch⟩).lookup v).map NbInfo.ch =
      some (net.nodes v).channel

/-- No other edge of `u` is heavier than the one to `v`. -/
structure Heaviest (T : Topology) (load : String → Double) (u v : String) : Prop where
  link : v ∈ T.links u
  most : ∀ w ∈ T.links u, loadOf load w ≤ loadOf load v

end Model

section Call

variable {app : App} {around : Surroundings} {msg : Message} {my_load : Double} {nbs : Multiset NbInfo}
  {nb : NbInfo} {ch : ℤ}

theorem finish_rest (app : App) (around : Surroundings) (best_ch : Option ℤ) :
    (app.finish around best_ch).app.nbMap = app.nbMap ∧
      (app.finish around best_ch).app.ch_lst = app.ch_lst ∧
      (app.finish around best_ch).setChannel =
        (app.finish around best_ch).best_ch.filter (fun ch => around.getChannel ≠ ch) := by
  rw [App.finish]
  split
  · rename_i hnone
    exact ⟨rfl, rfl, hnone.symm⟩
  · rename_i hsome
    exact ⟨rfl, rfl, hsome.symm⟩

/-- What a call leaves besides its dictionaries. -/
theorem rx_cb_ok (app : App) (around : Surroundings) (msg : Message) :
    ∃ out, rx_cb app around msg = .ok out ∧
      out.app.nbMap = app.nbMap.insert msg.originator ⟨msg.load, msg.ch⟩ ∧
      out.app.ch_lst = app.ch_lst ∧
      out.setChannel = out.best_ch.filter (fun ch => around.getChannel ≠ ch) ∧
      out.best_ch = (app.ch_lst.foldl (better (sumOn (ownLoad around) (walked app around msg))
        (Unmarked (ownLoad around) (reportsAfter app msg))) (none, 1000000)).1 := by
  obtain ⟨out, hout, hbest, -⟩ := rx_cb_best app around msg
  obtain ⟨app', best_ch, rfl, hnbMap, hch_lst⟩ : ∃ app' best_ch,
      App.finish app' around best_ch = out ∧
        app'.nbMap = app.nbMap.insert msg.originator ⟨msg.load, msg.ch⟩ ∧
          app'.ch_lst = app.ch_lst := by
    unfold rx_cb at hout
    simp only [bind, Except.bind, pure, Except.pure] at hout
    split at hout
    · cases hout
    · split at hout
      · cases hout
      · exact ⟨_, _, Except.ok.inj hout, rfl, rfl⟩
  obtain ⟨hkeep, hlist, hset⟩ := finish_rest app' around best_ch
  exact ⟨_, hout, hkeep.trans hnbMap, hlist.trans hch_lst, hset, hbest⟩

end Call

section Runs

variable {T : Topology} {load : String → Double} {net₀ net : Net} {u v : String} {event : Event}
  {ch_lst : List ℤ}

/-- Reports are true about loads, come from neighbors, and nobody gets other channels. -/
structure Sound (T : Topology) (load : String → Double) (net₀ net : Net) : Prop where
  sent : ∀ w msg, (w, msg) ∈ net.sent →
    msg.originator ∈ T.links w ∧ msg.load = loadOf load msg.originator
  known : ∀ w k nb, (net.nodes w).app.nbMap.lookup k = some nb →
    k ∈ T.links w ∧ nb.load = loadOf load k
  ch_lst : ∀ w, (net.nodes w).app.ch_lst = (net₀.nodes w).app.ch_lst

theorem Net.Initial.sound (h : net.Initial) : Sound T load net net where
  sent w msg hmem := by
    rw [h.sent] at hmem
    cases hmem
  known w k nb hlook := by
    rw [h.nbMap] at hlook
    cases hlook
  ch_lst _ := rfl

/-- A node that keeps its reports and its list of channels. -/
theorem Sound.setNode (h : Sound T load net₀ net) {node : Node} {sent : List (String × Message)}
    (hnbMap : ∀ k nb, node.app.nbMap.lookup k = some nb → k ∈ T.links v ∧ nb.load = loadOf load k)
    (hch_lst : node.app.ch_lst = (net.nodes v).app.ch_lst)
    (hsent : ∀ w msg, (w, msg) ∈ sent → msg.originator ∈ T.links w ∧
      msg.load = loadOf load msg.originator) :
    Sound T load net₀ { nodes := Function.update net.nodes v node, sent := sent } := by
  refine ⟨hsent, ?_, ?_⟩
  · intro w k nb hlook
    dsimp only at hlook
    by_cases hw : w = v
    · subst hw
      rw [Function.update_self] at hlook
      exact hnbMap k nb hlook
    · rw [Function.update_of_ne hw] at hlook
      exact h.known w k nb hlook
  · intro w
    dsimp only
    by_cases hw : w = v
    · subst hw
      rw [Function.update_self, hch_lst, h.ch_lst]
    · rw [Function.update_of_ne hw, h.ch_lst]

/-- The reports of a node after a message that it may take. -/
theorem Sound.reported (h : Sound T load net₀ net) {msg : Message} (hmem : (u, msg) ∈ net.sent)
    {k : String} {nb : NbInfo}
    (hlook : ((net.nodes u).app.nbMap.insert msg.originator ⟨msg.load, msg.ch⟩).lookup k = some nb) :
    k ∈ T.links u ∧ nb.load = loadOf load k := by
  by_cases hk : k = msg.originator
  · subst hk
    rw [AList.lookup_insert] at hlook
    obtain rfl := Option.some.inj hlook
    exact h.sent u msg hmem
  · rw [AList.lookup_insert_ne hk] at hlook
    exact h.known u k nb hlook

/-- The call of a node, as a step of the net. -/
theorem rx_cb_node (load : String → Double) (net : Net) (u : String) (msg : Message)
    (order : DictOrder String) (getChannelAgain : ℤ) :
    ∃ out, DistChan.rx_cb (net.nodes u).app
        ⟨order, load u, (net.nodes u).channel, getChannelAgain⟩ msg = .ok out ∧
      net.rx_cb load u msg order getChannelAgain =
        net.setNode u ⟨out.app, out.best_ch.getD (net.nodes u).channel⟩ ∧
      out.app.nbMap = (net.nodes u).app.nbMap.insert msg.originator ⟨msg.load, msg.ch⟩ ∧
      out.app.ch_lst = (net.nodes u).app.ch_lst := by
  obtain ⟨out, hout, hnbMap, hch_lst, hset, -⟩ := rx_cb_ok (net.nodes u).app
    ⟨order, load u, (net.nodes u).channel, getChannelAgain⟩ msg
  have hchannel : out.setChannel.getD (net.nodes u).channel =
      out.best_ch.getD (net.nodes u).channel := by
    rw [hset]
    cases out.best_ch with
    | none => rfl
    | some ch =>
      by_cases hch : (net.nodes u).channel = ch
      · simp [Option.filter, hch]
      · simp [Option.filter, hch]
  refine ⟨out, hout, ?_, hnbMap, hch_lst⟩
  simp only [Net.rx_cb, hout, hchannel]

theorem Sound.handle (h : Sound T load net₀ net) (event : Event) :
    Sound T load net₀ (net.handle T load event) := by
  cases event with
  | initPhase v => exact h.setNode (h.known v) rfl h.sent
  | round v =>
    refine h.setNode (h.known v) rfl ?_
    intro w msg hmem
    rcases List.mem_append.mp hmem with hmem | hmem
    · exact h.sent w msg hmem
    · obtain ⟨w', hlink, heq⟩ := List.mem_map.mp hmem
      obtain ⟨rfl, rfl⟩ := Prod.mk.inj heq
      exact ⟨T.symm v w' hlink, rfl⟩
  | receive i order getChannelAgain =>
    simp only [Net.handle]
    split
    · exact h
    · rename_i u msg hi
      obtain ⟨out, -, hnet, hnbMap, hch_lst⟩ := rx_cb_node load net u msg order getChannelAgain
      rw [hnet]
      refine h.setNode ?_ hch_lst h.sent
      intro k nb hlook
      rw [hnbMap] at hlook
      exact h.reported (List.mem_of_getElem? hi) hlook

theorem Sound.run (h : Sound T load net₀ net) (events : List Event) :
    Sound T load net₀ (net.run T load events) := by
  induction events generalizing net with
  | nil => exact h
  | cons event events ih => exact ih (h.handle event)

theorem Heaviest.ne (h : Heaviest T load u v) : u ≠ v := by
  rintro rfl
  exact T.irrefl u h.link

end Runs

theorem sampleOrder_perm (keys : List String) : (id keys).Perm keys := .refl keys

/-- The first node speaks, and the second one hears it. -/
def sampleEvents : List Event := [.round "10.0.0.1", .receive 0 ⟨id, sampleOrder_perm⟩ 6]

end Nxwlan.ChannelRuns
