import Nxwlan.FloodNetwork

/-!
How far a message gets. Every copy carries a time to live that pays for the
hops from its source, whatever else is on its way and in whichever order
copies arrive; a unicast is published by its two ends only.
-/
namespace Nxwlan.FloodScope

open JsonFrames AgentState Forwarder Messaging FloodNetwork
open Relation (ReflTransGen)

variable {p : Platform} {T : Topology} {net net' : Net}

/-- A copy on its way: fresh from its sender, or published by a node that is `k`
hops from the source and so at most `k + 1` hops away here. -/
structure OnWay (T : Topology) (c : Copy) : Prop where
  host : c.frame.host = some (.str c.source)
  receiver : c.frame.receiver = some (.str c.call.receiver)
  ttl : (c.node = c.source ∧ c.frame.ttl = some (.int c.call.initialTtl)) ∨
    ∃ k : ℕ, T.graph.edist c.source c.node ≤ k + 1 ∧
      c.frame.ttl = some (.int (c.call.initialTtl - 1 - k))

/-- A published frame has hops left after paying for at least its distance, and
its publisher is one of the nodes it concerns. -/
structure InScope (T : Topology) (c : Copy) : Prop where
  host : c.frame.host = some (.str c.source)
  receiver : c.frame.receiver = some (.str c.call.receiver)
  ttl : ∃ k : ℕ, T.graph.edist c.source c.node ≤ k ∧
    c.frame.ttl = some (.int (c.call.initialTtl - 1 - k)) ∧ 1 ≤ c.call.initialTtl - 1 - k
  addressed : c.node = c.source ∨ c.call.receiver = broadcast ∨ c.call.receiver = c.node

structure Inv (T : Topology) (net : Net) : Prop where
  names : ∀ v, (net.nodes v).me.hostname = v
  flight : ∀ c ∈ net.flight, OnWay T c
  published : ∀ c ∈ net.published, InScope T c
  delivered : ∀ c ∈ net.delivered, c ∈ net.published

theorem edist_le_of_adj {u v s : String} {k : ℕ} (hadj : v ∈ T.links u)
    (h : T.graph.edist s u ≤ k) : T.graph.edist s v ≤ k + 1 := by
  have hone : T.graph.edist u v = 1 := SimpleGraph.edist_eq_one_iff_adj.mpr hadj
  calc
    T.graph.edist s v ≤ T.graph.edist s u + T.graph.edist u v := SimpleGraph.edist_triangle
    _ ≤ k + 1 := by
      rw [hone]
      exact add_le_add_left h 1

theorem spread_onWay {c : Copy} (hc : InScope T c) : ∀ c' ∈ spread T c, OnWay T c' := by
  intro c' hc'
  obtain ⟨v, hv, rfl⟩ := List.mem_map.mp hc'
  obtain ⟨k, hdist, httl, -⟩ := hc.ttl
  exact ⟨hc.host, hc.receiver, Or.inr ⟨k, edist_le_of_adj hv hdist, httl⟩⟩

/-- The forwarder of a node keeps a copy that it publishes in scope. -/
theorem published_inScope {c : Copy} {me : Identity} {w : Waits} {a : Agent} {cache : FwdCache}
    {g : Frame} (hname : me.hostname = c.node) (hc : OnWay T c)
    (hg : (initForwardingTTL p me w a cache c.frame).published = some g) :
    InScope T { c with frame := g } := by
  obtain ⟨hhost, -, hrec, haddr, raw, ttl, hraw, hint, httl, hpos⟩ :=
    PublishedFrames.published_fields hg
  refine ⟨hhost.trans hc.host, hrec.trans hc.receiver, ?_, ?_⟩
  · rcases hc.ttl with ⟨hnode, hfresh⟩ | ⟨k, hdist, hk⟩
    · have hval : ttl = c.call.initialTtl := by
        rw [hraw, Option.some.injEq] at hfresh
        subst hfresh
        simpa [Json.toInt] using hint.symm
      refine ⟨0, by simp [hnode], ?_, by simp; omega⟩
      rw [httl, hval]
      simp
    · have hval : ttl = c.call.initialTtl - 1 - k := by
        rw [hraw, Option.some.injEq] at hk
        subst hk
        simpa [Json.toInt] using hint.symm
      refine ⟨k + 1, by exact_mod_cast hdist, ?_, by push_cast; omega⟩
      rw [httl, hval]
      push_cast
      congr 2
      omega
  · unfold addressed at haddr
    simp only [hc.host, hc.receiver, field] at haddr
    split at haddr
    · rename_i hown
      left
      have : c.source = me.hostname := by simpa using hown
      exact (this.trans hname).symm
    · simp only [Except.map, Except.ok.injEq, Bool.or_eq_true, Json.isStr_iff,
        Json.str.injEq] at haddr
      rcases haddr with hb | hr
      · exact Or.inr (Or.inl hb)
      · exact Or.inr (Or.inr (hr.trans hname))

/-- The frame of a send is on its way with the send's receiver and ttl. -/
theorem sendFloodingMessage_onWay {me : Identity} {now : ℤ} {a a' : Agent} {call : Call}
    {f : Frame} {message key iv : Base64.Bytes} {msg_type sub_type : String}
    (h : sendFloodingMessage p me now a message call.initialTtl msg_type sub_type key iv
      call.receiver = (a', .ok (some f))) :
    OnWay T ⟨me.hostname, call, f, me.hostname⟩ := by
  unfold sendFloodingMessage at h
  dsimp only at h
  split at h
  · simp at h
  · simp at h
  · split at h
    · simp only [Prod.mk.injEq, Except.ok.injEq, Option.some.injEq] at h
      obtain ⟨-, rfl⟩ := h
      exact ⟨rfl, rfl, Or.inl ⟨rfl, rfl⟩⟩
    · simp at h

theorem perform_onWay {me : Identity} {now : ℤ} {a a' : Agent} {call : Call} {f : Frame}
    (h : call.perform p me now a = (a', .ok (some f))) :
    OnWay T ⟨me.hostname, call, f, me.hostname⟩ := by
  cases call with
  | sendToNeighbors message ttl => exact sendFloodingMessage_onWay h
  | sendToNeighbor message nodeID => exact sendFloodingMessage_onWay h
  | sendCtrlToNeighbors message sub_type key iv nodeID => exact sendFloodingMessage_onWay h

theorem send_inv (host : String) (call : Call) (now : ℤ) (h : Inv T net) :
    Inv T (net.send p host call now) := by
  refine ⟨?_, ?_, h.published, h.delivered⟩
  · intro v
    refine Eq.trans (update_field (fun node => node.me.hostname) ?_ v) (h.names v)
    rfl
  · intro c hc
    simp only [Net.send, List.mem_append] at hc
    rcases hc with hc | hc
    · exact h.flight c hc
    · split at hc
      · rename_i f hf
        simp only [List.mem_cons, List.not_mem_nil, or_false] at hc
        subst hc
        have hon := perform_onWay (T := T) (Prod.ext rfl hf)
        rwa [h.names host] at hon
      · simp at hc

theorem arrive_inv {before after : List Copy} {c : Copy} (w : Waits)
    (hc : net.flight = before ++ c :: after) (h : Inv T net) :
    Inv T (net.arrive p T c (before ++ after) w) := by
  have hon : OnWay T c := h.flight c ((mem_flight_iff hc c).mpr (Or.inl rfl))
  have hrest : ∀ c' ∈ before ++ after, OnWay T c' := by
    intro c' hc'
    exact h.flight c' ((mem_flight_iff hc c').mpr (Or.inr hc'))
  unfold Net.arrive
  dsimp only
  split
  · have hsent : ∀ c' ∈ (initForwardingTTL p (net.nodes c.node).me w (net.nodes c.node).agent
        (net.nodes c.node).cache c.frame).published.toList.map (fun g => { c with frame := g }),
        InScope T c' := by
      intro c' hc'
      obtain ⟨g, hg, rfl⟩ := List.mem_map.mp hc'
      exact published_inScope (h.names c.node) hon (Option.mem_toList.mp hg)
    refine ⟨?_, ?_, ?_, ?_⟩
    · intro v
      refine Eq.trans (update_field (fun node => node.me.hostname) ?_ v) (h.names v)
      rfl
    · intro c' hc'
      rcases List.mem_append.mp hc' with hold | hnew
      · exact hrest c' hold
      · obtain ⟨d, hd, hmem⟩ := List.mem_flatMap.mp hnew
        exact spread_onWay (hsent d hd) c' hmem
    · intro c' hc'
      rcases List.mem_append.mp hc' with hold | hnew
      · exact h.published c' hold
      · exact hsent c' hnew
    · intro c' hc'
      exact List.mem_append_left _ (h.delivered c' hc')
  · exact ⟨h.names, hrest, h.published, h.delivered⟩

theorem receive_inv {c : Copy} (hc : c ∈ net.published) (h : Inv T net) :
    Inv T (net.receive p c) := by
  unfold Net.receive
  dsimp only
  split
  · refine ⟨h.names, h.flight, h.published, ?_⟩
    intro c' hc'
    simp only [List.mem_append, List.mem_cons, List.not_mem_nil, or_false] at hc'
    rcases hc' with hold | rfl
    · exact h.delivered c' hold
    · exact hc
  · exact h

theorem step_inv (hs : Step p T net net') (h : Inv T net) : Inv T net' := by
  cases hs with
  | send host call now => exact send_inv host call now h
  | arrive before after c w hc => exact arrive_inv w hc h
  | receive c hc => exact receive_inv hc h
  | others host agent =>
    refine ⟨?_, h.flight, h.published, h.delivered⟩
    intro v
    refine Eq.trans (update_field (fun node => node.me.hostname) ?_ v) (h.names v)
    rfl

theorem initial_inv (h : net.Initial) : Inv T net := by
  refine ⟨h.names, ?_, ?_, ?_⟩
  · simp [h.flight]
  · simp [h.published]
  · simp [h.delivered]

theorem run_inv (hrun : ReflTransGen (Step p T) net net') (h : net.Initial) : Inv T net' := by
  induction hrun with
  | refl => exact initial_inv h
  | tail _ hstep ih => exact step_inv hstep ih

/-- Flood scope. A broadcast with hop count `n` is published, and so delivered,
within `n` hops only, with a time to live between one and `n + 1 - d` at
distance `d`; a unicast is published by its sender and its receiver only. -/
theorem flood_scope (p : Platform) (T : Topology) (net net' : Net) (h : net.Initial)
    (hrun : ReflTransGen (Step p T) net net') :
    (∀ c ∈ net'.published, ∀ (msg : Base64.Bytes) (n : ℕ), c.call = .sendToNeighbors msg n →
      T.graph.edist c.source c.node ≤ n ∧
        ∃ t : ℕ, c.frame.ttl = some (.int t) ∧ 1 ≤ t ∧
          (t : ℕ∞) + T.graph.edist c.source c.node ≤ n + 1) ∧
    (∀ c ∈ net'.delivered, ∀ (msg : Base64.Bytes) (n : ℕ), c.call = .sendToNeighbors msg n →
      T.graph.edist c.source c.node ≤ n) ∧
    (∀ c ∈ net'.published, c.call.receiver ≠ broadcast →
      c.node = c.source ∨ c.node = c.call.receiver) := by
  have hinv := run_inv hrun h
  have hscope : ∀ c ∈ net'.published, ∀ (msg : Base64.Bytes) (n : ℕ),
      c.call = .sendToNeighbors msg n → T.graph.edist c.source c.node ≤ n ∧
        ∃ t : ℕ, c.frame.ttl = some (.int t) ∧ 1 ≤ t ∧
          (t : ℕ∞) + T.graph.edist c.source c.node ≤ n + 1 := by
    intro c hc msg n hcall
    obtain ⟨k, hdist, httl, hpos⟩ := (hinv.published c hc).ttl
    simp only [hcall, Call.initialTtl] at httl hpos
    have hk : k ≤ n := by omega
    refine ⟨hdist.trans (by exact_mod_cast hk), n + 1 - k, ?_, by omega, ?_⟩
    · rw [httl]
      congr 2
      omega
    · calc
        ((n + 1 - k : ℕ) : ℕ∞) + T.graph.edist c.source c.node ≤ ((n + 1 - k : ℕ) : ℕ∞) + k :=
          add_le_add_right hdist _
        _ = n + 1 := by
          have hsum : n + 1 - k + k = n + 1 := by omega
          exact_mod_cast hsum
  refine ⟨hscope, ?_, ?_⟩
  · intro c hc msg n hcall
    exact (hscope c (hinv.delivered c hc) msg n hcall).1
  · intro c hc huni
    rcases (hinv.published c hc).addressed with hs | hb | hr
    · exact Or.inl hs
    · exact absurd hb huni
    · exact Or.inr hr.symm

/-- Three access points in a row. -/
def row : Topology :=
  .ofEdges [("10.0.0.1", "10.0.0.2"), ("10.0.0.2", "10.0.0.3")] (by decide)

/-- The first access point sends a broadcast over two hops. -/
def rowSent : Net :=
  (uniformNet row).send listPlatform "10.0.0.1" (.sendToNeighbors [104, 105] 2) 0

/-- Its own forwarder publishes the frame. -/
def rowPublished : Net := rowSent.arriveAt listPlatform row 0 PublishedFrames.quietWaits

/-- The second access point relays it, and then the third one. -/
def rowRelayed : Net := rowPublished.arriveAt listPlatform row 0 PublishedFrames.quietWaits

def rowCrossed : Net := rowRelayed.arriveAt listPlatform row 1 PublishedFrames.quietWaits

theorem flood_scope_row :
    rowCrossed.published.map (fun c => (c.node, c.frame.ttl)) =
      [("10.0.0.1", some (.int 3)), ("10.0.0.2", some (.int 2)), ("10.0.0.3", some (.int 1))] ∧
    ∀ c ∈ rowCrossed.published, c.call = .sendToNeighbors [104, 105] 2 →
      row.graph.edist c.source c.node ≤ 2 := by
  have hsend : Step listPlatform row (uniformNet row) rowSent := Step.send _ _ _ _
  have hown : Step listPlatform row rowSent rowPublished := step_arriveAt _ _ _ _ _ (by decide)
  have hsecond : Step listPlatform row rowPublished rowRelayed :=
    step_arriveAt _ _ _ _ _ (by decide)
  have hthird : Step listPlatform row rowRelayed rowCrossed := step_arriveAt _ _ _ _ _ (by decide)
  have hrun := (((ReflTransGen.single hsend).tail hown).tail hsecond).tail hthird
  refine ⟨rfl, fun c hc hcall => ?_⟩
  exact ((flood_scope listPlatform row _ rowCrossed (uniformNet_initial row) hrun).1 c hc
    [104, 105] 2 hcall).1

end Nxwlan.FloodScope
