import Nxwlan.FloodPasses
import Nxwlan.FloodScope

/-!
Whom a broadcast reaches. All agents are correct and every table holds the
current keys of its neighbors. The forwarder suppresses a copy by the id of
its originator alone, so that a copy that came over a detour and has few hops
left can shut out the direct one. Where no suppressed copy has more hops left
than the one published before it, every node within the hop count is reached.
-/
namespace Nxwlan.FloodCoverage

open JsonFrames AgentState Forwarder Messaging FloodNetwork FloodPasses
open Base64 (Bytes)

variable {p : Platform} {T : Topology} {keys : Keys} {o : String} {i : ℤ} {m : Bytes}

/-- The hops that a copy has left. -/
def hops (c : Copy) : ℤ :=
  match c.frame.ttl with
  | some (.int t) => t
  | _ => 0

theorem hops_eq {c : Copy} {u : String} {t : ℤ} (h : c.frame = floodFrame p keys o i m u t) :
    hops c = t := by
  simp [hops, h, floodFrame, initialFrame]

/-- The state of the net while one broadcast of `o` over `n` hops is on its way:
wherever a published copy has a hop left, the next node has published one
with at most one hop less, or the copy is still to arrive there. -/
structure Inv (p : Platform) (T : Topology) (keys : Keys) (o : String) (i : ℤ) (m : Bytes) (n : ℕ)
    (net : Net) : Prop where
  me : ∀ v, (net.nodes v).me = ⟨v, keys.rsaKey v⟩
  up : ∀ v, (net.nodes v).up = true
  flight : ∀ c ∈ net.flight, ∃ u, c.frame = floodFrame p keys o i m u (hops c) ∧
    (u = c.node ∨ u ∈ T.links c.node) ∧ GoodName u
  published : ∀ c ∈ net.published, 1 ≤ hops c ∧
    c.frame = floodFrame p keys o i m c.node (hops c)
  cache : ∀ v, ((∃ c ∈ net.published, c.node = v) ∧
      (net.nodes v).cache.lookup (.str o) = some (.int i)) ∨
    ((∀ c ∈ net.published, c.node ≠ v) ∧ Fresh o i (net.nodes v).cache)
  start : (∃ c ∈ net.published, c.node = o ∧ (n : ℤ) + 1 ≤ hops c) ∨
    ∃ c ∈ net.flight, c.node = o ∧ hops c = n + 2
  hop : ∀ c ∈ net.published, 2 ≤ hops c → ∀ v ∈ T.links c.node,
    (∃ d ∈ net.published, d.node = v ∧ hops c ≤ hops d + 1) ∨
      ∃ d ∈ net.flight, d.node = v ∧ hops d = hops c

/-- The arrival of a copy that meets `ok`, at a node that still knows the keys
when its forwarder gets to the copy. -/
inductive FloodStep (p : Platform) (T : Topology) (keys : Keys) (ok : Net → Copy → Prop) :
    Net → Net → Prop
  | arrive (net : Net) (before after : List Copy) (c : Copy) (w : Waits) (a : Agent)
      (hc : net.flight = before ++ c :: after) (hok : ok net c)
      (hgate : w.gate (net.nodes c.node).agent = some a) (hkeyed : Keyed T keys c.node a) :
      FloodStep p T keys ok net (net.arrive p T c (before ++ after) w)

/-- A node that has published the message before has left it as many hops as it
would leave to `c`. -/
def Timely (net : Net) (c : Copy) : Prop :=
  ∀ d ∈ net.published, d.node = c.node → hops c ≤ hops d + 1

section Steps

variable {n : ℕ} {net : Net} {before after : List Copy} {c : Copy} {w : Waits} {a : Agent}

/-- The copy that the arrival of `c` leads to. -/
def onward (p : Platform) (keys : Keys) (o : String) (i : ℤ) (m : Bytes) (c : Copy) : Copy :=
  { c with frame := floodFrame p keys o i m c.node (hops c - 1) }

theorem hops_onward : hops (onward p keys o i m c) = hops c - 1 := hops_eq rfl

/-- A pass that stops at one of the filters leaves no trace. -/
theorem arrive_stopped {s : Stop} (hup : (net.nodes c.node).up = true)
    (hs : ForwarderRuns.Stop.isFinal s = false)
    (hpass : initForwardingTTL p (net.nodes c.node).me w (net.nodes c.node).agent
        (net.nodes c.node).cache c.frame =
      { agent := (net.nodes c.node).agent, cache := (net.nodes c.node).cache, stop := some s }) :
    net.arrive p T c (before ++ after) w = { net with flight := before ++ after } := by
  have hnode : { net.nodes c.node with up := true } = net.nodes c.node := by
    rw [← hup]
  simp only [Net.arrive, hup, if_true, hpass, Option.any_some, hs, Bool.not_false, hnode,
    Option.toList_none, List.map_nil, List.flatMap_nil, List.append_nil, Function.update_eq_self]

/-- An arriving copy has no hop left or is a duplicate, and leaves no trace, or
it is published with one hop less. -/
theorem arrive_cases (hp : p.Lawful) (ho : GoodName o) (h : Inv p T keys o i m n net)
    (hc : net.flight = before ++ c :: after)
    (hgate : w.gate (net.nodes c.node).agent = some a) (hkeyed : Keyed T keys c.node a) :
    (net.arrive p T c (before ++ after) w = { net with flight := before ++ after } ∧
      (hops c ≤ 1 ∨ ∃ d ∈ net.published, d.node = c.node)) ∨
    (2 ≤ hops c ∧ ∃ a',
      net.arrive p T c (before ++ after) w =
        { net with
          nodes := Function.update net.nodes c.node
            { net.nodes c.node with
              agent := a'
              cache := (net.nodes c.node).cache.insert (.str o) (.int i) }
          flight := before ++ after ++ spread T (onward p keys o i m c)
          published := net.published ++ [onward p keys o i m c] }) := by
  obtain ⟨u, hframe, hfrom, hu⟩ := h.flight c ((mem_flight_iff hc c).mpr (Or.inl rfl))
  rcases lt_or_ge 1 (hops c) with hlive | hdead
  · rcases h.cache c.node with ⟨hpub, hlook⟩ | ⟨-, hfresh⟩
    · refine Or.inl ⟨arrive_stopped (s := .duplicate) (h.up c.node) rfl ?_, Or.inr hpub⟩
      rw [hframe]
      exact pass_duplicate _ (by omega) hlook
    · refine Or.inr ⟨by omega, ?_⟩
      obtain ⟨a', hpass⟩ := pass_publishes (m := m) hp ho hu hlive hfresh hgate hkeyed hfrom
      refine ⟨a', ?_⟩
      rw [← h.me c.node, ← hframe] at hpass
      simp only [Net.arrive, h.up, if_true, hpass, Option.any_none, Bool.not_false,
        Option.toList_some, List.map_cons, List.map_nil, List.flatMap_cons, List.flatMap_nil,
        List.append_nil]
      rfl
  · refine Or.inl ⟨arrive_stopped (s := .expired) (h.up c.node) rfl ?_, Or.inl (by omega)⟩
    rw [hframe]
    exact pass_expired _ (by omega)

theorem drop_inv (h : Inv p T keys o i m n net) (hc : net.flight = before ++ c :: after)
    (htimely : Timely net c) (hdrop : hops c ≤ 1 ∨ ∃ d ∈ net.published, d.node = c.node) :
    Inv p T keys o i m n { net with flight := before ++ after } := by
  have hdone : 2 ≤ hops c → ∃ d ∈ net.published, d.node = c.node ∧ hops c ≤ hops d + 1 := by
    intro hlive
    rcases hdrop with hdead | ⟨d, hd, hnode⟩
    · omega
    · exact ⟨d, hd, hnode, htimely d hd hnode⟩
  refine ⟨h.me, h.up, ?_, h.published, h.cache, ?_, ?_⟩
  · intro d hd
    exact h.flight d ((mem_flight_iff hc d).mpr (Or.inr hd))
  · rcases h.start with hpub | ⟨d, hd, hnode, hops_d⟩
    · exact Or.inl hpub
    · rcases (mem_flight_iff hc d).mp hd with rfl | hd
      · obtain ⟨e, he, henode, hle⟩ := hdone (by omega)
        exact Or.inl ⟨e, he, henode.trans hnode, by omega⟩
      · exact Or.inr ⟨d, hd, hnode, hops_d⟩
  · intro e he hlive v hv
    rcases h.hop e he hlive v hv with hpub | ⟨d, hd, hnode, hops_d⟩
    · exact Or.inl hpub
    · rcases (mem_flight_iff hc d).mp hd with rfl | hd
      · obtain ⟨f, hf, hfnode, hle⟩ := hdone (by omega)
        exact Or.inl ⟨f, hf, hfnode.trans hnode, by omega⟩
      · exact Or.inr ⟨d, hd, hnode, hops_d⟩

theorem publish_inv (hnames : ∀ u v, v ∈ T.links u → GoodName v)
    (h : Inv p T keys o i m n net) (hc : net.flight = before ++ c :: after) (hlive : 2 ≤ hops c)
    (a' : Agent) :
    Inv p T keys o i m n
      { net with
        nodes := Function.update net.nodes c.node
          { net.nodes c.node with
            agent := a'
            cache := (net.nodes c.node).cache.insert (.str o) (.int i) }
        flight := before ++ after ++ spread T (onward p keys o i m c)
        published := net.published ++ [onward p keys o i m c] } := by
  have hnew : onward p keys o i m c ∈ net.published ++ [onward p keys o i m c] := by simp
  refine ⟨?_, ?_, ?_, ?_, ?_, ?_, ?_⟩
  · intro v
    refine Eq.trans (update_field Node.me ?_ v) (h.me v)
    rfl
  · intro v
    refine Eq.trans (update_field Node.up ?_ v) (h.up v)
    rfl
  · intro d hd
    rcases List.mem_append.mp hd with hold | hsent
    · exact h.flight d ((mem_flight_iff hc d).mpr (Or.inr hold))
    · obtain ⟨v, hv, rfl⟩ := List.mem_map.mp hsent
      have hback : c.node ∈ T.links v := T.symm _ _ hv
      refine ⟨c.node, ?_, Or.inr hback, hnames v c.node hback⟩
      rw [hops_eq (c := { onward p keys o i m c with node := v }) rfl]
      rfl
  · intro d hd
    rcases List.mem_append.mp hd with hold | hsent
    · exact h.published d hold
    · obtain rfl := List.mem_singleton.mp hsent
      rw [hops_onward]
      exact ⟨by omega, rfl⟩
  · intro v
    by_cases hv : v = c.node
    · subst hv
      exact Or.inl ⟨⟨_, hnew, rfl⟩, by simp⟩
    · simp only [Function.update_of_ne hv]
      rcases h.cache v with ⟨⟨d, hd, hnode⟩, hlook⟩ | ⟨hno, hfresh⟩
      · exact Or.inl ⟨⟨d, List.mem_append_left _ hd, hnode⟩, hlook⟩
      · refine Or.inr ⟨?_, hfresh⟩
        intro d hd
        rcases List.mem_append.mp hd with hold | hsent
        · exact hno d hold
        · obtain rfl := List.mem_singleton.mp hsent
          exact fun hnode => hv hnode.symm
  · rcases h.start with ⟨d, hd, hnode, hle⟩ | ⟨d, hd, hnode, hops_d⟩
    · exact Or.inl ⟨d, List.mem_append_left _ hd, hnode, hle⟩
    · rcases (mem_flight_iff hc d).mp hd with rfl | hd
      · exact Or.inl ⟨_, hnew, hnode, by rw [hops_onward]; omega⟩
      · exact Or.inr ⟨d, List.mem_append_left _ hd, hnode, hops_d⟩
  · intro e he hlive' v hv
    rcases List.mem_append.mp he with hold | hsent
    · rcases h.hop e hold hlive' v hv with ⟨d, hd, hnode, hle⟩ | ⟨d, hd, hnode, hops_d⟩
      · exact Or.inl ⟨d, List.mem_append_left _ hd, hnode, hle⟩
      · rcases (mem_flight_iff hc d).mp hd with rfl | hd
        · exact Or.inl ⟨_, hnew, hnode, by rw [hops_onward]; omega⟩
        · exact Or.inr ⟨d, List.mem_append_left _ hd, hnode, hops_d⟩
    · obtain rfl := List.mem_singleton.mp hsent
      refine Or.inr ⟨{ onward p keys o i m c with node := v }, ?_, rfl, rfl⟩
      exact List.mem_append_right _ (List.mem_map.mpr ⟨v, hv, rfl⟩)

/-- How many arrivals a copy at `v` with `t` hops left can lead to. -/
def work (T : Topology) : ℕ → String → ℕ
  | 0, _ => 1
  | t + 1, v => 1 + ((T.links v).map (work T t)).sum

def load (T : Topology) (copies : List Copy) : ℕ :=
  (copies.map (fun c => work T (hops c).toNat c.node)).sum

theorem work_pos (t : ℕ) (v : String) : 0 < work T t v := by
  cases t with
  | zero => exact Nat.one_pos
  | succ t => exact Nat.lt_of_lt_of_le Nat.one_pos (Nat.le_add_right 1 _)

theorem load_append (xs ys : List Copy) : load T (xs ++ ys) = load T xs + load T ys := by
  simp [load]

theorem load_split (before after : List Copy) (c : Copy) :
    load T (before ++ c :: after) =
      load T (before ++ after) + work T (hops c).toNat c.node := by
  simp only [load, List.map_append, List.map_cons, List.sum_append, List.sum_cons]
  omega

/-- The copies sent on are fewer than the arrivals set aside for the copy. -/
theorem load_spread (p : Platform) (T : Topology) (keys : Keys) (o : String) (i : ℤ) (m : Bytes)
    (hlive : 2 ≤ hops c) :
    load T (spread T (onward p keys o i m c)) < work T (hops c).toNat c.node := by
  obtain ⟨t, ht⟩ : ∃ t : ℕ, hops c = t + 1 := ⟨(hops c - 1).toNat, by omega⟩
  have hhops : hops (onward p keys o i m c) = t := by
    rw [hops_onward, ht]
    omega
  have hsum : load T (spread T (onward p keys o i m c)) =
      ((T.links c.node).map (work T t)).sum := by
    rw [load, spread, List.map_map]
    refine congrArg List.sum (List.map_congr_left ?_)
    intro v _
    have hv : hops { onward p keys o i m c with node := v } = t := hhops
    simp only [Function.comp_apply, hv, Int.toNat_natCast]
  rw [hsum, ht]
  simp [work]

theorem step_load {net' : Net} {ok : Net → Copy → Prop} (hp : p.Lawful) (ho : GoodName o)
    (h : Inv p T keys o i m n net) (hs : FloodStep p T keys ok net net') :
    load T net'.flight < load T net.flight := by
  cases hs with
  | arrive before after c w a hc hok hgate hkeyed =>
    have hpos := work_pos (T := T) (hops c).toNat c.node
    rw [hc, load_split]
    rcases arrive_cases hp ho h hc hgate hkeyed with ⟨heq, -⟩ | ⟨hlive, a', heq⟩
    · rw [heq]
      simp only
      omega
    · have hspread := load_spread p T keys o i m hlive
      rw [heq]
      simp only [load_append]
      omega

theorem timely_step_inv {net' : Net} (hp : p.Lawful) (ho : GoodName o)
    (hnames : ∀ u v, v ∈ T.links u → GoodName v) (h : Inv p T keys o i m n net)
    (hs : FloodStep p T keys Timely net net') : Inv p T keys o i m n net' := by
  cases hs with
  | arrive before after c w a hc hok hgate hkeyed =>
    rcases arrive_cases hp ho h hc hgate hkeyed with ⟨heq, hdrop⟩ | ⟨hlive, a', heq⟩
    · rw [heq]
      exact drop_inv h hc hok hdrop
    · rw [heq]
      exact publish_inv hnames h hc hlive a'

end Steps

section Coverage

variable {n : ℕ} {net : Net}

/-- The nodes within `n` hops have published the message, and those other than its
originator hand the text to the application callback. -/
def Covered (p : Platform) (T : Topology) (keys : Keys) (o : String) (m : Bytes) (n : ℕ)
    (net : Net) : Prop :=
  ∀ v, T.graph.edist o v ≤ n → ∃ c ∈ net.published, c.node = v ∧
    (v ≠ o → ∀ a, Keyed T keys v a →
      receiveMessage p ⟨v, keys.rsaKey v⟩ a c.frame = .callback m)

/-- Nothing is on its way, the originator knows the keys, and no node has handled
the message that it sends next. -/
structure Ready (T : Topology) (keys : Keys) (o : String) (net : Net) : Prop where
  me : ∀ v, (net.nodes v).me = ⟨v, keys.rsaKey v⟩
  up : ∀ v, (net.nodes v).up = true
  fresh : ∀ v, Fresh o (net.nodes o).agent.local_id (net.nodes v).cache
  keyed : Keyed T keys o (net.nodes o).agent
  flight : net.flight = []
  published : net.published = []

theorem send_flight (h : Ready T keys o net) (m : Bytes) (n : ℕ) (now : ℤ) :
    (net.send p o (.sendToNeighbors m n) now).flight =
      [⟨o, .sendToNeighbors m n,
        floodFrame p keys o (net.nodes o).agent.local_id m o (n + 2), o⟩] := by
  simp [Net.send, h.flight, h.me, Call.perform, sendFloodingMessage, sendKeys, storeOldKeys,
    unicastLayer, Call.receiver, h.keyed.key, h.keyed.iv, aesAccepts_keys, Call.initialTtl,
    floodFrame, initialFrame]

theorem send_inv (ho : GoodName o) (h : Ready T keys o net) (m : Bytes) (n : ℕ) (now : ℤ) :
    Inv p T keys o (net.nodes o).agent.local_id m n
      (net.send p o (.sendToNeighbors m n) now) := by
  have hpub : (net.send p o (.sendToNeighbors m n) now).published = [] := h.published
  have hcache : ∀ v, ((net.send p o (.sendToNeighbors m n) now).nodes v).cache =
      (net.nodes v).cache := by
    intro v
    refine update_field Node.cache ?_ v
    rfl
  refine ⟨?_, ?_, ?_, ?_, ?_, ?_, ?_⟩
  · intro v
    refine Eq.trans (update_field Node.me ?_ v) (h.me v)
    rfl
  · intro v
    refine Eq.trans (update_field Node.up ?_ v) (h.up v)
    rfl
  · rw [send_flight h]
    intro c hc
    obtain rfl := List.mem_singleton.mp hc
    exact ⟨o, by rw [hops_eq rfl], Or.inl rfl, ho⟩
  · simp [hpub]
  · intro v
    rw [hcache v, hpub]
    exact Or.inr ⟨by simp, h.fresh v⟩
  · rw [send_flight h]
    exact Or.inr ⟨_, List.mem_singleton.mpr rfl, rfl, hops_eq rfl⟩
  · simp [hpub]

/-- Along a walk each node leaves the message at most one hop less. -/
theorem walk_published (h : Inv p T keys o i m n net) (hend : net.flight = []) {u v : String}
    (W : T.graph.Walk u v) : ∀ k : ℤ, 1 ≤ k - W.length →
      (∃ c ∈ net.published, c.node = u ∧ k ≤ hops c) →
      ∃ c ∈ net.published, c.node = v ∧ k - W.length ≤ hops c := by
  induction W with
  | nil =>
    intro k _ hpub
    simpa using hpub
  | cons hadj W ih =>
    rintro k hk ⟨c, hc, rfl, hle⟩
    simp only [SimpleGraph.Walk.length_cons, Nat.cast_add, Nat.cast_one] at hk ⊢
    rcases h.hop c hc (by omega) _ hadj with ⟨d, hd, hnode, hd_hops⟩ | ⟨d, hd, -⟩
    · obtain ⟨e, he, henode, hehops⟩ := ih (k - 1) (by omega) ⟨d, hd, hnode, by omega⟩
      exact ⟨e, he, henode, by omega⟩
    · simp [hend] at hd

/-- What a node has published it hands to its application. -/
theorem receive_floodFrame (hp : p.Lawful) {v : String} {a : Agent} {t : ℤ} (hne : v ≠ o)
    (hk : Keyed T keys v a) :
    receiveMessage p ⟨v, keys.rsaKey v⟩ a (floodFrame p keys o i m v t) = .callback m := by
  have hown : (Json.str o).isStr v = false := by
    simpa [Json.isStr] using hne.symm
  have hattempt := attempt_floodFrame (o := o) (i := i) (m := m) keys hp v t
  have hhost : field (floodFrame p keys o i m v t).host = .ok (.str o) := rfl
  have hunwrap : unwrapUnicast p ⟨v, keys.rsaKey v⟩ a (floodFrame p keys o i m v t) m =
      .ok (some m) := rfl
  have htype : field (floodFrame p keys o i m v t).msg_type = .ok (.str "data") := rfl
  have hdata : (Json.str "data").isStr "ctrl" = false := by decide
  simp only [receiveMessage, hhost, hown, hk.key, hk.iv, hattempt, hunwrap, htype, hdata,
    Bool.false_eq_true, if_false]

theorem quiet_covered (hp : p.Lawful) (h : Inv p T keys o i m n net) (hend : net.flight = []) :
    Covered p T keys o m n net := by
  intro v hdist
  have hreach : T.graph.edist o v ≠ ⊤ := ne_top_of_le_ne_top (ENat.natCast_ne_top n) hdist
  obtain ⟨W, hW⟩ := SimpleGraph.exists_walk_of_edist_ne_top hreach
  have hlen : W.length ≤ n := by
    rw [← hW] at hdist
    exact_mod_cast hdist
  have hstart : ∃ c ∈ net.published, c.node = o ∧ (n : ℤ) + 1 ≤ hops c := by
    rcases h.start with hpub | ⟨c, hc, -⟩
    · exact hpub
    · simp [hend] at hc
  obtain ⟨c, hc, rfl, -⟩ := walk_published h hend W (n + 1) (by omega) hstart
  refine ⟨c, hc, rfl, fun hne a hk => ?_⟩
  rw [(h.published c hc).2]
  exact receive_floodFrame hp hne hk

/-- A run of arrivals, going on as long as a copy is on its way. -/
def Run (p : Platform) (T : Topology) (keys : Keys) (ok : Net → Copy → Prop) (run : ℕ → Net) :
    Prop :=
  ∀ k, (run k).flight ≠ [] → FloodStep p T keys ok (run k) (run (k + 1))

/-- A run of timely arrivals comes to rest. -/
theorem run_rests (hp : p.Lawful) (ho : GoodName o) (hnames : ∀ u v, v ∈ T.links u → GoodName v)
    {run : ℕ → Net} (hrun : Run p T keys Timely run) :
    ∀ b k, load T (run k).flight ≤ b → Inv p T keys o i m n (run k) →
      ∃ j, Inv p T keys o i m n (run j) ∧ (run j).flight = [] := by
  intro b
  induction b with
  | zero =>
    intro k hload h
    by_contra hno
    have hmore : (run k).flight ≠ [] := fun hend => hno ⟨k, h, hend⟩
    have hless := step_load hp ho h (hrun k hmore)
    omega
  | succ b ih =>
    intro k hload h
    by_cases hend : (run k).flight = []
    · exact ⟨k, h, hend⟩
    · have hstep := hrun k hend
      have hless := step_load hp ho h hstep
      exact ih (k + 1) (by omega) (timely_step_inv hp ho hnames h hstep)

/-- Flood coverage. When every copy that arrives at a node finds that the node has
not published the message with fewer hops left than this copy would leave
it, all nodes within the hop count publish the message and deliver it,
whatever the order of the arrivals. -/
theorem timely_flood_covers (p : Platform) (hp : p.Lawful) (T : Topology) (keys : Keys) (o : String)
    (ho : GoodName o) (hnames : ∀ u v, v ∈ T.links u → GoodName v) (net : Net)
    (h : Ready T keys o net) (m : Bytes) (n : ℕ) (now : ℤ) (run : ℕ → Net)
    (hstart : run 0 = net.send p o (.sendToNeighbors m n) now)
    (hrun : Run p T keys Timely run) :
    ∃ k, (run k).flight = [] ∧ Covered p T keys o m n (run k) := by
  have hinv : Inv p T keys o (net.nodes o).agent.local_id m n (run 0) := by
    rw [hstart]
    exact send_inv ho h m n now
  obtain ⟨k, hk, hend⟩ := run_rests hp ho hnames hrun _ 0 le_rfl hinv
  exact ⟨k, hend, quiet_covered hp hk hend⟩

end Coverage

section Schedules

variable {net : Net} {ok : Net → Copy → Prop}

/-- The table has the keys of `u`, which signs with `pubKey` where one is asked for. -/
def holdsKeys (keys : Keys) (list : NeighborList) (u : String) (pubKey : Option RsaPublicKey) :
    Bool :=
  match list.lookup u with
  | none => false
  | some e => e.encryptionKey == keys.key u && e.encryptionIV == keys.iv u &&
      (pubKey.isNone || e.pubKey == pubKey)

theorem keyed_iff (T : Topology) (keys : Keys) (v : String) (a : Agent) :
    (a.key = keys.key v ∧ a.iv = keys.iv v ∧
      holdsKeys keys a.globalNeighborList v none = true ∧
      ∀ u ∈ T.links v, holdsKeys keys a.globalNeighborList u
        (some (keys.rsaKey u).publickey) = true) ↔ Keyed T keys v a := by
  constructor
  · rintro ⟨hkey, hiv, hown, hlinks⟩
    refine ⟨hkey, hiv, ?_, ?_⟩
    · unfold holdsKeys at hown
      split at hown
      · simp at hown
      · rename_i e hlook
        exact ⟨e, hlook, by simpa using hown⟩
    · intro u hu
      have h := hlinks u hu
      unfold holdsKeys at h
      split at h
      · simp at h
      · rename_i e hlook
        exact ⟨e, hlook, by simpa [and_assoc] using h⟩
  · rintro ⟨hkey, hiv, ⟨e, hlook, hekey, heiv⟩, hlinks⟩
    refine ⟨hkey, hiv, by simp [holdsKeys, hlook, hekey, heiv], ?_⟩
    intro u hu
    obtain ⟨e, hlook, hekey, heiv, hepub⟩ := hlinks u hu
    simp [holdsKeys, hlook, hekey, heiv, hepub]

instance (T : Topology) (keys : Keys) (v : String) (a : Agent) : Decidable (Keyed T keys v a) :=
  decidable_of_iff _ (keyed_iff T keys v a)

instance (net : Net) (c : Copy) : Decidable (Timely net c) :=
  inferInstanceAs (Decidable (∀ d ∈ net.published, d.node = c.node → hops c ≤ hops d + 1))

/-- The run in which the copy at position `pick k` arrives `k`-th. -/
def follow (p : Platform) (T : Topology) (net : Net) (pick : ℕ → ℕ) : ℕ → Net
  | 0 => net
  | k + 1 => (follow p T net pick k).arriveAt p T (pick k) PublishedFrames.quietWaits

/-- The copy at position `j` may arrive next. -/
def Legal (T : Topology) (keys : Keys) (ok : Net → Copy → Prop) (net : Net) (j : ℕ) : Prop :=
  match net.flight[j]? with
  | none => False
  | some c => ok net c ∧ Keyed T keys c.node (net.nodes c.node).agent

instance [∀ net c, Decidable (ok net c)] (j : ℕ) : Decidable (Legal T keys ok net j) :=
  match h : net.flight[j]? with
  | none => isFalse (by simp [Legal, h])
  | some c => decidable_of_iff (ok net c ∧ Keyed T keys c.node (net.nodes c.node).agent)
      (by simp [Legal, h])

theorem floodStep_arriveAt {j : ℕ} (h : Legal T keys ok net j) :
    FloodStep p T keys ok net (net.arriveAt p T j PublishedFrames.quietWaits) := by
  have hj : j < net.flight.length := by
    by_contra hge
    rw [Legal, List.getElem?_eq_none (by omega)] at h
    exact h
  obtain ⟨before, c, after, hc, hget, heq⟩ := arriveAt_split p T net j PublishedFrames.quietWaits hj
  rw [Legal, hget] at h
  rw [heq]
  exact .arrive net before after c _ _ hc h.1 rfl h.2

/-- When no copy is on its way the schedule changes nothing. -/
theorem follow_rest {pick : ℕ → ℕ} {b : ℕ} (hend : (follow p T net pick b).flight = []) (j : ℕ) :
    follow p T net pick (b + j) = follow p T net pick b := by
  induction j with
  | zero => rfl
  | succ j ih =>
    rw [← Nat.add_assoc, follow, ih]
    simp [Net.arriveAt, hend]

/-- A schedule of legal arrivals that leaves no copy on its way is a run. -/
theorem follow_run (pick : ℕ → ℕ) (b : ℕ)
    (hlegal : ∀ k < b, Legal T keys ok (follow p T net pick k) (pick k))
    (hend : (follow p T net pick b).flight = []) :
    Run p T keys ok (follow p T net pick) := by
  intro k hmore
  rcases Nat.lt_or_ge k b with hk | hk
  · exact floodStep_arriveAt (hlegal k hk)
  · obtain ⟨j, rfl⟩ := Nat.exists_eq_add_of_le hk
    rw [follow_rest hend] at hmore
    exact absurd hend hmore

end Schedules

/-- The keys of `uniformNet`. -/
def uniformKeys : Keys where
  key _ := PublishedFrames.sampleKey
  iv _ := PublishedFrames.sampleKey
  rsaKey _ := ⟨33, 3, 7⟩
  key_length _ := by decide
  iv_length _ := by decide

theorem uniformNet_ready (T : Topology) (o : String)
    (hk : Keyed T uniformKeys o ((uniformNet T).nodes o).agent) :
    Ready T uniformKeys o (uniformNet T) := by
  refine ⟨fun _ => rfl, fun _ => rfl, ?_, hk, rfl, rfl⟩
  intro v last hlast
  simp [uniformNet] at hlast

theorem goodName_ofEdges {edges : List (String × String)} {hne : ∀ e ∈ edges, e.1 ≠ e.2}
    (h : ∀ e ∈ edges, GoodName e.1 ∧ GoodName e.2) :
    ∀ u v, v ∈ (Topology.ofEdges edges hne).links u → GoodName v := by
  intro u v hv
  obtain ⟨e, he, rfl | rfl⟩ := Topology.mem_ofEdges hv
  · exact (h e he).1
  · exact (h e he).2

theorem timely_flood_covers_row :
    ∃ k, (follow listPlatform FloodScope.row FloodScope.rowSent (fun _ => 0) k).flight = [] ∧
      Covered listPlatform FloodScope.row uniformKeys "10.0.0.1" [104, 105] 2
        (follow listPlatform FloodScope.row FloodScope.rowSent (fun _ => 0) k) :=
  timely_flood_covers listPlatform listPlatform_lawful FloodScope.row uniformKeys "10.0.0.1"
    (by decide) (goodName_ofEdges (by decide)) _
    (uniformNet_ready FloodScope.row "10.0.0.1" (by decide)) [104, 105] 2 0 _ rfl
    (follow_run _ 5 (by decide) (by decide))

/-- Three access points that hear each other, and a fourth that hears one of them. -/
def kite : Topology :=
  .ofEdges [("10.0.0.1", "10.0.0.2"), ("10.0.0.1", "10.0.0.3"), ("10.0.0.2", "10.0.0.3"),
    ("10.0.0.2", "10.0.0.4")] (by decide)

/-- The first access point sends a broadcast over two hops. The second one hears it
from the third before it hears it from the first. -/
def kiteRun : ℕ → Net :=
  follow listPlatform kite
    ((uniformNet kite).send listPlatform "10.0.0.1" (.sendToNeighbors [104, 105] 2) 0)
    (fun k => if k = 1 then 1 else if k = 2 then 2 else 0)

/-- Arrivals in any order are not enough: in a connected net of correct agents a
node two hops away is never reached by a message sent over two hops. -/
theorem kite_not_covered :
    Ready kite uniformKeys "10.0.0.1" (uniformNet kite) ∧
      kiteRun 0 = (uniformNet kite).send listPlatform "10.0.0.1" (.sendToNeighbors [104, 105] 2) 0 ∧
      Run listPlatform kite uniformKeys (fun _ _ => True) kiteRun ∧
      (∃ k, (kiteRun k).flight = []) ∧
      (∀ v ∈ ["10.0.0.2", "10.0.0.3", "10.0.0.4"], kite.graph.Reachable "10.0.0.1" v) ∧
      kite.graph.edist "10.0.0.1" "10.0.0.4" ≤ 2 ∧
      ∀ k, (∀ c ∈ (kiteRun k).published, c.node ≠ "10.0.0.4") ∧
        ¬ Covered listPlatform kite uniformKeys "10.0.0.1" [104, 105] 2 (kiteRun k) := by
  have hend : (kiteRun 8).flight = [] := by decide
  have hlegal : ∀ k < 8, Legal kite uniformKeys (fun _ _ => True) (kiteRun k)
      (if k = 1 then 1 else if k = 2 then 2 else 0) := by decide
  have hfirstHop : kite.graph.Adj "10.0.0.1" "10.0.0.2" := by
    show "10.0.0.2" ∈ kite.links "10.0.0.1"
    decide
  have hlastHop : kite.graph.Adj "10.0.0.2" "10.0.0.4" := by
    show "10.0.0.4" ∈ kite.links "10.0.0.2"
    decide
  have hdetour : kite.graph.Adj "10.0.0.1" "10.0.0.3" := by
    show "10.0.0.3" ∈ kite.links "10.0.0.1"
    decide
  have hconnected : ∀ v ∈ ["10.0.0.2", "10.0.0.3", "10.0.0.4"],
      kite.graph.Reachable "10.0.0.1" v := by
    intro v hv
    simp only [List.mem_cons, List.not_mem_nil, or_false] at hv
    rcases hv with rfl | rfl | rfl
    · exact hfirstHop.reachable
    · exact hdetour.reachable
    · exact hfirstHop.reachable.trans hlastHop.reachable
  have hdist : kite.graph.edist "10.0.0.1" "10.0.0.4" ≤ 2 :=
    SimpleGraph.edist_le (.cons hfirstHop (.cons hlastHop .nil))
  have hfirst : ∀ k < 9, ∀ c ∈ (kiteRun k).published, c.node ≠ "10.0.0.4" := by decide
  have hnever : ∀ k, ∀ c ∈ (kiteRun k).published, c.node ≠ "10.0.0.4" := by
    intro k
    rcases Nat.lt_or_ge k 9 with hk | hk
    · exact hfirst k hk
    · obtain ⟨j, rfl⟩ := Nat.exists_eq_add_of_le (Nat.le_of_succ_le hk)
      rw [kiteRun, follow_rest hend]
      exact hfirst 8 (by decide)
  refine ⟨uniformNet_ready kite "10.0.0.1" (by decide), rfl, follow_run _ 8 hlegal hend,
    ⟨8, hend⟩, hconnected, hdist, fun k => ⟨hnever k, fun hcov => ?_⟩⟩
  obtain ⟨c, hc, hnode, -⟩ := hcov "10.0.0.4" hdist
  exact hnever k c hc hnode

end Nxwlan.FloodCoverage
