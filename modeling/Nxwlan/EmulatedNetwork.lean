import Nxwlan.NodeTables

/-!
A node of an emulated network that starts, and runs of the whole network: no thread of a
node ends, and the tables follow the keys.
-/
namespace Nxwlan.EmulatedNetwork

open JsonFrames AgentState Messaging PyText ReceiveLoop MininetConnector
open AgentThreads (ownEntry keyChangeInterval expiredNeighbors leaveAll)
open LinkNotices (Returning Round connected changeKeys Agreeing)
open OwnFrames (HasKeys)
open FloodNetwork (Topology)
open Base64 (Bytes)

section Runs

variable {p : Platform} {der : ℕ} {W : Wiring} {net : Net}

/-- The own entry has the keys once `init_self_connection` is through. -/
theorem hasKeys_connected {out : Outside} {me : Identity} (joined : ℤ) (key iv : Bytes)
    (hconn : out.connects me.hostname = true) :
    HasKeys (connected out me joined key iv) me.hostname key iv := by
  have htable : (connected out me joined key iv).globalNeighborList =
      AList.insert me.hostname (ownEntry me joined { key := key, iv := iv }) ∅ := by
    simp [connected, onAPJoined, joinOne, ownEntry, hconn, notifyNewLink]
  refine ⟨ownEntry me joined { key := key, iv := iv }, ?_, rfl, rfl⟩
  rw [htable]
  exact AList.lookup_insert (∅ : NeighborList)

/-- What a start comes to: the scan shows the neighbors that are up, and they are joined. -/
structure Started (p : Platform) (der : ℕ) (W : Wiring) (net : Net) (v : String) (x : Start)
    (node : Node) : Prop where
  me : node.me = (net.nodes v).me
  up : node.up = true
  raised : node.raised = false
  key : node.agent.key = x.key
  iv : node.agent.iv = x.iv
  ready : Ready p der node
  hears : ∀ w ∈ W.links v, (net.nodes w).up = true → node.Hears (net.nodes w)

theorem Inv.started (h : Inv p der W net) {v : String} {x : Start} (hname : NodeName v)
    (hkey : NodeKey p der (net.nodes v).me.rsaKey.publickey) (hout : Friendly x.outside)
    (hheard : Heard W net v x.ifs) : Started p der W net v x ((net.nodes v).start p x) := by
  have hme := h.names v
  have hspecial : (net.nodes v).me.hostname ≠ "" ∧ (net.nodes v).me.hostname ≠ "old_keys" := by
    rw [hme]
    exact ⟨hname.nonempty, hname.oldKeys⟩
  let a := connected x.outside (net.nodes v).me x.joined x.key x.iv
  have hagreeing : Agreeing (net.nodes v).me a := LinkNotices.connected_agreeing x.joined hspecial
    x.key_length x.iv_length (hout.connects _)
  obtain ⟨hakey, haiv⟩ : a.key = x.key ∧ a.iv = x.iv := LinkNotices.onAPJoined_keys x.outside
    (net.nodes v).me [ownEntry (net.nodes v).me x.joined { key := x.key, iv := x.iv }] _
  let booting : Node := { net.nodes v with agent := a }
  obtain ⟨list, hscan, hdict, hmem⟩ : ∃ list, booting.scan p x.scanned x.ifs = .ok list ∧ _ :=
    h.scan (show booting.me.hostname = v from hme) hkey.length hagreeing.key hagreeing.iv hheard
  let b := onAPJoined x.outside (net.nodes v).me a (results list)
  have hstart : (net.nodes v).start p x =
      { net.nodes v with
        agent := b
        probeResponseContent := responseOf p (booting.advert x.freq)
        up := true } := by
    unfold Node.start
    dsimp only
    rw [hscan]
  have hfrom : ∀ r ∈ results list, ∃ w ∈ W.links v, (net.nodes w).up = true ∧
      r = heard ((net.nodes w).advert 0) x.scanned ∧ r.ipAddress = w := by
    intro r hr
    obtain ⟨w, hlink, hw, rfl⟩ := (hmem r).mp hr
    exact ⟨w, hlink, hw, rfl, (h.ready w hw).name.read_back.trans (h.names w)⟩
  obtain ⟨hbkey, hbiv⟩ : b.key = a.key ∧ b.iv = a.iv :=
    LinkNotices.onAPJoined_keys x.outside (net.nodes v).me (results list) a
  have hjoined : Agreeing (net.nodes v).me b := by
    refine (LinkNotices.apply_steps (p := p) hspecial hagreeing
      (.onAPJoined x.outside (results list)) ⟨hout.returning, ?_⟩).2
    intro r hr
    obtain ⟨w, -, hw, -, hip⟩ := hfrom r hr
    rw [hip, ← h.names w]
    exact (h.ready w hw).special
  have hown : b.globalNeighborList.lookup (net.nodes v).me.hostname =
      a.globalNeighborList.lookup (net.nodes v).me.hostname := by
    refine onAPJoined_others (fun r hr => ?_)
    obtain ⟨w, hlink, -, -, hip⟩ := hfrom r hr
    rw [hip, hme]
    rintro rfl
    exact W.irrefl w hlink
  rw [hstart]
  refine ⟨rfl, rfl, h.runs v, hbkey.trans hakey, hbiv.trans haiv, ⟨?_, hkey, hjoined, ?_, ?_⟩, ?_⟩
  · exact hme.symm ▸ hname
  · obtain ⟨e, he, hekey, heiv⟩ := hasKeys_connected x.joined x.key x.iv
      (hout.connects (net.nodes v).me.hostname)
    exact ⟨e, hown.trans he, hekey.trans (hbkey.trans hakey).symm,
      heiv.trans (hbiv.trans haiv).symm⟩
  · simp only [responseOf, Node.advert, hbkey, hbiv, booting]
  · intro w hlink hw
    have hknows : Knows b _ _ _ _ := onAPJoined_knows hdict ((hmem _).mpr ⟨w, hlink, hw, rfl⟩)
      ((h.ready w hw).carries_heard x.scanned) hout.connects
    rw [show (heard ((net.nodes w).advert 0) x.scanned).ipAddress = (net.nodes w).me.hostname from
      (h.ready w hw).name.read_back] at hknows
    exact hknows

/-- A node starts: it knows its neighbors, and they are asked to know it. -/
theorem Inv.start (h : Inv p der W net) {v : String} {x : Start}
    (hdown : (net.nodes v).up = false) (hname : NodeName v)
    (hkey : NodeKey p der (net.nodes v).me.rsaKey.publickey) (hout : Friendly x.outside)
    (hheard : Heard W net v x.ifs)
    (hsources : ∀ w ∈ W.links v, x.sources w ≠ [] ∧ ∀ address ∈ x.sources w, address ∉ W.ips w) :
    Inv p der W (net.start p W v x) := by
  let node := (net.nodes v).start p x
  have hstarted : Started p der W net v x node := h.started hname hkey hout hheard
  have hme := h.names v
  have hnodes : (net.start p W v x).nodes = Function.update net.nodes v node := rfl
  have hself : (net.start p W v x).nodes v = node := by
    rw [hnodes, Function.update_self]
  have hother : ∀ w, w ≠ v → (net.start p W v x).nodes w = net.nodes w := by
    intro w hw
    rw [hnodes, Function.update_of_ne hw]
  have hflight : (net.start p W v x).flight = net.flight ++ net.requests p W v x := rfl
  -- nobody has written to the node yet, nor has it written to anybody
  have hnone : ∀ w, (net.nodes w).up = true → w ≠ v := by
    rintro w hw rfl
    rw [hdown] at hw
    cases hw
  have hrequests : ∀ e ∈ net.requests p W v x, e.source = v ∧ e.letter.isKcm = false ∧
      e.Sound p W (net.start p W v x) := by
    intro e he
    obtain ⟨w, hw, he⟩ := List.mem_flatMap.mp he
    obtain ⟨address, haddress, rfl⟩ := List.mem_map.mp he
    obtain ⟨hlink, hwup⟩ := List.mem_filter.mp hw
    refine ⟨rfl, rfl, ?_, ?_, W.symm v w hlink, (hsources w hlink).2 address haddress, x.freq, ?_⟩
    · rw [hself, hstarted.up]
    · rw [hother w (hnone w hwup), hwup]
    · have hkeys := LinkNotices.onAPJoined_keys x.outside (net.nodes v).me
        [ownEntry (net.nodes v).me x.joined { key := x.key, iv := x.iv }]
        { key := x.key, iv := x.iv }
      rw [hself]
      dsimp only
      rw [Node.advert, Node.advert, hstarted.me, hstarted.key, hstarted.iv]
      dsimp only
      rw [show (connected x.outside (net.nodes v).me x.joined x.key x.iv).key = x.key from hkeys.1,
        show (connected x.outside (net.nodes v).me x.joined x.key x.iv).iv = x.iv from hkeys.2]
  have hends : ∀ e ∈ net.flight, e.source ≠ v ∧ e.target ≠ v :=
    fun e he => ⟨hnone _ (h.sound e he).source, hnone _ (h.sound e he).target⟩
  refine ⟨?_, ?_, ?_, ?_, ?_, ?_⟩
  · intro w
    by_cases hw : w = v
    · rw [hw, hself, hstarted.me, hme]
    · rw [hother w hw, h.names]
  · intro w
    by_cases hw : w = v
    · rw [hw, hself, hstarted.raised]
    · rw [hother w hw, h.runs]
  · intro w hw
    by_cases hwv : w = v
    · rw [hwv, hself]
      exact hstarted.ready
    · rw [hother w hwv] at hw ⊢
      exact h.ready w hw
  · intro e he
    rw [hflight] at he
    rcases List.mem_append.mp he with he | he
    · obtain ⟨hsource, htarget, hlinked, hletter⟩ := h.sound e he
      refine ⟨?_, ?_, hlinked, ?_⟩
      · rw [hother _ (hends e he).1, hsource]
      · rw [hother _ (hends e he).2, htarget]
      · rw [hother _ (hends e he).1, hother _ (hends e he).2]
        exact hletter
    · exact (hrequests e he).2.2
  · rw [hflight]
    refine List.pairwise_append.mpr ⟨h.apart, ?_, ?_⟩
    · refine List.Pairwise.imp_of_mem (R := fun _ _ => True) ?_ (List.pairwise_of_forall ?_)
      · intro e e' he he' _ _ _
        exact ⟨(hrequests e he).2.1, (hrequests e' he').2.1⟩
      · exact fun _ _ => trivial
    · intro e he e' he' hsource
      rw [(hrequests e' he').1] at hsource
      exact absurd hsource (hends e he).1
  · intro u w hu hw hlink hsettled
    have hold : Settled net.flight w u := by
      intro e he
      exact hsettled e (by rw [hflight]; exact List.mem_append_left _ he)
    by_cases hwv : w = v
    · -- a request to a neighbor of `v` is under way
      subst hwv
      exfalso
      have hne : u ≠ w := by
        rintro rfl
        exact W.irrefl u hlink
      rw [hother u hne] at hu
      have hlink' := W.symm u w hlink
      obtain ⟨address, haddress⟩ := List.exists_mem_of_ne_nil _ (hsources u hlink').1
      have hasked : ∃ e ∈ net.requests p W w x, e.source = w ∧ e.target = u :=
        ⟨_, List.mem_flatMap.mpr ⟨u, List.mem_filter.mpr ⟨hlink', hu⟩,
          List.mem_map.mpr ⟨address, haddress, rfl⟩⟩, rfl, rfl⟩
      obtain ⟨e, he, hends'⟩ := hasked
      refine hsettled e ?_ hends'
      rw [hflight]
      exact List.mem_append_right _ he
    · rw [hother w hwv] at hw ⊢
      by_cases huv : u = v
      · rw [huv] at hlink ⊢
        rw [hself]
        exact hstarted.hears w hlink hw
      · rw [hother u huv] at hu ⊢
        exact h.current u w hu hw hlink hold

/-- Every step keeps the invariant. -/
theorem Inv.step (h : Inv p der W net) {net' : Net} (hstep : Step p der W net net') :
    Inv p der W net' := by
  cases hstep with
  | start v x hdown _ hname hkey hout hheard hsources =>
    exact h.start hdown hname hkey hout hheard hsources
  | request before after v u d world hflight _ hwait hout =>
    exact h.request hflight hwait hout
  | changeKeys v x freq hup _ hidle hout hnew hkcm hfresh hexpired =>
    exact h.changeKeys hup hidle hout hnew hkcm hfresh hexpired
  | kcm before after v u text key iv world now ifs f hflight _ hout hhost hheard =>
    exact h.kcm hflight hout hhost hheard
  | others u a hsame => exact h.others hsame

theorem Inv.run {net₀ : Net} (h : Inv p der W net₀)
    (hrun : Relation.ReflTransGen (Step p der W) net₀ net) : Inv p der W net := by
  induction hrun with
  | refl => exact h
  | tail _ hstep ih => exact ih.step hstep

/-- The keys in use; a node that is not up has none yet. -/
def Net.keys (net : Net) : FloodPasses.Keys where
  key v := if (net.nodes v).agent.key.length = 16 then (net.nodes v).agent.key else
    List.replicate 16 0
  iv v := if (net.nodes v).agent.iv.length = 16 then (net.nodes v).agent.iv else
    List.replicate 16 0
  rsaKey v := (net.nodes v).me.rsaKey
  key_length v := by
    split
    · assumption
    · exact List.length_replicate
  iv_length v := by
    split
    · assumption
    · exact List.length_replicate

/-- When nothing is under way, a node whose neighbors are all up is ready for a flood. -/
theorem Inv.keyed (h : Inv p der W net) (hflight : net.flight = []) {v : String}
    (hv : (net.nodes v).up = true) (hall : ∀ w ∈ W.links v, (net.nodes w).up = true) :
    FloodPasses.Keyed W.toTopology net.keys v (net.nodes v).agent := by
  have hkeys : ∀ w, (net.nodes w).up = true →
      net.keys.key w = (net.nodes w).agent.key ∧ net.keys.iv w = (net.nodes w).agent.iv :=
    fun w hw => ⟨if_pos (h.ready w hw).agreeing.key, if_pos (h.ready w hw).agreeing.iv⟩
  obtain ⟨hkey, hiv⟩ := hkeys v hv
  refine ⟨hkey.symm, hiv.symm, ?_, ?_⟩
  · obtain ⟨e, he, hekey, heiv⟩ := (h.ready v hv).own
    rw [h.names] at he
    exact ⟨e, he, hekey.trans hkey.symm, heiv.trans hiv.symm⟩
  · intro w hlink
    have hsettled : Settled net.flight w v := by
      intro e he
      rw [hflight] at he
      cases he
    obtain ⟨e, he, hekey, heiv, hpub⟩ := h.current v w hv (hall w hlink) hlink hsettled
    obtain ⟨hwkey, hwiv⟩ := hkeys w (hall w hlink)
    rw [h.names] at he
    exact ⟨e, he, hekey.trans hwkey.symm, heiv.trans hwiv.symm, hpub⟩

end Runs

end Nxwlan.EmulatedNetwork
