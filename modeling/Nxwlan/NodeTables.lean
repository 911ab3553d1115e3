import Nxwlan.EmulatedNodes

/-!
What holds of the nodes of an emulated network and of what is under way between them. A
request, an announcement and a change of keys keep it.
-/
namespace Nxwlan.EmulatedNetwork

open JsonFrames AgentState Messaging PyText ReceiveLoop MininetConnector
open AgentThreads (ownEntry keyChangeInterval expiredNeighbors leaveAll)
open LinkNotices (Returning Round connected changeKeys Agreeing)
open OwnFrames (HasKeys)
open FloodNetwork (Topology)
open Base64 (Bytes)

section Invariant

variable {p : Platform} {der : ℕ} {W : Wiring} {net : Net}

/-- A node that is up: it answers with its keys, and its own entry has them. -/
structure Ready (p : Platform) (der : ℕ) (node : Node) : Prop where
  name : NodeName node.me.hostname
  key : NodeKey p der node.me.rsaKey.publickey
  agreeing : Agreeing node.me node.agent
  own : HasKeys node.agent node.me.hostname node.agent.key node.agent.iv
  content : node.probeResponseContent = responseOf p (node.advert 0)

/-- What a node knows of another one that it hears. -/
def Node.Hears (node other : Node) : Prop :=
  Knows node.agent other.me.hostname other.agent.key other.agent.iv other.me.rsaKey.publickey

def Letter.isKcm : Letter → Bool
  | .request _ => false
  | .kcm _ _ _ => true

/-- What is said by a letter that is under way: a request has the current keys of its
sender, and an announcement is sent under the keys that the target still has. -/
def Letter.Sound (p : Platform) (ips : List String) (sender reader : Node) : Letter → Prop
  | .request d => d.address ∉ ips ∧ ∃ freq, d.content = requestOf p (sender.advert freq)
  | .kcm text key iv => key ≠ sender.agent.key ∧
      (∃ freq, text = KeyRefresh.kcmMessage freq
        (asciiBytes (virtualSsid sender.me.hostname).toList)
        (asciiBytes sender.me.hostname.toList)) ∧
      Knows reader.agent sender.me.hostname key iv sender.me.rsaKey.publickey

structure Envelope.Sound (p : Platform) (W : Wiring) (net : Net) (e : Envelope) : Prop where
  source : (net.nodes e.source).up = true
  target : (net.nodes e.target).up = true
  linked : e.source ∈ W.links e.target
  letter : e.letter.Sound p (W.ips e.target) (net.nodes e.source) (net.nodes e.target)

/-- An announcement is the only letter from its sender to its target. -/
def Apart (e e' : Envelope) : Prop :=
  e.source = e'.source → e.target = e'.target → e.letter.isKcm = false ∧ e'.letter.isKcm = false

/-- Nothing from `v` to `u` is under way. -/
def Settled (flight : List Envelope) (v u : String) : Prop :=
  ∀ e ∈ flight, ¬ (e.source = v ∧ e.target = u)

structure Inv (p : Platform) (der : ℕ) (W : Wiring) (net : Net) : Prop where
  names : ∀ v, (net.nodes v).me.hostname = v
  runs : ∀ v, (net.nodes v).raised = false
  ready : ∀ v, (net.nodes v).up = true → Ready p der (net.nodes v)
  sound : ∀ e ∈ net.flight, e.Sound p W net
  apart : net.flight.Pairwise Apart
  current : ∀ u v, (net.nodes u).up = true → (net.nodes v).up = true → v ∈ W.links u →
    Settled net.flight v u → (net.nodes u).Hears (net.nodes v)

theorem Net.Initial.inv (h : net.Initial) : Inv p der W net where
  names := h.names
  runs := h.runs
  ready v hv := by
    rw [h.down v] at hv
    cases hv
  sound e he := by
    rw [h.flight] at he
    cases he
  apart := by
    rw [h.flight]
    exact List.Pairwise.nil
  current u v hu := by
    rw [h.down u] at hu
    cases hu

/-- An up node can be read by the others. -/
theorem Ready.readable {node : Node} (h : Ready p der node) (freq : ℤ) :
    Readable p der (node.advert freq) where
  key := h.agreeing.key
  iv := h.agreeing.iv
  der := h.key.length
  imported := h.key.imported
  hostname := h.name.bytes_ne

/-- A scan shows every neighbor that is up, with its current keys, and nobody else. -/
theorem Inv.scan (h : Inv p der W net) {node : Node} {v : String} (hname : node.me.hostname = v)
    (hder : (p.exportKey node.me.rsaKey.publickey).length = der) (hkey : node.agent.key.length = 16)
    (hiv : node.agent.iv.length = 16) {now : ℤ} {ifs : List (String × List Datagram)}
    (hheard : Heard W net v ifs) :
    ∃ list, node.scan p now ifs = .ok list ∧ KeyRollover.ByAddress (results list) ∧
      ∀ r, r ∈ results list ↔ ∃ w ∈ W.links v, (net.nodes w).up = true ∧
        r = heard ((net.nodes w).advert 0) now := by
  have hname' : ∀ w, (net.nodes w).up = true →
      (heard ((net.nodes w).advert 0) now).ipAddress = w := by
    intro w hw
    exact (h.ready w hw).name.read_back.trans (h.names w)
  let answer := fun address => (net.nodes (W.owner address)).advert 0
  have hfrom : ∀ d ∈ received v ifs, Foreign (ifs.map Prod.fst) d →
      W.owner d.address ∈ W.links v ∧ (net.nodes (W.owner d.address)).up = true ∧
        d.content = responseOf p (answer d.address) := by
    intro d hd hforeign
    obtain ⟨hlink, hup, hcontent⟩ := hheard.answers d hd (hheard.ips ▸ hforeign)
    exact ⟨hlink, hup, hcontent.trans (h.ready _ hup).content⟩
  have hread : ∀ d ∈ received v ifs, Foreign (ifs.map Prod.fst) d →
      Readable p der (answer d.address) :=
    fun d hd hforeign => (h.ready _ (hfrom d hd hforeign).2.1).readable 0
  have hnames : ∀ d ∈ received v ifs, Foreign (ifs.map Prod.fst) d →
      (heard (answer d.address) now).ipAddress = W.owner d.address :=
    fun d hd hforeign => hname' _ (hfrom d hd hforeign).2.1
  obtain ⟨list, hlist, hlook⟩ := performActiveScan_hears
    (fun d hd hforeign => (hfrom d hd hforeign).2.2) hread
    (by
      intro d hd hforeign herror
      have hnode := h.ready _ (hfrom d hd hforeign).2.1
      rw [hnames d hd hforeign, ← h.names (W.owner d.address)] at herror
      exact hnode.name.error herror)
    (by
      intro d hd hforeign d' hd' hforeign' hsame
      rw [hnames d hd hforeign, hnames d' hd' hforeign'] at hsame
      exact congrArg (fun w => (net.nodes w).advert 0) hsame)
    (show (hexEncode (p.exportKey node.me.rsaKey.publickey)).length = 2 * der by
      rw [ScanCommands.hexEncode_length, hder])
    (show (hexEncode node.agent.key).length = 32 by rw [ScanCommands.hexEncode_length, hkey])
    (show (hexEncode node.agent.iv).length = 32 by rw [ScanCommands.hexEncode_length, hiv])
  have hmem : ∀ n e, list.lookup n = some e ↔
      n ∈ W.links v ∧ (net.nodes n).up = true ∧ e = heard ((net.nodes n).advert 0) now := by
    intro n e
    rw [hlook]
    constructor
    · rintro ⟨d, hd, hforeign, hn, rfl⟩
      obtain ⟨hlink, hup, -⟩ := hfrom d hd hforeign
      obtain rfl : W.owner d.address = n := (hnames d hd hforeign).symm.trans hn
      exact ⟨hlink, hup, rfl⟩
    · rintro ⟨hlink, hup, rfl⟩
      obtain ⟨d, hd, hforeign, rfl⟩ := hheard.all n hlink hup
      exact ⟨d, hd, hheard.ips ▸ hforeign, hname' _ hup, rfl⟩
  refine ⟨list, ?_, byAddress_results ?_, ?_⟩
  · rw [Node.scan, hname]
    exact hlist
  · intro n e hn
    obtain ⟨-, hup, rfl⟩ := (hmem n e).mp hn
    exact hname' n hup
  · intro r
    rw [mem_results]
    simp only [hmem]

theorem Ready.special {node : Node} (h : Ready p der node) :
    node.me.hostname ≠ "" ∧ node.me.hostname ≠ "old_keys" :=
  ⟨h.name.nonempty, h.name.oldKeys⟩

theorem Ready.key_ne {node : Node} (h : Ready p der node) : node.agent.key ≠ [] :=
  KeyRollover.ne_nil_of_length h.agreeing.key

theorem Ready.iv_ne {node : Node} (h : Ready p der node) : node.agent.iv ≠ [] :=
  KeyRollover.ne_nil_of_length h.agreeing.iv

theorem Ready.carries_heard {node : Node} (h : Ready p der node) (now : ℤ) :
    Carries (heard (node.advert 0) now) node.agent.key node.agent.iv node.me.rsaKey.publickey :=
  ⟨rfl, rfl, rfl, h.key_ne, h.iv_ne⟩

theorem Ready.carries_asked {node : Node} (h : Ready p der node) (freq now : ℤ) :
    Carries (asked (node.advert freq) now) node.agent.key node.agent.iv
      node.me.rsaKey.publickey :=
  ⟨rfl, rfl, rfl, h.key_ne, h.iv_ne⟩

/-- A step of one node that keeps its keys and takes letters away. What is said by the letters
that are left to it must stay in its table, and what is settled must be known. -/
theorem Inv.retarget (h : Inv p der W net) {u : String} {node : Node} {flight : List Envelope}
    (hsub : flight.Sublist net.flight) (hleft : ∀ e ∈ net.flight, e.target ≠ u → e ∈ flight)
    (hme : node.me = (net.nodes u).me) (hup : node.up = (net.nodes u).up)
    (hruns : node.raised = false)
    (hkey : node.agent.key = (net.nodes u).agent.key) (hiv : node.agent.iv = (net.nodes u).agent.iv)
    (hready : node.up = true → Ready p der node)
    (hkept : ∀ e ∈ flight, e.target = u → e.letter.isKcm = true → ∀ key iv pubKey,
      Knows (net.nodes u).agent e.source key iv pubKey → Knows node.agent e.source key iv pubKey)
    (hcurrent : ∀ v, node.up = true → (net.nodes v).up = true → v ∈ W.links u →
      Settled flight v u → node.Hears (net.nodes v)) :
    Inv p der W { nodes := Function.update net.nodes u node, flight := flight } := by
  have hother : ∀ w, w ≠ u → Function.update net.nodes u node w = net.nodes w :=
    fun w hw => Function.update_of_ne hw node net.nodes
  have hself : Function.update net.nodes u node u = node := Function.update_self u node net.nodes
  have hmes : ∀ w, (Function.update net.nodes u node w).me = (net.nodes w).me := by
    intro w
    by_cases hw : w = u
    · rw [hw, hself, hme]
    · rw [hother w hw]
  have hups : ∀ w, (Function.update net.nodes u node w).up = (net.nodes w).up := by
    intro w
    by_cases hw : w = u
    · rw [hw, hself, hup]
    · rw [hother w hw]
  have hkeys : ∀ w, (Function.update net.nodes u node w).agent.key = (net.nodes w).agent.key ∧
      (Function.update net.nodes u node w).agent.iv = (net.nodes w).agent.iv := by
    intro w
    by_cases hw : w = u
    · rw [hw, hself]
      exact ⟨hkey, hiv⟩
    · rw [hother w hw]
      exact ⟨rfl, rfl⟩
  refine ⟨?_, ?_, ?_, ?_, h.apart.sublist hsub, ?_⟩
  · intro v
    dsimp only
    rw [hmes, h.names]
  · intro v
    dsimp only
    by_cases hv : v = u
    · rw [hv, hself, hruns]
    · rw [hother v hv, h.runs]
  · intro v hv
    dsimp only at hv ⊢
    by_cases hvu : v = u
    · rw [hvu, hself] at hv ⊢
      exact hready hv
    · rw [hother v hvu] at hv ⊢
      exact h.ready v hv
  · intro e he
    obtain ⟨hsource, htarget, hlinked, hletter⟩ := h.sound e (hsub.subset he)
    refine ⟨(hups _).trans hsource, (hups _).trans htarget, hlinked, ?_⟩
    dsimp only
    cases hcase : e.letter with
    | request d =>
      rw [hcase] at hletter
      obtain ⟨haddress, freq, hcontent⟩ := hletter
      refine ⟨haddress, freq, ?_⟩
      rw [hcontent, Node.advert, Node.advert, hmes, (hkeys _).1, (hkeys _).2]
    | kcm text key iv =>
      rw [hcase] at hletter
      obtain ⟨hne, htext, hknows⟩ := hletter
      refine ⟨by rwa [(hkeys _).1], by rwa [hmes], ?_⟩
      rw [hmes]
      by_cases hu : e.target = u
      · rw [hu, hself]
        rw [h.names] at hknows ⊢
        rw [hu] at hknows
        exact hkept e he hu (by rw [hcase]; rfl) _ _ _ hknows
      · rw [hother _ hu]
        exact hknows
  · intro v w hv hw hlink hsettled
    dsimp only at hv hw ⊢
    rw [hups] at hv hw
    have htarget : (Function.update net.nodes u node v).Hears (net.nodes w) := by
      by_cases hvu : v = u
      · rw [hvu] at hv hlink hsettled ⊢
        rw [hself]
        exact hcurrent w (hup.trans hv) hw hlink hsettled
      · rw [hother v hvu]
        refine h.current v w hv hw hlink (fun e he hends => ?_)
        exact hsettled e (hleft e he (by rw [hends.2]; exact hvu)) hends
    unfold Node.Hears at htarget ⊢
    rw [hmes w, (hkeys w).1, (hkeys w).2]
    exact htarget

/-- A letter to `u` is taken out. -/
theorem taken {flight before after : List Envelope} {e : Envelope} {u : String}
    (hflight : flight = before ++ e :: after) (hu : e.target = u) :
    (before ++ after).Sublist flight ∧ ∀ e' ∈ flight, e'.target ≠ u → e' ∈ before ++ after := by
  subst hflight
  refine ⟨(List.sublist_cons_self e after).append_left before, ?_⟩
  intro e' he' hne
  simp only [List.mem_append, List.mem_cons] at he' ⊢
  rcases he' with he' | rfl | he'
  · exact Or.inl he'
  · exact absurd hu hne
  · exact Or.inr he'

/-- What is not known of a sender before its letter is taken out is known of the others. -/
theorem settled_of_taken {flight before after : List Envelope} {e : Envelope} {v : String}
    (hflight : flight = before ++ e :: after) (hne : v ≠ e.source)
    (h : Settled (before ++ after) v e.target) : Settled flight v e.target := by
  subst hflight
  intro e' he' hends
  simp only [List.mem_append, List.mem_cons] at he'
  rcases he' with he' | rfl | he'
  · exact h e' (by simp [he']) hends
  · exact hne hends.1.symm
  · exact h e' (by simp [he']) hends

theorem SameKeys.knows {own n : String} {a b : Agent} {key iv : Bytes} {pubKey : RsaPublicKey}
    (hsame : SameKeys own a b) (hn : n ≠ "old_keys") (h : Knows a n key iv pubKey) :
    Knows b n key iv pubKey := by
  obtain ⟨e, he, rfl, rfl, hpub⟩ := h
  have hentry := hsame.entries n hn
  rw [he] at hentry
  obtain ⟨e', he', hkeys⟩ := Option.map_eq_some_iff.mp hentry
  simp only [Prod.mk.injEq] at hkeys
  exact ⟨e', he', hkeys.1, hkeys.2.1, hkeys.2.2.trans hpub⟩

/-- A send is such a step of another thread. -/
theorem SameKeys.perform (p : Platform) (me : Identity) (now : ℤ) (a : Agent)
    (call : Call) : SameKeys me.hostname a (call.perform p me now a).1 := by
  obtain ⟨hkey, hiv⟩ := LinkNotices.perform_keys p me now a call
  refine ⟨hkey, hiv, LinkNotices.perform_steps p me now a call, fun n hn => ?_⟩
  rw [perform_others p me now a call hn]

theorem Inv.others (h : Inv p der W net) {u : String} {a : Agent}
    (hsame : SameKeys (net.nodes u).me.hostname (net.nodes u).agent a) :
    Inv p der W { net with
      nodes := Function.update net.nodes u { net.nodes u with agent := a } } := by
  have hnamed : ∀ v, (net.nodes v).up = true → v ≠ "old_keys" := by
    intro v hv
    rw [← h.names v]
    exact (h.ready v hv).special.2
  refine h.retarget (List.Sublist.refl _) (fun e he _ => he) rfl rfl (h.runs u) hsame.key hsame.iv
    ?_ ?_ ?_
  · intro hup
    have hready := h.ready u hup
    have hadvert : ({ net.nodes u with agent := a } : Node).advert 0 = (net.nodes u).advert 0 := by
      rw [Node.advert, Node.advert, hsame.key, hsame.iv]
    refine ⟨hready.name, hready.key, ⟨?_, ?_, ?_⟩, ?_, ?_⟩
    · exact hready.agreeing.links.steps hready.special.2 hsame.links
    · rw [hsame.key]
      exact hready.agreeing.key
    · rw [hsame.iv]
      exact hready.agreeing.iv
    · obtain ⟨e, he, hkey, hiv⟩ := hready.own
      have hentry := hsame.entries (net.nodes u).me.hostname hready.special.2
      rw [he] at hentry
      obtain ⟨e', he', hkeys⟩ := Option.map_eq_some_iff.mp hentry
      simp only [Prod.mk.injEq] at hkeys
      refine ⟨e', he', ?_, ?_⟩
      · rw [hkeys.1, hkey, hsame.key]
      · rw [hkeys.2.1, hiv, hsame.iv]
    · rw [hadvert]
      exact hready.content
  · intro e he _ _ key iv pubKey
    exact hsame.knows (hnamed _ (h.sound e he).source)
  · intro v hup hv hlink hsettled
    exact hsame.knows (h.ready v hv).special.2 (h.current u v hup hv hlink hsettled)

/-- No other letter to the same target comes from the sender of an announcement. -/
theorem Apart.alone {flight before after : List Envelope} {e e' : Envelope}
    (h : flight.Pairwise Apart) (hflight : flight = before ++ e :: after)
    (he' : e' ∈ before ++ after) (hkcm : e.letter.isKcm = true ∨ e'.letter.isKcm = true)
    (htarget : e'.target = e.target) : e'.source ≠ e.source := by
  subst hflight
  intro hsource
  obtain ⟨-, hafter, hbefore⟩ := List.pairwise_append.mp h
  have hboth : e.letter.isKcm = false ∧ e'.letter.isKcm = false := by
    rcases List.mem_append.mp he' with he' | he'
    · exact (hbefore e' he' e List.mem_cons_self hsource htarget).symm
    · exact (List.pairwise_cons.mp hafter).1 e' he' hsource.symm htarget.symm
  rcases hkcm with hkcm | hkcm
  · rw [hboth.1] at hkcm
    cases hkcm
  · rw [hboth.2] at hkcm
    cases hkcm

/-- Another agent with the same keys and the same own entry. -/
theorem Ready.with_agent {node : Node} (h : Ready p der node) {b : Agent} (raised : Bool)
    (hagreeing : Agreeing node.me b) (hkey : b.key = node.agent.key) (hiv : b.iv = node.agent.iv)
    (hown : b.globalNeighborList.lookup node.me.hostname =
      node.agent.globalNeighborList.lookup node.me.hostname) :
    Ready p der { node with agent := b, raised := raised } := by
  refine ⟨h.name, h.key, hagreeing, ?_, ?_⟩
  · obtain ⟨e, he, hekey, heiv⟩ := h.own
    exact ⟨e, hown.trans he, hekey.trans hkey.symm, heiv.trans hiv.symm⟩
  · have hadvert :
        ({ node with agent := b, raised := raised } : Node).advert 0 = node.advert 0 := by
      rw [Node.advert, Node.advert, hkey, hiv]
    rw [hadvert]
    exact h.content

/-- A request is taken up: its sender is known with the keys that it has. -/
theorem Inv.request (h : Inv p der W net) {before after : List Envelope} {v u : String}
    {d : Datagram} {world : ProbeRequests.World}
    (hflight : net.flight = before ++ ⟨v, u, .request d⟩ :: after)
    (hwait : ∀ a, world.wait a = some a) (hout : Friendly world.outside) :
    Inv p der W
      { nodes := Function.update net.nodes u ((net.nodes u).takeRequest p (W.ips u) world d)
        flight := before ++ after } := by
  obtain ⟨hv, hu, hlink, haddress, freq, hcontent⟩ :=
    h.sound ⟨v, u, .request d⟩ (by rw [hflight]; simp)
  dsimp only at hv hu hlink haddress hcontent
  obtain ⟨address, content⟩ := d
  obtain rfl : content = requestOf p ((net.nodes v).advert freq) := hcontent
  have hreader := h.ready u hu
  have hsender := h.ready v hv
  let entry := asked ((net.nodes v).advert freq) world.now
  let b := ProbeRequests.setProbeRequest (onAPJoined world.outside (net.nodes u).me
    (ProbeRequests.setProbeRequest (net.nodes u).agent false) [entry]) true
  have htake : (net.nodes u).takeRequest p (W.ips u) world
      ⟨address, requestOf p ((net.nodes v).advert freq)⟩ =
        { net.nodes u with agent := b, raised := false } := by
    rw [Node.takeRequest, subscribe_requestOf (hsender.readable freq) haddress (hwait _)
      hreader.agreeing.key hreader.agreeing.iv hreader.key.length]
    rfl
  have hip : entry.ipAddress = (net.nodes v).me.hostname := hsender.name.read_back
  have hne : v ≠ u := fun heq => W.irrefl u (heq ▸ hlink)
  have hown : entry.ipAddress ≠ (net.nodes u).me.hostname := by
    rw [hip, h.names, h.names]
    exact hne
  have hothers : ∀ n, n ≠ (net.nodes v).me.hostname →
      b.globalNeighborList.lookup n = (net.nodes u).agent.globalNeighborList.lookup n := by
    intro n hn
    exact onAPJoined_others (fun r hr => by rw [List.mem_singleton.mp hr, hip]; exact hn.symm)
  have hkeys := LinkNotices.onAPJoined_keys world.outside (net.nodes u).me [entry]
    (ProbeRequests.setProbeRequest (net.nodes u).agent false)
  have hjoined : Agreeing (net.nodes u).me (onAPJoined world.outside (net.nodes u).me
      (ProbeRequests.setProbeRequest (net.nodes u).agent false) [entry]) := by
    have hstart : Agreeing (net.nodes u).me
        (ProbeRequests.setProbeRequest (net.nodes u).agent false) :=
      ⟨hreader.agreeing.links, hreader.agreeing.key, hreader.agreeing.iv⟩
    refine (LinkNotices.apply_steps (p := p) hreader.special hstart
      (.onAPJoined world.outside [entry]) ⟨hout.returning, ?_⟩).2
    intro e he
    rw [List.mem_singleton.mp he, hip]
    exact hsender.special
  have hagreeing : Agreeing (net.nodes u).me b := ⟨hjoined.links, hjoined.key, hjoined.iv⟩
  obtain ⟨hsub, hleft⟩ := taken hflight rfl
  rw [htake]
  refine h.retarget hsub hleft rfl rfl rfl hkeys.1 hkeys.2 ?_ ?_ ?_
  · intro _
    refine hreader.with_agent false hagreeing hkeys.1 hkeys.2 (hothers _ ?_)
    rw [h.names, h.names]
    exact hne.symm
  · intro e he htarget hkcm key iv pubKey hknows
    have hsource := Apart.alone h.apart hflight he (Or.inr hkcm) htarget
    refine hknows.of_lookup (hothers _ ?_)
    rw [h.names]
    exact hsource
  · intro w _ hw hwlink hsettled
    by_cases hwv : w = v
    · subst hwv
      have hknows : Knows b entry.ipAddress (net.nodes w).agent.key (net.nodes w).agent.iv
          (net.nodes w).me.rsaKey.publickey :=
        joinOne_knows (hsender.carries_asked freq world.now) (hout.connects _)
      rw [hip] at hknows
      exact hknows
    · refine (h.current u w hu hw hwlink (settled_of_taken hflight hwv hsettled)).of_lookup
        (hothers _ ?_)
      rw [h.names, h.names]
      exact hwv

/-- An announcement that meets the old keys in the table: the first scan shows the new ones,
and the round returns with them. -/
theorem handleKcm_renews {world : World} {me : Identity} {a : Agent} {f : Frame} {text : Text}
    {v ssid : String} {freq : ℤ} {e r : Neighbor} {key iv : Bytes} {pubKey : RsaPublicKey}
    (hparse : parseKcm text = .ok (freq, ssid, v)) (hhost : f.host = some (.str v))
    (hlook : a.globalNeighborList.lookup v = some e)
    (hshown : KeyRollover.Shows world.outside freq ssid v e.encryptionKey 0 r)
    (hcarries : Carries r key iv pubKey) :
    (handleKcm world me a f text).ended = .returned ∧
      Knows (handleKcm world me a f text).agent v key iv pubKey := by
  have hsome : (a.globalNeighborList.lookup v).isSome = true := by
    rw [hlook]
    rfl
  obtain ⟨htable, hreturned, -⟩ :=
    @KeyChanges.handleKcm_known world me _ _ _ _ _ _ _ _ hparse hhost hsome hlook
  let e' := e.update (kcmEntry world.now freq ssid v)
  have hlook' : (KeyChanges.kcmUpdated world a freq ssid v e).globalNeighborList.lookup v =
      some e' := Rescans.lookup_putNeighbor v _ _
  have hsame : e'.encryptionKey = e.encryptionKey := by
    simp [e', Neighbor.update, kcmEntry]
  have hfirst : KeyRollover.FirstShown world.outside freq ssid v e'.encryptionKey 0 r :=
    ⟨fun j hj => absurd hj (Nat.not_lt_zero j), hsame.symm ▸ hshown⟩
  have hrun : rescan_neighbor world.outside me (KeyChanges.kcmUpdated world a freq ssid v e) freq
      ssid v 10 = (Forwarder.Agent.putNeighbor (KeyChanges.kcmUpdated world a freq ssid v e) v
        (Rescans.renewed e' r), .ok true) :=
    KeyRollover.rescan_neighbor_shown hlook' hfirst (by omega)
  refine ⟨hreturned.mpr ⟨true, by rw [hrun]⟩, Rescans.renewed e' r, ?_, ?_⟩
  · rw [htable, hrun]
    exact Rescans.lookup_putNeighbor v _ _
  · exact hcarries.update _

/-- An announcement is taken up: its sender is known with its new keys. -/
theorem Inv.kcm (h : Inv p der W net) {before after : List Envelope} {v u : String}
    {text key iv : Bytes} {world : World} {now : ℕ → ℤ} {ifs : ℕ → List (String × List Datagram)}
    {f : Frame} (hflight : net.flight = before ++ ⟨v, u, .kcm text key iv⟩ :: after)
    (hout : Friendly world.outside) (hhost : f.host = some (.str v))
    (hheard : ∀ k, Heard W net u (ifs k)) :
    Inv p der W
      { nodes := Function.update net.nodes u ((net.nodes u).takeKcm p world now ifs f text)
        flight := before ++ after } := by
  obtain ⟨hv, hu, hlink, hnew, ⟨freq, htext⟩, e, hlook, hekey, -, -⟩ :=
    h.sound ⟨v, u, .kcm text key iv⟩ (by rw [hflight]; simp)
  dsimp only at hv hu hlink hnew hlook
  have hreader := h.ready u hu
  have hsender := h.ready v hv
  have hne : v ≠ u := fun heq => W.irrefl u (heq ▸ hlink)
  have hnames : (net.nodes v).me.hostname = v := h.names v
  rw [hnames] at htext hlook
  have hparse : parseKcm (unicodeText text) = .ok (freq, virtualSsid v, v) := by
    rw [htext]
    exact (hnames ▸ hsender.name).parseKcm freq
  let world' := (net.nodes u).scanning p world now ifs
  have hshown : KeyRollover.Shows world'.outside freq (virtualSsid v) v e.encryptionKey 0
      (heard ((net.nodes v).advert 0) (now 0)) := by
    obtain ⟨list, hscan, hdict, hmem⟩ := h.scan (h.names u) hreader.key.length
      hreader.agreeing.key hreader.agreeing.iv (hheard 0)
    refine ⟨results list, ?_, hdict, (hmem _).mpr ⟨v, hlink, hv, rfl⟩, ?_, ?_⟩
    · change ((net.nodes u).scan p (now 0) (ifs 0)).map results = _
      rw [hscan]
      rfl
    · exact hsender.name.read_back.trans hnames
    · rw [hekey]
      exact hnew.symm
  let b := (handleKcm world' (net.nodes u).me (net.nodes u).agent f (unicodeText text)).agent
  obtain ⟨hended, hknows⟩ : (handleKcm world' (net.nodes u).me (net.nodes u).agent f
      (unicodeText text)).ended = .returned ∧ Knows b v (net.nodes v).agent.key
        (net.nodes v).agent.iv (net.nodes v).me.rsaKey.publickey :=
    handleKcm_renews hparse hhost hlook hshown (hsender.carries_heard (now 0))
  have htake : (net.nodes u).takeKcm p world now ifs f text =
      { net.nodes u with agent := b, raised := false } := by
    rw [Node.takeKcm, hended]
    rfl
  have hself : v ≠ (net.nodes u).me.hostname ∧ v ≠ "old_keys" := by
    rw [h.names]
    exact ⟨hne, (hnames ▸ hsender.name).oldKeys⟩
  obtain ⟨-, hkey, hiv⟩ : _ ∧ b.key = (net.nodes u).agent.key ∧ b.iv = (net.nodes u).agent.iv :=
    LinkNotices.handleKcm_steps hout.returning hreader.agreeing.links hhost hparse hself
  have hagreeing : Agreeing (net.nodes u).me b :=
    (LinkNotices.apply_steps (p := p) hreader.special hreader.agreeing
      (.receiveKcm world' f (unicodeText text))
      ⟨hout.returning, freq, virtualSsid v, v, hhost, hparse, hself⟩).2
  have hothers : ∀ n, n ≠ v →
      b.globalNeighborList.lookup n = (net.nodes u).agent.globalNeighborList.lookup n :=
    fun n hn => KeyChanges.handleKcm_others hhost hparse hn
  obtain ⟨hsub, hleft⟩ := taken hflight rfl
  rw [htake]
  refine h.retarget hsub hleft rfl rfl rfl hkey hiv ?_ ?_ ?_
  · intro _
    refine hreader.with_agent false hagreeing hkey hiv (hothers _ ?_)
    rw [h.names]
    exact hne.symm
  · intro e' he' htarget _ key iv pubKey hold
    exact hold.of_lookup (hothers _ (Apart.alone h.apart hflight he' (Or.inl rfl) htarget))
  · intro w _ hw hwlink hsettled
    by_cases hwv : w = v
    · subst hwv
      unfold Node.Hears
      rw [hnames]
      exact hknows
    · refine (h.current u w hu hw hwlink (settled_of_taken hflight hwv hsettled)).of_lookup
        (hothers _ ?_)
      rw [h.names]
      exact hwv

theorem changeKeys_self (p : Platform) (W : Wiring) (net : Net) (v : String) (x : Round) :
    (net.changeKeys p W v x).nodes v = (net.nodes v).changeKeys p x := Function.update_self ..

theorem changeKeys_other {v w : String} (hw : w ≠ v) (x : Round) :
    (net.changeKeys p W v x).nodes w = net.nodes w := Function.update_of_ne hw ..

theorem changeKeys_up (v w : String) (x : Round) :
    ((net.changeKeys p W v x).nodes w).up = (net.nodes w).up := by
  by_cases hw : w = v
  · rw [hw, changeKeys_self]
    rfl
  · rw [changeKeys_other hw]

/-- The neighbors that are connected to the node are told of the change. -/
theorem mem_changeKeys_flight {v : String} {x : Round} {e : Envelope} :
    e ∈ (net.changeKeys p W v x).flight ↔ e ∈ net.flight ∨
      ∃ w ∈ W.links v, (net.nodes w).up = true ∧ (v, Port.fwd) ∈ (net.nodes w).agent.frontend ∧
        ⟨v, w, .kcm x.kcm (net.nodes v).agent.key (net.nodes v).agent.iv⟩ = e := by
  simp only [Net.changeKeys, List.mem_append, List.mem_map, List.mem_filter, Bool.and_eq_true,
    List.elem_eq_mem, decide_eq_true_eq, and_assoc]

/-- What a change of the keys comes to: the node has the new keys, and its table keeps what it
has of the neighbors that are up. -/
structure Changed (p : Platform) (der : ℕ) (W : Wiring) (net : Net) (v : String) (x : Round) :
    Prop where
  ready : Ready p der ((net.nodes v).changeKeys p x)
  runs : ((net.nodes v).changeKeys p x).raised = false
  key : ((net.nodes v).changeKeys p x).agent.key = x.key
  keeps : ∀ w ∈ W.links v, (net.nodes w).up = true →
    ((net.nodes v).changeKeys p x).agent.globalNeighborList.lookup w =
      (net.nodes v).agent.globalNeighborList.lookup w

theorem Inv.changed (h : Inv p der W net) {v : String} {x : Round}
    (hup : (net.nodes v).up = true) (hout : Friendly x.outside)
    (hfresh : x.listed - x.sent ≤ 3 * keyChangeInterval)
    (hexpired : NoneExpired x.listed (net.nodes v).agent W v) : Changed p der W net v x := by
  have hsender := h.ready v hup
  obtain ⟨hok, -, hkey, hiv⟩ := LinkNotices.changeKeys_steps (p := p) hsender.special hout.returning
    hsender.agreeing.links hsender.agreeing.key hsender.agreeing.iv hfresh
  have hagreeing := (LinkNotices.apply_steps (p := p) hsender.special hsender.agreeing
    (.changeKeys x) ⟨hout.returning, hfresh⟩).2
  obtain ⟨hown, hlook⟩ := changeKeys_lookup p hsender.special hout.returning hsender.agreeing
  have hkey' : ((net.nodes v).changeKeys p x).agent.key = x.key := hkey
  have hiv' : ((net.nodes v).changeKeys p x).agent.iv = x.iv := hiv
  refine ⟨⟨hsender.name, hsender.key, hagreeing, ?_, rfl⟩, ?_, hkey', fun w hlink hw => ?_⟩
  · rw [hkey', hiv']
    exact hown
  · change (!(LinkNotices.changeKeys p (net.nodes v).me x (net.nodes v).agent).2.isOk) = false
    rw [hok]
    rfl
  · have hspecial := (h.ready w hw).special
    rw [h.names] at hspecial
    refine hlook w ?_ hspecial.2 hspecial.1 (hexpired w hlink)
    rw [h.names]
    rintro rfl
    exact W.irrefl w hlink

section Changes

variable {v : String} {x : Round}

/-- What is under way stays as it is said. -/
theorem Changed.sound (c : Changed p der W net v x) (h : Inv p der W net)
    (hidle : ∀ e ∈ net.flight, e.source ≠ v) {e : Envelope} (he : e ∈ net.flight) :
    e.Sound p W (net.changeKeys p W v x) := by
  obtain ⟨hsource, htarget, hlinked, hletter⟩ := h.sound e he
  refine ⟨(changeKeys_up ..).trans hsource, (changeKeys_up ..).trans htarget, hlinked, ?_⟩
  rw [changeKeys_other (hidle e he)]
  cases hcase : e.letter with
  | request d =>
    rw [hcase] at hletter
    exact hletter
  | kcm text key iv =>
    rw [hcase] at hletter
    obtain ⟨hne, htext, hknows⟩ := hletter
    refine ⟨hne, htext, ?_⟩
    by_cases htv : e.target = v
    · rw [htv] at hknows hlinked ⊢
      rw [changeKeys_self]
      rw [h.names] at hknows ⊢
      exact hknows.of_lookup (c.keeps _ hlinked hsource)
    · rw [changeKeys_other htv]
      exact hknows

/-- The announcement goes out under the keys that the neighbor knows. -/
theorem Changed.announcement (c : Changed p der W net v x) (h : Inv p der W net)
    (hup : (net.nodes v).up = true) (hidle : ∀ e ∈ net.flight, e.source ≠ v)
    (hnew : x.key ≠ (net.nodes v).agent.key) {freq : ℤ}
    (hkcm : x.kcm = KeyRefresh.kcmMessage freq (asciiBytes (virtualSsid v).toList)
      (asciiBytes v.toList)) {w : String} (hlink : w ∈ W.links v) (hw : (net.nodes w).up = true) :
    Envelope.Sound p W (net.changeKeys p W v x)
      ⟨v, w, .kcm x.kcm (net.nodes v).agent.key (net.nodes v).agent.iv⟩ := by
  have hname : ((net.nodes v).changeKeys p x).me.hostname = v := h.names v
  have hne : w ≠ v := by
    rintro rfl
    exact W.irrefl w hlink
  have hknows : (net.nodes w).Hears (net.nodes v) :=
    h.current w v hw hup (W.symm v w hlink) (fun e he hends => hidle e he hends.1)
  refine ⟨(changeKeys_up ..).trans hup, (changeKeys_up ..).trans hw, W.symm v w hlink, ?_⟩
  rw [changeKeys_self, changeKeys_other hne]
  refine ⟨?_, ⟨freq, ?_⟩, hknows⟩
  · rw [c.key]
    exact hnew.symm
  · rw [hkcm, hname]

/-- Every neighbor that has the keys of the node is told of the change. -/
theorem Inv.told (h : Inv p der W net) {u : String} (hu : (net.nodes u).up = true)
    (hup : (net.nodes v).up = true) (hlink : v ∈ W.links u)
    (hhears : (net.nodes u).Hears (net.nodes v)) :
    ⟨v, u, .kcm x.kcm (net.nodes v).agent.key (net.nodes v).agent.iv⟩ ∈
      (net.changeKeys p W v x).flight := by
  have hne : u ≠ v := by
    rintro rfl
    exact W.irrefl u hlink
  obtain ⟨e, hentry, -⟩ := hhears
  have hspecial := (h.ready v hup).special
  rw [h.names] at hentry hspecial
  have hlinked : (v, Port.fwd) ∈ (net.nodes u).agent.frontend := by
    refine ((h.ready u hu).agreeing.links.linked v .fwd).mpr (Or.inr ⟨rfl, ?_, hspecial.2, ?_⟩)
    · rw [h.names]
      exact hne.symm
    · rw [LinkNotices.listed_isSome, hentry]
      rfl
  exact mem_changeKeys_flight.mpr (Or.inr ⟨u, W.symm u v hlink, hu, hlinked, rfl⟩)

/-- With nothing under way, the keys are those that were known before. -/
theorem Changed.current (c : Changed p der W net v x) (h : Inv p der W net) {u w : String}
    (hu : (net.nodes u).up = true) (hw : (net.nodes w).up = true) (hlink : w ∈ W.links u)
    (hsettled : Settled (net.changeKeys p W v x).flight w u) :
    ((net.changeKeys p W v x).nodes u).Hears ((net.changeKeys p W v x).nodes w) := by
  have hhears := h.current u w hu hw hlink
    (fun e he => hsettled e (mem_changeKeys_flight.mpr (Or.inl he)))
  by_cases hwv : w = v
  · rw [hwv] at hw hlink hhears hsettled
    exact absurd ⟨rfl, rfl⟩ (hsettled _ (h.told hu hw hlink hhears))
  · rw [changeKeys_other hwv]
    by_cases huv : u = v
    · rw [huv] at hlink hhears ⊢
      rw [changeKeys_self]
      refine hhears.of_lookup ?_
      rw [h.names]
      exact c.keeps w hlink hw
    · rw [changeKeys_other huv]
      exact hhears

end Changes

theorem Inv.changeKeys (h : Inv p der W net) {v : String} {x : Round} {freq : ℤ}
    (hup : (net.nodes v).up = true) (hidle : ∀ e ∈ net.flight, e.source ≠ v)
    (hout : Friendly x.outside) (hnew : x.key ≠ (net.nodes v).agent.key)
    (hkcm : x.kcm = KeyRefresh.kcmMessage freq (asciiBytes (virtualSsid v).toList)
      (asciiBytes v.toList))
    (hfresh : x.listed - x.sent ≤ 3 * keyChangeInterval)
    (hexpired : NoneExpired x.listed (net.nodes v).agent W v) :
    Inv p der W (net.changeKeys p W v x) := by
  have c := h.changed hup hout hfresh hexpired
  refine ⟨?_, ?_, ?_, ?_, ?_, ?_⟩
  · intro w
    by_cases hw : w = v
    · rw [hw, changeKeys_self]
      exact h.names v
    · rw [changeKeys_other hw, h.names]
  · intro w
    by_cases hw : w = v
    · rw [hw, changeKeys_self, c.runs]
    · rw [changeKeys_other hw, h.runs]
  · intro w hw
    by_cases hwv : w = v
    · rw [hwv, changeKeys_self]
      exact c.ready
    · rw [changeKeys_up] at hw
      rw [changeKeys_other hwv]
      exact h.ready w hw
  · intro e he
    rcases mem_changeKeys_flight.mp he with he | ⟨w, hlink, hw, -, rfl⟩
    · exact c.sound h hidle he
    · exact c.announcement h hup hidle hnew hkcm hlink hw
  · refine List.pairwise_append.mpr ⟨h.apart, ?_, ?_⟩
    · rw [List.pairwise_map]
      refine ((W.nodup v).filter _).imp ?_
      intro w w' hne _ htarget
      exact absurd htarget hne
    · intro e he e' he' hsource
      obtain ⟨w, -, rfl⟩ := List.mem_map.mp he'
      exact absurd hsource (hidle e he)
  · intro u w hu hw hlink hsettled
    rw [changeKeys_up] at hu hw
    exact c.current h hu hw hlink hsettled

end Invariant

end Nxwlan.EmulatedNetwork
