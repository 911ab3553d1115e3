import Nxwlan.SessionMoves

/-!
The threads of two agents step by step: calls of `sendToNeighbor`, changes of the table
by other threads, and the receive thread with the control messages that come in.
-/
namespace Nxwlan.SessionAgreement

open JsonFrames AgentState Forwarder Messaging Rescans ReceiveLoop ReceiveSurvival SessionKeys
open OwnEntry
open PayloadPaths (Paired OaepLawful receiveMessage_carried)
open Base64 (Bytes)

variable {p : Platform} {names : Bool → Identity} {s : Pair} {x y : Bool} {a b : Agent}
  {e d : Neighbor} {n : String}

section Steps

theorem Home.of_keeps {me : Identity} {good : Prop} (h : Home me a) (hkeeps : Keeps me good a b) :
    Home me b :=
  ⟨hkeeps.present h.unlinked h.present, hkeeps.unlinked h.unlinked⟩

theorem Home.of_same {me : Identity} (h : Home me a)
    (hlook : b.globalNeighborList.lookup me.hostname = a.globalNeighborList.lookup me.hostname)
    (hfront : b.frontend = a.frontend) : Home me b :=
  ⟨hlook ▸ h.present, hfront ▸ h.unlinked⟩

theorem Home.putNeighbor {me : Identity} (h : Home me a) (n : String) (d : Neighbor) :
    Home me (Agent.putNeighbor a n d) := by
  refine ⟨?_, h.unlinked⟩
  by_cases hn : me.hostname = n
  · rw [hn, lookup_putNeighbor]
    rfl
  · rw [(EntryOnly.putNeighbor n a d).others _ hn]
    exact h.present

theorem Op.home {me : Identity} (h : Home me a) (op : Op)
    (haside : ∀ b, op = .aside b → b.frontend = a.frontend ∧
      b.globalNeighborList.lookup me.hostname = a.globalNeighborList.lookup me.hostname) :
    Home me (op.apply me a) := by
  cases op with
  | onAPJoined out scanResultList => exact h.of_keeps (.onAPJoined out me scanResultList a)
  | rescanResults out host scanResults =>
    exact h.of_keeps (.rescanResults out me host scanResults false a)
  | onAPLeft out adjacentNode =>
    have hkeeps : Keeps me True a (AgentState.onAPLeft out a adjacentNode).1 :=
      .onAPLeft out a adjacentNode
    exact h.of_keeps hkeeps
  | parse_existing_neighbor now freq ssid ipAddress =>
    unfold Op.apply
    dsimp only
    split
    · rename_i list hparse
      exact h.of_keeps (.parse_existing_neighbor me hparse)
    · exact h
  | changeKeys key iv => exact h.of_same rfl rfl
  | count name lostMessages rxStatsLost rxStatsSuccess =>
    unfold Op.apply
    dsimp only
    split
    · exact h.putNeighbor _ _
    · exact h
  | aside b =>
    obtain ⟨hfront, hlook⟩ := haside b rfl
    exact h.of_same hlook hfront

/-- Only a removal can make an agent forget a key. -/
theorem Op.follows (op : Op) (hproper : op.Proper names x a)
    (hkept : ∀ out node, op = .onAPLeft out node →
      forgets (names !x).hostname a (AgentState.onAPLeft out a node).1 = false) :
    Follows (names !x).rsaKey.publickey (names !x).hostname a (op.apply (names x) a) := by
  cases op with
  | onAPJoined out scanResultList => exact .onAPJoined out _ scanResultList hproper
  | rescanResults out host scanResults => exact .rescanResults out _ host hproper false
  | onAPLeft out adjacentNode => exact .onAPLeft out adjacentNode (hkept out adjacentNode rfl)
  | parse_existing_neighbor now freq ssid ipAddress =>
    unfold Op.apply
    dsimp only
    split
    · rename_i list hparse
      exact .parse_existing_neighbor (fun _ => Or.inl rfl) hparse
    · exact .of_same rfl
  | changeKeys key iv => exact .of_same rfl
  | count name lostMessages rxStatsLost rxStatsSuccess =>
    unfold Op.apply
    dsimp only
    split
    · rename_i entry hlook
      exact .replace hlook rfl fun _ he => he
    · exact .of_same rfl
  | aside b => exact .of_same (hproper.1 !x)

/-- A call without keys of its own leaves table and connections alone. -/
theorem perform_same (p : Platform) (me : Identity) (now : ℤ) (a : Agent) {call : Call}
    (hkeys : call.keys = ([], [])) :
    (call.perform p me now a).1.globalNeighborList = a.globalNeighborList ∧
      (call.perform p me now a).1.frontend = a.frontend := by
  obtain ⟨-, -, -, hlist, hfront⟩ := ThreadSteps.setEvent_key a false (AgentThreads.Call.event call)
  have hstore : storeOldKeys me now (AgentThreads.Agent.setEvent a false
      (AgentThreads.Call.event call)) call.keys.1 call.keys.2 =
        AgentThreads.Agent.setEvent a false (AgentThreads.Call.event call) := by
    rw [hkeys]
    rfl
  rw [AgentThreads.Call.perform_eq]
  dsimp only
  rw [hstore]
  split
  · exact ⟨hlist, hfront⟩
  · exact ⟨hlist, hfront⟩
  · exact ⟨hlist, hfront⟩

/-- What a call leads to: the agent as before, up to events and message number, and
either an exception or the next stage, with a frame on the air or not. -/
theorem performing_cases {stage : Type} (p : Platform) (me : Identity) (now : ℤ) (a : Agent)
    (call : Call) (next raised : stage) (hkeys : call.keys = ([], [])) :
    ∃ b, b.globalNeighborList = a.globalNeighborList ∧ b.frontend = a.frontend ∧
      (performing p me now a call next raised = (b, raised, none) ∨
        performing p me now a call next raised = (b, next, none) ∨
        performing p me now a call next raised = (b, next, some call)) := by
  obtain ⟨hlist, hfront⟩ := perform_same p me now a hkeys
  unfold performing
  rcases hrun : call.perform p me now a with ⟨b, err | _ | f⟩
  · rw [hrun] at hlist hfront
    exact ⟨b, hlist, hfront, Or.inl rfl⟩
  · rw [hrun] at hlist hfront
    exact ⟨b, hlist, hfront, Or.inr (Or.inl rfl)⟩
  · rw [hrun] at hlist hfront
    exact ⟨b, hlist, hfront, Or.inr (Or.inr rfl)⟩

/-- A thread in `sendToNeighbor` writes nothing but the flag in the entry, and sends
requests and messages only. -/
theorem sendStep_spec (p : Platform) (k : RsaPublicKey) (n : String) {me : Identity}
    (hhome : Home me a) (now : ℤ) (stage : Sending) :
    Follows k n a (sendStep p me now a stage).1 ∧ Home me (sendStep p me now a stage).1 ∧
      ∀ call, (sendStep p me now a stage).2.2 = some call →
        (∃ node, call = rukCall node) ∨ ∃ message node, stage = .send message node ∧
          call = .sendToNeighbor message node := by
  have hcall : ∀ (call : Call) (next : Sending), call.keys = ([], []) →
      Follows k n a (performing p me now a call next .raised).1 ∧
        Home me (performing p me now a call next .raised).1 ∧
        ∀ call', (performing p me now a call next .raised).2.2 = some call' → call' = call := by
    intro call next hkeys
    obtain ⟨b, hlist, hfront, hrun | hrun | hrun⟩ := performing_cases p me now a call next .raised hkeys
    all_goals
      rw [hrun]
      exact ⟨.of_same (by rw [hlist]), hhome.of_same (by rw [hlist]) hfront, by simp⟩
  have hquiet : ∀ next : Sending, Follows k n a ((a, next, (none : Option Call))).1 ∧
      Home me ((a, next, (none : Option Call))).1 ∧
      ∀ call, ((a, next, (none : Option Call))).2.2 = some call →
        (∃ node, call = rukCall node) ∨ ∃ message node, stage = .send message node ∧
          call = .sendToNeighbor message node :=
    fun _ => ⟨.of_same rfl, hhome, by simp⟩
  cases stage with
  | idle => exact hquiet _
  | test message nodeID retries =>
    unfold sendStep
    dsimp only
    split
    · exact hquiet _
    · split
      · exact hquiet _
      · exact hquiet _
  | ask message nodeID retries =>
    obtain ⟨hf, hh, hsent⟩ := hcall (rukCall nodeID) (.asked message nodeID retries) rfl
    exact ⟨hf, hh, fun call hc => Or.inl ⟨nodeID, hsent call hc⟩⟩
  | asked message nodeID retries =>
    unfold sendStep
    dsimp only
    split
    · split
      · exact hquiet _
      · rename_i entry hlook
        exact ⟨.replace hlook rfl fun _ he => he, hhome.putNeighbor _ _, by simp⟩
    · exact hquiet _
  | send message nodeID =>
    obtain ⟨hf, hh, hsent⟩ := hcall (.sendToNeighbor message nodeID) (.returned .success) rfl
    exact ⟨hf, hh, fun call hc => Or.inr ⟨message, nodeID, rfl, hsent call hc⟩⟩
  | returned result => exact hquiet _
  | raised => exact hquiet _

theorem advance_some (s : Pair) (x : Bool) (next : Host) (now : ℤ) (call : Call) :
    s.advance x next now (some call) =
      (s.push [⟨x, now, (s.host x).agent, call⟩]).advance x next now none := by
  simp [Pair.advance, Pair.push]

/-- Keys that AES takes are those of one answer that still counts. -/
theorem Agreed.sendKeys (h : Agreed names s)
    (he : (s.host x).agent.globalNeighborList.lookup (names !x).hostname = some e)
    (hcurrent : Current names s x e)
    (haes : aesAccepts e.unicastSendKey e.unicastSendIv = true) :
    Answered names (s.recent !x) (!x) e.unicastSendKey e.unicastSendIv := by
  have hok := h.sending x e he
  obtain ⟨hkey, hiv⟩ := ne_nil_of_aesAccepts haes
  obtain ⟨i, hans⟩ := hok.key.resolve_left hkey
  obtain ⟨k, hans'⟩ := hok.iv.resolve_left hiv
  obtain ⟨i', hrecent⟩ := hcurrent.key i hans
  obtain ⟨k', hrecent'⟩ := hcurrent.iv k hans'
  rw [(h.unique (!x) _ i' k' _ hrecent hrecent').2]
  exact hrecent

/-- A request or a message on the air. -/
theorem Agreed.asks (h : Agreed names s) (now : ℤ) {call : Call}
    (hcall : (∃ node, call = rukCall node) ∨ ∃ message node, call = .sendToNeighbor message node ∧
      (node = (names !x).hostname → ∀ e,
        (s.host x).agent.globalNeighborList.lookup (names !x).hostname = some e →
          Current names s x e)) :
    Agreed names (s.push [⟨x, now, (s.host x).agent, call⟩]) := by
  have hnot : ∀ k i n, call ≠ nukCall k i n := by
    rintro k i n hc
    rcases hcall with ⟨node, rfl⟩ | ⟨message, node, rfl, -⟩
    · simp [rukCall, nukCall] at hc
    · cases hc
  refine h.sends ?_ ?_ (fun k i _ hc => absurd hc (hnot k i _))
  · intro hreceiver
    refine ⟨h.authentic x, ?_⟩
    rcases hcall with ⟨node, rfl⟩ | ⟨message, node, rfl, -⟩
    · obtain rfl : node = (names !x).hostname := hreceiver
      exact Or.inl rfl
    · obtain rfl : node = (names !x).hostname := hreceiver
      exact Or.inr (Or.inr ⟨message, rfl⟩)
  · intro y horigin message hc e he haes
    have hxy : x = !y := horigin
    obtain rfl : y = !x := by
      rw [hxy, Bool.not_not]
    rcases hcall with ⟨node, rfl⟩ | ⟨message', node, rfl, hcurrent⟩
    · cases hc
    · obtain ⟨-, rfl⟩ := Call.sendToNeighbor.inj hc
      exact h.sendKeys he (hcurrent rfl e he) haes

/-- A thread of an application. -/
theorem Agreed.sender (h : Agreed names s) (t : ℕ) (now : ℤ)
    (hrenews : Renews names s (.sender x t now)) {next : Agent × Sending × Option Call}
    (hnext : sendStep p (names x) now (s.host x).agent ((s.host x).senders t) = next) :
    Agreed names (s.advance x { s.host x with
      agent := next.1, senders := Function.update (s.host x).senders t next.2.1 } now next.2.2) := by
  obtain ⟨hf, hhome, hcalls⟩ := sendStep_spec p (names !x).rsaKey.publickey (names !x).hostname
    (h.home x) now ((s.host x).senders t)
  rw [hnext] at hf hhome hcalls
  cases hcall : next.2.2 with
  | none =>
    refine h.follow ?_ ?_ ?_ now
    · exact hhome
    · rfl
    · exact hf
  | some call =>
    rw [advance_some]
    have hasks : Agreed names (s.push [⟨x, now, (s.host x).agent, call⟩]) := by
      refine h.asks now ?_
      rcases hcalls call hcall with hruk | ⟨message, node, hstage, rfl⟩
      · exact Or.inl hruk
      · refine Or.inr ⟨message, node, rfl, ?_⟩
        rintro rfl
        exact hrenews message hstage
    refine hasks.follow ?_ ?_ ?_ now
    · exact hhome
    · rfl
    · exact hf

theorem Agreed.sendToNeighbor (h : Agreed names s) (t : ℕ) (message : Bytes) (nodeID : String) :
    Agreed names (s.advance x { s.host x with
      agent := (SessionKeys.sendToNeighbor (s.host x).agent message nodeID).1
      senders := Function.update (s.host x).senders t
        (SessionKeys.sendToNeighbor (s.host x).agent message nodeID).2 } 0 none) := by
  refine h.follow ?_ ?_ ?_ 0
  · unfold SessionKeys.sendToNeighbor
    split
    · exact h.home x
    · split
      · exact h.home x
      · exact (h.home x).putNeighbor _ _
  · rfl
  · unfold SessionKeys.sendToNeighbor
    split
    · exact .of_same rfl
    · rename_i entry hlook
      split
      · exact .of_same rfl
      · exact .replace hlook rfl fun _ he => he

theorem Agreed.table (h : Agreed names s) (op : Op) (hproper : op.Proper names x (s.host x).agent)
    (hrenews : Renews names s (.table x op)) {b : Agent}
    (hb : op.apply (names x) (s.host x).agent = b) :
    Agreed names (if forgets (names !x).hostname (s.host x).agent b
      then (s.advance x { s.host x with agent := b } 0 none).forget x
      else s.advance x { s.host x with agent := b } 0 none) := by
  subst hb
  have hhome : Home (names x) (op.apply (names x) (s.host x).agent) := by
    refine op.home (h.home x) ?_
    rintro b rfl
    exact ⟨hproper.2, hproper.1 x⟩
  split
  · rename_i hforgets
    refine h.removes ?_ ?_ ?_ (hrenews hforgets) 0
    · exact hhome
    · rfl
    · rw [forgets, Bool.and_eq_true, Option.isNone_iff_eq_none] at hforgets
      exact hforgets.2
  · rename_i hkept
    refine h.follow ?_ ?_ ?_ 0
    · exact hhome
    · rfl
    · refine op.follows hproper ?_
      rintro out node rfl
      exact Bool.eq_false_iff.mpr hkept

end Steps

section Receiving

variable {next : Host} {k i : Bytes}

/-- A step of the receive thread of `x` that leaves the table alone, up to what session
keys do not depend on, and sends nothing. -/
theorem Agreed.rests (h : Agreed names s) (now : ℤ)
    (hlist : next.agent.globalNeighborList = (s.host x).agent.globalNeighborList)
    (hfront : next.agent.frontend = (s.host x).agent.frontend)
    (hstage : StageOk names s.sent (s.recent x) x next.agent next.thread)
    (hgiven : ∀ k i, Answered names (s.recent x) x k i →
      Holding next.agent (names !x).hostname k i next.thread) :
    Agreed names (s.advance x next now none) := by
  refine h.moves now ((h.home x).of_same (by rw [hlist]) hfront) ?_ hstage hgiven
  rw [hlist]
  exact fun e he => ⟨h.authentic x e he, h.sending x e he⟩

/-- The receive thread ends with an exception. -/
theorem Agreed.ends (h : Agreed names s) (now : ℤ) (hthread : next.thread = .ended)
    (hlist : next.agent.globalNeighborList = (s.host x).agent.globalNeighborList)
    (hfront : next.agent.frontend = (s.host x).agent.frontend) :
    Agreed names (s.advance x next now none) := by
  refine h.rests now hlist hfront ?_ ?_
  · rw [hthread]
    trivial
  · intro k i _
    rw [hthread]
    trivial

theorem HasRec.of_table (h : HasRec a n k i) (hlist : b.globalNeighborList = a.globalNeighborList) :
    HasRec b n k i := by
  obtain ⟨e, he, hkeys⟩ := h
  exact ⟨e, hlist ▸ he, hkeys⟩

theorem hasRec_put (a : Agent) (n : String) (d : Neighbor) :
    HasRec (Agent.putNeighbor a n d) n d.unicastRecKey d.unicastRecIv :=
  ⟨d, lookup_putNeighbor n a d, rfl, rfl⟩

theorem HasRec.eq (h : HasRec a n k i) (he : a.globalNeighborList.lookup n = some e) :
    e.unicastRecKey = k ∧ e.unicastRecIv = i := by
  obtain ⟨e', he', hkeys⟩ := h
  obtain rfl := Option.some.inj (he.symm.trans he')
  exact hkeys

/-- The answer is on its way. -/
theorem Agreed.replied (h : Agreed names s) (now : ℤ) {host : String} {fresh : Bool}
    (hthread : (s.host x).thread = .reply host k i fresh)
    (hnext : next.thread = if fresh then .storeRecKey host k i else .idle)
    (hlist : next.agent.globalNeighborList = (s.host x).agent.globalNeighborList)
    (hfront : next.agent.frontend = (s.host x).agent.frontend) :
    Agreed names (s.advance x next now none) := by
  have hstage := h.stage x
  have hgiven := h.given x
  rw [hthread] at hstage hgiven
  cases fresh with
  | true =>
    obtain ⟨rfl, hsized, hnone, hall⟩ := hstage
    refine h.rests now hlist hfront ?_ ?_
    · rw [hnext]
      exact ⟨rfl, hsized, fun e he => hnone e (hlist ▸ he)⟩
    · intro k' i' hans
      obtain ⟨rfl, rfl⟩ := hall k' i' hans
      rw [hnext]
      exact ⟨rfl, rfl, rfl⟩
  | false =>
    obtain ⟨rfl, hsized, hrec⟩ := hstage
    refine h.rests now hlist hfront ?_ ?_
    · rw [hnext]
      intro e he
      obtain ⟨rfl, rfl⟩ := hrec.eq (hlist ▸ he)
      exact Or.inr hsized
    · intro k' i' hans
      have hhas : HasRec (s.host x).agent (names !x).hostname k' i' := hgiven k' i' hans
      rw [hnext]
      exact hhas.of_table hlist

/-- The key in hand is the one that all answers have given out. -/
theorem Agreed.answers (h : Agreed names s) (now : ℤ) {host : String} {fresh : Bool}
    (hthread : (s.host x).thread = .reply host k i fresh) :
    Agreed names (s.push [⟨x, now, (s.host x).agent, nukCall k i host⟩]) := by
  have hstage := h.stage x
  have hgiven := h.given x
  rw [hthread] at hstage hgiven
  have hhost : host = (names !x).hostname ∧ Sized k i := by
    cases fresh with
    | true => exact ⟨hstage.1, hstage.2.1⟩
    | false => exact ⟨hstage.1, hstage.2.1⟩
  obtain ⟨rfl, hsized⟩ := hhost
  refine h.sends ?_ ?_ ?_
  · exact fun _ => ⟨h.authentic x, Or.inr (Or.inl ⟨k, i, hsized, rfl⟩)⟩
  · intro y _ message hc
    cases hc
  · intro k' i' hsized' hc
    have hmessage : nukMessage k i = nukMessage k' i' := by
      simpa [nukCall] using hc
    obtain ⟨rfl, rfl⟩ := nukMessage_inj (hsized.1.trans hsized'.1.symm) hmessage
    rw [hthread]
    cases fresh with
    | true => exact ⟨⟨rfl, rfl, rfl⟩, hstage.2.2.2⟩
    | false =>
      obtain ⟨-, -, hrec⟩ := hstage
      refine ⟨hrec, ?_⟩
      intro k'' i'' hans
      obtain ⟨e, he, hkey, hiv⟩ := hrec
      have hhas : HasRec (s.host x).agent (names !x).hostname k'' i'' := hgiven k'' i'' hans
      obtain ⟨hkey', hiv'⟩ := hhas.eq he
      exact ⟨hkey'.symm.trans hkey, hiv'.symm.trans hiv⟩

/-- An assignment of the receive thread to the entry of the other agent. -/
theorem Agreed.assigns (h : Agreed names s) (now : ℤ)
    (hlook : (s.host x).agent.globalNeighborList.lookup (names !x).hostname = some e)
    (hlist : next.agent.globalNeighborList =
      (s.host x).agent.globalNeighborList.insert (names !x).hostname d)
    (hfront : next.agent.frontend = (s.host x).agent.frontend)
    (hpub : d.pubKey = e.pubKey) (hsend : SendOk names s.sent x d)
    (hstage : StageOk names s.sent (s.recent x) x next.agent next.thread)
    (hgiven : ∀ k i, Answered names (s.recent x) x k i →
      Holding next.agent (names !x).hostname k i next.thread) :
    Agreed names (s.advance x next now none) := by
  have hhome := ((h.home x).putNeighbor (names !x).hostname d).of_same (by rw [hlist]; rfl) hfront
  refine h.moves now hhome ?_ hstage hgiven
  rw [hlist, AList.lookup_insert]
  intro d' hd'
  obtain rfl := Option.some.inj hd'
  exact ⟨hpub.trans (h.authentic x e hlook), hsend⟩

/-- The key that was sent is stored. -/
theorem Agreed.storesKey (h : Agreed names s) (now : ℤ) {host : String}
    (hthread : (s.host x).thread = .storeRecKey host k i)
    (hlook : (s.host x).agent.globalNeighborList.lookup host = some e)
    (hagent : next.agent = Agent.putNeighbor (s.host x).agent host { e with unicastRecKey := k })
    (hnext : next.thread = .storeRecIv host i) : Agreed names (s.advance x next now none) := by
  have hstage := h.stage x
  have hgiven := h.given x
  rw [hthread] at hstage hgiven
  obtain ⟨rfl, hsized, -⟩ := hstage
  have hrec : HasRec next.agent (names !x).hostname k e.unicastRecIv := by
    rw [hagent]
    exact hasRec_put _ _ _
  refine h.assigns now hlook (congrArg Agent.globalNeighborList hagent)
    (by rw [hagent]; rfl) rfl ((h.sending x e hlook).of_same rfl rfl) ?_ ?_
  · rw [hnext]
    refine ⟨rfl, hsized.2, ?_⟩
    intro d hd
    rw [(hrec.eq hd).1]
    exact Or.inr hsized.1
  · intro k' i' hans
    obtain ⟨-, rfl, rfl⟩ := hgiven k' i' hans
    obtain ⟨d, hd, hkey, -⟩ := hrec
    rw [hnext]
    exact ⟨rfl, rfl, d, hd, hkey⟩

/-- And the vector after it. -/
theorem Agreed.storesIv (h : Agreed names s) (now : ℤ) {host : String}
    (hthread : (s.host x).thread = .storeRecIv host i)
    (hlook : (s.host x).agent.globalNeighborList.lookup host = some e)
    (hagent : next.agent = Agent.putNeighbor (s.host x).agent host { e with unicastRecIv := i })
    (hnext : next.thread = .idle) : Agreed names (s.advance x next now none) := by
  have hstage := h.stage x
  have hgiven := h.given x
  rw [hthread] at hstage hgiven
  obtain ⟨rfl, hlen, hwhole⟩ := hstage
  refine h.assigns now hlook (congrArg Agent.globalNeighborList hagent)
    (by rw [hagent]; rfl) rfl ((h.sending x e hlook).of_same rfl rfl) ?_ ?_
  · rw [hnext, hagent]
    intro d hd
    rw [lookup_putNeighbor] at hd
    obtain rfl := Option.some.inj hd
    rcases hwhole e hlook with hnil | hkey
    · exact Or.inl hnil
    · exact Or.inr ⟨hkey, hlen⟩
  · intro k' i' hans
    obtain ⟨-, rfl, e', he', rfl⟩ := hgiven k' i' hans
    obtain rfl := Option.some.inj (hlook.symm.trans he')
    rw [hnext, hagent]
    exact hasRec_put _ _ _

/-- The vector of an answer is stored. -/
theorem Agreed.storesSendIv (h : Agreed names s) (now : ℤ) {host : String} {nukMsg : Json}
    (hthread : (s.host x).thread = .storeSendIv host nukMsg) (hiv : nukField "iv" nukMsg = .ok i)
    (hlook : (s.host x).agent.globalNeighborList.lookup host = some e)
    (hagent : next.agent = Agent.putNeighbor (s.host x).agent host
      { e with unicastSendIv := i, waitingForUnicastKeys := true })
    (hnext : next.thread = .idle) : Agreed names (s.advance x next now none) := by
  have hstage := h.stage x
  have hgiven := h.given x
  rw [hthread] at hstage hgiven
  obtain ⟨rfl, hwhole, k, i', hans, hiv'⟩ := hstage
  obtain rfl := Except.ok.inj (hiv'.symm.trans hiv)
  have hsend : SendOk names s.sent x { e with unicastSendIv := i', waitingForUnicastKeys := true } :=
    ⟨(h.sending x e hlook).key, Or.inr ⟨k, hans⟩⟩
  refine h.assigns now hlook (congrArg Agent.globalNeighborList hagent)
    (by rw [hagent]; rfl) rfl hsend ?_ ?_
  · rw [hnext, hagent]
    intro d hd
    rw [lookup_putNeighbor] at hd
    obtain rfl := Option.some.inj hd
    exact hwhole e hlook
  · intro k' i'' hans'
    have hhas : HasRec (s.host x).agent (names !x).hostname k' i'' := hgiven k' i'' hans'
    obtain ⟨rfl, rfl⟩ := hhas.eq hlook
    rw [hnext, hagent]
    exact hasRec_put _ _ _

/-- The receive thread goes on with the message in its hands. -/
theorem Agreed.handle (h : Agreed names s) (now : ℤ) {r : Agent × Handling × Option Call}
    (hr : handleStep p (names x) now (s.host x).agent (s.host x).thread = r) :
    Agreed names (s.advance x { s.host x with agent := r.1, thread := r.2.1 } now r.2.2) := by
  cases hthread : (s.host x).thread with
  | idle =>
    rw [hthread] at hr
    subst hr
    refine h.follow ?_ ?_ ?_ now
    · exact h.home x
    · exact hthread.symm
    · exact .of_same rfl
  | ended =>
    rw [hthread] at hr
    subst hr
    refine h.follow ?_ ?_ ?_ now
    · exact h.home x
    · exact hthread.symm
    · exact .of_same rfl
  | reply host k i fresh =>
    rw [hthread, handleStep] at hr
    obtain ⟨b, hlist, hfront, hrun | hrun | hrun⟩ := performing_cases p (names x) now
      (s.host x).agent (nukCall k i host) (if fresh then Handling.storeRecKey host k i else .idle)
      .ended rfl
    · rw [hrun] at hr
      subst hr
      refine h.ends now ?_ ?_ ?_
      · rfl
      · exact hlist
      · exact hfront
    · rw [hrun] at hr
      subst hr
      refine h.replied now hthread ?_ ?_ ?_
      · rfl
      · exact hlist
      · exact hfront
    · rw [hrun] at hr
      subst hr
      rw [advance_some]
      refine (h.answers now hthread).replied now hthread ?_ ?_ ?_
      · rfl
      · exact hlist
      · exact hfront
  | storeRecKey host k i =>
    rw [hthread, handleStep] at hr
    split at hr
    · subst hr
      refine h.ends now ?_ ?_ ?_
      · rfl
      · rfl
      · rfl
    · rename_i e hlook
      subst hr
      refine h.storesKey now hthread hlook ?_ ?_
      · rfl
      · rfl
  | storeRecIv host i =>
    rw [hthread, handleStep] at hr
    split at hr
    · subst hr
      refine h.ends now ?_ ?_ ?_
      · rfl
      · rfl
      · rfl
    · rename_i e hlook
      subst hr
      refine h.storesIv now hthread hlook ?_ ?_
      · rfl
      · rfl
  | storeSendIv host nukMsg =>
    rw [hthread, handleStep] at hr
    split at hr
    · rename_i iv e hiv hlook
      subst hr
      refine h.storesSendIv now hthread hiv hlook ?_ ?_
      · rfl
      · rfl
    · subst hr
      refine h.ends now ?_ ?_ ?_
      · rfl
      · rfl
      · rfl

/-- A data frame is not a control message, whatever comes of it. -/
theorem takeFrame_data (p : Platform) (world : World) (me : Identity) (a : Agent) {g : Frame}
    (htype : g.msg_type = some (.str "data")) :
    (takeFrame p world me a g).1.globalNeighborList = a.globalNeighborList ∧
      (takeFrame p world me a g).1.frontend = a.frontend ∧
      ((takeFrame p world me a g).2 = .idle ∨ (takeFrame p world me a g).2 = .ended) := by
  have hfinished : ∀ r : Handled, (finished r).2 = .idle ∨ (finished r).2 = .ended := by
    intro r
    unfold finished
    dsimp only
    split
    · exact Or.inl rfl
    · exact Or.inr rfl
  unfold takeFrame
  cases hrec : receiveMessage p me a g with
  | ctrl plain =>
    rw [msg_type_of_ctrl hrec] at htype
    simp at htype
  | callback plain =>
    refine ⟨?_, ?_, hfinished _⟩
    · simp only [finished, handleText, rxCbInternal_agent]
      rfl
    · simp only [finished, handleText, rxCbInternal_agent]
      rfl
  | _ => exact ⟨rfl, rfl, hfinished _⟩

/-- What the two agents know of each other when a control message arrives. -/
theorem paired_ctrl (hpeers : Peers names) {r : Sent} {g : Frame} (harr : Arrives p names s x g r)
    (hok : CallOk names r) (hctrl : r.call.msgType = "ctrl") (b : Agent) :
    Paired (names !x) (names x) r.call r.agent b := by
  have hself : (!r.origin) = x := by
    rw [harr.origin, Bool.not_not]
  refine ⟨(hpeers.named x).1, ?_, ?_⟩
  · intro _
    have hpub := hok.pubKey
    rw [hself] at hpub
    exact ⟨(hpeers.sized x).1, (hpeers.sized x).2, hpub⟩
  · intro hdata
    rw [hctrl] at hdata
    exact absurd hdata (by decide)

/-- A control message that arrives is read as it was sent. -/
theorem receives_ctrl (hp : p.Lawful) (hoaep : OaepLawful p) (hpeers : Peers names) {r : Sent}
    {g : Frame} (harr : Arrives p names s x g r) (hok : CallOk names r)
    (hctrl : r.call.msgType = "ctrl") :
    receiveMessage p (names x) (s.host x).agent g = .ctrl r.call.message := by
  obtain ⟨plain, hplain, hg⟩ := harr.carries
  rw [receiveMessage_carried hp hoaep harr.accepts hplain hg (hpeers.distinct x)
    (Or.inr harr.receiver) (fun _ => paired_ctrl hpeers harr hok hctrl _), if_pos hctrl]

theorem entryAt_received {a : Agent} {g : Frame} {host : String}
    (hhost : g.host = some (.str host)) :
    entryAt g.host (Agent.setNeighborMessage a true).globalNeighborList =
      .ok ((a.globalNeighborList.lookup host).map (fun entry => (host, entry))) := by
  rw [hhost]
  rfl

/-- A request has come. The answer in hand is the key of the entry, or a new one if none
has been given out. -/
theorem Agreed.receivesRuk (h : Agreed names s) (hidle : (s.host x).thread = .idle) {world : World}
    (hfresh : Sized world.freshKeys.1 world.freshKeys.2) {g : Frame}
    (hhost : g.host = some (.str (names !x).hostname)) {q : Agent × Handling}
    (hq : startRuk world (Agent.setNeighborMessage (s.host x).agent true) g = q) :
    Agreed names (s.advance x { s.host x with agent := q.1, thread := q.2 } 0 none) := by
  have hstage := h.stage x
  have hgiven := h.given x
  rw [hidle] at hstage hgiven
  have hhas : ∀ k i, Answered names (s.recent x) x k i →
      HasRec (Agent.setNeighborMessage (s.host x).agent true) (names !x).hostname k i :=
    fun k i hans => HasRec.of_table (hgiven k i hans) rfl
  have hentry := entryAt_received (a := (s.host x).agent) hhost
  unfold startRuk at hq
  rw [hentry] at hq
  cases hlook : (s.host x).agent.globalNeighborList.lookup (names !x).hostname with
  | none =>
    rw [hlook] at hq
    subst hq
    refine h.rests 0 ?_ ?_ ?_ ?_
    · rfl
    · rfl
    · exact hstage
    · exact hhas
  | some e =>
    rw [hlook] at hq
    dsimp only [Option.map_some] at hq
    split at hq
    · rename_i hlong
      subst hq
      refine h.rests 0 ?_ ?_ ?_ ?_
      · rfl
      · rfl
      · -- a key of more than two bytes is a whole one
        refine ⟨rfl, ?_, e, hlook, rfl, rfl⟩
        rcases hstage e hlook with hnil | hsized
        · rw [hnil] at hlong
          exact absurd hlong (by decide)
        · exact hsized
      · exact hhas
    · rename_i hshort
      have hnone : NoKey (s.host x).agent (names !x).hostname := by
        intro e' he'
        obtain rfl := Option.some.inj (hlook.symm.trans he')
        rcases hstage e hlook with hnil | hsized
        · exact hnil
        · rw [hsized.1] at hshort
          exact absurd (by decide) hshort
      -- so no answer that still counts has been given
      have hnew : ∀ k i, ¬ Answered names (s.recent x) x k i := by
        intro k i hans
        have hlen := hans.1.1
        rw [← ((hhas k i hans).eq hlook).1, hnone e hlook] at hlen
        exact absurd hlen (by decide)
      subst hq
      refine h.rests 0 ?_ ?_ ?_ ?_
      · rfl
      · rfl
      · exact ⟨rfl, hfresh, hnone, fun k i hans => absurd hans (hnew k i)⟩
      · exact fun k i hans => absurd hans (hnew k i)

/-- The answers are JSON texts. -/
theorem ReadsJson.reply {loads : PyText.Text → Option Json} (h : ReadsJson loads)
    (key iv : Bytes) : loads (unicodeText (nukMessage key iv)) =
      some (.obj [("key", .str (String.ofList (hexEncode key))),
        ("iv", .str (String.ofList (hexEncode iv)))]) := by
  obtain ⟨float, hloads⟩ := h
  have hhex : ∀ value : Bytes, ∀ c ∈ hexEncode value, JsonText.isPlain c = true := by
    intro value
    exact hexEncode_digits (P := fun c => JsonText.isPlain c = true) (by decide) value
  have htext : unicodeText (nukMessage key iv) =
      JsonText.dumps [("key".toList, hexEncode key), ("iv".toList, hexEncode iv)] := by
    rw [nukMessage, PayloadPaths.unicodeText_asciiBytes (nukMessage_ascii key iv)]
    simp [JsonText.dumps, JsonText.dumpMember, JsonText.quote]
  refine hloads _ _ ?_
  rw [htext, JsonText.loads_dumps ?_ ?_ 98]
  · simp
  · simp only [List.forall_mem_cons, List.not_mem_nil, false_implies, implies_true, and_true]
    exact ⟨⟨PyText.forall_of_all (by decide), hhex key⟩,
      PyText.forall_of_all (by decide), hhex iv⟩
  · change ["key".toList, "iv".toList].Nodup
    decide

/-- An answer has come. Its key goes into the entry at once. -/
theorem Agreed.receivesNuk (h : Agreed names s) (hidle : (s.host x).thread = .idle) {world : World}
    (hloads : ReadsJson world.loads) {g : Frame}
    (hhost : g.host = some (.str (names !x).hostname)) (hans : Answered names s.sent (!x) k i)
    {q : Agent × Handling}
    (hq : startNuk world (Agent.setNeighborMessage (s.host x).agent true) g
      (unicodeText (nukMessage k i)) = q) :
    Agreed names (s.advance x { s.host x with agent := q.1, thread := q.2 } 0 none) := by
  have hstage := h.stage x
  have hgiven := h.given x
  rw [hidle] at hstage hgiven
  have hentry := entryAt_received (a := (s.host x).agent) hhost
  unfold startNuk at hq
  rw [hentry, hloads.reply k i] at hq
  cases hlook : (s.host x).agent.globalNeighborList.lookup (names !x).hostname with
  | none =>
    rw [hlook] at hq
    subst hq
    refine h.rests 0 ?_ ?_ ?_ ?_
    · rfl
    · rfl
    · exact hstage
    · exact fun k' i' hans' => HasRec.of_table (hgiven k' i' hans') rfl
  | some e =>
    have hkey : nukField "key" (.obj [("key", .str (String.ofList (hexEncode k))),
        ("iv", .str (String.ofList (hexEncode i)))]) = .ok k := nukField_reply rfl
    simp only [hlook, Option.map_some, hkey] at hq
    subst hq
    have hrec : ∀ k' i', HasRec (s.host x).agent (names !x).hostname k' i' →
        HasRec (Agent.putNeighbor (Agent.setNeighborMessage (s.host x).agent true)
          (names !x).hostname { e with unicastSendKey := k }) (names !x).hostname k' i' := by
      intro k' i' hhas
      obtain ⟨rfl, rfl⟩ := hhas.eq hlook
      exact hasRec_put _ _ _
    refine h.assigns (d := { e with unicastSendKey := k }) 0 hlook ?_ ?_ ?_ ?_ ?_ ?_
    · rfl
    · rfl
    · rfl
    · exact ⟨Or.inr ⟨i, hans⟩, (h.sending x e hlook).iv⟩
    · refine ⟨rfl, ?_, k, i, hans, nukField_reply rfl⟩
      intro d hd
      obtain rfl := Option.some.inj ((lookup_putNeighbor _ _ _).symm.trans hd)
      exact hstage e hlook
    · intro k' i' hans'
      exact hrec k' i' (hgiven k' i' hans')

/-- The receive thread takes a frame that has arrived. -/
theorem Agreed.receives (hp : p.Lawful) (hoaep : OaepLawful p) (hpeers : Peers names)
    (h : Agreed names s) (hidle : (s.host x).thread = .idle) {world : World} {g : Frame}
    (hact : Faithful p names s (.receive x world g)) {q : Agent × Handling}
    (hq : takeFrame p world (names x) (s.host x).agent g = q) :
    Agreed names (s.advance x { s.host x with agent := q.1, thread := q.2 } 0 none) := by
  obtain ⟨⟨r, harr⟩, hloads, hfresh⟩ := hact
  have hself : (!r.origin) = x := by
    rw [harr.origin, Bool.not_not]
  have hok : CallOk names r := h.calls r harr.sent (hself ▸ harr.receiver)
  obtain ⟨plain, hplain, hg⟩ := harr.carries
  have hkind := hok.kind
  rw [hself] at hkind
  rcases hkind with hruk | ⟨k, i, hsized, hnuk⟩ | ⟨message, hdata⟩
  · have hrec := receives_ctrl hp hoaep hpeers harr hok (by rw [hruk]; rfl)
    have hsub : g.sub_type = some (.str "ruk") := hg.sub_type.trans (by rw [hruk]; rfl)
    refine h.receivesRuk hidle hfresh hg.host ?_
    rw [← hq, takeFrame, hrec]
    simp [hsub, Json.isStr]
  · have hrec := receives_ctrl hp hoaep hpeers harr hok (by rw [hnuk]; rfl)
    have hsub : g.sub_type = some (.str "nuk") := hg.sub_type.trans (by rw [hnuk]; rfl)
    have hans : Answered names s.sent (!x) k i := by
      refine ⟨hsized, r, harr.sent, harr.origin, ?_⟩
      rw [Bool.not_not]
      exact hnuk
    refine h.receivesNuk hidle hloads hg.host hans ?_
    rw [← hq, takeFrame, hrec]
    simp [hsub, Json.isStr, hnuk, SessionKeys.nukCall, Call.message]
  · have htype : g.msg_type = some (.str "data") := hg.msg_type.trans (by rw [hdata]; rfl)
    obtain ⟨hlist, hfront, hthread⟩ := takeFrame_data p world (names x) (s.host x).agent htype
    rw [hq] at hlist hfront hthread
    rcases hthread with hthread | hthread
    · refine h.follow ?_ ?_ ?_ 0
      · exact (h.home x).of_same (by rw [hlist]) hfront
      · exact hthread.trans hidle.symm
      · exact .of_same (by rw [hlist])
    · exact h.ends 0 hthread hlist hfront

end Receiving

end Nxwlan.SessionAgreement
