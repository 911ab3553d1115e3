import Nxwlan.SessionPairs

/-!
What holds of two agents in every state, and which steps of one of them keep it. All
answers that an agent has given since it last forgot a key bear one key, and its entry
keeps that key.
-/
namespace Nxwlan.SessionAgreement

open JsonFrames AgentState Forwarder Messaging Rescans ReceiveLoop ReceiveSurvival SessionKeys
open OwnEntry
open Base64 (Bytes)

variable {names : Bool → Identity} {s s₀ : Pair} {x y : Bool} {a b : Agent} {e d : Neighbor}
  {n : String}

/-- The keys that the entry `n` has for what comes in. -/
def HasRec (a : Agent) (n : String) (k i : Bytes) : Prop :=
  ∃ e, a.globalNeighborList.lookup n = some e ∧ e.unicastRecKey = k ∧ e.unicastRecIv = i

def HasKey (a : Agent) (n : String) (k : Bytes) : Prop :=
  ∃ e, a.globalNeighborList.lookup n = some e ∧ e.unicastRecKey = k

def NoKey (a : Agent) (n : String) : Prop :=
  ∀ e, a.globalNeighborList.lookup n = some e → e.unicastRecKey = []

/-- The key of the entry `n` for what comes in is a whole one, or there is none. -/
def WholeKey (a : Agent) (n : String) : Prop :=
  ∀ e, a.globalNeighborList.lookup n = some e →
    e.unicastRecKey = [] ∨ e.unicastRecKey.length = 16

def WholeRec (a : Agent) (n : String) : Prop :=
  ∀ e, a.globalNeighborList.lookup n = some e →
    e.unicastRecKey = [] ∨ Sized e.unicastRecKey e.unicastRecIv

/-- What holds of the table in each stage of the receive thread. A new key is given out
only while there is no other one. -/
def StageOk (names : Bool → Identity) (sent recent : List Sent) (y : Bool) (a : Agent) :
    Handling → Prop
  | .idle => WholeRec a (names !y).hostname
  | .reply host k i true => host = (names !y).hostname ∧ Sized k i ∧ NoKey a host ∧
      ∀ k' i', Answered names recent y k' i' → k' = k ∧ i' = i
  | .reply host k i false => host = (names !y).hostname ∧ Sized k i ∧ HasRec a host k i
  | .storeRecKey host k i => host = (names !y).hostname ∧ Sized k i ∧ NoKey a host
  | .storeRecIv host i => host = (names !y).hostname ∧ i.length = 16 ∧ WholeKey a host
  | .storeSendIv host nukMsg => host = (names !y).hostname ∧ WholeRec a host ∧
      ∃ k i, Answered names sent (!y) k i ∧ nukField "iv" nukMsg = .ok i
  | .ended => True

/-- Keys that have been given out are in the entry, or in the hands of the receive
thread. -/
def Holding (a : Agent) (n : String) (k i : Bytes) : Handling → Prop
  | .reply host k' i' true => host = n ∧ k' = k ∧ i' = i
  | .storeRecKey host k' i' => host = n ∧ k' = k ∧ i' = i
  | .storeRecIv host i' => host = n ∧ i' = i ∧ HasKey a n k
  | .ended => True
  | _ => HasRec a n k i

/-- The keys of an entry for what goes out come from answers. -/
structure SendOk (names : Bool → Identity) (sent : List Sent) (x : Bool) (e : Neighbor) : Prop where
  key : e.unicastSendKey = [] ∨ ∃ i, Answered names sent (!x) e.unicastSendKey i
  iv : e.unicastSendIv = [] ∨ ∃ k, Answered names sent (!x) k e.unicastSendIv

/-- A frame to the other agent is a request, an answer, or a message. -/
structure CallOk (names : Bool → Identity) (r : Sent) : Prop where
  pubKey : ∀ e, r.agent.globalNeighborList.lookup (names !r.origin).hostname = some e →
    e.pubKey = some (names !r.origin).rsaKey.publickey
  kind : r.call = rukCall (names !r.origin).hostname ∨
    (∃ k i, Sized k i ∧ r.call = nukCall k i (names !r.origin).hostname) ∨
    ∃ message, r.call = .sendToNeighbor message (names !r.origin).hostname

/-- A message to the agent `y` is under keys that `y` has given out. -/
def Keyed (names : Bool → Identity) (recent : List Sent) (y : Bool) (r : Sent) : Prop :=
  r.origin = (!y) → ∀ message, r.call = .sendToNeighbor message (names y).hostname →
    ∀ e, r.agent.globalNeighborList.lookup (names y).hostname = some e →
      aesAccepts e.unicastSendKey e.unicastSendIv = true →
        Answered names recent y e.unicastSendKey e.unicastSendIv

/-- The invariant. -/
structure Agreed (names : Bool → Identity) (s : Pair) : Prop where
  home : ∀ x, Home (names x) (s.host x).agent
  authentic : ∀ x e, (s.host x).agent.globalNeighborList.lookup (names !x).hostname = some e →
    e.pubKey = some (names !x).rsaKey.publickey
  unique : ∀ y k i k' i', Answered names (s.recent y) y k i →
    Answered names (s.recent y) y k' i' → k' = k ∧ i' = i
  stage : ∀ y, StageOk names s.sent (s.recent y) y (s.host y).agent (s.host y).thread
  given : ∀ y k i, Answered names (s.recent y) y k i →
    Holding (s.host y).agent (names !y).hostname k i (s.host y).thread
  sending : ∀ x e, (s.host x).agent.globalNeighborList.lookup (names !x).hostname = some e →
    SendOk names s.sent x e
  calls : ∀ r ∈ s.sent, r.call.receiver = (names !r.origin).hostname → CallOk names r
  keyed : ∀ y, ∀ r ∈ s.recent y, Keyed names (s.recent y) y r

theorem not_answered_nil {k i : Bytes} : ¬ Answered names [] y k i := by
  rintro ⟨-, r, hr, -⟩
  cases hr

theorem Agreed.start (h : Started names s₀) : Agreed names s₀ := by
  have hnone : ∀ y k i, ¬ Answered names (s₀.recent y) y k i := by
    intro y k i
    rw [h.recent y]
    exact not_answered_nil
  have hkeys : ∀ x e, (s₀.host x).agent.globalNeighborList.lookup (names !x).hostname = some e →
      e.unicastSendKey = [] ∧ e.unicastSendIv = [] ∧ e.unicastRecKey = [] ∧ e.unicastRecIv = [] := by
    intro x e he
    simpa [unicast] using (h.blank x e he).keys
  refine ⟨h.home, fun x e he => (h.blank x e he).pubKey, ?_, ?_, ?_, ?_, ?_, ?_⟩
  · exact fun y k i k' i' hk => absurd hk (hnone y k i)
  · intro y
    rw [h.thread y]
    exact fun e he => Or.inl (hkeys y e he).2.2.1
  · exact fun y k i hk => absurd hk (hnone y k i)
  · exact fun x e he => ⟨Or.inl (hkeys x e he).1, Or.inl (hkeys x e he).2.1⟩
  · rw [h.sent]
    simp
  · intro y
    rw [h.recent y]
    simp

section Tables

/-- What other threads may do to the entry of the other agent: it keeps its session
keys, or is made anew, or goes away while it has given out none. -/
structure Follows (k : RsaPublicKey) (n : String) (a b : Agent) : Prop where
  entry : ∀ d, b.globalNeighborList.lookup n = some d → Blank k d ∨
    ∃ e, a.globalNeighborList.lookup n = some e ∧ unicast d = unicast e ∧
      (e.pubKey = some k → d.pubKey = some k)
  kept : ∀ e, a.globalNeighborList.lookup n = some e → e.unicastRecKey ≠ [] →
    ∃ d, b.globalNeighborList.lookup n = some d ∧ unicast d = unicast e

variable {k : RsaPublicKey}

theorem Follows.of_same (h : b.globalNeighborList.lookup n = a.globalNeighborList.lookup n) :
    Follows k n a b := by
  refine ⟨?_, ?_⟩
  · intro d hd
    exact Or.inr ⟨d, h ▸ hd, rfl, id⟩
  · intro e he _
    exact ⟨e, h ▸ he, rfl⟩

theorem Follows.trans {c : Agent} (h : Follows k n a b) (h' : Follows k n b c) :
    Follows k n a c := by
  refine ⟨?_, ?_⟩
  · intro f hf
    rcases h'.entry f hf with hblank | ⟨d, hd, hfd, hpub⟩
    · exact Or.inl hblank
    · rcases h.entry d hd with hblank | ⟨e, he, hde, hpub'⟩
      · exact Or.inl ⟨hfd.trans hblank.keys, hpub hblank.pubKey⟩
      · exact Or.inr ⟨e, he, hfd.trans hde, fun hk => hpub (hpub' hk)⟩
  · intro e he hrec
    obtain ⟨d, hd, hde⟩ := h.kept e he hrec
    have hrec' : d.unicastRecKey ≠ [] := by
      have hkey : d.unicastRecKey = e.unicastRecKey := congrArg (fun u => u.2.2.1) hde
      rw [hkey]
      exact hrec
    obtain ⟨f, hf, hfd⟩ := h'.kept d hd hrec'
    exact ⟨f, hf, hfd.trans hde⟩

/-- Writing an entry that keeps its session keys. -/
theorem Follows.replace {m : String} (hlook : a.globalNeighborList.lookup m = some e)
    (hkeys : unicast d = unicast e) (hpub : m = n → e.pubKey = some k → d.pubKey = some k) :
    Follows k n a (Agent.putNeighbor a m d) := by
  by_cases hm : n = m
  · subst hm
    refine ⟨?_, ?_⟩
    · intro d' hd'
      obtain rfl := Option.some.inj ((lookup_putNeighbor n a d).symm.trans hd')
      exact Or.inr ⟨e, hlook, hkeys, hpub rfl⟩
    · intro e' he' _
      obtain rfl := Option.some.inj (hlook.symm.trans he')
      exact ⟨d, lookup_putNeighbor n a d, hkeys⟩
  · exact .of_same ((EntryOnly.putNeighbor m a d).others n hm)

theorem update_pubKey {entry : Neighbor} (hentry : entry.pubKey = none ∨ entry.pubKey = some k)
    (he : e.pubKey = some k) : (e.update entry).pubKey = some k := by
  unfold Neighbor.update
  dsimp only
  split
  · rename_i hsome
    rcases hentry with hnone | hk
    · rw [hnone] at hsome
      cases hsome
    · exact hk
  · exact he

theorem Follows.parse_existing_neighbor {entry : Neighbor} {list : NeighborList}
    (hentry : entry.ipAddress = n → entry.pubKey = none ∨ entry.pubKey = some k)
    (h : parse_existing_neighbor entry a.globalNeighborList = .ok list) :
    Follows k n a { a with globalNeighborList := list } := by
  unfold AgentState.parse_existing_neighbor at h
  split at h
  · rename_i old hlook
    obtain rfl := Except.ok.inj h
    exact Follows.replace hlook rfl fun hip he => update_pubKey (hentry hip) he
  · split at h
    · cases h
    · obtain rfl := Except.ok.inj h
      exact .of_same rfl

theorem Follows.joinOne (out : Outside) (me : Identity) {entry : Neighbor}
    (hentry : entry.ipAddress = n → Blank k entry) : Follows k n a (joinOne out me a entry) := by
  unfold AgentState.joinOne
  dsimp only
  split
  · split
    · rename_i list hparse
      exact .parse_existing_neighbor (fun hip => Or.inr (hentry hip).pubKey) hparse
    · exact .of_same rfl
  · rename_i hnone
    split
    · rw [ThreadSteps.notifyNewLink_rest]
      by_cases hip : n = entry.ipAddress
      · subst hip
        refine ⟨?_, ?_⟩
        · intro d hd
          obtain rfl := Option.some.inj ((AList.lookup_insert a.globalNeighborList).symm.trans hd)
          exact Or.inl (hentry rfl)
        · intro e he _
          rw [he] at hnone
          exact absurd rfl hnone
      · exact .of_same (AList.lookup_insert_ne hip)
    · exact .of_same rfl

theorem Follows.onAPJoined (out : Outside) (me : Identity) (entries : List Neighbor)
    (hentries : ∀ entry ∈ entries, entry.ipAddress = n → Blank k entry) :
    Follows k n a (onAPJoined out me a entries) := by
  unfold AgentState.onAPJoined
  induction entries generalizing a with
  | nil => exact .of_same rfl
  | cons entry rest ih =>
    rw [List.foldl_cons]
    exact (Follows.joinOne out me (hentries entry (by simp))).trans
      (ih fun entry' hmem => hentries entry' (by simp [hmem]))

theorem Follows.rescanResults (out : Outside) (me : Identity) (host : String)
    {results : List Neighbor} (hresults : ∀ r ∈ results, r.ipAddress = n → Blank k r)
    (found : Bool) : Follows k n a (rescanResults out me host results found a).1 := by
  induction results generalizing a found with
  | nil => exact .of_same rfl
  | cons r rest ih =>
    have hrest : ∀ r' ∈ rest, r'.ipAddress = n → Blank k r' :=
      fun r' hr' => hresults r' (by simp [hr'])
    rw [AgentState.rescanResults]
    split
    · cases hlook : a.globalNeighborList.lookup host with
      | none => exact .of_same rfl
      | some old =>
        dsimp only
        split
        · have hnote : Follows k n a (Agent.putNeighbor a host { old with
              oldEncryptionKey := some old.encryptionKey
              oldEncryptionIV := some old.encryptionIV }) := .replace hlook rfl fun _ he => he
          have hjoin := hnote.trans (Follows.onAPJoined out me [r]
            fun entry hmem => hresults entry (by simp_all))
          exact hjoin.trans (ih hrest true)
        · exact ih hrest found
    · exact ih hrest found

/-- A removal, unless it takes a key away that has been given out. -/
theorem Follows.onAPLeft (out : Outside) (node : String)
    (hkept : forgets n a (onAPLeft out a node).1 = false) :
    Follows k n a (onAPLeft out a node).1 := by
  by_cases hn : n = node
  · subst hn
    have hlook := onAPLeft_host out a n
    split at hlook
    · refine ⟨?_, ?_⟩
      · intro d hd
        rw [hlook] at hd
        cases hd
      · intro e he hrec
        simp [forgets, he, hlook, hrec] at hkept
    · exact .of_same hlook
  · exact .of_same (onAPLeft_others out a node n hn)

end Tables

section Moves

variable {sent recent : List Sent} {k i : Bytes}

theorem rec_of_unicast (h : unicast d = unicast e) :
    d.unicastRecKey = e.unicastRecKey ∧ d.unicastRecIv = e.unicastRecIv :=
  ⟨congrArg (fun u => u.2.2.1) h, congrArg (fun u => u.2.2.2) h⟩

theorem send_of_unicast (h : unicast d = unicast e) :
    d.unicastSendKey = e.unicastSendKey ∧ d.unicastSendIv = e.unicastSendIv :=
  ⟨congrArg (fun u => u.1) h, congrArg (fun u => u.2.1) h⟩

theorem Blank.noRec {q : RsaPublicKey} (h : Blank q e) :
    e.unicastRecKey = [] ∧ e.unicastRecIv = [] :=
  rec_of_unicast (e := { timestampLastKCM := 0 }) h.keys

theorem Blank.noSend {q : RsaPublicKey} (h : Blank q e) :
    e.unicastSendKey = [] ∧ e.unicastSendIv = [] :=
  send_of_unicast (e := { timestampLastKCM := 0 }) h.keys

theorem HasRec.follow {q : RsaPublicKey} (h : HasRec a n k i) (hk : k.length = 16)
    (hf : Follows q n a b) : HasRec b n k i := by
  obtain ⟨e, he, rfl, rfl⟩ := h
  obtain ⟨d, hd, hkeys⟩ := hf.kept e he (List.ne_nil_of_length_pos (by omega))
  exact ⟨d, hd, rec_of_unicast hkeys⟩

theorem HasKey.follow {q : RsaPublicKey} (h : HasKey a n k) (hk : k.length = 16)
    (hf : Follows q n a b) : HasKey b n k := by
  obtain ⟨e, he, rfl⟩ := h
  obtain ⟨d, hd, hkeys⟩ := hf.kept e he (List.ne_nil_of_length_pos (by omega))
  exact ⟨d, hd, (rec_of_unicast hkeys).1⟩

/-- What holds of a blank entry, and depends on the session keys only, stays true. -/
theorem Follows.forall_entry {q : RsaPublicKey} {P : Neighbor → Prop} (hf : Follows q n a b)
    (hblank : ∀ d, Blank q d → P d) (hsame : ∀ d e, unicast d = unicast e → P e → P d)
    (h : ∀ e, a.globalNeighborList.lookup n = some e → P e) :
    ∀ d, b.globalNeighborList.lookup n = some d → P d := by
  intro d hd
  rcases hf.entry d hd with hnew | ⟨e, he, hkeys, -⟩
  · exact hblank d hnew
  · exact hsame d e hkeys (h e he)

theorem NoKey.follow {q : RsaPublicKey} (h : NoKey a n) (hf : Follows q n a b) : NoKey b n := by
  refine hf.forall_entry (fun d hd => hd.noRec.1) ?_ h
  intro d e hkeys he
  rwa [(rec_of_unicast hkeys).1]

theorem WholeKey.follow {q : RsaPublicKey} (h : WholeKey a n) (hf : Follows q n a b) :
    WholeKey b n := by
  refine hf.forall_entry (fun d hd => Or.inl hd.noRec.1) ?_ h
  intro d e hkeys he
  rwa [(rec_of_unicast hkeys).1]

theorem WholeRec.follow {q : RsaPublicKey} (h : WholeRec a n) (hf : Follows q n a b) :
    WholeRec b n := by
  refine hf.forall_entry (fun d hd => Or.inl hd.noRec.1) ?_ h
  intro d e hkeys he
  obtain ⟨hkey, hiv⟩ := rec_of_unicast hkeys
  rwa [hkey, hiv]

theorem StageOk.follow {q : RsaPublicKey} {thread : Handling}
    (h : StageOk names sent recent y a thread) (hf : Follows q (names !y).hostname a b) :
    StageOk names sent recent y b thread := by
  cases thread with
  | idle => exact WholeRec.follow h hf
  | reply host k i fresh =>
    cases fresh with
    | true =>
      obtain ⟨rfl, hsized, hnone, hall⟩ := h
      exact ⟨rfl, hsized, hnone.follow hf, hall⟩
    | false =>
      obtain ⟨rfl, hsized, hrec⟩ := h
      exact ⟨rfl, hsized, hrec.follow hsized.1 hf⟩
  | storeRecKey host k i =>
    obtain ⟨rfl, hsized, hnone⟩ := h
    exact ⟨rfl, hsized, hnone.follow hf⟩
  | storeRecIv host i =>
    obtain ⟨rfl, hlen, hwhole⟩ := h
    exact ⟨rfl, hlen, hwhole.follow hf⟩
  | storeSendIv host nukMsg =>
    obtain ⟨rfl, hwhole, hans⟩ := h
    exact ⟨rfl, hwhole.follow hf, hans⟩
  | ended => trivial

/-- The receive thread is about to store keys that it gives out, or has died. -/
def keepsBack : Handling → Bool
  | .reply _ _ _ fresh => fresh
  | .storeRecKey _ _ _ => true
  | .storeRecIv _ _ => true
  | .ended => true
  | .idle => false
  | .storeSendIv _ _ => false

theorem holding_iff {thread : Handling} (hthread : keepsBack thread = false) :
    Holding a n k i thread ↔ HasRec a n k i := by
  cases thread with
  | reply host k' i' fresh =>
    cases hthread
    rfl
  | idle => rfl
  | storeSendIv host nukMsg => rfl
  | _ => cases hthread

theorem Holding.follow {q : RsaPublicKey} {thread : Handling} (h : Holding a n k i thread)
    (hk : k.length = 16) (hf : Follows q n a b) : Holding b n k i thread := by
  cases hthread : keepsBack thread with
  | false =>
    rw [holding_iff hthread] at h ⊢
    exact h.follow hk hf
  | true =>
    cases thread with
    | reply host k' i' fresh =>
      cases hthread
      exact h
    | storeRecIv host i' =>
      obtain ⟨hhost, hiv, hkey⟩ := h
      exact ⟨hhost, hiv, hkey.follow hk hf⟩
    | storeRecKey host k' i' => exact h
    | ended => trivial
    | _ => cases hthread

/-- What holds of `x` with its new host and frames, and of the other agent as it is, holds
of both. -/
theorem of_update (next : Host) (frames : List Sent) (P : Bool → Host → List Sent → Prop)
    (hx : P x next frames) (hy : ∀ y, P y (s.host y) (s.recent y)) (y : Bool) :
    P y (Function.update s.host x next y) (Function.update s.recent x frames y) := by
  by_cases hxy : y = x
  · subst hxy
    rw [Function.update_self, Function.update_self]
    exact hx
  · rw [Function.update_of_ne hxy, Function.update_of_ne hxy]
    exact hy y

/-- A step of the agent `x` that sends nothing, with the frames that count for it as
before or forgotten. -/
theorem Agreed.changes (h : Agreed names s) {next : Host} {frames : List Sent}
    (hframes : frames = s.recent x ∨ frames = []) (hhome : Home (names x) next.agent)
    (hentry : ∀ e, next.agent.globalNeighborList.lookup (names !x).hostname = some e →
      e.pubKey = some (names !x).rsaKey.publickey ∧ SendOk names s.sent x e)
    (hstage : StageOk names s.sent frames x next.agent next.thread)
    (hgiven : ∀ k i, Answered names frames x k i →
      Holding next.agent (names !x).hostname k i next.thread) :
    Agreed names { s with
      host := Function.update s.host x next
      recent := Function.update s.recent x frames } := by
  have hunique : ∀ k i k' i', Answered names frames x k i → Answered names frames x k' i' →
      k' = k ∧ i' = i := by
    rcases hframes with rfl | rfl
    · exact h.unique x
    · exact fun k i k' i' hk => absurd hk not_answered_nil
  have hkeyed : ∀ r ∈ frames, Keyed names frames x r := by
    rcases hframes with rfl | rfl
    · exact h.keyed x
    · simp
  refine ⟨?_, ?_, ?_, ?_, ?_, ?_, h.calls, ?_⟩
  · exact of_update next frames (fun y host _ => Home (names y) host.agent) hhome h.home
  · exact of_update next frames (fun y host _ => ∀ e, host.agent.globalNeighborList.lookup
      (names !y).hostname = some e → e.pubKey = some (names !y).rsaKey.publickey)
      (fun e he => (hentry e he).1) h.authentic
  · exact of_update next frames (fun y _ recent => ∀ k i k' i', Answered names recent y k i →
      Answered names recent y k' i' → k' = k ∧ i' = i) hunique h.unique
  · exact of_update next frames (fun y host recent =>
      StageOk names s.sent recent y host.agent host.thread) hstage h.stage
  · exact of_update next frames (fun y host recent => ∀ k i, Answered names recent y k i →
      Holding host.agent (names !y).hostname k i host.thread) hgiven h.given
  · exact of_update next frames (fun y host _ => ∀ e, host.agent.globalNeighborList.lookup
      (names !y).hostname = some e → SendOk names s.sent y e)
      (fun e he => (hentry e he).2) h.sending
  · exact of_update next frames (fun y _ recent => ∀ r ∈ recent, Keyed names recent y r)
      hkeyed h.keyed

/-- A step of the agent `x` that sends nothing. -/
theorem Agreed.moves (h : Agreed names s) {next : Host} (now : ℤ)
    (hhome : Home (names x) next.agent)
    (hentry : ∀ e, next.agent.globalNeighborList.lookup (names !x).hostname = some e →
      e.pubKey = some (names !x).rsaKey.publickey ∧ SendOk names s.sent x e)
    (hstage : StageOk names s.sent (s.recent x) x next.agent next.thread)
    (hgiven : ∀ k i, Answered names (s.recent x) x k i →
      Holding next.agent (names !x).hostname k i next.thread) :
    Agreed names (s.advance x next now none) := by
  have hs : s.advance x next now none = { s with
      host := Function.update s.host x next
      recent := Function.update s.recent x (s.recent x) } := by
    simp [Pair.advance, Pair.push]
  rw [hs]
  exact h.changes (Or.inl rfl) hhome hentry hstage hgiven

theorem SendOk.of_same (h : SendOk names sent x e) (hkey : d.unicastSendKey = e.unicastSendKey)
    (hiv : d.unicastSendIv = e.unicastSendIv) : SendOk names sent x d := by
  refine ⟨?_, ?_⟩
  · rw [hkey]
    exact h.key
  · rw [hiv]
    exact h.iv

theorem SendOk.of_unicast (h : SendOk names sent x e) (hkeys : unicast d = unicast e) :
    SendOk names sent x d := by
  obtain ⟨hkey, hiv⟩ := send_of_unicast hkeys
  exact h.of_same hkey hiv

/-- A step of other threads of `x` than the receive thread. -/
theorem Agreed.follow (h : Agreed names s) {next : Host}
    (hhome : Home (names x) next.agent) (hthread : next.thread = (s.host x).thread)
    (hf : Follows (names !x).rsaKey.publickey (names !x).hostname (s.host x).agent next.agent)
    (now : ℤ) : Agreed names (s.advance x next now none) := by
  refine h.moves now hhome ?_ ?_ ?_
  · intro d hd
    rcases hf.entry d hd with hblank | ⟨e, he, hkeys, hpub⟩
    · exact ⟨hblank.pubKey, Or.inl hblank.noSend.1, Or.inl hblank.noSend.2⟩
    · exact ⟨hpub (h.authentic x e he), (h.sending x e he).of_unicast hkeys⟩
  · rw [hthread]
    exact (h.stage x).follow hf
  · rw [hthread]
    intro k i hans
    exact (h.given x k i hans).follow hans.1.1 hf

theorem Answered.append (h : Answered names sent y k i) (r : Sent) :
    Answered names (sent ++ [r]) y k i := by
  obtain ⟨hsized, r', hr', hcall⟩ := h
  exact ⟨hsized, r', List.mem_append_left _ hr', hcall⟩

theorem SendOk.append (h : SendOk names sent x e) (r : Sent) :
    SendOk names (sent ++ [r]) x e := by
  refine ⟨?_, ?_⟩
  · rcases h.key with hnil | ⟨i, hans⟩
    · exact Or.inl hnil
    · exact Or.inr ⟨i, hans.append r⟩
  · rcases h.iv with hnil | ⟨k, hans⟩
    · exact Or.inl hnil
    · exact Or.inr ⟨k, hans.append r⟩

/-- A step of other threads of `x` that takes the entry away and a key with it. The receive
thread has nothing of that key in its hands. -/
theorem Agreed.removes (h : Agreed names s) {next : Host} (hhome : Home (names x) next.agent)
    (hthread : next.thread = (s.host x).thread)
    (hgone : next.agent.globalNeighborList.lookup (names !x).hostname = none)
    (hreply : ∀ host k i, (s.host x).thread ≠ .reply host k i false) (now : ℤ) :
    Agreed names ((s.advance x next now none).forget x) := by
  have hs : (s.advance x next now none).forget x = { s with
      host := Function.update s.host x next
      recent := Function.update s.recent x [] } := by
    simp [Pair.advance, Pair.push, Pair.forget]
  have hempty : ∀ P : Neighbor → Prop, ∀ e,
      next.agent.globalNeighborList.lookup (names !x).hostname = some e → P e := by
    intro P e he
    rw [hgone] at he
    cases he
  rw [hs]
  refine h.changes (Or.inr rfl) hhome (hempty _) ?_ (fun k i hk => absurd hk not_answered_nil)
  have hstage := h.stage x
  rw [hthread]
  cases hcase : (s.host x).thread with
  | idle => exact hempty _
  | reply host k i fresh =>
    rw [hcase] at hstage
    cases fresh with
    | true =>
      obtain ⟨rfl, hsized, -⟩ := hstage
      exact ⟨rfl, hsized, hempty _, fun k i hk => absurd hk not_answered_nil⟩
    | false => exact absurd hcase (hreply host k i)
  | storeRecKey host k i =>
    rw [hcase] at hstage
    obtain ⟨rfl, hsized, -⟩ := hstage
    exact ⟨rfl, hsized, hempty _⟩
  | storeRecIv host i =>
    rw [hcase] at hstage
    obtain ⟨rfl, hlen, -⟩ := hstage
    exact ⟨rfl, hlen, hempty _⟩
  | storeSendIv host nukMsg =>
    rw [hcase] at hstage
    obtain ⟨rfl, -, hans⟩ := hstage
    exact ⟨rfl, hempty _, hans⟩
  | ended => trivial

theorem Keyed.append {r : Sent} (h : Keyed names recent y r) (r' : Sent) :
    Keyed names (recent ++ [r']) y r :=
  fun horigin message hcall e he haes => (h horigin message hcall e he haes).append r'

/-- One more frame on the air. A key that it gives out is the one that the sender holds,
and that all answers have given out since it last forgot a key. -/
theorem Agreed.sends (h : Agreed names s) {r : Sent}
    (hcall : r.call.receiver = (names !r.origin).hostname → CallOk names r)
    (hkeyed : ∀ y, Keyed names (s.recent y) y r)
    (hnew : ∀ k i, Sized k i → r.call = nukCall k i (names !r.origin).hostname →
      Holding (s.host r.origin).agent (names !r.origin).hostname k i (s.host r.origin).thread ∧
      ∀ k' i', Answered names (s.recent r.origin) r.origin k' i' → k' = k ∧ i' = i) :
    Agreed names (s.push [r]) := by
  have hans : ∀ y k i, Answered names (s.recent y ++ [r]) y k i →
      Answered names (s.recent y) y k i ∨
        r.origin = y ∧ r.call = nukCall k i (names !r.origin).hostname := by
    rintro y k i ⟨hsized, r', hr', horigin, hc⟩
    rcases List.mem_append.mp hr' with hmem | hmem
    · exact Or.inl ⟨hsized, r', hmem, horigin, hc⟩
    · obtain rfl := List.mem_singleton.mp hmem
      exact Or.inr ⟨horigin, horigin ▸ hc⟩
  refine ⟨h.home, h.authentic, ?_, ?_, ?_, ?_, ?_, ?_⟩
  · intro y k i k' i' hk hk'
    rcases hans y k i hk with hold | ⟨horigin, hc⟩
    · rcases hans y k' i' hk' with hold' | ⟨rfl, hc'⟩
      · exact h.unique y k i k' i' hold hold'
      · obtain ⟨hkey, hiv⟩ := (hnew k' i' hk'.1 hc').2 k i hold
        exact ⟨hkey.symm, hiv.symm⟩
    · rcases hans y k' i' hk' with hold' | ⟨-, hc'⟩
      · subst horigin
        exact (hnew k i hk.1 hc).2 k' i' hold'
      · have hsame : nukMessage k' i' = nukMessage k i := by
          have hcalls := hc'.symm.trans hc
          simpa [nukCall] using hcalls
        exact nukMessage_inj (hk'.1.1.trans hk.1.1.symm) hsame
  · intro y
    have hstage := h.stage y
    change StageOk names (s.sent ++ [r]) (s.recent y ++ [r]) y (s.host y).agent (s.host y).thread
    cases hthread : (s.host y).thread with
    | reply host k i fresh =>
      rw [hthread] at hstage
      cases fresh with
      | false => exact hstage
      | true =>
        obtain ⟨rfl, hsized, hnone, hall⟩ := hstage
        refine ⟨rfl, hsized, hnone, ?_⟩
        intro k' i' hk'
        rcases hans y k' i' hk' with hold | ⟨rfl, hc⟩
        · exact hall k' i' hold
        · obtain ⟨hhold, -⟩ := hnew k' i' hk'.1 hc
          rw [hthread] at hhold
          obtain ⟨-, rfl, rfl⟩ := hhold
          exact ⟨rfl, rfl⟩
    | storeSendIv host nukMsg =>
      rw [hthread] at hstage
      obtain ⟨hhost, hwhole, k, i, hk, hiv⟩ := hstage
      exact ⟨hhost, hwhole, k, i, hk.append r, hiv⟩
    | _ =>
      rw [hthread] at hstage
      exact hstage
  · intro y k i hk
    rcases hans y k i hk with hold | ⟨rfl, hc⟩
    · exact h.given y k i hold
    · exact (hnew k i hk.1 hc).1
  · exact fun x e he => (h.sending x e he).append r
  · intro r' hr' hreceiver
    rcases List.mem_append.mp hr' with hmem | hmem
    · exact h.calls r' hmem hreceiver
    · obtain rfl := List.mem_singleton.mp hmem
      exact hcall hreceiver
  · intro y r' hr'
    rcases List.mem_append.mp hr' with hmem | hmem
    · exact (h.keyed y r' hmem).append r
    · obtain rfl := List.mem_singleton.mp hmem
      exact (hkeyed y).append r'

end Moves

end Nxwlan.SessionAgreement
