import Nxwlan.SessionSteps

/-!
Runs of two agents. As long as no message goes out under a key that the other agent has
forgotten, all that is sent since then is opened with the very key it was closed with.
Both agents may lose each other and meet again any number of times.
-/
namespace Nxwlan.SessionAgreement

open JsonFrames AgentState Forwarder Messaging Rescans ReceiveLoop ReceiveSurvival SessionKeys
open StepRuns
open PayloadPaths (Paired OaepLawful receiveMessage_carried listPlatform_oaep)
open Base64 (Bytes encodestring)

variable {p : Platform} {names : Bool → Identity} {s s' s₀ : Pair} {x : Bool}

section Runs

/-- The condition of a run that keeps session keys. -/
def Keeping (p : Platform) (names : Bool → Identity) (s : Pair) (act : Act) : Prop :=
  Faithful p names s act ∧ Renews names s act

theorem Agreed.step (hp : p.Lawful) (hoaep : OaepLawful p) (hpeers : Peers names)
    (h : Agreed names s) {act : Act} (hact : Keeping p names s act)
    (hstep : step p names s act = some s') : Agreed names s' := by
  unfold SessionAgreement.step at hstep
  cases act with
  | sendToNeighbor x t message nodeID =>
    dsimp only at hstep
    split at hstep
    · obtain rfl := Option.some.inj hstep
      exact h.sendToNeighbor t message nodeID
    · cases hstep
  | sender x t now =>
    obtain rfl := Option.some.inj hstep
    exact h.sender t now hact.2 rfl
  | receive x world g =>
    dsimp only at hstep
    split at hstep
    · rename_i hready
      obtain rfl := Option.some.inj hstep
      exact h.receives hp hoaep hpeers (idle_of_ready hready) hact.1 rfl
    · cases hstep
  | handle x now =>
    obtain rfl := Option.some.inj hstep
    exact h.handle now rfl
  | table x op =>
    obtain rfl := Option.some.inj hstep
    exact h.table op hact.1 hact.2 rfl

/-- The receiver's entry has the keys that the message of the frame was sent with, and the
message itself goes to the application. -/
def Delivered (p : Platform) (names : Bool → Identity) (s : Pair) (x : Bool) (g : Frame)
    (r : Sent) (message : Bytes) : Prop :=
  ∃ sender receiver,
    r.agent.globalNeighborList.lookup (names x).hostname = some sender ∧
    (s.host x).agent.globalNeighborList.lookup (names !x).hostname = some receiver ∧
    receiver.unicastRecKey = sender.unicastSendKey ∧
    receiver.unicastRecIv = sender.unicastSendIv ∧
    receiveMessage p (names x) (s.host x).agent g = .callback message

theorem Agreed.delivers (hp : p.Lawful) (hoaep : OaepLawful p) (hpeers : Peers names)
    (h : Agreed names s) {g : Frame} {r : Sent} {message : Bytes} (harr : Arrives p names s x g r)
    (hrecent : r ∈ s.recent x) (hdata : r.call = .sendToNeighbor message (names x).hostname)
    (hidle : (s.host x).thread = .idle) : Delivered p names s x g r message := by
  -- the message is under keys that the receiver has given out
  have hkeys : ∀ e, r.agent.globalNeighborList.lookup (names x).hostname = some e →
      aesAccepts e.unicastSendKey e.unicastSendIv = true →
        Answered names (s.recent x) x e.unicastSendKey e.unicastSendIv :=
    h.keyed x r hrecent harr.origin message hdata
  obtain ⟨plain, hplain, hg⟩ := harr.carries
  have huni : r.call.receiver ≠ broadcast := by
    rw [harr.receiver]
    exact (hpeers.named x).2
  obtain ⟨e, he, haes, -⟩ := PayloadPaths.layered_data hplain huni (by rw [hdata]; rfl)
  rw [harr.receiver] at he
  have hhold := h.given x _ _ (hkeys e he haes)
  rw [hidle] at hhold
  obtain ⟨d, hd, hkey, hiv⟩ : HasRec (s.host x).agent (names !x).hostname e.unicastSendKey
      e.unicastSendIv := hhold
  have hpair : Paired (names !x) (names x) r.call r.agent (s.host x).agent := by
    refine ⟨(hpeers.named x).1, ?_, ?_⟩
    · intro hctrl
      simp [hdata, Call.msgType] at hctrl
    · intro _
      refine ⟨(h.home x).present, ?_⟩
      intro e' he'
      obtain rfl := Option.some.inj (he.symm.trans he')
      exact ⟨d, hd, hkey, hiv⟩
  refine ⟨e, d, he, hd, hkey, hiv, ?_⟩
  rw [receiveMessage_carried hp hoaep harr.accepts hplain hg (hpeers.distinct x)
    (Or.inr harr.receiver) (fun _ => hpair), hdata]
  rfl

theorem agreed_of_reach (hp : p.Lawful) (hoaep : OaepLawful p) (hpeers : Peers names)
    (hstart : Started names s₀) (h : Reach (step p names) (Keeping p names) s₀ s) : Agreed names s :=
  h.inv (Agreed.start hstart) (fun _ _ _ hs hok hstep => hs.step hp hoaep hpeers hok hstep)

/-- In every run in which no message goes out under a key that the other agent has
forgotten: when a message arrives that was sent since the receiver last forgot a key, it
is delivered. -/
theorem session_keys_agree (hp : p.Lawful) (hoaep : OaepLawful p) (hpeers : Peers names)
    (hstart : Started names s₀) (h : Reach (step p names) (Keeping p names) s₀ s) {g : Frame}
    {r : Sent} {message : Bytes} (harr : Arrives p names s x g r) (hrecent : r ∈ s.recent x)
    (hdata : r.call = .sendToNeighbor message (names x).hostname)
    (hidle : (s.host x).thread = .idle) : Delivered p names s x g r message :=
  (agreed_of_reach hp hoaep hpeers hstart h).delivers hp hoaep hpeers harr hrecent hdata hidle

/-- The narrower condition: no agent ever forgets a key. -/
def Retains (names : Bool → Identity) (s : Pair) : Act → Prop
  | .table x op =>
      forgets (names !x).hostname (s.host x).agent (op.apply (names x) (s.host x).agent) = false
  | _ => True

theorem recent_advance (s : Pair) (x : Bool) (next : Host) (now : ℤ) (call : Option Call) :
    ∃ frames, (s.advance x next now call).sent = s.sent ++ frames ∧
      ∀ y, (s.advance x next now call).recent y = s.recent y ++ frames :=
  ⟨_, rfl, fun _ => rfl⟩

/-- A step adds to the frames, and lets one agent forget those from before at most. -/
theorem step_recent {act : Act} (hstep : step p names s act = some s') :
    ∃ frames, s'.sent = s.sent ++ frames ∧ ∀ y, s'.recent y = s.recent y ++ frames ∨
      s'.recent y = [] ∧ ¬ Retains names s act := by
  have hadvance : ∀ x next now call, s' = s.advance x next now call →
      ∃ frames, s'.sent = s.sent ++ frames ∧ ∀ y, s'.recent y = s.recent y ++ frames ∨
        s'.recent y = [] ∧ ¬ Retains names s act := by
    rintro x next now call rfl
    obtain ⟨frames, hsent, hrecent⟩ := recent_advance s x next now call
    exact ⟨frames, hsent, fun y => Or.inl (hrecent y)⟩
  unfold SessionAgreement.step at hstep
  cases act with
  | sender x t now => exact hadvance _ _ _ _ (Option.some.inj hstep).symm
  | handle x now => exact hadvance _ _ _ _ (Option.some.inj hstep).symm
  | table x op =>
    dsimp only at hstep
    split at hstep
    · rename_i hforgets
      obtain rfl := Option.some.inj hstep
      obtain ⟨frames, hsent, hrecent⟩ := recent_advance s x
        { s.host x with agent := op.apply (names x) (s.host x).agent } 0 none
      refine ⟨frames, hsent, ?_⟩
      intro y
      by_cases hy : y = x
      · subst hy
        exact Or.inr ⟨Pair.forget_self _ _, by simp [Retains, hforgets]⟩
      · rw [Pair.forget_other _ hy]
        exact Or.inl (hrecent y)
    · exact hadvance _ _ _ _ (Option.some.inj hstep).symm
  | sendToNeighbor x t message nodeID =>
    dsimp only at hstep
    split at hstep
    · exact hadvance _ _ _ _ (Option.some.inj hstep).symm
    · cases hstep
  | receive x world g =>
    dsimp only at hstep
    split at hstep
    · exact hadvance _ _ _ _ (Option.some.inj hstep).symm
    · cases hstep

/-- While nothing is forgotten, all that was ever sent counts. -/
theorem Retains.renews (h : ∀ y, s.recent y = s.sent) {act : Act} (hretains : Retains names s act) :
    Renews names s act := by
  cases act with
  | sender x t now =>
    intro message _ e _
    refine ⟨?_, ?_⟩
    · intro i hans
      exact ⟨i, (h !x).symm ▸ hans⟩
    · intro k hans
      exact ⟨k, (h !x).symm ▸ hans⟩
  | table x op =>
    intro hforgets
    rw [Retains, hforgets] at hretains
    cases hretains
  | _ => trivial

/-- Where no agent ever forgets a key, every message that arrives is delivered. -/
theorem delivered_of_retains (hp : p.Lawful) (hoaep : OaepLawful p) (hpeers : Peers names)
    (hstart : Started names s₀)
    (h : Reach (step p names) (fun s act => Faithful p names s act ∧ Retains names s act) s₀ s)
    {g : Frame} {r : Sent} {message : Bytes} (harr : Arrives p names s x g r)
    (hdata : r.call = .sendToNeighbor message (names x).hostname)
    (hidle : (s.host x).thread = .idle) : Delivered p names s x g r message := by
  have hempty : ∀ y, s₀.recent y = s₀.sent := by
    intro y
    rw [hstart.recent y, hstart.sent]
  have hall : Reach (step p names) (Keeping p names) s₀ s ∧ ∀ y, s.recent y = s.sent := by
    refine h.transfer (I := fun s => ∀ y, s.recent y = s.sent) hempty ?_
    intro s act s' hs hok hstep
    refine ⟨⟨hok.1, hok.2.renews hs⟩, ?_⟩
    intro y
    obtain ⟨frames, hsent, hrecent⟩ := step_recent hstep
    rw [hsent, (hrecent y).resolve_right (fun hno => hno.2 hok.2), hs y]
  obtain ⟨hkeeping, hrecent⟩ := hall
  have hinv := agreed_of_reach hp hoaep hpeers hstart hkeeping
  exact hinv.delivers hp hoaep hpeers harr (hrecent x ▸ harr.sent) hdata hidle

/-- What counts for an agent has been sent. -/
theorem recent_subset (hstart : Started names s₀) {ok : Pair → Act → Prop}
    (h : Reach (step p names) ok s₀ s) (y : Bool) : s.recent y ⊆ s.sent := by
  refine h.inv (I := fun s => s.recent y ⊆ s.sent) ?_ ?_
  · rw [hstart.recent y]
    exact List.nil_subset _
  · intro s act s' hs _ hstep
    obtain ⟨frames, hsent, hrecent⟩ := step_recent hstep
    rw [hsent]
    rcases hrecent y with hmore | ⟨hnil, -⟩
    · rw [hmore]
      exact List.append_subset.mpr
        ⟨List.Subset.trans hs (List.subset_append_left _ _), List.subset_append_right _ _⟩
    · rw [hnil]
      exact List.nil_subset _

def pairName : Bool → Identity
  | false => ⟨"10.0.0.1", ⟨2 ^ 1023 + 1, 3, 7⟩⟩
  | true => ⟨"10.0.0.2", ⟨2 ^ 1023 + 3, 3, 7⟩⟩

def pairKey (x : Bool) : Bytes := List.replicate 16 (if x then 2 else 1)

def advertised (x : Bool) : Neighbor where
  ipAddress := (pairName x).hostname
  encryptionKey := pairKey x
  encryptionIV := pairKey x
  pubKey := some (pairName x).rsaKey.publickey
  timestampLastKCM := 0

/-- Two agents that are connected with each other. -/
def pairStart : Pair where
  host x := { agent :=
    { key := pairKey x
      iv := pairKey x
      globalNeighborList := AList.insert (pairName !x).hostname (advertised !x)
        (AList.insert (pairName x).hostname (advertised x) ∅)
      globalAppList := ["app"]
      frontend := [((pairName x).hostname, .snd), ((pairName !x).hostname, .fwd)] } }

theorem pairName_peers : Peers pairName where
  distinct x := by cases x <;> decide
  named x := by cases x <;> decide
  sized x := by cases x <;> decide +kernel

theorem pairStart_started : Started pairName pairStart where
  sent := rfl
  recent _ := rfl
  thread _ := rfl
  home x := by
    cases x
    · exact ⟨by decide +kernel, by decide +kernel⟩
    · exact ⟨by decide +kernel, by decide +kernel⟩
  blank x e he := by
    have hlook : (pairStart.host x).agent.globalNeighborList.lookup (pairName !x).hostname =
        some (advertised !x) := AList.lookup_insert _
    obtain rfl := Option.some.inj (hlook.symm.trans he)
    exact ⟨rfl, rfl⟩

/-- What the receive threads meet, with the keys that they are given next. -/
def keyWorld (keys : Bytes × Bytes) : World where
  now := 0
  kcmWait := some
  sendWait := some
  loads := JsonText.loads (fun _ => .null) 100
  freshKeys := keys
  rx_cb _ _ := true
  outside := PublishedFrames.quietOutside

/-- The frame of a call of the other agent, as the forwarder of `x` publishes it. -/
def arrival (x : Bool) (call : Call) (plain : Bytes) : Frame where
  host := some (.str (pairName !x).hostname)
  lasthop := some (.str (pairName x).hostname)
  id := some (.int 1)
  receiver := some (.str call.receiver)
  ttl := some (.int 1)
  msg_type := some (.str call.msgType)
  sub_type := some (.str call.subType)
  msg := some (.str (String.ofList
    (encodestring (listPlatform.encrypt (pairKey x) (pairKey x) plain))))
  sig := some (listPlatform.sign (pairName x).rsaKey (listPlatform.sha1 plain))

deriving instance DecidableEq for Call

/-- A frame of this call to `x`, with `plain` in it, is on the air and counts; `x` has its
first keys and is ready for the frame. -/
def OnAir (s : Pair) (x : Bool) (call : Call) (plain : Bytes) : Prop :=
  ((s.host x).agent.key = pairKey x ∧ (s.host x).agent.iv = pairKey x) ∧
    Handling.ready (s.host x).thread = true ∧ call.receiver = (pairName x).hostname ∧
    ∃ r ∈ s.recent x, r.origin = (!x) ∧ r.call = call ∧
      unicastLayer listPlatform (storeOldKeys (pairName !x) r.now r.agent call.keys.1 call.keys.2)
        call.message call.msgType call.receiver = .ok (some plain)

instance (s : Pair) (x : Bool) (call : Call) (plain : Bytes) : Decidable (OnAir s x call plain) :=
  inferInstanceAs (Decidable (_ ∧ _))

theorem OnAir.arrives {ok : Pair → Act → Prop}
    (hreach : Reach (step listPlatform pairName) ok pairStart s) {call : Call} {plain : Bytes}
    (h : OnAir s x call plain) :
    ∃ r ∈ s.recent x, r.call = call ∧
      Arrives listPlatform pairName s x (arrival x call plain) r := by
  obtain ⟨hkey, -, hreceiver, r, hr, horigin, rfl, hplain⟩ := h
  have hsent := recent_subset pairStart_started hreach x hr
  refine ⟨r, hr, rfl, hsent, horigin, hreceiver, ?_, plain, hplain, ?_⟩
  · rw [hkey.1, hkey.2]
    cases x <;> decide
  · rw [hkey.1, hkey.2]
    exact ⟨rfl, rfl, rfl, rfl, rfl, rfl, rfl⟩

/-- A step, if it can be taken. -/
def take (s : Pair) (act : Act) : Pair := (step listPlatform pairName s act).getD s

theorem reach_take {ok : Pair → Act → Prop} {act : Act}
    (h : Reach (step listPlatform pairName) ok s₀ s) (hok : ok s act) :
    Reach (step listPlatform pairName) ok s₀ (take s act) := by
  unfold take
  cases hstep : step listPlatform pairName s act with
  | none => exact h
  | some s' => exact h.next hok hstep

theorem reach_receive {call : Call} {plain : Bytes}
    (h : Reach (step listPlatform pairName) (Keeping listPlatform pairName) pairStart s)
    (hair : OnAir s x call plain) {keys : Bytes × Bytes} (hkeys : Sized keys.1 keys.2) :
    Reach (step listPlatform pairName) (Keeping listPlatform pairName) pairStart
      (take s (.receive x (keyWorld keys) (arrival x call plain))) := by
  obtain ⟨r, -, -, harr⟩ := hair.arrives h
  exact reach_take h ⟨⟨⟨r, harr⟩, ⟨_, fun _ _ hloads => hloads⟩, hkeys⟩, trivial⟩

/-- A step that the condition says nothing of. -/
def Act.free (s : Pair) : Act → Bool
  | .receive _ _ _ => false
  | .table _ _ => false
  | .sender x t _ =>
      match (s.host x).senders t with
      | .send _ _ => false
      | _ => true
  | _ => true

theorem keeping_of_free {act : Act} (h : act.free s = true) : Keeping p names s act := by
  cases act with
  | receive x world g => cases h
  | table x op => cases h
  | sender x t now =>
    refine ⟨trivial, ?_⟩
    intro message hstage
    rw [Act.free, hstage] at h
    cases h
  | _ => exact ⟨trivial, trivial⟩

def allFree : Pair → List Act → Bool
  | _, [] => true
  | s, act :: rest => act.free s && allFree (take s act) rest

theorem reach_foldl {acts : List Act}
    (h : Reach (step listPlatform pairName) (Keeping listPlatform pairName) s₀ s)
    (hfree : allFree s acts = true) :
    Reach (step listPlatform pairName) (Keeping listPlatform pairName) s₀ (acts.foldl take s) := by
  induction acts generalizing s with
  | nil => exact h
  | cons act rest ih =>
    rw [allFree, Bool.and_eq_true] at hfree
    exact ih (reach_take h (keeping_of_free hfree.1)) hfree.2

def request : Call := rukCall "10.0.0.2"

def answer (keys : Bytes × Bytes) : Call := nukCall keys.1 keys.2 "10.0.0.1"

/-- The first agent has asked for a key to send the message. -/
def asked (s : Pair) (message : Bytes) : Pair :=
  [Act.sendToNeighbor false 0 message "10.0.0.2", .sender false 0 0, .sender false 0 0].foldl take s

def requested (s : Pair) (message : Bytes) (keys : Bytes × Bytes) : Pair :=
  take (asked s message) (.receive true (keyWorld keys) (arrival true request []))

/-- The second agent has answered and stored the key. -/
def answered (s : Pair) (message : Bytes) (keys : Bytes × Bytes) : Pair :=
  [Act.handle true 0, .handle true 0, .handle true 0].foldl take (requested s message keys)

def replied (s : Pair) (message : Bytes) (keys : Bytes × Bytes) : Pair :=
  take (answered s message keys)
    (.receive false (keyWorld keys) (arrival false (answer keys) (answer keys).message))

/-- The first agent has stored the key and is about to send the message. -/
def keyed (s : Pair) (message : Bytes) (keys : Bytes × Bytes) : Pair :=
  [Act.handle false 0, .sender false 0 0, .sender false 0 0].foldl take (replied s message keys)

def greeted (s : Pair) (message : Bytes) (keys : Bytes × Bytes) : Pair :=
  take (keyed s message keys) (.sender false 0 0)

instance (k i : Bytes) : Decidable (Sized k i) := inferInstanceAs (Decidable (_ ∧ _))

instance (sent : List Sent) (y : Bool) (k i : Bytes) : Decidable (Answered names sent y k i) :=
  inferInstanceAs (Decidable (_ ∧ _))

/-- Nothing gets lost from the call to the message on the air. -/
def Greets (s : Pair) (message : Bytes) (keys : Bytes × Bytes) : Prop :=
  Sized keys.1 keys.2 ∧
    allFree s [.sendToNeighbor false 0 message "10.0.0.2", .sender false 0 0, .sender false 0 0] ∧
    OnAir (asked s message) true request [] ∧
    allFree (requested s message keys) [.handle true 0, .handle true 0, .handle true 0] ∧
    OnAir (answered s message keys) false (answer keys) (answer keys).message ∧
    allFree (replied s message keys) [.handle false 0, .sender false 0 0, .sender false 0 0] ∧
    ∀ e ∈ ((keyed s message keys).host false).agent.globalNeighborList.lookup "10.0.0.2",
      Answered pairName ((keyed s message keys).recent true) true e.unicastSendKey e.unicastSendIv

instance (s : Pair) (message : Bytes) (keys : Bytes × Bytes) :
    Decidable (Greets s message keys) := inferInstanceAs (Decidable (_ ∧ _))

theorem Greets.reach {message : Bytes} {keys : Bytes × Bytes} (hg : Greets s message keys)
    (h : Reach (step listPlatform pairName) (Keeping listPlatform pairName) pairStart s) :
    Reach (step listPlatform pairName) (Keeping listPlatform pairName) pairStart
      (greeted s message keys) := by
  obtain ⟨hsized, hasks, hrequest, hanswers, hanswer, hstores, hkeys⟩ := hg
  have hasked := reach_foldl h hasks
  have hanswered := reach_foldl (reach_receive hasked hrequest hsized) hanswers
  have hkeyed := reach_foldl (reach_receive hanswered hanswer hsized) hstores
  refine reach_take hkeyed ⟨trivial, ?_⟩
  intro message' _ e he
  have hans := hkeys e he
  exact ⟨fun _ _ => ⟨_, hans⟩, fun _ _ => ⟨_, hans⟩⟩

def sessionKeys : Bytes × Bytes := (List.replicate 16 5, List.replicate 16 6)

def pairWorld : World := keyWorld sessionKeys

/-- The message "hi" has been sent, under the first key. -/
def greetedOnce : Pair := greeted pairStart [104, 105] sessionKeys

theorem greetedOnce_reached : Reach (step listPlatform pairName) (Keeping listPlatform pairName)
    pairStart greetedOnce ∧ ∀ y, (greetedOnce.host y).thread = .idle := by
  obtain ⟨hgreets, hready⟩ : Greets pairStart [104, 105] sessionKeys ∧
      ∀ y, Handling.ready (greetedOnce.host y).thread = true := by decide +kernel
  exact ⟨hgreets.reach .start, fun y => idle_of_ready (hready y)⟩

/-- The agent `x` loses the other one, or hears of it. -/
def lose (x : Bool) : Act :=
  .table x (.onAPLeft PublishedFrames.quietOutside (pairName !x).hostname)

def hear (x : Bool) : Act :=
  .table x (.onAPJoined PublishedFrames.quietOutside [advertised !x])

theorem faithful_lose (s : Pair) (x : Bool) : Faithful listPlatform pairName s (lose x) := trivial

theorem faithful_hear (s : Pair) (x : Bool) : Faithful listPlatform pairName s (hear x) := by
  intro e he _
  obtain rfl := List.mem_singleton.mp he
  exact ⟨rfl, rfl⟩

theorem thread_table (s : Pair) (x y : Bool) (op : Op) :
    ((take s (.table x op)).host y).thread = (s.host y).thread := by
  have hupdate : ∀ b, (Function.update s.host x { s.host x with agent := b } y).thread =
      (s.host y).thread := by
    intro b
    by_cases hy : y = x
    · subst hy
      rw [Function.update_self]
    · rw [Function.update_of_ne hy]
  simp only [take, step, Option.getD_some]
  split
  · exact hupdate _
  · exact hupdate _

theorem renews_of_idle (hidle : (s.host x).thread = .idle) (op : Op) :
    Renews names s (.table x op) := by
  intro _ host k i hthread
  rw [hidle] at hthread
  cases hthread

theorem reach_table (hidle : ∀ y, (s.host y).thread = .idle) {op : Op}
    (hproper : Faithful listPlatform pairName s (.table x op))
    (h : Reach (step listPlatform pairName) (Keeping listPlatform pairName) pairStart s) :
    Reach (step listPlatform pairName) (Keeping listPlatform pairName) pairStart
      (take s (.table x op)) ∧ ∀ y, ((take s (.table x op)).host y).thread = .idle := by
  refine ⟨reach_take h ⟨hproper, renews_of_idle (hidle x) op⟩, ?_⟩
  intro y
  rw [thread_table]
  exact hidle y

def partedOnce : Pair := take greetedOnce (lose true)

/-- Both agents have lost each other, the second one with the key that it had given out, and
have met again. -/
def metAgain : Pair := take (take (take partedOnce (lose false)) (hear true)) (hear false)

theorem metAgain_reached : Reach (step listPlatform pairName) (Keeping listPlatform pairName)
    pairStart metAgain := by
  obtain ⟨hgreeted, hidle⟩ := greetedOnce_reached
  obtain ⟨hparted, hidle⟩ := reach_table hidle (faithful_lose _ true) hgreeted
  obtain ⟨hboth, hidle⟩ := reach_table hidle (faithful_lose _ false) hparted
  obtain ⟨hmet, hidle⟩ := reach_table hidle (faithful_hear _ true) hboth
  exact (reach_table hidle (faithful_hear _ false) hmet).1

def newKeys : Bytes × Bytes := (List.replicate 16 7, List.replicate 16 8)

def again : Call := .sendToNeighbor [121] "10.0.0.2"

def againText (keys : Bytes × Bytes) : Bytes :=
  asciiBytes (encodestring (listPlatform.encrypt keys.1 keys.2 [121]))

/-- After the two have lost each other and met again, a message comes to the application of
the second one under a new key. -/
theorem session_keys_agree_pair :
    Reach (step listPlatform pairName) (Keeping listPlatform pairName) pairStart
        (greeted metAgain [121] newKeys) ∧
      (∃ r ∈ (greeted metAgain [121] newKeys).recent true, r.call = again ∧
        Arrives listPlatform pairName (greeted metAgain [121] newKeys) true
          (arrival true again (againText newKeys)) r) ∧
      receiveMessage listPlatform (pairName true)
        ((greeted metAgain [121] newKeys).host true).agent
        (arrival true again (againText newKeys)) = .callback [121] := by
  obtain ⟨hgreets, hair⟩ : Greets metAgain [121] newKeys ∧
      OnAir (greeted metAgain [121] newKeys) true again (againText newKeys) := by decide +kernel
  have hreach := hgreets.reach metAgain_reached
  obtain ⟨r, hrecent, hr, harr⟩ := hair.arrives hreach
  obtain ⟨-, -, -, -, -, -, hrec⟩ := session_keys_agree listPlatform_lawful listPlatform_oaep
    pairName_peers pairStart_started hreach harr hrecent hr (idle_of_ready hair.2.1)
  exact ⟨hreach, ⟨r, hrecent, hr, harr⟩, hrec⟩

/-- Only the second agent has lost the first one and heard of it again. -/
def rejoined : Pair := take partedOnce (hear true)

/-- The first agent sends another message, under the key it has. -/
def lost : Pair :=
  take (take rejoined (.sendToNeighbor false 0 [121] "10.0.0.2")) (.sender false 0 0)

theorem lost_reached : Reach (step listPlatform pairName) (Faithful listPlatform pairName)
    pairStart lost := by
  have hgreeted := greetedOnce_reached.1.mono (fun _ _ hok => hok.1)
  have hrejoined : Reach (step listPlatform pairName) (Faithful listPlatform pairName) pairStart
      rejoined :=
    reach_take (reach_take hgreeted (faithful_lose _ _)) (faithful_hear _ _)
  have hasks : Faithful listPlatform pairName rejoined
      (.sendToNeighbor false 0 [121] "10.0.0.2") := trivial
  exact reach_take (reach_take hrejoined hasks) trivial

/-- A key that only the sender still has. -/
theorem rejoined_drops_message :
    Started pairName pairStart ∧
      Reach (step listPlatform pairName) (Faithful listPlatform pairName) pairStart lost ∧
      (∃ r, r.call = again ∧
        Arrives listPlatform pairName lost true (arrival true again (againText sessionKeys)) r) ∧
      (lost.host true).thread = .idle ∧
      (lost.host false).senders 0 = .returned .success ∧
      ((lost.host false).agent.globalNeighborList.lookup "10.0.0.2").map
        Neighbor.unicastSendKey = some sessionKeys.1 ∧
      ((lost.host true).agent.globalNeighborList.lookup "10.0.0.1").map
        Neighbor.unicastRecKey = some [] ∧
      receiveMessage listPlatform (pairName true) (lost.host true).agent
        (arrival true again (againText sessionKeys)) = .noUnicastKey := by
  obtain ⟨hair, hstate⟩ : OnAir lost true again (againText sessionKeys) ∧
      (lost.host false).senders 0 = .returned .success ∧
      ((lost.host false).agent.globalNeighborList.lookup "10.0.0.2").map
        Neighbor.unicastSendKey = some sessionKeys.1 ∧
      ((lost.host true).agent.globalNeighborList.lookup "10.0.0.1").map
        Neighbor.unicastRecKey = some [] ∧
      receiveMessage listPlatform (pairName true) (lost.host true).agent
        (arrival true again (againText sessionKeys)) = .noUnicastKey := by
    decide +kernel
  obtain ⟨r, -, hr, harr⟩ := hair.arrives lost_reached
  exact ⟨pairStart_started, lost_reached, ⟨r, hr, harr⟩, idle_of_ready hair.2.1, hstate⟩

end Runs

end Nxwlan.SessionAgreement
