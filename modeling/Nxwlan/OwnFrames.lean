import Nxwlan.FloodPasses
import Nxwlan.ForwarderLife
import Nxwlan.LocalDelivery

/-!
The agent's own frames between the sender socket and the forwarder. A frame is
built under the keys that its thread has read and is decrypted with the keys
that the table holds when the forwarder gets to it; it bears the message number
that its thread has found. Both go well as long as no key is replaced under a
frame on its way and no two threads send between one another's increments.
-/
namespace Nxwlan.OwnFrames

open JsonFrames AgentState Forwarder ForwarderStages Messaging ReceiveLoop AgentThreads ThreadSteps
open PublishedFrames StepRuns LocalDelivery
open FloodPasses (GoodName)
open ForwarderLife (Lives lives_iff)
open Base64 (Bytes)

variable {p : Platform} {me : Identity} {out : Outside} {s s' s₀ : Sys} {a b : Agent} {f f₀ : Frame}
  {lasthop : String} {key iv : Bytes}

/-- A frame of the agent itself, under `lasthop` and these keys. -/
def Built (p : Platform) (me : Identity) (lasthop : String) (key iv : Bytes) (f : Frame) : Prop :=
  (lasthop = me.hostname ∨ lasthop = "old_keys") ∧ aesAccepts key iv = true ∧
    ∃ id ttl msg_type sub_type nodeID plain, 2 ≤ ttl ∧
      f = initialFrame p me lasthop key iv id ttl msg_type sub_type nodeID plain

/-- The table has these keys for `name`. -/
def HasKeys (a : Agent) (name : String) (key iv : Bytes) : Prop :=
  ∃ e, a.globalNeighborList.lookup name = some e ∧ e.encryptionKey = key ∧ e.encryptionIV = iv

/-- The frame as the forwarder has it in hand. -/
def Counted (f₀ f : Frame) : Prop := ∃ ttl, f = { f₀ with ttl := ttl }

/-- An own frame that the cache has not seen passes the filters. -/
theorem built_filtered {cache : FwdCache} (h : Built p me lasthop key iv f₀)
    (hseen : seen p cache f₀ = .ok false) :
    ∃ f, filterFrame p me cache f₀ = .ok f ∧ Counted f₀ f := by
  obtain ⟨-, -, id, ttl, msg_type, sub_type, nodeID, plain, httl, rfl⟩ := h
  refine ⟨_, ?_, ⟨some (.int (ttl - 1)), rfl⟩⟩
  have hpos : ¬ ttl - 1 ≤ 0 := by omega
  have hown : addressed me (initialFrame p me lasthop key iv id ttl msg_type sub_type nodeID
      plain) = .ok true := by
    simp [addressed, initialFrame, field, Json.isStr]
  simp only [filterFrame, hseen, hown]
  simp only [initialFrame, field, Except.bind, Json.toInt, hpos, if_false]

/-- An own frame is marked as one, without a trace. -/
theorem built_marked (hme : GoodName me.hostname) (h : Built p me lasthop key iv f₀)
    (hf : Counted f₀ f) (a : Agent) : mark me f a = .ok (false, a) := by
  obtain ⟨hname, -, id, ttl, msg_type, sub_type, nodeID, plain, -, rfl⟩ := h
  obtain ⟨ttl', rfl⟩ := hf
  have hlast : lasthop.toList.all (fun c => c.toNat < 128) = true := by
    rcases hname with rfl | rfl
    · exact hme.1
    · decide
  simp only [mark, initialFrame, field, bind, Except.bind, Json.printable, hlast, if_true, hme.1,
    Json.isStr, beq_self_eq_true, pure, Except.pure]

/-- An own frame is decoded with the keys it was built under. -/
theorem built_decoded (hp : p.Lawful) (h : Built p me lasthop key iv f₀) (hf : Counted f₀ f)
    (hkeys : HasKeys a lasthop key iv) :
    ∃ plain, firstDecode p me a false f = .decoded ⟨lasthop, key, iv, plain⟩ := by
  obtain ⟨hname, haes, id, ttl, msg_type, sub_type, nodeID, plain, -, rfl⟩ := h
  obtain ⟨ttl', rfl⟩ := hf
  obtain ⟨e, hlook, rfl, rfl⟩ := hkeys
  have hver : verificationKey me lasthop e = some me.rsaKey.publickey := by
    rw [verificationKey, if_neg]
    rintro ⟨hhost, hold⟩
    exact hname.elim hhost hold
  have hattempt : attempt p e.encryptionKey e.encryptionIV (some me.rsaKey.publickey)
      { initialFrame p me lasthop e.encryptionKey e.encryptionIV id ttl msg_type sub_type nodeID
          plain with ttl := ttl' } = .ok (plain, true) := by
    rw [attempt_readable haes (encodedMsg_encoded rfl) rfl, hp.decrypt_encrypt, hp.verify_sign]
  refine ⟨plain, ?_⟩
  have hentry : lasthopEntry { initialFrame p me lasthop e.encryptionKey e.encryptionIV id ttl
      msg_type sub_type nodeID plain with ttl := ttl' } a.globalNeighborList =
        .ok (some (lasthop, e)) := by
    simp [lasthopEntry, initialFrame, field, Except.bind, Json.dictKey, hlook]
  simp only [firstDecode, hentry, hver, hattempt]

/-- An own frame is sent on, and the cache is written. -/
theorem built_sent (h : Built p me lasthop key iv f₀) (hf : Counted f₀ f) (a : Agent)
    (cache : FwdCache) (d : Decoded) {sendKey sendIv : Bytes}
    (haes : aesAccepts sendKey sendIv = true) :
    ∃ id, f₀.id = some (.int id) ∧ sendOn p me a cache false d sendKey sendIv f =
      { agent := Agent.releaseSenders a
        cache := cache.insert (.str me.hostname) (.int id)
        published := some (republished p me sendKey sendIv d.plain f) } := by
  obtain ⟨-, -, id, ttl, msg_type, sub_type, nodeID, plain, -, rfl⟩ := h
  obtain ⟨ttl', rfl⟩ := hf
  refine ⟨id, rfl, ?_⟩
  simp only [sendOn, haes, if_true, remember, initialFrame, field, bind, Except.bind, Json.dictKey,
    pure, Except.pure]
  rfl

/-- The forwarder has not decrypted its frame yet. -/
def beforeDecode : FwdStage → Bool
  | .idle => true
  | .await _ _ => true
  | .decode _ _ => true
  | _ => false

/-- The forwarder has passed its wait for the key rotation, but has not decrypted its
frame yet. -/
def pastGate : FwdStage → Bool
  | .await _ events => !events.contains .changeKeys
  | .decode _ _ => true
  | _ => false

/-- The frame at place `i` is still to be decrypted by the forwarder. -/
def Undecoded (s : Sys) (i : ℕ) : Prop :=
  s.log.length ≤ i ∧ (i = s.log.length → beforeDecode s.forwarder = true)

/-- A frame under this last hop and these keys is in the hands of a thread, or sent and
not decrypted by the forwarder yet. -/
def UnderWay (s : Sys) (lasthop : String) (key iv : Bytes) : Prop :=
  (∃ t call, s.senders t = .send call lasthop key iv) ∨
    ∃ i f, s.arrived[i]? = some ⟨some (lasthop, key, iv), f⟩ ∧ Undecoded s i

/-- A last hop other than the two that stand for the agent itself. -/
def OtherName (me : Identity) (name : String) : Prop := name ≠ me.hostname ∧ name ≠ "old_keys"

/-- A filter drops the frame: its time is up, it was seen before, or it is for another agent. -/
def Filtered (p : Platform) (me : Identity) (cache : FwdCache) (f : Frame) : Prop :=
  (∃ ttl, (field f.ttl).bind Json.toInt = .ok ttl ∧ ttl ≤ 1) ∨ seen p cache f = .ok true ∨
    addressed me f = .ok false

theorem Filtered.not_taken {cache : FwdCache} (h : Filtered p me cache f) (g : Frame) :
    filterFrame p me cache f ≠ .ok g := by
  intro hfilter
  obtain ⟨raw, ttl, hraw, hint, hpos, hseen, haddr, -⟩ := filterFrame_ok hfilter
  rcases h with ⟨ttl', hint', hle⟩ | hseen' | haddr'
  · rw [hraw] at hint'
    obtain rfl := Except.ok.inj (hint.symm.trans hint')
    omega
  · rw [hseen] at hseen'
    cases hseen'
  · rw [haddr] at haddr'
    cases haddr'

/-- The frame bears neither the agent's name as its host, nor one of the two that stand for the
agent as its last hop. -/
def Strange (me : Identity) (f : Frame) : Prop :=
  foreign me f = true ∧ ∀ name, f.lasthop = some (.str name) → OtherName me name

/-- An operation that leaves the agent's keys and its two entries alone. -/
structure OwnOp (me : Identity) (a b : Agent) : Prop where
  key : b.key = a.key
  iv : b.iv = a.iv
  changeKeys : b.gates.processingChangeKeysEvent = a.gates.processingChangeKeysEvent
  present : (a.globalNeighborList.lookup me.hostname).isSome = true →
    (b.globalNeighborList.lookup me.hostname).isSome = true
  own : ∀ key iv, HasKeys a me.hostname key iv → HasKeys b me.hostname key iv
  old : ∀ key iv, HasKeys a "old_keys" key iv → HasKeys b "old_keys" key iv
  frontend : ∀ link ∈ b.frontend, link ∈ a.frontend

/-- The condition on a step. The agent's own entry gets new keys only while no frame
built under other keys is under way, and so does the entry for old keys; no frame
is sent between the sending and the increment of another thread; first frames
live for two hops at least; expired neighbors can be removed. A frame from the network that
passes the filters does not bear the agent's name as its host or last hop, and
the forwarder can read all that it needs for it. Other
threads leave the agent's keys, its two entries and the events alone. -/
def Orderly (p : Platform) (me : Identity) (s : Sys) : Action → Prop
  | .call _ call => 2 ≤ call.initialTtl
  | .sender t _ =>
      (∀ call, s.senders t = .read call → call.keys.1.length = 16 → call.keys.2.length = 16 →
        ∀ key iv, UnderWay s "old_keys" key iv → key = call.keys.1 ∧ iv = call.keys.2) ∧
      ∀ call lasthop key iv f, s.senders t = .send call lasthop key iv →
        Call.build p me s.agent call lasthop key iv = .ok (some f) →
          ∀ t', s.senders t' ≠ .increment
  | .changeKeys x =>
      (∀ key_old iv_old, s.keyThread = .connect key_old iv_old →
        ∀ key iv, UnderWay s me.hostname key iv → key = s.agent.key ∧ iv = s.agent.iv) ∧
      (s.keyThread = .remove → (leaveAll x.outside
        (expiredNeighbors me x.now s.agent.globalNeighborList) s.agent).2 = .ok ())
  | .forwarder out => ∀ f, s.arrived[s.log.length]? = some ⟨none, f⟩ →
      (s.forwarder = .idle → Filtered p me s.cache f ∨ Strange me f) ∧ Lives p me out s
  | .receive => True
  | .arrive _ => True
  | .other b => OwnOp me s.agent b ∧ b.gates = s.agent.gates

/-- The stages in which the event of the key rotation is cleared. -/
def changing : KeyStage → Bool
  | .replace => true
  | .connect _ _ => true
  | .announce _ _ => true
  | _ => false

/-- What holds of the agent's keys and of its own entry in the table. -/
structure Rotating (me : Identity) (s : Sys) : Prop where
  key : s.agent.key.length = 16
  iv : s.agent.iv.length = 16
  own : (s.agent.globalNeighborList.lookup me.hostname).isSome = true
  current : (∀ key_old iv_old, s.keyThread ≠ .connect key_old iv_old) →
    HasKeys s.agent me.hostname s.agent.key s.agent.iv
  event : s.agent.gates.processingChangeKeysEvent = !changing s.keyThread
  links : (me.hostname, Port.fwd) ∉ s.agent.frontend ∧ ("old_keys", Port.fwd) ∉ s.agent.frontend

/-- The frame in the forwarder's hands and its stage fit together. -/
def Job (me : Identity) (arrival : Arrival) : FwdStage → Prop
  | .idle => True
  | .await f _ => Counted arrival.frame f ∧ (arrival.source = none → Strange me f)
  | .decode f nb => Counted arrival.frame f ∧ nb = arrival.source.isNone ∧
      (arrival.source = none → Strange me f)
  | .retry f name _ _ => arrival.source = none ∧ OtherName me name ∧ foreign me f = true ∧
      Counted arrival.frame f
  | .again f name _ => arrival.source = none ∧ OtherName me name ∧ foreign me f = true ∧
      Counted arrival.frame f
  | .rescan name _ => arrival.source = none ∧ OtherName me name
  | .scan name => arrival.source = none ∧ OtherName me name
  | .keys f nb d => Counted arrival.frame f ∧ nb = arrival.source.isNone ∧
      (arrival.source = none → OtherName me d.lasthop ∧ foreign me f = true) ∧
      ∀ lasthop key iv, arrival.source = some (lasthop, key, iv) →
        d.lasthop = lasthop ∧ d.key = key ∧ d.iv = iv
  | .send f nb d sendKey sendIv => Counted arrival.frame f ∧ nb = arrival.source.isNone ∧
      (arrival.source = none → OtherName me d.lasthop ∧ foreign me f = true) ∧
      (arrival.source ≠ none → aesAccepts sendKey sendIv = true)
  | .closed => False

/-- The agent's own entry has these keys, or is about to get them. -/
def Covered (me : Identity) (s : Sys) (key iv : Bytes) : Prop :=
  HasKeys s.agent me.hostname key iv ∨
    (∃ key_old iv_old, s.keyThread = .connect key_old iv_old) ∧ key = s.agent.key ∧ iv = s.agent.iv

/-- The invariant of the runs that meet the condition. -/
structure Sane (p : Platform) (me : Identity) (s : Sys) : Prop where
  rotating : Rotating me s
  calls : ∀ t call, (s.senders t).call? = some call → 2 ≤ call.initialTtl
  sends : ∀ t call lasthop key iv, s.senders t = .send call lasthop key iv →
    (lasthop = me.hostname ∨ lasthop = "old_keys") ∧ aesAccepts key iv = true
  built : ∀ (i : ℕ) lasthop key iv f, s.arrived[i]? = some ⟨some (lasthop, key, iv), f⟩ →
    Built p me lasthop key iv f
  old : ∀ key iv, UnderWay s "old_keys" key iv → HasKeys s.agent "old_keys" key iv
  own : ∀ key iv, UnderWay s me.hostname key iv → Covered me s key iv
  past : ∀ key iv f, s.arrived[s.log.length]? = some ⟨some (me.hostname, key, iv), f⟩ →
    pastGate s.forwarder = true → HasKeys s.agent me.hostname key iv
  job : ∀ arrival, s.arrived[s.log.length]? = some arrival → Job me arrival s.forwarder
  waiting : s.arrived[s.log.length]? = none → s.forwarder = .idle

theorem HasKeys.congr {name : String} (h : HasKeys a name key iv)
    (hlook : b.globalNeighborList.lookup name = a.globalNeighborList.lookup name) :
    HasKeys b name key iv := by
  unfold HasKeys
  rw [hlook]
  exact h

/-- An operation that leaves the table alone. -/
theorem OwnOp.of_table (hkey : b.key = a.key) (hiv : b.iv = a.iv)
    (hevent : b.gates.processingChangeKeysEvent = a.gates.processingChangeKeysEvent)
    (hlist : b.globalNeighborList = a.globalNeighborList) (hfront : b.frontend = a.frontend) :
    OwnOp me a b :=
  ⟨hkey, hiv, hevent, (fun h => hlist ▸ h), (fun _ _ h => h.congr (hlist ▸ rfl)),
    (fun _ _ h => h.congr (hlist ▸ rfl)), (fun _ hl => hfront ▸ hl)⟩

theorem OwnOp.refl (me : Identity) (a : Agent) : OwnOp me a a := .of_table rfl rfl rfl rfl rfl

/-- An operation of the forwarder on the entry of another name. -/
theorem OwnOp.of_fwdOp (h : FwdOp a b)
    (hothers : ∀ n, n = me.hostname ∨ n = "old_keys" →
      b.globalNeighborList.lookup n = a.globalNeighborList.lookup n) : OwnOp me a b :=
  ⟨h.key, h.iv, h.changeKeys, (fun hs => (hothers _ (Or.inl rfl)).symm ▸ hs),
    (fun _ _ hk => hk.congr (hothers _ (Or.inl rfl))),
    (fun _ _ hk => hk.congr (hothers _ (Or.inr rfl))), h.frontend⟩

theorem Rotating.op (h : Rotating me s) (hop : OwnOp me s.agent s'.agent)
    (hkey : s'.keyThread = s.keyThread ∨
      changing s.keyThread = false ∧ changing s'.keyThread = false) : Rotating me s' := by
  refine ⟨hop.key ▸ h.key, hop.iv ▸ h.iv, hop.present h.own, ?_, ?_, ?_, ?_⟩
  · intro hconn
    rw [hop.key, hop.iv]
    refine hop.own _ _ (h.current ?_)
    intro key_old iv_old hstage
    rcases hkey with hsame | ⟨hnot, -⟩
    · exact hconn key_old iv_old (hsame.trans hstage)
    · rw [hstage] at hnot
      cases hnot
  · rw [hop.changeKeys, h.event]
    rcases hkey with hsame | ⟨hnot, hnot'⟩
    · rw [hsame]
    · rw [hnot, hnot']
  · exact fun hl => h.links.1 (hop.frontend _ hl)
  · exact fun hl => h.links.2 (hop.frontend _ hl)

theorem underWay_mono (hsend : ∀ t call lasthop key iv,
      s'.senders t = .send call lasthop key iv → s.senders t = .send call lasthop key iv)
    (harrived : s'.arrived = s.arrived) (hlog : s'.log = s.log)
    (hfwd : s'.forwarder = s.forwarder) (h : UnderWay s' lasthop key iv) :
    UnderWay s lasthop key iv := by
  rcases h with ⟨t, call, ht⟩ | ⟨i, f, hi, hun⟩
  · exact Or.inl ⟨t, call, hsend t call _ _ _ ht⟩
  · refine Or.inr ⟨i, f, harrived ▸ hi, ?_⟩
    unfold Undecoded at hun ⊢
    rw [hlog, hfwd] at hun
    exact hun

theorem Covered.op (h : Covered me s key iv) (hop : OwnOp me s.agent s'.agent)
    (hkey : s'.keyThread = s.keyThread) : Covered me s' key iv := by
  rcases h with hk | ⟨hconn, hk⟩
  · exact Or.inl (hop.own key iv hk)
  · refine Or.inr ⟨hkey ▸ hconn, ?_⟩
    rw [hop.key, hop.iv]
    exact hk

theorem Covered.table (h : Covered me s key iv)
    (hne : ∀ key_old iv_old, s.keyThread ≠ .connect key_old iv_old) :
    HasKeys s.agent me.hostname key iv := by
  rcases h with hk | ⟨⟨key_old, iv_old, hstage⟩, -⟩
  · exact hk
  · exact absurd hstage (hne key_old iv_old)

/-- The frame of the agent itself that the forwarder is to decrypt next is under way. -/
theorem underWay_of_pastGate (hi : s.arrived[s.log.length]? = some ⟨some (lasthop, key, iv), f⟩)
    (hpast : pastGate s.forwarder = true) : UnderWay s lasthop key iv := by
  refine Or.inr ⟨s.log.length, f, hi, le_rfl, fun _ => ?_⟩
  cases hstage : s.forwarder with
  | await => rfl
  | decode => rfl
  | _ =>
    rw [hstage] at hpast
    cases hpast

/-- A step of another thread than the forwarder that builds and sends nothing. -/
theorem Sane.keep (h : Sane p me s) (hrot : Rotating me s')
    (hcalls : ∀ t call, (s'.senders t).call? = some call → 2 ≤ call.initialTtl)
    (hsend : ∀ t call lasthop key iv,
      s'.senders t = .send call lasthop key iv → s.senders t = .send call lasthop key iv)
    (harrived : s'.arrived = s.arrived) (hlog : s'.log = s.log)
    (hfwd : s'.forwarder = s.forwarder)
    (hold : ∀ key iv, HasKeys s.agent "old_keys" key iv → HasKeys s'.agent "old_keys" key iv)
    (hown : ∀ key iv, UnderWay s me.hostname key iv → Covered me s key iv → Covered me s' key iv)
    (hpast : ∀ key iv, UnderWay s me.hostname key iv → HasKeys s.agent me.hostname key iv →
      HasKeys s'.agent me.hostname key iv) : Sane p me s' := by
  have hway : ∀ {lasthop key iv}, UnderWay s' lasthop key iv → UnderWay s lasthop key iv :=
    fun hw => underWay_mono hsend harrived hlog hfwd hw
  refine ⟨hrot, hcalls, ?_, ?_, ?_, ?_, ?_, ?_, ?_⟩
  · exact fun t call lasthop key iv ht => h.sends t call lasthop key iv (hsend t call _ _ _ ht)
  · rw [harrived]
    exact h.built
  · exact fun key iv hw => hold key iv (h.old key iv (hway hw))
  · exact fun key iv hw => hown key iv (hway hw) (h.own key iv (hway hw))
  · rw [harrived, hlog, hfwd]
    exact fun key iv f hi hgate =>
      hpast key iv (underWay_of_pastGate hi hgate) (h.past key iv f hi hgate)
  · rw [harrived, hlog, hfwd]
    exact h.job
  · rw [harrived, hlog, hfwd]
    exact h.waiting

/-- One that leaves the agent's keys and entries alone as well. -/
theorem Sane.outer (h : Sane p me s) (hop : OwnOp me s.agent s'.agent)
    (hkey : s'.keyThread = s.keyThread ∨
      changing s.keyThread = false ∧ changing s'.keyThread = false)
    (hcalls : ∀ t call, (s'.senders t).call? = some call → 2 ≤ call.initialTtl)
    (hsend : ∀ t call lasthop key iv,
      s'.senders t = .send call lasthop key iv → s.senders t = .send call lasthop key iv)
    (harrived : s'.arrived = s.arrived) (hlog : s'.log = s.log)
    (hfwd : s'.forwarder = s.forwarder) : Sane p me s' := by
  refine h.keep (h.rotating.op hop hkey) hcalls hsend harrived hlog hfwd hop.old ?_
    (fun key iv _ hk => hop.own key iv hk)
  intro key iv _ hk
  rcases hkey with hsame | ⟨hnot, -⟩
  · exact hk.op hop hsame
  · refine Or.inl (hop.own key iv (hk.table ?_))
    intro key_old iv_old hstage
    rw [hstage] at hnot
    cases hnot

theorem getElem?_snoc {α : Type*} {l : List α} {x y : α} {i : ℕ}
    (h : (l ++ [x])[i]? = some y) : l[i]? = some y ∨ i = l.length ∧ y = x := by
  by_cases hi : i < l.length
  · rw [List.getElem?_append_left hi] at h
    exact Or.inl h
  · rw [List.getElem?_append_right (by omega)] at h
    obtain ⟨hlt, rfl⟩ := List.getElem?_eq_some_iff.mp h
    simp only [List.length_cons, List.length_nil] at hlt
    exact Or.inr ⟨by omega, by simp⟩

/-- One more frame comes to the forwarder, under keys that are under way already, or
from the network. -/
theorem Sane.arrives {x : Arrival} (h : Sane p me s) (hagent : s'.agent = s.agent)
    (hkey : s'.keyThread = s.keyThread)
    (hcalls : ∀ t call, (s'.senders t).call? = some call → 2 ≤ call.initialTtl)
    (hsend : ∀ t call lasthop key iv,
      s'.senders t = .send call lasthop key iv → s.senders t = .send call lasthop key iv)
    (harrived : s'.arrived = s.arrived ++ [x]) (hlog : s'.log = s.log)
    (hfwd : s'.forwarder = s.forwarder)
    (hbuilt : ∀ lasthop key iv, x.source = some (lasthop, key, iv) →
      Built p me lasthop key iv x.frame ∧ UnderWay s lasthop key iv) : Sane p me s' := by
  have hway : ∀ {lasthop key iv}, UnderWay s' lasthop key iv → UnderWay s lasthop key iv := by
    rintro lasthop key iv (⟨t, call, ht⟩ | ⟨i, f, hi, hun⟩)
    · exact Or.inl ⟨t, call, hsend t call _ _ _ ht⟩
    · rw [harrived] at hi
      rcases getElem?_snoc hi with hi | ⟨-, rfl⟩
      · refine Or.inr ⟨i, f, hi, ?_⟩
        unfold Undecoded at hun ⊢
        rw [hlog, hfwd] at hun
        exact hun
      · exact (hbuilt lasthop key iv rfl).2
  -- the frame in the forwarder's hands is an old one, unless the forwarder is idle
  have hjob : ∀ y, s'.arrived[s'.log.length]? = some y →
      s.arrived[s.log.length]? = some y ∨ s.forwarder = .idle := by
    intro y hy
    rw [harrived, hlog] at hy
    rcases getElem?_snoc hy with hy | ⟨hlen, -⟩
    · exact Or.inl hy
    · exact Or.inr (h.waiting (List.getElem?_eq_none (by omega)))
  refine ⟨h.rotating.op (hagent ▸ .refl me s.agent) (Or.inl hkey), hcalls, ?_, ?_, ?_, ?_, ?_, ?_,
    ?_⟩
  · exact fun t call lasthop key iv ht => h.sends t call lasthop key iv (hsend t call _ _ _ ht)
  · intro i lasthop key iv f hi
    rw [harrived] at hi
    rcases getElem?_snoc hi with hi | ⟨-, rfl⟩
    · exact h.built i lasthop key iv f hi
    · exact (hbuilt lasthop key iv rfl).1
  · rw [hagent]
    exact fun key iv hw => h.old key iv (hway hw)
  · unfold Covered
    rw [hagent, hkey]
    exact fun key iv hw => h.own key iv (hway hw)
  · intro key iv f hi hpast
    rw [hfwd] at hpast
    rw [hagent]
    rcases hjob _ hi with hi | hidle
    · exact h.past key iv f hi hpast
    · rw [hidle] at hpast
      cases hpast
  · intro y hy
    rw [hfwd]
    rcases hjob y hy with hy | hidle
    · exact h.job y hy
    · rw [hidle]
      trivial
  · intro hnone
    rw [hfwd]
    refine h.waiting ?_
    rw [harrived, hlog, List.getElem?_eq_none_iff, List.length_append] at hnone
    exact List.getElem?_eq_none (by omega)

/-- What a thread's new stage says about all of them. -/
theorem setSender_calls {t : Tid} {stage : Sender} (h : Sane p me s)
    (hstage : ∀ call, stage.call? = some call → 2 ≤ call.initialTtl) :
    ∀ t' call, ((s.setSender t stage).senders t').call? = some call → 2 ≤ call.initialTtl := by
  intro t' call hcall
  by_cases ht : t' = t
  · subst ht
    rw [Sys.setSender_self] at hcall
    exact hstage call hcall
  · rw [Sys.setSender_of_ne s stage ht] at hcall
    exact h.calls t' call hcall

theorem setSender_send {t : Tid} {stage : Sender}
    (hstage : ∀ call lasthop key iv, stage ≠ .send call lasthop key iv) :
    ∀ t' call lasthop key iv, (s.setSender t stage).senders t' = .send call lasthop key iv →
      s.senders t' = .send call lasthop key iv := by
  intro t' call lasthop key iv hsend
  by_cases ht : t' = t
  · subst ht
    rw [Sys.setSender_self] at hsend
    exact absurd hsend (hstage call lasthop key iv)
  · rw [Sys.setSender_of_ne s stage ht] at hsend
    exact hsend

theorem setEvent_op {v : Bool} {e : Event} (hne : e ≠ .changeKeys) (a : Agent) :
    OwnOp me a (Agent.setEvent a v e) := by
  obtain ⟨hkey, hiv, -, hlist, hfront⟩ := setEvent_key a v e
  refine .of_table hkey hiv ?_ hlist hfront
  cases e with
  | changeKeys => exact absurd rfl hne
  | _ => rfl

theorem event_ne_changeKeys (call : Call) : Call.event call ≠ .changeKeys := by
  rcases event_cases call with he | he
  · rw [he]
    simp
  · rw [he]
    simp

/-- The frame of a call, under the number that its thread finds. -/
theorem build_frame {call : Call} (h : Call.build p me a call lasthop key iv = .ok (some f)) :
    aesAccepts key iv = true ∧ ∃ plain, f = initialFrame p me lasthop key iv a.local_id
      call.initialTtl call.msgType call.subType call.receiver plain := by
  unfold Call.build at h
  split at h
  · cases h
  · cases h
  · split at h
    · rename_i haes
      exact ⟨haes, _, (Option.some.inj (Except.ok.inj h)).symm⟩
    · cases h

theorem underWay_reads {t : Tid} {call : Call} {name : String} {key' iv' : Bytes}
    (h : UnderWay { s.setSender t (.send call lasthop key iv) with agent := b } name key' iv') :
    UnderWay s name key' iv' ∨ name = lasthop ∧ key' = key ∧ iv' = iv := by
  rcases h with ⟨t', call', ht⟩ | ⟨i, f, hi, hun⟩
  · by_cases htt : t' = t
    · subst htt
      dsimp only at ht
      rw [Sys.setSender_self] at ht
      simp only [Sender.send.injEq] at ht
      exact Or.inr ⟨ht.2.1.symm, ht.2.2.1.symm, ht.2.2.2.symm⟩
    · dsimp only at ht
      rw [Sys.setSender_of_ne s _ htt] at ht
      exact Or.inl (Or.inl ⟨t', call', ht⟩)
  · exact Or.inl (Or.inr ⟨i, f, hi, hun⟩)

/-- A thread has read the keys for its frame. -/
theorem Sane.reads {t : Tid} {call : Call} (h : Sane p me s) (hstage : s.senders t = .read call)
    (hname : lasthop = me.hostname ∨ lasthop = "old_keys") (haes : aesAccepts key iv = true)
    (hrot : Rotating me { s.setSender t (.send call lasthop key iv) with agent := b })
    (hkey : b.key = s.agent.key) (hiv : b.iv = s.agent.iv)
    (hkeep : ∀ key' iv', HasKeys s.agent me.hostname key' iv' → HasKeys b me.hostname key' iv')
    (hold : ∀ key' iv', UnderWay s "old_keys" key' iv' ∨
      "old_keys" = lasthop ∧ key' = key ∧ iv' = iv → HasKeys b "old_keys" key' iv')
    (hown : me.hostname = lasthop → key = s.agent.key ∧ iv = s.agent.iv) :
    Sane p me { s.setSender t (.send call lasthop key iv) with agent := b } := by
  refine ⟨hrot, setSender_calls h ?_, ?_, h.built, ?_, ?_, ?_, h.job, h.waiting⟩
  · rintro call' ⟨⟩
    exact h.calls t call (by rw [hstage]; rfl)
  · intro t' call' lasthop' key' iv' ht
    by_cases htt : t' = t
    · subst htt
      dsimp only at ht
      rw [Sys.setSender_self] at ht
      simp only [Sender.send.injEq] at ht
      obtain ⟨-, rfl, rfl, rfl⟩ := ht
      exact ⟨hname, haes⟩
    · dsimp only at ht
      rw [Sys.setSender_of_ne s _ htt] at ht
      exact h.sends t' call' lasthop' key' iv' ht
  · exact fun key' iv' hw => hold key' iv' (underWay_reads hw)
  · intro key' iv' hw
    rcases underWay_reads hw with hw | ⟨hl, rfl, rfl⟩
    · rcases h.own key' iv' hw with hk | ⟨hconn, hk⟩
      · exact Or.inl (hkeep key' iv' hk)
      · refine Or.inr ⟨hconn, ?_⟩
        dsimp only
        rw [hkey, hiv]
        exact hk
    · obtain ⟨rfl, rfl⟩ := hown hl
      by_cases hconn : ∃ key_old iv_old, s.keyThread = .connect key_old iv_old
      · exact Or.inr ⟨hconn, hkey.symm, hiv.symm⟩
      · refine Or.inl (hkeep _ _ (h.rotating.current ?_))
        exact fun key_old iv_old hst => hconn ⟨key_old, iv_old, hst⟩
  · exact fun key' iv' f hi hpast => hkeep key' iv' (h.past key' iv' f hi hpast)

/-- Given keys become those of the entry for old keys. -/
theorem Sane.readKeys {t : Tid} {now : ℤ} {call : Call} (hme : GoodName me.hostname)
    (h : Sane p me s) (hstage : s.senders t = .read call)
    (hcond : call.keys.1.length = 16 → call.keys.2.length = 16 →
      ∀ key iv, UnderWay s "old_keys" key iv → key = call.keys.1 ∧ iv = call.keys.2) :
    Sane p me { s.setSender t (.send call (call.sendKeys me s.agent).1
        (call.sendKeys me s.agent).2.1 (call.sendKeys me s.agent).2.2) with
      agent := storeOldKeys me now s.agent call.keys.1 call.keys.2 } := by
  unfold Call.sendKeys sendKeys storeOldKeys
  split
  · -- the agent's own keys
    have haes := aesAccepts_of_length h.rotating.key h.rotating.iv
    exact h.reads hstage (Or.inl rfl) haes (h.rotating.op (.refl me s.agent) (Or.inl rfl)) rfl rfl
      (fun _ _ hk => hk) (fun key' iv' hw => h.old key' iv'
        (hw.resolve_right (fun hl => hme.2 hl.1.symm))) (fun _ => ⟨rfl, rfl⟩)
  · rename_i hlen
    push Not at hlen
    have haes := aesAccepts_of_length hlen.1 hlen.2
    have hlook : ∀ e : Neighbor, (Agent.putNeighbor s.agent "old_keys" e).globalNeighborList.lookup
        me.hostname = s.agent.globalNeighborList.lookup me.hostname :=
      fun e => AList.lookup_insert_ne hme.2
    refine h.reads hstage (Or.inr rfl) haes ?_ rfl rfl (fun _ _ hk => hk.congr (hlook _)) ?_
      (fun hl => absurd hl hme.2)
    · refine ⟨h.rotating.key, h.rotating.iv, ?_, ?_, h.rotating.event, h.rotating.links⟩
      · exact (hlook _).symm ▸ h.rotating.own
      · exact fun hconn => (h.rotating.current hconn).congr (hlook _)
    · intro key' iv' hw
      have hkeys : key' = call.keys.1 ∧ iv' = call.keys.2 := by
        rcases hw with hw | ⟨-, hk⟩
        · exact hcond hlen.1 hlen.2 key' iv' hw
        · exact hk
      exact ⟨_, Rescans.lookup_putNeighbor "old_keys" s.agent _, hkeys.1.symm, hkeys.2.symm⟩

/-- The steps of the sending threads. -/
theorem Sane.moved {t : Tid} {now : ℤ} (hme : GoodName me.hostname) (h : Sane p me s)
    (hm : Moved p me now s t s')
    (hcond : ∀ call, s.senders t = .read call → call.keys.1.length = 16 →
      call.keys.2.length = 16 →
        ∀ key iv, UnderWay s "old_keys" key iv → key = call.keys.1 ∧ iv = call.keys.2) :
    Sane p me s' := by
  cases hm with
  | wait hstage hset =>
    rename_i call e events
    refine h.outer (.refl me s.agent) (Or.inl rfl) (setSender_calls h ?_)
      (setSender_send (by simp)) rfl rfl rfl
    rintro call' ⟨⟩
    exact h.calls t call (by rw [hstage]; rfl)
  | cleared hstage =>
    rename_i call
    refine h.outer (setEvent_op (event_ne_changeKeys call) s.agent) (Or.inl rfl)
      (setSender_calls h ?_) (setSender_send (by simp)) rfl rfl rfl
    rintro call' ⟨⟩
    exact h.calls t call (by rw [hstage]; rfl)
  | readKeys hstage => exact h.readKeys hme hstage (hcond _ hstage)
  | raises hstage hbuild =>
    exact h.outer (.refl me s.agent) (Or.inl rfl) (setSender_calls h (by simp [Sender.call?]))
      (setSender_send (by simp)) rfl rfl rfl
  | unknown hstage hbuild =>
    exact h.outer (setEvent_op (e := .userSpace) (by simp) s.agent) (Or.inl rfl)
      (setSender_calls h (by simp [Sender.call?])) (setSender_send (by simp)) rfl rfl rfl
  | sent hstage hbuild =>
    rename_i call lasthop key iv f
    obtain ⟨hname, -⟩ := h.sends t call lasthop key iv hstage
    have httl := h.calls t call (by rw [hstage]; rfl)
    obtain ⟨haes, plain, rfl⟩ := build_frame hbuild
    refine h.arrives rfl rfl (setSender_calls h (by simp [Sender.call?])) (setSender_send (by simp))
      rfl rfl rfl ?_
    rintro lasthop' key' iv' ⟨⟩
    exact ⟨⟨hname, haes, _, _, _, _, _, _, httl, rfl⟩, Or.inl ⟨t, call, hstage⟩⟩
  | incremented hstage =>
    exact h.outer (.of_table rfl rfl rfl rfl rfl) (Or.inl rfl)
      (setSender_calls h (by simp [Sender.call?])) (setSender_send (by simp)) rfl rfl rfl

/-- The agent is in its own table, so that joining itself updates this entry. -/
theorem Rotating.joined (h : Rotating me s) (x : Rotation) :
    ∃ e, onAPJoined x.outside me s.agent [ownEntry me x.now s.agent] =
      Agent.putNeighbor s.agent me.hostname (Neighbor.update e (ownEntry me x.now s.agent)) := by
  obtain ⟨e, he⟩ := Option.isSome_iff_exists.mp h.own
  exact ⟨e, Rescans.onAPJoined_known he⟩

/-- The agent's own entry gets its keys. -/
theorem Sane.connected {x : Rotation} {key_old iv_old : Bytes} (hme : GoodName me.hostname)
    (h : Sane p me s) (hstage : s.keyThread = .connect key_old iv_old)
    (hcond : ∀ key iv, UnderWay s me.hostname key iv → key = s.agent.key ∧ iv = s.agent.iv) :
    Sane p me { s with
      agent := onAPJoined x.outside me s.agent [ownEntry me x.now s.agent]
      keyThread := .announce key_old iv_old } := by
  obtain ⟨e, hjoin⟩ := h.rotating.joined x
  have hnil : s.agent.key ≠ [] ∧ s.agent.iv ≠ [] := by
    refine ⟨?_, ?_⟩
    · intro hnil
      simpa [hnil] using h.rotating.key
    · intro hnil
      simpa [hnil] using h.rotating.iv
  have hkeys : HasKeys (onAPJoined x.outside me s.agent [ownEntry me x.now s.agent]) me.hostname
      s.agent.key s.agent.iv := by
    rw [hjoin]
    refine ⟨_, Rescans.lookup_putNeighbor me.hostname s.agent _, ?_, ?_⟩
    · simp [Neighbor.update, ownEntry, hnil.1]
    · simp [Neighbor.update, ownEntry, hnil.2]
  have hold : ∀ key iv, HasKeys s.agent "old_keys" key iv →
      HasKeys (onAPJoined x.outside me s.agent [ownEntry me x.now s.agent]) "old_keys" key iv := by
    intro key iv hk
    rw [hjoin]
    exact hk.congr (AList.lookup_insert_ne (Ne.symm hme.2))
  refine h.keep ?_ h.calls (fun _ _ _ _ _ ht => ht) rfl rfl rfl hold ?_ ?_
  · rw [hjoin] at hkeys ⊢
    have he' := Rescans.lookup_putNeighbor me.hostname s.agent
      (e.update (ownEntry me x.now s.agent))
    refine ⟨h.rotating.key, h.rotating.iv, ?_, fun _ => hkeys, ?_, h.rotating.links⟩
    · exact Option.isSome_iff_exists.mpr ⟨_, he'⟩
    · exact h.rotating.event.trans (by rw [hstage]; rfl)
  · intro key iv hw _
    obtain ⟨rfl, rfl⟩ := hcond key iv hw
    exact Or.inl hkeys
  · intro key iv hw _
    obtain ⟨rfl, rfl⟩ := hcond key iv hw
    exact hkeys

/-- The steps of the key thread. -/
theorem Sane.rotated {x : Rotation} (hme : GoodName me.hostname) (h : Sane p me s)
    (hr : Rotated me x s s')
    (hcond : ∀ key_old iv_old, s.keyThread = .connect key_old iv_old →
      ∀ key iv, UnderWay s me.hostname key iv → key = s.agent.key ∧ iv = s.agent.iv) :
    Sane p me s' := by
  -- a stage that leaves the rotation's event as it is
  have hlater : ∀ {b : Agent} {stage : KeyStage}, OwnOp me s.agent b →
      changing s.keyThread = false → changing stage = false →
      Sane p me { s with agent := b, keyThread := stage } := by
    intro b stage hop hnot hnot'
    exact h.outer hop (Or.inr ⟨hnot, hnot'⟩) h.calls (fun _ _ _ _ _ ht => ht) rfl rfl rfl
  cases hr with
  | wakes hstage
  | wait hstage
  | fails hstage
  | validateWait hstage => exact hlater (.refl me s.agent) (by rw [hstage]; rfl) rfl
  | cleared hstage =>
    have hrot := h.rotating
    have hne : ∀ key_old iv_old, s.keyThread ≠ .connect key_old iv_old := by simp [hstage]
    refine h.keep ⟨hrot.key, hrot.iv, hrot.own, fun _ => hrot.current hne, rfl, hrot.links⟩ h.calls
      (fun _ _ _ _ _ ht => ht) rfl rfl rfl (fun _ _ hk => hk) ?_ (fun _ _ _ hk => hk)
    exact fun key iv _ hk => Or.inl (Covered.table (s := s) hk hne)
  | replaced hstage =>
    have hrot := h.rotating
    have hne : ∀ key_old iv_old, s.keyThread ≠ .connect key_old iv_old := by simp [hstage]
    refine h.keep ⟨x.key_length, x.iv_length, hrot.own, ?_, ?_, hrot.links⟩ h.calls
      (fun _ _ _ _ _ ht => ht) rfl rfl rfl (fun _ _ hk => hk) ?_ (fun _ _ _ hk => hk)
    · exact fun hconn => absurd rfl (hconn _ _)
    · exact hrot.event.trans (by rw [hstage]; rfl)
    · exact fun key iv _ hk => Or.inl (Covered.table (s := s) hk hne)
  | connected hstage => exact h.connected hme hstage (hcond _ _ hstage)
  | announced hstage =>
    have hrot := h.rotating
    have hne : ∀ key_old iv_old, s.keyThread ≠ .connect key_old iv_old := by simp [hstage]
    refine h.keep ⟨hrot.key, hrot.iv, hrot.own, fun _ => hrot.current hne, rfl, hrot.links⟩
      (setSender_calls h ?_) (setSender_send (by simp)) rfl rfl rfl
      (fun _ _ hk => hk) ?_ (fun _ _ _ hk => hk)
    · rintro call ⟨⟩
      change (2 : ℤ) ≤ 3
      decide
    · exact fun key iv _ hk => Or.inl (Covered.table (s := s) hk hne)
  | stamped hstage hidle hentry =>
    rename_i entry
    refine hlater ?_ (by rw [hstage]; rfl) rfl
    have hlook := Rescans.lookup_putNeighbor me.hostname s.agent
      { entry with timestampLastKCM := x.now }
    refine ⟨rfl, rfl, rfl, ?_, ?_, ?_, fun _ hl => hl⟩
    · intro _
      rw [hlook]
      rfl
    · rintro key iv ⟨e, he, hk⟩
      obtain rfl := Option.some.inj (hentry.symm.trans he)
      exact ⟨_, hlook, hk⟩
    · exact fun key iv hk => hk.congr (AList.lookup_insert_ne (Ne.symm hme.2))
  | validated hstage
  | released hstage =>
    exact hlater (setEvent_op (e := .neighborUpdate) (by simp) s.agent) (by rw [hstage]; rfl) rfl
  | removed hstage =>
    refine hlater (.of_fwdOp (leaveAll_op _ _ _).1 ?_) (by rw [hstage]; rfl) ?_
    · rintro n (rfl | rfl)
      · exact leaveAll_unlinked _ _ _ h.rotating.links.1
      · exact leaveAll_unlinked _ _ _ h.rotating.links.2
    · split
      · rfl
      · rfl

end Nxwlan.OwnFrames
