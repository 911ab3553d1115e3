import Nxwlan.GatePledges

/-!
The events that a send clears, step by step: each step of a thread keeps a pledge for
every cleared event, or sets the event. Where a thread or the forwarder leaves on another
path, the events stay cleared.
-/
namespace Nxwlan.SenderGates

open JsonFrames AgentState Forwarder ForwarderStages Messaging Rescans AgentThreads ThreadSteps
open PublishedFrames StepRuns LocalDelivery OwnFrames
open FloodPasses (GoodName)
open Base64 (Bytes)

variable {p : Platform} {me : Identity} {out : Outside} {s s' s₀ : Sys} {a b : Agent}

section Steps

theorem setSender_fit {t : Tid} {stage : Sender} (h : ∀ t, Fit me (s.senders t))
    (hstage : Fit me stage) : ∀ t', Fit me ((s.setSender t stage).senders t') := by
  intro t'
  by_cases ht : t' = t
  · subst ht
    rw [Sys.setSender_self]
    exact hstage
  · rw [Sys.setSender_of_ne s stage ht]
    exact h t'

/-- A step of another thread than the forwarder that sends nothing: a pledge of a
sending thread has to be kept or fulfilled. -/
theorem Released.outer (h : Released p me s) (hkey : s'.agent.key.length = 16)
    (hiv : s'.agent.iv.length = 16) (hsenders : ∀ t, Fit me (s'.senders t))
    (hfwd : s'.forwarder = s.forwarder) (harrived : s'.arrived = s.arrived)
    (hlog : s'.log = s.log)
    (hset : ∀ e ∈ sendingEvents, Agent.isSet s.agent e = true →
      Agent.isSet s'.agent e = true ∨ Pledged s' e)
    (hpledge : ∀ e ∈ sendingEvents, ∀ t call, Sender.cleared? (s.senders t) = some call →
      Call.event call = e → Agent.isSet s'.agent e = true ∨ Pledged s' e) : Released p me s' := by
  refine ⟨hkey, hiv, ?_, hsenders, harrived ▸ h.built, ?_, ?_, ?_⟩
  · rw [harrived, hlog]
    exact h.log
  · rw [harrived, hlog, hfwd]
    exact h.job
  · rw [harrived, hlog, hfwd]
    exact h.waiting
  · intro e he
    rcases h.pledged e he with hs | ⟨t, call, hcall, hevent⟩ | ⟨i, src, f, hi, hf⟩
    · exact hset e he hs
    · exact hpledge e he t call hcall hevent
    · exact Or.inr (Or.inr ⟨i, src, f, hlog ▸ hi, harrived ▸ hf⟩)

/-- A step of that kind by which no thread gets on with a send. -/
theorem Released.aside (h : Released p me s) (hkey : s'.agent.key.length = 16)
    (hiv : s'.agent.iv.length = 16) (hsenders : ∀ t, Fit me (s'.senders t))
    (hfwd : s'.forwarder = s.forwarder) (harrived : s'.arrived = s.arrived)
    (hlog : s'.log = s.log) (hset : Uncleared s.agent s'.agent)
    (hpledge : ∀ t call, Sender.cleared? (s.senders t) = some call →
      Sender.cleared? (s'.senders t) = some call) : Released p me s' :=
  h.outer hkey hiv hsenders hfwd harrived hlog (fun e he hs => Or.inl (hset e he hs))
    (fun _ _ t call hcall hevent => Or.inr (Or.inl ⟨t, call, hpledge t call hcall, hevent⟩))

theorem setSender_cleared {t : Tid} {stage : Sender}
    (hstage : ∀ call, Sender.cleared? (s.senders t) = some call →
      Sender.cleared? stage = some call) :
    ∀ t' call, Sender.cleared? (s.senders t') = some call →
      Sender.cleared? ((s.setSender t stage).senders t') = some call := by
  intro t' call hcall
  by_cases ht : t' = t
  · subst ht
    rw [Sys.setSender_self]
    exact hstage call hcall
  · rw [Sys.setSender_of_ne s stage ht]
    exact hcall

/-- One more frame comes to the forwarder. -/
theorem Released.arrive {arrival : Arrival} (h : Released p me s)
    (hsenders : ∀ t, Fit me (s'.senders t)) (hagent : s'.agent = s.agent)
    (hfwd : s'.forwarder = s.forwarder) (harrived : s'.arrived = s.arrived ++ [arrival])
    (hlog : s'.log = s.log)
    (hbuilt : ∀ lasthop key iv, arrival.source = some (lasthop, key, iv) →
      Built p me lasthop key iv arrival.frame)
    (hpledge : ∀ e ∈ sendingEvents, ∀ t call, Sender.cleared? (s.senders t) = some call →
      Call.event call = e → Pledged s' e) : Released p me s' := by
  have hold : ∀ {i : ℕ} {x : Arrival}, s.arrived[i]? = some x → s'.arrived[i]? = some x := by
    intro i x hi
    rw [harrived, List.getElem?_append_left (List.getElem?_eq_some_iff.mp hi).1]
    exact hi
  refine ⟨hagent ▸ h.key, hagent ▸ h.iv, ?_, hsenders, ?_, ?_, ?_, ?_⟩
  · rw [hlog, harrived, List.length_append]
    exact Nat.le_add_right_of_le h.log
  · intro i lasthop key iv f hi
    rw [harrived] at hi
    rcases getElem?_snoc hi with hi | ⟨-, rfl⟩
    · exact h.built i lasthop key iv f hi
    · exact hbuilt lasthop key iv rfl
  · intro src f hi
    rw [hlog] at hi
    rw [hfwd]
    cases hnext : s.arrived[s.log.length]? with
    | some x =>
      rw [hold hnext] at hi
      obtain rfl := Option.some.inj hi
      exact h.job src f hnext
    | none =>
      -- the forwarder was waiting for a frame
      rcases h.waiting hnext with hidle | hclosed
      · rw [hidle]
        trivial
      · rw [hclosed]
        trivial
  · intro hnone
    rw [hlog, harrived, List.getElem?_eq_none_iff, List.length_append] at hnone
    rw [hfwd]
    exact h.waiting (List.getElem?_eq_none_iff.mpr (by omega))
  · intro e he
    rw [hagent]
    rcases h.pledged e he with hs | ⟨t, call, hcall, hevent⟩ | ⟨i, src, f, hi, hf⟩
    · exact Or.inl hs
    · exact Or.inr (hpledge e he t call hcall hevent)
    · exact Or.inr (Or.inr ⟨i, src, f, hlog ▸ hi, hold hf⟩)

theorem msgType_cases (call : Call) :
    call.msgType = "ctrl" ∧ Call.event call = .userCtrl ∨
      call.msgType = "data" ∧ Call.event call = .userSpace := by
  cases call with
  | sendToNeighbors message ttl => exact Or.inr ⟨rfl, rfl⟩
  | sendToNeighbor message nodeID => exact Or.inr ⟨rfl, rfl⟩
  | sendCtrlToNeighbors message sub_type key iv nodeID => exact Or.inl ⟨rfl, rfl⟩

/-- The layer of a sendable call raises no exception, and the error return is that of a
data message. -/
theorem layer_of_sendable {call : Call} (h : sendable p a call = true) :
    (unicastLayer p a call.message call.msgType call.receiver = .ok none ∧
      Call.event call = .userSpace) ∨
      ∃ message, unicastLayer p a call.message call.msgType call.receiver = .ok (some message) := by
  unfold sendable at h
  unfold unicastLayer
  by_cases hall : call.receiver = broadcast
  · exact Or.inr ⟨call.message, by simp [hall]⟩
  · rw [beq_eq_false_iff_ne.mpr hall, Bool.false_or] at h
    rcases msgType_cases call with ⟨htype, hevent⟩ | ⟨htype, hevent⟩
    · rw [if_pos ⟨hall, htype⟩]
      cases hlook : a.globalNeighborList.lookup call.receiver with
      | none => simp [hlook, htype] at h
      | some entry =>
        simp only [hlook, htype, beq_self_eq_true, if_true] at h
        cases hkey : entry.pubKey with
        | none => simp [hkey] at h
        | some k =>
          obtain ⟨enc, henc⟩ := Option.isSome_iff_exists.mp h
          rw [hkey, Option.bind_some] at henc
          simp only [hkey, henc]
          exact Or.inr ⟨enc, rfl⟩
    · rw [if_neg (by simp [htype]), if_pos ⟨hall, htype⟩]
      cases hlook : a.globalNeighborList.lookup call.receiver with
      | none => exact Or.inl ⟨rfl, hevent⟩
      | some entry =>
        have haes : aesAccepts entry.unicastSendKey entry.unicastSendIv = true := by
          simpa [hlook, htype] using h
        simp only [haes, if_true]
        exact Or.inr ⟨_, rfl⟩

/-- Setting one of the events clears none. -/
theorem Uncleared.set (a : Agent) {e : Event} (he : e ∈ sendingEvents) :
    Uncleared a (Agent.setEvent a true e) ∧ Agent.isSet (Agent.setEvent a true e) e = true := by
  simp only [sendingEvents, List.mem_cons, List.not_mem_nil, or_false] at he
  rcases he with rfl | rfl
  · refine ⟨?_, rfl⟩
    intro e' he' hset
    simp only [sendingEvents, List.mem_cons, List.not_mem_nil, or_false] at he'
    rcases he' with rfl | rfl
    · rfl
    · exact hset
  · refine ⟨?_, rfl⟩
    intro e' he' hset
    simp only [sendingEvents, List.mem_cons, List.not_mem_nil, or_false] at he'
    rcases he' with rfl | rfl
    · exact hset
    · rfl

/-- Clearing the event of a call leaves the other one alone. -/
theorem isSet_cleared {a : Agent} {call : Call} {e : Event} (hne : e ≠ Call.event call) :
    Agent.isSet (Agent.setEvent a false (Call.event call)) e = Agent.isSet a e := by
  rcases event_cases call with he | he
  · rw [he] at hne ⊢
    cases e with
    | userCtrl => exact absurd rfl hne
    | _ => rfl
  · rw [he] at hne ⊢
    cases e with
    | userSpace => exact absurd rfl hne
    | _ => rfl

theorem sendKeys_fit (hkey : s.agent.key.length = 16) (hiv : s.agent.iv.length = 16) (call : Call) :
    ((call.sendKeys me s.agent).1 = me.hostname ∨ (call.sendKeys me s.agent).1 = "old_keys") ∧
      aesAccepts (call.sendKeys me s.agent).2.1 (call.sendKeys me s.agent).2.2 = true := by
  unfold Call.sendKeys sendKeys
  split
  · exact ⟨Or.inl rfl, aesAccepts_of_length hkey hiv⟩
  · rename_i hlen
    rw [not_or, not_not, not_not] at hlen
    exact ⟨Or.inr rfl, aesAccepts_of_length hlen.1 hlen.2⟩

/-- The steps of a sending thread. -/
theorem Released.moved {t : Tid} {now : ℤ} (h : Released p me s) (hm : Moved p me now s t s')
    (hcond : ∀ call ∈ Sender.building? (s.senders t), sendable p s.agent call = true) :
    Released p me s' := by
  have hfit := h.senders t
  cases hm with
  | wait hstage =>
    rw [hstage] at hfit
    refine h.aside h.key h.iv (setSender_fit h.senders hfit) rfl rfl rfl (.refl _)
      (setSender_cleared ?_)
    intro call hcall
    rw [hstage] at hcall
    cases hcall
  | cleared hstage =>
    rename_i call
    rw [hstage] at hfit
    obtain ⟨hkey, hiv, -⟩ := setEvent_key s.agent false (Call.event call)
    refine h.outer (hkey ▸ h.key) (hiv ▸ h.iv) (setSender_fit h.senders hfit)
      rfl rfl rfl ?_ ?_
    · intro e he hset
      by_cases hevent : e = Call.event call
      · refine Or.inr (Or.inl ⟨t, call, ?_, hevent.symm⟩)
        exact congrArg Sender.cleared? (Sys.setSender_self s t (.read call))
      · exact Or.inl ((isSet_cleared hevent).trans hset)
    · intro e _ t' call' hcall hevent
      refine Or.inr (Or.inl ⟨t', call', setSender_cleared ?_ t' call' hcall, hevent⟩)
      intro call'' hcall''
      rw [hstage] at hcall''
      cases hcall''
  | readKeys hstage =>
    rename_i call
    rw [hstage] at hfit
    have hrest := storeOldKeys_rest me now s.agent call.keys.1 call.keys.2
    have hstage' : Fit me (.send call (call.sendKeys me s.agent).1 (call.sendKeys me s.agent).2.1
        (call.sendKeys me s.agent).2.2) := ⟨hfit, sendKeys_fit h.key h.iv call⟩
    refine h.aside ?_ ?_ (setSender_fit h.senders hstage') rfl rfl rfl ?_ (setSender_cleared ?_)
    · dsimp only
      rw [hrest]
      exact h.key
    · dsimp only
      rw [hrest]
      exact h.iv
    · dsimp only
      rw [hrest]
      exact .of_same rfl rfl
    · intro call' hcall
      rw [hstage] at hcall
      exact hcall
  | raises hstage hbuild =>
    rename_i call lasthop key iv e
    rw [hstage] at hfit
    have hsend := hcond call (by rw [hstage]; rfl)
    exfalso
    unfold Call.build at hbuild
    rcases layer_of_sendable hsend with ⟨hlayer, -⟩ | ⟨message, hlayer⟩
    · rw [hlayer] at hbuild
      cases hbuild
    · simp only [hlayer, hfit.2.2, if_true] at hbuild
      cases hbuild
  | unknown hstage hbuild =>
    rename_i call lasthop key iv
    rw [hstage] at hfit
    have hsend := hcond call (by rw [hstage]; rfl)
    have hevent : Call.event call = .userSpace := by
      unfold Call.build at hbuild
      rcases layer_of_sendable hsend with ⟨-, hevent⟩ | ⟨message, hlayer⟩
      · exact hevent
      · simp only [hlayer, hfit.2.2, if_true] at hbuild
        cases hbuild
    obtain ⟨hun, hset⟩ := Uncleared.set s.agent (e := .userSpace) (by decide)
    refine h.outer h.key h.iv (setSender_fit h.senders trivial) rfl rfl rfl
      (fun e he hs => Or.inl (hun e he hs)) ?_
    intro e _ t' call' hcall hevent'
    by_cases ht : t' = t
    · subst ht
      rw [hstage] at hcall
      obtain rfl := Option.some.inj hcall
      rw [← hevent', hevent]
      exact Or.inl hset
    · refine Or.inr (Or.inl ⟨t', call', ?_, hevent'⟩)
      dsimp only
      rw [Sys.setSender_of_ne s _ ht]
      exact hcall
  | sent hstage hbuild =>
    rename_i call lasthop key iv f
    rw [hstage] at hfit
    obtain ⟨haes, plain, rfl⟩ := build_frame hbuild
    refine h.arrive (setSender_fit h.senders trivial) rfl rfl rfl rfl ?_ ?_
    · rintro lasthop' key' iv' ⟨⟩
      exact ⟨hfit.2.1, haes, _, _, _, _, _, _, hfit.1, rfl⟩
    · -- the frame sent takes over the pledge of its thread
      intro e _ _ _ _ _
      exact Or.inr ⟨s.arrived.length, _, _, h.log, List.getElem?_concat_length⟩
  | incremented hstage =>
    refine h.aside h.key h.iv (setSender_fit h.senders trivial) rfl rfl rfl
      (.of_same rfl rfl) (setSender_cleared ?_)
    intro call hcall
    rw [hstage] at hcall
    cases hcall

/-- A step of the forwarder within the pass over its frame. -/
theorem Released.advance (h : Released p me s) (hf : Forwarded p me out s s')
    (hlog : s'.log = s.log) (hsome : s.arrived[s.log.length]? ≠ none)
    (hjob : ∀ src f, s.arrived[s.log.length]? = some ⟨some src, f⟩ → OwnJob f s'.forwarder) :
    Released p me s' := by
  obtain ⟨hop, hsenders, -, -, harrived, -⟩ := forwarded_frame hf
  refine ⟨hop.key ▸ h.key, hop.iv ▸ h.iv, ?_, hsenders ▸ h.senders, harrived ▸ h.built, ?_, ?_, ?_⟩
  · rw [hlog, harrived]
    exact h.log
  · rw [hlog, harrived]
    exact hjob
  · rw [hlog, harrived]
    exact fun hnone => absurd hnone hsome
  · intro e he
    refine (h.pledged e he).imp (forwarded_uncleared hf e he) ?_
    unfold Pledged
    rw [hlog, harrived, hsenders]
    exact id

/-- The end of a pass: that of an own frame has set the events. -/
theorem Released.finished {stop : Option Stop} (h : Released p me s) (hf : Forwarded p me out s s')
    (hlog : s'.log = s.log ++ [stop]) (hfwd : s'.forwarder = .idle ∨ s'.forwarder = .closed)
    (hsome : s.arrived[s.log.length]? ≠ none)
    (hset : ∀ src f, s.arrived[s.log.length]? = some ⟨some src, f⟩ →
      ∀ e ∈ sendingEvents, Agent.isSet s'.agent e = true) : Released p me s' := by
  obtain ⟨hop, hsenders, -, -, harrived, -⟩ := forwarded_frame hf
  have hlen : s'.log.length = s.log.length + 1 := by
    rw [hlog, List.length_append, List.length_singleton]
  refine ⟨hop.key ▸ h.key, hop.iv ▸ h.iv, ?_, hsenders ▸ h.senders, harrived ▸ h.built, ?_,
    fun _ => hfwd, ?_⟩
  · rw [hlen, harrived]
    rw [Ne, List.getElem?_eq_none_iff] at hsome
    omega
  · intro src f _
    rcases hfwd with hidle | hclosed
    · rw [hidle]
      trivial
    · rw [hclosed]
      trivial
  · intro e he
    rcases h.pledged e he with hs | ⟨t, call, hcall, hevent⟩ | ⟨i, src, f, hi, hfr⟩
    · exact Or.inl (forwarded_uncleared hf e he hs)
    · exact Or.inr (Or.inl ⟨t, call, hsenders ▸ hcall, hevent⟩)
    · rcases Nat.eq_or_lt_of_le hi with rfl | hlt
      · exact Or.inl (hset src f hfr e he)
      · exact Or.inr (Or.inr ⟨i, src, f, hlen ▸ hlt, harrived ▸ hfr⟩)

theorem finish_stage (s : Sys) (stop : Option Stop) :
    (s.finish stop).forwarder = .idle ∨ (s.finish stop).forwarder = .closed := by
  unfold Sys.finish
  dsimp only
  split
  · exact Or.inr rfl
  · exact Or.inl rfl

/-- An own frame whose last hop is in the table with usable keys is decoded, or given up
with both events set. -/
theorem built_decodes {lasthop : String} {key iv : Bytes} {f₀ f : Frame} {entry : Neighbor}
    (h : Built p me lasthop key iv f₀) (hf : Counted f₀ f)
    (hlook : a.globalNeighborList.lookup lasthop = some entry)
    (haes : aesAccepts entry.encryptionKey entry.encryptionIV = true) :
    (∃ plain, firstDecode p me a false f =
        .decoded ⟨lasthop, entry.encryptionKey, entry.encryptionIV, plain⟩) ∨
      firstDecode p me a false f = .stop (Agent.releaseSenders a) .ownUndecodable := by
  obtain ⟨hname, -, id, ttl, msg_type, sub_type, nodeID, plain, -, rfl⟩ := h
  obtain ⟨ttl', rfl⟩ := hf
  have hver : verificationKey me lasthop entry = some me.rsaKey.publickey := by
    rw [verificationKey, if_neg]
    rintro ⟨hhost, hold⟩
    exact hname.elim hhost hold
  have hentry : lasthopEntry { initialFrame p me lasthop key iv id ttl msg_type sub_type nodeID
      plain with ttl := ttl' } a.globalNeighborList = .ok (some (lasthop, entry)) := by
    simp [lasthopEntry, initialFrame, field, Except.bind, Json.dictKey, hlook]
  simp only [firstDecode, hentry, hver]
  rw [attempt_readable haes (encodedMsg_encoded rfl) rfl]
  cases p.verify me.rsaKey.publickey _ _ with
  | true => exact Or.inl ⟨_, rfl⟩
  | false => exact Or.inr rfl

theorem own_entry {src : String × Bytes × Bytes} {f f' : Frame} {nb : Bool}
    (hstage : s.forwarder = .decode f' nb) (h : proceeds p s ⟨some src, f⟩ = true) :
    ∃ entry, s.agent.globalNeighborList.lookup src.1 = some entry ∧
      aesAccepts entry.encryptionKey entry.encryptionIV = true := by
  obtain ⟨lasthop, key, iv⟩ := src
  simp only [proceeds, hstage] at h
  split at h
  · cases h
  · rename_i entry hlook
    exact ⟨entry, hlook, h⟩

/-- The steps of the forwarder. -/
theorem Released.forwarded (hme : GoodName me.hostname) (h : Released p me s)
    (hf : Forwarded p me out s s')
    (hcond : ∀ arrival ∈ s.arrived[s.log.length]?, proceeds p s arrival = true) :
    Released p me s' := by
  have hmoved := hf
  -- outside of its first stage the forwarder has a frame
  have hbusy : ∀ {stage : FwdStage}, s.forwarder = stage → stage ≠ .idle → stage ≠ .closed →
      s.arrived[s.log.length]? ≠ none := by
    intro stage hstage hidle hclosed hnone
    rcases h.waiting hnone with hs | hs
    · exact hidle (hstage.symm.trans hs)
    · exact hclosed (hstage.symm.trans hs)
  -- an own frame is in none of the stages of a neighbor's frame
  have hnot : ∀ {stage : FwdStage}, s.forwarder = stage → (∀ f, ¬ OwnJob f stage) →
      ∀ src f, s.arrived[s.log.length]? ≠ some ⟨some src, f⟩ := by
    intro stage hstage hno src f hi
    exact hno f (hstage ▸ h.job src f hi)
  cases hf with
  | drop hstage hnext hfilter =>
    refine h.finished hmoved rfl (finish_stage _ _) (by simp [hnext]) ?_
    rintro ⟨lasthop, key, iv⟩ f hi
    have hproceeds := hcond _ hi
    simp only [proceeds, hstage, decide_eq_true_eq] at hproceeds
    obtain ⟨f', hok, -⟩ := built_filtered (h.built _ _ _ _ _ hi) hproceeds
    rw [hi] at hnext
    obtain rfl := Option.some.inj hnext
    rw [hok] at hfilter
    cases hfilter
  | take hstage hnext hfilter =>
    refine h.advance hmoved rfl (by simp [hnext]) ?_
    rintro ⟨lasthop, key, iv⟩ f hi
    have hproceeds := hcond _ hi
    simp only [proceeds, hstage, decide_eq_true_eq] at hproceeds
    obtain ⟨f', hok, hcount⟩ := built_filtered (h.built _ _ _ _ _ hi) hproceeds
    rw [hi] at hnext
    obtain rfl := Option.some.inj hnext
    rw [hok] at hfilter
    exact Except.ok.inj hfilter ▸ hcount
  | wait hstage =>
    refine h.advance hmoved rfl (hbusy hstage (by simp) (by simp)) ?_
    intro src f hi
    have hjob := h.job src f hi
    rw [hstage] at hjob
    exact hjob
  | markRaises hstage hmark =>
    refine h.finished hmoved rfl (finish_stage _ _) (hbusy hstage (by simp) (by simp)) ?_
    rintro ⟨lasthop, key, iv⟩ f hi
    have hjob := h.job _ f hi
    rw [hstage] at hjob
    rw [built_marked hme (h.built _ _ _ _ _ hi) hjob] at hmark
    cases hmark
  | marked hstage hmark =>
    refine h.advance hmoved rfl (hbusy hstage (by simp) (by simp)) ?_
    rintro ⟨lasthop, key, iv⟩ f hi
    have hjob := h.job _ f hi
    rw [hstage] at hjob
    rw [built_marked hme (h.built _ _ _ _ _ hi) hjob] at hmark
    exact ⟨hjob, (Prod.mk.inj (Except.ok.inj hmark)).1.symm⟩
  | decodeStops hstage hfirst =>
    refine h.finished hmoved rfl (finish_stage _ _) (hbusy hstage (by simp) (by simp)) ?_
    rintro ⟨lasthop, key, iv⟩ f hi
    obtain ⟨hcount, rfl⟩ : Counted f _ ∧ _ = false := hstage ▸ h.job _ f hi
    obtain ⟨entry, hlook, haes⟩ := own_entry hstage (hcond _ hi)
    rcases built_decodes (p := p) (h.built _ _ _ _ _ hi) hcount hlook haes with ⟨plain, hd⟩ | hd
    · rw [hd] at hfirst
      cases hfirst
    · rw [hd] at hfirst
      obtain ⟨rfl, -⟩ := First.stop.inj hfirst
      exact releaseSenders_set s.agent
  | decoded hstage hfirst =>
    refine h.advance hmoved rfl (hbusy hstage (by simp) (by simp)) ?_
    rintro ⟨lasthop, key, iv⟩ f hi
    obtain ⟨hcount, rfl⟩ : Counted f _ ∧ _ = false := hstage ▸ h.job _ f hi
    obtain ⟨entry, hlook, haes⟩ := own_entry hstage (hcond _ hi)
    rcases built_decodes (p := p) (h.built _ _ _ _ _ hi) hcount hlook haes with ⟨plain, hd⟩ | hd
    · rw [hd] at hfirst
      obtain rfl := First.decoded.inj hfirst
      exact ⟨hcount, rfl, haes⟩
    · rw [hd] at hfirst
      cases hfirst
  | retries hstage hfirst =>
    refine h.advance hmoved rfl (hbusy hstage (by simp) (by simp)) ?_
    rintro ⟨lasthop, key, iv⟩ f hi
    obtain ⟨-, rfl⟩ : Counted f _ ∧ _ = false := hstage ▸ h.job _ f hi
    cases firstDecode_retry hfirst
  | retryWait hstage
  | retried hstage
  | againDecoded hstage
  | rescans hstage
  | rescanWait hstage
  | rescanned hstage =>
    refine h.advance hmoved rfl (hbusy hstage (by simp) (by simp)) ?_
    exact fun src f hi => absurd hi (hnot hstage (fun _ hno => hno) src f)
  | againRaises hstage
  | lost hstage
  | scanned hstage =>
    refine h.finished hmoved rfl (finish_stage _ _) (hbusy hstage (by simp) (by simp)) ?_
    exact fun src f hi => absurd hi (hnot hstage (fun _ hno => hno) src f)
  | readKeys hstage =>
    rename_i f' nb d
    refine h.advance hmoved rfl (hbusy hstage (by simp) (by simp)) ?_
    intro src f hi
    obtain ⟨hcount, hnb, haes⟩ : Counted f f' ∧ nb = false ∧ _ := hstage ▸ h.job src f hi
    refine ⟨hcount, hnb, ?_⟩
    unfold publicationKeys
    split
    · exact haes
    · exact aesAccepts_of_length h.key h.iv
  | sent hstage =>
    rename_i f' nb d sendKey sendIv
    refine h.finished hmoved rfl (finish_stage _ _) (hbusy hstage (by simp) (by simp)) ?_
    rintro ⟨lasthop, key, iv⟩ f hi
    obtain ⟨hcount, rfl, haes⟩ : Counted f f' ∧ nb = false ∧ _ := hstage ▸ h.job _ f hi
    obtain ⟨id, -, hrun⟩ := built_sent (h.built _ _ _ _ _ hi) hcount s.agent s.cache d haes
    intro e he
    change Agent.isSet (sendOn p me s.agent s.cache false d sendKey sendIv f').agent e = true
    rw [hrun]
    exact releaseSenders_set s.agent e he

/-- The key thread sends its message only in one of its stages. -/
def Settled (s : Sys) : Prop :=
  s.keyThread = .sending ∨ s.keyThread = .ended ∨ s.senders .changeKeys = .idle ∨
    s.senders .changeKeys = .raised

theorem Settled.congr (h : Settled s) (hkey : s'.keyThread = s.keyThread)
    (hsender : s'.senders .changeKeys = s.senders .changeKeys) : Settled s' := by
  unfold Settled
  rw [hkey, hsender]
  exact h

theorem Settled.moved {t : Tid} {now : ℤ} (h : Settled s) (hm : Moved p me now s t s') :
    Settled s' := by
  by_cases ht : t = .changeKeys
  · subst ht
    -- a thread that moves is neither idle nor ended
    have hbusy : s.senders .changeKeys ≠ .idle ∧ s.senders .changeKeys ≠ .raised := by
      cases hm with
      | wait hstage
      | cleared hstage
      | readKeys hstage
      | raises hstage
      | unknown hstage
      | sent hstage
      | incremented hstage =>
        rw [hstage]
        exact ⟨by simp, by simp⟩
    have hkey : s'.keyThread = s.keyThread := by
      cases hm with
      | _ => rfl
    rcases h with hs | hs | hs | hs
    · exact Or.inl (hkey.trans hs)
    · exact Or.inr (Or.inl (hkey.trans hs))
    · exact absurd hs hbusy.1
    · exact absurd hs hbusy.2
  · have hne : Tid.changeKeys ≠ t := fun hc => ht hc.symm
    cases hm with
    | _ => exact h.congr rfl (Sys.setSender_of_ne s _ hne)

theorem Settled.rotated {x : Rotation} (h : Settled s) (hr : Rotated me x s s') : Settled s' := by
  -- in the other stages the thread that sends is free already
  have hfree : s.keyThread ≠ .sending → s.keyThread ≠ .ended → s'.senders = s.senders →
      Settled s' := by
    intro hsend hend hsenders
    rcases h with hs | hs | hs | hs
    · exact absurd hs hsend
    · exact absurd hs hend
    · exact Or.inr (Or.inr (Or.inl (hsenders ▸ hs)))
    · exact Or.inr (Or.inr (Or.inr (hsenders ▸ hs)))
  cases hr with
  | wakes hstage
  | wait hstage
  | cleared hstage
  | replaced hstage
  | connected hstage
  | validateWait hstage
  | validated hstage
  | removed hstage
  | released hstage => exact hfree (by simp [hstage]) (by simp [hstage]) rfl
  | announced => exact Or.inl rfl
  | fails => exact Or.inr (Or.inl rfl)
  | stamped hstage hidle => exact Or.inr (Or.inr (Or.inl hidle))

/-- The steps of the key thread. -/
theorem Released.rotated {x : Rotation} (h : Released p me s) (hsettled : Settled s)
    (hr : Rotated me x s s') : Released p me s' := by
  have hun := rotated_uncleared hr
  cases hr with
  | wakes
  | wait
  | cleared
  | fails
  | stamped
  | validateWait
  | validated
  | released =>
    exact h.aside h.key h.iv h.senders rfl rfl rfl hun (fun _ _ hcall => hcall)
  | replaced =>
    exact h.aside x.key_length x.iv_length h.senders rfl rfl rfl hun (fun _ _ hcall => hcall)
  | connected =>
    obtain ⟨hkey, hiv, -⟩ := joinOne_rest x.outside me s.agent (ownEntry me x.now s.agent)
    exact h.aside (hkey ▸ h.key) (hiv ▸ h.iv) h.senders rfl rfl rfl hun (fun _ _ hcall => hcall)
  | removed =>
    obtain ⟨hop, -, -⟩ := leaveAll_op x.outside
      (expiredNeighbors me x.now s.agent.globalNeighborList) s.agent
    exact h.aside (hop.key ▸ h.key) (hop.iv ▸ h.iv) h.senders rfl rfl rfl hun
      (fun _ _ hcall => hcall)
  | announced hstage =>
    rename_i key_old iv_old
    have hfit : Fit me (.await (.sendCtrlToNeighbors x.kcm "kcm" key_old iv_old broadcast)
        (Call.waits (.sendCtrlToNeighbors x.kcm "kcm" key_old iv_old broadcast))) := by
      change (2 : ℤ) ≤ 3
      omega
    refine h.aside h.key h.iv (setSender_fit h.senders hfit) rfl rfl rfl hun
      (setSender_cleared ?_)
    intro call hcall
    rcases hsettled with hs | hs | hs | hs
    · rw [hstage] at hs
      cases hs
    · rw [hstage] at hs
      cases hs
    · rw [hs] at hcall
      cases hcall
    · rw [hs] at hcall
      cases hcall

/-- A thread that starts a call had none. -/
theorem cleared_of_free {t : Tid} (h : s.free t = true) :
    Sender.cleared? (s.senders t) = none := by
  unfold Sys.free at h
  split at h
  · rename_i hidle
    rw [hidle]
    rfl
  · rename_i hraised
    rw [hraised]
    rfl
  · cases h

/-- One step of the agent's threads. -/
theorem Released.step {act : Action} (hme : GoodName me.hostname)
    (h : Released p me s ∧ Settled s) (hcond : Releasing p s act)
    (hstep : AgentThreads.step p me s act = some s') : Released p me s' ∧ Settled s' := by
  obtain ⟨h, hsettled⟩ := h
  cases act with
  | call t call =>
    obtain ⟨hfree, hcalls, rfl⟩ := call_of_step hstep
    have hcleared : ∀ call', Sender.cleared? (s.senders t) = some call' →
        Sender.cleared? (.await call (Call.waits call)) = some call' := by
      intro call' hcall
      rw [cleared_of_free hfree] at hcall
      cases hcall
    refine ⟨h.aside h.key h.iv (setSender_fit h.senders hcond) rfl rfl rfl (.refl _)
      (setSender_cleared hcleared), ?_⟩
    have hne : Tid.changeKeys ≠ t := by
      rintro rfl
      cases call <;> cases hcalls
    exact hsettled.congr rfl (Sys.setSender_of_ne s _ hne)
  | sender t now =>
    have hm := moved_of_step hstep
    exact ⟨h.moved hm hcond, hsettled.moved hm⟩
  | changeKeys x =>
    have hr := rotated_of_step hstep
    exact ⟨h.rotated hsettled hr, hsettled.rotated hr⟩
  | forwarder out =>
    have hf := forwarded_of_step hstep
    obtain ⟨-, hsenders, hkey, -⟩ := forwarded_frame hf
    exact ⟨h.forwarded hme hf hcond, hsettled.congr hkey (hsenders ▸ rfl)⟩
  | receive =>
    rcases receive_cases hstep with ⟨g, rest, -, -, rfl⟩ | ⟨g, b, stage, -, -, rfl, ha⟩
    · exact ⟨h.aside h.key h.iv h.senders rfl rfl rfl (.refl _) (fun _ _ hcall => hcall), hsettled⟩
    · refine ⟨?_, hsettled⟩
      rcases ha with ⟨-, rfl, -⟩ | ⟨-, rfl, -⟩
      · exact h.aside h.key h.iv h.senders rfl rfl rfl (.of_same rfl rfl) (fun _ _ hcall => hcall)
      · exact h.aside h.key h.iv h.senders rfl rfl rfl (.refl _) (fun _ _ hcall => hcall)
  | arrive f =>
    obtain rfl := Option.some.inj hstep
    refine ⟨h.arrive h.senders rfl rfl rfl rfl ?_ ?_, hsettled⟩
    · rintro lasthop key iv ⟨⟩
    · exact fun e _ t call hcall hevent => Or.inl ⟨t, call, hcall, hevent⟩
  | other b =>
    obtain ⟨hkept, rfl⟩ := other_of_step hstep
    refine ⟨h.aside (hkept.1 ▸ h.key) (hkept.2.1 ▸ h.iv) h.senders rfl rfl rfl ?_
      (fun _ _ hcall => hcall), hsettled⟩
    exact fun e he hset => (hcond e he).trans hset

end Steps

/-- The gates of the senders, over any sequence of calls of any threads and any
interleaving with the forwarder and the key rotation: if no step leaves on a path
that forgets the events, both are set whenever no thread is between the clearing
of its event and its sending and the forwarder has consumed every own frame. -/
theorem sender_gates_restored (hme : GoodName me.hostname) (hstart : Started me s₀)
    (h : Reach (step p me) (Releasing p) s₀ s)
    (hsent : ∀ t, Sender.cleared? (s.senders t) = none)
    (hconsumed : ∀ (i : ℕ) src f, s.arrived[i]? = some ⟨some src, f⟩ → i < s.log.length) :
    s.agent.gates.sendingUserSpaceMessageEvent = true ∧
      s.agent.gates.sendingUserCtrlMessageEvent = true := by
  have hsettled : Settled s₀ := Or.inr (Or.inr (Or.inl (by rw [hstart.senders])))
  have hinv : Released p me s ∧ Settled s := h.inv ⟨.start hstart, hsettled⟩
    (fun _ _ _ hs hcond hstep => Released.step hme hs hcond hstep)
  have hset : ∀ e ∈ sendingEvents, Agent.isSet s.agent e = true := by
    intro e he
    rcases hinv.1.pledged e he with hs | ⟨t, call, hcall, -⟩ | ⟨i, src, f, hi, hf⟩
    · exact hs
    · rw [hsent t] at hcall
      cases hcall
    · have := hconsumed i src f hf
      omega
  exact ⟨hset .userSpace (by decide), hset .userCtrl (by decide)⟩

/-- A broadcast, sent and forwarded, with the neighbor's frame of the same time. -/
def sendSchedule : List Action :=
  .call (.app 0) (.sendToNeighbors [104, 105] 1) :: List.replicate 6 (.sender (.app 0) 0) ++
    .arrive sampleFrame :: List.replicate 16 (.forwarder quietOutside)

theorem sender_gates_restored_linked :
    ∃ s, Reach (step listPlatform sampleIdentity) (Releasing listPlatform) linkedSys s ∧
      s.log = [none, none] ∧ s.agent.gates.sendingUserSpaceMessageEvent = true ∧
      s.agent.gates.sendingUserCtrlMessageEvent = true := by
  have hrun : ∃ s, follow (step listPlatform sampleIdentity) (Releasing listPlatform) linkedSys
      sendSchedule = some s ∧ s.log = [none, none] ∧ s.arrived.length = 2 ∧
        ∀ t, Sender.cleared? (s.senders t) = none := by
    refine ⟨_, rfl, rfl, rfl, fun t => ?_⟩
    match t with
    | .app 0 => rfl
    | .app (n + 1) => rfl
    | .changeKeys => rfl
    | .receiveMessage => rfl
  obtain ⟨s, hs, hlog, harrived, hsent⟩ := hrun
  refine ⟨s, reach_of_follow hs, hlog, sender_gates_restored (by decide) linkedSys_started
    (reach_of_follow hs) hsent ?_⟩
  intro i src f hi
  rw [hlog]
  have := (List.getElem?_eq_some_iff.mp hi).1
  rw [harrived] at this
  exact this

/-- A key request to a neighbor that is no longer in the table. -/
def lostRequest : Call := .sendCtrlToNeighbors [] "ruk" [] [] "10.0.0.9"

/-- The error return of a control message sets the event of data messages, and the one
that it has cleared stays so. -/
theorem lost_request_keeps_gate :
    Started sampleIdentity linkedSys ∧ ∃ s, runAll listPlatform sampleIdentity linkedSys
        (.call (.app 0) lostRequest :: List.replicate 6 (.sender (.app 0) 0)) = some s ∧
      s.senders (.app 0) = .idle ∧ s.arrived.length = 0 ∧
      s.agent.gates.sendingUserCtrlMessageEvent = false := by
  refine ⟨linkedSys_started, ?_⟩
  exact ⟨_, rfl, rfl, rfl, rfl⟩

end Nxwlan.SenderGates
