import Nxwlan.ThreadSteps
import Nxwlan.StepRuns

/-!
From the forwarder to the agent's own receive thread. A neighbor's frame is
published under the keys that the forwarder has read and opened under the keys
that the agent has when the receive thread gets to it; in between the keys may
have been replaced. The event for neighbor messages is cleared when the
forwarder takes up such a frame and is set again when it gives up, or else by
the receive thread once it has opened the frame.
-/
namespace Nxwlan.LocalDelivery

open JsonFrames AgentState Forwarder ForwarderStages Messaging ReceiveLoop AgentThreads ThreadSteps
open PublishedFrames StepRuns
open Base64 (Bytes)

variable {p : Platform} {me : Identity} {out : Outside} {s s' s₀ : Sys} {g : Frame}

/-- From its second stage on the forwarder knows whose frame it has. -/
def Marked (me : Identity) : FwdStage → Prop
  | .decode f nb => nb = foreign me f
  | .retry f _ _ _ => foreign me f = true
  | .again f _ _ => foreign me f = true
  | .keys f nb _ => nb = foreign me f
  | .send f nb _ _ _ => nb = foreign me f
  | _ => True

theorem foreign_of_mark {f : Frame} {nb : Bool} {a b : Agent} (h : mark me f a = .ok (nb, b)) :
    nb = foreign me f := by
  obtain ⟨-, -, -, host, hhost, rfl⟩ := mark_ok h
  simp [foreign, hhost]

theorem firstDecode_retry {a : Agent} {nb : Bool} {f : Frame} {name : String} {entry : Neighbor}
    (h : firstDecode p me a nb f = .retry name entry) : nb = true := by
  unfold firstDecode at h
  split at h
  · cases h
  · cases h
  · split at h
    · cases h
    · cases h
    · split at h
      · assumption
      · cases h

theorem marked_finish (s : Sys) (stop : Option Stop) : Marked me (s.finish stop).forwarder := by
  unfold Sys.finish
  dsimp only
  split
  · trivial
  · trivial

theorem marked_forwarded (h : Forwarded p me out s s') (hm : Marked me s.forwarder) :
    Marked me s'.forwarder := by
  cases h with
  | drop
  | markRaises
  | decodeStops
  | againRaises
  | lost
  | scanned
  | sent => exact marked_finish _ _
  | take
  | wait
  | rescans
  | rescanWait
  | rescanned => trivial
  | marked hstage hmark => exact foreign_of_mark hmark
  | decoded hstage
  | retryWait hstage
  | retried hstage
  | readKeys hstage =>
    rw [hstage] at hm
    exact hm
  | retries hstage hfirst =>
    rw [hstage] at hm
    exact hm.symm.trans (firstDecode_retry hfirst)
  | againDecoded hstage =>
    rw [hstage] at hm
    exact hm.symm

/-- The frame opens under the agent's keys, with a good signature of its own. -/
def Opens (p : Platform) (me : Identity) (a : Agent) (g : Frame) : Prop :=
  ∃ plain, attempt p a.key a.iv (some me.rsaKey.publickey) g = .ok (plain, true)

theorem receiveMessage_own {a : Agent} (h : foreign me g = false) :
    receiveMessage p me a g = .own := by
  cases hhost : g.host with
  | none => simp [foreign, hhost] at h
  | some host =>
    simp only [foreign, hhost, Option.any_some, Bool.not_eq_false'] at h
    simp [receiveMessage, hhost, field, h]

theorem receiveMessage_opens {a : Agent} (h : Opens p me a g) :
    receiveMessage p me a g ≠ .badSignature := by
  obtain ⟨plain, hplain⟩ := h
  unfold receiveMessage
  cases field g.host with
  | error e => simp
  | ok host =>
    dsimp only
    split
    · simp
    · simp only [hplain]
      split
      · simp
      · simp
      · simp
      · split
        · simp
        · simp

theorem mem_pending : g ∈ s.pending ↔ g ∈ s.toReceive ∨ s.receiver = .check g := by
  unfold Sys.pending
  rw [List.mem_append]
  cases s.receiver with
  | idle => simp [RcvStage.inHand]
  | check g' => simp [RcvStage.inHand, eq_comm]
  | ended => simp [RcvStage.inHand]

/-- A neighbor's frame is about to be sent on, under keys that have been read. -/
def sendsNeighbor : FwdStage → Bool
  | .send _ nb _ _ _ => nb
  | _ => false

/-- The decoded text of a neighbor's frame whose keys are read next. -/
def toEncode : FwdStage → Option Decoded
  | .keys _ true d => some d
  | _ => none

/-- The keys are replaced only while no neighbor's frame is between the reading of
the keys in the forwarder and its reception, and no neighbor's frame comes under
the name of the old keys. -/
def KeysHeld (me : Identity) (s : Sys) : Action → Prop
  | .changeKeys _ => s.keyThread = .replace →
      (∀ g ∈ s.pending, foreign me g = false) ∧ sendsNeighbor s.forwarder = false
  | .forwarder _ => ∀ d ∈ toEncode s.forwarder, d.lasthop ≠ "old_keys"
  | _ => True

instance (me : Identity) (s : Sys) : (act : Action) → Decidable (KeysHeld me s act)
  | .call _ _ => inferInstanceAs (Decidable True)
  | .sender _ _ => inferInstanceAs (Decidable True)
  | .changeKeys _ => inferInstanceAs (Decidable (_ → _ ∧ _))
  | .forwarder _ => inferInstanceAs (Decidable (∀ d ∈ toEncode s.forwarder, _))
  | .receive => inferInstanceAs (Decidable True)
  | .arrive _ => inferInstanceAs (Decidable True)
  | .other _ => inferInstanceAs (Decidable True)

/-- A neighbor's frame in the forwarder's last stage is to be sent under the agent's
keys, and every one that is pending opens under them. -/
structure Deliverable (p : Platform) (me : Identity) (s : Sys) : Prop where
  marked : Marked me s.forwarder
  sending : ∀ f d sendKey sendIv, s.forwarder = .send f true d sendKey sendIv →
    sendKey = s.agent.key ∧ sendIv = s.agent.iv
  pending : ∀ g ∈ s.pending, foreign me g = true → Opens p me s.agent g
  received : ∀ entry ∈ s.received, entry.2 ≠ .badSignature

theorem Opens.congr {a b : Agent} (h : Opens p me a g) (hkey : b.key = a.key) (hiv : b.iv = a.iv) :
    Opens p me b g := by
  unfold Opens
  rw [hkey, hiv]
  exact h

theorem pending_congr (hqueue : s'.toReceive = s.toReceive) (hrcv : s'.receiver = s.receiver) :
    s'.pending = s.pending := by
  unfold Sys.pending
  rw [hqueue, hrcv]

theorem Deliverable.quiet (h : Deliverable p me s) (hq : Quiet s s') : Deliverable p me s' := by
  refine ⟨hq.forwarder ▸ h.marked, ?_, ?_, hq.received ▸ h.received⟩
  · rw [hq.forwarder, hq.key, hq.iv]
    exact h.sending
  · intro g hg hfor
    exact (h.pending g (pending_congr hq.toReceive hq.receiver ▸ hg) hfor).congr hq.key hq.iv

/-- A frame that has just been published under the agent's keys opens under them. -/
theorem opens_republished (hp : p.Lawful) {a : Agent} (plain : Bytes) (f : Frame)
    (haes : aesAccepts a.key a.iv = true) :
    Opens p me a (republished p me a.key a.iv plain f) := by
  refine ⟨plain, ?_⟩
  rw [attempt_readable haes (encodedMsg_encoded rfl) rfl, hp.decrypt_encrypt, hp.verify_sign]

/-- A step of the forwarder that publishes nothing. -/
theorem Deliverable.silent (h : Deliverable p me s) (hf : Forwarded p me out s s')
    (hqueue : s'.toReceive = s.toReceive)
    (hsend : ∀ f d sendKey sendIv, s'.forwarder = .send f true d sendKey sendIv →
      sendKey = s.agent.key ∧ sendIv = s.agent.iv) : Deliverable p me s' := by
  obtain ⟨hop, -, -, hrcv, -, hlog⟩ := forwarded_frame hf
  refine ⟨marked_forwarded hf h.marked, ?_, ?_, hlog ▸ h.received⟩
  · rw [hop.key, hop.iv]
    exact hsend
  · intro g hg hfor
    exact (h.pending g (pending_congr hqueue hrcv ▸ hg) hfor).congr hop.key hop.iv

theorem finish_not_send (s : Sys) (stop : Option Stop) (f : Frame) (nb : Bool) (d : Decoded)
    (sendKey sendIv : Bytes) : (s.finish stop).forwarder ≠ .send f nb d sendKey sendIv := by
  unfold Sys.finish
  dsimp only
  split
  · simp
  · simp

theorem Deliverable.finish {r : Sys} {stop : Option Stop} (h : Deliverable p me s)
    (hf : Forwarded p me out s (r.finish stop)) (hqueue : r.toReceive = s.toReceive) :
    Deliverable p me (r.finish stop) :=
  h.silent hf hqueue (fun f d _ _ hstage => absurd hstage (finish_not_send r stop f true d _ _))

/-- What the last stage adds to the queue: nothing, or the re-encoded frame, under keys
that AES takes. -/
theorem sendOn_published {a : Agent} {cache : FwdCache} {nb : Bool} {d : Decoded}
    {sendKey sendIv : Bytes} {f : Frame}
    (h : g ∈ (sendOn p me a cache nb d sendKey sendIv f).published.toList) :
    g = republished p me sendKey sendIv d.plain f ∧ aesAccepts sendKey sendIv = true := by
  rcases sendOn_cases p me a cache nb d sendKey sendIv f with
    ⟨e, hrun⟩ | ⟨b, -, haes, ⟨e, -, hrun⟩ | ⟨cache', -, hrun⟩⟩
  · rw [hrun] at h
    cases h
  · rw [hrun] at h
    exact ⟨by simpa using h, haes⟩
  · rw [hrun] at h
    exact ⟨by simpa using h, haes⟩

theorem Deliverable.forwarded (hp : p.Lawful) (h : Deliverable p me s)
    (hf : Forwarded p me out s s')
    (hcond : ∀ d ∈ toEncode s.forwarder, d.lasthop ≠ "old_keys") : Deliverable p me s' := by
  have hmoved := hf
  cases hf with
  | drop
  | markRaises
  | decodeStops
  | againRaises
  | lost
  | scanned => exact h.finish hmoved rfl
  | take
  | wait
  | marked
  | decoded
  | retries
  | retryWait
  | retried
  | againDecoded
  | rescans
  | rescanWait
  | rescanned => exact h.silent hmoved rfl (fun _ _ _ _ hstage => (by cases hstage))
  | readKeys hstage =>
    refine h.silent hmoved rfl ?_
    rintro f d sendKey sendIv hsend
    simp only [FwdStage.send.injEq] at hsend
    obtain ⟨rfl, rfl, rfl, rfl, rfl⟩ := hsend
    rw [publicationKeys, if_neg (hcond _ (by rw [hstage]; rfl))]
    exact ⟨rfl, rfl⟩
  | sent hstage =>
    rename_i f nb d sendKey sendIv
    obtain ⟨hop, -, -, hrcv, -, hlog⟩ := forwarded_frame hmoved
    refine ⟨marked_finish _ _, ?_, ?_, hlog ▸ h.received⟩
    · intro f d k i hsend
      exact absurd hsend (finish_not_send _ _ f true d k i)
    intro g hg hfor
    refine Opens.congr ?_ hop.key hop.iv
    have hmarked := h.marked
    rw [hstage] at hmarked
    rcases mem_pending.mp hg with hg | hg
    · rcases List.mem_append.mp hg with hg | hg
      · exact h.pending g (mem_pending.mpr (Or.inl hg)) hfor
      · -- the frame that is published in this step
        obtain ⟨rfl, haes⟩ := sendOn_published hg
        have hnb : nb = true := hmarked.trans hfor
        subst hnb
        obtain ⟨rfl, rfl⟩ := h.sending _ _ _ _ hstage
        exact opens_republished hp d.plain f haes
    · exact h.pending g (mem_pending.mpr (Or.inr hg)) hfor

theorem Deliverable.receive (h : Deliverable p me s) (hr : receiveStep p me s = some s') :
    Deliverable p me s' := by
  rcases receive_cases hr with ⟨g, rest, hstage, hqueue, rfl⟩ | ⟨g, a, stage, hstage, hend, rfl, ha⟩
  · refine ⟨h.marked, h.sending, ?_, h.received⟩
    intro g' hg' hfor
    rcases mem_pending.mp hg' with hg' | hg'
    · exact h.pending g' (mem_pending.mpr (Or.inl (hqueue ▸ List.mem_cons_of_mem g hg'))) hfor
    · obtain rfl := RcvStage.check.inj hg'
      exact h.pending g (mem_pending.mpr (Or.inl (hqueue ▸ List.mem_cons_self))) hfor
  · have hkeys : a.key = s.agent.key ∧ a.iv = s.agent.iv := by
      rcases ha with ⟨-, rfl, -⟩ | ⟨-, rfl, -⟩
      · exact ⟨rfl, rfl⟩
      · exact ⟨rfl, rfl⟩
    have hgood : receiveMessage p me s.agent g ≠ .badSignature := by
      cases hfor : foreign me g with
      | false => simp [receiveMessage_own hfor]
      | true => exact receiveMessage_opens (h.pending g (mem_pending.mpr (Or.inr hstage)) hfor)
    refine ⟨h.marked, ?_, ?_, ?_⟩
    · dsimp only
      rw [hkeys.1, hkeys.2]
      exact h.sending
    · intro g' hg' hfor
      rcases mem_pending.mp hg' with hg' | hg'
      · exact (h.pending g' (mem_pending.mpr (Or.inl hg')) hfor).congr hkeys.1 hkeys.2
      · rcases hend with rfl | rfl
        · cases hg'
        · cases hg'
    · intro entry hentry
      rcases List.mem_append.mp hentry with hentry | hentry
      · exact h.received entry hentry
      · obtain rfl := List.mem_singleton.mp hentry
        exact hgood

theorem Deliverable.step (hp : p.Lawful) {act : Action} (h : Deliverable p me s)
    (hcond : KeysHeld me s act) (hstep : AgentThreads.step p me s act = some s') :
    Deliverable p me s' := by
  rcases step_cases hstep with
    ⟨out, rfl, hf⟩ | ⟨rfl, hr⟩ | ⟨x, rfl, hstage, rfl⟩ | hq
  · exact h.forwarded hp hf hcond
  · exact h.receive hr
  · obtain ⟨hqueue, hfwd⟩ := hcond hstage
    refine ⟨h.marked, ?_, ?_, h.received⟩
    · intro f d sendKey sendIv hsend
      replace hsend : s.forwarder = .send f true d sendKey sendIv := hsend
      rw [hsend] at hfwd
      cases hfwd
    · intro g hg hfor
      rw [hqueue g hg] at hfor
      cases hfor
  · exact h.quiet hq

theorem Deliverable.start (hstart : Started me s₀) : Deliverable p me s₀ := by
  refine ⟨?_, ?_, ?_, ?_⟩
  · rw [hstart.forwarder]
    trivial
  · rw [hstart.forwarder]
    intro f d sendKey sendIv hsend
    cases hsend
  · intro g hg
    rw [Sys.pending, hstart.toReceive, hstart.receiver] at hg
    cases hg
  · rw [hstart.received]
    intro entry hentry
    cases hentry

/-- Local delivery over any interleaving: if the keys are replaced only while no
neighbor's frame is under way to the receive thread, every such frame that has
been published opens under the agent's keys, and none is refused. -/
theorem delivery_survives_rotation (hp : p.Lawful) (hstart : Started me s₀)
    (h : Reach (step p me) (KeysHeld me) s₀ s) :
    (∀ g ∈ s.pending, foreign me g = true →
      ∃ plain, attempt p s.agent.key s.agent.iv (some me.rsaKey.publickey) g = .ok (plain, true)) ∧
    ∀ entry ∈ s.received, entry.2 ≠ .badSignature := by
  have hinv : Deliverable p me s :=
    h.inv (.start hstart) (fun _ _ _ hs hcond hstep => hs.step hp hcond hstep)
  exact ⟨hinv.pending, hinv.received⟩

/-- An agent and its one neighbor, both in the table, after start-up. -/
def linkedSys : Sys where
  agent := { sampleAgent with
    globalNeighborList := sampleAgent.globalNeighborList.insert "10.0.0.1"
      { ipAddress := "10.0.0.1", encryptionKey := sampleKey, encryptionIV := sampleKey,
        timestampLastKCM := 0 } }

theorem linkedSys_started : Started sampleIdentity linkedSys where
  gates := rfl
  cache := rfl
  senders := rfl
  keyThread := rfl
  forwarder := rfl
  receiver := rfl
  arrived := rfl
  log := rfl
  toReceive := rfl
  received := rfl
  key := rfl
  iv := rfl
  own := ⟨_, rfl, rfl, rfl⟩
  frontend := by decide

def sampleRotation : Rotation where
  now := 0
  key := List.replicate 16 9
  iv := List.replicate 16 9
  key_length := rfl
  iv_length := rfl
  kcm := [49]
  outside := quietOutside

/-- The neighbor's frame arrives and is forwarded. -/
def forwardSchedule : List Action :=
  .arrive sampleFrame :: List.replicate 8 (.forwarder quietOutside)

/-- The key thread goes as far as the replacement of the keys. -/
def replaceSchedule : List Action := List.replicate 6 (.changeKeys sampleRotation)

/-- A neighbor's frame that is published before the keys are replaced and received
after that is refused. -/
theorem rotation_refuses_frame :
    Started sampleIdentity linkedSys ∧ ∃ s g, runAll listPlatform sampleIdentity linkedSys
        (forwardSchedule ++ replaceSchedule ++ [.receive, .receive]) = some s ∧
      foreign sampleIdentity g = true ∧ (g, Received.badSignature) ∈ s.received := by
  refine ⟨linkedSys_started, ?_⟩
  have hrun : (runAll listPlatform sampleIdentity linkedSys
      (forwardSchedule ++ replaceSchedule ++ [.receive, .receive])).any (fun s =>
        s.received.any (fun entry => foreign sampleIdentity entry.1 &&
          entry.2 == .badSignature)) = true := by
    decide
  obtain ⟨s, hs, hany⟩ := (Option.any_eq_true _ _).mp hrun
  obtain ⟨⟨g, r⟩, hmem, hbad⟩ := List.any_eq_true.mp hany
  simp only [Bool.and_eq_true, beq_iff_eq] at hbad
  exact ⟨s, g, hs, hbad.1, hbad.2 ▸ hmem⟩

/-- A run that meets the condition: the frame is received before the keys change. -/
theorem delivery_survives_rotation_linked :
    ∃ s, Reach (step listPlatform sampleIdentity) (KeysHeld sampleIdentity) linkedSys s ∧
      s.pending.length = 1 ∧ ∀ g ∈ s.pending, foreign sampleIdentity g = true →
        ∃ plain, attempt listPlatform s.agent.key s.agent.iv
          (some sampleIdentity.rsaKey.publickey) g = .ok (plain, true) := by
  have hrun : (follow (step listPlatform sampleIdentity) (KeysHeld sampleIdentity) linkedSys
      (forwardSchedule ++ [.receive])).any (fun s => s.pending.length = 1) = true := by
    decide
  obtain ⟨s, hs, hlen⟩ := (Option.any_eq_true _ _).mp hrun
  exact ⟨s, reach_of_follow hs, of_decide_eq_true hlen, (delivery_survives_rotation
    listPlatform_lawful linkedSys_started (reach_of_follow hs)).1⟩

/-- The frame opens under the agent's keys with a good signature of its own, and then
its inner layer opens, if it is a unicast to the agent. -/
def layersOpen (p : Platform) (me : Identity) (a : Agent) (g : Frame) : Bool :=
  match attempt p a.key a.iv (some me.rsaKey.publickey) g with
  | .ok (plain, true) =>
      match unwrapUnicast p me a g plain with
      | .ok (some _) => true
      | _ => false
  | _ => false

/-- Both layers of the frame open, and all that is read on the way is there: the type of the
message, and what kind of control message it is if it is one to the agent. -/
def Opened (p : Platform) (me : Identity) (a : Agent) (g : Frame) : Prop :=
  g.host.isSome = true ∧ layersOpen p me a g = true ∧ g.msg_type.isSome = true ∧
    (toMe me g = true ∧ g.msg_type.any (fun msg_type => msg_type.isStr "ctrl") = true →
      g.sub_type.isSome = true)

instance (p : Platform) (me : Identity) (a : Agent) (g : Frame) : Decidable (Opened p me a g) :=
  inferInstanceAs (Decidable (_ ∧ _ ∧ _ ∧ (_ ∧ _ → _)))

theorem accepted_of_opened {a : Agent} (h : Opened p me a g) (hfor : foreign me g = true) :
    Accepted p me a g := by
  obtain ⟨hhost, hlayers, htype, hsub⟩ := h
  obtain ⟨host, hhost⟩ := Option.isSome_iff_exists.mp hhost
  obtain ⟨msg_type, hmt⟩ := Option.isSome_iff_exists.mp htype
  have hown : host.isStr me.hostname = false := by
    simpa [foreign, hhost] using hfor
  unfold layersOpen at hlayers
  split at hlayers
  · rename_i plain hplain
    split at hlayers
    · rename_i text htext
      have hrec : receiveMessage p me a g =
          if msg_type.isStr "ctrl" then .ctrl text else .callback text := by
        simp only [receiveMessage, hhost, field, hown, hplain, htext, hmt]
        rfl
      unfold Accepted
      rw [hrec]
      split
      · rename_i hctrl
        refine Or.inr ⟨⟨text, rfl⟩, ?_⟩
        cases hto : toMe me g with
        | false => rfl
        | true => simpa using hsub ⟨hto, by rw [hmt]; exact hctrl⟩
      · exact Or.inl ⟨text, rfl⟩
    · cases hlayers
  · cases hlayers

/-- A neighbor's frame whose last hop is looked up next. -/
def toDecode : FwdStage → Option Frame
  | .decode f true => some f
  | _ => none

/-- The forwarder has a neighbor's frame for which it has cleared the event, or has
been closed. -/
def Holding : FwdStage → Prop
  | .decode _ nb => nb = true
  | .again _ _ _ => True
  | .keys _ nb _ => nb = true
  | .send _ nb _ _ _ => nb = true
  | .closed => True
  | _ => False

instance : DecidablePred Holding := fun stage => by
  unfold Holding
  split <;> infer_instance

/-- The last hop of a neighbor's frame is in the table when the forwarder looks it up,
and the receive thread can open every neighbor's frame that it takes; but a frame may be lost
while the event is set, or while another neighbor's frame is with one of the two threads or on
its way between them. -/
def Restoring (p : Platform) (me : Identity) (s : Sys) : Action → Prop
  | .forwarder _ => ∀ f ∈ toDecode s.forwarder,
      lasthopEntry f s.agent.globalNeighborList ≠ .ok none ∨
        s.agent.gates.processingNeighborMessageEvent = true ∨ ∃ g ∈ s.pending, foreign me g = true
  | .receive => ∀ g ∈ s.receiver.inHand, foreign me g = true → Opened p me s.agent g ∨
      s.agent.gates.processingNeighborMessageEvent = true ∨ Holding s.forwarder ∨
        ∃ g' ∈ s.toReceive, foreign me g' = true
  | _ => True

instance (p : Platform) (me : Identity) (s : Sys) :
    (act : Action) → Decidable (Restoring p me s act)
  | .call _ _ => inferInstanceAs (Decidable True)
  | .sender _ _ => inferInstanceAs (Decidable True)
  | .changeKeys _ => inferInstanceAs (Decidable True)
  | .forwarder _ => inferInstanceAs (Decidable (∀ f ∈ toDecode s.forwarder, _ ≠ _ ∨ _ ∨ _))
  | .receive => inferInstanceAs (Decidable (∀ g ∈ s.receiver.inHand, _ → _ ∨ _ ∨ _ ∨ _))
  | .arrive _ => inferInstanceAs (Decidable True)
  | .other _ => inferInstanceAs (Decidable True)

/-- While the event is cleared, a neighbor's frame is with the forwarder or is
pending. -/
structure Gated (me : Identity) (s : Sys) : Prop where
  marked : Marked me s.forwarder
  cleared : s.agent.gates.processingNeighborMessageEvent = true ∨ Holding s.forwarder ∨
    ∃ g ∈ s.pending, foreign me g = true

theorem Gated.quiet (h : Gated me s) (hq : Quiet s s') : Gated me s' := by
  refine ⟨hq.forwarder ▸ h.marked, ?_⟩
  rw [hq.neighborMessage, hq.forwarder]
  refine h.cleared.imp_right (Or.imp_right ?_)
  rintro ⟨g, hg, hfor⟩
  exact ⟨g, (pending_congr hq.toReceive hq.receiver).symm ▸ hg, hfor⟩

/-- A step of the forwarder that publishes nothing and leaves the event to the frame
it has, or sets it. -/
theorem Gated.silent (h : Gated me s) (hf : Forwarded p me out s s')
    (hqueue : s'.toReceive = s.toReceive)
    (hev : s'.agent.gates.processingNeighborMessageEvent = true ∨ Holding s'.forwarder ∨
      (s'.agent.gates.processingNeighborMessageEvent =
        s.agent.gates.processingNeighborMessageEvent ∧ ¬ Holding s.forwarder)) : Gated me s' := by
  obtain ⟨-, -, -, hrcv, -, -⟩ := forwarded_frame hf
  refine ⟨marked_forwarded hf h.marked, ?_⟩
  rcases hev with hset | hhold | ⟨hsame, hnot⟩
  · exact Or.inl hset
  · exact Or.inr (Or.inl hhold)
  · rcases h.cleared with hset | hhold | ⟨g, hg, hfor⟩
    · exact Or.inl (hsame.trans hset)
    · exact absurd hhold hnot
    · exact Or.inr (Or.inr ⟨g, (pending_congr hqueue hrcv).symm ▸ hg, hfor⟩)

theorem Gated.forwarded (h : Gated me s) (hf : Forwarded p me out s s')
    (hcond : ∀ f ∈ toDecode s.forwarder,
      lasthopEntry f s.agent.globalNeighborList ≠ .ok none ∨
        s.agent.gates.processingNeighborMessageEvent = true ∨
          ∃ g ∈ s.pending, foreign me g = true) :
    Gated me s' := by
  have hmoved := hf
  -- a stage without a neighbor's frame leaves the event as it is
  have hkeep : ∀ {stage : FwdStage}, s.forwarder = stage → ¬ Holding stage →
      s'.agent.gates.processingNeighborMessageEvent =
        s.agent.gates.processingNeighborMessageEvent →
      s'.toReceive = s.toReceive → Gated me s' := by
    intro stage hstage hnot hsame hqueue
    exact h.silent hmoved hqueue (Or.inr (Or.inr ⟨hsame, hstage ▸ hnot⟩))
  cases hf with
  | drop hstage
  | take hstage
  | wait hstage
  | markRaises hstage
  | retryWait hstage
  | rescanWait hstage
  | rescanned hstage => exact hkeep hstage id rfl rfl
  | marked hstage hmark =>
    rcases mark_cases hmark with ⟨-, rfl⟩ | ⟨rfl, -⟩
    · exact hkeep hstage id rfl rfl
    · exact h.silent hmoved rfl (Or.inr (Or.inl rfl))
  | decodeStops hstage hfirst =>
    rename_i f nb a stop
    rcases firstDecode_stop hfirst with ⟨rfl, ⟨e, rfl⟩ | ⟨rfl, hnone⟩⟩ | ⟨rfl, rfl, rfl⟩
    · exact h.silent hmoved rfl (Or.inr (Or.inl trivial))
    · cases nb with
      | true =>
        refine ⟨marked_forwarded hmoved h.marked, ?_⟩
        rcases hcond f (by rw [hstage]; rfl) with hknown | hset | ⟨g, hg, hfor⟩
        · exact absurd hnone hknown
        · exact Or.inl hset
        · exact Or.inr (Or.inr ⟨g, hg, hfor⟩)
      | false => exact hkeep hstage (fun hnb => (by cases hnb)) rfl rfl
    · exact hkeep hstage (fun hnb => (by cases hnb)) rfl rfl
  | decoded hstage hfirst =>
    rename_i f nb d
    cases nb with
    | true => exact h.silent hmoved rfl (Or.inr (Or.inl rfl))
    | false => exact hkeep hstage (fun hnb => (by cases hnb)) rfl rfl
  | retries
  | rescans => exact h.silent hmoved rfl (Or.inl rfl)
  | retried
  | againRaises => exact h.silent hmoved rfl (Or.inr (Or.inl trivial))
  | againDecoded => exact h.silent hmoved rfl (Or.inr (Or.inl rfl))
  | lost hstage hloss =>
    rcases (countLoss_stop hloss).2.2 with hset | ⟨e, rfl⟩
    · exact h.silent hmoved rfl (Or.inl hset)
    · exact h.silent hmoved rfl (Or.inr (Or.inl trivial))
  | scanned hstage =>
    exact hkeep hstage id (rescanStep_op out me s.agent _).neighborMessage rfl
  | readKeys hstage =>
    rename_i f nb d
    cases nb with
    | true => exact h.silent hmoved rfl (Or.inr (Or.inl rfl))
    | false => exact hkeep hstage (fun hnb => (by cases hnb)) rfl rfl
  | sent hstage =>
    rename_i f nb d sendKey sendIv
    obtain ⟨-, -, -, hrcv, -, -⟩ := forwarded_frame hmoved
    refine ⟨marked_finish _ _, ?_⟩
    have hmarked := h.marked
    rw [hstage] at hmarked
    have hmsg := (sendOn_op p me s.agent s.cache nb d sendKey sendIv f).neighborMessage
    rcases h.cleared with hset | hhold | ⟨g, hg, hfor⟩
    · exact Or.inl (hmsg.trans hset)
    · -- the frame goes over to the queue, or the forwarder is closed
      rw [hstage] at hhold
      have hnb : nb = true := hhold
      subst hnb
      rcases sendOn_cases p me s.agent s.cache true d sendKey sendIv f with
        ⟨e, hrun⟩ | ⟨b, -, -, ⟨e, -, hrun⟩ | ⟨cache', -, hrun⟩⟩
      · rw [hrun]
        exact Or.inr (Or.inl trivial)
      · rw [hrun]
        exact Or.inr (Or.inl trivial)
      · rw [hrun]
        refine Or.inr (Or.inr ⟨republished p me sendKey sendIv d.plain f,
          mem_pending.mpr (Or.inl ?_), hmarked.symm⟩)
        exact List.mem_append_right _ (List.mem_singleton.mpr rfl)
    · refine Or.inr (Or.inr ⟨g, mem_pending.mpr ?_, hfor⟩)
      exact (mem_pending.mp hg).imp_left (List.mem_append_left _)

theorem Gated.receive (h : Gated me s) (hr : receiveStep p me s = some s')
    (hcond : ∀ g ∈ s.receiver.inHand, foreign me g = true → Opened p me s.agent g ∨
      s.agent.gates.processingNeighborMessageEvent = true ∨ Holding s.forwarder ∨
        ∃ g' ∈ s.toReceive, foreign me g' = true) :
    Gated me s' := by
  rcases receive_cases hr with ⟨g, rest, hstage, hqueue, rfl⟩ | ⟨g, a, stage, hstage, -, rfl, ha⟩
  · refine ⟨h.marked, ?_⟩
    refine h.cleared.imp_right (Or.imp_right ?_)
    rintro ⟨g', hg', hfor⟩
    refine ⟨g', mem_pending.mpr ?_, hfor⟩
    rcases mem_pending.mp hg' with hg' | hg'
    · rw [hqueue] at hg'
      rcases List.mem_cons.mp hg' with rfl | hg'
      · exact Or.inr rfl
      · exact Or.inl hg'
    · rw [hstage] at hg'
      cases hg'
  · cases hfor : foreign me g with
    | true =>
      -- a neighbor's frame is accepted and the event set, or its loss does no harm
      rcases ha with ⟨-, rfl, rfl⟩ | ⟨hnot, rfl, -⟩
      · exact ⟨h.marked, Or.inl rfl⟩
      · refine ⟨h.marked, ?_⟩
        rcases hcond g (by rw [hstage]; exact List.mem_singleton.mpr rfl) hfor with
          hopen | hset | hhold | ⟨g', hg', hfor'⟩
        · exact absurd (accepted_of_opened hopen hfor) hnot
        · exact Or.inl hset
        · exact Or.inr (Or.inl hhold)
        · exact Or.inr (Or.inr ⟨g', mem_pending.mpr (Or.inl hg'), hfor'⟩)
    | false =>
      have hown := receiveMessage_own (p := p) (a := s.agent) hfor
      rcases ha with ⟨hacc, -⟩ | ⟨-, rfl, hidle⟩
      · simp [Accepted, hown] at hacc
      · obtain rfl := hidle hown
        refine ⟨h.marked, ?_⟩
        refine h.cleared.imp_right (Or.imp_right ?_)
        rintro ⟨g', hg', hfor'⟩
        refine ⟨g', mem_pending.mpr (Or.inl ?_), hfor'⟩
        rcases mem_pending.mp hg' with hg' | hg'
        · exact hg'
        · rw [hstage] at hg'
          obtain rfl := RcvStage.check.inj hg'
          rw [hfor] at hfor'
          cases hfor'

theorem Gated.step {act : Action} (h : Gated me s) (hcond : Restoring p me s act)
    (hstep : AgentThreads.step p me s act = some s') : Gated me s' := by
  rcases step_cases hstep with
    ⟨out, rfl, hf⟩ | ⟨rfl, hr⟩ | ⟨x, rfl, hstage, rfl⟩ | hq
  · exact h.forwarded hf hcond
  · exact h.receive hr hcond
  · exact ⟨h.marked, h.cleared⟩
  · exact h.quiet hq

theorem Gated.start (hstart : Started me s₀) : Gated me s₀ := by
  refine ⟨?_, ?_⟩
  · rw [hstart.forwarder]
    trivial
  · rw [hstart.gates]
    exact Or.inl rfl

/-- The neighbor message event over any sequence of frames and any interleaving: if
every last hop is known and every published frame of a neighbor can be opened, but for losses
that others make up for, the event is set whenever the forwarder waits for its next frame and the receive
thread has taken and opened all that was published. -/
theorem neighbor_event_restored (hstart : Started me s₀)
    (h : Reach (step p me) (Restoring p me) s₀ s) (hidle : s.forwarder = .idle)
    (hempty : s.pending = []) : s.agent.gates.processingNeighborMessageEvent = true := by
  have hinv : Gated me s :=
    h.inv (.start hstart) (fun _ _ _ hs hcond hstep => hs.step hcond hstep)
  rcases hinv.cleared with hset | hhold | ⟨g, hg, -⟩
  · exact hset
  · rw [hidle] at hhold
    cases hhold
  · rw [hempty] at hg
    cases hg

/-- The forwarder drops a frame whose last hop it does not know and leaves the event
cleared. -/
theorem unknown_lasthop_keeps_gate :
    Started sampleIdentity linkedSys ∧ ∃ s, runAll listPlatform sampleIdentity linkedSys
        (.arrive { sampleFrame with lasthop := some (.str "10.0.0.9") } ::
          List.replicate 6 (.forwarder quietOutside)) = some s ∧
      s.forwarder = .idle ∧ s.pending = [] ∧
      s.agent.gates.processingNeighborMessageEvent = false := by
  refine ⟨linkedSys_started, ?_⟩
  exact ⟨_, rfl, rfl, rfl, rfl⟩

/-- A run that meets the condition: a neighbor's frame is forwarded and received. -/
theorem neighbor_event_restored_linked :
    ∃ s, Reach (step listPlatform sampleIdentity) (Restoring listPlatform sampleIdentity)
        linkedSys s ∧ s.received.length = 1 ∧
      s.agent.gates.processingNeighborMessageEvent = true := by
  have hrun : ∃ s, follow (step listPlatform sampleIdentity)
      (Restoring listPlatform sampleIdentity) linkedSys
      (forwardSchedule ++ [.receive, .receive]) = some s ∧ s.forwarder = .idle ∧ s.pending = [] ∧
        s.received.length = 1 :=
    ⟨_, rfl, rfl, rfl, rfl⟩
  obtain ⟨s, hs, hidle, hempty, hlen⟩ := hrun
  exact ⟨s, reach_of_follow hs, hlen,
    neighbor_event_restored linkedSys_started (reach_of_follow hs) hidle hempty⟩

end Nxwlan.LocalDelivery
