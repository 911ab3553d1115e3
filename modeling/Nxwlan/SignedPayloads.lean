import Nxwlan.ForwarderRuns

/-!
What a signature binds. `create_signature` covers the text of a message and
nothing of the frame around it. Correct agents keep a common log of the texts
they sign; everybody else may build frames at will, but a signature that
verifies under a correct agent's key was made by that agent. Then the text of
every published frame has been signed before by the agent whose key stands in
the table, while the header is whatever the arriving frame said.
-/
namespace Nxwlan.SignedPayloads

open JsonFrames AgentState Forwarder Messaging PublishedFrames
open Base64 (Bytes)

/-- A signed frame of a correct agent. A publication also records the frame it
answers and the neighbor table in which the last hop was looked up. -/
structure Emission (ι : Type) where
  signer : ι
  frame : Frame
  plain : Bytes
  answers : Option (Frame × NeighborList) := none

/-- The correct agents, indexed by `ι`, and the log of what they have signed. -/
structure World (ι : Type) where
  agent : ι → Agent
  cache : ι → FwdCache
  log : List (Emission ι) := []

variable {ι : Type} [DecidableEq ι]

/-- No signature of the frame verifies under a correct agent's key for a text that
this agent has not signed. -/
def Unforged (p : Platform) (me : ι → Identity) (log : List (Emission ι)) (f : Frame) : Prop :=
  ∀ sig l plain, f.sig = some sig →
    p.verify (me l).rsaKey.publickey (p.sha1 plain) sig = true →
    ∃ e ∈ log, e.signer = l ∧ e.plain = plain

/-- The text that a pass has decrypted and verified. -/
def verifiedText (p : Platform) (me : Identity) (w : Waits) (a : Agent) (cache : FwdCache)
    (f : Frame) : Option Bytes :=
  match filterFrame p me cache f, w.gate a with
  | .ok f, some a =>
      match mark me f a with
      | .ok (nb, a) =>
          match (decodeStage p me w a nb f).2 with
          | .ok d => some d.plain
          | .error _ => none
      | .error _ => none
  | _, _ => none

/-- Agent `v` changes its state and signs a frame. -/
def World.emit (W : World ι) (a : Agent) (cache : FwdCache) (e : Emission ι) : World ι :=
  { agent := Function.update W.agent e.signer a
    cache := Function.update W.cache e.signer cache
    log := W.log ++ [e] }

inductive Step (p : Platform) (me : ι → Identity) : World ι → World ι → Prop
  /-- a correct agent sends; `plain` is what it signs and encrypts -/
  | send (W : World ι) (v : ι) (call : Call) (now : ℤ) (a : Agent) (f : Frame) (lasthop : String)
      (key iv : Bytes) (id ttl : ℤ) (msg_type sub_type nodeID : String) (plain : Bytes)
      (hsend : call.perform p (me v) now (W.agent v) = (a, .ok (some f)))
      (hframe : f = initialFrame p (me v) lasthop key iv id ttl msg_type sub_type nodeID plain) :
      Step p me W (W.emit a (W.cache v) { signer := v, frame := f, plain := plain })
  /-- any frame arrives at a correct agent, which does not publish -/
  | drop (W : World ι) (v : ι) (f : Frame) (w : Waits) (o : Outcome)
      (hpass : o = initForwardingTTL p (me v) w (W.agent v) (W.cache v) f)
      (hpub : o.published = none) :
      Step p me W { W with agent := Function.update W.agent v o.agent }
  /-- a frame without a forged signature arrives and is published -/
  | publish (W : World ι) (v : ι) (f g : Frame) (w : Waits) (a₁ : Agent) (plain : Bytes)
      (o : Outcome) (hunforged : Unforged p me W.log f) (hgate : w.gate (W.agent v) = some a₁)
      (hpass : o = initForwardingTTL p (me v) w (W.agent v) (W.cache v) f)
      (hplain : verifiedText p (me v) w (W.agent v) (W.cache v) f = some plain)
      (hpub : o.published = some g) :
      Step p me W (W.emit o.agent o.cache
        { signer := v, frame := g, plain := plain, answers := some (f, a₁.globalNeighborList) })
  /-- other threads change the state of an agent -/
  | others (W : World ι) (v : ι) (a : Agent) :
      Step p me W { W with agent := Function.update W.agent v a }

/-- The worlds of all runs that start with an empty log. -/
inductive Reach (p : Platform) (me : ι → Identity) : World ι → Prop
  | start (agent : ι → Agent) : Reach p me { agent := agent, cache := fun _ => ∅ }
  | step {W W' : World ι} (h : Reach p me W) (hs : Step p me W W') : Reach p me W'

section Pass

variable {p : Platform} {me : Identity} {w : Waits} {a : Agent} {cache : FwdCache}

/-- A send signs and encrypts one text, so that it can always be logged. -/
theorem perform_frame {call : Call} {now : ℤ} {a' : Agent} {f : Frame}
    (h : call.perform p me now a = (a', .ok (some f))) :
    ∃ lasthop key iv id ttl msg_type sub_type nodeID plain,
      f = initialFrame p me lasthop key iv id ttl msg_type sub_type nodeID plain := by
  unfold Call.perform at h
  cases call with
  | sendToNeighbors message ttl =>
    obtain ⟨plain, -, rfl⟩ := sendFloodingMessage_ok h
    exact ⟨_, _, _, _, _, _, _, _, _, rfl⟩
  | sendToNeighbor message nodeID =>
    obtain ⟨plain, -, rfl⟩ := sendFloodingMessage_ok h
    exact ⟨_, _, _, _, _, _, _, _, _, rfl⟩
  | sendCtrlToNeighbors message sub_type key iv nodeID =>
    obtain ⟨plain, -, rfl⟩ := sendFloodingMessage_ok h
    exact ⟨_, _, _, _, _, _, _, _, _, rfl⟩

/-- The verified text of a pass that publishes is what its frame signs anew; it is
authentic with respect to the table read after the first wait. -/
theorem verifiedText_published {f g : Frame} {a₁ : Agent} (hgate : w.gate a = some a₁)
    (hpub : (initForwardingTTL p me w a cache f).published = some g) :
    ∃ plain, verifiedText p me w a cache f = some plain ∧
      g.sig = some (p.sign me.rsaKey (p.sha1 plain)) ∧
      Authentic p me a₁.globalNeighborList f plain := by
  obtain ⟨f', a₁', a₂, nb, d, hfilter, hgate', hmark, hdecode, hpass⟩ := published_inv hpub
  obtain rfl : a₁ = a₁' := Option.some.inj (hgate.symm.trans hgate')
  obtain ⟨raw, ttl, -, -, -, -, -, rfl⟩ := filterFrame_ok hfilter
  obtain ⟨-, -, -, hauth⟩ := decodeStage_ok hdecode
  rw [(mark_ok hmark).1] at hauth
  rw [hpass] at hpub
  obtain ⟨⟨sendKey, sendIv, rfl⟩, -⟩ := publish_some hpub
  refine ⟨d.plain, ?_, rfl, hauth⟩
  simp only [verifiedText, hfilter, hgate, hmark, hdecode]

theorem published_header {f g : Frame}
    (hpub : (initForwardingTTL p me w a cache f).published = some g) :
    g.msg_type = f.msg_type ∧ g.sub_type = f.sub_type := by
  obtain ⟨f', a₁, a₂, nb, d, hfilter, -, -, -, hpass⟩ := published_inv hpub
  obtain ⟨raw, ttl, -, -, -, -, -, rfl⟩ := filterFrame_ok hfilter
  rw [hpass] at hpub
  obtain ⟨⟨sendKey, sendIv, rfl⟩, -⟩ := publish_some hpub
  exact ⟨rfl, rfl⟩

end Pass

/-- Every send of a correct agent is a step. -/
theorem send_logged {p : Platform} {me : ι → Identity} (W : World ι) (v : ι) (call : Call)
    (now : ℤ) {a : Agent} {f : Frame}
    (h : call.perform p (me v) now (W.agent v) = (a, .ok (some f))) :
    ∃ plain, Step p me W (W.emit a (W.cache v) { signer := v, frame := f, plain := plain }) := by
  obtain ⟨lasthop, key, iv, id, ttl, msg_type, sub_type, nodeID, plain, hframe⟩ := perform_frame h
  exact ⟨plain, .send W v call now a f lasthop key iv id ttl msg_type sub_type nodeID plain h
    hframe⟩

/-- Every publication of a frame without a forged signature is a step. -/
theorem publication_logged {p : Platform} {me : ι → Identity} (W : World ι) (v : ι) (f : Frame)
    (w : Waits) {g : Frame} (hunforged : Unforged p me W.log f)
    (hpub : (initForwardingTTL p (me v) w (W.agent v) (W.cache v) f).published = some g) :
    ∃ plain list, Step p me W
      (W.emit (initForwardingTTL p (me v) w (W.agent v) (W.cache v) f).agent
        (initForwardingTTL p (me v) w (W.agent v) (W.cache v) f).cache
        { signer := v, frame := g, plain := plain, answers := some (f, list) }) := by
  obtain ⟨f', a₁, a₂, nb, d, -, hgate, -⟩ := published_inv hpub
  obtain ⟨plain, hplain, -⟩ := verifiedText_published hgate hpub
  exact ⟨plain, a₁.globalNeighborList, .publish W v f g w a₁ plain _ hunforged hgate rfl hplain
    hpub⟩

/-- What is known about a publication that answers `f` and found the last hop of
`f` in `list`: a correct agent whose key it was verified with has signed the
same text in an earlier frame, and the header is the one of `f`. -/
structure Sourced (me : ι → Identity) (before : List (Emission ι)) (e : Emission ι) (f : Frame)
    (list : NeighborList) : Prop where
  signed : ∃ name entry, f.lasthop = some (.str name) ∧ list.lookup name = some entry ∧
    ∀ l, verificationKey (me e.signer) name entry = some (me l).rsaKey.publickey →
      ∃ e' ∈ before, e'.signer = l ∧ e'.plain = e.plain
  host : e.frame.host = f.host
  id : e.frame.id = f.id
  receiver : e.frame.receiver = f.receiver
  msg_type : e.frame.msg_type = f.msg_type
  sub_type : e.frame.sub_type = f.sub_type

/-- Every publication of the log is sourced in what stands before it. -/
def AllSourced (me : ι → Identity) (log : List (Emission ι)) : Prop :=
  ∀ before e after f list, log = before ++ e :: after → e.answers = some (f, list) →
    Sourced me before e f list

omit [DecidableEq ι] in
theorem allSourced_append {me : ι → Identity} {log : List (Emission ι)} {e : Emission ι}
    (h : AllSourced me log)
    (he : ∀ f list, e.answers = some (f, list) → Sourced me log e f list) :
    AllSourced me (log ++ [e]) := by
  intro before e' after f list hsplit hanswers
  rcases List.eq_nil_or_concat after with rfl | ⟨init, last, rfl⟩
  · obtain ⟨rfl, hlast⟩ := List.append_inj' hsplit rfl
    obtain rfl : e = e' := (List.cons.inj hlast).1
    exact he f list hanswers
  · rw [List.concat_eq_append, ← List.cons_append, ← List.append_assoc] at hsplit
    obtain ⟨hlog, -⟩ := List.append_inj' hsplit rfl
    exact h before e' init f list hlog hanswers

theorem step_sourced {p : Platform} {me : ι → Identity} {W W' : World ι} (hs : Step p me W W')
    (h : AllSourced me W.log) : AllSourced me W'.log := by
  cases hs with
  | send v call now a f lasthop key iv id ttl msg_type sub_type nodeID plain hsend hframe =>
    refine allSourced_append h ?_
    intro f' list hanswers
    cases hanswers
  | drop v f w o hpass hpub => exact h
  | publish v f g w a₁ plain o hunforged hgate hpass hplain hpub =>
    refine allSourced_append h ?_
    rintro f' list hanswers
    obtain ⟨rfl, rfl⟩ := Prod.mk.inj (Option.some.inj hanswers)
    rw [hpass] at hpub
    obtain ⟨plain', hplain', -, hauth⟩ := verifiedText_published hgate hpub
    obtain rfl : plain' = plain := Option.some.inj (hplain'.symm.trans hplain)
    obtain ⟨name, entry, key, iv, pub, hlast, hlook, -, hkey, enc, sig, -, -, hsig, hver⟩ := hauth
    obtain ⟨hhost, hid, hrec, -⟩ := published_fields hpub
    obtain ⟨htype, hsub⟩ := published_header hpub
    refine ⟨⟨name, entry, hlast, hlook, ?_⟩, hhost, hid, hrec, htype, hsub⟩
    intro l hl
    obtain rfl : pub = (me l).rsaKey.publickey := Option.some.inj (hkey.symm.trans hl)
    exact hunforged sig l plain' hsig hver
  | others v a => exact h

/-- Every frame of the log carries its signer's signature of the logged text. -/
def AllSigned (p : Platform) (me : ι → Identity) (log : List (Emission ι)) : Prop :=
  ∀ e ∈ log, e.frame.sig = some (p.sign (me e.signer).rsaKey (p.sha1 e.plain))

theorem step_signed {p : Platform} {me : ι → Identity} {W W' : World ι} (hs : Step p me W W')
    (h : AllSigned p me W.log) : AllSigned p me W'.log := by
  cases hs with
  | send v call now a f lasthop key iv id ttl msg_type sub_type nodeID plain hsend hframe =>
    intro e he
    rcases List.mem_append.mp he with he | he
    · exact h e he
    · obtain rfl := List.mem_singleton.mp he
      rw [hframe]
      rfl
  | drop v f w o hpass hpub => exact h
  | publish v f g w a₁ plain o hunforged hgate hpass hplain hpub =>
    intro e he
    rcases List.mem_append.mp he with he | he
    · exact h e he
    · obtain rfl := List.mem_singleton.mp he
      rw [hpass] at hpub
      obtain ⟨plain', hplain', hsig, -⟩ := verifiedText_published hgate hpub
      obtain rfl : plain' = plain := Option.some.inj (hplain'.symm.trans hplain)
      exact hsig
  | others v a => exact h

theorem reach_sourced {p : Platform} {me : ι → Identity} {W : World ι} (h : Reach p me W) :
    AllSigned p me W.log ∧ AllSourced me W.log := by
  induction h with
  | start agent =>
    constructor
    · intro e he
      cases he
    · intro before e after f list hsplit
      simp at hsplit
  | step h hs ih => exact ⟨step_signed hs ih.1, step_sourced hs ih.2⟩

/-- Signed texts are bound to their signer, headers to nothing: in every run, the
text of each published frame has been signed before, in a frame of its own, by
the correct agent whose key the last hop's entry holds. The runs go on with every
send and with every publication of a frame that is not forged. -/
theorem published_text_signed (p : Platform) (me : ι → Identity) (W : World ι)
    (h : Reach p me W) :
    AllSigned p me W.log ∧ AllSourced me W.log ∧
    (∀ v call now a f, Call.perform p (me v) now (W.agent v) call = (a, .ok (some f)) →
      ∃ plain, Reach p me (W.emit a (W.cache v) { signer := v, frame := f, plain := plain })) ∧
    ∀ v f w g, Unforged p me W.log f →
      (initForwardingTTL p (me v) w (W.agent v) (W.cache v) f).published = some g →
      ∃ plain list, Reach p me
        (W.emit (initForwardingTTL p (me v) w (W.agent v) (W.cache v) f).agent
          (initForwardingTTL p (me v) w (W.agent v) (W.cache v) f).cache
          { signer := v, frame := g, plain := plain, answers := some (f, list) }) := by
  obtain ⟨hsigned, hsourced⟩ := reach_sourced h
  refine ⟨hsigned, hsourced, ?_, ?_⟩
  · intro v call now a f hsend
    obtain ⟨plain, hstep⟩ := send_logged W v call now hsend
    exact ⟨plain, .step h hstep⟩
  · intro v f w g hunforged hpub
    obtain ⟨plain, list, hstep⟩ := publication_logged W v f w hunforged hpub
    exact ⟨plain, list, .step h hstep⟩

/-- The listing signatures of the small platform name their signer and text. -/
theorem listPlatform_verify_sign {k : RsaPublicKey} {key : RsaKey} {x y : Bytes}
    (h : listPlatform.verify k x (listPlatform.sign key y) = true) : k.n = key.n ∧ x = y := by
  simp only [listPlatform, listVerify, Bool.and_eq_true, beq_iff_eq, Nat.cast_inj, asNumbers,
    List.map_map] at h
  refine ⟨h.1.symm, ?_⟩
  have hinj : Function.Injective (Json.num? ∘ fun b : UInt8 => Json.int b.toNat) := by
    intro b b' hb
    apply UInt8.toNat_inj.mp
    simpa [Json.num?] using hb
  exact (List.map_injective_iff.mpr hinj h.2).symm

/-- Two correct agents: a neighbor and the one that hears it. -/
def pair : Bool → Identity
  | false => samplePeer
  | true => sampleIdentity

/-- The neighbor knows itself only. -/
def peerAgent : Agent where
  key := sampleKey
  iv := sampleKey
  globalNeighborList := AList.insert "10.0.0.2"
    { ipAddress := "10.0.0.2", encryptionKey := sampleKey, encryptionIV := sampleKey,
      timestampLastKCM := 0 } ∅

def pairStart : World Bool where
  agent v := if v then sampleAgent else peerAgent
  cache _ := ∅

/-- The neighbor's broadcast "hi", as it leaves its sender. -/
def hiFrame : Frame :=
  initialFrame listPlatform samplePeer "10.0.0.2" sampleKey sampleKey 1 3 "data" "std" broadcast
    [104, 105]

def hiSent : World Bool :=
  pairStart.emit ((Call.sendToNeighbors [104, 105] 1).perform listPlatform samplePeer 0
    (pairStart.agent false)).1 ∅ { signer := false, frame := hiFrame, plain := [104, 105] }

def hiPass : Outcome :=
  initForwardingTTL listPlatform samplePeer quietWaits (hiSent.agent false) ∅ hiFrame

/-- The broadcast as its sender publishes it, for everybody to record. -/
def recorded : Frame := hiPass.published.getD hiFrame

def hiPublished : World Bool :=
  hiSent.emit hiPass.agent hiPass.cache
    { signer := false, frame := recorded, plain := [104, 105],
      answers := some (hiFrame, (hiSent.agent false).globalNeighborList) }

/-- The recorded frame under another name and id, to one agent, as a control
message. -/
def rewritten : Frame :=
  { recorded with
    host := some (.str "10.0.0.9"), id := some (.int 7), receiver := some (.str "10.0.0.1"),
    msg_type := some (.str "ctrl"), sub_type := some (.str "kcm") }

/-- A frame with the neighbor's signature of "hi" is no forgery once that is in
the log. -/
theorem hi_unforged {W : World Bool} {f : Frame} {e : Emission Bool} (he : e ∈ W.log)
    (hsigner : e.signer = false) (hplain : e.plain = [104, 105])
    (hsig : f.sig = some (listPlatform.sign samplePeer.rsaKey [104, 105])) :
    Unforged listPlatform pair W.log f := by
  intro sig l plain hsig' hver
  obtain rfl := Option.some.inj (hsig.symm.trans hsig')
  obtain ⟨hn, hp⟩ := listPlatform_verify_sign hver
  refine ⟨e, he, ?_, hplain.trans hp.symm⟩
  cases l with
  | false => exact hsigner
  | true => exact absurd hn (by decide)

theorem hiPublished_reach : Reach listPlatform pair hiPublished := by
  have hsent : Reach listPlatform pair hiSent :=
    .step (.start pairStart.agent) (.send pairStart false (.sendToNeighbors [104, 105] 1) 0 _ hiFrame
      "10.0.0.2" sampleKey sampleKey 1 3 "data" "std" broadcast [104, 105] rfl rfl)
  refine .step hsent (.publish hiSent false hiFrame recorded quietWaits (hiSent.agent false)
    [104, 105] hiPass ?_ rfl rfl rfl rfl)
  exact hi_unforged (List.mem_append_right _ (List.mem_singleton.mpr rfl)) rfl rfl rfl

/-- No part of the header is bound: a recorded broadcast is published again under
a name, an id, an address and types that its sender never used. -/
theorem rewritten_header_published :
    ∃ W, Reach listPlatform pair W ∧
      (∃ f list, ∃ e ∈ W.log, e.signer = true ∧ e.answers = some (f, list) ∧
        f.lasthop = some (.str (pair false).hostname) ∧ e.plain = [104, 105] ∧
        ∀ e' ∈ W.log, e'.signer = false → e'.frame.host ≠ e.frame.host ∧
          e'.frame.id ≠ e.frame.id ∧ e'.frame.receiver ≠ e.frame.receiver ∧
          e'.frame.msg_type ≠ e.frame.msg_type ∧ e'.frame.sub_type ≠ e.frame.sub_type) := by
  have hsome : (initForwardingTTL listPlatform sampleIdentity quietWaits sampleAgent ∅
      rewritten).published.isSome = true := by decide
  obtain ⟨g, hg⟩ := Option.isSome_iff_exists.mp hsome
  obtain ⟨hhost, hid, hrec, -⟩ := published_fields hg
  obtain ⟨htype, hsub⟩ := published_header hg
  have hunforged : Unforged listPlatform pair hiPublished.log rewritten :=
    hi_unforged (List.mem_append_right _ (List.mem_singleton.mpr rfl)) rfl rfl rfl
  refine ⟨_, .step hiPublished_reach (.publish hiPublished true rewritten g quietWaits sampleAgent
    [104, 105] _ hunforged rfl rfl rfl hg), rewritten, sampleAgent.globalNeighborList, _,
    List.mem_append_right _ (List.mem_singleton.mpr rfl), rfl, rfl, rfl, rfl, ?_⟩
  intro e' he' hsigner
  have hheader : e'.frame.host = some (.str "10.0.0.2") ∧ e'.frame.id = some (.int 1) ∧
      e'.frame.receiver = some (.str broadcast) ∧ e'.frame.msg_type = some (.str "data") ∧
      e'.frame.sub_type = some (.str "std") := by
    rcases List.mem_append.mp he' with he' | he'
    · simp only [hiPublished, hiSent, World.emit, pairStart, List.nil_append, List.cons_append,
        List.mem_cons, List.not_mem_nil, or_false] at he'
      rcases he' with rfl | rfl
      · exact ⟨rfl, rfl, rfl, rfl, rfl⟩
      · exact ⟨rfl, rfl, rfl, rfl, rfl⟩
    · obtain rfl := List.mem_singleton.mp he'
      cases hsigner
  obtain ⟨h₁, h₂, h₃, h₄, h₅⟩ := hheader
  rw [h₁, h₂, h₃, h₄, h₅, hhost, hid, hrec, htype, hsub]
  simp [rewritten, broadcast]

/-- The agent that hears the broadcast relays it. -/
def hiRelay : Outcome :=
  initForwardingTTL listPlatform sampleIdentity quietWaits sampleAgent ∅ recorded

def hiRelayed : World Bool :=
  hiPublished.emit hiRelay.agent hiRelay.cache
    { signer := true, frame := hiRelay.published.getD recorded, plain := [104, 105],
      answers := some (recorded, sampleAgent.globalNeighborList) }

theorem hiRelayed_reach : Reach listPlatform pair hiRelayed := by
  refine .step hiPublished_reach (.publish hiPublished true recorded _ quietWaits sampleAgent
    [104, 105] hiRelay ?_ rfl rfl rfl rfl)
  exact hi_unforged (List.mem_append_right _ (List.mem_singleton.mpr rfl)) rfl rfl rfl

/-- What the relay publishes has been signed by the neighbor before. -/
theorem published_text_signed_hi :
    ∃ e' ∈ hiPublished.log, e'.signer = false ∧ e'.plain = [104, 105] := by
  obtain ⟨name, entry, hlast, hlook, hsigned⟩ := ((published_text_signed listPlatform pair
    hiRelayed hiRelayed_reach).2.1 hiPublished.log _ [] recorded _ rfl rfl).signed
  have hname : recorded.lasthop = some (.str "10.0.0.2") := rfl
  obtain rfl : "10.0.0.2" = name := by simpa [hname] using hlast
  obtain rfl := Option.some.inj (hlook.symm.trans (show _ = some _ from rfl))
  exact hsigned false rfl

end Nxwlan.SignedPayloads
