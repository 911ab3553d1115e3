import Nxwlan.KeyChanges

/-!
When a round of the receive loop comes to its end. Nothing in the loop catches
an exception, so a frame is survived only if every reading of its text, every
lookup and every call that its kind leads to goes through. The conditions are
stated for each kind of message in terms of the frame, of the state and of the
answers from outside, and put together for all frames that the agent's own
forwarder can publish.
-/
namespace Nxwlan.ReceiveSurvival

open JsonFrames AgentState Forwarder Messaging PublishedFrames PyText Rescans ReceiveLoop KeyChanges
open Base64 (Bytes decodestring)
open ProbeRequests (Ended)

variable {p : Platform} {world : World} {me : Identity} {a a₁ : Agent} {f : Frame} {text : Text}

/-- The frame's originator is the table entry `name`. -/
def Known (a : Agent) (f : Frame) (name : String) (e : Neighbor) : Prop :=
  f.host = some (.str name) ∧ a.globalNeighborList.lookup name = some e

/-- A text with an integer, a network name and an address; if the originator is
known then so is the address, and its rescan returns. -/
def KcmOk (world : World) (a : Agent) (f : Frame) (text : Text) : Prop :=
  ∃ freq ssid ip, parseKcm text = .ok (freq, ssid, ip) ∧
    ∀ name e, Known a f name e → ∃ e', a.globalNeighborList.lookup ip = some e' ∧
      Rescannable world.outside a freq ssid ip e'.encryptionKey

/-- The text is an object with two texts of hex digits, if the originator is known. -/
def NukOk (world : World) (a : Agent) (f : Frame) (text : Text) : Prop :=
  ∀ name e, Known a f name e → ∃ nukMsg key iv, world.loads text = some nukMsg ∧
    nukField "key" nukMsg = .ok key ∧ nukField "iv" nukMsg = .ok iv

/-- The unicast keys that a request is answered with. -/
def answerKeys (world : World) (e : Neighbor) : Bytes × Bytes :=
  if e.unicastRecKey.length > 2 then (e.unicastRecKey, e.unicastRecIv) else world.freshKeys

/-- The waits return; an originator that is then still known has a public key that
takes the answer, and is still known if its key has to be stored. -/
def RukOk (p : Platform) (world : World) (a : Agent) (f : Frame) : Prop :=
  ∀ name e, Known a f name e → ∃ a₁, world.sendWait a = some a₁ ∧
    (∀ e₁, name ≠ broadcast → a₁.globalNeighborList.lookup name = some e₁ →
      ∃ k enc, e₁.pubKey = some k ∧
        p.oaepEncrypt k (nukMessage (answerKeys world e).1 (answerKeys world e).2) = some enc) ∧
    (name = broadcast ∨ (a₁.globalNeighborList.lookup name).isSome = true →
      aesAccepts a₁.key a₁.iv = true) ∧
    (¬ e.unicastRecKey.length > 2 → (a₁.globalNeighborList.lookup name).isSome = true)

/-- The text is an object whose name space can be a key; if it is one of a registered
application, that application's callback returns. -/
def CallbackOk (world : World) (a : Agent) (text : Text) : Prop :=
  ∃ payload ns key, world.loads text = some payload ∧ payload.printable = .ok () ∧
    getItem "NS" payload = .ok ns ∧ ns.dictKey = .ok key ∧
    ∀ name, ns = .str name → name ∈ a.globalAppList →
      ns.printable = .ok () ∧ world.rx_cb name payload = true

/-- A host that can be a key and can be printed, as those of published frames. -/
def GoodHost (f : Frame) : Prop :=
  ∃ host key, f.host = some host ∧ host.dictKey = .ok key ∧ host.printable = .ok ()

/-- The originator is not in the table, or it is there under one name. -/
theorem known_cases (a : Agent) (hhost : GoodHost f) :
    (entryAt f.host a.globalNeighborList = .ok none ∧ ∀ name e, ¬ Known a f name e) ∨
      ∃ name e, entryAt f.host a.globalNeighborList = .ok (some (name, e)) ∧ Known a f name e ∧
        ∀ name' e', Known a f name' e' → name' = name ∧ e' = e := by
  obtain ⟨host, key, hf, hkey, -⟩ := hhost
  cases host with
  | str s =>
    unfold Known
    rw [hf, entryAt_str]
    cases hlook : a.globalNeighborList.lookup s with
    | none =>
      refine Or.inl ⟨rfl, ?_⟩
      rintro name e ⟨hname, he⟩
      obtain rfl : s = name := by simpa using hname
      rw [hlook] at he
      cases he
    | some e =>
      refine Or.inr ⟨s, e, rfl, ⟨rfl, hlook⟩, ?_⟩
      rintro name' e' ⟨hname, he⟩
      obtain rfl : s = name' := by simpa using hname
      exact ⟨rfl, Option.some.inj (he.symm.trans hlook)⟩
  | null => exact Or.inl ⟨by rw [hf]; rfl, by simp [Known, hf]⟩
  | bool b => exact Or.inl ⟨by rw [hf]; rfl, by simp [Known, hf]⟩
  | int i => exact Or.inl ⟨by rw [hf]; rfl, by simp [Known, hf]⟩
  | float q => exact Or.inl ⟨by rw [hf]; rfl, by simp [Known, hf]⟩
  | arr l => simp [Json.dictKey] at hkey
  | obj l => simp [Json.dictKey] at hkey

/-- What a control message asks for goes through; a kind that is not known is
ignored. -/
def CtrlOk (p : Platform) (world : World) (a : Agent) (f : Frame) (text : Text) : Prop :=
  ∃ sub_type, f.sub_type = some sub_type ∧
    (sub_type = .str "kcm" → ∃ a₁, world.kcmWait a = some a₁ ∧ KcmOk world a₁ f text) ∧
    (sub_type = .str "ruk" → RukOk p world a f) ∧
    (sub_type = .str "nuk" → NukOk world a f text)

/-- The text of a message is handled to the end. -/
def TextOk (p : Platform) (world : World) (a : Agent) (f : Frame) (plain : Bytes) : Prop :=
  (f.msg_type = some (.str "ctrl") →
    CtrlOk p world (Agent.setNeighborMessage a true) f (unicodeText plain)) ∧
  (f.msg_type ≠ some (.str "ctrl") →
    CallbackOk world (Agent.setNeighborMessage a true) (unicodeText plain))

/-- What the frame opens to under the agent's keys, where its own signature is good. -/
def openedText (p : Platform) (me : Identity) (a : Agent) (f : Frame) : Option Bytes :=
  match attempt p a.key a.iv (some me.rsaKey.publickey) f with
  | .ok (plain, true) => some plain
  | _ => none

/-- The conditions on a neighbor's frame that opens to `plain`. A unicast is opened
once more: a control message with the agent's RSA key, a data message with the
unicast key recorded for its originator, if the agent is in its own table. -/
structure OpenedOk (p : Platform) (world : World) (me : Identity) (a : Agent) (f : Frame)
    (plain : Bytes) : Prop where
  typed : f.msg_type ≠ none
  flooded : toMe me f = false → TextOk p world a f plain
  ctrl : toMe me f = true → f.msg_type = some (.str "ctrl") →
    ∃ inner, p.oaepDecrypt me.rsaKey plain = some inner ∧ TextOk p world a f inner
  data : toMe me f = true → f.msg_type = some (.str "data") →
    (a.globalNeighborList.lookup me.hostname).isSome = true →
    ∃ enc name e, decodestring (asciiText plain) = some enc ∧ Known a f name e ∧
      (e.unicastRecKey ≠ [] → aesAccepts e.unicastRecKey e.unicastRecIv = true ∧
        TextOk p world a f (p.decrypt e.unicastRecKey e.unicastRecIv enc))
  bare : toMe me f = true → f.msg_type = some (.str "data") →
    a.globalNeighborList.lookup me.hostname = none → TextOk p world a f plain
  other : toMe me f = true → f.msg_type ≠ some (.str "ctrl") → f.msg_type ≠ some (.str "data") →
    TextOk p world a f plain

/-- The handling of a message once it is opened. -/
def handleText (p : Platform) (world : World) (me : Identity) (a : Agent) (f : Frame) :
    Received → Handled
  | .ctrl plain =>
      if toMe me f && f.sub_type.isNone then { agent := a, ended := .raised .keyError }
      else handleCtrl p world me (Agent.setNeighborMessage a true) f (unicodeText plain)
  | .callback plain => rxCbInternal world (Agent.setNeighborMessage a true) f (unicodeText plain)
  | .raised e => { agent := a, ended := .raised e }
  | _ => { agent := a }

theorem receiveRound_eq (p : Platform) (world : World) (me : Identity) (a : Agent) (f : Frame) :
    receiveRound p world me a f = handleText p world me a f (receiveMessage p me a f) := by
  unfold receiveRound handleText
  cases receiveMessage p me a f with
  | _ => rfl

/-- What `receiveMessage` makes of an opened text. -/
def classified (f : Frame) (plain : Bytes) : Received :=
  match f.msg_type with
  | none => .raised .keyError
  | some msg_type => if msg_type.isStr "ctrl" then .ctrl plain else .callback plain

/-- The frame has been published by the agent's own forwarder, in whatever state. -/
def Published (p : Platform) (me : Identity) (f : Frame) : Prop :=
  ∃ w b cache g, (initForwardingTTL p me w b cache g).published = some f

theorem mark_printable {nb : Bool} {b : Agent} (h : mark me f a = .ok (nb, b)) :
    ∃ host, f.host = some host ∧ host.printable = .ok () := by
  unfold mark at h
  cases hl : f.lasthop with
  | none => simp [hl, field, bind, Except.bind] at h
  | some lasthop =>
    cases hpl : lasthop.printable with
    | error err => simp [hl, field, bind, Except.bind, hpl] at h
    | ok u =>
      cases hh : f.host with
      | none => simp [hl, hh, field, bind, Except.bind, hpl] at h
      | some host =>
        cases hph : host.printable with
        | error err => simp [hl, hh, field, bind, Except.bind, hpl, hph] at h
        | ok u => exact ⟨host, rfl, hph⟩

/-- Everything that a published frame has been read for can be read again. -/
theorem published_readable (h : Published p me f) :
    GoodHost f ∧ (∃ enc, encodedMsg f = .ok enc) ∧ (∃ sig, f.sig = some sig) ∧
      (f.host ≠ some (.str me.hostname) → ∃ r, f.receiver = some r) := by
  obtain ⟨w, b, cache, g, hpub⟩ := h
  obtain ⟨g', b₁, b₂, nb, d, hfilter, -, hmark, -, hpass⟩ := published_inv hpub
  obtain ⟨raw, ttl, -, -, -, hseen, haddr, rfl⟩ := filterFrame_ok hfilter
  obtain ⟨host, hhost, hprint⟩ := mark_printable hmark
  rw [hpass] at hpub
  obtain ⟨⟨sendKey, sendIv, rfl⟩, -⟩ := publish_some hpub
  refine ⟨?_, ⟨_, encodedMsg_encoded rfl⟩, ⟨_, rfl⟩, ?_⟩
  · replace hhost : g.host = some host := hhost
    cases hkey : host.dictKey with
    | error err => simp [seen, hhost, field, Except.bind, hkey] at hseen
    | ok key => exact ⟨host, key, hhost, hkey, hprint⟩
  · intro hown
    replace hhost : g.host = some host := hhost
    replace hown : g.host ≠ some (.str me.hostname) := hown
    have hnot : host.isStr me.hostname = false := by
      rw [Bool.eq_false_iff, ne_eq, Json.isStr_iff]
      rintro rfl
      exact hown hhost
    cases hr : g.receiver with
    | none => simp [addressed, hhost, field, hnot, hr, Except.map] at haddr
    | some r => exact ⟨r, rfl⟩

theorem receiveMessage_opened {host : Json} {plain : Bytes} (hhost : f.host = some host)
    (hown : host.isStr me.hostname = false) (hopen : openedText p me a f = some plain) :
    receiveMessage p me a f =
      match unwrapUnicast p me a f plain with
      | .error e => .raised e
      | .ok none => .noUnicastKey
      | .ok (some plain) => classified f plain := by
  have hattempt : attempt p a.key a.iv (some me.rsaKey.publickey) f = .ok (plain, true) := by
    unfold openedText at hopen
    split at hopen
    · rename_i h
      rw [h, Option.some.inj hopen]
    · cases hopen
  simp only [receiveMessage, hhost, field, hown, hattempt, classified]
  cases hun : unwrapUnicast p me a f plain with
  | error e => rfl
  | ok r =>
    cases r with
    | none => rfl
    | some plain =>
      cases f.msg_type with
      | none => rfl
      | some msg_type => rfl

section Unwrap

variable {r : Json} {plain : Bytes}

theorem unwrapUnicast_flooded (hr : f.receiver = some r) (hto : toMe me f = false) :
    unwrapUnicast p me a f plain = .ok (some plain) := by
  have hflood : (r.isStr broadcast || !r.isStr me.hostname) = true := by
    simp only [toMe, hr, Option.any_some] at hto
    revert hto
    cases r.isStr broadcast <;> cases r.isStr me.hostname <;> simp
  simp [unwrapUnicast, hr, field, bind, Except.bind, hflood, pure, Except.pure]

/-- The first test of a unicast to this agent fails. -/
theorem unicast_of_toMe (hr : f.receiver = some r) (hto : toMe me f = true) :
    (r.isStr broadcast || !r.isStr me.hostname) = false := by
  simp only [toMe, hr, Option.any_some] at hto
  revert hto
  cases r.isStr broadcast <;> cases r.isStr me.hostname <;> simp

theorem unwrapUnicast_ctrl (hr : f.receiver = some r) (hto : toMe me f = true)
    (hmt : f.msg_type = some (.str "ctrl")) :
    unwrapUnicast p me a f plain =
      match p.oaepDecrypt me.rsaKey plain with
      | none => .error .valueError
      | some plain => .ok (some plain) := by
  have hctrl : (Json.str "ctrl").isStr "ctrl" = true := rfl
  simp only [unwrapUnicast, hr, field, bind, Except.bind, unicast_of_toMe hr hto, hmt,
    Bool.false_eq_true, if_false, hctrl, if_true]
  rfl

end Unwrap

/-- When a round survives a frame: it is the agent's own, its signature is not good
(it was made with keys that have changed since), or its text can be handled. -/
def Survivable (p : Platform) (world : World) (me : Identity) (a : Agent) (f : Frame) : Prop :=
  f.host = some (.str me.hostname) ∨
    ∀ plain, openedText p me a f = some plain → OpenedOk p world me a f plain

end Nxwlan.ReceiveSurvival
