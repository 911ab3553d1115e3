import Nxwlan.ReceiveSurvival

/-!
A message on its way over any number of correct agents. Each of them decrypts
the frame with the key it knows of its predecessor, checks the signature, signs
and encrypts anew and publishes; the text inside never changes. A unicast has
a second layer, put on by the originator and taken off by the receiver only.
-/
namespace Nxwlan.PayloadPaths

open JsonFrames AgentState Forwarder Messaging PublishedFrames PyText ReceiveLoop ReceiveSurvival
open Base64 (Bytes encodestring decodestring)

variable {p : Platform} {o u v : Identity} {call : Call} {now : ℤ} {a : Agent}

/-- What the flooding carries for a call: the message, or the message under its
unicast layer. -/
def Layered (p : Platform) (o : Identity) (now : ℤ) (a : Agent) (call : Call) (plain : Bytes) :
    Prop :=
  unicastLayer p (storeOldKeys o now a call.keys.1 call.keys.2) call.message
    call.msgType call.receiver = .ok (some plain)

/-- The frame is one of `o`'s call, sent on by `v` under `key` and `iv`, and carries
`plain` with `v`'s signature. -/
structure Carries (p : Platform) (o : Identity) (call : Call) (plain : Bytes) (lasthop : String)
    (v : Identity) (key iv : Bytes) (g : Frame) : Prop where
  host : g.host = some (.str o.hostname)
  lasthop : g.lasthop = some (.str lasthop)
  receiver : g.receiver = some (.str call.receiver)
  msg_type : g.msg_type = some (.str call.msgType)
  sub_type : g.sub_type = some (.str call.subType)
  msg : g.msg = some (.str (String.ofList (encodestring (p.encrypt key iv plain))))
  sig : g.sig = some (p.sign v.rsaKey (p.sha1 plain))

/-- The unicast layer reads nothing but the table. -/
theorem unicastLayer_table {b : Agent} (h : b.globalNeighborList = a.globalNeighborList) :
    unicastLayer p b = unicastLayer p a := by
  funext message msg_type nodeID
  simp only [unicastLayer, h]

theorem storeOldKeys_gates (o : Identity) (now : ℤ) (a : Agent) (gates : Gates) (key iv : Bytes) :
    (storeOldKeys o now { a with gates := gates } key iv).globalNeighborList =
      (storeOldKeys o now a key iv).globalNeighborList := by
  unfold storeOldKeys
  split
  · rfl
  · rfl

theorem perform_carries {a' : Agent} {f : Frame}
    (h : call.perform p o now a = (a', .ok (some f))) :
    ∃ plain, Layered p o now a call plain ∧
      Carries p o call plain (call.sendKeys o a).1 o (call.sendKeys o a).2.1
        (call.sendKeys o a).2.2 f := by
  unfold Call.perform at h
  cases call with
  | sendToNeighbors message ttl =>
    obtain ⟨plain, hplain, rfl⟩ := sendFloodingMessage_ok h
    exact ⟨plain, hplain, ⟨rfl, rfl, rfl, rfl, rfl, rfl, rfl⟩⟩
  | sendToNeighbor message nodeID =>
    obtain ⟨plain, hplain, rfl⟩ := sendFloodingMessage_ok h
    exact ⟨plain, hplain, ⟨rfl, rfl, rfl, rfl, rfl, rfl, rfl⟩⟩
  | sendCtrlToNeighbors message sub_type key iv nodeID =>
    obtain ⟨plain, hplain, rfl⟩ := sendFloodingMessage_ok h
    refine ⟨plain, ?_, ⟨rfl, rfl, rfl, rfl, rfl, rfl, rfl⟩⟩
    rw [unicastLayer_table (storeOldKeys_gates o now a _ key iv)] at hplain
    exact hplain

/-- The entry that a table has for the predecessor `v`: its public key, and the keys
`g` was sent under, as its current ones, or as its old ones if the current fail. -/
def Holds (p : Platform) (list : NeighborList) (v : Identity) (key iv : Bytes) (g : Frame) :
    Prop :=
  ∃ entry, list.lookup v.hostname = some entry ∧ entry.pubKey = some v.rsaKey.publickey ∧
    ((entry.encryptionKey = key ∧ entry.encryptionIV = iv) ∨
      (entry.oldEncryptionKey = some key ∧ entry.oldEncryptionIV = some iv ∧
        ∃ wrong, attempt p entry.encryptionKey entry.encryptionIV entry.pubKey g =
          .ok (wrong, false)))

/-- The frame `g` of `call` has been published by an agent, under `key` and `iv`:
by the originator, or by an agent that got it from another one on the path. The
states that the agents are in when their forwarders read them are arbitrary, up
to the entries that the forwarders decrypt with. -/
inductive Reaches (p : Platform) (o : Identity) (now : ℤ) (a : Agent) (call : Call) :
    Identity → Bytes → Bytes → Frame → Prop where
  | origin {a' b b₁ : Agent} {w : Waits} {cache : FwdCache} {entry : Neighbor} {f g : Frame}
      (hsend : call.perform p o now a = (a', .ok (some f)))
      (hgate : w.gate b = some b₁)
      (hentry : b₁.globalNeighborList.lookup (call.sendKeys o a).1 = some entry)
      (hkey : entry.encryptionKey = (call.sendKeys o a).2.1)
      (hiv : entry.encryptionIV = (call.sendKeys o a).2.2)
      (hpub : (initForwardingTTL p o w b cache f).published = some g) :
      Reaches p o now a call o
        (if (call.sendKeys o a).1 = "old_keys" then (call.sendKeys o a).2.1 else b₁.key)
        (if (call.sendKeys o a).1 = "old_keys" then (call.sendKeys o a).2.2 else b₁.iv) g
  | hop {v u : Identity} {key iv : Bytes} {b b₁ : Agent} {w : Waits} {cache : FwdCache}
      {g g' : Frame} (hprev : Reaches p o now a call v key iv g)
      (hother : v.hostname ≠ u.hostname) (hname : v.hostname ≠ "old_keys")
      (hgate : w.gate b = some b₁) (hholds : Holds p b₁.globalNeighborList v key iv g)
      (hpub : (initForwardingTTL p u w b cache g).published = some g') :
      Reaches p o now a call u b₁.key b₁.iv g'

/-- A decryption of a carried frame under the keys it was sent with gives its text,
unless AES does not take the keys. -/
theorem attempt_carried (hp : p.Lawful) {plain key iv : Bytes} {lasthop : String} {g : Frame}
    (h : Carries p o call plain lasthop v key iv g) :
    attempt p key iv (some v.rsaKey.publickey) g =
      if aesAccepts key iv then .ok (plain, true) else .error .valueError := by
  split
  · rename_i haes
    rw [attempt_readable haes (encodedMsg_encoded h.msg) h.sig, hp.decrypt_encrypt,
      hp.verify_sign]
  · rename_i haes
    simp only [attempt, haes]
    rfl

/-- A forwarder that gets to the text of a carried frame with the right keys, current
or old, gets to the text that was sent. -/
theorem decodeStage_carried (hp : p.Lawful) {plain key iv : Bytes} {name : String} {g : Frame}
    {w : Waits} {b b' : Agent} {nb : Bool} {entry : Neighbor} {d : Decoded}
    (h : Carries p o call plain name v key iv g)
    (hlook : b.globalNeighborList.lookup name = some entry)
    (hver : verificationKey u name entry = some v.rsaKey.publickey)
    (hkeys : (entry.encryptionKey = key ∧ entry.encryptionIV = iv) ∨
      (entry.oldEncryptionKey = some key ∧ entry.oldEncryptionIV = some iv ∧
        ∃ wrong, attempt p entry.encryptionKey entry.encryptionIV (some v.rsaKey.publickey) g =
          .ok (wrong, false)))
    (hdec : decodeStage p u w b nb g = (b', .ok d)) :
    d = ⟨name, entry.encryptionKey, entry.encryptionIV, plain⟩ := by
  have hentry : lasthopEntry g b.globalNeighborList = .ok (some (name, entry)) := by
    simp [lasthopEntry, h.lasthop, field, Except.bind, Json.dictKey, hlook]
  have hopen := attempt_carried hp h
  simp only [decodeStage, hentry, hver] at hdec
  rcases hkeys with ⟨rfl, rfl⟩ | ⟨hkey, hiv, wrong, hwrong⟩
  · split at hopen
    · simp only [hopen, Prod.mk.injEq, Except.ok.injEq] at hdec
      exact hdec.2.symm
    · simp only [hopen] at hdec
      cases hdec
  · simp only [hwrong, attemptOld, hkey, hiv] at hdec
    cases nb with
    | false => cases hdec
    | true =>
      split at hopen
      · simp only [hopen, if_true, Prod.mk.injEq, Except.ok.injEq] at hdec
        exact hdec.2.symm
      · simp only [hopen, if_true] at hdec
        cases hdec

/-- A pass publishes a carried frame as one that carries the same text, signed by the
agent and under the key it sends with. -/
theorem pass_carries (hp : p.Lawful) {plain key iv : Bytes} {name : String} {f g : Frame}
    {w : Waits} {b b₁ : Agent} {cache : FwdCache} {entry : Neighbor}
    (h : Carries p o call plain name v key iv f) (hgate : w.gate b = some b₁)
    (hlook : b₁.globalNeighborList.lookup name = some entry)
    (hver : verificationKey u name entry = some v.rsaKey.publickey)
    (hkeys : (entry.encryptionKey = key ∧ entry.encryptionIV = iv) ∨
      (entry.oldEncryptionKey = some key ∧ entry.oldEncryptionIV = some iv ∧
        ∃ wrong, attempt p entry.encryptionKey entry.encryptionIV (some v.rsaKey.publickey) f =
          .ok (wrong, false)))
    (hpub : (initForwardingTTL p u w b cache f).published = some g) :
    aesAccepts (if name = "old_keys" then entry.encryptionKey else b₁.key)
        (if name = "old_keys" then entry.encryptionIV else b₁.iv) = true ∧
      Carries p o call plain u.hostname u
        (if name = "old_keys" then entry.encryptionKey else b₁.key)
        (if name = "old_keys" then entry.encryptionIV else b₁.iv) g := by
  obtain ⟨f', b₁', b₂, nb, d, hfilter, hgate', hmark, hdec, hpass⟩ := published_inv hpub
  obtain rfl := Option.some.inj (hgate.symm.trans hgate')
  obtain ⟨raw, ttl, -, -, -, -, -, rfl⟩ := filterFrame_ok hfilter
  obtain ⟨hlist, hbkey, hbiv, -⟩ := mark_ok hmark
  -- no decryption reads the time to live
  have hf : Carries p o call plain name v key iv { f with ttl := some (.int (ttl - 1)) } :=
    ⟨h.host, h.lasthop, h.receiver, h.msg_type, h.sub_type, h.msg, h.sig⟩
  rw [← hlist] at hlook
  obtain rfl := decodeStage_carried hp hf hlook hver hkeys hdec
  rw [hpass] at hpub
  refine ⟨by simpa only [hbkey, hbiv] using publish_accepts hpub, ?_⟩
  rw [publish_frame hpub, ← hbkey, ← hbiv]
  exact ⟨h.host, rfl, h.receiver, h.msg_type, h.sub_type, rfl, rfl⟩

/-- The signature of an agent's own frame is checked with its own key. -/
theorem verificationKey_sendKeys (o : Identity) (a : Agent) (call : Call) (entry : Neighbor) :
    verificationKey o (call.sendKeys o a).1 entry = some o.rsaKey.publickey := by
  have hname : (call.sendKeys o a).1 = o.hostname ∨
      (call.sendKeys o a).1 = "old_keys" := by
    unfold Call.sendKeys Messaging.sendKeys
    split
    · exact Or.inl rfl
    · exact Or.inr rfl
  rw [verificationKey, if_neg]
  rintro ⟨hhost, hold⟩
  exact hname.elim hhost hold

/-- Every published frame of a call carries what the flooding started with. -/
theorem reaches_carries (hp : p.Lawful) {key iv : Bytes} {g : Frame}
    (h : Reaches p o now a call u key iv g) :
    aesAccepts key iv = true ∧ ∃ plain, Layered p o now a call plain ∧
      Carries p o call plain u.hostname u key iv g := by
  induction h with
  | origin hsend hgate hentry hkey hiv hpub =>
    obtain ⟨plain, hplain, hf⟩ := perform_carries hsend
    obtain ⟨haes, hg⟩ := pass_carries hp hf hgate hentry
      (verificationKey_sendKeys o a call _) (Or.inl ⟨hkey, hiv⟩) hpub
    rw [hkey, hiv] at haes hg
    exact ⟨haes, plain, hplain, hg⟩
  | hop hprev hother hname hgate hholds hpub ih =>
    obtain ⟨-, plain, hplain, hg⟩ := ih
    obtain ⟨entry, hlook, hkey, hkeys⟩ := hholds
    rw [hkey] at hkeys
    have hver : verificationKey _ _ entry = _ := (if_pos ⟨hother, hname⟩).trans hkey
    obtain ⟨haes, hg'⟩ := pass_carries hp hg hgate hlook hver hkeys hpub
    rw [if_neg hname, if_neg hname] at haes hg'
    exact ⟨haes, plain, hplain, hg'⟩

/-- Reading back a text whose letters are ASCII. -/
theorem asciiText_asciiBytes {s : List Char} (h : ∀ c ∈ s, c.toNat < 128) :
    asciiText (asciiBytes s) = s := by
  induction s with
  | nil => rfl
  | cons c s ih =>
    have hc : (UInt8.ofNat c.toNat).toNat = c.toNat := by
      have := h c (by simp)
      rw [UInt8.toNat_ofNat']
      omega
    simp only [asciiText, asciiBytes, List.map_cons, hc, Char.ofNat_toNat] at ih ⊢
    rw [ih (fun d hd => h d (by simp [hd]))]

/-- An ASCII text is all that `unicode` keeps. -/
theorem unicodeText_asciiBytes {s : Text} (h : ∀ c ∈ s, c.toNat < 128) :
    unicodeText (asciiBytes s) = s := by
  have hall : (asciiBytes s).filter (fun b => b < 128) = asciiBytes s := by
    rw [List.filter_eq_self]
    intro b hb
    obtain ⟨c, hc, rfl⟩ := List.mem_map.mp hb
    have := h c hc
    rw [decide_eq_true_eq, UInt8.lt_iff_toNat_lt, UInt8.toNat_ofNat']
    change _ < 128
    omega
  rw [unicodeText, hall, asciiText_asciiBytes h]

theorem nukMessage_length {key iv : Bytes} (hkey : key.length = 16) (hiv : iv.length = 16) :
    (nukMessage key iv).length = 85 := by
  have hhex : ∀ b : Bytes, (hexEncode b).length = 2 * b.length := by
    intro b
    simp [hexEncode, List.length_flatMap]
    omega
  simp [nukMessage, asciiBytes, hhex, hkey, hiv]

/-- RSA-OAEP with a key of 1024 bits takes up to 86 bytes and gives them back. -/
def OaepLawful (p : Platform) : Prop :=
  ∀ k : RsaKey, 2 ^ 1023 ≤ k.n → k.n < 2 ^ 1024 → ∀ m : Bytes,
    (m.length ≤ 86 → ∃ c, p.oaepEncrypt k.publickey m = some c ∧ p.oaepDecrypt k c = some m) ∧
    (86 < m.length → p.oaepEncrypt k.publickey m = none)

/-- What the two ends of a unicast know of each other: for a control message the
originator has the receiver's public key, for a data message the receiver has
recorded the unicast key that the originator sends with. -/
structure Paired (o u : Identity) (call : Call) (a b : Agent) : Prop where
  name : u.hostname ≠ "old_keys"
  ctrl : call.msgType = "ctrl" → 2 ^ 1023 ≤ u.rsaKey.n ∧ u.rsaKey.n < 2 ^ 1024 ∧
    ∀ e, a.globalNeighborList.lookup u.hostname = some e → e.pubKey = some u.rsaKey.publickey
  data : call.msgType = "data" → (b.globalNeighborList.lookup u.hostname).isSome = true ∧
    ∀ e, a.globalNeighborList.lookup u.hostname = some e →
      ∃ r, b.globalNeighborList.lookup o.hostname = some r ∧
        r.unicastRecKey = e.unicastSendKey ∧ r.unicastRecIv = e.unicastSendIv

theorem msgType_cases (call : Call) : call.msgType = "ctrl" ∨ call.msgType = "data" := by
  cases call with
  | sendToNeighbors message ttl => exact Or.inr rfl
  | sendToNeighbor message nodeID => exact Or.inr rfl
  | sendCtrlToNeighbors message sub_type key iv nodeID => exact Or.inl rfl

/-- A broadcast has no inner layer. -/
theorem layered_broadcast {plain : Bytes} (h : Layered p o now a call plain)
    (hall : call.receiver = broadcast) : plain = call.message := by
  simp only [Layered, unicastLayer, hall, ne_eq, not_true_eq_false, false_and, if_false,
    Except.ok.injEq, Option.some.injEq] at h
  exact h.symm

theorem layered_ctrl {plain : Bytes} (h : Layered p o now a call plain)
    (huni : call.receiver ≠ broadcast) (htype : call.msgType = "ctrl")
    (hname : call.receiver ≠ "old_keys") :
    ∃ e k, a.globalNeighborList.lookup call.receiver = some e ∧ e.pubKey = some k ∧
      p.oaepEncrypt k call.message = some plain := by
  have hlook : (storeOldKeys o now a call.keys.1
      call.keys.2).globalNeighborList.lookup call.receiver =
        a.globalNeighborList.lookup call.receiver := by
    unfold storeOldKeys
    split
    · rfl
    · exact AList.lookup_insert_ne hname
  simp only [Layered, unicastLayer, htype, ne_eq, huni, not_false_eq_true, and_self, if_true,
    hlook] at h
  split at h
  · cases h
  · rename_i e he
    split at h
    · cases h
    · rename_i k hk
      split at h
      · cases h
      · rename_i c hc
        simp only [Except.ok.injEq, Option.some.injEq] at h
        exact ⟨e, k, he, hk, h ▸ hc⟩

theorem layered_data {plain : Bytes} (h : Layered p o now a call plain)
    (huni : call.receiver ≠ broadcast) (htype : call.msgType = "data") :
    ∃ e, a.globalNeighborList.lookup call.receiver = some e ∧
      aesAccepts e.unicastSendKey e.unicastSendIv = true ∧
      plain = asciiBytes (encodestring
        (p.encrypt e.unicastSendKey e.unicastSendIv call.message)) := by
  have hstore : storeOldKeys o now a call.keys.1 call.keys.2 = a := by
    cases call with
    | sendToNeighbors message ttl => rfl
    | sendToNeighbor message nodeID => rfl
    | sendCtrlToNeighbors message sub_type key iv nodeID =>
      exact absurd htype (by simp [Call.msgType])
  have hctrl : ("data" = "ctrl") = False := by decide
  simp only [Layered, unicastLayer, htype, hctrl, ne_eq, huni, not_false_eq_true, and_false,
    and_self, if_true, if_false, hstore] at h
  split at h
  · cases h
  · rename_i e he
    split at h
    · rename_i haes
      simp only [Except.ok.injEq, Option.some.injEq] at h
      exact ⟨e, he, haes, h.symm⟩
    · cases h

/-- An agent publishes only broadcasts, unicasts to itself and its own frames. -/
theorem reaches_addressed {key iv : Bytes} {g : Frame} (hp : p.Lawful)
    (h : Reaches p o now a call u key iv g) (hother : u.hostname ≠ o.hostname) :
    call.receiver = broadcast ∨ call.receiver = u.hostname := by
  cases h with
  | origin => exact absurd rfl hother
  | hop hprev hne hname hgate hholds hpub =>
    obtain ⟨-, plain, -, hg⟩ := reaches_carries hp hprev
    obtain ⟨f', b₁, b₂, nb, d, hfilter, -⟩ := published_inv hpub
    obtain ⟨raw, ttl, -, -, -, -, haddr, -⟩ := filterFrame_ok hfilter
    simp only [addressed, hg.host, field, hg.receiver, Except.map, Json.isStr, beq_iff_eq,
      if_neg hother.symm, Except.ok.injEq, Bool.or_eq_true] at haddr
    exact haddr

/-- What the receiver's inner layer makes of the text that has come with the frame. -/
theorem unwrapUnicast_layered (hp : p.Lawful) (hoaep : OaepLawful p) {plain key iv : Bytes}
    {lasthop : String} {g : Frame} {b : Agent} (hplain : Layered p o now a call plain)
    (hg : Carries p o call plain lasthop v key iv g)
    (haddr : call.receiver = broadcast ∨ call.receiver = u.hostname)
    (hpair : call.receiver ≠ broadcast → Paired o u call a b) :
    unwrapUnicast p u b g plain = .ok (some call.message) := by
  by_cases hall : call.receiver = broadcast
  · have hto : toMe u g = false := by simp [toMe, hg.receiver, Json.isStr, hall]
    rw [unwrapUnicast_flooded hg.receiver hto, layered_broadcast hplain hall]
  · have hme : call.receiver = u.hostname := haddr.resolve_left hall
    have hto : toMe u g = true := by
      simp [toMe, hg.receiver, Json.isStr, hall, ← hme]
    have hknow := hpair hall
    rcases msgType_cases call with htype | htype
    · -- a control message comes under the receiver's public key
      obtain ⟨e, k, he, hk, hc⟩ := layered_ctrl hplain hall htype (hme ▸ hknow.name)
      obtain ⟨hlow, hhigh, hpk⟩ := hknow.ctrl htype
      obtain rfl := Option.some.inj (hk.symm.trans (hpk e (hme ▸ he)))
      have hfits : call.message.length ≤ 86 := by
        by_contra hlong
        rw [(hoaep u.rsaKey hlow hhigh _).2 (by omega)] at hc
        cases hc
      obtain ⟨c, hc', hopen⟩ := (hoaep u.rsaKey hlow hhigh _).1 hfits
      obtain rfl := Option.some.inj (hc.symm.trans hc')
      rw [unwrapUnicast_ctrl hg.receiver hto (hg.msg_type.trans (by rw [htype])), hopen]
    · -- a data message comes under the unicast key, as base64 text
      obtain ⟨e, he, haes, rfl⟩ := layered_data hplain hall htype
      obtain ⟨hself, hkeys⟩ := hknow.data htype
      obtain ⟨r, hr, hkey, hiv⟩ := hkeys e (hme ▸ he)
      have hne : e.unicastSendKey ≠ [] := (ne_nil_of_aesAccepts haes).1
      have hctrl : (Json.str "data").isStr "ctrl" = false := by decide
      have hdata : (Json.str "data").isStr "data" = true := rfl
      simp only [unwrapUnicast, hg.receiver, field, bind, Except.bind,
        unicast_of_toMe hg.receiver hto, hg.msg_type, htype, hctrl, hdata, hself,
        asciiText_asciiBytes (Base64.encodestring_ascii _), Base64.decodestring_encodestring,
        hg.host, hr, hkey, hiv, hne, haes, hp.decrypt_encrypt, Bool.false_eq_true, if_false,
        Bool.and_self, if_true]
      rfl

/-- `rxCbInternal` calls an application with the value it has read, if with any. -/
theorem rxCbInternal_called {world : World} {b : Agent} {g : Frame} {text : Text} {j w : Json}
    {ns : String} (hloads : world.loads text = some j)
    (h : (rxCbInternal world b g text).called = some (ns, w)) : w = j := by
  unfold rxCbInternal at h
  simp only [hloads] at h
  split at h
  · cases h
  · split at h
    · split at h
      · cases h
      · simp only [Option.some.injEq, Prod.mk.injEq] at h
        exact h.2.symm
    · cases h
  · cases h

/-- A registered application is called with the value whose name space it is. -/
theorem rxCbInternal_calls {world : World} {b : Agent} {g : Frame} {text : Text} {j : Json}
    {ns : String} (hhost : GoodHost g) (hloads : world.loads text = some j)
    (hns : getItem "NS" j = .ok (.str ns)) (hreg : ns ∈ b.globalAppList)
    (hascii : ∀ c ∈ ns.toList, c.toNat < 128) :
    (rxCbInternal world b g text).called = some (ns, j) := by
  obtain ⟨host, key, hf, hkey, hprint⟩ := hhost
  have hj : j.printable = .ok () := by
    cases j with
    | obj fields => rfl
    | _ => cases hns
  have hnsp : (Json.str ns).printable = .ok () := by
    simp only [Json.printable]
    rw [if_pos (by simpa using hascii)]
  obtain ⟨r, hr⟩ : ∃ r, entryAt g.host b.globalNeighborList = .ok r := by
    rcases known_cases b ⟨host, key, hf, hkey, hprint⟩ with ⟨h, -⟩ | ⟨name, e, h, -⟩
    · exact ⟨_, h⟩
    · exact ⟨_, h⟩
  simp only [rxCbInternal, hloads, hr]
  simp only [hf, field, bind, Except.bind, hprint, hj, hns, Json.dictKey, pure, Except.pure, hreg,
    if_true, hnsp]

/-- The receive thread of an agent whose forwarder has just published the frame. -/
theorem receiveMessage_carried (hp : p.Lawful) (hoaep : OaepLawful p) {plain : Bytes} {g : Frame}
    {lasthop : String} {b : Agent} (haes : aesAccepts b.key b.iv = true)
    (hplain : Layered p o now a call plain) (hg : Carries p o call plain lasthop u b.key b.iv g)
    (hother : u.hostname ≠ o.hostname)
    (haddr : call.receiver = broadcast ∨ call.receiver = u.hostname)
    (hpair : call.receiver ≠ broadcast → Paired o u call a b) :
    receiveMessage p u b g = (if call.msgType = "ctrl" then .ctrl call.message
      else .callback call.message) := by
  have hopen : openedText p u b g = some plain := by
    rw [openedText, attempt_carried hp hg, if_pos haes]
  have hown : (Json.str o.hostname).isStr u.hostname = false := by
    simpa [Json.isStr] using hother.symm
  rw [receiveMessage_opened hg.host hown hopen,
    unwrapUnicast_layered hp hoaep hplain hg haddr hpair]
  simp [classified, hg.msg_type, Json.isStr]

theorem reaches_published {key iv : Bytes} {g : Frame} (h : Reaches p o now a call u key iv g) :
    Published p u g := by
  cases h with
  | origin hsend hgate hentry hkey hiv hpub => exact ⟨_, _, _, _, hpub⟩
  | hop hprev hother hname hgate hholds hpub => exact ⟨_, _, _, _, hpub⟩

/-- What arrives is what was sent: at every agent that a message has reached, the
receive thread, while the keys the frame was published under are still the
agent's, gets to the message itself, whatever its kind and however long the
path; a JSON value in it is given to the application it is meant for. The answer
to a key request is never too long for its RSA layer. -/
theorem payload_preserved (hp : p.Lawful) (hoaep : OaepLawful p) {key iv : Bytes} {g : Frame}
    {b : Agent} (hreach : Reaches p o now a call u key iv g) (hother : u.hostname ≠ o.hostname)
    (hkey : b.key = key) (hiv : b.iv = iv)
    (hpair : call.receiver ≠ broadcast → Paired o u call a b) :
    receiveMessage p u b g = (if call.msgType = "ctrl" then .ctrl call.message
      else .callback call.message) ∧
    (∀ world text, call.message = asciiBytes text → (∀ c ∈ text, c.toNat < 128) →
      receiveRound p world u b g = (if call.msgType = "ctrl" then
          handleCtrl p world u (Agent.setNeighborMessage b true) g text
        else rxCbInternal world (Agent.setNeighborMessage b true) g text) ∧
      ∀ j, call.msgType = "data" → world.loads text = some j →
        (∀ ns w, (receiveRound p world u b g).called = some (ns, w) → w = j) ∧
        ∀ ns, getItem "NS" j = .ok (.str ns) → ns ∈ b.globalAppList →
          (∀ c ∈ ns.toList, c.toNat < 128) →
          (receiveRound p world u b g).called = some (ns, j)) ∧
    ∀ k i : Bytes, k.length = 16 → i.length = 16 → (nukMessage k i).length ≤ 86 := by
  obtain ⟨haes, plain, hplain, hg⟩ := reaches_carries hp hreach
  subst hkey hiv
  have hrec := receiveMessage_carried hp hoaep haes hplain hg hother
    (reaches_addressed hp hreach hother) hpair
  refine ⟨hrec, ?_, ?_⟩
  · intro world text hmsg hascii
    have hround : receiveRound p world u b g = (if call.msgType = "ctrl" then
          handleCtrl p world u (Agent.setNeighborMessage b true) g text
        else rxCbInternal world (Agent.setNeighborMessage b true) g text) := by
      rw [receiveRound_eq, hrec]
      split
      · simp [handleText, hg.sub_type, hmsg, unicodeText_asciiBytes hascii]
      · simp [handleText, hmsg, unicodeText_asciiBytes hascii]
    refine ⟨hround, ?_⟩
    intro j hdata hloads
    have hctrl : call.msgType ≠ "ctrl" := by
      rw [hdata]
      decide
    rw [hround, if_neg hctrl]
    refine ⟨fun ns w hcalled => rxCbInternal_called hloads hcalled, ?_⟩
    intro ns hns hreg hnsAscii
    exact rxCbInternal_calls (published_readable (reaches_published hreach)).1 hloads hns hreg
      hnsAscii
  · intro k i hk hi
    rw [nukMessage_length hk hi]
    omega

/-- Three agents in a line, and one more with an RSA key of full size. The group key
of an agent is made of its number. -/
def lineNode : ℕ → Identity
  | 0 => ⟨"10.0.0.1", ⟨33, 3, 7⟩⟩
  | 1 => ⟨"10.0.0.2", ⟨55, 3, 27⟩⟩
  | 2 => ⟨"10.0.0.3", ⟨77, 3, 43⟩⟩
  | _ => ⟨"10.0.0.4", ⟨2 ^ 1023 + 1, 3, 7⟩⟩

def lineKey (i : ℕ) : Bytes := List.replicate 16 (UInt8.ofNat i)

def lineEntry (i : ℕ) : Neighbor :=
  { ipAddress := (lineNode i).hostname, encryptionKey := lineKey i, encryptionIV := lineKey i,
    pubKey := some (lineNode i).rsaKey.publickey, timestampLastKCM := 0 }

/-- The agent `i`, which knows the agent `j`. -/
def lineAgent (i j : ℕ) : Agent where
  key := lineKey i
  iv := lineKey i
  globalNeighborList := AList.insert (lineNode j).hostname (lineEntry j) ∅
  globalAppList := ["app"]

/-- The frame of `call` as the agent `i` of the line publishes it. -/
def lineFrame (call : Call) (plain : Bytes) (i : ℕ) (ttl : ℤ) : Frame :=
  { initialFrame listPlatform (lineNode i) (lineNode i).hostname (lineKey i) (lineKey i) 1 ttl
      call.msgType call.subType call.receiver plain with
    host := some (.str "10.0.0.1") }

def appText : Text := "\x7b\"NS\": \"app\"\x7d".toList

def appCall : Call := .sendToNeighbors (asciiBytes appText) 2

theorem appCall_reaches : Reaches listPlatform (lineNode 0) 0 (lineAgent 0 0) appCall (lineNode 2)
    (lineKey 2) (lineKey 2) (lineFrame appCall (asciiBytes appText) 2 1) := by
  have hfirst : (initForwardingTTL listPlatform (lineNode 0) quietWaits (lineAgent 0 0) ∅
      (lineFrame appCall (asciiBytes appText) 0 4)).published =
        some (lineFrame appCall (asciiBytes appText) 0 3) := rfl
  have hsecond : (initForwardingTTL listPlatform (lineNode 1) quietWaits (lineAgent 1 0) ∅
      (lineFrame appCall (asciiBytes appText) 0 3)).published =
        some (lineFrame appCall (asciiBytes appText) 1 2) := rfl
  have hthird : (initForwardingTTL listPlatform (lineNode 2) quietWaits (lineAgent 2 1) ∅
      (lineFrame appCall (asciiBytes appText) 1 2)).published =
        some (lineFrame appCall (asciiBytes appText) 2 1) := rfl
  have horigin : Reaches listPlatform (lineNode 0) 0 (lineAgent 0 0) appCall (lineNode 0)
      (lineKey 0) (lineKey 0) (lineFrame appCall (asciiBytes appText) 0 3) :=
    Reaches.origin rfl rfl rfl rfl rfl hfirst
  have hnext : Reaches listPlatform (lineNode 0) 0 (lineAgent 0 0) appCall (lineNode 1)
      (lineKey 1) (lineKey 1) (lineFrame appCall (asciiBytes appText) 1 2) :=
    Reaches.hop horigin (by decide) (by decide) rfl
      ⟨lineEntry 0, rfl, rfl, Or.inl ⟨rfl, rfl⟩⟩ hsecond
  exact Reaches.hop hnext (by decide) (by decide) rfl
    ⟨lineEntry 1, rfl, rfl, Or.inl ⟨rfl, rfl⟩⟩ hthird

/-- The answer to a key request of the fourth agent. -/
def nukText : Bytes := nukMessage (lineKey 5) (lineKey 6)

def nukCall : Call := .sendCtrlToNeighbors nukText "nuk" [] [] "10.0.0.4"

def nukAgent : Agent :=
  { lineAgent 0 0 with
    globalNeighborList := AList.insert (lineNode 3).hostname (lineEntry 3)
      (lineAgent 0 0).globalNeighborList }

set_option maxRecDepth 4000 in
theorem nukCall_reaches : Reaches listPlatform (lineNode 0) 0 nukAgent nukCall (lineNode 3)
    (lineKey 3) (lineKey 3) (lineFrame nukCall nukText 3 1) := by
  have hfirst : (initForwardingTTL listPlatform (lineNode 0) quietWaits nukAgent ∅
      (lineFrame nukCall nukText 0 3)).published = some (lineFrame nukCall nukText 0 2) := rfl
  have hsecond : (initForwardingTTL listPlatform (lineNode 3) quietWaits (lineAgent 3 0) ∅
      (lineFrame nukCall nukText 0 2)).published = some (lineFrame nukCall nukText 3 1) := rfl
  have horigin : Reaches listPlatform (lineNode 0) 0 nukAgent nukCall (lineNode 0)
      (lineKey 0) (lineKey 0) (lineFrame nukCall nukText 0 2) :=
    Reaches.origin rfl rfl rfl rfl rfl hfirst
  exact Reaches.hop horigin (by decide) (by decide) rfl
    ⟨lineEntry 0, rfl, rfl, Or.inl ⟨rfl, rfl⟩⟩ hsecond

theorem listPlatform_oaep : OaepLawful listPlatform := by
  intro k hlow hhigh m
  constructor
  · intro hm
    exact ⟨m, if_pos hm, rfl⟩
  · intro hm
    exact if_neg (by omega)

/-- A world whose parser reads the one text that is used here. -/
def appWorld : World where
  now := 0
  kcmWait := some
  sendWait := some
  loads text := if text = appText then some (.obj [("NS", .str "app")]) else none
  freshKeys := (sampleKey, sampleKey)
  rx_cb _ _ := true
  outside := quietOutside

theorem payload_preserved_line :
    (receiveRound listPlatform appWorld (lineNode 2) (lineAgent 2 1)
        (lineFrame appCall (asciiBytes appText) 2 1)).called =
      some ("app", .obj [("NS", .str "app")]) ∧
    receiveMessage listPlatform (lineNode 3) (lineAgent 3 0) (lineFrame nukCall nukText 3 1) =
      .ctrl nukText := by
  have hascii : appText.all (fun c => c.toNat < 128) = true := by decide
  have hname : "app".toList.all (fun c => c.toNat < 128) = true := by decide
  have happ := (payload_preserved listPlatform_lawful listPlatform_oaep (b := lineAgent 2 1)
    appCall_reaches (by decide) rfl rfl (fun h => absurd rfl h)).2.1 appWorld appText rfl
    (forall_of_all hascii)
  have hpair : Paired (lineNode 0) (lineNode 3) nukCall nukAgent (lineAgent 3 0) := by
    refine ⟨by decide, fun _ => ⟨by decide +kernel, by decide +kernel, ?_⟩, fun h => ?_⟩
    · intro e he
      obtain rfl : lineEntry 3 = e := Option.some.inj he
      rfl
    · exact absurd h (by decide)
  have hnuk := (payload_preserved listPlatform_lawful listPlatform_oaep (b := lineAgent 3 0)
    nukCall_reaches (by decide) rfl rfl (fun _ => hpair)).1
  have hloads : appWorld.loads appText = some (.obj [("NS", .str "app")]) := by
    simp only [appWorld, if_true]
  exact ⟨(happ.2 _ rfl hloads).2 "app" rfl (by decide)
    (forall_of_all hname), hnuk⟩

end Nxwlan.PayloadPaths
