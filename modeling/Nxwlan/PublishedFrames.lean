import Nxwlan.Forwarder

/-!
What a published frame has been through. A frame leaves the forwarder only if
it passed the filters and one of the decryptions verified; the third one, which
repeats the first with the same key, can never be the one that does.
-/
namespace Nxwlan.PublishedFrames

open JsonFrames AgentState Forwarder
open Base64 (Bytes encodestring)

variable {p : Platform} {me : Identity} {w : Waits} {a : Agent} {cache : FwdCache}

/-- The filters let a frame through only with its time to live counted down to
at least one, unseen, and addressed to this agent. -/
theorem filterFrame_ok {f g : Frame} (h : filterFrame p me cache f = .ok g) :
    ∃ raw ttl, f.ttl = some raw ∧ raw.toInt = .ok ttl ∧ 1 ≤ ttl - 1 ∧
      seen p cache f = .ok false ∧ addressed me f = .ok true ∧
      g = { f with ttl := some (.int (ttl - 1)) } := by
  unfold filterFrame at h
  cases hraw : f.ttl with
  | none => simp [hraw, field, Except.bind] at h
  | some raw =>
    cases hint : raw.toInt with
    | error e => simp [hraw, field, Except.bind, hint] at h
    | ok ttl =>
      simp only [hraw, field, Except.bind, hint] at h
      split at h
      · cases h
      · rename_i hpos
        split at h
        · cases h
        · cases h
        · rename_i hseen
          split at h
          · cases h
          · cases h
          · rename_i haddr
            refine ⟨raw, ttl, rfl, hint, by omega, hseen, haddr, ?_⟩
            simpa only [hraw] using (Except.ok.inj h).symm

/-- A message encoded for the wire decodes to its encryption. -/
theorem encodedMsg_encoded {f : Frame} {b : Bytes}
    (h : f.msg = some (.str (String.ofList (encodestring b)))) : encodedMsg f = .ok b := by
  have hascii : (encodestring b).all (fun c => decide (c.toNat < 128)) = true := by
    simpa using Base64.encodestring_ascii b
  simp [encodedMsg, field, h, hascii, Base64.decodestring_encodestring]

/-- Decryption under `key` and `iv` gives `plain`, and the frame's signature
verifies for it under `pub`. -/
def Verified (p : Platform) (key iv : Bytes) (pub : RsaPublicKey) (f : Frame)
    (plain : Bytes) : Prop :=
  ∃ enc sig, encodedMsg f = .ok enc ∧ plain = p.decrypt key iv enc ∧ f.sig = some sig ∧
    p.verify pub (p.sha1 plain) sig = true

/-- An attempt with keys of the right size on a readable frame does not raise. -/
theorem attempt_readable {key iv enc : Bytes} {sig : Json} {pub : RsaPublicKey} {f : Frame}
    (haes : aesAccepts key iv = true) (henc : encodedMsg f = .ok enc) (hsig : f.sig = some sig) :
    attempt p key iv (some pub) f =
      .ok (p.decrypt key iv enc, p.verify pub (p.sha1 (p.decrypt key iv enc)) sig) := by
  simp [attempt, haes, henc, hsig, field]

theorem attempt_true {key iv plain : Bytes} {pubKey : Option RsaPublicKey} {f : Frame}
    (h : attempt p key iv pubKey f = .ok (plain, true)) :
    ∃ pub, pubKey = some pub ∧ Verified p key iv pub f plain := by
  unfold attempt at h
  split at h
  · split at h
    · cases h
    · rename_i enc henc
      split at h
      · cases h
      · cases h
      · rename_i sig k hsig
        simp only [Except.ok.injEq, Prod.mk.injEq] at h
        obtain ⟨hplain, hverify⟩ := h
        refine ⟨k, rfl, enc, sig, henc, hplain.symm, field_ok.mp hsig, ?_⟩
        rw [← hplain]
        exact hverify
  · cases h

theorem attemptOld_true {plain : Bytes} {pubKey : Option RsaPublicKey} {entry : Neighbor}
    {f : Frame} (h : attemptOld p pubKey entry f = .ok (plain, true)) :
    ∃ key iv pub, entry.oldEncryptionKey = some key ∧ entry.oldEncryptionIV = some iv ∧
      pubKey = some pub ∧ Verified p key iv pub f plain := by
  unfold attemptOld at h
  split at h
  · rename_i key iv hkey hiv
    obtain ⟨pub, hpub, hver⟩ := attempt_true h
    exact ⟨key, iv, pub, hkey, hiv, hpub, hver⟩
  · simp at h

/-- The plain text is a decryption of the frame under the current or the old key
that `list` records for the frame's last hop, and its signature verifies under
the public key that belongs to that last hop. -/
def Authentic (p : Platform) (me : Identity) (list : NeighborList) (f : Frame)
    (plain : Bytes) : Prop :=
  ∃ name entry key iv pub, f.lasthop = some (.str name) ∧ list.lookup name = some entry ∧
    ((key = entry.encryptionKey ∧ iv = entry.encryptionIV) ∨
      (entry.oldEncryptionKey = some key ∧ entry.oldEncryptionIV = some iv)) ∧
    verificationKey me name entry = some pub ∧ Verified p key iv pub f plain

theorem lasthopEntry_some {f : Frame} {list : NeighborList} {name : String} {entry : Neighbor}
    (h : lasthopEntry f list = .ok (some (name, entry))) :
    f.lasthop = some (.str name) ∧ list.lookup name = some entry := by
  unfold lasthopEntry at h
  cases hl : f.lasthop with
  | none => simp [hl, field, Except.bind] at h
  | some j =>
    simp only [hl, field, Except.bind] at h
    cases j with
    | str s =>
      simp only [Json.dictKey, Except.ok.injEq, Option.map_eq_some_iff, Prod.mk.injEq] at h
      obtain ⟨e, he, hs, hentry⟩ := h
      subst hs
      subst hentry
      exact ⟨rfl, he⟩
    | null => simp [Json.dictKey] at h
    | bool b => simp [Json.dictKey] at h
    | int i => simp [Json.dictKey] at h
    | float q => simp [Json.dictKey] at h
    | arr l => simp [Json.dictKey] at h
    | obj l => simp [Json.dictKey] at h

/-- A retry that follows a failed first decryption fails again. -/
theorem retryStage_not_ok {f : Frame} {name : String} {entry : Neighbor} {plain : Bytes}
    {a' : Agent} {d : Decoded}
    (hfirst : attempt p entry.encryptionKey entry.encryptionIV
      (verificationKey me name entry) f = .ok (plain, false)) :
    retryStage p me w a f name entry ≠ (a', .ok d) := by
  unfold retryStage
  intro h
  split at h
  · simp at h
  · simp [hfirst] at h

/-- A decoded plain text is authentic with respect to the table that was read,
and the agent's state has not changed since. -/
theorem decodeStage_ok {f : Frame} {nb : Bool} {a' : Agent} {d : Decoded}
    (h : decodeStage p me w a nb f = (a', .ok d)) :
    a' = a ∧ f.lasthop = some (.str d.lasthop) ∧
      (∃ entry, a.globalNeighborList.lookup d.lasthop = some entry ∧
        d.key = entry.encryptionKey ∧ d.iv = entry.encryptionIV) ∧
      Authentic p me a.globalNeighborList f d.plain := by
  unfold decodeStage at h
  split at h
  · simp at h
  · simp at h
  · rename_i name entry hentry
    obtain ⟨hlast, hlook⟩ := lasthopEntry_some hentry
    rcases hfirst : attempt p entry.encryptionKey entry.encryptionIV
      (verificationKey me name entry) f with e | ⟨plain, ok⟩
    · simp [hfirst] at h
    · cases ok with
      | true =>
        simp only [hfirst, Prod.mk.injEq, Except.ok.injEq] at h
        obtain ⟨rfl, rfl⟩ := h
        obtain ⟨pub, hpub, hver⟩ := attempt_true hfirst
        exact ⟨rfl, hlast, ⟨entry, hlook, rfl, rfl⟩,
          name, entry, _, _, pub, hlast, hlook, Or.inl ⟨rfl, rfl⟩, hpub, hver⟩
      | false =>
        simp only [hfirst] at h
        split at h
        · split at h
          · simp at h
          · rename_i old hold
            simp only [Prod.mk.injEq, Except.ok.injEq] at h
            obtain ⟨rfl, rfl⟩ := h
            obtain ⟨key, iv, pub, hkey, hiv, hpub, hver⟩ := attemptOld_true hold
            exact ⟨rfl, hlast, ⟨entry, hlook, rfl, rfl⟩,
              name, entry, key, iv, pub, hlast, hlook, Or.inr ⟨hkey, hiv⟩, hpub, hver⟩
          · exact absurd h (retryStage_not_ok hfirst)
        · simp at h

/-- Whether a frame is a neighbor's: it does not bear the agent's name. -/
def foreign (me : Identity) (f : Frame) : Bool := !f.host.any (fun host => host.isStr me.hostname)

/-- Marking a frame touches the agent's events only. -/
theorem mark_ok {f : Frame} {nb : Bool} {a' : Agent} (h : mark me f a = .ok (nb, a')) :
    a'.globalNeighborList = a.globalNeighborList ∧ a'.key = a.key ∧ a'.iv = a.iv ∧
      ∃ host, f.host = some host ∧ nb = !host.isStr me.hostname := by
  unfold mark at h
  simp only [bind, Except.bind, pure, Except.pure] at h
  split at h
  · cases h
  · split at h
    · cases h
    · split at h
      · cases h
      · rename_i host hhost
        split at h
        · cases h
        · split at h
          · rename_i hown
            simp only [Except.ok.injEq, Prod.mk.injEq] at h
            obtain ⟨rfl, rfl⟩ := h
            exact ⟨rfl, rfl, rfl, host, field_ok.mp hhost, by simp [hown]⟩
          · rename_i hown
            simp only [Except.ok.injEq, Prod.mk.injEq] at h
            obtain ⟨rfl, rfl⟩ := h
            exact ⟨rfl, rfl, rfl, host, field_ok.mp hhost, by simp [hown]⟩

/-- Everything a pass that publishes has done. -/
theorem published_inv {f g : Frame}
    (h : (initForwardingTTL p me w a cache f).published = some g) :
    ∃ f' a₁ a₂ nb d, filterFrame p me cache f = .ok f' ∧ w.gate a = some a₁ ∧
      mark me f' a₁ = .ok (nb, a₂) ∧ decodeStage p me w a₂ nb f' = (a₂, .ok d) ∧
      initForwardingTTL p me w a cache f = publish p me a₂ cache nb d f' := by
  unfold initForwardingTTL at h ⊢
  split at h
  · simp at h
  · rename_i f' hfilter
    split at h
    · simp at h
    · rename_i a₁ hgate
      split at h
      · simp at h
      · rename_i nb a₂ hmark
        split at h
        · simp at h
        · rename_i a₃ d hdecode
          obtain ⟨rfl, -⟩ := decodeStage_ok hdecode
          exact ⟨f', a₁, a₃, nb, d, hfilter, hgate, hmark, hdecode, rfl⟩

/-- The table with one entry's counters changed. -/
def recount (list : NeighborList) (name : String) (entry : Neighbor) (lost success : ℕ) :
    NeighborList :=
  list.insert name { entry with lostMessages := lost, rxStatsSuccess := success }

theorem authentic_recount {list : NeighborList} {name : String} {entry : Neighbor}
    {f : Frame} {plain : Bytes} (lost success : ℕ) (hentry : list.lookup name = some entry)
    (h : Authentic p me list f plain) :
    Authentic p me (recount list name entry lost success) f plain := by
  obtain ⟨name', entry', key, iv, pub, hlast, hlook, hkeys, hpub, hver⟩ := h
  by_cases hn : name' = name
  · subst hn
    have heq : entry' = entry := Option.some.inj (hlook.symm.trans hentry)
    subst heq
    exact ⟨name', _, key, iv, pub, hlast, AList.lookup_insert _, hkeys, hpub, hver⟩
  · refine ⟨name', entry', key, iv, pub, hlast, ?_, hkeys, hpub, hver⟩
    unfold recount
    rw [AList.lookup_insert_ne hn]
    exact hlook

/-- The counting in front of a publication changes at most the counters of the last
hop's entry. -/
theorem counted_list {nb : Bool} {name : String} {b : Agent}
    (h : (if nb then countSuccess a name else .ok a) = .ok b) :
    b.globalNeighborList = a.globalNeighborList ∨
      ∃ entry lost success, a.globalNeighborList.lookup name = some entry ∧
        b.globalNeighborList = recount a.globalNeighborList name entry lost success := by
  cases nb with
  | false =>
    obtain rfl := Except.ok.inj h
    exact Or.inl rfl
  | true =>
    rw [if_pos rfl, countSuccess] at h
    split at h
    · cases h
    · rename_i entry hlook
      obtain rfl := Except.ok.inj h
      exact Or.inr ⟨entry, 0, entry.rxStatsSuccess + 1, hlook, rfl⟩

/-- The last stage raises before it sends, or sends the re-encoded frame and then
raises because the cache cannot be written, or goes through. -/
theorem publish_cases (p : Platform) (me : Identity) (a : Agent) (cache : FwdCache) (nb : Bool)
    (d : Decoded) (f : Frame) :
    (∃ e, publish p me a cache nb d f =
      { agent := a, cache := cache, stop := some (.raised e) }) ∨
    ∃ b sendKey sendIv, (if nb then countSuccess a d.lasthop else .ok a) = .ok b ∧
      sendKey = (if d.lasthop = "old_keys" then d.key else a.key) ∧
      sendIv = (if d.lasthop = "old_keys" then d.iv else a.iv) ∧
      ((∃ e, remember cache f = .error e ∧ publish p me a cache nb d f =
          { agent := b, cache := cache, stop := some (.raised e),
            published := some (republished p me sendKey sendIv d.plain f) }) ∨
        ∃ cache', remember cache f = .ok cache' ∧ publish p me a cache nb d f =
          { agent := if nb then b else Agent.releaseSenders b, cache := cache',
            published := some (republished p me sendKey sendIv d.plain f) }) := by
  unfold publish
  generalize hkey : (if d.lasthop = "old_keys" then d.key else a.key) = sendKey
  generalize hiv : (if d.lasthop = "old_keys" then d.iv else a.iv) = sendIv
  by_cases haes : aesAccepts sendKey sendIv
  · simp only [haes, if_true]
    cases hcount : (if nb then countSuccess a d.lasthop else .ok a) with
    | error e => exact Or.inl ⟨e, rfl⟩
    | ok b =>
      refine Or.inr ⟨b, sendKey, sendIv, rfl, rfl, rfl, ?_⟩
      cases hrem : remember cache f with
      | error e => exact Or.inl ⟨e, rfl, rfl⟩
      | ok cache' => exact Or.inr ⟨cache', rfl, rfl⟩
  · simp only [haes]
    exact Or.inl ⟨_, rfl⟩

/-- What is published was encrypted under a key and a vector that AES takes. -/
theorem publish_accepts {nb : Bool} {d : Decoded} {f g : Frame}
    (h : (publish p me a cache nb d f).published = some g) :
    aesAccepts (if d.lasthop = "old_keys" then d.key else a.key)
      (if d.lasthop = "old_keys" then d.iv else a.iv) = true := by
  by_contra haes
  simp only [publish, haes] at h
  cases h

/-- The frame that is sent on, with the keys it is sent under. -/
theorem publish_frame {nb : Bool} {d : Decoded} {f g : Frame}
    (h : (publish p me a cache nb d f).published = some g) :
    g = republished p me (if d.lasthop = "old_keys" then d.key else a.key)
      (if d.lasthop = "old_keys" then d.iv else a.iv) d.plain f := by
  rcases publish_cases p me a cache nb d f with
    ⟨e, hpass⟩ | ⟨b, sendKey, sendIv, -, rfl, rfl, ⟨e, -, hpass⟩ | ⟨cache', -, hpass⟩⟩
  · rw [hpass] at h
    cases h
  · rw [hpass] at h
    exact (Option.some.inj h).symm
  · rw [hpass] at h
    exact (Option.some.inj h).symm

/-- A publication sends the re-encoded frame, then writes the cache, and changes
nothing else but counters and events. -/
theorem publish_some {nb : Bool} {d : Decoded} {f g : Frame}
    (h : (publish p me a cache nb d f).published = some g) :
    (∃ sendKey sendIv, g = republished p me sendKey sendIv d.plain f) ∧
      (∀ cache', remember cache f = .ok cache' →
        (publish p me a cache nb d f).cache = cache') ∧
      ((publish p me a cache nb d f).agent.globalNeighborList = a.globalNeighborList ∨
        ∃ entry lost success, a.globalNeighborList.lookup d.lasthop = some entry ∧
          (publish p me a cache nb d f).agent.globalNeighborList =
            recount a.globalNeighborList d.lasthop entry lost success) := by
  rcases publish_cases p me a cache nb d f with
    ⟨e, hpass⟩ | ⟨b, sendKey, sendIv, hcount, -, -, ⟨e, hrem, hpass⟩ | ⟨cache', hrem, hpass⟩⟩
  · rw [hpass] at h
    cases h
  · rw [hpass] at h ⊢
    refine ⟨⟨_, _, (Option.some.inj h).symm⟩, ?_, counted_list hcount⟩
    intro cache' hrem'
    rw [hrem] at hrem'
    cases hrem'
  · rw [hpass] at h ⊢
    refine ⟨⟨_, _, (Option.some.inj h).symm⟩, ?_, ?_⟩
    · intro cache'' hrem'
      exact Except.ok.inj (hrem.symm.trans hrem')
    · -- setting the senders' events leaves the table alone
      have hlist := counted_list hcount
      cases nb with
      | false => exact hlist
      | true => exact hlist

theorem publish_none {nb : Bool} {d : Decoded} {f : Frame}
    (h : (publish p me a cache nb d f).published = none) :
    (publish p me a cache nb d f).cache = cache := by
  rcases publish_cases p me a cache nb d f with
    ⟨e, hpass⟩ | ⟨b, sendKey, sendIv, -, -, -, ⟨e, -, hpass⟩ | ⟨cache', -, hpass⟩⟩
  · rw [hpass]
  · rw [hpass]
  · rw [hpass] at h
    cases h

/-- A pass that publishes nothing leaves the cache as it was. -/
theorem cache_of_unpublished {f : Frame}
    (h : (initForwardingTTL p me w a cache f).published = none) :
    (initForwardingTTL p me w a cache f).cache = cache := by
  unfold initForwardingTTL at h ⊢
  split at h
  · rfl
  · split at h
    · rfl
    · split at h
      · rfl
      · split at h
        · rfl
        · exact publish_none h

/-- What a published frame keeps of the frame received, and what its time to
live and its addressee were. -/
theorem published_fields {f g : Frame}
    (h : (initForwardingTTL p me w a cache f).published = some g) :
    g.host = f.host ∧ g.id = f.id ∧ g.receiver = f.receiver ∧ addressed me f = .ok true ∧
      ∃ raw ttl, f.ttl = some raw ∧ raw.toInt = .ok ttl ∧ g.ttl = some (.int (ttl - 1)) ∧
        1 ≤ ttl - 1 := by
  obtain ⟨f', a₁, a₂, nb, d, hfilter, hgate, hmark, hdecode, hpass⟩ := published_inv h
  obtain ⟨raw, ttl, hraw, hint, hpos, -, haddr, rfl⟩ := filterFrame_ok hfilter
  rw [hpass] at h
  obtain ⟨⟨sendKey, sendIv, rfl⟩, -, -⟩ := publish_some h
  exact ⟨rfl, rfl, rfl, haddr, raw, ttl, hraw, hint, rfl, hpos⟩

/-- Authenticated publication. If a pass publishes, what it signs and encrypts
anew is a decryption under a key recorded for the claimed last hop, and the
received signature verified for exactly that text; the record was there when
the first waits returned and still is when the frame is sent. Otherwise the
cache is as before. -/
theorem publication_authenticated (p : Platform) (me : Identity) (w : Waits) (a : Agent)
    (cache : FwdCache) (f : Frame) :
    (∀ g, (initForwardingTTL p me w a cache f).published = some g →
      ∃ a₁ plain sendKey sendIv, w.gate a = some a₁ ∧
        Authentic p me a₁.globalNeighborList f plain ∧
        Authentic p me (initForwardingTTL p me w a cache f).agent.globalNeighborList f plain ∧
        g.sig = some (p.sign me.rsaKey (p.sha1 plain)) ∧
        g.msg = some (.str (String.ofList (encodestring (p.encrypt sendKey sendIv plain))))) ∧
    ((initForwardingTTL p me w a cache f).published = none →
      (initForwardingTTL p me w a cache f).cache = cache) := by
  refine ⟨?_, cache_of_unpublished⟩
  intro g hg
  obtain ⟨f', a₁, a₂, nb, d, hfilter, hgate, hmark, hdecode, hpass⟩ := published_inv hg
  obtain ⟨raw, ttl, -, -, -, -, -, rfl⟩ := filterFrame_ok hfilter
  obtain ⟨hlist, -⟩ := mark_ok hmark
  obtain ⟨-, -, -, hauth⟩ := decodeStage_ok hdecode
  rw [hpass] at hg
  obtain ⟨⟨sendKey, sendIv, rfl⟩, -, hagent⟩ := publish_some hg
  refine ⟨a₁, d.plain, sendKey, sendIv, hgate, ?_, ?_, rfl, rfl⟩
  · rw [← hlist]
    exact hauth
  · rw [hpass]
    rcases hagent with hsame | ⟨entry, lost, success, hentry, hnew⟩
    · rw [hsame]
      exact hauth
    · rw [hnew]
      exact authentic_recount lost success hentry hauth

def sampleKey : Bytes := List.replicate 16 7

def sampleIdentity : Identity := ⟨"10.0.0.1", ⟨33, 3, 7⟩⟩

def samplePeer : Identity := ⟨"10.0.0.2", ⟨55, 3, 27⟩⟩

/-- An agent that knows one neighbor, with a current and no old key. -/
def sampleAgent : Agent where
  key := sampleKey
  iv := sampleKey
  globalNeighborList := AList.insert "10.0.0.2"
    { ipAddress := "10.0.0.2", encryptionKey := sampleKey, encryptionIV := sampleKey,
      pubKey := some samplePeer.rsaKey.publickey, timestampLastKCM := 0 } ∅

/-- A broadcast of that neighbor with the text "hi". -/
def sampleFrame : Frame where
  host := some (.str "10.0.0.2")
  lasthop := some (.str "10.0.0.2")
  id := some (.int 1)
  receiver := some (.str broadcast)
  ttl := some (.int 2)
  msg_type := some (.str "data")
  sub_type := some (.str "std")
  msg := some (.str (String.ofList
    (encodestring (listPlatform.encrypt sampleKey sampleKey [104, 105]))))
  sig := some (listPlatform.sign samplePeer.rsaKey [104, 105])

def quietOutside : Outside := ⟨fun _ => true, fun _ _ => true, fun _ _ => true, fun _ _ _ => .ok []⟩

/-- No other thread runs during the waits. -/
def quietWaits : Waits := ⟨some, some, some, quietOutside⟩

theorem publication_authenticated_sample :
    (initForwardingTTL listPlatform sampleIdentity quietWaits sampleAgent ∅
        sampleFrame).published.isSome = true ∧
      ∃ plain, Authentic listPlatform sampleIdentity sampleAgent.globalNeighborList
        sampleFrame plain := by
  have hsome : (initForwardingTTL listPlatform sampleIdentity quietWaits sampleAgent ∅
      sampleFrame).published.isSome = true := by decide
  obtain ⟨g, hg⟩ := Option.isSome_iff_exists.mp hsome
  obtain ⟨a₁, plain, -, -, hgate, hauth, -⟩ := (publication_authenticated listPlatform
    sampleIdentity quietWaits sampleAgent ∅ sampleFrame).1 g hg
  have ha : a₁ = sampleAgent := (Option.some.inj hgate).symm
  subst ha
  exact ⟨hsome, plain, hauth⟩

end Nxwlan.PublishedFrames
