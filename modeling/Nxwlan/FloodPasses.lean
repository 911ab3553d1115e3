import Nxwlan.FloodNetwork

/-!
What the forwarder makes of a copy of one broadcast when the agents are correct
and every table holds the current keys of its neighbors: it publishes the
first copy that has hops left, with one hop less, and drops all others.
-/
namespace Nxwlan.FloodPasses

open JsonFrames AgentState Forwarder Messaging PublishedFrames FloodNetwork
open Base64 (Bytes encodestring decodestring)

/-- The keys in use: a group key and vector of 16 bytes and an RSA key per host. -/
structure Keys where
  key : String → Bytes
  iv : String → Bytes
  rsaKey : String → RsaKey
  key_length : ∀ v, (key v).length = 16
  iv_length : ∀ v, (iv v).length = 16

/-- Host names are the addresses that `getHostname` reads from the wired interface:
they are ASCII and none is the name of the entry for old keys. -/
def GoodName (v : String) : Prop :=
  v.toList.all (fun c => c.toNat < 128) = true ∧ v ≠ "old_keys"

instance (v : String) : Decidable (GoodName v) := inferInstanceAs (Decidable (_ ∧ _))

/-- The state of an agent that knows its own keys and those of its neighbors. -/
structure Keyed (T : Topology) (keys : Keys) (v : String) (a : Agent) : Prop where
  key : a.key = keys.key v
  iv : a.iv = keys.iv v
  own : ∃ e, a.globalNeighborList.lookup v = some e ∧ e.encryptionKey = keys.key v ∧
    e.encryptionIV = keys.iv v
  neighbors : ∀ u ∈ T.links v, ∃ e, a.globalNeighborList.lookup u = some e ∧
    e.encryptionKey = keys.key u ∧ e.encryptionIV = keys.iv u ∧
    e.pubKey = some (keys.rsaKey u).publickey

variable {p : Platform} {T : Topology} {keys : Keys} {o : String} {i : ℤ} {m : Bytes}

/-- The broadcast of `o` with id `i` and text `m`, as `u` sends it with ttl `t`. -/
def floodFrame (p : Platform) (keys : Keys) (o : String) (i : ℤ) (m : Bytes) (u : String)
    (t : ℤ) : Frame :=
  { initialFrame p ⟨u, keys.rsaKey u⟩ u (keys.key u) (keys.iv u) i t "data" "std" broadcast m with
    host := some (.str o) }

theorem aesAccepts_keys (keys : Keys) (v : String) :
    aesAccepts (keys.key v) (keys.iv v) = true :=
  aesAccepts_of_length (keys.key_length v) (keys.iv_length v)

theorem attempt_floodFrame (keys : Keys) (hp : p.Lawful) (u : String) (t : ℤ) :
    attempt p (keys.key u) (keys.iv u) (some (keys.rsaKey u).publickey)
      (floodFrame p keys o i m u t) = .ok (m, true) := by
  have henc : encodedMsg (floodFrame p keys o i m u t) =
      .ok (p.encrypt (keys.key u) (keys.iv u) m) := encodedMsg_encoded rfl
  simp only [attempt, aesAccepts_keys, if_true, henc]
  simp [floodFrame, initialFrame, field, hp.decrypt_encrypt, hp.verify_sign]

/-- The sender of a frame is in the table with the key its signature needs. -/
theorem keyed_entry {v u : String} {a : Agent} (hk : Keyed T keys v a)
    (hu : u = v ∨ u ∈ T.links v) (hname : GoodName u) :
    ∃ e, a.globalNeighborList.lookup u = some e ∧ e.encryptionKey = keys.key u ∧
      e.encryptionIV = keys.iv u ∧
      verificationKey ⟨v, keys.rsaKey v⟩ u e = some (keys.rsaKey u).publickey := by
  rcases hu with rfl | hu
  · obtain ⟨e, hlook, hkey, hiv⟩ := hk.own
    exact ⟨e, hlook, hkey, hiv, by simp [verificationKey]⟩
  · obtain ⟨e, hlook, hkey, hiv, hpub⟩ := hk.neighbors u hu
    have hne : u ≠ v := by
      rintro rfl
      exact T.irrefl u hu
    exact ⟨e, hlook, hkey, hiv, by simp [verificationKey, hne, hname.2, hpub]⟩

/-- What the cache of a node says about the broadcast: not handled yet. -/
def Fresh (o : String) (i : ℤ) (cache : FwdCache) : Prop :=
  ∀ last, cache.lookup (.str o) = some last → ∃ j, last = .int j ∧ j < i

theorem seen_fresh {cache : FwdCache} (h : Fresh o i cache) (u : String) (t : ℤ) :
    seen p cache (floodFrame p keys o i m u t) = .ok false := by
  simp only [seen, floodFrame, initialFrame, field, Except.bind, Json.dictKey]
  cases hlook : cache.lookup (.str o) with
  | none => rfl
  | some last =>
    obtain ⟨j, rfl, hj⟩ := h last hlook
    simp only [Except.map, Json.ge, Except.ok.injEq, decide_eq_false_iff_not]
    omega

theorem seen_handled {cache : FwdCache} (h : cache.lookup (.str o) = some (.int i)) (u : String)
    (t : ℤ) : seen p cache (floodFrame p keys o i m u t) = .ok true := by
  simp [seen, floodFrame, initialFrame, field, Except.bind, Json.dictKey, h, Except.map, Json.ge]

theorem addressed_floodFrame (me : Identity) (u : String) (t : ℤ) :
    addressed me (floodFrame p keys o i m u t) = .ok true := by
  simp only [addressed, floodFrame, initialFrame, field]
  split
  · rfl
  · simp [Except.map, Json.isStr]

section Pass

variable {v u : String} {t : ℤ} {w : Waits} {a a₁ : Agent} {cache : FwdCache}

theorem pass_expired (me : Identity) (ht : t ≤ 1) :
    initForwardingTTL p me w a cache (floodFrame p keys o i m u t) =
      { agent := a, cache := cache, stop := some .expired } := by
  have hle : t - 1 ≤ 0 := by omega
  simp [initForwardingTTL, filterFrame, floodFrame, initialFrame, field, Except.bind,
    Json.toInt, hle]

theorem pass_duplicate (me : Identity) (ht : 2 ≤ t)
    (hcache : cache.lookup (.str o) = some (.int i)) :
    initForwardingTTL p me w a cache (floodFrame p keys o i m u t) =
      { agent := a, cache := cache, stop := some .duplicate } := by
  have hgt : ¬ t - 1 ≤ 0 := by omega
  have hfilter : filterFrame p me cache (floodFrame p keys o i m u t) = .error .duplicate := by
    unfold filterFrame
    rw [seen_handled hcache]
    simp [floodFrame, initialFrame, field, Except.bind, Json.toInt, hgt]
  simp [initForwardingTTL, hfilter]

/-- The filters turn the frame with ttl `t` into the one with ttl `t - 1`. -/
theorem filterFrame_fresh (me : Identity) (ht : 2 ≤ t) (hcache : Fresh o i cache) :
    filterFrame p me cache (floodFrame p keys o i m u t) =
      .ok (floodFrame p keys o i m u (t - 1)) := by
  have hgt : ¬ t - 1 ≤ 0 := by omega
  unfold filterFrame
  rw [seen_fresh hcache, addressed_floodFrame]
  simp [floodFrame, initialFrame, field, Except.bind, Json.toInt, hgt]

theorem mark_floodFrame (p : Platform) (keys : Keys) (i : ℤ) (m : Bytes) (t : ℤ) (a : Agent)
    (me : Identity) (ho : GoodName o) (hu : GoodName u) :
    ∃ nb b, mark me (floodFrame p keys o i m u t) a = .ok (nb, b) ∧
      b.globalNeighborList = a.globalNeighborList ∧ b.key = a.key ∧ b.iv = a.iv := by
  unfold mark
  simp only [floodFrame, initialFrame, field, bind, Except.bind, pure, Except.pure,
    Json.printable, hu.1, ho.1, if_true]
  split
  · exact ⟨false, a, rfl, rfl, rfl, rfl⟩
  · exact ⟨true, _, rfl, rfl, rfl, rfl⟩

/-- A node with the right keys publishes a fresh copy with one hop less. -/
theorem pass_publishes (hp : p.Lawful) (ho : GoodName o) (hu : GoodName u) (ht : 2 ≤ t)
    (hcache : Fresh o i cache) (hgate : w.gate a = some a₁) (hk : Keyed T keys v a₁)
    (hfrom : u = v ∨ u ∈ T.links v) :
    ∃ a', initForwardingTTL p ⟨v, keys.rsaKey v⟩ w a cache (floodFrame p keys o i m u t) =
      { agent := a', cache := cache.insert (.str o) (.int i),
        published := some (floodFrame p keys o i m v (t - 1)) } := by
  obtain ⟨e, hlook, hkey, hiv, hpub⟩ := keyed_entry hk hfrom hu
  obtain ⟨nb, b, hmark, hlist, hbkey, hbiv⟩ := mark_floodFrame p keys i m
    (t - 1) a₁ ⟨v, keys.rsaKey v⟩ ho hu
  have hentry : lasthopEntry (floodFrame p keys o i m u (t - 1)) b.globalNeighborList =
      .ok (some (u, e)) := by
    simp [lasthopEntry, floodFrame, initialFrame, field, Except.bind, Json.dictKey, hlist, hlook]
  have hdecode : decodeStage p ⟨v, keys.rsaKey v⟩ w b nb (floodFrame p keys o i m u (t - 1)) =
      (b, .ok ⟨u, keys.key u, keys.iv u, m⟩) := by
    simp [decodeStage, hentry, hkey, hiv, hpub, attempt_floodFrame keys hp]
  have hrem : remember cache (floodFrame p keys o i m u (t - 1)) =
      .ok (cache.insert (.str o) (.int i)) := by
    simp [remember, floodFrame, initialFrame, field, Json.dictKey, bind, Except.bind, pure,
      Except.pure]
  have hcount : ∃ b', (if nb then countSuccess b u else .ok b) = .ok b' := by
    cases nb with
    | false => exact ⟨b, rfl⟩
    | true =>
      simp only [if_true, countSuccess, hlist, hlook]
      exact ⟨_, rfl⟩
  obtain ⟨b', hb'⟩ := hcount
  refine ⟨if nb then b' else Agent.releaseSenders b', ?_⟩
  simp only [initForwardingTTL, filterFrame_fresh _ ht hcache, hgate, hmark, hdecode, publish, hu.2,
    if_false, hbkey, hbiv, hk.key, hk.iv, aesAccepts_keys, if_true, hb', hrem]
  rfl

end Pass

end Nxwlan.FloodPasses
