import Nxwlan.Messaging
import Nxwlan.PublishedFrames

/-!
A whole run of `initForwardingTTL`: the cache starts empty and belongs to the
forwarder alone, frames come in any order and with any contents, and other
threads change the agent's state before every pass and during its waits. The
ids published for one originator only ever grow.
-/
namespace Nxwlan.ForwarderRuns

open JsonFrames AgentState Forwarder Messaging PublishedFrames
open Base64 (encodestring)

variable {p : Platform} {me : Identity} {w : Waits} {a : Agent} {cache : FwdCache}

/-- One turn of the loop: what other threads did while it was waiting for a
frame, the frame, and the waits of the pass. -/
structure Round where
  between : Agent → Agent
  frame : Frame
  waits : Waits

/-- An exception leaves the loop, and a wait that never returns stays in it. -/
def Stop.isFinal : Stop → Bool
  | .raised _ => true
  | .blocked => true
  | _ => false

/-- The frames published by a run, in order. -/
def run (p : Platform) (me : Identity) : List Round → Agent → FwdCache → List Frame
  | [], _, _ => []
  | r :: rest, a, cache =>
      let o := initForwardingTTL p me r.waits (r.between a) cache r.frame
      o.published.toList ++
        if o.stop.any Stop.isFinal then [] else run p me rest o.agent o.cache

/-- The publications that the agent's own receive loop hands to the application
callback. `states` are the agent's states when the loop gets to each of them;
a loop that has ended is one without further states. -/
def delivered (p : Platform) (me : Identity) : List Frame → List Agent → List Frame
  | f :: published, a :: states =>
      match receiveMessage p me a f with
      | .callback _ => f :: delivered p me published states
      | .raised _ => []
      | _ => delivered p me published states
  | _, _ => []

theorem delivered_sublist (p : Platform) (me : Identity) (published : List Frame)
    (states : List Agent) : (delivered p me published states).Sublist published := by
  induction published generalizing states with
  | nil => simp [delivered]
  | cons f published ih =>
    cases states with
    | nil => simp [delivered]
    | cons a states =>
      rw [delivered]
      split
      · exact (ih states).cons_cons f
      · exact List.nil_sublist _
      · exact (ih states).cons f

/-- The dictionary key of a frame's originator. -/
def hostKey (f : Frame) : Except PyError DictKey := (field f.host).bind Json.dictKey

/-- Both frames carry integer ids and the second one is larger. -/
def IdLt (g g' : Frame) : Prop := ∃ i j, g.id = some (.int i) ∧ g'.id = some (.int j) ∧ i < j

/-- The frame's id is above what the cache holds for its originator. -/
def Above (cache : FwdCache) (g : Frame) : Prop :=
  ∀ key, hostKey g = .ok key → ∀ last, cache.lookup key = some (.int last) →
    ∃ i, g.id = some (.int i) ∧ last < i

theorem seen_false {f : Frame} {i : ℤ} (hid : f.id = some (.int i))
    (h : seen p cache f = .ok false) :
    (∃ key, hostKey f = .ok key) ∧ Above cache f := by
  unfold seen at h
  cases hkey : hostKey f with
  | error e => simp [hostKey] at hkey; simp [hkey] at h
  | ok key =>
    refine ⟨⟨key, rfl⟩, ?_⟩
    intro key' hkey' last hlast
    have heq : key = key' := Except.ok.inj (hkey.symm.trans hkey')
    subst heq
    unfold hostKey at hkey
    rw [hkey] at h
    simp only [hlast, field, hid, Except.map, Json.ge, Except.ok.injEq,
      decide_eq_false_iff_not] at h
    exact ⟨i, hid, by omega⟩

/-- A published frame keeps originator and id of the frame received, is above
the cache it met, and is the cache's new entry. -/
theorem published_step {f g : Frame} {i : ℤ} (hid : f.id = some (.int i))
    (hg : (initForwardingTTL p me w a cache f).published = some g) :
    g.host = f.host ∧ g.id = f.id ∧ Above cache f ∧
      ∃ key, hostKey f = .ok key ∧
        (initForwardingTTL p me w a cache f).cache = cache.insert key (.int i) := by
  obtain ⟨f', a₁, a₂, nb, d, hfilter, hgate, hmark, hdecode, hpass⟩ := published_inv hg
  obtain ⟨raw, ttl, -, -, -, hseen, -, rfl⟩ := filterFrame_ok hfilter
  obtain ⟨⟨key, hkey⟩, habove⟩ := seen_false hid hseen
  rw [hpass] at hg
  obtain ⟨⟨sendKey, sendIv, rfl⟩, hcache, -⟩ := publish_some hg
  refine ⟨rfl, rfl, habove, key, hkey, ?_⟩
  rw [hpass]
  apply hcache
  unfold hostKey at hkey
  cases hhost : f.host with
  | none => simp [hhost, field, Except.bind] at hkey
  | some host =>
    simp only [hhost, field, Except.bind] at hkey
    simp [remember, field, hid, hkey, bind, Except.bind, pure, Except.pure]

/-- The entry for a key only grows, so being above the new cache is being above
the old one and above the frame just published. -/
theorem above_of_insert {f g : Frame} {key : DictKey} {i : ℤ} (hid : f.id = some (.int i))
    (hkey : hostKey f = .ok key) (hf : Above cache f)
    (hg : Above (cache.insert key (.int i)) g) :
    Above cache g ∧ (hostKey f = hostKey g → IdLt f g) := by
  constructor
  · intro key' hkey' last hlast
    by_cases hk : key' = key
    · subst hk
      obtain ⟨i', hi', hlt⟩ := hf key' hkey last hlast
      obtain ⟨j, hj, hlt'⟩ := hg key' hkey' i (AList.lookup_insert cache)
      have hii : i' = i := by
        have := hi'.symm.trans hid
        simpa using this
      exact ⟨j, hj, by omega⟩
    · exact hg key' hkey' last (by rw [AList.lookup_insert_ne hk]; exact hlast)
  · intro heq
    obtain ⟨j, hj, hlt⟩ := hg key (heq.symm.trans hkey) i (AList.lookup_insert cache)
    exact ⟨i, j, hid, hj, hlt⟩

/-- From any cache, a run publishes only above that cache and in
growing order. The induction is on the frames that are still to come. -/
theorem run_above (p : Platform) (me : Identity) (rounds : List Round) (a : Agent)
    (cache : FwdCache)
    (hids : ∀ r ∈ rounds, ∃ i, r.frame.id = some (.int i)) :
    (∀ g ∈ run p me rounds a cache, Above cache g) ∧
      (run p me rounds a cache).Pairwise (fun g g' => hostKey g = hostKey g' → IdLt g g') := by
  induction rounds generalizing a cache with
  | nil => simp [run]
  | cons r rest ih =>
    obtain ⟨i, hid⟩ := hids r (by simp)
    have hrest : ∀ r' ∈ rest, ∃ i, r'.frame.id = some (.int i) :=
      fun r' hr' => hids r' (by simp [hr'])
    simp only [run]
    cases hpub : (initForwardingTTL p me r.waits (r.between a) cache r.frame).published with
    | none =>
      rw [cache_of_unpublished hpub]
      split
      · simp
      · simpa using ih _ cache hrest
    | some g =>
      obtain ⟨hhost, hgid, habove, key, hkey, hcache⟩ := published_step hid hpub
      have hgkey : hostKey g = hostKey r.frame := by unfold hostKey; rw [hhost]
      have habove' : Above cache g := by
        intro key' hkey' last hlast
        rw [hgid]
        exact habove key' (hgkey.symm.trans hkey') last hlast
      split
      · simpa using habove'
      · obtain ⟨htail, hpair⟩ := ih
          (initForwardingTTL p me r.waits (r.between a) cache r.frame).agent
          (cache.insert key (.int i)) hrest
        rw [hcache]
        have hlater : ∀ g' ∈ run p me rest
            (initForwardingTTL p me r.waits (r.between a) cache r.frame).agent
            (cache.insert key (.int i)), Above cache g' ∧
              (hostKey g = hostKey g' → IdLt g g') := by
          intro g' hg'
          exact above_of_insert (hgid.trans hid) (hgkey.trans hkey) habove' (htail g' hg')
        constructor
        · intro g' hg'
          simp only [Option.toList_some, List.singleton_append, List.mem_cons] at hg'
          rcases hg' with rfl | hg'
          · exact habove'
          · exact (hlater g' hg').1
        · simp only [Option.toList_some, List.singleton_append, List.pairwise_cons]
          exact ⟨fun g' hg' => (hlater g' hg').2, hpair⟩

/-- At most once and in order: the ids published for each originator form a
strictly increasing sequence, and no pair of host and id is published, or
handed to an application, twice. -/
theorem published_ids_increase (p : Platform) (me : Identity) (rounds : List Round) (a : Agent)
    (hids : ∀ r ∈ rounds, ∃ i, r.frame.id = some (.int i)) :
    (run p me rounds a ∅).Pairwise (fun g g' => hostKey g = hostKey g' → IdLt g g') ∧
      ((run p me rounds a ∅).map (fun g => (g.host, g.id))).Nodup ∧
      ∀ states, ((delivered p me (run p me rounds a ∅) states).map
        (fun g => (g.host, g.id))).Nodup := by
  have hpair := (run_above p me rounds a ∅ hids).2
  have honce : ((run p me rounds a ∅).map (fun g => (g.host, g.id))).Nodup := by
    rw [List.Nodup, List.pairwise_map]
    refine hpair.imp ?_
    intro g g' hlt heq
    simp only [Prod.mk.injEq] at heq
    obtain ⟨i, j, hi, hj, hij⟩ := hlt (by unfold hostKey; rw [heq.1])
    have hsame : i = j := by simpa [hi, hj] using heq.2
    omega
  refine ⟨hpair, honce, ?_⟩
  intro states
  exact honce.sublist ((delivered_sublist p me _ states).map _)

/-- A frame, a replay of it, and the next frame of the same neighbor. -/
def sampleRounds : List Round :=
  [⟨id, sampleFrame, quietWaits⟩, ⟨id, sampleFrame, quietWaits⟩,
    ⟨id, { sampleFrame with id := some (.int 2) }, quietWaits⟩]

theorem published_ids_increase_sample :
    (run listPlatform sampleIdentity sampleRounds sampleAgent ∅).length = 2 ∧
      (run listPlatform sampleIdentity sampleRounds sampleAgent ∅).Pairwise
        (fun g g' => hostKey g = hostKey g' → IdLt g g') := by
  refine ⟨by decide, (published_ids_increase listPlatform sampleIdentity sampleRounds
    sampleAgent ?_).1⟩
  intro r hr
  simp only [sampleRounds, List.mem_cons, List.not_mem_nil, or_false] at hr
  rcases hr with rfl | rfl | rfl
  · exact ⟨1, rfl⟩
  · exact ⟨1, rfl⟩
  · exact ⟨2, rfl⟩

end Nxwlan.ForwarderRuns
