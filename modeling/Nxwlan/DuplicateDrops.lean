import Nxwlan.FloodNetwork

/-!
What stands behind a drop by `fwd_cache`. The cache holds one id per host, so a
dropped frame need not be a copy of one that was published: a larger id of the
same host is enough. Every entry of the cache is the id of a published frame.
-/
namespace Nxwlan.DuplicateDrops

open JsonFrames AgentState Forwarder Messaging PublishedFrames ForwarderRuns FloodNetwork

variable {p : Platform} {me : Identity} {w : Waits} {a : Agent} {cache : FwdCache}

/-- The passes of a run, each with the frame it handled; a pass that raises or
blocks is the last one. -/
def passes (p : Platform) (me : Identity) : List Round → Agent → FwdCache → List (Frame × Outcome)
  | [], _, _ => []
  | r :: rest, a, cache =>
      let o := initForwardingTTL p me r.waits (r.between a) cache r.frame
      (r.frame, o) :: if o.stop.any Stop.isFinal then [] else passes p me rest o.agent o.cache

/-- The frames that a sequence of passes has published. -/
def publications (done : List (Frame × Outcome)) : List Frame :=
  done.flatMap (fun q => q.2.published.toList)

theorem publications_passes (p : Platform) (me : Identity) (rounds : List Round) (a : Agent)
    (cache : FwdCache) : publications (passes p me rounds a cache) = run p me rounds a cache := by
  induction rounds generalizing a cache with
  | nil => rfl
  | cons r rest ih =>
    simp only [publications, passes, run, List.flatMap_cons]
    congr 1
    split
    · rfl
    · exact ih _ _

/-- `g` has the id of `f` or a larger one, in the order of the language. -/
def IdGe (p : Platform) (g f : Frame) : Prop :=
  ∃ last id, g.id = some last ∧ f.id = some id ∧ last.ge p.mixedGe id = true

/-- Every entry of the cache stems from one of the published frames. -/
def Backed (published : List Frame) (cache : FwdCache) : Prop :=
  ∀ key last, cache.lookup key = some last →
    ∃ g ∈ published, hostKey g = .ok key ∧ g.id = some last

theorem backed_mono {published published' : List Frame} (h : Backed published cache)
    (hsub : ∀ g ∈ published, g ∈ published') : Backed published' cache := by
  intro key last hlast
  obtain ⟨g, hg, hkey, hid⟩ := h key last hlast
  exact ⟨g, hsub g hg, hkey, hid⟩

/-- What the cache is after a publication: the frame's id replaces its host's
entry, unless the frame has no id, which raises. -/
theorem remember_cases (cache : FwdCache) (f : Frame) :
    (∃ e, remember cache f = .error e) ∨
      ∃ key id, hostKey f = .ok key ∧ f.id = some id ∧
        remember cache f = .ok (cache.insert key id) := by
  unfold remember hostKey
  cases hhost : f.host with
  | none => exact Or.inl ⟨.keyError, rfl⟩
  | some host =>
    cases hkey : host.dictKey with
    | error e => exact Or.inl ⟨e, by simp [field, hkey, bind, Except.bind]⟩
    | ok key =>
      cases hid : f.id with
      | none => exact Or.inl ⟨.keyError, by simp [field, hkey, bind, Except.bind]⟩
      | some id =>
        refine Or.inr ⟨key, id, by simp [field, hkey, Except.bind], rfl, ?_⟩
        simp [field, hkey, bind, Except.bind, pure, Except.pure]

theorem publish_cache_of_error {nb : Bool} {d : Decoded} {f : Frame} {e : PyError}
    (h : remember cache f = .error e) : (publish p me a cache nb d f).cache = cache := by
  rcases publish_cases p me a cache nb d f with
    ⟨e', hpass⟩ | ⟨b, sendKey, sendIv, -, -, -, ⟨e', -, hpass⟩ | ⟨cache', hrem, hpass⟩⟩
  · rw [hpass]
  · rw [hpass]
  · rw [h] at hrem
    cases hrem

/-- One pass keeps the cache backed by what has been published. -/
theorem backed_pass {published : List Frame} (f : Frame) (h : Backed published cache) :
    Backed (published ++ (initForwardingTTL p me w a cache f).published.toList)
      (initForwardingTTL p me w a cache f).cache := by
  cases hpub : (initForwardingTTL p me w a cache f).published with
  | none =>
    rw [cache_of_unpublished hpub]
    exact backed_mono h (by simp)
  | some g =>
    obtain ⟨f', a₁, a₂, nb, d, hfilter, -, -, -, hpass⟩ := published_inv hpub
    obtain ⟨raw, ttl, -, -, -, -, -, rfl⟩ := filterFrame_ok hfilter
    obtain ⟨hhost, hid, -⟩ := published_fields hpub
    rw [hpass] at hpub ⊢
    rcases remember_cases cache { f with ttl := some (.int (ttl - 1)) } with
      ⟨e, he⟩ | ⟨key, id, hkey, hfid, hrem⟩
    · rw [publish_cache_of_error he]
      exact backed_mono h (by simp +contextual)
    · rw [(publish_some hpub).2.1 _ hrem]
      intro key' last hlast
      by_cases hk : key' = key
      · subst hk
        rw [AList.lookup_insert] at hlast
        obtain rfl := Option.some.inj hlast
        refine ⟨g, by simp, ?_, hid.trans hfid⟩
        rw [← hkey]
        unfold hostKey
        rw [hhost]
      · rw [AList.lookup_insert_ne hk] at hlast
        exact backed_mono h (by simp +contextual) key' last hlast

/-- The reasons for a stop in the filters, in front of the first wait. -/
def Stop.isFiltered : Stop → Bool
  | .expired => true
  | .duplicate => true
  | .notForMe => true
  | _ => false

theorem rescanLasthop_stop (name : String) :
    Stop.isFiltered (rescanLasthop me w a name).2 = false := by
  unfold rescanLasthop
  split
  · rfl
  · dsimp only
    split
    · rfl
    · split
      · rfl
      · rfl

theorem loseMessage_stop (name : String) :
    Stop.isFiltered (loseMessage me w a name).2 = false := by
  unfold loseMessage
  split
  · rfl
  · dsimp only
    split
    · split
      · exact rescanLasthop_stop name
      · split
        · rfl
        · rfl
    · rfl

theorem decodeStage_stop {nb : Bool} {f : Frame} {a' : Agent} {s : Stop}
    (h : decodeStage p me w a nb f = (a', .error s)) : Stop.isFiltered s = false := by
  unfold decodeStage at h
  split at h
  · obtain ⟨-, rfl⟩ := h
    rfl
  · obtain ⟨-, rfl⟩ := h
    rfl
  · dsimp only at h
    split at h
    · obtain ⟨-, rfl⟩ := h
      rfl
    · cases h
    · split at h
      · split at h
        · obtain ⟨-, rfl⟩ := h
          rfl
        · cases h
        · unfold retryStage at h
          split at h
          · obtain ⟨-, rfl⟩ := h
            rfl
          · dsimp only at h
            split at h
            · obtain ⟨-, rfl⟩ := h
              rfl
            · cases h
            · obtain ⟨-, rfl⟩ := h
              exact loseMessage_stop _
      · obtain ⟨-, rfl⟩ := h
        rfl

theorem publish_stop {nb : Bool} {d : Decoded} {f : Frame} {s : Stop}
    (h : (publish p me a cache nb d f).stop = some s) : ∃ e, s = .raised e := by
  rcases publish_cases p me a cache nb d f with
    ⟨e, hpass⟩ | ⟨b, sendKey, sendIv, -, -, -, ⟨e, -, hpass⟩ | ⟨cache', -, hpass⟩⟩
  · rw [hpass] at h
    exact ⟨e, (Option.some.inj h).symm⟩
  · rw [hpass] at h
    exact ⟨e, (Option.some.inj h).symm⟩
  · rw [hpass] at h
    cases h

/-- A pass that stops for one of the filters' reasons stopped in the filters. -/
theorem filterFrame_of_stop {f : Frame} {s : Stop}
    (h : (initForwardingTTL p me w a cache f).stop = some s) (hs : Stop.isFiltered s = true) :
    filterFrame p me cache f = .error s := by
  unfold initForwardingTTL at h
  split at h
  · rename_i hfilter
    rw [hfilter, Option.some.inj h]
  · exfalso
    split at h
    · obtain rfl := Option.some.inj h
      cases hs
    · split at h
      · obtain rfl := Option.some.inj h
        cases hs
      · split at h
        · rename_i hdecode
          obtain rfl := Option.some.inj h
          rw [decodeStage_stop hdecode] at hs
          cases hs
        · obtain ⟨e, rfl⟩ := publish_stop h
          cases hs

/-- A drop by the cache is a comparison with the entry of the frame's host. -/
theorem duplicate_inv {f : Frame}
    (h : (initForwardingTTL p me w a cache f).stop = some .duplicate) :
    ∃ key last id, hostKey f = .ok key ∧ cache.lookup key = some last ∧ f.id = some id ∧
      last.ge p.mixedGe id = true := by
  have hfilter := filterFrame_of_stop h rfl
  unfold filterFrame at hfilter
  split at hfilter
  · cases hfilter
  · split at hfilter
    · cases hfilter
    · split at hfilter
      · cases hfilter
      · rename_i hseen
        unfold seen at hseen
        split at hseen
        · cases hseen
        · rename_i key hkey
          split at hseen
          · cases hseen
          · rename_i last hlast
            cases hid : f.id with
            | none => simp [hid, field, Except.map] at hseen
            | some id =>
              simp only [hid, field, Except.map, Except.ok.injEq] at hseen
              exact ⟨key, last, id, hkey, hlast, rfl, hseen⟩
      · split at hfilter
        · cases hfilter
        · cases hfilter
        · cases hfilter

/-- From a cache backed by earlier publications, every drop by the cache has a
publication of the same host behind it. The induction is on the rounds to come;
`published` grows with every pass. -/
theorem passes_duplicate (p : Platform) (me : Identity) (rounds : List Round) (a : Agent)
    (cache : FwdCache) (published : List Frame) (hb : Backed published cache)
    (before after : List (Frame × Outcome)) (f : Frame) (o : Outcome)
    (hsplit : passes p me rounds a cache = before ++ (f, o) :: after)
    (hstop : o.stop = some .duplicate) :
    ∃ g ∈ published ++ publications before, hostKey g = hostKey f ∧ IdGe p g f := by
  induction rounds generalizing a cache published before with
  | nil => simp [passes] at hsplit
  | cons r rest ih =>
    simp only [passes] at hsplit
    cases before with
    | nil =>
      simp only [List.nil_append, List.cons.injEq, Prod.mk.injEq] at hsplit
      obtain ⟨⟨rfl, rfl⟩, -⟩ := hsplit
      obtain ⟨key, last, id, hkey, hlast, hid, hge⟩ := duplicate_inv hstop
      obtain ⟨g, hg, hgkey, hgid⟩ := hb key last hlast
      exact ⟨g, by simp [hg], hgkey.trans hkey.symm, last, id, hgid, hid, hge⟩
    | cons q before =>
      simp only [List.cons_append, List.cons.injEq] at hsplit
      obtain ⟨rfl, hrest⟩ := hsplit
      split at hrest
      · simp at hrest
      · obtain ⟨g, hg, hfacts⟩ := ih _ _ _ (backed_pass r.frame hb) before hrest
        refine ⟨g, ?_, hfacts⟩
        simpa [publications, or_assoc] using hg

/-- Drops by the cache are backed by publications: whenever a pass of a run ends
because of `fwd_cache`, an earlier pass of the same run has published a frame
of the same host with the same or a larger id. -/
theorem duplicate_drop_backed (p : Platform) (me : Identity) (rounds : List Round) (a : Agent)
    (before after : List (Frame × Outcome)) (f : Frame) (o : Outcome)
    (hsplit : passes p me rounds a ∅ = before ++ (f, o) :: after)
    (hstop : o.stop = some .duplicate) :
    ∃ g ∈ publications before, hostKey g = hostKey f ∧ IdGe p g f ∧
      ∀ i j, f.id = some (.int i) → g.id = some (.int j) → i ≤ j := by
  have hempty : Backed [] (∅ : FwdCache) := by
    intro key last hlast
    simp at hlast
  obtain ⟨g, hg, hkey, last, id, hlast, hid, hge⟩ :=
    passes_duplicate p me rounds a ∅ [] hempty before after f o hsplit hstop
  refine ⟨g, hg, hkey, ⟨last, id, hlast, hid, hge⟩, ?_⟩
  intro i j hi hj
  obtain rfl : id = .int i := Option.some.inj (hid.symm.trans hi)
  obtain rfl : last = .int j := Option.some.inj (hlast.symm.trans hj)
  simpa [Json.ge] using hge

/-- Two ways from the first to the fourth access point. -/
def diamond : Topology :=
  .ofEdges [("10.0.0.1", "10.0.0.2"), ("10.0.0.1", "10.0.0.3"), ("10.0.0.2", "10.0.0.4"),
    ("10.0.0.3", "10.0.0.4")] (by decide)

def quietRound (f : Frame) : Round := ⟨id, f, quietWaits⟩

/-- What the forwarder of `v` makes of the frames that reach it, in that order. -/
def relayed (v : String) (frames : List Frame) : List Frame :=
  run listPlatform ((uniformNet diamond).nodes v).me (frames.map quietRound)
    ((uniformNet diamond).nodes v).agent ∅

/-- Two broadcasts of the first access point, with ids 1 and 2. -/
def twoBroadcasts : List Frame :=
  let origin := (uniformNet diamond).nodes "10.0.0.1"
  let first := (Call.sendToNeighbors [49] 2).perform listPlatform origin.me 0 origin.agent
  let second := (Call.sendToNeighbors [50] 2).perform listPlatform origin.me 0 first.1
  [first, second].flatMap (fun r => match r.2 with
    | .ok f => f.toList
    | .error _ => [])

/-- The third access point has joined after the first broadcast and relays the
second one only; the second access point, a slow one, relays the first. -/
def overtaken : List Frame :=
  relayed "10.0.0.3" ((relayed "10.0.0.1" twoBroadcasts).drop 1) ++
    relayed "10.0.0.2" ((relayed "10.0.0.1" twoBroadcasts).take 1)

def overtakenPasses : List (Frame × Outcome) :=
  passes listPlatform ((uniformNet diamond).nodes "10.0.0.4").me (overtaken.map quietRound)
    ((uniformNet diamond).nodes "10.0.0.4").agent ∅

/-- What the first access point sends when its agent has been started again: the ids begin
with 1 once more. -/
def restartBroadcast : List Frame :=
  let origin := (uniformNet diamond).nodes "10.0.0.1"
  match ((Call.sendToNeighbors [51] 2).perform listPlatform origin.me 0 origin.agent).2 with
  | .ok f => f.toList
  | .error _ => []

/-- The second access point hears two broadcasts, and one more behind a restart. -/
def restartedPasses : List (Frame × Outcome) :=
  passes listPlatform ((uniformNet diamond).nodes "10.0.0.2").me
    ((relayed "10.0.0.1" twoBroadcasts ++ relayed "10.0.0.1" restartBroadcast).map quietRound)
    ((uniformNet diamond).nodes "10.0.0.2").agent ∅

/-- A frame that was overtaken on its way is dropped though no copy of it has been
published: the only publication is the other frame. The first frame behind a restart is
dropped too, and what was published are the frames from before the restart. -/
theorem overtaken_and_restarted_dropped :
    (overtakenPasses.map (fun q => q.1.id) = [some (.int 2), some (.int 1)] ∧
      overtakenPasses.map (fun q => q.2.stop) = [none, some .duplicate] ∧
      (publications overtakenPasses).map (fun g => (hostKey g, g.id)) =
        [(.ok (.str "10.0.0.1"), some (.int 2))]) ∧
    restartedPasses.map (fun q => q.1.id) = [some (.int 1), some (.int 2), some (.int 1)] ∧
      restartedPasses.map (fun q => q.2.stop) = [none, none, some .duplicate] ∧
      publications restartedPasses = relayed "10.0.0.2" (relayed "10.0.0.1" twoBroadcasts) := by
  refine ⟨⟨rfl, by decide, rfl⟩, rfl, by decide, rfl⟩

theorem duplicate_drop_backed_overtaken :
    ∃ q ∈ overtakenPasses, q.2.stop = some .duplicate ∧
      ∃ g ∈ publications overtakenPasses, hostKey g = hostKey q.1 ∧ IdGe listPlatform g q.1 := by
  obtain ⟨q, q', hpasses, hstop⟩ : ∃ q q', overtakenPasses = [q, q'] ∧
      q'.2.stop = some .duplicate := ⟨_, _, rfl, by decide⟩
  obtain ⟨g, hg, hkey, hge, -⟩ := duplicate_drop_backed listPlatform
    ((uniformNet diamond).nodes "10.0.0.4").me (overtaken.map quietRound)
    ((uniformNet diamond).nodes "10.0.0.4").agent [q] [] q'.1 q'.2 hpasses hstop
  refine ⟨q', by simp [hpasses], hstop, g, ?_, hkey, hge⟩
  rw [hpasses]
  simp only [publications, List.flatMap_cons, List.mem_append] at hg ⊢
  rcases hg with hg | hg
  · exact Or.inl hg
  · simp at hg

end Nxwlan.DuplicateDrops
