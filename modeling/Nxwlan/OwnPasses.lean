import Nxwlan.OwnFrames

/-!
The forwarder's passes as long as the condition on the own frames is met. Over a
frame of the agent itself a pass goes through all stages up to the publication;
over a frame from the network it leaves the agent's own entries alone.
-/
namespace Nxwlan.OwnFrames

open JsonFrames AgentState Forwarder ForwarderStages Messaging ReceiveLoop AgentThreads ThreadSteps
open PublishedFrames StepRuns LocalDelivery
open FloodPasses (GoodName)
open ForwarderLife (Lives lives_iff)
open Base64 (Bytes)

variable {p : Platform} {me : Identity} {out : Outside} {s s' s₀ : Sys} {a b : Agent} {f : Frame}
  {lasthop : String} {key iv : Bytes}

/-- How far the forwarder is from the end of its pass. -/
def rank : FwdStage → ℕ
  | .idle => 16
  | .await _ events => 12 + events.length
  | .decode _ _ => 11
  | .retry _ _ _ events => 7 + events.length
  | .again _ _ _ => 6
  | .rescan _ events => 2 + events.length
  | .keys _ _ _ => 2
  | .scan _ => 1
  | .send _ _ _ _ _ => 1
  | .closed => 0

/-- What a step of the forwarder does to the frames: it gets on with its pass, ends it
with the publication of a frame of the agent itself, or is done with a frame from
the network. -/
inductive Passed (me : Identity) (s s' : Sys) : Prop where
  | on (hlog : s'.log = s.log) (hcache : s'.cache = s.cache) (hqueue : s'.toReceive = s.toReceive)
      (hrank : rank s'.forwarder < rank s.forwarder)
  | own {source : String × Bytes × Bytes} {f g : Frame} {n : ℤ}
      (hnext : s.arrived[s.log.length]? = some ⟨some source, f⟩) (hid : f.id = some (.int n))
      (hlog : s'.log = s.log ++ [none])
      (hcache : s'.cache = s.cache.insert (.str me.hostname) (.int n))
      (hqueue : s'.toReceive = s.toReceive ++ [g]) (hsame : g.host = f.host ∧ g.id = f.id)
      (hidle : s'.forwarder = .idle)
  | network {f : Frame} {stop : Option Stop} {gs : List Frame}
      (hnext : s.arrived[s.log.length]? = some ⟨none, f⟩) (hlog : s'.log = s.log ++ [stop])
      (hstop : stop ≠ some .ownUndecodable)
      (hcache : s'.cache.lookup (.str me.hostname) = s.cache.lookup (.str me.hostname))
      (hqueue : s'.toReceive = s.toReceive ++ gs) (hidle : s'.forwarder = .idle)

theorem Passed.log (h : Passed me s s') : s'.log = s.log ∨ ∃ stop, s'.log = s.log ++ [stop] := by
  cases h with
  | on hlog => exact Or.inl hlog
  | own _ _ hlog => exact Or.inr ⟨_, hlog⟩
  | network _ hlog => exact Or.inr ⟨_, hlog⟩

/-- No exception has ended the forwarder. -/
theorem Sane.alive (h : Sane p me s) : s.forwarder ≠ .closed := by
  intro hclosed
  cases hnext : s.arrived[s.log.length]? with
  | none =>
    have hidle := h.waiting hnext
    rw [hclosed] at hidle
    cases hidle
  | some arrival =>
    have hjob := h.job arrival hnext
    rw [hclosed] at hjob
    exact hjob

theorem pastGate_beforeDecode {stage : FwdStage} (h : pastGate stage = true) :
    beforeDecode stage = true := by
  cases stage with
  | await => rfl
  | decode => rfl
  | _ => cases h

/-- The forwarder gets on with its pass. -/
theorem Sane.advance {arrival : Arrival} {stage : FwdStage} (h : Sane p me s)
    (hf : Forwarded p me out s s') (hstage : s.forwarder = stage)
    (hlog : s'.log = s.log) (hcache : s'.cache = s.cache) (hqueue : s'.toReceive = s.toReceive)
    (hrank : rank s'.forwarder < rank stage)
    (hothers : ∀ n, n = me.hostname ∨ n = "old_keys" →
      s'.agent.globalNeighborList.lookup n = s.agent.globalNeighborList.lookup n)
    (hbefore : beforeDecode s'.forwarder = true → beforeDecode stage = true)
    (hgate : pastGate s'.forwarder = true → pastGate stage = true ∨
      s.agent.gates.processingChangeKeysEvent = true)
    (hnext : s.arrived[s.log.length]? = some arrival) (hjob : Job me arrival s'.forwarder) :
    Sane p me s' ∧ Passed me s s' := by
  subst hstage
  refine ⟨?_, .on hlog hcache hqueue hrank⟩
  obtain ⟨hfop, hsenders, hkey, -, harrived, -⟩ := forwarded_frame hf
  have hop : OwnOp me s.agent s'.agent := .of_fwdOp hfop hothers
  have hway : ∀ {lasthop key iv}, UnderWay s' lasthop key iv → UnderWay s lasthop key iv := by
    rintro lasthop key iv (⟨t, call, ht⟩ | ⟨i, f, hi, hun⟩)
    · exact Or.inl ⟨t, call, hsenders ▸ ht⟩
    · refine Or.inr ⟨i, f, harrived ▸ hi, ?_⟩
      unfold Undecoded at hun ⊢
      rw [hlog] at hun
      exact ⟨hun.1, fun hlen => hbefore (hun.2 hlen)⟩
  refine ⟨h.rotating.op hop (Or.inl hkey), hsenders ▸ h.calls, hsenders ▸ h.sends,
    harrived ▸ h.built, ?_, ?_, ?_, ?_, ?_⟩
  · exact fun key iv hw => hop.old key iv (h.old key iv (hway hw))
  · exact fun key iv hw => (h.own key iv (hway hw)).op hop hkey
  · intro key iv f hi hpast
    rw [harrived, hlog] at hi
    refine hop.own key iv ?_
    rcases hgate hpast with hpast' | hset
    · exact h.past key iv f hi hpast'
    · -- the event is set, so the key thread is not about to connect
      refine Covered.table (h.own key iv (Or.inr ⟨_, f, hi, le_rfl, fun _ =>
        hbefore (pastGate_beforeDecode hpast)⟩)) ?_
      intro key_old iv_old hstage
      have hevent := h.rotating.event
      rw [hset, hstage] at hevent
      cases hevent
  · intro arrival' hnext'
    rw [harrived, hlog, hnext] at hnext'
    obtain rfl := Option.some.inj hnext'
    exact hjob
  · intro hnone
    rw [harrived, hlog, hnext] at hnone
    cases hnone

/-- The forwarder gets on after the decryption of its frame. -/
theorem Sane.later {arrival : Arrival} {stage : FwdStage} (h : Sane p me s)
    (hf : Forwarded p me out s s') (hstage : s.forwarder = stage)
    (hlog : s'.log = s.log) (hcache : s'.cache = s.cache) (hqueue : s'.toReceive = s.toReceive)
    (hrank : rank s'.forwarder < rank stage)
    (hothers : ∀ n, n = me.hostname ∨ n = "old_keys" →
      s'.agent.globalNeighborList.lookup n = s.agent.globalNeighborList.lookup n)
    (hdecoded : beforeDecode s'.forwarder = false)
    (hnext : s.arrived[s.log.length]? = some arrival) (hjob : Job me arrival s'.forwarder) :
    Sane p me s' ∧ Passed me s s' := by
  refine h.advance hf hstage hlog hcache hqueue hrank hothers ?_ ?_ hnext hjob
  · intro hbefore
    rw [hdecoded] at hbefore
    cases hbefore
  · intro hpast
    rw [pastGate_beforeDecode hpast] at hdecoded
    cases hdecoded

/-- The forwarder is done with its frame and is alive. -/
theorem Sane.done {stop : Option Stop} (h : Sane p me s) (hf : Forwarded p me out s s')
    (hlog : s'.log = s.log ++ [stop]) (hidle : s'.forwarder = .idle)
    (hothers : ∀ n, n = me.hostname ∨ n = "old_keys" →
      s'.agent.globalNeighborList.lookup n = s.agent.globalNeighborList.lookup n) :
    Sane p me s' := by
  obtain ⟨hfop, hsenders, hkey, -, harrived, -⟩ := forwarded_frame hf
  have hop : OwnOp me s.agent s'.agent := .of_fwdOp hfop hothers
  have hlen : s'.log.length = s.log.length + 1 := by
    rw [hlog, List.length_append, List.length_singleton]
  have hway : ∀ {lasthop key iv}, UnderWay s' lasthop key iv → UnderWay s lasthop key iv := by
    rintro lasthop key iv (⟨t, call, ht⟩ | ⟨i, f, hi, hle, -⟩)
    · exact Or.inl ⟨t, call, hsenders ▸ ht⟩
    · exact Or.inr ⟨i, f, harrived ▸ hi, by omega, fun hi => by omega⟩
  refine ⟨h.rotating.op hop (Or.inl hkey), hsenders ▸ h.calls, hsenders ▸ h.sends,
    harrived ▸ h.built, ?_, ?_, ?_, ?_, ?_⟩
  · exact fun key iv hw => hop.old key iv (h.old key iv (hway hw))
  · exact fun key iv hw => (h.own key iv (hway hw)).op hop hkey
  · intro key iv f _ hpast
    rw [hidle] at hpast
    cases hpast
  · intro arrival _
    rw [hidle]
    trivial
  · exact fun _ => hidle

theorem finish_idle {r : Sys} {stop : Option Stop} (h : (r.finish stop).forwarder ≠ .closed) :
    (r.finish stop).forwarder = .idle := by
  revert h
  unfold Sys.finish
  dsimp only
  split
  · exact fun h => absurd rfl h
  · exact fun _ => rfl

theorem gate_of_wait {e : Event} {events : List Event} (hset : Agent.isSet s.agent e = true)
    (h : pastGate (.await f events) = true) :
    pastGate (.await f (e :: events)) = true ∨ s.agent.gates.processingChangeKeysEvent = true := by
  by_cases he : e = .changeKeys
  · subst he
    exact Or.inr hset
  · refine Or.inl ?_
    simp only [pastGate, Bool.not_eq_true', List.contains_cons, Bool.or_eq_false_iff] at h ⊢
    exact ⟨by simpa using Ne.symm he, h⟩

/-- The forwarder and a frame of the agent itself: nothing stops it. -/
theorem Sane.forwardsOwn {f₀ : Frame} (hp : p.Lawful) (hme : GoodName me.hostname)
    (h : Sane p me s) (hf : Forwarded p me out s s')
    (hnext : s.arrived[s.log.length]? = some ⟨some (lasthop, key, iv), f₀⟩)
    (hseen : seen p s.cache f₀ = .ok false) : Sane p me s' ∧ Passed me s s' := by
  have hmoved := hf
  have hbuilt := h.built _ _ _ _ _ hnext
  have hjob := h.job _ hnext
  obtain ⟨f₁, hfilter₁, hcounted₁⟩ := built_filtered hbuilt hseen
  -- the keys of a frame that is in front of its decryption are in the table
  have hkeys : pastGate s.forwarder = true → HasKeys s.agent lasthop key iv := by
    intro hpast
    rcases hbuilt.1 with rfl | rfl
    · exact h.past key iv f₀ hnext hpast
    · exact h.old key iv (underWay_of_pastGate hnext hpast)
  cases hf with
  | drop hstage hnext' hfilter =>
    obtain rfl := Option.some.inj (hnext.symm.trans hnext')
    rw [hfilter₁] at hfilter
    cases hfilter
  | take hstage hnext' hfilter =>
    obtain rfl := Option.some.inj (hnext.symm.trans hnext')
    rw [hfilter₁] at hfilter
    obtain rfl := Except.ok.inj hfilter
    exact h.advance hmoved hstage rfl rfl rfl (by simp [rank]) (fun _ _ => rfl) (fun _ => rfl)
      (by simp [pastGate]) hnext ⟨hcounted₁, by simp⟩
  | wait hstage hset =>
    rw [hstage] at hjob
    exact h.advance hmoved hstage rfl rfl rfl (by simp [rank]) (fun _ _ => rfl) (fun _ => rfl)
      (gate_of_wait hset) hnext ⟨hjob.1, by simp⟩
  | markRaises hstage hmark =>
    rw [hstage] at hjob
    rw [built_marked hme hbuilt hjob.1] at hmark
    cases hmark
  | marked hstage hmark =>
    rw [hstage] at hjob
    rw [built_marked hme hbuilt hjob.1] at hmark
    obtain ⟨rfl, rfl⟩ := Prod.mk.inj (Except.ok.inj hmark)
    exact h.advance hmoved hstage rfl rfl rfl (by simp [rank]) (fun _ _ => rfl) (fun _ => rfl)
      (fun _ => Or.inl rfl) hnext ⟨hjob.1, rfl, by simp⟩
  | decodeStops hstage hfirst
  | retries hstage hfirst =>
    rw [hstage] at hjob hkeys
    obtain ⟨hcounted, rfl, -⟩ := hjob
    obtain ⟨plain, hplain⟩ := built_decoded hp hbuilt hcounted (hkeys rfl)
    simp only [Option.isNone_some, hplain] at hfirst
    cases hfirst
  | decoded hstage hfirst =>
    rw [hstage] at hjob hkeys
    obtain ⟨hcounted, rfl, -⟩ := hjob
    obtain ⟨plain, hplain⟩ := built_decoded hp hbuilt hcounted (hkeys rfl)
    simp only [Option.isNone_some, hplain] at hfirst
    obtain rfl := First.decoded.inj hfirst
    refine h.later hmoved hstage rfl rfl rfl (by simp [rank]) (fun _ _ => rfl) rfl hnext
      ⟨hcounted, rfl, by simp, ?_⟩
    rintro lasthop' key' iv' ⟨⟩
    exact ⟨rfl, rfl, rfl⟩
  | retryWait hstage
  | retried hstage
  | againRaises hstage
  | againDecoded hstage
  | lost hstage
  | rescans hstage
  | rescanWait hstage
  | rescanned hstage
  | scanned hstage =>
    rw [hstage] at hjob
    cases hjob.1
  | readKeys hstage =>
    rename_i f nb d
    rw [hstage] at hjob
    obtain ⟨hcounted, rfl, -, hsource⟩ := hjob
    obtain ⟨-, hdkey, hdiv⟩ := hsource _ _ _ rfl
    have haes : aesAccepts (publicationKeys s.agent d).1 (publicationKeys s.agent d).2 = true := by
      unfold publicationKeys
      split
      · rw [hdkey, hdiv]
        exact hbuilt.2.1
      · exact aesAccepts_of_length h.rotating.key h.rotating.iv
    exact h.later hmoved hstage rfl rfl rfl (by simp [rank]) (fun _ _ => rfl) rfl hnext
      ⟨hcounted, rfl, by simp, fun _ => haes⟩
  | sent hstage =>
    rename_i f nb d sendKey sendIv
    rw [hstage] at hjob
    obtain ⟨hcounted, rfl, -, haes⟩ := hjob
    obtain ⟨id, hid, hsend⟩ := built_sent hbuilt hcounted s.agent s.cache d (haes (by simp))
    obtain ⟨ttl, rfl⟩ := hcounted
    simp only [Option.isNone_some, hsend] at hmoved ⊢
    exact ⟨h.done hmoved rfl rfl (fun _ _ => rfl), .own hnext hid rfl rfl rfl ⟨rfl, rfl⟩ rfl⟩

/-- The first decryption looks up the frame's last hop. -/
theorem firstDecode_name {nb : Bool} {name : String}
    (h : (∃ d : Decoded, d.lasthop = name ∧ firstDecode p me a nb f = .decoded d) ∨
      ∃ entry, firstDecode p me a nb f = .retry name entry) :
    f.lasthop = some (.str name) := by
  have hentry : ∃ entry, lasthopEntry f a.globalNeighborList = .ok (some (name, entry)) := by
    unfold firstDecode at h
    rcases hl : lasthopEntry f a.globalNeighborList with e | _ | ⟨name', entry⟩
    · simp [hl] at h
    · simp [hl] at h
    · suffices hname : name' = name from ⟨entry, by rw [hname]⟩
      simp only [hl] at h
      rcases h with ⟨d, hd, hfirst⟩ | ⟨entry', hfirst⟩
      · split at hfirst
        · cases hfirst
        · rw [← hd, ← First.decoded.inj hfirst]
        · split at hfirst
          · split at hfirst
            · cases hfirst
            · rw [← hd, ← First.decoded.inj hfirst]
            · cases hfirst
          · cases hfirst
      · split at hfirst
        · cases hfirst
        · cases hfirst
        · split at hfirst
          · split at hfirst
            · cases hfirst
            · cases hfirst
            · exact (First.retry.inj hfirst).1
          · cases hfirst
  obtain ⟨entry, hentry⟩ := hentry
  exact (lasthopEntry_some hentry).1

/-- A neighbor's frame is remembered under another name. -/
theorem remember_foreign {cache cache' : FwdCache} (h : remember cache f = .ok cache')
    (hfor : foreign me f = true) :
    cache'.lookup (.str me.hostname) = cache.lookup (.str me.hostname) := by
  unfold remember at h
  cases hhost : f.host with
  | none => simp [hhost, field, bind, Except.bind] at h
  | some host =>
    simp only [hhost, field, bind, Except.bind] at h
    cases hkey : host.dictKey with
    | error e => simp [hkey] at h
    | ok k =>
      simp only [hkey, pure, Except.pure] at h
      have hne : DictKey.str me.hostname ≠ k := by
        rintro rfl
        cases host with
        | str name =>
          simp only [Json.dictKey, Except.ok.injEq, DictKey.str.injEq] at hkey
          simp [foreign, hhost, hkey, Json.isStr] at hfor
        | _ => simp [Json.dictKey] at hkey
      split at h
      · cases h
      · obtain rfl := Except.ok.inj h
        exact AList.lookup_insert_ne hne

theorem sendOn_cache {cache : FwdCache} {nb : Bool} {d : Decoded} {sendKey sendIv : Bytes}
    (hfor : foreign me f = true) :
    (sendOn p me a cache nb d sendKey sendIv f).cache.lookup (.str me.hostname) =
      cache.lookup (.str me.hostname) := by
  rcases sendOn_cases p me a cache nb d sendKey sendIv f with
    ⟨e, h⟩ | ⟨b, -, -, ⟨e, -, h⟩ | ⟨cache', hrem, h⟩⟩
  · rw [h]
  · rw [h]
  · rw [h]
    exact remember_foreign hrem hfor

theorem filterFrame_stop {cache : FwdCache} {stop : Stop}
    (h : filterFrame p me cache f = .error stop) : some stop ≠ some .ownUndecodable := by
  rintro ⟨⟩
  unfold filterFrame at h
  split at h
  · cases h
  · split at h
    · cases h
    · split at h
      · cases h
      · cases h
      · split at h
        · cases h
        · cases h
        · cases h

theorem countLoss_not_own {name : String} {stop : Stop} (h : countLoss out a name = .stop b stop) :
    some stop ≠ some .ownUndecodable := by
  rintro ⟨⟩
  unfold countLoss at h
  split at h
  · cases h
  · split at h
    · dsimp only at h
      split at h
      · cases h
      · split at h
        · cases h
        · cases h
    · cases h

theorem rescanStep_not_own (out : Outside) (me : Identity) (a : Agent) (name : String) :
    some (rescanStep out me a name).2 ≠ some .ownUndecodable := by
  unfold rescanStep
  split
  · simp
  · split
    · simp
    · simp

theorem sendOn_not_own (p : Platform) (me : Identity) (a : Agent) (cache : FwdCache) (nb : Bool)
    (d : Decoded) (sendKey sendIv : Bytes) (f : Frame) :
    (sendOn p me a cache nb d sendKey sendIv f).stop ≠ some .ownUndecodable := by
  rcases sendOn_cases p me a cache nb d sendKey sendIv f with
    ⟨e, h⟩ | ⟨b, -, -, ⟨e, -, h⟩ | ⟨cache', -, h⟩⟩
  · simp [h]
  · simp [h]
  · simp [h]

theorem OtherName.ne {name : String} (h : OtherName me name) {n : String}
    (hn : n = me.hostname ∨ n = "old_keys") : n ≠ name := by
  rintro rfl
  exact hn.elim h.1 h.2

/-- The forwarder and a frame from the network: it leaves the agent's own entries
alone. -/
theorem Sane.forwardsNetwork {f₀ : Frame} (h : Sane p me s) (hf : Forwarded p me out s s')
    (hnext : s.arrived[s.log.length]? = some ⟨none, f₀⟩)
    (hback : s.forwarder = .idle → Filtered p me s.cache f₀ ∨ Strange me f₀)
    (hlives : Lives p me out s) : Sane p me s' ∧ Passed me s s' := by
  have hmoved := hf
  have halive := (lives_iff hf).mpr hlives
  have hjob := h.job _ hnext
  -- the ends of a pass that publish nothing
  have hdone : ∀ {b : Agent} {stop : Option Stop},
      Forwarded p me out s ({ s with agent := b }.finish stop) →
      stop ≠ some .ownUndecodable → ({ s with agent := b }.finish stop).forwarder ≠ .closed →
      (∀ n, n = me.hostname ∨ n = "old_keys" →
        b.globalNeighborList.lookup n = s.agent.globalNeighborList.lookup n) →
      Sane p me ({ s with agent := b }.finish stop) ∧
        Passed me s ({ s with agent := b }.finish stop) := by
    intro b stop hmoved hstop halive hothers
    have hqueue : s.toReceive = s.toReceive ++ [] := (List.append_nil s.toReceive).symm
    exact ⟨h.done hmoved rfl (finish_idle halive) hothers,
      .network hnext rfl hstop rfl hqueue (finish_idle halive)⟩
  cases hf with
  | drop _ _ hfilter => exact hdone hmoved (filterFrame_stop hfilter) halive (fun _ _ => rfl)
  | take hstage hnext' hfilter =>
    obtain rfl := Option.some.inj (hnext.symm.trans hnext')
    have hstrange : Strange me f₀ := (hback hstage).resolve_left (fun h => h.not_taken _ hfilter)
    obtain ⟨-, ttl, -, -, -, -, -, rfl⟩ := filterFrame_ok hfilter
    exact h.advance hmoved hstage rfl rfl rfl (by simp [rank]) (fun _ _ => rfl) (fun _ => rfl)
      (by simp [pastGate]) hnext ⟨⟨_, rfl⟩, fun _ => hstrange⟩
  | wait hstage hset =>
    rw [hstage] at hjob
    exact h.advance hmoved hstage rfl rfl rfl (by simp [rank]) (fun _ _ => rfl) (fun _ => rfl)
      (gate_of_wait hset) hnext hjob
  | markRaises => exact absurd rfl halive
  | marked hstage hmark =>
    rw [hstage] at hjob
    obtain ⟨hcounted, hstrange⟩ := hjob
    have hnb := (foreign_of_mark hmark).trans (hstrange rfl).1
    have htable := (mark_ok hmark).1
    exact h.advance hmoved hstage rfl rfl rfl (by simp [rank])
      (fun n _ => congrArg (AList.lookup n) htable) (fun _ => rfl) (fun _ => Or.inl rfl) hnext
      ⟨hcounted, hnb, hstrange⟩
  | decodeStops hstage hfirst =>
    rw [hstage] at hjob
    obtain ⟨-, rfl, -⟩ := hjob
    rcases firstDecode_stop hfirst with ⟨rfl, ⟨e, rfl⟩ | ⟨rfl, -⟩⟩ | ⟨hnb, -⟩
    · exact absurd rfl halive
    · exact hdone hmoved (by simp) halive (fun _ _ => rfl)
    · cases hnb
  | decoded hstage hfirst =>
    rw [hstage] at hjob
    obtain ⟨hcounted, hnb, hstrange⟩ := hjob
    obtain ⟨hfor, hname⟩ := hstrange rfl
    have hother := hname _ (firstDecode_name (Or.inl ⟨_, rfl, hfirst⟩))
    exact h.later hmoved hstage rfl rfl rfl (by simp [rank]) (fun _ _ => rfl) rfl hnext
      ⟨hcounted, hnb, fun _ => ⟨hother, hfor⟩, by simp⟩
  | retries hstage hfirst =>
    rw [hstage] at hjob
    obtain ⟨hcounted, -, hstrange⟩ := hjob
    obtain ⟨hfor, hname⟩ := hstrange rfl
    have hother := hname _ (firstDecode_name (Or.inr ⟨_, hfirst⟩))
    exact h.later hmoved hstage rfl rfl rfl (by simp [rank]) (fun _ _ => rfl) rfl hnext
      ⟨rfl, hother, hfor, hcounted⟩
  | retryWait hstage
  | retried hstage
  | rescanWait hstage
  | rescanned hstage =>
    rw [hstage] at hjob
    exact h.later hmoved hstage rfl rfl rfl (by simp [rank]) (fun _ _ => rfl) rfl hnext hjob
  | againRaises => exact absurd rfl halive
  | againDecoded hstage =>
    rw [hstage] at hjob
    obtain ⟨-, hother, hfor, hcounted⟩ := hjob
    exact h.later hmoved hstage rfl rfl rfl (by simp [rank]) (fun _ _ => rfl) rfl hnext
      ⟨hcounted, rfl, fun _ => ⟨hother, hfor⟩, by simp⟩
  | lost hstage hloss =>
    rw [hstage] at hjob
    exact hdone hmoved (countLoss_not_own hloss) halive
      (fun n hn => (countLoss_stop hloss).2.1 n (hjob.2.1.ne hn))
  | rescans hstage hloss =>
    rw [hstage] at hjob
    obtain ⟨entry, rfl⟩ := countLoss_rescan hloss
    exact h.later hmoved hstage rfl rfl rfl (by simp [rank])
      (fun n hn => AList.lookup_insert_ne (hjob.2.1.ne hn)) rfl hnext ⟨rfl, hjob.2.1⟩
  | scanned hstage =>
    rw [hstage] at hjob
    exact hdone hmoved (rescanStep_not_own out me _ _) halive
      (fun n hn => (rescanStep_op out me _ _).others n (hjob.2.ne hn))
  | readKeys hstage =>
    rw [hstage] at hjob
    obtain ⟨hcounted, hnb, hother, -⟩ := hjob
    exact h.later hmoved hstage rfl rfl rfl (by simp [rank]) (fun _ _ => rfl) rfl hnext
      ⟨hcounted, hnb, hother, fun hne => absurd rfl hne⟩
  | sent hstage =>
    rw [hstage] at hjob
    obtain ⟨-, -, hother, -⟩ := hjob
    obtain ⟨hother, hfor⟩ := hother rfl
    refine ⟨h.done hmoved rfl (finish_idle halive) ?_,
      .network hnext rfl (sendOn_not_own p me _ _ _ _ _ _ _) (sendOn_cache hfor) rfl
        (finish_idle halive)⟩
    exact fun n hn => (sendOn_op p me _ _ _ _ _ _ _).others n (hother.ne hn)

theorem Sane.receive (h : Sane p me s) (hr : receiveStep p me s = some s') : Sane p me s' := by
  rcases receive_cases hr with ⟨g, rest, -, -, rfl⟩ | ⟨g, a, stage, -, -, rfl, ha⟩
  · exact h.outer (.refl me s.agent) (Or.inl rfl) h.calls (fun _ _ _ _ _ ht => ht) rfl rfl rfl
  · have hop : OwnOp me s.agent a := by
      rcases ha with ⟨-, rfl, -⟩ | ⟨-, rfl, -⟩
      · exact .of_table rfl rfl rfl rfl rfl
      · exact .refl me s.agent
    exact h.outer hop (Or.inl rfl) h.calls (fun _ _ _ _ _ ht => ht) rfl rfl rfl

/-- All steps that meet the condition. A frame of the agent itself must not look like
one that was seen before. -/
theorem Sane.step {act : Action} (hp : p.Lawful) (hme : GoodName me.hostname) (h : Sane p me s)
    (hseen : ∀ source f, s.arrived[s.log.length]? = some ⟨some source, f⟩ →
      seen p s.cache f = .ok false)
    (hcond : Orderly p me s act) (hstep : AgentThreads.step p me s act = some s') :
    Sane p me s' ∧ (∀ out, act = .forwarder out → Passed me s s') := by
  cases act with
  | call t call =>
    obtain ⟨-, -, rfl⟩ := call_of_step hstep
    refine ⟨h.outer (.refl me s.agent) (Or.inl rfl) (setSender_calls h ?_)
      (setSender_send (by simp)) rfl rfl rfl, by simp⟩
    rintro call' ⟨⟩
    exact hcond
  | sender t now => exact ⟨h.moved hme (moved_of_step hstep) hcond.1, by simp⟩
  | changeKeys x => exact ⟨h.rotated hme (rotated_of_step hstep) hcond.1, by simp⟩
  | forwarder out =>
    have hf : Forwarded p me out s s' := forwarded_of_step hstep
    suffices hboth : Sane p me s' ∧ Passed me s s' from ⟨hboth.1, fun _ _ => hboth.2⟩
    rcases hnext : s.arrived[s.log.length]? with _ | ⟨_ | ⟨lasthop, key, iv⟩, f⟩
    · -- without a frame the forwarder cannot move
      have hidle := h.waiting hnext
      simp only [AgentThreads.step, forwarderStep, hidle, hnext] at hstep
      cases hstep
    · obtain ⟨hback, hlives⟩ := hcond f hnext
      exact h.forwardsNetwork hf hnext hback hlives
    · exact h.forwardsOwn hp hme hf hnext (hseen _ f hnext)
  | receive => exact ⟨h.receive hstep, by simp⟩
  | arrive f =>
    obtain rfl := Option.some.inj hstep
    exact ⟨h.arrives (x := ⟨none, f⟩) rfl rfl h.calls (fun _ _ _ _ _ ht => ht) rfl rfl rfl
      (by simp), by simp⟩
  | other b =>
    obtain ⟨-, rfl⟩ := other_of_step hstep
    exact ⟨h.outer hcond.1 (Or.inl rfl) h.calls (fun _ _ _ _ _ ht => ht) rfl rfl rfl, by simp⟩

theorem Sane.start (hstart : Started me s₀) : Sane p me s₀ := by
  have hnone : ∀ i : ℕ, s₀.arrived[i]? = none := by
    rw [hstart.arrived]
    exact fun i => rfl
  have hway : ∀ {lasthop key iv}, ¬ UnderWay s₀ lasthop key iv := by
    rintro lasthop key iv (⟨t, call, ht⟩ | ⟨i, f, hi, -⟩)
    · rw [hstart.senders] at ht
      cases ht
    · rw [hnone] at hi
      cases hi
  refine ⟨⟨hstart.key, hstart.iv, ?_, fun _ => hstart.own, ?_, hstart.frontend⟩, ?_, ?_, ?_,
    fun _ _ hw => absurd hw hway, fun _ _ hw => absurd hw hway, ?_, ?_, fun _ => hstart.forwarder⟩
  · obtain ⟨e, he, -⟩ := hstart.own
    exact Option.isSome_iff_exists.mpr ⟨e, he⟩
  · rw [hstart.gates, hstart.keyThread]
    rfl
  · rw [hstart.senders]
    simp [Sender.call?]
  · rw [hstart.senders]
    simp
  · intro i _ _ _ _ hi
    rw [hnone] at hi
    cases hi
  · intro _ _ _ hi
    rw [hnone] at hi
    cases hi
  · intro _ hi
    rw [hnone] at hi
    cases hi

end Nxwlan.OwnFrames
