import Nxwlan.OwnPasses

/-!
What becomes of the agent's own frames. As long as no thread sends between the
sending and the increment of another one, the message numbers grow in the order
of sending, so that the forwarder takes no own frame for a duplicate; it then
publishes them all, one after the other, under a fair scheduler.
-/
namespace Nxwlan.OwnPublication

open JsonFrames AgentState Forwarder ForwarderStages Messaging ReceiveLoop AgentThreads ThreadSteps
open PublishedFrames StepRuns LocalDelivery OwnFrames
open FloodPasses (GoodName)
open Base64 (Bytes)

variable {p : Platform} {me : Identity} {out : Outside} {s s' s₀ : Sys} {a b : Agent} {f g : Frame}
  {i j : ℕ}

/-- A frame of the agent itself has come to the forwarder at place `i`. -/
def OwnAt (s : Sys) (i : ℕ) (f : Frame) : Prop := ∃ source, s.arrived[i]? = some ⟨some source, f⟩

/-- The frames that the forwarder has published, in this order. -/
def published (s : Sys) : List Frame :=
  s.received.map Prod.fst ++ s.receiver.inHand ++ s.toReceive

/-- The numbers of the own frames: they grow in the order of sending and are below the
agent's counter, but for a frame whose thread has yet to increment it. The cache
has the number of an own frame that the forwarder is done with. -/
structure Numbered (me : Identity) (s : Sys) : Prop where
  increasing : ∀ i j f g m n, i < j → OwnAt s i f → OwnAt s j g → f.id = some (.int m) →
    g.id = some (.int n) → m < n
  below : ∀ i f m, OwnAt s i f → f.id = some (.int m) →
    m < s.agent.local_id ∨ m = s.agent.local_id ∧ ∃ t, s.senders t = .increment
  cache : ∀ last, s.cache.lookup (.str me.hostname) = some last →
    ∃ i f, OwnAt s i f ∧ i < s.log.length ∧ f.id = some last
  keyThread : s.keyThread = .sending ∨ s.keyThread = .ended ∨ s.senders .changeKeys = .idle

/-- Every own frame that the forwarder is done with has been published; none was given
up as undecodable. -/
structure Logged (s : Sys) : Prop where
  length : s.log.length ≤ s.arrived.length
  decoded : some Stop.ownUndecodable ∉ s.log
  own : ∀ i f stop, OwnAt s i f → s.log[i]? = some stop →
    stop = none ∧ ∃ g ∈ published s, g.host = f.host ∧ g.id = f.id

theorem ownAt_id (hs : Sane p me s) (h : OwnAt s i f) : ∃ n, f.id = some (.int n) := by
  obtain ⟨⟨lasthop, key, iv⟩, hi⟩ := h
  obtain ⟨-, -, n, _, _, _, _, _, -, rfl⟩ := hs.built _ _ _ _ _ hi
  exact ⟨n, rfl⟩

/-- The next own frame does not look like one that was seen before. -/
theorem Numbered.seen (h : Numbered me s) (hs : Sane p me s) (hown : OwnAt s s.log.length f) :
    Forwarder.seen p s.cache f = .ok false := by
  obtain ⟨⟨lasthop, key, iv⟩, hnext⟩ := hown
  obtain ⟨-, -, id, ttl, msg_type, sub_type, nodeID, plain, -, rfl⟩ := hs.built _ _ _ _ _ hnext
  simp only [Forwarder.seen, initialFrame, field, Except.bind, Json.dictKey]
  cases hlook : s.cache.lookup (.str me.hostname) with
  | none => rfl
  | some last =>
    obtain ⟨i, f, hi, hlt, hid⟩ := h.cache last hlook
    obtain ⟨⟨lasthop', key', iv'⟩, hi'⟩ := hi
    obtain ⟨-, -, m, _, _, _, _, _, -, rfl⟩ := hs.built _ _ _ _ _ hi'
    obtain rfl := Option.some.inj hid
    have hmn := h.increasing i _ _ _ m id hlt ⟨_, hi'⟩ ⟨_, hnext⟩ rfl rfl
    simp only [Except.map, Json.ge, Except.ok.injEq, decide_eq_false_iff_not]
    omega

theorem ownAt_snoc {x : Arrival} (harrived : s'.arrived = s.arrived ++ [x]) (h : OwnAt s' i f) :
    OwnAt s i f ∨ i = s.arrived.length ∧ ∃ source, x = ⟨some source, f⟩ := by
  obtain ⟨source, hi⟩ := h
  rw [harrived] at hi
  rcases getElem?_snoc hi with hi | ⟨hlen, hx⟩
  · exact Or.inl ⟨source, hi⟩
  · exact Or.inr ⟨hlen, source, hx.symm⟩

theorem OwnAt.congr (h : OwnAt s' i f) (harrived : s'.arrived = s.arrived) : OwnAt s i f := by
  obtain ⟨source, hi⟩ := h
  exact ⟨source, harrived ▸ hi⟩

theorem OwnAt.snoc {x : Arrival} (h : OwnAt s i f) (harrived : s'.arrived = s.arrived ++ [x]) :
    OwnAt s' i f := by
  obtain ⟨source, hi⟩ := h
  refine ⟨source, ?_⟩
  rw [harrived, List.getElem?_append_left (List.getElem?_eq_some_iff.mp hi).1]
  exact hi

theorem OwnAt.lt_length (h : OwnAt s i f) : i < s.arrived.length := by
  obtain ⟨source, hi⟩ := h
  exact (List.getElem?_eq_some_iff.mp hi).1

/-- A step that sends nothing and leaves the counter alone, and the cache as well or
has the forwarder end with an own frame. -/
theorem Numbered.keep (h : Numbered me s) (harrived : s'.arrived = s.arrived)
    (hid : s'.agent.local_id = s.agent.local_id)
    (hincrement : ∀ t, s.senders t = .increment → s'.senders t = .increment)
    (hcache : ∀ last, s'.cache.lookup (.str me.hostname) = some last →
      s.cache.lookup (.str me.hostname) = some last ∨
        ∃ i f, OwnAt s i f ∧ i < s'.log.length ∧ f.id = some last)
    (hlog : s.log.length ≤ s'.log.length)
    (hkey : s'.keyThread = .sending ∨ s'.keyThread = .ended ∨ s'.senders .changeKeys = .idle) :
    Numbered me s' := by
  refine ⟨?_, ?_, ?_, hkey⟩
  · intro i j f g m n hij hi hj hm hn
    exact h.increasing i j f g m n hij (hi.congr harrived) (hj.congr harrived) hm hn
  · intro i f m hi hm
    rw [hid]
    refine (h.below i f m (hi.congr harrived) hm).imp_right (And.imp_right ?_)
    rintro ⟨t, ht⟩
    exact ⟨t, hincrement t ht⟩
  · intro last hlast
    rcases hcache last hlast with hlast | ⟨i, f, hi, hlt, hf⟩
    · obtain ⟨i, f, hi, hlt, hf⟩ := h.cache last hlast
      exact ⟨i, f, hi.congr harrived.symm, by omega, hf⟩
    · exact ⟨i, f, hi.congr harrived.symm, hlt, hf⟩

/-- The key thread sends only between two of its stages. -/
theorem Numbered.keyThread_setSender {t : Tid} {stage : Sender} (h : Numbered me s)
    (hbusy : s.senders t ≠ .idle ∨ t ≠ .changeKeys) :
    s.keyThread = .sending ∨ s.keyThread = .ended ∨
      (s.setSender t stage).senders .changeKeys = .idle := by
  refine h.keyThread.imp_right (Or.imp_right ?_)
  intro hidle
  have hne : Tid.changeKeys ≠ t := by
    rintro rfl
    exact hbusy.elim (fun hb => hb hidle) (fun hb => hb rfl)
  exact (Sys.setSender_of_ne s stage hne).trans hidle

/-- A thread that is not about to increment the counter goes to another stage. -/
theorem Numbered.setSender {t : Tid} {stage : Sender} (h : Numbered me s)
    (hstage : s.senders t ≠ .increment) (hbusy : s.senders t ≠ .idle ∨ t ≠ .changeKeys)
    (hid : b.local_id = s.agent.local_id) :
    Numbered me { s.setSender t stage with agent := b } := by
  refine h.keep rfl hid ?_ (fun _ hl => Or.inl hl) le_rfl (h.keyThread_setSender hbusy)
  intro t' ht'
  have hne : t' ≠ t := by
    rintro rfl
    exact hstage ht'
  exact (Sys.setSender_of_ne s stage hne).trans ht'

/-- The steps of the sending threads. -/
theorem Numbered.moved {t : Tid} {now : ℤ} (h : Numbered me s) (hm : Moved p me now s t s')
    (hcond : ∀ call lasthop key iv f, s.senders t = .send call lasthop key iv →
      Call.build p me s.agent call lasthop key iv = .ok (some f) →
        ∀ t', s.senders t' ≠ .increment) : Numbered me s' := by
  cases hm with
  | wait hstage =>
    exact h.setSender (b := s.agent) (by simp [hstage]) (Or.inl (by simp [hstage])) rfl
  | cleared hstage =>
    exact h.setSender (by simp [hstage]) (Or.inl (by simp [hstage])) (setEvent_key _ _ _).2.2.1
  | readKeys hstage =>
    refine h.setSender (by simp [hstage]) (Or.inl (by simp [hstage])) ?_
    rw [storeOldKeys_rest]
  | raises hstage =>
    exact h.setSender (b := s.agent) (by simp [hstage]) (Or.inl (by simp [hstage])) rfl
  | unknown hstage => exact h.setSender (by simp [hstage]) (Or.inl (by simp [hstage])) rfl
  | sent hstage hbuild =>
    rename_i call lasthop key iv f₀
    have hfree := hcond call lasthop key iv f₀ hstage hbuild
    have hbelow : ∀ i f m, OwnAt s i f → f.id = some (.int m) → m < s.agent.local_id := by
      intro i f m hi hm
      rcases h.below i f m hi hm with hlt | ⟨-, t', ht'⟩
      · exact hlt
      · exact absurd ht' (hfree t')
    obtain ⟨-, plain, rfl⟩ := build_frame hbuild
    refine ⟨?_, ?_, ?_, h.keyThread_setSender (Or.inl (by simp [hstage]))⟩
    · intro i j f g m n hij hi hj hm hn
      rcases ownAt_snoc rfl hi with hi | ⟨rfl, -⟩
      · rcases ownAt_snoc rfl hj with hj | ⟨-, source, hx⟩
        · exact h.increasing i j f g m n hij hi hj hm hn
        · obtain ⟨-, rfl⟩ := Arrival.mk.inj hx
          obtain rfl := Json.int.inj (Option.some.inj hn)
          exact hbelow i f m hi hm
      · rcases ownAt_snoc rfl hj with hj | ⟨rfl, -⟩
        · exact absurd hj.lt_length (by omega)
        · omega
    · intro i f m hi hm
      rcases ownAt_snoc rfl hi with hi | ⟨-, source, hx⟩
      · exact Or.inl (hbelow i f m hi hm)
      · obtain ⟨-, rfl⟩ := Arrival.mk.inj hx
        obtain rfl := Json.int.inj (Option.some.inj hm)
        exact Or.inr ⟨rfl, t, Sys.setSender_self s t .increment⟩
    · intro last hlast
      obtain ⟨i, f, hi, hlt, hf⟩ := h.cache last hlast
      exact ⟨i, f, hi.snoc rfl, hlt, hf⟩
  | incremented hstage =>
    refine ⟨h.increasing, ?_, h.cache, h.keyThread_setSender (Or.inl (by simp [hstage]))⟩
    intro i f m hi hm
    refine Or.inl ?_
    dsimp only
    rcases h.below i f m hi hm with hlt | ⟨rfl, -⟩
    · omega
    · omega

/-- The steps of the key thread. -/
theorem Numbered.rotated {x : Rotation} (h : Numbered me s) (hr : Rotated me x s s') :
    Numbered me s' := by
  have hkeep : ∀ {b : Agent} {stage : KeyStage}, b.local_id = s.agent.local_id →
      s.keyThread ≠ .sending → s.keyThread ≠ .ended →
      Numbered me { s with agent := b, keyThread := stage } := by
    intro b stage hid hne hne'
    refine h.keep rfl hid (fun _ ht => ht) (fun _ hl => Or.inl hl) le_rfl (Or.inr (Or.inr ?_))
    exact (h.keyThread.resolve_left hne).resolve_left hne'
  cases hr with
  | wakes hstage
  | wait hstage
  | cleared hstage
  | replaced hstage
  | validateWait hstage
  | validated hstage
  | released hstage => exact hkeep rfl (by simp [hstage]) (by simp [hstage])
  | connected hstage =>
    exact hkeep (joinOne_rest x.outside me s.agent _).2.2.1 (by simp [hstage]) (by simp [hstage])
  | announced hstage =>
    have hidle : s.senders .changeKeys = .idle := by
      simpa [hstage] using h.keyThread
    refine h.keep rfl rfl ?_ (fun _ hl => Or.inl hl) le_rfl (Or.inl rfl)
    intro t ht
    have hne : t ≠ .changeKeys := by
      rintro rfl
      rw [hidle] at ht
      cases ht
    exact (Sys.setSender_of_ne s _ hne).trans ht
  | fails =>
    exact h.keep rfl rfl (fun _ ht => ht) (fun _ hl => Or.inl hl) le_rfl (Or.inr (Or.inl rfl))
  | stamped _ hidle =>
    exact h.keep rfl rfl (fun _ ht => ht) (fun _ hl => Or.inl hl) le_rfl (Or.inr (Or.inr hidle))
  | removed hstage =>
    exact hkeep (leaveAll_op x.outside _ s.agent).1.local_id (by simp [hstage]) (by simp [hstage])

/-- The steps of the forwarder. -/
theorem Numbered.forwarded (h : Numbered me s) (hf : Forwarded p me out s s')
    (hpass : Passed me s s') : Numbered me s' := by
  obtain ⟨hop, hsenders, hkey, -, harrived, -⟩ := forwarded_frame hf
  have hthread : s'.keyThread = .sending ∨ s'.keyThread = .ended ∨
      s'.senders .changeKeys = .idle := by
    rw [hkey, hsenders]
    exact h.keyThread
  refine h.keep harrived hop.local_id (fun _ ht => hsenders ▸ ht) ?_ ?_ hthread
  · intro last hlast
    cases hpass with
    | on _ hcache => exact Or.inl (hcache ▸ hlast)
    | own hnext hid hlog hcache hqueue hsame hidle =>
      rename_i source f₀ g n
      rw [hcache, AList.lookup_insert] at hlast
      obtain rfl := Option.some.inj hlast
      refine Or.inr ⟨s.log.length, f₀, ⟨source, hnext⟩, ?_, hid⟩
      rw [hlog, List.length_append, List.length_singleton]
      omega
    | network _ _ _ hcache => exact Or.inl (hcache ▸ hlast)
  · rcases hpass.log with hlog | ⟨stop, hlog⟩
    · rw [hlog]
    · rw [hlog, List.length_append]
      omega

/-- Another thread than the forwarder leaves the forwarder, its log and what it has
published alone, and at most adds a frame for it. -/
theorem outer_frame {act : Action} (h : step p me s act = some s')
    (hact : ∀ out, act ≠ .forwarder out) :
    s'.log = s.log ∧ s'.forwarder = s.forwarder ∧ published s' = published s ∧
      (s'.arrived = s.arrived ∨ ∃ x, s'.arrived = s.arrived ++ [x]) := by
  cases act with
  | call t call =>
    obtain ⟨-, -, rfl⟩ := call_of_step h
    exact ⟨rfl, rfl, rfl, Or.inl rfl⟩
  | sender t now =>
    cases moved_of_step h with
    | sent => exact ⟨rfl, rfl, rfl, Or.inr ⟨_, rfl⟩⟩
    | _ => exact ⟨rfl, rfl, rfl, Or.inl rfl⟩
  | changeKeys x =>
    cases rotated_of_step h with
    | _ => exact ⟨rfl, rfl, rfl, Or.inl rfl⟩
  | forwarder out => exact absurd rfl (hact out)
  | receive =>
    rcases receive_cases h with ⟨g, rest, hstage, hqueue, rfl⟩ | ⟨g, a, stage, hstage, hend, rfl, -⟩
    · refine ⟨rfl, rfl, ?_, Or.inl rfl⟩
      simp [published, hstage, hqueue, RcvStage.inHand]
    · have hempty : stage.inHand = [] := by
        rcases hend with rfl | rfl
        · rfl
        · rfl
      have hhand : s.receiver.inHand = [g] := by
        rw [hstage]
        rfl
      refine ⟨rfl, rfl, ?_, Or.inl rfl⟩
      simp [published, hhand, hempty]
  | arrive f =>
    obtain rfl := Option.some.inj h
    exact ⟨rfl, rfl, rfl, Or.inr ⟨_, rfl⟩⟩
  | other b =>
    obtain ⟨-, rfl⟩ := other_of_step h
    exact ⟨rfl, rfl, rfl, Or.inl rfl⟩

theorem Logged.outer {act : Action} (h : Logged s) (hstep : step p me s act = some s')
    (hact : ∀ out, act ≠ .forwarder out) : Logged s' := by
  obtain ⟨hlog, -, hpub, harrived⟩ := outer_frame hstep hact
  refine ⟨?_, hlog ▸ h.decoded, ?_⟩
  · rw [hlog]
    have hlen := h.length
    rcases harrived with harrived | ⟨x, harrived⟩
    · rw [harrived]
      exact hlen
    · rw [harrived, List.length_append]
      omega
  · intro i f stop hi hstop
    rw [hlog] at hstop
    rw [hpub]
    refine h.own i f stop ?_ hstop
    rcases harrived with harrived | ⟨x, harrived⟩
    · exact hi.congr harrived
    · rcases ownAt_snoc harrived hi with hi | ⟨rfl, -⟩
      · exact hi
      · have hlt := (List.getElem?_eq_some_iff.mp hstop).1
        exact absurd h.length (by omega)

/-- The forwarder is done with its frame, and has published it if it is an own one. -/
theorem Logged.done {stop : Option Stop} {gs : List Frame} {arrival : Arrival} (h : Logged s)
    (hf : Forwarded p me out s s') (hnext : s.arrived[s.log.length]? = some arrival)
    (hlog : s'.log = s.log ++ [stop]) (hstop : stop ≠ some .ownUndecodable)
    (hqueue : s'.toReceive = s.toReceive ++ gs)
    (hown : ∀ source f, arrival = ⟨some source, f⟩ →
      stop = none ∧ ∃ g ∈ gs, g.host = f.host ∧ g.id = f.id) : Logged s' := by
  obtain ⟨-, -, -, hrcv, harrived, hrec⟩ := forwarded_frame hf
  have hpub : published s' = published s ++ gs := by
    rw [published, published, hrcv, hrec, hqueue, List.append_assoc _ s.toReceive gs]
  refine ⟨?_, ?_, ?_⟩
  · rw [hlog, harrived, List.length_append, List.length_singleton]
    exact (List.getElem?_eq_some_iff.mp hnext).1
  · rw [hlog, List.mem_append, List.mem_singleton]
    exact fun hmem => hmem.elim h.decoded (fun heq => hstop heq.symm)
  · intro i f stop' hi hstop
    obtain ⟨source, hi⟩ := hi.congr harrived
    rw [hlog] at hstop
    rw [hpub]
    rcases getElem?_snoc hstop with hstop | ⟨rfl, rfl⟩
    · obtain ⟨hnone, g, hg, hsame⟩ := h.own i f stop' ⟨source, hi⟩ hstop
      exact ⟨hnone, g, List.mem_append_left _ hg, hsame⟩
    · obtain ⟨hnone, g, hg, hsame⟩ := hown source f (Option.some.inj (hnext.symm.trans hi))
      exact ⟨hnone, g, List.mem_append_right _ hg, hsame⟩

theorem Logged.forwarded (h : Logged s) (hf : Forwarded p me out s s') (hpass : Passed me s s') :
    Logged s' := by
  cases hpass with
  | on hlog hcache hqueue =>
    obtain ⟨-, -, -, hrcv, harrived, hrec⟩ := forwarded_frame hf
    refine ⟨by rw [hlog, harrived]; exact h.length, hlog ▸ h.decoded, ?_⟩
    intro i f stop hi hstop
    rw [hlog] at hstop
    rw [published, hrcv, hrec, hqueue]
    exact h.own i f stop (hi.congr harrived) hstop
  | own hnext hid hlog hcache hqueue hsame hidle =>
    rename_i source f₀ g n
    refine h.done hf hnext hlog (by simp) hqueue ?_
    intro source' f hsource
    obtain ⟨-, rfl⟩ := Arrival.mk.inj hsource
    exact ⟨rfl, g, List.mem_singleton.mpr rfl, hsame⟩
  | network hnext hlog hstop hcache hqueue hidle =>
    refine h.done hf hnext hlog hstop hqueue ?_
    intro source f hsource
    obtain ⟨hsource, -⟩ := Arrival.mk.inj hsource
    cases hsource

/-- What holds in every state of a run that meets the condition. -/
structure Steady (p : Platform) (me : Identity) (s : Sys) : Prop where
  sane : Sane p me s
  numbered : Numbered me s
  logged : Logged s

theorem Numbered.outer {act : Action} (h : Numbered me s) (hcond : Orderly p me s act)
    (hstep : AgentThreads.step p me s act = some s') (hact : ∀ out, act ≠ .forwarder out) :
    Numbered me s' := by
  cases act with
  | call t call =>
    obtain ⟨hfree, hcalls, rfl⟩ := call_of_step hstep
    refine h.setSender (b := s.agent) ?_ (Or.inr ?_) rfl
    · intro hinc
      simp [Sys.free, hinc] at hfree
    · rintro rfl
      simp [Tid.calls] at hcalls
  | sender t now => exact h.moved (moved_of_step hstep) hcond.2
  | changeKeys x => exact h.rotated (rotated_of_step hstep)
  | forwarder out => exact absurd rfl (hact out)
  | receive =>
    rcases receive_cases hstep with ⟨g, rest, -, -, rfl⟩ | ⟨g, a, stage, -, -, rfl, ha⟩
    · exact ⟨h.increasing, h.below, h.cache, h.keyThread⟩
    · have hid : a.local_id = s.agent.local_id := by
        rcases ha with ⟨-, rfl, -⟩ | ⟨-, rfl, -⟩
        · rfl
        · rfl
      exact h.keep rfl hid (fun _ ht => ht) (fun _ hl => Or.inl hl) le_rfl h.keyThread
  | arrive f =>
    obtain rfl := Option.some.inj hstep
    have hold : ∀ {i g}, OwnAt { s with arrived := s.arrived ++ [⟨none, f⟩] } i g →
        OwnAt s i g := by
      intro i g hi
      rcases ownAt_snoc rfl hi with hi | ⟨-, source, hx⟩
      · exact hi
      · cases (Arrival.mk.inj hx).1
    refine ⟨?_, fun i g m hi hm => h.below i g m (hold hi) hm, ?_, h.keyThread⟩
    · intro i j f g m n hij hi hj hm hn
      exact h.increasing i j f g m n hij (hold hi) (hold hj) hm hn
    · intro last hlast
      obtain ⟨i, g, hi, hlt, hg⟩ := h.cache last hlast
      exact ⟨i, g, hi.snoc rfl, hlt, hg⟩
  | other b =>
    obtain ⟨hkept, rfl⟩ := other_of_step hstep
    exact h.keep rfl hkept.2.2.1 (fun _ ht => ht) (fun _ hl => Or.inl hl) le_rfl h.keyThread

theorem Steady.step {act : Action} (hp : p.Lawful) (hme : GoodName me.hostname) (h : Steady p me s)
    (hcond : Orderly p me s act) (hstep : AgentThreads.step p me s act = some s') :
    Steady p me s' ∧ (∀ out, act = .forwarder out → Passed me s s') := by
  obtain ⟨hsane, hpass⟩ := h.sane.step hp hme
    (fun source f hnext => h.numbered.seen h.sane ⟨source, hnext⟩) hcond hstep
  refine ⟨?_, hpass⟩
  by_cases hact : ∃ out, act = .forwarder out
  · obtain ⟨out, rfl⟩ := hact
    have hf : Forwarded p me out s s' := forwarded_of_step hstep
    exact ⟨hsane, h.numbered.forwarded hf (hpass out rfl), h.logged.forwarded hf (hpass out rfl)⟩
  · have hact' : ∀ out, act ≠ .forwarder out := fun out ho => hact ⟨out, ho⟩
    exact ⟨hsane, h.numbered.outer hcond hstep hact', h.logged.outer hstep hact'⟩

theorem Steady.start (hstart : Started me s₀) : Steady p me s₀ := by
  have hnone : ∀ {i f}, ¬ OwnAt s₀ i f := by
    rintro i f ⟨source, hi⟩
    rw [hstart.arrived] at hi
    cases hi
  refine ⟨.start hstart, ⟨?_, ?_, ?_, ?_⟩, ⟨?_, ?_, ?_⟩⟩
  · exact fun i j f g m n _ hi => absurd hi hnone
  · exact fun i f m hi => absurd hi hnone
  · rw [hstart.cache]
    exact fun last => (by simp)
  · rw [hstart.senders]
    exact Or.inr (Or.inr rfl)
  · rw [hstart.log]
    exact Nat.zero_le _
  · rw [hstart.log]
    exact List.not_mem_nil
  · exact fun i f stop hi => absurd hi hnone

end Nxwlan.OwnPublication
