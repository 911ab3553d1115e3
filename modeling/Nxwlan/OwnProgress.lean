import Nxwlan.OwnPublication

/-!
The forwarder gets to every own frame. It waits for three events; two of them are
cleared for a while by the key thread, one of these by the forwarder's own rescans
too, and each is set again after some more steps of the thread that cleared it.
With a scheduler that is fair to the two threads every own frame is published in
the end.
-/
namespace Nxwlan.OwnProgress

open JsonFrames AgentState Forwarder ForwarderStages Messaging ReceiveLoop AgentThreads ThreadSteps
open PublishedFrames StepRuns LocalDelivery OwnFrames OwnPublication
open FloodPasses (GoodName)
open Base64 (Bytes)

variable {p : Platform} {me : Identity} {out : Outside} {s s' s₀ : Sys} {a b : Agent} {f g : Frame}

/-- The events that the forwarder waits for before it gets on. -/
def eventsLeft : FwdStage → List Event
  | .await _ events => events
  | .retry _ _ _ events => events
  | .rescan _ events => events
  | _ => []

/-- The events that the forwarder ever waits for: the first is always set, the last one
unless a thread is about to set it. -/
structure Awake (s : Sys) : Prop where
  probe : s.agent.gates.processingProbeRequestEvent = true
  update : s.agent.gates.processingNeighborUpdateEvent = true ∨ s.keyThread = .remove ∨
    s.keyThread = .release ∨ ∃ name, s.forwarder = .scan name
  events : ∀ e ∈ eventsLeft s.forwarder, e = .probeRequest ∨ e = .changeKeys ∨ e = .neighborUpdate

theorem notifyLinkFailure_update (out : Outside) (node : String) (apps : List String) (a : Agent)
    (h : a.gates.processingNeighborUpdateEvent = true) :
    (notifyLinkFailure out node apps a).1.gates.processingNeighborUpdateEvent = true := by
  induction apps generalizing a with
  | nil => exact h
  | cons ns rest ih =>
    rw [notifyLinkFailure]
    dsimp only
    split
    · exact ih _ rfl
    · rfl

theorem onAPLeft_update (out : Outside) (a : Agent) (name : String)
    (h : a.gates.processingNeighborUpdateEvent = true) :
    (onAPLeft out a name).1.gates.processingNeighborUpdateEvent = true := by
  unfold onAPLeft
  split
  · dsimp only
    split
    · exact notifyLinkFailure_update out name _ _ h
    · exact h
  · exact h

theorem countLoss_update {name : String} {stop : Stop} (hloss : countLoss out a name = .stop b stop)
    (h : a.gates.processingNeighborUpdateEvent = true) :
    b.gates.processingNeighborUpdateEvent = true := by
  unfold countLoss at hloss
  split at hloss
  · obtain ⟨rfl, -⟩ := Loss.stop.inj hloss
    exact h
  · rename_i entry hlook
    split at hloss
    · dsimp only at hloss
      split at hloss
      · cases hloss
      · have hleft := onAPLeft_update out (Agent.putNeighbor a name { entry with
          lostMessages := 0, rxStatsLost := entry.rxStatsLost + 1 }) name h
        split at hloss
        · rename_i c e hrun
          obtain ⟨rfl, -⟩ := Loss.stop.inj hloss
          rw [hrun] at hleft
          exact hleft
        · rename_i c hrun
          obtain ⟨rfl, -⟩ := Loss.stop.inj hloss
          rw [hrun] at hleft
          exact hleft
    · obtain ⟨rfl, -⟩ := Loss.stop.inj hloss
      exact h

/-- A rescan that does not raise sets the event again. -/
theorem rescanStep_update {name : String} {r : Sys}
    (halive : (r.finish (some (rescanStep out me a name).2)).forwarder ≠ .closed) :
    (rescanStep out me a name).1.gates.processingNeighborUpdateEvent = true := by
  revert halive
  unfold rescanStep
  split
  · exact fun halive => absurd rfl halive
  · split
    · exact fun halive => absurd rfl halive
    · exact fun _ => rfl

theorem sendOn_update {cache : FwdCache} {nb : Bool} {d : Decoded} {sendKey sendIv : Bytes}
    (h : a.gates.processingNeighborUpdateEvent = true) :
    (sendOn p me a cache nb d sendKey sendIv f).agent.gates.processingNeighborUpdateEvent =
      true := by
  have hcount : ∀ {b}, (if nb then countSuccess a d.lasthop else .ok a) = .ok b →
      b.gates = a.gates := by
    intro b hb
    split at hb
    · unfold countSuccess at hb
      split at hb
      · cases hb
      · obtain rfl := Except.ok.inj hb
        rfl
    · obtain rfl := Except.ok.inj hb
      rfl
  rcases sendOn_cases p me a cache nb d sendKey sendIv f with
    ⟨e, hrun⟩ | ⟨b, hb, -, ⟨e, -, hrun⟩ | ⟨cache', -, hrun⟩⟩
  · rw [hrun]
    exact h
  · rw [hrun]
    dsimp only
    rw [hcount hb]
    exact h
  · rw [hrun]
    dsimp only
    split
    · rw [hcount hb]
      exact h
    · change b.gates.processingNeighborUpdateEvent = true
      rw [hcount hb]
      exact h

theorem finish_events (r : Sys) (stop : Option Stop) :
    eventsLeft (r.finish stop).forwarder = [] := by
  unfold Sys.finish
  dsimp only
  split
  · rfl
  · rfl

/-- The steps of the forwarder. -/
theorem Awake.forwarded (h : Awake s) (hf : Forwarded p me out s s')
    (halive : s'.forwarder ≠ .closed) : Awake s' := by
  have hmoved := hf
  obtain ⟨hop, -, hkey, -, -, -⟩ := forwarded_frame hmoved
  -- outside a rescan the update event is not cleared
  have hkeep : (∀ name, s.forwarder ≠ .scan name) →
      (s.agent.gates.processingNeighborUpdateEvent = true →
        s'.agent.gates.processingNeighborUpdateEvent = true) →
      (∀ e ∈ eventsLeft s'.forwarder, e ∈ eventsLeft s.forwarder ∨
        e ∈ [.probeRequest, .changeKeys, .neighborUpdate]) → Awake s' := by
    intro hscan hset hevents
    refine ⟨hop.probeRequest.trans h.probe, ?_, ?_⟩
    · rw [hkey]
      rcases h.update with hu | hu | hu | ⟨name, hname⟩
      · exact Or.inl (hset hu)
      · exact Or.inr (Or.inl hu)
      · exact Or.inr (Or.inr (Or.inl hu))
      · exact absurd hname (hscan name)
    · intro e he
      rcases hevents e he with he | he
      · exact h.events e he
      · simpa using he
  cases hf with
  | drop hstage
  | markRaises hstage
  | againRaises hstage => exact hkeep (by simp [hstage]) id (by simp [finish_events])
  | take hstage => exact hkeep (by simp [hstage]) id (fun _ he => Or.inr he)
  | wait hstage
  | retryWait hstage
  | rescanWait hstage =>
    exact hkeep (by simp [hstage]) id
      (fun _ he => Or.inl (by rw [hstage]; exact List.mem_cons_of_mem _ he))
  | marked hstage hmark =>
    refine hkeep (by simp [hstage]) ?_ (by simp [eventsLeft])
    rcases mark_cases hmark with ⟨-, rfl⟩ | ⟨-, rfl⟩
    · exact id
    · exact id
  | decodeStops hstage hfirst =>
    refine hkeep (by simp [hstage]) ?_ (by simp [finish_events])
    rcases firstDecode_stop hfirst with ⟨rfl, -⟩ | ⟨-, rfl, -⟩
    · exact id
    · exact id
  | decoded hstage
  | retried hstage
  | againDecoded hstage
  | readKeys hstage => exact hkeep (by simp [hstage]) id (by simp [eventsLeft])
  | retries hstage =>
    exact hkeep (by simp [hstage]) id (by simp [eventsLeft])
  | lost hstage hloss =>
    exact hkeep (by simp [hstage]) (countLoss_update hloss) (by simp [finish_events])
  | rescans hstage hloss =>
    obtain ⟨entry, rfl⟩ := countLoss_rescan hloss
    exact hkeep (by simp [hstage]) id (by simp [eventsLeft])
  | rescanned hstage =>
    exact ⟨h.probe, Or.inr (Or.inr (Or.inr ⟨_, rfl⟩)), by simp [eventsLeft]⟩
  | scanned hstage =>
    exact ⟨hop.probeRequest.trans h.probe, Or.inl (rescanStep_update halive),
      by simp [finish_events]⟩
  | sent hstage => exact hkeep (by simp [hstage]) sendOn_update (by simp [finish_events])

theorem setEvent_gates {v : Bool} {call : Call} :
    (Agent.setEvent a v (Call.event call)).gates.processingProbeRequestEvent =
        a.gates.processingProbeRequestEvent ∧
      (Agent.setEvent a v (Call.event call)).gates.processingNeighborUpdateEvent =
        a.gates.processingNeighborUpdateEvent := by
  rcases event_cases call with he | he
  · rw [he]
    exact ⟨rfl, rfl⟩
  · rw [he]
    exact ⟨rfl, rfl⟩

/-- A step of another thread that leaves the two events alone. -/
theorem Awake.keep (h : Awake s) (hfwd : s'.forwarder = s.forwarder)
    (hprobe : s'.agent.gates.processingProbeRequestEvent =
      s.agent.gates.processingProbeRequestEvent)
    (hupdate : s'.agent.gates.processingNeighborUpdateEvent =
      s.agent.gates.processingNeighborUpdateEvent)
    (hkey : s'.keyThread = s.keyThread ∨ s.keyThread ≠ .remove ∧ s.keyThread ≠ .release) :
    Awake s' := by
  refine ⟨hprobe.trans h.probe, ?_, by rw [hfwd]; exact h.events⟩
  rw [hupdate, hfwd]
  rcases hkey with hkey | ⟨hne, hne'⟩
  · rw [hkey]
    exact h.update
  · rcases h.update with hu | hu | hu | hu
    · exact Or.inl hu
    · exact absurd hu hne
    · exact absurd hu hne'
    · exact Or.inr (Or.inr (Or.inr hu))

/-- The steps of the key thread. -/
theorem Awake.rotated {x : Rotation} (h : Awake s) (hs : Rotating me s) (hr : Rotated me x s s')
    (hcond : s.keyThread = .remove → (leaveAll x.outside
      (expiredNeighbors me x.now s.agent.globalNeighborList) s.agent).2 = .ok ()) : Awake s' := by
  cases hr with
  | wakes hstage
  | wait hstage
  | cleared hstage
  | replaced hstage
  | announced hstage
  | fails hstage
  | stamped hstage
  | validateWait hstage => exact h.keep rfl rfl rfl (Or.inr (by simp [hstage]))
  | connected hstage =>
    obtain ⟨e, hjoin⟩ := hs.joined x
    rw [hjoin]
    exact h.keep rfl rfl rfl (Or.inr (by simp [hstage]))
  | validated => exact ⟨h.probe, Or.inr (Or.inl rfl), h.events⟩
  | removed hstage =>
    refine ⟨?_, ?_, h.events⟩
    · exact (leaveAll_op x.outside _ s.agent).1.probeRequest.trans h.probe
    · dsimp only
      rw [hcond hstage]
      exact Or.inr (Or.inr (Or.inl rfl))
  | released => exact ⟨h.probe, Or.inl rfl, h.events⟩

theorem Awake.outer {act : Action} (h : Awake s) (hs : Rotating me s) (hcond : Orderly p me s act)
    (hstep : step p me s act = some s') (hact : ∀ out, act ≠ .forwarder out) : Awake s' := by
  cases act with
  | call t call =>
    obtain ⟨-, -, rfl⟩ := call_of_step hstep
    exact h.keep rfl rfl rfl (Or.inl rfl)
  | sender t now =>
    cases moved_of_step hstep with
    | cleared => exact h.keep rfl setEvent_gates.1 setEvent_gates.2 (Or.inl rfl)
    | readKeys =>
      refine h.keep rfl ?_ ?_ (Or.inl rfl)
      · rw [storeOldKeys_rest]
      · rw [storeOldKeys_rest]
    | _ => exact h.keep rfl rfl rfl (Or.inl rfl)
  | changeKeys x => exact h.rotated hs (rotated_of_step hstep) hcond.2
  | forwarder out => exact absurd rfl (hact out)
  | receive =>
    rcases receive_cases hstep with ⟨g, rest, -, -, rfl⟩ | ⟨g, a, stage, -, -, rfl, ha⟩
    · exact h.keep rfl rfl rfl (Or.inl rfl)
    · rcases ha with ⟨-, rfl, -⟩ | ⟨-, rfl, -⟩
      · exact h.keep rfl rfl rfl (Or.inl rfl)
      · exact h.keep rfl rfl rfl (Or.inl rfl)
  | arrive f =>
    obtain rfl := Option.some.inj hstep
    exact h.keep rfl rfl rfl (Or.inl rfl)
  | other b =>
    obtain ⟨-, rfl⟩ := other_of_step hstep
    exact h.keep rfl (by rw [hcond.2]) (by rw [hcond.2]) (Or.inl rfl)

/-- How far the key thread is from the stages in which it has no event cleared that
the forwarder waits for. -/
def keyRank : KeyStage → ℕ
  | .replace => 3
  | .connect _ _ => 2
  | .announce _ _ => 1
  | .remove => 2
  | .release => 1
  | _ => 0

theorem isSet_of_keyRank (hs : Rotating me s) (hw : Awake s) (hrank : keyRank s.keyThread = 0)
    {e : Event} (hscan : ∀ name, s.forwarder ≠ .scan name)
    (he : e = .probeRequest ∨ e = .changeKeys ∨ e = .neighborUpdate) :
    Agent.isSet s.agent e = true := by
  rcases he with rfl | rfl | rfl
  · exact hw.probe
  · have hevent := hs.event
    cases hstage : s.keyThread with
    | replace => simp [hstage, keyRank] at hrank
    | connect => simp [hstage, keyRank] at hrank
    | announce => simp [hstage, keyRank] at hrank
    | _ =>
      rw [hstage] at hevent
      exact hevent
  · rcases hw.update with hu | hu | hu | ⟨name, hu⟩
    · exact hu
    · simp [hu, keyRank] at hrank
    · simp [hu, keyRank] at hrank
    · exact absurd hu (hscan name)

/-- While the key thread has cleared no event, the forwarder can take its next step. -/
theorem forwarder_enabled {arrival : Arrival} (hs : Sane p me s) (hw : Awake s)
    (hrank : keyRank s.keyThread = 0) (hnext : s.arrived[s.log.length]? = some arrival) :
    (forwarderStep p me out s).isSome = true := by
  have hset : ∀ {e events}, eventsLeft s.forwarder = e :: events →
      Agent.isSet s.agent e = true := by
    intro e events hleft
    refine isSet_of_keyRank hs.rotating hw hrank ?_ (hw.events e (by simp [hleft]))
    intro name hname
    rw [hname] at hleft
    cases hleft
  unfold forwarderStep
  cases hstage : s.forwarder with
  | idle =>
    simp only [hnext]
    split
    · rfl
    · rfl
  | await f events =>
    cases events with
    | nil =>
      dsimp only
      split
      · rfl
      · rfl
    | cons e events =>
      dsimp only
      rw [if_pos (hset (by rw [hstage]; rfl))]
      rfl
  | decode f nb =>
    dsimp only
    split
    · rfl
    · rfl
    · rfl
  | retry f name entry events =>
    cases events with
    | nil => rfl
    | cons e events =>
      dsimp only
      rw [if_pos (hset (by rw [hstage]; rfl))]
      rfl
  | again f name entry =>
    dsimp only
    split
    · rfl
    · rfl
    · split
      · rfl
      · rfl
  | rescan name events =>
    cases events with
    | nil => rfl
    | cons e events =>
      dsimp only
      rw [if_pos (hset (by rw [hstage]; rfl))]
      rfl
  | scan name => rfl
  | keys f nb d => rfl
  | send f nb d sendKey sendIv => rfl
  | closed => exact absurd hstage hs.alive

/-- The steps of the forwarder, and of the key thread. -/
def isForwarder (act : Action) : Prop := ∃ out, act = .forwarder out

def isKeyThread (act : Action) : Prop := ∃ x, act = .changeKeys x

theorem keyThread_enabled {x : Rotation} (h : keyRank s.keyThread ≠ 0) :
    (keyStep me x s).isSome = true := by
  unfold keyStep
  cases hstage : s.keyThread with
  | replace => rfl
  | connect => rfl
  | announce => rfl
  | remove => rfl
  | release => rfl
  | _ =>
    rw [hstage] at h
    exact absurd rfl h

/-- No other thread moves the key thread. -/
theorem keyThread_frame {act : Action} (hstep : step p me s act = some s')
    (hact : ¬ isKeyThread act) : s'.keyThread = s.keyThread := by
  cases act with
  | call t call =>
    obtain ⟨-, -, rfl⟩ := call_of_step hstep
    rfl
  | sender t now =>
    cases moved_of_step hstep with
    | _ => rfl
  | changeKeys x => exact absurd ⟨x, rfl⟩ hact
  | forwarder out => exact (forwarded_frame (forwarded_of_step hstep)).2.2.1
  | receive =>
    rcases receive_cases hstep with ⟨g, rest, -, -, rfl⟩ | ⟨g, a, stage, -, -, rfl, -⟩
    · rfl
    · rfl
  | arrive f =>
    obtain rfl := Option.some.inj hstep
    rfl
  | other b =>
    obtain ⟨-, rfl⟩ := other_of_step hstep
    rfl

/-- The key thread gets on. -/
theorem keyRank_step {act : Action} (hstep : step p me s act = some s')
    (h : keyRank s.keyThread ≠ 0) :
    keyRank s'.keyThread ≤ keyRank s.keyThread ∧
      (isKeyThread act → keyRank s'.keyThread < keyRank s.keyThread) := by
  by_cases hact : isKeyThread act
  · obtain ⟨x, rfl⟩ := hact
    suffices hlt : keyRank s'.keyThread < keyRank s.keyThread from ⟨hlt.le, fun _ => hlt⟩
    cases rotated_of_step hstep with
    | replaced hstage => simp [hstage, keyRank]
    | connected hstage => simp [hstage, keyRank]
    | announced hstage => simp [hstage, keyRank]
    | removed hstage =>
      rw [hstage]
      dsimp only
      split
      · simp [keyRank]
      · simp [keyRank]
    | released hstage => simp [hstage, keyRank]
    | wakes hstage => simp [hstage, keyRank] at h
    | wait hstage => simp [hstage, keyRank] at h
    | cleared hstage => simp [hstage, keyRank] at h
    | fails hstage => simp [hstage, keyRank] at h
    | stamped hstage => simp [hstage, keyRank] at h
    | validateWait hstage => simp [hstage, keyRank] at h
    | validated hstage => simp [hstage, keyRank] at h
  · rw [keyThread_frame hstep hact]
    exact ⟨le_rfl, fun hkey => absurd hkey hact⟩

/-- What holds in every state of a run that meets the condition. -/
theorem steady_reach (hp : p.Lawful) (hme : GoodName me.hostname) (hstart : Started me s₀)
    (h : Reach (step p me) (Orderly p me) s₀ s) : Steady p me s ∧ Awake s := by
  refine h.inv (I := fun s => Steady p me s ∧ Awake s) ⟨.start hstart, ?_⟩ ?_
  · refine ⟨?_, ?_, ?_⟩
    · rw [hstart.gates]
    · rw [hstart.gates]
      exact Or.inl rfl
    · rw [hstart.forwarder]
      simp [eventsLeft]
  · rintro s act s' ⟨hsteady, hawake⟩ hcond hstep
    have hsteady' := (hsteady.step hp hme hcond hstep).1
    refine ⟨hsteady', ?_⟩
    by_cases hact : isForwarder act
    · obtain ⟨out, rfl⟩ := hact
      exact hawake.forwarded (forwarded_of_step hstep) hsteady'.sane.alive
    · exact hawake.outer hsteady.sane.rotating hcond hstep (fun out ho => hact ⟨out, ho⟩)

/-- An own frame keeps its place. -/
theorem ownAt_step {act : Action} {i : ℕ} (hstep : step p me s act = some s') (h : OwnAt s i f) :
    OwnAt s' i f := by
  by_cases hact : isForwarder act
  · obtain ⟨out, rfl⟩ := hact
    exact h.congr (forwarded_frame (forwarded_of_step hstep)).2.2.2.2.1.symm
  · obtain ⟨-, -, -, harrived | ⟨x, harrived⟩⟩ := outer_frame hstep (fun out ho => hact ⟨out, ho⟩)
    · exact h.congr harrived.symm
    · exact h.snoc harrived

/-- The steps of the forwarder up to the end of its pass over the frame at place `i`. -/
def stepsLeft (i : ℕ) (s : Sys) : ℕ := (i + 1 - s.log.length) * 17 + rank s.forwarder

theorem stepsLeft_step {act : Action} {i : ℕ} (hstep : step p me s act = some s')
    (hpass : ∀ out, act = .forwarder out → Passed me s s') (hi : ¬ i < s.log.length) :
    stepsLeft i s' ≤ stepsLeft i s ∧ (isForwarder act → stepsLeft i s' < stepsLeft i s) := by
  unfold stepsLeft
  by_cases hact : isForwarder act
  · obtain ⟨out, rfl⟩ := hact
    suffices hlt : (i + 1 - s'.log.length) * 17 + rank s'.forwarder <
        (i + 1 - s.log.length) * 17 + rank s.forwarder from ⟨hlt.le, fun _ => hlt⟩
    cases hpass out rfl with
    | on hlog hcache hqueue hrank =>
      rw [hlog]
      omega
    | own hnext hid hlog hcache hqueue hsame hidle =>
      rw [hlog, hidle, List.length_append, List.length_singleton, rank]
      omega
    | network hnext hlog hstop hcache hqueue hidle =>
      rw [hlog, hidle, List.length_append, List.length_singleton, rank]
      omega
  · obtain ⟨hlog, hfwd, -, -⟩ := outer_frame hstep (fun out ho => hact ⟨out, ho⟩)
    rw [hlog, hfwd]
    exact ⟨le_rfl, fun hf => absurd hf hact⟩

section Runs

variable (r : Run (step p me) (Orderly p me))

/-- Again and again the key thread has no event cleared. -/
theorem keyThread_quiet (hfair : r.Fair isKeyThread) (n : ℕ) :
    ∃ m, n ≤ m ∧ keyRank (r.state m).keyThread = 0 := by
  refine r.eventually (T := isKeyThread) (G := fun s => keyRank s.keyThread = 0)
    (fun s => keyRank s.keyThread) (fun m _ hne => keyRank_step (r.next m) hne) ?_
  intro hnever
  refine hfair (fun k => ⟨max n k, le_max_right n k, .changeKeys sampleRotation, ⟨_, rfl⟩, ?_⟩)
  exact keyThread_enabled (hnever (max n k) (le_max_left n k))

theorem ownAt_run {n m i : ℕ} (hnm : n ≤ m) (h : OwnAt (r.state n) i f) :
    OwnAt (r.state m) i f := by
  induction hnm with
  | refl => exact h
  | step _ ih => exact ownAt_step (r.next _) ih

/-- Under a fair scheduler every own frame is published. -/
theorem own_published (hp : p.Lawful) (hme : GoodName me.hostname) (hstart : Started me (r.state 0))
    (hfwd : r.Fair isForwarder) (hkey : r.Fair isKeyThread) {n i : ℕ} (h : OwnAt (r.state n) i f) :
    ∃ m, n ≤ m ∧ (r.state m).log[i]? = some none ∧
      ∃ g ∈ published (r.state m), g.host = f.host ∧ g.id = f.id := by
  have hinv : ∀ k, Steady p me (r.state k) ∧ Awake (r.state k) :=
    fun k => steady_reach hp hme hstart (r.reach k)
  have hdone : ∃ m, n ≤ m ∧ i < (r.state m).log.length := by
    refine r.eventually (T := isForwarder) (G := fun s => i < s.log.length) (stepsLeft i) ?_ ?_
    · intro k _ hk
      exact stepsLeft_step (r.next k) ((hinv k).1.step hp hme (r.meets k) (r.next k)).2 hk
    · intro hnever
      refine hfwd (fun k => ?_)
      obtain ⟨m, hm, hquiet⟩ := keyThread_quiet r hkey (max n k)
      refine ⟨m, le_trans (le_max_right n k) hm, .forwarder quietOutside, ⟨_, rfl⟩, ?_⟩
      have hnm : n ≤ m := le_trans (le_max_left n k) hm
      have hlt : (r.state m).log.length < (r.state m).arrived.length :=
        lt_of_le_of_lt (not_lt.mp (hnever m hnm)) (ownAt_run r hnm h).lt_length
      exact forwarder_enabled (hinv m).1.sane (hinv m).2 hquiet (List.getElem?_eq_getElem hlt)
  obtain ⟨m, hnm, hlt⟩ := hdone
  obtain ⟨hnone, hpub⟩ := (hinv m).1.logged.own i f _ (ownAt_run r hnm h)
    (List.getElem?_eq_getElem hlt)
  refine ⟨m, hnm, ?_, hpub⟩
  rw [List.getElem?_eq_getElem hlt, hnone]

end Runs

/-- The condition, with one application thread. -/
def OneApp (p : Platform) (me : Identity) (s : Sys) (act : Action) : Prop :=
  Orderly p me s act ∧ ∀ t call, act = .call t call → t = .app 0

/-- Own frames and the key rotation, over any interleaving of one application thread
with the key thread and the forwarder: if the condition is met, no own frame is
found undecodable or dropped, and under a fair scheduler each is published. -/
theorem own_frames_survive_rotation (hp : p.Lawful) (hme : GoodName me.hostname)
    (hstart : Started me s₀) :
    (∀ s, Reach (step p me) (OneApp p me) s₀ s → some Stop.ownUndecodable ∉ s.log ∧
      ∀ i f stop, OwnAt s i f → s.log[i]? = some stop → stop = none) ∧
    ∀ r : Run (step p me) (OneApp p me), r.state 0 = s₀ → r.Fair isForwarder →
      r.Fair isKeyThread → ∀ n i f, OwnAt (r.state n) i f →
        ∃ m, n ≤ m ∧ (r.state m).log[i]? = some none ∧
          ∃ g ∈ published (r.state m), g.host = f.host ∧ g.id = f.id := by
  refine ⟨?_, ?_⟩
  · intro s hs
    have hlogged := (steady_reach hp hme hstart (hs.mono (fun _ _ hok => hok.1))).1.logged
    exact ⟨hlogged.decoded, fun i f stop hi hstop => (hlogged.own i f stop hi hstop).1⟩
  · intro r hr hfwd hkey n i f hi
    subst hr
    exact own_published (r.mono (fun _ _ hok => hok.1)) hp hme hstart hfwd hkey hi

/-- The first application is the only thread that has got past its waits, it gives no
keys with its calls, and nothing has come from the network. -/
structure Solo (s : Sys) : Prop where
  others : ∀ t, t ≠ .app 0 → s.senders t = .idle ∨ ∃ call events, s.senders t = .await call events
  keys : ∀ call, (s.senders (.app 0)).call? = some call → call.keys = ([], [])
  arrived : ∀ x ∈ s.arrived, x.source.isSome = true

/-- Its steps and those of the forwarder; the keys are rotated only while it has no
call under way and all its frames have been forwarded. -/
def alone (s : Sys) : Action → Bool
  | .call t call => t = .app 0 && call.keys = ([], []) && 2 ≤ call.initialTtl
  | .sender t _ => t = .app 0
  | .changeKeys _ => (s.senders (.app 0)).call?.isNone && s.log.length = s.arrived.length &&
      s.keyThread ≠ .remove
  | .forwarder _ => true
  | .receive => true
  | _ => false

theorem Solo.not_send (h : Solo s) {t : Tid} (ht : t ≠ .app 0) :
    s.senders t ≠ .increment ∧ ∀ call lasthop key iv, s.senders t ≠ .send call lasthop key iv := by
  rcases h.others t ht with hidle | ⟨call, events, hawait⟩
  · simp [hidle]
  · simp [hawait]

theorem Solo.oneApp {act : Action} (h : Solo s) (hact : alone s act = true) :
    OneApp p me s act := by
  cases act with
  | call t call =>
    simp only [alone, Bool.and_eq_true, decide_eq_true_eq] at hact
    refine ⟨hact.2, ?_⟩
    rintro t' call' ⟨⟩
    exact hact.1.1
  | sender t now =>
    obtain rfl : t = .app 0 := by simpa [alone] using hact
    refine ⟨⟨?_, ?_⟩, (by simp)⟩
    · intro call hstage hlen
      rw [h.keys call (by rw [hstage]; rfl)] at hlen
      cases hlen
    · intro call lasthop key iv f hstage _ t'
      by_cases ht : t' = .app 0
      · rw [ht, hstage]
        exact (by simp)
      · exact (h.not_send ht).1
  | changeKeys x =>
    simp only [alone, Bool.and_eq_true, decide_eq_true_eq, Option.isNone_iff_eq_none] at hact
    obtain ⟨⟨hcall, hlen⟩, hstage⟩ := hact
    refine ⟨⟨?_, fun hremove => absurd hremove hstage⟩, (by simp)⟩
    rintro key_old iv_old - key iv (⟨t, call, ht⟩ | ⟨i, f, hi, hle, -⟩)
    · by_cases htt : t = .app 0
      · rw [← htt, ht] at hcall
        cases hcall
      · exact absurd ht ((h.not_send htt).2 _ _ _ _)
    · have hlt := (List.getElem?_eq_some_iff.mp hi).1
      omega
  | forwarder out =>
    refine ⟨?_, (by simp)⟩
    intro f hnext
    cases h.arrived _ (List.mem_of_getElem? hnext)
  | receive => exact ⟨trivial, (by simp)⟩
  | arrive f => cases hact
  | other b => cases hact

theorem Solo.step {act : Action} (h : Solo s) (hact : alone s act = true)
    (hstep : AgentThreads.step p me s act = some s') : Solo s' := by
  -- only the first application gets on
  have hset : ∀ {stage : Sender} {b : Agent} {l : List Arrival},
      (∀ call, stage.call? = some call → call.keys = ([], [])) →
      (∀ x ∈ l, x.source.isSome = true) →
      Solo { s.setSender (.app 0) stage with agent := b, arrived := l } := by
    intro stage b l hkeys hl
    refine ⟨?_, ?_, hl⟩
    · intro t ht
      dsimp only
      rw [Sys.setSender_of_ne s stage ht]
      exact h.others t ht
    · dsimp only
      rw [Sys.setSender_self]
      exact hkeys
  cases act with
  | call t call =>
    simp only [alone, Bool.and_eq_true, decide_eq_true_eq] at hact
    obtain ⟨⟨rfl, hkeys⟩, -⟩ := hact
    obtain ⟨-, -, rfl⟩ := call_of_step hstep
    refine hset (b := s.agent) ?_ h.arrived
    rintro call' ⟨⟩
    exact hkeys
  | sender t now =>
    obtain rfl : t = .app 0 := by simpa [alone] using hact
    have hcall : ∀ {call}, (s.senders (.app 0)).call? = some call →
        ∀ call', some call = some call' → call'.keys = ([], []) := by
      rintro call hc call' ⟨⟩
      exact h.keys call hc
    cases moved_of_step hstep with
    | wait hstage => exact hset (b := s.agent) (hcall (by rw [hstage]; rfl)) h.arrived
    | cleared hstage => exact hset (hcall (by rw [hstage]; rfl)) h.arrived
    | readKeys hstage => exact hset (hcall (by rw [hstage]; rfl)) h.arrived
    | raises => exact hset (b := s.agent) (by simp [Sender.call?]) h.arrived
    | unknown => exact hset (by simp [Sender.call?]) h.arrived
    | sent =>
      refine hset (b := s.agent) (by simp [Sender.call?]) ?_
      intro x hx
      rcases List.mem_append.mp hx with hx | hx
      · exact h.arrived x hx
      · rw [List.mem_singleton.mp hx]
        rfl
    | incremented => exact hset (by simp [Sender.call?]) h.arrived
  | changeKeys x =>
    cases rotated_of_step hstep with
    | announced =>
      refine ⟨?_, ?_, h.arrived⟩
      · intro t ht
        by_cases htt : t = .changeKeys
        · subst htt
          dsimp only
          rw [Sys.setSender_self]
          exact Or.inr ⟨_, _, rfl⟩
        · dsimp only
          rw [Sys.setSender_of_ne s _ htt]
          exact h.others t ht
      · dsimp only
        rw [Sys.setSender_of_ne s _ (by simp)]
        exact h.keys
    | _ => exact ⟨h.others, h.keys, h.arrived⟩
  | forwarder out =>
    obtain ⟨-, hsenders, -, -, harrived, -⟩ := forwarded_frame (forwarded_of_step hstep)
    exact ⟨hsenders ▸ h.others, hsenders ▸ h.keys, harrived ▸ h.arrived⟩
  | receive =>
    rcases receive_cases hstep with ⟨g, rest, -, -, rfl⟩ | ⟨g, a, stage, -, -, rfl, -⟩
    · exact ⟨h.others, h.keys, h.arrived⟩
    · exact ⟨h.others, h.keys, h.arrived⟩
  | arrive f => cases hact
  | other b => cases hact

/-- Such a schedule meets the condition. -/
theorem solo_reach {acts : List Action} (hstart : Started me s₀)
    (h : follow (step p me) (fun s act => alone s act = true) s₀ acts = some s) :
    Reach (step p me) (OneApp p me) s₀ s := by
  have hsolo : Solo s₀ := by
    refine ⟨?_, ?_, ?_⟩
    · rw [hstart.senders]
      exact fun _ _ => Or.inl rfl
    · rw [hstart.senders]
      simp [Sender.call?]
    · rw [hstart.arrived]
      simp
  exact ((reach_of_follow h).transfer hsolo
    (fun _ _ _ hs hok hstep => ⟨hs.oneApp hok, hs.step hok hstep⟩)).1

def hello : Call := .sendToNeighbors [104, 105] 1

def sending (t : Tid) (k : ℕ) : List Action := List.replicate k (.sender t 0)

def rotating (k : ℕ) : List Action := List.replicate k (.changeKeys sampleRotation)

def forwarding (k : ℕ) : List Action := List.replicate k (.forwarder quietOutside)

/-- A message, a rotation of the keys and another message, one after the other. -/
def calmSchedule : List Action :=
  .call (.app 0) hello :: sending (.app 0) 7 ++ forwarding 8 ++ rotating 8 ++
    .call (.app 0) hello :: sending (.app 0) 7 ++ forwarding 8

theorem own_frames_survive_rotation_linked :
    ∃ s, Reach (step listPlatform sampleIdentity) (OneApp listPlatform sampleIdentity) linkedSys s ∧
      s.agent.key = sampleRotation.key ∧ s.log.length = 2 ∧ some Stop.ownUndecodable ∉ s.log := by
  have hrun : ∃ s, follow (step listPlatform sampleIdentity) (fun s act => alone s act = true)
      linkedSys calmSchedule = some s ∧ s.agent.key = sampleRotation.key ∧ s.log.length = 2 :=
    ⟨_, rfl, rfl, rfl⟩
  obtain ⟨s, hs, hkey, hlen⟩ := hrun
  have hreach := solo_reach linkedSys_started hs
  exact ⟨s, hreach, hkey, hlen, ((own_frames_survive_rotation listPlatform_lawful (by decide)
    linkedSys_started).1 s hreach).1⟩

/-- The key thread has passed its wait for the sending thread when a message starts,
and the message its wait for the key rotation when the keys change. -/
def lateSchedule : List Action :=
  rotating 2 ++ .call (.app 0) hello :: sending (.app 0) 4 ++ rotating 3 ++ sending (.app 0) 1 ++
    rotating 3 ++ sending (.app 0) 1 ++ forwarding 6

/-- The frame is built under the old keys and decrypted with the new ones. -/
theorem rotation_loses_own_frame :
    Started sampleIdentity linkedSys ∧ 2 ≤ hello.initialTtl ∧ ∃ s f,
      runAll listPlatform sampleIdentity linkedSys lateSchedule = some s ∧ OwnAt s 0 f ∧
      s.log = [some .ownUndecodable] :=
  ⟨linkedSys_started, by decide, _, _, rfl, ⟨_, rfl⟩, rfl⟩

/-- The numbers of own frames, over any interleaving of any number of sending threads:
if the condition is met, they grow in the order of sending, the forwarder drops no
own frame, and under a fair scheduler it publishes each of them. -/
theorem own_ids_increase (hp : p.Lawful) (hme : GoodName me.hostname) (hstart : Started me s₀) :
    (∀ s, Reach (step p me) (Orderly p me) s₀ s →
      (∀ i j f g, i < j → OwnAt s i f → OwnAt s j g →
        ∃ m n, f.id = some (.int m) ∧ g.id = some (.int n) ∧ m < n) ∧
      ∀ i f stop, OwnAt s i f → s.log[i]? = some stop → stop = none) ∧
    ∀ r : Run (step p me) (Orderly p me), r.state 0 = s₀ → r.Fair isForwarder →
      r.Fair isKeyThread → ∀ n i f, OwnAt (r.state n) i f →
        ∃ m, n ≤ m ∧ (r.state m).log[i]? = some none ∧
          ∃ g ∈ published (r.state m), g.host = f.host ∧ g.id = f.id := by
  refine ⟨?_, ?_⟩
  · intro s hs
    have hsteady := (steady_reach hp hme hstart hs).1
    refine ⟨?_, fun i f stop hi hstop => (hsteady.logged.own i f stop hi hstop).1⟩
    intro i j f g hij hi hj
    obtain ⟨m, hm⟩ := ownAt_id hsteady.sane hi
    obtain ⟨n, hn⟩ := ownAt_id hsteady.sane hj
    exact ⟨m, n, hm, hn, hsteady.numbered.increasing i j f g m n hij hi hj hm hn⟩
  · intro r hr hfwd hkey n i f hi
    subst hr
    exact own_published r hp hme hstart hfwd hkey hi

theorem own_ids_increase_linked :
    ∃ s f g m n, Reach (step listPlatform sampleIdentity) (Orderly listPlatform sampleIdentity)
        linkedSys s ∧ OwnAt s 0 f ∧ OwnAt s 1 g ∧ f.id = some (.int m) ∧ g.id = some (.int n) ∧
      m < n := by
  have hrun : ∃ s f g, follow (step listPlatform sampleIdentity) (fun s act => alone s act = true)
      linkedSys calmSchedule = some s ∧ OwnAt s 0 f ∧ OwnAt s 1 g :=
    ⟨_, _, _, rfl, ⟨_, rfl⟩, ⟨_, rfl⟩⟩
  obtain ⟨s, f, g, hs, hf, hg⟩ := hrun
  have hreach := (solo_reach linkedSys_started hs).mono (fun _ _ hok => hok.1)
  obtain ⟨m, n, hm, hn, hmn⟩ := ((own_ids_increase listPlatform_lawful (by decide)
    linkedSys_started).1 s hreach).1 0 1 f g (by decide) hf hg
  exact ⟨s, f, g, m, n, hreach, hf, hg, hm, hn, hmn⟩

/-- Two applications send one after the other before the first increments the number. -/
def raceSchedule : List Action :=
  .call (.app 0) hello :: .call (.app 1) hello :: sending (.app 0) 5 ++ sending (.app 1) 5 ++
    sending (.app 0) 1 ++ sending (.app 1) 1 ++ forwarding 9

/-- Both frames bear the same number, and the second is dropped as a duplicate. -/
theorem race_drops_own_frame :
    Started sampleIdentity linkedSys ∧ 2 ≤ hello.initialTtl ∧ ∃ s f g,
      runAll listPlatform sampleIdentity linkedSys raceSchedule = some s ∧ OwnAt s 0 f ∧
      OwnAt s 1 g ∧ f.id = g.id ∧ s.log = [none, some .duplicate] :=
  ⟨linkedSys_started, by decide, _, _, _, rfl, ⟨_, rfl⟩, ⟨_, rfl⟩, rfl, rfl⟩

end Nxwlan.OwnProgress
