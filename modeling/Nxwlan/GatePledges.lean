import Nxwlan.OwnFrames

/-!
The two events that a send clears, one for data and one for control messages.
Neither is set again by the sender itself unless it gives up: the forwarder
sets both when it is done with a frame of the agent's own. So a cleared event
needs somebody who is going to set it, a thread that has not sent yet or an own
frame that the forwarder has not consumed.
-/
namespace Nxwlan.SenderGates

open JsonFrames AgentState Forwarder ForwarderStages Messaging Rescans AgentThreads ThreadSteps
open PublishedFrames StepRuns LocalDelivery OwnFrames
open FloodPasses (GoodName)
open Base64 (Bytes)

variable {p : Platform} {me : Identity} {out : Outside} {s s' s₀ : Sys} {a b : Agent}

/-- The events that a send clears. -/
def sendingEvents : List Event := [.userSpace, .userCtrl]

/-- Of these events none is cleared. -/
def Uncleared (a b : Agent) : Prop :=
  ∀ e ∈ sendingEvents, Agent.isSet a e = true → Agent.isSet b e = true

theorem Uncleared.refl (a : Agent) : Uncleared a a := fun _ _ h => h

theorem Uncleared.trans {c : Agent} (h : Uncleared a b) (h' : Uncleared b c) : Uncleared a c :=
  fun e he hset => h' e he (h e he hset)

theorem Uncleared.of_same
    (hspace : b.gates.sendingUserSpaceMessageEvent = a.gates.sendingUserSpaceMessageEvent)
    (hctrl : b.gates.sendingUserCtrlMessageEvent = a.gates.sendingUserCtrlMessageEvent) :
    Uncleared a b := by
  intro e he hset
  simp only [sendingEvents, List.mem_cons, List.not_mem_nil, or_false] at he
  rcases he with rfl | rfl
  · exact hspace.trans hset
  · exact hctrl.trans hset

theorem Uncleared.setEvent {e : Event} (a : Agent) (v : Bool) (he : e ∉ sendingEvents) :
    Uncleared a (Agent.setEvent a v e) := by
  cases e with
  | userSpace => exact absurd (List.mem_cons_self ..) he
  | userCtrl => exact absurd (List.mem_cons_of_mem _ (List.mem_cons_self ..)) he
  | _ => exact .of_same rfl rfl

/-- The end of an own frame: both events are set. -/
theorem releaseSenders_set (a : Agent) :
    ∀ e ∈ sendingEvents, Agent.isSet (Agent.releaseSenders a) e = true := by
  simp [sendingEvents, Agent.isSet, Agent.releaseSenders]

section Operations

theorem Uncleared.of_entryOnly {name : String} (h : EntryOnly name a b) : Uncleared a b := by
  rw [h.rest]
  exact .of_same rfl rfl

theorem Uncleared.of_notified (h : Notified a b) : Uncleared a b := by
  rw [h]
  exact .of_same rfl rfl

theorem Uncleared.onAPLeft (out : Outside) (a : Agent) (name : String) :
    Uncleared a (AgentState.onAPLeft out a name).1 := by
  rcases onAPLeft_cases out a name with ⟨-, h⟩ | ⟨-, -, h⟩ | ⟨-, -, a', r, h, hnot, -⟩
  · rw [h]
    exact .refl a
  · rw [h]
    exact .of_same rfl rfl
  · rw [h]
    exact Uncleared.trans (b := Agent.unlink a name) (.of_same rfl rfl) (.of_notified hnot)

theorem Uncleared.left {name : String} {r : Except PyError Unit}
    (h : AgentState.onAPLeft out a name = (b, r)) : Uncleared a b := by
  have hop := Uncleared.onAPLeft out a name
  rw [h] at hop
  exact hop

theorem Uncleared.leaveAll (out : Outside) (nodes : List String) (a : Agent) :
    Uncleared a (AgentThreads.leaveAll out nodes a).1 := by
  induction nodes generalizing a with
  | nil => exact .refl a
  | cons node rest ih =>
    rw [AgentThreads.leaveAll]
    rcases hleft : AgentState.onAPLeft out a node with ⟨b, e | u⟩
    · exact .left hleft
    · exact (Uncleared.left hleft).trans (ih b)

theorem Uncleared.rescanStep (out : Outside) (me : Identity) (a : Agent) (name : String) :
    Uncleared a (ForwarderStages.rescanStep out me a name).1 := by
  unfold ForwarderStages.rescanStep
  cases hlook : a.globalNeighborList.lookup name with
  | none => exact .refl a
  | some entry =>
    have hscan : Uncleared a (rescan_neighbor out me a entry.freq entry.ssid name 10).1 := by
      rcases rescan_neighbor_cases out me entry.freq entry.ssid hlook with
        ⟨k, err, -, -, -, hrun⟩ | ⟨k, a', -, -, -, hrun, honly, -⟩ | ⟨a', -, -, honly, -, hrun⟩
      · rw [hrun]
        exact .refl a
      · rw [hrun]
        exact .of_entryOnly honly
      · rw [hrun]
        exact (Uncleared.of_entryOnly honly).trans (.onAPLeft out a' name)
    dsimp only
    split
    · rename_i c e hrun
      rw [hrun] at hscan
      exact hscan
    · rename_i c found hrun
      rw [hrun] at hscan
      exact hscan.trans (.of_same rfl rfl)

theorem Uncleared.countLoss_stop {name : String} {stop : Stop}
    (h : countLoss out a name = .stop b stop) : Uncleared a b := by
  unfold countLoss at h
  split at h
  · obtain ⟨rfl, -⟩ := Loss.stop.inj h
    exact .refl a
  · rename_i entry hlook
    split at h
    · dsimp only at h
      split at h
      · cases h
      · split at h
        · rename_i c e hleft
          obtain ⟨rfl, -⟩ := Loss.stop.inj h
          exact (Uncleared.of_entryOnly (.putNeighbor name a _)).trans (.left hleft)
        · rename_i c hleft
          obtain ⟨rfl, -⟩ := Loss.stop.inj h
          exact ((Uncleared.of_entryOnly (.putNeighbor name a _)).trans (.left hleft)).trans
            (.of_same rfl rfl)
    · obtain ⟨rfl, -⟩ := Loss.stop.inj h
      exact .of_same rfl rfl

theorem Uncleared.sendOn (p : Platform) (me : Identity) (a : Agent) (cache : FwdCache) (nb : Bool)
    (d : Decoded) (sendKey sendIv : Bytes) (f : Frame) :
    Uncleared a (ForwarderStages.sendOn p me a cache nb d sendKey sendIv f).agent := by
  have hcounted : ∀ b, (if nb then countSuccess a d.lasthop else .ok a) = .ok b →
      Uncleared a b := by
    intro b hcount
    cases nb with
    | false => exact Except.ok.inj hcount ▸ .refl a
    | true =>
      rw [if_pos rfl, countSuccess] at hcount
      split at hcount
      · cases hcount
      · exact Except.ok.inj hcount ▸ .of_same rfl rfl
  rcases sendOn_cases p me a cache nb d sendKey sendIv f with
    ⟨e, h⟩ | ⟨b, hcount, -, ⟨e, -, h⟩ | ⟨cache', -, h⟩⟩
  · rw [h]
    exact .refl a
  · rw [h]
    exact hcounted b hcount
  · rw [h]
    cases nb with
    | true => exact hcounted b hcount
    | false => exact fun e he _ => releaseSenders_set b e he

/-- The forwarder clears neither event. -/
theorem forwarded_uncleared (h : Forwarded p me out s s') : Uncleared s.agent s'.agent := by
  cases h with
  | drop
  | take
  | wait
  | markRaises
  | decoded
  | retryWait
  | againRaises
  | againDecoded
  | rescanWait
  | readKeys => exact .refl _
  | marked hstage hmark =>
    rcases mark_cases hmark with ⟨-, rfl⟩ | ⟨-, rfl⟩
    · exact .refl _
    · exact .of_same rfl rfl
  | decodeStops hstage hfirst =>
    rcases firstDecode_stop hfirst with ⟨rfl, -⟩ | ⟨-, rfl, -⟩
    · exact .refl _
    · exact fun e he _ => releaseSenders_set s.agent e he
  | retries
  | retried
  | rescanned => exact .of_same rfl rfl
  | lost hstage hloss => exact .countLoss_stop hloss
  | rescans hstage hloss =>
    obtain ⟨entry, rfl⟩ := countLoss_rescan hloss
    exact .of_same rfl rfl
  | scanned => exact .rescanStep out me s.agent _
  | sent => exact .sendOn p me s.agent s.cache _ _ _ _ _

theorem Uncleared.onAPJoined_one (out : Outside) (me : Identity) (a : Agent) (entry : Neighbor) :
    Uncleared a (onAPJoined out me a [entry]) := by
  change Uncleared a (joinOne out me a entry)
  unfold joinOne
  dsimp only
  split
  · split
    · exact .of_same rfl rfl
    · exact .refl a
  · split
    · rw [notifyNewLink_rest]
      exact .of_same rfl rfl
    · exact .refl a

/-- Neither does the key thread, whose message is sent by a thread of its own here. -/
theorem rotated_uncleared {x : Rotation} (h : Rotated me x s s') : Uncleared s.agent s'.agent := by
  cases h with
  | wakes
  | wait
  | fails
  | validateWait
  | replaced
  | cleared
  | announced
  | validated
  | released
  | stamped => exact .of_same rfl rfl
  | connected => exact .onAPJoined_one x.outside me s.agent _
  | removed => exact .leaveAll x.outside _ s.agent

end Operations

/-- The layer that a unicast asks for can be put on, or the error return of a data
message is taken, which sets the event of data messages again. -/
def sendable (p : Platform) (a : Agent) (call : Call) : Bool :=
  call.receiver == broadcast ||
    match a.globalNeighborList.lookup call.receiver with
    | none => call.msgType == "data"
    | some entry =>
        if call.msgType == "ctrl" then
          (entry.pubKey.bind (fun k => p.oaepEncrypt k call.message)).isSome
        else aesAccepts entry.unicastSendKey entry.unicastSendIv

/-- The call that a thread has its frame to build for. -/
def Sender.building? : Sender → Option Call
  | .send call _ _ _ => some call
  | _ => none

/-- A frame of the agent itself that the forwarder takes next has not been seen, and one
that it decrypts next has its last hop in the table with keys of the right size. -/
def proceeds (p : Platform) (s : Sys) (arrival : Arrival) : Bool :=
  match arrival.source, s.forwarder with
  | some _, .idle => decide (seen p s.cache arrival.frame = .ok false)
  | some (lasthop, _, _), .decode _ _ =>
      match s.agent.globalNeighborList.lookup lasthop with
      | none => false
      | some entry => aesAccepts entry.encryptionKey entry.encryptionIV
  | _, _ => true

/-- The condition on a step: the sends and the forwarder's work on own frames do not
leave on one of the paths that forget the events, and other threads do not write
them. -/
def Releasing (p : Platform) (s : Sys) : Action → Prop
  | .call _ call => 2 ≤ call.initialTtl
  | .sender t _ => ∀ call ∈ Sender.building? (s.senders t), sendable p s.agent call = true
  | .forwarder _ => ∀ arrival ∈ s.arrived[s.log.length]?, proceeds p s arrival = true
  | .other b => ∀ e ∈ sendingEvents, Agent.isSet b e = Agent.isSet s.agent e
  | _ => True

instance (p : Platform) (s : Sys) : (act : Action) → Decidable (Releasing p s act)
  | .call _ call => inferInstanceAs (Decidable (2 ≤ call.initialTtl))
  | .sender t _ => inferInstanceAs (Decidable (∀ call ∈ Sender.building? (s.senders t), _ = true))
  | .changeKeys _ => inferInstanceAs (Decidable True)
  | .forwarder _ => inferInstanceAs (Decidable (∀ arrival ∈ s.arrived[s.log.length]?, _ = true))
  | .receive => inferInstanceAs (Decidable True)
  | .arrive _ => inferInstanceAs (Decidable True)
  | .other _ => inferInstanceAs (Decidable (∀ e ∈ sendingEvents, _ = _))

/-- The call of a thread that has cleared its event and not sent yet. -/
def Sender.cleared? : Sender → Option Call
  | .read call => some call
  | .send call _ _ _ => some call
  | _ => none

/-- Somebody is going to set the event: a thread that has cleared it, or the forwarder
at the end of an own frame. -/
def Pledged (s : Sys) (e : Event) : Prop :=
  (∃ t call, Sender.cleared? (s.senders t) = some call ∧ Call.event call = e) ∨
    ∃ i src f, s.log.length ≤ i ∧ s.arrived[i]? = some ⟨some src, f⟩

/-- What a thread that sends has in hand. -/
def Fit (me : Identity) : Sender → Prop
  | .await call _ => 2 ≤ call.initialTtl
  | .read call => 2 ≤ call.initialTtl
  | .send call lasthop key iv => 2 ≤ call.initialTtl ∧
      (lasthop = me.hostname ∨ lasthop = "old_keys") ∧ aesAccepts key iv = true
  | _ => True

/-- The stages of the forwarder with an own frame. -/
def OwnJob (f₀ : Frame) : FwdStage → Prop
  | .idle => True
  | .await f _ => Counted f₀ f
  | .decode f nb => Counted f₀ f ∧ nb = false
  | .keys f nb d => Counted f₀ f ∧ nb = false ∧ aesAccepts d.key d.iv = true
  | .send f nb _ sendKey sendIv => Counted f₀ f ∧ nb = false ∧ aesAccepts sendKey sendIv = true
  | .closed => True
  | _ => False

/-- The invariant of the runs that meet the condition. -/
structure Released (p : Platform) (me : Identity) (s : Sys) : Prop where
  key : s.agent.key.length = 16
  iv : s.agent.iv.length = 16
  log : s.log.length ≤ s.arrived.length
  senders : ∀ t, Fit me (s.senders t)
  built : ∀ (i : ℕ) lasthop key iv f, s.arrived[i]? = some ⟨some (lasthop, key, iv), f⟩ →
    Built p me lasthop key iv f
  job : ∀ src f, s.arrived[s.log.length]? = some ⟨some src, f⟩ → OwnJob f s.forwarder
  waiting : s.arrived[s.log.length]? = none → s.forwarder = .idle ∨ s.forwarder = .closed
  pledged : ∀ e ∈ sendingEvents, Agent.isSet s.agent e = true ∨ Pledged s e

theorem Released.start (hstart : Started me s₀) : Released p me s₀ := by
  refine ⟨hstart.key, hstart.iv, ?_, ?_, ?_, ?_, ?_, ?_⟩
  · rw [hstart.log]
    exact Nat.zero_le _
  · intro t
    rw [hstart.senders]
    trivial
  · intro i lasthop key iv f hi
    rw [hstart.arrived] at hi
    cases hi
  · intro src f hi
    rw [hstart.arrived] at hi
    cases hi
  · intro _
    exact Or.inl hstart.forwarder
  · intro e he
    simp only [sendingEvents, List.mem_cons, List.not_mem_nil, or_false] at he
    left
    rcases he with rfl | rfl
    · simp [Agent.isSet, hstart.gates]
    · simp [Agent.isSet, hstart.gates]

end Nxwlan.SenderGates
