import Nxwlan.AgentThreads
import Nxwlan.SoundTables

/-!
What a step of each thread can do. The steps of the forwarder are listed once,
with what they found; for the other threads it is said what they leave alone.
Invariants of the system are proved from these lists.
-/
namespace Nxwlan.ThreadSteps

open JsonFrames AgentState Forwarder ForwarderStages Messaging Rescans ReceiveLoop AgentThreads
open Base64 (Bytes)

variable {p : Platform} {me : Identity} {out : Outside} {a b : Agent} {s s' : Sys} {t : Tid}
  {now : ℤ} {x : Rotation}

/-- The steps of the forwarder. -/
inductive Forwarded (p : Platform) (me : Identity) (out : Outside) (s : Sys) : Sys → Prop where
  | drop {arrival : Arrival} {stop : Stop} (hstage : s.forwarder = .idle)
      (hnext : s.arrived[s.log.length]? = some arrival)
      (hfilter : filterFrame p me s.cache arrival.frame = .error stop) :
      Forwarded p me out s (s.finish (some stop))
  | take {arrival : Arrival} {f : Frame} (hstage : s.forwarder = .idle)
      (hnext : s.arrived[s.log.length]? = some arrival)
      (hfilter : filterFrame p me s.cache arrival.frame = .ok f) :
      Forwarded p me out s
        { s with forwarder := .await f [.probeRequest, .changeKeys, .neighborUpdate] }
  | wait {f : Frame} {e : Event} {events : List Event}
      (hstage : s.forwarder = .await f (e :: events)) (hset : Agent.isSet s.agent e = true) :
      Forwarded p me out s { s with forwarder := .await f events }
  | markRaises {f : Frame} {e : PyError} (hstage : s.forwarder = .await f [])
      (hmark : mark me f s.agent = .error e) :
      Forwarded p me out s (s.finish (some (.raised e)))
  | marked {f : Frame} {nb : Bool} {a : Agent} (hstage : s.forwarder = .await f [])
      (hmark : mark me f s.agent = .ok (nb, a)) :
      Forwarded p me out s { s with agent := a, forwarder := .decode f nb }
  | decodeStops {f : Frame} {nb : Bool} {a : Agent} {stop : Stop}
      (hstage : s.forwarder = .decode f nb)
      (hfirst : firstDecode p me s.agent nb f = .stop a stop) :
      Forwarded p me out s ({ s with agent := a }.finish (some stop))
  | decoded {f : Frame} {nb : Bool} {d : Decoded} (hstage : s.forwarder = .decode f nb)
      (hfirst : firstDecode p me s.agent nb f = .decoded d) :
      Forwarded p me out s { s with forwarder := .keys f nb d }
  | retries {f : Frame} {nb : Bool} {name : String} {entry : Neighbor}
      (hstage : s.forwarder = .decode f nb)
      (hfirst : firstDecode p me s.agent nb f = .retry name entry) :
      Forwarded p me out s { s with
        agent := Agent.setNeighborMessage s.agent true
        forwarder := .retry f name entry [.neighborUpdate, .probeRequest, .changeKeys] }
  | retryWait {f : Frame} {name : String} {entry : Neighbor} {e : Event} {events : List Event}
      (hstage : s.forwarder = .retry f name entry (e :: events))
      (hset : Agent.isSet s.agent e = true) :
      Forwarded p me out s { s with forwarder := .retry f name entry events }
  | retried {f : Frame} {name : String} {entry : Neighbor}
      (hstage : s.forwarder = .retry f name entry []) :
      Forwarded p me out s { s with
        agent := Agent.setNeighborMessage s.agent false
        forwarder := .again f name entry }
  | againRaises {f : Frame} {name : String} {entry : Neighbor} {e : PyError}
      (hstage : s.forwarder = .again f name entry)
      (hthird : attempt p entry.encryptionKey entry.encryptionIV (verificationKey me name entry) f =
        .error e) :
      Forwarded p me out s (s.finish (some (.raised e)))
  | againDecoded {f : Frame} {name : String} {entry : Neighbor} {plain : Bytes}
      (hstage : s.forwarder = .again f name entry)
      (hthird : attempt p entry.encryptionKey entry.encryptionIV (verificationKey me name entry) f =
        .ok (plain, true)) :
      Forwarded p me out s { s with
        forwarder := .keys f true ⟨name, entry.encryptionKey, entry.encryptionIV, plain⟩ }
  | lost {f : Frame} {name : String} {entry : Neighbor} {plain : Bytes} {a : Agent} {stop : Stop}
      (hstage : s.forwarder = .again f name entry)
      (hloss : countLoss out s.agent name = .stop a stop)
      (hthird : attempt p entry.encryptionKey entry.encryptionIV (verificationKey me name entry) f =
        .ok (plain, false)) :
      Forwarded p me out s ({ s with agent := a }.finish (some stop))
  | rescans {f : Frame} {name : String} {entry : Neighbor} {plain : Bytes} {a : Agent}
      (hstage : s.forwarder = .again f name entry)
      (hloss : countLoss out s.agent name = .rescan a)
      (hthird : attempt p entry.encryptionKey entry.encryptionIV (verificationKey me name entry) f =
        .ok (plain, false)) :
      Forwarded p me out s { s with
        agent := Agent.setNeighborMessage a true
        forwarder := .rescan name [.neighborUpdate, .probeRequest, .changeKeys] }
  | rescanWait {name : String} {e : Event} {events : List Event}
      (hstage : s.forwarder = .rescan name (e :: events)) (hset : Agent.isSet s.agent e = true) :
      Forwarded p me out s { s with forwarder := .rescan name events }
  | rescanned {name : String} (hstage : s.forwarder = .rescan name []) :
      Forwarded p me out s { s with
        agent := Agent.setNeighborUpdate s.agent false
        forwarder := .scan name }
  | scanned {name : String} (hstage : s.forwarder = .scan name) :
      Forwarded p me out s ({ s with agent := (rescanStep out me s.agent name).1 }.finish
        (some (rescanStep out me s.agent name).2))
  | readKeys {f : Frame} {nb : Bool} {d : Decoded} (hstage : s.forwarder = .keys f nb d) :
      Forwarded p me out s { s with
        forwarder := .send f nb d (publicationKeys s.agent d).1 (publicationKeys s.agent d).2 }
  | sent {f : Frame} {nb : Bool} {d : Decoded} {sendKey sendIv : Bytes}
      (hstage : s.forwarder = .send f nb d sendKey sendIv) :
      Forwarded p me out s ({ s with
        agent := (sendOn p me s.agent s.cache nb d sendKey sendIv f).agent
        cache := (sendOn p me s.agent s.cache nb d sendKey sendIv f).cache
        toReceive := s.toReceive ++
          (sendOn p me s.agent s.cache nb d sendKey sendIv f).published.toList }.finish
        (sendOn p me s.agent s.cache nb d sendKey sendIv f).stop)

theorem forwarded_of_step (h : forwarderStep p me out s = some s') : Forwarded p me out s s' := by
  unfold forwarderStep at h
  cases hstage : s.forwarder with
  | idle =>
    simp only [hstage] at h
    cases hnext : s.arrived[s.log.length]? with
    | none => simp [hnext] at h
    | some arrival =>
      simp only [hnext] at h
      cases hfilter : filterFrame p me s.cache arrival.frame with
      | error stop =>
        simp only [hfilter] at h
        exact Option.some.inj h ▸ .drop hstage hnext hfilter
      | ok f =>
        simp only [hfilter] at h
        exact Option.some.inj h ▸ .take hstage hnext hfilter
  | await f events =>
    cases events with
    | nil =>
      simp only [hstage] at h
      rcases hmark : mark me f s.agent with e | ⟨nb, a⟩
      · simp only [hmark] at h
        exact Option.some.inj h ▸ .markRaises hstage hmark
      · simp only [hmark] at h
        exact Option.some.inj h ▸ .marked hstage hmark
    | cons e events =>
      simp only [hstage] at h
      split at h
      · rename_i hset
        exact Option.some.inj h ▸ .wait hstage hset
      · cases h
  | decode f nb =>
    simp only [hstage] at h
    cases hfirst : firstDecode p me s.agent nb f with
    | stop a stop =>
      simp only [hfirst] at h
      exact Option.some.inj h ▸ .decodeStops hstage hfirst
    | decoded d =>
      simp only [hfirst] at h
      exact Option.some.inj h ▸ .decoded hstage hfirst
    | retry name entry =>
      simp only [hfirst] at h
      exact Option.some.inj h ▸ .retries hstage hfirst
  | retry f name entry events =>
    cases events with
    | nil =>
      simp only [hstage] at h
      exact Option.some.inj h ▸ .retried hstage
    | cons e events =>
      simp only [hstage] at h
      split at h
      · rename_i hset
        exact Option.some.inj h ▸ .retryWait hstage hset
      · cases h
  | again f name entry =>
    simp only [hstage] at h
    rcases hthird : attempt p entry.encryptionKey entry.encryptionIV
      (verificationKey me name entry) f with e | ⟨plain, ok⟩
    · simp only [hthird] at h
      exact Option.some.inj h ▸ .againRaises hstage hthird
    · cases ok with
      | true =>
        simp only [hthird] at h
        exact Option.some.inj h ▸ .againDecoded hstage hthird
      | false =>
        simp only [hthird] at h
        cases hloss : countLoss out s.agent name with
        | stop a stop =>
          simp only [hloss] at h
          exact Option.some.inj h ▸ .lost hstage hloss hthird
        | rescan a =>
          simp only [hloss] at h
          exact Option.some.inj h ▸ .rescans hstage hloss hthird
  | rescan name events =>
    cases events with
    | nil =>
      simp only [hstage] at h
      exact Option.some.inj h ▸ .rescanned hstage
    | cons e events =>
      simp only [hstage] at h
      split at h
      · rename_i hset
        exact Option.some.inj h ▸ .rescanWait hstage hset
      · cases h
  | scan name =>
    simp only [hstage] at h
    exact Option.some.inj h ▸ .scanned hstage
  | keys f nb d =>
    simp only [hstage] at h
    exact Option.some.inj h ▸ .readKeys hstage
  | send f nb d sendKey sendIv =>
    simp only [hstage] at h
    exact Option.some.inj h ▸ .sent hstage
  | closed =>
    simp only [hstage] at h
    cases h

/-- What a step of the forwarder leaves alone in the agent: keys, message number, the
events it never writes; it connects no endpoint. -/
structure FwdOp (a b : Agent) : Prop where
  key : b.key = a.key
  iv : b.iv = a.iv
  local_id : b.local_id = a.local_id
  changeKeys : b.gates.processingChangeKeysEvent = a.gates.processingChangeKeysEvent
  probeRequest : b.gates.processingProbeRequestEvent = a.gates.processingProbeRequestEvent
  frontend : ∀ link ∈ b.frontend, link ∈ a.frontend

theorem FwdOp.refl (a : Agent) : FwdOp a a := ⟨rfl, rfl, rfl, rfl, rfl, fun _ h => h⟩

theorem FwdOp.trans {c : Agent} (h : FwdOp a b) (h' : FwdOp b c) : FwdOp a c :=
  ⟨h'.key.trans h.key, h'.iv.trans h.iv, h'.local_id.trans h.local_id,
    h'.changeKeys.trans h.changeKeys, h'.probeRequest.trans h.probeRequest,
    fun link hl => h.frontend link (h'.frontend link hl)⟩

theorem FwdOp.setNeighborMessage (a : Agent) (v : Bool) :
    FwdOp a (Agent.setNeighborMessage a v) := ⟨rfl, rfl, rfl, rfl, rfl, fun _ h => h⟩

theorem FwdOp.setNeighborUpdate (a : Agent) (v : Bool) :
    FwdOp a (Agent.setNeighborUpdate a v) := ⟨rfl, rfl, rfl, rfl, rfl, fun _ h => h⟩

theorem FwdOp.releaseSenders (a : Agent) : FwdOp a (Agent.releaseSenders a) :=
  ⟨rfl, rfl, rfl, rfl, rfl, fun _ h => h⟩

/-- An operation on the table entry `name`, which leaves the neighbor message event
alone as well. -/
structure EntryOp (name : String) (a b : Agent) : Prop where
  op : FwdOp a b
  neighborMessage :
    b.gates.processingNeighborMessageEvent = a.gates.processingNeighborMessageEvent
  others : ∀ n, n ≠ name → b.globalNeighborList.lookup n = a.globalNeighborList.lookup n

theorem EntryOp.refl (name : String) (a : Agent) : EntryOp name a a :=
  ⟨.refl a, rfl, fun _ _ => rfl⟩

theorem EntryOp.trans {name : String} {c : Agent} (h : EntryOp name a b) (h' : EntryOp name b c) :
    EntryOp name a c :=
  ⟨h.op.trans h'.op, h'.neighborMessage.trans h.neighborMessage,
    fun n hn => (h'.others n hn).trans (h.others n hn)⟩

theorem EntryOp.of_entryOnly {name : String} (h : EntryOnly name a b) : EntryOp name a b := by
  refine ⟨?_, ?_, h.others⟩
  · rw [h.rest]
    exact ⟨rfl, rfl, rfl, rfl, rfl, fun _ hl => hl⟩
  · rw [h.rest]

theorem EntryOp.putNeighbor (name : String) (a : Agent) (e : Neighbor) :
    EntryOp name a (Agent.putNeighbor a name e) :=
  .of_entryOnly (.putNeighbor name a e)

theorem EntryOp.of_notified (name : String) (h : Notified a b) : EntryOp name a b := by
  refine ⟨⟨?_, ?_, ?_, ?_, ?_, ?_⟩, ?_, ?_⟩
  · rw [h]
  · rw [h]
  · rw [h]
  · rw [h]
  · rw [h]
  · rw [h]
    exact fun _ hl => hl
  · rw [h]
  · rw [h]
    exact fun _ _ => rfl

theorem EntryOp.unlink (a : Agent) (name : String) : EntryOp name a (Agent.unlink a name) :=
  ⟨⟨rfl, rfl, rfl, rfl, rfl, fun _ hl => List.mem_of_mem_erase hl⟩, rfl,
    fun _ hn => AList.lookup_erase_ne hn⟩

theorem EntryOp.onAPLeft (out : Outside) (a : Agent) (name : String) :
    EntryOp name a (AgentState.onAPLeft out a name).1 := by
  rcases onAPLeft_cases out a name with ⟨-, h⟩ | ⟨-, -, h⟩ | ⟨-, -, a', r, h, hnot, -⟩
  · rw [h]
    exact .refl name a
  · rw [h]
    exact ⟨⟨rfl, rfl, rfl, rfl, rfl, fun _ hl => List.mem_of_mem_erase hl⟩, rfl, fun _ _ => rfl⟩
  · rw [h]
    exact (EntryOp.unlink a name).trans (.of_notified name hnot)

theorem EntryOp.left {name : String} {r : Except PyError Unit}
    (h : AgentState.onAPLeft out a name = (b, r)) : EntryOp name a b := by
  have hop := EntryOp.onAPLeft out a name
  rw [h] at hop
  exact hop

theorem EntryOp.rescan_neighbor (out : Outside) (me : Identity) (a : Agent) (freq : ℤ)
    (ssid name : String) (hsome : (a.globalNeighborList.lookup name).isSome = true) :
    EntryOp name a (AgentState.rescan_neighbor out me a freq ssid name 10).1 := by
  obtain ⟨e, he⟩ := Option.isSome_iff_exists.mp hsome
  rcases rescan_neighbor_cases out me freq ssid he with
    ⟨k, err, -, -, -, hrun⟩ | ⟨k, a', -, -, -, hrun, honly, -⟩ | ⟨a', -, -, honly, -, hrun⟩
  · rw [hrun]
    exact .refl name a
  · rw [hrun]
    exact .of_entryOnly honly
  · rw [hrun]
    exact (EntryOp.of_entryOnly honly).trans (.onAPLeft out a' name)

/-- A counted loss touches the entry of the last hop. If the pass ends with it, the
neighbor message event is set, or an exception is raised. -/
theorem countLoss_stop {name : String} {stop : Stop} (h : countLoss out a name = .stop b stop) :
    FwdOp a b ∧ (∀ n, n ≠ name → b.globalNeighborList.lookup n = a.globalNeighborList.lookup n) ∧
      (b.gates.processingNeighborMessageEvent = true ∨ ∃ e, stop = .raised e) := by
  unfold countLoss at h
  split at h
  · simp only [Loss.stop.injEq] at h
    obtain ⟨rfl, rfl⟩ := h
    exact ⟨.refl a, fun _ _ => rfl, Or.inr ⟨_, rfl⟩⟩
  · rename_i entry hlook
    split at h
    · dsimp only at h
      split at h
      · cases h
      · split at h
        · rename_i c e hleft
          simp only [Loss.stop.injEq] at h
          obtain ⟨rfl, rfl⟩ := h
          have hop := (EntryOp.putNeighbor name a _).trans (.left hleft)
          exact ⟨hop.op, hop.others, Or.inr ⟨_, rfl⟩⟩
        · rename_i c hleft
          simp only [Loss.stop.injEq] at h
          obtain ⟨rfl, rfl⟩ := h
          have hop := (EntryOp.putNeighbor name a _).trans (.left hleft)
          exact ⟨hop.op.trans (.setNeighborMessage c true), hop.others, Or.inl rfl⟩
    · simp only [Loss.stop.injEq] at h
      obtain ⟨rfl, rfl⟩ := h
      have hop := EntryOp.putNeighbor name a { entry with
        lostMessages := entry.lostMessages + 1, rxStatsLost := entry.rxStatsLost + 1 }
      exact ⟨hop.op.trans (.setNeighborMessage _ true), hop.others, Or.inl rfl⟩

theorem countLoss_rescan {name : String} (h : countLoss out a name = .rescan b) :
    ∃ entry, b = Agent.putNeighbor a name entry := by
  unfold countLoss at h
  split at h
  · cases h
  · split at h
    · dsimp only at h
      split at h
      · exact ⟨_, (Loss.rescan.inj h).symm⟩
      · split at h
        · cases h
        · cases h
    · cases h

theorem rescanStep_op (out : Outside) (me : Identity) (a : Agent) (name : String) :
    EntryOp name a (rescanStep out me a name).1 := by
  unfold rescanStep
  cases hlook : a.globalNeighborList.lookup name with
  | none => exact .refl name a
  | some entry =>
    have hop := EntryOp.rescan_neighbor out me a entry.freq entry.ssid name (by simp [hlook])
    dsimp only
    split
    · rename_i c e hrun
      rw [hrun] at hop
      exact hop
    · rename_i c found hrun
      rw [hrun] at hop
      exact ⟨hop.op.trans (.setNeighborUpdate c true), hop.neighborMessage, hop.others⟩

theorem firstDecode_stop {nb : Bool} {f : Frame} {stop : Stop}
    (h : firstDecode p me a nb f = .stop b stop) :
    b = a ∧ ((∃ e, stop = .raised e) ∨ stop = .unknownLasthop ∧
        lasthopEntry f a.globalNeighborList = .ok none) ∨
      nb = false ∧ b = Agent.releaseSenders a ∧ stop = .ownUndecodable := by
  unfold firstDecode at h
  split at h
  · simp only [First.stop.injEq] at h
    exact Or.inl ⟨h.1.symm, Or.inl ⟨_, h.2.symm⟩⟩
  · rename_i hnone
    simp only [First.stop.injEq] at h
    exact Or.inl ⟨h.1.symm, Or.inr ⟨h.2.symm, hnone⟩⟩
  · split at h
    · simp only [First.stop.injEq] at h
      exact Or.inl ⟨h.1.symm, Or.inl ⟨_, h.2.symm⟩⟩
    · cases h
    · split at h
      · split at h
        · simp only [First.stop.injEq] at h
          exact Or.inl ⟨h.1.symm, Or.inl ⟨_, h.2.symm⟩⟩
        · cases h
        · cases h
      · rename_i hnb
        simp only [First.stop.injEq] at h
        exact Or.inr ⟨by simpa using hnb, h.1.symm, h.2.symm⟩

/-- A last stage sends and remembers, or raises, before or after it has sent. -/
theorem sendOn_cases (p : Platform) (me : Identity) (a : Agent) (cache : FwdCache) (nb : Bool)
    (d : Decoded) (sendKey sendIv : Bytes) (f : Frame) :
    (∃ e, sendOn p me a cache nb d sendKey sendIv f =
      { agent := a, cache := cache, stop := some (.raised e) }) ∨
    ∃ b, (if nb then countSuccess a d.lasthop else .ok a) = .ok b ∧
      aesAccepts sendKey sendIv = true ∧
      ((∃ e, remember cache f = .error e ∧ sendOn p me a cache nb d sendKey sendIv f =
          { agent := b, cache := cache, stop := some (.raised e),
            published := some (republished p me sendKey sendIv d.plain f) }) ∨
        ∃ cache', remember cache f = .ok cache' ∧ sendOn p me a cache nb d sendKey sendIv f =
          { agent := if nb then b else Agent.releaseSenders b, cache := cache',
            published := some (republished p me sendKey sendIv d.plain f) }) := by
  unfold sendOn
  by_cases haes : aesAccepts sendKey sendIv
  · simp only [haes, if_true]
    cases hcount : (if nb then countSuccess a d.lasthop else .ok a) with
    | error e => exact Or.inl ⟨e, rfl⟩
    | ok b =>
      refine Or.inr ⟨b, rfl, trivial, ?_⟩
      cases hrem : remember cache f with
      | error e => exact Or.inl ⟨e, rfl, rfl⟩
      | ok cache' => exact Or.inr ⟨cache', rfl, rfl⟩
  · simp only [haes]
    exact Or.inl ⟨_, rfl⟩

theorem counted_op {nb : Bool} {name : String}
    (h : (if nb then countSuccess a name else .ok a) = .ok b) : EntryOp name a b := by
  cases nb with
  | false =>
    obtain rfl := Except.ok.inj h
    exact .refl name a
  | true =>
    rw [if_pos rfl, countSuccess] at h
    split at h
    · cases h
    · obtain rfl := Except.ok.inj h
      exact .putNeighbor name a _

theorem sendOn_op (p : Platform) (me : Identity) (a : Agent) (cache : FwdCache) (nb : Bool)
    (d : Decoded) (sendKey sendIv : Bytes) (f : Frame) :
    EntryOp d.lasthop a (sendOn p me a cache nb d sendKey sendIv f).agent := by
  rcases sendOn_cases p me a cache nb d sendKey sendIv f with
    ⟨e, h⟩ | ⟨b, hcount, -, ⟨e, -, h⟩ | ⟨cache', -, h⟩⟩
  · rw [h]
    exact .refl _ a
  · rw [h]
    exact counted_op hcount
  · rw [h]
    have hop := counted_op hcount
    cases nb with
    | true => exact hop
    | false => exact ⟨hop.op.trans (.releaseSenders b), hop.neighborMessage, hop.others⟩

/-- A frame of the agent itself is marked without a trace, another one clears the
event. -/
theorem mark_cases {f : Frame} {nb : Bool} (h : mark me f a = .ok (nb, b)) :
    nb = false ∧ b = a ∨ nb = true ∧ b = Agent.setNeighborMessage a false := by
  unfold mark at h
  simp only [bind, Except.bind, pure, Except.pure] at h
  split at h
  · cases h
  · split at h
    · cases h
    · split at h
      · cases h
      · split at h
        · cases h
        · split at h
          · obtain ⟨rfl, rfl⟩ := Prod.mk.inj (Except.ok.inj h)
            exact Or.inl ⟨rfl, rfl⟩
          · obtain ⟨rfl, rfl⟩ := Prod.mk.inj (Except.ok.inj h)
            exact Or.inr ⟨rfl, rfl⟩

theorem mark_op {f : Frame} {nb : Bool} (h : mark me f a = .ok (nb, b)) : FwdOp a b := by
  rcases mark_cases h with ⟨-, rfl⟩ | ⟨-, rfl⟩
  · exact .refl b
  · exact .setNeighborMessage a false

/-- The forwarder leaves the other threads and the frames that come to it alone. -/
theorem forwarded_frame (h : Forwarded p me out s s') :
    FwdOp s.agent s'.agent ∧ s'.senders = s.senders ∧ s'.keyThread = s.keyThread ∧
      s'.receiver = s.receiver ∧ s'.arrived = s.arrived ∧ s'.received = s.received := by
  cases h with
  | drop
  | take
  | wait
  | markRaises
  | decoded
  | retryWait
  | againRaises
  | againDecoded
  | rescanWait
  | readKeys => exact ⟨.refl _, rfl, rfl, rfl, rfl, rfl⟩
  | marked hstage hmark => exact ⟨mark_op hmark, rfl, rfl, rfl, rfl, rfl⟩
  | decodeStops hstage hfirst =>
    refine ⟨?_, rfl, rfl, rfl, rfl, rfl⟩
    rcases firstDecode_stop hfirst with ⟨rfl, -⟩ | ⟨-, rfl, -⟩
    · exact .refl _
    · exact .releaseSenders _
  | retries
  | retried => exact ⟨.setNeighborMessage _ _, rfl, rfl, rfl, rfl, rfl⟩
  | lost hstage hloss => exact ⟨(countLoss_stop hloss).1, rfl, rfl, rfl, rfl, rfl⟩
  | rescans hstage hloss =>
    obtain ⟨entry, rfl⟩ := countLoss_rescan hloss
    exact ⟨(EntryOp.putNeighbor _ _ entry).op.trans (.setNeighborMessage _ _), rfl, rfl, rfl, rfl,
      rfl⟩
  | rescanned => exact ⟨.setNeighborUpdate _ _, rfl, rfl, rfl, rfl, rfl⟩
  | scanned => exact ⟨(rescanStep_op out me _ _).op, rfl, rfl, rfl, rfl, rfl⟩
  | sent => exact ⟨(sendOn_op p me _ _ _ _ _ _ _).op, rfl, rfl, rfl, rfl, rfl⟩

/-- A step that leaves the forwarder, the receive thread and the frames between them
alone, and what these read of the agent: its keys and the event for neighbor
messages. -/
structure Quiet (s s' : Sys) : Prop where
  forwarder : s'.forwarder = s.forwarder
  receiver : s'.receiver = s.receiver
  toReceive : s'.toReceive = s.toReceive
  received : s'.received = s.received
  key : s'.agent.key = s.agent.key
  iv : s'.agent.iv = s.agent.iv
  neighborMessage : s'.agent.gates.processingNeighborMessageEvent =
    s.agent.gates.processingNeighborMessageEvent

theorem setEvent_key (a : Agent) (v : Bool) (e : Event) :
    (Agent.setEvent a v e).key = a.key ∧ (Agent.setEvent a v e).iv = a.iv ∧
      (Agent.setEvent a v e).local_id = a.local_id ∧
      (Agent.setEvent a v e).globalNeighborList = a.globalNeighborList ∧
      (Agent.setEvent a v e).frontend = a.frontend := by
  cases e with
  | _ => exact ⟨rfl, rfl, rfl, rfl, rfl⟩

/-- The steps of a sending thread. -/
inductive Moved (p : Platform) (me : Identity) (now : ℤ) (s : Sys) (t : Tid) : Sys → Prop where
  | wait {call : Call} {e : Event} {events : List Event}
      (hstage : s.senders t = .await call (e :: events)) (hset : Agent.isSet s.agent e = true) :
      Moved p me now s t (s.setSender t (.await call events))
  | cleared {call : Call} (hstage : s.senders t = .await call []) :
      Moved p me now s t { s.setSender t (.read call) with
        agent := Agent.setEvent s.agent false (Call.event call) }
  | readKeys {call : Call} (hstage : s.senders t = .read call) :
      Moved p me now s t { s.setSender t (.send call (call.sendKeys me s.agent).1
          (call.sendKeys me s.agent).2.1 (call.sendKeys me s.agent).2.2) with
        agent := storeOldKeys me now s.agent call.keys.1 call.keys.2 }
  | raises {call : Call} {lasthop : String} {key iv : Bytes} {e : PyError}
      (hstage : s.senders t = .send call lasthop key iv)
      (hbuild : Call.build p me s.agent call lasthop key iv = .error e) :
      Moved p me now s t (s.setSender t .raised)
  | unknown {call : Call} {lasthop : String} {key iv : Bytes}
      (hstage : s.senders t = .send call lasthop key iv)
      (hbuild : Call.build p me s.agent call lasthop key iv = .ok none) :
      Moved p me now s t { s.setSender t .idle with
        agent := Agent.setEvent s.agent true .userSpace }
  | sent {call : Call} {lasthop : String} {key iv : Bytes} {f : Frame}
      (hstage : s.senders t = .send call lasthop key iv)
      (hbuild : Call.build p me s.agent call lasthop key iv = .ok (some f)) :
      Moved p me now s t { s.setSender t .increment with
        arrived := s.arrived ++ [⟨some (lasthop, key, iv), f⟩] }
  | incremented (hstage : s.senders t = .increment) :
      Moved p me now s t { s.setSender t .idle with
        agent := { s.agent with local_id := s.agent.local_id + 1 } }

theorem moved_of_step (h : senderStep p me now s t = some s') : Moved p me now s t s' := by
  unfold senderStep at h
  cases hstage : s.senders t with
  | idle =>
    simp only [hstage] at h
    cases h
  | raised =>
    simp only [hstage] at h
    cases h
  | await call events =>
    cases events with
    | nil =>
      simp only [hstage] at h
      exact Option.some.inj h ▸ .cleared hstage
    | cons e events =>
      simp only [hstage] at h
      split at h
      · rename_i hset
        exact Option.some.inj h ▸ .wait hstage hset
      · cases h
  | read call =>
    simp only [hstage] at h
    exact Option.some.inj h ▸ .readKeys hstage
  | send call lasthop key iv =>
    simp only [hstage] at h
    rcases hbuild : Call.build p me s.agent call lasthop key iv with e | _ | f
    · simp only [hbuild] at h
      exact Option.some.inj h ▸ .raises hstage hbuild
    · simp only [hbuild] at h
      exact Option.some.inj h ▸ .unknown hstage hbuild
    · simp only [hbuild] at h
      exact Option.some.inj h ▸ .sent hstage hbuild
  | increment =>
    simp only [hstage] at h
    exact Option.some.inj h ▸ .incremented hstage

/-- The steps of the key thread. -/
inductive Rotated (me : Identity) (x : Rotation) (s : Sys) : Sys → Prop where
  | wakes (hstage : s.keyThread = .sleeping) :
      Rotated me x s { s with keyThread := .await [.userSpace, .userCtrl, .probeRequest] }
  | wait {e : Event} {events : List Event} (hstage : s.keyThread = .await (e :: events))
      (hset : Agent.isSet s.agent e = true) :
      Rotated me x s { s with keyThread := .await events }
  | cleared (hstage : s.keyThread = .await []) :
      Rotated me x s { s with
        agent := Agent.setEvent s.agent false .changeKeys
        keyThread := .replace }
  | replaced (hstage : s.keyThread = .replace) :
      Rotated me x s { s with
        agent := { s.agent with key := x.key, iv := x.iv }
        keyThread := .connect s.agent.key s.agent.iv }
  | connected {key_old iv_old : Bytes} (hstage : s.keyThread = .connect key_old iv_old) :
      Rotated me x s { s with
        agent := onAPJoined x.outside me s.agent [ownEntry me x.now s.agent]
        keyThread := .announce key_old iv_old }
  | announced {key_old iv_old : Bytes} (hstage : s.keyThread = .announce key_old iv_old) :
      Rotated me x s { s.setSender .changeKeys
          (.await (.sendCtrlToNeighbors x.kcm "kcm" key_old iv_old broadcast)
            (Call.waits (.sendCtrlToNeighbors x.kcm "kcm" key_old iv_old broadcast))) with
        agent := Agent.setEvent s.agent true .changeKeys
        keyThread := .sending }
  | fails (hstage : s.keyThread = .sending)
      (hwhy : s.agent.globalNeighborList.lookup me.hostname = none ∨
        s.senders .changeKeys = .raised) :
      Rotated me x s { s with keyThread := .ended }
  | stamped {entry : Neighbor} (hstage : s.keyThread = .sending)
      (hidle : s.senders .changeKeys = .idle)
      (hentry : s.agent.globalNeighborList.lookup me.hostname = some entry) :
      Rotated me x s { s with
        agent := Agent.putNeighbor s.agent me.hostname { entry with timestampLastKCM := x.now }
        keyThread := .validate [.probeRequest, .userSpace, .userCtrl, .neighborMessage] }
  | validateWait {e : Event} {events : List Event} (hstage : s.keyThread = .validate (e :: events))
      (hset : Agent.isSet s.agent e = true) :
      Rotated me x s { s with keyThread := .validate events }
  | validated (hstage : s.keyThread = .validate []) :
      Rotated me x s { s with
        agent := Agent.setEvent s.agent false .neighborUpdate
        keyThread := .remove }
  | removed (hstage : s.keyThread = .remove) :
      Rotated me x s { s with
        agent := (leaveAll x.outside
          (expiredNeighbors me x.now s.agent.globalNeighborList) s.agent).1
        keyThread := match (leaveAll x.outside
            (expiredNeighbors me x.now s.agent.globalNeighborList) s.agent).2 with
          | .error _ => .ended
          | .ok () => .release }
  | released (hstage : s.keyThread = .release) :
      Rotated me x s { s with
        agent := Agent.setEvent s.agent true .neighborUpdate
        keyThread := .sleeping }

theorem rotated_of_step (h : keyStep me x s = some s') : Rotated me x s s' := by
  unfold keyStep at h
  cases hstage : s.keyThread with
  | sleeping =>
    simp only [hstage] at h
    exact Option.some.inj h ▸ .wakes hstage
  | await events =>
    cases events with
    | nil =>
      simp only [hstage] at h
      exact Option.some.inj h ▸ .cleared hstage
    | cons e events =>
      simp only [hstage] at h
      split at h
      · rename_i hset
        exact Option.some.inj h ▸ .wait hstage hset
      · cases h
  | replace =>
    simp only [hstage] at h
    exact Option.some.inj h ▸ .replaced hstage
  | connect key_old iv_old =>
    simp only [hstage] at h
    exact Option.some.inj h ▸ .connected hstage
  | announce key_old iv_old =>
    simp only [hstage] at h
    exact Option.some.inj h ▸ .announced hstage
  | sending =>
    simp only [hstage] at h
    split at h
    · rename_i hidle
      split at h
      · rename_i hentry
        exact Option.some.inj h ▸ .fails hstage (Or.inl hentry)
      · rename_i entry hentry
        exact Option.some.inj h ▸ .stamped hstage hidle hentry
    · rename_i hraised
      exact Option.some.inj h ▸ .fails hstage (Or.inr hraised)
    · cases h
  | validate events =>
    cases events with
    | nil =>
      simp only [hstage] at h
      exact Option.some.inj h ▸ .validated hstage
    | cons e events =>
      simp only [hstage] at h
      split at h
      · rename_i hset
        exact Option.some.inj h ▸ .validateWait hstage hset
      · cases h
  | remove =>
    simp only [hstage] at h
    exact Option.some.inj h ▸ .removed hstage
  | release =>
    simp only [hstage] at h
    exact Option.some.inj h ▸ .released hstage
  | ended =>
    simp only [hstage] at h
    cases h

/-- Removals leave alone what the forwarder's own ones do, and every entry that is
not among the removed. -/
theorem leaveAll_op (out : Outside) (nodes : List String) (a : Agent) :
    FwdOp a (leaveAll out nodes a).1 ∧
      (leaveAll out nodes a).1.gates.processingNeighborMessageEvent =
        a.gates.processingNeighborMessageEvent ∧
      ∀ n, n ∉ nodes →
        (leaveAll out nodes a).1.globalNeighborList.lookup n = a.globalNeighborList.lookup n := by
  induction nodes generalizing a with
  | nil => exact ⟨.refl a, rfl, fun _ _ => rfl⟩
  | cons node rest ih =>
    rw [leaveAll]
    rcases hleft : onAPLeft out a node with ⟨b, e | u⟩
    · have hop := EntryOp.left hleft
      exact ⟨hop.op, hop.neighborMessage, fun n hn => hop.others n (by simp at hn; exact hn.1)⟩
    · have hop := EntryOp.left hleft
      obtain ⟨hfwd, hmsg, hothers⟩ := ih b
      refine ⟨hop.op.trans hfwd, hmsg.trans hop.neighborMessage, ?_⟩
      intro n hn
      simp only [List.mem_cons, not_or] at hn
      exact (hothers n hn.2).trans (hop.others n hn.1)

/-- Removals leave the entry of a name alone that is not connected. -/
theorem leaveAll_unlinked (out : Outside) (nodes : List String) (a : Agent) {n : String}
    (hn : (n, Port.fwd) ∉ a.frontend) :
    (leaveAll out nodes a).1.globalNeighborList.lookup n = a.globalNeighborList.lookup n := by
  induction nodes generalizing a with
  | nil => rfl
  | cons node rest ih =>
    have hleft : (onAPLeft out a node).1.globalNeighborList.lookup n =
        a.globalNeighborList.lookup n := by
      by_cases hnode : n = node
      · subst hnode
        rw [onAPLeft_host, if_neg hn]
      · exact onAPLeft_others out a node n hnode
    rw [leaveAll]
    rcases hrun : onAPLeft out a node with ⟨b, e | u⟩
    · rw [hrun] at hleft
      exact hleft
    · rw [hrun] at hleft
      exact (ih b (fun hb => hn ((EntryOp.left hrun).op.frontend _ hb))).trans hleft

theorem event_cases (call : Call) : Call.event call = .userCtrl ∨ Call.event call = .userSpace := by
  unfold Call.event
  split
  · exact Or.inl rfl
  · exact Or.inr rfl

theorem storeOldKeys_rest (me : Identity) (now : ℤ) (a : Agent) (key iv : Bytes) :
    storeOldKeys me now a key iv =
      { a with globalNeighborList := (storeOldKeys me now a key iv).globalNeighborList } := by
  unfold storeOldKeys
  split
  · rfl
  · rfl

theorem quiet_of_moved (h : Moved p me now s t s') : Quiet s s' := by
  cases h with
  | wait
  | raises
  | unknown
  | sent
  | incremented => exact ⟨rfl, rfl, rfl, rfl, rfl, rfl, rfl⟩
  | cleared =>
    rename_i call hstage
    rcases event_cases call with he | he
    · exact ⟨rfl, rfl, rfl, rfl, by rw [he]; rfl, by rw [he]; rfl, by rw [he]; rfl⟩
    · exact ⟨rfl, rfl, rfl, rfl, by rw [he]; rfl, by rw [he]; rfl, by rw [he]; rfl⟩
  | readKeys =>
    refine ⟨rfl, rfl, rfl, rfl, ?_, ?_, ?_⟩
    · dsimp only
      rw [storeOldKeys_rest]
    · dsimp only
      rw [storeOldKeys_rest]
    · dsimp only
      rw [storeOldKeys_rest]

/-- Telling the applications of a new link writes the probe event and the notices. -/
theorem notifyNewLink_rest (out : Outside) (node : String) (apps : List String) (a : Agent) :
    notifyNewLink out node apps a = { a with
      gates := { a.gates with
        processingProbeRequestEvent :=
          (notifyNewLink out node apps a).gates.processingProbeRequestEvent }
      notices := (notifyNewLink out node apps a).notices } := by
  induction apps generalizing a with
  | nil => rfl
  | cons ns rest ih =>
    rw [notifyNewLink]
    dsimp only
    split
    · rw [ih]
    · rfl

/-- Joining writes the table, the frontend, the notices and the probe event. -/
theorem joinOne_rest (out : Outside) (me : Identity) (a : Agent) (entry : Neighbor) :
    (joinOne out me a entry).key = a.key ∧ (joinOne out me a entry).iv = a.iv ∧
      (joinOne out me a entry).local_id = a.local_id ∧
      (joinOne out me a entry).gates.processingChangeKeysEvent =
        a.gates.processingChangeKeysEvent ∧
      (joinOne out me a entry).gates.processingNeighborMessageEvent =
        a.gates.processingNeighborMessageEvent := by
  unfold joinOne
  dsimp only
  split
  · split
    · exact ⟨rfl, rfl, rfl, rfl, rfl⟩
    · exact ⟨rfl, rfl, rfl, rfl, rfl⟩
  · split
    · rw [notifyNewLink_rest]
      exact ⟨rfl, rfl, rfl, rfl, rfl⟩
    · exact ⟨rfl, rfl, rfl, rfl, rfl⟩

/-- The key thread is quiet but for the moment when it replaces the keys. -/
theorem quiet_of_rotated (h : Rotated me x s s') (hne : s.keyThread ≠ .replace) : Quiet s s' := by
  cases h with
  | wakes
  | wait
  | cleared
  | announced
  | fails
  | stamped
  | validateWait
  | validated
  | released => exact ⟨rfl, rfl, rfl, rfl, rfl, rfl, rfl⟩
  | replaced hstage => exact absurd hstage hne
  | connected =>
    obtain ⟨hkey, hiv, -, -, hmsg⟩ := joinOne_rest x.outside me s.agent (ownEntry me x.now s.agent)
    exact ⟨rfl, rfl, rfl, rfl, hkey, hiv, hmsg⟩
  | removed =>
    obtain ⟨hop, hmsg, -⟩ := leaveAll_op x.outside
      (expiredNeighbors me x.now s.agent.globalNeighborList) s.agent
    exact ⟨rfl, rfl, rfl, rfl, hop.key, hop.iv, hmsg⟩

/-- The receive thread gets past the check of a frame and of its kind. -/
def Accepted (p : Platform) (me : Identity) (a : Agent) (g : Frame) : Prop :=
  (∃ plain, receiveMessage p me a g = .callback plain) ∨
    ((∃ plain, receiveMessage p me a g = .ctrl plain) ∧
      (toMe me g && g.sub_type.isNone) = false)

/-- The receive thread takes the next frame, sets the event for a frame it has
accepted, or leaves the agent alone; a frame of the agent itself does not end it. -/
theorem receive_cases (h : receiveStep p me s = some s') :
    (∃ g rest, s.receiver = .idle ∧ s.toReceive = g :: rest ∧
      s' = { s with receiver := .check g, toReceive := rest }) ∨
    ∃ g a stage, s.receiver = .check g ∧ (stage = .idle ∨ stage = .ended) ∧
      s' = { s with
        agent := a
        receiver := stage
        received := s.received ++ [(g, receiveMessage p me s.agent g)] } ∧
      (Accepted p me s.agent g ∧ a = Agent.setNeighborMessage s.agent true ∧ stage = .idle ∨
        ¬ Accepted p me s.agent g ∧ a = s.agent ∧
          (receiveMessage p me s.agent g = .own → stage = .idle)) := by
  unfold receiveStep at h
  cases hstage : s.receiver with
  | idle =>
    simp only [hstage] at h
    cases hqueue : s.toReceive with
    | nil =>
      simp only [hqueue] at h
      cases h
    | cons g rest =>
      simp only [hqueue] at h
      exact Or.inl ⟨g, rest, rfl, rfl, (Option.some.inj h).symm⟩
  | check g =>
    simp only [hstage] at h
    refine Or.inr ⟨g, ?_⟩
    cases hr : receiveMessage p me s.agent g with
    | own =>
      simp only [hr] at h
      exact ⟨_, _, rfl, Or.inl rfl, (Option.some.inj h).symm,
        Or.inr ⟨by simp [Accepted, hr], rfl, fun _ => rfl⟩⟩
    | badSignature =>
      simp only [hr] at h
      exact ⟨_, _, rfl, Or.inl rfl, (Option.some.inj h).symm,
        Or.inr ⟨by simp [Accepted, hr], rfl, fun _ => rfl⟩⟩
    | noUnicastKey =>
      simp only [hr] at h
      exact ⟨_, _, rfl, Or.inl rfl, (Option.some.inj h).symm,
        Or.inr ⟨by simp [Accepted, hr], rfl, fun _ => rfl⟩⟩
    | raised e =>
      simp only [hr] at h
      exact ⟨_, _, rfl, Or.inr rfl, (Option.some.inj h).symm,
        Or.inr ⟨by simp [Accepted, hr], rfl, fun hown => (by cases hown)⟩⟩
    | ctrl plain =>
      simp only [hr] at h
      split at h
      · rename_i hkind
        exact ⟨_, _, rfl, Or.inr rfl, (Option.some.inj h).symm,
          Or.inr ⟨by simp [Accepted, hr, hkind], rfl, fun hown => (by cases hown)⟩⟩
      · rename_i hkind
        exact ⟨_, _, rfl, Or.inl rfl, (Option.some.inj h).symm,
          Or.inl ⟨Or.inr ⟨⟨plain, hr⟩, Bool.eq_false_iff.mpr hkind⟩, rfl, rfl⟩⟩
    | callback plain =>
      simp only [hr] at h
      exact ⟨_, _, rfl, Or.inl rfl, (Option.some.inj h).symm,
        Or.inl ⟨Or.inl ⟨plain, hr⟩, rfl, rfl⟩⟩
  | ended =>
    simp only [hstage] at h
    cases h

theorem call_of_step {call : Call} (h : step p me s (.call t call) = some s') :
    s.free t = true ∧ t.calls call = true ∧
      s' = s.setSender t (.await call (Call.waits call)) := by
  simp only [step] at h
  split at h
  · rename_i hfree
    rw [Bool.and_eq_true] at hfree
    exact ⟨hfree.1, hfree.2, (Option.some.inj h).symm⟩
  · cases h

theorem other_of_step (h : step p me s (.other b) = some s') :
    Kept s.agent b ∧ s' = { s with agent := b } := by
  simp only [step] at h
  split at h
  · rename_i hkept
    exact ⟨hkept, (Option.some.inj h).symm⟩
  · cases h

/-- What a step of the system is: the forwarder's, the receive thread's, the
replacement of the keys, or quiet. -/
theorem step_cases {act : Action} (h : step p me s act = some s') :
    (∃ out, act = .forwarder out ∧ Forwarded p me out s s') ∨
    (act = .receive ∧ receiveStep p me s = some s') ∨
    (∃ x, act = .changeKeys x ∧ s.keyThread = .replace ∧ s' = { s with
      agent := { s.agent with key := x.key, iv := x.iv }
      keyThread := .connect s.agent.key s.agent.iv }) ∨
    Quiet s s' := by
  cases act with
  | call t call =>
    obtain ⟨-, -, rfl⟩ := call_of_step h
    exact Or.inr (Or.inr (Or.inr ⟨rfl, rfl, rfl, rfl, rfl, rfl, rfl⟩))
  | sender t now => exact Or.inr (Or.inr (Or.inr (quiet_of_moved (moved_of_step h))))
  | changeKeys x =>
    have hrot := rotated_of_step h
    by_cases hstage : s.keyThread = .replace
    · refine Or.inr (Or.inr (Or.inl ⟨x, rfl, hstage, ?_⟩))
      simp only [step, keyStep, hstage] at h
      exact (Option.some.inj h).symm
    · exact Or.inr (Or.inr (Or.inr (quiet_of_rotated hrot hstage)))
  | forwarder out => exact Or.inl ⟨out, rfl, forwarded_of_step h⟩
  | receive => exact Or.inr (Or.inl ⟨rfl, h⟩)
  | arrive f =>
    obtain rfl := Option.some.inj h
    exact Or.inr (Or.inr (Or.inr ⟨rfl, rfl, rfl, rfl, rfl, rfl, rfl⟩))
  | other b =>
    obtain ⟨hkept, rfl⟩ := other_of_step h
    exact Or.inr (Or.inr (Or.inr ⟨rfl, rfl, rfl, rfl, hkept.1, hkept.2.1, hkept.2.2.2.2⟩))

end Nxwlan.ThreadSteps
