import Nxwlan.StepRuns
import Nxwlan.Vaps
import Mathlib.Data.List.AList
import Mathlib.Data.Rat.Init

/-!
Messages that reach the cran application while it starts. `rx_cb` queues what comes
before `started` is set and processes the rest at once; `run` sets `started` and then
goes through the queue. Both run in threads of their own. In every run in which no
message is appended behind the end of this loop, and none is processed at once while
queued ones are left, the messages are processed one by one in the order in which
they came.
-/
namespace Nxwlan.StartupQueue

open Vaps StepRuns

/-- What `rx_cb` is called with: a message of the tunnel setup with the interface that
`setup_local_tunnel` finds, an announcement of backhaul capacities, a message of
another type, or one that `process_msg` raises on. -/
inductive Msg where
  | vap (message : Message) (ifaceName : String)
  | av_backhaul_announcement (hostname : String) (av_dl_backhaul av_ul_backhaul : ℚ)
  | unsupported
  | malformed
  deriving DecidableEq

/-- What the messages change in the application. -/
structure App where
  vapManager : VapManager
  infoAvBackhaulMap : AList (fun _ : String => ℚ × ℚ) := ∅

/-- `process_msg`; `none` where it raises. -/
def process_msg (app : App) : Msg → Option App
  | .vap message ifaceName =>
      some { app with vapManager := (app.vapManager.process_msg message ifaceName).1 }
  | .av_backhaul_announcement hostname dl ul =>
      some { app with infoAvBackhaulMap := app.infoAvBackhaulMap.insert hostname (dl, ul) }
  | .unsupported => some app
  | .malformed => none

/-- Where the receive thread is in `rx_cb`: in front of the test of `started`, of the
append, or of `process_msg`; an exception ends it. -/
inductive Rx where
  | idle
  | called (msg : Msg)
  | queueing (msg : Msg)
  | direct (msg : Msg)
  | ended

/-- Where `run` is: in front of the setting of `started`, of the next message of the
queue, with a message in `process_msg`, behind the loop, or ended by an exception. -/
inductive Run where
  | starting
  | draining (i : ℕ)
  | holding (i : ℕ) (msg : Msg)
  | control
  | ended

/-- The application and its two threads. The last two fields are records: the calls
of `rx_cb` and those of `process_msg`, in their order. -/
structure Startup where
  app : App
  started : Bool := false
  msgQueue : List Msg := []
  rx : Rx := .idle
  run : Run := .starting
  received : List Msg := []
  processed : List Msg := []

inductive Act where
  | rx_cb (msg : Msg)
  | rx
  | run
  | newLink (nodeID : String)
  | linkFailure (nodeID : String)

/-- A list that grows while it is gone through is gone through to its new end. -/
def step (s : Startup) : Act → Option Startup
  | .rx_cb msg =>
      match s.rx with
      | .idle => some { s with rx := .called msg, received := s.received ++ [msg] }
      | _ => none
  | .rx =>
      match s.rx with
      | .called msg => some { s with rx := if s.started then .direct msg else .queueing msg }
      | .queueing msg => some { s with rx := .idle, msgQueue := s.msgQueue ++ [msg] }
      | .direct msg =>
          match process_msg s.app msg with
          | some app => some { s with app := app, rx := .idle, processed := s.processed ++ [msg] }
          | none => some { s with rx := .ended, processed := s.processed ++ [msg] }
      | _ => none
  | .run =>
      match s.run with
      | .starting => some { s with started := true, run := .draining 0 }
      | .draining i =>
          match s.msgQueue[i]? with
          | some msg => some { s with run := .holding i msg }
          | none => some { s with run := .control }
      | .holding i msg =>
          match process_msg s.app msg with
          | some app =>
              some { s with app := app, run := .draining (i + 1), processed := s.processed ++ [msg] }
          | none => some { s with run := .ended, processed := s.processed ++ [msg] }
      | _ => none
  | .newLink nodeID =>
      some { s with app := { s.app with
        vapManager := (s.app.vapManager.initialize_local_vap nodeID).1 } }
  | .linkFailure nodeID =>
      some { s with app := { s.app with vapManager := s.app.vapManager.remove_vap nodeID } }

/-- The loop over the queue has nothing left, or has ended. -/
def drained (s : Startup) : Bool :=
  match s.run with
  | .draining i => decide (s.msgQueue.length ≤ i)
  | .control => true
  | .ended => true
  | _ => false

/-- A message is appended only before the loop over the queue has ended, and processed
at once only when nothing is left in the queue; no queued message but the last one raises. -/
def meets (s : Startup) : Act → Bool
  | .rx =>
      match s.rx, s.run with
      | .queueing _, .control => false
      | .queueing _, .ended => false
      | .direct _, _ => drained s
      | _, _ => true
  | .run =>
      match s.run with
      | .holding i msg => (process_msg s.app msg).isSome || decide (s.msgQueue.length ≤ i + 1)
      | _ => true
  | _ => true

def Meets (s : Startup) (act : Act) : Prop := meets s act = true

instance (s : Startup) (act : Act) : Decidable (Meets s act) :=
  inferInstanceAs (Decidable (_ = true))

/-- `run` has not set `started` yet; what came before is in the queue. -/
structure Started (s : Startup) : Prop where
  started : s.started = false
  rx : s.rx = .idle
  run : s.run = .starting
  received : s.received = s.msgQueue
  processed : s.processed = []
  empty : s.app.infoAvBackhaulMap = ∅

/-- The queued messages that are still to be processed. -/
def pending (s : Startup) : List Msg :=
  match s.run with
  | .starting => s.msgQueue
  | .draining i => s.msgQueue.drop i
  | .holding i _ => s.msgQueue.drop i
  | .control => []
  | .ended => []

/-- The message that `rx_cb` has in its hands. -/
def inHand : Rx → List Msg
  | .called msg => [msg]
  | .queueing msg => [msg]
  | .direct msg => [msg]
  | .idle => []
  | .ended => []

/-- The capacities that a message announces for a host. -/
def announcement (hostname : String) : Msg → Option (ℚ × ℚ)
  | .av_backhaul_announcement sender dl ul => if sender = hostname then some (dl, ul) else none
  | _ => none

/-- The capacities in the last announcement of a host. -/
def lastAnnouncement (hostname : String) : List Msg → Option (ℚ × ℚ)
  | [] => none
  | msg :: rest => (lastAnnouncement hostname rest).or (announcement hostname msg)

/-- The index of the loop points into the queue, or behind its last message. -/
def InQueue (s : Startup) : Prop :=
  match s.run with
  | .draining i => i ≤ s.msgQueue.length
  | .holding i msg => s.msgQueue[i]? = some msg
  | _ => True

/-- What came is what was processed, what is left in the queue and what `rx_cb` has. -/
structure Ordered (s : Startup) : Prop where
  log : s.received = s.processed ++ pending s ++ inHand s.rx
  place : InQueue s
  announced : ∀ hostname, s.app.infoAvBackhaulMap.lookup hostname =
    lastAnnouncement hostname s.processed

variable {s s' : Startup} {app app' : App} {msg : Msg} {msgs : List Msg}

theorem Ordered.start (h : Started s) : Ordered s := by
  refine ⟨?_, ?_, ?_⟩
  · rw [h.received, h.processed, pending, h.run, h.rx]
    simp [inHand]
  · rw [InQueue, h.run]
    trivial
  · intro hostname
    rw [h.empty, h.processed]
    exact AList.lookup_empty _

theorem lastAnnouncement_append (hostname : String) (msgs : List Msg) (msg : Msg) :
    lastAnnouncement hostname (msgs ++ [msg]) =
      (announcement hostname msg).or (lastAnnouncement hostname msgs) := by
  induction msgs with
  | nil => simp [lastAnnouncement]
  | cons first rest ih => rw [List.cons_append, lastAnnouncement, ih, Option.or_assoc, lastAnnouncement]

/-- A message leaves in the map what it announces. -/
theorem lookup_process_msg (h : process_msg app msg = some app') (hostname : String) :
    app'.infoAvBackhaulMap.lookup hostname =
      (announcement hostname msg).or (app.infoAvBackhaulMap.lookup hostname) := by
  cases msg with
  | vap message ifaceName =>
    obtain rfl := Option.some.inj h
    rfl
  | av_backhaul_announcement sender dl ul =>
    obtain rfl := Option.some.inj h
    by_cases hsame : sender = hostname
    · subst hsame
      simp [announcement, AList.lookup_insert]
    · simp [announcement, hsame, AList.lookup_insert_ne (Ne.symm hsame)]
  | unsupported =>
    obtain rfl := Option.some.inj h
    rfl
  | malformed => cases h

/-- An exception comes before anything is written. -/
theorem announcement_of_raises (h : process_msg app msg = none) (hostname : String) :
    announcement hostname msg = none := by
  cases msg with
  | malformed => rfl
  | _ => cases h

/-- The map follows the processed messages. -/
theorem announced_append (hmap : ∀ hostname, app.infoAvBackhaulMap.lookup hostname =
      lastAnnouncement hostname msgs) (h : process_msg app msg = some app') (hostname : String) :
    app'.infoAvBackhaulMap.lookup hostname = lastAnnouncement hostname (msgs ++ [msg]) := by
  rw [lookup_process_msg h, lastAnnouncement_append, hmap]

theorem announced_raises (hmap : ∀ hostname, app.infoAvBackhaulMap.lookup hostname =
      lastAnnouncement hostname msgs) (h : process_msg app msg = none) (hostname : String) :
    app.infoAvBackhaulMap.lookup hostname = lastAnnouncement hostname (msgs ++ [msg]) := by
  rw [lastAnnouncement_append, announcement_of_raises h, Option.none_or, hmap]

theorem pending_of_drained (h : drained s = true) : pending s = [] := by
  unfold drained at h
  unfold pending
  split at h
  · rename_i i hrun
    rw [hrun]
    exact List.drop_eq_nil_of_le (of_decide_eq_true h)
  · rename_i hrun
    rw [hrun]
  · rename_i hrun
    rw [hrun]
  · cases h

/-- A message is called for, tested, appended or processed at once. -/
theorem Ordered.receives (h : Ordered s) (hmeets : Meets s .rx) (hstep : step s .rx = some s') :
    Ordered s' := by
  have hlog := h.log
  simp only [step] at hstep
  cases hrx : s.rx with
  | idle =>
    rw [hrx] at hstep
    cases hstep
  | ended =>
    rw [hrx] at hstep
    cases hstep
  | called msg =>
    rw [hrx] at hstep hlog
    obtain rfl := Option.some.inj hstep
    refine ⟨?_, h.place, h.announced⟩
    cases s.started <;> exact hlog
  | queueing msg =>
    rw [hrx] at hstep hlog
    obtain rfl := Option.some.inj hstep
    have hplace := h.place
    simp only [Meets, meets, hrx] at hmeets
    simp only [inHand] at hlog
    -- the message goes from the hands of the thread to the end of what is left
    cases hrun : s.run with
    | starting =>
      refine ⟨?_, ?_, h.announced⟩
      · simp only [pending, hrun] at hlog ⊢
        rw [hlog]
        simp [inHand]
      · simp [InQueue]
    | draining i =>
      simp only [InQueue, hrun] at hplace
      refine ⟨?_, ?_, h.announced⟩
      · simp only [pending, hrun] at hlog ⊢
        rw [hlog, List.drop_append_of_le_length hplace]
        simp [inHand]
      · simp only [InQueue, List.length_append]
        omega
    | holding i held =>
      simp only [InQueue, hrun] at hplace
      obtain ⟨hlt, -⟩ := List.getElem?_eq_some_iff.mp hplace
      refine ⟨?_, ?_, h.announced⟩
      · simp only [pending, hrun] at hlog ⊢
        rw [hlog, List.drop_append_of_le_length (by omega)]
        simp [inHand]
      · simp only [InQueue]
        rw [List.getElem?_append_left hlt]
        exact hplace
    | control =>
      rw [hrun] at hmeets
      cases hmeets
    | ended =>
      rw [hrun] at hmeets
      cases hmeets
  | direct msg =>
    rw [hrx] at hstep hlog
    have hdone : drained s = true := by
      simpa only [Meets, meets, hrx] using hmeets
    have hnext : s.received = s.processed ++ [msg] ++ pending s ++ [] := by
      rw [pending_of_drained hdone, List.append_nil] at hlog
      rw [pending_of_drained hdone, List.append_nil, List.append_nil]
      exact hlog
    cases hprocess : process_msg s.app msg with
    | some app =>
      simp only [hprocess] at hstep
      obtain rfl := Option.some.inj hstep
      exact ⟨hnext, h.place, announced_append h.announced hprocess⟩
    | none =>
      simp only [hprocess] at hstep
      obtain rfl := Option.some.inj hstep
      exact ⟨hnext, h.place, announced_raises h.announced hprocess⟩

/-- `started` is set, or the loop over the queue goes on. -/
theorem Ordered.drains (h : Ordered s) (hmeets : Meets s .run) (hstep : step s .run = some s') :
    Ordered s' := by
  have hlog := h.log
  have hplace := h.place
  simp only [step] at hstep
  cases hrun : s.run with
  | starting =>
    rw [hrun] at hstep
    obtain rfl := Option.some.inj hstep
    refine ⟨?_, Nat.zero_le _, h.announced⟩
    simpa only [pending, hrun, List.drop_zero] using hlog
  | draining i =>
    rw [hrun] at hstep
    simp only [InQueue, hrun] at hplace
    simp only [pending, hrun] at hlog
    cases hnext : s.msgQueue[i]? with
    | some msg =>
      simp only [hnext] at hstep
      obtain rfl := Option.some.inj hstep
      exact ⟨hlog, hnext, h.announced⟩
    | none =>
      simp only [hnext] at hstep
      obtain rfl := Option.some.inj hstep
      refine ⟨?_, trivial, h.announced⟩
      rw [List.getElem?_eq_none_iff] at hnext
      rw [List.drop_eq_nil_of_le hnext] at hlog
      exact hlog
  | holding i msg =>
    rw [hrun] at hstep
    simp only [InQueue, hrun] at hplace
    simp only [pending, hrun] at hlog
    obtain ⟨hlt, hget⟩ := List.getElem?_eq_some_iff.mp hplace
    cases hprocess : process_msg s.app msg with
    | some app =>
      simp only [hprocess] at hstep
      obtain rfl := Option.some.inj hstep
      refine ⟨?_, hlt, announced_append h.announced hprocess⟩
      rw [List.drop_eq_getElem_cons hlt, hget] at hlog
      simpa [pending] using hlog
    | none =>
      simp only [hprocess] at hstep
      obtain rfl := Option.some.inj hstep
      -- it was the last one
      have hlast : s.msgQueue.length ≤ i + 1 := by
        simpa [Meets, meets, hrun, hprocess] using hmeets
      refine ⟨?_, trivial, announced_raises h.announced hprocess⟩
      rw [List.drop_eq_getElem_cons hlt, hget, List.drop_eq_nil_of_le hlast] at hlog
      simpa [pending] using hlog
  | control =>
    rw [hrun] at hstep
    cases hstep
  | ended =>
    rw [hrun] at hstep
    cases hstep

theorem Ordered.step {act : Act} (h : Ordered s) (hmeets : Meets s act)
    (hstep : StartupQueue.step s act = some s') : Ordered s' := by
  cases act with
  | rx_cb msg =>
    simp only [StartupQueue.step] at hstep
    cases hrx : s.rx with
    | idle =>
      rw [hrx] at hstep
      obtain rfl := Option.some.inj hstep
      have hlog := h.log
      rw [hrx] at hlog
      refine ⟨?_, h.place, h.announced⟩
      change s.received ++ [msg] = s.processed ++ pending s ++ [msg]
      rw [hlog]
      simp [inHand]
    | _ =>
      rw [hrx] at hstep
      cases hstep
  | rx => exact h.receives hmeets hstep
  | run => exact h.drains hmeets hstep
  | newLink nodeID =>
    obtain rfl := Option.some.inj hstep
    exact ⟨h.log, h.place, h.announced⟩
  | linkFailure nodeID =>
    obtain rfl := Option.some.inj hstep
    exact ⟨h.log, h.place, h.announced⟩

/-- In every run whose steps meet the condition, the messages that were processed are the
first ones that came, each once and in their order. Behind the loop, or where its last
message has raised, they are all of them once `rx_cb` has returned, and the map has the last
announcement of each host. -/
theorem messages_processed_in_order (s₀ s : Startup) (hstart : Started s₀)
    (hreach : Reach step Meets s₀ s) :
    s.processed <+: s.received ∧
      ((s.run = .control ∨ s.run = .ended) → (s.rx = .idle ∨ s.rx = .ended) →
        s.processed = s.received ∧
        ∀ hostname, s.app.infoAvBackhaulMap.lookup hostname =
          lastAnnouncement hostname s.received) := by
  have hinv : Ordered s := hreach.inv (.start hstart) (fun _ _ _ h hok hstep => h.step hok hstep)
  refine ⟨⟨pending s ++ inHand s.rx, ?_⟩, ?_⟩
  · rw [hinv.log, List.append_assoc]
  · intro hrun hrx
    have hall : s.processed = s.received := by
      have hhand : inHand s.rx = [] := by
        rcases hrx with hrx | hrx <;> rw [hrx] <;> rfl
      have hnone : pending s = [] := by
        rcases hrun with hrun | hrun <;> rw [pending, hrun]
      rw [hinv.log, hnone, hhand, List.append_nil, List.append_nil]
    refine ⟨hall, ?_⟩
    intro hostname
    rw [← hall]
    exact hinv.announced hostname

def sampleStartup : Startup := { app := { vapManager := { hostname := "10.0.0.1" } } }

theorem sampleStartup_started : Started sampleStartup := ⟨rfl, rfl, rfl, rfl, rfl, rfl⟩

/-- A request that comes while `run` starts. -/
def sampleRequest : Msg :=
  .vap (.remote_vap_create_request
    { peer := "10.0.0.2", local_tunnel_id := 1000, remote_tunnel_id := none,
      local_ip_address := "10.0.0.2", remote_ip_address := "10.0.0.1", sport := 5001,
      dport := none, local_session_id := 1000, remote_session_id := none }) "l2tpeth0"

/-- The test of `started` fails, then `run` sets it and finds the queue empty, and then
the request is appended. -/
theorem request_behind_drain_lost :
    Started sampleStartup ∧
      (follow step (fun _ _ => True) sampleStartup
        [.rx_cb sampleRequest, .rx, .run, .run, .rx]).any (fun s =>
          (match s.run, s.rx with
            | .control, .idle => true
            | _, _ => false) && s.processed.isEmpty && s.received == [sampleRequest]) = true :=
  ⟨sampleStartup_started, by decide⟩

/-- A message is queued and processed by the loop, another one comes later. -/
def orderly : List Act :=
  [.rx_cb sampleRequest, .rx, .rx, .run, .run, .run, .run,
    .rx_cb (.av_backhaul_announcement "10.0.0.2" 30 30), .rx, .rx]

theorem messages_processed_in_order_sample :
    ∃ s, Reach step Meets sampleStartup s ∧
      s.received = [sampleRequest, .av_backhaul_announcement "10.0.0.2" 30 30] ∧
      s.processed = s.received ∧ s.app.infoAvBackhaulMap.lookup "10.0.0.2" = some (30, 30) := by
  have hrun : (follow step Meets sampleStartup orderly).any (fun s =>
      (match s.run, s.rx with
        | .control, .idle => true
        | _, _ => false) &&
        s.received == [sampleRequest, .av_backhaul_announcement "10.0.0.2" 30 30]) = true := by
    decide
  obtain ⟨s, hs, hany⟩ := (Option.any_eq_true _ _).mp hrun
  rw [Bool.and_eq_true, beq_iff_eq] at hany
  obtain ⟨hstages, hreceived⟩ := hany
  have hreach := reach_of_follow hs
  obtain ⟨hcontrol, hidle⟩ : s.run = .control ∧ s.rx = .idle := by
    split at hstages
    · rename_i hcontrol hidle
      exact ⟨hcontrol, hidle⟩
    · cases hstages
  obtain ⟨hall, hmap⟩ := (messages_processed_in_order sampleStartup s sampleStartup_started
    hreach).2 (Or.inl hcontrol) (Or.inl hidle)
  refine ⟨s, hreach, hreceived, hall, ?_⟩
  rw [hmap, hreceived]
  decide

end Nxwlan.StartupQueue
