import Nxwlan.SessionAgreement

/-!
Threads of one agent that call `sendToNeighbor` at the same time. They share one event
in the entry of the neighbor, which says that a key has come; a thread that gives
up sets it too. In every run in which no thread gives up while another one waits
for a key of the same neighbor, a message is sent only under a key that an answer
has brought.
-/
namespace Nxwlan.KeyWaits

open JsonFrames AgentState Forwarder Messaging Rescans ReceiveLoop SessionKeys StepRuns
open SessionAgreement (performing_cases)
open Base64 (Bytes)

/-- The agent, its receive thread, its application threads and the keys that answers
have brought so far. -/
structure Callers where
  agent : Agent
  receiver : Handling := .idle
  senders : ℕ → Sending := fun _ => .idle
  received : List (String × Bytes) := []

/-- An application calls `sendToNeighbor`, a thread in it goes on, an answer comes in, the
receive thread goes on with it, or another thread makes the agent `b`. -/
inductive Act where
  | sendToNeighbor (t : ℕ) (message : Bytes) (nodeID : String)
  | sender (t : ℕ) (now : ℤ)
  | nuk (world : World) (f : Frame) (text : PyText.Text)
  | handle (now : ℤ)
  | other (b : Agent)

/-- The key that an answer has just stored. -/
def storedKey (a : Agent) : Handling → List (String × Bytes)
  | .storeSendIv host _ =>
      ((a.globalNeighborList.lookup host).map (fun e => (host, e.unicastSendKey))).toList
  | _ => []

def step (p : Platform) (me : Identity) (s : Callers) : Act → Option Callers
  | .sendToNeighbor t message nodeID =>
      if SessionAgreement.Sending.free (s.senders t) then
        let next := SessionKeys.sendToNeighbor s.agent message nodeID
        some { s with agent := next.1, senders := Function.update s.senders t next.2 }
      else none
  | .sender t now =>
      let next := sendStep p me now s.agent (s.senders t)
      some { s with agent := next.1, senders := Function.update s.senders t next.2.1 }
  | .nuk world f text =>
      if SessionAgreement.Handling.ready s.receiver then
        let next := startNuk world s.agent f text
        some { s with
          agent := next.1
          receiver := next.2
          received := s.received ++ storedKey next.1 next.2 }
      else none
  | .handle now =>
      let next := handleStep p me now s.agent s.receiver
      some { s with agent := next.1, receiver := next.2.1 }
  | .other b => some { s with agent := b }

/-- What the waiting threads see of an entry: the key and the event. -/
def view (a : Agent) (n : String) : Option (Bytes × Bool) :=
  (a.globalNeighborList.lookup n).map (fun e => (e.unicastSendKey, e.waitingForUnicastKeys))

/-- The neighbor whose key a thread waits for. -/
def waitsFor : Sending → Option String
  | .test _ nodeID _ => some nodeID
  | .ask _ nodeID _ => some nodeID
  | .asked _ nodeID _ => some nodeID
  | _ => none

/-- The neighbor that a thread is about to give up. -/
def givesUp : Sending → Option String
  | .asked _ nodeID retries => if retries + 1 ≥ max_retries then some nodeID else none
  | _ => none

/-- No thread gives up while another one waits for a key of the same neighbor, unless a key
has come by then and the event is set. The rest is what the threads meet: answers bring keys
of 16 bytes, and other threads leave key and event of the entries alone, new entries having
none. -/
def Meets (s : Callers) : Act → Prop
  | .sender t _ => ∀ n, givesUp (s.senders t) = some n →
      (∃ k, view s.agent n = some (k, true)) ∨ ∀ u, u ≠ t → waitsFor (s.senders u) ≠ some n
  | .nuk world f text => ∀ host, (∃ nukMsg, (startNuk world s.agent f text).2 =
        .storeSendIv host nukMsg) →
      ∀ k ∈ view (startNuk world s.agent f text).1 host, k.1.length = 16
  | .other b => ∀ n, view b n = view s.agent n ∨
      view s.agent n = none ∧ view b n = some ([], false)
  | _ => True

/-- No call has been made yet and no key has come. -/
structure Started (s : Callers) : Prop where
  receiver : s.receiver = .idle
  senders : ∀ t, s.senders t = .idle
  blank : ∀ n k, view s.agent n = some k → k = ([], false)

variable {p : Platform} {me : Identity} {s s' : Callers} {a b : Agent} {e : Neighbor}
  {n : String} {k : Bytes} {now : ℤ}

theorem view_some (h : a.globalNeighborList.lookup n = some e) :
    view a n = some (e.unicastSendKey, e.waitingForUnicastKeys) := by
  rw [view, h]
  rfl

theorem view_of_same (h : b.globalNeighborList = a.globalNeighborList) : view b = view a := by
  funext n
  rw [view, view, h]

theorem view_putNeighbor (a : Agent) (n : String) (e : Neighbor) :
    view (Agent.putNeighbor a n e) =
      Function.update (view a) n (some (e.unicastSendKey, e.waitingForUnicastKeys)) := by
  funext m
  by_cases hm : m = n
  · subst hm
    rw [Function.update_self]
    exact view_some (AList.lookup_insert _)
  · rw [Function.update_of_ne hm, view, view, Agent.putNeighbor, AList.lookup_insert_ne hm]

/-- What holds of the entries and the threads in every state of a run. -/
structure Guarded (v : String → Option (Bytes × Bool)) (senders : ℕ → Sending)
    (receiver : Handling) (received : List (String × Bytes)) : Prop where
  keys : ∀ n k flag, v n = some (k, flag) → k = [] ∨ k.length = 16 ∧ (n, k) ∈ received
  event : ∀ n k, v n = some (k, true) → k ≠ [] ∨ ∀ t, waitsFor (senders t) ≠ some n
  sending : ∀ t message n, senders t = .send message n → ∃ k flag, v n = some (k, flag) ∧ k ≠ []
  known : ∀ t n, waitsFor (senders t) = some n → (v n).isSome = true
  storing : ∀ host nukMsg, receiver = .storeSendIv host nukMsg →
    ∃ k flag, v host = some (k, flag) ∧ k ≠ []
  resting : receiver = .idle ∨ receiver = .ended ∨ ∃ host nukMsg, receiver = .storeSendIv host nukMsg

theorem Guarded.start (h : Started s) :
    Guarded (view s.agent) s.senders s.receiver s.received := by
  refine ⟨?_, ?_, ?_, ?_, ?_, Or.inl h.receiver⟩
  · intro n k flag hv
    exact Or.inl (Prod.mk.inj (h.blank n _ hv)).1
  · intro n k hv
    exact absurd (Prod.mk.inj (h.blank n _ hv)).2 (by decide)
  · intro t message n ht
    rw [h.senders] at ht
    cases ht
  · intro t n ht
    rw [h.senders] at ht
    cases ht
  · intro host nukMsg hr
    rw [h.receiver] at hr
    cases hr

section Updates

variable {v : String → Option (Bytes × Bool)} {senders : ℕ → Sending} {receiver : Handling}
  {received : List (String × Bytes)} {flag : Bool} {t : ℕ} {stage : Sending}

/-- A write to an entry that does not take a key away. -/
theorem Guarded.write (h : Guarded v senders receiver received) (hv : v n = some (k, flag))
    (k' : Bytes) (flag' : Bool) (hkept : k ≠ [] → k' ≠ [])
    (hkey : k' = [] ∨ k'.length = 16 ∧ (n, k') ∈ received)
    (hevent : flag' = true → k' ≠ [] ∨ ∀ t, waitsFor (senders t) ≠ some n) :
    Guarded (Function.update v n (some (k', flag'))) senders receiver received := by
  have hheld : ∀ m, (∃ k flag, v m = some (k, flag) ∧ k ≠ []) →
      ∃ k flag, Function.update v n (some (k', flag')) m = some (k, flag) ∧ k ≠ [] := by
    rintro m ⟨k₁, flag₁, hm, hne⟩
    by_cases hmn : m = n
    · subst hmn
      rw [hv] at hm
      obtain ⟨rfl, -⟩ := Prod.mk.inj (Option.some.inj hm)
      exact ⟨k', flag', Function.update_self .., hkept hne⟩
    · exact ⟨k₁, flag₁, by rw [Function.update_of_ne hmn]; exact hm, hne⟩
  refine ⟨?_, ?_, ?_, ?_, ?_, h.resting⟩
  · intro m k₁ flag₁ hm
    by_cases hmn : m = n
    · subst hmn
      rw [Function.update_self] at hm
      obtain ⟨rfl, -⟩ := Prod.mk.inj (Option.some.inj hm)
      exact hkey
    · rw [Function.update_of_ne hmn] at hm
      exact h.keys m k₁ flag₁ hm
  · intro m k₁ hm
    by_cases hmn : m = n
    · subst hmn
      rw [Function.update_self] at hm
      obtain ⟨rfl, hflag⟩ := Prod.mk.inj (Option.some.inj hm)
      exact hevent hflag
    · rw [Function.update_of_ne hmn] at hm
      exact h.event m k₁ hm
  · exact fun t message m ht => hheld m (h.sending t message m ht)
  · intro t m ht
    by_cases hmn : m = n
    · rw [hmn, Function.update_self]
      rfl
    · rw [Function.update_of_ne hmn]
      exact h.known t m ht
  · exact fun host nukMsg hr => hheld host (h.storing host nukMsg hr)

/-- A thread goes on. It may begin to wait only where the event is not set, and to send
only where there is a key. -/
theorem Guarded.goes (h : Guarded v senders receiver received)
    (hwaits : ∀ n, waitsFor stage = some n → (v n).isSome = true ∧
      (waitsFor (senders t) = some n ∨ ∀ k, v n ≠ some (k, true)))
    (hsends : ∀ message n, stage = .send message n → ∃ k flag, v n = some (k, flag) ∧ k ≠ []) :
    Guarded v (Function.update senders t stage) receiver received := by
  refine ⟨h.keys, ?_, ?_, ?_, h.storing, h.resting⟩
  · intro n k hv
    rcases h.event n k hv with hne | hnone
    · exact Or.inl hne
    · refine Or.inr ?_
      intro u
      by_cases hu : u = t
      · subst hu
        rw [Function.update_self]
        intro hstage
        rcases (hwaits n hstage).2 with hbefore | hclear
        · exact hnone u hbefore
        · exact hclear k hv
      · rw [Function.update_of_ne hu]
        exact hnone u
  · intro u message n hu
    by_cases hut : u = t
    · rw [hut, Function.update_self] at hu
      exact hsends message n hu
    · rw [Function.update_of_ne hut] at hu
      exact h.sending u message n hu
  · intro u n hu
    by_cases hut : u = t
    · rw [hut, Function.update_self] at hu
      exact (hwaits n hu).1
    · rw [Function.update_of_ne hut] at hu
      exact h.known u n hu

/-- A thread that neither waits nor sends any more. -/
theorem Guarded.leaves (h : Guarded v senders receiver received) (t : ℕ) (stage : Sending)
    (hfree : SessionAgreement.Sending.free stage = true) :
    Guarded v (Function.update senders t stage) receiver received := by
  refine h.goes ?_ ?_
  · intro n hn
    cases stage with
    | test message nodeID retries => cases hfree
    | ask message nodeID retries => cases hfree
    | asked message nodeID retries => cases hfree
    | _ => cases hn
  · rintro message n rfl
    cases hfree

/-- A thread that goes on waiting for the same neighbor. -/
theorem Guarded.waits (h : Guarded v senders receiver received)
    (hbefore : waitsFor (senders t) = some n) (hafter : waitsFor stage = some n) :
    Guarded v (Function.update senders t stage) receiver received := by
  refine h.goes ?_ ?_
  · intro m hm
    rw [hafter] at hm
    obtain rfl := Option.some.inj hm
    exact ⟨h.known t n hbefore, Or.inl hbefore⟩
  · rintro message m rfl
    cases hafter

/-- A thread that gives up writes the entry it waited for; there is a key, or no other one waits
there. -/
theorem Guarded.gives_up (h : Guarded v senders receiver received) (hv : v n = some (k, flag))
    (hothers : k ≠ [] ∨ ∀ u, u ≠ t → waitsFor (senders u) ≠ some n) (flag' : Bool) :
    Guarded (Function.update v n (some (k, flag')))
      (Function.update senders t (.returned .maxRetries)) receiver received := by
  have hleft : Guarded v (Function.update senders t (.returned .maxRetries)) receiver received :=
    h.leaves t _ rfl
  refine hleft.write hv k flag' id (h.keys n _ _ hv) ?_
  intro _
  refine hothers.imp_right (fun hothers => ?_)
  intro u
  by_cases hu : u = t
  · rw [hu, Function.update_self]
    simp [waitsFor]
  · rw [Function.update_of_ne hu]
    exact hothers u hu

end Updates

/-- The call clears the event and begins to wait, or finds a key. -/
theorem Guarded.calls {t : ℕ} {message : Bytes}
    (h : Guarded (view s.agent) s.senders s.receiver s.received) :
    Guarded (view (SessionKeys.sendToNeighbor s.agent message n).1)
      (Function.update s.senders t (SessionKeys.sendToNeighbor s.agent message n).2) s.receiver
      s.received := by
  unfold SessionKeys.sendToNeighbor
  cases hlook : s.agent.globalNeighborList.lookup n with
  | none => exact h.leaves t _ rfl
  | some e =>
    dsimp only
    split
    · rename_i hlong
      refine h.goes (by simp [waitsFor]) ?_
      intro message' n' hstage
      obtain ⟨-, rfl⟩ := Sending.send.inj hstage
      exact ⟨_, _, view_some hlook, List.ne_nil_of_length_pos hlong⟩
    · rw [view_putNeighbor]
      have hwritten := h.write (view_some hlook) e.unicastSendKey false id
        (h.keys n _ _ (view_some hlook)) (by simp)
      refine hwritten.goes ?_ (by simp)
      intro m hm
      obtain rfl := Option.some.inj hm
      rw [Function.update_self]
      exact ⟨rfl, Or.inr (by simp)⟩

/-- The next step of a thread in `sendToNeighbor`. -/
theorem Guarded.sends (p : Platform) (me : Identity) (now : ℤ) {t : ℕ}
    (h : Guarded (view s.agent) s.senders s.receiver s.received)
    (hmeets : ∀ n, givesUp (s.senders t) = some n →
      (∃ k, view s.agent n = some (k, true)) ∨ ∀ u, u ≠ t → waitsFor (s.senders u) ≠ some n) :
    Guarded (view (sendStep p me now s.agent (s.senders t)).1)
      (Function.update s.senders t (sendStep p me now s.agent (s.senders t)).2.1) s.receiver
      s.received := by
  cases hstage : s.senders t with
  | idle => exact h.leaves t .idle rfl
  | returned result => exact h.leaves t (.returned result) rfl
  | raised => exact h.leaves t .raised rfl
  | test message n retries =>
    have hwait : waitsFor (s.senders t) = some n := by rw [hstage]; rfl
    simp only [sendStep]
    cases hlook : s.agent.globalNeighborList.lookup n with
    | none => exact h.leaves t .raised rfl
    | some e =>
      dsimp only
      split
      · rename_i hset
        refine h.goes (by simp [waitsFor]) ?_
        intro message' n' hsend
        obtain ⟨-, rfl⟩ := Sending.send.inj hsend
        have hview := view_some hlook
        rw [hset] at hview
        -- the thread itself waits, so that the event speaks of a key
        have hne := (h.event n _ hview).resolve_right (fun hnone => hnone t hwait)
        exact ⟨_, _, hview, hne⟩
      · exact h.waits hwait rfl
  | ask message n retries =>
    have hwait : waitsFor (s.senders t) = some n := by rw [hstage]; rfl
    simp only [sendStep]
    obtain ⟨b, hlist, -, hrun⟩ := performing_cases p me now s.agent (rukCall n)
      (Sending.asked message n retries) .raised rfl
    have hasked : Guarded (view b) (Function.update s.senders t (.asked message n retries))
        s.receiver s.received := by
      rw [view_of_same hlist]
      exact h.waits hwait rfl
    rcases hrun with hrun | hrun | hrun
    · rw [hrun, view_of_same hlist]
      exact h.leaves t .raised rfl
    · rw [hrun]
      exact hasked
    · rw [hrun]
      exact hasked
  | asked message n retries =>
    have hwait : waitsFor (s.senders t) = some n := by rw [hstage]; rfl
    simp only [sendStep]
    split
    · rename_i hlast
      have hothers := hmeets n (by rw [hstage, givesUp, if_pos hlast])
      cases hlook : s.agent.globalNeighborList.lookup n with
      | none => exact h.leaves t .raised rfl
      | some e =>
        rw [view_putNeighbor]
        refine h.gives_up (view_some hlook) (hothers.imp_left ?_) _
        rintro ⟨k, hset⟩
        obtain ⟨rfl, -⟩ := Prod.mk.inj (Option.some.inj (hset.symm.trans (view_some hlook)))
        exact (h.event n _ hset).resolve_right (fun hnone => hnone t hwait)
    · exact h.waits hwait rfl
  | send message n =>
    simp only [sendStep]
    obtain ⟨b, hlist, -, hrun⟩ := performing_cases p me now s.agent (.sendToNeighbor message n)
      (Sending.returned .success) .raised rfl
    rcases hrun with hrun | hrun | hrun
    all_goals
      rw [hrun, view_of_same hlist]
      exact h.leaves t _ rfl

/-- An answer comes in and its key is stored. -/
theorem Guarded.answered {world : World} {f : Frame} {text : PyText.Text}
    (h : Guarded (view s.agent) s.senders s.receiver s.received)
    (hmeets : ∀ host, (∃ nukMsg, (startNuk world s.agent f text).2 = .storeSendIv host nukMsg) →
      ∀ k ∈ view (startNuk world s.agent f text).1 host, k.1.length = 16) :
    Guarded (view (startNuk world s.agent f text).1) s.senders (startNuk world s.agent f text).2
      (s.received ++ storedKey (startNuk world s.agent f text).1 (startNuk world s.agent f text).2) := by
  have hrests : ∀ stage, stage = .idle ∨ stage = .ended →
      Guarded (view s.agent) s.senders stage (s.received ++ storedKey s.agent stage) := by
    intro stage hstage
    have hnone : storedKey s.agent stage = [] := by
      rcases hstage with rfl | rfl <;> rfl
    rw [hnone, List.append_nil]
    refine ⟨h.keys, h.event, h.sending, h.known, ?_, ?_⟩
    · rintro host nukMsg rfl
      rcases hstage with hno | hno <;> cases hno
    · rcases hstage with rfl | rfl
      · exact Or.inl rfl
      · exact Or.inr (Or.inl rfl)
  unfold startNuk at hmeets ⊢
  cases hentry : entryAt f.host s.agent.globalNeighborList with
  | error err => exact hrests _ (Or.inr rfl)
  | ok found =>
    cases found with
    | none => exact hrests _ (Or.inl rfl)
    | some pair =>
      obtain ⟨host, e⟩ := pair
      rw [hentry] at hmeets
      dsimp only at hmeets ⊢
      cases hloads : world.loads text with
      | none => exact hrests _ (Or.inr rfl)
      | some nukMsg =>
        rw [hloads] at hmeets
        dsimp only at hmeets ⊢
        cases hfield : nukField "key" nukMsg with
        | error err => exact hrests _ (Or.inr rfl)
        | ok k =>
          rw [hfield] at hmeets
          dsimp only at hmeets ⊢
          have hlook := entryAt_some hentry
          have hput := lookup_putNeighbor host s.agent { e with unicastSendKey := k }
          have hlen : k.length = 16 := hmeets host ⟨nukMsg, rfl⟩ _ (view_some hput)
          have hne : k ≠ [] := List.ne_nil_of_length_pos (by omega)
          have hstored : storedKey (Agent.putNeighbor s.agent host { e with unicastSendKey := k })
              (.storeSendIv host nukMsg) = [(host, k)] := by
            rw [storedKey, hput]
            rfl
          rw [hstored, view_putNeighbor]
          have hlogged : Guarded (view s.agent) s.senders s.receiver
              (s.received ++ [(host, k)]) := by
            refine ⟨?_, h.event, h.sending, h.known, h.storing, h.resting⟩
            intro n k' flag hv
            exact (h.keys n k' flag hv).imp_right
              (fun hk => ⟨hk.1, List.mem_append_left _ hk.2⟩)
          have hwritten := hlogged.write (view_some hlook) k e.waitingForUnicastKeys (fun _ => hne)
            (Or.inr ⟨hlen, List.mem_append_right _ (List.mem_singleton.mpr rfl)⟩)
            (fun _ => Or.inl hne)
          refine ⟨hwritten.keys, hwritten.event, hwritten.sending, hwritten.known, ?_,
            Or.inr (Or.inr ⟨host, nukMsg, rfl⟩)⟩
          intro host' nukMsg' hstage
          obtain ⟨rfl, -⟩ := Handling.storeSendIv.inj hstage
          exact ⟨k, _, Function.update_self .., hne⟩

/-- The vector of the answer is stored and the event set. -/
theorem Guarded.handles (p : Platform) (me : Identity) (now : ℤ)
    (h : Guarded (view s.agent) s.senders s.receiver s.received) :
    Guarded (view (handleStep p me now s.agent s.receiver).1) s.senders
      (handleStep p me now s.agent s.receiver).2.1 s.received := by
  have hdies : Guarded (view s.agent) s.senders .ended s.received :=
    ⟨h.keys, h.event, h.sending, h.known, by simp, Or.inr (Or.inl rfl)⟩
  rcases h.resting with hidle | hended | ⟨host, nukMsg, hstage⟩
  · rw [hidle] at h ⊢
    exact h
  · rw [hended]
    exact hdies
  · rw [hstage, handleStep]
    cases hfield : nukField "iv" nukMsg with
    | error err => exact hdies
    | ok iv =>
      cases hlook : s.agent.globalNeighborList.lookup host with
      | none => exact hdies
      | some e =>
        dsimp only
        obtain ⟨k, flag, hv, hne⟩ := h.storing host nukMsg hstage
        have hview := view_some hlook
        rw [hv] at hview
        obtain ⟨rfl, -⟩ := Prod.mk.inj (Option.some.inj hview)
        rw [view_putNeighbor]
        have hwritten := h.write hv e.unicastSendKey true id
          (h.keys host _ _ hv) (fun _ => Or.inl hne)
        exact ⟨hwritten.keys, hwritten.event, hwritten.sending, hwritten.known, by simp, Or.inl rfl⟩

/-- Other threads leave keys and events alone. -/
theorem Guarded.others (h : Guarded (view s.agent) s.senders s.receiver s.received)
    (hmeets : ∀ n, view b n = view s.agent n ∨
      view s.agent n = none ∧ view b n = some ([], false)) :
    Guarded (view b) s.senders s.receiver s.received := by
  have hheld : ∀ n, (∃ k flag, view s.agent n = some (k, flag) ∧ k ≠ []) →
      ∃ k flag, view b n = some (k, flag) ∧ k ≠ [] := by
    rintro n ⟨k, flag, hv, hne⟩
    rcases hmeets n with hsame | ⟨hnone, -⟩
    · exact ⟨k, flag, hsame.trans hv, hne⟩
    · rw [hnone] at hv
      cases hv
  refine ⟨?_, ?_, fun t message n ht => hheld n (h.sending t message n ht), ?_,
    fun host nukMsg hr => hheld host (h.storing host nukMsg hr), h.resting⟩
  · intro n k flag hv
    rcases hmeets n with hsame | ⟨-, hnew⟩
    · exact h.keys n k flag (hsame ▸ hv)
    · rw [hnew] at hv
      exact Or.inl (Prod.mk.inj (Option.some.inj hv)).1.symm
  · intro n k hv
    rcases hmeets n with hsame | ⟨-, hnew⟩
    · exact h.event n k (hsame ▸ hv)
    · rw [hnew] at hv
      cases hv
  · intro t n ht
    have hknown := h.known t n ht
    rcases hmeets n with hsame | ⟨hnone, -⟩
    · rw [hsame]
      exact hknown
    · rw [hnone] at hknown
      cases hknown

theorem Guarded.step {act : Act} (h : Guarded (view s.agent) s.senders s.receiver s.received)
    (hmeets : Meets s act) (hstep : step p me s act = some s') :
    Guarded (view s'.agent) s'.senders s'.receiver s'.received := by
  cases act with
  | sendToNeighbor t message n =>
    simp only [KeyWaits.step] at hstep
    split at hstep
    · obtain rfl := Option.some.inj hstep
      exact h.calls
    · cases hstep
  | sender t now =>
    obtain rfl := Option.some.inj hstep
    exact h.sends p me now hmeets
  | nuk world f text =>
    simp only [KeyWaits.step] at hstep
    split at hstep
    · obtain rfl := Option.some.inj hstep
      exact h.answered hmeets
    · cases hstep
  | handle now =>
    obtain rfl := Option.some.inj hstep
    exact h.handles p me now
  | other b =>
    obtain rfl := Option.some.inj hstep
    exact h.others hmeets

/-- Whether a thread goes on to the sending depends on the event that it waits for. -/
theorem sendStep_send_iff {stage : Sending} {message : Bytes} :
    (sendStep p me now a stage).2.1 = .send message n ↔
      ∃ retries k, stage = .test message n retries ∧ view a n = some (k, true) := by
  constructor
  · intro h
    cases stage with
    | test message' n' retries =>
      simp only [sendStep] at h
      cases hlook : a.globalNeighborList.lookup n' with
      | none =>
        rw [hlook] at h
        cases h
      | some e =>
        rw [hlook] at h
        dsimp only at h
        split at h
        · rename_i hset
          obtain ⟨rfl, rfl⟩ := Sending.send.inj h
          exact ⟨retries, _, rfl, (view_some hlook).trans (by rw [hset])⟩
        · cases h
    | ask message' n' retries =>
      obtain ⟨b, -, -, hrun | hrun | hrun⟩ := performing_cases p me now a (rukCall n')
        (Sending.asked message' n' retries) .raised rfl
      all_goals
        rw [sendStep, hrun] at h
        cases h
    | asked message' n' retries =>
      simp only [sendStep] at h
      split at h
      · cases hlook : a.globalNeighborList.lookup n' with
        | none =>
          rw [hlook] at h
          cases h
        | some e =>
          rw [hlook] at h
          cases h
      · cases h
    | send message' n' =>
      obtain ⟨b, -, -, hrun | hrun | hrun⟩ := performing_cases p me now a
        (.sendToNeighbor message' n') (Sending.returned .success) .raised rfl
      all_goals
        rw [sendStep, hrun] at h
        cases h
    | _ => cases h
  · rintro ⟨retries, k, rfl, hview⟩
    obtain ⟨e, hlook, hpair⟩ := Option.map_eq_some_iff.mp hview
    simp only [sendStep, hlook, (Prod.mk.inj hpair).2, if_true]

/-- The last retry of a thread: it returns with the error text and sets the event. -/
theorem sendStep_givesUp {stage : Sending} (hgives : givesUp stage = some n)
    (hlook : a.globalNeighborList.lookup n = some e) :
    sendStep p me now a stage =
      (Agent.putNeighbor a n { e with waitingForUnicastKeys := true }, .returned .maxRetries,
        none) := by
  cases stage with
  | asked message n' retries =>
    rw [givesUp] at hgives
    split at hgives
    · rename_i hlast
      obtain rfl := Option.some.inj hgives
      simp only [sendStep, if_pos hlast, hlook]
    · cases hgives
  | _ => cases hgives

theorem waitsFor_of_givesUp {stage : Sending} (h : givesUp stage = some n) :
    waitsFor stage = some n := by
  cases stage with
  | asked message n' retries =>
    rw [givesUp] at h
    split at h
    · exact h
    · cases h
  | _ => cases h

/-- In every run whose steps meet the condition, a message is sent to a neighbor only
while the entry has a key of 16 bytes that an answer has brought. A thread that gives
up returns with the error text, and no other thread goes on because of it. -/
theorem keys_before_sends (p : Platform) (me : Identity) (s₀ s : Callers) (hstart : Started s₀)
    (hreach : Reach (step p me) Meets s₀ s) :
    (∀ t message n, s.senders t = .send message n →
      ∃ e, s.agent.globalNeighborList.lookup n = some e ∧ e.unicastSendKey.length = 16 ∧
        (n, e.unicastSendKey) ∈ s.received) ∧
    ∀ t now n, givesUp (s.senders t) = some n → Meets s (.sender t now) →
      ∃ s', step p me s (.sender t now) = some s' ∧ s'.senders t = .returned .maxRetries ∧
        ∀ u, u ≠ t → s'.senders u = s.senders u ∧ ∀ now' message m,
          (sendStep p me now' s'.agent (s'.senders u)).2.1 = .send message m →
            (sendStep p me now' s.agent (s.senders u)).2.1 = .send message m := by
  have hinv : Guarded (view s.agent) s.senders s.receiver s.received :=
    hreach.inv (I := fun s => Guarded (view s.agent) s.senders s.receiver s.received)
      (.start hstart) (fun _ _ _ h hok hstep => h.step hok hstep)
  constructor
  · intro t message n ht
    obtain ⟨k, flag, hv, hne⟩ := hinv.sending t message n ht
    obtain ⟨hlen, hmem⟩ := (hinv.keys n k flag hv).resolve_left hne
    obtain ⟨e, he, hpair⟩ := Option.map_eq_some_iff.mp hv
    obtain ⟨rfl, -⟩ := Prod.mk.inj hpair
    exact ⟨e, he, hlen, hmem⟩
  · intro t now n hgives hmeets
    obtain ⟨pair, hview⟩ := Option.isSome_iff_exists.mp
      (hinv.known t n (waitsFor_of_givesUp hgives))
    obtain ⟨e, he, -⟩ := Option.map_eq_some_iff.mp hview
    refine ⟨_, rfl, ?_, ?_⟩
    · rw [sendStep_givesUp hgives he]
      exact Function.update_self ..
    · intro u hu
      have hsame : Function.update s.senders t (sendStep p me now s.agent (s.senders t)).2.1 u =
          s.senders u := Function.update_of_ne hu ..
      refine ⟨hsame, ?_⟩
      intro now' message m hsends
      dsimp only at hsends
      rw [hsame] at hsends
      obtain ⟨retries, k, hstage, hset⟩ := sendStep_send_iff.mp hsends
      rw [sendStep_givesUp hgives he, view_putNeighbor] at hset
      refine sendStep_send_iff.mpr ?_
      by_cases hm : m = n
      · subst hm
        -- another thread waits there, so that the event is set already
        obtain ⟨k', hset'⟩ := (hmeets m hgives).resolve_right
          (fun hnone => hnone u hu (by rw [hstage]; rfl))
        exact ⟨retries, k', hstage, hset'⟩
      · rw [Function.update_of_ne hm] at hset
        exact ⟨retries, k, hstage, hset⟩

section Samples

open PublishedFrames (sampleAgent sampleIdentity)
open SessionAgreement (pairWorld)

/-- A neighbor without session keys and two idle application threads. -/
def sampleCallers : Callers := { agent := sampleAgent }

theorem sampleCallers_started : Started sampleCallers where
  receiver := rfl
  senders _ := rfl
  blank n k h := by
    obtain ⟨e, he, rfl⟩ := Option.map_eq_some_iff.mp h
    by_cases hn : n = "10.0.0.2"
    · subst hn
      obtain rfl := Option.some.inj he
      rfl
    · have hnone : sampleAgent.globalNeighborList.lookup n = none := by
        rw [show sampleAgent.globalNeighborList = AList.insert "10.0.0.2" _ ∅ from rfl,
          AList.lookup_insert_ne hn, AList.lookup_empty]
      rw [show sampleCallers.agent = sampleAgent from rfl, hnone] at he
      cases he

/-- Both threads ask for a key; the first one gives up after its fifth request, and the
second one comes to its test. -/
def overlap : List Act :=
  [.sendToNeighbor 0 [104] "10.0.0.2", .sendToNeighbor 1 [105] "10.0.0.2"] ++
    List.replicate 15 (.sender 0 0) ++ [.sender 1 0]

/-- The second thread sends without a key. -/
theorem gives_up_wakes_other :
    Started sampleCallers ∧
      (follow (step listPlatform sampleIdentity) (fun _ _ => True) sampleCallers overlap).map
        (fun s => (s.senders 0, s.senders 1, view s.agent "10.0.0.2")) =
      some (.returned .maxRetries, .send [105] "10.0.0.2", some ([], true)) :=
  ⟨sampleCallers_started, by decide⟩

/-- The answer of the neighbor, as the receive loop hands it on. -/
def answerFrame : Frame :=
  { PublishedFrames.sampleFrame with
    msg_type := some (.str "ctrl"), sub_type := some (.str "nuk") }

def answerText : PyText.Text := unicodeText (nukMessage (List.replicate 16 5) (List.replicate 16 6))

def asking : Callers :=
  { sampleCallers with
    agent := (SessionKeys.sendToNeighbor sampleAgent [104] "10.0.0.2").1
    senders := Function.update sampleCallers.senders 0
      (SessionKeys.sendToNeighbor sampleAgent [104] "10.0.0.2").2 }

def answered : Callers :=
  { asking with
    agent := (startNuk pairWorld asking.agent answerFrame answerText).1
    receiver := (startNuk pairWorld asking.agent answerFrame answerText).2
    received := [("10.0.0.2", List.replicate 16 5)] }

def released : Callers :=
  { answered with
    agent := (handleStep listPlatform sampleIdentity 0 answered.agent answered.receiver).1
    receiver := (handleStep listPlatform sampleIdentity 0 answered.agent answered.receiver).2.1 }

def sending : Callers :=
  { released with
    agent := (sendStep listPlatform sampleIdentity 0 released.agent (released.senders 0)).1
    senders := Function.update released.senders 0
      (sendStep listPlatform sampleIdentity 0 released.agent (released.senders 0)).2.1 }

theorem sending_reached :
    Reach (step listPlatform sampleIdentity) Meets sampleCallers sending := by
  have hasking : Reach (step listPlatform sampleIdentity) Meets sampleCallers asking :=
    .next (x := .sendToNeighbor 0 [104] "10.0.0.2") .start trivial rfl
  have hanswered : Reach (step listPlatform sampleIdentity) Meets sampleCallers answered := by
    refine .next (x := .nuk pairWorld answerFrame answerText) hasking ?_ rfl
    rintro host ⟨nukMsg, hstage⟩ k hk
    have hhost : host = "10.0.0.2" := (Handling.storeSendIv.inj hstage).1.symm
    subst hhost
    obtain rfl := Option.some.inj hk
    decide
  have hreleased : Reach (step listPlatform sampleIdentity) Meets sampleCallers released :=
    .next (x := .handle 0) hanswered trivial rfl
  refine .next (x := .sender 0 0) hreleased ?_ rfl
  intro n hgives
  cases hgives

theorem keys_before_sends_sample :
    sending.senders 0 = .send [104] "10.0.0.2" ∧
      ∃ e, sending.agent.globalNeighborList.lookup "10.0.0.2" = some e ∧
        e.unicastSendKey.length = 16 ∧ ("10.0.0.2", e.unicastSendKey) ∈ sending.received :=
  ⟨by decide, (keys_before_sends listPlatform sampleIdentity sampleCallers sending
    sampleCallers_started sending_reached).1 0 [104] "10.0.0.2" (by decide)⟩

end Samples

end Nxwlan.KeyWaits
