import Nxwlan.Vaps

/-!
The tunnel setups of several access points that run `VapManager`. Links come and
go, and a message arrives at any time after it was sent. An answer carries the
ids that it answers to, but nobody looks at them: the two ends of a tunnel
agree in all states of a run exactly when each answer that completes a local
VAP answers the request of this very VAP.
-/
namespace Nxwlan.VapTunnels

open PyText P4Switch Vaps

structure Net where
  hosts : String → VapManager
  flight : List (String × Message) := []

/-- One event: a link notification of the framework at a host, or the arrival of the
message at a position among those on their way. -/
inductive Action where
  | newLink (host neighbor : String)
  | linkFailure (host neighbor : String)
  | deliver (i : ℕ) (ifaceName : String)

def Net.update (net : Net) (host : String) (m : VapManager) (flight : List (String × Message)) :
    Net :=
  { hosts := Function.update net.hosts host m, flight := flight }

def step (net : Net) : Action → Net
  | .newLink host neighbor =>
      let r := (net.hosts host).initialize_local_vap neighbor
      net.update host r.1 (net.flight ++ r.2)
  | .linkFailure host neighbor =>
      net.update host ((net.hosts host).remove_vap neighbor) net.flight
  | .deliver i ifaceName =>
      match net.flight[i]? with
      | none => net
      | some (host, msg) =>
          let r := (net.hosts host).process_msg msg ifaceName
          net.update host r.1 (net.flight.eraseIdx i ++ r.2)

def initial : Net where
  hosts host := { hostname := host }

def run (actions : List Action) : Net := actions.foldl step initial

/-- An id or port kept as a text, as a number. -/
def asNumber (text : Option Text) : Option ℤ := text.bind readInt

/-- The remote part of an entity holds these ids. -/
structure Points (tunnel session port : Option Text) (vap : Vap) : Prop where
  tunnel : asNumber tunnel = some vap.local_tunnel_id
  session : asNumber session = some vap.local_session_id
  port : asNumber port = some vap.sport

/-- The two ends of a tunnel match. -/
def Match (v r : Vap) : Prop :=
  Points v.remote_tunnel_id v.remote_session_id v.dport r ∧
    Points r.remote_tunnel_id r.remote_session_id r.dport v

/-- Whenever the local VAP of `a` for `b` has been completed and `b` has a remote
VAP for `a`, the two match. -/
def Agreed (net : Net) (a b : String) : Prop :=
  ∀ v r, (net.hosts a).get_local_vap_by_neighbor b = some v → v.remote_tunnel_id.isSome = true →
    (net.hosts b).get_remote_vap_by_neighbor a = some r → Match v r

/-- An arriving answer for which there is a local VAP repeats the ids of this VAP. -/
def Answers (net : Net) : Action → Prop
  | .deliver i _ =>
      ∀ host config, net.flight[i]? = some (host, .remote_vap_create_completed config) →
        ∀ v, (net.hosts host).get_local_vap_by_neighbor config.peer = some v →
          Points config.remote_tunnel_id config.remote_session_id config.dport v
  | _ => True

/-- What an answer says about the remote VAP that it was sent for. -/
def Tells (config : Config) (r : Vap) : Prop :=
  config.local_tunnel_id = r.local_tunnel_id ∧ config.local_session_id = r.local_session_id ∧
    config.sport = r.sport ∧ config.remote_tunnel_id = r.remote_tunnel_id ∧
    config.remote_session_id = r.remote_session_id ∧ config.dport = r.dport

/-- What holds in every state. An answer on its way to `host` tells of the remote VAP
that its sender has for `host`, and so does a completed local VAP. -/
structure Inv (net : Net) : Prop where
  names : ∀ host, (net.hosts host).hostname = host
  answers : ∀ host config, (host, .remote_vap_create_completed config) ∈ net.flight →
    ∃ r, (net.hosts config.peer).get_remote_vap_by_neighbor host = some r ∧ Tells config r
  completed : ∀ host, ∀ v ∈ (net.hosts host).local_vaps, v.remote_tunnel_id.isSome = true →
    ∃ r, (net.hosts v.neighbor).get_remote_vap_by_neighbor host = some r ∧
      Points v.remote_tunnel_id v.remote_session_id v.dport r

/-- Both ends of all completed VAPs point at each other. -/
def Matched (net : Net) : Prop :=
  ∀ host, ∀ v ∈ (net.hosts host).local_vaps, v.remote_tunnel_id.isSome = true →
    ∀ r, (net.hosts v.neighbor).get_remote_vap_by_neighbor host = some r →
      Points r.remote_tunnel_id r.remote_session_id r.dport v

theorem asNumber_showInt (i : ℤ) : asNumber (some (showInt i)) = some i := by
  rw [asNumber, Option.bind_some, readInt_showInt]

/-- A host's remote VAPs only grow. -/
structure Grows (m m' : VapManager) : Prop where
  hostname : m'.hostname = m.hostname
  remote : ∀ neighbor r, m.get_remote_vap_by_neighbor neighbor = some r →
    m'.get_remote_vap_by_neighbor neighbor = some r

section Update

variable {net : Net} {host : String} {m : VapManager} {flight : List (String × Message)}

theorem update_remote (hg : Grows (net.hosts host) m) {b a : String} {r : Vap}
    (h : (net.hosts b).get_remote_vap_by_neighbor a = some r) :
    ((net.update host m flight).hosts b).get_remote_vap_by_neighbor a = some r := by
  by_cases hb : b = host
  · subst hb
    simpa [Net.update] using hg.remote a r h
  · simpa [Net.update, hb] using h

/-- A local VAP after an update is one of before or one of the host's. -/
theorem update_local {a : String} {v : Vap}
    (h : v ∈ ((net.update host m flight).hosts a).local_vaps) :
    (a = host ∧ v ∈ m.local_vaps) ∨ (a ≠ host ∧ v ∈ (net.hosts a).local_vaps) := by
  by_cases ha : a = host
  · subst ha
    exact Or.inl ⟨rfl, by simpa [Net.update] using h⟩
  · exact Or.inr ⟨ha, by simpa [Net.update, ha] using h⟩

/-- The invariant after an update of one host. -/
theorem update_inv (h : Inv net) (hg : Grows (net.hosts host) m)
    (hflight : ∀ a config, (a, .remote_vap_create_completed config) ∈ flight →
      (a, .remote_vap_create_completed config) ∈ net.flight ∨
        (config.peer = host ∧ ∃ r, m.get_remote_vap_by_neighbor a = some r ∧ Tells config r))
    (hlocal : ∀ v ∈ m.local_vaps, v.remote_tunnel_id.isSome = true →
      v ∈ (net.hosts host).local_vaps ∨
        ∃ r, (net.hosts v.neighbor).get_remote_vap_by_neighbor host = some r ∧
          Points v.remote_tunnel_id v.remote_session_id v.dport r) :
    Inv (net.update host m flight) := by
  refine ⟨?_, ?_, ?_⟩
  · intro a
    by_cases ha : a = host
    · subst ha
      simpa [Net.update] using hg.hostname.trans (h.names a)
    · simpa [Net.update, ha] using h.names a
  · intro a config hmem
    rcases hflight a config hmem with hold | ⟨hpeer, r, hr, htells⟩
    · obtain ⟨r, hr, htells⟩ := h.answers a config hold
      exact ⟨r, update_remote hg hr, htells⟩
    · exact ⟨r, by simpa [Net.update, hpeer] using hr, htells⟩
  · intro a v hv hdone
    have hold : v ∈ (net.hosts a).local_vaps ∨
        ∃ r, (net.hosts v.neighbor).get_remote_vap_by_neighbor a = some r ∧
          Points v.remote_tunnel_id v.remote_session_id v.dport r := by
      rcases update_local hv with ⟨rfl, hvm⟩ | ⟨-, hvm⟩
      · exact hlocal v hvm hdone
      · exact Or.inl hvm
    rcases hold with hv | ⟨r, hr, hpoints⟩
    · obtain ⟨r, hr, hpoints⟩ := h.completed a v hv hdone
      exact ⟨r, update_remote hg hr, hpoints⟩
    · exact ⟨r, update_remote hg hr, hpoints⟩

/-- The other half of the agreement after an update of one host. -/
theorem update_matched (h : Inv net) (hm : Matched net) (hg : Grows (net.hosts host) m)
    (hlocal : ∀ v ∈ m.local_vaps, v.remote_tunnel_id.isSome = true →
      v ∈ (net.hosts host).local_vaps ∨
        ∃ r, (net.hosts v.neighbor).get_remote_vap_by_neighbor host = some r ∧
          Points r.remote_tunnel_id r.remote_session_id r.dport v) :
    Matched (net.update host m flight) := by
  intro a v hv hdone r hr
  have hold : ∃ r₀, (net.hosts v.neighbor).get_remote_vap_by_neighbor a = some r₀ ∧
      Points r₀.remote_tunnel_id r₀.remote_session_id r₀.dport v := by
    have hkept : v ∈ (net.hosts a).local_vaps →
        ∃ r₀, (net.hosts v.neighbor).get_remote_vap_by_neighbor a = some r₀ ∧
          Points r₀.remote_tunnel_id r₀.remote_session_id r₀.dport v := by
      intro hv
      obtain ⟨r₀, hr₀, -⟩ := h.completed a v hv hdone
      exact ⟨r₀, hr₀, hm a v hv hdone r₀ hr₀⟩
    rcases update_local hv with ⟨rfl, hvm⟩ | ⟨-, hvm⟩
    · rcases hlocal v hvm hdone with hold | hnew
      · exact hkept hold
      · exact hnew
    · exact hkept hvm
  obtain ⟨r₀, hr₀, hpoints⟩ := hold
  rw [update_remote hg hr₀, Option.some.injEq] at hr
  rwa [← hr]

end Update

section Operations

variable {net : Net} {m : VapManager}

theorem initialize_spec (m : VapManager) (neighbor : String) :
    Grows m (m.initialize_local_vap neighbor).1 ∧
      (∀ a config, (a, .remote_vap_create_completed config) ∉
        (m.initialize_local_vap neighbor).2) ∧
      ∀ v ∈ (m.initialize_local_vap neighbor).1.local_vaps, v.remote_tunnel_id.isSome = true →
        v ∈ m.local_vaps := by
  unfold VapManager.initialize_local_vap
  split
  · exact ⟨⟨rfl, fun _ _ h => h⟩, by simp, fun _ hv _ => hv⟩
  · refine ⟨⟨rfl, fun _ _ h => h⟩, by simp, ?_⟩
    intro v hv hdone
    rcases List.mem_append.mp hv with hv | hv
    · exact hv
    · obtain rfl := List.mem_singleton.mp hv
      simp [VapManager.newVap] at hdone

theorem remove_spec (m : VapManager) (neighbor : String) :
    Grows m (m.remove_vap neighbor) ∧
      ∀ v ∈ (m.remove_vap neighbor).local_vaps, v ∈ m.local_vaps :=
  ⟨⟨rfl, fun _ _ h => h⟩, fun _ hv => List.mem_of_mem_eraseP hv⟩

theorem create_spec (m : VapManager) (config : Config) (ifaceName : String) :
    Grows m (m.create_remote_vap config ifaceName).1 ∧
      (∀ a answer, (a, .remote_vap_create_completed answer) ∈
          (m.create_remote_vap config ifaceName).2 →
        answer.peer = m.hostname ∧
          ∃ r, (m.create_remote_vap config ifaceName).1.get_remote_vap_by_neighbor a = some r ∧
            Tells answer r) ∧
      (m.create_remote_vap config ifaceName).1.local_vaps = m.local_vaps := by
  unfold VapManager.create_remote_vap
  split
  · exact ⟨⟨rfl, fun _ _ h => h⟩, by simp, rfl⟩
  · rename_i hnone
    refine ⟨⟨rfl, fun _ _ h => findVap_append h _⟩, ?_, rfl⟩
    intro a answer hmem
    simp only [List.mem_singleton, Prod.mk.injEq, Message.remote_vap_create_completed.injEq] at hmem
    obtain ⟨rfl, rfl⟩ := hmem
    exact ⟨rfl, _, findVap_append_new hnone rfl, rfl, rfl, rfl, rfl, rfl, rfl⟩

theorem complete_spec (m : VapManager) (config : Config) (ifaceName : String) :
    Grows m (m.complete_local_vap config ifaceName) ∧
      ∀ v ∈ (m.complete_local_vap config ifaceName).local_vaps, v ∈ m.local_vaps ∨
        ∃ u port, m.get_local_vap_by_neighbor config.peer = some u ∧
          v = (u.fillRemote config).connect ifaceName port := by
  unfold VapManager.complete_local_vap
  split
  · exact ⟨⟨rfl, fun _ _ h => h⟩, fun _ hv => Or.inl hv⟩
  · refine ⟨⟨rfl, fun _ _ h => h⟩, fun v hv => ?_⟩
    rcases mem_updateVap hv with hold | ⟨u, hu, rfl⟩
    · exact Or.inl hold
    · exact Or.inr ⟨u, _, hu, rfl⟩

/-- The VAP that an answer completes is the one found under the sender's name. -/
theorem complete_found {config : Config} {v : Vap}
    (h : m.get_local_vap_by_neighbor config.peer = some v) (ifaceName : String) :
    ∃ port, (m.complete_local_vap config ifaceName).get_local_vap_by_neighbor config.peer =
      some ((v.fillRemote config).connect ifaceName port) := by
  unfold VapManager.complete_local_vap
  rw [h]
  exact ⟨_, findVap_updateVap (fun _ => rfl) h⟩

/-- A VAP completed from an answer points at the remote VAP that this told of. -/
theorem points_of_tells {config : Config} {r : Vap} (h : Tells config r) (u : Vap)
    (ifaceName : String) (port : ℕ) :
    let v := (u.fillRemote config).connect ifaceName port
    Points v.remote_tunnel_id v.remote_session_id v.dport r := by
  obtain ⟨htunnel, hsession, hport, -⟩ := h
  refine ⟨?_, ?_, ?_⟩
  · rw [← htunnel]
    exact asNumber_showInt _
  · rw [← hsession]
    exact asNumber_showInt _
  · rw [← hport]
    exact asNumber_showInt _

end Operations

section Runs

variable {net : Net}

/-- The messages that stay when one is delivered. -/
theorem mem_of_deliver {i : ℕ} {sent : List (String × Message)} {x : String × Message}
    (h : x ∈ net.flight.eraseIdx i ++ sent) : x ∈ net.flight ∨ x ∈ sent :=
  (List.mem_append.mp h).imp_left List.mem_of_mem_eraseIdx

theorem step_inv (h : Inv net) (action : Action) : Inv (step net action) := by
  cases action with
  | newLink host neighbor =>
    obtain ⟨hg, hmsg, hlocal⟩ := initialize_spec (net.hosts host) neighbor
    refine update_inv h hg (fun a config hmem => ?_)
      (fun v hv hdone => Or.inl (hlocal v hv hdone))
    rcases List.mem_append.mp hmem with hold | hnew
    · exact Or.inl hold
    · exact absurd hnew (hmsg a config)
  | linkFailure host neighbor =>
    obtain ⟨hg, hlocal⟩ := remove_spec (net.hosts host) neighbor
    exact update_inv h hg (fun _ _ hmem => Or.inl hmem) (fun v hv _ => Or.inl (hlocal v hv))
  | deliver i ifaceName =>
    rw [step]
    split
    · exact h
    · rename_i host msg hget
      cases msg with
      | remote_vap_create_request config =>
        obtain ⟨hg, hmsg, hlocal⟩ := create_spec (net.hosts host) config ifaceName
        refine update_inv h hg (fun a answer hmem => ?_) (fun v hv _ => Or.inl ?_)
        · rcases mem_of_deliver hmem with hold | hnew
          · exact Or.inl hold
          · obtain ⟨hpeer, hr⟩ := hmsg a answer hnew
            exact Or.inr ⟨hpeer.trans (h.names host), hr⟩
        · rw [← hlocal]
          exact hv
      | remote_vap_create_completed config =>
        obtain ⟨hg, hlocal⟩ := complete_spec (net.hosts host) config ifaceName
        obtain ⟨r, hr, htells⟩ := h.answers host config (List.mem_of_getElem? hget)
        refine update_inv h hg (fun a answer hmem => ?_) (fun v hv _ => ?_)
        · rcases mem_of_deliver hmem with hold | hnew
          · exact Or.inl hold
          · simp [VapManager.process_msg] at hnew
        · rcases hlocal v hv with hold | ⟨u, port, hu, rfl⟩
          · exact Or.inl hold
          · refine Or.inr ⟨r, ?_, points_of_tells htells u ifaceName port⟩
            have hneighbor : u.neighbor = config.peer := findVap_neighbor hu
            rw [← hneighbor] at hr
            exact hr

theorem step_matched (h : Inv net) (hm : Matched net) {action : Action}
    (ha : Answers net action) : Matched (step net action) := by
  cases action with
  | newLink host neighbor =>
    obtain ⟨hg, -, hlocal⟩ := initialize_spec (net.hosts host) neighbor
    exact update_matched h hm hg (fun v hv hdone => Or.inl (hlocal v hv hdone))
  | linkFailure host neighbor =>
    obtain ⟨hg, hlocal⟩ := remove_spec (net.hosts host) neighbor
    exact update_matched h hm hg (fun v hv _ => Or.inl (hlocal v hv))
  | deliver i ifaceName =>
    rw [step]
    split
    · exact hm
    · rename_i host msg hget
      cases msg with
      | remote_vap_create_request config =>
        obtain ⟨hg, -, hlocal⟩ := create_spec (net.hosts host) config ifaceName
        refine update_matched h hm hg (fun v hv _ => Or.inl ?_)
        rw [← hlocal]
        exact hv
      | remote_vap_create_completed config =>
        obtain ⟨hg, hlocal⟩ := complete_spec (net.hosts host) config ifaceName
        obtain ⟨r, hr, -, -, -, htunnel, hsession, hport⟩ :=
          h.answers host config (List.mem_of_getElem? hget)
        refine update_matched h hm hg (fun v hv _ => ?_)
        rcases hlocal v hv with hold | ⟨u, port, hu, rfl⟩
        · exact Or.inl hold
        · have hneighbor : u.neighbor = config.peer := findVap_neighbor hu
          have hpoints := ha host config hget u hu
          rw [htunnel, hsession, hport] at hpoints
          rw [← hneighbor] at hr
          exact Or.inr ⟨r, hr, hpoints.tunnel, hpoints.session, hpoints.port⟩

/-- The state after an answer that does not belong to the VAP it completes has no
agreement, so that agreement afterwards shows that it does. -/
theorem answers_of_agreed (h : Inv net) {action : Action}
    (hagreed : ∀ a b, Agreed (step net action) a b) : Answers net action := by
  cases action with
  | newLink host neighbor => trivial
  | linkFailure host neighbor => trivial
  | deliver i ifaceName =>
    intro host config hget v hv
    obtain ⟨r, hr, -, -, -, htunnel, hsession, hport⟩ :=
      h.answers host config (List.mem_of_getElem? hget)
    obtain ⟨hg, -⟩ := complete_spec (net.hosts host) config ifaceName
    obtain ⟨port, hfound⟩ := complete_found hv ifaceName
    have hstep : step net (.deliver i ifaceName) =
        net.update host ((net.hosts host).complete_local_vap config ifaceName)
          (net.flight.eraseIdx i ++ []) := by
      rw [step, hget]
      rfl
    rw [hstep] at hagreed
    have hmatch := hagreed host config.peer ((v.fillRemote config).connect ifaceName port) r
      (by simpa [Net.update] using hfound) rfl (update_remote hg hr)
    rw [htunnel, hsession, hport]
    exact ⟨hmatch.2.tunnel, hmatch.2.session, hmatch.2.port⟩

theorem agreed_of_matched (h : Inv net) (hm : Matched net) (a b : String) : Agreed net a b := by
  intro v r hv hdone hr
  have hmem : v ∈ (net.hosts a).local_vaps := findVap_mem hv
  have hneighbor : v.neighbor = b := findVap_neighbor hv
  subst hneighbor
  obtain ⟨r', hr', hpoints⟩ := h.completed a v hmem hdone
  rw [hr, Option.some.injEq] at hr'
  subst hr'
  exact ⟨hpoints, hm a v hmem hdone r hr⟩

theorem run_append (pre : List Action) (action : Action) :
    run (pre ++ [action]) = step (run pre) action := by
  simp [run, List.foldl_append]

theorem initial_inv : Inv initial := by
  refine ⟨fun _ => rfl, ?_, ?_⟩
  · intro host config hmem
    simp [initial] at hmem
  · intro host v hv
    simp [initial] at hv

theorem run_inv (actions : List Action) : Inv (run actions) := by
  induction actions using List.reverseRecOn with
  | nil => exact initial_inv
  | append_singleton pre action ih =>
    rw [run_append]
    exact step_inv ih action

theorem run_matched {actions : List Action}
    (h : ∀ pre action post, actions = pre ++ action :: post → Answers (run pre) action) :
    Matched (run actions) := by
  induction actions using List.reverseRecOn with
  | nil =>
    intro host v hv
    simp [run, initial] at hv
  | append_singleton pre action ih =>
    rw [run_append]
    refine step_matched (run_inv pre) (ih fun p a q heq => ?_) (h pre action [] rfl)
    exact h p a (q ++ [action]) (by simp [heq])

/-- Tunnel agreement. The two ends of every tunnel match in all states of a run
exactly when each answer that arrives at a host with a local VAP for its
sender repeats the ids of that VAP. -/
theorem agreement_iff_answers (actions : List Action) :
    (∀ pre post, actions = pre ++ post → ∀ a b, Agreed (run pre) a b) ↔
      ∀ pre action post, actions = pre ++ action :: post → Answers (run pre) action := by
  constructor
  · intro hagreed pre action post heq
    refine answers_of_agreed (run_inv pre) fun a b => ?_
    rw [← run_append]
    exact hagreed (pre ++ [action]) post (by simp [heq]) a b
  · intro hanswers pre post heq a b
    refine agreed_of_matched (run_inv pre) (run_matched fun p c q hpre => ?_) a b
    exact hanswers p c (q ++ post) (by simp [heq, hpre])

/-- A link that fails and comes back before the first answer is there. -/
def flap : List Action :=
  [.newLink "10.0.0.1" "10.0.0.2", .deliver 0 "l2tpeth0", .linkFailure "10.0.0.1" "10.0.0.2",
    .newLink "10.0.0.1" "10.0.0.2", .deliver 0 "l2tpeth0"]

/-- The late answer completes the second VAP, while the neighbor's end still points
at the first. -/
theorem flap_disagrees : ∃ v r,
    ((run flap).hosts "10.0.0.1").get_local_vap_by_neighbor "10.0.0.2" = some v ∧
      v.remote_tunnel_id.isSome = true ∧
      ((run flap).hosts "10.0.0.2").get_remote_vap_by_neighbor "10.0.0.1" = some r ∧
      asNumber r.remote_tunnel_id = some 1000 ∧ v.local_tunnel_id = 1001 ∧
      ¬ Agreed (run flap) "10.0.0.1" "10.0.0.2" := by
  refine ⟨_, _, rfl, rfl, rfl, by decide, rfl, fun hagreed => ?_⟩
  have htunnel := (hagreed _ _ rfl rfl rfl).2.tunnel
  revert htunnel
  decide

end Runs

end Nxwlan.VapTunnels
