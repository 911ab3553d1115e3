import Nxwlan.Vaps
import Nxwlan.SwitchForwarding

/-!
The tunnels of the own virtual access point and those of visiting ones stay
apart: whatever the order of link changes, answers and requests at an access
point, a port belongs to one kind of VAP for good, and a frame moves only
between hwsim0 and the tunnels of local VAPs or between the monitor interface
and the tunnels of remote VAPs.
-/
namespace Nxwlan.VapIsolation

open ByteFields SwitchParser P4Switch SwitchWiring SwitchForwarding Vaps

/-- What happens to the manager of one access point. -/
inductive Event where
  | newLink (neighbor : String)
  | linkFailure (neighbor : String)
  | message (msg : Message) (ifaceName : String)

def handle (m : VapManager) : Event → VapManager
  | .newLink neighbor => (m.initialize_local_vap neighbor).1
  | .linkFailure neighbor => m.remove_vap neighbor
  | .message msg ifaceName => (m.process_msg msg ifaceName).1

def run (hostname : String) (events : List Event) : VapManager :=
  events.foldl handle { hostname := hostname }

/-- The ports of the VAPs of one kind. -/
def portsOf (m : VapManager) : Role → List ℕ
  | .localVap => m.local_vaps.filterMap Vap.p4_port_id
  | .remoteVap => m.remote_vaps.filterMap Vap.p4_port_id

/-- A VAP of this kind has the port, or had it before. -/
def Owned (hostname : String) (events : List Event) (role : Role) (port : ℕ) : Prop :=
  ∃ pre post, events = pre ++ post ∧ port ∈ portsOf (run hostname pre) role

theorem run_append (hostname : String) (events : List Event) (e : Event) :
    run hostname (events ++ [e]) = handle (run hostname events) e := by
  simp [run, List.foldl_append]

theorem owned_append (hostname : String) (events : List Event) (e : Event) (role : Role)
    (port : ℕ) : Owned hostname (events ++ [e]) role port ↔
      Owned hostname events role port ∨
        port ∈ portsOf (run hostname (events ++ [e])) role := by
  constructor
  · rintro ⟨pre, post, heq, hmem⟩
    rcases List.eq_nil_or_concat post with rfl | ⟨post, last, rfl⟩
    · rw [List.append_nil] at heq
      subst heq
      exact Or.inr hmem
    · rw [List.concat_eq_append, ← List.append_assoc] at heq
      have heq' := (List.append_inj' heq rfl).1
      exact Or.inl ⟨pre, post, heq', hmem⟩
  · rintro (⟨pre, post, rfl, hmem⟩ | hmem)
    · exact ⟨pre, post ++ [e], by simp, hmem⟩
    · exact ⟨events ++ [e], [], by simp, hmem⟩

/-- Changing one VAP changes one port. -/
theorem portsOf_updateVap {neighbor : String} {f : Vap → Vap} {vaps : List Vap} {port p : ℕ}
    (hf : ∀ v, (f v).p4_port_id = some port)
    (h : p ∈ (updateVap neighbor f vaps).filterMap Vap.p4_port_id) :
    p ∈ vaps.filterMap Vap.p4_port_id ∨ p = port := by
  obtain ⟨v, hv, hp⟩ := List.mem_filterMap.mp h
  rcases mem_updateVap hv with hold | ⟨u, -, rfl⟩
  · exact Or.inl (List.mem_filterMap.mpr ⟨v, hold, hp⟩)
  · rw [hf, Option.some.injEq] at hp
    exact Or.inr hp.symm

/-- An event sets up no tunnel, or it sets up one for a VAP of one kind. -/
structure Opens (m m' : VapManager) (role : Role) (ifaceName : String) : Prop where
  switch : m'.p4SwitchManager = (setup role ifaceName m.p4SwitchManager).2
  ports : ∀ r p, p ∈ portsOf m' r → p ∈ portsOf m r ∨
    (r = role ∧ p = m.p4SwitchManager.port_id_generator)
  new : m.p4SwitchManager.port_id_generator ∈ portsOf m' role

structure Keeps (m m' : VapManager) : Prop where
  switch : m'.p4SwitchManager = m.p4SwitchManager
  ports : ∀ r p, p ∈ portsOf m' r → p ∈ portsOf m r

theorem initialize_keeps (m : VapManager) (neighbor : String) :
    Keeps m (m.initialize_local_vap neighbor).1 := by
  unfold VapManager.initialize_local_vap
  split
  · exact ⟨rfl, fun _ _ hp => hp⟩
  · refine ⟨rfl, fun r p hp => ?_⟩
    cases r with
    | localVap => simpa [portsOf, VapManager.newVap] using hp
    | remoteVap => exact hp

theorem remove_keeps (m : VapManager) (neighbor : String) : Keeps m (m.remove_vap neighbor) := by
  refine ⟨rfl, fun r p hp => ?_⟩
  cases r with
  | localVap =>
    obtain ⟨v, hv, hport⟩ := List.mem_filterMap.mp hp
    exact List.mem_filterMap.mpr ⟨v, List.mem_of_mem_eraseP hv, hport⟩
  | remoteVap => exact hp

theorem create_cases (m : VapManager) (config : Config) (ifaceName : String) :
    Keeps m (m.create_remote_vap config ifaceName).1 ∨
      Opens m (m.create_remote_vap config ifaceName).1 .remoteVap ifaceName := by
  unfold VapManager.create_remote_vap
  split
  · exact Or.inl ⟨rfl, fun _ _ hp => hp⟩
  · refine Or.inr ⟨rfl, fun r p hp => ?_, ?_⟩
    · cases r with
      | localVap => exact Or.inl hp
      | remoteVap =>
        simp only [portsOf, List.filterMap_append, List.mem_append] at hp
        rcases hp with hp | hp
        · exact Or.inl hp
        · exact Or.inr ⟨rfl, by simpa [Vap.connect, setup_port] using hp⟩
    · simp [portsOf, Vap.connect, setup_port]

theorem complete_cases (m : VapManager) (config : Config) (ifaceName : String) :
    Keeps m (m.complete_local_vap config ifaceName) ∨
      Opens m (m.complete_local_vap config ifaceName) .localVap ifaceName := by
  unfold VapManager.complete_local_vap
  split
  · exact Or.inl ⟨rfl, fun _ _ hp => hp⟩
  · rename_i v hv
    refine Or.inr ⟨rfl, fun r p hp => ?_, ?_⟩
    · cases r with
      | localVap => exact (portsOf_updateVap (fun _ => rfl) hp).imp_right (fun h => ⟨rfl, h⟩)
      | remoteVap => exact Or.inl hp
    · have hfound := findVap_updateVap (f := fun vap => (vap.fillRemote config).connect ifaceName
        (setup .localVap ifaceName m.p4SwitchManager).1) (fun _ => rfl) hv
      exact List.mem_filterMap.mpr ⟨_, findVap_mem hfound, rfl⟩

theorem handle_cases (m : VapManager) (e : Event) :
    Keeps m (handle m e) ∨ ∃ role ifaceName, Opens m (handle m e) role ifaceName := by
  cases e with
  | newLink neighbor => exact Or.inl (initialize_keeps m neighbor)
  | linkFailure neighbor => exact Or.inl (remove_keeps m neighbor)
  | message msg ifaceName =>
    cases msg with
    | remote_vap_create_request config =>
      exact (create_cases m config ifaceName).imp_right (fun h => ⟨_, _, h⟩)
    | remote_vap_create_completed config =>
      exact (complete_cases m config ifaceName).imp_right (fun h => ⟨_, _, h⟩)

/-- The switch has been programmed by setups whose roles are those of the ports'
owners. -/
theorem run_programmed (hostname : String) (events : List Event) :
    ∃ roles, Programmed roles (run hostname events).p4SwitchManager ∧
      ∀ role port, Owned hostname events role port ↔ roleOf roles port = some role := by
  induction events using List.reverseRecOn with
  | nil =>
    refine ⟨[], Programmed.started, fun role port => ?_⟩
    have hnone : roleOf [] port = none := by simp [roleOf]
    rw [hnone]
    simp only [reduceCtorEq, iff_false]
    rintro ⟨pre, post, heq, hmem⟩
    obtain rfl : pre = [] := by
      rw [eq_comm, List.append_eq_nil_iff] at heq
      exact heq.1
    cases role <;> simp [portsOf, run] at hmem
  | append_singleton events e ih =>
    obtain ⟨roles, hprog, hroles⟩ := ih
    have hnow : ∀ role port, port ∈ portsOf (run hostname events) role →
        Owned hostname events role port := fun role port hp =>
      ⟨events, [], by simp, hp⟩
    rcases handle_cases (run hostname events) e with hkeep | ⟨role, ifaceName, hopen⟩
    · refine ⟨roles, ?_, fun r port => ?_⟩
      · rw [run_append, hkeep.switch]
        exact hprog
      · rw [owned_append, run_append, ← hroles]
        exact or_iff_left_of_imp fun hp => hnow r port (hkeep.ports r port hp)
    · have hnext := (programmed_wiring hprog).next
      refine ⟨roles ++ [role], ?_, fun r port => ?_⟩
      · rw [run_append, hopen.switch]
        exact hprog.setup role ifaceName
      · rw [owned_append, run_append, roleOf_append_iff, ← hroles, ← hnext]
        constructor
        · rintro (hold | hp)
          · exact Or.inl hold
          · exact (hopen.ports r port hp).imp (hnow r port) And.symm
        · rintro (hold | ⟨rfl, rfl⟩)
          · exact Or.inl hold
          · exact Or.inr hopen.new

/-- Home and visited networks are isolated. In every state of an access point, a
frame that parses as radiotap and 802.11 goes from the tunnel of a local VAP
to hwsim0 only and from that of a remote VAP to the monitor interface only,
and from these two only back to tunnels of the same kind. -/
theorem home_visited_isolated (hostname : String) (events : List Event) (port : ℕ)
    (frame : Bytes) (pkt : Packet) (hparse : start (arriving port frame) = some pkt)
    (hvalid : pkt.radiotap.isSome = true) (q : ℕ) (out : Bytes)
    (hsent : process (run hostname events).p4SwitchManager.switch port frame = .sent q out) :
    (Owned hostname events .localVap port → q = 0) ∧
      (Owned hostname events .remoteVap port → q = 1) ∧
      (port = 0 → Owned hostname events .localVap q) ∧
      (port = 1 → Owned hostname events .remoteVap q) ∧
      (2 ≤ port → q < 2) ∧ (port < 2 → 2 ≤ q) := by
  obtain ⟨roles, hprog, hroles⟩ := run_programmed hostname events
  have hw := programmed_wiring hprog
  obtain ⟨-, q', heq, -, -, hallow⟩ := hw.wires.entry port _ (sent_entry hw hparse hvalid hsent)
  obtain rfl : q = q' := by simpa using heq
  simp only [hroles]
  have hradio : ∀ p, p < 2 → ∀ r, roleOf roles p ≠ some r := by
    intro p hp r
    rw [roleOf, if_neg (by omega)]
    simp
  have htunnel : ∀ p r, roleOf roles p = some r → 2 ≤ p := by
    intro p r h
    by_contra hp
    exact hradio p (by omega) r h
  rcases hallow with ⟨rfl, h⟩ | ⟨rfl, h⟩ | ⟨h, rfl⟩ | ⟨h, rfl⟩
  · have hq := htunnel q _ h
    have hzero := hradio 0 (by omega)
    refine ⟨fun h' => absurd h' (hzero _), fun h' => absurd h' (hzero _), fun _ => h, ?_, ?_, ?_⟩
    all_goals omega
  · have hq := htunnel q _ h
    have hone := hradio 1 (by omega)
    refine ⟨fun h' => absurd h' (hone _), fun h' => absurd h' (hone _), ?_, fun _ => h, ?_, ?_⟩
    all_goals omega
  · have hport := htunnel port _ h
    refine ⟨fun _ => rfl, fun h' => by simp [h] at h', ?_, ?_, ?_, ?_⟩
    all_goals omega
  · have hport := htunnel port _ h
    refine ⟨fun h' => by simp [h] at h', fun _ => rfl, ?_, ?_, ?_, ?_⟩
    all_goals omega

/-- An answer that completes the VAP for a neighbor. -/
def sampleEvents : List Event :=
  [.newLink "10.0.0.2",
    .message (.remote_vap_create_completed
      { peer := "10.0.0.2", local_tunnel_id := 1000, remote_tunnel_id := some ['1', '0', '0', '0'],
        local_ip_address := "10.0.0.2", remote_ip_address := "10.0.0.1", sport := 5001,
        dport := some ['5', '0', '0', '1'], local_session_id := 1000,
        remote_session_id := some ['1', '0', '0', '0'] }) "l2tpeth0"]

theorem home_visited_isolated_sample : Owned "10.0.0.1" sampleEvents .localVap 2 := by
  have hsent : ∃ out, process (run "10.0.0.1" sampleEvents).p4SwitchManager.switch 0 sampleFrame =
      .sent 2 out := ⟨_, rfl⟩
  obtain ⟨out, hout⟩ := hsent
  exact (home_visited_isolated "10.0.0.1" sampleEvents 0 sampleFrame
    ((start (arriving 0 sampleFrame)).get (by decide)) (Option.some_get _).symm (by decide) 2 out
    hout).2.2.1 rfl

end Nxwlan.VapIsolation
