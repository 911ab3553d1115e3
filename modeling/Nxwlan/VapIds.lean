import Nxwlan.VapIsolation
import Mathlib.Data.List.Nodup

/-!
The numbers that `VapManager` and `P4SwitchManager` give away. Local and remote
VAPs draw their ids and ports from the same four generators, the radio and
tunnel interfaces draw their switch ports from a fifth one, and no generator
goes back, whatever is created, completed and removed. The VAPs of an access
point are recorded as they are created.
-/
namespace Nxwlan.VapIds

open P4Switch Vaps VapIsolation

/-- The VAP that an event creates, if any. -/
def createdBy (m : VapManager) : Event → List Vap
  | .newLink neighbor =>
      if (m.get_local_vap_by_neighbor neighbor).isSome then [] else [m.newVap neighbor]
  | .linkFailure _ => []
  | .message (.remote_vap_create_request config) _ =>
      if (m.get_remote_vap_by_neighbor config.peer).isSome then []
      else [(m.newVap config.peer).fillRemote config]
  | .message (.remote_vap_create_completed _) _ => []

/-- The VAPs created from a state on, in order. -/
def createdFrom (m : VapManager) : List Event → List Vap
  | [] => []
  | e :: rest => createdBy m e ++ createdFrom (handle m e) rest

/-- All VAPs ever created at an access point. -/
def created (hostname : String) (events : List Event) : List Vap :=
  createdFrom { hostname := hostname } events

theorem created_append (hostname : String) (events : List Event) (e : Event) :
    created hostname (events ++ [e]) =
      created hostname events ++ createdBy (run hostname events) e := by
  have hfrom : ∀ m, createdFrom m (events ++ [e]) =
      createdFrom m events ++ createdBy (events.foldl handle m) e := by
    induction events with
    | nil => simp [createdFrom]
    | cons d rest ih => simp [createdFrom, ih]
  exact hfrom _

/-- The record `c` of its creation belongs to the VAP `v`. -/
structure SameIds (c v : Vap) : Prop where
  vapId : c.vapId = v.vapId
  neighbor : c.neighbor = v.neighbor
  local_tunnel_id : c.local_tunnel_id = v.local_tunnel_id
  local_session_id : c.local_session_id = v.local_session_id
  sport : c.sport = v.sport

theorem SameIds.refl (v : Vap) : SameIds v v := ⟨rfl, rfl, rfl, rfl, rfl⟩

/-- The numbers that a generator has given away, from its first one on. -/
def numbers (first : ℤ) (n : ℕ) : List ℤ := (List.range n).map (fun i : ℕ => first + i)

theorem numbers_succ (first : ℤ) (n : ℕ) : numbers first (n + 1) = numbers first n ++ [first + n] := by
  simp [numbers, List.range_succ]

theorem numbers_nodup (first : ℤ) (n : ℕ) : (numbers first n).Nodup := by
  apply List.Nodup.map _ List.nodup_range
  intro i j h
  simpa using h

/-- What the generators have given away so far: the VAP created `i`-th has the
number `i` and the `i`-th ids and port. -/
structure Numbered (vaps : List Vap) (m : VapManager) : Prop where
  vapId : vaps.map Vap.vapId = List.range m.vap_id_generator
  tunnel : vaps.map Vap.local_tunnel_id = numbers 1000 m.vap_id_generator
  session : vaps.map Vap.local_session_id = numbers 1000 m.vap_id_generator
  sport : vaps.map Vap.sport = numbers 5001 m.vap_id_generator
  tunnels : m.tunnel_id_generator = 1000 + (m.vap_id_generator : ℤ)
  sessions : m.session_id_generator = 1000 + (m.vap_id_generator : ℤ)
  ports : m.port_generator = 5001 + (m.vap_id_generator : ℤ)

section Creation

variable {vaps : List Vap} {m m' : VapManager}

theorem Numbered.congr (h : Numbered vaps m) (hid : m'.vap_id_generator = m.vap_id_generator)
    (htunnel : m'.tunnel_id_generator = m.tunnel_id_generator)
    (hsession : m'.session_id_generator = m.session_id_generator)
    (hport : m'.port_generator = m.port_generator) : Numbered vaps m' := by
  refine ⟨?_, ?_, ?_, ?_, ?_, ?_, ?_⟩
  · rw [hid, h.vapId]
  · rw [hid, h.tunnel]
  · rw [hid, h.session]
  · rw [hid, h.sport]
  · rw [hid, htunnel, h.tunnels]
  · rw [hid, hsession, h.sessions]
  · rw [hid, hport, h.ports]

/-- A new VAP takes the next number of each generator. -/
theorem Numbered.generate (h : Numbered vaps m) {v : Vap} (hid : v.vapId = m.vap_id_generator)
    (htunnel : v.local_tunnel_id = m.tunnel_id_generator)
    (hsession : v.local_session_id = m.session_id_generator) (hport : v.sport = m.port_generator) :
    Numbered (vaps ++ [v]) m.generate := by
  have hnext : m.generate.vap_id_generator = m.vap_id_generator + 1 := rfl
  refine ⟨?_, ?_, ?_, ?_, ?_, ?_, ?_⟩
  · rw [hnext, List.range_succ, List.map_append, h.vapId, List.map_singleton, hid]
  · rw [hnext, numbers_succ, List.map_append, h.tunnel, List.map_singleton, htunnel, h.tunnels]
  · rw [hnext, numbers_succ, List.map_append, h.session, List.map_singleton, hsession, h.sessions]
  · rw [hnext, numbers_succ, List.map_append, h.sport, List.map_singleton, hport, h.ports]
  · have htunnels := h.tunnels
    simp only [VapManager.generate]
    omega
  · have hsessions := h.sessions
    simp only [VapManager.generate]
    omega
  · have hports := h.ports
    simp only [VapManager.generate]
    omega

/-- An event gives the numbers of its VAP away. -/
theorem Numbered.handle (h : Numbered vaps m) (e : Event) :
    Numbered (vaps ++ createdBy m e) (handle m e) := by
  cases e with
  | newLink neighbor =>
    simp only [createdBy, VapIsolation.handle, VapManager.initialize_local_vap]
    cases m.get_local_vap_by_neighbor neighbor with
    | some v => simpa using h
    | none => exact (h.generate rfl rfl rfl rfl).congr rfl rfl rfl rfl
  | linkFailure neighbor =>
    rw [createdBy, List.append_nil]
    exact h.congr rfl rfl rfl rfl
  | message msg ifaceName =>
    cases msg with
    | remote_vap_create_request config =>
      simp only [createdBy, VapIsolation.handle, VapManager.process_msg,
        VapManager.create_remote_vap]
      cases m.get_remote_vap_by_neighbor config.peer with
      | some v => simpa using h
      | none => exact (h.generate rfl rfl rfl rfl).congr rfl rfl rfl rfl
    | remote_vap_create_completed config =>
      simp only [createdBy, List.append_nil, VapIsolation.handle, VapManager.process_msg,
        VapManager.complete_local_vap]
      cases m.get_local_vap_by_neighbor config.peer with
      | none => exact h
      | some v => exact h.congr rfl rfl rfl rfl

theorem created_numbered (hostname : String) (events : List Event) :
    Numbered (created hostname events) (run hostname events) := by
  induction events using List.reverseRecOn with
  | nil => exact ⟨rfl, rfl, rfl, rfl, rfl, rfl, rfl⟩
  | append_singleton events e ih =>
    rw [created_append, run_append]
    exact ih.handle e

end Creation

section Lists

variable {vaps : List Vap} {neighbor : String} {v : Vap} {f : Vap → Vap}

/-- What an update leaves alone in every VAP it leaves alone in the list. -/
theorem map_updateVap {α : Type} (g : Vap → α) (hf : ∀ u, g (f u) = g u) :
    (updateVap neighbor f vaps).map g = vaps.map g := by
  induction vaps with
  | nil => rfl
  | cons u vaps ih =>
    rw [updateVap]
    split
    · simp [hf]
    · simp [ih]

/-- A VAP for a neighbor without one keeps the neighbors of a list distinct. -/
theorem nodup_append_new (h : (vaps.map Vap.neighbor).Nodup)
    (hnone : findVap vaps neighbor = none) (hv : v.neighbor = neighbor) :
    ((vaps ++ [v]).map Vap.neighbor).Nodup := by
  rw [List.map_append, List.map_singleton, hv, List.nodup_append]
  refine ⟨h, List.nodup_singleton neighbor, ?_⟩
  intro n hn n' hn' heq
  obtain ⟨u, hu, rfl⟩ := List.mem_map.mp hn
  have hother := List.find?_eq_none.mp hnone u hu
  rw [List.mem_singleton.mp hn'] at heq
  simp [heq] at hother

end Lists

/-- The lists hold one VAP for a neighbor each, and only VAPs that have been created,
none of them twice. -/
structure Listed (vaps : List Vap) (m : VapManager) : Prop where
  locals : (m.local_vaps.map Vap.neighbor).Nodup
  remotes : (m.remote_vaps.map Vap.neighbor).Nodup
  recorded : ∀ v ∈ m.local_vaps ++ m.remote_vaps, ∃ c ∈ vaps, SameIds c v
  distinct : ((m.local_vaps ++ m.remote_vaps).map Vap.vapId).Nodup

section Lists

variable {vaps : List Vap} {m m' : VapManager} {v : Vap}

/-- The number of a new VAP is in neither list. -/
theorem new_vapId (h : Numbered vaps m) (hl : Listed vaps m) :
    m.vap_id_generator ∉ (m.local_vaps ++ m.remote_vaps).map Vap.vapId := by
  intro hmem
  obtain ⟨u, hu, hid⟩ := List.mem_map.mp hmem
  obtain ⟨c, hc, hsame⟩ := hl.recorded u hu
  have hrange : c.vapId ∈ vaps.map Vap.vapId := List.mem_map_of_mem hc
  rw [h.vapId, List.mem_range, hsame.vapId, hid] at hrange
  omega

theorem distinct_append (h : Numbered vaps m) (hl : Listed vaps m)
    (hid : v.vapId = m.vap_id_generator) :
    (((m.local_vaps ++ m.remote_vaps) ++ [v]).map Vap.vapId).Nodup := by
  rw [List.map_append, List.map_singleton, hid, List.nodup_append]
  refine ⟨hl.distinct, List.nodup_singleton _, ?_⟩
  intro i hi j hj heq
  rw [List.mem_singleton.mp hj] at heq
  exact new_vapId h hl (heq ▸ hi)

theorem Listed.addLocal (h : Numbered vaps m) (hl : Listed vaps m) {neighbor : String}
    (hnone : m.get_local_vap_by_neighbor neighbor = none) (hid : v.vapId = m.vap_id_generator)
    (hneighbor : v.neighbor = neighbor) (hlocal : m'.local_vaps = m.local_vaps ++ [v])
    (hremote : m'.remote_vaps = m.remote_vaps) : Listed (vaps ++ [v]) m' := by
  refine ⟨?_, ?_, ?_, ?_⟩
  · rw [hlocal]
    exact nodup_append_new hl.locals hnone hneighbor
  · rw [hremote]
    exact hl.remotes
  · rw [hlocal, hremote]
    intro u hu
    simp only [List.mem_append, List.mem_singleton] at hu
    rcases hu with (hu | rfl) | hu
    · obtain ⟨c, hc, hsame⟩ := hl.recorded u (List.mem_append_left _ hu)
      exact ⟨c, List.mem_append_left _ hc, hsame⟩
    · exact ⟨u, List.mem_append_right _ (List.mem_singleton_self u), SameIds.refl u⟩
    · obtain ⟨c, hc, hsame⟩ := hl.recorded u (List.mem_append_right _ hu)
      exact ⟨c, List.mem_append_left _ hc, hsame⟩
  · rw [hlocal, hremote]
    have hperm : ((m.local_vaps ++ m.remote_vaps) ++ [v]).Perm
        (m.local_vaps ++ [v] ++ m.remote_vaps) := by
      rw [List.append_assoc, List.append_assoc]
      exact List.Perm.append_left _ List.perm_append_comm
    exact (hperm.map Vap.vapId).nodup_iff.mp (distinct_append h hl hid)

theorem Listed.addRemote (h : Numbered vaps m) (hl : Listed vaps m) {neighbor : String} {c : Vap}
    (hnone : m.get_remote_vap_by_neighbor neighbor = none) (hid : v.vapId = m.vap_id_generator)
    (hneighbor : v.neighbor = neighbor) (hc : SameIds c v) (hlocal : m'.local_vaps = m.local_vaps)
    (hremote : m'.remote_vaps = m.remote_vaps ++ [v]) : Listed (vaps ++ [c]) m' := by
  refine ⟨?_, ?_, ?_, ?_⟩
  · rw [hlocal]
    exact hl.locals
  · rw [hremote]
    exact nodup_append_new hl.remotes hnone hneighbor
  · rw [hlocal, hremote, ← List.append_assoc]
    intro u hu
    rcases List.mem_append.mp hu with hu | hu
    · obtain ⟨c', hc', hsame⟩ := hl.recorded u hu
      exact ⟨c', List.mem_append_left _ hc', hsame⟩
    · rw [List.mem_singleton.mp hu]
      exact ⟨c, List.mem_append_right _ (List.mem_singleton_self c), hc⟩
  · rw [hlocal, hremote, ← List.append_assoc]
    exact distinct_append h hl hid

/-- Local VAPs may go and may be completed. -/
theorem Listed.changeLocal (hl : Listed vaps m)
    (hneighbors : (m'.local_vaps.map Vap.neighbor).Sublist (m.local_vaps.map Vap.neighbor))
    (hids : (m'.local_vaps.map Vap.vapId).Sublist (m.local_vaps.map Vap.vapId))
    (hold : ∀ v ∈ m'.local_vaps, ∃ u ∈ m.local_vaps, SameIds u v)
    (hremote : m'.remote_vaps = m.remote_vaps) : Listed vaps m' := by
  refine ⟨hl.locals.sublist hneighbors, ?_, ?_, ?_⟩
  · rw [hremote]
    exact hl.remotes
  · rw [hremote]
    intro v hv
    rcases List.mem_append.mp hv with hv | hv
    · obtain ⟨u, hu, huv⟩ := hold v hv
      obtain ⟨c, hc, hcu⟩ := hl.recorded u (List.mem_append_left _ hu)
      exact ⟨c, hc, hcu.vapId.trans huv.vapId, hcu.neighbor.trans huv.neighbor,
        hcu.local_tunnel_id.trans huv.local_tunnel_id,
        hcu.local_session_id.trans huv.local_session_id, hcu.sport.trans huv.sport⟩
    · exact hl.recorded v (List.mem_append_right _ hv)
  · have hdistinct := hl.distinct
    rw [List.map_append] at hdistinct
    rw [hremote, List.map_append]
    exact hdistinct.sublist (hids.append_right _)

theorem Listed.handle (h : Numbered vaps m) (hl : Listed vaps m) (e : Event) :
    Listed (vaps ++ createdBy m e) (handle m e) := by
  cases e with
  | newLink neighbor =>
    simp only [createdBy, VapIsolation.handle, VapManager.initialize_local_vap]
    cases hfound : m.get_local_vap_by_neighbor neighbor with
    | some v => simpa using hl
    | none => exact Listed.addLocal h hl hfound rfl rfl rfl rfl
  | linkFailure neighbor =>
    have hsub : (m.remove_vap neighbor).local_vaps.Sublist m.local_vaps := List.eraseP_sublist
    rw [createdBy, List.append_nil]
    exact hl.changeLocal (hsub.map _) (hsub.map _)
      (fun v hv => ⟨v, hsub.subset hv, SameIds.refl v⟩) rfl
  | message msg ifaceName =>
    cases msg with
    | remote_vap_create_request config =>
      simp only [createdBy, VapIsolation.handle, VapManager.process_msg,
        VapManager.create_remote_vap]
      cases hfound : m.get_remote_vap_by_neighbor config.peer with
      | some v => simpa using hl
      | none =>
        exact Listed.addRemote (v := ((m.newVap config.peer).fillRemote config).connect ifaceName
          (setup .remoteVap ifaceName m.p4SwitchManager).1) h hl hfound rfl rfl
          ⟨rfl, rfl, rfl, rfl, rfl⟩ rfl rfl
    | remote_vap_create_completed config =>
      simp only [createdBy, List.append_nil, VapIsolation.handle, VapManager.process_msg,
        VapManager.complete_local_vap]
      cases hfound : m.get_local_vap_by_neighbor config.peer with
      | none => exact hl
      | some v =>
        refine hl.changeLocal ?_ ?_ ?_ rfl
        · dsimp only
          rw [map_updateVap Vap.neighbor (by exact fun _ => rfl)]
        · dsimp only
          rw [map_updateVap Vap.vapId (by exact fun _ => rfl)]
        · intro u hu
          rcases mem_updateVap hu with hold | ⟨w, hw, rfl⟩
          · exact ⟨u, hold, SameIds.refl u⟩
          · exact ⟨w, findVap_mem hw, rfl, rfl, rfl, rfl, rfl⟩

theorem run_listed (hostname : String) (events : List Event) :
    Listed (created hostname events) (run hostname events) := by
  induction events using List.reverseRecOn with
  | nil =>
    refine ⟨List.nodup_nil, List.nodup_nil, ?_, List.nodup_nil⟩
    intro v hv
    cases hv
  | append_singleton events e ih =>
    rw [created_append, run_append]
    exact Listed.handle (created_numbered hostname events) ih e

end Lists

/-- The switch ports are numbered in the order in which they were added, the two
radio interfaces first, and a VAP's port is that of its tunnel interface. -/
structure Ported (m : VapManager) : Prop where
  radio : ∃ tunnels, m.p4SwitchManager.switch.ports = ("hwsim0", 0) :: ("inject0", 1) :: tunnels
  ids : m.p4SwitchManager.switch.ports.map Prod.snd =
    List.range m.p4SwitchManager.port_id_generator
  owned : ∀ v ∈ m.local_vaps ++ m.remote_vaps, ∀ q, v.p4_port_id = some q →
    ∃ name, v.iface_name = some name ∧ (name, q) ∈ m.p4SwitchManager.switch.ports.drop 2

section Ports

variable {m m' : VapManager}

theorem setup_ports (role : Role) (ifaceName : String) (s : P4SwitchManager) :
    (setup role ifaceName s).2.switch.ports = s.switch.ports ++ [(ifaceName, s.port_id_generator)] ∧
      (setup role ifaceName s).2.port_id_generator = s.port_id_generator + 1 := by
  cases role <;> exact ⟨rfl, rfl⟩

/-- A state with the same switch whose VAPs have no ports of their own. -/
theorem Ported.keep (h : Ported m) (hswitch : m'.p4SwitchManager = m.p4SwitchManager)
    (hold : ∀ v ∈ m'.local_vaps ++ m'.remote_vaps, v.p4_port_id = none ∨
      v ∈ m.local_vaps ++ m.remote_vaps) : Ported m' := by
  refine ⟨?_, ?_, ?_⟩
  · rw [hswitch]
    exact h.radio
  · rw [hswitch]
    exact h.ids
  · rw [hswitch]
    intro v hv q hq
    rcases hold v hv with hnone | hmem
    · rw [hnone] at hq
      cases hq
    · exact h.owned v hmem q hq

/-- A tunnel is set up for one VAP, which gets the new port. -/
theorem Ported.setup (h : Ported m) (role : Role) (ifaceName : String)
    (hswitch : m'.p4SwitchManager = (P4Switch.setup role ifaceName m.p4SwitchManager).2)
    (hold : ∀ v ∈ m'.local_vaps ++ m'.remote_vaps, v ∈ m.local_vaps ++ m.remote_vaps ∨
      ∃ u : Vap, v = u.connect ifaceName m.p4SwitchManager.port_id_generator) : Ported m' := by
  obtain ⟨tunnels, hradio⟩ := h.radio
  obtain ⟨hports, hnext⟩ := setup_ports role ifaceName m.p4SwitchManager
  have hdrop : (m.p4SwitchManager.switch.ports ++
      [(ifaceName, m.p4SwitchManager.port_id_generator)]).drop 2 =
        m.p4SwitchManager.switch.ports.drop 2 ++
          [(ifaceName, m.p4SwitchManager.port_id_generator)] := by
    rw [hradio]
    rfl
  refine ⟨?_, ?_, ?_⟩
  · rw [hswitch, hports, hradio]
    exact ⟨_, rfl⟩
  · rw [hswitch, hports, hnext, List.range_succ, List.map_append, h.ids]
    rfl
  · rw [hswitch, hports, hdrop]
    intro v hv q hq
    rcases hold v hv with hmem | ⟨u, rfl⟩
    · obtain ⟨name, hname, hin⟩ := h.owned v hmem q hq
      exact ⟨name, hname, List.mem_append_left _ hin⟩
    · obtain rfl := Option.some.inj hq
      exact ⟨ifaceName, rfl, List.mem_append_right _ (List.mem_singleton_self _)⟩

theorem Ported.handle (h : Ported m) (e : Event) : Ported (handle m e) := by
  cases e with
  | newLink neighbor =>
    simp only [VapIsolation.handle, VapManager.initialize_local_vap]
    cases m.get_local_vap_by_neighbor neighbor with
    | some v => exact h
    | none =>
      refine h.keep rfl ?_
      intro v hv
      simp only [List.mem_append, List.mem_singleton] at hv
      rcases hv with (hv | rfl) | hv
      · exact Or.inr (List.mem_append_left _ hv)
      · exact Or.inl rfl
      · exact Or.inr (List.mem_append_right _ hv)
  | linkFailure neighbor =>
    refine h.keep rfl ?_
    intro v hv
    rcases List.mem_append.mp hv with hv | hv
    · exact Or.inr (List.mem_append_left _ (List.mem_of_mem_eraseP hv))
    · exact Or.inr (List.mem_append_right _ hv)
  | message msg ifaceName =>
    cases msg with
    | remote_vap_create_request config =>
      simp only [VapIsolation.handle, VapManager.process_msg, VapManager.create_remote_vap]
      cases m.get_remote_vap_by_neighbor config.peer with
      | some v => exact h
      | none =>
        refine h.setup .remoteVap ifaceName rfl ?_
        intro v hv
        dsimp only at hv
        rw [← List.append_assoc, List.mem_append, List.mem_singleton] at hv
        rcases hv with hv | rfl
        · exact Or.inl hv
        · exact Or.inr ⟨_, rfl⟩
    | remote_vap_create_completed config =>
      simp only [VapIsolation.handle, VapManager.process_msg, VapManager.complete_local_vap]
      cases m.get_local_vap_by_neighbor config.peer with
      | none => exact h
      | some _ =>
        refine h.setup .localVap ifaceName rfl ?_
        intro v hv
        rcases List.mem_append.mp hv with hv | hv
        · rcases mem_updateVap hv with hold | ⟨u, -, rfl⟩
          · exact Or.inl (List.mem_append_left _ hold)
          · exact Or.inr ⟨_, rfl⟩
        · exact Or.inl (List.mem_append_right _ hv)

theorem run_ported (hostname : String) (events : List Event) : Ported (run hostname events) := by
  induction events using List.reverseRecOn with
  | nil =>
    refine ⟨⟨[], rfl⟩, rfl, ?_⟩
    intro v hv
    cases hv
  | append_singleton events e ih =>
    rw [run_append]
    exact ih.handle e

/-- A port of a tunnel comes after the two radio ports. -/
theorem Ported.two_le (h : Ported m) {name : String} {q : ℕ}
    (hq : (name, q) ∈ m.p4SwitchManager.switch.ports.drop 2) : 2 ≤ q := by
  have hmem : q ∈ (m.p4SwitchManager.switch.ports.map Prod.snd).drop 2 := by
    rw [← List.map_drop]
    exact List.mem_map.mpr ⟨(name, q), hq, rfl⟩
  rw [h.ids] at hmem
  obtain ⟨i, hi, hget⟩ := List.mem_iff_getElem.mp hmem
  rw [List.getElem_drop, List.getElem_range] at hget
  omega

end Ports

/-- Identifiers are unique. Whatever VAPs an access point has created, completed and
removed, and in whatever order: no two VAPs ever created share a number, a
tunnel id, a session id or a UDP port; the lists hold at most one VAP for a
neighbor each, all of them created here; hwsim0 and inject0 are the ports 0 and
1, no port belongs to two interfaces, and the tunnel ports of the VAPs come
after these two. -/
theorem identifiers_unique (hostname : String) (events : List Event) :
    ((created hostname events).map Vap.vapId).Nodup ∧
      ((created hostname events).map Vap.local_tunnel_id).Nodup ∧
      ((created hostname events).map Vap.local_session_id).Nodup ∧
      ((created hostname events).map Vap.sport).Nodup ∧
      (∀ v ∈ (run hostname events).local_vaps ++ (run hostname events).remote_vaps,
        ∃ c ∈ created hostname events, SameIds c v) ∧
      ((run hostname events).local_vaps.map Vap.neighbor).Nodup ∧
      ((run hostname events).remote_vaps.map Vap.neighbor).Nodup ∧
      (∃ tunnels, (run hostname events).p4SwitchManager.switch.ports =
          ("hwsim0", 0) :: ("inject0", 1) :: tunnels ∧
        (∀ name q, (name, q) ∈ tunnels → 2 ≤ q) ∧
        ∀ v ∈ (run hostname events).local_vaps ++ (run hostname events).remote_vaps, ∀ q,
          v.p4_port_id = some q → ∃ name, v.iface_name = some name ∧ (name, q) ∈ tunnels) ∧
      ((run hostname events).p4SwitchManager.switch.ports.map Prod.snd).Nodup := by
  have hn := created_numbered hostname events
  have hl := run_listed hostname events
  have hp := run_ported hostname events
  obtain ⟨tunnels, hradio⟩ := hp.radio
  have hdrop : (run hostname events).p4SwitchManager.switch.ports.drop 2 = tunnels := by
    rw [hradio]
    rfl
  refine ⟨?_, ?_, ?_, ?_, hl.recorded, hl.locals, hl.remotes, ⟨tunnels, hradio, ?_, ?_⟩, ?_⟩
  · rw [hn.vapId]
    exact List.nodup_range
  · rw [hn.tunnel]
    exact numbers_nodup 1000 _
  · rw [hn.session]
    exact numbers_nodup 1000 _
  · rw [hn.sport]
    exact numbers_nodup 5001 _
  · intro name q hq
    rw [← hdrop] at hq
    exact hp.two_le hq
  · rw [← hdrop]
    exact hp.owned
  · rw [hp.ids]
    exact List.nodup_range

end Nxwlan.VapIds
