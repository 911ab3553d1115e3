import Nxwlan.VapIds

/-!
What becomes of the messages of a VAP setup that come more than once. A request
is answered only while the access point has no remote VAP for its sender, and
nothing ever removes a remote VAP: only the first request of a neighbor has an
effect. An answer, on the other hand, has its effect each time: it sets up a
tunnel for the local VAP of its sender even if this has one.
-/
namespace Nxwlan.VapSetups

open PyText P4Switch Vaps VapIsolation VapIds

section Requests

/-- A processed request is answered with one message to its sender, and the remote VAP
for the sender points at the tunnel, the session and the port of this request. -/
def Answered (m : VapManager) (config : Config) (ifaceName : String) : Prop :=
  let r := m.process_msg (.remote_vap_create_request config) ifaceName
  (∃ answer, r.2 = [(config.peer, .remote_vap_create_completed answer)]) ∧
    ∃ vap, r.1.get_remote_vap_by_neighbor config.peer = some vap ∧
      vap.remote_tunnel_id = some (showInt config.local_tunnel_id) ∧
      vap.remote_session_id = some (showInt config.local_session_id) ∧
      vap.dport = some (showInt config.sport)

variable {m : VapManager} {config : Config} {ifaceName : String}

/-- The request of 10.0.0.1 with the given ids. -/
def sampleRequest (tunnel session port : ℤ) : Config where
  peer := "10.0.0.1"
  local_tunnel_id := tunnel
  remote_tunnel_id := none
  local_ip_address := "10.0.0.1"
  remote_ip_address := "10.0.0.2"
  sport := port
  dport := none
  local_session_id := session
  remote_session_id := none

end Requests

section Setups

/-- The numbers of the VAPs that an event sets up: those that have got the next switch
port. -/
def setUpBy (m : VapManager) (e : Event) : List ℕ :=
  ((handle m e).local_vaps ++ (handle m e).remote_vaps).filterMap (fun v =>
    if v.p4_port_id = some m.p4SwitchManager.port_id_generator then some v.vapId else none)

def setUpFrom (m : VapManager) : List Event → List ℕ
  | [] => []
  | e :: rest => setUpBy m e ++ setUpFrom (handle m e) rest

/-- The VAPs that tunnels have been set up for, in order. -/
def setups (hostname : String) (events : List Event) : List ℕ :=
  setUpFrom { hostname := hostname } events

theorem setUpFrom_append (m : VapManager) (pre post : List Event) :
    setUpFrom m (pre ++ post) = setUpFrom m pre ++ setUpFrom (pre.foldl handle m) post := by
  induction pre generalizing m with
  | nil => rfl
  | cons e rest ih => simp [setUpFrom, ih]

theorem setups_append (hostname : String) (events : List Event) (e : Event) :
    setups hostname (events ++ [e]) = setups hostname events ++ setUpBy (run hostname events) e := by
  rw [setups, setUpFrom_append]
  simp [setups, setUpFrom, run]

variable {m : VapManager} {e : Event} {v : Vap}

/-- No VAP has the next port yet. -/
theorem Ported.next_free (h : Ported m) (hv : v ∈ m.local_vaps ++ m.remote_vaps) :
    v.p4_port_id ≠ some m.p4SwitchManager.port_id_generator := by
  intro hport
  obtain ⟨name, -, hmem⟩ := h.owned v hv _ hport
  have hid : m.p4SwitchManager.port_id_generator ∈
      m.p4SwitchManager.switch.ports.map Prod.snd :=
    List.mem_map.mpr ⟨_, List.mem_of_mem_drop hmem, rfl⟩
  rw [h.ids, List.mem_range] at hid
  omega

/-- An event after which every VAP has no port or its old one sets up nothing. -/
theorem setUpBy_nil (h : Ported m)
    (hold : ∀ v ∈ (handle m e).local_vaps ++ (handle m e).remote_vaps, v.p4_port_id = none ∨
      v ∈ m.local_vaps ++ m.remote_vaps) : setUpBy m e = [] := by
  rw [setUpBy, List.filterMap_eq_nil_iff]
  intro v hv
  rw [if_neg]
  rcases hold v hv with hnone | hmem
  · rw [hnone]
    simp
  · exact Ported.next_free h hmem

theorem filterMap_updateVap {β : Type} {g : Vap → Option β} {f : Vap → Vap} {vaps : List Vap}
    {neighbor : String} {b : β} (hnone : ∀ u ∈ vaps, g u = none)
    (hfound : findVap vaps neighbor = some v) (hg : g (f v) = some b) :
    (updateVap neighbor f vaps).filterMap g = [b] := by
  induction vaps with
  | nil => simp [findVap] at hfound
  | cons u vaps ih =>
    have htail : ∀ w ∈ vaps, g w = none := fun w hw => hnone w (List.mem_cons_of_mem u hw)
    by_cases hu : u.neighbor = neighbor
    · obtain rfl : u = v := by simpa [findVap, hu] using hfound
      rw [updateVap, if_pos hu, List.filterMap_cons_some hg,
        List.filterMap_eq_nil_iff.mpr htail]
    · have hrest : findVap vaps neighbor = some v := by simpa [findVap, hu] using hfound
      rw [updateVap, if_neg hu, List.filterMap_cons_none (hnone u List.mem_cons_self)]
      exact ih htail hrest

/-- All VAPs of an access point. -/
def allVaps (m : VapManager) : List Vap := m.local_vaps ++ m.remote_vaps

/-- An answer finds no local VAP for its sender, or one that has no tunnel yet. -/
def FindsUnconnected (m : VapManager) : Event → Prop
  | .message (.remote_vap_create_completed config) _ =>
      ∀ v, m.get_local_vap_by_neighbor config.peer = some v → v.p4_port_id = none
  | _ => True

/-- What an event sets up. It opens no port; it is a request and creates a remote VAP;
or it is an answer and opens a port for the local VAP of its sender. -/
inductive SetsUp (m : VapManager) : Event → Prop
  | nothing {e : Event} (hfinds : FindsUnconnected m e) (hnone : setUpBy m e = [])
      (hvaps : ∀ v ∈ allVaps (handle m e), v ∈ allVaps m ∨
        (v.vapId = m.vap_id_generator ∧ v.p4_port_id = none)) : SetsUp m e
  | remote {e : Event} (hfinds : FindsUnconnected m e)
      (hone : setUpBy m e = [m.vap_id_generator])
      (hnext : m.vap_id_generator < (handle m e).vap_id_generator)
      (hvaps : ∀ v ∈ allVaps (handle m e), v ∈ allVaps m ∨
        (v.vapId = m.vap_id_generator ∧ v.p4_port_id.isSome = true)) : SetsUp m e
  | answer {config : Config} {ifaceName : String} {u w : Vap}
      (hfound : m.get_local_vap_by_neighbor config.peer = some u)
      (hone : setUpBy m (.message (.remote_vap_create_completed config) ifaceName) = [u.vapId])
      (hid : w.vapId = u.vapId) (hport : w.p4_port_id.isSome = true)
      (hnew : w ∈ allVaps (handle m (.message (.remote_vap_create_completed config) ifaceName)))
      (hvaps : ∀ v ∈ allVaps (handle m (.message (.remote_vap_create_completed config) ifaceName)),
        v ∈ allVaps m ∨ v = w) : SetsUp m (.message (.remote_vap_create_completed config) ifaceName)

theorem SetsUp.of_same (h : Ported m) (hfinds : FindsUnconnected m e) (hsame : handle m e = m) :
    SetsUp m e := by
  refine .nothing hfinds (setUpBy_nil h ?_) ?_
  · rw [hsame]
    exact fun v hv => Or.inr hv
  · rw [hsame]
    exact fun v hv => Or.inl hv

theorem SetsUp.of_newLink (h : Ported m) (neighbor : String) : SetsUp m (.newLink neighbor) := by
  have hvaps : ∀ v ∈ allVaps (handle m (.newLink neighbor)), v ∈ allVaps m ∨
      (v.vapId = m.vap_id_generator ∧ v.p4_port_id = none) := by
    simp only [handle, VapManager.initialize_local_vap]
    cases m.get_local_vap_by_neighbor neighbor with
    | some u => exact fun v hv => Or.inl hv
    | none =>
      intro v hv
      simp only [allVaps, List.mem_append, List.mem_singleton] at hv ⊢
      rcases hv with (hv | rfl) | hv
      · exact Or.inl (Or.inl hv)
      · exact Or.inr ⟨rfl, rfl⟩
      · exact Or.inl (Or.inr hv)
  exact .nothing trivial (setUpBy_nil h fun v hv => (hvaps v hv).symm.imp_left And.right) hvaps

theorem SetsUp.of_linkFailure (h : Ported m) (neighbor : String) :
    SetsUp m (.linkFailure neighbor) := by
  have hvaps : ∀ v ∈ allVaps (handle m (.linkFailure neighbor)), v ∈ allVaps m := by
    intro v hv
    rcases List.mem_append.mp hv with hv | hv
    · exact List.mem_append_left _ (List.mem_of_mem_eraseP hv)
    · exact List.mem_append_right _ hv
  exact .nothing trivial (setUpBy_nil h fun v hv => Or.inr (hvaps v hv))
    (fun v hv => Or.inl (hvaps v hv))

theorem SetsUp.of_request (h : Ported m) (config : Config) (ifaceName : String) :
    SetsUp m (.message (.remote_vap_create_request config) ifaceName) := by
  cases hfound : m.get_remote_vap_by_neighbor config.peer with
  | some u =>
    refine .of_same h trivial ?_
    simp only [handle, VapManager.process_msg, VapManager.create_remote_vap, hfound]
  | none =>
    obtain ⟨new, hnew, hid, hport⟩ : ∃ new : Vap,
        allVaps (handle m (.message (.remote_vap_create_request config) ifaceName)) =
          allVaps m ++ [new] ∧ new.vapId = m.vap_id_generator ∧
          new.p4_port_id = some m.p4SwitchManager.port_id_generator := by
      simp only [handle, VapManager.process_msg, VapManager.create_remote_vap, hfound]
      exact ⟨_, (List.append_assoc _ _ _).symm, rfl, rfl⟩
    refine .remote trivial ?_ ?_ ?_
    · have hold : (allVaps m).filterMap (fun v =>
          if v.p4_port_id = some m.p4SwitchManager.port_id_generator then some v.vapId
          else none) = [] := by
        rw [List.filterMap_eq_nil_iff]
        exact fun v hv => if_neg (Ported.next_free h hv)
      rw [setUpBy, ← allVaps, hnew, List.filterMap_append, hold]
      simp [hport, hid]
    · simp only [handle, VapManager.process_msg, VapManager.create_remote_vap, hfound,
        VapManager.generate]
      omega
    · rw [hnew]
      intro v hv
      rcases List.mem_append.mp hv with hv | hv
      · exact Or.inl hv
      · rw [List.mem_singleton.mp hv, hport]
        exact Or.inr ⟨hid, rfl⟩

theorem SetsUp.of_answer (h : Ported m) (config : Config) (ifaceName : String) :
    SetsUp m (.message (.remote_vap_create_completed config) ifaceName) := by
  cases hfound : m.get_local_vap_by_neighbor config.peer with
  | none =>
    refine .of_same h (fun v hv => ?_) ?_
    · rw [hfound] at hv
      cases hv
    · simp only [handle, VapManager.process_msg, VapManager.complete_local_vap, hfound]
  | some u =>
    have hlocal : (handle m (.message (.remote_vap_create_completed config)
        ifaceName)).local_vaps = updateVap config.peer (fun vap =>
          (vap.fillRemote config).connect ifaceName m.p4SwitchManager.port_id_generator)
          m.local_vaps := by
      simp only [handle, VapManager.process_msg, VapManager.complete_local_vap, hfound]
      rfl
    have hremote : (handle m (.message (.remote_vap_create_completed config)
        ifaceName)).remote_vaps = m.remote_vaps := by
      simp only [handle, VapManager.process_msg, VapManager.complete_local_vap, hfound]
    have hold : ∀ v ∈ allVaps m,
        (if v.p4_port_id = some m.p4SwitchManager.port_id_generator then some v.vapId
          else none) = none := fun v hv => if_neg (Ported.next_free h hv)
    refine .answer hfound ?_ (w := (u.fillRemote config).connect ifaceName
      m.p4SwitchManager.port_id_generator) rfl rfl ?_ ?_
    · rw [setUpBy, hlocal, hremote, List.filterMap_append,
        filterMap_updateVap (fun v hv => hold v (List.mem_append_left _ hv)) hfound (if_pos rfl),
        List.filterMap_eq_nil_iff.mpr (fun v hv => hold v (List.mem_append_right _ hv))]
      rfl
    · rw [allVaps, hlocal]
      exact List.mem_append_left _ (findVap_mem (findVap_updateVap (fun _ => rfl) hfound))
    · rw [allVaps, hlocal, hremote]
      intro v hv
      rcases List.mem_append.mp hv with hv | hv
      · rcases mem_updateVap hv with hv | ⟨w, hw, rfl⟩
        · exact Or.inl (List.mem_append_left _ hv)
        · rw [Option.some.inj (hw.symm.trans hfound)]
          exact Or.inr rfl
      · exact Or.inl (List.mem_append_right _ hv)

theorem setsUp (h : Ported m) (e : Event) : SetsUp m e := by
  cases e with
  | newLink neighbor => exact .of_newLink h neighbor
  | linkFailure neighbor => exact .of_linkFailure h neighbor
  | message msg ifaceName =>
    cases msg with
    | remote_vap_create_request config => exact .of_request h config ifaceName
    | remote_vap_create_completed config => exact .of_answer h config ifaceName

theorem generator_le (m : VapManager) (e : Event) :
    m.vap_id_generator ≤ (handle m e).vap_id_generator := by
  cases e with
  | newLink neighbor =>
    simp only [handle, VapManager.initialize_local_vap]
    split
    · exact le_rfl
    · exact Nat.le_succ _
  | linkFailure neighbor => exact le_rfl
  | message msg ifaceName =>
    cases msg with
    | remote_vap_create_request config =>
      simp only [handle, VapManager.process_msg, VapManager.create_remote_vap]
      split
      · exact le_rfl
      · exact Nat.le_succ _
    | remote_vap_create_completed config =>
      simp only [handle, VapManager.process_msg, VapManager.complete_local_vap]
      split
      · exact le_rfl
      · exact le_rfl

/-- The record of the setups covers the VAPs that have a port, and no VAP of a number
to come. -/
structure Logged (ids : List ℕ) (m : VapManager) : Prop where
  below : ∀ i ∈ ids, i < m.vap_id_generator
  ported : ∀ v ∈ allVaps m, v.vapId ∈ ids ↔ v.p4_port_id.isSome = true

theorem Logged.handle {ids : List ℕ} {vaps : List Vap} (h : Logged ids m) (hn : Numbered vaps m)
    (hl : Listed vaps m) (hl' : Listed (vaps ++ createdBy m e) (handle m e)) (hp : Ported m) :
    Logged (ids ++ setUpBy m e) (handle m e) := by
  have hle := generator_le m e
  have hfresh : m.vap_id_generator ∉ ids := fun hmem => absurd (h.below _ hmem) (by omega)
  cases setsUp hp e with
  | nothing hfinds hnone hvaps =>
    rw [hnone, List.append_nil]
    refine ⟨fun i hi => lt_of_lt_of_le (h.below i hi) hle, fun v hv => ?_⟩
    rcases hvaps v hv with hold | ⟨hid, hport⟩
    · exact h.ported v hold
    · rw [hid, hport]
      simpa using hfresh
  | remote hfinds hone hnext hvaps =>
    rw [hone]
    refine ⟨fun i hi => ?_, fun v hv => ?_⟩
    · rcases List.mem_append.mp hi with hi | hi
      · exact lt_of_lt_of_le (h.below i hi) hle
      · rw [List.mem_singleton.mp hi]
        exact hnext
    · rw [List.mem_append, List.mem_singleton]
      rcases hvaps v hv with hold | ⟨hid, hport⟩
      · have hne : v.vapId ≠ m.vap_id_generator := fun heq =>
          new_vapId hn hl (heq ▸ List.mem_map_of_mem hold)
        simpa [hne] using h.ported v hold
      · simp [hid, hport]
  | @answer config ifaceName u w hfound hone hid hport hnew hvaps =>
    have hu : u ∈ allVaps m := List.mem_append_left _ (findVap_mem hfound)
    rw [hone]
    refine ⟨fun i hi => ?_, fun v hv => ?_⟩
    · rcases List.mem_append.mp hi with hi | hi
      · exact lt_of_lt_of_le (h.below i hi) hle
      · obtain ⟨c, hc, hsame⟩ := hl.recorded u hu
        have hrange : c.vapId ∈ vaps.map Vap.vapId := List.mem_map_of_mem hc
        rw [hn.vapId, List.mem_range, hsame.vapId] at hrange
        rw [List.mem_singleton.mp hi]
        exact lt_of_lt_of_le hrange hle
    · rw [List.mem_append, List.mem_singleton]
      by_cases hvid : v.vapId = u.vapId
      · -- numbers are distinct, so that the VAP of this number is the one set up
        have hvw : v = w := List.inj_on_of_nodup_map hl'.distinct hv hnew (hvid.trans hid.symm)
        simp [hvw, hid, hport]
      · rcases hvaps v hv with hold | rfl
        · simpa [hvid] using h.ported v hold
        · exact absurd hid hvid

theorem run_logged (hostname : String) (events : List Event) :
    Logged (setups hostname events) (run hostname events) := by
  induction events using List.reverseRecOn with
  | nil => exact ⟨by simp [setups, setUpFrom], by simp [run, allVaps]⟩
  | append_singleton events e ih =>
    have hl' := run_listed hostname (events ++ [e])
    rw [created_append, run_append] at hl'
    rw [setups_append, run_append]
    exact ih.handle (created_numbered hostname events) (run_listed hostname events) hl'
      (run_ported hostname events)

/-- An answer for a VAP that has its tunnel changes nothing. -/
def Repeatable (m : VapManager) : Event → Prop
  | .message (.remote_vap_create_completed config) ifaceName =>
      ∀ v, m.get_local_vap_by_neighbor config.peer = some v → v.p4_port_id.isSome = true →
        handle m (.message (.remote_vap_create_completed config) ifaceName) = m
  | _ => True

/-- A further event repeats no setup exactly when it finds its VAP unconnected. -/
theorem nodup_append_iff {ids : List ℕ} (h : Logged ids m) (hp : Ported m) (hids : ids.Nodup)
    (e : Event) : (ids ++ setUpBy m e).Nodup ↔ FindsUnconnected m e := by
  have hsnoc : ∀ i, (ids ++ [i]).Nodup ↔ i ∉ ids := by
    intro i
    rw [← List.concat_eq_append, List.nodup_concat]
    exact and_iff_left hids
  cases setsUp hp e with
  | nothing hfinds hnone hvaps => exact iff_of_true (by rwa [hnone, List.append_nil]) hfinds
  | remote hfinds hone hnext hvaps =>
    refine iff_of_true ?_ hfinds
    rw [hone, hsnoc]
    exact fun hmem => absurd (h.below _ hmem) (by omega)
  | @answer config ifaceName u w hfound hone hid hport hnew hvaps =>
    have hu : u ∈ allVaps m := List.mem_append_left _ (findVap_mem hfound)
    rw [hone, hsnoc, h.ported u hu]
    constructor
    · intro hnone v hv
      rw [hfound, Option.some.injEq] at hv
      rw [← hv]
      simpa using hnone
    · intro hfinds
      rw [hfinds u hfound]
      simp

/-- Setting up once. Over every sequence of link notifications and messages, no VAP is
set up twice, and a further answer for a VAP with a tunnel changes nothing,
exactly when no answer for a VAP with a tunnel is processed: none of them is
without effect. -/
theorem setups_once_iff (hostname : String) (events : List Event) :
    ((setups hostname events).Nodup ∧
      ∀ pre e post, events = pre ++ e :: post → Repeatable (run hostname pre) e) ↔
      ∀ pre e post, events = pre ++ e :: post → FindsUnconnected (run hostname pre) e := by
  constructor
  · rintro ⟨hnodup, -⟩ pre e post rfl
    have hpre : (setups hostname (pre ++ [e])).Nodup := by
      rw [← List.singleton_append, ← List.append_assoc, setups, setUpFrom_append] at hnodup
      exact (List.nodup_append.mp hnodup).1
    rw [setups_append] at hpre
    exact (nodup_append_iff (run_logged hostname pre) (run_ported hostname pre)
      (List.nodup_append.mp hpre).1 e).mp hpre
  · intro hfinds
    refine ⟨?_, ?_⟩
    · induction events using List.reverseRecOn with
      | nil => exact List.nodup_nil
      | append_singleton events e ih =>
        rw [setups_append, nodup_append_iff (run_logged hostname events)
          (run_ported hostname events)]
        · exact hfinds events e [] rfl
        · refine ih fun pre d post heq => hfinds pre d (post ++ [e]) ?_
          simp [heq]
    · intro pre e post heq
      have hfind := hfinds pre e post heq
      cases e with
      | newLink neighbor => trivial
      | linkFailure neighbor => trivial
      | message msg ifaceName =>
        cases msg with
        | remote_vap_create_request config => trivial
        | remote_vap_create_completed config =>
          intro v hv hport
          rw [hfind v hv] at hport
          cases hport

/-- The answer of 10.0.0.2 to the first request of 10.0.0.1. -/
def sampleAnswer : Config where
  peer := "10.0.0.2"
  local_tunnel_id := 1000
  remote_tunnel_id := some "1000".toList
  local_ip_address := "10.0.0.2"
  remote_ip_address := "10.0.0.1"
  sport := 5001
  dport := some "5001".toList
  local_session_id := 1000
  remote_session_id := some "1000".toList

/-- The same answer twice: the local VAP gets a second tunnel and a second port. -/
theorem repeated_answer_sets_up :
    let answer := Event.message (.remote_vap_create_completed sampleAnswer) "l2tpeth0"
    let m := run "10.0.0.1" [.newLink "10.0.0.2", answer]
    setups "10.0.0.1" [.newLink "10.0.0.2", answer, answer] = [0, 0] ∧
      m.p4SwitchManager.switch.ports = [("hwsim0", 0), ("inject0", 1), ("l2tpeth0", 2)] ∧
      (handle m answer).p4SwitchManager.switch.ports =
        [("hwsim0", 0), ("inject0", 1), ("l2tpeth0", 2), ("l2tpeth0", 3)] := by
  decide

end Setups

end Nxwlan.VapSetups
