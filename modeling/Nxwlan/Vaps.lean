import Nxwlan.P4Switch
import Nxwlan.PyText

/-!
`VapManager` of the cran application. An access point asks each new neighbor to
carry a virtual access point for it: both ends of the tunnel draw their own
ids and ports and tell the other end in one message. A reply is matched to a
request by the name of the peer alone. Ids travel as numbers and are kept as
texts at the other end.
-/
namespace Nxwlan.Vaps

open PyText P4Switch

/-- A `VapEntity`. The name of the tunnel interface and the port are set with the
tunnel. -/
structure Vap where
  vapId : ℕ
  neighbor : String
  local_ip_address : String
  local_tunnel_id : ℤ
  local_session_id : ℤ
  sport : ℤ
  remote_ip_address : String
  remote_tunnel_id : Option Text := none
  remote_session_id : Option Text := none
  dport : Option Text := none
  iface_name : Option String := none
  p4_port_id : Option ℕ := none
  deriving DecidableEq

/-- The payload that both messages carry. -/
structure Config where
  peer : String
  local_tunnel_id : ℤ
  remote_tunnel_id : Option Text
  local_ip_address : String
  remote_ip_address : String
  sport : ℤ
  dport : Option Text
  local_session_id : ℤ
  remote_session_id : Option Text
  deriving DecidableEq

inductive Message where
  | remote_vap_create_request (config : Config)
  | remote_vap_create_completed (config : Config)
  deriving DecidableEq

/-- The payload of `request_remote_vap_setup` and of `sent_config_to_local_vap`. -/
def Vap.config (vap : Vap) : Config where
  peer := vap.local_ip_address
  local_tunnel_id := vap.local_tunnel_id
  remote_tunnel_id := vap.remote_tunnel_id
  local_ip_address := vap.local_ip_address
  remote_ip_address := vap.remote_ip_address
  sport := vap.sport
  dport := vap.dport
  local_session_id := vap.local_session_id
  remote_session_id := vap.remote_session_id

/-- The manager together with the application's name and switch. -/
structure VapManager where
  hostname : String
  local_vaps : List Vap := []
  remote_vaps : List Vap := []
  vap_id_generator : ℕ := 0
  tunnel_id_generator : ℤ := 1000
  session_id_generator : ℤ := 1000
  port_generator : ℤ := 5001
  p4SwitchManager : P4SwitchManager := started

/-- The entity with the neighbor's name that comes first. -/
def findVap (vaps : List Vap) (neighbor : String) : Option Vap :=
  vaps.find? (fun vap => vap.neighbor = neighbor)

namespace VapManager

def get_local_vap_by_neighbor (m : VapManager) (neighbor : String) : Option Vap :=
  findVap m.local_vaps neighbor

def get_remote_vap_by_neighbor (m : VapManager) (neighbor : String) : Option Vap :=
  findVap m.remote_vaps neighbor

/-- An entity with a new number, new ids and a new port. -/
def newVap (m : VapManager) (neighbor : String) : Vap where
  vapId := m.vap_id_generator
  neighbor := neighbor
  local_ip_address := m.hostname
  local_tunnel_id := m.tunnel_id_generator
  local_session_id := m.session_id_generator
  sport := m.port_generator
  remote_ip_address := neighbor

def generate (m : VapManager) : VapManager :=
  { m with
    vap_id_generator := m.vap_id_generator + 1
    tunnel_id_generator := m.tunnel_id_generator + 1
    session_id_generator := m.session_id_generator + 1
    port_generator := m.port_generator + 1 }

/-- The messages sent, each with its receiver. -/
def initialize_local_vap (m : VapManager) (neighbor : String) :
    VapManager × List (String × Message) :=
  match m.get_local_vap_by_neighbor neighbor with
  | some _ => (m, [])
  | none =>
      let vap := m.newVap neighbor
      ({ m.generate with local_vaps := m.local_vaps ++ [vap] },
        [(neighbor, .remote_vap_create_request vap.config)])

end VapManager

/-- The remote part of an entity, filled from a received config. -/
def Vap.fillRemote (vap : Vap) (config : Config) : Vap :=
  { vap with
    remote_ip_address := config.peer
    remote_tunnel_id := some (showInt config.local_tunnel_id)
    remote_session_id := some (showInt config.local_session_id)
    dport := some (showInt config.sport) }

def Vap.connect (vap : Vap) (ifaceName : String) (port : ℕ) : Vap :=
  { vap with iface_name := some ifaceName, p4_port_id := some port }

/-- The first entity with the neighbor's name is changed in place. -/
def updateVap (neighbor : String) (f : Vap → Vap) : List Vap → List Vap
  | [] => []
  | vap :: vaps =>
      if vap.neighbor = neighbor then f vap :: vaps else vap :: updateVap neighbor f vaps

namespace VapManager

/-- `ifaceName` is the interface that `setup_local_tunnel` finds. The answer goes
out before the tunnel is there. -/
def create_remote_vap (m : VapManager) (config : Config) (ifaceName : String) :
    VapManager × List (String × Message) :=
  match m.get_remote_vap_by_neighbor config.peer with
  | some _ => (m, [])
  | none =>
      let vap := (m.newVap config.peer).fillRemote config
      let r := setup .remoteVap ifaceName m.p4SwitchManager
      ({ m.generate with
          remote_vaps := m.remote_vaps ++ [vap.connect ifaceName r.1]
          p4SwitchManager := r.2 },
        [(config.peer, .remote_vap_create_completed vap.config)])

def complete_local_vap (m : VapManager) (config : Config) (ifaceName : String) : VapManager :=
  match m.get_local_vap_by_neighbor config.peer with
  | none => m
  | some _ =>
      let r := setup .localVap ifaceName m.p4SwitchManager
      { m with
        local_vaps := updateVap config.peer
          (fun vap => (vap.fillRemote config).connect ifaceName r.1) m.local_vaps
        p4SwitchManager := r.2 }

/-- Only the local entity goes; tunnel, port and table entries stay. -/
def remove_vap (m : VapManager) (neighbor : String) : VapManager :=
  { m with local_vaps := m.local_vaps.eraseP (fun vap => vap.neighbor = neighbor) }

/-- `process_msg` for the two messages of the tunnel setup. -/
def process_msg (m : VapManager) (msg : Message) (ifaceName : String) :
    VapManager × List (String × Message) :=
  match msg with
  | .remote_vap_create_request config => m.create_remote_vap config ifaceName
  | .remote_vap_create_completed config => (m.complete_local_vap config ifaceName, [])

end VapManager

section Lists

variable {neighbor name : String} {vaps : List Vap} {vap : Vap}

theorem findVap_mem (h : findVap vaps neighbor = some vap) : vap ∈ vaps :=
  List.mem_of_find?_eq_some h

theorem findVap_neighbor (h : findVap vaps neighbor = some vap) : vap.neighbor = neighbor := by
  simpa using List.find?_some h

/-- What is found stays found when entities are appended. -/
theorem findVap_append (h : findVap vaps neighbor = some vap) (more : List Vap) :
    findVap (vaps ++ more) neighbor = some vap := by
  rw [findVap, List.find?_append]
  exact Option.or_of_isSome (by rw [← findVap, h]; rfl) |>.trans h

theorem findVap_append_new (h : findVap vaps neighbor = none) (hname : vap.neighbor = neighbor) :
    findVap (vaps ++ [vap]) neighbor = some vap := by
  rw [findVap, List.find?_append, ← findVap, h, Option.none_or]
  simp [hname]

theorem findVap_updateVap {f : Vap → Vap} (hf : ∀ v, (f v).neighbor = v.neighbor)
    (h : findVap vaps neighbor = some vap) :
    findVap (updateVap neighbor f vaps) neighbor = some (f vap) := by
  induction vaps with
  | nil => simp [findVap] at h
  | cons v vaps ih =>
    by_cases hv : v.neighbor = neighbor
    · have hvap : v = vap := by simpa [findVap, hv] using h
      subst hvap
      simp [updateVap, hv, findVap, hf]
    · have htail : findVap vaps neighbor = some vap := by simpa [findVap, hv] using h
      have hih := ih htail
      rw [updateVap, if_neg hv]
      simpa [findVap, hv] using hih

/-- The changed list holds old entities, and the one found in its new form. -/
theorem mem_updateVap {f : Vap → Vap} {v : Vap} (h : v ∈ updateVap neighbor f vaps) :
    v ∈ vaps ∨ ∃ u, findVap vaps neighbor = some u ∧ v = f u := by
  induction vaps with
  | nil => simp [updateVap] at h
  | cons u vaps ih =>
    rw [updateVap] at h
    split at h
    · rename_i hu
      rcases List.mem_cons.mp h with rfl | h
      · exact Or.inr ⟨u, by simp [findVap, hu], rfl⟩
      · exact Or.inl (List.mem_cons_of_mem u h)
    · rename_i hu
      rcases List.mem_cons.mp h with rfl | h
      · exact Or.inl List.mem_cons_self
      · rcases ih h with hold | ⟨w, hw, rfl⟩
        · exact Or.inl (List.mem_cons_of_mem u hold)
        · exact Or.inr ⟨w, by simpa [findVap, hu] using hw, rfl⟩

end Lists

end Nxwlan.Vaps
