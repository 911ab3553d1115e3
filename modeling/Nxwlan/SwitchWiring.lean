import Nxwlan.P4Switch

/-!
What the tables of the switch hold after any sequence of VAP setups. All VAPs
share one port generator and one forwarding table of 32 entries; an entry for
a key that has one, or for a full table, is rejected. Each entry still leads
from a port to one that its owner may talk to, and to a port that has an entry
in the egress table.
-/
namespace Nxwlan.SwitchWiring

open SwitchParser P4Switch ExactTables

/-- The role of the VAP that owns a port; the two radio ports have none. -/
def roleOf (roles : List Role) (port : ℕ) : Option Role :=
  if 2 ≤ port then roles[port - 2]? else none

/-- The pairs of ports that may be wired: hwsim0 with the tunnels of local VAPs, and
inject0 with those of remote VAPs. -/
def Allowed (roles : List Role) (p q : ℕ) : Prop :=
  (p = 0 ∧ roleOf roles q = some .localVap) ∨ (p = 1 ∧ roleOf roles q = some .remoteVap) ∨
    (roleOf roles p = some .localVap ∧ q = 0) ∨ (roleOf roles p = some .remoteVap ∧ q = 1)

theorem roleOf_append {roles : List Role} {port : ℕ} {r : Role} (role : Role)
    (h : roleOf roles port = some r) : roleOf (roles ++ [role]) port = some r := by
  unfold roleOf at h ⊢
  split at h
  · rename_i hport
    rw [if_pos hport, List.getElem?_append_left (List.getElem?_eq_some_iff.mp h).1]
    exact h
  · simp at h

theorem roleOf_new (roles : List Role) (role : Role) :
    roleOf (roles ++ [role]) (roles.length + 2) = some role := by
  simp [roleOf]

/-- A setup gives its role to the new port and no other. -/
theorem roleOf_append_iff {roles : List Role} {role r : Role} {port : ℕ} :
    roleOf (roles ++ [role]) port = some r ↔
      roleOf roles port = some r ∨ (port = roles.length + 2 ∧ r = role) := by
  constructor
  · intro h
    by_cases hnew : port = roles.length + 2
    · subst hnew
      rw [roleOf_new, Option.some.injEq] at h
      exact Or.inr ⟨rfl, h.symm⟩
    · left
      unfold roleOf at h ⊢
      split at h
      · rename_i hport
        have hlt := (List.getElem?_eq_some_iff.mp h).1
        rw [List.length_append, List.length_singleton] at hlt
        rw [List.getElem?_append_left (by omega)] at h
        rwa [if_pos hport]
      · simp at h
  · rintro (h | ⟨rfl, rfl⟩)
    · exact roleOf_append role h
    · exact roleOf_new roles r

theorem allowed_append {roles : List Role} {p q : ℕ} (role : Role) (h : Allowed roles p q) :
    Allowed (roles ++ [role]) p q := by
  rcases h with ⟨rfl, h⟩ | ⟨rfl, h⟩ | ⟨h, rfl⟩ | ⟨h, rfl⟩
  · exact Or.inl ⟨rfl, roleOf_append role h⟩
  · exact Or.inr (Or.inl ⟨rfl, roleOf_append role h⟩)
  · exact Or.inr (Or.inr (Or.inl ⟨roleOf_append role h, rfl⟩))
  · exact Or.inr (Or.inr (Or.inr ⟨roleOf_append role h, rfl⟩))

/-- The invariant of the two tables that setups change. `n` ports are in use; a
setup adds at least one forwarding entry as long as there is room, so that
only ports below 34 are ever forwarding targets. -/
structure Wires (roles : List Role) (n : ℕ) (t : Table ℕ Action 32) : Prop where
  miss : t.default_action = some ._drop
  entry : ∀ p a, t.entries.lookup p = some a →
    p < n ∧ ∃ q, a = .send_to_port q ∧ q < n ∧ q < 34 ∧ Allowed roles p q

structure Headers (n : ℕ) (t : Table ℕ Action 128) : Prop where
  entry : ∀ p a, t.entries.lookup p = some a → p < n ∧ p < 128
  count : t.count = min n 128
  port : ∀ p < n, p < 128 →
    t.entries.lookup p = some (if p < 2 then .remove_eth_header else .add_eth_header)

structure Wiring (roles : List Role) (m : P4SwitchManager) : Prop where
  next : m.port_id_generator = roles.length + 2
  wires : Wires roles (roles.length + 2) m.switch.table_wire_ports
  room : m.switch.table_wire_ports.count < 32 →
    roles.length ≤ m.switch.table_wire_ports.count
  headers : Headers (roles.length + 2) m.switch.table_modify_ethernet_header
  tx : m.switch.table_drop_tx_frames_from_monitor =
    started.switch.table_drop_tx_frames_from_monitor
  beacons : m.switch.table_drop_rx_beacons = started.switch.table_drop_rx_beacons
  control : m.switch.table_drop_control_frames = started.switch.table_drop_control_frames

section Setup

variable {roles : List Role} {m : P4SwitchManager} {n : ℕ}

theorem wires_grow {t : Table ℕ Action 32} (role : Role) (h : Wires roles n t) :
    Wires (roles ++ [role]) (n + 1) t := by
  refine ⟨h.miss, fun p a hp => ?_⟩
  obtain ⟨hlt, q, hq, hqn, hq34, hallow⟩ := h.entry p a hp
  exact ⟨by omega, q, hq, by omega, hq34, allowed_append role hallow⟩

/-- One `table_add` of a setup. -/
theorem wires_add {t : Table ℕ Action 32} {p q : ℕ} (h : Wires roles n t) (hp : p < n)
    (hq : q < n) (hsmall : t.count < 32 → q < 34) (hallow : Allowed roles p q) :
    Wires roles n (t.add p (.send_to_port q)) := by
  refine ⟨by rw [Table.add_default_action, h.miss], fun p' a hlook => ?_⟩
  rcases Table.lookup_add t hlook with hold | ⟨rfl, rfl, -, hroom⟩
  · exact h.entry p' a hold
  · exact ⟨hp, q, rfl, hq, hsmall hroom, hallow⟩

/-- The entry of a new port; the first two ports are the radio ports. -/
theorem headers_add {t : Table ℕ Action 128} (h : Headers n t) :
    Headers (n + 1) (t.add n (if n < 2 then .remove_eth_header else .add_eth_header)) := by
  have hcount := h.count
  have hfresh : n ∉ t.entries := by
    intro hmem
    obtain ⟨a, ha⟩ := Option.isSome_iff_exists.mp (AList.lookup_isSome.mpr hmem)
    exact absurd (h.entry n a ha).1 (by omega)
  refine ⟨?_, ?_, ?_⟩
  · intro p a hlook
    rcases Table.lookup_add t hlook with hold | ⟨rfl, -, -, hroom⟩
    · have := h.entry p a hold
      omega
    · omega
  · rcases Nat.lt_or_ge t.count 128 with hroom | hfull
    · rw [Table.count_add_of_fresh t _ hfresh hroom]
      omega
    · rw [Table.add_of_full t hfull]
      omega
  · intro p hp hp128
    rcases Nat.lt_or_ge p n with hold | hnew
    · exact Table.lookup_add_of_some t (h.port p hold hp128)
    · obtain rfl : p = n := by omega
      rw [Table.add_of_fresh t hfresh (by omega), AList.lookup_insert]

theorem started_wiring : Wiring [] started := by
  have hempty : Headers 0 ({ default_action := some ._drop } : Table ℕ Action 128) := by
    refine ⟨fun p a h => ?_, rfl, fun p hp => absurd hp (by omega)⟩
    simp at h
  refine ⟨rfl, ⟨rfl, fun p a h => ?_⟩, fun _ => Nat.zero_le _, headers_add (headers_add hempty),
    rfl, rfl, rfl⟩
  have hnone : started.switch.table_wire_ports.entries = ∅ := rfl
  rw [hnone, AList.lookup_empty] at h
  simp at h

/-- A new port has no forwarding entry yet. -/
theorem new_port_free {t : Table ℕ Action 32} (h : Wires roles n t) : n ∉ t.entries := by
  intro hmem
  obtain ⟨a, ha⟩ := Option.isSome_iff_exists.mp (AList.lookup_isSome.mpr hmem)
  have := (h.entry n a ha).1
  omega

/-- The forwarding entries of one setup, in the order in which they are added. -/
def forward (role : Role) (n : ℕ) (t : Table ℕ Action 32) : Table ℕ Action 32 :=
  match role with
  | .localVap => (t.add 0 (.send_to_port n)).add n (.send_to_port 0)
  | .remoteVap => (t.add n (.send_to_port 1)).add 1 (.send_to_port n)

theorem wires_forward {t : Table ℕ Action 32} (role : Role) (h : Wires roles (roles.length + 2) t)
    (hroom : t.count < 32 → roles.length ≤ t.count) :
    Wires (roles ++ [role]) (roles.length + 2 + 1) (forward role (roles.length + 2) t) := by
  have hgrow := wires_grow role h
  have hnew := roleOf_new roles role
  cases role with
  | localVap =>
    have hfirst := wires_add hgrow (p := 0) (q := roles.length + 2) (by omega) (by omega)
      (fun hlt => by
        have := hroom hlt
        omega) (Or.inl ⟨rfl, hnew⟩)
    exact wires_add hfirst (by omega) (by omega) (fun _ => by omega)
      (Or.inr (Or.inr (Or.inl ⟨hnew, rfl⟩)))
  | remoteVap =>
    have hfirst := wires_add hgrow (p := roles.length + 2) (q := 1) (by omega) (by omega)
      (fun _ => by omega) (Or.inr (Or.inr (Or.inr ⟨hnew, rfl⟩)))
    refine wires_add hfirst (by omega) (by omega) (fun hlt => ?_) (Or.inr (Or.inl ⟨rfl, hnew⟩))
    have hle := Table.count_le_count_add t (roles.length + 2) (Action.send_to_port 1)
    have := hroom (by omega)
    omega

/-- As long as there is room a setup adds an entry for its own port. -/
theorem count_forward {t : Table ℕ Action 32} (role : Role) (hpos : 0 < n) (hfree : n ∉ t.entries)
    (hlt : (forward role n t).count < 32) : t.count + 1 ≤ (forward role n t).count := by
  cases role with
  | localVap =>
    have hle := Table.count_le_count_add t 0 (Action.send_to_port n)
    have hle' := Table.count_le_count_add (t.add 0 (.send_to_port n)) n (Action.send_to_port 0)
    have hfree' : n ∉ (t.add 0 (.send_to_port n)).entries := by
      rw [← AList.lookup_eq_none, Table.lookup_add_of_ne t _ (by omega : n ≠ 0),
        AList.lookup_eq_none]
      exact hfree
    simp only [forward] at hlt ⊢
    rw [Table.count_add_of_fresh _ _ hfree' (by omega)]
    omega
  | remoteVap =>
    have hle := Table.count_le_count_add t n (Action.send_to_port 1)
    have hle' := Table.count_le_count_add (t.add n (.send_to_port 1)) 1 (Action.send_to_port n)
    simp only [forward] at hlt ⊢
    rw [Table.count_add_of_fresh t _ hfree (by omega)] at hle'
    exact hle'

/-- A setup changes the forwarding table by its two entries. -/
theorem setup_forward (h : Wiring roles m) (role : Role) (ifaceName : String) :
    (setup role ifaceName m).2.switch.table_wire_ports =
      forward role (roles.length + 2) m.switch.table_wire_ports := by
  rw [← h.next]
  cases role <;> rfl

theorem setup_wiring (h : Wiring roles m) (role : Role) (ifaceName : String) :
    Wiring (roles ++ [role]) (setup role ifaceName m).2 := by
  have hlen : (roles ++ [role]).length + 2 = roles.length + 2 + 1 := by simp
  have hwire := setup_forward h role ifaceName
  have hheader : (setup role ifaceName m).2.switch.table_modify_ethernet_header =
      m.switch.table_modify_ethernet_header.add (roles.length + 2) .add_eth_header := by
    rw [← h.next]
    cases role <;> rfl
  refine ⟨?_, ?_, ?_, ?_, ?_, ?_, ?_⟩
  · rw [hlen, ← h.next]
    cases role <;> rfl
  · rw [hlen, hwire]
    exact wires_forward role h.wires h.room
  · rw [hwire]
    intro hlt
    have hcount := count_forward role (by omega) (new_port_free h.wires) hlt
    have := h.room (by omega)
    rw [List.length_append, List.length_singleton]
    omega
  · rw [hlen, hheader]
    have hadd := headers_add h.headers
    rwa [if_neg (by omega : ¬ roles.length + 2 < 2)] at hadd
  · rw [← h.tx]
    cases role <;> rfl
  · rw [← h.beacons]
    cases role <;> rfl
  · rw [← h.control]
    cases role <;> rfl

theorem programmed_wiring (h : Programmed roles m) : Wiring roles m := by
  induction h with
  | started => exact started_wiring
  | setup _ role ifaceName ih => exact setup_wiring ih role ifaceName

end Setup

end Nxwlan.SwitchWiring
