import Nxwlan.SwitchParser
import Nxwlan.ExactTables

/-!
The pipelines of the switch program, the way bmv2 runs them, and the commands
that `P4SwitchManager` gives to the switch: the drop rules at its start, the
two radio ports, and for each tunnel one port and two forwarding entries.
-/
namespace Nxwlan.P4Switch

open ByteFields SwitchParser ExactTables

inductive Action where
  | _drop
  | _nop
  | send_to_port (out_port : ℕ)
  | add_eth_header
  | remove_eth_header
  deriving DecidableEq, Repr

/-- The egress_spec of a dropped packet. -/
def DROP_PORT : ℕ := 511

def Packet.setEgressSpec (pkt : Packet) (port : ℕ) : Packet :=
  { pkt with standard_metadata := { pkt.standard_metadata with egress_spec := port } }

section EgressSpec

variable (pkt : Packet) (port : ℕ)

@[simp] theorem Packet.setEgressSpec_ingress_port :
    (Packet.setEgressSpec pkt port).standard_metadata.ingress_port =
      pkt.standard_metadata.ingress_port := rfl

@[simp] theorem Packet.setEgressSpec_egress_spec :
    (Packet.setEgressSpec pkt port).standard_metadata.egress_spec = port := rfl

@[simp] theorem Packet.setEgressSpec_radiotap_metadata :
    (Packet.setEgressSpec pkt port).radiotap_metadata = pkt.radiotap_metadata := rfl

@[simp] theorem Packet.setEgressSpec_dot11_fc_metadata :
    (Packet.setEgressSpec pkt port).dot11_fc_metadata = pkt.dot11_fc_metadata := rfl

end EgressSpec

def Action.run (a : Action) (pkt : Packet) : Packet :=
  match a with
  | _drop => Packet.setEgressSpec pkt DROP_PORT
  | _nop => pkt
  | send_to_port out_port => Packet.setEgressSpec pkt out_port
  | add_eth_header =>
      let fc := pkt.dot11_fc_metadata
      { pkt with ethernet := some ⟨fc.da, fc.sa, CRAN_RADIO_TAP⟩ }
  | remove_eth_header => { pkt with ethernet := none }

/-- The tables that the pipelines apply, and the interfaces of the ports. -/
structure Switch where
  ports : List (String × ℕ) := []
  table_wire_ports : Table ℕ Action 32 := {}
  table_drop_tx_frames_from_monitor : Table (ℕ × ℕ) Action 32 := {}
  table_drop_rx_beacons : Table (ℕ × ℕ × ℕ) Action 2 := {}
  table_drop_control_frames : Table ℕ Action 2 := {}
  table_modify_ethernet_header : Table ℕ Action 128 := {}

def applyTable {K : Type} [DecidableEq K] {size : ℕ} (t : Table K Action size) (key : K)
    (pkt : Packet) : Packet :=
  match t.apply key with
  | none => pkt
  | some a => a.run pkt

def ingress (sw : Switch) (pkt : Packet) : Packet :=
  if pkt.radiotap.isSome ∧ pkt.dot11_frame_control.isSome then
    let pkt := applyTable sw.table_wire_ports pkt.standard_metadata.ingress_port pkt
    let pkt := applyTable sw.table_drop_tx_frames_from_monitor
      (pkt.standard_metadata.ingress_port, pkt.radiotap_metadata.rx) pkt
    let pkt := applyTable sw.table_drop_rx_beacons
      (pkt.standard_metadata.ingress_port, pkt.dot11_fc_metadata.type,
        pkt.dot11_fc_metadata.subtype) pkt
    applyTable sw.table_drop_control_frames pkt.dot11_fc_metadata.type pkt
  else pkt

def egress (sw : Switch) (pkt : Packet) : Packet :=
  applyTable sw.table_modify_ethernet_header pkt.standard_metadata.egress_port pkt

/-- What becomes of a received frame. For a frame that is not parsed the program
says nothing. -/
inductive Fate where
  | unparsed
  | dropped
  | sent (port : ℕ) (frame : Bytes)
  deriving DecidableEq

/-- The egress half, for a packet that ingress has not dropped. -/
def transmit (sw : Switch) (pkt : Packet) : Fate :=
  let port := pkt.standard_metadata.egress_spec
  let pkt := egress sw
    { pkt with standard_metadata := { pkt.standard_metadata with egress_port := port } }
  if pkt.standard_metadata.egress_spec = DROP_PORT then .dropped
  else .sent pkt.standard_metadata.egress_port (deparser pkt)

def process (sw : Switch) (port : ℕ) (frame : Bytes) : Fate :=
  match start (arriving port frame) with
  | none => .unparsed
  | some pkt =>
      let pkt := ingress sw pkt
      if pkt.standard_metadata.egress_spec = DROP_PORT then .dropped else transmit sw pkt

structure P4SwitchManager where
  port_id_generator : ℕ := 0
  switch : Switch := {}

namespace P4SwitchManager

def start_p4_switch (m : P4SwitchManager) : P4SwitchManager :=
  { m with switch := { m.switch with
      table_wire_ports := m.switch.table_wire_ports.set_default ._drop
      table_modify_ethernet_header := m.switch.table_modify_ethernet_header.set_default ._drop
      table_drop_tx_frames_from_monitor :=
        (m.switch.table_drop_tx_frames_from_monitor.set_default ._nop).add (1, 0x0) ._drop
      table_drop_rx_beacons :=
        (m.switch.table_drop_rx_beacons.set_default ._nop).add (1, 0x0, 0x8) ._drop
      table_drop_control_frames :=
        (m.switch.table_drop_control_frames.set_default ._nop).add 0x1 ._drop } }

/-- The new port and the manager afterwards. -/
def add_port (m : P4SwitchManager) (ifaceName : String) : ℕ × P4SwitchManager :=
  (m.port_id_generator,
    { m with
      port_id_generator := m.port_id_generator + 1
      switch := { m.switch with ports := m.switch.ports ++ [(ifaceName, m.port_id_generator)] } })

/-- The table entry that both kinds of port get, with their own action. -/
def addPortWith (m : P4SwitchManager) (ifaceName : String) (a : Action) : ℕ × P4SwitchManager :=
  let r := m.add_port ifaceName
  (r.1, { r.2 with switch := { r.2.switch with
    table_modify_ethernet_header := r.2.switch.table_modify_ethernet_header.add r.1 a } })

def add_radio_tap_port (m : P4SwitchManager) (ifaceName : String) : ℕ × P4SwitchManager :=
  m.addPortWith ifaceName .remove_eth_header

def add_tunnel_port (m : P4SwitchManager) (ifaceName : String) : ℕ × P4SwitchManager :=
  m.addPortWith ifaceName .add_eth_header

/-- `table_add table_wire_ports send_to_port in_port => out_port`. -/
def wire (m : P4SwitchManager) (in_port out_port : ℕ) : P4SwitchManager :=
  { m with switch := { m.switch with
      table_wire_ports := m.switch.table_wire_ports.add in_port (.send_to_port out_port) } }

end P4SwitchManager

/-- The two kinds of virtual access points: the own one behind a neighbor's radio,
and a neighbor's behind the own radio. -/
inductive Role where
  | localVap
  | remoteVap
  deriving DecidableEq, Repr

/-- `start_forwarding_frames` of the two classes. The local one wires hwsim0 first,
the remote one the tunnel. -/
def start_forwarding_frames (role : Role) (p4_port_id : ℕ) (m : P4SwitchManager) :
    P4SwitchManager :=
  match role with
  | .localVap => (m.wire 0 p4_port_id).wire p4_port_id 0
  | .remoteVap => (m.wire p4_port_id 1).wire 1 p4_port_id

/-- The data plane half of a VAP setup. -/
def setup (role : Role) (ifaceName : String) (m : P4SwitchManager) : ℕ × P4SwitchManager :=
  let r := m.add_tunnel_port ifaceName
  (r.1, start_forwarding_frames role r.1 r.2)

theorem setup_port (role : Role) (ifaceName : String) (m : P4SwitchManager) :
    (setup role ifaceName m).1 = m.port_id_generator := rfl

/-- The switch as `run` leaves it before the first VAP. -/
def started : P4SwitchManager :=
  (((P4SwitchManager.start_p4_switch {}).add_radio_tap_port "hwsim0").2.add_radio_tap_port
    "inject0").2

/-- The switch after any sequence of VAP setups, with their roles. The setup that
came `k`-th has the port `k + 2`. -/
inductive Programmed : List Role → P4SwitchManager → Prop
  | started : Programmed [] started
  | setup {roles : List Role} {m : P4SwitchManager} (h : Programmed roles m) (role : Role)
      (ifaceName : String) : Programmed (roles ++ [role]) (setup role ifaceName m).2

end Nxwlan.P4Switch
