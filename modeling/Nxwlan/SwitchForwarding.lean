import Nxwlan.SwitchWiring
import Mathlib.Data.Nat.Bitwise

/-!
Which frames leave the switch and where. A frame that parses as radiotap and
802.11 follows the entry of its port unless one of the three drop tables takes
it out. A frame that does not is not matched against any table of the ingress
pipeline: its egress port keeps the initial value, the port of hwsim0.
-/
namespace Nxwlan.SwitchForwarding

open ByteFields SwitchParser P4Switch ExactTables SwitchWiring

/-- The frame behind the Ethernet header of a tunnel. -/
def air (port : ℕ) (frame : Bytes) : Bytes :=
  if port = 0 ∨ port = 1 then frame else frame.drop 14

/-- The little-endian length and present words of a radiotap header. -/
def lengthWord (bs : Bytes) : ℕ := leNat ((bs.drop 2).take 2)

def presentWord (bs : Bytes) : ℕ := leNat ((bs.drop 4).take 4)

/-- The first byte of the 802.11 frame: version, type and subtype. -/
def controlByte (bs : Bytes) : ℕ := (bs.getD (lengthWord bs) 0).toNat

def dot11Type (b : ℕ) : ℕ := b / 4 % 4

def dot11Subtype (b : ℕ) : ℕ := b / 16

theorem BE2LE2_beNat (a b : UInt8) : BE2LE2 (beNat [a, b]) = leNat [a, b] := by
  have ha := a.toNat_lt
  have hb := b.toNat_lt
  have hx : beNat [a, b] = 256 * a.toNat + b.toNat := by simp [beNat]
  have hhigh : (beNat [a, b] >>> 8) &&& 0x00FF = a.toNat := by
    rw [Nat.shiftRight_eq_div_pow, show (0x00FF : ℕ) = 2 ^ 8 - 1 by rfl,
      Nat.and_two_pow_sub_one_eq_mod, hx]
    omega
  have hlow : (beNat [a, b] <<< 8) &&& 0xFF00 = 2 ^ 8 * b.toNat := by
    rw [show (0xFF00 : ℕ) = (2 ^ 8 - 1) <<< 8 by rfl, ← Nat.shiftLeft_and_distrib,
      Nat.and_two_pow_sub_one_eq_mod, hx, Nat.shiftLeft_eq]
    omega
  rw [BE2LE2, hhigh, hlow, Nat.or_comm, ← Nat.two_pow_add_eq_or_of_lt (by omega)]
  simp only [leNat]
  omega

/-- Bit 14 of the swapped word is bit 22 of the word as it was read. -/
theorem BE2LE4_testBit (x : ℕ) : (BE2LE4 x).testBit 14 = x.testBit 22 := by
  have h₁ : (0x000000FF : ℕ).testBit 14 = false := by decide
  have h₂ : (0x0000FF00 : ℕ).testBit 14 = true := by decide
  have h₃ : (0x00FF0000 : ℕ).testBit 14 = false := by decide
  have h₄ : (0xFF000000 : ℕ).testBit 14 = false := by decide
  simp only [BE2LE4, Nat.testBit_or, Nat.testBit_and, h₁, h₂, h₃, h₄, Nat.testBit_shiftRight,
    Bool.and_false, Bool.false_or, Bool.and_true, Bool.or_false]

theorem beNat_testBit (a b c d : UInt8) :
    (beNat [a, b, c, d]).testBit 22 = (leNat [a, b, c, d]).testBit 14 := by
  have hb := b.toNat_lt
  have hc := c.toNat_lt
  have hd := d.toNat_lt
  have ha := a.toNat_lt
  have hbe : beNat [a, b, c, d] / 2 ^ 22 = 4 * a.toNat + b.toNat / 64 := by
    simp only [beNat, List.foldl_cons, List.foldl_nil]
    omega
  have hle : leNat [a, b, c, d] / 2 ^ 14 = b.toNat / 64 + 4 * c.toNat + 1024 * d.toNat := by
    simp only [leNat]
    omega
  rw [Nat.testBit_eq_decide_div_mod_eq, Nat.testBit_eq_decide_div_mod_eq, hbe, hle]
  apply decide_eq_decide.mpr
  omega

theorem rx_eq (x : ℕ) : (x &&& RADIOTAP_PRESENT_RX_FLAGS) >>> 14 = (x.testBit 14).toNat := by
  rw [RADIOTAP_PRESENT_RX_FLAGS, Nat.shiftLeft_eq, Nat.one_mul, Nat.and_two_pow,
    Nat.shiftRight_eq_div_pow, Nat.mul_div_cancel]
  omega

theorem type_eq (x : ℕ) : (x &&& 0x0c) >>> 2 = dot11Type x := by
  rw [Nat.shiftRight_and_distrib, Nat.shiftRight_eq_div_pow]
  exact Nat.and_two_pow_sub_one_eq_mod (x / 2 ^ 2) 2

theorem subtype_eq {x : ℕ} (h : x < 256) : (x &&& 0xf0) >>> 4 = dot11Subtype x := by
  rw [Nat.shiftRight_and_distrib, Nat.shiftRight_eq_div_pow]
  refine (Nat.and_two_pow_sub_one_eq_mod (x / 2 ^ 4) 4).trans ?_
  rw [dot11Subtype]
  omega

theorem eight_bytes {bs : Bytes} (h : 8 ≤ bs.length) :
    ∃ b₀ b₁ b₂ b₃ b₄ b₅ b₆ b₇ rest, bs = b₀ :: b₁ :: b₂ :: b₃ :: b₄ :: b₅ :: b₆ :: b₇ :: rest := by
  match bs, h with
  | b₀ :: b₁ :: b₂ :: b₃ :: b₄ :: b₅ :: b₆ :: b₇ :: rest, _ =>
    exact ⟨b₀, b₁, b₂, b₃, b₄, b₅, b₆, b₇, rest, rfl⟩

theorem ethernet_rest {bs rest : Bytes} {e : Ethernet}
    (hx : ethernet_t.extract bs = some (e, rest)) : rest = bs.drop 14 := by
  obtain ⟨-, ws₁, -, h₁⟩ := extractFields_cons (ethernet_t.extract_inv hx)
  obtain ⟨-, ws₂, -, h₂⟩ := extractFields_cons h₁
  obtain ⟨-, ws₃, -, h₃⟩ := extractFields_cons h₂
  simp only [extractFields, List.drop_drop, Option.some.injEq, Prod.mk.injEq] at h₃
  exact h₃.2.symm

/-- The type field of an Ethernet header. -/
def etherTypeWord (bs : Bytes) : ℕ := beNat ((bs.drop 12).take 2)

theorem ethernet_extract {bs : Bytes} (h : 14 ≤ bs.length) :
    ∃ e, ethernet_t.extract bs = some (e, bs.drop 14) ∧ e.etherType = etherTypeWord bs := by
  have h₁ : 6 ≤ bs.length := by omega
  have h₂ : 6 ≤ (bs.drop 6).length := by
    rw [List.length_drop]
    omega
  have h₃ : 2 ≤ (bs.drop 12).length := by
    rw [List.length_drop]
    omega
  refine ⟨⟨beNat (bs.take 6), beNat ((bs.drop 6).take 6), etherTypeWord bs⟩, ?_, rfl⟩
  simp only [Layout.extract, ethernet_t, extractFields, h₁, h₂, if_true, List.drop_drop, h₃,
    Option.map_some, Option.bind_some]
  rfl

/-- The fixed part of a radiotap header has its words where the standard has them. -/
theorem radiotap_words {bs rest : Bytes} {f : RadiotapFixed}
    (hx : radiotap_t.extract bs = some (f, rest)) :
    BE2LE2 f.len = lengthWord bs ∧
      (BE2LE4 f.present).testBit 14 = (presentWord bs).testBit 14 ∧ rest = bs.drop 8 := by
  obtain ⟨-, ws₁, hws₁, h₁⟩ := extractFields_cons (radiotap_t.extract_inv hx)
  obtain ⟨-, ws₂, hws₂, h₂⟩ := extractFields_cons h₁
  obtain ⟨-, ws₃, hws₃, h₃⟩ := extractFields_cons h₂
  obtain ⟨hlast, ws₄, hws₄, h₄⟩ := extractFields_cons h₃
  simp only [extractFields, List.drop_drop, Option.some.injEq, Prod.mk.injEq] at h₄
  rw [hws₂, hws₃, hws₄, ← h₄.1] at hws₁
  simp only [radiotap_t, List.drop_drop, List.cons.injEq, and_true] at hws₁
  simp only [List.length_drop] at hlast
  obtain ⟨b₀, b₁, b₂, b₃, b₄, b₅, b₆, b₇, tail, rfl⟩ := eight_bytes (by omega : 8 ≤ bs.length)
  refine ⟨?_, ?_, h₄.2.symm⟩
  · rw [hws₁.2.2.1]
    exact BE2LE2_beNat b₂ b₃
  · rw [hws₁.2.2.2, BE2LE4_testBit]
    exact beNat_testBit b₄ b₅ b₆ b₇

theorem control_byte {bs rest : Bytes} {fc : Dot11FrameControl}
    (hx : dot11_frame_control_t.extract bs = some (fc, rest)) : fc.type = (bs.getD 0 0).toNat := by
  have hfields := dot11_frame_control_t.extract_inv hx
  obtain ⟨hlen, ws, h₁, -⟩ := extractFields_cons hfields
  simp only [dot11_frame_control_t, List.cons.injEq] at h₁
  rw [h₁.1]
  cases bs with
  | nil => simp at hlen
  | cons b bs => simp [beNat]

/-- The words of the header and the control byte as the parser reads them. -/
theorem recognised_words {pkt out : Packet} {r : Radiotap} {fc : Dot11FrameControl}
    (h : Recognised pkt out r fc) :
    out.radiotap_metadata.rx = ((presentWord pkt.payload).testBit 14).toNat ∧
      out.dot11_fc_metadata.type = dot11Type (controlByte pkt.payload) ∧
      out.dot11_fc_metadata.subtype = dot11Subtype (controlByte pkt.payload) := by
  obtain ⟨rest, rest', hr, hfc⟩ := h.front
  obtain ⟨⟨f, tail⟩, hfixed, hvar⟩ := Option.bind_eq_some_iff.mp hr
  obtain ⟨hlength, hbit, rfl⟩ := radiotap_words hfixed
  dsimp only at hvar
  split at hvar
  · rename_i hbounds
    simp only [Option.some.injEq, Prod.mk.injEq] at hvar
    obtain ⟨rfl, rfl⟩ := hvar
    have hcontrol : fc.type = controlByte pkt.payload := by
      rw [control_byte hfc, List.drop_drop, hlength, controlByte,
        show 8 + (lengthWord pkt.payload - 8) = lengthWord pkt.payload by omega]
      simp [List.getD_eq_getElem?_getD]
    have hbyte : controlByte pkt.payload < 256 :=
      (pkt.payload.getD (lengthWord pkt.payload) 0).toNat_lt
    refine ⟨?_, ?_, ?_⟩
    · rw [h.rx, rx_eq, hbit]
    · rw [h.type, type_eq, hcontrol]
    · rw [h.subtype, hcontrol, subtype_eq hbyte]
  · simp at hvar

section Pipelines

variable {roles : List Role} {m : P4SwitchManager} {pkt : Packet}

/-- A table that drops what meets a condition and leaves the rest alone. -/
theorem applyTable_filter {K : Type} [DecidableEq K] {size : ℕ} {t : Table K Action size} {k : K}
    {c : Prop} [Decidable c] (h : t.apply k = some (if c then ._drop else ._nop)) (pkt : Packet)
    (port : ℕ) :
    applyTable t k (Packet.setEgressSpec pkt port) =
      Packet.setEgressSpec pkt (if c then DROP_PORT else port) := by
  by_cases hc : c
  · rw [if_pos hc] at h
    rw [applyTable, h, if_pos hc]
    rfl
  · rw [if_neg hc] at h
    rw [applyTable, h, if_neg hc]
    rfl

theorem tx_apply (hw : Wiring roles m) (port rx : ℕ) :
    m.switch.table_drop_tx_frames_from_monitor.apply (port, rx) =
      some (if (port, rx) = (1, 0) then ._drop else ._nop) := by
  rw [hw.tx]
  exact Table.apply_single (by decide) _ _ _ _

theorem beacons_apply (hw : Wiring roles m) (port type subtype : ℕ) :
    m.switch.table_drop_rx_beacons.apply (port, type, subtype) =
      some (if (port, type, subtype) = (1, 0, 8) then ._drop else ._nop) := by
  rw [hw.beacons]
  exact Table.apply_single (by decide) _ _ _ _

theorem control_apply (hw : Wiring roles m) (type : ℕ) :
    m.switch.table_drop_control_frames.apply type =
      some (if type = 1 then ._drop else ._nop) := by
  rw [hw.control]
  exact Table.apply_single (by decide) _ _ _ _

/-- The port that the forwarding table sends the frames of `port` to. -/
def target (sw : Switch) (port : ℕ) : ℕ :=
  match sw.table_wire_ports.entries.lookup port with
  | some (.send_to_port q) => q
  | _ => DROP_PORT

theorem wire_apply (hw : Wiring roles m) (port : ℕ) (pkt : Packet) :
    applyTable m.switch.table_wire_ports port pkt =
      Packet.setEgressSpec pkt (target m.switch port) := by
  rw [applyTable, Table.apply, hw.wires.miss, target]
  cases hlook : m.switch.table_wire_ports.entries.lookup port with
  | none => rfl
  | some a =>
    obtain ⟨-, q, rfl, -⟩ := hw.wires.entry port a hlook
    rfl

/-- What the three drop tables take out. -/
def Blocked (port type subtype rx : ℕ) : Prop :=
  type = 1 ∨ (port = 1 ∧ (rx = 0 ∨ (type = 0 ∧ subtype = 8)))

instance (port type subtype rx : ℕ) : Decidable (Blocked port type subtype rx) :=
  inferInstanceAs (Decidable (_ ∨ _))

/-- The ingress pipeline as a whole: later drops override the forwarding entry. -/
theorem ingress_recognised (hw : Wiring roles m) (hr : pkt.radiotap.isSome = true)
    (hfc : pkt.dot11_frame_control.isSome = true) :
    ingress m.switch pkt = Packet.setEgressSpec pkt
      (if Blocked pkt.standard_metadata.ingress_port pkt.dot11_fc_metadata.type
          pkt.dot11_fc_metadata.subtype pkt.radiotap_metadata.rx
        then DROP_PORT else target m.switch pkt.standard_metadata.ingress_port) := by
  unfold ingress
  rw [if_pos ⟨hr, hfc⟩]
  simp only [wire_apply hw, Packet.setEgressSpec_ingress_port,
    Packet.setEgressSpec_radiotap_metadata, Packet.setEgressSpec_dot11_fc_metadata,
    applyTable_filter (tx_apply hw _ _), applyTable_filter (beacons_apply hw _ _ _),
    applyTable_filter (control_apply hw _), Prod.mk.injEq]
  congr 1
  by_cases hb : Blocked pkt.standard_metadata.ingress_port pkt.dot11_fc_metadata.type
      pkt.dot11_fc_metadata.subtype pkt.radiotap_metadata.rx
  · rw [if_pos hb]
    unfold Blocked at hb
    split_ifs <;> first | rfl | tauto
  · rw [if_neg hb]
    unfold Blocked at hb
    split_ifs <;> first | rfl | tauto

/-- A packet leaves on `q` with the header change of that port. -/
theorem transmit_header {sw : Switch} {q : ℕ} {a : Action}
    (hlook : sw.table_modify_ethernet_header.entries.lookup q = some a)
    (ha : a = .add_eth_header ∨ a = .remove_eth_header) (hq : q ≠ DROP_PORT) (pkt : Packet) :
    transmit sw (Packet.setEgressSpec pkt q) = .sent q (deparser (a.run pkt)) := by
  have happly : sw.table_modify_ethernet_header.apply q = some a := by
    rw [Table.apply, hlook, Option.some_or]
  unfold transmit
  simp only [egress, applyTable, Packet.setEgressSpec_egress_spec, happly]
  rcases ha with rfl | rfl
  · exact if_neg hq
  · exact if_neg hq

/-- A forwarding target has an entry in the egress table. -/
theorem target_header (hw : Wiring roles m) {port q : ℕ}
    (h : m.switch.table_wire_ports.entries.lookup port = some (.send_to_port q)) :
    q ≠ DROP_PORT ∧ m.switch.table_modify_ethernet_header.entries.lookup q =
      some (if q < 2 then .remove_eth_header else .add_eth_header) := by
  obtain ⟨-, q', heq, hn, hsmall, -⟩ := hw.wires.entry port _ h
  obtain rfl : q = q' := by simpa using heq
  refine ⟨?_, hw.headers.port q hn (by omega)⟩
  unfold DROP_PORT
  omega

/-- The header change of a port: tunnels carry frames in Ethernet. -/
def portHeader (port : ℕ) : Action := if port < 2 then .remove_eth_header else .add_eth_header

/-- The fate of a frame that is recognised as radiotap and 802.11. -/
theorem process_recognised (hw : Wiring roles m) {port : ℕ} {frame : Bytes}
    (hparse : start (arriving port frame) = some pkt) (hr : pkt.radiotap.isSome = true)
    (hfc : pkt.dot11_frame_control.isSome = true)
    (hport : pkt.standard_metadata.ingress_port = port) (q : ℕ) (out : Bytes) :
    process m.switch port frame = .sent q out ↔
      (m.switch.table_wire_ports.entries.lookup port = some (.send_to_port q) ∧
        ¬ Blocked port pkt.dot11_fc_metadata.type pkt.dot11_fc_metadata.subtype
          pkt.radiotap_metadata.rx) ∧ out = deparser ((portHeader q).run pkt) := by
  unfold process
  rw [hparse]
  simp only [ingress_recognised hw hr hfc, hport, Packet.setEgressSpec_egress_spec]
  by_cases hb : Blocked port pkt.dot11_fc_metadata.type pkt.dot11_fc_metadata.subtype
      pkt.radiotap_metadata.rx
  · simp [hb]
  · rw [if_neg hb]
    cases hlook : m.switch.table_wire_ports.entries.lookup port with
    | none => simp [target, hlook]
    | some a =>
      obtain ⟨-, q', rfl, -⟩ := hw.wires.entry port a hlook
      obtain ⟨hq', hheader⟩ := target_header hw hlook
      have htarget : target m.switch port = q' := by
        rw [target, hlook]
      rw [htarget, if_neg hq', transmit_header hheader (by split <;> simp) hq']
      simp only [Fate.sent.injEq, Option.some.injEq, Action.send_to_port.injEq, hb,
        not_false_eq_true, and_true]
      constructor
      · rintro ⟨rfl, rfl⟩
        exact ⟨rfl, rfl⟩
      · rintro ⟨rfl, rfl⟩
        exact ⟨rfl, rfl⟩

/-- A packet with a valid radiotap header was recognised, behind an Ethernet header
where it came in on a tunnel. -/
theorem start_recognised {port : ℕ} {frame : Bytes}
    (hparse : start (arriving port frame) = some pkt) (hr : pkt.radiotap.isSome = true) :
    ∃ inner r fc, inner.payload = air port frame ∧
      inner.standard_metadata.ingress_port = port ∧ Recognised inner pkt r fc := by
  unfold start at hparse
  split at hparse
  · rename_i hport
    obtain ⟨r, fc, hrec⟩ := parse_radiotap_recognised (arriving_bare port frame) hparse
    exact ⟨arriving port frame, r, fc, (if_pos hport).symm, rfl, hrec⟩
  · rename_i hport
    obtain ⟨⟨e, rest⟩, he, hparse⟩ := Option.bind_eq_some_iff.mp hparse
    dsimp only at hparse
    split at hparse
    · obtain ⟨r, fc, hrec⟩ := parse_radiotap_recognised (by exact ⟨rfl, rfl, rfl, rfl, rfl⟩) hparse
      exact ⟨_, r, fc, (ethernet_rest he).trans (if_neg hport).symm, rfl, hrec⟩
    · obtain rfl := Option.some.inj hparse
      simp [arriving] at hr

/-- A frame that leaves follows the entry of its port. -/
theorem sent_entry (hw : Wiring roles m) {port : ℕ} {frame : Bytes}
    (hparse : start (arriving port frame) = some pkt) (hvalid : pkt.radiotap.isSome = true) {q : ℕ}
    {out : Bytes} (hsent : process m.switch port frame = .sent q out) :
    m.switch.table_wire_ports.entries.lookup port = some (.send_to_port q) := by
  obtain ⟨inner, r, fc, -, hport, hrec⟩ := start_recognised hparse hvalid
  exact ((process_recognised hw hparse hvalid (by rw [hrec.control]; rfl)
    (by rw [hrec.standard, hport]) q out).mp hsent).1.1

/-- Forwarding. After any VAP setups, a frame that parses completely as radiotap and 802.11
(of a data frame with a body the parser takes a fourth address) leaves the switch exactly
when its port has a forwarding entry, it is not a control frame, and, on the monitor port,
it is no beacon and was received with the RX flags field; it then leaves on the port of
that entry. -/
theorem forwarding_spec (roles : List Role) (m : P4SwitchManager) (hm : Programmed roles m)
    (port : ℕ) (frame : Bytes) (pkt : Packet) (hparse : start (arriving port frame) = some pkt)
    (hvalid : pkt.radiotap.isSome = true) :
    ((∃ q out, process m.switch port frame = .sent q out) ↔
      port ∈ m.switch.table_wire_ports.entries ∧
        dot11Type (controlByte (air port frame)) ≠ 1 ∧
        (port = 1 →
          ¬ (dot11Type (controlByte (air port frame)) = 0 ∧
            dot11Subtype (controlByte (air port frame)) = 8) ∧
          (presentWord (air port frame)).testBit 14 = true)) ∧
      ∀ q out, process m.switch port frame = .sent q out →
        m.switch.table_wire_ports.entries.lookup port = some (.send_to_port q) := by
  have hw := programmed_wiring hm
  obtain ⟨inner, r, fc, hair, hport, hrec⟩ := start_recognised hparse hvalid
  obtain ⟨hrx, htype, hsubtype⟩ := recognised_words hrec
  have hin : pkt.standard_metadata.ingress_port = port := by
    rw [hrec.standard, hport]
  have hsent := process_recognised hw hparse hvalid (by rw [hrec.control]; rfl) hin
  rw [hrx, htype, hsubtype, hair] at hsent
  refine ⟨?_, fun q out hq => sent_entry hw hparse hvalid hq⟩
  simp only [hsent, exists_and_left, exists_eq, and_true, exists_and_right]
  have hentry : (∃ q, m.switch.table_wire_ports.entries.lookup port = some (.send_to_port q)) ↔
      port ∈ m.switch.table_wire_ports.entries := by
    rw [← AList.lookup_isSome]
    constructor
    · rintro ⟨q, hq⟩
      simp [hq]
    · intro hsome
      obtain ⟨a, ha⟩ := Option.isSome_iff_exists.mp hsome
      obtain ⟨-, q, rfl, -⟩ := hw.wires.entry port a ha
      exact ⟨q, ha⟩
  rw [hentry]
  refine and_congr_right fun _ => ?_
  unfold Blocked
  cases (presentWord (air port frame)).testBit 14 <;> simp

/-- A frame with the first byte of its frame control, behind a radiotap header of eight bytes
with this second byte of the present word. -/
def frameOf (present control : UInt8) : Bytes :=
  [0, 0, 8, 0, 0, present, 0, 0, control, 1] ++ List.replicate 28 5

/-- A null data frame with an empty radiotap header. -/
def sampleFrame : Bytes := frameOf 0 72

/-- A switch with an own VAP behind port 2 and a neighbor's behind port 3. -/
def sampleManager : P4SwitchManager :=
  (setup .remoteVap "l2tpeth1" (setup .localVap "l2tpeth0" started).2).2

theorem sampleManager_programmed : Programmed [.localVap, .remoteVap] sampleManager :=
  (Programmed.started.setup .localVap "l2tpeth0").setup .remoteVap "l2tpeth1"

/-- Null data frames from hwsim0, from the monitor with and without the RX flags, and from a
tunnel; and a beacon from the monitor. -/
theorem forwarding_spec_sample :
    (∃ q out, process sampleManager.switch 0 sampleFrame = .sent q out) ∧
    (∃ q out, process sampleManager.switch 1 (frameOf 64 72) = .sent q out) ∧
    (¬ ∃ q out, process sampleManager.switch 1 sampleFrame = .sent q out) ∧
    (¬ ∃ q out, process sampleManager.switch 1 (frameOf 64 128) = .sent q out) ∧
    (∃ q out, process sampleManager.switch 3
      (List.replicate 12 255 ++ [0, 1] ++ sampleFrame) = .sent q out) := by
  have hspec : ∀ (port : ℕ) (frame : Bytes) (h : (start (arriving port frame)).isSome = true),
      ((start (arriving port frame)).get h).radiotap.isSome = true → _ := fun port frame h hvalid =>
    (forwarding_spec _ _ sampleManager_programmed port frame _ (Option.some_get h).symm hvalid).1
  refine ⟨?_, ?_, ?_, ?_, ?_⟩
  · exact (hspec 0 _ (by decide) (by decide)).mpr (by decide)
  · exact (hspec 1 _ (by decide) (by decide)).mpr (by decide)
  · exact fun h => absurd ((hspec 1 _ (by decide) (by decide)).mp h) (by decide)
  · exact fun h => absurd ((hspec 1 _ (by decide) (by decide)).mp h) (by decide)
  · exact (hspec 3 _ (by decide) (by decide)).mpr (by decide)

/-- No frame is filtered out for its Ethernet type: a tunnel frame of any other type
skips the tables of the ingress pipeline and leaves on the port of hwsim0,
without its Ethernet header. -/
theorem unrecognised_reaches_hwsim (roles : List Role) (m : P4SwitchManager)
    (hm : Programmed roles m) (port : ℕ) (hport : 2 ≤ port) (frame : Bytes)
    (hlen : 14 ≤ frame.length) (htype : etherTypeWord frame ≠ CRAN_RADIO_TAP) :
    process m.switch port frame = .sent 0 (frame.drop 14) := by
  have hw := programmed_wiring hm
  obtain ⟨e, he, hword⟩ := ethernet_extract hlen
  have hparse : start (arriving port frame) = some
      { arriving port frame with ethernet := some e, payload := frame.drop 14 } := by
    have hno : ¬ ((arriving port frame).standard_metadata.ingress_port = 0 ∨
        (arriving port frame).standard_metadata.ingress_port = 1) := by
      simp only [arriving]
      omega
    have hne : e.etherType ≠ CRAN_RADIO_TAP := by
      rw [hword]
      exact htype
    have he' : ethernet_t.extract (arriving port frame).payload = some (e, frame.drop 14) := he
    rw [start, if_neg hno, parse_ethernet, he', Option.bind_some, if_neg hne]
  have hheader := hw.headers.port 0 (by omega) (by omega)
  have hsent := transmit_header hheader (Or.inr rfl) (by decide)
    { arriving port frame with ethernet := some e, payload := frame.drop 14 }
  rw [process, hparse]
  exact hsent

theorem unrecognised_reaches_hwsim_sample :
    process (setup .remoteVap "l2tpeth0" started).2.switch 2
      (List.replicate 12 255 ++ [8, 6, 0, 1]) = .sent 0 [0, 1] :=
  unrecognised_reaches_hwsim _ _ (Programmed.started.setup .remoteVap "l2tpeth0") 2 (by decide) _
    (by decide) (by decide)

/-- An IPv4 frame from a tunnel goes out on hwsim0. -/
theorem ipv4_reaches_hwsim :
    process (setup .localVap "l2tpeth0" started).2.switch 2
      (List.replicate 6 2 ++ List.replicate 6 4 ++ [8, 0, 69, 0]) = .sent 0 [69, 0] := by
  decide

end Pipelines

end Nxwlan.SwitchForwarding
