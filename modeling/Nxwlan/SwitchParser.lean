import Nxwlan.ByteFields

/-!
The header types, the parser and the deparser of the switch program, state by
state as in the compiled `home_p4.json`. A packet carries the bytes that are
not parsed yet as its payload. The parser is partial: a frame that ends inside
a header, or whose radiotap length is outside the header's bounds, is not
parsed. Header fields are numbers, as arithmetic in the switch is unbounded.
-/
namespace Nxwlan.SwitchParser

open ByteFields

structure Ethernet where
  dstAddr : ℕ
  srcAddr : ℕ
  etherType : ℕ

def ethernet_t : Layout Ethernet where
  widths := [6, 6, 2]
  fields h := [h.dstAddr, h.srcAddr, h.etherType]
  build
    | [a, b, c] => some ⟨a, b, c⟩
    | _ => none

/-- The fixed part of a radiotap header; all numbers are little-endian on the air
and read here as if they were not. -/
structure RadiotapFixed where
  version : ℕ
  pad : ℕ
  len : ℕ
  present : ℕ

def radiotap_t : Layout RadiotapFixed where
  widths := [1, 1, 2, 4]
  fields h := [h.version, h.pad, h.len, h.present]
  build
    | [a, b, c, d] => some ⟨a, b, c, d⟩
    | _ => none

structure Radiotap extends RadiotapFixed where
  rtapdata : Bytes

structure Dot11FrameControl where
  type : ℕ
  flags : ℕ

def dot11_frame_control_t : Layout Dot11FrameControl where
  widths := [1, 1]
  fields h := [h.type, h.flags]
  build
    | [a, b] => some ⟨a, b⟩
    | _ => none

structure Dot11MgmtFrame where
  duration : ℕ
  da : ℕ
  sa : ℕ
  bssid : ℕ
  sc : ℕ

def dot11_mgmt_frame_t : Layout Dot11MgmtFrame where
  widths := [2, 6, 6, 6, 2]
  fields h := [h.duration, h.da, h.sa, h.bssid, h.sc]
  build
    | [a, b, c, d, e] => some ⟨a, b, c, d, e⟩
    | _ => none

structure Dot11DataFrame where
  duration : ℕ
  addr1 : ℕ
  addr2 : ℕ
  addr3 : ℕ
  sc : ℕ
  addr4 : ℕ

def dot11_data_frame_t : Layout Dot11DataFrame where
  widths := [2, 6, 6, 6, 2, 6]
  fields h := [h.duration, h.addr1, h.addr2, h.addr3, h.sc, h.addr4]
  build
    | [a, b, c, d, e, f] => some ⟨a, b, c, d, e, f⟩
    | _ => none

structure Dot11NoDataFrame where
  duration : ℕ
  addr1 : ℕ
  addr2 : ℕ
  addr3 : ℕ
  sc : ℕ

def dot11_no_data_frame_t : Layout Dot11NoDataFrame where
  widths := [2, 6, 6, 6, 2]
  fields h := [h.duration, h.addr1, h.addr2, h.addr3, h.sc]
  build
    | [a, b, c, d, e] => some ⟨a, b, c, d, e⟩
    | _ => none

structure RadiotapMetadata where
  present : ℕ := 0
  rx : ℕ := 0

/-- The metadata fields that the program sets. -/
structure Dot11FcMetadata where
  version : ℕ := 0
  type : ℕ := 0
  subtype : ℕ := 0
  sa : ℕ := 0
  da : ℕ := 0
  bssid : ℕ := 0

structure StandardMetadata where
  ingress_port : ℕ
  egress_spec : ℕ := 0
  egress_port : ℕ := 0

/-- A packet in the switch; a header is there when it is valid. -/
structure Packet where
  standard_metadata : StandardMetadata
  ethernet : Option Ethernet := none
  radiotap : Option Radiotap := none
  radiotap_metadata : RadiotapMetadata := {}
  dot11_frame_control : Option Dot11FrameControl := none
  dot11_fc_metadata : Dot11FcMetadata := {}
  dot11_mgmt_frame : Option Dot11MgmtFrame := none
  dot11_data_frame : Option Dot11DataFrame := none
  dot11_no_data_frame : Option Dot11NoDataFrame := none
  payload : Bytes

def BE2LE2 (x : ℕ) : ℕ := ((x >>> 8) &&& 0x00FF) ||| ((x <<< 8) &&& 0xFF00)

def BE2LE4 (x : ℕ) : ℕ :=
  ((x >>> 24) &&& 0x000000FF) ||| ((x >>> 8) &&& 0x0000FF00) |||
    ((x <<< 8) &&& 0x00FF0000) ||| ((x <<< 24) &&& 0xFF000000)

def RADIOTAP_PRESENT_RX_FLAGS : ℕ := 1 <<< 14

def CRAN_RADIO_TAP : ℕ := 0x0001

def Packet.setAddresses (pkt : Packet) (da sa bssid : ℕ) : Packet :=
  { pkt with dot11_fc_metadata :=
      { pkt.dot11_fc_metadata with da := da, sa := sa, bssid := bssid } }

/-- All subtypes go on to ingress. -/
def parse_dot11_mgmt (pkt : Packet) : Option Packet :=
  (dot11_mgmt_frame_t.extract pkt.payload).map fun (h, rest) =>
    { pkt with dot11_mgmt_frame := some h, payload := rest }.setAddresses h.da h.sa h.bssid

def parse_dot11_ctrl (pkt : Packet) : Packet := pkt.setAddresses 0 0 0

def parse_dot11_normal_data (pkt : Packet) : Option Packet :=
  (dot11_data_frame_t.extract pkt.payload).map fun (h, rest) =>
    { pkt with dot11_data_frame := some h, payload := rest }.setAddresses h.addr1 h.addr2 h.addr3

def parse_dot11_no_data (pkt : Packet) : Option Packet :=
  (dot11_no_data_frame_t.extract pkt.payload).map fun (h, rest) =>
    { pkt with
      dot11_no_data_frame := some h, payload := rest }.setAddresses h.addr1 h.addr2 h.addr3

def parse_dot11_data (pkt : Packet) : Option Packet :=
  let pkt := pkt.setAddresses 0 0 0
  if pkt.dot11_fc_metadata.subtype ≤ 3 then parse_dot11_normal_data pkt
  else if pkt.dot11_fc_metadata.subtype ≤ 7 then parse_dot11_no_data pkt
  else some pkt

/-- The transition of `parse_dot11_frame_control`. -/
def selectType (pkt : Packet) : Option Packet :=
  match pkt.dot11_fc_metadata.type with
  | 0 => parse_dot11_mgmt pkt
  | 1 => some (parse_dot11_ctrl pkt)
  | 2 => parse_dot11_data pkt
  | _ => some pkt

def Packet.setFrameControl (pkt : Packet) (h : Dot11FrameControl) (rest : Bytes) : Packet :=
  { pkt with
    dot11_frame_control := some h
    dot11_fc_metadata :=
      { pkt.dot11_fc_metadata with
        version := (h.type &&& 0x03) >>> 0
        type := (h.type &&& 0x0c) >>> 2
        subtype := (h.type &&& 0xf0) >>> 4 }
    payload := rest }

def parse_dot11_frame_control (pkt : Packet) : Option Packet :=
  (dot11_frame_control_t.extract pkt.payload).bind fun r =>
    selectType (pkt.setFrameControl r.1 r.2)

/-- The variable part takes what the length leaves after the eight fixed bytes; the
header holds 38 bytes at most. -/
def extractRadiotap (bs : Bytes) : Option (Radiotap × Bytes) :=
  (radiotap_t.extract bs).bind fun (h, rest) =>
    let length := BE2LE2 h.len
    if 8 ≤ length ∧ length ≤ 38 ∧ length - 8 ≤ rest.length then
      some (⟨h, rest.take (length - 8)⟩, rest.drop (length - 8))
    else none

def Packet.setRadiotap (pkt : Packet) (h : Radiotap) (rest : Bytes) : Packet :=
  { pkt with
    radiotap := some h
    radiotap_metadata :=
      { present := BE2LE4 h.present
        rx := (BE2LE4 h.present &&& RADIOTAP_PRESENT_RX_FLAGS) >>> 14 }
    payload := rest }

def parse_radiotap (pkt : Packet) : Option Packet :=
  (extractRadiotap pkt.payload).bind fun r => parse_dot11_frame_control (pkt.setRadiotap r.1 r.2)

def parse_ethernet (pkt : Packet) : Option Packet :=
  (ethernet_t.extract pkt.payload).bind fun r =>
    let pkt := { pkt with ethernet := some r.1, payload := r.2 }
    if r.1.etherType = CRAN_RADIO_TAP then parse_radiotap pkt else some pkt

/-- The ports of hwsim0 and inject0 carry radiotap frames, all others Ethernet. -/
def start (pkt : Packet) : Option Packet :=
  if pkt.standard_metadata.ingress_port = 0 ∨ pkt.standard_metadata.ingress_port = 1 then
    parse_radiotap pkt
  else parse_ethernet pkt

/-- A packet as it enters the parser. -/
def arriving (port : ℕ) (frame : Bytes) : Packet :=
  { standard_metadata := { ingress_port := port }, payload := frame }

def emitHeader {H : Type} (L : Layout H) (h : Option H) : Bytes := (h.map L.emit).getD []

/-- The order of the headers in `home_p4.json`. -/
def deparser (pkt : Packet) : Bytes :=
  emitHeader ethernet_t pkt.ethernet ++
    ((pkt.radiotap.map fun h => radiotap_t.emit h.toRadiotapFixed ++ h.rtapdata).getD [] ++
      (emitHeader dot11_frame_control_t pkt.dot11_frame_control ++
        (emitHeader dot11_data_frame_t pkt.dot11_data_frame ++
          (emitHeader dot11_mgmt_frame_t pkt.dot11_mgmt_frame ++
            (emitHeader dot11_no_data_frame_t pkt.dot11_no_data_frame ++ pkt.payload)))))

@[simp] theorem emitHeader_none {H : Type} (L : Layout H) : emitHeader L none = [] := rfl

@[simp] theorem emitHeader_some {H : Type} (L : Layout H) (h : H) :
    emitHeader L (some h) = L.emit h := rfl

/-- None of the headers behind the frame control has been parsed, and the addresses
are still at zero. -/
structure Bare (pkt : Packet) : Prop where
  mgmt : pkt.dot11_mgmt_frame = none
  data : pkt.dot11_data_frame = none
  no_data : pkt.dot11_no_data_frame = none
  da : pkt.dot11_fc_metadata.da = 0
  sa : pkt.dot11_fc_metadata.sa = 0

/-- What the states behind the frame control leave behind: at most one more header,
three addresses, and the rest of the bytes. -/
structure Behind (pkt out : Packet) : Prop where
  standard : out.standard_metadata = pkt.standard_metadata
  ethernet : out.ethernet = pkt.ethernet
  radiotap : out.radiotap = pkt.radiotap
  radiotap_metadata : out.radiotap_metadata = pkt.radiotap_metadata
  control : out.dot11_frame_control = pkt.dot11_frame_control
  type : out.dot11_fc_metadata.type = pkt.dot11_fc_metadata.type
  subtype : out.dot11_fc_metadata.subtype = pkt.dot11_fc_metadata.subtype
  da : out.dot11_fc_metadata.da < 256 ^ 6
  sa : out.dot11_fc_metadata.sa < 256 ^ 6
  bytes : emitHeader dot11_data_frame_t out.dot11_data_frame ++
    (emitHeader dot11_mgmt_frame_t out.dot11_mgmt_frame ++
      (emitHeader dot11_no_data_frame_t out.dot11_no_data_frame ++ out.payload)) = pkt.payload

section Behind

variable {pkt out : Packet}

theorem parse_dot11_mgmt_behind (hb : Bare pkt) (h : parse_dot11_mgmt pkt = some out) :
    Behind pkt out := by
  obtain ⟨⟨f, rest⟩, hx, rfl⟩ := Option.map_eq_some_iff.mp h
  have hbound := dot11_mgmt_frame_t.extract_bound hx
  have hbytes := dot11_mgmt_frame_t.emit_of_extract hx
  simp only [dot11_mgmt_frame_t, List.forall₂_cons] at hbound
  refine ⟨rfl, rfl, rfl, rfl, rfl, rfl, rfl, hbound.2.1, hbound.2.2.1, ?_⟩
  simpa [Packet.setAddresses, hb.data, hb.no_data] using hbytes

theorem parse_dot11_normal_data_behind (hb : Bare pkt)
    (h : parse_dot11_normal_data pkt = some out) : Behind pkt out := by
  obtain ⟨⟨f, rest⟩, hx, rfl⟩ := Option.map_eq_some_iff.mp h
  have hbound := dot11_data_frame_t.extract_bound hx
  have hbytes := dot11_data_frame_t.emit_of_extract hx
  simp only [dot11_data_frame_t, List.forall₂_cons] at hbound
  refine ⟨rfl, rfl, rfl, rfl, rfl, rfl, rfl, hbound.2.1, hbound.2.2.1, ?_⟩
  simpa [Packet.setAddresses, hb.mgmt, hb.no_data] using hbytes

theorem parse_dot11_no_data_behind (hb : Bare pkt) (h : parse_dot11_no_data pkt = some out) :
    Behind pkt out := by
  obtain ⟨⟨f, rest⟩, hx, rfl⟩ := Option.map_eq_some_iff.mp h
  have hbound := dot11_no_data_frame_t.extract_bound hx
  have hbytes := dot11_no_data_frame_t.emit_of_extract hx
  simp only [dot11_no_data_frame_t, List.forall₂_cons] at hbound
  refine ⟨rfl, rfl, rfl, rfl, rfl, rfl, rfl, hbound.2.1, hbound.2.2.1, ?_⟩
  simpa [Packet.setAddresses, hb.data, hb.mgmt] using hbytes

/-- A state that extracts no header. -/
theorem bare_behind (hb : Bare pkt) : Behind pkt pkt := by
  refine ⟨rfl, rfl, rfl, rfl, rfl, rfl, rfl, by simp [hb.da], by simp [hb.sa], ?_⟩
  simp [hb.data, hb.mgmt, hb.no_data]

theorem setAddresses_bare (hb : Bare pkt) : Bare (pkt.setAddresses 0 0 0) :=
  ⟨hb.mgmt, hb.data, hb.no_data, rfl, rfl⟩

theorem setAddresses_behind (h : Behind (pkt.setAddresses 0 0 0) out) : Behind pkt out :=
  ⟨h.standard, h.ethernet, h.radiotap, h.radiotap_metadata, h.control, h.type, h.subtype, h.da,
    h.sa, h.bytes⟩

theorem parse_dot11_data_behind (hb : Bare pkt) (h : parse_dot11_data pkt = some out) :
    Behind pkt out := by
  apply setAddresses_behind
  have hb' := setAddresses_bare hb
  unfold parse_dot11_data at h
  dsimp only at h
  split at h
  · exact parse_dot11_normal_data_behind hb' h
  · split at h
    · exact parse_dot11_no_data_behind hb' h
    · obtain rfl := Option.some.inj h
      exact bare_behind hb'

theorem selectType_behind (hb : Bare pkt) (h : selectType pkt = some out) : Behind pkt out := by
  unfold selectType at h
  split at h
  · exact parse_dot11_mgmt_behind hb h
  · obtain rfl := Option.some.inj h
    exact setAddresses_behind (bare_behind (setAddresses_bare hb))
  · exact parse_dot11_data_behind hb h
  · obtain rfl := Option.some.inj h
    exact bare_behind hb

end Behind

/-- A frame that has been parsed as radiotap and 802.11, and the packet made of it. -/
structure Recognised (pkt out : Packet) (h : Radiotap) (fc : Dot11FrameControl) : Prop where
  standard : out.standard_metadata = pkt.standard_metadata
  ethernet : out.ethernet = pkt.ethernet
  radiotap : out.radiotap = some h
  control : out.dot11_frame_control = some fc
  rx : out.radiotap_metadata.rx = (BE2LE4 h.present &&& RADIOTAP_PRESENT_RX_FLAGS) >>> 14
  type : out.dot11_fc_metadata.type = (fc.type &&& 0x0c) >>> 2
  subtype : out.dot11_fc_metadata.subtype = (fc.type &&& 0xf0) >>> 4
  da : out.dot11_fc_metadata.da < 256 ^ 6
  sa : out.dot11_fc_metadata.sa < 256 ^ 6
  bytes : deparser { out with ethernet := none } = pkt.payload
  front : ∃ rest rest', extractRadiotap pkt.payload = some (h, rest) ∧
    dot11_frame_control_t.extract rest = some (fc, rest')

theorem extractRadiotap_emit {bs rest : Bytes} {h : Radiotap}
    (hx : extractRadiotap bs = some (h, rest)) :
    radiotap_t.emit h.toRadiotapFixed ++ h.rtapdata ++ rest = bs := by
  obtain ⟨⟨f, rest'⟩, hfixed, hvar⟩ := Option.bind_eq_some_iff.mp hx
  dsimp only at hvar
  split at hvar
  · simp only [Option.some.injEq, Prod.mk.injEq] at hvar
    obtain ⟨rfl, rfl⟩ := hvar
    rw [List.append_assoc, List.take_append_drop]
    exact radiotap_t.emit_of_extract hfixed
  · simp at hvar

theorem parse_radiotap_recognised {pkt out : Packet} (hb : Bare pkt)
    (h : parse_radiotap pkt = some out) : ∃ r fc, Recognised pkt out r fc := by
  obtain ⟨⟨r, rest⟩, hr, h⟩ := Option.bind_eq_some_iff.mp h
  obtain ⟨⟨fc, rest'⟩, hfc, h⟩ := Option.bind_eq_some_iff.mp h
  have hbare : Bare ((pkt.setRadiotap r rest).setFrameControl fc rest') :=
    ⟨hb.mgmt, hb.data, hb.no_data, hb.da, hb.sa⟩
  have hbehind := selectType_behind hbare h
  refine ⟨r, fc, hbehind.standard, hbehind.ethernet, hbehind.radiotap, hbehind.control, ?_,
    hbehind.type, hbehind.subtype, hbehind.da, hbehind.sa, ?_, rest, rest', hr, hfc⟩
  · rw [hbehind.radiotap_metadata]
    rfl
  · have hcontrol : dot11_frame_control_t.emit fc ++ rest' = rest :=
      dot11_frame_control_t.emit_of_extract hfc
    have hradiotap : out.radiotap = some r := hbehind.radiotap
    have hfc' : out.dot11_frame_control = some fc := hbehind.control
    have hbytes := hbehind.bytes
    simp only [Packet.setFrameControl] at hbytes
    simp only [deparser, hradiotap, hfc', emitHeader_none, emitHeader_some, Option.map_some,
      Option.getD_some, List.nil_append]
    rw [hbytes, hcontrol]
    exact extractRadiotap_emit hr

theorem arriving_bare (port : ℕ) (frame : Bytes) : Bare (arriving port frame) :=
  ⟨rfl, rfl, rfl, rfl, rfl⟩

/-- The parser states behind the Ethernet header read neither that header nor the
ports. -/
def Packet.wrap (pkt : Packet) (std : StandardMetadata) (e : Option Ethernet) : Packet :=
  { pkt with standard_metadata := std, ethernet := e }

section Wrap

variable (pkt : Packet) (std : StandardMetadata) (e : Option Ethernet)

theorem parse_dot11_mgmt_wrap :
    parse_dot11_mgmt (pkt.wrap std e) = (parse_dot11_mgmt pkt).map (fun out => out.wrap std e) := by
  simp only [parse_dot11_mgmt, Option.map_map]
  rfl

theorem parse_dot11_normal_data_wrap :
    parse_dot11_normal_data (pkt.wrap std e) =
      (parse_dot11_normal_data pkt).map (fun out => out.wrap std e) := by
  simp only [parse_dot11_normal_data, Option.map_map]
  rfl

theorem parse_dot11_no_data_wrap :
    parse_dot11_no_data (pkt.wrap std e) =
      (parse_dot11_no_data pkt).map (fun out => out.wrap std e) := by
  simp only [parse_dot11_no_data, Option.map_map]
  rfl

theorem parse_dot11_data_wrap :
    parse_dot11_data (pkt.wrap std e) = (parse_dot11_data pkt).map (fun out => out.wrap std e) := by
  have hsub : ((pkt.wrap std e).setAddresses 0 0 0).dot11_fc_metadata.subtype =
      (pkt.setAddresses 0 0 0).dot11_fc_metadata.subtype := rfl
  unfold parse_dot11_data
  dsimp only
  rw [hsub]
  split
  · exact parse_dot11_normal_data_wrap (pkt.setAddresses 0 0 0) std e
  · split
    · exact parse_dot11_no_data_wrap (pkt.setAddresses 0 0 0) std e
    · rfl

theorem selectType_wrap :
    selectType (pkt.wrap std e) = (selectType pkt).map (fun out => out.wrap std e) := by
  have htype : (pkt.wrap std e).dot11_fc_metadata.type = pkt.dot11_fc_metadata.type := rfl
  unfold selectType
  rw [htype]
  split
  · exact parse_dot11_mgmt_wrap pkt std e
  · rfl
  · exact parse_dot11_data_wrap pkt std e
  · rfl

theorem parse_radiotap_wrap :
    parse_radiotap (pkt.wrap std e) = (parse_radiotap pkt).map (fun out => out.wrap std e) := by
  have hpayload : (pkt.wrap std e).payload = pkt.payload := rfl
  unfold parse_radiotap
  rw [hpayload, Option.map_bind]
  congr 1
  funext r
  simp only [Function.comp_apply, parse_dot11_frame_control, Option.map_bind]
  have hpayload' : ((pkt.wrap std e).setRadiotap r.1 r.2).payload =
      (pkt.setRadiotap r.1 r.2).payload := rfl
  rw [hpayload']
  congr 1
  funext fc
  exact selectType_wrap ((pkt.setRadiotap r.1 r.2).setFrameControl fc.1 fc.2) std e

end Wrap

end Nxwlan.SwitchParser
