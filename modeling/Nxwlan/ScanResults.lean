import Nxwlan.ProbeAdverts

/-!
The advertisement of an agent in the probe responses of its hostapd, read from a
scan of another agent. `hostapd_cli` makes an element of three texts, the daemon
stores its bytes, iw prints them, and `performActiveScan` reads the lines with a
few variables that keep what was last seen.
-/
namespace Nxwlan.ScanResults

open JsonFrames AgentState PyText ProbeRequests ScanCommands ProbeAdverts
open ReceiveLoop (hexEncode unhex_hexEncode lowerHex)
open Base64 (Bytes)

section Hostapd

def HOSTAPD_PATH : Text := "../hostapd-20131120/hostapd/".toList

def HOSTAPD_CTRL_PATH : Text := "/tmp/hostapd-phy1/".toList

/-- The command of `addIEtoProbeResponses`. -/
def addIEtoProbeResponses (pubKeyStr SymKeyStr SymIVStr IpStr : Text) : Text :=
  HOSTAPD_PATH ++ "hostapd_cli -p ".toList ++ HOSTAPD_CTRL_PATH ++ " add_ie b16b00 b5 ".toList ++
    SymKeyStr ++ SymIVStr ++ pubKeyStr ++ IpStr

/-- The element of one round of the loop; nothing is added where a text has not the
length it must have. -/
def ieOf (oui vendorType data : Text) : Text :=
  if oui.length = 6 ∧ vendorType.length = 2 ∧ data.length < 251 * 2 ∧ data.length % 2 = 0 then
    "dd".toList ++ format02x (data.length / 2 + 4) ++ oui ++ vendorType ++ data
  else []

/-- The loop over the elements; without enough arguments it reads behind `argv`. -/
def addIes : ℕ → List Text → Text → Option Text
  | 0, _, buf => some buf
  | n + 1, oui :: vendorType :: data :: rest, buf => addIes n rest (buf ++ ieOf oui vendorType data)
  | _ + 1, _, _ => none

/-- The request that goes to the daemon, if one does. -/
def hostapd_cli_cmd_add_ie (interactive : Bool) (argv : List Text) : Option Text :=
  match argv with
  | [] => some "ADD_IE ".toList
  | [ie] => some (("ADD_IE ".toList ++ ie).take 1999)
  | [_, _] => none
  | [oui, vendorType, data] => addIes 1 [oui, vendorType, data] "ADD_IE ".toList
  | number :: rest =>
      if number.length ≤ 2 then
        let number_of_ie := (strtoul 10 number).1 % 2 ^ 32
        if number_of_ie = 0 then none
        else addIes (if interactive then min number_of_ie 2 else number_of_ie) rest
          "ADD_IE ".toList
      else none

/-- `hostapd_cli -p path add_ie ...` from a command line. -/
def runHostapdCli (command : Text) : Option Text :=
  match shellWords command with
  | _ :: option :: _ :: cmd :: argv =>
      if option = "-p".toList ∧ cmd = "add_ie".toList then hostapd_cli_cmd_add_ie false argv else none
  | _ => none

/-- The first `len` bytes of a hex text. -/
def hexstr2bin (hex : Text) (len : ℕ) : Option Bytes := unhex (hex.take (2 * len))

/-- The elements that hostapd adds, and whether the request was all right. -/
def hostapd_ctrl_iface_add_ie (vendorspec_beacon_ie : Option Bytes) (ie_hex_data : Text) :
    Option Bytes × Bool :=
  let len := ie_hex_data.length / 2
  if len = 0 then (none, true)
  else
    match hexstr2bin ie_hex_data len with
    | none => (vendorspec_beacon_ie, false)
    | some elems => (some elems, true)

/-- The daemon on a request; it reads at most 4095 characters. -/
def hostapd_ctrl_iface_receive (vendorspec_beacon_ie : Option Bytes) (request : Text) :
    Option Bytes :=
  let buf := request.take 4095
  if buf.take 7 = "ADD_IE ".toList then
    (hostapd_ctrl_iface_add_ie vendorspec_beacon_ie (buf.drop 7)).1
  else vendorspec_beacon_ie

end Hostapd

section Iw

/-- `" %.2x"` for every byte. -/
def spaced (bytes : Bytes) : Text := bytes.flatMap (fun b => ' ' :: hexPair b)

/-- The content of a vendor specific element as iw prints it; `known` is what it prints
for the two vendors that it knows. -/
def print_vendor (known : Bytes → Text) (unknown : Bool) (data : Bytes) : Text :=
  match data with
  | d₀ :: d₁ :: d₂ :: rest =>
      if rest ≠ [] ∧ ([d₀, d₁, d₂] = [0x00, 0x50, 0xf2] ∨ [d₀, d₁, d₂] = [0x50, 0x6f, 0x9a]) then
        known data
      else if unknown then
        "\tVendor specific: OUI ".toList ++ hexPair d₀ ++ ":".toList ++ hexPair d₁ ++
          ":".toList ++ hexPair d₂ ++ ", data:".toList ++ spaced rest ++ "\n".toList
      else []
  | _ => "\tVendor specific: <too short> data:".toList ++ spaced data ++ "\n".toList

end Iw

section Scan

/-- A number that the source has as a text or as a number. -/
abbrev Number := Text ⊕ ℤ

/-- `int(x)`. -/
def toInt : Number → Option ℤ
  | .inl text => readInt text
  | .inr n => some n

structure ScanEntry where
  freq : Number
  ssid : Text
  rssi : Text
  data : Text

/-- The variables of the loop over the lines; the level is unbound until a line has set
it. -/
structure ScanState where
  freq : Number
  ssid : Text
  rssi : Option Text := none
  dataArray : List ScanEntry := []

def vendorText : Text := "Vendor specific: OUI b1:6b:00, data: b5 ".toList

/-- One round of the loop over the lines. -/
def scanLine (st : ScanState) (line : Text) : Except PyError ScanState :=
  let freq := if contains "freq: ".toList line then
      .inl (replace ['\n'] [] (replace [' '] [] (replace "freq: ".toList [] line)))
    else st.freq
  let rssi := if contains "signal: ".toList line then
      some (replace ['\n'] [] (replace ".00 dBm".toList [] (replace "signal: ".toList [] line)))
    else st.rssi
  let ssid := if contains "SSID: ".toList line then
      replace ['\n'] [] (replace ['\t'] [] (replace "SSID: ".toList [] line))
    else st.ssid
  if contains vendorText line then
    match rssi with
    | none => .error .nameError
    | some level =>
        .ok ⟨freq, ssid, rssi,
          st.dataArray ++ [⟨freq, ssid, level, replace vendorText [] line⟩]⟩
  else .ok ⟨freq, ssid, rssi, st.dataArray⟩

def scanLines (st : ScanState) : List Text → Except PyError ScanState
  | [] => .ok st
  | line :: rest =>
      match scanLine st line with
      | .error e => .error e
      | .ok st => scanLines st rest

/-- The entry of one line; `none` where it is passed over. -/
def readEntry (p : Platform) (now : ℤ) (pubKeyStr SymKeyStr SymIVStr : Text) (e : ScanEntry) :
    Except PyError (Option Neighbor) :=
  if e.data.length ≤ 10 then .ok none
  else
    let data := replace ['\t'] [] (replace ['\n'] [] (replace [' '] [] e.data))
    match readInt e.rssi, toInt e.freq with
    | some rssi, some freq =>
        (parse_resfi_ie p now data SymKeyStr.length SymIVStr.length pubKeyStr.length 0 rssi freq
          (some (String.ofList e.ssid))).map some
    | _, _ => .error .valueError

/-- The loop over the entries. -/
def readEntries (p : Platform) (now : ℤ) (pubKeyStr SymKeyStr SymIVStr : Text)
    (neighborList : NeighborList) : List ScanEntry → Except PyError NeighborList
  | [] => .ok neighborList
  | e :: rest =>
      match readEntry p now pubKeyStr SymKeyStr SymIVStr e with
      | .error err => .error err
      | .ok none => readEntries p now pubKeyStr SymKeyStr SymIVStr neighborList rest
      | .ok (some entry) =>
          readEntries p now pubKeyStr SymKeyStr SymIVStr
            (if entry.ipAddress = "Error" then neighborList
              else neighborList.insert entry.ipAddress entry) rest

/-- `s.splitlines()`, with the line that is being read. -/
def splitlinesFrom (line : Text) : Text → List Text
  | [] => if line = [] then [] else [line]
  | '\r' :: '\n' :: s => line :: splitlinesFrom [] s
  | '\r' :: s => line :: splitlinesFrom [] s
  | '\n' :: s => line :: splitlinesFrom [] s
  | c :: s => splitlinesFrom (line ++ [c]) s

def splitlines (s : Text) : List Text := splitlinesFrom [] s

/-- `run` is what a command prints. -/
def performActiveScan (p : Platform) (now : ℤ) (run : Text → Text) (wireless : Text)
    (fullScan : Bool) (ssid : Text) (freq : ℤ) (pubKeyStr SymKeyStr SymIVStr IpStr : Text)
    (ownFreq : ℤ) : Except PyError NeighborList := do
  let command ← scanCommand wireless fullScan ssid freq pubKeyStr SymKeyStr SymIVStr IpStr ownFreq
  let st ← scanLines { freq := .inr freq, ssid := ssid } (splitlines (run command))
  readEntries p now pubKeyStr SymKeyStr SymIVStr ∅ st.dataArray

end Scan

section Stored

theorem hexEncode_vendorElement (payload : Bytes) :
    hexEncode (vendorElement payload) = "dd".toList ++ hexPair (UInt8.ofNat (payload.length + 4)) ++
      "b16b00".toList ++ "b5".toList ++ hexEncode payload := by
  have hhead : hexEncode [0xdd] = "dd".toList := by decide
  have houi : hexEncode [0xb1, 0x6b, 0x00] = "b16b00".toList := by decide
  have htype : hexEncode [0xb5] = "b5".toList := by decide
  have hparts : vendorElement payload =
      [0xdd] ++ [UInt8.ofNat (payload.length + 4)] ++ [0xb1, 0x6b, 0x00] ++ [0xb5] ++ payload := rfl
  rw [hparts, hexEncode_append, hexEncode_append, hexEncode_append, hexEncode_append, hhead, houi,
    htype]
  simp [hexEncode_eq]

/-- The request of `add_ie` with the three arguments is the element in hex. -/
theorem ieOf_hexEncode {payload : Bytes} (hlen : payload.length ≤ 250) :
    ieOf "b16b00".toList "b5".toList (hexEncode payload) = hexEncode (vendorElement payload) := by
  have hhalf : (hexEncode payload).length / 2 + 4 = payload.length + 4 := by
    rw [hexEncode_length]
    omega
  have hlengths : "b16b00".toList.length = 6 ∧ "b5".toList.length = 2 ∧
      (hexEncode payload).length < 251 * 2 ∧ (hexEncode payload).length % 2 = 0 := by
    rw [hexEncode_length]
    refine ⟨rfl, rfl, ?_, ?_⟩
    · omega
    · omega
  rw [ieOf, if_pos hlengths, hhalf, format02x_eq _ (by omega), hexEncode_vendorElement]

/-- The daemon on an even number of digits that fit into its buffer. -/
theorem receive_digits (stored : Option Bytes) {digits : Text} (hlen : digits.length ≤ 4088)
    (heven : digits.length % 2 = 0) :
    hostapd_ctrl_iface_receive stored ("ADD_IE ".toList ++ digits) =
      if digits = [] then none else (unhex digits).or stored := by
  have hwhole : ("ADD_IE ".toList ++ digits).take 4095 = "ADD_IE ".toList ++ digits := by
    apply List.take_of_length_le
    have hname : "ADD_IE ".toList.length = 7 := rfl
    rw [List.length_append, hname]
    omega
  have hhead : ("ADD_IE ".toList ++ digits).take 7 = "ADD_IE ".toList := List.take_left' rfl
  have htail : ("ADD_IE ".toList ++ digits).drop 7 = digits := List.drop_left' rfl
  rw [hostapd_ctrl_iface_receive, hwhole, if_pos hhead, htail, hostapd_ctrl_iface_add_ie]
  by_cases hnil : digits = []
  · rw [if_pos hnil, hnil]
    rfl
  · have hpos := List.length_pos_iff.mpr hnil
    rw [if_neg hnil, if_neg (by omega), hexstr2bin, List.take_of_length_le (by omega)]
    cases unhex digits with
    | none => rfl
    | some elems => rfl

/-- The daemon stores the bytes of a request that is short enough for its buffer. -/
theorem receive_add_ie (stored : Option Bytes) {elements : Bytes} (hne : elements ≠ [])
    (hlen : elements.length ≤ 2044) :
    hostapd_ctrl_iface_receive stored ("ADD_IE ".toList ++ hexEncode elements) = some elements := by
  have hhex := hexEncode_length elements
  have hpos := List.length_pos_iff.mpr hne
  have hdigits : hexEncode elements ≠ [] := List.length_pos_iff.mp (by omega)
  rw [receive_digits stored (by omega) (by omega), if_neg hdigits, unhex_hexEncode, Option.some_or]

/-- The command line of `addIEtoProbeResponses` comes to `add_ie` with three arguments. -/
theorem runHostapdCli_add {key iv der host : Bytes} (hne : key ≠ []) :
    runHostapdCli (addIEtoProbeResponses (hexEncode der) (hexEncode key) (hexEncode iv)
        (hexEncode host)) =
      some ("ADD_IE ".toList ++ ieOf "b16b00".toList "b5".toList
        (hexEncode (key ++ iv ++ der ++ host))) := by
  have hcommand : addIEtoProbeResponses (hexEncode der) (hexEncode key) (hexEncode iv)
      (hexEncode host) = [' '].intercalate ([HOSTAPD_PATH ++ "hostapd_cli".toList, "-p".toList,
        HOSTAPD_CTRL_PATH, "add_ie".toList, "b16b00".toList, "b5".toList] ++
          [hexEncode (key ++ iv ++ der ++ host)]) := by
    simp only [addIEtoProbeResponses, List.cons_append, List.nil_append,
      List.intercalate_cons_cons, List.intercalate_singleton, hexEncode_append, List.append_assoc]
    rfl
  have hfront : ∀ word ∈ [HOSTAPD_PATH ++ "hostapd_cli".toList, "-p".toList, HOSTAPD_CTRL_PATH,
      "add_ie".toList, "b16b00".toList, "b5".toList], ' ' ∉ word ∧ word ≠ [] := by
    decide
  have hdata : hexEncode (key ++ iv ++ der ++ host) ≠ [] := by
    intro hnil
    have := congrArg List.length hnil
    rw [hexEncode_length, List.length_nil] at this
    have hpos := List.length_pos_iff.mpr hne
    simp only [List.length_append] at this
    omega
  have hwords : ∀ word ∈ [HOSTAPD_PATH ++ "hostapd_cli".toList, "-p".toList, HOSTAPD_CTRL_PATH,
      "add_ie".toList, "b16b00".toList, "b5".toList] ++ [hexEncode (key ++ iv ++ der ++ host)],
        ' ' ∉ word ∧ word ≠ [] := by
    intro word hword
    rcases List.mem_append.mp hword with hword | hword
    · exact hfront word hword
    · rw [List.mem_singleton.mp hword]
      exact ⟨hexEncode_free (by decide) _, hdata⟩
  rw [runHostapdCli, hcommand, shellWords_intercalate (by simp) hwords]
  rfl

/-- The element that hostapd has stored after `addIEtoProbeResponses`. -/
theorem stored_element (stored : Option Bytes) {key iv der host : Bytes} (hne : key ≠ [])
    (hlen : (key ++ iv ++ der ++ host).length ≤ 250) :
    (runHostapdCli (addIEtoProbeResponses (hexEncode der) (hexEncode key) (hexEncode iv)
      (hexEncode host))).map (hostapd_ctrl_iface_receive stored) =
      some (some (vendorElement (key ++ iv ++ der ++ host))) := by
  have hsize : (vendorElement (key ++ iv ++ der ++ host)).length ≤ 2044 := by
    rw [vendorElement, List.length_append]
    have : ([0xdd, UInt8.ofNat ((key ++ iv ++ der ++ host).length + 4), 0xb1, 0x6b, 0x00,
      0xb5] : Bytes).length = 6 := rfl
    omega
  rw [runHostapdCli_add hne, ieOf_hexEncode hlen, Option.map_some,
    receive_add_ie stored (by simp [vendorElement]) hsize]

end Stored

section Printed

/-- The line that iw prints for the element. -/
def vendorLine (payload : Bytes) : Text :=
  "\t".toList ++ vendorText ++ [' '].intercalate (payload.map hexPair)

theorem spaced_eq {payload : Bytes} (hne : payload ≠ []) :
    spaced payload = ' ' :: [' '].intercalate (payload.map hexPair) := by
  induction payload with
  | nil => exact absurd rfl hne
  | cons b s ih =>
    cases s with
    | nil => simp [spaced]
    | cons c s =>
      rw [spaced, List.flatMap_cons, ← spaced, ih (List.cons_ne_nil c s)]
      simp only [List.map_cons, List.intercalate_cons_cons, List.append_assoc]
      rfl

/-- iw prints the element so. -/
theorem print_vendorElement (known : Bytes → Text) {payload : Bytes} (hne : payload ≠ []) :
    print_vendor known true ((vendorElement payload).drop 2) = vendorLine payload ++ "\n".toList := by
  have hcontent : (vendorElement payload).drop 2 = 0xb1 :: 0x6b :: 0x00 :: 0xb5 :: payload := rfl
  have hspaced : spaced (0xb5 :: payload) =
      " b5 ".toList ++ [' '].intercalate (payload.map hexPair) := by
    rw [spaced, List.flatMap_cons, ← spaced, spaced_eq hne]
    rfl
  rw [hcontent, print_vendor, if_neg (by simp), if_pos rfl, hspaced, vendorLine]
  simp only [List.append_assoc]
  rfl

end Printed

section Lines

theorem filter_eq_self_of_not_mem {c : Char} {s : Text} (h : c ∉ s) : s.filter (· ≠ c) = s := by
  rw [List.filter_eq_self]
  intro d hd
  exact decide_eq_true (fun hdc => h (hdc ▸ hd))

/-- A tab in front of a number is passed over. -/
theorem readInt_tab (i : ℤ) : readInt ('\t' :: showInt i) = some i := by
  have hstrip : strip ('\t' :: showInt i) = strip (showInt i) := by
    have hspace : isSpace '\t' = true := rfl
    simp only [strip, List.dropWhile_cons, hspace, if_true]
  rw [readInt, hstrip, ← readInt, readInt_showInt]

theorem toInt_tab (i : ℤ) : toInt (.inl ('\t' :: showInt i)) = some i := readInt_tab i

variable {st : ScanState} {line : Text}

/-- A line without any of the texts that the loop looks for. -/
def Quiet (line : Text) : Prop :=
  contains "freq: ".toList line = false ∧ contains "signal: ".toList line = false ∧
    contains "SSID: ".toList line = false ∧ contains vendorText line = false

theorem scanLine_quiet (h : Quiet line) : scanLine st line = .ok st := by
  obtain ⟨hfreq, hsignal, hssid, hvendor⟩ := h
  simp only [scanLine, hfreq, hsignal, hssid, hvendor, Bool.false_eq_true, if_false]

/-- The lines of a station in the output of iw: its frequency, its level in whole dBm
and its name. -/
def freqLine (freq : ℤ) : Text := "\t".toList ++ "freq: ".toList ++ showInt freq

def signalLine (rssi : ℤ) : Text :=
  "\t".toList ++ "signal: ".toList ++ (showInt rssi ++ ".00 dBm".toList)

def ssidLine (ssid : Text) : Text := "\t".toList ++ "SSID: ".toList ++ ssid

/-- A line without a letter of the text. -/
theorem absent {text : Text} {d : Char} (hd : d ∈ text) (hline : d ∉ line) :
    contains text line = false :=
  contains_eq_false_iff.mpr (not_infix_of_not_mem hd hline)

theorem scanLine_freq (st : ScanState) (freq : ℤ) :
    scanLine st (freqLine freq) = .ok { st with freq := .inl ('\t' :: showInt freq) } := by
  have hnot : ∀ c, c ≠ '-' → c.isDigit = false → c ∉ "\t".toList ++ "freq: ".toList →
      c ∉ freqLine freq := by
    intro c hminus hdigit hfront
    rw [freqLine, List.mem_append, not_or]
    exact ⟨hfront, not_mem_showInt hminus hdigit freq⟩
  have hfreq : contains "freq: ".toList (freqLine freq) = true :=
    contains_iff.mpr ⟨"\t".toList, showInt freq, rfl⟩
  have hsignal : contains "signal: ".toList (freqLine freq) = false :=
    absent (d := 'g') (by decide) (hnot 'g' (by decide) (by decide) (by decide))
  have hssid : contains "SSID: ".toList (freqLine freq) = false :=
    absent (d := 'S') (by decide) (hnot 'S' (by decide) (by decide) (by decide))
  have hvendor : contains vendorText (freqLine freq) = false :=
    absent (d := 'V') (by decide) (hnot 'V' (by decide) (by decide) (by decide))
  have hcut : replace "freq: ".toList [] (freqLine freq) = '\t' :: showInt freq :=
    replace_once (d := 'f') (by decide) (by decide) (not_infix_of_not_mem (d := 'q') (by decide)
      (not_mem_showInt (by decide) (by decide) freq))
  have hclean : ∀ c, c ≠ '-' → c.isDigit = false → c ≠ '\t' →
      ('\t' :: showInt freq).filter (· ≠ c) = '\t' :: showInt freq := by
    intro c hminus hdigit htab
    apply filter_eq_self_of_not_mem
    rw [List.mem_cons, not_or]
    exact ⟨htab, not_mem_showInt hminus hdigit freq⟩
  simp only [scanLine, hfreq, hsignal, hssid, hvendor, hcut, replace_letter,
    hclean ' ' (by decide) (by decide) (by decide),
    hclean '\n' (by decide) (by decide) (by decide), if_true, Bool.false_eq_true, if_false]

/-- A line with a level in any form; only the unit of whole dBm is taken away. -/
theorem scanLine_level (st : ScanState) {level : Text} (h : ∀ c ∈ "qgSV".toList, c ∉ level) :
    scanLine st ("\t".toList ++ "signal: ".toList ++ level) =
      .ok { st with
        rssi := some ((replace ".00 dBm".toList [] ('\t' :: level)).filter (· ≠ '\n')) } := by
  have hnot : ∀ c ∈ "qSV".toList, c ∉ "\t".toList ++ "signal: ".toList ++ level := by
    have hletters : ∀ c ∈ "qSV".toList, c ∉ "\t".toList ++ "signal: ".toList ∧ c ∈ "qgSV".toList :=
      forall_of_all (by decide)
    intro c hc
    rw [List.mem_append, not_or]
    exact ⟨(hletters c hc).1, h c (hletters c hc).2⟩
  have hfreq : contains "freq: ".toList ("\t".toList ++ "signal: ".toList ++ level) = false :=
    absent (d := 'q') (by decide) (hnot 'q' (by decide))
  have hsignal : contains "signal: ".toList ("\t".toList ++ "signal: ".toList ++ level) = true :=
    contains_iff.mpr ⟨"\t".toList, level, rfl⟩
  have hssid : contains "SSID: ".toList ("\t".toList ++ "signal: ".toList ++ level) = false :=
    absent (d := 'S') (by decide) (hnot 'S' (by decide))
  have hvendor : contains vendorText ("\t".toList ++ "signal: ".toList ++ level) = false :=
    absent (d := 'V') (by decide) (hnot 'V' (by decide))
  have hcut : replace "signal: ".toList [] ("\t".toList ++ "signal: ".toList ++ level) =
      '\t' :: level :=
    replace_once (d := 's') (by decide) (by decide)
      (not_infix_of_not_mem (d := 'g') (by decide) (h 'g' (by decide)))
  simp only [scanLine, hfreq, hsignal, hssid, hvendor, hcut, replace_letter, if_true,
    Bool.false_eq_true, if_false]

theorem scanLine_signal (st : ScanState) (rssi : ℤ) :
    scanLine st (signalLine rssi) = .ok { st with rssi := some ('\t' :: showInt rssi) } := by
  have htail : ∀ c ∈ "qgSV".toList, c ∉ showInt rssi ++ ".00 dBm".toList := by
    have hletters : ∀ c ∈ "qgSV".toList, c ≠ '-' ∧ c.isDigit = false ∧ c ∉ ".00 dBm".toList :=
      forall_of_all (by decide)
    intro c hc
    obtain ⟨hminus, hdigit, hunit⟩ := hletters c hc
    rw [List.mem_append, not_or]
    exact ⟨not_mem_showInt hminus hdigit rssi, hunit⟩
  have hunit : replace ".00 dBm".toList [] ('\t' :: showInt rssi ++ ".00 dBm".toList) =
      '\t' :: showInt rssi := by
    have hdot : '.' ∉ '\t' :: showInt rssi := by
      rw [List.mem_cons, not_or]
      exact ⟨by decide, not_mem_showInt (by decide) (by decide) rssi⟩
    have honce : replace ".00 dBm".toList [] ('\t' :: showInt rssi ++ ".00 dBm".toList ++ []) =
        '\t' :: showInt rssi ++ [] ++ [] := replace_once (d := '.') rfl hdot (by decide)
    rwa [List.append_nil, List.append_nil, List.append_nil] at honce
  have hclean : ('\t' :: showInt rssi).filter (· ≠ '\n') = '\t' :: showInt rssi := by
    apply filter_eq_self_of_not_mem
    rw [List.mem_cons, not_or]
    exact ⟨by decide, not_mem_showInt (by decide) (by decide) rssi⟩
  rw [signalLine, scanLine_level st htail, ← List.cons_append, hunit, hclean]

/-- A name, as iw prints it, that the loop does not take for something else. -/
structure PlainSsid (name : Text) : Prop where
  freq : ¬ "freq: ".toList <:+: name
  signal : ¬ "signal: ".toList <:+: name
  ssid : ¬ "SSID: ".toList <:+: name
  vendor : ¬ vendorText <:+: name
  tab : '\t' ∉ name
  newline : '\n' ∉ name

theorem scanLine_ssid (st : ScanState) {ssid : Text} (h : PlainSsid ssid) :
    scanLine st (ssidLine ssid) = .ok { st with ssid := ssid } := by
  have hfreq : contains "freq: ".toList (ssidLine ssid) = false :=
    contains_eq_false_iff.mpr
      (fun hin => h.freq (infix_of_infix_append (d := 'f') rfl (by decide) hin))
  have hsignal : contains "signal: ".toList (ssidLine ssid) = false :=
    contains_eq_false_iff.mpr
      (fun hin => h.signal (infix_of_infix_append (d := 's') rfl (by decide) hin))
  have hssid : contains "SSID: ".toList (ssidLine ssid) = true :=
    contains_iff.mpr ⟨"\t".toList, ssid, rfl⟩
  have hvendor : contains vendorText (ssidLine ssid) = false :=
    contains_eq_false_iff.mpr
      (fun hin => h.vendor (infix_of_infix_append (d := 'V') rfl (by decide) hin))
  have hcut : replace "SSID: ".toList [] (ssidLine ssid) = '\t' :: ssid :=
    replace_once (d := 'S') (by decide) (by decide) h.ssid
  have htab : ('\t' :: ssid).filter (· ≠ '\t') = ssid := by
    rw [List.filter_cons_of_neg (by decide), filter_eq_self_of_not_mem h.tab]
  simp only [scanLine, hfreq, hsignal, hssid, hvendor, hcut, replace_letter, htab,
    filter_eq_self_of_not_mem h.newline, if_true, Bool.false_eq_true, if_false]

/-- What is left of the line of the element. -/
def lineData (payload : Bytes) : Text := '\t' :: [' '].intercalate (payload.map hexPair)

theorem spaced_free {c : Char} (hblank : c ≠ ' ') (hc : ∀ n < 16, lowerHex n ≠ c)
    (payload : Bytes) : c ∉ spaced payload := by
  rw [spaced, List.mem_flatMap]
  rintro ⟨b, -, hb⟩
  rcases List.mem_cons.mp hb with rfl | hb
  · exact hblank rfl
  · exact hexPair_free hc b hb

theorem not_mem_lineData {c : Char} (htab : c ≠ '\t') (hblank : c ≠ ' ')
    (hc : ∀ n < 16, lowerHex n ≠ c) (payload : Bytes) : c ∉ lineData payload := by
  have hspaced := spaced_free hblank hc payload
  rw [lineData, List.mem_cons, not_or]
  refine ⟨htab, ?_⟩
  cases payload with
  | nil => simp
  | cons b s =>
    rw [spaced_eq (List.cons_ne_nil b s), List.mem_cons, not_or] at hspaced
    exact hspaced.2

/-- The line of the element takes what the loop has last seen; without a level there is
nothing to take. -/
theorem scanLine_vendorLine (st : ScanState) (payload : Bytes) :
    scanLine st (vendorLine payload) =
      match st.rssi with
      | none => .error .nameError
      | some rssi => .ok { st with
          dataArray := st.dataArray ++ [⟨st.freq, st.ssid, rssi, lineData payload⟩] } := by
  have htail : ∀ c, c ≠ '\t' → c ≠ ' ' → (∀ n < 16, lowerHex n ≠ c) →
      c ∉ [' '].intercalate (payload.map hexPair) := by
    intro c htab hblank hc hmem
    exact not_mem_lineData htab hblank hc payload (List.mem_cons_of_mem _ hmem)
  have hnot : ∀ c, c ≠ '\t' → c ≠ ' ' → (∀ n < 16, lowerHex n ≠ c) →
      c ∉ "\t".toList ++ vendorText → c ∉ vendorLine payload := by
    intro c htab hblank hc hfront
    rw [vendorLine, List.mem_append, not_or]
    exact ⟨hfront, htail c htab hblank hc⟩
  have hfreq : contains "freq: ".toList (vendorLine payload) = false :=
    absent (d := 'q') (by decide) (hnot 'q' (by decide) (by decide) (by decide) (by decide))
  have hsignal : contains "signal: ".toList (vendorLine payload) = false :=
    absent (d := 'g') (by decide) (hnot 'g' (by decide) (by decide) (by decide) (by decide))
  have hssid : contains "SSID: ".toList (vendorLine payload) = false :=
    absent (d := 'S') (by decide) (hnot 'S' (by decide) (by decide) (by decide) (by decide))
  have hvendor : contains vendorText (vendorLine payload) = true :=
    contains_iff.mpr ⟨"\t".toList, _, rfl⟩
  have hcut : replace vendorText [] (vendorLine payload) = lineData payload :=
    replace_once (d := 'V') (by decide) (by decide) (not_infix_of_not_mem (d := 'V') (by decide)
      (htail 'V' (by decide) (by decide) (by decide)))
  simp only [scanLine, hfreq, hsignal, hssid, hvendor, hcut, if_true, Bool.false_eq_true, if_false]

theorem scanLine_vendor (st : ScanState) (payload : Bytes) {rssi : Text}
    (hrssi : st.rssi = some rssi) :
    scanLine st (vendorLine payload) =
      .ok { st with dataArray := st.dataArray ++ [⟨st.freq, st.ssid, rssi, lineData payload⟩] } := by
  rw [scanLine_vendorLine]
  simp only [hrssi]

end Lines

section Entries

variable {p : Platform} {now : ℤ} {pubKeyStr SymKeyStr SymIVStr : Text}

/-- Without blanks, the line has the digits of the element. -/
theorem lineData_digits {payload : Bytes} (hne : payload ≠ []) :
    replace ['\t'] [] (replace ['\n'] [] (replace [' '] [] (lineData payload))) =
      hexEncode payload := by
  have hpair : ∀ b, (' ' :: hexPair b).filter (· ≠ ' ') = hexPair b := by
    intro b
    rw [List.filter_cons_of_neg (by decide), filter_eq_self_of_not_mem (hexPair_free (by decide) b)]
  have hspaced : (spaced payload).filter (· ≠ ' ') = hexEncode payload := by
    rw [spaced, List.filter_flatMap, hexEncode_eq]
    simp only [hpair]
  rw [spaced_eq hne, List.filter_cons_of_neg (by decide)] at hspaced
  have hblank : (lineData payload).filter (· ≠ ' ') = '\t' :: hexEncode payload := by
    rw [lineData, List.filter_cons_of_pos (by decide), hspaced]
  have hnewline : '\n' ∉ '\t' :: hexEncode payload := by
    rw [List.mem_cons, not_or]
    exact ⟨by decide, hexEncode_free (by decide) payload⟩
  rw [replace_letter, replace_letter, replace_letter, hblank, filter_eq_self_of_not_mem hnewline,
    List.filter_cons_of_neg (by decide),
    filter_eq_self_of_not_mem (hexEncode_free (by decide) payload)]

theorem length_lineData {payload : Bytes} (hne : payload ≠ []) :
    (lineData payload).length = 3 * payload.length := by
  have hspaced := congrArg List.length (spaced_eq hne)
  have hlen : (spaced payload).length = 3 * payload.length := by
    simp [spaced, hexPair, List.length_flatMap, Nat.mul_comm]
  rw [hlen, List.length_cons] at hspaced
  rw [lineData, List.length_cons, hspaced]

/-- The entry of an agent that was heard in a scan. -/
def responseEntry (key iv : Bytes) (pubKey : RsaPublicKey) (host : Bytes) (now freq rssi : ℤ)
    (ssid : Text) : Neighbor where
  ipAddress := String.ofList (Messaging.asciiText host)
  encryptionKey := key
  encryptionIV := iv
  pubKey := some pubKey
  rssiProbeResponse := rssi
  freq := freq
  ssid := String.ofList ssid
  timestampLastKCM := now

/-- What is left of the line is read as the entry that was advertised. -/
theorem readEntry_lineData {key iv host : Bytes} {k : RsaPublicKey} (hkey : key.length = 16)
    (hiv : iv.length = 16) (hhost : host ≠ []) (hpub : p.importKey (p.exportKey k) = some k)
    (hSymKey : SymKeyStr.length = 32) (hSymIV : SymIVStr.length = 32)
    (hpubKey : pubKeyStr.length = 2 * (p.exportKey k).length) {number : Number} {level ssid : Text}
    {freq rssi : ℤ} (hfreq : toInt number = some freq) (hrssi : readInt level = some rssi) :
    readEntry p now pubKeyStr SymKeyStr SymIVStr
        ⟨number, ssid, level, lineData (key ++ iv ++ p.exportKey k ++ host)⟩ =
      .ok (some (responseEntry key iv k host now freq rssi ssid)) := by
  have hne : key ++ iv ++ p.exportKey k ++ host ≠ [] := by
    simp [hhost]
  have hlong : ¬ (lineData (key ++ iv ++ p.exportKey k ++ host)).length ≤ 10 := by
    rw [length_lineData hne]
    simp only [List.length_append]
    omega
  have hparse : parse_resfi_ie p now (hexEncode key ++ hexEncode iv ++
      hexEncode (p.exportKey k) ++ hexEncode host) (hexEncode key).length (hexEncode iv).length
      (hexEncode (p.exportKey k)).length 0 rssi freq (some (String.ofList ssid)) =
        .ok (responseEntry key iv k host now freq rssi ssid) :=
    parse_resfi_ie_parts (unhex_hexEncode _) (unhex_hexEncode _) (unhex_hexEncode _)
      (unhex_hexEncode _) hhost hpub
  have hlengths : (hexEncode key).length = SymKeyStr.length ∧
      (hexEncode iv).length = SymIVStr.length ∧
      (hexEncode (p.exportKey k)).length = pubKeyStr.length := by
    simp only [hexEncode_length, hkey, hiv, hSymKey, hSymIV, hpubKey, and_self]
  rw [hlengths.1, hlengths.2.1, hlengths.2.2] at hparse
  rw [readEntry, if_neg hlong, lineData_digits hne, hexEncode_append, hexEncode_append,
    hexEncode_append]
  simp only [hrssi, hfreq, hparse]
  rfl

end Entries

section Loops

variable {p : Platform} {now : ℤ} {pubKeyStr SymKeyStr SymIVStr : Text} {st st' : ScanState}

theorem scanLines_append {before : List Text} (h : scanLines st before = .ok st')
    (after : List Text) : scanLines st (before ++ after) = scanLines st' after := by
  induction before generalizing st with
  | nil =>
    obtain rfl := Except.ok.inj h
    rfl
  | cons line rest ih =>
    rw [List.cons_append, scanLines]
    rw [scanLines] at h
    cases hline : scanLine st line with
    | error e =>
      rw [hline] at h
      cases h
    | ok st₁ =>
      rw [hline] at h
      exact ih h

/-- A loop that ends has gone through all its lines up to any of them. -/
theorem scanLines_split {before after : List Text}
    (h : scanLines st (before ++ after) = .ok st') :
    ∃ st₁, scanLines st before = .ok st₁ ∧ scanLines st₁ after = .ok st' := by
  induction before generalizing st with
  | nil => exact ⟨st, rfl, h⟩
  | cons line rest ih =>
    rw [List.cons_append, scanLines] at h
    cases hline : scanLine st line with
    | error e =>
      rw [hline] at h
      cases h
    | ok st₁ =>
      rw [hline] at h
      obtain ⟨st₂, hrest, hafter⟩ := ih h
      exact ⟨st₂, by rw [scanLines, hline]; exact hrest, hafter⟩

theorem scanLines_quiet {lines : List Text} (h : ∀ line ∈ lines, Quiet line) :
    scanLines st lines = .ok st := by
  induction lines with
  | nil => rfl
  | cons line rest ih =>
    rw [scanLines, scanLine_quiet (h line (by simp))]
    exact ih (fun l hl => h l (by simp [hl]))

/-- Lines without an element add no entry. -/
theorem scanLines_dataArray {lines : List Text}
    (hlines : ∀ line ∈ lines, contains vendorText line = false) (h : scanLines st lines = .ok st') :
    st'.dataArray = st.dataArray := by
  induction lines generalizing st with
  | nil =>
    obtain rfl := Except.ok.inj h
    rfl
  | cons line rest ih =>
    have hnone := hlines line (by simp)
    rw [scanLines] at h
    simp only [scanLine, hnone, Bool.false_eq_true, if_false] at h
    have hrest := ih (fun l hl => hlines l (by simp [hl])) h
    exact hrest

theorem readEntries_split {list list' : NeighborList} {entries more : List ScanEntry}
    (h : readEntries p now pubKeyStr SymKeyStr SymIVStr list (entries ++ more) = .ok list') :
    ∃ list₁, readEntries p now pubKeyStr SymKeyStr SymIVStr list₁ more = .ok list' := by
  induction entries generalizing list with
  | nil => exact ⟨list, h⟩
  | cons e rest ih =>
    rw [List.cons_append, readEntries] at h
    split at h
    · cases h
    · exact ih h
    · exact ih h

theorem splitlinesFrom_line {line : Text} (hline : '\n' ∉ line ∧ '\r' ∉ line) (front rest : Text) :
    splitlinesFrom front (line ++ '\n' :: rest) = (front ++ line) :: splitlinesFrom [] rest := by
  induction line generalizing front with
  | nil => simp [splitlinesFrom]
  | cons c line ih =>
    simp only [List.mem_cons, not_or] at hline
    obtain ⟨⟨hnewline, htail⟩, hreturn, htail'⟩ := hline
    rw [List.cons_append, splitlinesFrom]
    · rw [ih ⟨htail, htail'⟩, List.append_assoc]
      rfl
    · intro s hc
      exact absurd hc.symm hreturn
    · intro hc
      exact hreturn hc.symm
    · intro hc
      exact hnewline hc.symm

/-- Lines that are printed one after the other are read as they were. -/
theorem splitlines_printed {lines : List Text}
    (h : ∀ line ∈ lines, '\n' ∉ line ∧ '\r' ∉ line) :
    splitlines (lines.flatMap (fun line => line ++ ['\n'])) = lines := by
  unfold splitlines
  induction lines with
  | nil => rfl
  | cons line rest ih =>
    rw [List.flatMap_cons, List.append_assoc, List.singleton_append,
      splitlinesFrom_line (h line (by simp)), List.nil_append, ih (fun l hl => h l (by simp [hl]))]

/-- The lines of a station, with any other lines between them. -/
structure Station where
  freq : ℤ
  rssi : ℤ
  ssid : Text
  plain : PlainSsid ssid
  first : List Text
  second : List Text
  third : List Text
  fourth : List Text
  quiet : ∀ line ∈ first ++ second ++ third ++ fourth, Quiet line

def Station.lines (x : Station) (payload : Bytes) : List Text :=
  x.first ++ freqLine x.freq :: (x.second ++ signalLine x.rssi :: (x.third ++ ssidLine x.ssid ::
    (x.fourth ++ [vendorLine payload])))

/-- The loop over the lines of a station adds one entry. -/
theorem scanLines_station (x : Station) (payload : Bytes) :
    scanLines st (x.lines payload) =
      .ok ⟨.inl ('\t' :: showInt x.freq), x.ssid, some ('\t' :: showInt x.rssi), st.dataArray ++
        [⟨.inl ('\t' :: showInt x.freq), x.ssid, '\t' :: showInt x.rssi, lineData payload⟩]⟩ := by
  have hquiet : ∀ lines, (∀ line ∈ lines, line ∈ x.first ++ x.second ++ x.third ++ x.fourth) →
      ∀ (st : ScanState) (after : List Text), scanLines st (lines ++ after) = scanLines st after := by
    intro lines hsub st after
    exact scanLines_append (scanLines_quiet (fun line hline => x.quiet line (hsub line hline))) after
  rw [Station.lines, hquiet x.first (by simp +contextual), scanLines, scanLine_freq]
  dsimp only
  rw [hquiet x.second (by simp +contextual), scanLines, scanLine_signal]
  dsimp only
  rw [hquiet x.third (by simp +contextual), scanLines, scanLine_ssid _ x.plain]
  dsimp only
  rw [hquiet x.fourth (by simp +contextual), scanLines, scanLine_vendor _ payload rfl]
  rfl

end Loops

section RoundTrip

variable {p : Platform} {now : ℤ} {pubKeyStr SymKeyStr SymIVStr : Text} {key iv host : Bytes}
  {k : RsaPublicKey}

/-- A station that is heard in a scan is in the result, unless a later element in the scan
says something else. -/
theorem performActiveScan_finds (hkey : key.length = 16) (hiv : iv.length = 16) (hhost : host ≠ [])
    (hpub : p.importKey (p.exportKey k) = some k) (hSymKey : SymKeyStr.length = 32)
    (hSymIV : SymIVStr.length = 32) (hpubKey : pubKeyStr.length = 2 * (p.exportKey k).length)
    (x : Station) {run : Text → Text} {wireless ssid IpStr command : Text} {fullScan : Bool}
    {freq ownFreq : ℤ} {before after : List Text} {list : NeighborList}
    (hcommand : scanCommand wireless fullScan ssid freq pubKeyStr SymKeyStr SymIVStr IpStr ownFreq =
      .ok command)
    (hlines : splitlines (run command) =
      before ++ (x.lines (key ++ iv ++ p.exportKey k ++ host) ++ after))
    (hafter : ∀ line ∈ after, contains vendorText line = false)
    (hname : String.ofList (Messaging.asciiText host) ≠ "Error")
    (hscan : performActiveScan p now run wireless fullScan ssid freq pubKeyStr SymKeyStr SymIVStr
      IpStr ownFreq = .ok list) :
    list.lookup (String.ofList (Messaging.asciiText host)) =
      some (responseEntry key iv k host now x.freq x.rssi x.ssid) := by
  simp only [performActiveScan, hcommand, hlines, bind, Except.bind] at hscan
  split at hscan
  · cases hscan
  · rename_i st hst
    obtain ⟨st₁, -, hst₁⟩ := scanLines_split hst
    rw [scanLines_append (scanLines_station x _)] at hst₁
    have hdata := scanLines_dataArray hafter hst₁
    rw [hdata] at hscan
    obtain ⟨list₁, hlast⟩ := readEntries_split hscan
    rw [readEntries, readEntry_lineData hkey hiv hhost hpub hSymKey hSymIV hpubKey
      (toInt_tab x.freq) (readInt_tab x.rssi)] at hlast
    have hnamed : (responseEntry key iv k host now x.freq x.rssi x.ssid).ipAddress ≠ "Error" :=
      hname
    simp only [if_neg hnamed, readEntries, Except.ok.injEq] at hlast
    rw [← hlast]
    exact AList.lookup_insert _

/-- A scan that hears one station returns. -/
theorem performActiveScan_station (hkey : key.length = 16) (hiv : iv.length = 16)
    (hhost : host ≠ []) (hpub : p.importKey (p.exportKey k) = some k)
    (hSymKey : SymKeyStr.length = 32) (hSymIV : SymIVStr.length = 32)
    (hpubKey : pubKeyStr.length = 2 * (p.exportKey k).length) (x : Station) {run : Text → Text}
    {wireless ssid IpStr command : Text} {fullScan : Bool} {freq ownFreq : ℤ}
    (hcommand : scanCommand wireless fullScan ssid freq pubKeyStr SymKeyStr SymIVStr IpStr ownFreq =
      .ok command)
    (hlines : splitlines (run command) = x.lines (key ++ iv ++ p.exportKey k ++ host)) :
    ∃ list, performActiveScan p now run wireless fullScan ssid freq pubKeyStr SymKeyStr SymIVStr
      IpStr ownFreq = .ok list := by
  simp only [performActiveScan, hcommand, hlines, bind, Except.bind, scanLines_station,
    List.nil_append, readEntries]
  rw [readEntry_lineData hkey hiv hhost hpub hSymKey hSymIV hpubKey (toInt_tab x.freq)
    (readInt_tab x.rssi)]
  exact ⟨_, rfl⟩

/-- The element that hostapd stores is the one advertised, with its length. The line that
iw prints for it is read with the frequency, the name and the level that the loop
has last seen, and an agent that hears the station in a scan has exactly its
address and keys. -/
theorem response_round_trip (hkey : key.length = 16) (hiv : iv.length = 16) (hhost : host ≠ [])
    (hpub : p.importKey (p.exportKey k) = some k)
    (hlen : (key ++ iv ++ p.exportKey k ++ host).length ≤ 250) (hSymKey : SymKeyStr.length = 32)
    (hSymIV : SymIVStr.length = 32) (hpubKey : pubKeyStr.length = 2 * (p.exportKey k).length) :
    (∀ stored, ∃ length : UInt8,
      length.toNat = (key ++ iv ++ p.exportKey k ++ host).length + 4 ∧
      (runHostapdCli (addIEtoProbeResponses (hexEncode (p.exportKey k)) (hexEncode key)
          (hexEncode iv) (hexEncode host))).map (hostapd_ctrl_iface_receive stored) =
        some (some ([0xdd] ++ [length] ++ [0xb1, 0x6b, 0x00] ++ [0xb5] ++
          (key ++ iv ++ p.exportKey k ++ host)))) ∧
    (∀ (st : ScanState) (level : Text) (rssi freq : ℤ), st.rssi = some level →
      readInt level = some rssi → toInt st.freq = some freq →
      ∃ e, scanLine st (vendorLine (key ++ iv ++ p.exportKey k ++ host)) =
          .ok { st with dataArray := st.dataArray ++ [e] } ∧
        readEntry p now pubKeyStr SymKeyStr SymIVStr e =
          .ok (some (responseEntry key iv k host now freq rssi st.ssid))) ∧
    ∀ (x : Station) (run : Text → Text) (wireless ssid IpStr command : Text) (fullScan : Bool)
      (freq ownFreq : ℤ) (before after : List Text) (list : NeighborList),
      scanCommand wireless fullScan ssid freq pubKeyStr SymKeyStr SymIVStr IpStr ownFreq =
        .ok command →
      splitlines (run command) =
        before ++ (x.lines (key ++ iv ++ p.exportKey k ++ host) ++ after) →
      (∀ line ∈ after, contains vendorText line = false) →
      String.ofList (Messaging.asciiText host) ≠ "Error" →
      performActiveScan p now run wireless fullScan ssid freq pubKeyStr SymKeyStr SymIVStr IpStr
        ownFreq = .ok list →
      list.lookup (String.ofList (Messaging.asciiText host)) =
        some (responseEntry key iv k host now x.freq x.rssi x.ssid) := by
  refine ⟨?_, ?_, ?_⟩
  · intro stored
    refine ⟨UInt8.ofNat ((key ++ iv ++ p.exportKey k ++ host).length + 4), ?_, ?_⟩
    · rw [UInt8.toNat_ofNat']
      omega
    · have hne : key ≠ [] := by
        rintro rfl
        cases hkey
      rw [stored_element stored hne hlen]
      rfl
  · intro st level rssi freq hst hrssi hfreq
    exact ⟨_, scanLine_vendor st _ hst,
      readEntry_lineData hkey hiv hhost hpub hSymKey hSymIV hpubKey hfreq hrssi⟩
  · intro x run wireless ssid IpStr command fullScan freq ownFreq before after list hcommand hlines
      hafter hname hscan
    exact performActiveScan_finds hkey hiv hhost hpub hSymKey hSymIV hpubKey x hcommand hlines
      hafter hname hscan

/-- A station on 2412 MHz at -42 dBm with the name home. -/
def sampleStation : Station where
  freq := 2412
  rssi := -42
  ssid := "home".toList
  plain := by
    refine ⟨?_, ?_, ?_, ?_, ?_, ?_⟩ <;> decide
  first := ["BSS 02:00:00:00:00:01(on ap5)".toList]
  second := []
  third := ["\tlast seen: 10 ms ago".toList]
  fourth := []
  quiet := by
    unfold Quiet
    decide

def samplePayload : Bytes :=
  List.replicate 16 1 ++ List.replicate 16 2 ++ listPlatform.exportKey ⟨162, 65537⟩ ++
    Messaging.asciiBytes "10.0.0.1".toList

/-- What iw prints. -/
def sampleOutput : Text :=
  (sampleStation.lines samplePayload).flatMap (fun line => line ++ ['\n'])

theorem sampleOutput_lines : splitlines sampleOutput = sampleStation.lines samplePayload := by
  apply splitlines_printed
  decide +kernel

theorem response_round_trip_sample :
    ∃ list, performActiveScan listPlatform 0 (fun _ => sampleOutput) "wlan0".toList false [] 2412
        (List.replicate 324 '0') (List.replicate 32 '0') (List.replicate 32 '0') [] 0 = .ok list ∧
      list.lookup (String.ofList (Messaging.asciiText (Messaging.asciiBytes "10.0.0.1".toList))) =
        some (responseEntry (List.replicate 16 1) (List.replicate 16 2) ⟨162, 65537⟩
          (Messaging.asciiBytes "10.0.0.1".toList) 0 2412 (-42) "home".toList) := by
  have hcommand : scanCommand "wlan0".toList false [] 2412 (List.replicate 324 '0')
      (List.replicate 32 '0') (List.replicate 32 '0') [] 0 =
        .ok "sudo ../iw-4.3/iw dev wlan0 scan -u freq 2412 ap-force".toList := by
    decide +kernel
  have hpub : listPlatform.importKey (listPlatform.exportKey ⟨162, 65537⟩) = some ⟨162, 65537⟩ := by
    decide +kernel
  have hpubKey : (List.replicate 324 '0').length =
      2 * (listPlatform.exportKey ⟨162, 65537⟩).length := by
    decide +kernel
  have hreturns : ∃ list, performActiveScan listPlatform 0 (fun _ => sampleOutput) "wlan0".toList
      false [] 2412 (List.replicate 324 '0') (List.replicate 32 '0') (List.replicate 32 '0') [] 0 =
        .ok list :=
    performActiveScan_station List.length_replicate List.length_replicate (by decide) hpub
      List.length_replicate List.length_replicate hpubKey sampleStation hcommand sampleOutput_lines
  obtain ⟨list, hscan⟩ := hreturns
  refine ⟨list, hscan, ?_⟩
  exact (response_round_trip List.length_replicate List.length_replicate (by decide) hpub
    (by decide +kernel) List.length_replicate List.length_replicate hpubKey).2.2 sampleStation
    (fun _ => sampleOutput) _ _ _ _ _ _ _ [] [] list hcommand
    (by rw [sampleOutput_lines, List.append_nil]; rfl) (by simp) (by decide +kernel) hscan

end RoundTrip

end Nxwlan.ScanResults
