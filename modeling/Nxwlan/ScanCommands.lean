import Nxwlan.ReceiveLoop
import Nxwlan.TextSearch

/-!
The active scan of an agent, from the texts of its keys to the elements that iw
puts into the probe requests: `hex_to_vendor_spec_ie`, the command line of
`performActiveScan` and iw's reading of it.
-/
namespace Nxwlan.ScanCommands

open JsonFrames AgentState PyText ReceiveLoop
open Base64 (Bytes)

/-- `'{:02x}'.format(n)`. -/
def format02x (n : ℕ) : Text :=
  let digits := Nat.toDigits 16 n
  if digits.length < 2 then '0' :: digits else digits

/-- The loop of the dotted format, with its counter: a colon after every second digit. -/
def hexStringDotted (iter : ℕ) : Text → Text
  | [] => []
  | c :: s => (if iter % 2 = 0 then [c, ':'] else [c]) ++ hexStringDotted (iter + 1) s

/-- The text of a vendor specific element, or the number that is returned in its place. -/
def hex_to_vendor_spec_ie (hexString : Text) (dotFormatted : Bool) : Text ⊕ ℤ :=
  if hexString.length % 2 ≠ 0 then .inr (-1)
  else if hexString.length > 249 * 2 then .inr (-2)
  else
    let dataLengthHex := format02x (hexString.length / 2 + 4)
    .inl (if dotFormatted then
      "dd:".toList ++ dataLengthHex ++ ":".toList ++ "b1:6b:00:b5:".toList ++
        slice (hexStringDotted 1 hexString) 0 (-1)
    else "dd".toList ++ dataLengthHex ++ "b16b00b5".toList ++ hexString)

/-- `"..." + x`, where `x` may be a number. -/
def concat (text : Text) : Text ⊕ ℤ → Except PyError Text
  | .inl x => .ok (text ++ x)
  | .inr _ => .error .typeError

/-- The command of `performActiveScan`; `wireless` is `config.WIRELESS_INTERFACE`. -/
def scanCommand (wireless : Text) (fullScan : Bool) (ssid : Text) (freq : ℤ)
    (pubKeyStr SymKeyStr SymIVStr IpStr : Text) (ownFreq : ℤ) : Except PyError Text :=
  if fullScan then do
    let payloadString := SymKeyStr ++ SymIVStr ++ pubKeyStr ++ IpStr
    let command ← concat "sudo ../iw-4.3/iw dev ap5 scan -u ies ".toList
      (hex_to_vendor_spec_ie payloadString true)
    let command ← concat (command ++ ":".toList) (hex_to_vendor_spec_ie (showInt ownFreq) true)
    pure (command ++ " ap-force".toList)
  else if ssid.length = 0 then
    .ok ("sudo ../iw-4.3/iw dev ".toList ++ wireless ++ " scan -u freq ".toList ++ showInt freq ++
      " ap-force".toList)
  else
    .ok ("sudo ../iw-4.3/iw dev ".toList ++ wireless ++ " scan -u freq ".toList ++ showInt freq ++
      " ap-force ssid ".toList ++ ssid)

/-- A digit of the base. -/
def baseValue (base : ℕ) (c : Char) : Option ℕ :=
  (hexValue c).filter (· < base)

/-- The `0x` in front of a digit, which base 16 allows. -/
def skip0x (base : ℕ) : Text → Text
  | '0' :: x :: d :: rest =>
      if base = 16 ∧ (x = 'x' ∨ x = 'X') ∧ (hexValue d).isSome then d :: rest
      else '0' :: x :: d :: rest
  | s => s

/-- The digits of C's `strtoul` behind the sign. -/
def unsigned (base : ℕ) (negative : Bool) (s u : Text) : ℕ × Text :=
  let u := skip0x base u
  let digits := u.takeWhile (fun c => (baseValue base c).isSome)
  let n := digits.foldl (fun n c => base * n + (baseValue base c).getD 0) 0
  if digits = [] then (0, s)
  else (if n ≥ 2 ^ 64 then 2 ^ 64 - 1 else if negative then (2 ^ 64 - n) % 2 ^ 64 else n,
    u.drop digits.length)

/-- `strtoul(s, &end, base)` on 64 bits for base 10 or 16, with the rest of the text. -/
def strtoul (base : ℕ) (s : Text) : ℕ × Text :=
  match s.dropWhile isSpace with
  | '-' :: u => unsigned base true s u
  | '+' :: u => unsigned base false s u
  | u => unsigned base false s u

/-- One byte between colons; the number goes through an `int`. -/
def parseHexByte (s : Text) : Option UInt8 :=
  if (strtoul 16 s).2 = [] ∧ (strtoul 16 s).1 % 2 ^ 32 ≤ 255 then
    some (UInt8.ofNat ((strtoul 16 s).1 % 2 ^ 32))
  else none

/-- `none` where NULL is returned. -/
def parse_hex (hex : Text) : Option Bytes := (hex.splitOn ':').mapM parseHexByte

inductive ScanParse where
  | none
  | freq
  | ies
  | ssid
  | meshid
  | done

/-- A word where an option is expected; no result is the usage error. `random` says
whether `parse_random_mac_addr` takes the word. -/
def scanOption (random : Text → Bool) (word : Text) : Option ScanParse :=
  if word = "freq".toList then some .freq
  else if word = "ies".toList then some .ies
  else if word = "lowpri".toList ∨ word = "flush".toList ∨ word = "ap-force".toList then some .none
  else if word.take 9 = "randomise".toList ∨ word.take 9 = "randomize".toList then
    if random word then some .none else none
  else if word = "ssid".toList then some .ssid
  else if word = "passive".toList then some .done
  else if word = "meshid".toList then some .meshid
  else none

/-- The elements that `handle_scan` asks for; `none` where it returns an error. -/
def handle_scan (random : Text → Bool) (parse : ScanParse) (ies meshid : Bytes) :
    List Text → Option Bytes
  | [] => some (ies ++ meshid)
  | word :: rest =>
      match parse with
      | .none =>
          match scanOption random word with
          | some parse => handle_scan random parse ies meshid rest
          | none => none
      | .done => none
      | .freq =>
          if (strtoul 10 word).2 = [] then handle_scan random .freq ies meshid rest
          else
            -- maybe a tag
            match scanOption random word with
            | some parse => handle_scan random parse ies meshid rest
            | none => none
      | .ies =>
          match parse_hex word with
          | some ies => handle_scan random .none ies meshid rest
          | none => none
      | .ssid => handle_scan random .ssid ies meshid rest
      | .meshid =>
          handle_scan random .none ies
            (114 :: UInt8.ofNat word.length :: Messaging.asciiBytes word) rest

/-- The words of the scan without the option for the printing. -/
def handle_scan_combined (random : Text → Bool) : List Text → Option Bytes
  | word :: rest =>
      if word = "-u".toList ∨ word = "-b".toList then handle_scan random .none [] [] rest
      else handle_scan random .none [] [] (word :: rest)
  | [] => handle_scan random .none [] [] []

/-- The words that the shell makes of a command without special letters. -/
def shellWords (command : Text) : List Text :=
  (command.splitOn ' ').filter (fun word => word ≠ [])

/-- The elements of the probe requests of a command. -/
def runScan (random : Text → Bool) (command : Text) : Option Bytes :=
  handle_scan_combined random ((shellWords command).drop 5)

section Elements

/-- The two digits of a byte in `s.encode("hex")`. -/
def hexPair (b : UInt8) : Text := [lowerHex (b.toNat / 16), lowerHex (b.toNat % 16)]

theorem hexEncode_eq (s : Bytes) : hexEncode s = s.flatMap hexPair := rfl

theorem hexEncode_length (s : Bytes) : (hexEncode s).length = 2 * s.length := by
  simp [hexEncode, List.length_flatMap, Nat.mul_comm]

theorem hexEncode_free {c : Char} (hc : ∀ n < 16, lowerHex n ≠ c) (s : Bytes) :
    c ∉ hexEncode s := by
  intro hmem
  have hne : ∀ d ∈ hexEncode s, d ≠ c := hexEncode_digits hc s
  exact hne c hmem rfl

theorem hexPair_free {c : Char} (hc : ∀ n < 16, lowerHex n ≠ c) (b : UInt8) : c ∉ hexPair b :=
  hexEncode_free hc [b]

theorem parseHexByte_hexPair (b : UInt8) : parseHexByte (hexPair b) = some b := by
  have hall : ∀ n < 256, parseHexByte (hexPair (UInt8.ofNat n)) = some (UInt8.ofNat n) := by
    decide +kernel
  have hb := hall b.toNat b.toNat_lt
  rwa [UInt8.ofNat_toNat] at hb

theorem format02x_eq : ∀ n < 256, format02x n = hexPair (UInt8.ofNat n) := by
  decide +kernel

/-- Bytes as iw takes them. -/
def dotted (bytes : Bytes) : Text := [':'].intercalate (bytes.map hexPair)

theorem dotted_cons {b : UInt8} {s : Bytes} (hs : s ≠ []) :
    dotted (b :: s) = hexPair b ++ ':' :: dotted s := by
  have hmap : s.map hexPair ≠ [] := by
    simpa using hs
  rw [dotted, List.map_cons, List.intercalate_cons_of_ne_nil hmap, List.append_assoc]
  rfl

/-- Words with colons in between, put behind others. -/
theorem intercalate_append {v w : List Text} (hv : v ≠ []) (hw : w ≠ []) :
    [':'].intercalate (v ++ w) = [':'].intercalate v ++ ':' :: [':'].intercalate w := by
  induction v with
  | nil => exact absurd rfl hv
  | cons x v ih =>
    by_cases hnil : v = []
    · subst hnil
      rw [List.cons_append, List.nil_append, List.intercalate_cons_of_ne_nil hw]
      simp
    · have hall : v ++ w ≠ [] := fun h => hnil (List.append_eq_nil_iff.mp h).1
      rw [List.cons_append, List.intercalate_cons_of_ne_nil hall,
        List.intercalate_cons_of_ne_nil hnil, ih hnil]
      simp

theorem dotted_append {s t : Bytes} (hs : s ≠ []) (ht : t ≠ []) :
    dotted (s ++ t) = dotted s ++ ':' :: dotted t := by
  have hs' : s.map hexPair ≠ [] := by simpa using hs
  have ht' : t.map hexPair ≠ [] := by simpa using ht
  rw [dotted, List.map_append, intercalate_append hs' ht', ← dotted, ← dotted]

theorem parse_hex_dotted {bytes : Bytes} (hne : bytes ≠ []) :
    parse_hex (dotted bytes) = some bytes := by
  have hfree : ∀ word ∈ bytes.map hexPair, ':' ∉ word := by
    intro word hword
    obtain ⟨b, -, rfl⟩ := List.mem_map.mp hword
    exact hexPair_free (by decide) b
  rw [parse_hex, dotted, List.splitOn_intercalate ':' hfree (by simpa using hne)]
  clear hfree hne
  induction bytes with
  | nil => rfl
  | cons b s ih => simp [List.mapM_cons, parseHexByte_hexPair, ih]

/-- A text cut into twos; a single letter at the end is left out. -/
def pairs : Text → List Text
  | a :: b :: s => [a, b] :: pairs s
  | _ => []

theorem pairs_hexEncode (s : Bytes) : pairs (hexEncode s) = s.map hexPair := by
  induction s with
  | nil => rfl
  | cons b s ih =>
    rw [hexEncode_eq, List.flatMap_cons, ← hexEncode_eq, List.map_cons, ← ih]
    rfl

/-- Two letters further on the loop does the same. -/
theorem hexStringDotted_add_two (i : ℕ) (s : Text) :
    hexStringDotted (i + 2) s = hexStringDotted i s := by
  induction s generalizing i with
  | nil => rfl
  | cons c s ih => rw [hexStringDotted, hexStringDotted, Nat.add_right_comm, ih, Nat.add_mod_right]

/-- The loop puts a colon behind every pair, -/
theorem hexStringDotted_pairs {s : Text} (h : s.length % 2 = 0) :
    hexStringDotted 1 s = (pairs s).flatMap (fun w => w ++ [':']) := by
  induction s, h using even_induction with
  | nil => rfl
  | pair a b s h ih =>
    rw [hexStringDotted, hexStringDotted, hexStringDotted_add_two, ih, pairs, List.flatMap_cons]
    rfl

/-- and the last one is cut off. -/
theorem slice_hexStringDotted {s : Text} (h : s.length % 2 = 0) :
    slice (hexStringDotted 1 s) 0 (-1) = [':'].intercalate (pairs s) := by
  have hlast : ∀ words : List Text, words ≠ [] →
      words.flatMap (fun w => w ++ [':']) = [':'].intercalate words ++ [':'] := by
    intro words hne
    induction words with
    | nil => exact absurd rfl hne
    | cons w words ih =>
      by_cases htail : words = []
      · simp [htail]
      · rw [List.flatMap_cons, ih htail, List.intercalate_cons_of_ne_nil htail]
        simp
  rw [hexStringDotted_pairs h]
  by_cases hne : pairs s = []
  · rw [hne]
    rfl
  · rw [hlast _ hne]
    simp [slice, bound]

/-- The bytes of a vendor specific element. -/
def vendorElement (payload : Bytes) : Bytes :=
  [0xdd, UInt8.ofNat (payload.length + 4), 0xb1, 0x6b, 0x00, 0xb5] ++ payload

theorem dotted_vendorHead (length : UInt8) (s : Text) :
    dotted [0xdd, length, 0xb1, 0x6b, 0x00, 0xb5] ++ ':' :: s =
      "dd:".toList ++ hexPair length ++ ":".toList ++ "b1:6b:00:b5:".toList ++ s := rfl

theorem hex_to_vendor_spec_ie_dotted {payload : Bytes} (hne : payload ≠ [])
    (hlen : payload.length ≤ 249) :
    hex_to_vendor_spec_ie (hexEncode payload) true = .inl (dotted (vendorElement payload)) := by
  have hhalf : (hexEncode payload).length / 2 + 4 = payload.length + 4 := by
    rw [hexEncode_length]
    omega
  rw [hex_to_vendor_spec_ie, if_neg (by rw [hexEncode_length]; omega),
    if_neg (by rw [hexEncode_length]; omega), hhalf, format02x_eq _ (by omega),
    slice_hexStringDotted (by rw [hexEncode_length]; omega), pairs_hexEncode, ← dotted,
    vendorElement, dotted_append (by simp) hne, dotted_vendorHead]
  rfl

theorem hex_to_vendor_spec_ie_long {payload : Bytes} (hlen : 249 < payload.length) :
    hex_to_vendor_spec_ie (hexEncode payload) true = .inr (-2) := by
  rw [hex_to_vendor_spec_ie, if_neg (by rw [hexEncode_length]; omega),
    if_pos (by rw [hexEncode_length]; omega)]

end Elements

section Commands

/-- Decimal digits are the hex digits of some bytes, in lower and upper case. -/
theorem digits_bytes {t : Text} (h : ∀ c ∈ t, c.isDigit = true) (heven : t.length % 2 = 0) :
    ∃ bytes, hexEncode bytes = t ∧ hexDump bytes = t := by
  have hdigit : ∀ c : Char, c.isDigit = true → c.toNat - 48 < 10 ∧
      lowerHex (c.toNat - 48) = c ∧ upperHex (c.toNat - 48) = c := by
    intro c hc
    have hrange : 48 ≤ c.toNat ∧ c.toNat ≤ 57 := by
      simpa [Char.isDigit, UInt32.le_iff_toNat_le] using hc
    have hlt : c.toNat - 48 < 10 := by omega
    have hback : Char.ofNat ('0'.toNat + (c.toNat - 48)) = c := by
      have hsum : '0'.toNat + (c.toNat - 48) = c.toNat := by
        show 48 + (c.toNat - 48) = c.toNat
        omega
      rw [hsum, Char.ofNat_toNat]
    exact ⟨hlt, by rw [lowerHex, if_pos hlt, hback], by rw [upperHex, if_pos hlt, hback]⟩
  induction t, heven using even_induction with
  | nil => exact ⟨[], rfl, rfl⟩
  | pair a b s heven ih =>
    obtain ⟨bytes, hlower, hupper⟩ := ih (fun c hc => h c (by simp [hc]))
    obtain ⟨ha, halower, haupper⟩ := hdigit a (h a (by simp))
    obtain ⟨hb, hblower, hbupper⟩ := hdigit b (h b (by simp))
    have hbyte : (UInt8.ofNat (16 * (a.toNat - 48) + (b.toNat - 48))).toNat =
        16 * (a.toNat - 48) + (b.toNat - 48) := by
      rw [UInt8.toNat_ofNat']
      omega
    have hhigh : (16 * (a.toNat - 48) + (b.toNat - 48)) / 16 = a.toNat - 48 := by omega
    have hlow : (16 * (a.toNat - 48) + (b.toNat - 48)) % 16 = b.toNat - 48 := by omega
    refine ⟨UInt8.ofNat (16 * (a.toNat - 48) + (b.toNat - 48)) :: bytes, ?_, ?_⟩
    · rw [hexEncode_eq, List.flatMap_cons, ← hexEncode_eq, hlower, hexPair, hbyte, hhigh, hlow,
        halower, hblower]
      rfl
    · rw [hexDump, List.flatMap_cons, ← hexDump, hupper, hexByte, hbyte, hhigh, hlow, haupper,
        hbupper]
      rfl

/-- The digits of a frequency of four digits. -/
theorem showInt_bytes {f : ℤ} (hf : 1000 ≤ f ∧ f ≤ 9999) :
    ∃ bytes : Bytes, bytes.length = 2 ∧ hexEncode bytes = showInt f ∧ hexDump bytes = showInt f := by
  obtain ⟨n, rfl⟩ := Int.eq_ofNat_of_zero_le (by omega : 0 ≤ f)
  have hlen : (Nat.toDigits 10 n).length = 4 := by
    have hle := Nat.length_toDigits_le_iff (b := 10) (n := n) (k := 4) (by decide) (by decide)
    have hlt := Nat.length_toDigits_le_iff (b := 10) (n := n) (k := 3) (by decide) (by decide)
    omega
  have hdigits : ∀ c ∈ Nat.toDigits 10 n, c.isDigit = true := fun c hc =>
    Nat.isDigit_of_mem_toDigits (by decide) (by decide) hc
  obtain ⟨bytes, hlower, hupper⟩ := digits_bytes hdigits (by rw [hlen])
  refine ⟨bytes, ?_, hlower, hupper⟩
  have := hexEncode_length bytes
  rw [hlower, hlen] at this
  omega

theorem dotted_free {c : Char} (hcolon : c ≠ ':') (hc : ∀ n < 16, lowerHex n ≠ c) (bytes : Bytes) :
    c ∉ dotted bytes := by
  induction bytes with
  | nil => simp [dotted]
  | cons b s ih =>
    cases s with
    | nil => simpa [dotted] using hexPair_free hc b
    | cons b' s =>
      rw [dotted_cons (List.cons_ne_nil b' s), List.mem_append, List.mem_cons, not_or, not_or]
      exact ⟨hexPair_free hc b, hcolon, ih⟩

theorem dotted_ne_nil {bytes : Bytes} (hne : bytes ≠ []) : dotted bytes ≠ [] := by
  intro hnil
  have hparse := parse_hex_dotted hne
  rw [hnil] at hparse
  have hempty : parse_hex [] = some [0] := by decide
  rw [hempty, Option.some.injEq] at hparse
  subst hparse
  exact absurd hnil (by decide)

/-- The words of a command are those that it was made of. -/
theorem shellWords_intercalate {words : List Text} (hne : words ≠ [])
    (h : ∀ word ∈ words, ' ' ∉ word ∧ word ≠ []) : shellWords ([' '].intercalate words) = words := by
  rw [shellWords, List.splitOn_intercalate ' ' (fun word hword => (h word hword).1) hne,
    List.filter_eq_self]
  intro word hword
  exact decide_eq_true (h word hword).2

/-- iw asks for the elements that the command names. -/
theorem runScan_dotted (random : Text → Bool) {bytes : Bytes} (hne : bytes ≠ []) :
    runScan random ("sudo ../iw-4.3/iw dev ap5 scan -u ies ".toList ++ dotted bytes ++
      " ap-force".toList) = some bytes := by
  have hcommand : "sudo ../iw-4.3/iw dev ap5 scan -u ies ".toList ++ dotted bytes ++
      " ap-force".toList = [' '].intercalate (["sudo".toList, "../iw-4.3/iw".toList, "dev".toList,
        "ap5".toList, "scan".toList, "-u".toList, "ies".toList] ++
          [dotted bytes, "ap-force".toList]) := by
    simp only [List.cons_append, List.nil_append, List.intercalate_cons_cons,
      List.intercalate_singleton, List.append_assoc]
    rfl
  have hfront : ∀ word ∈ ["sudo".toList, "../iw-4.3/iw".toList, "dev".toList, "ap5".toList,
      "scan".toList, "-u".toList, "ies".toList], ' ' ∉ word ∧ word ≠ [] := by
    decide
  have hwords : ∀ word ∈ ["sudo".toList, "../iw-4.3/iw".toList, "dev".toList, "ap5".toList,
      "scan".toList, "-u".toList, "ies".toList] ++ [dotted bytes, "ap-force".toList],
        ' ' ∉ word ∧ word ≠ [] := by
    intro word hword
    rcases List.mem_append.mp hword with hword | hword
    · exact hfront word hword
    · rcases List.mem_cons.mp hword with rfl | hword
      · exact ⟨dotted_free (by decide) (by decide) bytes, dotted_ne_nil hne⟩
      · rw [List.mem_singleton.mp hword]
        decide
  have hoption : scanOption random "ies".toList = some .ies := rfl
  have hforce : scanOption random "ap-force".toList = some .none := rfl
  rw [runScan, hcommand, shellWords_intercalate (by simp) hwords]
  show handle_scan random .none [] [] ["ies".toList, dotted bytes, "ap-force".toList] = _
  simp only [handle_scan, hoption, hforce, parse_hex_dotted hne, List.append_nil]

theorem hexEncode_append (s t : Bytes) : hexEncode (s ++ t) = hexEncode s ++ hexEncode t := by
  simp [hexEncode]

/-- The elements of a full scan, if there is room for the keys in one of them. -/
theorem scanCommand_elements (wireless ssid : Text) (freq : ℤ) (random : Text → Bool)
    {key iv der host : Bytes} {ownFreq : ℤ} (hfreq : 1000 ≤ ownFreq ∧ ownFreq ≤ 9999)
    (hne : key ≠ []) (hlen : (key ++ iv ++ der ++ host).length ≤ 249) :
    ∃ command digits, scanCommand wireless true ssid freq (hexEncode der) (hexEncode key)
        (hexEncode iv) (hexEncode host) ownFreq = .ok command ∧
      hexDump digits = showInt ownFreq ∧ digits.length = 2 ∧
      runScan random command =
        some (vendorElement (key ++ iv ++ der ++ host) ++ vendorElement digits) := by
  obtain ⟨digits, hdigits, hlower, hupper⟩ := showInt_bytes hfreq
  have hdigits_ne : digits ≠ [] := by
    rintro rfl
    cases hdigits
  have hfirst := hex_to_vendor_spec_ie_dotted (by simp [hne]) hlen
  have hsecond := hex_to_vendor_spec_ie_dotted hdigits_ne (by omega)
  refine ⟨"sudo ../iw-4.3/iw dev ap5 scan -u ies ".toList ++
    dotted (vendorElement (key ++ iv ++ der ++ host) ++ vendorElement digits) ++
      " ap-force".toList, digits, ?_, hupper, hdigits, ?_⟩
  · rw [dotted_append (by simp [vendorElement]) (by simp [vendorElement])]
    simp only [scanCommand, if_true, ← hexEncode_append, ← hlower, hfirst, hsecond, concat, bind,
      Except.bind, pure, Except.pure]
    simp
  · exact runScan_dotted random (by simp [vendorElement])

theorem scanCommand_long (wireless ssid : Text) (freq ownFreq : ℤ) {key iv der host : Bytes}
    (hlen : 249 < (key ++ iv ++ der ++ host).length) :
    scanCommand wireless true ssid freq (hexEncode der) (hexEncode key) (hexEncode iv)
      (hexEncode host) ownFreq = .error .typeError := by
  simp only [scanCommand, if_true, ← hexEncode_append, hex_to_vendor_spec_ie_long hlen, concat, bind,
    Except.bind]

end Commands

end Nxwlan.ScanCommands
