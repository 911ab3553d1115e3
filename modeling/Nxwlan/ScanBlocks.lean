import Nxwlan.ScanResults
import Nxwlan.LastWrites

/-!
The output of a scan with any number of stations. iw prints a block of lines for each of
them, and a block need not have all its lines: a station can be without a name, and
its level can be printed in several forms. `performActiveScan` does not look where
a block begins. Its variables keep what an earlier block has said, and what the
arguments were before the first block.
-/
namespace Nxwlan.ScanBlocks

open JsonFrames AgentState PyText ScanCommands ScanResults
open ReceiveLoop (lowerHex)
open Base64 (Bytes)
open LastWrites (lastWrite lastWrite_append view_run)

section Names

def isprint (b : UInt8) : Bool := 32 ≤ b && b ≤ 126

/-- One byte of a name; a blank at either end is escaped. -/
def escaped (first last : Bool) (b : UInt8) : Text :=
  if isprint b = true ∧ b ≠ 32 ∧ b ≠ 92 then [Char.ofNat b.toNat]
  else if b = 32 ∧ first = false ∧ last = false then [' ']
  else '\\' :: 'x' :: hexPair b

/-- The loop over the bytes. -/
def escapedFrom (first : Bool) : Bytes → Text
  | [] => []
  | b :: rest => escaped first rest.isEmpty b ++ escapedFrom false rest

def print_ssid_escaped (data : Bytes) : Text := escapedFrom true data

/-- What iw prints for a name, behind the word and the blank. -/
def print_ssid (data : Bytes) : Text :=
  if data.length ≤ 32 then print_ssid_escaped data
  else "<invalid: ".toList ++ showInt data.length ++ " bytes:".toList ++ spaced data ++ ">".toList

variable {first last : Bool} {b : UInt8} {data : Bytes}

/-- A byte is printed as one letter, or behind a backslash. -/
theorem escaped_cases (first last : Bool) (b : UInt8) :
    (∃ c, escaped first last b = [c] ∧ c ∉ "\t\n\r".toList) ∨
      escaped first last b = '\\' :: 'x' :: hexPair b := by
  have hletters : ∀ n < 256, 32 ≤ n → Char.ofNat n ∉ "\t\n\r".toList := by
    decide +kernel
  unfold escaped
  split
  · rename_i hprint
    refine Or.inl ⟨Char.ofNat b.toNat, rfl, hletters b.toNat b.toNat_lt ?_⟩
    have hlow : (32 : UInt8) ≤ b := by
      have := hprint.1
      simp only [isprint, Bool.and_eq_true, decide_eq_true_eq] at this
      exact this.1
    exact UInt8.le_iff_toNat_le.mp hlow
  · split
    · exact Or.inl ⟨' ', rfl, by decide⟩
    · exact Or.inr rfl

/-- No tab and no end of a line is printed in a name. -/
theorem escapedFrom_free {c : Char} (hc : c ∈ "\t\n\r".toList) (first : Bool) (data : Bytes) :
    c ∉ escapedFrom first data := by
  have hletters : ∀ c ∈ "\t\n\r".toList, c ≠ '\\' ∧ c ≠ 'x' ∧ ∀ n < 16, lowerHex n ≠ c :=
    forall_of_all (by decide)
  induction data generalizing first with
  | nil => simp [escapedFrom]
  | cons b rest ih =>
    rw [escapedFrom, List.mem_append, not_or]
    refine ⟨?_, ih false⟩
    rcases escaped_cases first rest.isEmpty b with ⟨d, hd, hother⟩ | hescape
    · rw [hd, List.mem_singleton]
      rintro rfl
      exact hother hc
    · rw [hescape, List.mem_cons, List.mem_cons, not_or, not_or]
      obtain ⟨hslash, hx, hhex⟩ := hletters c hc
      exact ⟨hslash, hx, hexPair_free hhex b⟩

/-- Without a backslash, a front of the printed name has no more letters than the name has
bytes. -/
theorem prefix_escapedFrom {w : Text} (hw : '\\' ∉ w) (h : w <+: escapedFrom first data) :
    w.length ≤ data.length := by
  induction data generalizing first w with
  | nil =>
    rw [escapedFrom, List.prefix_nil] at h
    rw [h]
    rfl
  | cons b rest ih =>
    cases w with
    | nil => exact Nat.zero_le _
    | cons c w =>
      rw [List.mem_cons, not_or] at hw
      rw [escapedFrom] at h
      rcases escaped_cases first rest.isEmpty b with ⟨d, hd, -⟩ | hescape
      · rw [hd, List.singleton_append, List.cons_prefix_cons] at h
        exact Nat.succ_le_succ (ih hw.2 h.2)
      · rw [hescape, List.cons_append, List.cons_prefix_cons] at h
        exact absurd h.1.symm hw.1

/-- Nor has any part that does not begin inside of an escaped byte. -/
theorem infix_escapedFrom {w : Text} {d : Char} (hw : '\\' ∉ w) (hhead : w.head? = some d)
    (hd : d ≠ '\\' ∧ d ≠ 'x' ∧ ∀ n < 16, lowerHex n ≠ d) (h : w <:+: escapedFrom first data) :
    w.length ≤ data.length := by
  induction data generalizing first with
  | nil =>
    rw [escapedFrom, List.infix_nil] at h
    rw [h]
    rfl
  | cons b rest ih =>
    rcases escaped_cases first rest.isEmpty b with ⟨c, hc, -⟩ | hescape
    · have hprefix : w <+: escapedFrom first (b :: rest) → w.length ≤ (b :: rest).length :=
        prefix_escapedFrom hw
      rw [escapedFrom, hc, List.singleton_append] at h hprefix
      rcases List.infix_cons_iff.mp h with h | h
      · exact hprefix h
      · exact Nat.le_succ_of_le (ih h)
    · rw [escapedFrom, hescape] at h
      have hfront : d ∉ '\\' :: 'x' :: hexPair b := by
        rw [List.mem_cons, List.mem_cons, not_or, not_or]
        exact ⟨hd.1, hd.2.1, hexPair_free hd.2.2 b⟩
      exact Nat.le_succ_of_le (ih (infix_of_infix_append hhead hfront h))

/-- A name that is too long is printed in hex. -/
theorem print_ssid_long_free {c : Char} (hlen : ¬ data.length ≤ 32) (hminus : c ≠ '-')
    (hdigit : c.isDigit = false) (hblank : c ≠ ' ') (hc : ∀ n < 16, lowerHex n ≠ c)
    (hfront : c ∉ "<invalid: ".toList ∧ c ∉ " bytes:".toList ∧ c ≠ '>') :
    c ∉ print_ssid data := by
  rw [print_ssid, if_neg hlen]
  simp only [List.mem_append, not_or]
  exact ⟨⟨⟨⟨hfront.1, not_mem_showInt hminus hdigit _⟩, hfront.2.1⟩, spaced_free hblank hc data⟩,
    by simpa using hfront.2.2⟩

theorem print_ssid_free {c : Char} (hc : c ∈ "\t\n\r".toList) (data : Bytes) :
    c ∉ print_ssid data := by
  by_cases hlen : data.length ≤ 32
  · rw [print_ssid, if_pos hlen]
    exact escapedFrom_free hc true data
  · have hletters : ∀ c ∈ "\t\n\r".toList, c ≠ '-' ∧ c.isDigit = false ∧ c ≠ ' ' ∧
        (∀ n < 16, lowerHex n ≠ c) ∧ c ∉ "<invalid: ".toList ∧ c ∉ " bytes:".toList ∧ c ≠ '>' :=
      forall_of_all (by decide)
    obtain ⟨hminus, hdigit, hblank, hhex, hfront⟩ := hletters c hc
    exact print_ssid_long_free hlen hminus hdigit hblank hhex hfront

/-- The line of a name is never taken for an element: 32 bytes are not enough for it. -/
theorem print_ssid_vendor (data : Bytes) : ¬ vendorText <:+: print_ssid data := by
  intro h
  by_cases hlen : data.length ≤ 32
  · rw [print_ssid, if_pos hlen] at h
    have hfew := infix_escapedFrom (d := 'V') (by decide) rfl (by decide) h
    have hmany : vendorText.length = 40 := rfl
    omega
  · exact not_infix_of_not_mem (d := 'V') (by decide) (print_ssid_long_free hlen (by decide)
      (by decide) (by decide) (by decide) (by decide)) h

end Names

section Levels

/-- The level of a station, in hundredths of a dBm or in steps of unknown size. -/
inductive Signal where
  | mbm (s : ℤ)
  | unspec (s : UInt8)

/-- `"%.2d"`. -/
def format2d (n : ℤ) : Text :=
  let digits := if n.natAbs < 10 then '0' :: Nat.toDigits 10 n.natAbs else Nat.toDigits 10 n.natAbs
  if n < 0 then '-' :: digits else digits

/-- What iw prints for the level, behind the word and the blank. -/
def Signal.text : Signal → Text
  | .mbm s => showInt (s.tdiv 100) ++ '.' :: (format2d (s.tmod 100) ++ " dBm".toList)
  | .unspec s => showInt s.toNat ++ "/100".toList

def levelLine (s : Signal) : Text := "\t".toList ++ "signal: ".toList ++ s.text

/-- The level as a whole number, where `int` reads one. -/
def Signal.whole : Signal → Option ℤ
  | .mbm s => if s.tmod 100 = 0 then some (s.tdiv 100) else none
  | .unspec _ => none

/-- The level without what is behind the point. -/
def Signal.steps : Signal → ℤ
  | .mbm s => s.tdiv 100
  | .unspec s => s.toNat

theorem steps_of_whole {s : Signal} {rssi : ℤ} (h : s.whole = some rssi) : s.steps = rssi := by
  cases s with
  | mbm s =>
    rw [Signal.whole] at h
    split at h
    · exact Option.some.inj h
    · cases h
  | unspec s => cases h

theorem format2d_free {c : Char} (hminus : c ≠ '-') (hdigit : c.isDigit = false) (n : ℤ) :
    c ∉ format2d n := by
  have hdigits : c ∉ Nat.toDigits 10 n.natAbs :=
    not_mem_showInt hminus hdigit (Int.ofNat n.natAbs)
  have hzero : c ≠ '0' := by
    rintro rfl
    cases hdigit
  unfold format2d
  split_ifs <;> simp [hminus, hdigits, hzero]

theorem text_free {c : Char} (hc : c ∈ "qgSV\n\r".toList) (s : Signal) : c ∉ s.text := by
  have hletters : ∀ c ∈ "qgSV\n\r".toList, c ≠ '-' ∧ c.isDigit = false ∧ c ≠ '.' ∧
      c ∉ " dBm".toList ∧ c ∉ "/100".toList :=
    forall_of_all (by decide)
  obtain ⟨hminus, hdigit, hdot, hunit, hparts⟩ := hletters c hc
  cases s with
  | mbm s =>
    rw [Signal.text, List.mem_append, List.mem_cons, List.mem_append, not_or, not_or, not_or]
    exact ⟨not_mem_showInt hminus hdigit _, hdot, format2d_free hminus hdigit _, hunit⟩
  | unspec s =>
    rw [Signal.text, List.mem_append, not_or]
    exact ⟨not_mem_showInt hminus hdigit _, hparts⟩

/-- Two zeros are printed for nothing but a whole number. -/
theorem format2d_zeros {n : ℤ} (hn : n.natAbs < 100)
    (h : "00 dBm".toList <+: format2d n ++ " dBm".toList) : n = 0 := by
  have hall : ∀ m < 100, ("00 dBm".toList <+: format2d (Int.ofNat m) ++ " dBm".toList → m = 0) ∧
      ¬ "00 dBm".toList <+: format2d (-Int.ofNat (m + 1)) ++ " dBm".toList := by
    decide +kernel
  cases n with
  | ofNat m => exact congrArg Int.ofNat ((hall m hn).1 h)
  | negSucc m =>
    have hm : m < 100 := by
      rw [Int.natAbs_negSucc] at hn
      omega
    exact absurd h (hall m hm).2

/-- The unit of whole dBm is not found behind a fraction. -/
theorem fraction_unit {s : ℤ} (h : s.tmod 100 ≠ 0) :
    ¬ ".00 dBm".toList <:+: '\t' :: (Signal.mbm s).text := by
  intro hin
  have hfront : '.' ∉ '\t' :: showInt (s.tdiv 100) := by
    rw [List.mem_cons, not_or]
    exact ⟨by decide, not_mem_showInt (by decide) (by decide) _⟩
  rw [Signal.text, ← List.cons_append] at hin
  have hbehind := infix_of_infix_append (d := '.') rfl hfront hin
  rcases List.infix_cons_iff.mp hbehind with hunit | hunit
  · have hzeros : "00 dBm".toList <+: format2d (s.tmod 100) ++ " dBm".toList :=
      (List.cons_prefix_cons.mp hunit).2
    have hsmall : (s.tmod 100).natAbs < 100 := by
      rw [Int.natAbs_tmod]
      exact Nat.mod_lt _ (by decide)
    exact h (format2d_zeros hsmall hzeros)
  · have hdot : '.' ∉ format2d (s.tmod 100) ++ " dBm".toList := by
      rw [List.mem_append, not_or]
      exact ⟨format2d_free (by decide) (by decide) _, by decide⟩
    exact not_infix_of_not_mem (d := '.') (by decide) hdot hunit

/-- A text with a letter that is in no number, and without the unit, is kept and not read. -/
theorem level_unread {level : Text} {c : Char} (hc : c ∈ level) (hdigit : c.isDigit = false)
    (hspace : isSpace c = false) (hsign : c ≠ '-' ∧ c ≠ '+')
    (hunit : ¬ ".00 dBm".toList <:+: '\t' :: level) :
    readInt ((replace ".00 dBm".toList [] ('\t' :: level)).filter (· ≠ '\n')) = none := by
  rw [replace_of_cut_none (cut_none_iff.mpr hunit)]
  have hkept : c ∈ ('\t' :: level).filter (· ≠ '\n') := by
    rw [List.mem_filter]
    refine ⟨List.mem_cons_of_mem _ hc, decide_eq_true ?_⟩
    rintro rfl
    cases hspace
  exact readInt_eq_none hkept hdigit hspace hsign.1 hsign.2

/-- The line of a level sets the level, to a text that `int` reads only where it is whole. -/
theorem scanLine_levelLine (st : ScanState) (s : Signal) :
    ∃ level, scanLine st (levelLine s) = .ok { st with rssi := some level } ∧
      readInt level = s.whole := by
  have htext : ∀ c ∈ "qgSV".toList, c ∉ s.text := fun c hc =>
    text_free (List.mem_append_left "\n\r".toList hc) s
  have hline := scanLine_level st htext
  cases s with
  | mbm s =>
    rw [Signal.whole]
    split
    · rename_i hwhole
      have hsame : levelLine (.mbm s) = signalLine (s.tdiv 100) := by
        rw [levelLine, Signal.text, hwhole]
        rfl
      exact ⟨_, by rw [hsame, scanLine_signal], readInt_tab _⟩
    · rename_i hwhole
      exact ⟨_, hline, level_unread (c := '.') (by simp [Signal.text]) (by decide) (by decide)
        (by decide) (fraction_unit hwhole)⟩
  | unspec s =>
    have hdot : '.' ∉ '\t' :: (Signal.unspec s).text := by
      rw [Signal.text, List.mem_cons, List.mem_append, not_or, not_or]
      exact ⟨by decide, not_mem_showInt (by decide) (by decide) _, by decide⟩
    exact ⟨_, hline, level_unread (c := '/') (by simp [Signal.text]) (by decide) (by decide)
      (by decide) (not_infix_of_not_mem (d := '.') (by decide) hdot)⟩

end Levels

section Blocks

/-- The element of an agent: two symmetric keys, a public key of the usual size that can be
imported again, and an address. -/
structure Element (p : Platform) (size : ℕ) where
  key : Bytes
  iv : Bytes
  pubKey : RsaPublicKey
  host : Bytes
  key_length : key.length = 16
  iv_length : iv.length = 16
  pubKey_length : (p.exportKey pubKey).length = size
  pubKey_read : p.importKey (p.exportKey pubKey) = some pubKey
  host_ne : host ≠ []
  named : String.ofList (Messaging.asciiText host) ≠ "Error"

variable {p : Platform} {size : ℕ}

def Element.name (e : Element p size) : String := String.ofList (Messaging.asciiText e.host)

def Element.payload (e : Element p size) : Bytes :=
  e.key ++ e.iv ++ p.exportKey e.pubKey ++ e.host

/-- The entry for an element, with a frequency, a level and a name. -/
def Element.entry (e : Element p size) (now freq rssi : ℤ) (ssid : Text) : Neighbor :=
  responseEntry e.key e.iv e.pubKey e.host now freq rssi ssid

/-- The lines of a station that the loop looks for; each may be missing. -/
structure Block (p : Platform) (size : ℕ) where
  freq : Option ℤ
  signal : Option Signal
  ssid : Option Bytes
  elements : List (Element p size)

/-- The lines of a block in front of its elements. -/
def Block.head (b : Block p size) : List Text :=
  b.freq.toList.map freqLine ++ (b.signal.toList.map levelLine ++
    b.ssid.toList.map (fun data => ssidLine (print_ssid data)))

def Block.lines (b : Block p size) : List Text :=
  b.head ++ b.elements.map (fun e => vendorLine e.payload)

/-- What the variables of the loop come to: the frequency where `int` reads one, the name,
and the level, which may not be set and which `int` may not read. -/
structure Effect where
  freq : Option ℤ
  ssid : Text
  level : Option (Option ℤ)
  deriving DecidableEq

def view (st : ScanState) : Effect := ⟨toInt st.freq, st.ssid, st.rssi.map readInt⟩

/-- Whether the name that a block prints has a text in it. -/
def Block.spells (b : Block p size) (text : Text) : Bool :=
  b.ssid.any (fun data => contains text (print_ssid data))

/-- What a block says about the frequency; a name can spoil it. -/
def Block.freqSaid (b : Block p size) : Option (Option ℤ) :=
  if b.spells "freq: ".toList = true then some none else b.freq.map some

def Block.levelSaid (b : Block p size) : Option (Option ℤ) :=
  if b.spells "signal: ".toList = true then some none else b.signal.map Signal.whole

def Block.ssidSaid (b : Block p size) : Option Text :=
  b.ssid.map (fun data => replace "SSID: ".toList [] (print_ssid data))

/-- What the last of the blocks that says something has said. -/
def lastSaid {β : Type} (said : Block p size → Option β) (blocks : List (Block p size)) :
    Option β :=
  lastWrite (fun _ : Unit => said) () blocks

/-- What is in effect behind blocks, if the loop begins with a frequency and a name. -/
def inEffect (freq : ℤ) (ssid : Text) (blocks : List (Block p size)) : Effect where
  freq := (lastSaid Block.freqSaid blocks).getD (some freq)
  ssid := (lastSaid Block.ssidSaid blocks).getD ssid
  level := lastSaid Block.levelSaid blocks

/-- How a block changes what is in effect. -/
def Block.change (b : Block p size) (x : Effect) : Effect where
  freq := b.freqSaid.getD x.freq
  ssid := b.ssidSaid.getD x.ssid
  level := b.levelSaid.or x.level

theorem inEffect_append (freq : ℤ) (ssid : Text) (blocks : List (Block p size)) (b : Block p size) :
    inEffect freq ssid (blocks ++ [b]) = b.change (inEffect freq ssid blocks) := by
  simp only [inEffect, lastSaid, lastWrite_append, Block.change]
  cases b.freqSaid <;> cases b.ssidSaid <;> rfl

end Blocks

section Heads

variable {p : Platform} {size : ℕ}

/-- What is left of the line of a name is no number. -/
theorem readInt_nameLine {front : Text} (h : 'S' ∈ front) (s : Text) :
    readInt (front ++ s) = none :=
  readInt_eq_none (List.mem_append_left s h) (by decide) (by decide) (by decide) (by decide)

/-- The line of a name sets the name. It spoils the frequency and the level where it has
the words for them. -/
theorem scanLine_nameLine (st : ScanState) (data : Bytes) :
    ∃ st', scanLine st (ssidLine (print_ssid data)) = .ok st' ∧ st'.dataArray = st.dataArray ∧
      view st' = ⟨if contains "freq: ".toList (print_ssid data) = true then none else toInt st.freq,
        replace "SSID: ".toList [] (print_ssid data),
        if contains "signal: ".toList (print_ssid data) = true then some none
          else st.rssi.map readInt⟩ := by
  have hline : ssidLine (print_ssid data) = "\tSSID: ".toList ++ print_ssid data := rfl
  have hfreq : contains "freq: ".toList (ssidLine (print_ssid data)) =
      contains "freq: ".toList (print_ssid data) :=
    contains_append (d := 'f') rfl (by decide) _
  have hsignal : contains "signal: ".toList (ssidLine (print_ssid data)) =
      contains "signal: ".toList (print_ssid data) :=
    contains_append (d := 's') rfl (by decide) _
  have hssid : contains "SSID: ".toList (ssidLine (print_ssid data)) = true :=
    contains_iff.mpr ⟨"\t".toList, _, rfl⟩
  have hvendor : contains vendorText (ssidLine (print_ssid data)) = false := by
    rw [hline, contains_append (d := 'V') rfl (by decide)]
    exact contains_eq_false_iff.mpr (print_ssid_vendor data)
  have hname : (((replace "SSID: ".toList [] (ssidLine (print_ssid data))).filter (· ≠ '\t')).filter
      (· ≠ '\n')) = replace "SSID: ".toList [] (print_ssid data) := by
    have hcut : replace "SSID: ".toList [] (ssidLine (print_ssid data)) =
        '\t' :: replace "SSID: ".toList [] (print_ssid data) :=
      replace_of_cut_some (by decide) (cut_append (d := 'S') (a := "\t".toList) _ (by decide))
    rw [hcut, List.filter_cons_of_neg (by decide),
      filter_eq_self_of_not_mem (fun h => print_ssid_free (by decide) data (mem_of_replace_nil h)),
      filter_eq_self_of_not_mem (fun h => print_ssid_free (by decide) data (mem_of_replace_nil h))]
  have hfreqText : readInt (((replace "freq: ".toList [] (ssidLine (print_ssid data))).filter
      (· ≠ ' ')).filter (· ≠ '\n')) = none := by
    rw [hline, replace_append (d := 'f') rfl (by decide), List.filter_append, List.filter_append]
    exact readInt_nameLine (by decide) _
  have hlevelText : readInt ((replace ".00 dBm".toList [] (replace "signal: ".toList []
      (ssidLine (print_ssid data)))).filter (· ≠ '\n')) = none := by
    rw [hline, replace_append (d := 's') rfl (by decide), replace_append (d := '.') rfl (by decide),
      List.filter_append]
    exact readInt_nameLine (by decide) _
  simp only [scanLine, hfreq, hsignal, hssid, hvendor, replace_letter, hname, if_true,
    Bool.false_eq_true, if_false]
  refine ⟨_, rfl, rfl, ?_⟩
  simp only [view, Effect.mk.injEq, true_and]
  constructor
  · split
    · exact hfreqText
    · rfl
  · split
    · rw [Option.map_some, hlevelText]
    · rfl

theorem scanLines_singleton (st : ScanState) (line : Text) :
    scanLines st [line] = scanLine st line := by
  rw [scanLines]
  cases scanLine st line with
  | error e => rfl
  | ok st' => rfl

theorem scanLines_freq (st : ScanState) (freq : Option ℤ) :
    ∃ st', scanLines st (freq.toList.map freqLine) = .ok st' ∧ st'.dataArray = st.dataArray ∧
      view st' = { view st with freq := (freq.map some).getD (toInt st.freq) } := by
  cases freq with
  | none => exact ⟨st, rfl, rfl, rfl⟩
  | some freq =>
    rw [Option.toList_some, List.map_singleton, scanLines_singleton, scanLine_freq]
    refine ⟨_, rfl, rfl, ?_⟩
    simp only [view, toInt_tab]
    rfl

theorem scanLines_signal (st : ScanState) (signal : Option Signal) :
    ∃ st', scanLines st (signal.toList.map levelLine) = .ok st' ∧ st'.dataArray = st.dataArray ∧
      view st' = { view st with level := (signal.map Signal.whole).or (st.rssi.map readInt) } := by
  cases signal with
  | none => exact ⟨st, rfl, rfl, rfl⟩
  | some s =>
    obtain ⟨level, hline, hread⟩ := scanLine_levelLine st s
    rw [Option.toList_some, List.map_singleton, scanLines_singleton, hline]
    refine ⟨_, rfl, rfl, ?_⟩
    simp only [view, Option.map_some, hread]
    rfl

theorem scanLines_name (st : ScanState) (b : Block p size) :
    ∃ st', scanLines st (b.ssid.toList.map (fun data => ssidLine (print_ssid data))) = .ok st' ∧
      st'.dataArray = st.dataArray ∧
      view st' = ⟨if b.spells "freq: ".toList = true then none else toInt st.freq,
        b.ssidSaid.getD st.ssid,
        if b.spells "signal: ".toList = true then some none else st.rssi.map readInt⟩ := by
  obtain ⟨freq, signal, ssid, elements⟩ := b
  cases ssid with
  | none => exact ⟨st, rfl, rfl, rfl⟩
  | some data =>
    rw [Option.toList_some, List.map_singleton, scanLines_singleton]
    exact scanLine_nameLine st data

/-- The loop over the lines of a block in front of its elements. -/
theorem scanLines_head (st : ScanState) (b : Block p size) :
    ∃ st', scanLines st b.head = .ok st' ∧ st'.dataArray = st.dataArray ∧
      view st' = b.change (view st) := by
  obtain ⟨st₁, hfreq, hdata₁, hview₁⟩ := scanLines_freq st b.freq
  obtain ⟨st₂, hlevel, hdata₂, hview₂⟩ := scanLines_signal st₁ b.signal
  obtain ⟨st₃, hname, hdata₃, hview₃⟩ := scanLines_name st₂ b
  refine ⟨st₃, ?_, ?_, ?_⟩
  · rw [Block.head, scanLines_append hfreq, scanLines_append hlevel, hname]
  · rw [hdata₃, hdata₂, hdata₁]
  · have hfreq₂ : toInt st₂.freq = (b.freq.map some).getD (toInt st.freq) :=
      (congrArg Effect.freq hview₂).trans (congrArg Effect.freq hview₁)
    have hssid₂ : st₂.ssid = st.ssid :=
      (congrArg Effect.ssid hview₂).trans (congrArg Effect.ssid hview₁)
    have hlevel₁ : st₁.rssi.map readInt = st.rssi.map readInt := congrArg Effect.level hview₁
    have hlevel₂ : st₂.rssi.map readInt = (b.signal.map Signal.whole).or (st.rssi.map readInt) :=
      (congrArg Effect.level hview₂).trans (by rw [hlevel₁])
    rw [hview₃, hfreq₂, hssid₂, hlevel₂, Block.change, Block.freqSaid, Block.levelSaid]
    congr 1
    · split
      · rfl
      · rfl
    · split
      · rfl
      · rfl

end Heads

end Nxwlan.ScanBlocks
