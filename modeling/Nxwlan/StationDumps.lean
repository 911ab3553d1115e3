import Nxwlan.PyWords
import Nxwlan.JsonFrames
import Mathlib.Data.List.AList

/-!
The reader of "iw station dump". A line with "Station" in it opens the entry of a
station, every other line is a statistic of the station opened last. Both are
told apart by this word only, and a line that cannot be cut gives up the whole dump.
-/
namespace Nxwlan.StationDumps

open PyText JsonFrames

/-- The statistics of a station: value and unit of each name. -/
abbrev Stats := AList (fun _ : Text => Text × Option Text)

/-- `mac_addr -> stat_key -> (value, unit)`. -/
abbrev Stations := AList (fun _ : Text => Stats)

/-- The local variables of the loop; `mac_addr` is not bound before the first station. -/
structure Reading where
  mac_addr : Option Text := none
  res : Stations := ∅

/-- `res[mac_addr][key] = (val2, unit)`. -/
def Reading.put (st : Reading) (key val2 : Text) (unit : Option Text) : Except PyError Reading :=
  match st.mac_addr with
  | none => .error .nameError
  | some mac =>
    match st.res.lookup mac with
    | none => .error .keyError
    | some stats => .ok { st with res := st.res.insert mac (stats.insert key (val2, unit)) }

/-- The statistic in a line, already stripped. -/
def readStat (st : Reading) (s : Text) : Except PyError Reading :=
  match s.splitOn ':' with
  | key :: val :: _ =>
    match words (strip val) with
    | [] => .error .indexError
    | val2 :: arr2 => st.put (strip key) (strip val2) (arr2.head?.map strip)
  | _ => .error .indexError

/-- One pass of the loop. -/
def readLine (st : Reading) (line : Text) : Except PyError Reading :=
  let s := strip line
  if s = [] then .ok st
  else if contains "Station".toList s then
    match words s with
    | _ :: mac :: _ => .ok { mac_addr := some (strip mac), res := st.res.insert (strip mac) ∅ }
    | _ => .error .indexError
  else readStat st s

def readLines (st : Reading) (lines : List Text) : Except PyError Reading :=
  lines.foldlM readLine st

/-- What the command printed, as a table; `none` after any exception. -/
def getInfoOfAssociatedSTAs (sout : Text) : Option Stations :=
  match readLines {} (sout.splitOn '\n') with
  | .ok st => some st.res
  | .error _ => none

/-- The copy of the power control program, which wraps the exception and raises it again. -/
def Vapresfi.getInfoOfAssociatedSTAs (sout : Text) : Except PyError Stations :=
  (readLines {} (sout.splitOn '\n')).map Reading.res

/-! The form in which iw prints a table. -/

/-- A name of a statistic: trimmed, within a line, and without ':' and "Station". -/
structure StatName (name : Text) : Prop extends Trimmed name where
  colon : ':' ∉ name
  line : '\n' ∉ name
  station : ¬ "Station".toList <:+: name

/-- A value or a unit: a word without ':' and "Station". -/
structure StatWord (w : Text) : Prop extends Word w where
  colon : ':' ∉ w
  station : ¬ "Station".toList <:+: w

/-- "Station mac (on iface)" with any blanks. -/
inductive StationLine (mac : Text) : Text → Prop
  | intro {a b c d e iface : Text} (hmac : Word mac) (hiface : '\n' ∉ iface)
      (ha : Blank a) (hb : Blank b) (hc : Blank c) (hd : Blank d) (he : Blank e)
      (hbne : b ≠ []) (hcne : c ≠ []) (hdne : d ≠ []) :
      StationLine mac (a ++ ("Station".toList ++ b ++ (mac ++ c ++
        ("(on".toList ++ (d ++ iface) ++ [')']))) ++ e)

/-- The unit behind a value, if there is one. -/
inductive UnitPart : Option Text → Text → Prop
  | none : UnitPart none []
  | some {b unit : Text} (hunit : StatWord unit) (hb : Blank b) (hbne : b ≠ []) :
      UnitPart (some unit) (b ++ unit)

/-- "name: value unit" with any blanks. -/
inductive StatLine (name : Text) : Text × Option Text → Text → Prop
  | intro {a b c d value part : Text} {unit : Option Text} (hname : StatName name)
      (hvalue : StatWord value) (hpart : UnitPart unit part)
      (ha : Blank a) (hb : Blank b) (hc : Blank c) (hd : Blank d) :
      StatLine name (value, unit) (a ++ (name ++ (b ++ ':' :: c) ++ (value ++ part)) ++ d)

/-- The lines of a station's statistics, with blank lines among them. -/
inductive StatLines : List (Σ _ : Text, Text × Option Text) → List Text → Prop
  | nil : StatLines [] []
  | blank {entries lines b} (hb : Blank b) (h : StatLines entries lines) :
      StatLines entries (b :: lines)
  | stat {name entry line entries lines} (hline : StatLine name entry line)
      (h : StatLines entries lines) : StatLines (⟨name, entry⟩ :: entries) (line :: lines)

/-- The lines of some stations; the statistics of each stand in any order. -/
inductive StationLines : List (Σ _ : Text, Stats) → List Text → Prop
  | nil : StationLines [] []
  | blank {stations lines b} (hb : Blank b) (h : StationLines stations lines) :
      StationLines stations (b :: lines)
  | station {mac stats line entries body stations lines} (hline : StationLine mac line)
      (horder : entries.Perm stats.entries) (hbody : StatLines entries body)
      (h : StationLines stations lines) :
      StationLines (⟨mac, stats⟩ :: stations) (line :: (body ++ lines))

/-- A printed form of a table, with the stations in any order. -/
inductive Renders (table : Stations) : Text → Prop
  | intro {stations lines} (horder : stations.Perm table.entries)
      (hlines : StationLines stations lines) : Renders table (['\n'].intercalate lines)

/-- Equal dictionaries: the same keys, and the same values under them. -/
def SameStats (s t : Option Stats) : Prop :=
  Option.Rel (fun s t : Stats => ∀ name, s.lookup name = t.lookup name) s t

def SameTable (s t : Stations) : Prop := ∀ mac, SameStats (s.lookup mac) (t.lookup mac)

theorem sameStats_refl (s : Option Stats) : SameStats s s := by
  cases s with
  | none => exact Option.Rel.none
  | some s => exact Option.Rel.some (fun _ => rfl)

/-! One line. -/

theorem readLine_blank {b : Text} (hb : Blank b) (st : Reading) : readLine st b = .ok st := by
  simp only [readLine, strip_blank hb, if_true]

theorem trimmed_on : Trimmed "(on".toList := .of_ends rfl rfl rfl rfl

theorem word_station : Word "Station".toList := ⟨by decide, forall_of_all (by decide)⟩

theorem readLine_station {mac line : Text} (h : StationLine mac line) (st : Reading) :
    readLine st line = .ok { mac_addr := some mac, res := st.res.insert mac ∅ } := by
  obtain ⟨hmac, hiface, ha, hb, hc, hd, he, hbne, hcne, hdne⟩ := h
  rename_i a b c d e iface
  have hparen : Trimmed [')'] := .of_ends rfl rfl rfl rfl
  have htail : Trimmed (mac ++ c ++ ("(on".toList ++ (d ++ iface) ++ [')'])) :=
    hmac.trimmed.between (trimmed_on.between hparen _) _
  have hstrip := strip_blanks ha (word_station.trimmed.between htail b) he
  have hne := (word_station.trimmed.between htail b).ne_nil
  have hfound : contains "Station".toList
      ("Station".toList ++ b ++ (mac ++ c ++ ("(on".toList ++ (d ++ iface) ++ [')']))) = true := by
    rw [contains_iff, List.append_assoc]
    exact (List.prefix_append _ _).isInfix
  have hwords := words_cons word_station hb hbne
    (mac ++ c ++ ("(on".toList ++ (d ++ iface) ++ [')']))
  rw [words_cons hmac hc hcne] at hwords
  rw [readLine, hstrip, if_neg hne, if_pos hfound, hwords]
  simp only [strip_eq hmac.solid]

theorem UnitPart.trimmed {value part : Text} {unit : Option Text} (hvalue : Word value)
    (h : UnitPart unit part) : Trimmed (value ++ part) := by
  cases h with
  | none => simpa using hvalue.trimmed
  | some hunit hb hbne =>
    rw [← List.append_assoc]
    exact hvalue.trimmed.between hunit.toWord.trimmed _

/-- The words behind the colon. -/
theorem UnitPart.words {value part : Text} {unit : Option Text} (hvalue : Word value)
    (h : UnitPart unit part) : words (value ++ part) = value :: unit.toList := by
  cases h with
  | none => simpa using words_word hvalue
  | some hunit hb hbne =>
    rw [← List.append_assoc, words_cons hvalue hb hbne, words_word hunit.toWord]
    rfl

theorem UnitPart.strip_unit {part : Text} {unit : Option Text} (h : UnitPart unit part) :
    unit.toList.head?.map strip = unit := by
  cases h with
  | none => rfl
  | some hunit hb hbne => simp [strip_eq hunit.solid]

theorem UnitPart.colon {part : Text} {unit : Option Text} (h : UnitPart unit part) :
    ':' ∉ part := by
  cases h with
  | none => exact List.not_mem_nil
  | some hunit hb hbne =>
    simp only [List.mem_append, not_or]
    exact ⟨hb.not_mem (by decide), hunit.colon⟩

theorem UnitPart.station {value part : Text} {unit : Option Text} (hvalue : StatWord value)
    (h : UnitPart unit part) : ¬ "Station".toList <:+: value ++ part := by
  cases h with
  | none => simpa using hvalue.station
  | @some b unit hunit hb hbne =>
    intro hinside
    cases b with
    | nil => exact hbne rfl
    | cons d b =>
      have hd : d ∉ "Station".toList := by
        intro hmem
        have hsolid := word_station.solid d hmem
        rw [(hb d List.mem_cons_self).1] at hsolid
        cases hsolid
      rcases (infix_append_cons hd).mp hinside with hinside | hinside
      · exact hvalue.station hinside
      · refine hunit.station (infix_of_infix_append (d := 'S') rfl ?_ hinside)
        exact (Blank.cons_iff.mp hb).2.not_mem (by decide)

theorem readLine_stat {name line : Text} {entry : Text × Option Text} (h : StatLine name entry line)
    (st : Reading) : readLine st line = st.put name entry.1 entry.2 := by
  obtain ⟨hname, hvalue, hpart, ha, hb, hc, hd⟩ := h
  rename_i a b c d value part unit
  have htrim : Trimmed (name ++ (b ++ ':' :: c) ++ (value ++ part)) :=
    hname.toTrimmed.between (hpart.trimmed hvalue.toWord) _
  have hstation : contains "Station".toList (name ++ (b ++ ':' :: c) ++ (value ++ part)) = false := by
    rw [contains_eq_false_iff]
    intro hinside
    rw [show name ++ (b ++ ':' :: c) ++ (value ++ part) =
      name ++ b ++ ':' :: (c ++ (value ++ part)) by simp] at hinside
    rcases (infix_append_cons (by decide)).mp hinside with hinside | hinside
    · exact hname.station (infix_append_blank word_station hb hinside)
    · refine hpart.station hvalue (infix_of_infix_append (d := 'S') rfl ?_ hinside)
      exact hc.not_mem (by decide)
  have hcolon : ':' ∉ name ++ b := by
    simp only [List.mem_append, not_or]
    exact ⟨hname.colon, hb.not_mem (by decide)⟩
  have hrest : ':' ∉ c ++ (value ++ part) := by
    simp only [List.mem_append, not_or]
    exact ⟨hc.not_mem (by decide), hvalue.colon, hpart.colon⟩
  have hsplit : (name ++ (b ++ ':' :: c) ++ (value ++ part)).splitOn ':' =
      [name ++ b, c ++ (value ++ part)] := by
    rw [show name ++ (b ++ ':' :: c) ++ (value ++ part) =
      name ++ b ++ ':' :: (c ++ (value ++ part)) by simp,
      List.splitOn_append_cons_self_of_not_mem hcolon, List.splitOn_eq_singleton hrest]
  have hnil : Blank [] := fun c hc => absurd hc List.not_mem_nil
  have hkey : strip (name ++ b) = name := by
    simpa using strip_blanks hnil hname.toTrimmed hb
  have hval : strip (c ++ (value ++ part)) = value ++ part := by
    simpa using strip_blanks hc (hpart.trimmed hvalue.toWord) hnil
  rw [readLine, strip_blanks ha htrim hd, if_neg htrim.ne_nil, hstation,
    if_neg Bool.false_ne_true, readStat, hsplit]
  simp only [hval, hpart.words hvalue.toWord, hkey, strip_eq hvalue.solid, hpart.strip_unit]

/-! Whole dumps. -/

theorem StationLine.line {mac line : Text} (h : StationLine mac line) : '\n' ∉ line := by
  obtain ⟨hmac, hiface, ha, hb, hc, hd, he, hbne, hcne, hdne⟩ := h
  have hon : '\n' ∉ "(on".toList := by decide
  simp only [List.mem_append, not_or]
  exact ⟨⟨ha.line, ⟨word_station.line, hb.line⟩, ⟨hmac.line, hc.line⟩,
    ⟨hon, hd.line, hiface⟩, by decide⟩, he.line⟩

theorem UnitPart.line {part : Text} {unit : Option Text} (h : UnitPart unit part) :
    '\n' ∉ part := by
  cases h with
  | none => exact List.not_mem_nil
  | some hunit hb hbne =>
    simp only [List.mem_append, not_or]
    exact ⟨hb.line, hunit.toWord.line⟩

theorem StatLine.line {name line : Text} {entry : Text × Option Text}
    (h : StatLine name entry line) : '\n' ∉ line := by
  obtain ⟨hname, hvalue, hpart, ha, hb, hc, hd⟩ := h
  simp only [List.mem_append, List.mem_cons, not_or]
  exact ⟨⟨ha.line, ⟨hname.line, hb.line, by decide, hc.line⟩, hvalue.toWord.line, hpart.line⟩,
    hd.line⟩

theorem StatLines.line {entries : List (Σ _ : Text, Text × Option Text)} {lines : List Text}
    (h : StatLines entries lines) : ∀ line ∈ lines, '\n' ∉ line := by
  induction h with
  | nil => exact fun line hline => absurd hline List.not_mem_nil
  | blank hb h ih => exact List.forall_mem_cons.mpr ⟨hb.line, ih⟩
  | stat hline h ih => exact List.forall_mem_cons.mpr ⟨hline.line, ih⟩

theorem StationLines.line {stations : List (Σ _ : Text, Stats)} {lines : List Text}
    (h : StationLines stations lines) : ∀ line ∈ lines, '\n' ∉ line := by
  induction h with
  | nil => exact fun line hline => absurd hline List.not_mem_nil
  | blank hb h ih => exact List.forall_mem_cons.mpr ⟨hb.line, ih⟩
  | station hline horder hbody h ih =>
    refine List.forall_mem_cons.mpr ⟨hline.line, ?_⟩
    intro line hmem
    rcases List.mem_append.mp hmem with hmem | hmem
    · exact hbody.line line hmem
    · exact ih line hmem

theorem readLines_cons {st st' : Reading} {line : Text} (h : readLine st line = .ok st')
    (lines : List Text) : readLines st (line :: lines) = readLines st' lines := by
  rw [readLines, List.foldlM_cons, h]
  rfl

theorem readLines_append {st st' : Reading} {body : List Text} (h : readLines st body = .ok st')
    (lines : List Text) : readLines st (body ++ lines) = readLines st' lines := by
  rw [readLines] at h
  rw [readLines, List.foldlM_append, h]
  rfl

/-- The statistics of the station opened last, read line by line. -/
theorem StatLines.read {entries : List (Σ _ : Text, Text × Option Text)} {lines : List Text}
    (h : StatLines entries lines) (hkeys : entries.NodupKeys) {st : Reading} {mac : Text}
    {stats : Stats} (hmac : st.mac_addr = some mac) (hstats : st.res.lookup mac = some stats) :
    ∃ st' stats', readLines st lines = .ok st' ∧ st'.mac_addr = some mac ∧
      st'.res.lookup mac = some stats' ∧
      (∀ name, stats'.lookup name = (entries.dlookup name).or (stats.lookup name)) ∧
      ∀ other, other ≠ mac → st'.res.lookup other = st.res.lookup other := by
  induction h generalizing st stats with
  | nil => exact ⟨st, stats, rfl, hmac, hstats, fun name => rfl, fun other hother => rfl⟩
  | blank hb h ih =>
    obtain ⟨st', stats', hread, hrest⟩ := ih hkeys hmac hstats
    refine ⟨st', stats', ?_, hrest⟩
    rwa [readLines_cons (readLine_blank hb st)]
  | @stat name entry line entries lines hline h ih =>
    obtain ⟨hfresh, hkeys⟩ := List.nodupKeys_cons.mp hkeys
    obtain ⟨st₁, hst₁⟩ : ∃ st₁ : Reading,
        st₁ = { st with res := st.res.insert mac (stats.insert name entry) } := ⟨_, rfl⟩
    have hput : st.put name entry.1 entry.2 = .ok st₁ := by
      simp only [Reading.put, hmac, hstats, hst₁]
    have hmac₁ : st₁.mac_addr = some mac := by rw [hst₁, hmac]
    have hstats₁ : st₁.res.lookup mac = some (stats.insert name entry) := by
      rw [hst₁, AList.lookup_insert]
    obtain ⟨st', stats', hread, hmac', hstats', hnames, hothers⟩ := ih hkeys hmac₁ hstats₁
    refine ⟨st', stats', ?_, hmac', hstats', ?_, ?_⟩
    · rwa [readLines_cons ((readLine_stat hline st).trans hput)]
    · intro other
      rw [hnames]
      by_cases hother : other = name
      · subst hother
        rw [List.dlookup_eq_none.mpr hfresh, AList.lookup_insert, List.dlookup_cons_eq]
        rfl
      · rw [AList.lookup_insert_ne hother, List.dlookup_cons_ne entries ⟨name, entry⟩ hother]
    · intro other hother
      rw [hothers other hother, hst₁, AList.lookup_insert_ne hother]

theorem StationLines.read {stations : List (Σ _ : Text, Stats)} {lines : List Text}
    (h : StationLines stations lines) (hkeys : stations.NodupKeys) (st : Reading) :
    ∃ st', readLines st lines = .ok st' ∧
      ∀ mac, SameStats (st'.res.lookup mac) ((stations.dlookup mac).or (st.res.lookup mac)) := by
  induction h generalizing st with
  | nil => exact ⟨st, rfl, fun mac => sameStats_refl _⟩
  | blank hb h ih =>
    obtain ⟨st', hread, hrest⟩ := ih hkeys st
    refine ⟨st', ?_, hrest⟩
    rwa [readLines_cons (readLine_blank hb st)]
  | @station mac stats line entries body stations lines hline horder hbody h ih =>
    obtain ⟨hfresh, hkeys⟩ := List.nodupKeys_cons.mp hkeys
    have hnames : entries.NodupKeys := (List.perm_nodupKeys horder).mpr stats.nodupKeys
    have hopen : (st.res.insert mac ∅).lookup mac = some ∅ := AList.lookup_insert _
    obtain ⟨st₁, stats₁, hread₁, -, hstats₁, hlook₁, hothers₁⟩ :=
      @StatLines.read _ _ hbody hnames { mac_addr := some mac, res := st.res.insert mac ∅ } _ _
        rfl hopen
    obtain ⟨st₂, hread₂, hlook₂⟩ := ih hkeys st₁
    refine ⟨st₂, ?_, ?_⟩
    · rwa [readLines_cons (readLine_station hline st), readLines_append hread₁]
    · intro other
      have hlook := hlook₂ other
      by_cases hother : other = mac
      · subst hother
        rw [List.dlookup_eq_none.mpr hfresh, Option.none_or, hstats₁] at hlook
        rw [List.dlookup_cons_eq, Option.some_or]
        have hsame : SameStats (some stats₁) (some stats) := by
          refine Option.Rel.some (fun name => ?_)
          rw [hlook₁, AList.lookup_empty, Option.or_none, List.perm_dlookup name hnames horder]
          rfl
        generalize st₂.res.lookup other = found at hlook
        cases hlook with
        | some hfound =>
          cases hsame with
          | some hsame => exact Option.Rel.some (fun name => (hfound name).trans (hsame name))
      · rw [hothers₁ other hother, AList.lookup_insert_ne hother] at hlook
        rwa [List.dlookup_cons_ne stations ⟨mac, stats⟩ hother]

/-- Every printed form of a table is read back as this table. -/
theorem station_dump_read_back (table : Stations) (sout : Text) (h : Renders table sout) :
    ∃ res, getInfoOfAssociatedSTAs sout = some res ∧
      Vapresfi.getInfoOfAssociatedSTAs sout = .ok res ∧ SameTable res table := by
  obtain ⟨horder, hlines⟩ := h
  rename_i stations lines
  have hkeys : stations.NodupKeys := (List.perm_nodupKeys horder).mpr table.nodupKeys
  obtain ⟨st, hread, hlook⟩ := hlines.read hkeys {}
  have hsplit : readLines {} ((['\n'].intercalate lines).splitOn '\n') = .ok st := by
    cases lines with
    | nil =>
      have hblank : Blank [] := fun c hc => absurd hc List.not_mem_nil
      change readLines {} [[]] = .ok st
      rwa [readLines_cons (readLine_blank hblank _)]
    | cons line lines => rwa [List.splitOn_intercalate '\n' hlines.line (List.cons_ne_nil _ _)]
  refine ⟨st.res, ?_, ?_, ?_⟩
  · rw [getInfoOfAssociatedSTAs, hsplit]
  · rw [Vapresfi.getInfoOfAssociatedSTAs, hsplit]
    rfl
  · intro mac
    have hmac := hlook mac
    rw [AList.lookup_empty, Option.or_none, List.perm_dlookup mac hkeys horder] at hmac
    exact hmac

/-- A line for a station as iw prints it. -/
theorem printed_station {mac : Text} (hmac : Word mac) :
    StationLine mac ("Station ".toList ++ (mac ++ " (on wlan0)".toList)) := by
  have hnil : Blank [] := fun c hc => absurd hc List.not_mem_nil
  have hspace : Blank [' '] := forall_of_all (by decide)
  have hiface : '\n' ∉ "wlan0".toList := by decide
  have hline := StationLine.intro hmac hiface hnil hspace hspace hspace hnil (by decide)
    (by decide) (by decide)
  rw [List.nil_append, List.append_nil, List.append_assoc mac] at hline
  exact hline

/-- A line for a value with its unit. -/
theorem printed_stat {name value unit : Text} (hname : StatName name) (hvalue : StatWord value)
    (hunit : StatWord unit) : StatLine name (value, some unit)
      ('\t' :: (name ++ ":\t".toList ++ (value ++ (' ' :: unit)))) := by
  have hnil : Blank [] := fun c hc => absurd hc List.not_mem_nil
  have hspace : Blank [' '] := forall_of_all (by decide)
  have htab : Blank ['\t'] := forall_of_all (by decide)
  have hline := StatLine.intro hname hvalue (.some hunit hspace (by decide)) htab hnil htab hnil
  rw [List.append_nil] at hline
  exact hline

def nearStats : Stats :=
  ((∅ : Stats).insert "signal".toList ("-40".toList, some "dBm".toList)).insert
    "tx bitrate".toList ("54.0".toList, some "MBit/s".toList)

def idleStats : Stats :=
  ((∅ : Stats).insert "inactive time".toList ("12".toList, some "ms".toList)).insert
    "tx bitrate".toList ("6.0".toList, some "MBit/s".toList)

/-- Two stations, each with a rate and one more value. -/
def twoStations : Stations :=
  ((∅ : Stations).insert "b8:a3".toList nearStats).insert "b8:a4".toList idleStats

def twoStationsText : Text :=
  ("Station b8:a3 (on wlan0)\n\tsignal:\t-40 dBm\n\ttx bitrate:\t54.0 MBit/s\n" ++
    "Station b8:a4 (on wlan0)\n\tinactive time:\t12 ms\n\ttx bitrate:\t6.0 MBit/s\n").toList

theorem statWord_of {w : Text} (hne : w ≠ []) (hsolid : w.all (fun c => !isSpace c) = true)
    (hcolon : ':' ∉ w) (hstation : ¬ "Station".toList <:+: w) : StatWord w :=
  ⟨⟨hne, fun c hc => by simpa using List.all_eq_true.mp hsolid c hc⟩, hcolon, hstation⟩

set_option maxRecDepth 2000 in
/-- Stations and values are printed in another order than the tables hold them in. -/
theorem twoStations_renders : Renders twoStations twoStationsText := by
  have hword : ∀ w ∈ ["-40", "dBm", "54.0", "MBit/s", "12", "ms", "6.0"], StatWord w.toList := by
    intro w hw
    simp only [List.mem_cons, List.not_mem_nil, or_false] at hw
    rcases hw with rfl | rfl | rfl | rfl | rfl | rfl | rfl
    all_goals exact statWord_of (by decide) (by decide) (by decide) (by decide)
  have hname : ∀ name ∈ ["signal", "tx bitrate", "inactive time"], StatName name.toList := by
    intro name hname
    simp only [List.mem_cons, List.not_mem_nil, or_false] at hname
    rcases hname with rfl | rfl | rfl
    all_goals exact ⟨.of_ends rfl rfl rfl rfl, by decide, by decide, by decide⟩
  have hrate := hname "tx bitrate" (by simp)
  have hmbit := hword "MBit/s" (by simp)
  have hfirst : StationLine "b8:a3".toList _ :=
    printed_station ⟨by decide, forall_of_all (by decide)⟩
  have hsecond : StationLine "b8:a4".toList _ :=
    printed_station ⟨by decide, forall_of_all (by decide)⟩
  have hsignal := printed_stat (hname "signal" (by simp)) (hword "-40" (by simp))
    (hword "dBm" (by simp))
  have hinactive := printed_stat (hname "inactive time" (by simp)) (hword "12" (by simp))
    (hword "ms" (by simp))
  have hnil : Blank [] := fun c hc => absurd hc List.not_mem_nil
  have hlines : StationLines [⟨"b8:a3".toList, nearStats⟩, ⟨"b8:a4".toList, idleStats⟩] _ :=
    .station hfirst (.swap _ _ _)
      (.stat hsignal (.stat (printed_stat hrate (hword "54.0" (by simp)) hmbit) .nil))
      (.station hsecond (.swap _ _ _)
        (.stat hinactive (.stat (printed_stat hrate (hword "6.0" (by simp)) hmbit) .nil))
        (.blank hnil .nil))
  have hswap : [⟨"b8:a3".toList, nearStats⟩, ⟨"b8:a4".toList, idleStats⟩].Perm
      twoStations.entries := .swap _ _ _
  exact Renders.intro hswap hlines

theorem twoStations_read_back : ∃ res, getInfoOfAssociatedSTAs twoStationsText = some res ∧
    Vapresfi.getInfoOfAssociatedSTAs twoStationsText = .ok res ∧ SameTable res twoStations :=
  station_dump_read_back twoStations twoStationsText twoStations_renders

end Nxwlan.StationDumps
