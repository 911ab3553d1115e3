import Nxwlan.ScanBlocks

/-!
The loop of `performActiveScan` over blocks of lines, and what its entries say. An entry
belongs to the block in which its element stands; what that block does not print comes
from the last block that prints it.
-/
namespace Nxwlan.ScanBlocks

open JsonFrames AgentState PyText ScanCommands ScanResults
open ReceiveLoop (lowerHex)
open Base64 (Bytes)
open LastWrites (lastWrite lastWrite_append view_run)

section Loops

variable {p : Platform} {size : ℕ} {freq : ℤ} {ssid : Text} {st : ScanState}
  {before : List (Block p size)}

/-- An element of the output, with its block and the blocks up to there. -/
structure Item (p : Platform) (size : ℕ) where
  upTo : List (Block p size)
  block : Block p size
  element : Element p size

/-- What is in effect at an element. -/
def Item.effect (freq : ℤ) (ssid : Text) (item : Item p size) : Effect :=
  inEffect freq ssid item.upTo

/-- The elements of a block that comes behind others. -/
def Block.items (before : List (Block p size)) (b : Block p size) : List (Item p size) :=
  b.elements.map (fun e => ⟨before ++ [b], b, e⟩)

def heardFrom (before : List (Block p size)) : List (Block p size) → List (Item p size)
  | [] => []
  | b :: rest => b.items before ++ heardFrom (before ++ [b]) rest

/-- The elements of the output, in their order. -/
def heard (blocks : List (Block p size)) : List (Item p size) := heardFrom [] blocks

theorem mem_items {b : Block p size} {item : Item p size} (h : item ∈ b.items before) :
    item.upTo = before ++ [b] ∧ b.elements ≠ [] := by
  obtain ⟨e, he, rfl⟩ := List.mem_map.mp h
  exact ⟨rfl, List.ne_nil_of_mem he⟩

/-- What the second loop reads of an entry. -/
def summary (e : ScanEntry) : Option ℤ × Text × Option ℤ × Text :=
  (toInt e.freq, e.ssid, readInt e.rssi, e.data)

/-- What it reads for an element while something is in effect. -/
def Effect.summary (x : Effect) (e : Element p size) : Option ℤ × Text × Option ℤ × Text :=
  (x.freq, x.ssid, x.level.join, lineData e.payload)

def Item.summary (freq : ℤ) (ssid : Text) (item : Item p size) :
    Option ℤ × Text × Option ℤ × Text :=
  (item.effect freq ssid).summary item.element

theorem scanLines_elements {level : Text} (hlevel : st.rssi = some level)
    (elements : List (Element p size)) (after : List Text) :
    scanLines st (elements.map (fun e => vendorLine e.payload) ++ after) =
      scanLines ⟨st.freq, st.ssid, st.rssi, st.dataArray ++
        elements.map (fun e => ⟨st.freq, st.ssid, level, lineData e.payload⟩)⟩ after := by
  induction elements generalizing st with
  | nil => simp
  | cons e rest ih =>
    rw [List.map_cons, List.cons_append, scanLines, scanLine_vendor st _ hlevel]
    have hrest := @ih ⟨st.freq, st.ssid, st.rssi,
      st.dataArray ++ [⟨st.freq, st.ssid, level, lineData e.payload⟩]⟩ hlevel
    rw [List.append_assoc, List.singleton_append] at hrest
    exact hrest

/-- A block is read to its end, unless it has an element and there is no level yet. -/
theorem scanLines_block (hview : view st = inEffect freq ssid before) (b : Block p size)
    (after : List Text) :
    (b.elements ≠ [] ∧ (inEffect freq ssid (before ++ [b])).level = none ∧
      scanLines st (b.lines ++ after) = .error .nameError) ∨
    ∃ st', (b.elements ≠ [] → (inEffect freq ssid (before ++ [b])).level ≠ none) ∧
      scanLines st (b.lines ++ after) = scanLines st' after ∧
      view st' = inEffect freq ssid (before ++ [b]) ∧
      st'.dataArray.map summary =
        st.dataArray.map summary ++ (b.items before).map (Item.summary freq ssid) := by
  obtain ⟨st₁, hhead, hdata, hview₁⟩ := scanLines_head st b
  rw [hview, ← inEffect_append] at hview₁
  have hlevel : (inEffect freq ssid (before ++ [b])).level = st₁.rssi.map readInt := by
    rw [← hview₁]
    rfl
  rw [Block.lines, List.append_assoc, scanLines_append hhead, hlevel]
  cases hrssi : st₁.rssi with
  | none =>
    by_cases hnil : b.elements = []
    · refine Or.inr ⟨st₁, ?_, ?_, hview₁, ?_⟩
      · intro hne
        exact absurd hnil hne
      · rw [hnil]
        rfl
      · rw [Block.items, hnil, hdata]
        simp
    · obtain ⟨e, rest, hcons⟩ := List.exists_cons_of_ne_nil hnil
      refine Or.inl ⟨hnil, rfl, ?_⟩
      rw [hcons, List.map_cons, List.cons_append, scanLines, scanLine_vendorLine]
      simp only [hrssi]
  | some level =>
    refine Or.inr ⟨_, ?_, scanLines_elements hrssi _ _, ?_, ?_⟩
    · intro _ hnone
      cases hnone
    · exact hview₁
    · rw [List.map_append, hdata, Block.items, List.map_map, List.map_map]
      congr 1
      apply List.map_congr_left
      intro e _
      simp only [Function.comp_apply, Item.summary, Item.effect, ← hview₁, Effect.summary, view,
        summary, hrssi]
      rfl

/-- If a level is set before every element, the loop adds one entry for each. -/
theorem scanLines_blocks (hview : view st = inEffect freq ssid before)
    (blocks : List (Block p size))
    (hbound : ∀ item ∈ heardFrom before blocks, (item.effect freq ssid).level ≠ none) :
    ∃ st', scanLines st (blocks.flatMap Block.lines) = .ok st' ∧
      st'.dataArray.map summary =
        st.dataArray.map summary ++ (heardFrom before blocks).map (Item.summary freq ssid) := by
  induction blocks generalizing st before with
  | nil => exact ⟨st, rfl, by simp [heardFrom]⟩
  | cons b rest ih =>
    rw [List.flatMap_cons]
    rcases scanLines_block hview b (rest.flatMap Block.lines) with
      ⟨hne, hnone, -⟩ | ⟨st₁, -, hlines, hview₁, hdata⟩
    · obtain ⟨e, he⟩ := List.exists_mem_of_ne_nil _ hne
      have hitem : (⟨before ++ [b], b, e⟩ : Item p size) ∈ heardFrom before (b :: rest) :=
        List.mem_append_left _ (List.mem_map.mpr ⟨e, he, rfl⟩)
      exact absurd hnone (hbound _ hitem)
    · obtain ⟨st', hscan, hdata'⟩ := ih hview₁
        (fun item h => hbound item (List.mem_append_right _ h))
      refine ⟨st', by rw [hlines, hscan], ?_⟩
      rw [hdata', hdata, heardFrom, List.map_append, List.append_assoc]

/-- An element before the first level ends the loop. -/
theorem scanLines_unbound (hview : view st = inEffect freq ssid before)
    (blocks : List (Block p size)) {item : Item p size} (hitem : item ∈ heardFrom before blocks)
    (hnone : (item.effect freq ssid).level = none) :
    scanLines st (blocks.flatMap Block.lines) = .error .nameError := by
  induction blocks generalizing st before with
  | nil => cases hitem
  | cons b rest ih =>
    rw [List.flatMap_cons]
    rcases scanLines_block hview b (rest.flatMap Block.lines) with
      ⟨-, -, herror⟩ | ⟨st₁, hbound, hlines, hview₁, -⟩
    · exact herror
    · rw [hlines]
      rcases List.mem_append.mp hitem with hitem | hitem
      · obtain ⟨hupTo, hne⟩ := mem_items hitem
        rw [Item.effect, hupTo] at hnone
        exact absurd hnone (hbound hne)
      · exact ih hview₁ hitem

end Loops

section Entries

variable {p : Platform} {size : ℕ} {now : ℤ} {pubKeyStr SymKeyStr SymIVStr : Text}

/-- `int` reads the frequency and the level in effect. -/
def Effect.Readable (x : Effect) : Prop := x.freq.isSome = true ∧ x.level.join.isSome = true

instance (x : Effect) : Decidable x.Readable := inferInstanceAs (Decidable (_ ∧ _))

/-- The entry for an element with what is in effect. -/
def Effect.entry (x : Effect) (now : ℤ) (e : Element p size) : Neighbor :=
  e.entry now (x.freq.getD 0) (x.level.join.getD 0) x.ssid

theorem Effect.Readable.eq_some {x : Effect} (h : x.Readable) :
    x.freq = some (x.freq.getD 0) ∧ x.level = some (some (x.level.join.getD 0)) := by
  obtain ⟨hfreq, hlevel⟩ := h
  obtain ⟨freq, hfreq⟩ := Option.isSome_iff_exists.mp hfreq
  obtain ⟨rssi, hlevel⟩ := Option.isSome_iff_exists.mp hlevel
  rw [hlevel, hfreq]
  exact ⟨rfl, Option.join_eq_some_iff.mp hlevel⟩

/-- An entry shows what was in effect. -/
theorem entry_inj {x y : Effect} (hx : x.Readable) (hy : y.Readable) {e : Element p size}
    (h : x.entry now e = y.entry now e) : x = y := by
  have hfreq : x.freq.getD 0 = y.freq.getD 0 := congrArg Neighbor.freq h
  have hlevel : x.level.join.getD 0 = y.level.join.getD 0 := congrArg Neighbor.rssiProbeResponse h
  have hssid : x.ssid = y.ssid := String.ofList_injective (congrArg Neighbor.ssid h)
  obtain ⟨hxfreq, hxlevel⟩ := hx.eq_some
  obtain ⟨hyfreq, hylevel⟩ := hy.eq_some
  have hfreqs : x.freq = y.freq := by rw [hxfreq, hyfreq, hfreq]
  have hlevels : x.level = y.level := by rw [hxlevel, hylevel, hlevel]
  calc x = ⟨x.freq, x.ssid, x.level⟩ := rfl
    _ = ⟨y.freq, y.ssid, y.level⟩ := by rw [hfreqs, hssid, hlevels]
    _ = y := rfl

theorem length_payload (e : Element p size) : ¬ (lineData e.payload).length ≤ 10 := by
  have hne : e.payload ≠ [] := by
    simp [Element.payload, e.host_ne]
  rw [length_lineData hne, Element.payload]
  simp only [List.length_append]
  have := e.key_length
  omega

theorem readEntry_readable (hSymKey : SymKeyStr.length = 32) (hSymIV : SymIVStr.length = 32)
    (hpubKey : pubKeyStr.length = 2 * size) {entry : ScanEntry} {x : Effect} {e : Element p size}
    (h : summary entry = x.summary e) (hx : x.Readable) :
    readEntry p now pubKeyStr SymKeyStr SymIVStr entry = .ok (some (x.entry now e)) := by
  obtain ⟨number, ssid, level, data⟩ := entry
  simp only [summary, Effect.summary, Prod.mk.injEq] at h
  obtain ⟨hfreq, rfl, hlevel, rfl⟩ := h
  obtain ⟨hfreqSome, hlevelSome⟩ := hx
  obtain ⟨freq, hfreq'⟩ := Option.isSome_iff_exists.mp hfreqSome
  obtain ⟨rssi, hlevel'⟩ := Option.isSome_iff_exists.mp hlevelSome
  rw [hfreq'] at hfreq
  rw [hlevel'] at hlevel
  rw [Effect.entry, hfreq', hlevel']
  exact readEntry_lineData e.key_length e.iv_length e.host_ne e.pubKey_read hSymKey hSymIV
    (by rw [hpubKey, e.pubKey_length]) hfreq hlevel

theorem readEntry_unreadable {entry : ScanEntry} {x : Effect} {e : Element p size}
    (h : summary entry = x.summary e) (hx : ¬ x.Readable) :
    readEntry p now pubKeyStr SymKeyStr SymIVStr entry = .error .valueError := by
  obtain ⟨number, ssid, level, data⟩ := entry
  simp only [summary, Effect.summary, Prod.mk.injEq] at h
  obtain ⟨hfreq, rfl, hlevel, rfl⟩ := h
  rw [readEntry, if_neg (length_payload e)]
  dsimp only
  split
  · rename_i rssi freq hrssi hnumber
    refine absurd ⟨?_, ?_⟩ hx
    · rw [← hfreq, hnumber]
      rfl
    · rw [← hlevel, hrssi]
      rfl
  · rfl

/-- The dictionary in which every element writes its entry under its address. -/
def dictionary (entryOf : Item p size → Neighbor) (items : List (Item p size)) : NeighborList :=
  items.foldl (fun list item => list.insert item.element.name (entryOf item)) ∅

/-- The last element with an address. -/
def lastHeard (name : String) (items : List (Item p size)) : Option (Item p size) :=
  lastWrite (fun name item => if item.element.name = name then some item else none) name items

theorem mem_of_lastHeard {name : String} {items : List (Item p size)} {item : Item p size}
    (h : lastHeard name items = some item) : item ∈ items ∧ item.element.name = name := by
  obtain ⟨other, hmem, hwrite⟩ := List.mem_filterMap.mp (List.mem_of_getLast? h)
  dsimp only at hwrite
  split at hwrite
  · rename_i hname
    obtain rfl := Option.some.inj hwrite
    exact ⟨hmem, hname⟩
  · cases hwrite

/-- An address shows the entry of its last element. -/
theorem lookup_dictionary (entryOf : Item p size → Neighbor) (items : List (Item p size))
    (name : String) :
    (dictionary entryOf items).lookup name = (lastHeard name items).map entryOf := by
  have hrun := (view_run (I := fun _ => True)
    (fun (list : NeighborList) item => list.insert item.element.name (entryOf item))
    (fun list name => list.lookup name)
    (fun name item => (if item.element.name = name then some item else none).map
      (fun item => some (entryOf item))) (fun _ _ _ => trivial) (by
        intro list item name _
        by_cases hname : item.element.name = name
        · rw [if_pos hname, ← hname, AList.lookup_insert]
          rfl
        · rw [if_neg hname, AList.lookup_insert_ne (Ne.symm hname)]
          rfl) (s := ∅) trivial items).2 name
  rw [LastWrites.lastWrite_map, AList.lookup_empty] at hrun
  rw [dictionary, hrun, lastHeard]
  cases lastWrite (fun name item => if item.element.name = name then some item else none) name items
    with
  | none => rfl
  | some item => rfl

/-- The second loop, where `int` reads what was in effect at every element. -/
theorem readEntries_readable (hSymKey : SymKeyStr.length = 32) (hSymIV : SymIVStr.length = 32)
    (hpubKey : pubKeyStr.length = 2 * size) (effect : Item p size → Effect)
    {items : List (Item p size)} {entries : List ScanEntry}
    (h : entries.map summary = items.map (fun item => (effect item).summary item.element))
    (hread : ∀ item ∈ items, (effect item).Readable) (list : NeighborList) :
    readEntries p now pubKeyStr SymKeyStr SymIVStr list entries =
      .ok (items.foldl (fun list item =>
        list.insert item.element.name ((effect item).entry now item.element)) list) := by
  induction items generalizing entries list with
  | nil =>
    rw [List.map_nil, List.map_eq_nil_iff] at h
    rw [h]
    rfl
  | cons item rest ih =>
    obtain ⟨entry, entries, rfl, hentry, hentries⟩ := List.map_eq_cons_iff.mp h
    have hread₁ : readEntry p now pubKeyStr SymKeyStr SymIVStr entry =
        .ok (some ((effect item).entry now item.element)) :=
      readEntry_readable hSymKey hSymIV hpubKey hentry (hread item (by simp))
    have hname : ((effect item).entry now item.element).ipAddress ≠ "Error" := item.element.named
    rw [readEntries, hread₁]
    simp only [if_neg hname]
    exact ih hentries (fun i hi => hread i (by simp [hi])) _

/-- It ends at an element where `int` does not. -/
theorem readEntries_unreadable (hSymKey : SymKeyStr.length = 32) (hSymIV : SymIVStr.length = 32)
    (hpubKey : pubKeyStr.length = 2 * size) (effect : Item p size → Effect)
    {items : List (Item p size)} {entries : List ScanEntry}
    (h : entries.map summary = items.map (fun item => (effect item).summary item.element))
    {item : Item p size} (hitem : item ∈ items) (hread : ¬ (effect item).Readable)
    (list : NeighborList) :
    readEntries p now pubKeyStr SymKeyStr SymIVStr list entries = .error .valueError := by
  induction items generalizing entries list with
  | nil => cases hitem
  | cons other rest ih =>
    obtain ⟨entry, entries, rfl, hentry, hentries⟩ := List.map_eq_cons_iff.mp h
    rw [readEntries]
    by_cases hother : (effect other).Readable
    · rw [readEntry_readable hSymKey hSymIV hpubKey hentry hother]
      rcases List.mem_cons.mp hitem with rfl | hitem
      · exact absurd hother hread
      · exact ih hentries hitem _
    · rw [readEntry_unreadable hentry hother]

end Entries

section Output

variable {p : Platform} {size : ℕ}

instance : DecidablePred Quiet := fun _ => inferInstanceAs (Decidable (_ ∧ _))

/-- The other lines of the output do nothing. -/
theorem scanLines_filter (st : ScanState) (lines : List Text) :
    scanLines st (lines.filter (fun line => ¬ Quiet line)) = scanLines st lines := by
  induction lines generalizing st with
  | nil => rfl
  | cons line rest ih =>
    by_cases hquiet : Quiet line
    · rw [List.filter_cons_of_neg (by simpa using hquiet), scanLines, scanLine_quiet hquiet]
      exact ih st
    · rw [List.filter_cons_of_pos (by simpa using hquiet), scanLines, scanLines]
      cases scanLine st line with
      | error e => rfl
      | ok st' => exact ih st'

/-- A line of one of the four kinds is no other line. -/
theorem not_quiet {word : Text} (h : word ∈ ["freq: ".toList, "signal: ".toList, "SSID: ".toList,
    vendorText]) (rest : Text) : ¬ Quiet ("\t".toList ++ word ++ rest) := by
  intro hquiet
  have hfound : contains word ("\t".toList ++ word ++ rest) = true :=
    contains_iff.mpr ⟨"\t".toList, rest, rfl⟩
  obtain ⟨hfreq, hsignal, hssid, hvendor⟩ := hquiet
  simp only [List.mem_cons, List.not_mem_nil, or_false] at h
  rcases h with rfl | rfl | rfl | rfl
  · rw [hfreq] at hfound
    cases hfound
  · rw [hsignal] at hfound
    cases hfound
  · rw [hssid] at hfound
    cases hfound
  · rw [hvendor] at hfound
    cases hfound

/-- The lines of a block are no other lines. -/
theorem block_not_quiet (b : Block p size) {line : Text} (h : line ∈ b.lines) : ¬ Quiet line := by
  simp only [Block.lines, Block.head, List.mem_append, List.mem_map] at h
  rcases h with (⟨freq, -, rfl⟩ | ⟨s, -, rfl⟩ | ⟨data, -, rfl⟩) | ⟨e, -, rfl⟩
  · exact not_quiet (by simp) (showInt freq)
  · exact not_quiet (by simp) s.text
  · exact not_quiet (by simp) (print_ssid data)
  · exact not_quiet (by simp) _

/-- Each of them is printed on one line. -/
theorem block_line_free (b : Block p size) {line : Text} (h : line ∈ b.lines) {c : Char}
    (hc : c ∈ "\n\r".toList) : c ∉ line := by
  have hletters : ∀ c ∈ "\n\r".toList, c ≠ '-' ∧ c.isDigit = false ∧ c ≠ '\t' ∧ c ≠ ' ' ∧
      (∀ n < 16, lowerHex n ≠ c) ∧ c ∉ "\tfreq: ".toList ∧ c ∉ "\tsignal: ".toList ∧
      c ∉ "\tSSID: ".toList ∧ c ∉ "\t".toList ++ vendorText :=
    forall_of_all (by decide)
  obtain ⟨hminus, hdigit, htab, hblank, hhex, hfreq, hsignal, hssid, hvendor⟩ := hletters c hc
  simp only [Block.lines, Block.head, List.mem_append, List.mem_map] at h
  rcases h with (⟨freq, -, rfl⟩ | ⟨s, -, rfl⟩ | ⟨data, -, rfl⟩) | ⟨e, -, rfl⟩
  · rw [freqLine, List.mem_append, not_or]
    exact ⟨hfreq, not_mem_showInt hminus hdigit freq⟩
  · rw [levelLine, List.mem_append, not_or]
    exact ⟨hsignal, text_free (List.mem_append_right "qgSV".toList hc) s⟩
  · rw [ssidLine, List.mem_append, not_or]
    exact ⟨hssid, print_ssid_free (List.mem_append_right "\t".toList hc) data⟩
  · rw [vendorLine, List.mem_append, not_or]
    exact ⟨hvendor, fun h => not_mem_lineData htab hblank hhex e.payload (List.mem_cons_of_mem _ h)⟩

/-- What iw prints for the blocks. -/
def output (blocks : List (Block p size)) : Text :=
  (blocks.flatMap Block.lines).flatMap (fun line => line ++ ['\n'])

theorem output_lines (blocks : List (Block p size)) :
    (splitlines (output blocks)).filter (fun line => ¬ Quiet line) =
      blocks.flatMap Block.lines := by
  have hfree : ∀ line ∈ blocks.flatMap Block.lines, '\n' ∉ line ∧ '\r' ∉ line := by
    intro line hline
    obtain ⟨b, -, hb⟩ := List.mem_flatMap.mp hline
    exact ⟨block_line_free b hb (by decide), block_line_free b hb (by decide)⟩
  rw [output, splitlines_printed hfree, List.filter_eq_self]
  intro line hline
  obtain ⟨b, -, hb⟩ := List.mem_flatMap.mp hline
  exact decide_eq_true (block_not_quiet b hb)

end Output

section Attribution

variable {p : Platform} {size : ℕ} {now : ℤ} {pubKeyStr SymKeyStr SymIVStr : Text}
  {run : Text → Text} {wireless ssid IpStr command : Text} {fullScan : Bool} {freq ownFreq : ℤ}
  {blocks : List (Block p size)}

/-- The arguments are in effect before the first block. -/
theorem view_start {freq : ℤ} {ssid : Text} :
    view { freq := .inr freq, ssid := ssid } = inEffect freq ssid ([] : List (Block p size)) := rfl

/-- A scan returns the dictionary of what was in effect, where it is readable at every
element. -/
theorem performActiveScan_readable (hSymKey : SymKeyStr.length = 32) (hSymIV : SymIVStr.length = 32)
    (hpubKey : pubKeyStr.length = 2 * size)
    (hcommand : scanCommand wireless fullScan ssid freq pubKeyStr SymKeyStr SymIVStr IpStr ownFreq =
      .ok command)
    (hlines : (splitlines (run command)).filter (fun line => ¬ Quiet line) =
      blocks.flatMap Block.lines)
    (hread : ∀ item ∈ heard blocks, (item.effect freq ssid).Readable) :
    performActiveScan p now run wireless fullScan ssid freq pubKeyStr SymKeyStr SymIVStr IpStr
      ownFreq = .ok (dictionary (fun item => (item.effect freq ssid).entry now item.element)
        (heard blocks)) := by
  have hbound : ∀ item ∈ heard blocks, (item.effect freq ssid).level ≠ none := by
    intro item hitem hnone
    have hlevel := (hread item hitem).2
    rw [hnone] at hlevel
    cases hlevel
  obtain ⟨st', hscan, hdata⟩ := scanLines_blocks view_start blocks hbound
  rw [← hlines, scanLines_filter] at hscan
  simp only [performActiveScan, hcommand, hscan, bind, Except.bind]
  exact readEntries_readable hSymKey hSymIV hpubKey (Item.effect freq ssid) hdata hread ∅

/-- A scan fails where it is not. -/
theorem performActiveScan_unreadable (hSymKey : SymKeyStr.length = 32)
    (hSymIV : SymIVStr.length = 32) (hpubKey : pubKeyStr.length = 2 * size)
    (hcommand : scanCommand wireless fullScan ssid freq pubKeyStr SymKeyStr SymIVStr IpStr ownFreq =
      .ok command)
    (hlines : (splitlines (run command)).filter (fun line => ¬ Quiet line) =
      blocks.flatMap Block.lines)
    {item : Item p size} (hitem : item ∈ heard blocks)
    (hread : ¬ (item.effect freq ssid).Readable) :
    ∃ err, performActiveScan p now run wireless fullScan ssid freq pubKeyStr SymKeyStr SymIVStr
      IpStr ownFreq = .error err := by
  by_cases hbound : ∀ item ∈ heard blocks, (item.effect freq ssid).level ≠ none
  · obtain ⟨st', hscan, hdata⟩ := scanLines_blocks view_start blocks hbound
    rw [← hlines, scanLines_filter] at hscan
    simp only [performActiveScan, hcommand, hscan, bind, Except.bind]
    exact ⟨_, readEntries_unreadable hSymKey hSymIV hpubKey (Item.effect freq ssid) hdata hitem
      hread ∅⟩
  · simp only [not_forall, not_not] at hbound
    obtain ⟨other, hother, hnone⟩ := hbound
    have hscan := scanLines_unbound view_start blocks hother hnone
    rw [← hlines, scanLines_filter] at hscan
    simp only [performActiveScan, hcommand, hscan, bind, Except.bind]
    exact ⟨_, rfl⟩

/-- What an entry has where the block of its element does not say it; a new entry has
nothing. -/
structure Defaults where
  freq : ℤ := 0
  rssi : ℤ := 0
  ssid : Text := []

/-- What the block itself says. -/
def Block.own (b : Block p size) (d : Defaults) : Effect where
  freq := some (b.freq.getD d.freq)
  ssid := (b.ssid.map print_ssid).getD d.ssid
  level := some (some ((b.signal.map Signal.steps).getD d.rssi))

/-- The entry for an element with the frequency, the level and the name of its own block. -/
def Item.ownEntry (d : Defaults) (now : ℤ) (item : Item p size) : Neighbor :=
  item.element.entry now (item.block.freq.getD d.freq)
    ((item.block.signal.map Signal.steps).getD d.rssi)
    ((item.block.ssid.map print_ssid).getD d.ssid)

/-- A block with all its lines, a whole level and a plain name says itself what is in
effect, whatever was in effect before. -/
theorem change_complete {b : Block p size} {freq rssi : ℤ} {s : Signal} {data : Bytes}
    (hfreq : b.freq = some freq) (hsignal : b.signal = some s) (hwhole : s.whole = some rssi)
    (hssid : b.ssid = some data) (hplain : PlainSsid (print_ssid data)) (x : Effect)
    (d : Defaults) : b.change x = b.own d := by
  have hspells : ∀ text, ¬ text <:+: print_ssid data → ¬ b.spells text = true := by
    intro text hnot
    rw [Block.spells, hssid, Option.any_some, contains_iff]
    exact hnot
  have hname : b.ssidSaid = some (print_ssid data) := by
    rw [Block.ssidSaid, hssid, Option.map_some, replace_of_cut_none (cut_none_iff.mpr hplain.ssid)]
  have hfreqs : b.freqSaid = some (some freq) := by
    rw [Block.freqSaid, if_neg (hspells _ hplain.freq), hfreq, Option.map_some]
  have hlevel : b.levelSaid = some (some s.steps) := by
    rw [Block.levelSaid, if_neg (hspells _ hplain.signal), hsignal, Option.map_some, hwhole,
      steps_of_whole hwhole]
  rw [Block.change, Block.own, hfreqs, hlevel, hname, hfreq, hsignal, hssid]
  rfl

/-- A scan returns for every address the entry of its last element, with the frequency, the
level and the name of that block and no other. It does so if and only if at every
element a level has been printed, the last frequency and the last level are numbers
that no later name has spoilt, and at the last element of an address what was
printed last is what its own block says. -/
theorem scan_attribution_iff (hSymKey : SymKeyStr.length = 32) (hSymIV : SymIVStr.length = 32)
    (hpubKey : pubKeyStr.length = 2 * size)
    (hcommand : scanCommand wireless fullScan ssid freq pubKeyStr SymKeyStr SymIVStr IpStr ownFreq =
      .ok command)
    (hlines : (splitlines (run command)).filter (fun line => ¬ Quiet line) =
      blocks.flatMap Block.lines) (d : Defaults) :
    (∃ list, performActiveScan p now run wireless fullScan ssid freq pubKeyStr SymKeyStr SymIVStr
        IpStr ownFreq = .ok list ∧
      ∀ name, list.lookup name = (dictionary (Item.ownEntry d now) (heard blocks)).lookup name) ↔
    ∀ item ∈ heard blocks, (item.effect freq ssid).Readable ∧
      (lastHeard item.element.name (heard blocks) = some item →
        item.effect freq ssid = item.block.own d) := by
  constructor
  · rintro ⟨list, hscan, hlookup⟩ item hitem
    have hread : ∀ item ∈ heard blocks, (item.effect freq ssid).Readable := by
      intro item hitem
      by_contra hnot
      have hfails : ∃ err, performActiveScan p now run wireless fullScan ssid freq pubKeyStr
          SymKeyStr SymIVStr IpStr ownFreq = .error err :=
        performActiveScan_unreadable hSymKey hSymIV hpubKey hcommand hlines hitem hnot
      obtain ⟨err, herror⟩ := hfails
      rw [herror] at hscan
      cases hscan
    refine ⟨hread item hitem, ?_⟩
    intro hlast
    rw [performActiveScan_readable hSymKey hSymIV hpubKey hcommand hlines hread] at hscan
    obtain rfl := Except.ok.inj hscan
    have hentry := hlookup item.element.name
    rw [lookup_dictionary, lookup_dictionary, hlast] at hentry
    exact entry_inj (hread item hitem) ⟨rfl, rfl⟩ (Option.some.inj hentry)
  · intro h
    refine ⟨_, performActiveScan_readable hSymKey hSymIV hpubKey hcommand hlines
      (fun item hitem => (h item hitem).1), ?_⟩
    intro name
    rw [lookup_dictionary, lookup_dictionary]
    cases hlast : lastHeard name (heard blocks) with
    | none => rfl
    | some item =>
      obtain ⟨hitem, rfl⟩ := mem_of_lastHeard hlast
      have hown := (h item hitem).2 hlast
      rw [Option.map_some, Option.map_some, hown]
      rfl

def sampleElement : Element listPlatform 162 where
  key := List.replicate 16 1
  iv := List.replicate 16 2
  pubKey := ⟨162, 65537⟩
  host := Messaging.asciiBytes "10.0.0.1".toList
  key_length := List.length_replicate
  iv_length := List.length_replicate
  pubKey_length := by decide +kernel
  pubKey_read := by decide +kernel
  host_ne := by decide
  named := by decide +kernel

/-- A station that is no agent. -/
def homeBlock : Block listPlatform 162 :=
  ⟨some 2412, some (.mbm (-4000)), some (Messaging.asciiBytes "home".toList), []⟩

/-- An agent with all its lines. -/
def officeBlock : Block listPlatform 162 :=
  ⟨some 2412, some (.mbm (-6000)), some (Messaging.asciiBytes "office".toList), [sampleElement]⟩

/-- The same agent without a name. -/
def hiddenBlock : Block listPlatform 162 := ⟨some 2412, some (.mbm (-6000)), none, [sampleElement]⟩

/-- The same agent at half a dBm less. -/
def fractionBlock : Block listPlatform 162 :=
  ⟨some 2412, some (.mbm (-6050)), some (Messaging.asciiBytes "office".toList), [sampleElement]⟩

/-- A shell that prints the blocks, and a scan on one frequency in it. -/
def sampleRun (blocks : List (Block listPlatform 162)) (_ : Text) : Text := output blocks

def sampleScan (blocks : List (Block listPlatform 162)) : Except PyError NeighborList :=
  performActiveScan listPlatform 0 (sampleRun blocks) "wlan0".toList false [] 2412
    (List.replicate 324 '0') (List.replicate 32 '0') (List.replicate 32 '0') [] 0

theorem sampleCommand : scanCommand "wlan0".toList false [] 2412 (List.replicate 324 '0')
    (List.replicate 32 '0') (List.replicate 32 '0') [] 0 =
      .ok "sudo ../iw-4.3/iw dev wlan0 scan -u freq 2412 ap-force".toList := by
  decide +kernel

theorem sampleRun_lines (blocks : List (Block listPlatform 162)) (command : Text) :
    (splitlines (sampleRun blocks command)).filter (fun line => ¬ Quiet line) =
      blocks.flatMap Block.lines :=
  output_lines blocks

theorem scan_attribution_office :
    ∃ list, sampleScan [homeBlock, officeBlock] = .ok list ∧
      ∀ name, list.lookup name =
        (dictionary (Item.ownEntry {} 0) (heard [homeBlock, officeBlock])).lookup name := by
  have hheard : heard [homeBlock, officeBlock] =
      [⟨[homeBlock, officeBlock], officeBlock, sampleElement⟩] := rfl
  have hpubKey : (List.replicate 324 '0').length = 2 * 162 := List.length_replicate
  refine (scan_attribution_iff List.length_replicate List.length_replicate hpubKey sampleCommand
    (sampleRun_lines _ _) {}).mpr ?_
  intro item hitem
  rw [hheard] at hitem
  obtain rfl := List.mem_singleton.mp hitem
  have hplain : PlainSsid (print_ssid (Messaging.asciiBytes "office".toList)) := by
    refine ⟨?_, ?_, ?_, ?_, ?_, ?_⟩ <;> decide
  have heffect : inEffect 2412 [] [homeBlock, officeBlock] = officeBlock.own {} := by
    rw [← List.singleton_append, inEffect_append]
    exact change_complete rfl rfl rfl rfl hplain _ {}
  refine ⟨?_, fun _ => heffect⟩
  rw [Item.effect, heffect]
  exact ⟨rfl, rfl⟩

/-- A station without a name gets the name of the station before it, and half a dBm ends the
scan. -/
theorem hidden_station_named :
    (∃ list, sampleScan [homeBlock, hiddenBlock] = .ok list ∧
      (list.lookup "10.0.0.1").map Neighbor.ssid = some "home") ∧
    (¬ ∃ list, sampleScan [homeBlock, hiddenBlock] = .ok list ∧
      ∀ name, list.lookup name =
        (dictionary (Item.ownEntry {} 0) (heard [homeBlock, hiddenBlock])).lookup name) ∧
    ∃ err, sampleScan [fractionBlock] = .error err := by
  have heffect : inEffect 2412 [] [homeBlock, hiddenBlock] =
      ⟨some 2412, "home".toList, some (some (-60))⟩ := by
    decide +kernel
  have hheard : heard [homeBlock, hiddenBlock] =
      [⟨[homeBlock, hiddenBlock], hiddenBlock, sampleElement⟩] := rfl
  have hread : ∀ item ∈ heard [homeBlock, hiddenBlock], (item.effect 2412 []).Readable := by
    intro item hitem
    rw [hheard] at hitem
    obtain rfl := List.mem_singleton.mp hitem
    rw [Item.effect, heffect]
    exact ⟨rfl, rfl⟩
  have hscan : sampleScan [homeBlock, hiddenBlock] = .ok (dictionary (fun item =>
      (item.effect 2412 []).entry 0 item.element) (heard [homeBlock, hiddenBlock])) :=
    performActiveScan_readable List.length_replicate List.length_replicate List.length_replicate
      sampleCommand (sampleRun_lines _ _) hread
  have hname : sampleElement.name = "10.0.0.1" := by
    decide +kernel
  have hlast : lastHeard "10.0.0.1" (heard [homeBlock, hiddenBlock]) =
      some ⟨[homeBlock, hiddenBlock], hiddenBlock, sampleElement⟩ := by
    rw [hheard, lastHeard, lastWrite, List.filterMap_cons]
    simp [hname]
  have hentry : (dictionary (fun item : Item listPlatform 162 =>
      (item.effect 2412 []).entry 0 item.element)
        (heard [homeBlock, hiddenBlock])).lookup "10.0.0.1" =
          some (sampleElement.entry 0 2412 (-60) "home".toList) := by
    rw [lookup_dictionary, hlast, Option.map_some, Item.effect, heffect]
    rfl
  refine ⟨⟨_, hscan, by rw [hentry]; rfl⟩, ?_, ?_⟩
  · rintro ⟨list, hlist, hlookup⟩
    rw [hscan] at hlist
    obtain rfl := Except.ok.inj hlist
    have hown := hlookup "10.0.0.1"
    rw [hentry, lookup_dictionary, hlast] at hown
    have hssid := congrArg Neighbor.ssid (Option.some.inj hown)
    revert hssid
    decide
  · have hitem : ⟨[fractionBlock], fractionBlock, sampleElement⟩ ∈ heard [fractionBlock] :=
      List.mem_singleton.mpr rfl
    refine performActiveScan_unreadable List.length_replicate List.length_replicate
      List.length_replicate sampleCommand (sampleRun_lines _ _) hitem ?_
    decide +kernel

end Attribution

end Nxwlan.ScanBlocks
