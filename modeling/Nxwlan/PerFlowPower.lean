import Mathlib.Data.List.TakeWhile
import Nxwlan.KernelInts
import Nxwlan.LastWrites
import Nxwlan.TextSearch

/-!
The table of transmit powers per flow of the patched ath9k driver. A write of
`mark power rate` to its debugfs file adds or changes the entry of a positive mark,
takes away the entry of a negative one, and empties the table for the mark 0.
`ath_overwrite_rate_txpower` looks a frame up by its mark, where probe responses have
marks of their own.
-/
namespace Nxwlan.PerFlowPower

open PyText KernelInts LastWrites

/-- `ath_per_flow_txpower`. -/
structure Entry where
  mark : BitVec 32
  power : BitVec 8
  rate : BitVec 32
  deriving DecidableEq

/-- What stands in the local variables of a write before anything is read into them. -/
structure Stack where
  mark : BitVec 32
  power : BitVec 32
  rate : BitVec 32

/-- `valbuf` after the loop over the characters of `buf`: three fields, of which the last
may be missing. `none` where the loop writes behind the third one. -/
def valbuf (buf : Text) : Option (Text × Text × Text) :=
  match split [' '] 3 buf with
  | [mark] => some (mark, [], [])
  | [mark, power] => some (mark, power, [])
  | [mark, power, rate] => some (mark, power, rate)
  | [mark, power, rate, []] => some (mark, power, rate)
  | _ => none

/-- A field up to its end. -/
def cString (field : Text) : Text := field.takeWhile (· ≠ '\x00')

/-- The first entry with the mark gets new values; `none` for `newEntry`. -/
def updateEntry (mark power rate : BitVec 32) : List Entry → Option (List Entry)
  | [] => none
  | tmp :: list =>
      if tmp.mark = mark then some ({ tmp with power := power.setWidth 8, rate } :: list)
      else (updateEntry mark power rate list).map (fun list => tmp :: list)

/-- What the three numbers of a write do to the list. -/
def update (list : List Entry) (mark power rate : BitVec 32) : List Entry :=
  if mark = 0 then []
  else if mark.toInt < 0 then
    let mark := -mark
    list.filter (fun tmp => tmp.mark ≠ mark)
  else
    (updateEntry mark power rate list).getD ({ mark, power := power.setWidth 8, rate } :: list)

/-- A field that cannot be read leaves its variable as it was. -/
def write_file_per_flow_tx_power (stack : Stack) (list : List Entry) (user_buf : Text) :
    Option (List Entry) :=
  (valbuf (user_buf.take 31)).map (fun fields =>
    let mark := (kstrtoint (cString fields.1)).getD stack.mark
    let power := (kstrtouint (cString fields.2.1)).getD stack.power
    let rate := (kstrtouint (cString fields.2.2)).getD stack.rate
    update list mark power rate)

/-- What the driver reads of a frame: whether it is a probe response, whether it was
injected, and `skb->mark`. -/
structure Frame where
  probe_resp : Bool
  injected : Bool
  mark : BitVec 32

structure Softc where
  tx99_state : Bool
  tpc_enabled : Bool
  per_flow_txpower : List Entry

def MAX_RATE_POWER : BitVec 8 := 63

def frameMark (frame : Frame) : BitVec 32 :=
  if frame.probe_resp then (if frame.injected then 10001 else 10002) else frame.mark

/-- `ath_overwrite_rate_txpower`; the rate itself is not looked at. -/
def ath_overwrite_rate_txpower (sc : Softc) (frame : Frame) (oldPower : BitVec 8) : BitVec 8 :=
  if sc.tx99_state || !sc.tpc_enabled then MAX_RATE_POWER
  else
    match sc.per_flow_txpower.find? (fun tmp => tmp.mark = frameMark frame) with
    | some tmp => tmp.power
    | none => oldPower

/-- A well-formed write: three numerals in decimal digits, of at most 31 characters with the
blanks between them, and perhaps a line end. -/
structure Write where
  mark : ℤ
  power : ℕ
  rate : ℕ
  markText : Text
  powerText : Text
  rateText : Text
  newline : Bool
  mark_low : -2 ^ 31 < mark
  mark_high : mark < 2 ^ 31
  mark_digits : SignedDigits markText mark
  power_digits : Digits powerText power
  rate_digits : Digits rateText rate
  short : markText.length + powerText.length + rateText.length + 2 ≤ 31

def Write.text (w : Write) : Text :=
  w.markText ++ ' ' :: (w.powerText ++ ' ' :: (w.rateText ++ if w.newline then ['\n'] else []))

/-- A write that the kernel reads as it is meant: the mark is not taken for an octal number, and
for a positive mark the power is neither octal nor too large. -/
structure Write.Fits (w : Write) : Prop where
  mark : NotOctal (unsigned w.markText)
  power : 0 < w.mark → NotOctal w.powerText
  bound : 0 < w.mark → w.power < 2 ^ 32

/-- What a write says about the frames with the mark `k`: that they have a power, or that
they have none any more. -/
def effect (k : BitVec 32) (w : Write) : Option (Option ℕ) :=
  if w.mark = 0 then some none
  else if w.mark < 0 then (if -w.mark = k.toNat then some none else none)
  else if w.mark = k.toNat then some (some w.power)
  else none

def marks (list : List Entry) : List (BitVec 32) := list.map (·.mark)

def powerAt (list : List Entry) (k : BitVec 32) : Option (BitVec 8) :=
  (list.find? (fun tmp => tmp.mark = k)).map (·.power)

/-- No mark has two entries, and the mark 0 has none. -/
structure Sound (list : List Entry) : Prop where
  nodup : (marks list).Nodup
  nonzero : 0 ∉ marks list

variable {list : List Entry} {mark power rate k : BitVec 32}

theorem updateEntry_cases (mark power rate : BitVec 32) (list : List Entry) :
    (mark ∉ marks list ∧ updateEntry mark power rate list = none) ∨
      ∃ list', updateEntry mark power rate list = some list' ∧ marks list' = marks list ∧
        ∀ k, powerAt list' k = if k = mark then some (power.setWidth 8) else powerAt list k := by
  induction list with
  | nil => exact Or.inl ⟨List.not_mem_nil, rfl⟩
  | cons tmp list ih =>
    by_cases htmp : tmp.mark = mark
    · refine Or.inr ⟨{ tmp with power := power.setWidth 8, rate } :: list, if_pos htmp, rfl, ?_⟩
      intro k
      by_cases hk : k = mark
      · simp [powerAt, htmp, hk]
      · simp [powerAt, htmp, hk, Ne.symm hk]
    · rcases ih with ⟨hnot, hnone⟩ | ⟨list', hsome, hmarks, hpower⟩
      · refine Or.inl ⟨?_, by rw [updateEntry, if_neg htmp, hnone]; rfl⟩
        intro hmem
        rcases List.mem_cons.mp hmem with heq | hmem
        · exact htmp heq.symm
        · exact hnot hmem
      · refine Or.inr ⟨_, by rw [updateEntry, if_neg htmp, hsome]; rfl, ?_, ?_⟩
        · rw [marks, List.map_cons, marks, List.map_cons]
          exact congrArg (tmp.mark :: ·) hmarks
        · intro k
          by_cases hk : tmp.mark = k
          · have hne : k ≠ mark := fun heq => htmp (hk.trans heq)
            simp [powerAt, hk, hne]
          · have hrest := hpower k
            unfold powerAt at hrest
            simpa [powerAt, hk] using hrest

theorem powerAt_filter (mark k : BitVec 32) (list : List Entry) :
    powerAt (list.filter (fun tmp => tmp.mark ≠ mark)) k =
      if k = mark then none else powerAt list k := by
  rw [powerAt, List.find?_filter]
  by_cases hk : k = mark
  · rw [if_pos hk, Option.map_eq_none_iff, List.find?_eq_none]
    intro tmp _ hboth
    simp only [ne_eq, decide_not, decide_eq_true_eq, Bool.not_eq_true',
      decide_eq_false_iff_not] at hboth
    exact hboth.1 (hboth.2.trans hk)
  · rw [if_neg hk, powerAt]
    congr 2
    funext tmp
    by_cases htmp : tmp.mark = k
    · simp [htmp, hk]
    · simp [htmp]

theorem ofInt_eq_iff {i : ℤ} (hlow : 0 ≤ i) (hhigh : i < 2 ^ 32) :
    BitVec.ofInt 32 i = k ↔ i = k.toNat := by
  have hk := k.isLt
  constructor
  · rintro rfl
    rw [BitVec.toNat_ofInt]
    omega
  · rintro rfl
    simp

/-- What a write that fits does to the list; the rate may have been read or not. -/
def apply (list : List Entry) (w : Write) (rate : BitVec 32) : List Entry :=
  update list (BitVec.ofInt 32 w.mark) (BitVec.ofNat 32 w.power) rate

theorem Write.toInt_mark (w : Write) : (BitVec.ofInt 32 w.mark).toInt = w.mark := by
  have := w.mark_low
  have := w.mark_high
  rw [BitVec.toInt_ofInt]
  exact Int.bmod_eq_of_le (by norm_num; omega) (by norm_num; omega)

/-- The three kinds of a write. -/
theorem apply_cases (list : List Entry) (w : Write) (rate : BitVec 32) :
    (w.mark = 0 ∧ apply list w rate = []) ∨
      (∃ mark, 0 < mark.toNat ∧ w.mark = -mark.toNat ∧
        apply list w rate = list.filter (fun tmp => tmp.mark ≠ mark)) ∨
      ∃ mark : BitVec 32, 0 < mark.toNat ∧ w.mark = mark.toNat ∧
        apply list w rate = (updateEntry mark (BitVec.ofNat 32 w.power) rate list).getD
          ({ mark, power := (BitVec.ofNat 32 w.power).setWidth 8, rate } :: list) := by
  have hlow := w.mark_low
  have hhigh := w.mark_high
  have hint := w.toInt_mark
  rcases lt_trichotomy w.mark 0 with hneg | hzero | hpos
  · refine Or.inr (Or.inl ⟨-BitVec.ofInt 32 w.mark, ?_⟩)
    have hmark : -BitVec.ofInt 32 w.mark = BitVec.ofInt 32 (-w.mark) := (BitVec.ofInt_neg).symm
    have hnat := (ofInt_eq_iff (i := -w.mark) (by omega) (by omega)).mp rfl
    have hne : BitVec.ofInt 32 w.mark ≠ 0 := by
      intro heq
      rw [heq] at hint
      exact absurd hint (by simp; omega)
    rw [hmark]
    refine ⟨by omega, by omega, ?_⟩
    rw [apply, update, if_neg hne, if_pos (by rw [hint]; exact hneg), hmark]
  · refine Or.inl ⟨hzero, ?_⟩
    rw [apply, update, hzero, if_pos (by rfl)]
  · refine Or.inr (Or.inr ⟨BitVec.ofInt 32 w.mark, ?_⟩)
    have hnat := (ofInt_eq_iff (i := w.mark) (by omega) (by omega)).mp rfl
    have hne : BitVec.ofInt 32 w.mark ≠ 0 := by
      intro heq
      rw [heq] at hint
      exact absurd hint (by simp; omega)
    refine ⟨by omega, by omega, ?_⟩
    rw [apply, update, if_neg hne, if_neg (by rw [hint]; omega)]

theorem ne_zero_of_toNat (h : 0 < k.toNat) : k ≠ 0 := by
  rintro rfl
  exact absurd h (by decide)

theorem Sound.apply (h : Sound list) (w : Write) (rate : BitVec 32) :
    Sound (apply list w rate) := by
  rcases apply_cases list w rate with ⟨-, heq⟩ | ⟨mark, -, -, heq⟩ | ⟨mark, hpos, -, heq⟩
  · rw [heq]
    exact ⟨List.nodup_nil, List.not_mem_nil⟩
  · rw [heq]
    have hsub : List.Sublist (marks (list.filter (fun tmp => tmp.mark ≠ mark))) (marks list) :=
      List.filter_sublist.map _
    exact ⟨h.nodup.sublist hsub, fun hmem => h.nonzero (hsub.subset hmem)⟩
  · rw [heq]
    rcases updateEntry_cases mark (BitVec.ofNat 32 w.power) rate list with
      ⟨hnot, hnone⟩ | ⟨list', hsome, hmarks, -⟩
    · rw [hnone]
      refine ⟨List.nodup_cons.mpr ⟨hnot, h.nodup⟩, ?_⟩
      intro hmem
      rcases List.mem_cons.mp hmem with hzero | hmem
      · exact ne_zero_of_toNat hpos hzero.symm
      · exact h.nonzero hmem
    · rw [hsome]
      refine ⟨?_, ?_⟩
      · rw [Option.getD_some, hmarks]
        exact h.nodup
      · rw [Option.getD_some, hmarks]
        exact h.nonzero

theorem toNat_ne (h : k ≠ mark) : ¬(mark.toNat : ℤ) = k.toNat := by
  intro hsame
  exact h (BitVec.eq_of_toNat_eq (by omega))

/-- A frame is looked up to what a write says about its mark, or to what was there before. -/
theorem powerAt_apply (list : List Entry) (w : Write) (rate k : BitVec 32) :
    powerAt (apply list w rate) k =
      ((effect k w).map (Option.map (BitVec.ofNat 8))).getD (powerAt list k) := by
  unfold effect
  rcases apply_cases list w rate with
    ⟨hzero, heq⟩ | ⟨mark, hpos, hmark, heq⟩ | ⟨mark, hpos, hmark, heq⟩
  · rw [heq, if_pos hzero]
    rfl
  · have hzero : ¬w.mark = 0 := by omega
    have hneg : w.mark < 0 := by omega
    rw [heq, powerAt_filter, if_neg hzero, if_pos hneg, hmark, Int.neg_neg]
    by_cases hk : k = mark
    · simp [hk]
    · simp [hk, toNat_ne hk]
  · have hzero : ¬w.mark = 0 := by omega
    have hneg : ¬w.mark < 0 := by omega
    rw [heq, if_neg hzero, if_neg hneg, hmark]
    have hpower : (BitVec.ofNat 32 w.power).setWidth 8 = BitVec.ofNat 8 w.power := by
      rw [BitVec.setWidth_ofNat_of_le (by decide)]
    rcases updateEntry_cases mark (BitVec.ofNat 32 w.power) rate list with
      ⟨hnot, hnone⟩ | ⟨list', hsome, -, hlist⟩
    · rw [hnone, Option.getD_none]
      by_cases hk : k = mark
      · simp [powerAt, hk, hpower]
      · simp [powerAt, Ne.symm hk, toNat_ne hk]
    · rw [hsome, Option.getD_some, hlist, hpower]
      by_cases hk : k = mark
      · simp [hk]
      · simp [hk, toNat_ne hk]

/-- The text of a write is kept but for its line end, which may be cut off. -/
theorem Write.take_text (w : Write) : ∃ tail, (tail = [] ∨ tail = ['\n']) ∧
    w.text.take 31 = w.markText ++ ' ' :: (w.powerText ++ ' ' :: (w.rateText ++ tail)) := by
  let body := w.markText ++ ' ' :: (w.powerText ++ ' ' :: w.rateText)
  have hbody : body.length ≤ 31 := by
    have := w.short
    simp only [body, List.length_append, List.length_cons]
    omega
  have htext : w.text = body ++ if w.newline then ['\n'] else [] := by
    simp [Write.text, body]
  refine ⟨(if w.newline then ['\n'] else []).take (31 - body.length), ?_, ?_⟩
  · cases w.newline with
    | false => simp
    | true =>
      cases 31 - body.length with
      | zero => simp
      | succ n => simp
  · rw [htext, List.take_append, List.take_of_length_le hbody]
    simp [body]

theorem cString_eq {s : Text} (h : '\x00' ∉ s) : cString s = s := by
  rw [cString, List.takeWhile_eq_self_iff]
  intro c hc
  simp only [ne_eq, decide_not, Bool.not_eq_true', decide_eq_false_iff_not]
  rintro rfl
  exact h hc

theorem valbuf_text (w : Write) : ∃ tail, (tail = [] ∨ tail = ['\n']) ∧
    valbuf (w.text.take 31) = some (w.markText, w.powerText, w.rateText ++ tail) := by
  obtain ⟨tail, htail, htext⟩ := w.take_text
  have hblank : ' ' ∉ w.rateText ++ tail := by
    rw [List.mem_append, not_or]
    refine ⟨w.rate_digits.not_mem (by decide), ?_⟩
    rcases htail with rfl | rfl
    · decide
    · decide
  refine ⟨tail, htail, ?_⟩
  rw [htext, valbuf, split_letter_append 2 _ (w.mark_digits.not_mem (by decide) (by decide)
    (by decide)), split_letter_append 1 _ (w.power_digits.not_mem (by decide)),
    split_letter_none 1 hblank]

/-- Only a positive mark has its power read. -/
theorem update_power {mark : BitVec 32} (h : ¬ 0 < mark.toInt) (list : List Entry)
    (power power' rate : BitVec 32) : update list mark power rate = update list mark power' rate := by
  unfold update
  by_cases hzero : mark = 0
  · rw [if_pos hzero, if_pos hzero]
  · have hneg : mark.toInt < 0 := by
      have hne : mark.toInt ≠ 0 := fun heq => hzero (BitVec.toInt_inj.mp (by simpa using heq))
      omega
    rw [if_neg hzero, if_neg hzero, if_pos hneg, if_pos hneg]

/-- A write that fits is read as it was written, whatever the variables held. -/
theorem write_text {w : Write} (h : w.Fits) (stack : Stack) (list : List Entry) :
    ∃ rate, write_file_per_flow_tx_power stack list w.text = some (apply list w rate) := by
  obtain ⟨tail, -, hfields⟩ := valbuf_text w
  have hmark : kstrtoint (cString w.markText) = some (BitVec.ofInt 32 w.mark) := by
    rw [cString_eq (w.mark_digits.not_mem (by decide) (by decide) (by decide)),
      kstrtoint_decimal w.mark_digits h.mark w.mark_low w.mark_high]
  refine ⟨(kstrtouint (cString (w.rateText ++ tail))).getD stack.rate, ?_⟩
  rw [write_file_per_flow_tx_power, hfields, Option.map_some, apply]
  dsimp only
  rw [hmark, Option.getD_some]
  congr 1
  by_cases hpos : 0 < w.mark
  · have hpower := kstrtouint_decimal ⟨w.power_digits, h.power hpos⟩ (h.bound hpos)
      (Or.inl (rfl : [] = []))
    rw [List.append_nil] at hpower
    rw [cString_eq (w.power_digits.not_mem (by decide)), hpower, Option.getD_some]
  · refine update_power ?_ list _ _ _
    rw [w.toInt_mark]
    exact hpos

/-- A sequence of writes to the file. -/
def writes (events : List (Stack × Write)) : Option (List Entry) :=
  events.foldlM (fun list e => write_file_per_flow_tx_power e.1 list e.2.text) []

/-- Each write is applied with some rate. -/
theorem writes_eq (events : List (Stack × Write)) (h : ∀ e ∈ events, e.2.Fits) :
    ∃ applied : List (Write × BitVec 32), applied.map Prod.fst = events.map Prod.snd ∧
      writes events = some (applied.foldl (fun list e => apply list e.1 e.2) []) := by
  unfold writes
  generalize ([] : List Entry) = start
  induction events generalizing start with
  | nil => exact ⟨[], rfl, rfl⟩
  | cons e events ih =>
    obtain ⟨rate, hwrite⟩ := write_text (h e List.mem_cons_self) e.1 start
    obtain ⟨applied, hsame, hrest⟩ :=
      ih (fun e' he' => h e' (List.mem_cons_of_mem e he')) (apply start e.2 rate)
    refine ⟨(e.2, rate) :: applied, by rw [List.map_cons, hsame]; rfl, ?_⟩
    rw [List.foldlM_cons, hwrite]
    exact hrest

theorem lastWrite_of_map {applied : List (Write × BitVec 32)} {events : List (Stack × Write)}
    (h : applied.map Prod.fst = events.map Prod.snd) (k : BitVec 32) :
    lastWrite (fun k (e : Write × BitVec 32) => effect k e.1) k applied =
      lastWrite (fun k (e : Stack × Write) => effect k e.2) k events := by
  have hleft : (applied.map Prod.fst).filterMap (effect k) =
      applied.filterMap (fun e => effect k e.1) := List.filterMap_map
  have hright : (events.map Prod.snd).filterMap (effect k) =
      events.filterMap (fun e => effect k e.2) := List.filterMap_map
  rw [lastWrite, lastWrite, ← hleft, ← hright, h]

/-- For every sequence of well-formed writes that the kernel reads as they are meant: no mark
has two entries and the mark 0 has none, and a frame gets the power, modulo 256, of the last
write for its mark that no deletion and no clearing followed, and its old power if there is
none or its mark is 0. -/
theorem per_flow_table (events : List (Stack × Write)) (hfits : ∀ e ∈ events, e.2.Fits) :
    ∃ list, writes events = some list ∧ (marks list).Nodup ∧ 0 ∉ marks list ∧
      ∀ (frame : Frame) (oldPower : BitVec 8),
        ath_overwrite_rate_txpower
            { tx99_state := false, tpc_enabled := true, per_flow_txpower := list } frame oldPower =
          (match lastWrite (fun k e => effect k e.2) (frameMark frame) events with
          | some (some power) => BitVec.ofNat 8 power
          | _ => oldPower) ∧
        (frameMark frame = 0 → ath_overwrite_rate_txpower
            { tx99_state := false, tpc_enabled := true, per_flow_txpower := list } frame oldPower =
          oldPower) := by
  obtain ⟨applied, hsame, hwrites⟩ := writes_eq events hfits
  have hstart : Sound [] := ⟨List.nodup_nil, List.not_mem_nil⟩
  obtain ⟨hsound, hview⟩ := view_run (I := Sound)
    (fun list (e : Write × BitVec 32) => apply list e.1 e.2) powerAt
    (fun k e => (effect k e.1).map (Option.map (BitVec.ofNat 8)))
    (fun list e h => Sound.apply h e.1 e.2) (fun list e k _ => powerAt_apply list e.1 e.2 k)
    hstart applied
  generalize applied.foldl (fun list e => apply list e.1 e.2) [] = list at hwrites hsound hview
  have hread : ∀ (frame : Frame) (oldPower : BitVec 8), ath_overwrite_rate_txpower
      { tx99_state := false, tpc_enabled := true, per_flow_txpower := list } frame oldPower =
      (powerAt list (frameMark frame)).getD oldPower := by
    intro frame oldPower
    rw [ath_overwrite_rate_txpower, powerAt]
    cases List.find? (fun tmp => decide (tmp.mark = frameMark frame)) list with
    | none => rfl
    | some tmp => rfl
  refine ⟨list, hwrites, hsound.nodup, hsound.nonzero, ?_⟩
  intro frame oldPower
  constructor
  · rw [hread, hview, lastWrite_map, lastWrite_of_map hsame]
    cases lastWrite (fun k (e : Stack × Write) => effect k e.2) (frameMark frame) events with
    | none => rfl
    | some power =>
      cases power with
      | none => rfl
      | some power => rfl
  · intro hzero
    have hnone : powerAt list (frameMark frame) = none := by
      rw [powerAt, Option.map_eq_none_iff, List.find?_eq_none]
      intro tmp hmem heq
      apply hsound.nonzero
      rw [← hzero, ← of_decide_eq_true heq]
      exact List.mem_map_of_mem hmem
    rw [hread, hnone]
    rfl

/-- `echo "10002 40 0"`: 20 dBm for probe responses of the own network. -/
def homePower : Write where
  mark := 10002
  power := 40
  rate := 0
  markText := "10002".toList
  powerText := "40".toList
  rateText := "0".toList
  newline := true
  mark_low := by decide
  mark_high := by decide
  mark_digits := .plain ⟨by decide, forall_of_all (by decide), by decide⟩
  power_digits := ⟨by decide, forall_of_all (by decide), by decide⟩
  rate_digits := ⟨by decide, forall_of_all (by decide), by decide⟩
  short := by decide

theorem homePower_fits : homePower.Fits :=
  ⟨Or.inl (fun _ h => by cases h), fun _ => Or.inl (fun _ h => by cases h), fun _ => by decide⟩

theorem per_flow_table_home : ∃ list, writes [(⟨7, 7, 7⟩, homePower)] = some list ∧
    ath_overwrite_rate_txpower
      { tx99_state := false, tpc_enabled := true, per_flow_txpower := list } ⟨true, false, 0⟩ 20 =
        40 := by
  obtain ⟨list, hwrites, -, -, hread⟩ := per_flow_table [(⟨7, 7, 7⟩, homePower)] (by
    intro e he
    rw [List.mem_singleton.mp he]
    exact homePower_fits)
  exact ⟨list, hwrites, (hread ⟨true, false, 0⟩ 20).1⟩

/-- `echo "5 4294967336 0"`: the power is out of range. -/
def hugePower : Write where
  mark := 5
  power := 4294967336
  rate := 0
  markText := "5".toList
  powerText := "4294967336".toList
  rateText := "0".toList
  newline := true
  mark_low := by decide
  mark_high := by decide
  mark_digits := .plain ⟨by decide, forall_of_all (by decide), by decide⟩
  power_digits := ⟨by decide, forall_of_all (by decide), by decide⟩
  rate_digits := ⟨by decide, forall_of_all (by decide), by decide⟩
  short := by decide

/-- The power is 40 modulo 256, and the frames with the mark get what the variable held. -/
theorem huge_power_not_read (stack : Stack) :
    ∃ list, writes [(stack, hugePower)] = some list ∧
      ∀ oldPower, ath_overwrite_rate_txpower
        { tx99_state := false, tpc_enabled := true, per_flow_txpower := list } ⟨false, false, 5⟩
          oldPower = stack.power.setWidth 8 :=
  ⟨[⟨5, stack.power.setWidth 8, 0⟩], rfl, fun _ => rfl⟩

/-- A well-formed write whose power is not the one that frames get. -/
theorem unread_power_stored :
    ¬ ∀ (events : List (Stack × Write)) (list : List Entry), writes events = some list →
      ∀ (frame : Frame) (oldPower : BitVec 8),
        ath_overwrite_rate_txpower
            { tx99_state := false, tpc_enabled := true, per_flow_txpower := list } frame oldPower =
          (match lastWrite (fun k e => effect k e.2) (frameMark frame) events with
          | some (some power) => BitVec.ofNat 8 power
          | _ => oldPower) := by
  intro hall
  obtain ⟨list, hwrites, hread⟩ := huge_power_not_read ⟨0, 7, 0⟩
  have hlast := hall _ list hwrites ⟨false, false, 5⟩ 20
  rw [hread] at hlast
  exact absurd hlast (by decide)

end Nxwlan.PerFlowPower
