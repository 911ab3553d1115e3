import Mathlib.Data.List.Flatten
import Nxwlan.ScanResults

/-!
The `add_ie` command of hostapd_cli with its buffer and its arguments, and what the daemon
makes of the request. The loop goes by the number that the user gave: it reads three
arguments a round whether they exist or not, leaves out a triple that has not the lengths
it must have, and appends the others to a buffer of 2000 bytes without counting them. The
daemon halves the number of digits and decodes what it gets.
-/
namespace Nxwlan.AddIeCommands

open PyText ScanCommands ScanResults
open Base64 (Bytes)

structure Triple where
  oui : Text
  vendorType : Text
  data : Text

/-- The lengths that the command checks. -/
def Triple.Fits (t : Triple) : Prop :=
  t.oui.length = 6 ∧ t.vendorType.length = 2 ∧ t.data.length < 251 * 2 ∧ t.data.length % 2 = 0

instance (t : Triple) : Decidable t.Fits := inferInstanceAs (Decidable (_ ∧ _ ∧ _ ∧ _))

def Triple.ie (t : Triple) : Text := ieOf t.oui t.vendorType t.data

/-- The loop over the elements: the text in `buf`, where each `snprintf` ended, with its
closing zero, and the arguments that were read. -/
structure Loop where
  buf : Text := "ADD_IE ".toList
  ends : List ℕ := ["ADD_IE ".toList.length + 1]
  reads : List ℕ := []

/-- The lengths are all right or not; the third argument is read in either case. -/
def Loop.add (l : Loop) (j : ℕ) (t : Triple) : Loop where
  buf := l.buf ++ t.ie
  ends := if t.Fits then l.ends ++ [l.buf.length + t.ie.length + 1] else l.ends
  reads := l.reads ++ [j, j + 1, j + 2]

/-- Nothing is known any more behind a read of an argument that does not exist. -/
def ieLoop (argv : List Text) : ℕ → ℕ → Loop → Loop
  | 0, _, l => l
  | n + 1, j, l =>
      match argv[j]? with
      | none => { l with reads := l.reads ++ [j] }
      | some oui =>
        if oui.length = 6 then
          match argv[j + 1]?, argv[j + 2]? with
          | some vendorType, some data => ieLoop argv n (j + 3) (l.add j ⟨oui, vendorType, data⟩)
          | _, _ => { l with reads := l.reads ++ [j, j + 1, j + 2] }
        else ieLoop argv n (j + 3) { l with reads := l.reads ++ [j] }

/-- How many elements the command looks for, and from which argument on; `none` where the
arguments are no list of elements to it. -/
def rounds (interactive : Bool) (argv : List Text) : Option (ℕ × ℕ) :=
  match argv with
  | [_, _, _] => some (1, 0)
  | number :: _ :: _ :: _ :: _ =>
      if number.length ≤ 2 then
        let number_of_ie := (strtoul 10 number).1 % 2 ^ 32
        if number_of_ie = 0 then none
        else some (if interactive then min number_of_ie 2 else number_of_ie, 1)
      else none
  | _ => none

/-- The number of elements that the user asks for, without the limit of the interactive mode. -/
def asked (argv : List Text) : Option (ℕ × ℕ) := rounds false argv

def runAddIe (argv : List Text) (n j : ℕ) : Loop := ieLoop argv n j {}

/-- `argv[k]`, empty where it does not exist. -/
def argAt (argv : List Text) (k : ℕ) : Text := argv[k]?.getD []

/-- The triples that are asked for. -/
def triples (argv : List Text) : ℕ → ℕ → List Triple
  | 0, _ => []
  | n + 1, j => ⟨argAt argv j, argAt argv (j + 1), argAt argv (j + 2)⟩ :: triples argv n (j + 3)

/-- Each round finds the first argument of its triple, and the others if that one has six
characters. -/
def ReadsExist (argv : List Text) (n j : ℕ) : Prop :=
  ∀ i < n, j + 3 * i < argv.length ∧
    ((argAt argv (j + 3 * i)).length = 6 → j + 3 * i + 2 < argv.length)

/-- Whole bytes in hex digits. -/
def HexPairs (s : Text) : Prop := s.length % 2 = 0 ∧ ∀ c ∈ s, (hexValue c).isSome = true

def hexBytes (s : Text) : Bytes := (unhex s).getD []

def Triple.Malformed (t : Triple) : Prop :=
  ¬ HexPairs t.oui ∨ ¬ HexPairs t.vendorType ∨ ¬ HexPairs t.data

/-- dd, the length, the OUI, the type and the data. -/
def Triple.element (t : Triple) : Bytes :=
  0xdd :: UInt8.ofNat (t.data.length / 2 + 4) ::
    (hexBytes t.oui ++ hexBytes t.vendorType ++ hexBytes t.data)

variable {argv : List Text} {n m j : ℕ} {l : Loop} {t : Triple} {ts : List Triple} {s u : Text}
  {stored : Option Bytes}

section Loops

theorem argAt_eq {k : ℕ} {x : Text} (h : argv[k]? = some x) : argAt argv k = x := by
  rw [argAt, h]
  rfl

theorem readsExist_succ : ReadsExist argv (n + 1) j ↔
    (j < argv.length ∧ ((argAt argv j).length = 6 → j + 2 < argv.length)) ∧
      ReadsExist argv n (j + 3) := by
  constructor
  · intro h
    refine ⟨h 0 (Nat.succ_pos n), ?_⟩
    intro i hi
    have hnext := h (i + 1) (Nat.succ_lt_succ hi)
    rw [show j + 3 * (i + 1) = j + 3 + 3 * i by omega] at hnext
    exact hnext
  · rintro ⟨hfirst, hrest⟩ i hi
    cases i with
    | zero => exact hfirst
    | succ i =>
      rw [show j + 3 * (i + 1) = j + 3 + 3 * i by omega]
      exact hrest i (Nat.lt_of_succ_lt_succ hi)

theorem ie_of_fits (h : t.Fits) : t.ie =
    "dd".toList ++ format02x (t.data.length / 2 + 4) ++ t.oui ++ t.vendorType ++ t.data :=
  if_pos h

theorem ie_of_not_fits (h : ¬ t.Fits) : t.ie = [] := if_neg h

/-- The rounds of the loop, as long as the arguments exist. -/
theorem ieLoop_succ (h : j < argv.length ∧ ((argAt argv j).length = 6 → j + 2 < argv.length))
    (l : Loop) : ∃ reads, (∀ k ∈ reads, k < argv.length) ∧
      ieLoop argv (n + 1) j l = ieLoop argv n (j + 3) { l.add j ⟨argAt argv j, argAt argv (j + 1),
        argAt argv (j + 2)⟩ with reads := l.reads ++ reads } := by
  have hj : argv[j]? = some argv[j] := List.getElem?_eq_getElem h.1
  rw [ieLoop, hj, argAt_eq hj]
  dsimp only
  by_cases hsix : argv[j].length = 6
  · have h2 := h.2 (by rw [argAt_eq hj]; exact hsix)
    have hj1 : argv[j + 1]? = some argv[j + 1] := List.getElem?_eq_getElem (by omega)
    have hj2 : argv[j + 2]? = some argv[j + 2] := List.getElem?_eq_getElem h2
    refine ⟨[j, j + 1, j + 2], ?_, ?_⟩
    · intro k hk
      simp only [List.mem_cons, List.not_mem_nil, or_false] at hk
      omega
    · rw [if_pos hsix, hj1, hj2, argAt_eq hj1, argAt_eq hj2]
      rfl
  · refine ⟨[j], ?_, ?_⟩
    · intro k hk
      rw [List.mem_singleton.mp hk]
      exact h.1
    · have hfits : ¬ Triple.Fits ⟨argv[j], argAt argv (j + 1), argAt argv (j + 2)⟩ :=
        fun hfits => hsix hfits.1
      rw [if_neg hsix, Loop.add, ie_of_not_fits hfits, if_neg hfits, List.append_nil]

/-- A first argument or a whole triple that does not exist is read all the same. -/
theorem ieLoop_reads_missing
    (h : ¬ (j < argv.length ∧ ((argAt argv j).length = 6 → j + 2 < argv.length))) (l : Loop) :
    ∃ k ∈ (ieLoop argv (n + 1) j l).reads, argv.length ≤ k := by
  rw [ieLoop]
  cases hj : argv[j]? with
  | none =>
    exact ⟨j, by simp, List.getElem?_eq_none_iff.mp hj⟩
  | some oui =>
    obtain ⟨hlt, -⟩ := List.getElem?_eq_some_iff.mp hj
    rw [argAt_eq hj] at h
    have hsix : oui.length = 6 := by
      by_contra hne
      exact h ⟨hlt, fun heq => absurd heq hne⟩
    have hlast : argv.length ≤ j + 2 := by
      by_contra hlong
      exact h ⟨hlt, fun _ => not_le.mp hlong⟩
    dsimp only
    rw [if_pos hsix, List.getElem?_eq_none_iff.mpr hlast]
    exact ⟨j + 2, by simp, hlast⟩

theorem reads_iff (n j : ℕ) (l : Loop) : (∀ k ∈ (ieLoop argv n j l).reads, k < argv.length) ↔
    (∀ k ∈ l.reads, k < argv.length) ∧ ReadsExist argv n j := by
  induction n generalizing j l with
  | zero => exact (and_iff_left (fun i hi => absurd hi (Nat.not_lt_zero i))).symm
  | succ n ih =>
    rw [readsExist_succ]
    by_cases h : j < argv.length ∧ ((argAt argv j).length = 6 → j + 2 < argv.length)
    · obtain ⟨reads, hreads, hloop⟩ := ieLoop_succ (n := n) h l
      rw [hloop, ih, List.forall_mem_append]
      exact ⟨fun ⟨⟨hl, _⟩, hrest⟩ => ⟨hl, h, hrest⟩, fun ⟨hl, _, hrest⟩ => ⟨⟨hl, hreads⟩, hrest⟩⟩
    · obtain ⟨k, hk, hlong⟩ := ieLoop_reads_missing (n := n) h l
      exact iff_of_false (fun hall => absurd (hall k hk) hlong.not_gt) (fun hall => h hall.2.1)

/-- The texts of all triples come behind what was there. -/
theorem buf_eq (h : ReadsExist argv n j) (l : Loop) :
    (ieLoop argv n j l).buf = l.buf ++ (triples argv n j).flatMap Triple.ie := by
  induction n generalizing j l with
  | zero => exact (List.append_nil l.buf).symm
  | succ n ih =>
    obtain ⟨hfirst, hrest⟩ := readsExist_succ.mp h
    obtain ⟨reads, -, hloop⟩ := ieLoop_succ (n := n) hfirst l
    rw [hloop, ih hrest, triples, List.flatMap_cons, ← List.append_assoc]
    rfl

/-- The last `snprintf` reached the end of the text, and none went further. -/
structure Ends (l : Loop) : Prop where
  le : ∀ e ∈ l.ends, e ≤ l.buf.length + 1
  mem : l.buf.length + 1 ∈ l.ends

theorem Ends.add (h : Ends l) (j : ℕ) (t : Triple) (reads : List ℕ) :
    Ends { l.add j t with reads := reads } := by
  by_cases hfits : t.Fits
  · have hends : ({ l.add j t with reads := reads } : Loop).ends =
        l.ends ++ [l.buf.length + t.ie.length + 1] := if_pos hfits
    have hbuf : ({ l.add j t with reads := reads } : Loop).buf.length =
        l.buf.length + t.ie.length := List.length_append
    constructor
    · intro e he
      rw [hends] at he
      rw [hbuf]
      rcases List.mem_append.mp he with he | he
      · have := h.le e he
        omega
      · rw [List.mem_singleton.mp he]
    · rw [hends, hbuf]
      exact List.mem_append_right _ (List.mem_singleton.mpr rfl)
  · have hends : ({ l.add j t with reads := reads } : Loop).ends = l.ends := if_neg hfits
    have hbuf : ({ l.add j t with reads := reads } : Loop).buf = l.buf := by
      change l.buf ++ t.ie = l.buf
      rw [ie_of_not_fits hfits, List.append_nil]
    exact ⟨by rw [hends, hbuf]; exact h.le, by rw [hends, hbuf]; exact h.mem⟩

theorem Ends.loop (h : Ends l) (hreads : ReadsExist argv n j) : Ends (ieLoop argv n j l) := by
  induction n generalizing j l with
  | zero => exact h
  | succ n ih =>
    obtain ⟨hfirst, hrest⟩ := readsExist_succ.mp hreads
    obtain ⟨reads, -, hloop⟩ := ieLoop_succ (n := n) hfirst l
    rw [hloop]
    exact ih (h.add j _ _) hrest

/-- All texts together with the command's name. -/
def commandLength (argv : List Text) (n j : ℕ) : ℕ :=
  7 + ((triples argv n j).map (fun t => t.ie.length)).sum

theorem runAddIe_buf (h : ReadsExist argv n j) :
    (runAddIe argv n j).buf = "ADD_IE ".toList ++ (triples argv n j).flatMap Triple.ie :=
  buf_eq h {}

/-- The buffer is large enough when the whole line and its closing zero fit. -/
theorem ends_le_iff (h : ReadsExist argv n j) :
    (∀ e ∈ (runAddIe argv n j).ends, e ≤ 2000) ↔ commandLength argv n j ≤ 1999 := by
  have hstart : Ends {} := ⟨by decide, by decide⟩
  have hends : Ends (runAddIe argv n j) := hstart.loop h
  have hlen : (runAddIe argv n j).buf.length = commandLength argv n j := by
    rw [runAddIe_buf h, List.length_append, List.length_flatMap]
    rfl
  constructor
  · intro hall
    have := hall _ hends.mem
    omega
  · intro hle e he
    have := hends.le e he
    omega

end Loops

section Decoding

theorem hexPairs_iff (s : Text) : HexPairs s ↔ (unhex s).isSome = true := by
  induction s using unhex.induct with
  | case1 => simp [HexPairs, unhex]
  | case2 c => simp [HexPairs, unhex]
  | case3 a b s ih =>
    have hlen : (a :: b :: s).length % 2 = s.length % 2 := by
      rw [List.length_cons, List.length_cons]
      omega
    rw [HexPairs, hlen, List.forall_mem_cons, List.forall_mem_cons, and_left_comm,
      and_left_comm (a := s.length % 2 = 0), ← HexPairs, ih]
    cases ha : hexValue a with
    | none => simp [unhex, ha]
    | some x =>
      cases hb : hexValue b with
      | none => simp [unhex, ha, hb]
      | some y => cases hs : unhex s <;> simp [unhex, ha, hb, hs]

theorem unhex_eq (h : HexPairs s) : unhex s = some (hexBytes s) := by
  obtain ⟨bytes, hbytes⟩ := Option.isSome_iff_exists.mp ((hexPairs_iff s).mp h)
  rw [hexBytes, hbytes]
  rfl

theorem unhex_eq_none (h : ¬ HexPairs s) : unhex s = none := by
  rw [hexPairs_iff] at h
  simpa using h

theorem unhex_hexPair (b : UInt8) (u : Text) :
    unhex (hexPair b ++ u) = (unhex u).map (fun y => b :: y) := by
  have hpair : unhex (hexPair b) = some [b] := by
    have := ReceiveLoop.unhex_hexEncode [b]
    rwa [hexEncode_eq, List.flatMap_cons, List.flatMap_nil, List.append_nil] at this
  have hlen : (hexPair b).length % 2 = 0 := by rw [hexPair, List.length_cons, List.length_singleton]
  rw [unhex_append hlen, hpair]
  rfl

/-- An element in its digits. -/
theorem unhex_ie (h : t.Fits) : unhex t.ie = (unhex t.oui).bind (fun oui =>
    (unhex t.vendorType).bind (fun vendorType => (unhex t.data).map (fun data =>
      0xdd :: UInt8.ofNat (t.data.length / 2 + 4) :: (oui ++ vendorType ++ data)))) := by
  obtain ⟨houi, htype, hlong, heven⟩ := h
  have hdd : "dd".toList = hexPair 0xdd := by decide
  have houi' : t.oui.length % 2 = 0 := by omega
  have htype' : t.vendorType.length % 2 = 0 := by omega
  rw [ie_of_fits ⟨houi, htype, hlong, heven⟩, hdd, format02x_eq _ (by omega), List.append_assoc,
    List.append_assoc, List.append_assoc, unhex_hexPair, unhex_hexPair, unhex_append houi',
    unhex_append htype']
  cases unhex t.oui with
  | none => rfl
  | some oui =>
    cases unhex t.vendorType with
    | none => rfl
    | some vendorType =>
      cases unhex t.data with
      | none => rfl
      | some data =>
        simp only [Option.bind_some, Option.map_some, List.append_assoc]

theorem unhex_ie_element (h : t.Fits) (hgood : ¬ t.Malformed) : unhex t.ie = some t.element := by
  rw [Triple.Malformed, not_or, not_or, not_not, not_not, not_not] at hgood
  rw [unhex_ie h, unhex_eq hgood.1, unhex_eq hgood.2.1, unhex_eq hgood.2.2]
  rfl

theorem unhex_ie_malformed (h : t.Fits) (hbad : t.Malformed) : unhex t.ie = none := by
  rw [unhex_ie h]
  rcases hbad with hbad | hbad | hbad
  · rw [unhex_eq_none hbad]
    rfl
  · rw [unhex_eq_none hbad]
    cases unhex t.oui <;> rfl
  · rw [unhex_eq_none hbad]
    cases unhex t.oui with
    | none => rfl
    | some oui => cases unhex t.vendorType <;> rfl

theorem ie_even (t : Triple) : t.ie.length % 2 = 0 := by
  by_cases h : t.Fits
  · have hsize : ("dd".toList ++ format02x (t.data.length / 2 + 4)).length = 4 := by
      rw [format02x_eq _ (by have := h.2.2.1; omega)]
      rfl
    obtain ⟨houi, htype, hlong, heven⟩ := h
    rw [ie_of_fits ⟨houi, htype, hlong, heven⟩, List.length_append, List.length_append,
      List.length_append, hsize]
    omega
  · rw [ie_of_not_fits h]
    rfl

theorem ies_even (ts : List Triple) : (ts.flatMap Triple.ie).length % 2 = 0 := by
  induction ts with
  | nil => rfl
  | cons t ts ih =>
    have := ie_even t
    rw [List.flatMap_cons, List.length_append]
    omega

/-- The elements of the triples that are kept. -/
def keptBytes (ts : List Triple) : Bytes := (ts.filter (fun t => t.Fits)).flatMap Triple.element

theorem keptBytes_cons (t : Triple) (ts : List Triple) :
    keptBytes (t :: ts) = if t.Fits then t.element ++ keptBytes ts else keptBytes ts := by
  rw [keptBytes, List.filter_cons]
  by_cases h : t.Fits
  · rw [if_pos h, if_pos (by simpa using h), List.flatMap_cons]
    rfl
  · rw [if_neg h, if_neg (by simpa using h)]
    rfl

/-- Some triple that is kept cannot be decoded. -/
def KeptMalformed (ts : List Triple) : Prop := ∃ t ∈ ts, t.Fits ∧ t.Malformed

theorem unhex_ies (h : ¬ KeptMalformed ts) :
    unhex (ts.flatMap Triple.ie) = some (keptBytes ts) := by
  induction ts with
  | nil => rfl
  | cons t ts ih =>
    have hrest := ih (fun ⟨t', ht', hbad⟩ => h ⟨t', List.mem_cons_of_mem t ht', hbad⟩)
    rw [List.flatMap_cons, unhex_append (ie_even t), hrest, keptBytes_cons]
    by_cases hfits : t.Fits
    · have hgood : ¬ t.Malformed := fun hbad => h ⟨t, List.mem_cons_self, hfits, hbad⟩
      rw [unhex_ie_element hfits hgood, if_pos hfits]
      rfl
    · rw [ie_of_not_fits hfits, if_neg hfits]
      rfl

theorem unhex_ies_malformed (h : KeptMalformed ts) : unhex (ts.flatMap Triple.ie) = none := by
  obtain ⟨t, ht, hfits, hbad⟩ := h
  induction ts with
  | nil => cases ht
  | cons t' ts ih =>
    rw [List.flatMap_cons, unhex_append (ie_even t')]
    rcases List.mem_cons.mp ht with rfl | ht
    · rw [unhex_ie_malformed hfits hbad]
      rfl
    · rw [ih ht]
      cases unhex t'.ie <;> rfl

theorem flatMap_ie_eq_nil_iff : ts.flatMap Triple.ie = [] ↔ ts.filter (fun t => t.Fits) = [] := by
  rw [List.flatMap_eq_nil_iff, List.filter_eq_nil_iff]
  constructor
  · intro h t ht hfits
    have hie := h t ht
    rw [ie_of_fits (by simpa using hfits)] at hie
    cases hie
  · intro h t ht
    exact ie_of_not_fits (by simpa using h t ht)

end Decoding

section Daemon

/-- What is stored when the triples that are kept can be decoded; no element clears the store. -/
def kept (ts : List Triple) : Option Bytes :=
  if ts.filter (fun t => t.Fits) = [] then none else some (keptBytes ts)

/-- The store after a line of the command that fits into the buffer. -/
theorem receive_eq (stored : Option Bytes) (ts : List Triple) [Decidable (KeptMalformed ts)]
    (hlen : (ts.flatMap Triple.ie).length ≤ 1992) :
    hostapd_ctrl_iface_receive stored ("ADD_IE ".toList ++ ts.flatMap Triple.ie) =
      if KeptMalformed ts then stored else kept ts := by
  classical
  rw [receive_digits stored (by omega) (ies_even ts)]
  by_cases hnil : ts.filter (fun t => t.Fits) = []
  · have hnone : ¬ KeptMalformed ts := by
      rintro ⟨t, ht, hfits, -⟩
      exact List.filter_eq_nil_iff.mp hnil t ht (by simpa using hfits)
    rw [if_pos (flatMap_ie_eq_nil_iff.mpr hnil), if_neg hnone, kept, if_pos hnil]
  · rw [if_neg (mt flatMap_ie_eq_nil_iff.mp hnil), kept, if_neg hnil]
    by_cases hbad : KeptMalformed ts
    · rw [unhex_ies_malformed hbad, if_pos hbad, Option.none_or]
    · rw [unhex_ies hbad, if_neg hbad, Option.some_or]

end Daemon

/-- Where all triples exist, the line is the one that is sent. -/
theorem addIes_eq (h : j + 3 * n ≤ argv.length) (buf : Text) :
    addIes n (argv.drop j) buf = some (buf ++ (triples argv n j).flatMap Triple.ie) := by
  induction n generalizing j buf with
  | zero => rw [addIes, triples, List.flatMap_nil, List.append_nil]
  | succ n ih =>
    have hdrop : argv.drop j = argAt argv j :: argAt argv (j + 1) :: argAt argv (j + 2) ::
        argv.drop (j + 3) := by
      rw [List.drop_eq_getElem_cons (by omega), List.drop_eq_getElem_cons (by omega),
        List.drop_eq_getElem_cons (by omega), argAt_eq (List.getElem?_eq_getElem _),
        argAt_eq (List.getElem?_eq_getElem _), argAt_eq (List.getElem?_eq_getElem _)]
    rw [hdrop, addIes, ih (by omega), triples, List.flatMap_cons, List.append_assoc]
    rfl

theorem readsExist_of_le (h : j + 3 * n ≤ argv.length) : ReadsExist argv n j := by
  intro i hi
  exact ⟨by omega, fun _ => by omega⟩

theorem request_eq {interactive : Bool} (hrounds : rounds interactive argv = some (n, j))
    (h : j + 3 * n ≤ argv.length) :
    hostapd_cli_cmd_add_ie interactive argv = some (runAddIe argv n j).buf := by
  rw [runAddIe_buf (readsExist_of_le h), ← addIes_eq h]
  rw [rounds.eq_def] at hrounds
  split at hrounds
  · cases hrounds
    rfl
  · rename_i number a b c rest
    have hcli : hostapd_cli_cmd_add_ie interactive (number :: a :: b :: c :: rest) =
        if number.length ≤ 2 then
          if (strtoul 10 number).1 % 2 ^ 32 = 0 then none
          else addIes (if interactive then min ((strtoul 10 number).1 % 2 ^ 32) 2
            else (strtoul 10 number).1 % 2 ^ 32) (a :: b :: c :: rest) "ADD_IE ".toList
        else none := rfl
    rw [hcli]
    split at hrounds
    · rename_i hshort
      dsimp only at hrounds
      split at hrounds
      · cases hrounds
      · rename_i hzero
        obtain ⟨rfl, rfl⟩ := Prod.mk.inj (Option.some.inj hrounds)
        rw [if_pos hshort, if_neg hzero]
        rfl
    · cases hrounds
  · cases hrounds

/-- The command keeps to its buffer and its arguments; when all `m` triples that are asked for are
there, the store is their concatenation, or as it was before if one of them is malformed. -/
structure Correct (argv : List Text) (n m j : ℕ) (stored : Option Bytes) : Prop where
  buffer : ∀ e ∈ (runAddIe argv n j).ends, e ≤ 2000
  arguments : ∀ k ∈ (runAddIe argv n j).reads, k < argv.length
  elements : j + 3 * m ≤ argv.length → (∀ t ∈ triples argv m j, ¬ t.Malformed) →
    hostapd_ctrl_iface_receive stored (runAddIe argv n j).buf =
      some ((triples argv m j).flatMap Triple.element)
  rejected : j + 3 * m ≤ argv.length → (∃ t ∈ triples argv m j, t.Malformed) →
    hostapd_ctrl_iface_receive stored (runAddIe argv n j).buf = stored

/-- When a list of elements is treated correctly: the arguments that the rounds look for exist, and
the line fits into the buffer; without a malformed triple, there is a round for each of them
and all have the lengths that are checked; and a malformed triple is not merely left out,
unless the store has what remains already. -/
structure Harmless (argv : List Text) (n m j : ℕ) (stored : Option Bytes) : Prop where
  reads : ReadsExist argv n j
  short : commandLength argv n j ≤ 1999
  complete : j + 3 * m ≤ argv.length → (∀ t ∈ triples argv m j, ¬ t.Malformed) →
    n = m ∧ ∀ t ∈ triples argv m j, t.Fits
  strict : j + 3 * m ≤ argv.length → (∃ t ∈ triples argv m j, t.Malformed) →
    KeptMalformed (triples argv n j) ∨ stored = kept (triples argv n j)

theorem rounds_pos {interactive : Bool} (h : rounds interactive argv = some (n, j)) : 0 < n := by
  rw [rounds.eq_def] at h
  split at h
  · cases h
    exact Nat.one_pos
  · split at h
    · dsimp only at h
      split at h
      · cases h
      · rename_i hzero
        obtain ⟨hn, -⟩ := Prod.mk.inj (Option.some.inj h)
        rw [← hn]
        split
        · exact lt_min (Nat.pos_of_ne_zero hzero) Nat.two_pos
        · exact Nat.pos_of_ne_zero hzero
    · cases h
  · cases h

theorem commandLength_eq (argv : List Text) (n j : ℕ) :
    commandLength argv n j = 7 + ((triples argv n j).flatMap Triple.ie).length := by
  rw [commandLength, List.length_flatMap]

theorem triples_ne_nil (h : 0 < n) : triples argv n j ≠ [] := by
  obtain ⟨n, rfl⟩ := Nat.exists_eq_succ_of_ne_zero h.ne'
  exact List.cons_ne_nil _ _

/-- The interactive mode only makes the rounds fewer. -/
theorem rounds_le {interactive : Bool} {k : ℕ} (h : rounds interactive argv = some (n, j))
    (hasked : asked argv = some (m, k)) : n ≤ m ∧ j = k := by
  unfold asked at hasked
  rw [rounds.eq_def] at h hasked
  split at h
  · dsimp only at hasked
    cases h
    cases hasked
    exact ⟨le_rfl, rfl⟩
  · rename_i number a b c rest
    dsimp only at h hasked
    split at h
    · rename_i hshort
      rw [if_pos hshort] at hasked
      split at h
      · cases h
      · rename_i hzero
        rw [if_neg hzero] at hasked
        cases h
        cases hasked
        refine ⟨?_, rfl⟩
        split
        · exact min_le_left _ _
        · exact le_rfl
    · cases h
  · cases h

theorem triples_take (h : n ≤ m) (argv : List Text) (j : ℕ) :
    triples argv n j = (triples argv m j).take n := by
  induction n generalizing m j with
  | zero => rfl
  | succ n ih =>
    obtain ⟨m, rfl⟩ := Nat.exists_eq_add_of_le' (Nat.le_trans (Nat.le_add_left 1 n) h)
    rw [triples, triples, List.take_succ_cons, ← ih (Nat.le_of_succ_le_succ h)]

theorem length_triples (argv : List Text) (n j : ℕ) : (triples argv n j).length = n := by
  induction n generalizing j with
  | zero => rfl
  | succ n ih => rw [triples, List.length_cons, ih]

/-- A part of the triples whose elements take as much room as those of all is all of them. -/
theorem eq_of_elements_length {us : List Triple} (h : ts.Sublist us)
    (hlen : (ts.flatMap Triple.element).length = (us.flatMap Triple.element).length) : ts = us := by
  induction h with
  | slnil => rfl
  | cons t hsub _ =>
    have hle := (hsub.flatMap Triple.element).length_le
    rw [List.flatMap_cons, List.length_append, Triple.element, List.length_cons] at hlen
    omega
  | cons_cons t _ ih =>
    rw [List.flatMap_cons, List.flatMap_cons, List.length_append, List.length_append] at hlen
    rw [ih (by omega)]

/-- What is kept of the first triples is the concatenation of all of them only if nothing is left
out. -/
theorem kept_eq_iff (hn : 0 < n) (hle : n ≤ m) :
    kept (triples argv n j) = some ((triples argv m j).flatMap Triple.element) ↔
      n = m ∧ ∀ t ∈ triples argv m j, t.Fits := by
  constructor
  · intro h
    unfold kept at h
    split at h
    · cases h
    · have hbytes := Option.some.inj h
      have hsub : ((triples argv n j).filter (fun t => t.Fits)).Sublist (triples argv m j) := by
        rw [triples_take hle]
        exact List.filter_sublist.trans (List.take_sublist n _)
      have hall := eq_of_elements_length hsub (congrArg List.length hbytes)
      have hlength := congrArg List.length hall
      have hfilter := List.length_filter_le (fun t => decide (Triple.Fits t)) (triples argv n j)
      rw [length_triples] at hlength hfilter
      refine ⟨by omega, ?_⟩
      intro t ht
      rw [← hall] at ht
      simpa using (List.mem_filter.mp ht).2
  · rintro ⟨rfl, hfits⟩
    have hall : (triples argv n j).filter (fun t => t.Fits) = triples argv n j :=
      List.filter_eq_self.mpr (fun t ht => by simpa using hfits t ht)
    rw [kept, keptBytes, hall, if_neg (triples_ne_nil hn)]

theorem correct_iff (hn : 0 < n) (hle : n ≤ m) (stored : Option Bytes) :
    Correct argv n m j stored ↔ Harmless argv n m j stored := by
  classical
  have hreads : (∀ k ∈ (runAddIe argv n j).reads, k < argv.length) ↔ ReadsExist argv n j := by
    rw [runAddIe, reads_iff]
    exact and_iff_right (by simp)
  have hsound : (∀ t ∈ triples argv m j, ¬ t.Malformed) → ¬ KeptMalformed (triples argv n j) := by
    rintro hall ⟨t, ht, -, hmal⟩
    rw [triples_take hle] at ht
    exact hall t (List.mem_of_mem_take ht) hmal
  have hreceive : ReadsExist argv n j → commandLength argv n j ≤ 1999 →
      hostapd_ctrl_iface_receive stored (runAddIe argv n j).buf =
        if KeptMalformed (triples argv n j) then stored else kept (triples argv n j) := by
    intro hexist hshort
    rw [runAddIe_buf hexist]
    exact receive_eq stored _ (by rw [commandLength_eq] at hshort; omega)
  constructor
  · intro hcorrect
    have hexist := hreads.mp hcorrect.arguments
    have hshort := (ends_le_iff hexist).mp hcorrect.buffer
    refine ⟨hexist, hshort, ?_, ?_⟩
    · intro hfull hgood
      have hstore := hcorrect.elements hfull hgood
      rw [hreceive hexist hshort, if_neg (hsound hgood)] at hstore
      exact (kept_eq_iff hn hle).mp hstore
    · intro hfull hbad
      have hkeep := hcorrect.rejected hfull hbad
      rw [hreceive hexist hshort] at hkeep
      by_cases hmal : KeptMalformed (triples argv n j)
      · exact .inl hmal
      · rw [if_neg hmal] at hkeep
        exact .inr hkeep.symm
  · intro ⟨hexist, hshort, hcomplete, hstrict⟩
    refine ⟨(ends_le_iff hexist).mpr hshort, hreads.mpr hexist, ?_, ?_⟩
    · intro hfull hgood
      rw [hreceive hexist hshort, if_neg (hsound hgood)]
      exact (kept_eq_iff hn hle).mpr (hcomplete hfull hgood)
    · intro hfull hbad
      rw [hreceive hexist hshort]
      rcases hstrict hfull hbad with hkept | hsame
      · rw [if_pos hkept]
      · rw [← hsame, ite_self]

/-- When a request that is no whole number of bytes in digits is rejected. -/
theorem add_ie_rejects_iff (stored : Option Bytes) (s : Text) :
    (¬ HexPairs s → hostapd_ctrl_iface_add_ie stored s = (stored, false)) ↔
      HexPairs s ∨ 2 ≤ s.length ∧ ∃ c ∈ s.take (2 * (s.length / 2)), hexValue c = none := by
  have hdigits : (∃ c ∈ s.take (2 * (s.length / 2)), hexValue c = none) ↔
      ¬ HexPairs (s.take (2 * (s.length / 2))) := by
    have heven : (s.take (2 * (s.length / 2))).length % 2 = 0 := by
      rw [List.length_take]
      omega
    rw [HexPairs, and_iff_right heven]
    simp
  rw [hdigits]
  by_cases hs : HexPairs s
  · exact iff_of_true (fun h => absurd hs h) (.inl hs)
  · rw [or_iff_right hs, forall_prop_of_true hs, hostapd_ctrl_iface_add_ie]
    by_cases hlen : 2 ≤ s.length
    · rw [if_neg (by omega), and_iff_right hlen, hexstr2bin]
      by_cases hpart : HexPairs (s.take (2 * (s.length / 2)))
      · rw [unhex_eq hpart]
        exact iff_of_false (fun h => by cases h) (fun h => h hpart)
      · rw [unhex_eq_none hpart]
        exact iff_of_true rfl hpart
    · rw [if_pos (by omega)]
      exact iff_of_false (fun h => by cases h) (fun h => hlen h.1)

/-- Lists of elements are treated correctly exactly under these conditions; a request that is no
whole number of bytes in hex digits is rejected exactly if it has at least two characters
of which an even number from the start on are not all digits. Where all arguments exist, the
line is the one that the command sends. -/
theorem add_ie_iff (stored : Option Bytes) :
    (∀ (interactive : Bool) (argv : List Text) (n m j : ℕ),
      rounds interactive argv = some (n, j) → asked argv = some (m, j) →
        (Correct argv n m j stored ↔ Harmless argv n m j stored) ∧
        (j + 3 * n ≤ argv.length →
          hostapd_cli_cmd_add_ie interactive argv = some (runAddIe argv n j).buf)) ∧
    ∀ s : Text,
      (¬ HexPairs s → hostapd_ctrl_iface_add_ie stored s = (stored, false)) ↔
        HexPairs s ∨ 2 ≤ s.length ∧ ∃ c ∈ s.take (2 * (s.length / 2)), hexValue c = none :=
  ⟨fun _ _ _ _ _ h hasked =>
    ⟨correct_iff (rounds_pos h) (rounds_le h hasked).1 stored, request_eq h⟩, add_ie_rejects_iff stored⟩

/-- The key element of a home network, given as one triple. -/
def oneTriple : List Text := ["b16b00".toList, "b5".toList, "00ff".toList]

theorem add_ie_one_triple : Correct oneTriple 1 1 0 none := by
  have htriples : triples oneTriple 1 0 = [⟨"b16b00".toList, "b5".toList, "00ff".toList⟩] := rfl
  refine ((add_ie_iff none).1 false oneTriple 1 1 0 rfl rfl).1.mpr ⟨?_, by decide +kernel, ?_, ?_⟩
  · exact readsExist_of_le (by decide)
  · intro _ _
    refine ⟨rfl, ?_⟩
    intro t ht
    rw [htriples] at ht
    rw [List.mem_singleton.mp ht]
    decide
  · rintro _ ⟨t, ht, hmal⟩
    rw [htriples] at ht
    rw [List.mem_singleton.mp ht] at hmal
    rcases hmal with hmal | hmal | hmal
    · exact absurd ((hexPairs_iff _).mpr (by decide)) hmal
    · exact absurd ((hexPairs_iff _).mpr (by decide)) hmal
    · exact absurd ((hexPairs_iff _).mpr (by decide)) hmal

/-- Four long elements are written behind the buffer; a count that is too high reads arguments
that do not exist; an incomplete byte, an OUI that is too short or data that are too long are
left out, and alone clear the store; the third of three elements is left out in the
interactive mode; and the daemon drops the last of an odd number of digits. -/
theorem add_ie_faults :
    (rounds false ("4".toList :: (List.replicate 4
        ["b16b00".toList, "b5".toList, List.replicate 500 '0']).flatten) = some (4, 1) ∧
      2056 ∈ (runAddIe ("4".toList :: (List.replicate 4
        ["b16b00".toList, "b5".toList, List.replicate 500 '0']).flatten) 4 1).ends) ∧
    (rounds false ("2".toList :: oneTriple) = some (2, 1) ∧
      (runAddIe ("2".toList :: oneTriple) 2 1).reads = [1, 2, 3, 4]) ∧
    (∀ t ∈ [["b16b00".toList, "b5".toList, "0".toList], ["b16b".toList, "b5".toList, "00".toList],
        ["b16b00".toList, "b5".toList, List.replicate 502 '0']], rounds false t = some (1, 0) ∧
      hostapd_ctrl_iface_receive (some [1]) (runAddIe t 1 0).buf = none) ∧
    (rounds true ("3".toList :: (List.replicate 3 oneTriple).flatten) = some (2, 1) ∧
      asked ("3".toList :: (List.replicate 3 oneTriple).flatten) = some (3, 1)) ∧
    hostapd_ctrl_iface_add_ie (some [1]) "abc".toList = (some [0xab], true) := by
  refine ⟨⟨by decide +kernel, by decide +kernel⟩, ⟨by decide +kernel, by decide +kernel⟩,
    by decide +kernel, ⟨by decide +kernel, by decide +kernel⟩, by decide +kernel⟩

end Nxwlan.AddIeCommands
