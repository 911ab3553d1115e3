import Nxwlan.JsonFrames

/-!
`json.loads` of Python 2: a text that is a JSON value, with blanks around it, is read
as that value. Objects of plain strings are read as they are written. What `float`
makes of a number with a fraction or an exponent, and of the names of the values that
are no numbers, is a parameter.
-/
namespace Nxwlan.JsonText

open JsonFrames
open PyText (Text hexValue readInt)

def isBlank (c : Char) : Bool := c == ' ' || c == '\t' || c == '\n' || c == '\r'

def skip (t : Text) : Text := t.dropWhile isBlank

/-- What a letter behind a backslash stands for. -/
def unescape : Char → Option Char
  | '"' => some '"'
  | '\\' => some '\\'
  | '/' => some '/'
  | 'b' => some '\x08'
  | 'f' => some '\x0c'
  | 'n' => some '\n'
  | 'r' => some '\r'
  | 't' => some '\t'
  | _ => none

/-- The code units of a string behind its opening quote, and what follows the closing
one. -/
def readUnits : Text → Option (List ℕ × Text)
  | [] => none
  | '"' :: t => some ([], t)
  | '\\' :: 'u' :: a :: b :: c :: d :: t => do
      let x ← hexValue a
      let y ← hexValue b
      let z ← hexValue c
      let w ← hexValue d
      let (us, rest) ← readUnits t
      pure ((((x * 16 + y) * 16 + z) * 16 + w) :: us, rest)
  | '\\' :: c :: t => do
      let c ← unescape c
      let (us, rest) ← readUnits t
      pure (c.toNat :: us, rest)
  | c :: t =>
      if c.toNat < 32 then none
      else do
        let (us, rest) ← readUnits t
        pure (c.toNat :: us, rest)

def isHalf (u : ℕ) : Bool := decide (0xd800 ≤ u) && decide (u < 0xe000)

/-- Two halves make one character, and half a pair alone none. -/
def decodeUnits : List ℕ → Option Text
  | [] => some []
  | [u] => if isHalf u then none else some [Char.ofNat u]
  | u :: v :: us =>
      if !isHalf u then (decodeUnits (v :: us)).map (Char.ofNat u :: ·)
      else if u < 0xdc00 ∧ 0xdc00 ≤ v ∧ v < 0xe000 then
        (decodeUnits us).map (Char.ofNat (0x10000 + (u - 0xd800) * 0x400 + (v - 0xdc00)) :: ·)
      else none

def readString (t : Text) : Option (String × Text) := do
  let (us, rest) ← readUnits t
  let s ← decodeUnits us
  pure (String.ofList s, rest)

/-- `(-?(?:0|[1-9]\d*))`. -/
def integerPart : Text → Option (Text × Text)
  | '-' :: t => (natural t).map (fun r => ('-' :: r.1, r.2))
  | t => natural t
where
  natural : Text → Option (Text × Text)
    | '0' :: t => some (['0'], t)
    | c :: t => if c.isDigit then some ((c :: t).span Char.isDigit) else none
    | [] => none

/-- `(\.\d+)?`. -/
def fractionPart (t : Text) : Text × Text :=
  match t with
  | '.' :: c :: rest =>
      if c.isDigit then ('.' :: (c :: rest).takeWhile Char.isDigit, (c :: rest).dropWhile Char.isDigit)
      else ([], t)
  | _ => ([], t)

/-- `([eE][-+]?\d+)?`. -/
def exponentPart (t : Text) : Text × Text :=
  match t with
  | e :: rest =>
      let sign := rest.take 1 |>.filter (fun c => c == '-' || c == '+')
      let digits := rest.drop sign.length
      if (e == 'e' || e == 'E') && (digits.head?.any Char.isDigit) then
        (e :: sign ++ digits.takeWhile Char.isDigit, digits.dropWhile Char.isDigit)
      else ([], t)
  | [] => ([], t)

def readNumber (float : Text → Json) (t : Text) : Option (Json × Text) := do
  let (int, rest) ← integerPart t
  let (fraction, rest) := fractionPart rest
  let (exponent, rest) := exponentPart rest
  if fraction = [] ∧ exponent = [] then
    let i ← readInt int
    pure (.int i, rest)
  else pure (float (int ++ fraction ++ exponent), rest)

/-- The values that are written as a name. -/
def names (float : Text → Json) : List (Text × Json) :=
  [("null".toList, .null), ("true".toList, .bool true), ("false".toList, .bool false),
    ("NaN".toList, float "NaN".toList), ("Infinity".toList, float "Infinity".toList),
    ("-Infinity".toList, float "-Infinity".toList)]

def readName (float : Text → Json) (t : Text) : Option (Json × Text) :=
  ((names float).find? (fun r => r.1.isPrefixOf t)).map (fun r => (r.2, t.drop r.1.length))

section Items

variable {α : Type}

/-- Items with commas between them up to a closing bracket, of which there is one at
least. -/
def readItems (item : Text → Option (α × Text)) (close : Char) : ℕ → Text → Option (List α × Text)
  | 0, _ => none
  | n + 1, t => do
      let (a, rest) ← item t
      match skip rest with
      | [] => none
      | c :: rest =>
          if c = close then some ([a], rest)
          else if c = ',' then do
            let (as, rest) ← readItems item close n (skip rest)
            pure (a :: as, rest)
          else none

/-- What stands between brackets. Each item takes a character, so their number is no
bound. -/
def readBraced (item : Text → Option (α × Text)) (close : Char) (t : Text) :
    Option (List α × Text) :=
  match skip t with
  | [] => none
  | c :: rest => if c = close then some ([], rest) else readItems item close t.length (c :: rest)

end Items

def readMember (value : Text → Option (Json × Text)) : Text → Option ((String × Json) × Text)
  | '"' :: t => do
      let (name, rest) ← readString t
      match skip rest with
      | ':' :: rest => do
          let (j, rest) ← value (skip rest)
          pure ((name, j), rest)
      | _ => none
  | _ => none

/-- The last one of several members with one name counts. -/
def dict (members : List (String × Json)) : List (String × Json) :=
  members.foldr (fun m d => if (d.lookup m.1).isSome then d else m :: d) []

/-- A value whose brackets are at most `depth` deep, and what follows it. -/
def readValue (float : Text → Json) : ℕ → Text → Option (Json × Text)
  | 0, _ => none
  | depth + 1, t =>
      match t with
      | '"' :: t => (readString t).map (fun r => (.str r.1, r.2))
      | '\x7b' :: t =>
          (readBraced (readMember (readValue float depth)) '\x7d' t).map
            (fun r => (.obj (dict r.1), r.2))
      | '[' :: t => (readBraced (readValue float depth) ']' t).map (fun r => (.arr r.1, r.2))
      | t => (readName float t).orElse (fun _ => readNumber float t)

/-- `json.loads(text)`; `none` where it raises. -/
def loads (float : Text → Json) (depth : ℕ) (text : Text) : Option Json := do
  let (j, rest) ← readValue float depth (skip text)
  if skip rest = [] then some j else none

/-- A character that a string holds as it is. -/
def isPlain (c : Char) : Bool := c != '"' && c != '\\' && decide (32 ≤ c.toNat)

def quote (t : Text) : Text := '"' :: t ++ ['"']

def dumpMember (m : Text × Text) : Text := quote m.1 ++ ": ".toList ++ quote m.2

/-- `json.dumps` of a dictionary of plain strings. -/
def dumps (members : List (Text × Text)) : Text :=
  '\x7b' :: (", ".toList.intercalate (members.map dumpMember)) ++ ['\x7d']

section RoundTrip

variable {α β : Type} {float : Text → Json} {t rest : Text}

theorem readUnits_plain (h : ∀ c ∈ t, isPlain c = true) :
    readUnits (t ++ '"' :: rest) = some (t.map Char.toNat, rest) := by
  induction t with
  | nil => rfl
  | cons c t ih =>
    have hplain := h c (by simp)
    simp only [isPlain, Bool.and_eq_true, bne_iff_ne, decide_eq_true_eq] at hplain
    obtain ⟨⟨hquote, hslash⟩, hprint⟩ := hplain
    rw [List.cons_append, readUnits]
    · simp [ih (fun d hd => h d (by simp [hd])), Nat.not_lt.mpr hprint]
    · exact hquote
    · simp [hslash]
    · simp [hslash]

theorem isHalf_toNat (c : Char) : isHalf c.toNat = false := by
  have hc : c.toNat.isValidChar := c.valid
  simp only [isHalf, Bool.and_eq_false_iff, decide_eq_false_iff_not]
  rcases hc with hc | ⟨hc, -⟩
  · left
    omega
  · right
    omega

theorem decodeUnits_chars (t : Text) : decodeUnits (t.map Char.toNat) = some t := by
  induction t with
  | nil => rfl
  | cons c t ih =>
    cases t with
    | nil => simp [decodeUnits, isHalf_toNat, Char.ofNat_toNat]
    | cons d t =>
      simp only [List.map_cons] at ih ⊢
      simp [decodeUnits, isHalf_toNat, ih, Char.ofNat_toNat]

theorem readString_plain (h : ∀ c ∈ t, isPlain c = true) :
    readString (t ++ '"' :: rest) = some (String.ofList t, rest) := by
  simp [readString, readUnits_plain h, decodeUnits_chars]

theorem quote_append (t rest : Text) : quote t ++ rest = '"' :: (t ++ '"' :: rest) := by
  simp [quote]

theorem skip_cons {c : Char} (h : isBlank c = false) : skip (c :: t) = c :: t := by
  rw [skip, List.dropWhile_cons_of_neg (by simp [h])]

theorem readValue_quote (h : ∀ c ∈ t, isPlain c = true) (depth : ℕ) :
    readValue float (depth + 1) (quote t ++ rest) = some (.str (String.ofList t), rest) := by
  rw [quote_append, readValue]
  simp [readString_plain h]

theorem readMember_dumpMember {m : Text × Text} (hname : ∀ c ∈ m.1, isPlain c = true)
    (hvalue : ∀ c ∈ m.2, isPlain c = true) (depth : ℕ) (rest : Text) :
    readMember (readValue float (depth + 1)) (dumpMember m ++ rest) =
      some ((String.ofList m.1, .str (String.ofList m.2)), rest) := by
  have htext : dumpMember m ++ rest = '"' :: (m.1 ++ '"' :: ':' :: ' ' :: (quote m.2 ++ rest)) := by
    simp [dumpMember, quote]
  have hblank : skip (' ' :: (quote m.2 ++ rest)) = quote m.2 ++ rest := by
    rw [quote_append]
    rfl
  rw [htext, readMember, readString_plain hname]
  simp only [Option.bind_eq_bind, Option.bind_some, skip_cons (c := ':') (by rfl)]
  rw [hblank, readValue_quote hvalue]
  rfl

theorem length_le_intercalate (sep : Text) {ts : List Text} (h : ∀ t ∈ ts, t ≠ []) :
    ts.length ≤ (sep.intercalate ts).length := by
  induction ts with
  | nil => simp
  | cons t ts ih =>
    have ht := List.length_pos_of_ne_nil (h t (by simp))
    have hrest := ih (fun t' ht' => h t' (by simp [ht']))
    cases ts with
    | nil =>
      rw [List.intercalate_singleton]
      exact ht
    | cons t' ts =>
      rw [List.intercalate_cons_cons, List.length_append, List.length_append]
      simp only [List.length_cons] at hrest ⊢
      omega

/-- Items that are read one by one are read in a row. -/
theorem readItems_intercalate {item : Text → Option (α × Text)} {close : Char}
    (hclose : isBlank close = false) (hcomma : close ≠ ',') {text : β → Text} {value : β → α}
    {bs : List β} (hitems : ∀ b ∈ bs, ∀ rest, item (text b ++ rest) = some (value b, rest))
    (hstart : ∀ b ∈ bs, ∀ rest, skip (text b ++ rest) = text b ++ rest) (hne : bs ≠ []) {n : ℕ}
    (hn : bs.length ≤ n) :
    readItems item close n (", ".toList.intercalate (bs.map text) ++ close :: rest) =
      some (bs.map value, rest) := by
  induction bs generalizing n with
  | nil => exact absurd rfl hne
  | cons b bs ih =>
    rw [List.length_cons] at hn
    obtain ⟨n, rfl⟩ := Nat.exists_eq_add_of_le' (Nat.le_of_add_left_le hn)
    cases bs with
    | nil =>
      rw [readItems]
      simp [hitems b (by simp), skip_cons hclose]
    | cons b' bs =>
      let others := ", ".toList.intercalate ((b' :: bs).map text) ++ close :: rest
      have htext : ", ".toList.intercalate ((b :: b' :: bs).map text) ++ close :: rest =
          text b ++ (',' :: ' ' :: others) := by
        simp [others]
      have hskip : skip (' ' :: others) = others := by
        obtain ⟨rest', hrest⟩ : ∃ rest', others = text b' ++ rest' := by
          cases bs with
          | nil => exact ⟨close :: rest, by simp [others]⟩
          | cons b'' bs => exact ⟨_, by simp [others]; rfl⟩
        have hblank : skip (' ' :: others) = skip others := rfl
        rw [hblank, hrest]
        exact hstart b' (by simp) rest'
      rw [htext, readItems, hitems b (by simp)]
      simp only [Option.bind_eq_bind, Option.bind_some, skip_cons (c := ',') (by rfl),
        if_neg hcomma.symm, if_true, hskip]
      rw [ih (fun b hb => hitems b (by simp [hb])) (fun b hb => hstart b (by simp [hb]))
        (by simp) (Nat.le_of_add_le_add_right hn)]
      rfl

/-- Between brackets as well. -/
theorem readBraced_intercalate {item : Text → Option (α × Text)} {close : Char}
    (hclose : isBlank close = false) (hcomma : close ≠ ',') {text : β → Text} {value : β → α}
    {bs : List β} (hitems : ∀ b ∈ bs, ∀ rest, item (text b ++ rest) = some (value b, rest))
    (hstart : ∀ b ∈ bs, ∃ c t, text b = c :: t ∧ isBlank c = false ∧ c ≠ close) :
    readBraced item close (", ".toList.intercalate (bs.map text) ++ close :: rest) =
      some (bs.map value, rest) := by
  have hskip : ∀ b ∈ bs, ∀ rest, skip (text b ++ rest) = text b ++ rest := by
    intro b hb rest
    obtain ⟨c, t, htext, hblank, -⟩ := hstart b hb
    rw [htext, List.cons_append, skip_cons hblank]
  have hlen : (bs.map text).length ≤ (", ".toList.intercalate (bs.map text)).length := by
    refine length_le_intercalate _ ?_
    intro t ht
    obtain ⟨b, hb, rfl⟩ := List.mem_map.mp ht
    obtain ⟨c, t, htext, -⟩ := hstart b hb
    simp [htext]
  rw [List.length_map] at hlen
  cases bs with
  | nil =>
    rw [readBraced]
    simp [skip_cons hclose]
  | cons b bs =>
    obtain ⟨c, t, htext, hblank, hc⟩ := hstart b (by simp)
    obtain ⟨t', ht'⟩ : ∃ t', ", ".toList.intercalate ((b :: bs).map text) ++ close :: rest =
        c :: t' := by
      cases bs with
      | nil => exact ⟨t ++ close :: rest, by simp [htext]⟩
      | cons b' bs => exact ⟨_, by simp [htext]; rfl⟩
    rw [readBraced, ht', skip_cons hblank]
    simp only [if_neg hc]
    rw [← ht']
    refine readItems_intercalate hclose hcomma hitems hskip (by simp) (hlen.trans ?_)
    rw [List.length_append]
    exact Nat.le_add_right _ _

theorem dict_of_nodup {members : List (String × Json)} (h : (members.map Prod.fst).Nodup) :
    dict members = members := by
  induction members with
  | nil => rfl
  | cons m members ih =>
    rw [List.map_cons, List.nodup_cons] at h
    have hrest : members.foldr (fun m d => if (d.lookup m.1).isSome then d else m :: d) [] =
        members := ih h.2
    have hnew : members.lookup m.1 = none := by
      rw [List.lookup_eq_none_iff]
      intro m' hm'
      rw [bne_iff_ne]
      exact fun hname => h.1 (hname ▸ List.mem_map_of_mem hm')
    rw [dict, List.foldr_cons, hrest, hnew]
    rfl

/-- A dictionary of plain strings is read as it was written. -/
theorem loads_dumps {members : List (Text × Text)}
    (hplain : ∀ m ∈ members, (∀ c ∈ m.1, isPlain c = true) ∧ ∀ c ∈ m.2, isPlain c = true)
    (hnodup : (members.map Prod.fst).Nodup) (depth : ℕ) :
    loads float (depth + 2) (dumps members) =
      some (.obj (members.map (fun m => (String.ofList m.1, .str (String.ofList m.2))))) := by
  let value := fun m : Text × Text => (String.ofList m.1, Json.str (String.ofList m.2))
  have hread : readBraced (readMember (readValue float (depth + 1))) '\x7d'
      (", ".toList.intercalate (members.map dumpMember) ++ ['\x7d']) =
        some (members.map value, []) := by
    refine readBraced_intercalate (by rfl) (by decide) ?_ ?_
    · intro m hm rest
      exact readMember_dumpMember (hplain m hm).1 (hplain m hm).2 depth rest
    · exact fun m _ => ⟨'"', _, rfl, by rfl, by decide⟩
  have hdict : dict (members.map value) = members.map value := by
    refine dict_of_nodup ?_
    have hnames : (members.map value).map Prod.fst = (members.map Prod.fst).map String.ofList := by
      simp [value]
    rw [hnames]
    exact List.Pairwise.map String.ofList (fun _ _ hne h => hne (String.ofList_injective h)) hnodup
  have hstart : skip (dumps members) = dumps members := rfl
  have hvalue : readValue float (depth + 2) (dumps members) =
      some (.obj (members.map value), []) := by
    rw [dumps, List.cons_append, readValue]
    simp only [hread, hdict, Option.map_some]
  rw [loads, hstart, hvalue]
  rfl

end RoundTrip

end Nxwlan.JsonText
