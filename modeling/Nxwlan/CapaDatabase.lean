import Nxwlan.ClientBlacklist
import Nxwlan.InfoElements

/-!
The capability database of hostapd. A probe request enters a station that is not listed
yet; an association request does the same, and replaces the elements of a station that is
listed. A new station is counted before its elements are parsed, and the elements of a listed
one are parsed into its entry: a request that does not parse leaves its traces there.
-/
namespace Nxwlan.CapaDatabase

open TaggedRecords InfoElements
open Base64 (Bytes)
open ClientBlacklist (Mac sameMac sameMac_iff)

structure StaCapaEntry where
  mac : Mac
  probe_fiveghz_rec : UInt8
  probe_twoghz_rec : UInt8
  elems : Elems

/-- Every count comes with memory that is never freed, so the counter does not overflow. -/
structure CapaDb where
  sta_capa_list : List StaCapaEntry := []
  sta_capa_count : ℕ := 0

inductive Kind where
  | probe | assoc
  deriving DecidableEq

/-- A probe request or a (re)association request on a channel. `entry` is the memory for a new
entry, with whatever stands in it, and `copy` says whether there is memory for the elements. -/
structure Request where
  kind : Kind
  sa : Mac
  ies : Bytes
  channel : ℤ := 1
  entry : Option StaCapaEntry
  copy : Bool := true

/-- Where the station is in the list; the length of the list if it is not there. -/
def entryIndex (db : CapaDb) (sa : Mac) : ℕ :=
  db.sta_capa_list.findIdx (fun entry => sameMac entry.mac sa)

/-- A channel of neither band leaves the flags as the memory had them. -/
def setBand (entry : StaCapaEntry) (channel : ℤ) : StaCapaEntry :=
  if 36 ≤ channel ∧ channel ≤ 165 then
    { entry with probe_fiveghz_rec := 1, probe_twoghz_rec := 0 }
  else if 1 ≤ channel ∧ channel ≤ 14 then
    { entry with probe_fiveghz_rec := 0, probe_twoghz_rec := 1 }
  else entry

/-- The branch for a station that is not listed, the same in both functions. -/
def enterStation (db : CapaDb) (r : Request) : CapaDb :=
  let db := { db with sta_capa_count := db.sta_capa_count + 1 }
  match r.entry with
  | none => db
  | some entry =>
      let entry := setBand { entry with mac := r.sa } r.channel
      if r.copy then
        let (res, elems) := ieee802_11_parse_elems r.ies
        if res = .ParseFailed then db
        else { db with sta_capa_list := { entry with elems } :: db.sta_capa_list }
      else db

/-- The part of `handle_probe_req` that maintains the database. -/
def handle_probe_req (db : CapaDb) (r : Request) : CapaDb :=
  match db.sta_capa_list[entryIndex db r.sa]? with
  | some _ => db
  | none => enterStation db r

/-- The part of `check_assoc_ies` that maintains the database. -/
def check_assoc_ies (db : CapaDb) (r : Request) : CapaDb :=
  match db.sta_capa_list[entryIndex db r.sa]? with
  | some entry =>
      if r.copy then
        -- a failed parse returns behind the write
        { db with
          sta_capa_list := db.sta_capa_list.set (entryIndex db r.sa)
            { entry with elems := (ieee802_11_parse_elems r.ies).2 } }
      else db
  | none => enterStation db r

def handle (db : CapaDb) (r : Request) : CapaDb :=
  match r.kind with
  | .probe => handle_probe_req db r
  | .assoc => check_assoc_ies db r

def run (requests : List Request) : CapaDb := requests.foldl handle {}

/-- The elements of the request do not parse. -/
def Request.Fails (r : Request) : Prop := (ieee802_11_parse_elems r.ies).1 = .ParseFailed

instance (r : Request) : Decidable r.Fails := inferInstanceAs (Decidable (_ = _))

def MacsDistinct (db : CapaDb) : Prop := (db.sta_capa_list.map StaCapaEntry.mac).Nodup

structure Consistent (db : CapaDb) : Prop where
  distinct : MacsDistinct db
  count : db.sta_capa_count = db.sta_capa_list.length

/-- A request that does no harm. For a listed station: a probe request, one without memory,
well-formed elements, or broken ones that leave what is stored already. For another station
there is memory and the elements are well formed. -/
def Harmless (db : CapaDb) (r : Request) : Prop :=
  match db.sta_capa_list[entryIndex db r.sa]? with
  | some entry =>
      r.kind = .probe ∨ r.copy = false ∨ IsRecords r.ies ∨
        entry.elems = (ieee802_11_parse_elems r.ies).2
  | none => r.entry.isSome = true ∧ r.copy = true ∧ IsRecords r.ies

variable {db : CapaDb} {r : Request}

theorem fails_iff : r.Fails ↔ ¬ IsRecords r.ies := parse_failed_iff r.ies

theorem setBand_mac (entry : StaCapaEntry) (channel : ℤ) :
    (setBand entry channel).mac = entry.mac := by
  rw [setBand]
  split
  · rfl
  · split
    · rfl
    · rfl

/-- What becomes of the database when a station is not listed. -/
theorem enterStation_cases (db : CapaDb) (r : Request) :
    (∃ entry, entry.mac = r.sa ∧ r.entry.isSome = true ∧ r.copy = true ∧ IsRecords r.ies ∧
      enterStation db r =
        { sta_capa_list := entry :: db.sta_capa_list
          sta_capa_count := db.sta_capa_count + 1 }) ∨
    (¬ (r.entry.isSome = true ∧ r.copy = true ∧ IsRecords r.ies) ∧
      enterStation db r = { db with sta_capa_count := db.sta_capa_count + 1 }) := by
  rw [enterStation]
  cases hentry : r.entry with
  | none => exact .inr ⟨fun h => Bool.false_ne_true h.1, rfl⟩
  | some entry =>
    cases hcopy : r.copy with
    | false => exact .inr ⟨fun h => Bool.false_ne_true h.2.1, rfl⟩
    | true =>
      by_cases hfails : (ieee802_11_parse_elems r.ies).1 = .ParseFailed
      · refine .inr ⟨fun h => fails_iff.mp hfails h.2.2, ?_⟩
        dsimp only
        rw [if_pos rfl, if_pos hfails]
      · refine .inl ⟨{ setBand { entry with mac := r.sa } r.channel with
          elems := (ieee802_11_parse_elems r.ies).2 }, setBand_mac _ _, rfl, rfl,
          not_not.mp (fun h => hfails (fails_iff.mpr h)), ?_⟩
        dsimp only
        rw [if_pos rfl, if_neg hfails]

/-- What becomes of the database when the station is listed. -/
theorem handle_listed {entry : StaCapaEntry}
    (hentry : db.sta_capa_list[entryIndex db r.sa]? = some entry) :
    handle db r =
      if r.kind = .probe ∨ r.copy = false then db
      else { db with
        sta_capa_list := db.sta_capa_list.set (entryIndex db r.sa)
          { entry with elems := (ieee802_11_parse_elems r.ies).2 } } := by
  rw [handle]
  cases hkind : r.kind with
  | probe =>
    dsimp only
    rw [handle_probe_req, hentry, if_pos (.inl rfl)]
  | assoc =>
    dsimp only
    rw [check_assoc_ies, hentry]
    cases hcopy : r.copy with
    | false => simp
    | true => simp

theorem handle_unlisted (hentry : db.sta_capa_list[entryIndex db r.sa]? = none) :
    handle db r = enterStation db r := by
  rw [handle]
  cases hkind : r.kind with
  | probe => rw [handle_probe_req, hentry]
  | assoc => rw [check_assoc_ies, hentry]

/-- A station that is not listed has another address than every entry. -/
theorem not_mem_macs (hentry : db.sta_capa_list[entryIndex db r.sa]? = none) :
    r.sa ∉ db.sta_capa_list.map StaCapaEntry.mac := by
  intro hmem
  obtain ⟨entry, hentry', hmac⟩ := List.mem_map.mp hmem
  have hindex : entryIndex db r.sa < db.sta_capa_list.length :=
    List.findIdx_lt_length_of_exists ⟨entry, hentry', sameMac_iff.mpr hmac⟩
  exact absurd (List.getElem?_eq_none_iff.mp hentry) (Nat.not_le.mpr hindex)

/-- Writing the elements of an entry leaves the addresses. -/
theorem macs_set {entry : StaCapaEntry} {i : ℕ} (hentry : db.sta_capa_list[i]? = some entry)
    (elems : Elems) :
    (db.sta_capa_list.set i { entry with elems }).map StaCapaEntry.mac =
      db.sta_capa_list.map StaCapaEntry.mac := by
  obtain ⟨hi, rfl⟩ := List.getElem?_eq_some_iff.mp hentry
  calc
    _ = (db.sta_capa_list.map StaCapaEntry.mac).set i (db.sta_capa_list[i]).mac := by
      rw [List.map_set]
    _ = (db.sta_capa_list.set i db.sta_capa_list[i]).map StaCapaEntry.mac := List.map_set.symm
    _ = _ := by rw [List.set_getElem_self]

/-- One request keeps the addresses distinct, whatever its elements are. -/
theorem handle_distinct (hdb : MacsDistinct db) (r : Request) : MacsDistinct (handle db r) := by
  cases hentry : db.sta_capa_list[entryIndex db r.sa]? with
  | some entry =>
    rw [handle_listed hentry]
    split
    · exact hdb
    · rw [MacsDistinct, macs_set hentry]
      exact hdb
  | none =>
    rw [handle_unlisted hentry]
    obtain ⟨entry, hmac, _, _, _, heq⟩ | ⟨_, heq⟩ := enterStation_cases db r
    · rw [heq, MacsDistinct, List.map_cons, hmac]
      exact List.nodup_cons.mpr ⟨not_mem_macs hentry, hdb⟩
    · rw [heq]
      exact hdb

/-- In every run each address is listed at most once. -/
theorem run_distinct (requests : List Request) : MacsDistinct (run requests) := by
  induction requests using List.reverseRecOn with
  | nil => exact List.nodup_nil
  | append_singleton requests r ih =>
    rw [run, List.foldl_append]
    exact handle_distinct ih r

/-- The elements of an entry are overwritten; nothing changes exactly when they stay the same. -/
theorem set_elems_eq_iff {entry : StaCapaEntry} {i : ℕ}
    (hentry : db.sta_capa_list[i]? = some entry) (elems : Elems) :
    { db with sta_capa_list := db.sta_capa_list.set i { entry with elems } } = db ↔
      entry.elems = elems := by
  obtain ⟨hi, rfl⟩ := List.getElem?_eq_some_iff.mp hentry
  constructor
  · intro heq
    have hlist : db.sta_capa_list.set i { db.sta_capa_list[i] with elems } = db.sta_capa_list :=
      congrArg CapaDb.sta_capa_list heq
    have hget := congrArg (fun l => l[i]?) hlist
    simp only [List.getElem?_set_self hi, hentry, Option.some.injEq] at hget
    exact congrArg StaCapaEntry.elems hget.symm
  · intro heq
    rw [← heq, List.set_getElem_self]

/-- A consistent database stays as it should exactly under a harmless request. -/
theorem handle_keeps_iff (hdb : Consistent db) (r : Request) :
    (Consistent (handle db r) ∧ (r.Fails → handle db r = db)) ↔ Harmless db r := by
  rw [Harmless, fails_iff]
  cases hentry : db.sta_capa_list[entryIndex db r.sa]? with
  | some entry =>
    have hdistinct := handle_distinct hdb.distinct r
    rw [handle_listed hentry] at hdistinct ⊢
    by_cases hread : r.kind = .probe ∨ r.copy = false
    · rw [if_pos hread]
      have hharmless : r.kind = .probe ∨ r.copy = false ∨ IsRecords r.ies ∨
          entry.elems = (ieee802_11_parse_elems r.ies).2 := by
        obtain hprobe | hcopy := hread
        · exact .inl hprobe
        · exact .inr (.inl hcopy)
      exact iff_of_true ⟨hdb, fun _ => rfl⟩ hharmless
    · rw [if_neg hread] at hdistinct ⊢
      have hconsistent : Consistent { db with
          sta_capa_list := db.sta_capa_list.set (entryIndex db r.sa)
            { entry with elems := (ieee802_11_parse_elems r.ies).2 } } :=
        ⟨hdistinct, hdb.count.trans List.length_set.symm⟩
      rw [set_elems_eq_iff hentry]
      constructor
      · intro hkeeps
        by_cases hrecords : IsRecords r.ies
        · exact .inr (.inr (.inl hrecords))
        · exact .inr (.inr (.inr (hkeeps.2 hrecords)))
      · intro hharmless
        refine ⟨hconsistent, fun hbroken => ?_⟩
        obtain hprobe | hcopy | hrecords | helems := hharmless
        · exact absurd (.inl hprobe) hread
        · exact absurd (.inr hcopy) hread
        · exact absurd hrecords hbroken
        · exact helems
  | none =>
    have hdistinct := handle_distinct hdb.distinct r
    rw [handle_unlisted hentry] at hdistinct ⊢
    obtain ⟨entry, _, hmem, hcopy, hrecords, heq⟩ | ⟨hnot, heq⟩ := enterStation_cases db r
    · rw [heq] at hdistinct ⊢
      have hcount : db.sta_capa_count + 1 = (entry :: db.sta_capa_list).length := by
        rw [List.length_cons, hdb.count]
      exact iff_of_true ⟨⟨hdistinct, hcount⟩, fun hbroken => absurd hrecords hbroken⟩
        ⟨hmem, hcopy, hrecords⟩
    · rw [heq]
      refine iff_of_false (fun hkeeps => ?_) hnot
      have hcount : db.sta_capa_count + 1 = db.sta_capa_list.length := hkeeps.1.count
      have hbefore := hdb.count
      omega

theorem consistent_start : Consistent {} := ⟨List.nodup_nil, rfl⟩

theorem run_append (pre : List Request) (r : Request) :
    run (pre ++ [r]) = handle (run pre) r := List.foldl_append

/-- The database is consistent throughout a run, and requests that do not parse leave it as it
is, exactly when every request of the run is harmless. -/
theorem capa_database_iff (requests : List Request) :
    ((∀ pre, pre <+: requests → Consistent (run pre)) ∧
      ∀ pre r, pre ++ [r] <+: requests → r.Fails → run (pre ++ [r]) = run pre) ↔
    ∀ pre r, pre ++ [r] <+: requests → Harmless (run pre) r := by
  constructor
  · rintro ⟨hconsistent, hfailed⟩ pre r hpre
    have hbefore := hconsistent pre ((List.prefix_append pre [r]).trans hpre)
    have hafter := hconsistent (pre ++ [r]) hpre
    have hkeep := hfailed pre r hpre
    rw [run_append] at hafter hkeep
    exact (handle_keeps_iff hbefore r).mp ⟨hafter, hkeep⟩
  · intro hharmless
    have hconsistent : ∀ pre, pre <+: requests → Consistent (run pre) := by
      intro pre
      induction pre using List.reverseRecOn with
      | nil =>
        intro _
        exact consistent_start
      | append_singleton pre r ih =>
        intro hpre
        have hbefore := ih ((List.prefix_append pre [r]).trans hpre)
        rw [run_append]
        exact ((handle_keeps_iff hbefore r).mpr (hharmless pre r hpre)).1
    refine ⟨hconsistent, fun pre r hpre hfails => ?_⟩
    have hbefore := hconsistent pre ((List.prefix_append pre [r]).trans hpre)
    rw [run_append]
    exact ((handle_keeps_iff hbefore r).mpr (hharmless pre r hpre)).2 hfails

def blankEntry : StaCapaEntry := ⟨Vector.replicate 6 0, 0, 0, fun _ => none⟩

/-- An element of five bytes with one byte in it. -/
def brokenRequest (kind : Kind) : Request where
  kind
  sa := Vector.replicate 6 2
  ies := [0, 5, 65]
  entry := some blankEntry

def goodRequest : Request where
  kind := .probe
  sa := Vector.replicate 6 2
  ies := [0, 1, 65]
  entry := some blankEntry

/-- A broken probe request of a new station is counted without an entry; a broken association
request of a listed station loses the SSID that is stored. -/
theorem broken_requests_leave_traces :
    (brokenRequest .probe).Fails ∧
    (run [brokenRequest .probe]).sta_capa_count = 1 ∧
    (run [brokenRequest .probe]).sta_capa_list.length = 0 ∧
    (brokenRequest .assoc).Fails ∧
    ((run [goodRequest]).sta_capa_list.map (fun e => e.elems .ssid)) = [some [65]] ∧
    ((run [goodRequest, brokenRequest .assoc]).sta_capa_list.map (fun e => e.elems .ssid)) =
      [none] := by
  decide +kernel

end Nxwlan.CapaDatabase
