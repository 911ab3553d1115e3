import Nxwlan.CapaDatabase
import Nxwlan.MarkerScans

/-!
The bands of a station in the capability database. While hostapd prints the database it looks
for RF Bands attributes in the WPS element of every entry: a loop over the bytes of the element
that looks up to four bytes ahead.
-/
namespace Nxwlan.RfBands

open CapaDatabase MarkerScans
open Base64 (Bytes)
open ClientBlacklist (Mac)

/-- The branches for the value of an RF Bands attribute. -/
def setBands (entry : StaCapaEntry) (value : UInt8) : StaCapaEntry :=
  if value = 0x03 then { entry with probe_fiveghz_rec := 1, probe_twoghz_rec := 1 }
  else if value = 0x01 then { entry with probe_twoghz_rec := 1 }
  else if value = 0x02 then { entry with probe_fiveghz_rec := 1 }
  else entry

/-- One round of the loop, with the indices of `wps_ie` that it reads. -/
def checkRound (wps_ie : ℕ → UInt8) (entry : StaCapaEntry) (i : ℕ) : StaCapaEntry × List ℕ :=
  if wps_ie i = 0x10 then
    if wps_ie (i + 1) = 0x3c then
      if wps_ie (i + 2) = 0x00 then
        if wps_ie (i + 3) = 0x01 then
          (setBands entry (wps_ie (i + 4)), [i, i + 1, i + 2, i + 3, i + 4])
        else (entry, [i, i + 1, i + 2, i + 3])
      else (entry, [i, i + 1, i + 2])
    else (entry, [i, i + 1])
  else (entry, [i])

/-- The loop over some indices. -/
def checkLoop (wps_ie : ℕ → UInt8) (entry : StaCapaEntry) (indices : List ℕ) :
    StaCapaEntry × List ℕ :=
  indices.foldl (fun s i =>
    let round := checkRound wps_ie s.1 i
    (round.1, s.2 ++ round.2)) (entry, [])

/-- The check of one entry; `behind` is what the memory holds behind the element. -/
def checkRfBands (behind : ℕ → UInt8) (entry : StaCapaEntry) : StaCapaEntry × List ℕ :=
  match entry.elems .wps_ie with
  | none => (entry, [])
  | some wps_ie => checkLoop (memory wps_ie behind) entry (List.range wps_ie.length)

/-- The walk over the entries; it ends with the one that does not fit into the reply any more,
and `walked` counts the entries to there. -/
def checkEntries (behind : Mac → ℕ → UInt8) : ℕ → List StaCapaEntry → List StaCapaEntry
  | walked + 1, entry :: entries =>
      (checkRfBands (behind entry.mac) entry).1 :: checkEntries behind walked entries
  | _, entries => entries

/-- The part of `hostapd_ctrl_iface_print_sta_capa` that changes the database. -/
def hostapd_ctrl_iface_print_sta_capa (behind : Mac → ℕ → UInt8) (walked : ℕ) (db : CapaDb) :
    CapaDb :=
  { db with sta_capa_list := checkEntries behind walked db.sta_capa_list }

/-- What happens to the database: requests come in, and it is printed. -/
inductive Event where
  | request (r : Request)
  | print (behind : Mac → ℕ → UInt8) (walked : ℕ)

def step (db : CapaDb) : Event → CapaDb
  | .request r => handle db r
  | .print behind walked => hostapd_ctrl_iface_print_sta_capa behind walked db

/-- The bytes of the WPS element, none if there is no element. -/
def wpsIe (entry : StaCapaEntry) : Bytes := (entry.elems .wps_ie).getD []

/-- Identifier and length of the attribute. -/
def rfBandsHead : Bytes := [0x10, 0x3c, 0x00, 0x01]

/-- The element contains a complete attribute with the value. -/
def HasBands (wps_ie : Bytes) (value : UInt8) : Prop := rfBandsHead ++ [value] <:+: wps_ie

instance (wps_ie : Bytes) (value : UInt8) : Decidable (HasBands wps_ie value) :=
  inferInstanceAs (Decidable (_ <:+: _))

/-- The check reads the element alone, and sets the flags as its attributes say. -/
structure ChecksBands (behind : ℕ → UInt8) (entry : StaCapaEntry) : Prop where
  inBounds : ∀ j ∈ (checkRfBands behind entry).2, j < (wpsIe entry).length
  fiveghz : (checkRfBands behind entry).1.probe_fiveghz_rec =
    if HasBands (wpsIe entry) 2 ∨ HasBands (wpsIe entry) 3 then 1 else entry.probe_fiveghz_rec
  twoghz : (checkRfBands behind entry).1.probe_twoghz_rec =
    if HasBands (wpsIe entry) 1 ∨ HasBands (wpsIe entry) 3 then 1 else entry.probe_twoghz_rec

section Loop

/-- A round is a search for the letter behind the head of the attribute. -/
theorem checkRound_eq (wps_ie : ℕ → UInt8) (entry : StaCapaEntry) (i : ℕ) :
    checkRound wps_ie entry i =
      ((letterBehind wps_ie rfBandsHead i).2.elim entry (setBands entry),
        (letterBehind wps_ie rfBandsHead i).1) := by
  simp only [checkRound, rfBandsHead, letterBehind]
  split_ifs
  all_goals rfl

/-- Round by round the flags are set for the values that are found. -/
theorem checkLoop_eq (wps_ie : ℕ → UInt8) (entry : StaCapaEntry) (indices : List ℕ) :
    checkLoop wps_ie entry indices =
      ((found wps_ie rfBandsHead indices).foldl setBands entry,
        reads wps_ie rfBandsHead indices) := by
  induction indices using List.reverseRecOn with
  | nil => rfl
  | append_singleton indices i ih =>
    rw [checkLoop] at ih ⊢
    rw [List.foldl_append, ih, List.foldl_cons, List.foldl_nil]
    dsimp only
    rw [checkRound_eq, found, reads, found, reads, List.filterMap_append, List.foldl_append,
      List.flatMap_append]
    cases hround : (letterBehind wps_ie rfBandsHead i).2 with
    | none => simp [hround]
    | some value => simp [hround]

/-- Each flag on its own. -/
theorem setBands_eq (entry : StaCapaEntry) (value : UInt8) :
    setBands entry value =
      { entry with
        probe_fiveghz_rec := if 2 = value ∨ 3 = value then 1 else entry.probe_fiveghz_rec
        probe_twoghz_rec := if 1 = value ∨ 3 = value then 1 else entry.probe_twoghz_rec } := by
  rw [setBands]
  by_cases h3 : value = 3
  · simp [h3]
  by_cases h1 : value = 1
  · simp [h1]
  by_cases h2 : value = 2
  · simp [h2]
  simp [h3, h1, h2, eq_comm (b := value)]

theorem foldl_setBands (values : List UInt8) (entry : StaCapaEntry) :
    values.foldl setBands entry =
      { entry with
        probe_fiveghz_rec := if 2 ∈ values ∨ 3 ∈ values then 1 else entry.probe_fiveghz_rec
        probe_twoghz_rec := if 1 ∈ values ∨ 3 ∈ values then 1 else entry.probe_twoghz_rec } := by
  induction values generalizing entry with
  | nil => simp
  | cons value values ih =>
    have hmem : ∀ a b : UInt8, (a ∈ value :: values ∨ b ∈ value :: values) ↔
        (a ∈ values ∨ b ∈ values) ∨ (a = value ∨ b = value) := by
      intro a b
      rw [List.mem_cons, List.mem_cons, or_or_or_comm, or_comm]
    rw [List.foldl_cons, ih, setBands_eq]
    simp only [hmem, ite_or]

/-- The check of an entry is a search through its element. -/
theorem checkRfBands_eq (behind : ℕ → UInt8) (entry : StaCapaEntry) :
    checkRfBands behind entry =
      ((found (memory (wpsIe entry) behind) rfBandsHead
          (List.range (wpsIe entry).length)).foldl setBands entry,
        reads (memory (wpsIe entry) behind) rfBandsHead (List.range (wpsIe entry).length)) := by
  rw [checkRfBands, wpsIe]
  cases hie : entry.elems .wps_ie with
  | none => rfl
  | some wps_ie => exact checkLoop_eq _ _ _

end Loop

section Elements

variable (behind : ℕ → UInt8) (entry : StaCapaEntry)

/-- The check reads the element alone and sets the flags by its attributes exactly when the
element does not end within the head of an attribute. -/
theorem checksBands_iff : ChecksBands behind entry ↔ ¬ EndsIn rfBandsHead (wpsIe entry) := by
  rw [← reads_lt_iff (wpsIe entry) rfBandsHead behind]
  constructor
  · intro h
    have hbounds := h.inBounds
    rwa [checkRfBands_eq] at hbounds
  · intro hbounds
    have hends := (reads_lt_iff (wpsIe entry) rfBandsHead behind).mp hbounds
    have hfound : ∀ value, value ∈ found (memory (wpsIe entry) behind) rfBandsHead
        (List.range (wpsIe entry).length) ↔ HasBands (wpsIe entry) value :=
      fun value => mem_found_iff behind hends
    refine ⟨?_, ?_, ?_⟩
    · rwa [checkRfBands_eq]
    · rw [checkRfBands_eq, foldl_setBands]
      simp only [hfound]
    · rw [checkRfBands_eq, foldl_setBands]
      simp only [hfound]

/-- A well-formed request: a WPS element that ends with the first byte of a head, an element
without data and the supported rates. -/
def ratesRequest : Request where
  kind := .probe
  sa := Vector.replicate 6 2
  ies := [0xdd, 5, 0x00, 0x50, 0xf2, 0x04, 0x10, 0x3c, 0, 0x01, 3, 0x02, 0x04, 0x0b]
  entry := some blankEntry

/-- Behind the data of the WPS element stand the other elements. -/
def ratesBehind (i : ℕ) : UInt8 := ratesRequest.ies[2 + i]?.getD 0

/-- The loop reads on in the other elements and takes them for an attribute: a station that sent
none is listed with the 5 GHz band. -/
theorem rates_set_the_band :
    ¬ ratesRequest.Fails ∧
    (run [ratesRequest]).sta_capa_list.map wpsIe = [[0x00, 0x50, 0xf2, 0x04, 0x10]] ∧
    ∀ entry ∈ (run [ratesRequest]).sta_capa_list,
      (checkRfBands ratesBehind entry).2 = [0, 1, 2, 3, 4, 5, 6, 7, 8] ∧
      entry.probe_fiveghz_rec = 0 ∧
      (checkRfBands ratesBehind entry).1.probe_fiveghz_rec = 1 ∧
      ¬ ChecksBands ratesBehind entry := by
  have helement : ∀ entry ∈ (run [ratesRequest]).sta_capa_list, (wpsIe entry).length = 5 := by
    decide +kernel
  have hcheck : ∀ entry ∈ (run [ratesRequest]).sta_capa_list,
      (checkRfBands ratesBehind entry).2 = [0, 1, 2, 3, 4, 5, 6, 7, 8] ∧
      entry.probe_fiveghz_rec = 0 ∧
      (checkRfBands ratesBehind entry).1.probe_fiveghz_rec = 1 := by
    decide +kernel
  refine ⟨by decide +kernel, by decide +kernel, fun entry hentry => ?_⟩
  obtain ⟨hreads, hbefore, hafter⟩ := hcheck entry hentry
  refine ⟨hreads, hbefore, hafter, fun h => ?_⟩
  have hlast : 8 < (wpsIe entry).length := h.inBounds 8 (by rw [hreads]; decide)
  rw [helement entry hentry] at hlast
  exact absurd hlast (by decide)

theorem checkRfBands_mac : (checkRfBands behind entry).1.mac = entry.mac := by
  rw [checkRfBands_eq, foldl_setBands]

theorem checkRfBands_elems : (checkRfBands behind entry).1.elems = entry.elems := by
  rw [checkRfBands_eq, foldl_setBands]

/-- Another check of the same element leaves the flags. -/
theorem checkRfBands_again :
    (checkRfBands behind (checkRfBands behind entry).1).1 = (checkRfBands behind entry).1 := by
  have hie : wpsIe (checkRfBands behind entry).1 = wpsIe entry := by
    rw [wpsIe, checkRfBands_elems, wpsIe]
  rw [checkRfBands_eq behind (checkRfBands behind entry).1, hie, checkRfBands_eq behind entry]
  simp only [foldl_setBands]
  congr 1
  · split <;> rfl
  · split <;> rfl

end Elements

section Database

variable {db : CapaDb}

theorem checkEntries_macs (behind : Mac → ℕ → UInt8) (walked : ℕ) (entries : List StaCapaEntry) :
    (checkEntries behind walked entries).map StaCapaEntry.mac =
      entries.map StaCapaEntry.mac := by
  fun_induction checkEntries behind walked entries with
  | case1 walked entry entries ih =>
    rw [List.map_cons, List.map_cons, ih, checkRfBands_mac]
  | case2 => rfl

/-- Printing the database a second time changes nothing. -/
theorem checkEntries_again (behind : Mac → ℕ → UInt8) (walked : ℕ) (entries : List StaCapaEntry) :
    checkEntries behind walked (checkEntries behind walked entries) =
      checkEntries behind walked entries := by
  fun_induction checkEntries behind walked entries with
  | case1 walked entry entries ih =>
    rw [checkEntries, ih, checkRfBands_mac, checkRfBands_again]
  | case2 walked entries hend =>
    rw [checkEntries]
    exact hend

theorem print_distinct (hdb : MacsDistinct db) (behind : Mac → ℕ → UInt8) (walked : ℕ) :
    MacsDistinct (hostapd_ctrl_iface_print_sta_capa behind walked db) := by
  rw [MacsDistinct, hostapd_ctrl_iface_print_sta_capa, checkEntries_macs]
  exact hdb

theorem print_consistent (hdb : Consistent db) (behind : Mac → ℕ → UInt8) (walked : ℕ) :
    Consistent (hostapd_ctrl_iface_print_sta_capa behind walked db) := by
  have hlength := congrArg List.length (checkEntries_macs behind walked db.sta_capa_list)
  rw [List.length_map, List.length_map] at hlength
  exact ⟨print_distinct hdb.distinct behind walked, hdb.count.trans hlength.symm⟩

theorem step_distinct (hdb : MacsDistinct db) (event : Event) : MacsDistinct (step db event) := by
  cases event with
  | request r => exact handle_distinct hdb r
  | print behind walked => exact print_distinct hdb behind walked

/-- In every run of requests and prints each address is listed at most once. -/
theorem events_distinct (events : List Event) : MacsDistinct (events.foldl step {}) := by
  induction events using List.reverseRecOn with
  | nil => exact List.nodup_nil
  | append_singleton events event ih =>
    rw [List.foldl_append]
    exact step_distinct ih event

end Database

end Nxwlan.RfBands
