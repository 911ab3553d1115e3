import Nxwlan.AgentThreads
import Nxwlan.KeyChanges

/-!
The verdict of a rescan and the entry that a key change leaves. `rescan_neighbor` finds out
from its loop counter whether the search was successful, so that a key that only the last
scan shows is taken over and the neighbor removed.
-/
namespace Nxwlan.KeyRollover

open JsonFrames AgentState AgentThreads Forwarder Messaging PyText Rescans ReceiveLoop KeyChanges
open Base64 (Bytes)
open ProbeRequests (Ended)

variable {out : Outside} {me : Identity} {a : Agent} {host ssid : String} {freq : ℤ}
  {e r r' : Neighbor} {key : Bytes} {k k' left cc retries : ℕ}

/-- The results of a scan are a dictionary by address. -/
def ByAddress (results : List Neighbor) : Prop := (results.map Neighbor.ipAddress).Nodup

/-- Scan `k` shows the host with another key, in the result `r`. -/
def Shows (out : Outside) (freq : ℤ) (ssid host : String) (key : Bytes) (k : ℕ) (r : Neighbor) :
    Prop :=
  ∃ results, out.performActiveScan freq ssid k = .ok results ∧ ByAddress results ∧ r ∈ results ∧
    r.ipAddress = host ∧ r.encryptionKey ≠ key

/-- Scan `k` is the first one that does. -/
structure FirstShown (out : Outside) (freq : ℤ) (ssid host : String) (key : Bytes) (k : ℕ)
    (r : Neighbor) : Prop where
  before : ∀ j < k, QuietScan out freq ssid host key j
  shown : Shows out freq ssid host key k r

theorem Shows.keyScan (h : Shows out freq ssid host key k r) : KeyScan out freq ssid host key k := by
  obtain ⟨results, hscan, -, hr, hip, hkey⟩ := h
  exact ⟨results, hscan, r, hr, hip, hkey⟩

/-- Results of one dictionary with the same address are the same. -/
theorem eq_of_byAddress {results : List Neighbor} (h : ByAddress results) (hr : r ∈ results)
    (hr' : r' ∈ results) (hip : r.ipAddress = r'.ipAddress) : r = r' :=
  List.inj_on_of_nodup_map h hr hr' hip

theorem FirstShown.unique (h : FirstShown out freq ssid host key k r)
    (h' : FirstShown out freq ssid host key k' r') : k = k' ∧ r = r' := by
  obtain rfl : k = k' := by
    rcases Nat.lt_trichotomy k k' with hlt | heq | hlt
    · exact absurd h.shown.keyScan (h'.before k hlt).not_keyScan
    · exact heq
    · exact absurd h'.shown.keyScan (h.before k' hlt).not_keyScan
  obtain ⟨results, hscan, hdict, hr, hip, -⟩ := h.shown
  obtain ⟨results', hscan', -, hr', hip', -⟩ := h'.shown
  obtain rfl : results = results' := Except.ok.inj (hscan.symm.trans hscan')
  exact ⟨rfl, eq_of_byAddress hdict hr hr' (hip.trans hip'.symm)⟩

/-- Every scan returns a dictionary by address. -/
def ScansReturn (out : Outside) (freq : ℤ) (ssid : String) (retries : ℕ) : Prop :=
  ∀ k < retries, ∃ results, out.performActiveScan freq ssid k = .ok results ∧ ByAddress results

theorem firstShown_or_quiet (hscans : ScansReturn out freq ssid retries) :
    (∃ k r, k < retries ∧ FirstShown out freq ssid host key k r) ∨
      ∀ k < retries, QuietScan out freq ssid host key k := by
  induction retries with
  | zero => exact Or.inr (fun k hk => absurd hk (Nat.not_lt_zero k))
  | succ retries ih =>
    rcases ih (fun k hk => hscans k (by omega)) with ⟨k, r, hk, hfirst⟩ | hquiet
    · exact Or.inl ⟨k, r, by omega, hfirst⟩
    · obtain ⟨results, hscan, hdict⟩ := hscans retries (by omega)
      rcases scan_cases out freq ssid host key retries with ⟨err, herr⟩ | hlast | hlast
      · rw [hscan] at herr
        cases herr
      · right
        intro k hk
        rcases Nat.lt_or_eq_of_le (Nat.le_of_lt_succ hk) with hlt | rfl
        · exact hquiet k hlt
        · exact hlast
      · obtain ⟨results', hscan', r, hr, hip, hkey⟩ := hlast
        obtain rfl : results = results' := Except.ok.inj (hscan.symm.trans hscan')
        exact Or.inl ⟨retries, r, by omega, hquiet, results, hscan, hdict, hr, hip, hkey⟩

/-- The results of the scan that shows another key: the entry is renewed from `r` alone. -/
theorem rescanResults_shown {results : List Neighbor} {found : Bool}
    (h : a.globalNeighborList.lookup host = some e) (hdict : ByAddress results) (hr : r ∈ results)
    (hip : r.ipAddress = host) (hkey : r.encryptionKey ≠ e.encryptionKey) :
    rescanResults out me host results found a =
      (Agent.putNeighbor a host (renewed e r), .ok true) := by
  induction results with
  | nil => cases hr
  | cons r₀ rest ih =>
    rw [ByAddress, List.map_cons, List.nodup_cons] at hdict
    obtain ⟨hnew, hrest⟩ := hdict
    rcases List.mem_cons.mp hr with rfl | hmem
    · -- no later result is for the host
      have hquiet : ∀ r' ∈ rest, r'.ipAddress = host →
          r'.encryptionKey = (renewed e r).encryptionKey := by
        intro r' hr' hip'
        exact absurd (List.mem_map.mpr ⟨r', hr', hip'.trans hip.symm⟩) hnew
      rw [rescanResults_new h hip hkey,
        rescanResults_quiet rest true (lookup_putNeighbor host a _) hquiet]
    · have hother : r₀.ipAddress ≠ host := by
        intro heq
        exact hnew (List.mem_map.mpr ⟨r, hmem, hip.trans heq.symm⟩)
      rw [rescanResults_skip h (fun heq => absurd heq hother)]
      exact ih hrest hmem

theorem rescanLoop_quiet (h : a.globalNeighborList.lookup host = some e)
    (hquiet : ∀ j, cc ≤ j → j < cc + left → QuietScan out freq ssid host e.encryptionKey j) :
    rescanLoop out me freq ssid host left cc a = (a, .ok (cc + left - 1)) := by
  induction left generalizing cc with
  | zero => rfl
  | succ left ih =>
    obtain ⟨results, hscan, hres⟩ := hquiet cc (le_refl cc) (by omega)
    simp only [rescanLoop, hscan, rescanResults_quiet results false h hres]
    rw [ih (fun j hj hjl => hquiet j (by omega) (by omega))]
    congr 2
    omega

theorem rescanLoop_shown (h : a.globalNeighborList.lookup host = some e)
    (hfirst : FirstShown out freq ssid host e.encryptionKey k r) (hcc : cc ≤ k)
    (hk : k < cc + left) : rescanLoop out me freq ssid host left cc a =
      (Agent.putNeighbor a host (renewed e r), .ok k) := by
  induction left generalizing cc with
  | zero => omega
  | succ left ih =>
    rcases Nat.eq_or_lt_of_le hcc with rfl | hlt
    · obtain ⟨results, hscan, hdict, hr, hip, hkey⟩ := hfirst.shown
      simp only [rescanLoop, hscan, rescanResults_shown h hdict hr hip hkey]
    · obtain ⟨results, hscan, hres⟩ := hfirst.before cc hlt
      simp only [rescanLoop, hscan, rescanResults_quiet results false h hres]
      exact ih hlt (by omega)

/-- The search ends in time: the neighbor is kept. -/
theorem rescan_neighbor_shown (h : a.globalNeighborList.lookup host = some e)
    (hfirst : FirstShown out freq ssid host e.encryptionKey k r) (hk : k + 1 < retries) :
    rescan_neighbor out me a freq ssid host retries =
      (Agent.putNeighbor a host (renewed e r), .ok true) := by
  have hrun : rescanLoop out me freq ssid host retries 0 a = _ :=
    rescanLoop_shown h hfirst (Nat.zero_le k) (by omega)
  simp only [rescan_neighbor, hrun]
  rw [if_neg (by omega), if_neg (by omega)]

/-- The counter stands at the last scan: the neighbor leaves. -/
theorem rescan_neighbor_leaves {b : Agent} (hretries : 1 ≤ retries)
    (hrun : rescanLoop out me freq ssid host retries 0 a = (b, .ok (retries - 1))) :
    rescan_neighbor out me a freq ssid host retries =
      ((onAPLeft out b host).1, (onAPLeft out b host).2.map (fun _ => false)) := by
  rw [rescan_neighbor_eq (by omega), hrun]
  dsimp only
  rw [if_pos rfl]
  rcases hleft : onAPLeft out b host with ⟨c, result⟩
  cases result with
  | error err => rfl
  | ok u => rfl

theorem rescan_neighbor_late (h : a.globalNeighborList.lookup host = some e)
    (hfirst : FirstShown out freq ssid host e.encryptionKey k r) (hk : k + 1 = retries) :
    rescan_neighbor out me a freq ssid host retries =
      ((onAPLeft out (Agent.putNeighbor a host (renewed e r)) host).1,
        (onAPLeft out (Agent.putNeighbor a host (renewed e r)) host).2.map (fun _ => false)) := by
  apply rescan_neighbor_leaves (by omega)
  have hlast : retries - 1 = k := by omega
  rw [rescanLoop_shown h hfirst (Nat.zero_le k) (by omega), hlast]

theorem rescan_neighbor_quiet (hretries : 1 ≤ retries)
    (h : a.globalNeighborList.lookup host = some e)
    (hquiet : ∀ k < retries, QuietScan out freq ssid host e.encryptionKey k) :
    rescan_neighbor out me a freq ssid host retries =
      ((onAPLeft out a host).1, (onAPLeft out a host).2.map (fun _ => false)) := by
  apply rescan_neighbor_leaves hretries
  rw [rescanLoop_quiet h (fun j _ hj => hquiet j (by omega)), Nat.zero_add]

/-- The verdict that a rescan is for: the neighbor is removed and False returned when no scan
shows another key, and only then; else it is kept with the new key and True returned. -/
def RightVerdict (out : Outside) (me : Identity) (a : Agent) (freq : ℤ) (ssid host : String)
    (key : Bytes) (retries : ℕ) : Prop :=
  ((rescan_neighbor out me a freq ssid host retries).1.globalNeighborList.lookup host = none ∧
      (rescan_neighbor out me a freq ssid host retries).2 = .ok false ↔
    ∀ k < retries, ¬ KeyScan out freq ssid host key k) ∧
  ((∃ k < retries, KeyScan out freq ssid host key k) →
    (rescan_neighbor out me a freq ssid host retries).2 = .ok true ∧
      ∃ k r e', FirstShown out freq ssid host key k r ∧
        (rescan_neighbor out me a freq ssid host retries).1.globalNeighborList.lookup host =
          some e' ∧ e'.encryptionKey = r.encryptionKey)

theorem map_false_ok_iff {result : Except PyError Unit} :
    result.map (fun _ => false) = .ok false ↔ result = .ok () := by
  cases result with
  | error err => simp [Except.map]
  | ok u => simp [Except.map]

theorem rightVerdict_quiet_iff (hretries : 1 ≤ retries) (h : a.globalNeighborList.lookup host = some e)
    (hquiet : ∀ k < retries, QuietScan out freq ssid host e.encryptionKey k) :
    RightVerdict out me a freq ssid host e.encryptionKey retries ↔ Removable out a host := by
  have hsome : (a.globalNeighborList.lookup host).isSome = true := by rw [h]; rfl
  have hnone : ∀ k < retries, ¬ KeyScan out freq ssid host e.encryptionKey k :=
    fun k hk => (hquiet k hk).not_keyScan
  rw [RightVerdict, rescan_neighbor_quiet hretries h hquiet, map_false_ok_iff, onAPLeft_ok_iff _ _ _ hsome]
  constructor
  · rintro ⟨hremoved, -⟩
    exact (hremoved.mpr hnone).2
  · intro hrem
    refine ⟨iff_of_true ⟨?_, hrem⟩ hnone, ?_⟩
    · rw [onAPLeft_host, if_pos hrem.1]
    · rintro ⟨k, hk, hkey⟩
      exact absurd hkey (hnone k hk)

theorem rightVerdict_shown_iff (h : a.globalNeighborList.lookup host = some e)
    (hfirst : FirstShown out freq ssid host e.encryptionKey k r) (hk : k < retries) :
    RightVerdict out me a freq ssid host e.encryptionKey retries ↔
      k + 1 < retries ∧ r.encryptionKey ≠ [] := by
  have hkey : ∃ k < retries, KeyScan out freq ssid host e.encryptionKey k :=
    ⟨k, hk, hfirst.shown.keyScan⟩
  constructor
  · rintro ⟨-, hkept⟩
    obtain ⟨htrue, k', r', e', hfirst', hlook, hnew⟩ := hkept hkey
    obtain ⟨rfl, rfl⟩ := hfirst.unique hfirst'
    have hearly : k + 1 < retries := by
      by_contra hlate
      rw [rescan_neighbor_late h hfirst (by omega)] at htrue
      cases hleft : (onAPLeft out (Agent.putNeighbor a host (renewed e r)) host).2 with
      | error err => simp [hleft, Except.map] at htrue
      | ok u => simp [hleft, Except.map] at htrue
    refine ⟨hearly, ?_⟩
    intro hempty
    rw [rescan_neighbor_shown h hfirst hearly, lookup_putNeighbor, Option.some.injEq] at hlook
    -- an empty key is not copied
    have hsame : e'.encryptionKey = e.encryptionKey := by
      rw [← hlook]
      simp [renewed, Neighbor.update, hempty]
    obtain ⟨results, -, -, -, -, hne⟩ := hfirst.shown
    exact hne (hnew.symm.trans hsame)
  · rintro ⟨hearly, hne⟩
    rw [RightVerdict, rescan_neighbor_shown h hfirst hearly]
    refine ⟨iff_of_false (fun hfalse => by cases hfalse.2) ?_, fun _ => ⟨rfl, ?_⟩⟩
    · intro hnone
      obtain ⟨k', hk', hkey'⟩ := hkey
      exact hnone k' hk' hkey'
    · refine ⟨k, r, renewed e r, hfirst, lookup_putNeighbor host a _, ?_⟩
      simp [renewed, Neighbor.update, hne]

/-- The verdict is right when another key, and not an empty one, is first shown before the last
scan, or when none is shown and the neighbor can be removed. -/
theorem rescan_verdict_iff (out : Outside) (me : Identity) (a : Agent) (freq : ℤ)
    (ssid host : String) (e : Neighbor) (retries : ℕ) (hretries : 1 ≤ retries)
    (hpresent : a.globalNeighborList.lookup host = some e)
    (hscans : ScansReturn out freq ssid retries) :
    RightVerdict out me a freq ssid host e.encryptionKey retries ↔
      (∃ k r, k + 1 < retries ∧ FirstShown out freq ssid host e.encryptionKey k r ∧
        r.encryptionKey ≠ []) ∨
      ((∀ k < retries, QuietScan out freq ssid host e.encryptionKey k) ∧ Removable out a host) := by
  rcases firstShown_or_quiet hscans with ⟨k, r, hk, hfirst⟩ | hquiet
  · rw [rightVerdict_shown_iff hpresent hfirst hk]
    constructor
    · rintro ⟨hearly, hne⟩
      exact Or.inl ⟨k, r, hearly, hfirst, hne⟩
    · rintro (⟨k', r', hearly, hfirst', hne⟩ | ⟨hquiet, -⟩)
      · obtain ⟨rfl, rfl⟩ := hfirst.unique hfirst'
        exact ⟨hearly, hne⟩
      · exact absurd hfirst.shown.keyScan (hquiet k hk).not_keyScan
  · rw [rightVerdict_quiet_iff hretries hpresent hquiet]
    constructor
    · exact fun hrem => Or.inr ⟨hquiet, hrem⟩
    · rintro (⟨k, r, hearly, hfirst, -⟩ | ⟨-, hrem⟩)
      · exact absurd hfirst.shown.keyScan (hquiet k (by omega)).not_keyScan
      · exact hrem

/-- "10.0.0.2" with a key of its own, seen at time 7. -/
def rolledOver : Neighbor :=
  { ipAddress := "10.0.0.2", encryptionKey := List.replicate 16 9,
    encryptionIV := List.replicate 16 8, rssiProbeResponse := -40, timestampLastKCM := 7 }

/-- Only scan `n` shows it. -/
def shownAt (n : ℕ) : Outside :=
  { PublishedFrames.quietOutside with
    performActiveScan := fun _ _ k => .ok (if k = n then [rolledOver] else []) }

theorem shownAt_returns (n : ℕ) (freq : ℤ) (ssid : String) (retries : ℕ) :
    ScansReturn (shownAt n) freq ssid retries := by
  intro k _
  refine ⟨_, rfl, ?_⟩
  split
  · exact List.nodup_singleton _
  · exact List.nodup_nil

theorem shownAt_first (freq : ℤ) (ssid : String) :
    FirstShown (shownAt 0) freq ssid "10.0.0.2" PublishedFrames.sampleKey 0 rolledOver :=
  ⟨fun j hj => absurd hj (Nat.not_lt_zero j), [rolledOver], rfl, List.nodup_singleton _,
    List.mem_cons_self, rfl, by decide⟩

theorem rescan_verdict_in_time : RightVerdict (shownAt 0) PublishedFrames.sampleIdentity twoNeighbors
    2412 "home" "10.0.0.2" PublishedFrames.sampleKey 2 := by
  have hpresent : ∃ e, twoNeighbors.globalNeighborList.lookup "10.0.0.2" = some e ∧
      e.encryptionKey = PublishedFrames.sampleKey := ⟨_, rfl, rfl⟩
  obtain ⟨e, he, hkey⟩ := hpresent
  rw [← hkey]
  refine (rescan_verdict_iff (shownAt 0) PublishedFrames.sampleIdentity twoNeighbors 2412 "home"
    "10.0.0.2" e 2 (by decide) he (shownAt_returns 0 2412 "home" 2)).mpr (Or.inl ?_)
  rw [hkey]
  exact ⟨0, rolledOver, by decide, shownAt_first 2412 "home", by decide⟩

/-- The only scan shows the new key, and the neighbor is removed all the same. -/
theorem rescan_verdict_last_scan :
    KeyScan (shownAt 0) 2412 "home" "10.0.0.2" PublishedFrames.sampleKey 0 ∧
    (rescan_neighbor (shownAt 0) PublishedFrames.sampleIdentity twoNeighbors 2412 "home" "10.0.0.2"
      1).2 = .ok false ∧
    (rescan_neighbor (shownAt 0) PublishedFrames.sampleIdentity twoNeighbors 2412 "home" "10.0.0.2"
      1).1.globalNeighborList.lookup "10.0.0.2" = none ∧
    ¬ RightVerdict (shownAt 0) PublishedFrames.sampleIdentity twoNeighbors 2412 "home" "10.0.0.2"
      PublishedFrames.sampleKey 1 := by
  refine ⟨(shownAt_first 2412 "home").shown.keyScan, by decide, by decide, ?_⟩
  intro hright
  obtain ⟨htrue, -⟩ := hright.2 ⟨0, by decide, (shownAt_first 2412 "home").shown.keyScan⟩
  exact absurd htrue (by decide)

/-! The entry after a key change. -/

/-- What a scan of a neighbor can show, with the clock at `now` when the key change message was
taken up: keys and vectors of 16 bytes, a signal level, and the time of the scan. -/
def Recent (now : ℤ) (r : Neighbor) : Prop :=
  r.encryptionKey.length = 16 ∧ r.encryptionIV.length = 16 ∧ r.rssiProbeResponse ≠ 0 ∧
    now ≤ r.timestampLastKCM

def RecentScans (now : ℤ) (out : Outside) (freq : ℤ) (ssid : String) : Prop :=
  ∀ k results, out.performActiveScan freq ssid k = .ok results →
    ByAddress results ∧ ∀ r ∈ results, Recent now r

theorem ne_nil_of_length {bytes : Bytes} (h : bytes.length = 16) : bytes ≠ [] := by
  rintro rfl
  cases h

/-- The renewed entry has key, vector and time of the result, and keeps the key and the vector
it had. -/
theorem renewed_recent {now : ℤ} (h : Recent now r) :
    (renewed e r).encryptionKey = r.encryptionKey ∧ (renewed e r).encryptionIV = r.encryptionIV ∧
      (renewed e r).oldEncryptionKey = some e.encryptionKey ∧
      (renewed e r).oldEncryptionIV = some e.encryptionIV ∧
      now ≤ (renewed e r).timestampLastKCM := by
  obtain ⟨hkey, hiv, hrssi, htime⟩ := h
  simp [renewed, Neighbor.update, ne_nil_of_length hkey, ne_nil_of_length hiv, hrssi, htime]

/-- A rescan that returns: the host is gone, or its entry is the renewed one. -/
theorem rescan_neighbor_renews {world : World} (h : a.globalNeighborList.lookup host = some e)
    (hscans : RecentScans world.now world.outside freq ssid)
    (hok : ∃ b, (rescan_neighbor world.outside me a freq ssid host 10).2 = .ok b) :
    (rescan_neighbor world.outside me a freq ssid host 10).1.globalNeighborList.lookup host =
        none ∨
      ∃ k r, FirstShown world.outside freq ssid host e.encryptionKey k r ∧ Recent world.now r ∧
        (rescan_neighbor world.outside me a freq ssid host 10).1.globalNeighborList.lookup host =
          some (renewed e r) := by
  rcases (rescan_neighbor_ok_iff world.outside me freq ssid h).mp hok with
    ⟨k, hk, hq, results, hscan, r, hr, hip, hkey⟩ | ⟨hq, ⟨results, hscan⟩, hrem⟩
  · obtain ⟨hdict, hrecent⟩ := hscans k results hscan
    have hfirst : FirstShown world.outside freq ssid host e.encryptionKey k r :=
      ⟨hq, results, hscan, hdict, hr, hip, hkey⟩
    refine Or.inr ⟨k, r, hfirst, hrecent r hr, ?_⟩
    rw [rescan_neighbor_shown h hfirst (by omega), lookup_putNeighbor]
  · left
    rcases scan_cases world.outside freq ssid host e.encryptionKey 9 with ⟨err, herr⟩ | hlast | hlast
    · rw [hscan] at herr
      cases herr
    · have hall : ∀ k < 10, QuietScan world.outside freq ssid host e.encryptionKey k := by
        intro k hk
        rcases Nat.lt_or_eq_of_le (Nat.le_of_lt_succ hk) with hlt | rfl
        · exact hq k hlt
        · exact hlast
      rw [rescan_neighbor_quiet (by omega) h hall, onAPLeft_host, if_pos hrem.1]
    · -- the last scan shows another key: it is taken over and removed with its entry
      obtain ⟨results', hscan', r, hr, hip, hkey⟩ := hlast
      obtain rfl : results = results' := Except.ok.inj (hscan.symm.trans hscan')
      have hfirst : FirstShown world.outside freq ssid host e.encryptionKey 9 r :=
        ⟨hq, results, hscan, (hscans 9 results hscan).1, hr, hip, hkey⟩
      have hconn : (host, Port.fwd) ∈ (Agent.putNeighbor a host (renewed e r)).frontend := hrem.1
      rw [rescan_neighbor_late h hfirst rfl, onAPLeft_host, if_pos hconn]

/-- A key change message that names its sender: after the round the sender is gone, or it has
the key that a scan first showed beside its old one, and is not due to expire. -/
theorem key_rollover (p : Platform) (world : World) (me : Identity) (a a₁ : Agent) (f : Frame)
    (host ssid : String) (plain : Bytes) (freq : ℤ) (e : Neighbor)
    (hdelivered : receiveMessage p me a f = .ctrl plain) (hsub : f.sub_type = some (.str "kcm"))
    (hhost : f.host = some (.str host))
    (hwait : world.kcmWait (Agent.setNeighborMessage a true) = some a₁)
    (hnames : parseKcm (unicodeText plain) = .ok (freq, ssid, host))
    (hpresent : a₁.globalNeighborList.lookup host = some e)
    (hscans : RecentScans world.now world.outside freq ssid)
    (hended : (receiveRound p world me a f).ended = .returned) :
    (receiveRound p world me a f).agent.globalNeighborList.lookup host = none ∨
    ∃ k r e', FirstShown world.outside freq ssid host e.encryptionKey k r ∧
      (receiveRound p world me a f).agent.globalNeighborList.lookup host = some e' ∧
      e'.encryptionKey = r.encryptionKey ∧ e'.encryptionIV = r.encryptionIV ∧
      e'.oldEncryptionKey = some e.encryptionKey ∧ e'.oldEncryptionIV = some e.encryptionIV ∧
      world.now ≤ e'.timestampLastKCM ∧
      ∀ t ≤ world.now + 3 * keyChangeInterval,
        ¬ t - e'.timestampLastKCM > 3 * keyChangeInterval := by
  have hround : receiveRound p world me a f = handleKcm world me a₁ f (unicodeText plain) := by
    simp [receiveRound, hdelivered, hsub, handleCtrl, field, Json.isStr, hwait]
  have hsome : (a₁.globalNeighborList.lookup host).isSome = true := by rw [hpresent]; rfl
  obtain ⟨htable, hreturned, -⟩ := @handleKcm_known world me _ _ _ _ _ _ _ _ hnames hhost hsome hpresent
  rw [hround] at hended ⊢
  rw [htable]
  have hlook : (kcmUpdated world a₁ freq ssid host e).globalNeighborList.lookup host =
      some (e.update (kcmEntry world.now freq ssid host)) := lookup_putNeighbor host _ _
  have hkey : (e.update (kcmEntry world.now freq ssid host)).encryptionKey = e.encryptionKey := by
    simp [Neighbor.update, kcmEntry]
  have hiv : (e.update (kcmEntry world.now freq ssid host)).encryptionIV = e.encryptionIV := by
    simp [Neighbor.update, kcmEntry]
  rcases rescan_neighbor_renews hlook hscans (hreturned.mp hended) with hgone |
    ⟨k, r, hfirst, hrecent, hafter⟩
  · exact Or.inl hgone
  · rw [hkey] at hfirst
    obtain ⟨hnewkey, hnewiv, holdkey, holdiv, htime⟩ :=
      @renewed_recent (e.update (kcmEntry world.now freq ssid host)) r world.now hrecent
    rw [hkey] at holdkey
    rw [hiv] at holdiv
    refine Or.inr ⟨k, r, _, hfirst, hafter, hnewkey, hnewiv, holdkey, holdiv, htime, ?_⟩
    intro t ht
    omega

/-- The scans start after time 0 and show the new key of "10.0.0.2" at once. -/
def rolloverWorld : World := { quietReceive with outside := shownAt 0 }

theorem key_rollover_shown : ∃ k r e',
    FirstShown rolloverWorld.outside 2412 "home" "10.0.0.2" PublishedFrames.sampleKey k r ∧
    (receiveRound listPlatform rolloverWorld PublishedFrames.sampleIdentity twoNeighbors
      (kcmFrame "2412|home|10.0.0.2")).agent.globalNeighborList.lookup "10.0.0.2" = some e' ∧
    e'.encryptionKey = r.encryptionKey ∧ e'.encryptionIV = r.encryptionIV ∧
    e'.oldEncryptionKey = some PublishedFrames.sampleKey ∧
    e'.oldEncryptionIV = some PublishedFrames.sampleKey ∧ 0 ≤ e'.timestampLastKCM ∧
    ∀ t ≤ 0 + 3 * keyChangeInterval, ¬ t - e'.timestampLastKCM > 3 * keyChangeInterval := by
  have hscans : RecentScans rolloverWorld.now rolloverWorld.outside 2412 "home" := by
    intro k results hscan
    obtain rfl : (if k = 0 then [rolledOver] else []) = results := Except.ok.inj hscan
    split
    · refine ⟨List.nodup_singleton _, ?_⟩
      intro r hr
      rw [List.mem_singleton.mp hr]
      exact ⟨by decide, by decide, by decide, by decide⟩
    · exact ⟨List.nodup_nil, fun r hr => absurd hr List.not_mem_nil⟩
  have hkept : ((receiveRound listPlatform rolloverWorld PublishedFrames.sampleIdentity twoNeighbors
      (kcmFrame "2412|home|10.0.0.2")).agent.globalNeighborList.lookup "10.0.0.2").isSome = true := by
    decide
  refine (key_rollover listPlatform rolloverWorld PublishedFrames.sampleIdentity twoNeighbors _
    (kcmFrame "2412|home|10.0.0.2") "10.0.0.2" "home" (asciiBytes "2412|home|10.0.0.2".toList) 2412 _
    (by decide) rfl rfl rfl (by decide) rfl hscans (by decide)).resolve_left ?_
  intro hgone
  rw [hgone] at hkept
  cases hkept

end Nxwlan.KeyRollover
