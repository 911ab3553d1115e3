import Nxwlan.Forwarder

/-!
What a rescan of one neighbor does to the agent. Scans that show the known key
change nothing; the first one that shows another key renews the entry and ends
the search. A search that ends with the last scan, with or without a new key,
removes the neighbor. No entry but that of the host is touched.
-/
namespace Nxwlan.Rescans

open JsonFrames AgentState Forwarder
open Base64 (Bytes)

variable {out : Outside} {me : Identity} {a a' a'' : Agent} {host : String} {e : Neighbor}

/-- `a'` differs from `a` at most in the table entry of `host`. -/
structure EntryOnly (host : String) (a a' : Agent) : Prop where
  others : ∀ n, n ≠ host → a'.globalNeighborList.lookup n = a.globalNeighborList.lookup n
  rest : a' = { a with globalNeighborList := a'.globalNeighborList }

theorem EntryOnly.refl (host : String) (a : Agent) : EntryOnly host a a :=
  ⟨fun _ _ => rfl, rfl⟩

theorem EntryOnly.trans (h : EntryOnly host a a') (h' : EntryOnly host a' a'') :
    EntryOnly host a a'' := by
  refine ⟨fun n hn => (h'.others n hn).trans (h.others n hn), ?_⟩
  rw [h'.rest, h.rest]

theorem EntryOnly.putNeighbor (host : String) (a : Agent) (e : Neighbor) :
    EntryOnly host a (Agent.putNeighbor a host e) :=
  ⟨fun _ hn => AList.lookup_insert_ne hn, rfl⟩

theorem lookup_putNeighbor (host : String) (a : Agent) (e : Neighbor) :
    (Agent.putNeighbor a host e).globalNeighborList.lookup host = some e :=
  AList.lookup_insert a.globalNeighborList

/-- A known neighbor that joins again has its entry updated. -/
theorem onAPJoined_known {r : Neighbor}
    (h : a.globalNeighborList.lookup r.ipAddress = some e) :
    onAPJoined out me a [r] = Agent.putNeighbor a r.ipAddress (e.update r) := by
  simp [onAPJoined, joinOne, h, parse_existing_neighbor, Agent.putNeighbor]

/-- The entry after a scan result with another key: the key is kept as the old one
and the result is copied over it. -/
def renewed (e r : Neighbor) : Neighbor :=
  Neighbor.update { e with
    oldEncryptionKey := some e.encryptionKey, oldEncryptionIV := some e.encryptionIV } r

theorem rescanResults_new {r : Neighbor} {rest : List Neighbor} {found : Bool}
    (h : a.globalNeighborList.lookup host = some e) (hr : r.ipAddress = host)
    (hkey : r.encryptionKey ≠ e.encryptionKey) :
    rescanResults out me host (r :: rest) found a =
      rescanResults out me host rest true (Agent.putNeighbor a host (renewed e r)) := by
  subst hr
  simp only [rescanResults, if_true, h]
  rw [if_pos hkey, onAPJoined_known (AList.lookup_insert _)]
  simp only [Agent.putNeighbor, AList.insert_insert, renewed]

theorem rescanResults_skip {r : Neighbor} {rest : List Neighbor} {found : Bool}
    (h : a.globalNeighborList.lookup host = some e)
    (hr : r.ipAddress = host → r.encryptionKey = e.encryptionKey) :
    rescanResults out me host (r :: rest) found a = rescanResults out me host rest found a := by
  by_cases hip : r.ipAddress = host
  · simp [rescanResults, hip, h, hr hip]
  · simp [rescanResults, hip]

/-- Results without a new key of the host change nothing. -/
theorem rescanResults_quiet (results : List Neighbor) (found : Bool)
    (h : a.globalNeighborList.lookup host = some e)
    (hquiet : ∀ r ∈ results, r.ipAddress = host → r.encryptionKey = e.encryptionKey) :
    rescanResults out me host results found a = (a, .ok found) := by
  induction results with
  | nil => rfl
  | cons r rest ih =>
    rw [rescanResults_skip h (hquiet r (by simp))]
    exact ih (fun r' hr' => hquiet r' (by simp [hr']))

/-- Whatever a scan shows, only the host's entry changes, and it stays in the
table. -/
theorem rescanResults_known (out : Outside) (me : Identity) (results : List Neighbor) (found : Bool)
    (h : a.globalNeighborList.lookup host = some e) :
    ∃ a' e' found', rescanResults out me host results found a = (a', .ok found') ∧
      (found = true → found' = true) ∧ EntryOnly host a a' ∧
      a'.globalNeighborList.lookup host = some e' := by
  induction results generalizing a e found with
  | nil => exact ⟨a, e, found, rfl, id, .refl host a, h⟩
  | cons r rest ih =>
    by_cases hnew : r.ipAddress = host ∧ r.encryptionKey ≠ e.encryptionKey
    · obtain ⟨a', e', found', hrun, hfound, honly, hlook⟩ :=
        ih true (lookup_putNeighbor host a (renewed e r))
      rw [rescanResults_new h hnew.1 hnew.2]
      exact ⟨a', e', found', hrun, fun _ => hfound rfl, (EntryOnly.putNeighbor host a _).trans honly,
        hlook⟩
    · rw [rescanResults_skip h (by tauto)]
      exact ih found h

/-- A scan with a new key is reported. If it has one result per address and no empty
keys, the entry has another key afterwards. -/
theorem rescanResults_found (results : List Neighbor) (found : Bool)
    (h : a.globalNeighborList.lookup host = some e)
    (hnew : ∃ r ∈ results, r.ipAddress = host ∧ r.encryptionKey ≠ e.encryptionKey) :
    ∃ a' e', rescanResults out me host results found a = (a', .ok true) ∧
      EntryOnly host a a' ∧ a'.globalNeighborList.lookup host = some e' ∧
      ((results.map Neighbor.ipAddress).Nodup → (∀ r ∈ results, r.encryptionKey ≠ []) →
        e'.encryptionKey ≠ e.encryptionKey) := by
  induction results generalizing found with
  | nil => simp at hnew
  | cons r rest ih =>
    by_cases hr : r.ipAddress = host ∧ r.encryptionKey ≠ e.encryptionKey
    · have hlook := lookup_putNeighbor host a (renewed e r)
      obtain ⟨a', e', found', hrun, hfound, honly, hlook'⟩ :=
        rescanResults_known out me rest true hlook
      obtain rfl := hfound rfl
      refine ⟨a', e', ?_, (EntryOnly.putNeighbor host a _).trans honly, hlook', ?_⟩
      · rw [rescanResults_new h hr.1 hr.2, hrun]
      · intro hnodup hne
        -- no later result is for the host, so the entry is the renewed one
        have hrest : ∀ r' ∈ rest, r'.ipAddress = host →
            r'.encryptionKey = (renewed e r).encryptionKey := by
          intro r' hr' hip
          rw [List.map_cons, List.nodup_cons] at hnodup
          exact absurd (List.mem_map.mpr ⟨r', hr', hip.trans hr.1.symm⟩) hnodup.1
        rw [rescanResults_quiet rest true hlook hrest, Prod.mk.injEq] at hrun
        rw [← hrun.1, hlook] at hlook'
        rw [← Option.some.inj hlook']
        simpa [renewed, Neighbor.update, hne r (by simp)] using hr.2
    · rw [rescanResults_skip h (by tauto)]
      obtain ⟨r', hr', hip, hkey⟩ := hnew
      rcases List.mem_cons.mp hr' with rfl | hmem
      · exact absurd ⟨hip, hkey⟩ hr
      · obtain ⟨a', e', hrun, honly, hlook, hchanged⟩ := ih found ⟨r', hmem, hip, hkey⟩
        refine ⟨a', e', hrun, honly, hlook, ?_⟩
        intro hnodup hne
        rw [List.map_cons, List.nodup_cons] at hnodup
        exact hchanged hnodup.2 (fun r'' hr'' => hne r'' (by simp [hr'']))

/-- A scan that returns and shows the host, if at all, with the known key. -/
def QuietScan (out : Outside) (freq : ℤ) (ssid host : String) (key : Bytes) (k : ℕ) : Prop :=
  ∃ results, out.performActiveScan freq ssid k = .ok results ∧
    ∀ r ∈ results, r.ipAddress = host → r.encryptionKey = key

/-- A scan that returns and shows the host with another key. -/
def KeyScan (out : Outside) (freq : ℤ) (ssid host : String) (key : Bytes) (k : ℕ) : Prop :=
  ∃ results, out.performActiveScan freq ssid k = .ok results ∧
    ∃ r ∈ results, r.ipAddress = host ∧ r.encryptionKey ≠ key

theorem scan_cases (out : Outside) (freq : ℤ) (ssid host : String) (key : Bytes) (k : ℕ) :
    (∃ err, out.performActiveScan freq ssid k = .error err) ∨
      QuietScan out freq ssid host key k ∨ KeyScan out freq ssid host key k := by
  cases hscan : out.performActiveScan freq ssid k with
  | error err => exact Or.inl ⟨err, rfl⟩
  | ok results =>
    by_cases hnew : ∃ r ∈ results, r.ipAddress = host ∧ r.encryptionKey ≠ key
    · exact Or.inr (Or.inr ⟨results, hscan, hnew⟩)
    · refine Or.inr (Or.inl ⟨results, hscan, ?_⟩)
      intro r hr hip
      by_contra hkey
      exact hnew ⟨r, hr, hip, hkey⟩

theorem QuietScan.not_keyScan {freq : ℤ} {ssid : String} {key : Bytes} {k : ℕ}
    (h : QuietScan out freq ssid host key k) : ¬ KeyScan out freq ssid host key k := by
  rintro ⟨results, hscan, r, hr, hip, hkey⟩
  obtain ⟨results', hscan', hquiet⟩ := h
  obtain rfl : results = results' := Except.ok.inj (hscan.symm.trans hscan')
  exact hkey (hquiet r hr hip)

/-- What the scans of one rescan can be: one result per address, and no empty key.
`performActiveScan` collects the results in a dictionary by address, and an
element without a key has no public key that could be imported. -/
def ProperScans (out : Outside) : Prop :=
  ∀ freq ssid k results, out.performActiveScan freq ssid k = .ok results →
    (results.map Neighbor.ipAddress).Nodup ∧ ∀ r ∈ results, r.encryptionKey ≠ []

/-- The entry of the host is in the table, with another key than before. -/
def Rekeyed (host : String) (key : Bytes) (a : Agent) : Prop :=
  ∃ e, a.globalNeighborList.lookup host = some e ∧ e.encryptionKey ≠ key

theorem keyScan_results (me : Identity) {freq : ℤ} {ssid : String} {k : ℕ}
    (h : a.globalNeighborList.lookup host = some e)
    (hkey : KeyScan out freq ssid host e.encryptionKey k) :
    ∃ results a', out.performActiveScan freq ssid k = .ok results ∧
      rescanResults out me host results false a = (a', .ok true) ∧ EntryOnly host a a' ∧
      (a'.globalNeighborList.lookup host).isSome = true ∧
      (ProperScans out → Rekeyed host e.encryptionKey a') := by
  obtain ⟨results, hscan, hnew⟩ := hkey
  obtain ⟨a', e', hrun, honly, hlook, hchanged⟩ := rescanResults_found results false h hnew
  refine ⟨results, a', hscan, hrun, honly, by simp [hlook], ?_⟩
  intro hproper
  obtain ⟨hnodup, hne⟩ := hproper freq ssid k results hscan
  exact ⟨e', hlook, hchanged hnodup hne⟩

/-- The search for a known host: it ends with a scan that raises, with the first one
that shows another key, or with the last one. -/
theorem rescanLoop_cases (out : Outside) (me : Identity) (freq : ℤ) (ssid : String)
    (left cc : ℕ) (h : a.globalNeighborList.lookup host = some e) :
    (∃ k err, cc ≤ k ∧ k < cc + left ∧
      (∀ j, cc ≤ j → j < k → QuietScan out freq ssid host e.encryptionKey j) ∧
      out.performActiveScan freq ssid k = .error err ∧
      rescanLoop out me freq ssid host left cc a = (a, .error err)) ∨
    (∃ k a', cc ≤ k ∧ k < cc + left ∧
      (∀ j, cc ≤ j → j < k → QuietScan out freq ssid host e.encryptionKey j) ∧
      KeyScan out freq ssid host e.encryptionKey k ∧
      rescanLoop out me freq ssid host left cc a = (a', .ok k) ∧ EntryOnly host a a' ∧
      (a'.globalNeighborList.lookup host).isSome = true ∧
      (ProperScans out → Rekeyed host e.encryptionKey a')) ∨
    ((∀ j, cc ≤ j → j < cc + left → QuietScan out freq ssid host e.encryptionKey j) ∧
      rescanLoop out me freq ssid host left cc a = (a, .ok (cc + left - 1))) := by
  induction left generalizing cc with
  | zero =>
    refine Or.inr (Or.inr ⟨fun j _ _ => by omega, rfl⟩)
  | succ left ih =>
    rcases scan_cases out freq ssid host e.encryptionKey cc with ⟨err, herr⟩ | hquiet | hkey
    · refine Or.inl ⟨cc, err, le_refl cc, by omega, fun j _ _ => by omega, herr, ?_⟩
      simp only [rescanLoop, herr]
    · -- the first scan changes nothing; the rest of the search is the induction's
      have hstep : rescanLoop out me freq ssid host (left + 1) cc a =
          rescanLoop out me freq ssid host left (cc + 1) a := by
        obtain ⟨results, hscan, hres⟩ := hquiet
        simp only [rescanLoop, hscan, rescanResults_quiet results false h hres]
      have hfirst : ∀ k, (∀ j, cc + 1 ≤ j → j < k →
          QuietScan out freq ssid host e.encryptionKey j) →
          ∀ j, cc ≤ j → j < k → QuietScan out freq ssid host e.encryptionKey j := by
        intro k hk j hj hjk
        rcases Nat.eq_or_lt_of_le hj with rfl | hlt
        · exact hquiet
        · exact hk j hlt hjk
      rw [hstep]
      rcases ih (cc + 1) with ⟨k, err, hck, hkl, hq, herr, hrun⟩ | ⟨k, a', hck, hkl, hq, hrest⟩ |
        ⟨hq, hrun⟩
      · exact Or.inl ⟨k, err, by omega, by omega, hfirst k hq, herr, hrun⟩
      · exact Or.inr (Or.inl ⟨k, a', by omega, by omega, hfirst k hq, hrest⟩)
      · refine Or.inr (Or.inr ⟨hfirst _ (fun j hj hjl => hq j hj (by omega)), ?_⟩)
        rw [hrun]
        congr 2
        omega
    · obtain ⟨results, a', hscan, hrun, honly, hsome, hrekeyed⟩ := keyScan_results me h hkey
      refine Or.inr (Or.inl ⟨cc, a', le_refl cc, by omega, fun j _ _ => by omega, hkey, ?_, honly,
        hsome, hrekeyed⟩)
      simp only [rescanLoop, hscan, hrun]

/-- The links of an agent without the endpoint and the entry of `host`. -/
def Agent.unlink (a : Agent) (host : String) : Agent :=
  { a with
    frontend := a.frontend.erase (host, Port.fwd)
    globalNeighborList := a.globalNeighborList.erase host }

/-- `a'` differs from `a` at most in the neighbor update event and the notices. -/
def Notified (a a' : Agent) : Prop :=
  a' = { a with
    gates := { a.gates with
      processingNeighborUpdateEvent := a'.gates.processingNeighborUpdateEvent }
    notices := a'.notices }

theorem notifyLinkFailure_spec (out : Outside) (node : String) (apps : List String) (a : Agent) :
    ∃ a' r, notifyLinkFailure out node apps a = (a', r) ∧ Notified a a' ∧
      (r = .ok () ↔ ∀ ns ∈ apps, out.linkFailure_cb ns node = true) := by
  induction apps generalizing a with
  | nil => exact ⟨a, .ok (), rfl, rfl, by simp⟩
  | cons ns rest ih =>
    rw [notifyLinkFailure]
    by_cases hcb : out.linkFailure_cb ns node
    · obtain ⟨a', r, hrun, hnot, hok⟩ := ih { a with
        gates := { a.gates with processingNeighborUpdateEvent := true }
        notices := a.notices ++ [.linkFailure ns node] }
      refine ⟨a', r, by simp only [hcb, if_true, hrun], ?_, ?_⟩
      · unfold Notified at hnot ⊢
        rw [hnot]
      · rw [hok]
        simp [hcb]
    · refine ⟨{ a with
        gates := { a.gates with processingNeighborUpdateEvent := true }
        notices := a.notices ++ [.linkFailure ns node] }, .error .callbackError, ?_, rfl, ?_⟩
      · simp only [hcb]
        rfl
      · simp [hcb]

/-- Removing a neighbor raises and leaves the table alone, or unlinks it and tells
the applications. -/
theorem onAPLeft_cases (out : Outside) (a : Agent) (host : String) :
    ((host, Port.fwd) ∉ a.frontend ∧ onAPLeft out a host = (a, .error .zmqError)) ∨
    ((host, Port.fwd) ∈ a.frontend ∧ a.globalNeighborList.lookup host = none ∧
      onAPLeft out a host =
        ({ a with frontend := a.frontend.erase (host, Port.fwd) }, .error .keyError)) ∨
    ((host, Port.fwd) ∈ a.frontend ∧ (a.globalNeighborList.lookup host).isSome = true ∧
      ∃ a' r, onAPLeft out a host = (a', r) ∧ Notified (Agent.unlink a host) a' ∧
        (r = .ok () ↔ ∀ ns ∈ a.globalAppList, out.linkFailure_cb ns host = true)) := by
  by_cases hconn : (host, Port.fwd) ∈ a.frontend
  · cases hlook : a.globalNeighborList.lookup host with
    | none =>
      refine Or.inr (Or.inl ⟨hconn, rfl, ?_⟩)
      simp [onAPLeft, hconn, hlook]
    | some e =>
      obtain ⟨a', r, hrun, hnot, hok⟩ :=
        notifyLinkFailure_spec out host a.globalAppList (Agent.unlink a host)
      refine Or.inr (Or.inr ⟨hconn, rfl, a', r, ?_, hnot, hok⟩)
      rw [← hrun]
      simp only [onAPLeft, hconn, if_true, hlook, Option.isSome_some]
      rfl
  · exact Or.inl ⟨hconn, by simp [onAPLeft, hconn]⟩

/-- Whether the removal of a neighbor in the table goes through. -/
def Removable (out : Outside) (a : Agent) (host : String) : Prop :=
  (host, Port.fwd) ∈ a.frontend ∧ ∀ ns ∈ a.globalAppList, out.linkFailure_cb ns host = true

theorem onAPLeft_others (out : Outside) (a : Agent) (host n : String) (hn : n ≠ host) :
    (onAPLeft out a host).1.globalNeighborList.lookup n = a.globalNeighborList.lookup n := by
  rcases onAPLeft_cases out a host with ⟨-, h⟩ | ⟨-, -, h⟩ | ⟨-, -, a', r, h, hnot, -⟩
  · rw [h]
  · rw [h]
  · rw [h, hnot]
    exact AList.lookup_erase_ne hn

/-- A removal takes a connected neighbor's entry away and no other. -/
theorem onAPLeft_host (out : Outside) (a : Agent) (host : String) :
    (onAPLeft out a host).1.globalNeighborList.lookup host =
      if (host, Port.fwd) ∈ a.frontend then none else a.globalNeighborList.lookup host := by
  rcases onAPLeft_cases out a host with ⟨hc, h⟩ | ⟨hc, hl, h⟩ | ⟨hc, -, a', r, h, hnot, -⟩
  · rw [h, if_neg hc]
  · rw [h, if_pos hc]
    exact hl
  · rw [h, if_pos hc, hnot]
    exact AList.lookup_erase host a.globalNeighborList

theorem onAPLeft_ok_iff (out : Outside) (a : Agent) (host : String)
    (hsome : (a.globalNeighborList.lookup host).isSome = true) :
    (onAPLeft out a host).2 = .ok () ↔ Removable out a host := by
  unfold Removable
  rcases onAPLeft_cases out a host with ⟨hc, h⟩ | ⟨hc, hl, h⟩ | ⟨hc, -, a', r, h, -, hok⟩
  · rw [h]
    simp [hc]
  · rw [hl] at hsome
    cases hsome
  · rw [h, hok]
    simp [hc]

/-- A rescan of a known neighbor raises in a scan, finds a new key in time, or ends
with the removal of the neighbor. -/
theorem rescan_neighbor_cases (out : Outside) (me : Identity) (freq : ℤ) (ssid : String)
    (h : a.globalNeighborList.lookup host = some e) :
    (∃ k err, k < 10 ∧ (∀ j < k, QuietScan out freq ssid host e.encryptionKey j) ∧
      out.performActiveScan freq ssid k = .error err ∧
      rescan_neighbor out me a freq ssid host 10 = (a, .error err)) ∨
    (∃ k a', k < 9 ∧ (∀ j < k, QuietScan out freq ssid host e.encryptionKey j) ∧
      KeyScan out freq ssid host e.encryptionKey k ∧
      rescan_neighbor out me a freq ssid host 10 = (a', .ok true) ∧ EntryOnly host a a' ∧
      (a'.globalNeighborList.lookup host).isSome = true ∧
      (ProperScans out → Rekeyed host e.encryptionKey a')) ∨
    (∃ a', (∀ j < 9, QuietScan out freq ssid host e.encryptionKey j) ∧
      (a' = a ∧ QuietScan out freq ssid host e.encryptionKey 9 ∨
        KeyScan out freq ssid host e.encryptionKey 9 ∧
          (ProperScans out → Rekeyed host e.encryptionKey a')) ∧
      EntryOnly host a a' ∧ (a'.globalNeighborList.lookup host).isSome = true ∧
      rescan_neighbor out me a freq ssid host 10 =
        ((onAPLeft out a' host).1, (onAPLeft out a' host).2.map (fun _ => false))) := by
  have hleave : ∀ a', rescanLoop out me freq ssid host 10 0 a = (a', .ok 9) →
      rescan_neighbor out me a freq ssid host 10 =
        ((onAPLeft out a' host).1, (onAPLeft out a' host).2.map (fun _ => false)) := by
    intro a' hrun
    rw [rescan_neighbor_eq (by decide), hrun]
    dsimp only
    rcases hleft : onAPLeft out a' host with ⟨b, r⟩
    cases r with
    | error err => rfl
    | ok u => rfl
  rcases rescanLoop_cases out me freq ssid 10 0 h with
    ⟨k, err, -, hk, hq, herr, hrun⟩ | ⟨k, a', -, hk, hq, hkey, hrun, honly, hsome, hrekeyed⟩ |
    ⟨hq, hrun⟩
  · refine Or.inl ⟨k, err, by omega, fun j hj => hq j (by omega) hj, herr, ?_⟩
    rw [rescan_neighbor_eq (by decide), hrun]
  · by_cases hlast : k = 9
    · subst hlast
      exact Or.inr (Or.inr ⟨a', fun j hj => hq j (by omega) hj, Or.inr ⟨hkey, hrekeyed⟩, honly,
        hsome, hleave a' hrun⟩)
    · refine Or.inr (Or.inl ⟨k, a', by omega, fun j hj => hq j (by omega) hj, hkey, ?_, honly,
        hsome, hrekeyed⟩)
      rw [rescan_neighbor_eq (by decide), hrun]
      exact if_neg hlast
  · exact Or.inr (Or.inr ⟨a, fun j hj => hq j (by omega) (by omega),
      Or.inl ⟨rfl, hq 9 (by omega) (by omega)⟩, .refl host a, by simp [h], hleave a hrun⟩)

/-- A rescan touches the table entry of its host only. -/
theorem rescan_neighbor_others (out : Outside) (me : Identity) (a : Agent) (freq : ℤ)
    (ssid host n : String) (hsome : (a.globalNeighborList.lookup host).isSome = true)
    (hn : n ≠ host) :
    (rescan_neighbor out me a freq ssid host 10).1.globalNeighborList.lookup n =
      a.globalNeighborList.lookup n := by
  obtain ⟨e, he⟩ := Option.isSome_iff_exists.mp hsome
  rcases rescan_neighbor_cases out me freq ssid he with
    ⟨k, err, -, -, -, hrun⟩ | ⟨k, a', -, -, -, hrun, honly, -⟩ | ⟨a', -, -, honly, -, hrun⟩
  · rw [hrun]
  · rw [hrun]
    exact honly.others n hn
  · rw [hrun]
    exact (onAPLeft_others out a' host n hn).trans (honly.others n hn)

/-- The conditions under which a rescan of a known neighbor returns: a scan before
the last one shows another key, or all scans return and the neighbor can be
removed. -/
def Rescannable (out : Outside) (a : Agent) (freq : ℤ) (ssid host : String) (key : Bytes) : Prop :=
  (∃ k < 9, (∀ j < k, QuietScan out freq ssid host key j) ∧ KeyScan out freq ssid host key k) ∨
    ((∀ j < 9, QuietScan out freq ssid host key j) ∧
      (∃ results, out.performActiveScan freq ssid 9 = .ok results) ∧ Removable out a host)

/-- A search whose scan `k` raises, after quiet ones, is not one that returns. -/
theorem not_rescannable_of_error {freq : ℤ} {ssid : String} {key : Bytes} {k : ℕ} {err : PyError}
    (hk : k < 10) (hq : ∀ j < k, QuietScan out freq ssid host key j)
    (herr : out.performActiveScan freq ssid k = .error err) :
    ¬ Rescannable out a freq ssid host key := by
  have hquiet : ¬ QuietScan out freq ssid host key k := by
    rintro ⟨results, hscan, -⟩
    rw [herr] at hscan
    cases hscan
  rintro (⟨k', -, hq', hkey⟩ | ⟨hq', ⟨results, hscan⟩, -⟩)
  · rcases Nat.lt_trichotomy k k' with hlt | rfl | hlt
    · exact hquiet (hq' k hlt)
    · obtain ⟨results, hscan, -⟩ := hkey
      rw [herr] at hscan
      cases hscan
    · exact (hq k' hlt).not_keyScan hkey
  · by_cases hlast : k = 9
    · subst hlast
      rw [herr] at hscan
      cases hscan
    · exact hquiet (hq' k (by omega))

theorem removable_of_entryOnly (h : EntryOnly host a a') :
    Removable out a' host ↔ Removable out a host := by
  unfold Removable
  rw [h.rest]

theorem rescan_neighbor_ok_iff (out : Outside) (me : Identity) (freq : ℤ) (ssid : String)
    (h : a.globalNeighborList.lookup host = some e) :
    (∃ b, (rescan_neighbor out me a freq ssid host 10).2 = .ok b) ↔
      Rescannable out a freq ssid host e.encryptionKey := by
  rcases rescan_neighbor_cases out me freq ssid h with
    ⟨k, err, hk, hq, herr, hrun⟩ | ⟨k, a', hk, hq, hkey, hrun, -⟩ |
    ⟨a', hq, hlast, honly, hsome, hrun⟩
  · rw [hrun]
    simp [not_rescannable_of_error hk hq herr]
  · rw [hrun]
    exact ⟨fun _ => Or.inl ⟨k, hk, hq, hkey⟩, fun _ => ⟨true, rfl⟩⟩
  · rw [hrun]
    have hreturns : ∃ results, out.performActiveScan freq ssid 9 = .ok results := by
      rcases hlast with ⟨-, results, hscan, -⟩ | ⟨⟨results, hscan, -⟩, -⟩
      · exact ⟨results, hscan⟩
      · exact ⟨results, hscan⟩
    constructor
    · rintro ⟨b, hb⟩
      refine Or.inr ⟨hq, hreturns, ?_⟩
      rw [← removable_of_entryOnly honly, ← onAPLeft_ok_iff out a' host hsome]
      cases hleft : (onAPLeft out a' host).2 with
      | error err => simp [hleft, Except.map] at hb
      | ok u => rfl
    · rintro (⟨k, hk, -, hkey⟩ | ⟨-, -, hrem⟩)
      · exact absurd hkey (hq k hk).not_keyScan
      · rw [← removable_of_entryOnly honly, ← onAPLeft_ok_iff out a' host hsome] at hrem
        exact ⟨false, by rw [hrem]; rfl⟩

/-- A rescan of a host that is not in the table raises and changes no entry. -/
theorem rescan_neighbor_unknown (out : Outside) (me : Identity) (a : Agent) (freq : ℤ)
    (ssid host : String) (hnone : a.globalNeighborList.lookup host = none) :
    (∃ err, (rescan_neighbor out me a freq ssid host 10).2 = .error err) ∧
      (rescan_neighbor out me a freq ssid host 10).1.globalNeighborList =
        a.globalNeighborList := by
  have hresults : ∀ results, rescanResults out me host results false a = (a, .error .keyError) ∨
      rescanResults out me host results false a = (a, .ok false) := by
    intro results
    induction results with
    | nil => exact Or.inr rfl
    | cons r rest ih =>
      by_cases hip : r.ipAddress = host
      · exact Or.inl (by simp [rescanResults, hip, hnone])
      · simpa only [rescanResults, hip, if_false] using ih
  have hloop : ∀ left cc, (∃ err, rescanLoop out me freq ssid host left cc a = (a, .error err)) ∨
      rescanLoop out me freq ssid host left cc a = (a, .ok (cc + left - 1)) := by
    intro left
    induction left with
    | zero => exact fun cc => Or.inr rfl
    | succ left ih =>
      intro cc
      rw [rescanLoop]
      cases hscan : out.performActiveScan freq ssid cc with
      | error err => exact Or.inl ⟨err, rfl⟩
      | ok results =>
        rcases hresults results with hrun | hrun
        · exact Or.inl ⟨.keyError, by simp only [hrun]⟩
        · simp only [hrun]
          have hnext := ih (cc + 1)
          rwa [show cc + 1 + left - 1 = cc + (left + 1) - 1 by omega] at hnext
  rcases hloop 10 0 with ⟨err, hrun⟩ | hrun
  · simp [rescan_neighbor, hrun]
  · rw [rescan_neighbor_eq (by decide), hrun]
    rcases onAPLeft_cases out a host with ⟨-, h⟩ | ⟨-, -, h⟩ | ⟨-, hl, -⟩
    · simp [h]
    · simp [h]
    · rw [hnone] at hl
      cases hl

end Nxwlan.Rescans
