import Nxwlan.ReceiveLoop

/-!
The neighbor table under the operations of all threads. An entry is complete:
its keys have the sizes that AES accepts, a neighbor's public key is known and
its endpoint is connected. Joining, leaving, rescanning, key changes and the
agent's own key rotation all keep the table sound.
-/
namespace Nxwlan.SoundTables

open JsonFrames AgentState Forwarder Messaging Rescans ReceiveLoop
open Base64 (Bytes)

variable {me : Identity} {a a' : Agent} {e r : Neighbor} {n : String}

/-- The names under which neighbors stand in the table: all but the agent's own name,
that of the entry for old keys, and the name that `parse_resfi_ie` gives to an
element it cannot use. -/
def NeighborName (me : Identity) (n : String) : Prop :=
  n ≠ me.hostname ∧ n ≠ "old_keys" ∧ n ≠ "Error"

/-- Current and old keys of an entry have the sizes that AES accepts. -/
structure Sized (e : Neighbor) : Prop where
  current : aesAccepts e.encryptionKey e.encryptionIV = true
  old : ∀ key iv, e.oldEncryptionKey = some key → e.oldEncryptionIV = some iv →
    aesAccepts key iv = true

structure Sound (me : Identity) (a : Agent) : Prop where
  own : aesAccepts a.key a.iv = true
  sized : ∀ n e, n ≠ "Error" → a.globalNeighborList.lookup n = some e → Sized e
  keyed : ∀ n e, NeighborName me n → a.globalNeighborList.lookup n = some e →
    e.pubKey.isSome = true
  connected : ∀ n e, NeighborName me n → a.globalNeighborList.lookup n = some e →
    (n, Port.fwd) ∈ a.frontend

/-- Soundness is about keys, table and connections only. -/
theorem Sound.congr (h : Sound me a) (hkey : a'.key = a.key) (hiv : a'.iv = a.iv)
    (hlist : a'.globalNeighborList = a.globalNeighborList) (hfront : a'.frontend = a.frontend) :
    Sound me a' := by
  refine ⟨?_, ?_, ?_, ?_⟩
  · rw [hkey, hiv]
    exact h.own
  · rw [hlist]
    exact h.sized
  · rw [hlist]
    exact h.keyed
  · rw [hlist, hfront]
    exact h.connected

/-- A complete entry under a name that is connected keeps the table sound. -/
theorem Sound.putNeighbor (h : Sound me a) (hsized : n ≠ "Error" → Sized e)
    (hkeyed : NeighborName me n → e.pubKey.isSome = true)
    (hconn : NeighborName me n → (n, Port.fwd) ∈ a.frontend) :
    Sound me (Agent.putNeighbor a n e) := by
  have hcases : ∀ n' e', (Agent.putNeighbor a n e).globalNeighborList.lookup n' = some e' →
      (n' = n ∧ e' = e) ∨ a.globalNeighborList.lookup n' = some e' := by
    intro n' e' h'
    by_cases hn : n' = n
    · subst hn
      rw [lookup_putNeighbor] at h'
      exact Or.inl ⟨rfl, (Option.some.inj h').symm⟩
    · exact Or.inr (((EntryOnly.putNeighbor n a e).others n' hn).symm.trans h')
  refine ⟨h.own, ?_, ?_, ?_⟩
  · intro n' e' hn' h'
    rcases hcases n' e' h' with ⟨rfl, rfl⟩ | hold
    · exact hsized hn'
    · exact h.sized n' e' hn' hold
  · intro n' e' hn' h'
    rcases hcases n' e' h' with ⟨rfl, rfl⟩ | hold
    · exact hkeyed hn'
    · exact h.keyed n' e' hn' hold
  · intro n' e' hn' h'
    rcases hcases n' e' h' with ⟨rfl, rfl⟩ | hold
    · exact hconn hn'
    · exact h.connected n' e' hn' hold

/-- An entry may be replaced by one with the same or other complete keys. -/
theorem Sound.replace (h : Sound me a) (hold : a.globalNeighborList.lookup n = some r)
    (hsized : n ≠ "Error" → Sized e) (hkeyed : r.pubKey.isSome = true → e.pubKey.isSome = true) :
    Sound me (Agent.putNeighbor a n e) :=
  h.putNeighbor hsized (fun hn => hkeyed (h.keyed n r hn hold)) (fun hn => h.connected n r hn hold)

/-- Counters and settings of an entry may change at will. -/
theorem Sound.recount (h : Sound me a) (hold : a.globalNeighborList.lookup n = some r)
    (hkey : e.encryptionKey = r.encryptionKey) (hiv : e.encryptionIV = r.encryptionIV)
    (hpub : e.pubKey = r.pubKey) (hokey : e.oldEncryptionKey = r.oldEncryptionKey)
    (hoiv : e.oldEncryptionIV = r.oldEncryptionIV) : Sound me (Agent.putNeighbor a n e) := by
  refine h.replace hold ?_ ?_
  · intro hn
    obtain ⟨hcur, hold'⟩ := h.sized n r hn hold
    exact ⟨by rw [hkey, hiv]; exact hcur, by rw [hokey, hoiv]; exact hold'⟩
  · rw [hpub]
    exact id

/-- Removing an entry and its connection leaves those of other names. -/
theorem Sound.unlink (h : Sound me a) (n : String) : Sound me (Agent.unlink a n) := by
  have hold : ∀ n' e', (Agent.unlink a n).globalNeighborList.lookup n' = some e' →
      n' ≠ n ∧ a.globalNeighborList.lookup n' = some e' := by
    intro n' e' h'
    have hne : n' ≠ n := by
      rintro rfl
      simp [Agent.unlink] at h'
    exact ⟨hne, (AList.lookup_erase_ne hne).symm.trans h'⟩
  refine ⟨h.own, ?_, ?_, ?_⟩
  · intro n' e' hn' h'
    exact h.sized n' e' hn' (hold n' e' h').2
  · intro n' e' hn' h'
    exact h.keyed n' e' hn' (hold n' e' h').2
  · intro n' e' hn' h'
    obtain ⟨hne, hlook⟩ := hold n' e' h'
    have hmem := h.connected n' e' hn' hlook
    have hpair : (n', Port.fwd) ≠ (n, Port.fwd) := fun heq => hne (Prod.mk.inj heq).1
    exact (List.mem_erase_of_ne hpair).mpr hmem

theorem Sound.onAPLeft (h : Sound me a) (out : Outside) (n : String) :
    Sound me (onAPLeft out a n).1 := by
  rcases onAPLeft_cases out a n with ⟨-, hrun⟩ | ⟨-, hnone, hrun⟩ | ⟨-, -, b, res, hrun, hnot, -⟩
  · rw [hrun]
    exact h
  · rw [hrun]
    refine ⟨h.own, h.sized, h.keyed, ?_⟩
    intro n' e' hn' h'
    have hne : n' ≠ n := by
      rintro rfl
      rw [hnone] at h'
      cases h'
    have hpair : (n', Port.fwd) ≠ (n, Port.fwd) := fun heq => hne (Prod.mk.inj heq).1
    exact (List.mem_erase_of_ne hpair).mpr (h.connected n' e' hn' h')
  · rw [hrun]
    exact (h.unlink n).congr (by rw [hnot]) (by rw [hnot]) (by rw [hnot]) (by rw [hnot])

/-- What `parse_resfi_ie` hands to `onAPJoined`: a usable element has all its keys. -/
structure Complete (me : Identity) (r : Neighbor) : Prop where
  sized : r.ipAddress ≠ "Error" → Sized r
  keyed : NeighborName me r.ipAddress → r.pubKey.isSome = true

theorem sized_update (h : Sized e) (hr : Sized r) : Sized (e.update r) := by
  have hcur := hr.current
  obtain ⟨hk, hv⟩ := ne_nil_of_aesAccepts hcur
  refine ⟨?_, h.old⟩
  simpa [Neighbor.update, hk, hv] using hcur

theorem pubKey_update (h : e.pubKey.isSome = true) : (e.update r).pubKey.isSome = true := by
  unfold Neighbor.update
  by_cases hr : r.pubKey.isSome
  · simp [hr]
  · simpa [hr] using h

theorem notifyNewLink_spec (out : Outside) (node : String) (apps : List String) (a : Agent) :
    (notifyNewLink out node apps a).key = a.key ∧ (notifyNewLink out node apps a).iv = a.iv ∧
      (notifyNewLink out node apps a).globalNeighborList = a.globalNeighborList ∧
      (notifyNewLink out node apps a).frontend = a.frontend := by
  induction apps generalizing a with
  | nil => exact ⟨rfl, rfl, rfl, rfl⟩
  | cons ns rest ih =>
    rw [notifyNewLink]
    dsimp only
    split
    · exact ih _
    · exact ⟨rfl, rfl, rfl, rfl⟩

theorem Sound.joinOne (h : Sound me a) (out : Outside) (hr : Complete me r) :
    Sound me (joinOne out me a r) := by
  unfold AgentState.joinOne
  dsimp only
  cases hlook : a.globalNeighborList.lookup r.ipAddress with
  | some old =>
    simp only [Option.isSome_some, if_true, parse_existing_neighbor, hlook]
    exact h.replace hlook (fun hn => sized_update (h.sized _ old hn hlook) (hr.sized hn))
      pubKey_update
  | none =>
    simp only [Option.isSome_none, Bool.false_eq_true, if_false]
    split
    · obtain ⟨hkey, hiv, hlist, hfront⟩ := notifyNewLink_spec out r.ipAddress a.globalAppList
        { a with
          frontend := a.frontend ++
            [(r.ipAddress, if r.ipAddress = me.hostname then Port.snd else Port.fwd)]
          globalNeighborList := a.globalNeighborList.insert r.ipAddress r }
      -- first the connection is added, then the entry
      have hconn : Sound me { a with frontend := a.frontend ++
          [(r.ipAddress, if r.ipAddress = me.hostname then Port.snd else Port.fwd)] } :=
        ⟨h.own, h.sized, h.keyed, fun n' e' hn' h' =>
          List.mem_append_left _ (h.connected n' e' hn' h')⟩
      have hput := hconn.putNeighbor (n := r.ipAddress) (e := r) hr.sized hr.keyed (by
        intro hn
        rw [if_neg hn.1]
        exact List.mem_append_right _ (List.mem_singleton.mpr rfl))
      exact hput.congr hkey hiv hlist hfront
    · exact h

theorem Sound.onAPJoined (h : Sound me a) (out : Outside) (entries : List Neighbor)
    (hentries : ∀ r ∈ entries, Complete me r) : Sound me (onAPJoined out me a entries) := by
  unfold AgentState.onAPJoined
  induction entries generalizing a with
  | nil => exact h
  | cons r rest ih =>
    rw [List.foldl_cons]
    exact ih (h.joinOne out (hentries r (by simp))) (fun r' hr' => hentries r' (by simp [hr']))

def CompleteScans (me : Identity) (out : Outside) : Prop :=
  ∀ freq ssid k results, out.performActiveScan freq ssid k = .ok results →
    ∀ r ∈ results, Complete me r

theorem sized_renewed (h : Sized e) (hr : Sized r) : Sized (renewed e r) := by
  refine sized_update ⟨h.current, ?_⟩ hr
  intro key iv hkey hiv
  obtain rfl := Option.some.inj hkey
  obtain rfl := Option.some.inj hiv
  exact h.current

theorem Sound.rescanResults (h : Sound me a) (out : Outside) (host : String)
    (results : List Neighbor) (found : Bool) (hresults : ∀ r ∈ results, Complete me r) :
    Sound me (rescanResults out me host results found a).1 := by
  induction results generalizing a found with
  | nil => exact h
  | cons r rest ih =>
    have hrest : ∀ r' ∈ rest, Complete me r' := fun r' hr' => hresults r' (by simp [hr'])
    cases hlook : a.globalNeighborList.lookup host with
    | none =>
      by_cases hip : r.ipAddress = host
      · simpa [AgentState.rescanResults, hip, hlook] using h
      · simpa [AgentState.rescanResults, hip] using ih h found hrest
    | some old =>
      by_cases hnew : r.ipAddress = host ∧ r.encryptionKey ≠ old.encryptionKey
      · rw [rescanResults_new hlook hnew.1 hnew.2]
        refine ih (h.replace hlook ?_ ?_) true hrest
        · intro hn
          refine sized_renewed (h.sized host old hn hlook) ((hresults r (by simp)).sized ?_)
          rw [hnew.1]
          exact hn
        · intro hpub
          exact pubKey_update hpub
      · rw [rescanResults_skip hlook (by tauto)]
        exact ih h found hrest

theorem Sound.rescanLoop (h : Sound me a) (out : Outside) (hscans : CompleteScans me out)
    (freq : ℤ) (ssid host : String) (left cc : ℕ) :
    Sound me (rescanLoop out me freq ssid host left cc a).1 := by
  induction left generalizing a cc with
  | zero => exact h
  | succ left ih =>
    rw [AgentState.rescanLoop]
    cases hscan : out.performActiveScan freq ssid cc with
    | error err => exact h
    | ok results =>
      have hres := h.rescanResults out host results false (hscans freq ssid cc results hscan)
      dsimp only
      split
      · rename_i hrun
        rw [hrun] at hres
        exact hres
      · rename_i hrun
        rw [hrun] at hres
        exact hres
      · rename_i hrun
        rw [hrun] at hres
        exact ih hres (cc + 1)

theorem Sound.rescan_neighbor (h : Sound me a) (out : Outside) (hscans : CompleteScans me out)
    (freq : ℤ) (ssid host : String) (retries : ℕ) :
    Sound me (rescan_neighbor out me a freq ssid host retries).1 := by
  have hloop := h.rescanLoop out hscans freq ssid host retries 0
  unfold AgentState.rescan_neighbor
  split
  · exact h
  split
  · rename_i hrun
    rw [hrun] at hloop
    exact hloop
  · rename_i hrun
    rw [hrun] at hloop
    split
    · have hleft := hloop.onAPLeft out host
      split
      · rename_i hrun'
        rw [hrun'] at hleft
        exact hleft
      · rename_i hrun'
        rw [hrun'] at hleft
        exact hleft
    · exact hloop

/-- What other threads do to the shared state while the forwarder waits. -/
inductive Op where
  /-- the expiry of a neighbor, or the end of a search for it -/
  | onAPLeft (out : Outside) (node : String)
  /-- a probe request, a scan, or the agent's own new keys -/
  | onAPJoined (out : Outside) (entries : List Neighbor)
  /-- the search for a neighbor's new key -/
  | rescan_neighbor (out : Outside) (freq : ℤ) (ssid host : String)
  /-- the settings in a key change message -/
  | parse_existing_neighbor (now freq : ℤ) (ssid ipAddress : String)
  /-- the agent's own key rotation -/
  | changeKeys (key iv : Bytes)
  /-- the keys of a key change message of the agent -/
  | storeOldKeys (now : ℤ) (key iv : Bytes)

def Op.apply (me : Identity) (a : Agent) : Op → Agent
  | .onAPLeft out node => (AgentState.onAPLeft out a node).1
  | .onAPJoined out entries => AgentState.onAPJoined out me a entries
  | .rescan_neighbor out freq ssid host =>
      (AgentState.rescan_neighbor out me a freq ssid host 10).1
  | .parse_existing_neighbor now freq ssid ipAddress =>
      match AgentState.parse_existing_neighbor (kcmEntry now freq ssid ipAddress)
          a.globalNeighborList with
      | .ok list => { a with globalNeighborList := list }
      | .error _ => a
  | .changeKeys key iv => { a with key := key, iv := iv }
  | .storeOldKeys now key iv => Messaging.storeOldKeys me now a key iv

/-- The entries and keys that come in are complete. -/
def Op.Proper (me : Identity) : Op → Prop
  | .onAPLeft _ _ => True
  | .onAPJoined _ entries => ∀ r ∈ entries, Complete me r
  | .rescan_neighbor out _ _ _ => CompleteScans me out
  | .parse_existing_neighbor _ _ _ _ => True
  | .changeKeys key iv => key.length = 16 ∧ iv.length = 16
  | .storeOldKeys _ _ _ => True

theorem Sound.apply (h : Sound me a) (op : Op) (hop : op.Proper me) : Sound me (op.apply me a) := by
  cases op with
  | onAPLeft out node => exact h.onAPLeft out node
  | onAPJoined out entries => exact h.onAPJoined out entries hop
  | rescan_neighbor out freq ssid host => exact h.rescan_neighbor out hop freq ssid host 10
  | parse_existing_neighbor now freq ssid ipAddress =>
    cases hlook : a.globalNeighborList.lookup (kcmEntry now freq ssid ipAddress).ipAddress with
    | some old =>
      have hput : Sound me (Agent.putNeighbor a (kcmEntry now freq ssid ipAddress).ipAddress
          (old.update (kcmEntry now freq ssid ipAddress))) :=
        h.recount hlook (by simp [Neighbor.update, kcmEntry])
          (by simp [Neighbor.update, kcmEntry]) (by simp [Neighbor.update, kcmEntry]) rfl rfl
      simp only [Op.apply, AgentState.parse_existing_neighbor, hlook]
      exact hput
    | none =>
      by_cases hcarries : (kcmEntry now freq ssid ipAddress).carriesUpdate
      · simpa [Op.apply, AgentState.parse_existing_neighbor, hlook, hcarries] using h
      · simpa [Op.apply, AgentState.parse_existing_neighbor, hlook, hcarries] using h
  | changeKeys key iv => exact ⟨aesAccepts_of_length hop.1 hop.2, h.sized, h.keyed, h.connected⟩
  | storeOldKeys now key iv =>
    simp only [Op.apply, Messaging.storeOldKeys]
    split
    · exact h
    · rename_i hlen
      have hkey : key.length = 16 := by
        by_contra hne
        exact hlen (Or.inl hne)
      have hiv : iv.length = 16 := by
        by_contra hne
        exact hlen (Or.inr hne)
      refine h.putNeighbor ?_ ?_ ?_
      · intro _
        refine ⟨aesAccepts_of_length hkey hiv, ?_⟩
        intro key' iv' hk
        cases hk
      · intro hn
        exact absurd rfl hn.2.1
      · intro hn
        exact absurd rfl hn.2.1

/-- Whatever the other threads do, in any number of operations, keeps the table
sound. -/
theorem Sound.ops (h : Sound me a) (ops : List Op) (hops : ∀ op ∈ ops, op.Proper me) :
    Sound me (ops.foldl (Op.apply me) a) := by
  induction ops generalizing a with
  | nil => exact h
  | cons op rest ih =>
    rw [List.foldl_cons]
    exact ih (h.apply op (hops op (by simp))) (fun op' hop' => hops op' (by simp [hop']))

end Nxwlan.SoundTables
