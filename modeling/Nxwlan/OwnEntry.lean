import Nxwlan.ProbeRequests
import Nxwlan.OwnFrames

/-!
The agent's own entry in the neighbor table. It is made at start-up, renewed by
`changeKeys`, and otherwise only written by the function that merges what other
stations advertise. The entry keeps the agent's keys as long as nobody else
advertises the agent's address together with other keys.
-/
namespace Nxwlan.OwnEntry

open JsonFrames AgentState Forwarder ForwarderStages Messaging Rescans ReceiveLoop AgentThreads
open ThreadSteps StepRuns
open OwnFrames (HasKeys)
open PublishedFrames (quietOutside sampleIdentity)
open LocalDelivery (linkedSys linkedSys_started sampleRotation)
open Base64 (Bytes)

variable {p : Platform} {me : Identity} {out : Outside} {s s' s₀ : Sys} {a b c : Agent}
  {good : Prop}

/-- What `parse_existing_neighbor` would make of an own entry with these keys: an
advertised address of another station, or no other keys. -/
def Harmless (own : String) (key iv : Bytes) (entry : Neighbor) : Prop :=
  entry.ipAddress = own →
    (entry.encryptionKey = [] ∨ entry.encryptionKey = key) ∧
      (entry.encryptionIV = [] ∨ entry.encryptionIV = iv)

/-- `entry` is the result of a scan, and a search for another key of `host` than this one does
not skip it. -/
def Sought (out : Outside) (freq : ℤ) (ssid host : String) (key : Bytes) (entry : Neighbor) :
    Prop :=
  entry.ipAddress = host ∧ entry.encryptionKey ≠ key ∧
    ∃ k results, out.performActiveScan freq ssid k = .ok results ∧ entry ∈ results

/-- What the threads that receive probe requests and control messages do to the agent,
once their waits have returned. A search for a key may be seen as a whole, within
`handleKcm`, or scan by scan. -/
inductive Change where
  | onAPJoined (out : Outside) (scanResultList : List Neighbor)
  | handle_incoming_probe_requests (world : ProbeRequests.World) (payload rssi : PyText.Text)
  | handleKcm (world : World) (f : Frame) (text : PyText.Text)
  | rescanResults (out : Outside) (host : String) (scanResults : List Neighbor)
  | onAPLeft (out : Outside) (adjacentNode : String)
  | handleNuk (world : World) (f : Frame) (text : PyText.Text)
  | storeUnicastRecKey (host : String) (entry : Neighbor) (key iv : Bytes)

def Change.apply (p : Platform) (me : Identity) (a : Agent) : Change → Agent
  | .onAPJoined out scanResultList => AgentState.onAPJoined out me a scanResultList
  | .handle_incoming_probe_requests world payload rssi =>
      (ProbeRequests.handle_incoming_probe_requests p { world with wait := some } me a payload
        rssi).1
  | .handleKcm world f text => (ReceiveLoop.handleKcm world me a f text).agent
  | .rescanResults out host scanResults =>
      (AgentState.rescanResults out me host scanResults false a).1
  | .onAPLeft out adjacentNode => (AgentState.onAPLeft out a adjacentNode).1
  | .handleNuk world f text => (ReceiveLoop.handleNuk world a f text).agent
  | .storeUnicastRecKey host entry key iv =>
      if a.globalNeighborList.lookup host = some entry then
        Agent.putNeighbor a host { entry with unicastRecKey := key, unicastRecIv := iv }
      else a

/-- The entries that come in from other stations and are merged. -/
def Change.Advertises (p : Platform) (me : Identity) (a : Agent) : Change → Neighbor → Prop
  | .onAPJoined _ scanResultList, entry => entry ∈ scanResultList
  | .handle_incoming_probe_requests world payload rssi, entry =>
      ∃ resfiIe freq level, ProbeRequests.splitElement payload = .ok (resfiIe, freq) ∧
        PyText.readInt rssi = some level ∧
        ProbeRequests.parse_resfi_ie p world.now resfiIe (2 * a.key.length) (2 * a.iv.length)
          (2 * (p.exportKey me.rsaKey.publickey).length) level 0 freq none = .ok entry
  | .handleKcm world _ text, entry => ∃ freq ssid ipAddress,
      parseKcm text = .ok (freq, ssid, ipAddress) ∧
        Sought world.outside freq ssid ipAddress a.key entry
  | .rescanResults _ host scanResults, entry =>
      entry ∈ scanResults ∧ entry.ipAddress = host ∧ entry.encryptionKey ≠ a.key
  | .onAPLeft _ _, _ => False
  | .handleNuk _ _ _, _ => False
  | .storeUnicastRecKey _ _ _ _, _ => False

/-- `changeKeys` has replaced the agent's keys and is about to renew the own entry. -/
def connecting : KeyStage → Bool
  | .connect _ _ => true
  | _ => false

/-- A step of a sending thread, of `changeKeys`, of the forwarder or of the loop that
opens the forwarder's frames, or a change by one of the other threads. -/
inductive Act where
  | thread (act : Action)
  | change (change : Change)

def next (p : Platform) (me : Identity) (s : Sys) : Act → Option Sys
  | .thread (.other _) => none
  | .thread act => step p me s act
  | .change change => some { s with agent := change.apply p me s.agent }

/-- The condition on a step: no station advertises other keys under the agent's address in
what is merged, unless `changeKeys` is about to write the own entry anyway. -/
def Undisturbed (p : Platform) (me : Identity) (s : Sys) (act : Act) : Prop :=
  connecting s.keyThread = false → match act with
    | .change change => ∀ entry, change.Advertises p me s.agent entry →
        Harmless me.hostname s.agent.key s.agent.iv entry
    | .thread (.forwarder out) => ∀ name old, s.forwarder = .scan name →
        s.agent.globalNeighborList.lookup name = some old →
          ∀ entry, Sought out old.freq old.ssid name s.agent.key entry →
            Harmless me.hostname s.agent.key s.agent.iv entry
    | _ => True

/-- An operation that leaves the agent's keys alone and its own entry in the table, with
these keys if nothing harmful comes in. -/
structure Keeps (me : Identity) (good : Prop) (a b : Agent) : Prop where
  key : b.key = a.key
  iv : b.iv = a.iv
  unlinked : (me.hostname, Port.fwd) ∉ a.frontend → (me.hostname, Port.fwd) ∉ b.frontend
  present : (me.hostname, Port.fwd) ∉ a.frontend →
    (a.globalNeighborList.lookup me.hostname).isSome = true →
      (b.globalNeighborList.lookup me.hostname).isSome = true
  current : (me.hostname, Port.fwd) ∉ a.frontend → good →
    HasKeys a me.hostname a.key a.iv → HasKeys b me.hostname a.key a.iv

theorem HasKeys.present (h : HasKeys a me.hostname a.key a.iv) :
    (a.globalNeighborList.lookup me.hostname).isSome = true := by
  obtain ⟨e, hlook, -, -⟩ := h
  rw [hlook]
  rfl

/-- An operation that leaves the own entry and the connections alone. -/
theorem Keeps.of_same (hkey : b.key = a.key) (hiv : b.iv = a.iv)
    (hown : b.globalNeighborList.lookup me.hostname = a.globalNeighborList.lookup me.hostname)
    (hfront : (me.hostname, Port.fwd) ∉ a.frontend → (me.hostname, Port.fwd) ∉ b.frontend) :
    Keeps me good a b := by
  refine ⟨hkey, hiv, hfront, ?_, ?_⟩
  · intro _ hsome
    rw [hown]
    exact hsome
  · intro _ _ hkeys
    exact OwnFrames.HasKeys.congr hkeys hown

theorem Keeps.refl (a : Agent) : Keeps me good a a := .of_same rfl rfl rfl id

theorem Keeps.trans (h : Keeps me good a b) (h' : Keeps me good b c) : Keeps me good a c := by
  refine ⟨h'.key.trans h.key, h'.iv.trans h.iv, fun hf => h'.unlinked (h.unlinked hf), ?_, ?_⟩
  · intro hf hsome
    exact h'.present (h.unlinked hf) (h.present hf hsome)
  · intro hf hgood hkeys
    have hmid := h.current hf hgood hkeys
    rw [← h.key, ← h.iv] at hmid ⊢
    exact h'.current (h.unlinked hf) hgood hmid

theorem Keeps.mono {good' : Prop} (h : Keeps me good a b) (hgood : good' → good) :
    Keeps me good' a b :=
  ⟨h.key, h.iv, h.unlinked, h.present, fun hf hg => h.current hf (hgood hg)⟩

/-- An operation that keeps the keys of an own entry that has them may rely on that. -/
theorem Keeps.of_hasKeys (h : Keeps me (good ∧ HasKeys a me.hostname a.key a.iv) a b) :
    Keeps me good a b :=
  ⟨h.key, h.iv, h.unlinked, h.present, fun hf hgood hkeys => h.current hf ⟨hgood, hkeys⟩ hkeys⟩

/-- Writing an entry. Under the agent's own name it has to bear the agent's keys if the
entry before did. -/
theorem Keeps.putNeighbor {n : String} {e : Neighbor}
    (hkeys : n = me.hostname → good → HasKeys a me.hostname a.key a.iv →
      e.encryptionKey = a.key ∧ e.encryptionIV = a.iv) :
    Keeps me good a (Agent.putNeighbor a n e) := by
  by_cases hn : n = me.hostname
  · subst hn
    refine ⟨rfl, rfl, id, ?_, ?_⟩
    · intro _ _
      rw [lookup_putNeighbor]
      rfl
    · intro _ hgood hown
      exact ⟨e, lookup_putNeighbor _ a e, hkeys rfl hgood hown⟩
  · exact .of_same rfl rfl ((EntryOnly.putNeighbor n a e).others _ (Ne.symm hn)) id

/-- An entry that keeps its keys. -/
theorem Keeps.replace {n : String} {e d : Neighbor} (hlook : a.globalNeighborList.lookup n = some e)
    (hkey : d.encryptionKey = e.encryptionKey) (hiv : d.encryptionIV = e.encryptionIV) :
    Keeps me good a (Agent.putNeighbor a n d) := by
  refine .putNeighbor ?_
  rintro rfl - ⟨e', hlook', hk⟩
  obtain rfl := Option.some.inj (hlook.symm.trans hlook')
  rw [hkey, hiv]
  exact hk

/-- A harmless entry does not change the keys of an own entry that has them. -/
theorem update_harmless {old entry : Neighbor} {key iv : Bytes}
    (hold : old.encryptionKey = key ∧ old.encryptionIV = iv)
    (hip : entry.ipAddress = me.hostname) (h : Harmless me.hostname key iv entry) :
    (old.update entry).encryptionKey = key ∧ (old.update entry).encryptionIV = iv := by
  obtain ⟨hkey, hiv⟩ := h hip
  refine ⟨?_, ?_⟩
  · unfold Neighbor.update
    dsimp only
    split
    · rename_i hne
      exact hkey.resolve_left hne
    · exact hold.1
  · unfold Neighbor.update
    dsimp only
    split
    · rename_i hne
      exact hiv.resolve_left hne
    · exact hold.2

section Operations

/-- The merge function, where it returns. -/
theorem Keeps.parse_existing_neighbor (me : Identity) {entry : Neighbor} {list : NeighborList}
    (h : parse_existing_neighbor entry a.globalNeighborList = .ok list) :
    Keeps me (Harmless me.hostname a.key a.iv entry) a { a with globalNeighborList := list } := by
  unfold AgentState.parse_existing_neighbor at h
  split at h
  · rename_i old hlook
    obtain rfl := Except.ok.inj h
    refine Keeps.putNeighbor ?_
    rintro hip hgood ⟨e, hlook', hk⟩
    rw [hip, hlook'] at hlook
    obtain rfl := Option.some.inj hlook
    exact update_harmless hk hip hgood
  · split at h
    · cases h
    · obtain rfl := Except.ok.inj h
      exact .refl a

theorem Keeps.joinOne (out : Outside) (me : Identity) (a : Agent) (entry : Neighbor) :
    Keeps me (Harmless me.hostname a.key a.iv entry) a (joinOne out me a entry) := by
  unfold AgentState.joinOne
  dsimp only
  split
  · split
    · rename_i list hparse
      exact .parse_existing_neighbor me hparse
    · exact .refl a
  · rename_i hnone
    have hlook : a.globalNeighborList.lookup entry.ipAddress = none := by
      rw [← Option.not_isSome_iff_eq_none]
      exact hnone
    split
    · rw [notifyNewLink_rest]
      refine ⟨rfl, rfl, ?_, ?_, ?_⟩
      · -- the agent's own endpoint is connected at the port of the senders
        intro hf hmem
        rcases List.mem_append.mp hmem with hmem | hmem
        · exact hf hmem
        · rw [List.mem_singleton, Prod.mk.injEq] at hmem
          rw [if_pos hmem.1.symm] at hmem
          exact absurd hmem.2 (by decide)
      · intro _ hsome
        have hne : me.hostname ≠ entry.ipAddress := by
          rintro heq
          rw [heq, hlook] at hsome
          cases hsome
        exact (congrArg Option.isSome (AList.lookup_insert_ne hne)).trans hsome
      · intro _ _ hkeys
        have hne : me.hostname ≠ entry.ipAddress := by
          rintro heq
          have hsome := HasKeys.present hkeys
          rw [heq, hlook] at hsome
          cases hsome
        exact OwnFrames.HasKeys.congr hkeys (AList.lookup_insert_ne hne)
    · exact .refl a

theorem Keeps.onAPJoined (out : Outside) (me : Identity) (entries : List Neighbor) (a : Agent) :
    Keeps me (∀ entry ∈ entries, Harmless me.hostname a.key a.iv entry) a
      (onAPJoined out me a entries) := by
  unfold AgentState.onAPJoined
  induction entries generalizing a with
  | nil => exact .refl a
  | cons e rest ih =>
    rw [List.foldl_cons]
    have hfirst := Keeps.joinOne out me a e
    have hrest := ih (AgentState.joinOne out me a e)
    rw [hfirst.key, hfirst.iv] at hrest
    refine (hfirst.mono fun h => h e (by simp)).trans (hrest.mono ?_)
    intro h entry hmem
    exact h entry (by simp [hmem])

/-- A search for a key merges the results for the host alone, and skips those that bear the
key that the entry has. -/
theorem Keeps.rescanResults (out : Outside) (me : Identity) (host : String)
    (results : List Neighbor) (found : Bool) (a : Agent) :
    Keeps me (∀ r ∈ results, r.ipAddress = host → r.encryptionKey ≠ a.key →
        Harmless me.hostname a.key a.iv r) a
      (rescanResults out me host results found a).1 := by
  induction results generalizing a found with
  | nil => exact .refl a
  | cons r rest ih =>
    have hskip : Keeps me (∀ r' ∈ r :: rest, r'.ipAddress = host → r'.encryptionKey ≠ a.key →
          Harmless me.hostname a.key a.iv r') a
        (AgentState.rescanResults out me host rest found a).1 :=
      (ih found a).mono fun h r' hr' => h r' (by simp [hr'])
    rw [AgentState.rescanResults]
    split
    · rename_i hip
      cases hlook : a.globalNeighborList.lookup host with
      | none => exact .refl a
      | some old =>
        dsimp only
        split
        · -- the old keys are noted down, then the result is merged
          rename_i hnew
          refine Keeps.of_hasKeys ?_
          have hnote : Keeps me ((∀ r' ∈ r :: rest, r'.ipAddress = host →
                r'.encryptionKey ≠ a.key → Harmless me.hostname a.key a.iv r') ∧
                HasKeys a me.hostname a.key a.iv) a
              (Agent.putNeighbor a host { old with
                oldEncryptionKey := some old.encryptionKey
                oldEncryptionIV := some old.encryptionIV }) := .replace hlook rfl rfl
          have hjoin := Keeps.onAPJoined out me [r] (Agent.putNeighbor a host { old with
            oldEncryptionKey := some old.encryptionKey
            oldEncryptionIV := some old.encryptionIV })
          have hrest := ih true (AgentState.onAPJoined out me (Agent.putNeighbor a host { old with
            oldEncryptionKey := some old.encryptionKey
            oldEncryptionIV := some old.encryptionIV }) [r])
          rw [hjoin.key, hjoin.iv] at hrest
          refine (hnote.trans (hjoin.mono ?_)).trans (hrest.mono ?_)
          · rintro ⟨h, e, hown, hkey, -⟩ entry hmem hself
            obtain rfl := List.mem_singleton.mp hmem
            have hold : old.encryptionKey = a.key := by
              rw [← hself, hip, hlook] at hown
              obtain rfl := Option.some.inj hown
              exact hkey
            exact h entry (by simp) hip (hold ▸ hnew) hself
          · intro h entry hmem
            exact h.1 entry (by simp [hmem])
        · exact hskip
    · exact hskip

theorem Keeps.rescanLoop (out : Outside) (me : Identity) (freq : ℤ) (ssid host : String)
    (left cc : ℕ) (a : Agent) :
    Keeps me (∀ r, Sought out freq ssid host a.key r → Harmless me.hostname a.key a.iv r) a
      (rescanLoop out me freq ssid host left cc a).1 := by
  induction left generalizing a cc with
  | zero => exact .refl a
  | succ left ih =>
    rw [AgentState.rescanLoop]
    cases hscan : out.performActiveScan freq ssid cc with
    | error e => exact .refl a
    | ok results =>
      have hresults : Keeps me
          (∀ r, Sought out freq ssid host a.key r → Harmless me.hostname a.key a.iv r) a
          (AgentState.rescanResults out me host results false a).1 :=
        (Keeps.rescanResults out me host results false a).mono
          fun h r hr hip hkey => h r ⟨hip, hkey, cc, results, hscan, hr⟩
      dsimp only
      split
      · rename_i hrun
        rw [hrun] at hresults
        exact hresults
      · rename_i hrun
        rw [hrun] at hresults
        exact hresults
      · rename_i b hrun
        rw [hrun] at hresults
        have hrest := ih (cc + 1) b
        rw [hresults.key, hresults.iv] at hrest
        exact hresults.trans hrest

/-- The agent itself is not connected at the port of the forwarders, so that its removal
raises. -/
theorem Keeps.onAPLeft (out : Outside) (a : Agent) (node : String) :
    Keeps me good a (onAPLeft out a node).1 := by
  have hop := EntryOp.onAPLeft out a node
  by_cases hown : (me.hostname, Port.fwd) ∈ a.frontend
  · exact ⟨hop.op.key, hop.op.iv, absurd hown, absurd hown, absurd hown⟩
  · refine .of_same hop.op.key hop.op.iv ?_ (fun hf hmem => hf (hop.op.frontend _ hmem))
    by_cases hnode : me.hostname = node
    · subst hnode
      rw [onAPLeft_host, if_neg hown]
    · exact hop.others _ hnode

theorem Keeps.rescan_neighbor (out : Outside) (me : Identity) (a : Agent) (freq : ℤ)
    (ssid host : String) (retries : ℕ) :
    Keeps me (∀ r, Sought out freq ssid host a.key r → Harmless me.hostname a.key a.iv r) a
      (rescan_neighbor out me a freq ssid host retries).1 := by
  have hloop := Keeps.rescanLoop out me freq ssid host retries 0 a
  unfold AgentState.rescan_neighbor
  split
  · exact .of_same rfl rfl rfl id
  split
  · rename_i hrun
    rw [hrun] at hloop
    exact hloop
  · rename_i b cc hrun
    rw [hrun] at hloop
    split
    · have hleft := hloop.trans (Keeps.onAPLeft out b host)
      split
      · rename_i hrun'
        rw [hrun'] at hleft
        exact hleft
      · rename_i hrun'
        rw [hrun'] at hleft
        exact hleft
    · exact hloop

theorem Keeps.setNeighborUpdate (a : Agent) (v : Bool) :
    Keeps me good a (Agent.setNeighborUpdate a v) := .of_same rfl rfl rfl id

/-- A key change message has no keys; those come with the scans that follow it. -/
theorem Keeps.handleKcm (p : Platform) (world : World) (me : Identity) (a : Agent) (f : Frame)
    (text : PyText.Text) :
    Keeps me (∀ entry, (Change.handleKcm world f text).Advertises p me a entry →
        Harmless me.hostname a.key a.iv entry) a
      (handleKcm world me a f text).agent := by
  unfold ReceiveLoop.handleKcm
  dsimp only
  split
  · exact .setNeighborUpdate a false
  · rename_i freq ssid ipAddress htext
    split
    · exact .setNeighborUpdate a false
    · exact .of_same rfl rfl rfl id
    · split
      · exact .setNeighborUpdate a false
      · rename_i list hparse
        have hmerge : Keeps me (∀ r, Sought world.outside freq ssid ipAddress a.key r →
              Harmless me.hostname a.key a.iv r) a
            { Agent.setNeighborUpdate a false with globalNeighborList := list } :=
          (Keeps.setNeighborUpdate a false).trans
            ((Keeps.parse_existing_neighbor me hparse).mono fun _ _ => ⟨Or.inl rfl, Or.inl rfl⟩)
        have hsearch := (hmerge.trans (Keeps.rescan_neighbor world.outside me
          { Agent.setNeighborUpdate a false with globalNeighborList := list } freq ssid ipAddress
            10)).mono fun (h : ∀ entry, (Change.handleKcm world f text).Advertises p me a entry →
              Harmless me.hostname a.key a.iv entry) r hr => h r ⟨freq, ssid, ipAddress, htext, hr⟩
        split
        · rename_i hrun
          rw [hrun] at hsearch
          exact hsearch
        · rename_i b found hrun
          rw [hrun] at hsearch
          exact hsearch.trans (.setNeighborUpdate b true)

theorem Keeps.handleNuk (world : World) (a : Agent) (f : Frame) (text : PyText.Text) :
    Keeps me good a (handleNuk world a f text).agent := by
  unfold ReceiveLoop.handleNuk
  split
  · exact .refl a
  · exact .refl a
  · rename_i host entry hentry
    have hlook := entryAt_some hentry
    split
    · exact .refl a
    · split
      · exact .refl a
      · dsimp only
        split
        · exact .replace hlook rfl rfl
        · exact .replace hlook rfl rfl

theorem Keeps.handle_incoming_probe_requests (world : ProbeRequests.World) (me : Identity)
    (a : Agent) (payload rssi : PyText.Text) :
    Keeps me (∀ entry, (Change.handle_incoming_probe_requests world payload rssi).Advertises p me a
        entry → Harmless me.hostname a.key a.iv entry) a
      (Change.apply p me a (.handle_incoming_probe_requests world payload rssi)) := by
  unfold Change.apply ProbeRequests.handle_incoming_probe_requests
  dsimp only
  split
  · split
    · exact .refl a
    · rename_i resfiIe freq hsplit
      unfold ProbeRequests.joinElement
      dsimp only
      split
      · exact .of_same rfl rfl rfl id
      · rename_i level hlevel
        split
        · exact .of_same rfl rfl rfl id
        · rename_i entry hparse
          have hjoin := Keeps.onAPJoined world.outside me [entry]
            (ProbeRequests.setProbeRequest a false)
          have hclear : Keeps me True a (ProbeRequests.setProbeRequest a false) :=
            .of_same rfl rfl rfl id
          have hset : ∀ b, Keeps me True b (ProbeRequests.setProbeRequest b true) :=
            fun b => .of_same rfl rfl rfl id
          refine ((hclear.mono fun _ => trivial).trans (hjoin.mono ?_)).trans
            ((hset _).mono fun _ => trivial)
          intro h e hmem
          obtain rfl := List.mem_singleton.mp hmem
          exact h e ⟨resfiIe, freq, level, hsplit, hlevel, hparse⟩
  · exact .refl a

/-- Whatever the other threads do. -/
theorem Keeps.change (p : Platform) (me : Identity) (a : Agent) (change : Change) :
    Keeps me (∀ entry, change.Advertises p me a entry → Harmless me.hostname a.key a.iv entry) a
      (change.apply p me a) := by
  cases change with
  | onAPJoined out scanResultList => exact .onAPJoined out me scanResultList a
  | handle_incoming_probe_requests world payload rssi =>
    exact .handle_incoming_probe_requests world me a payload rssi
  | handleKcm world f text => exact .handleKcm p world me a f text
  | rescanResults out host scanResults =>
    exact (Keeps.rescanResults out me host scanResults false a).mono
      fun h r hr hip hkey => h r ⟨hr, hip, hkey⟩
  | onAPLeft out adjacentNode => exact .onAPLeft out a adjacentNode
  | handleNuk world f text => exact .handleNuk world a f text
  | storeUnicastRecKey host entry key iv =>
    unfold Change.apply
    dsimp only
    split
    · rename_i hlook
      exact .replace hlook rfl rfl
    · exact .refl a

end Operations

section Threads

theorem Keeps.setEvent (a : Agent) (v : Bool) (e : Event) :
    Keeps me good a (Agent.setEvent a v e) := by
  obtain ⟨hkey, hiv, -, hlist, hfront⟩ := setEvent_key a v e
  exact .of_same hkey hiv (by rw [hlist]) (by rw [hfront]; exact id)

theorem Keeps.storeOldKeys (hown : me.hostname ≠ "old_keys") (now : ℤ) (a : Agent)
    (key iv : Bytes) : Keeps me good a (storeOldKeys me now a key iv) := by
  unfold Messaging.storeOldKeys
  split
  · exact .refl a
  · exact .putNeighbor fun heq => absurd heq.symm hown

theorem moved_keeps {t : Tid} {now : ℤ} (hown : me.hostname ≠ "old_keys")
    (h : Moved p me now s t s') : Keeps me good s.agent s'.agent := by
  cases h with
  | wait
  | raises
  | sent => exact .refl s.agent
  | cleared => exact .setEvent s.agent false _
  | readKeys => exact .storeOldKeys hown now s.agent _ _
  | unknown => exact .setEvent s.agent true .userSpace
  | incremented => exact .of_same rfl rfl rfl id

theorem Keeps.setNeighborMessage (a : Agent) (v : Bool) :
    Keeps me good a (Agent.setNeighborMessage a v) := .of_same rfl rfl rfl id

/-- The loss counters of an entry; a removal follows for an unknown frequency. -/
theorem countLoss_keeps {name : String}
    (h : (∃ stop, countLoss out a name = .stop b stop) ∨ countLoss out a name = .rescan b) :
    Keeps me good a b := by
  unfold countLoss at h
  cases hlook : a.globalNeighborList.lookup name with
  | none =>
    simp only [hlook, reduceCtorEq, or_false, Loss.stop.injEq] at h
    obtain ⟨-, rfl, -⟩ := h
    exact .refl a
  | some entry =>
    have hput : ∀ lost, Keeps me good a (Agent.putNeighbor a name
        { entry with lostMessages := lost, rxStatsLost := entry.rxStatsLost + 1 }) :=
      fun lost => .replace hlook rfl rfl
    simp only [hlook] at h
    split at h
    · split at h
      · simp only [reduceCtorEq, Loss.rescan.injEq, exists_false, false_or] at h
        obtain rfl := h
        exact hput 0
      · have hleft : Keeps me good a (onAPLeft out (Agent.putNeighbor a name
            { entry with lostMessages := 0, rxStatsLost := entry.rxStatsLost + 1 }) name).1 :=
          (hput 0).trans (.onAPLeft out _ name)
        split at h
        · rename_i hrun
          simp only [reduceCtorEq, or_false, Loss.stop.injEq] at h
          obtain ⟨-, rfl, -⟩ := h
          rw [hrun] at hleft
          exact hleft
        · rename_i hrun
          simp only [reduceCtorEq, or_false, Loss.stop.injEq] at h
          obtain ⟨-, rfl, -⟩ := h
          rw [hrun] at hleft
          exact hleft.trans (.setNeighborMessage _ true)
    · simp only [reduceCtorEq, or_false, Loss.stop.injEq] at h
      obtain ⟨-, rfl, -⟩ := h
      exact (hput _).trans (.setNeighborMessage _ true)

theorem rescanStep_keeps (out : Outside) (me : Identity) (a : Agent) (name : String) :
    Keeps me (∀ old, a.globalNeighborList.lookup name = some old →
        ∀ r, Sought out old.freq old.ssid name a.key r → Harmless me.hostname a.key a.iv r) a
      (rescanStep out me a name).1 := by
  unfold rescanStep
  split
  · exact .refl a
  · rename_i entry hlook
    have hsearch := (Keeps.rescan_neighbor out me a entry.freq entry.ssid name 10).mono
      fun (h : ∀ old, a.globalNeighborList.lookup name = some old →
        ∀ r, Sought out old.freq old.ssid name a.key r → Harmless me.hostname a.key a.iv r) =>
          h entry hlook
    split
    · rename_i hrun
      rw [hrun] at hsearch
      exact hsearch
    · rename_i b found hrun
      rw [hrun] at hsearch
      exact hsearch.trans (.setNeighborUpdate b true)

theorem sendOn_keeps (cache : FwdCache) (nb : Bool) (d : Decoded) (sendKey sendIv : Bytes)
    (f : Frame) : Keeps me good a (sendOn p me a cache nb d sendKey sendIv f).agent := by
  have hcount : ∀ b, (if nb then countSuccess a d.lasthop else .ok a) = .ok b →
      Keeps me good a b := by
    intro b hb
    split at hb
    · unfold countSuccess at hb
      split at hb
      · cases hb
      · rename_i entry hlook
        obtain rfl := Except.ok.inj hb
        exact .replace hlook rfl rfl
    · obtain rfl := Except.ok.inj hb
      exact .refl a
  rcases sendOn_cases p me a cache nb d sendKey sendIv f with
    ⟨e, hrun⟩ | ⟨b, hb, -, ⟨e, -, hrun⟩ | ⟨cache', -, hrun⟩⟩
  · rw [hrun]
    exact .refl a
  · rw [hrun]
    exact hcount b hb
  · rw [hrun]
    dsimp only
    split
    · exact hcount b hb
    · exact (hcount b hb).trans (.of_same rfl rfl rfl id)

theorem forwarded_keeps (h : Forwarded p me out s s') :
    Keeps me (∀ name old, s.forwarder = .scan name →
        s.agent.globalNeighborList.lookup name = some old →
          ∀ r, Sought out old.freq old.ssid name s.agent.key r →
            Harmless me.hostname s.agent.key s.agent.iv r)
      s.agent s'.agent := by
  cases h with
  | drop
  | take
  | wait
  | markRaises
  | decoded
  | retryWait
  | againRaises
  | againDecoded
  | rescanWait
  | readKeys => exact .refl s.agent
  | marked _ hmark =>
    rcases mark_cases hmark with ⟨-, rfl⟩ | ⟨-, rfl⟩
    · exact .refl s.agent
    · exact .setNeighborMessage s.agent false
  | decodeStops _ hfirst =>
    rcases firstDecode_stop hfirst with ⟨rfl, -⟩ | ⟨-, rfl, -⟩
    · exact .refl s.agent
    · exact .of_same rfl rfl rfl id
  | retries => exact .setNeighborMessage s.agent true
  | retried => exact .setNeighborMessage s.agent false
  | lost _ hloss => exact countLoss_keeps (Or.inl ⟨_, hloss⟩)
  | rescans _ hloss =>
    exact (countLoss_keeps (Or.inr hloss)).trans (.setNeighborMessage _ true)
  | rescanned => exact .setNeighborUpdate s.agent false
  | scanned hstage =>
    exact (rescanStep_keeps out me s.agent _).mono fun h old => h _ old hstage
  | sent => exact sendOn_keeps s.cache _ _ _ _ _

theorem receive_keeps (h : receiveStep p me s = some s') : Keeps me good s.agent s'.agent := by
  rcases receive_cases h with ⟨g, rest, -, -, rfl⟩ | ⟨g, a, stage, -, -, rfl, ⟨-, rfl, -⟩ | ⟨-, rfl, -⟩⟩
  · exact .refl s.agent
  · exact .setNeighborMessage s.agent true
  · exact .refl s.agent

theorem Keeps.leaveAll (out : Outside) (nodes : List String) (a : Agent) :
    Keeps me good a (leaveAll out nodes a).1 := by
  induction nodes generalizing a with
  | nil => exact .refl a
  | cons node rest ih =>
    have hfirst : Keeps me good a (AgentState.onAPLeft out a node).1 := .onAPLeft out a node
    rw [AgentThreads.leaveAll]
    split
    · rename_i hrun
      rw [hrun] at hfirst
      exact hfirst
    · rename_i b hrun
      rw [hrun] at hfirst
      exact hfirst.trans (ih b)

end Threads

section Runs

/-- The invariant: the own entry is in the table, with the agent's keys unless
`changeKeys` is about to write them. -/
structure Owned (me : Identity) (s : Sys) : Prop where
  key : s.agent.key.length = 16
  iv : s.agent.iv.length = 16
  unlinked : (me.hostname, Port.fwd) ∉ s.agent.frontend
  present : (s.agent.globalNeighborList.lookup me.hostname).isSome = true
  current : connecting s.keyThread = false → HasKeys s.agent me.hostname s.agent.key s.agent.iv

theorem Owned.start (h : Started me s₀) : Owned me s₀ :=
  ⟨h.key, h.iv, h.frontend.1, HasKeys.present h.own, fun _ => h.own⟩

theorem Owned.keep (h : Owned me s) (hkeeps : Keeps me good s.agent s'.agent)
    (hgood : connecting s.keyThread = false → good)
    (hstage : connecting s'.keyThread = false → connecting s.keyThread = false) :
    Owned me s' := by
  refine ⟨hkeeps.key ▸ h.key, hkeeps.iv ▸ h.iv, hkeeps.unlinked h.unlinked,
    hkeeps.present h.unlinked h.present, ?_⟩
  intro hnot
  rw [hkeeps.key, hkeeps.iv]
  exact hkeeps.current h.unlinked (hgood (hstage hnot)) (h.current (hstage hnot))

/-- A step that does not touch the keys of the own entry. -/
theorem Owned.quiet (h : Owned me s) (hkeeps : Keeps me True s.agent s'.agent)
    (hkey : s'.keyThread = s.keyThread) : Owned me s' := by
  refine h.keep hkeeps (fun _ => trivial) ?_
  rw [hkey]
  exact id

/-- `init_self_connection` writes the agent's keys into the entry that is there. -/
theorem ownEntry_joined (now : ℤ) (hkey : a.key.length = 16) (hiv : a.iv.length = 16)
    (hsome : (a.globalNeighborList.lookup me.hostname).isSome = true) :
    HasKeys (onAPJoined out me a [ownEntry me now a]) me.hostname a.key a.iv := by
  obtain ⟨e, hlook⟩ := Option.isSome_iff_exists.mp hsome
  have hjoin : onAPJoined out me a [ownEntry me now a] =
      Agent.putNeighbor a me.hostname (e.update (ownEntry me now a)) := onAPJoined_known hlook
  have hkey' : a.key ≠ [] := List.ne_nil_of_length_pos (by omega)
  have hiv' : a.iv ≠ [] := List.ne_nil_of_length_pos (by omega)
  rw [hjoin]
  refine ⟨_, lookup_putNeighbor _ a _, ?_, ?_⟩
  · simp [Neighbor.update, ownEntry, hkey']
  · simp [Neighbor.update, ownEntry, hiv']

theorem Owned.rotated {x : Rotation} (h : Owned me s) (hr : Rotated me x s s') : Owned me s' := by
  -- a step from a stage other than `connect` that keeps the keys
  have hother : ∀ s', Keeps me True s.agent s'.agent → connecting s.keyThread = false →
      Owned me s' :=
    fun s' hkeeps hnot => h.keep hkeeps (fun _ => trivial) (fun _ => hnot)
  cases hr with
  | wakes hstage => exact hother _ (.refl s.agent) (hstage ▸ rfl)
  | wait hstage => exact hother _ (.refl s.agent) (hstage ▸ rfl)
  | cleared hstage => exact hother _ (.setEvent s.agent false .changeKeys) (hstage ▸ rfl)
  | replaced hstage =>
    refine ⟨x.key_length, x.iv_length, h.unlinked, h.present, ?_⟩
    intro hnot
    cases hnot
  | connected hstage =>
    have hkeeps := Keeps.onAPJoined x.outside me [ownEntry me x.now s.agent] s.agent
    refine ⟨hkeeps.key ▸ h.key, hkeeps.iv ▸ h.iv, hkeeps.unlinked h.unlinked,
      hkeeps.present h.unlinked h.present, ?_⟩
    intro _
    rw [hkeeps.key, hkeeps.iv]
    exact ownEntry_joined x.now h.key h.iv h.present
  | announced hstage => exact hother _ (.setEvent s.agent true .changeKeys) (hstage ▸ rfl)
  | fails hstage => exact hother _ (.refl s.agent) (hstage ▸ rfl)
  | stamped hstage _ hentry => exact hother _ (.replace hentry rfl rfl) (hstage ▸ rfl)
  | validateWait hstage => exact hother _ (.refl s.agent) (hstage ▸ rfl)
  | validated hstage => exact hother _ (.setEvent s.agent false .neighborUpdate) (hstage ▸ rfl)
  | removed hstage => exact hother _ (.leaveAll x.outside _ s.agent) (hstage ▸ rfl)
  | released hstage => exact hother _ (.setEvent s.agent true .neighborUpdate) (hstage ▸ rfl)

theorem moved_keyThread {t : Tid} {now : ℤ} (h : Moved p me now s t s') :
    s'.keyThread = s.keyThread := by
  cases h with
  | _ => rfl

theorem forwarded_keyThread (h : Forwarded p me out s s') : s'.keyThread = s.keyThread := by
  cases h with
  | _ => rfl

/-- Every step keeps the invariant. -/
theorem Owned.step {act : Act} (hown : me.hostname ≠ "old_keys") (h : Owned me s)
    (hact : Undisturbed p me s act) (hstep : next p me s act = some s') : Owned me s' := by
  cases act with
  | change change =>
    obtain rfl := Option.some.inj hstep
    exact h.keep (.change p me s.agent change) hact id
  | thread act =>
    cases act with
    | call t call =>
      have hcall : AgentThreads.step p me s (.call t call) = some s' := hstep
      obtain ⟨-, -, rfl⟩ := call_of_step hcall
      exact h.quiet (.refl s.agent) rfl
    | sender t now =>
      have hmoved := moved_of_step hstep
      exact h.quiet (moved_keeps hown hmoved) (moved_keyThread hmoved)
    | changeKeys x => exact h.rotated (rotated_of_step hstep)
    | forwarder out =>
      have hfwd := forwarded_of_step hstep
      exact h.keep (forwarded_keeps hfwd) hact (forwarded_keyThread hfwd ▸ id)
    | receive =>
      refine h.quiet (receive_keeps hstep) ?_
      rcases receive_cases hstep with ⟨g, rest, -, -, rfl⟩ | ⟨g, a, stage, -, -, rfl, -⟩
      · rfl
      · rfl
    | arrive f =>
      obtain rfl := Option.some.inj hstep
      exact h.quiet (.refl s.agent) rfl
    | other b => cases hstep

/-- In every run in which no station advertises other keys under the agent's address, the
own entry is in the table, and it has the agent's keys whenever `changeKeys` is
not between the replacement of the keys and the renewal of the entry. -/
theorem own_entry_current (hown : me.hostname ≠ "old_keys") (hstart : Started me s₀)
    (h : Reach (next p me) (Undisturbed p me) s₀ s) :
    (s.agent.globalNeighborList.lookup me.hostname).isSome = true ∧
      (connecting s.keyThread = false → HasKeys s.agent me.hostname s.agent.key s.agent.iv) := by
  have hinv : Owned me s := h.inv (Owned.start hstart)
    (fun _ _ _ hs hok hstep => hs.step hown hok hstep)
  exact ⟨hinv.present, hinv.current⟩

/-- A neighbor is heard with new keys. -/
def renewedNeighbor : Change :=
  .onAPJoined quietOutside
    [{ ipAddress := "10.0.0.2"
       encryptionKey := List.replicate 16 5
       encryptionIV := List.replicate 16 6
       timestampLastKCM := 1 }]

/-- After that the agent changes its own keys. -/
theorem own_entry_current_linked :
    ∃ s, Reach (next listPlatform sampleIdentity) (Undisturbed listPlatform sampleIdentity)
        linkedSys s ∧ s.agent.key = List.replicate 16 9 ∧
      HasKeys s.agent sampleIdentity.hostname s.agent.key s.agent.iv := by
  have hheard : Undisturbed listPlatform sampleIdentity linkedSys (.change renewedNeighbor) := by
    intro _ entry hmem hip
    obtain rfl := List.mem_singleton.mp hmem
    exact absurd hip (by decide)
  have hturn : ∀ s s', Reach (next listPlatform sampleIdentity)
      (Undisturbed listPlatform sampleIdentity) linkedSys s →
        next listPlatform sampleIdentity s (.thread (.changeKeys sampleRotation)) = some s' →
          Reach (next listPlatform sampleIdentity) (Undisturbed listPlatform sampleIdentity)
            linkedSys s' :=
    fun s s' h hstep => h.next (fun _ => trivial) hstep
  -- three waits, the clearing of the event, the new keys, the own entry
  have hrun := hturn _ _ (hturn _ _ (hturn _ _ (hturn _ _ (hturn _ _ (hturn _ _ (hturn _ _
    (.next .start hheard rfl) rfl) rfl) rfl) rfl) rfl) rfl) rfl
  exact ⟨_, hrun, rfl, (own_entry_current (by decide) linkedSys_started hrun).2 rfl⟩

/-- A probe request that advertises the agent's own address with another key, on
2412 MHz. -/
def strangeRequest : Change :=
  .handle_incoming_probe_requests ProbeRequests.quietWorld
    (PyText.hexDump ([2, 0, 0, 0, 0, 1] ++ [221, 77, 177, 107, 0, 181] ++ List.replicate 16 8 ++
      List.replicate 16 9 ++ List.replicate 33 48 ++ asciiBytes "10.0.0.1".toList ++
      [221, 6, 177, 107, 0, 181, 36, 18])) (PyText.showInt (-42))

/-- The key of another station in the own entry. -/
theorem advertised_address_overwrites :
    Started sampleIdentity linkedSys ∧ ∃ s, Reach (next listPlatform sampleIdentity)
        (fun _ _ => True) linkedSys s ∧ s.keyThread = .sleeping ∧
      ¬ HasKeys s.agent sampleIdentity.hostname s.agent.key s.agent.iv := by
  refine ⟨linkedSys_started, _, .next (x := .change strangeRequest) .start trivial rfl, rfl, ?_⟩
  rintro ⟨e, hlook, hkey, -⟩
  have hown : ((strangeRequest.apply listPlatform sampleIdentity
      linkedSys.agent).globalNeighborList.lookup "10.0.0.1").map Neighbor.encryptionKey =
        some (List.replicate 16 8) := by
    decide +kernel
  have hagent : (strangeRequest.apply listPlatform sampleIdentity linkedSys.agent).key =
      List.replicate 16 7 := by
    decide +kernel
  have hsame : (strangeRequest.apply listPlatform sampleIdentity linkedSys.agent).key =
      List.replicate 16 8 := by
    rw [← Option.some.inj ((congrArg (Option.map Neighbor.encryptionKey) hlook).symm.trans hown)]
    exact hkey.symm
  rw [hagent] at hsame
  exact absurd hsame (by decide)

end Runs

end Nxwlan.OwnEntry
