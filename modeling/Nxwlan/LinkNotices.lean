import Nxwlan.KeyChanges
import Nxwlan.ThreadSteps
import Nxwlan.LinkSteps

/-!
The operations of the agent that write the neighbor table, as steps of the model
of its links: what joins, leaves and registers is seen by table, endpoints and
applications alike, whatever else the operation does on its way.
-/
namespace Nxwlan.LinkNotices

open JsonFrames AgentState Forwarder Messaging Rescans ReceiveLoop AgentThreads ThreadSteps LinkSteps
open PublishedFrames (quietOutside sampleKey sampleIdentity sampleFrame)
open Base64 (Bytes)

variable {p : Platform} {me : Identity} {out : Outside} {a b : Agent} {node : String}

def Agent.links (a : Agent) : Links where
  listed n := (a.globalNeighborList.lookup n).map Neighbor.ipAddress
  connected := a.frontend
  apps := a.globalAppList
  told := a.notices

def getNeighbors (me : Identity) (a : Agent) : List String :=
  a.globalNeighborList.entries.filterMap (fun e =>
    if e.2.ipAddress ≠ me.hostname ∧ e.2.ipAddress ≠ "" then some e.2.ipAddress else none)

/-- A name space that is registered already gets another application. -/
def registerNewApplication (a : Agent) (ns : String) : Agent :=
  if ns ∈ a.globalAppList then a else { a with globalAppList := a.globalAppList ++ [ns] }

/-- What a round of `changeKeys` takes from outside: the times at which it makes the own
entry, sends, stamps the own entry and lists the expired neighbors, new keys and
the text of its message. -/
structure Round where
  joined : ℤ
  sent : ℤ
  stamped : ℤ
  listed : ℤ
  key : Bytes
  iv : Bytes
  key_length : key.length = 16
  iv_length : iv.length = 16
  kcm : Bytes
  outside : Outside

/-- `validateCurrentNeighborList` after its waits. -/
def validateCurrentNeighborList (out : Outside) (me : Identity) (now : ℤ) (a : Agent) :
    Agent × Except PyError Unit :=
  let a := Agent.setEvent a false .neighborUpdate
  match leaveAll out (expiredNeighbors me now a.globalNeighborList) a with
  | (a, .error e) => (a, .error e)
  | (a, .ok ()) => (Agent.setEvent a true .neighborUpdate, .ok ())

/-- One round of the loop of `changeKeys` after its waits. -/
def changeKeys (p : Platform) (me : Identity) (x : Round) (a : Agent) :
    Agent × Except PyError Unit :=
  let key_old := a.key
  let iv_old := a.iv
  let a := { Agent.setEvent a false .changeKeys with key := x.key, iv := x.iv }
  let a := onAPJoined x.outside me a [ownEntry me x.joined a]
  let a := Agent.setEvent a true .changeKeys
  match (Call.sendCtrlToNeighbors x.kcm "kcm" key_old iv_old broadcast).perform p me x.sent a with
  | (a, .error e) => (a, .error e)
  | (a, .ok _) =>
      match a.globalNeighborList.lookup me.hostname with
      | none => (a, .error .keyError)
      | some entry =>
          validateCurrentNeighborList x.outside me x.listed
            (Agent.putNeighbor a me.hostname { entry with timestampLastKCM := x.stamped })

/-- No callback of an application raises. -/
def Returning (out : Outside) : Prop :=
  (∀ ns node, out.newLink_cb ns node = true) ∧ ∀ ns node, out.linkFailure_cb ns node = true

section Operations

theorem listed_isSome (a : Agent) (n : String) :
    ((Agent.links a).listed n).isSome = (a.globalNeighborList.lookup n).isSome :=
  Option.isSome_map ..

/-- Writing an entry. -/
theorem listed_putNeighbor (a : Agent) (n : String) (e : Neighbor) :
    (Agent.links (Agent.putNeighbor a n e)).listed =
      Function.update (Agent.links a).listed n (some e.ipAddress) := by
  funext k
  by_cases hk : k = n
  · subst hk
    rw [Function.update_self]
    exact congrArg (Option.map Neighbor.ipAddress) (lookup_putNeighbor k a e)
  · rw [Function.update_of_ne hk]
    exact congrArg (Option.map Neighbor.ipAddress) ((EntryOnly.putNeighbor n a e).others k hk)

/-- An entry that keeps its address. -/
theorem links_replace {n : String} {e d : Neighbor} (hlook : a.globalNeighborList.lookup n = some e)
    (hip : d.ipAddress = e.ipAddress) :
    Agent.links (Agent.putNeighbor a n d) = Agent.links a := by
  have hsame : (Agent.links a).listed n = some d.ipAddress := by
    simp [Agent.links, hlook, hip]
  refine Links.ext ?_ rfl rfl rfl
  rw [listed_putNeighbor, ← hsame, Function.update_eq_self]

theorem notifyNewLink_links (hout : Returning out) (apps : List String) (a : Agent) :
    Agent.links (notifyNewLink out node apps a) =
      { Agent.links a with
        told := a.notices ++ apps.map (fun ns => Notice.newLink ns node) } := by
  induction apps generalizing a with
  | nil => simp [notifyNewLink, Agent.links]
  | cons ns rest ih =>
    rw [notifyNewLink]
    dsimp only
    rw [if_pos (hout.1 ns node), ih]
    simp [Agent.links]

theorem notifyLinkFailure_links (hout : Returning out) (node : String) (apps : List String)
    (a : Agent) :
    (notifyLinkFailure out node apps a).2 = .ok () ∧
      Agent.links (notifyLinkFailure out node apps a).1 =
        { Agent.links a with
          told := a.notices ++ apps.map (fun ns => Notice.linkFailure ns node) } := by
  induction apps generalizing a with
  | nil => simp [notifyLinkFailure, Agent.links]
  | cons ns rest ih =>
    rw [notifyLinkFailure]
    dsimp only
    rw [if_pos (hout.2 ns node)]
    refine ⟨(ih _).1, ?_⟩
    rw [(ih _).2]
    simp [Agent.links]

/-- One entry of `onAPJoined`: a listed node is updated in place, another one joins. -/
theorem joinOne_steps (hout : Returning out) (hc : Consistent me.hostname (Agent.links a))
    {entry : Neighbor} (hname : entry.ipAddress ≠ "" ∧ entry.ipAddress ≠ "old_keys") :
    Steps me.hostname (Agent.links a) (Agent.links (joinOne out me a entry)) := by
  cases hlook : a.globalNeighborList.lookup entry.ipAddress with
  | some old =>
    have hjoin : joinOne out me a entry = Agent.putNeighbor a entry.ipAddress (old.update entry) :=
      onAPJoined_known hlook
    rw [hjoin, links_replace (d := old.update entry) hlook rfl]
  | none =>
    unfold joinOne
    simp only [hlook, Option.isSome_none, Bool.false_eq_true, if_false]
    split
    · have hnew : (Agent.links a).listed entry.ipAddress = none := by
        simp [Agent.links, hlook]
      have hown : entry.ipAddress ≠ me.hostname := by
        intro heq
        rw [heq, hc.present] at hnew
        cases hnew
      refine Relation.ReflTransGen.single ?_
      have hjoin : Step me.hostname _ _ := Step.join entry.ipAddress hnew hname
      rw [notifyNewLink_links hout, if_neg hown]
      convert hjoin using 1
      exact Links.ext (listed_putNeighbor a entry.ipAddress entry) rfl rfl rfl
    · exact .refl

theorem onAPJoined_steps (hown : me.hostname ≠ "old_keys") (hout : Returning out)
    {entries : List Neighbor} (hc : Consistent me.hostname (Agent.links a))
    (hnames : ∀ e ∈ entries, e.ipAddress ≠ "" ∧ e.ipAddress ≠ "old_keys") :
    Steps me.hostname (Agent.links a) (Agent.links (onAPJoined out me a entries)) := by
  unfold onAPJoined
  induction entries generalizing a with
  | nil => exact .refl
  | cons e rest ih =>
    rw [List.foldl_cons]
    have hfirst := joinOne_steps hout hc (hnames e (by simp))
    exact hfirst.trans (ih (hc.steps hown hfirst) (fun e' he' => hnames e' (by simp [he'])))

/-- A listed peer leaves. -/
theorem onAPLeft_step (hout : Returning out) (hc : Consistent me.hostname (Agent.links a))
    (hname : node ≠ me.hostname ∧ node ≠ "old_keys")
    (hlisted : (a.globalNeighborList.lookup node).isSome = true) :
    (onAPLeft out a node).2 = .ok () ∧
      Agent.links (onAPLeft out a node).1 = (Agent.links a).leave node ∧
      Step me.hostname (Agent.links a) (Agent.links (onAPLeft out a node).1) := by
  have hmem : (node, Port.fwd) ∈ a.frontend :=
    (hc.linked node .fwd).mpr (Or.inr ⟨rfl, hname.1, hname.2, by rw [listed_isSome]; exact hlisted⟩)
  have hrun : onAPLeft out a node =
      notifyLinkFailure out node a.globalAppList (Agent.unlink a node) := by
    simp [onAPLeft, hmem, hlisted, Agent.unlink]
  obtain ⟨hok, hlinks⟩ := notifyLinkFailure_links hout node a.globalAppList
    (Agent.unlink a node)
  have hleave : Agent.links (onAPLeft out a node).1 = (Agent.links a).leave node := by
    rw [hrun, hlinks]
    ext1
    · funext k
      rw [Links.listed_leave]
      by_cases hk : k = node
      · subst hk
        simp [Agent.links, Agent.unlink]
      · rw [if_neg hk]
        exact congrArg (Option.map Neighbor.ipAddress) (AList.lookup_erase_ne hk)
    · rfl
    · rfl
    · rfl
  refine ⟨by rw [hrun, hok], hleave, ?_⟩
  rw [hleave]
  exact .leave node (by rw [listed_isSome]; exact hlisted) hname

/-- Scan results change the entry of the host in place. -/
theorem rescanResults_links (out : Outside) (me : Identity) {host : String} {e : Neighbor}
    (results : List Neighbor) (found : Bool) (hlook : a.globalNeighborList.lookup host = some e) :
    Agent.links (rescanResults out me host results found a).1 = Agent.links a := by
  induction results generalizing a e found with
  | nil => rfl
  | cons r rest ih =>
    by_cases hnew : r.ipAddress = host ∧ r.encryptionKey ≠ e.encryptionKey
    · rw [rescanResults_new hlook hnew.1 hnew.2, ih true (lookup_putNeighbor host a (renewed e r))]
      exact links_replace hlook rfl
    · rw [rescanResults_skip hlook (by tauto)]
      exact ih found hlook

theorem rescanLoop_links (out : Outside) (me : Identity) {host : String} (freq : ℤ)
    (ssid : String) (left cc : ℕ) (hlook : (a.globalNeighborList.lookup host).isSome = true) :
    Agent.links (rescanLoop out me freq ssid host left cc a).1 = Agent.links a := by
  induction left generalizing a cc with
  | zero => rfl
  | succ left ih =>
    rw [rescanLoop]
    cases out.performActiveScan freq ssid cc with
    | error err => rfl
    | ok results =>
      obtain ⟨e, he⟩ := Option.isSome_iff_exists.mp hlook
      have hlinks := rescanResults_links out me results false he
      dsimp only
      split
      · rename_i hrun
        rw [hrun] at hlinks
        exact hlinks
      · rename_i hrun
        rw [hrun] at hlinks
        exact hlinks
      · rename_i b hrun
        rw [hrun] at hlinks
        refine (ih (cc + 1) ?_).trans hlinks
        rw [← listed_isSome, hlinks, listed_isSome]
        exact hlook

/-- The search for the new key of a listed peer, which may end with its removal. -/
theorem rescan_neighbor_steps {host : String} (hout : Returning out)
    (hc : Consistent me.hostname (Agent.links a))
    (hname : host ≠ me.hostname ∧ host ≠ "old_keys")
    (hlook : (a.globalNeighborList.lookup host).isSome = true) (freq : ℤ) (ssid : String) :
    Steps me.hostname (Agent.links a)
      (Agent.links (rescan_neighbor out me a freq ssid host 10).1) := by
  have hloop := rescanLoop_links out me freq ssid 10 0 hlook
  rw [rescan_neighbor_eq (by decide)]
  split
  · rename_i b err hrun
    rw [hrun] at hloop
    rw [hloop]
  · rename_i b cc hrun
    rw [hrun] at hloop
    split
    · have hlook' : (b.globalNeighborList.lookup host).isSome = true := by
        rw [← listed_isSome, hloop, listed_isSome]
        exact hlook
      obtain ⟨-, -, hstep⟩ := onAPLeft_step hout (hloop ▸ hc) hname hlook'
      rw [hloop] at hstep
      split
      · rename_i hleft
        rw [hleft] at hstep
        exact .single hstep
      · rename_i hleft
        rw [hleft] at hstep
        exact .single hstep
    · rw [hloop]

/-- A key change message that names its sender. -/
theorem handleKcm_steps {world : World} {f : Frame} {text : PyText.Text} {freq : ℤ}
    {ssid host : String} (hout : Returning world.outside)
    (hc : Consistent me.hostname (Agent.links a)) (hhost : f.host = some (.str host))
    (htext : parseKcm text = .ok (freq, ssid, host))
    (hname : host ≠ me.hostname ∧ host ≠ "old_keys") :
    Steps me.hostname (Agent.links a) (Agent.links (handleKcm world me a f text).agent) ∧
      (handleKcm world me a f text).agent.key = a.key ∧
      (handleKcm world me a f text).agent.iv = a.iv := by
  have hentry : entryAt f.host (Agent.setNeighborUpdate a false).globalNeighborList =
      .ok ((a.globalNeighborList.lookup host).map (fun entry => (host, entry))) := by
    rw [hhost]
    rfl
  simp only [handleKcm, htext, hentry]
  cases hlook : a.globalNeighborList.lookup host with
  | none => exact ⟨.refl, rfl, rfl⟩
  | some old =>
    have hparse : parse_existing_neighbor (kcmEntry world.now freq ssid host)
        (Agent.setNeighborUpdate a false).globalNeighborList =
          .ok (a.globalNeighborList.insert host
            (old.update (kcmEntry world.now freq ssid host))) := by
      simp [parse_existing_neighbor, kcmEntry, Agent.setNeighborUpdate, hlook]
    simp only [Option.map_some, hparse]
    -- the entry is updated in place before the search starts
    have hput : Agent.links { Agent.setNeighborUpdate a false with
        globalNeighborList := a.globalNeighborList.insert host
          (old.update (kcmEntry world.now freq ssid host)) } = Agent.links a :=
      links_replace (d := old.update (kcmEntry world.now freq ssid host)) hlook rfl
    have hsome : (AList.lookup host (a.globalNeighborList.insert host
        (old.update (kcmEntry world.now freq ssid host)))).isSome = true := by
      rw [AList.lookup_insert]
      rfl
    have hsteps := rescan_neighbor_steps hout (hput ▸ hc) hname hsome freq ssid
    have hop := (EntryOp.rescan_neighbor world.outside me { Agent.setNeighborUpdate a false with
      globalNeighborList := a.globalNeighborList.insert host
        (old.update (kcmEntry world.now freq ssid host)) } freq ssid host hsome).op
    rw [hput] at hsteps
    split
    · rename_i hrun
      rw [hrun] at hsteps hop
      exact ⟨hsteps, hop.key, hop.iv⟩
    · rename_i hrun
      rw [hrun] at hsteps hop
      exact ⟨hsteps, hop.key, hop.iv⟩

theorem storeOldKeys_steps (me : Identity) (now : ℤ) (a : Agent) (key iv : Bytes) :
    Steps me.hostname (Agent.links a) (Agent.links (storeOldKeys me now a key iv)) := by
  unfold storeOldKeys
  split
  · exact .refl
  · have hstep : Step me.hostname _ _ := Step.storeOldKeys (Agent.links a)
    refine .single ?_
    convert hstep using 1
    exact Links.ext (listed_putNeighbor a "old_keys" _) rfl rfl rfl

/-- A send writes the entry for old keys at most. -/
theorem perform_steps (p : Platform) (me : Identity) (now : ℤ) (a : Agent) (call : Call) :
    Steps me.hostname (Agent.links a) (Agent.links (call.perform p me now a).1) := by
  have hsame : Agent.links (Agent.setEvent a false (Call.event call)) = Agent.links a := by
    rcases event_cases call with he | he
    · rw [he]
      rfl
    · rw [he]
      rfl
  have hstore := storeOldKeys_steps me now (Agent.setEvent a false (Call.event call))
    call.keys.1 call.keys.2
  rw [hsame] at hstore
  rw [Call.perform_eq]
  dsimp only
  split
  · exact hstore
  · exact hstore
  · exact hstore

/-- Listed peers leave one after the other. -/
theorem leaveAll_steps (hown : me.hostname ≠ "old_keys") (hout : Returning out)
    {nodes : List String} (hc : Consistent me.hostname (Agent.links a)) (hnodup : nodes.Nodup)
    (hnodes : ∀ n ∈ nodes, (n ≠ me.hostname ∧ n ≠ "old_keys") ∧
      (a.globalNeighborList.lookup n).isSome = true) :
    (leaveAll out nodes a).2 = .ok () ∧
      Steps me.hostname (Agent.links a) (Agent.links (leaveAll out nodes a).1) := by
  induction nodes generalizing a with
  | nil => exact ⟨rfl, .refl⟩
  | cons node rest ih =>
    rw [List.nodup_cons] at hnodup
    obtain ⟨hname, hlisted⟩ := hnodes node (by simp)
    obtain ⟨hok, hleave, hstep⟩ := onAPLeft_step hout hc hname hlisted
    have hrest : ∀ n ∈ rest, (n ≠ me.hostname ∧ n ≠ "old_keys") ∧
        ((onAPLeft out a node).1.globalNeighborList.lookup n).isSome = true := by
      intro n hn
      have hne : n ≠ node := by
        rintro rfl
        exact hnodup.1 hn
      obtain ⟨hname', hlisted'⟩ := hnodes n (by simp [hn])
      refine ⟨hname', ?_⟩
      rw [← listed_isSome, hleave, Links.listed_leave, if_neg hne, listed_isSome]
      exact hlisted'
    obtain ⟨hok', hsteps⟩ := ih (hc.step hown hstep) hnodup.2 hrest
    rw [leaveAll]
    rcases hrun : onAPLeft out a node with ⟨b, e | u⟩
    · rw [hrun] at hok
      cases hok
    · rw [hrun] at hok' hsteps hstep
      exact ⟨hok', .head hstep hsteps⟩

/-- A list of table keys has no repetition. -/
theorem nodup_of_keys {entries : List (Sigma fun _ : String => Neighbor)}
    {f : (Sigma fun _ : String => Neighbor) → Option String} (hkeys : entries.NodupKeys)
    (hf : ∀ e ∈ entries, ∀ n, f e = some n → n = e.1) : (entries.filterMap f).Nodup := by
  induction entries with
  | nil => exact List.nodup_nil
  | cons e rest ih =>
    obtain ⟨hfresh, hrest⟩ := List.nodupKeys_cons.mp hkeys
    have hnodup := ih hrest (fun e' he' => hf e' (by simp [he']))
    cases hfe : f e with
    | none =>
      rw [List.filterMap_cons_none hfe]
      exact hnodup
    | some n =>
      rw [List.filterMap_cons_some hfe, List.nodup_cons]
      refine ⟨?_, hnodup⟩
      intro hmem
      obtain ⟨e', he', hn⟩ := List.mem_filterMap.mp hmem
      have heq : e'.1 = e.1 := (hf e' (by simp [he']) n hn).symm.trans (hf e (by simp) n hfe)
      exact hfresh (heq ▸ List.mem_keys_of_mem he')

theorem mem_entries_iff {k : String} {e : Neighbor} :
    (⟨k, e⟩ : Sigma fun _ : String => Neighbor) ∈ a.globalNeighborList.entries ↔
      a.globalNeighborList.lookup k = some e :=
  AList.mem_lookup_iff.symm

/-- The neighbors that `getNeighbors` returns: the keys of the table but the two special
ones. -/
theorem getNeighbors_spec (hc : Consistent me.hostname (Agent.links a)) :
    (getNeighbors me a).Nodup ∧ ∀ n, n ∈ getNeighbors me a ↔
      n ≠ me.hostname ∧ n ≠ "old_keys" ∧ (a.globalNeighborList.lookup n).isSome = true := by
  have hlisted : ∀ k e, a.globalNeighborList.lookup k = some e →
      (Agent.links a).listed k = some e.ipAddress := by
    intro k e hlook
    simp [Agent.links, hlook]
  refine ⟨nodup_of_keys a.globalNeighborList.nodupKeys ?_, ?_⟩
  · rintro ⟨k, e⟩ hmem n hn
    simp only [Option.ite_none_right_eq_some, Option.some.injEq] at hn
    obtain ⟨⟨-, hempty⟩, rfl⟩ := hn
    have hlook := hlisted k e (mem_entries_iff.mp hmem)
    refine hc.named k _ ?_ hlook
    rintro rfl
    exact hempty (hc.special _ hlook)
  · intro n
    unfold getNeighbors
    rw [List.mem_filterMap]
    constructor
    · rintro ⟨⟨k, e⟩, hmem, hn⟩
      simp only [Option.ite_none_right_eq_some, Option.some.injEq] at hn
      obtain ⟨⟨hown, hempty⟩, rfl⟩ := hn
      have hlook := mem_entries_iff.mp hmem
      have hk : k ≠ "old_keys" := by
        rintro rfl
        exact hempty (hc.special _ (hlisted _ e hlook))
      have heq := hc.named k _ hk (hlisted k e hlook)
      rw [heq] at hown ⊢
      exact ⟨hown, hk, Option.isSome_iff_exists.mpr ⟨e, hlook⟩⟩
    · rintro ⟨hown, hk, hsome⟩
      obtain ⟨e, hlook⟩ := Option.isSome_iff_exists.mp hsome
      have heq := hc.named n _ hk (hlisted n e hlook)
      have hempty : n ≠ "" := by
        rintro rfl
        have hnone := hc.unnamed
        rw [hlisted _ e hlook] at hnone
        cases hnone
      refine ⟨⟨n, e⟩, mem_entries_iff.mpr hlook, ?_⟩
      simp [heq, hown, hempty]

/-- The expired neighbors are listed peers, each once, as long as the entry for old keys
is fresh. -/
theorem expiredNeighbors_spec (now : ℤ) (hc : Consistent me.hostname (Agent.links a))
    (hfresh : ∀ e, a.globalNeighborList.lookup "old_keys" = some e →
      now - e.timestampLastKCM ≤ 3 * keyChangeInterval) :
    (expiredNeighbors me now a.globalNeighborList).Nodup ∧
      ∀ n ∈ expiredNeighbors me now a.globalNeighborList, (n ≠ me.hostname ∧ n ≠ "old_keys") ∧
        (a.globalNeighborList.lookup n).isSome = true := by
  have hkey : ∀ k e, a.globalNeighborList.lookup k = some e →
      now - e.timestampLastKCM > 3 * keyChangeInterval → k ≠ "old_keys" ∧ e.ipAddress = k := by
    intro k e hlook hold
    have hk : k ≠ "old_keys" := by
      rintro rfl
      exact absurd (hfresh e hlook) (not_le.mpr hold)
    refine ⟨hk, hc.named k _ hk ?_⟩
    simp [Agent.links, hlook]
  refine ⟨nodup_of_keys a.globalNeighborList.nodupKeys ?_, ?_⟩
  · rintro ⟨k, e⟩ hmem n hn
    simp only [Option.ite_none_right_eq_some, Option.some.injEq] at hn
    obtain ⟨⟨-, hold⟩, rfl⟩ := hn
    exact (hkey k e (mem_entries_iff.mp hmem) hold).2
  · intro n hn
    obtain ⟨⟨k, e⟩, hmem, hn⟩ := List.mem_filterMap.mp hn
    simp only [Option.ite_none_right_eq_some, Option.some.injEq] at hn
    obtain ⟨⟨hown, hold⟩, rfl⟩ := hn
    have hlook := mem_entries_iff.mp hmem
    obtain ⟨hk, heq⟩ := hkey k e hlook hold
    rw [heq] at hown ⊢
    exact ⟨⟨hown, hk⟩, Option.isSome_iff_exists.mpr ⟨e, hlook⟩⟩

/-- A key change message is sent, and the entry for old keys is as old as this send. -/
theorem kcm_performed (p : Platform) (me : Identity) (now : ℤ) (a : Agent) (kcm : Bytes)
    {key iv : Bytes} (hkey : key.length = 16) (hiv : iv.length = 16) :
    ∃ b f, (Call.sendCtrlToNeighbors kcm "kcm" key iv broadcast).perform p me now a =
        (b, .ok (some f)) ∧
      (∀ e, b.globalNeighborList.lookup "old_keys" = some e → e.timestampLastKCM = now) ∧
      b.key = a.key ∧ b.iv = a.iv := by
  have hlen : ¬ (key.length ≠ 16 ∨ iv.length ≠ 16) := by
    rw [not_or, not_not, not_not]
    exact ⟨hkey, hiv⟩
  have haes := aesAccepts_of_length hkey hiv
  let stored := Agent.putNeighbor (Agent.setEvent a false .userCtrl) "old_keys"
    { encryptionKey := key, encryptionIV := iv, pubKey := some me.rsaKey.publickey,
      timestampLastKCM := now }
  refine ⟨{ stored with local_id := a.local_id + 1 },
    initialFrame p me "old_keys" key iv a.local_id 3 "ctrl" "kcm" broadcast kcm, ?_, ?_, rfl, rfl⟩
  · have hkeys : sendKeys me (Agent.setEvent a false .userCtrl) key iv = ("old_keys", key, iv) :=
      if_neg hlen
    have hstore : storeOldKeys me now (Agent.setEvent a false .userCtrl) key iv = stored :=
      if_neg hlen
    have hlayer : unicastLayer p stored kcm "ctrl" broadcast = .ok (some kcm) := by
      simp [unicastLayer]
    change sendFloodingMessage p me now (Agent.setEvent a false .userCtrl) kcm 3 "ctrl" "kcm" key iv
      broadcast = _
    simp only [sendFloodingMessage, hkeys, hstore, hlayer, haes, if_true]
    rfl
  · intro e he
    rw [show stored.globalNeighborList.lookup "old_keys" = some _ from lookup_putNeighbor _ _ _] at he
    rw [← Option.some.inj he]

/-- A whole round of `changeKeys`. -/
theorem changeKeys_steps (hown : me.hostname ≠ "" ∧ me.hostname ≠ "old_keys") {x : Round}
    (hout : Returning x.outside) (hc : Consistent me.hostname (Agent.links a))
    (hkey : a.key.length = 16) (hiv : a.iv.length = 16)
    (hfresh : x.listed - x.sent ≤ 3 * keyChangeInterval) :
    (changeKeys p me x a).2 = .ok () ∧
      Steps me.hostname (Agent.links a) (Agent.links (changeKeys p me x a).1) ∧
      (changeKeys p me x a).1.key = x.key ∧ (changeKeys p me x a).1.iv = x.iv := by
  let a₁ : Agent := { Agent.setEvent a false .changeKeys with key := x.key, iv := x.iv }
  let a₂ := onAPJoined x.outside me a₁ [ownEntry me x.joined a₁]
  have hjoin : Steps me.hostname (Agent.links a) (Agent.links a₂) :=
    onAPJoined_steps (a := a₁) hown.2 hout hc (by simp [ownEntry, hown])
  obtain ⟨hkey₂, hiv₂, -⟩ := joinOne_rest x.outside me a₁ (ownEntry me x.joined a₁)
  obtain ⟨b, f, hsend, hstamp, hkey₃, hiv₃⟩ := kcm_performed p me x.sent
    (Agent.setEvent a₂ true .changeKeys) x.kcm hkey hiv
  have hsent : Steps me.hostname (Agent.links a) (Agent.links b) := by
    have hperform := perform_steps p me x.sent (Agent.setEvent a₂ true .changeKeys)
      (.sendCtrlToNeighbors x.kcm "kcm" a.key a.iv broadcast)
    rw [hsend] at hperform
    exact hjoin.trans hperform
  have hc₃ := hc.steps hown.2 hsent
  obtain ⟨entry, hentry⟩ : ∃ entry, b.globalNeighborList.lookup me.hostname = some entry := by
    rw [← Option.isSome_iff_exists, ← listed_isSome, hc₃.present]
    rfl
  -- the own entry is stamped in place
  let b' := Agent.setEvent (Agent.putNeighbor b me.hostname
    { entry with timestampLastKCM := x.stamped }) false .neighborUpdate
  have hput : Agent.links b' = Agent.links b := links_replace hentry rfl
  have hold : ∀ e, b'.globalNeighborList.lookup "old_keys" = some e →
      x.listed - e.timestampLastKCM ≤ 3 * keyChangeInterval := by
    intro e he
    have he' : b.globalNeighborList.lookup "old_keys" = some e :=
      (AList.lookup_insert_ne hown.2.symm).symm.trans he
    rw [hstamp e he']
    exact hfresh
  obtain ⟨hnodup, hnodes⟩ := expiredNeighbors_spec x.listed (hput ▸ hc₃) hold
  obtain ⟨hok, hsteps⟩ := leaveAll_steps hown.2 hout (hput ▸ hc₃) hnodup hnodes
  have hop := (leaveAll_op x.outside (expiredNeighbors me x.listed b'.globalNeighborList) b').1
  have hrun : changeKeys p me x a =
      (Agent.setEvent (leaveAll x.outside (expiredNeighbors me x.listed b'.globalNeighborList) b').1
        true .neighborUpdate, .ok ()) := by
    have hvalid : changeKeys p me x a = validateCurrentNeighborList x.outside me x.listed
        (Agent.putNeighbor b me.hostname { entry with timestampLastKCM := x.stamped }) := by
      simp only [changeKeys]
      rw [show (Call.sendCtrlToNeighbors x.kcm "kcm" a.key a.iv broadcast).perform p me x.sent
        (Agent.setEvent (onAPJoined x.outside me a₁ [ownEntry me x.joined a₁]) true .changeKeys) =
          (b, .ok (some f)) from hsend]
      simp only [hentry]
    rw [hvalid]
    unfold validateCurrentNeighborList
    dsimp only
    rcases hall : leaveAll x.outside (expiredNeighbors me x.listed b'.globalNeighborList) b' with
      ⟨c, e | u⟩
    · rw [hall] at hok
      cases hok
    · rfl
  rw [hrun]
  refine ⟨rfl, ?_, ?_, ?_⟩
  · rw [hput] at hsteps
    exact hsent.trans hsteps
  · exact hop.key.trans (hkey₃.trans hkey₂)
  · exact hop.iv.trans (hiv₃.trans hiv₂)

theorem onAPJoined_keys (out : Outside) (me : Identity) (entries : List Neighbor) (a : Agent) :
    (onAPJoined out me a entries).key = a.key ∧ (onAPJoined out me a entries).iv = a.iv := by
  unfold onAPJoined
  induction entries generalizing a with
  | nil => exact ⟨rfl, rfl⟩
  | cons e rest ih =>
    rw [List.foldl_cons]
    obtain ⟨hkey, hiv, -⟩ := joinOne_rest out me a e
    exact ⟨(ih _).1.trans hkey, (ih _).2.trans hiv⟩

theorem perform_keys (p : Platform) (me : Identity) (now : ℤ) (a : Agent) (call : Call) :
    (call.perform p me now a).1.key = a.key ∧ (call.perform p me now a).1.iv = a.iv := by
  obtain ⟨hkey, hiv, -⟩ := setEvent_key a false (Call.event call)
  have hrest := storeOldKeys_rest me now (Agent.setEvent a false (Call.event call)) call.keys.1
    call.keys.2
  have hstored : (storeOldKeys me now (Agent.setEvent a false (Call.event call)) call.keys.1
      call.keys.2).key = a.key ∧ (storeOldKeys me now (Agent.setEvent a false (Call.event call))
      call.keys.1 call.keys.2).iv = a.iv := by
    rw [hrest]
    exact ⟨hkey, hiv⟩
  rw [Call.perform_eq]
  dsimp only
  split
  · exact hstored
  · exact hstored
  · exact hstored

end Operations

/-- What happens to the table of an agent. -/
inductive TableOp where
  | onAPJoined (out : Outside) (scanResultList : List Neighbor)
  | onAPLeft (out : Outside) (adjacentNode : String)
  | receiveKcm (world : World) (f : Frame) (text : PyText.Text)
  | send (now : ℤ) (call : Call)
  | changeKeys (x : Round)
  | registerNewApplication (ns : String)

def TableOp.apply (p : Platform) (me : Identity) (a : Agent) : TableOp → Agent
  | .onAPJoined out scanResultList => AgentState.onAPJoined out me a scanResultList
  | .onAPLeft out adjacentNode => (AgentState.onAPLeft out a adjacentNode).1
  | .receiveKcm world f text => (handleKcm world me a f text).agent
  | .send now call => (call.perform p me now a).1
  | .changeKeys x => (LinkNotices.changeKeys p me x a).1
  | .registerNewApplication ns => LinkNotices.registerNewApplication a ns

/-- Advertised addresses are not those of the special entries, only listed peers leave, a
key change message names its sender, the entry for old keys is fresh when the
expired neighbors are listed, and no callback raises. -/
def TableOp.Proper (me : Identity) (a : Agent) : TableOp → Prop
  | .onAPJoined out scanResultList => Returning out ∧
      ∀ e ∈ scanResultList, e.ipAddress ≠ "" ∧ e.ipAddress ≠ "old_keys"
  | .onAPLeft out adjacentNode => Returning out ∧ adjacentNode ∈ getNeighbors me a
  | .receiveKcm world f text => Returning world.outside ∧ ∃ freq ssid host,
      f.host = some (.str host) ∧ parseKcm text = .ok (freq, ssid, host) ∧
        host ≠ me.hostname ∧ host ≠ "old_keys"
  | .send _ _ => True
  | .changeKeys x => Returning x.outside ∧ x.listed - x.sent ≤ 3 * keyChangeInterval
  | .registerNewApplication _ => True

def run (p : Platform) (me : Identity) (a : Agent) (ops : List TableOp) : Agent :=
  ops.foldl (TableOp.apply p me) a

def AllProper (p : Platform) (me : Identity) : Agent → List TableOp → Prop
  | _, [] => True
  | a, op :: rest => op.Proper me a ∧ AllProper p me (op.apply p me a) rest

/-- An agent after `init_self_connection`. -/
def connected (out : Outside) (me : Identity) (now : ℤ) (key iv : Bytes) : Agent :=
  onAPJoined out me { key := key, iv := iv } [ownEntry me now { key := key, iv := iv }]

section Runs

/-- The invariant of a run. -/
structure Agreeing (me : Identity) (a : Agent) : Prop where
  links : Consistent me.hostname (Agent.links a)
  key : a.key.length = 16
  iv : a.iv.length = 16

theorem register_steps (a : Agent) (ns : String) :
    Steps me.hostname (Agent.links a) (Agent.links (registerNewApplication a ns)) := by
  unfold registerNewApplication
  split
  · exact .refl
  · rename_i hnew
    exact .single (.register ns hnew)

/-- Each operation is a sequence of steps of the model. -/
theorem apply_steps (hown : me.hostname ≠ "" ∧ me.hostname ≠ "old_keys") (h : Agreeing me a)
    (op : TableOp) (hop : op.Proper me a) :
    Steps me.hostname (Agent.links a) (Agent.links (op.apply p me a)) ∧
      Agreeing me (op.apply p me a) := by
  have hkeep : ∀ b, Steps me.hostname (Agent.links a) (Agent.links b) → b.key = a.key →
      b.iv = a.iv → Steps me.hostname (Agent.links a) (Agent.links b) ∧ Agreeing me b := by
    intro b hsteps hkey hiv
    exact ⟨hsteps, h.links.steps hown.2 hsteps, hkey ▸ h.key, hiv ▸ h.iv⟩
  cases op with
  | onAPJoined out scanResultList =>
    obtain ⟨hkey, hiv⟩ := onAPJoined_keys out me scanResultList a
    exact hkeep _ (onAPJoined_steps hown.2 hop.1 h.links hop.2) hkey hiv
  | onAPLeft out adjacentNode =>
    obtain ⟨hn, hold, hlisted⟩ := ((getNeighbors_spec h.links).2 adjacentNode).mp hop.2
    have hleft := (EntryOp.onAPLeft out a adjacentNode).op
    exact hkeep _ (.single (onAPLeft_step hop.1 h.links ⟨hn, hold⟩ hlisted).2.2) hleft.key hleft.iv
  | receiveKcm world f text =>
    obtain ⟨hout, freq, ssid, host, hhost, htext, hname⟩ := hop
    obtain ⟨hsteps, hkey, hiv⟩ := handleKcm_steps hout h.links hhost htext hname
    exact hkeep _ hsteps hkey hiv
  | send now call =>
    obtain ⟨hkey, hiv⟩ := perform_keys p me now a call
    exact hkeep _ (perform_steps p me now a call) hkey hiv
  | changeKeys x =>
    obtain ⟨-, hsteps, hkey, hiv⟩ := changeKeys_steps (p := p) hown hop.1 h.links h.key h.iv hop.2
    refine ⟨hsteps, h.links.steps hown.2 hsteps, ?_, ?_⟩
    · exact (congrArg List.length hkey).trans x.key_length
    · exact (congrArg List.length hiv).trans x.iv_length
  | registerNewApplication ns =>
    refine hkeep _ (register_steps a ns) ?_ ?_
    · simp only [TableOp.apply, registerNewApplication]
      split <;> rfl
    · simp only [TableOp.apply, registerNewApplication]
      split <;> rfl

theorem run_steps (hown : me.hostname ≠ "" ∧ me.hostname ≠ "old_keys") (h : Agreeing me a)
    (ops : List TableOp) (hops : AllProper p me a ops) :
    Steps me.hostname (Agent.links a) (Agent.links (run p me a ops)) ∧
      Agreeing me (run p me a ops) := by
  induction ops generalizing a with
  | nil => exact ⟨.refl, h⟩
  | cons op rest ih =>
    obtain ⟨hsteps, hagree⟩ := apply_steps (p := p) hown h op hops.1
    obtain ⟨hrest, hlast⟩ := ih hagree hops.2
    exact ⟨hsteps.trans hrest, hlast⟩

theorem allProper_append (pre post : List TableOp) :
    AllProper p me a (pre ++ post) ↔ AllProper p me a pre ∧ AllProper p me (run p me a pre) post := by
  induction pre generalizing a with
  | nil => simp [AllProper, run]
  | cons op rest ih =>
    simp only [List.cons_append, AllProper, ih, and_assoc]
    rfl

theorem connected_agreeing (now : ℤ) {key iv : Bytes}
    (hown : me.hostname ≠ "" ∧ me.hostname ≠ "old_keys") (hkey : key.length = 16)
    (hiv : iv.length = 16) (hconn : out.connects me.hostname = true) :
    Agreeing me (connected out me now key iv) := by
  have hagent : connected out me now key iv =
      { key := key, iv := iv, frontend := [(me.hostname, .snd)],
        globalNeighborList := AList.insert me.hostname
          (ownEntry me now { key := key, iv := iv }) ∅ } := by
    simp [connected, onAPJoined, joinOne, ownEntry, hconn, notifyNewLink]
  have hlisted : ∀ n, (Agent.links (connected out me now key iv)).listed n =
      if n = me.hostname then some me.hostname else none := by
    intro n
    rw [hagent]
    split
    · rename_i hn
      rw [hn]
      exact congrArg (Option.map Neighbor.ipAddress) (AList.lookup_insert (∅ : NeighborList))
    · rename_i hn
      exact congrArg (Option.map Neighbor.ipAddress)
        (AList.lookup_insert_ne (s := (∅ : NeighborList)) hn)
  have hlinks : (Agent.links (connected out me now key iv)).connected = [(me.hostname, .snd)] := by
    rw [hagent]
    rfl
  refine ⟨⟨?_, ?_, ?_, ?_, ?_, ?_, ?_, ?_⟩, ?_, ?_⟩
  · rw [hlisted, if_pos rfl]
  · intro k n _ hk
    rw [hlisted] at hk
    split at hk
    · rename_i heq
      rw [heq]
      exact (Option.some.inj hk).symm
    · cases hk
  · intro n hn
    rw [hlisted, if_neg hown.2.symm] at hn
    cases hn
  · rw [hlisted, if_neg hown.1.symm]
  · rw [hlinks]
    exact List.nodup_singleton _
  · intro n port
    rw [hlinks, hlisted, List.mem_singleton, Prod.mk.injEq]
    by_cases hn : n = me.hostname
    · simp [hn]
    · simp [hn]
  · rw [hagent]
    exact List.nodup_nil
  · rw [hagent]
    intro notice hmem
    cases hmem
  · rw [hagent]
    exact hkey
  · rw [hagent]
    exact hiv

end Runs

/-- Table, endpoints and notices agree, whatever joins, leaves, key changes, sends and
registrations an agent goes through: an entry stands under its own address,
`getNeighbors` returns every key but the two special ones once, the frontend is
connected to these and to the own sender, and an application has been told of
every change of a node that was not listed when it registered. -/
theorem table_links_agree (p : Platform) (me : Identity) (out : Outside) (now : ℤ) (key iv : Bytes)
    (hown : me.hostname ≠ "" ∧ me.hostname ≠ "old_keys") (hkey : key.length = 16)
    (hiv : iv.length = 16) (hconn : out.connects me.hostname = true) (ops : List TableOp)
    (hops : AllProper p me (connected out me now key iv) ops) :
    let a := run p me (connected out me now key iv) ops
    (∀ k e, k ≠ "old_keys" → a.globalNeighborList.lookup k = some e → e.ipAddress = k) ∧
      (getNeighbors me a).Nodup ∧
      (∀ n, n ∈ getNeighbors me a ↔
        n ≠ me.hostname ∧ n ≠ "old_keys" ∧ (a.globalNeighborList.lookup n).isSome = true) ∧
      a.frontend.Nodup ∧
      (∀ link, link ∈ a.frontend ↔
        link = (me.hostname, .snd) ∨ ∃ n ∈ getNeighbors me a, link = (n, .fwd)) ∧
      ∀ pre ns post n, ops = pre ++ .registerNewApplication ns :: post →
        ns ∉ (run p me (connected out me now key iv) pre).globalAppList → n ≠ "old_keys" →
        (run p me (connected out me now key iv) pre).globalNeighborList.lookup n = none →
        Informed ns n (Agent.links a) := by
  have hstart := connected_agreeing now hown hkey hiv hconn
  obtain ⟨-, hend⟩ := run_steps hown hstart ops hops
  obtain ⟨hnodup, hmem⟩ := getNeighbors_spec hend.links
  refine ⟨?_, hnodup, hmem, hend.links.nodup, ?_, ?_⟩
  · intro k e hk hlook
    refine hend.links.named k _ hk ?_
    simp [Agent.links, hlook]
  · rintro ⟨n, port⟩
    have hlinked := hend.links.linked n port
    rw [listed_isSome] at hlinked
    refine hlinked.trans ?_
    simp only [Prod.mk.injEq, hmem]
    constructor
    · rintro (hself | ⟨rfl, hpeer⟩)
      · exact Or.inl hself
      · exact Or.inr ⟨n, hpeer, rfl, rfl⟩
    · rintro (hself | ⟨m, hpeer, rfl, rfl⟩)
      · exact Or.inl hself
      · exact Or.inr ⟨rfl, hpeer⟩
  · rintro pre ns post n rfl hnew hn hnone
    rw [allProper_append] at hops
    obtain ⟨-, hpre⟩ := run_steps hown hstart pre hops.1
    obtain ⟨-, hreg⟩ := apply_steps (p := p) hown hpre (.registerNewApplication ns) trivial
    obtain ⟨hsteps, -⟩ := run_steps hown hreg post hops.2.2
    have hlinks : Agent.links (registerNewApplication
        (run p me (connected out me now key iv) pre) ns) =
          (Agent.links (run p me (connected out me now key iv) pre)).register ns := by
      rw [registerNewApplication, if_neg hnew]
      rfl
    have hinformed : Informed ns n _ := Informed.start hpre.links hnew (by simp [Agent.links, hnone])
    have hrun : run p me (connected out me now key iv) (pre ++ .registerNewApplication ns :: post) =
        run p me (registerNewApplication (run p me (connected out me now key iv) pre) ns) post := by
      simp [run, List.foldl_append, TableOp.apply]
    rw [hrun]
    exact hinformed.steps hown.2 hn (hlinks ▸ hreg.links) (hlinks ▸ hsteps)

/-- An application registers, a neighbor joins, the keys change, the neighbor announces
new keys and is lost because the scans do not show them. -/
def sampleOps : List TableOp :=
  [.registerNewApplication "cran",
    .onAPJoined quietOutside
      [{ ipAddress := "10.0.0.2", encryptionKey := sampleKey, encryptionIV := sampleKey,
         timestampLastKCM := 0 }],
    .changeKeys
      { joined := 1, sent := 1, stamped := 2, listed := 2, key := List.replicate 16 6,
        iv := List.replicate 16 6, key_length := rfl, iv_length := rfl, kcm := [49],
        outside := quietOutside },
    .receiveKcm KeyChanges.quietReceive sampleFrame
      "2412|home|10.0.0.2".toList]

theorem sampleOps_proper :
    AllProper listPlatform sampleIdentity
      (connected quietOutside sampleIdentity 0 sampleKey sampleKey) sampleOps := by
  have hquiet : Returning quietOutside := ⟨fun _ _ => rfl, fun _ _ => rfl⟩
  refine ⟨trivial, ⟨hquiet, ?_⟩, ⟨hquiet, by decide⟩, ⟨hquiet, 2412, "home", "10.0.0.2", rfl, ?_,
    by decide, by decide⟩, trivial⟩
  · intro e he
    rw [List.mem_singleton] at he
    subst he
    exact ⟨by decide, by decide⟩
  · rfl

theorem table_links_agree_sample :
    let a := run listPlatform sampleIdentity
      (connected quietOutside sampleIdentity 0 sampleKey sampleKey) sampleOps
    a.notices = [.newLink "cran" "10.0.0.2", .linkFailure "cran" "10.0.0.2"] ∧
      Informed "cran" "10.0.0.2" (Agent.links a) :=
  ⟨by decide, (table_links_agree listPlatform sampleIdentity quietOutside 0 sampleKey sampleKey
    (by decide) rfl rfl rfl sampleOps sampleOps_proper).2.2.2.2.2 [] "cran" _ "10.0.0.2" rfl
    (by decide) (by decide) (by decide)⟩

end Nxwlan.LinkNotices
