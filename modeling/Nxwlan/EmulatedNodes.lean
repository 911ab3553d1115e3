import Nxwlan.FloodPasses
import Nxwlan.KeyRefresh
import Nxwlan.KeyRollover
import Nxwlan.LinkNotices
import Nxwlan.MininetConnector
import Nxwlan.OwnEntry

/-!
Agents in an emulated network. A node that starts joins itself, asks its neighbors with a
full scan and joins those that answer; each of them handles the request in its own time. A
node that changes its keys announces it, and a neighbor that takes up the announcement
scans for the new keys. Requests and announcements are handled in any order.
-/
namespace Nxwlan.EmulatedNetwork

open JsonFrames AgentState Messaging PyText ReceiveLoop MininetConnector
open AgentThreads (ownEntry keyChangeInterval expiredNeighbors leaveAll)
open LinkNotices (Returning Round connected changeKeys Agreeing)
open OwnFrames (HasKeys)
open FloodNetwork (Topology)
open Base64 (Bytes)

section Model

/-- The links, and the addresses of the interfaces: those of a node, and the node that an
address on a link belongs to. -/
structure Wiring extends Topology where
  nodup : ∀ v, (links v).Nodup
  ips : String → List String
  owner : String → String

inductive Letter where
  | request (d : Datagram)
  /-- A key change message, with the keys that it is sent under. -/
  | kcm (text key iv : Bytes)

structure Envelope where
  source : String
  target : String
  letter : Letter

/-- `raised` if one of its threads has ended by an exception. -/
structure Node where
  me : Identity
  agent : Agent
  probeResponseContent : Text := []
  up : Bool := false
  raised : Bool := false

structure Net where
  nodes : String → Node
  flight : List Envelope

/-- What a node advertises. -/
def Node.advert (node : Node) (freq : ℤ) : ProbeAdverts.Advert where
  key := node.agent.key
  iv := node.agent.iv
  pubKey := node.me.rsaKey.publickey
  hostname := asciiBytes node.me.hostname.toList
  freq := freq

/-- A scan of a node. -/
def Node.scan (p : Platform) (node : Node) (now : ℤ) (ifs : List (String × List Datagram)) :
    Except PyError NeighborList :=
  performActiveScan p now node.me.hostname ifs (hexEncode (p.exportKey node.me.rsaKey.publickey))
    (hexEncode node.agent.key) (hexEncode node.agent.iv)

/-- The entries of a dictionary. -/
def results (list : NeighborList) : List Neighbor := list.entries.map (fun e => e.2)

/-- What a start takes from outside: keys, times, frequency, the answers of the world, what the
scan reads, and the addresses under which a neighbor hears the request. -/
structure Start where
  key : Bytes
  iv : Bytes
  key_length : key.length = 16
  iv_length : iv.length = 16
  joined : ℤ
  scanned : ℤ
  freq : ℤ
  outside : Outside
  ifs : List (String × List Datagram)
  sources : String → List String

/-- The node that `__init__` leaves: it answers requests once its own scan is over. -/
def Node.start (p : Platform) (node : Node) (x : Start) : Node :=
  let a := connected x.outside node.me x.joined x.key x.iv
  let node := { node with agent := a }
  match node.scan p x.scanned x.ifs with
  | .error _ => { node with raised := true }
  | .ok scanResults =>
      { node with
        agent := onAPJoined x.outside node.me a (results scanResults)
        probeResponseContent := responseOf p (node.advert x.freq)
        up := true }

/-- The probe requests of a start, to the neighbors that are up. -/
def Net.requests (p : Platform) (W : Wiring) (net : Net) (v : String) (x : Start) :
    List Envelope :=
  let node := { net.nodes v with agent := connected x.outside (net.nodes v).me x.joined x.key x.iv }
  ((W.links v).filter (fun w => (net.nodes w).up)).flatMap (fun w =>
    (x.sources w).map (fun address =>
      ⟨v, w, .request ⟨address, requestOf p (node.advert x.freq)⟩⟩))

def Net.start (p : Platform) (W : Wiring) (net : Net) (v : String) (x : Start) : Net where
  nodes := Function.update net.nodes v ((net.nodes v).start p x)
  flight := net.flight ++ net.requests p W v x

/-- The target handles a probe request. -/
def Node.takeRequest (p : Platform) (node : Node) (ips : List String)
    (world : ProbeRequests.World) (d : Datagram) : Node :=
  let r := subscribeToProbeRequests p world node.me ips node.probeResponseContent node.agent d
  { node with agent := r.1.1, raised := decide (r.1.2 ≠ .returned) }

/-- One round of `changeKeys`, which also programs the new keys into the responses. -/
def Node.changeKeys (p : Platform) (node : Node) (x : Round) : Node :=
  let r := LinkNotices.changeKeys p node.me x node.agent
  { node with
    agent := r.1
    probeResponseContent := responseOf p ({ node with agent := r.1 }.advert 0)
    raised := !r.2.isOk }

/-- The announcement reaches the neighbors that are connected to the sender's forwarder. -/
def Net.changeKeys (p : Platform) (W : Wiring) (net : Net) (v : String) (x : Round) : Net where
  nodes := Function.update net.nodes v ((net.nodes v).changeKeys p x)
  flight := net.flight ++ ((W.links v).filter (fun w =>
    (net.nodes w).up && (net.nodes w).agent.frontend.elem (v, Port.fwd))).map (fun w =>
      ⟨v, w, .kcm x.kcm (net.nodes v).agent.key (net.nodes v).agent.iv⟩)

/-- The world in which a node handles an announcement: scan `k` reads `ifs k`. -/
def Node.scanning (p : Platform) (node : Node) (world : World) (now : ℕ → ℤ)
    (ifs : ℕ → List (String × List Datagram)) : World :=
  { world with
    outside := { world.outside with
      performActiveScan := fun _ _ k => (node.scan p (now k) (ifs k)).map results } }

/-- The target handles a key change message. -/
def Node.takeKcm (p : Platform) (node : Node) (world : World) (now : ℕ → ℤ)
    (ifs : ℕ → List (String × List Datagram)) (f : Frame) (text : Bytes) : Node :=
  let h := handleKcm (node.scanning p world now ifs) node.me node.agent f (unicodeText text)
  { node with agent := h.agent, raised := decide (h.ended ≠ .returned) }

/-- The responses that a scan of `v` reads come from all neighbors that are up, and from
nobody else. -/
structure Heard (W : Wiring) (net : Net) (v : String) (ifs : List (String × List Datagram)) :
    Prop where
  ips : ifs.map Prod.fst = W.ips v
  answers : ∀ d ∈ received v ifs, Foreign (W.ips v) d →
    W.owner d.address ∈ W.links v ∧ (net.nodes (W.owner d.address)).up = true ∧
      d.content = (net.nodes (W.owner d.address)).probeResponseContent
  all : ∀ w ∈ W.links v, (net.nodes w).up = true →
    ∃ d ∈ received v ifs, Foreign (W.ips v) d ∧ W.owner d.address = w

/-- Hostnames are ASCII addresses without a bar; none is one of the special names. -/
structure NodeName (v : String) : Prop where
  ascii : ∀ c ∈ v.toList, c.toNat < 128
  bar : '|' ∉ v.toList
  nonempty : v ≠ ""
  oldKeys : v ≠ "old_keys"
  error : v ≠ "Error"

/-- Public keys of `der` bytes in DER, which can be imported again. -/
structure NodeKey (p : Platform) (der : ℕ) (k : RsaPublicKey) : Prop where
  length : (p.exportKey k).length = der
  imported : p.importKey (p.exportKey k) = some k

/-- Endpoints can be connected, and no callback of an application raises. -/
structure Friendly (out : Outside) : Prop where
  connects : ∀ node, out.connects node = true
  returning : Returning out

/-- `a'` has the keys of `a`, and the keys of all neighbors in its table. The entry for old
keys may be another one. -/
structure SameKeys (own : String) (a a' : Agent) : Prop where
  key : a'.key = a.key
  iv : a'.iv = a.iv
  links : LinkSteps.Steps own (LinkNotices.Agent.links a) (LinkNotices.Agent.links a')
  entries : ∀ n, n ≠ "old_keys" → (a'.globalNeighborList.lookup n).map
      (fun e => (e.encryptionKey, e.encryptionIV, e.pubKey)) =
    (a.globalNeighborList.lookup n).map (fun e => (e.encryptionKey, e.encryptionIV, e.pubKey))

/-- No neighbor in the table is due to expire. -/
def NoneExpired (now : ℤ) (a : Agent) (W : Wiring) (v : String) : Prop :=
  ∀ w ∈ W.links v, ∀ e, a.globalNeighborList.lookup w = some e →
    now - e.timestampLastKCM ≤ 3 * keyChangeInterval

/-- The steps of the network. A node changes its keys only when what it has sent before is
taken up, and before a neighbor expires; other threads keep the keys in the tables. -/
inductive Step (p : Platform) (der : ℕ) (W : Wiring) : Net → Net → Prop
  | start (net : Net) (v : String) (x : Start) (hdown : (net.nodes v).up = false)
      (hruns : (net.nodes v).raised = false) (hname : NodeName v)
      (hkey : NodeKey p der (net.nodes v).me.rsaKey.publickey) (hout : Friendly x.outside)
      (hheard : Heard W net v x.ifs)
      (hsources : ∀ w ∈ W.links v, x.sources w ≠ [] ∧ ∀ address ∈ x.sources w, address ∉ W.ips w) :
      Step p der W net (net.start p W v x)
  | request (net : Net) (before after : List Envelope) (v u : String) (d : Datagram)
      (world : ProbeRequests.World) (hflight : net.flight = before ++ ⟨v, u, .request d⟩ :: after)
      (hruns : (net.nodes u).raised = false) (hwait : ∀ a, world.wait a = some a)
      (hout : Friendly world.outside) :
      Step p der W net
        { nodes := Function.update net.nodes u ((net.nodes u).takeRequest p (W.ips u) world d)
          flight := before ++ after }
  | changeKeys (net : Net) (v : String) (x : Round) (freq : ℤ) (hup : (net.nodes v).up = true)
      (hruns : (net.nodes v).raised = false) (hidle : ∀ e ∈ net.flight, e.source ≠ v)
      (hout : Friendly x.outside) (hnew : x.key ≠ (net.nodes v).agent.key)
      (hkcm : x.kcm = KeyRefresh.kcmMessage freq (asciiBytes (virtualSsid v).toList)
        (asciiBytes v.toList))
      (hfresh : x.listed - x.sent ≤ 3 * keyChangeInterval)
      (hexpired : NoneExpired x.listed (net.nodes v).agent W v) :
      Step p der W net (net.changeKeys p W v x)
  | kcm (net : Net) (before after : List Envelope) (v u : String) (text key iv : Bytes)
      (world : World) (now : ℕ → ℤ) (ifs : ℕ → List (String × List Datagram)) (f : Frame)
      (hflight : net.flight = before ++ ⟨v, u, .kcm text key iv⟩ :: after)
      (hruns : (net.nodes u).raised = false) (hout : Friendly world.outside)
      (hhost : f.host = some (.str v)) (hheard : ∀ k, Heard W net u (ifs k)) :
      Step p der W net
        { nodes := Function.update net.nodes u ((net.nodes u).takeKcm p world now ifs f text)
          flight := before ++ after }
  | others (net : Net) (u : String) (a : Agent)
      (hsame : SameKeys (net.nodes u).me.hostname (net.nodes u).agent a) :
      Step p der W net
        { net with nodes := Function.update net.nodes u { net.nodes u with agent := a } }

/-- All nodes have their names, none has been started, and nothing is under way. -/
structure Net.Initial (net : Net) : Prop where
  names : ∀ v, (net.nodes v).me.hostname = v
  down : ∀ v, (net.nodes v).up = false
  runs : ∀ v, (net.nodes v).raised = false
  flight : net.flight = []

end Model

section Tables

variable {p : Platform} {out : Outside} {me : Identity} {a : Agent} {entry r : Neighbor}
  {n : String}

theorem notifyNewLink_table (out : Outside) (node : String) (apps : List String) (a : Agent) :
    (notifyNewLink out node apps a).globalNeighborList = a.globalNeighborList := by
  rw [ThreadSteps.notifyNewLink_rest]

/-- Whoever joins, the other entries stay. -/
theorem joinOne_others (hn : n ≠ entry.ipAddress) :
    (joinOne out me a entry).globalNeighborList.lookup n = a.globalNeighborList.lookup n := by
  cases hlook : a.globalNeighborList.lookup entry.ipAddress with
  | some old =>
    have hjoin : joinOne out me a entry =
        Forwarder.Agent.putNeighbor a entry.ipAddress (old.update entry) :=
      Rescans.onAPJoined_known hlook
    rw [hjoin]
    exact (Rescans.EntryOnly.putNeighbor entry.ipAddress a _).others n hn
  | none =>
    simp only [joinOne, hlook, Option.isSome_none, Bool.false_eq_true, if_false]
    split
    · rw [notifyNewLink_table]
      exact AList.lookup_insert_ne hn
    · rfl

/-- The table has this key, this vector and this public key for a node. -/
def Knows (a : Agent) (n : String) (key iv : Bytes) (pubKey : RsaPublicKey) : Prop :=
  ∃ e, a.globalNeighborList.lookup n = some e ∧ e.encryptionKey = key ∧ e.encryptionIV = iv ∧
    e.pubKey = some pubKey

variable {key iv : Bytes} {pubKey : RsaPublicKey}

theorem Knows.of_lookup {b : Agent} (h : Knows a n key iv pubKey)
    (hlook : b.globalNeighborList.lookup n = a.globalNeighborList.lookup n) :
    Knows b n key iv pubKey := by
  obtain ⟨e, he, hkeys⟩ := h
  exact ⟨e, hlook.trans he, hkeys⟩

/-- An entry that carries keys. -/
structure Carries (entry : Neighbor) (key iv : Bytes) (pubKey : RsaPublicKey) : Prop where
  encryptionKey : entry.encryptionKey = key
  encryptionIV : entry.encryptionIV = iv
  publicKey : entry.pubKey = some pubKey
  key_ne : key ≠ []
  iv_ne : iv ≠ []

theorem Carries.update (h : Carries entry key iv pubKey) (old : Neighbor) :
    (old.update entry).encryptionKey = key ∧ (old.update entry).encryptionIV = iv ∧
      (old.update entry).pubKey = some pubKey := by
  simp [Neighbor.update, h.encryptionKey, h.encryptionIV, h.publicKey, h.key_ne, h.iv_ne]

theorem joinOne_knows (h : Carries entry key iv pubKey)
    (hconn : out.connects entry.ipAddress = true) :
    Knows (joinOne out me a entry) entry.ipAddress key iv pubKey := by
  cases hlook : a.globalNeighborList.lookup entry.ipAddress with
  | some old =>
    have hjoin : joinOne out me a entry =
        Forwarder.Agent.putNeighbor a entry.ipAddress (old.update entry) :=
      Rescans.onAPJoined_known hlook
    rw [hjoin]
    exact ⟨_, Rescans.lookup_putNeighbor _ a _, h.update old⟩
  | none =>
    simp only [joinOne, hlook, Option.isSome_none, Bool.false_eq_true, if_false, hconn, if_true]
    refine ⟨entry, ?_, h.encryptionKey, h.encryptionIV, h.publicKey⟩
    rw [notifyNewLink_table]
    exact AList.lookup_insert _

theorem onAPJoined_others {entries : List Neighbor} (hn : ∀ r ∈ entries, r.ipAddress ≠ n) :
    (onAPJoined out me a entries).globalNeighborList.lookup n = a.globalNeighborList.lookup n := by
  unfold onAPJoined
  induction entries generalizing a with
  | nil => rfl
  | cons r rest ih =>
    rw [List.foldl_cons, ih (fun r' hr' => hn r' (by simp [hr']))]
    exact joinOne_others (hn r (by simp)).symm

/-- What a dictionary of entries has for a node is known afterwards. -/
theorem onAPJoined_knows {entries : List Neighbor} (hdict : KeyRollover.ByAddress entries)
    (hr : r ∈ entries) (h : Carries r key iv pubKey) (hconn : ∀ node, out.connects node = true) :
    Knows (onAPJoined out me a entries) r.ipAddress key iv pubKey := by
  induction entries generalizing a with
  | nil => cases hr
  | cons r₀ rest ih =>
    rw [KeyRollover.ByAddress, List.map_cons, List.nodup_cons] at hdict
    obtain ⟨hnew, hrest⟩ := hdict
    rcases List.mem_cons.mp hr with rfl | hmem
    · have hothers : ∀ r' ∈ rest, r'.ipAddress ≠ r.ipAddress := by
        intro r' hr' hip
        exact hnew (List.mem_map.mpr ⟨r', hr', hip⟩)
      exact (joinOne_knows h (hconn _)).of_lookup (onAPJoined_others hothers)
    · exact ih hrest hmem

theorem mem_results {list : NeighborList} : r ∈ results list ↔ ∃ n, list.lookup n = some r := by
  constructor
  · intro hr
    obtain ⟨⟨n, e⟩, he, rfl⟩ := List.mem_map.mp hr
    exact ⟨n, AList.mem_lookup_iff.mpr he⟩
  · rintro ⟨n, hn⟩
    exact List.mem_map.mpr ⟨⟨n, r⟩, AList.mem_lookup_iff.mp hn, rfl⟩

theorem byAddress_results {list : NeighborList}
    (hnamed : ∀ n e, list.lookup n = some e → e.ipAddress = n) :
    KeyRollover.ByAddress (results list) := by
  have hkeys : (results list).map Neighbor.ipAddress = list.keys := by
    rw [results, List.map_map, AList.keys, List.keys]
    apply List.map_congr_left
    rintro ⟨n, e⟩ he
    exact hnamed n e (AList.mem_lookup_iff.mpr he)
  rw [KeyRollover.ByAddress, hkeys]
  exact list.keys_nodup

theorem perform_others (p : Platform) (me : Identity) (now : ℤ) (a : Agent) (call : Call)
    (hn : n ≠ "old_keys") :
    (call.perform p me now a).1.globalNeighborList.lookup n = a.globalNeighborList.lookup n := by
  have hstore : ∀ (b : Agent) (key iv : Bytes),
      (storeOldKeys me now b key iv).globalNeighborList.lookup n =
        b.globalNeighborList.lookup n := by
    intro b key iv
    unfold storeOldKeys
    split
    · rfl
    · exact (Rescans.EntryOnly.putNeighbor "old_keys" b _).others n hn
  have hevent : ∀ (b : Agent) (v : Bool) (e : AgentThreads.Event),
      (AgentThreads.Agent.setEvent b v e).globalNeighborList = b.globalNeighborList := by
    intro b v e
    cases e <;> rfl
  have hstored := hstore (AgentThreads.Agent.setEvent a false (AgentThreads.Call.event call))
    call.keys.1 call.keys.2
  rw [hevent] at hstored
  rw [AgentThreads.Call.perform_eq]
  dsimp only
  split
  · exact hstored
  · rw [hevent]
    exact hstored
  · exact hstored

/-- A change of the keys: the own entry gets them, and no neighbor loses its entry that is not
due to expire. -/
theorem changeKeys_lookup (p : Platform) {x : Round}
    (hown : me.hostname ≠ "" ∧ me.hostname ≠ "old_keys") (hout : Returning x.outside)
    (h : Agreeing me a) :
    HasKeys (changeKeys p me x a).1 me.hostname x.key x.iv ∧
      ∀ n, n ≠ me.hostname → n ≠ "old_keys" → n ≠ "" →
        (∀ e, a.globalNeighborList.lookup n = some e →
          x.listed - e.timestampLastKCM ≤ 3 * keyChangeInterval) →
        (changeKeys p me x a).1.globalNeighborList.lookup n = a.globalNeighborList.lookup n := by
  let a₁ : Agent :=
    { AgentThreads.Agent.setEvent a false .changeKeys with key := x.key, iv := x.iv }
  let a₂ := onAPJoined x.outside me a₁ [ownEntry me x.joined a₁]
  let a₃ := AgentThreads.Agent.setEvent a₂ true .changeKeys
  have hpresent : (a₁.globalNeighborList.lookup me.hostname).isSome = true := by
    have hlisted := LinkNotices.listed_isSome a me.hostname
    rw [h.links.present] at hlisted
    exact hlisted.symm
  have hkeys : HasKeys a₂ me.hostname x.key x.iv :=
    OwnEntry.ownEntry_joined (a := a₁) x.joined x.key_length x.iv_length hpresent
  obtain ⟨b, f, hsend, -⟩ := LinkNotices.kcm_performed p me x.sent a₃ x.kcm h.key h.iv
  have hb : ∀ n, n ≠ "old_keys" →
      b.globalNeighborList.lookup n = a₂.globalNeighborList.lookup n := by
    intro n hn
    have hlook := perform_others p me x.sent a₃
      (.sendCtrlToNeighbors x.kcm "kcm" a.key a.iv broadcast) hn
    rw [hsend] at hlook
    exact hlook
  have hsteps : LinkSteps.Steps me.hostname (LinkNotices.Agent.links a)
      (LinkNotices.Agent.links b) := by
    have hperform := LinkNotices.perform_steps p me x.sent a₃
      (.sendCtrlToNeighbors x.kcm "kcm" a.key a.iv broadcast)
    rw [hsend] at hperform
    exact (LinkNotices.onAPJoined_steps (a := a₁) hown.2 hout h.links
      (by simp [ownEntry, hown])).trans hperform
  have hconsistent := h.links.steps hown.2 hsteps
  obtain ⟨entry, hentry, hekey, heiv⟩ := hkeys
  rw [← hb _ hown.2] at hentry
  -- the own entry is stamped, then the expired neighbors leave
  let c := AgentThreads.Agent.setEvent (Forwarder.Agent.putNeighbor b me.hostname
    { entry with timestampLastKCM := x.stamped }) false .neighborUpdate
  have hrun : (changeKeys p me x a).1.globalNeighborList =
      (leaveAll x.outside (expiredNeighbors me x.listed c.globalNeighborList)
        c).1.globalNeighborList := by
    have hvalid : changeKeys p me x a = LinkNotices.validateCurrentNeighborList x.outside me
        x.listed (Forwarder.Agent.putNeighbor b me.hostname
          { entry with timestampLastKCM := x.stamped }) := by
      unfold changeKeys
      dsimp only
      rw [hsend]
      simp only [hentry]
    rw [hvalid]
    unfold LinkNotices.validateCurrentNeighborList
    dsimp only
    split
    · rename_i hleave
      exact (congrArg (fun r => r.1.globalNeighborList) hleave).symm
    · rename_i hleave
      exact (congrArg (fun r => r.1.globalNeighborList) hleave).symm
  have hstay := (ThreadSteps.leaveAll_op x.outside
    (expiredNeighbors me x.listed c.globalNeighborList) c).2.2
  have hown' : me.hostname ∉ expiredNeighbors me x.listed c.globalNeighborList := by
    intro hmem
    obtain ⟨⟨k, e⟩, -, he⟩ := List.mem_filterMap.mp hmem
    simp only [Option.ite_none_right_eq_some, Option.some.injEq] at he
    exact he.1.1 he.2
  refine ⟨⟨{ entry with timestampLastKCM := x.stamped }, ?_, hekey, heiv⟩, ?_⟩
  · rw [hrun, hstay _ hown']
    exact Rescans.lookup_putNeighbor me.hostname b _
  · intro n hn hold hempty hfresh
    have hc : ∀ k, k ≠ me.hostname →
        c.globalNeighborList.lookup k = b.globalNeighborList.lookup k :=
      fun k hk => (Rescans.EntryOnly.putNeighbor me.hostname b _).others k hk
    have hbn : b.globalNeighborList.lookup n = a.globalNeighborList.lookup n := by
      rw [hb n hold]
      exact onAPJoined_others (fun r hr => by rw [List.mem_singleton.mp hr]; exact hn.symm)
    have hnot : n ∉ expiredNeighbors me x.listed c.globalNeighborList := by
      intro hmem
      obtain ⟨⟨k, e⟩, he, hlist⟩ := List.mem_filterMap.mp hmem
      simp only [Option.ite_none_right_eq_some, Option.some.injEq] at hlist
      obtain ⟨⟨-, hexpired⟩, rfl⟩ := hlist
      have hlook : c.globalNeighborList.lookup k = some e := AList.mem_lookup_iff.mpr he
      by_cases hk : k = me.hostname
      · rw [hk, show c.globalNeighborList.lookup me.hostname = some _ from
          Rescans.lookup_putNeighbor me.hostname b _] at hlook
        rw [← Option.some.inj hlook] at hn
        refine hn (hconsistent.named me.hostname _ hown.2 ?_)
        simp [LinkNotices.Agent.links, hentry]
      · rw [hc k hk] at hlook
        have hlisted : (LinkNotices.Agent.links b).listed k = some e.ipAddress := by
          simp [LinkNotices.Agent.links, hlook]
        by_cases hko : k = "old_keys"
        · rw [hko] at hlisted
          exact hempty (hconsistent.special _ hlisted)
        · have hname := hconsistent.named k _ hko hlisted
          rw [← hname, hbn] at hlook
          exact absurd hexpired (not_lt.mpr (hfresh e hlook))
    rw [hrun, hstay n hnot, hc n hn, hbn]

end Tables

section Names

variable {v : String}

theorem NodeName.read_back (h : NodeName v) :
    String.ofList (asciiText (asciiBytes v.toList)) = v := by
  rw [PayloadPaths.asciiText_asciiBytes h.ascii, String.ofList_toList]

theorem NodeName.bytes_ne (h : NodeName v) : asciiBytes v.toList ≠ [] := by
  intro hnil
  refine h.nonempty ?_
  rw [← h.read_back, hnil]
  rfl

/-- An announcement is taken apart as it was put together. -/
theorem NodeName.parseKcm (h : NodeName v) (freq : ℤ) :
    parseKcm (unicodeText (KeyRefresh.kcmMessage freq (asciiBytes (virtualSsid v).toList)
      (asciiBytes v.toList))) = .ok (freq, virtualSsid v, v) := by
  have hssid : (virtualSsid v).toList = v.toList ++ "-virtual-SSID".toList := String.toList_append
  have hend : ∀ c ∈ "-virtual-SSID".toList, c.toNat < 128 ∧ c ≠ '|' := forall_of_all (by decide)
  have hascii : ∀ c ∈ (virtualSsid v).toList, c.toNat < 128 := by
    intro c hc
    rw [hssid] at hc
    rcases List.mem_append.mp hc with hc | hc
    · exact h.ascii c hc
    · exact (hend c hc).1
  have hbar : '|' ∉ (virtualSsid v).toList := by
    intro hc
    rw [hssid] at hc
    rcases List.mem_append.mp hc with hc | hc
    · exact h.bar hc
    · exact (hend '|' hc).2 rfl
  obtain ⟨n, hparse⟩ := KeyRefresh.parseKcm_showInt freq (virtualSsid v).toList v.toList
  rw [KeyRefresh.unicodeText_message, PayloadPaths.unicodeText_asciiBytes hascii,
    PayloadPaths.unicodeText_asciiBytes h.ascii, hparse, split_letter_append (n + 1) _ hbar,
    split_letter_none (n + 1) h.bar]
  simp only [String.ofList_toList]

end Names

end Nxwlan.EmulatedNetwork
