import Nxwlan.ProbeRequests
import Nxwlan.Rescans

/-!
One round of the loop of `receiveMessage`: a frame of the own forwarder is
decrypted and checked, then handled as a key change (kcm), as a request for a
unicast key (ruk), as the answer to one (nuk), or given to the application by
`rxCbInternal`. Nothing in the loop catches an exception: one that is raised
ends the receive thread.
-/
namespace Nxwlan.ReceiveLoop

open JsonFrames AgentState Forwarder Messaging PyText
open Base64 (Bytes)
open ProbeRequests (Ended decodeHex)

/-- What the loop meets outside its own code: the clock, the states in which the
waits before a key change and before a send return, if they do, the parser
`json.loads`, fresh unicast keys, and whether an application's `rx_cb` returns. -/
structure World where
  now : ℤ
  kcmWait : Agent → Option Agent
  sendWait : Agent → Option Agent
  loads : Text → Option Json
  freshKeys : Bytes × Bytes
  rx_cb : String → Json → Bool
  outside : Outside

/-- What one round leaves behind: the agent, how the round ended, the answer it has
sent and the call of an application it has made. -/
structure Handled where
  agent : Agent
  ended : Ended := .returned
  sent : Option Frame := none
  called : Option (String × Json) := none

/-- `unicode(plain, errors='ignore')`: bytes outside ASCII are left out. -/
def unicodeText (plain : Bytes) : Text := asciiText (plain.filter (fun b => b < 128))

/-- The table entry of a JSON value used as a key; only texts can be keys. -/
def entryAt (v : Option Json) (list : NeighborList) :
    Except PyError (Option (String × Neighbor)) :=
  match (field v).bind Json.dictKey with
  | .error e => .error e
  | .ok (.str name) => .ok ((list.lookup name).map (fun entry => (name, entry)))
  | .ok _ => .ok none

theorem entryAt_some {v : Option Json} {list : NeighborList} {host : String} {entry : Neighbor}
    (h : entryAt v list = .ok (some (host, entry))) : list.lookup host = some entry := by
  unfold entryAt at h
  split at h
  · cases h
  · obtain ⟨e, he, hpair⟩ := Option.map_eq_some_iff.mp (Except.ok.inj h)
    obtain ⟨rfl, rfl⟩ := Prod.mk.inj hpair
    exact he
  · cases h

/-- Frequency, network name and address of a key change message. -/
def parseKcm (text : Text) : Except PyError (ℤ × String × String) :=
  match split "|".toList text.length text with
  | [] => .error .indexError
  | first :: rest =>
      match readInt first with
      | none => .error .valueError
      | some freq =>
          match rest with
          | ssid :: ipAddress :: _ => .ok (freq, String.ofList ssid, String.ofList ipAddress)
          | _ => .error .indexError

/-- The entry that a key change message is turned into. -/
def kcmEntry (now freq : ℤ) (ssid ipAddress : String) : Neighbor :=
  { ipAddress := ipAddress, freq := freq, ssid := ssid, timestampLastKCM := now }

/-- From the clearing of the neighbor update event on. The host of the frame is
looked up; the update and the rescan go to the address in the text. -/
def handleKcm (world : World) (me : Identity) (a : Agent) (f : Frame) (text : Text) : Handled :=
  let a := Agent.setNeighborUpdate a false
  match parseKcm text with
  | .error e => { agent := a, ended := .raised e }
  | .ok (freq, ssid, ipAddress) =>
      match entryAt f.host a.globalNeighborList with
      | .error e => { agent := a, ended := .raised e }
      | .ok none => { agent := Agent.setNeighborUpdate a true }
      | .ok (some _) =>
          match parse_existing_neighbor (kcmEntry world.now freq ssid ipAddress)
              a.globalNeighborList with
          | .error e => { agent := a, ended := .raised e }
          | .ok list =>
              match rescan_neighbor world.outside me { a with globalNeighborList := list }
                  freq ssid ipAddress 10 with
              | (a, .error e) => { agent := a, ended := .raised e }
              | (a, .ok _) => { agent := Agent.setNeighborUpdate a true }

def lowerHex (n : ℕ) : Char :=
  if n < 10 then Char.ofNat ('0'.toNat + n) else Char.ofNat ('a'.toNat + (n - 10))

/-- `s.encode("hex")`. -/
def hexEncode (s : Bytes) : Text :=
  s.flatMap (fun b => [lowerHex (b.toNat / 16), lowerHex (b.toNat % 16)])

/-- What holds of the sixteen digits holds of every hex text. -/
theorem hexEncode_digits {P : Char → Prop} (hdigit : ∀ n < 16, P (lowerHex n)) (s : Bytes) :
    ∀ c ∈ hexEncode s, P c := by
  intro c hc
  obtain ⟨b, -, hb⟩ := List.mem_flatMap.mp hc
  have hlt := b.toNat_lt
  simp only [List.mem_cons, List.not_mem_nil, or_false] at hb
  rcases hb with rfl | rfl
  · exact hdigit _ (by omega)
  · exact hdigit _ (by omega)

theorem hexValue_lowerHex (n : ℕ) (h : n < 16) : hexValue (lowerHex n) = some n := by
  interval_cases n <;> decide

theorem unhex_hexEncode (s : Bytes) : unhex (hexEncode s) = some s :=
  unhex_digits hexValue_lowerHex s

/-- The text of an answer with a unicast key: `json.dumps` of the two fields. -/
def nukMessage (key iv : Bytes) : Bytes :=
  asciiBytes ("\x7b\"key\": \"".toList ++ hexEncode key ++ "\", \"iv\": \"".toList ++
    hexEncode iv ++ "\"\x7d".toList)

/-- A request for a unicast key. A key that exists is sent again; a new one is sent
and then stored, in an entry that is looked up anew. -/
def handleRuk (p : Platform) (world : World) (me : Identity) (a : Agent) (f : Frame) : Handled :=
  match entryAt f.host a.globalNeighborList with
  | .error e => { agent := a, ended := .raised e }
  | .ok none => { agent := a }
  | .ok (some (host, entry)) =>
      let known := entry.unicastRecKey.length > 2
      let keys := if known then (entry.unicastRecKey, entry.unicastRecIv) else world.freshKeys
      match world.sendWait a with
      | none => { agent := a, ended := .blocked }
      | some a =>
          match (Call.sendCtrlToNeighbors (nukMessage keys.1 keys.2) "nuk" [] [] host).perform
              p me world.now a with
          | (a, .error e) => { agent := a, ended := .raised e }
          | (a, .ok sent) =>
              if known then { agent := a, sent := sent }
              else
                match a.globalNeighborList.lookup host with
                | none => { agent := a, ended := .raised .keyError, sent := sent }
                | some entry =>
                    { agent := Agent.putNeighbor a host
                        { entry with unicastRecKey := keys.1, unicastRecIv := keys.2 }
                      sent := sent }

/-- `value[name]`. -/
def getItem (name : String) : Json → Except PyError Json
  | .obj fields => field (fields.lookup name)
  | _ => .error .typeError

/-- `value.decode('hex')`. -/
def decodeHexValue : Json → Except PyError Bytes
  | .str s =>
      if s.toList.all (fun c => c.toNat < 128) then decodeHex s.toList else .error .unicodeError
  | _ => .error .attributeError

def nukField (name : String) (nukMsg : Json) : Except PyError Bytes :=
  (getItem name nukMsg).bind decodeHexValue

/-- The answer to a request: the key is stored before the vector is read. -/
def handleNuk (world : World) (a : Agent) (f : Frame) (text : Text) : Handled :=
  match entryAt f.host a.globalNeighborList with
  | .error e => { agent := a, ended := .raised e }
  | .ok none => { agent := a }
  | .ok (some (host, entry)) =>
      match world.loads text with
      | none => { agent := a, ended := .raised .valueError }
      | some nukMsg =>
          match nukField "key" nukMsg with
          | .error e => { agent := a, ended := .raised e }
          | .ok key =>
              let entry := { entry with unicastSendKey := key }
              match nukField "iv" nukMsg with
              | .error e =>
                  { agent := Agent.putNeighbor a host entry, ended := .raised e }
              | .ok iv =>
                  { agent := Agent.putNeighbor a host
                      { entry with unicastSendIv := iv, waitingForUnicastKeys := true } }

/-- The log lines read host and payload as texts before the name space is looked
up. -/
def rxCbInternal (world : World) (a : Agent) (f : Frame) (text : Text) : Handled :=
  match world.loads text with
  | none => { agent := a, ended := .raised .valueError }
  | some payload =>
      match (do
        (← field f.host).printable
        payload.printable
        let _ ← entryAt f.host a.globalNeighborList
        let ns ← getItem "NS" payload
        let key ← ns.dictKey
        pure (ns, key)) with
      | .error e => { agent := a, ended := .raised e }
      | .ok (ns, .str name) =>
          if name ∈ a.globalAppList then
            match ns.printable with
            | .error e => { agent := a, ended := .raised e }
            | .ok () =>
                { agent := a, called := some (name, payload)
                  ended := if world.rx_cb name payload then .returned
                    else .raised .callbackError }
          else { agent := a }
      | .ok _ => { agent := a }

/-- A control message, by its kind; other kinds are ignored. -/
def handleCtrl (p : Platform) (world : World) (me : Identity) (a : Agent) (f : Frame)
    (text : Text) : Handled :=
  match field f.sub_type with
  | .error e => { agent := a, ended := .raised e }
  | .ok sub_type =>
      if sub_type.isStr "kcm" then
        match world.kcmWait a with
        | none => { agent := a, ended := .blocked }
        | some a => handleKcm world me a f text
      else if sub_type.isStr "ruk" then handleRuk p world me a f
      else if sub_type.isStr "nuk" then handleNuk world a f text
      else { agent := a }

/-- The frame is a unicast to this agent. -/
def toMe (me : Identity) (f : Frame) : Bool :=
  f.receiver.any (fun r => !r.isStr broadcast && r.isStr me.hostname)

/-- One round of the loop. The neighbor message event is set once the frame has been
decrypted; the log line of a unicast control message reads its kind before. -/
def receiveRound (p : Platform) (world : World) (me : Identity) (a : Agent) (f : Frame) :
    Handled :=
  match receiveMessage p me a f with
  | .own => { agent := a }
  | .badSignature => { agent := a }
  | .noUnicastKey => { agent := a }
  | .raised e => { agent := a, ended := .raised e }
  | .ctrl plain =>
      if toMe me f && f.sub_type.isNone then { agent := a, ended := .raised .keyError }
      else handleCtrl p world me (Agent.setNeighborMessage a true) f (unicodeText plain)
  | .callback plain =>
      rxCbInternal world (Agent.setNeighborMessage a true) f (unicodeText plain)

end Nxwlan.ReceiveLoop
