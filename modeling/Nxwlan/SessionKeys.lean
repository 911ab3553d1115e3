import Nxwlan.OwnEntry
import Nxwlan.PayloadPaths

/-!
Unicast session keys between two agents. A thread in `sendToNeighbor` asks for a
key with "ruk" frames until one has come or it gives up; the receive thread of
the other agent answers with "nuk" and stores what it has sent. The keys live in
the neighbor entries, which other threads update, remove and make anew meanwhile.
Every frame that was ever sent may arrive at any time, any number of times.
-/
namespace Nxwlan.SessionKeys

open JsonFrames AgentState Forwarder Messaging Rescans ReceiveLoop ReceiveSurvival PayloadPaths
open Base64 (Bytes)

inductive SendResult where
  | success
  | maxRetries
  | unknownNeighbor
  deriving DecidableEq

/-- Where a thread is in `sendToNeighbor`: in front of the test of the loop, of the
request, of the count of the retries, or of the sending of the message. -/
inductive Sending where
  | idle
  | test (message : Bytes) (nodeID : String) (retries : ℕ)
  | ask (message : Bytes) (nodeID : String) (retries : ℕ)
  | asked (message : Bytes) (nodeID : String) (retries : ℕ)
  | send (message : Bytes) (nodeID : String)
  | returned (result : SendResult)
  | raised
  deriving DecidableEq

/-- Where the receive thread is with a control message: in front of the answer to a
request, of an assignment to the entry of the host, or ended by an exception. -/
inductive Handling where
  | idle
  | reply (host : String) (key iv : Bytes) (fresh : Bool)
  | storeRecKey (host : String) (key iv : Bytes)
  | storeRecIv (host : String) (iv : Bytes)
  | storeSendIv (host : String) (nukMsg : Json)
  | ended

def max_retries : ℕ := 5

def rukCall (nodeID : String) : Call := .sendCtrlToNeighbors [] "ruk" [] [] nodeID

def nukCall (key iv : Bytes) (nodeID : String) : Call :=
  .sendCtrlToNeighbors (nukMessage key iv) "nuk" [] [] nodeID

/-- The first steps of `sendToNeighbor`. -/
def sendToNeighbor (a : Agent) (message : Bytes) (nodeID : String) : Agent × Sending :=
  match a.globalNeighborList.lookup nodeID with
  | none => (a, .returned .unknownNeighbor)
  | some entry =>
      if entry.unicastSendKey.length > 0 then (a, .send message nodeID)
      else
        (Agent.putNeighbor a nodeID { entry with waitingForUnicastKeys := false },
          .test message nodeID 0)

/-- A call by a thread that goes on to `next`, or ends with the exception of the call.
The last part is the call if a frame was sent. -/
def performing {stage : Type} (p : Platform) (me : Identity) (now : ℤ) (a : Agent) (call : Call)
    (next raised : stage) : Agent × stage × Option Call :=
  match call.perform p me now a with
  | (a, .error _) => (a, raised, none)
  | (a, .ok sent) => (a, next, sent.map (fun _ => call))

/-- The next step of a thread in `sendToNeighbor`. -/
def sendStep (p : Platform) (me : Identity) (now : ℤ) (a : Agent) :
    Sending → Agent × Sending × Option Call
  | .test message nodeID retries =>
      match a.globalNeighborList.lookup nodeID with
      | none => (a, .raised, none)
      | some entry =>
          if entry.waitingForUnicastKeys then (a, .send message nodeID, none)
          else (a, .ask message nodeID retries, none)
  | .ask message nodeID retries =>
      performing p me now a (rukCall nodeID) (.asked message nodeID retries) .raised
  | .asked message nodeID retries =>
      if retries + 1 ≥ max_retries then
        match a.globalNeighborList.lookup nodeID with
        | none => (a, .raised, none)
        | some entry =>
            (Agent.putNeighbor a nodeID { entry with waitingForUnicastKeys := true },
              .returned .maxRetries, none)
      else (a, .test message nodeID (retries + 1), none)
  | .send message nodeID =>
      performing p me now a (.sendToNeighbor message nodeID) (.returned .success) .raised
  | stage => (a, stage, none)

/-- A request for a unicast key, up to the answer. -/
def startRuk (world : World) (a : Agent) (f : Frame) : Agent × Handling :=
  match entryAt f.host a.globalNeighborList with
  | .error _ => (a, .ended)
  | .ok none => (a, .idle)
  | .ok (some (host, entry)) =>
      if entry.unicastRecKey.length > 2 then
        (a, .reply host entry.unicastRecKey entry.unicastRecIv false)
      else (a, .reply host world.freshKeys.1 world.freshKeys.2 true)

/-- An answer, up to the assignment of the key. -/
def startNuk (world : World) (a : Agent) (f : Frame) (text : PyText.Text) : Agent × Handling :=
  match entryAt f.host a.globalNeighborList with
  | .error _ => (a, .ended)
  | .ok none => (a, .idle)
  | .ok (some (host, entry)) =>
      match world.loads text with
      | none => (a, .ended)
      | some nukMsg =>
          match nukField "key" nukMsg with
          | .error _ => (a, .ended)
          | .ok key =>
              (Agent.putNeighbor a host { entry with unicastSendKey := key },
                .storeSendIv host nukMsg)

/-- A round of the receive loop that is not cut into steps. -/
def finished (h : Handled) : Agent × Handling :=
  (h.agent, if h.ended = .returned then .idle else .ended)

/-- The receive thread takes a frame of its forwarder. -/
def takeFrame (p : Platform) (world : World) (me : Identity) (a : Agent) (f : Frame) :
    Agent × Handling :=
  match receiveMessage p me a f with
  | .ctrl plain =>
      if toMe me f && f.sub_type.isNone then (a, .ended)
      else if f.sub_type.any (·.isStr "ruk") then
        startRuk world (Agent.setNeighborMessage a true) f
      else if f.sub_type.any (·.isStr "nuk") then
        startNuk world (Agent.setNeighborMessage a true) f (unicodeText plain)
      else
        finished (handleCtrl p world me (Agent.setNeighborMessage a true) f (unicodeText plain))
  | received => finished (handleText p world me a f received)

/-- The next step of the receive thread. Each assignment looks the entry up anew. -/
def handleStep (p : Platform) (me : Identity) (now : ℤ) (a : Agent) :
    Handling → Agent × Handling × Option Call
  | .reply host key iv fresh =>
      performing p me now a (nukCall key iv host)
        (if fresh then .storeRecKey host key iv else .idle) .ended
  | .storeRecKey host key iv =>
      match a.globalNeighborList.lookup host with
      | none => (a, .ended, none)
      | some entry =>
          (Agent.putNeighbor a host { entry with unicastRecKey := key }, .storeRecIv host iv, none)
  | .storeRecIv host iv =>
      match a.globalNeighborList.lookup host with
      | none => (a, .ended, none)
      | some entry =>
          (Agent.putNeighbor a host { entry with unicastRecIv := iv }, .idle, none)
  | .storeSendIv host nukMsg =>
      match nukField "iv" nukMsg, a.globalNeighborList.lookup host with
      | .ok iv, some entry =>
          (Agent.putNeighbor a host
            { entry with unicastSendIv := iv, waitingForUnicastKeys := true }, .idle, none)
      | _, _ => (a, .ended, none)
  | stage => (a, stage, none)

/-- The steps of the receive thread one after the other, without other threads. -/
def settle (p : Platform) (me : Identity) (now : ℤ) : ℕ → Agent → Handling → Agent × Handling
  | 0, a, stage => (a, stage)
  | n + 1, a, stage =>
      let next := handleStep p me now a stage
      settle p me now n next.1 next.2.1

section Replies

theorem hexEncode_ascii (s : Bytes) : ∀ c ∈ hexEncode s, c.toNat < 128 := by
  apply hexEncode_digits
  decide

theorem nukMessage_ascii (key iv : Bytes) : ∀ c ∈ "\x7b\"key\": \"".toList ++ hexEncode key ++
    "\", \"iv\": \"".toList ++ hexEncode iv ++ "\"\x7d".toList, c.toNat < 128 := by
  intro c hc
  simp only [List.mem_append] at hc
  rcases hc with (((hc | hc) | hc) | hc) | hc
  · exact (PyText.forall_of_all (by decide) : ∀ c ∈ "\x7b\"key\": \"".toList, c.toNat < 128) c hc
  · exact hexEncode_ascii key c hc
  · exact (PyText.forall_of_all (by decide) : ∀ c ∈ "\", \"iv\": \"".toList, c.toNat < 128) c hc
  · exact hexEncode_ascii iv c hc
  · exact (PyText.forall_of_all (by decide) : ∀ c ∈ "\"\x7d".toList, c.toNat < 128) c hc

/-- Two answers with the same text bear the same keys. -/
theorem nukMessage_inj {key iv key' iv' : Bytes} (hlen : key.length = key'.length)
    (h : nukMessage key iv = nukMessage key' iv') : key = key' ∧ iv = iv' := by
  have hhex : (hexEncode key).length = (hexEncode key').length := by
    simp [hexEncode, List.length_flatMap, hlen]
  have htext := congrArg asciiText h
  unfold nukMessage at htext
  rw [asciiText_asciiBytes (nukMessage_ascii key iv),
    asciiText_asciiBytes (nukMessage_ascii key' iv')] at htext
  simp only [List.append_assoc, List.append_cancel_left_eq] at htext
  obtain ⟨hkey, hrest⟩ := List.append_inj htext hhex
  simp only [List.append_cancel_left_eq, List.append_cancel_right_eq] at hrest
  exact ⟨Option.some.inj ((unhex_hexEncode key).symm.trans (hkey ▸ unhex_hexEncode key')),
    Option.some.inj ((unhex_hexEncode iv).symm.trans (hrest ▸ unhex_hexEncode iv'))⟩

/-- What the receiver of an answer reads in it. -/
theorem nukField_reply {name : String} {fields : List (String × Json)} {value : Bytes}
    (h : fields.lookup name = some (.str (String.ofList (hexEncode value)))) :
    nukField name (.obj fields) = .ok value := by
  have hascii : (hexEncode value).all (fun c => c.toNat < 128) = true := by
    simpa using hexEncode_ascii value
  simp only [nukField, getItem, h, field, Except.bind, decodeHexValue, String.toList_ofList,
    hascii, if_true, ProbeRequests.decodeHex, unhex_hexEncode]

end Replies

/-- The callback of an application leaves the agent as it was. -/
theorem rxCbInternal_agent (world : World) (a : Agent) (f : Frame) (text : PyText.Text) :
    (rxCbInternal world a f text).agent = a := by
  unfold rxCbInternal
  split
  · rfl
  · split
    · rfl
    · split
      · split
        · rfl
        · rfl
      · rfl
    · rfl

/-- What is taken for a control message is one. -/
theorem msg_type_of_ctrl {p : Platform} {me : Identity} {a : Agent} {f : Frame} {plain : Bytes}
    (h : receiveMessage p me a f = .ctrl plain) : f.msg_type = some (.str "ctrl") := by
  unfold receiveMessage at h
  split at h
  · cases h
  · split at h
    · cases h
    · split at h
      · cases h
      · cases h
      · split at h
        · cases h
        · cases h
        · cases h
        · rename_i msg_type htype
          split at h
          · rename_i hctrl
            rw [Json.isStr_iff] at hctrl
            rw [← hctrl, ← field_ok]
            exact htype
          · cases h

section Rounds

variable {p : Platform} {world : World} {me : Identity} {a : Agent} {f : Frame}

theorem settle_of_rest {now : ℤ} {stage : Handling} (hrest : stage = .idle ∨ stage = .ended)
    (n : ℕ) : settle p me now n a stage = (a, stage) := by
  induction n with
  | zero => rfl
  | succ n ih =>
    rcases hrest with rfl | rfl
    · exact ih
    · exact ih

theorem settle_finished (now : ℤ) (n : ℕ) (h : Handled) :
    (settle p me now n (finished h).1 (finished h).2).1 = h.agent := by
  rw [settle_of_rest]
  · rfl
  · unfold finished
    dsimp only
    split
    · exact Or.inl rfl
    · exact Or.inr rfl

/-- The answer to a request in one piece. -/
theorem handleRuk_settled (hwait : world.sendWait = some) :
    (handleRuk p world me a f).agent =
      (settle p me world.now 3 (startRuk world a f).1 (startRuk world a f).2).1 := by
  unfold handleRuk startRuk
  rcases entryAt f.host a.globalNeighborList with e | _ | ⟨host, entry⟩
  · rfl
  · rfl
  · simp only [hwait]
    by_cases hknown : entry.unicastRecKey.length > 2
    · simp only [hknown, if_true]
      rw [settle, handleStep, performing, nukCall]
      rcases (Call.sendCtrlToNeighbors (nukMessage entry.unicastRecKey entry.unicastRecIv) "nuk" []
        [] host).perform p me world.now a with ⟨b, e | sent⟩
      · exact congrArg Prod.fst (settle_of_rest (Or.inr rfl) 2).symm
      · exact congrArg Prod.fst (settle_of_rest (Or.inl rfl) 2).symm
    · simp only [hknown, if_false]
      rw [settle, handleStep, performing, nukCall]
      rcases (Call.sendCtrlToNeighbors (nukMessage world.freshKeys.1 world.freshKeys.2) "nuk" []
        [] host).perform p me world.now a with ⟨b, e | sent⟩
      · exact congrArg Prod.fst (settle_of_rest (Or.inr rfl) 2).symm
      · dsimp only
        cases hlook : b.globalNeighborList.lookup host with
        | none => simp only [settle, handleStep, hlook, if_true]
        | some entry' =>
          -- the second assignment finds the entry that the first one has left
          simp only [settle, handleStep, hlook, if_true, lookup_putNeighbor]
          simp only [Agent.putNeighbor, AList.insert_insert]

/-- An answer in one piece. -/
theorem handleNuk_settled (now : ℤ) (text : PyText.Text) :
    (handleNuk world a f text).agent =
      (settle p me now 3 (startNuk world a f text).1 (startNuk world a f text).2).1 := by
  unfold handleNuk startNuk
  rcases entryAt f.host a.globalNeighborList with e | _ | ⟨host, entry⟩
  · rfl
  · rfl
  · cases world.loads text with
    | none => rfl
    | some nukMsg =>
      dsimp only
      cases nukField "key" nukMsg with
      | error e => rfl
      | ok key =>
        dsimp only
        cases hiv : nukField "iv" nukMsg with
        | error e => simp only [settle, handleStep, hiv]
        | ok iv =>
          simp only [settle, handleStep, hiv, lookup_putNeighbor]
          simp only [Agent.putNeighbor, AList.insert_insert]

/-- Without other threads in between, the steps make up the round of the receive loop. -/
theorem takeFrame_settled (hwait : world.sendWait = some) :
    (receiveRound p world me a f).agent =
      (settle p me world.now 3 (takeFrame p world me a f).1 (takeFrame p world me a f).2).1 := by
  rw [receiveRound_eq]
  unfold takeFrame
  cases receiveMessage p me a f with
  | ctrl plain =>
    simp only [handleText]
    split
    · rfl
    · cases hsub : f.sub_type with
      | none => exact (settle_finished world.now 3 _).symm
      | some sub_type =>
        simp only [Option.any_some]
        by_cases hruk : sub_type.isStr "ruk" = true
        · obtain rfl := (Json.isStr_iff _ _).mp hruk
          rw [if_pos hruk, ← handleRuk_settled hwait]
          simp [handleCtrl, hsub, field, Json.isStr]
        · by_cases hnuk : sub_type.isStr "nuk" = true
          · obtain rfl := (Json.isStr_iff _ _).mp hnuk
            rw [if_neg hruk, if_pos hnuk, ← handleNuk_settled]
            simp [handleCtrl, hsub, field, Json.isStr]
          · rw [if_neg hruk, if_neg hnuk]
            exact (settle_finished world.now 3 _).symm
  | _ => exact (settle_finished world.now 3 _).symm

end Rounds

end Nxwlan.SessionKeys
