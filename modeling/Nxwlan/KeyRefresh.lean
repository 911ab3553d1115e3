import Nxwlan.PayloadPaths
import Nxwlan.TextSearch

/-!
How a new key of a neighbor comes to be used. The neighbor announces a change of its
key by a message with its frequency, network name and address, set apart by bars;
the receiver takes the message apart again. A frame that came under the new key
before the table had it is kept over a pause and tried once more, with the key and
the vector that were read before the pause.
-/
namespace Nxwlan.KeyRefresh

open JsonFrames AgentState Forwarder Messaging PyText ReceiveLoop PayloadPaths
open Base64 (Bytes encodestring)
open PublishedFrames (quietOutside sampleKey sampleIdentity samplePeer sampleFrame)

section Announcement

/-- `str(self.freq)+"|"+str(self.ssid)+"|"+str(self.hostname)` in `changeKeys`. -/
def kcmMessage (freq : ℤ) (ssid hostname : Bytes) : Bytes :=
  asciiBytes (showInt freq) ++ asciiBytes ['|'] ++ ssid ++ asciiBytes ['|'] ++ hostname

/-- Bytes that the receiver neither leaves out nor cuts at. -/
def Plain (s : Bytes) : Prop := ∀ x ∈ s, x < 128 ∧ x ≠ 124

instance (s : Bytes) : Decidable (Plain s) := inferInstanceAs (Decidable (∀ x ∈ s, _))

theorem showInt_ascii (i : ℤ) : ∀ c ∈ showInt i, c.toNat < 128 := by
  intro c hc
  by_contra hlarge
  refine not_mem_showInt ?_ ?_ i hc
  · rintro rfl
    exact hlarge (by decide)
  · rw [Bool.eq_false_iff]
    intro hdigit
    have hle : c.toNat ≤ '9'.toNat := by
      simp only [Char.isDigit, Bool.and_eq_true, decide_eq_true_eq] at hdigit
      exact hdigit.2
    exact hlarge (Nat.lt_of_le_of_lt hle (by decide))

theorem unicodeText_append (s t : Bytes) :
    unicodeText (s ++ t) = unicodeText s ++ unicodeText t := by
  simp [unicodeText, asciiText]

theorem unicodeText_message (freq : ℤ) (ssid hostname : Bytes) :
    unicodeText (kcmMessage freq ssid hostname) =
      showInt freq ++ '|' :: (unicodeText ssid ++ '|' :: unicodeText hostname) := by
  have hbar : unicodeText (asciiBytes ['|']) = ['|'] := by decide
  simp only [kcmMessage, unicodeText_append, unicodeText_asciiBytes (showInt_ascii freq), hbar]
  simp

/-- Bytes of which none is left out. -/
theorem unicodeText_plain {s : Bytes} (h : Plain s) : unicodeText s = asciiText s := by
  rw [unicodeText, List.filter_eq_self.mpr]
  intro x hx
  exact decide_eq_true (h x hx).1

theorem toNat_ofNat_byte (x : UInt8) : (Char.ofNat x.toNat).toNat = x.toNat := by
  have hvalid : x.toNat.isValidChar := Or.inl (by have := x.toNat_lt; omega)
  rw [Char.ofNat, dif_pos hvalid]
  rfl

theorem not_mem_plain {s : Bytes} (h : Plain s) : '|' ∉ asciiText s := by
  intro hmem
  obtain ⟨x, hx, hbar⟩ := List.mem_map.mp hmem
  have hnum := congrArg Char.toNat hbar
  rw [toNat_ofNat_byte] at hnum
  exact (h x hx).2 (UInt8.toNat_inj.mp hnum)

theorem ascii_unicodeText {s : Bytes} {c : Char} (hc : c ∈ unicodeText s) : c.toNat < 128 := by
  obtain ⟨x, hx, rfl⟩ := List.mem_map.mp hc
  have hlt := of_decide_eq_true (List.mem_filter.mp hx).2
  rw [toNat_ofNat_byte]
  exact hlt

/-- A text of ASCII letters without a bar comes from such bytes. -/
theorem plain_of_letters {s : Bytes} (h : ∀ c ∈ asciiText s, c.toNat < 128 ∧ c ≠ '|') :
    Plain s := by
  intro x hx
  obtain ⟨hlt, hbar⟩ := h _ (List.mem_map.mpr ⟨x, hx, rfl⟩)
  rw [toNat_ofNat_byte] at hlt
  refine ⟨hlt, ?_⟩
  rintro rfl
  exact hbar rfl

/-- The frequency is always read back; what follows is cut at the bars. -/
theorem parseKcm_showInt (freq : ℤ) (s t : Text) :
    ∃ n, parseKcm (showInt freq ++ '|' :: (s ++ '|' :: t)) =
      match split ['|'] (n + 2) (s ++ '|' :: t) with
      | ssid :: ipAddress :: _ => .ok (freq, String.ofList ssid, String.ofList ipAddress)
      | _ => .error .indexError := by
  have hbar : '|' ∉ showInt freq := not_mem_showInt (by decide) (by decide) freq
  have hne : showInt freq ≠ [] := by
    intro hnil
    have hread := readInt_showInt freq
    rw [hnil] at hread
    cases hread
  obtain ⟨n, hn⟩ : ∃ n, (showInt freq ++ '|' :: (s ++ '|' :: t)).length = n + 3 := by
    have := List.length_pos_of_ne_nil hne
    refine ⟨(showInt freq).length - 1 + s.length + t.length, ?_⟩
    simp only [List.length_append, List.length_cons]
    omega
  refine ⟨n, ?_⟩
  have hsplit : split "|".toList (n + 3) (showInt freq ++ '|' :: (s ++ '|' :: t)) =
      showInt freq :: split ['|'] (n + 2) (s ++ '|' :: t) := split_letter_append _ _ hbar
  rw [parseKcm, hn, hsplit]
  rcases split ['|'] (n + 2) (s ++ '|' :: t) with _ | ⟨ssid, _ | ⟨ipAddress, rest⟩⟩
  · simp [readInt_showInt]
  · simp [readInt_showInt]
  · simp [readInt_showInt]

/-- The receiver reads what was sent exactly where network name and address have ASCII
letters only and no bar. -/
theorem kcm_round_trip_iff (freq : ℤ) (ssid hostname : Bytes) :
    parseKcm (unicodeText (kcmMessage freq ssid hostname)) =
        .ok (freq, String.ofList (asciiText ssid), String.ofList (asciiText hostname)) ↔
      Plain ssid ∧ Plain hostname := by
  rw [unicodeText_message]
  obtain ⟨n, hparse⟩ := parseKcm_showInt freq (unicodeText ssid) (unicodeText hostname)
  rw [hparse]
  constructor
  · intro hread
    obtain ⟨s, rest, hsplit, hletters⟩ := split_letter_head '|' (n + 1)
      (unicodeText ssid ++ '|' :: unicodeText hostname)
    rw [hsplit] at hread
    cases rest with
    | nil => cases hread
    | cons t rest =>
      simp only [Except.ok.injEq, Prod.mk.injEq, true_and] at hread
      obtain ⟨rfl, rfl⟩ : s = asciiText ssid ∧ t = asciiText hostname :=
        ⟨String.ofList_injective hread.1, String.ofList_injective hread.2⟩
      have hascii : ∀ c ∈ unicodeText ssid ++ '|' :: unicodeText hostname, c.toNat < 128 := by
        intro c hc
        rcases List.mem_append.mp hc with hc | hc
        · exact ascii_unicodeText hc
        · rcases List.mem_cons.mp hc with rfl | hc
          · decide
          · exact ascii_unicodeText hc
      have hssid : Plain ssid := plain_of_letters
        (fun c hc => ⟨hascii c (hletters c hc).1, (hletters c hc).2⟩)
      -- the first bar is the one behind the network name
      rw [unicodeText_plain hssid, split_letter_append _ _ (not_mem_plain hssid)] at hsplit
      obtain ⟨t, rest', hsplit', hletters'⟩ := split_letter_head '|' n (unicodeText hostname)
      rw [hsplit'] at hsplit
      obtain ⟨rfl, -⟩ := List.cons.inj (List.cons.inj hsplit).2
      exact ⟨hssid, plain_of_letters
        (fun c hc => ⟨ascii_unicodeText (hletters' c hc).1, (hletters' c hc).2⟩)⟩
  · rintro ⟨hssid, hhost⟩
    have hlast : split ['|'] (n + 1) (asciiText hostname) = [asciiText hostname] := by
      have hcut : cut ['|'] (asciiText hostname) = none :=
        cut_none_iff.mpr (not_infix_of_not_mem (List.mem_singleton.mpr rfl) (not_mem_plain hhost))
      rw [split, hcut]
    rw [unicodeText_plain hssid, unicodeText_plain hhost,
      split_letter_append _ _ (not_mem_plain hssid), hlast]

/-- The network name "a|b" is cut in two. -/
theorem bar_in_name_lost :
    parseKcm (unicodeText (kcmMessage 2412 (asciiBytes "a|b".toList)
        (asciiBytes "10.0.0.1".toList))) = .ok (2412, "a", "b") ∧
      parseKcm (unicodeText (kcmMessage 2412 (asciiBytes "a|b".toList)
        (asciiBytes "10.0.0.1".toList))) ≠
          .ok (2412, String.ofList (asciiText (asciiBytes "a|b".toList)),
            String.ofList (asciiText (asciiBytes "10.0.0.1".toList))) := by
  constructor <;> decide

end Announcement

section Retry

variable {p : Platform} {me : Identity} {w : Waits} {cache : FwdCache} {f g : Frame}
  {a a₁ b c : Agent} {name : String} {entry fresh : Neighbor} {plain : Bytes}

/-- A neighbor's frame is at its third decryption: the current key and the old one have
failed, and during the pause another thread has put the key and the vector into the
entry that the frame was encrypted with. -/
structure Refreshed (p : Platform) (me : Identity) (w : Waits) (cache : FwdCache) (a : Agent)
    (f g : Frame) (c : Agent) (name : String) (fresh : Neighbor) (plain : Bytes) : Prop where
  neighbor : ∃ a₁ b entry, filterFrame p me cache f = .ok g ∧ w.gate a = some a₁ ∧
    mark me g a₁ = .ok (true, b) ∧ lasthopEntry g b.globalNeighborList = .ok (some (name, entry)) ∧
    (∃ wrong, attempt p entry.encryptionKey entry.encryptionIV (verificationKey me name entry) g =
      .ok (wrong, false)) ∧
    (∃ wrong, attemptOld p (verificationKey me name entry) entry g = .ok (wrong, false)) ∧
    w.retry (Agent.setNeighborMessage b true) = some c
  updated : c.globalNeighborList.lookup name = some fresh
  encrypted : g.msg = some (.str (String.ofList
    (encodestring (p.encrypt fresh.encryptionKey fresh.encryptionIV plain))))
  signed : ∃ k sig, verificationKey me name fresh = some k ∧ g.sig = some sig ∧
    p.verify k (p.sha1 plain) sig = true

/-- The third decryption repeats the first one. -/
theorem retryStage_repeats {wrong : Bytes} (hwait : w.retry (Agent.setNeighborMessage b true) = some c)
    (hfirst : attempt p entry.encryptionKey entry.encryptionIV (verificationKey me name entry) g =
      .ok (wrong, false)) :
    retryStage p me w b g name entry =
      ((loseMessage me w (Agent.setNeighborMessage c false) name).1,
        .error (loseMessage me w (Agent.setNeighborMessage c false) name).2) := by
  simp only [retryStage, hwait, hfirst]

/-- The pass ends with the count of a lost message. -/
theorem pass_loses (h : Refreshed p me w cache a f g c name fresh plain) :
    initForwardingTTL p me w a cache f =
      { agent := (loseMessage me w (Agent.setNeighborMessage c false) name).1
        cache := cache
        stop := some (loseMessage me w (Agent.setNeighborMessage c false) name).2 } := by
  obtain ⟨a₁, b, entry, hfilter, hgate, hmark, hentry, ⟨wrong, hfirst⟩, ⟨wrong', hold⟩, hwait⟩ :=
    h.neighbor
  simp only [initForwardingTTL, hfilter, hgate, hmark, decodeStage, hentry, hfirst, hold, if_true,
    retryStage_repeats hwait hfirst]

/-- A lost message is counted in the entry, or its neighbor is scanned for or removed. -/
theorem loseMessage_counts (w : Waits) (me : Identity)
    (hlook : c.globalNeighborList.lookup name = some fresh) :
    (fresh.lostMessages + 1 < 5 ∧ (loseMessage me w c name).2 = .lost ∧
      (loseMessage me w c name).1.globalNeighborList.lookup name =
        some { fresh with lostMessages := fresh.lostMessages + 1,
                          rxStatsLost := fresh.rxStatsLost + 1 }) ∨
    5 ≤ fresh.lostMessages + 1 := by
  by_cases hfive : fresh.lostMessages + 1 ≥ 5
  · exact Or.inr hfive
  · refine Or.inl ⟨by omega, ?_, ?_⟩
    · simp only [loseMessage, hlook, if_neg hfive]
    · simp only [loseMessage, hlook, if_neg hfive, Agent.setNeighborMessage, Agent.putNeighbor,
        AList.lookup_insert]

/-- A frame that the refreshed entry could decrypt is never published: the third
decryption does not read the entry again. The frame is counted as lost. -/
theorem refreshed_frame_lost (p : Platform) (me : Identity) (w : Waits) (cache : FwdCache)
    (a : Agent) (f g : Frame) (c : Agent) (name : String) (fresh : Neighbor) (plain : Bytes)
    (h : Refreshed p me w cache a f g c name fresh plain) :
    (initForwardingTTL p me w a cache f).published = none ∧
      (initForwardingTTL p me w a cache f).stop =
        some (loseMessage me w (Agent.setNeighborMessage c false) name).2 ∧
      (fresh.lostMessages + 1 < 5 →
        (initForwardingTTL p me w a cache f).agent.globalNeighborList.lookup name =
          some { fresh with lostMessages := fresh.lostMessages + 1,
                            rxStatsLost := fresh.rxStatsLost + 1 }) := by
  rw [pass_loses h]
  refine ⟨rfl, rfl, ?_⟩
  intro hfew
  rcases loseMessage_counts w me (c := Agent.setNeighborMessage c false) h.updated with
    ⟨-, -, hentry⟩ | hfive
  · exact hentry
  · omega

/-- The neighbor as the scan finds it, with its new key. -/
def newEntry : Neighbor :=
  { ipAddress := "10.0.0.2", encryptionKey := sampleKey, encryptionIV := sampleKey,
    pubKey := some samplePeer.rsaKey.publickey, timestampLastKCM := 0 }

/-- The table still has an older key of the neighbor. -/
def staleAgent : Agent :=
  { key := sampleKey, iv := sampleKey
    globalNeighborList := AList.insert "10.0.0.2"
      { newEntry with encryptionKey := List.replicate 16 5 } ∅ }

/-- The new key comes in during the pause. -/
def refreshingWaits : Waits :=
  ⟨some, fun a => some (Agent.putNeighbor a "10.0.0.2" newEntry), some, quietOutside⟩

/-- The frame as it is after the filters. -/
def countedFrame : Frame := { sampleFrame with ttl := some (.int 1) }

theorem staleAgent_refreshed :
    Refreshed listPlatform sampleIdentity refreshingWaits ∅ staleAgent sampleFrame countedFrame
      (Agent.putNeighbor (Agent.setNeighborMessage
        (Agent.setNeighborMessage staleAgent false) true) "10.0.0.2" newEntry)
      "10.0.0.2" newEntry [104, 105] where
  neighbor := ⟨staleAgent, Agent.setNeighborMessage staleAgent false,
    { newEntry with encryptionKey := List.replicate 16 5 }, rfl, rfl, rfl, rfl,
    ⟨[106, 107], by decide⟩, ⟨[], rfl⟩, rfl⟩
  updated := rfl
  encrypted := rfl
  signed := ⟨samplePeer.rsaKey.publickey, _, rfl, rfl, by decide⟩

theorem refreshed_frame_lost_sample :
    Refreshed listPlatform sampleIdentity refreshingWaits ∅ staleAgent sampleFrame countedFrame
        (Agent.putNeighbor (Agent.setNeighborMessage
          (Agent.setNeighborMessage staleAgent false) true) "10.0.0.2" newEntry)
        "10.0.0.2" newEntry [104, 105] ∧
      (initForwardingTTL listPlatform sampleIdentity refreshingWaits staleAgent ∅
        sampleFrame).published = none :=
  ⟨staleAgent_refreshed, (refreshed_frame_lost _ _ _ _ _ _ _ _ _ _ _ staleAgent_refreshed).1⟩

/-- The neighbor's broadcast is lost although its key came in during the pause. -/
theorem refreshed_key_unused :
    Refreshed listPlatform sampleIdentity refreshingWaits ∅ staleAgent sampleFrame countedFrame
        (Agent.putNeighbor (Agent.setNeighborMessage
          (Agent.setNeighborMessage staleAgent false) true) "10.0.0.2" newEntry)
        "10.0.0.2" newEntry [104, 105] ∧
      (initForwardingTTL listPlatform sampleIdentity refreshingWaits staleAgent ∅
        sampleFrame).published = none ∧
      (initForwardingTTL listPlatform sampleIdentity refreshingWaits staleAgent ∅
        sampleFrame).stop = some .lost ∧
      ((initForwardingTTL listPlatform sampleIdentity refreshingWaits staleAgent ∅
        sampleFrame).agent.globalNeighborList.lookup "10.0.0.2").map (·.rxStatsLost) = some 1 :=
  ⟨staleAgent_refreshed, by decide, by decide, by decide⟩

end Retry

end Nxwlan.KeyRefresh
