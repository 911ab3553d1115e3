import Mathlib.Data.List.Flatten
import Mathlib.Data.Multiset.Fold
import Nxwlan.FirstMinima
import Nxwlan.ReadinessToServe
import Nxwlan.RoundedNumbers

/-!
The channel step of the distchan application. Every message of a neighbor updates the map of
reports and starts four passes over the available channels: the maximum weight of each
channel, the marks of those that reach the overall maximum, the sums, and the choice of the
least sum among the unmarked ones. Maxima, marks and sums stay in dictionaries between the
calls. Loads are doubles: maxima do not depend on the order in which the dictionary of the
neighbors is walked, sums do unless they are exact.
-/
namespace Nxwlan.DistChan

open JsonFrames ReadinessToServe FirstMinima RoundedNumbers

/-- What a neighbor reported last. -/
structure NbInfo where
  load : Double
  ch : ℤ

abbrev NbMap := AList (fun _ : String => NbInfo)

abbrev PerChannel (V : Type) := AList (fun _ : ℤ => V)

structure App where
  Hc : PerChannel Double := ∅
  Mc : PerChannel ℕ := ∅
  Sc : PerChannel Double := ∅
  nbMap : NbMap := ∅
  ch_lst : List ℤ
  my_rf_channel : ℤ

def min_load : Double := 0

/-- What a call sees of its surroundings; `getChannelAgain` is read behind a switch. -/
structure Surroundings where
  order : DictOrder String
  getNetworkLoad : Double
  getChannel : ℤ
  getChannelAgain : ℤ

structure Message where
  originator : String
  ch : ℤ
  load : Double

/-- The reports in the order in which the dictionary is walked. -/
def walkReports (order : DictOrder String) (nbMap : NbMap) : List NbInfo :=
  (order.walk nbMap.keys).filterMap nbMap.lookup

/-- Pass (0). -/
def wmaxOf (my_load : Double) (nbs : List NbInfo) : Double :=
  nbs.foldl (fun wmax nb => if wmax < nb.load + my_load then nb.load + my_load else wmax) 0

/-- The inner loop of pass (a). -/
def maxOn (my_load : Double) (nbs : List NbInfo) (ch : ℤ) : Double :=
  nbs.foldl (fun h nb => if nb.ch = ch then max h (my_load + nb.load) else h) 0

/-- The inner loop of pass (c). -/
def sumOn (my_load : Double) (nbs : List NbInfo) (ch : ℤ) : Double :=
  nbs.foldl (fun s nb => if nb.ch = ch then s + my_load + nb.load else s) 0

/-- Passes (a) and (c): a new value for each channel. -/
def setAll {V : Type} (value : ℤ → V) (ch_lst : List ℤ) (d : PerChannel V) : PerChannel V :=
  ch_lst.foldl (fun d ch => d.insert ch (value ch)) d

/-- `d[ch]`. -/
def atKey {V : Type} (d : PerChannel V) (ch : ℤ) : Except PyError V :=
  match d.lookup ch with
  | none => .error .keyError
  | some v => .ok v

/-- Pass (b). -/
def markColors (wmax : Double) (Hc : PerChannel Double) (ch_lst : List ℤ) (Mc : PerChannel ℕ) :
    Except PyError (PerChannel ℕ) :=
  ch_lst.foldlM (fun Mc ch => do
    let h ← atKey Hc ch
    pure (Mc.insert ch (if wmax ≤ h then 1 else 0))) Mc

/-- One channel of pass (d); the mark is only looked up behind a smaller sum. -/
def tryColor (Sc : PerChannel Double) (Mc : PerChannel ℕ) (best : Option ℤ × Double) (ch : ℤ) :
    Except PyError (Option ℤ × Double) := do
  let s ← atKey Sc ch
  if s < best.2 then
    let mark ← atKey Mc ch
    pure (if mark = 0 then (some ch, s) else best)
  else pure best

/-- Pass (d). -/
def chooseColor (Sc : PerChannel Double) (Mc : PerChannel ℕ) (ch_lst : List ℤ) :
    Except PyError (Option ℤ × Double) :=
  ch_lst.foldlM (tryColor Sc Mc) (none, 1000000)

/-- What a call leaves: the application, the channel that it chose, and the one it switched to. -/
structure Outcome where
  app : App
  best_ch : Option ℤ
  setChannel : Option ℤ

/-- The end of a call: switch if the chosen channel is another one. -/
def App.finish (app : App) (around : Surroundings) (best_ch : Option ℤ) : Outcome :=
  match best_ch.filter (fun ch => around.getChannel ≠ ch) with
  | none => ⟨{ app with my_rf_channel := around.getChannel }, best_ch, none⟩
  | some ch => ⟨{ app with my_rf_channel := around.getChannelAgain }, best_ch, some ch⟩

def rx_cb (app : App) (around : Surroundings) (msg : Message) : Except PyError Outcome := do
  let nbMap := app.nbMap.insert msg.originator ⟨msg.load, msg.ch⟩
  let nbs := walkReports around.order nbMap
  let my_load := max min_load around.getNetworkLoad
  let wmax := wmaxOf my_load nbs
  let Hc := setAll (maxOn my_load nbs) app.ch_lst app.Hc
  let Mc ← markColors wmax Hc app.ch_lst app.Mc
  let Sc := setAll (sumOn my_load nbs) app.ch_lst app.Sc
  let best ← chooseColor Sc Mc app.ch_lst
  let app := { app with Hc := Hc, Mc := Mc, Sc := Sc, nbMap := nbMap }
  pure (app.finish around best.1)

/-! The purpose of a call, in terms of the reports as such. -/

/-- All reports of a map, in no order. -/
def reports (nbMap : NbMap) : Multiset NbInfo := (nbMap.entries.map (fun e => e.2) : List NbInfo)

/-- The weights of the edges to the given neighbors. -/
def edgeWeights (my_load : Double) (nbs : Multiset NbInfo) : Multiset Double :=
  nbs.map (fun nb => nb.load + my_load)

def maxWeight (my_load : Double) (nbs : Multiset NbInfo) : Double :=
  (edgeWeights my_load nbs).fold max 0

def conflictMax (my_load : Double) (nbs : Multiset NbInfo) (ch : ℤ) : Double :=
  maxWeight my_load (nbs.filter (fun nb => nb.ch = ch))

/-- What is added up for the given neighbors, in the order of the code. -/
def summands (my_load : Double) (nbs : List NbInfo) : List Double :=
  nbs.flatMap (fun nb => [my_load, nb.load])

/-- The sum of all edge weights, as the code adds them. -/
def edgeSum (my_load : Double) (nbs : List NbInfo) : Double :=
  (summands my_load nbs).foldl (· + ·) 0

section Passes

variable {V : Type} {my_load : Double} {nbs : List NbInfo} {ch : ℤ} {ch_lst : List ℤ}

/-- Whatever the order of the dictionary is, each report is met once. -/
theorem coe_walkReports (order : DictOrder String) (nbMap : NbMap) :
    (walkReports order nbMap : Multiset NbInfo) = reports nbMap := by
  have hkeys : nbMap.keys.filterMap nbMap.lookup = nbMap.entries.map (fun e => e.2) := by
    rw [AList.keys, List.keys, List.filterMap_map, ← List.filterMap_eq_map]
    apply List.filterMap_congr
    intro e he
    exact AList.mem_lookup_iff.mpr he
  rw [reports, ← hkeys]
  exact Multiset.coe_eq_coe.mpr ((order.perm nbMap.keys).filterMap _)

theorem wmaxOf_eq : wmaxOf my_load nbs = maxWeight my_load nbs := by
  have hstep : (fun wmax (nb : NbInfo) =>
      if wmax < nb.load + my_load then nb.load + my_load else wmax) =
      fun wmax nb => max wmax (nb.load + my_load) := by
    funext wmax nb
    exact (max_def_lt wmax (nb.load + my_load)).symm
  rw [wmaxOf, hstep, maxWeight, edgeWeights, Multiset.map_coe, Multiset.coe_fold_l,
    List.foldl_map]

theorem maxOn_eq : maxOn my_load nbs ch = conflictMax my_load nbs ch := by
  rw [maxOn, conflictMax, maxWeight, edgeWeights, Multiset.filter_coe, Multiset.map_coe,
    Multiset.coe_fold_l, List.foldl_map, List.foldl_filter]
  simp only [decide_eq_true_eq, Rounded.add_comm my_load]

theorem foldl_sumOn (s : Double) : nbs.foldl
    (fun s nb => if nb.ch = ch then s + my_load + nb.load else s) s =
      (summands my_load (nbs.filter (fun nb => nb.ch = ch))).foldl (· + ·) s := by
  induction nbs generalizing s with
  | nil => rfl
  | cons nb nbs ih =>
    rw [List.foldl_cons, ih]
    by_cases hch : nb.ch = ch
    · rw [if_pos hch, List.filter_cons_of_pos (by simpa using hch)]
      rfl
    · rw [if_neg hch, List.filter_cons_of_neg (by simpa using hch)]

theorem sumOn_eq : sumOn my_load nbs ch = edgeSum my_load (nbs.filter (fun nb => nb.ch = ch)) :=
  foldl_sumOn 0

theorem summands_nonneg (hload : 0 ≤ my_load) (hloads : ∀ nb ∈ nbs, 0 ≤ nb.load) :
    ∀ x ∈ summands my_load nbs, 0 ≤ x := by
  intro x hx
  obtain ⟨nb, hnb, hx⟩ := List.mem_flatMap.mp hx
  rcases List.mem_pair.mp hx with rfl | rfl
  · exact hload
  · exact hloads nb hnb

theorem edgeSum_le_of_sublist {nbs' : List NbInfo} (h : nbs'.Sublist nbs) (hload : 0 ≤ my_load)
    (hloads : ∀ nb ∈ nbs, 0 ≤ nb.load) : edgeSum my_load nbs' ≤ edgeSum my_load nbs :=
  Rounded.foldl_add_le_of_sublist (h.flatMap _) (summands_nonneg hload hloads)

/-- The part of one channel is at most the whole. -/
theorem sumOn_le (hload : 0 ≤ my_load) (hloads : ∀ nb ∈ nbs, 0 ≤ nb.load) (ch : ℤ) :
    sumOn my_load nbs ch ≤ edgeSum my_load nbs := by
  rw [sumOn_eq]
  exact edgeSum_le_of_sublist List.filter_sublist hload hloads

/-- Loads of which sums below the bound are exact: multiples of a power of two, the whole
numbers among them. -/
structure ExactLoads (my_load : Double) (nbs : Multiset NbInfo) : Prop where
  own : my_load.Multiple (-33)
  reported : ∀ nb ∈ nbs, nb.load.Multiple (-33)

/-- Exact sums do not depend on the order. -/
theorem edgeSum_perm {nbs' : List NbInfo} (h : nbs.Perm nbs') (hexact : ExactLoads my_load nbs)
    (hload : 0 ≤ my_load) (hloads : ∀ nb ∈ nbs, 0 ≤ nb.load)
    (hsum : edgeSum my_load nbs < 1000000) : edgeSum my_load nbs' = edgeSum my_load nbs := by
  have hpow : (1000000 : Double).val < 2 ^ (-33 + (binary64.prec : ℤ)) := by decide +kernel
  have hzero : (0 : Double).Multiple (-33) := ⟨0, by simp⟩
  have hmultiple : ∀ x ∈ summands my_load nbs, x.Multiple (-33) := by
    intro x hx
    obtain ⟨nb, hnb, hx⟩ := List.mem_flatMap.mp hx
    rcases List.mem_pair.mp hx with rfl | rfl
    · exact hexact.own
    · exact hexact.reported nb hnb
  have hnonneg := summands_nonneg hload hloads
  have hperm : (summands my_load nbs).Perm (summands my_load nbs') := h.flatMap_right _
  have hsmall := Rounded.sum_lt_of_foldl_add_lt (F := binary64) (s := 0) (k := -33) (by decide) hzero
    hmultiple le_rfl hnonneg ((Rounded.val_lt_val.mpr hsum).trans hpow)
  have hsmall' := hsmall
  rw [(hperm.map Rounded.val).sum_eq] at hsmall'
  apply Rounded.val_injective
  rw [edgeSum, edgeSum, Rounded.val_foldl_add (k := -33) (by decide) hzero hmultiple le_rfl hnonneg
    hsmall.le, Rounded.val_foldl_add (k := -33) (by decide) hzero
    (fun x hx => hmultiple x (hperm.symm.subset hx)) le_rfl
    (fun x hx => hnonneg x (hperm.symm.subset hx)) hsmall'.le, (hperm.map Rounded.val).sum_eq]

/-- What a pass writes; nothing older is left at a channel of the list. -/
theorem lookup_setAll (value : ℤ → V) (d : PerChannel V) (hch : ch ∈ ch_lst) :
    (setAll value ch_lst d).lookup ch = some (value ch) := by
  induction ch_lst using List.reverseRecOn with
  | nil => cases hch
  | append_singleton ch_lst c ih =>
    rw [setAll, List.foldl_append, List.foldl_cons, List.foldl_nil]
    by_cases hc : ch = c
    · rw [hc, AList.lookup_insert]
    · rw [AList.lookup_insert_ne hc]
      exact ih ((List.mem_append.mp hch).resolve_right (by simpa using hc))

theorem atKey_eq {d : PerChannel V} {v : V} (h : d.lookup ch = some v) : atKey d ch = .ok v := by
  rw [atKey, h]

theorem markColors_eq {Hc : PerChannel Double} {h : ℤ → Double} (wmax : Double) (Mc : PerChannel ℕ)
    (hHc : ∀ ch ∈ ch_lst, Hc.lookup ch = some (h ch)) :
    markColors wmax Hc ch_lst Mc =
      .ok (setAll (fun ch => if wmax ≤ h ch then 1 else 0) ch_lst Mc) := by
  induction ch_lst generalizing Mc with
  | nil => rfl
  | cons ch ch_lst ih =>
    rw [markColors, List.foldlM_cons, atKey_eq (hHc ch List.mem_cons_self)]
    exact ih _ (fun c hc => hHc c (List.mem_cons_of_mem ch hc))

theorem tryColor_eq {Sc : PerChannel Double} {Mc : PerChannel ℕ} {s : ℤ → Double} {p : ℤ → Prop}
    [DecidablePred p] (best : Option ℤ × Double) (hSc : Sc.lookup ch = some (s ch))
    (hMc : Mc.lookup ch = some (if p ch then 0 else 1)) :
    tryColor Sc Mc best ch = .ok (better s p best ch) := by
  rw [tryColor, atKey_eq hSc, atKey_eq hMc, better]
  change (if s ch < best.2 then _ else _) = _
  by_cases hs : s ch < best.2
  · by_cases hp : p ch
    · rw [if_pos hs, if_pos hp, if_pos ⟨hs, hp⟩]
      rfl
    · rw [if_pos hs, if_neg hp, if_neg (fun h => hp h.2)]
      rfl
  · rw [if_neg hs, if_neg (fun h => hs h.1)]
    rfl

theorem chooseColor_eq {Sc : PerChannel Double} {Mc : PerChannel ℕ} {s : ℤ → Double} {p : ℤ → Prop}
    [DecidablePred p] (hSc : ∀ ch ∈ ch_lst, Sc.lookup ch = some (s ch))
    (hMc : ∀ ch ∈ ch_lst, Mc.lookup ch = some (if p ch then 0 else 1)) :
    chooseColor Sc Mc ch_lst = .ok (ch_lst.foldl (better s p) (none, 1000000)) := by
  rw [chooseColor]
  generalize ((none, 1000000) : Option ℤ × Double) = best
  induction ch_lst generalizing best with
  | nil => rfl
  | cons ch ch_lst ih =>
    rw [List.foldlM_cons, tryColor_eq best (hSc ch List.mem_cons_self) (hMc ch List.mem_cons_self)]
    exact ih (fun c hc => hSc c (List.mem_cons_of_mem ch hc))
      (fun c hc => hMc c (List.mem_cons_of_mem ch hc)) _

end Passes

section Call

variable {app : App} {around : Surroundings} {msg : Message} {my_load : Double}
  {nbs : Multiset NbInfo} {ch : ℤ}

/-- The load that counts as the own one. -/
def ownLoad (around : Surroundings) : Double := max min_load around.getNetworkLoad

/-- The reports after a message. -/
def reportsAfter (app : App) (msg : Message) : Multiset NbInfo :=
  reports (app.nbMap.insert msg.originator ⟨msg.load, msg.ch⟩)

/-- A channel whose maximum conflict is below the overall one. -/
def Unmarked (my_load : Double) (nbs : Multiset NbInfo) (ch : ℤ) : Prop :=
  conflictMax my_load nbs ch < maxWeight my_load nbs

instance : DecidablePred (Unmarked my_load nbs) :=
  fun _ => inferInstanceAs (Decidable (_ < _))

/-- The reports in the order in which the call meets them. -/
def walked (app : App) (around : Surroundings) (msg : Message) : List NbInfo :=
  walkReports around.order (app.nbMap.insert msg.originator ⟨msg.load, msg.ch⟩)

theorem coe_walked (app : App) (around : Surroundings) (msg : Message) :
    (walked app around msg : Multiset NbInfo) = reportsAfter app msg :=
  coe_walkReports around.order _

theorem finish_keeps (app : App) (around : Surroundings) (best_ch : Option ℤ) :
    (app.finish around best_ch).best_ch = best_ch ∧
    (app.finish around best_ch).app.Hc = app.Hc ∧ (app.finish around best_ch).app.Sc = app.Sc := by
  rw [App.finish]
  split
  · exact ⟨rfl, rfl, rfl⟩
  · exact ⟨rfl, rfl, rfl⟩

/-- All passes together choose as a scan of the conflicts does, whatever the dictionaries
hold from earlier calls. -/
theorem rx_cb_best (app : App) (around : Surroundings) (msg : Message) :
    ∃ out, rx_cb app around msg = .ok out ∧
      out.best_ch = (app.ch_lst.foldl (better (sumOn (ownLoad around) (walked app around msg))
        (Unmarked (ownLoad around) (reportsAfter app msg))) (none, 1000000)).1 ∧
      ∀ ch ∈ app.ch_lst,
        out.app.Hc.lookup ch = some (conflictMax (ownLoad around) (reportsAfter app msg) ch) ∧
        out.app.Sc.lookup ch = some (sumOn (ownLoad around) (walked app around msg) ch) := by
  have hHc : ∀ ch ∈ app.ch_lst, (setAll (maxOn (ownLoad around) (walked app around msg)) app.ch_lst
      app.Hc).lookup ch = some (maxOn (ownLoad around) (walked app around msg) ch) :=
    fun ch hch => lookup_setAll _ _ hch
  have hSc : ∀ ch ∈ app.ch_lst, (setAll (sumOn (ownLoad around) (walked app around msg)) app.ch_lst
      app.Sc).lookup ch = some (sumOn (ownLoad around) (walked app around msg) ch) :=
    fun ch hch => lookup_setAll _ _ hch
  have hMc : ∀ ch ∈ app.ch_lst, (setAll (fun ch =>
      if wmaxOf (ownLoad around) (walked app around msg) ≤
        maxOn (ownLoad around) (walked app around msg) ch then 1 else 0) app.ch_lst
      app.Mc).lookup ch =
      some (if Unmarked (ownLoad around) (reportsAfter app msg) ch then 0 else 1) := by
    intro ch hch
    rw [lookup_setAll _ _ hch, maxOn_eq, wmaxOf_eq, coe_walked]
    by_cases hun : Unmarked (ownLoad around) (reportsAfter app msg) ch
    · rw [if_pos hun, if_neg (not_le.mpr hun)]
    · rw [if_neg hun, if_pos (not_lt.mp hun)]
  have hcb : rx_cb app around msg =
      (markColors (wmaxOf (ownLoad around) (walked app around msg))
        (setAll (maxOn (ownLoad around) (walked app around msg)) app.ch_lst app.Hc) app.ch_lst
        app.Mc).bind (fun Mc =>
          (chooseColor (setAll (sumOn (ownLoad around) (walked app around msg)) app.ch_lst app.Sc)
            Mc app.ch_lst).bind (fun best => .ok (App.finish
              ⟨setAll (maxOn (ownLoad around) (walked app around msg)) app.ch_lst app.Hc, Mc,
                setAll (sumOn (ownLoad around) (walked app around msg)) app.ch_lst app.Sc,
                app.nbMap.insert msg.originator ⟨msg.load, msg.ch⟩, app.ch_lst, app.my_rf_channel⟩
              around best.1))) := rfl
  rw [markColors_eq _ _ hHc] at hcb
  change _ = (chooseColor _ _ _).bind _ at hcb
  rw [chooseColor_eq hSc hMc] at hcb
  obtain ⟨hbest, hkeepHc, hkeepSc⟩ := finish_keeps _ around _
  refine ⟨_, hcb, hbest, ?_⟩
  intro ch hch
  rw [hkeepHc, hkeepSc, hHc ch hch, hSc ch hch, maxOn_eq, coe_walked]
  exact ⟨rfl, rfl⟩

theorem mem_walked {nb : NbInfo} : nb ∈ walked app around msg ↔ nb ∈ reportsAfter app msg := by
  rw [← coe_walked app around msg, Multiset.mem_coe]

theorem sumOn_walked_le (hloads : ∀ nb ∈ reportsAfter app msg, 0 ≤ nb.load) (ch : ℤ) :
    sumOn (ownLoad around) (walked app around msg) ch ≤
      edgeSum (ownLoad around) (walked app around msg) :=
  sumOn_le (le_max_left _ _) (fun nb hnb => hloads nb (mem_walked.mp hnb)) ch

/-- A channel is chosen exactly when there is an unmarked one. -/
theorem best_ch_isSome_iff {out : Outcome} (hout : rx_cb app around msg = .ok out)
    (hloads : ∀ nb ∈ reportsAfter app msg, 0 ≤ nb.load)
    (hsum : edgeSum (ownLoad around) (walked app around msg) < 1000000) :
    out.best_ch.isSome ↔
      ∃ c ∈ app.ch_lst, Unmarked (ownLoad around) (reportsAfter app msg) c := by
  obtain ⟨out', hout', hbest, -⟩ := rx_cb_best app around msg
  obtain rfl : out = out' := Except.ok.inj (hout.symm.trans hout')
  have hbound : ∀ ch ∈ app.ch_lst, Unmarked (ownLoad around) (reportsAfter app msg) ch →
      sumOn (ownLoad around) (walked app around msg) ch < 1000000 :=
    fun ch _ _ => (sumOn_walked_le hloads ch).trans_lt hsum
  rcases foldl_better hbound with ⟨hfold, hnone⟩ | ⟨c, hfold, hc⟩
  · rw [hbest, hfold]
    exact iff_of_false (by simp) (fun ⟨ch, hch, hun⟩ => hnone ch hch hun)
  · rw [hbest, hfold]
    obtain ⟨pre, post, hlst, hun, -⟩ := hc
    refine iff_of_true rfl ⟨c, ?_, hun⟩
    rw [hlst]
    exact List.mem_append_right pre List.mem_cons_self

/-- With exact loads the sums, and so the choice, do not depend on the order of the walk. -/
theorem best_ch_order (hloads : ∀ nb ∈ reportsAfter app msg, 0 ≤ nb.load)
    (hexact : ExactLoads (ownLoad around) (reportsAfter app msg))
    (hsum : edgeSum (ownLoad around) (walked app around msg) < 1000000) {out : Outcome}
    (hout : rx_cb app around msg = .ok out) (order : DictOrder String) :
    ∃ out', rx_cb app { around with order := order } msg = .ok out' ∧
      out'.best_ch = out.best_ch := by
  obtain ⟨out₁, hout₁, hbest, -⟩ := rx_cb_best app around msg
  obtain rfl : out = out₁ := Except.ok.inj (hout.symm.trans hout₁)
  obtain ⟨out', hout', hbest', -⟩ := rx_cb_best app { around with order := order } msg
  refine ⟨out', hout', ?_⟩
  have hperm : (walked app around msg).Perm (walked app { around with order := order } msg) :=
    Multiset.coe_eq_coe.mp ((coe_walked app around msg).trans (coe_walked app _ msg).symm)
  have hsums : sumOn (ownLoad around) (walked app { around with order := order } msg) =
      sumOn (ownLoad around) (walked app around msg) := by
    funext ch
    rw [sumOn_eq, sumOn_eq]
    have hsub : ∀ nb ∈ (walked app around msg).filter (fun nb => nb.ch = ch),
        nb ∈ reportsAfter app msg := fun nb hnb => mem_walked.mp (List.mem_of_mem_filter hnb)
    refine edgeSum_perm (hperm.filter _) ⟨hexact.own, fun nb hnb => ?_⟩ (le_max_left _ _)
      (fun nb hnb => hloads nb (hsub nb hnb)) ?_
    · exact hexact.reported nb (hsub nb hnb)
    · rw [← sumOn_eq]
      exact (sumOn_walked_le hloads ch).trans_lt hsum
  rw [hbest', hbest, ← hsums]
  rfl

end Call

/-- A message makes the application choose a channel exactly when the maximum conflict of one is
below the overall maximum; it takes the first of those with the least sum, whatever earlier
calls left. The sums are rounded in the order in which the dictionary of the neighbors is
walked. That order changes the choice only where the loads are not exact, and never whether
there is one. -/
theorem hminmax_step (app : App) (around : Surroundings) (msg : Message)
    (hloads : ∀ nb ∈ reportsAfter app msg, 0 ≤ nb.load)
    (hsum : edgeSum (ownLoad around) (walked app around msg) < 1000000) :
    ∃ out, rx_cb app around msg = .ok out ∧
      (∀ c ∈ app.ch_lst,
        out.app.Hc.lookup c = some (conflictMax (ownLoad around) (reportsAfter app msg) c) ∧
        out.app.Sc.lookup c = some (sumOn (ownLoad around) (walked app around msg) c)) ∧
      (out.best_ch.isSome ↔ ∃ c ∈ app.ch_lst,
        conflictMax (ownLoad around) (reportsAfter app msg) c <
          maxWeight (ownLoad around) (reportsAfter app msg)) ∧
      (∀ c, out.best_ch = some c → ∃ pre post, app.ch_lst = pre ++ c :: post ∧
        conflictMax (ownLoad around) (reportsAfter app msg) c <
          maxWeight (ownLoad around) (reportsAfter app msg) ∧
        (∀ d ∈ app.ch_lst, conflictMax (ownLoad around) (reportsAfter app msg) d <
            maxWeight (ownLoad around) (reportsAfter app msg) →
          sumOn (ownLoad around) (walked app around msg) c ≤
            sumOn (ownLoad around) (walked app around msg) d) ∧
        ∀ d ∈ pre, conflictMax (ownLoad around) (reportsAfter app msg) d <
            maxWeight (ownLoad around) (reportsAfter app msg) →
          sumOn (ownLoad around) (walked app around msg) c <
            sumOn (ownLoad around) (walked app around msg) d) ∧
      (∀ order, edgeSum (ownLoad around) (walked app { around with order := order } msg) < 1000000 →
        ∃ out', rx_cb app { around with order := order } msg = .ok out' ∧
          (out'.best_ch.isSome ↔ out.best_ch.isSome)) ∧
      (ExactLoads (ownLoad around) (reportsAfter app msg) →
        ∀ order, ∃ out', rx_cb app { around with order := order } msg = .ok out' ∧
          out'.best_ch = out.best_ch) := by
  obtain ⟨out, hout, hbest, hdicts⟩ := rx_cb_best app around msg
  have hsome := best_ch_isSome_iff hout hloads hsum
  have hbound : ∀ ch ∈ app.ch_lst, Unmarked (ownLoad around) (reportsAfter app msg) ch →
      sumOn (ownLoad around) (walked app around msg) ch < 1000000 :=
    fun ch _ _ => (sumOn_walked_le hloads ch).trans_lt hsum
  refine ⟨out, hout, hdicts, hsome, ?_, ?_, ?_⟩
  · intro c hc
    rcases foldl_better hbound with ⟨hfold, -⟩ | ⟨c', hfold, hfirst⟩
    · rw [hbest, hfold] at hc
      cases hc
    · rw [hbest, hfold] at hc
      cases hc
      have hle := hfirst.le
      obtain ⟨pre, post, hlst, hun, hpre, -⟩ := hfirst
      exact ⟨pre, post, hlst, hun, hle, hpre⟩
  · intro order hsum'
    obtain ⟨out', hout', -⟩ := rx_cb_best app { around with order := order } msg
    exact ⟨out', hout', (best_ch_isSome_iff hout' hloads hsum').trans hsome.symm⟩
  · intro hexact order
    exact best_ch_order hloads hexact hsum hout order

/-- Three channels of which the second is free of neighbors. -/
def threeChannels : App where
  nbMap := (∅ : NbMap).insert "10.0.0.2" ⟨3, 1⟩
  ch_lst := [1, 6, 11]
  my_rf_channel := 1

def calm : Surroundings := ⟨⟨List.reverse, fun _ => List.reverse_perm _⟩, 2, 1, 6⟩

theorem hminmax_step_three : ∃ out,
    rx_cb threeChannels calm ⟨"10.0.0.3", 11, 4⟩ = .ok out ∧ out.best_ch.isSome := by
  have hafter : reportsAfter threeChannels ⟨"10.0.0.3", 11, 4⟩ = {⟨4, 11⟩, ⟨3, 1⟩} := rfl
  have hload : ownLoad calm = 2 := by decide +kernel
  obtain ⟨out, hout, -, hsome, -⟩ := hminmax_step threeChannels calm ⟨"10.0.0.3", 11, 4⟩
    (by rw [hafter]; decide +kernel) (by decide +kernel)
  refine ⟨out, hout, hsome.mpr ⟨6, by decide, ?_⟩⟩
  rw [hafter, hload]
  decide +kernel

/-- Tenths on the first channel, that sum up to what is on the second one, or to a little
more. -/
def tenths : App where
  nbMap := ((((∅ : NbMap).insert "10.0.0.5" ⟨10, 11⟩).insert "10.0.0.4" ⟨.ofRat (6 / 10), 6⟩).insert
    "10.0.0.3" ⟨.ofRat (3 / 10), 1⟩).insert "10.0.0.2" ⟨.ofRat (2 / 10), 1⟩
  ch_lst := [1, 6, 11]
  my_rf_channel := 11

def tenth : Message := ⟨"10.0.0.1", 1, .ofRat (1 / 10)⟩

def forth : DictOrder String := ⟨id, fun keys => .refl keys⟩

def back : DictOrder String := ⟨List.reverse, List.reverse_perm⟩

/-- The order of the walk decides about the channel. -/
theorem choice_depends_on_order : (∀ nb ∈ reportsAfter tenths tenth, 0 ≤ nb.load) ∧
    (∀ order ∈ [forth, back],
      edgeSum (ownLoad ⟨order, 0, 11, 11⟩) (walked tenths ⟨order, 0, 11, 11⟩ tenth) < 1000000) ∧
    (rx_cb tenths ⟨forth, 0, 11, 6⟩ tenth).toOption.bind Outcome.best_ch = some 6 ∧
    (rx_cb tenths ⟨back, 0, 11, 1⟩ tenth).toOption.bind Outcome.best_ch = some 1 := by
  decide +kernel

end Nxwlan.DistChan
