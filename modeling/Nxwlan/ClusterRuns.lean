import Nxwlan.DistClust

/-!
Runs of the clustering app. Every handler brings its node in order again, unless it runs
into one of the cases that it does not treat, and with no message under way the lists of
members are right.
-/
namespace Nxwlan.DistClust

variable {α W : Type}

variable [LinearOrder α] {s : Net α W} {u v : α} {app : App α W} {m : Msg α W}
variable [LinearOrder W] {minusOne : W}

theorem initApp_none {w : W} (h : chooseClusterHead minusOne v app = (none, w)) :
    initApp minusOne v app =
      ({ app with isCh := true, clusterHead := some v, clusterHeadW := app.w, cluster := [v] },
        .ch app.w) := by
  rw [initApp, h]

theorem initApp_some {n : α} {w : W} (h : chooseClusterHead minusOne v app = (some n, w)) :
    initApp minusOne v app =
      ({ app with clusterHead := some n, clusterHeadW := w, cluster := [] }, .join (.node n)) := by
  rw [initApp, h]

/-- `init` brings a node in order, if it forgets no member for good. -/
theorem InvBut.init (h : InvBut v s) (hsound : (s.app v).failed = false)
    (hallowed : InitAllowed minusOne s v) : Inv (init minusOne s v) := by
  obtain ⟨n, w, hchoose⟩ : ∃ n w, chooseClusterHead minusOne v (s.app v) = (n, w) := ⟨_, _, rfl⟩
  unfold InitAllowed at hallowed
  rw [hchoose] at hallowed
  unfold DistClust.init
  cases n with
  | none =>
    rw [initApp_none hchoose]
    refine h.announce (List.nodup_singleton v) hsound rfl ?_
    intro _ u hmem hne hempty
    refine Or.inl ?_
    rw [send_app, setApp_app_self, setApp_app_of_ne hne]
    constructor
    · intro hself
      exact absurd (List.mem_singleton.mp hself) hne
    · intro hhead
      exact absurd rfl (hallowed u hmem hne hempty hhead).1
  | some n =>
    rw [initApp_some hchoose]
    refine h.announce List.nodup_nil hsound rfl ?_
    intro hch u hmem hne hempty
    by_cases hhead : (s.app u).clusterHead = some v
    · obtain ⟨hmember, hears⟩ := (hallowed u hmem hne hempty hhead).2 hch
      refine Or.inr ⟨?_, ?_, ?_, hears, ⟨.node n, ?_⟩⟩
      · rw [send_app, setApp_app_self]
        exact List.not_mem_nil
      · rw [send_app, setApp_app_of_ne hne]
        exact hhead
      · rw [send_app, setApp_app_of_ne hne]
        exact hmember
      · rw [send_flight_self (s := setApp s v _) hne hears]
        exact List.mem_append_right _ List.mem_cons_self
    · refine Or.inl ?_
      rw [send_app, setApp_app_self, setApp_app_of_ne hne]
      exact ⟨fun hmem => absurd hmem List.not_mem_nil, fun hyes => absurd hyes hhead⟩

theorem Inv.round (h : Inv s) {load : W} (hallowed : Allowed minusOne s (.round v load)) :
    Inv (handle minusOne s (.round v load)) := by
  have hbut : InvBut v (loaded s v load) :=
    h.but (fun a ha => setApp_app_of_ne ha) (fun _ _ => rfl) (fun _ _ _ => rfl) (fun _ _ hm => hm)
      (fun a hne => h.heard a v hne)
  refine hbut.init ?_ hallowed
  rw [loaded, setApp_app_self]
  exact h.sound v

theorem Inv.newLink (h : Inv s) (hallowed : Allowed minusOne s (.newLink v u)) :
    Inv (handle minusOne s (.newLink v u)) := by
  rw [handle]
  split
  · exact h
  · rename_i hne
    have hbut : InvBut v (linked s v u) := by
      refine h.but (fun _ _ => rfl) (fun b hb => setNeighbors_of_ne hb) (fun _ _ _ => rfl)
        (fun _ _ hm => hm) ?_
      intro a hflight
      obtain ⟨hva, hmem⟩ := h.heard a v hflight
      refine ⟨hva, ?_⟩
      rw [linked, setNeighbors_self]
      exact List.mem_insert_of_mem hmem
    exact hbut.init (h.sound v) (hallowed hne)

omit [LinearOrder W] in
theorem unlinked_flight {a b : α} (h : ¬(a = u ∧ b = v)) :
    (unlinked s v u).flight a b = s.flight a b := setFlight_of_ne h

omit [LinearOrder W] in
theorem unlinked_neighbors :
    (unlinked s v u).neighbors v = (s.neighbors v).filter (fun x => x ≠ u) := setNeighbors_self

omit [LinearOrder W] in
/-- A lost neighbor leaves the others in order. -/
theorem Inv.but_unlinked (h : Inv s) (app : App α W) :
    InvBut v (setApp (unlinked s v u) v app) := by
  have hlost : (unlinked s v u).flight u v = [] := setFlight_self
  refine h.but (fun a ha => setApp_app_of_ne ha) (fun b hb => setNeighbors_of_ne hb)
    (fun a b hb => unlinked_flight (fun hsame => hb hsame.2)) ?_ ?_
  · intro a m hm
    rw [setApp_flight] at hm
    by_cases ha : a = u
    · rw [ha, hlost] at hm
      cases hm
    · rwa [unlinked_flight (fun hsame => ha hsame.1)] at hm
  · intro a hne
    rw [setApp_flight] at hne
    by_cases ha : a = u
    · rw [ha] at hne
      exact absurd hlost hne
    · rw [unlinked_flight (fun hsame => ha hsame.1)] at hne
      obtain ⟨hva, hmem⟩ := h.heard a v hne
      refine ⟨hva, ?_⟩
      rw [setApp_neighbors, unlinked_neighbors, List.mem_filter]
      exact ⟨hmem, by simpa using ha⟩

omit [LinearOrder W] in
/-- A node that loses `u` without choosing anew. -/
theorem Inv.unlinked_kept (h : Inv s) (app : App α W)
    (hhead : app.clusterHead = (s.app v).clusterHead) (hch : app.isCh = (s.app v).isCh)
    (hfailed : app.failed = (s.app v).failed) (hnodup : app.cluster.Nodup)
    (hcluster : ∀ a, a ≠ u → (a ∈ app.cluster ↔ a ∈ (s.app v).cluster))
    (hother : (s.app v).isCh = false → (s.app v).clusterHead ≠ some u) :
    Inv (setApp (unlinked s v u) v app) := by
  refine h.kept (h.but_unlinked app) (fun a ha => setApp_app_of_ne ha)
    (fun b hb => setNeighbors_of_ne hb) (fun a b hb => unlinked_flight (fun hsame => hb hsame.2))
    (by rw [setApp_app_self]; exact hhead) (by rw [setApp_app_self]; exact hch)
    (by rw [setApp_app_self]; exact hfailed) (by rw [setApp_app_self]; exact hnodup) ?_ ?_
  · intro _ a hmem _ hempty
    rw [setApp_neighbors, unlinked_neighbors, List.mem_filter] at hmem
    have hau : a ≠ u := by simpa using hmem.2
    rw [setApp_flight, unlinked_flight (fun hsame => hau hsame.1)] at hempty
    rw [setApp_app_self]
    exact Or.inl ⟨hmem.1, hempty, hcluster a hau⟩
  · intro hmember x hhead' hmem hasked
    -- the node that it is to choose again is not the lost one
    have hxu : x ≠ u := by
      rintro rfl
      exact hother hmember hhead'
    rw [setApp_neighbors, unlinked_neighbors, List.mem_filter, setApp_flight,
      unlinked_flight (fun hsame => hxu hsame.1)]
    exact ⟨⟨hmem, by simpa using hxu⟩, hasked⟩

theorem Inv.linkFailure (h : Inv s) (hallowed : Allowed minusOne s (.linkFailure v u)) :
    Inv (handle minusOne s (.linkFailure v u)) := by
  rw [handle]
  split
  · rename_i hmem
    obtain ⟨hannounced, hinit⟩ := hallowed hmem
    have happ : (unlinked s v u).app v = s.app v := rfl
    rw [linkFailure_cb, happ, if_pos hannounced]
    dsimp only
    split
    · rename_i hlisted
      refine h.unlinked_kept _ rfl rfl rfl ((h.nodup v).filter _) ?_ ?_
      · intro a ha
        change a ∈ (s.app v).cluster.filter (fun x => x ≠ u) ↔ a ∈ (s.app v).cluster
        simp [ha]
      · intro hmember
        have hch : (s.app v).isCh = true := hlisted.1
        rw [hmember] at hch
        cases hch
    · rename_i hlisted
      split
      · rename_i hhead
        exact (h.but_unlinked (forget (s.app v) u)).init (by rw [setApp_app_self]; exact h.sound v)
          (hinit hlisted hhead)
      · rename_i hhead
        exact h.unlinked_kept _ rfl rfl rfl (h.nodup v) (fun _ _ => Iff.rfl) (fun _ => hhead)
  · exact h

omit [LinearOrder W] in
theorem taken_flight {a b : α} {i : ℕ} (h : ¬(a = u ∧ b = v)) :
    (taken s u v i).flight a b = s.flight a b := setFlight_of_ne h

omit [LinearOrder W] in
theorem taken_flight_self {i : ℕ} : (taken s u v i).flight u v = (s.flight u v).eraseIdx i :=
  setFlight_self

omit [LinearOrder α] [LinearOrder W] in
theorem getLast?_eraseIdx {msgs : List (Msg α W)} {i : ℕ} (hi : i + 1 < msgs.length) :
    (msgs.eraseIdx i).getLast? = msgs.getLast? := by
  rw [List.eraseIdx_eq_take_drop_succ, List.getLast?_append, List.getLast?_drop,
    if_neg (by omega)]
  obtain ⟨m, hm⟩ : ∃ m, msgs.getLast? = some m := by
    rw [← Option.isSome_iff_exists, List.getLast?_isSome]
    exact List.ne_nil_of_length_pos (by omega)
  rw [hm]
  rfl

omit [LinearOrder W] in
/-- Taking a message leaves the others in order, if the newest comes last. -/
theorem Inv.but_taken (h : Inv s) {i : ℕ}
    (hi : i + 1 < (s.flight u v).length ∨ (s.flight u v).length = 1) (hget : i < (s.flight u v).length)
    (app : App α W) : InvBut v (setApp (taken s u v i) v app) := by
  refine h.but (fun a ha => setApp_app_of_ne ha) (fun _ _ => rfl)
    (fun a b hb => taken_flight (fun hsame => hb hsame.2)) ?_ ?_
  · intro a m hm
    rw [setApp_flight] at hm
    by_cases ha : a = u
    · subst ha
      rw [taken_flight_self] at hm
      rcases hi with hi | hone
      · rwa [getLast?_eraseIdx hi] at hm
      · have hnil : (s.flight a v).eraseIdx i = [] :=
          List.eraseIdx_eq_nil_iff.mpr (Or.inr ⟨hone, by omega⟩)
        rw [hnil] at hm
        cases hm
    · rwa [taken_flight (fun hsame => ha hsame.1)] at hm
  · intro a hne
    rw [setApp_flight] at hne
    apply h.heard a v
    rintro hnil
    by_cases ha : a = u
    · subst ha
      rw [taken_flight_self, hnil] at hne
      exact hne rfl
    · rw [taken_flight (fun hsame => ha hsame.1)] at hne
      exact hne hnil

omit [LinearOrder W] in
/-- A node that takes a message without sending one. If no message of the sender is left, its
list is right for the sender, or leaves it out and the sender is about to choose again; and a
JOIN that the node itself is to choose again is not the one taken. -/
theorem Inv.taken_kept (h : Inv s) {i : ℕ}
    (hi : i + 1 < (s.flight u v).length ∨ (s.flight u v).length = 1)
    (hget : i < (s.flight u v).length) (app : App α W)
    (hhead : app.clusterHead = (s.app v).clusterHead) (hch : app.isCh = (s.app v).isCh)
    (hfailed : app.failed = (s.app v).failed) (hnodup : app.cluster.Nodup)
    (hcluster : ∀ a, a ≠ u → (a ∈ app.cluster ↔ a ∈ (s.app v).cluster))
    (hright : (s.app v).isCh = true → (s.flight u v).length = 1 →
      (u ∈ app.cluster ↔ (s.app u).clusterHead = some v) ∨
        u ∉ app.cluster ∧ (s.app u).clusterHead = some v ∧ Asked s u v)
    (hasked : (s.app v).isCh = false → (s.app v).clusterHead = some u →
      (∃ z, .join z ∈ s.flight u v) → ∃ z, .join z ∈ (s.flight u v).eraseIdx i) :
    Inv (setApp (taken s u v i) v app) := by
  refine h.kept (h.but_taken hi hget app) (fun a ha => setApp_app_of_ne ha) (fun _ _ => rfl)
    (fun a b hb => taken_flight (fun hsame => hb hsame.2)) (by rw [setApp_app_self]; exact hhead)
    (by rw [setApp_app_self]; exact hch) (by rw [setApp_app_self]; exact hfailed)
    (by rw [setApp_app_self]; exact hnodup) ?_ ?_
  · intro hisCh a hmem hne hempty
    by_cases ha : a = u
    · subst ha
      rw [setApp_flight, taken_flight_self, List.eraseIdx_eq_nil_iff] at hempty
      rcases hempty with hnil | hone
      · rw [hnil] at hget
        exact absurd hget (Nat.not_lt_zero i)
      · refine Or.inr ?_
        rcases hright hisCh hone.1 with hiff | ⟨hmissing, hchosen, hmember, hhears, hjoin⟩
        · refine Or.inl ?_
          rw [setApp_app_self, setApp_app_of_ne hne]
          exact hiff
        · obtain ⟨m, hm, hjoin⟩ := List.any_eq_true.mp hjoin
          have hflight : (taken s a v i).flight v a = s.flight v a :=
            taken_flight (fun hsame => hne hsame.2)
          cases m with
          | ch load => cases hjoin
          | join z =>
            refine Or.inr ⟨?_, ?_, ?_, hhears, z, ?_⟩
            · rw [setApp_app_self]
              exact hmissing
            · rw [setApp_app_of_ne hne]
              exact hchosen
            · rw [setApp_app_of_ne hne]
              exact hmember
            · rw [setApp_flight, hflight]
              exact hm
    · rw [setApp_flight, taken_flight (fun hsame => ha hsame.1)] at hempty
      rw [setApp_app_self]
      exact Or.inl ⟨hmem, hempty, hcluster a ha⟩
  · intro hmember x hhead' hmem hjoin
    refine ⟨hmem, ?_⟩
    by_cases hx : x = u
    · subst hx
      rw [setApp_flight, taken_flight_self]
      exact hasked hmember hhead' hjoin
    · rw [setApp_flight, taken_flight (fun hsame => hx hsame.1)]
      exact hjoin

omit [LinearOrder W] in
theorem setApp_same {app : App α W} (h : app = s.app v) : setApp s v app = s := by
  subst h
  exact congrArg (fun f => { s with app := f }) (Function.update_eq_self v s.app)

omit [LinearOrder W] in
theorem Inv.taken_but (h : Inv s) {i : ℕ}
    (hi : i + 1 < (s.flight u v).length ∨ (s.flight u v).length = 1)
    (hget : i < (s.flight u v).length) : InvBut v (taken s u v i) := by
  have hsame : setApp (taken s u v i) v (s.app v) = taken s u v i := setApp_same rfl
  rw [← hsame]
  exact h.but_taken hi hget (s.app v)

omit [LinearOrder α] [LinearOrder W] in
/-- The only message under way says what the clusterhead of its sender is. -/
theorem Inv.told_only (h : Inv s) {i : ℕ} (hm : (s.flight u v)[i]? = some m)
    (hone : (s.flight u v).length = 1) : Told u (s.app u).clusterHead m := by
  obtain ⟨m', hflight⟩ := List.length_eq_one_iff.mp hone
  apply h.told u v m
  rw [hflight] at hm ⊢
  obtain ⟨hi, hm⟩ := List.getElem?_eq_some_iff.mp hm
  have hzero : i = 0 := by
    rw [List.length_singleton] at hi
    omega
  subst hzero
  rw [← hm]
  rfl

/-- A JOIN that reaches a node other than a clusterhead, or one that counts its members. -/
theorem Inv.recvJoin (h : Inv s) {i : ℕ} {z : Target α W}
    (hm : (s.flight u v)[i]? = some (.join z))
    (hallowed : Allowed minusOne s (.deliver u v i)) :
    Inv (recvJoin minusOne (taken s u v i) v u z) := by
  obtain ⟨hget, -⟩ := List.getElem?_eq_some_iff.mp hm
  obtain ⟨hvu, -⟩ := h.heard u v (List.ne_nil_of_length_pos (by omega))
  obtain ⟨hi, hnew, hweight, hinit⟩ := hallowed _ hm
  have happ : (taken s u v i).app v = s.app v := rfl
  rw [DistClust.recvJoin, happ]
  split
  · rename_i hch
    have hmember : ¬((s.app v).isCh = false) := by
      rw [hch]
      decide
    split
    · rename_i hz
      have hfresh : u ∉ (s.app v).cluster := hnew hch hz
      refine h.taken_kept hi hget _ rfl rfl rfl ?_ ?_ ?_ (fun hno => absurd hno hmember)
      · change ((s.app v).cluster ++ [u]).Nodup
        rw [← List.concat_eq_append]
        exact (h.nodup v).concat hfresh
      · intro a ha
        change a ∈ (s.app v).cluster ++ [u] ↔ a ∈ (s.app v).cluster
        simp [ha]
      · intro _ hone
        have htold := h.told_only hm hone
        rw [hz] at htold
        exact Or.inl ⟨fun _ => htold, fun _ => List.mem_append_right _ List.mem_cons_self⟩
    · rename_i hz
      refine h.taken_kept hi hget _ rfl rfl rfl ((h.nodup v).filter _) ?_ ?_
        (fun hno => absurd hno hmember)
      · intro a ha
        change a ∈ (s.app v).cluster.filter (fun x => x ≠ u) ↔ a ∈ (s.app v).cluster
        simp [ha]
      · intro _ hone
        have hmissing : u ∉ (s.app v).cluster.filter (fun x => x ≠ u) := by simp
        by_cases hchosen : (s.app u).clusterHead = some v
        · refine Or.inr ⟨hmissing, hchosen, ?_⟩
          cases z with
          | node n =>
            have htold : (s.app u).clusterHead = some n := h.told_only hm hone
            rw [hchosen] at htold
            exact absurd (congrArg Target.node (Option.some.inj htold).symm) hz
          | weight w => exact hweight ⟨hch, rfl, hone, hchosen⟩
        · exact Or.inl ⟨fun hmem => absurd hmem hmissing, fun hyes => absurd hyes hchosen⟩
  · rename_i hch
    have hmember : (s.app v).isCh = false := by simpa using hch
    split
    · rename_i hhead
      exact (h.taken_but hi hget).init (h.sound v) (hinit hmember hhead)
    · rename_i hhead
      have hsame : setApp (taken s u v i) v (s.app v) = taken s u v i := setApp_same rfl
      rw [← hsame]
      exact h.taken_kept hi hget _ rfl rfl rfl (h.nodup v) (fun _ _ => Iff.rfl)
        (fun hyes => absurd hyes hch) (fun _ hyes => absurd hyes hhead)

/-- A CH changes the clusterhead of the node that gets it, which tells all others, or it
changes the weights alone. -/
theorem Inv.recvCh (h : Inv s) {i : ℕ} {wu : W} (hm : (s.flight u v)[i]? = some (.ch wu))
    (hallowed : Allowed minusOne s (.deliver u v i)) :
    Inv (recvCh (taken s u v i) v u wu) := by
  obtain ⟨hget, -⟩ := List.getElem?_eq_some_iff.mp hm
  obtain ⟨hvu, -⟩ := h.heard u v (List.ne_nil_of_length_pos (by omega))
  obtain ⟨hi, hlisted⟩ := hallowed _ hm
  have happ : (taken s u v i).app v = s.app v := rfl
  rw [DistClust.recvCh, happ]
  dsimp only
  split
  · refine (h.taken_but hi hget).announce (h.nodup v) (h.sound v) trivial ?_
    intro hch
    cases hch
  · rename_i hlight
    refine h.taken_kept hi hget _ rfl rfl rfl (h.nodup v) (fun _ _ => Iff.rfl) ?_ ?_
    · intro hch hone
      have htold : (s.app u).clusterHead = some u := h.told_only hm hone
      have hother : (s.app u).clusterHead ≠ some v := by
        rw [htold]
        rintro hsame
        exact hvu (Option.some.inj hsame).symm
      exact Or.inl
        ⟨fun hmem => absurd hone (hlisted hch hlight hmem), fun hyes => absurd hyes hother⟩
    · rintro - - ⟨z, hz⟩
      obtain ⟨j, hj⟩ := List.mem_iff_getElem?.mp hz
      refine ⟨z, List.mem_eraseIdx_iff_getElem?.mpr ⟨j, ?_, hj⟩⟩
      rintro rfl
      rw [hm] at hj
      cases hj

theorem Inv.deliver (h : Inv s) {i : ℕ} (hallowed : Allowed minusOne s (.deliver u v i)) :
    Inv (handle minusOne s (.deliver u v i)) := by
  rw [handle]
  split
  · exact h
  · rename_i m hm
    cases m with
    | ch wu => exact h.recvCh hm hallowed
    | join z => exact h.recvJoin hm hallowed

/-- Each event that is allowed keeps the net in order. -/
theorem Inv.handle (h : Inv s) {e : Event α W} (hallowed : Allowed minusOne s e) :
    Inv (handle minusOne s e) := by
  cases e with
  | newLink v u => exact h.newLink hallowed
  | linkFailure v u => exact h.linkFailure hallowed
  | round v load => exact h.round hallowed
  | deliver u v i => exact h.deliver hallowed

omit [LinearOrder α] [LinearOrder W] in
theorem inv_start (weight : α → W) : Inv (start minusOne weight) := by
  constructor
  · intro a b m hlast
    cases hlast
  · intro a b hne
    exact absurd rfl hne
  · intro u v hmem
    cases hmem
  · intro v
    exact List.nodup_nil
  · intro v
    rfl

omit [LinearOrder α] [LinearOrder W] in
/-- In a quiet net nobody is still to choose again. -/
theorem Inv.membersRight (h : Inv s) : MembersRight s := by
  refine ⟨h.sound, ?_⟩
  intro hquiet v hch
  refine ⟨h.nodup v, ?_⟩
  intro u hmem hne
  rcases h.agrees u v hmem hne hch (hquiet u v) with hiff | hpending
  · exact hiff
  · obtain ⟨z, hz⟩ := hpending.asked
    rw [hquiet v u] at hz
    cases hz

theorem Inv.foldl (h : Inv s) (events : List (Event α W))
    (hallowed : AllAllowed minusOne s events) : Inv (events.foldl (DistClust.handle minusOne) s) := by
  induction events generalizing s with
  | nil => exact h
  | cons e events ih => exact ih (h.handle hallowed.1) hallowed.2

/-- In a run of allowed events, the lists of the clusterheads are right whenever all messages
have arrived, and no handler fails. -/
theorem membership_agrees (minusOne : W) (weight : α → W) (events : List (Event α W))
    (hallowed : AllAllowed minusOne (start minusOne weight) events) :
    MembersRight (run minusOne weight events) :=
  ((inv_start weight).foldl events hallowed).membersRight

/-- Two nodes, of which the first is the heavier one. -/
def pairWeight (v : Fin 2) : ℤ := if v = 0 then 2 else 1

/-- The second node joins the first one, whose next round makes it choose again. -/
def pairRounds : List (Event (Fin 2) ℤ) :=
  [.newLink 1 0, .newLink 0 1, .deliver 0 1 0, .round 1 1, .deliver 1 0 0, .deliver 1 0 0,
    .round 0 2, .deliver 0 1 0, .deliver 1 0 0]

theorem pair_rounds_agree :
    AllAllowed (-1) (start (-1) pairWeight) pairRounds ∧
      ((run (-1) pairWeight pairRounds).app 0).cluster = [1] ∧
      MembersRight (run (-1) pairWeight pairRounds) := by
  have hallowed : AllAllowed (-1) (start (-1) pairWeight) pairRounds := by decide
  exact ⟨hallowed, rfl, membership_agrees (-1) pairWeight pairRounds hallowed⟩

/-- The second node hears of a heavier clusterhead and joins it; its JOIN names the weight, so
that the first node does not list it. -/
theorem join_names_weight :
    ¬ ∀ events : List (Event (Fin 2) ℤ), MembersRight (run (-1) pairWeight events) := by
  intro h
  have hquiet : ∀ u v,
      (run (-1) pairWeight [.newLink 1 0, .newLink 0 1, .deliver 0 1 0, .deliver 1 0 0]).flight u v =
        [] := by decide
  obtain ⟨-, hright⟩ := h [.newLink 1 0, .newLink 0 1, .deliver 0 1 0, .deliver 1 0 0]
  have hiff := (hright hquiet 0 rfl).2 1 (by decide) (by decide)
  have hlisted := hiff.mpr rfl
  revert hlisted
  decide

end Nxwlan.DistClust
