import Mathlib.Data.Fintype.Defs
import Mathlib.Data.Int.Order.Basic
import Mathlib.Data.List.Nodup
import Mathlib.Logic.Function.Basic
import Mathlib.Order.Defs.LinearOrder
import Mathlib.Order.Fin.Basic
import Mathlib.Tactic.Common

/-!
The clustering app distclust. A node that knows no clusterhead becomes one and says so
with a CH message; the others choose one and say so with a JOIN message, from which a
clusterhead keeps the list of its members. A message goes to all nodes that hear its
sender, and messages arrive in any order. The list is right when all messages have
arrived, as long as none of the handlers runs into one of the cases it does not treat.
-/
namespace Nxwlan.DistClust

variable {α W : Type}

/-- The payload `n_max` of a JOIN: `init` puts a node there, `recvCh` a weight. -/
inductive Target (α W : Type) where
  | node (n : α)
  | weight (w : W)
  deriving DecidableEq

def Target.isWeight : Target α W → Bool
  | .node _ => false
  | .weight _ => true

inductive Msg (α W : Type) where
  | ch (load : W)
  | join (z : Target α W)
  deriving DecidableEq

def Msg.isJoin : Msg α W → Bool
  | .ch _ => false
  | .join _ => true

/-- The app of a node. `isCh` is the entry of the node itself in `ch` and `own` the one in
`warr`, which keeps the first weight; `known` has the other entries, which are set and
deleted in both dictionaries at once and are all true in `ch`. `clusterHead` and
`clusterHeadW` start as -1. `failed` says that a handler has raised. -/
structure App (α W : Type) where
  w : W
  own : W
  clusterHead : Option α := none
  clusterHeadW : W
  cluster : List α := []
  isCh : Bool := false
  known : List (α × W) := []
  failed : Bool := false

/-- All nodes, the neighbors that each of them hears, and the messages under way from one
node to another, oldest first. -/
structure Net (α W : Type) where
  app : α → App α W
  neighbors : α → List α
  flight : α → α → List (Msg α W)

section Code

variable [LinearOrder α] [LinearOrder W] (minusOne : W)

/-- The loop over `ch`: the heaviest clusterhead, and among equals the one with the
greatest ID, which is more than `None`. -/
def chooseClusterHead (v : α) (app : App α W) : Option α × W :=
  let heads := if app.isCh then (v, app.own) :: app.known else app.known
  heads.foldl (fun best x =>
    if best.2 < x.2 ∨ (x.2 = best.2 ∧ ∀ n ∈ best.1, n < x.1) then (some x.1, x.2) else best)
    (none, minusOne)

def setApp (s : Net α W) (v : α) (app : App α W) : Net α W :=
  { s with app := Function.update s.app v app }

def setNeighbors (s : Net α W) (v : α) (list : List α) : Net α W :=
  { s with neighbors := Function.update s.neighbors v list }

def setFlight (s : Net α W) (u v : α) (msgs : List (Msg α W)) : Net α W :=
  { s with flight := fun a b => if a = u ∧ b = v then msgs else s.flight a b }

/-- `sendToNeighbors`: all that hear `v` get the message. -/
def send (s : Net α W) (v : α) (m : Msg α W) : Net α W :=
  { s with flight := fun a b =>
      if a = v ∧ b ≠ v ∧ v ∈ s.neighbors b then s.flight a b ++ [m] else s.flight a b }

/-- What `init` does to the app, and the message that it sends. -/
def initApp (v : α) (app : App α W) : App α W × Msg α W :=
  match chooseClusterHead minusOne v app with
  | (none, _) =>
      ({ app with isCh := true, clusterHead := some v, clusterHeadW := app.w, cluster := [v] },
        .ch app.w)
  | (some n_max, w_m) =>
      ({ app with clusterHead := some n_max, clusterHeadW := w_m, cluster := [] },
        .join (.node n_max))

def init (s : Net α W) (v : α) : Net α W :=
  send (setApp s v (initApp minusOne v (s.app v)).1) v (initApp minusOne v (s.app v)).2

def announced (app : App α W) (u : α) : Bool := app.known.any (fun x => x.1 = u)

def forget (app : App α W) (u : α) : App α W :=
  { app with known := app.known.filter (fun x => x.1 ≠ u) }

/-- `del self.ch[u]` raises for a neighbor that is not in `ch`. -/
def linkFailure_cb (s : Net α W) (v u : α) : Net α W :=
  let app := s.app v
  if announced app u then
    let app := forget app u
    if app.isCh ∧ u ∈ app.cluster then
      setApp s v { app with cluster := app.cluster.filter (fun x => x ≠ u) }
    else if app.clusterHead = some u then init minusOne (setApp s v app) v
    else setApp s v app
  else setApp s v { app with failed := true }

/-- `newLink_cb`. -/
def newLink_cb (s : Net α W) (v : α) : Net α W := init minusOne s v

def recvCh (s : Net α W) (v u : α) (wu : W) : Net α W :=
  let app := s.app v
  let app := { app with known := (u, wu) :: (forget app u).known }
  if app.clusterHeadW < wu then
    setApp (send s v (.join (.weight wu))) v { app with clusterHead := some u, isCh := false }
  else setApp s v app

def recvJoin (s : Net α W) (v u : α) (z : Target α W) : Net α W :=
  let app := s.app v
  if app.isCh then
    if z = .node v then setApp s v { app with cluster := app.cluster ++ [u] }
    else setApp s v { app with cluster := app.cluster.filter (fun x => x ≠ u) }
  else if app.clusterHead = some u then init minusOne s v
  else s

def rx_cb (s : Net α W) (v u : α) : Msg α W → Net α W
  | .ch wu => recvCh s v u wu
  | .join z => recvJoin minusOne s v u z

/-- A node hears a new neighbor; it loses one, and with it what is under way from there; a
round of its main loop, with a new load; the message in the place `i` from `u` to `v`
arrives. -/
inductive Event (α W : Type) where
  | newLink (v u : α)
  | linkFailure (v u : α)
  | round (v : α) (load : W)
  | deliver (u v : α) (i : ℕ)

/-- The net when `v` hears `u`. -/
def linked (s : Net α W) (v u : α) : Net α W := setNeighbors s v ((s.neighbors v).insert u)

def unlinked (s : Net α W) (v u : α) : Net α W :=
  setFlight (setNeighbors s v ((s.neighbors v).filter (fun x => x ≠ u))) u v []

def loaded (s : Net α W) (v : α) (load : W) : Net α W := setApp s v { s.app v with w := load }

def taken (s : Net α W) (u v : α) (i : ℕ) : Net α W :=
  setFlight s u v ((s.flight u v).eraseIdx i)

def handle (s : Net α W) : Event α W → Net α W
  | .newLink v u => if u = v then s else newLink_cb minusOne (linked s v u) v
  | .linkFailure v u =>
      if u ∈ s.neighbors v then linkFailure_cb minusOne (unlinked s v u) v u else s
  | .round v load => init minusOne (loaded s v load) v
  | .deliver u v i =>
      match (s.flight u v)[i]? with
      | none => s
      | some m => rx_cb minusOne (taken s u v i) v u m

/-- No links yet; each node has its weight. -/
def start (weight : α → W) : Net α W :=
  { app := fun v => { w := weight v, own := weight v, clusterHeadW := minusOne }
    neighbors := fun _ => []
    flight := fun _ _ => [] }

def run (weight : α → W) (events : List (Event α W)) : Net α W :=
  events.foldl (handle minusOne) (start minusOne weight)

/-- `init` may empty the list of `v`. If `v` becomes a clusterhead, no neighbor whose messages
have arrived has it as clusterhead already; if it was one and chooses, such neighbors are
not marked as clusterheads and hear the JOIN, which makes them choose again. -/
def InitAllowed (s : Net α W) (v : α) : Prop :=
  ∀ u ∈ s.neighbors v, u ≠ v → s.flight u v = [] → (s.app u).clusterHead = some v →
    (chooseClusterHead minusOne v (s.app v)).1 ≠ none ∧
      ((s.app v).isCh = true → (s.app u).isCh = false ∧ v ∈ s.neighbors u)

/-- A JOIN of `v` is under way to `u` and will make it choose again. -/
def Asked (s : Net α W) (u v : α) : Prop :=
  (s.app u).isCh = false ∧ v ∈ s.neighbors u ∧ (s.flight v u).any Msg.isJoin = true

/-- A message that `v` takes. A JOIN is not of a node that is listed already, and if it has a
weight, is the last one and goes to the clusterhead of its sender, then the sender is about to
choose again; a CH, as the last message, is not from a listed node. -/
def MsgAllowed (s : Net α W) (u v : α) (i : ℕ) : Msg α W → Prop
  | .ch wu => (s.app v).isCh = true → ¬(s.app v).clusterHeadW < wu → u ∈ (s.app v).cluster →
      (s.flight u v).length ≠ 1
  | .join z =>
      ((s.app v).isCh = true → z = .node v → u ∉ (s.app v).cluster) ∧
      ((s.app v).isCh = true ∧ z.isWeight = true ∧ (s.flight u v).length = 1 ∧
        (s.app u).clusterHead = some v → Asked s u v) ∧
      ((s.app v).isCh = false → (s.app v).clusterHead = some u →
        InitAllowed minusOne (taken s u v i) v)

/-- The cases that the handlers do not treat are left out. Besides those of messages and of
`init`, they are a lost neighbor that was never announced, and a message that overtakes
older ones of its sender though no newer one follows. -/
def Allowed (s : Net α W) : Event α W → Prop
  | .newLink v u => u ≠ v → InitAllowed minusOne (linked s v u) v
  | .linkFailure v u => u ∈ s.neighbors v →
      announced (s.app v) u = true ∧
        (¬((s.app v).isCh = true ∧ u ∈ (s.app v).cluster) → (s.app v).clusterHead = some u →
          InitAllowed minusOne (setApp (unlinked s v u) v (forget (s.app v) u)) v)
  | .round v load => InitAllowed minusOne (loaded s v load) v
  | .deliver u v i => ∀ m ∈ (s.flight u v)[i]?,
      (i + 1 < (s.flight u v).length ∨ (s.flight u v).length = 1) ∧ MsgAllowed minusOne s u v i m

/-- All events of a run are allowed in the states that they meet. -/
def AllAllowed (s : Net α W) : List (Event α W) → Prop
  | [] => True
  | e :: events => Allowed minusOne s e ∧ AllAllowed (handle minusOne s e) events

/-- All messages have arrived. -/
def Quiet (s : Net α W) : Prop := ∀ u v, s.flight u v = []

/-- No handler has failed, and when all messages have arrived the list of a clusterhead has
no node twice and those neighbors that have it as clusterhead. -/
def MembersRight (s : Net α W) : Prop :=
  (∀ v, (s.app v).failed = false) ∧
    (Quiet s → ∀ v, (s.app v).isCh = true →
      (s.app v).cluster.Nodup ∧
        ∀ u ∈ s.neighbors v, u ≠ v →
          (u ∈ (s.app v).cluster ↔ (s.app u).clusterHead = some v))

instance (s : Net α W) (v : α) : Decidable (InitAllowed minusOne s v) :=
  inferInstanceAs (Decidable (∀ u ∈ s.neighbors v, _))

instance (s : Net α W) (u v : α) : Decidable (Asked s u v) :=
  inferInstanceAs (Decidable (_ ∧ _ ∧ _))

instance (s : Net α W) (u v : α) (i : ℕ) : DecidablePred (MsgAllowed minusOne s u v i)
  | .ch wu => inferInstanceAs (Decidable ((s.app v).isCh = true → ¬(s.app v).clusterHeadW < wu → _))
  | .join _ => inferInstanceAs (Decidable (_ ∧ _ ∧ _))

instance (s : Net α W) : DecidablePred (Allowed minusOne s)
  | .newLink v u => inferInstanceAs (Decidable (u ≠ v → _))
  | .linkFailure v u => inferInstanceAs (Decidable (u ∈ s.neighbors v → _ ∧ _))
  | .round v load => inferInstanceAs (Decidable (InitAllowed minusOne (loaded s v load) v))
  | .deliver u v i => inferInstanceAs (Decidable (∀ m ∈ (s.flight u v)[i]?, _ ∧ _))

instance AllAllowed.decidable : (s : Net α W) → DecidablePred (AllAllowed minusOne s)
  | _, [] => isTrue trivial
  | s, e :: events =>
      have := AllAllowed.decidable (handle minusOne s e) events
      inferInstanceAs (Decidable (_ ∧ _))

end Code

variable [LinearOrder α] {s : Net α W} {u v : α} {app : App α W} {m : Msg α W}

@[simp] theorem setApp_app_self : (setApp s v app).app v = app := Function.update_self ..

@[simp] theorem setApp_app_of_ne {a : α} (h : a ≠ v) : (setApp s v app).app a = s.app a :=
  Function.update_of_ne h ..

@[simp] theorem setApp_neighbors : (setApp s v app).neighbors = s.neighbors := rfl

@[simp] theorem setApp_flight : (setApp s v app).flight = s.flight := rfl

@[simp] theorem setNeighbors_self {list : List α} : (setNeighbors s v list).neighbors v = list :=
  Function.update_self ..

@[simp] theorem setNeighbors_of_ne {list : List α} {b : α} (h : b ≠ v) :
    (setNeighbors s v list).neighbors b = s.neighbors b :=
  Function.update_of_ne h ..

@[simp] theorem setFlight_self {msgs : List (Msg α W)} : (setFlight s u v msgs).flight u v = msgs :=
  if_pos ⟨rfl, rfl⟩

theorem setFlight_of_ne {msgs : List (Msg α W)} {a b : α} (h : ¬(a = u ∧ b = v)) :
    (setFlight s u v msgs).flight a b = s.flight a b :=
  if_neg h

@[simp] theorem send_app : (send s v m).app = s.app := rfl

theorem send_flight_of_ne {a : α} (h : a ≠ v) (b : α) : (send s v m).flight a b = s.flight a b :=
  if_neg (fun hsent => h hsent.1)

theorem send_flight_self {b : α} (hne : b ≠ v) (hears : v ∈ s.neighbors b) :
    (send s v m).flight v b = s.flight v b ++ [m] :=
  if_pos ⟨rfl, hne, hears⟩

theorem send_flight_unsent {a b : α} (h : ¬(a = v ∧ b ≠ v ∧ v ∈ s.neighbors b)) :
    (send s v m).flight a b = s.flight a b :=
  if_neg h

/-- What a message says about the clusterhead of its sender. A JOIN with a weight does not
name it. -/
def Told (a : α) (head : Option α) : Msg α W → Prop
  | .ch _ => head = some a
  | .join (.node n) => head = some n
  | .join (.weight _) => True

/-- `v` has left `u` out, but has sent it a JOIN that makes it choose again. -/
structure Pending (s : Net α W) (u v : α) : Prop where
  missing : u ∉ (s.app v).cluster
  head : (s.app u).clusterHead = some v
  member : (s.app u).isCh = false
  hears : v ∈ s.neighbors u
  asked : ∃ z, .join z ∈ s.flight v u

def Agrees (s : Net α W) (u v : α) : Prop :=
  (u ∈ (s.app v).cluster ↔ (s.app u).clusterHead = some v) ∨ Pending s u v

omit [LinearOrder α] in
/-- What `u` and `v` agree on stays agreed as long as the list of `v` and what `u` says are the
same, and what `v` has asked for stays under way. -/
theorem Agrees.transfer {s' : Net α W} (h : Agrees s u v)
    (hlisted : u ∈ (s'.app v).cluster ↔ u ∈ (s.app v).cluster)
    (hhead : (s'.app u).clusterHead = (s.app u).clusterHead)
    (hch : (s'.app u).isCh = (s.app u).isCh)
    (hasked : Pending s u v → v ∈ s'.neighbors u ∧ ∃ z, .join z ∈ s'.flight v u) :
    Agrees s' u v := by
  rcases h with hiff | hpending
  · refine Or.inl ?_
    rw [hlisted, hhead]
    exact hiff
  · obtain ⟨hears, hjoin⟩ := hasked hpending
    refine Or.inr ⟨?_, ?_, ?_, hears, hjoin⟩
    · rw [hlisted]
      exact hpending.missing
    · rw [hhead]
      exact hpending.head
    · rw [hch]
      exact hpending.member

/-- The last message under way says what the clusterhead of its sender is; a clusterhead that
has got all messages of a neighbor has it in the list if it belongs there, or has asked it
to choose again. -/
structure Inv (s : Net α W) : Prop where
  told : ∀ a b m, (s.flight a b).getLast? = some m → Told a (s.app a).clusterHead m
  heard : ∀ a b, s.flight a b ≠ [] → b ≠ a ∧ a ∈ s.neighbors b
  agrees : ∀ u v, u ∈ s.neighbors v → u ≠ v → (s.app v).isCh = true → s.flight u v = [] →
    Agrees s u v
  nodup : ∀ v, (s.app v).cluster.Nodup
  sound : ∀ v, (s.app v).failed = false

/-- The invariant but for what `v` itself says and has listed. -/
structure InvBut (v : α) (s : Net α W) : Prop where
  told : ∀ a b m, a ≠ v → (s.flight a b).getLast? = some m → Told a (s.app a).clusterHead m
  heard : ∀ a b, s.flight a b ≠ [] → b ≠ a ∧ a ∈ s.neighbors b
  agrees : ∀ u x, u ≠ v → x ≠ v → u ∈ s.neighbors x → u ≠ x → (s.app x).isCh = true →
    s.flight u x = [] → Agrees s u x
  nodup : ∀ x, x ≠ v → (s.app x).cluster.Nodup
  sound : ∀ x, x ≠ v → (s.app x).failed = false

/-- A net that differs from one in order at `v` only, apart from messages to `v` that were
taken off. -/
theorem Inv.but {s' : Net α W} (h : Inv s) (happ : ∀ a, a ≠ v → s'.app a = s.app a)
    (hneighbors : ∀ b, b ≠ v → s'.neighbors b = s.neighbors b)
    (hflight : ∀ a b, b ≠ v → s'.flight a b = s.flight a b)
    (hlast : ∀ a m, (s'.flight a v).getLast? = some m → (s.flight a v).getLast? = some m)
    (hheard : ∀ a, s'.flight a v ≠ [] → v ≠ a ∧ a ∈ s'.neighbors v) : InvBut v s' := by
  constructor
  · intro a b m ha hm
    rw [happ a ha]
    by_cases hb : b = v
    · subst hb
      exact h.told a b m (hlast a m hm)
    · rw [hflight a b hb] at hm
      exact h.told a b m hm
  · intro a b hne
    by_cases hb : b = v
    · subst hb
      exact hheard a hne
    · rw [hflight a b hb] at hne
      rw [hneighbors b hb]
      exact h.heard a b hne
  · intro u x hu hx hmem hne hch hempty
    rw [hneighbors x hx] at hmem
    rw [happ x hx] at hch
    rw [hflight u x hx] at hempty
    refine (h.agrees u x hmem hne hch hempty).transfer (by rw [happ x hx]) (by rw [happ u hu])
      (by rw [happ u hu]) ?_
    intro hpending
    rw [hneighbors u hu, hflight x u hu]
    exact ⟨hpending.hears, hpending.asked⟩
  · intro x hx
    rw [happ x hx]
    exact h.nodup x
  · intro x hx
    rw [happ x hx]
    exact h.sound x

/-- A node that is in order itself completes the invariant. -/
theorem InvBut.close (h : InvBut v s)
    (htold : ∀ b m, (s.flight v b).getLast? = some m → Told v (s.app v).clusterHead m)
    (hin : (s.app v).isCh = true → ∀ u ∈ s.neighbors v, u ≠ v → s.flight u v = [] → Agrees s u v)
    (hout : ∀ x, v ∈ s.neighbors x → v ≠ x → (s.app x).isCh = true → s.flight v x = [] →
      Agrees s v x)
    (hnodup : (s.app v).cluster.Nodup) (hsound : (s.app v).failed = false) : Inv s := by
  constructor
  · intro a b m hlast
    by_cases ha : a = v
    · subst ha
      exact htold b m hlast
    · exact h.told a b m ha hlast
  · exact h.heard
  · intro u x hmem hne hch hempty
    by_cases hx : x = v
    · subst hx
      exact hin hch u hmem hne hempty
    · by_cases hu : u = v
      · subst hu
        exact hout x hmem hne hch hempty
      · exact h.agrees u x hu hx hmem hne hch hempty
  · intro x
    by_cases hx : x = v
    · rw [hx]
      exact hnodup
    · exact h.nodup x hx
  · intro x
    by_cases hx : x = v
    · rw [hx]
      exact hsound
    · exact h.sound x hx

/-- A node that keeps its word without sending anything. Its list is right for the neighbors
whose last message it has taken, and a JOIN that it is to choose again stays under way. -/
theorem Inv.kept {s' : Net α W} (h : Inv s) (hbut : InvBut v s')
    (happ : ∀ a, a ≠ v → s'.app a = s.app a)
    (hneighbors : ∀ b, b ≠ v → s'.neighbors b = s.neighbors b)
    (hflight : ∀ a b, b ≠ v → s'.flight a b = s.flight a b)
    (hhead : (s'.app v).clusterHead = (s.app v).clusterHead)
    (hch : (s'.app v).isCh = (s.app v).isCh) (hfailed : (s'.app v).failed = (s.app v).failed)
    (hnodup : (s'.app v).cluster.Nodup)
    (hin : (s.app v).isCh = true → ∀ a ∈ s'.neighbors v, a ≠ v → s'.flight a v = [] →
      (a ∈ s.neighbors v ∧ s.flight a v = [] ∧
        (a ∈ (s'.app v).cluster ↔ a ∈ (s.app v).cluster)) ∨
      Agrees s' a v)
    (hasked : (s.app v).isCh = false → ∀ x, (s.app v).clusterHead = some x → x ∈ s.neighbors v →
      (∃ z, .join z ∈ s.flight x v) → x ∈ s'.neighbors v ∧ ∃ z, .join z ∈ s'.flight x v) :
    Inv s' := by
  refine hbut.close ?_ ?_ ?_ hnodup (hfailed.trans (h.sound v))
  · intro b m hm
    rw [hhead]
    by_cases hb : b = v
    · subst hb
      exact absurd rfl (hbut.heard b b (by rintro hnil; rw [hnil] at hm; cases hm)).1
    · rw [hflight v b hb] at hm
      exact h.told v b m hm
  · intro hisCh a hmem hav hempty
    rw [hch] at hisCh
    rcases hin hisCh a hmem hav hempty with ⟨hmem', hempty', hsame⟩ | hagrees
    · refine (h.agrees a v hmem' hav hisCh hempty').transfer hsame (by rw [happ a hav])
        (by rw [happ a hav]) ?_
      intro hpending
      rw [hneighbors a hav, hflight v a hav]
      exact ⟨hpending.hears, hpending.asked⟩
    · exact hagrees
  · intro x hmem hvx hisCh hempty
    have hxv : x ≠ v := Ne.symm hvx
    rw [hneighbors x hxv] at hmem
    rw [happ x hxv] at hisCh
    rw [hflight v x hxv] at hempty
    refine (h.agrees v x hmem hvx hisCh hempty).transfer (by rw [happ x hxv]) hhead hch ?_
    intro hpending
    exact hasked hpending.member x hpending.head hpending.hears hpending.asked

/-- What `v` changes in itself and sends is no matter of the others. -/
theorem InvBut.sent (h : InvBut v s) (app : App α W) (m : Msg α W) :
    InvBut v (send (setApp s v app) v m) := by
  constructor
  · intro a b m' ha hlast
    rw [send_flight_of_ne ha] at hlast
    rw [send_app, setApp_app_of_ne ha]
    exact h.told a b m' ha hlast
  · intro a b hne
    by_cases hsent : a = v ∧ b ≠ v ∧ v ∈ s.neighbors b
    · obtain ⟨rfl, hb⟩ := hsent
      exact hb
    · have hkept : (send (setApp s v app) v m).flight a b = s.flight a b := send_flight_unsent hsent
      rw [hkept] at hne
      exact h.heard a b hne
  · intro u x hu hx hmem hne hch hempty
    rw [send_flight_of_ne hu] at hempty
    rw [send_app, setApp_app_of_ne hx] at hch
    refine (h.agrees u x hu hx hmem hne hch hempty).transfer
      (by rw [send_app, setApp_app_of_ne hx]) (by rw [send_app, setApp_app_of_ne hu])
      (by rw [send_app, setApp_app_of_ne hu]) ?_
    intro hpending
    rw [send_flight_of_ne hx]
    exact ⟨hpending.hears, hpending.asked⟩
  · intro x hx
    rw [send_app, setApp_app_of_ne hx]
    exact h.nodup x hx
  · intro x hx
    rw [send_app, setApp_app_of_ne hx]
    exact h.sound x hx

/-- A node that changes and tells all that hear it is in order with them. -/
theorem InvBut.announce (h : InvBut v s) (hnodup : app.cluster.Nodup) (hsound : app.failed = false)
    (htold : Told v app.clusterHead m)
    (hagrees : app.isCh = true → ∀ u ∈ s.neighbors v, u ≠ v → s.flight u v = [] →
      Agrees (send (setApp s v app) v m) u v) :
    Inv (send (setApp s v app) v m) := by
  refine (h.sent app m).close ?_ ?_ ?_ ?_ ?_
  · intro b m' hlast
    rw [send_app, setApp_app_self]
    by_cases hears : b ≠ v ∧ v ∈ s.neighbors b
    · have hsent : (send (setApp s v app) v m).flight v b = s.flight v b ++ [m] :=
        send_flight_self hears.1 hears.2
      rw [hsent, List.getLast?_concat] at hlast
      obtain rfl := Option.some.inj hlast
      exact htold
    · have hempty : s.flight v b = [] := by
        by_contra hne
        exact hears (h.heard v b hne)
      have hkept : (send (setApp s v app) v m).flight v b = s.flight v b :=
        send_flight_unsent (fun hsent => hears hsent.2)
      rw [hkept, hempty] at hlast
      cases hlast
  · intro hch u hmem hne hempty
    rw [send_flight_of_ne hne] at hempty
    rw [send_app, setApp_app_self] at hch
    exact hagrees hch u hmem hne hempty
  · intro x hmem hne _ hempty
    -- `x` hears `v`, so that the message is under way
    have hsent : (send (setApp s v app) v m).flight v x = s.flight v x ++ [m] :=
      send_flight_self (Ne.symm hne) hmem
    rw [hsent] at hempty
    simp at hempty
  · rw [send_app, setApp_app_self]
    exact hnodup
  · rw [send_app, setApp_app_self]
    exact hsound

end Nxwlan.DistClust
