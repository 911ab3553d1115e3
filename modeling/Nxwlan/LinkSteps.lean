import Nxwlan.AgentState
import Mathlib.Logic.Relation
import Mathlib.Data.List.Chain
import Mathlib.Data.List.Nodup

/-!
The neighbor table, the connected endpoints and the notices to the applications.
The abstract model knows four steps: a node joins, a listed peer leaves, the
entry for old keys is stored, and an application registers. Each of them keeps
the three in agreement, and the notices about a node alternate.
-/
namespace Nxwlan.LinkSteps

open AgentState

/-- What the applications can learn of the links: the address recorded under each key of
the table, the connected endpoints, the applications and what they were told. -/
@[ext]
structure Links where
  listed : String → Option String
  connected : List (String × Port)
  apps : List String
  told : List Notice

namespace Links

def join (l : Links) (node : String) : Links where
  listed := Function.update l.listed node (some node)
  connected := l.connected ++ [(node, .fwd)]
  apps := l.apps
  told := l.told ++ l.apps.map (fun ns => .newLink ns node)

def leave (l : Links) (node : String) : Links where
  listed := Function.update l.listed node none
  connected := l.connected.erase (node, .fwd)
  apps := l.apps
  told := l.told ++ l.apps.map (fun ns => .linkFailure ns node)

def storeOldKeys (l : Links) : Links :=
  { l with listed := Function.update l.listed "old_keys" (some "") }

def register (l : Links) (ns : String) : Links := { l with apps := l.apps ++ [ns] }

variable {l : Links} {node n : String}

@[simp] theorem listed_join :
    (l.join node).listed n = if n = node then some node else l.listed n :=
  Function.update_apply ..

@[simp] theorem listed_leave :
    (l.leave node).listed n = if n = node then none else l.listed n :=
  Function.update_apply ..

@[simp] theorem listed_storeOldKeys :
    l.storeOldKeys.listed n = if n = "old_keys" then some "" else l.listed n :=
  Function.update_apply ..

end Links

inductive Step (own : String) : Links → Links → Prop where
  | join {l : Links} (node : String) (hnew : l.listed node = none)
      (hname : node ≠ "" ∧ node ≠ "old_keys") : Step own l (l.join node)
  | leave {l : Links} (node : String) (hlisted : (l.listed node).isSome = true)
      (hname : node ≠ own ∧ node ≠ "old_keys") : Step own l (l.leave node)
  | storeOldKeys (l : Links) : Step own l l.storeOldKeys
  | register {l : Links} (ns : String) (hnew : ns ∉ l.apps) : Step own l (l.register ns)

abbrev Steps (own : String) : Links → Links → Prop := Relation.ReflTransGen (Step own)

def appOf : Notice → String
  | .newLink ns _ => ns
  | .linkFailure ns _ => ns

/-- Table, endpoints and applications agree. -/
structure Consistent (own : String) (l : Links) : Prop where
  present : l.listed own = some own
  named : ∀ k n, k ≠ "old_keys" → l.listed k = some n → n = k
  special : ∀ n, l.listed "old_keys" = some n → n = ""
  unnamed : l.listed "" = none
  nodup : l.connected.Nodup
  linked : ∀ n port, (n, port) ∈ l.connected ↔
    (n = own ∧ port = .snd) ∨
      (port = .fwd ∧ n ≠ own ∧ n ≠ "old_keys" ∧ (l.listed n).isSome = true)
  apps : l.apps.Nodup
  told : ∀ notice ∈ l.told, appOf notice ∈ l.apps

section Abstract

variable {own : String} {l l' : Links} {ns node : String}

/-- Notices to all applications are notices to applications. -/
theorem Consistent.announced (h : Consistent own l) {g : String → Notice}
    (hg : ∀ app, appOf (g app) = app) : ∀ notice ∈ l.told ++ l.apps.map g, appOf notice ∈ l.apps := by
  intro notice hmem
  rcases List.mem_append.mp hmem with hmem | hmem
  · exact h.told notice hmem
  · obtain ⟨ns, hns, rfl⟩ := List.mem_map.mp hmem
    rwa [hg]

theorem Consistent.join (h : Consistent own l) (hnew : l.listed node = none)
    (hname : node ≠ "" ∧ node ≠ "old_keys") : Consistent own (l.join node) := by
  have hne : own ≠ node := by
    rintro rfl
    rw [h.present] at hnew
    cases hnew
  have hfree : ∀ port, (node, port) ∉ l.connected := by
    intro port hmem
    rcases (h.linked node port).mp hmem with ⟨rfl, -⟩ | ⟨-, -, -, hsome⟩
    · exact hne rfl
    · rw [hnew] at hsome
      cases hsome
  refine ⟨?_, ?_, ?_, ?_, ?_, ?_, h.apps, ?_⟩
  · simpa [hne] using h.present
  · intro k n hk hlook
    rw [Links.listed_join] at hlook
    split at hlook
    · rename_i hkn
      rw [← Option.some.inj hlook, hkn]
    · exact h.named k n hk hlook
  · simpa [hname.2.symm] using h.special
  · simpa [hname.1.symm] using h.unnamed
  · exact List.nodup_append.mpr ⟨h.nodup, List.nodup_singleton _, by
      rintro link hmem _ (_ | _) rfl
      · exact hfree _ hmem
      · contradiction⟩
  · intro n port
    simp only [Links.listed_join]
    simp only [Links.join, List.mem_append, List.mem_singleton, h.linked, Prod.mk.injEq]
    by_cases hn : n = node
    · subst hn
      simp [hnew, hne.symm, hname.2]
    · simp [hn]
  · exact h.announced (fun _ => rfl)

theorem Consistent.leave (h : Consistent own l) (hname : node ≠ own ∧ node ≠ "old_keys") :
    Consistent own (l.leave node) := by
  refine ⟨?_, ?_, ?_, ?_, h.nodup.erase _, ?_, h.apps, ?_⟩
  · simpa [hname.1.symm] using h.present
  · intro k n hk hlook
    rw [Links.listed_leave] at hlook
    split at hlook
    · cases hlook
    · exact h.named k n hk hlook
  · simpa [hname.2.symm] using h.special
  · simp [h.unnamed]
  · intro n port
    simp only [Links.listed_leave]
    simp only [Links.leave, h.nodup.mem_erase_iff, h.linked, ne_eq, Prod.mk.injEq, not_and]
    by_cases hn : n = node
    · subst hn
      simp only [hname.1, if_true]
      tauto
    · simp [hn]
  · exact h.announced (fun _ => rfl)

theorem Consistent.storeOldKeys (hown : own ≠ "old_keys") (h : Consistent own l) :
    Consistent own l.storeOldKeys := by
  refine ⟨?_, ?_, ?_, ?_, h.nodup, ?_, h.apps, h.told⟩
  · simpa [hown] using h.present
  · intro k n hk hlook
    rw [Links.listed_storeOldKeys, if_neg hk] at hlook
    exact h.named k n hk hlook
  · intro n hlook
    rw [Links.listed_storeOldKeys, if_pos rfl] at hlook
    exact (Option.some.inj hlook).symm
  · simpa using h.unnamed
  · intro n port
    rw [Links.listed_storeOldKeys]
    by_cases hn : n = "old_keys"
    · simp [Links.storeOldKeys, h.linked, hn]
    · rw [if_neg hn]
      exact h.linked n port

theorem Consistent.register (h : Consistent own l) (hnew : ns ∉ l.apps) :
    Consistent own (l.register ns) := by
  refine ⟨h.present, h.named, h.special, h.unnamed, h.nodup, h.linked, ?_, ?_⟩
  · rw [Links.register, ← List.concat_eq_append]
    exact h.apps.concat hnew
  · exact fun notice hmem => List.mem_append_left _ (h.told notice hmem)

theorem Consistent.step (hown : own ≠ "old_keys") (h : Consistent own l) (hstep : Step own l l') :
    Consistent own l' := by
  cases hstep with
  | join node hnew hname => exact h.join hnew hname
  | leave node hlisted hname => exact h.leave hname
  | storeOldKeys => exact h.storeOldKeys hown
  | register ns hnew => exact h.register hnew

theorem Consistent.steps (hown : own ≠ "old_keys") (h : Consistent own l)
    (hsteps : Steps own l l') : Consistent own l' := by
  induction hsteps with
  | refl => exact h
  | tail _ hstep ih => exact ih.step hown hstep

/-- What an application was told about a node; true is a new link. -/
def Links.toldOf (l : Links) (ns node : String) : List Bool :=
  l.told.filterMap (fun notice =>
    match notice with
    | .newLink app n => if app = ns ∧ n = node then some true else none
    | .linkFailure app n => if app = ns ∧ n = node then some false else none)

/-- An application that is registered has been told of every change of a node's link:
the notices alternate, a new link first, and the last one tells whether the node
is listed. -/
structure Informed (ns node : String) (l : Links) : Prop where
  app : ns ∈ l.apps
  alternate : (l.toldOf ns node).IsChain (· ≠ ·)
  first : (l.toldOf ns node).head? ≠ some false
  last : (l.listed node).isSome = true ↔ (l.toldOf ns node).getLast? = some true

/-- One notice for each application, if it is about the node in question. -/
theorem filterMap_once {apps : List String} {b : Bool} {f : Notice → Option Bool}
    {g : String → Notice} (happs : apps.Nodup) (hns : ns ∈ apps)
    (hg : ∀ app, f (g app) = if app = ns then some b else none) :
    (apps.map g).filterMap f = [b] := by
  have hcomp : f ∘ g = fun app => if app = ns then some b else none := funext hg
  rw [List.filterMap_map, hcomp]
  induction apps with
  | nil => cases hns
  | cons app rest ih =>
    rw [List.nodup_cons] at happs
    by_cases happ : app = ns
    · subst happ
      have hnone : rest.filterMap (fun app' => if app' = app then some b else none) = [] := by
        rw [List.filterMap_eq_nil_iff]
        intro app' hmem
        rw [if_neg]
        rintro rfl
        exact happs.1 hmem
      rw [List.filterMap_cons_some (b := b) (by simp), hnone]
    · have hmem : ns ∈ rest := by
        rcases List.mem_cons.mp hns with heq | hmem
        · exact absurd heq.symm happ
        · exact hmem
      rw [List.filterMap_cons_none (by simp [happ])]
      exact ih happs.2 hmem

/-- What an application is told about a node when all are told about one. -/
theorem toldOf_announced {b : Bool} {g : String → Notice} {f : Notice → Option Bool} {n : String}
    (happs : l.apps.Nodup) (hns : ns ∈ l.apps)
    (hg : ∀ app, f (g app) = if app = ns ∧ n = node then some b else none) :
    (l.told ++ l.apps.map g).filterMap f =
      l.told.filterMap f ++ if n = node then [b] else [] := by
  rw [List.filterMap_append]
  congr 1
  split
  · rename_i hn
    exact filterMap_once happs hns (fun app => by simp [hg, hn])
  · rename_i hn
    rw [List.filterMap_map, List.filterMap_eq_nil_iff]
    simp [hg, hn]

theorem toldOf_join (happs : l.apps.Nodup) (hns : ns ∈ l.apps) (n node : String) :
    (l.join n).toldOf ns node = l.toldOf ns node ++ if n = node then [true] else [] :=
  toldOf_announced happs hns (fun _ => rfl)

theorem toldOf_leave (happs : l.apps.Nodup) (hns : ns ∈ l.apps) (n node : String) :
    (l.leave n).toldOf ns node = l.toldOf ns node ++ if n = node then [false] else [] :=
  toldOf_announced happs hns (fun _ => rfl)

/-- The next notice differs from the last one. -/
theorem isChain_concat {bs : List Bool} {b : Bool} (h : bs.IsChain (· ≠ ·))
    (hlast : bs.getLast? ≠ some b) : (bs ++ [b]).IsChain (· ≠ ·) := by
  rw [List.isChain_append]
  refine ⟨h, List.isChain_singleton b, ?_⟩
  intro x hx y hy
  simp only [List.head?_cons, Option.mem_def, Option.some.injEq] at hy
  subst hy
  rintro rfl
  exact hlast hx

/-- A notice that differs from the last one, and is a new link if it is the first one. -/
theorem Informed.told {b : Bool} (h : Informed ns node l) (happs : l'.apps = l.apps)
    (htold : l'.toldOf ns node = l.toldOf ns node ++ [b])
    (hlast : (l.toldOf ns node).getLast? ≠ some b)
    (hfirst : l.toldOf ns node = [] → b = true)
    (hlisted : (l'.listed node).isSome = b) : Informed ns node l' := by
  refine ⟨happs ▸ h.app, ?_, ?_, ?_⟩
  · rw [htold]
    exact isChain_concat h.alternate hlast
  · rw [htold, List.head?_append]
    cases hhead : (l.toldOf ns node).head? with
    | none => simp [hfirst (List.head?_eq_none_iff.mp hhead)]
    | some b =>
      have hfirst := h.first
      rw [hhead] at hfirst
      exact hfirst
  · rw [htold, List.getLast?_concat, hlisted, Option.some.injEq]

/-- Notices about other nodes. -/
theorem Informed.untold (h : Informed ns node l) (happs : l'.apps = l.apps)
    (htold : l'.toldOf ns node = l.toldOf ns node) (hlisted : l'.listed node = l.listed node) :
    Informed ns node l' := by
  refine ⟨happs ▸ h.app, htold ▸ h.alternate, htold ▸ h.first, ?_⟩
  rw [htold, hlisted]
  exact h.last

theorem Informed.join (h : Informed ns node l) (happs : l.apps.Nodup) {n : String}
    (hnew : l.listed n = none) : Informed ns node (l.join n) := by
  have htold := toldOf_join happs h.app n node
  by_cases hn : n = node
  · subst hn
    rw [if_pos rfl] at htold
    have hlast : (l.toldOf ns n).getLast? ≠ some true := by
      rw [Ne, ← h.last, hnew]
      simp
    exact h.told rfl htold hlast (fun _ => rfl) (by simp [Links.listed_join])
  · rw [if_neg hn, List.append_nil] at htold
    exact h.untold rfl htold (by rw [Links.listed_join, if_neg (Ne.symm hn)])

theorem Informed.leave (h : Informed ns node l) (happs : l.apps.Nodup) {n : String}
    (hlisted : (l.listed n).isSome = true) : Informed ns node (l.leave n) := by
  have htold := toldOf_leave happs h.app n node
  by_cases hn : n = node
  · subst hn
    rw [if_pos rfl] at htold
    have hlast : (l.toldOf ns n).getLast? = some true := h.last.mp hlisted
    refine h.told rfl htold (by simp [hlast]) (fun hnil => ?_) (by simp [Links.listed_leave])
    rw [hnil] at hlast
    cases hlast
  · rw [if_neg hn, List.append_nil] at htold
    exact h.untold rfl htold (by rw [Links.listed_leave, if_neg (Ne.symm hn)])

theorem Informed.step (hnode : node ≠ "old_keys") (hc : Consistent own l) (h : Informed ns node l)
    (hstep : Step own l l') : Informed ns node l' := by
  cases hstep with
  | join n hnew hname => exact h.join hc.apps hnew
  | leave n hlisted hname => exact h.leave hc.apps hlisted
  | storeOldKeys => exact h.untold rfl rfl (by rw [Links.listed_storeOldKeys, if_neg hnode])
  | register ns' hnew => exact ⟨List.mem_append_left _ h.app, h.alternate, h.first, h.last⟩

theorem Informed.steps (hown : own ≠ "old_keys") (hnode : node ≠ "old_keys")
    (hc : Consistent own l) (h : Informed ns node l) (hsteps : Steps own l l') :
    Informed ns node l' := by
  induction hsteps with
  | refl => exact h
  | tail hpast hstep ih => exact ih.step hnode (hc.steps hown hpast) hstep

/-- An application starts out informed about every node that is not listed. -/
theorem Informed.start (hc : Consistent own l) (hnew : ns ∉ l.apps)
    (hnode : l.listed node = none) : Informed ns node (l.register ns) := by
  have hnone : (l.register ns).toldOf ns node = [] := by
    unfold Links.toldOf
    rw [List.filterMap_eq_nil_iff]
    intro notice hmem
    have happ := hc.told notice hmem
    cases notice with
    | newLink app n =>
      simp only [ite_eq_right_iff, reduceCtorEq, imp_false, not_and]
      rintro rfl
      exact absurd happ hnew
    | linkFailure app n =>
      simp only [ite_eq_right_iff, reduceCtorEq, imp_false, not_and]
      rintro rfl
      exact absurd happ hnew
  refine ⟨by simp [Links.register], ?_, ?_, ?_⟩
  · simp [hnone]
  · simp [hnone]
  · rw [hnone]
    simp [Links.register, hnode]

end Abstract

end Nxwlan.LinkSteps
