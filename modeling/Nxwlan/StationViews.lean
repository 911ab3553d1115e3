import Mathlib.Data.List.Perm.Subperm
import Nxwlan.StationLists

/-!
What the memory of hostapd looks like: the stations in it are those of the lists of the BSSs,
and each chain of a BSS has the stations of its list that belong there. A lookup finds the
station with an address. Taking a station out of its list and its chain, or putting a new one in
front of them, leaves the other lists and chains as they are.
-/
namespace Nxwlan.StationLists

open HeapLists
open ClientBlacklist (Mac)

section Views

variable {n : ℕ} {s s' : State n} {lists : Fin n → List Ptr} {b : Fin n} {p q : Ptr}

def State.addrOf (s : State n) (p : Ptr) : Option Mac := (s.load p).map StaInfo.addr

/-- The station is in the chain `k`. -/
def State.InBucket (s : State n) (k : UInt8) (p : Ptr) : Prop :=
  (s.addrOf p).map STA_HASH = some k

instance (s : State n) (k : UInt8) (p : Ptr) : Decidable (s.InBucket k p) :=
  inferInstanceAs (Decidable (_ = _))

/-- The memory holds the stations of `lists`, and each BSS has its own ones in its list and in
its chains. -/
structure View (s : State n) (lists : Fin n → List Ptr) : Prop where
  list : ∀ b, Linked (field s.load StaInfo.next) (s.bss b).sta_list (lists b)
  chain : ∀ b k, Linked (field s.load StaInfo.hnext) ((s.bss b).sta_hash k)
    ((lists b).filter (s.InBucket k))
  live : ∀ p, (s.load p).isSome = true ↔ ∃ b, p ∈ lists b
  apart : ∀ b b' p, p ∈ lists b → p ∈ lists b' → b = b'
  addrs : ∀ b p q, p ∈ lists b → q ∈ lists b → s.addrOf p = s.addrOf q → p = q
  count : ∀ b, (s.bss b).num_sta = (lists b).length
  room : ∀ b, (lists b).length ≤ (s.bss b).conf.max_num_sta

theorem View.load (v : View s lists) (hp : p ∈ lists b) : ∃ info, s.load p = some info :=
  Option.isSome_iff_exists.mp ((v.live p).mpr ⟨b, hp⟩)

theorem View.nodup (v : View s lists) (b : Fin n) : (lists b).Nodup := (v.list b).nodup

/-- A loop over some of the stations comes to its end. -/
theorem State.chase_eq {link : StaInfo → Option Ptr} {stop : StaInfo → Option Bool}
    {head : Option Ptr} {xs : List Ptr} (h : Linked (field s.load link) head xs) (test : Ptr → Bool)
    (hstop : ∀ p ∈ xs, ∃ info, s.load p = some info ∧ stop info = some (test p)) :
    s.chase link stop head = some (xs.find? test) := by
  refine HeapLists.chase_eq h test hstop ?_
  refine (List.Nodup.subperm h.nodup ?_).length_le
  intro p hp
  obtain ⟨info, hload, -⟩ := hstop p hp
  exact AList.lookup_isSome.mp (Option.isSome_iff_exists.mpr ⟨info, hload⟩)

theorem field_eq {link : StaInfo → Option Ptr} {info : StaInfo} (h : s.load p = some info) :
    field s.load link p = link info := by
  rw [field, h, Option.bind_some]

theorem addrOf_eq {info : StaInfo} (h : s.load p = some info) : s.addrOf p = some info.addr := by
  rw [State.addrOf, h, Option.map_some]

theorem get_sta_eq (v : View s lists) (b : Fin n) (addr : Mac) :
    ap_get_sta s b addr = some ((lists b).find? (fun p => s.addrOf p = some addr)) := by
  rw [ap_get_sta, State.chase_eq (v.chain b (STA_HASH addr)) (fun p => s.addrOf p = some addr)]
  · rw [List.find?_filter]
    congr 2
    funext p
    by_cases haddr : s.addrOf p = some addr
    · simp [haddr, State.InBucket]
    · simp [haddr]
  · intro p hp
    obtain ⟨info, hload⟩ := v.load (List.mem_of_mem_filter hp)
    exact ⟨info, hload, by simp [addrOf_eq hload]⟩

/-- `ap_get_sta` finds the station with the address, if the BSS has one. -/
theorem get_sta_spec (v : View s lists) (b : Fin n) (addr : Mac) :
    ∃ r, ap_get_sta s b addr = some r ∧
      ∀ p, r = some p ↔ p ∈ lists b ∧ s.addrOf p = some addr := by
  refine ⟨_, get_sta_eq v b addr, fun p => ?_⟩
  constructor
  · intro hfound
    exact ⟨List.mem_of_find?_eq_some hfound, by simpa using List.find?_some hfound⟩
  · rintro ⟨hp, haddr⟩
    cases hfound : (lists b).find? (fun q => s.addrOf q = some addr) with
    | none =>
      have hnot := List.find?_eq_none.mp hfound p hp
      exact absurd haddr (by simpa using hnot)
    | some q =>
      have hq : s.addrOf q = some addr := by simpa using List.find?_some hfound
      rw [v.addrs b q p (List.mem_of_find?_eq_some hfound) hp (hq.trans haddr.symm)]

end Views

section Writes

variable {n : ℕ} {s s' s'' : State n} {lists : Fin n → List Ptr} {b : Fin n} {p q : Ptr}
  {f : StaInfo → StaInfo}

theorem load_store (h : s.store p f = some s') (q : Ptr) :
    s'.load q = if q = p then (s.load p).map f else s.load q := by
  obtain ⟨info, hload, rfl⟩ := Option.map_eq_some_iff.mp h
  unfold State.load at hload ⊢
  split
  · rename_i hq
    rw [hq, AList.lookup_insert, hload, Option.map_some]
  · rename_i hq
    exact AList.lookup_insert_ne hq

theorem store_frame (h : s.store p f = some s') : s'.bss = s.bss ∧ s'.timeout = s.timeout := by
  obtain ⟨info, hload, rfl⟩ := Option.map_eq_some_iff.mp h
  exact ⟨rfl, rfl⟩

theorem setBss_self (data : Hapd) : (s.setBss b data).bss b = data := Function.update_self ..

theorem setBss_ne {b' : Fin n} {data : Hapd} (h : b' ≠ b) : (s.setBss b data).bss b' = s.bss b' :=
  Function.update_of_ne h ..

theorem exists_store (v : View s lists) (hp : p ∈ lists b) (f : StaInfo → StaInfo) :
    ∃ s', s.store p f = some s' := by
  obtain ⟨info, hload⟩ := v.load hp
  exact ⟨_, by rw [State.store, hload, Option.map_some]⟩

/-- The fields of a station that say where it belongs. -/
def StaInfo.place (info : StaInfo) : Option Ptr × Option Ptr × Mac :=
  (info.next, info.hnext, info.addr)

/-- The stations are where they were. -/
structure Kept (s s' : State n) : Prop where
  bss : s'.bss = s.bss
  places : ∀ p, (s'.load p).map StaInfo.place = (s.load p).map StaInfo.place

theorem Kept.refl (s : State n) : Kept s s := ⟨rfl, fun _ => rfl⟩

theorem Kept.trans (h : Kept s s') (h' : Kept s' s'') : Kept s s'' :=
  ⟨h'.bss.trans h.bss, fun p => (h'.places p).trans (h.places p)⟩

theorem Kept.store (h : s.store p f = some s') (hf : ∀ info, (f info).place = info.place) :
    Kept s s' := by
  refine ⟨(store_frame h).1, fun q => ?_⟩
  rw [load_store h]
  split
  · rename_i hq
    rw [hq, Option.map_map]
    congr 1
    funext info
    exact hf info
  · rfl

theorem Kept.addrOf (h : Kept s s') (p : Ptr) : s'.addrOf p = s.addrOf p := by
  have hplace := congrArg (Option.map (fun place => place.2.2)) (h.places p)
  rw [Option.map_map, Option.map_map] at hplace
  exact hplace

theorem Kept.isSome (h : Kept s s') (p : Ptr) : (s'.load p).isSome = (s.load p).isSome := by
  have hplace := congrArg Option.isSome (h.places p)
  rwa [Option.isSome_map, Option.isSome_map] at hplace

theorem Kept.next (h : Kept s s') (p : Ptr) :
    field s'.load StaInfo.next p = field s.load StaInfo.next p := by
  have hplace := congrArg (fun place => Option.bind place Prod.fst) (h.places p)
  simp only [Option.bind_map] at hplace
  exact hplace

theorem Kept.hnext (h : Kept s s') (p : Ptr) :
    field s'.load StaInfo.hnext p = field s.load StaInfo.hnext p := by
  have hplace := congrArg (fun place => Option.bind place (fun r => r.2.1)) (h.places p)
  simp only [Option.bind_map] at hplace
  exact hplace

theorem View.kept (v : View s lists) (h : Kept s s') : View s' lists := by
  have hbucket : ∀ k p, s'.InBucket k p ↔ s.InBucket k p := by
    intro k p
    rw [State.InBucket, State.InBucket, h.addrOf]
  refine ⟨fun b => ?_, fun b k => ?_, fun p => ?_, v.apart, fun b p q hp hq haddr => ?_,
    fun b => ?_, fun b => ?_⟩
  · rw [h.bss]
    exact (v.list b).congr (fun r _ => h.next r)
  · rw [h.bss]
    simp only [hbucket]
    exact (v.chain b k).congr (fun r _ => h.hnext r)
  · rw [h.isSome]
    exact v.live p
  · rw [h.addrOf, h.addrOf] at haddr
    exact v.addrs b p q hp hq haddr
  · rw [h.bss]
    exact v.count b
  · rw [h.bss]
    exact v.room b

end Writes

section Removal

variable {n : ℕ} {s s' s'' : State n} {lists : Fin n → List Ptr} {full : Bool}
  {g : List (Timeout n)} {b : Fin n} {p q : Ptr} {env : Env n} {f : StaInfo → StaInfo}

theorem field_store_self {link : StaInfo → Option Ptr} (h : s.store p f = some s') :
    field s'.load link p = (s.load p).bind (fun info => link (f info)) := by
  rw [field, load_store h, if_pos rfl, Option.bind_map]
  rfl

theorem field_store_ne {link : StaInfo → Option Ptr} (h : s.store p f = some s') (hq : q ≠ p) :
    field s'.load link q = field s.load link q := by
  rw [field, load_store h, if_neg hq, field]

theorem field_store_of {link : StaInfo → Option Ptr} (h : s.store p f = some s')
    (hf : ∀ info, link (f info) = link info) (q : Ptr) :
    field s'.load link q = field s.load link q := by
  by_cases hq : q = p
  · subst hq
    rw [field_store_self h, field]
    congr 1
    funext info
    exact hf info
  · exact field_store_ne h hq

/-- The fields of a station that are no links to others. -/
def StaInfo.own (info : StaInfo) : Mac × Bool × BitVec 32 × TimeoutNext :=
  (info.addr, info.acct_session_started, info.flags, info.timeout_next)

/-- Links between stations are written, and nothing else. -/
structure Relinked (s s' : State n) : Prop where
  timeout : s'.timeout = s.timeout
  conf : ∀ b, (s'.bss b).conf = (s.bss b).conf
  num_sta : ∀ b, (s'.bss b).num_sta = (s.bss b).num_sta
  own : ∀ p, (s'.load p).map StaInfo.own = (s.load p).map StaInfo.own

theorem Relinked.trans (h : Relinked s s') (h' : Relinked s' s'') : Relinked s s'' :=
  ⟨h'.timeout.trans h.timeout, fun b => (h'.conf b).trans (h.conf b),
    fun b => (h'.num_sta b).trans (h.num_sta b), fun p => (h'.own p).trans (h.own p)⟩

theorem Relinked.store (h : s.store p f = some s') (hf : ∀ info, (f info).own = info.own) :
    Relinked s s' := by
  refine ⟨(store_frame h).2, fun b => ?_, fun b => ?_, fun q => ?_⟩
  · rw [(store_frame h).1]
  · rw [(store_frame h).1]
  · rw [load_store h]
    split
    · rename_i hq
      rw [hq, Option.map_map]
      congr 1
      funext info
      exact hf info
    · rfl

theorem Relinked.setBss {data : Hapd} (hconf : data.conf = (s.bss b).conf)
    (hnum : data.num_sta = (s.bss b).num_sta) : Relinked s (s.setBss b data) := by
  refine ⟨rfl, fun b' => ?_, fun b' => ?_, fun p => rfl⟩
  · by_cases hb : b' = b
    · subst hb
      rw [setBss_self, hconf]
    · rw [setBss_ne hb]
  · by_cases hb : b' = b
    · subst hb
      rw [setBss_self, hnum]
    · rw [setBss_ne hb]

theorem Relinked.isSome (h : Relinked s s') (p : Ptr) :
    (s'.load p).isSome = (s.load p).isSome := by
  have hown := congrArg Option.isSome (h.own p)
  rwa [Option.isSome_map, Option.isSome_map] at hown

theorem Relinked.addrOf (h : Relinked s s') (p : Ptr) : s'.addrOf p = s.addrOf p := by
  have hown := congrArg (Option.map Prod.fst) (h.own p)
  rw [Option.map_map, Option.map_map] at hown
  exact hown

/-- The list of the BSS without the station. -/
theorem list_del_spec (hlist : ∀ b, Linked (field s.load StaInfo.next) (s.bss b).sta_list (lists b))
    (hlive : ∀ b p, p ∈ lists b → (s.load p).isSome = true)
    (hapart : ∀ b b' p, p ∈ lists b → p ∈ lists b' → b = b') (hp : p ∈ lists b) :
    ∃ s', ap_sta_list_del s b p = some s' ∧ Relinked s s' ∧
      (∀ b, (s'.bss b).sta_hash = (s.bss b).sta_hash) ∧
      (∀ q, field s'.load StaInfo.hnext q = field s.load StaInfo.hnext q) ∧
      ∀ b, Linked (field s'.load StaInfo.next) (s'.bss b).sta_list ((lists b).filter (· ≠ p)) := by
  obtain ⟨info, hload⟩ := Option.isSome_iff_exists.mp (hlive b p hp)
  have hnext : field s.load StaInfo.next p = info.next := field_eq hload
  unfold ap_sta_list_del
  rw [hload]
  simp only [Option.bind_eq_bind, Option.bind_some]
  rcases Linked.family_cases hlist hapart hp with
    ⟨hhead, hrest⟩ | ⟨hhead, q, hq, hne, hbefore, hfind, hlink⟩
  · rw [if_pos hhead]
    refine ⟨_, rfl, Relinked.setBss rfl rfl, fun b' => ?_, fun q => rfl, fun b' => ?_⟩
    · by_cases hb : b' = b
      · subst hb
        rw [setBss_self]
      · rw [setBss_ne hb]
    · have hlinked := hrest b'
      rw [hnext] at hlinked
      by_cases hb : b' = b
      · subst hb
        rw [setBss_self]
        rwa [Function.update_self] at hlinked
      · rw [setBss_ne hb]
        rwa [Function.update_of_ne hb] at hlinked
  · have hchase : s.chase StaInfo.next (fun tmp => some (tmp.next = some p)) (s.bss b).sta_list =
        some (some q) := by
      rw [State.chase_eq (hlist b) (fun r => field s.load StaInfo.next r = some p)]
      · rw [hfind (fun r => field s.load StaInfo.next r = some p)
          (fun r _ hr => Or.inr (of_decide_eq_true hr)) (decide_eq_true hbefore)]
      · intro r hr
        obtain ⟨info', hload'⟩ := Option.isSome_iff_exists.mp (hlive b r hr)
        exact ⟨info', hload', by rw [field_eq hload']⟩
    obtain ⟨info', hload'⟩ := Option.isSome_iff_exists.mp (hlive b q hq)
    have hstore : ∃ s', s.store q (fun tmp => { tmp with next := info.next }) = some s' :=
      ⟨_, by rw [State.store, hload', Option.map_some]⟩
    obtain ⟨s', hstore⟩ := hstore
    rw [if_neg hhead, hchase]
    simp only [Option.bind_some]
    refine ⟨s', hstore, Relinked.store hstore (fun _ => rfl), fun b' => ?_,
      field_store_of hstore (fun _ => rfl), fun b' => ?_⟩
    · rw [(store_frame hstore).1]
    · rw [(store_frame hstore).1]
      refine hlink _ ?_ (fun r hr => field_store_ne hstore hr) b'
      rw [field_store_self hstore, hload', Option.bind_some, hnext]

/-- The stations of the BSS in the bucket of an address. -/
def State.chainOf (s : State n) (lists : Fin n → List Ptr) (b : Fin n) (addr : Mac) : List Ptr :=
  (lists b).filter (s.InBucket (STA_HASH addr))

theorem mem_chainOf {info : StaInfo} (hp : p ∈ lists b) (hload : s.load p = some info) :
    p ∈ s.chainOf lists b info.addr := by
  refine List.mem_filter.mpr ⟨hp, decide_eq_true ?_⟩
  rw [State.InBucket, addrOf_eq hload, Option.map_some]

/-- No other station of the BSS has the address. -/
theorem View.sole (v : View s lists) {info : StaInfo} {r : Ptr} (hp : p ∈ lists b)
    (hload : s.load p = some info) {addr : Mac} (hr : r ∈ s.chainOf lists b addr)
    (hsame : s.addrOf r = some info.addr) : r = p :=
  v.addrs b r p (List.mem_of_mem_filter hr) hp (hsame.trans (addrOf_eq hload).symm)

theorem View.chains_apart (v : View s lists) (bk bk' : Fin n × UInt8) (r : Ptr)
    (hr : r ∈ (lists bk.1).filter (s.InBucket bk.2))
    (hr' : r ∈ (lists bk'.1).filter (s.InBucket bk'.2)) : bk = bk' := by
  obtain ⟨hin, hbucket⟩ := List.mem_filter.mp hr
  obtain ⟨hin', hbucket'⟩ := List.mem_filter.mp hr'
  have hsame := (of_decide_eq_true hbucket).symm.trans (of_decide_eq_true hbucket')
  exact Prod.ext (v.apart _ _ r hin hin') (Option.some.inj hsame)

/-- The search in a chain ends at the station before the one with the address. -/
theorem View.chase_before (v : View s lists) {info : StaInfo} {q : Ptr} (hp : p ∈ lists b)
    (hload : s.load p = some info) (hbefore : field s.load StaInfo.hnext q = some p)
    (hfind : ∀ test : Ptr → Bool, (∀ r ∈ s.chainOf lists b info.addr, test r = true →
      field s.load StaInfo.hnext r = none ∨ field s.load StaInfo.hnext r = some p) →
        test q = true → (s.chainOf lists b info.addr).find? test = some q) :
    s.chase StaInfo.hnext (s.leadsTo info.addr) ((s.bss b).sta_hash (STA_HASH info.addr)) =
      some (some q) := by
  have hlist := v.chain b (STA_HASH info.addr)
  let test : Ptr → Bool := fun r =>
    (field s.load StaInfo.hnext r).all (fun r' => s.addrOf r' = some info.addr)
  have hstop : ∀ r ∈ s.chainOf lists b info.addr,
      ∃ cell, s.load r = some cell ∧ s.leadsTo info.addr cell = some (test r) := by
    intro r hr
    obtain ⟨cell, hload'⟩ := v.load (List.mem_of_mem_filter hr)
    refine ⟨cell, hload', ?_⟩
    unfold State.leadsTo
    simp only [test, field_eq hload']
    cases hr' : cell.hnext with
    | none => rfl
    | some r' =>
      have hin' := hlist.next_mem hr ((field_eq hload').trans hr')
      obtain ⟨other, hload''⟩ := v.load (List.mem_of_mem_filter hin')
      simp [addrOf_eq hload'', hload'']
  have htest : ∀ r ∈ s.chainOf lists b info.addr, test r = true →
      field s.load StaInfo.hnext r = none ∨ field s.load StaInfo.hnext r = some p := by
    intro r hr htrue
    cases hr' : field s.load StaInfo.hnext r with
    | none => exact Or.inl rfl
    | some r' =>
      have hin' : r' ∈ s.chainOf lists b info.addr := hlist.next_mem hr hr'
      refine Or.inr (congrArg some (v.sole hp hload hin' ?_))
      simpa [test, hr'] using htrue
  rw [State.chase_eq hlist test hstop]
  exact congrArg some (hfind test htest (by simp [test, hbefore, addrOf_eq hload]))

/-- The chains of the BSS without the station. -/
theorem hash_del_spec (v : View s lists) (hp : p ∈ lists b) :
    ∃ s', ap_sta_hash_del s b p = some s' ∧ Relinked s s' ∧
      (∀ b, (s'.bss b).sta_list = (s.bss b).sta_list) ∧
      (∀ q, field s'.load StaInfo.next q = field s.load StaInfo.next q) ∧
      ∀ b k, Linked (field s'.load StaInfo.hnext) ((s'.bss b).sta_hash k)
        (((lists b).filter (s.InBucket k)).filter (· ≠ p)) := by
  obtain ⟨info, hload⟩ := v.load hp
  have hnext : field s.load StaInfo.hnext p = info.hnext := field_eq hload
  have hmem := mem_chainOf hp hload
  have hfamily : ∀ bk : Fin n × UInt8, Linked (field s.load StaInfo.hnext)
      ((s.bss bk.1).sta_hash bk.2) ((lists bk.1).filter (s.InBucket bk.2)) :=
    fun bk => v.chain bk.1 bk.2
  unfold ap_sta_hash_del
  rw [hload]
  simp only [Option.bind_eq_bind, Option.bind_some]
  rcases Linked.family_cases hfamily v.chains_apart (i := (b, STA_HASH info.addr)) hmem with
    ⟨hhead, hrest⟩ | ⟨hhead, q, hq, hne, hbefore, hfind, hlink⟩
  · have hhead : (s.bss b).sta_hash (STA_HASH info.addr) = some p := hhead
    simp only [hhead, hload, Option.bind_some, if_true]
    refine ⟨_, rfl, Relinked.setBss rfl rfl, fun b' => ?_, fun q => rfl, fun b' k => ?_⟩
    · by_cases hb : b' = b
      · subst hb
        rw [setBss_self]
      · rw [setBss_ne hb]
    · have hlinked := hrest (b', k)
      rw [hnext] at hlinked
      by_cases hb : b' = b
      · subst hb
        rw [setBss_self]
        by_cases hk : k = STA_HASH info.addr
        · subst hk
          simp only [Function.update_self]
          rwa [Function.update_self] at hlinked
        · simp only [Function.update_of_ne hk]
          rwa [Function.update_of_ne (fun heq => hk (congrArg Prod.snd heq))] at hlinked
      · rw [setBss_ne hb]
        rwa [Function.update_of_ne (fun heq => hb (congrArg Prod.fst heq))] at hlinked
  · have hhead : (s.bss b).sta_hash (STA_HASH info.addr) ≠ some p := hhead
    have hlist := v.chain b (STA_HASH info.addr)
    obtain ⟨first, hfirst⟩ := Option.ne_none_iff_exists'.mp
      (fun hnone => List.ne_nil_of_mem hmem (hlist.none_iff.mp hnone))
    have hin : first ∈ s.chainOf lists b info.addr := hlist.head_mem hfirst
    obtain ⟨head, hload₁⟩ := v.load (List.mem_of_mem_filter hin)
    have hother : head.addr ≠ info.addr := by
      intro hsame
      refine hhead (hfirst.trans (congrArg some (v.sole hp hload hin ?_)))
      rw [addrOf_eq hload₁, hsame]
    obtain ⟨cell, hload₂⟩ := v.load (List.mem_of_mem_filter hq)
    have hcell : cell.hnext = some p := (field_eq hload₂).symm.trans hbefore
    have hchase := v.chase_before hp hload hbefore hfind
    rw [hfirst] at hchase
    obtain ⟨s', hstore⟩ := exists_store v (List.mem_of_mem_filter hq)
      (fun cell => { cell with hnext := info.hnext })
    simp only [hfirst, hload₁, Option.bind_some, if_neg hother, hchase, hload₂, hcell, hload]
    refine ⟨s', hstore, Relinked.store hstore (fun _ => rfl), fun b' => ?_,
      field_store_of hstore (fun _ => rfl), fun b' k => ?_⟩
    · rw [(store_frame hstore).1]
    · rw [(store_frame hstore).1]
      refine hlink _ ?_ (fun r hr => field_store_ne hstore hr) (b', k)
      rw [field_store_self hstore, hload₂, Option.bind_some, hnext]

/-- The lists without a station. -/
def without (lists : Fin n → List Ptr) (p : Ptr) (b : Fin n) : List Ptr :=
  (lists b).filter (· ≠ p)

theorem mem_without : q ∈ without lists p b ↔ q ∈ lists b ∧ q ≠ p := by
  rw [without, List.mem_filter, decide_eq_true_iff]

theorem View.length_without (v : View s lists) (hp : p ∈ lists b) (b' : Fin n) :
    ((without lists p b').length : ℤ) = (lists b').length - if b' = b then 1 else 0 := by
  split
  · rename_i hb
    subst hb
    have herase : without lists p b' = (lists b').erase p := by
      rw [without, (v.nodup b').erase_eq_filter]
      exact List.filter_congr (fun r _ => by simp [bne, beq_eq_decide])
    rw [herase, List.length_erase_of_mem hp]
    have hpos := List.length_pos_of_mem hp
    omega
  · rename_i hb
    rw [without, List.filter_eq_self.mpr, Int.sub_zero]
    intro r hr
    refine decide_eq_true ?_
    rintro rfl
    exact hb (v.apart b' b r hr hp)

/-- A station that no list and no chain leads to is taken out of the memory. -/
theorem View.freed (v : View s lists) (hp : p ∈ lists b) (hrel : Relinked s s')
    (hlist : ∀ b, Linked (field s'.load StaInfo.next) (s'.bss b).sta_list (without lists p b))
    (hchain : ∀ b k, Linked (field s'.load StaInfo.hnext) ((s'.bss b).sta_hash k)
      (((lists b).filter (s.InBucket k)).filter (· ≠ p)))
    (hload : ∀ q, s''.load q = if q = p then none else s'.load q)
    (hbss : s''.bss = (s'.setBss b { s'.bss b with num_sta := (s'.bss b).num_sta - 1 }).bss) :
    View s'' (without lists p) := by
  have hkeep : ∀ q, q ≠ p → s''.load q = s'.load q := by
    intro q hq
    rw [hload, if_neg hq]
  have haddrOf : ∀ q, q ≠ p → s''.addrOf q = s.addrOf q := by
    intro q hq
    rw [State.addrOf, hkeep q hq]
    exact hrel.addrOf q
  have hdata : ∀ b', (s''.bss b').sta_list = (s'.bss b').sta_list ∧
      (s''.bss b').sta_hash = (s'.bss b').sta_hash ∧ (s''.bss b').conf = (s.bss b').conf ∧
      (s''.bss b').num_sta = (s.bss b').num_sta - if b' = b then 1 else 0 := by
    intro b'
    rw [hbss, ← hrel.conf, ← hrel.num_sta]
    by_cases hb : b' = b
    · subst hb
      rw [setBss_self, if_pos rfl]
      exact ⟨rfl, rfl, rfl, rfl⟩
    · rw [setBss_ne hb, if_neg hb, Int.sub_zero]
      exact ⟨rfl, rfl, rfl, rfl⟩
  refine ⟨fun b' => ?_, fun b' k => ?_, fun q => ?_, fun b₁ b₂ q hq hq' => ?_,
    fun b' q r hq hr haddr => ?_, fun b' => ?_, fun b' => ?_⟩
  · rw [(hdata b').1]
    refine (hlist b').congr (fun r hr => ?_)
    rw [field, hkeep r (mem_without.mp hr).2, field]
  · have hsame : (without lists p b').filter (s''.InBucket k) =
        ((lists b').filter (s.InBucket k)).filter (· ≠ p) := by
      rw [without, List.filter_filter, List.filter_filter]
      refine List.filter_congr (fun r _ => ?_)
      by_cases hr : r = p
      · simp [hr]
      · have hbucket : s''.InBucket k r ↔ s.InBucket k r := by
          rw [State.InBucket, haddrOf r hr, State.InBucket]
        simp [hr, hbucket]
    rw [(hdata b').2.1, hsame]
    refine (hchain b' k).congr (fun r hr => ?_)
    rw [field, hkeep r (of_decide_eq_true (List.mem_filter.mp hr).2), field]
  · simp only [mem_without]
    rw [hload]
    split
    · rename_i hq
      simp [hq]
    · rename_i hq
      rw [hrel.isSome, v.live]
      simp [hq]
  · exact v.apart b₁ b₂ q (mem_without.mp hq).1 (mem_without.mp hq').1
  · rw [haddrOf q (mem_without.mp hq).2, haddrOf r (mem_without.mp hr).2] at haddr
    exact v.addrs b' q r (mem_without.mp hq).1 (mem_without.mp hr).1 haddr
  · rw [(hdata b').2.2.2, v.count, v.length_without hp]
  · rw [(hdata b').2.2.1]
    exact le_trans (List.length_filter_le _ _) (v.room b')

end Removal

section Arrival

variable {n : ℕ} {s s' : State n} {lists : Fin n → List Ptr} {full : Bool} {b : Fin n} {p q : Ptr}
  {env : Env n}

theorem View.fresh (v : View s lists) (hfresh : s.load p = none) (b : Fin n) : p ∉ lists b := by
  intro hp
  obtain ⟨info, hload⟩ := v.load hp
  rw [hfresh] at hload
  cases hload

theorem mem_added {b' : Fin n} :
    q ∈ Function.update lists b (p :: lists b) b' ↔ q ∈ lists b' ∨ (b' = b ∧ q = p) := by
  by_cases hb : b' = b
  · subst hb
    rw [Function.update_self, List.mem_cons]
    tauto
  · rw [Function.update_of_ne hb]
    tauto

/-- A station in new memory, in front of the list and of its chain. -/
theorem View.added (v : View s lists) (info : StaInfo) (hfresh : s.load p = none)
    (haddr : ∀ q ∈ lists b, s.addrOf q ≠ some info.addr)
    (hroom : (s.bss b).num_sta < (s.bss b).conf.max_num_sta)
    (hnext : info.next = (s.bss b).sta_list)
    (hhnext : info.hnext = (s.bss b).sta_hash (STA_HASH info.addr))
    (hload : ∀ q, s'.load q = if q = p then some info else s.load q)
    (hbss : s'.bss = (s.setBss b { s.bss b with
      sta_list := some p
      num_sta := (s.bss b).num_sta + 1
      sta_hash := Function.update (s.bss b).sta_hash (STA_HASH info.addr) (some p) }).bss) :
    View s' (Function.update lists b (p :: lists b)) := by
  have hkeep : ∀ b', ∀ q ∈ lists b', s'.load q = s.load q := by
    intro b' q hq
    rw [hload, if_neg]
    rintro rfl
    exact v.fresh hfresh b' hq
  have hfield : ∀ (link : StaInfo → Option Ptr) b', ∀ q ∈ lists b',
      field s'.load link q = field s.load link q := by
    intro link b' q hq
    rw [field, hkeep b' q hq, field]
  have hnew : s'.load p = some info := by rw [hload, if_pos rfl]
  have haddrOf : ∀ b', ∀ q ∈ lists b', s'.addrOf q = s.addrOf q := by
    intro b' q hq
    rw [State.addrOf, hkeep b' q hq, State.addrOf]
  have hbucket : ∀ b' k, (lists b').filter (s'.InBucket k) = (lists b').filter (s.InBucket k) := by
    intro b' k
    refine List.filter_congr (fun q hq => decide_eq_decide.mpr ?_)
    rw [State.InBucket, haddrOf b' q hq, State.InBucket]
  refine ⟨fun b' => ?_, fun b' k => ?_, fun q => ?_, fun b₁ b₂ q hq hq' => ?_,
    fun b' q r hq hr hsame => ?_, fun b' => ?_, fun b' => ?_⟩
  · rw [hbss]
    by_cases hb : b' = b
    · subst hb
      rw [setBss_self, Function.update_self]
      exact (v.list b').push ((field_eq hnew).trans hnext) (hfield _ b')
    · rw [setBss_ne hb, Function.update_of_ne hb]
      exact (v.list b').congr (hfield _ b')
  · rw [hbss]
    by_cases hb : b' = b
    · subst hb
      rw [setBss_self, Function.update_self]
      by_cases hk : k = STA_HASH info.addr
      · have hin : decide (s'.InBucket k p) = true := by
          rw [decide_eq_true_iff, State.InBucket, addrOf_eq hnew, Option.map_some, hk]
        rw [List.filter_cons, if_pos hin, hbucket, hk]
        simp only [Function.update_self]
        refine (v.chain b' _).push ((field_eq hnew).trans hhnext) (fun r hr => ?_)
        exact hfield _ b' r (List.mem_of_mem_filter hr)
      · have hout : ¬ decide (s'.InBucket k p) = true := by
          rw [decide_eq_true_iff, State.InBucket, addrOf_eq hnew, Option.map_some]
          exact fun heq => hk (Option.some.inj heq).symm
        rw [List.filter_cons, if_neg hout, hbucket]
        simp only [Function.update_of_ne hk]
        exact (v.chain b' k).congr (fun r hr => hfield _ b' r (List.mem_of_mem_filter hr))
    · rw [setBss_ne hb, Function.update_of_ne hb, hbucket]
      exact (v.chain b' k).congr (fun r hr => hfield _ b' r (List.mem_of_mem_filter hr))
  · simp only [mem_added]
    by_cases hq : q = p
    · subst hq
      rw [hnew]
      simp
    · rw [hload, if_neg hq, v.live]
      simp [hq]
  · rcases mem_added.mp hq with hold | ⟨hb, hnewest⟩
    · rcases mem_added.mp hq' with hold' | ⟨-, rfl⟩
      · exact v.apart b₁ b₂ q hold hold'
      · exact absurd hold (v.fresh hfresh b₁)
    · rcases mem_added.mp hq' with hold' | ⟨hb', -⟩
      · rw [hnewest] at hold'
        exact absurd hold' (v.fresh hfresh b₂)
      · rw [hb, hb']
  · rcases mem_added.mp hq with hold | ⟨hb, hnewest⟩
    · rw [haddrOf b' q hold] at hsame
      rcases mem_added.mp hr with hold' | ⟨hb, hnewest⟩
      · rw [haddrOf b' r hold'] at hsame
        exact v.addrs b' q r hold hold' hsame
      · rw [hnewest, addrOf_eq hnew] at hsame
        rw [hb] at hold
        exact absurd hsame (haddr q hold)
    · rw [hnewest, addrOf_eq hnew] at hsame
      rcases mem_added.mp hr with hold' | ⟨-, hnewest'⟩
      · rw [haddrOf b' r hold'] at hsame
        rw [hb] at hold'
        exact absurd hsame.symm (haddr r hold')
      · rw [hnewest, hnewest']
  · rw [hbss]
    by_cases hb : b' = b
    · subst hb
      rw [setBss_self, Function.update_self, v.count, List.length_cons]
      rfl
    · rw [setBss_ne hb, Function.update_of_ne hb]
      exact v.count b'
  · rw [hbss]
    by_cases hb : b' = b
    · subst hb
      rw [setBss_self, Function.update_self, List.length_cons]
      rw [v.count] at hroom
      exact Int.ofNat_lt.mp hroom
    · rw [setBss_ne hb, Function.update_of_ne hb]
      exact v.room b'

theorem hash_add_spec {info : StaInfo} (hload : s.load p = some info) (b : Fin n) :
    ∃ s', ap_sta_hash_add s b p = some s' ∧ s'.timeout = s.timeout ∧
      (∀ q, s'.load q = if q = p then
        some { info with hnext := (s.bss b).sta_hash (STA_HASH info.addr) } else s.load q) ∧
      s'.bss = (s.setBss b { s.bss b with
        sta_hash := Function.update (s.bss b).sta_hash (STA_HASH info.addr) (some p) }).bss := by
  have hstore : ∃ s₁, s.store p (fun info =>
      { info with hnext := (s.bss b).sta_hash (STA_HASH info.addr) }) = some s₁ :=
    ⟨_, by rw [State.store, hload, Option.map_some]⟩
  unfold ap_sta_hash_add
  rw [hload]
  simp only [Option.bind_eq_bind, Option.bind_some]
  rw [State.store, hload, Option.map_some, Option.bind_some]
  refine ⟨_, rfl, rfl, fun q => ?_, rfl⟩
  split
  · rename_i hq
    rw [hq]
    exact AList.lookup_insert _
  · rename_i hq
    exact AList.lookup_insert_ne hq

end Arrival

end Nxwlan.StationLists
