import BufferPool.Proofs.Arena.Runs

/-!
# What an arena is for its users

Users of an arena see no slots and no links. They see a catalog: which value each live key names and
in which lane it is, and for each lane a sequence of keys. This module describes the operations on
catalogs and shows that an arena behaves like its catalog, for every run and every answer.

The catalog leaves one thing open, the key under which a value is registered. Any key that is not
live will do, and the arena picks one.
-/

namespace BufferPool.Arena

variable {α : Type}

structure Catalog (α : Type) where
  place : Key → Option (α × Option Lane)
  order : Lane → List Key

namespace Catalog

def empty : Catalog α := ⟨fun _ => none, fun _ => []⟩

def add (c : Catalog α) (key : Key) (value : α) : Catalog α :=
  { c with place := Function.update c.place key (some (value, none)) }

def delete (c : Catalog α) (keys : List Key) : Catalog α :=
  { c with place := fun key => if key ∈ keys then none else c.place key }

/-- Puts a key in front of a sequence. -/
def enter (c : Catalog α) (lane : Lane) (key : Key) (value : α) : Catalog α :=
  { place := Function.update c.place key (some (value, some lane))
    order := Function.update c.order lane (key :: c.order lane) }

/-- Takes a key out of a sequence, wherever it stands. -/
def leave (c : Catalog α) (lane : Lane) (key : Key) (value : α) : Catalog α :=
  { place := Function.update c.place key (some (value, none))
    order := Function.update c.order lane ((c.order lane).erase key) }

def valuesOf (c : Catalog α) (keys : List Key) : List α :=
  keys.filterMap fun key => (c.place key).map (·.1)

/-- The keys of the detached values that satisfy `p`, by slot. -/
structure Gathered (c : Catalog α) (p : α → Bool) (keys : List Key) : Prop where
  sorted : keys.Pairwise fun x y => x.index < y.index
  mem_iff : ∀ key, key ∈ keys ↔ ∃ value, c.place key = some (value, none) ∧ p value = true

/-- What an operation does to a catalog and what it answers. Which rule applies is decided by what
the key names. -/
inductive Step (c : Catalog α) : Op α → Answer α → Catalog α → Prop
  | register {value : α} {key : Key} : c.place key = none →
      Step c (.register value) (.key key) (c.add key value)
  | unregister {value : α} {key : Key} : c.place key = some (value, none) →
      Step c (.unregister key) (.value value) (c.delete [key])
  | unregisterStale {key : Key} : c.place key = none →
      Step c (.unregister key) (.fault (.stale key)) c
  | unregisterListed {value : α} {key : Key} {lane : Lane} : c.place key = some (value, some lane) →
      Step c (.unregister key) (.fault (.stillListed lane)) c
  | prepend {value : α} {key : Key} {lane : Lane} : c.place key = some (value, none) →
      Step c (.prepend lane key) .done (c.enter lane key value)
  | prependStale {key : Key} {lane : Lane} : c.place key = none →
      Step c (.prepend lane key) (.fault (.stale key)) c
  | prependListed {value : α} {key : Key} {lane actual : Lane} :
      c.place key = some (value, some actual) →
      Step c (.prepend lane key) (.fault (.alreadyListed actual)) c
  | remove {value : α} {key : Key} {lane : Lane} : c.place key = some (value, some lane) →
      Step c (.remove lane key) .done (c.leave lane key value)
  | removeStale {key : Key} {lane : Lane} : c.place key = none →
      Step c (.remove lane key) (.fault (.stale key)) c
  | removeElsewhere {value : α} {key : Key} {lane : Lane} {actual : Option Lane} :
      c.place key = some (value, actual) → actual ≠ some lane →
      Step c (.remove lane key) (.fault (.notListed lane actual)) c
  | reclaim {abandoned : α → Bool} {keys : List Key} : c.Gathered abandoned keys →
      Step c (.reclaim abandoned) (.values (c.valuesOf keys)) (c.delete keys)
  | drain {keys : List Key} : c.Gathered (fun _ => true) keys →
      Step c .drain (.values (c.valuesOf (c.order .full ++ c.order .free ++ keys))) empty

/-- Operations one after the other, with their answers. -/
inductive Run : Catalog α → List (Op α) → List (Answer α) → Catalog α → Prop
  | nil (c : Catalog α) : Run c [] [] c
  | cons {c c' c'' : Catalog α} {op : Op α} {ops : List (Op α)} {answer : Answer α}
      {answers : List (Answer α)} : c.Step op answer c' → Run c' ops answers c'' →
      Run c (op :: ops) (answer :: answers) c''

end Catalog

/-- Everything an arena answers about itself is what the catalog says. -/
structure Shows (a : Arena α) (c : Catalog α) : Prop where
  finite : ∃ keys : List Key, keys.Nodup ∧ keys.length = a.registered ∧
    ∀ key, key ∈ keys ↔ (c.place key).isSome
  nodup : ∀ lane, (c.order lane).Nodup
  mem_iff : ∀ lane key, key ∈ c.order lane ↔ ∃ value, c.place key = some (value, some lane)
  get? : ∀ key, a.get? key = (c.place key).map (·.1)
  contains : ∀ key, a.contains key = (c.place key).isSome
  laneOf : ∀ key, a.laneOf key =
    match c.place key with
    | some (_, lane) => .ok lane
    | none => .error (.stale key)
  inLane : ∀ lane key, a.inLane lane key = decide (key ∈ c.order lane)
  count : ∀ lane, a.count lane = (c.order lane).length
  detached : ∀ keys, c.Gathered (fun _ => true) keys → a.detached = keys.length
  head? : ∀ lane, a.head? lane = .ok (c.order lane).head?
  forward : ∀ lane, ∃ entries, a.entries lane .forward = .ok entries ∧
    entries.map (·.1) = c.order lane ∧ entries.map (·.2) = c.valuesOf (c.order lane)
  backward : ∀ lane, ∃ entries, a.entries lane .backward = .ok entries ∧
    entries.map (·.1) = (c.order lane).reverse ∧
    entries.map (·.2) = c.valuesOf (c.order lane).reverse

/-- The catalog of an arena that is wired in a given way. -/
def catalog (a : Arena α) (w : Wiring) : Catalog α where
  place := a.place?
  order lane := ((w.lane lane).filterMap a.entryAt?).map (·.1)

theorem valuesOf_entries {a : Arena α} {lane : Lane} {chain : List Nat} (w : Wiring)
    (h : a.Threaded lane chain) :
    (a.catalog w).valuesOf ((chain.filterMap a.entryAt?).map (·.1)) =
      (chain.filterMap a.entryAt?).map (·.2) := by
  rw [Catalog.valuesOf, List.filterMap_map, ← List.filterMap_eq_map]
  apply List.filterMap_congr
  intro entry he
  obtain ⟨key, value⟩ := entry
  have hp : (a.catalog w).place key = some (value, some lane) := place?_of_mem_entries h he
  simp only [Function.comp_apply, hp, Option.map_some]

theorem Wired.mem_order {a : Arena α} {w : Wiring} (h : a.Wired w) (lane : Lane) (key : Key) :
    key ∈ (a.catalog w).order lane ↔ ∃ value, a.place? key = some (value, some lane) := by
  constructor
  · intro hk
    obtain ⟨⟨k, value⟩, he, rfl⟩ := List.mem_map.1 hk
    exact ⟨value, place?_of_mem_entries (h.lanes lane) he⟩
  · intro hk
    obtain ⟨value, hp⟩ := hk
    obtain ⟨node, hn, hv, hl⟩ := place?_eq_some_iff.1 hp
    have hmem : key.index ∈ w.lane lane :=
      ((h.lanes lane).mem_iff _).2 ⟨node, nodeAt?_of_node? hn, hl⟩
    have hentry : a.entryAt? key.index = some (key, value) :=
      entryAt?_eq_some_iff.2 ⟨rfl, node, hn, hv⟩
    exact List.mem_map.2 ⟨(key, value), List.mem_filterMap.2 ⟨key.index, hmem, hentry⟩, rfl⟩

theorem Wired.nodup_order {a : Arena α} {w : Wiring} (h : a.Wired w) (lane : Lane) :
    ((a.catalog w).order lane).Nodup := by
  apply List.Nodup.of_map (·.index)
  have hindex := (h.lanes lane).index_entries
  change (((w.lane lane).filterMap a.entryAt?).map (·.1)).map (·.index) |>.Nodup
  rw [hindex]
  exact (h.lanes lane).nodup

/-- The detached values are exactly those that could be reclaimed. -/
theorem gathered_abandonedKeys (a : Arena α) (w : Wiring) (abandoned : α → Bool) :
    (a.catalog w).Gathered abandoned (a.abandonedKeys abandoned) :=
  ⟨pairwise_abandonedKeys a abandoned, fun _ => mem_abandonedKeys⟩

/-- Slot order leaves no choice. -/
theorem Catalog.Gathered.unique {c : Catalog α} {p : α → Bool} {keys keys' : List Key}
    (h : c.Gathered p keys) (h' : c.Gathered p keys') : keys = keys' := by
  have hasymm : ∀ x y : Key, x ∈ keys → y ∈ keys' → x.index < y.index → y.index < x.index → x = y :=
    fun x y _ _ hxy hyx => absurd hyx (Nat.lt_asymm hxy)
  have hnodup : ∀ {l : List Key}, (l.Pairwise fun x y => x.index < y.index) → l.Nodup := by
    intro l hl
    rw [List.nodup_iff_pairwise_ne]
    apply hl.imp
    intro x y hlt heq
    exact Nat.ne_of_lt hlt (congrArg _ heq)
  have hperm : keys.Perm keys' := by
    rw [List.perm_ext_iff_of_nodup (hnodup h.sorted) (hnodup h'.sorted)]
    intro key
    rw [h.mem_iff, h'.mem_iff]
  exact hperm.eq_of_pairwise hasymm h.sorted h'.sorted

theorem Wired.detached_eq_length {a : Arena α} {w : Wiring} (h : a.Wired w) :
    a.detached = (a.abandonedKeys fun _ => true).length := by
  rw [h.detached_eq, loose, abandonedKeys, ← List.length_map (·.1)]
  congr 1
  rw [← List.filterMap_eq_filter, List.map_filterMap]
  apply List.filterMap_congr
  intro o _
  obtain ⟨key, node⟩ := o
  cases hl : node.lane <;> simp [hl, Option.guard]

theorem Wired.shows_catalog {a : Arena α} {w : Wiring} (h : a.Wired w) :
    a.Shows (a.catalog w) := by
  refine ⟨⟨a.occupants.map (·.1), ?_, ?_, ?_⟩, h.nodup_order, h.mem_order, get?_eq_place? a, ?_, ?_,
    ?_, ?_, ?_, ?_, ?_, ?_⟩
  · apply List.Nodup.of_map (·.index)
    rw [List.map_map]
    exact nodup_occupants a
  · rw [List.length_map, h.length_occupants]
  · intro key
    change _ ↔ (a.place? key).isSome = true
    rw [place?, Option.isSome_map, List.mem_map]
    constructor
    · intro hk
      obtain ⟨⟨k, node⟩, hm, rfl⟩ := hk
      rw [mem_occupants.1 hm, Option.isSome_some]
    · intro hk
      obtain ⟨node, hn⟩ := Option.isSome_iff_exists.1 hk
      exact ⟨(key, node), mem_occupants.2 hn, rfl⟩
  · intro key
    exact Option.isSome_map.symm
  · intro key
    have hplace : (a.catalog w).place key = (a.node? key).map fun node => (node.value, node.lane) :=
      rfl
    rw [hplace]
    unfold Arena.laneOf
    cases a.node? key <;> rfl
  · intro lane key
    rw [Bool.eq_iff_iff, decide_eq_true_iff, h.mem_order]
    simp only [place?_eq_some_iff]
    unfold Arena.inLane
    cases hn : a.node? key with
    | none => simp
    | some node => simp
  · intro lane
    rw [h.count_eq, ← (h.lanes lane).length_entries, ← List.length_map (·.1)]
    rfl
  · intro keys hk
    rw [h.detached_eq_length, hk.unique (gathered_abandonedKeys a w _)]
  · intro lane
    rw [(h.lanes lane).head?_eq, ← List.head?_map]
    rfl
  · intro lane
    exact ⟨_, (h.lanes lane).entries_forward, rfl, (valuesOf_entries w (h.lanes lane)).symm⟩
  · intro lane
    refine ⟨_, (h.lanes lane).entries_backward, by rw [List.map_reverse]; rfl, ?_⟩
    rw [Catalog.valuesOf, List.filterMap_reverse, List.map_reverse]
    exact congrArg List.reverse (valuesOf_entries w (h.lanes lane)).symm

theorem catalog_empty : (empty : Arena α).catalog ⟨fun _ => [], []⟩ = .empty := by
  have hplace : (empty : Arena α).place? = fun _ => none := by
    funext key
    simp [place?, node?, empty]
  simp only [catalog, hplace]
  rfl

theorem place?_eq_none_of_ne {a : Arena α} {key other : Key} {p : α × Option Lane}
    (h : a.place? key = some p) (hi : other.index = key.index) (hne : other ≠ key) :
    a.place? other = none := by
  cases ho : a.place? other with
  | none => rfl
  | some q => exact absurd (key_eq_of_index_eq ho h hi) hne

theorem Relinked.place?_eq_update {f : Nat → Node α → Node α} {a a' : Arena α} {key : Key}
    {value : α} {lane l : Option Lane} (h : Relinked f a a') (hm : Moves f key.index lane)
    (hp : a.place? key = some (value, l)) :
    a'.place? = Function.update a.place? key (some (value, lane)) := by
  funext other
  rw [h.place? hm]
  by_cases hk : other = key
  · subst hk
    rw [hp, Function.update_self]
    simp
  · rw [Function.update_of_ne hk]
    by_cases hi : other.index = key.index
    · rw [place?_eq_none_of_ne hp hi hk]
      rfl
    · simp only [if_neg hi]
      exact Option.map_id'

/-- Clearing detached values leaves the lanes as they are. -/
theorem Cleared.entries_eq {a a' : Arena α} {keys : List Key} {lane : Lane} {chain : List Nat}
    (h : a.Cleared keys a') (ht : a.Threaded lane chain)
    (hkeys : ∀ key ∈ keys, ∃ value, a.place? key = some (value, none)) :
    chain.filterMap a'.entryAt? = chain.filterMap a.entryAt? := by
  apply List.filterMap_congr
  intro i hi
  rw [h.entryAt?, if_neg]
  intro hmem
  obtain ⟨key, hk, rfl⟩ := List.mem_map.1 hmem
  obtain ⟨value, hp⟩ := hkeys key hk
  obtain ⟨node, hn, -, hl⟩ := place?_eq_some_iff.1 hp
  exact nomatch hl.symm.trans (ht.lane_eq hi (nodeAt?_of_node? hn))

theorem Cleared.catalog_eq {a a' : Arena α} {keys : List Key} {w : Wiring} {vacant : List Nat}
    (h : a.Cleared keys a') (hw : a.Wired w)
    (hkeys : ∀ key ∈ keys, ∃ value, a.place? key = some (value, none)) :
    a'.catalog { w with vacant := vacant } = (a.catalog w).delete keys := by
  have hplace : a'.place? = fun key => if key ∈ keys then none else a.place? key :=
    funext h.place?
  have horder : ∀ lane, (w.lane lane).filterMap a'.entryAt? = (w.lane lane).filterMap a.entryAt? :=
    fun lane => h.entries_eq (hw.lanes lane) hkeys
  simp only [catalog, Catalog.delete, hplace, horder]

theorem Registered.catalog_eq {a a' : Arena α} {value : α} {key : Key} {w : Wiring}
    {vacant : List Nat} (h : a.Registered value key a') (hw : a.Wired w) :
    a'.catalog { w with vacant := vacant } = (a.catalog w).add key value := by
  have hplace : a'.place? = Function.update a.place? key (some (value, none)) := by
    funext other
    rw [h.place?, Function.update_apply]
  have horder : ∀ lane, (w.lane lane).filterMap a'.entryAt? = (w.lane lane).filterMap a.entryAt? := by
    intro lane
    apply List.filterMap_congr
    intro i hi
    obtain ⟨node, hn, -⟩ := ((hw.lanes lane).mem_iff i).1 hi
    have hne : i ≠ key.index := by
      intro hi
      rw [hi, h.vacant] at hn
      exact nomatch hn
    unfold entryAt?
    rw [h.slots, if_neg hne]
  simp only [catalog, Catalog.add, hplace, horder]

theorem place?_eq_none_of_registered {a a' : Arena α} {value : α} {key : Key}
    (h : a.Registered value key a') : a.place? key = none := by
  cases hp : a.place? key with
  | none => rfl
  | some p =>
      obtain ⟨node, hn, -⟩ := place?_eq_some_iff.1 hp
      have hat := nodeAt?_of_node? hn
      rw [h.vacant] at hat
      exact nomatch hat

theorem prepend_catalog_eq {f : Nat → Node α → Node α} {a a' : Arena α} {lane : Lane} {key : Key}
    {value : α} {w w' : Wiring} (hr : Relinked f a a') (hm : Moves f key.index (some lane))
    (hp : a.place? key = some (value, none))
    (hlane : w'.lane = Function.update w.lane lane (key.index :: w.lane lane)) :
    a'.catalog w' = (a.catalog w).enter lane key value := by
  obtain ⟨node, hn, hv, -⟩ := place?_eq_some_iff.1 hp
  have hentry : a.entryAt? key.index = some (key, value) :=
    entryAt?_eq_some_iff.2 ⟨rfl, node, hn, hv⟩
  have hentries : a'.entryAt? = a.entryAt? := funext (hr.entryAt? hm)
  have horder : (fun other => ((w'.lane other).filterMap a.entryAt?).map (·.1)) =
      Function.update (a.catalog w).order lane (key :: (a.catalog w).order lane) := by
    funext other
    rw [hlane]
    by_cases ho : other = lane
    · subst ho
      simp only [Function.update_self, List.filterMap_cons, hentry, List.map_cons]
      rfl
    · simp only [Function.update_of_ne ho]
      rfl
  rw [catalog, hentries, horder, hr.place?_eq_update hm hp]
  rfl

theorem remove_catalog_eq {f : Nat → Node α → Node α} {a a' : Arena α} {lane : Lane} {key : Key}
    {value : α} {w w' : Wiring} (hr : Relinked f a a') (hm : Moves f key.index none)
    (hw : a.Wired w) (hp : a.place? key = some (value, some lane))
    (hlane : w'.lane = Function.update w.lane lane ((w.lane lane).erase key.index)) :
    a'.catalog w' = (a.catalog w).leave lane key value := by
  obtain ⟨node, hn, hv, hl⟩ := place?_eq_some_iff.1 hp
  have hentry : a.entryAt? key.index = some (key, value) :=
    entryAt?_eq_some_iff.2 ⟨rfl, node, hn, hv⟩
  have hentries : a'.entryAt? = a.entryAt? := funext (hr.entryAt? hm)
  have herase : (((w.lane lane).erase key.index).filterMap a.entryAt?).map (·.1) =
      (((w.lane lane).filterMap a.entryAt?).map (·.1)).erase key := by
    have hnodup := hw.nodup_order lane
    have hmem : key.index ∈ w.lane lane :=
      ((hw.lanes lane).mem_iff _).2 ⟨node, nodeAt?_of_node? hn, hl⟩
    obtain ⟨before, after, hsplit⟩ := List.append_of_mem hmem
    have hnot : key.index ∉ before := by
      have hnd := (hw.lanes lane).nodup
      rw [hsplit, List.nodup_append] at hnd
      exact fun hb => hnd.2.2 _ hb _ List.mem_cons_self rfl
    simp only [catalog, hsplit, List.filterMap_append, List.filterMap_cons, hentry, List.map_append,
      List.map_cons, List.nodup_append] at hnodup ⊢
    have hnot' : key ∉ (before.filterMap a.entryAt?).map (·.1) :=
      fun hb => hnodup.2.2 _ hb _ List.mem_cons_self rfl
    rw [List.erase_append_right _ hnot, List.erase_cons_head, List.erase_append_right _ hnot',
      List.erase_cons_head, List.filterMap_append, List.map_append]
  have horder : (fun other => ((w'.lane other).filterMap a.entryAt?).map (·.1)) =
      Function.update (a.catalog w).order lane (((a.catalog w).order lane).erase key) := by
    funext other
    rw [hlane]
    by_cases ho : other = lane
    · subst ho
      simp only [Function.update_self, herase]
      rfl
    · simp only [Function.update_of_ne ho]
      rfl
  rw [catalog, hentries, horder, hr.place?_eq_update hm hp]
  rfl

theorem drain_values_eq {a : Arena α} {w : Wiring} (h : a.Wired w) :
    ((w.lane .full).filterMap a.entryAt?).map (·.2) ++
        ((w.lane .free).filterMap a.entryAt?).map (·.2) ++ a.loose.map (·.2.value) =
      (a.catalog w).valuesOf ((a.catalog w).order .full ++ (a.catalog w).order .free ++
        a.abandonedKeys fun _ => true) := by
  have hloose : a.loose.map (·.2.value) =
      (a.catalog w).valuesOf (a.abandonedKeys fun _ => true) := by
    rw [loose, abandonedKeys, Catalog.valuesOf, List.filterMap_filterMap,
      ← List.filterMap_eq_filter, List.map_filterMap]
    apply List.filterMap_congr
    intro o ho
    obtain ⟨key, node⟩ := o
    have hp : (a.catalog w).place key = some (node.value, node.lane) :=
      place?_eq_some_iff.2 ⟨node, mem_occupants.1 ho, rfl, rfl⟩
    cases hl : node.lane <;> simp [hl, hp, Option.guard]
  rw [hloose, ← valuesOf_entries w (h.lanes .full), ← valuesOf_entries w (h.lanes .free)]
  simp only [Catalog.valuesOf, List.filterMap_append]
  rfl

/-- One operation of the arena is one step of its catalog. -/
theorem perform_refines {a : Arena α} {w : Wiring} (h : a.Wired w) (op : Op α) :
    ∃ w', (op.perform a).2.Wired w' ∧
      (a.catalog w).Step op (op.perform a).1 ((op.perform a).2.catalog w') := by
  cases op with
  | register value =>
      obtain ⟨key, a', ha', hr, -, -, hw⟩ := register_wired h value
      simp only [Op.perform, Op.outcome, ha', Except.map]
      refine ⟨_, hw, ?_⟩
      rw [hr.catalog_eq h]
      exact .register (place?_eq_none_of_registered hr)
  | unregister key =>
      rcases unregister_cases h key with ⟨hp, he⟩ | ⟨value, lane, hp, he⟩ |
        ⟨value, a', hp, he, -, hc, hw⟩
      · simp only [Op.perform, Op.outcome, he, Except.map]
        exact ⟨w, h, .unregisterStale hp⟩
      · simp only [Op.perform, Op.outcome, he, Except.map]
        exact ⟨w, h, .unregisterListed hp⟩
      · simp only [Op.perform, Op.outcome, he, Except.map]
        refine ⟨_, hw, ?_⟩
        have hkeys : ∀ other ∈ [key], ∃ value, a.place? other = some (value, none) := by
          simp only [List.mem_singleton, forall_eq]
          exact ⟨value, hp⟩
        rw [hc.catalog_eq h hkeys]
        exact .unregister hp
  | prepend lane key =>
      rcases prepend_cases h lane key with ⟨hp, he⟩ | ⟨value, actual, hp, he⟩ |
        ⟨value, a', f, hp, he, hr, hm, hw⟩
      · simp only [Op.perform, Op.outcome, he, Except.map]
        exact ⟨w, h, .prependStale hp⟩
      · simp only [Op.perform, Op.outcome, he, Except.map]
        exact ⟨w, h, .prependListed hp⟩
      · simp only [Op.perform, Op.outcome, he, Except.map]
        refine ⟨_, hw, ?_⟩
        rw [prepend_catalog_eq hr hm hp rfl]
        exact .prepend hp
  | remove lane key =>
      rcases remove_cases h lane key with ⟨hp, he⟩ | ⟨value, actual, hp, hl, he⟩ |
        ⟨value, a', f, hp, he, hr, hm, hw⟩
      · simp only [Op.perform, Op.outcome, he, Except.map]
        exact ⟨w, h, .removeStale hp⟩
      · simp only [Op.perform, Op.outcome, he, Except.map]
        exact ⟨w, h, .removeElsewhere hp hl⟩
      · simp only [Op.perform, Op.outcome, he, Except.map]
        refine ⟨_, hw, ?_⟩
        rw [remove_catalog_eq hr hm h hp rfl]
        exact .remove hp
  | reclaim abandoned =>
      obtain ⟨a', ha', hc, hw⟩ := reclaim_wired h abandoned
      simp only [Op.perform, Op.outcome, ha', Except.map]
      refine ⟨_, hw, ?_⟩
      have hkeys : ∀ key ∈ a.abandonedKeys abandoned, ∃ value, a.place? key = some (value, none) := by
        intro key hk
        obtain ⟨value, hp, -⟩ := mem_abandonedKeys.1 hk
        exact ⟨value, hp⟩
      have hvalues : (a.abandonedKeys abandoned).filterMap a.get? =
          (a.catalog w).valuesOf (a.abandonedKeys abandoned) := by
        rw [funext (get?_eq_place? a)]
        rfl
      rw [hc.catalog_eq h hkeys, hvalues]
      exact .reclaim (gathered_abandonedKeys a w abandoned)
  | drain =>
      simp only [Op.perform, Op.outcome, drain_wired h, Except.map]
      refine ⟨_, empty_wired, ?_⟩
      rw [catalog_empty, drain_values_eq h]
      exact .drain (gathered_abandonedKeys a w _)

theorem runFrom_refines {a : Arena α} {w : Wiring} (h : a.Wired w) (ops : List (Op α)) :
    ∃ w', (a.runFrom ops).2.Wired w' ∧
      (a.catalog w).Run ops (a.runFrom ops).1 ((a.runFrom ops).2.catalog w') := by
  induction ops generalizing a w with
  | nil => exact ⟨w, h, .nil _⟩
  | cons op ops ih =>
      obtain ⟨w₁, hw₁, hstep⟩ := perform_refines h op
      obtain ⟨w₂, hw₂, hrun⟩ := ih hw₁
      exact ⟨w₂, hw₂, .cons hstep hrun⟩

/-- Every run of an arena is a run of catalogs, with the same answers, and the arena it ends with
shows the catalog it ends with. -/
theorem run_refines_catalog (ops : List (Op α)) :
    ∃ c, Catalog.empty.Run ops (runFrom empty ops).1 c ∧ (after ops).Shows c := by
  obtain ⟨w, hw, hrun⟩ := runFrom_refines empty_wired ops
  rw [catalog_empty] at hrun
  exact ⟨_, hrun, hw.shows_catalog⟩

end BufferPool.Arena
