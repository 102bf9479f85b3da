import BufferPool.Proofs.Arena.Catalog

/-!
# What an arena holds

The values of an arena as a collection in which order does not matter, and which of them are in a
lane. Each operation is described by what it does to the two.
-/

namespace BufferPool.Arena

variable {α : Type}

/-- The keys of all occupied slots. -/
def liveKeys (a : Arena α) : List Key := a.occupants.map (·.1)

theorem mem_liveKeys {a : Arena α} {key : Key} :
    key ∈ a.liveKeys ↔ (a.place? key).isSome = true := by
  rw [liveKeys, List.mem_map, place?, Option.isSome_map]
  constructor
  · rintro ⟨⟨k, node⟩, hm, rfl⟩
    rw [mem_occupants.1 hm, Option.isSome_some]
  · intro hk
    obtain ⟨node, hn⟩ := Option.isSome_iff_exists.1 hk
    exact ⟨(key, node), mem_occupants.2 hn, rfl⟩

theorem nodup_liveKeys (a : Arena α) : a.liveKeys.Nodup := by
  apply List.Nodup.of_map (·.index)
  rw [liveKeys, List.map_map]
  exact nodup_occupants a

theorem values_eq_filterMap (a : Arena α) : a.values = a.liveKeys.filterMap a.get? := by
  rw [values, liveKeys, List.filterMap_map, ← List.filterMap_eq_map]
  apply List.filterMap_congr
  intro o ho
  obtain ⟨key, node⟩ := o
  simp only [Function.comp_apply, get?, mem_occupants.1 ho, Option.map_some]

/-- The live keys in any order give the values in some order. -/
theorem perm_values {a : Arena α} {keys : List Key} (hnodup : keys.Nodup)
    (hmem : ∀ key, key ∈ keys ↔ (a.place? key).isSome = true) :
    (keys.filterMap a.get?).Perm a.values := by
  rw [values_eq_filterMap]
  apply List.Perm.filterMap
  rw [List.perm_ext_iff_of_nodup hnodup (nodup_liveKeys a)]
  intro key
  rw [hmem, mem_liveKeys]

/-- A value that is registered once has one key. -/
theorem key_eq_of_nodup_values {a : Arena α} (h : a.values.Nodup) {key other : Key} {value : α}
    {lane lane' : Option Lane} (hk : a.place? key = some (value, lane))
    (ho : a.place? other = some (value, lane')) : key = other := by
  obtain ⟨node, hn, hv, -⟩ := place?_eq_some_iff.1 hk
  obtain ⟨node', hn', hv', -⟩ := place?_eq_some_iff.1 ho
  have hsame := List.inj_on_of_nodup_map h (mem_occupants.2 hn) (mem_occupants.2 hn')
    (hv.trans hv'.symm)
  exact congrArg Prod.fst hsame

theorem mem_values_of_place? {a : Arena α} {key : Key} {value : α} {lane : Option Lane}
    (h : a.place? key = some (value, lane)) : value ∈ a.values := by
  obtain ⟨node, hn, hv, -⟩ := place?_eq_some_iff.1 h
  exact List.mem_map.2 ⟨(key, node), mem_occupants.2 hn, hv⟩

theorem values_empty : (empty : Arena α).values = [] := rfl

/-- What is cleared comes out. -/
theorem Cleared.perm_values {a a' : Arena α} {keys : List Key} (h : a.Cleared keys a')
    (hnodup : keys.Nodup) : (keys.filterMap a.get? ++ a'.values).Perm a.values := by
  have hrest : a'.liveKeys.filterMap a'.get? = a'.liveKeys.filterMap a.get? := by
    apply List.filterMap_congr
    intro key hk
    rw [mem_liveKeys, h.place?] at hk
    rw [get?_eq_place?, get?_eq_place?, h.place?]
    split_ifs at hk ⊢ with hcleared
    · exact nomatch hk
    · rfl
  rw [values_eq_filterMap a', hrest, ← List.filterMap_append]
  apply Arena.perm_values
  · rw [List.nodup_append']
    refine ⟨hnodup, nodup_liveKeys a', fun key hk hk' => ?_⟩
    rw [mem_liveKeys, h.place?, if_pos hk] at hk'
    exact nomatch hk'
  · intro key
    rw [List.mem_append, mem_liveKeys, h.place?]
    constructor
    · rintro (hk | hk)
      · obtain ⟨place, hp⟩ := h.live key hk
        rw [hp, Option.isSome_some]
      · split_ifs at hk
        · exact nomatch hk
        · exact hk
    · intro hk
      by_cases hcleared : key ∈ keys
      · exact .inl hcleared
      · rw [if_neg hcleared]
        exact .inr hk

theorem Registered.perm_values {a a' : Arena α} {value : α} {key : Key}
    (h : a.Registered value key a') : (value :: a.values).Perm a'.values := by
  have hnew : a'.get? key = some value := by
    rw [get?_eq_place?, h.place?, if_pos rfl]
    rfl
  have hnone := place?_eq_none_of_registered h
  have hrest : a.liveKeys.filterMap a.get? = a.liveKeys.filterMap a'.get? := by
    apply List.filterMap_congr
    intro other hk
    rw [mem_liveKeys] at hk
    rw [get?_eq_place?, get?_eq_place?, h.place?, if_neg]
    rintro rfl
    rw [hnone] at hk
    exact nomatch hk
  rw [values_eq_filterMap a, hrest, ← List.filterMap_cons_some hnew]
  apply Arena.perm_values
  · refine List.nodup_cons.2 ⟨fun hk => ?_, nodup_liveKeys a⟩
    rw [mem_liveKeys, hnone] at hk
    exact nomatch hk
  · intro other
    rw [List.mem_cons, mem_liveKeys, h.place?]
    split_ifs with ho
    · exact iff_of_true (.inl ho) rfl
    · exact or_iff_right ho

theorem Relinked.values_eq {f : Nat → Node α → Node α} {a a' : Arena α} {index : Nat}
    {lane : Option Lane} (h : Relinked f a a') (hm : Moves f index lane) : a'.values = a.values := by
  rw [Arena.values_eq, Arena.values_eq, h.size, funext (h.entryAt? hm)]

/-- Everything in the arena with its keys, as it is drained: the full lane from the head, the free lane
from the head, and what is detached by slots. -/
structure Inventory (a : Arena α) (full free loose : List (Key × α)) : Prop where
  entries_full : a.entries .full .forward = .ok full
  entries_free : a.entries .free .forward = .ok free
  detached : ∀ key value, (key, value) ∈ loose ↔ a.place? key = some (value, none)
  sorted : loose.Pairwise fun x y => x.1.index < y.1.index
  /-- Nothing is listed twice, and nothing is left out. -/
  nodup : ((full ++ free ++ loose).map (·.1)).Nodup
  complete : ∀ key value, (key, value) ∈ full ++ free ++ loose ↔ a.get? key = some value
  length : (full ++ free ++ loose).length = a.registered

theorem Wired.mem_entries_iff {a : Arena α} {w : Wiring} (h : a.Wired w) {lane : Lane} {key : Key}
    {value : α} :
    (key, value) ∈ (w.lane lane).filterMap a.entryAt? ↔ a.place? key = some (value, some lane) := by
  refine ⟨fun he => place?_of_mem_entries (h.lanes lane) he, fun hp => ?_⟩
  obtain ⟨⟨other, value'⟩, he, rfl⟩ := List.mem_map.1 ((h.mem_order lane key).2 ⟨value, hp⟩)
  have hp' := place?_of_mem_entries (h.lanes lane) he
  rwa [(Prod.mk.inj (Option.some.inj (hp.symm.trans hp'))).1]

theorem mem_entries_loose {a : Arena α} {key : Key} {value : α} :
    (key, value) ∈ a.loose.map (fun o => (o.1, o.2.value)) ↔ a.place? key = some (value, none) := by
  rw [place?_eq_some_iff, List.mem_map]
  constructor
  · rintro ⟨⟨other, node⟩, ho, he⟩
    obtain ⟨rfl, rfl⟩ := Prod.mk.inj he
    obtain ⟨hn, hl⟩ := mem_loose.1 ho
    exact ⟨node, hn, rfl, hl⟩
  · rintro ⟨node, hn, rfl, hl⟩
    exact ⟨(key, node), mem_loose.2 ⟨hn, hl⟩, rfl⟩

/-- Where everything is listed, so are all keys. -/
theorem mem_map_fst {a : Arena α} {entries : List (Key × α)}
    (hcomplete : ∀ key value, (key, value) ∈ entries ↔ a.get? key = some value) (key : Key) :
    key ∈ entries.map (·.1) ↔ (a.place? key).isSome = true := by
  rw [List.mem_map, ← Option.isSome_map (f := (·.1)), ← get?_eq_place?, Option.isSome_iff_exists]
  constructor
  · rintro ⟨⟨key, value⟩, he, rfl⟩
    exact ⟨value, (hcomplete key value).1 he⟩
  · rintro ⟨value, hget⟩
    exact ⟨(key, value), (hcomplete key value).2 hget, rfl⟩

theorem Wired.inventory {a : Arena α} {w : Wiring} (h : a.Wired w) :
    a.Inventory ((w.lane .full).filterMap a.entryAt?) ((w.lane .free).filterMap a.entryAt?)
      (a.loose.map fun o => (o.1, o.2.value)) := by
  let full := (w.lane .full).filterMap a.entryAt?
  let free := (w.lane .free).filterMap a.entryAt?
  let loose := a.loose.map fun o => (o.1, o.2.value)
  have hsorted : loose.Pairwise fun x y => x.1.index < y.1.index :=
    List.pairwise_map.2 ((pairwise_occupants a).filter _)
  have hcomplete : ∀ key value, (key, value) ∈ full ++ free ++ loose ↔ a.get? key = some value := by
    intro key value
    rw [List.mem_append, List.mem_append, h.mem_entries_iff, h.mem_entries_iff, mem_entries_loose,
      get?_eq_place?]
    cases hp : a.place? key with
    | none => simp
    | some place =>
        obtain ⟨value', lane⟩ := place
        rcases lane with _ | _ | _ <;> simp
  -- A key has one place, so it cannot be in two of the three parts.
  have hapart : ∀ {l l' : List (Key × α)} {lane lane' : Option Lane},
      (∀ key value, (key, value) ∈ l → a.place? key = some (value, lane)) →
      (∀ key value, (key, value) ∈ l' → a.place? key = some (value, lane')) →
      lane ≠ lane' → (l.map (·.1)).Disjoint (l'.map (·.1)) := by
    intro l l' lane lane' hl hl' hne key hk hk'
    obtain ⟨⟨_, value⟩, he, rfl⟩ := List.mem_map.1 hk
    obtain ⟨⟨other, value'⟩, he', rfl⟩ := List.mem_map.1 hk'
    have hsame := (hl _ value he).symm.trans (hl' _ value' he')
    exact hne (Prod.mk.inj (Option.some.inj hsame)).2
  have hnodup : ((full ++ free ++ loose).map (·.1)).Nodup := by
    rw [List.map_append, List.map_append, List.nodup_append', List.nodup_append',
      List.disjoint_append_left]
    refine ⟨⟨h.nodup_order .full, h.nodup_order .free, ?_⟩, ?_, ?_, ?_⟩
    · exact hapart (fun _ _ => h.mem_entries_iff.1) (fun _ _ => h.mem_entries_iff.1) (by decide)
    · rw [List.nodup_iff_pairwise_ne, List.pairwise_map]
      exact hsorted.imp fun hlt he => Nat.ne_of_lt hlt (congrArg _ he)
    · exact hapart (fun _ _ => h.mem_entries_iff.1) (fun _ _ => mem_entries_loose.1) nofun
    · exact hapart (fun _ _ => h.mem_entries_iff.1) (fun _ _ => mem_entries_loose.1) nofun
  have hlength : (full ++ free ++ loose).length = a.registered := by
    obtain ⟨keys, hkeys, hcount, hmem⟩ := h.shows_catalog.finite
    have hperm : ((full ++ free ++ loose).map (·.1)).Perm keys := by
      rw [List.perm_ext_iff_of_nodup hnodup hkeys]
      intro key
      rw [hmem]
      exact mem_map_fst hcomplete key
    rw [← hcount, ← hperm.length_eq, List.length_map]
  exact ⟨(h.lanes .full).entries_forward, (h.lanes .free).entries_forward,
    fun _ _ => mem_entries_loose, hsorted, hnodup, hcomplete, hlength⟩

/-- Draining brings out what is in the inventory. -/
theorem Wired.drain_inventory {a : Arena α} {w : Wiring} (h : a.Wired w) :
    ∃ full free loose, a.Inventory full free loose ∧
      a.drain = .ok ((full ++ free ++ loose).map (·.2), empty) := by
  refine ⟨_, _, _, h.inventory, ?_⟩
  rw [drain_wired h, List.map_append, List.map_append, List.map_map]
  rfl

theorem Inventory.perm_values {a : Arena α} {full free loose : List (Key × α)}
    (h : a.Inventory full free loose) : ((full ++ free ++ loose).map (·.2)).Perm a.values := by
  have hvalues : (full ++ free ++ loose).map (·.2) =
      ((full ++ free ++ loose).map (·.1)).filterMap a.get? := by
    rw [List.filterMap_map, ← List.filterMap_eq_map]
    refine List.filterMap_congr fun e he => ?_
    exact ((h.complete e.1 e.2).1 he).symm
  rw [hvalues]
  exact Arena.perm_values h.nodup (mem_map_fst h.complete)

theorem Inventory.detached_eq_zero {a : Arena α} {full free : List (Key × α)}
    {wiring : Wiring} (hw : a.Wired wiring) (h : a.Inventory full free []) : a.detached = 0 := by
  rw [hw.detached_eq_length, List.length_eq_zero_iff, List.eq_nil_iff_forall_not_mem]
  intro key hk
  obtain ⟨value, hvalue, -⟩ := mem_abandonedKeys.1 hk
  exact List.not_mem_nil ((h.detached key value).2 hvalue)

/-- Draining brings everything out. -/
theorem drain_perm {a : Arena α} {w : Wiring} (h : a.Wired w) :
    ∃ values, a.drain = .ok (values, empty) ∧ values.Perm a.values := by
  obtain ⟨full, free, loose, hinventory, hdrain⟩ := h.drain_inventory
  exact ⟨_, hdrain, hinventory.perm_values⟩

/-- The value is in the lane. -/
def Lists (a : Arena α) (lane : Lane) (value : α) : Prop :=
  ∃ key, a.place? key = some (value, some lane)

theorem not_lists_empty (lane : Lane) (value : α) : ¬(empty : Arena α).Lists lane value := by
  rintro ⟨key, hp⟩
  have hnone : (empty : Arena α).place? key = none := by
    simp [Arena.place?, Arena.node?, empty]
  rw [hnone] at hp
  cases hp

/-- What enters the arena is in no lane. -/
theorem Registered.lists_iff {a a' : Arena α} {value : α} {key : Key}
    (h : a.Registered value key a') (lane : Lane) (other : α) :
    a'.Lists lane other ↔ a.Lists lane other := by
  have hnone := place?_eq_none_of_registered h
  apply exists_congr
  intro k
  rw [h.place?]
  split_ifs with hk
  · rw [hk, hnone]
    exact iff_of_false nofun nofun
  · rfl

/-- Clearing detached values leaves the lanes alone. -/
theorem Cleared.lists_iff {a a' : Arena α} {keys : List Key} (h : a.Cleared keys a')
    (hloose : ∀ key ∈ keys, ∃ value, a.place? key = some (value, none)) (lane : Lane) (other : α) :
    a'.Lists lane other ↔ a.Lists lane other := by
  apply exists_congr
  intro k
  rw [h.place?]
  split_ifs with hk
  · obtain ⟨value, hp⟩ := hloose k hk
    rw [hp]
    exact iff_of_false nofun nofun
  · rfl

section Relinked

variable {f : Nat → Node α → Node α} {a a' : Arena α} {key : Key} {value : α} {lane : Lane}

/-- What is put into a lane is in it, and nothing else changes. -/
theorem Relinked.lists_enter (h : Relinked f a a') (hm : Moves f key.index (some lane))
    (hp : a.place? key = some (value, none)) (l : Lane) (other : α) :
    a'.Lists l other ↔ a.Lists l other ∨ (l = lane ∧ other = value) := by
  unfold Lists
  rw [h.place?_eq_update hm hp]
  constructor
  · rintro ⟨k, hk⟩
    by_cases hkey : k = key
    · subst hkey
      rw [Function.update_self, Option.some.injEq, Prod.mk.injEq, Option.some.injEq] at hk
      exact .inr ⟨hk.2.symm, hk.1.symm⟩
    · rw [Function.update_of_ne hkey] at hk
      exact .inl ⟨k, hk⟩
  · rintro (⟨k, hk⟩ | ⟨rfl, rfl⟩)
    · refine ⟨k, ?_⟩
      rw [Function.update_of_ne, hk]
      rintro rfl
      rw [hp] at hk
      exact nomatch (Prod.mk.inj (Option.some.inj hk)).2
    · exact ⟨key, Function.update_self ..⟩

/-- What is taken out of a lane is in none. -/
theorem Relinked.lists_leave (h : Relinked f a a') (hm : Moves f key.index none)
    (hp : a.place? key = some (value, some lane)) {l : Lane} {other : α} (ho : a'.Lists l other) :
    a.Lists l other := by
  obtain ⟨k, hk⟩ := ho
  refine ⟨k, ?_⟩
  rw [h.place?_eq_update hm hp] at hk
  by_cases hkey : k = key
  · rw [hkey, Function.update_self] at hk
    exact nomatch (Prod.mk.inj (Option.some.inj hk)).2
  · rwa [Function.update_of_ne hkey] at hk

/-- The other lane does not notice. -/
theorem Relinked.lists_leave_other (h : Relinked f a a') (hm : Moves f key.index none)
    (hp : a.place? key = some (value, some lane)) {l : Lane} (hl : l ≠ lane) (other : α) :
    a'.Lists l other ↔ a.Lists l other := by
  refine ⟨h.lists_leave hm hp, fun ⟨k, hk⟩ => ⟨k, ?_⟩⟩
  rw [h.place?_eq_update hm hp, Function.update_of_ne, hk]
  rintro rfl
  rw [hp, Option.some.injEq, Prod.mk.injEq, Option.some.injEq] at hk
  exact hl hk.2.symm

end Relinked

end BufferPool.Arena
