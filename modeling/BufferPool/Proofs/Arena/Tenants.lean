import Mathlib.Data.List.Induction
import BufferPool.Proofs.Arena.Occupancy

/-!
# Occupants and tenants

The occupants of an arena are those of its slots one after the other. Counted by lane they make up
the chains, and so the three counters of a sound arena are right. An occupant without its links is a
tenant. Linking in and out leaves all tenants in their slots, and what vacates slots leaves every
tenant of another slot as it is, with its key.
-/

namespace BufferPool.Arena

variable {α : Type}

/-- The occupant of a slot with its key. -/
def occupantAt? (a : Arena α) (index : Nat) : Option (Key × Node α) :=
  match a.slots[index]? with
  | some ⟨generation, .occupied node⟩ => some (⟨index, generation⟩, node)
  | _ => none

theorem occupantAt?_eq_some_iff {a : Arena α} {i : Nat} {key : Key} {node : Node α} :
    a.occupantAt? i = some (key, node) ↔ key.index = i ∧ a.node? key = some node := by
  rw [node?_eq_some_iff]
  obtain ⟨index, generation⟩ := key
  unfold occupantAt?
  split <;> grind

theorem entryAt?_eq_map (a : Arena α) (i : Nat) :
    a.entryAt? i = (a.occupantAt? i).map fun (key, node) => (key, node.value) := by
  unfold entryAt? occupantAt?
  rcases a.slots[i]? with _ | ⟨generation, node | next⟩ <;> rfl

theorem filterMap_zipIdx {β γ : Type} (f : β × Nat → Option γ) (l : List β) :
    l.zipIdx.filterMap f = (List.range l.length).filterMap fun i => l[i]?.bind fun b => f (b, i) := by
  induction l using List.reverseRecOn with
  | nil => rfl
  | append_singleton l b ih =>
      rw [List.zipIdx_append, List.filterMap_append, ih, List.length_append, List.length_singleton,
        List.range_succ, List.filterMap_append]
      congr 1
      · refine List.filterMap_congr fun i hi => ?_
        rw [List.getElem?_append_left (List.mem_range.1 hi)]
      · cases h : f (b, l.length) <;> simp [h]

theorem occupants_eq (a : Arena α) :
    a.occupants = (List.range a.slots.size).filterMap a.occupantAt? := by
  unfold occupants
  rw [filterMap_zipIdx, Array.length_toList]
  refine List.filterMap_congr fun i _ => ?_
  rw [Array.getElem?_toList]
  unfold occupantAt?
  rcases a.slots[i]? with _ | ⟨generation, node | next⟩ <;> rfl

theorem mem_occupants {a : Arena α} {key : Key} {node : Node α} :
    (key, node) ∈ a.occupants ↔ a.node? key = some node := by
  rw [occupants_eq, List.mem_filterMap]
  constructor
  · rintro ⟨i, -, hi⟩
    exact (occupantAt?_eq_some_iff.1 hi).2
  · intro hn
    exact ⟨key.index, List.mem_range.2 (lt_size_of_nodeAt? (nodeAt?_of_node? hn)),
      occupantAt?_eq_some_iff.2 ⟨rfl, hn⟩⟩

theorem pairwise_occupants (a : Arena α) :
    a.occupants.Pairwise fun x y => x.1.index < y.1.index := by
  rw [occupants_eq, List.pairwise_filterMap]
  refine List.pairwise_lt_range.imp ?_
  rintro i j hij ⟨k, m⟩ hk ⟨l, n⟩ hl
  rw [(occupantAt?_eq_some_iff.1 hk).1, (occupantAt?_eq_some_iff.1 hl).1]
  exact hij

theorem nodup_occupants (a : Arena α) : (a.occupants.map (·.1.index)).Nodup := by
  rw [List.nodup_iff_pairwise_ne, List.pairwise_map]
  exact (pairwise_occupants a).imp fun h => Nat.ne_of_lt h

theorem values_eq (a : Arena α) :
    a.values = ((List.range a.slots.size).filterMap a.entryAt?).map (·.2) := by
  rw [values, occupants_eq, List.map_filterMap, List.map_filterMap]
  refine List.filterMap_congr fun i _ => ?_
  rw [entryAt?_eq_map, Option.map_map]
  rfl

/-- The occupants in neither lane. -/
def loose (a : Arena α) : List (Key × Node α) := a.occupants.filter (·.2.lane.isNone)

theorem mem_loose {a : Arena α} {key : Key} {node : Node α} :
    (key, node) ∈ a.loose ↔ a.node? key = some node ∧ node.lane = none := by
  rw [loose, List.mem_filter, mem_occupants, Option.isNone_iff_eq_none]

theorem length_by_lane (l : List (Key × Node α)) :
    l.length = (l.filter (·.2.lane.isNone)).length +
      (l.filter (·.2.lane = some .free)).length + (l.filter (·.2.lane = some .full)).length := by
  induction l with
  | nil => rfl
  | cons x l ih =>
      rcases x with ⟨key, value, _ | lane, prev, next⟩
      · simp [ih]
        omega
      · cases lane <;> simp [ih] <;> omega

namespace Wired

variable {a : Arena α} {w : Wiring}

theorem length_occupants (h : a.Wired w) : a.occupants.length = a.registered := by
  have hperm : (a.occupants.map (·.1.index) ++ w.vacant).Perm (List.range a.slots.size) := by
    rw [List.perm_ext_iff_of_nodup ?_ List.nodup_range]
    · intro i
      rw [List.mem_append, List.mem_map, List.mem_range, h.vacated.mem_iff]
      constructor
      · rintro (⟨⟨key, node⟩, hm, rfl⟩ | ⟨next, hv⟩)
        · exact lt_size_of_nodeAt? (nodeAt?_of_node? (mem_occupants.1 hm))
        · exact lt_size_of_vacancyAt? hv
      · intro hi
        have hs := isSome_vacancyAt? hi
        cases hn : a.nodeAt? i with
        | none =>
            rw [hn] at hs
            exact .inr (Option.isSome_iff_exists.1 hs)
        | some node =>
            obtain ⟨g, hg⟩ := nodeAt?_eq_some_iff.1 hn
            exact .inl ⟨(⟨i, g⟩, node), mem_occupants.2 (node?_eq_some_iff.2 hg), rfl⟩
    · refine List.nodup_append.2 ⟨nodup_occupants a, h.vacated.nodup, ?_⟩
      rintro i hi j hj rfl
      obtain ⟨⟨key, node⟩, hm, rfl⟩ := List.mem_map.1 hi
      obtain ⟨next, hv⟩ := (h.vacated.mem_iff _).1 hj
      have hk := nodeAt?_of_node? (mem_occupants.1 hm)
      simpa [hv, hk] using isSome_vacancyAt? (lt_size_of_nodeAt? hk)
  have hlen := hperm.length_eq
  rw [List.length_append, List.length_map, List.length_range, ← h.registered] at hlen
  omega

theorem length_lane (h : a.Wired w) (lane : Lane) :
    (a.occupants.filter (·.2.lane = some lane)).length = (w.lane lane).length := by
  have hperm : ((a.occupants.filter (·.2.lane = some lane)).map (·.1.index)).Perm (w.lane lane) := by
    rw [List.perm_ext_iff_of_nodup ?_ (h.lanes lane).nodup]
    · intro i
      rw [(h.lanes lane).mem_iff, List.mem_map]
      constructor
      · rintro ⟨⟨key, node⟩, hm, rfl⟩
        obtain ⟨hm, hl⟩ := List.mem_filter.1 hm
        exact ⟨node, nodeAt?_of_node? (mem_occupants.1 hm), of_decide_eq_true hl⟩
      · rintro ⟨node, hn, hl⟩
        obtain ⟨g, hg⟩ := nodeAt?_eq_some_iff.1 hn
        exact ⟨(⟨i, g⟩, node), List.mem_filter.2
          ⟨mem_occupants.2 (node?_eq_some_iff.2 hg), decide_eq_true hl⟩, rfl⟩
    · exact (nodup_occupants a).sublist (List.filter_sublist.map _)
  rw [← hperm.length_eq, List.length_map]

theorem registered_eq (h : a.Wired w) :
    a.registered = a.loose.length + a.free.count + a.full.count := by
  rw [← h.length_occupants, length_by_lane, h.length_lane, h.length_lane, ← (h.lanes .free).count,
    ← (h.lanes .full).count]
  rfl

/-- The number of detached values is computed without going below zero. -/
theorem detached_eq (h : a.Wired w) : a.detached = a.loose.length := by
  have := h.registered_eq
  unfold Arena.detached
  omega

theorem registered_le (h : a.Wired w) : a.registered ≤ a.slots.size := by
  have := h.registered
  omega

end Wired

/-- The occupant of a slot without its links. -/
def tenantAt? (a : Arena α) (index : Nat) : Option (Key × α × Option Lane) :=
  (a.occupantAt? index).map fun (key, node) => (key, node.value, node.lane)

/-- The value a key names with its lane. -/
def place? (a : Arena α) (key : Key) : Option (α × Option Lane) :=
  (a.node? key).map fun node => (node.value, node.lane)

theorem place?_eq_some_iff {a : Arena α} {key : Key} {value : α} {lane : Option Lane} :
    a.place? key = some (value, lane) ↔
      ∃ node, a.node? key = some node ∧ node.value = value ∧ node.lane = lane := by
  simp [place?, Option.map_eq_some_iff]

theorem get?_eq_place? (a : Arena α) (key : Key) : a.get? key = (a.place? key).map (·.1) := by
  rw [get?, place?, Option.map_map]
  rfl

theorem tenantAt?_eq_some_iff {a : Arena α} {i : Nat} {key : Key} {p : α × Option Lane} :
    a.tenantAt? i = some (key, p) ↔ key.index = i ∧ a.place? key = some p := by
  simp only [tenantAt?, place?, Option.map_eq_some_iff]
  constructor
  · rintro ⟨⟨k, node⟩, ho, he⟩
    obtain ⟨rfl, hp⟩ := Prod.mk.inj he
    obtain ⟨hi, hn⟩ := occupantAt?_eq_some_iff.1 ho
    exact ⟨hi, node, hn, hp⟩
  · rintro ⟨hi, node, hn, rfl⟩
    exact ⟨(key, node), occupantAt?_eq_some_iff.2 ⟨hi, hn⟩, rfl⟩

theorem entryAt?_eq_tenantAt? (a : Arena α) (i : Nat) :
    a.entryAt? i = (a.tenantAt? i).map fun (key, value, _) => (key, value) := by
  rw [entryAt?_eq_map, tenantAt?, Option.map_map]
  rfl

/-- Two keys to one slot that both name something are the same. -/
theorem key_eq_of_index_eq {a : Arena α} {key other : Key} {p q : α × Option Lane}
    (h : a.place? key = some p) (h' : a.place? other = some q) (hi : key.index = other.index) :
    key = other := by
  have hk := tenantAt?_eq_some_iff.2 ⟨hi, h⟩
  have ho := tenantAt?_eq_some_iff.2 ⟨rfl, h'⟩
  rw [hk] at ho
  exact (Prod.mk.inj (Option.some.inj ho)).1

theorem place?_of_mem_entries {a : Arena α} {lane : Lane} {chain : List Nat}
    (h : a.Threaded lane chain) {key : Key} {value : α}
    (he : (key, value) ∈ chain.filterMap a.entryAt?) : a.place? key = some (value, some lane) := by
  obtain ⟨i, hi, hentry⟩ := List.mem_filterMap.1 he
  obtain ⟨rfl, node, hn, hv⟩ := entryAt?_eq_some_iff.1 hentry
  have hl := h.lane_eq hi (nodeAt?_of_node? hn)
  exact place?_eq_some_iff.2 ⟨node, hn, hv, hl⟩

theorem place?_congr {a a' : Arena α} {key : Key}
    (h : a'.tenantAt? key.index = a.tenantAt? key.index) : a'.place? key = a.place? key := by
  refine Option.ext fun p => ?_
  have hiff : ∀ b : Arena α, b.place? key = some p ↔ b.tenantAt? key.index = some (key, p) :=
    fun b => by simp [tenantAt?_eq_some_iff]
  rw [hiff, hiff, h]

theorem place?_eq_none {a : Arena α} {key : Key} (h : a.tenantAt? key.index = none) :
    a.place? key = none := by
  cases hp : a.place? key with
  | none => rfl
  | some p =>
      rw [tenantAt?_eq_some_iff.2 ⟨rfl, hp⟩] at h
      exact nomatch h

/-- An arena from which the values of some keys have been taken. -/
structure Cleared (a : Arena α) (keys : List Key) (a' : Arena α) : Prop where
  live : ∀ key ∈ keys, ∃ p, a.place? key = some p
  tenantAt? : ∀ i, a'.tenantAt? i = if i ∈ keys.map (·.index) then none else a.tenantAt? i
  generationAt? : ∀ i, a'.generationAt? i =
    (a.generationAt? i).map fun g => if i ∈ keys.map (·.index) then g + 1 else g
  size : a'.slots.size = a.slots.size

theorem cleared_nil (a : Arena α) : a.Cleared [] a :=
  ⟨by simp, by simp, by simp, rfl⟩

namespace Cleared

variable {a a' a'' : Arena α} {keys keys' : List Key}

theorem entryAt? (h : a.Cleared keys a') (i : Nat) :
    a'.entryAt? i = if i ∈ keys.map (·.index) then none else a.entryAt? i := by
  rw [entryAt?_eq_tenantAt?, entryAt?_eq_tenantAt?, h.tenantAt?]
  split_ifs <;> rfl

theorem mem_of_index_mem (h : a.Cleared keys a') {key : Key} {p : α × Option Lane}
    (hp : a.place? key = some p) (hi : key.index ∈ keys.map (·.index)) : key ∈ keys := by
  obtain ⟨other, ho, hio⟩ := List.mem_map.1 hi
  obtain ⟨q, hq⟩ := h.live other ho
  rwa [key_eq_of_index_eq hp hq hio.symm]

theorem place? (h : a.Cleared keys a') (key : Key) :
    a'.place? key = if key ∈ keys then none else a.place? key := by
  have ht := h.tenantAt? key.index
  by_cases hi : key.index ∈ keys.map (·.index)
  · rw [if_pos hi] at ht
    rw [place?_eq_none ht]
    split_ifs with hk
    · rfl
    · cases hp : a.place? key with
      | none => rfl
      | some p => exact absurd (h.mem_of_index_mem hp hi) hk
  · rw [if_neg hi] at ht
    rw [place?_congr ht, if_neg fun hk => hi (List.mem_map_of_mem hk)]

theorem append (h : a.Cleared keys a') (h' : a'.Cleared keys' a'') :
    a.Cleared (keys ++ keys') a'' := by
  have hlive : ∀ key ∈ keys', key ∉ keys ∧ ∃ p, a.place? key = some p := by
    intro key hk
    obtain ⟨p, hp⟩ := h'.live key hk
    rw [h.place?] at hp
    split_ifs at hp with hmem
    exact ⟨hmem, p, hp⟩
  refine ⟨fun key hk => ?_, fun i => ?_, fun i => ?_, h'.size.trans h.size⟩
  · rcases List.mem_append.1 hk with hk | hk
    · exact h.live key hk
    · exact (hlive key hk).2
  · rw [h'.tenantAt?, h.tenantAt?, List.map_append]
    by_cases hi : i ∈ keys.map (·.index) <;> by_cases hi' : i ∈ keys'.map (·.index) <;>
      simp only [List.mem_append, hi, hi', if_true, if_false, or_true, true_or, or_self]
  · rw [h'.generationAt?, h.generationAt?, Option.map_map]
    congr 1
    funext g
    have hdis : ¬ (i ∈ keys.map (·.index) ∧ i ∈ keys'.map (·.index)) := by
      rintro ⟨hi, hi'⟩
      obtain ⟨key, hk, rfl⟩ := List.mem_map.1 hi'
      obtain ⟨hnot, p, hp⟩ := hlive key hk
      exact hnot (h.mem_of_index_mem hp hi)
    simp only [Function.comp_apply, List.map_append, List.mem_append]
    by_cases hi : i ∈ keys.map (·.index) <;> by_cases hi' : i ∈ keys'.map (·.index)
    · exact absurd ⟨hi, hi'⟩ hdis
    · simp only [hi, hi', if_true, if_false, or_false]
    · simp only [hi, hi', if_true, if_false, false_or]
    · simp only [hi, hi', if_false, or_self]

end Cleared

theorem Registered.place? {a a' : Arena α} {value : α} {key : Key} (h : a.Registered value key a')
    (other : Key) :
    a'.place? other = if other = key then some (value, none) else a.place? other := by
  have hnew : a'.place? key = some (value, none) :=
    place?_eq_some_iff.2 ⟨_, node?_eq_some_iff.2 (by rw [h.slots, if_pos rfl]), rfl, rfl⟩
  split_ifs with hk
  · rw [hk, hnew]
  · by_cases hi : other.index = key.index
    · have hold : a.tenantAt? other.index = none := by
        cases ht : a.tenantAt? other.index with
        | none => rfl
        | some t =>
            obtain ⟨k, v, l⟩ := t
            obtain ⟨hki, hp⟩ := tenantAt?_eq_some_iff.1 ht
            obtain ⟨node, hn, -⟩ := place?_eq_some_iff.1 hp
            have hat := nodeAt?_of_node? hn
            rw [hki, hi, h.vacant] at hat
            exact nomatch hat
      rw [place?_eq_none hold]
      cases hp : a'.place? other with
      | none => rfl
      | some p => exact absurd (key_eq_of_index_eq hp hnew hi) hk
    · unfold Arena.place?
      rw [node?_congr (a := a) (by rw [h.slots, if_neg hi])]

theorem Unregistered.cleared {a a' : Arena α} {key : Key} {node : Node α}
    (h : a.Unregistered key a') (hn : a.node? key = some node) : a.Cleared [key] a' := by
  have hs := node?_eq_some_iff.1 hn
  refine ⟨?_, fun i => ?_, fun i => ?_, h.size⟩
  · simp only [List.mem_singleton, forall_eq]
    exact ⟨_, place?_eq_some_iff.2 ⟨node, hn, rfl, rfl⟩⟩
  · simp only [tenantAt?, occupantAt?, h.slots, List.map_cons, List.map_nil, List.mem_singleton]
    split_ifs <;> rfl
  · simp only [generationAt?, h.slots, List.map_cons, List.map_nil, List.mem_singleton]
    split_ifs with hi
    · rw [hi, hs]
      rfl
    · exact Option.map_id'.symm

theorem Relinked.tenantAt? {f : Nat → Node α → Node α} {a a' : Arena α} {index : Nat}
    {lane : Option Lane} (h : Relinked f a a') (hm : Moves f index lane) (i : Nat) :
    a'.tenantAt? i = (a.tenantAt? i).map fun (key, value, l) =>
      (key, value, if i = index then lane else l) := by
  simp only [Arena.tenantAt?, occupantAt?, h.slots]
  rcases a.slots[i]? with _ | ⟨generation, node | next⟩
  · rfl
  · obtain ⟨hv, hl⟩ := hm i node
    simp [Slot.onNode, hv, hl]
  · rfl

theorem Relinked.place? {f : Nat → Node α → Node α} {a a' : Arena α} {index : Nat}
    {lane : Option Lane} (h : Relinked f a a') (hm : Moves f index lane) (key : Key) :
    a'.place? key = (a.place? key).map fun (value, l) =>
      (value, if key.index = index then lane else l) := by
  simp only [Arena.place?, h.node?, Option.map_map]
  congr 1
  funext node
  obtain ⟨hv, hl⟩ := hm key.index node
  simp only [Function.comp_apply, hv, hl]

theorem Relinked.entryAt? {f : Nat → Node α → Node α} {a a' : Arena α} {index : Nat}
    {lane : Option Lane} (h : Relinked f a a') (hm : Moves f index lane) (i : Nat) :
    a'.entryAt? i = a.entryAt? i := by
  rw [entryAt?_eq_tenantAt?, entryAt?_eq_tenantAt?, h.tenantAt? hm, Option.map_map]
  rfl

/-- What is taken out of a lane first and then vacated is cleared. -/
theorem Relinked.cleared {f : Nat → Node α → Node α} {a a' a'' : Arena α} {key : Key}
    {lane : Option Lane} (h : Relinked f a a') (hm : Moves f key.index lane)
    (hc : a'.Cleared [key] a'') : a.Cleared [key] a'' := by
  refine ⟨fun other ho => ?_, fun i => ?_, fun i => ?_, hc.size.trans h.size⟩
  · obtain ⟨p, hp⟩ := hc.live other ho
    rw [h.place? hm, Option.map_eq_some_iff] at hp
    obtain ⟨q, hq, -⟩ := hp
    exact ⟨q, hq⟩
  · rw [hc.tenantAt?, h.tenantAt? hm]
    simp only [List.map_cons, List.map_nil, List.mem_singleton]
    split_ifs with hi
    · rfl
    · exact Option.map_id'
  · rw [hc.generationAt?, h.generationAt?]

end BufferPool.Arena
