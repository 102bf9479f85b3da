import Mathlib.Data.List.Nodup
import BufferPool.Arena.Update

/-!
# How a sound arena is wired

Three chains share the slots of an arena: one for each lane and one of the vacant slots. A wiring
names them by the slot indices they pass, in order. An arena follows a wiring if the links of every
member are its neighbours in that order, and if each chain passes exactly the slots that belong to
it. Local consistency of links is not enough for this: it would admit a cycle beside the chain.

A chain is described by its splittings, `before ++ index :: after`. A slot links back to the last
index of `before` and forth to the first of `after`, at the ends of the chain as well as inside it.
-/

namespace BufferPool.Arena

variable {α : Type}

/-- The link of a vacant slot. -/
def vacancyAt? (a : Arena α) (index : Nat) : Option (Option Nat) :=
  match a.slots[index]? with
  | some ⟨_, .vacant next⟩ => some next
  | _ => none

/-- The generation of a slot. -/
def generationAt? (a : Arena α) (index : Nat) : Option UInt64 :=
  a.slots[index]?.map (·.generation)

/-- The occupant of a slot as an entry of its lane. -/
def entryAt? (a : Arena α) (index : Nat) : Option (Key × α) :=
  match a.slots[index]? with
  | some ⟨generation, .occupied node⟩ => some (⟨index, generation⟩, node.value)
  | _ => none

theorem nodeAt?_eq_some_iff {a : Arena α} {i : Nat} {node : Node α} :
    a.nodeAt? i = some node ↔ ∃ g, a.slots[i]? = some ⟨g, .occupied node⟩ := by
  unfold nodeAt?
  split <;> simp_all

theorem vacancyAt?_eq_some_iff {a : Arena α} {i : Nat} {next : Option Nat} :
    a.vacancyAt? i = some next ↔ ∃ g, a.slots[i]? = some ⟨g, .vacant next⟩ := by
  unfold vacancyAt?
  split <;> simp_all

theorem node?_eq_some_iff {a : Arena α} {key : Key} {node : Node α} :
    a.node? key = some node ↔ a.slots[key.index]? = some ⟨key.generation, .occupied node⟩ := by
  unfold node?
  split <;> grind

theorem entryAt?_eq_some_iff {a : Arena α} {i : Nat} {entry : Key × α} :
    a.entryAt? i = some entry ↔
      entry.1.index = i ∧ ∃ node, a.node? entry.1 = some node ∧ node.value = entry.2 := by
  simp only [node?_eq_some_iff]
  unfold entryAt?
  obtain ⟨⟨index, generation⟩, value⟩ := entry
  split <;> grind

theorem nodeAt?_of_node? {a : Arena α} {key : Key} {node : Node α} (h : a.node? key = some node) :
    a.nodeAt? key.index = some node :=
  nodeAt?_eq_some_iff.2 ⟨key.generation, node?_eq_some_iff.1 h⟩

theorem lt_size_of_nodeAt? {a : Arena α} {i : Nat} {node : Node α} (h : a.nodeAt? i = some node) :
    i < a.slots.size := by
  obtain ⟨g, hg⟩ := nodeAt?_eq_some_iff.1 h
  exact (Array.getElem?_eq_some_iff.1 hg).choose

theorem lt_size_of_vacancyAt? {a : Arena α} {i : Nat} {next : Option Nat}
    (h : a.vacancyAt? i = some next) : i < a.slots.size := by
  obtain ⟨g, hg⟩ := vacancyAt?_eq_some_iff.1 h
  exact (Array.getElem?_eq_some_iff.1 hg).choose

/-- A slot is occupied or vacant, and not both. -/
theorem isSome_vacancyAt? {a : Arena α} {i : Nat} (h : i < a.slots.size) :
    (a.vacancyAt? i).isSome = !(a.nodeAt? i).isSome := by
  have hs : a.slots[i]? = some a.slots[i] := Array.getElem?_eq_getElem h
  unfold vacancyAt? nodeAt?
  rw [hs]
  rcases a.slots[i] with ⟨g, node | next⟩ <;> rfl

theorem isSome_entryAt? {a : Arena α} {i : Nat} :
    (a.entryAt? i).isSome = (a.nodeAt? i).isSome := by
  unfold entryAt? nodeAt?
  rcases a.slots[i]? with _ | ⟨generation, node | next⟩ <;> rfl

/-- The slot indices of the lanes from head to tail and of the vacant slots from the one vacated
last. -/
structure Wiring where
  lane : Lane → List Nat
  vacant : List Nat

/-- A lane is the chain through the given slots. -/
structure Threaded (a : Arena α) (lane : Lane) (chain : List Nat) : Prop where
  nodup : chain.Nodup
  head : (a.ends lane).head = chain.head?
  tail : (a.ends lane).tail = chain.getLast?
  count : (a.ends lane).count = chain.length
  mem_iff : ∀ i, i ∈ chain ↔ ∃ node, a.nodeAt? i = some node ∧ node.lane = some lane
  links : ∀ before i after, chain = before ++ i :: after → ∀ node, a.nodeAt? i = some node →
    node.prev = before.getLast? ∧ node.next = after.head?

/-- The vacant slots are the chain through the given slots. -/
structure Vacated (a : Arena α) (chain : List Nat) : Prop where
  nodup : chain.Nodup
  head : a.vacant = chain.head?
  mem_iff : ∀ i, i ∈ chain ↔ ∃ next, a.vacancyAt? i = some next
  links : ∀ before i after, chain = before ++ i :: after → ∀ next, a.vacancyAt? i = some next →
    next = after.head?

/-- The arena follows the wiring. -/
structure Wired (a : Arena α) (w : Wiring) : Prop where
  lanes : ∀ lane, a.Threaded lane (w.lane lane)
  vacated : a.Vacated w.vacant
  detached : ∀ i node, a.nodeAt? i = some node → node.lane = none →
    node.prev = none ∧ node.next = none
  registered : a.registered + w.vacant.length = a.slots.size

/-- All links of the arena are in order. -/
def Sound (a : Arena α) : Prop := ∃ w, a.Wired w

theorem Vacated.lt_size {a : Arena α} {chain : List Nat} (h : a.Vacated chain) {i : Nat}
    (hi : i ∈ chain) : i < a.slots.size := by
  obtain ⟨next, hv⟩ := (h.mem_iff i).1 hi
  exact lt_size_of_vacancyAt? hv

theorem follow_none (a : Arena α) (dir : Direction) (fuel : Nat) :
    a.follow dir fuel none = .ok [] := by
  cases fuel <;> rfl

theorem follow_some {a : Arena α} {key : Key} {node : Node α} (dir : Direction) (fuel : Nat)
    (h : a.node? key = some node) :
    a.follow dir (fuel + 1) (some key.index) =
      (a.follow dir fuel (match dir with | .forward => node.next | .backward => node.prev)).map
        ((key, node.value) :: ·) := by
  rw [node?_eq_some_iff] at h
  simp only [follow, h]
  cases dir <;> cases a.follow _ fuel _ <;> rfl

namespace Threaded

variable {a : Arena α} {lane : Lane} {chain : List Nat}

theorem node (h : a.Threaded lane chain) {i : Nat} (hi : i ∈ chain) :
    ∃ key node, key.index = i ∧ a.node? key = some node ∧ node.lane = some lane := by
  obtain ⟨node, hn, hl⟩ := (h.mem_iff i).1 hi
  obtain ⟨g, hg⟩ := nodeAt?_eq_some_iff.1 hn
  exact ⟨⟨i, g⟩, node, rfl, node?_eq_some_iff.2 hg, hl⟩

theorem lane_eq (h : a.Threaded lane chain) {i : Nat} {node : Node α} (hi : i ∈ chain)
    (hn : a.nodeAt? i = some node) : node.lane = some lane := by
  obtain ⟨m, hm, hl⟩ := (h.mem_iff i).1 hi
  obtain rfl : m = node := Option.some.inj (hm.symm.trans hn)
  exact hl

theorem not_mem (h : a.Threaded lane chain) {i : Nat} {node : Node α}
    (hn : a.nodeAt? i = some node) (hl : node.lane ≠ some lane) : i ∉ chain :=
  fun hi => hl (h.lane_eq hi hn)

theorem lt_size (h : a.Threaded lane chain) {i : Nat} (hi : i ∈ chain) : i < a.slots.size := by
  obtain ⟨node, hn, _⟩ := (h.mem_iff i).1 hi
  exact lt_size_of_nodeAt? hn

theorem length_le (h : a.Threaded lane chain) : chain.length ≤ a.slots.size := by
  have hsub : chain ⊆ List.range a.slots.size := fun i hi => List.mem_range.2 (h.lt_size hi)
  simpa using List.Nodup.length_le_of_subset h.nodup hsub

/-- From any member on, the links lead to the tail. -/
theorem follow_forward (h : a.Threaded lane chain) {after : List Nat} :
    ∀ {before : List Nat}, chain = before ++ after → ∀ {fuel : Nat}, after.length ≤ fuel →
      a.follow .forward fuel after.head? = .ok (after.filterMap a.entryAt?) := by
  induction after with
  | nil => intro _ _ fuel _; exact follow_none a .forward fuel
  | cons i after ih =>
      intro before hc fuel hf
      obtain ⟨fuel, rfl⟩ : ∃ n, fuel = n + 1 := ⟨fuel - 1, by simp at hf; omega⟩
      obtain ⟨key, node, rfl, hn, -⟩ := h.node (i := i) (by simp [hc])
      have hlink := (h.links before _ after hc node (nodeAt?_of_node? hn)).2
      have hentry : a.entryAt? key.index = some (key, node.value) :=
        entryAt?_eq_some_iff.2 ⟨rfl, node, hn, rfl⟩
      rw [List.head?_cons, follow_some .forward fuel hn]
      simp only [hlink, List.filterMap_cons, hentry]
      have hstep : chain = (before ++ [key.index]) ++ after := by simp [hc]
      rw [ih hstep (by simpa using hf)]
      rfl

/-- From any member on, the links lead back to the head. -/
theorem follow_backward (h : a.Threaded lane chain) {before : List Nat} :
    ∀ {after : List Nat}, chain = before.reverse ++ after → ∀ {fuel : Nat}, before.length ≤ fuel →
      a.follow .backward fuel before.head? = .ok (before.filterMap a.entryAt?) := by
  induction before with
  | nil => intro _ _ fuel _; exact follow_none a .backward fuel
  | cons i before ih =>
      intro after hc fuel hf
      obtain ⟨fuel, rfl⟩ : ∃ n, fuel = n + 1 := ⟨fuel - 1, by simp at hf; omega⟩
      have hc' : chain = before.reverse ++ i :: after := by simpa using hc
      obtain ⟨key, node, rfl, hn, -⟩ := h.node (i := i) (by simp [hc'])
      have hlink := (h.links before.reverse _ after hc' node (nodeAt?_of_node? hn)).1
      have hentry : a.entryAt? key.index = some (key, node.value) :=
        entryAt?_eq_some_iff.2 ⟨rfl, node, hn, rfl⟩
      rw [List.head?_cons, follow_some .backward fuel hn]
      simp only [hlink, List.getLast?_reverse, List.filterMap_cons, hentry]
      rw [ih hc' (by simpa using hf)]
      rfl

/-- A lane shows its chain from head to tail. -/
theorem entries_forward (h : a.Threaded lane chain) :
    a.entries lane .forward = .ok (chain.filterMap a.entryAt?) := by
  simp only [entries, h.head]
  have hc : chain = [] ++ chain := rfl
  exact h.follow_forward hc h.length_le

theorem entries_backward (h : a.Threaded lane chain) :
    a.entries lane .backward = .ok (chain.filterMap a.entryAt?).reverse := by
  have hc : chain = chain.reverse.reverse ++ [] := by simp
  have hlength : chain.reverse.length ≤ a.slots.size := by simpa using h.length_le
  have hf := h.follow_backward hc hlength
  rw [List.head?_reverse] at hf
  simp only [entries, h.tail, hf, ← List.filterMap_reverse]

/-- Every slot of the chain has an entry. -/
theorem length_entries (h : a.Threaded lane chain) :
    (chain.filterMap a.entryAt?).length = chain.length := by
  rw [List.filterMap_length_eq_length]
  intro i hi
  obtain ⟨node, hn, -⟩ := (h.mem_iff i).1 hi
  rw [isSome_entryAt?, hn, Option.isSome_some]

/-- The keys of a lane lead to the slots of the chain. -/
theorem index_entries (h : a.Threaded lane chain) :
    ((chain.filterMap a.entryAt?).map (·.1)).map (·.index) = chain := by
  rw [List.map_filterMap, List.map_filterMap]
  refine (List.filterMap_congr fun i hi => ?_).trans List.filterMap_some
  obtain ⟨key, node, rfl, hn, -⟩ := h.node hi
  have hentry : a.entryAt? key.index = some (key, node.value) :=
    entryAt?_eq_some_iff.2 ⟨rfl, node, hn, rfl⟩
  rw [hentry]
  rfl

theorem head?_eq (h : a.Threaded lane chain) :
    a.head? lane = .ok ((chain.filterMap a.entryAt?).head?.map (·.1)) := by
  unfold head?
  rw [h.head]
  cases chain with
  | nil => rfl
  | cons i rest =>
      obtain ⟨key, node, rfl, hn, -⟩ := h.node (i := i) List.mem_cons_self
      have hs := node?_eq_some_iff.1 hn
      have hentry : a.entryAt? key.index = some (key, node.value) :=
        entryAt?_eq_some_iff.2 ⟨rfl, node, hn, rfl⟩
      simp only [List.head?_cons, keyAt?, hs, Option.map_some, List.filterMap_cons, hentry]

/-- A lane stays as it is if its ends and its nodes do. -/
theorem frame {a' : Arena α} (h : a.Threaded lane chain) (hends : a'.ends lane = a.ends lane)
    (hnodes : ∀ i node, node.lane = some lane →
      (a'.nodeAt? i = some node ↔ a.nodeAt? i = some node)) :
    a'.Threaded lane chain := by
  have hmem : ∀ i, i ∈ chain ↔ ∃ node, a'.nodeAt? i = some node ∧ node.lane = some lane := by
    intro i
    rw [h.mem_iff]
    exact exists_congr fun node => and_congr_left fun hl => (hnodes i node hl).symm
  refine ⟨h.nodup, by rw [hends]; exact h.head, by rw [hends]; exact h.tail,
    by rw [hends]; exact h.count, hmem, ?_⟩
  intro before i after hc node hn
  obtain ⟨m, hm, hl⟩ := (hmem i).1 (by simp [hc])
  obtain rfl : m = node := Option.some.inj (hm.symm.trans hn)
  exact h.links before i after hc m ((hnodes i m hl).1 hm)

end Threaded

end BufferPool.Arena
