import Mathlib.Data.List.Perm.Basic
import BufferPool.Proofs.Arena.Relink

/-!
# Taking slots and vacating them

Registration and its reverse change one slot and the chain of vacant slots. A new value takes the
slot that was vacated last and keeps its generation; a slot that is vacated moves on to the next
generation. `unregisterAll`, `reclaim` and `drain` repeat this, and none of them meets a broken link.
-/

namespace BufferPool.Arena

variable {α : Type}

theorem node?_congr {a a' : Arena α} {key : Key} (h : a'.slots[key.index]? = a.slots[key.index]?) :
    a'.node? key = a.node? key := by
  unfold node?
  rw [h]

/-- Every occupied slot leaves room for one that is not on the chain of vacant slots. -/
theorem Wired.length_vacant_lt {a : Arena α} {w : Wiring} (h : a.Wired w) {i : Nat} {node : Node α}
    (hn : a.nodeAt? i = some node) : w.vacant.length < a.slots.size := by
  have hi : i ∉ w.vacant := by
    intro hi
    obtain ⟨next, hv⟩ := (h.vacated.mem_iff i).1 hi
    have := isSome_vacancyAt? (lt_size_of_nodeAt? hn)
    simp [hv, hn] at this
  have hsub : i :: w.vacant ⊆ List.range a.slots.size := by
    intro j hj
    rw [List.mem_range]
    rcases List.mem_cons.1 hj with rfl | hj
    · exact lt_size_of_nodeAt? hn
    · exact h.vacated.lt_size hj
  have hle := List.Nodup.length_le_of_subset (List.nodup_cons.2 ⟨hi, h.vacated.nodup⟩) hsub
  rw [List.length_range, List.length_cons] at hle
  omega

theorem empty_wired : (empty : Arena α).Wired ⟨fun _ => [], []⟩ := by
  have hnone : ∀ i, (empty : Arena α).nodeAt? i = none := fun i => by simp [nodeAt?, empty]
  have hvac : ∀ i, (empty : Arena α).vacancyAt? i = none := fun i => by simp [vacancyAt?, empty]
  refine ⟨fun lane => ⟨List.nodup_nil, ?_, ?_, ?_, ?_, ?_⟩, ⟨List.nodup_nil, rfl, ?_, ?_⟩, ?_, rfl⟩
  · cases lane <;> rfl
  · cases lane <;> rfl
  · cases lane <;> rfl
  · simp [hnone]
  · simp
  · simp [hvac]
  · simp
  · simp [hnone]

/-- What registration does: the value takes the slot under the new key, detached. -/
structure Registered (a : Arena α) (value : α) (key : Key) (a' : Arena α) : Prop where
  vacant : a.nodeAt? key.index = none
  generation : key.generation = (a.generationAt? key.index).getD 0
  slots : ∀ i, a'.slots[i]? =
    if i = key.index then some ⟨key.generation, .occupied ⟨value, none, none, none⟩⟩
    else a.slots[i]?
  ends : ∀ lane, a'.ends lane = a.ends lane
  registered : a'.registered = a.registered + 1

theorem Registered.nodeAt? {a a' : Arena α} {value : α} {key : Key} (h : a.Registered value key a')
    (i : Nat) :
    a'.nodeAt? i = if i = key.index then some ⟨value, none, none, none⟩ else a.nodeAt? i := by
  unfold Arena.nodeAt?
  rw [h.slots]
  split_ifs <;> rfl

theorem Registered.threaded {a a' : Arena α} {value : α} {key : Key} {lane : Lane}
    {chain : List Nat} (h : a.Registered value key a') (ht : a.Threaded lane chain) :
    a'.Threaded lane chain := by
  refine ht.frame (h.ends lane) ?_
  intro i node hl
  rw [h.nodeAt?]
  by_cases hi : i = key.index
  · subst hi
    rw [if_pos rfl, h.vacant]
    refine iff_of_false ?_ nofun
    intro hn
    rw [← Option.some.inj hn] at hl
    exact nomatch hl
  · rw [if_neg hi]

theorem Registered.detached {a a' : Arena α} {value : α} {key : Key} {w : Wiring}
    (h : a.Registered value key a') (hw : a.Wired w) (i : Nat) (node : Node α)
    (hn : a'.nodeAt? i = some node) (hl : node.lane = none) : node.prev = none ∧ node.next = none := by
  rw [h.nodeAt?] at hn
  by_cases hi : i = key.index
  · rw [if_pos hi, Option.some.injEq] at hn
    subst hn
    exact ⟨rfl, rfl⟩
  · rw [if_neg hi] at hn
    exact hw.detached i node hn hl

theorem Registered.vacancyAt? {a a' : Arena α} {value : α} {key : Key}
    (h : a.Registered value key a') (i : Nat) :
    a'.vacancyAt? i = if i = key.index then none else a.vacancyAt? i := by
  unfold Arena.vacancyAt?
  rw [h.slots]
  split_ifs <;> rfl

/-- The slot leaves the chain of vacant slots, unless it is new and the chain is empty. -/
theorem Registered.vacated {a a' : Arena α} {value : α} {key : Key} {chain : List Nat}
    (h : a.Registered value key a') (hv : a.Vacated chain) (hhead : a'.vacant = chain.tail.head?)
    (hchain : ∀ i, chain.head? = some i → i = key.index) : a'.Vacated chain.tail := by
  cases chain with
  | nil =>
      refine ⟨List.nodup_nil, hhead, fun i => ?_, by simp⟩
      rw [h.vacancyAt?, List.tail_nil, hv.mem_iff]
      refine ⟨fun ⟨next, hn⟩ => absurd ((hv.mem_iff i).2 ⟨next, hn⟩) List.not_mem_nil, ?_⟩
      rintro ⟨next, hn⟩
      split_ifs at hn
      exact ⟨next, hn⟩
  | cons index rest =>
      obtain rfl := hchain index rfl
      obtain ⟨hnot, hnd⟩ := List.nodup_cons.1 hv.nodup
      refine ⟨hnd, hhead, fun i => ?_, ?_⟩
      · rw [h.vacancyAt?, List.tail_cons]
        by_cases hi : i = key.index
        · subst hi
          simp [hnot]
        · rw [if_neg hi, ← hv.mem_iff]
          simp [hi]
      · intro before i after hc next hn
        obtain rfl : rest = before ++ i :: after := hc
        have hi : i ≠ key.index := fun hi => hnot (by simp [hi])
        rw [h.vacancyAt?, if_neg hi] at hn
        exact hv.links (key.index :: before) i after rfl next hn

/-- The slot that a new value takes is there, or it is the next one. -/
theorem Vacated.head_le {a : Arena α} {chain : List Nat} (h : a.Vacated chain) :
    chain.head?.getD a.slots.size ≤ a.slots.size := by
  cases chain with
  | nil => exact Nat.le_refl _
  | cons i rest => exact Nat.le_of_lt (h.lt_size List.mem_cons_self)

/-- A value can always be registered. It takes the head of the chain of vacant slots, or a new slot
if there is none. -/
theorem register_wired {a : Arena α} {w : Wiring} (h : a.Wired w) (value : α) :
    ∃ key a', a.register value = .ok (key, a') ∧ a.Registered value key a' ∧
      key.index = w.vacant.head?.getD a.slots.size ∧
      a'.slots.size = max a.slots.size (key.index + 1) ∧
      a'.Wired { w with vacant := w.vacant.tail } := by
  have hcount := h.registered
  cases hv : w.vacant with
  | nil =>
      have hnone : a.vacant = none := by rw [h.vacated.head, hv]; rfl
      let a' : Arena α := { a with
        slots := a.slots.push ⟨0, .occupied ⟨value, none, none, none⟩⟩
        vacant := none
        registered := a.registered + 1 }
      have hr : a.Registered value ⟨a.slots.size, 0⟩ a' := by
        refine ⟨by simp [nodeAt?], by simp [generationAt?], fun i => ?_, fun lane => ?_, rfl⟩
        · simp only [a', Array.getElem?_push]
        · cases lane <;> rfl
      refine ⟨_, a', by simp only [register, hnone]; rfl, hr, rfl, by simp [a'],
        fun lane => hr.threaded (h.lanes lane), ?_, hr.detached h, ?_⟩
      · exact hr.vacated (hv ▸ h.vacated) rfl (by simp)
      · simp [a', hv] at hcount ⊢
        omega
  | cons index rest =>
      have hsome : a.vacant = some index := by rw [h.vacated.head, hv]; rfl
      obtain ⟨next, hi⟩ := (h.vacated.mem_iff index).1 (by simp [hv])
      obtain ⟨g, hs⟩ := vacancyAt?_eq_some_iff.1 hi
      have hnext : next = rest.head? := h.vacated.links [] index rest (by simp [hv]) next hi
      have hlt := lt_size_of_vacancyAt? hi
      let a' : Arena α := { a.setSlot index ⟨g, .occupied ⟨value, none, none, none⟩⟩ with
        vacant := next, registered := a.registered + 1 }
      have hr : a.Registered value ⟨index, g⟩ a' := by
        refine ⟨by simp [nodeAt?, hs], by simp [generationAt?, hs], fun i => ?_, fun lane => ?_, rfl⟩
        · simp only [a', setSlot, Array.getElem?_setIfInBounds]
          by_cases hi : i = index
          · simp [hi, hlt]
          · rw [if_neg (Ne.symm hi), if_neg hi]
        · cases lane <;> rfl
      refine ⟨_, a', by simp only [register, hsome, hs]; rfl, hr, rfl, ?_,
        fun lane => hr.threaded (h.lanes lane), ?_, hr.detached h, ?_⟩
      · simp [a', setSlot]
        omega
      · have hvacated : a.Vacated (index :: rest) := hv ▸ h.vacated
        exact hr.vacated hvacated hnext (by simp)
      · simp [a', hv, setSlot] at hcount ⊢
        omega

/-- What the reverse of registration does: the slot becomes vacant and its generation moves on. -/
structure Unregistered (a : Arena α) (key : Key) (a' : Arena α) : Prop where
  slots : ∀ i, a'.slots[i]? =
    if i = key.index then some ⟨key.generation + 1, .vacant a.vacant⟩ else a.slots[i]?
  size : a'.slots.size = a.slots.size
  ends : ∀ lane, a'.ends lane = a.ends lane
  registered : a'.registered + 1 = a.registered

theorem Unregistered.nodeAt? {a a' : Arena α} {key : Key} (h : a.Unregistered key a') (i : Nat) :
    a'.nodeAt? i = if i = key.index then none else a.nodeAt? i := by
  unfold Arena.nodeAt?
  rw [h.slots]
  split_ifs <;> rfl

theorem Unregistered.vacancyAt? {a a' : Arena α} {key : Key} (h : a.Unregistered key a') (i : Nat) :
    a'.vacancyAt? i = if i = key.index then some a.vacant else a.vacancyAt? i := by
  unfold Arena.vacancyAt?
  rw [h.slots]
  split_ifs <;> rfl

/-- Every detached value can be unregistered. Its slot becomes the head of the chain of vacant
slots. -/
theorem unregister_wired {a : Arena α} {w : Wiring} {key : Key} {node : Node α} (h : a.Wired w)
    (hn : a.node? key = some node) (hl : node.lane = none) :
    ∃ a', a.unregister key = .ok (node.value, a') ∧ a.Unregistered key a' ∧
      a'.Wired { w with vacant := key.index :: w.vacant } := by
  have hk := nodeAt?_of_node? hn
  have hslot := node?_eq_some_iff.1 hn
  have hlt := h.length_vacant_lt hk
  have hcount := h.registered
  let a' : Arena α := { a.setSlot key.index ⟨key.generation + 1, .vacant a.vacant⟩ with
    vacant := some key.index, registered := a.registered - 1 }
  have hu : a.Unregistered key a' := by
    refine ⟨fun i => ?_, by simp [a', setSlot], fun lane => ?_, ?_⟩
    · simp only [a', setSlot, Array.getElem?_setIfInBounds]
      by_cases hi : i = key.index
      · simp [hi, lt_size_of_nodeAt? hk]
      · rw [if_neg (Ne.symm hi), if_neg hi]
    · cases lane <;> rfl
    · simp only [a']
      omega
  refine ⟨a', by simp only [unregister, hn, hl, hslot]; rfl, hu, fun lane => ?_, ⟨?_, rfl, ?_, ?_⟩, ?_, ?_⟩
  · refine (h.lanes lane).frame (hu.ends lane) ?_
    intro i n hnl
    rw [hu.nodeAt?]
    by_cases hi : i = key.index
    · subst hi
      rw [if_pos rfl, hk]
      refine iff_of_false (Option.some_ne_none _).symm ?_
      intro he
      rw [← Option.some.inj he, hl] at hnl
      cases hnl
    · rw [if_neg hi]
  · refine List.nodup_cons.2 ⟨fun hmem => ?_, h.vacated.nodup⟩
    obtain ⟨next, hv⟩ := (h.vacated.mem_iff _).1 hmem
    simpa [hv, hk] using isSome_vacancyAt? (lt_size_of_nodeAt? hk)
  · intro i
    rw [hu.vacancyAt?, List.mem_cons, h.vacated.mem_iff]
    by_cases hi : i = key.index <;> simp [hi]
  · intro before i after hc next hnext
    rw [hu.vacancyAt?] at hnext
    cases before with
    | nil =>
        obtain ⟨rfl, rfl⟩ := List.cons.inj hc
        rw [if_pos rfl, Option.some.injEq] at hnext
        rw [← hnext, h.vacated.head]
    | cons b before =>
        obtain ⟨rfl, hrest⟩ := List.cons.inj hc
        by_cases hi : i = key.index
        · subst hi
          obtain ⟨next, hv⟩ := (h.vacated.mem_iff key.index).1 (by rw [hrest]; simp)
          simpa [hv, hk] using isSome_vacancyAt? (lt_size_of_nodeAt? hk)
        · rw [if_neg hi] at hnext
          exact h.vacated.links before i after hrest next hnext
  · intro i n hin hnl
    rw [hu.nodeAt?] at hin
    split_ifs at hin
    exact h.detached i n hin hnl
  · rw [hu.size]
    simp only [List.length_cons]
    have := hu.registered
    omega

end BufferPool.Arena
