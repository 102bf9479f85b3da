import BufferPool.Proofs.Arena.Clearing

/-!
# Runs of an arena

A run starts from the empty arena and carries out operations one after the other, with any keys:
live ones, stale ones and keys that were never issued. A refused operation is part of the run and
leaves the arena as it is.

What one operation does to a sound arena is settled by what its key names there. Every operation
leaves a sound arena sound and moves the counters by exactly the number of values it moved. By
induction the whole run stays sound: the only faults are misuse by the caller, and no counter is
ever taken below zero or beyond the number of slots.
-/

namespace BufferPool.Arena

variable {α : Type}

inductive Op (α : Type) where
  | register (value : α)
  | unregister (key : Key)
  | prepend (lane : Lane) (key : Key)
  | remove (lane : Lane) (key : Key)
  /-- Takes out the detached values that satisfy `abandoned`. -/
  | reclaim (abandoned : α → Bool)
  | drain

inductive Answer (α : Type) where
  | key (key : Key)
  | value (value : α)
  | values (values : List α)
  | done
  | fault (fault : Fault)

namespace Op

def outcome (a : Arena α) : Op α → Except Fault (Answer α × Arena α)
  | .register value => (a.register value).map fun (key, a) => (.key key, a)
  | .unregister key => (a.unregister key).map fun (value, a) => (.value value, a)
  | .prepend lane key => (a.prepend lane key).map fun a => (.done, a)
  | .remove lane key => (a.remove lane key).map fun a => (.done, a)
  | .reclaim abandoned => (a.reclaim abandoned).map fun (values, a) => (.values values, a)
  | .drain => a.drain.map fun (values, a) => (.values values, a)

/-- A refused operation leaves the arena as it is. -/
def perform (a : Arena α) (op : Op α) : Answer α × Arena α :=
  match op.outcome a with
  | .ok result => result
  | .error fault => (.fault fault, a)

end Op

/-- The answers of the operations, and the arena they leave. -/
def runFrom (a : Arena α) : List (Op α) → List (Answer α) × Arena α
  | [] => ([], a)
  | op :: ops =>
    let (answer, a) := op.perform a
    let (answers, a) := a.runFrom ops
    (answer :: answers, a)

/-- The arena after a run. -/
def after (ops : List (Op α)) : Arena α := (runFrom empty ops).2

theorem perform_register {a a' : Arena α} {value : α} {key : Key}
    (h : a.register value = .ok (key, a')) : (Op.register value).perform a = (.key key, a') := by
  simp only [Op.perform, Op.outcome, h, Except.map]

theorem node?_eq_none_of_place? {a : Arena α} {key : Key} (h : a.place? key = none) :
    a.node? key = none :=
  Option.map_eq_none_iff.1 h

theorem unregister_cases {a : Arena α} {w : Wiring} (h : a.Wired w) (key : Key) :
    (a.place? key = none ∧ a.unregister key = .error (.stale key)) ∨
    (∃ value lane, a.place? key = some (value, some lane) ∧
      a.unregister key = .error (.stillListed lane)) ∨
    (∃ value a', a.place? key = some (value, none) ∧ a.unregister key = .ok (value, a') ∧
      a.Unregistered key a' ∧ a.Cleared [key] a' ∧
      a'.Wired { w with vacant := key.index :: w.vacant }) := by
  cases hp : a.place? key with
  | none =>
      refine .inl ⟨rfl, ?_⟩
      simp only [unregister, node?_eq_none_of_place? hp]
  | some p =>
      obtain ⟨value, lane⟩ := p
      obtain ⟨node, hn, rfl, hl⟩ := place?_eq_some_iff.1 hp
      cases lane with
      | some lane =>
          refine .inr (.inl ⟨node.value, lane, rfl, ?_⟩)
          simp only [unregister, hn, hl]
      | none =>
          obtain ⟨a', ha', hu, hw⟩ := unregister_wired h hn hl
          exact .inr (.inr ⟨node.value, a', rfl, ha', hu, hu.cleared hn, hw⟩)

theorem prepend_cases {a : Arena α} {w : Wiring} (h : a.Wired w) (lane : Lane) (key : Key) :
    (a.place? key = none ∧ a.prepend lane key = .error (.stale key)) ∨
    (∃ value actual, a.place? key = some (value, some actual) ∧
      a.prepend lane key = .error (.alreadyListed actual)) ∨
    (∃ value a' f, a.place? key = some (value, none) ∧ a.prepend lane key = .ok a' ∧
      Relinked f a a' ∧ Moves f key.index (some lane) ∧
      a'.Wired { w with lane := Function.update w.lane lane (key.index :: w.lane lane) }) := by
  cases hp : a.place? key with
  | none =>
      refine .inl ⟨rfl, ?_⟩
      simp only [prepend, node?_eq_none_of_place? hp]
  | some p =>
      obtain ⟨value, actual⟩ := p
      obtain ⟨node, hn, rfl, hl⟩ := place?_eq_some_iff.1 hp
      cases actual with
      | some actual =>
          refine .inr (.inl ⟨node.value, actual, rfl, ?_⟩)
          simp only [prepend, hn, hl]
      | none =>
          obtain ⟨a', f, ha', hr, hm, hw⟩ := prepend_wired h hn hl
          exact .inr (.inr ⟨node.value, a', f, rfl, ha', hr, hm, hw⟩)

theorem remove_cases {a : Arena α} {w : Wiring} (h : a.Wired w) (lane : Lane) (key : Key) :
    (a.place? key = none ∧ a.remove lane key = .error (.stale key)) ∨
    (∃ value actual, a.place? key = some (value, actual) ∧ actual ≠ some lane ∧
      a.remove lane key = .error (.notListed lane actual)) ∨
    (∃ value a' f, a.place? key = some (value, some lane) ∧ a.remove lane key = .ok a' ∧
      Relinked f a a' ∧ Moves f key.index none ∧
      a'.Wired { w with lane := Function.update w.lane lane ((w.lane lane).erase key.index) }) := by
  cases hp : a.place? key with
  | none =>
      refine .inl ⟨rfl, ?_⟩
      simp only [remove, node?_eq_none_of_place? hp]
  | some p =>
      obtain ⟨value, actual⟩ := p
      obtain ⟨node, hn, rfl, rfl⟩ := place?_eq_some_iff.1 hp
      by_cases hl : node.lane = some lane
      · obtain ⟨a', f, ha', hr, hm, hw⟩ := remove_wired h hn hl
        exact .inr (.inr ⟨node.value, a', f, by rw [hl], ha', hr, hm, hw⟩)
      · refine .inr (.inl ⟨node.value, node.lane, rfl, hl, ?_⟩)
        simp only [remove, hn, if_neg hl]

/-- Whether the caller is to blame: the key is stale or its value is not where it should be. -/
def Fault.misuse : Fault → Bool
  | .stale _ | .stillListed _ | .alreadyListed _ | .notListed _ _ => true
  | _ => false

/-- A lane is taken out in as many steps as it has values, each of them counted once. -/
structure Emptied (a : Arena α) (lane : Lane) (values : List α) (a' : Arena α) : Prop where
  drainLane : a.drainLane lane a.slots.size = .ok (values, a')
  length : values.length = a.count lane
  count : a'.count lane = 0
  registered : a'.registered + values.length = a.registered

/-- The counters move by the number of values that an operation moved. Only a fault of misuse may be
answered. -/
def Balanced (a a' : Arena α) : Op α → Answer α → Prop
  | .register _, .key _ =>
    a'.registered = a.registered + 1 ∧ ∀ lane, a'.count lane = a.count lane
  | .unregister _, .value _ =>
    a'.registered + 1 = a.registered ∧ ∀ lane, a'.count lane = a.count lane
  | .prepend lane _, .done =>
    a'.registered = a.registered ∧ a'.count lane = a.count lane + 1 ∧
      a'.count lane.other = a.count lane.other
  | .remove lane _, .done =>
    a'.registered = a.registered ∧ a'.count lane + 1 = a.count lane ∧
      a'.count lane.other = a.count lane.other
  | .reclaim _, .values values =>
    a'.registered + values.length = a.registered ∧ ∀ lane, a'.count lane = a.count lane
  | .drain, .values values =>
    values.length = a.registered ∧ a' = empty ∧
      ∃ full a₁ free a₂, a.Emptied .full full a₁ ∧ a₁.Emptied .free free a₂
  | _, .fault fault => fault.misuse = true ∧ a' = a
  | _, _ => False

theorem other_ne (lane : Lane) : lane.other ≠ lane := by
  cases lane <;> decide

theorem Wired.count_eq {a : Arena α} {w : Wiring} (h : a.Wired w) (lane : Lane) :
    a.count lane = (w.lane lane).length :=
  (h.lanes lane).count

theorem length_filterMap_get? {a : Arena α} {keys : List Key}
    (h : ∀ key ∈ keys, ∃ p, a.place? key = some p) : (keys.filterMap a.get?).length = keys.length := by
  rw [List.filterMap_length_eq_length]
  intro key hk
  obtain ⟨p, hp⟩ := h key hk
  rw [get?_eq_place?, hp]
  rfl

/-- For each value that has been taken out there is one more vacant slot. -/
theorem Wired.registered_add_length {a a' : Arena α} {w w' : Wiring} {indices : List Nat}
    (h : a.Wired w) (h' : a'.Wired w') (hsize : a'.slots.size = a.slots.size)
    (hvacant : w'.vacant = indices.reverse ++ w.vacant) :
    a'.registered + indices.length = a.registered := by
  have hr := h.registered
  have hr' := h'.registered
  rw [hsize, hvacant, List.length_append, List.length_reverse] at hr'
  omega

theorem drainLane_emptied {a : Arena α} {w : Wiring} (h : a.Wired w) (lane : Lane) :
    ∃ values a' w', a.Emptied lane values a' ∧ a'.Wired w' := by
  obtain ⟨a', ha', hc, hw⟩ := drainLane_wired h rfl (h.lanes lane).length_le
  refine ⟨_, a', _, ⟨ha', ?_, ?_, ?_⟩, hw⟩
  · rw [List.length_map, (h.lanes lane).length_entries, h.count_eq]
  · rw [hw.count_eq]
    simp only [Function.update_self, List.length_nil]
  · rw [List.length_map, (h.lanes lane).length_entries]
    exact h.registered_add_length hw hc.size rfl

/-- The index of a value that is to be removed stands in the chain of its lane once. -/
theorem Wired.length_erase_add_one {a : Arena α} {w : Wiring} (h : a.Wired w) {key : Key} {value : α}
    {lane : Lane} (hp : a.place? key = some (value, some lane)) :
    ((w.lane lane).erase key.index).length + 1 = (w.lane lane).length := by
  obtain ⟨node, hn, -, hl⟩ := place?_eq_some_iff.1 hp
  have hmem : key.index ∈ w.lane lane :=
    ((h.lanes lane).mem_iff _).2 ⟨node, nodeAt?_of_node? hn, hl⟩
  exact List.length_erase_add_one hmem

theorem reclaim_balanced {a : Arena α} {w : Wiring} (h : a.Wired w) (abandoned : α → Bool) :
    ((Op.reclaim abandoned).perform a).2.Sound ∧
      a.Balanced ((Op.reclaim abandoned).perform a).2 (.reclaim abandoned)
        ((Op.reclaim abandoned).perform a).1 := by
  obtain ⟨a', ha', hc, hw⟩ := reclaim_wired h abandoned
  simp only [Op.perform, Op.outcome, ha', Except.map]
  refine ⟨⟨_, hw⟩, ?_, fun lane => ?_⟩
  · rw [length_filterMap_get? hc.live, ← List.length_map (·.index)]
    exact h.registered_add_length hw hc.size rfl
  · rw [hw.count_eq, h.count_eq]

/-- A drain is one pass over each lane, and then the arena is a new one. -/
theorem drain_balanced {a : Arena α} {w : Wiring} (h : a.Wired w) :
    (Op.drain.perform a).2.Sound ∧
      a.Balanced (Op.drain.perform a).2 .drain (Op.drain.perform a).1 := by
  obtain ⟨full, a₁, w₁, hfull, hw₁⟩ := drainLane_emptied h .full
  obtain ⟨free, a₂, w₂, hfree, -⟩ := drainLane_emptied hw₁ .free
  simp only [Op.perform, Op.outcome, drain_wired h, Except.map]
  refine ⟨⟨_, empty_wired⟩, ?_, rfl, full, a₁, free, a₂, hfull, hfree⟩
  simp only [List.length_append, List.length_map, (h.lanes _).length_entries]
  rw [h.registered_eq, ← h.count_eq, ← h.count_eq]
  simp only [count, ends]
  omega

/-- Every operation keeps a sound arena sound and its counters exact. -/
theorem perform_balanced {a : Arena α} {w : Wiring} (h : a.Wired w) (op : Op α) :
    (op.perform a).2.Sound ∧ a.Balanced (op.perform a).2 op (op.perform a).1 := by
  cases op with
  | register value =>
      obtain ⟨key, a', ha', hr, -, -, hw⟩ := register_wired h value
      rw [perform_register ha']
      refine ⟨⟨_, hw⟩, hr.registered, fun lane => ?_⟩
      rw [count, hr.ends]
      rfl
  | unregister key =>
      rcases unregister_cases h key with ⟨-, he⟩ | ⟨value, lane, -, he⟩ |
        ⟨value, a', -, he, hu, -, hw⟩
      · simp only [Op.perform, Op.outcome, he, Except.map]
        exact ⟨⟨w, h⟩, rfl, rfl⟩
      · simp only [Op.perform, Op.outcome, he, Except.map]
        exact ⟨⟨w, h⟩, rfl, rfl⟩
      · simp only [Op.perform, Op.outcome, he, Except.map]
        refine ⟨⟨_, hw⟩, hu.registered, fun lane => ?_⟩
        rw [count, hu.ends]
        rfl
  | prepend lane key =>
      rcases prepend_cases h lane key with ⟨-, he⟩ | ⟨value, actual, -, he⟩ |
        ⟨value, a', f, -, he, hr, -, hw⟩
      · simp only [Op.perform, Op.outcome, he, Except.map]
        exact ⟨⟨w, h⟩, rfl, rfl⟩
      · simp only [Op.perform, Op.outcome, he, Except.map]
        exact ⟨⟨w, h⟩, rfl, rfl⟩
      · simp only [Op.perform, Op.outcome, he, Except.map]
        refine ⟨⟨_, hw⟩, hr.registered, ?_, ?_⟩
        · rw [hw.count_eq, h.count_eq]
          simp only [Function.update_self, List.length_cons]
        · rw [hw.count_eq, h.count_eq]
          simp only [Function.update_of_ne (other_ne lane)]
  | remove lane key =>
      rcases remove_cases h lane key with ⟨-, he⟩ | ⟨value, actual, -, -, he⟩ |
        ⟨value, a', f, hp, he, hr, -, hw⟩
      · simp only [Op.perform, Op.outcome, he, Except.map]
        exact ⟨⟨w, h⟩, rfl, rfl⟩
      · simp only [Op.perform, Op.outcome, he, Except.map]
        exact ⟨⟨w, h⟩, rfl, rfl⟩
      · simp only [Op.perform, Op.outcome, he, Except.map]
        refine ⟨⟨_, hw⟩, hr.registered, ?_, ?_⟩
        · rw [hw.count_eq, h.count_eq]
          simp only [Function.update_self]
          exact h.length_erase_add_one hp
        · rw [hw.count_eq, h.count_eq]
          simp only [Function.update_of_ne (other_ne lane)]
  | reclaim abandoned => exact reclaim_balanced h abandoned
  | drain => exact drain_balanced h

/-- A new value is detached. -/
theorem detached_of_register {a a' : Arena α} {w : Wiring} {value : α} {key : Key} (h : a.Wired w)
    (hr : a.register value = .ok (key, a')) : a'.detached = a.detached + 1 := by
  have hb := (perform_balanced h (.register value)).2
  rw [perform_register hr] at hb
  have hreg : a'.registered = a.registered + 1 := hb.1
  have hfree : a'.free.count = a.free.count := hb.2 .free
  have hfull : a'.full.count = a.full.count := hb.2 .full
  have hsum := h.registered_eq
  unfold detached
  omega

/-- A value that enters a lane is detached no longer. -/
theorem detached_of_prepend {a a' : Arena α} {w : Wiring} {lane : Lane} {key : Key} (h : a.Wired w)
    (hp : a.prepend lane key = .ok a') : a'.detached + 1 = a.detached := by
  have hout : (Op.prepend lane key).perform a = (.done, a') := by
    simp only [Op.perform, Op.outcome, hp, Except.map]
  obtain ⟨hw', hb⟩ := perform_balanced h (.prepend lane key)
  rw [hout] at hb hw'
  obtain ⟨w', hw'⟩ := hw'
  have hreg : a'.registered = a.registered := hb.1
  have hsum : a'.registered = a'.loose.length + a'.free.count + a'.full.count := hw'.registered_eq
  unfold detached
  cases lane with
  | free =>
      have hfree : a'.free.count = a.free.count + 1 := hb.2.1
      have hfull : a'.full.count = a.full.count := hb.2.2
      omega
  | full =>
      have hfull : a'.full.count = a.full.count + 1 := hb.2.1
      have hfree : a'.free.count = a.free.count := hb.2.2
      omega

theorem runFrom_sound {a : Arena α} (h : a.Sound) (ops : List (Op α)) : (a.runFrom ops).2.Sound := by
  induction ops generalizing a with
  | nil => exact h
  | cons op ops ih =>
      obtain ⟨w, hw⟩ := h
      exact ih (perform_balanced hw op).1

theorem after_sound (ops : List (Op α)) : (after ops).Sound :=
  runFrom_sound ⟨_, empty_wired⟩ ops

/-- After any run the links are in order and the counters are right. The next operation, whatever it
is, keeps the counters exact and faults only if the caller is to blame, and the lookups that follow
links or keys find what they refer to. -/
theorem after_coherent (ops : List (Op α)) :
    (∃ w, (after ops).Wired w) ∧
    (after ops).registered = (after ops).occupants.length ∧
    (after ops).count .free + (after ops).count .full ≤ (after ops).registered ∧
    (after ops).registered ≤ (after ops).slots.size ∧
    (after ops).detached + (after ops).count .free + (after ops).count .full =
      (after ops).registered ∧
    (∀ op : Op α, (after ops).Balanced (op.perform (after ops)).2 op (op.perform (after ops)).1) ∧
    (∀ lane dir, ∃ entries, (after ops).entries lane dir = .ok entries) ∧
    (∀ lane, ∃ key, (after ops).head? lane = .ok key) ∧
    ∀ key, (after ops).laneOf key = .error (.stale key) ∨
      ∃ lane, (after ops).laneOf key = .ok lane := by
  obtain ⟨w, hw⟩ := after_sound ops
  have hcount := hw.registered_eq
  refine ⟨⟨w, hw⟩, hw.length_occupants.symm, ?_, hw.registered_le, ?_,
    fun op => (perform_balanced hw op).2, ?_, fun lane => ⟨_, (hw.lanes lane).head?_eq⟩, ?_⟩
  · simp only [count, ends]
    omega
  · simp only [count, ends, detached]
    omega
  · intro lane dir
    cases dir with
    | forward => exact ⟨_, (hw.lanes lane).entries_forward⟩
    | backward => exact ⟨_, (hw.lanes lane).entries_backward⟩
  · intro key
    unfold laneOf
    cases (after ops).node? key with
    | none => exact .inl rfl
    | some node => exact .inr ⟨node.lane, rfl⟩

end BufferPool.Arena
