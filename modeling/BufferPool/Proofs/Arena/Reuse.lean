import Mathlib.Order.Bounds.Basic
import BufferPool.Proofs.Arena.Vacations

/-!
# How slots are used again

No slot is added while one is vacant, and until the arena is drained no slot is given back. So the
number of slots is the greatest number of values that were registered at once, and that is what a
long-lived arena costs.

Slots are used again in the opposite order of their vacations. Reclaiming vacates them in slot order,
like unregistering one value after the other, so what is registered next fills them from above.
-/

namespace BufferPool.Arena

variable {α : Type}

/-- The numbers of values that are registered at once in the course of a run. -/
def populations (ops : List (Op α)) : Set Nat :=
  {n | ∃ before, before <+: ops ∧ (after before).values.length = n}

theorem Wired.length_values {a : Arena α} {w : Wiring} (h : a.Wired w) :
    a.values.length = a.registered := by
  rw [values, List.length_map, h.length_occupants]

theorem Wired.vacant_eq_nil_iff {a : Arena α} {w : Wiring} (h : a.Wired w) :
    w.vacant = [] ↔ ∀ i < a.slots.size, ∃ node, a.nodeAt? i = some node := by
  rw [List.eq_nil_iff_forall_not_mem]
  constructor
  · intro hempty i hi
    have hs := isSome_vacancyAt? hi
    have hv : (a.vacancyAt? i).isSome = false := by
      rw [← Bool.not_eq_true, Option.isSome_iff_exists, ← h.vacated.mem_iff]
      exact hempty i
    rw [hv, eq_comm, Bool.not_eq_false'] at hs
    exact Option.isSome_iff_exists.1 hs
  · intro hfull i hi
    obtain ⟨next, hv⟩ := (h.vacated.mem_iff i).1 hi
    have hlt := lt_size_of_vacancyAt? hv
    obtain ⟨node, hn⟩ := hfull i hlt
    simpa [hv, hn] using isSome_vacancyAt? hlt

/-- A new value takes a vacant slot if there is one; otherwise there is one more slot. -/
theorem size_of_register {a a' : Arena α} {w : Wiring} {value : α} {key : Key} (h : a.Wired w)
    (hr : a.register value = .ok (key, a')) :
    a'.slots.size = if w.vacant = [] then a.slots.size + 1 else a.slots.size := by
  obtain ⟨k, b, hb, -, hindex, hsize, -⟩ := register_wired h value
  rw [hr] at hb
  obtain ⟨rfl, rfl⟩ := Prod.mk.inj (Except.ok.inj hb)
  rw [hsize, hindex]
  cases hv : w.vacant with
  | nil =>
      rw [if_pos rfl]
      exact Nat.max_eq_right (Nat.le_succ _)
  | cons i rest =>
      rw [if_neg (List.cons_ne_nil i rest)]
      have hlt : i < a.slots.size := h.vacated.lt_size (hv ▸ List.mem_cons_self)
      exact Nat.max_eq_left hlt

/-- Slots are added only as far as values need them. -/
theorem size_perform {a : Arena α} {w : Wiring} (h : a.Wired w) {op : Op α} (hdrain : op ≠ .drain) :
    (op.perform a).2.slots.size = max (op.perform a).2.values.length a.slots.size := by
  by_cases hregister : ∃ value, op = .register value
  · obtain ⟨value, rfl⟩ := hregister
    obtain ⟨key, a', ha', -, -, -, hw⟩ := register_wired h value
    have hcount : a'.registered + w.vacant.tail.length = a'.slots.size := hw.registered
    have hsize := size_of_register h ha'
    rw [perform_register ha']
    change a'.slots.size = max a'.values.length a.slots.size
    rw [hw.length_values]
    split_ifs at hsize with hv
    · rw [hv, List.tail_nil, List.length_nil] at hcount
      omega
    · omega
  · obtain ⟨w', hr⟩ := perform_releases h (not_exists.1 hregister) hdrain
    rw [hr.wired.length_values, hr.size, max_eq_right]
    exact hr.size ▸ hr.wired.registered_le

/-- The only thing that adds a slot is a registration while all slots are taken. -/
theorem size_lt_perform_iff {a : Arena α} {w : Wiring} (h : a.Wired w) (op : Op α) :
    a.slots.size < (op.perform a).2.slots.size ↔
      (∃ value, op = .register value) ∧ ∀ i < a.slots.size, ∃ node, a.nodeAt? i = some node := by
  rw [← h.vacant_eq_nil_iff]
  by_cases hregister : ∃ value, op = .register value
  · obtain ⟨value, rfl⟩ := hregister
    obtain ⟨key, a', ha', -⟩ := register_wired h value
    rw [perform_register ha', size_of_register h ha']
    split_ifs with hv <;> simp [hv]
  · refine iff_of_false (fun hlt => ?_) fun hboth => hregister hboth.1
    by_cases hdrain : op = .drain
    · subst hdrain
      simp only [Op.perform, Op.outcome, drain_wired h, Except.map] at hlt
      exact Nat.not_lt_zero _ hlt
    · obtain ⟨w', hr⟩ := perform_releases h (not_exists.1 hregister) hdrain
      exact Nat.ne_of_gt hlt hr.size

theorem populations_concat (ops : List (Op α)) (op : Op α) :
    populations (ops ++ [op]) = insert (after (ops ++ [op])).values.length (populations ops) := by
  ext n
  simp only [populations, List.prefix_concat_iff, Set.mem_ofPred_eq, Set.mem_insert_iff, or_and_right,
    exists_or, exists_eq_left, eq_comm]

theorem isGreatest_populations {ops : List (Op α)} (h : Op.drain ∉ ops) :
    IsGreatest (populations ops) (after ops).slots.size := by
  induction ops using List.reverseRecOn with
  | nil =>
      refine ⟨⟨[], List.prefix_rfl, rfl⟩, ?_⟩
      rintro n ⟨before, hbefore, rfl⟩
      rw [List.prefix_nil.1 hbefore]
      exact Nat.le_refl 0
  | append_singleton ops op ih =>
      simp only [List.mem_append, List.mem_singleton, not_or] at h
      obtain ⟨w, hw⟩ := after_sound ops
      have hsize := size_perform hw (Ne.symm h.2)
      rw [← after_concat] at hsize
      rw [populations_concat, hsize]
      exact (ih h.1).insert _

/-- Only registration answers a key, and the key leads to a slot. -/
theorem index_lt_of_answer {a : Arena α} {w : Wiring} (h : a.Wired w) {op : Op α} {key : Key}
    (hk : (op.perform a).1 = .key key) : key.index < (op.perform a).2.slots.size := by
  have hbalanced := (perform_balanced h op).2
  rw [hk] at hbalanced
  cases op with
  | register value =>
      obtain ⟨k, a', ha', -, -, hsize, -⟩ := register_wired h value
      rw [perform_register ha'] at hk ⊢
      obtain rfl : k = key := Answer.key.inj hk
      rw [hsize]
      exact Nat.lt_of_lt_of_le (Nat.lt_succ_self _) (Nat.le_max_right _ _)
  | unregister _ => exact hbalanced.elim
  | prepend _ _ => exact hbalanced.elim
  | remove _ _ => exact hbalanced.elim
  | reclaim _ => exact hbalanced.elim
  | drain => exact hbalanced.elim

theorem index_lt_of_answers {ops : List (Op α)} (h : Op.drain ∉ ops) {key : Key}
    (hk : .key key ∈ (runFrom empty ops).1) : key.index < (after ops).slots.size := by
  induction ops using List.reverseRecOn with
  | nil => exact absurd hk List.not_mem_nil
  | append_singleton ops op ih =>
      simp only [List.mem_append, List.mem_singleton, not_or] at h
      rw [runFrom_append, List.mem_append] at hk
      obtain ⟨w, hw⟩ := after_sound ops
      rw [after_concat]
      rcases hk with hk | hk
      · have hlt := ih h.1 hk
        have hsize := size_perform hw (Ne.symm h.2)
        omega
      · exact index_lt_of_answer hw (List.mem_singleton.1 hk).symm

theorem exists_of_unregisterAll_cons {a a' : Arena α} {key : Key} {keys : List Key} {values : List α}
    (h : a.unregisterAll (key :: keys) = .ok (values, a')) :
    ∃ value others a₁, a.unregister key = .ok (value, a₁) ∧
      a₁.unregisterAll keys = .ok (others, a') ∧ values = value :: others := by
  rw [unregisterAll] at h
  cases hu : a.unregister key with
  | error fault =>
      rw [hu] at h
      cases h
  | ok result =>
      obtain ⟨value, a₁⟩ := result
      rw [hu] at h
      change a₁.unregisterAll keys >>= _ = _ at h
      cases hrest : a₁.unregisterAll keys with
      | error fault =>
          rw [hrest] at h
          cases h
      | ok rest =>
          obtain ⟨others, a₂⟩ := rest
          rw [hrest] at h
          obtain ⟨rfl, rfl⟩ := Prod.mk.inj (Except.ok.inj h)
          exact ⟨value, others, a₁, rfl, hrest, rfl⟩

/-- To unregister many values is to unregister one after the other. -/
theorem runFrom_unregister {keys : List Key} : ∀ {a a' : Arena α} {values : List α},
    a.unregisterAll keys = .ok (values, a') →
      a.runFrom (keys.map .unregister) = (values.map .value, a') := by
  induction keys with
  | nil =>
      intro a a' values h
      obtain ⟨rfl, rfl⟩ := Prod.mk.inj (Except.ok.inj h)
      rfl
  | cons key keys ih =>
      intro a a' values h
      obtain ⟨value, others, a₁, hu, hrest, rfl⟩ := exists_of_unregisterAll_cons h
      simp only [List.map_cons, runFrom, Op.perform, Op.outcome, hu, Except.map, ih hrest]

theorem vacationsFrom_unregister {keys : List Key} : ∀ {a a' : Arena α} {values : List α},
    a.unregisterAll keys = .ok (values, a') →
      a.vacationsFrom (keys.map .unregister) = (keys.map (·.index)).reverse := by
  induction keys with
  | nil => exact fun _ => rfl
  | cons key keys ih =>
      intro a a' values h
      obtain ⟨value, others, a₁, hu, hrest, rfl⟩ := exists_of_unregisterAll_cons h
      simp only [List.map_cons, vacationsFrom, Op.vacates, Op.perform, Op.outcome, hu, Except.map,
        ih hrest, List.reverse_cons]

theorem Wired.reclaim_eq {a : Arena α} {w : Wiring} (h : a.Wired w) (abandoned : α → Bool) :
    a.reclaim abandoned = a.unregisterAll (a.abandonedKeys abandoned) := by
  unfold reclaim
  split_ifs with hd
  · rw [h.abandonedKeys_eq_nil hd]
    rfl
  · rfl

/-- A new value takes the first vacant slot with its generation, and no other slot has changed. -/
theorem register_of_vacant {a : Arena α} {w : Wiring} {i : Nat} {rest : List Nat} (h : a.Wired w)
    (hv : w.vacant = i :: rest) (value : α) :
    ∃ a', a.register value = .ok (⟨i, (a.generationAt? i).getD 0⟩, a') ∧
      a'.Wired { w with vacant := rest } ∧ ∀ j, j ≠ i → a'.generationAt? j = a.generationAt? j := by
  obtain ⟨key, a', ha', hr, hindex, -, hw⟩ := register_wired h value
  rw [hv] at hindex hw
  obtain rfl : key.index = i := hindex
  rw [← hr.generation]
  refine ⟨a', ha', hw, fun j hj => ?_⟩
  rw [generationAt?, generationAt?, hr.slots, if_neg hj]

/-- In the history of a run, to reclaim is to unregister one value after the other. -/
theorem vacations_reclaim {ops : List (Op α)} {abandoned : α → Bool} {values : List α} {a' : Arena α}
    {w : Wiring} (h : (after ops).Wired w) (hr : (after ops).reclaim abandoned = .ok (values, a')) :
    vacations (ops ++ [.reclaim abandoned]) =
      vacations (ops ++ ((after ops).abandonedKeys abandoned).map .unregister) := by
  have hvacates : (Op.reclaim abandoned).vacates (after ops) =
      (((after ops).abandonedKeys abandoned).map (·.index)).reverse := by
    simp only [Op.vacates, Op.perform, Op.outcome, hr, Except.map]
  rw [h.reclaim_eq] at hr
  rw [vacations_concat, hvacates, vacations_append, vacationsFrom_unregister hr]

/-- As long as there are vacant slots, new values take them from the first of the chain on. -/
theorem runFrom_register {values : List α} : ∀ {a : Arena α} {w : Wiring}, a.Wired w →
    values.length ≤ w.vacant.length →
      (a.runFrom (values.map .register)).1 =
        (w.vacant.take values.length).map fun i => .key ⟨i, (a.generationAt? i).getD 0⟩ := by
  induction values with
  | nil => exact fun _ _ => rfl
  | cons value values ih =>
      intro a w h hlength
      cases hv : w.vacant with
      | nil => simp [hv] at hlength
      | cons i rest =>
          obtain ⟨a', ha', hw, hgen⟩ := register_of_vacant h hv value
          obtain ⟨hnot, -⟩ := List.nodup_cons.1 (hv ▸ h.vacated.nodup)
          have hrest := ih hw (by simpa [hv] using hlength)
          simp only [List.map_cons, runFrom, perform_register ha', hrest, List.length_cons,
            List.take_succ_cons]
          congr 1
          apply List.map_congr_left
          intro j hj
          rw [hgen j fun hji => hnot (hji ▸ List.mem_of_mem_take hj)]

/-- The slots that are reclaimed are used again from the last one on, each with its next
generation. -/
theorem runFrom_register_of_cleared {a a' : Arena α} {keys : List Key} {w : Wiring}
    {vacant : List Nat} (hc : a.Cleared keys a') (hw : a'.Wired w)
    (hv : w.vacant = (keys.map (·.index)).reverse ++ vacant) {values : List α}
    (hlength : values.length ≤ keys.length) :
    (a'.runFrom (values.map .register)).1 =
      (keys.reverse.take values.length).map fun key => .key ⟨key.index, key.generation + 1⟩ := by
  have hchain : values.length ≤ w.vacant.length := by
    rw [hv, List.length_append, List.length_reverse, List.length_map]
    omega
  have htake : w.vacant.take values.length = (keys.reverse.take values.length).map (·.index) := by
    rw [hv, List.take_append_of_le_length (by simpa using hlength), ← List.map_reverse, List.map_take]
  rw [runFrom_register hw hchain, htake, List.map_map]
  apply List.map_congr_left
  intro key hk
  have hmem : key ∈ keys := List.mem_reverse.1 (List.mem_of_mem_take hk)
  obtain ⟨⟨value, lane⟩, hp⟩ := hc.live key hmem
  obtain ⟨node, hn, -⟩ := place?_eq_some_iff.1 hp
  have hgen : a.generationAt? key.index = some key.generation := by
    rw [generationAt?, node?_eq_some_iff.1 hn]
    rfl
  rw [Function.comp_apply, hc.generationAt?, hgen, Option.map_some, if_pos (List.mem_map_of_mem hmem)]
  rfl

/-- In a run without draining there are as many slots as values were ever registered at once. A slot
is added only by a registration that finds all slots taken, and every key leads to one of the slots.
A new value takes the slot that was vacated last among the vacant ones, and the generation of its key
is the number of vacations of this slot modulo `2 ^ 64`. Reclaiming unregisters the abandoned values in
slot order, so their slots are taken again from the highest down. -/
theorem slots_reused {ops : List (Op α)} (h : Op.drain ∉ ops) :
    IsGreatest (populations ops) (after ops).slots.size ∧
    (∀ op : Op α, (after ops).slots.size < (op.perform (after ops)).2.slots.size ↔
      (∃ value, op = .register value) ∧
        ∀ i < (after ops).slots.size, ∃ node, (after ops).nodeAt? i = some node) ∧
    (∀ key, .key key ∈ (runFrom empty ops).1 → key.index < (after ops).slots.size) ∧
    (∀ value, ∃ key a', (after ops).register value = .ok (key, a') ∧
      key.index = ((vacations ops).find? (after ops).isVacant).getD (after ops).slots.size ∧
      key.generation.toNat = (vacations ops).count key.index % 2 ^ 64) ∧
    ∀ abandoned, ∃ keys values a', keys = (after ops).abandonedKeys abandoned ∧
      keys.Pairwise (fun x y => x.index < y.index) ∧
      (after ops).reclaim abandoned = .ok (values, a') ∧
      (after ops).runFrom (keys.map .unregister) = (values.map .value, a') ∧
      vacations (ops ++ [.reclaim abandoned]) = vacations (ops ++ keys.map .unregister) ∧
      ∀ others : List α, others.length ≤ keys.length →
        (a'.runFrom (others.map .register)).1 =
          (keys.reverse.take others.length).map fun key => .key ⟨key.index, key.generation + 1⟩ := by
  obtain ⟨w, hw⟩ := after_aged h
  refine ⟨isGreatest_populations h, size_lt_perform_iff hw.wired, fun key => index_lt_of_answers h,
    fun value => ?_, fun abandoned => ?_⟩
  · obtain ⟨key, a', ha', -, hindex, hgen⟩ := hw.register value
    exact ⟨key, a', ha', hindex, hgen⟩
  · obtain ⟨a', ha', hc, hw'⟩ := reclaim_wired hw.wired abandoned
    have hrun := runFrom_unregister ((hw.wired.reclaim_eq abandoned).symm.trans ha')
    exact ⟨_, _, a', rfl, pairwise_abandonedKeys _ abandoned, ha', hrun,
      vacations_reclaim hw.wired ha', fun others hlength => runFrom_register_of_cleared hc hw' rfl hlength⟩

/-- Three values are registered. The second is in a lane and is not unregistered, the two others are
reclaimed, and a fourth value takes the third slot. The first slot is the next to be taken. -/
theorem first_slot_reused_last :
    let ops : List (Op Nat) := [.register 1, .register 2, .register 3, .prepend .free ⟨1, 0⟩,
      .unregister ⟨1, 0⟩, .reclaim fun _ => true, .register 4]
    Op.drain ∉ ops ∧ vacations ops = [2, 0] ∧ IsGreatest (populations ops) 3 ∧
      ∃ a', (after ops).register 5 = .ok (⟨0, 1⟩, a') := by
  intro ops
  have hdrain : Op.drain ∉ ops := by simp [ops]
  have hpast : vacations ops = [2, 0] := by decide +kernel
  have hsize : (after ops).slots.size = 3 := by decide +kernel
  have hfirst : [2, 0].find? (after ops).isVacant = some 0 := by decide +kernel
  obtain ⟨hpeak, -, -, hregister, -⟩ := slots_reused hdrain
  obtain ⟨key, a', ha', hindex, hgeneration⟩ := hregister 5
  rw [hpast, hfirst, Option.getD_some] at hindex
  rw [hpast, hindex] at hgeneration
  have hkey : key = ⟨0, 1⟩ := by
    obtain ⟨index, generation⟩ := key
    obtain rfl : index = 0 := hindex
    obtain rfl : generation = 1 := UInt64.toNat_inj.1 hgeneration
    rfl
  exact ⟨hdrain, hpast, hsize ▸ hpeak, a', hkey ▸ ha'⟩

end BufferPool.Arena
