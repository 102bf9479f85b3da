import BufferPool.Proofs.Arena.Ledger

/-!
# The vacations of slots

A run leaves a history: which slots were vacated, and in which order. The chain of vacant slots is this
history seen from its end, each slot at its last vacation and without the slots that are taken again.
The generation of a slot says how often the slot is in the history. One operation keeps both, and so
does a run. Draining is left out, because it takes the slots themselves away.
-/

namespace BufferPool.Arena

variable {α : Type}

/-- Whether there is such a slot and nobody is in it. -/
def isVacant (a : Arena α) (index : Nat) : Bool := (a.vacancyAt? index).isSome

/-- The slots that an operation vacates, the last one first. Abandoned values leave in slot order. -/
def Op.vacates (a : Arena α) (op : Op α) : List Nat :=
  match op, (op.perform a).1 with
  | .unregister key, .value _ => [key.index]
  | .reclaim abandoned, .values _ => ((a.abandonedKeys abandoned).map (·.index)).reverse
  | _, _ => []

/-- The slots that the operations vacate, the last one first. A slot that is vacated several times is
there as often. -/
def vacationsFrom (a : Arena α) : List (Op α) → List Nat
  | [] => []
  | op :: ops => (op.perform a).2.vacationsFrom ops ++ op.vacates a

/-- The slots that a run vacates, the last one first. -/
def vacations (ops : List (Op α)) : List Nat := vacationsFrom empty ops

theorem runFrom_append (a : Arena α) (ops more : List (Op α)) :
    a.runFrom (ops ++ more) = ((a.runFrom ops).1 ++ ((a.runFrom ops).2.runFrom more).1,
      ((a.runFrom ops).2.runFrom more).2) := by
  induction ops generalizing a with
  | nil => rfl
  | cons op ops ih => simp only [List.cons_append, runFrom, ih]

theorem after_concat (ops : List (Op α)) (op : Op α) :
    after (ops ++ [op]) = (op.perform (after ops)).2 := by
  simp only [after, runFrom_append, runFrom]

theorem vacationsFrom_append (a : Arena α) (ops more : List (Op α)) :
    a.vacationsFrom (ops ++ more) =
      (a.runFrom ops).2.vacationsFrom more ++ a.vacationsFrom ops := by
  induction ops generalizing a with
  | nil => simp only [List.nil_append, vacationsFrom, List.append_nil, runFrom]
  | cons op ops ih => simp only [List.cons_append, vacationsFrom, ih, runFrom, List.append_assoc]

theorem vacations_append (ops more : List (Op α)) :
    vacations (ops ++ more) = (after ops).vacationsFrom more ++ vacations ops :=
  vacationsFrom_append empty ops more

theorem vacations_concat (ops : List (Op α)) (op : Op α) :
    vacations (ops ++ [op]) = op.vacates (after ops) ++ vacations ops :=
  vacations_append ops [op]

/-- A chain passes slots of a history, the one that comes first there first. -/
structure Stacked (past chain : List Nat) : Prop where
  mem_past : ∀ i ∈ chain, i ∈ past
  sorted : chain.Pairwise fun i j => past.idxOf i < past.idxOf j

namespace Stacked

variable {past chain slots : List Nat} {i : Nat}

theorem nil (past : List Nat) : Stacked past [] := ⟨by simp, .nil⟩

theorem tail (h : Stacked past chain) : Stacked past chain.tail :=
  ⟨fun i hi => h.mem_past i (List.mem_of_mem_tail hi), h.sorted.tail⟩

/-- A slot that is not on the chain becomes the first of the chain and of the history. -/
theorem cons (h : Stacked past chain) (hi : i ∉ chain) : Stacked (i :: past) (i :: chain) := by
  have hlater : ∀ j ∈ chain, (i :: past).idxOf j = past.idxOf j + 1 := by
    intro j hj
    exact List.idxOf_cons_ne past fun hij => hi (hij ▸ hj)
  constructor
  · intro j hj
    rcases List.mem_cons.1 hj with rfl | hj
    · exact List.mem_cons_self
    · exact List.mem_cons_of_mem _ (h.mem_past j hj)
  · refine List.pairwise_cons.2 ⟨fun j hj => ?_, h.sorted.imp_of_mem fun {j k} hj hk hjk => ?_⟩
    · rw [List.idxOf_cons_self, hlater j hj]
      exact Nat.succ_pos _
    · rw [hlater j hj, hlater k hk]
      omega

theorem append (h : Stacked past chain) (hnd : (slots ++ chain).Nodup) :
    Stacked (slots ++ past) (slots ++ chain) := by
  induction slots with
  | nil => exact h
  | cons i slots ih =>
      obtain ⟨hnot, hnd⟩ := List.nodup_cons.1 hnd
      exact (ih hnd).cons hnot

/-- Among the slots of the chain, the first of the chain is the first of the history. -/
theorem find?_eq (h : Stacked past chain) {p : Nat → Bool} (hp : ∀ i, p i = true ↔ i ∈ chain) :
    past.find? p = chain.head? := by
  cases chain with
  | nil =>
      rw [List.head?_nil, List.find?_eq_none]
      intro i _ hi
      exact List.not_mem_nil ((hp i).1 hi)
  | cons i chain =>
      obtain ⟨earlier, later, hpast, hnot⟩ :=
        List.eq_append_cons_of_mem (h.mem_past i List.mem_cons_self)
      refine List.find?_eq_some_iff_append.2
        ⟨(hp i).2 List.mem_cons_self, earlier, later, hpast, fun j hj => ?_⟩
      -- what stands before `i` in the history comes before `i` on the chain, where nothing does
      have hne : j ≠ i := fun hji => hnot (hji ▸ hj)
      have hlt : past.idxOf j < past.idxOf i := by
        rw [hpast, List.idxOf_append_of_mem hj, List.idxOf_append_of_notMem hnot]
        exact Nat.lt_add_right _ (List.idxOf_lt_length_of_mem hj)
      have hjc : j ∉ i :: chain := by
        intro hj
        rcases List.mem_cons.1 hj with hji | hj
        · exact hne hji
        · exact Nat.lt_asymm hlt ((List.pairwise_cons.1 h.sorted).1 j hj)
      rw [Bool.not_eq_true', ← Bool.not_eq_true, hp]
      exact hjc

end Stacked

theorem Wired.isVacant_iff {a : Arena α} {w : Wiring} (h : a.Wired w) (i : Nat) :
    a.isVacant i = true ↔ i ∈ w.vacant := by
  rw [isVacant, Option.isSome_iff_exists, h.vacated.mem_iff]

/-- The slots that are vacated come before those that were vacant, no slot is added, and the ages count
what is vacated. -/
structure Releases (a : Arena α) (w : Wiring) (slots : List Nat) (a' : Arena α) (w' : Wiring) :
    Prop where
  wired : a'.Wired w'
  vacant : w'.vacant = slots ++ w.vacant
  size : a'.slots.size = a.slots.size
  ages : ∀ l, Recorded l a → ∃ l', Recorded l' a' ∧ ∀ i, l'.age i = slots.count i + l.age i

theorem Releases.refl {a : Arena α} {w : Wiring} (h : a.Wired w) : a.Releases w [] a w :=
  ⟨h, rfl, rfl, fun l hl => ⟨l, hl, fun i => by simp⟩⟩

theorem Relinked.releases {f : Nat → Node α → Node α} {a a' : Arena α} {index : Nat}
    {lane : Option Lane} {w w' : Wiring} (hr : Relinked f a a') (hm : Moves f index lane)
    (hw : a'.Wired w') (hv : w'.vacant = w.vacant) : a.Releases w [] a' w' :=
  ⟨hw, hv, hr.size, fun l hl => ⟨l, hr.recorded hm hl, fun i => by simp⟩⟩

theorem Cleared.releases {a a' : Arena α} {keys : List Key} {w w' : Wiring} (hc : a.Cleared keys a')
    (hnd : (keys.map (·.index)).Nodup) (hw : a'.Wired w')
    (hv : w'.vacant = (keys.map (·.index)).reverse ++ w.vacant) :
    a.Releases w (keys.map (·.index)).reverse a' w' := by
  refine ⟨hw, hv, hc.size, fun l hl => ⟨_, (hc.recorded hl).1, fun i => ?_⟩⟩
  rw [List.count_reverse, hnd.count]
  simp only [Ledger.vacate]
  split_ifs
  · exact Nat.add_comm _ _
  · exact (Nat.zero_add _).symm

/-- Only registration takes a slot, and only draining takes slots away. -/
theorem perform_releases {a : Arena α} {w : Wiring} (h : a.Wired w) {op : Op α}
    (hregister : ∀ value, op ≠ .register value) (hdrain : op ≠ .drain) :
    ∃ w', a.Releases w (op.vacates a) (op.perform a).2 w' := by
  cases op with
  | register value => exact absurd rfl (hregister value)
  | unregister key =>
      rcases unregister_cases h key with ⟨-, he⟩ | ⟨value, lane, -, he⟩ |
        ⟨value, a', -, he, -, hc, hw⟩
      all_goals simp only [Op.vacates, Op.perform, Op.outcome, he, Except.map]
      · exact ⟨w, .refl h⟩
      · exact ⟨w, .refl h⟩
      · exact ⟨_, hc.releases (List.nodup_singleton _) hw rfl⟩
  | prepend lane key =>
      rcases prepend_cases h lane key with ⟨-, he⟩ | ⟨value, actual, -, he⟩ |
        ⟨value, a', f, -, he, hr, hm, hw⟩
      all_goals simp only [Op.vacates, Op.perform, Op.outcome, he, Except.map]
      · exact ⟨w, .refl h⟩
      · exact ⟨w, .refl h⟩
      · exact ⟨_, hr.releases hm hw rfl⟩
  | remove lane key =>
      rcases remove_cases h lane key with ⟨-, he⟩ | ⟨value, actual, -, -, he⟩ |
        ⟨value, a', f, -, he, hr, hm, hw⟩
      all_goals simp only [Op.vacates, Op.perform, Op.outcome, he, Except.map]
      · exact ⟨w, .refl h⟩
      · exact ⟨w, .refl h⟩
      · exact ⟨_, hr.releases hm hw rfl⟩
  | reclaim abandoned =>
      obtain ⟨a', he, hc, hw⟩ := reclaim_wired h abandoned
      simp only [Op.vacates, Op.perform, Op.outcome, he, Except.map]
      exact ⟨_, hc.releases (nodup_abandonedKeys a abandoned) hw rfl⟩
  | drain => exact absurd rfl hdrain

/-- The vacant slots are chained in the order of their vacations, and the generations count them. -/
structure Aged (past : List Nat) (a : Arena α) (w : Wiring) : Prop where
  wired : a.Wired w
  stacked : Stacked past w.vacant
  ages : ∃ l, Recorded l a ∧ ∀ i, l.age i = past.count i

theorem aged_empty : (empty : Arena α).Aged [] ⟨fun _ => [], []⟩ :=
  ⟨empty_wired, .nil [], .blank, recorded_empty, fun _ => rfl⟩

/-- The slot of a new value is the one that was vacated last, or a new one if none is vacant. -/
theorem Aged.register {past : List Nat} {a : Arena α} {w : Wiring} (h : a.Aged past w) (value : α) :
    ∃ key a', a.register value = .ok (key, a') ∧
      a'.Aged past { w with vacant := w.vacant.tail } ∧
      key.index = (past.find? a.isVacant).getD a.slots.size ∧
      key.generation.toNat = past.count key.index % 2 ^ 64 := by
  obtain ⟨key, a', ha', hr, hindex, hsize, hw⟩ := register_wired h.wired value
  obtain ⟨l, hl, hage⟩ := h.ages
  have hfirst : past.find? a.isVacant = w.vacant.head? := h.stacked.find?_eq h.wired.isVacant_iff
  have hle : key.index ≤ a.slots.size := hindex ▸ h.wired.vacated.head_le
  obtain ⟨hl', -, hgen⟩ := hr.recorded hsize hle hl
  refine ⟨key, a', ha', ⟨hw, h.stacked.tail, _, hl', hage⟩, ?_, ?_⟩
  · rw [hindex, hfirst]
  · rw [hgen, hage, UInt64.toNat_ofNat']

theorem Aged.releases {past slots : List Nat} {a a' : Arena α} {w w' : Wiring} (h : a.Aged past w)
    (hr : a.Releases w slots a' w') : a'.Aged (slots ++ past) w' := by
  obtain ⟨l, hl, hage⟩ := h.ages
  obtain ⟨l', hl', hage'⟩ := hr.ages l hl
  refine ⟨hr.wired, ?_, l', hl', fun i => by rw [hage', hage, List.count_append]⟩
  rw [hr.vacant]
  exact h.stacked.append (hr.vacant ▸ hr.wired.vacated.nodup)

theorem Aged.perform {past : List Nat} {a : Arena α} {w : Wiring} (h : a.Aged past w) {op : Op α}
    (hdrain : op ≠ .drain) : ∃ w', (op.perform a).2.Aged (op.vacates a ++ past) w' := by
  by_cases hregister : ∃ value, op = .register value
  · obtain ⟨value, rfl⟩ := hregister
    obtain ⟨key, a', ha', haged, -⟩ := h.register value
    have hnone : (Op.register value).vacates a = [] := rfl
    rw [hnone, perform_register ha']
    exact ⟨_, haged⟩
  · obtain ⟨w', hr⟩ := perform_releases h.wired (not_exists.1 hregister) hdrain
    exact ⟨w', h.releases hr⟩

theorem after_aged {ops : List (Op α)} (h : Op.drain ∉ ops) :
    ∃ w, (after ops).Aged (vacations ops) w := by
  induction ops using List.reverseRecOn with
  | nil => exact ⟨_, aged_empty⟩
  | append_singleton ops op ih =>
      simp only [List.mem_append, List.mem_singleton, not_or] at h
      obtain ⟨w, hw⟩ := ih h.1
      rw [after_concat, vacations_concat]
      exact hw.perform (Ne.symm h.2)

end BufferPool.Arena
