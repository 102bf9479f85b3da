import Mathlib.Algebra.BigOperators.Ring.Finset
import BufferPool.Proofs.World.Books

/-!
# Totals over all events

Every event about a payload or an account is an event in the life of exactly one buffer. So what such
events sum up to is a sum over buffers, and there each buffer contributes what its present standing
says: a counted buffer its total size, and one that is referred to its capacity.
-/

namespace BufferPool

variable {σ : Type}

namespace Event

/-- What the event takes from the heap of a pool. -/
def grantedBy (p : PoolId) : Event → Nat
  | granted q _ _ size => if q = p then size.toNat else 0
  | _ => 0

/-- What the event gives back to the heap of a pool. -/
def freedTo (p : PoolId) : Event → Nat
  | freed q _ _ size => if q = p then size.toNat else 0
  | _ => 0

/-- The function is zero on events that concern no buffer. -/
def Vital (f : Event → Nat) : Prop := ∀ e, (∀ b, e.concerns b = false) → f e = 0

theorem vital_allocatedTo (p : PoolId) : Vital (allocatedTo p) := by
  intro e he
  cases e with
  | allocated q b total => exact absurd (he b) (by simp [concerns])
  | _ => rfl

theorem vital_deallocatedFrom (p : PoolId) : Vital (deallocatedFrom p) := by
  intro e he
  cases e with
  | deallocated q b total => exact absurd (he b) (by simp [concerns])
  | _ => rfl

theorem vital_grantedBy (p : PoolId) : Vital (grantedBy p) := by
  intro e he
  cases e with
  | granted q b tag size => exact absurd (he b) (by simp [concerns])
  | _ => rfl

theorem vital_freedTo (p : PoolId) : Vital (freedTo p) := by
  intro e he
  cases e with
  | freed q b tag size => exact absurd (he b) (by simp [concerns])
  | _ => rfl

/-- An event concerns one buffer at most. -/
theorem concerns_unique {e : Event} {b b' : BufferId} (h : e.concerns b = true)
    (h' : e.concerns b' = true) : b = b' := by
  cases e <;> simp only [concerns, beq_iff_eq, Bool.false_eq_true] at h h' <;> exact h.symm.trans h'

end Event

namespace World

variable {counted : Multiset BufferId} {w : World σ}

/-- The size of all payloads that the heap of a pool has granted. -/
def grantedTotal (w : World σ) (p : PoolId) : Nat := (w.events.map (Event.grantedBy p)).sum

/-- The size of all payloads that went back to the heap of a pool. -/
def freedTotal (w : World σ) (p : PoolId) : Nat := (w.events.map (Event.freedTo p)).sum

/-- A sum over events is a sum over lives. -/
theorem sum_events {f : Event → Nat} (hf : Event.Vital f) {events : List Event} {n : Nat}
    (hborn : ∀ e ∈ events, ∀ b, e.concerns b = true → b < n) :
    (events.map f).sum =
      ∑ b ∈ Finset.range n, ((events.filter (Event.concerns b)).map f).sum := by
  induction events with
  | nil => exact (Finset.sum_const_zero).symm
  | cons e rest ih =>
      have hrest := ih fun e he => hborn e (List.mem_cons_of_mem _ he)
      have hone : f e = ∑ b ∈ Finset.range n, if e.concerns b = true then f e else 0 := by
        by_cases hnone : ∀ b, e.concerns b = false
        · rw [hf e hnone]
          simp only [ite_self, Finset.sum_const_zero]
        · obtain ⟨b, hb⟩ := not_forall.1 hnone
          rw [Bool.not_eq_false] at hb
          have hiff : ∀ b', e.concerns b' = true ↔ b' = b :=
            fun b' => ⟨fun h => Event.concerns_unique h hb, fun h => h ▸ hb⟩
          simp only [hiff, Finset.sum_ite_eq', Finset.mem_range,
            hborn e List.mem_cons_self b hb, if_true]
      rw [List.map_cons, List.sum_cons, hrest, hone, ← Finset.sum_add_distrib]
      refine Finset.sum_congr rfl fun b _ => ?_
      rw [List.filter_cons]
      split_ifs
      · rw [List.map_cons, List.sum_cons]
      · rw [Nat.zero_add]

/-- Two totals differ by what they differ by in each life. -/
theorem Past.sum_events_eq (h : Past counted w) {f g : Event → Nat} (hf : Event.Vital f)
    (hg : Event.Vital g) {rest : BufferId → Nat}
    (hrest : ∀ (b : BufferId) c s, w.cells[b]? = some c → (s = .counted ↔ b ∈ counted) →
      ((c.life b s).map f).sum = ((c.life b s).map g).sum + rest b) :
    (w.events.map f).sum = (w.events.map g).sum + ∑ b ∈ Finset.range w.cells.size, rest b := by
  have hborn : ∀ e ∈ w.events, ∀ b, e.concerns b = true → b < w.cells.size := by
    intro e he b hb
    obtain ⟨c, s, hc, -⟩ := h.exists_of_concerns he hb
    exact (Array.getElem?_eq_some_iff.1 hc).choose
  rw [sum_events hf hborn, sum_events hg hborn, ← Finset.sum_add_distrib]
  refine Finset.sum_congr rfl fun b hb => ?_
  have hc := Array.getElem?_eq_getElem (Finset.mem_range.1 hb)
  obtain ⟨s, hs, hin⟩ := h.life b _ hc
  have hlife := hs.life
  unfold World.life at hlife
  rw [hlife]
  exact hrest b _ s hc hin

/-- What is referred to no more is not outstanding. -/
theorem outstanding_congr {w w' : World σ}
    (hold : ∀ b < w.cells.size, w'.cells[b]? = w.cells[b]?)
    (hlost : ∀ b, w.cells.size ≤ b → w'.refs b = 0) : w'.outstanding = w.outstanding := by
  have hcells : w'.cells.toList = w.cells.toList ++ w'.cells.toList.drop w.cells.size := by
    apply List.ext_getElem?
    intro b
    by_cases hb : b < w.cells.size
    · rw [List.getElem?_append_left hb, Array.getElem?_toList, Array.getElem?_toList, hold b hb]
    · have hle : w.cells.toList.length ≤ b := Nat.not_lt.1 hb
      rw [List.getElem?_append_right hle, List.getElem?_drop, Array.length_toList,
        Nat.add_sub_of_le (Nat.not_lt.1 hb)]
  have hzero : ∀ c ∈ w'.cells.toList.drop w.cells.size, c.refs = 0 := by
    intro c hc
    obtain ⟨i, hi⟩ := List.mem_iff_getElem?.1 hc
    rw [List.getElem?_drop, Array.getElem?_toList] at hi
    exact (refs_of_getElem? hi).symm.trans (hlost _ (Nat.le_add_right ..))
  unfold outstanding
  rw [hcells, List.foldr_append]
  congr 1
  generalize w'.cells.toList.drop w.cells.size = more at hzero
  induction more with
  | nil => rfl
  | cons c rest ih =>
      rw [List.foldr_cons, hzero c List.mem_cons_self, bne_self_eq_false, Bool.and_false]
      exact ih fun c hc => hzero c (List.mem_cons_of_mem _ hc)

theorem Past.allocatedTotal_eq (h : Past counted w) (p : PoolId) :
    w.allocatedTotal p = w.deallocatedTotal p +
      ∑ b ∈ Finset.range w.cells.size,
        if b ∈ counted ∧ w.home? b = some p then (w.buffer b).totalSize.toNat else 0 := by
  refine h.sum_events_eq (Event.vital_allocatedTo p) (Event.vital_deallocatedFrom p) ?_
  intro b c s hc hin
  rw [buffer_of_getElem? hc, home?_of_getElem? hc]
  unfold Cell.life
  cases s <;> by_cases hp : c.home = p <;> by_cases hr : c.refs = 0 <;>
    simp [Cell.notices, Event.allocatedTo, Event.deallocatedFrom, hp, hr, ← hin]

theorem Past.grantedTotal_eq (h : Past counted w) (p : PoolId) :
    w.grantedTotal p = w.freedTotal p +
      ∑ b ∈ Finset.range w.cells.size,
        if w.refs b ≠ 0 ∧ w.home? b = some p then (w.buffer b).capacity.toNat else 0 := by
  refine h.sum_events_eq (Event.vital_grantedBy p) (Event.vital_freedTo p) ?_
  intro b c s hc hin
  have hrefs : w.refs b = c.refs := by
    rw [World.refs, hc]
    rfl
  rw [buffer_of_getElem? hc, home?_of_getElem? hc, hrefs]
  unfold Cell.life
  cases s <;> by_cases hp : c.home = p <;> by_cases hr : c.refs = 0 <;>
    simp [Cell.notices, Event.grantedBy, Event.freedTo, hp, hr]

/-- The buffers that count for a pool: those it has registered and those afloat that were made for
it. -/
def countedFor (w : World σ) (k : Books σ) (p : PoolId) : Multiset BufferId :=
  w.registered p + k.adrift.filter fun b => w.home? b = some p

variable [Client σ] {k : Books σ}

omit [Client σ] in
theorem lt_size_of_home? {b : BufferId} {p : PoolId} (hb : w.home? b = some p) :
    b < w.cells.size := by
  unfold home? at hb
  obtain ⟨c, hc, -⟩ := Option.map_eq_some_iff.1 hb
  exact (Array.getElem?_eq_some_iff.1 hc).choose

/-- A counted buffer counts for the pool that is its home. -/
theorem Present.mem_countedFor (h : Present k w) {p : PoolId} {b : BufferId} :
    b ∈ w.countedFor k p ↔ b ∈ w.counted k ∧ w.home? b = some p := by
  rw [countedFor, counted, Multiset.mem_add, Multiset.mem_add, Multiset.mem_filter]
  constructor
  · rintro (hb | ⟨hb, hp⟩)
    · exact ⟨.inl (mem_enrolled.2 ⟨p, hb⟩), h.registered p b hb⟩
    · exact ⟨.inr hb, hp⟩
  · rintro ⟨hb | hb, hp⟩
    · obtain ⟨q, hq⟩ := mem_enrolled.1 hb
      have hhome := h.registered q b hq
      rw [hp, Option.some.injEq] at hhome
      exact .inl (hhome ▸ hq)
    · exact .inr ⟨hb, hp⟩

theorem Present.nodup_countedFor (h : Present k w) (p : PoolId) : (w.countedFor k p).Nodup :=
  Multiset.nodup_of_le
    (add_le_add (registered_le_enrolled w p) (Multiset.filter_le _ k.adrift)) h.nodup

theorem Present.sum_countedFor (h : Present k w) (p : PoolId) (f : BufferId → Nat) :
    (∑ b ∈ Finset.range w.cells.size, if b ∈ w.counted k ∧ w.home? b = some p then f b else 0) =
      ((w.countedFor k p).map f).sum := by
  have hval : ((Finset.range w.cells.size).filter
      fun b => b ∈ w.counted k ∧ w.home? b = some p).val = w.countedFor k p := by
    refine (Multiset.Nodup.ext (Finset.nodup _) (h.nodup_countedFor p)).2 fun b => ?_
    rw [Finset.mem_val, Finset.mem_filter, Finset.mem_range, h.mem_countedFor]
    exact and_iff_right_of_imp fun hb => lt_size_of_home? hb.2
  rw [← Finset.sum_filter, Finset.sum, hval]

/-- What a pool has counted and not retired is what counts for it. -/
theorem Agrees.allocatedTotal_eq (h : Agrees k w) (p : PoolId) :
    w.allocatedTotal p = w.deallocatedTotal p +
      ((w.countedFor k p).map fun b => (w.buffer b).totalSize.toNat).sum := by
  rw [h.past.allocatedTotal_eq, h.sum_countedFor p fun b => (w.buffer b).totalSize.toNat]

/-- The account of an open pool, modulo the word size. -/
theorem Agrees.allocated?_eq (h : Agrees k w) {p : PoolId} {total : UInt64}
    (hp : w.allocated? p = some total) :
    total = UInt64.ofNat ((w.countedFor k p).map fun b => (w.buffer b).totalSize.toNat).sum := by
  have hpast := h.past.allocated p total hp
  rw [h.allocatedTotal_eq, UInt64.ofNat_add, UInt64.add_comm] at hpast
  exact (UInt64.add_right_inj _).1 hpast

end World

end BufferPool
