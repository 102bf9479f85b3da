import BufferPool.Proofs.Drain.Sections
import BufferPool.Proofs.Drain.Work

/-!
# Whatever a producer does

The operations of several critical sections are taken section by section, and then every step of a
producer leaves a plant in order.
-/

namespace BufferPool

open Arena (Catalog)
open PoolM

variable {σ α β : Type} {minimum : UInt64} {p : PoolId} {k t : Thread} {c : Catalog BufferId}
  {s : Plant σ minimum} {m : Message minimum}

namespace Plant

namespace Proceeds

theorem after {act : PoolM σ α} {a : α} {f : α → PoolM σ β} {next : β → Stage minimum}
    (hr : act s.world = .ok a s.world) (h : Proceeds p k t s (f a) next) :
    Proceeds p k t s (act >>= f) next := by
  obtain ⟨b, w, c, hr', hc⟩ := h
  exact ⟨b, w, c, (bind_of_ok f hr).trans hr', hc⟩

theorem map {act : PoolM σ α} {f : α → β} {next : β → Stage minimum}
    (h : Proceeds p k t s act fun a => next (f a)) : Proceeds p k t s (f <$> act) next := by
  obtain ⟨a, w, c, hr, hc⟩ := h
  refine ⟨f a, w, c, ?_, hc⟩
  rw [map_eq_pure_bind, bind_of_ok _ hr]
  rfl

/-- What proceeds is a step. -/
theorem produced {act : PoolM σ α} {next : α → Stage minimum} (h : Proceeds p k t s act next) :
    ∃ c, (s.produced t (((fun a => (next a, [])) <$> act) s.world)).Orderly p k c := by
  obtain ⟨a, w, c, hr, hc⟩ := h
  refine ⟨c, ?_⟩
  rw [map_eq_pure_bind, bind_of_ok _ hr]
  exact hc

end Proceeds

namespace Orderly

theorem getPool (h : s.Orderly p k c) :
    ∃ pool, getPool p s.world = .ok pool s.world ∧ pool.minimum = minimum := by
  obtain ⟨pool, -, hpool, hmin, -, -⟩ := h.stocks.pool
  exact ⟨pool, getPool_of_some hpool, hmin⟩

theorem allocate (h : s.Orderly p k c) (ht : t ≠ k) :
    Proceeds p k t s (Pool.allocate p (SizeClass.atLeast m.size minimum)) fun r =>
      r.elim .idle (.enrolled m) := by
  unfold Pool.allocate
  apply (h.reclaim ht (.cleared m) rfl).bind
  intro _ w₁ c₁ h₁
  apply (h₁.make ht .idle rfl).bind
  intro r w₂ c₂ h₂
  cases r with
  | none => exact h₂.stays none (producers_proceed ..)
  | some b => exact .map (f := some) (h₂.enroll ht (producers_proceed ..))

/-- Staying in one critical section makes no difference. -/
theorem allocateWithin (h : s.Orderly p k c) (ht : t ≠ k) :
    Proceeds p k t s (Pool.allocateWithin p (SizeClass.atLeast m.size minimum)) fun r =>
      r.elim .idle (.enrolled m) := by
  unfold Pool.allocateWithin
  apply (h.reclaim ht (.cleared m) rfl).bind
  intro _ w₁ c₁ h₁
  apply (h₁.make ht .idle rfl).bind
  intro r w₂ c₂ h₂
  cases r with
  | none => exact h₂.stays none (producers_proceed ..)
  | some b => exact .map (f := some) (h₂.enroll ht (producers_proceed ..))

theorem provideTransientFull (h : s.Orderly p k c) (ht : t ≠ k) :
    Proceeds p k t s (Pool.provideTransientFull p m.size t) fun r =>
      r.elim .idle (.holding m) := by
  have hprovide : Proceeds p k t s (Pool.provide p m.size) fun r =>
      r.elim .idle (.enrolled m) := by
    obtain ⟨pool, hpool, hmin⟩ := h.getPool
    refine .after hpool ?_
    rw [hmin]
    exact h.allocate ht
  have hacquired : Proceeds p k t s (Pool.provideAcquired p m.size t) fun r =>
      r.elim .idle (.acquired m) := by
    apply hprovide.bind
    intro r w₁ c₁ h₁
    apply h₁.onSome
    · rintro rfl
      exact producers_proceed ..
    · rintro g rfl
      exact h₁.acquire ht (producers_proceed ..)
  have hmarked : Proceeds p k t s (Pool.provideTransient p m.size t) fun r =>
      r.elim .idle (.marked m) := by
    apply hacquired.bind
    intro r w₁ c₁ h₁
    apply h₁.onSome
    · rintro rfl
      exact producers_proceed ..
    · rintro g rfl
      exact h₁.mark ht (producers_proceed ..)
  apply hmarked.bind
  intro r w₁ c₁ h₁
  apply h₁.onSome
  · rintro rfl
    exact producers_proceed ..
  · rintro g rfl
    exact h₁.insert ht (.inr (producers_proceed ..))

theorem provideFull (h : s.Orderly p k c) (ht : t ≠ k) :
    Proceeds p k t s (Pool.provideFull p (SizeClass.atLeast m.size minimum) t) fun r =>
      r.elim .idle (.holding m) := by
  obtain ⟨pool, hpool, hmin⟩ := h.getPool
  unfold Pool.provideFull
  refine .after hpool ?_
  rw [hmin, SizeClass.atLeast_atLeast]
  apply (h.allocateWithin ht).bind
  intro r w₁ c₁ h₁
  apply h₁.onSome
  · rintro rfl
    exact producers_proceed ..
  · rintro g rfl
    apply (h₁.acquire ht (producers_proceed ..)).bind
    intro _ w₂ c₂ h₂
    exact h₂.insert ht (.inl (producers_proceed ..))

/-- A producer that finds nothing still wants a buffer. -/
theorem takeWithin (h : s.Orderly p k c) (ht : t ≠ k) (hm : m.size ≤ minimum)
    (retries remaining : Nat) :
    Proceeds p k t s (Pool.takeWithin p m.size retries t remaining) fun r =>
      r.elim (.lacking m) (.taken m) := by
  induction remaining generalizing s c with
  | zero => exact h.proceeds_to ht none _ rfl
  | succ remaining ih =>
      unfold Pool.takeWithin
      apply (h.find ht hm hm (.wanting m) rfl).bind
      intro r w₁ c₁ h₁
      cases r with
      | some g => exact h₁.stays (some g) (producers_proceed ..)
      | none =>
          apply (h₁.note ht _ (.wanting m) rfl).bind
          intro _ w₂ c₂ h₂
          exact ih h₂

theorem takeRetrying (h : s.Orderly p k c) (ht : t ≠ k) (hm : m.size ≤ minimum)
    (retries : Nat) :
    Proceeds p k t s (Pool.takeRetrying p m.size retries t) fun r =>
      r.elim (.lacking m) (.taken m) := by
  obtain ⟨pool, hpool, hmin⟩ := h.getPool
  unfold Pool.takeRetrying
  refine .after hpool ?_
  rw [hmin, decide_eq_true hm]
  exact .after (expect_true _ _) (h.takeWithin ht hm retries retries)

theorem takeToFull (h : s.Orderly p k c) (ht : t ≠ k) (hm : m.size ≤ minimum) :
    Proceeds p k t s (Pool.takeToFull p minimum t) fun r =>
      r.elim (.wanting m) (.holding m) := by
  obtain ⟨pool, hpool, hmin⟩ := h.getPool
  unfold Pool.takeToFull
  refine .after hpool ?_
  rw [hmin, decide_eq_true (UInt64.le_refl minimum)]
  refine .after (expect_true _ _) ?_
  apply (h.find ht hm (UInt64.le_refl minimum) (.wanting m) rfl).bind
  intro r w₁ c₁ h₁
  apply h₁.onSome
  · rintro rfl
    exact producers_proceed ..
  · rintro g rfl
    exact h₁.move ht (producers_proceed ..)

theorem obtainFull (h : s.Orderly p k c) (ht : t ≠ k) :
    Proceeds p k t s (Pool.obtainFull p m.size t) fun r => r.elim .idle (.holding m) := by
  obtain ⟨pool, hpool, hmin⟩ := h.getPool
  unfold Pool.obtainFull
  refine .after hpool ?_
  simp only [hmin]
  by_cases hm : m.size ≤ minimum
  · rw [SizeClass.atLeast_of_le hm, if_pos (UInt64.le_refl minimum)]
    apply (h.takeToFull ht hm).bind
    intro r w₁ c₁ h₁
    cases r with
    | some g => exact h₁.stays (some g) (producers_proceed ..)
    | none =>
        have hfull := h₁.provideFull ht (m := m)
        rwa [SizeClass.atLeast_of_le hm] at hfull
  · have hlarge : SizeClass.atLeast m.size minimum = m.size := if_neg hm
    have hfull := h.provideFull ht (m := m)
    rw [hlarge] at hfull ⊢
    rwa [if_neg hm]

/-- Producers keep a plant in order. -/
theorem produce (h : s.Orderly p k c) (ht : t ≠ k) {act : PoolM σ (Stage minimum × List Mark)}
    (hact : Produces p t (s.producers t) act) :
    ∃ c', (s.produced t (act s.world)).Orderly p k c' := by
  generalize hst : s.producers t = stage at hact
  cases hact with
  | begin m => exact (h.proceeds_to ht () (fun _ => .wanting m) rfl).produced
  | obtainFull m => exact (h.obtainFull ht).produced
  | takeRetrying m retries hm => exact (h.takeRetrying ht hm retries).produced
  | take m hm => exact (h.find ht hm hm _ rfl).produced
  | giveUp m hm => exact (h.proceeds_to ht () (fun _ => .lacking m) rfl).produced
  | move m g => exact (h.move ht hst).produced
  | provide m => exact (h.provideTransientFull ht).produced
  | reclaim m => exact (h.reclaim ht _ rfl).produced
  | make m => exact (h.make ht _ rfl).produced
  | enroll m b => exact (h.enroll ht hst).produced
  | acquire m g => exact (h.acquire ht hst).produced
  | mark m g => exact (h.mark ht hst).produced
  | insert m g => exact (h.insert ht (.inr hst)).produced
  | write m g =>
      obtain ⟨w', hr, hc⟩ := h.write ht hst
      refine ⟨c, ?_⟩
      rw [map_eq_pure_bind, bind_of_ok _ hr]
      exact hc
  | release g => exact (h.release ht hst).produced
  | drop g => exact (h.drop ht hst).produced

end Orderly

end Plant

end BufferPool
