import BufferPool.Proofs.Desk.ThreadSteps
import BufferPool.Proofs.Pool.Locks

/-!
# Sweeps that move to another thread

A sweep may be run by another thread than the one that made it. Then it comes to its end on every
buffer that somebody owns, and where it ends it has not locked anything. But the first buffer that
lasts and that nobody owns is acquired for the thread that made the sweep, and cannot be emptied by the
thread that runs it. There the sweep faults, and the buffer stays locked.
-/

namespace BufferPool.Desk

open PoolM World Sweep

/-- What a visit does to a buffer that lasts. If the sweep is run by the thread that made it, or if the
buffer is owned, then the visit comes to its end: the buffer is left to another thread that owns it, or
it is emptied and nobody owns it any more. If the sweep has moved to another thread and nobody owns the
buffer, then the visit faults and has locked the buffer for the thread that made the sweep. There is no
other way to be locked: passes of a sweep, wherever they stop, do not lock any buffer, unless they fault
on another thread than the one that made the sweep, which then owns what it has locked. -/
theorem locks_of_visit {σ : Type} {w : World σ} (s : Sweep) (me : Thread) (h : Handle)
    (hlt : h.buffer < w.cells.size) (hlasting : (w.buffer h.buffer).transient = false) :
    (s.maker = me ∨ (w.buffer h.buffer).owner ≠ none →
      ∃ s' f, s.visit me h w = .ok (true, s') (w.modifyBuffer h.buffer f) ∧
        ((∃ t, (w.buffer h.buffer).owner = some t ∧ t ≠ me ∧ s' = s ∧ f = Buffer.countAttempt ∧
            ((w.buffer h.buffer).meter = none → w.modifyBuffer h.buffer f = w)) ∨
          ((w.buffer h.buffer).owner = none ∨ (w.buffer h.buffer).owner = some me) ∧
            s' = s.counted ∧
            (w.buffer h.buffer).Emptied ((w.modifyBuffer h.buffer f).buffer h.buffer))) ∧
    (s.maker ≠ me → (w.buffer h.buffer).owner = none →
      s.visit me h w =
        .error .resetByOther (w.modifyBuffer h.buffer fun b => b.countAttempt.claim s.maker)) ∧
    ∀ route dir n b, (w.buffer b).owner = none →
      (∀ counts w', passes me route dir n s w = .ok counts w' → (w'.buffer b).owner = none) ∧
      ∀ fault w', passes me route dir n s w = .error fault w' →
        (w'.buffer b).owner = none ∨ s.maker ≠ me ∧ (w'.buffer b).owner = some s.maker := by
  refine ⟨fun hends => ?ends, fun hmaker hfree => visit_of_stranger hmaker hlasting hfree hlt,
    fun route dir n b hfree => ⟨fun counts w' hr => ?passes, fun fault w' hr => ?faults⟩⟩
  case ends =>
    have hvisit : s.visit me h w =
        .ok (true, if recycles me (w.buffer h.buffer) then s.counted else s)
          (w.modifyBuffer h.buffer (swept me)) := by
      rcases hends with hmaker | howned
      · exact visit_of_lasting hmaker hlasting hlt
      · obtain ⟨t, howner⟩ := Option.ne_none_iff_exists'.1 howned
        exact visit_of_owned hlasting howner
    rcases kinds me (w.buffer h.buffer) with hone | hr | hs
    · exact absurd hone (Bool.eq_false_iff.1 hlasting)
    · rw [if_pos hr] at hvisit
      refine ⟨_, _, hvisit, .inr ⟨(recycles_iff.1 hr).2, rfl, ?_⟩⟩
      rw [buffer_modifyBuffer_self _ hlt]
      exact emptied_swept hr
    · obtain ⟨-, t, howner, hne⟩ := skips_iff.1 hs
      refine ⟨_, _, visit_of_skips hs, .inl ⟨t, howner, hne, rfl, rfl, fun hplain => ?_⟩⟩
      apply modifyBuffer_self
      rw [Buffer.countAttempt, hplain]
      exact congrArg (fun meter => { w.buffer h.buffer with meter := meter }) hplain.symm
  case passes =>
    have hpasses := triple_locks_passes me route dir n s b w hfree
    rwa [hr] at hpasses
  case faults =>
    have hpasses := triple_locks_passes me route dir n s b w hfree
    rwa [hr] at hpasses

/-- Thread 0 has published a buffer and is not done with it. A sweep that thread 1 made is run by thread
0, which empties the buffer, for it owns the buffer itself. -/
theorem own_buffer_unlocked :
    let w := performAll 0 0 [.build .standard false, .obtain .provideFull 100 none (some "a"),
      .onBuffer (.named "a") (.write [104, 105])] (.empty .checked .plain (.within none) .empty)
    let sweep : Sweep := ⟨0, .full, 1, 0⟩
    let handle : Handle := ⟨0, ⟨0, 0⟩, 0⟩
    (0 < w.cells.size ∧ (w.buffer 0).transient = false ∧ (w.buffer 0).owner = some 0) ∧
      ∃ f, sweep.visit 0 handle w = .ok (true, sweep.counted) (w.modifyBuffer 0 f) ∧
        (w.buffer 0).Emptied ((w.modifyBuffer 0 f).buffer 0) := by
  intro w sweep handle
  have hstate : 0 < w.cells.size ∧ (w.buffer 0).transient = false ∧
      (w.buffer 0).owner = some 0 := by decide +kernel
  clear_value w
  obtain ⟨hlt, hlasting, howner⟩ := hstate
  obtain ⟨hends, -⟩ := locks_of_visit sweep 0 handle hlt hlasting
  have howned : (w.buffer 0).owner ≠ none := howner ▸ Option.some_ne_none 0
  obtain ⟨s', f, hr, ⟨t, ht, hne, -⟩ | ⟨-, rfl, hemptied⟩⟩ := hends (.inr howned)
  · exact absurd (Option.some.inj (ht.symm.trans howner)) hne
  · exact ⟨⟨hlt, hlasting, howner⟩, f, hr, hemptied⟩

/-- Thread 0 has published a buffer, written to it, flushed and released it. It runs a sweep that thread
1 made, and the sweep locks the buffer for thread 1. The two bytes are still in the buffer, and no sweep
of thread 0 will empty it. -/
theorem moved_sweep_locks :
    let w := performAll 0 0 [.build .standard false, .obtain .provideFull 100 none (some "a"),
      .onBuffer (.named "a") (.write [104, 105]), .onBuffer (.named "a") .flush,
      .onBuffer (.named "a") .release] (.empty .checked .plain (.within none) .empty)
    let sweep : Sweep := ⟨0, .full, 1, 0⟩
    let w' := (passes 0 .full .forward 1 sweep).leaves w
    ((w.buffer 0).transient = false ∧ (w.buffer 0).owner = none) ∧
    (passes 0 .full .forward 1 sweep).run' w = none ∧
    (w'.buffer 0).owner = some 1 ∧ (w'.buffer 0).isEmpty = false ∧
    (passes 0 .full .forward 3 ⟨0, .full, 0, 0⟩).run' w' = some [0, 0, 0] := by
  decide +kernel

end BufferPool.Desk
