import BufferPool.Proofs.Desk.ThreadSteps
import BufferPool.Proofs.World.Totals

/-!
# Accounts and notices

A pool tells its listener of every buffer when it is counted and when it is retired, and of every
buffer that comes into the full lane. At every scene of every run, what the pool says it has allocated
is what counts for it, and what the listener was told is what has happened.
-/

namespace BufferPool

/-- Whether the listener is told that the buffer was counted or retired. -/
def Event.notifies (b : BufferId) : Event → Bool
  | .allocated _ c _ | .deallocated _ c _ => c == b
  | _ => false

/-- What the listener was told about counting and retiring a buffer, the latest first. -/
def World.notices {σ : Type} (w : World σ) (b : BufferId) : List Event :=
  w.events.filter (Event.notifies b)

theorem World.Lived.notices {σ : Type} {w : World σ} {b : BufferId} {c : Cell} {s : Standing}
    (h : w.Lived b c s) : w.notices b = c.notices b s := by
  have hlife : w.notices b = (w.life b).filter (Event.notifies b) := by
    rw [World.notices, World.life, List.filter_filter]
    refine List.filter_congr fun e _ => ?_
    cases e <;> simp only [Event.notifies, Event.concerns, Bool.and_self, Bool.false_and]
  rw [hlife, h.life, Cell.life]
  cases s <;> by_cases hr : c.refs = 0 <;> simp [Cell.notices, Event.notifies, hr]

namespace Desk

open World

namespace Scene

/-- The buffers that count for a pool: those it has registered, and those made for it that a thread
is still to register. -/
def counted (s : Scene) (p : PoolId) : Multiset BufferId :=
  s.world.registered p + ↑(s.made.filter fun b => s.world.home? b = some p)

/-- The total size of the buffers that count for a pool. -/
def size (s : Scene) (p : PoolId) : Nat :=
  ((s.counted p).map fun b => (s.world.buffer b).totalSize.toNat).sum

end Scene

variable {s s' : Scene} {k : Books Desk}

theorem Orderly.countedFor (h : Orderly s.made k s.world) (p : PoolId) :
    s.world.countedFor k p = s.counted p := by
  rw [World.countedFor, h.adrift, Multiset.filter_coe, Scene.counted]

/-- What counts for some pool is what is counted. -/
theorem Orderly.mem_counted (h : Orderly s.made k s.world) {b : BufferId} {c : Cell}
    (hc : s.world.cells[b]? = some c) : b ∈ s.world.counted k ↔ b ∈ s.counted c.home := by
  rw [← h.countedFor, h.agrees.mem_countedFor]
  exact (and_iff_left (home?_of_getElem? hc)).symm

/-- A buffer that has been registered is not made again. -/
theorem ThreadStep.notMem_made (ha : ThreadStep s s') {b : BufferId} (hb : b < s.world.cells.size)
    (hmade : b ∉ s.made) : b ∉ s'.made := by
  cases ha with
  | make hmake =>
      rw [List.mem_cons, not_or]
      refine ⟨?_, hmade⟩
      rintro rfl
      exact Nat.lt_irrefl _ ((Pool.make_eq_ok hmake).1 ▸ hb)
  | enroll name _ _ => exact fun hin => hmade (List.mem_of_mem_erase hin)
  | _ => exact hmade

theorem Scene.Reaches.notMem_made (hs : s.Kept) (hr : s.Reaches s') {b : BufferId}
    (hb : b < s.world.cells.size) (hmade : b ∉ s.made) : b ∉ s'.made := by
  induction hr with
  | refl => exact hmade
  | tail hr ha ih =>
      have hc := Array.getElem?_eq_getElem hb
      obtain ⟨c', hc', -⟩ := (Scene.Reaches.follows hs hr).cells b _ hc
      exact ha.notMem_made (Array.getElem?_eq_some_iff.1 hc').choose ih

/-- The listener of its pool was told that the buffer was counted, and no more. -/
def Entered (s : Scene) (p : PoolId) (b : BufferId) (total : UInt64) : Prop :=
  s.world.notices b = [.allocated p b total]

/-- The listener of its pool was told that the buffer was counted, and later that it was retired. -/
def Departed (s : Scene) (p : PoolId) (b : BufferId) (total : UInt64) : Prop :=
  s.world.notices b = [.deallocated p b total, .allocated p b total]

/-- Every buffer counts for its pool, or has departed from it, or its set-up was refused. -/
theorem Scene.Kept.standing (hs : s.Kept) {b : BufferId} {c : Cell}
    (hc : s.world.cells[b]? = some c) :
    (b ∈ s.counted c.home ∧ Entered s c.home b c.buffer.totalSize) ∨
    (b ∉ s.counted c.home ∧ Departed s c.home b c.buffer.totalSize) ∨
    (b ∉ s.counted c.home ∧ s.world.notices b = []) := by
  obtain ⟨k, h⟩ := hs
  obtain ⟨standing, hlived, hin⟩ := h.agrees.past.life b c hc
  rw [h.mem_counted hc] at hin
  have hnotices := hlived.notices
  cases standing with
  | refused => exact .inr (.inr ⟨fun hb => (nomatch hin.2 hb), hnotices⟩)
  | counted => exact .inl ⟨hin.1 rfl, hnotices⟩
  | retired => exact .inr (.inl ⟨fun hb => (nomatch hin.2 hb), hnotices⟩)

/-- What is registered is not made as well. -/
theorem Orderly.notMem_made (h : Orderly s.made k s.world) {p : PoolId} {b : BufferId}
    (hb : b ∈ s.world.registered p) : b ∉ s.made := by
  intro hmade
  have hnodup := h.agrees.nodup
  rw [World.counted, h.adrift] at hnodup
  exact Multiset.disjoint_left.1 (Multiset.nodup_add.1 hnodup).2.2 (mem_enrolled.2 ⟨p, hb⟩) hmade

/-- A registered buffer was announced as counted, and at any later time it still is, or it has
departed with the size that was announced, and for good if the pool is closed. -/
theorem Scene.Reaches.registered_or_departed (hs : s.Kept) (hr : s.Reaches s') {p : PoolId}
    {b : BufferId} (hb : b ∈ s.world.registered p) :
    (b ∈ s'.world.registered p ∧ (s'.world.pool? p).isSome = true ∧
      Entered s' p b (s.world.buffer b).totalSize) ∨
    (∀ q, b ∉ s'.world.registered q) ∧ Departed s' p b (s.world.buffer b).totalSize := by
  have hbooks := hs
  obtain ⟨k, h⟩ := hbooks
  have hkept : s'.Kept := Scene.Reaches.kept hs hr
  have hbooks' := hkept
  obtain ⟨k', h'⟩ := hbooks'
  have hfollows := Scene.Reaches.follows hs hr
  obtain ⟨c, hc, rfl⟩ := Option.map_eq_some_iff.1 (h.agrees.registered p b hb)
  have hlt := (Array.getElem?_eq_some_iff.1 hc).choose
  obtain ⟨c', hc', hreworked⟩ := hfollows.cells b c hc
  have htotal : c'.buffer.totalSize = (s.world.buffer b).totalSize := by
    obtain ⟨acts, ha⟩ := hreworked.buffer
    rw [ha, Buffer.totalSize_perform, buffer_of_getElem? hc]
  have hentered : s.world.notices b ≠ [] := by
    rcases hs.standing hc with ⟨-, he⟩ | ⟨hnot, -⟩ | ⟨hnot, -⟩
    · exact fun hnil => nomatch he.symm.trans hnil
    · exact absurd (Multiset.mem_add.2 (.inl hb)) hnot
    · exact absurd (Multiset.mem_add.2 (.inl hb)) hnot
  have hstanding := hkept.standing hc'
  rw [hreworked.home, htotal] at hstanding
  rcases hstanding with ⟨hin, he⟩ | ⟨hnot, hd⟩ | ⟨-, hnil⟩
  · have hreg : b ∈ s'.world.registered c.home := by
      refine (Multiset.mem_add.1 hin).resolve_right fun hmade => ?_
      have hmade' := (List.mem_filter.1 (Multiset.mem_coe.1 hmade)).1
      exact Scene.Reaches.notMem_made hs hr hlt (h.notMem_made hb) hmade'
    refine .inl ⟨hreg, ?_, he⟩
    cases hp : s'.world.pool? c.home with
    | none =>
        have harena : s'.world.arena? c.home = none := by
          rw [arena?, hp]
          rfl
        rw [registered_of_none harena] at hreg
        exact absurd hreg (Multiset.notMem_zero b)
    | some pool => rfl
  · refine .inr ⟨fun q hq => ?_, hd⟩
    have hhome := h'.agrees.registered q b hq
    rw [home?_of_getElem? hc', hreworked.home, Option.some.injEq] at hhome
    exact hnot (Multiset.mem_add.2 (.inl (hhome ▸ hq)))
  · -- What the listener was told is not taken back.
    obtain ⟨added, hadded⟩ := hfollows.events
    rw [World.notices, ← hadded, List.filter_append, List.append_eq_nil_iff] at hnil
    exact absurd hnil.2 hentered

/-- At every scene of a run the account of every pool is the total size of what counts for it, which
is the difference of what its listener was told. While no thread has a buffer to register, only what
is registered counts. Each buffer is announced as counted once and as retired at most once. By any step
of a thread, either nothing comes into a full lane and nothing is announced as published, or one buffer
comes into the full lane of one pool and one announcement is made there. -/
theorem accounts_balanced {profile : Profile} {format : Format} {maker : Supply} {s : Scene}
    (hs : (Scene.empty profile format maker).Reaches s) :
    (∀ p pool, s.world.pool? p = some pool → pool.allocated = UInt64.ofNat (s.size p)) ∧
    (∀ p, s.world.allocatedTotal p = s.world.deallocatedTotal p + s.size p) ∧
    (s.made = [] → ∀ p, s.counted p = s.world.registered p) ∧
    (∀ b c, s.world.cells[b]? = some c →
      (b ∈ s.counted c.home ∧ Entered s c.home b c.buffer.totalSize) ∨
      (b ∉ s.counted c.home ∧ Departed s c.home b c.buffer.totalSize) ∨
      (b ∉ s.counted c.home ∧ s.world.notices b = [])) ∧
    (∀ p, ∀ b ∈ s.world.registered p, ∀ s', s.Reaches s' →
      (b ∈ s'.world.registered p ∧ (s'.world.pool? p).isSome = true ∧
        Entered s' p b (s.world.buffer b).totalSize) ∨
      (∀ q, b ∉ s'.world.registered q) ∧ Departed s' p b (s.world.buffer b).totalSize) ∧
    ∀ s', ThreadStep s s' →
      Fades s.world s'.world ∨ ∃ p b, Publishes p b s.world s'.world := by
  have hkept : s.Kept := Scene.Reaches.kept (kept_empty profile format maker) hs
  have hbooks := hkept
  obtain ⟨k, h⟩ := hbooks
  refine ⟨fun p pool hp => ?_, fun p => ?_, fun hmade p => ?_, fun b c hc => hkept.standing hc,
    fun p b hb s' hr => Scene.Reaches.registered_or_departed hkept hr hb, fun s' ha => ?_⟩
  · have hallocated : s.world.allocated? p = some pool.allocated := by
      rw [allocated?, hp]
      rfl
    rw [Scene.size, ← h.countedFor]
    exact h.agrees.allocated?_eq hallocated
  · rw [Scene.size, ← h.countedFor]
    exact h.agrees.allocatedTotal_eq p
  · rw [Scene.counted, hmade]
    exact add_zero _
  · obtain ⟨m, hsince⟩ := ha.since hkept
    cases m with
    | steady => exact .inl (Still.fades hsince)
    | fading => exact .inl hsince
    | publishing =>
        rcases hsince with hstill | hpublishes
        · exact .inl hstill.fades
        · exact .inr hpublishes

/-- A buffer is published, and later released and retired. -/
theorem published_and_retired :
    let w := performAll 0 0 [.build .standard false, .obtain .provideFull 100 none (some "a")]
      (.empty .checked .plain (.within none) .empty)
    let w' := performAll 0 0
      [.onBuffer (.named "a") .release, .give (.named "a") false (.release .full)] w
    0 ∈ w.registered 0 ∧ (w.buffer 0).totalSize = 4168 ∧ Departed ⟨w', []⟩ 0 0 4168 := by
  intro w w'
  have hrun : (Scene.empty .checked .plain (.within none)).Reaches ⟨w, []⟩ :=
    reaches_performAll 0 0 _ _
  have hmore : Scene.Reaches ⟨w, []⟩ ⟨w', []⟩ := reaches_performAll 0 0 _ _
  have hregistered : 0 ∈ w.registered 0 := by decide +kernel
  have htotal : (w.buffer 0).totalSize = 4168 := by decide +kernel
  have hgone : 0 ∉ (Scene.mk w' []).world.registered 0 := by decide +kernel
  obtain ⟨-, -, -, -, hlater, -⟩ := accounts_balanced hrun
  rcases hlater 0 0 hregistered _ hmore with ⟨hin, -⟩ | ⟨-, hdeparted⟩
  · exact absurd hin hgone
  · refine ⟨hregistered, htotal, ?_⟩
    rw [← htotal]
    exact hdeparted

end Desk

end BufferPool
