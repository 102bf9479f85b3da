import BufferPool.Proofs.Desk.Accounting

/-!
# The life of a payload

A payload is granted by the heap of a pool and goes back to it when nothing refers to its buffer any
more: no arena, no handle, and no thread that is still to register it. Handles outlive pools, and so
do the payloads behind them.
-/

namespace BufferPool.Desk

open World

/-- All references at a scene, each by its buffer: the entries of arenas, the buffers that threads are
still to register, and the handles of the desk and of traversals. -/
def Scene.references (s : Scene) : Multiset BufferId :=
  s.world.enrolled + ↑s.made + ↑(s.world.handles.map (·.buffer))

/-- How far a buffer has come, and all events of its payload and of its account up to now, the latest
first. -/
inductive Scene.Fate (s : Scene) (b : BufferId) (c : Cell) : Prop where
  /-- Its set-up was refused, and then the payload was freed at once. -/
  | refused (hrefs : b ∉ s.references)
      (hlife : s.world.life b = [.freed c.home b c.tag c.buffer.capacity,
        .granted c.home b c.tag c.buffer.capacity])
      (hnow : ∃ later earlier, s.world.events = later ++
        [.freed c.home b c.tag c.buffer.capacity, .granted c.home b c.tag c.buffer.capacity] ++
        earlier)
  /-- It counts for its pool. -/
  | counted (hin : b ∈ s.counted c.home)
      (hlife : s.world.life b = [.allocated c.home b c.buffer.totalSize,
        .granted c.home b c.tag c.buffer.capacity])
  /-- It was retired, but there are still handles. -/
  | outlasting (hout : b ∉ s.counted c.home) (hrefs : b ∈ s.references)
      (hlife : s.world.life b = [.deallocated c.home b c.buffer.totalSize,
        .allocated c.home b c.buffer.totalSize, .granted c.home b c.tag c.buffer.capacity])
  /-- Nothing refers to it any more. -/
  | settled (hrefs : b ∉ s.references)
      (hlife : s.world.life b = [.freed c.home b c.tag c.buffer.capacity,
        .deallocated c.home b c.buffer.totalSize, .allocated c.home b c.buffer.totalSize,
        .granted c.home b c.tag c.buffer.capacity])

variable {s s' : Scene} {k : Books Desk}

theorem Orderly.references (h : Orderly s.made k s.world) :
    s.world.references k = s.references := by
  rw [World.references, World.counted, h.adrift, h.hand, add_zero]
  rfl

theorem Orderly.refs_eq (h : Orderly s.made k s.world) (b : BufferId) :
    s.world.refs b = s.references.count b := by
  rw [h.agrees.refs, h.references]

theorem Scene.mem_references_of_counted {p : PoolId} {b : BufferId} (hb : b ∈ s.counted p) :
    b ∈ s.references := by
  refine Multiset.mem_add.2 (.inl ?_)
  rcases Multiset.mem_add.1 hb with hb | hb
  · exact Multiset.mem_add.2 (.inl (mem_enrolled.2 ⟨p, hb⟩))
  · exact Multiset.mem_add.2 (.inr (List.mem_filter.1 (Multiset.mem_coe.1 hb)).1)

theorem Orderly.fate (h : Orderly s.made k s.world) {b : BufferId} {c : Cell}
    (hc : s.world.cells[b]? = some c) : s.Fate b c := by
  obtain ⟨standing, hlived, hin⟩ := h.agrees.past.life b c hc
  rw [h.mem_counted hc] at hin
  have hlife := hlived.life
  have hrefs : c.refs ≠ 0 ↔ b ∈ s.references := by
    rw [← refs_of_getElem? hc, h.refs_eq, Multiset.count_ne_zero]
  cases standing with
  | refused =>
      obtain ⟨hzero, later, earlier, he⟩ := hlived.refused rfl
      rw [Cell.life, if_pos hzero] at hlife
      refine .refused (fun hb => hrefs.2 hb hzero) hlife ⟨later, earlier, ?_⟩
      rw [he, List.append_assoc]
      rfl
  | counted =>
      have hb := hin.1 rfl
      rw [Cell.life, if_neg (hrefs.2 (Scene.mem_references_of_counted hb))] at hlife
      exact .counted hb hlife
  | retired =>
      have hout : b ∉ s.counted c.home := by
        intro hb
        cases hin.2 hb
      by_cases hzero : c.refs = 0
      · rw [Cell.life, if_pos hzero] at hlife
        exact .settled (fun hb => hrefs.2 hb hzero) hlife
      · rw [Cell.life, if_neg hzero] at hlife
        exact .outlasting hout (hrefs.1 hzero) hlife

/-- The payload of what is referred to has not been freed. -/
theorem Scene.Fate.not_freed {b : BufferId} {c : Cell} (h : s.Fate b c) (hb : b ∈ s.references)
    (p : PoolId) (tag : Option Nat) (size : UInt64) : .freed p b tag size ∉ s.world.events := by
  intro he
  have hmem : .freed p b tag size ∈ s.world.life b :=
    List.mem_filter.2 ⟨he, beq_self_eq_true b⟩
  cases h with
  | refused hrefs _ _ => exact hrefs hb
  | counted _ hlife => simp [hlife] at hmem
  | outlasting _ _ hlife => simp [hlife] at hmem
  | settled hrefs _ => exact hrefs hb

/-- The payload of what is not referred to has been freed. -/
theorem Scene.Fate.freed {b : BufferId} {c : Cell} (h : s.Fate b c) (hb : b ∉ s.references) :
    .freed c.home b c.tag c.buffer.capacity ∈ s.world.events := by
  have hmem : .freed c.home b c.tag c.buffer.capacity ∈ s.world.life b := by
    cases h with
    | refused _ hlife _ => exact hlife ▸ List.mem_cons_self
    | counted hin _ => exact absurd (mem_references_of_counted hin) hb
    | outlasting _ hrefs _ => exact absurd hrefs hb
    | settled _ hlife => exact hlife ▸ List.mem_cons_self
  exact List.mem_of_mem_filter hmem

/-- What is not referred to never will be, since its payload is gone. -/
theorem Scene.Reaches.notMem_references (hs : s.Kept) (hr : s.Reaches s') {b : BufferId}
    (hlt : b < s.world.cells.size) (hb : b ∉ s.references) : b ∉ s'.references := by
  obtain ⟨k', h'⟩ := Scene.Reaches.kept hs hr
  obtain ⟨k, h⟩ := hs
  have hc := Array.getElem?_eq_getElem hlt
  have hfollows := Scene.Reaches.follows ⟨k, h⟩ hr
  obtain ⟨c', hc', -⟩ := hfollows.cells b _ hc
  have hfreed := (h.fate hc).freed hb
  exact fun hin => (h'.fate hc').not_freed hin _ _ _ (hfollows.events.subset hfreed)

/-- The heap of a pool has granted what has come back to it and what is still referred to. -/
theorem Orderly.grantedTotal_eq (h : Orderly s.made k s.world) (p : PoolId) :
    s.world.grantedTotal p = s.world.freedTotal p +
      ∑ b ∈ s.references.toFinset with s.world.home? b = some p,
        (s.world.buffer b).capacity.toNat := by
  rw [h.agrees.past.grantedTotal_eq, ← Finset.sum_filter]
  congr 1
  refine Finset.sum_congr (Finset.ext fun b => ?_) fun _ _ => rfl
  rw [Finset.mem_filter, Finset.mem_filter, Finset.mem_range, Multiset.mem_toFinset, h.refs_eq,
    Multiset.count_ne_zero]
  exact and_iff_right_of_imp fun hb => lt_size_of_home? hb.2

/-- Without pools, handles and made buffers there are no references. -/
theorem Scene.references_eq_zero (hpools : ∀ p, s.world.pool? p = none) (hmade : s.made = [])
    (hhandles : s.world.handles = []) : s.references = 0 := by
  have henrolled : s.world.enrolled = 0 := by
    apply Finset.sum_eq_zero
    intro p _
    apply registered_of_none
    rw [arena?, hpools]
    rfl
  rw [references, henrolled, hmade, hhandles]
  rfl

theorem outstanding_eq_zero {w : World Desk} (hrefs : ∀ b, w.refs b = 0) : w.outstanding = 0 :=
  outstanding_congr (w := { w with cells := #[] }) (fun _ hb => absurd hb (Nat.not_lt_zero _))
    fun b _ => hrefs b

/-- At every scene of a run each buffer has its events in their order, and its payload was freed once
if nothing refers to it, which is then so for good, and not at all otherwise. What the heap of a pool
has granted is what was freed to it and the capacities of what is referred to. No handle refers to a
buffer whose payload was freed, and if there are no pools, handles and made buffers, then nothing is
outstanding. -/
theorem payloads_accounted {profile : Profile} {format : Format} {maker : Supply} {s : Scene}
    (hs : (Scene.empty profile format maker).Reaches s) :
    (∀ b c, s.world.cells[b]? = some c → c.refs = s.references.count b ∧ s.Fate b c) ∧
    (∀ b, s.world.cells.size ≤ b → s.world.life b = []) ∧
    (∀ b, b < s.world.cells.size → b ∉ s.references → ∀ s', s.Reaches s' → b ∉ s'.references) ∧
    (∀ p, s.world.grantedTotal p = s.world.freedTotal p +
      ∑ b ∈ s.references.toFinset with s.world.home? b = some p,
        (s.world.buffer b).capacity.toNat) ∧
    (∀ h ∈ s.world.handles, ∀ p tag size, .freed p h.buffer tag size ∉ s.world.events) ∧
    ((∀ p, s.world.pool? p = none) → s.made = [] → s.world.handles = [] →
      (∀ p, s.world.grantedTotal p = s.world.freedTotal p) ∧ s.world.outstanding = 0) := by
  have hkept : s.Kept := Scene.Reaches.kept (kept_empty profile format maker) hs
  have hbooks := hkept
  obtain ⟨k, h⟩ := hbooks
  refine ⟨fun b c hc => ⟨?_, h.fate hc⟩, h.agrees.past.unborn,
    fun b hb hnot s' hr => Scene.Reaches.notMem_references hkept hr hb hnot, h.grantedTotal_eq,
    fun g hg => ?_, fun hpools hmade hhandles => ?_⟩
  · rw [← refs_of_getElem? hc, h.refs_eq]
  · have hin : g.buffer ∈ s.references :=
      Multiset.mem_add.2 (.inr (List.mem_map_of_mem hg))
    obtain ⟨c, hc, -⟩ := h.agrees.exists_of_mem (h.references ▸ hin)
    exact (h.fate hc).not_freed hin
  · have hnone := Scene.references_eq_zero hpools hmade hhandles
    refine ⟨fun p => ?_, outstanding_eq_zero fun b => ?_⟩
    · rw [h.grantedTotal_eq, hnone]
      rfl
    · rw [h.refs_eq, hnone, Multiset.count_zero]

/-- A handle outlasts the registration of its buffer and the pool, and takes the payload along in the
end. -/
theorem payload_outlasts_pool :
    let w := performAll 0 0 [.build .standard false, .obtain .allocate 100 none (some "a"),
      .give (.named "a") true .deallocate, .close] (.empty .checked .plain (.within none) .empty)
    let w' := performAll 0 0 [.discard (.named "a")] w
    (w.pool? 0 = none ∧ ⟨0, ⟨0, 0⟩, 0⟩ ∈ w.handles ∧ .freed 0 0 none 4096 ∉ w.events) ∧
      .freed 0 0 none 4096 ∈ w'.events ∧ w'.grantedTotal 0 = w'.freedTotal 0 ∧
        w'.outstanding = 0 := by
  intro w w'
  have hrun : (Scene.empty .checked .plain (.within none)).Reaches ⟨w, []⟩ :=
    reaches_performAll 0 0 _ _
  have hrun' : (Scene.empty .checked .plain (.within none)).Reaches ⟨w', []⟩ :=
    hrun.trans (reaches_performAll 0 0 _ _)
  have hclosed : w.pools.size = 1 ∧ (w.pool? 0).isNone = true := by decide +kernel
  have hclosed' : w'.pools.size = 1 ∧ (w'.pool? 0).isNone = true := by decide +kernel
  have hhandle : ⟨0, ⟨0, 0⟩, 0⟩ ∈ w.handles := by decide +kernel
  have hnone : w'.handles = [] := by decide +kernel
  have hfreed : .freed 0 0 none 4096 ∈ w'.events := by decide +kernel
  have hpools : ∀ p, w'.pool? p = none := by
    intro p
    cases p with
    | zero => exact Option.isNone_iff_eq_none.1 hclosed'.2
    | succ p =>
        rw [pool?, Array.getElem?_eq_none_iff.2 (hclosed'.1.symm ▸ Nat.le_add_left 1 p)]
        rfl
  obtain ⟨-, -, -, -, hlive, -⟩ := payloads_accounted hrun
  obtain ⟨-, -, -, -, -, hgone⟩ := payloads_accounted hrun'
  obtain ⟨htotal, hout⟩ := hgone hpools rfl hnone
  exact ⟨⟨Option.isNone_iff_eq_none.1 hclosed.2, hhandle, hlive _ hhandle 0 none 4096⟩, hfreed,
    htotal 0, hout⟩

end BufferPool.Desk
