import BufferPool.Pool.Lists
import BufferPool.Proofs.World.Outcome

/-!
# How the operations of a pool end

The answers of single operations and what they do to the cells, when the pool is there and the request
makes sense. What they leave alone is the subject of `BufferPool.Proofs.World.Quiet`.
-/

namespace BufferPool.Pool

open PoolM

variable {σ : Type}

theorem checkOwner_of_eq {w : World σ} {p : PoolId} {h : Handle} (hh : h.pool = p) :
    checkOwner p h w = .ok () w := by
  subst hh
  unfold checkOwner
  rw [bne_self_eq_false]
  rfl

theorem retire_ok (p : PoolId) (b : BufferId) (w : World σ) :
    ∃ w', retire p b w = .ok () w' ∧ w'.cells = w.cells :=
  ⟨_, rfl, rfl⟩

theorem retireAll_ok (p : PoolId) (buffers : List BufferId) (w : World σ) :
    ∃ w', retireAll p buffers w = .ok () w' := by
  induction buffers generalizing w with
  | nil => exact ⟨w, rfl⟩
  | cons b rest ih =>
      obtain ⟨w₁, hr, -⟩ := retire_ok p b w
      obtain ⟨w₂, hrest⟩ := ih (w₁.drop b)
      refine ⟨w₂, ?_⟩
      unfold retireAll
      rw [bind_of_ok _ hr]
      exact hrest

/-- Nothing is reclaimed from a pool without detached buffers. -/
theorem reclaim_of_detached_eq_zero {w : World σ} {p : PoolId} {pool : Pool}
    (hp : w.pool? p = some pool) (hd : pool.arena.detached = 0) : reclaim p w = .ok () w := by
  have hget : (MonadState.get : PoolM σ (World σ)) w = .ok w w := rfl
  have hon : onArena p (fun arena => arena.reclaim fun b => w.refs b == 1) w =
      .ok [] (w.setArena p pool.arena) := onArena_of_ok hp (if_pos hd)
  rw [World.setArena, World.modifyPool_eq_self hp rfl] at hon
  unfold reclaim
  rw [bind_of_ok _ hget, bind_of_ok _ hon]
  rfl

/-- A payload is granted, with a fresh buffer around it. -/
theorem requestPayload_of_grants {w : World σ} {p : PoolId} {pool : Pool} {capacity : UInt64}
    (hp : w.pool? p = some pool) (hg : pool.heap.supply.grants capacity = true) :
    ∃ tag w', requestPayload p capacity w = .ok (some w.cells.size) w' ∧
      w'.cells = w.cells.push ⟨.fresh w.format capacity, 1, p, tag⟩ ∧
      w'.events = .granted p w.cells.size tag capacity :: w.events ∧
      w'.format = w.format ∧ w'.maker = w.maker := by
  unfold requestPayload
  rw [bind_of_ok _ (getPool_of_some hp)]
  simp only [hg, if_true]
  exact ⟨_, _, rfl, rfl, rfl, rfl, rfl⟩

/-- A payload is not granted, and the event says whether the limits of the heap permit it. -/
theorem requestPayload_of_denied {w : World σ} {p : PoolId} {pool : Pool} {capacity : UInt64}
    (hp : w.pool? p = some pool) (hg : ¬ pool.heap.supply.grants capacity = true) :
    ∃ w', requestPayload p capacity w = .ok none w' ∧ w'.cells = w.cells ∧
      w'.events = (if pool.heap.supply.permits capacity then .unserved p capacity
        else .refused p capacity) :: w.events := by
  unfold requestPayload
  rw [bind_of_ok _ (getPool_of_some hp)]
  simp only [hg]
  exact ⟨_, rfl, rfl, rfl⟩

theorem prepare_ok (w : World σ) (capacity : UInt64) :
    ∃ ready w', prepare capacity w = .ok ready w' ∧ w'.cells = w.cells := by
  have hget : (MonadState.get : PoolM σ (World σ)) w = .ok w w := rfl
  unfold prepare
  rw [bind_of_ok _ hget]
  cases w.format with
  | plain => exact ⟨_, _, rfl, rfl⟩
  | metered => exact ⟨_, _, rfl, rfl⟩

/-- A request that has a class ends with a new buffer of the class or without one. -/
theorem make_of_class {w : World σ} {p : PoolId} {pool : Pool} {requested capacity : UInt64}
    (hp : w.pool? p = some pool)
    (hclass : SizeClass.ofRequest? requested pool.minimum = some capacity) :
    (∃ w', make p requested w = .ok none w' ∧ ∀ b, b < w.cells.size → w'.cells[b]? = w.cells[b]?) ∨
    ∃ tag w', make p requested w = .ok (some w.cells.size) w' ∧
      w'.cells = w.cells.push ⟨.fresh w.format capacity, 1, p, tag⟩ := by
  unfold make
  rw [bind_of_ok _ (getPool_of_some hp)]
  simp only [hclass]
  by_cases hg : pool.heap.supply.grants capacity = true
  · obtain ⟨tag, w₁, hr, hcells, -⟩ := requestPayload_of_grants hp hg
    obtain ⟨ready, w₂, hprep, hcells₂⟩ := prepare_ok w₁ capacity
    rw [bind_of_ok _ hr]
    dsimp only
    rw [bind_of_ok _ hprep]
    cases ready with
    | true => exact .inr ⟨tag, _, rfl, hcells₂.trans hcells⟩
    | false =>
        refine .inl ⟨w₂.drop w.cells.size, rfl, fun b hb => ?_⟩
        rw [World.getElem?_drop, if_neg (Nat.ne_of_lt hb), hcells₂, hcells,
          Array.getElem?_push_lt hb, Array.getElem?_eq_getElem hb]
  · obtain ⟨w₁, hr, hcells, -⟩ := requestPayload_of_denied hp hg
    rw [bind_of_ok _ hr]
    refine .inl ⟨_, rfl, fun b _ => ?_⟩
    change w₁.cells[b]? = _
    rw [hcells]

/-- A request that has no class gets no buffer. -/
theorem make_of_no_class {w : World σ} {p : PoolId} {pool : Pool} {requested : UInt64}
    (hp : w.pool? p = some pool) (hclass : SizeClass.ofRequest? requested pool.minimum = none)
    (b : BufferId) (w' : World σ) : make p requested w ≠ .ok (some b) w' := by
  intro hm
  unfold make at hm
  rw [bind_of_ok _ (getPool_of_some hp)] at hm
  simp only [hclass] at hm
  cases hprof : w.profile with
  | checked =>
      rw [bind_of_error _ (expect_of_checked _ hprof)] at hm
      exact nomatch hm
  | unchecked =>
      rw [bind_of_ok _ (expect_of_unchecked _ _ hprof)] at hm
      exact nomatch hm

/-- A buffer that is made is the next one. -/
theorem make_eq_ok {w w' : World σ} {p : PoolId} {requested : UInt64} {b : BufferId}
    (h : make p requested w = .ok (some b) w') : b = w.cells.size ∧ w'.cells.size = b + 1 := by
  cases hp : w.pool? p with
  | none =>
      unfold make at h
      rw [bind_of_error _ (getPool_of_none hp)] at h
      exact nomatch h
  | some pool =>
      cases hclass : SizeClass.ofRequest? requested pool.minimum with
      | none => exact absurd h (make_of_no_class hp hclass b w')
      | some capacity =>
          rcases make_of_class hp hclass with ⟨w₁, hr, -⟩ | ⟨tag, w₁, hr, hcells⟩
          · exact nomatch h.symm.trans hr
          · obtain ⟨hb, rfl⟩ := EStateM.Result.ok.inj (h.symm.trans hr)
            rw [Option.some.inj hb, hcells, Array.size_push]
            exact ⟨rfl, rfl⟩

theorem firstFit_mem {size : UInt64} {t : Thread} {entries : List (Arena.Key × BufferId)}
    {w w' : World σ} {entry : Arena.Key × BufferId}
    (h : firstFit size t entries w = .ok (some entry) w') : entry ∈ entries := by
  induction entries generalizing w with
  | nil => exact nomatch h
  | cons head rest ih =>
      obtain ⟨key, b⟩ := head
      obtain ⟨buffer, w₁, -, h₁⟩ := bind_eq_ok h
      split_ifs at h₁ with hretired
      · exact List.mem_cons_of_mem _ (ih h₁)
      · obtain ⟨won, w₂, -, h₂⟩ := bind_eq_ok h₁
        split_ifs at h₂ with hwon
        · obtain ⟨acquired, w₃, -, h₃⟩ := bind_eq_ok h₂
          split_ifs at h₃ with hfits
          · obtain ⟨he, -⟩ := EStateM.Result.ok.inj h₃
            rw [← Option.some.inj he]
            exact List.mem_cons_self
          · obtain ⟨_, w₄, -, h₄⟩ := bind_eq_ok h₃
            exact List.mem_cons_of_mem _ (ih h₄)
        · exact List.mem_cons_of_mem _ (ih h₂)

theorem find_mem {p : PoolId} {size : UInt64} {t : Thread} {w w' : World σ} {h : Handle}
    (hf : find p size t w = .ok (some h) w') :
    ∃ pool entries, w.pool? p = some pool ∧ pool.arena.entries .free .forward = .ok entries ∧
      h.pool = p ∧ (h.key, h.buffer) ∈ entries := by
  cases hp : w.pool? p with
  | none =>
      unfold find at hf
      rw [bind_of_error _ (readArena_of_none hp)] at hf
      exact nomatch hf
  | some pool =>
      unfold find at hf
      cases he : pool.arena.entries .free .forward with
      | error fault =>
          rw [bind_of_error _ (readArena_of_error hp he)] at hf
          exact nomatch hf
      | ok entries =>
          rw [bind_of_ok _ (readArena_of_ok hp he)] at hf
          obtain ⟨found, w₁, hfirst, hrest⟩ := bind_eq_ok hf
          cases found with
          | none => exact nomatch hrest
          | some entry =>
              obtain ⟨key, b⟩ := entry
              obtain ⟨_, w₂, -, h₂⟩ := bind_eq_ok hrest
              obtain ⟨_, w₃, -, h₃⟩ := bind_eq_ok h₂
              obtain ⟨hh, -⟩ := EStateM.Result.ok.inj h₃
              rw [← Option.some.inj hh]
              exact ⟨pool, entries, rfl, he, rfl, firstFit_mem hfirst⟩

end BufferPool.Pool
