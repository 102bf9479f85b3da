import Mathlib.Tactic.SplitIfs
import BufferPool.PoolM

/-!
# What an operation leaves behind

An operation ends with an answer or with a fault, and leaves a world behind in both cases. Here are
the outcomes of the basic operations, by cases on what they find: the pool, and what its arena says.
-/

namespace BufferPool

variable {σ α β : Type}

/-- What a function leaves alone is the same, whether or not it was applied. -/
theorem map_ite_map {c : Prop} [Decidable c] {f : α → α} {g : α → β} (h : ∀ a, g (f a) = g a)
    (a? : Option α) : (if c then a?.map f else a?).map g = a?.map g := by
  split_ifs
  · rw [Option.map_map]
    exact congrArg (Option.map · a?) (funext h)
  · rfl

namespace World

/-- The arena of a pool that is set up and not closed. -/
def arena? (w : World σ) (p : PoolId) : Option (Arena BufferId) := (w.pool? p).map (·.arena)

/-- The smallest class of a pool that is set up and not closed. -/
def minimum? (w : World σ) (p : PoolId) : Option UInt64 := (w.pool? p).map (·.minimum)

theorem arena?_of_pool? {w : World σ} {p : PoolId} {pool : Pool} (h : w.pool? p = some pool) :
    w.arena? p = some pool.arena := by
  rw [arena?, h]
  rfl

theorem minimum?_of_pool? {w : World σ} {p : PoolId} {pool : Pool} (h : w.pool? p = some pool) :
    w.minimum? p = some pool.minimum := by
  rw [minimum?, h]
  rfl

theorem pool?_modifyPool (w : World σ) (p q : PoolId) (f : Pool → Pool)
    (hf : ∀ pool, (f pool).live = pool.live) :
    (w.modifyPool p f).pool? q = if q = p then (w.pool? q).map f else w.pool? q := by
  unfold pool? modifyPool
  rw [Array.getElem?_modify]
  by_cases hq : p = q
  · subst hq
    rw [if_pos rfl, if_pos rfl]
    cases hw : w.pools[p]? with
    | none => rfl
    | some pool => cases hl : pool.live <;> simp [Option.filter_some, hf, hl]
  · rw [if_neg hq, if_neg (Ne.symm hq)]

/-- What a change of pools leaves alone. -/
theorem map_pool?_modifyPool (w : World σ) (p q : PoolId) {f : Pool → Pool} {g : Pool → α}
    (hlive : ∀ pool, (f pool).live = pool.live) (hg : ∀ pool, g (f pool) = g pool) :
    ((w.modifyPool p f).pool? q).map g = (w.pool? q).map g := by
  rw [pool?_modifyPool w p q f hlive]
  exact map_ite_map hg _

theorem pools_modifyPool_of_ne {p q : PoolId} (hq : q ≠ p) (w : World σ) (f : Pool → Pool) :
    (w.modifyPool p f).pools[q]? = w.pools[q]? := by
  rw [modifyPool, Array.getElem?_modify, if_neg (Ne.symm hq)]

@[simp] theorem size_modifyPool (w : World σ) (p : PoolId) (f : Pool → Pool) :
    (w.modifyPool p f).pools.size = w.pools.size :=
  Array.size_modify

theorem pool?_eq_some_iff {w : World σ} {p : PoolId} {pool : Pool} :
    w.pool? p = some pool ↔ w.pools[p]? = some pool ∧ pool.live = true := by
  rw [pool?, Option.filter_eq_some_iff]

theorem lt_size_of_pool? {w : World σ} {p : PoolId} {pool : Pool} (h : w.pool? p = some pool) :
    p < w.pools.size :=
  (Array.getElem?_eq_some_iff.1 (pool?_eq_some_iff.1 h).1).choose

/-- Changing a pool to what it is changes nothing. -/
theorem modifyPool_eq_self {w : World σ} {p : PoolId} {pool : Pool} {f : Pool → Pool}
    (h : w.pool? p = some pool) (hf : f pool = pool) : w.modifyPool p f = w := by
  have hpools : w.pools.modify p f = w.pools := by
    apply Array.ext_getElem?
    intro q
    rw [Array.getElem?_modify]
    split_ifs with hq
    · subst hq
      rw [(pool?_eq_some_iff.1 h).1, Option.map_some, hf]
    · rfl
  rw [modifyPool, hpools]

/-- Gives a pool another arena. -/
def setArena (w : World σ) (p : PoolId) (arena : Arena BufferId) : World σ :=
  w.modifyPool p fun pool => { pool with arena := arena }

theorem pool?_setArena (w : World σ) (p q : PoolId) (arena : Arena BufferId) :
    (w.setArena p arena).pool? q =
      if q = p then (w.pool? q).map fun pool => { pool with arena := arena } else w.pool? q :=
  pool?_modifyPool w p q _ fun _ => rfl

theorem arena?_setArena {w : World σ} {p : PoolId} {pool : Pool} (arena : Arena BufferId)
    (h : w.pool? p = some pool) (q : PoolId) :
    (w.setArena p arena).arena? q = if q = p then some arena else w.arena? q := by
  rw [arena?, pool?_setArena, arena?]
  split_ifs with hq
  · rw [hq, h]
    rfl
  · rfl

theorem arena?_push (w : World σ) (pool : Pool) (q : PoolId) :
    { w with pools := w.pools.push pool }.arena? q =
      if q = w.pools.size then if pool.live then some pool.arena else none else w.arena? q := by
  unfold arena? pool?
  rw [Array.getElem?_push]
  split_ifs with hq hl
  · simp [Option.filter_some, hl]
  · simp [Option.filter_some, hl]
  · rfl

/-- Closes a pool. -/
def retirePool (w : World σ) (p : PoolId) : World σ :=
  w.modifyPool p fun pool => { pool with live := false }

theorem pool?_retirePool (w : World σ) (p q : PoolId) :
    (w.retirePool p).pool? q = if q = p then none else w.pool? q := by
  unfold pool? retirePool modifyPool
  rw [Array.getElem?_modify]
  by_cases hq : p = q
  · subst hq
    rw [if_pos rfl, if_pos rfl]
    cases w.pools[p]? <;> simp [Option.filter_some]
  · rw [if_neg hq, if_neg (Ne.symm hq)]

theorem arena?_retirePool (w : World σ) (p q : PoolId) :
    (w.retirePool p).arena? q = if q = p then none else w.arena? q := by
  rw [arena?, pool?_retirePool]
  split_ifs <;> rfl

theorem getElem?_retain (w : World σ) (b b' : BufferId) :
    (w.retain b).cells[b']? =
      if b' = b then w.cells[b']?.map fun c => { c with refs := c.refs + 1 } else w.cells[b']? := by
  unfold retain
  rw [Array.getElem?_modify]
  by_cases hb : b' = b
  · rw [if_pos hb, if_pos hb.symm]
  · rw [if_neg hb, if_neg (Ne.symm hb)]

theorem getElem?_modifyBuffer (w : World σ) (b b' : BufferId) (f : Buffer → Buffer) :
    (w.modifyBuffer b f).cells[b']? =
      if b' = b then w.cells[b']?.map fun c => { c with buffer := f c.buffer }
      else w.cells[b']? := by
  unfold modifyBuffer
  rw [Array.getElem?_modify]
  by_cases hb : b' = b
  · rw [if_pos hb, if_pos hb.symm]
  · rw [if_neg hb, if_neg (Ne.symm hb)]

theorem getElem?_drop (w : World σ) (b b' : BufferId) :
    (w.drop b).cells[b']? =
      if b' = b then w.cells[b']?.map fun c => { c with refs := c.refs - 1 } else w.cells[b']? := by
  unfold drop
  cases hc : w.cells[b]? with
  | none =>
      by_cases hb : b' = b
      · rw [if_pos hb, hb, hc]
        rfl
      · rw [if_neg hb]
  | some c =>
      have hlt := (Array.getElem?_eq_some_iff.1 hc).choose
      have hset : (w.cells.setIfInBounds b { c with refs := c.refs - 1 })[b']? =
          if b' = b then w.cells[b']?.map fun c => { c with refs := c.refs - 1 }
          else w.cells[b']? := by
        rw [Array.getElem?_setIfInBounds]
        by_cases hb : b' = b
        · rw [if_pos hb.symm, if_pos hlt, if_pos hb, hb, hc]
          rfl
        · rw [if_neg (Ne.symm hb), if_neg hb]
      dsimp only
      by_cases hr : c.refs = 1
      · rw [if_pos hr]
        exact hset
      · rw [if_neg hr]
        exact hset

theorem drop_eq (w : World σ) (b : BufferId) :
    w.drop b = { w with cells := (w.drop b).cells, events := (w.drop b).events } := by
  unfold drop
  cases w.cells[b]? with
  | none => rfl
  | some c =>
      dsimp only
      split_ifs <;> rfl

theorem pools_drop (w : World σ) (b : BufferId) : (w.drop b).pools = w.pools := by
  rw [drop_eq]

end World

namespace PoolM

open World

/-- The world that an operation leaves behind, whichever way it ends. -/
def leaves (act : PoolM σ α) (w : World σ) : World σ :=
  match act w with
  | .ok _ w' => w'
  | .error _ w' => w'

theorem leaves_of_ok {act : PoolM σ α} {w w' : World σ} {a : α} (h : act w = .ok a w') :
    act.leaves w = w' := by
  rw [leaves, h]

theorem leaves_of_error {act : PoolM σ α} {w w' : World σ} {fault : Fault}
    (h : act w = .error fault w') : act.leaves w = w' := by
  rw [leaves, h]

theorem bind_of_ok {act : PoolM σ α} {w w' : World σ} {a : α} (next : α → PoolM σ β)
    (h : act w = .ok a w') : (act >>= next) w = next a w' := by
  simp only [Bind.bind, EStateM.bind, h]

theorem get_bind (next : World σ → PoolM σ β) (w : World σ) :
    (MonadState.get >>= next) w = next w w :=
  bind_of_ok next rfl

theorem getBuffer_bind (b : BufferId) (next : Buffer → PoolM σ β) (w : World σ) :
    (getBuffer b >>= next) w = next (w.buffer b) w :=
  bind_of_ok next rfl

theorem map_congr {act act' : PoolM σ α} {w : World σ} (f : α → β) (h : act w = act' w) :
    (f <$> act) w = (f <$> act') w := by
  change EStateM.map f act w = EStateM.map f act' w
  rw [EStateM.map, EStateM.map, h]

theorem bind_of_error {act : PoolM σ α} {w w' : World σ} {fault : Fault} (next : α → PoolM σ β)
    (h : act w = .error fault w') : (act >>= next) w = .error fault w' := by
  simp only [Bind.bind, EStateM.bind, h]

/-- What relates two worlds step by step relates them over two operations, however these end. -/
theorem leaves_bind {R : World σ → World σ → Prop} {act : PoolM σ α} {next : α → PoolM σ β}
    {w : World σ} (htrans : ∀ {w w' w''}, R w w' → R w' w'' → R w w'') (h : R w (act.leaves w))
    (hn : ∀ a w', R w' ((next a).leaves w')) : R w ((act >>= next).leaves w) := by
  cases hr : act w with
  | ok a w' =>
      rw [leaves_of_ok hr] at h
      rw [leaves, bind_of_ok next hr]
      exact htrans h (hn a w')
  | error fault w' =>
      rw [leaves_of_error hr] at h
      rw [leaves, bind_of_error next hr]
      exact h

theorem error_ne_ok {fault : Fault} {w w' : World σ} {a : α} :
    (EStateM.Result.error fault w : EStateM.Result Fault (World σ) α) ≠ .ok a w' := by
  intro h
  cases h

section Answers

variable {act : PoolM σ α} {w w' : World σ} {a : α}

theorem run'_of_ok (h : act w = .ok a w') : act.run' w = some a := by
  delta EStateM.run' EStateM.run
  rw [h]

theorem run'_of_error {fault : Fault} (h : act w = .error fault w') : act.run' w = none := by
  delta EStateM.run' EStateM.run
  rw [h]

theorem exists_of_run' (h : act.run' w = some a) : ∃ w', act w = .ok a w' := by
  cases hact : act w with
  | ok a' w' =>
      rw [run'_of_ok hact] at h
      exact ⟨w', Option.some.inj h ▸ rfl⟩
  | error fault w' =>
      rw [run'_of_error hact] at h
      cases h

end Answers

/-- Two operations answer only if both do. -/
theorem bind_eq_ok {act : PoolM σ α} {next : α → PoolM σ β} {w w'' : World σ} {b : β}
    (h : (act >>= next) w = .ok b w'') : ∃ a w', act w = .ok a w' ∧ next a w' = .ok b w'' := by
  cases hr : act w with
  | ok a w' =>
      rw [bind_of_ok next hr] at h
      exact ⟨a, w', rfl, h⟩
  | error fault w' =>
      rw [bind_of_error next hr] at h
      exact nomatch h

theorem onFault_of_ok {act : PoolM σ α} {cleanUp : World σ → World σ} {w w' : World σ} {a : α}
    (h : act w = .ok a w') : onFault cleanUp act w = .ok a w' := by
  simp only [onFault, h]

theorem onFault_of_error {act : PoolM σ α} {cleanUp : World σ → World σ} {w w' : World σ}
    {fault : Fault} (h : act w = .error fault w') :
    onFault cleanUp act w = .error fault (cleanUp w') := by
  simp only [onFault, h]

theorem owning_of_ok {act : PoolM σ α} {b : BufferId} {w w' : World σ} {a : α}
    (h : act w = .ok a w') : owning b act w = .ok a w' :=
  onFault_of_ok h

theorem onFault_eq_ok {act : PoolM σ α} {cleanUp : World σ → World σ} {w w' : World σ} {a : α}
    (h : onFault cleanUp act w = .ok a w') : act w = .ok a w' := by
  cases hr : act w with
  | ok b w₁ =>
      rw [onFault_of_ok hr] at h
      exact h
  | error fault w₁ =>
      rw [onFault_of_error hr] at h
      exact nomatch h

theorem getPool_of_some {w : World σ} {p : PoolId} {pool : Pool} (h : w.pool? p = some pool) :
    getPool p w = .ok pool w := by
  have hget : (MonadState.get : PoolM σ (World σ)) w = .ok w w := rfl
  unfold getPool
  rw [bind_of_ok _ hget, h]
  rfl

theorem getPool_of_none {w : World σ} {p : PoolId} (h : w.pool? p = none) :
    getPool p w = .error (.noPool p) w := by
  have hget : (MonadState.get : PoolM σ (World σ)) w = .ok w w := rfl
  unfold getPool
  rw [bind_of_ok _ hget, h]
  rfl

theorem leaves_getPool (p : PoolId) (w : World σ) : (getPool p).leaves w = w := by
  cases hp : w.pool? p with
  | none => exact leaves_of_error (getPool_of_none hp)
  | some pool => exact leaves_of_ok (getPool_of_some hp)

theorem expect_true (expectation : Expectation) (w : World σ) :
    expect true expectation w = .ok () w := by
  have hget : (MonadState.get : PoolM σ (World σ)) w = .ok w w := rfl
  unfold expect
  rw [bind_of_ok _ hget, if_neg (by simp)]
  rfl

theorem expect_of_unchecked (met : Bool) (expectation : Expectation) {w : World σ}
    (h : w.profile = .unchecked) : expect met expectation w = .ok () w := by
  have hget : (MonadState.get : PoolM σ (World σ)) w = .ok w w := rfl
  unfold expect
  rw [bind_of_ok _ hget, if_neg (by simp [h])]
  rfl

/-- An expectation changes nothing, whether it is met or not. -/
theorem expect_cases (met : Bool) (expectation : Expectation) (w : World σ) :
    expect met expectation w = .ok () w ∨
      expect met expectation w = .error (.unexpected expectation) w := by
  have hget : (MonadState.get : PoolM σ (World σ)) w = .ok w w := rfl
  unfold expect
  rw [bind_of_ok _ hget]
  split_ifs
  · exact .inr rfl
  · exact .inl rfl

theorem expect_eq_ok {met : Bool} {expectation : Expectation} {w w' : World σ} {u : Unit}
    (h : expect met expectation w = .ok u w') : w' = w := by
  rcases expect_cases met expectation w with hr | hr
  · exact (EStateM.Result.ok.inj (h.symm.trans hr)).2
  · exact nomatch h.symm.trans hr

theorem leaves_expect (met : Bool) (expectation : Expectation) (w : World σ) :
    (expect met expectation).leaves w = w :=
  (expect_cases met expectation w).elim leaves_of_ok leaves_of_error

theorem expect_of_checked (expectation : Expectation) {w : World σ} (h : w.profile = .checked) :
    expect false expectation w = .error (.unexpected expectation) w := by
  have hget : (MonadState.get : PoolM σ (World σ)) w = .ok w w := rfl
  unfold expect
  rw [bind_of_ok _ hget, if_pos (by simp [h])]
  rfl

section Arena

variable {p : PoolId} {f : Arena BufferId → Except Arena.Fault (α × Arena BufferId)} {w : World σ}
  {pool : Pool}

theorem onArena_of_none (h : w.pool? p = none) : onArena p f w = .error (.noPool p) w := by
  unfold onArena
  rw [bind_of_error _ (getPool_of_none h)]

theorem onArena_of_error {fault : Arena.Fault} (h : w.pool? p = some pool)
    (hf : f pool.arena = .error fault) : onArena p f w = .error (.arena fault) w := by
  unfold onArena
  rw [bind_of_ok _ (getPool_of_some h), hf]
  rfl

theorem onArena_of_ok {a : α} {arena : Arena BufferId} (h : w.pool? p = some pool)
    (hf : f pool.arena = .ok (a, arena)) : onArena p f w = .ok a (w.setArena p arena) := by
  unfold onArena
  rw [bind_of_ok _ (getPool_of_some h), hf]
  rfl

theorem onArena_eq_ok {a : α} {w' : World σ} (h : onArena p f w = .ok a w') :
    ∃ pool arena, w.pool? p = some pool ∧ f pool.arena = .ok (a, arena) ∧
      w' = w.setArena p arena := by
  cases hp : w.pool? p with
  | none =>
      rw [onArena_of_none hp] at h
      exact nomatch h
  | some pool =>
      cases hf : f pool.arena with
      | error fault =>
          rw [onArena_of_error hp hf] at h
          exact nomatch h
      | ok r =>
          obtain ⟨b, arena⟩ := r
          rw [onArena_of_ok hp hf] at h
          obtain ⟨rfl, rfl⟩ := EStateM.Result.ok.inj h
          exact ⟨pool, arena, rfl, hf, rfl⟩

theorem readArena_of_none {f : Arena BufferId → Except Arena.Fault α} (h : w.pool? p = none) :
    readArena p f w = .error (.noPool p) w :=
  onArena_of_none h

theorem readArena_of_error {f : Arena BufferId → Except Arena.Fault α} {fault : Arena.Fault}
    (h : w.pool? p = some pool) (hf : f pool.arena = .error fault) :
    readArena p f w = .error (.arena fault) w :=
  onArena_of_error h (by rw [hf]; rfl)

/-- Reading changes nothing. -/
theorem readArena_of_ok {f : Arena BufferId → Except Arena.Fault α} {a : α}
    (h : w.pool? p = some pool) (hf : f pool.arena = .ok a) : readArena p f w = .ok a w := by
  have hon : readArena p f w = .ok a (w.setArena p pool.arena) :=
    onArena_of_ok h (by rw [hf]; rfl)
  rw [hon, setArena, modifyPool_eq_self h rfl]

theorem leaves_readArena (p : PoolId) (f : Arena BufferId → Except Arena.Fault α) (w : World σ) :
    (readArena p f).leaves w = w := by
  cases hp : w.pool? p with
  | none => exact leaves_of_error (readArena_of_none hp)
  | some pool =>
      cases hf : f pool.arena with
      | error fault => exact leaves_of_error (readArena_of_error hp hf)
      | ok a => exact leaves_of_ok (readArena_of_ok hp hf)

end Arena

end PoolM

end BufferPool
