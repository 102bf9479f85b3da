import BufferPool.Proofs.Pool.Outcome
import BufferPool.Proofs.World.Triple

/-!
# What the operations of a pool enter in the books

A buffer that is made is afloat until it is registered, and one that has left its arena is afloat
until it is retired. Between two operations nothing is afloat that was not before. An operation that
consumes a handle takes one reference out of the hand, also if it faults, and one that obtains a
buffer puts one there.

Only `insert` puts buffers into the full lane, and it announces each of them.
-/

namespace BufferPool

open PoolM World

variable {σ α : Type}

namespace World

theorem still_strike (w : World σ) (p : PoolId) (b : BufferId) : Still w (w.strike p b) := by
  refine .of_arenas (.of_cells rfl (List.suffix_cons _ _) rfl) ?_ fun q => announced_emit _ _ q
  exact (quiet_modifyPool w p (fun pool =>
    { pool with allocated := pool.allocated - (w.buffer b).totalSize }) (by intro; rfl)
    (by intro; rfl) (by intro; rfl)).arena

section Grant

variable {p : PoolId} {capacity : UInt64} {tag : Option Nat} {tags : Nat}

theorem still_grant (w : World σ) (p : PoolId) (capacity : UInt64) (tag : Option Nat)
    (tags : Nat) : Still w (w.grant p capacity tag tags) := by
  refine .of_arenas ⟨fun b c hc => ⟨c, ?_, .refl c⟩, List.suffix_cons _ _, rfl⟩ (fun _ => rfl)
    fun q => announced_emit _ _ q
  rw [getElem?_grant, if_neg, hc]
  exact Nat.ne_of_lt (Array.getElem?_eq_some_iff.1 hc).choose

theorem still_enter (w : World σ) (p : PoolId) (b : BufferId) : Still w (w.enter p b) := by
  refine .of_arenas (.of_cells rfl (List.suffix_cons _ _) rfl) ?_ fun q => announced_emit _ _ q
  exact (quiet_modifyPool w p (fun pool =>
    { pool with allocated := pool.allocated + (w.buffer b).totalSize }) (by intro; rfl)
    (by intro; rfl) (by intro; rfl)).arena

end Grant

end World

namespace Pool

/-- A pool asks its heap, which then knows. -/
theorem requestPayload_cases {w : World σ} {p : PoolId} {pool : Pool} (capacity : UInt64)
    (hp : w.pool? p = some pool) :
    (∃ w', requestPayload p capacity w = .ok none w' ∧ World.Idle w w') ∨
    ∃ w₁ tag tags, World.Idle w w₁ ∧ (∃ pool', w₁.pool? p = some pool') ∧
      requestPayload p capacity w = .ok (some w₁.cells.size) (w₁.grant p capacity tag tags) := by
  have hasked : World.Idle w (w.modifyPool p fun pool =>
      { pool with heap := { pool.heap with supply := pool.heap.supply.after capacity } }) :=
    World.idle_modifyPool w p _ (by intro; rfl) (by intro; rfl) (by intro; rfl)
  unfold requestPayload
  rw [bind_of_ok _ (getPool_of_some hp)]
  by_cases hg : pool.heap.supply.grants capacity = true
  · simp only [hg, if_true]
    refine .inr ⟨_, _, _, hasked, Option.isSome_iff_exists.1 ?_, rfl⟩
    rw [pool?_modifyPool w p p _ (by intro; rfl), if_pos rfl, hp]
    rfl
  · simp only [hg]
    refine .inl ⟨_, rfl, hasked.trans (World.idle_emit _ ?_)⟩
    split_ifs <;> rfl

/-- Only the supply that decides about set-ups notices. -/
theorem prepare_eq (w : World σ) (capacity : UInt64) :
    ∃ ready maker, prepare capacity w = .ok ready { w with maker := maker } := by
  obtain ⟨profile, format, maker, pools, cells, tags, held, events, client⟩ := w
  cases format with
  | plain => exact ⟨true, maker, rfl⟩
  | metered => exact ⟨_, _, rfl⟩

/-- What making a buffer comes to: nothing, a payload that is granted and freed again, or a buffer
that is counted. Besides, the heap and the set-up of buffers have given their answers. -/
theorem make_cases (p : PoolId) (requested : UInt64) (w : World σ) :
    (∃ fault, make p requested w = .error fault w) ∨
    (∃ w', make p requested w = .ok none w' ∧ World.Idle w w') ∨
    ∃ w₁ pool capacity tag tags, World.Idle w w₁ ∧ w₁.pool? p = some pool ∧
      (make p requested w = .ok none ((w₁.grant p capacity tag tags).drop w₁.cells.size) ∨
        ∃ w₂, make p requested w = .ok (some w₁.cells.size) w₂ ∧
          World.Idle ((w₁.grant p capacity tag tags).enter p w₁.cells.size) w₂) := by
  unfold make
  cases hp : w.pool? p with
  | none =>
      rw [bind_of_error _ (getPool_of_none hp)]
      exact .inl ⟨_, rfl⟩
  | some pool =>
      rw [bind_of_ok _ (getPool_of_some hp)]
      cases hclass : SizeClass.ofRequest? requested pool.minimum with
      | none =>
          dsimp only
          rcases expect_cases false (.representable requested) w with he | he
          · rw [bind_of_ok _ he]
            exact .inr (.inl ⟨_, rfl, World.idle_emit w rfl⟩)
          · rw [bind_of_error _ he]
            exact .inl ⟨_, rfl⟩
      | some capacity =>
          dsimp only
          rcases requestPayload_cases capacity hp with
            ⟨w', hr, hi⟩ | ⟨w₁, tag, tags, hi, ⟨pool', hp'⟩, hr⟩
          · rw [bind_of_ok _ hr]
            exact .inr (.inl ⟨_, rfl, hi.trans (World.idle_emit w' rfl)⟩)
          · obtain ⟨ready, maker, hready⟩ := prepare_eq (w₁.grant p capacity tag tags) capacity
            -- The grant does not look at the supply of set-ups, so its answer may come first.
            have hset : World.Idle w { w₁ with maker := maker } :=
              hi.trans ⟨rfl, fun _ => rfl, fun _ => rfl, rfl, fun _ c hc => ⟨c, hc, .refl c, rfl⟩,
                ⟨[], nofun, rfl⟩, rfl, rfl, rfl⟩
            refine .inr (.inr ⟨{ w₁ with maker := maker }, pool', capacity, tag, tags, hset, hp', ?_⟩)
            rw [bind_of_ok _ hr]
            dsimp only
            rw [bind_of_ok _ hready]
            cases ready with
            | false => exact .inl rfl
            | true => exact .inr ⟨_, rfl, World.idle_emit _ rfl⟩

end Pool

variable [Client σ] {w₀ : World σ} {m : Manner} {k : Books σ} {b : BufferId} {p : PoolId}

/-- An operation has obtained a buffer, with one reference in hand, or none. Only if it has one, it
may have done more than to keep steady. -/
def World.Yields (w₀ : World σ) (m : Manner) (k : Books σ) : Option Handle → World σ → Prop
  | none => At w₀ .steady k
  | some h => At w₀ m (k.hold h.buffer)

theorem World.Yields.of_steady {r : Option Handle} {w : World σ} (h : Yields w₀ .steady k r w)
    (m : Manner) : Yields w₀ m k r w := by
  cases r with
  | none => exact h
  | some handle => exact At.of_steady h m

theorem at_emit {E : World σ → Prop} {e : Event} (he : e.isRemark = true) :
    Triple (At w₀ m k) (emit e) (fun _ => At w₀ m k) E :=
  .modify fun w h => h.idle (World.idle_emit w he)

theorem at_note {E : World σ → Prop} (n : Note) :
    Triple (At w₀ m k) (note p n) (fun _ => At w₀ m k) E :=
  at_emit rfl

namespace Pool

theorem at_retire {E : World σ → Prop} :
    Triple (At w₀ m (k.launch p b)) (retire p b) (fun _ => At w₀ m (k.hold b)) E := by
  apply Triple.of_ok
  intro w hw
  exact ⟨_, _, rfl, (hw.still (still_strike w p b) hw.agrees.strike).idle (World.idle_emit _ rfl)⟩

theorem at_retireAll {E : World σ → Prop} (buffers : List BufferId) :
    Triple (At w₀ m (k.launchAll p buffers)) (retireAll p buffers) (fun _ => At w₀ m k) E := by
  induction buffers with
  | nil => exact .pure fun _ h => h
  | cons b rest ih => exact at_retire.bind fun _ => at_drop.bind fun _ => ih

theorem at_reclaimAll :
    Triple (At w₀ m k) (reclaim p) (fun _ => At w₀ m k) (At w₀ m k) := by
  apply at_idle_bind .get
  intro w
  apply (at_reclaim _).bind
  intro abandoned
  cases abandoned with
  | nil => exact .pure fun _ h => h
  | cons b rest => exact (at_note _).bind fun _ => at_retireAll (b :: rest)

theorem at_make (requested : UInt64) :
    Triple (At w₀ m k) (make p requested) (fun made => At w₀ m (made.elim k (k.launch p)))
      (At w₀ m k) := by
  intro w hw
  rcases make_cases p requested w with ⟨fault, hr⟩ | ⟨w', hr, hi⟩ |
    ⟨w₁, pool, capacity, tag, tags, hi, hp, hr | ⟨w₂, hr, hi'⟩⟩
  · rw [hr]
    exact hw
  · rw [hr]
    exact hw.idle hi
  · rw [hr]
    have h₁ := hw.idle hi
    exact h₁.still ((still_grant w₁ p capacity tag tags).trans (still_drop _ _))
      (h₁.agrees.grant_drop (lt_size_of_pool? hp))
  · rw [hr]
    have h₁ := hw.idle hi
    have h₂ := h₁.still ((still_grant w₁ p capacity tag tags).trans (still_enter _ p w₁.cells.size))
      (h₁.agrees.grant_enter hp)
    exact h₂.idle hi'

theorem at_enroll :
    Triple (At w₀ m (k.launch p b)) (enroll p b) (fun h => At w₀ m (k.hold h.buffer))
      (At w₀ m k) := by
  apply (at_owning at_register).bind
  intro key
  exact at_retain.bind fun _ => .pure fun _ h => h

theorem at_some_enroll :
    Triple (At w₀ .steady (k.launch p b)) (some <$> enroll p b) (Yields w₀ .steady k)
      (At w₀ .steady k) :=
  at_enroll.map some fun _ _ h => h

theorem at_allocate (requested : UInt64) :
    Triple (At w₀ .steady k) (allocate p requested) (Yields w₀ .steady k) (At w₀ .steady k) := by
  apply at_reclaimAll.bind
  intro _
  apply (at_make requested).bind
  intro made
  cases made with
  | none => exact .pure fun _ h => h
  | some b => exact at_some_enroll

theorem at_allocateWithin (requested : UInt64) :
    Triple (At w₀ .steady k) (allocateWithin p requested) (Yields w₀ .steady k)
      (At w₀ .steady k) := by
  apply at_reclaimAll.bind
  intro _
  apply (at_make requested).bind
  intro made
  cases made with
  | none => exact .pure fun _ h => h
  | some b => exact at_some_enroll

theorem at_deallocate (h : Handle) :
    Triple (At w₀ m (k.hold h.buffer)) (deallocate p h) (fun _ => At w₀ m k) (At w₀ m k) := by
  have hout : Triple (At w₀ m (k.hold h.buffer))
      (owning h.buffer do
        checkOwner p h
        onArena p (·.unregister h.key))
      (fun b => At w₀ m ((k.hold h.buffer).launch p b)) (At w₀ m k) :=
    at_owning (at_idle_bind (idle_checkOwner p h) fun _ => at_unregister h.key)
  apply hout.bind
  intro b
  exact (at_drop (k := k.launch p b)).bind fun _ => at_retire.bind fun _ => at_drop

theorem at_insert_free (h : Handle) :
    Triple (At w₀ m k) (insert p .free h) (fun _ => At w₀ m k) (At w₀ m k) :=
  at_idle_bind (idle_checkOwner p h) fun _ => (at_prepend_free h.key).bind fun _ => at_emit rfl

/-- What is put into the full lane was not there before, and is announced once. -/
theorem at_insert_full (h : Handle) :
    Triple (At w₀ .steady k) (insert p .full h) (fun _ => At w₀ .publishing k)
      (At w₀ .steady k) := by
  apply at_idle_bind (idle_checkOwner p h)
  intro _
  apply (at_prepend_full h.key).bind
  intro _
  exact fun w hw => (hw h.buffer (w.buffer h.buffer).totalSize).idle (World.idle_emit _ rfl)

theorem at_insert (lane : Lane) (h : Handle) :
    Triple (At w₀ .steady k) (insert p lane h) (fun _ => At w₀ .publishing k)
      (At w₀ .steady k) := by
  cases lane with
  | free => exact (at_insert_free h).post fun _ _ hw => hw.of_steady _
  | full => exact at_insert_full h

theorem at_take_out {lane : Lane} (hm : lane = .free ∨ m = .fading) (h : Handle) :
    Triple (At w₀ m k) (remove p lane h) (fun _ => At w₀ m k) (At w₀ m k) :=
  at_idle_bind (idle_checkOwner p h) fun _ => at_remove hm h.key

theorem at_move (source : Lane) (h : Handle) :
    ∃ m, Triple (At w₀ .steady k) (move p source h) (fun _ => At w₀ m k) (At w₀ m k) := by
  cases source with
  | free =>
      exact ⟨.publishing, ((at_take_out (.inl rfl) h).bind fun _ => at_insert_full h).early⟩
  | full =>
      exact ⟨.fading, ((at_take_out (.inr rfl) h).bind fun _ => at_insert_free h).pre
        fun _ hw => hw.of_steady _⟩

/-- What fits is one of the buffers that were looked at. -/
theorem at_firstFit (size : UInt64) (t : Thread) (entries : List (Arena.Key × BufferId)) :
    Triple (fun w => At w₀ m k w ∧ ∀ e ∈ entries, w.refs e.2 ≠ 0) (firstFit size t entries)
      (fun found w => At w₀ m k w ∧ ∀ e ∈ found, w.refs e.2 ≠ 0) (At w₀ m k) := by
  rintro w ⟨hw, halive⟩
  have hi := idle_firstFit size t entries w
  cases hr : firstFit size t entries w with
  | error fault w' =>
      rw [leaves_of_error hr] at hi
      exact hw.idle hi
  | ok found w' =>
      rw [leaves_of_ok hr] at hi
      refine ⟨hw.idle hi, ?_⟩
      rintro e rfl
      rw [hi.refs]
      exact halive e (firstFit_mem hr)

theorem at_find (size : UInt64) (t : Thread) :
    Triple (At w₀ .steady k) (find p size t) (Yields w₀ .steady k) (At w₀ .steady k) := by
  apply (at_entries .free .forward).bind
  intro entries
  apply (at_firstFit size t entries).bind
  intro found
  cases found with
  | none => exact .pure fun _ h => h.1
  | some entry =>
      obtain ⟨key, b⟩ := entry
      refine Triple.bind (.modify fun w h => ?_) fun _ => at_retain.bind fun _ => .pure fun _ h => h
      exact ⟨h.1.idle (World.idle_emit w rfl), h.2 (key, b) rfl⟩

theorem at_dispose (h : Handle) :
    Triple (At w₀ m (k.hold h.buffer)) (dispose p h) (fun _ => At w₀ m k) (At w₀ m k) := by
  apply Triple.of_getBuffer
  intro buffer
  split_ifs
  · exact (at_note _).bind fun _ => at_deallocate h
  · apply (at_owning (at_idle ((idle_expectIdle h.buffer).bind fun _ => idle_consult p))).bind
    intro keep
    split_ifs
    · exact (at_owning (at_prepend_free h.key)).bind fun _ => (at_emit rfl).bind fun _ => at_drop
    · exact at_deallocate h

/-- Releasing from the full lane ends the display of the buffer. -/
theorem at_release {lane : Lane} (hm : lane = .free ∨ m = .fading) (h : Handle) :
    Triple (At w₀ m (k.hold h.buffer)) (release p lane h) (fun _ => At w₀ m k) (At w₀ m k) :=
  (at_owning (at_take_out hm h)).bind fun _ => at_dispose h

end Pool

end BufferPool
