import BufferPool.Proofs.Pool.Discarding
import BufferPool.Proofs.World.Idle

/-!
# How a release fails

A release checks the handle, the key and the lane before it changes anything, and giving a buffer back
checks before that whether everything is flushed. When one of these checks fails, all pools stay as they
are. Whether the buffer is fit to be kept is checked later, and only in the checked profile: by then the
buffer has left its lane, and when that check fails it is left behind detached. After that a release
cannot fail any more.
-/

namespace BufferPool

open PoolM

/-- Why a buffer that is not one-shot may not be kept, if it may not. -/
def Buffer.unfit? (b : Buffer) : Option Expectation :=
  if b.isEmpty = false then some .emptyWhenKept
  else if b.retired = true then some .notRetiredWhenKept
  else if b.owner.isSome = true then some .unownedWhenKept
  else none

theorem Buffer.unfit?_eq_none_iff {b : Buffer} :
    b.unfit? = none ↔ b.isEmpty = true ∧ b.retired = false ∧ b.owner = none := by
  unfold Buffer.unfit?
  split_ifs with hempty hretired howner
  · simp [hempty]
  · simp [hretired]
  · simp [Option.ne_none_iff_isSome.2 howner]
  · simpa using And.intro hempty (And.intro hretired howner)

variable {σ : Type} {w : World σ} {p : PoolId} {lane : Lane} {h : Handle} {minimum : UInt64}
  {c : Arena.Catalog BufferId}

namespace World

/-- Why a release from a lane fails before anything is changed. -/
inductive Hinders (w : World σ) (p : PoolId) (lane : Lane) (h : Handle) : Fault → Prop where
  | foreign (hne : h.pool ≠ p) : Hinders w p lane h (.foreign h.pool p)
  | closed (hp : w.pool? p = none) : Hinders w p lane h (.noPool p)
  | stale (hn : w.place? p h.key = none) : Hinders w p lane h (.arena (.stale h.key))
  | elsewhere {b : BufferId} {actual : Option Lane} (hl : w.place? p h.key = some (b, actual))
      (hne : actual ≠ some lane) : Hinders w p lane h (.arena (.notListed lane actual))
  | unflushed (hc : w.profile = .checked) (hu : (w.buffer h.buffer).unflushedSize ≠ 0) :
      Hinders w p lane h (.unexpected (.flushed (w.buffer h.buffer).unflushedSize))

/-- What the key of the handle names has left the lane and is detached. Otherwise all is as it was: the
other places, the order in the lanes, what is allocated, all other pools, and what is in the buffers. -/
structure Unlinks (p : PoolId) (lane : Lane) (h : Handle) (w w' : World σ) : Prop where
  owner : h.pool = p
  leaves : ∃ minimum c b, w.Stocks p minimum c ∧ c.place h.key = some (b, some lane) ∧
    w'.Stocks p minimum (c.leave lane h.key b)
  pools : ∀ q, q ≠ p → w'.pools[q]? = w.pools[q]?
  allocated : ∀ q, w'.allocated? q = w.allocated? q
  buffer : ∀ b, w'.buffer b = w.buffer b

/-- A release fails because the buffer is not fit to be kept. -/
structure Unfit (p : PoolId) (lane : Lane) (h : Handle) (w : World σ) (e : Expectation)
    (w' : World σ) : Prop extends Unlinks p lane h w w' where
  checked : w.profile = .checked
  lasting : (w.buffer h.buffer).transient = false
  unfit : (w.buffer h.buffer).unfit? = some e

theorem Unlinks.drop {w' : World σ} (hu : Unlinks p lane h w w') (b : BufferId) :
    Unlinks p lane h w (w'.drop b) := by
  have hquiet := quiet_drop w' b
  obtain ⟨minimum, c, b', hs, hplace, hs'⟩ := hu.leaves
  refine ⟨hu.owner, ⟨minimum, c, b', hs, hplace, hs'.quiet hquiet⟩, fun q hq => ?_, fun q => ?_,
    fun b' => (w'.buffer_drop b b').trans (hu.buffer b')⟩
  · rw [pools_drop]
    exact hu.pools q hq
  · rw [allocated?, pool?, pools_drop]
    exact hu.allocated q

theorem unlinks_setArena {arena : Arena BufferId} {b : BufferId} (hh : h.pool = p)
    (hs : w.Stocks p minimum c) (hplace : c.place h.key = some (b, some lane))
    (hs' : (w.setArena p arena).Stocks p minimum (c.leave lane h.key b)) :
    Unlinks p lane h w (w.setArena p arena) := by
  refine ⟨hh, ⟨minimum, c, b, hs, hplace, hs'⟩, fun q hq => ?_, fun q => ?_, fun b => rfl⟩
  · exact pools_modifyPool_of_ne hq w _
  · exact allocated?_setArena w p q arena

theorem stocks_of_sound (hs : w.Sound) {pool : Pool} (hp : w.pool? p = some pool) :
    ∃ c, w.Stocks p pool.minimum c ∧ c.place = pool.arena.place? := by
  obtain ⟨wiring, hw⟩ := hs p pool.arena (arena?_of_pool? hp)
  exact ⟨pool.arena.catalog wiring,
    ⟨minimum?_of_pool? hp, pool.arena, wiring, arena?_of_pool? hp, hw, rfl⟩, rfl⟩

end World

namespace Pool

open World

theorem expectIdle_of_unfit {b : BufferId} {e : Expectation} (hc : w.profile = .checked)
    (he : (w.buffer b).unfit? = some e) : expectIdle b w = .error (.unexpected e) w := by
  unfold Buffer.unfit? at he
  rw [expectIdle, getBuffer_bind]
  split_ifs at he with hempty hretired howner
  · obtain rfl := Option.some.inj he
    rw [hempty]
    exact bind_of_error _ (expect_of_checked _ hc)
  · obtain rfl := Option.some.inj he
    rw [Bool.eq_true_of_not_eq_false hempty, bind_of_ok _ (expect_true _ w), hretired]
    exact bind_of_error _ (expect_of_checked _ hc)
  · obtain rfl := Option.some.inj he
    rw [Bool.eq_true_of_not_eq_false hempty, bind_of_ok _ (expect_true _ w),
      Bool.eq_false_of_not_eq_true hretired, Bool.not_false, bind_of_ok _ (expect_true _ w)]
    obtain ⟨t, ht⟩ := Option.isSome_iff_exists.1 howner
    rw [ht]
    exact expect_of_checked _ hc

theorem expectIdle_of_fit {b : BufferId}
    (h : w.profile = .unchecked ∨ (w.buffer b).unfit? = none) : expectIdle b w = .ok () w := by
  rw [expectIdle, getBuffer_bind]
  rcases h with hu | hfit
  · rw [bind_of_ok _ (expect_of_unchecked _ _ hu), bind_of_ok _ (expect_of_unchecked _ _ hu)]
    exact expect_of_unchecked _ _ hu
  · obtain ⟨hempty, hretired, howner⟩ := Buffer.unfit?_eq_none_iff.1 hfit
    rw [hempty, hretired, howner, bind_of_ok _ (expect_true _ w), Bool.not_false,
      bind_of_ok _ (expect_true _ w)]
    exact expect_true _ w

/-- What becomes of a detached buffer: it is disposed of, or else it is not fit to be kept. -/
theorem dispose_cases (hs : w.Stocks p minimum c) (hh : h.pool = p) {b : BufferId}
    (hp : c.place h.key = some (b, none)) :
    (∃ w', dispose p h w = .ok () w') ∨
      ∃ e, w.profile = .checked ∧ (w.buffer h.buffer).transient = false ∧
        (w.buffer h.buffer).unfit? = some e ∧
        dispose p h w = .error (.unexpected e) (w.drop h.buffer) := by
  rw [dispose, getBuffer_bind]
  by_cases hone : (w.buffer h.buffer).transient = true
  · left
    have hnoted : (w.emit (.noted p .releasingTransient)).Stocks p minimum c := hs.quiet
      (quiet_note p .releasingTransient w)
    obtain ⟨w', hr, -⟩ := deallocate_ok hnoted hh hp
    rw [if_pos hone]
    exact ⟨w', hr⟩
  rw [if_neg hone]
  by_cases hfit : w.profile = .unchecked ∨ (w.buffer h.buffer).unfit? = none
  · left
    obtain ⟨keep, w₁, hconsult, hq, -⟩ := consult_ok hs
    rw [bind_of_ok _ (owning_of_ok ((bind_of_ok _ (expectIdle_of_fit hfit)).trans hconsult))]
    have hs₁ := hs.quiet hq
    cases keep with
    | true =>
        obtain ⟨arena, hon, -⟩ := stocks_prepend hs₁ .free hp
        rw [if_pos rfl, bind_of_ok _ (owning_of_ok hon)]
        exact ⟨_, rfl⟩
    | false =>
        obtain ⟨w', hr, -⟩ := deallocate_ok hs₁ hh hp
        exact ⟨w', hr⟩
  · right
    rw [not_or] at hfit
    obtain ⟨e, he⟩ := Option.ne_none_iff_exists'.1 hfit.2
    have hc : w.profile = .checked := by
      cases hprofile : w.profile with
      | checked => rfl
      | unchecked => exact absurd hprofile hfit.1
    refine ⟨e, hc, Bool.eq_false_of_not_eq_true hone, he, ?_⟩
    exact bind_of_error _ (onFault_of_error (bind_of_error _ (expectIdle_of_unfit hc he)))

/-- Either the buffer leaves its lane or nothing happens. -/
theorem unlinks_or_hinders (hs : w.Sound) (p : PoolId) (lane : Lane) (h : Handle) :
    (∃ arena, remove p lane h w = .ok () (w.setArena p arena) ∧
      Unlinks p lane h w (w.setArena p arena)) ∨
      ∃ fault, w.Hinders p lane h fault ∧ remove p lane h w = .error fault w := by
  by_cases hh : h.pool = p
  swap
  · exact .inr ⟨_, .foreign hh, bind_of_error _ (checkOwner_of_ne hh)⟩
  rw [remove, bind_of_ok _ (checkOwner_of_eq hh)]
  cases hp : w.pool? p with
  | none => exact .inr ⟨_, .closed hp, onArena_of_none hp⟩
  | some pool =>
      obtain ⟨c, hstocks, hc⟩ := stocks_of_sound hs hp
      obtain ⟨wiring, hw⟩ := hs p pool.arena (arena?_of_pool? hp)
      have hplace := place?_of_pool? hp h.key
      rcases Arena.remove_cases hw lane h.key with ⟨hn, he⟩ | ⟨b, actual, hl, hne, he⟩ |
        ⟨b, arena, f, hl, -⟩
      · refine .inr ⟨_, .stale (hplace.trans hn), ?_⟩
        exact onArena_of_error hp (congrArg (Except.map ((), ·)) he)
      · refine .inr ⟨_, .elsewhere (hplace.trans hl) hne, ?_⟩
        exact onArena_of_error hp (congrArg (Except.map ((), ·)) he)
      · rw [← hc] at hl
        obtain ⟨arena, hon, hs'⟩ := stocks_remove hstocks hl
        exact .inl ⟨arena, hon, unlinks_setArena hh hstocks hl hs'⟩

/-- How a release ends: it succeeds, or it fails early and no pool is changed, or it fails because the
buffer is not fit to be kept, and then the buffer is left behind detached. -/
theorem release_cases (hs : w.Sound) (p : PoolId) (lane : Lane) (h : Handle) :
    (∃ w', release p lane h w = .ok () w') ∨
      (∃ fault, w.Hinders p lane h fault ∧ release p lane h w = .error fault (w.drop h.buffer)) ∨
      ∃ e w', Unfit p lane h w e w' ∧ release p lane h w = .error (.unexpected e) w' := by
  rcases unlinks_or_hinders hs p lane h with ⟨arena, hr, hu⟩ | ⟨fault, hf, hr⟩
  swap
  · exact .inr (.inl ⟨fault, hf, bind_of_error _ (onFault_of_error hr)⟩)
  obtain ⟨minimum, c, b, -, -, hs₁⟩ := hu.leaves
  have hdetached : (c.leave lane h.key b).place h.key = some (b, none) := Function.update_self ..
  rw [release, bind_of_ok _ (owning_of_ok hr)]
  rcases dispose_cases hs₁ hu.owner hdetached with hok | ⟨e, hc, hone, he, hr'⟩
  · exact .inl hok
  · exact .inr (.inr ⟨e, _, ⟨hu.drop h.buffer, hc, hone, he⟩, hr'⟩)

/-- Giving a buffer back checks first whether everything is flushed. -/
theorem giveBack_ends (hs : w.Sound) (p : PoolId) (lane : Lane) (h : Handle) :
    (∃ w', giveBack p lane h w = .ok () w') ∨
      (∃ fault, w.Hinders p lane h fault ∧ giveBack p lane h w = .error fault (w.drop h.buffer)) ∨
      ∃ e w', Unfit p lane h w e w' ∧ giveBack p lane h w = .error (.unexpected e) w' := by
  let unflushed := (w.buffer h.buffer).unflushedSize
  by_cases hfail : w.profile = .checked ∧ unflushed ≠ 0
  · refine .inr (.inl ⟨_, .unflushed hfail.1 hfail.2, bind_of_error _ (onFault_of_error ?_)⟩)
    rw [getBuffer_bind, beq_eq_false_iff_ne.2 hfail.2]
    exact expect_of_checked _ hfail.1
  · have hmet : expect (unflushed == 0) (.flushed unflushed) w = .ok () w := by
      cases hprofile : w.profile with
      | unchecked => exact expect_of_unchecked _ _ hprofile
      | checked =>
          have hzero : unflushed = 0 := by
            by_contra hne
            exact hfail ⟨hprofile, hne⟩
          rw [hzero]
          exact expect_true _ w
    rw [giveBack, bind_of_ok _ (owning_of_ok ((getBuffer_bind h.buffer _ w).trans hmet))]
    exact release_cases hs p lane h

end Pool

end BufferPool
