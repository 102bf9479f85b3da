import BufferPool.Producer
import BufferPool.Proofs.Arena.Catalog
import BufferPool.Proofs.World.Cells

/-!
# What operations leave alone

A buffer that is put into a lane, taken out of it, moved, released or deallocated keeps its bytes, its
cursors, its owner and its marks, whichever way the operation ends. What happens to it is that
references to it are counted, and for as long as there is one it can be used as before. All other
buffers keep their places as well.
-/

namespace BufferPool

variable {σ α β : Type}

namespace PoolM

/-- What holds before the operation holds after it, however it ends. -/
def Keeps (I : World σ → Prop) (act : PoolM σ α) : Prop := ∀ w, I w → I (act.leaves w)

namespace Keeps

variable {I J : World σ → Prop} {act : PoolM σ α} {next : α → PoolM σ β}

theorem pure (a : α) : Keeps I (Pure.pure a) := fun _ hI => hI

theorem throw (fault : Fault) : Keeps (α := α) I (throw fault) := fun _ hI => hI

theorem get : Keeps I MonadState.get := fun _ hI => hI

theorem modify {f : World σ → World σ} (h : ∀ w, I w → I (f w)) : Keeps I (modify f) := h

theorem bind (h : Keeps I act) (hn : ∀ a, Keeps I (next a)) : Keeps I (act >>= next) := by
  intro w hI
  have hw := h w hI
  cases hr : act w with
  | ok a w' =>
      rw [leaves_of_ok hr] at hw
      rw [leaves, bind_of_ok next hr]
      exact hn a w' hw
  | error fault w' =>
      rw [leaves_of_error hr] at hw
      rw [leaves, bind_of_error next hr]
      exact hw

/-- Cleaning up behind a fault must keep it, too. -/
theorem owning {b : BufferId} (h : Keeps I act) (hd : ∀ w, I w → I (w.drop b)) :
    Keeps I (owning b act) := by
  intro w hI
  have hw := h w hI
  cases hr : act w with
  | ok a w' =>
      rw [leaves_of_ok hr] at hw
      rw [leaves_of_ok (owning_of_ok hr)]
      exact hw
  | error fault w' =>
      rw [leaves_of_error hr] at hw
      rw [PoolM.owning, leaves_of_error (onFault_of_error hr)]
      exact hd w' hw

end Keeps

/-- The operation leaves what is in the buffers. -/
def Spares (act : PoolM σ α) : Prop := ∀ b v, Keeps (fun w => w.buffer b = v) act

namespace Spares

variable {act : PoolM σ α} {next : α → PoolM σ β}

theorem buffer_leaves (h : Spares act) (w : World σ) (b : BufferId) :
    (act.leaves w).buffer b = w.buffer b :=
  h b _ w rfl

theorem pure (a : α) : Spares (σ := σ) (Pure.pure a) := fun _ _ => .pure a

theorem throw (fault : Fault) : Spares (α := α) (σ := σ) (throw fault) := fun _ _ => .throw fault

theorem get : Spares (σ := σ) MonadState.get := fun _ _ => .get

theorem modify {f : World σ → World σ} (h : ∀ w b, (f w).buffer b = w.buffer b) :
    Spares (modify f) :=
  fun b _ => .modify fun w hw => (h w b).trans hw

theorem bind (h : Spares act) (hn : ∀ a, Spares (next a)) : Spares (act >>= next) :=
  fun b v => (h b v).bind fun a => hn a b v

theorem owning {b : BufferId} (h : Spares act) : Spares (owning b act) :=
  fun b' v => (h b' v).owning fun w hw => (w.buffer_drop b b').trans hw

end Spares

theorem spares_expect (met : Bool) (expectation : Expectation) :
    Spares (σ := σ) (expect met expectation) := by
  apply Spares.get.bind
  intro w
  split_ifs
  · exact .throw _
  · exact .pure _

theorem spares_emit (e : Event) : Spares (σ := σ) (emit e) := .modify fun _ _ => rfl

theorem spares_note (p : PoolId) (n : Note) : Spares (σ := σ) (note p n) := spares_emit _

theorem spares_getPool (p : PoolId) : Spares (σ := σ) (getPool p) := by
  apply Spares.get.bind
  intro w
  cases w.pool? p with
  | none => exact .throw _
  | some pool => exact .pure _

theorem spares_modifyPool (p : PoolId) (f : Pool → Pool) : Spares (σ := σ) (modifyPool p f) :=
  .modify fun _ _ => rfl

theorem spares_getBuffer (b : BufferId) : Spares (σ := σ) (getBuffer b) :=
  Spares.get.bind fun _ => .pure _

theorem spares_retain (b : BufferId) : Spares (σ := σ) (PoolM.retain b) :=
  .modify fun w => w.buffer_retain b

theorem spares_drop (b : BufferId) : Spares (σ := σ) (PoolM.drop b) :=
  .modify fun w => w.buffer_drop b

theorem spares_onArena (p : PoolId)
    (f : Arena BufferId → Except Arena.Fault (α × Arena BufferId)) :
    Spares (σ := σ) (onArena p f) := by
  apply (spares_getPool p).bind
  intro pool
  cases f pool.arena with
  | error fault => exact .throw _
  | ok answer => exact (spares_modifyPool p _).bind fun _ => .pure _

end PoolM

namespace Pool

open PoolM

theorem spares_checkOwner (p : PoolId) (h : Handle) : Spares (σ := σ) (checkOwner p h) := by
  unfold checkOwner
  split_ifs
  · exact .throw _
  · exact .pure _

theorem spares_retire (p : PoolId) (b : BufferId) : Spares (σ := σ) (retire p b) :=
  (spares_getBuffer b).bind fun _ => (spares_modifyPool p _).bind fun _ =>
    (spares_emit _).bind fun _ => spares_note p _

theorem spares_deallocate (p : PoolId) (h : Handle) : Spares (σ := σ) (deallocate p h) :=
  ((spares_checkOwner p h).bind fun _ => spares_onArena p _).owning.bind fun b =>
    (spares_drop h.buffer).bind fun _ => (spares_retire p b).bind fun _ => spares_drop b

theorem spares_insert (p : PoolId) (lane : Lane) (h : Handle) :
    Spares (σ := σ) (insert p lane h) := by
  apply (spares_checkOwner p h).bind
  intro _
  apply (spares_onArena p _).bind
  intro _
  split_ifs
  · exact (spares_getBuffer h.buffer).bind fun _ => (spares_emit _).bind fun _ => spares_emit _
  · exact spares_emit _

theorem spares_remove (p : PoolId) (lane : Lane) (h : Handle) :
    Spares (σ := σ) (remove p lane h) :=
  (spares_checkOwner p h).bind fun _ => spares_onArena p _

theorem spares_move (p : PoolId) (source : Lane) (h : Handle) :
    Spares (σ := σ) (move p source h) :=
  (spares_remove p source h).bind fun _ => spares_insert p source.other h

theorem spares_expectIdle (b : BufferId) : Spares (σ := σ) (expectIdle b) :=
  (spares_getBuffer b).bind fun _ => (spares_expect _ _).bind fun _ =>
    (spares_expect _ _).bind fun _ => spares_expect _ _

theorem spares_consult (p : PoolId) : Spares (σ := σ) (consult p) :=
  ((spares_getPool p).bind fun _ => .pure _).bind fun _ => (spares_getPool p).bind fun _ =>
    (spares_modifyPool p _).bind fun _ => (spares_emit _).bind fun _ => .pure _

theorem spares_dispose (p : PoolId) (h : Handle) : Spares (σ := σ) (dispose p h) := by
  apply (spares_getBuffer h.buffer).bind
  intro buffer
  split_ifs
  · exact (spares_note p _).bind fun _ => spares_deallocate p h
  · apply ((spares_expectIdle h.buffer).bind fun _ => spares_consult p).owning.bind
    intro keep
    split_ifs
    · exact (spares_onArena p _).owning.bind fun _ => (spares_emit _).bind fun _ =>
        spares_drop h.buffer
    · exact spares_deallocate p h

theorem spares_release (p : PoolId) (lane : Lane) (h : Handle) :
    Spares (σ := σ) (release p lane h) :=
  (spares_remove p lane h).owning.bind fun _ => spares_dispose p h

theorem spares_giveBack (p : PoolId) (lane : Lane) (h : Handle) :
    Spares (σ := σ) (giveBack p lane h) :=
  ((spares_getBuffer h.buffer).bind fun _ => spares_expect _ _).owning.bind fun _ =>
    spares_release p lane h

end Pool

namespace World

/-- Which buffer a pool has registered under a key, and in which lane it is. -/
def place? (w : World σ) (q : PoolId) (key : Arena.Key) : Option (BufferId × Option Lane) :=
  (w.arena? q).bind (·.place? key)

/-- There is a buffer in this place. -/
structure Sits (w : World σ) (q : PoolId) (key : Arena.Key) (place : BufferId × Option Lane) :
    Prop where
  place : w.place? q key = some place
  sound : ∀ a, w.arena? q = some a → a.Sound

theorem place?_of_pool? {w : World σ} {p : PoolId} {pool : Pool} (hp : w.pool? p = some pool)
    (key : Arena.Key) : w.place? p key = pool.arena.place? key := by
  rw [place?, arena?_of_pool? hp, Option.bind_some]

theorem place?_setArena {w : World σ} {p : PoolId} {pool : Pool} (hp : w.pool? p = some pool)
    (arena : Arena BufferId) (q : PoolId) (key : Arena.Key) :
    (w.setArena p arena).place? q key = if q = p then arena.place? key else w.place? q key := by
  rw [place?, arena?_setArena arena hp]
  split_ifs <;> rfl

theorem place?_congr {w w' : World σ} {q : PoolId} (h : w'.arena? q = w.arena? q)
    (key : Arena.Key) : w'.place? q key = w.place? q key := by
  rw [place?, h, place?]

/-- The place is what it is in another world, whether or not there is a buffer. -/
structure Rests (w₀ w : World σ) (q : PoolId) (key : Arena.Key) : Prop where
  place : w.place? q key = w₀.place? q key
  sound : ∀ a, w.arena? q = some a → a.Sound

theorem Rests.congr {w₀ w w' : World σ} {q : PoolId} {key : Arena.Key} (h : Rests w₀ w q key)
    (hq : w'.arena? q = w.arena? q) : Rests w₀ w' q key :=
  ⟨(place?_congr hq key).trans h.place, fun a ha => h.sound a (hq.symm.trans ha)⟩

theorem Sits.congr {w w' : World σ} {q : PoolId} {key : Arena.Key} {place : BufferId × Option Lane}
    (h : w.Sits q key place) (hq : w'.arena? q = w.arena? q) : w'.Sits q key place :=
  ⟨(place?_congr hq key).trans h.place, fun a ha => h.sound a (hq.symm.trans ha)⟩

end World

variable {p q : PoolId} {key other : Arena.Key} {w₀ : World σ}

namespace PoolM

/-- What leaves a place as it is leaves the buffer there. -/
theorem Keeps.sits {act : PoolM σ α} {place : BufferId × Option Lane}
    (h : ∀ w₀ : World σ, Keeps (World.Rests w₀ · q key) act) : Keeps (·.Sits q key place) act := by
  intro w hw
  obtain ⟨hplace, hsound⟩ := h w w ⟨rfl, hw.sound⟩
  exact ⟨hplace.trans hw.place, hsound⟩

theorem Quiet.rests {act : PoolM σ α} (h : Quiet act) : Keeps (World.Rests w₀ · q key) act :=
  fun w hw => hw.congr ((h w).arena q)

/-- An update of an arena that leaves the place. -/
theorem rests_onArena {f : Arena BufferId → Except Arena.Fault (α × Arena BufferId)}
    (h : q = p → ∀ a wiring x a', a.Wired wiring → f a = .ok (x, a') →
      a'.Sound ∧ a'.place? key = a.place? key) :
    Keeps (World.Rests w₀ · q key) (onArena (σ := σ) p f) := by
  intro w hw
  cases hp : w.pool? p with
  | none =>
      rw [leaves_of_error (onArena_of_none hp)]
      exact hw
  | some pool =>
      cases hf : f pool.arena with
      | error fault =>
          rw [leaves_of_error (onArena_of_error hp hf)]
          exact hw
      | ok r =>
          obtain ⟨x, a'⟩ := r
          rw [leaves_of_ok (onArena_of_ok hp hf)]
          have harena := World.arena?_setArena a' hp q
          by_cases hq : q = p
          · obtain ⟨wiring, hwired⟩ := hw.sound pool.arena (hq ▸ World.arena?_of_pool? hp)
            obtain ⟨hsound, hplace⟩ := h hq pool.arena wiring x a' hwired hf
            rw [if_pos hq] at harena
            have hbefore : w.place? q key = pool.arena.place? key := hq ▸ World.place?_of_pool? hp key
            refine ⟨?_, fun a ha => ?_⟩
            · rw [World.place?, harena]
              exact (hplace.trans hbefore.symm).trans hw.place
            · rw [harena] at ha
              exact Option.some.inj ha ▸ hsound
          · rw [if_neg hq] at harena
            exact hw.congr harena

theorem rests_unregister (hne : q = p → key ≠ other) :
    Keeps (World.Rests w₀ · q key) (onArena (σ := σ) p (·.unregister other)) := by
  apply rests_onArena
  intro hq a wiring x a' hwired hf
  rcases Arena.unregister_cases hwired other with ⟨-, he⟩ | ⟨_, _, -, he⟩ |
    ⟨b, arena, hplace, he, -, hc, hwired'⟩
  · exact nomatch he.symm.trans hf
  · exact nomatch he.symm.trans hf
  · obtain ⟨-, rfl⟩ := Prod.mk.inj (Except.ok.inj (he.symm.trans hf))
    refine ⟨⟨_, hwired'⟩, ?_⟩
    rw [hc.place?, if_neg]
    simpa using hne hq

theorem rests_prepend (hne : q = p → key ≠ other) (lane : Lane) :
    Keeps (World.Rests w₀ · q key)
      (onArena (σ := σ) p fun arena => (arena.prepend lane other).map ((), ·)) := by
  apply rests_onArena
  intro hq a wiring x a' hwired hf
  rcases Arena.prepend_cases hwired lane other with ⟨-, he⟩ | ⟨_, _, -, he⟩ |
    ⟨b, arena, f, hplace, he, hr, hm, hwired'⟩
  · exact nomatch (congrArg (Except.map ((), ·)) he).symm.trans hf
  · exact nomatch (congrArg (Except.map ((), ·)) he).symm.trans hf
  · have hdone := (congrArg (Except.map ((), ·)) he).symm.trans hf
    obtain ⟨-, rfl⟩ := Prod.mk.inj (Except.ok.inj hdone)
    refine ⟨⟨_, hwired'⟩, ?_⟩
    rw [hr.place?_eq_update hm hplace, Function.update_of_ne (hne hq)]

theorem rests_remove (hne : q = p → key ≠ other) (lane : Lane) :
    Keeps (World.Rests w₀ · q key)
      (onArena (σ := σ) p fun arena => (arena.remove lane other).map ((), ·)) := by
  apply rests_onArena
  intro hq a wiring x a' hwired hf
  rcases Arena.remove_cases hwired lane other with ⟨-, he⟩ | ⟨_, _, -, -, he⟩ |
    ⟨b, arena, f, hplace, he, hr, hm, hwired'⟩
  · exact nomatch (congrArg (Except.map ((), ·)) he).symm.trans hf
  · exact nomatch (congrArg (Except.map ((), ·)) he).symm.trans hf
  · have hdone := (congrArg (Except.map ((), ·)) he).symm.trans hf
    obtain ⟨-, rfl⟩ := Prod.mk.inj (Except.ok.inj hdone)
    refine ⟨⟨_, hwired'⟩, ?_⟩
    rw [hr.place?_eq_update hm hplace, Function.update_of_ne (hne hq)]

end PoolM

namespace Pool

open PoolM

variable {h : Handle}

theorem rests_drop (b : BufferId) (w : World σ) (hw : World.Rests w₀ w q key) :
    World.Rests w₀ (w.drop b) q key :=
  hw.congr ((World.quiet_drop w b).arena q)

theorem rests_deallocate (hne : q = p → key ≠ h.key) :
    Keeps (World.Rests w₀ · q key) (deallocate (σ := σ) p h) :=
  (((quiet_checkOwner p h).rests.bind fun _ => rests_unregister hne).owning (rests_drop _)).bind
    fun b => (quiet_drop h.buffer).rests.bind fun _ => (quiet_retire p b).rests.bind fun _ =>
      (quiet_drop b).rests

theorem rests_dispose (hne : q = p → key ≠ h.key) :
    Keeps (World.Rests w₀ · q key) (dispose (σ := σ) p h) := by
  apply (quiet_getBuffer h.buffer).rests.bind
  intro buffer
  split_ifs
  · exact (quiet_note p _).rests.bind fun _ => rests_deallocate hne
  · apply (((quiet_expectIdle h.buffer).bind fun _ => quiet_consult p).owning.rests).bind
    intro keep
    split_ifs
    · exact ((rests_prepend hne .free).owning (rests_drop _)).bind fun _ =>
        (quiet_emit _).rests.bind fun _ => (quiet_drop h.buffer).rests
    · exact rests_deallocate hne

theorem rests_release (hne : q = p → key ≠ h.key) (lane : Lane) :
    Keeps (World.Rests w₀ · q key) (release (σ := σ) p lane h) :=
  (((quiet_checkOwner p h).rests.bind fun _ => rests_remove hne lane).owning (rests_drop _)).bind
    fun _ => rests_dispose hne

/-- Giving a buffer back leaves every other place. -/
theorem rests_giveBack (hne : q = p → key ≠ h.key) (lane : Lane) :
    Keeps (World.Rests w₀ · q key) (giveBack (σ := σ) p lane h) :=
  ((quiet_getBuffer h.buffer).bind fun _ => quiet_expect _ _).owning.rests.bind fun _ =>
    rests_release hne lane

end Pool

end BufferPool
