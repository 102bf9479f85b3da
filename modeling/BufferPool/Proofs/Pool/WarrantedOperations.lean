import BufferPool.Pool.Setup
import BufferPool.Proofs.Pool.Calm
import BufferPool.Proofs.Pool.Outcome

/-!
# How the operations of a pool consist of warranted steps

One statement for each operation: under a warrant it takes nothing but warranted steps, and a buffer
that it returns is one that may be in a lane and that the warrant grants. What is stable under the
warrant is carried along.
-/

namespace BufferPool

open Buffer (Act)

variable {σ α β : Type}

namespace Warrant

open World

/-- The handle belongs to the pool, its buffer is there and may be in a lane, and so may whatever its
key names. -/
structure Has (W : Warrant) (p : PoolId) (h : Handle) (w : World σ) : Prop where
  pool : h.pool = p
  enters : W.enters h.buffer
  there : h.buffer < w.cells.size
  names : W.Names p h.key w

/-- The handle was returned, and its buffer may be handed out. -/
structure Provided (W : Warrant) (p : PoolId) (h : Handle) (w : World σ) : Prop
    extends W.Has p h w where
  grants : W.grants h.buffer

/-- Its buffer is acquired, too, if owners keep their buffers. -/
structure Obtained (W : Warrant) (p : PoolId) (t : Thread) (h : Handle) (w : World σ) : Prop
    extends W.Provided p h w where
  owner : W.Firm → (w.buffer h.buffer).owner = some t

/-- What nobody owns may be handed out. -/
def Grants (W : Warrant) (P : World σ → Prop) : Prop :=
  ∀ w b, P w → (w.buffer b).owner = none → W.grants b

variable {W : Warrant} {p : PoolId} {h : Handle} {t : Thread}

theorem stable_lt (b : BufferId) : W.Stable (σ := σ) fun w => b < w.cells.size :=
  fun _ _ _ hs hb => Nat.lt_of_lt_of_le hb hs.steps.size

theorem stable_has : W.Stable (σ := σ) (W.Has p h) :=
  fun w w' hr hs hh => ⟨hh.pool, hh.enters, stable_lt _ w w' hr hs hh.there,
    stable_names _ _ w w' hr hs hh.names⟩

theorem stable_provided : W.Stable (σ := σ) (W.Provided p h) :=
  fun w w' hr hs hh => ⟨stable_has w w' hr hs hh.toHas, hh.grants⟩

theorem stable_obtained : W.Stable (σ := σ) (W.Obtained p t h) :=
  fun w w' hr hs hh => ⟨stable_provided w w' hr hs hh.toProvided,
    fun hf => stable_owner hf _ t w w' hr hs (hh.owner hf)⟩

/-- What is stable of each of several things is stable of all of them. -/
theorem stable_forall {ι : Type} {P : ι → World σ → Prop} {q : ι → Prop}
    (h : ∀ i, W.Stable (P i)) : W.Stable fun w => ∀ i, q i → P i w :=
  fun w w' hr hs hP i hi => h i w w' hr hs (hP i hi)

end Warrant

namespace PoolM

open World

variable {W : Warrant} {P : World σ → Prop} {p : PoolId} {b : BufferId}

theorem Warranted.of_serves {act : PoolM σ α} (hP : W.Stable P)
    (h : ∀ w, W.Ready w → P w → W.Serves w (act.leaves w)) : Warranted W P act fun _ => P := by
  intro w hr hw
  have hs := h w hr hw
  refine ⟨hs, fun a w' hrun => hP w w' hr ?_ hw⟩
  rw [leaves_of_ok hrun] at hs
  exact hs

theorem warranted_calm {act : PoolM σ α} (hP : W.Stable P) (h : Calm act) : Warranted W P act fun _ => P :=
  .of_serves hP fun w _ _ => .of_calm (h w)

theorem Warranted.owning {act : PoolM σ α} {Q : α → World σ → Prop} (h : Warranted W P act Q) :
    Warranted W P (owning b act) Q :=
  h.onFault fun w => World.calm_drop w b

/-- An expectation keeps everything, stable or not. -/
theorem warranted_expect (met : Bool) (expectation : Expectation) :
    Warranted W P (expect met expectation) fun _ => P := by
  intro w _ hw
  rcases expect_cases met expectation w with h | h
  · rw [leaves_of_ok h]
    refine ⟨.refl w, fun _ w' hr => ?_⟩
    obtain ⟨-, rfl⟩ := EStateM.Result.ok.inj (h.symm.trans hr)
    exact hw
  · rw [leaves_of_error h]
    exact ⟨.refl w, fun _ w' hr => nomatch h.symm.trans hr⟩

/-- Work on a buffer. -/
theorem Warranted.of_work {act : PoolM σ α} (hP : W.Stable P)
    (h : ∀ w, P w → ∃ acts, act.leaves w = w.work b acts ∧
      W.alters b (w.buffer b) ((w.buffer b).perform acts)) : Warranted W P act fun _ => P := by
  refine .of_serves hP fun w _ hw => ?_
  obtain ⟨acts, hl, ha⟩ := h w hw
  rw [hl]
  exact .of_step (.work ha) rfl rfl

theorem warranted_acquire (hL : W.Lends none) (hP : W.Stable P) (t : Thread) :
    Warranted W (fun w => P w ∧ b < w.cells.size) (acquire b t)
      fun _ w => P w ∧ (w.buffer b).owner = some t := by
  have hwork : Warranted W P (acquire (σ := σ) b t) fun _ => P :=
    .of_work hP fun w _ => ⟨_, leaves_acquire b t w, hL b _ _ (Buffer.lent_acquire _ t)⟩
  intro w hr hw
  obtain ⟨hs, hQ⟩ := hwork w hr hw.1
  refine ⟨hs, fun a w' hrun => ⟨hQ a w' hrun, ?_⟩⟩
  rw [acquire, getBuffer_bind] at hrun
  split_ifs at hrun
  · obtain ⟨-, rfl⟩ := EStateM.Result.ok.inj hrun
    rw [buffer_modifyBuffer_self _ hw.2]
    rfl
  · exact (error_ne_ok hrun).elim

theorem warranted_tryAcquire (hL : W.Lends none) (hP : W.Stable P) (t : Thread) :
    Warranted W P (tryAcquire b t) fun _ => P :=
  .of_work hP fun w _ => ⟨_, leaves_tryAcquire b t w, hL b _ _ (Buffer.lent_tryAcquire _ t)⟩

theorem warranted_markTransient (hL : W.Lends none) (hP : W.Stable P) :
    Warranted W P (markTransient b) fun _ => P :=
  .of_work hP fun w _ => ⟨_, leaves_markTransient b w, hL b _ _ (Buffer.lent_markTransient _)⟩

theorem warranted_markLease (hL : W.Lends none) (hP : W.Stable P) :
    Warranted W P (markLease b) fun _ => P := by
  refine .of_work hP fun w _ => ⟨_, leaves_markLease b w, ?_⟩
  split_ifs
  · exact W.refl b _
  · exact hL b _ _ (Buffer.lent_markLease _)

theorem leaves_onArena {f : Arena BufferId → Except Arena.Fault (α × Arena BufferId)}
    {op : Arena.Op BufferId} {w : World σ} {pool : Pool}
    (hf : (f pool.arena).map (·.2) = (op.outcome pool.arena).map (·.2))
    (hp : w.pool? p = some pool) :
    (onArena p f).leaves w = w.setArena p (op.perform pool.arena).2 := by
  unfold Arena.Op.perform
  cases hop : op.outcome pool.arena with
  | ok result =>
      cases hr : f pool.arena with
      | ok r =>
          rw [hr, hop] at hf
          obtain ⟨a, arena⟩ := r
          rw [leaves_of_ok (onArena_of_ok hp hr)]
          exact congrArg _ (Except.ok.inj hf)
      | error fault =>
          rw [hr, hop] at hf
          exact nomatch hf
  | error fault =>
      cases hr : f pool.arena with
      | ok r =>
          rw [hr, hop] at hf
          exact nomatch hf
      | error fault' =>
          rw [leaves_of_error (onArena_of_error hp hr)]
          exact (modifyPool_eq_self hp rfl).symm

/-- An update of an arena that registers nothing and lists nothing. -/
theorem warranted_update {f : Arena BufferId → Except Arena.Fault (α × Arena BufferId)}
    (op : Arena.Op BufferId) (hP : W.Stable P) (hop : W.allows op) (hold : ∀ b, op ≠ .register b)
    (hf : ∀ a, (f a).map (·.2) = (op.outcome a).map (·.2)) :
    Warranted W P (onArena p f) fun _ => P := by
  refine .of_serves hP fun w _ _ => ?_
  cases hp : w.pool? p with
  | none =>
      rw [leaves_of_error (onArena_of_none hp)]
      exact .refl w
  | some pool =>
      rw [leaves_onArena (hf pool.arena) hp]
      exact .of_step (.update hp hop fun b hb => absurd hb (hold b)) rfl rfl

theorem warranted_unregister (hP : W.Stable P) (key : Arena.Key) :
    Warranted W P (onArena p (·.unregister key)) fun _ => P := by
  refine warranted_update (.unregister key) hP trivial nofun fun a => ?_
  rw [Arena.Op.outcome]
  cases a.unregister key <;> rfl

theorem warranted_remove_key (hP : W.Stable P) (lane : Lane) (key : Arena.Key) :
    Warranted W P (onArena p fun arena => (arena.remove lane key).map ((), ·)) fun _ => P := by
  refine warranted_update (.remove lane key) hP trivial nofun fun a => ?_
  rw [Arena.Op.outcome]
  cases a.remove lane key <;> rfl

theorem warranted_reclaim_arena (hP : W.Stable P) (abandoned : BufferId → Bool) :
    Warranted W P (onArena p fun arena => arena.reclaim abandoned) fun _ => P := by
  refine warranted_update (.reclaim abandoned) hP trivial nofun fun a => ?_
  rw [Arena.Op.outcome]
  cases a.reclaim abandoned <;> rfl

theorem warranted_drain (hP : W.Stable P) : Warranted W P (onArena p (·.drain)) fun _ => P := by
  refine warranted_update .drain hP trivial nofun fun a => ?_
  rw [Arena.Op.outcome]
  cases a.drain <;> rfl

/-- A buffer is registered as detached. -/
theorem warranted_register (hP : W.Stable P) :
    Warranted W (fun w => P w ∧ W.enters b ∧ b < w.cells.size) (onArena p (·.register b))
      fun key w => P w ∧ W.Names p key w := by
  rintro w hr ⟨hw, hb, hthere⟩
  cases hp : w.pool? p with
  | none =>
      rw [leaves_of_error (onArena_of_none hp)]
      exact ⟨.refl w, fun _ _ hrun => nomatch (onArena_of_none hp).symm.trans hrun⟩
  | some pool =>
      have hleaves : (onArena p (·.register b)).leaves w =
          w.setArena p ((Arena.Op.register b).perform pool.arena).2 := by
        refine leaves_onArena ?_ hp
        rw [Arena.Op.outcome]
        cases pool.arena.register b <;> rfl
      have hs : W.Serves w ((onArena p (·.register b)).leaves w) := by
        rw [hleaves]
        refine .of_step (.update hp hb fun b' hb' => ?_) rfl rfl
        exact (Arena.Op.register.inj hb') ▸ hthere
      refine ⟨hs, fun key w' hrun => ⟨?_, fun b' lane hk => ?_⟩⟩
      · rw [leaves_of_ok hrun] at hs
        exact hP w w' hr hs hw
      · obtain ⟨wiring, hwired⟩ := hr.sound p pool.arena (arena?_of_pool? hp)
        obtain ⟨key', arena, hreg, hregistered, -⟩ := Arena.register_wired hwired b
        obtain ⟨rfl, rfl⟩ := EStateM.Result.ok.inj ((onArena_of_ok hp hreg).symm.trans hrun)
        rw [place?_setArena hp, if_pos rfl, hregistered.place?, if_pos rfl] at hk
        exact (Prod.mk.inj (Option.some.inj hk)).1 ▸ hb

/-- Putting something into a lane ends without a change, or it remains to be told. -/
theorem prepend_serves {w : World σ} (hs : w.Sound) (p : PoolId) (lane : Lane) (key : Arena.Key) :
    (∃ fault, onArena p (fun arena => (arena.prepend lane key).map ((), ·)) w = .error fault w) ∨
    ∃ w', onArena p (fun arena => (arena.prepend lane key).map ((), ·)) w = .ok () w' ∧
      ∀ (W : Warrant) es, W.Names p key w → Announcing p lane key es →
        W.Serves w { w' with events := es ++ w'.events } := by
  cases hp : w.pool? p with
  | none => exact .inl ⟨_, onArena_of_none hp⟩
  | some pool =>
      obtain ⟨wiring, hwired⟩ := hs p pool.arena (arena?_of_pool? hp)
      rcases Arena.prepend_cases hwired lane key with ⟨-, he⟩ | ⟨_, _, -, he⟩ |
        ⟨b, arena, f, hplace, he, -⟩
      · exact .inl ⟨_, onArena_of_error hp (congrArg (Except.map ((), ·)) he)⟩
      · exact .inl ⟨_, onArena_of_error hp (congrArg (Except.map ((), ·)) he)⟩
      · have hperform : ((Arena.Op.prepend lane key).perform pool.arena).2 = arena := by
          simp only [Arena.Op.perform, Arena.Op.outcome, he, Except.map]
        refine .inr ⟨_, onArena_of_ok hp (congrArg (Except.map ((), ·)) he), fun W es hn ha => ?_⟩
        have hb : W.enters b := hn b none ((place?_of_pool? hp key).trans hplace)
        rw [← hperform]
        exact .of_step (.enter hp hplace hb ha) rfl rfl

theorem place?_of_readArena {w w' : World σ} (hs : w.Sound) {lane : Lane} {dir : Direction}
    {entries : List (Arena.Key × BufferId)}
    (h : readArena p (·.entries lane dir) w = .ok entries w') :
    w' = w ∧ ∀ e ∈ entries, w.place? p e.1 = some (e.2, some lane) := by
  cases hp : w.pool? p with
  | none => exact nomatch (readArena_of_none hp).symm.trans h
  | some pool =>
      obtain ⟨wiring, hwired⟩ := hs p pool.arena (arena?_of_pool? hp)
      have hlane := hwired.lanes lane
      have hplace : ∀ e ∈ (wiring.lane lane).filterMap pool.arena.entryAt?,
          w.place? p e.1 = some (e.2, some lane) := by
        rintro ⟨key, b⟩ he
        rw [place?_of_pool? hp]
        exact Arena.place?_of_mem_entries hlane he
      cases dir with
      | forward =>
          rw [readArena_of_ok hp hlane.entries_forward] at h
          obtain ⟨rfl, rfl⟩ := EStateM.Result.ok.inj h
          exact ⟨rfl, hplace⟩
      | backward =>
          rw [readArena_of_ok hp hlane.entries_backward] at h
          obtain ⟨rfl, rfl⟩ := EStateM.Result.ok.inj h
          exact ⟨rfl, fun e he => hplace e (List.mem_reverse.1 he)⟩

/-- What is found in a lane. -/
theorem warranted_entries (hP : W.Stable P) (lane : Lane) (dir : Direction) :
    Warranted W P (readArena p (·.entries lane dir))
      fun entries w => P w ∧ ∀ e ∈ entries, W.Has p ⟨p, e.1, e.2⟩ w := by
  intro w hr hw
  obtain ⟨hs, hQ⟩ := warranted_calm hP (calm_readArena p (·.entries lane dir)) w hr hw
  refine ⟨hs, fun entries w' hrun => ⟨hQ entries w' hrun, fun e he => ?_⟩⟩
  obtain ⟨rfl, hplace⟩ := place?_of_readArena hr.sound hrun
  have hk := hplace e he
  have hb := hr.covers.listed p e.1 e.2 lane hk
  refine ⟨rfl, hb, hr.there p e.1 e.2 _ hk, fun b' lane' hk' => ?_⟩
  exact (Prod.mk.inj (Option.some.inj (hk.symm.trans hk'))).1 ▸ hb

end PoolM

namespace Pool

open PoolM World Warrant

variable {W : Warrant} {P : World σ → Prop} {p : PoolId} {b : BufferId}

theorem warranted_reclaim (hP : W.Stable P) : Warranted W P (reclaim p) fun _ => P := by
  refine Warranted.get_bind fun w hw => ?_
  refine Warranted.pre (P := P) ?_ fun _ he => he ▸ hw
  apply (warranted_reclaim_arena hP _).bind
  intro abandoned
  split_ifs
  · exact (warranted_calm hP (calm_note p _)).bind fun _ => warranted_calm hP (calm_retireAll p abandoned)
  · exact .pure fun _ h => h

theorem warranted_make (hP : W.Stable P) (hG : W.Grants P) (requested : UInt64) :
    Warranted W P (make p requested) fun r w =>
      P w ∧ ∀ b, r = some b → W.enters b ∧ b < w.cells.size ∧ W.grants b := by
  intro w hr hw
  obtain ⟨hs, hQ⟩ := warranted_calm hP (calm_make p requested) w hr hw
  refine ⟨hs, fun r w' hrun => ⟨hQ r w' hrun, ?_⟩⟩
  rintro b rfl
  obtain ⟨rfl, hsize⟩ := make_eq_ok hrun
  refine ⟨hr.covers.fresh _ (Nat.le_refl _), hsize ▸ Nat.lt_succ_self _, hG w _ hw ?_⟩
  rw [World.buffer, Array.getElem?_eq_none (Nat.le_refl _)]
  rfl

theorem warranted_enroll (hP : W.Stable P) :
    Warranted W (fun w => P w ∧ W.enters b ∧ b < w.cells.size ∧ W.grants b) (enroll p b)
      fun h w => P w ∧ W.Provided p h w := by
  have hcarried : W.Stable fun w => P w ∧ b < w.cells.size ∧ W.grants b :=
    hP.and ((stable_lt b).and fun _ _ _ _ h => h)
  have hregister : Warranted W (fun w => P w ∧ W.enters b ∧ b < w.cells.size ∧ W.grants b)
      (owning b (onArena (σ := σ) p (·.register b)))
      (fun key w => (P w ∧ b < w.cells.size ∧ W.grants b) ∧ W.Names p key w) :=
    (warranted_register hcarried).owning.pre fun w h =>
      ⟨⟨h.1, h.2.2.1, h.2.2.2⟩, h.2.1, h.2.2.1⟩
  have henters : Warranted W (fun w => P w ∧ W.enters b ∧ b < w.cells.size ∧ W.grants b)
      (owning b (onArena (σ := σ) p (·.register b)))
      (fun key w => ((P w ∧ b < w.cells.size ∧ W.grants b) ∧ W.Names p key w) ∧ W.enters b) :=
    (hregister.keeping fun _ _ _ _ h => h).pre fun w h => ⟨h, h.2.1⟩
  refine henters.bind fun key => ?_
  have hstable : W.Stable fun w =>
      ((P w ∧ b < w.cells.size ∧ W.grants b) ∧ W.Names p key w) ∧ W.enters b :=
    (hcarried.and (stable_names p key)).and fun _ _ _ _ h => h
  exact (warranted_calm hstable (calm_retain b)).bind fun _ => .pure fun w h =>
    ⟨h.1.1.1, ⟨rfl, h.2, h.1.1.2.1, h.1.2⟩, h.1.1.2.2⟩

theorem warranted_some_enroll (hP : W.Stable P) :
    Warranted W (fun w => P w ∧ W.enters b ∧ b < w.cells.size ∧ W.grants b) (some <$> enroll p b)
      fun r w => P w ∧ ∀ h, r = some h → W.Provided p h w :=
  (warranted_enroll hP).map some fun _ _ hw => ⟨hw.1, fun _ he => Option.some.inj he ▸ hw.2⟩

theorem warranted_allocate (hP : W.Stable P) (hG : W.Grants P) (requested : UInt64) :
    Warranted W P (allocate p requested) fun r w => P w ∧ ∀ h, r = some h → W.Provided p h w := by
  apply (warranted_reclaim hP).bind
  intro _
  apply (warranted_make hP hG requested).bind
  rintro (_ | b)
  · exact .pure fun _ h => ⟨h.1, nofun⟩
  · exact (warranted_some_enroll hP).pre fun _ h => ⟨h.1, h.2 b rfl⟩

theorem warranted_allocateWithin (hP : W.Stable P) (hG : W.Grants P) (requested : UInt64) :
    Warranted W P (allocateWithin p requested) fun r w => P w ∧ ∀ h, r = some h → W.Provided p h w := by
  apply (warranted_reclaim hP).bind
  intro _
  apply (warranted_make hP hG requested).bind
  rintro (_ | b)
  · exact .pure fun _ h => ⟨h.1, nofun⟩
  · exact (warranted_some_enroll hP).pre fun _ h => ⟨h.1, h.2 b rfl⟩

/-- An operation on a handle that must belong to the pool. -/
theorem warranted_checked {next : PoolM σ α} {Q : α → World σ → Prop} {h : Handle}
    (hn : h.pool = p → Warranted W P next Q) : Warranted W P (checkOwner p h >>= fun _ => next) Q := by
  by_cases hh : h.pool = p
  · intro w hr hw
    rw [leaves, bind_of_ok _ (checkOwner_of_eq hh)]
    exact hn hh w hr hw
  · have hrefused : ∀ w : World σ, checkOwner p h w = .error (.foreign h.pool p) w := by
      intro w
      rw [checkOwner, if_pos (bne_iff_ne.2 hh)]
      rfl
    intro w _ _
    rw [leaves, bind_of_error _ (hrefused w)]
    exact ⟨.refl w, fun _ _ hr => (error_ne_ok hr).elim⟩

theorem warranted_deallocate (hP : W.Stable P) (h : Handle) : Warranted W P (deallocate p h) fun _ => P := by
  apply ((warranted_checked fun _ => warranted_unregister hP h.key).owning).bind
  intro b
  exact (warranted_calm hP (calm_drop h.buffer)).bind fun _ =>
    (warranted_calm hP (calm_retire p b)).bind fun _ => warranted_calm hP (calm_drop b)

/-- How putting a buffer into a lane is told. -/
theorem announce_insert (p : PoolId) (lane : Lane) (h : Handle) (w : World σ) :
    ∃ es, Announcing p lane h.key es ∧
      (do if lane = .full then emit (.published p h.buffer h.key (← getBuffer h.buffer).totalSize)
          emit (.inserted p lane h.key) : PoolM σ Unit) w =
        .ok () { w with events := es ++ w.events } := by
  cases lane with
  | free => exact ⟨_, .free h.key, rfl⟩
  | full => exact ⟨_, .full h.key h.buffer (w.buffer h.buffer).totalSize, rfl⟩

theorem warranted_insert (hP : W.Stable P) (lane : Lane) {h : Handle}
    (hn : h.pool = p → ∀ w, P w → W.Names p h.key w) : Warranted W P (insert p lane h) fun _ => P := by
  apply warranted_checked
  intro hh
  refine .of_serves hP fun w hr hw => ?_
  rcases prepend_serves hr.sound p lane h.key with ⟨fault, hrun⟩ | ⟨w', hrun, hserves⟩
  · rw [leaves, bind_of_error _ hrun]
    exact .refl w
  · obtain ⟨es, hes, htold⟩ := announce_insert p lane h w'
    rw [leaves, bind_of_ok _ hrun, htold]
    exact hserves W es (hn hh w hw) hes

theorem warranted_remove (hP : W.Stable P) (lane : Lane) (h : Handle) :
    Warranted W P (remove p lane h) fun _ => P :=
  warranted_checked fun _ => warranted_remove_key hP lane h.key

theorem warranted_move (hP : W.Stable P) (source : Lane) {h : Handle}
    (hn : h.pool = p → ∀ w, P w → W.Names p h.key w) : Warranted W P (move p source h) fun _ => P :=
  (warranted_remove hP source h).bind fun _ => warranted_insert hP source.other hn

/-- A buffer that is kept goes to the head of the free lane. -/
theorem warranted_retain_free (hP : W.Stable P) {h : Handle} (hn : ∀ w, P w → W.Names p h.key w) :
    Warranted W P (do
      owning h.buffer (onArena p fun arena => (arena.prepend .free h.key).map ((), ·))
      emit (.kept p h.key)
      PoolM.drop h.buffer) fun _ => P := by
  refine .of_serves hP fun w hr hw => ?_
  rcases prepend_serves hr.sound p .free h.key with ⟨fault, hrun⟩ | ⟨w', hrun, hserves⟩
  · have herror : owning h.buffer (onArena p fun arena =>
        (arena.prepend .free h.key).map ((), ·)) w = .error fault (w.drop h.buffer) :=
      onFault_of_error hrun
    rw [leaves, bind_of_error _ herror]
    exact .of_calm (World.calm_drop w h.buffer)
  · have hdrop := World.calm_drop (w'.emit (.kept p h.key)) h.buffer
    rw [leaves, bind_of_ok _ (owning_of_ok hrun)]
    exact (hserves W _ (hn w hw) (.kept h.key)).trans (.of_calm hdrop)

theorem warranted_dispose (hP : W.Stable P) {h : Handle} (hn : ∀ w, P w → W.Names p h.key w) :
    Warranted W P (dispose p h) fun _ => P := by
  apply (warranted_calm hP (calm_getBuffer h.buffer)).bind
  intro buffer
  split_ifs
  · exact (warranted_calm hP (calm_note p _)).bind fun _ => warranted_deallocate hP h
  · have hasked : Calm (σ := σ) (do
        expectIdle h.buffer
        consult p) := (calm_expectIdle h.buffer).bind fun _ => calm_consult p
    apply (warranted_calm hP hasked).owning.bind
    intro keep
    split_ifs
    · exact warranted_retain_free hP hn
    · exact warranted_deallocate hP h

theorem warranted_release (hP : W.Stable P) (lane : Lane) {h : Handle}
    (hn : h.pool = p → ∀ w, P w → W.Names p h.key w) : Warranted W P (release p lane h) fun _ => P := by
  by_cases hh : h.pool = p
  · exact (warranted_remove hP lane h).owning.bind fun _ => warranted_dispose hP (hn hh)
  · -- The first step refuses a foreign handle, and nothing follows.
    exact ((warranted_checked fun hpool => absurd hpool hh).owning (Q := fun _ _ => False)).bind
      fun _ _ _ hfalse => hfalse.elim

theorem warranted_giveBack (hP : W.Stable P) (lane : Lane) {h : Handle}
    (hn : h.pool = p → ∀ w, P w → W.Names p h.key w) : Warranted W P (giveBack p lane h) fun _ => P :=
  (warranted_calm hP ((calm_getBuffer h.buffer).bind fun _ => calm_expect _ _)).owning.bind fun _ =>
    warranted_release hP lane hn

end Pool

end BufferPool
