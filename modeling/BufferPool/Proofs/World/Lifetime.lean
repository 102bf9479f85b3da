import BufferPool.Proofs.World.Operations

/-!
# Traversals, set-up and closing

A traversal holds what it has captured, and holding a known handle forgets nothing. Setting a pool up
registers buffers and vacates no slot, because every buffer is put into the free lane before the next
one is allocated, so there is never a detached one to reclaim. Closing a pool ends its ledger.
-/

namespace BufferPool

open PoolM

variable {σ α : Type}

/-- A sound pool can be closed: nothing in it gets in the way. -/
theorem Pool.close_of_wired {w : World σ} {p : PoolId} {pool : Pool} {wiring : Arena.Wiring}
    (hp : w.pool? p = some pool) (hw : pool.arena.Wired wiring) :
    ∃ w₂, Pool.close p w = .ok () (w₂.retirePool p) ∧ World.Quiet (w.setArena p .empty) w₂ := by
  obtain ⟨buffers, hdrain⟩ : ∃ buffers, onArena p (·.drain) w = .ok buffers (w.setArena p .empty) :=
    ⟨_, onArena_of_ok hp (Arena.drain_wired hw)⟩
  let w₁ := (w.setArena p .empty).emit (.noted p (.closing buffers.length pool.arena.detached))
  obtain ⟨w₂, hw₂⟩ := Pool.retireAll_ok p buffers w₁
  have hnote : World.Quiet (w.setArena p .empty) w₁ := quiet_note p _ (w.setArena p .empty)
  have hretire := Pool.quiet_retireAll p buffers w₁
  rw [leaves_of_ok hw₂] at hretire
  refine ⟨w₂, ?_, hnote.trans hretire⟩
  unfold Pool.close
  rw [bind_of_ok _ (getPool_of_some hp), bind_of_ok _ hdrain]
  exact bind_of_ok _ hw₂

variable [Client σ]

theorem Fits.hold {c : Chronicle} {w : World σ} {handles : List Handle} (h : Fits c w)
    (hk : ∀ g ∈ handles, c.Known g) : Fits c (w.hold handles) := by
  have hq := h.quiet (World.quiet_foldl_retain w handles)
  refine ⟨hq.unbuilt, hq.arena, hq.closed, hq.cells, hq.reserved, ?_, hq.roots⟩
  intro gs hgs
  rcases List.mem_cons.1 hgs with rfl | hgs
  · exact hk
  · exact h.held gs ((World.quiet_foldl_retain w handles).held ▸ hgs)

theorem Fits.letGo {c : Chronicle} {w : World σ} (h : Fits c w) : Fits c w.letGo := by
  unfold World.letGo
  cases hh : w.held with
  | nil => exact h
  | cons handles outer =>
      have hq := h.quiet (World.quiet_dropAll w handles)
      refine ⟨hq.unbuilt, hq.arena, hq.closed, hq.cells, hq.reserved, ?_, hq.roots⟩
      intro gs hgs
      exact h.held gs (hh ▸ List.mem_cons_of_mem _ hgs)

theorem Evolves.ensuring {P : Chronicle → World σ → Prop} {F : Chronicle → Chronicle → Prop}
    {act : PoolM σ α} {Q : α → Chronicle → World σ → Prop} {finish : World σ → World σ}
    (h : Evolves P F act Q) (hf : ∀ c w, Fits c w → Fits c (finish w)) :
    Evolves P F (ensuring finish act) Anything := by
  intro c w hfit hP
  obtain ⟨c', hF, hfit', -⟩ := h c w hfit hP
  refine ⟨c', hF, ?_, fun _ _ _ => trivial⟩
  unfold leaves at hfit' ⊢
  unfold PoolM.ensuring
  cases hr : act w with
  | ok a w' =>
      rw [hr] at hfit'
      exact hf c' w' hfit'
  | error fault w' =>
      rw [hr] at hfit'
      exact hf c' w' hfit'

namespace Pool

theorem evolves_entries (p : PoolId) (lane : Lane) (dir : Direction) :
    Evolves (σ := σ) Always Eq (readArena p (·.entries lane dir))
      fun entries c _ => ∀ e ∈ entries, c.Known ⟨p, e.1, e.2⟩ := by
  apply Evolves.of_quiet (quiet_readArena p _)
  intro c w entries w' hfit _ hr e he
  cases hp : w.pool? p with
  | none =>
      rw [readArena_of_none hp] at hr
      exact nomatch hr
  | some pool =>
      obtain ⟨⟨wiring, hw⟩, -⟩ := hfit.arena p pool.arena (World.arena?_of_pool? hp)
      have hmem : e ∈ (wiring.lane lane).filterMap pool.arena.entryAt? := by
        cases dir with
        | forward =>
            rw [readArena_of_ok hp (hw.lanes lane).entries_forward] at hr
            exact (EStateM.Result.ok.inj hr).1 ▸ he
        | backward =>
            rw [readArena_of_ok hp (hw.lanes lane).entries_backward] at hr
            exact List.mem_reverse.1 ((EStateM.Result.ok.inj hr).1 ▸ he)
      exact hfit.known_of_place? (World.arena?_of_pool? hp)
        (Arena.place?_of_mem_entries (hw.lanes lane) hmem)

theorem evolves_capture (p : PoolId) (lane : Lane) (dir : Direction) :
    Evolves (σ := σ) Always Eq (capture p lane dir) fun handles c _ => ∀ h ∈ handles, c.Known h := by
  apply (evolves_entries p lane dir).bind_eq
  intro entries c w hfit hentries
  have hknown : ∀ h ∈ entries.map fun e => (⟨p, e.1, e.2⟩ : Handle), c.Known h := by
    intro h hh
    obtain ⟨e, he, rfl⟩ := List.mem_map.1 hh
    exact hentries e he
  refine ⟨c, rfl, hfit.hold hknown, fun handles w' ha => ?_⟩
  rw [← (EStateM.Result.ok.inj ha).1]
  exact hknown

theorem evolves_visitAll {visit : α → Handle → PoolM σ (Bool × α)}
    (hv : ∀ a h, Evolves Always Chronicle.Vacates (visit a h) Anything) (a : α)
    (handles : List Handle) :
    Evolves Always Chronicle.Vacates (visitAll visit a handles) Anything := by
  induction handles generalizing a with
  | nil => exact (Evolves.quiet (.pure _)).vacates
  | cons h rest ih =>
      apply (hv a h).bind
      intro r
      obtain ⟨more, a'⟩ := r
      dsimp only
      split_ifs
      · exact (ih a').always
      · exact (Evolves.quiet (.pure _)).vacates

theorem evolves_traverse {visit : α → Handle → PoolM σ (Bool × α)}
    (hv : ∀ a h, Evolves Always Chronicle.Vacates (visit a h) Anything) (p : PoolId) (lane : Lane)
    (dir : Direction) (start : α) :
    Evolves Always Chronicle.Vacates (traverse p lane dir visit start) Anything := by
  apply (evolves_capture p lane dir).vacates.bind
  intro handles
  apply Evolves.always
  apply Evolves.ensuring (Q := Anything) ?_ fun c w h => h.letGo
  apply (Evolves.quiet (quiet_note p _)).vacates.bind
  intro _
  exact (evolves_visitAll hv start handles).always

theorem evolves_travel {visit : α → Handle → PoolM σ (Bool × α)}
    (hv : ∀ a h, Evolves Always Chronicle.Vacates (visit a h) Anything) (p : PoolId) (route : Route)
    (dir : Direction) (start : α) :
    Evolves Always Chronicle.Vacates (travel p route dir visit start) Anything := by
  cases route with
  | full =>
      apply (Evolves.quiet (quiet_count p .full)).vacates.bind
      intro n
      split_ifs
      · exact (Evolves.quiet (.pure _)).vacates
      · apply (evolves_traverse hv p .full dir start).always.bind
        intro r
        exact (Evolves.quiet (.pure _)).vacates
  | free =>
      apply (Evolves.quiet (quiet_count p .free)).vacates.bind
      intro n
      apply (Evolves.quiet (quiet_expect _ _)).vacates.bind
      intro _
      apply (evolves_traverse hv p .free dir start).always.bind
      intro r
      exact (Evolves.quiet (.pure _)).vacates
  | lane lane =>
      apply (evolves_traverse hv p lane dir start).bind
      intro r
      obtain ⟨done, a⟩ := r
      exact (Evolves.quiet (.pure _)).vacates

end Pool

namespace Sweep

theorem evolves_visit (me : Thread) (s : Sweep) (h : Handle) :
    Evolves (σ := σ) Always Chronicle.Vacates (visit me s h) Anything := by
  apply (Evolves.quiet (quiet_getBuffer h.buffer)).vacates.bind
  intro buffer
  split_ifs
  · apply (Evolves.quiet (PoolM.quiet_retain h.buffer)).vacates.bind
    intro _
    apply (Pool.evolves_giveBack s.pool s.lane h).always.bind
    intro _
    exact (Evolves.quiet (.pure _)).vacates
  · apply (Evolves.quiet (quiet_hold s me h.buffer)).vacates.bind
    intro held
    split_ifs
    · exact (Evolves.quiet ((quiet_recycle me h.buffer).bind fun _ => .pure _)).vacates
    · exact (Evolves.quiet (.pure _)).vacates

theorem evolves_pass (me : Thread) (route : Pool.Route) (dir : Direction) (s : Sweep) :
    Evolves (σ := σ) Always Chronicle.Vacates (s.pass me route dir) Anything := by
  apply (Pool.evolves_travel (evolves_visit me) s.pool route dir s).bind
  intro r
  exact (Evolves.quiet (.pure _)).vacates

theorem evolves_passes (me : Thread) (route : Pool.Route) (dir : Direction) (n : Nat) (s : Sweep) :
    Evolves (σ := σ) Always Chronicle.Vacates (passes me route dir n s) Anything := by
  induction n generalizing s with
  | zero => exact (Evolves.quiet (.pure _)).vacates
  | succ n ih =>
      apply (evolves_pass me route dir s).bind
      intro s'
      apply (ih s').always.bind
      intro counts
      exact (Evolves.quiet (.pure _)).vacates

end Sweep

/-- A closed pool takes its arena out of consideration, whatever was left in it. -/
theorem Fits.close {c : Chronicle} {w w₁ w₂ : World σ} {p : PoolId} {pool : Pool}
    {arena : Arena BufferId} (h : Fits c w) (hp : w.pool? p = some pool)
    (h₁ : w₁ = w.setArena p arena) (h₂ : World.Quiet w₁ w₂) :
    Fits (c.close p) (w₂.retirePool p) := by
  subst h₁
  have hsize : (w₂.retirePool p).pools.size = w.pools.size := by
    calc (w₂.retirePool p).pools.size
      _ = w₂.pools.size := World.size_modifyPool ..
      _ = (w.setArena p arena).pools.size := h₂.pools
      _ = w.pools.size := World.size_modifyPool ..
  have harena : ∀ q, (w₂.retirePool p).arena? q = if q = p then none else w.arena? q := by
    intro q
    rw [World.arena?_retirePool]
    by_cases hq : q = p
    · rw [if_pos hq, if_pos hq]
    · rw [if_neg hq, if_neg hq, h₂.arena, World.arena?_setArena arena hp, if_neg hq]
  refine ⟨fun q hq => h.unbuilt q (hsize ▸ hq), fun q a ha => ?_, fun q => ?_,
    fun q i e b hb => ?_, fun b hb => ?_, ?_, ?_⟩
  · rw [harena] at ha
    split_ifs at ha
    exact h.arena q a ha
  · rw [hsize, harena]
    change q = p ∨ c.closed q ↔ _
    rw [h.closed]
    by_cases hq : q = p
    · rw [if_pos hq, hq]
      exact iff_of_true (.inl rfl) ⟨World.lt_size_of_pool? hp, rfl⟩
    · rw [if_neg hq]
      exact or_iff_right hq
  · exact Nat.lt_of_lt_of_le (h.cells q i e b hb) h₂.cells
  · exact Nat.lt_of_lt_of_le (h.reserved b hb) h₂.cells
  · intro handles hh
    exact h.held handles (h₂.held ▸ hh)
  · intro g hg
    exact h.roots g (h₂.client ▸ hg)

/-- A pool whose arena is empty joins the others. -/
theorem Fits.push {k : Chronicle} {w : World σ} (h : Fits k w) (pool : Pool)
    (he : pool.arena = .empty) :
    Fits (k.found w.pools.size pool.live) { w with pools := w.pools.push pool } := by
  have hsize : (w.pools.push pool).size = w.pools.size + 1 := Array.size_push _
  refine ⟨fun q hq => ?_, fun q a ha => ?_, fun q => ?_, h.cells, h.reserved, h.held, h.roots⟩
  · exact h.unbuilt q (Nat.le_of_succ_le (hsize ▸ hq : w.pools.size + 1 ≤ q))
  · rw [World.arena?_push] at ha
    split_ifs at ha with hq hl
    · change a.Sound ∧ a.Recorded (k.ledger q)
      rw [← Option.some.inj ha, he, h.unbuilt q (Nat.le_of_eq hq.symm)]
      exact ⟨⟨_, Arena.empty_wired⟩, Arena.recorded_empty⟩
    · exact h.arena q a ha
  · change (q = w.pools.size ∧ pool.live = false) ∨ k.closed q ↔ q < (w.pools.push pool).size ∧ _
    rw [h.closed, World.arena?_push, hsize]
    by_cases hq : q = w.pools.size
    · subst hq
      cases hl : pool.live <;> simp
    · rw [if_neg hq]
      have hlt : q < w.pools.size ↔ q < w.pools.size + 1 :=
        ⟨Nat.lt_succ_of_lt, fun h => Nat.lt_of_le_of_ne (Nat.le_of_lt_succ h) hq⟩
      simp only [hq, false_and, false_or, hlt]

namespace Pool

theorem evolves_close (p : PoolId) :
    Evolves (σ := σ) Always Chronicle.Settles (close p) Anything := by
  intro c w hfit _
  cases hp : w.pool? p with
  | none =>
      have hrun : close p w = .error (.noPool p) w := bind_of_error _ (getPool_of_none hp)
      refine ⟨c, .refl c, ?_, fun _ _ _ => trivial⟩
      rw [leaves_of_error hrun]
      exact hfit
  | some pool =>
      obtain ⟨⟨wiring, hw⟩, -⟩ := hfit.arena p pool.arena (World.arena?_of_pool? hp)
      obtain ⟨w₂, hrun, hq⟩ := close_of_wired hp hw
      refine ⟨c.close p, ⟨fun _ => .refl _, fun _ => .inr, rfl⟩, ?_, fun _ _ _ => trivial⟩
      rw [leaves_of_ok hrun]
      exact hfit.close hp rfl hq

/-- The pool, if it is set up, has `n` detached buffers. -/
def Tidy (p : PoolId) (n : Nat) (_ : Chronicle) (w : World σ) : Prop :=
  ∀ a, w.arena? p = some a → a.detached = n

omit [Client σ] in
theorem Tidy.quiet {p : PoolId} {n : Nat} {c c' : Chronicle} {w w' : World σ} (h : Tidy p n c w)
    (hq : World.Quiet w w') : Tidy p n c' w' :=
  fun a ha => h a (hq.arena p ▸ ha)

theorem evolves_tidy {p : PoolId} {n : Nat} {act : PoolM σ α} (h : Quiet act) :
    Evolves (Tidy p n) Eq act fun _ => Tidy p n := by
  apply Evolves.of_quiet h
  intro c w a w' _ hp ha
  have hq := h w
  rw [leaves_of_ok ha] at hq
  exact hp.quiet hq

theorem evolves_reclaim_tidy (p : PoolId) :
    Evolves (σ := σ) (Tidy p 0) Eq (reclaim p) fun _ => Tidy p 0 := by
  intro c w hfit htidy
  cases hp : w.pool? p with
  | none =>
      have hget : (MonadState.get : PoolM σ (World σ)) w = .ok w w := rfl
      have hrun : reclaim p w = .error (.noPool p) w := by
        unfold reclaim
        rw [bind_of_ok _ hget, bind_of_error _ (onArena_of_none hp)]
      refine ⟨c, rfl, ?_, fun a w' ha => ?_⟩
      · rw [leaves_of_error hrun]
        exact hfit
      · rw [hrun] at ha
        exact nomatch ha
  | some pool =>
      have hrun := reclaim_of_detached_eq_zero hp (htidy _ (World.arena?_of_pool? hp))
      refine ⟨c, rfl, ?_, fun a w' ha => ?_⟩
      · rw [leaves_of_ok hrun]
        exact hfit
      · rw [hrun] at ha
        obtain ⟨-, rfl⟩ := EStateM.Result.ok.inj ha
        exact htidy

theorem evolves_enroll_tidy (p : PoolId) (b : BufferId) :
    Evolves (σ := σ) (fun c w => New b c w ∧ Tidy p 0 c w) Chronicle.Settles (enroll p b)
      fun _ => Tidy p 1 := by
  have henroll : Evolves (σ := σ) (fun c w => New b c w ∧ Tidy p 0 c w) Chronicle.Settles
      (enroll p b) Gives := (evolves_enroll p b).weaken (fun _ _ h => h.1) id fun _ _ _ h => h
  refine (henroll.and_post (R := fun _ => Tidy p 1) ?_).weaken (fun _ _ h => h) id fun _ _ _ h => h.2
  intro c w c' h w' hfit hP hr a ha
  obtain ⟨key, w₁, hon, hrest⟩ := bind_eq_ok hr
  obtain ⟨pool, arena, hp, hreg, rfl⟩ := onArena_eq_ok (onFault_eq_ok hon)
  have hpool := World.arena?_of_pool? hp
  have harena : a = arena := by
    obtain ⟨_, w₂, hretain, hpure⟩ := bind_eq_ok hrest
    obtain ⟨-, rfl⟩ := EStateM.Result.ok.inj hretain
    obtain ⟨-, rfl⟩ := EStateM.Result.ok.inj hpure
    rw [(World.quiet_retain _ b).arena, World.arena?_setArena arena hp, if_pos rfl] at ha
    exact (Option.some.inj ha).symm
  obtain ⟨⟨wiring, hw⟩, -⟩ := hfit.arena p pool.arena hpool
  rw [harena, Arena.detached_of_register hw hreg, hP.2 pool.arena hpool]

theorem evolves_insert_tidy (p : PoolId) (h : Handle) :
    Evolves (σ := σ) (Tidy p 1) Eq (insert p .free h) fun _ => Tidy p 0 := by
  have hinsert : Evolves (σ := σ) (Tidy p 1) Eq (insert p .free h) Anything :=
    (evolves_insert p .free h).always
  refine (hinsert.and_post (R := fun _ => Tidy p 0) ?_).weaken (fun _ _ h => h) id fun _ _ _ h => h.2
  intro c w c' _ w' hfit hP hr a ha
  obtain ⟨_, w₁, hcheck, hrest⟩ := bind_eq_ok hr
  have hq₁ := quiet_checkOwner p h w
  rw [leaves_of_ok hcheck] at hq₁
  obtain ⟨_, w₂, hon, hnote⟩ := bind_eq_ok hrest
  obtain ⟨pool, arena, hp, hpre, rfl⟩ := onArena_eq_ok hon
  have hpool := World.arena?_of_pool? hp
  have hquiet : Quiet (σ := σ) (do
      if Lane.free = .full then emit (.published p h.buffer h.key (← getBuffer h.buffer).totalSize)
      emit (.inserted p .free h.key)) := quiet_emit _
  have hq₂ := hquiet (w₁.setArena p arena)
  rw [leaves_of_ok hnote] at hq₂
  have harena : a = arena := by
    rw [hq₂.arena, World.arena?_setArena arena hp, if_pos rfl] at ha
    exact (Option.some.inj ha).symm
  have hprepend : pool.arena.prepend .free h.key = .ok arena := by
    cases he : pool.arena.prepend .free h.key with
    | error fault =>
        rw [he] at hpre
        exact nomatch hpre
    | ok a' =>
        rw [he] at hpre
        exact congrArg Except.ok (Prod.mk.inj (Except.ok.inj hpre)).2
  obtain ⟨⟨wiring, hw⟩, -⟩ := (hfit.quiet hq₁).arena p pool.arena hpool
  have hdet := Arena.detached_of_prepend hw hprepend
  have htidy : Tidy p 1 c w₁ := hP.quiet hq₁
  have hone := htidy pool.arena hpool
  rw [harena]
  omega

/-- If there is a buffer, then it is the only detached one. -/
theorem evolves_allocateWithin_tidy (p : PoolId) (requested : UInt64) :
    Evolves (σ := σ) (Tidy p 0) Chronicle.Settles (allocateWithin p requested)
      fun r c w => r.isSome → Tidy p 1 c w := by
  apply (evolves_reclaim_tidy p).settling.bind_settles
  intro _
  have hmake : Evolves (σ := σ) (Tidy p 0) Eq (make p requested)
      fun r c w => ∀ b ∈ r, New b c w ∧ Tidy p 0 c w := by
    have hnew := (evolves_make (σ := σ) p requested).always (P := Tidy p 0)
    refine (hnew.and_post (R := fun _ => Tidy p 0) ?_).weaken (fun _ _ h => h) id
      fun r c w h b hb => ⟨h.1 b hb, h.2⟩
    intro c w c' r w' _ htidy hr
    have hq := quiet_make p requested w
    rw [leaves_of_ok hr] at hq
    exact htidy.quiet hq
  apply hmake.settling.bind_settles
  intro made
  cases made with
  | none => exact (Evolves.pure fun _ _ _ => nofun).settling
  | some b =>
      have henroll : Evolves (σ := σ) (fun c w => New b c w ∧ Tidy p 0 c w) Chronicle.Settles
          (some <$> enroll p b) fun _ => Tidy p 1 :=
        (evolves_enroll_tidy p b).bind_eq fun h => .pure fun _ _ htidy => htidy
      exact henroll.weaken (fun _ _ h => h b rfl) id fun _ _ _ htidy _ => htidy

theorem evolves_preallocate (p : PoolId) (allocated remaining : Nat) :
    Evolves (σ := σ) (Tidy p 0) Chronicle.Settles (preallocate p allocated remaining) Anything := by
  induction remaining generalizing allocated with
  | zero => exact (Evolves.quiet (.pure _)).settling
  | succ remaining ih =>
      apply (evolves_tidy (quiet_getPool p)).settling.bind_settles
      intro pool
      apply (evolves_allocateWithin_tidy p pool.minimum).bind_settles
      intro r
      cases r with
      | none => exact (Evolves.quiet ((quiet_note p _).bind fun _ => .pure _)).settling
      | some h =>
          apply ((evolves_insert_tidy p h).owning.weaken (fun _ _ h => h rfl) id
            fun _ _ _ h => h).settling.bind_settles
          intro _
          apply (evolves_tidy (PoolM.quiet_drop h.buffer)).settling.bind_settles
          intro _
          exact ih (allocated + 1)

/-- An operation that closes the pool if it faults. -/
theorem evolves_closing {p : PoolId} {P : Chronicle → World σ → Prop} {act : PoolM σ α}
    (h : Evolves P Chronicle.Settles act Anything) :
    Evolves P Chronicle.Settles (closing p act) Anything := by
  intro c w hfit hP
  obtain ⟨c₁, hF, hfit₁, -⟩ := h c w hfit hP
  unfold leaves at hfit₁ ⊢
  unfold closing
  cases hr : act w with
  | ok a w₁ =>
      rw [hr] at hfit₁
      exact ⟨c₁, hF, hfit₁, fun _ _ _ => trivial⟩
  | error fault w₁ =>
      rw [hr] at hfit₁
      obtain ⟨c₂, hG, hfit₂, -⟩ := evolves_close p c₁ w₁ hfit₁ trivial
      unfold leaves at hfit₂
      refine ⟨c₂, hF.trans hG, ?_, fun _ _ _ => trivial⟩
      dsimp only
      cases hc : close p w₁ with
      | ok _ w₂ =>
          rw [hc] at hfit₂
          exact hfit₂
      | error _ w₂ =>
          rw [hc] at hfit₂
          exact hfit₂

theorem evolves_add (c : Config) (minimum : UInt64) (live : Bool) (p : PoolId) :
    Evolves (σ := σ) (fun _ w => w.pools.size = p) Chronicle.Settles (add c minimum live)
      fun _ => Tidy p 0 := by
  intro k w hfit hp
  subst hp
  let w' : World σ := { w with pools := w.pools.push ⟨c, minimum, c.heap, .empty, 0, 0, live⟩ }
  have hrun : add c minimum live w = .ok () w' := rfl
  refine ⟨k.found w.pools.size live, k.settles_found _ _, ?_, ?_⟩
  · rw [leaves_of_ok hrun]
    exact hfit.push ⟨c, minimum, c.heap, .empty, 0, 0, live⟩ rfl
  · intro _ w₁ hw₁ a ha
    obtain ⟨-, rfl⟩ := EStateM.Result.ok.inj (hrun.symm.trans hw₁)
    rw [World.arena?_push, if_pos rfl] at ha
    split_ifs at ha
    rw [← Option.some.inj ha]
    rfl

theorem evolves_build (c : Config) :
    Evolves (σ := σ) Always Chronicle.Settles (build c) Anything := by
  apply Evolves.get_bind
  intro w
  have hsize : ∀ (c : Chronicle) w', Always c w' ∧ w' = w → w'.pools.size = w.pools.size := by
    intro _ w' h
    rw [h.2]
  dsimp only
  split
  · apply ((evolves_add c 0 false w.pools.size).weaken hsize id fun _ _ _ h => h).bind_settles
    intro _
    exact (Evolves.quiet (.pure _)).settling
  · apply ((evolves_add c _ true w.pools.size).weaken hsize id fun _ _ _ h => h).bind_settles
    intro _
    apply (evolves_closing (evolves_preallocate w.pools.size 0 c.cacheCount)).bind_settles
    intro r
    cases r with
    | none => exact (Evolves.quiet ((quiet_note _ _).bind fun _ => .pure _)).settling
    | some allocated =>
        apply (evolves_close _).always.bind_settles
        intro _
        exact (Evolves.quiet (.pure _)).settling

end Pool

end BufferPool
