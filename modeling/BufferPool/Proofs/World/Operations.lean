import BufferPool.Pool.Setup
import BufferPool.Proofs.Pool.Outcome
import BufferPool.Proofs.World.Chronicle

/-!
# What each operation does to the past

Linking buffers in and out leaves the past as it is. Releasing vacates slots. Allocation reclaims
first, which vacates slots, and then registers one new buffer, so the tenant that moves in is never
one that was there before. Every operation of a pool is of one of these kinds or composed from them,
and every handle that it returns is known.
-/

namespace BufferPool

open PoolM

variable {σ α : Type} [Client σ]

theorem evolves_onArena {p : PoolId} {P : Chronicle → World σ → Prop}
    {F : Chronicle → Chronicle → Prop} {Q : α → Chronicle → World σ → Prop}
    {f : Arena BufferId → Except Arena.Fault (α × Arena BufferId)} (hrefl : ∀ c, F c c)
    (h : ∀ c w pool, Fits c w → P c w → w.pool? p = some pool →
      (∃ fault, f pool.arena = .error fault) ∨
      ∃ a arena c', f pool.arena = .ok (a, arena) ∧ F c c' ∧ Fits c' (w.setArena p arena) ∧
        Q a c' (w.setArena p arena)) :
    Evolves P F (onArena p f) Q := by
  intro c w hfit hP
  cases hp : w.pool? p with
  | none =>
      have hrun : onArena p f w = .error (.noPool p) w := onArena_of_none hp
      refine ⟨c, hrefl c, ?_, fun a w' ha => ?_⟩
      · rw [leaves_of_error hrun]
        exact hfit
      · rw [hrun] at ha
        exact nomatch ha
  | some pool =>
      rcases h c w pool hfit hP hp with ⟨fault, hf⟩ | ⟨a, arena, c', hf, hF, hfit', hQ⟩
      · have hrun : onArena p f w = .error (.arena fault) w := onArena_of_error hp hf
        refine ⟨c, hrefl c, ?_, fun a w' ha => ?_⟩
        · rw [leaves_of_error hrun]
          exact hfit
        · rw [hrun] at ha
          exact nomatch ha
      · have hrun : onArena p f w = .ok a (w.setArena p arena) := onArena_of_ok hp hf
        refine ⟨c', hF, ?_, fun b w' hb => ?_⟩
        · rw [leaves_of_ok hrun]
          exact hfit'
        · rw [hrun] at hb
          obtain ⟨rfl, rfl⟩ := EStateM.Result.ok.inj hb
          exact hQ

section Fits

variable {c : Chronicle} {w : World σ} {p : PoolId} {pool : Pool} {arena : Arena BufferId}

theorem Fits.relinked {f : Nat → Arena.Node BufferId → Arena.Node BufferId} {index : Nat}
    {lane : Option Lane} (h : Fits c w) (hp : w.pool? p = some pool)
    (hr : Arena.Relinked f pool.arena arena) (hm : Arena.Moves f index lane) (hs : arena.Sound) :
    Fits c (w.setArena p arena) := by
  have hrec := (h.arena p pool.arena (World.arena?_of_pool? hp)).2
  exact h.setArena hp hs (hr.recorded hm hrec) (fun _ _ => rfl) (.refl c) rfl
    fun i e b hb => h.cells p i e b hb

theorem Fits.cleared {keys : List Arena.Key} (h : Fits c w) (hp : w.pool? p = some pool)
    (hc : pool.arena.Cleared keys arena) (hs : arena.Sound) :
    ∃ c', c.Vacates c' ∧ Fits c' (w.setArena p arena) := by
  have hrec := (h.arena p pool.arena (World.arena?_of_pool? hp)).2
  obtain ⟨hrec', hv⟩ := hc.recorded hrec
  have hledger : (c.vacate p (keys.map (·.index))).ledger p =
      (c.ledger p).vacate (keys.map (·.index)) := Function.update_self ..
  have hother : ∀ q, q ≠ p → (c.vacate p (keys.map (·.index))).ledger q = c.ledger q :=
    fun q hq => Function.update_of_ne hq ..
  have hvac : c.Vacates (c.vacate p (keys.map (·.index))) := by
    refine ⟨fun q => ?_, rfl, rfl⟩
    by_cases hq : q = p
    · rw [hq, hledger]
      exact hv
    · rw [hother q hq]
      exact .refl _
  refine ⟨_, hvac, h.setArena hp hs (hledger ▸ hrec') hother hvac.updates rfl fun i e b hb => ?_⟩
  rw [hledger] at hb
  exact h.cells p i e b hb

theorem Fits.registered {key : Arena.Key} {b : BufferId} (h : Fits c w)
    (hp : w.pool? p = some pool) (hr : pool.arena.Registered b key arena)
    (hsize : arena.slots.size = max pool.arena.slots.size (key.index + 1))
    (hkey : key.index ≤ pool.arena.slots.size) (hs : arena.Sound) (hb : c.Fresh b)
    (hlt : b < w.cells.size) :
    ∃ c', c.Settles c' ∧ Fits c' (w.setArena p arena) ∧ c'.Known ⟨p, key, b⟩ := by
  have hrec := (h.arena p pool.arena (World.arena?_of_pool? hp)).2
  obtain ⟨hrec', hset, hgen⟩ := hr.recorded hsize hkey hrec
  let c' := c.settle p key.index b hb
  have hledger : c'.ledger p = (c.ledger p).settle key.index b := Function.update_self ..
  have hother : ∀ q, q ≠ p → c'.ledger q = c.ledger q := fun q hq => Function.update_of_ne hq ..
  have hsettles : c.Settles c' := by
    refine ⟨fun q => ?_, fun _ hq => hq, rfl⟩
    by_cases hq : q = p
    · rw [hq, hledger]
      exact hset
    · rw [hother q hq]
      exact .refl _
  refine ⟨c', hsettles, h.setArena hp hs (hledger ▸ hrec') hother hsettles.updates rfl ?_, ?_⟩
  · intro i e b' hb'
    rw [hledger] at hb'
    simp only [Arena.Ledger.settle] at hb'
    split_ifs at hb' with hi
    · rw [← Option.some.inj hb']
      exact hlt
    · exact h.cells p i e b' hb'
  · refine ⟨(c.ledger p).age key.index, hgen, ?_⟩
    change (c'.ledger p).tenant key.index _ = some b
    rw [hledger]
    simp only [Arena.Ledger.settle, and_self, if_true]

end Fits

theorem evolves_prepend (p : PoolId) (lane : Lane) (key : Arena.Key) :
    Evolves (σ := σ) Always Eq (onArena p fun arena => (arena.prepend lane key).map ((), ·))
      Anything := by
  apply evolves_onArena fun _ => rfl
  intro c w pool hfit _ hp
  obtain ⟨wiring, hw⟩ := (hfit.arena p pool.arena (World.arena?_of_pool? hp)).1
  rcases Arena.prepend_cases hw lane key with ⟨-, he⟩ | ⟨_, _, -, he⟩ |
    ⟨_, arena, f, -, he, hr, hm, hw'⟩
  · exact .inl ⟨_, by rw [he]; rfl⟩
  · exact .inl ⟨_, by rw [he]; rfl⟩
  · exact .inr ⟨(), arena, c, by rw [he]; rfl, rfl, hfit.relinked hp hr hm ⟨_, hw'⟩, trivial⟩

theorem evolves_remove (p : PoolId) (lane : Lane) (key : Arena.Key) :
    Evolves (σ := σ) Always Eq (onArena p fun arena => (arena.remove lane key).map ((), ·))
      Anything := by
  apply evolves_onArena fun _ => rfl
  intro c w pool hfit _ hp
  obtain ⟨wiring, hw⟩ := (hfit.arena p pool.arena (World.arena?_of_pool? hp)).1
  rcases Arena.remove_cases hw lane key with ⟨-, he⟩ | ⟨_, _, -, -, he⟩ |
    ⟨_, arena, f, -, he, hr, hm, hw'⟩
  · exact .inl ⟨_, by rw [he]; rfl⟩
  · exact .inl ⟨_, by rw [he]; rfl⟩
  · exact .inr ⟨(), arena, c, by rw [he]; rfl, rfl, hfit.relinked hp hr hm ⟨_, hw'⟩, trivial⟩

theorem evolves_unregister (p : PoolId) (key : Arena.Key) :
    Evolves (σ := σ) Always Chronicle.Vacates (onArena p (·.unregister key)) Anything := by
  apply evolves_onArena Chronicle.Vacates.refl
  intro c w pool hfit _ hp
  obtain ⟨wiring, hw⟩ := (hfit.arena p pool.arena (World.arena?_of_pool? hp)).1
  rcases Arena.unregister_cases hw key with ⟨-, he⟩ | ⟨_, _, -, he⟩ |
    ⟨b, arena, -, he, -, hc, hw'⟩
  · exact .inl ⟨_, he⟩
  · exact .inl ⟨_, he⟩
  · obtain ⟨c', hv, hfit'⟩ := hfit.cleared hp hc ⟨_, hw'⟩
    exact .inr ⟨b, arena, c', he, hv, hfit', trivial⟩

theorem evolves_reclaim (p : PoolId) (abandoned : BufferId → Bool) :
    Evolves (σ := σ) Always Chronicle.Vacates (onArena p fun arena => arena.reclaim abandoned)
      Anything := by
  apply evolves_onArena Chronicle.Vacates.refl
  intro c w pool hfit _ hp
  obtain ⟨wiring, hw⟩ := (hfit.arena p pool.arena (World.arena?_of_pool? hp)).1
  obtain ⟨arena, he, hc, hw'⟩ := Arena.reclaim_wired hw abandoned
  obtain ⟨c', hv, hfit'⟩ := hfit.cleared hp hc ⟨_, hw'⟩
  exact .inr ⟨_, arena, c', he, hv, hfit', trivial⟩

theorem evolves_register (p : PoolId) (b : BufferId) :
    Evolves (σ := σ) (New b) Chronicle.Settles (onArena p (·.register b))
      fun key => Gives ⟨p, key, b⟩ := by
  apply evolves_onArena Chronicle.Settles.refl
  intro c w pool hfit hnew hp
  obtain ⟨wiring, hw⟩ := (hfit.arena p pool.arena (World.arena?_of_pool? hp)).1
  obtain ⟨key, arena, he, hr, hindex, hsize, hw'⟩ := Arena.register_wired hw b
  have hkey : key.index ≤ pool.arena.slots.size := hindex ▸ hw.vacated.head_le
  obtain ⟨c', hset, hfit', hk⟩ := hfit.registered hp hr hsize hkey ⟨_, hw'⟩ hnew.1 hnew.2
  exact .inr ⟨key, arena, c', he, hset, hfit', hk⟩

namespace Pool

theorem evolves_make (p : PoolId) (requested : UInt64) :
    Evolves (σ := σ) Always Eq (make p requested) fun r c w => ∀ b ∈ r, New b c w := by
  apply Evolves.of_quiet (quiet_make p requested)
  intro c w r w' hfit _ hr b hb
  obtain rfl : r = some b := hb
  cases hp : w.pool? p with
  | none =>
      unfold make at hr
      rw [bind_of_error _ (getPool_of_none hp)] at hr
      exact nomatch hr
  | some pool =>
      cases hclass : SizeClass.ofRequest? requested pool.minimum with
      | none => exact absurd hr (make_of_no_class hp hclass b w')
      | some capacity =>
          rcases make_of_class hp hclass with ⟨w₁, hm, -⟩ | ⟨tag, w₁, hm, hcells⟩
          · rw [hr] at hm
            exact nomatch hm
          · rw [hr] at hm
            obtain ⟨hbw, rfl⟩ := EStateM.Result.ok.inj hm
            obtain rfl := Option.some.inj hbw
            refine ⟨⟨fun q i e he => ?_, fun hres => ?_⟩, ?_⟩
            · exact Nat.lt_irrefl _ (hfit.cells q i e _ he)
            · exact Nat.lt_irrefl _ (hfit.reserved _ hres)
            · rw [hcells, Array.size_push]
              exact Nat.lt_succ_self _

theorem evolves_reclaimAll (p : PoolId) :
    Evolves (σ := σ) Always Chronicle.Vacates (reclaim p) Anything := by
  apply (Evolves.quiet .get).vacates.bind
  intro w
  apply (evolves_reclaim p _).always.bind_eq
  intro abandoned
  split_ifs
  · exact .quiet ((quiet_note p _).bind fun _ => quiet_retireAll p abandoned)
  · exact .quiet (.pure _)

theorem evolves_enroll (p : PoolId) (b : BufferId) :
    Evolves (σ := σ) (New b) Chronicle.Settles (enroll p b) Gives := by
  apply (evolves_register p b).owning.bind_eq
  intro key
  apply (Evolves.quiet_gives (PoolM.quiet_retain b)).bind_eq
  intro _
  exact .pure fun _ _ hk => hk

theorem evolves_some_enroll (p : PoolId) (b : BufferId) :
    Evolves (σ := σ) (New b) Chronicle.Settles (some <$> enroll p b) GivesSome := by
  apply (evolves_enroll p b).bind_eq
  intro handle
  apply Evolves.pure
  intro c w hk h hh
  rw [← Option.some.inj hh]
  exact hk

theorem evolves_none {P : Chronicle → World σ → Prop} {F : Chronicle → Chronicle → Prop}
    (hF : ∀ c, F c c) : Evolves P F (pure none) GivesSome := by
  intro c w hfit _
  refine ⟨c, hF c, hfit, fun a w' ha h hh => ?_⟩
  obtain ⟨rfl, -⟩ := EStateM.Result.ok.inj ha
  exact nomatch hh

theorem evolves_allocate (p : PoolId) (requested : UInt64) :
    Evolves (σ := σ) Always Chronicle.Updates (allocate p requested) GivesSome := by
  apply (evolves_reclaimAll p).bind_updates
  intro _
  apply (evolves_make p requested).always.vacates.bind_updates
  intro made
  cases made with
  | none => exact evolves_none .refl
  | some b => exact ((evolves_some_enroll p b).weaken (fun _ _ h => h b rfl) id fun _ _ _ h => h).settles

theorem evolves_allocateWithin (p : PoolId) (requested : UInt64) :
    Evolves (σ := σ) Always Chronicle.Updates (allocateWithin p requested) GivesSome := by
  apply (evolves_reclaimAll p).bind_updates
  intro _
  apply (evolves_make p requested).always.vacates.bind_updates
  intro made
  cases made with
  | none => exact evolves_none .refl
  | some b => exact ((evolves_some_enroll p b).weaken (fun _ _ h => h b rfl) id fun _ _ _ h => h).settles

theorem evolves_deallocate (p : PoolId) (h : Handle) :
    Evolves (σ := σ) Always Chronicle.Vacates (deallocate p h) Anything := by
  have hout : Evolves (σ := σ) Always Chronicle.Vacates
      (owning h.buffer do
        checkOwner p h
        onArena p (·.unregister h.key)) Anything :=
    ((Evolves.quiet (quiet_checkOwner p h)).vacates.bind fun _ =>
      (evolves_unregister p h.key).always).owning
  apply hout.bind_eq
  intro b
  exact .quiet ((PoolM.quiet_drop _).bind fun _ => (quiet_retire p b).bind fun _ => PoolM.quiet_drop b)

theorem evolves_insert (p : PoolId) (lane : Lane) (h : Handle) :
    Evolves (σ := σ) Always Eq (insert p lane h) Anything := by
  apply (Evolves.quiet (quiet_checkOwner p h)).bind_eq
  intro _
  apply (evolves_prepend p lane h.key).always.bind_eq
  intro _
  split_ifs
  · exact .quiet ((quiet_getBuffer _).bind fun _ => (quiet_emit _).bind fun _ => quiet_emit _)
  · exact .quiet (quiet_emit _)

theorem evolves_take_out (p : PoolId) (lane : Lane) (h : Handle) :
    Evolves (σ := σ) Always Eq (remove p lane h) Anything := by
  apply (Evolves.quiet (quiet_checkOwner p h)).bind_eq
  intro _
  exact (evolves_remove p lane h.key).always

theorem evolves_move (p : PoolId) (source : Lane) (h : Handle) :
    Evolves (σ := σ) Always Eq (move p source h) Anything := by
  apply (evolves_take_out p source h).bind_eq
  intro _
  exact (evolves_insert p source.other h).always

theorem evolves_find (p : PoolId) (size : UInt64) (t : Thread) :
    Evolves (σ := σ) Always Eq (find p size t) GivesSome := by
  apply Evolves.of_quiet (quiet_find p size t)
  intro c w r w' hfit _ hr h hh
  obtain rfl : r = some h := hh
  obtain ⟨pool, entries, hp, he, rfl, hmem⟩ := find_mem hr
  obtain ⟨⟨wiring, hw⟩, -⟩ := hfit.arena h.pool pool.arena (World.arena?_of_pool? hp)
  rw [(hw.lanes .free).entries_forward] at he
  rw [← Except.ok.inj he] at hmem
  exact hfit.known_of_place? (World.arena?_of_pool? hp)
    (Arena.place?_of_mem_entries (hw.lanes .free) hmem)

theorem evolves_dispose (p : PoolId) (h : Handle) :
    Evolves (σ := σ) Always Chronicle.Vacates (dispose p h) Anything := by
  apply (Evolves.quiet (quiet_getBuffer h.buffer)).vacates.bind
  intro buffer
  split_ifs
  · apply (Evolves.quiet (quiet_note p _)).vacates.bind
    intro _
    exact (evolves_deallocate p h).always
  · have hasked : Quiet (σ := σ)
        (owning h.buffer do
          expectIdle h.buffer
          consult p) :=
      ((quiet_expectIdle _).bind fun _ => quiet_consult p).owning
    apply (Evolves.quiet hasked).vacates.bind
    intro keep
    split_ifs
    · apply ((evolves_prepend p .free h.key).owning.always.bind_eq fun _ => ?_).vacates
      exact .quiet ((quiet_emit _).bind fun _ => PoolM.quiet_drop _)
    · exact (evolves_deallocate p h).always

theorem evolves_release (p : PoolId) (lane : Lane) (h : Handle) :
    Evolves (σ := σ) Always Chronicle.Vacates (release p lane h) Anything := by
  apply (evolves_take_out p lane h).owning.vacates.bind
  intro _
  exact (evolves_dispose p h).always

theorem evolves_giveBack (p : PoolId) (lane : Lane) (h : Handle) :
    Evolves (σ := σ) Always Chronicle.Vacates (giveBack p lane h) Anything := by
  have hchecked : Quiet (σ := σ)
      (owning h.buffer do
        let unflushed := (← getBuffer h.buffer).unflushedSize
        expect (unflushed == 0) (.flushed unflushed)) :=
    ((quiet_getBuffer _).bind fun _ => quiet_expect _ _).owning
  apply (Evolves.quiet hchecked).vacates.bind
  intro _
  exact (evolves_release p lane h).always

theorem evolves_onSome {r : Option Handle} {act : Handle → PoolM σ Unit}
    (h : ∀ handle, Evolves Always Eq (act handle) Anything) :
    Evolves (GivesSome r) Eq (onSome r act) GivesSome := by
  cases r with
  | none => exact evolves_none fun _ => rfl
  | some handle =>
      have hact : Evolves (Gives handle) Eq (owning handle.buffer (act handle))
          fun _ => Gives handle := (h handle).owning.gives
      apply (hact.bind_eq fun _ => ?_).weaken (fun c _ hr => hr handle rfl) id fun _ _ _ hQ => hQ
      apply Evolves.pure
      intro c w hk g hg
      rw [← Option.some.inj hg]
      exact hk

theorem evolves_provide (p : PoolId) (size : UInt64) :
    Evolves (σ := σ) Always Chronicle.Updates (provide p size) GivesSome := by
  apply (Evolves.quiet (quiet_getPool p)).vacates.bind_updates
  intro pool
  exact (evolves_allocate p _).always

theorem evolves_provideAcquired (p : PoolId) (size : UInt64) (t : Thread) :
    Evolves (σ := σ) Always Chronicle.Updates (provideAcquired p size t) GivesSome := by
  apply (evolves_provide p size).bind_eq
  intro r
  exact evolves_onSome fun h => .quiet (quiet_acquire h.buffer t)

theorem evolves_provideTransient (p : PoolId) (size : UInt64) (t : Thread) :
    Evolves (σ := σ) Always Chronicle.Updates (provideTransient p size t) GivesSome := by
  apply (evolves_provideAcquired p size t).bind_eq
  intro r
  apply evolves_onSome
  intro h
  exact .quiet ((quiet_getBuffer _).bind fun _ => (quiet_expect _ _).bind fun _ =>
    quiet_markTransient h.buffer)

theorem evolves_provideLease (p : PoolId) (size : UInt64) (t : Thread) :
    Evolves (σ := σ) Always Chronicle.Updates (provideLease p size t) GivesSome := by
  apply (evolves_provideTransient p size t).bind_eq
  intro r
  exact evolves_onSome fun h => .quiet (quiet_markLease h.buffer)

theorem evolves_provideFull (p : PoolId) (size : UInt64) (t : Thread) :
    Evolves (σ := σ) Always Chronicle.Updates (provideFull p size t) GivesSome := by
  apply (Evolves.quiet (quiet_getPool p)).vacates.bind_updates
  intro pool
  apply (evolves_allocateWithin p _).always.bind_eq
  intro r
  apply evolves_onSome
  intro h
  apply (Evolves.quiet (quiet_acquire h.buffer t)).bind_eq
  intro _
  exact (evolves_insert p .full h).always

theorem evolves_provideTransientFull (p : PoolId) (size : UInt64) (t : Thread) :
    Evolves (σ := σ) Always Chronicle.Updates (provideTransientFull p size t) GivesSome := by
  apply (evolves_provideTransient p size t).bind_eq
  intro r
  exact evolves_onSome fun h => evolves_insert p .full h

theorem evolves_provideLeaseTo (p : PoolId) (lane : Lane) (size : UInt64) (t : Thread) :
    Evolves (σ := σ) Always Chronicle.Updates (provideLeaseTo p lane size t) GivesSome := by
  apply (evolves_provideLease p size t).bind_eq
  intro r
  apply evolves_onSome
  intro h
  apply (evolves_insert p lane h).bind_eq
  intro _
  exact .quiet ((quiet_getBuffer _).bind fun _ => quiet_expect _ _)

theorem evolves_takeWithin (p : PoolId) (size : UInt64) (retries : Nat) (t : Thread)
    (remaining : Nat) :
    Evolves (σ := σ) Always Eq (takeWithin p size retries t remaining) GivesSome := by
  induction remaining with
  | zero => exact evolves_none fun _ => rfl
  | succ remaining ih =>
      apply (evolves_find p size t).bind_eq
      intro r
      cases r with
      | none => exact ((Evolves.quiet (quiet_note p _)).bind_eq fun _ => ih.always)
      | some h => exact .pure fun _ _ hr => hr

theorem evolves_takeRetrying (p : PoolId) (size : UInt64) (retries : Nat) (t : Thread) :
    Evolves (σ := σ) Always Eq (takeRetrying p size retries t) GivesSome := by
  apply (Evolves.quiet (quiet_getPool p)).bind_eq
  intro pool
  apply (Evolves.quiet (quiet_expect _ _)).bind_eq
  intro _
  exact (evolves_takeWithin p size retries t retries).always

theorem evolves_takeDetached (p : PoolId) (size : UInt64) (t : Thread) :
    Evolves (σ := σ) Always Eq (takeDetached p size t) GivesSome := by
  apply (evolves_find p size t).bind_eq
  intro r
  exact evolves_onSome fun h => evolves_take_out p .free h

theorem evolves_takeToFull (p : PoolId) (size : UInt64) (t : Thread) :
    Evolves (σ := σ) Always Eq (takeToFull p size t) GivesSome := by
  apply (Evolves.quiet (quiet_getPool p)).bind_eq
  intro pool
  apply (Evolves.quiet (quiet_expect _ _)).bind_eq
  intro _
  apply (evolves_find p size t).always.bind_eq
  intro r
  exact evolves_onSome fun h => evolves_move p .free h

theorem evolves_obtainFull (p : PoolId) (size : UInt64) (t : Thread) :
    Evolves (σ := σ) Always Chronicle.Updates (obtainFull p size t) GivesSome := by
  apply (Evolves.quiet (quiet_getPool p)).vacates.bind_updates
  intro pool
  dsimp only
  split_ifs
  · apply (evolves_takeToFull p _ t).always.vacates.bind_updates
    intro r
    cases r with
    | none => exact (evolves_provideFull p _ t).always
    | some h => exact (Evolves.pure fun _ _ hr => hr).vacates.updates
  · exact (evolves_provideFull p _ t).always

theorem evolves_takeLeaseRetrying (p : PoolId) (size : UInt64) (retries : Nat) (t : Thread) :
    Evolves (σ := σ) Always Eq (takeLeaseRetrying p size retries t) GivesSome := by
  apply (evolves_takeRetrying p size retries t).bind_eq
  intro r
  exact evolves_onSome fun h => .quiet (quiet_makeLease h)

theorem evolves_obtainLease (p : PoolId) (size : UInt64) (t : Thread) :
    Evolves (σ := σ) Always Chronicle.Updates (obtainLease p size t) GivesSome := by
  apply (evolves_find p size t).vacates.bind_updates
  intro r
  cases r with
  | none => exact (evolves_provideLeaseTo p .full size t).always
  | some h =>
      apply (evolves_onSome fun g => ?_).vacates.updates
      exact .quiet ((quiet_makeLease g).bind fun _ => (quiet_getBuffer _).bind fun _ =>
        quiet_expect _ _)

end Pool

end BufferPool
