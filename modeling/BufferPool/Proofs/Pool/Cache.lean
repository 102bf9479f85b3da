import Mathlib.Order.Lattice
import BufferPool.Proofs.Arena.Runs
import BufferPool.Proofs.Pool.LicensedOperations

/-!
# How full the free lane gets

A step that keeps a buffer asks the rule about the lanes as they are. So if the rule keeps buffers
while fewer than a set number are free, licensed steps never raise the number of free buffers above that
one, unless it is exceeded already. What is put into the free lane directly adds one each time, and is
told each time. This is counted along the operations that do so; everything else consists of steps that
have no licence for it.
-/

namespace BufferPool

variable {σ α β : Type}

namespace Arena

variable {a a' : Arena α} {op : Op α} {answer : Answer α}

/-- Nothing but putting a value into a lane makes it longer. -/
theorem Balanced.count_le (h : a.Balanced a' op answer) (hop : ∀ lane key, op ≠ .prepend lane key)
    (lane : Lane) : a'.count lane ≤ a.count lane := by
  cases op with
  | prepend into key => exact absurd rfl (hop into key)
  | register value =>
      cases answer with
      | key key => exact (h.2 lane).le
      | fault fault => exact h.2 ▸ le_rfl
      | _ => exact h.elim
  | unregister key =>
      cases answer with
      | value value => exact (h.2 lane).le
      | fault fault => exact h.2 ▸ le_rfl
      | _ => exact h.elim
  | remove from' key =>
      cases answer with
      | done =>
          obtain ⟨-, hfrom, hother⟩ := h
          cases lane <;> cases from' <;> simp only [Lane.other] at hother <;> omega
      | fault fault => exact h.2 ▸ le_rfl
      | _ => exact h.elim
  | reclaim abandoned =>
      cases answer with
      | values values => exact (h.2 lane).le
      | fault fault => exact h.2 ▸ le_rfl
      | _ => exact h.elim
  | drain =>
      cases answer with
      | values values =>
          obtain ⟨-, rfl, -⟩ := h
          cases lane <;> exact Nat.zero_le _
      | fault fault => exact h.2 ▸ le_rfl
      | _ => exact h.elim

/-- A lane gets longer by what is put into it, and by no more than one. -/
theorem Balanced.count_prepend_le {into : Lane} {key : Key}
    (h : a.Balanced a' (.prepend into key) answer) (lane : Lane) :
    a'.count lane ≤ a.count lane + if lane = into then 1 else 0 := by
  cases answer with
  | done =>
      obtain ⟨-, hinto, hother⟩ := h
      cases lane <;> cases into <;> simp only [Lane.other] at hother <;> simp <;> omega
  | fault fault => exact h.2 ▸ Nat.le_add_right _ _
  | _ => exact h.elim

end Arena

/-- The event tells that a buffer was put into the free lane of the pool directly. -/
def Event.inserts (p : PoolId) : Event → Bool
  | .inserted q .free _ => q == p
  | _ => false

namespace World

/-- How often it was told that a buffer was put into the free lane of the pool directly. -/
def insertions (w : World σ) (p : PoolId) : Nat := w.events.countP (Event.inserts p)

/-- The licence of an operation that puts nothing into a free lane directly. -/
def Licence.indirect (keeps : Prop) : Licence := ⟨fun _ => False, keeps, True, 0⟩

/-- How many buffers of a pool are free. -/
def free (w : World σ) (p : PoolId) : Nat := (w.arena? p).elim 0 (·.count .free)

/-- What a pool was set up with, whether or not it is still open. -/
def config? (w : World σ) (p : PoolId) : Option Config := w.pools[p]?.map Pool.config

variable {L : Licence} {w w' : World σ} {p : PoolId}

theorem free_of_pool? {pool : Pool} (hp : w.pool? p = some pool) :
    w.free p = pool.arena.count .free := by
  rw [free, arena?_of_pool? hp, Option.elim_some]

theorem config?_of_pool? {pool : Pool} (hp : w.pool? p = some pool) :
    w.config? p = some pool.config := by
  rw [config?, (pool?_eq_some_iff.1 hp).1, Option.map_some]

theorem Minor.arena? (h : Minor w w') (p : PoolId) : w'.arena? p = w.arena? p := by
  have hsame : ∀ w : World σ, w.arena? p = (w.pools[p]?.map Pool.shape).bind fun shape =>
      if shape.2.2.2 then some shape.2.2.1 else none := by
    intro w
    rw [World.arena?, World.pool?]
    cases w.pools[p]? with
    | none => rfl
    | some pool =>
        rw [Option.map_some, Option.bind_some, Option.filter_some]
        change Option.map _ (if pool.live = true then _ else _) =
          if pool.live = true then _ else _
        split_ifs <;> rfl
  rw [hsame, hsame, h.pools]

theorem Minor.config? (h : Minor w w') (p : PoolId) : w'.config? p = w.config? p := by
  have hsame : ∀ w : World σ, w.config? p = (w.pools[p]?.map Pool.shape).map (·.1) := by
    intro w
    rw [World.config?, Option.map_map]
    rfl
  rw [hsame, hsame, h.pools]

theorem config?_modifyPool (w : World σ) (p q : PoolId) (f : Pool → Pool)
    (hf : ∀ pool, (f pool).config = pool.config) : (w.modifyPool q f).config? p = w.config? p := by
  rw [config?, modifyPool, Array.getElem?_modify]
  exact map_ite_map hf _

/-- What a pool was set up with is settled once and for all. -/
theorem LicensedStep.config? (h : LicensedStep L w w') {c : Config} (hc : w.config? p = some c) :
    w'.config? p = some c := by
  cases h with
  | minor h => exact (h.config? p).trans hc
  | work _ | grant _ _ | refuse _ _ => exact hc
  | update _ _ | insert _ _ _ | close q =>
      exact (config?_modifyPool w p _ _ (by intro; rfl)).trans hc
  | found _ _ _ =>
      obtain ⟨pool, hp, rfl⟩ := Option.map_eq_some_iff.1 hc
      have hlt := (Array.getElem?_eq_some_iff.1 hp).choose
      rw [World.config?, Array.getElem?_push_lt hlt, ← Array.getElem?_eq_getElem hlt, hp,
        Option.map_some]

/-- Only a licence for the pool allows to set it up. -/
theorem LicensedStep.config?_eq_none (h : LicensedStep L w w') (hfills : ¬ L.fills p)
    (hc : w.config? p = none) : w'.config? p = none := by
  cases h with
  | minor h => exact (h.config? p).trans hc
  | work _ | grant _ _ | refuse _ _ => exact hc
  | update _ _ | insert _ _ _ | close q =>
      exact (config?_modifyPool w p _ _ (by intro; rfl)).trans hc
  | found hfounds _ _ =>
      have hne : p ≠ w.pools.size := by
        rintro rfl
        exact hfills hfounds
      rw [World.config?, Array.getElem?_push, if_neg hne]
      exact hc

theorem LicensedSteps.config?_eq_none (h : LicensedSteps L w w') (hfills : ¬ L.fills p)
    (hc : w.config? p = none) : w'.config? p = none := by
  induction h with
  | refl => exact hc
  | tail _ hlicensed ih => exact hlicensed.config?_eq_none hfills ih

theorem LicensedSteps.config? (h : LicensedSteps L w w') {c : Config} (hc : w.config? p = some c) :
    w'.config? p = some c := by
  induction h with
  | refl => exact hc
  | tail _ hlicensed ih => exact hlicensed.config? ih

/-- Licensed steps leave the arenas sound. -/
theorem LicensedStep.sound (h : LicensedStep L w w') (hs : w.Sound) : w'.Sound := by
  cases h with
  | minor h => exact fun q a ha => hs q a ((h.arena? q).symm.trans ha)
  | work _ | grant _ _ | refuse _ _ => exact hs
  | update hp _ => exact hs.perform hp _
  | insert hp key _ => exact hs.perform hp _
  | found _ hempty _ => exact hs.push hempty
  | close p => exact hs.retirePool p

theorem LicensedSteps.sound (h : LicensedSteps L w w') (hs : w.Sound) : w'.Sound := by
  induction h with
  | refl => exact hs
  | tail _ hlicensed ih => exact hlicensed.sound ih

/-- What was told remains. -/
theorem LicensedStep.insertions_le (h : LicensedStep L w w') (p : PoolId) :
    w.insertions p ≤ w'.insertions p := by
  cases h with
  | minor h =>
      obtain ⟨told, -, he⟩ := h.events
      rw [insertions, insertions, he, List.countP_append]
      exact Nat.le_add_left _ _
  | grant _ _ | refuse _ _ =>
      exact List.Sublist.countP_le (List.sublist_cons_self _ _)
  | work _ | update _ _ | insert _ _ _ | found _ _ _ | close _ => exact le_rfl

theorem LicensedSteps.insertions_le (h : LicensedSteps L w w') (p : PoolId) :
    w.insertions p ≤ w'.insertions p := by
  induction h with
  | refl => exact le_rfl
  | tail _ hlicensed ih => exact ih.trans (hlicensed.insertions_le p)

/-- The arenas are sound, the pool has been set up as configured, and if what is released may be kept,
its rule keeps it only while fewer than `n` buffers are free. -/
structure Cached (keeps : Prop) (p : PoolId) (c : Config) (n : Nat) (w : World σ) : Prop where
  sound : w.Sound
  config : w.config? p = some c
  rule : keeps → c.retention.keeps = Retention.upToCacheCount.keeps ∧ c.cacheCount ≤ n

theorem Cached.steps {keeps : Prop} {c : Config} {n : Nat} (hc : w.Cached keeps p c n)
    (h : LicensedSteps L w w') : w'.Cached keeps p c n :=
  ⟨h.sound hc.sound, h.config? hc.config, hc.rule⟩

/-- A rule that keeps buffers up to a number does so below that number only. -/
theorem Cached.free_lt_of_retains {keeps : Prop} {c : Config} {n : Nat} (hc : w.Cached keeps p c n)
    (hkeeps : keeps) {pool : Pool} (hp : w.pool? p = some pool) (hr : pool.Retains) :
    pool.arena.count .free < n := by
  obtain ⟨hsame, hle⟩ := hc.rule hkeeps
  obtain ⟨asked, census, hkept, hfree, hcount⟩ := hr
  obtain rfl : pool.config = c := Option.some.inj ((config?_of_pool? hp).symm.trans hc.config)
  rw [hsame] at hkept
  have hlt : census.free < census.cacheCount := of_decide_eq_true hkept
  omega

/-- A step without a licence to put buffers into the free lane directly fills it up to `n` at most. -/
theorem LicensedStep.free_le (h : LicensedStep L w w') {c : Config} {n : Nat}
    (hc : w.Cached L.keeps p c n) (hfills : ¬ L.fills p) : w'.free p ≤ max (w.free p) n := by
  cases h with
  | minor h =>
      rw [free, h.arena?]
      exact le_max_left _ _
  | work _ | grant _ _ | refuse _ _ => exact le_max_left _ _
  | @update q pool hq op hop =>
      obtain ⟨wiring, hw⟩ := hc.sound q pool.arena (arena?_of_pool? hq)
      rw [free, arena?_setArena _ hq]
      split_ifs with hpq
      · rw [hpq, free_of_pool? hq]
        exact ((Arena.perform_balanced hw op).2.count_le hop .free).trans (le_max_left _ _)
      · exact le_max_left _ _
  | @insert q pool hq lane key hlane =>
      obtain ⟨wiring, hw⟩ := hc.sound q pool.arena (arena?_of_pool? hq)
      rw [free, arena?_setArena _ hq]
      split_ifs with hpq
      · subst hpq
        have hcount := (Arena.perform_balanced hw (.prepend lane key)).2.count_prepend_le .free
        rw [free_of_pool? hq]
        split_ifs at hcount with hfree
        · obtain ⟨hkeeps, hretains⟩ := (hlane hfree.symm).resolve_left hfills
          have hlt := hc.free_lt_of_retains hkeeps hq hretains
          exact hcount.trans (Nat.le_trans hlt (le_max_right _ _))
        · exact hcount.trans (le_max_left _ _)
      · exact le_max_left _ _
  | @found pool hfounds hempty _ =>
      rw [free, arena?_push]
      split_ifs
      · rw [Option.elim_some, hempty]
        exact Nat.zero_le _
      · exact Nat.zero_le _
      · exact le_max_left _ _
  | close q =>
      rw [free, arena?_retirePool]
      split_ifs
      · exact Nat.zero_le _
      · exact le_max_left _ _

end World

namespace World

variable {keeps : Prop} {p : PoolId} {c : Config} {n k : Nat} {w w' w'' : World σ}

/-- At most `k` buffers have entered the free lane directly, each of which was told, while the pool filled
it up to `n`. -/
structure LaneGrowth (keeps : Prop) (p : PoolId) (c : Config) (n k : Nat) (w w' : World σ) : Prop where
  cached : w'.Cached keeps p c n
  free_le : w'.free p ≤ max (w.free p) n + k
  insertions_le : w.insertions p ≤ w'.insertions p
  told : w'.free p + w.insertions p ≤ max (w.free p) n + w'.insertions p

namespace LaneGrowth

theorem mono (h : LaneGrowth keeps p c n k w w') {k' : Nat} (hk : k ≤ k') : LaneGrowth keeps p c n k' w w' :=
  { h with free_le := h.free_le.trans (Nat.add_le_add_left hk _) }

theorem of_licensedSteps {L : Licence} (h : LicensedSteps L w w') (hkeeps : L.keeps = keeps)
    (hfills : ¬ L.fills p) (hc : w.Cached keeps p c n) : LaneGrowth keeps p c n 0 w w' := by
  have hfree : w'.free p ≤ max (w.free p) n := by
    induction h with
    | refl => exact le_max_left _ _
    | tail hsteps hlicensed ih =>
        subst hkeeps
        exact (hlicensed.free_le (hc.steps hsteps) hfills).trans (max_le ih (le_max_right _ _))
  have htold := h.insertions_le p
  exact ⟨hc.steps h, hfree, htold, Nat.add_le_add hfree htold⟩

theorem refl (hc : w.Cached keeps p c n) : LaneGrowth keeps p c n 0 w w :=
  of_licensedSteps (L := .indirect keeps) .refl rfl id hc

theorem trans {k' : Nat} (h : LaneGrowth keeps p c n k w w') (h' : LaneGrowth keeps p c n k' w' w'') :
    LaneGrowth keeps p c n (k + k') w w'' := by
  have hfree := h.free_le
  have hfree' := h'.free_le
  have htold := h.told
  have htold' := h'.told
  have hle := h.insertions_le
  have hle' := h'.insertions_le
  refine ⟨h'.cached, ?_, hle.trans hle', ?_⟩ <;> omega

end LaneGrowth

end World

namespace PoolM

open World

variable {L : Licence} {keeps : Prop} {p : PoolId} {c : Config} {n k : Nat}

/-- However the operation ends, the free lane has grown by no more. -/
def GrowsLane (keeps : Prop) (p : PoolId) (c : Config) (n k : Nat) (act : PoolM σ α) : Prop :=
  ∀ w, w.Cached keeps p c n → LaneGrowth keeps p c n k w (act.leaves w)

namespace GrowsLane

variable {act : PoolM σ α}

/-- What consists of steps that do not fill the free lane directly. -/
theorem of_licensed (h : Licensed (.indirect keeps) act) : GrowsLane keeps p c n 0 act :=
  fun w hc => .of_licensedSteps (h w) rfl id hc

theorem pure (a : α) : GrowsLane (σ := σ) keeps p c n 0 (Pure.pure a) :=
  fun _ hc => .refl hc

/-- An operation that begins by looking at the world. -/
theorem get_bind {next : World σ → PoolM σ α} (h : ∀ w, GrowsLane keeps p c n k (next w)) :
    GrowsLane keeps p c n k (MonadState.get >>= next) :=
  fun w => h w w

theorem mono (h : GrowsLane keeps p c n k act) {k' : Nat} (hk : k ≤ k') : GrowsLane keeps p c n k' act :=
  fun w hc => (h w hc).mono hk

theorem bind {k' : Nat} {next : α → PoolM σ β} (h : GrowsLane keeps p c n k act)
    (hn : ∀ a, GrowsLane keeps p c n k' (next a)) : GrowsLane keeps p c n (k + k') (act >>= next) := by
  intro w hc
  have hfirst := h w hc
  cases hrun : act w with
  | ok a w' =>
      rw [leaves_of_ok hrun] at hfirst
      rw [leaves, bind_of_ok next hrun]
      exact hfirst.trans (hn a w' hfirst.cached)
  | error fault w' =>
      rw [leaves_of_error hrun] at hfirst
      rw [leaves, bind_of_error next hrun]
      exact hfirst.mono (Nat.le_add_right k k')

theorem after_licensed {next : α → PoolM σ β} (h : Licensed (.indirect keeps) act)
    (hn : ∀ a, GrowsLane keeps p c n k (next a)) : GrowsLane keeps p c n k (act >>= next) := by
  have hboth := (of_licensed h).bind hn
  rwa [Nat.zero_add] at hboth

theorem then_licensed {next : α → PoolM σ β} (h : GrowsLane keeps p c n k act)
    (hn : ∀ a, Licensed (.indirect keeps) (next a)) : GrowsLane keeps p c n k (act >>= next) :=
  h.bind fun a => of_licensed (hn a)

/-- What is done after a fault does not fill the free lane. -/
theorem onFault {cleanUp : World σ → World σ} (h : GrowsLane keeps p c n k act)
    (hc : ∀ w, LicensedSteps (.indirect keeps) w (cleanUp w)) :
    GrowsLane keeps p c n k (PoolM.onFault cleanUp act) := by
  intro w hcached
  have hfirst := h w hcached
  cases hrun : act w with
  | ok a w' =>
      rw [leaves_of_ok hrun] at hfirst
      rw [leaves, onFault_of_ok hrun]
      exact hfirst
  | error fault w' =>
      rw [leaves_of_error hrun] at hfirst
      rw [leaves, onFault_of_error hrun]
      exact hfirst.trans (.of_licensedSteps (hc w') rfl id hfirst.cached)

theorem owning {b : BufferId} (h : GrowsLane keeps p c n k act) :
    GrowsLane keeps p c n k (PoolM.owning b act) :=
  h.onFault fun w => licensedSteps_minor (minor_drop w b)

end GrowsLane

end PoolM

namespace World

variable {keeps : Prop} {p : PoolId} {c : Config} {n : Nat} {w : World σ}

/-- A buffer is put at the head of a lane, and this is told. -/
theorem laneGrowth_prepend (hc : w.Cached keeps p c n) {pool : Pool} (hp : w.pool? p = some pool)
    {lane : Lane} {key : Arena.Key} {arena : Arena BufferId}
    (he : pool.arena.prepend lane key = .ok arena) {es : List Event}
    (hes : es.countP (Event.inserts p) = if Lane.free = lane then 1 else 0) :
    LaneGrowth keeps p c n 1 w { w.setArena p arena with events := es ++ w.events } := by
  obtain ⟨wiring, hw⟩ := hc.sound p pool.arena (arena?_of_pool? hp)
  have hperform : ((Arena.Op.prepend lane key).perform pool.arena).2 = arena := by
    simp only [Arena.Op.perform, Arena.Op.outcome, he, Except.map]
  have hlicensed : LicensedStep ⟨fun _ => True, True, True, 0⟩ w
      (w.setArena p ((Arena.Op.prepend lane key).perform pool.arena).2) :=
    .insert hp key fun _ => .inl trivial
  have hcount := (Arena.perform_balanced hw (.prepend lane key)).2.count_prepend_le .free
  rw [hperform] at hlicensed hcount
  have hcached := hc.steps (.single hlicensed)
  have hfree : (w.setArena p arena).free p = arena.count .free := by
    rw [free, arena?_setArena _ hp, if_pos rfl, Option.elim_some]
  have htold : (es ++ w.events).countP (Event.inserts p) =
      (if Lane.free = lane then 1 else 0) + w.insertions p := by
    rw [List.countP_append, hes, insertions]
  rw [← hfree, ← free_of_pool? hp] at hcount
  have hone : (if Lane.free = lane then 1 else 0) ≤ 1 := by split_ifs <;> decide
  refine ⟨⟨hcached.sound, hcached.config, hcached.rule⟩, ?_, ?_, ?_⟩
  · change (w.setArena p arena).free p ≤ _
    omega
  · change _ ≤ (es ++ w.events).countP (Event.inserts p)
    omega
  · change (w.setArena p arena).free p + _ ≤ _ + (es ++ w.events).countP (Event.inserts p)
    omega

end World

namespace Pool

open PoolM World

variable {keeps : Prop} {p : PoolId} {c : Config} {n : Nat} {h : Handle}

theorem growsLane_insert (lane : Lane) : GrowsLane (σ := σ) keeps p c n 1 (insert p lane h) := by
  intro w hc
  have hrefused : ∀ {fault}, insert p lane h w = .error fault w →
      LaneGrowth keeps p c n 1 w ((insert p lane h).leaves w) := fun {fault} hr => by
    rw [leaves_of_error hr]
    exact (LaneGrowth.refl hc).mono (Nat.zero_le 1)
  by_cases hh : h.pool = p
  swap
  · have hforeign : checkOwner p h w = .error (.foreign h.pool p) w := by
      rw [checkOwner, if_pos (bne_iff_ne.2 hh)]
      rfl
    exact hrefused (bind_of_error _ hforeign)
  let prepend (arena : Arena BufferId) := (arena.prepend lane h.key).map ((), ·)
  have hchecked := bind_of_ok (fun _ => do
    onArena p prepend
    if lane = .full then emit (.published p h.buffer h.key (← getBuffer h.buffer).totalSize)
    emit (.inserted p lane h.key)) (checkOwner_of_eq (w := w) hh)
  cases hp : w.pool? p with
  | none => exact hrefused (hchecked.trans (bind_of_error _ (onArena_of_none hp)))
  | some pool =>
      cases he : pool.arena.prepend lane h.key with
      | error fault =>
          have hfailed : onArena p prepend w = .error (.arena fault) w :=
            onArena_of_error hp (congrArg (Except.map ((), ·)) he)
          exact hrefused (hchecked.trans (bind_of_error _ hfailed))
      | ok arena =>
          have hdone : onArena p prepend w = .ok () (w.setArena p arena) :=
            onArena_of_ok hp (congrArg (Except.map ((), ·)) he)
          cases lane with
          | free =>
              have hrun : insert p .free h w = .ok () { w.setArena p arena with
                  events := [.inserted p .free h.key] ++ w.events } :=
                hchecked.trans (bind_of_ok _ hdone)
              rw [leaves_of_ok hrun]
              exact laneGrowth_prepend hc hp he (by simp [Event.inserts])
          | full =>
              have hrun : insert p .full h w = .ok () { w.setArena p arena with
                  events := [.inserted p .full h.key,
                    .published p h.buffer h.key (w.buffer h.buffer).totalSize] ++ w.events } :=
                hchecked.trans (bind_of_ok _ hdone)
              rw [leaves_of_ok hrun]
              exact laneGrowth_prepend hc hp he rfl

theorem growsLane_move (source : Lane) : GrowsLane (σ := σ) keeps p c n 1 (move p source h) :=
  .after_licensed (licensed_remove source) fun _ => growsLane_insert source.other

theorem growsLane_provideLeaseTo (lane : Lane) {size : UInt64} {t : Thread} :
    GrowsLane (σ := σ) keeps p c n 1 (provideLeaseTo p lane size t) := by
  refine .after_licensed (licensed_provideLease UInt64.zero_le) fun obtained => ?_
  cases obtained with
  | none => exact (GrowsLane.pure _).mono (Nat.zero_le 1)
  | some h =>
      have hlisted : GrowsLane (σ := σ) keeps p c n 1 (owning h.buffer do
          insert p lane h
          expect (← getBuffer h.buffer).lease .leased) :=
        ((growsLane_insert lane).then_licensed fun _ =>
          (licensed_getBuffer _).bind fun _ => licensed_expect _ _).owning
      exact hlisted.then_licensed fun _ => .pure _

/-- Nothing is released while a pool is filled, so it gets no fuller than it is filled. -/
theorem growsLane_preallocate (allocated remaining : Nat) :
    GrowsLane (σ := σ) False p c 0 remaining (preallocate p allocated remaining) := by
  induction remaining generalizing allocated with
  | zero => exact .pure _
  | succ remaining ih =>
      refine .after_licensed (licensed_getPool p) fun pool =>
        .after_licensed (licensed_allocateWithin UInt64.zero_le) fun obtained => ?_
      cases obtained with
      | none => exact (GrowsLane.of_licensed ((licensed_note p _).bind fun _ => .pure _)).mono (Nat.zero_le _)
      | some h =>
          rw [Nat.add_comm]
          exact (growsLane_insert .free).owning.bind fun _ =>
            .after_licensed (licensed_drop h.buffer) fun _ => ih (allocated + 1)

/-- A new pool has no more free buffers than it is set up with. -/
theorem build_bounded (c : Config) {w : World σ} (hs : w.Sound) :
    ((build c).leaves w).config? w.pools.size = some c ∧
      ((build c).leaves w).free w.pools.size ≤ c.cacheCount := by
  have hempty : ∀ minimum live,
      { w with pools := w.pools.push ⟨c, minimum, c.heap, .empty, 0, 0, live⟩ }.free
        w.pools.size = 0 := by
    intro minimum live
    rw [free, arena?_push, if_pos rfl]
    cases live <;> rfl
  have hset : ∀ minimum live,
      { w with pools := w.pools.push ⟨c, minimum, c.heap, .empty, 0, 0, live⟩ }.config?
        w.pools.size = some c := by
    intro minimum live
    rw [config?, Array.getElem?_push_size, Option.map_some]
  unfold build
  rw [leaves, PoolM.get_bind]
  cases hc : c.validate with
  | error e => exact ⟨hset 0 false, (hempty 0 false).le.trans (Nat.zero_le _)⟩
  | ok minimum =>
      let added : World σ := { w with pools := w.pools.push ⟨c, minimum, c.heap, .empty, 0, 0, true⟩ }
      have hadded : LicensedStep ⟨fun _ => True, False, True, 0⟩ w added :=
        .found trivial rfl fun _ => hc
      have hcached : added.Cached False w.pools.size c 0 :=
        ⟨hadded.sound hs, hset minimum true, False.elim⟩
      have hfilled : GrowsLane (σ := σ) False w.pools.size c 0 c.cacheCount
          (closing w.pools.size (preallocate w.pools.size 0 c.cacheCount)) := by
        rw [closing_eq_onFault]
        exact (growsLane_preallocate 0 c.cacheCount).onFault licensed_close
      have hnone : max (added.free w.pools.size) 0 + c.cacheCount = c.cacheCount := by
        rw [hempty minimum true, max_self, Nat.zero_add]
      have hboth : ∀ w' : World σ, LaneGrowth False w.pools.size c 0 c.cacheCount added w' →
          w'.config? w.pools.size = some c ∧ w'.free w.pools.size ≤ c.cacheCount :=
        fun w' h => ⟨h.cached.config, h.free_le.trans hnone.le⟩
      refine hboth _ ((hfilled.then_licensed fun failed => ?_) added hcached)
      cases failed with
      | some allocated => exact licensed_close.bind fun _ => .pure _
      | none => exact (licensed_note _ _).bind fun _ => .pure _

end Pool

end BufferPool
