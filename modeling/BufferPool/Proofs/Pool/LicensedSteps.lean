import BufferPool.Proofs.Buffer.Marks
import BufferPool.Proofs.Pool.WarrantedOperations

/-!
# Licensed steps

Warranted steps tell what an operation does to the arenas and the contents. Licensed steps tell why it
may, too: a payload is asked for because its size is the class of a request, and a buffer comes to the
free lane because the retention rule keeps it, or else because somebody puts it there directly, which
only an operation with a licence for the pool does. A licence also says whether the rule may be asked at
all, whether leases may be marked without care, and how small requests may be. Whatever an operation
does, it does by licensed steps, so what they keep holds after any run.
-/

namespace BufferPool

variable {σ α β : Type}

/-- What of a pool is changed by nothing but updates of its arena, and by closing it. -/
def Pool.shape (pool : Pool) : Config × UInt64 × Arena BufferId × Bool :=
  (pool.config, pool.minimum, pool.arena, pool.live)

/-- The retention rule of the pool keeps a buffer when the lanes are as they are. -/
def Pool.Retains (pool : Pool) : Prop :=
  ∃ n census, pool.config.retention.keeps n census = true ∧
    census.free = pool.arena.count .free ∧ census.cacheCount = pool.config.cacheCount

/-- The pool whose heap the event is about, and the size of the payload. -/
def Event.payload? : Event → Option (PoolId × UInt64)
  | .granted p _ _ size | .refused p size | .unserved p size | .freed p _ _ size => some (p, size)
  | _ => none

/-- What of a cell is changed by nothing but work on its buffer. -/
def Cell.shape (c : Cell) : Buffer × PoolId × Option Nat := (c.buffer, c.home, c.tag)

namespace World

/-- The event is not the answer of a heap to a request, and a payload that went back has the size of its
buffer. -/
def Tells (w : World σ) : Event → Prop
  | .freed p b tag size =>
    ∃ buffer, w.cells[b]?.map Cell.shape = some (buffer, p, tag) ∧ buffer.capacity = size
  | e => e.payload? = none

theorem tells_of_payload? (w : World σ) {e : Event} (he : e.payload? = none) : w.Tells e := by
  cases e with
  | freed => exact nomatch he
  | _ => exact he

/-- Only references are counted, accounts kept, settings used up, and things told. -/
structure Minor (w w' : World σ) : Prop where
  pools : ∀ p : PoolId, w'.pools[p]?.map Pool.shape = w.pools[p]?.map Pool.shape
  cells : ∀ b : BufferId, w'.cells[b]?.map Cell.shape = w.cells[b]?.map Cell.shape
  events : ∃ told : List Event, (∀ e ∈ told, w.Tells e) ∧ w'.events = told ++ w.events
  format : w'.format = w.format
  profile : w'.profile = w.profile

theorem tells_congr {w w' : World σ}
    (h : ∀ b : BufferId, w'.cells[b]?.map Cell.shape = w.cells[b]?.map Cell.shape) {e : Event}
    (he : w'.Tells e) : w.Tells e := by
  cases e with
  | freed p b tag size =>
      obtain ⟨buffer, hb, hsize⟩ := he
      exact ⟨buffer, (h b).symm.trans hb, hsize⟩
  | _ => exact he

theorem Minor.refl (w : World σ) : Minor w w := ⟨fun _ => rfl, fun _ => rfl, ⟨[], nofun, rfl⟩, rfl, rfl⟩

theorem Minor.trans {w w' w'' : World σ} (h : Minor w w') (h' : Minor w' w'') : Minor w w'' := by
  obtain ⟨first, hfirst, he⟩ := h.events
  obtain ⟨second, hsecond, he'⟩ := h'.events
  refine ⟨fun p => (h'.pools p).trans (h.pools p), fun b => (h'.cells b).trans (h.cells b),
    ⟨second ++ first, fun e hm => ?_, by rw [he', he, List.append_assoc]⟩,
    h'.format.trans h.format, h'.profile.trans h.profile⟩
  rcases List.mem_append.1 hm with hm | hm
  · exact tells_congr h.cells (hsecond e hm)
  · exact hfirst e hm

/-- The shape of the world stays. -/
theorem minor_of_eq {w w' : World σ} (hp : w'.pools = w.pools) (hc : w'.cells = w.cells)
    (he : w'.events = w.events) (hf : w'.format = w.format) (hprofile : w'.profile = w.profile) :
    Minor w w' :=
  ⟨fun _ => by rw [hp], fun _ => by rw [hc], ⟨[], nofun, he⟩, hf, hprofile⟩

theorem minor_emit (w : World σ) {e : Event} (he : w.Tells e) : Minor w (w.emit e) :=
  ⟨fun _ => rfl, fun _ => rfl, ⟨[e], fun _ hm => List.mem_singleton.1 hm ▸ he, rfl⟩, rfl, rfl⟩

theorem minor_modifyPool (w : World σ) (p : PoolId) {f : Pool → Pool}
    (hf : ∀ pool, (f pool).shape = pool.shape) : Minor w (w.modifyPool p f) := by
  refine ⟨fun q => ?_, fun _ => rfl, ⟨[], nofun, rfl⟩, rfl, rfl⟩
  rw [modifyPool, Array.getElem?_modify]
  exact map_ite_map hf _

theorem minor_retain (w : World σ) (b : BufferId) : Minor w (w.retain b) := by
  refine ⟨fun _ => rfl, fun b' => ?_, ⟨[], nofun, rfl⟩, rfl, rfl⟩
  rw [getElem?_retain]
  exact map_ite_map (by intro; rfl) _

/-- When the last reference is dropped the payload goes back with the size that it has. -/
theorem minor_drop (w : World σ) (b : BufferId) : Minor w (w.drop b) := by
  have hcells : ∀ b' : BufferId, (w.drop b).cells[b']?.map Cell.shape = w.cells[b']?.map Cell.shape := by
    intro b'
    rw [getElem?_drop]
    exact map_ite_map (by intro; rfl) _
  have hquiet := quiet_drop w b
  refine ⟨fun p => by rw [pools_drop], hcells, ?_, hquiet.format, hquiet.profile⟩
  unfold drop
  cases hc : w.cells[b]? with
  | none => exact ⟨[], nofun, rfl⟩
  | some c =>
      dsimp only
      split_ifs
      · refine ⟨[.freed c.home b c.tag c.buffer.capacity], fun e he => ?_, rfl⟩
        rw [List.mem_singleton.1 he]
        exact ⟨c.buffer, by rw [hc]; rfl, rfl⟩
      · exact ⟨[], nofun, rfl⟩

theorem minor_foldl {ι : Type} {f : World σ → ι → World σ} (h : ∀ w i, Minor w (f w i))
    (is : List ι) (w : World σ) : Minor w (is.foldl f w) := by
  induction is generalizing w with
  | nil => exact .refl w
  | cons i rest ih => exact (h w i).trans (ih _)

theorem minor_dropAll (w : World σ) (handles : List Handle) : Minor w (w.dropAll handles) :=
  minor_foldl (fun w (h : Handle) => minor_drop w h.buffer) handles w

theorem minor_held (w : World σ) (held : List (List Handle)) : Minor w { w with held := held } :=
  minor_of_eq rfl rfl rfl rfl rfl

theorem minor_hold (w : World σ) (handles : List Handle) : Minor w (w.hold handles) :=
  (minor_foldl (fun w (h : Handle) => minor_retain w h.buffer) handles w).trans (minor_held _ _)

theorem minor_letGo (w : World σ) : Minor w w.letGo := by
  unfold letGo
  cases w.held with
  | nil => exact .refl w
  | cons handles outer => exact (minor_dropAll w handles).trans (minor_held _ _)

/-- What an operation may do on top of what every operation may. -/
structure Licence where
  /-- The pool may be set up, and buffers may be put into its free lane directly. -/
  fills : PoolId → Prop
  /-- What is released may be kept. -/
  keeps : Prop
  /-- Leases may be marked without care. -/
  marks : Prop
  /-- Nothing smaller is requested. -/
  least : UInt64

/-- The size is that of the class of a request. -/
def Sized (L : Licence) (w : World σ) (p : PoolId) (size : UInt64) : Prop :=
  ∃ pool requested, w.pool? p = some pool ∧ L.least ≤ requested ∧
    SizeClass.ofRequest? requested pool.minimum = some size

/-- A payload has been granted, and a fresh buffer is put around it. -/
def furnish (w : World σ) (p : PoolId) (size : UInt64) (tag : Option Nat) : World σ :=
  { w with
    cells := w.cells.push ⟨.fresh w.format size, 1, p, tag⟩
    events := .granted p w.cells.size tag size :: w.events }

/-- A single step that the licence allows. -/
inductive LicensedStep (L : Licence) : World σ → World σ → Prop where
  | minor {w w' : World σ} (h : Minor w w') : LicensedStep L w w'
  | work {w : World σ} {b : BufferId} {acts : List Buffer.Act}
      (h : b < w.cells.size → acts.any Buffer.Act.marksLease = true →
        L.marks ∨ (w.buffer b).transient = true) :
      LicensedStep L w (w.work b acts)
  | grant {w : World σ} {p : PoolId} {size : UInt64} (tag : Option Nat) (h : Sized L w p size) :
      LicensedStep L w (w.furnish p size tag)
  | refuse {w : World σ} {p : PoolId} {size : UInt64} {e : Event}
      (he : e = .refused p size ∨ e = .unserved p size) (h : Sized L w p size) : LicensedStep L w (w.emit e)
  | update {w : World σ} {p : PoolId} {pool : Pool} (hp : w.pool? p = some pool)
      {op : Arena.Op BufferId} (h : ∀ lane key, op ≠ .prepend lane key) :
      LicensedStep L w (w.setArena p (op.perform pool.arena).2)
  | insert {w : World σ} {p : PoolId} {pool : Pool} (hp : w.pool? p = some pool) {lane : Lane}
      (key : Arena.Key) (h : lane = .free → L.fills p ∨ L.keeps ∧ pool.Retains) :
      LicensedStep L w (w.setArena p ((Arena.Op.prepend lane key).perform pool.arena).2)
  | found {w : World σ} {pool : Pool} (hfills : L.fills w.pools.size)
      (hempty : pool.arena = .empty) (h : pool.live = true → pool.config.validate = .ok pool.minimum) :
      LicensedStep L w { w with pools := w.pools.push pool }
  | close (w : World σ) (p : PoolId) : LicensedStep L w (w.retirePool p)

abbrev LicensedSteps (L : Licence) : World σ → World σ → Prop := Relation.ReflTransGen (LicensedStep L)

theorem licensedSteps_minor {L : Licence} {w w' : World σ} (h : Minor w w') : LicensedSteps L w w' :=
  .single (.minor h)

/-- A pool that is set up and not closed is still there, in the same shape. -/
theorem pool?_of_shape {w w' : World σ} {p : PoolId} {pool : Pool}
    (h : w'.pools[p]?.map Pool.shape = w.pools[p]?.map Pool.shape) (hp : w.pool? p = some pool) :
    ∃ pool', w'.pool? p = some pool' ∧ pool'.shape = pool.shape := by
  obtain ⟨hin, hlive⟩ := pool?_eq_some_iff.1 hp
  rw [hin, Option.map_some] at h
  obtain ⟨pool', hin', hsame⟩ := Option.map_eq_some_iff.1 h
  have hlive' : pool'.live = true := (congrArg (·.2.2.2) hsame).trans hlive
  exact ⟨pool', pool?_eq_some_iff.2 ⟨hin', hlive'⟩, hsame⟩

theorem Sized.minor {L : Licence} {w w' : World σ} {p : PoolId} {size : UInt64}
    (hs : Sized L w p size) (h : Minor w w') : Sized L w' p size := by
  obtain ⟨pool, requested, hp, hleast, hclass⟩ := hs
  obtain ⟨pool', hp', hshape⟩ := pool?_of_shape (h.pools p) hp
  have hminimum : pool'.minimum = pool.minimum := congrArg (·.2.1) hshape
  exact ⟨pool', requested, hp', hleast, hminimum ▸ hclass⟩

end World

namespace PoolM

open World

variable {L : Licence} {P : World σ → Prop} {p : PoolId} {b : BufferId}

/-- Where it may start, the operation takes licensed steps only, however it ends, and whatever it answers
is right. -/
def LicensedFrom (L : Licence) (P : World σ → Prop) (act : PoolM σ α) (Q : α → World σ → Prop) : Prop :=
  ∀ w, P w → LicensedSteps L w (act.leaves w) ∧ ∀ a w', act w = .ok a w' → Q a w'

/-- Wherever it starts, the operation takes licensed steps only. -/
def Licensed (L : Licence) (act : PoolM σ α) : Prop := ∀ w, LicensedSteps L w (act.leaves w)

namespace LicensedFrom

variable {act : PoolM σ α} {next : α → PoolM σ β} {Q : α → World σ → Prop} {R : β → World σ → Prop}

theorem pure {a : α} (h : ∀ w, P w → Q a w) : LicensedFrom L P (Pure.pure a) Q := by
  intro w hP
  refine ⟨.refl, fun a' w' hr => ?_⟩
  obtain ⟨rfl, rfl⟩ := EStateM.Result.ok.inj hr
  exact h w hP

theorem bind (h : LicensedFrom L P act Q) (hn : ∀ a, LicensedFrom L (Q a) (next a) R) :
    LicensedFrom L P (act >>= next) R := by
  intro w hP
  obtain ⟨hs, hQ⟩ := h w hP
  cases hrun : act w with
  | ok a w' =>
      rw [leaves_of_ok hrun] at hs
      obtain ⟨hs', hR⟩ := hn a w' (hQ a w' hrun)
      rw [leaves, bind_of_ok next hrun]
      exact ⟨hs.trans hs', hR⟩
  | error fault w' =>
      rw [leaves_of_error hrun] at hs
      rw [leaves, bind_of_error next hrun]
      exact ⟨hs, fun _ _ hr => (error_ne_ok hr).elim⟩

theorem weaken {P' : World σ → Prop} {Q' : α → World σ → Prop} (h : LicensedFrom L P act Q)
    (hP : ∀ w, P' w → P w) (hQ : ∀ a w, Q a w → Q' a w) : LicensedFrom L P' act Q' := by
  intro w hP'
  obtain ⟨hs, ha⟩ := h w (hP w hP')
  exact ⟨hs, fun a w' hrun => hQ a w' (ha a w' hrun)⟩

theorem of_licensed (h : Licensed L act) : LicensedFrom L P act fun _ _ => True :=
  fun w _ => ⟨h w, fun _ _ _ => trivial⟩

theorem licensed (h : LicensedFrom L (fun _ => True) act Q) : Licensed L act := fun w => (h w trivial).1

/-- An operation that begins by looking at a pool. -/
theorem of_getPool {next : Pool → PoolM σ α}
    (h : ∀ pool, LicensedFrom L (fun w => P w ∧ w.pool? p = some pool) (next pool) Q) :
    LicensedFrom L P (getPool p >>= next) Q := by
  intro w hP
  cases hp : w.pool? p with
  | none =>
      rw [leaves, bind_of_error next (getPool_of_none hp)]
      exact ⟨.refl, fun _ _ hr => (error_ne_ok hr).elim⟩
  | some pool =>
      rw [leaves, bind_of_ok next (getPool_of_some hp)]
      exact h pool w ⟨hP, hp⟩

/-- An operation that begins by looking at a buffer. -/
theorem of_getBuffer {next : Buffer → PoolM σ α}
    (h : ∀ buffer, LicensedFrom L (fun w => P w ∧ w.buffer b = buffer) (next buffer) Q) :
    LicensedFrom L P (getBuffer b >>= next) Q :=
  fun w hP => h (w.buffer b) w ⟨hP, rfl⟩

/-- What lasts when only something is told and counted is carried along by such operations. -/
theorem of_minor (h : ∀ w, Minor w (act.leaves w)) (hP : ∀ w w', Minor w w' → P w → P w') :
    LicensedFrom L P act fun _ => P := by
  intro w hw
  refine ⟨licensedSteps_minor (h w), fun a w' hr => hP w w' ?_ hw⟩
  have hminor := h w
  rw [leaves_of_ok hr] at hminor
  exact hminor

theorem onFault {cleanUp : World σ → World σ} (h : LicensedFrom L P act Q)
    (hc : ∀ w, LicensedSteps L w (cleanUp w)) : LicensedFrom L P (PoolM.onFault cleanUp act) Q := by
  intro w hP
  obtain ⟨hs, hQ⟩ := h w hP
  refine ⟨?_, fun a w' hr => hQ a w' (onFault_eq_ok hr)⟩
  cases hrun : act w with
  | ok a w' =>
      rw [leaves_of_ok hrun] at hs
      rw [leaves, onFault_of_ok hrun]
      exact hs
  | error fault w' =>
      rw [leaves_of_error hrun] at hs
      rw [leaves, onFault_of_error hrun]
      exact hs.trans (hc w')

theorem owning (h : LicensedFrom L P act Q) : LicensedFrom L P (PoolM.owning b act) Q :=
  h.onFault fun w => licensedSteps_minor (minor_drop w b)

end LicensedFrom

namespace Licensed

variable {act : PoolM σ α} {next : α → PoolM σ β}

theorem pure (a : α) : Licensed L (Pure.pure a : PoolM σ α) := fun _ => .refl

theorem throw (fault : Fault) : Licensed L (MonadExcept.throw fault : PoolM σ α) := fun _ => .refl

theorem bind (h : Licensed L act) (hn : ∀ a, Licensed L (next a)) : Licensed L (act >>= next) :=
  ((LicensedFrom.of_licensed (P := fun _ => True) h).bind fun a => .of_licensed (hn a)).licensed

theorem map (h : Licensed L act) (f : α → β) : Licensed L (f <$> act) :=
  h.bind fun a => pure (f a)

theorem of_minor (h : ∀ w, Minor w (act.leaves w)) : Licensed L act := fun w => licensedSteps_minor (h w)

theorem modify {f : World σ → World σ} (h : ∀ w, Minor w (f w)) :
    Licensed L (MonadState.modifyGet fun w => ((), f w) : PoolM σ Unit) :=
  of_minor h

/-- An operation that begins by looking at the world. -/
theorem get_bind {next : World σ → PoolM σ α} (h : ∀ w, Licensed L (next w)) :
    Licensed L (MonadState.get >>= next) :=
  fun w => h w w

theorem onFault {cleanUp : World σ → World σ} (h : Licensed L act)
    (hc : ∀ w, LicensedSteps L w (cleanUp w)) : Licensed L (PoolM.onFault cleanUp act) :=
  ((LicensedFrom.of_licensed (P := fun _ => True) h).onFault hc).licensed

theorem owning (h : Licensed L act) : Licensed L (PoolM.owning b act) :=
  h.onFault fun w => licensedSteps_minor (minor_drop w b)

theorem ensuring {finish : World σ → World σ} (h : Licensed L act)
    (hc : ∀ w, LicensedSteps L w (finish w)) : Licensed L (PoolM.ensuring finish act) := by
  intro w
  have hs := h w
  unfold leaves PoolM.ensuring
  cases hrun : act w with
  | ok a w' =>
      rw [leaves_of_ok hrun] at hs
      exact hs.trans (hc w')
  | error fault w' =>
      rw [leaves_of_error hrun] at hs
      exact hs.trans (hc w')

end Licensed

theorem minor_expect (met : Bool) (expectation : Expectation) (w : World σ) :
    Minor w ((expect met expectation).leaves w) := by
  rcases expect_cases met expectation w with h | h
  · rw [leaves_of_ok h]
    exact .refl w
  · rw [leaves_of_error h]
    exact .refl w

theorem licensed_expect (met : Bool) (expectation : Expectation) :
    Licensed (σ := σ) L (expect met expectation) :=
  .of_minor (minor_expect met expectation)

theorem licensed_emit {e : Event} (he : e.payload? = none) : Licensed (σ := σ) L (emit e) :=
  .of_minor fun w => minor_emit w (w.tells_of_payload? he)

theorem licensed_note (p : PoolId) (n : Note) : Licensed (σ := σ) L (note p n) :=
  licensed_emit rfl

theorem licensed_getPool (p : PoolId) : Licensed (σ := σ) L (getPool p) := by
  refine Licensed.get_bind fun w => ?_
  cases w.pool? p with
  | none => exact .throw _
  | some pool => exact .pure pool

theorem licensed_getBuffer (b : BufferId) : Licensed (σ := σ) L (getBuffer b) := fun _ => .refl

theorem licensed_modifyPool (p : PoolId) (f : Pool → Pool)
    (hf : ∀ pool, (f pool).shape = pool.shape) : Licensed (σ := σ) L (modifyPool p f) :=
  .of_minor fun w => minor_modifyPool w p hf

theorem licensed_retain (b : BufferId) : Licensed (σ := σ) L (retain b) :=
  .of_minor fun w => minor_retain w b

theorem licensed_drop (b : BufferId) : Licensed (σ := σ) L (drop b) :=
  .of_minor fun w => minor_drop w b

theorem licensed_readArena (p : PoolId) (f : Arena BufferId → Except Arena.Fault α) :
    Licensed (σ := σ) L (readArena p f) := by
  refine .of_minor fun w => ?_
  rw [leaves_readArena]
  exact .refl w

/-- Acts on a buffer that make no lease of it. -/
theorem Licensed.of_work {act : PoolM σ α}
    (h : ∀ w, ∃ b acts, act.leaves w = w.work b acts ∧ acts.any Buffer.Act.marksLease = false) :
    Licensed L act := by
  intro w
  obtain ⟨b, acts, hl, hacts⟩ := h w
  rw [hl]
  exact .single (.work fun _ hmarks => Bool.noConfusion (hacts.symm.trans hmarks))

theorem licensed_acquire (b : BufferId) (t : Thread) : Licensed (σ := σ) L (acquire b t) :=
  .of_work fun w => ⟨b, _, leaves_acquire b t w, rfl⟩

theorem licensed_tryAcquire (b : BufferId) (t : Thread) : Licensed (σ := σ) L (tryAcquire b t) :=
  .of_work fun w => ⟨b, _, leaves_tryAcquire b t w, rfl⟩

theorem licensed_release (b : BufferId) : Licensed (σ := σ) L (PoolM.release b) :=
  .of_work fun w => ⟨b, _, leaves_release b w, rfl⟩

theorem licensed_reset (b : BufferId) (me : Thread) : Licensed (σ := σ) L (reset b me) :=
  .of_work fun w => ⟨b, _, leaves_reset b me w, rfl⟩

/-- The buffer is one-shot, if it exists. -/
def OneShot (b : BufferId) (w : World σ) : Prop :=
  b < w.cells.size → (w.buffer b).transient = true

theorem licensedFrom_markTransient (b : BufferId) :
    LicensedFrom (σ := σ) L P (markTransient b) fun _ => OneShot b := by
  intro w _
  refine ⟨Licensed.of_work (fun w => ⟨b, _, leaves_markTransient b w, rfl⟩) w, ?_⟩
  rintro _ w' hr hb
  obtain ⟨-, rfl⟩ := EStateM.Result.ok.inj hr
  rw [size_modifyBuffer] at hb
  rw [buffer_modifyBuffer_self _ hb]

/-- A buffer that is one-shot may become a lease. -/
theorem licensedFrom_markLease (b : BufferId) :
    LicensedFrom (σ := σ) L (OneShot b) (markLease b) fun _ _ => True := by
  intro w hone
  refine ⟨?_, fun _ _ _ => trivial⟩
  rw [leaves_markLease]
  exact .single (.work fun hb _ => .inr (hone hb))

/-- An update of an arena that puts nothing into a lane. -/
theorem licensed_update {f : Arena BufferId → Except Arena.Fault (α × Arena BufferId)}
    (op : Arena.Op BufferId) (hop : ∀ lane key, op ≠ .prepend lane key)
    (hf : ∀ a, (f a).map (·.2) = (op.outcome a).map (·.2)) : Licensed (σ := σ) L (onArena p f) := by
  intro w
  cases hp : w.pool? p with
  | none =>
      rw [leaves_of_error (onArena_of_none hp)]
  | some pool =>
      rw [leaves_onArena (hf pool.arena) hp]
      exact .single (.update hp hop)

theorem licensed_unregister (key : Arena.Key) :
    Licensed (σ := σ) L (onArena p (·.unregister key)) := by
  refine licensed_update (.unregister key) nofun fun a => ?_
  rw [Arena.Op.outcome]
  cases a.unregister key <;> rfl

theorem licensed_register (b : BufferId) : Licensed (σ := σ) L (onArena p (·.register b)) := by
  refine licensed_update (.register b) nofun fun a => ?_
  rw [Arena.Op.outcome]
  cases a.register b <;> rfl

theorem licensed_remove_key (lane : Lane) (key : Arena.Key) :
    Licensed (σ := σ) L (onArena p fun arena => (arena.remove lane key).map ((), ·)) := by
  refine licensed_update (.remove lane key) nofun fun a => ?_
  rw [Arena.Op.outcome]
  cases a.remove lane key <;> rfl

theorem licensed_reclaim_arena (abandoned : BufferId → Bool) :
    Licensed (σ := σ) L (onArena p fun arena => arena.reclaim abandoned) := by
  refine licensed_update (.reclaim abandoned) nofun fun a => ?_
  rw [Arena.Op.outcome]
  cases a.reclaim abandoned <;> rfl

theorem licensed_drain : Licensed (σ := σ) L (onArena p (·.drain)) := by
  refine licensed_update .drain nofun fun a => ?_
  rw [Arena.Op.outcome]
  cases a.drain <;> rfl

/-- What is put into the free lane is put there with a licence, or kept. -/
theorem licensedFrom_prepend {lane : Lane} (key : Arena.Key)
    (h : lane = .free → ∀ w, P w → ∀ pool, w.pool? p = some pool →
      L.fills p ∨ L.keeps ∧ pool.Retains) :
    LicensedFrom (σ := σ) L P (onArena p fun arena => (arena.prepend lane key).map ((), ·))
      fun _ _ => True := by
  intro w hP
  refine ⟨?_, fun _ _ _ => trivial⟩
  cases hp : w.pool? p with
  | none =>
      rw [leaves_of_error (onArena_of_none hp)]
  | some pool =>
      have hf : ∀ a : Arena BufferId, (((a.prepend lane key).map ((), ·)).map (·.2)) =
          ((Arena.Op.prepend lane key).outcome a).map (·.2) := by
        intro a
        rw [Arena.Op.outcome]
        cases a.prepend lane key <;> rfl
      rw [leaves_onArena (hf pool.arena) hp]
      exact .single (.insert hp key fun hlane => h hlane w hP pool hp)

end PoolM

end BufferPool
