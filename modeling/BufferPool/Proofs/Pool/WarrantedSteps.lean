import BufferPool.Proofs.Pool.Frame
import BufferPool.Proofs.World.Acts

/-!
# Warranted steps

Whatever an operation does to a world, it does by steps of a few kinds: it counts references and tells
of things, it works on a buffer, it updates an arena, it puts a buffer at the head of a lane and says
so, it sets a pool up or closes one. A warrant says which buffers may be registered or listed on the
way, what may become of a buffer, and which buffers may be handed out. What every step under a warrant
keeps holds after any sequence of them, so it is enough to say once of each operation that it consists
of warranted steps.
-/

namespace BufferPool

variable {σ α β γ : Type}

namespace Buffer

/-- What an operation of a pool makes of a buffer. It touches no byte, and takes the buffer from no
owner but the one it cleans up for. Only for that thread the content may be forgotten. -/
structure Lent (cleaner : Option Thread) (b b' : Buffer) : Prop where
  payload : b'.payload = b.payload
  owner : ∀ t, b.owner = some t → cleaner ≠ some t → b'.owner = some t
  cursors : (b'.top = b.top ∧ b'.pos = b.pos) ∨
    (cleaner.isSome ∧ (∀ t, b.owner = some t → cleaner = some t)) ∧ b'.top = 0 ∧ b'.pos = 0

variable {cleaner : Option Thread} {b b' b'' : Buffer}

namespace Lent

theorem refl (b : Buffer) : Lent cleaner b b := ⟨rfl, fun _ h _ => h, .inl ⟨rfl, rfl⟩⟩

theorem trans (h : Lent cleaner b b') (h' : Lent cleaner b' b'') : Lent cleaner b b'' := by
  refine ⟨h'.payload.trans h.payload, fun t ht hc => h'.owner t (h.owner t ht hc) hc, ?_⟩
  rcases h'.cursors with ⟨htop', hpos'⟩ | ⟨⟨hsome, howner⟩, hzero⟩
  · rcases h.cursors with ⟨htop, hpos⟩ | ⟨hclean, htop, hpos⟩
    · exact .inl ⟨htop'.trans htop, hpos'.trans hpos⟩
    · exact .inr ⟨hclean, htop'.trans htop, hpos'.trans hpos⟩
  · refine .inr ⟨⟨hsome, fun t ht => ?_⟩, hzero⟩
    by_contra hc
    exact hc (howner t (h.owner t ht hc))

/-- Whoever cleans up for nobody can be said to clean up for anybody. -/
theorem of_none (h : Lent none b b') : Lent cleaner b b' := by
  refine ⟨h.payload, fun t ht _ => h.owner t ht nofun, .inl ?_⟩
  rcases h.cursors with hkept | ⟨⟨hsome, -⟩, -⟩
  · exact hkept
  · exact nomatch hsome

end Lent

theorem lent_acquire (b : Buffer) (t : Thread) : Lent cleaner b ((Act.acquire t).apply b) := by
  simp only [Act.apply]
  split_ifs with hfree
  · refine ⟨rfl, fun u hu _ => ?_, .inl ⟨rfl, rfl⟩⟩
    rw [hu] at hfree
    cases hfree
  · exact .refl b

theorem lent_tryAcquire (b : Buffer) (t : Thread) :
    Lent cleaner b ((Act.tryAcquire t).apply b) := by
  simp only [Act.apply, Buffer.tryAcquire]
  split_ifs with hfree
  · refine ⟨rfl, fun u hu _ => ?_, .inl ⟨rfl, rfl⟩⟩
    rw [hu] at hfree
    cases hfree
  · exact ⟨rfl, fun u hu _ => hu, .inl ⟨rfl, rfl⟩⟩

/-- A buffer is released for its owner, or when it has none. -/
theorem lent_release (h : ∀ t, b.owner = some t → cleaner = some t) :
    Lent cleaner b (Act.release.apply b) :=
  ⟨rfl, fun t ht hc => absurd (h t ht) hc, .inl ⟨rfl, rfl⟩⟩

/-- A buffer that was acquired only to look is as it was. -/
theorem lent_glance (h : b.owner = none) (t : Thread) :
    Lent cleaner b (b.perform [.tryAcquire t, .release]) := by
  refine ⟨?_, fun u hu _ => (by rw [h] at hu; exact nomatch hu), .inl ?_⟩ <;>
    simp [perform, Act.apply, Buffer.tryAcquire, h, release, claim, countAttempt]

theorem lent_reset (b : Buffer) (me : Thread) : Lent (some me) b ((Act.reset me).apply b) := by
  simp only [Act.apply]
  split_ifs with hmine
  · refine ⟨rfl, fun t ht _ => ht, .inr ⟨⟨rfl, fun t ht => ?_⟩, rfl, rfl⟩⟩
    have howner : b.owner = some me := beq_iff_eq.1 hmine
    exact howner.symm.trans ht
  · exact .refl b

theorem lent_markTransient (b : Buffer) : Lent cleaner b (Act.markTransient.apply b) :=
  ⟨rfl, fun _ ht _ => ht, .inl ⟨rfl, rfl⟩⟩

theorem lent_markLease (b : Buffer) : Lent cleaner b (Act.markLease.apply b) :=
  ⟨rfl, fun _ ht _ => ht, .inl ⟨rfl, rfl⟩⟩

end Buffer

/-- Whether the event tells that a buffer was put into a lane. -/
def Event.isListing : Event → Bool
  | .published .. | .inserted .. | .kept .. => true
  | _ => false

/-- How it is told that a buffer was put into a lane, the latest event first. -/
inductive Announcing (p : PoolId) : Lane → Arena.Key → List Event → Prop where
  | free (key : Arena.Key) : Announcing p .free key [.inserted p .free key]
  | full (key : Arena.Key) (b : BufferId) (total : UInt64) :
      Announcing p .full key [.inserted p .full key, .published p b key total]
  | kept (key : Arena.Key) : Announcing p .free key [.kept p key]

/-- What an operation may do. -/
structure Warrant where
  /-- The buffers that may be registered and put into lanes. -/
  enters : BufferId → Prop
  /-- What may become of a buffer. -/
  alters : BufferId → Buffer → Buffer → Prop
  /-- The buffers that may be handed out. -/
  grants : BufferId → Prop
  refl : ∀ b x, alters b x x
  trans : ∀ {b x y z}, alters b x y → alters b y z → alters b x z

namespace Warrant

/-- Everything may be done. -/
def all : Warrant := ⟨fun _ => True, fun _ _ _ => True, fun _ => True, fun _ _ => trivial,
  fun _ _ => trivial⟩

/-- Any buffer may be registered and listed, but contents may only be forgotten for `cleaner`. -/
def lending (cleaner : Option Thread) (grants : BufferId → Prop) : Warrant :=
  ⟨fun _ => True, fun _ => Buffer.Lent cleaner, grants, fun _ => .refl, .trans⟩

/-- Arenas may be updated in any way that lists nothing. -/
def allows (W : Warrant) : Arena.Op BufferId → Prop
  | .register b => W.enters b
  | .prepend .. => False
  | _ => True

/-- Contents may be dealt with as operations of pools do. -/
def Lends (W : Warrant) (cleaner : Option Thread) : Prop :=
  ∀ b x y, Buffer.Lent cleaner x y → W.alters b x y

/-- Owners keep their buffers. -/
def Firm (W : Warrant) : Prop := ∀ b x y t, W.alters b x y → x.owner = some t → y.owner = some t

theorem Lends.of_some {W : Warrant} {me : Thread} (h : W.Lends (some me)) : W.Lends none :=
  fun b x y hl => h b x y hl.of_none

theorem lends_lending (cleaner : Option Thread) (grants : BufferId → Prop) :
    (lending cleaner grants).Lends cleaner := fun _ _ _ h => h

theorem firm_lending (grants : BufferId → Prop) : (lending none grants).Firm :=
  fun _ _ _ t h ht => h.owner t ht nofun

end Warrant

section Catalogs

open Arena

variable {W : Warrant} {c c' : Catalog BufferId} {op : Op BufferId} {answer : Answer BufferId}
  {key entered : Key} {b : BufferId} {lane : Option Lane} {into : Lane}

/-- An update that is allowed lists nothing. -/
theorem Arena.Catalog.Step.place_of_allows (h : c.Step op answer c') (hop : W.allows op)
    (hk : c'.place key = some (b, lane)) :
    (op = .register b ∧ lane = none) ∨
      ∃ before, c.place key = some (b, before) ∧ (lane = before ∨ lane = none) := by
  have hdelete : ∀ keys, (c.delete keys).place key = some (b, lane) →
      c.place key = some (b, lane) := by
    intro keys hk
    rw [Catalog.delete] at hk
    dsimp only at hk
    split_ifs at hk
    exact hk
  cases h with
  | @register value other hnone =>
      change Function.update c.place other (some (value, none)) key = _ at hk
      by_cases hkey : key = other
      · subst hkey
        rw [Function.update_self, Option.some.injEq, Prod.mk.injEq] at hk
        exact .inl ⟨congrArg _ hk.1, hk.2.symm⟩
      · rw [Function.update_of_ne hkey] at hk
        exact .inr ⟨lane, hk, .inl rfl⟩
  | unregister | reclaim => exact .inr ⟨lane, hdelete _ hk, .inl rfl⟩
  | prepend => exact hop.elim
  | @remove value other source hplace =>
      change Function.update c.place other (some (value, none)) key = _ at hk
      by_cases hkey : key = other
      · subst hkey
        rw [Function.update_self, Option.some.injEq, Prod.mk.injEq] at hk
        exact .inr ⟨some source, hk.1 ▸ hplace, .inr hk.2.symm⟩
      · rw [Function.update_of_ne hkey] at hk
        exact .inr ⟨lane, hk, .inl rfl⟩
  | drain => exact (Option.some_ne_none _ hk.symm).elim
  | unregisterStale | unregisterListed | prependStale | prependListed | removeStale |
    removeElsewhere => exact .inr ⟨lane, hk, .inl rfl⟩

/-- A detached buffer is put at the head of a lane. -/
theorem Arena.Catalog.Step.eq_enter (h : c.Step (.prepend into entered) answer c')
    (hplace : c.place entered = some (b, none)) : c' = c.enter into entered b := by
  cases h with
  | prepend hfree =>
      rw [hfree, Option.some.injEq, Prod.mk.injEq] at hplace
      rw [hplace.1]
  | prependStale hnone => exact nomatch hnone.symm.trans hplace
  | prependListed hlisted => exact nomatch hlisted.symm.trans hplace

end Catalogs

namespace World

/-- The arenas and the contents stay as they are, and nothing is listed. -/
structure Harmless (w w' : World σ) : Prop where
  arena : ∀ p, w'.arena? p = w.arena? p
  size : w.cells.size ≤ w'.cells.size
  buffer : ∀ b, b < w.cells.size → w'.buffer b = w.buffer b
  events : ∃ added : List Event, (∀ e ∈ added, e.isListing = false) ∧ w'.events = added ++ w.events

/-- Nor does the client get anything, and as much is held as before. -/
structure Calm (w w' : World σ) : Prop extends Harmless w w' where
  client : w'.client = w.client
  held : w'.held = w.held

/-- A single step that the warrant allows. -/
inductive WarrantedStep (W : Warrant) : World σ → World σ → Prop where
  | harmless {w w' : World σ} (h : Harmless w w') : WarrantedStep W w w'
  | work {w : World σ} {b : BufferId} {acts : List Buffer.Act}
      (h : W.alters b (w.buffer b) ((w.buffer b).perform acts)) : WarrantedStep W w (w.work b acts)
  | update {w : World σ} {p : PoolId} {pool : Pool} (hp : w.pool? p = some pool)
      {op : Arena.Op BufferId} (h : W.allows op)
      (hthere : ∀ b, op = .register b → b < w.cells.size) :
      WarrantedStep W w (w.setArena p (op.perform pool.arena).2)
  /-- A detached buffer is put at the head of a lane. -/
  | enter {w : World σ} {p : PoolId} {pool : Pool} {lane : Lane} {key : Arena.Key} {b : BufferId}
      {es : List Event} (hp : w.pool? p = some pool)
      (hplace : pool.arena.place? key = some (b, none)) (hb : W.enters b)
      (he : Announcing p lane key es) :
      WarrantedStep W w { w.setArena p ((Arena.Op.prepend lane key).perform pool.arena).2 with
        events := es ++ w.events }
  | found (w : World σ) {pool : Pool} (h : pool.arena = .empty) :
      WarrantedStep W w { w with pools := w.pools.push pool }
  | close (w : World σ) (p : PoolId) : WarrantedStep W w (w.retirePool p)

abbrev WarrantedSteps (W : Warrant) : World σ → World σ → Prop := Relation.ReflTransGen (WarrantedStep W)

/-- The arenas are sound. -/
def Sound (w : World σ) : Prop := ∀ p a, w.arena? p = some a → a.Sound

variable {W : Warrant} {w w' : World σ}

theorem Sound.perform (hs : w.Sound) {p : PoolId} {pool : Pool} (hp : w.pool? p = some pool)
    (op : Arena.Op BufferId) : (w.setArena p (op.perform pool.arena).2).Sound := by
  intro q a ha
  rw [arena?_setArena _ hp] at ha
  split_ifs at ha
  · obtain ⟨wiring, hw⟩ := hs p pool.arena (arena?_of_pool? hp)
    exact Option.some.inj ha ▸ (Arena.perform_balanced hw op).1
  · exact hs q a ha

theorem Sound.push (hs : w.Sound) {pool : Pool} (hempty : pool.arena = .empty) :
    Sound { w with pools := w.pools.push pool } := by
  intro q a ha
  rw [arena?_push] at ha
  split_ifs at ha
  · exact Option.some.inj ha ▸ hempty ▸ ⟨_, Arena.empty_wired⟩
  · exact hs q a ha

theorem Sound.retirePool (hs : w.Sound) (p : PoolId) : (w.retirePool p).Sound := by
  intro q a ha
  rw [arena?_retirePool] at ha
  split_ifs at ha
  exact hs q a ha

theorem harmless_refl (w : World σ) : Harmless w w :=
  ⟨fun _ => rfl, Nat.le_refl _, fun _ _ => rfl, [], nofun, rfl⟩

theorem Harmless.trans {w'' : World σ} (h : Harmless w w') (h' : Harmless w' w'') :
    Harmless w w'' := by
  obtain ⟨first, hfirst, he⟩ := h.events
  obtain ⟨second, hsecond, he'⟩ := h'.events
  refine ⟨fun p => (h'.arena p).trans (h.arena p), Nat.le_trans h.size h'.size, fun b hb => ?_,
    second ++ first, fun e hm => ?_, by rw [he', he, List.append_assoc]⟩
  · exact (h'.buffer b (Nat.lt_of_lt_of_le hb h.size)).trans (h.buffer b hb)
  · rcases List.mem_append.1 hm with hm | hm
    · exact hsecond e hm
    · exact hfirst e hm

theorem Calm.refl (w : World σ) : Calm w w := ⟨harmless_refl w, rfl, rfl⟩

theorem Calm.trans {w'' : World σ} (h : Calm w w') (h' : Calm w' w'') : Calm w w'' :=
  ⟨h.toHarmless.trans h'.toHarmless, h'.client.trans h.client, h'.held.trans h.held⟩

theorem WarrantedStep.size (h : WarrantedStep W w w') : w.cells.size ≤ w'.cells.size := by
  cases h with
  | harmless h => exact h.size
  | work _ => exact Nat.le_of_eq (size_modifyBuffer ..).symm
  | update | enter | found | close => exact Nat.le_refl _

/-- A warranted step makes of a buffer what it may. -/
theorem WarrantedStep.alters (h : WarrantedStep W w w') {b : BufferId} (hb : b < w.cells.size) :
    W.alters b (w.buffer b) (w'.buffer b) := by
  cases h with
  | harmless h =>
      rw [h.buffer b hb]
      exact W.refl b _
  | @work b' acts h =>
      by_cases hne : b = b'
      · subst hne
        rw [World.work, buffer_modifyBuffer_self _ hb]
        exact h
      · rw [World.work, buffer_modifyBuffer_of_ne _ _ hne]
        exact W.refl b _
  | update | enter | found | close => exact W.refl b _

/-- A warranted step leaves the arenas sound. -/
theorem WarrantedStep.sound (h : WarrantedStep W w w') (hs : w.Sound) : w'.Sound := by
  cases h with
  | harmless h => exact fun p a ha => hs p a ((h.arena p).symm.trans ha)
  | work _ => exact hs
  | update hp _ _ => exact hs.perform hp _
  | enter hp _ _ _ => exact hs.perform hp _
  | found hempty => exact hs.push hempty
  | close p => exact hs.retirePool p

/-- How a buffer has come by a warranted step to be registered under a key, and to its place. -/
inductive Placed (W : Warrant) (w w' : World σ) (p : PoolId) (key : Arena.Key) (b : BufferId) :
    Option Lane → Prop where
  | registered (henters : W.enters b) (hthere : b < w.cells.size) : Placed W w w' p key b none
  | kept {lane : Option Lane} (hplace : w.place? p key = some (b, lane)) : Placed W w w' p key b lane
  | removed {lane : Option Lane} (hplace : w.place? p key = some (b, lane)) :
      Placed W w w' p key b none
  | entered {lane : Lane} {es : List Event} (hplace : w.place? p key = some (b, none))
      (henters : W.enters b) (hes : Announcing p lane key es) (he : w'.events = es ++ w.events) :
      Placed W w w' p key b (some lane)

/-- What is registered under a key after such a step was so before, or was allowed to come. It has not come
into a lane unless it was allowed to. -/
theorem WarrantedStep.placed (h : WarrantedStep W w w') (hs : w.Sound) {p : PoolId}
    {key : Arena.Key} {b : BufferId} {lane : Option Lane}
    (hk : w'.place? p key = some (b, lane)) : Placed W w w' p key b lane := by
  cases h with
  | harmless h => exact .kept ((place?_congr (h.arena p) key).symm.trans hk)
  | work _ => exact .kept hk
  | @update q pool hp op hop hthere =>
      rw [place?_setArena hp] at hk
      split_ifs at hk with hq
      · subst hq
        obtain ⟨wiring, hw⟩ := hs p pool.arena (arena?_of_pool? hp)
        obtain ⟨wiring', -, hstep⟩ := Arena.perform_refines hw op
        rcases hstep.place_of_allows hop hk with ⟨rfl, rfl⟩ | ⟨before, hbefore, rfl | rfl⟩
        · exact .registered hop (hthere b rfl)
        · exact .kept ((place?_of_pool? hp key).trans hbefore)
        · exact .removed ((place?_of_pool? hp key).trans hbefore)
      · exact .kept hk
  | @enter q pool into entered b' es hp hplace hb he =>
      change (w.setArena q _).place? p key = _ at hk
      rw [place?_setArena hp] at hk
      split_ifs at hk with hq
      · subst hq
        obtain ⟨wiring, hw⟩ := hs p pool.arena (arena?_of_pool? hp)
        obtain ⟨wiring', -, hstep⟩ := Arena.perform_refines hw (.prepend into entered)
        have hentered : Function.update pool.arena.place? entered (some (b', some into)) key =
            some (b, lane) :=
          (congrArg (·.place key) (hstep.eq_enter hplace)).symm.trans hk
        by_cases hkey : key = entered
        · subst hkey
          rw [Function.update_self, Option.some.injEq, Prod.mk.injEq] at hentered
          obtain ⟨rfl, rfl⟩ := hentered
          exact .entered ((place?_of_pool? hp key).trans hplace) hb he rfl
        · rw [Function.update_of_ne hkey] at hentered
          exact .kept ((place?_of_pool? hp key).trans hentered)
      · exact .kept hk
  | @found pool hempty =>
      rw [World.place?, arena?_push] at hk
      split_ifs at hk
      · rw [hempty, Option.bind_some] at hk
        simp [Arena.place?, Arena.node?, Arena.empty] at hk
      · exact (Option.some_ne_none _ hk.symm).elim
      · exact .kept hk
  | close q =>
      rw [World.place?, arena?_retirePool] at hk
      split_ifs at hk
      · exact (Option.some_ne_none _ hk.symm).elim
      · exact .kept hk

theorem WarrantedSteps.size (h : WarrantedSteps W w w') : w.cells.size ≤ w'.cells.size := by
  induction h with
  | refl => exact Nat.le_refl _
  | tail _ hd ih => exact Nat.le_trans ih hd.size

theorem WarrantedSteps.alters (h : WarrantedSteps W w w') {b : BufferId} (hb : b < w.cells.size) :
    W.alters b (w.buffer b) (w'.buffer b) := by
  induction h with
  | refl => exact W.refl b _
  | tail hds hd ih => exact W.trans ih (hd.alters (Nat.lt_of_lt_of_le hb (WarrantedSteps.size hds)))

theorem WarrantedSteps.sound (h : WarrantedSteps W w w') (hs : w.Sound) : w'.Sound := by
  induction h with
  | refl => exact hs
  | tail _ hd ih => exact hd.sound ih

end World

namespace Warrant

open World

variable {W : Warrant} {w w' w'' : World σ}

/-- What is new may be registered, and so may what is in a lane already. -/
structure Covers (W : Warrant) (w : World σ) : Prop where
  fresh : ∀ b, w.cells.size ≤ b → W.enters b
  listed : ∀ p key b lane, w.place? p key = some (b, some lane) → W.enters b

/-- What the key names, if anything, may be registered and put into lanes. -/
def Names (W : Warrant) (p : PoolId) (key : Arena.Key) (w : World σ) : Prop :=
  ∀ b lane, w.place? p key = some (b, lane) → W.enters b

/-- Operations under the warrant may begin. -/
structure Ready (W : Warrant) (w : World σ) : Prop where
  sound : w.Sound
  there : ∀ p key b lane, w.place? p key = some (b, lane) → b < w.cells.size
  covers : W.Covers w

/-- One world comes from another by warranted steps, with the client and what is held as they were. -/
structure Serves (W : Warrant) (w w' : World σ) : Prop where
  steps : WarrantedSteps W w w'
  client : w'.client = w.client
  held : w'.held = w.held

theorem Covers.steps (h : W.Covers w) (hs : w.Sound) (hd : WarrantedSteps W w w') : W.Covers w' := by
  induction hd with
  | refl => exact h
  | tail hds hd ih =>
      refine ⟨fun b hb => ih.fresh b (Nat.le_trans hd.size hb), fun p key b lane hk => ?_⟩
      cases hd.placed (WarrantedSteps.sound hds hs) hk with
      | kept hplace => exact ih.listed p key b lane hplace
      | entered _ henters _ _ => exact henters

theorem Names.steps {p : PoolId} {key : Arena.Key} (h : W.Names p key w) (hs : w.Sound)
    (hd : WarrantedSteps W w w') : W.Names p key w' := by
  induction hd with
  | refl => exact h
  | tail hds hd ih =>
      intro b lane hk
      cases hd.placed (WarrantedSteps.sound hds hs) hk with
      | registered henters _ | entered _ henters _ _ => exact henters
      | kept hplace | removed hplace => exact ih b _ hplace

theorem Ready.steps (h : W.Ready w) (hd : WarrantedSteps W w w') : W.Ready w' := by
  refine ⟨hd.sound h.sound, ?_, h.covers.steps h.sound hd⟩
  induction hd with
  | refl => exact h.there
  | tail hds hd ih =>
      intro p key b lane hk
      cases hd.placed (WarrantedSteps.sound hds h.sound) hk with
      | registered _ hthere => exact Nat.lt_of_lt_of_le hthere hd.size
      | kept hplace | removed hplace | entered hplace _ _ _ =>
          exact Nat.lt_of_lt_of_le (ih p key b _ hplace) hd.size

theorem Ready.serves (h : W.Ready w) (hs : W.Serves w w') : W.Ready w' := h.steps hs.steps

theorem Serves.refl (w : World σ) : W.Serves w w := ⟨.refl, rfl, rfl⟩

theorem Serves.trans (h : W.Serves w w') (h' : W.Serves w' w'') : W.Serves w w'' :=
  ⟨h.steps.trans h'.steps, h'.client.trans h.client, h'.held.trans h.held⟩

theorem Serves.of_step (h : WarrantedStep W w w') (hc : w'.client = w.client) (hh : w'.held = w.held) :
    W.Serves w w' := ⟨.single h, hc, hh⟩

theorem Serves.of_calm (h : Calm w w') : W.Serves w w' :=
  .of_step (.harmless h.toHarmless) h.client h.held

/-- What goes on holding whatever is done under the warrant. -/
def Stable (W : Warrant) (P : World σ → Prop) : Prop :=
  ∀ w w', W.Ready w → W.Serves w w' → P w → P w'

theorem stable_true : W.Stable (σ := σ) fun _ => True := fun _ _ _ _ _ => trivial

theorem stable_names (p : PoolId) (key : Arena.Key) : W.Stable (σ := σ) (W.Names p key) :=
  fun _ _ hr hs h => h.steps hr.sound hs.steps

theorem Stable.and {P R : World σ → Prop} (hP : W.Stable P) (hR : W.Stable R) :
    W.Stable fun w => P w ∧ R w :=
  fun w w' hr hs h => ⟨hP w w' hr hs h.1, hR w w' hr hs h.2⟩

/-- An owner keeps the buffer, if owners do. -/
theorem stable_owner (hW : W.Firm) (b : BufferId) (t : Thread) :
    W.Stable (σ := σ) fun w => (w.buffer b).owner = some t := by
  intro w w' _ hs ht
  have hb : b < w.cells.size := lt_size_of_owner ht
  exact hW b _ _ t (hs.steps.alters hb) ht

end Warrant

namespace PoolM

open World

variable {W : Warrant} {P : World σ → Prop}

/-- Wherever the warrant is met, the operation takes warranted steps only, however it ends, and whatever it
answers is right. -/
def Warranted (W : Warrant) (P : World σ → Prop) (act : PoolM σ α) (Q : α → World σ → Prop) : Prop :=
  ∀ w, W.Ready w → P w → W.Serves w (act.leaves w) ∧ ∀ a w', act w = .ok a w' → Q a w'

namespace Warranted

variable {act : PoolM σ α} {next : α → PoolM σ β} {Q : α → World σ → Prop} {R : β → World σ → Prop}

theorem pure {a : α} (h : ∀ w, P w → Q a w) : Warranted W P (Pure.pure a) Q := by
  intro w _ hP
  refine ⟨.refl w, fun a' w' hr => ?_⟩
  obtain ⟨rfl, rfl⟩ := EStateM.Result.ok.inj hr
  exact h w hP

theorem bind (h : Warranted W P act Q) (hn : ∀ a, Warranted W (Q a) (next a) R) :
    Warranted W P (act >>= next) R := by
  intro w hr hP
  obtain ⟨hs, hQ⟩ := h w hr hP
  cases hrun : act w with
  | ok a w' =>
      rw [leaves_of_ok hrun] at hs
      obtain ⟨hs', hR⟩ := hn a w' (hr.serves hs) (hQ a w' hrun)
      rw [leaves, bind_of_ok next hrun]
      exact ⟨hs.trans hs', hR⟩
  | error fault w' =>
      rw [leaves_of_error hrun] at hs
      rw [leaves, bind_of_error next hrun]
      exact ⟨hs, fun _ _ hr => (error_ne_ok hr).elim⟩

theorem weaken {P' : World σ → Prop} {Q' : α → World σ → Prop} (h : Warranted W P act Q)
    (hP : ∀ w, P' w → P w) (hQ : ∀ a w, Q a w → Q' a w) : Warranted W P' act Q' := by
  intro w hr hP'
  obtain ⟨hs, ha⟩ := h w hr (hP w hP')
  exact ⟨hs, fun a w' hrun => hQ a w' (ha a w' hrun)⟩

theorem pre {P' : World σ → Prop} (h : Warranted W P act Q) (hP : ∀ w, P' w → P w) : Warranted W P' act Q :=
  h.weaken hP fun _ _ hQ => hQ

theorem post {Q' : α → World σ → Prop} (h : Warranted W P act Q) (hQ : ∀ a w, Q a w → Q' a w) :
    Warranted W P act Q' :=
  h.weaken (fun _ hP => hP) hQ

/-- What is stable is carried along. -/
theorem keeping {I : World σ → Prop} (h : Warranted W P act Q) (hI : W.Stable I) :
    Warranted W (fun w => P w ∧ I w) act fun a w => Q a w ∧ I w := by
  intro w hr hP
  obtain ⟨hs, ha⟩ := h w hr hP.1
  refine ⟨hs, fun a w' hrun => ⟨ha a w' hrun, hI w w' hr ?_ hP.2⟩⟩
  rw [leaves_of_ok hrun] at hs
  exact hs

theorem map (h : Warranted W P act Q) (f : α → β) (hR : ∀ a w, Q a w → R (f a) w) :
    Warranted W P (f <$> act) R :=
  h.bind fun a => pure (hR a)

/-- An operation that begins by looking at the world. -/
theorem get_bind {next : World σ → PoolM σ α} (h : ∀ w, P w → Warranted W (· = w) (next w) Q) :
    Warranted W P (MonadState.get >>= next) Q :=
  fun w hr hP => h w hP w hr rfl

/-- An operation that begins by looking at a buffer. -/
theorem of_getBuffer {b : BufferId} {next : Buffer → PoolM σ α}
    (h : ∀ buffer, Warranted W (fun w => P w ∧ w.buffer b = buffer) (next buffer) Q) :
    Warranted W P (getBuffer b >>= next) Q :=
  fun w hr hP => h (w.buffer b) w hr ⟨hP, rfl⟩

theorem onFault {cleanUp : World σ → World σ} (h : Warranted W P act Q)
    (hc : ∀ w, Calm w (cleanUp w)) : Warranted W P (onFault cleanUp act) Q := by
  intro w hr hP
  obtain ⟨hs, hQ⟩ := h w hr hP
  cases hrun : act w with
  | ok a w' =>
      rw [leaves_of_ok hrun] at hs
      rw [leaves, onFault_of_ok hrun]
      refine ⟨hs, fun a' w'' hr' => ?_⟩
      obtain ⟨rfl, rfl⟩ := EStateM.Result.ok.inj hr'
      exact hQ a w' hrun
  | error fault w' =>
      rw [leaves_of_error hrun] at hs
      rw [leaves, onFault_of_error hrun]
      exact ⟨hs.trans (.of_calm (hc w')), fun _ _ hr => (error_ne_ok hr).elim⟩

end Warranted

end PoolM

end BufferPool
