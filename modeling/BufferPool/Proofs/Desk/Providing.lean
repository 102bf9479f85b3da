import BufferPool.Proofs.Desk.Abandonment
import BufferPool.Proofs.Desk.Completion
import BufferPool.Proofs.Desk.Isolation
import BufferPool.Proofs.Pool.Providing

/-!
# Requests for new buffers

The name of a request for a new buffer says what the buffer will be like and where it will be. At every
scene the buffer is as the name says, or there is none, and then it is as if nobody had asked. Either way
what was abandoned is reclaimed first, and the heap is asked once.
-/

namespace BufferPool.Desk

open PoolM World

variable {s : Scene} {w w' : World Desk} {p : PoolId} {pool : Pool} {size capacity : UInt64}
  {request : Request}

/-- What the name of a request for a new buffer promises. -/
structure Provision where
  acquired : Bool
  transient : Bool
  lease : Bool
  /-- The lane at whose head the buffer will be, unless it is detached. -/
  lane : Option Lane

namespace Provision

/-- What is done to a fresh buffer. -/
def apply (terms : Provision) (t : Thread) (b : Buffer) : Buffer :=
  { b with
    owner := if terms.acquired then some t else none
    transient := terms.transient
    lease := terms.lease }

/-- The buffer is empty, of the capacity, and as promised to the thread. -/
structure Met (terms : Provision) (t : Thread) (capacity : UInt64) (b : Buffer) : Prop where
  capacity : b.capacity = capacity
  top : b.top = 0
  pos : b.pos = 0
  retired : b.retired = false
  owner : b.owner = if terms.acquired then some t else none
  transient : b.transient = terms.transient
  lease : b.lease = terms.lease

theorem met_apply (terms : Provision) (t : Thread) (format : Format) (capacity : UInt64) :
    terms.Met t capacity (terms.apply t (.fresh format capacity)) :=
  ⟨rfl, rfl, rfl, rfl, rfl, rfl, rfl⟩

end Provision

/-- The promise of a request that always asks for a new buffer and raises the size to the smallest
class first. -/
def Request.provision? : Request → Option Provision
  | .provide => some ⟨false, false, false, none⟩
  | .provideAcquired => some ⟨true, false, false, none⟩
  | .provideTransient => some ⟨true, true, false, none⟩
  | .provideLease => some ⟨true, true, true, none⟩
  | .provideFull => some ⟨true, false, false, some .full⟩
  | .provideTransientFull => some ⟨true, true, false, some .full⟩
  | .provideLeaseTo lane => some ⟨true, true, true, some lane⟩
  | _ => none

theorem delivers_request {terms : Provision} (ht : w.Tidy p pool)
    (hclass : SizeClass.ofRequest? size pool.minimum = some capacity)
    (hterms : request.provision? = some terms) (t : Thread) :
    Pool.Delivers p pool (SizeClass.atLeast size pool.minimum) capacity (terms.apply t) terms.lane
      (request.perform p size t) w := by
  cases request with
  | provide =>
      obtain rfl := Option.some.inj hterms
      exact (Pool.delivers_provide ht hclass).congr rfl
  | provideAcquired =>
      obtain rfl := Option.some.inj hterms
      exact (Pool.delivers_provideAcquired ht hclass t).congr rfl
  | provideTransient =>
      obtain rfl := Option.some.inj hterms
      exact (Pool.delivers_provideTransient ht hclass t).congr rfl
  | provideLease =>
      obtain rfl := Option.some.inj hterms
      exact (Pool.delivers_provideLease ht hclass t).congr rfl
  | provideFull =>
      obtain rfl := Option.some.inj hterms
      exact (Pool.delivers_provideFull ht hclass t).congr rfl
  | provideTransientFull =>
      obtain rfl := Option.some.inj hterms
      exact (Pool.delivers_provideTransientFull ht hclass t).congr rfl
  | provideLeaseTo lane =>
      obtain rfl := Option.some.inj hterms
      exact (Pool.delivers_provideLeaseTo ht hclass lane t).congr rfl
  | _ => exact nomatch hterms

/-- A request leaves the accounts in order. -/
theorem past_of_request {k : Books Desk} (hk : World.Agrees k w) {found : Option Handle} {t : Thread}
    (hr : request.perform p size t w = .ok found w') : ∃ counted, World.Past counted w' := by
  have hyields := at_request (p := p) size t request w (.refl hk)
  rw [hr] at hyields
  cases found with
  | none => exact ⟨_, World.At.agrees hyields |>.past⟩
  | some h => exact ⟨_, World.At.agrees hyields |>.past⟩

/-- At every scene of a run, a request for a new buffer whose size has a class always ends. What is
abandoned is reclaimed, and after that the heap is asked once, for a payload of the class. If there is a
buffer it is new, empty and as the request promises, and it counts. If there is none, nothing is left of
the request. Whatever was not abandoned stays in place and as it is, in every pool. -/
theorem new_buffer_as_promised {profile : Profile} {format : Format} {maker : Supply}
    (hs : (Scene.empty profile format maker).Reaches s) (hp : s.world.pool? p = some pool)
    (hclass : SizeClass.ofRequest? size pool.minimum = some capacity) {terms : Provision}
    (hterms : request.provision? = some terms) (t : Thread) :
    ∃ gone found w', request.perform p size t s.world = .ok found w' ∧
      s.world.Provides p (SizeClass.atLeast size pool.minimum) capacity (terms.apply t) terms.lane gone
        found w' ∧
      (∀ key b, (key, b) ∈ gone ↔ s.world.Abandoned p key b) ∧
      (∀ h, found = some h → terms.Met t capacity (w'.buffer h.buffer)) ∧
      w'.allocated? p = some (pool.allocated - (gone.map fun g => (s.world.buffer g.2).totalSize).sum +
        (found.toList.map fun h => (w'.buffer h.buffer).totalSize).sum) ∧
      ∀ q, q ≠ p → w'.sight q = s.world.sight q := by
  obtain ⟨k, hk⟩ := Scene.Reaches.kept (kept_empty profile format maker) hs
  obtain ⟨gone, found, w', c, hr, hprovides, hstocks⟩ :=
    delivers_request (hk.tidy hp) hclass hterms t
  obtain ⟨counted, hpast⟩ := past_of_request hk.agrees hr
  obtain ⟨pool', -, hp', -⟩ := hstocks.pool
  have hbefore : s.world.allocated? p = some pool.allocated := by
    rw [allocated?, hp]
    rfl
  have hafter : w'.allocated? p = some pool'.allocated := by
    rw [allocated?, hp']
    rfl
  refine ⟨gone, found, w', hr, hprovides, fun key b => ?_, fun h hh => ?_, ?_, fun q hq => ?_⟩
  · rw [hprovides.abandoned, hk.abandoned_iff]
  · rw [(hprovides.new h hh).2.2.2]
    exact terms.met_apply t s.world.format capacity
  · rw [hafter, hprovides.allocated (fun _ => rfl) hk.agrees.past hpast hbefore hafter]
  · have hsight := (skirts_request (Ne.symm hq) size t request).sight_leaves s.world
    rwa [leaves_of_ok hr] at hsight

/-- Two buffers can be set up. The first one is abandoned and reclaimed when a lease is asked for, which
gets the second one and the slot of the first one. Nothing comes of the last request. -/
theorem abandoned_then_lease_then_none :
    let w := performAll 0 0
      [.build .standard false, .obtain .provide 100 none (some "a"), .discard (.named "a")]
        (.empty .checked .metered (.within (some 2)) .empty)
    let w₁ := performAll 0 0 [.obtain (.provideLeaseTo .full) 5000 none (some "b")] w
    let lease : Handle := ⟨0, ⟨0, 1⟩, 1⟩
    let Provided (w : World Desk) (terms : Provision) (size capacity : UInt64)
        (gone : List (Arena.Key × BufferId)) (found : Option Handle) : Prop :=
      ∃ w', w.Provides 0 size capacity (terms.apply 0) terms.lane gone found w' ∧
        ∀ h, found = some h → terms.Met 0 capacity (w'.buffer h.buffer)
    (∃ gone, (⟨0, 0⟩, 0) ∈ gone ∧
      Provided w ⟨true, true, true, some .full⟩ 5000 8192 gone (some lease)) ∧
      ∃ gone, Provided w₁ ⟨true, false, false, none⟩ 4096 4096 gone none := by
  intro w w₁ lease Provided
  have hrun : (Scene.empty .checked .metered (.within (some 2))).Reaches ⟨w, []⟩ :=
    reaches_performAll 0 0 _ _
  have hrun₁ : Scene.Reaches ⟨w, []⟩ ⟨w₁, []⟩ := reaches_performAll 0 0 _ _
  have hone : w.minimum? 0 = some 4096 ∧
      ((Request.provideLeaseTo .full).perform 0 5000 0).run' w = some (some lease) := by
    decide +kernel
  have hgone : w.place? 0 ⟨0, 0⟩ = some (0, none) ∧ w.refs 0 = 1 := by decide +kernel
  have htwo : w₁.minimum? 0 = some 4096 ∧
      (Request.provideAcquired.perform 0 100 0).run' w₁ = some none := by decide +kernel
  have hclass : SizeClass.ofRequest? 5000 4096 = some 8192 ∧
      SizeClass.ofRequest? 100 4096 = some 4096 := by decide +kernel
  have hraised : SizeClass.atLeast 5000 4096 = 5000 ∧ SizeClass.atLeast 100 4096 = 4096 := by decide
  have hlease : (Request.provideLeaseTo .full).provision? = some ⟨true, true, true, some .full⟩ := rfl
  have hacquired : Request.provideAcquired.provision? = some ⟨true, false, false, none⟩ := rfl
  clear_value w w₁
  constructor
  · obtain ⟨pool, hp, hminimum⟩ := Option.map_eq_some_iff.1 hone.1
    have hclass' : SizeClass.ofRequest? 5000 pool.minimum = some 8192 := by
      rw [hminimum]
      exact hclass.1
    obtain ⟨gone, found, w', hr, hprovides, -, hmet, -⟩ :=
      new_buffer_as_promised hrun hp hclass' hlease 0
    obtain rfl : found = some lease := Option.some.inj ((run'_of_ok hr).symm.trans hone.2)
    rw [hminimum, hraised.1] at hprovides
    exact ⟨gone, (hprovides.abandoned _ _).2 hgone, w', hprovides, hmet⟩
  · obtain ⟨pool, hp, hminimum⟩ := Option.map_eq_some_iff.1 htwo.1
    have hclass' : SizeClass.ofRequest? 100 pool.minimum = some 4096 := by
      rw [hminimum]
      exact hclass.2
    obtain ⟨gone, found, w', hr, hprovides, -, hmet, -⟩ :=
      new_buffer_as_promised (hrun.trans hrun₁) hp hclass' hacquired 0
    obtain rfl : found = none := Option.some.inj ((run'_of_ok hr).symm.trans htwo.2)
    rw [hminimum, hraised.2] at hprovides
    exact ⟨gone, w', hprovides, hmet⟩

end BufferPool.Desk
