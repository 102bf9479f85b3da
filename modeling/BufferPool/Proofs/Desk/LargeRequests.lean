import BufferPool.Proofs.Desk.Capacity
import BufferPool.Proofs.Desk.Committed
import BufferPool.Proofs.Desk.Lookup
import BufferPool.Proofs.Desk.Providing
import BufferPool.Proofs.Pool.Filling

/-!
# Large requests and the free lane

The free lane is meant for buffers of the smallest capacity, with which a pool is set up. But nothing
keeps larger ones out: the retention rule is not told the capacity of what is released, and neither is
anybody asked who puts a buffer there directly. So a lookup for more than the smallest capacity may well
find something. It never does as long as all that comes into the free lane, in one of these ways, is of
the smallest capacity.
-/

namespace BufferPool

open PoolM

namespace World

variable {σ : Type} {L : Licence} {w w' : World σ} {p : PoolId} {pool : Pool} {key : Arena.Key}
  {b : BufferId} {lane : Option Lane} {minimum : UInt64}

/-- No free buffer of the pool is larger than the smallest capacity. -/
def Modest (p : PoolId) (w : World σ) : Prop :=
  ∀ key b minimum, w.minimum? p = some minimum → w.place? p key = some (b, some .free) →
    (w.buffer b).capacity ≤ minimum

/-- The key of the handle names a buffer of the pool that is larger than the smallest capacity. -/
def Bulky (p : PoolId) (h : Handle) (w : World σ) : Prop :=
  ∃ key b minimum, w.Denotes h p key b ∧ w.minimum? p = some minimum ∧
    minimum < (w.buffer b).capacity

theorem le_of_not_bulky {h : Handle} (hnot : ¬ w.Bulky p h) (hd : w.Denotes h p key b)
    (hp : w.minimum? p = some minimum) : (w.buffer b).capacity ≤ minimum :=
  UInt64.not_lt.1 fun hlarge => hnot ⟨key, b, minimum, hd, hp, hlarge⟩

theorem exists_pool?_of_place? (h : w.place? p key = some (b, lane)) :
    ∃ pool, w.pool? p = some pool := by
  obtain ⟨arena, ha, -⟩ := Option.bind_eq_some_iff.1 h
  obtain ⟨pool, hp, -⟩ := Option.map_eq_some_iff.1 ha
  exact ⟨pool, hp⟩

/-- The smallest capacity of an open pool does not change. -/
theorem LicensedSteps.eq_minimum (h : LicensedSteps L w w') (hw : w.Measured) (hp : w.pool? p = some pool)
    (hp' : w'.minimum? p = some minimum) : minimum = pool.minimum := by
  obtain ⟨pool', hpool', rfl⟩ := Option.map_eq_some_iff.1 hp'
  have hconfig : pool'.config = pool.config :=
    Option.some.inj ((config?_of_pool? hpool').symm.trans (h.config? (config?_of_pool? hp)))
  have hvalid := hw.checked p pool hp
  have hvalid' := (h.measured hw).checked p pool' hpool'
  exact Except.ok.inj (hvalid'.symm.trans ((congrArg Config.validate hconfig).trans hvalid))

theorem LicensedSteps.capacity (h : LicensedSteps L w w') (hb : b < w.cells.size) :
    (w'.buffer b).capacity = (w.buffer b).capacity := by
  have hc := Array.getElem?_eq_getElem hb
  obtain ⟨c', hc', hsame⟩ := h.cell (I := fun c' => c'.buffer.capacity = w.cells[b].buffer.capacity)
    hc rfl fun hdescends hsame => hdescends.weight.2.trans hsame
  rw [buffer_of_getElem? hc, buffer_of_getElem? hc']
  exact hsame

theorem Measured.capacity_le (hw : w.Measured) (b : BufferId) :
    (w.buffer b).capacity ≤ SizeClass.maximum := by
  cases hc : w.cells[b]? with
  | none =>
      rw [World.buffer, hc]
      exact UInt64.zero_le
  | some c =>
      obtain ⟨_, _, _, _, hmeasured⟩ := hw.cells b c hc
      rw [buffer_of_getElem? hc]
      exact hmeasured.capacity.bounded

end World

namespace Desk

open World

variable {s s' : Scene} {p : PoolId} {pool : Pool} {key : Arena.Key} {b : BufferId}
  {size minimum : UInt64} {t : Thread} {action : Action}

/-- The action may bring a buffer that is larger than the smallest capacity into the free lane. -/
inductive Action.Enlarges (w : World Desk) (p : PoolId) : Action → Prop where
  /-- It is released, in any way, and not one-shot. -/
  | released {action : Action} {h : Handle} (hr : action.released? w = some h)
      (hlasting : (w.buffer h.buffer).transient = false) (hlarge : w.Bulky p h) : Enlarges w p action
  /-- It is put there, or moved there from the full lane. -/
  | placed {me : Thread} {operand : Operand} {placing : Placing} {h : Handle}
      (hinserts : (Call.place operand placing).inserts = true)
      (hf : w.client.find? operand = some h) (hlarge : w.Bulky p h) :
      Enlarges w p (.call me p (.place operand placing))
  /-- It is asked for as a lease to be put there. -/
  | leased {me : Thread} {size : UInt64} {t : Option Thread} {into : Option String} {minimum : UInt64}
      (hp : w.minimum? p = some minimum) (hsize : minimum < size) :
      Enlarges w p (.call me p (.obtain (.provideLeaseTo .free) size t into))

/-- A step by an action that brings no large buffer into the free lane of the pool. -/
def Frugal (p : PoolId) (s s' : Scene) : Prop :=
  ThreadStep s s' ∧ ∃ action : Action, (action.take s).2 = s' ∧ ¬ action.Enlarges s.world p

variable {w : World Desk} {h : Handle}

theorem free_of_placing (placing : Placing) (hs : w.Sound) {q : PoolId}
    (hfree : ((placing.perform p h).leaves w).place? q key = some (b, some .free)) :
    w.place? q key = some (b, some .free) ∨ w.Denotes h q key b := by
  have hforeign : ∀ lane, h.pool ≠ p → Pool.remove p lane h w = .error (.foreign h.pool p) w :=
    fun lane hh => bind_of_error _ (Pool.checkOwner_of_ne hh)
  cases placing with
  | insert lane =>
      exact Pool.free_of_rests hs (fun hh => leaves_of_error (bind_of_error _ (Pool.checkOwner_of_ne hh)))
        (fun hne => Pool.rests_insert hne lane) (Pool.allots_insert lane) hfree
  | remove lane =>
      exact Pool.free_of_rests hs (fun hh => leaves_of_error (hforeign lane hh))
        (fun hne => Pool.rests_takeOut hne lane) (Pool.allots_takeOut lane) hfree
  | move source =>
      exact Pool.free_of_rests hs (fun hh => leaves_of_error (bind_of_error _ (hforeign source hh)))
        (fun hne => Pool.rests_move hne source) (Pool.allots_move source) hfree

/-- A buffer is put into another place, or nothing happens. -/
theorem leaves_place_call (operand : Operand) (placing : Placing) (me : Thread) (p : PoolId)
    (w : World Desk) :
    (∃ handle, w.client.find? operand = some handle ∧
      ((Call.place operand placing).perform me p).leaves w = (placing.perform p handle).leaves w) ∨
      ((Call.place operand placing).perform me p).leaves w = w := by
  cases hp : w.pool? p with
  | none => exact .inr (leaves_of_ok (withPool_of_none hp))
  | some pool =>
      cases hf : w.client.find? operand with
      | none => exact .inr (leaves_of_ok ((withPool_of_some hp).trans (withHandle_of_none hf)))
      | some handle =>
          refine .inl ⟨handle, rfl, ?_⟩
          rw [Call.perform, leaves, withPool_of_some hp, withHandle_of_some hf]
          exact leaves_map _ _ _

/-- What puts buffers into the free lane directly has a handle to one, or it asks for a lease. -/
theorem eq_of_inserts {call : Call} (h : call.inserts = true) :
    (∃ operand placing, call = .place operand placing) ∨
      ∃ size t into, call = .obtain (.provideLeaseTo .free) size t into := by
  unfold Call.inserts at h
  split at h
  · exact .inl ⟨_, _, rfl⟩
  · exact .inl ⟨_, _, rfl⟩
  · exact .inr ⟨_, _, _, rfl⟩
  · exact nomatch h

variable {k : Books Desk} {w' : World Desk} {L : Licence}

/-- If all that is free afterwards was free before or is named by a handle to something small, it is small
if what was free before is. -/
theorem modest_of_licensedSteps (hk : Orderly s.made k s.world) (hw : s.world.Measured)
    (hm : s.world.Modest p) (hsteps : LicensedSteps L s.world w')
    (hfree : ∀ key b, w'.place? p key = some (b, some .free) →
      s.world.place? p key = some (b, some .free) ∨
        ∃ h, s.world.Denotes h p key b ∧ ¬ s.world.Bulky p h) : w'.Modest p := by
  intro key b minimum hminimum hafter
  have hstays : ∀ {lane}, s.world.place? p key = some (b, lane) →
      (∀ m, s.world.minimum? p = some m → (s.world.buffer b).capacity ≤ m) →
      (w'.buffer b).capacity ≤ minimum := by
    intro lane hplace hle
    obtain ⟨pool, hp⟩ := exists_pool?_of_place? hplace
    rw [hsteps.capacity (hk.lt_size_of_place? hplace), hsteps.eq_minimum hw hp hminimum]
    exact hle _ (minimum?_of_pool? hp)
  rcases hfree key b hafter with hplace | ⟨h, hd, hsmall⟩
  · exact hstays hplace fun m hp => hm key b m hp hplace
  · obtain ⟨lane, hplace⟩ := hd.place
    exact hstays hplace fun m hp => le_of_not_bulky hsmall hd hp

theorem modest_build (hk : Orderly s.made k s.world) (hw : s.world.Measured) (hm : s.world.Modest p)
    (me : Thread) (q : PoolId) (c : Config) (debug : Bool) :
    ((Action.call me q (.build c debug)).perform.leaves s.world).Modest p := by
  by_cases hp : p = s.world.pools.size
  · subst hp
    rw [Action.perform, leaves_build_call]
    intro key b minimum hminimum hfree
    have hcapacity := Pool.capacity_of_build hk.agrees.sound c hfree
    rw [Option.some.inj (hminimum.symm.trans hcapacity)]
    exact UInt64.le_refl _
  · have hpermitted : (Action.call me q (.build c debug)).Permitted ⟨(· ≠ p), False, True, 0⟩ s.world :=
      { keeps := fun h hno => absurd hno.symm (Option.some_ne_none h)
        fills := fun _ hno => absurd (Bool.and_eq_true_iff.1 hno).2 Bool.false_ne_true
        builds := fun _ => ⟨Ne.symm hp, rfl⟩
        requests := fun _ _ => UInt64.zero_le
        marks := fun _ _ _ _ => .inl trivial }
    have hsteps := Action.licensedSteps hpermitted
    exact modest_of_licensedSteps hk hw hm hsteps fun key b hfree =>
      .inl (hsteps.free_place hk.agrees.sound (fun hne => hne rfl) id hfree)

theorem modest_place (hk : Orderly s.made k s.world) (hw : s.world.Measured) (hm : s.world.Modest p)
    (me : Thread) (operand : Operand) (placing : Placing)
    (hsmall : ∀ h, s.world.client.find? operand = some h → ¬ s.world.Bulky p h) :
    ((Action.call me p (.place operand placing)).perform.leaves s.world).Modest p := by
  have hsteps := Action.licensedSteps ((Action.call me p (.place operand placing)).permitted_liberty s.world)
  refine modest_of_licensedSteps hk hw hm hsteps fun key b hfree => ?_
  rw [Action.perform] at hfree
  rcases leaves_place_call operand placing me p s.world with ⟨h, hf, hleaves⟩ | hleaves
  · rw [hleaves] at hfree
    exact (free_of_placing placing hk.agrees.sound hfree).imp_right fun hd => ⟨h, hd, hsmall h hf⟩
  · rw [hleaves] at hfree
    exact .inl hfree

/-- A lease for a small request is put into the free lane, if there is memory. It has the smallest
capacity. -/
theorem modest_lease (hk : Orderly s.made k s.world) (hw : s.world.Measured) (hm : s.world.Modest p)
    (hp : s.world.pool? p = some pool) (hsize : size ≤ pool.minimum) (me : Thread) (t : Option Thread)
    (into : Option String) :
    ((Action.call me p (.obtain (.provideLeaseTo .free) size t into)).perform.leaves s.world).Modest p := by
  have hall := Action.licensedSteps
    ((Action.call me p (.obtain (.provideLeaseTo .free) size t into)).permitted_liberty s.world)
  intro key b minimum hminimum hfree
  rw [hall.eq_minimum hw hp hminimum]
  rcases UInt64.lt_or_le SizeClass.maximum pool.minimum with hbeyond | hclass
  · exact UInt64.le_trans ((hall.measured hw).capacity_le b) (UInt64.le_of_lt hbeyond)
  have hsized : SizeClass.ofRequest? size pool.minimum = some pool.minimum := by
    rw [← SizeClass.ofRequest?_atLeast, SizeClass.atLeast_of_le hsize, SizeClass.ofRequest?_self hclass]
  have hterms : (Request.provideLeaseTo .free).provision? = some ⟨true, true, true, some .free⟩ := rfl
  obtain ⟨gone, found, w₁, -, hr, hprovides, -⟩ :=
    delivers_request (hk.tidy hp) hsized hterms (t.getD me)
  have hleaves : (Action.call me p (.obtain (.provideLeaseTo .free) size t into)).perform.leaves s.world =
      (keep into found).leaves w₁ := by
    rw [Action.perform, Call.perform, leaves, withPool_of_some hp, bind_of_ok _ hr]
    rfl
  have hmade : LicensedSteps Action.liberty s.world w₁ := by
    have hrequest : Licensed Action.liberty ((Request.provideLeaseTo .free).perform p size (t.getD me)) :=
      licensed_request (.provideLeaseTo .free) UInt64.zero_le fun _ => trivial
    have hsteps := hrequest s.world
    rwa [leaves_of_ok hr] at hsteps
  have hkept : LicensedSteps ⟨fun _ => False, False, True, 0⟩ w₁ ((keep into found).leaves w₁) :=
    licensed_keep into found w₁
  rw [hleaves] at hfree
  have hfree₁ := hkept.free_place (hmade.sound hk.agrees.sound) id id hfree
  rcases (hprovides.place key b (some .free)).1 hfree₁ with ⟨hold, -⟩ | ⟨hfound, -⟩
  · rw [hall.capacity (hk.lt_size_of_place? hold)]
    exact hm key b pool.minimum (minimum?_of_pool? hp) hold
  · obtain ⟨-, -, hb, hnew⟩ := hprovides.new _ hfound
    rw [hleaves, hkept.capacity hb, hnew]
    exact UInt64.le_refl _

/-- An action that may not bring a large buffer into the free lane brings none there. -/
theorem Action.modest (hk : Orderly s.made k s.world) (hw : s.world.Measured) (hm : s.world.Modest p)
    (hnot : ¬ action.Enlarges s.world p) : (action.perform.leaves s.world).Modest p := by
  by_cases hbuilds : action.builds = true
  · obtain ⟨me, q, c, debug, rfl⟩ := Action.eq_build_of_builds hbuilds
    exact modest_build hk hw hm me q c debug
  by_cases hinserts : action.mayInsertInto p = true
  · obtain ⟨me, call, rfl, hyes⟩ := Action.eq_call_of_mayInsertInto hinserts
    rcases eq_of_inserts hyes with ⟨operand, placing, rfl⟩ | ⟨size, t, into, rfl⟩
    · exact modest_place hk hw hm me operand placing fun h hf hlarge => hnot (.placed hyes hf hlarge)
    · cases hp : s.world.pool? p with
      | none =>
          rw [perform, leaves_call_of_none hyes me hp]
          exact hm
      | some pool =>
          have hsize : size ≤ pool.minimum :=
            UInt64.not_lt.1 fun hlarge => hnot (.leased (minimum?_of_pool? hp) hlarge)
          exact modest_lease hk hw hm hp hsize me t into
  · have hsteps := Action.licensedSteps (action.permitted_liberty s.world)
    refine modest_of_licensedSteps hk hw hm hsteps fun key b hfree => ?_
    refine (Action.free_place hk.agrees.sound (Bool.eq_false_iff.2 hinserts)
      (Bool.eq_false_iff.2 hbuilds) hfree).imp_right ?_
    rintro ⟨h, hreleased, ⟨⟨-, hpool⟩, hkey, hplace, hlasting⟩⟩
    exact ⟨h, ⟨hpool, hkey.symm, hplace⟩, fun hlarge => hnot (.released hreleased hlasting hlarge)⟩

/-- By induction over the run. The books and the measures are kept anyway. -/
theorem modest_of_frugal (hs : s.Kept) (hw : s.world.Measured) (hm : s.world.Modest p)
    (hr : Relation.ReflTransGen (Frugal p) s s') :
    s'.Kept ∧ s'.world.Measured ∧ s'.world.Modest p := by
  induction hr with
  | refl => exact ⟨hs, hw, hm⟩
  | @tail s₁ s₂ _ ha ih =>
      obtain ⟨⟨k, hk⟩, hw₁, hm₁⟩ := ih
      obtain ⟨hstep, action, rfl, hnot⟩ := ha
      refine ⟨hstep.kept ⟨k, hk⟩, ?_, ?_⟩ <;> rw [Action.world_take]
      · exact (Action.licensedSteps (action.permitted_liberty s₁.world)).measured hw₁
      · exact Action.modest hk hw₁ hm₁ hnot

theorem modest_empty (profile : Profile) (format : Format) (maker : Supply) (p : PoolId) :
    (Scene.empty profile format maker).world.Modest p := by
  intro key b minimum hp
  rw [World.minimum?, World.pool?] at hp
  exact absurd hp.symm (Option.some_ne_none minimum)

/-- At every scene of a run, a lookup for more than the smallest capacity ends, and it finds something if
and only if there is a free buffer that is not retired, that nobody owns and that has room enough. What is
found is larger than the smallest capacity. So nothing is found if no large buffer is in the free lane. It
stays so, and from the start on it is so, unless a large buffer that is not one-shot is released, or one is
put into the free lane through a handle, or as a large lease. -/
theorem large_requests_found {profile : Profile} {format : Format} {maker : Supply}
    (hs : (Scene.empty profile format maker).Reaches s) (hp : s.world.pool? p = some pool)
    (hsize : pool.minimum < size) (t : Thread) :
    ∃ found w', Pool.find p size t s.world = .ok found w' ∧
      (found.isSome = true ↔ ∃ key b, s.world.place? p key = some (b, some .free) ∧
        (s.world.buffer b).retired = false ∧ (s.world.buffer b).owner = none ∧
          size ≤ (s.world.buffer b).freeSize) ∧
      (∀ h, found = some h → h.pool = p ∧ s.world.place? p h.key = some (h.buffer, some .free) ∧
        pool.minimum < (s.world.buffer h.buffer).capacity) ∧
      (s.world.Modest p → found = none ∧
        ∀ s', Relation.ReflTransGen (Frugal p) s s' → s'.world.Modest p) ∧
      (Relation.ReflTransGen (Frugal p) (Scene.empty profile format maker) s → s.world.Modest p) := by
  have hempty : (Scene.empty profile format maker).world.Measured :=
    measured_empty profile format maker Desk.empty
  have hmeasured : s.world.Measured := by
    obtain ⟨actions, rfl⟩ := hs.exists_actions
    exact ((Scene.empty profile format maker).licensedSteps_after actions).measured hempty
  obtain ⟨k, hk⟩ := Scene.Reaches.kept (kept_empty profile format maker) hs
  have hkept : s.Kept := ⟨k, hk⟩
  obtain ⟨c, hstocks⟩ := (hk.tidy hp).stocks
  obtain ⟨found, w', hr, hl⟩ := Pool.find_tidy (hk.tidy hp) size t
  have hfound : ∀ h, found = some h → h.pool = p ∧
      s.world.place? p h.key = some (h.buffer, some .free) ∧
        pool.minimum < (s.world.buffer h.buffer).capacity := by
    intro h hh
    obtain ⟨hpool, hsuits, before, after, hsplit, -⟩ := hl.exists_append hh
    have hplace : s.world.place? p h.key = some (h.buffer, some .free) :=
      hstocks.mem_row.1 (hsplit ▸ List.mem_append_cons_self)
    have horder := hkept.inOrder_buffer h.buffer
    have hroom : (s.world.buffer h.buffer).freeSize ≤ (s.world.buffer h.buffer).capacity := by
      rw [UInt64.le_iff_toNat_le, horder.toNat_freeSize]
      exact Nat.sub_le _ _
    exact ⟨hpool, hplace, UInt64.lt_of_lt_of_le hsize
      (UInt64.le_trans (Buffer.suits_iff.1 hsuits).2.2 hroom)⟩
  refine ⟨found, w', hr, ?isSome_iff, hfound, fun hm => ⟨?none, fun s' hfrugal => ?stays⟩,
    fun hfrugal => ?start⟩
  case isSome_iff =>
    rw [hl.isSome_iff]
    simp only [Buffer.suits_iff, Prod.exists, hstocks.mem_row]
  case none =>
    refine Option.eq_none_iff_forall_ne_some.2 fun h hh => ?_
    obtain ⟨-, hplace, hlarge⟩ := hfound h hh
    exact UInt64.not_lt.2 (hm h.key h.buffer _ (minimum?_of_pool? hp) hplace) hlarge
  case stays => exact (modest_of_frugal hkept hmeasured hm hfrugal).2.2
  case start =>
    exact (modest_of_frugal (kept_empty profile format maker) hempty
      (modest_empty profile format maker p) hfrugal).2.2

/-- A pool that has just been set up has one free buffer, and nothing is found for a larger request. -/
theorem nothing_large_at_first :
    let w := performAll 0 0 [.build { Config.standard with cacheCount := 1 } false]
      (.empty .checked .plain (.within none) .empty)
    w.free 0 = 1 ∧ w.Modest 0 ∧ ∃ w', Pool.find 0 5000 0 w = .ok none w' := by
  intro w
  have hstep : ThreadStep (.empty .checked .plain (.within none)) ⟨w, []⟩ :=
    .call 0 0 (.build { Config.standard with cacheCount := 1 } false) fun hclose => nomatch hclose
  have hfrugal : Frugal 0 (.empty .checked .plain (.within none)) ⟨w, []⟩ := by
    refine ⟨hstep, .call 0 0 (.build { Config.standard with cacheCount := 1 } false),
      congrArg (Scene.mk · []) (snd_conclude _ _), fun henlarges => ?_⟩
    cases henlarges with
    | released hr _ _ => exact nomatch hr
  have hfree : w.free 0 = 1 := by decide +kernel
  have hminimum : w.minimum? 0 = some 4096 := by decide +kernel
  clear_value w
  obtain ⟨pool, hp, hsmallest⟩ := Option.map_eq_some_iff.1 hminimum
  have hsize : pool.minimum < 5000 := hsmallest ▸ by decide
  obtain ⟨found, w', hr, -, -, hnone, hstart⟩ :=
    large_requests_found (s := ⟨w, []⟩) (.single hstep) hp hsize 0
  have hmodest := hstart (.single hfrugal)
  obtain ⟨rfl, -⟩ := hnone hmodest
  exact ⟨hfree, hmodest, w', hr⟩

/-- The free buffer of a pool is taken out, and a larger one is obtained in the full lane. When that one is
given back, the retention rule keeps it, because the free lane is empty. So it is found for the next
request that is larger than the smallest capacity. -/
theorem large_buffer_kept_and_found :
    let w := performAll 0 0 [.build { Config.standard with cacheCount := 1 } false,
      .obtain .takeDetached 100 none (some "x"), .obtain .obtainFull 5000 none (some "a"),
      .onBuffer (.named "a") .release, .give (.named "a") false (.giveBack .full)]
      (.empty .checked .plain (.within none) .empty)
    (Scene.empty .checked .plain (.within none)).Reaches ⟨w, []⟩ ∧
      (∃ pool, w.pool? 0 = some pool ∧ pool.minimum < 5000) ∧
      ∃ w', Pool.find 0 5000 0 w = .ok (some ⟨0, ⟨1, 0⟩, 1⟩) w' := by
  intro w
  have hrun : (Scene.empty .checked .plain (.within none)).Reaches ⟨w, []⟩ :=
    reaches_performAll 0 0 _ _
  have hminimum : w.minimum? 0 = some 4096 := by decide +kernel
  have hfound : (Pool.find 0 5000 0).run' w = some (some ⟨0, ⟨1, 0⟩, 1⟩) := by decide +kernel
  clear_value w
  obtain ⟨pool, hp, hsmallest⟩ := Option.map_eq_some_iff.1 hminimum
  exact ⟨hrun, ⟨pool, hp, hsmallest ▸ by decide⟩, exists_of_run' hfound⟩

end Desk

end BufferPool
