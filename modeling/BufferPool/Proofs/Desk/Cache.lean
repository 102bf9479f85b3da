import BufferPool.Proofs.Desk.LicensedActions
import BufferPool.Proofs.Pool.Cache

/-!
# The cache bound

Every call that puts a buffer into the free lane directly adds one free buffer at most, and none if it is
refused. Every other action, and in particular every release, whichever way it is called, fills the free
lane up to the number that the pool was set up with and not beyond it. So along any actions the free lane
gets no longer than that number and the number of direct insertions.
-/

namespace BufferPool.Desk

open PoolM World

variable {p : PoolId} {c : Config} {w : World Desk}

theorem sound_empty (profile : Profile) (format : Format) (maker : Supply) :
    (World.empty profile format maker Desk.empty).Sound := by
  intro p a ha
  rw [arena?_of_le (Nat.zero_le p)] at ha
  exact nomatch ha

section GrowsLane

variable {keeps : Prop} {n k : Nat} {act : DeskM Unit}

theorem growsLane_done (h : GrowsLane keeps p c n k act) : GrowsLane keeps p c n k (done act) :=
  h.then_licensed fun _ => .pure _

theorem growsLane_withHandle {operand : Operand} {act : Handle → DeskM Reply}
    (h : ∀ handle, GrowsLane keeps p c n k (act handle)) :
    GrowsLane keeps p c n k (withHandle operand act) := by
  refine .get_bind fun w => ?_
  cases w.client.find? operand with
  | none => exact (GrowsLane.pure _).mono (Nat.zero_le k)
  | some handle => exact h handle

theorem growsLane_withPool {q : PoolId} {act : Pool → DeskM Reply}
    (h : ∀ pool, GrowsLane keeps p c n k (act pool)) : GrowsLane keeps p c n k (withPool q act) := by
  refine .get_bind fun w => ?_
  cases w.pool? q with
  | none => exact (GrowsLane.pure _).mono (Nat.zero_le k)
  | some pool => exact h pool

/-- A call that puts buffers into the free lane directly puts one there. -/
theorem growsLane_call {call : Call} (hinserts : call.inserts = true) (me : Thread) :
    GrowsLane keeps p c n 1 (call.perform me p) := by
  cases call with
  | place operand placing =>
      refine growsLane_withPool fun _ => growsLane_withHandle fun handle => growsLane_done ?_
      cases placing with
      | insert lane => exact Pool.growsLane_insert lane
      | move source => exact Pool.growsLane_move source
      | remove lane => exact nomatch hinserts
  | obtain request size t into =>
      refine growsLane_withPool fun _ => ?_
      cases request with
      | provideLeaseTo lane =>
          exact (Pool.growsLane_provideLeaseTo lane).then_licensed (licensed_keep into)
      | _ => exact nomatch hinserts
  | _ => exact nomatch hinserts

end GrowsLane

/-- The action puts a buffer into the free lane of the pool directly: it is a call to do so, and it is told
that it was done. -/
def Action.insertsInto (p : PoolId) (s : Scene) (action : Action) : Bool :=
  action.mayInsertInto p && decide (s.world.insertions p < (action.take s).2.world.insertions p)

/-- How many of the actions put a buffer into the free lane of the pool directly. -/
def Scene.insertionsInto (p : PoolId) (s : Scene) : List Action → Nat
  | [] => 0
  | action :: rest =>
    (if action.insertsInto p s then 1 else 0) + Scene.insertionsInto p (action.take s).2 rest

theorem Scene.insertionsInto_append (p : PoolId) (s : Scene) (actions : List Action) (action : Action) :
    s.insertionsInto p (actions ++ [action]) =
      s.insertionsInto p actions + if action.insertsInto p (s.after actions) then 1 else 0 := by
  induction actions generalizing s with
  | nil => exact Nat.add_comm _ _
  | cons first rest ih =>
      rw [List.cons_append, Scene.insertionsInto, Scene.insertionsInto, ih, Scene.after_cons,
        Nat.add_assoc]

/-- Nothing is put into the free lane of a pool that is not there. -/
theorem leaves_call_of_none {call : Call} (hinserts : call.inserts = true) (me : Thread)
    (hp : w.pool? p = none) : (call.perform me p).leaves w = w := by
  cases call with
  | place | obtain => exact leaves_of_ok (withPool_of_none hp)
  | _ => exact nomatch hinserts

theorem leaves_build_call (me : Thread) (q : PoolId) (debug : Bool) (w : World Desk) :
    ((Call.build c debug).perform me q).leaves w = (Pool.build c).leaves w := by
  rw [Call.perform, leaves, leaves]
  cases hb : Pool.build c w with
  | error fault w' => rw [bind_of_error _ hb]
  | ok built w' =>
      rw [bind_of_ok _ hb]
      cases built with
      | error e => rfl
      | ok p => cases debug <;> rfl

namespace Action

/-- A licence to do anything. -/
def liberty : Licence := ⟨fun _ => True, True, True, 0⟩

theorem permitted_liberty (action : Action) (w : World Desk) : action.Permitted liberty w where
  keeps _ _ := .inl trivial
  fills _ _ := trivial
  builds _ := ⟨trivial, rfl⟩
  requests _ _ := UInt64.zero_le
  marks _ _ _ _ := .inl trivial

/-- An action that neither sets the pool up nor puts buffers into its free lane directly needs no licence
for the pool. -/
theorem permitted_elsewhere {action : Action} (hinserts : action.mayInsertInto p = false)
    (hbuilds : action.builds = true → w.pools.size ≠ p) :
    action.Permitted ⟨(· ≠ p), True, True, 0⟩ w where
  keeps _ _ := .inl trivial
  fills q hq := by
    rintro rfl
    exact Bool.noConfusion (hinserts.symm.trans hq)
  builds hyes := ⟨hbuilds hyes, rfl⟩
  requests _ _ := UInt64.zero_le
  marks _ _ _ _ := .inl trivial

theorem sound (action : Action) (hs : w.Sound) : (action.perform.leaves w).Sound :=
  (Action.licensedSteps (action.permitted_liberty w)).sound hs

theorem eq_call_of_mayInsertInto {action : Action} (hinserts : action.mayInsertInto p = true) :
    ∃ me call, action = .call me p call ∧ call.inserts = true := by
  cases action with
  | call me q call =>
      obtain ⟨hq, hyes⟩ := Bool.and_eq_true_iff.1 hinserts
      obtain rfl := eq_of_beq hq
      exact ⟨me, call, rfl, hyes⟩
  | _ => exact nomatch hinserts

theorem eq_build_of_builds {action : Action} (hbuilds : action.builds = true) :
    ∃ me p c debug, action = .call me p (.build c debug) := by
  cases action with
  | call me p call =>
      cases call with
      | build c debug => exact ⟨me, p, c, debug, rfl⟩
      | _ => exact nomatch hbuilds
  | _ => exact nomatch hbuilds

/-- By an action the free lane grows by what the action puts into it directly. -/
theorem laneGrowth (action : Action) (hs : w.Sound) (hc : w.config? p = some c)
    (hrule : c.retention.keeps = Retention.upToCacheCount.keeps) :
    LaneGrowth True p c c.cacheCount (if action.mayInsertInto p then 1 else 0) w
      (action.perform.leaves w) := by
  have hcached : w.Cached True p c c.cacheCount := ⟨hs, hc, fun _ => ⟨hrule, le_rfl⟩⟩
  cases hinserts : action.mayInsertInto p with
  | true =>
      obtain ⟨me, call, rfl, hyes⟩ := eq_call_of_mayInsertInto hinserts
      exact growsLane_call hyes me w hcached
  | false =>
      have hbuilds : action.builds = true → w.pools.size ≠ p := by
        rintro - rfl
        rw [config?, Array.getElem?_eq_none (Nat.le_refl _)] at hc
        exact absurd hc.symm (Option.some_ne_none c)
      exact .of_licensedSteps (Action.licensedSteps (permitted_elsewhere hinserts hbuilds)) rfl
        (fun hne => hne rfl) hcached

/-- An action that puts no buffer into the free lane of a pool directly fills it up to the number that the
pool was set up with. One that does adds one free buffer at most. -/
theorem free_le (action : Action) {s : Scene} (hs : s.world.Sound) (hc : s.world.config? p = some c)
    (hrule : c.retention.keeps = Retention.upToCacheCount.keeps) :
    (action.take s).2.world.free p ≤
      max (s.world.free p) c.cacheCount + if action.insertsInto p s then 1 else 0 := by
  have hgrowth := laneGrowth action hs hc hrule
  rw [← Action.world_take] at hgrowth
  have hle := hgrowth.free_le
  have htold := hgrowth.told
  rw [insertsInto]
  cases hinserts : action.mayInsertInto p with
  | false =>
      rw [hinserts] at hle
      exact hle
  | true =>
      rw [hinserts, if_pos rfl] at hle
      simp only [Bool.true_and, decide_eq_true_iff]
      split_ifs <;> omega

/-- What is set up was so before the action, or it is what the action sets up. -/
theorem config?_cases {action : Action} (hs : w.Sound) (hc : (action.perform.leaves w).config? p = some c) :
    w.config? p = some c ∨ p = w.pools.size ∧ (action.perform.leaves w).free p ≤ c.cacheCount := by
  cases hbefore : w.config? p with
  | some c' =>
      have hafter := (Action.licensedSteps (action.permitted_liberty w)).config? hbefore
      exact .inl (congrArg some (Option.some.inj (hafter.symm.trans hc)))
  | none =>
      have hnone : w.pool? p = none := Option.eq_none_iff_forall_ne_some.2 fun _ hp =>
        absurd ((config?_of_pool? hp).symm.trans hbefore) (Option.some_ne_none _)
      by_cases hinserts : action.mayInsertInto p = true
      · obtain ⟨me, call, rfl, hyes⟩ := eq_call_of_mayInsertInto hinserts
        rw [perform, leaves_call_of_none hyes me hnone] at hc
        exact absurd (hc.symm.trans hbefore) (Option.some_ne_none c)
      by_cases hbuilds : action.builds = true ∧ w.pools.size = p
      · obtain ⟨hbuilds, rfl⟩ := hbuilds
        obtain ⟨me, q, c', debug, rfl⟩ := eq_build_of_builds hbuilds
        rw [perform, leaves_build_call] at hc ⊢
        obtain ⟨hset, hfree⟩ := Pool.build_bounded c' hs
        obtain rfl : c' = c := Option.some.inj (hset.symm.trans hc)
        exact .inr ⟨rfl, hfree⟩
      · have hsteps := Action.licensedSteps (action.permitted_elsewhere (p := p) (w := w)
          (Bool.eq_false_iff.2 hinserts) fun hyes heq => hbuilds ⟨hyes, heq⟩)
        have hafter := hsteps.config?_eq_none (fun hne => hne rfl) hbefore
        exact absurd (hc.symm.trans hafter) (Option.some_ne_none c)

end Action

theorem Scene.licensedSteps_after (s : Scene) (actions : List Action) :
    LicensedSteps Action.liberty s.world (s.after actions).world := by
  induction actions generalizing s with
  | nil => exact .refl
  | cons action rest ih =>
      have haction := Action.licensedSteps (action.permitted_liberty s.world)
      rw [Scene.after_cons]
      rw [← Action.world_take] at haction
      exact haction.trans (ih _)

/-- What a pool is set up with remains. -/
theorem Scene.config?_of_build {s : Scene} (hs : s.world.Sound) (me : Thread) (q : PoolId)
    (c : Config) (debug : Bool) (rest : List Action) :
    (s.after (.call me q (.build c debug) :: rest)).world.config? s.world.pools.size = some c := by
  have hbuilt : ((Action.call me q (.build c debug)).take s).2.world.config? s.world.pools.size =
      some c := by
    rw [Action.world_take, Action.perform, leaves_build_call]
    exact (Pool.build_bounded c hs).1
  rw [Scene.after_cons]
  exact (Scene.licensedSteps_after _ rest).config? hbuilt

/-- Along any actions the arenas stay sound, and the free lanes keep to their bounds. -/
theorem free_after_le (profile : Profile) (format : Format) (maker : Supply) (actions : List Action) :
    ((Scene.empty profile format maker).after actions).world.Sound ∧
      ∀ p c, ((Scene.empty profile format maker).after actions).world.config? p = some c →
        c.retention.keeps = Retention.upToCacheCount.keeps →
        ((Scene.empty profile format maker).after actions).world.free p ≤
          c.cacheCount + (Scene.empty profile format maker).insertionsInto p actions := by
  induction actions using List.reverseRecOn with
  | nil => exact ⟨sound_empty profile format maker, fun p c hc => nomatch hc⟩
  | append_singleton actions action ih =>
      obtain ⟨hs, hfree⟩ := ih
      rw [Scene.after_append]
      refine ⟨?_, fun p c hc hrule => ?_⟩
      · rw [Action.world_take]
        exact action.sound hs
      · rw [Scene.insertionsInto_append]
        rw [Action.world_take] at hc
        rcases Action.config?_cases hs hc with hbefore | ⟨-, hnew⟩
        · have hbound := hfree p c hbefore hrule
          have hstep := Action.free_le action hs hbefore hrule
          omega
        · rw [Action.world_take]
          omega

/-- Along any actions, a pool that keeps buffers up to a number has no more free buffers than that number
and the number of direct insertions. An action that is no direct insertion raises the number of free buffers
to the one that the pool was set up with at most; in particular a release does not raise it further,
whether it is called directly, by whoever gives back a drained buffer, or by a sweep. -/
theorem free_lane_bounded {profile : Profile} {format : Format} {maker : Supply} (actions : List Action)
    {pool : Pool} (hp : ((Scene.empty profile format maker).after actions).world.pool? p = some pool)
    (hrule : pool.config.retention.keeps = Retention.upToCacheCount.keeps) :
    let s := (Scene.empty profile format maker).after actions
    pool.arena.count .free ≤
      pool.config.cacheCount + (Scene.empty profile format maker).insertionsInto p actions ∧
    (∀ action : Action, action.insertsInto p s = false →
      (action.take s).2.world.free p ≤ max (pool.arena.count .free) pool.config.cacheCount) ∧
    ∀ (h : Handle),
      (∀ lane, ((Pool.release p lane h).leaves s.world).free p ≤
        max (pool.arena.count .free) pool.config.cacheCount) ∧
      (∀ lane, ((Pool.giveBack p lane h).leaves s.world).free p ≤
        max (pool.arena.count .free) pool.config.cacheCount) ∧
      ∀ (me : Thread) (sweep : Sweep), ((sweep.visit me h).leaves s.world).free p ≤
        max (pool.arena.count .free) pool.config.cacheCount := by
  intro s
  obtain ⟨hs, hfree⟩ := free_after_le profile format maker actions
  have hc : s.world.config? p = some pool.config := config?_of_pool? hp
  have hcount : s.world.free p = pool.arena.count .free := free_of_pool? hp
  have hcached : s.world.Cached True p pool.config pool.config.cacheCount :=
    ⟨hs, hc, fun _ => ⟨hrule, le_rfl⟩⟩
  have hsteps : ∀ {w' : World Desk}, LicensedSteps (.indirect True) s.world w' →
      w'.free p ≤ max (pool.arena.count .free) pool.config.cacheCount :=
    fun h => hcount ▸ (LaneGrowth.of_licensedSteps h rfl id hcached).free_le
  refine ⟨hcount ▸ hfree p pool.config hc hrule, fun action hinserts => ?_, fun h => ⟨fun lane => ?_,
    fun lane => ?_, fun me sweep => ?_⟩⟩
  · have hstep := Action.free_le action hs hc hrule
    rwa [hinserts, if_neg Bool.false_ne_true, Nat.add_zero, hcount] at hstep
  · exact hsteps (Pool.licensedFrom_release lane s.world (.inl trivial)).1
  · exact hsteps (Pool.licensedFrom_giveBack lane s.world (.inl trivial)).1
  · exact hsteps (Sweep.licensed_visit s.world)

/-- A pool that keeps one buffer has two free ones after a direct insertion, and a release does not make
it three. Putting a buffer into the free lane that is there already is refused, and does not count. -/
theorem insertion_exceeds_cache :
    let actions : List Action := [
      .call 0 0 (.build { Config.standard with cacheCount := 1 } false),
      .call 0 0 (.obtain (.provideLeaseTo .free) 100 none (some "b")),
      .call 0 0 (.place (.named "b") (.insert .free)),
      .call 0 0 (.obtain .provideFull 100 none (some "a"))]
    let s := (Scene.empty .unchecked .plain (.within none)).after actions
    (s.world.free 0 = 2 ∧ actions.countP (Action.mayInsertInto 0) = 2 ∧
      (Scene.empty .unchecked .plain (.within none)).insertionsInto 0 actions = 1) ∧
      ((Pool.release 0 .full ⟨0, ⟨2, 0⟩, 2⟩).leaves s.world).free 0 ≤ 2 := by
  intro actions s
  have hfree : s.world.free 0 = 2 := by decide +kernel
  have hset : (s.world.pool? 0).map (·.config.cacheCount) = some 1 := by decide +kernel
  have hconfig : s.world.config? 0 = some { Config.standard with cacheCount := 1 } :=
    Scene.config?_of_build (sound_empty .unchecked .plain (.within none)) 0 0 _ false _
  obtain ⟨pool, hp, hcache⟩ := Option.map_eq_some_iff.1 hset
  obtain hsame := Option.some.inj ((config?_of_pool? hp).symm.trans hconfig)
  obtain ⟨-, -, hreleases⟩ := free_lane_bounded actions hp (hsame ▸ rfl)
  refine ⟨⟨hfree, rfl, by decide +kernel⟩, ?_⟩
  have hle := (hreleases ⟨0, ⟨2, 0⟩, 2⟩).1 .full
  rwa [hcache, ← free_of_pool? hp, hfree] at hle

end BufferPool.Desk
