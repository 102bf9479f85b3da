import BufferPool.Proofs.Desk.Abandonment
import BufferPool.Proofs.Desk.Cache
import BufferPool.Proofs.Pool.Discarding
import BufferPool.Proofs.Pool.LicensedCells

/-!
# One-shot buffers and leases

Once a buffer is one-shot or a lease it remains so, whatever is done to it. A lease is one-shot: every
operation that makes one sees to that, and a direct call is refused in the checked profile, so that only
in the unchecked one its callers must be careful. And no release puts a one-shot buffer into a free lane.
It leaves its pool instead, whatever the rule of the pool is, because the rule is not asked.
-/

namespace BufferPool.Desk

open PoolM World

variable {s : Scene} {n : Vacations} {p q : PoolId} {key : Arena.Key} {b : BufferId}

/-- An action that makes a lease of a buffer by a direct call does so with a one-shot buffer. -/
def Action.Careful (w : World Desk) (action : Action) : Prop :=
  ∀ b, action.leases? w = some b → (w.buffer b).transient = true

/-- Every one of the actions is careful when it is taken. -/
def Scene.Careful (s : Scene) : List Action → Prop
  | [] => True
  | action :: rest => action.Careful s.world ∧ (action.take s).2.Careful rest

/-- An action that takes care of leases. -/
theorem Action.permitted_careful {action : Action} {w : World Desk}
    (h : w.profile = .unchecked → action.Careful w) :
    action.Permitted ⟨fun _ => True, True, False, 0⟩ w where
  keeps _ _ := .inl trivial
  fills _ _ := trivial
  builds _ := ⟨trivial, rfl⟩
  requests _ _ := UInt64.zero_le
  marks hprofile b hb _ := .inr (h hprofile b hb)

/-- Careful actions make leases of one-shot buffers only. -/
theorem Scene.proper_after (actions : List Action)
    (hcells : ∀ (b : BufferId) c, s.world.cells[b]? = some c → c.buffer.Proper)
    (hcare : s.world.profile = .unchecked → s.Careful actions) :
    ∀ (b : BufferId) c, (s.after actions).world.cells[b]? = some c → c.buffer.Proper := by
  induction actions generalizing s with
  | nil => exact hcells
  | cons action rest ih =>
      have haction := Action.licensedSteps (Action.permitted_careful fun hprofile => (hcare hprofile).1)
      rw [← Action.world_take] at haction
      rw [Scene.after_cons]
      refine ih ?_ fun hprofile => (hcare (haction.profile.symm.trans hprofile)).2
      exact haction.forall_cells (I := fun _ c => c.buffer.Proper) hcells
        (fun hdescends => hdescends.proper id) fun _ => Buffer.proper_fresh _ _

/-- The marks of a buffer remain. -/
structure Marked (x y : Buffer) : Prop where
  transient : x.transient = true → y.transient = true
  lease : x.lease = true → y.lease = true

theorem marked_absent (y : Buffer) : Marked .absent y :=
  ⟨nofun, nofun⟩

theorem Scene.marked_after (s : Scene) (actions : List Action) (b : BufferId) :
    Marked (s.world.buffer b) ((s.after actions).world.buffer b) := by
  cases hc : s.world.cells[b]? with
  | none =>
      have habsent : s.world.buffer b = .absent := by
        rw [World.buffer, hc]
        rfl
      rw [habsent]
      exact marked_absent _
  | some c =>
      obtain ⟨c', hc', hmarked⟩ := (s.licensedSteps_after actions).cell
        (I := fun c' => Marked c.buffer c'.buffer) hc ⟨id, id⟩ fun hdescends hmarked =>
          ⟨hdescends.transient ∘ hmarked.transient, hdescends.lease ∘ hmarked.lease⟩
      rw [buffer_of_getElem? hc, buffer_of_getElem? hc']
      exact hmarked

theorem arena?_handOver (operand : Operand) (kept : Bool) (handle : Handle) (w : World Desk)
    (q : PoolId) : ((handOver operand kept handle).leaves w).arena? q = w.arena? q := by
  unfold handOver
  split <;> rfl

theorem free_of_give {handle : Handle} {giving : Giving} {w : World Desk} (hs : w.Sound)
    (hreleases : giving.releases = true)
    (hfree : ((giving.perform p handle).leaves w).place? q key = some (b, some .free)) :
    w.place? q key = some (b, some .free) ∨ Pool.Keepable p handle q key b w := by
  cases giving with
  | deallocate => exact nomatch hreleases
  | release lane => exact Pool.free_of_release hs hfree
  | giveBack lane => exact Pool.free_of_giveBack hs hfree

theorem Action.eq_give_of_released {action : Action} {w : World Desk} {h : Handle}
    (hr : action.released? w = some h) : ∃ me p operand kept giving,
      action = .call me p (.give operand kept giving) ∧ giving.releases = true ∧
        w.client.find? operand = some h := by
  cases action with
  | call me p call =>
      cases call with
      | give operand kept giving =>
          obtain ⟨hreleases, hf⟩ := Option.ite_none_right_eq_some.1 hr
          exact ⟨me, p, operand, kept, giving, rfl, hreleases, hf⟩
      | _ => exact nomatch hr
  | _ => exact nomatch hr

/-- No action puts a buffer into the free lane but direct insertions, setting pools up, and the release of
a buffer that is not one-shot. -/
theorem Action.free_place {action : Action} {w : World Desk} (hs : w.Sound)
    (hinserts : action.mayInsertInto q = false) (hbuilds : action.builds = false)
    (hfree : (action.perform.leaves w).place? q key = some (b, some .free)) :
    w.place? q key = some (b, some .free) ∨
      ∃ h, action.released? w = some h ∧ Pool.Keepable q h q key b w := by
  by_cases hone : ∀ h, action.released? w = some h → (w.buffer h.buffer).transient = true
  · have hpermitted : action.Permitted ⟨(· ≠ q), False, True, 0⟩ w :=
      { keeps := fun h hh => .inr (hone h hh)
        fills := by
          rintro _ hyes rfl
          exact Bool.noConfusion (hinserts.symm.trans hyes)
        builds := fun hyes => Bool.noConfusion (hbuilds.symm.trans hyes)
        requests := fun _ _ => UInt64.zero_le
        marks := fun _ _ _ _ => .inl trivial }
    exact .inl ((Action.licensedSteps hpermitted).free_place hs (fun hne => hne rfl) id hfree)
  push Not at hone
  obtain ⟨h, hh, -⟩ := hone
  obtain ⟨me, p, operand, kept, giving, rfl, hreleases, hf⟩ := eq_give_of_released hh
  rw [perform] at hfree
  rcases leaves_give_call operand kept giving me p w with ⟨handle, hf', hleaves⟩ | hleaves
  · obtain rfl : handle = h := Option.some.inj (hf'.symm.trans hf)
    have hplace : ∀ q key, ((handOver operand kept handle).leaves w).place? q key = w.place? q key :=
      fun q key => place?_congr (arena?_handOver operand kept handle w q) key
    have hsound : ((handOver operand kept handle).leaves w).Sound :=
      fun q a ha => hs q a ((arena?_handOver operand kept handle w q).symm.trans ha)
    rw [hleaves] at hfree
    rcases free_of_give hsound hreleases hfree with hbefore | ⟨⟨rfl, hp⟩, hkey, hnamed, hlasting⟩
    · exact .inl ((hplace q key).symm.trans hbefore)
    · rw [(spares_handOver operand kept handle).buffer_leaves w handle.buffer] at hlasting
      exact .inr ⟨handle, hh, ⟨⟨rfl, hp⟩, hkey, hplace q key ▸ hnamed, hlasting⟩⟩
  · rw [hleaves] at hfree
    exact .inl hfree

/-- The key of a handle is the only one under which its buffer can be registered. -/
theorem Counted.key_of_place? {c : Chronicle} (hc : Counted c n s) {h : Handle}
    (hh : h ∈ s.world.handles) {lane : Option Lane}
    (hplace : s.world.place? q key = some (h.buffer, lane)) : q = h.pool ∧ key = h.key := by
  obtain ⟨arena, ha, hplace⟩ := Option.bind_eq_some_iff.1 hplace
  obtain ⟨e, hgen, htenant⟩ := hc.fits.known_of_place? ha hplace
  obtain ⟨e', hgen', htenant'⟩ := hc.known hh
  obtain ⟨hpool, hindex, rfl⟩ := c.unique _ _ _ _ _ _ _ htenant htenant'
  have hkey : key = ⟨key.index, UInt64.ofNat e⟩ := by rw [← hgen]
  have hkey' : h.key = ⟨h.key.index, UInt64.ofNat e⟩ := by rw [← hgen']
  exact ⟨hpool, by rw [hkey, hkey', hindex]⟩

/-- What the key of a handle names is its buffer, if the vacations of its slot are countable. -/
theorem Counted.buffer_of_place? {c : Chronicle} (hc : Counted c n s) {h : Handle}
    (hh : h ∈ s.world.handles) {lane : Option Lane} (hn : n.Countable h.pool h.key.index)
    (hplace : s.world.place? h.pool h.key = some (b, lane)) : b = h.buffer := by
  obtain ⟨arena, ha, hplace⟩ := Option.bind_eq_some_iff.1 hplace
  obtain ⟨pool, hp, rfl⟩ := Option.map_eq_some_iff.1 ha
  obtain ⟨node, hnode, rfl, -⟩ := Arena.place?_eq_some_iff.1 hplace
  have hcontains : pool.arena.contains h.key = true := by
    rw [Arena.contains, hnode]
    rfl
  have hget := hc.get?_of_contains hp hn (hc.known hh) rfl hcontains
  rw [Arena.get?, hnode] at hget
  exact Option.some.inj hget

/-- At every scene of a run, what is a lease is one-shot, if leases were made with care in the unchecked
profile; and marks remain, whatever actions are taken next. Every release of a one-shot buffer that succeeds
takes the buffer out of its pool and does not ask the rule, in any world with sound arenas. And no action
puts a one-shot buffer into a free lane but by a direct insertion, as far as the vacations of the slot are
countable: no execution reaches that bound, beyond which a release may mistake one buffer for another. -/
theorem one_shot_discipline {profile : Profile} {format : Format} {maker : Supply}
    (hs : (Scene.empty profile format maker).ReachesVacating n s) :
    (∀ actions, (Scene.empty profile format maker).after actions = s →
      (profile = .unchecked → (Scene.empty profile format maker).Careful actions) →
      ∀ b, (s.world.buffer b).Proper) ∧
    (∀ actions b, Marked (s.world.buffer b) ((s.after actions).world.buffer b)) ∧
    (s.world.Sound ∧ ∀ {p : PoolId} {h : Handle} {w w' : World Desk}, w.Sound →
      (w.buffer h.buffer).transient = true → Released p h w w' → Discards p h w w') ∧
    (∀ h ∈ s.world.handles, ∀ p w', Discards p h s.world w' →
      (∀ q key lane, w'.place? q key ≠ some (h.buffer, lane)) ∧
      (n.Countable p h.key.index → ∃ lane, s.world.place? p h.key = some (h.buffer, some lane))) ∧
    ∀ (action : Action) q key b, action.mayInsertInto q = false → action.builds = false →
      (∀ h, action.released? s.world = some h →
        (s.world.buffer h.buffer).transient = true ∨ n.Countable q key.index) →
      (action.take s).2.world.place? q key = some (b, some .free) →
        s.world.place? q key = some (b, some .free) ∨ (s.world.buffer b).transient = false := by
  obtain ⟨k, hkept⟩ := Scene.Reaches.kept (kept_empty profile format maker) hs.reaches
  obtain ⟨c, hc⟩ := hs.counted
  have hsound : s.world.Sound := hkept.agrees.sound
  refine ⟨?_, fun actions b => s.marked_after actions b,
    ⟨hsound, fun hw hone hreleased => hreleased.discards hw hone⟩, fun h hh p w' hd => ⟨?_, ?_⟩, ?_⟩
  · rintro actions rfl hcare b
    have hempty : ∀ (b : BufferId) c, (Scene.empty profile format maker).world.cells[b]? = some c →
        c.buffer.Proper := fun b c hcell => by simp [Scene.empty, World.empty] at hcell
    rw [World.buffer]
    cases hcell : ((Scene.empty profile format maker).after actions).world.cells[b]? with
    | none => exact Buffer.proper_fresh _ _
    | some cell => exact Scene.proper_after actions hempty hcare b cell hcell
  · intro q key lane hplace
    rw [hd.place] at hplace
    split_ifs at hplace with hsame
    obtain ⟨rfl, rfl⟩ := hc.key_of_place? hh hplace
    exact hsame ⟨hd.owner, rfl⟩
  · intro hn
    obtain ⟨b, lane, hlisted⟩ := hd.listed
    obtain rfl := hd.owner
    obtain rfl := hc.buffer_of_place? hh hn hlisted
    exact ⟨lane, hlisted⟩
  · intro action q key b hinserts hbuilds hcare hfree
    rw [Action.world_take] at hfree
    rcases Action.free_place hsound hinserts hbuilds hfree with
      hbefore | ⟨h, hreleased, ⟨⟨-, rfl⟩, rfl, ⟨lane, hnamed⟩, hlasting⟩⟩
    · exact .inl hbefore
    · right
      rcases hcare h hreleased with hone | hn
      · exact absurd (hlasting.symm.trans hone) Bool.false_ne_true
      · obtain ⟨-, -, operand, -, -, -, -, hf⟩ := Action.eq_give_of_released hreleased
        rw [hc.buffer_of_place? (List.mem_append_left _ (find?_mem_roots hf)) hn hnamed]
        exact hlasting

/-- A buffer in the full lane is made a lease, and then it is released. The rule of its pool would keep
any buffer, but it is not asked. -/
theorem released_lease_discarded :
    let calls : List Call := [.build { Config.standard with retention := .always } false,
      .obtain .provideTransientFull 100 none (some "a"), .onBuffer (.named "a") .markLease]
    let s := (Scene.empty .unchecked .plain (.within none)).after (calls.map (.call 0 0))
    let h : Handle := ⟨0, ⟨0, 0⟩, 0⟩
    ((s.world.buffer 0).lease = true ∧ (s.world.buffer 0).Proper) ∧
      s.world.place? 0 ⟨0, 0⟩ = some (0, some .full) ∧
      ∃ w', Released 0 h s.world w' ∧ Discards 0 h s.world w' ∧
        ∀ lane, w'.place? 0 ⟨0, 0⟩ ≠ some (0, lane) := by
  intro calls s h
  have hrun : (Scene.empty .unchecked .plain (.within none)).Reaches s := reaches_calls 0 0 calls _
  obtain ⟨n, hn⟩ := hrun.exists_vacations
  obtain ⟨hproper, -, ⟨hsound, hreleases⟩, hhandles, -⟩ := one_shot_discipline hn
  have hcare : (Scene.empty .unchecked .plain (.within none)).Careful (calls.map (.call 0 0)) := by
    have hnone : ∀ b : BufferId, none ≠ some b := fun b hno => Option.some_ne_none b hno.symm
    refine ⟨fun b hb => absurd hb (hnone b), fun b hb => absurd hb (hnone b), fun b hb => ?_, trivial⟩
    obtain rfl : 0 = b := Option.some.inj (Eq.trans (by decide +kernel) hb)
    decide +kernel
  have hlease : (s.world.buffer 0).lease = true ∧ (s.world.buffer 0).transient = true := by
    decide +kernel
  have hplace : s.world.place? 0 ⟨0, 0⟩ = some (0, some .full) := by decide +kernel
  have hmem : h ∈ s.world.handles := by decide +kernel
  have hok : (Pool.release 0 .full h).run' s.world = some () := by decide +kernel
  obtain ⟨w', hw'⟩ := exists_of_run' hok
  have hreleased : Released 0 h s.world w' := .directly .full hw'
  have hdiscards := hreleases (h := h) hsound hlease.2 hreleased
  exact ⟨⟨hlease.1, hproper _ rfl (fun _ => hcare) 0⟩, hplace, w', hreleased, hdiscards,
    fun lane => (hhandles h hmem 0 w' hdiscards).1 0 _ lane⟩

end BufferPool.Desk
