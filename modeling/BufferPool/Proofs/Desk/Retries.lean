import BufferPool.Proofs.Desk.Completion
import BufferPool.Proofs.Pool.Retrying

/-!
# Searches of several attempts, alone and among others

A thread that takes a free buffer with several attempts has no advantage over one that makes a single
attempt, unless somebody else does something meanwhile. Between two attempts anybody may do anything to
the pool but close it. Then the first attempt that comes upon a buffer that suits decides.
-/

namespace BufferPool

open PoolM World

/-- What a lookup in this world finds. -/
def World.hit {σ : Type} (w : World σ) (p : PoolId) (size : UInt64) : Option Handle :=
  (w.choice size (w.row p .free)).map fun e => ⟨p, e.1, e.2⟩

namespace Desk

/-- How far a search has come. -/
inductive Stage where
  /-- So many attempts may still be made. -/
  | searching (remaining : Nat)
  | ended (found : Option Handle)

/-- A thread that searches the free lane, among others. -/
structure Search where
  scene : Scene
  stage : Stage
  /-- The worlds in which an attempt was made, in their order. -/
  attempts : List (World Desk)

namespace Search

section

variable (p : PoolId) (size : UInt64) (retries : Nat) (t : Thread)

/-- The next attempt, the end of a search that has no attempt left, or something that anybody does. -/
inductive Step : Search → Search → Prop where
  | succeed {s : Scene} {more : Nat} {attempts : List (World Desk)} {h : Handle} {w' : World Desk}
      (hr : Pool.attempt p size retries t more s.world = .ok (some h) w') :
      Step ⟨s, .searching (more + 1), attempts⟩
        ⟨⟨w', s.made⟩, .ended (some h), attempts ++ [s.world]⟩
  | fail {s : Scene} {more : Nat} {attempts : List (World Desk)} {w' : World Desk}
      (hr : Pool.attempt p size retries t more s.world = .ok none w') :
      Step ⟨s, .searching (more + 1), attempts⟩
        ⟨⟨w', s.made⟩, .searching more, attempts ++ [s.world]⟩
  | giveUp (s : Scene) (attempts : List (World Desk)) :
      Step ⟨s, .searching 0, attempts⟩ ⟨s, .ended none, attempts⟩
  | others {s s' : Scene} {remaining : Nat} {attempts : List (World Desk)} (ha : ThreadStep s s')
      (hlive : (s'.world.pool? p).isSome = true) :
      Step ⟨s, .searching remaining, attempts⟩ ⟨s', .searching remaining, attempts⟩

abbrev Runs : Search → Search → Prop := Relation.ReflTransGen (Step p size retries t)

/-- The search is in a pool that is there. Each attempt so far but a successful one has come upon nothing
that suits. When the search is over, the answer is what the first attempt has come upon that came upon
anything, and only if none did, no attempt is left. -/
structure Faithful (x : Search) : Prop where
  bound : x.attempts.length ≤ retries
  searching : ∀ remaining, x.stage = .searching remaining →
    (∃ pool, x.scene.world.Tidy p pool) ∧ x.attempts.length + remaining = retries ∧
      ∀ w ∈ x.attempts, w.hit p size = none
  ended : ∀ found, x.stage = .ended found → found = x.attempts.findSome? (·.hit p size)
  exhausted : x.stage = .ended none → x.attempts.length = retries
  /-- A successful attempt is the last one, and its outcome is that of a lookup. -/
  successful : ∀ h, x.stage = .ended (some h) → ∃ failed w, x.attempts = failed ++ [w] ∧
    (∀ w ∈ failed, w.hit p size = none) ∧
      w.LooksUp p size t (w.row p .free) (some h) x.scene.world

end

variable {p : PoolId} {size : UInt64} {retries : Nat} {t : Thread} {x y : Search}

/-- What a thread does alone is a run. -/
theorem runs_alone {s : Scene} {n : Nat} {found : Option Handle} {w' : World Desk}
    (hr : Pool.takeWithin p size retries t n s.world = .ok found w') (seen : List (World Desk)) :
    ∃ attempts, Runs p size retries t ⟨s, .searching n, seen⟩
      ⟨⟨w', s.made⟩, .ended found, attempts⟩ := by
  induction n generalizing s seen with
  | zero =>
      obtain ⟨rfl, rfl⟩ := EStateM.Result.ok.inj hr
      exact ⟨seen, .single (.giveUp s seen)⟩
  | succ n ih =>
      rw [Pool.takeWithin_succ] at hr
      obtain ⟨result, w₁, hattempt, hrest⟩ := bind_eq_ok hr
      cases result with
      | some h =>
          obtain ⟨rfl, rfl⟩ := EStateM.Result.ok.inj hrest
          exact ⟨_, .single (.succeed hattempt)⟩
      | none =>
          obtain ⟨attempts, hruns⟩ := ih (s := ⟨w₁, s.made⟩) hrest (seen ++ [s.world])
          exact ⟨attempts, .head (.fail hattempt) hruns⟩

/-- An attempt that finds nothing is a call that anybody could have made, and a remark. -/
theorem reaches_of_fail {s : Scene} {pool : Pool} {more : Nat} {w' : World Desk}
    (ht : s.world.Tidy p pool) (hr : Pool.attempt p size retries t more s.world = .ok none w') :
    s.Reaches ⟨w', s.made⟩ ∧ s.world.hit p size = none ∧ OnlyLooks p s.world w' := by
  obtain ⟨found, w₁, hfind, hl⟩ := Pool.find_tidy ht size t
  cases found with
  | some h => cases hr.symm.trans (Pool.attempt_of_some retries more hfind)
  | none =>
      obtain ⟨-, rfl⟩ := EStateM.Result.ok.inj
        (hr.symm.trans (Pool.attempt_of_none retries more hfind))
      have hcall : (Call.obtain .take size (some t) none).perform t p s.world =
          .ok .nothing w₁ := by
        rw [Call.perform, withPool, get_bind, ht.present]
        exact bind_of_ok _ hfind
      have hstep : ThreadStep s ⟨w₁, s.made⟩ := by
        have hmove : ThreadStep s
            ⟨((Call.obtain .take size (some t) none).perform t p).leaves s.world, s.made⟩ :=
          .call t p _ fun hclose => by cases hclose
        rwa [leaves_of_ok hcall] at hmove
      exact ⟨.tail (.single hstep) (.note w₁ s.made p _), hl.first.symm, hl.onlyLooks.note _⟩

/-- The books are in order while the search lasts, and it is as it should be. -/
structure Sound (p : PoolId) (size : UInt64) (retries : Nat) (t : Thread) (x : Search) : Prop
    extends x.Faithful p size retries t where
  kept : ∀ remaining, x.stage = .searching remaining → x.scene.Kept

theorem exists_tidy {s : Scene} (hs : s.Kept) (hlive : (s.world.pool? p).isSome = true) :
    ∃ pool, s.world.Tidy p pool := by
  obtain ⟨k, hk⟩ := hs
  obtain ⟨pool, hp⟩ := Option.isSome_iff_exists.1 hlive
  exact ⟨pool, hk.tidy hp⟩

theorem sound_start {s : Scene} {pool : Pool} (hs : s.Kept) (ht : s.world.Tidy p pool) :
    Sound p size retries t ⟨s, .searching retries, []⟩ :=
  ⟨⟨Nat.zero_le _, by rintro _ ⟨⟩; exact ⟨⟨pool, ht⟩, Nat.zero_add _, nofun⟩, nofun, nofun, nofun⟩,
    fun _ _ => hs⟩

theorem findSome?_hit_append {attempts : List (World Desk)}
    (hfailed : ∀ w ∈ attempts, w.hit p size = none) (w : World Desk) :
    (attempts ++ [w]).findSome? (·.hit p size) = w.hit p size := by
  rw [List.findSome?_append, List.findSome?_eq_none_iff.2 hfailed]
  simp

theorem Sound.step (h : Sound p size retries t x) (hstep : Step p size retries t x y) :
    Sound p size retries t y := by
  cases hstep with
  | @succeed s more attempts g w' hr =>
      obtain ⟨⟨pool, ht⟩, hcount, hfailed⟩ := h.searching _ rfl
      obtain ⟨found, w₁, hfind, hl⟩ := Pool.find_tidy ht size t
      obtain ⟨rfl, rfl⟩ : found = some g ∧ w₁ = w' := by
        cases found with
        | none => exact nomatch hr.symm.trans (Pool.attempt_of_none retries more hfind)
        | some h =>
            obtain ⟨hg, hw⟩ := EStateM.Result.ok.inj
              ((Pool.attempt_of_some retries more hfind).symm.trans hr)
            exact ⟨hg, hw⟩
      refine ⟨⟨?bound, nofun, ?ended, nofun, ?successful⟩, nofun⟩
      case bound =>
        rw [List.length_append, List.length_singleton]
        dsimp only at hcount
        omega
      case ended =>
        rintro _ ⟨⟩
        rw [findSome?_hit_append hfailed]
        exact hl.first
      case successful =>
        rintro _ ⟨⟩
        exact ⟨attempts, s.world, rfl, hfailed, hl⟩
  | @fail s more attempts w' hr =>
      obtain ⟨⟨pool, ht⟩, hcount, hfailed⟩ := h.searching _ rfl
      obtain ⟨hreaches, hmiss, hlooks⟩ := reaches_of_fail ht hr
      have hlength : (attempts ++ [s.world]).length + more = retries := by
        rw [List.length_append, List.length_singleton]
        dsimp only at hcount
        omega
      refine ⟨⟨Nat.le_of_add_right_le (Nat.le_of_eq hlength), ?searching, nofun, nofun, nofun⟩, ?kept⟩
      case searching =>
        rintro _ ⟨⟩
        refine ⟨⟨pool, ht.onlyLooks hlooks⟩, hlength, fun w hw => ?_⟩
        rcases List.mem_append.1 hw with hw | hw
        · exact hfailed w hw
        · rw [List.mem_singleton.1 hw]
          exact hmiss
      case kept => exact fun _ _ => Scene.Reaches.kept (h.kept _ rfl) hreaches
  | giveUp s attempts =>
      obtain ⟨-, hcount, hfailed⟩ := h.searching _ rfl
      refine ⟨⟨h.bound, nofun, ?ended, fun _ => hcount, nofun⟩, nofun⟩
      case ended =>
        rintro _ ⟨⟩
        exact (List.findSome?_eq_none_iff.2 hfailed).symm
  | @others s s' remaining attempts ha hlive =>
      have hkept : s'.Kept := ha.kept (h.kept _ rfl)
      refine ⟨⟨h.bound, ?searching, nofun, nofun, nofun⟩, fun _ _ => hkept⟩
      case searching =>
        rintro _ ⟨⟩
        exact ⟨exists_tidy hkept hlive, (h.searching _ rfl).2⟩

theorem Sound.runs (h : Sound p size retries t x) (hruns : Runs p size retries t x y) :
    Sound p size retries t y := by
  induction hruns with
  | refl => exact h
  | tail _ hstep ih => exact ih.step hstep

end Search

open Search

/-- At any scene, if no attempt may be made, nothing happens. If some may be made and nobody else does
anything, the answer is that of a single lookup. If there is one, the world is that after the lookup, so
what was tried up to the buffer that was found has counted one attempt. Otherwise what is not retired in
the free lane has counted all of the attempts, and there is no other difference in the buffers. In no
case, whatever the request, does anything happen to a pool. If others do something between the attempts,
the first attempt that comes upon a buffer that suits decides, and none of the attempts faults. What the
thread does alone is one of these runs. -/
theorem retries_as_good_as_one {profile : Profile} {format : Format} {maker : Supply} {s : Scene}
    (hs : (Scene.empty profile format maker).Reaches s) {p : PoolId} {pool : Pool}
    (hp : s.world.pool? p = some pool) (size : UInt64) (t : Thread) :
    ((s.world.profile = .checked → size ≤ pool.minimum) →
      Pool.takeRetrying p size 0 t s.world = .ok none s.world ∧
      ∃ found w₁, Pool.take p size t s.world = .ok found w₁ ∧
        s.world.LooksUp p size t (s.world.row p .free) found w₁ ∧
        ∀ n, 0 < n → ∃ w', Pool.takeRetrying p size n t s.world = .ok found w' ∧
          (found.isSome = true → w' = w₁) ∧
          (found = none → SearchedInVain p size n 0 n (s.world.row p .free) s.world w' ∧
            (∀ b, b ∈ s.world.tried size (s.world.row p .free) ↔
              (s.world.buffer b).retired = false ∧ ∃ key, (key, b) ∈ s.world.row p .free) ∧
            ∀ b, (w'.buffer b).bare = (w₁.buffer b).bare ∧
              (w'.buffer b).bare = (s.world.buffer b).bare)) ∧
    (∀ n, OnlyLooks p s.world ((Pool.takeRetrying p size n t).leaves s.world)) ∧
    (∀ n x, Runs p size n t ⟨s, .searching n, []⟩ x →
      x.Faithful p size n t ∧
      ∀ more, x.stage = .searching (more + 1) →
        ∃ found w', Pool.attempt p size n t more x.scene.world = .ok found w' ∧
          OnlyLooks p x.scene.world w') ∧
    ∀ n found w', Pool.takeRetrying p size n t s.world = .ok found w' →
      ∃ attempts, Runs p size n t ⟨s, .searching n, []⟩ ⟨⟨w', s.made⟩, .ended found, attempts⟩ := by
  have hkept : s.Kept := Scene.Reaches.kept (kept_empty profile format maker) hs
  obtain ⟨k, hk⟩ := hkept
  have ht := hk.tidy hp
  refine ⟨fun hfits => ⟨Pool.takeRetrying_of_fits hp size 0 t hfits, ?alone⟩,
    fun n => Pool.onlyLooks_takeRetrying ht size n t, fun n x hruns => ?among,
    fun n found w' hr => ?run⟩
  case alone =>
    obtain ⟨found, w₁, htake, hl, hmore⟩ := Pool.takeRetrying_eq_take ht size t hfits
    refine ⟨found, w₁, htake, hl, fun n hn => ?_⟩
    obtain ⟨w', hr, hsome, hvain⟩ := hmore n hn
    refine ⟨w', hr, hsome, fun hnone => ⟨hvain hnone, ?_, fun b => ?_⟩⟩
    · subst hnone
      exact fun b => mem_tried_of_none (Option.map_eq_none_iff.1 hl.first.symm)
    · subst hnone
      have hbare := (hvain rfl).bare b
      have hglanced : (w₁.buffer b).bare = (s.world.buffer b).bare := by
        rcases hl.abstains.buffer b with h | h
        · rw [h]
        · rw [h]
          rfl
      exact ⟨hbare.trans hglanced.symm, hbare⟩
  case among =>
    have hsound := (sound_start ⟨k, hk⟩ ht).runs hruns
    refine ⟨hsound.toFaithful, fun more hstage => ?_⟩
    obtain ⟨⟨pool', ht'⟩, -⟩ := hsound.searching _ hstage
    exact Pool.attempt_onlyLooks ht' size t n more
  case run =>
    rw [Pool.takeRetrying, bind_of_ok _ (getPool_of_some hp)] at hr
    obtain ⟨_, w₁, hexpect, hrest⟩ := bind_eq_ok hr
    obtain hok | herror := expect_cases (decide (size ≤ pool.minimum)) .fitsSmallestClass s.world
    · obtain ⟨-, rfl⟩ := EStateM.Result.ok.inj (hexpect.symm.trans hok)
      exact runs_alone hrest []
    · cases hexpect.symm.trans herror

/-- There is one free buffer, and thread 1 has acquired it. Alone, thread 0 tries twice in vain. But if
thread 1 releases the buffer after the first attempt, then the second attempt finds it. -/
theorem second_attempt_succeeds :
    let w := performAll 1 0 [.pick .free .forward 0 (some "a"), .onBuffer (.named "a") (.acquire none)]
      (performAll 0 0 [.build { Config.standard with cacheCount := 1 } false]
        (.empty .checked .metered (.within none) .empty))
    (∃ w', Pool.takeRetrying 0 100 2 0 w = .ok none w' ∧
      SearchedInVain 0 100 2 0 2 (w.row 0 .free) w w') ∧
    ∃ x, Runs 0 100 2 0 ⟨⟨w, []⟩, .searching 2, []⟩ x ∧ x.Faithful 0 100 2 0 ∧
      x.attempts.length = 2 ∧ x.stage = .ended (some ⟨0, ⟨0, 0⟩, 0⟩) := by
  intro w
  let w₁ := (Pool.attempt 0 100 2 0 1).leaves w
  let w₂ := performAll 1 0 [.onBuffer (.named "a") .release] w₁
  have hrun : (Scene.empty .checked .metered (.within none)).Reaches ⟨w, []⟩ :=
    (reaches_performAll 0 0 _ _).trans (reaches_performAll 1 0 _ _)
  have hlive : (w.pool? 0).isSome = true := by decide +kernel
  have hminimum : w.minimum? 0 = some 4096 := by decide +kernel
  have hnone : (Pool.takeRetrying 0 100 2 0).run' w = some none := by decide +kernel
  have hfirst : (Pool.attempt 0 100 2 0 1).run' w = some none := by decide +kernel
  have hlive₂ : (w₂.pool? 0).isSome = true := by decide +kernel
  have hsecond : (Pool.attempt 0 100 2 0 0).run' w₂ = some (some ⟨0, ⟨0, 0⟩, 0⟩) := by
    decide +kernel
  have hrelease : ThreadStep ⟨w₁, []⟩ ⟨w₂, []⟩ := .call 1 0 (.onBuffer (.named "a") .release) nofun
  have hleaves : (Pool.attempt 0 100 2 0 1).leaves w = w₁ := rfl
  clear_value w₂ w₁ w
  obtain ⟨pool, hp⟩ := Option.isSome_iff_exists.1 hlive
  obtain ⟨halone, -, hamong, -⟩ := retries_as_good_as_one hrun hp 100 0
  constructor
  · rw [minimum?_of_pool? hp, Option.some.injEq] at hminimum
    obtain ⟨-, found, w₁', -, -, hmore⟩ := halone fun _ => by rw [hminimum]; decide
    obtain ⟨w', hr, -, hvain⟩ := hmore 2 (by decide)
    obtain rfl : found = none := Option.some.inj ((run'_of_ok hr).symm.trans hnone)
    exact ⟨w', hr, (hvain rfl).1⟩
  · obtain ⟨-, hnext⟩ := hamong 2 _ .refl
    obtain ⟨found, w', hr, -⟩ := hnext 1 rfl
    obtain rfl : found = none := Option.some.inj ((run'_of_ok hr).symm.trans hfirst)
    obtain rfl : w' = w₁ := (leaves_of_ok hr).symm.trans hleaves
    have hruns : Runs 0 100 2 0 ⟨⟨w, []⟩, .searching 2, []⟩ ⟨⟨w₂, []⟩, .searching 1, [w]⟩ :=
      .tail (.single (.fail hr)) (.others hrelease hlive₂)
    obtain ⟨-, hnext₂⟩ := hamong 2 _ hruns
    obtain ⟨found, w', hr₂, -⟩ := hnext₂ 0 rfl
    obtain rfl : found = some ⟨0, ⟨0, 0⟩, 0⟩ := Option.some.inj ((run'_of_ok hr₂).symm.trans hsecond)
    have hend := hruns.tail (.succeed hr₂)
    exact ⟨_, hend, (hamong 2 _ hend).1, rfl, rfl⟩

end Desk

end BufferPool
