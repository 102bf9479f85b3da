import BufferPool.Proofs.Pool.WarrantedSteps
import BufferPool.Proofs.Pool.Skipping

/-!
# How one-shot buffers are released

A one-shot buffer that is released leaves its pool, and nobody asks the rule whether to keep it. So
whatever the rule is, a release puts no one-shot buffer into the free lane: it puts nothing there but
what the key of the handle names, and only if the buffer of the handle is none.
-/

namespace BufferPool

open PoolM World

variable {σ α : Type} {p : PoolId} {lane : Lane} {h : Handle}

namespace Arena

variable {a a₁ a₂ : Arena α} {key : Key} {b : α}

theorem place?_of_remove (hs : a.Sound) (hremove : a.remove lane key = .ok a₁) :
    a₁.Sound ∧ ∃ b, a.place? key = some (b, some lane) ∧
      a₁.place? = Function.update a.place? key (some (b, none)) := by
  obtain ⟨wiring, hw⟩ := hs
  rcases remove_cases hw lane key with ⟨-, he⟩ | ⟨_, _, -, -, he⟩ |
    ⟨b, a₁, f, hplace, he, hrelinked, hmoves, hw₁⟩
  · exact nomatch he.symm.trans hremove
  · exact nomatch he.symm.trans hremove
  · obtain rfl := Except.ok.inj (he.symm.trans hremove)
    exact ⟨⟨_, hw₁⟩, b, hplace, hrelinked.place?_eq_update hmoves hplace⟩

/-- What is taken out of its lane and then out of the arena is the only thing that leaves its place. -/
theorem place?_of_remove_of_unregister (hs : a.Sound) (hremove : a.remove lane key = .ok a₁)
    (hunregister : a₁.unregister key = .ok (b, a₂)) :
    (∃ b, a.place? key = some (b, some lane)) ∧
      ∀ k, a₂.place? k = if k = key then none else a.place? k := by
  obtain ⟨⟨wiring, hw₁⟩, b, hplace, hmoved⟩ := place?_of_remove hs hremove
  rcases unregister_cases hw₁ key with ⟨-, he⟩ | ⟨_, _, -, he⟩ | ⟨_, a₂, -, he, -, hcleared, -⟩
  · exact nomatch he.symm.trans hunregister
  · exact nomatch he.symm.trans hunregister
  obtain ⟨-, rfl⟩ := Prod.mk.inj (Except.ok.inj (he.symm.trans hunregister))
  refine ⟨⟨b, hplace⟩, fun k => ?_⟩
  rw [hcleared.place?, hmoved]
  by_cases hk : k = key
  · rw [if_pos hk, if_pos (List.mem_singleton.2 hk)]
  · rw [if_neg hk, if_neg fun hin => hk (List.mem_singleton.1 hin), Function.update_of_ne hk]

end Arena

/-- The event tells that the rule was asked, or that a buffer was put into a lane. -/
def Event.ofKeeping : Event → Bool
  | .consulted .. | .kept .. | .inserted .. | .published .. => true
  | _ => false

namespace World

/-- The arenas stay as they are, and no rule is asked. -/
structure Unasked (w w' : World σ) : Prop where
  arena : ∀ q, w'.arena? q = w.arena? q
  asked : ∀ q : PoolId, w'.pools[q]?.map Pool.consultations = w.pools[q]?.map Pool.consultations
  events : ∃ told : List Event, (∀ e ∈ told, e.ofKeeping = false) ∧ w'.events = told ++ w.events

/-- The buffer of the handle was in a lane and is registered no longer. Otherwise all is as it was in
the pools, and no rule was asked. -/
structure Discards (p : PoolId) (h : Handle) (w w' : World σ) : Prop where
  owner : h.pool = p
  listed : ∃ b lane, w.place? p h.key = some (b, some lane)
  place : ∀ q key, w'.place? q key = if q = p ∧ key = h.key then none else w.place? q key
  asked : ∀ q : PoolId, w'.pools[q]?.map Pool.consultations = w.pools[q]?.map Pool.consultations
  events : ∃ told : List Event, (∀ e ∈ told, e.ofKeeping = false) ∧ w'.events = told ++ w.events

theorem Unasked.trans {w w' w'' : World σ} (h : Unasked w w') (h' : Unasked w' w'') :
    Unasked w w'' := by
  obtain ⟨first, hfirst, he⟩ := h.events
  obtain ⟨second, hsecond, he'⟩ := h'.events
  refine ⟨fun q => (h'.arena q).trans (h.arena q), fun q => (h'.asked q).trans (h.asked q),
    second ++ first, fun e hm => ?_, by rw [he', he, List.append_assoc]⟩
  exact (List.mem_append.1 hm).elim (hsecond e) (hfirst e)

theorem unasked_emit (w : World σ) {e : Event} (he : e.ofKeeping = false) : Unasked w (w.emit e) :=
  ⟨fun _ => rfl, fun _ => rfl, [e], fun _ hm => List.mem_singleton.1 hm ▸ he, rfl⟩

theorem unasked_retain (w : World σ) (b : BufferId) : Unasked w (w.retain b) :=
  ⟨fun _ => rfl, fun _ => rfl, [], nofun, rfl⟩

theorem unasked_drop (w : World σ) (b : BufferId) : Unasked w (w.drop b) := by
  refine ⟨(quiet_drop w b).arena, fun q => by rw [pools_drop], ?_⟩
  unfold drop
  cases w.cells[b]? with
  | none => exact ⟨[], nofun, rfl⟩
  | some c =>
      dsimp only
      split_ifs
      · exact ⟨[_], fun e he => List.mem_singleton.1 he ▸ rfl, rfl⟩
      · exact ⟨[], nofun, rfl⟩

theorem consultations_modifyPool (w : World σ) (p q : PoolId) (f : Pool → Pool)
    (hf : ∀ pool, (f pool).consultations = pool.consultations) :
    (w.modifyPool p f).pools[q]?.map Pool.consultations = w.pools[q]?.map Pool.consultations := by
  rw [modifyPool, Array.getElem?_modify]
  exact map_ite_map hf _

/-- What comes before, and asks no rule, makes no difference. -/
theorem Discards.after {w w₁ w' : World σ} (hd : Discards p h w₁ w') (hu : Unasked w w₁) :
    Discards p h w w' := by
  obtain ⟨b, lane, hplace⟩ := hd.listed
  obtain ⟨first, hfirst, he⟩ := hu.events
  obtain ⟨second, hsecond, he'⟩ := hd.events
  refine ⟨hd.owner, ⟨b, lane, (place?_congr (hu.arena p) h.key).symm.trans hplace⟩, fun q key => ?_,
    fun q => (hd.asked q).trans (hu.asked q), second ++ first, fun e hm => ?_,
    by rw [he', he, List.append_assoc]⟩
  · rw [hd.place, place?_congr (hu.arena q)]
  · exact (List.mem_append.1 hm).elim (hsecond e) (hfirst e)

end World

namespace Pool

/-- What is accounted for asks no rule. -/
theorem unasked_retire (p : PoolId) (b : BufferId) (w : World σ) :
    Unasked w ((retire p b).leaves w) := by
  let f (pool : Pool) : Pool :=
    { pool with allocated := pool.allocated - (w.buffer b).totalSize }
  have hsettled : Unasked w (w.modifyPool p f) :=
    ⟨(quiet_modifyPool w p f (by intro; rfl) (by intro; rfl) (by intro; rfl)).arena,
      fun q => consultations_modifyPool w p q f (by intro; rfl), [], nofun, rfl⟩
  exact hsettled.trans ((unasked_emit _ rfl).trans (unasked_emit _ rfl))

theorem checkOwner_of_ne {w : World σ} (hh : h.pool ≠ p) :
    checkOwner p h w = .error (.foreign h.pool p) w := by
  unfold checkOwner
  rw [if_pos (bne_iff_ne.2 hh)]
  rfl

/-- A buffer is taken out of a lane, or nothing happens. -/
theorem remove_cases (p : PoolId) (lane : Lane) (h : Handle) (w : World σ) :
    (∃ fault, remove p lane h w = .error fault w) ∨
      ∃ pool arena, h.pool = p ∧ w.pool? p = some pool ∧ pool.arena.remove lane h.key = .ok arena ∧
        remove p lane h w = .ok () (w.setArena p arena) := by
  by_cases hh : h.pool = p
  swap
  · exact .inl ⟨_, bind_of_error _ (checkOwner_of_ne hh)⟩
  rw [remove, bind_of_ok _ (checkOwner_of_eq hh)]
  cases hp : w.pool? p with
  | none => exact .inl ⟨_, onArena_of_none hp⟩
  | some pool =>
      cases he : pool.arena.remove lane h.key with
      | error fault => exact .inl ⟨_, onArena_of_error hp (congrArg (Except.map ((), ·)) he)⟩
      | ok arena =>
          exact .inr ⟨pool, arena, hh, rfl, he, onArena_of_ok hp (congrArg (Except.map ((), ·)) he)⟩

theorem deallocate_eq_ok {w w' : World σ} (hr : deallocate p h w = .ok () w') :
    ∃ pool b arena, w.pool? p = some pool ∧ pool.arena.unregister h.key = .ok (b, arena) ∧
      Unasked (w.setArena p arena) w' := by
  obtain ⟨b, w₁, hleft, hrest⟩ := bind_eq_ok hr
  have hwithin := onFault_eq_ok hleft
  by_cases hh : h.pool = p
  swap
  · exact nomatch (bind_of_error _ (checkOwner_of_ne hh)).symm.trans hwithin
  have hon := (bind_of_ok _ (checkOwner_of_eq hh)).symm.trans hwithin
  obtain ⟨pool, arena, hp, hunregister, rfl⟩ := onArena_eq_ok hon
  refine ⟨pool, b, arena, hp, hunregister, ?_⟩
  obtain ⟨-, rfl⟩ := EStateM.Result.ok.inj hrest
  exact (unasked_drop _ h.buffer).trans ((unasked_retire p b _).trans (unasked_drop _ b))

/-- A one-shot buffer that has left its lane is deallocated, and no question is asked. -/
theorem release_of_remove {w : World σ} {arena : Arena BufferId}
    (hone : (w.buffer h.buffer).transient = true)
    (hr : remove p lane h w = .ok () (w.setArena p arena)) :
    release p lane h w = deallocate p h ((w.setArena p arena).emit (.noted p .releasingTransient)) := by
  have hsame : (w.setArena p arena).buffer h.buffer = w.buffer h.buffer := rfl
  rw [release, bind_of_ok _ (owning_of_ok hr), dispose, getBuffer_bind, hsame, if_pos hone]
  rfl

/-- A one-shot buffer that is released is discarded. -/
theorem discards_release {w w' : World σ} (hs : w.Sound)
    (hone : (w.buffer h.buffer).transient = true) (hr : release p lane h w = .ok () w') :
    Discards p h w w' := by
  rcases remove_cases p lane h w with ⟨fault, he⟩ | ⟨pool, a₁, hh, hp, hremove, he⟩
  · exact nomatch (bind_of_error _ (onFault_of_error he)).symm.trans hr
  obtain ⟨pool', b, a₂, hp', hunregister, hunasked⟩ :=
    deallocate_eq_ok ((release_of_remove hone he).symm.trans hr)
  have hpool' : (w.setArena p a₁).pool? p = some { pool with arena := a₁ } := by
    rw [pool?_setArena, if_pos rfl, hp, Option.map_some]
  obtain rfl : { pool with arena := a₁ } = pool' := Option.some.inj (hpool'.symm.trans hp')
  obtain ⟨hlisted, hplace⟩ := Arena.place?_of_remove_of_unregister
    (hs p pool.arena (arena?_of_pool? hp)) hremove hunregister
  obtain ⟨told, htold, he⟩ := hunasked.events
  refine ⟨hh, ?_, fun q key => ?_, fun q => ?_, told ++ [.noted p .releasingTransient],
    fun e hm => ?_, ?_⟩
  · obtain ⟨b, hb⟩ := hlisted
    exact ⟨b, lane, (place?_of_pool? hp h.key).trans hb⟩
  · rw [place?_congr (hunasked.arena q), place?_setArena hp']
    by_cases hq : q = p
    · subst hq
      rw [if_pos rfl, hplace, place?_of_pool? hp]
      simp only [true_and]
    · rw [if_neg hq, if_neg fun hboth => hq hboth.1]
      exact (place?_setArena hp a₁ q key).trans (if_neg hq)
  · rw [hunasked.asked]
    exact (consultations_modifyPool _ p q _ (by intro; rfl)).trans
      (consultations_modifyPool w p q _ (by intro; rfl))
  · exact (List.mem_append.1 hm).elim (htold e) fun hlast => List.mem_singleton.1 hlast ▸ rfl
  · rw [he, List.append_assoc]
    rfl

/-- Giving a buffer back releases it, unless the check fails that comes first. -/
theorem giveBack_cases (p : PoolId) (lane : Lane) (h : Handle) (w : World σ) :
    (∃ fault, giveBack p lane h w = .error fault (w.drop h.buffer)) ∨
      giveBack p lane h w = release p lane h w := by
  unfold giveBack
  rcases expect_cases ((w.buffer h.buffer).unflushedSize == 0)
    (.flushed (w.buffer h.buffer).unflushedSize) w with hr | hr
  · exact .inr (bind_of_ok _ (owning_of_ok ((getBuffer_bind h.buffer _ w).trans hr)))
  · exact .inl ⟨_, bind_of_error _ (onFault_of_error ((getBuffer_bind h.buffer _ w).trans hr))⟩

theorem discards_giveBack {w w' : World σ} (hs : w.Sound)
    (hone : (w.buffer h.buffer).transient = true) (hr : giveBack p lane h w = .ok () w') :
    Discards p h w w' := by
  rcases giveBack_cases p lane h w with ⟨fault, he⟩ | he
  · exact nomatch he.symm.trans hr
  · exact discards_release hs hone (he.symm.trans hr)

/-- What the key names, if anything, and the lane that it is in, are as allowed. -/
structure Allots (R : BufferId → Option Lane → Prop) (p : PoolId) (key : Arena.Key) (w : World σ) :
    Prop where
  sound : ∀ a, w.arena? p = some a → a.Sound
  place : ∀ b lane, w.place? p key = some (b, lane) → R b lane

section Allots

variable {R : BufferId → Option Lane → Prop} {key : Arena.Key}

theorem Allots.congr {w w' : World σ} (hw : Allots R p key w) (ha : w'.arena? p = w.arena? p) :
    Allots R p key w' :=
  ⟨fun a hin => hw.sound a (ha.symm.trans hin), fun b lane => place?_congr ha key ▸ hw.place b lane⟩

theorem Allots.setArena {w : World σ} {pool : Pool} {arena : Arena BufferId}
    (hp : w.pool? p = some pool) (hs : arena.Sound)
    (hplace : ∀ b lane, arena.place? key = some (b, lane) → R b lane) :
    Allots R p key (w.setArena p arena) := by
  refine ⟨fun a ha => ?_, fun b lane hb => ?_⟩
  · rw [arena?_setArena _ hp, if_pos rfl] at ha
    exact Option.some.inj ha ▸ hs
  · rw [place?_setArena hp, if_pos rfl] at hb
    exact hplace b lane hb

theorem allots_quiet {act : PoolM σ α} (hq : Quiet act) : Keeps (Allots R p key) act :=
  fun w hw => hw.congr ((hq w).arena p)

theorem allots_drop (b : BufferId) (w : World σ) (hw : Allots R p key w) :
    Allots R p key (w.drop b) :=
  hw.congr ((quiet_drop w b).arena p)

/-- An update of the arena that leaves nothing but what is allowed under the key. -/
theorem allots_onArena {f : Arena BufferId → Except Arena.Fault (α × Arena BufferId)}
    (h : ∀ a wiring x a', a.Wired wiring → (∀ b lane, a.place? key = some (b, lane) → R b lane) →
      f a = .ok (x, a') → a'.Sound ∧ ∀ b lane, a'.place? key = some (b, lane) → R b lane) :
    Keeps (Allots (σ := σ) R p key) (onArena p f) := by
  intro w hw
  cases hp : w.pool? p with
  | none =>
      rw [leaves_of_error (onArena_of_none hp)]
      exact hw
  | some pool =>
      obtain ⟨wiring, hwired⟩ := hw.sound pool.arena (arena?_of_pool? hp)
      cases he : f pool.arena with
      | error fault =>
          rw [leaves_of_error (onArena_of_error hp he)]
          exact hw
      | ok r =>
          obtain ⟨x, a'⟩ := r
          obtain ⟨hs, hplace⟩ := h pool.arena wiring x a' hwired
            (fun b lane hb => hw.place b lane ((place?_of_pool? hp key).trans hb)) he
          rw [leaves_of_ok (onArena_of_ok hp he)]
          exact .setArena hp hs hplace

theorem allots_unregister : Keeps (Allots (σ := σ) R p key) (onArena p (·.unregister key)) := by
  apply allots_onArena
  intro a wiring x a' hw _ hf
  rcases Arena.unregister_cases hw key with ⟨-, he⟩ | ⟨_, _, -, he⟩ | ⟨b, arena, -, he, -, hc, hw'⟩
  · exact nomatch he.symm.trans hf
  · exact nomatch he.symm.trans hf
  · obtain ⟨-, rfl⟩ := Prod.mk.inj (Except.ok.inj (he.symm.trans hf))
    refine ⟨⟨_, hw'⟩, fun b lane hb => ?_⟩
    rw [hc.place?, if_pos (List.mem_singleton_self key)] at hb
    exact nomatch hb

theorem allots_remove {lane : Lane} (hR : ∀ b, R b (some lane) → R b none) :
    Keeps (Allots (σ := σ) R p key)
      (onArena p fun arena => (arena.remove lane key).map ((), ·)) := by
  apply allots_onArena
  intro a wiring x a' hw hall hf
  cases he : a.remove lane key with
  | error fault => exact nomatch (congrArg (Except.map ((), ·)) he).symm.trans hf
  | ok arena =>
      have hdone := (congrArg (Except.map ((), ·)) he).symm.trans hf
      obtain ⟨-, rfl⟩ := Prod.mk.inj (Except.ok.inj hdone)
      obtain ⟨hs, b, hplace, hmoved⟩ := Arena.place?_of_remove ⟨wiring, hw⟩ he
      refine ⟨hs, fun b' lane' hb => ?_⟩
      rw [hmoved, Function.update_self] at hb
      obtain ⟨rfl, rfl⟩ := Prod.mk.inj (Option.some.inj hb)
      exact hR b (hall b _ hplace)

theorem allots_prepend {lane : Lane} (hR : ∀ b lane', R b lane' → R b (some lane)) :
    Keeps (Allots (σ := σ) R p key)
      (onArena p fun arena => (arena.prepend lane key).map ((), ·)) := by
  apply allots_onArena
  intro a wiring x a' hw hall hf
  rcases Arena.prepend_cases hw lane key with ⟨-, he⟩ | ⟨_, _, -, he⟩ |
    ⟨b, arena, f, hplace, he, hr, hm, hw'⟩
  · exact nomatch (congrArg (Except.map ((), ·)) he).symm.trans hf
  · exact nomatch (congrArg (Except.map ((), ·)) he).symm.trans hf
  · have hdone := (congrArg (Except.map ((), ·)) he).symm.trans hf
    obtain ⟨-, rfl⟩ := Prod.mk.inj (Except.ok.inj hdone)
    refine ⟨⟨_, hw'⟩, fun b' lane' hb => ?_⟩
    rw [hr.place?_eq_update hm hplace, Function.update_self] at hb
    obtain ⟨rfl, rfl⟩ := Prod.mk.inj (Option.some.inj hb)
    exact hR b _ (hall b _ hplace)

theorem allots_deallocate : Keeps (Allots (σ := σ) R p h.key) (deallocate p h) :=
  (((allots_quiet (quiet_checkOwner p h)).bind fun _ => allots_unregister).owning
    (allots_drop h.buffer)).bind fun b => (allots_quiet (quiet_drop h.buffer)).bind fun _ =>
      (allots_quiet (quiet_retire p b)).bind fun _ => allots_quiet (quiet_drop b)

/-- A release does not change what the key names. -/
theorem allots_release {S : BufferId → Prop} :
    Keeps (Allots (σ := σ) (fun b _ => S b) p h.key) (release p lane h) := by
  refine ((allots_quiet (quiet_checkOwner p h)).bind fun _ => allots_remove fun _ hb => hb).owning
    (allots_drop h.buffer) |>.bind fun _ => ?_
  apply (allots_quiet (quiet_getBuffer h.buffer)).bind
  intro buffer
  split_ifs
  · exact (allots_quiet (quiet_note p _)).bind fun _ => allots_deallocate
  · apply (allots_quiet ((quiet_expectIdle h.buffer).bind fun _ => quiet_consult p).owning).bind
    intro keep
    split_ifs
    · exact ((allots_prepend fun _ _ hb => hb).owning (allots_drop h.buffer)).bind fun _ =>
        (allots_quiet (quiet_emit _)).bind fun _ => allots_quiet (quiet_drop h.buffer)
    · exact allots_deallocate

end Allots

/-- The handle names a buffer in the given place that is not one-shot. -/
structure Keepable (p : PoolId) (h : Handle) (q : PoolId) (key : Arena.Key) (b : BufferId)
    (w : World σ) : Prop where
  pools : q = p ∧ h.pool = p
  keys : key = h.key
  named : ∃ lane, w.place? q key = some (b, lane)
  lasting : (w.buffer h.buffer).transient = false

/-- However a release ends, it puts nothing into a free lane but what the key of the handle names, and
that only if the buffer of the handle is not one-shot. -/
theorem free_of_release {w : World σ} (hs : w.Sound) {q : PoolId} {key : Arena.Key} {b : BufferId}
    (hfree : ((release p lane h).leaves w).place? q key = some (b, some .free)) :
    w.place? q key = some (b, some .free) ∨ Keepable p h q key b w := by
  by_cases hh : h.pool = p
  swap
  · have hforeign : remove p lane h w = .error (.foreign h.pool p) w :=
      bind_of_error _ (checkOwner_of_ne hh)
    have hleft : release p lane h w = .error (.foreign h.pool p) (w.drop h.buffer) :=
      bind_of_error _ (onFault_of_error hforeign)
    rw [leaves_of_error hleft] at hfree
    exact .inl ((place?_congr ((quiet_drop w h.buffer).arena q) key).symm.trans hfree)
  by_cases hother : q = p ∧ key = h.key
  · obtain ⟨rfl, rfl⟩ := hother
    cases hone : (w.buffer h.buffer).transient with
    | false =>
        let named (b : BufferId) : Prop := ∃ lane, w.place? q h.key = some (b, lane)
        have hkeeps : Keeps (Allots (fun b _ => named b) q h.key) (release (σ := σ) q lane h) :=
          allots_release
        have hnamed := hkeeps w ⟨hs q, fun b lane hb => ⟨lane, hb⟩⟩
        exact .inr ⟨⟨rfl, hh⟩, rfl, hnamed.place b _ hfree, hone⟩
    | true =>
        left
        rcases remove_cases q lane h w with ⟨fault, he⟩ | ⟨pool, a₁, -, hp, hremove, he⟩
        · have hleft : release q lane h w = .error fault (w.drop h.buffer) :=
            bind_of_error _ (onFault_of_error he)
          rw [leaves_of_error hleft] at hfree
          exact (place?_congr ((quiet_drop w h.buffer).arena q) h.key).symm.trans hfree
        · obtain ⟨hsound, b', -, hmoved⟩ :=
            Arena.place?_of_remove (hs q pool.arena (arena?_of_pool? hp)) hremove
          have hunlisted : Allots (fun _ lane => lane ≠ some .free) q h.key
              ((w.setArena q a₁).emit (.noted q .releasingTransient)) := by
            refine Allots.congr (w := w.setArena q a₁) (.setArena hp hsound fun b lane hb => ?_) rfl
            rw [hmoved, Function.update_self] at hb
            exact (Prod.mk.inj (Option.some.inj hb)).2 ▸ nofun
          rw [leaves, release_of_remove hone he] at hfree
          exact absurd rfl ((allots_deallocate _ hunlisted).place b _ hfree)
  · left
    have hrests : Rests w ((release p lane h).leaves w) q key :=
      rests_release (fun hq hkey => hother ⟨hq, hkey⟩) lane w ⟨rfl, hs q⟩
    exact hrests.place.symm.trans hfree

theorem free_of_giveBack {w : World σ} (hs : w.Sound) {q : PoolId} {key : Arena.Key} {b : BufferId}
    (hfree : ((giveBack p lane h).leaves w).place? q key = some (b, some .free)) :
    w.place? q key = some (b, some .free) ∨ Keepable p h q key b w := by
  rcases giveBack_cases p lane h w with ⟨fault, he⟩ | he
  · rw [leaves_of_error he] at hfree
    exact .inl ((place?_congr ((quiet_drop w h.buffer).arena q) key).symm.trans hfree)
  · rw [leaves, he] at hfree
    exact free_of_release hs hfree

end Pool

namespace Sweep

variable {me : Thread} {s : Sweep}

/-- A visit to a one-shot buffer gives it back. -/
theorem visit_of_transient {w : World σ} (hone : (w.buffer h.buffer).transient = true) :
    s.visit me h w =
      (Pool.giveBack s.pool s.lane h >>= fun _ => pure (true, s.counted)) (w.retain h.buffer) := by
  rw [visit, getBuffer_bind, if_pos hone]
  rfl

theorem discards_visit {w w' : World σ} {r : Bool × Sweep} (hs : w.Sound)
    (hone : (w.buffer h.buffer).transient = true) (hr : s.visit me h w = .ok r w') :
    Discards s.pool h w w' := by
  rw [visit_of_transient hone] at hr
  obtain ⟨_, w₁, hgiven, hrest⟩ := bind_eq_ok hr
  obtain ⟨-, rfl⟩ := EStateM.Result.ok.inj hrest
  have hretained : ((w.retain h.buffer).buffer h.buffer).transient = true :=
    w.buffer_retain h.buffer h.buffer ▸ hone
  have hsound : (w.retain h.buffer).Sound := hs
  exact (Pool.discards_giveBack hsound hretained hgiven).after (unasked_retain w h.buffer)

end Sweep

/-- The buffer of a handle is released with success, directly, by whoever has drained it, or by a
sweep, which releases one-shot buffers only. -/
inductive Released (p : PoolId) (h : Handle) (w w' : World σ) : Prop where
  | directly (lane : Lane) (hr : Pool.release p lane h w = .ok () w')
  | givenBack (lane : Lane) (hr : Pool.giveBack p lane h w = .ok () w')
  | swept (me : Thread) (s : Sweep) (r : Bool × Sweep) (hp : s.pool = p)
      (hr : s.visit me h w = .ok r w')

/-- Whichever way a one-shot buffer is released, it is discarded. -/
theorem Released.discards {w w' : World σ} (hr : Released p h w w') (hs : w.Sound)
    (hone : (w.buffer h.buffer).transient = true) : Discards p h w w' := by
  cases hr with
  | directly lane hr => exact Pool.discards_release hs hone hr
  | givenBack lane hr => exact Pool.discards_giveBack hs hone hr
  | swept me s r hp hr => exact hp ▸ Sweep.discards_visit hs hone hr

end BufferPool
