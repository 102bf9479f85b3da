import BufferPool.Proofs.World.Books

/-!
# Triples

A triple says of an operation what holds when it answers and what holds when it faults, given what
held before. Besides what the books say, an assertion says how the world relates to the one in which
an outer operation began, so the triple of a small operation also serves for all larger ones.

Here are the rules, and the triples of the steps that all operations are made of.
-/

namespace BufferPool

variable {σ α β : Type}

namespace PoolM

/-- From worlds with `P` the operation answers with `Q` or faults with `E`. -/
def Triple (P : World σ → Prop) (act : PoolM σ α) (Q : α → World σ → Prop) (E : World σ → Prop) :
    Prop :=
  ∀ w, P w →
    match act w with
    | .ok a w' => Q a w'
    | .error _ w' => E w'

namespace Triple

variable {P P' : World σ → Prop} {Q : α → World σ → Prop} {R : β → World σ → Prop}
  {E E' : World σ → Prop} {act : PoolM σ α} {next : α → PoolM σ β}

theorem of_ok (h : ∀ w, P w → ∃ a w', act w = .ok a w' ∧ Q a w') : Triple P act Q E := by
  intro w hP
  obtain ⟨a, w', hr, hQ⟩ := h w hP
  rw [hr]
  exact hQ

theorem pure {a : α} (h : ∀ w, P w → Q a w) : Triple P (Pure.pure a) Q E := fun w hP => h w hP

theorem modify {f : World σ → World σ} {Q : World σ → Prop} (h : ∀ w, P w → Q (f w)) :
    Triple P (modify f) (fun _ => Q) E :=
  fun w hP => h w hP

theorem weaken {Q' : α → World σ → Prop} (h : Triple P act Q E) (hP : ∀ w, P' w → P w)
    (hQ : ∀ a w, Q a w → Q' a w) (hE : ∀ w, E w → E' w) : Triple P' act Q' E' := by
  intro w hw
  have hr := h w (hP w hw)
  cases hact : act w with
  | ok a w' =>
      rw [hact] at hr
      exact hQ a w' hr
  | error fault w' =>
      rw [hact] at hr
      exact hE w' hr

theorem pre (h : Triple P act Q E) (hP : ∀ w, P' w → P w) : Triple P' act Q E :=
  h.weaken hP (fun _ _ hQ => hQ) fun _ hE => hE

theorem post {Q' : α → World σ → Prop} (h : Triple P act Q E) (hQ : ∀ a w, Q a w → Q' a w) :
    Triple P act Q' E :=
  h.weaken (fun _ hP => hP) hQ fun _ hE => hE

theorem fault (h : Triple P act Q E) (hE : ∀ w, E w → E' w) : Triple P act Q E' :=
  h.weaken (fun _ hP => hP) (fun _ _ hQ => hQ) hE

theorem bind (h : Triple P act Q E) (hn : ∀ a, Triple (Q a) (next a) R E) :
    Triple P (act >>= next) R E := by
  intro w hP
  have hr := h w hP
  cases hact : act w with
  | ok a w' =>
      rw [hact] at hr
      rw [bind_of_ok next hact]
      exact hn a w' hr
  | error fault w' =>
      rw [hact] at hr
      rw [bind_of_error next hact]
      exact hr

theorem map (h : Triple P act Q E) (f : α → β) (hQ : ∀ a w, Q a w → R (f a) w) :
    Triple P (f <$> act) R E :=
  h.bind fun a => pure (hQ a)

/-- An operation that begins by looking at the world. -/
theorem get_bind {next : World σ → PoolM σ β} (h : ∀ w, P w → Triple (· = w) (next w) R E) :
    Triple P (MonadState.get >>= next) R E :=
  fun w hP => h w hP w rfl

/-- An operation that begins by looking at a buffer. -/
theorem of_getBuffer {b : BufferId} {next : Buffer → PoolM σ β}
    (h : ∀ buffer, Triple P (next buffer) R E) : Triple P (getBuffer b >>= next) R E :=
  fun w hP => h _ w hP

theorem onFault {cleanUp : World σ → World σ} (h : Triple P act Q E)
    (hE : ∀ w, E w → E' (cleanUp w)) : Triple P (onFault cleanUp act) Q E' := by
  intro w hP
  have hr := h w hP
  cases hact : act w with
  | ok a w' =>
      rw [hact] at hr
      rw [onFault_of_ok hact]
      exact hr
  | error fault w' =>
      rw [hact] at hr
      rw [onFault_of_error hact]
      exact hE w' hr

theorem ensuring {finish : World σ → World σ} {Q' : α → World σ → Prop} (h : Triple P act Q E)
    (hQ : ∀ a w, Q a w → Q' a (finish w)) (hE : ∀ w, E w → E' (finish w)) :
    Triple P (ensuring finish act) Q' E' := by
  intro w hP
  have hr := h w hP
  unfold PoolM.ensuring
  cases hact : act w with
  | ok a w' =>
      rw [hact] at hr
      exact hQ a w' hr
  | error fault w' =>
      rw [hact] at hr
      exact hE w' hr

/-- What holds however the operation ends. -/
theorem leaves {Q : World σ → Prop} (h : Triple P act (fun _ => Q) Q) {w : World σ} (hP : P w) :
    Q (act.leaves w) := by
  have hr := h w hP
  unfold PoolM.leaves
  cases hact : act w with
  | ok a w' =>
      rw [hact] at hr
      exact hr
  | error fault w' =>
      rw [hact] at hr
      exact hr

theorem of_leaves {Q : World σ → Prop} (h : ∀ w, P w → Q (act.leaves w)) :
    Triple P act (fun _ => Q) Q := by
  intro w hP
  have hl := h w hP
  cases hact : act w with
  | ok a w' =>
      rw [leaves_of_ok hact] at hl
      exact hl
  | error fault w' =>
      rw [leaves_of_error hact] at hl
      exact hl

/-- What is known of the answer besides. -/
theorem and_post {Q' : α → World σ → Prop} (h : Triple P act Q E)
    (h' : ∀ w a w', P w → act w = .ok a w' → Q' a w') :
    Triple P act (fun a w => Q a w ∧ Q' a w) E := by
  intro w hP
  have hr := h w hP
  cases hact : act w with
  | ok a w' =>
      rw [hact] at hr
      exact ⟨hr, h' w a w' hP hact⟩
  | error fault w' =>
      rw [hact] at hr
      exact hr

/-- An arena stays as it is. -/
theorem keeping {p : PoolId} (h : Triple P act Q E) (hq : Quiet act)
    (arena : Option (Arena BufferId)) :
    Triple (fun w => P w ∧ w.arena? p = arena) act (fun a w => Q a w ∧ w.arena? p = arena) E := by
  refine (h.pre fun w hw => hw.1).and_post fun w a w' hw hr => ?_
  have hleaves := hq w
  rw [leaves_of_ok hr] at hleaves
  exact (hleaves.arena p).trans hw.2

end Triple

end PoolM

open PoolM

namespace World

variable [Client σ]

/-- The books agree with the world, which relates to an earlier one in the given manner. -/
structure At (w₀ : World σ) (m : Manner) (k : Books σ) (w : World σ) : Prop where
  agrees : Agrees k w
  since : w₀.Since m w

variable {w₀ w w' : World σ} {m : Manner} {k k' : Books σ}

theorem At.still (h : At w₀ m k w) (hs : Still w w') (ha : Agrees k' w') : At w₀ m k' w' :=
  ⟨ha, h.since.still hs⟩

theorem At.of_steady (h : At w₀ .steady k w) (m : Manner) : At w₀ m k w :=
  ⟨h.agrees, h.since.of_steady m⟩

theorem At.refl (h : Agrees k w) : At w .steady k w := ⟨h, Still.refl w⟩

theorem At.idle (h : At w₀ m k w) (hi : Idle w w') : At w₀ m k w' :=
  h.still hi.still (h.agrees.idle hi)

end World

open World

variable [Client σ] {w₀ : World σ} {m : Manner} {k : Books σ} {b : BufferId} {p : PoolId}

/-- What has kept steady until it faults may be the beginning of anything. -/
theorem PoolM.Triple.early {act : PoolM σ α} {P : World σ → Prop} {Q : α → World σ → Prop}
    (h : Triple P act Q (At w₀ .steady k)) : Triple P act Q (At w₀ m k) :=
  h.fault fun _ hw => hw.of_steady m

theorem at_idle {act : PoolM σ α} (h : PoolM.Idle act) :
    Triple (At w₀ m k) act (fun _ => At w₀ m k) (At w₀ m k) :=
  .of_leaves fun w hw => hw.idle (h w)

/-- A step that makes no entry, and then others. -/
theorem at_idle_bind {act : PoolM σ α} {next : α → PoolM σ β} {R : β → World σ → Prop}
    (h : PoolM.Idle act) (hn : ∀ a, Triple (At w₀ m k) (next a) R (At w₀ m k)) :
    Triple (At w₀ m k) (act >>= next) R (At w₀ m k) :=
  (at_idle h).bind hn

theorem at_retain {E : World σ → Prop} :
    Triple (fun w => At w₀ m k w ∧ w.refs b ≠ 0) (PoolM.retain b) (fun _ => At w₀ m (k.hold b)) E :=
  .modify fun w h => h.1.still (still_retain w b)
    (h.1.agrees.retain (h.1.agrees.mem_references_iff.2 h.2))

theorem at_drop {E : World σ → Prop} :
    Triple (At w₀ m (k.hold b)) (PoolM.drop b) (fun _ => At w₀ m k) E :=
  .modify fun w h => h.still (still_drop w b) h.agrees.drop

/-- A reference in hand is dropped if the operation faults. -/
theorem at_owning {act : PoolM σ α} {P : World σ → Prop} {Q : α → World σ → Prop}
    (h : Triple P act Q (At w₀ m (k.hold b))) : Triple P (owning b act) Q (At w₀ m k) :=
  h.onFault fun w hw => hw.still (still_drop w b) hw.agrees.drop

/-- An update of an arena is refused or done, by cases on what it finds. -/
theorem at_onArena {f : Arena BufferId → Except Arena.Fault (α × Arena BufferId)}
    {Q : α → World σ → Prop}
    (h : ∀ w pool wiring, At w₀ m k w → w.pool? p = some pool → pool.arena.Wired wiring →
      (∃ fault, f pool.arena = .error fault) ∨
        ∃ a arena, f pool.arena = .ok (a, arena) ∧ Q a (w.setArena p arena)) :
    Triple (At w₀ m k) (onArena p f) Q (At w₀ m k) := by
  intro w hw
  cases hp : w.pool? p with
  | none =>
      rw [onArena_of_none hp]
      exact hw
  | some pool =>
      obtain ⟨wiring, hwired⟩ := hw.agrees.sound p pool.arena (arena?_of_pool? hp)
      rcases h w pool wiring hw hp hwired with ⟨fault, hf⟩ | ⟨a, arena, hf, hQ⟩
      · rw [onArena_of_error hp hf]
        exact hw
      · rw [onArena_of_ok hp hf]
        exact hQ

section Arena

variable {w : World σ} {pool : Pool} {arena : Arena BufferId}

/-- Detached buffers were taken out of an arena. -/
theorem World.At.cleared {keys : List Arena.Key} (h : At w₀ m k w) (hp : w.pool? p = some pool)
    (hc : pool.arena.Cleared keys arena) (hs : arena.Sound) (hnodup : keys.Nodup)
    (hloose : ∀ key ∈ keys, ∃ b, pool.arena.place? key = some (b, none)) :
    At w₀ m (k.launchAll p (keys.filterMap pool.arena.get?)) (w.setArena p arena) := by
  have hperm := hc.perm_values hnodup
  refine h.still (still_setArena hp (hc.lists_iff hloose .full)) (h.agrees.setArena hp hs ?_
    (Books.client_launchAll k p _) (Books.held_launchAll k p _) (Books.hand_launchAll k p _)
    (fun b hb => .inl ?_) fun e he => ?_)
  · rw [Books.adrift_launchAll, ← add_assoc, Multiset.coe_add, add_left_inj, Multiset.coe_eq_coe]
    exact List.perm_append_comm.trans hperm
  · exact hperm.subset (List.mem_append_right _ hb)
  · exact (Books.mem_afloat_launchAll he).imp_right fun h =>
      ⟨h.1, hperm.subset (List.mem_append_left _ h.2)⟩

/-- No buffer came or went. -/
theorem World.Agrees.relinked {f : Nat → Arena.Node BufferId → Arena.Node BufferId} {index : Nat}
    {lane : Option Lane} (h : Agrees k w) (hp : w.pool? p = some pool)
    (hr : Arena.Relinked f pool.arena arena) (hm : Arena.Moves f index lane) (hs : arena.Sound) :
    Agrees k (w.setArena p arena) := by
  have hv := hr.values_eq hm
  exact h.setArena hp hs (by rw [hv]) rfl rfl rfl (fun b hb => .inl (hv ▸ hb)) fun _ he => .inl he

end Arena

theorem at_unregister (key : Arena.Key) :
    Triple (At w₀ m k) (onArena p (·.unregister key)) (fun b => At w₀ m (k.launch p b))
      (At w₀ m k) := by
  apply at_onArena
  intro w pool wiring hw hp hwired
  rcases Arena.unregister_cases hwired key with ⟨-, he⟩ | ⟨_, _, -, he⟩ |
    ⟨b, arena, hplace, he, -, hc, hwired'⟩
  · exact .inl ⟨_, he⟩
  · exact .inl ⟨_, he⟩
  · refine .inr ⟨b, arena, he, ?_⟩
    have hat := hw.cleared hp hc ⟨_, hwired'⟩ (List.nodup_singleton key) (by simp [hplace])
    have hget : pool.arena.get? key = some b := by
      rw [Arena.get?_eq_place?, hplace]
      rfl
    rw [List.filterMap_cons_some hget] at hat
    exact hat

theorem at_reclaim (abandoned : BufferId → Bool) :
    Triple (At w₀ m k) (onArena p fun arena => arena.reclaim abandoned)
      (fun buffers => At w₀ m (k.launchAll p buffers)) (At w₀ m k) := by
  apply at_onArena
  intro w pool wiring hw hp hwired
  obtain ⟨arena, he, hc, hwired'⟩ := Arena.reclaim_wired hwired abandoned
  refine .inr ⟨_, arena, he, hw.cleared hp hc ⟨_, hwired'⟩
    (Arena.nodup_abandonedKeys pool.arena abandoned).of_map fun key hk => ?_⟩
  obtain ⟨b, hb, -⟩ := Arena.mem_abandonedKeys.1 hk
  exact ⟨b, hb⟩

theorem at_drain :
    Triple (At w₀ .fading k) (onArena p (·.drain))
      (fun buffers w => At w₀ .fading (k.launchAll p buffers) w ∧ w.arena? p = some .empty)
      (At w₀ .fading k) := by
  apply at_onArena
  intro w pool wiring hw hp hwired
  obtain ⟨buffers, he, hperm⟩ := Arena.drain_perm hwired
  refine .inr ⟨buffers, .empty, he, ⟨?_, ?_⟩, (arena?_setArena _ hp p).trans (if_pos rfl)⟩
  · refine hw.agrees.setArena hp ⟨_, Arena.empty_wired⟩ ?_ (Books.client_launchAll k p _)
      (Books.held_launchAll k p _) (Books.hand_launchAll k p _) nofun fun e he => ?_
    · rw [Books.adrift_launchAll, ← add_assoc, Arena.values_empty, Multiset.coe_nil, zero_add,
        add_left_inj, Multiset.coe_eq_coe]
      exact hperm
    · exact (Books.mem_afloat_launchAll he).imp_right fun h => ⟨h.1, hperm.subset h.2⟩
  · exact Fades.trans hw.since
      (fades_setArena hp fun b hb => absurd hb (Arena.not_lists_empty _ _))

/-- What is afloat can be registered: its pool is there. -/
theorem at_register {E : World σ → Prop} :
    Triple (At w₀ m (k.launch p b)) (onArena p (·.register b))
      (fun _ w => At w₀ m k w ∧ w.refs b ≠ 0) E := by
  apply Triple.of_ok
  intro w hw
  have hafloat : (p, b) ∈ (k.launch p b).afloat := Multiset.mem_cons_self _ _
  obtain ⟨a, ha⟩ := Option.isSome_iff_exists.1 (hw.agrees.afloat p b hafloat).2
  obtain ⟨pool, hp, rfl⟩ := Option.map_eq_some_iff.1 ha
  obtain ⟨wiring, hwired⟩ := hw.agrees.sound p pool.arena ha
  obtain ⟨key, arena, he, hr, -, -, hwired'⟩ := Arena.register_wired hwired b
  have hperm := hr.perm_values
  have hat : At w₀ m k (w.setArena p arena) := by
    refine hw.still (still_setArena hp (hr.lists_iff .full)) (hw.agrees.setArena hp ⟨_, hwired'⟩ ?_
      rfl rfl rfl (fun b' hb' => ?_) fun e he => .inl (Multiset.mem_cons_of_mem he))
    · rw [Books.adrift_launch, Multiset.add_cons, ← Multiset.cons_add, add_left_inj,
        Multiset.cons_coe, Multiset.coe_eq_coe]
      exact hperm.symm
    · rcases List.mem_cons.1 (hperm.symm.subset hb') with rfl | hb'
      · exact .inr hafloat
      · exact .inl hb'
  refine ⟨key, _, onArena_of_ok hp he, hat, hat.agrees.mem_references_iff.1 ?_⟩
  apply mem_references_of_registered (p := p)
  rw [registered_of_arena? ((arena?_setArena arena hp p).trans (if_pos rfl))]
  exact hperm.subset List.mem_cons_self

/-- Putting a buffer into the free lane is never announced. -/
theorem at_prepend_free (key : Arena.Key) :
    Triple (At w₀ m k) (onArena p fun arena => (arena.prepend .free key).map ((), ·))
      (fun _ => At w₀ m k) (At w₀ m k) := by
  apply at_onArena
  intro w pool wiring hw hp hwired
  rcases Arena.prepend_cases hwired .free key with ⟨-, he⟩ | ⟨_, _, -, he⟩ |
    ⟨b, arena, f, hplace, he, hr, hm, hwired'⟩
  · exact .inl ⟨_, by rw [he]; rfl⟩
  · exact .inl ⟨_, by rw [he]; rfl⟩
  · refine .inr ⟨(), arena, by rw [he]; rfl, hw.still (still_setArena hp fun c => ?_)
      (hw.agrees.relinked hp hr hm ⟨_, hwired'⟩)⟩
    rw [hr.lists_enter hm hplace]
    exact or_iff_left fun h => nomatch h.1

/-- What is put into the full lane was not there before. It remains to be announced. -/
theorem at_prepend_full (key : Arena.Key) :
    Triple (At w₀ .steady k) (onArena p fun arena => (arena.prepend .full key).map ((), ·))
      (fun _ w => ∀ b total, At w₀ .publishing k (w.emit (.published p b key total)))
      (At w₀ .steady k) := by
  apply at_onArena
  intro w pool wiring hw hp hwired
  rcases Arena.prepend_cases hwired .full key with ⟨-, he⟩ | ⟨_, _, -, he⟩ |
    ⟨b, arena, f, hplace, he, hr, hm, hwired'⟩
  · exact .inl ⟨_, by rw [he]; rfl⟩
  · exact .inl ⟨_, by rw [he]; rfl⟩
  · have hnew : ¬pool.arena.Lists .full b := by
      rintro ⟨other, hother⟩
      have hnodup := hw.agrees.nodup_values (arena?_of_pool? hp)
      obtain rfl := Arena.key_eq_of_nodup_values hnodup hplace hother
      rw [hplace] at hother
      exact nomatch (Prod.mk.inj (Option.some.inj hother)).2
    have henter : ∀ c, arena.Lists .full c ↔ pool.arena.Lists .full c ∨ c = b := by
      intro c
      rw [hr.lists_enter hm hplace]
      simp only [true_and]
    refine .inr ⟨(), arena, by rw [he]; rfl, fun b' total =>
      ⟨(hw.agrees.relinked hp hr hm ⟨_, hwired'⟩).emit_published p b' key total, .inr ⟨p, b, ?_⟩⟩⟩
    exact Still.publishes hw.since (publishes_setArena hp hnew henter b' key total)

/-- Taking a buffer out of the full lane ends its display. -/
theorem at_remove {lane : Lane} (hm : lane = .free ∨ m = .fading) (key : Arena.Key) :
    Triple (At w₀ m k) (onArena p fun arena => (arena.remove lane key).map ((), ·))
      (fun _ => At w₀ m k) (At w₀ m k) := by
  apply at_onArena
  intro w pool wiring hw hp hwired
  rcases Arena.remove_cases hwired lane key with ⟨-, he⟩ | ⟨_, _, -, -, he⟩ |
    ⟨b, arena, f, hplace, he, hr, hmoves, hwired'⟩
  · exact .inl ⟨_, by rw [he]; rfl⟩
  · exact .inl ⟨_, by rw [he]; rfl⟩
  · refine .inr ⟨(), arena, by rw [he]; rfl,
      hw.agrees.relinked hp hr hmoves ⟨_, hwired'⟩, ?_⟩
    rcases hm with rfl | rfl
    · exact hw.since.still (still_setArena hp (hr.lists_leave_other hmoves hplace nofun))
    · exact Fades.trans hw.since (fades_setArena hp fun _ => hr.lists_leave hmoves hplace)

omit [Client σ] in
/-- What is seen in a lane is registered. -/
theorem mem_registered_of_readArena {w w' : World σ} {lane : Lane} {dir : Direction}
    {entries : List (Arena.Key × BufferId)} (hs : ∀ a, w.arena? p = some a → a.Sound)
    (h : readArena p (·.entries lane dir) w = .ok entries w') :
    w' = w ∧ ∀ e ∈ entries, e.2 ∈ w.registered p := by
  cases hp : w.pool? p with
  | none =>
      rw [readArena_of_none hp] at h
      exact nomatch h
  | some pool =>
      obtain ⟨wiring, hwired⟩ := hs pool.arena (arena?_of_pool? hp)
      have hlane := hwired.lanes lane
      have hmem : w' = w ∧ ∀ e ∈ entries, e ∈ (wiring.lane lane).filterMap pool.arena.entryAt? := by
        cases dir with
        | forward =>
            rw [readArena_of_ok hp hlane.entries_forward] at h
            obtain ⟨rfl, rfl⟩ := EStateM.Result.ok.inj h
            exact ⟨rfl, fun _ he => he⟩
        | backward =>
            rw [readArena_of_ok hp hlane.entries_backward] at h
            obtain ⟨rfl, rfl⟩ := EStateM.Result.ok.inj h
            exact ⟨rfl, fun _ he => List.mem_reverse.1 he⟩
      refine ⟨hmem.1, fun e he => ?_⟩
      rw [registered_of_arena? (arena?_of_pool? hp)]
      exact Arena.mem_values_of_place? (Arena.place?_of_mem_entries hlane (hmem.2 e he))

theorem at_entries (lane : Lane) (dir : Direction) :
    Triple (At w₀ m k) (readArena p (·.entries lane dir))
      (fun entries w => At w₀ m k w ∧ ∀ e ∈ entries, w.refs e.2 ≠ 0) (At w₀ m k) := by
  apply (at_idle (idle_readArena p _)).and_post
  intro w entries w' hw hr
  obtain ⟨rfl, hmem⟩ := mem_registered_of_readArena (hw.agrees.sound p) hr
  exact fun e he => hw.agrees.mem_references_iff.1 (mem_references_of_registered (hmem e he))

end BufferPool
