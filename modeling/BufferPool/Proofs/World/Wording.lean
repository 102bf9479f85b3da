import BufferPool.Proofs.World.Outcome

/-!
# The size that is said to be requested

Some notes for a log, and one failed check, say which size was requested. Nothing else depends on how
a request was put, as long as its class is the same. Here two operations are compared that end alike,
tell the same events in the same order, and leave the same world behind, up to the requested size in
those notes. They start in worlds that differ in nothing but what was told before.
-/

namespace BufferPool

variable {σ α β : Type} {size : UInt64}

/-- The note as it is when `size` is requested. -/
def Note.requesting (size : UInt64) : Note → Note
  | .tooLarge _ => .tooLarge size
  | .heapFailed _ capacity => .heapFailed size capacity
  | .allocated _ capacity total => .allocated size capacity total
  | note => note

namespace Event

/-- The event as it is when `size` is requested. -/
def requesting (size : UInt64) : Event → Event
  | .noted p note => .noted p (note.requesting size)
  | e => e

/-- Whether the event is more than a note for a log. -/
def isHeard : Event → Bool
  | .noted .. => false
  | _ => true

theorem isHeard_requesting (size : UInt64) (e : Event) : (e.requesting size).isHeard = e.isHeard := by
  cases e <;> rfl

/-- What is heard does not say what was requested. -/
theorem requesting_of_isHeard {e : Event} (h : e.isHeard = true) : e.requesting size = e := by
  cases e with
  | noted p note => exact nomatch h
  | _ => rfl

/-- Heaps, listeners and retention rules hear the same, in the same order. -/
theorem filter_isHeard_map_requesting (size : UInt64) (told : List Event) :
    (told.map (requesting size)).filter isHeard = told.filter isHeard := by
  induction told with
  | nil => rfl
  | cons e rest ih =>
      rw [List.map_cons, List.filter_cons, List.filter_cons, ih, isHeard_requesting]
      split_ifs with h
      · rw [requesting_of_isHeard h]
      · rfl

end Event

/-- The fault as it is when `size` is requested. -/
def Fault.requesting (size : UInt64) : Fault → Fault
  | .unexpected (.representable _) => .unexpected (.representable size)
  | fault => fault

/-- The same world with another record of what has happened. -/
def World.recording (w : World σ) (events : List Event) : World σ := { w with events := events }

namespace PoolM

/-- The second outcome is the first one, as it is when `size` is requested. The records before were
`before` and `before'`. -/
inductive Restated (size : UInt64) (before before' : List Event) :
    EStateM.Result Fault (World σ) α → EStateM.Result Fault (World σ) α → Prop
  | ok {a : α} {w : World σ} (told : List Event) (h : w.events = told ++ before) :
      Restated size before before' (.ok a w)
        (.ok a (w.recording (told.map (.requesting size) ++ before')))
  | error {fault : Fault} {w : World σ} (told : List Event) (h : w.events = told ++ before) :
      Restated size before before' (.error fault w)
        (.error (fault.requesting size) (w.recording (told.map (.requesting size) ++ before')))

/-- The second operation does what the first one does, as it is done when `size` is requested. -/
def Restates (size : UInt64) (act act' : PoolM σ α) : Prop :=
  ∀ w events, Restated size w.events events (act w) (act' (w.recording events))

/-- The second change of a world is the first one, as it is when `size` is requested. -/
def RestatesChange (size : UInt64) (f f' : World σ → World σ) : Prop :=
  ∀ w events, ∃ told, (f w).events = told ++ w.events ∧
    f' (w.recording events) = (f w).recording (told.map (.requesting size) ++ events)

/-- What is told after something else. -/
theorem Restated.after {before before' told : List Event} {w : World σ}
    {r r' : EStateM.Result Fault (World σ) α} (hw : w.events = told ++ before)
    (h : Restated size w.events (told.map (.requesting size) ++ before') r r') :
    Restated size before before' r r' := by
  cases h with
  | ok later hlater =>
      rw [hw, ← List.append_assoc] at hlater
      rw [← List.append_assoc, ← List.map_append]
      exact .ok (later ++ told) hlater
  | error later hlater =>
      rw [hw, ← List.append_assoc] at hlater
      rw [← List.append_assoc, ← List.map_append]
      exact .error (later ++ told) hlater

/-- One operation after the other. The second ones are compared where the first ones end. -/
theorem Restated.bind {act act' : PoolM σ α} {next next' : α → PoolM σ β} {w : World σ}
    {events : List Event} (h : Restated size w.events events (act w) (act' (w.recording events)))
    (hnext : ∀ a w₁, act w = .ok a w₁ → ∀ events,
      Restated size w₁.events events (next a w₁) (next' a (w₁.recording events))) :
    Restated size w.events events ((act >>= next) w) ((act' >>= next') (w.recording events)) := by
  cases hact : act w with
  | ok a w₁ =>
      cases hact' : act' (w.recording events) with
      | error fault w₁' =>
          rw [hact, hact'] at h
          cases h
      | ok a' w₁' =>
          rw [hact, hact'] at h
          rw [bind_of_ok next hact, bind_of_ok next' hact']
          cases h with
          | ok told htold => exact (hnext a w₁ hact _).after htold
  | error fault w₁ =>
      cases hact' : act' (w.recording events) with
      | ok a' w₁' =>
          rw [hact, hact'] at h
          cases h
      | error fault' w₁' =>
          rw [hact, hact'] at h
          rw [bind_of_error next hact, bind_of_error next' hact']
          cases h with
          | error told htold => exact .error told htold

namespace Restates

theorem pure (a : α) : Restates size (Pure.pure a : PoolM σ α) (Pure.pure a) :=
  fun _ _ => .ok [] rfl

theorem throw (fault : Fault) :
    Restates size (MonadExcept.throw fault : PoolM σ α) (MonadExcept.throw (fault.requesting size)) :=
  fun _ _ => .error [] rfl

theorem bind {act act' : PoolM σ α} {next next' : α → PoolM σ β} (h : Restates size act act')
    (hnext : ∀ a, Restates size (next a) (next' a)) :
    Restates size (act >>= next) (act' >>= next') :=
  fun w events => (h w events).bind fun a w₁ _ events => hnext a w₁ events

theorem map {act act' : PoolM σ α} (h : Restates size act act') (f : α → β) :
    Restates size (f <$> act) (f <$> act') :=
  h.bind fun a => .pure (f a)

theorem modify {f f' : World σ → World σ} (h : RestatesChange size f f') :
    Restates size (MonadState.modifyGet fun w => ((), f w) : PoolM σ Unit)
      (MonadState.modifyGet fun w => ((), f' w)) := by
  intro w events
  obtain ⟨told, htold, hchange⟩ := h w events
  have hrun : Restated size w.events events (.ok () (f w))
      (.ok () ((f w).recording (told.map (.requesting size) ++ events))) := .ok told htold
  rw [← hchange] at hrun
  exact hrun

/-- What is read of the world does not depend on its record. -/
theorem read_bind {next next' : World σ → PoolM σ α}
    (hread : ∀ w events, next' (w.recording events) = next' w)
    (h : ∀ w, Restates size (next w) (next' w)) :
    Restates size (get >>= next) (get >>= next') := by
  intro w events
  have hnext := h w w events
  rw [← hread w events] at hnext
  exact hnext

theorem onFault {act act' : PoolM σ α} {cleanUp : World σ → World σ} (h : Restates size act act')
    (hclean : RestatesChange size cleanUp cleanUp) :
    Restates size (PoolM.onFault cleanUp act) (PoolM.onFault cleanUp act') := by
  intro w events
  have hfirst := h w events
  unfold PoolM.onFault
  generalize act w = r, act' (w.recording events) = r' at hfirst
  cases hfirst with
  | ok told htold => exact .ok told htold
  | @error fault w₁ told htold =>
      obtain ⟨later, hlater, hchange⟩ := hclean w₁ (told.map (.requesting size) ++ events)
      have hend : Restated size w₁.events (told.map (.requesting size) ++ events)
          (.error (α := α) fault (cleanUp w₁)) (.error (fault.requesting size)
            ((cleanUp w₁).recording (later.map (.requesting size) ++
              (told.map (.requesting size) ++ events)))) := .error later hlater
      rw [← hchange] at hend
      exact hend.after htold

end Restates

section Outcome

variable {w : World σ} {act act' : PoolM σ α}

/-- Both operations give the same answer, or none. -/
theorem Restated.answer (h : Restated size w.events w.events (act w) (act' w)) :
    act'.run' w = act.run' w := by
  delta EStateM.run' EStateM.run
  generalize act w = r, act' w = r' at h
  cases h <;> rfl

/-- They fault in the same cases. -/
theorem Restated.fault_iff (h : Restated size w.events w.events (act w) (act' w)) (fault : Fault) :
    (∃ w', act' w = .error fault w') ↔
      ∃ fault' w', fault = fault'.requesting size ∧ act w = .error fault' w' := by
  generalize act w = r, act' w = r' at h
  cases h with
  | ok told htold =>
      constructor
      · rintro ⟨_, h⟩
        exact nomatch h
      · rintro ⟨_, _, _, h⟩
        exact nomatch h
  | @error fault' w₁ told htold =>
      constructor
      · rintro ⟨_, h⟩
        exact ⟨fault', w₁, (EStateM.Result.error.inj h).1.symm, rfl⟩
      · rintro ⟨_, _, rfl, h⟩
        rw [(EStateM.Result.error.inj h).1]
        exact ⟨_, rfl⟩

/-- They leave the same world behind, up to the size in the notes that are told on the way. -/
theorem Restated.leaves (h : Restated size w.events w.events (act w) (act' w)) :
    ∃ told, (act.leaves w).events = told ++ w.events ∧
      act'.leaves w = (act.leaves w).recording (told.map (.requesting size) ++ w.events) := by
  rw [PoolM.leaves, PoolM.leaves]
  generalize act w = r, act' w = r' at h
  cases h with
  | ok told htold => exact ⟨told, htold, rfl⟩
  | error told htold => exact ⟨told, htold, rfl⟩

end Outcome

/-- A change that tells nothing and does not look at the record. -/
theorem restates_silent {f : World σ → World σ}
    (h : ∀ w events, f (w.recording events) = (f w).recording events)
    (hevents : ∀ w, (f w).events = w.events) : RestatesChange size f f :=
  fun w events => ⟨[], hevents w, h w events⟩

theorem restates_emit (e : Event) :
    RestatesChange (σ := σ) size (·.emit e) (·.emit (e.requesting size)) :=
  fun _ _ => ⟨[e], rfl, rfl⟩

theorem restates_drop (b : BufferId) : RestatesChange (σ := σ) size (·.drop b) (·.drop b) := by
  intro w events
  have hcells : (w.recording events).cells[b]? = w.cells[b]? := rfl
  dsimp only
  rw [World.drop, World.drop, hcells]
  cases w.cells[b]? with
  | none => exact ⟨[], rfl, rfl⟩
  | some c =>
      dsimp only
      split_ifs
      · exact ⟨[.freed c.home b c.tag c.buffer.capacity], rfl, rfl⟩
      · exact ⟨[], rfl, rfl⟩

theorem note_restates (p : PoolId) (n : Note) :
    Restates size (note p n : PoolM σ Unit) (note p (n.requesting size)) :=
  .modify (restates_emit (.noted p n))

theorem emit_restates (e : Event) :
    Restates size (emit e : PoolM σ Unit) (emit (e.requesting size)) :=
  .modify (restates_emit e)

theorem modifyPool_restates (p : PoolId) (f : Pool → Pool) :
    Restates size (modifyPool p f : PoolM σ Unit) (modifyPool p f) :=
  .modify (restates_silent (fun _ _ => rfl) fun _ => rfl)

theorem retain_restates (b : BufferId) : Restates size (retain b : PoolM σ Unit) (retain b) :=
  .modify (restates_silent (fun _ _ => rfl) fun _ => rfl)

theorem drop_restates (b : BufferId) : Restates size (drop b : PoolM σ Unit) (drop b) :=
  .modify (restates_drop b)

theorem getBuffer_restates (b : BufferId) :
    Restates size (getBuffer b : PoolM σ Buffer) (getBuffer b) :=
  fun _ _ => .ok [] rfl

theorem getPool_restates (p : PoolId) : Restates size (getPool p : PoolM σ Pool) (getPool p) := by
  refine .read_bind (fun _ _ => rfl) fun w => ?_
  cases w.pool? p with
  | none => exact .throw (.noPool p)
  | some pool => exact .pure pool

theorem owning_restates {act : PoolM σ α} (b : BufferId) (h : Restates size act act) :
    Restates size (owning b act) (owning b act) :=
  h.onFault (restates_drop b)

theorem onArena_restates (p : PoolId)
    (f : Arena BufferId → Except Arena.Fault (α × Arena BufferId)) :
    Restates size (onArena p f : PoolM σ α) (onArena p f) := by
  refine (getPool_restates p).bind fun pool => ?_
  cases f pool.arena with
  | error fault => exact .throw (.arena fault)
  | ok r => exact (modifyPool_restates p _).bind fun _ => .pure _

/-- A size that has no class is the only one that a failed check names. -/
theorem expect_representable_restates (met : Bool) (requested : UInt64) :
    Restates size (expect met (.representable requested) : PoolM σ Unit)
      (expect met (.representable size)) := by
  refine .read_bind (fun _ _ => rfl) fun w => ?_
  split_ifs
  · exact .throw (.unexpected (.representable requested))
  · exact .pure ()

end PoolM

end BufferPool
