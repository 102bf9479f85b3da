import BufferPool.Pool.Content
import BufferPool.Pool.Traversal
import BufferPool.Proofs.World.Outcome

/-!
# Both profiles in step

A profile decides about nothing but whether some checks are made. An operation is in step if it ends
alike in both profiles, in worlds that differ in the profile only. If it makes checks, the checked
profile may end it with a failed check instead; the unchecked one never does.
-/

namespace BufferPool

variable {σ α β : Type} {checks : Prop}

/-- The same world in a given profile. -/
def World.under (w : World σ) (profile : Profile) : World σ := { w with profile := profile }

/-- A check has failed. -/
def Fault.isCheck : Fault → Bool
  | .unexpected _ => true
  | _ => false

namespace PoolM

/-- The same outcome in a given profile. -/
def under (r : EStateM.Result Fault (World σ) α) (profile : Profile) :
    EStateM.Result Fault (World σ) α :=
  match r with
  | .ok a w => .ok a (w.under profile)
  | .error fault w => .error fault (w.under profile)

/-- The outcome is not a failed check. -/
def Sound (r : EStateM.Result Fault (World σ) α) : Prop :=
  match r with
  | .ok _ _ => True
  | .error fault _ => fault.isCheck = false

/-- From the given world on, both profiles come to the same outcome, or a check fails in the checked
one. -/
def InStepAt (checks : Prop) (act : PoolM σ α) (w : World σ) : Prop :=
  ∃ r, Sound r ∧ act (w.under .unchecked) = under r .unchecked ∧
    (act (w.under .checked) = under r .checked ∨
      checks ∧ ∃ fault w', fault.isCheck = true ∧ act (w.under .checked) = .error fault w')

/-- Wherever it starts, the operation is in step. -/
def InStep (checks : Prop) (act : PoolM σ α) : Prop := ∀ w, InStepAt checks act w

/-- What changes a world does so regardless of the profile. -/
def Regardless (f : World σ → World σ) : Prop :=
  ∀ w profile, f (w.under profile) = (f w).under profile

namespace InStep

theorem of_eq {act : PoolM σ α} (h : ∀ w profile, act (w.under profile) = under (act w) profile)
    (hsound : ∀ w, Sound (act w)) : InStep checks act :=
  fun w => ⟨act w, hsound w, h w .unchecked, .inl (h w .checked)⟩

theorem pure (a : α) : InStep checks (Pure.pure a : PoolM σ α) :=
  .of_eq (fun _ _ => rfl) fun _ => trivial

theorem throw {fault : Fault} (h : fault.isCheck = false) :
    InStep checks (MonadExcept.throw fault : PoolM σ α) :=
  .of_eq (fun _ _ => rfl) fun _ => h

theorem modify {f : World σ → World σ} (h : Regardless f) :
    InStep checks (MonadState.modifyGet fun w => ((), f w) : PoolM σ Unit) :=
  .of_eq (fun w profile => congrArg (EStateM.Result.ok ()) (h w profile)) fun _ => trivial

/-- The first operation decides for both how to go on. If a check of it fails, the unchecked profile
goes on alone. -/
theorem bind {act : PoolM σ α} {next : α → PoolM σ β} (h : InStep checks act)
    (hnext : ∀ a, InStep checks (next a)) : InStep checks (act >>= next) := by
  intro w
  obtain ⟨r, hsound, hunchecked, hchecked⟩ := h w
  cases r with
  | error fault w' =>
      refine ⟨.error fault w', hsound, bind_of_error next hunchecked, ?_⟩
      rcases hchecked with hact | ⟨hchecks, fault', w'', hfault, hact⟩
      · exact .inl (bind_of_error next hact)
      · exact .inr ⟨hchecks, fault', w'', hfault, bind_of_error next hact⟩
  | ok a w' =>
      obtain ⟨r, hsound, hunchecked', hchecked'⟩ := hnext a w'
      refine ⟨r, hsound, (bind_of_ok next hunchecked).trans hunchecked', ?_⟩
      rcases hchecked with hact | ⟨hchecks, fault, w'', hfault, hact⟩
      · rw [bind_of_ok next hact]
        exact hchecked'
      · exact .inr ⟨hchecks, fault, w'', hfault, bind_of_error next hact⟩

theorem map {act : PoolM σ α} (h : InStep checks act) (f : α → β) : InStep checks (f <$> act) :=
  h.bind fun a => .pure (f a)

/-- What is read of the world is the same in both profiles. -/
theorem read_bind {next : World σ → PoolM σ α}
    (hread : ∀ w profile, next (w.under profile) = next w) (h : ∀ w, InStep checks (next w)) :
    InStep checks (get >>= next) := by
  intro w
  have heq : ∀ profile, (get >>= next) (w.under profile) = next w (w.under profile) :=
    fun profile => congrFun (hread w profile) _
  unfold InStepAt
  rw [heq, heq]
  exact h w w

theorem onFault {act : PoolM σ α} {cleanUp : World σ → World σ} (h : InStep checks act)
    (hclean : Regardless cleanUp) : InStep checks (PoolM.onFault cleanUp act) := by
  intro w
  obtain ⟨r, hsound, hunchecked, hchecked⟩ := h w
  have hunder : ∀ profile, act (w.under profile) = under r profile →
      PoolM.onFault cleanUp act (w.under profile) =
        under (PoolM.onFault cleanUp (fun _ => r) w) profile := by
    intro profile hact
    unfold PoolM.onFault
    rw [hact]
    cases r with
    | ok a w' => rfl
    | error fault w' => exact congrArg (EStateM.Result.error fault) (hclean w' profile)
  refine ⟨PoolM.onFault cleanUp (fun _ => r) w, ?_, hunder _ hunchecked, ?_⟩
  · cases r <;> exact hsound
  · rcases hchecked with hact | ⟨hchecks, fault, w', hfault, hact⟩
    · exact .inl (hunder _ hact)
    · refine .inr ⟨hchecks, fault, cleanUp w', hfault, ?_⟩
      unfold PoolM.onFault
      rw [hact]

theorem ensuring {act : PoolM σ α} {finish : World σ → World σ} (h : InStep checks act)
    (hfinish : Regardless finish) : InStep checks (PoolM.ensuring finish act) := by
  intro w
  obtain ⟨r, hsound, hunchecked, hchecked⟩ := h w
  have hunder : ∀ profile, act (w.under profile) = under r profile →
      PoolM.ensuring finish act (w.under profile) =
        under (PoolM.ensuring finish (fun _ => r) w) profile := by
    intro profile hact
    unfold PoolM.ensuring
    rw [hact]
    cases r with
    | ok a w' => exact congrArg (EStateM.Result.ok a) (hfinish w' profile)
    | error fault w' => exact congrArg (EStateM.Result.error fault) (hfinish w' profile)
  refine ⟨PoolM.ensuring finish (fun _ => r) w, ?_, hunder _ hunchecked, ?_⟩
  · cases r <;> exact hsound
  · rcases hchecked with hact | ⟨hchecks, fault, w', hfault, hact⟩
    · exact .inl (hunder _ hact)
    · refine .inr ⟨hchecks, fault, finish w', hfault, ?_⟩
      unfold PoolM.ensuring
      rw [hact]

/-- An operation without checks leaves the same world behind in both profiles. -/
theorem leaves {act : PoolM σ α} (h : InStep False act) : Regardless act.leaves := by
  intro w profile
  obtain ⟨r, -, hunchecked, hchecked⟩ := h w
  have hunder : ∀ profile, act (w.under profile) = under r profile := by
    rintro (_ | _)
    · exact hchecked.resolve_right fun hfalse => hfalse.1
    · exact hunchecked
  have hself : act w = under r w.profile := hunder w.profile
  rw [PoolM.leaves, PoolM.leaves, hunder, hself]
  cases r <;> rfl

end InStep

theorem regardless_emit (e : Event) : Regardless (σ := σ) (·.emit e) := fun _ _ => rfl

theorem regardless_modifyPool (p : PoolId) (f : Pool → Pool) :
    Regardless (σ := σ) (·.modifyPool p f) :=
  fun _ _ => rfl

theorem regardless_modifyBuffer (b : BufferId) (f : Buffer → Buffer) :
    Regardless (σ := σ) (·.modifyBuffer b f) :=
  fun _ _ => rfl

theorem regardless_retain (b : BufferId) : Regardless (σ := σ) (·.retain b) := fun _ _ => rfl

theorem regardless_drop (b : BufferId) : Regardless (σ := σ) (·.drop b) := by
  intro w profile
  have hcells : (w.under profile).cells[b]? = w.cells[b]? := rfl
  change World.drop (w.under profile) b = (World.drop w b).under profile
  rw [World.drop, World.drop, hcells]
  cases w.cells[b]? with
  | none => rfl
  | some c =>
      dsimp only
      split_ifs <;> rfl

theorem regardless_foldl {f : World σ → α → World σ} (h : ∀ a, Regardless (f · a)) (as : List α) :
    Regardless fun w => as.foldl f w := by
  induction as with
  | nil => exact fun _ _ => rfl
  | cons a rest ih =>
      intro w profile
      have hfirst : f (w.under profile) a = (f w a).under profile := h a w profile
      change rest.foldl f (f (w.under profile) a) = _
      rw [hfirst]
      exact ih _ profile

theorem regardless_dropAll (handles : List Handle) : Regardless (σ := σ) (·.dropAll handles) :=
  regardless_foldl (fun handle => regardless_drop handle.buffer) handles

theorem regardless_hold (handles : List Handle) : Regardless (σ := σ) (·.hold handles) := by
  intro w profile
  have hfold := regardless_foldl (fun handle => regardless_retain (σ := σ) handle.buffer) handles
  exact congrArg (fun w' : World σ => { w' with held := handles :: w.held }) (hfold w profile)

theorem regardless_letGo : Regardless (σ := σ) (·.letGo) := by
  intro w profile
  have hheld : (w.under profile).held = w.held := rfl
  change World.letGo (w.under profile) = (World.letGo w).under profile
  rw [World.letGo, World.letGo, hheld]
  cases w.held with
  | nil => rfl
  | cons handles outer =>
      exact congrArg (fun w' : World σ => { w' with held := outer })
        (regardless_dropAll handles w profile)

theorem inStep_emit (e : Event) : InStep checks (emit e : PoolM σ Unit) :=
  .modify (regardless_emit e)

theorem inStep_note (p : PoolId) (n : Note) : InStep checks (note p n : PoolM σ Unit) :=
  inStep_emit _

theorem inStep_modifyPool (p : PoolId) (f : Pool → Pool) :
    InStep checks (modifyPool p f : PoolM σ Unit) :=
  .modify (regardless_modifyPool p f)

theorem inStep_modifyBuffer (b : BufferId) (f : Buffer → Buffer) :
    InStep checks (modifyBuffer b f : PoolM σ Unit) :=
  .modify (regardless_modifyBuffer b f)

theorem inStep_retain (b : BufferId) : InStep checks (retain b : PoolM σ Unit) :=
  .modify (regardless_retain b)

theorem inStep_drop (b : BufferId) : InStep checks (drop b : PoolM σ Unit) :=
  .modify (regardless_drop b)

theorem inStep_getBuffer (b : BufferId) : InStep checks (getBuffer b : PoolM σ Buffer) :=
  .of_eq (fun _ _ => rfl) fun _ => trivial

theorem inStep_getPool (p : PoolId) : InStep checks (getPool p : PoolM σ Pool) := by
  refine .read_bind (fun _ _ => rfl) fun w => ?_
  cases w.pool? p with
  | none => exact .throw rfl
  | some pool => exact .pure pool

theorem inStep_owning {act : PoolM σ α} (b : BufferId) (h : InStep checks act) :
    InStep checks (owning b act) :=
  h.onFault (regardless_drop b)

theorem inStep_onArena (p : PoolId)
    (f : Arena BufferId → Except Arena.Fault (α × Arena BufferId)) :
    InStep checks (onArena p f : PoolM σ α) := by
  refine (inStep_getPool p).bind fun pool => ?_
  cases f pool.arena with
  | error fault => exact .throw rfl
  | ok r => exact (inStep_modifyPool p _).bind fun _ => .pure _

theorem inStep_readArena (p : PoolId) (f : Arena BufferId → Except Arena.Fault α) :
    InStep checks (readArena p f : PoolM σ α) :=
  inStep_onArena p _

/-- A check that is met changes nothing, and one that is not met is passed over in the unchecked
profile. -/
theorem inStep_expect (hchecks : checks) (met : Bool) (expectation : Expectation) :
    InStep checks (expect met expectation : PoolM σ Unit) := by
  intro w
  refine ⟨.ok () w, trivial, expect_of_unchecked met expectation rfl, ?_⟩
  cases met with
  | true => exact .inl (expect_true expectation _)
  | false =>
      exact .inr ⟨hchecks, .unexpected expectation, w.under .checked, rfl,
        expect_of_checked expectation rfl⟩

theorem inStep_acquire (b : BufferId) (t : Thread) :
    InStep checks (acquire b t : PoolM σ Unit) := by
  refine (inStep_getBuffer b).bind fun buffer => ?_
  split_ifs
  · exact inStep_modifyBuffer b _
  · exact .throw rfl

theorem inStep_tryAcquire (b : BufferId) (t : Thread) :
    InStep checks (tryAcquire b t : PoolM σ Bool) :=
  (inStep_getBuffer b).bind fun _ => (inStep_modifyBuffer b _).bind fun _ => .pure _

theorem inStep_release (b : BufferId) : InStep checks (PoolM.release b : PoolM σ Unit) :=
  inStep_modifyBuffer b _

theorem inStep_reset (b : BufferId) (me : Thread) : InStep checks (reset b me : PoolM σ Unit) := by
  refine (inStep_getBuffer b).bind fun buffer => ?_
  split_ifs
  · exact inStep_modifyBuffer b _
  · exact .throw rfl

theorem inStep_markTransient (b : BufferId) :
    InStep checks (markTransient b : PoolM σ Unit) :=
  inStep_modifyBuffer b _

theorem inStep_markLease (hchecks : checks)
    (b : BufferId) : InStep checks (markLease b : PoolM σ Unit) :=
  (inStep_getBuffer b).bind fun _ => (inStep_expect hchecks _ _).bind fun _ =>
    inStep_modifyBuffer b _

theorem inStep_settle (b : BufferId) (outcome : Except WriteError Buffer) :
    InStep checks (settle b outcome : PoolM σ (Except WriteError Unit)) := by
  cases outcome with
  | ok buffer => exact (inStep_modifyBuffer b _).bind fun _ => .pure _
  | error e => exact .pure _

theorem inStep_settleAt (hchecks : checks) (b : BufferId) (buffer : Buffer)
    (outcome : Except WriteError Buffer) :
    InStep checks (settleAt b buffer outcome : PoolM σ (Except WriteError Unit)) :=
  (inStep_expect hchecks _ _).bind fun _ => inStep_settle b outcome

theorem inStep_stage (hchecks : checks) (b : BufferId) (me : Thread) (bytes : List UInt8) :
    InStep checks (stage b me bytes : PoolM σ (Except WriteError Unit)) :=
  (inStep_getBuffer b).bind fun buffer => inStep_settleAt hchecks b buffer _

theorem inStep_commit (b : BufferId) (me : Thread) (count : UInt64) :
    InStep checks (commit b me count : PoolM σ (Except WriteError Unit)) :=
  (inStep_getBuffer b).bind fun _ => inStep_settle b _

theorem inStep_write (hchecks : checks) (b : BufferId) (me : Thread) (bytes : List UInt8) :
    InStep checks (write b me bytes : PoolM σ (Except WriteError Unit)) :=
  (inStep_getBuffer b).bind fun buffer => inStep_settleAt hchecks b buffer _

theorem inStep_read (hchecks : checks) (b : BufferId) (me : Thread) :
    InStep checks (read b me : PoolM σ (List UInt8)) := by
  refine (inStep_getBuffer b).bind fun buffer => ?_
  split_ifs
  · exact (inStep_expect hchecks _ _).bind fun _ => .pure _
  · exact .throw rfl

theorem inStep_flush (b : BufferId) : InStep checks (flush b : PoolM σ UInt64) :=
  (inStep_getBuffer b).bind fun _ => (inStep_modifyBuffer b _).bind fun _ => .pure _

theorem inStep_carryOver (hchecks : checks) (old new : BufferId) (me : Thread)
    (used requested : UInt64) :
    InStep checks (carryOver old new me used requested : PoolM σ Unit) := by
  refine (inStep_getBuffer old).bind fun source => (inStep_getBuffer new).bind fun target =>
    (inStep_expect hchecks _ _).bind fun _ => ?_
  cases source.carryOver target (old == new) me used requested with
  | ok buffer => exact (inStep_expect hchecks _ _).bind fun _ => inStep_modifyBuffer new _
  | error fault => exact .throw rfl

end PoolM

end BufferPool
