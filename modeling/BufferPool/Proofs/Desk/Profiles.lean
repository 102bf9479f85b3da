import BufferPool.Proofs.Desk.InStep
import BufferPool.Proofs.Desk.Runs
import BufferPool.Proofs.Desk.Actions

/-!
# Two profiles, one behaviour

The same actions are taken, or the same commands given, once in the checked profile and once in the
unchecked one. Up to the first action at which a check fails, the two histories are the same: the replies,
and the worlds with their pools, buffers, handles and events. So the checks are observers, and nothing
but the failure of one makes a difference.
-/

namespace BufferPool

section History

variable {ι X R : Type}

/-- What is replied to inputs one after the other, each with the state that it leaves behind. -/
def history (f : ι → X → R × X) : List ι → X → List (R × X)
  | [], _ => []
  | i :: rest, x => f i x :: history f rest (f i x).2

variable {fails : R → Bool} {under : X → Profile → X} {f : ι → X → R × X}

/-- How something goes in both profiles: the outcome is the same, unless a check fails in the checked
one. In the unchecked one none does. -/
def Alike (fails : R → Bool) (under : X → Profile → X) (g : X → R × X) (x : X) : Prop :=
  ∃ r x', fails r = false ∧ g (under x .unchecked) = (r, under x' .unchecked) ∧
    (g (under x .checked) = (r, under x' .checked) ∨ fails (g (under x .checked)).1 = true)

/-- Two histories are the same up to the first failure, when a part of the states is forgotten. If
nothing fails they are the same throughout. In the second one nothing does. -/
structure AlikeUntil (fails : R → Bool) (forget : X → X) (checked unchecked : List (R × X)) :
    Prop where
  agree : (checked.takeWhile fun e => !fails e.1).map (Prod.map id forget) <+: unchecked
  same : (∀ e ∈ checked, fails e.1 = false) → checked.map (Prod.map id forget) = unchecked
  passes : ∀ e ∈ unchecked, fails e.1 = false

/-- By induction over the inputs. Once a check has failed only the unchecked history matters. -/
theorem alikeUntil_history (under : X → Profile → X)
    (hunder : ∀ x profile profile', under (under x profile) profile' = under x profile')
    (hf : ∀ i x, Alike fails under (f i) x) (inputs : List ι) (x : X) :
    AlikeUntil fails (under · .unchecked) (history f inputs (under x .checked))
      (history f inputs (under x .unchecked)) := by
  induction inputs generalizing x with
  | nil => exact ⟨List.prefix_refl _, fun _ => rfl, fun _ he => absurd he List.not_mem_nil⟩
  | cons i rest ih =>
      obtain ⟨r, x', hpasses, hunchecked, hchecked⟩ := hf i x
      obtain ⟨hagree, hsame, hrest⟩ := ih x'
      rw [history, history, hunchecked]
      have hall : ∀ e ∈ (r, under x' .unchecked) :: history f rest (under x' .unchecked),
          fails e.1 = false := by
        intro e he
        rcases List.mem_cons.1 he with rfl | he
        · exact hpasses
        · exact hrest e he
      rcases hchecked with hchecked | hfails
      · have hhead : Prod.map id (under · .unchecked) (r, under x' .checked) =
            (r, under x' .unchecked) := by
          rw [Prod.map_apply, hunder]
          rfl
        rw [hchecked]
        refine ⟨?_, fun hnone => ?_, hall⟩
        · rw [List.takeWhile_cons_of_pos (by rw [hpasses]; rfl), List.map_cons, hhead]
          exact List.cons_prefix_cons.2 ⟨rfl, hagree⟩
        · rw [List.map_cons, hhead, hsame fun e he => hnone e (List.mem_cons_of_mem _ he)]
      · refine ⟨?_, fun hnone => ?_, hall⟩
        · rw [List.takeWhile_cons_of_neg (by rw [hfails]; exact Bool.false_ne_true)]
          exact List.nil_prefix
        · rw [hnone _ List.mem_cons_self] at hfails
          exact absurd hfails Bool.false_ne_true

end History

namespace Desk

open PoolM World

/-- What is in step goes alike in both profiles, and the reply shows whether a check has failed. -/
theorem alike_conclude {act : DeskM Reply} (h : InStep True act) (hcandid : Candid act)
    (w : World Desk) : Alike failsCheck World.under (conclude act) w := by
  obtain ⟨r, hsound, hunchecked, hchecked⟩ := h w
  have hunder : ∀ profile, act (w.under profile) = under r profile →
      conclude act (w.under profile) =
        ((conclude (fun _ => r) w).1, (conclude (fun _ => r) w).2.under profile) := by
    intro profile hact
    rw [conclude, hact]
    cases r <;> rfl
  refine ⟨_, _, ?_, hunder _ hunchecked, ?_⟩
  · cases r with
    | ok reply w' => exact hcandid _ _ _ hunchecked
    | error fault w' => exact hsound
  · rcases hchecked with hact | ⟨-, fault, w', hfault, hact⟩
    · exact .inl (hunder _ hact)
    · refine .inr ?_
      rw [conclude, hact]
      exact hfault

/-- The same scene in a given profile. -/
def Scene.under (s : Scene) (profile : Profile) : Scene := ⟨s.world.under profile, s.made⟩

theorem regardless_letGoAt (place : Nat) : Regardless (letGoAt place) := by
  intro w profile
  exact congrArg (fun w' : World Desk => { w' with held := w.held.eraseIdx place })
    (regardless_dropAll (w.held.getD place []) w profile)

theorem inStep_action (action : Action) : InStep True action.perform := by
  cases action with
  | call me p call => exact inStep_call trivial me p call
  | capture p lane dir => exact (Pool.inStep_capture lane dir).map _
  | hold operand =>
      exact inStep_withHandle fun handle => inStep_done (.modify (regardless_hold [handle]))
  | letGo place => exact inStep_done (.modify (regardless_letGoAt place))
  | sweep me s handle => exact (Sweep.inStep_visit trivial me s handle).map _
  | enterVisit handle => exact inStep_done inStep_enterVisit
  | leaveVisit => exact inStep_done (.modify regardless_leaveVisit)
  | suspend => exact inStep_done inStep_suspend
  | resume => exact inStep_done inStep_resume
  | leaveSuspended => exact inStep_done (.modify regardless_leaveSuspended)
  | note p n => exact inStep_done (inStep_note p n)
  | trace replies => exact inStep_done (inStep_modifyDesk _)
  | reclaim p => exact inStep_done Pool.inStep_reclaim
  | make p requested => exact (Pool.inStep_make trivial requested).map _
  | enroll p b name => exact inStep_done (Pool.inStep_enroll.bind fun _ => inStep_store name)

theorem candid_action (action : Action) : Candid action.perform := by
  cases action with
  | call me p call => exact candid_call me p call
  | capture p lane dir => exact .map fun _ => rfl
  | hold operand => exact .withHandle fun _ => .done _
  | sweep me s handle => exact .map fun _ => rfl
  | make p requested => exact .map fun made => by cases made <;> rfl
  | _ => exact .done _

theorem Action.alike_take (action : Action) (s : Scene) :
    Alike failsCheck Scene.under action.take s := by
  obtain ⟨reply, w', hpasses, hunchecked, hchecked⟩ :=
    alike_conclude (inStep_action action) (candid_action action) s.world
  have hunder : ∀ profile, conclude action.perform (s.world.under profile) = (reply, w'.under profile) →
      action.take (s.under profile) =
        (reply, Scene.under ⟨w', action.made s.made reply⟩ profile) :=
    fun profile hr => congrArg (fun r => (r.1, Scene.mk r.2 (action.made s.made r.1))) hr
  exact ⟨reply, _, hpasses, hunder _ hunchecked, hchecked.imp_left (hunder _)⟩

/-- What a desk reports of the reply to a command and of the world that it leaves behind. -/
def reportOn (logged : Bool) (before : World Desk) (reply : Reply) (after : World Desk) :
    StepReport :=
  ⟨reply, after.client.trace.reverse, eventsSince logged before after, viewPools after,
    after.client.handles.map fun (name, h) => (name, Report.describe after h.buffer)⟩

theorem step_eq (logged : Bool) (me : Thread) (command : Command) (w : World Desk) :
    step logged me command w =
      let r := conclude (onFault leaveVisit (command.run ⟨me, none, true⟩))
        { w with client := { w.client with trace := [] } }
      (reportOn logged w r.1 r.2, r.2) := by
  unfold step conclude onFault
  dsimp only
  cases command.run ⟨me, none, true⟩ { w with client := { w.client with trace := [] } } <;> rfl

/-- Reports do not tell the profile. -/
theorem reportOn_under (logged : Bool) (before : World Desk) (reply : Reply) (after : World Desk)
    (profile : Profile) : reportOn logged (before.under profile) reply (after.under profile) =
      reportOn logged before reply after :=
  rfl

theorem alike_step (logged : Bool) (me : Thread) (command : Command) (w : World Desk) :
    Alike (failsCheck ·.reply) World.under (step logged me command) w := by
  let start : World Desk := { w with client := { w.client with trace := [] } }
  let act := onFault leaveVisit (command.run ⟨me, none, true⟩)
  have hact : InStep True act := (inStep_run trivial _ command).onFault regardless_leaveVisit
  have hcandid : Candid act := (candid_run _ command).onFault
  obtain ⟨reply, w', hpasses, hunchecked, hchecked⟩ := alike_conclude hact hcandid start
  have hunder : ∀ profile, conclude act (start.under profile) = (reply, w'.under profile) →
      step logged me command (w.under profile) =
        (reportOn logged w reply w', w'.under profile) := by
    intro profile hr
    rw [step_eq, ← reportOn_under logged w reply w' profile]
    exact congrArg (fun r => (reportOn logged (w.under profile) r.1 r.2, r.2)) hr
  refine ⟨_, _, hpasses, hunder _ hunchecked, hchecked.imp (hunder _) fun hfails => ?_⟩
  rw [step_eq]
  exact hfails

theorem regardless_closePools : Regardless closePools := by
  intro w profile
  rw [closePools_eq, closePools_eq]
  exact regardless_foldl (fun p => (Pool.inStep_close (p := p)).leaves) (List.range w.pools.size) w
    profile

/-- Drops all handles, in the order of their names. -/
def dropHandles (w : World Desk) : World Desk :=
  { w.dropAll (w.client.handles.map (·.2)) with client := { w.client with handles := [] } }

theorem regardless_dropHandles : Regardless dropHandles := by
  intro w profile
  exact congrArg (fun w' : World Desk => { w' with client := { w.client with handles := [] } })
    (regardless_dropAll (w.client.handles.map (·.2)) w profile)

theorem finish_eq (logged : Bool) (w : World Desk) : finish logged w =
    (⟨eventsSince logged w (closePools w),
      eventsSince logged (closePools w) (dropHandles (closePools w)),
      (dropHandles (closePools w)).outstanding⟩, dropHandles (closePools w)) :=
  rfl

/-- Pools are closed and handles dropped without any check. -/
theorem finish_under (logged : Bool) (w : World Desk) (profile : Profile) :
    finish logged (w.under profile) = ((finish logged w).1, (finish logged w).2.under profile) := by
  have hclosed := regardless_closePools w profile
  have hdropped := regardless_dropHandles (closePools w) profile
  rw [finish_eq, finish_eq, hclosed, hdropped]
  rfl

/-- Whatever actions several threads take, from any scene on, and whatever commands a desk is given, in
any world: up to the first check that fails the histories in both profiles are the same but for the
profile. To finish, no check is made. -/
theorem checks_only_observe :
    (∀ (actions : List Action) (s : Scene), AlikeUntil failsCheck (·.under .unchecked)
      (history Action.take actions (s.under .checked)) (history Action.take actions (s.under .unchecked))) ∧
    (∀ (logged : Bool) (commands : List (Thread × Command)) (w : World Desk),
      AlikeUntil (failsCheck ·.reply) (·.under .unchecked)
        (history (fun c => step logged c.1 c.2) commands (w.under .checked))
        (history (fun c => step logged c.1 c.2) commands (w.under .unchecked))) ∧
    ∀ (logged : Bool) (w : World Desk), finish logged (w.under .unchecked) =
      ((finish logged (w.under .checked)).1,
        (finish logged (w.under .checked)).2.under .unchecked) := by
  refine ⟨fun actions s => ?_, fun logged commands w => ?_, fun logged w => ?_⟩
  · exact alikeUntil_history Scene.under (fun _ _ _ => rfl) Action.alike_take actions s
  · exact alikeUntil_history World.under (fun _ _ _ => rfl)
      (fun c => alike_step logged c.1 c.2) commands w
  · rw [finish_under, finish_under logged w .checked]
    rfl

end Desk

end BufferPool
