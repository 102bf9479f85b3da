import BufferPool.Proofs.Desk.ThreadSteps

/-!
# Actions

An action names the smallest part of a run of several threads: what is done before another thread gets its
turn. Whatever run there is, it is a sequence of actions, so what is to be known of runs can be said of the
actions that are taken: which of them call what, and how many do. An action may also be taken where no run
would take it, and what holds after any actions holds in particular after those of a run.
-/

namespace BufferPool.Desk

open PoolM World

/-- What is replied in the end, and what is left behind. A fault is a refusal. -/
def conclude (act : DeskM Reply) (w : World Desk) : Reply × World Desk :=
  match act w with
  | .ok reply w' => (reply, w')
  | .error fault w' => (.refused (.fault fault), w')

/-- What is done next in a run of several threads. -/
inductive Action where
  | call (me : Thread) (p : PoolId) (call : Call)
  | capture (p : PoolId) (lane : Lane) (dir : Direction)
  | hold (operand : Operand)
  /-- What is held in the given place is let go. -/
  | letGo (place : Nat)
  | sweep (me : Thread) (s : Sweep) (handle : Handle)
  | enterVisit (handle : Handle)
  | leaveVisit
  | suspend
  | resume
  | leaveSuspended
  | note (p : PoolId) (n : Note)
  | trace (replies : List Reply)
  | reclaim (p : PoolId)
  | make (p : PoolId) (requested : UInt64)
  | enroll (p : PoolId) (b : BufferId) (name : String)

/-- Stops holding what is held in the given place. -/
def letGoAt (place : Nat) (w : World Desk) : World Desk :=
  { w.dropAll (w.held.getD place []) with held := w.held.eraseIdx place }

/-- What an action does, apart from the list of buffers that are made. -/
def Action.perform : Action → DeskM Reply
  | .call me p request => request.perform me p
  | .capture p lane dir => (fun _ => .nothing) <$> Pool.capture p lane dir
  | .hold operand => withHandle operand fun handle => done (modify (·.hold [handle]))
  | .letGo place => done (modify (letGoAt place))
  | .sweep me s handle => (fun r => .flag r.1) <$> s.visit me handle
  | .enterVisit handle => done (Desk.enterVisit handle)
  | .leaveVisit => done (modify Desk.leaveVisit)
  | .suspend => done Desk.suspend
  | .resume => done Desk.resume
  | .leaveSuspended => done (modify Desk.leaveSuspended)
  | .note p n => done (PoolM.note p n)
  | .trace replies => done (modifyDesk fun d => { d with trace := replies })
  | .reclaim p => done (Pool.reclaim p)
  | .make p requested => (fun made => made.elim .nothing .number) <$> Pool.make p requested
  | .enroll p b name => done (Pool.enroll p b >>= store name)

/-- The buffers that are made and not registered yet, after an action with the given reply. -/
def Action.made (made : List BufferId) : Action → Reply → List BufferId
  | .make .., .number b => b :: made
  | .enroll _ b _, _ => made.erase b
  | _, _ => made

/-- Takes an action. -/
def Action.take (action : Action) (s : Scene) : Reply × Scene :=
  let r := conclude action.perform s.world
  (r.1, ⟨r.2, action.made s.made r.1⟩)

/-- The scene after some actions. -/
def Scene.after (s : Scene) (actions : List Action) : Scene :=
  actions.foldl (fun s action => (action.take s).2) s

theorem Scene.after_append (s : Scene) (actions : List Action) (action : Action) :
    s.after (actions ++ [action]) = (action.take (s.after actions)).2 :=
  List.foldl_append

theorem snd_conclude (act : DeskM Reply) (w : World Desk) : (conclude act w).2 = act.leaves w := by
  rw [conclude, leaves]
  cases act w <;> rfl

theorem snd_conclude_map {α : Type} (act : DeskM α) (f : α → Reply) (w : World Desk) :
    (conclude (f <$> act) w).2 = act.leaves w := by
  rw [snd_conclude, leaves_map]

theorem conclude_map_of_ok {α : Type} {act : DeskM α} {a : α} {w w' : World Desk}
    (h : act w = .ok a w') (f : α → Reply) : conclude (f <$> act) w = (f a, w') := by
  rw [conclude, map_eq_pure_bind, bind_of_ok _ h]
  rfl

theorem Action.world_take (action : Action) (s : Scene) :
    (action.take s).2.world = action.perform.leaves s.world :=
  snd_conclude action.perform s.world

theorem Scene.after_cons (s : Scene) (action : Action) (rest : List Action) :
    s.after (action :: rest) = (action.take s).2.after rest :=
  List.foldl_cons ..

/-- Calls that one thread makes. -/
theorem Scene.after_calls (me : Thread) (p : PoolId) (calls : List Call) (w : World Desk)
    (made : List BufferId) :
    (Scene.mk w made).after (calls.map (.call me p)) = ⟨performAll me p calls w, made⟩ := by
  induction calls generalizing w with
  | nil => rfl
  | cons call rest ih =>
      rw [List.map_cons, Scene.after_cons, performAll, ← ih]
      exact congrArg (fun w => (Scene.mk w made).after _) (snd_conclude _ w)

theorem reaches_calls (me : Thread) (p : PoolId) (calls : List Call) (w : World Desk) :
    Scene.Reaches ⟨w, []⟩ ((Scene.mk w []).after (calls.map (.call me p))) := by
  rw [Scene.after_calls]
  exact reaches_performAll me p calls w

theorem letGoAt_append {w : World Desk} {inner outer : List (List Handle)} {handles : List Handle}
    (hheld : w.held = inner ++ handles :: outer) :
    letGoAt inner.length w = { w.dropAll handles with held := inner ++ outer } := by
  have hplace : w.held.getD inner.length [] = handles := by
    rw [hheld, List.getD_eq_getElem?_getD, List.getElem?_append_right le_rfl, Nat.sub_self]
    rfl
  have hrest : w.held.eraseIdx inner.length = inner ++ outer := by
    rw [hheld, List.eraseIdx_append_of_length_le le_rfl, Nat.sub_self]
    rfl
  rw [letGoAt, hplace, hrest]

/-- Every step of a thread is an action. -/
theorem ThreadStep.exists_action {s s' : Scene} (h : ThreadStep s s') :
    ∃ action : Action, (action.take s).2 = s' := by
  cases h with
  | @call w made me p call _ =>
      exact ⟨.call me p call, congrArg (Scene.mk · made) (snd_conclude _ w)⟩
  | capture w made p lane dir =>
      exact ⟨.capture p lane dir, congrArg (Scene.mk · made) (snd_conclude_map _ _ w)⟩
  | @hold w made operand handle hf =>
      refine ⟨.hold operand, congrArg (Scene.mk · made) ?_⟩
      have hact : (Action.hold operand).perform w = done (modify (·.hold [handle])) w := by
        rw [Action.perform, withHandle, PoolM.get_bind, hf]
      rw [conclude, hact]
      rfl
  | @letGo w made inner outer handles hheld =>
      exact ⟨.letGo inner.length, congrArg (Scene.mk · made) (letGoAt_append hheld)⟩
  | @sweep w made handles handle me s hheld hin =>
      exact ⟨.sweep me s handle, congrArg (Scene.mk · made) (snd_conclude_map _ _ w)⟩
  | @enterVisit w made handles handle hfree hheld hin =>
      exact ⟨.enterVisit handle, rfl⟩
  | leaveVisit w made => exact ⟨.leaveVisit, rfl⟩
  | suspend w made => exact ⟨.suspend, rfl⟩
  | resume hfree => exact ⟨.resume, rfl⟩
  | leaveSuspended w made => exact ⟨.leaveSuspended, rfl⟩
  | note w made p n => exact ⟨.note p n, rfl⟩
  | trace w made replies => exact ⟨.trace replies, rfl⟩
  | reclaim w made p => exact ⟨.reclaim p, congrArg (Scene.mk · made) (snd_conclude_map _ _ w)⟩
  | @make w w' made p requested b hmake =>
      have haction : conclude (Action.make p requested).perform w = (.number b, w') :=
        conclude_map_of_ok hmake _
      exact ⟨.make p requested, congrArg (fun r => Scene.mk r.2 (Action.made made _ r.1)) haction⟩
  | @makeNone w made p requested hnone =>
      refine ⟨.make p requested, ?_⟩
      cases hmake : Pool.make p requested w with
      | ok result w' =>
          cases result with
          | some b => exact absurd hmake (hnone b w')
          | none =>
              have haction : conclude (Action.make p requested).perform w = (.nothing, w') :=
                conclude_map_of_ok hmake _
              rw [leaves_of_ok hmake]
              exact congrArg (fun r => Scene.mk r.2 (Action.made made (.make p requested) r.1)) haction
      | error fault w' =>
          have haction : conclude (Action.make p requested).perform w = (.refused (.fault fault), w') := by
            rw [conclude, Action.perform, map_eq_pure_bind, bind_of_error _ hmake]
          rw [leaves_of_error hmake]
          exact congrArg (fun r => Scene.mk r.2 (Action.made made (.make p requested) r.1)) haction
  | @enroll w made p b name hmade hhome =>
      exact ⟨.enroll p b name, congrArg (Scene.mk · (made.erase b)) (snd_conclude_map _ _ w)⟩

/-- Every run of several threads is a sequence of actions. -/
theorem Scene.Reaches.exists_actions {s s' : Scene} (h : s.Reaches s') :
    ∃ actions : List Action, s.after actions = s' := by
  induction h with
  | refl => exact ⟨[], rfl⟩
  | tail _ ha ih =>
      obtain ⟨actions, rfl⟩ := ih
      obtain ⟨action, rfl⟩ := ha.exists_action
      exact ⟨actions ++ [action], Scene.after_append _ actions action⟩

end BufferPool.Desk
