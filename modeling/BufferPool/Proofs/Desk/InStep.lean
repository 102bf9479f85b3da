import BufferPool.Desk.Run
import BufferPool.Proofs.Pool.InStep

/-!
# Desks in both profiles

Calls and commands are in step if failed checks are admitted. A command is in step because its parts
are: the calls of its bodies, the visits of its traversals, and what they hold in between. The clean-up
that a fault sets off is the same in both profiles.

Only faults are replied to by the refusal that a fault is: no operation answers with it. So whether a
check has failed can be told from the reply.
-/

namespace BufferPool.Desk

open PoolM

variable {checks : Prop} {h : Operand} {handle : Handle} {p : PoolId}

theorem inStep_modifyDesk (f : Desk → Desk) : InStep checks (modifyDesk f) :=
  .modify fun _ _ => rfl

theorem inStep_report (r : Reply) : InStep checks (report r) := inStep_modifyDesk _

theorem inStep_done {act : DeskM Unit} (hact : InStep checks act) :
    InStep checks (done act) :=
  hact.map _

theorem inStep_withHandle {act : Handle → DeskM Reply}
    (hact : ∀ handle, InStep checks (act handle)) : InStep checks (withHandle h act) := by
  refine .read_bind (fun _ _ => rfl) fun w => ?_
  cases w.client.find? h with
  | none => exact .pure _
  | some handle => exact hact handle

theorem inStep_withPool {act : Pool → DeskM Reply} (hact : ∀ pool, InStep checks (act pool)) :
    InStep checks (withPool p act) := by
  refine .read_bind (fun _ _ => rfl) fun w => ?_
  cases w.pool? p with
  | none => exact .pure _
  | some pool => exact hact pool

theorem inStep_handOver (keep : Bool) : InStep checks (handOver h keep handle) := by
  cases h with
  | visited => exact inStep_retain handle.buffer
  | named name =>
      cases keep with
      | true => exact inStep_retain handle.buffer
      | false => exact .modify fun _ _ => rfl

theorem inStep_store (name : String) : InStep checks (store name handle) := by
  refine .read_bind (fun _ _ => rfl) fun w => (inStep_modifyDesk _).bind fun _ => ?_
  cases w.client.handles.lookup name with
  | none => exact .pure _
  | some old => exact inStep_drop old.buffer

/-- A description of a buffer does not tell the profile. -/
theorem inStep_keep (into : Option String) (obtained : Option Handle) :
    InStep checks (keep into obtained) := by
  cases obtained with
  | none => exact .pure _
  | some handle =>
      refine .read_bind (fun _ _ => rfl) fun w => ?_
      cases into with
      | none => exact (inStep_drop handle.buffer).bind fun _ => .pure _
      | some name => exact (inStep_store name).bind fun _ => .pure _

theorem inStep_pickNth (lane : Lane) (dir : Direction) (n : Nat) :
    InStep checks (pickNth p lane dir n) := by
  refine (inStep_readArena p _).bind fun entries => ?_
  cases entries[n]? with
  | none => exact .pure _
  | some entry => exact (inStep_retain entry.2).bind fun _ => .pure _

theorem inStep_suspend : InStep checks suspend := inStep_modifyDesk _

theorem inStep_resume : InStep checks resume := inStep_modifyDesk _

theorem inStep_enterVisit : InStep checks (enterVisit handle) :=
  (inStep_retain handle.buffer).bind fun _ => inStep_modifyDesk _

theorem regardless_leaveVisit : Regardless leaveVisit := by
  intro w profile
  have hclient : (w.under profile).client = w.client := rfl
  rw [leaveVisit, leaveVisit, hclient]
  cases w.client.present with
  | none => rfl
  | some visit =>
      let without : World Desk := { w with client := { w.client with present := none } }
      exact regardless_drop visit.handle.buffer without profile

theorem regardless_leaveSuspended : Regardless leaveSuspended := by
  intro w profile
  let without : World Desk := { w with client := { w.client with suspended := [] } }
  exact regardless_dropAll (w.client.suspended.map Visit.handle) without profile

section Checked

variable (hchecks : checks) (me : Thread)

include hchecks

theorem inStep_bufferCall (call : BufferCall) : InStep checks (call.perform me handle) := by
  cases call with
  | info =>
      exact .read_bind (fun _ _ => rfl) fun _ => (inStep_expect hchecks _ _).bind fun _ => .pure _
  | debug => exact .read_bind (fun _ _ => rfl) fun _ => .pure _
  | acquire t =>
      refine (inStep_getBuffer _).bind fun buffer => ?_
      split_ifs
      · exact .pure _
      · exact inStep_done (inStep_acquire handle.buffer _)
  | tryAcquire t => exact (inStep_tryAcquire handle.buffer _).map _
  | release => exact inStep_done (PoolM.inStep_release handle.buffer)
  | write bytes => exact (inStep_write hchecks handle.buffer me bytes).map _
  | stage bytes => exact (inStep_stage hchecks handle.buffer me bytes).map _
  | commit count => exact (inStep_commit handle.buffer me count).map _
  | read => exact (inStep_read hchecks handle.buffer me).bind fun _ => .pure _
  | flush => exact (inStep_flush handle.buffer).bind fun _ => .pure _
  | reset => exact inStep_done (inStep_reset handle.buffer me)
  | setRetired retired => exact inStep_done (inStep_modifyBuffer handle.buffer _)
  | markTransient => exact inStep_done (inStep_markTransient handle.buffer)
  | markLease => exact inStep_done (inStep_markLease hchecks handle.buffer)
  | displace distance =>
      exact (inStep_modifyBuffer handle.buffer _).bind fun _ => (inStep_getBuffer _).bind fun _ =>
        .pure _

theorem inStep_request (size : UInt64) (t : Thread) (request : Request) :
    InStep checks (request.perform p size t) := by
  cases request with
  | allocate => exact Pool.inStep_allocate hchecks size
  | allocateWithin => exact Pool.inStep_allocateWithin hchecks size
  | find => exact Pool.inStep_find size t
  | provide => exact Pool.inStep_provide hchecks size
  | provideAcquired => exact Pool.inStep_provideAcquired hchecks size t
  | provideTransient => exact Pool.inStep_provideTransient hchecks size t
  | provideLease => exact Pool.inStep_provideLease hchecks size t
  | provideFull => exact Pool.inStep_provideFull hchecks size t
  | provideTransientFull => exact Pool.inStep_provideTransientFull hchecks size t
  | provideLeaseTo lane => exact Pool.inStep_provideLeaseTo hchecks lane size t
  | take => exact Pool.inStep_take size t
  | takeRetrying retries => exact Pool.inStep_takeRetrying hchecks size retries t
  | takeDetached => exact Pool.inStep_takeDetached size t
  | takeToFull => exact Pool.inStep_takeToFull hchecks size t
  | obtainFull => exact Pool.inStep_obtainFull hchecks size t
  | takeLeaseRetrying retries => exact Pool.inStep_takeLeaseRetrying hchecks size retries t
  | obtainLease => exact Pool.inStep_obtainLease hchecks size t

theorem inStep_giving (giving : Giving) : InStep checks (giving.perform p handle) := by
  cases giving with
  | deallocate => exact Pool.inStep_deallocate
  | release lane => exact Pool.inStep_release hchecks lane
  | giveBack lane => exact Pool.inStep_giveBack hchecks lane

omit hchecks in
theorem inStep_placing (placing : Placing) : InStep checks (placing.perform p handle) := by
  cases placing with
  | insert lane => exact Pool.inStep_insert lane
  | remove lane => exact Pool.inStep_remove lane
  | move source => exact Pool.inStep_move source

theorem inStep_call (p : PoolId) (call : Call) : InStep checks (call.perform me p) := by
  cases call with
  | clone h into =>
      exact inStep_withHandle fun handle => (inStep_retain handle.buffer).bind fun _ =>
        inStep_done (inStep_store into)
  | discard h =>
      cases h with
      | visited => exact .pure _
      | named name =>
          refine .read_bind (fun _ _ => rfl) fun w => ?_
          cases w.client.find? (.named name) with
          | none => exact .pure _
          | some handle =>
              exact (inStep_handOver false).bind fun _ => (inStep_drop handle.buffer).bind
                fun _ => .pure _
  | same h other => exact inStep_withHandle fun _ => inStep_withHandle fun _ => .pure _
  | onBuffer h call => exact inStep_withHandle fun _ => inStep_bufferCall hchecks me call
  | carryOver h target used requested =>
      exact inStep_withHandle fun old => inStep_withHandle fun new =>
        inStep_done (inStep_carryOver hchecks old.buffer new.buffer me used requested)
  | allowBuffers allowance => exact (InStep.modify fun _ _ => rfl).bind fun _ => .pure _
  | stop => exact (inStep_modifyDesk _).bind fun _ => .pure _
  | build config debug =>
      refine (Pool.inStep_build hchecks config).bind fun built => ?_
      cases built with
      | ok p =>
          dsimp only
          split_ifs <;> exact .pure _
      | error e => exact .pure _
  | close =>
      refine .read_bind (fun _ _ => rfl) fun w => ?_
      split_ifs
      · exact Pool.inStep_close.bind fun _ => .pure _
      · exact .pure _
  | allowRequests allowance =>
      exact inStep_withPool fun _ => (inStep_modifyPool p _).bind fun _ => .pure _
  | obtain request size t into =>
      exact inStep_withPool fun _ => (inStep_request hchecks size (t.getD me) request).bind
        (inStep_keep into)
  | pick lane dir n into =>
      exact inStep_withPool fun _ => (inStep_pickNth lane dir n).bind (inStep_keep into)
  | give h keep giving =>
      exact inStep_withPool fun _ => inStep_withHandle fun _ => (inStep_handOver keep).bind
        fun _ => inStep_done (inStep_giving hchecks giving)
  | place h placing =>
      exact inStep_withPool fun _ => inStep_withHandle fun _ => inStep_done (inStep_placing placing)
  | inLane h lane =>
      exact inStep_withPool fun _ => inStep_withHandle fun _ => (Pool.inStep_inLane lane).map _
  | counts => exact inStep_withPool fun _ => .pure _
  | list lane dir => exact inStep_withPool fun _ => .read_bind (fun _ _ => rfl) fun _ => .pure _
  | debugSection => exact inStep_withPool fun _ => .pure _
  | query => exact inStep_withPool fun _ => .pure _
  | debugPool => exact inStep_withPool fun _ => .pure _
  | sweep lane route dir maker passes =>
      exact inStep_withPool fun _ => (Sweep.inStep_passes hchecks me route dir passes _).map _

end Checked

theorem inStep_times {act : DeskM Unit} (hact : InStep checks act) (n : Nat) :
    InStep checks (times act n) := by
  induction n with
  | zero => exact .pure _
  | succ n ih => exact hact.bind fun _ => ih

theorem inStep_visit {body : DeskM Unit} (hbody : InStep checks body) (stopAfter : Option Nat)
    (visits : Nat) : InStep checks (visit stopAfter body visits handle) :=
  inStep_enterVisit.bind fun _ => .read_bind (fun _ _ => rfl) fun _ =>
    (inStep_report _).bind fun _ => hbody.bind fun _ => .read_bind (fun _ _ => rfl) fun _ =>
      (InStep.modify regardless_leaveVisit).bind fun _ => .pure _

mutual

/-- By cases on the command, with its bodies by induction. -/
theorem inStep_run (hchecks : checks) (c : Context)
    (command : Command) : InStep checks (command.run c) := by
  cases command with
  | call name scope p call =>
      unfold Command.run
      split_ifs
      · exact inStep_call hchecks c.me _ call
      · exact .pure _
  | malformed complaint =>
      unfold Command.run
      exact .pure _
  | branch operand question yes no =>
      unfold Command.run
      refine inStep_withHandle fun handle => (inStep_getBuffer _).bind fun buffer => ?_
      have hbody : InStep checks
          (if question.ask c.me buffer then runAll c.inside yes else runAll c.inside no) := by
        split_ifs
        · exact inStep_runAll hchecks c.inside yes
        · exact inStep_runAll hchecks c.inside no
      exact (InStep.modify (regardless_hold _)).bind fun _ => (hbody.ensuring regardless_letGo).bind
        fun _ => .pure _
  | repeated n body =>
      unfold Command.run
      exact (inStep_times (inStep_runAll hchecks c.inside body) n).bind fun _ => .pure _
  | locked p body =>
      unfold Command.run
      split_ifs
      · exact .pure _
      · exact inStep_withPool fun _ => (inStep_runAll hchecks _ body).bind fun _ => .pure _
  | visiting name p route dir stopAfter body =>
      unfold Command.run
      split_ifs
      · exact .pure _
      · have htravel : InStep checks (Pool.travel p route dir
            (visit stopAfter (runAll c.inside body)) 0) :=
          Pool.inStep_travel hchecks
            (fun visits _ => inStep_visit (inStep_runAll hchecks c.inside body) stopAfter visits)
            route dir 0
        exact inStep_withPool fun _ => inStep_suspend.bind fun _ =>
          (htravel.onFault regardless_leaveSuspended).bind fun _ => inStep_resume.bind
            fun _ => .pure _

theorem inStep_runAll (hchecks : checks) (c : Context)
    (commands : List Command) : InStep checks (runAll c commands) := by
  cases commands with
  | nil =>
      unfold runAll
      exact .pure _
  | cons command rest =>
      unfold runAll
      exact (inStep_run hchecks c command).bind fun reply => (inStep_report reply).bind fun _ =>
        inStep_runAll hchecks c rest

end

/-- A check of the checked profile has failed. -/
def failsCheck : Reply → Bool
  | .refused (.fault fault) => fault.isCheck
  | _ => false

/-- If the operation answers at all, its reply is not that a check has failed. -/
def Candid (act : DeskM Reply) : Prop :=
  ∀ w reply w', act w = .ok reply w' → failsCheck reply = false

namespace Candid

variable {α : Type}

theorem pure {reply : Reply} (h : failsCheck reply = false) : Candid (Pure.pure reply) := by
  intro w reply' w' hr
  cases hr
  exact h

/-- Only the last operation counts. -/
theorem bind {act : DeskM α} {next : α → DeskM Reply} (h : ∀ a, Candid (next a)) :
    Candid (act >>= next) := by
  intro w reply w' hr
  cases hact : act w with
  | ok a w₁ =>
      rw [bind_of_ok next hact] at hr
      exact h a w₁ reply w' hr
  | error fault w₁ =>
      rw [bind_of_error next hact] at hr
      cases hr

theorem map {act : DeskM α} {f : α → Reply} (h : ∀ a, failsCheck (f a) = false) :
    Candid (f <$> act) :=
  bind fun a => .pure (h a)

theorem done (act : DeskM Unit) : Candid (Desk.done act) := map fun _ => rfl

theorem withHandle {act : Handle → DeskM Reply} (hact : ∀ handle, Candid (act handle)) :
    Candid (Desk.withHandle h act) := by
  refine bind fun w => ?_
  cases w.client.find? h with
  | none => exact .pure rfl
  | some handle => exact hact handle

theorem withPool {act : Pool → DeskM Reply} (hact : ∀ pool, Candid (act pool)) :
    Candid (Desk.withPool p act) := by
  refine bind fun w => ?_
  cases w.pool? p with
  | none => exact .pure rfl
  | some pool => exact hact pool

theorem onFault {act : DeskM Reply} {cleanUp : World Desk → World Desk} (hact : Candid act) :
    Candid (PoolM.onFault cleanUp act) := by
  intro w reply w' hr
  unfold PoolM.onFault at hr
  cases hw : act w with
  | ok reply' w₁ =>
      rw [hw] at hr
      cases hr
      exact hact w reply w' hw
  | error fault w₁ =>
      rw [hw] at hr
      cases hr

theorem keep (into : Option String) (obtained : Option Handle) :
    Candid (Desk.keep into obtained) := by
  cases obtained with
  | none => exact .pure rfl
  | some handle =>
      refine bind fun w => ?_
      cases into <;> exact bind fun _ => .pure rfl

end Candid

theorem candid_bufferCall (me : Thread) (call : BufferCall) : Candid (call.perform me handle) := by
  have hwrite : ∀ outcome, failsCheck (replyTo outcome) = false := by
    rintro (_ | _) <;> rfl
  cases call with
  | info => exact .bind fun _ => .bind fun _ => .pure rfl
  | debug => exact .bind fun _ => .pure rfl
  | acquire t =>
      refine .bind fun buffer => ?_
      split_ifs
      · exact .pure rfl
      · exact .done _
  | tryAcquire t => exact .map fun _ => rfl
  | release => exact .done _
  | write bytes => exact .map hwrite
  | stage bytes => exact .map hwrite
  | commit count => exact .map hwrite
  | read => exact .bind fun _ => .pure rfl
  | flush => exact .bind fun _ => .pure rfl
  | reset => exact .done _
  | setRetired retired => exact .done _
  | markTransient => exact .done _
  | markLease => exact .done _
  | displace distance => exact .bind fun _ => .bind fun _ => .pure rfl

theorem candid_call (me : Thread) (p : PoolId) (call : Call) : Candid (call.perform me p) := by
  cases call with
  | clone h into => exact .withHandle fun _ => .bind fun _ => .done _
  | discard h =>
      cases h with
      | visited => exact .pure rfl
      | named name =>
          refine .bind fun w => ?_
          cases w.client.find? (.named name) with
          | none => exact .pure rfl
          | some handle => exact .bind fun _ => .bind fun _ => .pure rfl
  | same h other => exact .withHandle fun _ => .withHandle fun _ => .pure rfl
  | onBuffer h call => exact .withHandle fun _ => candid_bufferCall me call
  | carryOver h target used requested =>
      exact .withHandle fun _ => .withHandle fun _ => .done _
  | allowBuffers allowance => exact .bind fun _ => .pure rfl
  | stop => exact .bind fun _ => .pure rfl
  | build config debug =>
      refine .bind fun built => ?_
      cases built with
      | ok p =>
          cases debug <;> exact .pure rfl
      | error e => exact .pure rfl
  | close =>
      refine .bind fun w => ?_
      split_ifs
      · exact .bind fun _ => .pure rfl
      · exact .pure rfl
  | allowRequests allowance => exact .withPool fun _ => .bind fun _ => .pure rfl
  | obtain request size t into => exact .withPool fun _ => .bind fun _ => .keep into _
  | pick lane dir n into => exact .withPool fun _ => .bind fun _ => .keep into _
  | give h keep giving => exact .withPool fun _ => .withHandle fun _ => .bind fun _ => .done _
  | place h placing => exact .withPool fun _ => .withHandle fun _ => .done _
  | inLane h lane => exact .withPool fun _ => .withHandle fun _ => .map fun _ => rfl
  | counts => exact .withPool fun _ => .pure rfl
  | list lane dir => exact .withPool fun _ => .bind fun _ => .pure rfl
  | debugSection => exact .withPool fun _ => .pure rfl
  | query => exact .withPool fun _ => .pure rfl
  | debugPool => exact .withPool fun _ => .pure rfl
  | sweep lane route dir maker passes => exact .withPool fun _ => .map fun _ => rfl

/-- Whatever the bodies of a command reply goes into the trace. -/
theorem candid_run (c : Context) (command : Command) : Candid (command.run c) := by
  cases command with
  | call name scope p call =>
      unfold Command.run
      split_ifs
      · exact candid_call c.me _ call
      · exact .pure rfl
  | malformed complaint =>
      unfold Command.run
      exact .pure rfl
  | branch operand question yes no =>
      unfold Command.run
      exact .withHandle fun _ => .bind fun _ => .bind fun _ => .bind fun _ => .pure rfl
  | repeated n body =>
      unfold Command.run
      exact .bind fun _ => .pure rfl
  | locked p body =>
      unfold Command.run
      split_ifs
      · exact .pure rfl
      · exact .withPool fun _ => .bind fun _ => .pure rfl
  | visiting name p route dir stopAfter body =>
      unfold Command.run
      split_ifs
      · exact .pure rfl
      · exact .withPool fun _ => .bind fun _ => .bind fun _ => .bind fun _ => .pure rfl

end BufferPool.Desk
