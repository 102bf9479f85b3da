import BufferPool.Desk.Perform
import BufferPool.Report.Events

/-!
# Running commands

A command runs in a context: the thread, the pool whose critical section is held, and whether it is
the body of another command. Inside a critical section only that section, single buffers and the
flow of control can be used. A fault ends all commands that are running; what they have done stays
done, and the replies they have traced are kept.

A visit holds its buffer, and a branch holds its operand. What a fault ends lets go in turn, from
the inside outwards: a branch of its operand, a traversal of what it has captured and then of the
visits around it. Only the visit whose body has faulted is left over; it ends last of all, together
with the outermost command.
-/

namespace BufferPool.Desk

open PoolM

structure Context where
  me : Thread
  /-- The pool whose critical section is held. -/
  held : Option PoolId
  /-- Whether the command is nobody's body. -/
  outermost : Bool
  deriving DecidableEq

namespace Context

def inside (c : Context) : Context := { c with outermost := false }

def allows (c : Context) : Scope → Bool
  | .anywhere | .critical => true
  | .outside => c.held.isNone
  | .outermost => c.held.isNone && c.outermost

/-- The pool that a call is about. -/
def target (c : Context) (scope : Scope) (p : PoolId) : PoolId :=
  if scope = .critical then c.held.getD p else p

end Context

def outOfPlace (name : String) : Reply := .refused (.malformed ("op " ++ name))

def Question.ask (me : Thread) (b : Buffer) : Question → Bool
  | .transient => b.transient
  | .lease => b.lease
  | .retired => b.retired
  | .empty => b.isEmpty
  | .owned => b.owner.isSome
  | .mine => b.ownedBy me
  | .unflushed => b.unflushedSize != 0

def times (act : DeskM Unit) : Nat → DeskM Unit
  | 0 => return
  | n + 1 => do
    act
    times act n

/-- Makes room for the visits of a traversal inside the present visit. -/
def suspend : DeskM Unit :=
  modifyDesk fun d => { d with present := none, suspended := d.present.toList ++ d.suspended }

/-- Takes up the visit that was suspended last. -/
def resume : DeskM Unit :=
  modifyDesk fun d => { d with present := d.suspended.head?, suspended := d.suspended.tail }

/-- Ends the suspended visits. No buffer disappears, since the traversals around still hold them. -/
def leaveSuspended (w : World Desk) : World Desk :=
  { w with client := { w.client with suspended := [] } }.dropAll
    (w.client.suspended.map Visit.handle)

/-- Holds the buffer of a visit. -/
def enterVisit (handle : Handle) : DeskM Unit := do
  retain handle.buffer
  modifyDesk fun d => { d with present := some ⟨handle, false⟩ }

/-- Ends the present visit. -/
def leaveVisit (w : World Desk) : World Desk :=
  match w.client.present with
  | none => w
  | some visit => { w with client := { w.client with present := none } }.drop visit.handle.buffer

/-- Visits one buffer with `body`. The traversal goes on unless the body has stopped it or enough
visits were made. -/
def visit (stopAfter : Option Nat) (body : DeskM Unit) (visits : Nat) (handle : Handle) :
    DeskM (Bool × Nat) := do
  enterVisit handle
  report (.text ("visit " ++ Report.describe (← get) handle.buffer))
  body
  let stopped := (← get).client.present.any (·.stopped)
  modify leaveVisit
  return (!stopped && stopAfter.all (visits + 1 < ·), visits + 1)

mutual

def Command.run (c : Context) : Command → DeskM Reply
  | .call name scope p call =>
    if c.allows scope then call.perform c.me (c.target scope p) else return outOfPlace name
  | .malformed complaint => return .refused (.malformed complaint)
  | .branch h question yes no => withHandle h fun handle => do
    let answer := question.ask c.me (← getBuffer handle.buffer)
    modify (·.hold [handle])
    ensuring (·.letGo) (if answer then runAll c.inside yes else runAll c.inside no)
    return .flag answer
  | .repeated n body => do
    times (runAll c.inside body) n
    return .nothing
  | .locked p body =>
    if c.held.isSome then return outOfPlace "locked"
    else withPool p fun _ => do
      runAll { c.inside with held := some p } body
      return .text "unlocked"
  | .visiting name p route dir stopAfter body =>
    if c.held.isSome then return outOfPlace name
    else withPool p fun _ => do
      suspend
      let (done, visits) ← onFault leaveSuspended
        (Pool.travel p route dir (visit stopAfter (runAll c.inside body)) 0)
      resume
      return .visits done visits

def runAll (c : Context) : List Command → DeskM Unit
  | [] => return
  | command :: rest => do
    report (← command.run c)
    runAll c rest

end

/-- What can be seen of a pool. -/
structure PoolView where
  free : List String
  full : List String
  allocated : UInt64
  deriving DecidableEq

/-- What a desk reports after a command. -/
structure StepReport where
  reply : Reply
  trace : List Reply
  events : List String
  pools : List (Option PoolView)
  handles : List (String × String)
  deriving DecidableEq

def viewPools (w : World Desk) : List (Option PoolView) :=
  w.pools.toList.map fun pool =>
    if pool.live then
      some ⟨Report.describeLane w pool .free .forward, Report.describeLane w pool .full .forward,
        pool.allocated⟩
    else none

/-- The events that happened between two worlds, as far as they are shown. -/
def eventsSince (logged : Bool) (before after : World Desk) : List String :=
  (after.events.take (after.events.length - before.events.length)).reverse.filterMap
    (Report.eventText? after logged)

/-- Runs one command on thread `me` and reports. -/
def step (logged : Bool) (me : Thread) (command : Command) (w : World Desk) :
    StepReport × World Desk :=
  let (reply, after) :=
    match command.run ⟨me, none, true⟩ { w with client := { w.client with trace := [] } } with
    | .ok reply after => (reply, after)
    | .error fault after => (.refused (.fault fault), leaveVisit after)
  (⟨reply, after.client.trace.reverse, eventsSince logged w after, viewPools after,
    after.client.handles.map fun (name, h) => (name, Report.describe after h.buffer)⟩, after)

/-- What a desk reports when everything is given up. -/
structure FinalReport where
  /-- The events of closing the pools. -/
  pools : List String
  /-- The events of dropping the handles. -/
  handles : List String
  outstanding : Nat
  deriving DecidableEq

def closePools (w : World Desk) : World Desk :=
  (List.range w.pools.size).foldl (fun w p =>
    match Pool.close p w with
    | .ok _ w => w
    | .error _ w => w) w

/-- Closes all pools in their order and then drops all handles in the order of their names. -/
def finish (logged : Bool) (w : World Desk) : FinalReport × World Desk :=
  let closed := closePools w
  let dropped :=
    { closed.dropAll (closed.client.handles.map (·.2)) with
      client := { closed.client with handles := [] } }
  (⟨eventsSince logged w closed, eventsSince logged closed dropped, dropped.outstanding⟩, dropped)

end BufferPool.Desk
