import BufferPool.Desk.Basic
import BufferPool.Pool.Setup
import BufferPool.Sweep

/-!
# Calls

What each call does on a given thread. A call that needs a pool or a handle which is not there is
refused before anything else happens.
-/

namespace BufferPool.Desk

open PoolM

/-- The reply to a write that succeeds without an answer. -/
def replyTo (outcome : Except WriteError Unit) : Reply :=
  match outcome with
  | .ok () => .nothing
  | .error e => .refused (.write e)

def done : DeskM Unit → DeskM Reply := Functor.mapConst Reply.nothing

def BufferCall.perform (me : Thread) (handle : Handle) : BufferCall → DeskM Reply
  | .info => do
    let w ← get
    let b := w.buffer handle.buffer
    expect (b.locates b.pos) .withinPayload
    return .buffer
      ⟨Report.describe w handle.buffer, b.totalSize, b.isEmpty, b.freeSize, b.ownedBy me,
        b.reportedPos, b.capacity⟩
  | .debug => return .text (Report.handleText (← get) handle)
  | .acquire t => do
    if (← getBuffer handle.buffer).owner.isSome then return .refused .wouldSpin
    else done (PoolM.acquire handle.buffer (t.getD me))
  | .tryAcquire t => .flag <$> PoolM.tryAcquire handle.buffer (t.getD me)
  | .release => done (PoolM.release handle.buffer)
  | .write bytes => replyTo <$> PoolM.write handle.buffer me bytes
  | .stage bytes => replyTo <$> PoolM.stage handle.buffer me bytes
  | .commit count => replyTo <$> PoolM.commit handle.buffer me count
  | .read => return .bytes (.ofBytes (← PoolM.read handle.buffer me))
  | .flush => return .number (← PoolM.flush handle.buffer).toNat
  | .reset => done (PoolM.reset handle.buffer me)
  | .setRetired retired => done (modifyBuffer handle.buffer fun b => { b with retired := retired })
  | .markTransient => done (PoolM.markTransient handle.buffer)
  | .markLease => done (PoolM.markLease handle.buffer)
  | .displace distance => do
    modifyBuffer handle.buffer (·.displace distance)
    return .flag (← getBuffer handle.buffer).meter.isSome

def Request.perform (p : PoolId) (size : UInt64) (t : Thread) : Request → DeskM (Option Handle)
  | .allocate => Pool.allocate p size
  | .allocateWithin => Pool.allocateWithin p size
  | .find => Pool.find p size t
  | .provide => Pool.provide p size
  | .provideAcquired => Pool.provideAcquired p size t
  | .provideTransient => Pool.provideTransient p size t
  | .provideLease => Pool.provideLease p size t
  | .provideFull => Pool.provideFull p size t
  | .provideTransientFull => Pool.provideTransientFull p size t
  | .provideLeaseTo lane => Pool.provideLeaseTo p lane size t
  | .take => Pool.take p size t
  | .takeRetrying retries => Pool.takeRetrying p size retries t
  | .takeDetached => Pool.takeDetached p size t
  | .takeToFull => Pool.takeToFull p size t
  | .obtainFull => Pool.obtainFull p size t
  | .takeLeaseRetrying retries => Pool.takeLeaseRetrying p size retries t
  | .obtainLease => Pool.obtainLease p size t

def Giving.perform (p : PoolId) (handle : Handle) : Giving → DeskM Unit
  | .deallocate => Pool.deallocate p handle
  | .release lane => Pool.release p lane handle
  | .giveBack lane => Pool.giveBack p lane handle

def Placing.perform (p : PoolId) (handle : Handle) : Placing → DeskM Unit
  | .insert lane => Pool.insert p lane handle
  | .remove lane => Pool.remove p lane handle
  | .move source => Pool.move p source handle

/-- Runs `act` on a pool, if there is such a pool. -/
def withPool (p : PoolId) (act : Pool → DeskM Reply) : DeskM Reply := do
  match (← get).pool? p with
  | some pool => act pool
  | none => return .refused .noPool

/-- Another reference to the `n`-th member of a lane. -/
def pickNth (p : PoolId) (lane : Lane) (dir : Direction) (n : Nat) : DeskM (Option Handle) := do
  match (← readArena p (·.entries lane dir))[n]? with
  | none => return none
  | some (key, b) =>
    retain b
    return some ⟨p, key, b⟩

def poolInfo (pool : Pool) : PoolInfo :=
  ⟨pool.minimum, pool.config.limit, pool.config.cacheCount, pool.arena.count .free,
    pool.arena.count .full, pool.allocated⟩

/-- One call on thread `me`, addressed to pool `p` if it concerns a pool. -/
def Call.perform (me : Thread) (p : PoolId) : Call → DeskM Reply
  | .clone h into => withHandle h fun handle => do
    retain handle.buffer
    done (store into handle)
  | .discard h =>
    match h with
    | .visited => return .flag false
    | .named _ => do
      match (← get).client.find? h with
      | none => return .flag false
      | some handle =>
        handOver h false handle
        drop handle.buffer
        return .flag true
  | .same h other => withHandle h fun left => withHandle other fun right =>
    return .flag (left.buffer == right.buffer)
  | .onBuffer h call => withHandle h fun handle => call.perform me handle
  | .carryOver h target used requested => withHandle h fun old => withHandle target fun new =>
    done (PoolM.carryOver old.buffer new.buffer me used requested)
  | .allowBuffers allowance => do
    modify fun w => { w with maker := { w.maker with allowance := allowance } }
    return .nothing
  | .stop => do
    modifyDesk fun d => { d with present := d.present.map ({ · with stopped := true }) }
    return .nothing
  | .build config debug => do
    match ← Pool.build config with
    | .ok p => return if debug then .text (Report.configText config) else .number p
    | .error e => return .refused (.setup e)
  | .close => do
    if ((← get).pool? p).isSome then
      Pool.close p
      return .flag true
    else return .flag false
  | .allowRequests allowance => withPool p fun _ => do
    modifyPool p fun pool => { pool with heap := pool.heap.allow allowance }
    return .nothing
  | .obtain request size t into => withPool p fun _ => do
    keep into (← request.perform p size (t.getD me))
  | .pick lane dir n into => withPool p fun _ => do
    keep into (← pickNth p lane dir n)
  | .give h keep giving => withPool p fun _ => withHandle h fun handle => do
    handOver h keep handle
    done (giving.perform p handle)
  | .place h placing => withPool p fun _ => withHandle h fun handle =>
    done (placing.perform p handle)
  | .inLane h lane => withPool p fun _ => withHandle h fun handle =>
    .flag <$> Pool.inLane p lane handle
  | .counts => withPool p fun pool =>
    return .numbers [pool.arena.count .free, pool.arena.count .full]
  | .list lane dir => withPool p fun pool =>
    return .texts (Report.describeLane (← get) pool lane dir)
  | .debugSection => withPool p fun pool => return .text (Report.sectionText p pool)
  | .query => withPool p fun pool => return .pool (poolInfo pool)
  | .debugPool => withPool p fun pool => return .text (Report.poolText p pool)
  | .sweep lane route dir maker passes => withPool p fun _ => do
    (fun counts => .numbers (counts.map UInt64.toNat)) <$>
      Sweep.passes me route dir passes ⟨p, lane, maker.getD me, 0⟩

end BufferPool.Desk
