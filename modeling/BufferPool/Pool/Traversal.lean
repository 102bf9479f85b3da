import BufferPool.Pool.Lists

/-!
# Traversals

A traversal captures a lane and then visits what it has captured, without keeping anybody else from
changing the pool meanwhile, the visitor included. What enters the lane later is not visited, and
what leaves it still is. The captured handles are held until the traversal ends, so no buffer
disappears before its visit.

A visitor carries a value along and says whether to go on.
-/

namespace BufferPool

namespace World

variable {σ : Type}

/-- Holds on to the buffers that an operation needs while it runs. -/
def hold (w : World σ) (handles : List Handle) : World σ :=
  { handles.foldl (fun w h => w.retain h.buffer) w with held := handles :: w.held }

/-- Lets go of what the innermost operation holds. -/
def letGo (w : World σ) : World σ :=
  match w.held with
  | [] => w
  | handles :: outer => { w.dropAll handles with held := outer }

end World

namespace Pool

open PoolM

variable {σ α : Type}

/-- Captures a lane in the given direction. -/
def capture (p : PoolId) (lane : Lane) (dir : Direction) : PoolM σ (List Handle) := do
  let entries ← readArena p (·.entries lane dir)
  let handles := entries.map fun (key, b) => ⟨p, key, b⟩
  modify (·.hold handles)
  return handles

/-- Visits handles until the visitor stops; says whether none stopped. -/
def visitAll (visit : α → Handle → PoolM σ (Bool × α)) : α → List Handle → PoolM σ (Bool × α)
  | a, [] => return (true, a)
  | a, h :: rest => do
    let (more, a) ← visit a h
    if more then visitAll visit a rest else return (false, a)

/-- Visits every buffer of a lane. -/
def traverse (p : PoolId) (lane : Lane) (dir : Direction)
    (visit : α → Handle → PoolM σ (Bool × α)) (start : α) : PoolM σ (Bool × α) := do
  let handles ← capture p lane dir
  ensuring (·.letGo) do
    note p (.traversing lane dir handles.length)
    visitAll visit start handles

/-- The ways to walk over a pool. -/
inductive Route where
  /-- The full lane, unless it is empty. -/
  | full
  /-- The free lane, which is expected not to be empty. -/
  | free
  /-- Either lane as it is. -/
  | lane (lane : Lane)
  deriving DecidableEq

/-- Visits the buffers along a route. Only a walk over a lane as it is says whether none stopped. -/
def travel (p : PoolId) (route : Route) (dir : Direction)
    (visit : α → Handle → PoolM σ (Bool × α)) (start : α) : PoolM σ (Option Bool × α) := do
  match route with
  | .full =>
    if (← count p .full) = 0 then return (none, start)
    else return (none, (← traverse p .full dir visit start).2)
  | .free =>
    expect ((← count p .free) != 0) .someFree
    return (none, (← traverse p .free dir visit start).2)
  | .lane lane =>
    let (done, a) ← traverse p lane dir visit start
    return (some done, a)

end Pool

end BufferPool
