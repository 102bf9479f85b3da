import BufferPool.World

/-!
# Buffers, handles and pools as text

A short description shows what a buffer holds and who owns it. The long forms show every field of a
handle, of a pool, of a pool inside a critical section, and of a configuration.
-/

namespace BufferPool.Report

/-- A structure with named fields, written on one line. -/
def record (name : String) (fields : List (String × String)) (exhaustive : Bool) : String :=
  let shown := fields.map fun (field, value) => field ++ ": " ++ value
  let shown := if exhaustive then shown else shown ++ [".."]
  name ++ " \x7b " ++ ", ".intercalate shown ++ " \x7d"

def word (n : UInt64) : String := toString n.toNat

/-- A mark that is set or not. -/
def mark (letter : String) (isSet : Bool) : String := if isSet then letter else "-"

/-- The number of a payload, which only recorded heaps give. -/
def tagText : Option Nat → String
  | some tag => "#" ++ toString tag
  | none => "#?"

def describeCell (c : Cell) : String :=
  let b := c.buffer
  tagText c.tag ++ " " ++ word b.pos ++ "/" ++ word b.capacity ++ " u" ++ word b.unflushedSize ++
    " " ++ mark "T" b.transient ++ mark "L" b.lease ++ mark "R" b.retired ++ " @" ++
    (match b.owner with
      | some t => toString t
      | none => "-") ++
    (match b.meter with
      | some m => " t" ++ toString m.attempts
      | none => "")

/-- The short description of a buffer. -/
def describe {σ : Type} (w : World σ) (b : BufferId) : String :=
  match w.cells[b]? with
  | some c => describeCell c
  | none => tagText none

/-- The members of a lane, from the head or from the tail. -/
def describeLane {σ : Type} (w : World σ) (pool : Pool) (lane : Lane) (dir : Direction) :
    List String :=
  match pool.arena.entries lane dir with
  | .ok entries => entries.map fun (_, b) => describe w b
  | .error _ => []

def bufferFields (b : Buffer) : String :=
  record "Buffer"
    [("payload", record "Payload" [("ptr", "_"), ("capacity", word b.capacity)] false),
      ("header_size", word b.header),
      ("top", word b.top),
      ("pos", word b.pos),
      ("identity", toString (b.owner.elim 0 Thread.token)),
      ("flags", toString b.flags)] true

def bufferText (b : Buffer) : String :=
  match b.meter with
  | none => bufferFields b
  | some m =>
    record "Counting"
      [("inner", bufferFields b),
        ("tries", toString m.attempts),
        ("skew", toString m.displacement)] true

def handleText {σ : Type} (w : World σ) (h : Handle) : String :=
  record "Pooled"
    [("space_id", toString h.pool),
      ("key", h.key.text),
      ("buffer", bufferText (w.buffer h.buffer))] true

/-- What both a pool and its configuration show. -/
def collaborators (c : Config) : List (String × String) :=
  [("heap", c.heap.label),
    ("cache_policy", c.retention.label),
    ("callback", c.listener.label)]

def poolText (p : PoolId) (pool : Pool) : String :=
  record "MemorySpace"
    ([("space_id", toString p),
      ("min_elem_size", word pool.minimum),
      ("limit_size", word pool.config.limit),
      ("cache_count", toString pool.config.cacheCount),
      ("allocated_size", word pool.allocated)] ++ collaborators pool.config) false

def sectionText (p : PoolId) (pool : Pool) : String :=
  record "SpaceGuard"
    [("space_id", toString p),
      ("free_count", toString (pool.arena.count .free)),
      ("full_count", toString (pool.arena.count .full))] true

def configText (c : Config) : String :=
  record "MemorySpaceBuilder"
    ([("min_elem_size", match c.minimum with
        | some n => "Some(" ++ word n ++ ")"
        | none => "None"),
      ("limit_size", word c.limit),
      ("cache_count", toString c.cacheCount)] ++ collaborators c ++
      [("platform", "BuildTargetPlatform")]) true

end BufferPool.Report
