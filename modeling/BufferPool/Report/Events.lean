import BufferPool.Report.Describe

/-!
# Events as text

An event is shown if the collaborator it concerns is recorded; a note is shown if a log is kept, and so
is what enters a lane. A request for which there was no memory shows in the log only.
-/

namespace BufferPool.Report

/-- A message with the values that go with it. -/
def entry (level message : String) (fields : List (String × String)) : String :=
  level ++ ": " ++ message ++
    String.join (fields.map fun (field, value) => " " ++ field ++ "=" ++ value)

def noteText : Note → String
  | .ready minimum limit cacheCount =>
    entry "DEBUG" "memory space initialized"
      [("min_elem_size", word minimum), ("limit_size", word limit),
        ("cache_count", toString cacheCount)]
  | .preallocationFailed allocated cacheCount =>
    entry "WARN" "memory space pre-allocation failed"
      [("allocated", toString allocated), ("cache_count", toString cacheCount)]
  | .closing buffers detached =>
    entry "DEBUG" "releasing memory space"
      [("buffers", toString buffers), ("detached", toString detached)]
  | .tooLarge requested =>
    entry "WARN" "rejected allocation exceeding the maximum allocation size"
      [("requested_size", word requested)]
  | .heapFailed requested capacity =>
    entry "WARN" "heap allocation failed"
      [("requested_size", word requested), ("capacity", word capacity)]
  | .allocated requested capacity total =>
    entry "DEBUG" "allocated buffer"
      [("requested_size", word requested), ("capacity", word capacity),
        ("total_size", word total)]
  | .reclaiming count =>
    entry "DEBUG" "reclaiming detached buffers without handles" [("count", toString count)]
  | .deallocated total => entry "DEBUG" "deallocated buffer" [("total_size", word total)]
  | .found size => entry "TRACE" "acquired buffer from free list" [("size", word size)]
  | .notFound attempt retries size =>
    entry "TRACE" "no free buffer available"
      [("attempt", toString attempt), ("retry_count", toString retries), ("size", word size)]
  | .releasingTransient => entry "TRACE" "releasing transient buffer" []
  | .traversing lane dir length =>
    entry "TRACE" "iterating list"
      [("list", lane.name), ("direction", dir.name), ("len", toString length)]

def insertedText : Lane → String
  | .free => entry "TRACE" "inserted buffer into free list" []
  | .full => entry "TRACE" "inserted buffer into full list" []

def truth (b : Bool) : String := if b then "true" else "false"

def censusText (c : Census) : String :=
  "free=" ++ toString c.free ++ " full=" ++ toString c.full ++ " cache=" ++ toString c.cacheCount ++
    " alloc=" ++ word c.allocated ++ " limit=" ++ word c.limit

/-- The text of an event, if it is shown. -/
def eventText? {σ : Type} (w : World σ) (logged : Bool) (e : Event) : Option String :=
  let shows (p : PoolId) (f : Config → Bool) : Bool := w.pools[p]?.any fun pool => f pool.config
  match e with
  | .granted _ _ tag size => tag.map fun n => "alloc #" ++ toString n ++ " " ++ word size
  | .refused p size => if shows p (·.heap.recorded) then some ("refuse " ++ word size) else none
  | .unserved _ _ => none
  | .freed _ _ tag _ => tag.map fun n => "free #" ++ toString n
  | .allocated p _ total =>
    if shows p (·.listener.recorded) then some ("allocated " ++ word total) else none
  | .deallocated p _ total =>
    if shows p (·.listener.recorded) then some ("deallocated " ++ word total) else none
  | .published p _ _ total =>
    if shows p (·.listener.recorded) then some ("published " ++ word total) else none
  | .consulted p c keep =>
    if shows p (·.retention.recorded) then
      some ("policy " ++ censusText c ++ " -> " ++ truth keep)
    else none
  | .inserted _ lane _ => if logged then some (insertedText lane) else none
  | .kept .. => if logged then some (entry "TRACE" "cached released buffer" []) else none
  | .noted _ note => if logged then some (noteText note) else none

end BufferPool.Report
