import BufferPool.Arena.Update

/-!
# An arena on its own

A session drives one arena of numbers. It keeps the keys it is given under names, and holds an extra
reference to some of the values, each under a name as well. A key stays under its name when the
value is gone, so stale keys can be tried.
-/

namespace BufferPool.Arena

/-- A registered number. The serial number tells apart values that are equal. -/
structure Item where
  serial : Nat
  value : UInt64
  deriving DecidableEq

structure Session where
  arena : Arena Item
  /-- How many values have been registered. -/
  registrations : Nat
  keys : List (String × Key)
  /-- The serial numbers of the values that are held. -/
  held : List (String × Nat)

namespace Session

inductive Request where
  | register (name : String) (value : UInt64) (hold : Bool)
  | unhold (name : String)
  | unregister (name : String)
  | prepend (name : String) (lane : Lane)
  | remove (name : String) (lane : Lane)
  | contains (name : String)
  | inLane (name : String) (lane : Lane)
  | laneOf (name : String)
  | head (lane : Lane)
  | walk (lane : Lane) (dir : Direction)
  | reclaim
  | drain
  /-- A request that could not be read. -/
  | malformed

inductive Answer where
  | nothing
  | flag (b : Bool)
  | key (key : Option Key)
  | lane (lane : Option Lane)
  | value (value : UInt64)
  | values (values : List UInt64)
  | entries (entries : List (Key × UInt64))
  | fault (fault : Fault)
  /-- The request was malformed or used an unknown name. -/
  | unknown
  deriving DecidableEq

def empty : Session := ⟨.empty, 0, [], []⟩

/-- Puts a value under a name, in place of the one that is there. -/
def assign {α : Type} (name : String) (a : α) (names : List (String × α)) : List (String × α) :=
  (name, a) :: names.filter (·.1 != name)

/-- Whether the arena holds the only reference to a value. -/
def abandoned (s : Session) (item : Item) : Bool := !s.held.any (·.2 == item.serial)

/-- Carries an update of the arena out, unless it is refused. -/
def update {α : Type} (s : Session) (outcome : Except Fault (α × Arena Item))
    (answer : α → Answer) : Answer × Session :=
  match outcome with
  | .ok (a, arena) => (answer a, { s with arena := arena })
  | .error fault => (.fault fault, s)

/-- Runs `act` on the key under a name. -/
def withKey (s : Session) (name : String) (act : Key → Answer × Session) : Answer × Session :=
  match s.keys.lookup name with
  | some key => act key
  | none => (.unknown, s)

def perform (s : Session) : Request → Answer × Session
  | .register name value hold =>
    match s.arena.register ⟨s.registrations, value⟩ with
    | .error fault => (.fault fault, s)
    | .ok (key, arena) =>
      (.key (some key),
        { arena := arena
          registrations := s.registrations + 1
          keys := assign name key s.keys
          held := if hold then assign name s.registrations s.held else s.held })
  | .unhold name =>
    (.flag (s.held.lookup name).isSome, { s with held := s.held.filter (·.1 != name) })
  | .unregister name => s.withKey name fun key =>
    s.update (s.arena.unregister key) fun item => .value item.value
  | .prepend name lane => s.withKey name fun key =>
    s.update ((s.arena.prepend lane key).map ((), ·)) fun _ => .nothing
  | .remove name lane => s.withKey name fun key =>
    s.update ((s.arena.remove lane key).map ((), ·)) fun _ => .nothing
  | .contains name => s.withKey name fun key => (.flag (s.arena.contains key), s)
  | .inLane name lane => s.withKey name fun key => (.flag (s.arena.inLane lane key), s)
  | .laneOf name => s.withKey name fun key =>
    match s.arena.laneOf key with
    | .ok lane => (.lane lane, s)
    | .error fault => (.fault fault, s)
  | .head lane =>
    match s.arena.head? lane with
    | .ok key => (.key key, s)
    | .error fault => (.fault fault, s)
  | .walk lane dir =>
    match s.arena.entries lane dir with
    | .ok entries => (.entries (entries.map fun (key, item) => (key, item.value)), s)
    | .error fault => (.fault fault, s)
  | .reclaim => s.update (s.arena.reclaim s.abandoned) fun items => .values (items.map (·.value))
  | .drain => s.update s.arena.drain fun items => .values (items.map (·.value))
  | .malformed => (.unknown, s)

/-- The numbers in a lane, in the given direction. -/
def members (s : Session) (lane : Lane) (dir : Direction) : List UInt64 :=
  match s.arena.entries lane dir with
  | .ok entries => entries.map (·.2.value)
  | .error _ => []

end Session

end BufferPool.Arena
