/-!
# The arena of a pool: slots, links and keys

An arena keeps every value of a pool in one array of slots. A slot is occupied or vacant. An
occupied slot says which lane its value is in, if any, and links to its two neighbours in that lane
by slot index; a value in neither lane is detached and has no links. Vacant slots form a chain of
their own. A key is a slot index with the slot's generation, which grows by one each time the slot
is vacated, so a key never names a later occupant.

The updates are in `BufferPool.Arena.Update`. Nothing here assumes the links to be sound: a lookup
that meets a broken link reports it.
-/

namespace BufferPool

/-- The two lists of a pool. -/
inductive Lane where
  /-- Buffers ready to be handed out again. -/
  | free
  /-- Buffers published for draining. -/
  | full
  deriving DecidableEq

namespace Lane

def other : Lane → Lane
  | .free => .full
  | .full => .free

def name : Lane → String
  | .free => "Free"
  | .full => "Full"

end Lane

/-- The lane of a value as messages show it; a detached value has none. -/
def Lane.optionName : Option Lane → String
  | none => "None"
  | some lane => "Some(" ++ lane.name ++ ")"

/-- The order in which a lane is walked: `forward` begins at the most recent insertion. -/
inductive Direction where
  | forward
  | backward
  deriving DecidableEq

def Direction.name : Direction → String
  | .forward => "Forward"
  | .backward => "Backward"

namespace Arena

/-- Names one occupant of one slot. -/
structure Key where
  index : Nat
  generation : UInt64
  deriving DecidableEq

def Key.text (key : Key) : String :=
  "NodeKey \x7b index: " ++ toString key.index ++ ", generation: " ++
    toString key.generation.toNat ++ " \x7d"

/-- An occupant: `prev` is its neighbour towards the head of its lane, `next` the one towards the
tail. -/
structure Node (α : Type) where
  value : α
  lane : Option Lane
  prev : Option Nat
  next : Option Nat
  deriving DecidableEq

inductive Entry (α : Type) where
  | occupied (node : Node α)
  | vacant (next : Option Nat)
  deriving DecidableEq

structure Slot (α : Type) where
  generation : UInt64
  entry : Entry α
  deriving DecidableEq

structure Ends where
  head : Option Nat
  tail : Option Nat
  count : Nat
  deriving DecidableEq

def Ends.empty : Ends := ⟨none, none, 0⟩

/-- Why an arena refuses an operation. The first four are misuse by the caller and leave the arena
as it was; the others say that a link is broken. -/
inductive Fault where
  | stale (key : Key)
  | stillListed (lane : Lane)
  | alreadyListed (lane : Lane)
  | notListed (lane : Lane) (actual : Option Lane)
  | occupiedInVacantChain (index : Nat)
  | linkToVacant (index : Nat)
  | linkToNowhere
  | vacantUnderKey
  | endlessChain (index : Nat)
  deriving DecidableEq

def Fault.message : Fault → String
  | .stale key => "buffer " ++ key.text ++ " is no longer registered in this memory space"
  | .stillListed lane =>
    "buffer must be removed from the " ++ Lane.optionName (some lane) ++
      " list before it is deallocated"
  | .alreadyListed lane =>
    "buffer is already a member of the " ++ Lane.optionName (some lane) ++ " list"
  | .notListed lane actual =>
    "buffer is not a member of the " ++ lane.name ++ " list (actual membership: " ++
      Lane.optionName actual ++ ")"
  | .occupiedInVacantChain index => "vacant chain pointed to occupied slot " ++ toString index
  | .linkToVacant index =>
    "list link " ++ toString index ++ " does not refer to an occupied slot"
  | .linkToNowhere => "list index always refers to an existing slot"
  | .vacantUnderKey =>
    "internal error: entered unreachable code: node() verified that the slot is occupied"
  | .endlessChain index => "list link " ++ toString index ++ " closes a cycle"

end Arena

/-- The slots, the head of the vacant chain, the ends of both lanes and the number of occupied
slots. -/
structure Arena (α : Type) where
  slots : Array (Arena.Slot α)
  vacant : Option Nat
  free : Arena.Ends
  full : Arena.Ends
  registered : Nat
  deriving DecidableEq

namespace Arena

variable {α : Type}

def empty : Arena α := ⟨#[], none, .empty, .empty, 0⟩

def ends (a : Arena α) : Lane → Ends
  | .free => a.free
  | .full => a.full

def setEnds (a : Arena α) (lane : Lane) (e : Ends) : Arena α :=
  match lane with
  | .free => { a with free := e }
  | .full => { a with full := e }

/-- The occupant of a slot, whatever its generation. -/
def nodeAt? (a : Arena α) (index : Nat) : Option (Node α) :=
  match a.slots[index]? with
  | some ⟨_, .occupied node⟩ => some node
  | _ => none

/-- The occupant a key names, unless it has left. -/
def node? (a : Arena α) (key : Key) : Option (Node α) :=
  match a.slots[key.index]? with
  | some ⟨generation, .occupied node⟩ => if generation = key.generation then some node else none
  | _ => none

/-- The key of the present occupant of a slot. -/
def keyAt? (a : Arena α) (index : Nat) : Option Key :=
  a.slots[index]?.map fun slot => ⟨index, slot.generation⟩

/-- The value a key names, unless it has left. -/
def get? (a : Arena α) (key : Key) : Option α := (a.node? key).map (·.value)

def contains (a : Arena α) (key : Key) : Bool := (a.node? key).isSome

/-- The lane of a registered value; `none` inside means that it is detached. -/
def laneOf (a : Arena α) (key : Key) : Except Fault (Option Lane) :=
  match a.node? key with
  | some node => .ok node.lane
  | none => .error (.stale key)

/-- Whether a key is registered and in the lane. -/
def inLane (a : Arena α) (lane : Lane) (key : Key) : Bool :=
  match a.node? key with
  | some node => node.lane = some lane
  | none => false

def count (a : Arena α) (lane : Lane) : Nat := (a.ends lane).count

/-- How many registered values are in neither lane. -/
def detached (a : Arena α) : Nat := a.registered - a.free.count - a.full.count

/-- The key at the head of a lane. -/
def head? (a : Arena α) (lane : Lane) : Except Fault (Option Key) :=
  match (a.ends lane).head with
  | none => .ok none
  | some index =>
    match a.keyAt? index with
    | some key => .ok (some key)
    | none => .error .linkToNowhere

/-- Follows the links from `start`. A sound chain has at most one entry for each slot, so running
out of `fuel` means that the links close a cycle. -/
def follow (a : Arena α) (dir : Direction) : Nat → Option Nat → Except Fault (List (Key × α))
  | _, none => .ok []
  | 0, some index => .error (.endlessChain index)
  | fuel + 1, some index =>
    match a.slots[index]? with
    | some ⟨generation, .occupied node⟩ => do
      let link := match dir with
        | .forward => node.next
        | .backward => node.prev
      let rest ← a.follow dir fuel link
      return (⟨index, generation⟩, node.value) :: rest
    | _ => .error (.linkToVacant index)

/-- The members of a lane with their keys, in the given direction. -/
def entries (a : Arena α) (lane : Lane) (dir : Direction) : Except Fault (List (Key × α)) :=
  a.follow dir a.slots.size <|
    match dir with
    | .forward => (a.ends lane).head
    | .backward => (a.ends lane).tail

/-- All occupied slots in slot order. -/
def occupants (a : Arena α) : List (Key × Node α) :=
  a.slots.toList.zipIdx.filterMap fun (slot, index) =>
    match slot.entry with
    | .occupied node => some (⟨index, slot.generation⟩, node)
    | .vacant _ => none

/-- The registered values in slot order. -/
def values (a : Arena α) : List α := a.occupants.map (·.2.value)

end Arena

end BufferPool
