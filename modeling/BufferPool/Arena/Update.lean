import BufferPool.Arena.Basic

/-!
# Updates of the arena

Registration takes the slot that was vacated last, or a new one when none is vacant, and yields a
detached value. `prepend` and `remove` link a value into a lane and out of it again; only a detached
value can be unregistered. `reclaim` vacates the slots of detached values that nothing else refers
to, and `drain` empties the arena.

An operation that is refused for misuse is refused before anything is changed.
-/

namespace BufferPool.Arena

variable {α : Type}

def setSlot (a : Arena α) (index : Nat) (slot : Slot α) : Arena α :=
  { a with slots := a.slots.setIfInBounds index slot }

/-- Changes the occupant of a slot that a link refers to. -/
def modifyNodeAt (a : Arena α) (index : Nat) (f : Node α → Node α) : Except Fault (Arena α) :=
  match a.slots[index]? with
  | some ⟨generation, .occupied node⟩ => .ok (a.setSlot index ⟨generation, .occupied (f node)⟩)
  | _ => .error (.linkToVacant index)

/-- Makes `link` what the neighbour towards the tail sees as its predecessor; at the tail the end of
the lane moves instead. -/
def linkBack (a : Arena α) (lane : Lane) (next link : Option Nat) : Except Fault (Arena α) :=
  match next with
  | some index => a.modifyNodeAt index fun node => { node with prev := link }
  | none => .ok (a.setEnds lane { a.ends lane with tail := link })

/-- Makes `link` what the neighbour towards the head sees as its successor; at the head the end of
the lane moves instead. -/
def linkForth (a : Arena α) (lane : Lane) (prev link : Option Nat) : Except Fault (Arena α) :=
  match prev with
  | some index => a.modifyNodeAt index fun node => { node with next := link }
  | none => .ok (a.setEnds lane { a.ends lane with head := link })

/-- Registers a value as detached. -/
def register (a : Arena α) (value : α) : Except Fault (Key × Arena α) :=
  let node : Node α := ⟨value, none, none, none⟩
  match a.vacant with
  | none =>
    .ok (⟨a.slots.size, 0⟩,
      { a with slots := a.slots.push ⟨0, .occupied node⟩, registered := a.registered + 1 })
  | some index =>
    match a.slots[index]? with
    | none => .error .linkToNowhere
    | some ⟨_, .occupied _⟩ => .error (.occupiedInVacantChain index)
    | some ⟨generation, .vacant next⟩ =>
      .ok (⟨index, generation⟩,
        { a.setSlot index ⟨generation, .occupied node⟩ with
          vacant := next, registered := a.registered + 1 })

/-- Vacates the slot of a detached value and returns the value. Its generation grows, so no key to
the slot is valid any more. The slot is looked up twice, since the key is checked first. -/
def unregister (a : Arena α) (key : Key) : Except Fault (α × Arena α) :=
  match a.node? key with
  | none => .error (.stale key)
  | some node =>
    match node.lane with
    | some lane => .error (.stillListed lane)
    | none =>
      match a.slots[key.index]? with
      | none => .error .linkToNowhere
      | some ⟨_, .vacant _⟩ => .error .vacantUnderKey
      | some ⟨generation, .occupied node⟩ =>
        .ok (node.value,
          { a.setSlot key.index ⟨generation + 1, .vacant a.vacant⟩ with
            vacant := some key.index, registered := a.registered - 1 })

/-- Puts a detached value at the head of a lane. -/
def prepend (a : Arena α) (lane : Lane) (key : Key) : Except Fault (Arena α) :=
  match a.node? key with
  | none => .error (.stale key)
  | some node =>
    match node.lane with
    | some actual => .error (.alreadyListed actual)
    | none => do
      let head := (a.ends lane).head
      let a := a.setSlot key.index
        ⟨key.generation, .occupied { node with lane := some lane, prev := none, next := head }⟩
      let a ← a.linkBack lane head (some key.index)
      let e := a.ends lane
      return a.setEnds lane { e with head := some key.index, count := e.count + 1 }

/-- Takes a value out of a lane and leaves it detached. -/
def remove (a : Arena α) (lane : Lane) (key : Key) : Except Fault (Arena α) :=
  match a.node? key with
  | none => .error (.stale key)
  | some node =>
    if node.lane = some lane then do
      let a := a.setSlot key.index
        ⟨key.generation, .occupied { node with lane := none, prev := none, next := none }⟩
      let a ← a.linkForth lane node.prev node.next
      let a ← a.linkBack lane node.next node.prev
      let e := a.ends lane
      return a.setEnds lane { e with count := e.count - 1 }
    else .error (.notListed lane node.lane)

def unregisterAll (a : Arena α) : List Key → Except Fault (List α × Arena α)
  | [] => .ok ([], a)
  | key :: keys => do
    let (value, a) ← a.unregister key
    let (values, a) ← a.unregisterAll keys
    return (value :: values, a)

/-- The keys of the detached values that satisfy `abandoned`, in slot order. -/
def abandonedKeys (a : Arena α) (abandoned : α → Bool) : List Key :=
  a.occupants.filterMap fun (key, node) =>
    if node.lane.isNone && abandoned node.value then some key else none

/-- Unregisters the detached values that satisfy `abandoned`, in slot order. -/
def reclaim (a : Arena α) (abandoned : α → Bool) : Except Fault (List α × Arena α) :=
  if a.detached = 0 then .ok ([], a) else a.unregisterAll (a.abandonedKeys abandoned)

/-- Takes the head of a lane out of the arena until the lane is empty. Every step vacates a slot,
so as many steps as there are slots are enough. -/
def drainLane (a : Arena α) (lane : Lane) : Nat → Except Fault (List α × Arena α)
  | 0 => .ok ([], a)
  | fuel + 1 => do
    match ← a.head? lane with
    | none => return ([], a)
    | some key =>
      let a ← a.remove lane key
      let (value, a) ← a.unregister key
      let (values, a) ← a.drainLane lane fuel
      return (value :: values, a)

/-- Empties the arena. The values come out in this order: the full lane from the head, the free lane
from the head, the detached values in slot order. -/
def drain (a : Arena α) : Except Fault (List α × Arena α) := do
  let (full, a) ← a.drainLane .full a.slots.size
  let (free, a) ← a.drainLane .free a.slots.size
  return (full ++ free ++ a.values, { a with slots := #[], vacant := none, registered := 0 })

end BufferPool.Arena
