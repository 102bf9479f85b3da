import BufferPool.Pool.Content
import BufferPool.Report.Digest
import BufferPool.Report.Describe
import BufferPool.Desk.Command

/-!
# Desks

A desk holds handles under names, in the order of the names, and the buffer under visit. While a
traversal runs inside a visit, that visit is suspended. A desk answers each command with a reply,
and keeps the replies to commands that ran inside others as a trace.
-/

namespace BufferPool

/-- Why a desk does not do what it was told, beside faults. -/
inductive Refusal where
  /-- The command cannot be read or is out of place. -/
  | malformed (complaint : String)
  | noPool
  | noHandle
  | wouldSpin
  | write (error : WriteError)
  | setup (error : SetupError)
  | fault (fault : Fault)
  deriving DecidableEq

structure BufferInfo where
  description : String
  total : UInt64
  isEmpty : Bool
  freeSize : UInt64
  mine : Bool
  pos : Int
  capacity : UInt64
  deriving DecidableEq

structure PoolInfo where
  minimum : UInt64
  limit : UInt64
  cacheCount : Nat
  free : Nat
  full : Nat
  allocated : UInt64
  deriving DecidableEq

inductive Reply where
  | nothing
  | flag (b : Bool)
  | number (n : Nat)
  | numbers (ns : List Nat)
  | text (s : String)
  | texts (ss : List String)
  | bytes (digest : Report.Digest)
  | buffer (info : BufferInfo)
  | pool (info : PoolInfo)
  /-- How a traversal ended, if it says so, and how many visits it made. -/
  | visits (done : Option Bool) (n : Nat)
  | refused (refusal : Refusal)
  deriving DecidableEq

structure Visit where
  handle : Handle
  /-- Whether the traversal ends after this visit. -/
  stopped : Bool
  deriving DecidableEq

structure Desk where
  /-- The handles with their names, in the order of the names. -/
  handles : List (String × Handle)
  /-- The innermost visit, if it is not suspended. -/
  present : Option Visit
  /-- The visits inside which other traversals run, the innermost first. -/
  suspended : List Visit
  /-- The replies of the commands inside the present one, the latest first. -/
  trace : List Reply
  deriving DecidableEq

abbrev DeskM := PoolM Desk

namespace Desk

def empty : Desk := ⟨[], none, [], []⟩

/-- Puts a handle under a name, in place of the one that is there. -/
def put (name : String) (h : Handle) : List (String × Handle) → List (String × Handle)
  | [] => [(name, h)]
  | (other, g) :: rest =>
    if name < other then (name, h) :: (other, g) :: rest
    else if name = other then (name, h) :: rest
    else (other, g) :: put name h rest

def remove (name : String) (handles : List (String × Handle)) : List (String × Handle) :=
  handles.filter (·.1 != name)

/-- All handles that the desk holds, each as often as it holds it. -/
def roots (d : Desk) : List Handle :=
  d.handles.map (·.2) ++ (d.present.toList ++ d.suspended).map (·.handle)

def find? (d : Desk) : Operand → Option Handle
  | .named name => d.handles.lookup name
  | .visited => d.present.map (·.handle)

open PoolM

def modifyDesk (f : Desk → Desk) : DeskM Unit := modify fun w => { w with client := f w.client }

def report (r : Reply) : DeskM Unit := modifyDesk fun d => { d with trace := r :: d.trace }

/-- Runs `act` on the operand, if there is such a handle. -/
def withHandle (h : Operand) (act : Handle → DeskM Reply) : DeskM Reply := do
  match (← get).client.find? h with
  | some handle => act handle
  | none => return .refused .noHandle

/-- Hands the operand over: the name is emptied, unless it is to be kept. A visited buffer is never
handed over itself, but by another reference to it. -/
def handOver (h : Operand) (keep : Bool) (handle : Handle) : DeskM Unit :=
  match h, keep with
  | .named name, false => modifyDesk fun d => { d with handles := remove name d.handles }
  | _, _ => retain handle.buffer

/-- Keeps a handle under a name, and then drops the one that was there. -/
def store (name : String) (handle : Handle) : DeskM Unit := do
  let old := (← get).client.handles.lookup name
  modifyDesk fun d => { d with handles := put name handle d.handles }
  match old with
  | some h => drop h.buffer
  | none => return

/-- Replies with the description of a buffer that was obtained, and keeps the handle if there is a
name for it. -/
def keep (into : Option String) (obtained : Option Handle) : DeskM Reply := do
  match obtained with
  | none => return .nothing
  | some handle =>
    let description := Report.describe (← get) handle.buffer
    match into with
    | some name => store name handle
    | none => drop handle.buffer
    return .text description

end Desk

end BufferPool
