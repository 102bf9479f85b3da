import Mathlib.Algebra.Ring.Nat
import Mathlib.Logic.Function.Basic
import BufferPool.Producer
import BufferPool.Pool.Content
import BufferPool.Pool.Traversal

/-!
# Producers and a consumer at work

A plant is a pool with any number of producers, one for each thread, and one consumer. A producer
obtains a buffer for a message, writes the message into it and releases it. The consumer captures the
full lane and goes through what it has captured: it acquires a buffer, unless somebody owns it,
flushes it, empties it, releases it and gives it back.

One step of a plant is one step of one of them, and steps follow each other in any order. A step is
one operation of the pool or of a buffer. Operations that consist of several critical sections may be
made in one step or section by section.

What the world cannot tell is kept in a log: how many bytes were written and drained, which writes
were refused and which operations have faulted.
-/

namespace BufferPool

open PoolM

variable {σ : Type} {minimum : UInt64}

/-- The bytes that a producer records at once. There is a class for their size. -/
structure Message (minimum : UInt64) where
  bytes : List UInt8
  size : UInt64
  length_eq : bytes.length = size.toNat
  hasClass : (SizeClass.ofRequest? (SizeClass.atLeast size minimum) minimum).isSome
  deriving DecidableEq

/-- How far a producer has got with its message. -/
inductive Stage (minimum : UInt64) where
  | idle
  | wanting (m : Message minimum)
  /-- A free buffer was found, which is still in the free lane. -/
  | taken (m : Message minimum) (h : Handle)
  /-- No free buffer was found. -/
  | lacking (m : Message minimum)
  /-- Abandoned buffers were reclaimed, and a new one is about to be made. -/
  | cleared (m : Message minimum)
  | made (m : Message minimum) (b : BufferId)
  | enrolled (m : Message minimum) (h : Handle)
  | acquired (m : Message minimum) (h : Handle)
  | marked (m : Message minimum) (h : Handle)
  /-- The buffer is in the full lane. -/
  | holding (m : Message minimum) (h : Handle)
  | written (h : Handle)
  /-- The buffer was released, and only the handle is left. -/
  | parting (h : Handle)
  deriving DecidableEq

/-- How far the consumer has got with what it has captured. -/
inductive Pass where
  | resting
  | visiting (rest : List Handle)
  | acquired (h : Handle) (rest : List Handle)
  | flushed (h : Handle) (rest : List Handle)
  | emptied (h : Handle) (rest : List Handle)
  | released (h : Handle) (rest : List Handle)
  deriving DecidableEq

inductive Mark where
  | wrote (count : Nat)
  | drained (count : Nat)
  | refused (error : WriteError)
  | faulted (fault : Fault)
  deriving DecidableEq

/-- Whether nothing went wrong. -/
def Mark.sound : Mark → Bool
  | .wrote _ | .drained _ => true
  | .refused _ | .faulted _ => false

def Mark.bytesWritten : Mark → Nat
  | .wrote count => count
  | _ => 0

def Mark.bytesDrained : Mark → Nat
  | .drained count => count
  | _ => 0

/-- How many bytes were written altogether. -/
def bytesWritten (log : List Mark) : Nat := (log.map Mark.bytesWritten).sum

/-- How many bytes were drained altogether. -/
def bytesDrained (log : List Mark) : Nat := (log.map Mark.bytesDrained).sum

structure Plant (σ : Type) (minimum : UInt64) where
  world : World σ
  producers : Thread → Stage minimum
  pass : Pass
  /-- What has happened, the latest first. -/
  log : List Mark

/-- What a producer may do next. The operation answers with the next stage. -/
inductive Produces (p : PoolId) (t : Thread) :
    Stage minimum → PoolM σ (Stage minimum × List Mark) → Prop where
  | begin (m : Message minimum) : Produces p t .idle (pure (.wanting m, []))
  | obtainFull (m : Message minimum) :
      Produces p t (.wanting m)
        ((fun r => (r.elim .idle (.holding m), [])) <$> Pool.obtainFull p m.size t)
  | takeRetrying (m : Message minimum) (retries : Nat) (hm : m.size ≤ minimum) :
      Produces p t (.wanting m)
        ((fun r => (r.elim (.lacking m) (.taken m), [])) <$> Pool.takeRetrying p m.size retries t)
  /-- A single attempt. -/
  | take (m : Message minimum) (hm : m.size ≤ minimum) :
      Produces p t (.wanting m)
        ((fun r => (r.elim (.wanting m) (.taken m), [])) <$> Pool.take p m.size t)
  | giveUp (m : Message minimum) (hm : m.size ≤ minimum) :
      Produces p t (.wanting m) (pure (.lacking m, []))
  | move (m : Message minimum) (h : Handle) :
      Produces p t (.taken m h) ((fun _ => (.holding m h, [])) <$> Pool.move p .free h)
  | provide (m : Message minimum) :
      Produces p t (.lacking m)
        ((fun r => (r.elim .idle (.holding m), [])) <$> Pool.provideTransientFull p m.size t)
  | reclaim (m : Message minimum) :
      Produces p t (.lacking m) ((fun _ => (.cleared m, [])) <$> Pool.reclaim p)
  | make (m : Message minimum) :
      Produces p t (.cleared m)
        ((fun r => (r.elim .idle (.made m), [])) <$>
          Pool.make p (SizeClass.atLeast m.size minimum))
  | enroll (m : Message minimum) (b : BufferId) :
      Produces p t (.made m b) ((fun h => (.enrolled m h, [])) <$> Pool.enroll p b)
  | acquire (m : Message minimum) (h : Handle) :
      Produces p t (.enrolled m h) ((fun _ => (.acquired m h, [])) <$> acquire h.buffer t)
  | mark (m : Message minimum) (h : Handle) :
      Produces p t (.acquired m h)
        ((fun _ => (.marked m h, [])) <$> do
          expect ((← getBuffer h.buffer).ownedBy t) .ownedByRequester
          markTransient h.buffer)
  | insert (m : Message minimum) (h : Handle) :
      Produces p t (.marked m h) ((fun _ => (.holding m h, [])) <$> Pool.insert p .full h)
  | write (m : Message minimum) (h : Handle) :
      Produces p t (.holding m h)
        ((fun r => match r with
          | .ok () => (.written h, [.wrote m.bytes.length])
          | .error e => (.written h, [.refused e])) <$> PoolM.write h.buffer t m.bytes)
  | release (h : Handle) :
      Produces p t (.written h) ((fun _ => (.parting h, [])) <$> PoolM.release h.buffer)
  | drop (h : Handle) :
      Produces p t (.parting h) ((fun _ => (.idle, [])) <$> PoolM.drop h.buffer)

/-- What the consumer on thread `k` may do next. -/
inductive Consumes (p : PoolId) (k : Thread) : Pass → PoolM σ (Pass × List Mark) → Prop where
  | capture (dir : Direction) :
      Consumes p k .resting ((fun handles => (.visiting handles, [])) <$> Pool.capture p .full dir)
  | tryAcquire (h : Handle) (rest : List Handle) :
      Consumes p k (.visiting (h :: rest))
        ((fun won => (if won then .acquired h rest else .visiting rest, [])) <$>
          tryAcquire h.buffer k)
  | flush (h : Handle) (rest : List Handle) :
      Consumes p k (.acquired h rest)
        ((fun count => (.flushed h rest, [.drained count.toNat])) <$> flush h.buffer)
  | reset (h : Handle) (rest : List Handle) :
      Consumes p k (.flushed h rest) ((fun _ => (.emptied h rest, [])) <$> reset h.buffer k)
  | release (h : Handle) (rest : List Handle) :
      Consumes p k (.emptied h rest) ((fun _ => (.released h rest, [])) <$> release h.buffer)
  /-- The consumer gives up another reference than the one that it has captured. -/
  | giveBack (h : Handle) (rest : List Handle) :
      Consumes p k (.released h rest)
        ((fun _ => (.visiting rest, [])) <$> do
          retain h.buffer
          Pool.giveBack p .full h)
  | letGo : Consumes p k (.visiting []) ((fun _ => (.resting, [])) <$> modify (·.letGo))

namespace Plant

/-- Nobody has done anything yet. -/
def start (w : World σ) : Plant σ minimum := ⟨w, fun _ => .idle, .resting, []⟩

/-- A producer has made a step. -/
def produced (s : Plant σ minimum) (t : Thread)
    (r : EStateM.Result Fault (World σ) (Stage minimum × List Mark)) : Plant σ minimum :=
  match r with
  | .ok (stage, marks) w =>
    { s with world := w, producers := Function.update s.producers t stage, log := marks ++ s.log }
  | .error fault w => { s with world := w, log := .faulted fault :: s.log }

/-- The consumer has made a step. -/
def consumed (s : Plant σ minimum) (r : EStateM.Result Fault (World σ) (Pass × List Mark)) :
    Plant σ minimum :=
  match r with
  | .ok (pass, marks) w => { s with world := w, pass := pass, log := marks ++ s.log }
  | .error fault w => { s with world := w, log := .faulted fault :: s.log }

inductive Step (p : PoolId) (k : Thread) : Plant σ minimum → Plant σ minimum → Prop where
  | produce {s : Plant σ minimum} {t : Thread} {act : PoolM σ (Stage minimum × List Mark)}
      (ht : t ≠ k) (h : Produces p t (s.producers t) act) : Step p k s (s.produced t (act s.world))
  | consume {s : Plant σ minimum} {act : PoolM σ (Pass × List Mark)}
      (h : Consumes p k s.pass act) : Step p k s (s.consumed (act s.world))

inductive Reachable (p : PoolId) (k : Thread) (w : World σ) : Plant σ minimum → Prop where
  | start : Reachable p k w (start w)
  | step {s s' : Plant σ minimum} (h : Reachable p k w s) (hs : Step p k s s') : Reachable p k w s'

end Plant

end BufferPool
