import BufferPool.Proofs.World.Bulletin

/-!
# What is on record

Most events are heard by somebody outside: by a heap, by the listener of a pool, by its rule, or by
whoever follows the lanes. The others are notes for a log, and payloads that go back to their heap when
the last reference is dropped. What is on record are all events but those.
-/

namespace BufferPool

variable {σ : Type}

namespace Event

def isRecorded : Event → Bool
  | .noted .. | .freed .. => false
  | _ => true

/-- Whether the event tells that the heap of a pool was asked for a payload. -/
def asks (p : PoolId) (size : UInt64) : Event → Bool
  | .granted q _ _ s | .refused q s | .unserved q s => q == p && s == size
  | _ => false

end Event

namespace World

/-- All events but notes and payloads that go back, the latest first. -/
def record (w : World σ) : List Event := w.events.filter Event.isRecorded

theorem record_congr {w w' : World σ} (h : w'.events = w.events) : w'.record = w.record := by
  rw [record, h, record]

theorem record_append {w w' : World σ} {told : List Event} (h : w'.events = told ++ w.events) :
    w'.record = told.filter Event.isRecorded ++ w.record := by
  rw [record, h, List.filter_append, record]

@[simp] theorem record_drop (w : World σ) (b : BufferId) : (w.drop b).record = w.record := by
  rcases events_drop w b with h | ⟨c, -, h⟩
  · exact record_congr h
  · rw [record, h]
    exact List.filter_cons_of_neg Bool.false_ne_true

@[simp] theorem record_dropAll (w : World σ) (handles : List Handle) :
    (w.dropAll handles).record = w.record := by
  induction handles generalizing w with
  | nil => rfl
  | cons h rest ih => exact (ih _).trans (record_drop w h.buffer)

@[simp] theorem record_hold (w : World σ) (handles : List Handle) :
    (w.hold handles).record = w.record := by
  have hfold : ∀ (handles : List Handle) (w : World σ),
      (handles.foldl (fun w h => w.retain h.buffer) w).events = w.events := by
    intro handles
    induction handles with
    | nil => exact fun _ => rfl
    | cons h rest ih => exact fun w => ih (w.retain h.buffer)
  exact record_congr (hfold handles w)

@[simp] theorem record_letGo (w : World σ) : w.letGo.record = w.record := by
  unfold letGo
  cases w.held with
  | nil => rfl
  | cons handles outer => exact record_dropAll w handles

end World

end BufferPool
