import BufferPool.Proofs.Pool.Sweeping

/-!
# Whom a visit leaves as the owner

A visit acquires for the thread that made the sweep and empties for the thread that runs. If these are
one thread, or if somebody owns the buffer already, the visit comes to its end. Otherwise it acquires
the buffer for a thread that does not run, and then it may not empty it: it faults, and the buffer stays
with its new owner. That is the only way in which a sweep leaves a buffer owned that nobody owned.
-/

namespace BufferPool

open PoolM World

variable {σ α : Type} {me : Thread} {s : Sweep} {h : Handle} {w : World σ} {b : BufferId}

namespace World

/-- A buffer that does not exist cannot be changed. -/
theorem modifyBuffer_of_size_le (f : Buffer → Buffer) (hb : w.cells.size ≤ b) :
    w.modifyBuffer b f = w := by
  have hcells : w.cells.modify b (fun c => { c with buffer := f c.buffer }) = w.cells := by
    apply Array.ext_getElem?
    intro i
    rw [Array.getElem?_modify]
    split_ifs with hi
    · rw [← hi, Array.getElem?_eq_none hb]
      rfl
    · rfl
  rw [modifyBuffer, hcells]

theorem buffer_of_size_le (hb : w.cells.size ≤ b) : w.buffer b = .absent := by
  rw [buffer, Array.getElem?_eq_none hb]
  rfl

end World

namespace Sweep

/-- The maker of the sweep becomes the owner, and the thread that runs may not empty the buffer. -/
theorem visit_of_stranger (hmaker : s.maker ≠ me)
    (hlasting : (w.buffer h.buffer).transient = false) (hfree : (w.buffer h.buffer).owner = none)
    (hlt : h.buffer < w.cells.size) :
    s.visit me h w =
      .error .resetByOther (w.modifyBuffer h.buffer fun b => b.countAttempt.claim s.maker) := by
  let claimed := (w.buffer h.buffer).countAttempt.claim s.maker
  let w₁ := w.modifyBuffer h.buffer fun _ => claimed
  have hother : (w.buffer h.buffer).ownedBy me = false := by
    rw [Buffer.ownedBy, hfree]
    rfl
  have hwon : (w.buffer h.buffer).tryAcquire s.maker = (true, claimed) := by
    rw [Buffer.tryAcquire, hfree]
    rfl
  have hhold : s.hold me h.buffer w = .ok true w₁ := by
    rw [hold, getBuffer_bind, hother, if_neg Bool.false_ne_true, tryAcquire_ok, hwon]
  have hstill : (w₁.buffer h.buffer).ownedBy me = false := by
    rw [buffer_modifyBuffer_self _ hlt]
    exact beq_eq_false_iff_ne.2 fun he => hmaker (Option.some.inj he)
  have hreset : reset h.buffer me w₁ = .error .resetByOther w₁ := by
    rw [reset, getBuffer_bind, hstill, if_neg Bool.false_ne_true]
    rfl
  rw [visit, getBuffer_bind, hlasting, if_neg Bool.false_ne_true, bind_of_ok _ hhold, if_pos rfl,
    recycle, bind_assoc, bind_of_error _ hreset]
  exact congrArg (EStateM.Result.error Fault.resetByOther) (modifyBuffer_congr rfl)

/-- A visit to a buffer that does not exist faults, and that is all. -/
theorem visit_of_absent (hge : w.cells.size ≤ h.buffer) : (s.visit me h).leaves w = w := by
  have habsent := buffer_of_size_le hge
  have hnot : Buffer.absent.ownedBy me = false := rfl
  have hlasting : (w.buffer h.buffer).transient = false := congrArg Buffer.transient habsent
  have hhold : s.hold me h.buffer w = .ok true w := by
    rw [hold, getBuffer_bind, habsent, hnot, if_neg Bool.false_ne_true, tryAcquire_ok,
      modifyBuffer_of_size_le _ hge, habsent]
    rfl
  have hreset : reset h.buffer me w = .error .resetByOther w := by
    rw [reset, getBuffer_bind, habsent, hnot, if_neg Bool.false_ne_true]
    rfl
  apply leaves_of_error
  rw [visit, getBuffer_bind, hlasting, if_neg Bool.false_ne_true, bind_of_ok _ hhold, if_pos rfl,
    recycle, bind_assoc, bind_of_error _ hreset]

/-- A visit leaves every buffer but the one that is visited, and that one, too, if it is a one-shot
buffer. -/
theorem buffer_visit (me : Thread) (s : Sweep) (h : Handle) (b : BufferId) (w : World σ) :
    ((s.visit me h).leaves w).buffer b = w.buffer b ∨
      b = h.buffer ∧ b < w.cells.size ∧ (w.buffer b).transient = false := by
  by_cases hb : b = h.buffer
  · subst hb
    cases hone : (w.buffer h.buffer).transient with
    | true =>
        have hspares := (Pool.spares_giveBack (σ := σ) s.pool s.lane h).bind fun _ =>
          .pure (true, s.counted)
        left
        rw [leaves, visit_of_transient hone]
        exact (hspares.buffer_leaves _ h.buffer).trans (buffer_retain ..)
    | false =>
        rcases Nat.lt_or_ge h.buffer w.cells.size with hlt | hge
        · exact .inr ⟨rfl, hlt, rfl⟩
        · exact .inl (congrArg (World.buffer · h.buffer) (visit_of_absent hge))
  · exact .inl (keeps_visit me s hb _ w rfl)

/-- Nobody owns the buffer. -/
def Free (b : BufferId) (w : World σ) : Prop := (w.buffer b).owner = none

/-- Nobody owns the buffer, unless the maker of a sweep that another thread runs does. -/
def FreeUnlessStranded (maker me : Thread) (b : BufferId) (w : World σ) : Prop :=
  Free b w ∨ maker ≠ me ∧ (w.buffer b).owner = some maker

theorem Free.congr {w' : World σ} (hw : Free b w) (h : w'.buffer b = w.buffer b) : Free b w' :=
  (congrArg Buffer.owner h).trans hw

/-- A visit that ends leaves free what was free. -/
theorem triple_locks_visit (me : Thread) (s : Sweep) (h : Handle) (b : BufferId) :
    Triple (σ := σ) (Free b) (s.visit me h) (fun _ => Free b)
      (FreeUnlessStranded s.maker me b) := by
  intro w hfree
  rcases buffer_visit me s h b w with hsame | ⟨rfl, hlt, hlasting⟩
  · have hleaves : Triple (· = w) (s.visit me h) (fun _ => Free b) (Free b) :=
      .of_leaves fun w' hw => hfree.congr (hw ▸ hsame)
    exact hleaves.fault (fun _ => .inl) w rfl
  · by_cases hmaker : s.maker = me
    · have hr : recycles me (w.buffer h.buffer) = true := recycles_iff.2 ⟨hlasting, .inl hfree⟩
      rw [visit_of_lasting hmaker hlasting hlt]
      change (World.buffer _ _).owner = none
      rw [buffer_modifyBuffer_self _ hlt]
      exact (emptied_swept hr).owner
    · rw [visit_of_stranger hmaker hlasting hfree hlt]
      refine .inr ⟨hmaker, ?_⟩
      rw [buffer_modifyBuffer_self _ hlt]
      rfl

theorem triple_locks_capture (p : PoolId) (lane : Lane) (dir : Direction) (b : BufferId) :
    Triple (σ := σ) (Free b) (Pool.capture p lane dir) (fun _ => Free b) (Free b) := by
  refine .of_leaves fun w hw => hw.congr ?_
  have hspares : Spares (Pool.capture (σ := σ) p lane dir) :=
    (spares_onArena p _).bind fun _ => (Spares.modify fun w => buffer_hold w _).bind fun _ => .pure _
  exact hspares.buffer_leaves w b

/-- So does a pass that ends. -/
theorem triple_locks_pass (me : Thread) (route : Pool.Route) (dir : Direction) (s : Sweep)
    (b : BufferId) :
    Triple (σ := σ) (Free b) (s.pass me route dir)
      (fun s' w => Free b w ∧ s'.maker = s.maker) (FreeUnlessStranded s.maker me b) := by
  have hlet : ∀ w : World σ, Free b w → Free b w.letGo := fun w hw => hw.congr (buffer_letGo w b)
  refine Triple.bind (Q := fun r w => Free b w ∧ r.2.maker = s.maker)
    (Pool.triple_travel (Q := fun (s' : Sweep) w => Free b w ∧ s'.maker = s.maker)
      (P := fun _ _ (s' : Sweep) w => Free b w ∧ s'.maker = s.maker)
      (F := fun _ => FreeUnlessStranded s.maker me b) (fun _ => .inl)
      (fun _ _ hw _ _ => ⟨hw, rfl⟩) ((triple_locks_capture s.pool _ dir b).weaken (fun _ hw => hw)
        (fun _ _ hw => ⟨hw, rfl⟩) fun _ => .inl) ?visit (fun _ _ w hw => ⟨hlet w hw.1, hw.2⟩)
      ?fault) fun _ => .pure fun _ hw => hw
  case visit =>
    rintro - s' h -
    intro w ⟨hw, hmaker⟩
    have hvisit := triple_locks_visit me s' h b w hw
    rw [hmaker] at hvisit
    cases hr : s'.visit me h w with
    | error fault w' =>
        rw [hr] at hvisit
        exact hvisit
    | ok r w' =>
        rw [hr] at hvisit
        have hmaker' : r.2.maker = s.maker := by
          rw [(visit_eq_ok hr).2, ← hmaker]
          split_ifs <;> rfl
        exact ⟨⟨hvisit, hmaker'⟩, fun _ => ⟨hlet w' hvisit, hmaker'⟩⟩
  case fault =>
    rintro - w (hw | ⟨hmaker, howner⟩)
    · exact .inl (hlet w hw)
    · exact .inr ⟨hmaker, (congrArg Buffer.owner (buffer_letGo w b)).trans howner⟩

/-- And so do several of them. -/
theorem triple_locks_passes (me : Thread) (route : Pool.Route) (dir : Direction) (n : Nat) (s : Sweep)
    (b : BufferId) :
    Triple (σ := σ) (Free b) (passes me route dir n s) (fun _ => Free b)
      (FreeUnlessStranded s.maker me b) := by
  induction n generalizing s with
  | zero => exact .pure fun _ hw => hw
  | succ n ih =>
      refine Triple.bind (triple_locks_pass me route dir s b) fun s' => ?_
      intro w ⟨hw, hmaker⟩
      have hrest := (ih s').bind fun counts =>
        Triple.pure (a := s'.processed :: counts) (Q := fun _ => Free b) fun _ hw => hw
      rw [hmaker] at hrest
      exact hrest w hw

end Sweep

end BufferPool
