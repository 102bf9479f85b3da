import BufferPool.Pool.Traversal
import BufferPool.Proofs.World.Outcome

/-!
# Traversals and their visits

A traversal visits what it has captured, one buffer after another, each visit beginning in the world that
the one before has left. Which visits are made, and what the traversal says in the end, depends on the
capture and on the answers of the visitor alone: whatever the visits do to the pool, they have no
influence on it.
-/

namespace BufferPool.Pool

open PoolM World

variable {σ α : Type}

/-- Visits one after another, and what each of them answers. -/
inductive Visits (visit : α → Handle → PoolM σ (Bool × α)) :
    α → World σ → List (Handle × Bool) → α → World σ → Prop where
  | done (a : α) (w : World σ) : Visits visit a w [] a w
  | visit {a a₁ a₂ : α} {w w₁ w₂ : World σ} {h : Handle} {more : Bool} {log : List (Handle × Bool)}
      (hv : visit a h w = .ok (more, a₁) w₁) (rest : Visits visit a₁ w₁ log a₂ w₂) :
      Visits visit a w ((h, more) :: log) a₂ w₂

/-- The visits that some handles get in their order, and whether none of the visits stops. -/
inductive VisitLog (handles : List Handle) : Bool → List (Handle × Bool) → Prop where
  | whole : VisitLog handles true (handles.map (·, true))
  | stopped {front rest : List Handle} {h : Handle} (hsplit : handles = front ++ h :: rest) :
      VisitLog handles false (front.map (·, true) ++ [(h, false)])

variable {visit : α → Handle → PoolM σ (Bool × α)} {a a' : α} {w w' : World σ} {h : Handle}
  {handles rest : List Handle} {done : Bool} {log : List (Handle × Bool)} {fault : Fault}

theorem visitLog_nil_iff : VisitLog [] done log ↔ done = true ∧ log = [] := by
  constructor
  · rintro (_ | hsplit)
    · exact ⟨rfl, rfl⟩
    · simp at hsplit
  · rintro ⟨rfl, rfl⟩
    exact .whole

/-- The first visit either stops or is followed by the visits of the rest. -/
theorem visitLog_cons_iff : VisitLog (h :: rest) done log ↔
    (done = false ∧ log = [(h, false)]) ∨ ∃ log', log = (h, true) :: log' ∧ VisitLog rest done log' := by
  constructor
  · rintro (_ | @⟨front, rest', h', hsplit⟩)
    · exact .inr ⟨_, rfl, .whole⟩
    · cases front with
      | nil =>
          obtain ⟨rfl, -⟩ := List.cons.inj hsplit
          exact .inl ⟨rfl, rfl⟩
      | cons first front =>
          obtain ⟨rfl, hrest⟩ := List.cons.inj hsplit
          exact .inr ⟨_, rfl, .stopped hrest⟩
  · rintro (⟨rfl, rfl⟩ | ⟨log', rfl, hc⟩)
    · have hsplit : h :: rest = [] ++ h :: rest := rfl
      exact .stopped hsplit
    · cases hc with
      | whole => exact .whole
      | @stopped front rest' h' hsplit =>
          have hcons : h :: rest = (h :: front) ++ h' :: rest' := congrArg (h :: ·) hsplit
          exact .stopped hcons

/-- Nothing is visited out of turn. -/
theorem VisitLog.visited (hc : VisitLog handles done log) : log.map (·.1) <+: handles := by
  cases hc with
  | whole =>
      rw [List.map_map]
      exact ⟨[], by simp [Function.comp_def]⟩
  | @stopped front rest h hsplit => exact ⟨rest, by simp [hsplit, Function.comp_def]⟩

/-- The answer says whether no visit has stopped. -/
theorem VisitLog.done_iff (hc : VisitLog handles done log) : done = true ↔ ∀ e ∈ log, e.2 = true := by
  cases hc with
  | whole => simp
  | stopped => simp

/-- A loop that ends has made the visits of a log. -/
theorem visitAll_eq_ok_iff : visitAll visit a handles w = .ok (done, a') w' ↔
    ∃ log, VisitLog handles done log ∧ Visits visit a w log a' w' := by
  induction handles generalizing a w with
  | nil =>
      constructor
      · intro hr
        cases hr
        exact ⟨[], .whole, .done _ _⟩
      · rintro ⟨log, hc, ht⟩
        obtain ⟨rfl, rfl⟩ := visitLog_nil_iff.1 hc
        cases ht
        rfl
  | cons h rest ih =>
      rw [visitAll]
      constructor
      · intro hr
        obtain ⟨⟨more, a₁⟩, w₁, hv, hr⟩ := bind_eq_ok hr
        cases more with
        | true =>
            obtain ⟨log, hc, ht⟩ := ih.1 hr
            exact ⟨_, visitLog_cons_iff.2 (.inr ⟨log, rfl, hc⟩), .visit hv ht⟩
        | false =>
            cases hr
            exact ⟨_, visitLog_cons_iff.2 (.inl ⟨rfl, rfl⟩), .visit hv (.done _ _)⟩
      · rintro ⟨log, hc, ht⟩
        rcases visitLog_cons_iff.1 hc with ⟨rfl, rfl⟩ | ⟨log', rfl, hc'⟩
        · obtain _ | ⟨hv, ht'⟩ := ht
          cases ht'
          rw [bind_of_ok _ hv]
          rfl
        · obtain _ | ⟨hv, ht'⟩ := ht
          rw [bind_of_ok _ hv]
          exact ih.2 ⟨log', hc', ht'⟩

/-- A loop that faults has come to a visit that faults. -/
theorem visitAll_eq_error_iff : visitAll visit a handles w = .error fault w' ↔
    ∃ front h rest a₁ w₁, handles = front ++ h :: rest ∧
      Visits visit a w (front.map (·, true)) a₁ w₁ ∧ visit a₁ h w₁ = .error fault w' := by
  induction handles generalizing a w with
  | nil =>
      refine iff_of_false nofun ?_
      rintro ⟨front, h, rest, _, _, hsplit, -⟩
      simp at hsplit
  | cons first others ih =>
      rw [visitAll]
      constructor
      · intro hr
        cases hv : visit a first w with
        | error fault' w₁ =>
            rw [bind_of_error _ hv] at hr
            cases hr
            exact ⟨[], first, others, a, w, rfl, .done a w, hv⟩
        | ok r w₁ =>
            obtain ⟨more, a₁⟩ := r
            rw [bind_of_ok _ hv] at hr
            cases more with
            | true =>
                obtain ⟨front, h, rest, a₂, w₂, rfl, ht, he⟩ := ih.1 hr
                exact ⟨first :: front, h, rest, a₂, w₂, rfl, .visit hv ht, he⟩
            | false => cases hr
      · rintro ⟨front, h, rest, a₁, w₁, hsplit, ht, he⟩
        cases front with
        | nil =>
            obtain ⟨rfl, rfl⟩ := List.cons.inj hsplit
            cases ht
            exact bind_of_error _ he
        | cons g front =>
            obtain ⟨rfl, hrest⟩ := List.cons.inj hsplit
            obtain _ | ⟨hv, ht'⟩ := ht
            rw [bind_of_ok _ hv]
            exact ih.2 ⟨front, h, rest, a₁, w₁, hrest, ht', he⟩

variable {p : PoolId} {lane : Lane} {dir : Direction} {w₀ : World σ} {start : α}

/-- The world in which the first visit begins, when something was captured. -/
def embarked (p : PoolId) (lane : Lane) (dir : Direction) (handles : List Handle) (w : World σ) :
    World σ :=
  (w.hold handles).emit (.noted p (.traversing lane dir handles.length))

/-- A traversal is a loop over the capture, which is let go of in the end. -/
theorem travel_of_capture (hcap : capture p lane dir w₀ = .ok handles (w₀.hold handles))
    (visit : α → Handle → PoolM σ (Bool × α)) (start : α) :
    travel p (.lane lane) dir visit start w₀ =
      match visitAll visit start handles (embarked p lane dir handles w₀) with
      | .ok (done, a) w₁ => .ok (some done, a) w₁.letGo
      | .error fault w₁ => .error fault w₁.letGo := by
  have htraverse : traverse p lane dir visit start w₀ =
      ensuring (·.letGo) (visitAll visit start handles) (embarked p lane dir handles w₀) :=
    bind_of_ok _ hcap
  cases hr : visitAll visit start handles (embarked p lane dir handles w₀) with
  | ok r w₁ =>
      have hend : traverse p lane dir visit start w₀ = .ok r w₁.letGo := by
        rw [htraverse, ensuring, hr]
      exact bind_of_ok _ hend
  | error fault w₁ =>
      have hend : traverse p lane dir visit start w₀ = .error fault w₁.letGo := by
        rw [htraverse, ensuring, hr]
      exact bind_of_error _ hend

/-- A traversal that ends has made the visits of a log of the capture. -/
theorem travel_eq_ok_iff (hcap : capture p lane dir w₀ = .ok handles (w₀.hold handles))
    {answer : Option Bool} :
    travel p (.lane lane) dir visit start w₀ = .ok (answer, a') w' ↔
      ∃ done log w₁, VisitLog handles done log ∧
        Visits visit start (embarked p lane dir handles w₀) log a' w₁ ∧
        answer = some done ∧ w' = w₁.letGo := by
  rw [travel_of_capture hcap]
  constructor
  · intro hr
    split at hr
    next done a w₁ hall =>
      cases hr
      obtain ⟨log, hc, ht⟩ := visitAll_eq_ok_iff.1 hall
      exact ⟨done, log, w₁, hc, ht, rfl, rfl⟩
    next => cases hr
  · rintro ⟨done, log, w₁, hc, ht, rfl, rfl⟩
    rw [visitAll_eq_ok_iff.2 ⟨log, hc, ht⟩]

/-- A traversal faults only if a visit does. -/
theorem travel_eq_error_iff (hcap : capture p lane dir w₀ = .ok handles (w₀.hold handles)) :
    travel p (.lane lane) dir visit start w₀ = .error fault w' ↔
      ∃ front h rest a₁ w₁ w₂, handles = front ++ h :: rest ∧
        Visits visit start (embarked p lane dir handles w₀) (front.map (·, true)) a₁ w₁ ∧
        visit a₁ h w₁ = .error fault w₂ ∧ w' = w₂.letGo := by
  rw [travel_of_capture hcap]
  constructor
  · intro hr
    split at hr
    next => cases hr
    next fault w₂ hall =>
      cases hr
      obtain ⟨front, h, rest, a₁, w₁, hsplit, ht, he⟩ := visitAll_eq_error_iff.1 hall
      exact ⟨front, h, rest, a₁, w₁, w₂, hsplit, ht, he, rfl⟩
  · rintro ⟨front, h, rest, a₁, w₁, w₂, hsplit, ht, he, rfl⟩
    rw [visitAll_eq_error_iff.2 ⟨front, h, rest, a₁, w₁, hsplit, ht, he⟩]

end BufferPool.Pool
