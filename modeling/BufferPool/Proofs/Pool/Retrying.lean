import BufferPool.Proofs.Pool.Completion
import BufferPool.Proofs.Pool.Skipping

/-!
# Several attempts to take a free buffer

An attempt that finds nothing leaves everything in its place, so as long as nobody else does anything
another attempt finds nothing either. Several attempts are therefore as good as one. What tells them
apart are the instruments of the buffers, which count the attempts, and what is told about each of them.
-/

namespace BufferPool

open PoolM World

/-- Counts several attempts to acquire the buffer. -/
def Buffer.countAttempts (n : Nat) (b : Buffer) : Buffer :=
  { b with meter := b.meter.map fun m => { m with attempts := m.attempts + n } }

namespace Buffer

variable {b : Buffer}

theorem countAttempts_zero (b : Buffer) : b.countAttempts 0 = b := by
  have hmeter : b.meter.map (fun m => { m with attempts := m.attempts + 0 }) = b.meter :=
    Option.map_id'
  rw [countAttempts, hmeter]

theorem countAttempts_countAttempt (n : Nat) (b : Buffer) :
    b.countAttempt.countAttempts n = b.countAttempts (n + 1) := by
  rw [countAttempts, countAttempt, countAttempts, Option.map_map]
  congr 2
  funext m
  exact congrArg (fun k => { m with attempts := k }) (Nat.add_right_comm ..)

theorem Glanced.suits (size : UInt64) {b' : Buffer} (h : b.Glanced b') :
    b'.suits size = b.suits size := by
  rcases h with rfl | rfl <;> rfl

theorem Glanced.retired {b' : Buffer} (h : b.Glanced b') : b'.retired = b.retired := by
  rcases h with rfl | rfl <;> rfl

end Buffer

variable {σ : Type} {w w₁ w' w'' : World σ} {p : PoolId} {pool : Pool} {size : UInt64} {t : Thread}
  {n k count : Nat} {found : Option Handle} {b : BufferId} {entries : List (Arena.Key × BufferId)}

namespace World

/-- No pool has changed. Buffers may have been used, but none was made, and all that has happened is that
remarks on the pool were made. -/
structure OnlyLooks (p : PoolId) (w w' : World σ) : Prop where
  size : w'.cells.size = w.cells.size
  home : ∀ b, w'.home? b = w.home? b
  remarks : ∃ notes : List Note, w'.events = notes.map (.noted p) ++ w.events
  rest : w' = { w with cells := w'.cells, events := w'.events }

theorem OnlyLooks.refl (p : PoolId) (w : World σ) : OnlyLooks p w w :=
  ⟨rfl, fun _ => rfl, ⟨[], rfl⟩, rfl⟩

theorem OnlyLooks.note (h : OnlyLooks p w w') (remark : Note) :
    OnlyLooks p w (w'.emit (.noted p remark)) := by
  obtain ⟨notes, hevents⟩ := h.remarks
  refine ⟨h.size, h.home, ⟨remark :: notes, congrArg (List.cons _) hevents⟩, ?_⟩
  rw [emit, h.rest]

theorem LooksUp.onlyLooks (hl : w.LooksUp p size t entries found w') : OnlyLooks p w w' := by
  refine ⟨hl.size_eq, fun b => ?_, ⟨found.toList.map fun _ => .found size, ?_⟩, hl.rest⟩
  · rw [home?, hl.cells, Option.map_map, home?]
    congr 1
    funext c
    simp only [Function.comp_apply, Cell.lookedAt]
    split_ifs <;> rfl
  · rw [hl.events, List.map_map]
    rfl

/-- The pool is as much in order as before. -/
theorem Tidy.onlyLooks (ht : w.Tidy p pool) (h : OnlyLooks p w w') : w'.Tidy p pool :=
  ht.congr (by rw [h.rest]) h.home

theorem OnlyLooks.row (h : OnlyLooks p w w') (q : PoolId) (lane : Lane) :
    w'.row q lane = w.row q lane := by
  rw [h.rest]
  rfl

/-- What is told of attempts in vain from the given one on, the latest first. -/
def misses (p : PoolId) (size : UInt64) (retries first count : Nat) : List Event :=
  ((List.range' first count).map fun i => .noted p (.notFound i retries size)).reverse

/-- The entries were searched several times, and nothing was found. The buffers that were tried have
counted as many attempts. -/
structure SearchedInVain (p : PoolId) (size : UInt64) (retries first count : Nat)
    (entries : List (Arena.Key × BufferId)) (w w' : World σ) : Prop where
  cells : ∀ b : BufferId, w'.cells[b]? = w.cells[b]?.map fun c =>
    if b ∈ w.tried size entries then { c with buffer := c.buffer.countAttempts count } else c
  events : w'.events = misses p size retries first count ++ w.events
  rest : w' = { w with cells := w'.cells, events := w'.events }

/-- If nothing suits, everything is examined. -/
theorem mem_tried_of_none (hnone : w.choice size entries = none) :
    b ∈ w.tried size entries ↔ (w.buffer b).retired = false ∧ ∃ key, (key, b) ∈ entries := by
  rw [mem_tried_iff]
  refine and_congr_right fun _ => exists_congr fun key => ?_
  rw [List.mem_iff_append]
  refine exists_congr fun before => exists_congr fun after => and_iff_left_of_imp ?_
  rintro rfl e he
  exact List.find?_eq_none.1 hnone e (List.mem_append_left _ he)

/-- After an attempt in vain, nothing suits either. -/
theorem choice_of_glanced (h : ∀ b, (w.buffer b).Glanced (w'.buffer b))
    (hnone : w.choice size entries = none) : w'.choice size entries = none := by
  rw [choice, List.find?_eq_none] at hnone ⊢
  intro e he
  rw [(h e.2).suits]
  exact hnone e he

theorem searchedInVain_zero (p : PoolId) (size : UInt64) (retries first : Nat)
    (entries : List (Arena.Key × BufferId)) (w : World σ) :
    SearchedInVain p size retries first 0 entries w w := by
  refine ⟨fun b => ?_, rfl, rfl⟩
  simp only [Buffer.countAttempts_zero, ite_self, Option.map_id']

theorem misses_succ (p : PoolId) (size : UInt64) (retries first count : Nat) :
    misses p size retries first (count + 1) =
      misses p size retries (first + 1) count ++ [.noted p (.notFound first retries size)] := by
  rw [misses, List.range'_succ, List.map_cons, List.reverse_cons, misses]

/-- One attempt in vain, and then several more. -/
theorem SearchedInVain.cons (hl : w.LooksUp p size t entries none w₁)
    (hrest : SearchedInVain p size n (k + 1) count entries
      (w₁.emit (.noted p (.notFound k n size))) w') :
    SearchedInVain p size n k (count + 1) entries w w' := by
  have hglanced : ∀ b, (w.buffer b).Glanced (w₁.buffer b) := hl.abstains.buffer
  have hnone : w.choice size entries = none := Option.map_eq_none_iff.1 hl.first.symm
  have htried : ∀ b, b ∈ (w₁.emit (.noted p (.notFound k n size))).tried size entries ↔
      b ∈ w.tried size entries := by
    intro b
    have hretired : (w₁.buffer b).retired = (w.buffer b).retired := (hglanced b).retired
    rw [mem_tried_of_none hnone, ← hretired]
    exact mem_tried_of_none (choice_of_glanced hglanced hnone)
  refine ⟨fun b => ?_, ?_, ?_⟩
  · rw [hrest.cells]
    change (w₁.cells[b]?).map _ = _
    rw [hl.cells, Option.map_map]
    congr 1
    funext c
    by_cases hb : b ∈ w.tried size entries
    · simp [Cell.lookedAt, htried, hb, Buffer.countAttempts_countAttempt]
    · simp [Cell.lookedAt, htried, hb]
  · rw [hrest.events, misses_succ, List.append_assoc]
    exact congrArg (fun events => _ ++ _ :: events) hl.events
  · rw [hrest.rest, emit, hl.rest]

theorem SearchedInVain.onlyLooks (h : SearchedInVain p size n k count entries w w') :
    OnlyLooks p w w' := by
  have hcell : ∀ b : BufferId, w'.home? b = w.home? b := by
    intro b
    rw [home?, h.cells, Option.map_map, home?]
    congr 1
    funext c
    simp only [Function.comp_apply]
    split_ifs <;> rfl
  refine ⟨eq_of_forall_lt_iff fun b => ?_, hcell,
    ⟨((List.range' k count).map fun i => .notFound i n size).reverse, ?_⟩, h.rest⟩
  · rw [← isSome_getElem? w'.cells b, h.cells, Option.isSome_map, isSome_getElem?]
  · rw [h.events, misses, List.map_reverse, List.map_map]
    rfl

/-- All buffers are as they were, apart from their instruments. -/
theorem SearchedInVain.bare (h : SearchedInVain p size n k count entries w w') (b : BufferId) :
    (w'.buffer b).bare = (w.buffer b).bare := by
  rw [World.buffer, h.cells, World.buffer]
  cases w.cells[b]? with
  | none => rfl
  | some c =>
      rw [Option.map_some]
      split_ifs <;> rfl

end World

namespace Pool

/-- One attempt to take a free buffer, when there are so many more. -/
def attempt (p : PoolId) (size : UInt64) (retries : Nat) (t : Thread) (more : Nat) :
    PoolM σ (Option Handle) := do
  let found ← take p size t
  if found.isNone then note p (.notFound (retries - (more + 1)) retries size)
  return found

/-- To try several times is to try once and, if nothing is found, to go on. -/
theorem takeWithin_succ (p : PoolId) (size : UInt64) (retries : Nat) (t : Thread) (more : Nat) :
    takeWithin (σ := σ) p size retries t (more + 1) = (do
      match ← attempt p size retries t more with
      | some h => return some h
      | none => takeWithin p size retries t more) := by
  rw [takeWithin, attempt, bind_assoc]
  congr 1
  funext found
  cases found <;> rfl

theorem attempt_of_none (retries more : Nat) (hfind : find p size t w = .ok none w') :
    attempt p size retries t more w =
      .ok none (w'.emit (.noted p (.notFound (retries - (more + 1)) retries size))) := by
  rw [attempt, take, bind_of_ok _ hfind]
  rfl

theorem attempt_of_some (retries more : Nat) {h : Handle}
    (hfind : find p size t w = .ok (some h) w') :
    attempt p size retries t more w = .ok (some h) w' := by
  rw [attempt, take, bind_of_ok _ hfind]
  rfl

/-- Where there is nothing to be found, all attempts are made. -/
theorem takeWithin_of_none (ht : w.Tidy p pool) (size : UInt64) (t : Thread) (retries : Nat)
    (hnone : w.choice size (w.row p .free) = none) {count : Nat} (hcount : count ≤ retries) :
    ∃ w', takeWithin p size retries t count w = .ok none w' ∧
      SearchedInVain p size retries (retries - count) count (w.row p .free) w w' := by
  induction count generalizing w with
  | zero => exact ⟨w, rfl, searchedInVain_zero p size retries _ _ w⟩
  | succ count ih =>
      obtain ⟨found, w₁, hfind, hl⟩ := find_tidy ht size t
      obtain rfl : found = none := by rw [hl.first, hnone]; rfl
      let w₂ := w₁.emit (.noted p (.notFound (retries - (count + 1)) retries size))
      have hattempt : attempt p size retries t count w = .ok none w₂ :=
        attempt_of_none retries count hfind
      have hlooks : OnlyLooks p w w₂ := hl.onlyLooks.note _
      have hnone₂ : w₂.choice size (w₂.row p .free) = none := by
        rw [hlooks.row]
        exact choice_of_glanced hl.abstains.buffer hnone
      obtain ⟨w', hrest, hvain⟩ := ih (ht.onlyLooks hlooks) hnone₂ (Nat.le_of_succ_le hcount)
      refine ⟨w', ?_, ?_⟩
      · rw [takeWithin_succ, bind_of_ok _ hattempt]
        exact hrest
      · rw [hlooks.row, show retries - count = retries - (count + 1) + 1 by omega] at hvain
        exact hvain.cons hl

/-- Where there is something to be found, the first attempt finds it. -/
theorem takeWithin_of_some {h : Handle} (hfind : find p size t w = .ok (some h) w')
    (retries count : Nat) : takeWithin p size retries t (count + 1) w = .ok (some h) w' := by
  rw [takeWithin_succ, bind_of_ok _ (attempt_of_some retries count hfind)]
  rfl

/-- An attempt does not fault, and it only looks. -/
theorem attempt_onlyLooks (ht : w.Tidy p pool) (size : UInt64) (t : Thread) (retries more : Nat) :
    ∃ found w', attempt p size retries t more w = .ok found w' ∧ OnlyLooks p w w' := by
  obtain ⟨found, w₁, hfind, hl⟩ := find_tidy ht size t
  cases found with
  | none => exact ⟨_, _, attempt_of_none retries more hfind, hl.onlyLooks.note _⟩
  | some h => exact ⟨_, _, attempt_of_some retries more hfind, hl.onlyLooks⟩

theorem takeRetrying_of_fits (hp : w.pool? p = some pool) (size : UInt64) (n : Nat) (t : Thread)
    (hfits : w.profile = .checked → size ≤ pool.minimum) :
    takeRetrying p size n t w = takeWithin p size n t n w := by
  have hexpect : expect (decide (size ≤ pool.minimum)) .fitsSmallestClass w = .ok () w := by
    cases hprofile : w.profile with
    | checked =>
        rw [decide_eq_true (hfits hprofile)]
        exact expect_true _ w
    | unchecked => exact expect_of_unchecked _ _ hprofile
  rw [takeRetrying, bind_of_ok _ (getPool_of_some hp), bind_of_ok _ hexpect]

/-- In the checked profile a request that no free buffer can be sure to serve is refused. -/
theorem takeRetrying_of_unfit (hp : w.pool? p = some pool) (n : Nat) (t : Thread)
    (hchecked : w.profile = .checked) (hunfit : ¬size ≤ pool.minimum) :
    takeRetrying p size n t w = .error (.unexpected .fitsSmallestClass) w := by
  have hexpect : expect (decide (size ≤ pool.minimum)) .fitsSmallestClass w =
      .error (.unexpected .fitsSmallestClass) w := by
    rw [decide_eq_false hunfit]
    exact expect_of_checked _ hchecked
  rw [takeRetrying, bind_of_ok _ (getPool_of_some hp), bind_of_error _ hexpect]

/-- If there is a buffer to be found, it is found at once. Otherwise all attempts are made in vain. -/
theorem takeRetrying_eq_take (ht : w.Tidy p pool) (size : UInt64) (t : Thread)
    (hfits : w.profile = .checked → size ≤ pool.minimum) :
    ∃ found w₁, take p size t w = .ok found w₁ ∧ w.LooksUp p size t (w.row p .free) found w₁ ∧
      ∀ n, 0 < n → ∃ w', takeRetrying p size n t w = .ok found w' ∧
        (found.isSome = true → w' = w₁) ∧
        (found = none → SearchedInVain p size n 0 n (w.row p .free) w w') := by
  obtain ⟨found, w₁, hfind, hl⟩ := find_tidy ht size t
  refine ⟨found, w₁, hfind, hl, fun n hn => ?_⟩
  rw [takeRetrying_of_fits ht.present size n t hfits]
  cases found with
  | some h =>
      obtain ⟨count, rfl⟩ := Nat.exists_eq_add_one_of_ne_zero (Nat.ne_of_gt hn)
      exact ⟨w₁, takeWithin_of_some hfind _ count, fun _ => rfl, nofun⟩
  | none =>
      have hnone : w.choice size (w.row p .free) = none := Option.map_eq_none_iff.1 hl.first.symm
      obtain ⟨w', hr, hvain⟩ := takeWithin_of_none ht size t n hnone (Nat.le_refl n)
      rw [Nat.sub_self] at hvain
      exact ⟨w', hr, nofun, fun _ => hvain⟩

/-- However many attempts are made, whatever is requested and however it ends, nothing is requested from
a heap, nothing is registered, and nothing moves. -/
theorem onlyLooks_takeRetrying (ht : w.Tidy p pool) (size : UInt64) (n : Nat) (t : Thread) :
    OnlyLooks p w ((takeRetrying p size n t).leaves w) := by
  by_cases hfits : w.profile = .checked → size ≤ pool.minimum
  · obtain ⟨found, w₁, -, hl, hmore⟩ := takeRetrying_eq_take ht size t hfits
    cases n with
    | zero =>
        rw [leaves_of_ok (takeRetrying_of_fits ht.present size 0 t hfits)]
        exact .refl p w
    | succ n =>
        obtain ⟨w', hr, hsome, hnone⟩ := hmore (n + 1) (Nat.succ_pos n)
        rw [leaves_of_ok hr]
        cases found with
        | some h => exact hsome rfl ▸ hl.onlyLooks
        | none => exact (hnone rfl).onlyLooks
  · obtain ⟨hchecked, hunfit⟩ := Classical.not_imp.1 hfits
    rw [leaves_of_error (takeRetrying_of_unfit ht.present n t hchecked hunfit)]
    exact .refl p w

end Pool

end BufferPool
