import BufferPool.Proofs.Arena.Contents
import BufferPool.Proofs.Pool.Outcome
import BufferPool.Proofs.World.Acts

/-!
# Looking buffers up

A lookup examines the free lane from the head up to the first buffer that suits. Whatever it examines
and is not retired it tries to acquire, once. A buffer that was acquired and does not suit is given up
again, so a lookup changes one buffer only, the one it finds: the others at most count the attempt.
-/

namespace BufferPool

open PoolM World

/-- The buffer is not retired, nobody owns it and it has `size` bytes of free space. -/
def Buffer.suits (size : UInt64) (b : Buffer) : Bool :=
  !b.retired && b.owner.isNone && decide (size ≤ b.freeSize)

theorem Buffer.suits_iff {size : UInt64} {b : Buffer} :
    b.suits size = true ↔ b.retired = false ∧ b.owner = none ∧ size ≤ b.freeSize := by
  simp [Buffer.suits, and_assoc]

/-- No value is twice in a lane. -/
theorem Arena.exists_entries_forward {α : Type} {a : Arena α} (hs : a.Sound) (hv : a.values.Nodup)
    (lane : Lane) : ∃ entries, a.entries lane .forward = .ok entries ∧
      (entries.map (·.2)).Nodup ∧ ∀ e ∈ entries, a.place? e.1 = some (e.2, some lane) := by
  obtain ⟨wiring, hw⟩ := hs
  have hplace : ∀ e ∈ (wiring.lane lane).filterMap a.entryAt?, a.place? e.1 = some (e.2, some lane) :=
    fun _ he => place?_of_mem_entries (hw.lanes lane) he
  refine ⟨_, (hw.lanes lane).entries_forward, ?_, hplace⟩
  refine List.Nodup.map_on (fun e he e' he' hsame => ?_) (List.Nodup.of_map _ (hw.nodup_order lane))
  have hk := hplace e he
  rw [hsame] at hk
  exact Prod.ext (key_eq_of_nodup_values hv hk (hplace e' he')) hsame

namespace Buffer

theorem perform_tryAcquire_of_free {b : Buffer} (h : b.owner = none) (t : Thread) :
    b.perform [.tryAcquire t] = b.countAttempt.claim t := by
  simp [perform, Act.apply, tryAcquire, h]

theorem perform_tryAcquire_of_owned {b : Buffer} (h : ¬b.owner.isNone = true) (t : Thread) :
    b.perform [.tryAcquire t] = b.countAttempt := by
  simp [perform, Act.apply, tryAcquire, h]

/-- A buffer that is acquired only to look counts the attempt. -/
theorem perform_glance {b : Buffer} (h : b.owner = none) (t : Thread) :
    b.perform [.tryAcquire t, .release] = b.countAttempt := by
  simp [perform, Act.apply, tryAcquire, h, release, claim, countAttempt]

end Buffer

/-- What a lookup for `t` does to a buffer that it has tried to acquire, or has not, and that it has
found, or has not. -/
def Cell.lookedAt (t : Thread) (tried found : Bool) (c : Cell) : Cell :=
  let buffer := if tried then c.buffer.countAttempt else c.buffer
  if found then { c with buffer := buffer.claim t, refs := c.refs + 1 } else { c with buffer := buffer }

variable {σ : Type} {w w' : World σ} {p : PoolId} {size : UInt64} {t : Thread} {key : Arena.Key}
  {b : BufferId} {e : Arena.Key × BufferId} {entries rest : List (Arena.Key × BufferId)}

namespace World

/-- The first of several entries whose buffer suits. -/
def choice (w : World σ) (size : UInt64) (entries : List (Arena.Key × BufferId)) :
    Option (Arena.Key × BufferId) :=
  entries.find? fun e => (w.buffer e.2).suits size

/-- The entries up to the first one whose buffer suits, or all if none does. -/
def examined (w : World σ) (size : UInt64) (entries : List (Arena.Key × BufferId)) :
    List (Arena.Key × BufferId) :=
  entries.take (entries.findIdx (fun e => (w.buffer e.2).suits size) + 1)

/-- The buffers that are tried to be acquired: of those that are examined, the ones that are not
retired. -/
def tried (w : World σ) (size : UInt64) (entries : List (Arena.Key × BufferId)) : List BufferId :=
  ((w.examined size entries).filter fun e => !(w.buffer e.2).retired).map (·.2)

/-- Each of the buffers counts one attempt to acquire it. -/
def countAttempts (w : World σ) (buffers : List BufferId) : World σ :=
  buffers.foldl (fun w b => w.modifyBuffer b (·.countAttempt)) w

theorem examined_cons (w : World σ) (size : UInt64) (e : Arena.Key × BufferId)
    (rest : List (Arena.Key × BufferId)) :
    w.examined size (e :: rest) =
      if (w.buffer e.2).suits size then [e] else e :: w.examined size rest := by
  rw [examined, List.findIdx_cons]
  split_ifs with h <;> simp [h, examined]

/-- An entry is examined unless one before it suits. -/
theorem mem_examined_iff : e ∈ w.examined size entries ↔
    ∃ before after, entries = before ++ e :: after ∧
      ∀ e' ∈ before, ¬(w.buffer e'.2).suits size = true := by
  induction entries with
  | nil => simp [examined]
  | cons first rest ih =>
      rw [examined_cons]
      split_ifs with hs
      · rw [List.mem_singleton]
        constructor
        · rintro rfl
          exact ⟨[], rest, rfl, nofun⟩
        · rintro ⟨_ | ⟨_, before⟩, after, he, hbefore⟩
          · exact (List.cons.inj he).1.symm
          · rw [(List.cons.inj he).1] at hs
            exact absurd hs (hbefore _ List.mem_cons_self)
      · rw [List.mem_cons, ih]
        constructor
        · rintro (rfl | ⟨before, after, rfl, hbefore⟩)
          · exact ⟨[], rest, rfl, nofun⟩
          · exact ⟨first :: before, after, rfl, List.forall_mem_cons.2 ⟨hs, hbefore⟩⟩
        · rintro ⟨_ | ⟨_, before⟩, after, he, hbefore⟩
          · exact .inl (List.cons.inj he).1.symm
          · exact .inr ⟨before, after, (List.cons.inj he).2,
              (List.forall_mem_cons.1 hbefore).2⟩

theorem tried_of_suits (h : (w.buffer e.2).suits size = true) : w.tried size (e :: rest) = [e.2] := by
  rw [tried, examined_cons, if_pos h]
  simp [(Buffer.suits_iff.1 h).1]

theorem tried_of_retired (h : (w.buffer e.2).retired = true) :
    w.tried size (e :: rest) = w.tried size rest := by
  have hs : ¬(w.buffer e.2).suits size = true := by simp [Buffer.suits_iff, h]
  rw [tried, examined_cons, if_neg hs]
  simp [h, tried]

theorem tried_of_unsuited (hr : (w.buffer e.2).retired = false)
    (hs : ¬(w.buffer e.2).suits size = true) :
    w.tried size (e :: rest) = e.2 :: w.tried size rest := by
  rw [tried, examined_cons, if_neg hs]
  simp [hr, tried]

theorem choice_of_suits (h : (w.buffer e.2).suits size = true) :
    w.choice size (e :: rest) = some e :=
  List.find?_cons_of_pos h

theorem choice_of_unsuited (h : ¬(w.buffer e.2).suits size = true) :
    w.choice size (e :: rest) = w.choice size rest :=
  List.find?_cons_of_neg h

/-- Only the buffers of the entries matter. -/
theorem choice_tried_congr (size : UInt64) (h : ∀ e ∈ entries, w'.buffer e.2 = w.buffer e.2) :
    w'.choice size entries = w.choice size entries ∧ w'.tried size entries = w.tried size entries := by
  induction entries with
  | nil => exact ⟨rfl, rfl⟩
  | cons e rest ih =>
      have he := h e List.mem_cons_self
      obtain ⟨hchoice, htried⟩ := ih fun e he => h e (List.mem_cons_of_mem _ he)
      by_cases hs : (w.buffer e.2).suits size = true
      · rw [choice_of_suits hs, choice_of_suits (he ▸ hs), tried_of_suits hs,
          tried_of_suits (he ▸ hs)]
        exact ⟨rfl, rfl⟩
      rw [choice_of_unsuited hs, choice_of_unsuited (he ▸ hs)]
      refine ⟨hchoice, ?_⟩
      cases hr : (w.buffer e.2).retired with
      | true => rw [tried_of_retired hr, tried_of_retired (he ▸ hr), htried]
      | false => rw [tried_of_unsuited hr hs, tried_of_unsuited (he ▸ hr) (he ▸ hs), htried]

/-- A buffer is tried unless it is retired or one before it suits. -/
theorem mem_tried_iff : b ∈ w.tried size entries ↔ (w.buffer b).retired = false ∧
    ∃ key before after, entries = before ++ (key, b) :: after ∧
      ∀ e ∈ before, ¬(w.buffer e.2).suits size = true := by
  simp only [tried, List.mem_map, List.mem_filter, mem_examined_iff, Bool.not_eq_true']
  constructor
  · rintro ⟨⟨key, b⟩, ⟨⟨before, after, he, hbefore⟩, hr⟩, rfl⟩
    exact ⟨hr, key, before, after, he, hbefore⟩
  · rintro ⟨hr, key, before, after, he, hbefore⟩
    exact ⟨(key, b), ⟨⟨before, after, he, hbefore⟩, hr⟩, rfl⟩

theorem nodup_tried (h : (entries.map (·.2)).Nodup) (w : World σ) (size : UInt64) :
    (w.tried size entries).Nodup :=
  h.sublist ((List.filter_sublist.trans (List.take_sublist _ _)).map _)

/-- What is chosen has been tried. -/
theorem mem_tried_of_choice (h : w.choice size entries = some e) : e.2 ∈ w.tried size entries := by
  obtain ⟨hs, before, after, he, hbefore⟩ := List.find?_eq_some_iff_append.1 h
  exact mem_tried_iff.2 ⟨(Buffer.suits_iff.1 hs).1, e.1, before, after, he,
    fun e' he' => by simpa using hbefore e' he'⟩

theorem getElem?_countAttempts {buffers : List BufferId} (hn : buffers.Nodup) (w : World σ)
    (b : BufferId) : (w.countAttempts buffers).cells[b]? =
      if b ∈ buffers then w.cells[b]?.map fun c => { c with buffer := c.buffer.countAttempt }
      else w.cells[b]? := by
  induction buffers generalizing w with
  | nil => rfl
  | cons first rest ih =>
      obtain ⟨hfirst, hrest⟩ := List.nodup_cons.1 hn
      change ((w.modifyBuffer first (·.countAttempt)).countAttempts rest).cells[b]? = _
      rw [ih hrest, getElem?_modifyBuffer]
      by_cases hb : b = first
      · rw [if_neg (hb ▸ hfirst), if_pos hb, if_pos (hb ▸ List.mem_cons_self)]
      · simp [hb]

/-- Counting attempts changes nothing but cells. -/
theorem countAttempts_eq (w : World σ) (buffers : List BufferId) :
    w.countAttempts buffers = { w with cells := (w.countAttempts buffers).cells } := by
  induction buffers generalizing w with
  | nil => rfl
  | cons first rest ih => exact ih (w.modifyBuffer first (·.countAttempt))

/-- A lookup in pool `p` for `t` among the entries. It finds the first buffer that suits, if there is
one, acquires it and makes a handle to it. Beyond that only attempts are counted, and what is found is
noted. -/
structure LooksUp (w : World σ) (p : PoolId) (size : UInt64) (t : Thread)
    (entries : List (Arena.Key × BufferId)) (found : Option Handle) (w' : World σ) : Prop where
  first : found = (w.choice size entries).map fun e => ⟨p, e.1, e.2⟩
  cells : ∀ b : BufferId, w'.cells[b]? = w.cells[b]?.map fun c =>
    c.lookedAt t (decide (b ∈ w.tried size entries)) (found.any (·.buffer == b))
  events : w'.events = found.toList.map (fun _ => .noted p (.found size)) ++ w.events
  /-- Nothing else has changed, neither in the pools nor anywhere. -/
  rest : w' = { w with cells := w'.cells, events := w'.events }

variable {found : Option Handle} {h : Handle}

theorem LooksUp.isSome_iff (hl : w.LooksUp p size t entries found w') :
    found.isSome = true ↔ ∃ e ∈ entries, (w.buffer e.2).suits size = true := by
  rw [hl.first, Option.isSome_map, choice, List.find?_isSome]

/-- What is found suits, and nothing before it does. -/
theorem LooksUp.exists_append (hl : w.LooksUp p size t entries found w') (hf : found = some h) :
    h.pool = p ∧ (w.buffer h.buffer).suits size = true ∧
      ∃ before after, entries = before ++ (h.key, h.buffer) :: after ∧
        ∀ e ∈ before, ¬(w.buffer e.2).suits size = true := by
  rw [hl.first] at hf
  obtain ⟨e, hc, rfl⟩ := Option.map_eq_some_iff.1 hf
  obtain ⟨hs, before, after, he, hbefore⟩ := List.find?_eq_some_iff_append.1 hc
  exact ⟨rfl, hs, before, after, he, fun e' he' => by simpa using hbefore e' he'⟩

/-- What is found is there and has a new owner. -/
theorem LooksUp.owner (hl : w.LooksUp p size t entries found w') (hf : found = some h)
    (hb : h.buffer < w.cells.size) : (w'.buffer h.buffer).owner = some t := by
  rw [World.buffer, hl.cells, Array.getElem?_eq_getElem hb, hf]
  simp [Cell.lookedAt, Buffer.claim]

end World

namespace Pool

open Buffer (Act)

/-- What becomes of the first of several candidates. -/
theorem firstFit_cons (size : UInt64) (t : Thread) (key : Arena.Key) (b : BufferId)
    (rest : List (Arena.Key × BufferId)) (w : World σ) :
    firstFit size t ((key, b) :: rest) w =
      if (w.buffer b).retired then firstFit size t rest w
      else if (w.buffer b).owner.isNone then
        if size ≤ (w.buffer b).freeSize then .ok (some (key, b)) (w.work b [.tryAcquire t])
        else firstFit size t rest (w.work b [.tryAcquire t, .release])
      else firstFit size t rest (w.work b [.tryAcquire t]) := by
  have htry : (tryAcquire b t : PoolM σ Bool) w =
      .ok (w.buffer b).owner.isNone (w.work b [.tryAcquire t]) := by
    have hanswer : ((w.buffer b).tryAcquire t).1 = (w.buffer b).owner.isNone := by
      rw [Buffer.tryAcquire]
      split_ifs with hfree <;> simp [hfree]
    rw [← leaves_tryAcquire, ← hanswer]
    rfl
  have hfree : ((w.work b [.tryAcquire t]).buffer b).freeSize = (w.buffer b).freeSize := by
    by_cases hb : b < w.cells.size
    · rw [World.work, buffer_modifyBuffer_self _ hb]
      simp only [Buffer.perform, List.foldl_cons, List.foldl_nil, Act.apply, Buffer.tryAcquire]
      split_ifs <;> rfl
    · rw [World.work, World.buffer, getElem?_modifyBuffer, if_pos rfl, World.buffer,
        Array.getElem?_eq_none (Nat.le_of_not_lt hb)]
      rfl
  rw [firstFit, getBuffer_bind]
  split_ifs with hretired howner hfits
  · rfl
  · rw [bind_of_ok _ htry, if_pos howner, getBuffer_bind, hfree, if_pos hfits]
    rfl
  · rw [bind_of_ok _ htry, if_pos howner, getBuffer_bind, hfree, if_neg hfits]
    have hrelease : (PoolM.release b : PoolM σ Unit) (w.work b [.tryAcquire t]) =
        .ok () (w.work b [.tryAcquire t, .release]) :=
      congrArg (EStateM.Result.ok ()) (work_append w b [.tryAcquire t] [.release])
    rw [bind_of_ok _ hrelease]
  · rw [bind_of_ok _ htry, if_neg howner]

/-- A lookup among entries no two of which have the same buffer. -/
theorem firstFit_eq (hn : (entries.map (·.2)).Nodup) (size : UInt64) (t : Thread) (w : World σ) :
    firstFit size t entries w = .ok (w.choice size entries)
      ((w.choice size entries).elim (w.countAttempts (w.tried size entries))
        fun e => (w.countAttempts (w.tried size entries)).modifyBuffer e.2 (·.claim t)) := by
  induction entries generalizing w with
  | nil => rfl
  | cons e rest ih =>
      obtain ⟨key, b⟩ := e
      obtain ⟨hb, hrest⟩ := List.nodup_cons.1 hn
      -- An attempt that leads to nothing is only counted, and the rest is searched as before.
      have hgo : ∀ acts, (w.buffer b).perform acts = (w.buffer b).countAttempt →
          (w.buffer b).retired = false → ¬(w.buffer b).suits size = true →
          firstFit size t rest (w.work b acts) = .ok (w.choice size ((key, b) :: rest))
            ((w.choice size ((key, b) :: rest)).elim
              (w.countAttempts (w.tried size ((key, b) :: rest))) fun e =>
                (w.countAttempts (w.tried size ((key, b) :: rest))).modifyBuffer e.2 (·.claim t)) := by
        intro acts hacts hr hs
        have hwork : w.work b acts = w.modifyBuffer b (·.countAttempt) := modifyBuffer_congr hacts
        have hsame : ∀ e ∈ rest, (w.modifyBuffer b (·.countAttempt)).buffer e.2 = w.buffer e.2 :=
          fun e he => buffer_modifyBuffer_of_ne w _ fun h => hb (List.mem_map.2 ⟨e, he, h⟩)
        obtain ⟨hchoice, htried⟩ := choice_tried_congr size hsame
        rw [hwork, ih hrest, hchoice, htried, choice_of_unsuited (e := (key, b)) hs,
          tried_of_unsuited (e := (key, b)) hr hs]
        rfl
      rw [firstFit_cons]
      split_ifs with hretired hfree hfits
      · have hs : ¬(w.buffer b).suits size = true := by simp [Buffer.suits_iff, hretired]
        rw [ih hrest, choice_of_unsuited (e := (key, b)) hs,
          tried_of_retired (e := (key, b)) hretired]
      · have howner := Option.isNone_iff_eq_none.1 hfree
        have hs : (w.buffer b).suits size = true :=
          Buffer.suits_iff.2 ⟨Bool.eq_false_iff.2 hretired, howner, hfits⟩
        have hwork : w.work b [.tryAcquire t] =
            (w.modifyBuffer b (·.countAttempt)).modifyBuffer b (·.claim t) := by
          rw [modifyBuffer_modifyBuffer]
          exact modifyBuffer_congr (Buffer.perform_tryAcquire_of_free howner t)
        rw [choice_of_suits (e := (key, b)) hs, tried_of_suits (e := (key, b)) hs, hwork]
        rfl
      · have howner := Option.isNone_iff_eq_none.1 hfree
        exact hgo _ (Buffer.perform_glance howner t) (Bool.eq_false_iff.2 hretired)
          fun hs => hfits (Buffer.suits_iff.1 hs).2.2
      · exact hgo _ (Buffer.perform_tryAcquire_of_owned hfree t) (Bool.eq_false_iff.2 hretired)
          fun hs => hfree (Option.isNone_iff_eq_none.2 (Buffer.suits_iff.1 hs).2.1)

/-- A lookup in a lane whose entries are known. -/
theorem find_looksUp {pool : Pool} (hp : w.pool? p = some pool)
    (he : pool.arena.entries .free .forward = .ok entries) (hn : (entries.map (·.2)).Nodup)
    (size : UInt64) (t : Thread) :
    ∃ found w', find p size t w = .ok found w' ∧ w.LooksUp p size t entries found w' := by
  obtain ⟨cells, hw₁, hcells⟩ : ∃ cells, w.countAttempts (w.tried size entries) =
      { w with cells := cells } ∧ ∀ b : BufferId, cells[b]? = w.cells[b]?.map fun c =>
        c.lookedAt t (decide (b ∈ w.tried size entries)) false := by
    refine ⟨_, countAttempts_eq w _, fun b => ?_⟩
    rw [getElem?_countAttempts (nodup_tried hn w size)]
    by_cases hb : b ∈ w.tried size entries <;> simp [Cell.lookedAt, hb]
  rw [find, bind_of_ok _ (readArena_of_ok hp he), bind_of_ok _ (firstFit_eq hn size t w), hw₁]
  cases hc : w.choice size entries with
  | none => exact ⟨none, _, rfl, by rw [hc]; rfl, hcells, rfl, rfl⟩
  | some e =>
      obtain ⟨key, b⟩ := e
      refine ⟨some ⟨p, key, b⟩, _, rfl, by rw [hc]; rfl, fun b' => ?_, rfl, rfl⟩
      let w₁ : World σ := { w with cells := cells }
      have htried := mem_tried_of_choice hc
      have hclaimed := getElem?_modifyBuffer w₁ b b' (·.claim t)
      have hretained := getElem?_retain ((w₁.modifyBuffer b (·.claim t)).emit (.noted p (.found size)))
        b b'
      refine hretained.trans ?_
      rw [World.emit, hclaimed, hcells]
      by_cases hb : b' = b
      · simp [hb, htried, Cell.lookedAt, Function.comp_def]
      · simp [hb, beq_false_of_ne (Ne.symm hb)]

end Pool

end BufferPool
