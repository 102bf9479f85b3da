import BufferPool.Proofs.Pool.Providing

/-!
# How a buffer is obtained

A thread that wants a buffer in the full lane gets the first free one that suits, if its request is small
enough for one, and else a new one. A thread that wants a lease gets the first free buffer that suits,
whatever the size, and it stays where it is; else it gets a new one. A free buffer costs no request for
memory. Either way every other buffer stays in place, and at most an attempt to acquire it is counted.
-/

namespace BufferPool

open PoolM

variable {σ : Type} {w w₁ w' : World σ} {p : PoolId} {pool : Pool} {capacity size size' : UInt64}
  {t : Thread} {f : Buffer → Buffer} {gone entries : List (Arena.Key × BufferId)}
  {found : Option Handle} {h : Handle}

/-- The content of a buffer is as it was. -/
structure Buffer.SameContent (b b' : Buffer) : Prop where
  payload : b'.payload = b.payload
  top : b'.top = b.top
  pos : b'.pos = b.pos

theorem Buffer.Glanced.sameContent {b b' : Buffer} (h : b.Glanced b') : b.SameContent b' := by
  rcases h with rfl | rfl <;> exact ⟨rfl, rfl, rfl⟩

namespace World

/-- What is found is not put on record. -/
theorem LooksUp.record_eq (hl : w.LooksUp p size t entries found w') : w'.record = w.record := by
  rw [record_append hl.events]
  cases found <;> rfl

theorem LooksUp.tidy (hl : w.LooksUp p size t entries found w') (ht : w.Tidy p pool) :
    w'.Tidy p pool := by
  refine ht.congr (by rw [hl.rest]) fun b => ?_
  rw [home?, hl.cells, Option.map_map, home?]
  congr 1
  funext c
  simp only [Function.comp_apply, Cell.lookedAt]
  split_ifs <;> rfl

theorem LooksUp.refs_of_none (hl : w.LooksUp p size t entries none w') (b : BufferId) :
    w'.refs b = w.refs b := by
  rw [refs, hl.cells, Option.map_map, refs]
  rfl

/-- What is furnished after a lookup that has found nothing could have been furnished right away. -/
theorem Furnishes.after (hl : w.LooksUp p size' t entries none w₁)
    (hf : w₁.Furnishes p capacity f gone found w') : w.Furnishes p capacity f gone found w' := by
  have hplace : ∀ key, w₁.place? p key = w.place? p key := hl.abstains.place p
  have hformat : w₁.format = w.format := by rw [hl.rest]
  have htotal : ∀ b, (w₁.buffer b).totalSize = (w.buffer b).totalSize := by
    intro b
    rcases hl.abstains.buffer b with he | he <;> rw [he]
    rfl
  obtain ⟨e, hasks, hrecord⟩ := hf.record
  simp only [hformat, htotal, hl.record_eq] at hrecord
  refine ⟨hf.supplied.trans (supplies_congr (by rw [hl.rest]; rfl) hformat (by rw [hl.rest]) capacity),
    fun key b => ?_, ⟨e, hasks, hrecord⟩, fun h hh => ?_, fun key b lane => ?_,
    hf.free.trans (hl.abstains.row p .free), hl.abstains.row p .full ▸ hf.full⟩
  · rw [hf.abandoned, hplace, hl.refs_of_none]
  · obtain ⟨hpool, hbuffer, hfresh⟩ := hf.new h hh
    exact ⟨hpool, hbuffer.trans hl.size_eq, hformat ▸ hfresh⟩
  · rw [hf.place, hplace]

theorem announced_eq_record (w : World σ) (p : PoolId) :
    w.announced p = w.record.countP (Event.announces p) := by
  rw [announced, record, List.countP_filter]
  refine List.countP_congr fun e _ => ?_
  cases e <;> simp [Event.announces, Event.isRecorded]

/-- Each new buffer was published once. -/
theorem Furnishes.announced_eq (hf : w.Furnishes p capacity f gone found w') :
    w'.announced p = w.announced p + found.toList.length := by
  obtain ⟨e, hasks, hrecord⟩ := hf.record
  have hquiet : e.announces p = false := by
    cases e <;> first | rfl | exact nomatch hasks
  have hgone : ((gone.map fun g => Event.deallocated p g.2 (w.buffer g.2).totalSize).reverse).countP
      (Event.announces p) = 0 := by
    rw [List.countP_reverse, List.countP_map]
    exact List.countP_eq_zero.2 fun _ _ => Bool.false_ne_true
  rw [announced_eq_record, hrecord, List.countP_append, List.countP_cons, List.countP_append, hquiet,
    hgone, announced_eq_record]
  cases found with
  | none => simp
  | some h => simp [Event.announces, Nat.add_comm]

/-- How a buffer in the full lane is obtained for a request of a size, whose class is `capacity`. -/
inductive FullObtained (p : PoolId) (pool : Pool) (size capacity : UInt64) (t : Thread) (w : World σ) :
    List (Arena.Key × BufferId) → Option Handle → World σ → Prop where
  /-- The first free buffer that suits is moved, and nobody asks for memory. -/
  | moved {h : Handle} {before after : List (Arena.Key × BufferId)} {w' : World σ}
      (small : size ≤ pool.minimum) (owner : h.pool = p)
      (split : w.row p .free = before ++ (h.key, h.buffer) :: after)
      (passed : ∀ e ∈ before, ¬(w.buffer e.2).suits pool.minimum = true)
      (suits : (w.buffer h.buffer).suits pool.minimum = true)
      (free : w'.row p .free = before ++ after)
      (full : w'.row p .full = (h.key, h.buffer) :: w.row p .full)
      (place : ∀ key, w'.place? p key =
        if key = h.key then some (h.buffer, some .full) else w.place? p key)
      (record : w'.record = w.arrival p .full h ++ w.record)
      (taken : w'.buffer h.buffer = (w.buffer h.buffer).countAttempt.claim t)
      (others : ∀ b, b ≠ h.buffer → (w.buffer b).Glanced (w'.buffer b)) :
      FullObtained p pool size capacity t w [] (some h) w'
  /-- There is no such buffer, and a new one is supplied or not. -/
  | furnished {gone : List (Arena.Key × BufferId)} {found : Option Handle} {w' : World σ}
      (missing : size ≤ pool.minimum → ∀ e ∈ w.row p .free, ¬(w.buffer e.2).suits pool.minimum = true)
      (furnishes : w.Furnishes p capacity (·.claim t) gone found w')
      (others : ∀ b < w.cells.size, (w.buffer b).Glanced (w'.buffer b)) :
      FullObtained p pool size capacity t w gone found w'

/-- How a lease is obtained for a request of a size, whose class is `capacity`. -/
inductive LeaseObtained (p : PoolId) (size capacity : UInt64) (t : Thread) (w : World σ) :
    List (Arena.Key × BufferId) → Option Handle → World σ → Prop where
  /-- The first free buffer that suits is made a lease where it is, and nobody asks for memory. -/
  | found {h : Handle} {before after : List (Arena.Key × BufferId)} {w' : World σ} (owner : h.pool = p)
      (split : w.row p .free = before ++ (h.key, h.buffer) :: after)
      (passed : ∀ e ∈ before, ¬(w.buffer e.2).suits size = true)
      (suits : (w.buffer h.buffer).suits size = true)
      (row : ∀ lane, w'.row p lane = w.row p lane)
      (place : ∀ key, w'.place? p key = w.place? p key) (record : w'.record = w.record)
      (taken : w'.buffer h.buffer = (w.buffer h.buffer).countAttempt.lend t)
      (others : ∀ b, b ≠ h.buffer → (w.buffer b).Glanced (w'.buffer b)) :
      LeaseObtained p size capacity t w [] (some h) w'
  /-- There is no such buffer, and a new one is supplied or not. -/
  | furnished {gone : List (Arena.Key × BufferId)} {found : Option Handle} {w' : World σ}
      (missing : ∀ e ∈ w.row p .free, ¬(w.buffer e.2).suits size = true)
      (furnishes : w.Furnishes p capacity (·.lend t) gone found w')
      (others : ∀ b < w.cells.size, (w.buffer b).Glanced (w'.buffer b)) :
      LeaseObtained p size capacity t w gone found w'

theorem FullObtained.full (ho : w.FullObtained p pool size capacity t gone found w') :
    w'.row p .full = found.toList.map (fun h => (h.key, h.buffer)) ++ w.row p .full := by
  cases ho with
  | moved _ _ _ _ _ _ hfull => exact hfull
  | furnished _ hf => exact hf.full

/-- Nothing leaves the pool that is not detached or to which there is another reference. -/
theorem FullObtained.abandoned (ho : w.FullObtained p pool size capacity t gone found w')
    {key : Arena.Key} {b : BufferId} (hgone : (key, b) ∈ gone) :
    w.place? p key = some (b, none) ∧ w.refs b = 1 := by
  cases ho with
  | moved => exact absurd hgone List.not_mem_nil
  | furnished _ hf => exact (hf.abandoned key b).1 hgone

/-- However a buffer is obtained, the listener is told once. -/
theorem FullObtained.announced_eq (ho : w.FullObtained p pool size capacity t gone found w') :
    w'.announced p = w.announced p + found.toList.length := by
  cases ho with
  | moved _ _ _ _ _ _ _ _ hrecord =>
      rw [announced_eq_record, hrecord, announced_eq_record, List.countP_append, Nat.add_comm]
      simp [arrival, Event.announces]
  | furnished _ hf => exact hf.announced_eq

/-- A new buffer has room for every request of its class. -/
theorem Furnishes.room (hf : w.Furnishes p capacity f gone (some h) w')
    (hfree : ∀ b, (f b).freeSize = b.freeSize)
    (hclass : SizeClass.ofRequest? size pool.minimum = some capacity) :
    SizeClass.atLeast size pool.minimum ≤ (w'.buffer h.buffer).freeSize := by
  obtain ⟨-, -, hbuffer⟩ := hf.new h rfl
  rw [hbuffer, hfree, (Buffer.blank_fresh w.format capacity).freeSize]
  exact (SizeClass.le_of_ofRequest?
    ((SizeClass.ofRequest?_atLeast size pool.minimum).trans hclass)).1

/-- What is obtained belongs to the thread that asked for it and has room enough. -/
theorem FullObtained.in_hand (ho : w.FullObtained p pool size capacity t gone (some h) w')
    (hclass : SizeClass.ofRequest? size pool.minimum = some capacity) :
    h.pool = p ∧ (w'.buffer h.buffer).owner = some t ∧ (w'.buffer h.buffer).retired = false ∧
      SizeClass.atLeast size pool.minimum ≤ (w'.buffer h.buffer).freeSize := by
  cases ho with
  | moved hsmall hh _ _ hsuits _ _ _ _ htaken =>
      obtain ⟨hretired, -, hroom⟩ := Buffer.suits_iff.1 hsuits
      rw [htaken, SizeClass.atLeast_of_le hsmall]
      exact ⟨hh, rfl, hretired, hroom⟩
  | furnished _ hf =>
      have hroom := hf.room (fun _ => rfl) hclass
      obtain ⟨hh, -, hbuffer⟩ := hf.new h rfl
      refine ⟨hh, ?_, ?_, hroom⟩
      · rw [hbuffer]
        rfl
      · rw [hbuffer]
        rfl

theorem LeaseObtained.abandoned (ho : w.LeaseObtained p size capacity t gone found w')
    {key : Arena.Key} {b : BufferId} (hgone : (key, b) ∈ gone) :
    w.place? p key = some (b, none) ∧ w.refs b = 1 := by
  cases ho with
  | found => exact absurd hgone List.not_mem_nil
  | furnished _ hf => exact (hf.abandoned key b).1 hgone

/-- A lease belongs to the thread that asked for it, it is marked, and it has room enough. -/
theorem LeaseObtained.in_hand (ho : w.LeaseObtained p size capacity t gone (some h) w')
    (hclass : SizeClass.ofRequest? size pool.minimum = some capacity) :
    h.pool = p ∧ (w'.buffer h.buffer).owner = some t ∧ (w'.buffer h.buffer).transient = true ∧
      (w'.buffer h.buffer).lease = true ∧ size ≤ (w'.buffer h.buffer).freeSize := by
  cases ho with
  | found hh _ _ hsuits _ _ _ htaken =>
      rw [htaken]
      exact ⟨hh, rfl, rfl, rfl, (Buffer.suits_iff.1 hsuits).2.2⟩
  | furnished _ hf =>
      have hroom := hf.room (fun _ => rfl) hclass
      obtain ⟨hh, -, hbuffer⟩ := hf.new h rfl
      refine ⟨hh, ?_, ?_, ?_, UInt64.le_trans (SizeClass.le_atLeast size pool.minimum) hroom⟩
      · rw [hbuffer]
        rfl
      · rw [hbuffer]
        rfl
      · rw [hbuffer]
        rfl

/-- Obtaining a lease does not touch what is in the buffers. -/
theorem LeaseObtained.sameContent (ho : w.LeaseObtained p size capacity t gone found w')
    {b : BufferId} (hb : b < w.cells.size) : (w.buffer b).SameContent (w'.buffer b) := by
  cases ho with
  | @found h _ _ _ _ _ _ _ _ _ _ htaken hothers =>
      by_cases he : b = h.buffer
      · rw [he, htaken]
        exact ⟨rfl, rfl, rfl⟩
      · exact (hothers b he).sameContent
  | furnished _ _ hothers => exact (hothers b hb).sameContent

end World

namespace Pool

open World

/-- A lookup that fails has passed all free buffers. -/
theorem unsuited_of_none (hl : w.LooksUp p size t entries none w') :
    ∀ e ∈ entries, ¬(w.buffer e.2).suits size = true := by
  intro e he hs
  exact nomatch hl.isSome_iff.2 ⟨e, he, hs⟩

/-- A lookup, and then a new buffer if it has found none. -/
theorem furnished_after {w₂ : World σ} (hl : w.LooksUp p size' t entries none w₁)
    (hf : w₁.Furnishes p capacity f gone found w₂)
    (hbuffer : ∀ b < w₁.cells.size, w₂.buffer b = w₁.buffer b) :
    w.Furnishes p capacity f gone found w₂ ∧
      ∀ b < w.cells.size, (w.buffer b).Glanced (w₂.buffer b) := by
  refine ⟨hf.after hl, fun b hb => ?_⟩
  rw [hbuffer b (hl.size_eq.symm ▸ hb)]
  exact hl.abstains.buffer b

/-- An entry with a key of its own is all that is taken out with the key. -/
theorem filter_key_of_nodup {before after : List (Arena.Key × BufferId)} {e : Arena.Key × BufferId}
    (hnodup : ((before ++ e :: after).map (·.1)).Nodup) :
    (before ++ e :: after).filter (·.1 != e.1) = before ++ after := by
  rw [List.map_append, List.map_cons] at hnodup
  have hout : e.1 ∉ before.map (·.1) ++ after.map (·.1) := (List.nodup_middle.1 hnodup).notMem
  have hkeep : ∀ e' ∈ before ++ after, (e'.1 != e.1) = true := fun e' he' => bne_iff_ne.2 fun hkey =>
    hout (List.map_append ▸ hkey ▸ List.mem_map_of_mem he')
  rw [List.filter_append, List.filter_cons_of_neg (by simp), ← List.filter_append]
  exact List.filter_eq_self.2 hkeep

theorem takeToFull_of_le (hp : w.pool? p = some pool) (hsize : size ≤ pool.minimum) (t : Thread) :
    takeToFull p size t w = (find p size t >>= fun found => onSome found fun h => move p .free h) w := by
  have hmet : expect (σ := σ) (decide (size ≤ pool.minimum)) .fitsSmallestClass w = .ok () w := by
    rw [decide_eq_true hsize]
    exact expect_true _ w
  rw [takeToFull, bind_of_ok _ (getPool_of_some hp), bind_of_ok _ hmet]

/-- What is found goes to the head of the full lane. -/
theorem move_of_found (ht : w.Tidy p pool) (hsmall : size ≤ pool.minimum)
    (hl : w.LooksUp p pool.minimum t (w.row p .free) (some h) w₁) :
    ∃ w₂, move p .free h w₁ = .ok () w₂ ∧
      w.FullObtained p pool size capacity t [] (some h) w₂ := by
  obtain ⟨c, hs⟩ := ht.stocks
  obtain ⟨hh, hsuits, before, after, hsplit, hpassed⟩ := hl.exists_append rfl
  obtain ⟨-, hplace⟩ := place_of_found hs hl
  have hlt : h.buffer < w.cells.size := ht.lt_size ((hs.place? h.key).trans hplace)
  obtain ⟨w₂, hmove, hshifts, -, hevents⟩ := move_shifts (hl.stocks hs) hh hplace
  have harena : w₁.arena? p = w.arena? p := by
    rw [hl.rest]
    rfl
  have hrow : ∀ lane, w₁.row p lane = w.row p lane := row_congr harena
  have hbuffer : ∀ b, w₂.buffer b = w₁.buffer b := fun b => by
    rw [hshifts.rest]
    rfl
  have htaken := hl.buffer_found hlt
  refine ⟨w₂, hmove, .moved hsmall hh hsplit hpassed hsuits ?free ?full ?place ?record
    ((hbuffer _).trans htaken) ?others⟩
  case free =>
    rw [hshifts.row, if_neg (by decide), hrow, hsplit]
    exact filter_key_of_nodup (hsplit ▸ hs.nodup_row .free)
  case full =>
    rw [hshifts.row, if_pos (by decide), hrow, List.filter_eq_self.2]
    rintro ⟨key, b⟩ he
    refine bne_iff_ne.2 ?_
    rintro rfl
    have hfree : (h.key, h.buffer) ∈ w.row p .free := hsplit ▸ List.mem_append_cons_self
    have hlane : Lane.full = .free := (hs.eq_of_mem_row hfree he).2
    exact absurd hlane (by decide)
  case place =>
    intro key
    rw [hshifts.place, place?_congr harena]
    rfl
  case record =>
    have hkept : w₁.arrival p .full h = w.arrival p .full h := by
      rw [arrival, htaken, arrival]
      rfl
    rw [record_append hevents, hl.record_eq]
    exact congrArg (· ++ w.record) hkept
  case others =>
    intro b hb
    rw [hbuffer]
    exact hl.glanced fun h' hh' => Option.some.inj hh' ▸ Ne.symm hb

/-- A request that has a class always ends, with a buffer at the head of the full lane or without one. -/
theorem obtainFull_obtains (ht : w.Tidy p pool)
    (hclass : SizeClass.ofRequest? size pool.minimum = some capacity) (t : Thread) :
    ∃ gone found w', obtainFull p size t w = .ok found w' ∧
      w.FullObtained p pool size capacity t gone found w' := by
  have hraised : SizeClass.ofRequest? (SizeClass.atLeast size pool.minimum) pool.minimum =
      some capacity := (SizeClass.ofRequest?_atLeast size pool.minimum).trans hclass
  rw [obtainFull, bind_of_ok _ (getPool_of_some ht.present)]
  by_cases hsmall : size ≤ pool.minimum
  · rw [SizeClass.atLeast_of_le hsmall] at hraised ⊢
    rw [if_pos (UInt64.le_refl _)]
    obtain ⟨found, w₁, hfind, hl⟩ := find_tidy ht pool.minimum t
    have htake := takeToFull_of_le ht.present (UInt64.le_refl pool.minimum) t
    rw [bind_of_ok _ hfind] at htake
    cases found with
    | none =>
        obtain ⟨gone, found, w₂, hr, hf, hbuffer⟩ := provideFull_furnishes (hl.tidy ht) hraised t
        obtain ⟨hfurnishes, hothers⟩ := furnished_after hl hf hbuffer
        exact ⟨gone, found, w₂, (bind_of_ok _ htake).trans hr,
          .furnished (fun _ => unsuited_of_none hl) hfurnishes hothers⟩
    | some h =>
        obtain ⟨w₂, hmove, hobtained⟩ := move_of_found ht hsmall hl
        rw [onSome_of_ok hmove] at htake
        exact ⟨[], some h, w₂, bind_of_ok _ htake, hobtained⟩
  · rw [SizeClass.atLeast, if_neg hsmall] at hraised ⊢
    rw [if_neg hsmall]
    obtain ⟨gone, found, w', hr, hf, hbuffer⟩ := provideFull_furnishes ht hclass t
    exact ⟨gone, found, w', hr, .furnished (fun h => absurd h hsmall) hf
      fun b hb => .inl (hbuffer b hb)⟩

/-- What is found becomes a lease, and its owner is still the one who asked. -/
theorem lend_of_found (ht : w.Tidy p pool) (hl : w.LooksUp p size t (w.row p .free) (some h) w₁) :
    ∃ w₂, (do
        makeLease h
        expect ((← getBuffer h.buffer).ownedBy t) .ownedByRequester : PoolM σ Unit) w₁ = .ok () w₂ ∧
      w.LeaseObtained p size capacity t [] (some h) w₂ := by
  obtain ⟨c, hs⟩ := ht.stocks
  obtain ⟨hh, hsuits, before, after, hsplit, hpassed⟩ := hl.exists_append rfl
  obtain ⟨-, hplace⟩ := place_of_found hs hl
  have hlt : h.buffer < w.cells.size := ht.lt_size ((hs.place? h.key).trans hplace)
  have htaken := hl.buffer_found hlt
  let mark : Buffer → Buffer := fun b => { b with transient := true }
  let w₂ := w₁.modifyBuffer h.buffer mark
  let w₃ := w₁.modifyBuffer h.buffer fun b => { mark b with lease := true }
  have hsize : h.buffer < w₁.cells.size := hl.size_eq.symm ▸ hlt
  have hmarked : w₂.buffer h.buffer = mark ((w.buffer h.buffer).countAttempt.claim t) := by
    rw [buffer_modifyBuffer_self _ hsize, htaken]
  have hlent : w₃.buffer h.buffer = (w.buffer h.buffer).countAttempt.lend t := by
    rw [buffer_modifyBuffer_self _ hsize, htaken]
    rfl
  have htransient : markTransient h.buffer w₁ = .ok () w₂ := rfl
  have hlease : markLease h.buffer w₂ = .ok () w₃ := by
    rw [markLease, getBuffer_bind, hmarked, bind_of_ok _ (expect_true _ w₂)]
    exact congrArg (EStateM.Result.ok ()) (modifyBuffer_modifyBuffer ..)
  have harena : w₁.arena? p = w.arena? p := by
    rw [hl.rest]
    rfl
  refine ⟨w₃, ?_, .found hh hsplit hpassed hsuits (row_congr harena) (place?_congr harena)
    hl.record_eq hlent fun b hb => ?_⟩
  · rw [makeLease, bind_assoc, bind_of_ok _ htransient, bind_of_ok _ hlease, getBuffer_bind, hlent,
      Buffer.ownedBy, Buffer.lend, Buffer.claim, beq_self_eq_true]
    exact expect_true _ w₃
  · rw [buffer_modifyBuffer_of_ne w₁ _ hb]
    exact hl.glanced fun h' hh' => Option.some.inj hh' ▸ Ne.symm hb

/-- A request for a lease that has a class always ends, with a lease or without one. -/
theorem obtainLease_obtains (ht : w.Tidy p pool)
    (hclass : SizeClass.ofRequest? size pool.minimum = some capacity) (t : Thread) :
    ∃ gone found w', obtainLease p size t w = .ok found w' ∧
      w.LeaseObtained p size capacity t gone found w' := by
  obtain ⟨found, w₁, hfind, hl⟩ := find_tidy ht size t
  rw [obtainLease, take, bind_of_ok _ hfind]
  cases found with
  | none =>
      obtain ⟨gone, found, w₂, hr, hf, hbuffer⟩ := provideLeaseTo_furnishes (hl.tidy ht) hclass t
      obtain ⟨hfurnishes, hothers⟩ := furnished_after hl hf hbuffer
      exact ⟨gone, found, w₂, hr, .furnished (unsuited_of_none hl) hfurnishes hothers⟩
  | some h =>
      obtain ⟨w₂, hlend, hobtained⟩ := lend_of_found ht hl
      exact ⟨[], some h, w₂, onSome_of_ok hlend, hobtained⟩

end Pool

end BufferPool
