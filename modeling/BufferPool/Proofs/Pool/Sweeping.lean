import BufferPool.Proofs.Pool.Departing
import BufferPool.Proofs.Pool.Skipping
import BufferPool.Proofs.Pool.VisitLogs

/-!
# What a pass makes of a lane

A thread that makes a sweep and runs it itself comes upon three kinds of buffers. One-shot buffers leave
the pool, whoever owns them. A buffer that nobody else owns is emptied, and nobody owns it then. What
another thread owns is skipped. Each visit is about one buffer, and no buffer is visited twice, so a whole
pass is to a lane what the visits are to its members.
-/

namespace BufferPool

open Arena (Catalog)
open PoolM World

/-- The buffer is emptied, and nobody owns it any more. -/
def Buffer.recycled (b : Buffer) : Buffer := b.reset.release

/-- There is nothing in the second buffer and nobody owns it. Otherwise it is the first one, with its
marks. -/
structure Buffer.Emptied (b b' : Buffer) : Prop where
  top : b'.top = 0
  pos : b'.pos = 0
  retired : b'.retired = false
  owner : b'.owner = none
  payload : b'.payload = b.payload
  transient : b'.transient = b.transient
  lease : b'.lease = b.lease

variable {σ : Type} {me : Thread} {w w₁ w' : World σ} {p : PoolId} {minimum : UInt64}
  {c : Catalog BufferId} {lane : Lane} {h : Handle} {b : BufferId} {buffer : Buffer} {s : Sweep}
  {handles rest : List Handle}

namespace Sweep

/-- A sweep that thread `me` has made and runs empties the buffer. -/
def recycles (me : Thread) (b : Buffer) : Bool := !b.transient && b.owner.all (· == me)

/-- What becomes of a buffer that is visited. -/
def swept (me : Thread) (b : Buffer) : Buffer :=
  if b.transient then b
  else if b.ownedBy me then b.recycled
  else if b.owner.isNone then b.countAttempt.recycled
  else b.countAttempt

theorem recycles_iff : recycles me buffer = true ↔
    buffer.transient = false ∧ (buffer.owner = none ∨ buffer.owner = some me) := by
  cases ho : buffer.owner <;> simp [recycles, ho]

theorem swept_of_transient (hone : buffer.transient = true) : swept me buffer = buffer := if_pos hone

theorem swept_of_skips (hs : skips me buffer = true) : swept me buffer = buffer.countAttempt := by
  obtain ⟨hlasting, t, howner, hne⟩ := skips_iff.1 hs
  have hmine : buffer.ownedBy me = false := by
    rw [Buffer.ownedBy, howner]
    exact beq_eq_false_iff_ne.2 fun he => hne (Option.some.inj he)
  rw [swept, hlasting, hmine, howner]
  rfl

theorem swept_of_owner (hlasting : buffer.transient = false) (howner : buffer.owner = some me) :
    swept me buffer = buffer.recycled := by
  rw [swept, hlasting, Buffer.ownedBy, howner, beq_self_eq_true]
  rfl

theorem swept_of_free (hlasting : buffer.transient = false) (howner : buffer.owner = none) :
    swept me buffer = buffer.countAttempt.recycled := by
  rw [swept, hlasting, Buffer.ownedBy, howner]
  rfl

/-- The three kinds of buffers. -/
theorem kinds (me : Thread) (buffer : Buffer) :
    buffer.transient = true ∨ recycles me buffer = true ∨ skips me buffer = true := by
  rw [recycles_iff, skips_iff]
  cases ht : buffer.transient with
  | true => exact .inl rfl
  | false =>
      cases ho : buffer.owner with
      | none => exact .inr (.inl ⟨rfl, .inl rfl⟩)
      | some t =>
          by_cases hmine : t = me
          · exact .inr (.inl ⟨rfl, .inr (hmine ▸ rfl)⟩)
          · exact .inr (.inr ⟨rfl, t, rfl, hmine⟩)

theorem swept_of_recycles (hr : recycles me buffer = true) :
    ∃ b, buffer.Glanced b ∧ swept me buffer = b.recycled := by
  obtain ⟨hlasting, howner | howner⟩ := recycles_iff.1 hr
  · exact ⟨_, .inr rfl, swept_of_free hlasting howner⟩
  · exact ⟨_, .inl rfl, swept_of_owner hlasting howner⟩

theorem emptied_swept (hr : recycles me buffer = true) : buffer.Emptied (swept me buffer) := by
  obtain ⟨b, rfl | rfl, he⟩ := swept_of_recycles hr <;> rw [he] <;>
    exact ⟨rfl, rfl, rfl, rfl, rfl, rfl, rfl⟩

/-- No visit makes a one-shot buffer, or makes one last. -/
theorem transient_swept (me : Thread) (buffer : Buffer) :
    (swept me buffer).transient = buffer.transient := by
  rcases kinds me buffer with hone | hr | hs
  · rw [swept_of_transient hone]
  · exact (emptied_swept hr).transient
  · rw [swept_of_skips hs]
    rfl

/-- What was emptied would be emptied again, and what was skipped would be skipped again. -/
theorem recycles_swept (me : Thread) (buffer : Buffer) :
    recycles me (swept me buffer) = recycles me buffer := by
  rcases kinds me buffer with hone | hr | hs
  · rw [swept_of_transient hone]
  · rw [hr, recycles_iff]
    exact ⟨(transient_swept me buffer).trans (recycles_iff.1 hr).1, .inl (emptied_swept hr).owner⟩
  · rw [swept_of_skips hs]
    rfl

/-- Another visit would be noticed by instruments only. -/
theorem bare_swept_swept (me : Thread) (buffer : Buffer) :
    (swept me (swept me buffer)).bare = (swept me buffer).bare := by
  rcases kinds me buffer with hone | hr | hs
  · rw [swept_of_transient hone, swept_of_transient hone]
  · obtain ⟨b, -, he⟩ := swept_of_recycles hr
    have hlasting := (transient_swept me buffer).trans (recycles_iff.1 hr).1
    rw [swept_of_free hlasting (congrArg Buffer.owner he), he]
    rfl
  · have hs' : skips me buffer.countAttempt = true := hs
    rw [swept_of_skips hs, swept_of_skips hs']
    rfl

theorem recycle_ok (howner : (w.buffer b).owner = some me) :
    recycle me b w = .ok () (w.modifyBuffer b (·.recycled)) := by
  let w₁ := w.modifyBuffer b (·.reset)
  have hreset : w₁.buffer b = (w.buffer b).reset := buffer_modifyBuffer_self _ (lt_size_of_owner howner)
  have hempty : (w.buffer b).reset.isEmpty = true := rfl
  have hkept : (!(w.buffer b).reset.retired) = true := rfl
  rw [recycle, bind_of_ok _ (reset_ok howner), getBuffer_bind, hreset, hempty,
    bind_of_ok _ (expect_true _ w₁), getBuffer_bind, hreset, hkept, bind_of_ok _ (expect_true _ w₁)]
  exact congrArg (EStateM.Result.ok ()) (modifyBuffer_modifyBuffer ..)

/-- What the sweep has got hold of is emptied and counted. -/
theorem visit_of_hold (hlasting : (w.buffer h.buffer).transient = false)
    (hhold : s.hold me h.buffer w = .ok true w₁) (howner : (w₁.buffer h.buffer).owner = some me) :
    s.visit me h w = .ok (true, s.counted) (w₁.modifyBuffer h.buffer (·.recycled)) := by
  rw [visit, getBuffer_bind, hlasting, if_neg Bool.false_ne_true, bind_of_ok _ hhold, if_pos rfl,
    bind_of_ok _ (recycle_ok howner)]
  rfl

/-- A buffer that is owned is not acquired, so it makes no difference who made the sweep. -/
theorem visit_of_owned {t : Thread} (hlasting : (w.buffer h.buffer).transient = false)
    (howner : (w.buffer h.buffer).owner = some t) :
    s.visit me h w = .ok (true, if recycles me (w.buffer h.buffer) then s.counted else s)
      (w.modifyBuffer h.buffer (swept me)) := by
  by_cases hmine : t = me
  · subst hmine
    have hr : recycles t (w.buffer h.buffer) = true := recycles_iff.2 ⟨hlasting, .inr howner⟩
    have hhold : s.hold t h.buffer w = .ok true w := by
      rw [hold, getBuffer_bind, Buffer.ownedBy, howner, beq_self_eq_true]
      rfl
    rw [visit_of_hold hlasting hhold howner, if_pos hr]
    exact congrArg _ (modifyBuffer_congr (swept_of_owner hlasting howner).symm)
  · have hs : skips me (w.buffer h.buffer) = true := skips_iff.2 ⟨hlasting, t, howner, hmine⟩
    have hr : ¬recycles me (w.buffer h.buffer) = true := fun hr => by
      obtain ⟨-, hnone | hsome⟩ := recycles_iff.1 hr
      · exact Option.some_ne_none t (howner.symm.trans hnone)
      · exact hmine (Option.some.inj (howner.symm.trans hsome))
    rw [visit_of_skips hs, if_neg hr]
    exact congrArg _ (modifyBuffer_congr (swept_of_skips hs).symm)

/-- A buffer that lasts is dealt with where it is. -/
theorem visit_of_lasting (hmaker : s.maker = me) (hlasting : (w.buffer h.buffer).transient = false)
    (hlt : h.buffer < w.cells.size) :
    s.visit me h w = .ok (true, if recycles me (w.buffer h.buffer) then s.counted else s)
      (w.modifyBuffer h.buffer (swept me)) := by
  cases ho : (w.buffer h.buffer).owner with
  | none =>
      have hr : recycles me (w.buffer h.buffer) = true := recycles_iff.2 ⟨hlasting, .inl ho⟩
      let w₁ := w.modifyBuffer h.buffer fun _ => (w.buffer h.buffer).countAttempt.claim me
      have hother : (w.buffer h.buffer).ownedBy me = false := by
        rw [Buffer.ownedBy, ho]
        rfl
      have hwon : (w.buffer h.buffer).tryAcquire s.maker =
          (true, (w.buffer h.buffer).countAttempt.claim me) := by
        rw [Buffer.tryAcquire, ho, hmaker]
        rfl
      have hhold : s.hold me h.buffer w = .ok true w₁ := by
        rw [hold, getBuffer_bind, hother, if_neg Bool.false_ne_true, tryAcquire_ok, hwon]
      have hclaimed : w₁.buffer h.buffer = (w.buffer h.buffer).countAttempt.claim me :=
        buffer_modifyBuffer_self _ hlt
      rw [visit_of_hold hlasting hhold (congrArg Buffer.owner hclaimed), if_pos hr,
        modifyBuffer_modifyBuffer]
      exact congrArg _ (modifyBuffer_congr (swept_of_free hlasting ho).symm)
  | some t => exact visit_of_owned hlasting ho

/-- A one-shot buffer leaves, and is counted. -/
theorem visit_departs (hs : w.Stocks s.pool minimum c) (hh : h.pool = s.pool)
    (hp : w.place? s.pool h.key = some (h.buffer, some s.lane))
    (hone : (w.buffer h.buffer).transient = true)
    (hflushed : w.profile = .checked → (w.buffer h.buffer).unflushedSize = 0) :
    ∃ w' c', s.visit me h w = .ok (true, s.counted) w' ∧ Departs s.pool s.lane h w w' ∧
      w'.Stocks s.pool minimum c' ∧ w'.profile = w.profile ∧ w'.cells.size = w.cells.size := by
  have hbuffer : (w.retain h.buffer).buffer h.buffer = w.buffer h.buffer := buffer_retain w _ _
  obtain ⟨w', c', hr, hdeparts, hs', hprofile, hsize⟩ :=
    Pool.giveBack_departs (hs.quiet (quiet_retain w h.buffer)) hh ((hs.place? h.key).symm.trans hp)
      (by rw [hbuffer]; exact hone) fun hc => by rw [hbuffer]; exact hflushed hc
  refine ⟨w', c', ?_, hdeparts.after rfl (buffer_retain w h.buffer) rfl, hs', hprofile,
    hsize.trans (size_retain w h.buffer)⟩
  rw [visit_of_transient hone, bind_of_ok _ hr]
  rfl

end Sweep

namespace World

/-- Those of some handles whose buffers leave when they are visited. -/
def outgoing (w : World σ) (handles : List Handle) : List Handle :=
  handles.filter fun h => (w.buffer h.buffer).transient

/-- Each of the handles has been visited once. -/
structure Sweeps (p : PoolId) (me : Thread) (handles : List Handle) (w w' : World σ) : Prop where
  place : ∀ key, w'.place? p key =
    if key ∈ (w.outgoing handles).map (·.key) then none else w.place? p key
  row : ∀ lane, w'.row p lane =
    (w.row p lane).filter fun e => decide (e.1 ∉ (w.outgoing handles).map (·.key))
  buffer : ∀ b, w'.buffer b =
    if b ∈ handles.map (·.buffer) then Sweep.swept me (w.buffer b) else w.buffer b
  record : w'.record = ((w.outgoing handles).map fun h =>
    .deallocated p h.buffer (w.buffer h.buffer).totalSize).reverse ++ w.record
  profile : w'.profile = w.profile
  size : w.cells.size ≤ w'.cells.size

theorem sweeps_nil (p : PoolId) (me : Thread) (w : World σ) : Sweeps p me [] w w := by
  refine ⟨fun key => (if_neg List.not_mem_nil).symm, fun lane => ?_,
    fun b => (if_neg List.not_mem_nil).symm, rfl, rfl, Nat.le_refl _⟩
  exact (List.filter_eq_self.2 fun e _ => decide_eq_true List.not_mem_nil).symm

theorem outgoing_congr (h : ∀ g ∈ handles, w'.buffer g.buffer = w.buffer g.buffer) :
    w'.outgoing handles = w.outgoing handles :=
  List.filter_congr fun g hg => by rw [h g hg]

/-- A one-shot buffer was visited. -/
theorem Departs.sweeps (hd : Departs p lane h w w') (hone : (w.buffer h.buffer).transient = true)
    (hprofile : w'.profile = w.profile) (hsize : w'.cells.size = w.cells.size) :
    Sweeps p me [h] w w' := by
  have hout : w.outgoing [h] = [h] := List.filter_cons_of_pos hone
  refine ⟨fun key => ?_, fun lane => ?_, fun b => ?_, ?_, hprofile, hsize.ge⟩
  · rw [hd.place, hout]
    simp only [List.map_cons, List.map_nil, List.mem_singleton]
  · rw [hd.row, hout]
    refine List.filter_congr fun e _ => Bool.eq_iff_iff.2 ?_
    rw [bne_iff_ne, decide_eq_true_iff]
    exact not_congr List.mem_singleton.symm
  · rw [hd.buffer]
    split_ifs with hb
    · obtain rfl : b = h.buffer := List.mem_singleton.1 hb
      exact (Sweep.swept_of_transient hone).symm
    · rfl
  · rw [hd.record, hout]
    rfl

/-- A buffer that lasts was visited. -/
theorem sweeps_modifyBuffer (hlasting : (w.buffer h.buffer).transient = false)
    (hlt : h.buffer < w.cells.size) :
    Sweeps p me [h] w (w.modifyBuffer h.buffer (Sweep.swept me)) := by
  have hout : w.outgoing [h] = [] := List.filter_cons_of_neg (Bool.eq_false_iff.1 hlasting)
  refine ⟨fun key => ?_, fun lane => ?_, fun b => ?_, ?_, rfl, (size_modifyBuffer w _ _).ge⟩
  · rw [hout]
    exact (if_neg List.not_mem_nil).symm
  · rw [hout]
    exact (List.filter_eq_self.2 fun e _ => decide_eq_true List.not_mem_nil).symm
  · split_ifs with hb
    · obtain rfl : b = h.buffer := List.mem_singleton.1 hb
      exact buffer_modifyBuffer_self _ hlt
    · exact buffer_modifyBuffer_of_ne w _ fun he => hb (List.mem_singleton.2 he)
  · rw [hout]
    rfl

/-- A visit is about one buffer. -/
theorem Sweeps.buffer_rest (hfirst : Sweeps p me [h] w w₁) (hnot : h.buffer ∉ rest.map (·.buffer)) :
    ∀ g ∈ rest, w₁.buffer g.buffer = w.buffer g.buffer := by
  intro g hg
  rw [hfirst.buffer, if_neg]
  intro hin
  exact hnot (List.mem_map.2 ⟨g, hg, List.mem_singleton.1 hin⟩)

/-- One visit, and then the others. -/
theorem Sweeps.cons (hfirst : Sweeps p me [h] w w₁) (hrest : Sweeps p me rest w₁ w')
    (hnot : h.buffer ∉ rest.map (·.buffer)) : Sweeps p me (h :: rest) w w' := by
  have hsame := hfirst.buffer_rest hnot
  have hsplit : w.outgoing (h :: rest) = w.outgoing [h] ++ w₁.outgoing rest := by
    rw [outgoing_congr hsame]
    exact List.filter_append [h] rest
  refine ⟨fun key => ?place, fun lane => ?row, fun b => ?buffer, ?record,
    hrest.profile.trans hfirst.profile, Nat.le_trans hfirst.size hrest.size⟩
  case place =>
    rw [hrest.place, hfirst.place, hsplit, List.map_append]
    by_cases hone : key ∈ (w.outgoing [h]).map (·.key)
    · rw [if_pos hone, if_pos (List.mem_append_left _ hone), ite_self]
    · simp only [List.mem_append, hone, false_or, if_false]
  case row =>
    rw [hrest.row, hfirst.row, hsplit, List.filter_filter, List.map_append]
    refine List.filter_congr fun e _ => ?_
    rw [← Bool.decide_and, decide_eq_decide, List.mem_append, not_or, and_comm]
  case buffer =>
    rw [hrest.buffer, hfirst.buffer, List.map_cons, List.map_cons, List.map_nil]
    by_cases hb : b = h.buffer
    · rw [if_neg (hb ▸ hnot), if_pos (List.mem_singleton.2 hb), if_pos (List.mem_cons.2 (.inl hb))]
    · simp [hb]
  case record =>
    have htotal : ∀ g ∈ w₁.outgoing rest,
        (w₁.buffer g.buffer).totalSize = (w.buffer g.buffer).totalSize := fun g hg => by
      rw [hsame g (List.mem_of_mem_filter hg)]
    rw [hrest.record, hfirst.record, hsplit, List.map_append, List.reverse_append, List.append_assoc]
    congr 2
    refine List.map_congr_left fun g hg => ?_
    rw [htotal g hg]

/-- How many buffers are counted when some handles are visited: those that leave, and those that are
emptied. -/
def settled (w : World σ) (me : Thread) (handles : List Handle) : Nat :=
  (handles.countP fun h => (w.buffer h.buffer).transient) +
    handles.countP fun h => Sweep.recycles me (w.buffer h.buffer)

theorem settled_congr (h : ∀ g ∈ handles, w'.buffer g.buffer = w.buffer g.buffer) :
    w'.settled me handles = w.settled me handles := by
  rw [settled, settled]
  congr 1
  · exact List.countP_congr fun g hg => by rw [h g hg]
  · exact List.countP_congr fun g hg => by rw [h g hg]

theorem settled_nil (w : World σ) (me : Thread) : w.settled me [] = 0 := rfl

theorem settled_cons (w : World σ) (me : Thread) (h : Handle) (rest : List Handle) :
    w.settled me (h :: rest) = w.settled me [h] + w.settled me rest := by
  have hsplit : ∀ f : Handle → Bool, (h :: rest).countP f = [h].countP f + rest.countP f :=
    fun f => (List.countP_append : ([h] ++ rest).countP f = _)
  rw [settled, hsplit, hsplit, settled, settled]
  omega

end World

namespace Sweep

/-- The sweep has counted so many more buffers. -/
def countedBy (s : Sweep) (n : Nat) : Sweep := { s with processed := s.processed + .ofNat n }

theorem countedBy_zero (s : Sweep) : s.countedBy 0 = s := by
  simp [countedBy]

theorem countedBy_add (s : Sweep) (m n : Nat) : (s.countedBy m).countedBy n = s.countedBy (m + n) := by
  simp [countedBy, UInt64.add_assoc]

/-- A visit to a member of the lane that the sweep releases from. -/
theorem visit_sweeps (hmaker : s.maker = me) (hs : w.Stocks s.pool minimum c) (hh : h.pool = s.pool)
    (hp : w.place? s.pool h.key = some (h.buffer, some s.lane)) (hlt : h.buffer < w.cells.size)
    (hflushed : w.profile = .checked → (w.buffer h.buffer).transient = true →
      (w.buffer h.buffer).unflushedSize = 0) :
    ∃ w' c', s.visit me h w = .ok (true, s.countedBy (w.settled me [h])) w' ∧
      Sweeps s.pool me [h] w w' ∧ w'.Stocks s.pool minimum c' := by
  cases hone : (w.buffer h.buffer).transient with
  | true =>
      obtain ⟨w', c', hr, hd, hs', hprofile, hsize⟩ :=
        visit_departs hs hh hp hone fun hc => hflushed hc hone
      have hcount : w.settled me [h] = 1 := by simp [settled, recycles, hone]
      rw [hcount]
      exact ⟨w', c', hr, hd.sweeps hone hprofile hsize, hs'⟩
  | false =>
      refine ⟨_, c, ?_, sweeps_modifyBuffer hone hlt, hs.quiet (quiet_modifyBuffer w _ _)⟩
      rw [visit_of_lasting hmaker hone hlt]
      by_cases hr : recycles me (w.buffer h.buffer) = true
      · have hcount : w.settled me [h] = 1 := by simp [settled, hone, hr]
        rw [if_pos hr, hcount]
        rfl
      · have hcount : w.settled me [h] = 0 := by simp [settled, hone, hr]
        rw [if_neg hr, hcount, countedBy_zero]

/-- Visits to different members of the lane. -/
theorem visitAll_sweeps (hmaker : s.maker = me) (hs : w.Stocks s.pool minimum c)
    (hmembers : ∀ g ∈ handles, g.pool = s.pool ∧
      w.place? s.pool g.key = some (g.buffer, some s.lane) ∧ g.buffer < w.cells.size)
    (hnodup : (handles.map (·.buffer)).Nodup)
    (hflushed : w.profile = .checked → ∀ g ∈ handles, (w.buffer g.buffer).transient = true →
      (w.buffer g.buffer).unflushedSize = 0) :
    ∃ w' c', Pool.visitAll (visit me) s handles w =
        .ok (true, s.countedBy (w.settled me handles)) w' ∧
      Sweeps s.pool me handles w w' ∧ w'.Stocks s.pool minimum c' := by
  induction handles generalizing s w c with
  | nil => exact ⟨w, c, by rw [settled_nil, countedBy_zero]; rfl, sweeps_nil s.pool me w, hs⟩
  | cons h rest ih =>
      obtain ⟨hnot, hnodup'⟩ := List.nodup_cons.1 hnodup
      obtain ⟨hh, hp, hlt⟩ := hmembers h List.mem_cons_self
      obtain ⟨w₁, c₁, hvisit, hfirst, hs₁⟩ := visit_sweeps hmaker hs hh hp hlt fun hc =>
        hflushed hc h List.mem_cons_self
      have hsame := hfirst.buffer_rest hnot
      -- What is still to be visited has other keys, because it consists of other buffers.
      have hplace : ∀ g ∈ rest, w₁.place? s.pool g.key = w.place? s.pool g.key := by
        intro g hg
        rw [hfirst.place, if_neg]
        intro hin
        obtain ⟨h', hout, hkey⟩ := List.mem_map.1 hin
        obtain rfl : h' = h := List.mem_singleton.1 (List.mem_of_mem_filter hout)
        have hplace := (hmembers g (List.mem_cons_of_mem _ hg)).2.1
        rw [← hkey, hp] at hplace
        have hbuffer := (Prod.mk.inj (Option.some.inj hplace)).1
        exact hnot (List.mem_map.2 ⟨g, hg, hbuffer.symm⟩)
      have hmembers' : ∀ g ∈ rest, g.pool = s.pool ∧
          w₁.place? s.pool g.key = some (g.buffer, some s.lane) ∧ g.buffer < w₁.cells.size := by
        intro g hg
        obtain ⟨hg', hin, hsize⟩ := hmembers g (List.mem_cons_of_mem _ hg)
        exact ⟨hg', (hplace g hg).trans hin, Nat.lt_of_lt_of_le hsize hfirst.size⟩
      have hflushed' : w₁.profile = .checked → ∀ g ∈ rest, (w₁.buffer g.buffer).transient = true →
          (w₁.buffer g.buffer).unflushedSize = 0 := by
        intro hc g hg
        rw [hsame g hg]
        exact hflushed (hfirst.profile ▸ hc) g (List.mem_cons_of_mem _ hg)
      have hmaker' : (s.countedBy (w.settled me [h])).maker = me := hmaker
      obtain ⟨w', c', hall, hrest, hs'⟩ := ih hmaker' hs₁ hmembers' hnodup' hflushed'
      refine ⟨w', c', ?_, hfirst.cons hrest hnot, hs'⟩
      rw [Pool.visitAll, bind_of_ok _ hvisit]
      dsimp only
      rw [if_pos rfl, hall, settled_congr hsame, countedBy_add, ← settled_cons]

end Sweep

end BufferPool
