import BufferPool.Proofs.Buffer.Streams
import BufferPool.Proofs.Desk.Cursors
import BufferPool.Proofs.Desk.Journal

/-!
# Committed content along a run

Whatever threads do one after the other, the committed bytes of a buffer stay until its content is
forgotten, and nobody but the owner adds to them. From the time when a buffer is empty, and as long as
bytes come into it by writing them only, the flushes show what was written, in order and each byte
once.
-/

namespace BufferPool.Desk

open PoolM World
open Buffer (Act Lent Extends)

variable {d : StepLabel} {s s' start : Scene} {b : BufferId} {log : List Entry}

/-- A buffer of a plain world has no instruments. -/
theorem Scene.Kept.plain (hs : s.Kept) (hformat : s.world.format = .plain)
    (hb : b < s.world.cells.size) : (s.world.buffer b).meter = none := by
  have hc := Array.getElem?_eq_getElem hb
  obtain ⟨capacity, acts, hacts⟩ := hs.exists_acts hc
  rw [buffer_of_getElem? hc, hacts, Buffer.Tally.buffer_perform, hformat]
  exact Buffer.meter_perform rfl acts

namespace StepLabel

/-- Whether the content may be forgotten: the owner resets the buffer, or a sweep comes to it on a
thread that may have it, and it is no one-shot buffer. -/
def Forgets (b : BufferId) (w : World Desk) (d : StepLabel) : Prop :=
  (∃ me, d.call? b w = some (me, .reset) ∧ (w.buffer b).owner = some me) ∨
    ∃ me, d.Cleans b w me ∧ ∀ t, (w.buffer b).owner = some t → t = me

/-- What can be seen just before a flush. -/
def shows (b : BufferId) (w : World Desk) (d : StepLabel) : List UInt8 :=
  match d.call? b w with
  | some (_, .flush) => (w.buffer b).unflushed
  | _ => []

/-- What is written, unless the write is refused. -/
def writes (b : BufferId) (w : World Desk) (d : StepLabel) : List UInt8 :=
  match d.call? b w with
  | some (me, .write bytes) => if ((w.buffer b).write me bytes).isOk then bytes else []
  | _ => []

/-- How many bytes are committed that were staged before. -/
def promotes (b : BufferId) (w : World Desk) (d : StepLabel) : Nat :=
  match d.call? b w with
  | some (me, .commit count) => (Act.commit me count).commits (w.buffer b)
  | _ => 0

theorem shows_of_none {w : World Desk} (h : d.call? b w = none) : d.shows b w = [] := by
  rw [shows, h]

theorem writes_of_none {w : World Desk} (h : d.call? b w = none) : d.writes b w = [] := by
  rw [writes, h]

/-- What is committed stays unless it is forgotten. -/
theorem Leads.extends (hs : s.Kept) (hformat : s.world.format = .plain) (h : d.Leads s s')
    (hb : b < s.world.cells.size) (hf : ¬d.Forgets b s.world) :
    Extends (s.world.buffer b) (s'.world.buffer b) := by
  have horder := hs.inOrder_buffer b
  have hplain := hs.plain hformat hb
  have hact : ∀ a : Act, a.forgets (s.world.buffer b) = false →
      Extends (s.world.buffer b) ((s.world.buffer b).perform [a]) :=
    fun a ha => horder.extends hplain ha
  cases h.touches hs hb with
  | @call me call hcall heq =>
      rw [heq]
      cases call with
      | reset =>
          refine hact _ ?_
          have hother : (s.world.buffer b).owner ≠ some me := fun ho => hf (.inl ⟨me, hcall, ho⟩)
          exact beq_eq_false_iff_ne.2 hother
      | info | debug | read => exact .refl _
      | write | stage | markLease =>
          rw [BufferCall.acts]
          split_ifs
          · exact .refl _
          · exact hact _ rfl
      | acquire | tryAcquire | release | commit | flush | setRetired | markTransient |
        displace => exact hact _ rfl
  | @carry source me used requested _ _ heq =>
      rw [heq]
      exact hact (.carryOver source me used requested) rfl
  | lent _ hcleans hlent =>
      rcases hlent.cursors with ⟨-, hpos⟩ | ⟨⟨hsome, howner⟩, -⟩
      · exact .of_eq hlent.payload hpos
      · obtain ⟨me, hme⟩ := Option.isSome_iff_exists.1 hsome
        refine absurd (.inr ⟨me, hcleans me hme, fun t ht => ?_⟩) hf
        exact (Option.some.inj (hme.symm.trans (howner t ht))).symm

/-- A call on another buffer, and any operation of a pool, leaves every byte. -/
theorem Leads.payload (hs : s.Kept) (h : d.Leads s s') (hb : b < s.world.cells.size)
    (hcall : d.call? b s.world = none) (hcarries : d.carries b s.world = false) :
    (s'.world.buffer b).payload = (s.world.buffer b).payload := by
  cases h.touches hs hb with
  | call hsome _ => exact nomatch hcall.symm.trans hsome
  | carry _ hyes _ => exact nomatch hcarries.symm.trans hyes
  | lent _ _ hlent => exact hlent.payload

/-- Nothing is shown of an empty buffer. -/
theorem unflushed_of_pos {x : Buffer} (horder : x.InOrder) (hpos : x.pos = 0) :
    x.unflushed = [] := by
  have hlength := horder.unflushed_eq.1
  rw [hpos] at hlength
  exact List.eq_nil_of_length_eq_zero (hlength.trans (Nat.zero_sub _))

/-- A step of a period in which nothing is forgotten and bytes are written only. -/
theorem Leads.shows_append (hs : s.Kept) (hformat : s.world.format = .plain) (h : d.Leads s s')
    (hb : b < s.world.cells.size) (hpos : (s.world.buffer b).pos ≤ (s'.world.buffer b).pos)
    (hp : d.promotes b s.world = 0) :
    d.shows b s.world ++ (s'.world.buffer b).unflushed =
      (s.world.buffer b).unflushed ++ d.writes b s.world := by
  have horder := hs.inOrder_buffer b
  have horder' := (h.step.kept hs).inOrder_buffer b
  have hplain := hs.plain hformat hb
  have hastray := hs.not_astray b
  -- What is emptied although its position is not lowered was empty before.
  have hempty : (s'.world.buffer b).pos = 0 →
      (s'.world.buffer b).unflushed = (s.world.buffer b).unflushed := by
    intro hzero
    rw [hzero] at hpos
    rw [unflushed_of_pos horder' hzero, unflushed_of_pos horder (UInt64.le_zero_iff.1 hpos)]
  cases h.touches hs hb with
  | @call me call hcall heq =>
      rw [promotes, hcall] at hp
      rw [shows, writes, hcall]
      have hact : ∀ a : Act, call.acts me s.world.profile (s.world.buffer b) = [a] →
          a.forgets (s.world.buffer b) = false → a.promotes (s.world.buffer b) = 0 →
          a.shows (s.world.buffer b) ++ (s'.world.buffer b).unflushed =
            (s.world.buffer b).unflushed ++ a.writes (s.world.buffer b) := by
        intro a ha hforgets hpromotes
        rw [heq, ha]
        exact horder.shows_append hplain hforgets hpromotes
      cases call with
      | reset =>
          rw [List.append_nil, List.nil_append]
          by_cases hmine : (s.world.buffer b).ownedBy me = true
          · apply hempty
            rw [heq]
            change ((Act.reset me).apply (s.world.buffer b)).pos = 0
            rw [Act.apply, if_pos hmine]
            rfl
          · rw [heq]
            change ((Act.reset me).apply (s.world.buffer b)).unflushed = _
            rw [Act.apply, if_neg hmine]
      | info | debug | read =>
          rw [heq]
          exact (List.append_nil _).symm
      | markLease =>
          rw [heq, BufferCall.acts]
          split_ifs <;> exact (List.append_nil _).symm
      | commit count => exact hact (.commit me count) rfl rfl hp
      | write bytes => exact hact (.write me bytes) (if_neg hastray) rfl rfl
      | flush => exact hact .flush rfl rfl rfl
      | stage bytes => exact hact (.stage me bytes) (if_neg hastray) rfl rfl
      | acquire t => exact hact (.acquire (t.getD me)) rfl rfl rfl
      | tryAcquire t => exact hact (.tryAcquire (t.getD me)) rfl rfl rfl
      | release => exact hact .release rfl rfl rfl
      | setRetired retired => exact hact (.setRetired retired) rfl rfl rfl
      | markTransient => exact hact .markTransient rfl rfl rfl
      | displace distance => exact hact (.displace distance) rfl rfl rfl
  | @carry source me used requested hcall _ heq =>
      rw [shows_of_none hcall, writes_of_none hcall, heq]
      exact horder.shows_append (a := .carryOver source me used requested) hplain rfl rfl
  | lent hcall _ hlent =>
      rw [shows_of_none hcall, writes_of_none hcall, List.append_nil, List.nil_append]
      rcases hlent.cursors with ⟨htop, hpos'⟩ | ⟨-, -, hzero⟩
      · exact horder.unflushed_congr (.of_eq hlent.payload hpos') htop hpos'
      · exact hempty hzero

end StepLabel

/-- Along the journal the content of the buffer is not forgotten, and bytes are added by writing them
only. -/
def Period (b : BufferId) (log : List Entry) : Prop :=
  ∀ e ∈ log, (e.before.world.buffer b).pos ≤ (e.after.world.buffer b).pos ∧
    e.label.promotes b e.before.world = 0

/-- What the flushes show and what is left is what was there and what was written. -/
theorem Scene.Logs.shows_append (hs : start.Kept) (hformat : start.world.format = .plain)
    (hb : b < start.world.cells.size) (h : start.Logs log s) (hperiod : Period b log) :
    log.flatMap (fun e => e.label.shows b e.before.world) ++ (s.world.buffer b).unflushed =
      (start.world.buffer b).unflushed ++
        log.flatMap fun e => e.label.writes b e.before.world := by
  induction h with
  | refl => exact (List.append_nil _).symm
  | @step log s s' d h hd ih =>
      have hkept : s.Kept := Scene.Reaches.kept hs h.reaches
      have hformat' : s.world.format = .plain :=
        (Scene.Reaches.follows hs h.reaches).format.trans hformat
      obtain ⟨hpos, hp⟩ := hperiod ⟨s, d, s'⟩ (List.mem_append_right _ List.mem_cons_self)
      have hstep := hd.shows_append hkept hformat' (Scene.Reaches.size_le hs h.reaches hb) hpos hp
      have hlog := ih fun e he => hperiod e (List.mem_append_left _ he)
      simp only [List.flatMap_append, List.flatMap_singleton]
      rw [List.append_assoc, hstep, ← List.append_assoc, hlog, List.append_assoc]

/-- If nothing can have been forgotten, the write position was not lowered. -/
theorem Scene.Logs.period (hs : start.Kept) (hformat : start.world.format = .plain)
    (hb : b < start.world.cells.size) (h : start.Logs log s)
    (hlog : ∀ e ∈ log, ¬e.label.Forgets b e.before.world ∧
      e.label.promotes b e.before.world = 0) : Period b log := by
  induction h with
  | refl => exact fun e he => absurd he List.not_mem_nil
  | @step log s s' d h hd ih =>
      have hformat' : s.world.format = .plain :=
        (Scene.Reaches.follows hs h.reaches).format.trans hformat
      intro e he
      rcases List.mem_append.1 he with hold | hnew
      · exact ih (fun e he => hlog e (List.mem_append_left _ he)) e hold
      · obtain ⟨hf, hp⟩ := hlog e he
        obtain rfl := List.mem_singleton.1 hnew
        have hext := hd.extends (Scene.Reaches.kept hs h.reaches) hformat'
          (Scene.Reaches.size_le hs h.reaches hb) hf
        exact ⟨UInt64.le_iff_toNat_le.2 hext.pos_le, hp⟩

/-- What can happen to the contents of the buffers at a scene. -/
structure Scene.Guarded (s : Scene) : Prop where
  /-- What is committed stays until the content is forgotten. -/
  committed : ∀ d s', StepLabel.Leads d s s' → ∀ b < s.world.cells.size, ¬d.Forgets b s.world →
    Extends (s.world.buffer b) (s'.world.buffer b)
  /-- Only calls on a buffer change bytes of it, and what is carried over to it. -/
  others : ∀ d s', StepLabel.Leads d s s' → ∀ b < s.world.cells.size, d.call? b s.world = none →
    d.carries b s.world = false → (s'.world.buffer b).payload = (s.world.buffer b).payload
  /-- Carrying over changes free space of the target only, as far as it carries. -/
  carryOver : ∀ old new me used requested, new < s.world.cells.size →
    let w' := (PoolM.carryOver old new me used requested).leaves s.world
    let x := s.world.buffer new
    (∀ i, i < x.pos.toNat ∨ x.pos.toNat + used.toNat ≤ i →
      (w'.buffer new).payload.byteAt i = x.payload.byteAt i) ∧
      { w'.buffer new with payload := x.payload } = x ∧
      ∀ b, b ≠ new → w'.buffer b = s.world.buffer b
  /-- Nobody but the owner does anything to the content. -/
  denied : ∀ me handle call answer, BufferCall.denial? call = some answer →
    (s.world.buffer handle.buffer).owner ≠ some me →
      call.perform me handle s.world = denied answer s.world
  carryOver_denied : ∀ old new me used requested, (s.world.buffer new).owner ≠ some me →
    ∃ fault, PoolM.carryOver old new me used requested s.world = .error (.transfer fault) s.world
  /-- The owner is shown the bytes from the flush position to the write position. -/
  read : ∀ me b, (s.world.buffer b).owner = some me →
    PoolM.read b me s.world = .ok (s.world.buffer b).unflushed s.world
  unflushed : ∀ b < s.world.cells.size, let x := s.world.buffer b
    x.unflushed.length = x.pos.toNat - x.top.toNat ∧ ∀ i < x.pos.toNat - x.top.toNat,
      x.unflushed[i]? = some (x.payload.byteAt (x.top.toNat + i))
  /-- A write is answered by nothing if it is not refused. -/
  write : ∀ me handle bytes, ∃ reply w',
    (BufferCall.write bytes).perform me handle s.world = .ok reply w' ∧
      (((s.world.buffer handle.buffer).write me bytes).isOk = true ↔ reply = .nothing)

theorem Scene.Kept.guarded (hs : s.Kept) (hformat : s.world.format = .plain) : s.Guarded where
  committed _ _ h _ hb hf := h.extends hs hformat hb hf
  others _ _ h _ hb hcall hcarries := h.payload hs hb hcall hcarries
  carryOver old new me used requested hnew := by
    have hplain := hs.plain hformat hnew
    dsimp only
    rw [leaves_carryOver]
    have hthere : ∀ acts, (s.world.work new acts).buffer new = (s.world.buffer new).perform acts :=
      fun acts => buffer_modifyBuffer_self _ hnew
    refine ⟨?_, ?_, fun b hne => StepLabel.buffer_work_of_ne _ (Ne.symm hne)⟩ <;> rw [hthere] <;>
      split_ifs
    · exact fun _ _ => rfl
    · exact (Buffer.carryOver_range hplain).1
    · rfl
    · exact (Buffer.carryOver_range hplain).2
  denied _ _ _ _ hdenial ho := perform_of_denial hdenial ho
  carryOver_denied old _ _ _ _ ho := carryOver_of_other (hs.not_astray old) ho
  read me b ho := by
    have hmine : (s.world.buffer b).ownedBy me = true := beq_iff_eq.2 ho
    rw [PoolM.read, getBuffer_bind, if_pos hmine, (hs.inOrder_buffer b).locates.2]
    exact bind_of_ok _ (expect_true _ _)
  unflushed b _ := (hs.inOrder_buffer b).unflushed_eq
  write me handle bytes := by
    obtain ⟨reply, w', hrun, hok⟩ := answer_settle handle.buffer (·.write me bytes) s.world
    exact ⟨reply, w', (map_congr replyTo (write_eq (hs.not_astray _) me bytes)).trans hrun, hok⟩

/-- Whatever threads do one after the other to plain buffers, what is committed stays until it is
forgotten, and only the owner writes. From the time when a buffer is empty, and as long as bytes are
added by writing them only, what its flushes show and what is left at the end is what was written. For
that it is enough that nothing is done which could make the buffer forget. -/
theorem committed_content_stable {profile : Profile} {maker : Supply} {s : Scene}
    (hs : (Scene.empty profile .plain maker).Reaches s) :
    s.Guarded ∧
    ∀ b < s.world.cells.size, ∀ log s', s.Logs log s' →
      ((s.world.buffer b).pos = 0 → Period b log →
        log.flatMap (fun e => e.label.shows b e.before.world) ++ (s'.world.buffer b).unflushed =
          log.flatMap fun e => e.label.writes b e.before.world) ∧
      ((∀ e ∈ log, ¬e.label.Forgets b e.before.world ∧ e.label.promotes b e.before.world = 0) →
        Period b log) := by
  have hstart := kept_empty profile .plain maker
  have hkept : s.Kept := Scene.Reaches.kept hstart hs
  have hformat : s.world.format = .plain := (Scene.Reaches.follows hstart hs).format
  refine ⟨hkept.guarded hformat, fun b hb log s' hlog =>
    ⟨fun hpos hperiod => ?_, hlog.period hkept hformat hb⟩⟩
  have happend := hlog.shows_append hkept hformat hb hperiod
  rwa [StepLabel.unflushed_of_pos (hkept.inOrder_buffer b) hpos] at happend

/-- Two byte strings are written. One of them is flushed, and the other one is left at the end. -/
theorem two_writes_shown :
    let w := performAll 0 0 [.build .standard false, .obtain .provideAcquired 100 none (some "a")]
      (.empty .checked .plain (.within none) .empty)
    let calls : List Call := [.onBuffer (.named "a") (.write [104, 105]),
      .onBuffer (.named "a") .flush, .onBuffer (.named "a") (.stage [63]),
      .onBuffer (.named "a") (.write [33])]
    let log := journal 0 0 calls w
    let w' := performAll 0 0 calls w
    ((w.buffer 0).pos = 0 ∧ Period 0 log) ∧
      log.flatMap (fun e => e.label.shows 0 e.before.world) = [104, 105] ∧
      log.flatMap (fun e => e.label.shows 0 e.before.world) ++ (w'.buffer 0).unflushed =
        log.flatMap fun e => e.label.writes 0 e.before.world := by
  intro w calls log w'
  have hrun : (Scene.empty .checked .plain (.within none)).Reaches ⟨w, []⟩ :=
    reaches_performAll 0 0 _ _
  have hsize : 0 < w.cells.size := by decide +kernel
  have hpos : (w.buffer 0).pos = 0 := by decide +kernel
  have hperiod : ∀ e ∈ log, (e.before.world.buffer 0).pos ≤ (e.after.world.buffer 0).pos ∧
      e.label.promotes 0 e.before.world = 0 := by decide +kernel
  have hlog : Scene.Logs ⟨w, []⟩ log ⟨w', []⟩ := logs_journal 0 0 calls w
  have hstream := ((committed_content_stable hrun).2 0 hsize log ⟨w', []⟩ hlog).1 hpos hperiod
  dsimp only at hstream
  refine ⟨⟨hpos, hperiod⟩, ?_, hstream⟩
  decide +kernel

end BufferPool.Desk
