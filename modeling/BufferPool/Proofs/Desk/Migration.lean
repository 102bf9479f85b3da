import BufferPool.Proofs.Buffer.Migration
import BufferPool.Proofs.Desk.Committed

/-!
# Carrying staged bytes over

Carrying over either is refused, and then the world is as it was, or it copies bytes from one buffer
to another one and does nothing else. What was staged in a buffer stays behind its write position
until something is written to the buffer or committed in it, or its content is forgotten. So it can
be carried over to another buffer in the meantime and committed there.
-/

namespace BufferPool

open PoolM World
open Buffer (Carriable)

variable {σ : Type} {w : World σ} {old new : BufferId} {me : Thread} {used requested : UInt64}

/-- In `w'` the `used` bytes that follow the position which `old` reports in `w` also follow the
write position of `new`. -/
structure World.Copied (old new : BufferId) (used : Nat) (w w' : World σ) : Prop where
  /-- Nothing else than bytes of the target is different. -/
  rest : ∃ payload, w' = w.modifyBuffer new ({ · with payload := payload })
  source : (w.buffer old).reportedPos.toNat + used ≤ (w.buffer old).capacity.toNat
  target : (w.buffer new).pos.toNat + used ≤ (w.buffer new).capacity.toNat
  capacity : (w'.buffer new).capacity = (w.buffer new).capacity
  byteAt : ∀ i < used, (w'.buffer new).payload.byteAt ((w.buffer new).pos.toNat + i) =
    (w.buffer old).payload.byteAt ((w.buffer old).reportedPos.toNat + i)
  outside : ∀ i, i < (w.buffer new).pos.toNat ∨ (w.buffer new).pos.toNat + used ≤ i →
    (w'.buffer new).payload.byteAt i = (w.buffer new).payload.byteAt i

namespace PoolM

theorem commit_of_ok {b : BufferId} {count : UInt64} {buffer : Buffer}
    (h : (w.buffer b).commit me count = .ok buffer) :
    (commit b me count : PoolM σ _) w = .ok (.ok ()) (w.modifyBuffer b fun _ => buffer) := by
  rw [commit, getBuffer_bind, h]
  rfl

/-- Unless the two buffers differ and the conditions hold, nothing happens. -/
theorem carryOver_error (hsource : ¬(old ≠ new ∧ (w.buffer old).Astray w.profile))
    (h : ¬(old ≠ new ∧ Carriable (w.buffer old) (w.buffer new) me used requested)) :
    ∃ fault, (carryOver old new me used requested : PoolM σ Unit) w =
      .error (.transfer fault) w := by
  have hnot : ¬((old == new) = false ∧ Carriable (w.buffer old) (w.buffer new) me used requested) :=
    fun hyes => h ⟨beq_eq_false_iff_ne.1 hyes.1, hyes.2⟩
  obtain ⟨fault, hrefused⟩ := Buffer.carryOver_refused hnot
  exact ⟨fault, carryOver_of_error hsource hrefused⟩

/-- Otherwise the target receives the bytes. -/
theorem carryOver_ok (hne : old ≠ new) (hsource : ¬(w.buffer old).Astray w.profile)
    (htarget : (w.buffer new).InOrder)
    (h : Carriable (w.buffer old) (w.buffer new) me used requested) :
    (carryOver old new me used requested : PoolM σ Unit) w =
      .ok () (w.modifyBuffer new fun _ => (w.buffer new).receive
        ((w.buffer old).payload.slice (w.buffer old).reportedPos.toNat used.toNat)) := by
  refine carryOver_of_ok (fun hastray => hsource hastray.2) (htarget.not_astray _) ?_
  rw [beq_eq_false_iff_ne.2 hne]
  exact Buffer.carryOver_of_carriable h

/-- A transfer to a faithful buffer copies bytes. -/
theorem carryOver_copies (hnew : new < w.cells.size) (hfaithful : (w.buffer new).Faithful)
    (hne : old ≠ new) (hsource : ¬(w.buffer old).Astray w.profile)
    (h : Carriable (w.buffer old) (w.buffer new) me used requested) :
    ∃ w', (carryOver old new me used requested : PoolM σ Unit) w = .ok () w' ∧
      Copied old new used.toNat w w' := by
  have hstart := h.start_le
  have hend := h.le_end
  have hused := h.used_le
  have hroom := h.room
  have hfree := hfaithful.toNat_freeSize
  have hpos := hfaithful.toNat_pos_le
  have hlength := Payload.length_slice (w.buffer old).payload (w.buffer old).reportedPos.toNat
    used.toNat
  have hread := Payload.getElem?_slice (w.buffer old).payload (w.buffer old).reportedPos.toNat
    used.toNat
  have hrun := carryOver_ok hne hsource hfaithful.toInOrder h
  rw [hfaithful.receive] at hrun
  generalize (w.buffer old).payload.slice (w.buffer old).reportedPos.toNat used.toNat = bytes at *
  have hthere : (w.modifyBuffer new fun _ => { w.buffer new with
      payload := (w.buffer new).payload.store (w.buffer new).pos.toNat bytes }).buffer new =
        { w.buffer new with
          payload := (w.buffer new).payload.store (w.buffer new).pos.toNat bytes } :=
    buffer_modifyBuffer_self _ hnew
  refine ⟨_, hrun, ⟨⟨_, modifyBuffer_congr rfl⟩, ?_, ?_, ?_, fun i hi => ?_, fun i hi => ?_⟩⟩
  · omega
  · omega
  · rw [hthere]
    exact Payload.capacity_store _ _ _
  · have hinside : (w.buffer new).pos.toNat + i < (w.buffer new).payload.capacity.toNat := by
      change _ < (w.buffer new).capacity.toNat
      omega
    have hbyte := hread i
    rw [if_pos hi] at hbyte
    rw [hthere, Payload.byteAt_store, if_pos ⟨Nat.le_add_right _ _, hinside⟩,
      Nat.add_sub_cancel_left, List.getD_eq_getElem?_getD, hbyte, Option.getD_some]
  · rw [hthere]
    exact Payload.byteAt_store_of_outside (by rw [hlength]; exact hi)

/-- What was carried over can be committed, and is then read behind what was there to be read. -/
theorem carryOver_commit (hnew : new < w.cells.size) (hfaithful : (w.buffer new).Faithful)
    (hne : old ≠ new) (hsource : ¬(w.buffer old).Astray w.profile)
    (h : Carriable (w.buffer old) (w.buffer new) me used requested) :
    ∃ w₁ w₂, (carryOver old new me used requested : PoolM σ Unit) w = .ok () w₁ ∧
      (commit new me used : PoolM σ _) w₁ = .ok (.ok ()) w₂ ∧
      (w₂.buffer new).unflushed = (w.buffer new).unflushed ++
        (w.buffer old).payload.slice (w.buffer old).reportedPos.toNat used.toNat ∧
      ∀ b, b ≠ new → w₂.buffer b = w.buffer b := by
  have hrun := carryOver_ok hne hsource hfaithful.toInOrder h
  have hlength := Payload.length_slice (w.buffer old).payload (w.buffer old).reportedPos.toNat
    used.toNat
  have hroom := h.room
  generalize (w.buffer old).payload.slice (w.buffer old).reportedPos.toNat used.toNat = bytes at *
  have hfits : bytes.length ≤ (w.buffer new).freeSize.toNat := by omega
  obtain ⟨committed, hcommit, hread⟩ := hfaithful.unflushed_receive h.owner hfits
  rw [hlength, UInt64.ofNat_toNat] at hcommit
  have hthere : (w.modifyBuffer new fun _ => (w.buffer new).receive bytes).buffer new =
      (w.buffer new).receive bytes := buffer_modifyBuffer_self _ hnew
  rw [← hthere] at hcommit
  refine ⟨_, _, hrun, commit_of_ok hcommit, ?_, fun b hne' => ?_⟩
  · rw [buffer_modifyBuffer_self _ (by simpa [modifyBuffer] using hnew)]
    exact hread
  · rw [buffer_modifyBuffer_of_ne _ _ hne', buffer_modifyBuffer_of_ne _ _ hne']

end PoolM

end BufferPool

namespace BufferPool.Desk

open PoolM World
open Buffer (Act Carriable)

variable {d : StepLabel} {s s' start : Scene} {b : BufferId} {log : List Entry}

/-- Nothing is done to the bytes of the buffer and to its write position if no act of the call
rewrites it. -/
theorem BufferCall.untouched {me : Thread} {profile : Profile} {x : Buffer} {call : BufferCall}
    (h : ∀ a ∈ call.acts me profile x, a.rewrites x = false) :
    (x.perform (call.acts me profile x)).payload = x.payload ∧
      (x.perform (call.acts me profile x)).pos = x.pos := by
  cases call with
  | info | debug | read => exact ⟨rfl, rfl⟩
  | markLease =>
      rw [acts]
      split_ifs <;> exact ⟨rfl, rfl⟩
  | write | stage =>
      rw [acts] at h ⊢
      split_ifs at h ⊢
      · exact ⟨rfl, rfl⟩
      · exact Act.untouched (h _ List.mem_cons_self)
  | acquire | tryAcquire | release | commit | flush | reset | setRetired | markTransient |
    displace => exact Act.untouched (h _ List.mem_cons_self)

namespace StepLabel

/-- Whether staged bytes may be disturbed: a call on the buffer rewrites it, something is carried
over to it, or a sweep comes to it on a thread that may have it, and it is no one-shot buffer. -/
def Disturbs (b : BufferId) (w : World Desk) (d : StepLabel) : Prop :=
  (∃ me call, d.call? b w = some (me, call) ∧
      ∃ a ∈ call.acts me w.profile (w.buffer b), a.rewrites (w.buffer b) = true) ∨
    d.carries b w = true ∨
    ∃ me, d.Cleans b w me ∧ ∀ t, (w.buffer b).owner = some t → t = me

/-- Staged bytes and the position before them stay unless they are disturbed. -/
theorem Leads.untouched (hs : s.Kept) (h : d.Leads s s') (hb : b < s.world.cells.size)
    (hd : ¬d.Disturbs b s.world) :
    (s'.world.buffer b).payload = (s.world.buffer b).payload ∧
      (s'.world.buffer b).pos = (s.world.buffer b).pos := by
  cases h.touches hs hb with
  | @call me call hcall heq =>
      rw [heq]
      refine BufferCall.untouched fun a ha => Bool.eq_false_iff.2 fun hyes => hd (.inl ?_)
      exact ⟨me, call, hcall, a, ha, hyes⟩
  | carry _ hcarries _ => exact (hd (.inr (.inl hcarries))).elim
  | lent _ hcleans hlent =>
      refine ⟨hlent.payload, ?_⟩
      rcases hlent.cursors with ⟨-, hpos⟩ | ⟨⟨hsome, howner⟩, -⟩
      · exact hpos
      · obtain ⟨me, hme⟩ := Option.isSome_iff_exists.1 hsome
        refine (hd (.inr (.inr ⟨me, hcleans me hme, fun t ht => ?_⟩))).elim
        exact (Option.some.inj (hme.symm.trans (howner t ht))).symm

end StepLabel

/-- Along the journal every byte of the buffer stays, and its write position does. -/
def Untouched (b : BufferId) (log : List Entry) : Prop :=
  ∀ e ∈ log, (e.after.world.buffer b).payload = (e.before.world.buffer b).payload ∧
    (e.after.world.buffer b).pos = (e.before.world.buffer b).pos

theorem Scene.Logs.eq_of_untouched (h : start.Logs log s) (hlog : Untouched b log) :
    (s.world.buffer b).payload = (start.world.buffer b).payload ∧
      (s.world.buffer b).pos = (start.world.buffer b).pos := by
  induction h with
  | refl => exact ⟨rfl, rfl⟩
  | @step log s s' d h hd ih =>
      obtain ⟨hpayload, hpos⟩ := ih fun e he => hlog e (List.mem_append_left _ he)
      have hlast := hlog ⟨s, d, s'⟩ (List.mem_append_right _ List.mem_cons_self)
      exact ⟨hlast.1.trans hpayload, hlast.2.trans hpos⟩

/-- A journal in which nothing disturbs the staged bytes. -/
theorem Scene.Logs.untouched (hs : start.Kept) (hb : b < start.world.cells.size)
    (h : start.Logs log s) (hlog : ∀ e ∈ log, ¬e.label.Disturbs b e.before.world) :
    Untouched b log := by
  induction h with
  | refl => exact fun e he => absurd he List.not_mem_nil
  | @step log s s' d h hd ih =>
      intro e he
      rcases List.mem_append.1 he with hold | hnew
      · exact ih (fun e he => hlog e (List.mem_append_left _ he)) e hold
      · have hrest := hlog e he
        obtain rfl := List.mem_singleton.1 hnew
        exact hd.untouched (Scene.Reaches.kept hs h.reaches)
          (Scene.Reaches.size_le hs h.reaches hb) hrest

/-- After bytes were staged they stand behind the write position, inside the payload. -/
theorem StepLabel.Leads.staged (hs : s.Kept) (h : d.Leads s s') (hb : b < s.world.cells.size)
    {t : Thread} {bytes : List UInt8} (hcall : d.call? b s.world = some (t, .stage bytes))
    (hok : ((s.world.buffer b).stage t bytes).isOk = true) :
    (s'.world.buffer b).pos.toNat + bytes.length ≤ (s'.world.buffer b).capacity.toNat ∧
      (s'.world.buffer b).payload.slice (s'.world.buffer b).pos.toNat bytes.length = bytes := by
  cases h.touches hs hb with
  | @call me call hsome heq =>
      obtain ⟨rfl, rfl⟩ := Prod.mk.inj (Option.some.inj (hcall.symm.trans hsome))
      cases hstage : (s.world.buffer b).stage t bytes with
      | error e =>
          rw [hstage] at hok
          cases hok
      | ok staged =>
          have hstaged : s'.world.buffer b = staged := by
            rw [heq, BufferCall.acts, if_neg (hs.not_astray b)]
            exact congrArg (fun outcome : Except _ Buffer => outcome.toOption.getD _) hstage
          obtain ⟨hpos, hinside, hslice⟩ := (hs.inOrder_buffer b).slice_of_stage hstage
          rw [hstaged, hpos]
          exact ⟨hinside, hslice⟩
  | carry hnone _ _ => exact absurd (hcall.symm.trans hnone) (Option.some_ne_none _)
  | lent hnone _ _ => exact absurd (hcall.symm.trans hnone) (Option.some_ne_none _)

/-- Bytes have been added to what can be read of `new`, and every other buffer is as it was. -/
structure Appended (new : BufferId) (bytes : List UInt8) (w w' : World Desk) : Prop where
  unflushed : (w'.buffer new).unflushed = (w.buffer new).unflushed ++ bytes
  others : ∀ b, b ≠ new → w'.buffer b = w.buffer b

/-- Bytes that were staged on one thread, and that nothing has disturbed since, are carried over and
committed on any thread that has a buffer with room for them. -/
theorem Scene.Logs.carry_staged (h : start.Logs log s) {bytes : List UInt8} {old new : BufferId}
    {me : Thread} {used requested : UInt64}
    (hstaged : (start.world.buffer old).pos.toNat + bytes.length ≤
        (start.world.buffer old).capacity.toNat ∧
      (start.world.buffer old).payload.slice (start.world.buffer old).pos.toNat bytes.length =
        bytes)
    (hlog : Untouched old log) (hsource : ¬(s.world.buffer old).Astray s.world.profile)
    (hreported : (s.world.buffer old).reportedPos = (s.world.buffer old).pos.toNat)
    (hnew : new < s.world.cells.size) (hfaithful : (s.world.buffer new).Faithful) (hne : old ≠ new)
    (hused : used.toNat = bytes.length) (howner : (s.world.buffer new).owner = some me)
    (hroom : used.toNat + requested.toNat ≤ (s.world.buffer new).freeSize.toNat) :
    ∃ w₁ w₂, (carryOver old new me used requested : DeskM Unit) s.world = .ok () w₁ ∧
      (commit new me used : DeskM _) w₁ = .ok (.ok ()) w₂ ∧ Appended new bytes s.world w₂ := by
  obtain ⟨hpayload, hpos⟩ := h.eq_of_untouched hlog
  obtain ⟨hinside, hslice⟩ := hstaged
  rw [Buffer.capacity, ← hpayload, ← hpos] at hinside
  rw [← hpayload, ← hpos, ← hused] at hslice
  have hcarriable : Carriable (s.world.buffer old) (s.world.buffer new) me used requested := by
    refine ⟨?_, ?_, ?_, hroom, howner⟩ <;> rw [hreported]
    · omega
    · change _ ≤ ((s.world.buffer old).payload.capacity.toNat : Int)
      omega
    · change _ ≤ ((s.world.buffer old).payload.capacity.toNat : Int) - _
      omega
  obtain ⟨w₁, w₂, hcarry, hcommit, hread, hrest⟩ := carryOver_commit hnew hfaithful hne hsource
    hcarriable
  rw [hreported, Int.toNat_natCast, hslice] at hread
  exact ⟨w₁, w₂, hcarry, hcommit, hread, hrest⟩

/-- Every buffer of a plain world reports the position at which it writes. -/
theorem Scene.Kept.faithful (hs : s.Kept) (hformat : s.world.format = .plain)
    (hb : b < s.world.cells.size) : (s.world.buffer b).Faithful where
  toInOrder := hs.inOrder_buffer b
  reportedPos := by
    rw [Buffer.reportedPos, hs.plain hformat hb]
    exact Int.add_zero _

/-- Whatever two buffers are given, bytes are carried over to one that reports its true write position
if and only if five conditions hold. Nothing happens when one of them fails. When all of them hold,
the bytes behind the reported position of the source are copied behind the write position of the
target, inside both payloads, and nothing else is changed. Before the conditions are checked, the
position of the source is looked up, which in the checked profile faults if it is astray; at the scenes of
a run no buffer is.

So, if bytes were staged in a buffer and nothing was written to it or committed in it since, and its
content was not forgotten, they can be carried over to another buffer. Committing them there does
not fail, and they are read behind what was there to be read. -/
theorem staged_bytes_migrate {profile : Profile} {format : Format} {maker : Supply} {s : Scene}
    (hs : (Scene.empty profile format maker).Reaches s) :
    (∀ (w : World Desk) old new me used requested, new < w.cells.size →
      (w.buffer new).Faithful →
      (old ≠ new ∧ (w.buffer old).Astray w.profile →
        PoolM.carryOver old new me used requested w = .error (.unexpected .withinPayload) w) ∧
      (¬(old ≠ new ∧ (w.buffer old).Astray w.profile) →
        (¬(old ≠ new ∧ Carriable (w.buffer old) (w.buffer new) me used requested) →
          ∃ fault, PoolM.carryOver old new me used requested w = .error (.transfer fault) w) ∧
        (old ≠ new ∧ Carriable (w.buffer old) (w.buffer new) me used requested →
          ∃ w', PoolM.carryOver old new me used requested w = .ok () w' ∧
            Copied old new used.toNat w w'))) ∧
    (∀ b, ¬(s.world.buffer b).Astray s.world.profile) ∧
    (∀ old < s.world.cells.size, ∀ d s₁ t bytes, StepLabel.Leads d s s₁ →
      d.call? old s.world = some (t, .stage bytes) →
      ((s.world.buffer old).stage t bytes).isOk = true → ∀ log s', s₁.Logs log s' →
      ((∀ e ∈ log, ¬e.label.Disturbs old e.before.world) → Untouched old log) ∧
      (Untouched old log →
        (s'.world.buffer old).reportedPos = (s'.world.buffer old).pos.toNat →
        ∀ new < s'.world.cells.size, ∀ me used requested, old ≠ new →
        (s'.world.buffer new).Faithful → (s'.world.buffer new).owner = some me →
        used.toNat = bytes.length →
        used.toNat + requested.toNat ≤ (s'.world.buffer new).freeSize.toNat →
        ∃ w₁ w₂, PoolM.carryOver old new me used requested s'.world = .ok () w₁ ∧
          PoolM.commit new me used w₁ = .ok (.ok ()) w₂ ∧ Appended new bytes s'.world w₂)) ∧
    (s.world.format = .plain → ∀ b < s.world.cells.size, (s.world.buffer b).Faithful) := by
  have hkept : s.Kept := Scene.Reaches.kept (kept_empty profile format maker) hs
  refine ⟨fun w old new me used requested hnew hfaithful => ⟨fun hastray => ?astray,
    fun hsource => ⟨carryOver_error hsource, fun h => ?copied⟩⟩, hkept.not_astray, ?staged,
    fun hformat b hb => hkept.faithful hformat hb⟩
  case astray => exact carryOver_of_astray hastray.1 hastray.2
  case copied =>
    exact carryOver_copies hnew hfaithful h.1 (fun hastray => hsource ⟨h.1, hastray⟩) h.2
  case staged =>
    intro old hold d s₁ t bytes hd hcall hok log s' hlog
    have hkept₁ : s₁.Kept := hd.step.kept hkept
    have hold₁ := Scene.Reaches.size_le hkept (.single hd.step) hold
    refine ⟨hlog.untouched hkept₁ hold₁, ?_⟩
    intro huntouched hreported new hnew me used requested hne hfaithful howner hused hroom
    exact hlog.carry_staged (hd.staged hkept hold hcall hok) huntouched
      ((Scene.Reaches.kept hkept₁ hlog.reaches).not_astray old) hreported hnew hfaithful hne hused
      howner hroom

/-- Two bytes are staged behind a committed one, and a second buffer is obtained and written to. Then
the two bytes are carried over, and are read behind the byte that was written. -/
theorem two_staged_bytes_migrate :
    let w := performAll 0 0 [.build .standard false, .obtain .provideAcquired 100 none (some "a"),
      .onBuffer (.named "a") (.write [63])] (.empty .checked .plain (.within none) .empty)
    let stage : Call := .onBuffer (.named "a") (.stage [104, 105])
    let w₁ := (stage.perform 0 0).leaves w
    let calls : List Call := [.obtain .provideAcquired 8192 none (some "b"),
      .onBuffer (.named "a") .flush, .onBuffer (.named "b") (.write [33])]
    let w' := performAll 0 0 calls w₁
    ∃ w₂ w₃, PoolM.carryOver 0 1 0 2 8000 w' = .ok () w₂ ∧
      PoolM.commit 1 0 2 w₂ = .ok (.ok ()) w₃ ∧ (w₃.buffer 1).unflushed = [33, 104, 105] ∧
      w₃.buffer 0 = w'.buffer 0 := by
  intro w stage w₁ calls w'
  have hrun : (Scene.empty .checked .plain (.within none)).Reaches ⟨w, []⟩ :=
    reaches_performAll 0 0 _ _
  obtain ⟨-, -, hstaged, -⟩ := staged_bytes_migrate hrun
  have hlog : Scene.Logs ⟨w₁, []⟩ (journal 0 0 calls w₁) ⟨w', []⟩ := logs_journal 0 0 calls w₁
  have huntouched : ∀ e ∈ journal 0 0 calls w₁,
      (e.after.world.buffer 0).payload = (e.before.world.buffer 0).payload ∧
        (e.after.world.buffer 0).pos = (e.before.world.buffer 0).pos := by decide +kernel
  obtain ⟨-, hcarry⟩ := hstaged 0 (by decide +kernel) _ ⟨w₁, []⟩ 0 [104, 105]
    (leads_call 0 0 stage w)
    (StepLabel.call?_onBuffer 0 0 _ (by decide +kernel)) (by decide +kernel) _ _ hlog
  obtain ⟨w₂, w₃, hcarried, hcommitted, hread, hrest⟩ := hcarry huntouched (by decide +kernel) 1
    (by decide +kernel) 0 2 8000 (by decide)
    ⟨⟨by decide +kernel, by decide +kernel⟩, by decide +kernel⟩ (by decide +kernel) rfl
    (by decide +kernel)
  dsimp only at hcarried hread hrest
  refine ⟨w₂, w₃, hcarried, hcommitted, ?_, hrest 0 (by decide)⟩
  rw [hread]
  decide +kernel

end BufferPool.Desk
