import BufferPool.Proofs.Pool.Discarding
import BufferPool.Proofs.Pool.WarrantedRequests

/-!
# What a sweep does not come to

The passes of a sweep change no buffer that is not in the lane, and no one-shot buffer. They put nothing
into the lane either, so this does not depend on how many passes there are.
-/

namespace BufferPool

open PoolM World

namespace Sweep

variable {σ : Type} {w w' : World σ} {p : PoolId} {lane : Lane} {b : BufferId} {x : Buffer}
  {me : Thread} {s : Sweep} {h : Handle}

/-- The buffer is one-shot, or it is no member of the lane. -/
structure Bypassed (p : PoolId) (lane : Lane) (b : BufferId) (x : Buffer) (w : World σ) : Prop where
  ready : Warrant.all.Ready w
  buffer : w.buffer b = x
  absent : x.transient = false → ∀ key, w.place? p key ≠ some (b, some lane)

theorem Bypassed.congr (hw : Bypassed p lane b x w) (hr : Warrant.all.Ready w')
    (hb : w'.buffer b = w.buffer b) (ha : w'.arena? p = w.arena? p) : Bypassed p lane b x w' :=
  ⟨hr, hb.trans hw.buffer, fun hx key => place?_congr ha key ▸ hw.absent hx key⟩

/-- A visit to a one-shot buffer changes no buffer. -/
theorem buffer_visit_of_transient (hone : (w.buffer h.buffer).transient = true) (b : BufferId) :
    ((s.visit me h).leaves w).buffer b = w.buffer b := by
  have hspares : Spares (Pool.giveBack (σ := σ) s.pool s.lane h >>= fun _ => pure (true, s.counted)) :=
    (Pool.spares_giveBack s.pool s.lane h).bind fun _ => .pure _
  rw [leaves, visit_of_transient hone]
  exact (hspares.buffer_leaves (w.retain h.buffer) b).trans (w.buffer_retain h.buffer b)

/-- A visit to a buffer that lasts leaves the arenas. -/
theorem arena?_visit_of_lasting (hlasting : (w.buffer h.buffer).transient = false) (q : PoolId) :
    ((s.visit me h).leaves w).arena? q = w.arena? q := by
  let rest (held : Bool) : PoolM σ (Bool × Sweep) :=
    if held then recycle me h.buffer >>= fun _ => pure (true, s.counted) else pure (true, s)
  have hrest : ∀ held, PoolM.Quiet (rest held) := by
    intro held
    cases held with
    | false => exact .pure _
    | true => exact (quiet_recycle me h.buffer).bind fun _ => .pure _
  rw [visit, leaves_getBuffer_bind, hlasting, if_neg Bool.false_ne_true]
  exact (((quiet_hold s me h.buffer).bind hrest) w).arena q

/-- A visit to a one-shot buffer, or to another one than this. -/
theorem Bypassed.visit (me : Thread) (hw : Bypassed s.pool lane b x w)
    (hh : h.buffer = b → x.transient = true) :
    ((s.visit me h).leaves w).buffer b = x ∧
      ∀ r w', s.visit me h w = .ok r w' → Bypassed s.pool lane b x w' := by
  have hbuffer : ((s.visit me h).leaves w).buffer b = w.buffer b := by
    by_cases hb : h.buffer = b
    · exact buffer_visit_of_transient (by rw [hb, hw.buffer]; exact hh hb) b
    · exact keeps_visit me s (Ne.symm hb) _ w rfl
  refine ⟨hbuffer.trans hw.buffer, fun r w' hr => ?_⟩
  have hserves : Warrant.all.Serves w ((s.visit me h).leaves w) :=
    (warranted_visit (P := fun _ => True) (fun _ _ _ _ => trivial) Warrant.stable_true s
      (fun _ _ _ _ _ _ => trivial) w hw.ready trivial).1
  rw [leaves_of_ok hr] at hbuffer hserves
  refine ⟨hw.ready.serves hserves, hbuffer.trans hw.buffer, fun hx key => ?_⟩
  cases hone : (w.buffer h.buffer).transient with
  | true =>
      rw [(discards_visit hw.ready.sound hone hr).place]
      split_ifs
      · exact nofun
      · exact hw.absent hx key
  | false =>
      have harena : ((s.visit me h).leaves w).arena? s.pool = w.arena? s.pool :=
        arena?_visit_of_lasting hone s.pool
      rw [leaves_of_ok hr] at harena
      exact place?_congr harena key ▸ hw.absent hx key

theorem Bypassed.letGo (hw : Bypassed p lane b x w) : Bypassed p lane b x w.letGo := by
  refine hw.congr (hw.ready.steps (.single (.harmless ?_))) (buffer_letGo w b) (arena?_letGo w p)
  unfold World.letGo
  cases w.held with
  | nil => exact harmless_refl w
  | cons handles outer =>
      have hcalm := calm_dropAll w handles
      exact ⟨hcalm.arena, hcalm.size, hcalm.buffer, hcalm.events⟩

/-- Of the handles that are captured, none is to the buffer unless it is one-shot. -/
theorem Bypassed.capture (hw : Bypassed p lane b x w) {handles : List Handle}
    (hm : w.Members p lane handles) (n : Note) :
    Bypassed p lane b x ((w.hold handles).emit (.noted p n)) ∧
      ∀ h ∈ handles, h.buffer = b → x.transient = true := by
  have hready : Warrant.all.Ready (w.hold handles) :=
    hw.ready.steps (.single (.harmless (harmless_hold w handles)))
  refine ⟨hw.congr (hready.serves (.of_calm (calm_emit _ rfl))) (buffer_hold w handles b)
    (arena?_hold w handles p), ?_⟩
  rintro h hh rfl
  by_contra hlasting
  exact hw.absent (Bool.eq_false_of_not_eq_true hlasting) h.key ((hm.mem_iff h).1 hh).2

/-- However a pass over the lane ends, it has left the buffer. If it answers, so will the next one. -/
theorem triple_bypassed_pass {route : Pool.Route} (hp : s.pool = p) (dir : Direction) :
    Triple (Bypassed p route.target b x) (s.pass (σ := σ) me route dir)
      (fun s' w => s'.pool = p ∧ Bypassed p route.target b x w) fun w => w.buffer b = x := by
  subst hp
  intro w hw
  have htravel : Triple (· = w) (Pool.travel s.pool route dir (Sweep.visit me) s)
      (fun r w' => r.2.pool = s.pool ∧ Bypassed s.pool route.target b x w')
      fun w' => w'.buffer b = x := by
    refine Pool.triple_travel
      (Q := fun (s₁ : Sweep) w₁ => s₁.pool = s.pool ∧ Bypassed s.pool route.target b x w₁)
      (P := fun _ rest (s₁ : Sweep) w₁ => Bypassed s.pool route.target b x w₁ ∧
        s₁.pool = s.pool ∧ ∀ h ∈ rest, h.buffer = b → x.transient = true)
      (F := fun _ w₁ => w₁.buffer b = x) (by rintro _ rfl; exact hw.buffer)
      (by rintro _ _ rfl - -; exact ⟨rfl, hw⟩)
      ((Pool.triple_capture (hw.ready.sound s.pool) route.target dir).weaken (fun _ hw => hw) ?_
        (by rintro _ rfl; exact hw.buffer)) ?_ (fun _ _ _ hw₁ => ⟨hw₁.2.1, hw₁.1.letGo⟩)
        fun _ w₁ hb => (buffer_letGo w₁ b).trans hb
    · rintro handles _ ⟨rfl, hm⟩
      obtain ⟨hheld, hothers⟩ := hw.capture hm (.traversing route.target dir handles.length)
      exact ⟨hheld, rfl, hothers⟩
    · rintro handles s₁ h rest w₁ ⟨hw₁, hpool, hrest⟩
      rw [← hpool] at hw₁
      obtain ⟨hb, hnext⟩ := hw₁.visit me (hrest h List.mem_cons_self)
      cases hr : s₁.visit me h w₁ with
      | error fault w₂ =>
          rw [leaves_of_error hr] at hb
          exact hb
      | ok r w₂ =>
          obtain ⟨hmore, hcounted⟩ := visit_eq_ok hr
          have hpool' : r.2.pool = s.pool := by
            rw [hcounted, ← hpool]
            split_ifs <;> rfl
          exact ⟨⟨hpool ▸ hnext r w₂ hr, hpool', fun g hg => hrest g (List.mem_cons_of_mem _ hg)⟩,
            fun hstop => nomatch hmore.symm.trans hstop⟩
  exact (Triple.bind htravel fun _ => .pure fun _ hw' => hw' :
    Triple (· = w) (s.pass me route dir) _ _) w rfl

theorem triple_bypassed_passes {route : Pool.Route} (hp : s.pool = p) (dir : Direction) (n : Nat) :
    Triple (Bypassed p route.target b x) (passes (σ := σ) me route dir n s)
      (fun _ w => w.buffer b = x) fun w => w.buffer b = x := by
  induction n generalizing s with
  | zero => exact .pure fun _ hw => hw.buffer
  | succ n ih =>
      refine Triple.bind (triple_bypassed_pass hp dir) fun s' => ?_
      intro w hw
      exact Triple.bind (ih hw.1) (fun _ => .pure fun _ hb => hb) w hw.2

/-- Passes over a lane leave every buffer that is one-shot or not in the lane, however they end. -/
theorem buffer_passes {route : Pool.Route} (hr : Warrant.all.Ready w)
    (habsent : (w.buffer b).transient = false → ∀ key,
      w.place? s.pool key ≠ some (b, some route.target)) (dir : Direction) (n : Nat) :
    ((passes me route dir n s).leaves w).buffer b = w.buffer b :=
  (triple_bypassed_passes rfl dir n).leaves ⟨hr, rfl, habsent⟩

end Sweep

end BufferPool
