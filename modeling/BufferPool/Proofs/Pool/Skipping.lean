import BufferPool.Sweep
import BufferPool.Proofs.Pool.Frame
import BufferPool.Proofs.Pool.Lending
import BufferPool.Proofs.Pool.TraversalRules
import BufferPool.Proofs.World.Acts

/-!
# What a sweep skips

A sweep acquires what it empties. Of a buffer that another thread owns, and that is no one-shot
buffer, it leaves everything as it is: the bytes, the cursors, the owner, the marks and the place. All
that happens is that a metered buffer counts the attempt. Nor do the other visits of a pass touch it.
-/

namespace BufferPool

open PoolM World

variable {σ α : Type}

/-- The buffer without its instruments. -/
def Buffer.bare (b : Buffer) : Buffer := { b with meter := none }

namespace PoolM

/-- What is done to one buffer leaves the others. -/
theorem keeps_buffer_of_work {act : PoolM σ α} {b c : BufferId} (hne : b ≠ c)
    (h : ∀ w, ∃ acts, act.leaves w = w.work c acts) (v : Buffer) :
    Keeps (fun w => w.buffer b = v) act := by
  intro w hw
  obtain ⟨acts, ha⟩ := h w
  rw [ha, work, buffer_modifyBuffer_of_ne w _ hne]
  exact hw

end PoolM

namespace Sweep

/-- Another thread than `me` owns the buffer, and it is no one-shot buffer. -/
def skips (me : Thread) (b : Buffer) : Bool := !b.transient && b.owner.any (· != me)

variable {me : Thread} {s s' : Sweep} {h : Handle} {w w' : World σ} {b : BufferId}

theorem skips_iff {buffer : Buffer} : skips me buffer = true ↔
    buffer.transient = false ∧ ∃ t, buffer.owner = some t ∧ t ≠ me := by
  simp [skips, Option.any_eq_true]

theorem hold_of_skips (hs : skips me (w.buffer b) = true) :
    s.hold me b w = .ok false (w.modifyBuffer b (·.countAttempt)) := by
  obtain ⟨-, t, howner, hne⟩ := skips_iff.1 hs
  have hget : (getBuffer b : PoolM σ Buffer) w = .ok (w.buffer b) w := rfl
  have hmine : (w.buffer b).ownedBy me = false := by
    rw [Buffer.ownedBy, howner]
    exact beq_eq_false_iff_ne.2 fun h => hne (Option.some.inj h)
  have htry : (w.buffer b).tryAcquire s.maker = (false, (w.buffer b).countAttempt) := by
    rw [Buffer.tryAcquire, howner]
    rfl
  have hsame : w.modifyBuffer b (fun _ => (w.buffer b).countAttempt) =
      w.modifyBuffer b (·.countAttempt) := modifyBuffer_congr rfl
  rw [hold, bind_of_ok _ hget, hmine, if_neg Bool.false_ne_true, tryAcquire_ok, htry, hsame]

/-- The visit to a buffer that is skipped. It makes no difference who made the sweep. -/
theorem visit_of_skips (hs : skips me (w.buffer h.buffer) = true) :
    s.visit me h w = .ok (true, s) (w.modifyBuffer h.buffer (·.countAttempt)) := by
  have hget : (getBuffer h.buffer : PoolM σ Buffer) w = .ok (w.buffer h.buffer) w := rfl
  rw [visit, bind_of_ok _ hget, (skips_iff.1 hs).1, if_neg Bool.false_ne_true,
    bind_of_ok _ (hold_of_skips hs)]
  rfl

/-- A buffer that could not be acquired is one that is skipped. -/
theorem skips_of_hold (ht : (w.buffer b).transient = false) (hh : s.hold me b w = .ok false w') :
    skips me (w.buffer b) = true := by
  have hget : (getBuffer b : PoolM σ Buffer) w = .ok (w.buffer b) w := rfl
  rw [hold, bind_of_ok _ hget] at hh
  split_ifs at hh with hmine
  · cases hh
  · rw [tryAcquire_ok] at hh
    have hlost := (EStateM.Result.ok.inj hh).1
    rw [Buffer.tryAcquire] at hlost
    cases howner : (w.buffer b).owner with
    | none =>
        rw [howner] at hlost
        cases hlost
    | some t =>
        refine skips_iff.2 ⟨ht, t, howner, ?_⟩
        rintro rfl
        rw [Buffer.ownedBy, howner, beq_self_eq_true] at hmine
        exact hmine rfl

/-- A visit that ends is counted unless it skips. -/
theorem visit_eq_ok {more : Bool} (hv : s.visit me h w = .ok (more, s') w') :
    more = true ∧ s' = if skips me (w.buffer h.buffer) then s else s.counted := by
  have hget : (getBuffer h.buffer : PoolM σ Buffer) w = .ok (w.buffer h.buffer) w := rfl
  by_cases hs : skips me (w.buffer h.buffer) = true
  · rw [visit_of_skips hs] at hv
    obtain ⟨hr, -⟩ := EStateM.Result.ok.inj hv
    obtain ⟨rfl, rfl⟩ := Prod.mk.inj hr
    exact ⟨rfl, (if_pos hs).symm⟩
  · rw [if_neg hs]
    have hcounted : ∀ {act : PoolM σ Unit} {w₀ : World σ},
        (act >>= fun _ => Pure.pure (true, s.counted)) w₀ = .ok (more, s') w' →
          more = true ∧ s' = s.counted := by
      intro act w₀ hr
      obtain ⟨_, _, -, hr⟩ := bind_eq_ok hr
      obtain ⟨hr, -⟩ := EStateM.Result.ok.inj hr
      obtain ⟨rfl, rfl⟩ := Prod.mk.inj hr
      exact ⟨rfl, rfl⟩
    rw [visit, bind_of_ok _ hget] at hv
    split_ifs at hv with ht
    · obtain ⟨_, _, -, hv⟩ := bind_eq_ok hv
      exact hcounted hv
    · obtain ⟨held, w₁, hhold, hv⟩ := bind_eq_ok hv
      cases held with
      | true => exact hcounted hv
      | false => exact absurd (skips_of_hold (Bool.eq_false_of_not_eq_true ht) hhold) hs

theorem hold_work (me : Thread) (s : Sweep) (b : BufferId) (w : World σ) :
    ∃ acts, (s.hold me b).leaves w = w.work b acts := by
  rw [hold, leaves_getBuffer_bind]
  split_ifs
  · exact ⟨[], (work_nil w b).symm⟩
  · exact ⟨_, leaves_tryAcquire b s.maker w⟩

theorem keeps_recycle (hne : b ≠ h.buffer) (v : Buffer) :
    Keeps (fun w : World σ => w.buffer b = v) (recycle me h.buffer) :=
  (keeps_buffer_of_work hne (fun w => ⟨_, leaves_reset h.buffer me w⟩) v).bind fun _ =>
    (spares_getBuffer _ b v).bind fun _ => (spares_expect _ _ b v).bind fun _ =>
      (spares_getBuffer _ b v).bind fun _ => (spares_expect _ _ b v).bind fun _ =>
        keeps_buffer_of_work hne (fun w => ⟨_, leaves_release h.buffer w⟩) v

/-- A visit leaves the other buffers. -/
theorem keeps_visit (me : Thread) (s : Sweep) (hne : b ≠ h.buffer) (v : Buffer) :
    Keeps (fun w : World σ => w.buffer b = v) (s.visit me h) := by
  apply (spares_getBuffer h.buffer b v).bind
  intro buffer
  split_ifs
  · exact (spares_retain _ b v).bind fun _ => (Pool.spares_giveBack _ _ _ b v).bind fun _ =>
      .pure _
  · apply (keeps_buffer_of_work hne (hold_work me s h.buffer) v).bind
    intro held
    split_ifs
    · exact (keeps_recycle hne v).bind fun _ => .pure _
    · exact .pure _

theorem rests_visit {w₀ : World σ} {q : PoolId} {key : Arena.Key} (hne : q = s.pool → key ≠ h.key) :
    Keeps (World.Rests w₀ · q key) (s.visit me h) := by
  apply (quiet_getBuffer h.buffer).rests.bind
  intro buffer
  split_ifs
  · exact (quiet_retain h.buffer).rests.bind fun _ =>
      (Pool.rests_giveBack hne s.lane).bind fun _ => .pure _
  · apply (quiet_hold s me h.buffer).rests.bind
    intro held
    split_ifs
    · exact (quiet_recycle me h.buffer).rests.bind fun _ => .pure _
    · exact .pure _

end Sweep

namespace World

/-- These are handles to all members of a lane, one to each. -/
structure Members (w : World σ) (p : PoolId) (lane : Lane) (handles : List Handle) : Prop where
  nodup : handles.Nodup
  mem_iff : ∀ h, h ∈ handles ↔ h.pool = p ∧ w.place? p h.key = some (h.buffer, some lane)

variable {w : World σ} {p : PoolId} {lane : Lane} {handles : List Handle}

theorem members_of_count {pool : Pool} (hp : w.pool? p = some pool) (hs : pool.arena.Sound)
    (hcount : pool.arena.count lane = 0) : w.Members p lane [] := by
  obtain ⟨wiring, hw⟩ := hs
  rw [hw.shows_catalog.count, List.length_eq_zero_iff] at hcount
  refine ⟨List.nodup_nil, fun h => iff_of_false List.not_mem_nil fun hm => ?_⟩
  rw [place?_of_pool? hp] at hm
  have hkey := (hw.mem_order lane h.key).2 ⟨_, hm.2⟩
  rw [hcount] at hkey
  exact List.not_mem_nil hkey

/-- No buffer is captured twice. -/
theorem Members.nodup_buffers (h : w.Members p lane handles)
    (hv : ∀ a, w.arena? p = some a → a.values.Nodup) : (handles.map (·.buffer)).Nodup := by
  refine List.Nodup.map_on (fun g hg g' hg' hb => ?_) h.nodup
  obtain ⟨hpool, hplace⟩ := (h.mem_iff g).1 hg
  obtain ⟨hpool', hplace'⟩ := (h.mem_iff g').1 hg'
  obtain ⟨a, ha, hk⟩ := Option.bind_eq_some_iff.1 hplace
  obtain ⟨a', ha', hk'⟩ := Option.bind_eq_some_iff.1 hplace'
  rw [ha, Option.some.injEq] at ha'
  subst ha'
  rw [hb] at hk
  have hkey := Arena.key_eq_of_nodup_values (hv a ha) hk hk'
  obtain ⟨q, key, b⟩ := g
  obtain ⟨q', key', b'⟩ := g'
  dsimp only at hpool hpool' hb hkey
  rw [hpool, hpool', hb, hkey]

theorem arena?_hold (w : World σ) (handles : List Handle) (q : PoolId) :
    (w.hold handles).arena? q = w.arena? q :=
  (quiet_foldl_retain w handles).arena q

theorem buffer_hold (w : World σ) (handles : List Handle) (b : BufferId) :
    (w.hold handles).buffer b = w.buffer b :=
  buffer_foldl_retain w handles b

theorem arena?_letGo (w : World σ) (q : PoolId) : w.letGo.arena? q = w.arena? q := by
  unfold letGo
  cases w.held with
  | nil => rfl
  | cons handles outer => exact (quiet_dropAll w handles).arena q

theorem buffer_letGo (w : World σ) (b : BufferId) : w.letGo.buffer b = w.buffer b := by
  unfold letGo
  cases w.held with
  | nil => rfl
  | cons handles outer => exact buffer_dropAll w handles b

end World

namespace Pool

variable {w : World σ} {p : PoolId}

theorem capture_members {pool : Pool} (hp : w.pool? p = some pool) (hs : pool.arena.Sound)
    (lane : Lane) (dir : Direction) :
    ∃ handles, capture p lane dir w = .ok handles (w.hold handles) ∧
      w.Members p lane handles := by
  obtain ⟨wiring, hw⟩ := hs
  have hstocks : w.Stocks p pool.minimum (pool.arena.catalog wiring) :=
    ⟨minimum?_of_pool? hp, pool.arena, wiring, arena?_of_pool? hp, hw, rfl⟩
  obtain ⟨handles, _, hr, rfl, hnodup, hmem⟩ := capture_ok hstocks lane dir
  refine ⟨handles, hr, hnodup, fun h => ?_⟩
  rw [place?_of_pool? hp]
  exact hmem h

theorem triple_capture (hs : ∀ a, w.arena? p = some a → a.Sound) (lane : Lane)
    (dir : Direction) :
    Triple (· = w) (capture p lane dir)
      (fun handles w' => w' = w.hold handles ∧ w.Members p lane handles) (· = w) := by
  rintro _ rfl
  rename_i w
  cases hp : w.pool? p with
  | none =>
      rw [capture, bind_of_error _ (readArena_of_none hp)]
  | some pool =>
      obtain ⟨handles, hr, hm⟩ := capture_members hp (hs _ (arena?_of_pool? hp)) lane dir
      rw [hr]
      exact ⟨rfl, hm⟩

end Pool

namespace Sweep

variable {me : Thread} {s s' : Sweep} {w₀ w w' : World σ} {b : BufferId} {q : PoolId}
  {key : Arena.Key} {lane : Option Lane} {handles : List Handle}

/-- Apart from its instruments the buffer is as it was, and where it was. -/
structure Undisturbed (w₀ : World σ) (b : BufferId) (q : PoolId) (key : Arena.Key)
    (lane : Option Lane) (w : World σ) : Prop where
  bare : (w.buffer b).bare = (w₀.buffer b).bare
  sits : w.Sits q key (b, lane)

theorem Undisturbed.congr (h : Undisturbed w₀ b q key lane w) (hb : w'.buffer b = w.buffer b)
    (hq : w'.arena? q = w.arena? q) : Undisturbed w₀ b q key lane w' :=
  ⟨hb ▸ h.bare, h.sits.congr hq⟩

/-- A visit to any member of the lane, be it this buffer or another one. -/
theorem Undisturbed.visit {h : Handle} {l : Lane} (hw : Undisturbed w₀ b q key lane w)
    (hs : skips me (w₀.buffer b) = true) (hplace : w₀.place? q key = some (b, lane))
    (hm : w₀.Members s.pool l handles) (hh : h ∈ handles) :
    Undisturbed w₀ b q key lane ((s.visit me h).leaves w) := by
  by_cases hb : h.buffer = b
  · have hskip : skips me (w.buffer h.buffer) = true := by
      change skips me (w.buffer h.buffer).bare = true
      rw [hb, hw.bare]
      exact hs
    rw [leaves_of_ok (visit_of_skips hskip)]
    refine ⟨?_, hw.sits.congr rfl⟩
    rw [← hw.bare, hb, World.buffer, getElem?_modifyBuffer, if_pos rfl, World.buffer]
    cases w.cells[b]? <;> rfl
  · have hother : q = s.pool → key ≠ h.key := by
      rintro rfl rfl
      have hplace' := ((hm.mem_iff h).1 hh).2
      rw [hplace] at hplace'
      exact hb (Prod.mk.inj (Option.some.inj hplace')).1.symm
    refine ⟨?_, (Keeps.sits fun _ => rests_visit hother) w hw.sits⟩
    rw [keeps_visit me s (Ne.symm hb) _ w rfl]
    exact hw.bare

/-- However a pass ends, what it skips is undisturbed, and so is every other such buffer. -/
theorem undisturbed_pass (hs : skips me (w.buffer b) = true) (hsits : w.Sits q key (b, lane))
    (hsound : ∀ a, w.arena? s.pool = some a → a.Sound) (route : Pool.Route) (dir : Direction) :
    Undisturbed w b q key lane ((s.pass me route dir).leaves w) := by
  have hstart : Undisturbed w b q key lane w := ⟨rfl, hsits⟩
  have hlet : ∀ {w₁}, Undisturbed w b q key lane w₁ → Undisturbed w b q key lane w₁.letGo :=
    fun h => h.congr (buffer_letGo _ b) (arena?_letGo _ q)
  have htravel : Triple (· = w) (Pool.travel s.pool route dir (visit me) s)
      (fun _ => Undisturbed w b q key lane) (Undisturbed w b q key lane) := by
    refine Pool.triple_travel (Q := fun _ => Undisturbed w b q key lane)
      (P := fun handles rest s₁ w₁ => Undisturbed w b q key lane w₁ ∧ s₁.pool = s.pool ∧
        w.Members s.pool route.target handles ∧ ∀ h ∈ rest, h ∈ handles)
      (F := fun _ => Undisturbed w b q key lane) (by rintro _ rfl; exact hstart)
      (by rintro _ _ rfl - -; exact hstart)
      ((Pool.triple_capture hsound route.target dir).weaken (fun _ hw => hw) ?_
        (by rintro _ rfl; exact hstart)) ?_ (fun _ _ _ hw => hlet hw.1) fun _ _ hw => hlet hw
    · rintro handles _ ⟨rfl, hm⟩
      exact ⟨hstart.congr (buffer_hold w handles b) (arena?_hold w handles q), rfl, hm,
        fun _ hh => hh⟩
    · rintro handles s₁ h rest w₁ ⟨hw, hpool, hm, hrest⟩
      rw [← hpool] at hm
      have hvisit := hw.visit hs hsits.place hm (hrest h List.mem_cons_self)
      cases hr : s₁.visit me h w₁ with
      | error fault w₂ =>
          rw [leaves_of_error hr] at hvisit
          exact hvisit
      | ok r w₂ =>
          rw [leaves_of_ok hr] at hvisit
          have hpool' : r.2.pool = s₁.pool := by
            rw [(visit_eq_ok hr).2]
            split_ifs <;> rfl
          exact ⟨⟨hvisit, hpool'.trans hpool, hpool ▸ hm,
            fun g hg => hrest g (List.mem_cons_of_mem _ hg)⟩, fun _ => hlet hvisit⟩
  have hpass : Triple (· = w) (s.pass me route dir) (fun _ => Undisturbed w b q key lane)
      (Undisturbed w b q key lane) := Triple.bind htravel fun _ => .pure fun _ hw => hw
  exact hpass.leaves rfl

/-- A pass that ends has counted the members of the lane that it does not skip. -/
theorem processed_pass (hsound : ∀ a, w.arena? s.pool = some a → a.Sound)
    (hvalues : ∀ a, w.arena? s.pool = some a → a.values.Nodup) {route : Pool.Route}
    {dir : Direction} (hr : s.pass me route dir w = .ok s' w') :
    ∃ handles, w.Members s.pool route.target handles ∧
      s'.processed = s.processed +
        .ofNat (handles.countP fun h => !skips me (w.buffer h.buffer)) := by
  let f : Handle → Bool := fun h => !skips me (w.buffer h.buffer)
  have htravel : Triple (· = w) (Pool.travel s.pool route dir (visit me) s)
      (fun r _ => ∃ handles, w.Members s.pool route.target handles ∧
        r.2.processed = s.processed + .ofNat (handles.countP f)) fun _ => True := by
    refine Pool.triple_travel
      (Q := fun (s₁ : Sweep) _ => ∃ handles, w.Members s.pool route.target handles ∧
        s₁.processed = s.processed + .ofNat (handles.countP f))
      (P := fun handles rest (s₁ : Sweep) w₁ => w.Members s.pool route.target handles ∧
        (rest.map (·.buffer)).Nodup ∧ (∀ h ∈ rest, w₁.buffer h.buffer = w.buffer h.buffer) ∧
        s₁.processed + .ofNat (rest.countP f) = s.processed + .ofNat (handles.countP f))
      (F := fun _ _ => True) (fun _ _ => trivial) ?_
      ((Pool.triple_capture hsound route.target dir).weaken (fun _ hw => hw) ?_
        fun _ _ => trivial) ?_ (fun handles _ _ hw => ⟨handles, hw.1, by simpa using hw.2.2.2⟩)
        fun _ _ _ => trivial
    · rintro _ pool rfl hp hcount
      exact ⟨[], members_of_count hp (hsound _ (arena?_of_pool? hp)) hcount, by simp⟩
    · rintro handles _ ⟨rfl, hm⟩
      exact ⟨hm, hm.nodup_buffers hvalues, fun h _ => buffer_hold w handles h.buffer, rfl⟩
    · rintro handles s₁ h rest w₁ ⟨hm, hnodup, hsame, hcount⟩
      cases hv : s₁.visit me h w₁ with
      | error fault w₂ => trivial
      | ok r w₂ =>
          obtain ⟨hmore, hnext⟩ := visit_eq_ok hv
          rw [List.map_cons, List.nodup_cons] at hnodup
          refine ⟨⟨hm, hnodup.2, fun g hg => ?_, ?_⟩, fun hstop => ?_⟩
          · have hne : g.buffer ≠ h.buffer := fun he => hnodup.1 (he ▸ List.mem_map_of_mem hg)
            have hkeeps := keeps_visit me s₁ hne _ w₁ (hsame g (List.mem_cons_of_mem _ hg))
            rwa [leaves_of_ok hv] at hkeeps
          · rw [← hcount, hnext, hsame h List.mem_cons_self, List.countP_cons]
            by_cases hskip : skips me (w.buffer h.buffer) = true
            · simp [f, hskip]
            · simp [f, hskip, counted, UInt64.add_assoc, UInt64.add_comm]
          · rw [hmore] at hstop
            exact nomatch hstop
  have hpass : Triple (· = w) (s.pass me route dir)
      (fun s₁ _ => ∃ handles, w.Members s.pool route.target handles ∧
        s₁.processed = s.processed + .ofNat (handles.countP f)) fun _ => True :=
    Triple.bind htravel fun _ => .pure fun _ hw => hw
  have hend := hpass w rfl
  rw [hr] at hend
  exact hend

end Sweep

end BufferPool
