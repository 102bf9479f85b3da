import BufferPool.Proofs.Drain.Backlog
import BufferPool.Proofs.Drain.Plant

/-!
# What holds of a plant at work

Whoever works on a buffer has a claim to it. The claim says where the buffer is registered, who owns
it, and what is known of its cursors. No two claims are to the same buffer: either the owners differ,
or the buffer is not in a lane and nobody else has come across it.

A plant is in order if all claims hold, the free lane has blank buffers only, and what was written is
what was drained and what is still unflushed in the full lane. A step that touches some buffers keeps
a plant in order if nobody else has a claim to those and what they are now is in order again.
-/

namespace BufferPool

open Arena (Catalog)
open PoolM

variable {σ : Type} {w w' : World σ} {p : PoolId} {k t : Thread} {minimum : UInt64}
  {c c' : Catalog BufferId}

/-- What somebody who works on a buffer relies on. -/
structure Claim where
  buffer : BufferId
  /-- The key, if the buffer is registered. -/
  key : Option Arena.Key
  lane : Option Lane
  owner : Option Thread
  /-- Whether nothing was written since the buffer was empty. -/
  blank : Bool
  /-- Whether everything was flushed. -/
  flushed : Bool
  /-- How many bytes fit. -/
  room : UInt64
  /-- At least how many references there are. -/
  refs : Nat

namespace Message

/-- How much room a buffer for the message has. -/
def room (m : Message minimum) : UInt64 := SizeClass.atLeast m.size minimum

theorem size_le_room (m : Message minimum) : m.size ≤ m.room :=
  SizeClass.le_atLeast m.size minimum

theorem minimum_le_room (m : Message minimum) : minimum ≤ m.room :=
  SizeClass.minimum_le_atLeast m.size minimum

theorem room_of_le {m : Message minimum} (h : m.size ≤ minimum) : m.room = minimum :=
  SizeClass.atLeast_of_le h

end Message

namespace Stage

/-- What a producer on thread `t` relies on. -/
def claim? (t : Thread) : Stage minimum → Option Claim
  | .made m b => some ⟨b, none, none, none, true, true, m.room, 1⟩
  | .enrolled m h => some ⟨h.buffer, some h.key, none, none, true, true, m.room, 2⟩
  | .acquired m h | .marked m h =>
    some ⟨h.buffer, some h.key, none, some t, true, true, m.room, 2⟩
  | .taken m h => some ⟨h.buffer, some h.key, some .free, some t, true, true, m.room, 0⟩
  | .holding m h => some ⟨h.buffer, some h.key, some .full, some t, true, true, m.room, 0⟩
  | .written h => some ⟨h.buffer, some h.key, some .full, some t, false, false, 0, 0⟩
  | _ => none

def handle? : Stage minimum → Option Handle
  | .taken _ h | .enrolled _ h | .acquired _ h | .marked _ h | .holding _ h | .written h
  | .parting h => some h
  | _ => none

/-- The buffer to which a producer has a reference. -/
def buffer? : Stage minimum → Option BufferId
  | .made _ b => some b
  | stage => stage.handle?.map (·.buffer)

/-- A claim is always to the buffer at hand. -/
theorem buffer?_of_claim? {stage : Stage minimum} {cl : Claim} (h : stage.claim? t = some cl) :
    stage.buffer? = some cl.buffer := by
  cases stage <;> simp only [claim?, Option.some.injEq, reduceCtorEq] at h
  all_goals
    subst h
    rfl

theorem buffer?_of_handle? {stage : Stage minimum} {g : Handle} (h : stage.handle? = some g) :
    stage.buffer? = some g.buffer := by
  cases stage <;> simp only [handle?, Option.some.injEq, reduceCtorEq] at h
  all_goals
    subst h
    rfl

/-- There is no claim without a buffer. -/
theorem claim?_ne_of_buffer? {stage : Stage minimum} (h : stage.buffer? = none) (t : Thread)
    (cl : Claim) : stage.claim? t ≠ some cl := by
  intro hcl
  rw [buffer?_of_claim? hcl] at h
  exact nomatch h

/-- A released buffer is not claimed any more. -/
theorem claim?_parting (g : Handle) (t : Thread) (cl : Claim) :
    (Stage.parting g : Stage minimum).claim? t ≠ some cl :=
  fun hcl => Option.some_ne_none cl hcl.symm

/-- A producer relies on the owner being itself, except that a private buffer may be unowned. -/
theorem owner_of_claim? {stage : Stage minimum} {cl : Claim} (h : stage.claim? t = some cl) :
    cl.owner = some t ∨ cl.owner = none ∧ cl.lane = none := by
  cases stage <;> simp only [claim?, Option.some.injEq, reduceCtorEq] at h
  all_goals
    subst h
    simp

/-- What is claimed is not abandoned. -/
theorem kept_of_claim? {stage : Stage minimum} {cl : Claim} (h : stage.claim? t = some cl) :
    cl.key = none ∨ cl.lane ≠ none ∨ 2 ≤ cl.refs := by
  cases stage <;> simp only [claim?, Option.some.injEq, reduceCtorEq] at h
  all_goals
    subst h
    simp

/-- References are counted on only while a buffer is private. -/
theorem refs_of_claim? {stage : Stage minimum} {cl : Claim} (h : stage.claim? t = some cl) :
    cl.refs = 0 ∨ cl.lane = none := by
  cases stage <;> simp only [claim?, Option.some.injEq, reduceCtorEq] at h
  all_goals
    subst h
    simp

end Stage

namespace Pass

/-- The captured handles that the consumer still has to deal with. -/
def handles : Pass → List Handle
  | .resting => []
  | .visiting rest => rest
  | .acquired h rest | .flushed h rest | .emptied h rest | .released h rest => h :: rest

/-- What the consumer on thread `k` relies on. -/
def claim? (k : Thread) : Pass → Option Claim
  | .resting | .visiting _ => none
  | .acquired h _ => some ⟨h.buffer, some h.key, some .full, some k, false, false, 0, 0⟩
  | .flushed h _ => some ⟨h.buffer, some h.key, some .full, some k, false, true, 0, 0⟩
  | .emptied h _ => some ⟨h.buffer, some h.key, some .full, some k, true, true, 0, 0⟩
  | .released h _ => some ⟨h.buffer, some h.key, some .full, none, true, true, 0, 0⟩

theorem owner_of_claim? {pass : Pass} {cl : Claim} (h : pass.claim? k = some cl) :
    (cl.owner = some k ∨ cl.owner = none) ∧ cl.lane = some .full ∧ cl.refs = 0 ∧
      ∃ key, cl.key = some key := by
  cases pass <;> simp only [claim?, Option.some.injEq, reduceCtorEq] at h
  all_goals
    subst h
    simp

end Pass

/-- The claim is true. -/
structure Claim.Holds (cl : Claim) (c : Catalog BufferId) (w : World σ) : Prop where
  registered : ∀ key, cl.key = some key → c.place key = some (cl.buffer, cl.lane)
  unregistered : cl.key = none → ∀ key lane, c.place key ≠ some (cl.buffer, lane)
  bound : cl.buffer < w.cells.size
  owner : (w.buffer cl.buffer).owner = cl.owner
  blank : cl.blank = true → (w.buffer cl.buffer).Blank
  flushed : cl.flushed = true → (w.buffer cl.buffer).top = (w.buffer cl.buffer).pos
  room : cl.room ≤ (w.buffer cl.buffer).capacity
  refs : cl.refs ≤ w.refs cl.buffer

theorem Claim.Holds.frame {touched : BufferId → Prop} {cl : Claim} (h : cl.Holds c w)
    (hf : Frame touched c w c' w') (ht : ¬touched cl.buffer) (hrefs : cl.refs ≤ w'.refs cl.buffer) :
    cl.Holds c' w' := by
  have halike := hf.alike cl.buffer h.bound ht
  refine ⟨fun key hk => ?_, fun hk key lane hp => ?_, Nat.lt_of_lt_of_le h.bound hf.size, ?_, ?_, ?_,
    ?_, hrefs⟩
  · exact (hf.spares key cl.buffer cl.lane ht).2 (h.registered key hk)
  · exact h.unregistered hk key lane ((hf.spares key cl.buffer lane ht).1 hp)
  · rw [halike.owner, h.owner]
  · exact fun hb => halike.blank (h.blank hb)
  · intro hb
    rw [halike.top, halike.pos, h.flushed hb]
  · rw [halike.capacity]
    exact h.room

/-- The buffer of a claim is where the claim says and nowhere else. -/
theorem Claim.Holds.place {cl : Claim} {w : World σ} (h : cl.Holds c w) (hd : c.Distinct)
    {key : Arena.Key} {lane : Option Lane} (hp : c.place key = some (cl.buffer, lane)) :
    cl.key = some key ∧ lane = cl.lane := by
  cases hk : cl.key with
  | none => exact absurd hp (h.unregistered hk key lane)
  | some key' =>
      have hp' := h.registered key' hk
      obtain rfl := hd key key' _ _ _ hp hp'
      rw [hp] at hp'
      exact ⟨rfl, (Prod.mk.inj (Option.some.inj hp')).2⟩

/-- A buffer as it must be in its lane. -/
structure Stored (minimum : UInt64) (b : Buffer) (lane : Option Lane) : Prop where
  capacity : minimum ≤ b.capacity
  free : lane = some .free → b.Blank
  full : lane = some .full → b.top ≤ b.pos

theorem stored_full {b : Buffer} (hc : minimum ≤ b.capacity) (hp : b.top ≤ b.pos) :
    Stored minimum b (some .full) where
  capacity := hc
  free hl := by cases hl
  full _ := hp

theorem Stored.alike {b b' : Buffer} {lane : Option Lane} (h : Stored minimum b lane)
    (ha : b.Alike b') : Stored minimum b' lane := by
  refine ⟨?_, fun hl => ha.blank (h.free hl), fun hl => ?_⟩
  · rw [ha.capacity]
    exact h.capacity
  · rw [ha.top, ha.pos]
    exact h.full hl

theorem Stored.claim {b : Buffer} {lane : Option Lane} (h : Stored minimum b lane) :
    Stored minimum (b.claim t) lane :=
  ⟨h.capacity, fun hl => ⟨(h.free hl).top, (h.free hl).pos, (h.free hl).retired⟩, h.full⟩

/-- The pool `p` is in the order that producers and the consumer on thread `k` rely on. -/
structure Plant.Orderly (p : PoolId) (k : Thread) (c : Catalog BufferId) (s : Plant σ minimum) :
    Prop where
  stocks : s.world.Stocks p minimum c
  distinct : c.Distinct
  stored : ∀ key b lane, c.place key = some (b, lane) →
    b < s.world.cells.size ∧ Stored minimum (s.world.buffer b) lane
  claims : ∀ t cl, (s.producers t).claim? t = some cl → cl.Holds c s.world
  known : ∀ t b, (s.producers t).buffer? = some b → b < s.world.cells.size
  home : ∀ t h, (s.producers t).handle? = some h → h.pool = p
  /-- Nobody else has come across a buffer that is in no lane. -/
  apart : ∀ t cl, (s.producers t).claim? t = some cl → cl.lane = none →
    ∀ t', t' ≠ t → (s.producers t').buffer? ≠ some cl.buffer
  /-- Nor is such a buffer among those that the consumer has captured. -/
  unheld : ∀ t cl, (s.producers t).claim? t = some cl → cl.lane = none →
    ∀ handles ∈ s.world.held, ∀ h ∈ handles, h.buffer ≠ cl.buffer
  held : ∀ handles ∈ s.world.held, ∀ h ∈ handles, h.buffer < s.world.cells.size
  consumer : s.producers k = .idle
  pass : ∀ cl, s.pass.claim? k = some cl → cl.Holds c s.world
  captured : ∀ h ∈ s.pass.handles, h.pool = p ∧ c.place h.key = some (h.buffer, some .full)
  nodup : s.pass.handles.Nodup
  sound : ∀ m ∈ s.log, m.sound = true
  balance : bytesDrained s.log + backlog c s.world = bytesWritten s.log

namespace Plant.Orderly

variable {s : Plant σ minimum}

/-- Two producers never have claims to the same buffer. -/
theorem claim_ne (h : s.Orderly p k c) {t t' : Thread} (ht : t ≠ t') {cl cl' : Claim}
    (hcl : (s.producers t).claim? t = some cl) (hcl' : (s.producers t').claim? t' = some cl') :
    cl.buffer ≠ cl'.buffer := by
  intro heq
  have howner := (h.claims t cl hcl).owner
  have howner' := (h.claims t' cl' hcl').owner
  rw [← heq, howner] at howner'
  rcases Stage.owner_of_claim? hcl with ho | ⟨-, hl⟩
  · rcases Stage.owner_of_claim? hcl' with ho' | ⟨-, hl'⟩
    · rw [ho, ho', Option.some.injEq] at howner'
      exact ht howner'
    · apply h.apart t' cl' hcl' hl' t ht
      rw [Stage.buffer?_of_claim? hcl, heq]
  · apply h.apart t cl hcl hl t' ht.symm
    rw [Stage.buffer?_of_claim? hcl', heq]

/-- Private buffers are in no lane. -/
theorem claim_ne_of_listed (h : s.Orderly p k c) {key : Arena.Key} {b : BufferId} {lane : Lane}
    (hp : c.place key = some (b, some lane)) {t : Thread} {cl : Claim}
    (hcl : (s.producers t).claim? t = some cl) (hl : cl.lane = none) : cl.buffer ≠ b := by
  intro heq
  have hplace := (h.claims t cl hcl).place h.distinct (heq ▸ hp)
  rw [hl] at hplace
  exact nomatch hplace.2

/-- A buffer in a lane that nobody owns is claimed by no producer. -/
theorem claim_ne_of_unowned (h : s.Orderly p k c) {key : Arena.Key} {b : BufferId} {lane : Lane}
    (hp : c.place key = some (b, some lane)) (howner : (s.world.buffer b).owner = none) {t : Thread}
    {cl : Claim} (hcl : (s.producers t).claim? t = some cl) : cl.buffer ≠ b := by
  intro heq
  rcases Stage.owner_of_claim? hcl with ho | ⟨-, hl⟩
  · have howner' := (h.claims t cl hcl).owner
    rw [heq, howner, ho] at howner'
    exact nomatch howner'
  · exact h.claim_ne_of_listed hp hcl hl heq

/-- What the consumer deals with is claimed by no producer. -/
theorem claim_ne_pass (h : s.Orderly p k c) {cl cl' : Claim} (hcl : s.pass.claim? k = some cl)
    {t : Thread} (hcl' : (s.producers t).claim? t = some cl') : cl'.buffer ≠ cl.buffer := by
  have ht : t ≠ k := by
    rintro rfl
    rw [h.consumer] at hcl'
    exact nomatch hcl'
  obtain ⟨howner, hlane, -, key, hkey⟩ := Pass.owner_of_claim? hcl
  have hholds := h.pass cl hcl
  have hp := hholds.registered key hkey
  rw [hlane] at hp
  rcases howner with ho | ho
  · intro heq
    have howner' := (h.claims t cl' hcl').owner
    rw [heq, hholds.owner, ho] at howner'
    rcases Stage.owner_of_claim? hcl' with ho' | ⟨ho', -⟩
    · rw [ho', Option.some.injEq] at howner'
      exact ht howner'.symm
    · rw [ho'] at howner'
      exact nomatch howner'
  · exact h.claim_ne_of_unowned hp (hholds.owner.trans ho) hcl'

end Plant.Orderly

/-- What a producer has at hand in its next stage is its own affair. -/
structure Hands (p : PoolId) (s : Plant σ minimum) (t : Thread) (stage : Stage minimum)
    (w' : World σ) : Prop where
  known : ∀ b, stage.buffer? = some b → b < w'.cells.size
  home : ∀ h, stage.handle? = some h → h.pool = p
  apart : ∀ cl, stage.claim? t = some cl → cl.lane = none →
    ∀ t', t' ≠ t → (s.producers t').buffer? ≠ some cl.buffer
  unheld : ∀ cl, stage.claim? t = some cl → cl.lane = none →
    ∀ handles ∈ s.world.held, ∀ h ∈ handles, h.buffer ≠ cl.buffer
  meets : ∀ b, stage.buffer? = some b → ∀ t', t' ≠ t → ∀ cl,
    (s.producers t').claim? t' = some cl → cl.lane = none → cl.buffer ≠ b

namespace Plant.Orderly

variable {s : Plant σ minimum}

theorem hands_of_none {stage : Stage minimum} (hn : stage.buffer? = none) :
    Hands p s t stage w' := by
  have hclaim := Stage.claim?_ne_of_buffer? hn t
  refine ⟨fun b hb => ?_, fun h hh => ?_, fun cl hcl => absurd hcl (hclaim cl),
    fun cl hcl => absurd hcl (hclaim cl), fun b hb => ?_⟩
  · exact nomatch hn.symm.trans hb
  · cases stage <;> simp only [Stage.handle?, reduceCtorEq] at hh
    all_goals exact nomatch hn
  · exact nomatch hn.symm.trans hb

/-- The producer has got a buffer that is in a lane. -/
theorem hands_of_listed {h : Handle} (hlt : h.buffer < w'.cells.size) (hpool : h.pool = p)
    {m : Message minimum} (hmeets : ∀ t', t' ≠ t → ∀ cl, (s.producers t').claim? t' = some cl →
      cl.lane = none → cl.buffer ≠ h.buffer) : Hands p s t (.taken m h) w' := by
  refine ⟨fun b hb => ?_, fun h' hh => ?_, fun cl hcl hl => ?_, fun cl hcl hl => ?_,
    fun b hb => ?_⟩
  · obtain rfl := Option.some.inj hb
    exact hlt
  · obtain rfl := Option.some.inj hh
    exact hpool
  · obtain rfl := Option.some.inj hcl
    exact nomatch hl
  · obtain rfl := Option.some.inj hcl
    exact nomatch hl
  · obtain rfl := Option.some.inj hb
    exact hmeets

/-- The producer goes on with the same buffer. -/
theorem hands_of_same (h : s.Orderly p k c) {stage : Stage minimum}
    (hsize : s.world.cells.size ≤ w'.cells.size)
    (hbuffer : stage.buffer? = (s.producers t).buffer?)
    (hhome : ∀ g, stage.handle? = some g → g.pool = p)
    (hclaim : ∀ cl, stage.claim? t = some cl → cl.lane = none →
      ∃ cl', (s.producers t).claim? t = some cl' ∧ cl'.lane = none) :
    Hands p s t stage w' := by
  have hold : ∀ cl, stage.claim? t = some cl → cl.lane = none →
      ∃ cl', (s.producers t).claim? t = some cl' ∧ cl'.lane = none ∧ cl'.buffer = cl.buffer := by
    intro cl hcl hl
    obtain ⟨cl', hcl', hl'⟩ := hclaim cl hcl hl
    refine ⟨cl', hcl', hl', Option.some.inj ?_⟩
    rw [← Stage.buffer?_of_claim? hcl', ← hbuffer, Stage.buffer?_of_claim? hcl]
  refine ⟨fun b hb => ?_, hhome, fun cl hcl hl t' ht' => ?_, fun cl hcl hl handles hh g hg => ?_,
    fun b hb t' ht' cl hcl hl heq => ?_⟩
  · exact Nat.lt_of_lt_of_le (h.known t b (hbuffer ▸ hb)) hsize
  · obtain ⟨cl', hcl', hl', heq⟩ := hold cl hcl hl
    rw [← heq]
    exact h.apart t cl' hcl' hl' t' ht'
  · obtain ⟨cl', hcl', hl', heq⟩ := hold cl hcl hl
    rw [← heq]
    exact h.unheld t cl' hcl' hl' handles hh g hg
  · apply h.apart t' cl hcl hl t ht'.symm
    rw [← hbuffer, hb, heq]

/-- The producer goes on with the same handle. -/
theorem hands_of_handle (h : s.Orderly p k c) {stage : Stage minimum} {g : Handle}
    (hsize : s.world.cells.size ≤ w'.cells.size) (hold : (s.producers t).handle? = some g)
    (hnew : stage.handle? = some g)
    (hclaim : ∀ cl, stage.claim? t = some cl → cl.lane = none →
      ∃ cl', (s.producers t).claim? t = some cl' ∧ cl'.lane = none) :
    Hands p s t stage w' := by
  have hbuffer : stage.buffer? = (s.producers t).buffer? := by
    rw [Stage.buffer?_of_handle? hold, Stage.buffer?_of_handle? hnew]
  apply h.hands_of_same hsize hbuffer ?_ hclaim
  intro g' hg
  exact h.home t g' (by rw [hold, ← hnew, hg])

/-- What a step of the producer on thread `t` may do to a plant. It touches no buffer to which anybody
else has a claim, and takes nothing out of the full lane. -/
structure Shift (p : PoolId) (k t : Thread) (s : Plant σ minimum) (touched : BufferId → Prop)
    (c c' : Catalog BufferId) (w' : World σ) : Prop where
  stocks : w'.Stocks p minimum c'
  distinct : c'.Distinct
  held : w'.held = s.world.held
  frame : Frame touched c s.world c' w'
  others : ∀ t', t' ≠ t → ∀ cl, (s.producers t').claim? t' = some cl →
    ¬touched cl.buffer ∧ cl.refs ≤ w'.refs cl.buffer
  pass : ∀ cl, s.pass.claim? k = some cl → ¬touched cl.buffer
  full : ∀ key b, c.place key = some (b, some .full) → c'.place key = some (b, some .full)
  stored : ∀ key b lane, touched b → c'.place key = some (b, lane) →
    b < w'.cells.size ∧ Stored minimum (w'.buffer b) lane

theorem shift (h : s.Orderly p k c) (ht : t ≠ k) {stage : Stage minimum} {log : List Mark}
    {touched : BufferId → Prop} (hf : Shift p k t s touched c c' w')
    (hclaim : ∀ cl, stage.claim? t = some cl → cl.Holds c' w') (hhands : Hands p s t stage w')
    (hsound : ∀ m ∈ log, m.sound = true)
    (hbalance : bytesDrained log + backlog c' w' = bytesWritten log) :
    (⟨w', Function.update s.producers t stage, s.pass, log⟩ : Plant σ minimum).Orderly p k c' := by
  have hupdate : ∀ {P : Thread → Stage minimum → Prop}, P t stage →
      (∀ t', t' ≠ t → P t' (s.producers t')) →
      ∀ t', P t' (Function.update s.producers t stage t') := by
    intro P hnew hold t'
    rw [Function.update_apply]
    split_ifs with heq
    · exact heq ▸ hnew
    · exact hold t' heq
  have hsize := hf.frame.size
  refine ⟨hf.stocks, hf.distinct, fun key b lane hp => ?_, ?_, ?_, ?_, ?_, ?_, ?_, ?_, ?_, ?_,
    h.nodup, hsound, hbalance⟩
  · by_cases hb : touched b
    · exact hf.stored key b lane hb hp
    · obtain ⟨hlt, hst⟩ := h.stored key b lane ((hf.frame.spares key b lane hb).1 hp)
      exact ⟨Nat.lt_of_lt_of_le hlt hsize, hst.alike (hf.frame.alike b hlt hb)⟩
  · apply hupdate (P := fun t' stage => ∀ cl, stage.claim? t' = some cl → cl.Holds c' w') hclaim
    intro t' ht' cl hcl
    obtain ⟨hb, hrefs⟩ := hf.others t' ht' cl hcl
    exact (h.claims t' cl hcl).frame hf.frame hb hrefs
  · apply hupdate (P := fun _ stage => ∀ b, stage.buffer? = some b → b < w'.cells.size)
      hhands.known
    exact fun t' _ b hb => Nat.lt_of_lt_of_le (h.known t' b hb) hsize
  · exact hupdate (P := fun _ stage => ∀ g, stage.handle? = some g → g.pool = p) hhands.home
      fun t' _ => h.home t'
  · apply hupdate (P := fun t₁ stage₁ => ∀ cl, stage₁.claim? t₁ = some cl → cl.lane = none →
      ∀ t₂, t₂ ≠ t₁ → (Function.update s.producers t stage t₂).buffer? ≠ some cl.buffer)
    · intro cl hcl hl t₂ ht₂
      rw [Function.update_of_ne ht₂]
      exact hhands.apart cl hcl hl t₂ ht₂
    · intro t₁ ht₁ cl hcl hl t₂ ht₂ hb
      rw [Function.update_apply] at hb
      split_ifs at hb with heq
      · exact hhands.meets _ hb t₁ ht₁ cl hcl hl rfl
      · exact h.apart t₁ cl hcl hl t₂ ht₂ hb
  · rw [hf.held]
    exact hupdate (P := fun t' stage => ∀ cl, stage.claim? t' = some cl → cl.lane = none →
      ∀ handles ∈ s.world.held, ∀ g ∈ handles, g.buffer ≠ cl.buffer) hhands.unheld
      fun t' _ => h.unheld t'
  · rw [hf.held]
    exact fun handles hh g hg => Nat.lt_of_lt_of_le (h.held handles hh g hg) hsize
  · exact (Function.update_of_ne ht.symm _ _).trans h.consumer
  · intro cl hcl
    have hrefs : cl.refs ≤ w'.refs cl.buffer := by
      rw [(Pass.owner_of_claim? hcl).2.2.1]
      exact Nat.zero_le _
    exact (h.pass cl hcl).frame hf.frame (hf.pass cl hcl) hrefs
  · intro g hg
    obtain ⟨hpool, hp⟩ := h.captured g hg
    exact ⟨hpool, hf.full _ _ hp⟩

end Plant.Orderly

end BufferPool
