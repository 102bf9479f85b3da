import BufferPool.Proofs.Arena.Ledger
import BufferPool.Proofs.World.Quiet

/-!
# The past of a world

A chronicle has a ledger for every pool, and says which pools are closed. It is never read by an
operation; it is what a witness of the whole run would remember. No buffer appears twice in it, in no
pool and no slot, because a buffer is registered once, when it is made.

Buffers that are made and not registered yet may be reserved. Nobody but the thread that made such a
buffer can register it.

A handle is known if some era of its slot belongs to its buffer and shows as the generation of its
key. The chronicle fits a world if it agrees with every arena and knows every handle there is: those
that running operations hold and those that the client has. What an operation does to the past is one
of a few things, or one after the other: first occupied slots are vacated, each at most once, then
values move in or a pool is closed.
-/

namespace BufferPool

open Arena (Ledger Recorded)

/-- Says which handles a client has. -/
class Client (σ : Type) where
  roots : σ → List Handle

structure Chronicle where
  ledger : PoolId → Ledger BufferId
  closed : PoolId → Prop
  /-- The buffers that some thread has made and not registered yet. -/
  reserved : BufferId → Prop
  unique : ∀ p i e p' i' e' b, (ledger p).tenant i e = some b → (ledger p').tenant i' e' = some b →
    p = p' ∧ i = i' ∧ e = e'
  unborn : ∀ b, reserved b → ∀ p i e, (ledger p).tenant i e ≠ some b

namespace Chronicle

/-- A buffer that has never been registered and is not reserved. -/
structure Fresh (c : Chronicle) (b : BufferId) : Prop where
  unborn : ∀ p i e, (c.ledger p).tenant i e ≠ some b
  unreserved : ¬c.reserved b

/-- The handle was issued when its buffer moved into its slot. -/
def Known (c : Chronicle) (h : Handle) : Prop :=
  ∃ e, h.key.generation = UInt64.ofNat e ∧ (c.ledger h.pool).tenant h.key.index e = some h.buffer

def blank : Chronicle := ⟨fun _ => .blank, fun _ => False, fun _ => False, nofun, nofun⟩

/-- The same past with other reservations. -/
def reserve (c : Chronicle) (reserved : BufferId → Prop)
    (h : ∀ b, reserved b → ∀ p i e, (c.ledger p).tenant i e ≠ some b) : Chronicle :=
  { c with reserved := reserved, unborn := h }

theorem tenant_vacate (c : Chronicle) (p : PoolId) (slots : List Nat) (q : PoolId) :
    (Function.update c.ledger p ((c.ledger p).vacate slots) q).tenant = (c.ledger q).tenant := by
  rw [Function.update_apply]
  split_ifs with hq
  · rw [hq]
    rfl
  · rfl

def vacate (c : Chronicle) (p : PoolId) (slots : List Nat) : Chronicle where
  ledger := Function.update c.ledger p ((c.ledger p).vacate slots)
  closed := c.closed
  reserved := c.reserved
  unique p₁ i e p₂ i' e' b h h' := by
    rw [tenant_vacate] at h h'
    exact c.unique p₁ i e p₂ i' e' b h h'
  unborn b hb q i e := by
    rw [tenant_vacate]
    exact c.unborn b hb q i e

theorem tenant_settle (c : Chronicle) (p : PoolId) (slot : Nat) (b : BufferId) (q : PoolId)
    (i e : Nat) :
    (Function.update c.ledger p ((c.ledger p).settle slot b) q).tenant i e =
      if q = p ∧ i = slot ∧ e = (c.ledger p).age slot then some b else (c.ledger q).tenant i e := by
  rw [Function.update_apply]
  by_cases hq : q = p
  · subst hq
    rw [if_pos rfl]
    simp only [Ledger.settle, true_and]
  · rw [if_neg hq, if_neg fun h => hq h.1]

def settle (c : Chronicle) (p : PoolId) (slot : Nat) (b : BufferId) (hb : c.Fresh b) :
    Chronicle where
  ledger := Function.update c.ledger p ((c.ledger p).settle slot b)
  closed := c.closed
  reserved := c.reserved
  unique p₁ i e p₂ i' e' b' h h' := by
    rw [tenant_settle] at h h'
    by_cases h₁ : p₁ = p ∧ i = slot ∧ e = (c.ledger p).age slot
    · obtain ⟨rfl, rfl, rfl⟩ := h₁
      rw [if_pos ⟨rfl, rfl, rfl⟩, Option.some.injEq] at h
      subst h
      by_cases h₂ : p₂ = p₁ ∧ i' = i ∧ e' = (c.ledger p₁).age i
      · obtain ⟨rfl, rfl, rfl⟩ := h₂
        exact ⟨rfl, rfl, rfl⟩
      · rw [if_neg h₂] at h'
        exact absurd h' (hb.unborn p₂ i' e')
    · rw [if_neg h₁] at h
      by_cases h₂ : p₂ = p ∧ i' = slot ∧ e' = (c.ledger p).age slot
      · rw [if_pos h₂, Option.some.injEq] at h'
        subst h'
        exact absurd h (hb.unborn p₁ i e)
      · rw [if_neg h₂] at h'
        exact c.unique p₁ i e p₂ i' e' b' h h'
  unborn b' hb' q i e := by
    rw [tenant_settle]
    split_ifs
    · intro he
      exact hb.unreserved (Option.some.inj he ▸ hb')
    · exact c.unborn b' hb' q i e

def close (c : Chronicle) (p : PoolId) : Chronicle :=
  { c with closed := fun q => q = p ∨ c.closed q }

/-- A pool was built. Unless it is live, it is closed from the start. -/
def found (c : Chronicle) (p : PoolId) (live : Bool) : Chronicle :=
  { c with closed := fun q => (q = p ∧ live = false) ∨ c.closed q }

/-- Slots were vacated. -/
structure Vacates (c c' : Chronicle) : Prop where
  ledger : ∀ p, (c.ledger p).Vacates (c'.ledger p)
  closed : c'.closed = c.closed
  reserved : c'.reserved = c.reserved

/-- Buffers have moved in, or pools were closed. -/
structure Settles (c c' : Chronicle) : Prop where
  ledger : ∀ p, (c.ledger p).Settles (c'.ledger p)
  closed : ∀ p, c.closed p → c'.closed p
  reserved : c'.reserved = c.reserved

/-- What one call may do to the past. -/
def Updates (c c' : Chronicle) : Prop := ∃ m, c.Vacates m ∧ m.Settles c'

theorem Vacates.refl (c : Chronicle) : c.Vacates c := ⟨fun _ => .refl _, rfl, rfl⟩

theorem Settles.refl (c : Chronicle) : c.Settles c := ⟨fun _ => .refl _, fun _ h => h, rfl⟩

theorem settles_found (c : Chronicle) (p : PoolId) (live : Bool) : c.Settles (c.found p live) :=
  ⟨fun _ => .refl _, fun _ h => .inr h, rfl⟩

theorem Vacates.trans {c c' c'' : Chronicle} (h : c.Vacates c') (h' : c'.Vacates c'') :
    c.Vacates c'' :=
  ⟨fun p => (h.ledger p).trans (h'.ledger p), h'.closed.trans h.closed,
    h'.reserved.trans h.reserved⟩

theorem Settles.trans {c c' c'' : Chronicle} (h : c.Settles c') (h' : c'.Settles c'') :
    c.Settles c'' :=
  ⟨fun p => (h.ledger p).trans (h'.ledger p), fun p hp => h'.closed p (h.closed p hp),
    h'.reserved.trans h.reserved⟩

theorem Updates.refl (c : Chronicle) : c.Updates c := ⟨c, .refl c, .refl c⟩

theorem Vacates.updates {c c' : Chronicle} (h : c.Vacates c') : c.Updates c' := ⟨c', h, .refl c'⟩

theorem Settles.updates {c c' : Chronicle} (h : c.Settles c') : c.Updates c' := ⟨c, .refl c, h⟩

theorem Vacates.trans_updates {c c' c'' : Chronicle} (h : c.Vacates c') (h' : c'.Updates c'') :
    c.Updates c'' := by
  obtain ⟨m, hm, hs⟩ := h'
  exact ⟨m, h.trans hm, hs⟩

/-- A call keeps all that is recorded. -/
theorem Updates.tenant {c c' : Chronicle} (h : c.Updates c') {p : PoolId} {i e : Nat} {b : BufferId}
    (hb : (c.ledger p).tenant i e = some b) : (c'.ledger p).tenant i e = some b := by
  obtain ⟨m, hm, hs⟩ := h
  apply (hs.ledger p).tenant
  rw [(hm.ledger p).tenant]
  exact hb

theorem Updates.closed {c c' : Chronicle} (h : c.Updates c') {p : PoolId} (hp : c.closed p) :
    c'.closed p := by
  obtain ⟨m, hm, hs⟩ := h
  apply hs.closed
  rw [hm.closed]
  exact hp

theorem Updates.reserved {c c' : Chronicle} (h : c.Updates c') : c'.reserved = c.reserved := by
  obtain ⟨m, hm, hs⟩ := h
  rw [hs.reserved, hm.reserved]

/-- In one call a slot is vacated at most once, and only if it was occupied. -/
theorem Updates.age {c c' : Chronicle} (h : c.Updates c') (p : PoolId) (i : Nat) :
    (c'.ledger p).age i = (c.ledger p).age i ∨
      (c'.ledger p).age i = (c.ledger p).age i + 1 ∧
        ((c.ledger p).tenant i ((c.ledger p).age i)).isSome := by
  obtain ⟨m, hm, hs⟩ := h
  rw [(hs.ledger p).age]
  exact (hm.ledger p).age i

/-- The past goes on: what is recorded stays recorded and no slot gets younger. -/
structure Continues (c c' : Chronicle) : Prop where
  tenant : ∀ p i e b, (c.ledger p).tenant i e = some b → (c'.ledger p).tenant i e = some b
  age : ∀ p i, (c.ledger p).age i ≤ (c'.ledger p).age i

theorem Continues.refl (c : Chronicle) : c.Continues c :=
  ⟨fun _ _ _ _ h => h, fun _ _ => Nat.le_refl _⟩

theorem Continues.trans {c c' c'' : Chronicle} (h : c.Continues c') (h' : c'.Continues c'') :
    c.Continues c'' :=
  ⟨fun p i e b hb => h'.tenant p i e b (h.tenant p i e b hb),
    fun p i => Nat.le_trans (h.age p i) (h'.age p i)⟩

theorem Updates.continues {c c' : Chronicle} (h : c.Updates c') : c.Continues c' := by
  refine ⟨fun p i e b hb => h.tenant hb, fun p i => ?_⟩
  rcases h.age p i with hage | ⟨hage, -⟩ <;> omega

theorem Updates.known {c c' : Chronicle} (h : c.Updates c') {handle : Handle} (hk : c.Known handle) :
    c'.Known handle := by
  obtain ⟨e, hg, hb⟩ := hk
  exact ⟨e, hg, h.tenant hb⟩

end Chronicle

section Fits

variable {σ : Type} [Client σ]

/-- The world is what the chronicle says it is now. -/
structure Fits (c : Chronicle) (w : World σ) : Prop where
  unbuilt : ∀ p, w.pools.size ≤ p → c.ledger p = .blank
  arena : ∀ p a, w.arena? p = some a → a.Sound ∧ Recorded (c.ledger p) a
  closed : ∀ p, c.closed p ↔ p < w.pools.size ∧ w.arena? p = none
  cells : ∀ p i e b, (c.ledger p).tenant i e = some b → b < w.cells.size
  reserved : ∀ b, c.reserved b → b < w.cells.size
  held : ∀ handles ∈ w.held, ∀ h ∈ handles, c.Known h
  roots : ∀ h ∈ Client.roots w.client, c.Known h

theorem Fits.quiet {c : Chronicle} {w w' : World σ} (h : Fits c w) (hq : World.Quiet w w') :
    Fits c w' where
  unbuilt p hp := h.unbuilt p (hq.pools ▸ hp)
  arena p a ha := h.arena p a (hq.arena p ▸ ha)
  closed p := by rw [h.closed, hq.pools, hq.arena]
  cells p i e b hb := Nat.lt_of_lt_of_le (h.cells p i e b hb) hq.cells
  reserved b hb := Nat.lt_of_lt_of_le (h.reserved b hb) hq.cells
  held := by rw [hq.held]; exact h.held
  roots := by rw [hq.client]; exact h.roots

/-- An arena was replaced, and the chronicle followed. -/
theorem Fits.setArena {c c' : Chronicle} {w : World σ} {p : PoolId} {pool : Pool}
    {arena : Arena BufferId} (h : Fits c w) (hp : w.pool? p = some pool) (hs : arena.Sound)
    (hr : Recorded (c'.ledger p) arena) (hother : ∀ q, q ≠ p → c'.ledger q = c.ledger q)
    (ht : c.Updates c') (hclosed : c'.closed = c.closed)
    (hcells : ∀ i e b, (c'.ledger p).tenant i e = some b → b < w.cells.size) :
    Fits c' (w.setArena p arena) := by
  have hlt := World.lt_size_of_pool? hp
  have hsize : (w.setArena p arena).pools.size = w.pools.size := World.size_modifyPool ..
  refine ⟨fun q hq => ?_, fun q a ha => ?_, fun q => ?_, fun q i e b hb => ?_, ?_, ?_, ?_⟩
  · rw [hsize] at hq
    have hne : q ≠ p := by
      rintro rfl
      exact absurd hlt (Nat.not_lt.2 hq)
    rw [hother q hne]
    exact h.unbuilt q hq
  · rw [World.arena?_setArena arena hp] at ha
    by_cases hq : q = p
    · rw [if_pos hq, Option.some.injEq] at ha
      rw [hq, ← ha]
      exact ⟨hs, hr⟩
    · rw [if_neg hq] at ha
      rw [hother q hq]
      exact h.arena q a ha
  · rw [hclosed, h.closed, hsize, World.arena?_setArena arena hp]
    by_cases hq : q = p
    · have hsome : w.arena? q = some pool.arena := by
        rw [hq, World.arena?, hp]
        rfl
      rw [if_pos hq, hsome]
      exact and_congr_right fun _ =>
        iff_of_false (Option.some_ne_none _) (Option.some_ne_none _)
    · rw [if_neg hq]
  · by_cases hq : q = p
    · subst hq
      exact hcells i e b hb
    · rw [hother q hq] at hb
      exact h.cells q i e b hb
  · rw [ht.reserved]
    exact h.reserved
  · exact fun handles hh g hg => ht.known (h.held handles hh g hg)
  · exact fun g hg => ht.known (h.roots g hg)

/-- The members of a sound arena are known under their keys. -/
theorem Fits.known_of_place? {c : Chronicle} {w : World σ} {p : PoolId} {a : Arena BufferId}
    {key : Arena.Key} {b : BufferId} {lane : Option Lane} (h : Fits c w) (ha : w.arena? p = some a)
    (hp : a.place? key = some (b, lane)) : c.Known ⟨p, key, b⟩ := by
  obtain ⟨ht, hg⟩ := (h.arena p a ha).2.place? hp
  exact ⟨_, hg, ht⟩

end Fits

section Evolves

variable {σ α β : Type} [Client σ]

open PoolM

/-- If the chronicle fits and `P` holds, then the past changes by `F` however the operation ends, and
if it answers then `Q` holds of the answer. -/
def Evolves (P : Chronicle → World σ → Prop) (F : Chronicle → Chronicle → Prop) (act : PoolM σ α)
    (Q : α → Chronicle → World σ → Prop) : Prop :=
  ∀ c w, Fits c w → P c w → ∃ c', F c c' ∧ Fits c' (act.leaves w) ∧
    ∀ a w', act w = .ok a w' → Q a c' w'

/-- No condition. -/
def Always (_ : Chronicle) (_ : World σ) : Prop := True

/-- No condition on an answer. -/
def Anything (_ : α) (_ : Chronicle) (_ : World σ) : Prop := True

/-- A buffer that was just made. -/
def New (b : BufferId) (c : Chronicle) (w : World σ) : Prop := c.Fresh b ∧ b < w.cells.size

/-- The handle is known. -/
def Gives (h : Handle) (c : Chronicle) (_ : World σ) : Prop := c.Known h

/-- If there is a handle, then it is known. -/
def GivesSome (r : Option Handle) (c : Chronicle) (_ : World σ) : Prop := ∀ h ∈ r, c.Known h

namespace Evolves

variable {P : Chronicle → World σ → Prop} {F G H : Chronicle → Chronicle → Prop} {act : PoolM σ α}
  {next : α → PoolM σ β} {Q : α → Chronicle → World σ → Prop} {R : β → Chronicle → World σ → Prop}

/-- One operation after another. If the first faults, the second does not run. -/
theorem bind_of (h : Evolves P F act Q) (hn : ∀ a, Evolves (Q a) G (next a) R)
    (hF : ∀ {c c'}, F c c' → H c c') (hFG : ∀ {c c' c''}, F c c' → G c' c'' → H c c'') :
    Evolves P H (act >>= next) R := by
  intro c w hfit hP
  obtain ⟨c₁, hc₁, hfit₁, hQ⟩ := h c w hfit hP
  cases hr : act w with
  | ok a w₁ =>
      rw [leaves_of_ok hr] at hfit₁
      obtain ⟨c₂, hc₂, hfit₂, hR⟩ := hn a c₁ w₁ hfit₁ (hQ a w₁ hr)
      have hbind := bind_of_ok next hr
      refine ⟨c₂, hFG hc₁ hc₂, ?_, fun b w₂ hb => hR b w₂ (hbind ▸ hb)⟩
      rw [leaves, hbind]
      exact hfit₂
  | error fault w₁ =>
      rw [leaves_of_error hr] at hfit₁
      have hbind := bind_of_error next hr
      refine ⟨c₁, hF hc₁, ?_, fun b w₂ hb => ?_⟩
      · rw [leaves_of_error hbind]
        exact hfit₁
      · rw [hbind] at hb
        cases hb

theorem weaken {P' : Chronicle → World σ → Prop} {Q' : α → Chronicle → World σ → Prop}
    (h : Evolves P F act Q) (hP : ∀ c w, P' c w → P c w) (hF : ∀ {c c'}, F c c' → G c c')
    (hQ : ∀ a c w, Q a c w → Q' a c w) : Evolves P' G act Q' := by
  intro c w hfit hP'
  obtain ⟨c', hc', hfit', hR⟩ := h c w hfit (hP c w hP')
  exact ⟨c', hF hc', hfit', fun a w' ha => hQ a c' w' (hR a w' ha)⟩

/-- What follows leaves the past as it is. -/
theorem bind_eq (h : Evolves P F act Q) (hn : ∀ a, Evolves (Q a) Eq (next a) R) :
    Evolves P F (act >>= next) R :=
  h.bind_of hn id fun hF hG => hG ▸ hF

theorem bind (h : Evolves P Chronicle.Vacates act Q)
    (hn : ∀ a, Evolves (Q a) Chronicle.Vacates (next a) R) :
    Evolves P Chronicle.Vacates (act >>= next) R :=
  h.bind_of hn id Chronicle.Vacates.trans

theorem bind_updates (h : Evolves P Chronicle.Vacates act Q)
    (hn : ∀ a, Evolves (Q a) Chronicle.Updates (next a) R) :
    Evolves P Chronicle.Updates (act >>= next) R :=
  h.bind_of hn Chronicle.Vacates.updates Chronicle.Vacates.trans_updates

theorem bind_settles (h : Evolves P Chronicle.Settles act Q)
    (hn : ∀ a, Evolves (Q a) Chronicle.Settles (next a) R) :
    Evolves P Chronicle.Settles (act >>= next) R :=
  h.bind_of hn id Chronicle.Settles.trans

/-- An operation that begins by looking at the world. -/
theorem get_bind {next : World σ → PoolM σ β}
    (h : ∀ w, Evolves (fun c w' => P c w' ∧ w' = w) F (next w) R) :
    Evolves P F (MonadState.get >>= next) R :=
  fun c w hfit hP => h w c w hfit ⟨hP, rfl⟩

/-- What is known of an answer anyhow. -/
theorem and_post {R : α → Chronicle → World σ → Prop} (h : Evolves P F act Q)
    (hR : ∀ c w c' a w', Fits c w → P c w → act w = .ok a w' → R a c' w') :
    Evolves P F act fun a c w => Q a c w ∧ R a c w := by
  intro c w hfit hP
  obtain ⟨c', hF, hfit', hQ⟩ := h c w hfit hP
  exact ⟨c', hF, hfit', fun a w' ha => ⟨hQ a w' ha, hR c w c' a w' hfit hP ha⟩⟩

theorem settling (h : Evolves P Eq act Q) : Evolves P Chronicle.Settles act Q :=
  h.weaken (fun _ _ hP => hP) (fun he => he ▸ .refl _) fun _ _ _ hQ => hQ

theorem vacates (h : Evolves P Eq act Q) : Evolves P Chronicle.Vacates act Q :=
  h.weaken (fun _ _ hP => hP) (fun he => he ▸ .refl _) fun _ _ _ hQ => hQ

theorem updates (h : Evolves P Chronicle.Vacates act Q) : Evolves P Chronicle.Updates act Q :=
  h.weaken (fun _ _ hP => hP) Chronicle.Vacates.updates fun _ _ _ hQ => hQ

theorem settles (h : Evolves P Chronicle.Settles act Q) : Evolves P Chronicle.Updates act Q :=
  h.weaken (fun _ _ hP => hP) Chronicle.Settles.updates fun _ _ _ hQ => hQ

/-- A quiet operation leaves the past as it is. -/
theorem of_quiet (h : Quiet act) (hQ : ∀ c w a w', Fits c w → P c w → act w = .ok a w' → Q a c w') :
    Evolves P Eq act Q :=
  fun c w hfit hP => ⟨c, rfl, hfit.quiet (h w), fun a w' ha => hQ c w a w' hfit hP ha⟩

theorem quiet (h : Quiet act) : Evolves P Eq act Anything := of_quiet h fun _ _ _ _ _ _ _ => trivial

theorem quiet_gives {g : Handle} (h : Quiet act) : Evolves (Gives g) Eq act fun _ => Gives g :=
  of_quiet h fun _ _ _ _ _ hk _ => hk

/-- What leaves the past as it is does not forget handles. -/
theorem gives {g : Handle} (h : Evolves Always Eq act Anything) :
    Evolves (Gives g) Eq act fun _ => Gives g := by
  intro c w hfit hk
  obtain ⟨c', rfl, hfit', -⟩ := h c w hfit trivial
  exact ⟨c, rfl, hfit', fun _ _ _ => hk⟩

/-- A condition may be dropped. -/
theorem always (h : Evolves Always F act Q) : Evolves P F act Q :=
  h.weaken (fun _ _ _ => trivial) id fun _ _ _ hQ => hQ

theorem pure {a : α} (h : ∀ c w, P c w → Q a c w) : Evolves P Eq (Pure.pure a) Q := by
  refine of_quiet (.pure a) fun c w b w' _ hP hb => ?_
  obtain ⟨rfl, rfl⟩ := EStateM.Result.ok.inj hb
  exact h c w hP

/-- Cleaning up after a fault leaves the past as it is. -/
theorem onFault {cleanUp : World σ → World σ} (h : Evolves P F act Q)
    (hc : ∀ w, World.Quiet w (cleanUp w)) : Evolves P F (onFault cleanUp act) Q := by
  intro c w hfit hP
  obtain ⟨c', hc', hfit', hQ⟩ := h c w hfit hP
  cases hr : act w with
  | ok a w' =>
      rw [leaves_of_ok hr] at hfit'
      have hon : PoolM.onFault cleanUp act w = .ok a w' := onFault_of_ok hr
      refine ⟨c', hc', ?_, fun b w₂ hb => hQ b w₂ ?_⟩
      · rw [leaves_of_ok hon]
        exact hfit'
      · rw [hon] at hb
        rw [hr, hb]
  | error fault w' =>
      rw [leaves_of_error hr] at hfit'
      have hon : PoolM.onFault cleanUp act w = .error fault (cleanUp w') := onFault_of_error hr
      refine ⟨c', hc', ?_, fun b w₂ hb => ?_⟩
      · rw [leaves_of_error hon]
        exact hfit'.quiet (hc w')
      · rw [hon] at hb
        exact nomatch hb

theorem owning {b : BufferId} (h : Evolves P F act Q) : Evolves P F (owning b act) Q :=
  h.onFault fun w => World.quiet_drop w b

end Evolves

end Evolves

end BufferPool
