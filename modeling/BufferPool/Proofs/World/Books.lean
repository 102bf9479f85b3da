import Mathlib.Algebra.BigOperators.Group.Finset.Basic
import BufferPool.Proofs.World.Chronicle
import BufferPool.Proofs.World.Past

/-!
# Who refers to a buffer

A reference to a buffer is its entry in an arena, a handle of the client or of a running operation,
or what an operation has in hand between two steps. Books list the last kind: the buffers in hand,
and those that are afloat, which are counted by their pool and have no entry in its arena, not yet or
not any more. They also say what the client and the running operations have at present. The books
agree with a world if every count of references is the number of references there are, if the buffers
that arenas and afloat ones together make up are distinct and counted at home, and if the past is in
order.

Each step that an operation is made of either keeps the books or makes one entry in them.
-/

namespace BufferPool

variable {σ : Type}

structure Books (σ : Type) where
  client : σ
  held : List (List Handle)
  /-- References in hand. -/
  hand : Multiset BufferId
  /-- Counted buffers without an entry, each with its pool and one reference. -/
  afloat : Multiset (PoolId × BufferId)

namespace Books

/-- One more reference in hand. -/
def hold (k : Books σ) (b : BufferId) : Books σ := { k with hand := b ::ₘ k.hand }

/-- One more buffer afloat. -/
def launch (k : Books σ) (p : PoolId) (b : BufferId) : Books σ :=
  { k with afloat := (p, b) ::ₘ k.afloat }

/-- Several more buffers of one pool afloat. -/
def launchAll (k : Books σ) (p : PoolId) (buffers : List BufferId) : Books σ :=
  buffers.foldr (fun b k => k.launch p b) k

def adrift (k : Books σ) : Multiset BufferId := k.afloat.map Prod.snd

@[simp] theorem adrift_launch (k : Books σ) (p : PoolId) (b : BufferId) :
    (k.launch p b).adrift = b ::ₘ k.adrift :=
  Multiset.map_cons _ _ _

@[simp] theorem hand_launchAll (k : Books σ) (p : PoolId) (buffers : List BufferId) :
    (k.launchAll p buffers).hand = k.hand := by
  induction buffers with
  | nil => rfl
  | cons b rest ih => exact ih

@[simp] theorem held_launchAll (k : Books σ) (p : PoolId) (buffers : List BufferId) :
    (k.launchAll p buffers).held = k.held := by
  induction buffers with
  | nil => rfl
  | cons b rest ih => exact ih

@[simp] theorem client_launchAll (k : Books σ) (p : PoolId) (buffers : List BufferId) :
    (k.launchAll p buffers).client = k.client := by
  induction buffers with
  | nil => rfl
  | cons b rest ih => exact ih

theorem adrift_launchAll (k : Books σ) (p : PoolId) (buffers : List BufferId) :
    (k.launchAll p buffers).adrift = ↑buffers + k.adrift := by
  induction buffers with
  | nil => exact (Multiset.zero_add _).symm
  | cons b rest ih =>
      change ((k.launchAll p rest).launch p b).adrift = _
      rw [adrift_launch, ih, ← Multiset.cons_coe, Multiset.cons_add]

theorem mem_afloat_launchAll {k : Books σ} {p : PoolId} {buffers : List BufferId}
    {e : PoolId × BufferId} (h : e ∈ (k.launchAll p buffers).afloat) :
    e ∈ k.afloat ∨ e.1 = p ∧ e.2 ∈ buffers := by
  induction buffers with
  | nil => exact .inl h
  | cons b rest ih =>
      rcases Multiset.mem_cons.1 h with rfl | h
      · exact .inr ⟨rfl, List.mem_cons_self⟩
      · exact (ih h).imp_right fun h => ⟨h.1, List.mem_cons_of_mem _ h.2⟩

end Books

namespace World

/-- The buffers that a pool has registered, if it is set up and not closed. -/
def registered (w : World σ) (p : PoolId) : Multiset BufferId :=
  (((w.arena? p).map Arena.values).getD [] : List BufferId)

/-- The buffers that are registered in any pool. -/
def enrolled (w : World σ) : Multiset BufferId :=
  ∑ p ∈ Finset.range w.pools.size, w.registered p

/-- The pool from whose heap a buffer has its payload. -/
def home? (w : World σ) (b : BufferId) : Option PoolId := w.cells[b]?.map (·.home)

/-- The buffers that are counted by a pool. -/
def counted (w : World σ) (k : Books σ) : Multiset BufferId := w.enrolled + k.adrift

variable [Client σ]

/-- The buffers to which there are handles, each as often as there are. -/
def grips (w : World σ) : Multiset BufferId :=
  ((Client.roots w.client ++ w.held.flatten).map (·.buffer) : List BufferId)

/-- All references, each by its buffer. -/
def references (w : World σ) (k : Books σ) : Multiset BufferId := w.counted k + w.grips + k.hand

/-- What the books say of the references that there are at present. -/
structure Present (k : Books σ) (w : World σ) : Prop where
  client : w.client = k.client
  held : w.held = k.held
  sound : ∀ p a, w.arena? p = some a → a.Sound
  refs : ∀ b, w.refs b = (w.references k).count b
  nodup : (w.counted k).Nodup
  registered : ∀ p, ∀ b ∈ w.registered p, w.home? b = some p
  afloat : ∀ p b, (p, b) ∈ k.afloat → w.home? b = some p ∧ (w.arena? p).isSome = true

/-- The books agree with the world. -/
structure Agrees (k : Books σ) (w : World σ) : Prop extends Present k w where
  past : Past (w.counted k) w

section Enrolled

omit [Client σ]

variable {w w' : World σ}

theorem registered_congr {p : PoolId} (h : w'.arena? p = w.arena? p) :
    w'.registered p = w.registered p := by
  rw [registered, h, registered]

theorem registered_of_arena? {p : PoolId} {a : Arena BufferId} (h : w.arena? p = some a) :
    w.registered p = ↑a.values := by
  rw [registered, h]
  rfl

theorem registered_of_none {p : PoolId} (h : w.arena? p = none) : w.registered p = 0 := by
  rw [registered, h]
  rfl

theorem arena?_of_le {p : PoolId} (h : w.pools.size ≤ p) : w.arena? p = none := by
  rw [arena?, pool?, Array.getElem?_eq_none_iff.2 h]
  rfl

theorem enrolled_congr (hsize : w'.pools.size = w.pools.size)
    (h : ∀ p, w'.registered p = w.registered p) : w'.enrolled = w.enrolled := by
  rw [enrolled, hsize, funext h, enrolled]

/-- A pool's share in what is registered was replaced. -/
theorem enrolled_add {p : PoolId} (hsize : w'.pools.size = w.pools.size) (hp : p < w.pools.size)
    (h : ∀ q, q ≠ p → w'.registered q = w.registered q) :
    w'.enrolled + w.registered p = w.enrolled + w'.registered p := by
  have hmem : p ∈ Finset.range w.pools.size := Finset.mem_range.2 hp
  have hrest : ∑ q ∈ (Finset.range w.pools.size).erase p, w'.registered q =
      ∑ q ∈ (Finset.range w.pools.size).erase p, w.registered q :=
    Finset.sum_congr rfl fun q hq => h q (Finset.ne_of_mem_erase hq)
  rw [enrolled, hsize, ← Finset.add_sum_erase _ _ hmem, hrest, enrolled,
    ← Finset.add_sum_erase _ w.registered hmem, add_right_comm, add_comm (w'.registered p),
    add_right_comm]

theorem mem_enrolled {b : BufferId} : b ∈ w.enrolled ↔ ∃ p, b ∈ w.registered p := by
  rw [enrolled, Multiset.mem_sum]
  constructor
  · rintro ⟨p, -, hb⟩
    exact ⟨p, hb⟩
  · rintro ⟨p, hb⟩
    refine ⟨p, Finset.mem_range.2 (Nat.lt_of_not_le fun hle => ?_), hb⟩
    rw [registered_of_none (arena?_of_le hle)] at hb
    exact Multiset.notMem_zero _ hb

theorem counted_congr {k k' : Books σ} (h : w'.enrolled = w.enrolled) (hk : k'.adrift = k.adrift) :
    w'.counted k' = w.counted k := by
  rw [counted, h, hk, counted]

theorem buffer_of_getElem? {b : BufferId} {c : Cell} (hc : w.cells[b]? = some c) :
    w.buffer b = c.buffer := by
  rw [buffer, hc]
  rfl

theorem home?_of_getElem? {b : BufferId} {c : Cell} (hc : w.cells[b]? = some c) :
    w.home? b = some c.home := by
  rw [home?, hc]
  rfl

theorem refs_of_getElem? {b : BufferId} {c : Cell} (hc : w.cells[b]? = some c) :
    w.refs b = c.refs := by
  rw [refs, hc]
  rfl

theorem home?_of_sameCells (h : SameCells w w') (b : BufferId) : w'.home? b = w.home? b := by
  obtain ⟨hsize, hback⟩ := h
  unfold home?
  cases hc : w'.cells[b]? with
  | none =>
      have hb : w.cells[b]? = none := by
        rw [Array.getElem?_eq_none_iff, ← hsize]
        exact Array.getElem?_eq_none_iff.1 hc
      rw [hb]
  | some c' =>
      obtain ⟨c, hc, hr, -⟩ := hback b c' hc
      rw [hc, Option.map_some, Option.map_some, hr.home]

theorem home?_drop (w : World σ) (b b' : BufferId) : (w.drop b).home? b' = w.home? b' := by
  rw [home?, getElem?_drop]
  exact map_ite_map (by intro; rfl) _

end Enrolled

variable {k k' : Books σ} {w w' : World σ}

theorem grips_congr (hclient : w'.client = w.client) (hheld : w'.held = w.held) :
    w'.grips = w.grips := by
  rw [grips, hclient, hheld, grips]

theorem Present.exists_of_mem (h : Present k w) {b : BufferId} (hb : b ∈ w.references k) :
    ∃ c, w.cells[b]? = some c ∧ c.refs ≠ 0 := by
  have hrefs : w.refs b ≠ 0 := by
    rw [h.refs]
    exact Nat.one_le_iff_ne_zero.1 (Multiset.one_le_count_iff_mem.2 hb)
  unfold World.refs at hrefs
  cases hc : w.cells[b]? with
  | none => exact absurd (by rw [hc]; rfl) hrefs
  | some c =>
      rw [hc] at hrefs
      exact ⟨c, rfl, hrefs⟩

theorem mem_references_of_registered {p : PoolId} {b : BufferId} (hb : b ∈ w.registered p) :
    b ∈ w.references k := by
  refine Multiset.mem_add.2 (.inl (Multiset.mem_add.2 (.inl (Multiset.mem_add.2 (.inl ?_)))))
  exact mem_enrolled.2 ⟨p, hb⟩

theorem mem_references_of_grips {b : BufferId} (hb : b ∈ w.grips) : b ∈ w.references k :=
  Multiset.mem_add.2 (.inl (Multiset.mem_add.2 (.inr hb)))

theorem mem_references_of_hand {b : BufferId} (hb : b ∈ k.hand) : b ∈ w.references k :=
  Multiset.mem_add.2 (.inr hb)

theorem mem_references_of_afloat {p : PoolId} {b : BufferId} (hb : (p, b) ∈ k.afloat) :
    b ∈ w.references k := by
  refine Multiset.mem_add.2 (.inl (Multiset.mem_add.2 (.inl (Multiset.mem_add.2 (.inr ?_)))))
  exact Multiset.mem_map_of_mem Prod.snd hb

/-- A buffer is referred to as long as its count says so. -/
theorem Present.mem_references_iff (h : Present k w) {b : BufferId} :
    b ∈ w.references k ↔ w.refs b ≠ 0 := by
  rw [h.refs, Multiset.count_ne_zero]

omit [Client σ] in
theorem registered_le_enrolled (w : World σ) (p : PoolId) : w.registered p ≤ w.enrolled := by
  by_cases hp : p < w.pools.size
  · rw [enrolled, ← Finset.add_sum_erase _ w.registered (Finset.mem_range.2 hp)]
    exact Multiset.le_add_right _ _
  · rw [registered_of_none (arena?_of_le (Nat.le_of_not_lt hp))]
    exact Multiset.zero_le _

/-- No buffer is registered twice. -/
theorem Present.nodup_values (h : Present k w) {p : PoolId} {a : Arena BufferId}
    (ha : w.arena? p = some a) : a.values.Nodup := by
  have hle := (registered_le_enrolled w p).trans (Multiset.le_add_right _ k.adrift)
  rw [registered_of_arena? ha] at hle
  exact Multiset.coe_nodup.1 (Multiset.nodup_of_le hle h.nodup)

/-- The arenas, the handles and the counts are as they were. -/
theorem Present.step (h : Present k w) (hsize : w'.pools.size = w.pools.size)
    (harena : ∀ p, w'.arena? p = w.arena? p) (hheld : w'.held = w.held)
    (hclient : w'.client = w.client) (hrefs : ∀ b, w'.refs b = w.refs b)
    (hhome : ∀ b, w'.home? b = w.home? b) : Present k w' ∧ w'.counted k = w.counted k := by
  have henrolled : w'.enrolled = w.enrolled :=
    enrolled_congr hsize fun p => registered_congr (harena p)
  have hcounted : w'.counted k = w.counted k := counted_congr henrolled rfl
  refine ⟨{ client := hclient.trans h.client, held := hheld.trans h.held,
            sound := fun p a ha => h.sound p a (harena p ▸ ha), refs := ?refs, nodup := ?nodup,
            registered := ?registered, afloat := ?afloat }, hcounted⟩
  case refs =>
    intro b
    rw [hrefs, h.refs, references, references, hcounted, grips_congr hclient hheld]
  case nodup =>
    rw [hcounted]
    exact h.nodup
  case registered =>
    intro p b hb
    rw [hhome]
    exact h.registered p b (registered_congr (harena p) ▸ hb)
  case afloat =>
    intro p b hb
    rw [hhome, harena]
    exact h.afloat p b hb

theorem Agrees.idle (h : Agrees k w) (hi : Idle w w') : Agrees k w' := by
  obtain ⟨hpresent, hcounted⟩ := h.toPresent.step hi.pools hi.arena hi.held hi.client hi.refs
    (home?_of_sameCells hi.sameCells)
  refine ⟨hpresent, ?_⟩
  apply h.past.step hi.sameCells hi.aside hi.format (Nat.le_of_eq hi.pools.symm)
    (fun p total hp => .inl (hi.allocated p ▸ hp))
  intro b
  rw [hcounted]

/-- An announcement is not in the books. -/
theorem Agrees.emit_published (h : Agrees k w) (p : PoolId) (b : BufferId) (key : Arena.Key)
    (total : UInt64) : Agrees k (w.emit (.published p b key total)) := by
  refine ⟨⟨h.client, h.held, h.sound, h.refs, h.nodup, h.registered, h.afloat⟩, ?_⟩
  refine h.past.step (.of_eq rfl) ⟨[.published p b key total], ?_, rfl⟩ rfl (Nat.le_refl _)
    (fun _ _ hp => .inl hp) fun _ => Iff.rfl
  intro e he
  rw [List.mem_singleton.1 he]
  rfl

/-- What is referred to may be referred to once more. -/
theorem Agrees.retain (h : Agrees k w) {b : BufferId} (hb : b ∈ w.references k) :
    Agrees (k.hold b) (w.retain b) := by
  obtain ⟨c, hc, hne⟩ := h.toPresent.exists_of_mem hb
  have hrefs : w.refs b ≠ 0 := by
    rw [World.refs, hc]
    exact hne
  have hlt := (Array.getElem?_eq_some_iff.1 hc).choose
  have hsame := sameCells_retain hrefs
  refine ⟨{ client := h.client, held := h.held, sound := h.sound, refs := ?refs, nodup := h.nodup,
            registered := ?registered, afloat := ?afloat }, ?past⟩
  case refs =>
    intro b'
    change (w.retain b).refs b' = (w.counted k + w.grips + (b ::ₘ k.hand)).count b'
    rw [Multiset.add_cons, Multiset.count_cons]
    by_cases hb' : b' = b
    · subst hb'
      rw [refs_retain_self hlt, h.refs, if_pos rfl]
      rfl
    · rw [refs_retain_of_ne w hb', h.refs, if_neg hb']
      rfl
  case registered =>
    intro p b' hb'
    rw [home?_of_sameCells hsame]
    exact h.registered p b' hb'
  case afloat =>
    intro p b' hb'
    rw [home?_of_sameCells hsame]
    exact h.afloat p b' hb'
  case past =>
    exact h.past.step hsame (.of_events rfl) rfl (Nat.le_refl _) (fun _ _ hp => .inl hp)
      fun _ => Iff.rfl

/-- A reference in hand is dropped. -/
theorem Agrees.drop {b : BufferId} (h : Agrees (k.hold b) w) : Agrees k (w.drop b) := by
  have hmem : b ∈ w.references (k.hold b) :=
    mem_references_of_hand (Multiset.mem_cons_self b k.hand)
  obtain ⟨c, hc, hne⟩ := h.toPresent.exists_of_mem hmem
  have hq := quiet_drop w b
  have henrolled : (w.drop b).enrolled = w.enrolled :=
    enrolled_congr hq.pools fun p => registered_congr (hq.arena p)
  have hcounted : (w.drop b).counted k = w.counted (k.hold b) := counted_congr henrolled rfl
  have hcount : ∀ b', w.refs b' = ((w.counted k + w.grips + k.hand).count b') +
      if b' = b then 1 else 0 := by
    intro b'
    rw [h.refs]
    change (w.counted k + w.grips + (b ::ₘ k.hand)).count b' = _
    rw [Multiset.add_cons, Multiset.count_cons]
  have hself : w.refs b = c.refs := by
    rw [World.refs, hc]
    rfl
  refine ⟨{ client := hq.client.trans h.client, held := hq.held.trans h.held,
            sound := fun p a ha => h.sound p a (hq.arena p ▸ ha), refs := ?refs, nodup := ?nodup,
            registered := ?registered, afloat := ?afloat }, ?past⟩
  case refs =>
    intro b'
    rw [references, hcounted, grips_congr hq.client hq.held]
    by_cases hb' : b' = b
    · subst hb'
      have hb'' := hcount b'
      rw [if_pos rfl, hself] at hb''
      have hafter : (w.drop b').refs b' = c.refs - 1 := by
        rw [World.refs, getElem?_drop, if_pos rfl, hc]
        rfl
      rw [hafter, hb'']
      rfl
    · rw [refs_drop_of_ne w hb', hcount, if_neg hb']
      rfl
  case nodup =>
    rw [hcounted]
    exact h.nodup
  case registered =>
    intro p b' hb'
    rw [home?_drop]
    exact h.registered p b' (registered_congr (hq.arena p) ▸ hb')
  case afloat =>
    intro p b' hb'
    rw [home?_drop, hq.arena]
    exact h.afloat p b' hb'
  case past =>
    rw [hcounted]
    apply h.past.drop hc hne
    -- A counted buffer has a reference besides the one in hand.
    intro hone hin
    have hb := hcount b
    rw [if_pos rfl, hself, hone, Multiset.count_add, Multiset.count_add] at hb
    have hpos := Multiset.one_le_count_iff_mem.2 hin
    change 1 ≤ (w.counted k).count b at hpos
    omega

section Arenas

omit [Client σ]

variable {p : PoolId} {pool : Pool}

theorem registered_setArena_self (hp : w.pool? p = some pool) (arena : Arena BufferId) :
    (w.setArena p arena).registered p = ↑arena.values :=
  registered_of_arena? ((arena?_setArena arena hp p).trans (if_pos rfl))

theorem registered_setArena_of_ne (hp : w.pool? p = some pool) (arena : Arena BufferId) {q : PoolId}
    (hq : q ≠ p) : (w.setArena p arena).registered q = w.registered q :=
  registered_congr ((arena?_setArena arena hp q).trans (if_neg hq))

theorem isSome_arena?_setArena (hp : w.pool? p = some pool) (arena : Arena BufferId) (q : PoolId) :
    ((w.setArena p arena).arena? q).isSome = (w.arena? q).isSome := by
  rw [arena?_setArena arena hp]
  by_cases hq : q = p
  · rw [if_pos hq, hq, arena?_of_pool? hp]
    rfl
  · rw [if_neg hq]

/-- What an arena has lost is afloat, and what it has won no longer is. -/
theorem counted_setArena {arena : Arena BufferId} (hp : w.pool? p = some pool)
    (hsum : (arena.values : Multiset BufferId) + k'.adrift = ↑pool.arena.values + k.adrift) :
    (w.setArena p arena).counted k' = w.counted k := by
  have hsize : (w.setArena p arena).pools.size = w.pools.size := size_modifyPool ..
  have hadd := enrolled_add hsize (lt_size_of_pool? hp) fun q => registered_setArena_of_ne hp arena
  rw [registered_of_arena? (arena?_of_pool? hp), registered_setArena_self hp] at hadd
  apply add_right_cancel (b := (pool.arena.values : Multiset BufferId))
  rw [counted, add_right_comm, hadd, add_assoc, hsum, counted, add_right_comm, add_assoc]

end Arenas

/-- Buffers have moved between an arena and the water. -/
theorem Agrees.setArena {p : PoolId} {pool : Pool} {arena : Arena BufferId} (h : Agrees k w)
    (hp : w.pool? p = some pool) (hs : arena.Sound)
    (hsum : (arena.values : Multiset BufferId) + k'.adrift = ↑pool.arena.values + k.adrift)
    (hclient : k'.client = k.client) (hheld : k'.held = k.held) (hhand : k'.hand = k.hand)
    (hin : ∀ b ∈ arena.values, b ∈ pool.arena.values ∨ (p, b) ∈ k.afloat)
    (hout : ∀ e ∈ k'.afloat, e ∈ k.afloat ∨ e.1 = p ∧ e.2 ∈ pool.arena.values) :
    Agrees k' (w.setArena p arena) := by
  have hcounted : (w.setArena p arena).counted k' = w.counted k := counted_setArena hp hsum
  have hhome : ∀ b ∈ pool.arena.values, w.home? b = some p := by
    intro b hb
    apply h.registered p b
    rw [registered_of_arena? (arena?_of_pool? hp)]
    exact hb
  refine ⟨{ client := h.client.trans hclient.symm, held := h.held.trans hheld.symm, sound := ?sound,
            refs := ?refs, nodup := ?nodup, registered := ?registered, afloat := ?afloat }, ?past⟩
  case sound =>
    intro q a ha
    rw [arena?_setArena arena hp] at ha
    by_cases hq : q = p
    · rw [if_pos hq, Option.some.injEq] at ha
      exact ha ▸ hs
    · rw [if_neg hq] at ha
      exact h.sound q a ha
  case refs =>
    intro b
    rw [references, hcounted, hhand]
    exact h.refs b
  case nodup =>
    rw [hcounted]
    exact h.nodup
  case registered =>
    intro q b hb
    by_cases hq : q = p
    · subst hq
      rw [registered_setArena_self hp] at hb
      rcases hin b hb with hb | hb
      · exact hhome b hb
      · exact (h.afloat q b hb).1
    · rw [registered_setArena_of_ne hp arena hq] at hb
      exact h.registered q b hb
  case afloat =>
    intro q b hb
    rw [isSome_arena?_setArena hp]
    rcases hout (q, b) hb with hb | ⟨rfl, hb⟩
    · exact h.afloat q b hb
    · refine ⟨hhome b hb, ?_⟩
      rw [arena?_of_pool? hp]
      rfl
  case past =>
    have hsize : (w.setArena p arena).pools.size = w.pools.size := size_modifyPool ..
    refine h.past.step (.of_eq rfl) (.of_events rfl) rfl (Nat.le_of_eq hsize.symm)
      (fun q total hq => .inl (allocated?_setArena w p q arena ▸ hq)) fun b => ?_
    rw [hcounted]

/-- A buffer that is afloat is retired, and remains in hand. -/
theorem Agrees.strike {p : PoolId} {b : BufferId} (h : Agrees (k.launch p b) w) :
    Agrees (k.hold b) (w.strike p b) := by
  have hafloat : (p, b) ∈ (k.launch p b).afloat := Multiset.mem_cons_self _ _
  obtain ⟨c, hc, hne⟩ := h.toPresent.exists_of_mem (mem_references_of_afloat hafloat)
  have hhome := (h.afloat p b hafloat).1
  rw [home?, hc, Option.map_some, Option.some.injEq] at hhome
  have hsize : (w.strike p b).pools.size = w.pools.size := size_modifyPool ..
  have harena : ∀ q, (w.strike p b).arena? q = w.arena? q :=
    (quiet_modifyPool w p (fun pool =>
      { pool with allocated := pool.allocated - (w.buffer b).totalSize }) (by intro; rfl)
      (by intro; rfl) (by intro; rfl)).arena
  have henrolled : (w.strike p b).enrolled = w.enrolled :=
    enrolled_congr hsize fun q => registered_congr (harena q)
  have hcounted : w.counted (k.launch p b) = b ::ₘ w.counted k := by
    rw [counted, Books.adrift_launch, Multiset.add_cons]
    rfl
  have hcounted' : (w.strike p b).counted (k.hold b) = w.counted k := counted_congr henrolled rfl
  have hnodup := h.nodup
  rw [hcounted, Multiset.nodup_cons] at hnodup
  refine ⟨{ client := h.client, held := h.held, sound := fun q a ha => h.sound q a (harena q ▸ ha),
            refs := ?refs, nodup := ?nodup, registered := ?registered, afloat := ?afloat }, ?past⟩
  case refs =>
    intro b'
    have hrefs := h.refs b'
    rw [references, hcounted, Multiset.cons_add, Multiset.cons_add] at hrefs
    rw [references, hcounted']
    change w.refs b' = (w.counted k + w.grips + (b ::ₘ k.hand)).count b'
    rw [Multiset.add_cons]
    exact hrefs
  case nodup =>
    rw [hcounted']
    exact hnodup.2
  case registered =>
    intro q b' hb'
    exact h.registered q b' (registered_congr (harena q) ▸ hb')
  case afloat =>
    intro q b' hb'
    rw [harena]
    exact h.afloat q b' (Multiset.mem_cons_of_mem hb')
  case past =>
    rw [hcounted']
    exact (hcounted ▸ h.past).strike hc hne hhome hnodup.1

section Grant

variable {p : PoolId} {capacity : UInt64} {tag : Option Nat} {tags : Nat}

theorem Agrees.notMem_size (h : Agrees k w) : w.cells.size ∉ w.references k := by
  intro hb
  obtain ⟨c, hc, -⟩ := h.toPresent.exists_of_mem hb
  rw [Array.getElem?_eq_none_iff.2 (Nat.le_refl _)] at hc
  exact nomatch hc

theorem Agrees.ne_size_of_counted (h : Agrees k w) {b : BufferId} (hb : b ∈ w.counted k) :
    b ≠ w.cells.size := by
  rintro rfl
  exact h.notMem_size (Multiset.mem_add.2 (.inl (Multiset.mem_add.2 (.inl hb))))

theorem Agrees.ne_size_of_registered (h : Agrees k w) {q : PoolId} {b : BufferId}
    (hb : b ∈ w.registered q) : b ≠ w.cells.size :=
  h.ne_size_of_counted (Multiset.mem_add.2 (.inl (mem_enrolled.2 ⟨q, hb⟩)))

theorem Agrees.ne_size_of_afloat (h : Agrees k w) {q : PoolId} {b : BufferId}
    (hb : (q, b) ∈ k.afloat) : b ≠ w.cells.size :=
  h.ne_size_of_counted (Multiset.mem_add.2 (.inr (Multiset.mem_map_of_mem Prod.snd hb)))

/-- A new buffer is afloat until it is registered. -/
theorem Agrees.grant_enter (h : Agrees k w) {pool : Pool} (hp : w.pool? p = some pool) :
    Agrees (k.launch p w.cells.size) ((w.grant p capacity tag tags).enter p w.cells.size) := by
  let w₁ := w.grant p capacity tag tags
  let w₂ := w₁.enter p w.cells.size
  have hsize : w₂.pools.size = w.pools.size := size_modifyPool ..
  have harena : ∀ q, w₂.arena? q = w.arena? q :=
    (quiet_modifyPool w₁ p (fun pool =>
      { pool with allocated := pool.allocated + (w₁.buffer w.cells.size).totalSize })
      (by intro; rfl) (by intro; rfl) (by intro; rfl)).arena
  have hcells : ∀ b : BufferId, b ≠ w.cells.size → w₂.cells[b]? = w.cells[b]? :=
    fun b hb => (getElem?_grant w p capacity tag tags b).trans (if_neg hb)
  have hnew : w₂.cells[w.cells.size]? = some ⟨.fresh w.format capacity, 1, p, tag⟩ :=
    (getElem?_grant w p capacity tag tags _).trans (if_pos rfl)
  have henrolled : w₂.enrolled = w.enrolled :=
    enrolled_congr hsize fun q => registered_congr (harena q)
  have hcounted : w₂.counted (k.launch p w.cells.size) = w.cells.size ::ₘ w.counted k := by
    rw [counted, henrolled, Books.adrift_launch, Multiset.add_cons]
    rfl
  refine ⟨{ client := h.client, held := h.held, sound := fun q a ha => h.sound q a (harena q ▸ ha),
            refs := ?refs, nodup := ?nodup, registered := ?registered, afloat := ?afloat }, ?past⟩
  case refs =>
    intro b
    rw [references, hcounted, Multiset.cons_add, Multiset.cons_add, Multiset.count_cons]
    change w₂.refs b = (w.references k).count b + _
    by_cases hb : b = w.cells.size
    · rw [hb, World.refs, hnew, if_pos rfl, Multiset.count_eq_zero_of_notMem h.notMem_size]
      rfl
    · rw [World.refs, hcells b hb, if_neg hb]
      exact h.refs b
  case nodup =>
    rw [hcounted, Multiset.nodup_cons]
    exact ⟨fun hb => h.ne_size_of_counted hb rfl, h.nodup⟩
  case registered =>
    intro q b hb
    rw [registered_congr (harena q)] at hb
    rw [home?, hcells b (h.ne_size_of_registered hb)]
    exact h.registered q b hb
  case afloat =>
    intro q b hb
    rw [harena]
    rcases Multiset.mem_cons.1 hb with hb | hb
    · obtain ⟨rfl, rfl⟩ := Prod.mk.inj hb
      refine ⟨by rw [home?, hnew]; rfl, ?_⟩
      rw [arena?_of_pool? hp]
      rfl
    · rw [home?, hcells b (h.ne_size_of_afloat hb)]
      exact h.afloat q b hb
  case past =>
    rw [hcounted]
    exact h.past.grant_enter (lt_size_of_pool? hp)

/-- A buffer whose set-up was refused leaves no trace in the books. -/
theorem Agrees.grant_drop (h : Agrees k w) (hp : p < w.pools.size) :
    Agrees k ((w.grant p capacity tag tags).drop w.cells.size) := by
  let w₁ := w.grant p capacity tag tags
  have hq := quiet_drop w₁ w.cells.size
  have hcell : w₁.cells[w.cells.size]? = some ⟨.fresh w.format capacity, 1, p, tag⟩ :=
    (getElem?_grant w p capacity tag tags _).trans (if_pos rfl)
  have hcells : ∀ b : BufferId, b ≠ w.cells.size →
      (w₁.drop w.cells.size).cells[b]? = w.cells[b]? := by
    intro b hb
    rw [getElem?_drop, if_neg hb]
    exact (getElem?_grant w p capacity tag tags b).trans (if_neg hb)
  have harena : ∀ q, (w₁.drop w.cells.size).arena? q = w.arena? q := hq.arena
  have henrolled : (w₁.drop w.cells.size).enrolled = w.enrolled :=
    enrolled_congr hq.pools fun q => registered_congr (harena q)
  have hcounted : (w₁.drop w.cells.size).counted k = w.counted k := counted_congr henrolled rfl
  refine ⟨{ client := hq.client.trans h.client, held := hq.held.trans h.held,
            sound := fun q a ha => h.sound q a (harena q ▸ ha), refs := ?refs, nodup := ?nodup,
            registered := ?registered, afloat := ?afloat }, ?past⟩
  case refs =>
    intro b
    rw [references, hcounted, grips_congr hq.client hq.held]
    change _ = (w.references k).count b
    by_cases hb : b = w.cells.size
    · rw [hb, World.refs, getElem?_drop, if_pos rfl, hcell,
        Multiset.count_eq_zero_of_notMem h.notMem_size]
      rfl
    · rw [World.refs, hcells b hb]
      exact h.refs b
  case nodup =>
    rw [hcounted]
    exact h.nodup
  case registered =>
    intro q b hb
    rw [registered_congr (harena q)] at hb
    rw [home?, hcells b (h.ne_size_of_registered hb)]
    exact h.registered q b hb
  case afloat =>
    intro q b hb
    rw [harena, home?, hcells b (h.ne_size_of_afloat hb)]
    exact h.afloat q b hb
  case past =>
    rw [hcounted]
    exact h.past.grant_drop hp fun hb => h.ne_size_of_counted hb rfl

end Grant

/-- A pool without buffers joins the others. -/
theorem Agrees.push (h : Agrees k w) (pool : Pool) (he : pool.arena = .empty)
    (ha : pool.allocated = 0) : Agrees k { w with pools := w.pools.push pool } := by
  let w' : World σ := { w with pools := w.pools.push pool }
  have hsize : w'.pools.size = w.pools.size + 1 := Array.size_push _
  have harena : ∀ q, w'.arena? q =
      if q = w.pools.size then if pool.live then some pool.arena else none else w.arena? q :=
    arena?_push w pool
  have hregistered : ∀ q, w'.registered q = w.registered q := by
    intro q
    by_cases hq : q = w.pools.size
    · rw [registered_of_none (arena?_of_le (Nat.le_of_eq hq.symm)), registered, harena, if_pos hq]
      split_ifs
      · rw [he]
        rfl
      · rfl
    · exact registered_congr ((harena q).trans (if_neg hq))
  have hlast : w.registered w.pools.size = 0 := registered_of_none (arena?_of_le (Nat.le_refl _))
  have henrolled : w'.enrolled = w.enrolled := by
    rw [enrolled, hsize, Finset.sum_range_succ, funext hregistered, hlast, add_zero, enrolled]
  have hcounted : w'.counted k = w.counted k := counted_congr henrolled rfl
  refine ⟨{ client := h.client, held := h.held, sound := ?sound, refs := ?refs, nodup := ?nodup,
            registered := ?registered, afloat := ?afloat }, ?past⟩
  case sound =>
    intro q a ha
    rw [harena] at ha
    split_ifs at ha
    · rw [← Option.some.inj ha, he]
      exact ⟨_, Arena.empty_wired⟩
    · exact h.sound q a ha
  case refs =>
    intro b
    rw [references, hcounted]
    exact h.refs b
  case nodup =>
    rw [hcounted]
    exact h.nodup
  case registered =>
    intro q b hb
    exact h.registered q b (hregistered q ▸ hb)
  case afloat =>
    intro q b hb
    obtain ⟨hhome, hopen⟩ := h.afloat q b hb
    refine ⟨hhome, ?_⟩
    rw [harena, if_neg, hopen]
    rintro rfl
    rw [arena?_of_le (Nat.le_refl _)] at hopen
    exact nomatch hopen
  case past =>
    refine h.past.step (.of_eq rfl) (.of_events rfl) rfl (hsize ▸ Nat.le_succ _) ?_ fun b => ?_
    · intro q total hq
      by_cases hlt : q = w.pools.size
      · refine .inr ⟨Nat.le_of_eq hlt.symm, ?_⟩
        rw [allocated?, Option.map_eq_some_iff] at hq
        obtain ⟨new, hnew, rfl⟩ := hq
        have hget := (pool?_eq_some_iff.1 hnew).1
        rw [hlt, Array.getElem?_push_size, Option.some.injEq] at hget
        rw [← hget, ha]
      · refine .inl ?_
        rw [allocated?, pool?, Array.getElem?_push, if_neg hlt] at hq
        exact hq
    · rw [hcounted]

/-- A pool without buffers is closed. -/
theorem Agrees.retirePool {p : PoolId} (h : Agrees k w) (hp : w.registered p = 0)
    (hafloat : ∀ e ∈ k.afloat, e.1 ≠ p) : Agrees k (w.retirePool p) := by
  have hsize : (w.retirePool p).pools.size = w.pools.size := size_modifyPool ..
  have harena := arena?_retirePool w p
  have hregistered : ∀ q, (w.retirePool p).registered q = w.registered q := by
    intro q
    by_cases hq : q = p
    · rw [hq, hp, registered_of_none ((harena p).trans (if_pos rfl))]
    · exact registered_congr ((harena q).trans (if_neg hq))
  have hcounted : (w.retirePool p).counted k = w.counted k :=
    counted_congr (enrolled_congr hsize hregistered) rfl
  refine ⟨{ client := h.client, held := h.held, sound := ?sound, refs := ?refs, nodup := ?nodup,
            registered := ?registered, afloat := ?afloat }, ?past⟩
  case sound =>
    intro q a ha
    rw [harena] at ha
    split_ifs at ha
    exact h.sound q a ha
  case refs =>
    intro b
    rw [references, hcounted]
    exact h.refs b
  case nodup =>
    rw [hcounted]
    exact h.nodup
  case registered =>
    intro q b hb
    exact h.registered q b (hregistered q ▸ hb)
  case afloat =>
    intro q b hb
    rw [harena, if_neg (hafloat _ hb)]
    exact h.afloat q b hb
  case past =>
    refine h.past.step (.of_eq rfl) (.of_events rfl) rfl (Nat.le_of_eq hsize.symm) ?_ fun b => ?_
    · intro q total hq
      rw [allocated?, pool?_retirePool] at hq
      split_ifs at hq
      · cases hq
      · exact .inl hq
    · rw [hcounted]

/-- References pass between handles and the hand. -/
theorem Agrees.regrip {client : σ} {held : List (List Handle)} (h : Agrees k w)
    (hclient : k'.client = client) (hheld : k'.held = held) (hafloat : k'.afloat = k.afloat)
    (hsum : ({ w with client := client, held := held } : World σ).grips + k'.hand =
      w.grips + k.hand) : Agrees k' { w with client := client, held := held } := by
  have hadrift : k'.adrift = k.adrift := by rw [Books.adrift, hafloat, Books.adrift]
  have hcounted : ({ w with client := client, held := held } : World σ).counted k' = w.counted k :=
    counted_congr rfl hadrift
  refine ⟨{ client := hclient.symm, held := hheld.symm, sound := h.sound, refs := ?refs,
            nodup := ?nodup, registered := h.registered, afloat := ?afloat }, ?past⟩
  case refs =>
    intro b
    rw [references, hcounted, add_assoc, hsum, ← add_assoc]
    exact h.refs b
  case nodup =>
    rw [hcounted]
    exact h.nodup
  case afloat =>
    intro q b hb
    exact h.afloat q b (hafloat ▸ hb)
  case past =>
    refine h.past.step (.of_eq rfl) (.of_events rfl) rfl (Nat.le_refl _) (fun _ _ hp => .inl hp)
      fun b => ?_
    rw [hcounted]

end World

end BufferPool
