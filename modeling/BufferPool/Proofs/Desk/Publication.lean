import BufferPool.Proofs.Arena.Distinct
import BufferPool.Proofs.Desk.StepLabels

/-!
# The order of publication

A lane shows its members in the order in which they were put into it. Forward comes first who was put
in last, and backward who was put in first. Events are counted from the first one on, and the time of
a member is the number of the event that told of its latest insertion. Keys say nothing about time:
slots are reused in any order, and members leave from the middle. But whatever is taken out of a lane
leaves a part of the sequence, and whatever is put in comes to the front with the latest time of all.

A member of the full lane was announced as published with the event just before.
-/

namespace BufferPool

open PoolM World

variable {σ : Type} {w w' : World σ} {p : PoolId} {lane : Lane} {key : Arena.Key}

namespace Event

/-- Whether the event tells that what the key names was put into the lane. -/
def enters (p : PoolId) (lane : Lane) (key : Arena.Key) : Event → Bool
  | .inserted q l k => q = p ∧ l = lane ∧ k = key
  | .kept q k => q = p ∧ Lane.free = lane ∧ k = key
  | _ => false

/-- Whether the event tells the listener that what the key names was published. -/
def publishes (p : PoolId) (key : Arena.Key) : Event → Bool
  | .published q _ k _ => q = p ∧ k = key
  | _ => false

theorem enters_of_not_isListing {e : Event} (he : e.isListing = false) :
    e.enters p lane key = false := by
  cases e <;> first | rfl | exact nomatch he

theorem publishes_of_not_isListing {e : Event} (he : e.isListing = false) :
    e.publishes p key = false := by
  cases e <;> first | rfl | exact nomatch he

end Event

namespace World

/-- The number of the latest event of a kind; zero if there was none. -/
def latest (w : World σ) (kind : Event → Bool) : Nat := (w.events.dropWhile (!kind ·)).length

/-- When a key was last put into a lane. -/
def listedAt (w : World σ) (p : PoolId) (lane : Lane) (key : Arena.Key) : Nat :=
  w.latest (Event.enters p lane key)

/-- When a key was last announced as published. -/
def publishedAt (w : World σ) (p : PoolId) (key : Arena.Key) : Nat :=
  w.latest (Event.publishes p key)

theorem latest_le (w : World σ) (kind : Event → Bool) : w.latest kind ≤ w.events.length :=
  (List.dropWhile_sublist _).length_le

/-- Events of other kinds do not count. -/
theorem latest_append {kind : Event → Bool} {added : List Event}
    (he : w'.events = added ++ w.events) (hadded : ∀ e ∈ added, kind e = false) :
    w'.latest kind = w.latest kind := by
  rw [latest, he, List.dropWhile_append_of_pos fun e hin => by rw [hadded e hin]; rfl, latest]

theorem latest_cons {kind : Event → Bool} {e : Event} {earlier : List Event}
    (he : w.events = e :: earlier) (hkind : kind e = true) :
    w.latest kind = earlier.length + 1 := by
  rw [latest, he, List.dropWhile_cons_of_neg (by rw [hkind]; exact Bool.false_ne_true),
    List.length_cons]

theorem latest_congr (he : w'.events = w.events) (kind : Event → Bool) :
    w'.latest kind = w.latest kind := by
  rw [latest, he, latest]

/-- The keys stand in the order in which they were put into the lane, the latest first. In the full
lane each was announced just before it was put in. -/
structure Dated (w : World σ) (p : PoolId) (lane : Lane) (keys : List Arena.Key) : Prop where
  order : keys.Pairwise fun k k' => w.listedAt p lane k' < w.listedAt p lane k
  listed : ∀ k ∈ keys, 0 < w.listedAt p lane k
  published : lane = .full → ∀ k ∈ keys,
    0 < w.publishedAt p k ∧ w.listedAt p lane k = w.publishedAt p k + 1

theorem dated_nil (w : World σ) (p : PoolId) (lane : Lane) : w.Dated p lane [] :=
  ⟨.nil, nofun, fun _ => nofun⟩

theorem Dated.sublist {keys keys' : List Arena.Key} (h : w.Dated p lane keys)
    (hs : keys'.Sublist keys) : w.Dated p lane keys' :=
  ⟨h.order.sublist hs, fun k hk => h.listed k (hs.subset hk),
    fun hfull k hk => h.published hfull k (hs.subset hk)⟩

/-- Only the times of the members matter. -/
theorem Dated.congr {keys : List Arena.Key} (h : w.Dated p lane keys)
    (hl : ∀ k ∈ keys, w'.listedAt p lane k = w.listedAt p lane k)
    (hp : lane = .full → ∀ k ∈ keys, w'.publishedAt p k = w.publishedAt p k) :
    w'.Dated p lane keys := by
  refine ⟨h.order.imp_of_mem fun {k k'} hk hk' hlt => ?_, fun k hk => ?_, fun hfull k hk => ?_⟩
  · rw [hl k hk, hl k' hk']
    exact hlt
  · rw [hl k hk]
    exact h.listed k hk
  · rw [hl k hk, hp hfull k hk]
    exact h.published hfull k hk

end World

section Announcing

variable {es : List Event}

/-- Nothing but the one key is put into the one lane. -/
theorem Announcing.listedAt_of_ne {q : PoolId} {l : Lane} {k : Arena.Key}
    (h : Announcing p lane key es) (he : w'.events = es ++ w.events)
    (hne : ¬(p = q ∧ lane = l ∧ key = k)) : w'.listedAt q l k = w.listedAt q l k := by
  apply latest_append he
  cases h <;> simpa [Event.enters] using hne

theorem Announcing.publishedAt_of_ne {q : PoolId} {k : Arena.Key} (h : Announcing p lane key es)
    (he : w'.events = es ++ w.events) (hne : ¬(p = q ∧ lane = .full ∧ key = k)) :
    w'.publishedAt q k = w.publishedAt q k := by
  apply latest_append he
  cases h with
  | free | kept => simp [Event.publishes]
  | full => simpa [Event.publishes] using hne

/-- What is put in now is put in last. -/
theorem Announcing.lt_listedAt (h : Announcing p lane key es) (he : w'.events = es ++ w.events) :
    w.events.length < w'.listedAt p lane key := by
  cases h with
  | free | kept =>
      rw [listedAt, latest_cons he (by simp [Event.enters])]
      exact Nat.lt_succ_self _
  | full =>
      rw [listedAt, latest_cons he (by simp [Event.enters])]
      exact Nat.lt_succ_of_lt (Nat.lt_succ_self _)

theorem Announcing.publishedAt (h : Announcing p .full key es) (he : w'.events = es ++ w.events) :
    0 < w'.publishedAt p key ∧ w'.listedAt p .full key = w'.publishedAt p key + 1 := by
  cases h with
  | full _ b total =>
      have hlisted : w'.listedAt p .full key = w.events.length + 2 :=
        latest_cons he (by simp [Event.enters])
      have hpublished : w'.publishedAt p key = w.events.length + 1 := by
        have hearlier : ({ w with events := .published p b key total :: w.events } :
            World σ).latest (Event.publishes p key) = w.events.length + 1 :=
          latest_cons rfl (by simp [Event.publishes])
        rw [← hearlier]
        have hnone : ∀ e ∈ [Event.inserted p .full key], Event.publishes p key e = false := by
          simp [Event.publishes]
        exact latest_append he hnone
      omega

/-- The key that is put in comes to the front. -/
theorem Announcing.dated {keys : List Arena.Key} (h : Announcing p lane key es)
    (he : w'.events = es ++ w.events) (hd : w.Dated p lane keys) (hnew : key ∉ keys) :
    w'.Dated p lane (key :: keys) := by
  have hne : ∀ k ∈ keys, key ≠ k := fun k hk heq => hnew (heq ▸ hk)
  have hold : w'.Dated p lane keys :=
    hd.congr (fun k hk => h.listedAt_of_ne he fun hsame => hne k hk hsame.2.2)
      fun _ k hk => h.publishedAt_of_ne he fun hsame => hne k hk hsame.2.2
  have hlate := h.lt_listedAt he
  refine ⟨List.pairwise_cons.2 ⟨fun k hk => ?_, hold.order⟩, fun k hk => ?_, fun hfull k hk => ?_⟩
  · rw [h.listedAt_of_ne he fun hsame => hne k hk hsame.2.2]
    exact Nat.lt_of_le_of_lt (latest_le w _) hlate
  · rcases List.mem_cons.1 hk with rfl | hk
    · exact Nat.zero_lt_of_lt hlate
    · exact hold.listed k hk
  · rcases List.mem_cons.1 hk with rfl | hk
    · subst hfull
      exact h.publishedAt he
    · exact hold.published hfull k hk

end Announcing

/-- What is taken out of a lane leaves a part of the sequence. -/
theorem Arena.Catalog.Step.order_sublist {W : Warrant} {c c' : Arena.Catalog BufferId}
    {op : Arena.Op BufferId} {answer : Arena.Answer BufferId} (h : c.Step op answer c')
    (hop : W.allows op) (lane : Lane) : (c'.order lane).Sublist (c.order lane) := by
  cases h with
  | @remove value key source _ =>
      by_cases hl : lane = source
      · subst hl
        rw [Arena.Catalog.order_leave_self]
        exact List.erase_sublist
      · rw [Arena.Catalog.order_leave_of_ne hl]
  | prepend => exact hop.elim
  | drain => exact List.nil_sublist _
  | register | unregister | reclaim | unregisterStale | unregisterListed | prependStale |
    prependListed | removeStale | removeElsewhere => exact List.Sublist.refl _

namespace World

/-- The members of the lanes of an arena stand in the order in which they were put in. -/
def Orders (w : World σ) (p : PoolId) (a : Arena BufferId) : Prop :=
  ∃ wiring, a.Wired wiring ∧ ∀ lane, w.Dated p lane ((a.catalog wiring).order lane)

/-- So do the members of all lanes. -/
def Chronological (w : World σ) : Prop := ∀ p a, w.arena? p = some a → w.Orders p a

variable {W : Warrant} {a : Arena BufferId}

theorem Orders.congr (h : w.Orders p a)
    (hl : ∀ lane key, w'.listedAt p lane key = w.listedAt p lane key)
    (hp : ∀ key, w'.publishedAt p key = w.publishedAt p key) : w'.Orders p a := by
  obtain ⟨wiring, hw, hd⟩ := h
  exact ⟨wiring, hw, fun lane => (hd lane).congr (fun _ _ => hl lane _) fun _ _ _ => hp _⟩

theorem Orders.of_events (h : w.Orders p a) (he : w'.events = w.events) : w'.Orders p a :=
  h.congr (fun _ _ => latest_congr he _) fun _ => latest_congr he _

theorem orders_empty (w : World σ) (p : PoolId) : w.Orders p .empty := by
  refine ⟨_, Arena.empty_wired, fun lane => ?_⟩
  rw [Arena.catalog_empty]
  exact dated_nil w p lane

theorem Orders.update (h : w.Orders p a) {op : Arena.Op BufferId} (hop : W.allows op) :
    w.Orders p (op.perform a).2 := by
  obtain ⟨wiring, hw, hdated⟩ := h
  obtain ⟨wiring', hw', hstep⟩ := Arena.perform_refines hw op
  exact ⟨wiring', hw', fun lane => (hdated lane).sublist (hstep.order_sublist hop lane)⟩

/-- A detached buffer is put at the head of a lane. -/
theorem Orders.enter (h : w.Orders p a) {b : BufferId} {es : List Event}
    (hplace : a.place? key = some (b, none)) (hes : Announcing p lane key es)
    (he : w'.events = es ++ w.events) :
    w'.Orders p ((Arena.Op.prepend lane key).perform a).2 := by
  obtain ⟨wiring, hw, hdated⟩ := h
  obtain ⟨wiring', hw', hstep⟩ := Arena.perform_refines hw (.prepend lane key)
  refine ⟨wiring', hw', fun l => ?_⟩
  rw [hstep.eq_enter hplace]
  by_cases hl : l = lane
  · subst hl
    rw [Arena.Catalog.order_enter_self]
    refine hes.dated he (hdated l) fun hin => ?_
    obtain ⟨value, hlisted⟩ := (hw.mem_order l key).1 hin
    exact nomatch hlisted.symm.trans hplace
  · rw [Arena.Catalog.order_enter_of_ne hl]
    refine (hdated l).congr (fun k _ => ?_) fun hfull k _ => ?_
    · exact hes.listedAt_of_ne he fun hsame => hl hsame.2.1.symm
    · exact hes.publishedAt_of_ne he fun hsame => hl (hfull.trans hsame.2.1.symm)

theorem WarrantedStep.chronological (hd : WarrantedStep W w w') (h : w.Chronological) : w'.Chronological := by
  intro p a ha
  cases hd with
  | harmless hh =>
      obtain ⟨added, hadded, he⟩ := hh.events
      refine (h p a ((hh.arena p).symm.trans ha)).congr (fun _ _ => ?_) fun _ => ?_
      · exact latest_append he fun e hin => Event.enters_of_not_isListing (hadded e hin)
      · exact latest_append he fun e hin => Event.publishes_of_not_isListing (hadded e hin)
  | work _ => exact (h p a ha).of_events rfl
  | @update q pool hp op hop _ =>
      rw [arena?_setArena _ hp] at ha
      split_ifs at ha with hq
      · subst hq
        exact Option.some.inj ha ▸ ((h p pool.arena (arena?_of_pool? hp)).update hop).of_events rfl
      · exact (h p a ha).of_events rfl
  | @enter q pool lane key b es hp hplace _ hes =>
      change (w.setArena q _).arena? p = some a at ha
      rw [arena?_setArena _ hp] at ha
      split_ifs at ha with hq
      · subst hq
        exact Option.some.inj ha ▸ (h p pool.arena (arena?_of_pool? hp)).enter hplace hes rfl
      · refine (h p a ha).congr (fun _ _ => ?_) fun _ => ?_
        · exact hes.listedAt_of_ne rfl fun hsame => hq hsame.1.symm
        · exact hes.publishedAt_of_ne rfl fun hsame => hq hsame.1.symm
  | @found pool hempty =>
      rw [arena?_push] at ha
      split_ifs at ha
      · exact Option.some.inj ha ▸ hempty ▸ orders_empty _ p
      · exact (h p a ha).of_events rfl
  | close q =>
      rw [arena?_retirePool] at ha
      split_ifs at ha
      exact (h p a ha).of_events rfl

theorem WarrantedSteps.chronological (hd : WarrantedSteps W w w') (h : w.Chronological) :
    w'.Chronological := by
  induction hd with
  | refl => exact h
  | tail _ hd ih => exact hd.chronological ih

/-- Nothing that has happened is forgotten. -/
theorem WarrantedStep.length_le (hd : WarrantedStep W w w') : w.events.length ≤ w'.events.length := by
  cases hd with
  | harmless hh =>
      obtain ⟨added, -, he⟩ := hh.events
      rw [he, List.length_append]
      exact Nat.le_add_left _ _
  | enter =>
      rw [List.length_append]
      exact Nat.le_add_left _ _
  | work | update | found | close => exact Nat.le_refl _

theorem WarrantedSteps.length_le (hd : WarrantedSteps W w w') : w.events.length ≤ w'.events.length := by
  induction hd with
  | refl => exact Nat.le_refl _
  | tail _ hd ih => exact Nat.le_trans ih hd.length_le

/-- The time of a key stays as it is, unless the key is put into the lane. -/
theorem WarrantedStep.listedAt (hd : WarrantedStep W w w') (p : PoolId) (lane : Lane) (key : Arena.Key) :
    w.events.length < w'.listedAt p lane key ∨ w'.listedAt p lane key = w.listedAt p lane key := by
  cases hd with
  | harmless hh =>
      obtain ⟨added, hadded, he⟩ := hh.events
      exact .inr (latest_append he fun e hin => Event.enters_of_not_isListing (hadded e hin))
  | @enter q _ l k _ _ _ _ _ hes =>
      by_cases hsame : q = p ∧ l = lane ∧ k = key
      · obtain ⟨rfl, rfl, rfl⟩ := hsame
        exact .inl (hes.lt_listedAt rfl)
      · exact .inr (hes.listedAt_of_ne rfl hsame)
  | work | update | found | close => exact .inr rfl

/-- Whoever is in a lane was put in after some moment, or was there at that moment, with the same
time. -/
theorem WarrantedSteps.stayed (hd : WarrantedSteps W w w') (hs : w.Sound) {b : BufferId}
    (hk : w'.place? p key = some (b, some lane)) :
    w.events.length < w'.listedAt p lane key ∨
      w.place? p key = some (b, some lane) ∧ w'.listedAt p lane key = w.listedAt p lane key := by
  induction hd with
  | refl => exact .inr ⟨hk, rfl⟩
  | @tail v v' hds hd ih =>
      have hgrown : w.events.length ≤ v.events.length := WarrantedSteps.length_le hds
      cases hd.placed (WarrantedSteps.sound hds hs) hk with
      | entered _ _ hes he => exact .inl (Nat.lt_of_le_of_lt hgrown (hes.lt_listedAt he))
      | kept hplace =>
          rcases hd.listedAt p lane key with hlate | hsame
          · exact .inl (Nat.lt_of_le_of_lt hgrown hlate)
          · rw [hsame]
            exact ih hplace

/-- What an iteration over a lane shows. -/
structure Lineup (w : World σ) (p : PoolId) (lane : Lane) (handles : List Handle) : Prop where
  mem_iff : ∀ h, h ∈ handles ↔ h.pool = p ∧ w.place? p h.key = some (h.buffer, some lane)
  forward : Pool.capture p lane .forward w = .ok handles (w.hold handles)
  backward : Pool.capture p lane .backward w = .ok handles.reverse (w.hold handles.reverse)
  /-- Every member was put in once. -/
  listed : ∀ h ∈ handles, 0 < w.listedAt p lane h.key
  latestFirst : handles.Pairwise fun g h => w.listedAt p lane h.key < w.listedAt p lane g.key
  earliestFirst : handles.reverse.Pairwise fun g h =>
    w.listedAt p lane g.key < w.listedAt p lane h.key
  /-- Every member of the full lane was announced, and directly afterwards it was put in. -/
  published : lane = .full → ∀ h ∈ handles,
    0 < w.publishedAt p h.key ∧ w.listedAt p lane h.key = w.publishedAt p h.key + 1
  latestPublishedFirst : lane = .full → handles.Pairwise fun g h =>
    w.publishedAt p h.key < w.publishedAt p g.key
  earliestPublishedFirst : lane = .full → handles.reverse.Pairwise fun g h =>
    w.publishedAt p g.key < w.publishedAt p h.key

theorem Chronological.lineup (h : w.Chronological) {pool : Pool} (hp : w.pool? p = some pool)
    (lane : Lane) : ∃ handles, w.Lineup p lane handles := by
  obtain ⟨wiring, hw, hdated⟩ := h p pool.arena (arena?_of_pool? hp)
  have hlane := hw.lanes lane
  let entries := (wiring.lane lane).filterMap pool.arena.entryAt?
  let handles : List Handle := entries.map fun e => ⟨p, e.1, e.2⟩
  have hkeys : handles.map (·.key) = (pool.arena.catalog wiring).order lane := by
    change (entries.map _).map _ = entries.map _
    rw [List.map_map]
    rfl
  have hd : w.Dated p lane (handles.map (·.key)) := hkeys ▸ hdated lane
  have horder := List.pairwise_map.1 hd.order
  have hpublished : lane = .full → ∀ h ∈ handles,
      0 < w.publishedAt p h.key ∧ w.listedAt p lane h.key = w.publishedAt p h.key + 1 :=
    fun hfull h hin => hd.published hfull _ (List.mem_map_of_mem hin)
  have hlatest : lane = .full →
      handles.Pairwise fun g h => w.publishedAt p h.key < w.publishedAt p g.key := by
    refine fun hfull => horder.imp_of_mem fun {g h} hg hh hlt => ?_
    have hgp := (hpublished hfull g hg).2
    have hhp := (hpublished hfull h hh).2
    omega
  refine ⟨handles, fun h => ?_, ?_, ?_, fun h hin => hd.listed _ (List.mem_map_of_mem hin), horder,
    List.pairwise_reverse.2 horder, hpublished, hlatest,
    fun hfull => List.pairwise_reverse.2 (hlatest hfull)⟩
  · rw [place?_of_pool? hp]
    constructor
    · intro hin
      obtain ⟨e, he, rfl⟩ := List.mem_map.1 hin
      exact ⟨rfl, Arena.place?_of_mem_entries hlane he⟩
    · obtain ⟨q, key, b⟩ := h
      rintro ⟨rfl, hplace⟩
      obtain ⟨node, hn, hv, hl⟩ := Arena.place?_eq_some_iff.1 hplace
      have hmem : key.index ∈ wiring.lane lane :=
        (hlane.mem_iff _).2 ⟨node, Arena.nodeAt?_of_node? hn, hl⟩
      exact List.mem_map.2 ⟨(key, b), List.mem_filterMap.2 ⟨key.index, hmem,
        Arena.entryAt?_eq_some_iff.2 ⟨rfl, node, hn, hv⟩⟩, rfl⟩
  · rw [Pool.capture, bind_of_ok _ (readArena_of_ok hp hlane.entries_forward)]
    rfl
  · rw [Pool.capture, bind_of_ok _ (readArena_of_ok hp hlane.entries_backward)]
    change EStateM.Result.ok (entries.reverse.map fun e => (⟨p, e.1, e.2⟩ : Handle))
      (w.hold (entries.reverse.map fun e => ⟨p, e.1, e.2⟩)) = _
    rw [List.map_reverse]

end World

namespace Desk

variable {s s' : Scene}

theorem Scene.Reaches.steps (hs : s.Kept) (hr : s.Reaches s') : WarrantedSteps .all s.world s'.world :=
  (Scene.Reaches.led (fun _ _ _ => trivial) (fun _ => trivial) (hs.open fun _ => trivial) hr).steps

theorem Scene.Reaches.chronological {profile : Profile} {format : Format} {maker : Supply}
    (hs : (Scene.empty profile format maker).Reaches s) : s.world.Chronological := by
  refine (Scene.Reaches.steps (kept_empty profile format maker) hs).chronological fun p a ha => ?_
  simp [World.arena?, World.pool?, World.empty, Scene.empty] at ha

/-- At every scene of every run, an iteration over a lane shows its members in the order in which they
were put in, backward the earliest first. The members of the full lane are in the order of their latest
announcements. At any later scene, whoever is in a lane has been put in since, or has been there since. -/
theorem publication_order {profile : Profile} {format : Format} {maker : Supply} {s : Scene}
    (hs : (Scene.empty profile format maker).Reaches s) :
    (∀ p pool, s.world.pool? p = some pool → ∀ lane, ∃ handles, s.world.Lineup p lane handles) ∧
    ∀ s', s.Reaches s' → ∀ p key b lane, s'.world.place? p key = some (b, some lane) →
      s.world.events.length < s'.world.listedAt p lane key ∨
        s.world.place? p key = some (b, some lane) ∧
          s'.world.listedAt p lane key = s.world.listedAt p lane key := by
  have hkept : s.Kept := Scene.Reaches.kept (kept_empty profile format maker) hs
  refine ⟨fun p pool hp lane => hs.chronological.lineup hp lane, fun s' hr p key b lane hplace => ?_⟩
  obtain ⟨k, hk⟩ := hkept
  exact (Scene.Reaches.steps ⟨k, hk⟩ hr).stayed hk.agrees.sound hplace

/-- Three buffers are published, one of them in the slot of a buffer that was deallocated. It is taken
out of the middle and put in again. -/
theorem republished_buffer_comes_first :
    let w := performAll 0 0 [.build .standard false, .obtain .provideFull 100 none (some "a"),
      .obtain .allocate 100 none (some "x"), .give (.named "x") false .deallocate,
      .obtain .provideFull 100 none (some "b"), .obtain .provideFull 100 none (some "c"),
      .place (.named "b") (.remove .full), .place (.named "b") (.insert .full)]
      (.empty .checked .plain (.within none) .empty)
    w.Lineup 0 .full [⟨0, ⟨1, 1⟩, 2⟩, ⟨0, ⟨2, 0⟩, 3⟩, ⟨0, ⟨0, 0⟩, 0⟩] := by
  intro w
  have hrun : (Scene.empty .checked .plain (.within none)).Reaches ⟨w, []⟩ :=
    reaches_performAll 0 0 _ _
  have hlive : (w.pool? 0).isSome := by decide +kernel
  obtain ⟨pool, hp⟩ := Option.isSome_iff_exists.1 hlive
  obtain ⟨handles, h⟩ := (publication_order hrun).1 0 pool hp .full
  have hshown : (Pool.capture 0 .full .forward).run' w =
      some [⟨0, ⟨1, 1⟩, 2⟩, ⟨0, ⟨2, 0⟩, 3⟩, ⟨0, ⟨0, 0⟩, 0⟩] := by decide +kernel
  rw [run'_of_ok h.forward, Option.some.injEq] at hshown
  exact hshown ▸ h

end Desk

end BufferPool
