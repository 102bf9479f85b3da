import BufferPool.Proofs.Pool.Sweeping

/-!
# Lanes that are settled

After a whole pass of its own sweep, a thread finds a lane settled: one-shot buffers are gone, what
nobody else owns is empty and free, and what another thread owns is as it was. Nothing else has
happened. A further pass changes nothing but counts.
-/

namespace BufferPool

open PoolM World

variable {σ : Type} {me : Thread} {w w₁ w' : World σ} {p : PoolId} {minimum : UInt64}
  {c : Arena.Catalog BufferId} {lane : Lane} {h : Handle} {b : BufferId} {buffer : Buffer}
  {handles : List Handle} {dir : Direction}

/-- There are two lanes. -/
theorem Lane.eq_or_eq_other (lane lane' : Lane) : lane = lane' ∨ lane = lane'.other := by
  cases lane <;> cases lane' <;> decide

namespace World

/-- The pool, the buffers and the record are the same. -/
structure Matches (p : PoolId) (w w' : World σ) : Prop where
  arena : w'.arena? p = w.arena? p
  buffer : ∀ b, w'.buffer b = w.buffer b
  record : w'.record = w.record
  profile : w'.profile = w.profile
  size : w.cells.size ≤ w'.cells.size

theorem matches_embarked (p : PoolId) (lane : Lane) (dir : Direction) (handles : List Handle)
    (w : World σ) : Matches p w (Pool.embarked p lane dir handles w) :=
  ⟨arena?_hold w handles p, buffer_hold w handles, record_hold w handles,
    (quiet_foldl_retain w handles).profile, (quiet_foldl_retain w handles).cells⟩

theorem matches_letGo (p : PoolId) (w : World σ) : Matches p w w.letGo := by
  refine ⟨arena?_letGo w p, buffer_letGo w, record_letGo w, ?_, ?_⟩
  · unfold letGo
    cases w.held with
    | nil => rfl
    | cons handles outer => exact (quiet_dropAll w handles).profile
  · unfold letGo
    cases w.held with
    | nil => exact Nat.le_refl _
    | cons handles outer => exact (quiet_dropAll w handles).cells

theorem Stocks.letGo (hs : w.Stocks p minimum c) : w.letGo.Stocks p minimum c := by
  unfold World.letGo
  cases w.held with
  | nil => exact hs
  | cons handles outer => exact (hs.quiet (quiet_dropAll w handles)).hold outer

/-- What comes before or after the visits makes no difference. -/
theorem Sweeps.framed {w₀ : World σ} (hbefore : Matches p w₀ w) (hsw : Sweeps p me handles w w₁)
    (hafter : Matches p w₁ w') : Sweeps p me handles w₀ w' := by
  have hout : w.outgoing handles = w₀.outgoing handles := outgoing_congr fun g _ => hbefore.buffer _
  refine ⟨fun key => ?_, fun lane => ?_, fun b => ?_, ?_,
    hafter.profile.trans (hsw.profile.trans hbefore.profile),
    Nat.le_trans hbefore.size (Nat.le_trans hsw.size hafter.size)⟩
  · rw [place?_congr hafter.arena, hsw.place, hout, place?_congr hbefore.arena]
  · rw [row_congr hafter.arena, hsw.row, hout, row_congr hbefore.arena]
  · rw [hafter.buffer, hsw.buffer, hbefore.buffer]
  · rw [hafter.record, hsw.record, hout, hbefore.record]
    congr 2
    exact List.map_congr_left fun g _ => by rw [hbefore.buffer]

/-- Handles to the members of a lane, in the order in which a traversal visits them. -/
def queue (w : World σ) (p : PoolId) (lane : Lane) : Direction → List Handle
  | .forward => (w.row p lane).map fun e => ⟨p, e.1, e.2⟩
  | .backward => (w.row p lane).reverse.map fun e => ⟨p, e.1, e.2⟩

theorem mem_queue :
    h ∈ w.queue p lane dir ↔ h.pool = p ∧ (h.key, h.buffer) ∈ w.row p lane := by
  obtain ⟨q, key, b⟩ := h
  cases dir <;> simp [queue, eq_comm, and_comm]

end World

namespace Pool

variable {α : Type} {visit : α → Handle → PoolM σ (Bool × α)} {start : α}

theorem capture_eq_queue (hs : w.Stocks p minimum c) (lane : Lane) (dir : Direction) :
    capture p lane dir w = .ok (w.queue p lane dir) (w.hold (w.queue p lane dir)) := by
  obtain ⟨hforward, hbackward⟩ := hs.readArena lane
  cases dir with
  | forward => exact bind_of_ok _ hforward
  | backward => exact bind_of_ok _ hbackward

theorem count_eq_length (hs : w.Stocks p minimum c) (lane : Lane) :
    count p lane w = .ok (w.row p lane).length w := by
  obtain ⟨pool, -, hp, -⟩ := hs.pool
  rw [count, bind_of_ok _ (getPool_of_some hp), hs.length_row hp]
  rfl

theorem traverse_of_visitAll {r : Bool × α}
    (hcap : capture p lane dir w = .ok handles (w.hold handles))
    (hall : visitAll visit start handles (embarked p lane dir handles w) = .ok r w₁) :
    traverse p lane dir visit start w = .ok r w₁.letGo := by
  have htraverse : traverse p lane dir visit start w =
      ensuring (·.letGo) (visitAll visit start handles) (embarked p lane dir handles w) :=
    bind_of_ok _ hcap
  rw [htraverse, ensuring, hall]

/-- Every route is a traversal, unless it leads over an empty full lane. -/
theorem travel_of_traverse (hs : w.Stocks p minimum c) {route : Route}
    (hfull : route = .full → w.row p .full ≠ [])
    (hfree : w.profile = .checked → route = .free → w.row p .free ≠ []) {r : Bool × α}
    (htraverse : traverse p route.target dir visit start w = .ok r w') :
    ∃ answer, travel p route dir visit start w = .ok (answer, r.2) w' := by
  cases route with
  | full =>
      have hcount : (w.row p .full).length ≠ 0 := fun hzero =>
        hfull rfl (List.length_eq_zero_iff.1 hzero)
      refine ⟨none, (bind_of_ok _ (count_eq_length hs .full)).trans ?_⟩
      rw [if_neg hcount]
      exact bind_of_ok _ htraverse
  | free =>
      have hmet : expect (σ := σ) ((w.row p .free).length != 0) .someFree w = .ok () w := by
        cases hc : w.profile with
        | checked =>
            have hcount : (w.row p .free).length ≠ 0 := fun hzero =>
              hfree hc rfl (List.length_eq_zero_iff.1 hzero)
            rw [bne_iff_ne.2 hcount]
            exact expect_true _ w
        | unchecked => exact expect_of_unchecked _ _ hc
      refine ⟨none, (bind_of_ok _ (count_eq_length hs .free)).trans ?_⟩
      rw [bind_of_ok _ hmet]
      exact bind_of_ok _ htraverse
  | lane lane => exact ⟨some r.1, bind_of_ok _ htraverse⟩

end Pool

namespace World

/-- What a pass of its own sweep finds when it begins: a lane of different buffers, and one-shot buffers
that are flushed, if that is checked. -/
structure Sweepable (w : World σ) (p : PoolId) (route : Pool.Route) : Prop where
  nodup : ((w.row p route.target).map (·.2)).Nodup
  lt_size : ∀ e ∈ w.row p route.target, e.2 < w.cells.size
  flushed : w.profile = .checked → ∀ e ∈ w.row p route.target, (w.buffer e.2).transient = true →
    (w.buffer e.2).unflushedSize = 0
  some_free : w.profile = .checked → route = .free → w.row p .free ≠ []

theorem Sweepable.nodup_queue {route : Pool.Route} (hw : w.Sweepable p route) (dir : Direction) :
    ((w.queue p route.target dir).map (·.buffer)).Nodup := by
  cases dir with
  | forward =>
      rw [queue, List.map_map]
      exact hw.nodup
  | backward =>
      rw [queue, List.map_map, List.map_reverse, List.nodup_reverse]
      exact hw.nodup

/-- How many buffers are counted does not depend on the direction. -/
theorem settled_queue (w : World σ) (p : PoolId) (lane : Lane) (dir : Direction) (me : Thread) :
    w.settled me (w.queue p lane dir) = ((w.row p lane).countP fun e => (w.buffer e.2).transient) +
      (w.row p lane).countP fun e => Sweep.recycles me (w.buffer e.2) := by
  cases dir with
  | forward =>
      rw [settled, queue, List.countP_map, List.countP_map]
      rfl
  | backward =>
      rw [settled, queue, List.countP_map, List.countP_map, List.countP_reverse, List.countP_reverse]
      rfl

end World

namespace Sweep

/-- A pass visits every member of the lane once. -/
theorem pass_sweeps (hs : w.Stocks p minimum c) {route : Pool.Route} (hw : w.Sweepable p route)
    (dir : Direction) (me : Thread) (n : UInt64) :
    ∃ w' c', (Sweep.mk p route.target me n).pass me route dir w =
        .ok ⟨p, route.target, me, n + .ofNat (w.settled me (w.queue p route.target dir))⟩ w' ∧
      Sweeps p me (w.queue p route.target dir) w w' ∧ w'.Stocks p minimum c' := by
  let handles := w.queue p route.target dir
  let w₀ := Pool.embarked p route.target dir handles w
  have hpass : ∀ {r : Option Bool × Sweep} {w' : World σ},
      Pool.travel p route dir (visit me) (Sweep.mk p route.target me n) w = .ok r w' →
        (Sweep.mk p route.target me n).pass me route dir w = .ok r.2 w' := fun hr => bind_of_ok _ hr
  by_cases hempty : route = .full ∧ w.row p .full = []
  · obtain ⟨rfl, hrow⟩ := hempty
    have hnone : w.queue p Pool.Route.full.target dir = [] := by
      change w.queue p .full dir = []
      cases dir <;> rw [queue, hrow] <;> rfl
    refine ⟨w, c, ?_, ?_, hs⟩
    · have htravel : Pool.travel p .full dir (visit me) ⟨p, .full, me, n⟩ w =
          .ok (none, ⟨p, .full, me, n⟩) w := by
        refine (bind_of_ok _ (Pool.count_eq_length hs .full)).trans ?_
        rw [hrow]
        rfl
      have hcount : n + .ofNat (w.settled me []) = n := UInt64.add_zero n
      rw [hnone, hcount]
      exact hpass htravel
    · rw [hnone]
      exact sweeps_nil p me w
  · have hmatches := matches_embarked p route.target dir handles w
    have hs₀ : w₀.Stocks p minimum c :=
      ((hs.quiet (quiet_foldl_retain w handles)).hold _).quiet (quiet_emit _ _)
    have hmembers : ∀ g ∈ handles, g.pool = p ∧
        w₀.place? p g.key = some (g.buffer, some route.target) ∧ g.buffer < w₀.cells.size := by
      intro g hg
      obtain ⟨hpool, hin⟩ := mem_queue.1 hg
      exact ⟨hpool, (place?_congr hmatches.arena g.key).trans (hs.mem_row.1 hin),
        Nat.lt_of_lt_of_le (hw.lt_size _ hin) hmatches.size⟩
    have hflushed : w₀.profile = .checked → ∀ g ∈ handles, (w₀.buffer g.buffer).transient = true →
        (w₀.buffer g.buffer).unflushedSize = 0 := by
      intro hc g hg
      rw [hmatches.buffer]
      exact hw.flushed (hmatches.profile ▸ hc) _ (mem_queue.1 hg).2
    obtain ⟨w₁, c₁, hall, hsweeps, hs₁⟩ :=
      visitAll_sweeps (s := ⟨p, route.target, me, n⟩) rfl hs₀ hmembers (hw.nodup_queue dir) hflushed
    have htraverse := Pool.traverse_of_visitAll (Pool.capture_eq_queue hs route.target dir) hall
    obtain ⟨answer, htravel⟩ := Pool.travel_of_traverse hs (fun he hrow => hempty ⟨he, hrow⟩)
      hw.some_free htraverse
    refine ⟨w₁.letGo, c₁, ?_, .framed hmatches hsweeps (matches_letGo p w₁), ?_⟩
    · rw [hpass htravel, settled_congr fun g _ => hmatches.buffer g.buffer]
      rfl
    · exact hs₁.letGo

end Sweep

namespace World

/-- A pass on thread `me` has settled a lane. Nothing is on record but that one-shot buffers were
deallocated, each of them once. -/
structure Settles (p : PoolId) (lane : Lane) (me : Thread) (dir : Direction) (w w' : World σ) :
    Prop where
  row : w'.row p lane = (w.row p lane).filter fun e => !(w.buffer e.2).transient
  other : w'.row p lane.other = w.row p lane.other
  gone : ∀ e ∈ w.row p lane, (w.buffer e.2).transient = true → w'.place? p e.1 = none
  kept : ∀ key, (∀ b, (key, b) ∈ w.row p lane → (w.buffer b).transient = false) →
    w'.place? p key = w.place? p key
  buffer : ∀ b, w'.buffer b =
    if b ∈ (w.row p lane).map (·.2) then Sweep.swept me (w.buffer b) else w.buffer b
  record : w'.record = ((w.outgoing (w.queue p lane dir)).map fun h =>
    .deallocated p h.buffer (w.buffer h.buffer).totalSize).reverse ++ w.record

/-- A pass leaves everything where it is. Only instruments may notice it. -/
structure Unmoved (p : PoolId) (w w' : World σ) : Prop where
  row : ∀ lane, w'.row p lane = w.row p lane
  place : ∀ key, w'.place? p key = w.place? p key
  record : w'.record = w.record
  bare : ∀ b, (w'.buffer b).bare = (w.buffer b).bare

theorem mem_keys_outgoing {key : Arena.Key} :
    key ∈ (w.outgoing (w.queue p lane dir)).map (·.key) ↔
      ∃ b, (key, b) ∈ w.row p lane ∧ (w.buffer b).transient = true := by
  rw [List.mem_map]
  constructor
  · rintro ⟨h, hout, rfl⟩
    obtain ⟨hin, hone⟩ := List.mem_filter.1 hout
    exact ⟨h.buffer, (mem_queue.1 hin).2, hone⟩
  · rintro ⟨b, hin, hone⟩
    exact ⟨⟨p, key, b⟩, List.mem_filter.2 ⟨mem_queue.2 ⟨rfl, hin⟩, hone⟩, rfl⟩

theorem Sweeps.settles (hs : w.Stocks p minimum c) (hsw : Sweeps p me (w.queue p lane dir) w w') :
    Settles p lane me dir w w' := by
  refine ⟨?row, ?other, fun e he hone => ?gone, fun key hlasting => ?kept, fun b => ?buffer,
    hsw.record⟩
  case row =>
    rw [hsw.row]
    refine List.filter_congr fun e he => Bool.eq_iff_iff.2 ?_
    rw [decide_eq_true_iff, mem_keys_outgoing, Bool.not_eq_true', ← Bool.not_eq_true]
    refine not_congr ⟨?_, fun hone => ⟨e.2, he, hone⟩⟩
    rintro ⟨b, hin, hone⟩
    obtain ⟨rfl, -⟩ := hs.eq_of_mem_row he hin
    exact hone
  case other =>
    rw [hsw.row, List.filter_eq_self.2]
    intro e he
    rw [decide_eq_true_iff, mem_keys_outgoing]
    rintro ⟨b, hin, -⟩
    obtain ⟨-, hlane⟩ := hs.eq_of_mem_row he hin
    cases lane <;> exact nomatch hlane
  case gone =>
    rw [hsw.place, if_pos (mem_keys_outgoing.2 ⟨e.2, he, hone⟩)]
  case kept =>
    rw [hsw.place, if_neg]
    intro hin
    obtain ⟨b, hin, hone⟩ := mem_keys_outgoing.1 hin
    exact nomatch (hlasting b hin).symm.trans hone
  case buffer =>
    have hmem : b ∈ (w.queue p lane dir).map (·.buffer) ↔ b ∈ (w.row p lane).map (·.2) := by
      rw [List.mem_map, List.mem_map]
      constructor
      · rintro ⟨h, hin, rfl⟩
        exact ⟨_, (mem_queue.1 hin).2, rfl⟩
      · rintro ⟨e, hin, rfl⟩
        exact ⟨⟨p, e.1, e.2⟩, mem_queue.2 ⟨rfl, hin⟩, rfl⟩
    rw [hsw.buffer]
    simp only [hmem]

/-- Nothing that is left would leave. -/
theorem Settles.lasting (hst : Settles p lane me dir w w') :
    ∀ e ∈ w'.row p lane, (w'.buffer e.2).transient = false := by
  intro e he
  rw [hst.row] at he
  obtain ⟨hin, hlasting⟩ := List.mem_filter.1 he
  rw [hst.buffer, if_pos (List.mem_map_of_mem hin), Sweep.transient_swept]
  exact Bool.not_eq_true' _ ▸ hlasting

end World

namespace Sweep

/-- A pass settles its lane, and it has counted what has left and what was emptied. Unless the free lane
is left empty, the lane can be swept again. -/
theorem pass_settles (hs : w.Stocks p minimum c) {route : Pool.Route} (hw : w.Sweepable p route)
    (dir : Direction) (me : Thread) (n : UInt64) :
    ∃ w' c', (Sweep.mk p route.target me n).pass me route dir w =
        .ok ⟨p, route.target, me, n + .ofNat (((w.row p route.target).countP fun e =>
          (w.buffer e.2).transient) +
            (w.row p route.target).countP fun e => recycles me (w.buffer e.2))⟩ w' ∧
      Settles p route.target me dir w w' ∧ w'.Stocks p minimum c' ∧
      ((w.profile = .checked → route = .free → w'.row p .free ≠ []) → w'.Sweepable p route) := by
  obtain ⟨w', c', hr, hsweeps, hs'⟩ := pass_sweeps hs hw dir me n
  rw [settled_queue] at hr
  have hst := hsweeps.settles hs
  refine ⟨w', c', hr, hst, hs', fun hsome => ⟨?_, fun e he => ?_, fun _ e he hone => ?_,
    fun hc => hsome (hsweeps.profile ▸ hc)⟩⟩
  · rw [hst.row]
    exact hw.nodup.sublist (List.filter_sublist.map _)
  · rw [hst.row] at he
    exact Nat.lt_of_lt_of_le (hw.lt_size e (List.mem_of_mem_filter he)) hsweeps.size
  · exact nomatch (hst.lasting e he).symm.trans hone

/-- Another pass moves nothing, and it counts the same buffers as before, but for those that are gone. -/
theorem pass_again {route : Pool.Route} {w'' : World σ} (hst : Settles p route.target me dir w w')
    {dir' : Direction} (hagain : Settles p route.target me dir' w' w'') :
    Unmoved p w' w'' ∧ ((w'.row p route.target).countP fun e => (w'.buffer e.2).transient) = 0 ∧
      ((w'.row p route.target).countP fun e => recycles me (w'.buffer e.2)) =
        (w.row p route.target).countP fun e => recycles me (w.buffer e.2) := by
  have hlasting := hst.lasting
  have hbuffer : ∀ e ∈ w.row p route.target, w'.buffer e.2 = swept me (w.buffer e.2) := fun e he => by
    rw [hst.buffer, if_pos (List.mem_map_of_mem he)]
  refine ⟨⟨fun lane => ?row, fun key => ?place, ?record, fun b => ?bare⟩, ?gone, ?emptied⟩
  case row =>
    rcases Lane.eq_or_eq_other lane route.target with hl | hl
    · rw [hl, hagain.row, List.filter_eq_self.2]
      intro e he
      rw [hlasting e he]
      rfl
    · rw [hl]
      exact hagain.other
  case place => exact hagain.kept key fun b hin => hlasting (key, b) hin
  case record =>
    have hnone : w'.outgoing (w'.queue p route.target dir') = [] := List.filter_eq_nil_iff.2 fun h hin =>
      Bool.eq_false_iff.1 (hlasting (h.key, h.buffer) (mem_queue.1 hin).2)
    rw [hagain.record, hnone]
    rfl
  case bare =>
    rw [hagain.buffer]
    split_ifs with hin
    · obtain ⟨e, he, rfl⟩ := List.mem_map.1 hin
      rw [hst.row] at he
      rw [hbuffer e (List.mem_of_mem_filter he)]
      exact bare_swept_swept me _
    · rfl
  case gone => exact List.countP_eq_zero.2 fun e he => Bool.eq_false_iff.1 (hlasting e he)
  case emptied =>
    rw [hst.row, List.countP_filter]
    refine List.countP_congr fun e he => ?_
    rw [hbuffer e he, recycles_swept, Bool.and_eq_true, recycles_iff, Bool.not_eq_true']
    exact ⟨fun hboth => hboth.1, fun hr => ⟨hr, hr.1⟩⟩

end Sweep

end BufferPool
