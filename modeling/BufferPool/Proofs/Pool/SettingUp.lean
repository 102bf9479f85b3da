import BufferPool.Proofs.Pool.Building

/-!
# How setting up a pool ends

A pool is set up, or the answer says why not, with one exception. The sizes are checked for being
multiples of the page size, and such a multiple may be larger than every capacity there is. Then the
first buffer that is asked for has no class. The unchecked profile takes that for a request that was
not met, and in the checked one an expectation fails. In both the pool is given up without its heap
having been asked.
-/

namespace BufferPool

open PoolM

variable {σ : Type} {w : World σ} {minimum : UInt64} {c : Config} {p : PoolId} {pool : Pool}

/-- No capacity is larger than the largest one, whatever is requested. -/
theorem SizeClass.ofRequest?_of_maximum_lt (h : maximum < minimum) :
    ofRequest? minimum minimum = none :=
  if_neg (UInt64.not_le.2 h)

namespace World

/-- There is a new pool with this configuration, which has no buffers yet, and this was noted. -/
def opened (w : World σ) (c : Config) (minimum : UInt64) (notes : List Note) : World σ :=
  { w with
    pools := w.pools.push ⟨c, minimum, c.heap, .empty, 0, 0, true⟩
    events := (notes.map (.noted w.pools.size)).reverse ++ w.events }

/-- The new pool was given up before it had a buffer, and this was noted. -/
def givenUp (w : World σ) (c : Config) (minimum : UInt64) (notes : List Note) : World σ :=
  { w with
    pools := w.pools.push ⟨c, minimum, c.heap, .empty, 0, 0, false⟩
    events := (notes.map (.noted w.pools.size)).reverse ++ w.events }

variable {notes : List Note}

theorem pool?_opened (w : World σ) (c : Config) (minimum : UInt64) (notes : List Note) :
    (w.opened c minimum notes).pool? w.pools.size = some ⟨c, minimum, c.heap, .empty, 0, 0, true⟩ := by
  rw [pool?, opened, Array.getElem?_push_size]
  rfl

theorem emit_opened (note : Note) : (w.opened c minimum notes).emit (.noted w.pools.size note) =
    w.opened c minimum (notes ++ [note]) := by
  rw [opened, opened, List.map_append, List.reverse_append]
  rfl

end World

/-- What setting up a pool under the number `p` may answer. -/
inductive Config.Answers (c : Config) (p : PoolId) : Except SetupError PoolId → Prop
  | done : Answers c p (.ok p)
  | zeroMinimum (h : c.minimum = some 0 ∨ c.minimum = none ∧ c.pageSize = 0) :
      Answers c p (.error .zeroMinimum)
  | oddMinimum {minimum : UInt64} (h : c.minimum = some minimum) (hodd : minimum % c.pageSize ≠ 0) :
      Answers c p (.error (.notPageAligned "min_elem_size" minimum c.pageSize))
  | oddLimit (hodd : c.limit % c.pageSize ≠ 0) :
      Answers c p (.error (.notPageAligned "limit_size" c.limit c.pageSize))
  | unmet {n : Nat} (h : n < c.cacheCount) :
      Answers c p (.error (.preallocationFailed n c.cacheCount))

/-- A configuration is refused for one of the documented reasons. -/
theorem Config.answers_of_validate {e : SetupError} (h : c.validate = .error e) :
    c.Answers p (.error e) := by
  rw [Config.validate_eq] at h
  split_ifs at h with hzero haligned hlimit
  · obtain rfl := Except.error.inj h
    cases hminimum : c.minimum with
    | none =>
        rw [hminimum] at hzero
        exact .zeroMinimum (.inr ⟨hminimum, hzero⟩)
    | some minimum =>
        rw [hminimum] at hzero
        exact .zeroMinimum (.inl (hminimum.trans (congrArg some hzero)))
  · obtain rfl := Except.error.inj h
    exact .oddLimit hlimit
  · obtain rfl := Except.error.inj h
    cases hminimum : c.minimum with
    | none =>
        rw [hminimum] at haligned
        exact absurd UInt64.mod_self haligned
    | some minimum =>
        rw [hminimum] at haligned
        exact .oddMinimum hminimum haligned

namespace Pool

open World

theorem make_checked (hp : w.pool? p = some pool)
    (hclass : SizeClass.ofRequest? minimum pool.minimum = none) (hprofile : w.profile = .checked) :
    make p minimum w = .error (.unexpected (.representable minimum)) w := by
  rw [make, bind_of_ok _ (getPool_of_some hp), hclass]
  exact bind_of_error _ (expect_of_checked _ hprofile)

theorem make_unchecked (hp : w.pool? p = some pool)
    (hclass : SizeClass.ofRequest? minimum pool.minimum = none)
    (hprofile : w.profile = .unchecked) :
    make p minimum w = .ok none (w.emit (.noted p (.tooLarge minimum))) := by
  rw [make, bind_of_ok _ (getPool_of_some hp), hclass]
  exact bind_of_ok _ (expect_of_unchecked _ _ hprofile)

/-- What faults ends with the pool closed. -/
theorem closing_of_error {α : Type} {act : PoolM σ α} {fault : Fault} {w₁ w₂ : World σ}
    (h : act w = .error fault w₁) (hclose : close p w₁ = .ok () w₂) :
    closing p act w = .error fault w₂ := by
  rw [closing, h]
  dsimp only
  rw [hclose]

/-- A new pool is closed by noting it. -/
theorem close_opened (notes : List Note) : close w.pools.size (w.opened c minimum notes) =
    .ok () (w.givenUp c minimum (notes ++ [.closing 0 0])) := by
  have hp := pool?_opened w c minimum notes
  have hdrain : onArena w.pools.size (·.drain) (w.opened c minimum notes) =
      .ok [] (w.opened c minimum notes) := by
    have hempty : Arena.empty.drain = .ok (([] : List BufferId), Arena.empty) := rfl
    rw [onArena_of_ok hp hempty, setArena, modifyPool_eq_self hp rfl]
  have hnote : note w.pools.size (.closing 0 0) (w.opened c minimum notes) =
      .ok () (w.opened c minimum (notes ++ [.closing 0 0])) :=
    congrArg (EStateM.Result.ok ()) (emit_opened _)
  have hretire : (w.opened c minimum (notes ++ [.closing 0 0])).modifyPool w.pools.size
      ({ · with live := false }) = w.givenUp c minimum (notes ++ [.closing 0 0]) := by
    rw [World.modifyPool, opened, modify_push_size]
    rfl
  rw [← hretire, close, bind_of_ok _ (getPool_of_some hp), bind_of_ok _ hdrain]
  exact bind_of_ok _ hnote

/-- In the checked profile the first buffer fails an expectation. -/
theorem build_of_overreaching_checked (hv : c.validate = .ok minimum)
    (hlarge : SizeClass.maximum < minimum) (hcount : c.cacheCount ≠ 0)
    (hprofile : w.profile = .checked) :
    build c w = .error (.unexpected (.representable minimum))
      (w.givenUp c minimum [.closing 0 0]) := by
  obtain ⟨remaining, hremaining⟩ := Nat.exists_eq_add_one_of_ne_zero hcount
  have hp := pool?_opened w c minimum []
  have hadd : add c minimum true w = .ok () (w.opened c minimum []) := rfl
  have hallocate : allocateWithin w.pools.size minimum (w.opened c minimum []) =
      .error (.unexpected (.representable minimum)) (w.opened c minimum []) := by
    rw [allocateWithin, bind_of_ok _ (reclaim_of_detached_eq_zero hp rfl),
      bind_of_error _ (make_checked hp (SizeClass.ofRequest?_of_maximum_lt hlarge) hprofile)]
  have hfails : preallocate w.pools.size 0 c.cacheCount (w.opened c minimum []) =
      .error (.unexpected (.representable minimum)) (w.opened c minimum []) := by
    rw [hremaining, preallocate, bind_of_ok _ (getPool_of_some hp), bind_of_error _ hallocate]
  unfold build
  rw [PoolM.get_bind]
  simp only [hv]
  rw [bind_of_ok _ hadd, bind_of_error _ (closing_of_error hfails (close_opened []))]
  rfl

/-- In the unchecked profile it is a request that is not met. -/
theorem build_of_overreaching_unchecked (hv : c.validate = .ok minimum)
    (hlarge : SizeClass.maximum < minimum) (hcount : c.cacheCount ≠ 0)
    (hprofile : w.profile = .unchecked) :
    build c w = .ok (.error (.preallocationFailed 0 c.cacheCount))
      (w.givenUp c minimum
        [.tooLarge minimum, .preallocationFailed 0 c.cacheCount, .closing 0 0]) := by
  obtain ⟨remaining, hremaining⟩ := Nat.exists_eq_add_one_of_ne_zero hcount
  have hp := pool?_opened w c minimum []
  have hadd : add c minimum true w = .ok () (w.opened c minimum []) := rfl
  have hallocate : allocateWithin w.pools.size minimum (w.opened c minimum []) =
      .ok none (w.opened c minimum [.tooLarge minimum]) := by
    rw [allocateWithin, bind_of_ok _ (reclaim_of_detached_eq_zero hp rfl),
      bind_of_ok _ (make_unchecked hp (SizeClass.ofRequest?_of_maximum_lt hlarge) hprofile),
      emit_opened]
    rfl
  have hnote : note w.pools.size (.preallocationFailed 0 c.cacheCount)
      (w.opened c minimum [.tooLarge minimum]) =
        .ok () (w.opened c minimum [.tooLarge minimum, .preallocationFailed 0 c.cacheCount]) :=
    congrArg (EStateM.Result.ok ()) (emit_opened _)
  have hstops : preallocate w.pools.size 0 (remaining + 1) (w.opened c minimum []) =
      .ok (some 0)
        (w.opened c minimum [.tooLarge minimum, .preallocationFailed 0 c.cacheCount]) := by
    rw [preallocate, bind_of_ok _ (getPool_of_some hp), bind_of_ok _ hallocate]
    exact bind_of_ok _ hnote
  unfold build
  rw [PoolM.get_bind]
  simp only [hv]
  rw [← hremaining] at hstops
  rw [bind_of_ok _ hadd, bind_of_ok _ (closing_of_ok hstops)]
  exact bind_of_ok _ (close_opened _)

/-- Of so many requests, all are met or there is a first one that is not. -/
theorem all_met_or_first_unmet (w : World σ) (c : Config) (minimum : UInt64) (count : Nat) :
    (∀ i < count, w.meets c minimum i = true) ∨
      ∃ n < count, (∀ i < n, w.meets c minimum i = true) ∧ w.meets c minimum n = false := by
  induction count with
  | zero => exact .inl fun i hi => absurd hi (Nat.not_lt_zero i)
  | succ count ih =>
      rcases ih with hall | ⟨n, hn, hmet, hunmet⟩
      · cases hlast : w.meets c minimum count with
        | false => exact .inr ⟨count, Nat.lt_succ_self count, hall, hlast⟩
        | true =>
            refine .inl fun i hi => ?_
            rcases Nat.lt_succ_iff_lt_or_eq.1 hi with hlt | rfl
            · exact hall i hlt
            · exact hlast
      · exact .inr ⟨n, Nat.lt_succ_of_lt hn, hmet, hunmet⟩

/-- A pool without buffers is set up at once. -/
theorem build_of_no_buffers (hv : c.validate = .ok minimum) (hcount : c.cacheCount = 0) : build c w =
    .ok (.ok w.pools.size) (w.opened c minimum [.ready minimum c.limit c.cacheCount]) := by
  have hadd : add c minimum true w = .ok () (w.opened c minimum []) := rfl
  have hnone : preallocate w.pools.size 0 c.cacheCount (w.opened c minimum []) =
      .ok none (w.opened c minimum []) := by
    rw [hcount]
    rfl
  have hready : note w.pools.size (.ready minimum c.limit c.cacheCount) (w.opened c minimum []) =
      .ok () (w.opened c minimum [.ready minimum c.limit c.cacheCount]) :=
    congrArg (EStateM.Result.ok ()) (emit_opened _)
  unfold build
  rw [PoolM.get_bind]
  simp only [hv]
  rw [bind_of_ok _ hadd, bind_of_ok _ (closing_of_ok hnone)]
  exact bind_of_ok _ hready

/-- If the smallest capacity has a class, or no buffer is asked for, there is an answer. -/
theorem build_answers (hv : c.validate = .ok minimum)
    (h : minimum ≤ SizeClass.maximum ∨ c.cacheCount = 0) :
    ∃ answer w', build c w = .ok answer w' ∧ c.Answers w.pools.size answer := by
  by_cases hcount : c.cacheCount = 0
  · exact ⟨_, _, build_of_no_buffers hv hcount, .done⟩
  · have hle := h.resolve_right hcount
    rcases all_met_or_first_unmet w c minimum c.cacheCount with hall | ⟨n, hn, hmet, hunmet⟩
    · obtain ⟨keys, w', -, hbuild, -⟩ := build_of_meets hv hle hall
      exact ⟨_, w', hbuild, .done⟩
    · obtain ⟨keys, told, w', -, hbuild, -⟩ := build_of_not_meets hv hle hn hmet hunmet
      exact ⟨_, w', hbuild, .unmet hn⟩

/-- The configuration passes the checks, and its first buffer would be too large to have a class. -/
structure Overreaches (c : Config) (minimum : UInt64) : Prop where
  validate : c.validate = .ok minimum
  large : SizeClass.maximum < minimum
  count : c.cacheCount ≠ 0

/-- Either a configuration overreaches or setting up the pool ends with a documented answer. -/
theorem overreaches_or_answers (c : Config) (w : World σ) : (∃ minimum, Overreaches c minimum) ∨
    ∃ answer w', build c w = .ok answer w' ∧ c.Answers w.pools.size answer := by
  cases hv : c.validate with
  | error e => exact .inr ⟨_, _, build_of_error hv, Config.answers_of_validate hv⟩
  | ok minimum =>
      by_cases hclass : minimum ≤ SizeClass.maximum ∨ c.cacheCount = 0
      · exact .inr (build_answers hv hclass)
      · obtain ⟨hlarge, hcount⟩ := not_or.1 hclass
        exact .inl ⟨minimum, hv, UInt64.not_le.1 hlarge, hcount⟩

/-- Whatever the configuration, the heap and the set-up of buffers, setting up a pool ends with a
documented answer in the unchecked profile. In the checked one it faults if and only if the
configuration passes the checks with a smallest capacity beyond the largest one there is, and asks for
buffers. Then the unchecked profile answers that none of them could be had. In both profiles the pool is
given up, and only notes were told. -/
theorem build_ends (c : Config) (w : World σ) :
    (∀ fault w', build c w = .error fault w' ↔ w.profile = .checked ∧
      ∃ minimum, Overreaches c minimum ∧ fault = .unexpected (.representable minimum) ∧
        w' = w.givenUp c minimum [.closing 0 0]) ∧
    (∀ answer w', build c w = .ok answer w' → c.Answers w.pools.size answer) ∧
    (∀ minimum, Overreaches c minimum → w.profile = .unchecked →
      build c w = .ok (.error (.preallocationFailed 0 c.cacheCount))
        (w.givenUp c minimum
          [.tooLarge minimum, .preallocationFailed 0 c.cacheCount, .closing 0 0])) := by
  have hchecked : ∀ minimum, Overreaches c minimum → w.profile = .checked → build c w =
      .error (.unexpected (.representable minimum)) (w.givenUp c minimum [.closing 0 0]) :=
    fun minimum h => build_of_overreaching_checked h.validate h.large h.count
  have hunchecked : ∀ minimum, Overreaches c minimum → w.profile = .unchecked → build c w =
      .ok (.error (.preallocationFailed 0 c.cacheCount)) (w.givenUp c minimum
        [.tooLarge minimum, .preallocationFailed 0 c.cacheCount, .closing 0 0]) :=
    fun minimum h => build_of_overreaching_unchecked h.validate h.large h.count
  refine ⟨fun fault w' => ⟨fun hbuild => ?faults, ?overreaches⟩, fun answer w' hbuild => ?answers,
    hunchecked⟩
  case faults =>
    rcases overreaches_or_answers c w with ⟨minimum, h⟩ | ⟨answer, w₁, hanswer, -⟩
    · cases hprofile : w.profile with
      | unchecked => exact nomatch (hunchecked minimum h hprofile).symm.trans hbuild
      | checked =>
          obtain ⟨rfl, rfl⟩ :=
            EStateM.Result.error.inj ((hchecked minimum h hprofile).symm.trans hbuild)
          exact ⟨rfl, minimum, h, rfl, rfl⟩
    · exact nomatch hanswer.symm.trans hbuild
  case overreaches =>
    rintro ⟨hprofile, minimum, h, rfl, rfl⟩
    exact hchecked minimum h hprofile
  case answers =>
    rcases overreaches_or_answers c w with ⟨minimum, h⟩ | ⟨answer', w₁, hanswer, hdocumented⟩
    · cases hprofile : w.profile with
      | checked => exact nomatch (hchecked minimum h hprofile).symm.trans hbuild
      | unchecked =>
          obtain ⟨rfl, -⟩ := EStateM.Result.ok.inj
            ((hunchecked minimum h hprofile).symm.trans hbuild)
          exact .unmet (Nat.pos_of_ne_zero h.count)
    · obtain ⟨rfl, -⟩ := EStateM.Result.ok.inj (hanswer.symm.trans hbuild)
      exact hdocumented

/-- Half of the number of all words is a multiple of the page size, and larger than every capacity. With
one buffer to be allocated in advance, an expectation fails in the checked profile, where the unchecked
one has an answer. -/
theorem half_of_all_words_overreaches :
    let c : Config := { Config.standard with minimum := some 0x8000000000000000, cacheCount := 1 }
    let w (profile : Profile) : World Unit := .empty profile .plain (.within none) ()
    (∃ fault w', build c (w .checked) = .error fault w' ∧ fault.message =
      "requested size 9223372036854775808 exceeds the maximum allocation size") ∧
    (¬∃ answer w', build c (w .checked) = .ok answer w') ∧
    ∃ w', build c (w .unchecked) = .ok (.error (.preallocationFailed 0 1)) w' := by
  intro c w
  have hv : c.validate = .ok 0x8000000000000000 := by decide +kernel
  have hlarge : SizeClass.maximum < 0x8000000000000000 := by decide
  have hcount : c.cacheCount ≠ 0 := Nat.one_ne_zero
  have hfault := build_of_overreaching_checked (w := w .checked) hv hlarge hcount rfl
  refine ⟨⟨_, _, hfault, by decide +kernel⟩, ?_,
    _, build_of_overreaching_unchecked hv hlarge hcount rfl⟩
  rintro ⟨answer, w', hbuild⟩
  exact nomatch hfault.symm.trans hbuild

end Pool

end BufferPool
