import BufferPool.Proofs.Arena.Wiring

/-!
# Linking in and out

Putting a value into a lane and taking it out again only change nodes: no slot is added, vacated or
taken, and no generation moves. What they do to the nodes is a function on them, the relinking.
`prepend_wired` and `remove_wired` say that the operations succeed on every value that is where they
expect it, and which chains result: the new index in front, or the old chain without it.
-/

namespace BufferPool.Arena

variable {α : Type}

/-- Changes the occupant of a slot, if there is one. -/
def Slot.onNode (f : Node α → Node α) (slot : Slot α) : Slot α :=
  match slot.entry with
  | .occupied node => ⟨slot.generation, .occupied (f node)⟩
  | .vacant _ => slot

/-- The slots of `a'` are those of `a` with their occupants changed by `f`. -/
structure Relinked (f : Nat → Node α → Node α) (a a' : Arena α) : Prop where
  slots : ∀ i, a'.slots[i]? = a.slots[i]?.map (Slot.onNode (f i))
  size : a'.slots.size = a.slots.size
  vacant : a'.vacant = a.vacant
  registered : a'.registered = a.registered

namespace Relinked

variable {f g : Nat → Node α → Node α} {a a' a'' : Arena α}

theorem trans (h : Relinked f a a') (h' : Relinked g a' a'') :
    Relinked (fun i node => g i (f i node)) a a'' := by
  refine ⟨fun i => ?_, h'.size.trans h.size, h'.vacant.trans h.vacant,
    h'.registered.trans h.registered⟩
  rw [h'.slots, h.slots, Option.map_map]
  congr 1
  funext slot
  rcases slot with ⟨generation, node | next⟩ <;> rfl

theorem nodeAt? (h : Relinked f a a') (i : Nat) : a'.nodeAt? i = (a.nodeAt? i).map (f i) := by
  unfold Arena.nodeAt?
  rw [h.slots]
  rcases a.slots[i]? with _ | ⟨generation, node | next⟩ <;> rfl

theorem vacancyAt? (h : Relinked f a a') (i : Nat) : a'.vacancyAt? i = a.vacancyAt? i := by
  unfold Arena.vacancyAt?
  rw [h.slots]
  rcases a.slots[i]? with _ | ⟨generation, node | next⟩ <;> rfl

theorem generationAt? (h : Relinked f a a') (i : Nat) :
    a'.generationAt? i = a.generationAt? i := by
  unfold Arena.generationAt?
  rw [h.slots]
  rcases a.slots[i]? with _ | ⟨generation, node | next⟩ <;> rfl

theorem node? (h : Relinked f a a') (key : Key) :
    a'.node? key = (a.node? key).map (f key.index) := by
  unfold Arena.node?
  rw [h.slots]
  rcases a.slots[key.index]? with _ | ⟨generation, node | next⟩
  · rfl
  · simp only [Option.map_some, Slot.onNode]
    split <;> rfl
  · rfl

theorem vacated (h : Relinked f a a') {chain : List Nat} (hv : a.Vacated chain) :
    a'.Vacated chain :=
  ⟨hv.nodup, h.vacant.trans hv.head, fun i => by rw [h.vacancyAt?]; exact hv.mem_iff i,
    fun before i after hc next hn => hv.links before i after hc next (by rwa [h.vacancyAt?] at hn)⟩

end Relinked

/-- A lane stays as it is if its ends do and if no node of the lane, before or after, is changed. -/
theorem Relinked.threaded {f : Nat → Node α → Node α} {a a' : Arena α} {lane : Lane}
    {chain : List Nat} (h : Relinked f a a') (ht : a.Threaded lane chain)
    (hends : a'.ends lane = a.ends lane)
    (hf : ∀ i node, a.nodeAt? i = some node →
      node.lane = some lane ∨ (f i node).lane = some lane → f i node = node) :
    a'.Threaded lane chain := by
  refine ht.frame hends ?_
  intro i node hl
  rw [h.nodeAt?, Option.map_eq_some_iff]
  constructor
  · rintro ⟨m, hm, rfl⟩
    rw [hf i m hm (.inr hl)]
    exact hm
  · intro hn
    exact ⟨node, hn, hf i node hn (.inl hl)⟩

@[simp] theorem ends_setEnds_self (a : Arena α) (lane : Lane) (e : Ends) :
    (a.setEnds lane e).ends lane = e := by
  cases lane <;> rfl

theorem ends_setEnds_of_ne (a : Arena α) {lane other : Lane} (e : Ends) (h : other ≠ lane) :
    (a.setEnds lane e).ends other = a.ends other := by
  cases lane <;> cases other <;> first | rfl | exact absurd rfl h

theorem relinked_setEnds (a : Arena α) (lane : Lane) (e : Ends) :
    Relinked (fun _ node => node) a (a.setEnds lane e) := by
  have hslots : (a.setEnds lane e).slots = a.slots := by cases lane <;> rfl
  refine ⟨fun i => ?_, by rw [hslots], by cases lane <;> rfl, by cases lane <;> rfl⟩
  rw [hslots]
  rcases a.slots[i]? with _ | ⟨generation, node | next⟩ <;> rfl

@[simp] theorem ends_setSlot (a : Arena α) (index : Nat) (slot : Slot α) (lane : Lane) :
    (a.setSlot index slot).ends lane = a.ends lane := by
  cases lane <;> rfl

/-- Writing a changed occupant back into its slot. -/
theorem relinked_setSlot {a : Arena α} {index : Nat} {generation : UInt64} {node : Node α}
    (h : a.slots[index]? = some ⟨generation, .occupied node⟩) (f : Node α → Node α) :
    Relinked (fun i n => if i = index then f n else n) a
      (a.setSlot index ⟨generation, .occupied (f node)⟩) := by
  refine ⟨fun i => ?_, by simp [setSlot], rfl, rfl⟩
  simp only [setSlot, Array.getElem?_setIfInBounds]
  by_cases hi : i = index
  · subst hi
    have hlt := (Array.getElem?_eq_some_iff.1 h).choose
    rw [if_pos rfl, if_pos hlt, h]
    simp [Slot.onNode]
  · rw [if_neg (Ne.symm hi)]
    rcases a.slots[i]? with _ | ⟨generation, node | next⟩ <;> simp [Slot.onNode, hi]

theorem modifyNodeAt_relinked {a : Arena α} {index : Nat} {node : Node α}
    (h : a.nodeAt? index = some node) (f : Node α → Node α) :
    ∃ a', a.modifyNodeAt index f = .ok a' ∧
      Relinked (fun i n => if i = index then f n else n) a a' ∧
      ∀ lane, a'.ends lane = a.ends lane := by
  obtain ⟨generation, hs⟩ := nodeAt?_eq_some_iff.1 h
  exact ⟨_, by simp only [modifyNodeAt, hs], relinked_setSlot hs f, fun lane => by simp⟩

/-- The predecessor link of the next neighbour, or else the tail, is redirected. -/
theorem linkBack_relinked {a : Arena α} (lane : Lane) {next : Option Nat} (link : Option Nat)
    (h : ∀ i, next = some i → ∃ node, a.nodeAt? i = some node) :
    ∃ a', a.linkBack lane next link = .ok a' ∧
      Relinked (fun i n => if next = some i then { n with prev := link } else n) a a' ∧
      a'.ends lane = { a.ends lane with tail := if next = none then link else (a.ends lane).tail } ∧
      ∀ other, other ≠ lane → a'.ends other = a.ends other := by
  cases next with
  | none =>
      refine ⟨_, rfl, by simpa using relinked_setEnds a lane _, by simp, ?_⟩
      exact fun other ho => ends_setEnds_of_ne a _ ho
  | some i =>
      obtain ⟨node, hn⟩ := h i rfl
      obtain ⟨a', ha', hr, he⟩ := modifyNodeAt_relinked hn fun node => { node with prev := link }
      refine ⟨a', ha', ?_, by simp [he], fun other _ => he other⟩
      simpa only [Option.some.injEq, eq_comm] using hr

/-- The successor link of the previous neighbour, or else the head, is redirected. -/
theorem linkForth_relinked {a : Arena α} (lane : Lane) {prev : Option Nat} (link : Option Nat)
    (h : ∀ i, prev = some i → ∃ node, a.nodeAt? i = some node) :
    ∃ a', a.linkForth lane prev link = .ok a' ∧
      Relinked (fun i n => if prev = some i then { n with next := link } else n) a a' ∧
      a'.ends lane = { a.ends lane with head := if prev = none then link else (a.ends lane).head } ∧
      ∀ other, other ≠ lane → a'.ends other = a.ends other := by
  cases prev with
  | none =>
      refine ⟨_, rfl, by simpa using relinked_setEnds a lane _, by simp, ?_⟩
      exact fun other ho => ends_setEnds_of_ne a _ ho
  | some i =>
      obtain ⟨node, hn⟩ := h i rfl
      obtain ⟨a', ha', hr, he⟩ := modifyNodeAt_relinked hn fun node => { node with next := link }
      refine ⟨a', ha', ?_, by simp [he], fun other _ => he other⟩
      simpa only [Option.some.injEq, eq_comm] using hr

/-- The change brings the value in a slot to a lane, or out of one, and leaves every other value
where it is. -/
def Moves (f : Nat → Node α → Node α) (index : Nat) (lane : Option Lane) : Prop :=
  ∀ i node, (f i node).value = node.value ∧ (f i node).lane = if i = index then lane else node.lane

/-- What `prepend` does to the nodes: the new member is linked in front of the old head. -/
def linkIn (lane : Lane) (index : Nat) (head : Option Nat) (i : Nat) (node : Node α) : Node α :=
  if i = index then { node with lane := some lane, prev := none, next := head }
  else if head = some i then { node with prev := some index } else node

theorem moves_linkIn (lane : Lane) (index : Nat) (head : Option Nat) :
    Moves (α := α) (linkIn lane index head) index (some lane) := by
  intro i node
  unfold linkIn
  split_ifs <;> exact ⟨rfl, rfl⟩

theorem prepend_relinked {a : Arena α} {lane : Lane} {key : Key} {node : Node α}
    {chain : List Nat} (hc : a.Threaded lane chain) (hn : a.node? key = some node)
    (hl : node.lane = none) :
    ∃ a', a.prepend lane key = .ok a' ∧ Relinked (linkIn lane key.index chain.head?) a a' ∧
      a'.ends lane =
        ⟨some key.index, if chain.head? = none then some key.index else (a.ends lane).tail,
          (a.ends lane).count + 1⟩ ∧
      ∀ other, other ≠ lane → a'.ends other = a.ends other := by
  have hs := node?_eq_some_iff.1 hn
  have h₁ := relinked_setSlot hs fun n => { n with lane := some lane, prev := none, next := chain.head? }
  have hnodes : ∀ i, chain.head? = some i → ∃ n, (a.setSlot key.index ⟨key.generation,
      .occupied { node with lane := some lane, prev := none, next := chain.head? }⟩).nodeAt? i =
        some n := by
    intro i hi
    obtain ⟨n, hin, -⟩ := (hc.mem_iff i).1 (List.mem_of_mem_head? hi)
    exact ⟨_, by rw [h₁.nodeAt?, hin]; rfl⟩
  obtain ⟨a₂, ha₂, h₂, he₂, ho₂⟩ := linkBack_relinked lane (some key.index) hnodes
  let e : Ends := { a₂.ends lane with head := some key.index, count := (a₂.ends lane).count + 1 }
  have h₃ := relinked_setEnds a₂ lane e
  refine ⟨a₂.setEnds lane e, ?_, ?_, ?_, ?_⟩
  · simp only [prepend, hn, hl, hc.head]
    rw [ha₂]
    rfl
  · have h := (h₁.trans h₂).trans h₃
    refine ⟨fun i => ?_, h.size, h.vacant, h.registered⟩
    rw [h.slots]
    congr 2
    funext n
    unfold linkIn
    by_cases hi : i = key.index
    · have hne : chain.head? ≠ some key.index := by
        intro he
        obtain ⟨m, hm, hml⟩ := (hc.mem_iff _).1 (List.mem_of_mem_head? he)
        rw [nodeAt?_of_node? hn, Option.some.injEq] at hm
        rw [← hm, hl] at hml
        exact nomatch hml
      subst hi
      simp [hne]
    · simp [hi]
  · simp [e, he₂]
  · intro other ho
    rw [ends_setEnds_of_ne _ _ ho, ho₂ other ho, ends_setSlot]

/-- The node at a fresh index becomes the head of the chain. -/
theorem Relinked.threaded_cons {a a' : Arena α} {lane : Lane} {chain : List Nat} {index : Nat}
    {node : Node α} (hr : Relinked (linkIn lane index chain.head?) a a')
    (hc : a.Threaded lane chain) (hn : a.nodeAt? index = some node) (hfresh : index ∉ chain)
    (he : a'.ends lane = ⟨some index, if chain.head? = none then some index else (a.ends lane).tail,
      (a.ends lane).count + 1⟩) :
    a'.Threaded lane (index :: chain) := by
  refine ⟨List.nodup_cons.2 ⟨hfresh, hc.nodup⟩, by rw [he]; rfl, ?_, by rw [he, hc.count]; rfl,
    ?_, ?_⟩
  · rw [he, hc.tail]
    cases chain with
    | nil => rfl
    | cons i rest => simp [List.getLast?_cons_cons]
  · intro i
    rw [hr.nodeAt?, List.mem_cons, hc.mem_iff]
    by_cases hi : i = index
    · subst hi
      simp [hn, linkIn]
    · cases hin : a.nodeAt? i with
      | none => simp [hi]
      | some n => by_cases hh : chain.head? = some i <;> simp [hi, hh, linkIn]
  · intro before i after hsplit n hin
    rw [hr.nodeAt?] at hin
    cases before with
    | nil =>
        obtain ⟨rfl, rfl⟩ := List.cons.inj hsplit
        rw [hn, Option.map_some, Option.some.injEq] at hin
        subst hin
        simp [linkIn]
    | cons b before =>
        obtain ⟨rfl, rfl⟩ := List.cons.inj hsplit
        have hi : i ≠ index := fun hi => hfresh (by rw [← hi]; simp)
        obtain ⟨m, hm, rfl⟩ := Option.map_eq_some_iff.1 hin
        have hlinks := hc.links before i after rfl m hm
        cases before with
        | nil => simp [linkIn, hi, hlinks.2]
        | cons c before =>
            have hci : c ≠ i := by
              rintro rfl
              simpa using hc.nodup
            simp [linkIn, hi, hci, hlinks, List.getLast?_cons_cons]

/-- Whatever is detached comes to the head of the lane. -/
theorem prepend_wired {a : Arena α} {w : Wiring} {lane : Lane} {key : Key} {node : Node α}
    (h : a.Wired w) (hn : a.node? key = some node) (hl : node.lane = none) :
    ∃ a' f, a.prepend lane key = .ok a' ∧ Relinked f a a' ∧ Moves f key.index (some lane) ∧
      a'.Wired { w with lane := Function.update w.lane lane (key.index :: w.lane lane) } := by
  have hc := h.lanes lane
  have hk := nodeAt?_of_node? hn
  obtain ⟨a', ha', hr, he, ho⟩ := prepend_relinked hc hn hl
  have hm := moves_linkIn (α := α) lane key.index (w.lane lane).head?
  have hid : ∀ i n, a.nodeAt? i = some n → n.lane ≠ some lane → i ≠ key.index →
      linkIn lane key.index (w.lane lane).head? i n = n := by
    intro i n hin hnl hi
    have hh : (w.lane lane).head? ≠ some i :=
      fun hh => hnl (hc.lane_eq (List.mem_of_mem_head? hh) hin)
    simp [linkIn, hi, hh]
  refine ⟨a', _, ha', hr, hm, ⟨?_, hr.vacated h.vacated, ?_, ?_⟩⟩
  · intro other
    by_cases hol : other = lane
    · subst hol
      simp only [Function.update_self]
      exact hr.threaded_cons hc hk (hc.not_mem hk (by simp [hl])) he
    · simp only [Function.update_of_ne hol]
      refine hr.threaded (h.lanes other) (ho other hol) ?_
      intro i n hin hlane
      rw [(hm i n).2] at hlane
      by_cases hi : i = key.index
      · subst hi
        obtain rfl : node = n := Option.some.inj (hk.symm.trans hin)
        simp [hl, Ne.symm hol] at hlane
      · refine hid i n hin ?_ hi
        rw [if_neg hi, or_self] at hlane
        simpa [hlane] using hol
  · intro i n hin hnl
    rw [hr.nodeAt?] at hin
    obtain ⟨m, hmi, rfl⟩ := Option.map_eq_some_iff.1 hin
    rw [(hm i m).2] at hnl
    by_cases hi : i = key.index
    · simp [hi] at hnl
    · rw [if_neg hi] at hnl
      rw [hid i m hmi (by simp [hnl]) hi]
      exact h.detached i m hmi hnl
  · rw [hr.registered, hr.size]
    exact h.registered

/-- In a chain without repetitions the neighbours of a member differ from it and from each other. -/
theorem neighbours_ne {before after : List Nat} {index : Nat}
    (h : (before ++ index :: after).Nodup) :
    before.getLast? ≠ some index ∧ after.head? ≠ some index ∧
      ∀ i, before.getLast? = some i → after.head? ≠ some i := by
  rw [List.nodup_append, List.nodup_cons] at h
  obtain ⟨-, ⟨ha, -⟩, hb⟩ := h
  refine ⟨?_, ?_, ?_⟩
  · intro hl
    exact hb index (List.mem_of_getLast? hl) index List.mem_cons_self rfl
  · intro hh
    exact ha (List.mem_of_mem_head? hh)
  · intro i hl hh
    exact hb i (List.mem_of_getLast? hl) i (List.mem_cons_of_mem _ (List.mem_of_mem_head? hh)) rfl

/-- What `remove` does to the nodes: the neighbours are linked to each other. -/
def linkOut (index : Nat) (prev next : Option Nat) (i : Nat) (node : Node α) : Node α :=
  if i = index then { node with lane := none, prev := none, next := none }
  else if prev = some i then { node with next := next }
  else if next = some i then { node with prev := prev } else node

theorem moves_linkOut (index : Nat) (prev next : Option Nat) :
    Moves (α := α) (linkOut index prev next) index none := by
  intro i node
  unfold linkOut
  split_ifs <;> exact ⟨rfl, rfl⟩

theorem remove_relinked {a : Arena α} {lane : Lane} {key : Key} {node : Node α}
    {before after : List Nat} (hc : a.Threaded lane (before ++ key.index :: after))
    (hn : a.node? key = some node) :
    ∃ a', a.remove lane key = .ok a' ∧
      Relinked (linkOut key.index before.getLast? after.head?) a a' ∧
      a'.ends lane = ⟨(before ++ after).head?, (before ++ after).getLast?, (before ++ after).length⟩ ∧
      ∀ other, other ≠ lane → a'.ends other = a.ends other := by
  have hs := node?_eq_some_iff.1 hn
  have hk := nodeAt?_of_node? hn
  have hl : node.lane = some lane := hc.lane_eq (by simp) hk
  obtain ⟨hprev, hnext⟩ := hc.links before key.index after rfl node hk
  have h₁ := relinked_setSlot hs fun n => { n with lane := none, prev := none, next := none }
  have hnodes₁ : ∀ i, before.getLast? = some i → ∃ n, (a.setSlot key.index ⟨key.generation,
      .occupied { node with lane := none, prev := none, next := none }⟩).nodeAt? i = some n := by
    intro i hi
    obtain ⟨n, hin, -⟩ := (hc.mem_iff i).1 (by simp [List.mem_of_getLast? hi])
    exact ⟨_, by rw [h₁.nodeAt?, hin]; rfl⟩
  obtain ⟨a₂, ha₂, h₂, he₂, ho₂⟩ := linkForth_relinked lane after.head? hnodes₁
  have hnodes₂ : ∀ i, after.head? = some i → ∃ n, a₂.nodeAt? i = some n := by
    intro i hi
    obtain ⟨n, hin, -⟩ := (hc.mem_iff i).1 (by simp [List.mem_of_mem_head? hi])
    exact ⟨_, by rw [h₂.nodeAt?, h₁.nodeAt?, hin]; rfl⟩
  obtain ⟨a₃, ha₃, h₃, he₃, ho₃⟩ := linkBack_relinked lane before.getLast? hnodes₂
  let e : Ends := { a₃.ends lane with count := (a₃.ends lane).count - 1 }
  have h₄ := relinked_setEnds a₃ lane e
  refine ⟨a₃.setEnds lane e, ?_, ?_, ?_, ?_⟩
  · simp only [remove, hn, hl, hprev, hnext, if_true]
    rw [ha₂]
    change (a₂.linkBack lane after.head? before.getLast? >>= _) = _
    rw [ha₃]
    rfl
  · have h := ((h₁.trans h₂).trans h₃).trans h₄
    refine ⟨fun i => ?_, h.size, h.vacant, h.registered⟩
    rw [h.slots]
    congr 2
    funext n
    obtain ⟨hp, hq, hpq⟩ := neighbours_ne hc.nodup
    unfold linkOut
    by_cases hi : i = key.index
    · subst hi
      simp [hp, hq]
    · by_cases hpi : before.getLast? = some i
      · simp [hi, hpi, hpq i hpi]
      · simp [hi, hpi]
  · rw [ends_setEnds_self]
    simp only [e, he₃, he₂, ends_setSlot, hc.count, hc.head, hc.tail]
    cases before with
    | nil =>
        cases after with
        | nil => simp
        | cons j rest => simp [List.getLast?_cons_cons]
    | cons i before =>
        cases after with
        | nil => simp
        | cons j rest =>
            simp [List.getLast?_append, List.getLast?_cons]
            omega
  · intro other ho
    rw [ends_setEnds_of_ne _ _ ho, ho₃ other ho, ho₂ other ho, ends_setSlot]

/-- The other members close the gap. -/
theorem Relinked.threaded_append {a a' : Arena α} {lane : Lane} {index : Nat}
    {before after : List Nat} (hr : Relinked (linkOut index before.getLast? after.head?) a a')
    (hc : a.Threaded lane (before ++ index :: after))
    (he : a'.ends lane =
      ⟨(before ++ after).head?, (before ++ after).getLast?, (before ++ after).length⟩) :
    a'.Threaded lane (before ++ after) := by
  have hnd := hc.nodup
  have hfresh : index ∉ before ++ after := by
    simp only [List.nodup_append, List.nodup_cons, List.mem_cons] at hnd
    grind
  refine ⟨?_, by rw [he], by rw [he], by rw [he], ?_, ?_⟩
  · exact hnd.sublist (List.Sublist.append_left (List.sublist_cons_self _ _) _)
  · intro i
    rw [hr.nodeAt?]
    by_cases hi : i = index
    · subst hi
      refine iff_of_false hfresh ?_
      rintro ⟨n, hn, hl⟩
      obtain ⟨m, -, rfl⟩ := Option.map_eq_some_iff.1 hn
      simp [linkOut] at hl
    · have hmem : i ∈ before ++ after ↔ i ∈ before ++ index :: after := by simp [hi]
      rw [hmem, hc.mem_iff]
      cases a.nodeAt? i with
      | none => simp
      | some n => simp only [Option.map_some, Option.some.injEq, exists_eq_left', linkOut]; grind
  · intro xs i ys hsplit n hn
    have hi : i ≠ index := fun hi => hfresh (by rw [hsplit, hi]; simp)
    rw [hr.nodeAt?] at hn
    obtain ⟨m, hm, rfl⟩ := Option.map_eq_some_iff.1 hn
    have behind : ∀ c, xs = before ++ c → after = c ++ i :: ys →
        (linkOut index before.getLast? after.head? i m).prev = xs.getLast? ∧
          (linkOut index before.getLast? after.head? i m).next = ys.head? := by
      rintro c rfl rfl
      have hlinks := hc.links (before ++ index :: c) i ys (by simp) m hm
      have hpi : before.getLast? ≠ some i := fun hpi =>
        (List.nodup_append.1 hnd).2.2 i (List.mem_of_getLast? hpi) i (by simp) rfl
      cases c with
      | nil => simp [linkOut, hi, hpi, hlinks.2]
      | cons d c =>
          have hdi : d ≠ i := by
            rintro rfl
            simp [List.nodup_append] at hnd
          simp [linkOut, hi, hpi, hdi, hlinks, List.getLast?_append, List.getLast?_cons]
    rcases List.append_eq_append_iff.1 hsplit with ⟨c, hx, ha⟩ | ⟨c, hb, hy⟩
    · exact behind c hx ha
    · cases c with
      | nil => exact behind [] (by simpa using hb.symm) (by simpa using hy.symm)
      | cons d c =>
          -- the slot stands in front of the gap
          obtain ⟨rfl, rfl⟩ := List.cons.inj hy
          subst hb
          have hlinks := hc.links xs i (c ++ index :: after) (by simp) m hm
          have hqi : after.head? ≠ some i := fun hqi =>
            (List.nodup_append.1 hnd).2.2 i (by simp) i
              (List.mem_cons_of_mem _ (List.mem_of_mem_head? hqi)) rfl
          cases c with
          | nil => simp [linkOut, hi, hlinks.1]
          | cons d c =>
              have hpi : (d :: c).getLast? ≠ some i := fun hpi => by
                have hmem := List.mem_of_getLast? hpi
                simp only [List.nodup_append, List.nodup_cons] at hnd
                exact hnd.1.2.1.1 hmem
              simp [linkOut, hi, hpi, hqi, hlinks]

/-- Every member of a lane can be taken out of it, wherever it stands. -/
theorem remove_wired {a : Arena α} {w : Wiring} {lane : Lane} {key : Key} {node : Node α}
    (h : a.Wired w) (hn : a.node? key = some node) (hl : node.lane = some lane) :
    ∃ a' f, a.remove lane key = .ok a' ∧ Relinked f a a' ∧ Moves f key.index none ∧
      a'.Wired { w with lane := Function.update w.lane lane ((w.lane lane).erase key.index) } := by
  have hk := nodeAt?_of_node? hn
  have hc := h.lanes lane
  obtain ⟨before, after, hsplit⟩ := List.append_of_mem ((hc.mem_iff _).2 ⟨node, hk, hl⟩)
  rw [hsplit] at hc
  have herase : (w.lane lane).erase key.index = before ++ after := by
    have hnb : key.index ∉ before := fun hb =>
      (List.nodup_append.1 hc.nodup).2.2 _ hb _ List.mem_cons_self rfl
    rw [hsplit, List.erase_append_right _ hnb, List.erase_cons_head]
  obtain ⟨a', ha', hr, he, ho⟩ := remove_relinked hc hn
  have hm := moves_linkOut (α := α) key.index before.getLast? after.head?
  have hid : ∀ i n, a.nodeAt? i = some n → n.lane ≠ some lane →
      linkOut key.index before.getLast? after.head? i n = n := by
    intro i n hin hnl
    have hi : i ∉ before ++ key.index :: after := hc.not_mem hin hnl
    have hik : i ≠ key.index := fun hik => hi (by simp [hik])
    have hp : before.getLast? ≠ some i := fun hp => hi (by simp [List.mem_of_getLast? hp])
    have hq : after.head? ≠ some i := fun hq => hi (by simp [List.mem_of_mem_head? hq])
    simp [linkOut, hik, hp, hq]
  refine ⟨a', _, ha', hr, hm, ⟨?_, hr.vacated h.vacated, ?_, ?_⟩⟩
  · intro other
    by_cases hol : other = lane
    · subst hol
      simp only [Function.update_self, herase]
      exact hr.threaded_append hc he
    · simp only [Function.update_of_ne hol]
      refine hr.threaded (h.lanes other) (ho other hol) ?_
      intro i n hin hlane
      refine hid i n hin fun hnl => ?_
      rw [(hm i n).2, hnl] at hlane
      split_ifs at hlane <;> simp [Ne.symm hol] at hlane
  · intro i n hin hnl
    rw [hr.nodeAt?] at hin
    obtain ⟨m, hmi, rfl⟩ := Option.map_eq_some_iff.1 hin
    rw [(hm i m).2] at hnl
    by_cases hi : i = key.index
    · simp [linkOut, hi]
    · rw [if_neg hi] at hnl
      rw [hid i m hmi (by simp [hnl])]
      exact h.detached i m hmi hnl
  · rw [hr.registered, hr.size]
    exact h.registered

end BufferPool.Arena
