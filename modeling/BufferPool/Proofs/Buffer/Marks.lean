import BufferPool.Proofs.Buffer.Cursors

/-!
# Marks of a buffer

A buffer becomes one-shot or a lease by the act that marks it so, and by no other. No act clears one of
these marks: forgetting the content and the retirement leaves both alone.
-/

namespace BufferPool.Buffer

variable {x : Buffer} {acts : List Act}

namespace Act

def marksTransient : Act → Bool
  | markTransient => true
  | _ => false

def marksLease : Act → Bool
  | markLease => true
  | _ => false

theorem marks_apply (x : Buffer) (a : Act) :
    (a.apply x).transient = (x.transient || a.marksTransient) ∧
      (a.apply x).lease = (x.lease || a.marksLease) := by
  cases a with
  | markTransient => exact ⟨(Bool.or_true _).symm, (Bool.or_false _).symm⟩
  | markLease => exact ⟨(Bool.or_false _).symm, (Bool.or_true _).symm⟩
  | release | flush | setRetired | displace => exact ⟨(Bool.or_false _).symm, (Bool.or_false _).symm⟩
  | acquire t =>
      simp only [apply, marksTransient, marksLease, Bool.or_false]
      split_ifs <;> exact ⟨rfl, rfl⟩
  | tryAcquire t =>
      simp only [apply, Buffer.tryAcquire, marksTransient, marksLease, Bool.or_false]
      split_ifs <;> exact ⟨rfl, rfl⟩
  | reset me =>
      simp only [apply, marksTransient, marksLease, Bool.or_false]
      split_ifs <;> exact ⟨rfl, rfl⟩
  | stage me bytes =>
      simp only [apply, marksTransient, marksLease, Bool.or_false]
      cases hs : x.stage me bytes with
      | error e => exact ⟨rfl, rfl⟩
      | ok staged =>
          obtain ⟨-, rfl⟩ := stage_eq_ok hs
          exact ⟨rfl, rfl⟩
  | commit me count =>
      simp only [apply, marksTransient, marksLease, Bool.or_false]
      cases hc : x.commit me count with
      | error e => exact ⟨rfl, rfl⟩
      | ok committed =>
          obtain ⟨-, rfl⟩ := commit_eq_ok hc
          exact ⟨rfl, rfl⟩
  | write me bytes =>
      simp only [apply, marksTransient, marksLease, Bool.or_false]
      cases hw : x.write me bytes with
      | error e => exact ⟨rfl, rfl⟩
      | ok written =>
          obtain ⟨-, rfl⟩ := write_eq_ok hw
          exact ⟨rfl, rfl⟩
  | carryOver source me used requested =>
      simp only [apply, marksTransient, marksLease, Bool.or_false]
      cases hs : source.carryOver x false me used requested with
      | error e => exact ⟨rfl, rfl⟩
      | ok received =>
          obtain ⟨bytes, rfl⟩ := carryOver_eq_ok hs
          exact ⟨rfl, rfl⟩

end Act

/-- What the marks are after some acts. -/
theorem marks_perform (x : Buffer) (acts : List Act) :
    (x.perform acts).transient = (x.transient || acts.any Act.marksTransient) ∧
      (x.perform acts).lease = (x.lease || acts.any Act.marksLease) := by
  induction acts generalizing x with
  | nil => exact ⟨(Bool.or_false _).symm, (Bool.or_false _).symm⟩
  | cons a rest ih =>
      obtain ⟨htransient, hlease⟩ := ih (a.apply x)
      obtain ⟨htransient', hlease'⟩ := Act.marks_apply x a
      rw [htransient', Bool.or_assoc] at htransient
      rw [hlease', Bool.or_assoc] at hlease
      exact ⟨htransient, hlease⟩

theorem transient_perform (h : x.transient = true) (acts : List Act) :
    (x.perform acts).transient = true := by
  rw [(marks_perform x acts).1, h, Bool.true_or]

theorem lease_perform (h : x.lease = true) (acts : List Act) : (x.perform acts).lease = true := by
  rw [(marks_perform x acts).2, h, Bool.true_or]

/-- A lease is one-shot. -/
def Proper (x : Buffer) : Prop := x.lease = true → x.transient = true

theorem proper_fresh (format : Format) (capacity : UInt64) : (fresh format capacity).Proper := nofun

theorem Proper.perform (h : x.Proper) (hacts : acts.any Act.marksLease = true → x.transient = true) :
    (x.perform acts).Proper := by
  intro hlease
  rw [(marks_perform x acts).2, Bool.or_eq_true] at hlease
  exact transient_perform (hlease.elim h hacts) acts

end BufferPool.Buffer
