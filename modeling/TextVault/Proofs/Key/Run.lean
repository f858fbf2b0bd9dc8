import TextVault.Key.Cache

/-
  Runs of the key cache.

  Problem: what holds after every run is shown for one operation, and an operation may run any number of
  callbacks.

  Program: `accepted` lists the credentials that the installs of a run accept, the same one as often as it
  is accepted.

  Spec: what a callback keeps is kept by any number of them (`fireAll_invariant`), what an operation keeps
  is kept by a run (`run_invariant`), and a run in two parts is two runs (`run_append`).
-/
namespace TextVault.KeyCache

/-- Callbacks are run one after another, and the acts of each come before those of the next. -/
theorem fireAll_cons (k : KeyCache) (id : AlarmId) (ids : List AlarmId) :
    k.fireAll (id :: ids) =
      (((k.fire id).1.fireAll ids).1, (k.fire id).2 ++ ((k.fire id).1.fireAll ids).2) := rfl

theorem run_cons (k : KeyCache) (op : Op) (ops : List Op) :
    k.run (op :: ops) =
      (((k.step op).1.run ops).1, (k.step op).2 ++ ((k.step op).1.run ops).2) := rfl

/-- Two runs one after the other are one. -/
theorem run_append (k : KeyCache) (xs ys : List Op) :
    k.run (xs ++ ys) = (((k.run xs).1.run ys).1, (k.run xs).2 ++ ((k.run xs).1.run ys).2) := by
  induction xs generalizing k with
  | nil => rfl
  | cons op xs ih => rw [List.cons_append, run_cons, run_cons, ih, List.append_assoc]

/-- What every callback keeps, a row of callbacks keeps. -/
theorem fireAll_invariant {P : KeyCache → Prop} (hfire : ∀ k id, P k → P (k.fire id).1)
    (ids : List AlarmId) (k : KeyCache) (h : P k) : P (k.fireAll ids).1 := by
  induction ids generalizing k with
  | nil => exact h
  | cons id ids ih =>
    rw [fireAll_cons]
    exact ih _ (hfire k id h)

/-- **What every operation keeps, a run keeps.** All that is said of a cache after any run comes from a step lemma by
this. -/
theorem run_invariant {P : KeyCache → Prop} (hstep : ∀ k op, P k → P (k.step op).1)
    (ops : List Op) (k : KeyCache) (h : P k) : P (k.run ops).1 := by
  induction ops generalizing k with
  | nil => exact h
  | cons op ops ih =>
    rw [run_cons]
    exact ih _ (hstep k op h)

/-! ## What was installed -/

/-- The credential that an operation installs, unless it is refused. -/
def acceptedBy (k : KeyCache) : Op → Option Credential
  | .install c => if k.ring.isScrubbed c then none else some c
  | _ => none

/-- The credentials that the operations of a run install, in order. -/
def accepted (k : KeyCache) : List Op → List Credential
  | [] => []
  | op :: ops => (k.acceptedBy op).toList ++ (k.step op).1.accepted ops

/-- A scrubbed credential is refused: the cache stays as it is and warns. -/
theorem install_of_isScrubbed {k : KeyCache} {c : Credential} (h : k.ring.isScrubbed c = true) :
    k.install c = (k, [.warn .scrubbedCredential]) := by
  rw [install, if_pos h]

/-- What an accepted install makes of the cache. -/
theorem fst_install {k : KeyCache} {c : Credential} (h : k.ring.isScrubbed c = false) :
    (k.install c).1 = ({ k with credential := some c }).rearm.scrub (k.credential.filter (· != c)) := by
  rw [install, h]
  simp only [Bool.false_eq_true, if_false]
  split
  · rfl
  · rfl

end TextVault.KeyCache
