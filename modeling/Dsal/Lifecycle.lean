import Dsal.World

/-!
# The lifecycle of an IO operation

The spec's contract for an operation: `io_op_init`, then `io_op_submit`, then `io_op_wait`, then
`io_op_fini`, where the wait is skipped only after a failed submit, and `fini` is called once on
every operation whose init succeeded and never on one whose init failed.  `Lifecycle.step` checks
one logged call against the operation that is live, if any; a list of calls is `Closed` when it
follows the contract from no live operation back to none.  Allocations and block-size queries are
not calls on an operation and leave the lifecycle as it is.
-/

namespace Dsal

/-- Where the live operation stands. -/
inductive Phase
  /-- initialised, not yet submitted -/
  | inited
  /-- submitted, not yet waited on -/
  | submitted
  /-- its submit failed: only `fini` may follow -/
  | failed
  /-- waited on: only `fini` may follow -/
  | waited
  deriving DecidableEq, Repr

namespace Lifecycle

/-- The live operation (its name and phase), if any. -/
abbrev State := Option (Nat × Phase)

/-- One call against the lifecycle; `none` when the call breaks it. -/
def step : State → Event → Option State
  | s, .alloc _ => some s
  | s, .objGetBsize _ => some s
  | none, .ioOpInit op _ _ _ rc => some (if rc = 0 then some (op, .inited) else none)
  | some (op, .inited), .ioOpSubmit op' rc =>
    if op' = op then some (some (op, if rc = 0 then .submitted else .failed)) else none
  | some (op, .submitted), .ioOpWait op' _ => if op' = op then some (some (op, .waited)) else none
  | some (op, .waited), .ioOpFini op' => if op' = op then some none else none
  | some (op, .failed), .ioOpFini op' => if op' = op then some none else none
  | _, _ => none

/-- A sequence of calls against the lifecycle, from state `s`. -/
def run (s : State) : List Event → Option State
  | [] => some s
  | ev :: evs => (step s ev).bind fun s' => run s' evs

/-- The calls follow the lifecycle, and no operation is live before or after them. -/
def Closed (evs : List Event) : Prop := run none evs = some none

instance (evs : List Event) : Decidable (Closed evs) := inferInstanceAs (Decidable (_ = _))

theorem run_append (s : State) (a b : List Event) :
    run s (a ++ b) = (run s a).bind fun s' => run s' b := by
  induction a generalizing s with
  | nil => rfl
  | cons ev evs ih =>
    simp only [List.cons_append, run]
    cases step s ev <;> simp [ih]

theorem closed_nil : Closed [] := rfl

/-! The calls of one operation, each taking the lifecycle from no live operation back to none. -/

section Op

variable (s : State) (evs : List Event) {op : Nat} {type : IoOpType} {offset size : Nat}
  {rc : Int}

@[simp] theorem run_nil : run s [] = some s := rfl

@[simp] theorem run_alloc (ok : Bool) : run s (.alloc ok :: evs) = run s evs := by
  simp [run, step]

@[simp] theorem run_objGetBsize (rc : Int) : run s (.objGetBsize rc :: evs) = run s evs := by
  simp [run, step]

/-- An init that failed opens nothing. -/
@[simp] theorem run_initFailed (h : rc ≠ 0) :
    run none (.ioOpInit op type offset size rc :: evs) = run none evs := by
  simp [run, step, h]

/-- An operation whose submit failed, then its fini. -/
@[simp] theorem run_submitFailed (h : rc ≠ 0) :
    run none (.ioOpInit op type offset size 0 :: .ioOpSubmit op rc :: .ioOpFini op :: evs) =
      run none evs := by
  simp [run, step, h]

/-- An operation submitted, waited on and finalised. -/
@[simp] theorem run_waited :
    run none (.ioOpInit op type offset size 0 :: .ioOpSubmit op 0 :: .ioOpWait op rc ::
      .ioOpFini op :: evs) = run none evs := by
  simp [run, step]

end Op

theorem Closed.append {a b : List Event} (ha : Closed a) (hb : Closed b) : Closed (a ++ b) := by
  rw [Closed, run_append, show run none a = some none from ha]
  exact hb

end Lifecycle

/-- `x` leaves the lifecycle closed: every call it logs belongs to an operation it opens and
finishes in order, whatever the environment answers. -/
def KeepsLifecycle {α : Type} (x : CoreM α) : Prop :=
  ∀ e w, ∃ evs, (x e w).2.log = w.log ++ evs ∧ Lifecycle.Closed evs

namespace KeepsLifecycle

theorem pure {α : Type} (a : α) : KeepsLifecycle (pure a : CoreM α) :=
  fun _ w => ⟨[], by simp, Lifecycle.closed_nil⟩

theorem bind {α β : Type} {x : CoreM α} {f : α → CoreM β} (hx : KeepsLifecycle x)
    (hf : ∀ a, KeepsLifecycle (f a)) : KeepsLifecycle (x >>= f) := by
  intro e w
  obtain ⟨a, ha, hca⟩ := hx e w
  obtain ⟨b, hb, hcb⟩ := hf (x e w).1 e (x e w).2
  exact ⟨a ++ b, by simp [hb, ha], hca.append hcb⟩

theorem ite {α : Type} {c : Prop} [Decidable c] {x y : CoreM α} (hx : KeepsLifecycle x)
    (hy : KeepsLifecycle y) : KeepsLifecycle (if c then x else y) := by
  split <;> assumption

theorem calloc : KeepsLifecycle Dsal.calloc :=
  fun _ _ => ⟨[.alloc _], rfl, rfl⟩

end KeepsLifecycle

end Dsal
