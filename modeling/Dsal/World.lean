import Dsal.Backend

/-!
# The world, the environment and the backend calls

A run of the core reads and updates a `World`: the backend object, and the log of every call the
core has made to the backend and of every allocation it tried.  What each call returns is decided
by an `Env`: its answer at position `n` of the log lets that call succeed or makes it fail with an
`errno`, and for a WRITE that fails it says which blocks of the extent the backend wrote before
failing.  A statement over every environment is a statement over every sequence of results the
backend and the allocator can return.
-/

namespace Dsal

/-- The environment: for each position of the log, whether the call made there fails, what a
READ failing there leaves in its buffer, and which blocks of its extent a WRITE failing there has
written. -/
structure Env where
  fault : Nat → Option Errno
  scribble : Nat → Buf
  torn : Nat → Nat → Bool

/-- The backend reports `-ENOENT` only for a hole: no call fails with it otherwise. -/
def Env.NoSpuriousEnoent (e : Env) : Prop := ∀ n, e.fault n ≠ some ENOENT

/-- The backend applies a WRITE whole or not at all: a WRITE that fails writes no block. -/
def Env.AtomicWrites (e : Env) : Prop := ∀ n i, e.torn n i = false

/-- The environment in which every call succeeds. -/
def Env.reliable : Env := ⟨fun _ => none, fun _ => zeroed, fun _ _ => false⟩

theorem Env.reliable_noSpuriousEnoent : Env.reliable.NoSpuriousEnoent := fun _ => nofun

theorem Env.reliable_atomicWrites : Env.reliable.AtomicWrites := fun _ _ => rfl

/-- Against a backend that applies a WRITE whole or not at all, a failed WRITE wrote nothing. -/
theorem Env.AtomicWrites.tear_eq {e : Env} (ha : e.AtomicWrites) (o : Obj) (off size : Nat)
    (src : Buf) (pos n : Nat) : o.tear off size src pos (e.torn n) = o :=
  o.tear_eq_self (.inr (ha n)) src pos

/-- The code of a call the environment answered with `a`. -/
def errRc : Option Errno → Int
  | none => 0
  | some e => e.rc

/-- One call of the core, with what it returned. -/
inductive Event
  /-- an allocation, and whether it succeeded -/
  | alloc (ok : Bool)
  /-- `io_op_init` of operation `op` (its position in the log) over an extent -/
  | ioOpInit (op : Nat) (type : IoOpType) (offset size : Nat) (rc : Int)
  | ioOpSubmit (op : Nat) (rc : Int)
  | ioOpWait (op : Nat) (rc : Int)
  | ioOpFini (op : Nat)
  | objGetBsize (rc : Int)
  deriving DecidableEq, Repr

/-- A call that failed for another reason than a hole: a failed allocation, or an IO call that
returned an error other than `-ENOENT`. -/
def Event.Fault : Event → Prop
  | .alloc ok => ok = false
  | .ioOpInit _ _ _ _ rc | .ioOpSubmit _ rc | .ioOpWait _ rc => rc ≠ 0 ∧ rc ≠ ENOENT.rc
  | .ioOpFini _ | .objGetBsize _ => False

/-- The event is an `io_op_init` of an operation of type `type`. -/
def Event.IsInit (type : IoOpType) : Event → Prop
  | .ioOpInit _ t _ _ _ => t = type
  | _ => False

/-- The event is not a block-size query that failed. -/
def Event.Answered : Event → Prop
  | .objGetBsize rc => 0 ≤ rc
  | _ => True

instance : DecidablePred Event.Answered := fun
  | .objGetBsize rc => inferInstanceAs (Decidable (0 ≤ rc))
  | .alloc _ | .ioOpInit .. | .ioOpSubmit .. | .ioOpWait .. | .ioOpFini _ => isTrue trivial

/-- The backend answered every block-size query of the log. -/
def BsizeAnswered (log : List Event) : Prop := ∀ ev ∈ log, ev.Answered

instance (log : List Event) : Decidable (BsizeAnswered log) :=
  inferInstanceAs (Decidable (∀ ev ∈ log, ev.Answered))

@[simp] theorem bsizeAnswered_nil : BsizeAnswered [] := nofun

@[simp] theorem bsizeAnswered_cons {ev : Event} {log : List Event} :
    BsizeAnswered (ev :: log) ↔ ev.Answered ∧ BsizeAnswered log := List.forall_mem_cons

@[simp] theorem bsizeAnswered_append {a b : List Event} :
    BsizeAnswered (a ++ b) ↔ BsizeAnswered a ∧ BsizeAnswered b := List.forall_mem_append

namespace Event

variable {ok : Bool} {op : Nat} {t t' : IoOpType} {offset size : Nat} {rc : Int}

@[simp] theorem fault_alloc : (alloc ok).Fault ↔ ok = false := Iff.rfl
@[simp] theorem fault_ioOpInit : (ioOpInit op t offset size rc).Fault ↔ rc ≠ 0 ∧ rc ≠ ENOENT.rc :=
  Iff.rfl
@[simp] theorem fault_ioOpSubmit : (ioOpSubmit op rc).Fault ↔ rc ≠ 0 ∧ rc ≠ ENOENT.rc := Iff.rfl
@[simp] theorem fault_ioOpWait : (ioOpWait op rc).Fault ↔ rc ≠ 0 ∧ rc ≠ ENOENT.rc := Iff.rfl
@[simp] theorem not_fault_ioOpFini : ¬(ioOpFini op).Fault := id
@[simp] theorem not_fault_objGetBsize : ¬(objGetBsize rc).Fault := id

@[simp] theorem isInit_ioOpInit : (ioOpInit op t' offset size rc).IsInit t ↔ t' = t := Iff.rfl
@[simp] theorem not_isInit_alloc : ¬(alloc ok).IsInit t := id
@[simp] theorem not_isInit_ioOpSubmit : ¬(ioOpSubmit op rc).IsInit t := id
@[simp] theorem not_isInit_ioOpWait : ¬(ioOpWait op rc).IsInit t := id
@[simp] theorem not_isInit_ioOpFini : ¬(ioOpFini op).IsInit t := id
@[simp] theorem not_isInit_objGetBsize : ¬(objGetBsize rc).IsInit t := id

@[simp] theorem answered_objGetBsize : (objGetBsize rc).Answered ↔ 0 ≤ rc := Iff.rfl
@[simp] theorem answered_alloc : (alloc ok).Answered := trivial
@[simp] theorem answered_ioOpInit : (ioOpInit op t offset size rc).Answered := trivial
@[simp] theorem answered_ioOpSubmit : (ioOpSubmit op rc).Answered := trivial
@[simp] theorem answered_ioOpWait : (ioOpWait op rc).Answered := trivial
@[simp] theorem answered_ioOpFini : (ioOpFini op).Answered := trivial

end Event

/-- The backend object and the log of the calls made so far. -/
structure World where
  obj : Obj
  log : List Event

/-- Every call made from `w` on to `w'` that asks the block size is answered. -/
def World.AnsweredSince (w w' : World) : Prop := ∃ evs, w'.log = w.log ++ evs ∧ BsizeAnswered evs

theorem World.AnsweredSince.refl (w : World) : w.AnsweredSince w :=
  ⟨[], (List.append_nil _).symm, bsizeAnswered_nil⟩

theorem World.AnsweredSince.trans {w₁ w₂ w₃ : World} (h₁ : w₁.AnsweredSince w₂)
    (h₂ : w₂.AnsweredSince w₃) : w₁.AnsweredSince w₃ :=
  let ⟨a, ha, hqa⟩ := h₁
  let ⟨b, hb, hqb⟩ := h₂
  ⟨a ++ b, by rw [hb, ha, List.append_assoc], bsizeAnswered_append.2 ⟨hqa, hqb⟩⟩

/-- A computation of the core against the backend. -/
def CoreM (α : Type) : Type := Env → World → α × World

instance : Monad CoreM where
  pure a := fun _ w => (a, w)
  bind x f := fun e w => match x e w with
    | (a, w') => f a e w'

@[simp] theorem CoreM.pure_run {α : Type} (a : α) (e : Env) (w : World) :
    (pure a : CoreM α) e w = (a, w) := rfl

@[simp] theorem CoreM.bind_run {α β : Type} (x : CoreM α) (f : α → CoreM β) (e : Env)
    (w : World) : (x >>= f) e w = f (x e w).1 e (x e w).2 := rfl

@[simp] theorem CoreM.ite_run {α : Type} (c : Prop) [Decidable c] (x y : CoreM α) (e : Env)
    (w : World) : (if c then x else y) e w = if c then x e w else y e w := by
  split <;> rfl

/-! ## Calls -/

/-- `calloc`, and the allocations inside `dstore_io_buf_init` and `dstore_io_buf2vec`: it fails
when the environment says so. -/
def calloc : CoreM Bool := fun e w =>
  let ok := (e.fault w.log.length).isNone
  (ok, { w with log := w.log ++ [.alloc ok] })

/-- `io_op_init` through the operations table: a new operation over the extent, named by its
position in the log, or the backend's error. -/
def ioOpInit (type : IoOpType) (offset size : Nat) : CoreM (Int × Option Nat) := fun e w =>
  let op := w.log.length
  let rc := errRc (e.fault op)
  ((rc, if rc = 0 then some op else none),
    { w with log := w.log ++ [.ioOpInit op type offset size rc] })

/-- `io_op_submit`. -/
def ioOpSubmit (op : Nat) : CoreM Int := fun e w =>
  let rc := errRc (e.fault w.log.length)
  (rc, { w with log := w.log ++ [.ioOpSubmit op rc] })

/-- What the wait of an operation over `[offset, offset + size)` with buffer `buf` at `pos` comes
to, when it is the call at position `n` of the log: its code, the object and the buffer after it.
The backend serves the operation unless the environment makes it fail; a failed READ may leave
anything in its buffer, and a failed WRITE may have written some blocks of its extent. -/
def waitResult (e : Env) (n : Nat) (o : Obj) (type : IoOpType) (offset size : Nat) (buf : Buf)
    (pos : Nat) : Int × Obj × Buf :=
  match e.fault n with
  | some err => (err.rc, if type = .write then o.tear offset size buf pos (e.torn n) else o,
      if type = .read then memcpy buf pos (e.scribble n) 0 size else buf)
  | none => o.serve type offset size buf pos (e.scribble n)

/-- `io_op_wait`. -/
def ioOpWait (op : Nat) (type : IoOpType) (offset size : Nat) (buf : Buf) (pos : Nat) :
    CoreM (Int × Buf) := fun e w =>
  let r := waitResult e w.log.length w.obj type offset size buf pos
  ((r.1, r.2.2), { obj := r.2.1, log := w.log ++ [.ioOpWait op r.1] })

/-- `io_op_fini`. -/
def ioOpFini (op : Nat) : CoreM Unit := fun _ w =>
  ((), { w with log := w.log ++ [.ioOpFini op] })

end Dsal
