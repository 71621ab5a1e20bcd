import Dsal.Lifecycle

/-!
# Aligned IO: `pwrite_aligned` and `pread_aligned`

Each builds a one-buffer IO vector over the caller's buffer, initialises and submits one operation
over it (`dstore_io_op_init_and_submit`), waits for it and finalises it.  The two functions differ
only in the operation type, so they are one definition, `alignedIo`.
-/

namespace Dsal

/-- Modelled from the spec: `dstore_io_buf_init` (in `dstore_bufvec.c`, not among the sources)
allocates a one-buffer descriptor and fails, with `-ENOMEM`, only when that allocation does. -/
def dstoreIoBufInit : CoreM Int := do
  let ok ← calloc
  return if ok then 0 else ENOMEM.rc

/-- Modelled from the spec: `dstore_io_buf2vec` (in `dstore_bufvec.c`) allocates the IO vector
around the descriptor and fails, with `-ENOMEM`, only when that allocation does. -/
def dstoreIoBuf2vec : CoreM Int := do
  let ok ← calloc
  return if ok then 0 else ENOMEM.rc

/-- `dstore_io_op_init_and_submit`: an operation is handed back only when both its init and its
submit succeed; one whose submit fails is finalised here. -/
def dstoreIoOpInitAndSubmit (type : IoOpType) (offset size : Nat) : CoreM (Int × Option Nat) := do
  let (rc, op) ← ioOpInit type offset size
  match op with
  | none => return (rc, none)
  | some op =>
    let rc ← ioOpSubmit op
    if rc ≠ 0 then do
      ioOpFini op
      return (rc, none)
    else return (0, some op)

/-- `pwrite_aligned` and `pread_aligned`: one operation of `type` over `[offset, offset + size)`
with the buffer at `pos`; each step's error is returned, and the operation is finalised on every
path that initialised it. -/
def alignedIo (type : IoOpType) (buf : Buf) (pos size offset : Nat) : CoreM (Int × Buf) := do
  let rc ← dstoreIoBufInit
  if rc ≠ 0 then return (rc, buf) else
  let rc ← dstoreIoBuf2vec
  if rc ≠ 0 then return (rc, buf) else
  let (rc, op) ← dstoreIoOpInitAndSubmit type offset size
  match op with
  | none => return (rc, buf)
  | some op =>
    let r ← ioOpWait op type offset size buf pos
    ioOpFini op
    return r

/-- `pwrite_aligned(obj, write_buf + pos, buf_size, offset)`. -/
def pwriteAligned (writeBuf : Buf) (pos bufSize offset : Nat) : CoreM Int := do
  let r ← alignedIo .write writeBuf pos bufSize offset
  return r.1

/-- `pread_aligned(obj, read_buf + pos, buf_size, offset)`. -/
def preadAligned (readBuf : Buf) (pos bufSize offset : Nat) : CoreM (Int × Buf) :=
  alignedIo .read readBuf pos bufSize offset

/-- **Inversion.**  The five ways one aligned operation ends: an allocation fails, the init
fails, the submit fails, or the operation is waited on; every path that initialised it finalises
it. -/
theorem alignedIo_eq (type : IoOpType) (buf : Buf) (pos size offset : Nat) (e : Env)
    (w : World) :
    let n := w.log.length
    let r := alignedIo type buf pos size offset e w
    r = ((ENOMEM.rc, buf), { w with log := w.log ++ [.alloc false] }) ∨
    r = ((ENOMEM.rc, buf), { w with log := w.log ++ [.alloc true, .alloc false] }) ∨
    (∃ err, e.fault (n + 2) = some err ∧
      r = ((err.rc, buf), { w with log := w.log ++ [.alloc true, .alloc true,
        .ioOpInit (n + 2) type offset size err.rc] })) ∨
    (∃ err, e.fault (n + 3) = some err ∧
      r = ((err.rc, buf), { w with log := w.log ++ [.alloc true, .alloc true,
        .ioOpInit (n + 2) type offset size 0, .ioOpSubmit (n + 2) err.rc, .ioOpFini (n + 2)] })) ∨
    (let s := waitResult e (n + 4) w.obj type offset size buf pos;
      r = ((s.1, s.2.2), { obj := s.2.1, log := w.log ++ [.alloc true, .alloc true,
        .ioOpInit (n + 2) type offset size 0, .ioOpSubmit (n + 2) 0, .ioOpWait (n + 2) s.1,
        .ioOpFini (n + 2)] })) := by
  dsimp only
  rcases h0 : e.fault w.log.length with _ | a0
  · rcases h1 : e.fault (w.log.length + 1) with _ | a1
    · rcases h2 : e.fault (w.log.length + 2) with _ | a2
      · rcases h3 : e.fault (w.log.length + 3) with _ | a3
        · refine .inr (.inr (.inr (.inr ?_)))
          simp [alignedIo, dstoreIoBufInit, dstoreIoBuf2vec, dstoreIoOpInitAndSubmit, calloc,
            ioOpInit, ioOpSubmit, ioOpWait, ioOpFini, h0, h1, h2, h3, errRc]
        · refine .inr (.inr (.inr (.inl ⟨a3, rfl, ?_⟩)))
          simp [alignedIo, dstoreIoBufInit, dstoreIoBuf2vec, dstoreIoOpInitAndSubmit, calloc,
            ioOpInit, ioOpSubmit, ioOpFini, h0, h1, h2, h3, errRc]
      · refine .inr (.inr (.inl ⟨a2, rfl, ?_⟩))
        simp [alignedIo, dstoreIoBufInit, dstoreIoBuf2vec, dstoreIoOpInitAndSubmit, calloc,
          ioOpInit, h0, h1, h2, errRc]
    · exact .inr (.inl (by simp [alignedIo, dstoreIoBufInit, dstoreIoBuf2vec, calloc, h0, h1]))
  · exact .inl (by simp [alignedIo, dstoreIoBufInit, calloc, h0])

/-! ## The wait -/

section Wait

variable (e : Env) (n : Nat) (o : Obj) (offset size : Nat) (buf : Buf) (pos : Nat)

theorem waitResult_rc_nonpos (type : IoOpType) :
    (waitResult e n o type offset size buf pos).1 ≤ 0 := by
  unfold waitResult
  split
  · simp
  · cases type <;> simp only [Obj.serve_read, Obj.serve_write] <;> split_ifs <;> simp

theorem waitResult_read_obj : (waitResult e n o .read offset size buf pos).2.1 = o := by
  unfold waitResult
  split
  · rfl
  · rw [Obj.serve_read]; split_ifs <;> rfl

theorem waitResult_read_frame {q : Nat} (hq : ¬(pos ≤ q ∧ q < pos + size)) :
    (waitResult e n o .read offset size buf pos).2.2 q = buf q := by
  unfold waitResult
  split
  · simp [memcpy_outside hq]
  · rw [Obj.serve_read]; split_ifs <;> simp [Obj.read, memcpy_outside hq]

theorem waitResult_read_ok (h : (waitResult e n o .read offset size buf pos).1 = 0) :
    (waitResult e n o .read offset size buf pos).2.2 = o.read offset size buf pos := by
  unfold waitResult at *
  split at *
  · simp at h
  · rw [Obj.serve_read] at *; split_ifs at * <;> simp_all

/-- A READ's `-ENOENT` comes from a hole, unless the environment forged it. -/
theorem waitResult_read_enoent (he : e.fault n ≠ some ENOENT)
    (h : (waitResult e n o .read offset size buf pos).1 = ENOENT.rc) :
    o.Aligned offset size ∧ ¬o.Written offset size := by
  unfold waitResult at h
  split at h
  · simp_all
  · rw [Obj.serve_read] at h; split_ifs at h <;> simp_all

theorem waitResult_write_buf : (waitResult e n o .write offset size buf pos).2.2 = buf := by
  unfold waitResult
  split
  · simp
  · rw [Obj.serve_write]; split_ifs <;> rfl

theorem waitResult_write_ok (h : (waitResult e n o .write offset size buf pos).1 = 0) :
    o.Aligned offset size ∧
      (waitResult e n o .write offset size buf pos).2.1 = o.write offset size buf pos := by
  unfold waitResult at *
  split at *
  · simp at h
  · rw [Obj.serve_write] at *; split_ifs at * <;> simp_all

/-- A WRITE that fails has written the blocks of its extent the environment picks, and no
other. -/
theorem waitResult_write_fail (h : (waitResult e n o .write offset size buf pos).1 ≠ 0) :
    (waitResult e n o .write offset size buf pos).2.1 = o.tear offset size buf pos (e.torn n) := by
  unfold waitResult at *
  split at *
  · simp
  · rw [Obj.serve_write] at *
    split_ifs at * with ha
    · exact absurd rfl h
    · exact (o.tear_eq_self (.inl ha) _ _).symm

theorem waitResult_write_ne_enoent (he : e.fault n ≠ some ENOENT) :
    (waitResult e n o .write offset size buf pos).1 ≠ ENOENT.rc := by
  unfold waitResult
  split
  · simp_all
  · rw [Obj.serve_write]; split_ifs <;> simp

end Wait

/-! ## What one aligned operation does -/

section Aligned

variable (buf : Buf) (pos size offset : Nat) (e : Env) (w : World)

/-- **Calls.**  One aligned operation keeps the lifecycle closed, opens only an operation of its
own type, logs a fault exactly when it returns an error other than `-ENOENT`, and asks no block
size. -/
theorem alignedIo_log (type : IoOpType) :
    let r := alignedIo type buf pos size offset e w
    ∃ evs, r.2.log = w.log ++ evs ∧ Lifecycle.Closed evs ∧
      (∀ ev ∈ evs, ev.Fault → r.1.1 ≠ 0 ∧ r.1.1 ≠ ENOENT.rc) ∧
      (r.1.1 ≠ 0 → r.1.1 ≠ ENOENT.rc → ∃ ev ∈ evs, ev.Fault) ∧
      (∀ ev ∈ evs, ∀ t, ev.IsInit t → t = type) ∧ BsizeAnswered evs := by
  rcases alignedIo_eq type buf pos size offset e w with h | h | ⟨_, _, h⟩ | ⟨_, _, h⟩ | h <;>
    rw [h] <;> refine ⟨_, rfl, ?_⟩ <;> simp [Lifecycle.Closed, BsizeAnswered]
  exact fun h₁ h₂ => ⟨h₁, h₂⟩

theorem alignedIo_rc_nonpos (type : IoOpType) :
    (alignedIo type buf pos size offset e w).1.1 ≤ 0 := by
  rcases alignedIo_eq type buf pos size offset e w with h | h | ⟨_, _, h⟩ | ⟨_, _, h⟩ | h <;>
    simp [h, waitResult_rc_nonpos]

theorem KeepsLifecycle.alignedIo (type : IoOpType) :
    KeepsLifecycle (Dsal.alignedIo type buf pos size offset) := fun e w =>
  let ⟨evs, hl, hc, _⟩ := alignedIo_log buf pos size offset e w type
  ⟨evs, hl, hc⟩

/-- A READ leaves the object as it was. -/
theorem preadAligned_obj : (preadAligned buf pos size offset e w).2.obj = w.obj := by
  rcases alignedIo_eq .read buf pos size offset e w with h | h | ⟨_, _, h⟩ | ⟨_, _, h⟩ | h <;>
    simp [preadAligned, h, waitResult_read_obj]

/-- A READ writes only its own target range of the buffer. -/
theorem preadAligned_frame {q : Nat} (hq : ¬(pos ≤ q ∧ q < pos + size)) :
    (preadAligned buf pos size offset e w).1.2 q = buf q := by
  rcases alignedIo_eq .read buf pos size offset e w with h | h | ⟨_, _, h⟩ | ⟨_, _, h⟩ | h <;>
    simp [preadAligned, h, waitResult_read_frame _ _ _ _ _ _ _ hq]

/-- **READ.**  A READ that returns `0` has delivered the view of its extent. -/
theorem preadAligned_ok (h0 : (preadAligned buf pos size offset e w).1.1 = 0) :
    (preadAligned buf pos size offset e w).1.2 = w.obj.read offset size buf pos := by
  rcases alignedIo_eq .read buf pos size offset e w with h | h | ⟨_, _, h⟩ | ⟨_, _, h⟩ | h <;>
    simp only [preadAligned, h] at h0 ⊢ <;>
    first | exact waitResult_read_ok _ _ _ _ _ _ _ h0 | simp at h0

/-- A READ that returns `-ENOENT` covers a hole, when the environment forges no `-ENOENT`. -/
theorem preadAligned_enoent (he : e.NoSpuriousEnoent)
    (h1 : (preadAligned buf pos size offset e w).1.1 = ENOENT.rc) :
    w.obj.Aligned offset size ∧ ¬w.obj.Written offset size := by
  rcases alignedIo_eq .read buf pos size offset e w with h | h | ⟨_, hf, h⟩ | ⟨_, hf, h⟩ | h <;>
    simp only [preadAligned, h, Errno.rc_eq_rc, ENOMEM_ne_ENOENT] at h1
  · exact absurd (h1 ▸ hf) (he _)
  · exact absurd (h1 ▸ hf) (he _)
  · exact waitResult_read_enoent _ _ _ _ _ _ _ (he _) h1

/-- **WRITE.**  A WRITE that returns `0` was aligned and has written its extent from the buffer. -/
theorem pwriteAligned_ok (h0 : (pwriteAligned buf pos size offset e w).1 = 0) :
    w.obj.Aligned offset size ∧
      (pwriteAligned buf pos size offset e w).2.obj = w.obj.write offset size buf pos := by
  rcases alignedIo_eq .write buf pos size offset e w with h | h | ⟨_, _, h⟩ | ⟨_, _, h⟩ | h <;>
    simp only [pwriteAligned, CoreM.bind_run, CoreM.pure_run, h] at h0 ⊢ <;>
    first | exact waitResult_write_ok _ _ _ _ _ _ _ h0 | simp at h0

/-- A WRITE that fails leaves the object as it was, or failed part way: it has written the blocks
of its extent that the environment picks at its wait. -/
theorem pwriteAligned_fail (h1 : (pwriteAligned buf pos size offset e w).1 ≠ 0) :
    (pwriteAligned buf pos size offset e w).2.obj = w.obj ∨
      ∃ n, (pwriteAligned buf pos size offset e w).2.obj =
        w.obj.tear offset size buf pos (e.torn n) := by
  rcases alignedIo_eq .write buf pos size offset e w with h | h | ⟨_, _, h⟩ | ⟨_, _, h⟩ | h <;>
    simp only [pwriteAligned, CoreM.bind_run, CoreM.pure_run, h, true_or] at h1 ⊢
  exact .inr ⟨_, waitResult_write_fail _ _ _ _ _ _ _ h1⟩

end Aligned

end Dsal
