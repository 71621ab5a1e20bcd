import Dsal.Pwrite

/-!
# Resize: `dstore_obj_shrink` and `dstore_obj_resize`

Growing an object is a no-op: the new range is a hole and reads as zeros.  Shrinking zero-fills
the truncated range `[new_size, old_size)` through `dstore_pwrite`, in chunks of
`DSAL_MAX_IO_SIZE` bytes and a tail, with the block size the backend reports for the object.
The block-size query is not checked for an error: a negative answer becomes a block size near
`2^64`.
-/

namespace Dsal

/-- `dstore_get_bsize(dstore, oid)`: the backend's block size for the object, or its error. -/
def dstoreGetBsize : CoreM Int := fun e w =>
  let rc : Int := match e.fault w.log.length with
    | some err => err.rc
    | none => w.obj.bsize
  (rc, { w with log := w.log ++ [.objGetBsize rc] })

/-- `DSAL_MAX_IO_SIZE`: the most one write of a shrink covers. -/
def dsalMaxIoSize : Nat := 1024 * 1024

/-- Modelled from the spec: `RC_WRAP_LABEL(rc, label, f, ...)`, whose header is not under `src/`.
`rc` takes the code of the call, and an error aborts to `label`: "on any error, abort and return
the error". -/
def rcWrapLabel (call : CoreM Int) (rest : Int → CoreM Int) : CoreM Int := do
  let rc ← call
  if rc < 0 then pure rc else rest rc

/-- The `for` loop of `dstore_obj_shrink` from `index` on, with `n` rounds left: each round writes
`DSAL_MAX_IO_SIZE` zero bytes at `offset + index * DSAL_MAX_IO_SIZE`; `rc` is the last code. -/
def shrinkLoop (W : Width) (offset bsize : Nat) (tmpBuf : Buf) (rc : Int) :
    Nat → Nat → CoreM Int
  | _, 0 => pure rc
  | index, n + 1 =>
    rcWrapLabel (dstorePwrite W (offset + index * dsalMaxIoSize) dsalMaxIoSize bsize tmpBuf)
      fun rc => shrinkLoop W offset bsize tmpBuf rc (index + 1) n

/-- `dstore_obj_shrink(obj, old_size, new_size)`.  `rc` is only read after a write has set it,
since the caller makes `count` positive. -/
def dstoreObjShrink (W : Width) (oldSize newSize : Nat) : CoreM Int := do
  let bsize := sizeT (← dstoreGetBsize)
  let count := oldSize - newSize
  let offset := newSize
  let ok ← calloc
  if !ok then pure ENOMEM.rc else
  let tmpBuf := zeroed
  let nrRequest := count / dsalMaxIoSize
  let tailSize := count - nrRequest * dsalMaxIoSize
  let rc ← shrinkLoop W offset bsize tmpBuf 0 0 nrRequest
  -- the loop's `goto out`
  if rc < 0 then pure rc else
  if tailSize ≠ 0 then
    rcWrapLabel (dstorePwrite W (offset + nrRequest * dsalMaxIoSize) tailSize bsize tmpBuf) pure
  else pure rc

/-- `dstore_obj_resize(obj, old_size, new_size)`. -/
def dstoreObjResize (W : Width) (oldSize newSize : Nat) : CoreM Int :=
  if oldSize ≤ newSize then pure 0 else rcWrapLabel (dstoreObjShrink W oldSize newSize) pure

@[simp] theorem rcWrapLabel_pure (call : CoreM Int) : rcWrapLabel call pure = call := by
  funext e w
  simp only [rcWrapLabel, CoreM.bind_run, CoreM.pure_run]
  split <;> rfl

theorem dstoreGetBsize_ok {e : Env} {w : World} (h : e.fault w.log.length = none) :
    dstoreGetBsize e w =
      ((w.obj.bsize : Int), { w with log := w.log ++ [.objGetBsize w.obj.bsize] }) := by
  simp only [dstoreGetBsize, h]

theorem shrinkLoop_succ (W : Width) (offset bsize : Nat) (tmpBuf : Buf) (rc : Int)
    (index n : Nat) (e : Env) (w : World) :
    shrinkLoop W offset bsize tmpBuf rc index (n + 1) e w =
      let r := dstorePwrite W (offset + index * dsalMaxIoSize) dsalMaxIoSize bsize tmpBuf e w
      if r.1 < 0 then r else shrinkLoop W offset bsize tmpBuf r.1 (index + 1) n e r.2 := by
  simp only [shrinkLoop, rcWrapLabel, CoreM.bind_run, CoreM.ite_run, CoreM.pure_run]

theorem dstoreObjShrink_eq (W : Width) (oldSize newSize : Nat) {e : Env} {w : World}
    (hget : e.fault w.log.length = none) :
    dstoreObjShrink W oldSize newSize e w =
      let ok := (e.fault (w.log.length + 1)).isNone
      let w₁ : World := { w with log := w.log ++ [.objGetBsize w.obj.bsize, .alloc ok] }
      let nrRequest := (oldSize - newSize) / dsalMaxIoSize
      let tailSize := oldSize - newSize - nrRequest * dsalMaxIoSize
      if ok then
        let l := shrinkLoop W newSize w.obj.bsize zeroed 0 0 nrRequest e w₁
        if l.1 < 0 then l
        else if tailSize ≠ 0 then
          dstorePwrite W (newSize + nrRequest * dsalMaxIoSize) tailSize w.obj.bsize zeroed e l.2
        else l
      else (ENOMEM.rc, w₁) := by
  have hsz : sizeT w.obj.bsize = w.obj.bsize := by
    rw [sizeT_of_nonneg (Int.ofNat_nonneg _) (by have := w.obj.bsize_lt; omega)]
    rfl
  simp only [dstoreObjShrink, CoreM.bind_run, dstoreGetBsize_ok hget, hsz, calloc,
    List.length_append, List.length_singleton, List.append_assoc, List.singleton_append,
    CoreM.ite_run, CoreM.pure_run, rcWrapLabel_pure]
  cases e.fault (w.log.length + 1) <;>
    simp only [Option.isNone_none, Option.isNone_some, Bool.not_true, Bool.not_false,
      Bool.false_eq_true, if_true, if_false]

theorem shrinkLoop_rc_nonpos (W : Width) (offset bsize : Nat) (tmpBuf : Buf) (n : Nat) :
    ∀ (rc : Int) (index : Nat) (e : Env) (w : World), rc ≤ 0 →
      (shrinkLoop W offset bsize tmpBuf rc index n e w).1 ≤ 0 := by
  induction n with
  | zero => exact fun _ _ _ _ h => h
  | succ n ih =>
    intro rc index e w _
    rw [shrinkLoop_succ]
    dsimp only
    split_ifs
    · exact dstorePwrite_rc_nonpos _ _ _ _ _ _ _
    · exact ih _ _ _ _ (dstorePwrite_rc_nonpos _ _ _ _ _ _ _)

/-! ## Zero-filling -/

/-- After zero-filling `[newSize, hi)` of `o₀`: the block size is kept, the bytes below `newSize`
are those of `o₀`, those of `[newSize, hi)` read zero, and each byte from `hi` on is that of `o₀`
or zero. -/
structure ZeroFilled (o₀ : Obj) (newSize hi : Nat) (o : Obj) : Prop where
  bsize : o.bsize = o₀.bsize
  below : ∀ p < newSize, o.view p = o₀.view p
  zero : ∀ p, newSize ≤ p → p < hi → o.view p = 0
  above : ∀ p, hi ≤ p → o.view p = 0 ∨ o.view p = o₀.view p

section ZeroFill

variable {e : Env} (he : e.NoSpuriousEnoent)
include he

/-- A zero write that continues a zero-filled range extends it. -/
theorem ZeroFilled.pwrite {o₀ : Obj} {newSize off count : Nat} {w : World}
    (hz : ZeroFilled o₀ newSize off w.obj) (hoff : newSize ≤ off)
    (h0 : (dstorePwrite Width.exact off count o₀.bsize zeroed e w).1 = 0) :
    ZeroFilled o₀ newSize (off + count)
      (dstorePwrite Width.exact off count o₀.bsize zeroed e w).2.obj where
  bsize := (dstorePwrite_bsize _ _ _ _ _ _ _).trans hz.bsize
  below p hp := by
    rw [dstorePwrite_view he _ _ _ _ _ hz.bsize h0, if_neg (by omega), if_neg (by omega),
      hz.below p hp]
  zero p h₁ h₂ := by
    rw [dstorePwrite_view he _ _ _ _ _ hz.bsize h0]
    split_ifs
    · rfl
    · rfl
    · exact hz.zero p h₁ (by omega)
  above p hp := by
    rw [dstorePwrite_view he _ _ _ _ _ hz.bsize h0, if_neg (by omega)]
    split_ifs
    · exact .inl rfl
    · exact hz.above p (by omega)

/-- **Chunk loop.**  Rounds that all succeed extend the zero-filled range by one chunk each. -/
theorem shrinkLoop_zeroFilled {o₀ : Obj} {newSize : Nat} (n : Nat) :
    ∀ (index : Nat) (rc : Int) (w : World),
      ZeroFilled o₀ newSize (newSize + index * dsalMaxIoSize) w.obj →
      (shrinkLoop Width.exact newSize o₀.bsize zeroed rc index n e w).1 = 0 →
      ZeroFilled o₀ newSize (newSize + (index + n) * dsalMaxIoSize)
        (shrinkLoop Width.exact newSize o₀.bsize zeroed rc index n e w).2.obj := by
  induction n with
  | zero => exact fun _ _ _ hz _ => hz
  | succ n ih =>
    intro index rc w hz h0
    rw [shrinkLoop_succ] at h0 ⊢
    have hneg := dstorePwrite_rc_nonpos Width.exact (newSize + index * dsalMaxIoSize)
      dsalMaxIoSize o₀.bsize zeroed e w
    dsimp only at h0 ⊢
    split_ifs at h0 ⊢ with h
    · exact absurd h0 (Int.ne_of_lt h)
    · have hz' := hz.pwrite he (Nat.le_add_right _ _)
        (show (dstorePwrite Width.exact _ dsalMaxIoSize o₀.bsize zeroed e w).1 = 0 by omega)
      rw [Nat.add_assoc, ← Nat.succ_mul] at hz'
      rw [show index + (n + 1) = index + 1 + n by omega]
      exact ih _ _ _ hz' h0

/-- **Shrink.**  A shrink that returns `0` has zero-filled `[newSize, oldSize)` and kept the bytes
below `newSize`. -/
theorem dstoreObjShrink_zeroFilled (oldSize newSize : Nat) (w : World)
    (hget : e.fault w.log.length = none) (hlt : newSize < oldSize)
    (h0 : (dstoreObjShrink Width.exact oldSize newSize e w).1 = 0) :
    ZeroFilled w.obj newSize oldSize (dstoreObjShrink Width.exact oldSize newSize e w).2.obj := by
  rw [dstoreObjShrink_eq _ _ _ hget] at h0 ⊢
  dsimp only at h0 ⊢
  generalize hw₁ : ({ w with log := w.log ++ [.objGetBsize w.obj.bsize,
    .alloc (e.fault (w.log.length + 1)).isNone] } : World) = w₁ at h0 ⊢
  have hz₀ : ZeroFilled w.obj newSize (newSize + 0 * dsalMaxIoSize) w₁.obj := by
    subst hw₁
    exact ⟨rfl, fun _ _ => rfl, fun _ _ _ => by omega, fun _ _ => .inr rfl⟩
  have hl := shrinkLoop_rc_nonpos Width.exact newSize w.obj.bsize zeroed
    ((oldSize - newSize) / dsalMaxIoSize) 0 0 e w₁ (Int.le_refl 0)
  have hdm := Nat.div_mul_le_self (oldSize - newSize) dsalMaxIoSize
  split_ifs at h0 ⊢ with hok hneg ht
  · exact absurd h0 (Int.ne_of_lt hneg)
  · have hz := shrinkLoop_zeroFilled he ((oldSize - newSize) / dsalMaxIoSize) 0 0 w₁ hz₀ (by omega)
    rw [Nat.zero_add] at hz
    have := hz.pwrite he (Nat.le_add_right _ _) h0
    rwa [Nat.add_assoc, Nat.add_sub_of_le hdm, Nat.add_sub_of_le (Nat.le_of_lt hlt)] at this
  · have hz := shrinkLoop_zeroFilled he ((oldSize - newSize) / dsalMaxIoSize) 0 0 w₁ hz₀ h0
    rwa [Nat.zero_add, show (oldSize - newSize) / dsalMaxIoSize * dsalMaxIoSize = oldSize - newSize
      by omega, Nat.add_sub_of_le (Nat.le_of_lt hlt)] at hz
  · exact absurd h0 (by simp)

end ZeroFill

/-! ## Calls -/

namespace KeepsLifecycle

theorem dstoreGetBsize : KeepsLifecycle Dsal.dstoreGetBsize :=
  fun _ _ => ⟨[.objGetBsize _], rfl, rfl⟩

theorem rcWrapLabel {call : CoreM Int} {rest : Int → CoreM Int} (hc : KeepsLifecycle call)
    (hr : ∀ rc, KeepsLifecycle (rest rc)) : KeepsLifecycle (Dsal.rcWrapLabel call rest) :=
  .bind hc fun rc => .ite (.pure rc) (hr rc)

theorem shrinkLoop (W : Width) (offset bsize : Nat) (tmpBuf : Buf) (n : Nat) :
    ∀ rc index, KeepsLifecycle (Dsal.shrinkLoop W offset bsize tmpBuf rc index n) := by
  induction n with
  | zero => exact fun rc _ => .pure rc
  | succ n ih => exact fun _ _ => .rcWrapLabel (.dstorePwrite _ _ _ _ _) fun _ => ih _ _

theorem dstoreObjShrink (W : Width) (oldSize newSize : Nat) :
    KeepsLifecycle (Dsal.dstoreObjShrink W oldSize newSize) :=
  .bind .dstoreGetBsize fun _ => .bind .calloc fun _ => .ite (.pure _) <|
    .bind (.shrinkLoop _ _ _ _ _ _ _) fun _ => .ite (.pure _) <|
      .ite (.rcWrapLabel (.dstorePwrite _ _ _ _ _) .pure) (.pure _)

theorem dstoreObjResize (W : Width) (oldSize newSize : Nat) :
    KeepsLifecycle (Dsal.dstoreObjResize W oldSize newSize) :=
  .ite (.pure _) (.rcWrapLabel (.dstoreObjShrink _ _ _) .pure)

end KeepsLifecycle

/-- **Lifecycle.**  Whatever the backend and the allocator answer, every call of `dstore_pread`,
`dstore_pwrite` and `dstore_obj_resize` drives each operation it opens through init, submit, wait
(skipped only after a failed submit) and fini, finalises exactly the operations whose init
succeeded, has at most one operation live at a time, and returns with none live. -/
theorem dstoreCalls_keepLifecycle (W : Width) (offset count bs : Nat) (buf : Buf)
    (oldSize newSize : Nat) :
    KeepsLifecycle (dstorePread W offset count bs buf) ∧
      KeepsLifecycle (dstorePwrite W offset count bs buf) ∧
      KeepsLifecycle (dstoreObjResize W oldSize newSize) :=
  ⟨.dstorePread _ _ _ _ _, .dstorePwrite _ _ _ _ _, .dstoreObjResize _ _ _⟩

/-- The writes of a shrink loop ask no block size. -/
theorem shrinkLoop_answered (W : Width) (offset bsize : Nat) (tmpBuf : Buf) (n : Nat) :
    ∀ (rc : Int) (index : Nat) (e : Env) (w : World),
      w.AnsweredSince (shrinkLoop W offset bsize tmpBuf rc index n e w).2 := by
  induction n with
  | zero => exact fun _ _ _ w => .refl w
  | succ n ih =>
    intro rc index e w
    rw [shrinkLoop_succ]
    dsimp only
    split_ifs
    · exact dstorePwrite_answered _ _ _ _ _ _ _
    · exact (dstorePwrite_answered _ _ _ _ _ _ _).trans (ih _ _ _ _)

/-- A resize whose block-size query the backend answers asks no other. -/
theorem dstoreObjResize_log_answered (W : Width) (oldSize newSize : Nat) {e : Env} {w : World}
    (hget : e.fault w.log.length = none) :
    w.AnsweredSince (dstoreObjResize W oldSize newSize e w).2 := by
  by_cases hle : oldSize ≤ newSize
  · simp only [dstoreObjResize, if_pos hle, CoreM.pure_run]
    exact .refl w
  simp only [dstoreObjResize, if_neg hle, rcWrapLabel_pure, dstoreObjShrink_eq _ _ _ hget]
  have h₁ : w.AnsweredSince { w with log := w.log ++ [.objGetBsize w.obj.bsize,
      .alloc (e.fault (w.log.length + 1)).isNone] } :=
    ⟨_, rfl, bsizeAnswered_cons.2 ⟨Int.ofNat_nonneg _, bsizeAnswered_cons.2 ⟨trivial, nofun⟩⟩⟩
  have h₂ := h₁.trans (shrinkLoop_answered W newSize w.obj.bsize zeroed
    ((oldSize - newSize) / dsalMaxIoSize) 0 0 e _)
  split_ifs
  · exact h₂
  · exact h₂.trans (dstorePwrite_answered _ _ _ _ _ _ _)
  · exact h₂
  · exact h₁

/-! ## Resize -/

/-- **Resize.**  Against a backend that reports `-ENOENT` only for holes and answers the block-size
query, a shrink that returns `0` reads zero over `[newSize, oldSize)` and keeps every byte below
`newSize`, whatever the chunking and the block size.  Against every backend, a resize that does
not shrink returns `0` and makes no call at all. -/
theorem dstoreObjResize_zeroFill (oldSize newSize : Nat) (e : Env) (w : World) :
    let r := dstoreObjResize Width.exact oldSize newSize e w
    (e.NoSpuriousEnoent → e.fault w.log.length = none → newSize < oldSize → r.1 = 0 →
      (∀ p, newSize ≤ p → p < oldSize → r.2.obj.view p = 0) ∧
        ∀ p < newSize, r.2.obj.view p = w.obj.view p) ∧
      (oldSize ≤ newSize → r = (0, w)) := by
  refine ⟨fun he hget hlt h0 => ?_, fun hle => by simp only [dstoreObjResize, if_pos hle]; rfl⟩
  simp only [dstoreObjResize, if_neg (Nat.not_le.2 hlt), rcWrapLabel_pure] at h0 ⊢
  have hz := dstoreObjShrink_zeroFilled he oldSize newSize w hget hlt h0
  exact ⟨hz.zero, hz.below⟩

/-- A shrink from 6 to 2 bytes of a new object with blocks of 4. -/
theorem dstoreObjResize_zeroFill_small :
    let w : World := ⟨⟨4, by decide, by decide, fun _ => none⟩, []⟩
    Env.reliable.NoSpuriousEnoent ∧ Env.reliable.fault w.log.length = none ∧
      let r := dstoreObjResize Width.exact 6 2 Env.reliable w
      (2 < 6 → r.1 = 0 → (∀ p, 2 ≤ p → p < 6 → r.2.obj.view p = 0) ∧
        ∀ p < 2, r.2.obj.view p = w.obj.view p) ∧ (6 ≤ 2 → r = (0, w)) :=
  ⟨Env.reliable_noSpuriousEnoent, rfl,
    (dstoreObjResize_zeroFill 6 2 Env.reliable _).1 Env.reliable_noSpuriousEnoent rfl,
    (dstoreObjResize_zeroFill 6 2 Env.reliable _).2⟩

/-- **Truncation.**  On an object whose bytes from `oldSize` on read zero, a shrink to `newSize`
that returns `0` leaves every byte from `newSize` on reading zero and keeps the bytes below it:
a later extension reads zeros, not stale data, as the comment of `dstore_obj_shrink` intends. -/
theorem dstoreObjResize_truncates (oldSize newSize : Nat) (e : Env) (w : World)
    (he : e.NoSpuriousEnoent) (hget : e.fault w.log.length = none) (hlt : newSize < oldSize)
    (habove : ∀ p, oldSize ≤ p → w.obj.view p = 0) :
    let r := dstoreObjResize Width.exact oldSize newSize e w
    r.1 = 0 → ∀ p, r.2.obj.view p = if newSize ≤ p then 0 else w.obj.view p := by
  intro r h0 p
  simp only [r, dstoreObjResize, if_neg (Nat.not_le.2 hlt), rcWrapLabel_pure] at h0 ⊢
  have hz := dstoreObjShrink_zeroFilled he oldSize newSize w hget hlt h0
  split_ifs with hp
  · by_cases ho : p < oldSize
    · exact hz.zero p hp ho
    · rcases hz.above p (Nat.le_of_not_lt ho) with h | h
      · exact h
      · rw [h, habove p (Nat.le_of_not_lt ho)]
  · exact hz.below p (Nat.lt_of_not_le hp)

/-- A shrink from 1 byte to 0 when the block-size query fails with `-EIO`: the error becomes the
block size `2^64 - 5`, the unaligned write asks for a scratch buffer of that many bytes, the
allocation fails, and the resize returns `-ENOMEM`. -/
theorem dstoreObjResize_bsize_error :
    let w : World := ⟨⟨4096, by decide, by decide, fun _ => none⟩, []⟩
    let e : Env := ⟨fun n => if n = 0 then some EIO else if n = 2 then some ENOMEM else none,
      fun _ => zeroed, fun _ _ => false⟩
    let r := dstoreObjResize Width.c 1 0 e w
    (dstoreGetBsize e w).1 = EIO.rc ∧ sizeT EIO.rc = 18446744073709551611 ∧ r.1 = ENOMEM.rc ∧
      r.2.log = [.objGetBsize EIO.rc, .alloc true, .alloc false] := by
  decide

end Dsal
