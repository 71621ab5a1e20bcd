import Dsal.Store
import Dsal.Resize

/-!
# The object as a file

The core keeps no size: `dstore_obj_resize(obj, old_size, new_size)` takes the size of the file
as its caller holds it ("Current size of given object", says `dstore.h`), and `dstore_obj_shrink`
zero-fills `[new_size, old_size)` so that after a shrink "if we do extend then user will get all
zeroes instead of getting old/stale data".  What the object is for is a file: a size, and bytes
that read zero from the size on.  A read delivers the bytes, a write puts the caller's bytes in
its range and grows the file to cover them, and a resize cuts the bytes off at the new size.

Against a backend that reports `-ENOENT` only for holes, applies a WRITE whole or not at all and
answers every block-size query, over every run of `dstore_pread`, `dstore_pwrite` and
`dstore_obj_resize` calls from a client that passes its size to each resize:

* the object reads zero from the file's size on, whatever the writes and whichever calls fail
  (`runObjCalls_zeroAbove`);
* the object is the file, unless a write of less than a block from a block boundary ends inside
  the file (that write zeroes the rest of its block) or a resize fails (it may have zeroed part of
  the file); reads and writes that fail change nothing (`runObjCalls_refines`).

Both are stated over the exact block arithmetic; `Dsal.RunWidths` carries them to C's locals
(`runObjCalls_c_zeroAbove`, `runObjCalls_c_refines`).
-/

namespace Dsal

/-! ## The file -/

/-- A file as its client holds it: a size, and bytes that read zero from the size on. -/
structure File where
  size : Nat
  data : Buf
  zero_above : ∀ p, size ≤ p → data p = 0

namespace File

/-- The file of a new object. -/
def empty : File := ⟨0, zeroed, fun _ _ => rfl⟩

/-- A write of `count` bytes at `offset`: they land in `[offset, offset + count)`, and a write of
at least one byte past the end grows the file to cover them. -/
def write (f : File) (offset count : Nat) (buf : Buf) : File where
  size := if count ≠ 0 ∧ f.size < offset + count then offset + count else f.size
  data p := if offset ≤ p ∧ p < offset + count then buf (p - offset) else f.data p
  zero_above p hp := by
    dsimp only
    rw [if_neg (by split_ifs at hp <;> omega)]
    exact f.zero_above p (by split_ifs at hp <;> omega)

/-- A resize to `newSize`: the bytes from `newSize` on are cut off. -/
def resize (f : File) (newSize : Nat) : File where
  size := newSize
  data p := if newSize ≤ p then 0 else f.data p
  zero_above _ hp := if_pos hp

end File

/-! ## Calls on one object -/

/-- A call of the core on one object: a read or a write, or
`dstore_obj_resize(obj, old_size, new_size)`. -/
inductive ObjCall
  | io (c : Call)
  | resize (oldSize newSize : Nat)

/-- One call, with its code and the caller's buffer after it; a resize has no buffer and hands
back an empty one. -/
def ObjCall.exec (W : Width) (bs : Nat) : ObjCall → CoreM (Int × Buf)
  | .io c => c.exec W bs
  | .resize oldSize newSize => do
    let rc ← dstoreObjResize W oldSize newSize
    pure (rc, zeroed)

/-- The calls one after another, with what each returned. -/
def runObjCalls (W : Width) (bs : Nat) : List ObjCall → CoreM (List (Int × Buf))
  | [] => pure []
  | c :: cs => do
    let r ← c.exec W bs
    let rs ← runObjCalls W bs cs
    pure (r :: rs)

theorem runObjCalls_cons (W : Width) (bs : Nat) (c : ObjCall) (cs : List ObjCall) (e : Env)
    (w : World) :
    runObjCalls W bs (c :: cs) e w =
      let x := c.exec W bs e w
      let y := runObjCalls W bs cs e x.2
      (x.1 :: y.1, y.2) := rfl

/-- What a call does to the file. -/
def ObjCall.apply : ObjCall → File → File
  | .io (.pread ..), f => f
  | .io (.pwrite offset count buf), f => f.write offset count buf
  | .resize _ newSize, f => f.resize newSize

/-- The buffer `r` a call hands back is right for the bytes `v`: a read delivers its range. -/
def ObjCall.Answers (v : Buf) : ObjCall → Buf → Prop
  | .io c, r => c.Answers v r
  | .resize .., _ => True

/-! ## The client -/

/-- The client passes the file's size as `old_size` to a resize. -/
def ObjCall.Honest (f : File) : ObjCall → Prop
  | .resize oldSize _ => oldSize = f.size
  | .io _ => True

/-- The write is not cut into by the block-tail zeroing of `dstore_pwrite`: a write of less than
a block from a block boundary ends at or past the end of the file. -/
def ObjCall.SparesTail (bs : Nat) (f : File) : ObjCall → Prop
  | .io (.pwrite offset count _) =>
    offset % bs = 0 → 0 < count → count < bs → f.size ≤ offset + count
  | _ => True

/-- The call is not a resize that failed: a failed resize may have zeroed part of the file. -/
def ObjCall.ResizeSucceeded : ObjCall → Int → Prop
  | .resize .., rc => rc = 0
  | .io _, _ => True

instance (f : File) : DecidablePred (ObjCall.Honest f) := fun
  | .resize oldSize _ => inferInstanceAs (Decidable (oldSize = f.size))
  | .io _ => isTrue trivial

instance (bs : Nat) (f : File) : DecidablePred (ObjCall.SparesTail bs f) := fun
  | .io (.pwrite offset count _) =>
    inferInstanceAs (Decidable (offset % bs = 0 → 0 < count → count < bs → _))
  | .io (.pread ..) | .resize .. => isTrue trivial

instance (c : ObjCall) (rc : Int) : Decidable (c.ResizeSucceeded rc) :=
  match c with
  | .resize .. => inferInstanceAs (Decidable (rc = 0))
  | .io _ => isTrue trivial

/-- The file the client holds after the calls, given what each returned: a call that failed
leaves it as it was. -/
def fileAfter : File → List ObjCall → List (Int × Buf) → File
  | f, c :: cs, x :: xs => fileAfter (if x.1 = 0 then c.apply f else f) cs xs
  | f, _, _ => f

/-- Each call of the run has `P`, with the code it returned, in the file the client holds before
it. -/
def AlongRun (P : File → ObjCall → Int → Prop) : File → List ObjCall → List (Int × Buf) → Prop
  | f, c :: cs, x :: xs => P f c x.1 ∧ AlongRun P (if x.1 = 0 then c.apply f else f) cs xs
  | _, _, _ => True

/-- Every call of the run that returned `0` handed back what is right for the file the client
held before it. -/
def FileAnswers : File → List ObjCall → List (Int × Buf) → Prop
  | f, c :: cs, x :: xs =>
    (x.1 = 0 → c.Answers f.data x.2) ∧ FileAnswers (if x.1 = 0 then c.apply f else f) cs xs
  | _, [], [] => True
  | _, _, _ => False

/-! ## The calls of a run -/

namespace KeepsLifecycle

theorem objCallExec (W : Width) (bs : Nat) (c : ObjCall) : KeepsLifecycle (c.exec W bs) := by
  cases c with
  | io c =>
    cases c with
    | pread offset count buf => exact .dstorePread W offset count bs buf
    | pwrite offset count buf => exact .bind (.dstorePwrite W offset count bs buf) fun _ => .pure _
  | resize oldSize newSize => exact .bind (.dstoreObjResize W oldSize newSize) fun _ => .pure _

theorem runObjCalls (W : Width) (bs : Nat) (cs : List ObjCall) :
    KeepsLifecycle (Dsal.runObjCalls W bs cs) := by
  induction cs with
  | nil => exact .pure _
  | cons c cs ih => exact .bind (.objCallExec W bs c) fun _ => .bind ih fun _ => .pure _

/-- The calls of `x >>= f` are those of `x`, then more. -/
theorem bind_log {α β : Type} {x : CoreM α} {f : α → CoreM β} (hf : ∀ a, KeepsLifecycle (f a))
    (e : Env) (w : World) : ∃ evs, ((x >>= f) e w).2.log = (x e w).2.log ++ evs :=
  (hf (x e w).1 e (x e w).2).imp fun _ h => h.1

end KeepsLifecycle

/-- The block-size queries of a run are answered in its first call and in the rest of it. -/
theorem BsizeAnswered.cons {W : Width} {bs : Nat} {c : ObjCall} {cs : List ObjCall} {e : Env}
    {w : World} (h : BsizeAnswered (runObjCalls W bs (c :: cs) e w).2.log) :
    BsizeAnswered (c.exec W bs e w).2.log ∧
      BsizeAnswered (runObjCalls W bs cs e (c.exec W bs e w).2).2.log := by
  obtain ⟨evs, hl, -⟩ := KeepsLifecycle.runObjCalls W bs cs e (c.exec W bs e w).2
  refine ⟨fun ev hev => h ev ?_, h⟩
  show ev ∈ (runObjCalls W bs cs e (c.exec W bs e w).2).2.log
  rw [hl]
  exact List.mem_append_left _ hev

/-- Against a backend that fails no call, a call's block-size query is answered. -/
theorem ObjCall.exec_reliable_answered (W : Width) (bs : Nat) (c : ObjCall) (w : World) :
    w.AnsweredSince (c.exec W bs Env.reliable w).2 := by
  match c with
  | .io (.pread offset count buf) =>
    obtain ⟨evs, hl, hr⟩ := dstorePread_log W offset count bs buf Env.reliable w
    exact ⟨evs, hl, hr.answered⟩
  | .io (.pwrite offset count buf) => exact dstorePwrite_answered W offset count bs buf _ w
  | .resize oldSize newSize => exact dstoreObjResize_log_answered W oldSize newSize rfl

/-- Against a backend that fails no call, every block-size query of a run is answered. -/
theorem runObjCalls_reliable_answered (W : Width) (bs : Nat) (cs : List ObjCall) (w : World)
    (h : BsizeAnswered w.log) : BsizeAnswered (runObjCalls W bs cs Env.reliable w).2.log := by
  induction cs generalizing w with
  | nil => exact h
  | cons c cs ih =>
    obtain ⟨evs, hl, hq⟩ := c.exec_reliable_answered W bs w
    rw [runObjCalls_cons]
    exact ih _ (hl ▸ bsizeAnswered_append.2 ⟨h, hq⟩)

/-! ## The block-size query of a resize -/

theorem dstoreGetBsize_answered {e : Env} {w : World} (h : 0 ≤ (dstoreGetBsize e w).1) :
    e.fault w.log.length = none := by
  cases hf : e.fault w.log.length with
  | none => rfl
  | some err =>
    simp only [dstoreGetBsize, hf] at h
    exact absurd h (Int.not_le.2 err.rc_neg)

/-- A shrink asks for the block size before any other call. -/
theorem dstoreObjShrink_log (W : Width) (oldSize newSize : Nat) (e : Env) (w : World) :
    ∃ evs, (dstoreObjShrink W oldSize newSize e w).2.log =
      (dstoreGetBsize e w).2.log ++ evs := by
  show ∃ evs, ((dstoreGetBsize >>= _) e w).2.log = _
  exact KeepsLifecycle.bind_log (fun _ => .bind .calloc fun _ => .ite (.pure _) <|
    .bind (.shrinkLoop _ _ _ _ _ _ _) fun _ => .ite (.pure _) <|
      .ite (.rcWrapLabel (.dstorePwrite _ _ _ _ _) .pure) (.pure _)) e w

/-- A shrink whose block-size query was answered asked for it with no fault. -/
theorem dstoreObjResize_answered {W : Width} {oldSize newSize : Nat} {e : Env} {w : World}
    (hlt : newSize < oldSize) (h : BsizeAnswered (dstoreObjResize W oldSize newSize e w).2.log) :
    e.fault w.log.length = none := by
  simp only [dstoreObjResize, if_neg (Nat.not_le.2 hlt), rcWrapLabel_pure] at h
  obtain ⟨evs, hl⟩ := dstoreObjShrink_log W oldSize newSize e w
  exact dstoreGetBsize_answered
    (h (.objGetBsize (dstoreGetBsize e w).1) (by rw [hl]; simp [dstoreGetBsize]))

theorem shrinkLoop_bsize (W : Width) (offset bsize : Nat) (tmpBuf : Buf) (n : Nat) :
    ∀ (rc : Int) (index : Nat) (e : Env) (w : World),
      (shrinkLoop W offset bsize tmpBuf rc index n e w).2.obj.bsize = w.obj.bsize := by
  induction n with
  | zero => exact fun _ _ _ _ => rfl
  | succ n ih =>
    intro rc index e w
    rw [shrinkLoop_succ]
    dsimp only
    split_ifs
    · exact dstorePwrite_bsize _ _ _ _ _ _ _
    · exact (ih _ _ _ _).trans (dstorePwrite_bsize _ _ _ _ _ _ _)

theorem dstoreObjResize_bsize {W : Width} {oldSize newSize : Nat} {e : Env} {w : World}
    (hq : BsizeAnswered (dstoreObjResize W oldSize newSize e w).2.log) :
    (dstoreObjResize W oldSize newSize e w).2.obj.bsize = w.obj.bsize := by
  by_cases hle : oldSize ≤ newSize
  · simp only [dstoreObjResize, if_pos hle, CoreM.pure_run]
  · have hget := dstoreObjResize_answered (Nat.lt_of_not_le hle) hq
    simp only [dstoreObjResize, if_neg hle, rcWrapLabel_pure, dstoreObjShrink_eq _ _ _ hget]
    split_ifs <;> simp only [dstorePwrite_bsize, shrinkLoop_bsize]

/-- A call keeps the block size, once its block-size query is answered. -/
theorem ObjCall.exec_bsize (W : Width) (bs : Nat) (c : ObjCall) {e : Env} {w : World}
    (hq : BsizeAnswered (c.exec W bs e w).2.log) : (c.exec W bs e w).2.obj.bsize = w.obj.bsize := by
  match c with
  | .io (.pread ..) => exact congrArg Obj.bsize (dstorePread_obj _ _ _ _ _ _ _)
  | .io (.pwrite ..) => exact dstorePwrite_bsize _ _ _ _ _ _ _
  | .resize .. => exact dstoreObjResize_bsize hq

/-- A read or a write that fails leaves the object as it was. -/
theorem Call.exec_obj_of_ne (W : Width) (bs : Nat) (c : Call) {e : Env} {w : World}
    (ha : e.AtomicWrites) (h0 : (c.exec W bs e w).1.1 ≠ 0) : (c.exec W bs e w).2.obj = w.obj := by
  cases c with
  | pread => exact dstorePread_obj _ _ _ _ _ _ _
  | pwrite => exact dstorePwrite_fail _ _ _ _ _ _ _ ha h0

/-- From `hi` on `o₀` reads zero, so a zero-fill of `[newSize, hi)` cuts the bytes off at
`newSize`. -/
theorem ZeroFilled.view_eq {o₀ o : Obj} {newSize hi : Nat} (hz : ZeroFilled o₀ newSize hi o)
    (habove : ∀ p, hi ≤ p → o₀.view p = 0) (p : Nat) :
    o.view p = if newSize ≤ p then 0 else o₀.view p := by
  split_ifs with hp
  · by_cases ho : p < hi
    · exact hz.zero p hp ho
    · rcases hz.above p (Nat.le_of_not_lt ho) with h | h
      · exact h
      · rw [h, habove p (Nat.le_of_not_lt ho)]
  · exact hz.below p (Nat.lt_of_not_le hp)

/-- `o` is `o₀` with some bytes from `newSize` on zeroed. -/
structure OnlyZeroes (o₀ : Obj) (newSize : Nat) (o : Obj) : Prop where
  bsize : o.bsize = o₀.bsize
  view : ∀ p, o.view p = o₀.view p ∨ newSize ≤ p ∧ o.view p = 0

theorem OnlyZeroes.refl (o : Obj) (newSize : Nat) : OnlyZeroes o newSize o :=
  ⟨rfl, fun _ => .inl rfl⟩

/-! ## One call -/

/-- What a call that succeeds does to the bytes `v` of the object, as the code has it: a write
that starts on a block boundary and ends inside the block also zeroes the rest of the block. -/
def ObjCall.effect (bs : Nat) : ObjCall → Buf → Buf
  | .io c => c.apply bs
  | .resize _ newSize => fun v p => if newSize ≤ p then 0 else v p

/-- Whatever the writes, a call keeps the bytes from the file's size on at zero. -/
theorem ObjCall.effect_zero_above (bs : Nat) (c : ObjCall) (f : File) (v : Buf)
    (hz : ∀ p, f.size ≤ p → v p = 0) (p : Nat) (hp : (c.apply f).size ≤ p) :
    c.effect bs v p = 0 := by
  match c with
  | .io (.pread ..) => exact hz p hp
  | .io (.pwrite offset count buf) =>
    simp only [ObjCall.apply, File.write] at hp
    simp only [ObjCall.effect, Call.apply, writeBytes]
    rw [if_neg (by split_ifs at hp <;> omega)]
    split_ifs
    · rfl
    · exact hz p (by split_ifs at hp <;> omega)
  | .resize _ newSize => exact if_pos hp

/-- A call that spares the block tails does to the file's bytes what the file's own operation
does. -/
theorem ObjCall.effect_data (bs : Nat) (c : ObjCall) (f : File) (ht : c.SparesTail bs f) :
    c.effect bs f.data = (c.apply f).data := by
  match c with
  | .io (.pread ..) => rfl
  | .io (.pwrite offset count buf) =>
    funext p
    simp only [ObjCall.effect, Call.apply, writeBytes, ObjCall.apply, File.write]
    split_ifs with h₁ h₂
    · rfl
    · exact (f.zero_above p (by have := ht h₂.1 h₂.2.1 h₂.2.2.1; omega)).symm
    · rfl
  | .resize .. => rfl

section Exact

variable {e : Env} (he : e.NoSpuriousEnoent)
include he

/-- **Resize, as a step.**  On an object that reads zero from `oldSize` on, a resize that returns
`0`, with its block-size query answered, keeps the block size and cuts the bytes off at
`newSize`. -/
theorem dstoreObjResize_spec (oldSize newSize : Nat) (w : World)
    (habove : ∀ p, oldSize ≤ p → w.obj.view p = 0)
    (hq : BsizeAnswered (dstoreObjResize Width.exact oldSize newSize e w).2.log)
    (h0 : (dstoreObjResize Width.exact oldSize newSize e w).1 = 0) :
    let r := dstoreObjResize Width.exact oldSize newSize e w
    r.2.obj.bsize = w.obj.bsize ∧
      ∀ p, r.2.obj.view p = if newSize ≤ p then 0 else w.obj.view p := by
  by_cases hle : oldSize ≤ newSize
  · have hr : dstoreObjResize Width.exact oldSize newSize e w = (0, w) := by
      simp only [dstoreObjResize, if_pos hle, CoreM.pure_run]
    dsimp only
    rw [hr]
    refine ⟨rfl, fun p => ?_⟩
    split_ifs with hp
    · exact habove p (Nat.le_trans hle hp)
    · rfl
  · have hlt := Nat.lt_of_not_le hle
    have hget := dstoreObjResize_answered hlt hq
    simp only [dstoreObjResize, if_neg hle, rcWrapLabel_pure] at h0 ⊢
    have hz := dstoreObjShrink_zeroFilled he oldSize newSize w hget hlt h0
    exact ⟨hz.bsize, hz.view_eq habove⟩

/-- **Step.**  On an object that reads zero from the file's size on, a call of an honest client
that returns `0`, with its block-size query answered, keeps the block size, changes the bytes as
its effect says and hands back what is right for the bytes before it. -/
theorem ObjCall.exec_spec (bs : Nat) (c : ObjCall) (f : File) (w : World)
    (hbs : w.obj.bsize = bs) (hz : ∀ p, f.size ≤ p → w.obj.view p = 0) (hh : c.Honest f)
    (hq : BsizeAnswered (c.exec Width.exact bs e w).2.log)
    (h0 : (c.exec Width.exact bs e w).1.1 = 0) :
    let r := c.exec Width.exact bs e w
    r.2.obj.bsize = bs ∧ r.2.obj.view = c.effect bs w.obj.view ∧ c.Answers w.obj.view r.1.2 := by
  cases c with
  | io c => exact Call.exec_spec he bs c w hbs h0
  | resize oldSize newSize =>
    have ho : oldSize = f.size := hh
    obtain ⟨hb, hv⟩ := dstoreObjResize_spec he oldSize newSize w
      (fun p hp => hz p (ho ▸ hp)) hq h0
    exact ⟨hb.trans hbs, funext hv, trivial⟩

/-! ## Calls that fail

A call that fails leaves the object as it was, or has zeroed bytes from `newSize` on, when the
backend applies a WRITE whole or not at all. -/

section Atomic

variable (ha : e.AtomicWrites)
include ha

/-- A write of zeros from `newSize` on, whether it succeeds or fails, only zeroes bytes from
`newSize` on. -/
theorem OnlyZeroes.pwrite {o₀ : Obj} {newSize off count : Nat} {w : World}
    (hz : OnlyZeroes o₀ newSize w.obj) (hoff : newSize ≤ off) :
    OnlyZeroes o₀ newSize (dstorePwrite Width.exact off count o₀.bsize zeroed e w).2.obj := by
  by_cases h0 : (dstorePwrite Width.exact off count o₀.bsize zeroed e w).1 = 0
  · refine ⟨(dstorePwrite_bsize _ _ _ _ _ _ _).trans hz.bsize, fun p => ?_⟩
    rw [dstorePwrite_view he _ _ _ _ _ hz.bsize h0]
    split_ifs with h₁ h₂
    · exact .inr ⟨by omega, rfl⟩
    · exact .inr ⟨by omega, rfl⟩
    · exact hz.view p
  · rwa [dstorePwrite_fail _ _ _ _ _ _ _ ha h0]

theorem shrinkLoop_onlyZeroes {o₀ : Obj} {newSize : Nat} (n : Nat) :
    ∀ (index : Nat) (rc : Int) (w : World), OnlyZeroes o₀ newSize w.obj →
      OnlyZeroes o₀ newSize
        (shrinkLoop Width.exact newSize o₀.bsize zeroed rc index n e w).2.obj := by
  induction n with
  | zero => exact fun _ _ _ hz => hz
  | succ n ih =>
    intro index rc w hz
    rw [shrinkLoop_succ]
    dsimp only
    split_ifs
    · exact hz.pwrite he ha (Nat.le_add_right _ _)
    · exact ih _ _ _ (hz.pwrite he ha (Nat.le_add_right _ _))

/-- **A failed resize.**  Whatever it returns, a resize whose block-size query was answered keeps
every byte below `newSize` and only zeroes bytes from `newSize` on: a shrink that fails midway has
zeroed part of `[newSize, oldSize)` and nothing else. -/
theorem dstoreObjResize_onlyZeroes (oldSize newSize : Nat) (w : World)
    (hq : BsizeAnswered (dstoreObjResize Width.exact oldSize newSize e w).2.log) :
    OnlyZeroes w.obj newSize (dstoreObjResize Width.exact oldSize newSize e w).2.obj := by
  by_cases hle : oldSize ≤ newSize
  · simp only [dstoreObjResize, if_pos hle, CoreM.pure_run]
    exact .refl _ _
  · have hget := dstoreObjResize_answered (Nat.lt_of_not_le hle) hq
    simp only [dstoreObjResize, if_neg hle, rcWrapLabel_pure, dstoreObjShrink_eq _ _ _ hget]
    have hl := shrinkLoop_onlyZeroes he ha ((oldSize - newSize) / dsalMaxIoSize) 0 0
      { w with
        log := w.log ++ [.objGetBsize w.obj.bsize, .alloc (e.fault (w.log.length + 1)).isNone] }
      (.refl w.obj newSize)
    split_ifs
    · exact hl
    · exact hl.pwrite he ha (Nat.le_add_right _ _)
    · exact hl
    · exact .refl _ _

/-- **Step, whether the call succeeds or fails.**  On an object that reads zero from the file's size
on, a call of an honest client with its block-size query answered leaves the object reading zero
from the size of the file the client then holds: the new file if the call returned `0`, the old one
if it failed. -/
theorem ObjCall.exec_zeroAbove (bs : Nat) (c : ObjCall) (f : File) (w : World)
    (hbs : w.obj.bsize = bs) (hz : ∀ p, f.size ≤ p → w.obj.view p = 0) (hh : c.Honest f)
    (hq : BsizeAnswered (c.exec Width.exact bs e w).2.log) (p : Nat)
    (hp : (if (c.exec Width.exact bs e w).1.1 = 0 then c.apply f else f).size ≤ p) :
    (c.exec Width.exact bs e w).2.obj.view p = 0 := by
  split_ifs at hp with h0
  · obtain ⟨-, hv, -⟩ := c.exec_spec he bs f w hbs hz hh hq h0
    rw [hv]
    exact c.effect_zero_above bs f _ hz p hp
  · match c with
    | .io c => exact (congrArg (fun o => o.view p) (c.exec_obj_of_ne _ _ ha h0)).trans (hz p hp)
    | .resize oldSize newSize =>
      rcases (dstoreObjResize_onlyZeroes he ha oldSize newSize w hq).view p with h | ⟨-, h⟩
      · exact h.trans (hz p hp)
      · exact h

/-- **Step, for the file.**  On an object holding the file, a call of a client that passes its
size to a resize and spares the block tails, with its block-size query answered and not a resize
that failed, leaves the object holding the file the client then holds: the new file if the call
returned `0`, the old one if it failed; a read that returns `0` delivers the file's bytes. -/
theorem ObjCall.exec_file (bs : Nat) (c : ObjCall) (f : File) (w : World)
    (hbs : w.obj.bsize = bs) (hview : w.obj.view = f.data)
    (hq : BsizeAnswered (c.exec Width.exact bs e w).2.log)
    (hc : c.Honest f ∧ c.SparesTail bs f ∧ c.ResizeSucceeded (c.exec Width.exact bs e w).1.1) :
    let r := c.exec Width.exact bs e w
    r.2.obj.bsize = bs ∧ r.2.obj.view = (if r.1.1 = 0 then c.apply f else f).data ∧
      (r.1.1 = 0 → c.Answers f.data r.1.2) := by
  dsimp only
  by_cases h0 : (c.exec Width.exact bs e w).1.1 = 0
  · obtain ⟨hb, hv, ha⟩ := c.exec_spec he bs f w hbs (hview ▸ f.zero_above) hc.1 hq h0
    rw [if_pos h0, ← c.effect_data bs f hc.2.1, ← hview]
    exact ⟨hb, hv, fun _ => hview ▸ ha⟩
  · refine ⟨(c.exec_bsize Width.exact bs hq).trans hbs, ?_, fun h => absurd h h0⟩
    rw [if_neg h0, ← hview]
    match c with
    | .io c => exact congrArg Obj.view (c.exec_obj_of_ne _ _ ha h0)
    | .resize .. => exact absurd hc.2.2 h0

/-! ## Runs -/

/-- **No stale bytes, whichever calls fail.**  Against a backend that reports `-ENOENT` only for
holes, applies a WRITE whole or not at all and answers every block-size query, on an object that
reads zero from the file's size on, every run of `dstore_pread`, `dstore_pwrite` and
`dstore_obj_resize` calls by a client that passes its size to every resize and keeps its file when a
call fails leaves the object reading zero from the size of the file the client ends with, whatever
the writes and whichever calls fail: a shrink followed by an extension reads zeros. -/
theorem runObjCalls_zeroAbove (bs : Nat) (cs : List ObjCall) (f : File) (w : World)
    (hbs : w.obj.bsize = bs) (hz : ∀ p, f.size ≤ p → w.obj.view p = 0) :
    let r := runObjCalls Width.exact bs cs e w
    BsizeAnswered r.2.log → AlongRun (fun f c _ => c.Honest f) f cs r.1 →
      ∀ p, (fileAfter f cs r.1).size ≤ p → r.2.obj.view p = 0 := by
  induction cs generalizing f w with
  | nil => exact fun _ _ => hz
  | cons c cs ih =>
    intro r hq hh
    obtain ⟨hq₁, hq₂⟩ := BsizeAnswered.cons hq
    exact ih _ _ ((c.exec_bsize Width.exact bs hq₁).trans hbs)
      (c.exec_zeroAbove he ha bs f w hbs hz hh.1 hq₁) hq₂ hh.2

/-- **The object is the file.**  Against a backend that reports `-ENOENT` only for holes, applies a
WRITE whole or not at all and answers every block-size query, on an object holding a file, every run
of `dstore_pread`, `dstore_pwrite` and `dstore_obj_resize` calls by a client that passes its size to
every resize, makes no write of less than a block from a block boundary that ends inside the file,
and keeps its file when a call fails, leaves the object holding the file the client ends with, and
every read that returns `0` hands back the bytes of the file the client held then: reads and writes
may fail anywhere, only a resize that fails breaks the file. -/
theorem runObjCalls_refines (bs : Nat) (cs : List ObjCall) (f : File) (w : World)
    (hbs : w.obj.bsize = bs) (hview : w.obj.view = f.data) :
    let r := runObjCalls Width.exact bs cs e w
    BsizeAnswered r.2.log →
      AlongRun (fun f c rc => c.Honest f ∧ c.SparesTail bs f ∧ c.ResizeSucceeded rc) f cs r.1 →
      FileAnswers f cs r.1 ∧ r.2.obj.view = (fileAfter f cs r.1).data := by
  induction cs generalizing f w with
  | nil => exact fun _ _ => ⟨trivial, hview⟩
  | cons c cs ih =>
    intro r hq hc
    obtain ⟨hq₁, hq₂⟩ := BsizeAnswered.cons hq
    obtain ⟨hb, hv, hr⟩ := c.exec_file he ha bs f w hbs hview hq₁ hc.1
    obtain ⟨hans, hfin⟩ := ih _ _ hb hv hq₂ hc.2
    exact ⟨⟨hr, hans⟩, hfin⟩

end Atomic

end Exact

end Dsal
