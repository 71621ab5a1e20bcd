import Dsal.File
import Dsal.Widths

/-!
# Fixed-width locals over runs

`Dsal.Widths` shows that one `dstore_pwrite` or `dstore_pread` computes with C's `uint32_t` and
`int` locals what it computes with exact integers, as long as its block numbers stay below `2^32`
and its count below `2^31`.  A shrink writes chunks of `DSAL_MAX_IO_SIZE` bytes below `old_size`,
so it stays in range when `old_size / bs` does.  A whole run of calls in range, in which the
backend answers every block-size query, is then the exact run, and what `Dsal.Store`,
`Dsal.Resize` and `Dsal.File` prove of the exact runs holds of the code:

* a run of reads and writes that all succeed is a run of the byte array (`runCalls_c_refines`);
* a shrink that succeeds cuts the bytes off at the new size (`dstoreObjResize_c_truncates`);
* the object reads zero from the file's size on, and is the file, over runs of reads, writes and
  resizes (`runObjCalls_c_zeroAbove`, `runObjCalls_c_refines`).
-/

namespace Dsal

/-- The block arithmetic of the call stays in the range of C's locals: counts below `2^31`, block
numbers below `2^32`. -/
def ObjCall.InRange (bs : Nat) : ObjCall → Prop
  | .io (.pread offset count _) | .io (.pwrite offset count _) =>
    count < 2147483648 ∧ (offset + count) / bs < 4294967296
  | .resize oldSize _ => oldSize / bs < 4294967296

instance (bs : Nat) : DecidablePred (ObjCall.InRange bs) := fun
  | .io (.pread offset count _) | .io (.pwrite offset count _) =>
    inferInstanceAs (Decidable (count < 2147483648 ∧ (offset + count) / bs < 4294967296))
  | .resize oldSize _ => inferInstanceAs (Decidable (oldSize / bs < 4294967296))

theorem shrinkLoop_c {offset bs : Nat} {tmpBuf : Buf} (hbs : 0 < bs) (hbs' : bs < 4294967296)
    (n : Nat) : ∀ index, (offset + (index + n) * dsalMaxIoSize) / bs < 4294967296 → ∀ rc,
      shrinkLoop Width.c offset bs tmpBuf rc index n =
        shrinkLoop Width.exact offset bs tmpBuf rc index n := by
  induction n with
  | zero => exact fun _ _ _ => rfl
  | succ n ih =>
    intro index h rc
    have hle : offset + index * dsalMaxIoSize + dsalMaxIoSize ≤
        offset + (index + (n + 1)) * dsalMaxIoSize := by
      have := Nat.mul_le_mul_right dsalMaxIoSize (show index + 1 ≤ index + (n + 1) by omega)
      rw [Nat.succ_mul] at this
      omega
    have hw := @dstorePwrite_c _ _ _ tmpBuf hbs hbs' (by decide : dsalMaxIoSize < 2147483648)
      (Nat.lt_of_le_of_lt (Nat.div_le_div_right hle) h)
    have hn := ih (index + 1) (by rwa [show index + 1 + n = index + (n + 1) by omega])
    simp only [shrinkLoop, hw, hn]

theorem dstoreObjShrink_c {oldSize newSize : Nat} {e : Env} {w : World}
    (hget : e.fault w.log.length = none) (hbs' : w.obj.bsize < 4294967296)
    (hlt : newSize < oldSize) (h : oldSize / w.obj.bsize < 4294967296) :
    dstoreObjShrink Width.c oldSize newSize e w =
      dstoreObjShrink Width.exact oldSize newSize e w := by
  have hbs := w.obj.bsize_pos
  have hM : dsalMaxIoSize = 1048576 := rfl
  have hdm := Nat.div_add_mod' (oldSize - newSize) dsalMaxIoSize
  have hmod := Nat.mod_lt (oldSize - newSize) (by decide : 0 < dsalMaxIoSize)
  have hl := @shrinkLoop_c newSize _ zeroed hbs hbs' ((oldSize - newSize) / dsalMaxIoSize) 0
    (Nat.lt_of_le_of_lt (Nat.div_le_div_right (by rw [Nat.zero_add]; omega)) h)
  have ht := @dstorePwrite_c (newSize + (oldSize - newSize) / dsalMaxIoSize * dsalMaxIoSize)
    (oldSize - newSize - (oldSize - newSize) / dsalMaxIoSize * dsalMaxIoSize) _ zeroed hbs hbs'
    (by omega) (by rw [show newSize + (oldSize - newSize) / dsalMaxIoSize * dsalMaxIoSize +
      (oldSize - newSize - (oldSize - newSize) / dsalMaxIoSize * dsalMaxIoSize) = oldSize by omega]
                   exact h)
  rw [dstoreObjShrink_eq _ _ _ hget, dstoreObjShrink_eq _ _ _ hget]
  simp only [hl, ht]

theorem dstoreObjResize_c_of_get {oldSize newSize : Nat} {e : Env} {w : World}
    (hget : e.fault w.log.length = none) (hbs' : w.obj.bsize < 4294967296)
    (h : oldSize / w.obj.bsize < 4294967296) :
    dstoreObjResize Width.c oldSize newSize e w =
      dstoreObjResize Width.exact oldSize newSize e w := by
  by_cases hle : oldSize ≤ newSize
  · simp only [dstoreObjResize, if_pos hle]
  · simp only [dstoreObjResize, if_neg hle, rcWrapLabel_pure]
    exact dstoreObjShrink_c hget hbs' (Nat.lt_of_not_le hle) h

theorem dstoreObjResize_c {oldSize newSize : Nat} {e : Env} {w : World}
    (hq : BsizeAnswered (dstoreObjResize Width.c oldSize newSize e w).2.log)
    (hbs' : w.obj.bsize < 4294967296) (h : oldSize / w.obj.bsize < 4294967296) :
    dstoreObjResize Width.c oldSize newSize e w =
      dstoreObjResize Width.exact oldSize newSize e w := by
  by_cases hle : oldSize ≤ newSize
  · simp only [dstoreObjResize, if_pos hle]
  · exact dstoreObjResize_c_of_get (dstoreObjResize_answered (Nat.lt_of_not_le hle) hq) hbs' h

/-- A read or a write in range computes the same with C's locals. -/
theorem Call.exec_c {bs : Nat} (c : Call) {e : Env} {w : World} (hpos : 0 < bs)
    (hbs' : bs < 4294967296) (hr : (ObjCall.io c).InRange bs) :
    c.exec Width.c bs e w = c.exec Width.exact bs e w := by
  match c, hr with
  | .pread offset count buf, ⟨hc, hblk⟩ =>
    simp only [Call.exec, dstorePread_c hpos hbs' hc hblk]
  | .pwrite offset count buf, ⟨hc, hblk⟩ =>
    simp only [Call.exec, dstorePwrite_c hpos hbs' hc hblk]

/-- One call in range computes the same with C's locals, once its block-size query is
answered. -/
theorem ObjCall.exec_c (bs : Nat) (c : ObjCall) {e : Env} {w : World} (hbs : w.obj.bsize = bs)
    (hbs' : bs < 4294967296) (hr : c.InRange bs)
    (hq : BsizeAnswered (c.exec Width.c bs e w).2.log) :
    c.exec Width.c bs e w = c.exec Width.exact bs e w := by
  match c, hr with
  | .io c, hr => exact c.exec_c (hbs ▸ w.obj.bsize_pos) hbs' hr
  | .resize oldSize newSize, hr =>
    subst hbs
    simp only [ObjCall.exec, CoreM.bind_run, dstoreObjResize_c hq hbs' hr]

theorem runObjCalls_c_exact (bs : Nat) (cs : List ObjCall) (e : Env) (w : World)
    (hbs : w.obj.bsize = bs) (hbs' : bs < 4294967296) (hr : ∀ c ∈ cs, c.InRange bs)
    (hq : BsizeAnswered (runObjCalls Width.c bs cs e w).2.log) :
    runObjCalls Width.c bs cs e w = runObjCalls Width.exact bs cs e w := by
  induction cs generalizing w with
  | nil => rfl
  | cons c cs ih =>
    obtain ⟨hq₁, hq₂⟩ := BsizeAnswered.cons hq
    have hstep := c.exec_c bs hbs hbs' (hr c (.head _)) hq₁
    have hrest := ih _ ((c.exec_bsize Width.c bs hq₁).trans hbs) (fun c hc => hr c (.tail _ hc)) hq₂
    simp only [runObjCalls_cons, ← hstep, hrest]

/-- **C widths over runs.**  For a block size below `2^32`, a run of `dstore_pread`,
`dstore_pwrite` and `dstore_obj_resize` calls whose counts stay below `2^31` and whose block
numbers stay below `2^32`, in which the backend answers every block-size query, computes with C's
`uint32_t` and `int` locals what it computes with exact integers: the same codes, buffers, calls
and object.  What `runObjCalls_refines` and `runObjCalls_zeroAbove` say of the exact run holds of
the code within these bounds. -/
theorem runObjCalls_c_eq_exact (bs : Nat) (cs : List ObjCall) (e : Env) (w : World)
    (hbs : w.obj.bsize = bs) (hbs' : bs < 4294967296) (hr : ∀ c ∈ cs, c.InRange bs)
    (hq : BsizeAnswered (runObjCalls Width.c bs cs e w).2.log) :
    runObjCalls Width.c bs cs e w = runObjCalls Width.exact bs cs e w :=
  runObjCalls_c_exact bs cs e w hbs hbs' hr hq

/-- Against a backend that fails no call: a write across the edge of two written blocks, a shrink
of one full chunk and a tail, and a read across the same edge. -/
theorem runObjCalls_c_eq_exact_reliable :
    let w : World :=
      ⟨⟨4, by decide, by decide, fun i => if i < 2 then some fun _ => 65 else none⟩, []⟩
    let cs := [ObjCall.io (.pwrite 3 2 fun _ => 66), .resize 1048582 4, .io (.pread 2 4 zeroed)]
    w.obj.bsize = 4 ∧ 4 < 4294967296 ∧ (∀ c ∈ cs, c.InRange 4) ∧
      BsizeAnswered (runObjCalls Width.c 4 cs Env.reliable w).2.log ∧
      runObjCalls Width.c 4 cs Env.reliable w = runObjCalls Width.exact 4 cs Env.reliable w :=
  ⟨rfl, by decide, by decide, runObjCalls_reliable_answered _ _ _ _ bsizeAnswered_nil,
    runObjCalls_c_eq_exact 4 _ Env.reliable _ rfl (by decide) (by decide)
      (runObjCalls_reliable_answered _ _ _ _ bsizeAnswered_nil)⟩

/-! ## Reads and writes -/

theorem runCalls_c_exact {bs : Nat} (cs : List Call) (e : Env) (w : World) (hpos : 0 < bs)
    (hbs' : bs < 4294967296) (hr : ∀ c ∈ cs, (ObjCall.io c).InRange bs) :
    runCalls Width.c bs cs e w = runCalls Width.exact bs cs e w := by
  induction cs generalizing w with
  | nil => rfl
  | cons c cs ih =>
    have hstep := c.exec_c (e := e) (w := w) hpos hbs' (hr c (.head _))
    simp only [runCalls_cons, hstep, ih _ fun c hc => hr c (.tail _ hc)]

/-- **The store is a byte array, with C's locals.**  For a block size below `2^32`, against a
backend that reports `-ENOENT` only for holes, a run of `dstore_pread` and `dstore_pwrite` calls
whose counts stay below `2^31` and whose block numbers stay below `2^32`, and that all return `0`,
hands back at every read the bytes of the byte array as the calls before it left them, and leaves
the object's view as the byte array after all of them. -/
theorem runCalls_c_refines {e : Env} (he : e.NoSpuriousEnoent) (bs : Nat) (cs : List Call)
    (w : World) (hbs : w.obj.bsize = bs) (hbs' : bs < 4294967296)
    (hr : ∀ c ∈ cs, (ObjCall.io c).InRange bs) :
    let r := runCalls Width.c bs cs e w
    (∀ x ∈ r.1, x.1 = 0) →
      RunAnswers bs w.obj.view cs r.1 ∧
        r.2.obj.view = cs.foldl (fun v c => c.apply bs v) w.obj.view := by
  rw [runCalls_c_exact cs e w (hbs ▸ w.obj.bsize_pos) hbs' hr]
  exact runCalls_refines he bs cs w hbs

/-- A write across the edge of a written block, then a read across the same edge. -/
theorem runCalls_c_refines_edge :
    let w : World := ⟨⟨4, by decide, by decide, fun i => if i = 0 then some fun _ => 65 else none⟩,
      []⟩
    let cs := [Call.pwrite 3 2 (fun _ => 66), Call.pread 2 4 zeroed]
    Env.reliable.NoSpuriousEnoent ∧ w.obj.bsize = 4 ∧ 4 < 4294967296 ∧
      (∀ c ∈ cs, (ObjCall.io c).InRange 4) ∧
      let r := runCalls Width.c 4 cs Env.reliable w
      ((∀ x ∈ r.1, x.1 = 0) →
        RunAnswers 4 w.obj.view cs r.1 ∧
          r.2.obj.view = cs.foldl (fun v c => c.apply 4 v) w.obj.view) :=
  ⟨Env.reliable_noSpuriousEnoent, rfl, by decide, by decide,
    runCalls_c_refines Env.reliable_noSpuriousEnoent 4 _ _ rfl (by decide) (by decide)⟩

/-! ## Resizes -/

/-- **Truncation, with C's locals.**  For a block size below `2^32` and `old_size / bs` below
`2^32`, against a backend that reports `-ENOENT` only for holes and answers the block-size query,
on an object whose bytes from `oldSize` on read zero, a shrink to `newSize` that returns `0`
leaves every byte from `newSize` on reading zero and keeps the bytes below it. -/
theorem dstoreObjResize_c_truncates (oldSize newSize : Nat) (e : Env) (w : World)
    (he : e.NoSpuriousEnoent) (hget : e.fault w.log.length = none) (hlt : newSize < oldSize)
    (habove : ∀ p, oldSize ≤ p → w.obj.view p = 0) (hbs' : w.obj.bsize < 4294967296)
    (hr : oldSize / w.obj.bsize < 4294967296) :
    let r := dstoreObjResize Width.c oldSize newSize e w
    r.1 = 0 → ∀ p, r.2.obj.view p = if newSize ≤ p then 0 else w.obj.view p := by
  rw [dstoreObjResize_c_of_get hget hbs' hr]
  exact dstoreObjResize_truncates oldSize newSize e w he hget hlt habove

/-- A shrink from 6 to 2 bytes of a new object with blocks of 4. -/
theorem dstoreObjResize_c_truncates_small :
    let w : World := ⟨⟨4, by decide, by decide, fun _ => none⟩, []⟩
    Env.reliable.NoSpuriousEnoent ∧ Env.reliable.fault w.log.length = none ∧ 2 < 6 ∧
      (∀ p, 6 ≤ p → w.obj.view p = 0) ∧ w.obj.bsize < 4294967296 ∧ 6 / w.obj.bsize < 4294967296 ∧
      let r := dstoreObjResize Width.c 6 2 Env.reliable w
      (r.1 = 0 → ∀ p, r.2.obj.view p = if 2 ≤ p then 0 else w.obj.view p) :=
  ⟨Env.reliable_noSpuriousEnoent, rfl, by decide, fun _ _ => rfl, by decide, by decide,
    dstoreObjResize_c_truncates 6 2 Env.reliable _ Env.reliable_noSpuriousEnoent rfl (by decide)
      (fun _ _ => rfl) (by decide) (by decide)⟩

/-! ## Runs on the file -/

section Runs

variable {e : Env} (he : e.NoSpuriousEnoent) (ha : e.AtomicWrites)
include he ha

/-- **No stale bytes, with C's locals.**  For a block size below `2^32`, against a backend that
reports `-ENOENT` only for holes, applies a WRITE whole or not at all and answers every block-size
query, on an object that reads zero from the file's size on, every run of calls in range by a
client that passes its size to every resize and keeps its file when a call fails leaves the
object reading zero from the size of the file the client ends with. -/
theorem runObjCalls_c_zeroAbove (bs : Nat) (cs : List ObjCall) (f : File) (w : World)
    (hbs : w.obj.bsize = bs) (hbs' : bs < 4294967296) (hr : ∀ c ∈ cs, c.InRange bs)
    (hz : ∀ p, f.size ≤ p → w.obj.view p = 0) :
    let r := runObjCalls Width.c bs cs e w
    BsizeAnswered r.2.log → AlongRun (fun f c _ => c.Honest f) f cs r.1 →
      ∀ p, (fileAfter f cs r.1).size ≤ p → r.2.obj.view p = 0 := by
  intro r hq
  have h : r = _ := runObjCalls_c_exact bs cs e w hbs hbs' hr hq
  rw [h] at hq ⊢
  exact runObjCalls_zeroAbove he ha bs cs f w hbs hz hq

/-- **The object is the file, with C's locals.**  For a block size below `2^32`, against a backend
that reports `-ENOENT` only for holes, applies a WRITE whole or not at all and answers every
block-size query, on an object holding a file, every run of calls in range by a client that
passes its size to every resize, makes no write of less than a block from a block boundary that
ends inside the file, and keeps its file when a call fails, leaves the object holding the file the
client ends with, and every read that returns `0` hands back the bytes of the file the client held
then. -/
theorem runObjCalls_c_refines (bs : Nat) (cs : List ObjCall) (f : File) (w : World)
    (hbs : w.obj.bsize = bs) (hbs' : bs < 4294967296) (hr : ∀ c ∈ cs, c.InRange bs)
    (hview : w.obj.view = f.data) :
    let r := runObjCalls Width.c bs cs e w
    BsizeAnswered r.2.log →
      AlongRun (fun f c rc => c.Honest f ∧ c.SparesTail bs f ∧ c.ResizeSucceeded rc) f cs r.1 →
      FileAnswers f cs r.1 ∧ r.2.obj.view = (fileAfter f cs r.1).data := by
  intro r hq
  have h : r = _ := runObjCalls_c_exact bs cs e w hbs hbs' hr hq
  rw [h] at hq ⊢
  exact runObjCalls_refines he ha bs cs f w hbs hview hq

end Runs

/-- A write of six bytes on blocks of four, a shrink to two bytes and a read of a block, against a
backend that fails no call. -/
theorem runObjCalls_c_refines_shrink :
    let w : World := ⟨⟨4, by decide, by decide, fun _ => none⟩, []⟩
    let cs := [ObjCall.io (.pwrite 0 6 fun _ => 7), .resize 6 2, .io (.pread 0 4 zeroed)]
    Env.reliable.NoSpuriousEnoent ∧ Env.reliable.AtomicWrites ∧ w.obj.bsize = 4 ∧
      4 < 4294967296 ∧ (∀ c ∈ cs, c.InRange 4) ∧ w.obj.view = File.empty.data ∧
      let r := runObjCalls Width.c 4 cs Env.reliable w
      BsizeAnswered r.2.log ∧
        (BsizeAnswered r.2.log →
          AlongRun (fun f c rc => c.Honest f ∧ c.SparesTail 4 f ∧ c.ResizeSucceeded rc)
            File.empty cs r.1 →
          FileAnswers File.empty cs r.1 ∧ r.2.obj.view = (fileAfter File.empty cs r.1).data) :=
  ⟨Env.reliable_noSpuriousEnoent, Env.reliable_atomicWrites, rfl, by decide, by decide, rfl,
    runObjCalls_reliable_answered _ _ _ _ bsizeAnswered_nil,
    runObjCalls_c_refines Env.reliable_noSpuriousEnoent Env.reliable_atomicWrites 4 _ _ _ rfl
      (by decide) (by decide) rfl⟩

/-- The run above with a write of one byte at the start of the second block in between, which
zeroes the rest of that block. -/
theorem runObjCalls_c_zeroAbove_shrink :
    let w : World := ⟨⟨4, by decide, by decide, fun _ => none⟩, []⟩
    let cs := [ObjCall.io (.pwrite 0 6 fun _ => 7), .io (.pwrite 4 1 fun _ => 8), .resize 6 2,
      .io (.pread 0 4 zeroed)]
    Env.reliable.NoSpuriousEnoent ∧ Env.reliable.AtomicWrites ∧ w.obj.bsize = 4 ∧
      4 < 4294967296 ∧ (∀ c ∈ cs, c.InRange 4) ∧ (∀ p, File.empty.size ≤ p → w.obj.view p = 0) ∧
      let r := runObjCalls Width.c 4 cs Env.reliable w
      BsizeAnswered r.2.log ∧
        (BsizeAnswered r.2.log → AlongRun (fun f c _ => c.Honest f) File.empty cs r.1 →
          ∀ p, (fileAfter File.empty cs r.1).size ≤ p → r.2.obj.view p = 0) :=
  ⟨Env.reliable_noSpuriousEnoent, Env.reliable_atomicWrites, rfl, by decide, by decide,
    fun _ _ => rfl, runObjCalls_reliable_answered _ _ _ _ bsizeAnswered_nil,
    runObjCalls_c_zeroAbove Env.reliable_noSpuriousEnoent Env.reliable_atomicWrites 4 _ _ _ rfl
      (by decide) (by decide) fun _ _ => rfl⟩

end Dsal
