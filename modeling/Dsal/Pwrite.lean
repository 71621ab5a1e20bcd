import Dsal.Pread

/-!
# Positional write: `pwrite_unaligned` and `dstore_pwrite`

An unaligned write is a read-modify-write of the blocks it touches: a scratch buffer of whole
blocks is allocated, the partial block at each edge is read into it through the hole-tolerant
reader, the caller's bytes are copied over it, and the scratch is written back in one aligned
WRITE.  The edge reads are skipped when an edge is on a block boundary, and the right edge is
also skipped when both edges fall in one block.  The results: the WRITE is the last operation
the call opens and comes only after every earlier call succeeded, a failed call leaves the object
as it was, and a write followed by a read of the same range gives the written bytes back.  The
bytes around the range are kept, except in one case: a write that starts on a block boundary and
ends inside that block zeroes the rest of the block, since neither edge read is made there.
-/

namespace Dsal

/-- An edge read of `pwrite_unaligned`: when `needed`, the block at `blkOffset` is read into the
scratch buffer at `pos`; otherwise `rc` and the scratch are kept. -/
def pwriteEdge (W : Width) (needed : Prop) [Decidable needed] (tmpbuf : Buf)
    (pos blkOffset bs : Nat) (rc : Int) : CoreM (Int × Buf) :=
  if needed then preadAlignedHandleHoles W tmpbuf pos bs blkOffset bs else pure (rc, tmpbuf)

/-- `pwrite_unaligned(obj, offset, count, bs, buf)`. -/
def pwriteUnaligned (W : Width) (offset count bs : Nat) (buf : Buf) : CoreM Int := do
  let leftBlkNum := W.u32 ↑(offset / bs)
  let rightBlkNum := W.u32 ↑((offset + count) / bs)
  let rightBlkNum := if (offset + count) % bs = 0 then W.u32 (↑rightBlkNum - 1) else rightBlkNum
  let numOfBlks := W.u32 (↑rightBlkNum - ↑leftBlkNum + 1)
  let ok ← calloc
  if !ok then pure ENOMEM.rc else
  let (rc, tmpbuf) ← pwriteEdge W (offset % bs ≠ 0) zeroed 0 (leftBlkNum * bs) bs 0
  if rc < 0 then pure rc else
  let (rc, tmpbuf) ← pwriteEdge W ((offset + count) % bs ≠ 0 ∧ leftBlkNum ≠ rightBlkNum) tmpbuf
    (W.u32 (↑numOfBlks - 1) * bs) (rightBlkNum * bs) bs rc
  if rc < 0 then pure rc else
  let bufPos := W.u32 (↑offset - ↑(leftBlkNum * bs))
  pwriteAligned (memcpy tmpbuf bufPos buf 0 count) 0 (numOfBlks * bs) (leftBlkNum * bs)

/-- `dstore_pwrite(obj, offset, count, bs, buf)`: an aligned request is written directly. -/
def dstorePwrite (W : Width) (offset count bs : Nat) (buf : Buf) : CoreM Int :=
  if count % bs = 0 ∧ offset % bs = 0 then pwriteAligned buf 0 count offset
  else pwriteUnaligned W offset count bs buf

/-- Along the calls `evs`, no operation is opened after a WRITE is, and no WRITE is opened after a
call that failed.  So there is at most one WRITE, every call before it succeeded, and it is the
last operation. -/
def WriteLast (evs : List Event) : Prop :=
  evs.Pairwise fun a b => (a.IsInit .write → ∀ t, ¬b.IsInit t) ∧ (a.Fault → ¬b.IsInit .write)

theorem WriteLast.of_no_write {evs : List Event} (h : ∀ ev ∈ evs, ¬ev.IsInit .write) :
    WriteLast evs := by
  induction evs with
  | nil => exact .nil
  | cons x xs ih =>
    exact .cons (fun b hb => ⟨fun hx => absurd hx (h x (.head _)), fun _ => h b (.tail _ hb)⟩)
      (ih fun y hy => h y (.tail _ hy))

/-- Calls that opened no WRITE and all succeeded, then calls with the WRITE last. -/
theorem WriteLast.append {a b : List Event} (ha : ∀ ev ∈ a, ¬ev.IsInit .write ∧ ¬ev.Fault)
    (hb : WriteLast b) : WriteLast (a ++ b) :=
  List.pairwise_append.2 ⟨of_no_write fun ev h => (ha ev h).1, hb,
    fun x hx _ _ => ⟨fun h => absurd h (ha x hx).1, fun h => absurd h (ha x hx).2⟩⟩

theorem ReadCalls.not_write {rc : Int} {evs : List Event} (h : ReadCalls rc evs) {ev : Event}
    (hev : ev ∈ evs) : ¬ev.IsInit .write :=
  fun hi => nomatch h.reads ev hev _ hi

section Unfold

variable (W : Width) (offset count bs : Nat) (buf : Buf) (e : Env) (w : World)

theorem pwriteUnaligned_eq :
    pwriteUnaligned W offset count bs buf e w =
      let leftBlkNum := W.u32 ↑(offset / bs)
      let rightBlkNum := if (offset + count) % bs = 0
        then W.u32 (↑(W.u32 ↑((offset + count) / bs)) - 1) else W.u32 ↑((offset + count) / bs)
      let numOfBlks := W.u32 (↑rightBlkNum - ↑leftBlkNum + 1)
      let w₁ : World := { w with log := w.log ++ [.alloc (e.fault w.log.length).isNone] }
      if (e.fault w.log.length).isNone then
        let l := pwriteEdge W (offset % bs ≠ 0) zeroed 0 (leftBlkNum * bs) bs 0 e w₁
        if l.1.1 < 0 then (l.1.1, l.2) else
        let r := pwriteEdge W ((offset + count) % bs ≠ 0 ∧ leftBlkNum ≠ rightBlkNum) l.1.2
          (W.u32 (↑numOfBlks - 1) * bs) (rightBlkNum * bs) bs l.1.1 e l.2
        if r.1.1 < 0 then (r.1.1, r.2) else
        pwriteAligned (memcpy r.1.2 (W.u32 (↑offset - ↑(leftBlkNum * bs))) buf 0 count) 0
          (numOfBlks * bs) (leftBlkNum * bs) e r.2
      else (ENOMEM.rc, w₁) := by
  simp only [pwriteUnaligned, calloc, CoreM.bind_run, CoreM.ite_run, CoreM.pure_run]
  cases e.fault w.log.length <;>
    simp only [Option.isNone_none, Option.isNone_some, Bool.not_true, Bool.not_false,
      Bool.false_eq_true, if_true, if_false]

end Unfold

section Edge

variable (W : Width) (needed : Prop) [Decidable needed] (tmpbuf : Buf) (pos blkOffset bs : Nat)
  (rc : Int) (e : Env) (w : World)

theorem pwriteEdge_obj : (pwriteEdge W needed tmpbuf pos blkOffset bs rc e w).2.obj = w.obj := by
  unfold pwriteEdge
  split
  · exact preadAlignedHandleHoles_obj _ _ _ _ _ _ _ _
  · rfl

theorem pwriteEdge_frame {q : Nat} (hq : needed → ¬(pos ≤ q ∧ q < pos + bs)) :
    (pwriteEdge W needed tmpbuf pos blkOffset bs rc e w).1.2 q = tmpbuf q := by
  unfold pwriteEdge
  split
  · exact preadAlignedHandleHoles_frame _ _ _ _ _ _ _ _ (hq ‹_›)
  · rfl

theorem pwriteEdge_rc (hrc : rc ≠ ENOENT.rc ∧ rc ≤ 0) :
    let r := pwriteEdge W needed tmpbuf pos blkOffset bs rc e w
    r.1.1 ≠ ENOENT.rc ∧ r.1.1 ≤ 0 := by
  unfold pwriteEdge
  split
  · exact preadAlignedHandleHoles_rc _ _ _ _ _ _ _ _
  · exact hrc

theorem pwriteEdge_log (hrc : rc = 0) :
    let r := pwriteEdge W needed tmpbuf pos blkOffset bs rc e w
    ∃ evs, r.2.log = w.log ++ evs ∧ ReadCalls r.1.1 evs := by
  unfold pwriteEdge
  split
  · exact preadAlignedHandleHoles_log _ _ _ _ _ _ _ _
  · exact ⟨[], (List.append_nil _).symm, hrc ▸ ReadCalls.nil⟩

theorem pwriteEdge_view (he : e.NoSpuriousEnoent) (hn : needed) (hbs : w.obj.bsize = bs)
    (ho : blkOffset % bs = 0)
    (h0 : (pwriteEdge Width.exact needed tmpbuf pos blkOffset bs rc e w).1.1 = 0) {j : Nat}
    (hj : j < bs) :
    (pwriteEdge Width.exact needed tmpbuf pos blkOffset bs rc e w).1.2 (pos + j) =
      w.obj.view (blkOffset + j) := by
  unfold pwriteEdge at h0 ⊢
  rw [if_pos hn] at h0 ⊢
  exact preadAlignedHandleHoles_view _ _ _ _ _ _ _ he hbs ho (Nat.mod_self _) h0 hj

end Edge

section Calls

variable (buf : Buf) (pos size offset : Nat) (e : Env) (w : World)

theorem pwriteAligned_log :
    ∃ evs, (pwriteAligned buf pos size offset e w).2.log = w.log ++ evs ∧ Lifecycle.Closed evs ∧
      WriteLast evs ∧ BsizeAnswered evs := by
  rcases alignedIo_eq .write buf pos size offset e w with h | h | ⟨_, _, h⟩ | ⟨_, _, h⟩ | h <;>
    refine ⟨_, by simp only [pwriteAligned, CoreM.bind_run, CoreM.pure_run, h]; rfl, ?_⟩ <;>
    simp [Lifecycle.Closed, WriteLast]

end Calls

section Success

variable (W : Width) (offset count bs : Nat) (buf : Buf) (e : Env) (w : World)

/-- **Inversion.**  The four ways an unaligned write ends: the allocation fails, the left edge
read fails, the right edge read fails, or the scratch buffer is written. -/
theorem pwriteUnaligned_cases :
    let leftBlkNum := W.u32 ↑(offset / bs)
    let rightBlkNum := if (offset + count) % bs = 0
      then W.u32 (↑(W.u32 ↑((offset + count) / bs)) - 1) else W.u32 ↑((offset + count) / bs)
    let numOfBlks := W.u32 (↑rightBlkNum - ↑leftBlkNum + 1)
    let l := pwriteEdge W (offset % bs ≠ 0) zeroed 0 (leftBlkNum * bs) bs 0 e
      { w with log := w.log ++ [.alloc true] }
    let r := pwriteEdge W ((offset + count) % bs ≠ 0 ∧ leftBlkNum ≠ rightBlkNum) l.1.2
      (W.u32 (↑numOfBlks - 1) * bs) (rightBlkNum * bs) bs l.1.1 e l.2
    let x := pwriteUnaligned W offset count bs buf e w
    x = (ENOMEM.rc, { w with log := w.log ++ [.alloc false] }) ∨ (l.1.1 < 0 ∧ x = (l.1.1, l.2)) ∨
      (l.1.1 = 0 ∧ r.1.1 < 0 ∧ x = (r.1.1, r.2)) ∨
      (l.1.1 = 0 ∧ r.1.1 = 0 ∧
        x = pwriteAligned (memcpy r.1.2 (W.u32 (↑offset - ↑(leftBlkNum * bs))) buf 0 count) 0
          (numOfBlks * bs) (leftBlkNum * bs) e r.2) := by
  rw [pwriteUnaligned_eq]
  dsimp only
  cases hok : (e.fault w.log.length).isNone
  · exact .inl rfl
  simp only [if_true]
  generalize (if (offset + count) % bs = 0 then W.u32 (↑(W.u32 ↑((offset + count) / bs)) - 1)
    else W.u32 ↑((offset + count) / bs)) = R
  generalize W.u32 ↑(offset / bs) = L
  have hl := pwriteEdge_rc W (offset % bs ≠ 0) zeroed 0 (L * bs) bs 0 e
    { w with log := w.log ++ [.alloc true] } (by simp)
  generalize pwriteEdge W (offset % bs ≠ 0) zeroed 0 (L * bs) bs 0 e
    { w with log := w.log ++ [.alloc true] } = l at hl ⊢
  by_cases h₁ : l.1.1 < 0
  · exact .inr (.inl ⟨h₁, if_pos h₁⟩)
  rw [if_neg h₁]
  have hl0 : l.1.1 = 0 := by dsimp only at hl; omega
  have hr := pwriteEdge_rc W ((offset + count) % bs ≠ 0 ∧ L ≠ R) l.1.2
    (W.u32 (↑(W.u32 (↑R - ↑L + 1)) - 1) * bs) (R * bs) bs l.1.1 e l.2 hl
  generalize pwriteEdge W ((offset + count) % bs ≠ 0 ∧ L ≠ R) l.1.2
    (W.u32 (↑(W.u32 (↑R - ↑L + 1)) - 1) * bs) (R * bs) bs l.1.1 e l.2 = r at hr ⊢
  by_cases h₂ : r.1.1 < 0
  · exact .inr (.inr (.inl ⟨hl0, h₂, if_pos h₂⟩))
  · exact .inr (.inr (.inr ⟨hl0, by dsimp only at hr; omega, if_neg h₂⟩))

/-- A successful unaligned write: the allocation and both edge reads succeeded, and the scratch
buffer, with the caller's bytes copied over it, was written over the blocks of the request. -/
theorem pwriteUnaligned_ok (h0 : (pwriteUnaligned W offset count bs buf e w).1 = 0) :
    let leftBlkNum := W.u32 ↑(offset / bs)
    let rightBlkNum := if (offset + count) % bs = 0
      then W.u32 (↑(W.u32 ↑((offset + count) / bs)) - 1) else W.u32 ↑((offset + count) / bs)
    let numOfBlks := W.u32 (↑rightBlkNum - ↑leftBlkNum + 1)
    let l := pwriteEdge W (offset % bs ≠ 0) zeroed 0 (leftBlkNum * bs) bs 0 e
      { w with log := w.log ++ [.alloc true] }
    let r := pwriteEdge W ((offset + count) % bs ≠ 0 ∧ leftBlkNum ≠ rightBlkNum) l.1.2
      (W.u32 (↑numOfBlks - 1) * bs) (rightBlkNum * bs) bs l.1.1 e l.2
    l.1.1 = 0 ∧ r.1.1 = 0 ∧ w.obj.Aligned (leftBlkNum * bs) (numOfBlks * bs) ∧
      (pwriteUnaligned W offset count bs buf e w).2.obj = w.obj.write (leftBlkNum * bs)
        (numOfBlks * bs) (memcpy r.1.2 (W.u32 (↑offset - ↑(leftBlkNum * bs))) buf 0 count) 0 := by
  obtain h | ⟨h₁, h⟩ | ⟨-, h₂, h⟩ | ⟨hl0, hr0, h⟩ :=
    pwriteUnaligned_cases W offset count bs buf e w <;> rw [h] at h0 ⊢
  · exact absurd h0 (by simp)
  · exact absurd h0 (by dsimp only; omega)
  · exact absurd h0 (by dsimp only; omega)
  · obtain ⟨hal, hw⟩ := pwriteAligned_ok _ _ _ _ _ _ h0
    rw [pwriteEdge_obj, pwriteEdge_obj] at hal hw
    exact ⟨hl0, hr0, hal, hw⟩

/-- A failed unaligned write leaves the object as it was, or its WRITE of the scratch buffer
failed part way over the blocks of the request. -/
theorem pwriteUnaligned_fail (h1 : (pwriteUnaligned W offset count bs buf e w).1 ≠ 0) :
    let leftBlkNum := W.u32 ↑(offset / bs)
    let rightBlkNum := if (offset + count) % bs = 0
      then W.u32 (↑(W.u32 ↑((offset + count) / bs)) - 1) else W.u32 ↑((offset + count) / bs)
    let numOfBlks := W.u32 (↑rightBlkNum - ↑leftBlkNum + 1)
    (pwriteUnaligned W offset count bs buf e w).2.obj = w.obj ∨
      ∃ src n, (pwriteUnaligned W offset count bs buf e w).2.obj =
        w.obj.tear (leftBlkNum * bs) (numOfBlks * bs) src 0 (e.torn n) := by
  obtain h | ⟨-, h⟩ | ⟨-, -, h⟩ | ⟨-, -, h⟩ :=
    pwriteUnaligned_cases W offset count bs buf e w <;> rw [h] at h1 ⊢
  · exact .inl rfl
  · exact .inl (pwriteEdge_obj _ _ _ _ _ _ _ _ _)
  · exact .inl ((pwriteEdge_obj _ _ _ _ _ _ _ _ _).trans (pwriteEdge_obj _ _ _ _ _ _ _ _ _))
  · rcases pwriteAligned_fail _ _ _ _ _ _ h1 with h' | ⟨n, h'⟩ <;>
      rw [h', pwriteEdge_obj, pwriteEdge_obj]
    · exact .inl rfl
    · exact .inr ⟨_, n, rfl⟩

/-- **Calls.**  An unaligned write keeps the lifecycle closed and opens its WRITE last, after
every earlier call succeeded; it asks no block size. -/
theorem pwriteUnaligned_log :
    ∃ evs, (pwriteUnaligned W offset count bs buf e w).2.log = w.log ++ evs ∧
      Lifecycle.Closed evs ∧ WriteLast evs ∧ BsizeAnswered evs := by
  have ha : ReadCalls 0 [.alloc true] := ReadCalls.alloc true
  obtain h | ⟨-, h⟩ | ⟨hl0, -, h⟩ | ⟨hl0, hr0, h⟩ :=
    pwriteUnaligned_cases W offset count bs buf e w <;> rw [h] <;> clear h
  · exact ⟨[.alloc false], rfl, rfl, .of_no_write (by simp [Event.IsInit]), by simp⟩
  all_goals
    generalize (if (offset + count) % bs = 0 then W.u32 (↑(W.u32 ↑((offset + count) / bs)) - 1)
      else W.u32 ↑((offset + count) / bs)) = R at *
    generalize W.u32 ↑(offset / bs) = L at *
    obtain ⟨a, hla, hra⟩ := pwriteEdge_log W (offset % bs ≠ 0) zeroed 0 (L * bs) bs 0 e
      { w with log := w.log ++ [.alloc true] } rfl
    generalize pwriteEdge W (offset % bs ≠ 0) zeroed 0 (L * bs) bs 0 e
      { w with log := w.log ++ [.alloc true] } = l at *
  · exact ⟨[.alloc true] ++ a, by rw [hla]; exact List.append_assoc _ _ _,
      (ha.append hra).closed, .of_no_write fun _ => (ha.append hra).not_write,
      (ha.append hra).answered⟩
  all_goals
    obtain ⟨b, hlb, hrb⟩ := pwriteEdge_log W ((offset + count) % bs ≠ 0 ∧ L ≠ R) l.1.2
      (W.u32 (↑(W.u32 (↑R - ↑L + 1)) - 1) * bs) (R * bs) bs l.1.1 e l.2 hl0
    have hp := ha.append ((hl0 ▸ hra).append hrb)
    generalize pwriteEdge W ((offset + count) % bs ≠ 0 ∧ L ≠ R) l.1.2
      (W.u32 (↑(W.u32 (↑R - ↑L + 1)) - 1) * bs) (R * bs) bs l.1.1 e l.2 = r at *
  · exact ⟨[.alloc true] ++ (a ++ b), by rw [hlb, hla]; simp only [List.append_assoc],
      hp.closed, .of_no_write fun _ => hp.not_write, hp.answered⟩
  · obtain ⟨c, hlc, hcc, hwc, hqc⟩ := pwriteAligned_log
      (memcpy r.1.2 (W.u32 (↑offset - ↑(L * bs))) buf 0 count) 0 (W.u32 (↑R - ↑L + 1) * bs)
      (L * bs) e r.2
    exact ⟨[.alloc true] ++ (a ++ b) ++ c, by rw [hlc, hlb, hla]; simp only [List.append_assoc],
      hp.closed.append hcc, .append (fun ev h => ⟨hp.not_write h, hp.benign hr0 ev h⟩) hwc,
      bsizeAnswered_append.2 ⟨hp.answered, hqc⟩⟩

end Success

section Dispatch

variable (W : Width) (offset count bs : Nat) (buf : Buf) (e : Env) (w : World)

/-- Against a backend that applies a WRITE whole or not at all, a write that fails leaves the
object as it was. -/
theorem dstorePwrite_fail (ha : e.AtomicWrites)
    (h1 : (dstorePwrite W offset count bs buf e w).1 ≠ 0) :
    (dstorePwrite W offset count bs buf e w).2.obj = w.obj := by
  unfold dstorePwrite at h1 ⊢
  split
  · rcases pwriteAligned_fail _ _ _ _ _ _ (by rwa [if_pos ‹_›] at h1) with h | ⟨n, h⟩ <;>
      simp only [h, ha.tear_eq]
  · rcases pwriteUnaligned_fail _ _ _ _ _ _ _ (by rwa [if_neg ‹_›] at h1) with h | ⟨_, n, h⟩ <;>
      simp only [h, ha.tear_eq]

theorem dstorePwrite_log :
    ∃ evs, (dstorePwrite W offset count bs buf e w).2.log = w.log ++ evs ∧
      Lifecycle.Closed evs ∧ WriteLast evs ∧ BsizeAnswered evs := by
  unfold dstorePwrite
  split
  · exact pwriteAligned_log _ _ _ _ _ _
  · exact pwriteUnaligned_log _ _ _ _ _ _ _

theorem dstorePwrite_answered : w.AnsweredSince (dstorePwrite W offset count bs buf e w).2 :=
  let ⟨evs, h, _, _, hq⟩ := dstorePwrite_log W offset count bs buf e w
  ⟨evs, h, hq⟩

theorem dstorePwrite_rc_nonpos : (dstorePwrite W offset count bs buf e w).1 ≤ 0 := by
  have hw := fun buf pos size offset w => alignedIo_rc_nonpos buf pos size offset e w .write
  unfold dstorePwrite
  split
  · exact hw _ _ _ _ _
  · obtain h | ⟨h₁, h⟩ | ⟨-, h₂, h⟩ | ⟨-, -, h⟩ :=
      pwriteUnaligned_cases W offset count bs buf e w <;> rw [h]
    · exact Errno.rc_nonpos _
    · exact Int.le_of_lt h₁
    · exact Int.le_of_lt h₂
    · exact hw _ _ _ _ _

theorem dstorePwrite_bsize :
    (dstorePwrite W offset count bs buf e w).2.obj.bsize = w.obj.bsize := by
  unfold dstorePwrite
  split
  · by_cases h0 : (pwriteAligned buf 0 count offset e w).1 = 0
    · rw [(pwriteAligned_ok _ _ _ _ _ _ h0).2, Obj.write_bsize]
    · rcases pwriteAligned_fail _ _ _ _ _ _ h0 with h | ⟨_, h⟩ <;> simp [h]
  · by_cases h0 : (pwriteUnaligned W offset count bs buf e w).1 = 0
    · rw [(pwriteUnaligned_ok _ _ _ _ _ _ _ h0).2.2.2, Obj.write_bsize]
    · rcases pwriteUnaligned_fail _ _ _ _ _ _ _ h0 with h | ⟨_, _, h⟩ <;> simp [h]

theorem KeepsLifecycle.dstorePwrite : KeepsLifecycle (dstorePwrite W offset count bs buf) :=
  fun e w =>
    let ⟨evs, h, hc, _⟩ := dstorePwrite_log W offset count bs buf e w
    ⟨evs, h, hc⟩

end Dispatch

/-! ## The WRITE comes last -/

/-- **The WRITE comes last.**  Whatever the backend and the allocator answer, `dstore_pwrite`
opens at most one WRITE, opens it only after every earlier call succeeded, and opens nothing after
it; so against a backend that applies a WRITE whole or not at all, a call that returns an error
leaves the object as it was.  Which edge reads come before the WRITE is not part of this:
`dstorePwrite_skips_edge_read` shows a request that needs one and makes none. -/
theorem dstorePwrite_writeLast (W : Width) (offset count bs : Nat) (buf : Buf) (e : Env)
    (w : World) (ha : e.AtomicWrites) :
    let r := dstorePwrite W offset count bs buf e w
    (∃ evs, r.2.log = w.log ++ evs ∧ WriteLast evs) ∧ (r.1 ≠ 0 → r.2.obj = w.obj) :=
  let ⟨evs, h, _, hw, _⟩ := dstorePwrite_log W offset count bs buf e w
  ⟨⟨evs, h, hw⟩, dstorePwrite_fail W offset count bs buf e w ha⟩

section Exact

/-- The last block of an unaligned request, `right_blk_num` after its decrement, taken exactly:
it holds the last byte of the request, and it is not before the first block. -/
theorem rightBlkNum_bounds {offset count bs R : Nat} (hbs : 0 < bs)
    (hal : ¬(count % bs = 0 ∧ offset % bs = 0))
    (hR : R = if (offset + count) % bs = 0 then ((↑((offset + count) / bs) : Int) - 1).toNat
      else (offset + count) / bs) :
    offset / bs ≤ R ∧ R * bs < offset + count ∧ offset + count ≤ R * bs + bs ∧
      ((offset + count) % bs = 0 → offset + count = R * bs + bs) := by
  have hE := Nat.div_add_mod (offset + count) bs
  have ho := Nat.div_add_mod offset bs
  have hmE := Nat.mod_lt (offset + count) hbs
  rw [Nat.mul_comm] at hE ho
  have hRb : R * bs < offset + count ∧ offset + count ≤ R * bs + bs ∧
      ((offset + count) % bs = 0 → offset + count = R * bs + bs) := by
    by_cases h : (offset + count) % bs = 0
    · rcases Nat.eq_zero_or_pos ((offset + count) / bs) with hz | hq
      · rw [hz, Nat.zero_mul] at hE
        exact absurd ⟨by rw [show count = 0 by omega]; simp, by rw [show offset = 0 by omega]; simp⟩
          hal
      rw [if_pos h] at hR
      have := Nat.le_mul_of_pos_left bs hq
      rw [show R = (offset + count) / bs - 1 by omega, Nat.sub_one_mul]
      omega
    · rw [if_neg h] at hR
      subst hR
      omega
  refine ⟨Nat.lt_succ_iff.1 (Nat.lt_of_mul_lt_mul_right (a := bs) ?_), hRb⟩
  have := Nat.mod_le count bs
  rw [Nat.succ_mul]
  omega

/-- The view after the scratch buffer is written back over blocks `L..R`: the caller's bytes in
the range, the bytes each edge read brought in, and zeros where the scratch kept its `calloc`
contents. -/
theorem writeBack_view {o : Obj} {offset count bs L R : Nat} {l r buf : Buf}
    (ho : L * bs + offset % bs = offset) (hmo : offset % bs < bs) (hLR : L ≤ R)
    (hRE : R * bs < offset + count) (hER : offset + count ≤ R * bs + bs)
    (hEmod : (offset + count) % bs = 0 → offset + count = R * bs + bs)
    (hlv : offset % bs ≠ 0 → ∀ j < bs, l (0 + j) = o.view (L * bs + j))
    (hlf : ∀ q, (offset % bs ≠ 0 → ¬(0 ≤ q ∧ q < 0 + bs)) → l q = zeroed q)
    (hrv : (offset + count) % bs ≠ 0 ∧ L ≠ R → ∀ j < bs, r ((R - L) * bs + j) = o.view (R * bs + j))
    (hrf : ∀ q, ((offset + count) % bs ≠ 0 ∧ L ≠ R → ¬((R - L) * bs ≤ q ∧ q < (R - L) * bs + bs)) →
      r q = l q) (p : Nat) :
    (if L * bs ≤ p ∧ p < L * bs + (R - L + 1) * bs then
      memcpy r (offset % bs) buf 0 count (0 + (p - L * bs)) else o.view p) =
      if offset ≤ p ∧ p < offset + count then buf (p - offset)
      else if offset % bs = 0 ∧ count < bs ∧ offset + count ≤ p ∧ p < offset + bs then 0
      else o.view p := by
  have hsub : (R - L) * bs = R * bs - L * bs := Nat.mul_sub_right_distrib _ _ _
  have hnum : (R - L + 1) * bs = R * bs - L * bs + bs := by rw [Nat.succ_mul, hsub]
  have hLRb : L * bs ≤ R * bs := Nat.mul_le_mul_right _ hLR
  have hcmp : (L = R ∧ L * bs = R * bs) ∨ (L ≠ R ∧ L * bs + bs ≤ R * bs) := by
    rcases Nat.lt_or_eq_of_le hLR with h | h
    · exact .inr ⟨Nat.ne_of_lt h, by rw [← Nat.succ_mul]; exact Nat.mul_le_mul_right _ h⟩
    · exact .inl ⟨h, h ▸ rfl⟩
  rw [hnum]
  by_cases hin : L * bs ≤ p ∧ p < L * bs + (R * bs - L * bs + bs)
  · rw [if_pos hin, Nat.zero_add, memcpy_apply]
    by_cases hw : offset ≤ p ∧ p < offset + count
    · rw [if_pos (by omega), if_pos hw]
      congr 1
      omega
    rw [if_neg (by omega), if_neg hw]
    by_cases hright : ((offset + count) % bs ≠ 0 ∧ L ≠ R) ∧ R * bs ≤ p
    · rw [show p - L * bs = (R - L) * bs + (p - R * bs) by omega, hrv hright.1 _ (by omega),
        if_neg (by omega)]
      congr 1
      omega
    rw [hrf _ (fun hn => by omega)]
    by_cases hleft : offset % bs ≠ 0 ∧ p < L * bs + bs
    · rw [show p - L * bs = 0 + (p - L * bs) by omega, hlv hleft.1 _ (by omega), if_neg (by omega)]
      congr 1
      omega
    rw [hlf _ (fun hn => by omega), zeroed_apply, if_pos (by omega)]
  · rw [if_neg hin, if_neg (by omega), if_neg (by omega)]

variable {e : Env} (he : e.NoSpuriousEnoent)
include he

theorem pwriteUnaligned_view (offset count bs : Nat) (buf : Buf) (w : World)
    (hbs : w.obj.bsize = bs) (hal : ¬(count % bs = 0 ∧ offset % bs = 0))
    (h0 : (pwriteUnaligned Width.exact offset count bs buf e w).1 = 0) (p : Nat) :
    (pwriteUnaligned Width.exact offset count bs buf e w).2.obj.view p =
      if offset ≤ p ∧ p < offset + count then buf (p - offset)
      else if offset % bs = 0 ∧ count < bs ∧ offset + count ≤ p ∧ p < offset + bs then 0
      else w.obj.view p := by
  have hbp : 0 < bs := hbs ▸ w.obj.bsize_pos
  obtain ⟨hl0, hr0, hal', hobj⟩ := pwriteUnaligned_ok Width.exact offset count bs buf e w h0
  rw [hobj, Obj.view_write hal']
  clear hobj hal' h0
  simp only [Width.exact_u32_natCast] at hl0 hr0 ⊢
  simp only [Width.exact_u32] at hl0 hr0 ⊢
  generalize hR : (if (offset + count) % bs = 0 then ((↑((offset + count) / bs) : Int) - 1).toNat
    else (offset + count) / bs) = R at hl0 hr0 ⊢
  obtain ⟨hLR, hRE, hER, hEmod⟩ := rightBlkNum_bounds hbp hal hR.symm
  have ho := Nat.div_add_mod offset bs
  rw [Nat.mul_comm] at ho
  have hnum : ((R : Int) - ↑(offset / bs) + 1).toNat = R - offset / bs + 1 := by omega
  have hpos : ((↑(R - offset / bs + 1) : Int) - 1).toNat = R - offset / bs := by omega
  have hbufPos : ((offset : Int) - ↑(offset / bs * bs)).toNat = offset % bs := by omega
  simp only [hnum, hpos, hbufPos] at hl0 hr0 ⊢
  generalize offset / bs = L at *
  have hlo := pwriteEdge_obj Width.exact (offset % bs ≠ 0) zeroed 0 (L * bs) bs 0 e
    { w with log := w.log ++ [.alloc true] }
  have hlv := pwriteEdge_view (offset % bs ≠ 0) zeroed 0 (L * bs) bs 0 e
    { w with log := w.log ++ [.alloc true] } he
  have hlf := fun q => pwriteEdge_frame Width.exact (offset % bs ≠ 0) zeroed 0 (L * bs) bs 0 e
    { w with log := w.log ++ [.alloc true] } (q := q)
  generalize pwriteEdge Width.exact (offset % bs ≠ 0) zeroed 0 (L * bs) bs 0 e
    { w with log := w.log ++ [.alloc true] } = l at hl0 hr0 hlo hlv hlf ⊢
  have hrv := pwriteEdge_view ((offset + count) % bs ≠ 0 ∧ L ≠ R) l.1.2 ((R - L) * bs) (R * bs) bs
    l.1.1 e l.2 he
  have hrf := fun q => pwriteEdge_frame Width.exact ((offset + count) % bs ≠ 0 ∧ L ≠ R) l.1.2
    ((R - L) * bs) (R * bs) bs l.1.1 e l.2 (q := q)
  generalize pwriteEdge Width.exact ((offset + count) % bs ≠ 0 ∧ L ≠ R) l.1.2
    ((R - L) * bs) (R * bs) bs l.1.1 e l.2 = r at hr0 hrv hrf ⊢
  rw [hlo] at hrv
  exact writeBack_view ho (Nat.mod_lt offset hbp) hLR hRE hER hEmod
    (fun hn _ => hlv hn hbs (Nat.mul_mod_left _ _) hl0) hlf
    (fun hn _ => hrv hn (hlo ▸ hbs) (Nat.mul_mod_left _ _) hr0) hrf p

/-- **Write, byte by byte.**  A write that returns `0` puts the caller's bytes in its range and
keeps every other byte of the view, except the rest of the block after a write that starts on a
block boundary and ends inside that block: that is zeroed. -/
theorem dstorePwrite_view (offset count bs : Nat) (buf : Buf) (w : World)
    (hbs : w.obj.bsize = bs) (h0 : (dstorePwrite Width.exact offset count bs buf e w).1 = 0)
    (p : Nat) :
    (dstorePwrite Width.exact offset count bs buf e w).2.obj.view p =
      if offset ≤ p ∧ p < offset + count then buf (p - offset)
      else if offset % bs = 0 ∧ 0 < count ∧ count < bs ∧ offset + count ≤ p ∧ p < offset + bs
      then 0 else w.obj.view p := by
  unfold dstorePwrite at h0 ⊢
  by_cases hal : count % bs = 0 ∧ offset % bs = 0
  · rw [if_pos hal] at h0 ⊢
    obtain ⟨ha, hw⟩ := pwriteAligned_ok _ _ _ _ _ _ h0
    rw [hw, Obj.view_write ha, Nat.zero_add]
    split_ifs with _ hB
    · rfl
    · have := Nat.mod_eq_of_lt hB.2.2.1
      omega
    · rfl
  · rw [if_neg hal] at h0 ⊢
    have hc : offset % bs = 0 → 0 < count := fun ho =>
      Nat.pos_of_ne_zero fun hc => hal ⟨by simp [hc], ho⟩
    rw [pwriteUnaligned_view he _ _ _ _ _ hbs hal h0]
    split_ifs <;> first | rfl | omega

end Exact

/-! ## Write, then read -/

/-- **Reads return what was written.**  Against a backend that reports `-ENOENT` only for holes,
a read of the range a successful write just wrote, if it succeeds, returns the written bytes. -/
theorem dstorePwrite_dstorePread (offset count bs : Nat) (wbuf rbuf : Buf) (e : Env) (w : World)
    (he : e.NoSpuriousEnoent) (hbs : w.obj.bsize = bs) :
    let p := dstorePwrite Width.exact offset count bs wbuf e w
    let r := dstorePread Width.exact offset count bs rbuf e p.2
    p.1 = 0 → r.1.1 = 0 → ∀ j < count, r.1.2 j = wbuf j := by
  intro p r hp hr j hj
  rw [dstorePread_view he _ _ _ _ _ ((dstorePwrite_bsize _ _ _ _ _ _ _).trans hbs) hr hj,
    dstorePwrite_view he _ _ _ _ _ hbs hp, if_pos ⟨Nat.le_add_right _ _, by omega⟩,
    Nat.add_sub_cancel_left]

/-- A write of four bytes across a block edge, then a read of them. -/
theorem dstorePwrite_dstorePread_edge :
    let w : World := ⟨⟨4, by decide, by decide, fun _ => none⟩, []⟩
    Env.reliable.NoSpuriousEnoent ∧ w.obj.bsize = 4 ∧
      let p := dstorePwrite Width.exact 2 4 4 (fun _ => 7) Env.reliable w
      let r := dstorePread Width.exact 2 4 4 zeroed Env.reliable p.2
      p.1 = 0 → r.1.1 = 0 → ∀ j < 4, r.1.2 j = 7 :=
  ⟨Env.reliable_noSpuriousEnoent, rfl,
    dstorePwrite_dstorePread 2 4 4 (fun _ => 7) zeroed Env.reliable _
      Env.reliable_noSpuriousEnoent rfl⟩

/-- A write of 100 bytes at the start of a written block of 4096 returns `0` and zeroes the byte
after them. -/
theorem dstorePwrite_zeroes_block_tail :
    let w : World := ⟨⟨4096, by decide, by decide, fun i => if i = 0 then some fun _ => 65 else none⟩, []⟩
    let r := dstorePwrite Width.exact 0 100 4096 (fun _ => 66) Env.reliable w
    r.1 = 0 ∧ w.obj.view 100 = 65 ∧ r.2.obj.view 100 = 0 := by
  decide

/-- The same write opens its WRITE over block `0` with no READ before it, though it covers only
bytes `0` to `99` of the block: the three allocations, then the WRITE's init, submit, wait and
fini. -/
theorem dstorePwrite_skips_edge_read :
    let w : World :=
      ⟨⟨4096, by decide, by decide, fun i => if i = 0 then some fun _ => 65 else none⟩, []⟩
    let r := dstorePwrite Width.exact 0 100 4096 (fun _ => 66) Env.reliable w
    r.1 = 0 ∧ r.2.log = [.alloc true, .alloc true, .alloc true, .ioOpInit 3 .write 0 4096 0,
      .ioOpSubmit 3 0, .ioOpWait 3 0, .ioOpFini 3] := by
  decide

/-- A write of 100 bytes at `2^44 + 100` on 4 KiB blocks: `left_blk_num`, a `uint32_t`, wraps
from `2^32` to `0`, so the bytes overwrite offsets `100` to `199` of block `0`, and their own
offset stays unwritten. -/
theorem dstorePwrite_blkNum_wraps :
    let w : World :=
      ⟨⟨4096, by decide, by decide, fun i => if i = 0 then some fun _ => 65 else none⟩, []⟩
    let r := dstorePwrite Width.c 17592186044516 100 4096 (fun _ => 66) Env.reliable w
    r.1 = 0 ∧ w.obj.view 100 = 65 ∧ r.2.obj.view 100 = 66 ∧ r.2.obj.view 17592186044516 = 0 := by
  decide

end Dsal
