import Dsal.HandleHoles

/-!
# Positional read: `pread_unaligned` and `dstore_pread`

An unaligned read is served in three segments: the partial block at the left edge is read into a
one-block scratch buffer and its tail copied out; the run of whole blocks that follows is read
straight into the caller's buffer; the partial block at the right edge goes through the scratch
buffer again.  Every segment goes through the hole-tolerant reader.  The main result: against a
backend that reports `-ENOENT` only for holes, `dstore_pread` never returns `-ENOENT`, fails only
on a fault, and when it returns `0` the caller's buffer holds the byte view of the range.
-/

namespace Dsal

/-- The right edge of `pread_unaligned`: unless nothing is left, the block at `offset` is read into
the scratch buffer and its first `count` bytes copied to `buf + buf_pos`. -/
def readRightmost (W : Width) (tmpbuf : Buf) (offset count bs : Nat) (buf : Buf) (bufPos : Nat)
    (rc : Int) : CoreM (Int × Buf) :=
  if count = 0 then pure (rc, buf) else do
  let (rc, tmpbuf) ← preadAlignedHandleHoles W tmpbuf 0 bs offset bs
  if rc < 0 then pure (rc, buf) else
  pure (rc, memcpy buf bufPos tmpbuf 0 count)

/-- The `continous_aligned_read` label of `pread_unaligned`: the whole blocks from `offset` are
read straight into `buf + buf_pos`, then the right edge. -/
def continousAlignedRead (W : Width) (tmpbuf : Buf) (offset count bs : Nat) (buf : Buf)
    (bufPos : Nat) (rc : Int) : CoreM (Int × Buf) :=
  let contBlkCount := W.u32 ↑(count / bs)
  if contBlkCount > 0 then do
    let (rc, buf) ← preadAlignedHandleHoles W buf bufPos (contBlkCount * bs) offset bs
    if rc < 0 then pure (rc, buf) else
    readRightmost W tmpbuf (offset + contBlkCount * bs) (count - contBlkCount * bs) bs buf
      (W.u32 ↑(bufPos + contBlkCount * bs)) rc
  else readRightmost W tmpbuf offset count bs buf bufPos rc

/-- `pread_unaligned(obj, offset, count, bs, buf)`. -/
def preadUnaligned (W : Width) (offset count bs : Nat) (buf : Buf) : CoreM (Int × Buf) := do
  let ok ← calloc
  if !ok then pure (ENOMEM.rc, buf) else
  let tmpbuf := zeroed
  if offset % bs = 0 ∧ count ≥ bs then continousAlignedRead W tmpbuf offset count bs buf 0 0 else
  let leftBlkNum := W.u32 ↑(offset / bs)
  let leftBytes := W.u32 (↑offset - ↑(leftBlkNum * bs))
  let rightBytes := W.u32 (↑bs - ↑leftBytes)
  let readCount := W.u32 ↑(if count < rightBytes then count else rightBytes)
  let (rc, tmpbuf) ← preadAlignedHandleHoles W tmpbuf 0 bs (leftBlkNum * bs) bs
  if rc < 0 then pure (rc, buf) else
  let buf := memcpy buf 0 tmpbuf leftBytes readCount
  if count ≤ rightBytes then pure (rc, buf) else
  continousAlignedRead W tmpbuf (offset + readCount) (count - readCount) bs buf readCount rc

/-- `dstore_pread(obj, offset, count, bs, buf)`: an aligned request goes to the hole-tolerant
reader directly. -/
def dstorePread (W : Width) (offset count bs : Nat) (buf : Buf) : CoreM (Int × Buf) :=
  if count % bs = 0 ∧ offset % bs = 0 then preadAlignedHandleHoles W buf 0 count offset bs
  else preadUnaligned W offset count bs buf

section Unfold

variable (W : Width) (tmpbuf : Buf) (offset count bs : Nat) (buf : Buf) (bufPos : Nat) (rc : Int)
  (e : Env) (w : World)

theorem readRightmost_eq (hc : count ≠ 0) :
    readRightmost W tmpbuf offset count bs buf bufPos rc e w =
      let t := preadAlignedHandleHoles W tmpbuf 0 bs offset bs e w
      if t.1.1 < 0 then ((t.1.1, buf), t.2)
      else ((t.1.1, memcpy buf bufPos t.1.2 0 count), t.2) := by
  simp only [readRightmost, if_neg hc, CoreM.bind_run]
  split_ifs <;> rfl

theorem continousAlignedRead_eq :
    continousAlignedRead W tmpbuf offset count bs buf bufPos rc e w =
      let c := W.u32 ↑(count / bs)
      if c > 0 then
        let m := preadAlignedHandleHoles W buf bufPos (c * bs) offset bs e w
        if m.1.1 < 0 then ((m.1.1, m.1.2), m.2)
        else readRightmost W tmpbuf (offset + c * bs) (count - c * bs) bs m.1.2
          (W.u32 ↑(bufPos + c * bs)) m.1.1 e m.2
      else readRightmost W tmpbuf offset count bs buf bufPos rc e w := by
  simp only [continousAlignedRead, CoreM.bind_run, CoreM.ite_run]
  split_ifs <;> rfl

theorem preadUnaligned_eq :
    preadUnaligned W offset count bs buf e w =
      let w₁ : World := { w with log := w.log ++ [.alloc (e.fault w.log.length).isNone] }
      if (e.fault w.log.length).isNone then
        if offset % bs = 0 ∧ count ≥ bs then
          continousAlignedRead W zeroed offset count bs buf 0 0 e w₁
        else
          let leftBlkNum := W.u32 ↑(offset / bs)
          let leftBytes := W.u32 (↑offset - ↑(leftBlkNum * bs))
          let rightBytes := W.u32 (↑bs - ↑leftBytes)
          let readCount := W.u32 ↑(if count < rightBytes then count else rightBytes)
          let l := preadAlignedHandleHoles W zeroed 0 bs (leftBlkNum * bs) bs e w₁
          if l.1.1 < 0 then ((l.1.1, buf), l.2)
          else if count ≤ rightBytes then ((l.1.1, memcpy buf 0 l.1.2 leftBytes readCount), l.2)
          else continousAlignedRead W l.1.2 (offset + readCount) (count - readCount) bs
            (memcpy buf 0 l.1.2 leftBytes readCount) readCount l.1.1 e l.2
      else ((ENOMEM.rc, buf), w₁) := by
  simp only [preadUnaligned, calloc, CoreM.bind_run, CoreM.ite_run, CoreM.pure_run]
  cases e.fault w.log.length <;>
    simp only [Option.isNone_none, Option.isNone_some, Bool.not_true, Bool.not_false,
      Bool.false_eq_true, if_true, if_false]

end Unfold

section Calls

variable (W : Width) (tmpbuf : Buf) (offset count bs : Nat) (buf : Buf) (bufPos : Nat) (rc : Int)
  (e : Env) (w : World)

/-- **Inversion.**  The five ways an unaligned read ends: the allocation fails; the request is a
run of whole blocks; the left edge fails; the left edge covers the request; or a run of whole
blocks follows the left edge. -/
theorem preadUnaligned_cases :
    let w₁ : World := { w with log := w.log ++ [.alloc true] }
    let leftBlkNum := W.u32 ↑(offset / bs)
    let leftBytes := W.u32 (↑offset - ↑(leftBlkNum * bs))
    let rightBytes := W.u32 (↑bs - ↑leftBytes)
    let readCount := W.u32 ↑(if count < rightBytes then count else rightBytes)
    let l := preadAlignedHandleHoles W zeroed 0 bs (leftBlkNum * bs) bs e w₁
    let r := preadUnaligned W offset count bs buf e w
    r = ((ENOMEM.rc, buf), { w with log := w.log ++ [.alloc false] }) ∨
      (offset % bs = 0 ∧ count ≥ bs) ∧
        r = continousAlignedRead W zeroed offset count bs buf 0 0 e w₁ ∨
      l.1.1 < 0 ∧ r = ((l.1.1, buf), l.2) ∨
      l.1.1 = 0 ∧ count ≤ rightBytes ∧ r = ((0, memcpy buf 0 l.1.2 leftBytes readCount), l.2) ∨
      l.1.1 = 0 ∧ rightBytes < count ∧ r = continousAlignedRead W l.1.2 (offset + readCount)
        (count - readCount) bs (memcpy buf 0 l.1.2 leftBytes readCount) readCount 0 e l.2 := by
  rw [preadUnaligned_eq]
  dsimp only
  cases (e.fault w.log.length).isNone
  · exact .inl rfl
  simp only [if_true]
  by_cases hal : offset % bs = 0 ∧ count ≥ bs
  · exact .inr (.inl ⟨hal, if_pos hal⟩)
  rw [if_neg hal]
  have hl := (preadAlignedHandleHoles_rc W zeroed 0 bs (W.u32 ↑(offset / bs) * bs) bs e
    { w with log := w.log ++ [.alloc true] }).2
  generalize preadAlignedHandleHoles W zeroed 0 bs (W.u32 ↑(offset / bs) * bs) bs e
    { w with log := w.log ++ [.alloc true] } = l at hl ⊢
  by_cases h₁ : l.1.1 < 0
  · exact .inr (.inr (.inl ⟨h₁, if_pos h₁⟩))
  have hl0 : l.1.1 = 0 := by omega
  rw [if_neg h₁, hl0]
  split
  · exact .inr (.inr (.inr (.inl ⟨rfl, ‹_›, rfl⟩)))
  · exact .inr (.inr (.inr (.inr ⟨rfl, by omega, rfl⟩)))

theorem readRightmost_rc (hrc : rc ≠ ENOENT.rc ∧ rc ≤ 0) :
    let r := readRightmost W tmpbuf offset count bs buf bufPos rc e w
    r.1.1 ≠ ENOENT.rc ∧ r.1.1 ≤ 0 := by
  by_cases hc : count = 0
  · simpa [readRightmost, hc] using hrc
  · rw [readRightmost_eq _ _ _ _ _ _ _ _ _ _ hc]
    dsimp only
    split_ifs <;> exact preadAlignedHandleHoles_rc _ _ _ _ _ _ _ _

theorem readRightmost_log (hrc : rc = 0) :
    let r := readRightmost W tmpbuf offset count bs buf bufPos rc e w
    ∃ evs, r.2.log = w.log ++ evs ∧ ReadCalls r.1.1 evs := by
  by_cases hc : count = 0
  · subst hrc
    exact ⟨[], by simp [readRightmost, hc], by simpa [readRightmost, hc] using ReadCalls.nil⟩
  · rw [readRightmost_eq _ _ _ _ _ _ _ _ _ _ hc]
    obtain ⟨evs, hl, hr⟩ := preadAlignedHandleHoles_log W tmpbuf 0 bs offset bs e w
    dsimp only
    split_ifs <;> exact ⟨evs, hl, hr⟩

theorem continousAlignedRead_rc (hrc : rc ≠ ENOENT.rc ∧ rc ≤ 0) :
    let r := continousAlignedRead W tmpbuf offset count bs buf bufPos rc e w
    r.1.1 ≠ ENOENT.rc ∧ r.1.1 ≤ 0 := by
  rw [continousAlignedRead_eq]
  dsimp only
  have hm := preadAlignedHandleHoles_rc W buf bufPos (W.u32 ↑(count / bs) * bs) offset bs e w
  split_ifs
  · exact hm
  · exact readRightmost_rc _ _ _ _ _ _ _ _ _ _ hm
  · exact readRightmost_rc _ _ _ _ _ _ _ _ _ _ hrc

theorem continousAlignedRead_log (hrc : rc = 0) :
    let r := continousAlignedRead W tmpbuf offset count bs buf bufPos rc e w
    ∃ evs, r.2.log = w.log ++ evs ∧ ReadCalls r.1.1 evs := by
  rw [continousAlignedRead_eq]
  dsimp only
  obtain ⟨a, hla, hra⟩ :=
    preadAlignedHandleHoles_log W buf bufPos (W.u32 ↑(count / bs) * bs) offset bs e w
  have hm := preadAlignedHandleHoles_rc W buf bufPos (W.u32 ↑(count / bs) * bs) offset bs e w
  split_ifs with hc hneg
  · exact ⟨a, hla, hra⟩
  · have hm0 : (preadAlignedHandleHoles W buf bufPos (W.u32 ↑(count / bs) * bs) offset bs e
        w).1.1 = 0 := by omega
    obtain ⟨b, hlb, hrb⟩ := readRightmost_log W tmpbuf _ _ bs _ _ _ e _ hm0
    exact ⟨a ++ b, by rw [hlb, hla, List.append_assoc], (hm0 ▸ hra).append hrb⟩
  · exact readRightmost_log _ _ _ _ _ _ _ _ _ _ hrc

theorem preadUnaligned_rc :
    let r := preadUnaligned W offset count bs buf e w
    r.1.1 ≠ ENOENT.rc ∧ r.1.1 ≤ 0 := by
  have h0 : (0 : Int) ≠ ENOENT.rc ∧ (0 : Int) ≤ 0 := by simp
  obtain h | ⟨-, h⟩ | ⟨-, h⟩ | ⟨hl0, -, h⟩ | ⟨-, -, h⟩ :=
    preadUnaligned_cases W offset count bs buf e w <;> rw [h]
  · simp
  · exact continousAlignedRead_rc _ _ _ _ _ _ _ _ _ _ h0
  · exact preadAlignedHandleHoles_rc _ _ _ _ _ _ _ _
  · exact hl0 ▸ preadAlignedHandleHoles_rc _ _ _ _ _ _ _ _
  · exact continousAlignedRead_rc _ _ _ _ _ _ _ _ _ _ h0

theorem preadUnaligned_log :
    let r := preadUnaligned W offset count bs buf e w
    ∃ evs, r.2.log = w.log ++ evs ∧ ReadCalls r.1.1 evs := by
  have ha : ReadCalls 0 [.alloc true] := ReadCalls.alloc true
  obtain ⟨a, hla, hra⟩ := preadAlignedHandleHoles_log W zeroed 0 bs (W.u32 ↑(offset / bs) * bs) bs
    e { w with log := w.log ++ [.alloc true] }
  obtain h | ⟨-, h⟩ | ⟨-, h⟩ | ⟨hl0, -, h⟩ | ⟨hl0, -, h⟩ :=
    preadUnaligned_cases W offset count bs buf e w <;> rw [h]
  · exact ⟨[.alloc false], rfl, ReadCalls.alloc false⟩
  · obtain ⟨b, hlb, hb⟩ := continousAlignedRead_log W zeroed offset count bs buf 0 0 e _ rfl
    exact ⟨[.alloc true] ++ b, by rw [hlb]; exact List.append_assoc _ _ _, ha.append hb⟩
  · exact ⟨[.alloc true] ++ a, by rw [hla]; exact List.append_assoc _ _ _, ha.append hra⟩
  · exact ⟨[.alloc true] ++ a, by rw [hla]; exact List.append_assoc _ _ _, ha.append (hl0 ▸ hra)⟩
  · obtain ⟨b, hlb, hb⟩ := continousAlignedRead_log W _ _ _ bs _ _ 0 e _ rfl
    exact ⟨[.alloc true] ++ (a ++ b), by rw [hlb, hla]; simp only [List.append_assoc],
      ha.append ((hl0 ▸ hra).append hb)⟩

theorem dstorePread_rc :
    let r := dstorePread W offset count bs buf e w
    r.1.1 ≠ ENOENT.rc ∧ r.1.1 ≤ 0 := by
  unfold dstorePread
  split
  · exact preadAlignedHandleHoles_rc _ _ _ _ _ _ _ _
  · exact preadUnaligned_rc _ _ _ _ _ _ _

theorem dstorePread_log :
    let r := dstorePread W offset count bs buf e w
    ∃ evs, r.2.log = w.log ++ evs ∧ ReadCalls r.1.1 evs := by
  unfold dstorePread
  split
  · exact preadAlignedHandleHoles_log _ _ _ _ _ _ _ _
  · exact preadUnaligned_log _ _ _ _ _ _ _

theorem KeepsLifecycle.dstorePread : KeepsLifecycle (dstorePread W offset count bs buf) :=
  fun e w =>
    let ⟨evs, h, hr⟩ := dstorePread_log W offset count bs buf e w
    ⟨evs, h, hr.closed⟩

theorem readRightmost_obj :
    (readRightmost W tmpbuf offset count bs buf bufPos rc e w).2.obj = w.obj := by
  by_cases hc : count = 0
  · simp [readRightmost, hc]
  · rw [readRightmost_eq _ _ _ _ _ _ _ _ _ _ hc]
    dsimp only
    split_ifs <;> exact preadAlignedHandleHoles_obj _ _ _ _ _ _ _ _

theorem continousAlignedRead_obj :
    (continousAlignedRead W tmpbuf offset count bs buf bufPos rc e w).2.obj = w.obj := by
  rw [continousAlignedRead_eq]
  dsimp only
  split_ifs <;> simp only [readRightmost_obj, preadAlignedHandleHoles_obj]

theorem preadUnaligned_obj : (preadUnaligned W offset count bs buf e w).2.obj = w.obj := by
  obtain h | ⟨-, h⟩ | ⟨-, h⟩ | ⟨-, -, h⟩ | ⟨-, -, h⟩ :=
    preadUnaligned_cases W offset count bs buf e w <;> rw [h]
  · exact continousAlignedRead_obj _ _ _ _ _ _ _ _ _ _
  · exact preadAlignedHandleHoles_obj _ _ _ _ _ _ _ _
  · exact preadAlignedHandleHoles_obj _ _ _ _ _ _ _ _
  · exact (continousAlignedRead_obj _ _ _ _ _ _ _ _ _ _).trans
      (preadAlignedHandleHoles_obj _ _ _ _ _ _ _ _)

/-- Reads are read-only: whatever the widths and whatever the backend answers, `dstore_pread`
leaves the object as it was. -/
theorem dstorePread_obj : (dstorePread W offset count bs buf e w).2.obj = w.obj := by
  unfold dstorePread
  split
  · exact preadAlignedHandleHoles_obj _ _ _ _ _ _ _ _
  · exact preadUnaligned_obj _ _ _ _ _ _ _

end Calls

section Exact

variable {e : Env} (he : e.NoSpuriousEnoent)
include he

theorem readRightmost_view (tmpbuf : Buf) (offset count bs : Nat) (buf : Buf) (bufPos : Nat)
    (rc : Int) (w : World) (hbs : w.obj.bsize = bs) (ho : offset % bs = 0) (hc : count ≤ bs)
    (h0 : (readRightmost Width.exact tmpbuf offset count bs buf bufPos rc e w).1.1 = 0) :
    let r := readRightmost Width.exact tmpbuf offset count bs buf bufPos rc e w
    (∀ j < count, r.1.2 (bufPos + j) = w.obj.view (offset + j)) ∧
      ∀ q < bufPos, r.1.2 q = buf q := by
  intro r
  by_cases hc0 : count = 0
  · subst hc0
    simp [r, readRightmost]
  simp only [r, readRightmost_eq _ _ _ _ _ _ _ _ _ _ hc0] at h0 ⊢
  split_ifs at h0 ⊢ with hneg <;> dsimp only at h0 ⊢
  · exact absurd h0 (by omega)
  · refine ⟨fun j hj => ?_, fun q hq => memcpy_outside (by omega)⟩
    rw [memcpy_inside (by omega) (by omega), Nat.add_sub_cancel_left, Nat.zero_add,
      ← Nat.zero_add j, preadAlignedHandleHoles_view _ _ _ _ _ _ _ he hbs ho (Nat.mod_self _)
        h0 (by omega)]
    simp

theorem continousAlignedRead_view (tmpbuf : Buf) (offset count bs : Nat) (buf : Buf)
    (bufPos : Nat) (rc : Int) (w : World) (hbs : w.obj.bsize = bs) (ho : offset % bs = 0)
    (h0 : (continousAlignedRead Width.exact tmpbuf offset count bs buf bufPos rc e w).1.1 = 0) :
    let r := continousAlignedRead Width.exact tmpbuf offset count bs buf bufPos rc e w
    (∀ j < count, r.1.2 (bufPos + j) = w.obj.view (offset + j)) ∧
      ∀ q < bufPos, r.1.2 q = buf q := by
  intro r
  have hdm := Nat.div_add_mod count bs
  have hml := Nat.mod_lt count (hbs ▸ w.obj.bsize_pos)
  rw [Nat.mul_comm] at hdm
  simp only [r, continousAlignedRead_eq, Width.exact_u32_natCast] at h0 ⊢
  split_ifs at h0 ⊢ with hc hm
  · dsimp only at h0; exact absurd h0 (by omega)
  · have hm0 :=
      (preadAlignedHandleHoles_rc Width.exact buf bufPos (count / bs * bs) offset bs e w).2
    have hobj := preadAlignedHandleHoles_obj Width.exact buf bufPos (count / bs * bs) offset bs e w
    obtain ⟨hv, hf⟩ := readRightmost_view he tmpbuf _ _ bs _ _ _ _ (hobj ▸ hbs)
      (by rw [Nat.add_mul_mod_self_right, ho]) (by omega) h0
    rw [hobj] at hv
    refine ⟨fun j hj => ?_, fun q hq => ?_⟩
    · by_cases hj' : j < count / bs * bs
      · rw [hf _ (by omega), preadAlignedHandleHoles_view _ _ _ _ _ _ _ he hbs ho (by simp)
          (by omega) hj']
      · have := hv (j - count / bs * bs) (by omega)
        rwa [show bufPos + count / bs * bs + (j - count / bs * bs) = bufPos + j by omega,
          show offset + count / bs * bs + (j - count / bs * bs) = offset + j by omega] at this
    · rw [hf _ (by omega), preadAlignedHandleHoles_frame _ _ _ _ _ _ _ _ (by omega)]
  · have hc0 : count / bs = 0 := Nat.eq_zero_of_not_pos hc
    rw [hc0, Nat.zero_mul] at hdm
    exact readRightmost_view he _ _ _ _ _ _ _ _ hbs ho (by omega) h0

/-- The left edge: the scratch block read from the start of the block holding `offset` has the
bytes from `offset` on at `offset % bs`. -/
theorem leftBlock_view (offset bs : Nat) (w : World) (hbs : w.obj.bsize = bs)
    (h0 : (preadAlignedHandleHoles Width.exact zeroed 0 bs (offset / bs * bs) bs e w).1.1 = 0)
    {k : Nat} (hk : offset % bs + k < bs) :
    (preadAlignedHandleHoles Width.exact zeroed 0 bs (offset / bs * bs) bs e w).1.2
      (offset % bs + k) = w.obj.view (offset + k) := by
  have hdm := Nat.div_add_mod offset bs
  rw [Nat.mul_comm] at hdm
  rw [← Nat.zero_add (offset % bs + k), preadAlignedHandleHoles_view _ _ _ _ _ _ _ he hbs
    (Nat.mul_mod_left _ _) (Nat.mod_self _) h0 hk, ← Nat.add_assoc, hdm]

theorem preadUnaligned_view (offset count bs : Nat) (buf : Buf) (w : World)
    (hbs : w.obj.bsize = bs) (h0 : (preadUnaligned Width.exact offset count bs buf e w).1.1 = 0)
    {j : Nat} (hj : j < count) :
    (preadUnaligned Width.exact offset count bs buf e w).1.2 j = w.obj.view (offset + j) := by
  have hml := Nat.mod_lt offset (hbs ▸ w.obj.bsize_pos)
  have hdm := Nat.div_add_mod offset bs
  rw [Nat.mul_comm] at hdm
  have hlb : (↑offset - ↑(offset / bs * bs) : Int).toNat = offset % bs := by omega
  have hrb : (↑bs - ↑(offset % bs) : Int).toNat = bs - offset % bs := by omega
  have hbs₁ : ({ w with log := w.log ++ [.alloc true] } : World).obj.bsize = bs := hbs
  obtain h | ⟨hal, h⟩ | ⟨hneg, h⟩ | ⟨hl0, hc, h⟩ | ⟨hl0, hc, h⟩ :=
    preadUnaligned_cases Width.exact offset count bs buf e w <;> rw [h] at h0 ⊢
  · exact absurd h0 (by simp)
  · simpa using (continousAlignedRead_view he _ _ _ _ _ _ _ _ hbs₁ hal.1 h0).1 j hj
  · exact absurd h0 (by dsimp only; omega)
  all_goals
    simp only [Width.exact_u32_natCast] at hl0 h0 hc ⊢
    simp only [Width.exact_u32, hlb, hrb] at h0 hc ⊢
    generalize hrd : (if count < bs - offset % bs then count else bs - offset % bs) = rd at h0 ⊢
    replace hrd : rd = min count (bs - offset % bs) := by rw [← hrd]; split_ifs <;> omega
  · rw [memcpy_inside (Nat.zero_le _) (by omega), Nat.sub_zero,
      leftBlock_view he _ _ _ hbs₁ hl0 (by omega)]
  · have hobj := preadAlignedHandleHoles_obj Width.exact zeroed 0 bs (offset / bs * bs) bs e
      { w with log := w.log ++ [.alloc true] }
    obtain ⟨hv, hf⟩ := continousAlignedRead_view he _ _ _ bs _ _ _ _ (by rw [hobj]; exact hbs)
      (by rw [show offset + rd = (offset / bs + 1) * bs by
        rw [Nat.add_mul]; omega]; exact Nat.mul_mod_left _ _) h0
    by_cases hj' : j < rd
    · rw [hf j hj', memcpy_inside (Nat.zero_le _) (by omega), Nat.sub_zero]
      exact leftBlock_view he _ _ _ hbs₁ hl0 (by omega)
    · have := hv (j - rd) (by omega)
      rwa [hobj, show rd + (j - rd) = j by omega,
        show offset + rd + (j - rd) = offset + j by omega] at this

theorem dstorePread_view (offset count bs : Nat) (buf : Buf) (w : World)
    (hbs : w.obj.bsize = bs) (h0 : (dstorePread Width.exact offset count bs buf e w).1.1 = 0)
    {j : Nat} (hj : j < count) :
    (dstorePread Width.exact offset count bs buf e w).1.2 j = w.obj.view (offset + j) := by
  unfold dstorePread at h0 ⊢
  split_ifs at h0 ⊢ with hal
  · simpa using preadAlignedHandleHoles_view _ _ _ _ _ _ _ he hbs hal.2 hal.1 h0 hj
  · exact preadUnaligned_view he _ _ _ _ _ hbs h0 hj

end Exact

/-! ## Reads over holes -/

/-- **Reads over holes.**  Against a backend that reports `-ENOENT` only for holes, `dstore_pread`
never returns `-ENOENT`; it returns an error only when an allocation or a backend call failed for
another reason; and when it returns `0` the buffer holds the view of `[offset, offset + count)`,
whatever mix of written and unwritten blocks the range covers. -/
theorem dstorePread_correct (offset count bs : Nat) (buf : Buf) (e : Env) (w : World)
    (he : e.NoSpuriousEnoent) (hbs : w.obj.bsize = bs) :
    let r := dstorePread Width.exact offset count bs buf e w
    r.1.1 ≠ ENOENT.rc ∧ (∃ evs, r.2.log = w.log ++ evs ∧ (r.1.1 ≠ 0 → ∃ ev ∈ evs, ev.Fault)) ∧
      (r.1.1 = 0 → ∀ j < count, r.1.2 j = w.obj.view (offset + j)) :=
  let ⟨evs, hl, hr⟩ := dstorePread_log Width.exact offset count bs buf e w
  ⟨(dstorePread_rc Width.exact offset count bs buf e w).1, ⟨evs, hl, hr.fault⟩,
    fun h0 _ hj => dstorePread_view he offset count bs buf w hbs h0 hj⟩

/-- A read across the edge of a block of a new object. -/
theorem dstorePread_correct_unwritten :
    let w : World := ⟨⟨4, by decide, by decide, fun _ => none⟩, []⟩
    Env.reliable.NoSpuriousEnoent ∧ w.obj.bsize = 4 ∧
      let r := dstorePread Width.exact 3 6 4 zeroed Env.reliable w
      r.1.1 ≠ ENOENT.rc ∧ (∃ evs, r.2.log = w.log ++ evs ∧ (r.1.1 ≠ 0 → ∃ ev ∈ evs, ev.Fault)) ∧
        (r.1.1 = 0 → ∀ j < 6, r.1.2 j = w.obj.view (3 + j)) :=
  ⟨Env.reliable_noSpuriousEnoent, rfl,
    dstorePread_correct 3 6 4 zeroed Env.reliable _ Env.reliable_noSpuriousEnoent rfl⟩

end Dsal
