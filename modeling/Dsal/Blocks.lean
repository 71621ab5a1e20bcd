import Dsal.RunWidths

/-!
# Allocation: the blocks the calls write

The byte view hides which blocks of the object are written: a hole and a written block of zeros
read the same.  The backend keeps only the written blocks, so the blocks a call writes are what it
costs in space.  This module says which, whatever the backend answers and whatever part of a
failed WRITE it applied:

* a write that returns `0` writes the blocks holding a byte of its range, and for an empty range
  that does not start on a block boundary the block holding its offset, which the
  read-modify-write reads and writes back; a write that fails writes no other block
  (`dstorePwrite_blocks`);
* a resize writes only blocks holding a byte of the truncated range `[new_size, old_size)`, and
  all of them when it returns `0`: a truncation fills the holes of the range it cuts off
  (`dstoreObjResize_within`, `dstoreObjResize_allocates`);
* over a run, no call turns a written block into a hole, and the written blocks are those written
  before and blocks that the calls write (`runObjCalls_blocks`), also with C's locals while they
  stay in range (`runObjCalls_c_blocks`).
-/

namespace Dsal

/-! ## Blocks and byte ranges -/

/-- Block `i`, the bytes `[i * bs, i * bs + bs)`, holds a byte of `[lo, hi)`. -/
def BlockMeets (bs lo hi i : Nat) : Prop := lo < hi ∧ lo < i * bs + bs ∧ i * bs < hi

instance (bs lo hi i : Nat) : Decidable (BlockMeets bs lo hi i) :=
  inferInstanceAs (Decidable (_ ∧ _ ∧ _))

/-- The blocks `dstore_pwrite(obj, offset, count, bs, buf)` writes when it returns `0`. -/
def WritesBlock (bs offset count i : Nat) : Prop :=
  BlockMeets bs offset (offset + count) i ∨ count = 0 ∧ offset % bs ≠ 0 ∧ i = offset / bs

instance (bs offset count i : Nat) : Decidable (WritesBlock bs offset count i) :=
  inferInstanceAs (Decidable (_ ∨ _))

theorem div_le_iff_lt_next {bs lo : Nat} (hbs : 0 < bs) (i : Nat) :
    lo / bs ≤ i ↔ lo < i * bs + bs := by
  rw [← Nat.lt_succ_iff, Nat.div_lt_iff_lt_mul hbs, Nat.succ_mul]

theorem lt_iff_mul_lt {bs hi q : Nat} (h₁ : hi ≤ q * bs) (h₂ : q * bs < hi + bs) (i : Nat) :
    i < q ↔ i * bs < hi := by
  refine ⟨fun h => ?_, fun h => Nat.lt_of_mul_lt_mul_right (Nat.lt_of_lt_of_le h h₁)⟩
  have := Nat.mul_le_mul_right bs (Nat.succ_le_of_lt h)
  rw [Nat.succ_mul] at this
  omega

/-- The blocks holding a byte of `[lo, hi)` are `lo / bs` up to the first block boundary from `hi`
on. -/
theorem blockMeets_iff {bs lo hi q : Nat} (hbs : 0 < bs) (h₁ : hi ≤ q * bs)
    (h₂ : q * bs < hi + bs) (i : Nat) : BlockMeets bs lo hi i ↔ lo < hi ∧ lo / bs ≤ i ∧ i < q := by
  rw [BlockMeets, div_le_iff_lt_next hbs, lt_iff_mul_lt h₁ h₂]

theorem blockMeets_split {bs lo mid hi i : Nat} (hbs : 0 < bs) (hlm : lo ≤ mid) (hmh : mid ≤ hi) :
    BlockMeets bs lo hi i ↔ BlockMeets bs lo mid i ∨ BlockMeets bs mid hi i := by
  unfold BlockMeets
  omega

theorem BlockMeets.widen {bs lo lo' hi' hi i : Nat} (h : BlockMeets bs lo' hi' i) (hl : lo ≤ lo')
    (hh : hi' ≤ hi) : BlockMeets bs lo hi i := by
  unfold BlockMeets at *
  omega

/-! ## A write -/

/-- The extent of an aligned write is the blocks its range meets. -/
theorem writesBlock_aligned {bs offset count : Nat} (hbs : 0 < bs)
    (hal : count % bs = 0 ∧ offset % bs = 0) (i : Nat) :
    (offset / bs ≤ i ∧ i < (offset + count) / bs) ↔ WritesBlock bs offset count i := by
  have hq := Nat.div_mul_cancel (Nat.dvd_of_mod_eq_zero (show (offset + count) % bs = 0 by
    simp [Nat.add_mod, hal.1, hal.2]))
  rw [WritesBlock,
    blockMeets_iff hbs (q := (offset + count) / bs) (Nat.le_of_eq hq.symm) (by omega)]
  refine ⟨fun h => .inl ⟨Nat.lt_add_of_pos_right (Nat.pos_of_ne_zero fun hc => ?_), h⟩, ?_⟩
  · rw [hc, Nat.add_zero] at h
    omega
  · rintro (⟨-, h⟩ | ⟨-, hn, -⟩)
    · exact h
    · exact absurd hal.2 hn

/-- The blocks `L..R` an unaligned write reads, patches and writes back are those its range meets,
and for an empty range the block holding its offset. -/
theorem writesBlock_unaligned {bs offset count R : Nat} (hbs : 0 < bs)
    (hal : ¬(count % bs = 0 ∧ offset % bs = 0)) (hLR : offset / bs ≤ R)
    (hRE : R * bs < offset + count) (hER : offset + count ≤ R * bs + bs) (i : Nat) :
    (offset / bs ≤ i ∧ i < R + 1) ↔ WritesBlock bs offset count i := by
  rw [WritesBlock,
    blockMeets_iff hbs (q := R + 1) (by rwa [Nat.succ_mul]) (by rw [Nat.succ_mul]; omega)]
  have hempty : count = 0 → offset % bs ≠ 0 ∧ R = offset / bs := fun hc =>
    ⟨fun h => hal ⟨hc ▸ Nat.zero_mod bs, h⟩,
      Nat.le_antisymm ((Nat.le_div_iff_mul_le hbs).2 (by omega)) hLR⟩
  omega

/-- The extent a write hands the backend: its blocks are those `WritesBlock` names, a write that
returns `0` has written all of them, and a write that fails has written some of them or none. -/
theorem dstorePwrite_extent (offset count bs : Nat) (buf : Buf) (e : Env) (w : World)
    (hbs : w.obj.bsize = bs) :
    let r := dstorePwrite Width.exact offset count bs buf e w
    ∃ off size, (∀ i, (off / bs ≤ i ∧ i < (off + size) / bs) ↔ WritesBlock bs offset count i) ∧
      (r.1 = 0 → ∃ src, r.2.obj = w.obj.write off size src 0) ∧
      (r.1 ≠ 0 → r.2.obj = w.obj ∨ ∃ src n, r.2.obj = w.obj.tear off size src 0 (e.torn n)) := by
  have hbp : 0 < bs := hbs ▸ w.obj.bsize_pos
  unfold dstorePwrite
  by_cases hal : count % bs = 0 ∧ offset % bs = 0
  · simp only [if_pos hal]
    exact ⟨offset, count, writesBlock_aligned hbp hal,
      fun h0 => ⟨buf, (pwriteAligned_ok _ _ _ _ _ _ h0).2⟩,
      fun h1 => (pwriteAligned_fail _ _ _ _ _ _ h1).imp_right fun ⟨n, h⟩ => ⟨buf, n, h⟩⟩
  · simp only [if_neg hal]
    refine ⟨_, _, fun i => ?_, fun h0 => ⟨_, (pwriteUnaligned_ok _ _ _ _ _ _ _ h0).2.2.2⟩,
      pwriteUnaligned_fail _ _ _ _ _ _ _⟩
    simp only [Width.exact_u32_natCast]
    simp only [Width.exact_u32]
    generalize hR : (if (offset + count) % bs = 0 then ((↑((offset + count) / bs) : Int) - 1).toNat
      else (offset + count) / bs) = R
    obtain ⟨hLR, hRE, hER, -⟩ := rightBlkNum_bounds hbp hal hR.symm
    have hnum : ((R : Int) - ↑(offset / bs) + 1).toNat = R - offset / bs + 1 := by omega
    rw [hnum, Nat.mul_div_cancel _ hbp, ← Nat.add_mul, Nat.mul_div_cancel _ hbp,
      show offset / bs + (R - offset / bs + 1) = R + 1 by omega,
      writesBlock_unaligned hbp hal hLR hRE hER]

/-- A write that returns `0` writes the blocks holding a byte of its range, and for an empty range
that does not start on a block boundary the block holding its offset, and no other. -/
theorem dstorePwrite_blocks_ok (offset count bs : Nat) (buf : Buf) (e : Env) (w : World)
    (hbs : w.obj.bsize = bs) (h0 : (dstorePwrite Width.exact offset count bs buf e w).1 = 0)
    (i : Nat) :
    ((dstorePwrite Width.exact offset count bs buf e w).2.obj.blocks i).isSome ↔
      WritesBlock bs offset count i ∨ (w.obj.blocks i).isSome := by
  obtain ⟨off, size, hext, hok, -⟩ := dstorePwrite_extent offset count bs buf e w hbs
  obtain ⟨src, h⟩ := hok h0
  rw [h, Obj.write_isSome]
  simp only [hbs, hext]

/-- **A write's blocks.**  A write that returns `0` writes the blocks holding a byte of its range,
and for an empty range that does not start on a block boundary the block holding its offset.
Whatever it returns, and whatever part of its WRITE the backend applied, it writes no other block
and turns no written block into a hole. -/
theorem dstorePwrite_blocks (offset count bs : Nat) (buf : Buf) (e : Env) (w : World)
    (hbs : w.obj.bsize = bs) (i : Nat) :
    let r := dstorePwrite Width.exact offset count bs buf e w
    (r.1 = 0 ∧ WritesBlock bs offset count i ∨ (w.obj.blocks i).isSome →
      (r.2.obj.blocks i).isSome) ∧
      ((r.2.obj.blocks i).isSome → WritesBlock bs offset count i ∨ (w.obj.blocks i).isSome) := by
  by_cases h0 : (dstorePwrite Width.exact offset count bs buf e w).1 = 0
  · simp [dstorePwrite_blocks_ok offset count bs buf e w hbs h0, h0]
  obtain ⟨off, size, hext, -, hfail⟩ := dstorePwrite_extent offset count bs buf e w hbs
  have hold : ¬(_ ∧ WritesBlock bs offset count i) := fun h => h0 h.1
  dsimp only
  rcases hfail h0 with h | ⟨src, n, h⟩ <;> rw [h, or_iff_right hold]
  · exact ⟨id, .inr⟩
  · rw [Obj.tear_isSome]
    simp only [hbs]
    exact ⟨.inr, Or.imp_left fun ⟨_, h₁, h₂, _⟩ => (hext i).1 ⟨h₁, h₂⟩⟩

/-! ## A shrink -/

/-- From `o₀` to `o`: the block size is kept, and the written blocks are those of `o₀` and those
holding a byte of `[lo, hi)`. -/
structure Allocates (o₀ : Obj) (lo hi : Nat) (o : Obj) : Prop where
  bsize : o.bsize = o₀.bsize
  blocks : ∀ i, (o.blocks i).isSome ↔ BlockMeets o₀.bsize lo hi i ∨ (o₀.blocks i).isSome

theorem Allocates.refl (o : Obj) {lo hi : Nat} (h : hi ≤ lo) : Allocates o lo hi o :=
  ⟨rfl, fun _ => ⟨.inr, fun h' => h'.resolve_left fun hm => absurd hm.1 (Nat.not_lt.2 h)⟩⟩

theorem Allocates.trans {o₀ o₁ o₂ : Obj} {lo mid hi : Nat} (h₁ : Allocates o₀ lo mid o₁)
    (h₂ : Allocates o₁ mid hi o₂) (hlm : lo ≤ mid) (hmh : mid ≤ hi) : Allocates o₀ lo hi o₂ where
  bsize := h₂.bsize.trans h₁.bsize
  blocks i := by
    rw [h₂.blocks, h₁.blocks, h₁.bsize, blockMeets_split o₀.bsize_pos hlm hmh, or_assoc]
    exact or_left_comm

/-- A write of a non-empty range that returns `0` writes the blocks its range meets. -/
theorem dstorePwrite_allocates {offset count bs : Nat} {buf : Buf} {e : Env} {w : World}
    (hbs : w.obj.bsize = bs) (hc : 0 < count)
    (h0 : (dstorePwrite Width.exact offset count bs buf e w).1 = 0) :
    Allocates w.obj offset (offset + count) (dstorePwrite Width.exact offset count bs buf e w).2.obj
    where
  bsize := dstorePwrite_bsize _ _ _ _ _ _ _
  blocks i := by
    rw [dstorePwrite_blocks_ok offset count bs buf e w hbs h0 i, WritesBlock, ← hbs]
    exact or_congr_left (or_iff_left fun h => absurd h.1 (Nat.pos_iff_ne_zero.1 hc))

/-- A write of zeros that continues an allocated range and returns `0` extends it. -/
theorem Allocates.pwrite {o₀ : Obj} {lo mid count : Nat} {e : Env} {w : World}
    (ha : Allocates o₀ lo mid w.obj) (hlm : lo ≤ mid) (hc : 0 < count)
    (h0 : (dstorePwrite Width.exact mid count o₀.bsize zeroed e w).1 = 0) :
    Allocates o₀ lo (mid + count) (dstorePwrite Width.exact mid count o₀.bsize zeroed e w).2.obj :=
  ha.trans (dstorePwrite_allocates ha.bsize hc h0) hlm (Nat.le_add_right _ _)

/-- A shrink loop that ends without an error has written the blocks of every chunk. -/
theorem shrinkLoop_allocates {o₀ : Obj} {newSize : Nat} {e : Env} (n : Nat) :
    ∀ (index : Nat) (rc : Int) (w : World),
      Allocates o₀ newSize (newSize + index * dsalMaxIoSize) w.obj →
      0 ≤ (shrinkLoop Width.exact newSize o₀.bsize zeroed rc index n e w).1 →
        Allocates o₀ newSize (newSize + (index + n) * dsalMaxIoSize)
          (shrinkLoop Width.exact newSize o₀.bsize zeroed rc index n e w).2.obj := by
  induction n with
  | zero => exact fun _ _ _ ha _ => ha
  | succ n ih =>
    intro index rc w ha
    rw [shrinkLoop_succ]
    have hneg := dstorePwrite_rc_nonpos Width.exact (newSize + index * dsalMaxIoSize)
      dsalMaxIoSize o₀.bsize zeroed e w
    dsimp only
    split_ifs with h
    · exact fun h' => absurd h' (Int.not_le.2 h)
    · have ha' := ha.pwrite (e := e) (Nat.le_add_right _ _) (show 0 < dsalMaxIoSize by decide)
        (by omega)
      rw [Nat.add_assoc, ← Nat.succ_mul] at ha'
      rw [show index + (n + 1) = index + 1 + n by omega]
      exact ih _ _ _ ha'

/-- A shrink that returns `0` has written every block of the truncated range. -/
theorem dstoreObjShrink_allocates (oldSize newSize : Nat) {e : Env} (w : World)
    (hget : e.fault w.log.length = none) (hlt : newSize < oldSize)
    (h0 : (dstoreObjShrink Width.exact oldSize newSize e w).1 = 0) :
    Allocates w.obj newSize oldSize (dstoreObjShrink Width.exact oldSize newSize e w).2.obj := by
  rw [dstoreObjShrink_eq _ _ _ hget] at h0 ⊢
  dsimp only at h0 ⊢
  generalize hw₁ : ({ w with log := w.log ++ [.objGetBsize w.obj.bsize,
    .alloc (e.fault (w.log.length + 1)).isNone] } : World) = w₁ at h0 ⊢
  have ha₀ : Allocates w.obj newSize (newSize + 0 * dsalMaxIoSize) w₁.obj :=
    (show w₁.obj = w.obj by rw [← hw₁]) ▸ .refl w.obj (by omega)
  have ha := shrinkLoop_allocates (e := e) ((oldSize - newSize) / dsalMaxIoSize) 0 0 w₁ ha₀
  rw [Nat.zero_add] at ha
  have hdm := Nat.div_mul_le_self (oldSize - newSize) dsalMaxIoSize
  split_ifs at h0 ⊢ with hok hneg ht
  · exact absurd h0 (Int.ne_of_lt hneg)
  · have ha' := (ha (Int.not_lt.1 hneg)).pwrite (Nat.le_add_right _ _) (Nat.pos_of_ne_zero ht) h0
    rwa [Nat.add_assoc, Nat.add_sub_of_le hdm, Nat.add_sub_of_le (Nat.le_of_lt hlt)] at ha'
  · rw [show (oldSize - newSize) / dsalMaxIoSize * dsalMaxIoSize = oldSize - newSize by omega,
      Nat.add_sub_of_le (Nat.le_of_lt hlt)] at ha
    exact ha (by omega)
  · exact absurd h0 (by simp)

/-- A resize whose block-size query was answered and that returns `0` has written every block of
`[newSize, oldSize)`. -/
theorem dstoreObjResize_allocates (oldSize newSize : Nat) {e : Env} (w : World)
    (hq : BsizeAnswered (dstoreObjResize Width.exact oldSize newSize e w).2.log)
    (h0 : (dstoreObjResize Width.exact oldSize newSize e w).1 = 0) :
    Allocates w.obj newSize oldSize (dstoreObjResize Width.exact oldSize newSize e w).2.obj := by
  by_cases hle : oldSize ≤ newSize
  · simp only [dstoreObjResize, if_pos hle, CoreM.pure_run]
    exact .refl _ hle
  · have hget := dstoreObjResize_answered (Nat.lt_of_not_le hle) hq
    simp only [dstoreObjResize, if_neg hle, rcWrapLabel_pure] at h0 ⊢
    exact dstoreObjShrink_allocates oldSize newSize w hget (Nat.lt_of_not_le hle) h0

/-- From `o₀` to `o`: the block size is kept, no written block became a hole, and every block
written since holds a byte of `[lo, hi)`. -/
structure Within (o₀ : Obj) (lo hi : Nat) (o : Obj) : Prop where
  bsize : o.bsize = o₀.bsize
  keeps : ∀ i, (o₀.blocks i).isSome → (o.blocks i).isSome
  within : ∀ i, (o.blocks i).isSome → BlockMeets o₀.bsize lo hi i ∨ (o₀.blocks i).isSome

theorem Within.refl (o : Obj) (lo hi : Nat) : Within o lo hi o :=
  ⟨rfl, fun _ => id, fun _ => .inr⟩

/-- A write of zeros inside `[lo, hi)` stays within it, whatever it returns. -/
theorem Within.pwrite {o₀ : Obj} {lo hi off count : Nat} {w : World}
    (hw : Within o₀ lo hi w.obj) (e : Env) (hlo : lo ≤ off) (hhi : off + count ≤ hi)
    (hc : 0 < count) :
    Within o₀ lo hi (dstorePwrite Width.exact off count o₀.bsize zeroed e w).2.obj where
  bsize := (dstorePwrite_bsize _ _ _ _ _ _ _).trans hw.bsize
  keeps i h :=
    (dstorePwrite_blocks off count o₀.bsize zeroed e w hw.bsize i).1 (.inr (hw.keeps i h))
  within i h := ((dstorePwrite_blocks off count o₀.bsize zeroed e w hw.bsize i).2 h).elim
    (fun hm => .inl ((hm.resolve_right fun h' => absurd h'.1 (Nat.pos_iff_ne_zero.1 hc)).widen
      hlo hhi))
    (hw.within i)

theorem shrinkLoop_within {o₀ : Obj} {newSize hi : Nat} {e : Env} (n : Nat) :
    ∀ (index : Nat) (rc : Int) (w : World), Within o₀ newSize hi w.obj →
      newSize + (index + n) * dsalMaxIoSize ≤ hi →
      Within o₀ newSize hi
        (shrinkLoop Width.exact newSize o₀.bsize zeroed rc index n e w).2.obj := by
  induction n with
  | zero => exact fun _ _ _ hw _ => hw
  | succ n ih =>
    intro index rc w hw hhi
    rw [Nat.add_mul, Nat.add_mul, Nat.one_mul] at hhi
    rw [shrinkLoop_succ]
    have hw' := hw.pwrite e (Nat.le_add_right _ _)
      (show newSize + index * dsalMaxIoSize + dsalMaxIoSize ≤ hi by omega) (by decide)
    dsimp only
    split_ifs
    · exact hw'
    · exact ih _ _ _ hw' (by rw [Nat.add_mul, Nat.add_mul, Nat.one_mul]; omega)

/-- Whatever it returns, a shrink writes only blocks of the truncated range. -/
theorem dstoreObjShrink_within (oldSize newSize : Nat) {e : Env} (w : World)
    (hget : e.fault w.log.length = none) (hlt : newSize < oldSize) :
    Within w.obj newSize oldSize (dstoreObjShrink Width.exact oldSize newSize e w).2.obj := by
  rw [dstoreObjShrink_eq _ _ _ hget]
  dsimp only
  generalize hw₁ : ({ w with log := w.log ++ [.objGetBsize w.obj.bsize,
    .alloc (e.fault (w.log.length + 1)).isNone] } : World) = w₁
  have hw₀ : Within w.obj newSize oldSize w₁.obj :=
    (show w₁.obj = w.obj by rw [← hw₁]) ▸ .refl w.obj _ _
  have hdm := Nat.div_mul_le_self (oldSize - newSize) dsalMaxIoSize
  have hl := shrinkLoop_within (e := e) ((oldSize - newSize) / dsalMaxIoSize) 0 0 w₁ hw₀
    (by rw [Nat.zero_add]; omega)
  split_ifs with hok hneg ht
  · exact hl
  · exact hl.pwrite e (Nat.le_add_right _ _) (by omega) (Nat.pos_of_ne_zero ht)
  · exact hl
  · exact hw₀

/-- A resize whose block-size query was answered writes only blocks of `[newSize, oldSize)`. -/
theorem dstoreObjResize_within (oldSize newSize : Nat) {e : Env} (w : World)
    (hq : BsizeAnswered (dstoreObjResize Width.exact oldSize newSize e w).2.log) :
    Within w.obj newSize oldSize (dstoreObjResize Width.exact oldSize newSize e w).2.obj := by
  by_cases hle : oldSize ≤ newSize
  · simp only [dstoreObjResize, if_pos hle, CoreM.pure_run]
    exact .refl _ _ _
  · have hget := dstoreObjResize_answered (Nat.lt_of_not_le hle) hq
    simp only [dstoreObjResize, if_neg hle, rcWrapLabel_pure]
    exact dstoreObjShrink_within oldSize newSize w hget (Nat.lt_of_not_le hle)

/-! ## Runs -/

/-- The blocks a call writes when it returns `0`. -/
def ObjCall.Writes (bs i : Nat) : ObjCall → Prop
  | .io (.pread ..) => False
  | .io (.pwrite offset count _) => WritesBlock bs offset count i
  | .resize oldSize newSize => BlockMeets bs newSize oldSize i

instance (bs i : Nat) : DecidablePred (ObjCall.Writes bs i) := fun
  | .io (.pread ..) => isFalse id
  | .io (.pwrite offset count _) => inferInstanceAs (Decidable (WritesBlock bs offset count i))
  | .resize oldSize newSize => inferInstanceAs (Decidable (BlockMeets bs newSize oldSize i))

/-- **Step.**  A call with its block-size query answered turns no written block into a hole,
writes the blocks `Writes` names if it returns `0`, and writes no block outside them. -/
theorem ObjCall.exec_blocks (bs : Nat) (c : ObjCall) {e : Env} (w : World)
    (hbs : w.obj.bsize = bs) (hq : BsizeAnswered (c.exec Width.exact bs e w).2.log) (i : Nat) :
    ((c.exec Width.exact bs e w).1.1 = 0 ∧ c.Writes bs i ∨ (w.obj.blocks i).isSome →
      ((c.exec Width.exact bs e w).2.obj.blocks i).isSome) ∧
    (((c.exec Width.exact bs e w).2.obj.blocks i).isSome →
      c.Writes bs i ∨ (w.obj.blocks i).isSome) := by
  match c with
  | .io (.pread offset count buf) =>
    rw [show (ObjCall.io (.pread offset count buf)).exec Width.exact bs e w =
      dstorePread Width.exact offset count bs buf e w from rfl, dstorePread_obj]
    exact ⟨fun h => h.resolve_left fun h' => h'.2, .inr⟩
  | .io (.pwrite offset count buf) => exact dstorePwrite_blocks offset count bs buf e w hbs i
  | .resize oldSize newSize =>
    have hw := dstoreObjResize_within oldSize newSize w hq
    have hm : BlockMeets w.obj.bsize newSize oldSize i ↔
        (ObjCall.resize oldSize newSize).Writes bs i := hbs ▸ Iff.rfl
    refine ⟨fun h => ?_, fun h => (hw.within i h).imp_left hm.1⟩
    rcases h with ⟨h0, h⟩ | h
    · exact ((dstoreObjResize_allocates oldSize newSize w hq h0).blocks i).2 (.inl (hm.2 h))
    · exact hw.keeps i h

/-- **Allocation over runs.**  Whatever the backend and the allocator answer, once every block-size
query is answered, a run of `dstore_pread`, `dstore_pwrite` and `dstore_obj_resize` calls turns no
written block into a hole, writes every block that a call returning `0` writes, and writes no other
block: a block written at the end was written at the start or is one that a call of the run writes
when it returns `0`.  A resize from `oldSize` down to `newSize` that returns `0` leaves every block
of `[newSize, oldSize)` written, holes included. -/
theorem runObjCalls_blocks (bs : Nat) (cs : List ObjCall) {e : Env} (w : World)
    (hbs : w.obj.bsize = bs) (i : Nat) :
    let r := runObjCalls Width.exact bs cs e w
    BsizeAnswered r.2.log →
      ((∃ x ∈ cs.zip r.1, x.2.1 = 0 ∧ x.1.Writes bs i) ∨ (w.obj.blocks i).isSome →
        (r.2.obj.blocks i).isSome) ∧
      ((r.2.obj.blocks i).isSome → (∃ c ∈ cs, c.Writes bs i) ∨ (w.obj.blocks i).isSome) := by
  induction cs generalizing w with
  | nil => exact fun _ => ⟨fun h => h.resolve_left fun ⟨_, hx, _⟩ => by simp at hx, .inr⟩
  | cons c cs ih =>
    intro r hq
    obtain ⟨hq₁, hq₂⟩ := BsizeAnswered.cons hq
    obtain ⟨hlo, hup⟩ := c.exec_blocks bs w hbs hq₁ i
    obtain ⟨hlo', hup'⟩ := ih _ ((c.exec_bsize Width.exact bs hq₁).trans hbs) hq₂
    simp only [r, runObjCalls_cons, List.zip_cons_cons, List.mem_cons, exists_eq_or_imp,
      forall_eq_or_imp] at hlo' hup' ⊢
    refine ⟨fun h => hlo' ?_, fun h => ?_⟩
    · rcases h with (h | h) | h
      · exact .inr (hlo (.inl h))
      · exact .inl h
      · exact .inr (hlo (.inr h))
    · rcases hup' h with h | h
      · exact .inl (.inr h)
      · exact (hup h).imp_left .inl

/-- **Allocation over runs, with C's locals.**  For a block size below `2^32`, over every run of
`dstore_pread`, `dstore_pwrite` and `dstore_obj_resize` calls whose counts stay below `2^31` and
whose block numbers stay below `2^32`, whatever the backend and the allocator answer and whatever
part of a failed WRITE the backend applied, once every block-size query is answered: no written
block becomes a hole, every block that a call returning `0` writes is written at the end, and a
block written at the end was written at the start or is one that a call of the run writes when
it returns `0`. -/
theorem runObjCalls_c_blocks (bs : Nat) (cs : List ObjCall) {e : Env} (w : World)
    (hbs : w.obj.bsize = bs) (hbs' : bs < 4294967296) (hr : ∀ c ∈ cs, c.InRange bs) (i : Nat) :
    let r := runObjCalls Width.c bs cs e w
    BsizeAnswered r.2.log →
      ((∃ x ∈ cs.zip r.1, x.2.1 = 0 ∧ x.1.Writes bs i) ∨ (w.obj.blocks i).isSome →
        (r.2.obj.blocks i).isSome) ∧
      ((r.2.obj.blocks i).isSome → (∃ c ∈ cs, c.Writes bs i) ∨ (w.obj.blocks i).isSome) := by
  intro r hq
  have h : r = _ := runObjCalls_c_exact bs cs e w hbs hbs' hr hq
  rw [h] at hq ⊢
  exact runObjCalls_blocks bs cs w hbs i hq

/-- A zero-length write inside a block, then a shrink across two blocks, on a new object, against a
backend that fails no call. -/
theorem runObjCalls_c_blocks_truncate :
    let w : World := ⟨⟨4, by decide, by decide, fun _ => none⟩, []⟩
    let cs := [ObjCall.io (.pwrite 5 0 zeroed), .resize 10 3]
    w.obj.bsize = 4 ∧ 4 < 4294967296 ∧ (∀ c ∈ cs, c.InRange 4) ∧
      let r := runObjCalls Width.c 4 cs Env.reliable w
      BsizeAnswered r.2.log ∧
        ((∃ x ∈ cs.zip r.1, x.2.1 = 0 ∧ x.1.Writes 4 1) ∨ (w.obj.blocks 1).isSome →
          (r.2.obj.blocks 1).isSome) ∧
        ((r.2.obj.blocks 1).isSome → (∃ c ∈ cs, c.Writes 4 1) ∨ (w.obj.blocks 1).isSome) :=
  ⟨rfl, by decide, by decide, runObjCalls_reliable_answered _ _ _ _ bsizeAnswered_nil,
    runObjCalls_c_blocks 4 _ _ rfl (by decide) (by decide) 1
      (runObjCalls_reliable_answered _ _ _ _ bsizeAnswered_nil)⟩

end Dsal
