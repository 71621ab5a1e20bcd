import Dsal.Basic

/-!
# The backend object

The core talks to a block-oriented backend (`cortx_dstore.c`, over Motr).  Its object is a map from
block index to the block's `bsize` bytes, or `none` for a block never written: a hole.  The backend
serves READ and WRITE operations over block-aligned extents only, and a READ that covers a hole
fails with `-ENOENT`.  A WRITE that fails part way may have written some blocks of its extent and
not the others.  The byte view is what a reader of the object should see: the bytes of a written
block, and zeros inside a hole.
-/

namespace Dsal

/-- The operation kinds the core issues (`enum dstore_io_op_type`). -/
inductive IoOpType
  | write
  | read
  deriving DecidableEq, Repr

/-- The backend object: its block size and the contents of each block, `none` for a hole.  The
block size is positive, and an `ssize_t` as `obj_get_bsize` returns it. -/
structure Obj where
  bsize : Nat
  bsize_pos : 0 < bsize
  bsize_lt : bsize < 9223372036854775808
  blocks : Nat → Option (Fin bsize → Byte)

namespace Obj

variable (o : Obj)

/-- Byte `p` of the object as a reader should see it: zero inside a hole. -/
def view (p : Nat) : Byte :=
  match o.blocks (p / o.bsize) with
  | some b => b ⟨p % o.bsize, Nat.mod_lt p o.bsize_pos⟩
  | none => 0

/-- An extent the backend accepts: it starts and ends on block boundaries. -/
def Aligned (off size : Nat) : Prop := off % o.bsize = 0 ∧ size % o.bsize = 0

instance (off size : Nat) : Decidable (o.Aligned off size) :=
  inferInstanceAs (Decidable (_ ∧ _))

/-- Every block of the extent has been written. -/
def Written (off size : Nat) : Prop :=
  ∀ i, i < size / o.bsize → (o.blocks (off / o.bsize + i)).isSome

instance (off size : Nat) : Decidable (o.Written off size) :=
  Nat.decidableBallLT _ _

/-- The bytes of an extent, copied into `buf` at `pos`: what a READ delivers. -/
def read (off size : Nat) (buf : Buf) (pos : Nat) : Buf := memcpy buf pos o.view off size

/-- The object after a WRITE of the extent from `src` at `pos`: each block of the extent is
written whole. -/
def write (off size : Nat) (src : Buf) (pos : Nat) : Obj where
  bsize := o.bsize
  bsize_pos := o.bsize_pos
  bsize_lt := o.bsize_lt
  blocks i :=
    if off / o.bsize ≤ i ∧ i < (off + size) / o.bsize then
      some fun j => src (pos + (i * o.bsize + j - off))
    else o.blocks i

/-- The object after a WRITE of the extent from `src` at `pos` that failed part way: the blocks of
the extent that `done` picks are written, the others are as they were.  A WRITE over an extent the
backend does not accept writes nothing. -/
def tear (off size : Nat) (src : Buf) (pos : Nat) (done : Nat → Bool) : Obj where
  bsize := o.bsize
  bsize_pos := o.bsize_pos
  bsize_lt := o.bsize_lt
  blocks i :=
    if o.Aligned off size ∧ off / o.bsize ≤ i ∧ i < (off + size) / o.bsize ∧ done i then
      some fun j => src (pos + (i * o.bsize + j - off))
    else o.blocks i

/-- What the backend does with an operation that no fault interrupts: the code its wait returns,
the object after it, and the caller's buffer after it.  A READ that fails leaves `junk` in its
target. -/
def serve : IoOpType → Nat → Nat → Buf → Nat → Buf → Int × Obj × Buf
  | .read, off, size, buf, pos, junk =>
    if ¬o.Aligned off size then (EINVAL.rc, o, buf)
    else if o.Written off size then (0, o, o.read off size buf pos)
    else (ENOENT.rc, o, memcpy buf pos junk 0 size)
  | .write, off, size, buf, pos, _ =>
    if o.Aligned off size then (0, o.write off size buf pos, buf) else (EINVAL.rc, o, buf)

theorem serve_read (off size : Nat) (buf : Buf) (pos : Nat) (junk : Buf) :
    o.serve .read off size buf pos junk =
      if ¬o.Aligned off size then (EINVAL.rc, o, buf)
      else if o.Written off size then (0, o, o.read off size buf pos)
      else (ENOENT.rc, o, memcpy buf pos junk 0 size) := rfl

theorem serve_write (off size : Nat) (buf : Buf) (pos : Nat) (junk : Buf) :
    o.serve .write off size buf pos junk =
      if o.Aligned off size then (0, o.write off size buf pos, buf) else (EINVAL.rc, o, buf) := rfl

@[simp] theorem write_bsize (off size : Nat) (src : Buf) (pos : Nat) :
    (o.write off size src pos).bsize = o.bsize := rfl

/-- A WRITE writes the blocks of its extent and no other. -/
theorem write_isSome (off size : Nat) (src : Buf) (pos i : Nat) :
    ((o.write off size src pos).blocks i).isSome ↔
      (off / o.bsize ≤ i ∧ i < (off + size) / o.bsize) ∨ (o.blocks i).isSome := by
  simp only [write]
  split_ifs with h <;> simp [h]

@[simp] theorem tear_bsize (off size : Nat) (src : Buf) (pos : Nat) (done : Nat → Bool) :
    (o.tear off size src pos done).bsize = o.bsize := rfl

/-- A WRITE that failed part way has written some blocks of its extent and no other. -/
theorem tear_isSome (off size : Nat) (src : Buf) (pos : Nat) (done : Nat → Bool) (i : Nat) :
    ((o.tear off size src pos done).blocks i).isSome ↔
      (o.Aligned off size ∧ off / o.bsize ≤ i ∧ i < (off + size) / o.bsize ∧ done i) ∨
        (o.blocks i).isSome := by
  simp only [tear]
  split_ifs with h <;> simp [h]

/-- A failed WRITE that wrote no block, or whose extent the backend does not accept, left the
object as it was. -/
theorem tear_eq_self {off size : Nat} {done : Nat → Bool}
    (h : ¬o.Aligned off size ∨ ∀ i, done i = false) (src : Buf) (pos : Nat) :
    o.tear off size src pos done = o := by
  cases o
  simp only [tear, mk.injEq, heq_eq_eq, true_and]
  funext i
  refine if_neg fun ⟨ha, _, _, hd⟩ => ?_
  rcases h with h | h
  · exact h ha
  · exact Bool.false_ne_true ((h i).symm.trans hd)

variable {o}

/-- On an aligned extent, block membership and byte membership agree. -/
theorem div_mem_extent_iff {off size : Nat} (h : o.Aligned off size) (p : Nat) :
    (off / o.bsize ≤ p / o.bsize ∧ p / o.bsize < (off + size) / o.bsize) ↔
      (off ≤ p ∧ p < off + size) := by
  obtain ⟨ho, hs⟩ := h
  have hend : (off + size) % o.bsize = 0 := by simp [Nat.add_mod, ho, hs]
  rw [Nat.le_div_iff_mul_le o.bsize_pos, Nat.div_lt_iff_lt_mul o.bsize_pos,
    Nat.div_mul_cancel (Nat.dvd_of_mod_eq_zero ho),
    Nat.div_mul_cancel (Nat.dvd_of_mod_eq_zero hend)]

/-- **WRITE.**  An aligned WRITE puts the source bytes in the extent and leaves every other byte of
the view as it was. -/
theorem view_write {off size : Nat} (h : o.Aligned off size) (src : Buf) (pos p : Nat) :
    (o.write off size src pos).view p =
      if off ≤ p ∧ p < off + size then src (pos + (p - off)) else o.view p := by
  by_cases hp : off ≤ p ∧ p < off + size
  · simp only [view, write, if_pos hp, if_pos ((div_mem_extent_iff h p).2 hp), Fin.val_mk]
    rw [Nat.mul_comm, Nat.div_add_mod]
  · have hb : (o.write off size src pos).blocks (p / o.bsize) = o.blocks (p / o.bsize) :=
      if_neg (mt (div_mem_extent_iff h p).1 hp)
    rw [if_neg hp]
    unfold view
    simp only [write_bsize, hb]
    cases o.blocks (p / o.bsize) <;> rfl

/-- Inside a hole of one block the view reads zero. -/
theorem view_of_not_written {off : Nat} (ho : off % o.bsize = 0) (hw : ¬o.Written off o.bsize)
    {p : Nat} (h₁ : off ≤ p) (h₂ : p < off + o.bsize) : o.view p = 0 := by
  have hblk : p / o.bsize = off / o.bsize := by
    have := (div_mem_extent_iff (o := o) ⟨ho, Nat.mod_self _⟩ p).2 ⟨h₁, h₂⟩
    rw [Nat.add_div_right _ o.bsize_pos] at this
    omega
  have hnone : o.blocks (off / o.bsize) = none := by
    simpa [Written, Nat.div_self o.bsize_pos] using hw
  simp only [view, hblk, hnone]

end Obj

end Dsal
