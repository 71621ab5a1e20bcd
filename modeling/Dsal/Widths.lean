import Dsal.Pwrite
import Mathlib.Data.Nat.Defs

/-!
# Fixed-width locals: where C's wrap-around is harmless

The block arithmetic of the unaligned paths is kept in `uint32_t` locals, and the block count of
the hole-tolerant reader in an `int`.  For blocks smaller than `2^32` bytes, requests shorter than
`2^31` bytes and block numbers below `2^32`, every such local holds its exact value, and the core
computes what the exact model computes: the results proved over `Width.exact` hold of the code.

Past `2^32` blocks the unaligned write does not see the high bits of its block numbers at all: the
write at `offset + 2^32 * bs` is the very same computation as the write at `offset`.
-/

namespace Dsal

/-! ## Reading back a local -/

/-- A `uint32_t` local keeps every value it can represent. -/
theorem Width.c_u32_natCast {n : Nat} (h : n < 4294967296) : Width.c.u32 n = n := by
  simp only [Width.c]
  omega

theorem Width.c_u32_eq_exact {x : Int} (h₀ : 0 ≤ x) (h₁ : x < 4294967296) :
    Width.c.u32 x = Width.exact.u32 x := by
  simp only [Width.c, Width.exact_u32]
  omega

/-- An `int` local keeps every count below `2^31`. -/
theorem Width.c_int_of_lt {n : Nat} (h : n < 2147483648) : Width.c.int n = n := by
  simp only [Width.c]
  split <;> omega

/-- A `uint32_t` local forgets multiples of `2^32`. -/
theorem Width.c_u32_add (x k : Int) : Width.c.u32 (x + 4294967296 * k) = Width.c.u32 x := by
  simp only [Width.c, Int.add_mul_emod_self_left]

theorem Width.c_u32_natCast_add (n : Nat) : Width.c.u32 ↑(n + 4294967296) = Width.c.u32 n := by
  simpa using Width.c_u32_add n 1

/-! ## Below `2^32` blocks -/

theorem preadAlignedHandleHoles_c {readBuf : Buf} {pos bufSize offset bs : Nat}
    (h : bufSize / bs < 2147483648) :
    preadAlignedHandleHoles Width.c readBuf pos bufSize offset bs =
      preadAlignedHandleHoles Width.exact readBuf pos bufSize offset bs := by
  simp only [preadAlignedHandleHoles, Width.c_int_of_lt h, Width.exact_int]

/-- A read of one block counts one block in either width. -/
theorem preadAlignedHandleHoles_c_block {readBuf : Buf} {pos offset bs : Nat} :
    preadAlignedHandleHoles Width.c readBuf pos bs offset bs =
      preadAlignedHandleHoles Width.exact readBuf pos bs offset bs := by
  have : bs / bs ≤ 1 := Nat.div_le_of_le_mul (Nat.le_of_eq (Nat.mul_one bs).symm)
  exact preadAlignedHandleHoles_c (by omega)

theorem pwriteEdge_c {needed : Prop} [Decidable needed] {tmpbuf : Buf} {pos blkOffset bs : Nat}
    {rc : Int} :
    pwriteEdge Width.c needed tmpbuf pos blkOffset bs rc =
      pwriteEdge Width.exact needed tmpbuf pos blkOffset bs rc := by
  simp only [pwriteEdge, preadAlignedHandleHoles_c_block]

theorem readRightmost_c {tmpbuf : Buf} {offset count bs : Nat} {buf : Buf} {bufPos : Nat}
    {rc : Int} :
    readRightmost Width.c tmpbuf offset count bs buf bufPos rc =
      readRightmost Width.exact tmpbuf offset count bs buf bufPos rc := by
  simp only [readRightmost, preadAlignedHandleHoles_c_block]

/-- The run of whole blocks: `cont_blk_count` and the advanced `buf_pos` stay below the request. -/
theorem continousAlignedRead_c {tmpbuf : Buf} {offset count bs : Nat} {buf : Buf} {bufPos : Nat}
    {rc : Int} (h : bufPos + count < 2147483648) :
    continousAlignedRead Width.c tmpbuf offset count bs buf bufPos rc =
      continousAlignedRead Width.exact tmpbuf offset count bs buf bufPos rc := by
  have hc : count / bs ≤ count := Nat.div_le_self _ _
  have hm : count / bs * bs ≤ count := Nat.div_mul_le_self _ _
  have hd : count / bs * bs / bs ≤ count / bs :=
    Nat.div_le_of_le_mul (Nat.le_of_eq (Nat.mul_comm _ _))
  simp only [continousAlignedRead, Width.c_u32_natCast (show count / bs < 4294967296 by omega),
    Width.exact_u32_natCast, readRightmost_c,
    Width.c_u32_natCast (show bufPos + count / bs * bs < 4294967296 by omega),
    preadAlignedHandleHoles_c (show count / bs * bs / bs < 2147483648 by omega)]

theorem pwriteUnaligned_c {offset count bs : Nat} {buf : Buf} (hbs : 0 < bs)
    (hbs' : bs < 4294967296) (hc : count < 2147483648) (hblk : (offset + count) / bs < 4294967296)
    (hun : ¬(count % bs = 0 ∧ offset % bs = 0)) :
    pwriteUnaligned Width.c offset count bs buf =
      pwriteUnaligned Width.exact offset count bs buf := by
  have ho := Nat.div_add_mod offset bs
  have hmo := Nat.mod_lt offset hbs
  rw [Nat.mul_comm] at ho
  have hL : offset / bs < 4294967296 :=
    Nat.lt_of_le_of_lt (Nat.div_le_div_right (Nat.le_add_right _ _)) hblk
  obtain ⟨hLR, hpos, -, -⟩ := rightBlkNum_bounds hbs hun rfl
  -- the decrement of `right_blk_num` never goes below zero
  have hR : (if (offset + count) % bs = 0 then Width.c.u32 (↑((offset + count) / bs) - 1)
      else (offset + count) / bs) = (if (offset + count) % bs = 0 then
        (↑((offset + count) / bs) - 1 : Int).toNat else (offset + count) / bs) := by
    split_ifs with h
    · have := Nat.div_pos (Nat.le_of_dvd (by omega) (Nat.dvd_of_mod_eq_zero h)) hbs
      exact Width.c_u32_eq_exact (by omega) (by omega)
    · rfl
  simp only [pwriteUnaligned, pwriteEdge_c]
  rw [Width.c_u32_natCast hL, Width.c_u32_natCast hblk, hR, Width.exact_u32_natCast,
    Width.exact_u32_natCast, Width.exact_u32]
  generalize hRdef : (if (offset + count) % bs = 0 then
    (↑((offset + count) / bs) - 1 : Int).toNat else (offset + count) / bs) = R at hLR hpos
  have hRlt : R < 4294967296 := by
    subst hRdef
    split_ifs <;> omega
  generalize offset / bs = L at *
  -- `num_of_blks` stays below `2^32`, as the request is shorter than `2^31` bytes
  have hRL : R < L + 4294967295 := by
    by_contra h
    have := Nat.mul_le_mul_right bs (Nat.le_of_not_lt h)
    rw [Nat.add_mul] at this
    omega
  rw [Width.c_u32_eq_exact (x := ↑R - ↑L + 1) (by omega) (by omega),
    Width.c_u32_eq_exact (x := ↑(Width.exact.u32 (↑R - ↑L + 1)) - 1)
      (by simp only [Width.exact_u32]; omega) (by simp only [Width.exact_u32]; omega),
    Width.c_u32_eq_exact (x := ↑offset - ↑(L * bs)) (by omega) (by omega)]

theorem preadUnaligned_c {offset count bs : Nat} {buf : Buf} (hbs : 0 < bs)
    (hbs' : bs < 4294967296) (hc : count < 2147483648) (hblk : offset / bs < 4294967296) :
    preadUnaligned Width.c offset count bs buf =
      preadUnaligned Width.exact offset count bs buf := by
  have ho := Nat.div_add_mod offset bs
  have hmo := Nat.mod_lt offset hbs
  rw [Nat.mul_comm] at ho
  have hlb : (↑offset - ↑(offset / bs * bs) : Int) = ↑(offset % bs) := by omega
  have hrb : (↑bs - ↑(offset % bs) : Int) = ↑(bs - offset % bs) := by omega
  simp only [preadUnaligned, preadAlignedHandleHoles_c_block,
    continousAlignedRead_c (by omega : 0 + count < 2147483648)]
  rw [Width.c_u32_natCast hblk, Width.exact_u32_natCast, hlb, Width.c_u32_natCast (by omega),
    Width.exact_u32_natCast, hrb, Width.c_u32_natCast (by omega), Width.exact_u32_natCast]
  generalize hr : (if count < bs - offset % bs then count else bs - offset % bs) = r
  have hrc : r ≤ count := by
    subst hr
    split <;> omega
  rw [Width.c_u32_natCast (by omega), Width.exact_u32_natCast]
  simp only [continousAlignedRead_c (by omega : r + (count - r) < 2147483648)]

theorem dstorePwrite_c {offset count bs : Nat} {buf : Buf} (hbs : 0 < bs)
    (hbs' : bs < 4294967296) (hc : count < 2147483648)
    (hblk : (offset + count) / bs < 4294967296) :
    dstorePwrite Width.c offset count bs buf = dstorePwrite Width.exact offset count bs buf := by
  unfold dstorePwrite
  split_ifs with h
  · rfl
  · exact pwriteUnaligned_c hbs hbs' hc hblk h

theorem dstorePread_c {offset count bs : Nat} {buf : Buf} (hbs : 0 < bs)
    (hbs' : bs < 4294967296) (hc : count < 2147483648)
    (hblk : (offset + count) / bs < 4294967296) :
    dstorePread Width.c offset count bs buf = dstorePread Width.exact offset count bs buf := by
  unfold dstorePread
  split_ifs with h
  · exact preadAlignedHandleHoles_c (Nat.lt_of_le_of_lt (Nat.div_le_self _ _) hc)
  · exact preadUnaligned_c hbs hbs' hc
      (Nat.lt_of_le_of_lt (Nat.div_le_div_right (Nat.le_add_right _ _)) hblk)

/-- **The C widths are harmless below `2^32` blocks.**  For a block size below `2^32`, a request
shorter than `2^31` bytes and block numbers below `2^32`, `dstore_pwrite` and `dstore_pread`
with C's fixed-width locals are the exact computations: the same calls, results and objects. -/
theorem dstoreIo_c_eq_exact (offset count bs : Nat) (buf : Buf) (hbs : 0 < bs)
    (hbs' : bs < 4294967296) (hc : count < 2147483648)
    (hblk : (offset + count) / bs < 4294967296) :
    dstorePwrite Width.c offset count bs buf = dstorePwrite Width.exact offset count bs buf ∧
      dstorePread Width.c offset count bs buf = dstorePread Width.exact offset count bs buf :=
  ⟨dstorePwrite_c hbs hbs' hc hblk, dstorePread_c hbs hbs' hc hblk⟩

theorem dstoreIo_c_eq_exact_small :
    (0 < 4096 ∧ 4096 < 4294967296 ∧ 100 < 2147483648 ∧ (4196 + 100) / 4096 < 4294967296) ∧
      dstorePwrite Width.c 4196 100 4096 zeroed = dstorePwrite Width.exact 4196 100 4096 zeroed ∧
      dstorePread Width.c 4196 100 4096 zeroed = dstorePread Width.exact 4196 100 4096 zeroed :=
  ⟨by decide, dstoreIo_c_eq_exact 4196 100 4096 zeroed (by decide) (by decide) (by decide)
    (by decide)⟩

/-! ## Past `2^32` blocks -/

theorem pwriteUnaligned_c_shift (offset count bs : Nat) (buf : Buf) :
    pwriteUnaligned Width.c (offset + 4294967296 * bs) count bs buf =
      pwriteUnaligned Width.c offset count bs buf := by
  rcases Nat.eq_zero_or_pos bs with rfl | hbs
  · rfl
  have hL : (offset + 4294967296 * bs) / bs = offset / bs + 4294967296 := by
    rw [Nat.mul_comm, Nat.add_mul_div_left _ _ hbs]
  have hR : (offset + 4294967296 * bs + count) / bs = (offset + count) / bs + 4294967296 := by
    rw [Nat.add_right_comm, Nat.mul_comm, Nat.add_mul_div_left _ _ hbs]
  have hmL : (offset + 4294967296 * bs) % bs = offset % bs := by
    rw [Nat.mul_comm, Nat.add_mul_mod_self_left]
  have hmR : (offset + 4294967296 * bs + count) % bs = (offset + count) % bs := by
    rw [Nat.add_right_comm, Nat.mul_comm, Nat.add_mul_mod_self_left]
  have hpos : ∀ m : Nat,
      (↑(offset + 4294967296 * bs) - ↑m : Int) = ↑offset - ↑m + 4294967296 * ↑bs := by
    intro m
    omega
  simp only [pwriteUnaligned]
  rw [hL, hR, hmL, hmR, Width.c_u32_natCast_add, Width.c_u32_natCast_add, hpos, Width.c_u32_add]

/-- **The unaligned write is periodic.**  A request that is not block-aligned, at
`offset + 2^32 * bs`, makes the very calls and leaves the very object that the same request at
`offset` does: the block numbers are taken modulo `2^32`. -/
theorem dstorePwrite_c_shift (offset count bs : Nat) (buf : Buf)
    (hun : ¬(count % bs = 0 ∧ offset % bs = 0)) :
    dstorePwrite Width.c (offset + 4294967296 * bs) count bs buf =
      dstorePwrite Width.c offset count bs buf := by
  have hmL : (offset + 4294967296 * bs) % bs = offset % bs := by
    rw [Nat.mul_comm, Nat.add_mul_mod_self_left]
  simp only [dstorePwrite, hmL, if_neg hun, pwriteUnaligned_c_shift]

theorem dstorePwrite_c_shift_edge :
    ¬(100 % 4096 = 0 ∧ 100 % 4096 = 0) ∧
      dstorePwrite Width.c (100 + 4294967296 * 4096) 100 4096 zeroed =
        dstorePwrite Width.c 100 100 4096 zeroed :=
  ⟨by decide, dstorePwrite_c_shift 100 100 4096 zeroed (by decide)⟩

end Dsal
