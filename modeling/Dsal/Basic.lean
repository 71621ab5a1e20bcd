import Mathlib.Tactic.Common

/-!
# Bytes, buffers, error codes and the width of C locals

The positional IO core of `dstore_base.c` moves bytes between `char *` buffers with `memcpy` and
`memset`, returns `0` or a negated `errno`, and keeps its block arithmetic in `uint32_t` and `int`
locals.  A buffer is a function from positions to bytes: the C pointers `buf + pos` become an
explicit position.
-/

namespace Dsal

abbrev Byte := UInt8

/-- A C `char` buffer, by position. -/
abbrev Buf := Nat → Byte

/-- A buffer as `calloc` returns it. -/
def zeroed : Buf := fun _ => 0

/-- `memcpy(dst + d, src + s, n)`. -/
def memcpy (dst : Buf) (d : Nat) (src : Buf) (s n : Nat) : Buf :=
  fun i => if d ≤ i ∧ i < d + n then src (s + (i - d)) else dst i

/-- `memset(dst + d, c, n)`. -/
def memset (dst : Buf) (d : Nat) (c : Byte) (n : Nat) : Buf :=
  fun i => if d ≤ i ∧ i < d + n then c else dst i

@[simp] theorem zeroed_apply (i : Nat) : zeroed i = 0 := rfl

theorem memcpy_apply (dst src : Buf) (d s n i : Nat) :
    memcpy dst d src s n i = if d ≤ i ∧ i < d + n then src (s + (i - d)) else dst i := rfl

theorem memset_apply (dst : Buf) (d : Nat) (c : Byte) (n i : Nat) :
    memset dst d c n i = if d ≤ i ∧ i < d + n then c else dst i := rfl

theorem memcpy_inside {dst src : Buf} {d s n i : Nat} (h₁ : d ≤ i) (h₂ : i < d + n) :
    memcpy dst d src s n i = src (s + (i - d)) := if_pos ⟨h₁, h₂⟩

theorem memcpy_outside {dst src : Buf} {d s n i : Nat} (h : ¬(d ≤ i ∧ i < d + n)) :
    memcpy dst d src s n i = dst i := if_neg h

theorem memset_inside {dst : Buf} {d n i : Nat} {c : Byte} (h₁ : d ≤ i) (h₂ : i < d + n) :
    memset dst d c n i = c := if_pos ⟨h₁, h₂⟩

theorem memset_outside {dst : Buf} {d n i : Nat} {c : Byte} (h : ¬(d ≤ i ∧ i < d + n)) :
    memset dst d c n i = dst i := if_neg h

/-! ## Error codes -/

/-- A positive `errno` value.  The core and the backend report it negated. -/
structure Errno where
  val : Nat
  pos : 0 < val
  deriving DecidableEq

/-- The return code that reports `e`. -/
def Errno.rc (e : Errno) : Int := -e.val

def ENOENT : Errno := ⟨2, by decide⟩
def EIO : Errno := ⟨5, by decide⟩
def ENOMEM : Errno := ⟨12, by decide⟩
def EINVAL : Errno := ⟨22, by decide⟩

theorem Errno.rc_neg (e : Errno) : e.rc < 0 := by
  have := e.pos
  simp only [Errno.rc]; omega

@[simp] theorem Errno.rc_ne_zero (e : Errno) : e.rc ≠ 0 := Int.ne_of_lt e.rc_neg

@[simp] theorem Errno.zero_ne_rc (e : Errno) : 0 ≠ e.rc := Int.ne_of_gt e.rc_neg

@[simp] theorem Errno.rc_nonpos (e : Errno) : e.rc ≤ 0 := Int.le_of_lt e.rc_neg

theorem Errno.rc_inj {e e' : Errno} (h : e.rc = e'.rc) : e = e' := by
  cases e; cases e'
  simp only [Errno.rc, Errno.mk.injEq] at h ⊢
  omega

@[simp] theorem Errno.rc_eq_rc {e e' : Errno} : e.rc = e'.rc ↔ e = e' :=
  ⟨Errno.rc_inj, fun h => h ▸ rfl⟩

@[simp] theorem ENOMEM_ne_ENOENT : ENOMEM ≠ ENOENT := by decide
@[simp] theorem EINVAL_ne_ENOENT : EINVAL ≠ ENOENT := by decide

/-! ## The width of C locals

`pwrite_unaligned` and `pread_unaligned` keep block numbers, byte counts and buffer positions in
`uint32_t` locals, and `pread_aligned_handle_holes` counts blocks in an `int`.  The same
definitions are read with these locals taken exactly (`Width.exact`) or wrapped as C wraps them
(`Width.c`): an unsigned value modulo `2^32`, a signed one as its two's-complement residue. -/

/-- How a value assigned to a fixed-width local of the core is read back.  An `int` local never
holds a larger count than the `size_t` value assigned to it. -/
structure Width where
  /-- the value of a `uint32_t` local assigned an integer expression -/
  u32 : Int → Nat
  /-- the value of an `int` local assigned a `size_t` expression -/
  int : Nat → Int
  int_toNat_le : ∀ n, (int n).toNat ≤ n

/-- Every local holds its mathematical value. -/
def Width.exact : Width := ⟨Int.toNat, Int.ofNat, Nat.le_refl⟩

/-- The locals wrap as C's `uint32_t` and (two's-complement) `int` do. -/
def Width.c : Width where
  u32 x := (x % 4294967296).toNat
  int n :=
    if n % 4294967296 < 2147483648 then n % 4294967296 else (n % 4294967296 : Int) - 4294967296
  int_toNat_le n := by
    dsimp only
    split <;> omega

@[simp] theorem Width.exact_u32 (x : Int) : Width.exact.u32 x = x.toNat := rfl
@[simp] theorem Width.exact_u32_natCast (n : Nat) : Width.exact.u32 n = n := rfl
@[simp] theorem Width.exact_int (n : Nat) : Width.exact.int n = n := rfl

/-- `size_t` from `ssize_t`: a negative value wraps modulo `2^64`. -/
def sizeT (x : Int) : Nat := (x % 18446744073709551616).toNat

theorem sizeT_of_nonneg {x : Int} (h₀ : 0 ≤ x) (h₁ : x < 18446744073709551616) :
    sizeT x = x.toNat := by
  simp only [sizeT, Int.emod_eq_of_lt h₀ h₁]

end Dsal
