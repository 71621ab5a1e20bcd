import Dsal.Pwrite

/-!
# The object store over a run of calls

A client issues `dstore_pread` and `dstore_pwrite` calls on one object, one after another.  What
the object is for is a byte array: a read answers the bytes of its range, and a write puts the
caller's bytes in its range; as the code has it, a write that starts on a block boundary and ends
inside that block also zeroes the rest of the block.  Against a backend that reports `-ENOENT`
only for holes, every run of calls that all succeed is a run of that byte array: the blocks, the
holes and the read-modify-write of partial blocks refine it.
-/

namespace Dsal

/-- A call of the core's IO interface on one object. -/
inductive Call
  /-- `dstore_pread(obj, offset, count, bs, buf)` -/
  | pread (offset count : Nat) (buf : Buf)
  /-- `dstore_pwrite(obj, offset, count, bs, buf)` -/
  | pwrite (offset count : Nat) (buf : Buf)

/-- One call, with its code and the caller's buffer after it. -/
def Call.exec (W : Width) (bs : Nat) : Call → CoreM (Int × Buf)
  | .pread offset count buf => dstorePread W offset count bs buf
  | .pwrite offset count buf => do
    let rc ← dstorePwrite W offset count bs buf
    pure (rc, buf)

/-- The calls one after another, with what each returned. -/
def runCalls (W : Width) (bs : Nat) : List Call → CoreM (List (Int × Buf))
  | [] => pure []
  | c :: cs => do
    let r ← c.exec W bs
    let rs ← runCalls W bs cs
    pure (r :: rs)

/-! ## The byte array -/

/-- What a write does to the bytes `v`. -/
def writeBytes (bs offset count : Nat) (buf v : Buf) : Buf := fun p =>
  if offset ≤ p ∧ p < offset + count then buf (p - offset)
  else if offset % bs = 0 ∧ 0 < count ∧ count < bs ∧ offset + count ≤ p ∧ p < offset + bs then 0
  else v p

/-- What a call does to the bytes. -/
def Call.apply (bs : Nat) : Call → Buf → Buf
  | .pread .. => id
  | .pwrite offset count buf => writeBytes bs offset count buf

/-- The buffer `r` a call hands back is right for the bytes `v`: a read delivers its range. -/
def Call.Answers (v : Buf) : Call → Buf → Prop
  | .pread offset count _, r => ∀ j < count, r j = v (offset + j)
  | .pwrite .., _ => True

/-- Every call of a run hands back what is right for the bytes the calls before it left. -/
def RunAnswers (bs : Nat) : Buf → List Call → List (Int × Buf) → Prop
  | _, [], [] => True
  | v, c :: cs, r :: rs => c.Answers v r.2 ∧ RunAnswers bs (c.apply bs v) cs rs
  | _, _, _ => False

theorem runCalls_cons (W : Width) (bs : Nat) (c : Call) (cs : List Call) (e : Env) (w : World) :
    runCalls W bs (c :: cs) e w =
      let x := c.exec W bs e w
      let y := runCalls W bs cs e x.2
      (x.1 :: y.1, y.2) := rfl

/-- **Lifecycle over runs.**  Whatever the backend and the allocator answer, a run of calls keeps
the lifecycle of the IO operations closed: every operation whose init succeeded goes through
submit, wait (skipped after a failed submit) and fini once each, one operation is live at a time,
and none is live when the run ends. -/
theorem KeepsLifecycle.runCalls (W : Width) (bs : Nat) (cs : List Call) :
    KeepsLifecycle (runCalls W bs cs) := by
  induction cs with
  | nil => exact .pure _
  | cons c cs ih =>
    refine .bind ?_ fun _ => .bind ih fun _ => .pure _
    cases c with
    | pread offset count buf => exact .dstorePread W offset count bs buf
    | pwrite offset count buf => exact .bind (.dstorePwrite W offset count bs buf) fun _ => .pure _

/-! ## One call, then a run -/

section Run

variable {e : Env} (he : e.NoSpuriousEnoent)
include he

/-- **Step.**  A call that succeeds keeps the block size, changes the bytes as its abstract effect
says and hands back what is right for the bytes before it. -/
theorem Call.exec_spec (bs : Nat) (c : Call) (w : World) (hbs : w.obj.bsize = bs)
    (h0 : (c.exec Width.exact bs e w).1.1 = 0) :
    let r := c.exec Width.exact bs e w
    r.2.obj.bsize = bs ∧ r.2.obj.view = c.apply bs w.obj.view ∧ c.Answers w.obj.view r.1.2 := by
  cases c with
  | pread offset count buf =>
    have hobj := dstorePread_obj Width.exact offset count bs buf e w
    exact ⟨hobj ▸ hbs, congrArg Obj.view hobj, fun j hj => dstorePread_view he _ _ _ _ _ hbs h0 hj⟩
  | pwrite offset count buf =>
    refine ⟨(dstorePwrite_bsize _ _ _ _ _ _ _).trans hbs, funext fun p => ?_, trivial⟩
    exact dstorePwrite_view he _ _ _ _ _ hbs h0 p

/-- **The store is a byte array.**  Against a backend that reports `-ENOENT` only for holes, a run
of `dstore_pread` and `dstore_pwrite` calls that all return `0` hands back, at every read, the bytes
of the byte array as the calls before it left them, and leaves the object's view as the byte array
after all of them.  The block arithmetic is exact here; `runCalls_c_refines` carries this to C's
locals. -/
theorem runCalls_refines (bs : Nat) (cs : List Call) (w : World) (hbs : w.obj.bsize = bs) :
    let r := runCalls Width.exact bs cs e w
    (∀ x ∈ r.1, x.1 = 0) →
      RunAnswers bs w.obj.view cs r.1 ∧
        r.2.obj.view = cs.foldl (fun v c => c.apply bs v) w.obj.view := by
  induction cs generalizing w with
  | nil => exact fun _ => ⟨trivial, rfl⟩
  | cons c cs ih =>
    intro r h
    simp only [r, runCalls_cons, List.mem_cons, forall_eq_or_imp] at h ⊢
    obtain ⟨hb, hv, ha⟩ := Call.exec_spec he bs c w hbs h.1
    obtain ⟨hrun, hview⟩ := ih _ hb h.2
    rw [hv] at hrun hview
    exact ⟨⟨ha, hrun⟩, hview⟩

end Run

end Dsal
