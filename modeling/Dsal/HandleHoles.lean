import Dsal.IoOp

/-!
# Hole-tolerant aligned read: `pread_aligned_handle_holes`

Motr answers a multi-block READ with `-ENOENT` when any of its blocks was never written.  The core
then reads the blocks one by one, zero-fills each block that answers `-ENOENT` and fails on any
other error.  Read against a backend that reports `-ENOENT` only for holes, a successful call
delivers the byte view of the object: written bytes verbatim, zeros in holes.
-/

namespace Dsal

/-- The retry loop of `pread_aligned_handle_holes`: blocks `i`, `i + 1`, ... (`n` of them) of the
range at `offset`, each read alone into the buffer at `pos + i * bs`.  A block that answers
`-ENOENT` is zero-filled; any other error ends the loop. -/
def readBlockByBlock (pos offset bs : Nat) : Nat → Nat → Buf → CoreM (Int × Buf)
  | _, 0, buf => pure (0, buf)
  | i, n + 1, buf => do
    let (rc, buf) ← preadAligned buf (pos + i * bs) bs (offset + i * bs)
    if rc ≠ 0 then
      if rc = ENOENT.rc then readBlockByBlock pos offset bs (i + 1) n (memset buf (pos + i * bs) 0 bs)
      else pure (rc, buf)
    else readBlockByBlock pos offset bs (i + 1) n buf

/-- `pread_aligned_handle_holes(obj, read_buf + pos, buf_size, offset, bs)`: the block count is
an `int` local. -/
def preadAlignedHandleHoles (W : Width) (readBuf : Buf) (pos bufSize offset bs : Nat) :
    CoreM (Int × Buf) := do
  let (rc, buf) ← preadAligned readBuf pos bufSize offset
  if rc = ENOENT.rc then
    let count := W.int (bufSize / bs)
    readBlockByBlock pos offset bs 0 count.toNat buf
  else pure (rc, buf)

/-- What the calls `evs` of a read that returned `rc` satisfy: the lifecycle stays closed, every
operation opened is a READ, a fault is among them exactly when `rc` is an error, and none asks the
block size. -/
structure ReadCalls (rc : Int) (evs : List Event) : Prop where
  closed : Lifecycle.Closed evs
  reads : ∀ ev ∈ evs, ∀ t, ev.IsInit t → t = .read
  benign : rc = 0 → ∀ ev ∈ evs, ¬ev.Fault
  fault : rc ≠ 0 → ∃ ev ∈ evs, ev.Fault
  answered : BsizeAnswered evs

/-- A READ that returned `0` or `-ENOENT`, followed by calls that returned `rc`. -/
theorem ReadCalls.after_read {rc r : Int} {a b : List Event} (hr : r = 0 ∨ r = ENOENT.rc)
    (ha : Lifecycle.Closed a ∧ (∀ ev ∈ a, ev.Fault → r ≠ 0 ∧ r ≠ ENOENT.rc) ∧
      (∀ ev ∈ a, ∀ t, ev.IsInit t → t = .read) ∧ BsizeAnswered a)
    (hb : ReadCalls rc b) : ReadCalls rc (a ++ b) where
  closed := ha.1.append hb.closed
  reads ev h := (List.mem_append.1 h).elim (ha.2.2.1 ev) (hb.reads ev)
  benign h0 ev h hf := (List.mem_append.1 h).elim
    (fun h' => by have := ha.2.1 ev h' hf; omega) (hb.benign h0 ev · hf)
  fault h := let ⟨ev, hm, hf⟩ := hb.fault h; ⟨ev, List.mem_append_right _ hm, hf⟩
  answered ev h := (List.mem_append.1 h).elim (ha.2.2.2 ev) (hb.answered ev)

/-- A READ that failed with an error other than `-ENOENT`. -/
theorem ReadCalls.of_read {r : Int} {a : List Event} (hr₁ : r ≠ 0) (hr₂ : r ≠ ENOENT.rc)
    (ha : Lifecycle.Closed a ∧ (r ≠ 0 → r ≠ ENOENT.rc → ∃ ev ∈ a, ev.Fault) ∧
      (∀ ev ∈ a, ∀ t, ev.IsInit t → t = .read) ∧ BsizeAnswered a) : ReadCalls r a where
  closed := ha.1
  reads := ha.2.2.1
  benign h := absurd h hr₁
  fault _ := ha.2.1 hr₁ hr₂
  answered := ha.2.2.2

theorem ReadCalls.nil : ReadCalls 0 [] :=
  ⟨Lifecycle.closed_nil, nofun, fun _ => nofun, fun h => absurd rfl h, nofun⟩

/-- The calls of a read that returned `0`, followed by calls that returned `rc`. -/
theorem ReadCalls.append {rc : Int} {a b : List Event} (ha : ReadCalls 0 a)
    (hb : ReadCalls rc b) : ReadCalls rc (a ++ b) where
  closed := ha.closed.append hb.closed
  reads ev h := (List.mem_append.1 h).elim (ha.reads ev) (hb.reads ev)
  benign h0 ev h := (List.mem_append.1 h).elim (ha.benign rfl ev) (hb.benign h0 ev)
  fault h := let ⟨ev, hm, hf⟩ := hb.fault h; ⟨ev, List.mem_append_right _ hm, hf⟩
  answered ev h := (List.mem_append.1 h).elim (ha.answered ev) (hb.answered ev)

/-- An allocation, and what a read that stops on its failure reports. -/
theorem ReadCalls.alloc (ok : Bool) : ReadCalls (if ok then 0 else ENOMEM.rc) [.alloc ok] where
  closed := rfl
  reads ev h t ht := by rw [List.mem_singleton.1 h] at ht; exact ht.elim
  benign h0 ev h := by
    rw [List.mem_singleton.1 h]; cases ok
    · exact absurd h0 (by simp)
    · exact Bool.noConfusion
  fault h := ⟨_, List.mem_singleton_self _, by cases ok <;> simp_all [Event.Fault]⟩
  answered ev h := by rw [List.mem_singleton.1 h]; trivial

section Loop

variable (pos offset bs : Nat) (e : Env)

theorem readBlockByBlock_succ (i n : Nat) (buf : Buf) (w : World) :
    readBlockByBlock pos offset bs i (n + 1) buf e w =
      let r := preadAligned buf (pos + i * bs) bs (offset + i * bs) e w
      if r.1.1 ≠ 0 then
        if r.1.1 = ENOENT.rc then
          readBlockByBlock pos offset bs (i + 1) n (memset r.1.2 (pos + i * bs) 0 bs) e r.2
        else ((r.1.1, r.1.2), r.2)
      else readBlockByBlock pos offset bs (i + 1) n r.1.2 e r.2 := by
  simp only [readBlockByBlock, CoreM.bind_run]
  split_ifs <;> rfl

theorem readBlockByBlock_obj (i n : Nat) (buf : Buf) (w : World) :
    (readBlockByBlock pos offset bs i n buf e w).2.obj = w.obj := by
  induction n generalizing i buf w with
  | zero => rfl
  | succ n ih =>
    rw [readBlockByBlock_succ]
    dsimp only
    split_ifs <;> simp only [ih, preadAligned_obj]

theorem readBlockByBlock_frame (i n : Nat) (buf : Buf) (w : World) {q : Nat}
    (hq : ¬(pos + i * bs ≤ q ∧ q < pos + i * bs + n * bs)) :
    (readBlockByBlock pos offset bs i n buf e w).1.2 q = buf q := by
  induction n generalizing i buf w with
  | zero => rfl
  | succ n ih =>
    simp only [Nat.add_mul, Nat.one_mul] at hq
    have hi : ¬(pos + i * bs ≤ q ∧ q < pos + i * bs + bs) := by omega
    have hrest : ¬(pos + (i + 1) * bs ≤ q ∧ q < pos + (i + 1) * bs + n * bs) := by
      simp only [Nat.add_mul, Nat.one_mul]; omega
    rw [readBlockByBlock_succ]
    dsimp only
    split_ifs
    · rw [ih _ _ _ hrest, memset_outside hi, preadAligned_frame _ _ _ _ _ _ hi]
    · exact preadAligned_frame _ _ _ _ _ _ hi
    · rw [ih _ _ _ hrest, preadAligned_frame _ _ _ _ _ _ hi]

/-- The loop never reports `-ENOENT`: a hole is zero-filled, any other error is returned. -/
theorem readBlockByBlock_rc (i n : Nat) (buf : Buf) (w : World) :
    (readBlockByBlock pos offset bs i n buf e w).1.1 ≠ ENOENT.rc ∧
      (readBlockByBlock pos offset bs i n buf e w).1.1 ≤ 0 := by
  induction n generalizing i buf w with
  | zero => exact ⟨by simp [readBlockByBlock], by simp [readBlockByBlock]⟩
  | succ n ih =>
    rw [readBlockByBlock_succ]
    dsimp only
    split_ifs with h₁ h₂
    · exact ih _ _ _
    · exact ⟨h₂, alignedIo_rc_nonpos _ _ _ _ _ _ _⟩
    · exact ih _ _ _

/-- **Per-block retry.**  When the loop returns `0`, each block it read holds the view: the stored
bytes of a written block, zeros for a block that answered `-ENOENT`. -/
theorem readBlockByBlock_view (he : e.NoSpuriousEnoent) (ho : offset % bs = 0) (i n : Nat)
    (buf : Buf) (w : World) (hbs : w.obj.bsize = bs)
    (h0 : (readBlockByBlock pos offset bs i n buf e w).1.1 = 0) {j : Nat} (hj₁ : i * bs ≤ j)
    (hj₂ : j < i * bs + n * bs) :
    (readBlockByBlock pos offset bs i n buf e w).1.2 (pos + j) = w.obj.view (offset + j) := by
  induction n generalizing i buf w with
  | zero => omega
  | succ n ih =>
    have hi : (i + 1) * bs = i * bs + bs := by rw [Nat.add_mul, Nat.one_mul]
    rw [Nat.add_mul, Nat.one_mul] at hj₂
    rw [readBlockByBlock_succ] at h0 ⊢
    dsimp only at h0 ⊢
    have hobj := preadAligned_obj buf (pos + i * bs) bs (offset + i * bs) e w
    split_ifs at h0 ⊢ with hne hen
    · by_cases hij : j < i * bs + bs
      · obtain ⟨⟨ha, -⟩, hw⟩ := preadAligned_enoent _ _ _ _ e w he hen
        rw [readBlockByBlock_frame _ _ _ _ _ _ _ _ (by rw [hi]; omega),
          memset_inside (by omega) (by omega)]
        subst hbs
        exact (Obj.view_of_not_written ha hw (by omega) (by omega)).symm
      · rw [ih (i + 1) _ _ (hobj ▸ hbs) h0 (by rw [hi]; omega) (by rw [hi]; omega), hobj]
    · exact absurd h0 hne
    · by_cases hij : j < i * bs + bs
      · rw [readBlockByBlock_frame _ _ _ _ _ _ _ _ (by rw [hi]; omega),
          preadAligned_ok _ _ _ _ e w (not_not.1 hne), Obj.read,
          memcpy_inside (by omega) (by omega)]
        congr 1; omega
      · rw [ih (i + 1) _ _ (hobj ▸ hbs) h0 (by rw [hi]; omega) (by rw [hi]; omega), hobj]

theorem readBlockByBlock_log (i n : Nat) (buf : Buf) (w : World) :
    let r := readBlockByBlock pos offset bs i n buf e w
    ∃ evs, r.2.log = w.log ++ evs ∧ ReadCalls r.1.1 evs := by
  induction n generalizing i buf w with
  | zero => exact ⟨[], by simp [readBlockByBlock], Lifecycle.closed_nil, by simp, by simp,
      by simp [readBlockByBlock], nofun⟩
  | succ n ih =>
    rw [readBlockByBlock_succ]
    dsimp only
    obtain ⟨a, hla, hca, hfa, hra, hia, hqa⟩ :=
      alignedIo_log buf (pos + i * bs) bs (offset + i * bs) e w .read
    split_ifs with h₁ h₂
    · obtain ⟨b, hlb, hb⟩ := ih (i + 1) (memset (preadAligned buf (pos + i * bs) bs
        (offset + i * bs) e w).1.2 (pos + i * bs) 0 bs) (preadAligned buf (pos + i * bs) bs
        (offset + i * bs) e w).2
      exact ⟨a ++ b, by rw [hlb]; simp [preadAligned, hla],
        hb.after_read (.inr h₂) ⟨hca, hfa, hia, hqa⟩⟩
    · exact ⟨a, hla, ReadCalls.of_read h₁ h₂ ⟨hca, hra, hia, hqa⟩⟩
    · obtain ⟨b, hlb, hb⟩ := ih (i + 1) (preadAligned buf (pos + i * bs) bs
        (offset + i * bs) e w).1.2 (preadAligned buf (pos + i * bs) bs (offset + i * bs) e w).2
      exact ⟨a ++ b, by rw [hlb]; simp [preadAligned, hla],
        hb.after_read (.inl (not_not.1 h₁)) ⟨hca, hfa, hia, hqa⟩⟩

end Loop

section HandleHoles

variable (W : Width) (buf : Buf) (pos bufSize offset bs : Nat) (e : Env) (w : World)

theorem preadAlignedHandleHoles_eq :
    preadAlignedHandleHoles W buf pos bufSize offset bs e w =
      let r := preadAligned buf pos bufSize offset e w
      if r.1.1 = ENOENT.rc then
        readBlockByBlock pos offset bs 0 (W.int (bufSize / bs)).toNat r.1.2 e r.2
      else r := by
  simp only [preadAlignedHandleHoles, CoreM.bind_run]
  split_ifs <;> rfl

theorem preadAlignedHandleHoles_obj :
    (preadAlignedHandleHoles W buf pos bufSize offset bs e w).2.obj = w.obj := by
  rw [preadAlignedHandleHoles_eq]
  dsimp only
  split_ifs <;> simp only [readBlockByBlock_obj, preadAligned_obj]

/-- Only the target range `[pos, pos + bufSize)` of the buffer is written. -/
theorem preadAlignedHandleHoles_frame {q : Nat} (hq : ¬(pos ≤ q ∧ q < pos + bufSize)) :
    (preadAlignedHandleHoles W buf pos bufSize offset bs e w).1.2 q = buf q := by
  rw [preadAlignedHandleHoles_eq]
  dsimp only
  have hcount : (W.int (bufSize / bs)).toNat * bs ≤ bufSize :=
    Nat.le_trans (Nat.mul_le_mul_right bs (W.int_toNat_le _)) (Nat.div_mul_le_self _ _)
  split_ifs
  · rw [readBlockByBlock_frame _ _ _ _ _ _ _ _ (by omega), preadAligned_frame _ _ _ _ _ _ hq]
  · exact preadAligned_frame _ _ _ _ _ _ hq

/-- **Never `-ENOENT`.**  The hole-tolerant read reports `0` or an error other than `-ENOENT`. -/
theorem preadAlignedHandleHoles_rc :
    (preadAlignedHandleHoles W buf pos bufSize offset bs e w).1.1 ≠ ENOENT.rc ∧
      (preadAlignedHandleHoles W buf pos bufSize offset bs e w).1.1 ≤ 0 := by
  rw [preadAlignedHandleHoles_eq]
  dsimp only
  split_ifs with h
  · exact readBlockByBlock_rc _ _ _ _ _ _ _ _
  · exact ⟨h, alignedIo_rc_nonpos _ _ _ _ _ _ _⟩

theorem preadAlignedHandleHoles_log :
    let r := preadAlignedHandleHoles W buf pos bufSize offset bs e w
    ∃ evs, r.2.log = w.log ++ evs ∧ ReadCalls r.1.1 evs := by
  rw [preadAlignedHandleHoles_eq]
  dsimp only
  obtain ⟨a, hla, hca, hfa, hra, hia, hqa⟩ := alignedIo_log buf pos bufSize offset e w .read
  split_ifs with h
  · obtain ⟨b, hlb, hb⟩ := readBlockByBlock_log pos offset bs e 0 (W.int (bufSize / bs)).toNat
      (preadAligned buf pos bufSize offset e w).1.2 (preadAligned buf pos bufSize offset e w).2
    exact ⟨a ++ b, by rw [hlb]; simp [preadAligned, hla],
      hb.after_read (.inr h) ⟨hca, hfa, hia, hqa⟩⟩
  · by_cases h0 : (preadAligned buf pos bufSize offset e w).1.1 = 0
    · refine ⟨a, hla, hca, hia, fun _ ev hm hf => ?_, fun h' => absurd h0 h', hqa⟩
      exact (hfa ev hm hf).1 h0
    · exact ⟨a, hla, ReadCalls.of_read h0 h ⟨hca, hra, hia, hqa⟩⟩

/-- **Hole-tolerant read.**  Against a backend that reports `-ENOENT` only for holes, an aligned
hole-tolerant read that returns `0` delivers the view of its range: the stored bytes of each
written block and zeros for each unwritten one, whatever mix of the two the range holds. -/
theorem preadAlignedHandleHoles_view (he : e.NoSpuriousEnoent) (hbs : w.obj.bsize = bs)
    (ho : offset % bs = 0) (hs : bufSize % bs = 0)
    (h0 : (preadAlignedHandleHoles Width.exact buf pos bufSize offset bs e w).1.1 = 0) {j : Nat}
    (hj : j < bufSize) :
    (preadAlignedHandleHoles Width.exact buf pos bufSize offset bs e w).1.2 (pos + j) =
      w.obj.view (offset + j) := by
  rw [preadAlignedHandleHoles_eq] at h0 ⊢
  dsimp only at h0 ⊢
  have hobj := preadAligned_obj buf pos bufSize offset e w
  split_ifs at h0 ⊢ with h
  · have hb : bufSize / bs * bs = bufSize := Nat.div_mul_cancel (Nat.dvd_of_mod_eq_zero hs)
    simp only [Width.exact_int, Int.toNat_ofNat] at h0 ⊢
    rw [readBlockByBlock_view _ _ _ _ he ho _ _ _ _ (hobj ▸ hbs) h0 (by omega) (by omega), hobj]
  · rw [preadAligned_ok _ _ _ _ _ _ h0, Obj.read, memcpy_inside (by omega) (by omega)]
    congr 1; omega

end HandleHoles

end Dsal
