import Dsal.Basic

/-!
# Backend selection: `dstore_init`

`dstore_init` reads the `dstore.type` item of the configuration and looks its value up in the
registry `dstore_modules`, taking the first entry for which
`strncmp(dstore_type, type, strlen(dstore_type)) == 0`: the configured value must be a prefix of
the entry's name, not the name itself.  A missing item gives `-EINVAL`; a value that selects no
entry fails the assertion on the operations table.
-/

namespace Dsal

/-- The backends an operations table can belong to. -/
inductive Backend
  | cortx
  deriving DecidableEq, Repr

/-- A C string: its characters up to the terminating NUL, so none of them is NUL. -/
structure CStr where
  chars : List Char
  no_nul : ∀ c ∈ chars, c.toNat ≠ 0

/-- `strlen`. -/
def CStr.strlen (s : CStr) : Nat := s.chars.length

/-- `struct dstore_module`: a registry entry, a backend name and its operations table. -/
structure DstoreModule where
  type : CStr
  ops : Backend

/-- `dstore_modules`, without its `{ NULL, NULL }` terminator. -/
def dstoreModules : List DstoreModule := [⟨⟨"cortx".data, by decide⟩, .cortx⟩]

/-- `strncmp(a, b, n)` on NUL-terminated strings: the difference of the first pair of characters
that differ within `n`, and `0` when none does before a NUL. -/
def strncmp : List Char → List Char → Nat → Int
  | _, _, 0 => 0
  | [], [], _ + 1 => 0
  | [], c :: _, _ + 1 => -c.toNat
  | c :: _, [], _ + 1 => c.toNat
  | a :: as, b :: bs, n + 1 => if a = b then strncmp as bs n else (a.toNat : Int) - b.toNat

/-- The registry loop of `dstore_init`: the operations table of the first entry whose name
`dstore_type` matches over `strlen(dstore_type)` characters. -/
def findModule (dstoreType : CStr) : List DstoreModule → Option Backend
  | [] => none
  | m :: ms =>
    if strncmp dstoreType.chars m.type.chars dstoreType.strlen = 0 then some m.ops
    else findModule dstoreType ms

/-- `dstore_init(cfg, flags)`.  `item` is what `get_config_item("dstore", "type", cfg, &item)`
returned, its code and the item's string value if there is one; `init` is what the selected
backend's `init(cfg)` returns.  The result is the code returned and the table bound to `g_dstore`,
or `none` when an assertion fails.  `RC_WRAP`, whose header is not under `src/`, returns a
non-zero code of the call. -/
def dstoreInit (item : Int × Option CStr) (init : Backend → Int) :
    Option (Int × Option Backend) :=
  if item.1 ≠ 0 then some (item.1, none) else
  match item.2 with
  | none => some (EINVAL.rc, none)
  | some dstoreType =>
    match findModule dstoreType dstoreModules with
    | none => none
    | some ops => some (if init ops ≠ 0 then init ops else 0, some ops)

/-- `strncmp` over the length of its first string is zero exactly when that string is a prefix of
the second, for strings without NUL. -/
theorem strncmp_length_eq_zero_iff {a b : List Char} (ha : ∀ c ∈ a, c.toNat ≠ 0)
    (hb : ∀ c ∈ b, c.toNat ≠ 0) : strncmp a b a.length = 0 ↔ a <+: b := by
  induction a generalizing b with
  | nil => simp [strncmp]
  | cons x xs ih =>
    cases b with
    | nil =>
      have := ha x (.head _)
      simp only [strncmp, List.length_cons, List.prefix_nil, reduceCtorEq, iff_false]
      omega
    | cons y ys =>
      simp only [strncmp, List.length_cons, List.cons_prefix_cons]
      split_ifs with h
      · simp only [h, true_and]
        exact ih (fun c hc => ha c (.tail _ hc)) (fun c hc => hb c (.tail _ hc))
      · simp only [h, false_and, iff_false]
        intro hxy
        have : x.toNat = y.toNat := by omega
        exact h (by rw [← Char.ofNat_toNat x, ← Char.ofNat_toNat y, this])

/-- The registry loop takes the first entry whose name the configured value is a prefix of. -/
theorem findModule_eq (dstoreType : CStr) (ms : List DstoreModule) :
    findModule dstoreType ms =
      (ms.find? fun m => dstoreType.chars <+: m.type.chars).map (·.ops) := by
  induction ms with
  | nil => rfl
  | cons m ms ih =>
    simp only [findModule, List.find?_cons, CStr.strlen,
      strncmp_length_eq_zero_iff dstoreType.no_nul m.type.no_nul]
    split_ifs <;> simp_all

/-- The registry holds one entry: a value selects it exactly when it is a prefix of `"cortx"`. -/
theorem findModule_dstoreModules (s : CStr) :
    findModule s dstoreModules = if s.chars <+: "cortx".data then some .cortx else none := by
  rw [findModule_eq]
  split_ifs with h <;> simp [dstoreModules, List.find?, h]

/-- What `dstore_init` returns once the configuration has yielded a value. -/
theorem dstoreInit_some (s : CStr) (init : Backend → Int) :
    dstoreInit (0, some s) init =
      if s.chars <+: "cortx".data then some (init .cortx, some .cortx) else none := by
  simp only [dstoreInit, ne_eq, not_true_eq_false, if_false, findModule_dstoreModules]
  split_ifs <;> simp_all

/-- **Exact names select their entry.**  A value equal to a registered name binds that entry's
table and returns its `init` code; a missing item gives `-EINVAL` and binds nothing; a value that
is no prefix of any registered name binds nothing and stops on the assertion. -/
theorem dstoreInit_exactName (s : CStr) (init : Backend → Int) :
    dstoreInit (0, none) init = some (EINVAL.rc, none) ∧
    (∀ m ∈ dstoreModules, s.chars = m.type.chars →
      dstoreInit (0, some s) init = some (init m.ops, some m.ops)) ∧
    ((∀ m ∈ dstoreModules, ¬s.chars <+: m.type.chars) → dstoreInit (0, some s) init = none) := by
  refine ⟨rfl, fun m hm hs => ?_, fun h => ?_⟩
  · obtain rfl : m = _ := List.mem_singleton.1 hm
    rw [dstoreInit_some, if_pos (hs ▸ List.prefix_refl _)]
  · rw [dstoreInit_some, if_neg (h _ (List.mem_singleton_self _))]

/-- Three values that name no backend.  `"xyz"` makes `dstore_init` fail its assertion on the
operations table instead of returning `-EINVAL`; the empty string and `"cor"`, prefixes of
`"cortx"`, bind the cortx table. -/
theorem dstoreInit_unnamedTypes :
    dstoreInit (0, some ⟨"xyz".data, by decide⟩) (fun _ => 0) = none ∧
      dstoreInit (0, some ⟨[], nofun⟩) (fun _ => 0) = some (0, some .cortx) ∧
      dstoreInit (0, some ⟨"cor".data, by decide⟩) (fun _ => 0) = some (0, some .cortx) := by
  decide

end Dsal
