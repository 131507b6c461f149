import CustomProperties.Proofs.Entries
import CustomProperties.Proofs.Patch
import Mathlib.Data.List.Basic

/-!
# The change log and the patch agree

A patch goes through the declarations from the last start to the first and counts the spans it
replaces; the change log goes through them from the first to the last and lists what changes.  Both
ask the same question of each declaration, and neither asks the edits anything else
(`patch_congr`, `changes_congr`).  So the edits may be replaced by what the change log says, even
where declarations share an id and an edit changes one of them but not the other: whatever the log
has under an id is the edit under that id (`get?_ofChanges`).

* `applied_patch`: a patch replaces as many spans as there are changes.
* `newValue?_ofChanges`: edits made of the change log change the same declarations to the same
  values.
* `changes_agree`: **the log, the patch and the edits tell the same changes.**
-/

namespace CustomProperties

/-! ## What the edits are asked -/

/-- The edits change a declaration: the edit under its id gives a value, and not the one that the
declaration has. -/
def Edits.Changes (edits : Edits) (d : Declaration) : Prop :=
  ∃ value, edits.get? d.id = some (some value) ∧ value ≠ d.value

theorem Edits.newValue?_eq_some_iff {edits : Edits} {d : Declaration} {value : Text} :
    edits.newValue? d = some value ↔ edits.get? d.id = some (some value) ∧ value ≠ d.value := by
  rw [newValue?]
  cases edits.get? d.id with
  | none => simp
  | some edit =>
    cases edit with
    | none => simp
    | some v =>
      by_cases h : v = d.value
      · simp only [Option.join_some, if_pos h, Option.some.injEq]
        exact ⟨fun hNone => (by cases hNone), fun hv => absurd (hv.1 ▸ h) hv.2⟩
      · simp only [Option.join_some, if_neg h, Option.some.injEq]
        exact ⟨fun hv => ⟨hv, hv ▸ h⟩, fun hv => hv.1⟩

theorem Edits.changes_iff {edits : Edits} {d : Declaration} :
    (edits.newValue? d).isSome = true ↔ edits.Changes d := by
  rw [Option.isSome_iff_exists]
  simp only [newValue?_eq_some_iff]
  rfl

instance (edits : Edits) (d : Declaration) : Decidable (edits.Changes d) :=
  decidable_of_iff _ Edits.changes_iff

/-- A patch asks the edits for new values only. -/
theorem patch_congr {edits edits' : Edits} {ds : List Declaration}
    (h : ∀ d ∈ ds, edits.newValue? d = edits'.newValue? d) (source : Text) :
    patch source ds edits = patch source ds edits' := by
  refine List.foldl_ext _ _ _ ?_
  intro p d hd
  rw [Patched.apply, Patched.apply, h d ((Declaration.sortDescending_perm ds).mem_iff.mp hd)]

/-- So does the change log. -/
theorem changes_congr {edits edits' : Edits} {ds : List Declaration}
    (h : ∀ d ∈ ds, edits.newValue? d = edits'.newValue? d) :
    changes ds edits = changes ds edits' := by
  refine List.filterMap_congr ?_
  intro d hd
  rw [h d ((Declaration.sortAscending_perm ds).mem_iff.mp hd)]

/-! ## What is changed -/

theorem mem_changes_iff {ds : List Declaration} {edits : Edits} {c : Change} :
    c ∈ changes ds edits ↔
      c.declaration ∈ ds ∧ edits.newValue? c.declaration = some c.newValue := by
  rw [changes, List.mem_filterMap]
  simp only [Option.map_eq_some_iff, (Declaration.sortAscending_perm ds).mem_iff]
  constructor
  · rintro ⟨d, hd, value, hValue, rfl⟩
    exact ⟨hd, hValue⟩
  · rintro ⟨hd, hValue⟩
    exact ⟨c.declaration, hd, c.newValue, hValue, rfl⟩

theorem map_declaration_changes (ds : List Declaration) (edits : Edits) :
    (changes ds edits).map (·.declaration)
      = (Declaration.sortAscending ds).filter (fun d => edits.Changes d) := by
  rw [changes]
  induction Declaration.sortAscending ds with
  | nil => rfl
  | cons d es ih =>
    rw [List.filterMap_cons, List.filter_cons]
    cases hValue : edits.newValue? d with
    | none =>
      have hSame : ¬ edits.Changes d := by simp [← Edits.changes_iff, hValue]
      simp only [Option.map_none, decide_eq_true_eq, if_neg hSame]
      exact ih
    | some value =>
      have hChanged : edits.Changes d := by simp [← Edits.changes_iff, hValue]
      simp only [Option.map_some, decide_eq_true_eq, if_pos hChanged, List.map_cons]
      rw [ih]

theorem applied_foldl (edits : Edits) (ds : List Declaration) (p : Patched) :
    (ds.foldl (Patched.apply edits) p).applied
      = p.applied + (ds.filter (fun d => edits.Changes d)).length := by
  induction ds generalizing p with
  | nil => rfl
  | cons d ds ih =>
    rw [List.foldl_cons, ih, Patched.apply, List.filter_cons]
    cases hValue : edits.newValue? d with
    | none =>
      have hSame : ¬ edits.Changes d := by simp [← Edits.changes_iff, hValue]
      simp only [decide_eq_true_eq, if_neg hSame]
    | some value =>
      have hChanged : edits.Changes d := by simp [← Edits.changes_iff, hValue]
      simp only [decide_eq_true_eq, if_pos hChanged, List.length_cons]
      omega

/-- **A patch replaces as many spans as there are changes**, in whatever order the two go. -/
theorem applied_patch (source : Text) (ds : List Declaration) (edits : Edits) :
    (patch source ds edits).applied = (changes ds edits).length := by
  have hPerm : (Declaration.sortDescending ds).Perm (Declaration.sortAscending ds) :=
    (Declaration.sortDescending_perm ds).trans (Declaration.sortAscending_perm ds).symm
  rw [patch, applied_foldl, Nat.zero_add, (hPerm.filter _).length_eq, ← map_declaration_changes,
    List.length_map]

/-! ## Edits made of the change log -/

def Edits.ofChanges (log : List Change) : Edits :=
  Entries.ofPairs (log.map fun c => (c.declaration.id, some c.newValue))

/-- What the change log has under an id is the edit under that id, and it has something there if the
edits change a declaration with that id. -/
theorem get?_ofChanges (ds : List Declaration) (edits : Edits) (id : Text) :
    (∀ edit, (Edits.ofChanges (changes ds edits)).get? id = some edit →
      edits.get? id = some edit) ∧
    ∀ d ∈ ds, d.id = id → edits.Changes d →
      ∃ edit, (Edits.ofChanges (changes ds edits)).get? id = some edit := by
  rw [Edits.ofChanges, Entries.get?_ofPairs]
  constructor
  · intro edit hEdit
    obtain ⟨c, hc, hPair⟩ := List.mem_map.mp (Entries.mem_of_last? hEdit)
    obtain ⟨rfl, rfl⟩ := Prod.mk.inj hPair
    exact (Edits.newValue?_eq_some_iff.mp (mem_changes_iff.mp hc).2).1
  · rintro d hd rfl ⟨value, hValue⟩
    have hc : (⟨d, value⟩ : Change) ∈ changes ds edits :=
      mem_changes_iff.mpr ⟨hd, Edits.newValue?_eq_some_iff.mpr hValue⟩
    exact Entries.exists_last?_of_mem (List.mem_map_of_mem hc)

/-- **The change log changes what the edits change**, to the same values. -/
theorem newValue?_ofChanges (ds : List Declaration) (edits : Edits) :
    ∀ d ∈ ds, (Edits.ofChanges (changes ds edits)).newValue? d = edits.newValue? d := by
  intro d hd
  obtain ⟨hSame, hSome⟩ := get?_ofChanges ds edits d.id
  refine Option.ext fun value => ?_
  rw [Edits.newValue?_eq_some_iff, Edits.newValue?_eq_some_iff]
  constructor
  · rintro ⟨hEdit, hValue⟩
    exact ⟨hSame _ hEdit, hValue⟩
  · rintro ⟨hEdit, hValue⟩
    obtain ⟨edit, hLog⟩ := hSome d hd rfl ⟨value, hEdit, hValue⟩
    rw [hSame edit hLog] at hEdit
    cases hEdit
    exact ⟨hLog, hValue⟩

/-- **The log, the patch and the edits tell the same changes**, whatever the spans and the ids are.
The number in the log record of a patch is the number of changes; edits made of the change log give
the same patch and the same changes; and the change log has the declarations that the edits change,
stably sorted by their start, each with its edit. -/
theorem changes_agree (source : Text) (ds : List Declaration) (edits : Edits) :
    ((patch source ds edits).record edits).message
        = "Applied " ++ Text.ofNat (changes ds edits).length ++ " of " ++ Text.ofNat edits.length
          ++ " edit(s)" ∧
    patch source ds (.ofChanges (changes ds edits)) = patch source ds edits ∧
    changes ds (.ofChanges (changes ds edits)) = changes ds edits ∧
    SortedStably (·.start) (ds.filter fun d => edits.Changes d)
      ((changes ds edits).map (·.declaration)) ∧
    ∀ c ∈ changes ds edits, edits.get? c.declaration.id = some (some c.newValue) := by
  refine ⟨?_, patch_congr (newValue?_ofChanges ds edits) source,
    changes_congr (newValue?_ofChanges ds edits), ?_, ?_⟩
  · rw [← applied_patch source ds edits]
    rfl
  · rw [map_declaration_changes]
    exact (sortedStably_stableSort (·.start) ds).filter _
  · intro c hc
    exact (Edits.newValue?_eq_some_iff.mp (mem_changes_iff.mp hc).2).1

end CustomProperties
