import CustomProperties.CommandLine.EditRequest
import CustomProperties.Proofs.Entries
import CustomProperties.Proofs.Text
import Mathlib.Data.List.Forall2

/-!
# What assignments assign

An item is split at its first equals sign (`Splits`): in front of it is a name as a user may give
it, behind it the value as it stands, further equals signs and blanks included.  Either the item
assigns that value to the normalized name (`Assigns`), or it is flawed (`Flawed`).  A list of items
is read item by item: the first flawed one is the error, and if there is none, each name stands
where it first appears with the value of its last item.

Names meet only after they are normalized: a name of the result is its own normal form, and an item
may leave out the two hyphens of its name or have them.

* `read_eq_ok_iff`, `read_eq_error_iff`: one item, for each outcome.
* `mapM_read_eq_ok_iff`, `mapM_read_eq_error_iff`: the items one after the other.
* `readAll_spec`: **what a list of items gives.**
-/

namespace CustomProperties

namespace PropertyName

theorem normalize_of_marked {t : Text} (h : mark <+: t.trim) : normalize t = t.trim := by
  rw [normalize, if_pos (List.isPrefixOf_iff_prefix.mpr h)]

theorem normalize_of_unmarked {t : Text} (h : ¬ mark <+: t.trim) :
    normalize t = mark ++ t.trim := by
  rw [normalize, if_neg fun hPrefix => h (List.isPrefixOf_iff_prefix.mp hPrefix)]

theorem normalize_of_isValid {name : Text} (h : isValid name = true) : normalize name = name := by
  have hTrim : name.trim = name := by
    have hBlank := @trim_append_blank name [] h rfl
    rwa [List.append_nil] at hBlank
  obtain ⟨body, -, rfl, -⟩ := isValid_iff.mp h
  rw [normalize_of_marked (by rw [hTrim]; exact List.prefix_append mark body), hTrim]

/-- The two hyphens may be given or left out. -/
theorem normalize_mark_append {t : Text} (h : ¬ mark <+: t.trim) :
    normalize (mark ++ t.trim) = normalize t := by
  have hTrim : Text.trim (mark ++ t.trim) = mark ++ t.trim := by
    refine Text.trim_of_ends ?_ fun c hc => ?_
    · rintro c ⟨⟩
      decide
    · rw [List.getLast?_append, Option.mem_def, Option.or_eq_some_iff] at hc
      rcases hc with hc | ⟨-, ⟨⟩⟩
      · exact Text.last_trim t c hc
      · decide
  have hMark : mark <+: Text.trim (mark ++ t.trim) := by
    rw [hTrim]
    exact List.prefix_append mark t.trim
  rw [normalize_of_unmarked h, normalize_of_marked hMark, hTrim]

end PropertyName

namespace Assignment

/-! ## One item -/

structure Splits (item given value : Text) : Prop where
  eq_append : item = given ++ ('=' : CodePoint) :: value
  not_mem : ('=' : CodePoint) ∉ given

/-- An item assigns a value to a name: the value is what stands behind its first equals sign, and
what stands in front of it is the name once it is normalized. -/
def Assigns (item name value : Text) : Prop :=
  ∃ given, Splits item given value ∧ PropertyName.normalize given = name ∧
    PropertyName.isValid name = true

/-- An item has no equals sign, or what stands in front of the first one is no name, not even when
it is normalized. -/
def Flawed (item : Text) : Prop :=
  ('=' : CodePoint) ∉ item ∨ ∃ given value, Splits item given value ∧
    PropertyName.isValid (PropertyName.normalize given) = false

theorem exists_splits {item : Text} (h : ('=' : CodePoint) ∈ item) :
    ∃ given value, Splits item given value := by
  obtain ⟨given, value, hItem, hGiven⟩ := List.eq_append_cons_of_mem h
  exact ⟨given, value, hItem, hGiven⟩

theorem read_of_not_mem {item : Text} (h : ('=' : CodePoint) ∉ item) :
    read item = .error ⟨item⟩ := by
  have hGiven := Text.takeWhile_ne_append h []
  rw [List.append_nil, List.takeWhile_nil, List.append_nil] at hGiven
  simp only [read, hGiven, List.drop_length]

theorem Splits.read_eq {item given value : Text} (h : Splits item given value) :
    read item = if PropertyName.isValid (PropertyName.normalize given) = true
      then .ok (PropertyName.normalize given, value) else .error ⟨item⟩ := by
  have hGiven : item.takeWhile (· ≠ ('=' : CodePoint)) = given := by
    rw [h.eq_append, Text.takeWhile_ne_append h.not_mem, List.takeWhile_cons_of_neg (by simp),
      List.append_nil]
  have hRest : item.drop given.length = ('=' : CodePoint) :: value := by
    rw [h.eq_append, List.drop_left]
  simp only [read, hGiven, hRest]

theorem read_of_flawed {item : Text} (h : Flawed item) : read item = .error ⟨item⟩ := by
  rcases h with hNone | ⟨given, value, hSplits, hValid⟩
  · exact read_of_not_mem hNone
  · rw [hSplits.read_eq, if_neg (by simp [hValid])]

theorem read_of_assigns {item name value : Text} (h : Assigns item name value) :
    read item = .ok (name, value) := by
  obtain ⟨given, hSplits, rfl, hValid⟩ := h
  rw [hSplits.read_eq, if_pos hValid]

theorem flawed_or_assigns (item : Text) :
    Flawed item ∨ ∃ pair : Text × Text, Assigns item pair.1 pair.2 := by
  by_cases hMem : ('=' : CodePoint) ∈ item
  · obtain ⟨given, value, hSplits⟩ := exists_splits hMem
    cases hValid : PropertyName.isValid (PropertyName.normalize given) with
    | false => exact Or.inl (Or.inr ⟨given, value, hSplits, hValid⟩)
    | true => exact Or.inr ⟨(_, value), given, hSplits, rfl, hValid⟩
  · exact Or.inl (Or.inl hMem)

theorem read_eq_ok_iff {item : Text} {pair : Text × Text} :
    read item = .ok pair ↔ Assigns item pair.1 pair.2 := by
  refine ⟨fun hRead => ?_, read_of_assigns⟩
  rcases flawed_or_assigns item with hFlawed | ⟨other, hAssigns⟩
  · rw [read_of_flawed hFlawed] at hRead
    cases hRead
  · rw [read_of_assigns hAssigns] at hRead
    cases hRead
    exact hAssigns

theorem read_eq_error_iff {item : Text} {m : Malformed} :
    read item = .error m ↔ Flawed item ∧ m = ⟨item⟩ := by
  constructor
  · intro hRead
    rcases flawed_or_assigns item with hFlawed | ⟨pair, hAssigns⟩
    · rw [read_of_flawed hFlawed] at hRead
      cases hRead
      exact ⟨hFlawed, rfl⟩
    · rw [read_of_assigns hAssigns] at hRead
      cases hRead
  · rintro ⟨hFlawed, rfl⟩
    exact read_of_flawed hFlawed

theorem not_flawed_iff {item : Text} : ¬ Flawed item ↔ ∃ pair, read item = .ok pair := by
  constructor
  · intro hSound
    obtain ⟨pair, hAssigns⟩ := (flawed_or_assigns item).resolve_left hSound
    exact ⟨pair, read_of_assigns hAssigns⟩
  · rintro ⟨pair, hRead⟩ hFlawed
    rw [read_of_flawed hFlawed] at hRead
    cases hRead

theorem Splits.read_mark_eq_ok_iff {item given value : Text} (h : Splits item given value)
    (hGiven : ¬ PropertyName.mark <+: given.trim) {pair : Text × Text} :
    read (PropertyName.mark ++ given.trim ++ ('=' : CodePoint) :: value) = .ok pair ↔
      read item = .ok pair := by
  have hMarked : Splits (PropertyName.mark ++ given.trim ++ ('=' : CodePoint) :: value)
      (PropertyName.mark ++ given.trim) value := by
    refine ⟨rfl, fun hMem => ?_⟩
    rcases List.mem_append.mp hMem with hMem | hMem
    · exact absurd hMem (by decide)
    · exact h.not_mem (Text.mem_of_mem_trim hMem)
  rw [hMarked.read_eq, h.read_eq, PropertyName.normalize_mark_append hGiven]
  split
  · exact Iff.rfl
  · simp

/-! ## A list of items -/

theorem mapM_read_cons_eq_ok_iff {item : Text} {items : List Text} {pairs : List (Text × Text)} :
    (item :: items).mapM read = .ok pairs ↔
      ∃ pair rest, read item = .ok pair ∧ items.mapM read = .ok rest ∧ pairs = pair :: rest := by
  rw [List.mapM_cons]
  cases read item with
  | error m => simp [bind, Except.bind]
  | ok pair =>
    cases items.mapM read with
    | error m => simp [bind, Except.bind]
    | ok rest => simp [bind, Except.bind, pure, Except.pure, eq_comm]

theorem mapM_read_cons_eq_error_iff {item : Text} {items : List Text} {m : Malformed} :
    (item :: items).mapM read = .error m ↔
      read item = .error m ∨ (∃ pair, read item = .ok pair) ∧ items.mapM read = .error m := by
  rw [List.mapM_cons]
  cases read item with
  | error m => simp [bind, Except.bind]
  | ok pair =>
    cases items.mapM read with
    | error m => simp [bind, Except.bind]
    | ok rest => simp [bind, Except.bind, pure, Except.pure]

theorem mapM_read_eq_ok_iff {items : List Text} {pairs : List (Text × Text)} :
    items.mapM read = .ok pairs ↔
      List.Forall₂ (fun item pair => Assigns item pair.1 pair.2) items pairs := by
  induction items generalizing pairs with
  | nil =>
    rw [List.forall₂_nil_left_iff]
    exact ⟨fun h => (Except.ok.inj h).symm, fun h => congrArg Except.ok h.symm⟩
  | cons item items ih =>
    rw [mapM_read_cons_eq_ok_iff, List.forall₂_cons_left_iff]
    simp only [read_eq_ok_iff, ih]

theorem mapM_read_eq_error_iff {items : List Text} {m : Malformed} :
    items.mapM read = .error m ↔ ∃ before item after, items = before ++ item :: after ∧
      (∀ i ∈ before, ¬ Flawed i) ∧ Flawed item ∧ m = ⟨item⟩ := by
  induction items with
  | nil =>
    constructor
    · rintro ⟨⟩
    · rintro ⟨before, item, after, hItems, -⟩
      simp at hItems
  | cons first items ih =>
    rw [mapM_read_cons_eq_error_iff, ih, read_eq_error_iff, ← not_flawed_iff]
    constructor
    · rintro (⟨hFirst, rfl⟩ | ⟨hFirst, before, item, after, rfl, hBefore, hItem⟩)
      · exact ⟨[], first, items, rfl, by simp, hFirst, rfl⟩
      · exact ⟨first :: before, item, after, rfl,
          List.forall_mem_cons.mpr ⟨hFirst, hBefore⟩, hItem⟩
    · rintro ⟨before, item, after, hItems, hBefore, hItem⟩
      cases before with
      | nil =>
        cases hItems
        exact Or.inl hItem
      | cons first' before =>
        cases hItems
        rw [List.forall_mem_cons] at hBefore
        exact Or.inr ⟨hBefore.1, before, item, after, rfl, hBefore.2, hItem⟩

theorem not_flawed_of_mapM_read {items : List Text} {pairs : List (Text × Text)}
    (h : items.mapM read = .ok pairs) : ∀ item ∈ items, ¬ Flawed item := by
  induction items generalizing pairs with
  | nil => simp
  | cons item items ih =>
    obtain ⟨pair, rest, hItem, hItems, -⟩ := mapM_read_cons_eq_ok_iff.mp h
    exact List.forall_mem_cons.mpr ⟨not_flawed_iff.mpr ⟨pair, hItem⟩, ih hItems⟩

/-- Items that are read alike can stand in each other's place. -/
theorem mapM_read_replace {item item' : Text}
    (h : ∀ pair, read item' = .ok pair ↔ read item = .ok pair) (before after : List Text)
    (pairs : List (Text × Text)) :
    (before ++ item' :: after).mapM read = .ok pairs ↔
      (before ++ item :: after).mapM read = .ok pairs := by
  induction before generalizing pairs with
  | nil =>
    rw [List.nil_append, List.nil_append, mapM_read_cons_eq_ok_iff, mapM_read_cons_eq_ok_iff]
    simp only [h]
  | cons first before ih =>
    rw [List.cons_append, List.cons_append, mapM_read_cons_eq_ok_iff, mapM_read_cons_eq_ok_iff]
    simp only [ih]

theorem readAll_eq_ok_iff {items : List Text} {edits : Entries Text Text} :
    readAll items = .ok edits ↔
      ∃ pairs, items.mapM read = .ok pairs ∧ Entries.ofPairs pairs = edits := by
  rw [readAll]
  cases items.mapM read with
  | error m => simp [Except.map]
  | ok pairs => simp [Except.map]

theorem readAll_eq_error_iff {items : List Text} {m : Malformed} :
    readAll items = .error m ↔ items.mapM read = .error m := by
  rw [readAll]
  cases items.mapM read with
  | error m => simp [Except.map]
  | ok pairs => simp [Except.map]

/-- **Reading fails exactly if some item is flawed.** -/
theorem exists_readAll_eq_error_iff {items : List Text} :
    (∃ m, readAll items = .error m) ↔ ∃ item ∈ items, Flawed item := by
  constructor
  · rintro ⟨m, hm⟩
    rw [readAll_eq_error_iff, mapM_read_eq_error_iff] at hm
    obtain ⟨before, item, after, rfl, -, hItem, -⟩ := hm
    exact ⟨item, by simp, hItem⟩
  · rintro ⟨item, hMem, hItem⟩
    cases hRead : readAll items with
    | error m => exact ⟨m, rfl⟩
    | ok edits =>
      obtain ⟨pairs, hPairs, -⟩ := readAll_eq_ok_iff.mp hRead
      exact absurd hItem (not_flawed_of_mapM_read hPairs item hMem)

theorem isValid_of_forall₂ {items : List Text} {pairs : List (Text × Text)}
    (h : List.Forall₂ (fun item pair => Assigns item pair.1 pair.2) items pairs) :
    ∀ pair ∈ pairs, PropertyName.isValid pair.1 = true := by
  induction h with
  | nil => simp
  | cons hFirst _ ih =>
    obtain ⟨given, -, -, hValid⟩ := hFirst
    exact List.forall_mem_cons.mpr ⟨hValid, ih⟩

/-- **What a list of items gives.**  It is an error exactly if some item is flawed, and the message
quotes the first such item.  Otherwise the result has each name once, in the order in which the
names first appear, with the value of its last item; its names are names, and their own normal
forms.  An item whose name does not start with the two hyphens could as well have them in front. -/
theorem readAll_spec (items : List Text) :
    ((∃ m, readAll items = .error m) ↔ ∃ item ∈ items, Flawed item) ∧
    (∀ m, readAll items = .error m → ∃ before item after, items = before ++ item :: after ∧
      (∀ i ∈ before, ¬ Flawed i) ∧ Flawed item ∧
      m.message = "expected NAME=VALUE, got " ++ item.quoted) ∧
    ((∀ item ∈ items, ¬ Flawed item) → ∃ edits pairs, readAll items = .ok edits ∧
      List.Forall₂ (fun item pair => Assigns item pair.1 pair.2) items pairs ∧
      (edits.map Prod.fst).Nodup ∧ edits.map Prod.fst = (pairs.map Prod.fst).eraseDups ∧
      (∀ name, edits.get? name = Entries.last? pairs name) ∧
      ∀ name ∈ edits.map Prod.fst,
        PropertyName.isValid name = true ∧ PropertyName.normalize name = name) ∧
    ∀ before item after given value, items = before ++ item :: after → Splits item given value →
      ¬ PropertyName.mark <+: given.trim → ∀ edits,
        readAll (before ++ (PropertyName.mark ++ given.trim ++ ('=' : CodePoint) :: value) :: after)
          = .ok edits ↔ readAll items = .ok edits := by
  refine ⟨exists_readAll_eq_error_iff, fun m hm => ?_, fun hItems => ?_, ?_⟩
  · rw [readAll_eq_error_iff, mapM_read_eq_error_iff] at hm
    obtain ⟨before, item, after, hSplit, hBefore, hItem, rfl⟩ := hm
    exact ⟨before, item, after, hSplit, hBefore, hItem, rfl⟩
  · cases hRead : readAll items with
    | error m =>
      obtain ⟨item, hMem, hItem⟩ := exists_readAll_eq_error_iff.mp ⟨m, hRead⟩
      exact absurd hItem (hItems item hMem)
    | ok edits =>
      obtain ⟨pairs, hPairs, rfl⟩ := readAll_eq_ok_iff.mp hRead
      rw [mapM_read_eq_ok_iff] at hPairs
      refine ⟨_, pairs, rfl, hPairs, Entries.nodup_keys_ofPairs pairs, Entries.keys_ofPairs pairs,
        Entries.get?_ofPairs pairs, fun name hName => ?_⟩
      rw [Entries.keys_ofPairs, List.mem_eraseDups] at hName
      obtain ⟨pair, hPair, rfl⟩ := List.mem_map.mp hName
      have hValid := isValid_of_forall₂ hPairs pair hPair
      exact ⟨hValid, PropertyName.normalize_of_isValid hValid⟩
  · rintro before item after given value rfl hSplits hGiven edits
    have hSame := mapM_read_replace (fun pair => hSplits.read_mark_eq_ok_iff hGiven) before after
    simp only [readAll_eq_ok_iff, hSame]

-- Names that meet once they are normalized: first place, last value.
example : readAll ["a= x", "--b==", "\u00a0--a =y=z"] = .ok [("--a", "y=z"), ("--b", "=")] := by
  decide +kernel

end Assignment

end CustomProperties
