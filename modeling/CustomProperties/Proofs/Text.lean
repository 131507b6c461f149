import CustomProperties.Declaration

/-!
# Parts of a text

* `Text.lastOr`: the character in front of a place, when a walk came there over a text.
* `Text.slice_natCast` and its neighbours: signed indices that are not negative cut like `take`
  and `drop`.
* `Text.trim_append`: **a text has only one trimmed core**: blanks, a core that neither starts nor
  ends with a blank, and blanks again trim to the core.
* `Text.head_trim`, `Text.last_trim`: a trimmed text neither starts nor ends with a blank.
* `PropertyName.isValid_iff`: a name is two hyphens and at least one name character.
-/

namespace CustomProperties

theorem map_eq_ok_iff {ε α β : Type} {x : Except ε α} {f : α → β} {b : β} :
    x.map f = .ok b ↔ ∃ a, x = .ok a ∧ f a = b := by
  cases x with
  | error e => simp [Except.map]
  | ok a => simp [Except.map]

theorem map_eq_error_iff {ε α β : Type} {x : Except ε α} {f : α → β} {e : ε} :
    x.map f = .error e ↔ x = .error e := by
  cases x with
  | error d => simp [Except.map]
  | ok a => simp [Except.map]

theorem mapError_eq_ok_iff {ε δ α : Type} {x : Except ε α} {f : ε → δ} {a : α} :
    x.mapError f = .ok a ↔ x = .ok a := by
  cases x with
  | error e => exact iff_of_false nofun nofun
  | ok b =>
    constructor
    · rintro ⟨⟩
      rfl
    · rintro ⟨⟩
      rfl

theorem mapError_eq_error_iff {ε δ α : Type} {x : Except ε α} {f : ε → δ} {d : δ} :
    x.mapError f = .error d ↔ ∃ e, x = .error e ∧ f e = d := by
  cases x with
  | error e =>
    constructor
    · rintro ⟨⟩
      exact ⟨e, rfl, rfl⟩
    · rintro ⟨_, ⟨⟩, rfl⟩
      rfl
  | ok b => exact iff_of_false nofun nofun

@[simp] theorem CodePoint.ofChar_inj {c d : Char} : ofChar c = ofChar d ↔ c = d := by
  refine ⟨fun h => Char.toNat_inj.mp (congrArg CodePoint.val h), ?_⟩
  rintro rfl
  rfl

theorem CodePoint.eq_of_val {c d : CodePoint} (h : c.val = d.val) : c = d := by
  cases c
  cases d
  cases h
  rfl

theorem CodePoint.ofNat_val (c : CodePoint) : CodePoint.ofNat c.val = c := by
  simp [ofNat, ofNat?, c.val_lt]

theorem CodePoint.not_mem_of_class {p : CodePoint → Bool} {marks : List CodePoint} {c : CodePoint}
    (hMarks : marks.all (fun d => !p d) = true) (hc : p c = true) : c ∉ marks := by
  intro hm
  have := List.all_eq_true.mp hMarks c hm
  simp [hc] at this

namespace Text

/-! ## The character in front -/

/-- The character in front of what follows `t`, when `previous` stands in front of `t`. -/
def lastOr (t : Text) (previous : Option CodePoint) : Option CodePoint := t.getLast?.or previous

@[simp] theorem lastOr_nil (previous : Option CodePoint) : lastOr [] previous = previous := rfl

@[simp] theorem lastOr_cons (c : CodePoint) (t : Text) (previous : Option CodePoint) :
    lastOr (c :: t) previous = lastOr t (some c) := by
  cases h : t.getLast? with
  | none => simp [lastOr, List.getLast?_cons, h]
  | some d => simp [lastOr, List.getLast?_cons, h]

@[simp] theorem lastOr_append (a b : Text) (previous : Option CodePoint) :
    lastOr (a ++ b) previous = lastOr b (lastOr a previous) := by
  induction a generalizing previous with
  | nil => rfl
  | cons c a ih => rw [List.cons_append, lastOr_cons, ih, lastOr_cons]

/-! ## Signed indices -/

theorem index_natCast (t : Text) (n : Nat) : t.index n = min n t.length := by
  rw [index, if_neg (by omega)]
  rfl

theorem upTo_natCast (t : Text) (n : Nat) : t.upTo n = t.take n := by
  rw [upTo, index_natCast]
  rcases Nat.le_total n t.length with h | h
  · rw [Nat.min_eq_left h]
  · rw [Nat.min_eq_right h, List.take_length, List.take_of_length_le h]

theorem since_natCast (t : Text) (n : Nat) : t.since n = t.drop n := by
  rw [since, index_natCast]
  rcases Nat.le_total n t.length with h | h
  · rw [Nat.min_eq_left h]
  · rw [Nat.min_eq_right h, List.drop_length, List.drop_of_length_le h]

theorem slice_eq_since_upTo (t : Text) (a b : Nat) : t.slice a b = (t.upTo b).since a := by
  rw [since_natCast, slice, upTo, index_natCast t a]
  rcases Nat.le_total a t.length with h | h
  · rw [Nat.min_eq_left h]
  · rw [Nat.min_eq_right h, List.drop_of_length_le (List.length_take_le' _ _),
      List.drop_of_length_le (Nat.le_trans (List.length_take_le' _ _) h)]

theorem slice_natCast (t : Text) (a b : Nat) : t.slice a b = (t.take b).drop a := by
  rw [slice_eq_since_upTo, upTo_natCast, since_natCast]

theorem slice_append (a b c : Text) :
    (a ++ (b ++ c)).slice a.length (a.length + b.length : Nat) = b := by
  rw [slice_natCast, ← List.append_assoc, ← List.length_append, List.take_left, List.drop_left]

theorem mem_of_mem_slice {t : Text} {a b : Int} {c : CodePoint} (h : c ∈ t.slice a b) : c ∈ t :=
  List.mem_of_mem_take (List.mem_of_mem_drop h)

/-! ## Up to a character -/

theorem takeWhile_ne_append {c : CodePoint} {s : Text} (h : c ∉ s) (t : Text) :
    (s ++ t).takeWhile (· ≠ c) = s ++ t.takeWhile (· ≠ c) := by
  refine List.takeWhile_append_of_pos fun d hd => ?_
  have hne : d ≠ c := by
    rintro rfl
    exact h hd
  simpa using hne

/-! ## Trimming -/

def isBlank (t : Text) : Bool := t.all CodePoint.isBlank

def leading (t : Text) : Text := t.takeWhile CodePoint.isBlank

def trailing (t : Text) : Text := (t.reverse.takeWhile CodePoint.isBlank).reverse

theorem isBlank_iff {t : Text} : t.isBlank = true ↔ ∀ c ∈ t, c.isBlank = true :=
  List.all_eq_true

theorem trimStart_append {blanks t : Text} (h : blanks.isBlank = true) :
    trimStart (blanks ++ t) = trimStart t :=
  List.dropWhile_append_of_pos (isBlank_iff.mp h)

theorem trim_blank_append {blanks t : Text} (h : blanks.isBlank = true) :
    trim (blanks ++ t) = trim t := by
  rw [trim, trimStart_append h, trim]

theorem trimStart_of_head {t : Text} (h : ∀ c ∈ t.head?, c.isBlank = false) :
    trimStart t = t := by
  cases t with
  | nil => rfl
  | cons c rest => exact List.dropWhile_cons_of_neg (by simp [h c rfl])

theorem trimEnd_append {t blanks : Text} (h : blanks.isBlank = true) :
    trimEnd (t ++ blanks) = trimEnd t := by
  have hRev : isBlank blanks.reverse = true := isBlank_iff.mpr fun c hc =>
    isBlank_iff.mp h c (List.mem_reverse.mp hc)
  have hDrop := trimStart_append (t := t.reverse) hRev
  rw [trimStart, trimStart] at hDrop
  rw [trimEnd, List.reverse_append, hDrop, trimEnd]

theorem trimEnd_of_last {t : Text} (h : ∀ c ∈ t.getLast?, c.isBlank = false) :
    trimEnd t = t := by
  have hRev : trimStart t.reverse = t.reverse := trimStart_of_head (by rwa [List.head?_reverse])
  rw [trimStart] at hRev
  rw [trimEnd, hRev, List.reverse_reverse]

theorem trim_of_ends {t : Text} (hHead : ∀ c ∈ t.head?, c.isBlank = false)
    (hLast : ∀ c ∈ t.getLast?, c.isBlank = false) : t.trim = t := by
  rw [trim, trimStart_of_head hHead, trimEnd_of_last hLast]

/-- **A text has only one trimmed core.** -/
theorem trim_append {before core after : Text} (hBefore : before.isBlank = true)
    (hAfter : after.isBlank = true) (hHead : ∀ c ∈ core.head?, c.isBlank = false)
    (hLast : ∀ c ∈ core.getLast?, c.isBlank = false) : trim (before ++ (core ++ after)) = core := by
  rw [trim, trimStart_append hBefore]
  cases core with
  | nil =>
    rw [List.nil_append, ← List.append_nil after, trimStart_append hAfter]
    rfl
  | cons c core =>
    rw [trimStart_of_head (t := c :: core ++ after) (fun d hd => hHead d hd), trimEnd_append hAfter,
      trimEnd_of_last hLast]

theorem eq_trimEnd_append (t : Text) :
    ∃ blanks : Text, blanks.isBlank = true ∧ t = trimEnd t ++ blanks := by
  refine ⟨(t.reverse.takeWhile CodePoint.isBlank).reverse, ?_, ?_⟩
  · refine isBlank_iff.mpr fun c hc => ?_
    exact List.all_eq_true.mp List.all_takeWhile c (List.mem_reverse.mp hc)
  · rw [trimEnd, ← List.reverse_append, List.takeWhile_append_dropWhile, List.reverse_reverse]

theorem eq_leading_append (t : Text) : t = t.leading ++ t.trimStart :=
  List.takeWhile_append_dropWhile.symm

theorem head_trimStart (t : Text) : ∀ c ∈ t.trimStart.head?, c.isBlank = false := by
  intro c hc
  have hNot := List.head?_dropWhile_not CodePoint.isBlank t
  rw [trimStart, Option.mem_def] at hc
  rw [hc] at hNot
  exact hNot

theorem last_trimEnd (t : Text) : ∀ c ∈ t.trimEnd.getLast?, c.isBlank = false := by
  rw [trimEnd, List.getLast?_reverse]
  exact head_trimStart t.reverse

theorem head_trim (t : Text) : ∀ c ∈ t.trim.head?, c.isBlank = false := by
  obtain ⟨after, -, hSplit⟩ := eq_trimEnd_append t.trimStart
  intro c hc
  refine head_trimStart t c ?_
  rw [trim, Option.mem_def] at hc
  rw [hSplit, List.head?_append, Option.mem_def, hc]
  rfl

theorem last_trim (t : Text) : ∀ c ∈ t.trim.getLast?, c.isBlank = false := last_trimEnd t.trimStart

theorem mem_of_mem_trim {t : Text} {c : CodePoint} (h : c ∈ t.trim) : c ∈ t := by
  obtain ⟨after, -, hSplit⟩ := eq_trimEnd_append t.trimStart
  rw [eq_leading_append t, hSplit]
  exact List.mem_append_right _ (List.mem_append_left _ h)

end Text

/-! ## Names -/

theorem CodePoint.not_isBlank_of_isNameChar {c : CodePoint} (h : c.isNameChar = true) :
    c.isBlank = false := by
  have hVal : ∀ d : Char, c = CodePoint.ofChar d → c.val = d.toNat := by
    rintro d rfl
    rfl
  simp only [isNameChar, isLetter, isDigit, Bool.or_eq_true, Bool.and_eq_true,
    decide_eq_true_eq] at h
  simp only [isBlank, inRanges, blankRanges, List.any_cons, List.any_nil, Bool.or_eq_false_iff,
    Bool.and_eq_false_iff, decide_eq_false_iff_not, and_true]
  rcases h with ((h | h) | h) | h
  · omega
  · omega
  · have := hVal _ h
    simp only [Char.reduceToNat] at this
    omega
  · have := hVal _ h
    simp only [Char.reduceToNat] at this
    omega

namespace PropertyName

/-- **A name is two hyphens and at least one name character.** -/
theorem isValid_iff {t : Text} : isValid t = true ↔
    ∃ body : Text, body ≠ [] ∧ t = mark ++ body ∧ ∀ c ∈ body, c.isNameChar = true := by
  simp only [isValid, Bool.and_eq_true, decide_eq_true_eq, List.isPrefixOf_iff_prefix,
    List.all_eq_true]
  constructor
  · rintro ⟨⟨hLength, body, rfl⟩, hBody⟩
    refine ⟨body, ?_, rfl, hBody⟩
    rintro rfl
    exact absurd hLength (by decide)
  · rintro ⟨body, hne, rfl, hBody⟩
    refine ⟨⟨?_, body, rfl⟩, hBody⟩
    have hPos := List.length_pos_iff.mpr hne
    have hMark : mark.length = 2 := rfl
    rw [List.length_append]
    omega

theorem isNameChar_of_isValid {t : Text} (h : isValid t = true) : ∀ c ∈ t, c.isNameChar = true := by
  obtain ⟨body, -, rfl, hBody⟩ := isValid_iff.mp h
  intro c hc
  rcases List.mem_append.mp hc with hc | hc
  · exact (by decide : ∀ c ∈ mark, c.isNameChar = true) c hc
  · exact hBody c hc

theorem trim_append_blank {name blanks : Text} (hName : isValid name = true)
    (hBlanks : blanks.isBlank = true) : Text.trim (name ++ blanks) = name :=
  @Text.trim_append [] name blanks rfl hBlanks
    (fun c hc => CodePoint.not_isBlank_of_isNameChar
      (isNameChar_of_isValid hName c (List.mem_of_mem_head? hc)))
    (fun c hc => CodePoint.not_isBlank_of_isNameChar
      (isNameChar_of_isValid hName c (List.mem_of_getLast? hc)))

end PropertyName

end CustomProperties
