import CustomProperties.CommandLine.EditRequest
import CustomProperties.Proofs.Candidate

/-!
# Blanks around a value

A text that is not blank is blanks, a core, and blanks again, and this in one way only (`Padded`).
Keeping the padding of a value puts another core between the same blanks, so it can be done again
with nothing lost.  A blank opens and closes nothing, and so the search for the end of a value goes
the same way over a core with or without blanks around it.

* `Text.padded_of_not_blank`: the parts of a text that is not blank.
* `Text.indexOf_trim`: the core of a text is found where its blanks end, and nowhere before.
* `Padding.keep_of_not_blank`: what stands around the core are these blanks.
* `Padding.keep_keep`: padding is kept through a value that is not blank.
* `Padding.keep_between_blanks`: **the laws of padding.**
* `Scan.closed_append_iff`: **blanks around a value neither open nor close it.**
-/

namespace CustomProperties

namespace Text

/-- Blanks, a core that neither starts nor ends with a blank, and blanks. -/
structure Padded (t before core after : Text) : Prop where
  eq_append : t = before ++ (core ++ after)
  before_blank : before.isBlank = true
  after_blank : after.isBlank = true
  core_ne_nil : core ≠ []
  head_core : ∀ c ∈ core.head?, c.isBlank = false
  last_core : ∀ c ∈ core.getLast?, c.isBlank = false

theorem isBlank_reverse (t : Text) : isBlank t.reverse = t.isBlank := List.all_reverse

theorem isBlank_append (t u : Text) : isBlank (t ++ u) = (t.isBlank && u.isBlank) := List.all_append

namespace Padded

variable {t before core after : Text}

theorem reverse (h : t.Padded before core after) :
    Padded t.reverse after.reverse core.reverse before.reverse where
  eq_append := by
    rw [h.eq_append, List.reverse_append, List.reverse_append, List.append_assoc]
  before_blank := by rw [isBlank_reverse, h.after_blank]
  after_blank := by rw [isBlank_reverse, h.before_blank]
  core_ne_nil := by
    rw [Ne, List.reverse_eq_nil_iff]
    exact h.core_ne_nil
  head_core := by
    rw [List.head?_reverse]
    exact h.last_core
  last_core := by
    rw [List.getLast?_reverse]
    exact h.head_core

theorem leading_eq (h : t.Padded before core after) : t.leading = before := by
  have hStop : (core ++ after).takeWhile CodePoint.isBlank = [] := by
    cases hCore : core with
    | nil => exact absurd hCore h.core_ne_nil
    | cons c rest =>
      have hc := h.head_core c (by rw [hCore]; rfl)
      rw [List.cons_append, List.takeWhile_cons_of_neg (by simp [hc])]
  rw [leading, h.eq_append, List.takeWhile_append_of_pos (isBlank_iff.mp h.before_blank), hStop,
    List.append_nil]

theorem trailing_eq (h : t.Padded before core after) : t.trailing = after := by
  have hLeading := h.reverse.leading_eq
  rw [leading] at hLeading
  rw [trailing, hLeading, List.reverse_reverse]

theorem not_blank (h : t.Padded before core after) : t.isBlank = false := by
  cases hCore : core with
  | nil => exact absurd hCore h.core_ne_nil
  | cons c rest =>
    have hc := h.head_core c (by rw [hCore]; rfl)
    rw [← Bool.not_eq_true, isBlank_iff, h.eq_append, hCore]
    intro hAll
    have := hAll c (by simp)
    rw [hc] at this
    cases this

end Padded

theorem leading_blank (t : Text) : t.leading.isBlank = true := List.all_takeWhile

/-- **A text that is not blank is its core between its blanks.** -/
theorem padded_of_not_blank {t : Text} (h : t.isBlank = false) :
    t.Padded t.leading t.trim t.trailing := by
  obtain ⟨after, hAfter, hSplit⟩ := eq_trimEnd_append t.trimStart
  have hText : t = t.leading ++ (t.trim ++ after) := by
    rw [trim, ← hSplit]
    exact eq_leading_append t
  have hCore : t.trim ≠ [] := by
    intro hNil
    rw [hNil, List.nil_append] at hText
    have hBlank : t.isBlank = true := by
      rw [hText, isBlank_append, leading_blank, hAfter]
      rfl
    rw [h] at hBlank
    cases hBlank
  have hPadded : t.Padded t.leading t.trim after :=
    ⟨hText, leading_blank t, hAfter, hCore, head_trim t, last_trim t⟩
  rwa [← hPadded.trailing_eq] at hPadded

theorem eq_append_trim_iff {t : Text} (h : t.isBlank = false) {before after : Text} :
    before.isBlank = true ∧ after.isBlank = true ∧ t = before ++ (t.trim ++ after) ↔
      before = t.leading ∧ after = t.trailing := by
  have hParts := padded_of_not_blank h
  constructor
  · rintro ⟨hBefore, hAfter, hText⟩
    have hPadded : t.Padded before t.trim after :=
      ⟨hText, hBefore, hAfter, hParts.core_ne_nil, hParts.head_core, hParts.last_core⟩
    exact ⟨hPadded.leading_eq.symm, hPadded.trailing_eq.symm⟩
  · rintro ⟨rfl, rfl⟩
    exact ⟨hParts.before_blank, hParts.after_blank, hParts.eq_append⟩

/-- **The core of a text starts nowhere before its blanks end**: there it would start with one of
them. -/
theorem length_leading_le {t : Text} (h : t.isBlank = false) {n : Nat}
    (hn : t.trim <+: t.drop n) : t.leading.length ≤ n := by
  have hParts := padded_of_not_blank h
  refine Nat.not_lt.mp fun hLess => ?_
  have hDrop : t.drop n = t.leading.drop n ++ (t.trim ++ t.trailing) :=
    (congrArg (List.drop n) hParts.eq_append).trans
      (List.drop_append_of_le_length (Nat.le_of_lt hLess))
  cases hBlanks : t.leading.drop n with
  | nil => exact absurd (List.drop_eq_nil_iff.mp hBlanks) (Nat.not_le.mpr hLess)
  | cons b blanks =>
    have hBlank : b.isBlank = true := by
      refine isBlank_iff.mp (leading_blank t) b (List.mem_of_mem_drop (i := n) ?_)
      rw [hBlanks]
      exact List.mem_cons_self
    cases hCore : t.trim with
    | nil => exact hParts.core_ne_nil hCore
    | cons c core =>
      have hHead := head_trim t c (by rw [hCore]; rfl)
      rw [hDrop, hBlanks, hCore, List.cons_append, List.cons_prefix_cons] at hn
      rw [hn.1, hBlank] at hHead
      cases hHead

/-- The search finds a place of the part that no other one is in front of. -/
theorem indexOf_eq {t part : Text} {n : Nat} (hn : part <+: t.drop n)
    (hFirst : ∀ m, part <+: t.drop m → n ≤ m) : t.indexOf part = n := by
  induction t generalizing n with
  | nil =>
    have hZero : n ≤ 0 := by
      apply hFirst
      rwa [List.drop_nil] at hn ⊢
    rw [indexOf]
    omega
  | cons c t ih =>
    by_cases hHere : part <+: c :: t
    · have hZero : n ≤ 0 := hFirst 0 hHere
      rw [indexOf, if_pos (List.isPrefixOf_iff_prefix.mpr hHere)]
      omega
    · cases n with
      | zero => exact absurd hn hHere
      | succ n =>
        have hLater : ∀ m, part <+: t.drop m → n ≤ m := by
          intro m hm
          have := hFirst (m + 1) hm
          omega
        rw [indexOf, if_neg (mt List.isPrefixOf_iff_prefix.mp hHere), ih hn hLater]

/-- **The core of a text is found where its blanks end.** -/
theorem indexOf_trim {t : Text} (h : t.isBlank = false) : t.indexOf t.trim = t.leading.length := by
  refine indexOf_eq ?_ fun n hn => length_leading_le h hn
  have hDrop := congrArg (List.drop t.leading.length) (padded_of_not_blank h).eq_append
  rw [List.drop_left] at hDrop
  exact ⟨t.trailing, hDrop.symm⟩

theorem trim_of_blank {t : Text} (h : t.isBlank = true) : t.trim = [] := by
  have hTrim := trim_blank_append (t := []) h
  rwa [List.append_nil] at hTrim

end Text

namespace Padding

theorem keep_of_blank {old : Text} (h : old.isBlank = true) (v : Text) : keep old v = v := by
  simp only [keep, Text.trim_of_blank h, List.isEmpty_nil, if_true]

theorem keep_of_not_blank {old : Text} (h : old.isBlank = false) (v : Text) :
    keep old v = old.leading ++ (v.trim ++ old.trailing) := by
  have hParts := Text.padded_of_not_blank h
  have hLeading := congrArg (List.take old.leading.length) hParts.eq_append
  have hTrailing := congrArg (List.drop (old.leading.length + old.trim.length)) hParts.eq_append
  rw [List.take_left] at hLeading
  rw [← List.append_assoc, ← List.length_append, List.drop_left, List.length_append] at hTrailing
  have hCore : old.trim.isEmpty = false := by simpa using hParts.core_ne_nil
  simp only [keep, hCore, Bool.false_eq_true, if_false, Text.indexOf_trim h, hLeading, hTrailing,
    List.append_assoc]

theorem padded_keep {old v : Text} (hOld : old.isBlank = false) (hv : v.isBlank = false) :
    (keep old v).Padded old.leading v.trim old.trailing := by
  have hParts := Text.padded_of_not_blank hOld
  have hCore := Text.padded_of_not_blank hv
  exact ⟨keep_of_not_blank hOld v, hParts.before_blank, hParts.after_blank, hCore.core_ne_nil,
    hCore.head_core, hCore.last_core⟩

/-- **Padding is kept through a value that is not blank.** -/
theorem keep_keep {old v : Text} (hOld : old.isBlank = false) (hv : v.isBlank = false) (w : Text) :
    keep (keep old v) w = keep old w := by
  have hKept := padded_keep hOld hv
  rw [keep_of_not_blank hKept.not_blank, hKept.leading_eq, hKept.trailing_eq,
    keep_of_not_blank hOld]

theorem keep_self {v : Text} (hv : v.isBlank = false) : keep v v = v := by
  rw [keep_of_not_blank hv, ← (Text.padded_of_not_blank hv).eq_append]

theorem trim_keep {old : Text} (hOld : old.isBlank = false) (v : Text) :
    (keep old v).trim = v.trim := by
  have hParts := Text.padded_of_not_blank hOld
  rw [keep_of_not_blank hOld]
  exact Text.trim_append hParts.before_blank hParts.after_blank (Text.head_trim v)
    (Text.last_trim v)

theorem keep_eq_self_iff {old : Text} (hOld : old.isBlank = false) {v : Text} :
    keep old v = old ↔ v.trim = old.trim := by
  constructor
  · intro hSame
    rw [← trim_keep hOld v, hSame]
  · intro hCore
    rw [keep_of_not_blank hOld, hCore, ← (Text.padded_of_not_blank hOld).eq_append]

theorem keep_keep_self (old : Text) {v : Text} (hv : v.isBlank = false) :
    keep (keep old v) v = keep old v := by
  cases hOld : old.isBlank with
  | true => rw [keep_of_blank hOld, keep_self hv]
  | false => exact keep_keep hOld hv v

/-- **The laws of padding.**  Around the core of a text that is not blank stand blanks in one way
only, and they are what is in front of and behind the first place where the core occurs.  A value
takes the place of the core: the result trims to what the value trims to, it is the old text exactly
if the two cores are the same, and a value that is not blank leaves the padding to the next one. -/
theorem keep_between_blanks (old : Text) (hOld : old.isBlank = false) :
    ∃ before after : Text,
      (∀ b a : Text, b.isBlank = true ∧ a.isBlank = true ∧ old = b ++ (old.trim ++ a) ↔
        b = before ∧ a = after) ∧
      (∀ n, old.trim <+: old.drop n → before.length ≤ n) ∧
      ∀ v : Text, keep old v = before ++ (v.trim ++ after) ∧
        (keep old v).trim = v.trim ∧
        (keep old v = old ↔ v.trim = old.trim) ∧
        (v.isBlank = false → ∀ w, keep (keep old v) w = keep old w) := by
  refine ⟨old.leading, old.trailing, fun b a => Text.eq_append_trim_iff hOld,
    fun n hn => Text.length_leading_le hOld hn, fun v => ?_⟩
  exact ⟨keep_of_not_blank hOld v, trim_keep hOld v, keep_eq_self_iff hOld,
    fun hv w => keep_keep hOld hv w⟩

/-- A core with blanks in it that repeats itself: what occurs twice is not all of it. -/
theorem keep_between_blanks_repeated :
    let old : Text := "\t ab  ab \n"
    old.isBlank = false ∧ keep old " c\n" = "\t " ++ (Text.trim " c\n" ++ " \n") ∧
      keep old " c\n" ≠ old ∧ keep (keep old " c\n") "ab  ab" = old := by
  intro old
  have hOld : old.isBlank = false := by decide +kernel
  obtain ⟨before, after, hUnique, -, hLaws⟩ := keep_between_blanks old hOld
  have hBlanks := (hUnique "\t " " \n").mp (by decide +kernel)
  obtain ⟨hKeep, -, hSame, hAgain⟩ := hLaws " c\n"
  rw [← hBlanks.1, ← hBlanks.2] at hKeep
  refine ⟨hOld, hKeep, fun h => absurd (hSame.mp h) (by decide +kernel), ?_⟩
  rw [hAgain (by decide +kernel), (hLaws "ab  ab").2.2.1]
  decide +kernel

end Padding

namespace Scan

/-- The characters that mean something to the search for a value's end. -/
def valueMarks : Text := ['\'', '"', '/', '*', '(', ')', ';', '}', '\\']

theorem not_mem_valueMarks_of_isBlank {c : CodePoint} (hc : c.isBlank = true) : c ∉ valueMarks :=
  CodePoint.not_mem_of_class (by decide) hc

/-- A blank changes nothing, unless it is passed over for the second character of a mark. -/
theorem ValueState.advance_blank {s : ValueState} (hMark : s.mark = 0) {c : CodePoint}
    (hc : c.isBlank = true) (skipComments : Bool) (previous next : Option CodePoint) :
    s.advance skipComments previous c next = s := by
  have hMarks := not_mem_valueMarks_of_isBlank hc
  simp only [valueMarks, List.mem_cons, List.not_mem_nil, or_false, not_or] at hMarks
  obtain ⟨hSingle, hDouble, hSlash, hStar, hOpen, hClose, -, -, -⟩ := hMarks
  have hQuote : Quote.ofChar? c = none := by rw [Quote.ofChar?, if_neg hSingle, if_neg hDouble]
  rw [advance, if_neg (by omega)]
  by_cases hComment : s.comment = true
  · rw [if_pos hComment, if_neg fun h => hStar h.1]
  · rw [if_neg hComment, Quote.after_of_ofChar?_eq_none hQuote]
    cases hCurrent : s.quote with
    | some q =>
      show { s with quote := some q } = s
      rw [← hCurrent]
    | none =>
      simp only [hSlash, hOpen, hClose, false_and, and_false, if_false]
      rw [← hCurrent]

theorem valueEnd_blank_append {skipComments : Bool} {s : ValueState} (hMark : s.mark = 0)
    {blanks : Text} (hBlanks : blanks.isBlank = true) (previous : Option CodePoint) (t : Text) :
    valueEnd skipComments s previous (blanks ++ t)
      = (valueEnd skipComments s (blanks.lastOr previous) t).map (· + blanks.length) := by
  induction blanks generalizing previous with
  | nil => simp
  | cons c blanks ih =>
    have hc := Text.isBlank_iff.mp hBlanks c List.mem_cons_self
    have hRest : Text.isBlank blanks = true :=
      Text.isBlank_iff.mpr fun d hd => Text.isBlank_iff.mp hBlanks d (List.mem_cons_of_mem c hd)
    have hTerminator : isTerminator c = false := by
      have hMarks := not_mem_valueMarks_of_isBlank hc
      simp only [valueMarks, List.mem_cons, not_or] at hMarks
      simp [isTerminator, hMarks]
    rw [List.cons_append, valueEnd, if_neg (by simp [hTerminator]), s.advance_blank hMark hc,
      ih hRest, Option.map_map, Text.lastOr_cons]
    rfl

/-- Of the character in front of a value it only matters whether it escapes. -/
theorem valueEnd_escaped_congr (skipComments : Bool) (s : ValueState)
    {previous previous' : Option CodePoint}
    (h : Quote.escaped previous' = Quote.escaped previous) (t : Text) :
    valueEnd skipComments s previous' t = valueEnd skipComments s previous t := by
  cases t with
  | nil => rfl
  | cons c t =>
    have hAfter : Quote.after s.quote previous' c = Quote.after s.quote previous c := by
      simp only [Quote.after, h]
    have hAdvance : s.advance skipComments previous' c t.head?
        = s.advance skipComments previous c t.head? := by
      rw [ValueState.advance, ValueState.advance, hAfter]
    rw [valueEnd, valueEnd, hAdvance]

/-- A mark is begun only in front of its second character. -/
theorem ValueState.mark_advance (skipComments : Bool) (s : ValueState)
    (previous : Option CodePoint) (c : CodePoint) (next : Option CodePoint) :
    (s.advance skipComments previous c next).mark ≤ s.mark - 1 ∨
      (s.advance skipComments previous c next).mark = 1 ∧
        (next = some ('*' : CodePoint) ∨ next = some ('/' : CodePoint)) := by
  rw [advance]
  by_cases hMark : 0 < s.mark
  · rw [if_pos hMark]
    exact Or.inl (Nat.le_refl _)
  rw [if_neg hMark]
  have hZero : s.mark ≤ s.mark - 1 := by omega
  split
  · split
    · rename_i hClose
      exact Or.inr ⟨rfl, Or.inr hClose.2⟩
    · exact Or.inl hZero
  · split
    · exact Or.inl hZero
    · split
      · rename_i hOpen
        exact Or.inr ⟨rfl, Or.inl hOpen.2.2⟩
      · split
        · exact Or.inl hZero
        · split
          · exact Or.inl hZero
          · exact Or.inl hZero

/-- Behind a value, blanks and a semicolon tell its state no more than the semicolon alone. -/
theorem ValueState.advance_append_blank {blanks : Text} (hBlanks : blanks.isBlank = true)
    (skipComments : Bool) (s : ValueState) (previous : Option CodePoint) (c : CodePoint)
    (v : Text) : s.advance skipComments previous c (v ++ (blanks ++ [(';' : CodePoint)])).head?
      = s.advance skipComments previous c (v ++ [(';' : CodePoint)]).head? := by
  cases v with
  | cons d v => rfl
  | nil =>
    cases blanks with
    | nil => rfl
    | cons b blanks =>
      have hMarks := not_mem_valueMarks_of_isBlank
        (Text.isBlank_iff.mp hBlanks b List.mem_cons_self)
      simp only [valueMarks, List.mem_cons, not_or] at hMarks
      obtain ⟨-, -, hSlash, hStar, -⟩ := hMarks
      simp [ValueState.advance, hSlash, hStar]

theorem ValueState.mark_advance_le {s : ValueState} {v : Text} (hMark : s.mark ≤ v.length + 1)
    (skipComments : Bool) (previous : Option CodePoint) (c : CodePoint) :
    (s.advance skipComments previous c (v ++ [(';' : CodePoint)]).head?).mark ≤ v.length := by
  rcases s.mark_advance skipComments previous c (v ++ [(';' : CodePoint)]).head? with
    hLess | ⟨hOne, hHead⟩
  · omega
  · cases v with
    | nil => exact absurd hHead (by decide)
    | cons d v =>
      rw [hOne, List.length_cons]
      omega

/-- **Blanks behind a value do not matter to its end**, if no mark goes over it. -/
theorem valueEnd_append_blank_iff {skipComments : Bool} {s : ValueState}
    {previous : Option CodePoint} {v blanks : Text} (hBlanks : blanks.isBlank = true)
    (hMark : s.mark ≤ v.length) :
    valueEnd skipComments s previous (v ++ (blanks ++ [(';' : CodePoint)]))
        = some (v ++ blanks).length ↔
      valueEnd skipComments s previous (v ++ [(';' : CodePoint)]) = some v.length := by
  induction v generalizing s previous with
  | nil =>
    -- Here the mark is over, so the blanks leave the state as it is.
    have hEnd : ∀ p, valueEnd skipComments s p [(';' : CodePoint)]
        = if s.isClear then some 0 else none := by
      intro p
      simp [valueEnd, isTerminator]
    rw [List.nil_append, List.nil_append, List.nil_append,
      valueEnd_blank_append (Nat.le_zero.mp hMark) hBlanks, hEnd, hEnd]
    cases s.isClear with
    | true => simp
    | false => simp
  | cons c v ih =>
    have hSucc : ∀ (o : Option Nat) (n : Nat), o.map (· + 1) = some (n + 1) ↔ o = some n := by
      intro o n
      cases o with
      | none => simp
      | some m => simp
    rw [List.cons_append, List.cons_append, List.cons_append, valueEnd, valueEnd,
      s.advance_append_blank hBlanks]
    split
    · simp
    · rw [List.length_cons, List.length_cons, hSucc, hSucc]
      exact ih (ValueState.mark_advance_le hMark skipComments previous c)

/-- **Blanks around a value neither open nor close it.** -/
theorem closed_append_iff {config : Config} {before v after : Text}
    (hBefore : before.isBlank = true) (hAfter : after.isBlank = true) :
    Closed config (before ++ (v ++ after)) ↔ Closed config v := by
  have hEscaped : Quote.escaped (before.lastOr (some ':')) = Quote.escaped (some ':') := by
    refine Quote.escaped_lastOr (fun hLast => ?_) rfl
    have hBlank := Text.isBlank_iff.mp hBefore _ (List.mem_of_getLast? hLast)
    exact not_mem_valueMarks_of_isBlank hBlank (by decide)
  have hShift : ∀ (o : Option Nat), o.map (· + before.length) = some (before ++ (v ++ after)).length
      ↔ o = some (v ++ after).length := by
    intro o
    cases o with
    | none => simp
    | some n =>
      rw [Option.map_some, Option.some.injEq, Option.some.injEq, List.length_append]
      omega
  rw [Closed, List.append_assoc, valueEnd_blank_append rfl hBefore,
    valueEnd_escaped_congr _ _ hEscaped, hShift, List.append_assoc,
    valueEnd_append_blank_iff hAfter (Nat.zero_le _), Closed]

theorem Closed.trim {config : Config} {v : Text} (h : Closed config v) : Closed config v.trim := by
  obtain ⟨after, hAfter, hSplit⟩ := Text.eq_trimEnd_append v.trimStart
  rw [Text.eq_leading_append v, hSplit,
    closed_append_iff (Text.leading_blank v) hAfter] at h
  exact h

/-- **A closed value stays closed between the blanks of another.** -/
theorem Closed.keep {config : Config} {v : Text} (h : Closed config v) (old : Text) :
    Closed config (Padding.keep old v) := by
  cases hOld : old.isBlank with
  | true => rwa [Padding.keep_of_blank hOld]
  | false =>
    have hParts := Text.padded_of_not_blank hOld
    rw [Padding.keep_of_not_blank hOld,
      closed_append_iff hParts.before_blank hParts.after_blank]
    exact h.trim

end Scan

end CustomProperties
