import CustomProperties.Declaration
import CustomProperties.Proofs.Text
import Mathlib.Data.Prod.Lex

/-!
# Lines and columns are exact

The lines of a text are what stands between its line feeds.  A line and a column are the place of an
offset if the earlier lines, a line feed for each of them and the characters in front of the column
make up the offset (`IsPlace`).  The text in front of an offset is enough to find its place: up to
its last line feed it is the earlier lines, and what follows is the start of the line.

A place that is later, by line first and column second, has the greater offset, since the line feed
of the earlier line lies between them.  So an offset can be told from its place, and places stand in
the order of their offsets.

* `Text.columnAt_eq_sub`: the column is the distance from the last line feed.
* `Text.isPlace_lineAt`: each offset of a text has a place, and line and column are that place.
* `Text.IsPlace.lt_iff`: places stand in the order of their offsets.
* `Location.ofSpan_exact`: **the location of a span is exact.**
-/

namespace CustomProperties

namespace Text

/-! ## Lines -/

def lines (t : Text) : List Text := t.splitOn ('\n' : CodePoint)

theorem lines_append_newline (t u : Text) :
    lines (t ++ ('\n' : CodePoint) :: u) = t.lines ++ u.lines :=
  List.splitOn_append_cons_self t u

theorem lines_of_not_mem {t : Text} (h : ('\n' : CodePoint) ∉ t) : t.lines = [t] :=
  List.splitOn_eq_singleton h

theorem exists_lines_cons {c : CodePoint} (hc : c ≠ '\n') (t : Text) :
    ∃ line later, t.lines = line :: later ∧ lines (c :: t) = (c :: line) :: later := by
  cases hLines : t.lines with
  | nil => exact absurd hLines (List.splitOn_ne_nil _ t)
  | cons line later =>
    refine ⟨line, later, rfl, ?_⟩
    rw [lines, List.splitOn_eq_splitOnP] at hLines
    rw [lines, List.splitOn_eq_splitOnP, List.splitOnP_cons_eq_if_modifyHead, hLines,
      if_neg (by simp [hc]), List.modifyHead_cons]

theorem exists_lines_append {s : Text} (hs : ('\n' : CodePoint) ∉ s) (t : Text) :
    ∃ more later, lines (s ++ t) = (s ++ more) :: later := by
  induction s with
  | nil => exact List.exists_cons_of_ne_nil (List.splitOn_ne_nil _ t)
  | cons c s ih =>
    rw [List.mem_cons, not_or] at hs
    obtain ⟨more, later, hLines⟩ := ih hs.2
    obtain ⟨line, later', hTail, hCons⟩ := exists_lines_cons (Ne.symm hs.1) (s ++ t)
    rw [hLines] at hTail
    cases hTail
    exact ⟨more, later, hCons⟩

/-- There is one line more than there are line feeds, and the lines leave out nothing else. -/
theorem length_lines (t : Text) :
    t.lines.length = t.count ('\n' : CodePoint) + 1 ∧
      t.lines.flatten.length + t.count ('\n' : CodePoint) = t.length := by
  induction t with
  | nil => exact ⟨rfl, rfl⟩
  | cons c t ih =>
    by_cases hc : c = '\n'
    · subst hc
      have hLines := lines_append_newline [] t
      rw [List.nil_append] at hLines
      rw [hLines, List.count_cons_self, List.length_append, List.flatten_append, List.length_append,
        List.length_cons]
      have hNil : lines [] = [[]] := rfl
      rw [hNil]
      simp only [List.length_singleton, List.flatten_singleton, List.length_nil]
      omega
    · obtain ⟨line, later, hTail, hCons⟩ := exists_lines_cons hc t
      rw [hTail] at ih
      rw [hCons, List.count_cons_of_ne hc]
      simp only [List.length_cons, List.flatten_cons, List.length_append] at ih ⊢
      omega

theorem exists_last_newline {t : Text} (h : ('\n' : CodePoint) ∈ t) :
    ∃ before s : Text, t = before ++ ('\n' : CodePoint) :: s ∧ ('\n' : CodePoint) ∉ s := by
  obtain ⟨s, before, hReverse, hs⟩ := List.eq_append_cons_of_mem (List.mem_reverse.mpr h)
  refine ⟨before.reverse, s.reverse, ?_, fun hMem => hs (List.mem_reverse.mp hMem)⟩
  rw [← List.reverse_reverse t, hReverse]
  simp

/-! ## Places -/

/-- A line and a column are the place of an offset: there is such a line, the column is that of one
of its characters or the one behind them, and the earlier lines with their line feeds and the
characters in front of the column make up the offset. -/
def IsPlace (t : Text) (offset line column : Int) : Prop :=
  ∃ (earlier : List Text) (text : Text) (later : List Text),
    t.lines = earlier ++ text :: later ∧ line = earlier.length + 1 ∧
      1 ≤ column ∧ column ≤ text.length + 1 ∧
      offset = earlier.flatten.length + (line - 1) + (column - 1)

theorem columnAt_of_not_mem {t : Text} {offset : Nat} (h : ('\n' : CodePoint) ∉ t.take offset) :
    t.columnAt offset = (t.take offset).length + 1 := by
  have hReverse : ('\n' : CodePoint) ∉ (t.take offset).reverse := mt List.mem_reverse.mp h
  rw [columnAt, ← List.append_nil (t.take offset).reverse, takeWhile_ne_append hReverse,
    List.takeWhile_nil, List.append_nil, List.length_reverse]

theorem columnAt_of_take_eq {t before s : Text} {offset : Nat}
    (h : t.take offset = before ++ ('\n' : CodePoint) :: s) (hs : ('\n' : CodePoint) ∉ s) :
    t.columnAt offset = s.length + 1 := by
  have hReverse : ('\n' : CodePoint) ∉ s.reverse := mt List.mem_reverse.mp hs
  rw [columnAt, h, List.reverse_append, List.reverse_cons, List.append_assoc,
    takeWhile_ne_append hReverse, List.singleton_append, List.takeWhile_cons_of_neg (by simp),
    List.append_nil, List.length_reverse]

/-- The last offset at which a character stands in the text, or -1 if there is none. -/
def lastIndexOf (c : CodePoint) : Text → Int
  | [] => -1
  | d :: rest =>
    if 0 ≤ lastIndexOf c rest then lastIndexOf c rest + 1 else if d = c then 0 else -1

theorem lastIndexOf_of_not_mem {c : CodePoint} {t : Text} (h : c ∉ t) : lastIndexOf c t = -1 := by
  induction t with
  | nil => rfl
  | cons d t ih =>
    rw [List.mem_cons, not_or] at h
    rw [lastIndexOf, ih h.2, if_neg (by decide), if_neg (Ne.symm h.1)]

theorem lastIndexOf_append {c : CodePoint} (before : Text) {s : Text} (hs : c ∉ s) :
    lastIndexOf c (before ++ c :: s) = before.length := by
  induction before with
  | nil =>
    rw [List.nil_append, lastIndexOf, lastIndexOf_of_not_mem hs, if_neg (by decide), if_pos rfl]
    rfl
  | cons d before ih =>
    rw [List.cons_append, lastIndexOf, ih, if_pos (Int.natCast_nonneg _)]
    rfl

/-- The column is the distance from the last line feed, which for the first line stands in front of
the text. -/
theorem columnAt_eq_sub {t : Text} {offset : Nat} (h : offset ≤ t.length) :
    (t.columnAt offset : Int) = offset - lastIndexOf '\n' (t.take offset) := by
  have hLength : (t.take offset).length = offset := List.length_take_of_le h
  by_cases hMem : ('\n' : CodePoint) ∈ t.take offset
  · obtain ⟨before, s, hTake, hs⟩ := exists_last_newline hMem
    rw [columnAt_of_take_eq hTake hs, hTake, lastIndexOf_append before hs]
    rw [hTake] at hLength
    simp only [List.length_append, List.length_cons] at hLength
    omega
  · rw [columnAt_of_not_mem hMem, lastIndexOf_of_not_mem hMem]
    omega

/-- **Line and column are the place of their offset.** -/
theorem isPlace_lineAt {t : Text} {offset : Nat} (h : offset ≤ t.length) :
    t.IsPlace offset (t.lineAt offset) (t.columnAt offset) := by
  have hText := List.take_append_drop offset t
  have hLength : (t.take offset).length = offset := List.length_take_of_le h
  by_cases hMem : ('\n' : CodePoint) ∈ t.take offset
  · -- Up to the last line feed in front of the offset stand the earlier lines.
    obtain ⟨before, s, hTake, hs⟩ := exists_last_newline hMem
    obtain ⟨more, later, hLines⟩ := exists_lines_append hs (t.drop offset)
    obtain ⟨hCount, hFlatten⟩ := length_lines before
    refine ⟨before.lines, s ++ more, later, ?_, ?_, ?_⟩
    · rw [← hLines, ← lines_append_newline, ← List.cons_append, ← List.append_assoc, ← hTake, hText]
    · rw [lineAt, hTake, List.count_append, List.count_cons_self, List.count_eq_zero_of_not_mem hs]
      omega
    · rw [lineAt, columnAt_of_take_eq hTake hs, hTake, List.count_append, List.count_cons_self,
        List.count_eq_zero_of_not_mem hs]
      rw [hTake] at hLength
      simp only [List.length_append, List.length_cons] at hLength ⊢
      omega
  · -- Without one, the offset lies on the first line.
    obtain ⟨more, later, hLines⟩ := exists_lines_append hMem (t.drop offset)
    refine ⟨[], t.take offset ++ more, later, ?_, ?_, ?_⟩
    · rw [List.nil_append, ← hLines, hText]
    · rw [lineAt, List.count_eq_zero_of_not_mem hMem]
      rfl
    · rw [lineAt, columnAt_of_not_mem hMem, List.count_eq_zero_of_not_mem hMem]
      simp only [List.length_append, List.flatten_nil, List.length_nil]
      omega

namespace IsPlace

variable {t : Text} {offset line column offset' line' column' : Int}

/-- Within a line, offsets differ like columns. -/
theorem sub_eq (h : t.IsPlace offset line column) (h' : t.IsPlace offset' line column') :
    offset' - offset = column' - column := by
  obtain ⟨earlier, text, later, hLines, hLine, -, -, hOffset⟩ := h
  obtain ⟨earlier', text', later', hLines', hLine', -, -, hOffset'⟩ := h'
  obtain ⟨rfl, -⟩ := List.append_inj (hLines.symm.trans hLines') (by omega)
  omega

/-- Between two lines there is the line feed of the first. -/
theorem lt_of_line_lt (h : t.IsPlace offset line column) (h' : t.IsPlace offset' line' column')
    (hLess : line < line') : offset < offset' := by
  obtain ⟨earlier, text, later, hLines, hLine, -, hColumn, hOffset⟩ := h
  obtain ⟨earlier', text', later', hLines', hLine', hColumn', -, hOffset'⟩ := h'
  -- The line itself is one of those in front of the later line.
  obtain ⟨between, hBetween⟩ : ∃ between, earlier' = earlier ++ text :: between := by
    rcases List.append_eq_append_iff.mp (hLines.symm.trans hLines') with
      ⟨between, hEarlier, hRest⟩ | ⟨_, hEarlier, -⟩
    · cases between with
      | nil =>
        rw [hEarlier, List.append_nil] at hLine'
        omega
      | cons first between =>
        cases hRest
        exact ⟨between, hEarlier⟩
    · have hLength := congrArg List.length hEarlier
      rw [List.length_append] at hLength
      omega
  have hFlatten : earlier'.flatten.length
      = earlier.flatten.length + (text.length + between.flatten.length) := by
    rw [hBetween, List.flatten_append, List.flatten_cons, List.length_append, List.length_append]
  omega

/-- **Places stand in the order of their offsets.** -/
theorem lt_iff (h : t.IsPlace offset line column) (h' : t.IsPlace offset' line' column') :
    toLex (line, column) < toLex (line', column') ↔ offset < offset' := by
  rw [Prod.Lex.toLex_lt_toLex]
  rcases lt_trichotomy line line' with hLine | rfl | hLine
  · exact iff_of_true (Or.inl hLine) (h.lt_of_line_lt h' hLine)
  · have hSub := h.sub_eq h'
    simp only [lt_irrefl, false_or, true_and]
    omega
  · have hOffset := h'.lt_of_line_lt h hLine
    refine iff_of_false ?_ (by omega)
    rintro (hLess | ⟨hEq, -⟩)
    · omega
    · omega

end IsPlace

end Text

namespace Location

def place (l : Location) : ℤ ×ₗ ℤ := toLex (l.line, l.column)

/-- What the location of a span has to tell: the offsets cut to the source, and the places of both
in the source. -/
structure Covers (l : Location) (source : Text) (start stop : Int) : Prop where
  offset_eq : l.offset = max 0 (min start source.length)
  endOffset_eq : l.endOffset = max l.offset (min stop source.length)
  offset_nonneg : 0 ≤ l.offset
  offset_le : l.offset ≤ l.endOffset
  endOffset_le : l.endOffset ≤ source.length
  isPlace : source.IsPlace l.offset l.line l.column
  isPlace_end : ∃ endLine endColumn, l.endLine = some endLine ∧ l.endColumn = some endColumn ∧
    source.IsPlace l.endOffset endLine endColumn ∧ l.place ≤ toLex (endLine, endColumn)

theorem covers_ofSpan (source : Text) (start stop : Int) (file : Option Text) :
    (ofSpan source start stop file).Covers source start stop := by
  obtain ⟨first, hFirst⟩ : ∃ first : Nat, max 0 (min start source.length) = (first : Int) :=
    Int.eq_ofNat_of_zero_le (by omega)
  obtain ⟨last, hLast⟩ : ∃ last : Nat, max (first : Int) (min stop source.length) = (last : Int) :=
    Int.eq_ofNat_of_zero_le (by omega)
  have hSpan : ofSpan source start stop file =
      { line := source.lineAt first, column := source.columnAt first, offset := first,
        endOffset := last, endLine := some (source.lineAt last : Int),
        endColumn := some (source.columnAt last : Int), file } := by
    simp only [ofSpan, hFirst, hLast, Int.toNat_natCast]
  have hPlace : source.IsPlace first (source.lineAt first) (source.columnAt first) :=
    Text.isPlace_lineAt (by omega)
  have hEnd : source.IsPlace last (source.lineAt last) (source.columnAt last) :=
    Text.isPlace_lineAt (by omega)
  rw [hSpan]
  exact {
    offset_eq := hFirst.symm
    endOffset_eq := hLast.symm
    offset_nonneg := Int.natCast_nonneg first
    offset_le := show (first : Int) ≤ last by omega
    endOffset_le := show (last : Int) ≤ source.length by omega
    isPlace := hPlace
    isPlace_end := ⟨_, _, rfl, rfl, hEnd,
      not_lt.mp fun hLess => absurd ((hEnd.lt_iff hPlace).mp hLess) (by omega)⟩ }

theorem place_lt_place {source : Text} {a b : Int} (ha : 0 ≤ a) (hLess : a < b)
    (hb : b ≤ source.length) (stop stop' : Int) (file : Option Text) :
    (ofSpan source a stop file).place < (ofSpan source b stop' file).place := by
  have hFirst := covers_ofSpan source a stop file
  have hSecond := covers_ofSpan source b stop' file
  refine (hFirst.isPlace.lt_iff hSecond.isPlace).mpr ?_
  rw [hFirst.offset_eq, hSecond.offset_eq]
  omega

/-- **The location of a span is exact.**  Its offsets are those of the span, cut to the source, and
its lines and columns are their places.  The places of a source stand in the order of their offsets,
and no two offsets have the same. -/
theorem ofSpan_exact (source : Text) (file : Option Text) :
    (∀ start stop : Int, (ofSpan source start stop file).Covers source start stop) ∧
    (∀ a b stop stop' : Int, 0 ≤ a → a < b → b ≤ source.length →
      (ofSpan source a stop file).place < (ofSpan source b stop' file).place) ∧
    ∀ a b stop stop' : Int, 0 ≤ a → a ≤ source.length → 0 ≤ b → b ≤ source.length →
      (ofSpan source a stop file).place = (ofSpan source b stop' file).place → a = b := by
  refine ⟨fun start stop => covers_ofSpan source start stop file,
    fun a b stop stop' ha hLess hb => place_lt_place ha hLess hb stop stop' file,
    fun a b stop stop' ha ha' hb hb' hSame => ?_⟩
  rcases lt_trichotomy a b with hLess | hEq | hLess
  · exact absurd hSame (place_lt_place ha hLess hb' stop stop' file).ne
  · exact hEq
  · exact absurd hSame (place_lt_place hb hLess ha' stop' stop file).ne'

-- An empty line has one place, and behind a last line feed there is one more line.
example : ofSpan "a\n\nb\n" 2 9 none =
    { line := 2, column := 1, offset := 2, endOffset := 5, endLine := some 4,
      endColumn := some 1 } := by decide +kernel

end Location

end CustomProperties
