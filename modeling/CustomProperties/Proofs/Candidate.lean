import CustomProperties.Proofs.Text
import CustomProperties.Scan.Candidate

/-!
# What a candidate reads

The two searches of a candidate look at nothing behind the place where they stop.  For a name this
is `nameEnd_congr`: a text that agrees up to that place gives the same answer.  For a value it is
`valueEnd_append_terminator`, which says a little more: it does not matter either which of the two
terminators stands there.  So a value is *closed* (`Closed`) or not by itself, whatever follows it.

A candidate that is a declaration is then exactly a name, blanks, a colon, a closed value and a
terminator.  `Spelling` has these parts, `readCandidate_head` reads them, and
`exists_spelling_of_readCandidate` finds them in any text that reads.

* `readCandidate_congr`: a candidate that is abandoned over its name stays so under any change of
  the text behind the place where the name search stopped.
-/

namespace CustomProperties

namespace Quote

theorem after_of_ofChar?_eq_none {q : Option Quote} {previous : Option CodePoint} {c : CodePoint}
    (h : ofChar? c = none) : after q previous c = q := by
  simp [after, h]

theorem ofChar?_char (q : Quote) : ofChar? q.char = some q := by
  cases q with
  | single => rfl
  | double => rfl

theorem eq_char_of_ofChar? {c : CodePoint} {q : Quote} (h : ofChar? c = some q) : c = q.char := by
  rw [ofChar?] at h
  split at h
  · cases h
    assumption
  · split at h
    · cases h
      assumption
    · cases h

theorem escaped_char (q : Quote) : escaped (some q.char) = false := by
  cases q with
  | single => rfl
  | double => rfl

theorem after_some (q : Quote) (previous : Option CodePoint) (c : CodePoint) :
    after (some q) previous c
      = if c = q.char ∧ escaped previous = false then none else some q := by
  cases hp : escaped previous with
  | true => simp [after, hp]
  | false =>
    cases hc : ofChar? c with
    | none =>
      have hne : c ≠ q.char := by
        rintro rfl
        rw [ofChar?_char] at hc
        cases hc
      simp [after, hp, hc, hne]
    | some p =>
      obtain rfl := eq_char_of_ofChar? hc
      by_cases h : p = q
      · subst h
        simp [after, hp, hc]
      · have hne : p.char ≠ q.char := by
          intro hChar
          rw [hChar, ofChar?_char] at hc
          exact h (Option.some.inj hc).symm
        simp [after, hp, hc, h, hne]

theorem after_none (previous : Option CodePoint) (c : CodePoint) :
    after none previous c = if escaped previous then none else ofChar? c := by
  cases hp : escaped previous with
  | true => simp [after, hp]
  | false =>
    cases hc : ofChar? c with
    | none => simp [after, hp, hc]
    | some q => simp [after, hp, hc]

/-- Behind a text that does not end in a backslash nothing is escaped that was not so before it. -/
theorem escaped_lastOr {t : Text} {previous : Option CodePoint}
    (ht : t.getLast? ≠ some ('\\' : CodePoint)) (hp : escaped previous = false) :
    escaped (t.lastOr previous) = false := by
  cases h : t.getLast? with
  | none => rwa [Text.lastOr, h, Option.none_or]
  | some c =>
    rw [h] at ht
    simpa [Text.lastOr, h, escaped] using ht

end Quote

namespace Scan

theorem isTerminator_iff {c : CodePoint} :
    isTerminator c = true ↔ c = (';' : CodePoint) ∨ c = ('}' : CodePoint) := by
  simp [isTerminator]

/-! ## Names -/

/-- How far the search for a colon read, if it came to a stop. -/
def NameEnd.stop? : NameEnd → Option Nat
  | colon length => some length
  | terminator length => some length
  | endOfText => none

theorem NameEnd.stop?_back (e : NameEnd) : e.back.stop? = e.stop?.map (· + 1) := by
  cases e with
  | colon length => rfl
  | terminator length => rfl
  | endOfText => rfl

theorem nameEnd_stop_lt {q : Option Quote} {previous : Option CodePoint} {t : Text} {n : Nat}
    (h : (nameEnd q previous t).stop? = some n) : n < t.length := by
  induction t generalizing q previous n with
  | nil => cases h
  | cons c t ih =>
    rw [nameEnd] at h
    split at h
    · cases h
      exact Nat.succ_pos _
    · split at h
      · cases h
        exact Nat.succ_pos _
      · rw [NameEnd.stop?_back] at h
        obtain ⟨m, hm, rfl⟩ := Option.map_eq_some_iff.mp h
        exact Nat.succ_lt_succ (ih hm)

/-- **The search for a colon sees nothing behind its stop.** -/
theorem nameEnd_congr {q : Option Quote} {previous : Option CodePoint} {t u : Text} {n : Nat}
    (h : (nameEnd q previous t).stop? = some n) (hu : u.take (n + 1) = t.take (n + 1)) :
    nameEnd q previous u = nameEnd q previous t := by
  induction t generalizing q previous u n with
  | nil => simp [nameEnd, NameEnd.stop?] at h
  | cons c t ih =>
    cases u with
    | nil => simp at hu
    | cons d u =>
      obtain ⟨rfl, hRest⟩ : d = c ∧ u.take n = t.take n := by
        rw [List.take_succ_cons, List.take_succ_cons] at hu
        exact List.cons.inj hu
      rw [nameEnd, nameEnd]
      rw [nameEnd] at h
      split
      · rfl
      · rename_i hColon
        rw [if_neg hColon] at h
        split
        · rfl
        · rename_i hTerminator
          rw [if_neg hTerminator, NameEnd.stop?_back] at h
          obtain ⟨m, hm, rfl⟩ := Option.map_eq_some_iff.mp h
          rw [ih hm hRest]

theorem eq_append_of_nameEnd_colon {q : Option Quote} {previous : Option CodePoint} {t : Text}
    {n : Nat} (h : nameEnd q previous t = .colon n) :
    ∃ a rest : Text, t = a ++ (':' : CodePoint) :: rest ∧ a.length = n := by
  induction t generalizing q previous n with
  | nil => simp [nameEnd] at h
  | cons c t ih =>
    rw [nameEnd] at h
    split at h
    · rename_i hc
      cases h
      exact ⟨[], t, by rw [hc.2]; rfl, rfl⟩
    · split at h
      · cases h
      · cases he : nameEnd (Quote.after q previous c) (some c) t with
        | colon m =>
          rw [he] at h
          cases h
          obtain ⟨a, rest, rfl, rfl⟩ := ih he
          exact ⟨c :: a, rest, rfl, rfl⟩
        | terminator m => rw [he] at h; cases h
        | endOfText => rw [he] at h; cases h

/-- The characters that the search for a colon does not simply pass over. -/
def nameMarks : Text := ['\'', '"', ':', ';', '}']

theorem not_mem_nameMarks_iff {c : CodePoint} : c ∉ nameMarks ↔
    Quote.ofChar? c = none ∧ c ≠ (':' : CodePoint) ∧ isTerminator c = false := by
  simp only [nameMarks, Quote.ofChar?, isTerminator, List.mem_cons, List.not_mem_nil, or_false,
    not_or, Bool.or_eq_false_iff, decide_eq_false_iff_not]
  constructor
  · rintro ⟨h1, h2, h3, h4, h5⟩
    exact ⟨by rw [if_neg h1, if_neg h2], h3, h4, h5⟩
  · rintro ⟨hq, h3, h4, h5⟩
    refine ⟨?_, ?_, h3, h4, h5⟩
    · rintro rfl
      cases hq
    · rintro rfl
      cases hq

theorem nameEnd_append_colon {previous : Option CodePoint} {a rest : Text}
    (h : ∀ c ∈ a, c ∉ nameMarks) :
    nameEnd none previous (a ++ (':' : CodePoint) :: rest) = .colon a.length := by
  induction a generalizing previous with
  | nil => simp [nameEnd]
  | cons c a ih =>
    obtain ⟨hQuote, hColon, hTerminator⟩ := not_mem_nameMarks_iff.mp (h c List.mem_cons_self)
    rw [List.cons_append, nameEnd, if_neg (by simp [hColon]), if_neg (by simp [hTerminator]),
      Quote.after_of_ofChar?_eq_none hQuote, ih fun d hd => h d (List.mem_cons_of_mem c hd)]
    rfl

/-! ## Values -/

/-- A terminator behind a character tells the value's state nothing. -/
theorem ValueState.advance_terminator (skipComments : Bool) (s : ValueState)
    (previous : Option CodePoint) (c : CodePoint) {x : CodePoint} (hx : isTerminator x = true) :
    s.advance skipComments previous c (some x) = s.advance skipComments previous c none := by
  have hSlash : x ≠ ('/' : CodePoint) := by
    rintro rfl
    exact absurd hx (by decide)
  have hStar : x ≠ ('*' : CodePoint) := by
    rintro rfl
    exact absurd hx (by decide)
  simp [advance, hSlash, hStar]

/-- **The search for a value's end sees nothing behind the end**, and not which terminator it is. -/
theorem valueEnd_append_terminator {skipComments : Bool} {s : ValueState}
    {previous : Option CodePoint} {v rest rest' : Text} {x y : CodePoint}
    (hx : isTerminator x = true) (hy : isTerminator y = true)
    (h : valueEnd skipComments s previous (v ++ x :: rest) = some v.length) :
    valueEnd skipComments s previous (v ++ y :: rest') = some v.length := by
  induction v generalizing s previous with
  | nil =>
    rw [List.nil_append, valueEnd] at h ⊢
    by_cases hs : s.isClear = true
    · rw [if_pos ⟨hs, hy⟩, List.length_nil]
    · rw [if_neg (by simp [hs])] at h
      obtain ⟨n, -, hn⟩ := Option.map_eq_some_iff.mp h
      exact absurd hn (Nat.succ_ne_zero n)
  | cons c v ih =>
    rw [List.cons_append, valueEnd] at h ⊢
    split at h
    · cases h
    · rename_i hc
      obtain ⟨n, hn, hLength⟩ := Option.map_eq_some_iff.mp h
      cases hLength
      have hNext : s.advance skipComments previous c (v ++ y :: rest').head?
          = s.advance skipComments previous c (v ++ x :: rest).head? := by
        cases v with
        | nil => exact (s.advance_terminator _ _ c hy).trans (s.advance_terminator _ _ c hx).symm
        | cons d v => rfl
      rw [if_neg hc, hNext, ih hn]
      rfl

theorem eq_append_of_valueEnd {skipComments : Bool} {s : ValueState} {previous : Option CodePoint}
    {t : Text} {n : Nat} (h : valueEnd skipComments s previous t = some n) :
    ∃ (v : Text) (x : CodePoint) (rest : Text),
      t = v ++ x :: rest ∧ v.length = n ∧ isTerminator x = true := by
  induction t generalizing s previous n with
  | nil => cases h
  | cons c t ih =>
    rw [valueEnd] at h
    split at h
    · rename_i hc
      cases h
      exact ⟨[], c, t, rfl, rfl, hc.2⟩
    · obtain ⟨m, hm, rfl⟩ := Option.map_eq_some_iff.mp h
      obtain ⟨v, x, rest, rfl, rfl, hx⟩ := ih hm
      exact ⟨c :: v, x, rest, rfl, rfl, hx⟩

/-- A value that ends by itself: the search over it and a semicolon stops at the semicolon. -/
def Closed (config : Config) (v : Text) : Prop :=
  valueEnd config.skipComments {} (some ':') (v ++ [(';' : CodePoint)]) = some v.length

instance (config : Config) (v : Text) : Decidable (Closed config v) :=
  inferInstanceAs (Decidable (_ = _))

theorem Closed.valueEnd_eq {config : Config} {v : Text} (h : Closed config v) {x : CodePoint}
    (hx : isTerminator x = true) (rest : Text) :
    valueEnd config.skipComments {} (some ':') (v ++ x :: rest) = some v.length :=
  valueEnd_append_terminator (by decide) hx h

theorem closed_of_valueEnd {config : Config} {v rest : Text} {x : CodePoint}
    (hx : isTerminator x = true)
    (h : valueEnd config.skipComments {} (some ':') (v ++ x :: rest) = some v.length) :
    Closed config v :=
  valueEnd_append_terminator hx (by decide) h

/-! ## Candidates -/

structure Spelling (config : Config) where
  name : Text
  /-- The blanks between the name and the colon. -/
  blanks : Text
  value : Text
  name_valid : PropertyName.isValid name = true
  blanks_blank : blanks.isBlank = true
  value_closed : Closed config value

namespace Spelling

variable {config : Config} (d : Spelling config)

def head : Text := d.name ++ d.blanks ++ [(':' : CodePoint)]

def reading : Reading := { name := d.name, colon := (d.name ++ d.blanks).length, value := d.value }

def declaration (selector : Text) (offset : Nat) : Declaration where
  id := Declaration.idAt offset (offset + d.head.length : Nat)
  name := d.name
  value := d.value
  start := (offset + d.head.length : Nat)
  stop := (offset + d.head.length + d.value.length : Nat)
  selector := selector

theorem length_head : d.head.length = d.reading.colon + 1 := by
  simp [head, reading, Nat.add_assoc]

theorem length_reading : d.reading.length = (d.head ++ d.value).length := by
  rw [Reading.length, ← d.length_head, List.length_append]
  rfl

theorem name_append_blanks_unmarked : ∀ c ∈ d.name ++ d.blanks, c ∉ nameMarks := by
  intro c hc
  rcases List.mem_append.mp hc with hc | hc
  · exact CodePoint.not_mem_of_class (by decide)
      (PropertyName.isNameChar_of_isValid d.name_valid c hc)
  · exact CodePoint.not_mem_of_class (by decide) (Text.isBlank_iff.mp d.blanks_blank c hc)

theorem exists_head_append_value_eq : ∃ tail : Text,
    d.head ++ d.value = ('-' : CodePoint) :: tail ∧ tail.head? = some ('-' : CodePoint) := by
  obtain ⟨body, -, hName, -⟩ := PropertyName.isValid_iff.mp d.name_valid
  rw [head, hName]
  exact ⟨_, rfl, rfl⟩

end Spelling

theorem readCandidate_of_colon {config : Config} {a rest : Text}
    (h : nameEnd none none (a ++ (':' : CodePoint) :: rest) = .colon a.length) :
    readCandidate config (a ++ (':' : CodePoint) :: rest) =
      if PropertyName.isValid a.trim then
        match valueEnd config.skipComments {} (some ':') rest with
        | some length => .ok { name := a.trim, colon := a.length, value := rest.take length }
        | none => .error (.unterminated a.trim)
      else .error (.invalidName a.trim a.length) := by
  have hDrop : (a ++ (':' : CodePoint) :: rest).drop (a.length + 1) = rest := by
    rw [← List.drop_drop, List.drop_left]
    rfl
  cases hEnd : valueEnd config.skipComments {} (some ':') rest with
  | none => simp only [readCandidate, h, List.take_left, hDrop, hEnd]
  | some length => simp only [readCandidate, h, List.take_left, hDrop, hEnd]

/-- **A spelled declaration reads as itself**, whatever follows its terminator. -/
theorem readCandidate_head {config : Config} (d : Spelling config) {x : CodePoint}
    (hx : isTerminator x = true) (rest : Text) :
    readCandidate config (d.head ++ (d.value ++ x :: rest)) = .ok d.reading := by
  rw [Spelling.head, List.append_assoc, List.singleton_append,
    readCandidate_of_colon (nameEnd_append_colon d.name_append_blanks_unmarked),
    PropertyName.trim_append_blank d.name_valid d.blanks_blank, if_pos d.name_valid,
    d.value_closed.valueEnd_eq hx]
  simp [Spelling.reading]

/-- **Whatever reads as a declaration is spelled as one.** -/
theorem exists_spelling_of_readCandidate {config : Config} {t : Text} {r : Reading}
    (hHead : t.head? = some ('-' : CodePoint)) (h : readCandidate config t = .ok r) :
    ∃ (d : Spelling config) (x : CodePoint) (rest : Text),
      d.reading = r ∧ isTerminator x = true ∧ t = d.head ++ (d.value ++ x :: rest) := by
  cases hEnd : nameEnd none none t with
  | endOfText => simp [readCandidate, hEnd] at h
  | terminator n => simp [readCandidate, hEnd] at h
  | colon n =>
    obtain ⟨a, behind, rfl, rfl⟩ := eq_append_of_nameEnd_colon hEnd
    rw [readCandidate_of_colon hEnd] at h
    split at h
    · rename_i hName
      cases hValue : valueEnd config.skipComments {} (some ':') behind with
      | none => simp [hValue] at h
      | some n =>
        obtain ⟨v, x, rest, rfl, rfl, hx⟩ := eq_append_of_valueEnd hValue
        -- The name starts with a hyphen, so trimming only takes blanks from its end.
        have hStart : Text.trimStart a = a := Text.trimStart_of_head fun c hc => by
          cases a with
          | nil => simp at hc
          | cons d a =>
            cases hHead
            cases hc
            decide
        obtain ⟨blanks, hBlanks, hSplit⟩ := Text.eq_trimEnd_append a
        have hTrim : a = Text.trim a ++ blanks := by rw [Text.trim, hStart]; exact hSplit
        refine ⟨⟨a.trim, blanks, v, hName, hBlanks, closed_of_valueEnd hx hValue⟩, x, rest, ?_, hx,
          ?_⟩
        · simp only [hValue, List.take_left, Except.ok.injEq] at h
          rw [← h, Spelling.reading, ← hTrim]
        · rw [Spelling.head, ← hTrim, List.append_assoc, List.singleton_append]
    · cases h

/-- How far the name search of an abandoned candidate read; nothing if it ran to the end of the
text, or if the name was right and the value is to blame. -/
def Abandonment.nameStop? : Abandonment → Option Nat
  | noColon terminator => terminator
  | invalidName _ colon => some colon
  | unterminated _ => none

theorem stop?_of_readCandidate {config : Config} {t : Text} {cause : Abandonment} {n : Nat}
    (h : readCandidate config t = .error cause) (hn : cause.nameStop? = some n) :
    (nameEnd none none t).stop? = some n := by
  cases hEnd : nameEnd none none t with
  | endOfText =>
    simp only [readCandidate, hEnd, Except.error.injEq] at h
    subst h
    cases hn
  | terminator m =>
    simp only [readCandidate, hEnd, Except.error.injEq] at h
    subst h
    exact hn
  | colon m =>
    simp only [readCandidate, hEnd] at h
    split at h
    · split at h
      · cases h
      · cases h
        cases hn
    · cases h
      exact hn

/-- **A candidate abandoned over its name sees nothing behind the stop of the name search.** -/
theorem readCandidate_congr {config : Config} {t u : Text} {cause : Abandonment} {n : Nat}
    (h : readCandidate config t = .error cause) (hn : cause.nameStop? = some n)
    (hu : u.take (n + 1) = t.take (n + 1)) : readCandidate config u = .error cause := by
  have hSame := nameEnd_congr (stop?_of_readCandidate h hn) hu
  cases hEnd : nameEnd none none t with
  | endOfText =>
    simp only [readCandidate, hSame, hEnd] at h ⊢
    exact h
  | terminator m =>
    simp only [readCandidate, hSame, hEnd] at h ⊢
    exact h
  | colon m =>
    obtain ⟨a, behind, rfl, rfl⟩ := eq_append_of_nameEnd_colon hEnd
    rw [readCandidate_of_colon hEnd] at h
    split at h
    · split at h
      · cases h
      · cases h
        cases hn
    · rename_i hName
      cases h
      cases hn
      obtain ⟨b, behind', rfl, hLength⟩ := eq_append_of_nameEnd_colon (hSame.trans hEnd)
      have hPart := congrArg (List.take a.length) hu
      rw [List.take_take, List.take_take, Nat.min_eq_left (Nat.le_succ _), List.take_left,
        List.take_left' hLength] at hPart
      subst hPart
      rw [readCandidate_of_colon (hSame.trans hEnd), if_neg hName]

end Scan

end CustomProperties
