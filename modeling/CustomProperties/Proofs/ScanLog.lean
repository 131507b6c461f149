import CustomProperties.Proofs.Quoted
import CustomProperties.Proofs.ValueEnd
import CustomProperties.Proofs.Visit
import Mathlib.Data.List.Forall2
import Mathlib.Data.List.Pairwise

/-!
# The log of a scan accounts for its candidates

A scan leaves a record of every candidate that it abandons, and a declaration for every other one.
Records and declarations together are the candidates in the order in which they stand in the source,
and the reason that a record gives is the one that the source gives.

A reason is said of the source and not of the search: which characters stand outside quotes is read
off the source (`Unquoted`), and so is the colon at which a name ends (`NameColon`).  At most one
reason holds of a candidate (`Reason.Holds.unique`), and a message says which one it gives
(`Reason.message_injective`), so what a record says is what holds.

* `nameSearch_nameEnd`: the search for a colon stops where the source says.
* `holds_of_readCandidate`: the reason for which a candidate is abandoned holds of it.
* `accurate_walk`: where the candidates of a walk stand.
* `log_accounts`: **the log is an exact account of the candidates.**
-/

namespace CustomProperties.Scan

/-! ## Outside quotes -/

/-- The character `c` stands at offset `i`, where no quote is open that was opened behind
`start`. -/
structure Unquoted (source : Text) (start : Nat) (c : CodePoint) (i : Nat) : Prop where
  start_le : start ≤ i
  char_eq : source[i]? = some c
  quote_eq : (lexicalAt false source start i).quote = none

def nameStops : Text := [':', ';', '}']

/-- The colon at offset `i` ends the name that starts at `start`: it is the first of the characters
outside quotes at which a name can end. -/
structure NameColon (source : Text) (start i : Nat) : Prop where
  colon : Unquoted source start ':' i
  first : ∀ j < i, ∀ c ∈ nameStops, ¬ Unquoted source start c j

theorem NameColon.unique {source : Text} {start i j : Nat} (hi : NameColon source start i)
    (hj : NameColon source start j) : i = j := by
  rcases Nat.lt_trichotomy i j with h | h | h
  · exact absurd hi.colon (hj.first i h _ (by decide))
  · exact h
  · exact absurd hj.colon (hi.first j h _ (by decide))

theorem Lexical.readFrom_succ (skipComments : Bool) (source : Text) (s : Lexical) (i n : Nat) :
    s.readFrom skipComments source i (n + 1)
      = (s.readFrom skipComments source i n).read skipComments source (i + n) := by
  induction n generalizing s i with
  | zero => rfl
  | succ n ih =>
    rw [readFrom, ih, readFrom, Nat.add_right_comm i 1 n, Nat.add_assoc]

theorem lexicalAt_succ {start i : Nat} (h : start ≤ i) (skipComments : Bool) (source : Text) :
    lexicalAt skipComments source start (i + 1)
      = (lexicalAt skipComments source start i).read skipComments source i := by
  obtain ⟨n, rfl⟩ := Nat.exists_eq_add_of_le h
  rw [lexicalAt, lexicalAt, Nat.add_assoc, Nat.add_sub_cancel_left, Nat.add_sub_cancel_left,
    Lexical.readFrom_succ]

/-- Where comments are not passed over, a character only changes which quote is open and how many
parentheses. -/
theorem Lexical.read_eq {source : Text} {i : Nat} {s : Lexical} (hs : s.comment = none)
    {c : CodePoint} (hc : source[i]? = some c) :
    (s.read false source i).quote = Quote.after s.quote (source.take i).getLast? c ∧
      (s.read false source i).comment = none := by
  have hEscaped := escaped_getLast?_take (List.getElem?_eq_some_iff.mp hc).1
  have hRead : s.read false source i = s.readChar (Quote.escaped (source.take i).getLast?) c := by
    simp [read, hs, hc, hEscaped]
  obtain ⟨q, d, comment⟩ := s
  cases hs
  rw [hRead]
  cases hQuote : Quote.ofChar? c with
  | some p =>
    obtain rfl := Quote.eq_char_of_ofChar? hQuote
    rw [readChar_quote]
    exact ⟨rfl, rfl⟩
  | none =>
    rw [Quote.after_of_ofChar?_eq_none hQuote, readChar, hQuote]
    cases q with
    | some p => exact ⟨rfl, rfl⟩
    | none =>
      simp only
      split
      · exact ⟨rfl, rfl⟩
      · split
        · exact ⟨rfl, rfl⟩
        · exact ⟨rfl, rfl⟩

/-! ## The search for a colon -/

/-- How the search for a colon, from offset `i` on, must end for a name that starts at `start`. -/
inductive NameSearch (source : Text) (start i : Nat) : NameEnd → Prop
  | colon {n : Nat} : NameColon source start (i + n) → NameSearch source start i (.colon n)
  | terminator {n : Nat} {c : CodePoint} : isTerminator c = true →
      Unquoted source start c (i + n) →
      (∀ j < i + n, ∀ c ∈ nameStops, ¬ Unquoted source start c j) →
      NameSearch source start i (.terminator n)
  | endOfText : (∀ j, ∀ c ∈ nameStops, ¬ Unquoted source start c j) →
      NameSearch source start i .endOfText

theorem NameSearch.back {source : Text} {start i : Nat} {e : NameEnd}
    (h : NameSearch source start (i + 1) e) : NameSearch source start i e.back := by
  have hShift : ∀ n, i + 1 + n = i + (n + 1) := by omega
  cases h with
  | colon h => exact .colon (hShift _ ▸ h)
  | terminator hc h hFirst => exact .terminator hc (hShift _ ▸ h) (hShift _ ▸ hFirst)
  | endOfText h => exact .endOfText h

theorem mem_nameStops_iff {c : CodePoint} :
    c ∈ nameStops ↔ c = (':' : CodePoint) ∨ isTerminator c = true := by
  simp [nameStops, isTerminator_iff]

/-- **The search for a colon stops where the source says.** -/
theorem nameSearch_nameEnd {source : Text} {start i : Nat} (hStart : start ≤ i)
    (hComment : (lexicalAt false source start i).comment = none)
    (hBefore : ∀ j < i, ∀ c ∈ nameStops, ¬ Unquoted source start c j) :
    NameSearch source start i (nameEnd (lexicalAt false source start i).quote
      (source.take i).getLast? (source.drop i)) := by
  -- The induction is on the text that is left; what is in front of it is the offset.
  induction ht : source.drop i generalizing i with
  | nil =>
    have hEnd : source.length ≤ i := List.drop_eq_nil_iff.mp ht
    refine .endOfText fun j c hc hj => ?_
    have hInside := (List.getElem?_eq_some_iff.mp hj.char_eq).1
    exact hBefore j (by omega) c hc hj
  | cons c rest ih =>
    have hc : source[i]? = some c := by rw [← List.head?_drop, ht, List.head?_cons]
    have hRest : source.drop (i + 1) = rest := by
      rw [← List.drop_drop, ht, List.drop_one, List.tail_cons]
    have hLast : (source.take (i + 1)).getLast? = some c := by
      rw [List.take_add_one, hc, Option.toList_some, List.getLast?_append, List.getLast?_singleton,
        Option.some_or]
    rw [nameEnd]
    split
    · rename_i hColon
      exact .colon ⟨⟨hStart, hColon.2 ▸ hc, hColon.1⟩, hBefore⟩
    · rename_i hColon
      split
      · rename_i hTerminator
        exact .terminator hTerminator.2 ⟨hStart, hc, hTerminator.1⟩ hBefore
      · rename_i hTerminator
        obtain ⟨hQuote, hComment'⟩ := Lexical.read_eq hComment hc
        rw [← lexicalAt_succ hStart] at hQuote hComment'
        have hHere : ∀ j < i + 1, ∀ d ∈ nameStops, ¬ Unquoted source start d j := by
          intro j hj d hd hUnquoted
          rcases Nat.lt_succ_iff_lt_or_eq.mp hj with hj | rfl
          · exact hBefore j hj d hd hUnquoted
          · obtain rfl : c = d := Option.some.inj (hc.symm.trans hUnquoted.char_eq)
            rcases mem_nameStops_iff.mp hd with hd | hd
            · exact hColon ⟨hUnquoted.quote_eq, hd⟩
            · exact hTerminator ⟨hUnquoted.quote_eq, hd⟩
        rw [← hQuote, ← hLast]
        exact (ih (Nat.le_succ_of_le hStart) hComment' hHere hRest).back

/-- A hyphen is no quote, so it does not matter what stands in front of it. -/
theorem nameEnd_hyphen (previous previous' : Option CodePoint) (t : Text) :
    nameEnd none previous (('-' : CodePoint) :: t)
      = nameEnd none previous' (('-' : CodePoint) :: t) := by
  rw [nameEnd, nameEnd, Quote.after_of_ofChar?_eq_none rfl, Quote.after_of_ofChar?_eq_none rfl]

/-! ## Reasons -/

inductive Reason
  | noColon
  | invalidName (name : Text)
  | unterminated (name : Text)
deriving DecidableEq

namespace Reason

def message (start : Nat) : Reason → Text
  | noColon => "Abandoned candidate at " ++ Text.ofNat start ++ ": no colon before terminator"
  | invalidName name =>
    "Abandoned candidate at " ++ Text.ofNat start ++ ": invalid name " ++ name.quoted
  | unterminated name =>
    "Abandoned " ++ name ++ " at " ++ Text.ofNat start ++ ": value has no terminator"

/-- The reason holds of the candidate at `start`.  Either every colon outside quotes has a
terminator outside quotes before it; or a name ends at a colon, and is none, or is one without a
place where the value behind the colon can end. -/
def Holds (config : Config) (source : Text) (start : Nat) : Reason → Prop
  | noColon => ∀ i, Unquoted source start ':' i →
      ∃ j < i, Unquoted source start ';' j ∨ Unquoted source start '}' j
  | invalidName name => ∃ i, NameColon source start i ∧ name = (source.slice start i).trim ∧
      PropertyName.isValid name = false
  | unterminated name => ∃ i, NameColon source start i ∧ name = (source.slice start i).trim ∧
      PropertyName.isValid name = true ∧ ∀ e, ¬ EndsAt config.skipComments source (i + 1) e

theorem not_nameColon_of_noColon {config : Config} {source : Text} {start i : Nat}
    (h : noColon.Holds config source start) : ¬ NameColon source start i := by
  intro hi
  obtain ⟨j, hj, hTerminator | hTerminator⟩ := h i hi.colon
  · exact hi.first j hj _ (by decide) hTerminator
  · exact hi.first j hj _ (by decide) hTerminator

/-- **At most one reason holds of a candidate.** -/
theorem Holds.unique {config : Config} {source : Text} {start : Nat} {r r' : Reason}
    (h : r.Holds config source start) (h' : r'.Holds config source start) : r = r' := by
  cases r with
  | noColon =>
    cases r' with
    | noColon => rfl
    | invalidName name =>
      obtain ⟨i, hi, -⟩ := h'
      exact absurd hi (not_nameColon_of_noColon h)
    | unterminated name =>
      obtain ⟨i, hi, -⟩ := h'
      exact absurd hi (not_nameColon_of_noColon h)
  | invalidName name =>
    obtain ⟨i, hi, rfl, hName⟩ := h
    cases r' with
    | noColon => exact absurd hi (not_nameColon_of_noColon h')
    | invalidName name' =>
      obtain ⟨j, hj, rfl, -⟩ := h'
      rw [hi.unique hj]
    | unterminated name' =>
      obtain ⟨j, hj, rfl, hName', -⟩ := h'
      rw [hi.unique hj, hName'] at hName
      cases hName
  | unterminated name =>
    obtain ⟨i, hi, rfl, hName, -⟩ := h
    cases r' with
    | noColon => exact absurd hi (not_nameColon_of_noColon h')
    | invalidName name' =>
      obtain ⟨j, hj, rfl, hName'⟩ := h'
      rw [hi.unique hj, hName'] at hName
      cases hName
    | unterminated name' =>
      obtain ⟨j, hj, rfl, -⟩ := h'
      rw [hi.unique hj]

/-- What follows the quotes of a name is the end of the message. -/
theorem getLast?_message_invalidName (start : Nat) (name : Text) :
    ((invalidName name).message start).getLast? = some name.quoteMark := by
  rw [message, Text.quoted, List.getLast?_append, List.getLast?_append]
  rfl

theorem message_ne_invalidName {start : Nat} {r : Reason}
    (h : (r.message start).getLast? = some ('r' : CodePoint)) (name : Text) :
    r.message start ≠ (invalidName name).message start := by
  intro hSame
  rw [hSame, getLast?_message_invalidName] at h
  rcases Text.quoteMark_eq name with hMark | hMark
  · rw [hMark] at h
    exact absurd h (by decide)
  · rw [hMark] at h
    exact absurd h (by decide)

theorem getLast?_message_noColon (start : Nat) :
    (noColon.message start).getLast? = some ('r' : CodePoint) := by
  rw [message, List.getLast?_append]
  rfl

theorem getLast?_message_unterminated (start : Nat) (name : Text) :
    ((unterminated name).message start).getLast? = some ('r' : CodePoint) := by
  rw [message, List.getLast?_append]
  rfl

/-- Both messages end in the same word; the word before it differs. -/
theorem message_noColon_ne_unterminated (start : Nat) (name : Text) :
    noColon.message start ≠ (unterminated name).message start := by
  intro hSame
  have hEnd := congrArg (fun t : Text => (t.reverse.take 12)) hSame
  simp only [message, List.reverse_append] at hEnd
  rw [List.take_append_of_le_length (by decide), List.take_append_of_le_length (by decide)] at hEnd
  exact absurd hEnd (by decide)

/-- **A message says which reason it gives.** -/
theorem message_injective {start : Nat} {r r' : Reason} (h : r.message start = r'.message start) :
    r = r' := by
  cases r with
  | noColon =>
    cases r' with
    | noColon => rfl
    | invalidName name =>
      exact absurd h (message_ne_invalidName (getLast?_message_noColon start) name)
    | unterminated name => exact absurd h (message_noColon_ne_unterminated start name)
  | invalidName name =>
    cases r' with
    | noColon => exact absurd h.symm (message_ne_invalidName (getLast?_message_noColon start) name)
    | invalidName name' =>
      rw [message, message, List.append_cancel_left_eq] at h
      rw [Text.quoted_injective h]
    | unterminated name' =>
      exact absurd h.symm (message_ne_invalidName (getLast?_message_unterminated start name') name)
  | unterminated name =>
    cases r' with
    | noColon => exact absurd h.symm (message_noColon_ne_unterminated start name)
    | invalidName name' =>
      exact absurd h (message_ne_invalidName (getLast?_message_unterminated start name) name')
    | unterminated name' =>
      simp only [message, List.append_cancel_right_eq, List.append_cancel_left_eq] at h
      rw [h]

end Reason

def Abandonment.reason : Abandonment → Reason
  | noColon _ => .noColon
  | invalidName name _ => .invalidName name
  | unterminated name => .unterminated name

theorem Abandonment.message_eq (cause : Abandonment) (start : Nat) :
    cause.message start = cause.reason.message start := by
  cases cause with
  | noColon terminator => rfl
  | invalidName name colon => rfl
  | unterminated name => rfl

theorem valueEndAt_of_nameColon {skipComments : Bool} {source : Text} {start n : Nat}
    (h : NameColon source start (start + n)) :
    valueEndAt skipComments source (start + n + 1)
      = (valueEnd skipComments {} (some ':') ((source.drop start).drop (n + 1))).map
        (start + n + 1 + ·) := by
  have hColon : (source.take (start + n + 1)).getLast? = some (':' : CodePoint) := by
    rw [List.take_add_one, h.colon.char_eq, Option.toList_some, List.getLast?_append,
      List.getLast?_singleton, Option.some_or]
  rw [valueEndAt, hColon, List.drop_drop, Nat.add_assoc]

/-- **The reason for which a candidate is abandoned holds of it.** -/
theorem holds_of_readCandidate {config : Config} {source more : Text} {start : Nat}
    {cause : Abandonment} (hText : source.drop start = ('-' : CodePoint) :: more)
    (h : readCandidate config (source.drop start) = .error cause) :
    cause.reason.Holds config source start := by
  have hSearch : NameSearch source start start (nameEnd none none (source.drop start)) := by
    have hEmpty : lexicalAt false source start start = {} := by
      rw [lexicalAt, Nat.sub_self, Lexical.readFrom]
    have hComment : (lexicalAt false source start start).comment = none := by rw [hEmpty]
    have hFrom := nameSearch_nameEnd (Nat.le_refl start) hComment
      fun j hj c _ hUnquoted => Nat.not_lt.mpr hUnquoted.start_le hj
    rw [hEmpty, hText, nameEnd_hyphen _ none] at hFrom
    rwa [hText]
  have hSlice : ∀ n, (source.drop start).take n = source.slice start (start + n : Nat) := by
    intro n
    rw [Text.slice_natCast, List.drop_take, Nat.add_sub_cancel_left]
  rw [readCandidate] at h
  cases hEnd : nameEnd none none (source.drop start) with
  | endOfText =>
    rw [hEnd] at h hSearch
    cases h
    cases hSearch with
    | endOfText hNone => exact fun i hi => absurd hi (hNone i _ (by decide))
  | terminator n =>
    rw [hEnd] at h hSearch
    cases h
    cases hSearch with
    | @terminator _ c hc hHere hFirst =>
      intro i hi
      refine ⟨start + n, ?_, ?_⟩
      · rcases Nat.lt_trichotomy (start + n) i with hLess | rfl | hLess
        · exact hLess
        · cases Option.some.inj (hHere.char_eq.symm.trans hi.char_eq)
          exact absurd hc (by decide)
        · exact absurd hi (hFirst i hLess _ (by decide))
      · rcases isTerminator_iff.mp hc with rfl | rfl
        · exact Or.inl hHere
        · exact Or.inr hHere
  | colon n =>
    rw [hEnd] at h hSearch
    cases hSearch with
    | colon hColon =>
      simp only [hSlice] at h
      split at h
      · rename_i hName
        cases hValue : valueEnd config.skipComments {} (some ':')
            ((source.drop start).drop (n + 1)) with
        | some length =>
          rw [hValue] at h
          cases h
        | none =>
          rw [hValue] at h
          cases h
          refine ⟨start + n, hColon, rfl, hName, valueEndAt_eq_none_iff.mp ?_⟩
          rw [valueEndAt_of_nameColon hColon, hValue, Option.map_none]
      · rename_i hName
        cases h
        exact ⟨start + n, hColon, rfl, Bool.not_eq_true _ ▸ hName⟩

/-! ## The candidates of a walk -/

def Event.offset : Event → Nat
  | found offset _ => offset
  | abandoned offset _ => offset

/-- How far a candidate reaches: a declaration to its terminator, an abandoned one no further than
its first hyphen. -/
def Event.reach : Event → Int
  | found _ d => d.stop
  | abandoned offset _ => offset

/-- The candidate stands in the source, and reading it there fails for the cause that it was
abandoned for. -/
structure Event.Accurate (config : Config) (source : Text) (e : Event) : Prop where
  hyphens : ∃ more : Text, source.drop e.offset = ('-' : CodePoint) :: ('-' : CodePoint) :: more
  offset_le : e.offset ≤ e.reach
  cause_eq : ∀ cause, e = .abandoned e.offset cause →
    readCandidate config (source.drop e.offset) = .error cause

/-- **The candidates of a walk stand in the source, each one behind what the one before it
reaches.** -/
theorem accurate_walk (config : Config) (s : State) (offset : Nat) (previous : Option CodePoint)
    (t before : Text) (hBefore : before.length = offset) :
    (∀ e ∈ (walk config 0 s offset previous t).events,
      offset ≤ e.offset ∧ e.Accurate config (before ++ t)) ∧
    (walk config 0 s offset previous t).events.Pairwise fun e e' => e.reach < e'.offset := by
  refine walk_induction
    (motive := fun _ offset _ t trace => ∀ before : Text, before.length = offset →
      (∀ e ∈ trace.events, offset ≤ e.offset ∧ e.Accurate config (before ++ t)) ∧
        trace.events.Pairwise fun e e' => e.reach < e'.offset)
    ?_ ?_ ?_ ?_ s offset previous t before hBefore
  · intro s offset previous before _
    exact ⟨fun e he => absurd he List.not_mem_nil, .nil⟩
  · intro s offset previous a rest s' _ _ ih before hBefore
    obtain ⟨hAll, hOrder⟩ := ih (before ++ a) (by rw [List.length_append, hBefore])
    rw [List.append_assoc] at hAll
    exact ⟨fun e he => ⟨Nat.le_of_add_right_le (hAll e he).1, (hAll e he).2⟩, hOrder⟩
  · intro s offset previous more cause _ hRead ih before hBefore
    subst hBefore
    obtain ⟨hAll, hOrder⟩ := ih (before ++ [('-' : CodePoint)]) (by simp)
    rw [List.append_assoc, List.singleton_append] at hAll
    have hDrop : (before ++ ('-' : CodePoint) :: ('-' : CodePoint) :: more).drop before.length
        = ('-' : CodePoint) :: ('-' : CodePoint) :: more := List.drop_left
    refine ⟨List.forall_mem_cons.mpr ⟨⟨Nat.le_refl _, ⟨more, hDrop⟩, Int.le_refl _, ?_⟩, ?_⟩,
      List.pairwise_cons.mpr ⟨fun e he => ?_, hOrder⟩⟩
    · intro cause' hCause
      cases hCause
      rwa [Event.offset, hDrop]
    · exact fun e he => ⟨Nat.le_of_succ_le (hAll e he).1, (hAll e he).2⟩
    · exact Int.ofNat_lt.mpr (hAll e he).1
  · intro s offset previous d x rest _ hx ih before hBefore
    subst hBefore
    obtain ⟨hAll, hOrder⟩ := ih (before ++ d.head ++ d.value) (by simp [Nat.add_assoc])
    have hText : before ++ d.head ++ d.value ++ x :: rest
        = before ++ (d.head ++ (d.value ++ x :: rest)) := by simp
    have hReach : (Event.found before.length (s.declare config before.length d.reading)).reach
        = (before.length + d.head.length + d.value.length : Nat) := by
      rw [State.declare_reading]
      rfl
    obtain ⟨tail, hTail, hHyphen⟩ := d.exists_head_append_value_eq
    obtain ⟨more, rfl⟩ := eq_cons_of_head? hHyphen
    refine ⟨List.forall_mem_cons.mpr ⟨⟨Nat.le_refl _, ⟨more ++ x :: rest, ?_⟩, ?_, ?_⟩, ?_⟩,
      List.pairwise_cons.mpr ⟨fun e he => ?_, hOrder⟩⟩
    · rw [Event.offset, List.drop_left, ← List.append_assoc, hTail]
      rfl
    · rw [hReach, Event.offset]
      omega
    · intro cause hCause
      cases hCause
    · intro e he
      have hLow := (hAll e he).1
      exact ⟨by omega, hText ▸ (hAll e he).2⟩
    · -- The walk goes on at the terminator, and no candidate starts there.
      obtain ⟨hLow, hAccurate⟩ := hAll e he
      have hne : e.offset ≠ (before ++ d.head ++ d.value).length := by
        intro hSame
        obtain ⟨more, hHyphens⟩ := hAccurate.hyphens
        rw [hSame, List.drop_left] at hHyphens
        rw [(List.cons.inj hHyphens).1] at hx
        exact absurd hx (by decide)
      rw [List.length_append, List.length_append] at hne
      rw [hReach]
      omega

/-- The walk stands inside a block at two hyphens. -/
structure Visit.IsCandidate (v : Visit) : Prop where
  inBlock : v.state.InBlock
  first : v.char = ('-' : CodePoint)
  second : v.rest.head? = some ('-' : CodePoint)

theorem State.exists_event_candidate (config : Config) (s : State) (offset : Nat) (t : Text) :
    ∃ e, (s.candidate config offset t).event = some e ∧ e.offset = offset := by
  cases h : readCandidate config t with
  | error cause => exact ⟨.abandoned offset cause, by rw [State.candidate, h], rfl⟩
  | ok r => exact ⟨.found offset (s.declare config offset r), by rw [State.candidate, h], rfl⟩

/-- A step meets a candidate exactly where two hyphens stand inside a block. -/
theorem Visit.exists_event_iff (config : Config) (v : Visit) (n : Nat) :
    (∃ e, (v.step config).event = some e ∧ e.offset = n) ↔ v.offset = n ∧ v.IsCandidate := by
  obtain ⟨offset, s, previous, c, rest⟩ := v
  by_cases hv : (Visit.mk offset s previous c rest).IsCandidate
  · obtain ⟨hs, rfl, hSecond⟩ := hv
    obtain ⟨more, rfl⟩ := eq_cons_of_head? hSecond
    obtain ⟨e, hEvent, rfl⟩ := s.exists_event_candidate config offset
      (('-' : CodePoint) :: ('-' : CodePoint) :: more)
    rw [Visit.step, hs.step_eq, hEvent]
    constructor
    · rintro ⟨_, ⟨⟩, rfl⟩
      exact ⟨rfl, hs, rfl, rfl⟩
    · rintro ⟨rfl, -⟩
      exact ⟨e, rfl, rfl⟩
  · refine ⟨?_, fun h => absurd h.2 hv⟩
    rintro ⟨e, hEvent, -⟩
    rcases exists_move_or_candidate config s previous c rest with
      ⟨a, b, s', hText, -, hMove⟩ | ⟨hs, hFirst, hSecond⟩
    · obtain ⟨d, tail, rfl, hStep⟩ := hMove.step_eq
      obtain ⟨rfl, rfl⟩ := List.cons.inj (hText.trans (List.cons_append ..))
      have hEvent : (s.step config offset previous c (tail ++ b)).event = some e := hEvent
      rw [hStep] at hEvent
      cases hEvent
    · exact absurd ⟨hs, hFirst, hSecond⟩ hv

/-! ## The account -/

def Event.start? : Event → Option Nat
  | found _ _ => none
  | abandoned offset _ => some offset

/-- The record says of the candidate at `start` why it was abandoned, and says only what holds. -/
structure Explains (config : Config) (source : Text) (start : Nat) (r : Log.Record) : Prop where
  channel_eq : r.channel = "cssvars.scanner.declaration"
  exists_reason : ∃ reason : Reason, r.message = reason.message start
  message_iff : ∀ reason : Reason,
    r.message = reason.message start ↔ reason.Holds config source start

/-- The records of the candidates abandoned at `starts` and the declarations `found`, each with its
candidate's offset, account for the candidates of a source. -/
structure Account (config : Config) (source : Text) (starts : List Nat)
    (records : List Log.Record) (found : List (Nat × Declaration)) : Prop where
  explained : List.Forall₂ (Explains config source) starts records
  declarations_eq : scan config source = found.map Prod.snd
  id_eq : ∀ p ∈ found, p.2.id = Declaration.idAt p.1 p.2.start
  ascending : (starts.merge (found.map Prod.fst)).Pairwise (· < ·)
  hyphens : ∀ n ∈ starts.merge (found.map Prod.fst),
    source.slice n (n + 2 : Nat) = PropertyName.mark
  apart : ∀ start ∈ starts, ∀ p ∈ found, ¬ (p.1 ≤ start ∧ (start : Int) ≤ p.2.stop)
  complete : ∀ n, n ∈ starts.merge (found.map Prod.fst) ↔
    ∃ v ∈ visits config 0 {} 0 none source, v.offset = n ∧ v.IsCandidate

theorem Event.Accurate.explains {config : Config} {source : Text} {start : Nat}
    {cause : Abandonment} (h : (Event.abandoned start cause).Accurate config source) :
    Explains config source start ⟨"cssvars.scanner.declaration", cause.message start⟩ := by
  obtain ⟨more, hText⟩ := h.hyphens
  have hHolds : cause.reason.Holds config source start :=
    holds_of_readCandidate hText (h.cause_eq cause rfl)
  refine ⟨rfl, ⟨cause.reason, cause.message_eq start⟩, fun reason => ?_⟩
  show cause.message start = reason.message start ↔ _
  rw [cause.message_eq]
  constructor
  · intro hMessage
    rwa [← Reason.message_injective hMessage]
  · intro hReason
    rw [hHolds.unique hReason]

theorem forall₂_explains {config : Config} {source : Text} {events : List Event}
    (h : ∀ e ∈ events, e.Accurate config source) : List.Forall₂ (Explains config source)
      (events.filterMap Event.start?) (events.filterMap Event.record?) := by
  induction events with
  | nil => exact .nil
  | cons e events ih =>
    obtain ⟨he, hLater⟩ := List.forall_mem_cons.mp h
    cases e with
    | found c d => exact ih hLater
    | abandoned start cause => exact .cons he.explains (ih hLater)

theorem pairwise_lt_merge {xs ys : List Nat} (hx : xs.Pairwise (· < ·)) (hy : ys.Pairwise (· < ·))
    (h : ∀ a ∈ xs, ∀ b ∈ ys, a ≠ b) : (xs.merge ys).Pairwise (· < ·) := by
  have hSorted : (xs.merge ys).Pairwise fun a b => decide (a ≤ b) = true :=
    List.pairwise_merge
      (fun a b c hab hbc => by simp only [decide_eq_true_eq] at *; omega)
      (fun a b => by simp only [Bool.or_eq_true, decide_eq_true_eq]; omega) xs ys
      (hx.imp fun hab => decide_eq_true (Nat.le_of_lt hab))
      (hy.imp fun hab => decide_eq_true (Nat.le_of_lt hab))
  have hNodup : (xs.merge ys).Nodup := (List.merge_perm_append _).nodup_iff.mpr
    (List.nodup_append.mpr ⟨hx.imp Nat.ne_of_lt, hy.imp Nat.ne_of_lt, h⟩)
  exact (hSorted.and hNodup).imp fun hab => Nat.lt_of_le_of_ne (of_decide_eq_true hab.1) hab.2

theorem mem_merge_events_iff {events : List Event} {n : Nat} :
    n ∈ (events.filterMap Event.start?).merge ((events.filterMap Event.finding?).map Prod.fst)
      ↔ ∃ e ∈ events, e.offset = n := by
  rw [List.mem_merge, List.mem_map, List.mem_filterMap]
  constructor
  · rintro (⟨e, he, hStart⟩ | ⟨p, hp, rfl⟩)
    · cases e with
      | found c d => cases hStart
      | abandoned c cause => exact ⟨_, he, Option.some.inj hStart⟩
    · obtain ⟨e, he, hFinding⟩ := List.mem_filterMap.mp hp
      cases e with
      | found c d =>
        cases hFinding
        exact ⟨_, he, rfl⟩
      | abandoned c cause => cases hFinding
  · rintro ⟨e, he, rfl⟩
    cases e with
    | found c d => exact Or.inr ⟨(c, d), List.mem_filterMap.mpr ⟨_, he, rfl⟩, rfl⟩
    | abandoned c cause => exact Or.inl ⟨_, he, rfl⟩

section

variable {events : List Event} (hOrder : events.Pairwise fun e e' => e.reach < e'.offset)

include hOrder

theorem apart_of_pairwise : ∀ start ∈ events.filterMap Event.start?,
    ∀ p ∈ events.filterMap Event.finding?, ¬ (p.1 ≤ start ∧ (start : Int) ≤ p.2.stop) := by
  have hEither : events.Pairwise fun e e' => e.reach < e'.offset ∨ e'.reach < e.offset :=
    hOrder.imp Or.inl
  have : Std.Symm fun e e' : Event => e.reach < e'.offset ∨ e'.reach < e.offset :=
    ⟨fun _ _ => Or.symm⟩
  intro start hStart p hp hInside
  obtain ⟨e, he, hs⟩ := List.mem_filterMap.mp hStart
  obtain ⟨e', he', hf⟩ := List.mem_filterMap.mp hp
  cases e with
  | found c d => cases hs
  | abandoned c cause =>
    cases e' with
    | abandoned c' cause' => cases hf
    | found c' d =>
      cases hs
      cases hf
      have hApart := hEither.forall he he' (by simp)
      simp only [Event.reach, Event.offset] at hApart hInside
      omega

theorem ascending_of_pairwise (hReach : ∀ e ∈ events, e.offset ≤ e.reach) :
    ((events.filterMap Event.start?).merge
      ((events.filterMap Event.finding?).map Prod.fst)).Pairwise (· < ·) := by
  have hOffsets : events.Pairwise fun e e' => e.offset < e'.offset := by
    refine hOrder.imp_of_mem fun {e e'} he _ hLess => ?_
    have := hReach e he
    omega
  refine pairwise_lt_merge ?_ ?_ ?_
  · refine List.pairwise_filterMap.mpr (hOffsets.imp fun {e e'} hLess a ha b hb => ?_)
    cases e with
    | found c d => cases ha
    | abandoned c cause =>
      cases e' with
      | found c' d => cases hb
      | abandoned c' cause' =>
        cases ha
        cases hb
        exact hLess
  · refine List.pairwise_map.mpr (List.pairwise_filterMap.mpr
      (hOffsets.imp fun {e e'} hLess a ha b hb => ?_))
    cases e with
    | abandoned c cause => cases ha
    | found c d =>
      cases e' with
      | abandoned c' cause => cases hb
      | found c' d' =>
        cases ha
        cases hb
        exact hLess
  · rintro start hStart c hc rfl
    obtain ⟨p, hp, rfl⟩ := List.mem_map.mp hc
    refine apart_of_pairwise hOrder p.1 hStart p hp ⟨Nat.le_refl _, ?_⟩
    obtain ⟨e, he, hf⟩ := List.mem_filterMap.mp hp
    cases e with
    | abandoned c cause => cases hf
    | found c d =>
      cases hf
      exact hReach _ he

end

/-- **The log of a scan is an exact account of its candidates.**  Its records explain the abandoned
ones; their starts and the offsets of the declarations are the places at which the scan meets two
hyphens inside a block, in ascending order, and no abandoned candidate starts inside a declaration.
The last record counts the declarations. -/
theorem log_accounts (config : Config) (source : Text) (file : Option Text) :
    ∃ (starts : List Nat) (records : List Log.Record) (found : List (Nat × Declaration)),
      Account config source starts records found ∧
      (trace config source).log file = records ++ [⟨"cssvars.scanner.core",
        "Scanned " ++ Text.ofNat (scan config source).length ++ " declaration(s) from "
          ++ Log.sourceName file⟩] := by
  obtain ⟨hAll, hOrder⟩ := accurate_walk config {} 0 none source [] rfl
  have hEvents := congrArg Trace.events (walk_eq_visits config 0 {} 0 none source)
  have hMet : ∀ n, (∃ e ∈ (trace config source).events, e.offset = n) ↔
      ∃ v ∈ visits config 0 {} 0 none source, v.offset = n ∧ v.IsCandidate := by
    intro n
    rw [trace, walkFrom, hEvents]
    constructor
    · rintro ⟨e, he, hOffset⟩
      obtain ⟨v, hv, hEvent⟩ := List.mem_filterMap.mp he
      exact ⟨v, hv, (v.exists_event_iff config n).mp ⟨e, hEvent, hOffset⟩⟩
    · rintro ⟨v, hv, hCandidate⟩
      obtain ⟨e, hEvent, hOffset⟩ := (v.exists_event_iff config n).mpr hCandidate
      exact ⟨e, List.mem_filterMap.mpr ⟨v, hv, hEvent⟩, hOffset⟩
  refine ⟨_, _, (trace config source).findings,
    ⟨forall₂_explains fun e he => (hAll e he).2, Trace.declarations_eq_map _,
      fun p hp => ((wellPlaced_walkFrom config {} source).placed p hp).id_eq,
      ascending_of_pairwise hOrder fun e he => (hAll e he).2.offset_le, ?_,
      apart_of_pairwise hOrder, fun n => mem_merge_events_iff.trans (hMet n)⟩, rfl⟩
  intro n hn
  obtain ⟨e, he, rfl⟩ := mem_merge_events_iff.mp hn
  obtain ⟨more, hText⟩ := (hAll e he).2.hyphens
  have hText : source.drop e.offset = ('-' : CodePoint) :: ('-' : CodePoint) :: more := hText
  rw [Text.slice_natCast, List.drop_take, Nat.add_sub_cancel_left, hText]
  rfl

-- Three hyphens are two candidates, the second of them inside the first.
example : ((trace {} "a\x7b---;--b:1\x7d").log none).map (·.message) =
    ["Abandoned candidate at 2: no colon before terminator",
      "Abandoned candidate at 3: no colon before terminator",
      "Scanned 1 declaration(s) from <string>"].map Text.ofString := by
  decide +kernel

end CustomProperties.Scan
