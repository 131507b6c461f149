import CustomProperties.Proofs.Span
import CustomProperties.Proofs.Stylesheet
import CustomProperties.Proofs.Visit

/-!
# Comments and strings by a plain lexer

Whether a character stands in a comment or in a string does not depend on blocks and candidates: a
lexer with three modes finds it out in one pass over the source.  The walk, the search for a name
and the search for a value each follow quotes and comments in their own way, and the walk does not
look at what it passes over.  They agree with the lexer nevertheless.

A search that passes over comments in values has a state of the lexer in its own state
(`ValueState.mode`), and one that does not has it as long as there is no comment to pass over.  So
the lexer comes to the end of every value in normal mode (`lexes_value`), which is the mode in which
the walk goes on there.

* `modes`: the mode in which the lexer reads each character of a source.
* `Lexes`: the lexer comes over a text from one mode to another.
* `mode_eq_modes`: **wherever the walk stands, its mode is the lexer's**, and a declaration has its
  first hyphen, its colon and its terminator outside comments and strings.
-/

namespace CustomProperties.Scan

/-! ## The lexer -/

/-- The mode behind a character, and how many more characters belong to the same comment mark. -/
def Mode.next (m : Mode) (previous : Option CodePoint) (c : CodePoint)
    (following : Option CodePoint) : Mode × Nat :=
  match m with
  | .comment =>
    if c = '*' ∧ following = some ('/' : CodePoint) then (.normal, 1) else (.comment, 0)
  | .string q =>
    if c = q.char ∧ Quote.escaped previous = false then (.normal, 0) else (.string q, 0)
  | .normal =>
    if c = '/' ∧ following = some ('*' : CodePoint) then (.comment, 1)
    else if Quote.escaped previous then (.normal, 0)
    else match Quote.ofChar? c with
      | some q => (.string q, 0)
      | none => (.normal, 0)

/-- The mode in which each character of a text is read; the second character of a comment mark is
read as a part of the comment. -/
def lex : (skip : Nat) → Mode → (previous : Option CodePoint) → Text → List Mode
  | _, _, _, [] => []
  | skip + 1, m, _, c :: rest => .comment :: lex skip m (some c) rest
  | 0, m, previous, c :: rest =>
    m :: lex (m.next previous c rest.head?).2 (m.next previous c rest.head?).1 (some c) rest

def modes (source : Text) : List Mode := lex 0 .normal none source

/-- The lexer comes over the text `a`, with `rest` behind it, to the mode `m'`. -/
def Lexes (skip : Nat) (m : Mode) (previous : Option CodePoint) (a rest : Text) (m' : Mode) :
    Prop :=
  (lex skip m previous (a ++ rest)).drop a.length = lex 0 m' (a.lastOr previous) rest

theorem Lexes.cons {m m' m'' : Mode} {skip : Nat} {previous : Option CodePoint} {c : CodePoint}
    {a rest : Text} (hNext : m.next previous c (a ++ rest).head? = (m', skip))
    (h : Lexes skip m' (some c) a rest m'') : Lexes 0 m previous (c :: a) rest m'' := by
  rw [Lexes] at h ⊢
  rw [List.cons_append, lex, hNext, List.length_cons, List.drop_succ_cons, h, Text.lastOr_cons]

theorem Lexes.skip {m m' : Mode} {k : Nat} {previous : Option CodePoint} {c : CodePoint}
    {a rest : Text} (h : Lexes k m (some c) a rest m') :
    Lexes (k + 1) m previous (c :: a) rest m' := by
  rw [Lexes] at h ⊢
  rw [List.cons_append, lex, List.length_cons, List.drop_succ_cons, h, Text.lastOr_cons]

theorem Lexes.nil (m : Mode) (previous : Option CodePoint) (rest : Text) :
    Lexes 0 m previous [] rest m := rfl

/-! ## Moves and names -/

theorem Mode.next_ordinary {previous : Option CodePoint} {c : CodePoint}
    {following : Option CodePoint}
    (hComment : ¬ (c = ('/' : CodePoint) ∧ following = some ('*' : CodePoint)))
    (hQuote : Quote.escaped previous = true ∨ Quote.ofChar? c = none) :
    Mode.normal.next previous c following = (.normal, 0) := by
  rw [Mode.next, if_neg hComment]
  by_cases hp : Quote.escaped previous = true
  · rw [if_pos hp]
  · rw [if_neg hp]
    rcases hQuote with hq | hq
    · exact absurd hq hp
    · rw [hq]

/-- **The lexer keeps up with every move.** -/
theorem Move.lexes {config : Config} {s s' : State} {previous : Option CodePoint} {a rest : Text}
    (h : Move config s previous a rest.head? s') : Lexes 0 s.mode previous a rest s'.mode := by
  generalize hNext : rest.head? = following at h
  cases h with
  | closeComment hm =>
    rw [hm]
    exact .cons (by simp [Mode.next]) (.skip (.nil _ _ _))
  | inComment hm hc =>
    subst hNext
    rw [hm]
    exact .cons (by rw [Mode.next]; exact if_neg hc) (.nil _ _ _)
  | closeString hm hp =>
    rw [hm, State.mode_keepQuoted]
    exact .cons (by simp [Mode.next, hp]) (.nil _ _ _)
  | inString hm hc =>
    rw [State.mode_keepQuoted, hm]
    exact .cons (by rw [Mode.next]; exact if_neg hc) (.nil _ _ _)
  | openComment hm =>
    rw [hm]
    exact .cons (by simp [Mode.next]) (.skip (.nil _ _ _))
  | @openString q _ hm hp =>
    have hSlash : q.char ≠ ('/' : CodePoint) := by cases q <;> decide
    rw [hm, State.mode_keepQuoted]
    exact .cons (by simp [Mode.next, hp, hSlash, Quote.ofChar?_char]) (.nil _ _ _)
  | openBlock hm =>
    have hSame : s.openBlock.mode = s.mode := rfl
    rw [hSame, hm]
    exact .cons (Mode.next_ordinary (by simp) (Or.inr rfl)) (.nil _ _ _)
  | closeBlock hm =>
    have hSame : s.closeBlock.mode = s.mode := rfl
    rw [hSame, hm]
    exact .cons (Mode.next_ordinary (by simp) (Or.inr rfl)) (.nil _ _ _)
  | prelude hm _ ho =>
    subst hNext
    show Lexes 0 s.mode previous _ rest s.mode
    rw [hm]
    exact .cons (Mode.next_ordinary ho.not_comment ho.not_quote) (.nil _ _ _)
  | body hs ho _ =>
    subst hNext
    rw [hs.normal]
    exact .cons (Mode.next_ordinary ho.not_comment ho.not_quote) (.nil _ _ _)

theorem lexes_plain {a : Text}
    (h : ∀ c ∈ a, c ∉ [('/' : CodePoint), ('\'' : CodePoint), ('"' : CodePoint)])
    (previous : Option CodePoint) (rest : Text) : Lexes 0 .normal previous a rest .normal := by
  induction a generalizing previous with
  | nil => exact .nil _ _ _
  | cons c a ih =>
    have hc := h c List.mem_cons_self
    simp only [List.mem_cons, List.not_mem_nil, or_false, not_or] at hc
    obtain ⟨hSlash, hSingle, hDouble⟩ := hc
    have hQuote : Quote.ofChar? c = none := by
      rw [Quote.ofChar?, if_neg hSingle, if_neg hDouble]
    exact .cons (Mode.next_ordinary (fun hOpen => hSlash hOpen.1) (Or.inr hQuote))
      (ih (fun d hd => h d (List.mem_cons_of_mem c hd)) (some c))

theorem Spelling.lexes_name {config : Config} (d : Spelling config) :
    ∀ (previous : Option CodePoint) (rest : Text),
      Lexes 0 .normal previous (d.name ++ d.blanks) rest .normal := by
  refine lexes_plain fun c hc => ?_
  rcases List.mem_append.mp hc with hc | hc
  · exact CodePoint.not_mem_of_class (by decide)
      (PropertyName.isNameChar_of_isValid d.name_valid c hc)
  · exact CodePoint.not_mem_of_class (by decide) (Text.isBlank_iff.mp d.blanks_blank c hc)

/-! ## Values -/

namespace ValueState

def mode (s : ValueState) : Mode :=
  if s.comment then .comment
  else match s.quote with
    | some q => .string q
    | none => .normal

def Sound (s : ValueState) : Prop := s.comment = true → s.quote = none

variable {skipComments : Bool} {s : ValueState} {previous following : Option CodePoint}
  {c : CodePoint}

theorem Sound.advance (hs : s.Sound) :
    (s.advance skipComments previous c following).Sound := by
  rw [ValueState.advance]
  by_cases hMark : 0 < s.mark
  · rw [if_pos hMark]
    exact hs
  rw [if_neg hMark]
  by_cases hComment : s.comment = true
  · rw [if_pos hComment]
    split
    · intro h
      cases h
    · exact hs
  rw [if_neg hComment]
  cases Quote.after s.quote previous c with
  | some q => exact fun h => absurd h hComment
  | none =>
    dsimp only
    split
    · exact fun _ => rfl
    · split
      · exact fun _ => rfl
      · split
        · exact fun _ => rfl
        · exact fun _ => rfl

/-- Outside quotes a comment mark opens a comment, and any other character leaves the mode. -/
theorem advance_of_after_none (hMark : s.mark = 0) (hComment : s.comment = false)
    (hQuote : Quote.after s.quote previous c = none)
    (hOpen : skipComments = true ∨
      ¬ (c = ('/' : CodePoint) ∧ following = some ('*' : CodePoint))) :
    ((s.advance skipComments previous c following).mode,
        (s.advance skipComments previous c following).mark)
      = if c = ('/' : CodePoint) ∧ following = some ('*' : CodePoint) then (.comment, 1)
        else (.normal, 0) := by
  have hAdvance : s.advance skipComments previous c following =
      if skipComments ∧ c = ('/' : CodePoint) ∧ following = some ('*' : CodePoint) then
        { s with quote := none, comment := true, mark := 1 }
      else if c = ('(' : CodePoint) then { s with quote := none, depth := s.depth + 1 }
      else if c = (')' : CodePoint) then { s with quote := none, depth := s.depth - 1 }
      else { s with quote := none } := by
    rw [advance, if_neg (by omega), if_neg (by simp [hComment]), hQuote]
  by_cases hSlash : c = ('/' : CodePoint) ∧ following = some ('*' : CodePoint)
  · have hSkip : skipComments = true := hOpen.resolve_right fun h => h hSlash
    rw [hAdvance, if_pos ⟨hSkip, hSlash⟩, if_pos hSlash]
    rfl
  · rw [hAdvance, if_neg (fun h => hSlash h.2), if_neg hSlash]
    split
    · simp [mode, hComment, hMark]
    · split
      · simp [mode, hComment, hMark]
      · simp [mode, hComment, hMark]

/-- **The search for a value's end and the lexer read a character alike**, unless a comment opens
there that the search does not see. -/
theorem next_mode (hs : s.Sound) (hMark : s.mark = 0)
    (hOpen : skipComments = true ∨
      ¬ (c = ('/' : CodePoint) ∧ following = some ('*' : CodePoint))) :
    s.mode.next previous c following
      = ((s.advance skipComments previous c following).mode,
          (s.advance skipComments previous c following).mark) := by
  cases hComment : s.comment with
  | true =>
    have hMode : s.mode = .comment := by rw [mode, if_pos hComment]
    have hAdvance : s.advance skipComments previous c following =
        if c = ('*' : CodePoint) ∧ following = some ('/' : CodePoint) then
          { s with comment := false, mark := 1 }
        else s := by
      rw [advance, if_neg (by omega), if_pos hComment]
    rw [hMode, Mode.next, hAdvance]
    split
    · simp [mode, hs hComment]
    · rw [hMode, hMark]
  | false =>
    cases hQuote : s.quote with
    | some q =>
      have hMode : s.mode = .string q := by simp [mode, hComment, hQuote]
      have hAfter := Quote.after_some q previous c
      rw [hMode, Mode.next]
      by_cases hClose : c = q.char ∧ Quote.escaped previous = false
      · rw [if_pos hClose] at hAfter ⊢
        have hSlash : c ≠ ('/' : CodePoint) := by
          rw [hClose.1]
          cases q <;> decide
        rw [advance_of_after_none hMark hComment (hQuote ▸ hAfter) hOpen,
          if_neg fun h => hSlash h.1]
      · rw [if_neg hClose] at hAfter ⊢
        rw [advance, if_neg (by omega), if_neg (by simp [hComment]), hQuote, hAfter]
        simp [mode, hComment, hMark]
    | none =>
      have hMode : s.mode = .normal := by simp [mode, hComment, hQuote]
      have hAfter := Quote.after_none previous c
      rw [hMode]
      cases hNext : Quote.after none previous c with
      | none =>
        have hPlain : Quote.escaped previous = true ∨ Quote.ofChar? c = none := by
          rw [hNext] at hAfter
          by_cases hp : Quote.escaped previous = true
          · exact Or.inl hp
          · rw [if_neg hp] at hAfter
            exact Or.inr hAfter.symm
        rw [advance_of_after_none hMark hComment (hQuote ▸ hNext) hOpen]
        split
        · rename_i hSlash
          rw [Mode.next, if_pos hSlash]
        · rename_i hSlash
          exact Mode.next_ordinary hSlash hPlain
      | some q =>
        rw [hNext] at hAfter
        by_cases hp : Quote.escaped previous = true
        · rw [if_pos hp] at hAfter
          cases hAfter
        rw [if_neg hp] at hAfter
        have hSlash : c ≠ ('/' : CodePoint) := by
          rw [Quote.eq_char_of_ofChar? hAfter.symm]
          cases q <;> decide
        have hAdvance : s.advance skipComments previous c following
            = { s with quote := some q } := by
          rw [advance, if_neg (by omega), if_neg (by simp [hComment]), hQuote, hNext]
        rw [Mode.next, if_neg fun h => hSlash h.1, if_neg hp, ← hAfter, hAdvance]
        simp [mode, hComment, hMark]

theorem Sound.lexes_cons (hs : s.Sound) {m : Mode} {a rest : Text}
    (hOpen : skipComments = true ∨
      ¬ (c = ('/' : CodePoint) ∧ (a ++ rest).head? = some ('*' : CodePoint)))
    (h : Lexes (s.advance skipComments previous c (a ++ rest).head?).mark
      (s.advance skipComments previous c (a ++ rest).head?).mode (some c) a rest m) :
    Lexes s.mark s.mode previous (c :: a) rest m := by
  cases hMark : s.mark with
  | zero => exact .cons (next_mode hs hMark hOpen) h
  | succ k =>
    -- The second character of a comment mark, which both pass over.
    have hAdvance : s.advance skipComments previous c (a ++ rest).head? = { s with mark := k } := by
      rw [ValueState.advance, if_pos (by omega), hMark]
      rfl
    rw [hAdvance] at h
    exact .skip h

end ValueState

/-- **The lexer comes to the end of a value in normal mode.** -/
theorem lexes_value {skipComments : Bool} {s : ValueState} {previous : Option CodePoint}
    {v rest : Text} {x : CodePoint} (hs : s.Sound) (hx : isTerminator x = true)
    (hOpen : skipComments = true ∨ ¬ commentOpen <:+: v)
    (h : valueEnd skipComments s previous (v ++ x :: rest) = some v.length) :
    Lexes s.mark s.mode previous v (x :: rest) .normal := by
  induction v generalizing s previous with
  | nil =>
    rw [List.nil_append, valueEnd] at h
    by_cases hClear : s.isClear = true
    · simp only [ValueState.isClear, Bool.and_eq_true, decide_eq_true_eq, Bool.not_eq_true']
        at hClear
      obtain ⟨⟨⟨hQuote, -⟩, hComment⟩, hMark⟩ := hClear
      have hMode : s.mode = .normal := by simp [ValueState.mode, hQuote, hComment]
      rw [hMark, hMode]
      exact .nil _ _ _
    · rw [if_neg fun hc => hClear hc.1] at h
      obtain ⟨n, -, hn⟩ := Option.map_eq_some_iff.mp h
      exact absurd hn (Nat.succ_ne_zero n)
  | cons c v ih =>
    rw [List.cons_append, valueEnd] at h
    split at h
    · cases h
    obtain ⟨n, hn, hLength⟩ := Option.map_eq_some_iff.mp h
    cases hLength
    have hLater : skipComments = true ∨ ¬ commentOpen <:+: v :=
      hOpen.imp_right fun hNone hInner => hNone (hInner.trans (List.suffix_cons c v).isInfix)
    refine hs.lexes_cons ?_ (ih hs.advance hLater hn)
    refine hOpen.imp_right fun hNone => ?_
    -- A mark that the value does not hold cannot be completed by its terminator.
    rintro ⟨rfl, hStar⟩
    cases v with
    | nil =>
      cases hStar
      exact absurd hx (by decide)
    | cons d v =>
      cases hStar
      exact hNone ⟨[], v, rfl⟩

/-! ## Walks -/

/-- A declaration with its first hyphen at `c` begins, has its colon and ends outside comments and
strings. -/
structure Outside (modes : List Mode) (c : Nat) (d : Declaration) : Prop where
  hyphen : modes[c]? = some .normal
  colon : ∃ n : Nat, d.start = n + 1 ∧ modes[n]? = some .normal
  terminator : ∃ n : Nat, d.stop = n ∧ modes[n]? = some .normal

theorem getElem?_of_drop_eq_lex {ms : List Mode} {n : Nat} {m : Mode}
    {previous : Option CodePoint} {c : CodePoint} {rest : Text}
    (h : ms.drop n = lex 0 m previous (c :: rest)) : ms[n]? = some m := by
  rw [← List.head?_drop, h]
  rfl

theorem Lexes.drop_eq {ms : List Mode} {n : Nat} {m m' : Mode} {previous : Option CodePoint}
    {a rest : Text} (h : Lexes 0 m previous a rest m')
    (hn : ms.drop n = lex 0 m previous (a ++ rest)) :
    ms.drop (n + a.length) = lex 0 m' (a.lastOr previous) rest := by
  rw [← List.drop_drop, hn]
  exact h

/-- **The lexer is in normal mode at a declaration's hyphen, colon and terminator.** -/
theorem Spelling.outside {config : Config} (d : Spelling config) {x : CodePoint}
    (hx : isTerminator x = true) (hOpen : config.skipComments = true ∨ ¬ commentOpen <:+: d.value)
    {ms : List Mode} {offset : Nat} {previous : Option CodePoint} {rest : Text}
    (hms : ms.drop offset = lex 0 .normal previous (d.head ++ (d.value ++ x :: rest)))
    (selector : Text) :
    Outside ms offset (d.declaration selector offset) ∧
      ms.drop (offset + d.head.length + d.value.length)
        = lex 0 .normal (d.value.lastOr (some ':')) (x :: rest) := by
  have hHyphen : ms[offset]? = some .normal := by
    obtain ⟨tail, hTail, -⟩ := d.exists_head_append_value_eq
    rw [← List.append_assoc, hTail, List.cons_append] at hms
    exact getElem?_of_drop_eq_lex hms
  have hColon : ms.drop (offset + (d.name ++ d.blanks).length)
      = lex 0 .normal ((d.name ++ d.blanks).lastOr previous)
        ((':' : CodePoint) :: (d.value ++ x :: rest)) := by
    rw [Spelling.head, List.append_assoc] at hms
    exact (d.lexes_name previous _).drop_eq hms
  have hHead : offset + (d.name ++ d.blanks).length + 1 = offset + d.head.length := by
    rw [d.length_head]
    rfl
  have hStart : ms.drop (offset + d.head.length)
      = lex 0 .normal (some ':') (d.value ++ x :: rest) := by
    have hLexes : Lexes 0 .normal ((d.name ++ d.blanks).lastOr previous) [(':' : CodePoint)]
        (d.value ++ x :: rest) .normal := lexes_plain (by decide) _ _
    rw [← hHead]
    exact hLexes.drop_eq hColon
  have hStop : ms.drop (offset + d.head.length + d.value.length)
      = lex 0 .normal (d.value.lastOr (some ':')) (x :: rest) := by
    have hSound : ({} : ValueState).Sound := by
      intro h
      cases h
    have hLexes := lexes_value hSound hx hOpen (d.value_closed.valueEnd_eq hx rest)
    exact hLexes.drop_eq hStart
  refine ⟨⟨hHyphen, ⟨_, ?_, getElem?_of_drop_eq_lex hColon⟩,
    ⟨_, rfl, getElem?_of_drop_eq_lex hStop⟩⟩, hStop⟩
  show ((offset + d.head.length : Nat) : Int) = _
  omega

/-- **A walk that starts in the lexer's mode keeps it.** -/
theorem mode_walk (config : Config) (s : State) (offset : Nat) (previous : Option CodePoint)
    (t : Text) (ms : List Mode) (hms : ms.drop offset = lex 0 s.mode previous t)
    (hOpen : config.skipComments = true ∨
      ∀ d ∈ (walk config 0 s offset previous t).declarations, ¬ commentOpen <:+: d.value) :
    (∀ v ∈ visits config 0 s offset previous t, ms[v.offset]? = some v.state.mode) ∧
      ∀ p ∈ (walk config 0 s offset previous t).findings, Outside ms p.1 p.2 := by
  revert hms hOpen
  refine walk_induction (motive := fun s offset previous t trace =>
    ms.drop offset = lex 0 s.mode previous t →
    (config.skipComments = true ∨ ∀ d ∈ trace.declarations, ¬ commentOpen <:+: d.value) →
    (∀ v ∈ visits config 0 s offset previous t, ms[v.offset]? = some v.state.mode) ∧
      ∀ p ∈ trace.findings, Outside ms p.1 p.2) ?_ ?_ ?_ ?_ s offset previous t
  · intro s offset previous _ _
    exact ⟨fun v hv => absurd hv List.not_mem_nil, fun p hp => absurd hp List.not_mem_nil⟩
  · intro s offset previous a rest s' ha hMove ih hms hOpen
    obtain ⟨hVisits, hFindings⟩ := ih (hMove.lexes.drop_eq hms) hOpen
    obtain ⟨v, hOffset, hState, hv⟩ := hMove.visits_eq offset
    obtain ⟨c, tail, rfl⟩ := List.exists_cons_of_ne_nil ha
    rw [hv, List.forall_mem_cons, hOffset, hState]
    exact ⟨⟨getElem?_of_drop_eq_lex hms, hVisits⟩, hFindings⟩
  · intro s offset previous more cause hs hRead ih hms hOpen
    have hHyphen : Lexes 0 s.mode previous [('-' : CodePoint)] (('-' : CodePoint) :: more)
        s.mode := by
      rw [hs.normal]
      exact .cons (Mode.next_ordinary (by simp) (Or.inr rfl)) (.nil _ _ _)
    obtain ⟨hVisits, hFindings⟩ := ih (hHyphen.drop_eq hms) hOpen
    obtain ⟨v, hOffset, hState, hv⟩ := visits_abandoned hs hRead offset previous
    rw [hv, List.forall_mem_cons, hOffset, hState]
    exact ⟨⟨getElem?_of_drop_eq_lex hms, hVisits⟩, hFindings⟩
  · intro s offset previous d x rest hs hx ih hms hOpen
    rw [Trace.declarations_after_found, List.forall_mem_cons] at hOpen
    rw [hs.normal] at hms
    have hValue : config.skipComments = true ∨ ¬ commentOpen <:+: d.value :=
      hOpen.imp_right fun h => h.1
    obtain ⟨hOutside, hStop⟩ := d.outside hx hValue hms
      (if s.selector.isEmpty then config.fallbackSelector else s.selector)
    rw [← State.declare_reading] at hOutside
    obtain ⟨hVisits, hFindings⟩ := ih (by rw [hs.normal]; exact hStop)
      (hOpen.imp_right fun h => h.2)
    obtain ⟨v, later, hOffset, hState, hv, hLater⟩ := visits_found hs d hx offset previous rest
    rw [hv, List.forall_mem_cons, hOffset, hState, Trace.findings_after_found,
      List.forall_mem_cons]
    refine ⟨⟨?_, fun w hw => hVisits w (hLater hw)⟩, hOutside, hFindings⟩
    rw [hs.normal]
    exact hOutside.hyphen

/-- **Wherever the walk over a source stands, its mode is the lexer's**, and no declaration begins,
has its colon or ends in a comment or a string; it is enough that the search for a value's end sees
comments, or that there is none in the values found. -/
theorem mode_eq_modes (config : Config) (source : Text)
    (hOpen : config.skipComments = true ∨
      ∀ d ∈ scan config source, ¬ commentOpen <:+: d.value) :
    (∀ v ∈ visits config 0 {} 0 none source, (modes source)[v.offset]? = some v.state.mode) ∧
      ∀ p ∈ (trace config source).findings, Outside (modes source) p.1 p.2 :=
  mode_walk config {} 0 none source (modes source) rfl hOpen

/-- A quote in a comment, a candidate in a string, and a declaration whose value holds a quoted
terminator. -/
theorem mode_eq_modes_quoted :
    (∀ d ∈ scan {} "a\x7b/*\"*/b:'--c:1;';--d:\";\"\x7d", ¬ commentOpen <:+: d.value) ∧
    Outside (modes "a\x7b/*\"*/b:'--c:1;';--d:\";\"\x7d") 18
      ⟨"18-22", "--d", "\";\"", 22, 25, "a"⟩ := by
  have hOpen : ∀ d ∈ scan {} "a\x7b/*\"*/b:'--c:1;';--d:\";\"\x7d",
      ¬ commentOpen <:+: d.value := by decide +kernel
  exact ⟨hOpen, (mode_eq_modes {} _ (Or.inr hOpen)).2
    (18, ⟨"18-22", "--d", "\";\"", 22, 25, "a"⟩) (by decide +kernel)⟩

end CustomProperties.Scan
