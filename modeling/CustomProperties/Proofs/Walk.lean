import CustomProperties.Proofs.Candidate
import CustomProperties.Scan.Basic

/-!
# What a walk does at one place

At every place where the walk stands it does one of three things.  It *moves* over one character or
one comment mark, and what it does then depends on the next character at most (`Move`).  It meets a
candidate and abandons it, or it meets a candidate and finds a declaration; then it stands at the
terminator, which a walk inside a block either way passes or closes the block with.

* `exists_move_or_candidate`: there is nothing else.
* `Move.walk_eq`, `walk_abandoned`, `walk_found`: what each of the three does to the walk.
* `InStep.move`: walks that stand in related states make the same moves.
* `walk_induction`: **what these three keep, every walk keeps.**
-/

namespace CustomProperties.Scan

/-! ## Moves -/

structure Ordinary (previous : Option CodePoint) (c : CodePoint) (next : Option CodePoint) :
    Prop where
  not_comment : ¬ (c = ('/' : CodePoint) ∧ next = some ('*' : CodePoint))
  not_quote : Quote.escaped previous = true ∨ Quote.ofChar? c = none
  not_open : c ≠ ('{' : CodePoint)
  not_close : c ≠ ('}' : CodePoint)

/-- The walk stands inside a block, outside comments and strings. -/
structure State.InBlock (s : State) : Prop where
  normal : s.mode = .normal
  deep : 0 < s.depth

/-- The text `a` between `previous` and `next` takes the walk from `s` to another state, with no
candidate met. -/
inductive Move (config : Config) (s : State) (previous : Option CodePoint) :
    (a : Text) → (next : Option CodePoint) → State → Prop
  | closeComment {next : Option CodePoint} : s.mode = .comment →
      Move config s previous ['*', '/'] next { s with mode := .normal }
  | inComment {c : CodePoint} {next : Option CodePoint} : s.mode = .comment →
      ¬ (c = ('*' : CodePoint) ∧ next = some ('/' : CodePoint)) →
      Move config s previous [c] next s
  | closeString {q : Quote} {next : Option CodePoint} : s.mode = .string q →
      Quote.escaped previous = false →
      Move config s previous [q.char] next ({ s with mode := .normal }.keepQuoted config q.char)
  | inString {q : Quote} {c : CodePoint} {next : Option CodePoint} : s.mode = .string q →
      ¬ (c = q.char ∧ Quote.escaped previous = false) →
      Move config s previous [c] next (s.keepQuoted config c)
  | openComment {next : Option CodePoint} : s.mode = .normal →
      Move config s previous ['/', '*'] next { s with mode := .comment }
  | openString {q : Quote} {next : Option CodePoint} : s.mode = .normal →
      Quote.escaped previous = false →
      Move config s previous [q.char] next ({ s with mode := .string q }.keepQuoted config q.char)
  | openBlock {next : Option CodePoint} : s.mode = .normal →
      Move config s previous ['{'] next s.openBlock
  | closeBlock {next : Option CodePoint} : s.mode = .normal →
      Move config s previous ['}'] next s.closeBlock
  | prelude {c : CodePoint} {next : Option CodePoint} : s.mode = .normal → s.depth = 0 →
      Ordinary previous c next →
      Move config s previous [c] next { s with prelude := s.prelude ++ [c] }
  | body {c : CodePoint} {next : Option CodePoint} : s.InBlock → Ordinary previous c next →
      ¬ (c = ('-' : CodePoint) ∧ next = some ('-' : CodePoint)) → Move config s previous [c] next s

theorem State.mode_keepQuoted (config : Config) (s : State) (c : CodePoint) :
    (s.keepQuoted config c).mode = s.mode := by
  rw [State.keepQuoted]
  split
  · rfl
  · rfl

/-- An ordinary character is tested for a candidate inside a block and kept outside. -/
theorem Ordinary.step_eq {previous : Option CodePoint} {c : CodePoint} {rest : Text}
    (h : Ordinary previous c rest.head?) (config : Config) {s : State} (hm : s.mode = .normal)
    (offset : Nat) : s.step config offset previous c rest =
      if s.depth = 0 then { state := { s with prelude := s.prelude ++ [c] } }
      else if c = ('-' : CodePoint) ∧ rest.head? = some ('-' : CodePoint) then
        s.candidate config offset (c :: rest)
      else { state := s } := by
  have hQuote : (if Quote.escaped previous then none else Quote.ofChar? c) = none := by
    rcases h.not_quote with hq | hq
    · rw [if_pos hq]
    · rw [hq, ite_self]
  simp only [State.step, hm, if_neg h.not_comment, hQuote, if_neg h.not_open, if_neg h.not_close]

@[simp] theorem Trace.after_none (trace : Trace) : trace.after none = trace := rfl

@[simp] theorem Trace.declarations_after_found (trace : Trace) (offset : Nat) (d : Declaration) :
    (trace.after (some (.found offset d))).declarations = d :: trace.declarations := rfl

@[simp] theorem Trace.declarations_after_abandoned (trace : Trace) (offset : Nat)
    (cause : Abandonment) :
    (trace.after (some (.abandoned offset cause))).declarations = trace.declarations := rfl

theorem walk_skip (config : Config) (s : State) (offset : Nat) (previous : Option CodePoint)
    (a rest : Text) : walk config a.length s offset previous (a ++ rest)
      = walk config 0 s (offset + a.length) (a.lastOr previous) rest := by
  induction a generalizing offset previous with
  | nil => rfl
  | cons c a ih =>
    rw [List.cons_append, List.length_cons, walk, ih, Text.lastOr_cons, Nat.add_right_comm,
      Nat.add_assoc]

theorem walk_skip_succ (config : Config) (s : State) (offset : Nat) (previous : Option CodePoint)
    (a : Text) (c : CodePoint) (rest : Text) :
    walk config (a.length + 1) s offset previous (a ++ c :: rest)
      = walk config 0 s (offset + a.length + 1) (some c) rest := by
  have h := walk_skip config s offset previous (a ++ [c]) rest
  rw [List.length_append, List.append_assoc, Text.lastOr_append] at h
  exact h

theorem walk_cons (config : Config) (s : State) (offset : Nat) (previous : Option CodePoint)
    (c : CodePoint) (rest : Text) : walk config 0 s offset previous (c :: rest)
      = (walk config (s.step config offset previous c rest).skip
          (s.step config offset previous c rest).state (offset + 1) (some c) rest).after
        (s.step config offset previous c rest).event := by
  rw [walk]

theorem Move.step_eq {config : Config} {s s' : State} {previous : Option CodePoint} {a rest : Text}
    (h : Move config s previous a rest.head? s') :
    ∃ (c : CodePoint) (tail : Text), a = c :: tail ∧ ∀ offset : Nat,
      s.step config offset previous c (tail ++ rest) = { state := s', skip := tail.length } := by
  -- The next character stands in the type of the move, so it is made a variable first.
  generalize hNext : rest.head? = next at h
  cases h with
  | closeComment hm =>
    refine ⟨'*', ['/'], rfl, fun offset => ?_⟩
    simp [State.step, hm]
  | @inComment c _ hm hc =>
    subst hNext
    refine ⟨c, [], rfl, fun offset => ?_⟩
    rw [State.step, hm]
    exact if_neg hc
  | @closeString q _ hm hp =>
    refine ⟨q.char, [], rfl, fun offset => ?_⟩
    simp [State.step, hm, hp]
  | @inString q c _ hm hc =>
    refine ⟨c, [], rfl, fun offset => ?_⟩
    rw [State.step, hm]
    exact if_neg (by simpa using hc)
  | openComment hm =>
    refine ⟨'/', ['*'], rfl, fun offset => ?_⟩
    simp [State.step, hm]
  | @openString q _ hm hp =>
    have hSlash : q.char ≠ ('/' : CodePoint) := by cases q <;> decide
    refine ⟨q.char, [], rfl, fun offset => ?_⟩
    simp [State.step, hm, hp, hSlash, Quote.ofChar?_char]
  | openBlock hm =>
    have hQuote : Quote.ofChar? ('{' : CodePoint) = none := rfl
    refine ⟨'{', [], rfl, fun offset => ?_⟩
    simp [State.step, hm, hQuote]
  | closeBlock hm =>
    have hQuote : Quote.ofChar? ('}' : CodePoint) = none := rfl
    refine ⟨'}', [], rfl, fun offset => ?_⟩
    simp [State.step, hm, hQuote]
  | @prelude c _ hm hd ho =>
    subst hNext
    refine ⟨c, [], rfl, fun offset => ?_⟩
    rw [List.nil_append, ho.step_eq config hm, if_pos hd]
    rfl
  | @body c _ hs ho hc =>
    subst hNext
    have hd := hs.deep
    refine ⟨c, [], rfl, fun offset => ?_⟩
    rw [List.nil_append, ho.step_eq config hs.normal, if_neg (by omega), if_neg hc]
    rfl

/-- **A move takes the walk along**, wherever it stands and whatever comes after the next
character. -/
theorem Move.walk_eq {config : Config} {s s' : State} {previous : Option CodePoint} {a rest : Text}
    (h : Move config s previous a rest.head? s') (offset : Nat) :
    walk config 0 s offset previous (a ++ rest)
      = walk config 0 s' (offset + a.length) (a.lastOr previous) rest := by
  obtain ⟨c, tail, rfl, hStep⟩ := h.step_eq
  rw [List.cons_append, walk_cons, hStep, Trace.after_none, walk_skip, Text.lastOr_cons,
    List.length_cons, Nat.add_assoc, Nat.add_comm 1]

theorem eq_cons_of_head? {t : Text} {c : CodePoint} (h : t.head? = some c) :
    ∃ rest, t = c :: rest := by
  cases t with
  | nil => cases h
  | cons d rest => cases h; exact ⟨rest, rfl⟩

/-- **At every place the walk moves or meets a candidate.** -/
theorem exists_move_or_candidate (config : Config) (s : State) (previous : Option CodePoint)
    (c : CodePoint) (rest : Text) :
    (∃ (a b : Text) (s' : State), c :: rest = a ++ b ∧ a ≠ [] ∧
      Move config s previous a b.head? s') ∨
    (s.InBlock ∧ c = ('-' : CodePoint) ∧ rest.head? = some ('-' : CodePoint)) := by
  cases hm : s.mode with
  | comment =>
    by_cases h : c = ('*' : CodePoint) ∧ rest.head? = some ('/' : CodePoint)
    · obtain ⟨rfl, h⟩ := h
      obtain ⟨b, rfl⟩ := eq_cons_of_head? h
      exact Or.inl ⟨['*', '/'], b, _, rfl, by simp, .closeComment hm⟩
    · exact Or.inl ⟨[c], rest, _, rfl, by simp, .inComment hm h⟩
  | string q =>
    by_cases h : c = q.char ∧ Quote.escaped previous = false
    · obtain ⟨rfl, h⟩ := h
      exact Or.inl ⟨[q.char], rest, _, rfl, by simp, .closeString hm h⟩
    · exact Or.inl ⟨[c], rest, _, rfl, by simp, .inString hm h⟩
  | normal =>
    by_cases hComment : c = ('/' : CodePoint) ∧ rest.head? = some ('*' : CodePoint)
    · obtain ⟨rfl, h⟩ := hComment
      obtain ⟨b, rfl⟩ := eq_cons_of_head? h
      exact Or.inl ⟨['/', '*'], b, _, rfl, by simp, .openComment hm⟩
    by_cases hQuote : Quote.escaped previous = true ∨ Quote.ofChar? c = none
    · by_cases hOpen : c = ('{' : CodePoint)
      · subst hOpen
        exact Or.inl ⟨['{'], rest, _, rfl, by simp, .openBlock hm⟩
      by_cases hClose : c = ('}' : CodePoint)
      · subst hClose
        exact Or.inl ⟨['}'], rest, _, rfl, by simp, .closeBlock hm⟩
      have hOrdinary : Ordinary previous c rest.head? := ⟨hComment, hQuote, hOpen, hClose⟩
      by_cases hd : s.depth = 0
      · exact Or.inl ⟨[c], rest, _, rfl, by simp, .prelude hm hd hOrdinary⟩
      have hs : s.InBlock := ⟨hm, by omega⟩
      by_cases hHyphens : c = ('-' : CodePoint) ∧ rest.head? = some ('-' : CodePoint)
      · exact Or.inr ⟨hs, hHyphens⟩
      · exact Or.inl ⟨[c], rest, _, rfl, by simp, .body hs hOrdinary hHyphens⟩
    · rw [not_or, Bool.not_eq_true] at hQuote
      obtain ⟨q, hq⟩ := Option.ne_none_iff_exists'.mp hQuote.2
      obtain rfl := Quote.eq_char_of_ofChar? hq
      exact Or.inl ⟨[q.char], rest, _, rfl, by simp, .openString hm hQuote.1⟩

/-! ## Walks in step -/

/-- A relation under which two walks go in step: related states have the same mode and depth, and
what a move does to both of them keeps them related. -/
structure InStep (config config' : Config) (r : State → State → Prop) : Prop where
  mode : ∀ {s s' : State}, r s s' → s.mode = s'.mode
  depth : ∀ {s s' : State}, r s s' → s.depth = s'.depth
  withMode : ∀ {s s' : State}, r s s' → ∀ m : Mode, r { s with mode := m } { s' with mode := m }
  keepPrelude : ∀ {s s' : State}, r s s' → ∀ c : CodePoint,
    r { s with prelude := s.prelude ++ [c] } { s' with prelude := s'.prelude ++ [c] }
  keepQuoted : ∀ {s s' : State}, r s s' → ∀ c : CodePoint,
    r (s.keepQuoted config c) (s'.keepQuoted config' c)
  openBlock : ∀ {s s' : State}, r s s' → r s.openBlock s'.openBlock
  closeBlock : ∀ {s s' : State}, r s s' → r s.closeBlock s'.closeBlock

namespace InStep

variable {config config' : Config} {r : State → State → Prop} {s s' : State}

theorem inBlock (hr : InStep config config' r) (h : r s s') (hs : s.InBlock) : s'.InBlock :=
  ⟨(hr.mode h).symm.trans hs.normal, hr.depth h ▸ hs.deep⟩

/-- **Walks in step make the same moves.** -/
theorem move (hr : InStep config config' r) (h : r s s') {s₁ : State}
    {previous next : Option CodePoint} {a : Text} (hMove : Move config s previous a next s₁) :
    ∃ s₁', Move config' s' previous a next s₁' ∧ r s₁ s₁' := by
  have hMode := hr.mode h
  cases hMove with
  | closeComment hm => exact ⟨_, .closeComment (hMode ▸ hm), hr.withMode h _⟩
  | inComment hm hc => exact ⟨_, .inComment (hMode ▸ hm) hc, h⟩
  | closeString hm hp =>
    exact ⟨_, .closeString (hMode ▸ hm) hp, hr.keepQuoted (hr.withMode h _) _⟩
  | inString hm hc => exact ⟨_, .inString (hMode ▸ hm) hc, hr.keepQuoted h _⟩
  | openComment hm => exact ⟨_, .openComment (hMode ▸ hm), hr.withMode h _⟩
  | openString hm hp =>
    exact ⟨_, .openString (hMode ▸ hm) hp, hr.keepQuoted (hr.withMode h _) _⟩
  | openBlock hm => exact ⟨_, .openBlock (hMode ▸ hm), hr.openBlock h⟩
  | closeBlock hm => exact ⟨_, .closeBlock (hMode ▸ hm), hr.closeBlock h⟩
  | prelude hm hd ho =>
    exact ⟨_, .prelude (hMode ▸ hm) (hr.depth h ▸ hd) ho, hr.keepPrelude h _⟩
  | body hs ho hc => exact ⟨_, .body (hr.inBlock h hs) ho hc, h⟩

end InStep

/-! ## Candidates -/

theorem State.InBlock.step_eq {s : State} (hs : s.InBlock) (config : Config) (offset : Nat)
    (previous : Option CodePoint) (more : Text) :
    s.step config offset previous '-' (('-' : CodePoint) :: more)
      = s.candidate config offset (('-' : CodePoint) :: ('-' : CodePoint) :: more) := by
  have hOrdinary : Ordinary previous ('-' : CodePoint) (('-' : CodePoint) :: more).head? :=
    ⟨by simp, Or.inr rfl, by simp, by simp⟩
  have hd := hs.deep
  rw [hOrdinary.step_eq config hs.normal, if_neg (by omega), if_pos (by simp)]

theorem walk_abandoned {config : Config} {s : State} (hs : s.InBlock) {more : Text}
    {cause : Abandonment}
    (h : readCandidate config (('-' : CodePoint) :: ('-' : CodePoint) :: more) = .error cause)
    (offset : Nat) (previous : Option CodePoint) :
    walk config 0 s offset previous (('-' : CodePoint) :: ('-' : CodePoint) :: more)
      = (walk config 0 s (offset + 1) (some '-') (('-' : CodePoint) :: more)).after
        (some (.abandoned offset cause)) := by
  rw [walk_cons, hs.step_eq, State.candidate, h]

/-- A terminator looks at nothing in front of it. -/
theorem walk_terminator {x : CodePoint} (hx : isTerminator x = true) (config : Config) (s : State)
    (offset : Nat) (previous previous' : Option CodePoint) (rest : Text) :
    walk config 0 s offset previous (x :: rest) = walk config 0 s offset previous' (x :: rest) := by
  have hQuote : Quote.ofChar? x = none := by
    rcases isTerminator_iff.mp hx with rfl | rfl <;> rfl
  have hChar : ∀ q : Quote, x ≠ q.char := by
    rintro q rfl
    rw [Quote.ofChar?_char] at hQuote
    cases hQuote
  rw [walk_cons, walk_cons]
  simp [State.step, hQuote, hChar]

theorem State.InBlock.move_semicolon {s : State} (hs : s.InBlock) (config : Config)
    (previous next : Option CodePoint) : Move config s previous [(';' : CodePoint)] next s :=
  .body hs ⟨by simp, Or.inr rfl, by simp, by simp⟩ (by simp)

theorem State.InBlock.walk_semicolon {s : State} (hs : s.InBlock) (config : Config) (offset : Nat)
    (previous : Option CodePoint) (rest : Text) :
    walk config 0 s offset previous ((';' : CodePoint) :: rest)
      = walk config 0 s (offset + 1) (some ';') rest :=
  (hs.move_semicolon config previous rest.head?).walk_eq offset

theorem State.declare_reading (config : Config) (s : State) (offset : Nat) (d : Spelling config) :
    s.declare config offset d.reading = d.declaration
      (if s.selector.isEmpty then config.fallbackSelector else s.selector) offset := by
  have hStart : offset + d.reading.colon + 1 = offset + d.head.length := by
    rw [d.length_head, Nat.add_assoc]
  simp only [State.declare, Spelling.declaration, hStart]
  rfl

theorem State.candidate_head (config : Config) (s : State) (offset : Nat) (d : Spelling config)
    {x : CodePoint} (hx : isTerminator x = true) (rest : Text) :
    s.candidate config offset (d.head ++ (d.value ++ x :: rest)) =
      { state := s
        skip := if x = ('}' : CodePoint) then d.reading.length - 1 else d.reading.length
        event := some (.found offset (s.declare config offset d.reading)) } := by
  have hStop : (d.head ++ (d.value ++ x :: rest))[d.reading.length]? = some x := by
    rw [← List.append_assoc, d.length_reading, List.getElem?_append_right (Nat.le_refl _)]
    simp
  simp only [State.candidate, readCandidate_head d hx, hStop, Option.some.injEq]

/-- The step at a declaration's first hyphen; `tail` is what stands between the hyphen and the
terminator. -/
theorem State.InBlock.step_found {s : State} (hs : s.InBlock) {config : Config}
    (d : Spelling config) {x : CodePoint} (hx : isTerminator x = true) :
    ∃ tail : Text, d.head ++ d.value = ('-' : CodePoint) :: tail ∧
      tail.lastOr (some '-') = d.value.lastOr (some ':') ∧
      ∀ (offset : Nat) (previous : Option CodePoint) (rest : Text),
        s.step config offset previous '-' (tail ++ x :: rest) =
          { state := s
            skip := if x = ('}' : CodePoint) then tail.length else tail.length + 1
            event := some (.found offset (s.declare config offset d.reading)) } := by
  obtain ⟨tail, hTail, hHyphen⟩ := d.exists_head_append_value_eq
  refine ⟨tail, hTail, ?_, ?_⟩
  · rw [← Text.lastOr_cons _ _ none, ← hTail]
    simp [Spelling.head]
  · intro offset previous rest
    have hText : d.head ++ (d.value ++ x :: rest) = ('-' : CodePoint) :: (tail ++ x :: rest) := by
      rw [← List.append_assoc, hTail, List.cons_append]
    obtain ⟨more, rfl⟩ := eq_cons_of_head? hHyphen
    rw [List.cons_append, hs.step_eq, ← List.cons_append, ← hText,
      s.candidate_head config offset d hx, d.length_reading, hTail]
    rfl

/-- **A declaration is passed over up to its terminator.** -/
theorem walk_found {config : Config} {s : State} (hs : s.InBlock) (d : Spelling config)
    {x : CodePoint} (hx : isTerminator x = true) (offset : Nat) (previous : Option CodePoint)
    (rest : Text) :
    walk config 0 s offset previous (d.head ++ (d.value ++ x :: rest))
      = (walk config 0 s (offset + d.head.length + d.value.length) (d.value.lastOr (some ':'))
          (x :: rest)).after (some (.found offset (s.declare config offset d.reading))) := by
  obtain ⟨tail, hTail, hLast, hStep⟩ := hs.step_found d hx
  have hLength : d.head.length + d.value.length = tail.length + 1 := by
    rw [← List.length_append, hTail, List.length_cons]
  rw [Nat.add_assoc, hLength, ← hLast, ← List.append_assoc, hTail, List.cons_append, walk_cons,
    hStep]
  rcases isTerminator_iff.mp hx with rfl | rfl
  · -- A semicolon is passed over with the value; inside a block a move does the same.
    rw [if_neg (by simp), walk_skip_succ, hs.walk_semicolon]
    congr 2
    omega
  · rw [if_pos rfl, walk_skip, Nat.add_right_comm, ← Nat.add_assoc]

/-! ## Whole walks -/

/-- **Induction along a walk.**  What holds at the end of the text, and is kept by every move, every
abandoned candidate and every declaration found, holds of every walk. -/
theorem walk_induction {config : Config}
    {motive : State → Nat → Option CodePoint → Text → Trace → Prop}
    (nil : ∀ s offset previous, motive s offset previous [] ⟨s, []⟩)
    (move : ∀ s offset previous (a rest : Text) s', a ≠ [] →
      Move config s previous a rest.head? s' →
      motive s' (offset + a.length) (a.lastOr previous) rest
        (walk config 0 s' (offset + a.length) (a.lastOr previous) rest) →
      motive s offset previous (a ++ rest)
        (walk config 0 s' (offset + a.length) (a.lastOr previous) rest))
    (abandoned : ∀ (s : State) offset previous more cause, s.InBlock →
      readCandidate config (('-' : CodePoint) :: ('-' : CodePoint) :: more) = .error cause →
      motive s (offset + 1) (some '-') (('-' : CodePoint) :: more)
        (walk config 0 s (offset + 1) (some '-') (('-' : CodePoint) :: more)) →
      motive s offset previous (('-' : CodePoint) :: ('-' : CodePoint) :: more)
        ((walk config 0 s (offset + 1) (some '-') (('-' : CodePoint) :: more)).after
          (some (.abandoned offset cause))))
    (found : ∀ (s : State) offset previous (d : Spelling config) x rest, s.InBlock →
      isTerminator x = true →
      motive s (offset + d.head.length + d.value.length) (d.value.lastOr (some ':')) (x :: rest)
        (walk config 0 s (offset + d.head.length + d.value.length) (d.value.lastOr (some ':'))
          (x :: rest)) →
      motive s offset previous (d.head ++ (d.value ++ x :: rest))
        ((walk config 0 s (offset + d.head.length + d.value.length) (d.value.lastOr (some ':'))
          (x :: rest)).after (some (.found offset (s.declare config offset d.reading)))))
    (s : State) (offset : Nat) (previous : Option CodePoint) (t : Text) :
    motive s offset previous t (walk config 0 s offset previous t) := by
  induction hn : t.length using Nat.strongRecOn generalizing s offset previous t with
  | ind n ih =>
    subst hn
    cases t with
    | nil => exact nil s offset previous
    | cons c rest =>
      rcases exists_move_or_candidate config s previous c rest with
        ⟨a, b, s', hText, ha, hMove⟩ | ⟨hs, rfl, hHyphen⟩
      · have hShorter : b.length < (c :: rest).length := by
          have := List.length_pos_iff.mpr ha
          rw [hText, List.length_append]
          omega
        have hRest := ih b.length hShorter s' (offset + a.length) (a.lastOr previous) b rfl
        rw [hText, hMove.walk_eq]
        exact move s offset previous a b s' ha hMove hRest
      · obtain ⟨more, rfl⟩ := eq_cons_of_head? hHyphen
        cases hRead : readCandidate config (('-' : CodePoint) :: ('-' : CodePoint) :: more) with
        | error cause =>
          have hRest := ih (('-' : CodePoint) :: more).length (Nat.lt_succ_self _) s (offset + 1)
            (some '-') _ rfl
          rw [walk_abandoned hs hRead]
          exact abandoned s offset previous more cause hs hRead hRest
        | ok r =>
          obtain ⟨d, x, after, rfl, hx, hText⟩ := exists_spelling_of_readCandidate rfl hRead
          have hShorter : (x :: after).length
              < (('-' : CodePoint) :: ('-' : CodePoint) :: more).length := by
            have := d.length_head
            rw [hText, List.length_append, List.length_append]
            omega
          have hRest := ih (x :: after).length hShorter s
            (offset + d.head.length + d.value.length) (d.value.lastOr (some ':')) _ rfl
          rw [hText, walk_found hs d hx]
          exact found s offset previous d x after hs hx hRest

/-! ## Walks at another offset -/

def Event.shift (n : Nat) : Event → Event
  | found offset d => found (offset + n)
      { d with
        id := Declaration.idAt (offset + n : Nat) (d.start + n)
        start := d.start + n
        stop := d.stop + n }
  | abandoned offset cause => abandoned (offset + n) cause

def Trace.shift (n : Nat) (trace : Trace) : Trace :=
  { trace with events := trace.events.map (Event.shift n) }

/-- **A walk does the same at every offset.** -/
theorem walk_shift : ∀ (config : Config) (s : State) (offset n : Nat)
    (previous : Option CodePoint) (t : Text),
    walk config 0 s (offset + n) previous t = (walk config 0 s offset previous t).shift n := by
  intro config s offset n previous t
  refine walk_induction (motive := fun s offset previous t trace =>
    walk config 0 s (offset + n) previous t = trace.shift n) ?_ ?_ ?_ ?_ s offset previous t
  · intro s offset previous
    rw [walk]
    rfl
  · intro s offset previous a rest s' _ hMove ih
    rw [hMove.walk_eq, ← ih, Nat.add_right_comm]
  · intro s offset previous more cause hs hRead ih
    rw [walk_abandoned hs hRead, Nat.add_right_comm, ih]
    rfl
  · intro s offset previous d x rest hs hx ih
    have hDeclare : Event.shift n (.found offset (s.declare config offset d.reading))
        = .found (offset + n) (s.declare config (offset + n) d.reading) := by
      rw [State.declare_reading, State.declare_reading]
      simp only [Event.shift, Spelling.declaration, Event.found.injEq, Declaration.mk.injEq,
        true_and]
      refine ⟨?_, by omega, by omega, trivial⟩
      congr 1
      omega
    have hOffset : offset + n + d.head.length + d.value.length
        = offset + d.head.length + d.value.length + n := by omega
    rw [walk_found hs d hx, hOffset, ih, ← hDeclare]
    rfl

end CustomProperties.Scan
