import CustomProperties.Proofs.Stylesheet
import CustomProperties.Proofs.Walk

/-!
# The scan of a well-formed stylesheet

Every part of a stylesheet takes the walk from one known state to another.  Outside every block that
state is normal mode with the prelude so far; inside one it is `State.inside n selector`, with
`n + 1` open braces and the selector that the outermost rule has given.  Comments, blanks and plain
text leave that state as it is, a nested rule goes from `inside n` to `inside (n + 1)` and back, and
behind an outermost rule the walk is in the state that it started in.

* `Passes`: the walk passes over a text and meets no candidate in it.
* `declarations_walk_body`: what is found between the braces of a rule, by induction on the body.
* `scan_render`: **the scan of a stylesheet finds its declarations and nothing else.**
-/

namespace CustomProperties.Scan

/-! ## Texts that are passed over -/

/-- The walk passes over `a` with `rest` behind it, and ends in the state `s'`. -/
def Passes (config : Config) (s : State) (previous : Option CodePoint) (a rest : Text)
    (s' : State) : Prop :=
  ∀ offset : Nat, walk config 0 s offset previous (a ++ rest)
    = walk config 0 s' (offset + a.length) (a.lastOr previous) rest

variable {config : Config} {s s' s'' : State} {previous : Option CodePoint} {a b rest : Text}

theorem Passes.append (ha : Passes config s previous a (b ++ rest) s')
    (hb : Passes config s' (a.lastOr previous) b rest s'') :
    Passes config s previous (a ++ b) rest s'' := by
  intro offset
  rw [List.append_assoc, ha, hb, List.length_append, Nat.add_assoc, Text.lastOr_append]

/-- A text is passed over if every character of it is a move, where `σ a` is the state behind its
beginning `a`. -/
theorem passes_of_moves {t : Text} (σ : Text → State)
    (h : ∀ (a : Text) (c : CodePoint) (b : Text), t = a ++ c :: b →
      Move config (σ a) (a.lastOr previous) [c] (b ++ rest).head? (σ (a ++ [c]))) :
    Passes config (σ []) previous t rest (σ t) := by
  have hFrom : ∀ b a : Text, t = a ++ b →
      Passes config (σ a) (a.lastOr previous) b rest (σ t) := by
    intro b
    induction b with
    | nil =>
      intro a ht offset
      rw [List.append_nil] at ht
      rw [ht]
      rfl
    | cons c b ih =>
      intro a ht
      have hRest := ih (a ++ [c]) (by rw [ht, List.append_assoc]; rfl)
      rw [Text.lastOr_append] at hRest
      exact Passes.append (a := [c]) (h a c b ht).walk_eq hRest
  exact hFrom t [] rfl

/-! ## Comments and plain text -/

/-- Two characters that stand nowhere in a text stand at no place of it, if what follows does not
complete them. -/
theorem not_pair_at {p q c : CodePoint} {t : Text} (ht : t = a ++ c :: b)
    (h : ¬ [p, q] <:+: t) (hEnd : ¬ (t.getLast? = some p ∧ rest.head? = some q)) :
    ¬ (c = p ∧ (b ++ rest).head? = some q) := by
  rintro ⟨rfl, hHead⟩
  cases b with
  | nil => exact hEnd ⟨by rw [ht]; simp, hHead⟩
  | cons d b =>
    cases hHead
    exact h ⟨a, b, by rw [ht]; simp⟩

/-- **A comment is passed over**, whatever stands in it. -/
theorem Comment.passes (c : Comment) (hs : s.mode = .normal) :
    Passes config s previous c.render rest s := by
  have hOpen : Passes config s previous commentOpen (c.text ++ commentClose ++ rest)
      { s with mode := .comment } := (Move.openComment hs).walk_eq
  have hText : Passes config { s with mode := .comment } (commentOpen.lastOr previous) c.text
      (commentClose ++ rest) { s with mode := .comment } := by
    refine passes_of_moves (fun _ => { s with mode := .comment }) fun a x b ht => ?_
    exact .inComment rfl (not_pair_at ht c.not_closed (by rintro ⟨-, h⟩; cases h))
  have hClose : ∀ previous, Passes config { s with mode := .comment } previous commentClose rest
      { s with mode := .normal } := fun _ => (Move.closeComment rfl).walk_eq
  have hBack : { s with mode := .normal } = s := by rw [← hs]
  rw [hBack] at hClose
  exact hOpen.append (hText.append (hClose _))

theorem Bare.ordinary {t : Text} {c : CodePoint} (h : Bare t) (ht : t = a ++ c :: b)
    (hEnd : ¬ (t.getLast? = some ('/' : CodePoint) ∧ rest.head? = some ('*' : CodePoint))) :
    Ordinary previous c (b ++ rest).head? := by
  have hc : c ∈ t := by rw [ht]; simp
  refine ⟨not_pair_at ht h.no_comment hEnd, Or.inr ?_, ?_, ?_⟩
  · cases hq : Quote.ofChar? c with
    | none => rfl
    | some q =>
      obtain rfl := Quote.eq_char_of_ofChar? hq
      exact absurd hc (h.no_quote q)
  · rintro rfl
    exact h.no_open hc
  · rintro rfl
    exact h.no_close hc

theorem Plain.passes (p : Plain) (hs : s.InBlock)
    (hRest : rest.head? = some (';' : CodePoint) ∨ rest.head? = some ('{' : CodePoint)) :
    Passes config s previous p.text rest s := by
  have hEnd : ∀ x y : CodePoint, y = '*' ∨ y = '-' →
      ¬ (p.text.getLast? = some x ∧ rest.head? = some y) := by
    rintro x y hy ⟨-, h⟩
    rw [h] at hRest
    rcases hy with rfl | rfl <;> simp at hRest
  refine passes_of_moves (fun _ => s) fun a c b ht => ?_
  exact .body hs (p.bare.ordinary ht (hEnd _ _ (Or.inl rfl)))
    (not_pair_at ht p.no_hyphens (hEnd _ _ (Or.inr rfl)))

theorem passes_blanks {t : Text} (ht : t.isBlank = true) (hs : s.InBlock) :
    Passes config s previous t rest s := by
  refine passes_of_moves (fun _ => s) fun a c b hSplit => ?_
  have hBlank : c.isBlank = true := Text.isBlank_iff.mp ht c (by rw [hSplit]; simp)
  have hNot : ∀ x : CodePoint, x.isBlank = false → c ≠ x := by
    rintro x hx rfl
    rw [hBlank] at hx
    cases hx
  have hQuote : Quote.ofChar? c = none := by
    rw [Quote.ofChar?, if_neg (hNot _ (by decide)), if_neg (hNot _ (by decide))]
  exact .body hs ⟨fun h => hNot _ (by decide) h.1, Or.inr hQuote, hNot _ (by decide),
    hNot _ (by decide)⟩ fun h => hNot _ (by decide) h.1

/-! ## Preludes -/

theorem kept_nil (config : Config) : kept config [] = [] := ite_self []

theorem State.keepQuoted_kept (config : Config) (m : Mode) (t a : Text) (c : CodePoint) :
    ({ mode := m, prelude := t ++ kept config a } : State).keepQuoted config c
      = { mode := m, prelude := t ++ kept config (a ++ [c]) } := by
  cases h : config.keepStrings with
  | false => simp [State.keepQuoted, kept, h]
  | true => simp [State.keepQuoted, kept, h]

theorem Chunk.passes (c : Chunk) (t : Text) :
    Passes config { prelude := t } previous c.text rest { prelude := t ++ c.text } := by
  have h : Passes config { prelude := t ++ [] } previous c.text rest
      { prelude := t ++ c.text } := by
    refine passes_of_moves (fun a => { prelude := t ++ a }) fun a x b hSplit => ?_
    have hOrdinary : Ordinary (a.lastOr previous) x (b ++ rest).head? :=
      c.bare.ordinary hSplit fun h => c.not_slash h.1
    have hMove := @Move.prelude config { prelude := t ++ a } _ _ _ rfl rfl hOrdinary
    rwa [List.append_assoc] at hMove
  rwa [List.append_nil] at h

/-- Without a backslash in it a string ends at the first quote of its kind. -/
theorem Quotation.passes (q : Quotation) (t : Text) (hp : Quote.escaped previous = false) :
    Passes config { prelude := t } previous q.render rest
      { prelude := t ++ kept config q.render } := by
  have hOpen : Passes config { prelude := t } previous [q.quote.char]
      (q.content ++ [q.quote.char] ++ rest)
      { mode := .string q.quote, prelude := t ++ kept config [q.quote.char] } := by
    have hKeep := State.keepQuoted_kept config (.string q.quote) t [] q.quote.char
    rw [kept_nil, List.append_nil] at hKeep
    exact hKeep ▸ (Move.openString rfl hp).walk_eq
  have hContent : Passes config
      { mode := .string q.quote, prelude := t ++ kept config [q.quote.char] }
      (some q.quote.char) q.content ([q.quote.char] ++ rest)
      { mode := .string q.quote, prelude := t ++ kept config (q.quote.char :: q.content) } := by
    refine passes_of_moves
      (fun a => { mode := .string q.quote, prelude := t ++ kept config (q.quote.char :: a) })
      fun a c b hSplit => ?_
    have hc : c ∈ q.content := by rw [hSplit]; simp
    rw [← List.cons_append, ← State.keepQuoted_kept]
    refine .inString rfl ?_
    rintro ⟨rfl, -⟩
    exact q.not_closed hc
  have hLast : Quote.escaped (q.content.lastOr (some q.quote.char)) = false :=
    Quote.escaped_lastOr (fun h => q.no_backslash (List.mem_of_getLast? h)) q.quote.escaped_char
  have hClose : Passes config
      { mode := .string q.quote, prelude := t ++ kept config (q.quote.char :: q.content) }
      (q.content.lastOr (some q.quote.char)) [q.quote.char] rest
      { prelude := t ++ kept config q.render } := by
    rw [Quotation.render, ← List.cons_append, ← State.keepQuoted_kept]
    exact (Move.closeString rfl hLast).walk_eq
  exact hOpen.append (hContent.append hClose)

theorem Piece.passes (p : Piece) (t : Text) (hp : Quote.escaped previous = false) :
    Passes config { prelude := t } previous p.render rest { prelude := t ++ p.shown config } := by
  cases p with
  | chunk c => exact c.passes t
  | comment c =>
    rw [Piece.shown, List.append_nil]
    exact c.passes rfl
  | quotation q => exact q.passes t hp

theorem Piece.not_escaped (p : Piece) (hp : Quote.escaped previous = false) :
    Quote.escaped (p.render.lastOr previous) = false := by
  cases p with
  | chunk c => exact Quote.escaped_lastOr c.not_backslash hp
  | comment c => simp [Piece.render, Comment.render, commentClose, Quote.escaped]
  | quotation q => simp [Piece.render, Quotation.render, Quote.escaped_char]

/-- **A prelude is passed over**, and what it shows is kept. -/
theorem passes_prelude : ∀ (pieces : List Piece) (t : Text) (previous : Option CodePoint),
    Quote.escaped previous = false →
    Passes config { prelude := t } previous (pieces.flatMap Piece.render) rest
      { prelude := t ++ pieces.flatMap (Piece.shown config) } := by
  intro pieces
  induction pieces with
  | nil =>
    intro t previous _ offset
    rw [List.flatMap_nil, List.flatMap_nil, List.append_nil]
    rfl
  | cons p pieces ih =>
    intro t previous hp
    rw [List.flatMap_cons, List.flatMap_cons, ← List.append_assoc t]
    exact (p.passes t hp).append (ih _ _ (p.not_escaped hp))

/-! ## Blocks -/

/-- Inside `n + 1` blocks, at a place where a declaration may stand. -/
def State.inside (n : Nat) (selector : Text) : State := { depth := n + 1, selector := selector }

theorem State.inBlock_inside (n : Nat) (selector : Text) : (State.inside n selector).InBlock :=
  ⟨rfl, Nat.succ_pos n⟩

theorem State.openBlock_prelude (t : Text) :
    ({ prelude := t } : State).openBlock = State.inside 0 t.trim := rfl

theorem State.openBlock_inside (n : Nat) (selector : Text) :
    (State.inside n selector).openBlock = State.inside (n + 1) selector := rfl

theorem State.closeBlock_inside_zero (selector : Text) :
    (State.inside 0 selector).closeBlock = {} := rfl

theorem State.closeBlock_inside_succ (n : Nat) (selector : Text) :
    (State.inside (n + 1) selector).closeBlock = State.inside n selector := by
  simp [State.inside, State.closeBlock]

theorem Spelling.declare_inside (d : Spelling config) (n : Nat) (selector : Text) (offset : Nat) :
    (State.inside n selector).declare config offset d.reading
      = d.declaration (if selector = [] then config.fallbackSelector else selector) offset := by
  rw [State.declare_reading]
  simp only [State.inside, List.isEmpty_iff]

theorem walk_openBlock (hs : s.mode = .normal) (offset : Nat) :
    walk config 0 s offset previous (('{' : CodePoint) :: rest)
      = walk config 0 s.openBlock (offset + 1) (some '{') rest :=
  (Move.openBlock hs).walk_eq offset

theorem walk_closeBlock (hs : s.mode = .normal) (offset : Nat) :
    walk config 0 s offset previous (('}' : CodePoint) :: rest)
      = walk config 0 s.closeBlock (offset + 1) (some '}') rest :=
  (Move.closeBlock hs).walk_eq offset

/-- **What is found between the braces of a rule**, and where the walk goes on behind them. -/
theorem declarations_walk_body (selector : Text) : ∀ (body : Body config) (n offset : Nat)
    (previous : Option CodePoint) (rest : Text),
    (walk config 0 (State.inside n selector) offset previous
        (body.render ++ ('}' : CodePoint) :: rest)).declarations
      = body.declarations (if selector = [] then config.fallbackSelector else selector) offset
        ++ (walk config 0 (State.inside n selector).closeBlock (offset + body.render.length + 1)
          (some '}') rest).declarations := by
  intro body
  induction body with
  | done =>
    intro n offset previous rest
    rw [Body.render, List.nil_append, walk_closeBlock rfl]
    rfl
  | last d =>
    intro n offset previous rest
    have hs := State.inBlock_inside n selector
    rw [Body.render, List.append_assoc, walk_found hs d rfl, Trace.declarations_after_found,
      walk_closeBlock rfl, d.declare_inside, List.length_append, Nat.add_assoc offset]
    rfl
  | blanks t blank body ih =>
    intro n offset previous rest
    have hs := State.inBlock_inside n selector
    rw [Body.render, List.append_assoc, passes_blanks blank hs, ih, List.length_append,
      Nat.add_assoc offset]
    rfl
  | comment c body ih =>
    intro n offset previous rest
    rw [Body.render, List.append_assoc, c.passes rfl, ih, List.length_append, Nat.add_assoc offset]
    rfl
  | plain p body ih =>
    intro n offset previous rest
    have hs := State.inBlock_inside n selector
    have hLength : offset + (Body.plain p body).render.length
        = offset + p.text.length + 1 + body.render.length := by
      rw [Body.render, List.length_append, List.length_cons]
      omega
    rw [hLength, Body.render, List.append_assoc, p.passes hs (Or.inl rfl), List.cons_append,
      hs.walk_semicolon, ih]
    rfl
  | declaration d body ih =>
    intro n offset previous rest
    have hs := State.inBlock_inside n selector
    have hLength : offset + (Body.declaration d body).render.length
        = offset + d.head.length + d.value.length + 1 + body.render.length := by
      rw [Body.render, List.length_append, List.length_append, List.length_cons]
      omega
    rw [hLength, Body.render, List.append_assoc, List.append_assoc, List.cons_append,
      walk_found hs d rfl, Trace.declarations_after_found, hs.walk_semicolon, ih, d.declare_inside]
    rfl
  | rule p inner body ihInner ih =>
    intro n offset previous rest
    have hs := State.inBlock_inside n selector
    have hLength : offset + (Body.rule p inner body).render.length
        = offset + p.text.length + 1 + inner.render.length + 1 + body.render.length := by
      rw [Body.render, List.length_append, List.length_cons, List.length_append, List.length_cons]
      omega
    rw [hLength, Body.render, List.append_assoc, p.passes hs (Or.inr rfl), List.cons_append,
      walk_openBlock rfl, State.openBlock_inside, List.append_assoc, List.cons_append, ihInner,
      State.closeBlock_inside_succ, ih, ← List.append_assoc]
    rfl

/-! ## Stylesheets -/

theorem declarations_walk_stylesheet : ∀ (sheet : Stylesheet config) (offset : Nat)
    (previous : Option CodePoint), Quote.escaped previous = false →
    (walk config 0 {} offset previous sheet.render).declarations = sheet.declarations offset := by
  intro sheet
  induction sheet with
  | nil =>
    intro offset previous _
    rfl
  | cons r sheet ih =>
    intro offset previous hp
    have hText : Stylesheet.render (r :: sheet) = r.prelude.flatMap Piece.render
        ++ ('{' : CodePoint)
          :: (r.body.render ++ ('}' : CodePoint) :: Stylesheet.render sheet) := by
      simp [Stylesheet.render, Rule.render]
    have hLength : offset + r.render.length
        = offset + (r.prelude.flatMap Piece.render).length + 1 + r.body.render.length + 1 := by
      simp only [Rule.render, List.length_append, List.length_cons, List.length_nil]
      omega
    rw [hText, passes_prelude r.prelude [] previous hp, List.nil_append, walk_openBlock rfl,
      State.openBlock_prelude, declarations_walk_body, State.closeBlock_inside_zero,
      ih _ (some '}') rfl, ← hLength]
    rfl

/-- **The scan of a stylesheet finds its declarations and nothing else**, in the order in which
they stand there: each with its name, its value, its place and the selector of the outermost rule
around it. -/
theorem scan_render (config : Config) (sheet : Stylesheet config) :
    scan config sheet.render = sheet.declarations 0 :=
  declarations_walk_stylesheet sheet 0 none rfl

/-- A rule with a brace in a string of its prelude and a quote in a comment, around a declaration
with a semicolon in its value, a nested rule and a plain item. -/
def nestedRule : Rule { keepStrings := true } where
  prelude :=
    [.chunk ⟨"a[b=", by decide +kernel, by decide +kernel, by decide +kernel⟩,
      .quotation ⟨.double, "\x7b", by decide +kernel, by decide +kernel⟩,
      .chunk ⟨"]", by decide +kernel, by decide +kernel, by decide +kernel⟩,
      .comment ⟨"'", by decide +kernel⟩]
  body :=
    .blanks " " (by decide +kernel) <|
    .declaration ⟨"--x", "", "';'", by decide +kernel, by decide +kernel, by decide +kernel⟩ <|
    .rule ⟨"b", by decide +kernel, by decide +kernel⟩
      (.last ⟨"--y", " ", "1", by decide +kernel, by decide +kernel, by decide +kernel⟩) <|
    .plain ⟨"c:d", by decide +kernel, by decide +kernel⟩ .done

theorem scan_render_nestedRule :
    scan { keepStrings := true } "a[b=\"\x7b\"]/*'*/\x7b --x:';';b\x7b--y :1\x7dc:d;\x7d" =
      [⟨"15-19", "--x", "';'", 19, 22, "a[b=\"\x7b\"]"⟩,
        ⟨"25-30", "--y", "1", 30, 31, "a[b=\"\x7b\"]"⟩] := by
  have hText : Stylesheet.render [nestedRule]
      = "a[b=\"\x7b\"]/*'*/\x7b --x:';';b\x7b--y :1\x7dc:d;\x7d" := by decide +kernel
  rw [← hText, scan_render]
  decide +kernel

end CustomProperties.Scan
