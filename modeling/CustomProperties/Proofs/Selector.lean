import CustomProperties.Proofs.Lexer
import Mathlib.Order.Bounds.Defs

/-!
# The selector of a declaration

The prelude is gathered character by character, thrown away at every brace and read once, at a brace
that opens a block outside all others.  So at such a brace it is what is left of the source since
the brace before it (`exposed`), and from there on up to the end of the block the selector does not
change.

A walk keeps this account along with the braces it has read (`Ledger`).  Outside every block the
account says how the text since the last brace goes on: the characters left of it and of whatever
follows are the prelude and the characters left of what follows.  That is what one character or
mark can keep (`Ledger.quiet`).

* `exposed`: the characters of a text outside comments, and outside strings unless these are kept.
* `Ledger.move`: a move keeps the account.
* `described_walk`: so each declaration found has the selector that the account says.
* `selector_eq_exposed`: **a selector is what is exposed of the source between two braces.**
-/

namespace CustomProperties.Scan

/-! ## Characters outside comments and strings -/

/-- A character that takes the lexer from one mode to another is left in a selector: never if it is
part of a comment, and if it is part of a string only when strings are kept. -/
def Mode.isExposed (keepStrings : Bool) : (m m' : Mode) → Bool
  | .normal, .normal => true
  | .comment, _ => false
  | _, .comment => false
  | .normal, .string _ => keepStrings
  | .string _, _ => keepStrings

/-- The characters of a text that are left in a selector, when the lexer comes to it in mode `m`
with `skip` characters of a comment mark to pass. -/
def exposedFrom (keepStrings : Bool) : (skip : Nat) → Mode → (previous : Option CodePoint) →
    Text → Text
  | _, _, _, [] => []
  | skip + 1, m, _, c :: rest => exposedFrom keepStrings skip m (some c) rest
  | 0, m, previous, c :: rest =>
    let next := m.next previous c rest.head?
    (if m.isExposed keepStrings next.1 then [c] else [])
      ++ exposedFrom keepStrings next.2 next.1 (some c) rest

/-- The characters of a text outside comments, and outside strings unless these are kept. -/
def exposed (keepStrings : Bool) (t : Text) : Text := exposedFrom keepStrings 0 .normal none t

/-- The selector that a text in front of a block gives. -/
def selectorOf (config : Config) (t : Text) : Text :=
  if (exposed config.keepStrings t).trim.isEmpty then config.fallbackSelector
  else (exposed config.keepStrings t).trim

theorem exposedFrom_cons {keepStrings b : Bool} {m m' : Mode} {skip : Nat}
    {previous : Option CodePoint} {c : CodePoint} {rest : Text}
    (h : m.next previous c rest.head? = (m', skip)) (hb : m.isExposed keepStrings m' = b) :
    exposedFrom keepStrings 0 m previous (c :: rest)
      = (if b then [c] else []) ++ exposedFrom keepStrings skip m' (some c) rest := by
  rw [exposedFrom, h, ← hb]

theorem exposedFrom_sublist (keepStrings : Bool) (skip : Nat) (m : Mode)
    (previous : Option CodePoint) (t : Text) :
    (exposedFrom keepStrings skip m previous t).Sublist t := by
  induction t generalizing skip m previous with
  | nil => cases skip <;> exact List.Sublist.slnil
  | cons c rest ih =>
    cases skip with
    | succ skip => exact (ih skip m (some c)).cons c
    | zero =>
      rw [exposedFrom]
      split
      · exact (ih _ _ _).cons_cons c
      · exact (ih _ _ _).cons c

/-- Of the character in front it only matters whether it is a backslash. -/
theorem exposedFrom_escaped_congr (keepStrings : Bool) (m : Mode)
    {previous previous' : Option CodePoint}
    (h : Quote.escaped previous = Quote.escaped previous') (t : Text) :
    exposedFrom keepStrings 0 m previous t = exposedFrom keepStrings 0 m previous' t := by
  cases t with
  | nil => rfl
  | cons c rest =>
    have hNext : m.next previous c rest.head? = m.next previous' c rest.head? := by
      simp only [Mode.next, h]
    rw [exposedFrom, exposedFrom, hNext]

theorem exposed_of_plain (keepStrings : Bool) {t : Text} (hQuotes : ∀ q : Quote, q.char ∉ t)
    (hComment : ¬ commentOpen <:+: t) : exposed keepStrings t = t := by
  have hFrom : ∀ previous : Option CodePoint,
      exposedFrom keepStrings 0 .normal previous t = t := by
    induction t with
    | nil => intro previous; rfl
    | cons c rest ih =>
      intro previous
      have hQuote : Quote.ofChar? c = none := by
        cases hc : Quote.ofChar? c with
        | none => rfl
        | some q => exact absurd (Quote.eq_char_of_ofChar? hc ▸ List.mem_cons_self) (hQuotes q)
      have hOpen : ¬ (c = ('/' : CodePoint) ∧ rest.head? = some ('*' : CodePoint)) := by
        rintro ⟨rfl, hStar⟩
        obtain ⟨more, rfl⟩ := eq_cons_of_head? hStar
        exact hComment ⟨[], more, rfl⟩
      have hLater := ih (fun q hq => hQuotes q (List.mem_cons_of_mem c hq))
        (fun h => hComment (h.trans (List.suffix_cons c rest).isInfix)) (some c)
      rw [exposedFrom_cons (b := true) (Mode.next_ordinary hOpen (Or.inr hQuote)) rfl, hLater]
      rfl
  exact hFrom none

/-! ## Moves -/

/-- A move that reads no brace: it leaves the depth and the selector alone. -/
structure Quiet (s : State) (a : Text) (s' : State) : Prop where
  not_brace : s.mode = .normal → ∀ c ∈ a.head?, c ≠ ('{' : CodePoint) ∧ c ≠ ('}' : CodePoint)
  depth : s'.depth = s.depth
  selector : s'.selector = s.selector

theorem State.prelude_keepQuoted (config : Config) (s : State) (hd : s.depth = 0) (c : CodePoint) :
    (s.keepQuoted config c).prelude = s.prelude ++ if config.keepStrings then [c] else [] := by
  rw [State.keepQuoted]
  cases config.keepStrings with
  | true => rw [if_pos ⟨hd, rfl⟩, if_pos rfl]
  | false => rw [if_neg (by simp), if_neg (by simp), List.append_nil]

theorem State.depth_keepQuoted (config : Config) (s : State) (c : CodePoint) :
    (s.keepQuoted config c).depth = s.depth := by
  rw [State.keepQuoted]
  split
  · rfl
  · rfl

theorem State.selector_keepQuoted (config : Config) (s : State) (c : CodePoint) :
    (s.keepQuoted config c).selector = s.selector := by
  rw [State.keepQuoted]
  split
  · rfl
  · rfl

/-- **A move reads a brace or is quiet.** -/
theorem Move.brace_or_quiet {config : Config} {s s' : State} {previous next : Option CodePoint}
    {a : Text} (h : Move config s previous a next s') :
    (s.mode = .normal ∧ a = [('{' : CodePoint)] ∧ s' = s.openBlock) ∨
    (s.mode = .normal ∧ a = [('}' : CodePoint)] ∧ s' = s.closeBlock) ∨ Quiet s a s' := by
  cases h with
  | closeComment hm => exact Or.inr (Or.inr ⟨fun hn => by simp [hm] at hn, rfl, rfl⟩)
  | inComment hm _ => exact Or.inr (Or.inr ⟨fun hn => by simp [hm] at hn, rfl, rfl⟩)
  | closeString hm _ =>
    exact Or.inr (Or.inr ⟨fun hn => by simp [hm] at hn, State.depth_keepQuoted config _ _,
      State.selector_keepQuoted config _ _⟩)
  | inString hm _ =>
    exact Or.inr (Or.inr ⟨fun hn => by simp [hm] at hn, State.depth_keepQuoted config _ _,
      State.selector_keepQuoted config _ _⟩)
  | openComment _ => exact Or.inr (Or.inr ⟨fun _ => by simp, rfl, rfl⟩)
  | @openString q _ _ _ =>
    refine Or.inr (Or.inr ⟨fun _ c hc => ?_, State.depth_keepQuoted config _ _,
      State.selector_keepQuoted config _ _⟩)
    cases hc
    cases q <;> decide
  | openBlock hm => exact Or.inl ⟨hm, rfl, rfl⟩
  | closeBlock hm => exact Or.inr (Or.inl ⟨hm, rfl, rfl⟩)
  | prelude _ _ ho =>
    refine Or.inr (Or.inr ⟨fun _ c hc => ?_, rfl, rfl⟩)
    cases hc
    exact ⟨ho.not_open, ho.not_close⟩
  | body _ ho _ =>
    refine Or.inr (Or.inr ⟨fun _ c hc => ?_, rfl, rfl⟩)
    cases hc
    exact ⟨ho.not_open, ho.not_close⟩

theorem head?_of_isPrefix {u rest : Text} (h : u <+: rest) {c : CodePoint}
    (hc : u.head? = some c) : rest.head? = some c := by
  obtain ⟨v, rfl⟩ := h
  rw [List.head?_append, hc, Option.some_or]

/-- **Outside every block the prelude grows by what is exposed.**  The text may be cut off anywhere
behind the move. -/
theorem Move.exposedFrom_append {config : Config} {s s' : State} {previous : Option CodePoint}
    {a rest : Text} (h : Move config s previous a rest.head? s') (hQuiet : Quiet s a s')
    (hd : s.depth = 0) {u : Text} (hu : u <+: rest) :
    s.prelude ++ exposedFrom config.keepStrings 0 s.mode previous (a ++ u)
      = s'.prelude ++ exposedFrom config.keepStrings 0 s'.mode (a.lastOr previous) u := by
  have hHead : ∀ c, u.head? = some c → rest.head? = some c := fun _ => head?_of_isPrefix hu
  generalize rest.head? = next at h hHead
  cases h with
  | closeComment hm =>
    rw [hm]
    simp [exposedFrom, Mode.next, Mode.isExposed]
  | @inComment c _ hm hc =>
    have hNext : Mode.comment.next previous c u.head? = (.comment, 0) := by
      rw [Mode.next]
      exact if_neg fun hClose => hc ⟨hClose.1, hHead _ hClose.2⟩
    rw [hm, List.singleton_append, exposedFrom_cons (b := false) hNext rfl]
    rfl
  | @closeString q _ hm hp =>
    have hNext : (Mode.string q).next previous q.char u.head? = (.normal, 0) := by
      simp [Mode.next, hp]
    rw [hm, List.singleton_append, exposedFrom_cons (b := config.keepStrings) hNext rfl,
      State.mode_keepQuoted, State.prelude_keepQuoted config { s with mode := .normal } hd,
      List.append_assoc]
    rfl
  | @inString q c _ hm hc =>
    have hNext : (Mode.string q).next previous c u.head? = (.string q, 0) := by
      rw [Mode.next]
      exact if_neg hc
    rw [State.mode_keepQuoted, hm, List.singleton_append,
      exposedFrom_cons (b := config.keepStrings) hNext rfl, State.prelude_keepQuoted config s hd,
      List.append_assoc]
    rfl
  | openComment hm =>
    rw [hm]
    simp [exposedFrom, Mode.next, Mode.isExposed]
  | @openString q _ hm hp =>
    have hSlash : q.char ≠ ('/' : CodePoint) := by cases q <;> decide
    have hNext : Mode.normal.next previous q.char u.head? = (.string q, 0) := by
      simp [Mode.next, hp, hSlash, Quote.ofChar?_char]
    rw [hm, List.singleton_append, exposedFrom_cons (b := config.keepStrings) hNext rfl,
      State.mode_keepQuoted, State.prelude_keepQuoted config { s with mode := .string q } hd,
      List.append_assoc]
    rfl
  | openBlock hm => exact absurd rfl (hQuiet.not_brace hm _ rfl).1
  | closeBlock hm => exact absurd rfl (hQuiet.not_brace hm _ rfl).2
  | @prelude c _ hm _ ho =>
    have hNext : Mode.normal.next previous c u.head? = (.normal, 0) :=
      Mode.next_ordinary (fun hOpen => ho.not_comment ⟨hOpen.1, hHead _ hOpen.2⟩) ho.not_quote
    rw [hm, List.singleton_append, exposedFrom_cons (b := true) hNext rfl, ← List.append_assoc]
    rfl
  | body hs _ _ => exact absurd hd (Nat.ne_of_gt hs.deep)

/-! ## Braces -/

def Visit.isBrace (v : Visit) : Bool :=
  v.state.mode = .normal && (v.char = '{' || v.char = '}')

theorem Visit.isBrace_iff {v : Visit} : v.isBrace = true ↔
    v.state.mode = .normal ∧ (v.char = ('{' : CodePoint) ∨ v.char = ('}' : CodePoint)) := by
  simp [isBrace]

def braces (config : Config) (s : State) (offset : Nat) (previous : Option CodePoint) (t : Text) :
    List Visit :=
  (visits config 0 s offset previous t).filter Visit.isBrace

theorem Quiet.braces_eq {config : Config} {s s' : State} {previous : Option CodePoint}
    {a rest : Text} (hQuiet : Quiet s a s') (h : Move config s previous a rest.head? s')
    (offset : Nat) : braces config s offset previous (a ++ rest)
      = braces config s' (offset + a.length) (a.lastOr previous) rest := by
  obtain ⟨c, tail, rfl, hVisits⟩ := h.visits_cons offset
  rw [braces, hVisits, List.filter_cons_of_neg, braces]
  rw [Visit.isBrace_iff]
  rintro ⟨hm, hc⟩
  obtain ⟨hOpen, hClose⟩ := hQuiet.not_brace hm c rfl
  exact hc.elim hOpen hClose

theorem braces_brace {config : Config} {s s' : State} {previous : Option CodePoint} {x : CodePoint}
    {rest : Text} (hx : x = ('{' : CodePoint) ∨ x = ('}' : CodePoint)) (hm : s.mode = .normal)
    (h : Move config s previous [x] rest.head? s') (offset : Nat) :
    braces config s offset previous (x :: rest)
      = ⟨offset, s, previous, x, rest⟩ :: braces config s' (offset + 1) (some x) rest := by
  obtain ⟨c, tail, hText, hVisits⟩ := h.visits_cons offset
  cases hText
  rw [List.singleton_append] at hVisits
  rw [braces, hVisits, List.filter_cons_of_pos (Visit.isBrace_iff.mpr ⟨hm, hx⟩)]
  rfl

theorem braces_abandoned {config : Config} {s : State} (hs : s.InBlock) {more : Text}
    {cause : Abandonment}
    (h : readCandidate config (('-' : CodePoint) :: ('-' : CodePoint) :: more) = .error cause)
    (offset : Nat) (previous : Option CodePoint) :
    braces config s offset previous (('-' : CodePoint) :: ('-' : CodePoint) :: more)
      = braces config s (offset + 1) (some '-') (('-' : CodePoint) :: more) := by
  rw [braces, visits_abandoned_cons hs h, List.filter_cons_of_neg (by simp [Visit.isBrace]), braces]

theorem braces_found {config : Config} {s : State} (hs : s.InBlock) (d : Spelling config)
    {x : CodePoint} (hx : isTerminator x = true) (offset : Nat) (previous : Option CodePoint)
    (rest : Text) : braces config s offset previous (d.head ++ (d.value ++ x :: rest))
      = braces config s (offset + d.head.length + d.value.length) (d.value.lastOr (some ':'))
        (x :: rest) := by
  obtain ⟨tail, later, hVisits, hLater⟩ := visits_found_cons hs d hx offset previous rest
  rw [braces, hVisits, List.filter_cons_of_neg (by simp [Visit.isBrace]), braces]
  rcases hLater with hLater | ⟨v, hv, hLater⟩
  · rw [hLater]
  · rw [hLater, List.filter_cons_of_neg (by simp [Visit.isBrace, hv])]

/-- The offset behind the last of some braces; the start of the source if there are none. -/
def behindLast (past : List Visit) : Nat := past.getLast?.elim 0 (·.offset + 1)

theorem behindLast_append_singleton (past : List Visit) (v : Visit) :
    behindLast (past ++ [v]) = v.offset + 1 := by
  rw [behindLast, List.getLast?_append, List.getLast?_singleton]
  rfl

theorem behindLast_le {past : List Visit} {offset : Nat} (h : ∀ v ∈ past, v.offset < offset) :
    behindLast past ≤ offset := by
  rw [behindLast]
  cases hLast : past.getLast? with
  | none => exact Nat.zero_le offset
  | some v => exact h v (List.mem_of_getLast? hLast)

/-! ## The account of a walk -/

/-- The brace `w` opens a block outside all others, and the braces `inner` that follow stand inside
it. -/
structure Opening (w : Visit) (inner : List Visit) : Prop where
  opens : w.char = ('{' : CodePoint)
  top : w.state.depth = 0
  deep : ∀ v ∈ inner, 0 < v.state.depth

theorem Opening.append {inner : List Visit} {w v : Visit} (h : Opening w inner)
    (hv : 0 < v.state.depth) : Opening w (inner ++ [v]) where
  opens := h.opens
  top := h.top
  deep := by
    intro u hu
    rcases List.mem_append.mp hu with hu | hu
    · exact h.deep u hu
    · rw [List.mem_singleton.mp hu]
      exact hv

/-- The account of a walk at `offset`, where it has read the braces `past`.  Outside every block the
prelude is what is exposed since the last brace, however the text goes on; in a block the selector
is what was exposed in front of it. -/
structure Ledger (config : Config) (source : Text) (offset : Nat) (previous : Option CodePoint)
    (past : List Visit) (s : State) : Prop where
  behind : ∀ v ∈ past, v.offset < offset
  top : s.depth = 0 → ∀ u, u <+: source.drop offset →
    exposed config.keepStrings (source.slice (behindLast past) offset ++ u)
      = s.prelude ++ exposedFrom config.keepStrings 0 s.mode previous u
  block : 0 < s.depth → ∃ (front : List Visit) (w : Visit) (inner : List Visit),
    past = front ++ w :: inner ∧ Opening w inner ∧
      s.selector = (exposed config.keepStrings (source.slice (behindLast front) w.offset)).trim

theorem slice_append_of_drop {source a rest : Text} {n offset : Nat} (hn : n ≤ offset)
    (h : source.drop offset = a ++ rest) :
    source.slice n (offset + a.length : Nat) = source.slice n offset ++ a := by
  by_cases hOffset : offset ≤ source.length
  · rw [Text.slice_natCast, Text.slice_natCast, List.take_add, h, List.take_left,
      List.drop_append_of_le_length (by rw [List.length_take]; omega)]
  · rw [List.drop_of_length_le (by omega)] at h
    obtain ⟨rfl, -⟩ := List.append_eq_nil_iff.mp h.symm
    rw [List.append_nil]
    rfl

namespace Ledger

variable {config : Config} {source : Text} {offset : Nat} {previous : Option CodePoint}
  {past : List Visit} {s s' : State}

theorem start (config : Config) (source : Text) : Ledger config source 0 none [] {} where
  behind _ hv := absurd hv List.not_mem_nil
  top _ _ _ := rfl
  block hd := absurd hd (Nat.lt_irrefl 0)

theorem behind_append (h : Ledger config source offset previous past s) (c : CodePoint)
    (rest : Text) : ∀ v ∈ past ++ [⟨offset, s, previous, c, rest⟩], v.offset < offset + 1 := by
  intro v hv
  rcases List.mem_append.mp hv with hv | hv
  · exact Nat.lt_succ_of_lt (h.behind v hv)
  · rw [List.mem_singleton.mp hv]
    exact Nat.lt_succ_self offset

theorem block_append (h : Ledger config source offset previous past s) (hd : 0 < s.depth)
    (c : CodePoint) (rest : Text) : ∃ (front : List Visit) (w : Visit) (inner : List Visit),
      past ++ [⟨offset, s, previous, c, rest⟩] = front ++ w :: inner ∧ Opening w inner ∧
        s.selector
          = (exposed config.keepStrings (source.slice (behindLast front) w.offset)).trim := by
  obtain ⟨front, w, inner, rfl, hOpening, hSelector⟩ := h.block hd
  have hAppend : Opening w (inner ++ [⟨offset, s, previous, c, rest⟩]) := hOpening.append hd
  exact ⟨front, w, _, by simp, hAppend, hSelector⟩

theorem quiet (h : Ledger config source offset previous past s) {a rest : Text}
    (ht : source.drop offset = a ++ rest) (hMove : Move config s previous a rest.head? s')
    (hQuiet : Quiet s a s') :
    Ledger config source (offset + a.length) (a.lastOr previous) past s' where
  behind v hv := Nat.lt_add_right a.length (h.behind v hv)
  top := by
    intro hd u hu
    rw [hQuiet.depth] at hd
    rw [← List.drop_drop, ht, List.drop_left] at hu
    have hWhole := h.top hd (a ++ u) (by rw [ht]; exact (List.prefix_append_right_inj a).mpr hu)
    rw [slice_append_of_drop (behindLast_le h.behind) ht, List.append_assoc, hWhole,
      hMove.exposedFrom_append hQuiet hd hu]
  block := by
    rw [hQuiet.depth, hQuiet.selector]
    exact h.block

theorem openBlock (h : Ledger config source offset previous past s) (rest : Text) :
    Ledger config source (offset + 1) (some '{')
      (past ++ [⟨offset, s, previous, '{', rest⟩]) s.openBlock where
  behind := h.behind_append '{' rest
  top hd := absurd hd (Nat.succ_ne_zero s.depth)
  block := by
    intro _
    have hSelector : s.openBlock.selector = if s.depth = 0 then s.prelude.trim else s.selector :=
      rfl
    by_cases hd : s.depth = 0
    · have hPrelude := h.top hd [] List.nil_prefix
      rw [List.append_nil, exposedFrom, List.append_nil] at hPrelude
      refine ⟨past, _, [], rfl, ⟨rfl, hd, fun v hv => absurd hv List.not_mem_nil⟩, ?_⟩
      rw [hSelector, if_pos hd, hPrelude]
    · rw [hSelector, if_neg hd]
      exact h.block_append (Nat.pos_of_ne_zero hd) '{' rest

theorem closeBlock (h : Ledger config source offset previous past s) (hm : s.mode = .normal)
    (rest : Text) : Ledger config source (offset + 1) (some '}')
      (past ++ [⟨offset, s, previous, '}', rest⟩]) s.closeBlock where
  behind := h.behind_append '}' rest
  top := by
    intro _ u _
    have hMode : s.closeBlock.mode = .normal := hm
    have hEmpty : source.slice (offset + 1 : Nat) (offset + 1 : Nat) = [] := by
      rw [Text.slice_natCast]
      exact List.drop_of_length_le (List.length_take_le _ _)
    have hSame : Quote.escaped none = Quote.escaped (some ('}' : CodePoint)) := rfl
    rw [behindLast_append_singleton, hEmpty, hMode]
    exact exposedFrom_escaped_congr config.keepStrings .normal hSame u
  block := by
    intro hd
    have hDeep : 0 < s.depth - 1 := hd
    have hSelector : s.closeBlock.selector = if s.depth = 1 then [] else s.selector := rfl
    rw [hSelector, if_neg (by omega)]
    exact h.block_append (by omega) '}' rest

/-- A candidate is met inside a block, where it does not matter what is passed over. -/
theorem inBlock (h : Ledger config source offset previous past s) (hs : s.InBlock) {offset' : Nat}
    (hLe : offset ≤ offset') (previous' : Option CodePoint) :
    Ledger config source offset' previous' past s where
  behind v hv := Nat.lt_of_lt_of_le (h.behind v hv) hLe
  top hd := absurd hd (Nat.ne_of_gt hs.deep)
  block := h.block

/-- **A move keeps the account**, with the brace that it reads if it reads one. -/
theorem move (h : Ledger config source offset previous past s) {a rest : Text}
    (ht : source.drop offset = a ++ rest) (hMove : Move config s previous a rest.head? s') :
    ∃ new : List Visit,
      Ledger config source (offset + a.length) (a.lastOr previous) (past ++ new) s' ∧
      braces config s offset previous (a ++ rest)
        = new ++ braces config s' (offset + a.length) (a.lastOr previous) rest := by
  rcases hMove.brace_or_quiet with ⟨hm, rfl, rfl⟩ | ⟨hm, rfl, rfl⟩ | hQuiet
  · exact ⟨_, h.openBlock rest, braces_brace (Or.inl rfl) hm hMove offset⟩
  · exact ⟨_, h.closeBlock hm rest, braces_brace (Or.inr rfl) hm hMove offset⟩
  · refine ⟨[], ?_, hQuiet.braces_eq hMove offset⟩
    rw [List.append_nil]
    exact h.quiet ht hMove hQuiet

end Ledger

/-! ## Whole walks -/

/-- The declaration stands in the block that is opened at one of the braces, and has the selector
that is exposed in front of it. -/
def Described (config : Config) (source : Text) (all : List Visit) (p : Nat × Declaration) : Prop :=
  ∃ (front : List Visit) (w : Visit) (inner later : List Visit),
    all = front ++ w :: (inner ++ later) ∧ Opening w inner ∧
      (∀ v ∈ front ++ w :: inner, v.offset < p.1) ∧ (∀ v ∈ later, p.1 < v.offset) ∧
      p.2.selector = selectorOf config (source.slice (behindLast front) w.offset)

/-- **A walk that starts with its account in order finds what the account says.** -/
theorem described_walk (config : Config) (source : Text) (s : State) (offset : Nat)
    (previous : Option CodePoint) (t : Text) (ht : source.drop offset = t) (past : List Visit)
    (h : Ledger config source offset previous past s) :
    ∀ p ∈ (walk config 0 s offset previous t).findings,
      Described config source (past ++ braces config s offset previous t) p := by
  revert ht past h
  refine walk_induction (motive := fun s offset previous t trace => source.drop offset = t →
    ∀ past : List Visit, Ledger config source offset previous past s → ∀ p ∈ trace.findings,
      Described config source (past ++ braces config s offset previous t) p)
    ?_ ?_ ?_ ?_ s offset previous t
  · intro s offset previous _ past _ p hp
    cases hp
  · intro s offset previous a rest s' _ hMove ih ht past h p hp
    obtain ⟨new, hLedger, hBraces⟩ := h.move ht hMove
    have hRest : source.drop (offset + a.length) = rest := by
      rw [← List.drop_drop, ht, List.drop_left]
    rw [hBraces, ← List.append_assoc]
    exact ih hRest (past ++ new) hLedger p hp
  · intro s offset previous more cause hs hRead ih ht past h p hp
    have hRest : source.drop (offset + 1) = ('-' : CodePoint) :: more := by
      rw [← List.drop_drop, ht]
      rfl
    rw [braces_abandoned hs hRead]
    exact ih hRest past (h.inBlock hs (Nat.le_succ offset) _) p hp
  · intro s offset previous d x rest hs hx ih ht past h p hp
    have hLength := d.length_head
    rw [braces_found hs d hx]
    rw [Trace.findings_after_found] at hp
    rcases List.mem_cons.mp hp with rfl | hp
    · obtain ⟨front, w, inner, rfl, hOpening, hSelector⟩ := h.block hs.deep
      refine ⟨front, w, inner, _, by rw [List.append_assoc, List.cons_append], hOpening, h.behind,
        ?_, ?_⟩
      · intro v hv
        have hLow := (visits_ascending config 0 s (offset + d.head.length + d.value.length)
          (d.value.lastOr (some ':')) (x :: rest)).1 v (List.mem_of_mem_filter hv)
        show offset < v.offset
        omega
      · rw [selectorOf, ← hSelector]
        rfl
    · have hRest : source.drop (offset + d.head.length + d.value.length) = x :: rest := by
        rw [← List.drop_drop, ← List.drop_drop, ht, List.drop_left, List.drop_left]
      have hLe : offset ≤ offset + d.head.length + d.value.length := by omega
      exact ih hRest past (h.inBlock hs hLe _) p hp

/-- A selector that is not the one for declarations without any holds characters of the source
only. -/
theorem mem_source_of_mem_selector {config : Config} {source : Text} {d : Declaration}
    (hd : d ∈ scan config source) :
    d.selector = config.fallbackSelector ∨ ∀ c ∈ d.selector, c ∈ source := by
  rw [scan, Trace.declarations_eq_map] at hd
  obtain ⟨p, hp, rfl⟩ := List.mem_map.mp hd
  obtain ⟨front, w, inner, later, -, -, -, -, hSelector⟩ :=
    described_walk config source {} 0 none source rfl [] (.start config source) p hp
  rw [hSelector, selectorOf]
  split
  · exact Or.inl rfl
  · refine Or.inr fun c hc => ?_
    have hSlice := (exposedFrom_sublist _ _ _ _ _).mem (Text.mem_of_mem_trim hc)
    exact Text.mem_of_mem_slice hSlice

def BraceAt (config : Config) (source : Text) (n : Nat) : Prop :=
  ∃ v ∈ visits config 0 {} 0 none source, v.offset = n ∧ v.state.mode = .normal ∧
    (v.char = ('{' : CodePoint) ∨ v.char = ('}' : CodePoint))

def OpensAt (config : Config) (source : Text) (n : Nat) : Prop :=
  ∃ v ∈ visits config 0 {} 0 none source, v.offset = n ∧ v.state.mode = .normal ∧
    v.char = ('{' : CodePoint) ∧ v.state.depth = 0

/-- The last brace in front of an offset stands at `a`, which is -1 if there is none. -/
def LastBrace (config : Config) (source : Text) (b : Nat) (a : Int) : Prop :=
  (a = -1 ∧ ∀ n < b, ¬ BraceAt config source n) ∨
    ∃ m : Nat, a = m ∧ IsGreatest {n | n < b ∧ BraceAt config source n} m

theorem filter_offset_lt {all front rest : List Visit} {w : Visit}
    (hOrder : all.Pairwise (·.offset < ·.offset)) (hAll : all = front ++ w :: rest) :
    all.filter (fun v => v.offset < w.offset) = front := by
  subst hAll
  obtain ⟨-, hLater, hCross⟩ := List.pairwise_append.mp hOrder
  have hFront : front.filter (fun v => v.offset < w.offset) = front :=
    List.filter_eq_self.mpr fun v hv => decide_eq_true (hCross v hv w List.mem_cons_self)
  have hRest : (w :: rest).filter (fun v => v.offset < w.offset) = [] := by
    rw [List.filter_eq_nil_iff]
    intro v hv
    rcases List.mem_cons.mp hv with rfl | hv
    · simp
    · have := (List.pairwise_cons.mp hLater).1 v hv
      simp only [decide_eq_true_eq]
      omega
  rw [List.filter_append, hFront, hRest, List.append_nil]

theorem braces_ascending (config : Config) (source : Text) :
    (braces config {} 0 none source).Pairwise (·.offset < ·.offset) :=
  (visits_ascending config 0 {} 0 none source).2.filter _

theorem braceAt_iff {config : Config} {source : Text} {n : Nat} : BraceAt config source n
    ↔ ∃ v ∈ braces config {} 0 none source, v.offset = n := by
  constructor
  · rintro ⟨v, hv, hn, hBrace⟩
    exact ⟨v, List.mem_filter.mpr ⟨hv, Visit.isBrace_iff.mpr hBrace⟩, hn⟩
  · rintro ⟨v, hv, hn⟩
    obtain ⟨hv, hBrace⟩ := List.mem_filter.mp hv
    exact ⟨v, hv, hn, Visit.isBrace_iff.mp hBrace⟩

theorem lastBrace_of_eq {config : Config} {source : Text} {front rest : List Visit} {w : Visit}
    (hAll : braces config {} 0 none source = front ++ w :: rest) :
    LastBrace config source w.offset (behindLast front - 1) := by
  have hOrder := braces_ascending config source
  have hFront := filter_offset_lt hOrder hAll
  -- A brace in front of `w` is one of `front`, whose last one has the greatest offset.
  have hMem : ∀ n, n < w.offset ∧ BraceAt config source n ↔ ∃ v ∈ front, v.offset = n := by
    intro n
    rw [braceAt_iff, ← hFront]
    constructor
    · rintro ⟨hn, v, hv, rfl⟩
      exact ⟨v, List.mem_filter.mpr ⟨hv, decide_eq_true hn⟩, rfl⟩
    · rintro ⟨v, hv, rfl⟩
      obtain ⟨hv, hn⟩ := List.mem_filter.mp hv
      exact ⟨of_decide_eq_true hn, v, hv, rfl⟩
  rcases List.eq_nil_or_concat front with rfl | ⟨init, z, rfl⟩
  · refine Or.inl ⟨rfl, ?_⟩
    intro n hn hBrace
    obtain ⟨v, hv, -⟩ := (hMem n).mp ⟨hn, hBrace⟩
    cases hv
  · refine Or.inr ⟨z.offset, ?_, (hMem z.offset).mpr ⟨z, by simp, rfl⟩, ?_⟩
    · rw [List.concat_eq_append, behindLast_append_singleton]
      omega
    · intro n hn
      obtain ⟨v, hv, rfl⟩ := (hMem n).mp hn
      rw [List.concat_eq_append] at hv hAll
      rcases List.mem_append.mp hv with hv | hv
      · rw [hAll, List.append_assoc] at hOrder
        have := (List.pairwise_append.mp hOrder).2.2 v hv z (by simp)
        omega
      · rw [List.mem_singleton.mp hv]

/-- A block that no brace of depth 0 has followed is the last one opened outside all others. -/
theorem Opening.isGreatest {config : Config} {source : Text} {front inner later : List Visit}
    {w : Visit} {c : Nat} (h : Opening w inner)
    (hAll : braces config {} 0 none source = front ++ w :: (inner ++ later))
    (hBefore : ∀ v ∈ front ++ w :: inner, v.offset < c) (hLater : ∀ v ∈ later, c < v.offset) :
    IsGreatest {n | n < c ∧ OpensAt config source n} w.offset := by
  have hOrder := braces_ascending config source
  constructor
  · have hw : w ∈ braces config {} 0 none source := by
      rw [hAll]
      simp
    obtain ⟨hw, hBrace⟩ := List.mem_filter.mp hw
    exact ⟨hBefore w (by simp), w, hw, rfl, (Visit.isBrace_iff.mp hBrace).1, h.opens, h.top⟩
  · rintro n ⟨hn, v, hv, rfl, hm, hChar, hd⟩
    have hBrace : v ∈ braces config {} 0 none source :=
      List.mem_filter.mpr ⟨hv, Visit.isBrace_iff.mpr ⟨hm, Or.inl hChar⟩⟩
    rw [hAll] at hBrace hOrder
    rcases List.mem_append.mp hBrace with hFront | hBrace
    · exact Nat.le_of_lt ((List.pairwise_append.mp hOrder).2.2 v hFront w List.mem_cons_self)
    rcases List.mem_cons.mp hBrace with rfl | hBrace
    · exact Nat.le_refl _
    rcases List.mem_append.mp hBrace with hInner | hBrace
    · have := h.deep v hInner
      omega
    · have := hLater v hBrace
      omega

/-- **A selector is what is exposed of the source between two braces**: the last one in front of the
declaration that opens a block outside all others, and the one before that.  If there are no quotes
and no comments between the two, that is the text between them.  The selector stays the same until
the block is closed. -/
theorem selector_eq_exposed (config : Config) (source : Text) :
    scan config source = (trace config source).findings.map Prod.snd ∧
    ∀ p ∈ (trace config source).findings, ∃ (a : Int) (b : Nat),
      IsGreatest {n | n < p.1 ∧ OpensAt config source n} b ∧ LastBrace config source b a ∧
      p.2.selector = selectorOf config (source.slice (a + 1) b) ∧
      ((∀ q : Quote, q.char ∉ source.slice (a + 1) b) → ¬ commentOpen <:+: source.slice (a + 1) b →
        p.2.selector = if (source.slice (a + 1) b).trim.isEmpty then config.fallbackSelector
          else (source.slice (a + 1) b).trim) ∧
      ∀ q ∈ (trace config source).findings, b < q.1 →
        (∀ v ∈ visits config 0 {} 0 none source, b < v.offset → v.offset < q.1 →
          0 < v.state.depth) →
        q.2.selector = p.2.selector := by
  have hDescribed : ∀ p ∈ (trace config source).findings,
      Described config source (braces config {} 0 none source) p :=
    described_walk config source {} 0 none source rfl [] (.start config source)
  refine ⟨Trace.declarations_eq_map _, ?_⟩
  intro p hp
  obtain ⟨front, w, inner, later, hAll, hOpening, hBefore, hLater, hSelector⟩ := hDescribed p hp
  have hSlice : ((behindLast front : Int) - 1) + 1 = behindLast front := by omega
  refine ⟨behindLast front - 1, w.offset, hOpening.isGreatest hAll hBefore hLater,
    lastBrace_of_eq hAll, ?_⟩
  rw [hSlice]
  refine ⟨hSelector, ?_, ?_⟩
  · intro hQuotes hComment
    rw [hSelector, selectorOf, exposed_of_plain config.keepStrings hQuotes hComment]
  · intro q hq hFollows hDeep
    obtain ⟨front', w', inner', later', hAll', hOpening', hBefore', hLater', hSelector'⟩ :=
      hDescribed q hq
    -- The block of `q` is opened at `w` too, since the walk has not been outside every block since.
    obtain ⟨⟨hLess, v, hv, hOffset, -, -, hTop⟩, hGreatest⟩ :=
      hOpening'.isGreatest hAll' hBefore' hLater'
    have hw : w.offset ≤ w'.offset :=
      hGreatest ⟨hFollows, (hOpening.isGreatest hAll hBefore hLater).1.2⟩
    have hSame : w'.offset = w.offset := by
      by_contra hNe
      have := hDeep v hv (by omega) (by omega)
      omega
    have hFront : front' = front := by
      have hOrder := braces_ascending config source
      rw [← filter_offset_lt hOrder hAll, ← filter_offset_lt hOrder hAll', hSame]
    rw [hSelector, hSelector', hFront, hSame]

/-- A stray closing brace, then braces in a comment and in a string in front of the block, and a
declaration one block further in. -/
theorem selector_eq_exposed_nested :
    (14, ⟨"14-18", "--x", "1", 18, 19, "ab"⟩) ∈
      (trace {} "\x7da/*\x7b*/'\x7b'b\x7bc\x7b--x:1;\x7d--y:2\x7d").findings ∧
    selectorOf {} (Text.slice "\x7da/*\x7b*/'\x7b'b\x7bc\x7b--x:1;\x7d--y:2\x7d" 1 11) = "ab" ∧
    ∃ (a : Int) (b : Nat),
      IsGreatest {n | n < 14 ∧ OpensAt {} "\x7da/*\x7b*/'\x7b'b\x7bc\x7b--x:1;\x7d--y:2\x7d" n} b ∧
      LastBrace {} "\x7da/*\x7b*/'\x7b'b\x7bc\x7b--x:1;\x7d--y:2\x7d" b a ∧
      Text.ofString "ab" = selectorOf {}
        (Text.slice "\x7da/*\x7b*/'\x7b'b\x7bc\x7b--x:1;\x7d--y:2\x7d" (a + 1) b) := by
  have hFinding : (14, ⟨"14-18", "--x", "1", 18, 19, "ab"⟩) ∈
      (trace {} "\x7da/*\x7b*/'\x7b'b\x7bc\x7b--x:1;\x7d--y:2\x7d").findings := by decide +kernel
  obtain ⟨a, b, hOpens, hLast, hSelector, -⟩ := (selector_eq_exposed {} _).2 _ hFinding
  exact ⟨hFinding, by decide +kernel, a, b, hOpens, hLast, hSelector⟩

end CustomProperties.Scan
