import CustomProperties.Proofs.Span
import Mathlib.Data.Nat.Find
import Mathlib.Order.Bounds.Defs

/-!
# A value ends at the first terminator at which nothing is open

What is open at an offset of a source is a quote, a number of parentheses and a comment
(`Lexical`).  It is read off the source one offset after the other, and a comment is left where
its closing mark ends.  The search for a value's end keeps other books: it sees a mark at its first
character already and then has one more character to pass.  `Follows` says how the two go together,
`Follows.advance` that one character keeps it, and so the search stops where the source says.

* `valueEnd_comment`: passing a comment is a jump behind its closing mark.
* `EndsAt`: a terminator stands at an offset, and nothing is open there.
* `valueEnd_eq_some_iff`: the search finds the first such place.
* `valueEndAt_isLeast`: **the end of a value is the least such offset, if there is one**, and so for
  the value of every declaration found.
-/

namespace CustomProperties.Scan

/-! ## What is open at an offset -/

/-- What is open at an offset, for a value that is read up to there. -/
structure Lexical where
  quote : Option Quote := none
  /-- Opening less closing parentheses. -/
  depth : Int := 0
  /-- The offset at which the comment starts that is not left yet. -/
  comment : Option Nat := none
deriving DecidableEq

def escapedAt (source : Text) : (i : Nat) → Bool
  | 0 => false
  | i + 1 => source[i]? = some ('\\' : CodePoint)

namespace Lexical

structure Clear (s : Lexical) : Prop where
  quote : s.quote = none
  depth : s.depth = 0
  comment : s.comment = none

/-- A character outside comments.  A quote opens a string where none is open and closes one that
it opened, unless it is escaped; outside strings the parentheses count. -/
def readChar (s : Lexical) (escaped : Bool) (c : CodePoint) : Lexical :=
  match Quote.ofChar? c, s.quote with
  | some q, none => if escaped then s else { s with quote := some q }
  | some q, some p => if p = q ∧ escaped = false then { s with quote := none } else s
  | none, some _ => s
  | none, none =>
    if c = '(' then { s with depth := s.depth + 1 }
    else if c = ')' then { s with depth := s.depth - 1 }
    else s

/-- What is open behind the character at offset `i`.  A comment is left behind its closing mark,
whose star cannot be the one of the opening mark. -/
def read (skipComments : Bool) (source : Text) (s : Lexical) (i : Nat) : Lexical :=
  match s.comment with
  | some p =>
    if p + 3 ≤ i ∧ source[i - 1]? = some ('*' : CodePoint) ∧
        source[i]? = some ('/' : CodePoint) then
      { s with comment := none }
    else s
  | none =>
    if skipComments = true ∧ s.quote = none ∧ source[i]? = some ('/' : CodePoint) ∧
        source[i + 1]? = some ('*' : CodePoint) then
      { s with comment := some i }
    else source[i]?.elim s (s.readChar (escapedAt source i))

def readFrom (skipComments : Bool) (source : Text) : Lexical → (i n : Nat) → Lexical
  | s, _, 0 => s
  | s, i, n + 1 => readFrom skipComments source (s.read skipComments source i) (i + 1) n

end Lexical

/-- What is open at offset `e`, for a value that starts at `start`. -/
def lexicalAt (skipComments : Bool) (source : Text) (start e : Nat) : Lexical :=
  Lexical.readFrom skipComments source {} start (e - start)

/-- A terminator stands at offset `e`, and nothing is open there for a value that starts at
`start`. -/
structure EndsAt (skipComments : Bool) (source : Text) (start e : Nat) : Prop where
  start_le : start ≤ e
  terminator : source[e]? = some (';' : CodePoint) ∨ source[e]? = some ('}' : CodePoint)
  clear : (lexicalAt skipComments source start e).Clear

def valueEndAt (skipComments : Bool) (source : Text) (start : Nat) : Option Nat :=
  (valueEnd skipComments {} (source.take start).getLast? (source.drop start)).map (start + ·)

/-! ## Comments -/

/-- In a comment nothing but its closing mark matters. -/
theorem valueEnd_inside (d : Int) (previous : Option CodePoint) (t : Text) :
    valueEnd true ⟨none, d, true, 0⟩ previous t =
      if Text.occursIn "*/" t then
        (valueEnd true ⟨none, d, false, 0⟩ (some '/') (t.drop (t.indexOf "*/" + 2))).map
          (· + (t.indexOf "*/" + 2))
      else none := by
  have hMark : ("*/" : Text) = [('*' : CodePoint), '/'] := rfl
  rw [hMark]
  induction t generalizing previous with
  | nil => rfl
  | cons c t ih =>
    rw [valueEnd, if_neg (by simp [ValueState.isClear]), Text.occursIn, Text.indexOf]
    by_cases hClose : c = '*' ∧ t.head? = some ('/' : CodePoint)
    · obtain ⟨rfl, hHead⟩ := hClose
      obtain ⟨rest, rfl⟩ := List.head?_eq_some_iff.mp hHead
      have hPrefix : [('*' : CodePoint), '/'].isPrefixOf ('*' :: '/' :: rest) = true := rfl
      rw [hPrefix, Bool.true_or, if_pos rfl, if_pos rfl]
      -- The star ends the comment, and the slash is the rest of the mark.
      have hStar : ValueState.advance true ⟨none, d, true, 0⟩ previous '*' (some ('/' : CodePoint))
          = ⟨none, d, false, 1⟩ := by simp [ValueState.advance]
      have hSlash : ValueState.advance true ⟨none, d, false, 1⟩ (some ('*' : CodePoint)) '/'
          rest.head? = ⟨none, d, false, 0⟩ := rfl
      rw [List.head?_cons, hStar, valueEnd, if_neg (by simp [ValueState.isClear]), hSlash,
        Option.map_map]
      rfl
    · have hPrefix : [('*' : CodePoint), '/'].isPrefixOf (c :: t) = false := by
        rw [Bool.eq_false_iff]
        intro hPrefix
        obtain ⟨rest, hRest⟩ := List.isPrefixOf_iff_prefix.mp hPrefix
        cases hRest
        exact hClose ⟨rfl, rfl⟩
      have hInside : ValueState.advance true ⟨none, d, true, 0⟩ previous c t.head?
          = ⟨none, d, true, 0⟩ := by
        rw [ValueState.advance, if_neg (Nat.lt_irrefl 0), if_pos rfl, if_neg hClose]
      rw [hPrefix, Bool.false_or, if_neg Bool.false_ne_true, hInside, ih]
      split
      · rw [Option.map_map, Nat.add_right_comm, List.drop_succ_cons]
        rfl
      · rfl

/-- **Passing a comment is a jump behind the next closing mark**; without one the value has no
end. -/
theorem valueEnd_comment (d : Int) (previous : Option CodePoint) (t : Text) :
    valueEnd true ⟨none, d, false, 0⟩ previous (('/' : CodePoint) :: '*' :: t) =
      if Text.occursIn "*/" t then
        (valueEnd true ⟨none, d, false, 0⟩ (some '/') (t.drop (t.indexOf "*/" + 2))).map
          (· + (t.indexOf "*/" + 4))
      else none := by
  have hOpen : ValueState.advance true ⟨none, d, false, 0⟩ previous '/' (some ('*' : CodePoint))
      = ⟨none, d, true, 1⟩ := by
    simp [ValueState.advance, Quote.after, Quote.ofChar?]
  have hStar : ValueState.advance true ⟨none, d, true, 1⟩ (some ('/' : CodePoint)) '*' t.head?
      = ⟨none, d, true, 0⟩ := rfl
  rw [valueEnd, if_neg (by simp [isTerminator]), List.head?_cons, hOpen, valueEnd,
    if_neg (by simp [ValueState.isClear]), hStar, valueEnd_inside]
  split
  · rw [Option.map_map, Option.map_map]
    rfl
  · rfl

/-! ## One character -/

theorem escaped_getLast?_take {source : Text} {i : Nat} (hi : i < source.length) :
    Quote.escaped (source.take i).getLast? = escapedAt source i := by
  cases i with
  | zero => rfl
  | succ i =>
    have hi : i < source.length := Nat.lt_of_succ_lt hi
    rw [List.take_add_one, List.getElem?_eq_getElem hi, Option.toList_some, List.getLast?_append,
      List.getLast?_singleton, Option.some_or, escapedAt, List.getElem?_eq_getElem hi,
      Quote.escaped]

theorem Lexical.readChar_quote (q : Option Quote) (d : Int) (previous : Option CodePoint)
    (p : Quote) : readChar ⟨q, d, none⟩ (Quote.escaped previous) p.char
      = ⟨Quote.after q previous p.char, d, none⟩ := by
  cases hEscaped : Quote.escaped previous with
  | true => cases q <;> simp [readChar, Quote.ofChar?_char, Quote.after, hEscaped]
  | false =>
    cases q with
    | none => simp [readChar, Quote.ofChar?_char, Quote.after, hEscaped]
    | some r =>
      by_cases hSame : r = p
      · simp [readChar, Quote.ofChar?_char, Quote.after, hEscaped, hSame]
      · simp [readChar, Quote.ofChar?_char, Quote.after, hEscaped, hSame, Ne.symm hSame]

theorem Lexical.read_comment (skipComments : Bool) (source : Text) (q : Option Quote) (d : Int)
    (p i : Nat) : read skipComments source ⟨q, d, some p⟩ i =
      if p + 3 ≤ i ∧ source[i - 1]? = some ('*' : CodePoint) ∧
          source[i]? = some ('/' : CodePoint) then ⟨q, d, none⟩
      else ⟨q, d, some p⟩ := rfl

theorem ValueState.advance_quote (skipComments : Bool) (q : Option Quote) (d : Int)
    (previous : Option CodePoint) (p : Quote) (next : Option CodePoint) :
    advance skipComments ⟨q, d, false, 0⟩ previous p.char next
      = ⟨Quote.after q previous p.char, d, false, 0⟩ := by
  have hSlash : p.char ≠ ('/' : CodePoint) := by cases p <;> decide
  have hOpen : p.char ≠ ('(' : CodePoint) := by cases p <;> decide
  have hClose : p.char ≠ (')' : CodePoint) := by cases p <;> decide
  cases h : Quote.after q previous p.char with
  | none => simp [advance, h, hSlash, hOpen, hClose]
  | some r => simp [advance, h]

/-- How the state of the search at offset `i` goes together with what is open there.  The two
characters of a mark are where they differ. -/
inductive Follows (source : Text) (i : Nat) : ValueState → Lexical → Prop
  | outside (q : Option Quote) (d : Int) : Follows source i ⟨q, d, false, 0⟩ ⟨q, d, none⟩
  | opening (d : Int) {p : Nat} : i = p + 1 → Follows source i ⟨none, d, true, 1⟩ ⟨none, d, some p⟩
  | inside (d : Int) {p : Nat} : p + 2 ≤ i →
      ¬ (p + 3 ≤ i ∧ source[i - 1]? = some ('*' : CodePoint) ∧
        source[i]? = some ('/' : CodePoint)) →
      Follows source i ⟨none, d, true, 0⟩ ⟨none, d, some p⟩
  | closing (d : Int) {p : Nat} : p + 3 ≤ i → source[i - 1]? = some ('*' : CodePoint) →
      source[i]? = some ('/' : CodePoint) →
      Follows source i ⟨none, d, false, 1⟩ ⟨none, d, some p⟩

namespace Follows

variable {skipComments : Bool} {source : Text} {i : Nat} {v : ValueState} {s : Lexical}

theorem isClear_iff (h : Follows source i v s) : v.isClear = true ↔ s.Clear := by
  have hClear : s.Clear ↔ s.quote = none ∧ s.depth = 0 ∧ s.comment = none :=
    ⟨fun hs => ⟨hs.quote, hs.depth, hs.comment⟩, fun hs => ⟨hs.1, hs.2.1, hs.2.2⟩⟩
  rw [hClear]
  cases h with
  | outside q d => simp [ValueState.isClear]
  | opening d _ => simp [ValueState.isClear]
  | inside d _ _ => simp [ValueState.isClear]
  | closing d _ _ _ => simp [ValueState.isClear]

theorem advance_outside (q : Option Quote) (d : Int) {c : CodePoint} (hc : source[i]? = some c) :
    Follows source (i + 1)
      (ValueState.advance skipComments ⟨q, d, false, 0⟩ (source.take i).getLast? c source[i + 1]?)
      (Lexical.read skipComments source ⟨q, d, none⟩ i) := by
  have hEscaped := escaped_getLast?_take (List.getElem?_eq_some_iff.mp hc).1
  have hRead : Lexical.read skipComments source ⟨q, d, none⟩ i =
      if skipComments = true ∧ q = none ∧ c = ('/' : CodePoint) ∧
          source[i + 1]? = some ('*' : CodePoint) then
        ⟨q, d, some i⟩
      else Lexical.readChar ⟨q, d, none⟩ (Quote.escaped (source.take i).getLast?) c := by
    rw [hEscaped]
    simp only [Lexical.read, hc, Option.some.injEq, Option.elim_some]
  rw [hRead]
  cases hQuote : Quote.ofChar? c with
  | some p =>
    obtain rfl := Quote.eq_char_of_ofChar? hQuote
    have hSlash : p.char ≠ ('/' : CodePoint) := by cases p <;> decide
    rw [if_neg (by simp [hSlash]), Lexical.readChar_quote, ValueState.advance_quote]
    exact .outside _ d
  | none =>
    have hAfter : Quote.after q (source.take i).getLast? c = q :=
      Quote.after_of_ofChar?_eq_none hQuote
    cases q with
    | some p =>
      rw [if_neg (by simp), Lexical.readChar, hQuote, ValueState.advance]
      simp only [Nat.lt_irrefl, if_false, Bool.false_eq_true, hAfter]
      exact .outside (some p) d
    | none =>
      rw [Lexical.readChar, hQuote, ValueState.advance]
      simp only [Nat.lt_irrefl, if_false, Bool.false_eq_true, hAfter, true_and]
      split
      · exact .opening d rfl
      · split
        · exact .outside none (d + 1)
        · split
          · exact .outside none (d - 1)
          · exact .outside none d

/-- **One character keeps the two states together.** -/
theorem advance (h : Follows source i v s) {c : CodePoint} (hc : source[i]? = some c) :
    Follows source (i + 1)
      (v.advance skipComments (source.take i).getLast? c source[i + 1]?)
      (s.read skipComments source i) := by
  cases h with
  | outside q d => exact advance_outside q d hc
  | @opening d p hp =>
    subst hp
    rw [Lexical.read_comment, if_neg (by omega)]
    exact .inside d (Nat.le_refl _) (by omega)
  | @inside d p hp hOpen =>
    rw [Lexical.read_comment, if_neg hOpen]
    by_cases hMark : c = ('*' : CodePoint) ∧ source[i + 1]? = some ('/' : CodePoint)
    · have hAdvance : ValueState.advance skipComments ⟨none, d, true, 0⟩
          (source.take i).getLast? c source[i + 1]? = ⟨none, d, false, 1⟩ := by
        simp [ValueState.advance, hMark]
      rw [hAdvance]
      refine .closing d (by omega) ?_ hMark.2
      rw [Nat.add_sub_cancel, hc, hMark.1]
    · have hAdvance : ValueState.advance skipComments ⟨none, d, true, 0⟩
          (source.take i).getLast? c source[i + 1]? = ⟨none, d, true, 0⟩ := by
        simp [ValueState.advance, hMark]
      rw [hAdvance]
      refine .inside d (by omega) ?_
      rintro ⟨-, hStar, hSlash⟩
      rw [Nat.add_sub_cancel, hc] at hStar
      exact hMark ⟨Option.some.inj hStar, hSlash⟩
  | @closing d p hp hStar hSlash =>
    rw [Lexical.read_comment, if_pos ⟨hp, hStar, hSlash⟩]
    exact .outside none d

end Follows

/-! ## The whole search -/

def Stops (skipComments : Bool) (source : Text) (s : Lexical) (i n : Nat) : Prop :=
  (∃ x : CodePoint, source[i + n]? = some x ∧ isTerminator x = true) ∧
    (s.readFrom skipComments source i n).Clear

theorem stops_succ_iff {skipComments : Bool} {source : Text} {s : Lexical} {i n : Nat} :
    Stops skipComments source s i (n + 1)
      ↔ Stops skipComments source (s.read skipComments source i) (i + 1) n := by
  rw [Stops, Stops, Lexical.readFrom, Nat.add_right_comm i 1 n, Nat.add_assoc]

/-- **The search finds the first place where the source stops it.** -/
theorem valueEnd_eq_some_iff {skipComments : Bool} {source : Text} {i : Nat} {v : ValueState}
    {s : Lexical} (h : Follows source i v s) {n : Nat} :
    valueEnd skipComments v (source.take i).getLast? (source.drop i) = some n
      ↔ Stops skipComments source s i n ∧ ∀ m < n, ¬ Stops skipComments source s i m := by
  -- The induction is on the text that is left; what is in front of it is the offset.
  induction ht : source.drop i generalizing i v s n with
  | nil =>
    have hEnd : source.length ≤ i := List.drop_eq_nil_iff.mp ht
    rw [valueEnd]
    refine ⟨fun hn => (by cases hn), ?_⟩
    rintro ⟨⟨⟨x, hx, -⟩, -⟩, -⟩
    have := (List.getElem?_eq_some_iff.mp hx).1
    omega
  | cons c rest ih =>
    have hc : source[i]? = some c := by rw [← List.head?_drop, ht, List.head?_cons]
    have hRest : source.drop (i + 1) = rest := by
      rw [← List.drop_drop, ht, List.drop_one, List.tail_cons]
    have hNext : rest.head? = source[i + 1]? := by rw [← hRest, List.head?_drop]
    have hLast : some c = (source.take (i + 1)).getLast? := by
      rw [List.take_add_one, hc, Option.toList_some, List.getLast?_append, List.getLast?_singleton,
        Option.some_or]
    have hHere : Stops skipComments source s i 0 ↔ v.isClear = true ∧ isTerminator c = true := by
      rw [Stops, Nat.add_zero, hc, Lexical.readFrom, h.isClear_iff, and_comm]
      simp
    rw [valueEnd, hNext, hLast]
    by_cases hStop : Stops skipComments source s i 0
    · rw [if_pos (hHere.mp hStop)]
      constructor
      · intro hn
        cases hn
        exact ⟨hStop, fun m hm => absurd hm (Nat.not_lt_zero m)⟩
      · rintro ⟨-, hFirst⟩
        cases n with
        | zero => rfl
        | succ n => exact absurd hStop (hFirst 0 (Nat.succ_pos n))
    · rw [if_neg fun hs => hStop (hHere.mpr hs), Option.map_eq_some_iff]
      constructor
      · rintro ⟨m, hm, rfl⟩
        obtain ⟨hStops, hFirst⟩ := (ih (h.advance hc) hRest).mp hm
        refine ⟨stops_succ_iff.mpr hStops, fun k hk => ?_⟩
        cases k with
        | zero => exact hStop
        | succ k => exact fun hs => hFirst k (by omega) (stops_succ_iff.mp hs)
      · rintro ⟨hStops, hFirst⟩
        cases n with
        | zero => exact absurd hStops hStop
        | succ n =>
          refine ⟨n, (ih (h.advance hc) hRest).mpr ⟨stops_succ_iff.mp hStops, fun k hk => ?_⟩, rfl⟩
          exact fun hs => hFirst (k + 1) (by omega) (stops_succ_iff.mpr hs)

theorem endsAt_iff {skipComments : Bool} {source : Text} {start e : Nat} :
    EndsAt skipComments source start e
      ↔ ∃ n, e = start + n ∧ Stops skipComments source {} start n := by
  have hTerminator : (source[e]? = some (';' : CodePoint) ∨ source[e]? = some ('}' : CodePoint))
      ↔ ∃ x : CodePoint, source[e]? = some x ∧ isTerminator x = true := by
    cases source[e]? with
    | none => simp
    | some x => simp [isTerminator_iff]
  constructor
  · rintro ⟨hLe, hx, hClear⟩
    obtain ⟨n, rfl⟩ := Nat.exists_eq_add_of_le hLe
    rw [lexicalAt, Nat.add_sub_cancel_left] at hClear
    exact ⟨n, rfl, hTerminator.mp hx, hClear⟩
  · rintro ⟨n, rfl, hx, hClear⟩
    refine ⟨Nat.le_add_right start n, hTerminator.mpr hx, ?_⟩
    rw [lexicalAt, Nat.add_sub_cancel_left]
    exact hClear

theorem valueEndAt_eq_some_iff {skipComments : Bool} {source : Text} {start e : Nat} :
    valueEndAt skipComments source start = some e
      ↔ IsLeast {i | EndsAt skipComments source start i} e := by
  have hSearch : ∀ n, valueEnd skipComments {} (source.take start).getLast? (source.drop start)
        = some n ↔ Stops skipComments source {} start n ∧
          ∀ m < n, ¬ Stops skipComments source {} start m :=
    fun n => valueEnd_eq_some_iff (.outside none 0)
  rw [valueEndAt, Option.map_eq_some_iff]
  constructor
  · rintro ⟨n, hn, rfl⟩
    obtain ⟨hStops, hFirst⟩ := (hSearch n).mp hn
    refine ⟨endsAt_iff.mpr ⟨n, rfl, hStops⟩, fun i hi => ?_⟩
    obtain ⟨m, rfl, hm⟩ := endsAt_iff.mp hi
    by_contra hLess
    exact hFirst m (by omega) hm
  · rintro ⟨hEnds, hLeast⟩
    obtain ⟨n, rfl, hStops⟩ := endsAt_iff.mp hEnds
    refine ⟨n, (hSearch n).mpr ⟨hStops, fun m hm hs => ?_⟩, rfl⟩
    have := hLeast (endsAt_iff.mpr ⟨m, rfl, hs⟩)
    omega

theorem valueEndAt_eq_none_iff {skipComments : Bool} {source : Text} {start : Nat} :
    valueEndAt skipComments source start = none ↔ ∀ i, ¬ EndsAt skipComments source start i := by
  classical
  constructor
  · intro hNone i hi
    have hLeast : IsLeast {i | EndsAt skipComments source start i} (Nat.find ⟨i, hi⟩) :=
      ⟨Nat.find_spec ⟨i, hi⟩, fun j hj => Nat.find_min' _ hj⟩
    rw [valueEndAt_eq_some_iff.mpr hLeast] at hNone
    cases hNone
  · intro hNowhere
    rw [Option.eq_none_iff_forall_ne_some]
    intro e he
    exact hNowhere e (valueEndAt_eq_some_iff.mp he).1

/-! ## The values of a walk -/

/-- **Whatever a walk finds is spelled in the text**, with its first hyphen at the offset of the
candidate. -/
theorem exists_spelling_of_mem_findings {config : Config} {s : State} {offset : Nat}
    {previous : Option CodePoint} {t before : Text} (hBefore : before.length = offset)
    {p : Nat × Declaration} (hp : p ∈ (walk config 0 s offset previous t).findings) :
    ∃ (d : Spelling config) (selector front : Text) (x : CodePoint) (rest : Text),
      isTerminator x = true ∧ before ++ t = front ++ (d.head ++ (d.value ++ x :: rest)) ∧
        p = (front.length, d.declaration selector front.length) := by
  revert hp
  refine walk_induction (motive := fun _ offset _ t trace => ∀ before : Text,
    before.length = offset → p ∈ trace.findings →
    ∃ (d : Spelling config) (selector front : Text) (x : CodePoint) (rest : Text),
      isTerminator x = true ∧ before ++ t = front ++ (d.head ++ (d.value ++ x :: rest)) ∧
        p = (front.length, d.declaration selector front.length)) ?_ ?_ ?_ ?_ s offset previous t
    before hBefore
  · intro s offset previous before _ hp
    cases hp
  · intro s offset previous a rest s' _ _ ih before hBefore hp
    rw [← List.append_assoc]
    exact ih (before ++ a) (by rw [List.length_append, hBefore]) hp
  · intro s offset previous more cause _ _ ih before hBefore hp
    rw [← List.singleton_append, ← List.append_assoc]
    exact ih (before ++ [('-' : CodePoint)]) (by simp [hBefore]) hp
  · intro s offset previous d x rest _ hx ih before hBefore hp
    subst hBefore
    rw [Trace.findings_after_found, State.declare_reading] at hp
    rcases List.mem_cons.mp hp with rfl | hp
    · exact ⟨d, _, before, x, rest, hx, rfl, rfl⟩
    · rw [← List.append_assoc, ← List.append_assoc]
      exact ih (before ++ d.head ++ d.value) (by simp [Nat.add_assoc]) hp

theorem Spelling.valueEndAt_eq {config : Config} (d : Spelling config) {x : CodePoint}
    (hx : isTerminator x = true) (before rest : Text) :
    valueEndAt config.skipComments (before ++ (d.head ++ (d.value ++ x :: rest)))
        (before.length + d.head.length)
      = some (before.length + d.head.length + d.value.length) := by
  have hColon : (before ++ d.head).getLast? = some (':' : CodePoint) := by
    rw [Spelling.head, ← List.append_assoc, List.getLast?_append, List.getLast?_singleton,
      Option.some_or]
  rw [valueEndAt, ← List.length_append, ← List.append_assoc, List.take_left, List.drop_left,
    hColon, d.value_closed.valueEnd_eq hx, Option.map_some]

/-- **A value ends at the first terminator at which nothing is open.**  The search for its end
gives the least such offset, and gives none where there is no such offset.  So at the end of the
value of every declaration found, by a walk from any state, its quotes are closed, its parentheses
are level, and it could not have ended any earlier. -/
theorem valueEndAt_isLeast (config : Config) (source : Text) :
    (∀ start e : Nat, valueEndAt config.skipComments source start = some e
      ↔ IsLeast {i | EndsAt config.skipComments source start i} e) ∧
    (∀ start : Nat, valueEndAt config.skipComments source start = none
      ↔ ∀ i, ¬ EndsAt config.skipComments source start i) ∧
    ∀ s : State, ∀ d ∈ (walkFrom config s source).declarations, ∃ start stop : Nat,
      d.start = start ∧ d.stop = stop ∧ d.value = source.slice start stop ∧
        valueEndAt config.skipComments source start = some stop ∧
        (lexicalAt config.skipComments source start stop).Clear ∧
        ∀ i, start ≤ i → i < stop → ¬ EndsAt config.skipComments source start i := by
  refine ⟨fun start e => valueEndAt_eq_some_iff, fun start => valueEndAt_eq_none_iff, ?_⟩
  intro s d hd
  rw [Trace.declarations_eq_map] at hd
  obtain ⟨p, hp, rfl⟩ := List.mem_map.mp hd
  have hValue := ((wellPlaced_walkFrom config s source).placed p hp).value_eq
  obtain ⟨d, selector, front, x, rest, hx, hSource, rfl⟩ :=
    exists_spelling_of_mem_findings List.length_nil hp
  rw [List.nil_append] at hSource
  subst hSource
  have hEnd := d.valueEndAt_eq hx front rest
  obtain ⟨hEnds, hLeast⟩ := valueEndAt_eq_some_iff.mp hEnd
  refine ⟨_, _, rfl, rfl, hValue.symm, hEnd, hEnds.clear, fun i _ hLess hi => ?_⟩
  exact absurd (hLeast hi) (Nat.not_le.mpr hLess)

/-- Parentheses that close before they open, and a terminator in a comment. -/
example : lexicalAt true ":);/*;*/(;" 1 5 = ⟨none, -1, some 3⟩ ∧
    valueEndAt true ":);/*;*/(;" 1 = some 9 := by
  decide

end CustomProperties.Scan
