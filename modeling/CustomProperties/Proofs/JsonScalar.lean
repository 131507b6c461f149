import CustomProperties.Json.Reader
import CustomProperties.Proofs.Numeral

/-!
# Strings and integers read back

A written string is read character by character.  The reader keeps apart what stood there as itself
and what stood there as the escape of a number (`written`), so that it can put the two escapes of a
code point past U+FFFF together again.  What it cannot see is whether two such escapes were one code
point or two surrogates that stood next to each other; the text that it gives has every such pair
joined (`Text.joinSurrogates`), and is otherwise the text that was written.

* `readString_writeString`: **a written string reads as itself with its surrogate pairs joined.**
* `Text.joinSurrogates_eq_self_iff`: these are the texts without a pair.
* `readScalar_ofInt`: a written integer reads as itself, if no digit, point or exponent follows and
  it has no more digits than the limit.
-/

namespace CustomProperties

/-! ## Surrogate pairs -/

namespace Text

/-- The text with one code point for every high surrogate and the low surrogate right behind it. -/
def joinSurrogates : Text → Text
  | [] => []
  | [c] => [c]
  | c :: d :: rest =>
    if c.isHighSurrogate ∧ d.isLowSurrogate then Json.joinPair c.val d.val :: joinSurrogates rest
    else c :: joinSurrogates (d :: rest)

def HasPair (t : Text) : Prop :=
  ∃ (before : Text) (c d : CodePoint) (after : Text), t = before ++ c :: d :: after ∧
    c.isHighSurrogate = true ∧ d.isLowSurrogate = true

theorem HasPair.cons {t : Text} (h : HasPair t) (c : CodePoint) : HasPair (c :: t) := by
  obtain ⟨before, high, low, after, rfl, hHigh, hLow⟩ := h
  exact ⟨c :: before, high, low, after, rfl, hHigh, hLow⟩

theorem hasPair_cons_cons {c d : CodePoint} {t : Text} : HasPair (c :: d :: t) ↔
    (c.isHighSurrogate = true ∧ d.isLowSurrogate = true) ∨ HasPair (d :: t) := by
  constructor
  · rintro ⟨before, high, low, after, hText, hHigh, hLow⟩
    cases before with
    | nil =>
      cases hText
      exact Or.inl ⟨hHigh, hLow⟩
    | cons b before =>
      exact Or.inr ⟨before, high, low, after, (List.cons.inj hText).2, hHigh, hLow⟩
  · rintro (⟨hHigh, hLow⟩ | h)
    · exact ⟨[], c, d, t, rfl, hHigh, hLow⟩
    · exact h.cons c

theorem not_hasPair_singleton (c : CodePoint) : ¬ HasPair [c] := by
  rintro ⟨before, high, low, after, hText, -⟩
  have hLength := congrArg List.length hText
  simp at hLength
  omega

theorem length_joinSurrogates_le (t : Text) : (joinSurrogates t).length ≤ t.length := by
  induction t using joinSurrogates.induct with
  | case1 => exact Nat.le_refl 0
  | case2 c => exact Nat.le_refl 1
  | case3 c d rest h ih =>
    rw [joinSurrogates, if_pos h]
    simp only [List.length_cons]
    omega
  | case4 c d rest h ih =>
    rw [joinSurrogates, if_neg h]
    simp only [List.length_cons] at ih ⊢
    omega

/-- **Joining pairs keeps a text exactly if it has none.** -/
theorem joinSurrogates_eq_self_iff {t : Text} : joinSurrogates t = t ↔ ¬ HasPair t := by
  induction t using joinSurrogates.induct with
  | case1 =>
    refine iff_of_true rfl ?_
    rintro ⟨before, c, d, after, hText, -⟩
    cases before <;> cases hText
  | case2 c => exact iff_of_true rfl (not_hasPair_singleton c)
  | case3 c d rest h ih =>
    -- A pair makes the text shorter.
    refine iff_of_false ?_ (not_not_intro (hasPair_cons_cons.mpr (Or.inl h)))
    intro hSame
    have hLength := congrArg List.length hSame
    have hRest := length_joinSurrogates_le rest
    rw [joinSurrogates, if_pos h] at hLength
    simp only [List.length_cons] at hLength
    omega
  | case4 c d rest h ih =>
    rw [joinSurrogates, if_neg h, List.cons_inj_right, ih, hasPair_cons_cons, not_or]
    exact ⟨fun hRest => ⟨h, hRest⟩, fun hBoth => hBoth.2⟩

end Text

namespace Json

/-! ## Characters -/

def letters : List (CodePoint × CodePoint) :=
  [('"', '"'), ('\\', '\\'), ('\n', 'n'), ('\r', 'r'), ('\t', 't'), (.ofNat 0x8, 'b'),
    (.ofNat 0xC, 'f')]

def isWrittenPlain (c : CodePoint) : Bool :=
  (letters.map Prod.fst).contains c || (0x20 ≤ c.val && c.val ≤ 0x7E)

def written (c : CodePoint) : List Written :=
  if isWrittenPlain c then [.plain c]
  else if c.val < 0x10000 then [.escaped c.val]
  else [.escaped (surrogatePair c).1, .escaped (surrogatePair c).2]

theorem letters_spec : ∀ p ∈ letters, writeChar p.1 = [('\\' : CodePoint), p.2] ∧
    letterEscape? p.2 = some p.1 ∧ p.2 ≠ ('u' : CodePoint) ∧ isWrittenPlain p.1 = true := by
  decide

theorem writeChar_of_not_mem_letters {c : CodePoint} (h : c ∉ letters.map Prod.fst) :
    writeChar c = if 0x20 ≤ c.val ∧ c.val ≤ 0x7E then [c]
      else if c.val < 0x10000 then "\\u" ++ Text.hex 4 c.val
      else "\\u" ++ Text.hex 4 (surrogatePair c).1
        ++ ("\\u" ++ Text.hex 4 (surrogatePair c).2) := by
  simp only [letters, List.map_cons, List.map_nil, List.mem_cons, List.not_mem_nil, or_false,
    not_or] at h
  obtain ⟨hQuote, hBackslash, hFeed, hReturn, hTab, hBack, hForm⟩ := h
  have hVal : ∀ n, c ≠ .ofNat n → c.val ≠ n := by
    rintro n hne rfl
    exact hne (CodePoint.ofNat_val c).symm
  rw [writeChar, if_neg hQuote, if_neg hBackslash, if_neg hFeed, if_neg hReturn, if_neg hTab,
    if_neg (hVal _ hBack), if_neg (hVal _ hForm)]

theorem surrogatePair_spec {c : CodePoint} (h : ¬ c.val < 0x10000) :
    (0xD800 ≤ (surrogatePair c).1 ∧ (surrogatePair c).1 ≤ 0xDBFF) ∧
      0xDC00 ≤ (surrogatePair c).2 ∧ (surrogatePair c).2 ≤ 0xDFFF := by
  have hc := c.val_lt
  simp only [surrogatePair]
  omega

theorem joinPair_surrogatePair {c : CodePoint} (h : ¬ c.val < 0x10000) :
    joinPair (surrogatePair c).1 (surrogatePair c).2 = c := by
  have hVal : 0x10000 + ((surrogatePair c).1 - 0xD800) * 0x400 + ((surrogatePair c).2 - 0xDC00)
      = c.val := by
    simp only [surrogatePair]
    omega
  rw [joinPair, hVal, CodePoint.ofNat_val]

theorem hex_four (n : Nat) : Text.hex 4 n = [CodePoint.ofChar (Nat.digitChar (n / 4096 % 16)),
    CodePoint.ofChar (Nat.digitChar (n / 256 % 16)), CodePoint.ofChar (Nat.digitChar (n / 16 % 16)),
    CodePoint.ofChar (Nat.digitChar (n % 16))] := by
  simp [Text.hex, Nat.div_div_eq_div_mul]

theorem readChars_hex {n : Nat} (hn : n < 0x10000) (start : Text) {rest : Text}
    (hRest : rest ≠ []) :
    readChars start (("\\u" : Text) ++ Text.hex 4 n ++ rest)
      = pushWritten (.escaped n) (readChars start rest) := by
  have hDigits : fourDigits? (CodePoint.ofChar (Nat.digitChar (n / 4096 % 16)))
      (CodePoint.ofChar (Nat.digitChar (n / 256 % 16)))
      (CodePoint.ofChar (Nat.digitChar (n / 16 % 16)))
      (CodePoint.ofChar (Nat.digitChar (n % 16))) = some n := by
    simp only [fourDigits?, Text.hexDigit?_digitChar _ (Nat.mod_lt _ (by omega : 0 < 16)), bind,
      Option.bind, pure, Option.some.injEq]
    omega
  have hFull : rest.isEmpty = false := by simpa using hRest
  rw [hex_four]
  show readChars start (('\\' : CodePoint) :: ('u' : CodePoint) :: _ :: _ :: _ :: _ :: rest) = _
  rw [readChars, if_neg (by decide), if_pos rfl]
  simp only [if_pos, hFull, hDigits]
  rfl

theorem readChars_letter {e d : CodePoint} (hu : e ≠ ('u' : CodePoint))
    (h : letterEscape? e = some d) (start rest : Text) :
    readChars start (('\\' : CodePoint) :: e :: rest)
      = pushWritten (.plain d) (readChars start rest) := by
  rw [readChars.eq_def]
  simp only [if_neg hu, h]
  rfl

theorem readChars_plain {c : CodePoint} (hQuote : c ≠ ('"' : CodePoint))
    (hBackslash : c ≠ ('\\' : CodePoint)) (hLow : 0x20 ≤ c.val) (start rest : Text) :
    readChars start (c :: rest) = pushWritten (.plain c) (readChars start rest) := by
  rw [readChars.eq_def]
  simp only [if_neg hQuote, if_neg hBackslash, if_neg (Nat.not_lt.mpr hLow)]

theorem readChars_quote (start rest : Text) :
    readChars start (('"' : CodePoint) :: rest) = .ok ([], rest) := by
  rw [readChars.eq_def]
  exact if_pos rfl

/-- A written character is seen as it was written, if something follows it. -/
theorem readChars_writeChar (c : CodePoint) (start : Text) {rest : Text} (hRest : rest ≠ []) :
    readChars start (writeChar c ++ rest)
      = (written c).foldr pushWritten (readChars start rest) := by
  by_cases hLetter : c ∈ letters.map Prod.fst
  · obtain ⟨p, hp, rfl⟩ := List.mem_map.mp hLetter
    obtain ⟨hWrite, hEscape, hu, hPlain⟩ := letters_spec p hp
    rw [hWrite, written, if_pos hPlain]
    exact readChars_letter hu hEscape start rest
  rw [writeChar_of_not_mem_letters hLetter]
  by_cases hPrint : 0x20 ≤ c.val ∧ c.val ≤ 0x7E
  · have hPlain : isWrittenPlain c = true := by simp [isWrittenPlain, hPrint]
    have hQuote : c ≠ ('"' : CodePoint) := by
      rintro rfl
      exact hLetter (by decide)
    have hBackslash : c ≠ ('\\' : CodePoint) := by
      rintro rfl
      exact hLetter (by decide)
    rw [if_pos hPrint, written, if_pos hPlain]
    exact readChars_plain hQuote hBackslash hPrint.1 start rest
  have hPlain : isWrittenPlain c ≠ true := by
    simpa [isWrittenPlain, hLetter] using hPrint
  rw [if_neg hPrint, written, if_neg hPlain]
  by_cases hSmall : c.val < 0x10000
  · rw [if_pos hSmall, if_pos hSmall]
    exact readChars_hex hSmall start hRest
  · obtain ⟨hHigh, hLow⟩ := surrogatePair_spec hSmall
    rw [if_neg hSmall, if_neg hSmall, List.append_assoc,
      readChars_hex (by omega) start (by simp [hRest]), readChars_hex (by omega) start hRest]
    rfl

theorem readChars_flatMap (t start rest : Text) :
    readChars start (t.flatMap writeChar ++ ('"' : CodePoint) :: rest)
      = .ok (t.flatMap written, rest) := by
  induction t with
  | nil => exact readChars_quote start rest
  | cons c t ih =>
    have hPush : ∀ (ws vs : List Written),
        ws.foldr pushWritten (.ok (vs, rest)) = .ok (ws ++ vs, rest) := by
      intro ws vs
      induction ws with
      | nil => rfl
      | cons w ws ih => rw [List.foldr_cons, ih]; rfl
    rw [List.flatMap_cons, List.append_assoc, readChars_writeChar c start (by simp), ih, hPush,
      List.flatMap_cons]

/-! ## Pairs of escapes -/

theorem joinEscapes_plain (c : CodePoint) (ws : List Written) :
    joinEscapes (.plain c :: ws) = c :: joinEscapes ws := by
  rw [joinEscapes]

/-- An escape stays alone unless it is the first half of a pair. -/
theorem joinEscapes_escaped {n : Nat} {ws : List Written}
    (h : ∀ m, ws.head? = some (.escaped m) →
      ¬ (0xD800 ≤ n ∧ n ≤ 0xDBFF ∧ 0xDC00 ≤ m ∧ m ≤ 0xDFFF)) :
    joinEscapes (.escaped n :: ws) = .ofNat n :: joinEscapes ws := by
  cases ws with
  | nil => rfl
  | cons w ws =>
    cases w with
    | plain c =>
      rw [joinEscapes_plain]
      rw [joinEscapes]
    | escaped m => rw [joinEscapes, if_neg (h m rfl)]

theorem joinEscapes_pair {n m : Nat} {ws : List Written}
    (h : 0xD800 ≤ n ∧ n ≤ 0xDBFF ∧ 0xDC00 ≤ m ∧ m ≤ 0xDFFF) :
    joinEscapes (.escaped n :: .escaped m :: ws) = joinPair n m :: joinEscapes ws := by
  rw [joinEscapes, if_pos h]

theorem written_surrogate {c : CodePoint} (h : 0xD800 ≤ c.val) (h' : c.val ≤ 0xDFFF) :
    written c = [.escaped c.val] := by
  have hPlain : isWrittenPlain c ≠ true := by
    intro hPlain
    rw [isWrittenPlain, Bool.or_eq_true, List.contains_iff_mem] at hPlain
    rcases hPlain with hMem | hPrint
    · have hLow := (by decide : ∀ d ∈ letters.map Prod.fst, d.val < 0xD800) c hMem
      omega
    · simp only [Bool.and_eq_true, decide_eq_true_eq] at hPrint
      omega
  rw [written, if_neg hPlain, if_pos (by omega)]

theorem val_of_head?_written {c : CodePoint} {ws : List Written} {m : Nat}
    (h : (written c ++ ws).head? = some (.escaped m)) (hm : 0xDC00 ≤ m) : c.val = m := by
  rw [written] at h
  split at h
  · cases h
  · split at h
    · cases h
      rfl
    · rename_i hSmall
      have hPair := surrogatePair_spec hSmall
      cases h
      omega

theorem joinEscapes_written {c : CodePoint} {ws : List Written}
    (h : ∀ m, ws.head? = some (.escaped m) → c.isHighSurrogate = true →
      ¬ (0xDC00 ≤ m ∧ m ≤ 0xDFFF)) :
    joinEscapes (written c ++ ws) = c :: joinEscapes ws := by
  rw [written]
  split
  · exact joinEscapes_plain c ws
  · split
    · rw [List.singleton_append, joinEscapes_escaped, CodePoint.ofNat_val]
      rintro m hm ⟨hHigh, hHigh', hLow⟩
      exact h m hm (by simp [CodePoint.isHighSurrogate, hHigh, hHigh']) hLow
    · rename_i hSmall
      obtain ⟨hHigh, hLow⟩ := surrogatePair_spec hSmall
      show joinEscapes (.escaped _ :: .escaped _ :: ws) = _
      rw [joinEscapes_pair ⟨hHigh.1, hHigh.2, hLow⟩, joinPair_surrogatePair hSmall]

/-- **The escapes of a text make the text with its pairs joined.** -/
theorem joinEscapes_flatMap (t : Text) : joinEscapes (t.flatMap written) = t.joinSurrogates := by
  induction t using Text.joinSurrogates.induct with
  | case1 => rfl
  | case2 c =>
    rw [List.flatMap_cons]
    exact joinEscapes_written (fun m hm => by cases hm)
  | case3 c d rest h ih =>
    have hPair := h
    simp only [CodePoint.isHighSurrogate, CodePoint.isLowSurrogate, Bool.and_eq_true,
      decide_eq_true_eq] at hPair
    rw [Text.joinSurrogates, if_pos h, List.flatMap_cons, List.flatMap_cons,
      written_surrogate (by omega) (by omega), written_surrogate (by omega) (by omega)]
    rw [List.singleton_append, List.singleton_append,
      joinEscapes_pair ⟨hPair.1.1, hPair.1.2, hPair.2⟩, ih]
  | case4 c d rest h ih =>
    rw [Text.joinSurrogates, if_neg h, List.flatMap_cons, joinEscapes_written, ih]
    -- An escaped low surrogate behind a high one would have been a pair.
    rintro m hm hHigh ⟨hLow, hLow'⟩
    rw [List.flatMap_cons] at hm
    have hVal := val_of_head?_written hm hLow
    exact h ⟨hHigh, by simp [CodePoint.isLowSurrogate, hVal, hLow, hLow']⟩

/-- **A written string reads as itself with its surrogate pairs joined.** -/
theorem readString_writeString (t start rest : Text) :
    readString start (t.flatMap writeChar ++ ('"' : CodePoint) :: rest)
      = .ok (t.joinSurrogates, rest) := by
  rw [readString, readChars_flatMap]
  exact congrArg (fun u => Except.ok (u, rest)) (joinEscapes_flatMap t)

/-! ## Integers -/

/-- Nothing that would go on with a number stands at the front. -/
def EndsNumber (rest : Text) : Prop :=
  ∀ c ∈ rest.head?, c.isDigit = false ∧ c ∉ [('.' : CodePoint), 'e', 'E']

theorem head?_toDigits {n : Nat} (h : (Nat.toDigits 10 n).head? = some '0') : n = 0 := by
  induction n using Nat.strongRecOn with
  | ind n ih =>
    by_cases hn : n < 10
    · rw [Nat.toDigits_of_lt_base hn, List.head?_cons, Option.some.injEq] at h
      exact (by decide : ∀ k < 10, Nat.digitChar k = '0' → k = 0) n hn h
    · rw [Nat.toDigits_of_base_le (by omega) (by omega), List.head?_append] at h
      cases hHead : (Nat.toDigits 10 (n / 10)).head? with
      | none => exact absurd (List.head?_eq_none_iff.mp hHead) Nat.toDigits_ne_nil
      | some c =>
        rw [hHead, Option.some_or] at h
        have := ih (n / 10) (by omega) (hHead.trans h)
        omega

theorem takeWhile_isDigit {digits rest : Text} (hDigits : ∀ c ∈ digits, c.isDigit = true)
    (hRest : EndsNumber rest) : (digits ++ rest).takeWhile CodePoint.isDigit = digits := by
  rw [List.takeWhile_append_of_pos hDigits]
  cases rest with
  | nil => exact List.append_nil digits
  | cons c rest => rw [List.takeWhile_cons_of_neg (by simp [(hRest c rfl).1]), List.append_nil]

theorem integerDigits_ofNat (n : Nat) {rest : Text} (h : EndsNumber rest) :
    integerDigits (Text.ofNat n ++ rest) = Text.ofNat n := by
  have hDigits : ∀ c ∈ Text.ofNat n, c.isDigit = true := fun c => Text.isDigit_of_mem_ofNat
  cases hText : Text.ofNat n with
  | nil => exact absurd hText (Text.ofNat_ne_nil n)
  | cons c ds =>
    rw [List.cons_append, integerDigits]
    split
    · -- Only zero has a numeral that starts with a zero.
      rename_i hc
      have hHead : (Nat.toDigits 10 n).head? = some '0' := by
        have hFirst : ((Nat.toDigits 10 n).map CodePoint.ofChar).head? = some (c : CodePoint) := by
          rw [← Text.ofNat, hText]
          rfl
        rw [List.head?_map] at hFirst
        obtain ⟨d, hd, rfl⟩ := Option.map_eq_some_iff.mp hFirst
        rw [hd, CodePoint.ofChar_inj.mp hc]
      cases head?_toDigits hHead
      obtain ⟨-, rfl⟩ := List.cons.inj (show [('0' : CodePoint)] = c :: ds from hText)
      rfl
    · rw [hText] at hDigits
      exact takeWhile_isDigit hDigits h

theorem readDecimal_ofNat (n : Nat) : Text.readDecimal (Text.ofNat n) = n := by
  have hRead : Nat.ofDigitChars 10 (Nat.toDigits 10 n) 0 = n :=
    Nat.ofDigitChars_toDigits (by omega) (by omega)
  rw [Text.readDecimal, Text.ofNat, List.foldl_map]
  exact hRead

theorem fractionLength_eq_zero {rest : Text} (h : EndsNumber rest) : fractionLength rest = 0 := by
  cases rest with
  | nil => rfl
  | cons c rest =>
    have hc : c ≠ ('.' : CodePoint) := fun hc => (h c rfl).2 (by simp [hc])
    simp [fractionLength, hc]

theorem exponentLength_eq_zero {rest : Text} (h : EndsNumber rest) : exponentLength rest = 0 := by
  cases rest with
  | nil => rfl
  | cons c rest =>
    have he : c ≠ ('e' : CodePoint) := fun hc => (h c rfl).2 (by simp [hc])
    have hE : c ≠ ('E' : CodePoint) := fun hc => (h c rfl).2 (by simp [hc])
    simp [exponentLength, he, hE]

theorem readNumeral?_of_body {t body rest : Text} {n : Nat}
    (hBody : (if t.head? = some ('-' : CodePoint) then t.drop 1 else t) = body)
    (hText : body = Text.ofNat n ++ rest) (h : EndsNumber rest) :
    readNumeral? t = some (⟨t.head? = some ('-' : CodePoint), Text.ofNat n, [], []⟩, rest) := by
  have hSome : (Text.ofNat n).isEmpty = false := by simp [Text.ofNat_ne_nil]
  simp only [readNumeral?, hBody, hText, integerDigits_ofNat n h, hSome, List.drop_left,
    fractionLength_eq_zero h, exponentLength_eq_zero h, List.take_zero, List.length_nil,
    List.drop_zero, Bool.false_eq_true, if_false]

theorem head?_ofNat_append (n : Nat) (rest : Text) :
    ∃ c tail, Text.ofNat n ++ rest = c :: tail ∧ c.isDigit = true := by
  cases hText : Text.ofNat n with
  | nil => exact absurd hText (Text.ofNat_ne_nil n)
  | cons c ds => exact ⟨c, ds ++ rest, rfl, Text.isDigit_of_mem_ofNat (n := n) (by simp [hText])⟩

theorem readNumeral?_ofInt (i : Int) {rest : Text} (h : EndsNumber rest) :
    readNumeral? (Text.ofInt i ++ rest) = some (⟨i < 0, Text.ofNat i.natAbs, [], []⟩, rest) := by
  cases i with
  | ofNat n =>
    obtain ⟨c, tail, hText, hc⟩ := head?_ofNat_append n rest
    have hSign : (Text.ofNat n ++ rest).head? ≠ some ('-' : CodePoint) := by
      rw [hText]
      rintro ⟨⟩
      exact absurd hc (by decide)
    have hRead := readNumeral?_of_body (if_neg hSign) rfl h
    rwa [decide_eq_false hSign, ← decide_eq_false (Int.not_lt.mpr (Int.natCast_nonneg n))] at hRead
  | negSucc n =>
    have hSign : (('-' : CodePoint) :: (Text.ofNat (n + 1) ++ rest)).head?
        = some ('-' : CodePoint) := rfl
    have hRead := readNumeral?_of_body (if_pos hSign) rfl h
    rwa [decide_eq_true hSign, ← decide_eq_true (Int.negSucc_lt_zero n)] at hRead

theorem value_numeral (i : Int) :
    Numeral.value ⟨i < 0, Text.ofNat i.natAbs, [], []⟩ = .int i := by
  show Json.int (signed _ (Text.readDecimal (Text.ofNat i.natAbs))) = _
  rw [readDecimal_ofNat, signed]
  congr 1
  by_cases hi : i < 0
  · rw [decide_eq_true hi, if_pos rfl]
    omega
  · rw [decide_eq_false hi, if_neg Bool.false_ne_true]
    omega

/-- No word for a value stands where a number does. -/
theorem find?_words {c : CodePoint} {tail : Text}
    (h : c.isDigit = true ∨ c = ('-' : CodePoint) ∧ tail.head?.any CodePoint.isDigit = true) :
    words.find? (fun word => word.1.isPrefixOf (c :: tail)) = none := by
  refine List.find?_eq_none.mpr fun word hWord hPrefix => ?_
  have hStart := (by decide : ∀ w ∈ words, w.1.head?.any (fun d => !d.isDigit) = true ∧
    (w.1.head? = some ('-' : CodePoint) →
      (w.1.drop 1).head?.any (fun d => !d.isDigit) = true)) word hWord
  obtain ⟨more, hMore⟩ := List.isPrefixOf_iff_prefix.mp hPrefix
  cases hText : word.1 with
  | nil => simp [hText] at hStart
  | cons d u =>
    rw [hText] at hStart hMore
    obtain ⟨rfl, rfl⟩ := List.cons.inj hMore
    rcases h with hDigit | ⟨rfl, hNext⟩
    · simp [hDigit] at hStart
    · cases u with
      | nil => simp at hStart
      | cons e u => simp_all

def Limits.AllowsInt (limits : Limits) (i : Int) : Prop :=
  ∀ limit ∈ limits.digits, (Text.ofNat i.natAbs).length ≤ limit

theorem Limits.AllowsInt.excess?_eq_none {limits : Limits} {i : Int} (h : limits.AllowsInt i) :
    Numeral.excess? limits ⟨i < 0, Text.ofNat i.natAbs, [], []⟩ = none := by
  rw [Numeral.excess?]
  cases hDigits : limits.digits with
  | none => rfl
  | some limit =>
    have hLength := h limit hDigits
    exact if_neg fun hBoth => Nat.not_lt.mpr hLength hBoth.2

/-- **A written integer reads as itself.** -/
theorem readScalar_ofInt {limits : Limits} {i : Int} (hi : limits.AllowsInt i) {rest : Text}
    (h : EndsNumber rest) :
    readScalar limits (Text.ofInt i ++ rest) = .ok (.int i, rest) := by
  have hWord : words.find? (fun word => word.1.isPrefixOf (Text.ofInt i ++ rest)) = none := by
    cases i with
    | ofNat n =>
      obtain ⟨c, tail, hText, hc⟩ := head?_ofNat_append n rest
      rw [Text.ofInt, hText]
      exact find?_words (Or.inl hc)
    | negSucc n =>
      obtain ⟨c, tail, hText, hc⟩ := head?_ofNat_append (n + 1) rest
      rw [Text.ofInt, List.cons_append, hText]
      exact find?_words (Or.inr ⟨rfl, hc⟩)
  rw [readScalar, hWord, readNumeral?_ofInt i h]
  simp only [hi.excess?_eq_none, value_numeral]

end Json

end CustomProperties
