import CustomProperties.Proofs.Numeral
import CustomProperties.Text.Quoted

/-!
# Quoted text is read in only one way

A text between quotes is shown character by character, and every character can be cut off the front
again: what does not start with a backslash stands for itself, and behind a backslash one letter
tells how many hexadecimal digits follow, if any.  So a message that quotes a text determines it.

* `unquoteChar_quotedChar`: the first character of what is shown, read back.
* `quoted_injective`: **two texts that are shown alike are the same text.**
-/

namespace CustomProperties.Text

/-! ## Hexadecimal digits -/

def readHex (digits : Text) : Nat :=
  digits.foldl (fun value c => 16 * value + (hexDigit? c).getD 0) 0

theorem length_hex (width n : Nat) : (hex width n).length = width := by
  induction width generalizing n with
  | zero => rfl
  | succ width ih => rw [hex, List.length_append, ih, List.length_singleton]

theorem readHex_hex_zero (n : Nat) : readHex (hex 0 n) = 0 := rfl

theorem readHex_hex_succ (width n : Nat) :
    readHex (hex (width + 1) n) = 16 * readHex (hex width (n / 16)) + n % 16 := by
  rw [hex, readHex, List.foldl_append, List.foldl_cons, List.foldl_nil,
    hexDigit?_digitChar _ (Nat.mod_lt n (by decide))]
  rfl

/-! ## One character -/

/-- The number of hexadecimal digits behind a letter that announces them. -/
def escapeWidth? (letter : CodePoint) : Option Nat :=
  if letter = 'x' then some 2 else if letter = 'u' then some 4
  else if letter = 'U' then some 8 else none

/-- What a letter behind a backslash stands for, if it announces no digits. -/
def escapedChar (letter : CodePoint) : CodePoint :=
  if letter = 'n' then '\n'
  else if letter = 'r' then '\r'
  else if letter = 't' then '\t'
  else letter

def unquoteChar : Text → Option (CodePoint × Text)
  | [] => none
  | [c] => some (c, [])
  | c :: letter :: rest =>
    if c = '\\' then
      match escapeWidth? letter with
      | some width => some (.ofNat (readHex (rest.take width)), rest.drop width)
      | none => some (escapedChar letter, rest)
    else some (c, letter :: rest)

theorem unquoteChar_plain {c : CodePoint} (hc : c ≠ ('\\' : CodePoint)) (rest : Text) :
    unquoteChar (c :: rest) = some (c, rest) := by
  cases rest with
  | nil => rfl
  | cons d rest => rw [unquoteChar, if_neg hc]

theorem unquoteChar_letter {letter : CodePoint} (h : escapeWidth? letter = none) (rest : Text) :
    unquoteChar (('\\' : CodePoint) :: letter :: rest) = some (escapedChar letter, rest) := by
  rw [unquoteChar, if_pos rfl, h]

theorem unquoteChar_hex (letter : CodePoint) {c : CodePoint} {width : Nat}
    (h : escapeWidth? letter = some width)
    (hc : readHex (hex width c.val) = c.val) (rest : Text) :
    unquoteChar (('\\' : CodePoint) :: letter :: (hex width c.val ++ rest)) = some (c, rest) := by
  rw [unquoteChar, if_pos rfl, h]
  simp only [List.take_left' (length_hex width c.val), List.drop_left' (length_hex width c.val), hc,
    CodePoint.ofNat_val]

theorem unquoteChar_hexEscape (c : CodePoint) (rest : Text) :
    unquoteChar (hexEscape c ++ rest) = some (c, rest) := by
  have hRange := c.val_lt
  rw [hexEscape]
  split
  · refine unquoteChar_hex 'x' rfl ?_ rest
    simp only [readHex_hex_succ, readHex_hex_zero]
    omega
  · split
    · refine unquoteChar_hex 'u' rfl ?_ rest
      simp only [readHex_hex_succ, readHex_hex_zero]
      omega
    · refine unquoteChar_hex 'U' rfl ?_ rest
      simp only [readHex_hex_succ, readHex_hex_zero]
      omega

/-- **A character that is shown between quotes is cut off the front again.** -/
theorem unquoteChar_quotedChar {mark : CodePoint}
    (hMark : mark = ('\'' : CodePoint) ∨ mark = ('"' : CodePoint)) (c : CodePoint) (rest : Text) :
    unquoteChar (quotedChar mark c ++ rest) = some (c, rest) := by
  rw [quotedChar]
  split
  · rename_i hSelf
    have hLetter : escapeWidth? c = none ∧ escapedChar c = c := by
      rcases hSelf with rfl | rfl
      · rcases hMark with rfl | rfl <;> exact ⟨rfl, rfl⟩
      · exact ⟨rfl, rfl⟩
    rw [List.cons_append, List.singleton_append, unquoteChar_letter hLetter.1, hLetter.2]
  · rename_i hSelf
    split
    · rename_i hc
      subst hc
      exact unquoteChar_letter rfl rest
    · split
      · rename_i hc
        subst hc
        exact unquoteChar_letter rfl rest
      · split
        · rename_i hc
          subst hc
          exact unquoteChar_letter rfl rest
        · split
          · exact unquoteChar_plain (fun hc => hSelf (Or.inr hc)) rest
          · exact unquoteChar_hexEscape c rest

/-! ## Whole texts -/

theorem quoteMark_eq (t : Text) :
    quoteMark t = ('\'' : CodePoint) ∨ quoteMark t = ('"' : CodePoint) := by
  rw [quoteMark]
  split
  · exact Or.inr rfl
  · exact Or.inl rfl

theorem flatMap_quotedChar_injective {mark : CodePoint}
    (hMark : mark = ('\'' : CodePoint) ∨ mark = ('"' : CodePoint)) {t u : Text}
    (h : t.flatMap (quotedChar mark) = u.flatMap (quotedChar mark)) : t = u := by
  have hSome : ∀ (c : CodePoint) (rest : Text), quotedChar mark c ++ rest ≠ [] := by
    intro c rest hNil
    have hRead := unquoteChar_quotedChar hMark c rest
    rw [hNil] at hRead
    cases hRead
  induction t generalizing u with
  | nil =>
    cases u with
    | nil => rfl
    | cons d u => exact absurd h.symm (hSome d _)
  | cons c t ih =>
    cases u with
    | nil => exact absurd h (hSome c _)
    | cons d u =>
      have hRead := congrArg unquoteChar h
      rw [List.flatMap_cons, List.flatMap_cons, unquoteChar_quotedChar hMark,
        unquoteChar_quotedChar hMark] at hRead
      obtain ⟨rfl, hRest⟩ := Prod.mk.inj (Option.some.inj hRead)
      rw [ih hRest]

/-- **Two texts that are shown alike are the same text.** -/
theorem quoted_injective {t u : Text} (h : t.quoted = u.quoted) : t = u := by
  rw [quoted, quoted] at h
  obtain ⟨hMark, hRest⟩ := List.cons.inj h
  rw [← hMark] at hRest
  exact flatMap_quotedChar_injective (quoteMark_eq t) (List.append_cancel_right hRest)

end CustomProperties.Text
