import CustomProperties.Declaration
import CustomProperties.Proofs.Text

/-!
# Numerals and ids are injective

The decimal digits of a number determine it, and a minus sign is no digit.  So the text of an
integer can be cut off again in front of any character that is no digit, and the id of a
declaration, two integers with a hyphen between them, determines both of its offsets, whatever their
signs.

* `Text.ofInt_append_cons_inj`: the text of an integer can be cut off.
* `Text.ofInt_injective`: the text of an integer determines the integer.
* `Declaration.idAt_inj`: the id determines the two offsets.
-/

namespace CustomProperties

namespace Text

theorem ofNat_injective {m n : Nat} (h : ofNat m = ofNat n) : m = n := by
  have hDigits : Nat.toDigits 10 m = Nat.toDigits 10 n :=
    List.map_inj_right (fun _ _ => CodePoint.ofChar_inj.mp) |>.mp h
  have hRead := congrArg (fun digits => Nat.ofDigitChars 10 digits 0) hDigits
  simpa using hRead

theorem isDigit_of_mem_ofNat {n : Nat} {c : CodePoint} (h : c ∈ ofNat n) : c.isDigit = true := by
  obtain ⟨d, hd, rfl⟩ := List.mem_map.mp h
  have hDigit := Nat.isDigit_of_mem_toDigits (by omega) (by omega) hd
  simp only [Char.isDigit, Bool.and_eq_true, decide_eq_true_eq, UInt32.le_iff_toNat_le] at hDigit
  simp only [CodePoint.isDigit, CodePoint.ofChar, Bool.and_eq_true]
  exact ⟨decide_eq_true hDigit.1, decide_eq_true hDigit.2⟩

theorem ofNat_ne_nil (n : Nat) : ofNat n ≠ [] := by
  simp [ofNat, Nat.toDigits_ne_nil]

/-- A run of digits in front of another character is cut off in only one way. -/
theorem digits_append_cons_inj {x : CodePoint} (hx : ¬ x.isDigit = true) {a b r t : Text}
    (ha : ∀ c ∈ a, c.isDigit = true) (hb : ∀ c ∈ b, c.isDigit = true)
    (h : a ++ x :: r = b ++ x :: t) : a = b ∧ r = t := by
  have hCut := congrArg (List.takeWhile CodePoint.isDigit) h
  rw [List.takeWhile_append_of_pos ha, List.takeWhile_append_of_pos hb,
    List.takeWhile_cons_of_neg hx, List.takeWhile_cons_of_neg hx,
    List.append_nil, List.append_nil] at hCut
  subst hCut
  exact ⟨rfl, (List.cons.inj (List.append_cancel_left h)).2⟩

theorem ofInt_append_cons_inj {x : CodePoint} (hx : ¬ x.isDigit = true) {i j : Int} {r t : Text}
    (h : ofInt i ++ x :: r = ofInt j ++ x :: t) : i = j ∧ r = t := by
  -- A numeral starts with a digit, so a minus sign in front tells the signs apart.
  have hStart : ∀ (n : Nat) (u v : Text), ofNat n ++ u ≠ ('-' : CodePoint) :: v := by
    intro n u v he
    cases hn : ofNat n with
    | nil => exact ofNat_ne_nil n hn
    | cons c rest =>
      rw [hn, List.cons_append] at he
      have hc := isDigit_of_mem_ofNat (n := n) (c := c) (by rw [hn]; exact List.mem_cons_self)
      rw [(List.cons.inj he).1] at hc
      exact absurd hc (by decide)
  cases i with
  | ofNat m =>
    cases j with
    | ofNat n =>
      obtain ⟨he, ht⟩ := digits_append_cons_inj hx (fun c => isDigit_of_mem_ofNat)
        (fun c => isDigit_of_mem_ofNat) h
      exact ⟨congrArg Int.ofNat (ofNat_injective he), ht⟩
    | negSucc n => exact absurd h (hStart m _ _)
  | negSucc m =>
    cases j with
    | ofNat n => exact absurd h.symm (hStart n _ _)
    | negSucc n =>
      obtain ⟨he, ht⟩ := digits_append_cons_inj hx (fun c => isDigit_of_mem_ofNat)
        (fun c => isDigit_of_mem_ofNat) (List.cons.inj h).2
      exact ⟨congrArg Int.negSucc (Nat.succ.inj (ofNat_injective he)), ht⟩

theorem ofInt_append_hyphen_inj {i j : Int} {r t : Text}
    (h : ofInt i ++ ('-' : CodePoint) :: r = ofInt j ++ ('-' : CodePoint) :: t) :
    i = j ∧ r = t :=
  ofInt_append_cons_inj (by decide) h

theorem ofInt_injective {i j : Int} (h : ofInt i = ofInt j) : i = j :=
  (ofInt_append_hyphen_inj (r := []) (t := []) (by rw [h])).1

theorem hexDigit?_digitChar : ∀ n < 16, hexDigit? (Nat.digitChar n) = some n := by
  decide

end Text

/-- **The id of a declaration determines both offsets.** -/
theorem Declaration.idAt_inj {a b c d : Int} : idAt a b = idAt c d ↔ a = c ∧ b = d := by
  constructor
  · intro h
    simp only [idAt, List.append_assoc] at h
    obtain ⟨hName, hValue⟩ := Text.ofInt_append_hyphen_inj h
    exact ⟨hName, Text.ofInt_injective hValue⟩
  · rintro ⟨rfl, rfl⟩
    rfl

end CustomProperties
