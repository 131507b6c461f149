import CustomProperties.Proofs.JsonReader

/-!
# What the limits of the reader do

The limits of the JSON reader do one thing only: they stop it.  A text that is not stopped is read
as it would be without limits (`Curbed`).  It is stopped exactly if reading it without limits comes
to a value that is beyond them (`Comes`, `Limits.Exceeds`): an integer with too many digits, or a
bracket inside as many brackets as may be open.  So what is beyond a limit but never read, because a
fault stands in front of it, does not matter.

What is read without limits needs no budget either: `valueAt` gives it one that is always enough.

* `parse_curbed`: **limits only stop the reader.**
* `comes_of_excess`, `stopped_of_comes`: the reader is stopped where it comes to a value beyond a
  limit, and nowhere else.
* `parse_excess_iff`: **a text is stopped exactly if it goes beyond a limit.**
-/

namespace CustomProperties.Json

/-! ## Limits only stop the reader -/

/-- The first outcome is the second one, unless a limit stands in its way. -/
def Curbed {ε α : Type} (x y : Except (Failure ε) α) : Prop :=
  x = y ∨ ∃ e, x = .error (.excess e)

theorem Curbed.refl {ε α : Type} (x : Except (Failure ε) α) : Curbed x x := Or.inl rfl

theorem Curbed.map {ε α β : Type} {x y : Except (Failure ε) α} (h : Curbed x y) (f : α → β) :
    Curbed (x.map f) (y.map f) := by
  rcases h with rfl | ⟨e, rfl⟩
  · exact .refl _
  · exact Or.inr ⟨e, rfl⟩

theorem readScalar_curbed (limits : Limits) (t : Text) :
    Curbed (readScalar limits t) (readScalar {} t) := by
  rw [readScalar, readScalar]
  split
  · exact .refl _
  · split
    · exact .refl _
    · rename_i n rest _
      cases hExcess : n.excess? limits with
      | none => exact .refl _
      | some e => exact Or.inr ⟨e, rfl⟩

/-- **Limits only stop the reader.** -/
theorem read_curbed (b : Nat) :
    (∀ limits t, Curbed (readValue limits b t) (readValue {} b t)) ∧
    (∀ limits t, Curbed (readItems limits b t) (readItems {} b t)) ∧
    ∀ limits t, Curbed (readMembers limits b t) (readMembers {} b t) := by
  induction b with
  | zero =>
    refine ⟨fun limits t => ?_, fun limits t => ?_, fun limits t => ?_⟩
    · rw [readValue, readValue]
      exact .refl _
    · rw [readItems, readItems]
      exact .refl _
    · rw [readMembers, readMembers]
      exact .refl _
  | succ b ih =>
    obtain ⟨hValues, hItems, hMembers⟩ := ih
    refine ⟨fun limits t => ?_, fun limits t => ?_, fun limits t => ?_⟩
    · cases t with
      | nil =>
        rw [readValue_nil, readValue_nil]
        exact .refl _
      | cons c u =>
        rw [readValue, readValue]
        -- Without limits a bracket may always be opened, and there are none inside it either.
        have hFree : ({} : Limits).inner? = some {} := rfl
        split
        · exact .refl _
        split
        · cases hInner : limits.inner? with
          | none => exact Or.inr ⟨_, rfl⟩
          | some inner =>
            simp only [hFree]
            split
            · exact .refl _
            · exact (hItems inner (skipSpaces u)).map _
        split
        · cases hInner : limits.inner? with
          | none => exact Or.inr ⟨_, rfl⟩
          | some inner =>
            simp only [hFree]
            split
            · exact .refl _
            · exact (hMembers inner (skipSpaces u)).map _
        · exact readScalar_curbed limits (c :: u)
    · rw [readItems, readItems]
      rcases hValues limits t with hSame | ⟨e, hStop⟩
      · rw [hSame]
        split
        · exact .refl _
        · split
          · exact .refl _
          · split
            · exact .refl _
            · exact (hItems limits _).map _
      · rw [hStop]
        exact Or.inr ⟨e, rfl⟩
    · rw [readMembers, readMembers]
      split
      · exact .refl _
      · rename_i name start _
        rcases hValues limits start with hSame | ⟨e, hStop⟩
        · rw [hSame]
          split
          · exact .refl _
          · split
            · exact .refl _
            · split
              · exact .refl _
              · exact (hMembers limits _).map _
        · rw [hStop]
          exact Or.inr ⟨e, rfl⟩

/-! ## Where a limit is met -/

def valueAt (t : Text) : Outcome (Failure Fault) Json := readValue {} (2 * t.length) t

theorem readValue_eq_valueAt {b : Nat} {t : Text} (h : 2 * t.length ≤ b) :
    readValue {} b t = valueAt t :=
  (read_budget (2 * t.length)).1 {} t b (Nat.le_refl _) h

inductive Site
  | value
  | items
  | members

/-- Reading on from the text, with nothing to limit it, comes to a value that stands at the front of
`u`, inside `depth` more brackets. -/
inductive Comes : Site → Text → (depth : Nat) → (u : Text) → Prop
  | here (u : Text) : Comes .value u 0 u
  | array {t u : Text} {depth : Nat} : (skipSpaces t).head? ≠ some (']' : CodePoint) →
      Comes .items (skipSpaces t) depth u → Comes .value (('[' : CodePoint) :: t) (depth + 1) u
  | object {t u : Text} {depth : Nat} : (skipSpaces t).head? ≠ some ('}' : CodePoint) →
      Comes .members (skipSpaces t) depth u → Comes .value (('{' : CodePoint) :: t) (depth + 1) u
  | item {t u : Text} {depth : Nat} : Comes .value t depth u → Comes .items t depth u
  | nextItem {t rest next u : Text} {v : Json} {depth : Nat} : valueAt t = .ok (v, rest) →
      expect ',' .noComma (skipSpaces rest) = .ok next → Comes .items next depth u →
      Comes .items t depth u
  | member {t name start u : Text} {depth : Nat} : readName t = .ok (name, start) →
      Comes .value start depth u → Comes .members t depth u
  | nextMember {t name start rest next u : Text} {v : Json} {depth : Nat} :
      readName t = .ok (name, start) → valueAt start = .ok (v, rest) →
      expect ',' .noComma (skipSpaces rest) = .ok next → Comes .members next depth u →
      Comes .members t depth u

/-- The value at the front of a text, inside `depth` brackets, is beyond a limit. -/
inductive Limits.Exceeds (limits : Limits) : (depth : Nat) → Text → Excess → Prop
  | digits {limit depth : Nat} {u rest : Text} {n : Numeral} : limits.digits = some limit →
      readNumeral? u = some (n, rest) → n.isInteger = true → limit < n.digits.length →
      Exceeds limits depth u (.digits limit n.digits.length)
  | array {depth : Nat} {u : Text} : limits.depth = some depth →
      Exceeds limits depth (('[' : CodePoint) :: u) (.depth false)
  | object {depth : Nat} {u : Text} : limits.depth = some depth →
      Exceeds limits depth (('{' : CodePoint) :: u) (.depth true)

theorem Limits.inner?_eq_none_iff {limits : Limits} :
    limits.inner? = none ↔ limits.depth = some 0 := by
  rw [inner?]
  split <;> simp [*]

theorem Limits.exceeds_inner {limits inner : Limits} (h : limits.inner? = some inner) {depth : Nat}
    {u : Text} {e : Excess} : inner.Exceeds depth u e ↔ limits.Exceeds (depth + 1) u e := by
  have hDigits : inner.digits = limits.digits := by
    rw [inner?] at h
    split at h <;> cases h <;> rfl
  have hDepth : inner.depth = some depth ↔ limits.depth = some (depth + 1) := by
    rw [inner?] at h
    split at h <;> cases h <;> simp [*]
  constructor
  · rintro (⟨hLimit, hNumeral, hInteger, hMany⟩ | hRoom | hRoom)
    · exact .digits (hDigits ▸ hLimit) hNumeral hInteger hMany
    · exact .array (hDepth.mp hRoom)
    · exact .object (hDepth.mp hRoom)
  · rintro (⟨hLimit, hNumeral, hInteger, hMany⟩ | hRoom | hRoom)
    · exact .digits (hDigits ▸ hLimit) hNumeral hInteger hMany
    · exact .array (hDepth.mpr hRoom)
    · exact .object (hDepth.mpr hRoom)

theorem Numeral.excess?_eq_some_iff {limits : Limits} {n : Numeral} {e : Excess} :
    n.excess? limits = some e ↔ ∃ limit, limits.digits = some limit ∧ n.isInteger = true ∧
      limit < n.digits.length ∧ e = .digits limit n.digits.length := by
  rw [excess?]
  split
  · rename_i hNone
    simp [hNone]
  · rename_i limit hLimit
    simp only [hLimit, Option.some.injEq, exists_eq_left', Option.ite_none_right_eq_some, and_assoc]
    exact and_congr_right fun _ => and_congr_right fun _ => eq_comm

section

variable {limits : Limits} {budget : Nat} {t : Text} {e : Excess}

theorem readScalar_eq_excess (h : readScalar limits t = .error (.excess e)) (depth : Nat) :
    limits.Exceeds depth t e := by
  rw [readScalar] at h
  split at h
  · cases h
  · split at h
    · cases h
    · rename_i n rest hNumeral
      split at h
      · rename_i e' hExcess
        cases h
        obtain ⟨limit, hLimit, hInteger, hMany, rfl⟩ := Numeral.excess?_eq_some_iff.mp hExcess
        exact .digits hLimit hNumeral hInteger hMany
      · cases h

theorem readValue_eq_excess (h : readValue limits (budget + 1) t = .error (.excess e)) :
    limits.Exceeds 0 t e ∨
    (∃ u inner, t = ('[' : CodePoint) :: u ∧ limits.inner? = some inner ∧
      (skipSpaces u).head? ≠ some (']' : CodePoint) ∧
      readItems inner budget (skipSpaces u) = .error (.excess e)) ∨
    ∃ u inner, t = ('{' : CodePoint) :: u ∧ limits.inner? = some inner ∧
      (skipSpaces u).head? ≠ some ('}' : CodePoint) ∧
      readMembers inner budget (skipSpaces u) = .error (.excess e) := by
  cases t with
  | nil =>
    rw [readValue_nil] at h
    cases h
  | cons c u =>
    rw [readValue] at h
    split at h
    · split at h <;> cases h
    split at h
    · rename_i hc
      subst hc
      split at h
      · rename_i hFull
        cases h
        exact Or.inl (.array (Limits.inner?_eq_none_iff.mp hFull))
      · rename_i inner hInner
        split at h
        · cases h
        · rename_i hClosed
          exact Or.inr (Or.inl ⟨u, inner, rfl, hInner, hClosed, map_eq_error_iff.mp h⟩)
    split at h
    · rename_i hc
      subst hc
      split at h
      · rename_i hFull
        cases h
        exact Or.inl (.object (Limits.inner?_eq_none_iff.mp hFull))
      · rename_i inner hInner
        split at h
        · cases h
        · rename_i hClosed
          exact Or.inr (Or.inr ⟨u, inner, rfl, hInner, hClosed, map_eq_error_iff.mp h⟩)
    · exact Or.inl (readScalar_eq_excess h 0)

theorem readItems_eq_excess (h : readItems limits (budget + 1) t = .error (.excess e)) :
    readValue limits budget t = .error (.excess e) ∨
    ∃ v rest next, readValue limits budget t = .ok (v, rest) ∧
      expect ',' .noComma (skipSpaces rest) = .ok next ∧
      readItems limits budget next = .error (.excess e) := by
  rw [readItems] at h
  split at h
  · rename_i hValue
    cases h
    exact Or.inl hValue
  · rename_i v rest hValue
    split at h
    · cases h
    · split at h
      · cases h
      · rename_i next hNext
        exact Or.inr ⟨v, rest, next, hValue, hNext, map_eq_error_iff.mp h⟩

theorem readMembers_eq_excess (h : readMembers limits (budget + 1) t = .error (.excess e)) :
    ∃ name start, readName t = .ok (name, start) ∧
      (readValue limits budget start = .error (.excess e) ∨
      ∃ v rest next, readValue limits budget start = .ok (v, rest) ∧
        expect ',' .noComma (skipSpaces rest) = .ok next ∧
        readMembers limits budget next = .error (.excess e)) := by
  rw [readMembers] at h
  split at h
  · cases h
  · rename_i name start hName
    refine ⟨name, start, hName, ?_⟩
    split at h
    · rename_i hValue
      cases h
      exact Or.inl hValue
    · rename_i v rest hValue
      split at h
      · cases h
      · split at h
        · cases h
        · rename_i next hNext
          exact Or.inr ⟨v, rest, next, hValue, hNext, map_eq_error_iff.mp h⟩

theorem valueAt_of_readValue {v : Json} {rest : Text} (hBudget : 2 * t.length ≤ budget)
    (h : readValue limits budget t = .ok (v, rest)) : valueAt t = .ok (v, rest) := by
  rw [← readValue_eq_valueAt hBudget]
  rcases (read_curbed budget).1 limits t with hSame | ⟨e, hStop⟩
  · rw [← hSame, h]
  · rw [h] at hStop
    cases hStop

end

/-- A reader that is stopped has come to a value beyond the limit that stopped it. -/
theorem comes_of_excess (b : Nat) :
    (∀ limits t e, 2 * t.length ≤ b → readValue limits b t = .error (.excess e) →
      ∃ depth u, Comes .value t depth u ∧ limits.Exceeds depth u e) ∧
    (∀ limits t e, 2 * t.length < b → readItems limits b t = .error (.excess e) →
      ∃ depth u, Comes .items t depth u ∧ limits.Exceeds depth u e) ∧
    ∀ limits t e, 2 * t.length < b → readMembers limits b t = .error (.excess e) →
      ∃ depth u, Comes .members t depth u ∧ limits.Exceeds depth u e := by
  induction b with
  | zero =>
    refine ⟨fun limits t e _ h => ?_, fun limits t e ht => ?_, fun limits t e ht => ?_⟩
    · rw [readValue] at h
      cases h
    · omega
    · omega
  | succ b ih =>
    obtain ⟨hValues, hItems, hMembers⟩ := ih
    refine ⟨fun limits t e ht h => ?_, fun limits t e ht h => ?_, fun limits t e ht h => ?_⟩
    · rcases readValue_eq_excess h with hHere | ⟨u, inner, rfl, hInner, hOpen, hStop⟩ |
        ⟨u, inner, rfl, hInner, hOpen, hStop⟩
      · exact ⟨0, t, .here t, hHere⟩
      · have hSpaces := length_skipSpaces_le u
        rw [List.length_cons] at ht
        obtain ⟨depth, u', hComes, hExceeds⟩ := hItems inner _ e (by omega) hStop
        exact ⟨depth + 1, u', .array hOpen hComes, (Limits.exceeds_inner hInner).mp hExceeds⟩
      · have hSpaces := length_skipSpaces_le u
        rw [List.length_cons] at ht
        obtain ⟨depth, u', hComes, hExceeds⟩ := hMembers inner _ e (by omega) hStop
        exact ⟨depth + 1, u', .object hOpen hComes, (Limits.exceeds_inner hInner).mp hExceeds⟩
    · rcases readItems_eq_excess h with hStop | ⟨v, rest, next, hValue, hNext, hStop⟩
      · obtain ⟨depth, u, hComes, hExceeds⟩ := hValues limits t e (by omega) hStop
        exact ⟨depth, u, .item hComes, hExceeds⟩
      · -- What stands in front was read under the limits, so it is read without them as well.
        have hShorter := length_after_comma hValue hNext
        obtain ⟨depth, u, hComes, hExceeds⟩ := hItems limits next e (by omega) hStop
        exact ⟨depth, u, .nextItem (valueAt_of_readValue (by omega) hValue) hNext hComes, hExceeds⟩
    · obtain ⟨name, start, hName, hStop | ⟨v, rest, next, hValue, hNext, hStop⟩⟩ :=
        readMembers_eq_excess h
      · have hStart := length_readName hName
        obtain ⟨depth, u, hComes, hExceeds⟩ := hValues limits start e (by omega) hStop
        exact ⟨depth, u, .member hName hComes, hExceeds⟩
      · have hStart := length_readName hName
        have hShorter := length_after_comma hValue hNext
        obtain ⟨depth, u, hComes, hExceeds⟩ := hMembers limits next e (by omega) hStop
        exact ⟨depth, u, .nextMember hName (valueAt_of_readValue (by omega) hValue) hNext hComes,
          hExceeds⟩

theorem readValue_of_exceeds {limits : Limits} {u : Text} {e : Excess} (h : limits.Exceeds 0 u e)
    (b : Nat) : readValue limits (b + 1) u = .error (.excess e) := by
  cases h with
  | @digits limit _ _ rest n hLimit hNumeral hInteger hMany =>
    obtain ⟨-, c, tail, rfl, hStart⟩ := of_readNumeral?_eq_some hNumeral
    have hExcess : n.excess? limits = some (.digits limit n.digits.length) :=
      Numeral.excess?_eq_some_iff.mpr ⟨limit, hLimit, hInteger, hMany, rfl⟩
    have hScalar :
        readScalar limits (c :: tail) = .error (.excess (.digits limit n.digits.length)) := by
      rw [readScalar, find?_words hStart, hNumeral]
      simp only [hExcess]
    -- A number starts with none of the characters that tell a string, an array or an object.
    have hOther : ∀ d : CodePoint, d.isDigit = false → d ≠ ('-' : CodePoint) → c ≠ d := by
      rintro d hDigit hMinus rfl
      rcases hStart with hc | ⟨hc, -⟩
      · rw [hDigit] at hc
        cases hc
      · exact hMinus hc
    rw [readValue, if_neg (hOther _ rfl (by decide)), if_neg (hOther _ rfl (by decide)),
      if_neg (hOther _ rfl (by decide)), hScalar]
  | array hFull =>
    rw [readValue, if_neg (by decide), if_pos rfl, Limits.inner?_eq_none_iff.mpr hFull]
  | object hFull =>
    rw [readValue, if_neg (by decide), if_neg (by decide), if_pos rfl,
      Limits.inner?_eq_none_iff.mpr hFull]

theorem Limits.Exceeds.length_pos {limits : Limits} {depth : Nat} {u : Text} {e : Excess}
    (h : limits.Exceeds depth u e) : 0 < u.length := by
  cases h with
  | digits _ hNumeral =>
    obtain ⟨hShorter, -⟩ := of_readNumeral?_eq_some hNumeral
    omega
  | array _ => exact Nat.succ_pos _
  | object _ => exact Nat.succ_pos _

def Site.Stopped (limits : Limits) (b : Nat) (t : Text) : Site → Prop
  | value => ∃ e, readValue limits b t = .error (.excess e)
  | items => ∃ e, readItems limits b t = .error (.excess e)
  | members => ∃ e, readMembers limits b t = .error (.excess e)

/-- What a site takes of the budget before it comes to a value. -/
def Site.cost : Site → Nat
  | value => 0
  | items => 1
  | members => 1

theorem head?_of_expect {c : CodePoint} {kind : FaultKind} {t next : Text}
    (h : expect c kind t = .ok next) : t.head? = some c := by
  rw [expect] at h
  split at h
  · assumption
  · cases h

theorem readItems_of_next {limits : Limits} {b : Nat} {t rest next : Text} {v : Json} {e : Excess}
    (hValue : readValue limits b t = .ok (v, rest))
    (hNext : expect ',' .noComma (skipSpaces rest) = .ok next)
    (hStop : readItems limits b next = .error (.excess e)) :
    readItems limits (b + 1) t = .error (.excess e) := by
  have hOpen : (skipSpaces rest).head? ≠ some (']' : CodePoint) := by
    rw [head?_of_expect hNext]
    decide
  rw [readItems, hValue]
  simp only [if_neg hOpen, hNext, hStop]
  rfl

theorem readMembers_of_next {limits : Limits} {b : Nat} {t name start rest next : Text} {v : Json}
    {e : Excess} (hName : readName t = .ok (name, start))
    (hValue : readValue limits b start = .ok (v, rest))
    (hNext : expect ',' .noComma (skipSpaces rest) = .ok next)
    (hStop : readMembers limits b next = .error (.excess e)) :
    readMembers limits (b + 1) t = .error (.excess e) := by
  have hOpen : (skipSpaces rest).head? ≠ some ('}' : CodePoint) := by
    rw [head?_of_expect hNext]
    decide
  rw [readMembers, hName]
  simp only [hValue, if_neg hOpen, hNext, hStop]
  rfl

/-- A value that comes before a place is read, unless the reader is stopped in it. -/
theorem readValue_or_stopped {t rest : Text} {v : Json} (h : valueAt t = .ok (v, rest))
    (limits : Limits) {b : Nat} (hb : 2 * t.length ≤ b) :
    readValue limits b t = .ok (v, rest) ∨ ∃ e, readValue limits b t = .error (.excess e) := by
  rw [← h, ← readValue_eq_valueAt hb]
  exact (read_curbed b).1 limits t

/-- A reader that would come to a value beyond a limit is stopped, there or before. -/
theorem stopped_of_comes {site : Site} {t u : Text} {depth : Nat} (h : Comes site t depth u)
    {e : Excess} : ∀ (limits : Limits) (b : Nat), limits.Exceeds depth u e →
      2 * t.length + site.cost ≤ b → site.Stopped limits b t := by
  -- The limits stay free: inside a bracket they leave room for one less, as the value is one less
  -- deep there.
  induction h with
  | here u =>
    intro limits b hExceeds hb
    have hPos := hExceeds.length_pos
    obtain ⟨b, rfl⟩ : ∃ n, b = n + 1 := ⟨b - 1, by omega⟩
    exact ⟨e, readValue_of_exceeds hExceeds b⟩
  | @array t u depth hOpen _ ih =>
    intro limits b hExceeds hb
    have hSpaces := length_skipSpaces_le t
    simp only [Site.cost, List.length_cons] at ih hb
    obtain ⟨b, rfl⟩ : ∃ n, b = n + 1 := ⟨b - 1, by omega⟩
    cases hInner : limits.inner? with
    | none =>
      exact ⟨_, readValue_of_exceeds (.array (Limits.inner?_eq_none_iff.mp hInner)) b⟩
    | some inner =>
      obtain ⟨e', hStop⟩ := ih inner b ((Limits.exceeds_inner hInner).mpr hExceeds) (by omega)
      refine ⟨e', ?_⟩
      rw [readValue_bracket hInner, if_neg hOpen, hStop]
      rfl
  | @object t u depth hOpen _ ih =>
    intro limits b hExceeds hb
    have hSpaces := length_skipSpaces_le t
    simp only [Site.cost, List.length_cons] at ih hb
    obtain ⟨b, rfl⟩ : ∃ n, b = n + 1 := ⟨b - 1, by omega⟩
    cases hInner : limits.inner? with
    | none =>
      exact ⟨_, readValue_of_exceeds (.object (Limits.inner?_eq_none_iff.mp hInner)) b⟩
    | some inner =>
      obtain ⟨e', hStop⟩ := ih inner b ((Limits.exceeds_inner hInner).mpr hExceeds) (by omega)
      refine ⟨e', ?_⟩
      rw [readValue_brace hInner, if_neg hOpen, hStop]
      rfl
  | @item t u depth _ ih =>
    intro limits b hExceeds hb
    simp only [Site.cost] at ih hb
    obtain ⟨b, rfl⟩ : ∃ n, b = n + 1 := ⟨b - 1, by omega⟩
    obtain ⟨e', hStop⟩ := ih limits b hExceeds (by omega)
    exact ⟨e', by rw [readItems, hStop]⟩
  | @nextItem t rest next u v depth hValue hNext _ ih =>
    intro limits b hExceeds hb
    simp only [Site.cost] at ih hb
    have hShorter := length_after_comma hValue hNext
    obtain ⟨b, rfl⟩ : ∃ n, b = n + 1 := ⟨b - 1, by omega⟩
    rcases readValue_or_stopped hValue limits (b := b) (by omega) with hRead | ⟨e', hStop⟩
    · obtain ⟨e', hStop⟩ := ih limits b hExceeds (by omega)
      exact ⟨e', readItems_of_next hRead hNext hStop⟩
    · exact ⟨e', by rw [readItems, hStop]⟩
  | @member t name start u depth hName _ ih =>
    intro limits b hExceeds hb
    simp only [Site.cost] at ih hb
    have hStart := length_readName hName
    obtain ⟨b, rfl⟩ : ∃ n, b = n + 1 := ⟨b - 1, by omega⟩
    obtain ⟨e', hStop⟩ := ih limits b hExceeds (by omega)
    exact ⟨e', by simp only [readMembers, hName, hStop]⟩
  | @nextMember t name start rest next u v depth hName hValue hNext _ ih =>
    intro limits b hExceeds hb
    simp only [Site.cost] at ih hb
    have hStart := length_readName hName
    have hShorter := length_after_comma hValue hNext
    obtain ⟨b, rfl⟩ : ∃ n, b = n + 1 := ⟨b - 1, by omega⟩
    rcases readValue_or_stopped hValue limits (b := b) (by omega) with hRead | ⟨e', hStop⟩
    · obtain ⟨e', hStop⟩ := ih limits b hExceeds (by omega)
      exact ⟨e', readMembers_of_next hName hRead hNext hStop⟩
    · exact ⟨e', by simp only [readMembers, hName, hStop]⟩

/-! ## Whole texts -/

/-- Reading the text comes to a value that is beyond a limit. -/
def GoesBeyond (limits : Limits) (t : Text) (e : Excess) : Prop :=
  ∃ depth u, Comes .value (skipSpaces t) depth u ∧ limits.Exceeds depth u e

/-- No value starts with a byte order mark, so nothing behind one is read. -/
theorem not_goesBeyond_of_mark {limits : Limits} {t : Text} {e : Excess}
    (h : t.head? = some (.ofNat 0xFEFF)) : ¬ GoesBeyond limits t e := by
  rintro ⟨depth, u, hComes, hExceeds⟩
  cases t with
  | nil => cases h
  | cons c t =>
    cases h
    have hSpaces : skipSpaces (CodePoint.ofNat 0xFEFF :: t) = .ofNat 0xFEFF :: t :=
      List.dropWhile_cons_of_neg (by decide)
    rw [hSpaces] at hComes
    cases hComes with
    | here =>
      cases hExceeds with
      | digits _ hNumeral =>
        obtain ⟨-, c, tail, hEq, hStart⟩ := of_readNumeral?_eq_some hNumeral
        cases hEq
        rcases hStart with hc | ⟨hc, -⟩
        · cases hc
        · exact absurd hc (by decide)

theorem parse_curbed (limits : Limits) (t : Text) : Curbed (parse limits t) (parse {} t) := by
  rw [parse, parse, readText, readText]
  split
  · exact .refl _
  · rcases (read_curbed (2 * t.length + 2)).1 limits (skipSpaces t) with hSame | ⟨e, hStop⟩
    · rw [hSame]
      exact .refl _
    · rw [hStop]
      exact Or.inr ⟨e, rfl⟩

theorem parse_eq_excess_iff {limits : Limits} {t : Text} {e : Excess} :
    parse limits t = .error (.excess e) ↔ t.head? ≠ some (.ofNat 0xFEFF) ∧
      readValue limits (2 * t.length + 2) (skipSpaces t) = .error (.excess e) := by
  have hMap : ∀ failure : Failure Fault,
      failure.map (Fault.complaint t) = .excess e ↔ failure = .excess e := by
    intro failure
    cases failure with
    | refused fault => exact iff_of_false nofun nofun
    | excess e' => simp only [Failure.map, Failure.excess.injEq]
  rw [parse, mapError_eq_error_iff]
  simp only [hMap, exists_eq_right]
  rw [readText]
  split
  · rename_i hMark
    simp [hMark]
  · rename_i hMark
    split
    · rename_i hFailure
      simp [hMark, hFailure]
    · rename_i hValue
      split <;> simp [hValue]

/-- What stops a text is a limit that it goes beyond, -/
theorem goesBeyond_of_parse {limits : Limits} {t : Text} {e : Excess}
    (h : parse limits t = .error (.excess e)) : GoesBeyond limits t e := by
  have hSpaces := length_skipSpaces_le t
  exact (comes_of_excess _).1 _ _ _ (by omega) (parse_eq_excess_iff.mp h).2

/-- **and every text that goes beyond a limit is stopped**, though maybe by one that it comes to
before. -/
theorem parse_excess_iff {limits : Limits} {t : Text} :
    (∃ e, parse limits t = .error (.excess e)) ↔ ∃ e, GoesBeyond limits t e := by
  constructor
  · rintro ⟨e, h⟩
    exact ⟨e, goesBeyond_of_parse h⟩
  · rintro ⟨e, hBeyond⟩
    have hMark : t.head? ≠ some (.ofNat 0xFEFF) := fun hMark => not_goesBeyond_of_mark hMark hBeyond
    obtain ⟨depth, u, hComes, hExceeds⟩ := hBeyond
    have hSpaces := length_skipSpaces_le t
    obtain ⟨e', hStop⟩ := stopped_of_comes hComes limits (2 * t.length + 2) hExceeds
      (by simp only [Site.cost]; omega)
    exact ⟨e', parse_eq_excess_iff.mpr ⟨hMark, hStop⟩⟩

end CustomProperties.Json
