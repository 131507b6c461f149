import CustomProperties.EditDocument
import CustomProperties.Proofs.JsonLimits
import CustomProperties.Proofs.JsonValue

/-!
# What an edit document says

A document gives its edits flat, or under a member `edits` of an outer object, and `edits` may
itself be the name of a property.  What tells the two apart is the kind of that member alone: if it
is an object, its members are the edits, and else those of the whole document (`Holds`).  The edits
are then read in order, up to the first that is not a text.

The edits are a map because objects are: a name that is given twice is one member.

Not every text without edits is refused.  One that goes beyond a limit of the JSON reader has no
reason that is an error of the document, and whoever reads it has to deal with the reader's failure.

* `texts_eq_ok_iff`, `texts_eq_error_iff`: the members, for each outcome.
* `read_cases`: what a text can be.
* `parse_onlyOnes`: an object with a long integer in it, for all lengths and limits.
* `read_outcomes`: **what a text says as an edit document.**
-/

namespace CustomProperties

namespace EditDocument

/-! ## Members that are texts -/

def textMembers (edits : Entries Text Text) : List (Text × Json) :=
  edits.map fun edit => (edit.1, .str edit.2)

theorem texts_cons_of_ne {value : Json} (h : ∀ text, value ≠ .str text) (name : Text)
    (members : List (Text × Json)) :
    texts ((name, value) :: members) = .error (.notText name value) := by
  cases value with
  | str text => exact absurd rfl (h text)
  | _ => rfl

theorem get?_textMembers (edits : Entries Text Text) (name : Text) :
    Entries.get? (textMembers edits) name = (edits.get? name).map .str := by
  induction edits with
  | nil => rfl
  | cons edit edits ih =>
    rw [textMembers, List.map_cons, Entries.get?, Entries.get?]
    split
    · rfl
    · exact ih

theorem texts_textMembers (edits : Entries Text Text) :
    texts (textMembers edits) = .ok edits := by
  induction edits with
  | nil => rfl
  | cons edit edits ih =>
    rw [textMembers] at ih
    rw [textMembers, List.map_cons, texts, ih]
    rfl

theorem texts_textMembers_append (edits : Entries Text Text) (name : Text) {bad : Json}
    (hBad : ∀ text, bad ≠ .str text) (later : List (Text × Json)) :
    texts (textMembers edits ++ (name, bad) :: later) = .error (.notText name bad) := by
  induction edits with
  | nil => exact texts_cons_of_ne hBad name later
  | cons edit edits ih =>
    rw [textMembers] at ih
    rw [textMembers, List.map_cons, List.cons_append, texts, ih]
    rfl

theorem eq_textMembers_or (members : List (Text × Json)) :
    (∃ edits, members = textMembers edits) ∨
      ∃ edits name bad later, members = textMembers edits ++ (name, bad) :: later ∧
        ∀ text, bad ≠ .str text := by
  induction members with
  | nil => exact Or.inl ⟨[], rfl⟩
  | cons member members ih =>
    obtain ⟨name, value⟩ := member
    by_cases hText : ∃ text, value = .str text
    · obtain ⟨text, rfl⟩ := hText
      rcases ih with ⟨edits, rfl⟩ | ⟨edits, other, bad, later, rfl, hBad⟩
      · exact Or.inl ⟨(name, text) :: edits, rfl⟩
      · exact Or.inr ⟨(name, text) :: edits, other, bad, later, rfl, hBad⟩
    · exact Or.inr ⟨[], name, value, members, rfl, fun text hValue => hText ⟨text, hValue⟩⟩

theorem texts_eq_ok_iff {members : List (Text × Json)} {edits : Entries Text Text} :
    texts members = .ok edits ↔ members = textMembers edits := by
  constructor
  · intro h
    rcases eq_textMembers_or members with ⟨edits', rfl⟩ | ⟨edits', name, bad, later, rfl, hBad⟩
    · rw [texts_textMembers] at h
      cases h
      rfl
    · rw [texts_textMembers_append _ _ hBad] at h
      cases h
  · rintro rfl
    exact texts_textMembers edits

theorem texts_eq_error_iff {members : List (Text × Json)} {e : EditError} :
    texts members = .error e ↔
      ∃ edits name bad later, members = textMembers edits ++ (name, bad) :: later ∧
        (∀ text, bad ≠ .str text) ∧ e = .notText name bad := by
  constructor
  · intro h
    rcases eq_textMembers_or members with ⟨edits, rfl⟩ | ⟨edits, name, bad, later, rfl, hBad⟩
    · rw [texts_textMembers] at h
      cases h
    · rw [texts_textMembers_append _ _ hBad] at h
      cases h
      exact ⟨edits, name, bad, later, rfl, hBad, rfl⟩
  · rintro ⟨edits, name, bad, later, rfl, hBad, rfl⟩
    exact texts_textMembers_append edits name hBad later

/-! ## The members that are the edits -/

/-- The members of a document that are its edits: those of the object under `edits`, if there is an
object, and else its own. -/
inductive Holds : Json → List (Text × Json) → Prop
  | inner {outer members : List (Text × Json)} :
      Entries.get? outer "edits" = some (.obj members) → Holds (.obj outer) members
  | whole {members : List (Text × Json)} :
      (∀ inner, Entries.get? members "edits" ≠ some (.obj inner)) → Holds (.obj members) members

theorem body_of_holds {value : Json} {members : List (Text × Json)} (h : Holds value members) :
    body value = .obj members := by
  cases h with
  | inner hInner =>
    rw [body, Json.member?, hInner]
  | whole hNone =>
    rw [body, Json.member?]
    split
    · rename_i inner hInner
      exact absurd hInner (hNone inner)
    · rfl

theorem exists_holds (outer : List (Text × Json)) : ∃ members, Holds (.obj outer) members := by
  by_cases hInner : ∃ members, Entries.get? outer "edits" = some (.obj members)
  · obtain ⟨members, hMembers⟩ := hInner
    exact ⟨members, .inner hMembers⟩
  · exact ⟨outer, .whole fun inner h => hInner ⟨inner, h⟩⟩

theorem ofJson_of_holds {value : Json} {members : List (Text × Json)} (h : Holds value members) :
    ofJson value = texts members := by
  rw [ofJson, body_of_holds h]

theorem ofJson_of_ne {value : Json} (h : ∀ members, value ≠ .obj members) :
    ofJson value = .error (.notObject value) := by
  cases value with
  | obj members => exact absurd rfl (h members)
  | _ => rfl

/-- What holds a map of texts is the map itself or an object with the map under `edits`. -/
theorem holds_textMembers_iff {value : Json} {edits : Entries Text Text} :
    Holds value (textMembers edits) ↔ value = .obj (textMembers edits) ∨
      ∃ outer, value = .obj outer ∧
        Entries.get? outer "edits" = some (.obj (textMembers edits)) := by
  constructor
  · rintro (hInner | hNone)
    · exact Or.inr ⟨_, rfl, hInner⟩
    · exact Or.inl rfl
  · rintro (rfl | ⟨outer, rfl, hInner⟩)
    · -- A text under `edits` is an edit, so the map is not taken for an outer object.
      refine .whole fun inner h => ?_
      rw [get?_textMembers] at h
      obtain ⟨text, -, hText⟩ := Option.map_eq_some_iff.mp h
      cases hText
    · exact .inner hInner

theorem Holds.nodup {value : Json} {members : List (Text × Json)} (h : Holds value members)
    (hValue : value.Distinct) : (members.map Prod.fst).Nodup := by
  cases h with
  | @inner outer _ hInner =>
    cases hValue with
    | obj hNodup hMembers =>
      have hMem := (Entries.get?_eq_some_iff hNodup).mp hInner
      cases hMembers _ hMem with
      | obj hNodup _ => exact hNodup
  | whole _ =>
    cases hValue with
    | obj hNodup _ => exact hNodup

/-! ## Texts -/

/-- Why a text gives no edits: it is no JSON, or not an object, or of the members that are the edits
there is a first one that is not a text. -/
inductive Refused (limits : Json.Limits) (t : Text) : EditError → Prop
  | badJson {complaint : Json.Complaint} :
      Json.parse limits t = .error (.refused complaint) → Refused limits t (.badJson complaint)
  | notObject {value : Json} :
      Json.parse limits t = .ok value → (∀ members, value ≠ .obj members) →
      Refused limits t (.notObject value)
  | notText {value bad : Json} {edits : Entries Text Text} {name : Text}
      {later : List (Text × Json)} :
      Json.parse limits t = .ok value → Holds value (textMembers edits ++ (name, bad) :: later) →
      (∀ text, bad ≠ .str text) → Refused limits t (.notText name bad)

/-- A text goes beyond a limit, or it is no JSON, or not an object, or it holds members that are the
edits. -/
theorem read_cases (limits : Json.Limits) (t : Text) :
    (∃ e, Json.parse limits t = .error (.excess e) ∧ read limits t = .error (.excess e)) ∨
    (∃ complaint, Json.parse limits t = .error (.refused complaint) ∧
      read limits t = .error (.refused (.badJson complaint))) ∨
    (∃ value, Json.parse limits t = .ok value ∧ (∀ members, value ≠ .obj members) ∧
      read limits t = .error (.refused (.notObject value))) ∨
    ∃ value members, Json.parse limits t = .ok value ∧ Holds value members ∧
      read limits t = (texts members).mapError .refused := by
  cases hParse : Json.parse limits t with
  | error failure =>
    have hRead : read limits t = .error (failure.map .badJson) := by rw [read, hParse]
    cases failure with
    | excess e => exact Or.inl ⟨e, rfl, hRead⟩
    | refused complaint => exact Or.inr (Or.inl ⟨complaint, rfl, hRead⟩)
  | ok value =>
    have hRead : read limits t = (ofJson value).mapError .refused := by rw [read, hParse]
    refine Or.inr (Or.inr ?_)
    by_cases hObject : ∃ outer, value = .obj outer
    · obtain ⟨outer, rfl⟩ := hObject
      obtain ⟨members, hHolds⟩ := exists_holds outer
      rw [ofJson_of_holds hHolds] at hRead
      exact Or.inr ⟨_, members, rfl, hHolds, hRead⟩
    · have hne : ∀ members, value ≠ .obj members := fun members h => hObject ⟨members, h⟩
      rw [ofJson_of_ne hne] at hRead
      exact Or.inl ⟨value, rfl, hne, hRead⟩

section

variable {limits : Json.Limits} {t : Text}

theorem read_eq_ok_iff {edits : Entries Text Text} :
    read limits t = .ok edits ↔
      ∃ value, Json.parse limits t = .ok value ∧ Holds value (textMembers edits) := by
  constructor
  · intro hOk
    rcases read_cases limits t with ⟨_, -, hRead⟩ | ⟨_, -, hRead⟩ | ⟨_, -, -, hRead⟩ |
      ⟨value, members, hParse, hHolds, hRead⟩
    · rw [hRead] at hOk
      cases hOk
    · rw [hRead] at hOk
      cases hOk
    · rw [hRead] at hOk
      cases hOk
    · rw [hRead, mapError_eq_ok_iff, texts_eq_ok_iff] at hOk
      exact ⟨value, hParse, hOk ▸ hHolds⟩
  · rintro ⟨value, hParse, hHolds⟩
    rw [read, hParse]
    exact mapError_eq_ok_iff.mpr ((ofJson_of_holds hHolds).trans (texts_textMembers edits))

theorem read_eq_refused_iff {e : EditError} :
    read limits t = .error (.refused e) ↔ Refused limits t e := by
  constructor
  · intro hError
    rcases read_cases limits t with ⟨_, -, hRead⟩ | ⟨_, hParse, hRead⟩ | ⟨_, hParse, hne, hRead⟩ |
      ⟨value, members, hParse, hHolds, hRead⟩
    · rw [hRead] at hError
      cases hError
    · rw [hRead] at hError
      cases hError
      exact .badJson hParse
    · rw [hRead] at hError
      cases hError
      exact .notObject hParse hne
    · rw [hRead, mapError_eq_error_iff] at hError
      obtain ⟨e', hTexts, hEq⟩ := hError
      cases hEq
      obtain ⟨edits, name, bad, later, rfl, hBad, rfl⟩ := texts_eq_error_iff.mp hTexts
      exact .notText hParse hHolds hBad
  · rintro (hParse | ⟨hParse, hne⟩ | ⟨hParse, hHolds, hBad⟩)
    · rw [read, hParse]
      rfl
    · rw [read, hParse]
      exact mapError_eq_error_iff.mpr ⟨_, ofJson_of_ne hne, rfl⟩
    · rw [read, hParse]
      exact mapError_eq_error_iff.mpr
        ⟨_, (ofJson_of_holds hHolds).trans (texts_textMembers_append _ _ hBad _), rfl⟩

theorem read_eq_excess_iff {e : Json.Excess} :
    read limits t = .error (.excess e) ↔ Json.parse limits t = .error (.excess e) := by
  rcases read_cases limits t with ⟨_, hParse, hRead⟩ | ⟨_, hParse, hRead⟩ | ⟨_, hParse, -, hRead⟩ |
    ⟨_, members, hParse, -, hRead⟩
  · simp [hParse, hRead]
  · simp [hParse, hRead]
  · simp [hParse, hRead]
  · rw [hRead, hParse, mapError_eq_error_iff]
    simp

end

theorem not_prefix_append {t u : Text} (h : ∃ c d, t.head? = some c ∧ u.head? = some d ∧ c ≠ d)
    (rest : Text) : ¬ t <+: u ++ rest := by
  obtain ⟨c, d, ht, hu, hne⟩ := h
  rintro ⟨more, hMore⟩
  have hHead := congrArg List.head? hMore
  rw [List.head?_append, List.head?_append, ht, hu] at hHead
  exact hne (Option.some.inj hHead)

theorem Refused.invalid_iff {limits : Json.Limits} {t : Text} {e : EditError}
    (h : Refused limits t e) :
    ("Invalid JSON: " : Text) <+: e.message ↔
      ∃ complaint, Json.parse limits t = .error (.refused complaint) := by
  cases h with
  | @badJson complaint hParse => exact iff_of_true (List.prefix_append _ _) ⟨complaint, hParse⟩
  | notObject hParse _ =>
    refine iff_of_false (not_prefix_append ⟨_, _, rfl, rfl, by decide⟩ _) ?_
    simp [hParse]
  | notText hParse _ _ =>
    refine iff_of_false (not_prefix_append ⟨_, _, rfl, rfl, by decide⟩ _) ?_
    simp [hParse]

theorem Refused.expected_iff {limits : Json.Limits} {t : Text} {e : EditError}
    (h : Refused limits t e) :
    ("Expected a JSON object, got " : Text) <+: e.message ↔
      ∃ value, Json.parse limits t = .ok value ∧ ∀ members, value ≠ .obj members := by
  cases h with
  | badJson hParse =>
    refine iff_of_false (not_prefix_append ⟨_, _, rfl, rfl, by decide⟩ _) ?_
    simp [hParse]
  | @notObject value hParse hne =>
    exact iff_of_true (List.prefix_append _ _) ⟨value, hParse, hne⟩
  | notText hParse hHolds _ =>
    refine iff_of_false (not_prefix_append ⟨_, _, rfl, rfl, by decide⟩ _) ?_
    rintro ⟨value, hValue, hne⟩
    rw [hParse] at hValue
    cases hValue
    cases hHolds with
    | inner _ => exact hne _ rfl
    | whole _ => exact hne _ rfl

theorem nodup_of_read {limits : Json.Limits} {t : Text} {edits : Entries Text Text}
    (h : read limits t = .ok edits) : (edits.map Prod.fst).Nodup := by
  obtain ⟨value, hParse, hHolds⟩ := read_eq_ok_iff.mp h
  have hNodup := hHolds.nodup (Json.distinct_of_parse hParse)
  rwa [textMembers, List.map_map] at hNodup

theorem read_of_not_goesBeyond {limits : Json.Limits} {t : Text}
    (h : ∀ e, ¬ Json.GoesBeyond limits t e) : read limits t = read {} t := by
  rcases Json.parse_curbed limits t with hSame | ⟨e, hStop⟩
  · rw [read, read, hSame]
  · exact absurd (Json.goesBeyond_of_parse hStop) (h e)

/-! ## A document beyond a limit -/

/-- The number that is written with `n + 1` ones. -/
def ones (n : Nat) : Json.Numeral := ⟨false, List.replicate (n + 1) ('1' : CodePoint), [], []⟩

def onlyOnes (name : Text) (n : Nat) : Text :=
  ('\x7b' : CodePoint) :: (Json.writeString name ++ ": " ++ ((ones n).digits ++ "\x7d"))

section

open Json

theorem digits_ones_append (n : Nat) (rest : Text) : (ones n).digits ++ rest
    = ('1' : CodePoint) :: (List.replicate n ('1' : CodePoint) ++ rest) := rfl

theorem readNumeral?_ones (n : Nat) {rest : Text} (h : EndsNumber rest) :
    readNumeral? ((ones n).digits ++ rest) = some (ones n, rest) := by
  have hSign : ((ones n).digits ++ rest).head? ≠ some ('-' : CodePoint) := by
    rw [digits_ones_append, List.head?_cons]
    decide
  have hDigits : integerDigits ((ones n).digits ++ rest) = (ones n).digits := by
    have hOnes : ∀ c ∈ (ones n).digits, c.isDigit = true := by
      intro c hc
      rw [List.eq_of_mem_replicate hc]
      rfl
    refine Eq.trans ?_ (takeWhile_isDigit hOnes h)
    rw [digits_ones_append, integerDigits.eq_def]
    exact if_neg (by decide)
  have hSome : (ones n).digits.isEmpty = false := rfl
  simp only [readNumeral?, if_neg hSign, hDigits, hSome, List.drop_left, fractionLength_eq_zero h,
    exponentLength_eq_zero h, List.take_zero, List.length_nil, List.drop_zero, Bool.false_eq_true,
    if_false, decide_eq_false hSign]
  rfl

theorem readValue_ones (limits : Limits) (n b : Nat) {rest : Text} (h : EndsNumber rest) :
    readValue limits (b + 1) ((ones n).digits ++ rest)
      = ((ones n).excess? limits).elim (.ok ((ones n).value, rest))
        fun e => .error (.excess e) := by
  rw [digits_ones_append, readValue, if_neg (by decide), if_neg (by decide), if_neg (by decide),
    readScalar, find?_words (Or.inl rfl), ← digits_ones_append]
  simp only [readNumeral?_ones n h]
  cases (ones n).excess? limits with
  | none => rfl
  | some e => rfl

theorem excess?_ones {limits : Limits} {limit n : Nat} (hLimit : limits.digits = some limit)
    (hMany : limit < n + 1) : (ones n).excess? limits = some (.digits limit (n + 1)) := by
  have hLength : (ones n).digits.length = n + 1 := List.length_replicate
  refine Numeral.excess?_eq_some_iff.mpr ⟨limit, hLimit, rfl, ?_, ?_⟩
  · rwa [hLength]
  · rw [hLength]

theorem parse_onlyOnes {limits inner : Limits} (hInner : limits.inner? = some inner) (name : Text)
    (n : Nat) :
    parse limits (onlyOnes name n)
      = ((ones n).excess? inner).elim (.ok (.obj [(name.joinSurrogates, (ones n).value)]))
        fun e => .error (.excess e) := by
  have hBrace : EndsNumber "\x7d" := by
    rintro c ⟨⟩
    decide
  have hName : readName (writeString name ++ ": " ++ ((ones n).digits ++ "\x7d"))
      = .ok (name.joinSurrogates, (ones n).digits ++ "\x7d") := by
    refine readName_writeString name ?_
    rintro c ⟨⟩
    decide
  have hHead : ∀ c ∈ (writeString name ++ ": " ++ ((ones n).digits ++ "\x7d")).head?,
      isSpace c = false := by
    rintro c ⟨⟩
    decide
  obtain ⟨b, hb⟩ : ∃ b, 2 * (onlyOnes name n).length + 2 = b + 3 :=
    ⟨2 * (onlyOnes name n).length - 1, by simp only [onlyOnes, List.length_cons]; omega⟩
  have hMark : (onlyOnes name n).head? ≠ some (.ofNat 0xFEFF) := by
    rw [onlyOnes, List.head?_cons]
    decide
  have hSpaces : skipSpaces (onlyOnes name n) = onlyOnes name n := rfl
  have hOpen : (writeString name ++ ": " ++ ((ones n).digits ++ "\x7d")).head?
      ≠ some ('\x7d' : CodePoint) := by
    rintro ⟨⟩
  rw [parse, readText, if_neg hMark, hSpaces, hb, onlyOnes, readValue_brace hInner,
    skipSpaces_of_head hHead, if_neg hOpen, readMembers, hName]
  simp only [readValue_ones inner n b hBrace]
  cases (ones n).excess? inner with
  | none => rfl
  | some e => rfl

end

/-! ## Every text -/

/-- **What a text says as an edit document.**  It gives the edits exactly if it is the object of
these texts, or an object with that object under `edits`, and they have different names.  It is
refused for what is wrong with it as JSON, or as a value that is not an object, and the wording
tells which, or else for the first of the members in question that is not a text.  There is one more
outcome: a text that goes beyond a limit of the JSON reader is not refused, whatever is wrong with
it, and the reader's failure is what comes of it.  This happens to no other text, and all others
are read as if there were no limits. -/
theorem read_outcomes (limits : Json.Limits) (t : Text) :
    (∀ edits, read limits t = .ok edits ↔
      Json.parse limits t = .ok (.obj (textMembers edits)) ∨
        ∃ outer, Json.parse limits t = .ok (.obj outer) ∧
          Entries.get? outer "edits" = some (.obj (textMembers edits))) ∧
    (∀ edits, read limits t = .ok edits → (edits.map Prod.fst).Nodup) ∧
    (∀ e, read limits t = .error (.refused e) ↔ Refused limits t e) ∧
    (∀ e, read limits t = .error (.refused e) →
      (("Invalid JSON: " : Text) <+: e.message ↔
        ∃ complaint, Json.parse limits t = .error (.refused complaint)) ∧
      (("Expected a JSON object, got " : Text) <+: e.message ↔
        ∃ value, Json.parse limits t = .ok value ∧ ∀ members, value ≠ .obj members)) ∧
    (∀ e, read limits t = .error (.excess e) ↔ Json.parse limits t = .error (.excess e)) ∧
    (∀ e, read limits t = .error (.excess e) → Json.GoesBeyond limits t e) ∧
    ((∃ e, read limits t = .error (.excess e)) ↔ ∃ e, Json.GoesBeyond limits t e) ∧
    ((∀ e, ¬ Json.GoesBeyond limits t e) → read limits t = read {} t) := by
  refine ⟨fun edits => ?_, fun edits => nodup_of_read, fun e => read_eq_refused_iff, fun e he => ?_,
    fun e => read_eq_excess_iff, fun e he => ?_, ?_, read_of_not_goesBeyond⟩
  · rw [read_eq_ok_iff]
    simp only [holds_textMembers_iff]
    constructor
    · rintro ⟨value, hParse, rfl | ⟨outer, rfl, hInner⟩⟩
      · exact Or.inl hParse
      · exact Or.inr ⟨outer, hParse, hInner⟩
    · rintro (hParse | ⟨outer, hParse, hInner⟩)
      · exact ⟨_, hParse, Or.inl rfl⟩
      · exact ⟨_, hParse, Or.inr ⟨outer, rfl, hInner⟩⟩
  · have hRefused := read_eq_refused_iff.mp he
    exact ⟨hRefused.invalid_iff, hRefused.expected_iff⟩
  · exact Json.goesBeyond_of_parse (read_eq_excess_iff.mp he)
  · simp only [read_eq_excess_iff]
    exact Json.parse_excess_iff

/-- One member that is not a text, and yet no error of the document: its integer is too long to be
read. -/
theorem read_beyond_digits :
    let t := ("\x7b\"c\": " : Text) ++ (List.replicate 5000 ('1' : CodePoint) ++ "\x7d")
    read (.standard 980) t = .error (.excess (.digits 4300 5000)) ∧
      ∃ value, read {} t = .error (.refused (.notText "c" value)) := by
  have hText : ("\x7b\"c\": " : Text) ++ (List.replicate 5000 ('1' : CodePoint) ++ "\x7d")
      = onlyOnes "c" 4999 := rfl
  have hStandard : (Json.Limits.standard 980).inner? = some (.standard 979) := rfl
  have hFree : ({} : Json.Limits).inner? = some {} := rfl
  rw [hText]
  refine ⟨?_, (ones 4999).value, ?_⟩
  · rw [read_eq_excess_iff, parse_onlyOnes hStandard, excess?_ones rfl (by decide),
      Option.elim_some]
  · rw [read, parse_onlyOnes hFree]
    rfl

-- The object under `edits` counts, and in it `edits` is a name like any other.
example : (read {} "\x7b\"edits\":\x7b\"a\":\"1\",\"edits\":\"2\"\x7d,\"b\":3\x7d").toOption
    = some [(("a" : Text), ("1" : Text)), ("edits", "2")] := by decide +kernel

end EditDocument

end CustomProperties
