import CustomProperties.Proofs.Entries
import CustomProperties.Proofs.JsonReader

/-!
# JSON values read back

What is written of a value reads as the value, with the surrogate pairs of its strings joined
(`joined`), in every layout: the layouts differ only in the spaces that the reader skips.  `Reads`
says of a text that it reads as a value wherever it stands.  It is shown for a value from its parts;
for the items of an array and the members of an object the reader's budget has to be watched, which
twice the length of the text covers.

The value has to be within the reader's limits (`Fits`).  Doubles are left out: their decimals are
another matter.

* `reads_write`: what is written of a value reads as it.
* `parse_render`: **a written value is parsed back.**
* `ascii_write`: what is written is ASCII.
-/

namespace CustomProperties

/-! ## Joined texts -/

namespace Text

theorem joinWith_singleton (separator t : Text) : joinWith separator [t] = t := by
  simp [joinWith]

theorem joinWith_cons_cons (separator t u : Text) (parts : List Text) :
    joinWith separator (t :: u :: parts)
      = t ++ (separator ++ joinWith separator (u :: parts)) := by
  simp [joinWith]

theorem exists_joinWith_cons (separator t : Text) (parts : List Text) (rest : Text) :
    ∃ tail, joinWith separator (t :: parts) ++ rest = t ++ tail := by
  cases parts with
  | nil => exact ⟨rest, by rw [joinWith_singleton]⟩
  | cons u parts => exact ⟨_, by rw [joinWith_cons_cons, List.append_assoc]⟩

theorem mem_joinWith {separator : Text} {parts : List Text} {c : CodePoint}
    (h : c ∈ joinWith separator parts) : c ∈ separator ∨ ∃ t ∈ parts, c ∈ t := by
  induction parts with
  | nil => cases h
  | cons t parts ih =>
    cases parts with
    | nil =>
      rw [joinWith_singleton] at h
      exact Or.inr ⟨t, List.mem_cons_self, h⟩
    | cons u parts =>
      rw [joinWith_cons_cons, List.mem_append, List.mem_append] at h
      rcases h with h | h | h
      · exact Or.inr ⟨t, List.mem_cons_self, h⟩
      · exact Or.inl h
      · exact (ih h).imp_right fun ⟨v, hv, hc⟩ => ⟨v, List.mem_cons_of_mem t hv, hc⟩

end Text

namespace Json

/-- No number in the value is a double, no integer has too many digits, and the brackets are not too
deep. -/
inductive Fits : Limits → Json → Prop
  | null {limits : Limits} : Fits limits null
  | bool {limits : Limits} (b : Bool) : Fits limits (bool b)
  | int {limits : Limits} {i : Int} : limits.AllowsInt i → Fits limits (int i)
  | str {limits : Limits} (t : Text) : Fits limits (str t)
  | arr {limits inner : Limits} {items : List Json} : limits.inner? = some inner →
      (∀ v ∈ items, Fits inner v) → Fits limits (arr items)
  | obj {limits inner : Limits} {members : List (Text × Json)} : limits.inner? = some inner →
      (∀ m ∈ members, Fits inner m.2) → Fits limits (obj members)

mutual

/-- The value with the surrogate pairs of its strings joined.  Members whose names become the same
are one member. -/
def joined : Json → Json
  | null => null
  | bool b => bool b
  | int i => int i
  | real x => real x
  | str t => str t.joinSurrogates
  | arr items => arr (joinedItems items)
  | obj members => obj (Entries.ofPairs (joinedMembers members))

def joinedItems : List Json → List Json
  | [] => []
  | item :: items => joined item :: joinedItems items

def joinedMembers : List (Text × Json) → List (Text × Json)
  | [] => []
  | (name, value) :: members => (name.joinSurrogates, joined value) :: joinedMembers members

end

theorem joinedItems_eq_map (items : List Json) : joinedItems items = items.map joined := by
  induction items with
  | nil => rw [joinedItems, List.map_nil]
  | cons item items ih => rw [joinedItems, ih, List.map_cons]

theorem joinedMembers_eq_map (members : List (Text × Json)) :
    joinedMembers members = members.map fun m => (m.1.joinSurrogates, m.2.joined) := by
  induction members with
  | nil => rw [joinedMembers, List.map_nil]
  | cons member members ih => rw [joinedMembers, ih, List.map_cons]

theorem writeItems_eq_map (layout : Layout) (level : Nat) (items : List Json) :
    writeItems layout level items = items.map (write layout level) := by
  induction items with
  | nil => rw [writeItems, List.map_nil]
  | cons item items ih => rw [writeItems, ih, List.map_cons]

theorem writeMembers_eq_map (layout : Layout) (level : Nat) (members : List (Text × Json)) :
    writeMembers layout level members
      = members.map fun m => writeString m.1 ++ ": " ++ write layout level m.2 := by
  induction members with
  | nil => rw [writeMembers, List.map_nil]
  | cons member members ih => rw [writeMembers, ih, List.map_cons]

/-! ## Spaces -/

def Spaces (t : Text) : Prop := ∀ c ∈ t, isSpace c = true

theorem skipSpaces_of_head {t : Text} (h : ∀ c ∈ t.head?, isSpace c = false) :
    skipSpaces t = t := by
  cases t with
  | nil => rfl
  | cons c t => exact List.dropWhile_cons_of_neg (by simp [h c rfl])

theorem skipSpaces_append {gap t : Text} (hGap : Spaces gap)
    (h : ∀ c ∈ t.head?, isSpace c = false) : skipSpaces (gap ++ t) = t := by
  rw [skipSpaces, List.dropWhile_append_of_pos hGap]
  exact skipSpaces_of_head h

theorem expect_append {c : CodePoint} {gap t : Text} (kind : FaultKind) (hGap : Spaces gap)
    (h : ∀ c ∈ t.head?, isSpace c = false) : expect c kind (c :: (gap ++ t)) = .ok t := by
  refine (if_pos rfl).trans ?_
  exact congrArg Except.ok (skipSpaces_append hGap h)

theorem Layout.spaces_lineBreak (layout : Layout) (level : Nat) :
    Spaces (layout.lineBreak level) := by
  cases layout with
  | oneLine => intro c hc; cases hc
  | indented width =>
    intro c hc
    rcases List.mem_cons.mp hc with rfl | hc
    · rfl
    · rw [(List.mem_replicate.mp hc).2]
      rfl

theorem Layout.separator_eq (layout : Layout) (level : Nat) :
    ∃ gap, Spaces gap ∧ layout.separator level = (',' : CodePoint) :: gap := by
  cases layout with
  | oneLine => exact ⟨[' '], by rintro c (_ | ⟨_, ⟨⟩⟩); rfl, rfl⟩
  | indented width => exact ⟨_, (Layout.indented width).spaces_lineBreak level, rfl⟩

/-! ## Reading -/

/-- The text reads as the value wherever it stands, and starts like one. -/
structure Reads (limits : Limits) (t : Text) (v : Json) : Prop where
  start : ∃ c tail, t = c :: tail ∧ isSpace c = false ∧ c ≠ (']' : CodePoint)
  read : ∀ (budget : Nat) (rest : Text), 2 * t.length ≤ budget → EndsNumber rest →
    readValue limits budget (t ++ rest) = .ok (v, rest)

theorem Reads.head_append {limits : Limits} {t : Text} {v : Json} (h : Reads limits t v)
    (rest : Text) :
    ∀ c ∈ (t ++ rest).head?, isSpace c = false ∧ c ≠ (']' : CodePoint) := by
  obtain ⟨c, tail, rfl, hc⟩ := h.start
  rintro d ⟨⟩
  exact hc

theorem endsNumber_of_head {t : Text}
    (h : ∀ c ∈ t.head?, isSpace c = true ∨ c ∈ [(',' : CodePoint), ']', '}']) : EndsNumber t := by
  intro c hc
  rcases h c hc with hSpace | hMark
  · simp only [isSpace, Bool.or_eq_true, decide_eq_true_eq] at hSpace
    rcases hSpace with ((rfl | rfl) | rfl) | rfl <;> decide
  · exact (by decide : ∀ d ∈ [(',' : CodePoint), ']', '}'],
      d.isDigit = false ∧ d ∉ [('.' : CodePoint), 'e', 'E']) c hMark

theorem endsNumber_comma (rest : Text) : EndsNumber ((',' : CodePoint) :: rest) := by
  refine endsNumber_of_head ?_
  rintro c ⟨⟩
  exact Or.inr List.mem_cons_self

theorem endsNumber_closing {closing : Text} (hClosing : Spaces closing) {c : CodePoint}
    (hc : c ∈ [(',' : CodePoint), ']', '}']) (rest : Text) :
    EndsNumber (closing ++ c :: rest) := by
  refine endsNumber_of_head ?_
  cases closing with
  | nil =>
    rintro d ⟨⟩
    exact Or.inr hc
  | cons e closing =>
    rintro d ⟨⟩
    exact Or.inl (hClosing e List.mem_cons_self)

theorem skipSpaces_mark {closing : Text} (hClosing : Spaces closing) {c : CodePoint}
    (hc : c ∈ [(',' : CodePoint), ']', '}']) (rest : Text) :
    skipSpaces (closing ++ c :: rest) = c :: rest := by
  refine skipSpaces_append hClosing ?_
  rintro d ⟨⟩
  exact (by decide : ∀ d ∈ [(',' : CodePoint), ']', '}'], isSpace d = false) c hc

theorem skipSpaces_comma (rest : Text) :
    skipSpaces ((',' : CodePoint) :: rest) = (',' : CodePoint) :: rest := by
  refine skipSpaces_of_head ?_
  rintro c ⟨⟩
  decide

/-! ### Items and members -/

/-- A list between brackets, read by `read`: it is enough that each part can be read as the last one
and as one that others follow.  Twice the length of the text and one more covers the budget, since
each part takes one of it and leaves the rest to the parts behind it. -/
theorem read_joinWith {α β : Type} {read : Nat → Text → Outcome (Failure Fault) (List β)}
    {f : α → Text} {g : α → β} {gap behind rest : Text} {parts : List α}
    (hStart : ∀ a ∈ parts, ∃ c tail, f a = c :: tail ∧ isSpace c = false)
    (hLast : ∀ a ∈ parts, ∀ b, 2 * (f a).length ≤ b →
      read (b + 1) (f a ++ behind) = .ok ([g a], rest))
    (hNext : ∀ a ∈ parts, ∀ b next vs, 2 * (f a).length ≤ b →
      (∀ c ∈ next.head?, isSpace c = false) → read b next = .ok (vs, rest) →
      read (b + 1) (f a ++ (',' : CodePoint) :: (gap ++ next)) = .ok (g a :: vs, rest))
    (hne : parts ≠ []) (budget : Nat)
    (hBudget : 2 * (Text.joinWith ((',' : CodePoint) :: gap) (parts.map f)).length < budget) :
    read budget (Text.joinWith ((',' : CodePoint) :: gap) (parts.map f) ++ behind)
      = .ok (parts.map g, rest) := by
  induction parts generalizing budget with
  | nil => exact absurd rfl hne
  | cons a parts ih =>
    obtain ⟨b, rfl⟩ : ∃ b, budget = b + 1 := ⟨budget - 1, by omega⟩
    have hMem := @List.mem_cons_self _ a parts
    cases parts with
    | nil =>
      rw [List.map_singleton, Text.joinWith_singleton] at hBudget ⊢
      exact hLast a hMem b (by omega)
    | cons a' parts =>
      have hLater : ∀ x ∈ a' :: parts, x ∈ a :: a' :: parts := fun x hx =>
        List.mem_cons_of_mem a hx
      rw [List.map_cons, List.map_cons, Text.joinWith_cons_cons, ← List.map_cons] at hBudget ⊢
      simp only [List.length_append, List.length_cons] at hBudget
      rw [List.append_assoc, List.append_assoc, List.cons_append]
      refine hNext a hMem b _ _ (by omega) ?_ (ih (fun x hx => hStart x (hLater x hx))
        (fun x hx => hLast x (hLater x hx)) (fun x hx => hNext x (hLater x hx))
        (List.cons_ne_nil a' parts) b (by omega))
      obtain ⟨c, tail, hText, hc⟩ := hStart a' (hLater a' List.mem_cons_self)
      obtain ⟨more, hMore⟩ := Text.exists_joinWith_cons ((',' : CodePoint) :: gap) (f a')
        (parts.map f) behind
      rw [List.map_cons, hMore, hText]
      rintro d ⟨⟩
      exact hc

theorem readItems_last {limits : Limits} {b : Nat} {t closing rest : Text} {v : Json}
    (hClosing : Spaces closing)
    (hRead : readValue limits b t = .ok (v, closing ++ (']' : CodePoint) :: rest)) :
    readItems limits (b + 1) t = .ok ([v], rest) := by
  rw [readItems, hRead]
  simp only [skipSpaces_mark hClosing (by simp : (']' : CodePoint) ∈ _)]
  rfl

theorem readItems_next {limits : Limits} {b : Nat} {t gap next rest : Text} {v : Json}
    {vs : List Json} (hGap : Spaces gap) (hHead : ∀ c ∈ next.head?, isSpace c = false)
    (hRead : readValue limits b t = .ok (v, (',' : CodePoint) :: (gap ++ next)))
    (hNext : readItems limits b next = .ok (vs, rest)) :
    readItems limits (b + 1) t = .ok (v :: vs, rest) := by
  rw [readItems, hRead]
  simp only [skipSpaces_comma, expect_append .noComma hGap hHead, hNext]
  rfl

theorem readName_writeString (name : Text) {t : Text} (hHead : ∀ c ∈ t.head?, isSpace c = false) :
    readName (writeString name ++ ": " ++ t) = .ok (name.joinSurrogates, t) := by
  have hText : writeString name ++ ": " ++ t = ('"' : CodePoint) :: (name.flatMap writeChar
      ++ ('"' : CodePoint) :: (':' : CodePoint) :: ([(' ' : CodePoint)] ++ t)) := by
    simp [writeString, Text.ofString]
  have hColon : skipSpaces ((':' : CodePoint) :: ([(' ' : CodePoint)] ++ t))
      = (':' : CodePoint) :: ([(' ' : CodePoint)] ++ t) := by
    refine skipSpaces_of_head ?_
    rintro c ⟨⟩
    decide
  have hGap : Spaces [(' ' : CodePoint)] := by
    intro c hc
    rw [List.mem_singleton.mp hc]
    rfl
  rw [hText, readName, if_pos (by rfl), List.drop_one, List.tail_cons, readString_writeString]
  simp only [hColon, expect_append .noColon hGap hHead]
  rfl

theorem readMembers_last {limits : Limits} {b : Nat} {t u closing rest name : Text} {v : Json}
    (hClosing : Spaces closing) (hName : readName t = .ok (name, u))
    (hRead : readValue limits b u = .ok (v, closing ++ ('}' : CodePoint) :: rest)) :
    readMembers limits (b + 1) t = .ok ([(name, v)], rest) := by
  rw [readMembers, hName]
  simp only [hRead, skipSpaces_mark hClosing (by simp : ('}' : CodePoint) ∈ _)]
  rfl

theorem readMembers_next {limits : Limits} {b : Nat} {t u gap next rest name : Text} {v : Json}
    {ms : List (Text × Json)} (hGap : Spaces gap) (hHead : ∀ c ∈ next.head?, isSpace c = false)
    (hName : readName t = .ok (name, u))
    (hRead : readValue limits b u = .ok (v, (',' : CodePoint) :: (gap ++ next)))
    (hNext : readMembers limits b next = .ok (ms, rest)) :
    readMembers limits (b + 1) t = .ok ((name, v) :: ms, rest) := by
  rw [readMembers, hName]
  simp only [hRead, skipSpaces_comma, expect_append .noComma hGap hHead, hNext]
  rfl

/-! ### Values -/

theorem reads_scalar {limits : Limits} {t : Text} {v : Json}
    (hStart : ∃ c tail, t = c :: tail ∧ isSpace c = false ∧
      c ∉ [('"' : CodePoint), '[', '{', ']'])
    (hRead : ∀ rest, EndsNumber rest → readScalar limits (t ++ rest) = .ok (v, rest)) :
    Reads limits t v := by
  obtain ⟨c, tail, rfl, hSpace, hMarks⟩ := hStart
  simp only [List.mem_cons, List.not_mem_nil, or_false, not_or] at hMarks
  refine ⟨⟨c, tail, rfl, hSpace, hMarks.2.2.2⟩, fun budget rest hBudget hRest => ?_⟩
  obtain ⟨b, rfl⟩ : ∃ b, budget = b + 1 := ⟨budget - 1, by simp at hBudget; omega⟩
  rw [List.cons_append, readValue, if_neg hMarks.1, if_neg hMarks.2.1, if_neg hMarks.2.2.1,
    ← List.cons_append, hRead rest hRest]

theorem reads_ofInt {limits : Limits} {i : Int} (hi : limits.AllowsInt i) :
    Reads limits (Text.ofInt i) (int i) := by
  refine reads_scalar ?_ fun rest h => readScalar_ofInt hi h
  cases i with
  | ofNat n =>
    obtain ⟨c, tail, hText, hc⟩ := head?_ofNat_append n []
    rw [List.append_nil] at hText
    refine ⟨c, tail, hText, ?_, CodePoint.not_mem_of_class (by decide) hc⟩
    have hSpace : c ∉ [(' ' : CodePoint), '\t', '\n', '\r'] :=
      CodePoint.not_mem_of_class (by decide) hc
    simpa [isSpace, and_assoc] using hSpace
  | negSucc n => exact ⟨_, _, rfl, by decide, by decide⟩

theorem reads_writeString (limits : Limits) (t : Text) :
    Reads limits (writeString t) (str t.joinSurrogates) := by
  have hText : ∀ rest, writeString t ++ rest
      = ('"' : CodePoint) :: (t.flatMap writeChar ++ ('"' : CodePoint) :: rest) := by
    intro rest
    simp [writeString, Text.ofString]
  refine ⟨⟨'"', _, rfl, by decide, by decide⟩, fun budget rest hBudget _ => ?_⟩
  have hLength := congrArg List.length (hText [])
  rw [List.append_nil, List.length_cons] at hLength
  obtain ⟨b, rfl⟩ : ∃ b, budget = b + 1 := ⟨budget - 1, by omega⟩
  rw [hText, readValue, if_pos rfl, readString_writeString]

section

variable {limits inner : Limits}

theorem readValue_arr (hInner : limits.inner? = some inner) {b : Nat} {gap t rest : Text}
    {vs : List Json} (hGap : Spaces gap)
    (hHead : ∀ c ∈ t.head?, isSpace c = false ∧ c ≠ (']' : CodePoint))
    (hItems : readItems inner b t = .ok (vs, rest)) :
    readValue limits (b + 1) (('[' : CodePoint) :: (gap ++ t)) = .ok (arr vs, rest) := by
  have hOpen : t.head? ≠ some (']' : CodePoint) := fun h => (hHead _ h).2 rfl
  rw [readValue_bracket hInner, skipSpaces_append hGap fun c hc => (hHead c hc).1, if_neg hOpen,
    hItems]
  rfl

theorem readValue_obj (hInner : limits.inner? = some inner) {b : Nat} {gap t rest : Text}
    {ms : List (Text × Json)} (hGap : Spaces gap)
    (hHead : ∀ c ∈ t.head?, isSpace c = false ∧ c ≠ ('}' : CodePoint))
    (hMembers : readMembers inner b t = .ok (ms, rest)) :
    readValue limits (b + 1) (('{' : CodePoint) :: (gap ++ t))
      = .ok (obj (Entries.ofPairs ms), rest) := by
  have hOpen : t.head? ≠ some ('}' : CodePoint) := fun h => (hHead _ h).2 rfl
  rw [readValue_brace hInner, skipSpaces_append hGap fun c hc => (hHead c hc).1, if_neg hOpen,
    hMembers]
  rfl

end

theorem enclose_append {layout : Layout} {opening closing : CodePoint} {texts : List Text}
    (h : texts ≠ []) (level : Nat) (rest : Text) :
    enclose layout level [opening] [closing] texts ++ rest
      = opening :: (layout.lineBreak (level + 1)
        ++ (Text.joinWith (layout.separator (level + 1)) texts
          ++ (layout.lineBreak level ++ closing :: rest))) := by
  have hTexts : texts.isEmpty = false := by simpa using h
  simp [enclose, hTexts]

theorem length_joinWith_add_two_le {layout : Layout} {opening closing : CodePoint}
    {texts : List Text} (h : texts ≠ []) (level : Nat) :
    (Text.joinWith (layout.separator (level + 1)) texts).length + 2
      ≤ (enclose layout level [opening] [closing] texts).length := by
  have hLength : (enclose layout level [opening] [closing] texts ++ []).length = _ :=
    congrArg List.length (enclose_append h level [])
  simp only [List.append_nil, List.length_cons, List.length_append, List.length_nil] at hLength
  omega

/-- Arrays and objects alike: `read` reads what stands behind the opening bracket, and `wrap` makes
a value of it. -/
theorem reads_enclose {α β : Type} {limits : Limits} {layout : Layout} {level : Nat}
    {opening closing : CodePoint} {read : Nat → Text → Outcome (Failure Fault) (List β)}
    {f : α → Text} {g : α → β} {parts : List α}
    (wrap : List β → Json) (hOpening : isSpace opening = false ∧ opening ≠ (']' : CodePoint))
    (hEmpty : ∀ b rest, readValue limits (b + 1) (opening :: closing :: rest) = .ok (wrap [], rest))
    (hWrap : ∀ b gap t vs rest, Spaces gap →
      (∀ c ∈ t.head?, isSpace c = false ∧ c ≠ closing) → read b t = .ok (vs, rest) →
      readValue limits (b + 1) (opening :: (gap ++ t)) = .ok (wrap vs, rest))
    (hStart : ∀ a ∈ parts, ∃ c tail, f a = c :: tail ∧ isSpace c = false ∧ c ≠ closing)
    (hLast : ∀ a ∈ parts, ∀ b behind rest, Spaces behind → 2 * (f a).length ≤ b →
      read (b + 1) (f a ++ (behind ++ closing :: rest)) = .ok ([g a], rest))
    (hNext : ∀ a ∈ parts, ∀ b gap next vs rest, Spaces gap → 2 * (f a).length ≤ b →
      (∀ c ∈ next.head?, isSpace c = false) → read b next = .ok (vs, rest) →
      read (b + 1) (f a ++ (',' : CodePoint) :: (gap ++ next)) = .ok (g a :: vs, rest)) :
    Reads limits (enclose layout level [opening] [closing] (parts.map f))
      (wrap (parts.map g)) := by
  by_cases hne : parts = []
  · subst hne
    refine ⟨⟨opening, _, rfl, hOpening⟩, fun budget rest hBudget _ => ?_⟩
    have hTwo : 2 * 2 ≤ budget := hBudget
    obtain ⟨b, rfl⟩ : ∃ b, budget = b + 1 := ⟨budget - 1, by omega⟩
    exact hEmpty b rest
  have hTexts : parts.map f ≠ [] := by simpa using hne
  refine ⟨⟨opening, _, by rw [← List.append_nil (enclose ..), enclose_append hTexts], hOpening⟩,
    fun budget rest hBudget _ => ?_⟩
  have hLength : _ ≤ (enclose layout level [opening] [closing] _).length :=
    length_joinWith_add_two_le hTexts level
  obtain ⟨b, rfl⟩ : ∃ b, budget = b + 1 := ⟨budget - 1, by omega⟩
  obtain ⟨gap, hGap, hSeparator⟩ := layout.separator_eq (level + 1)
  rw [enclose_append hTexts]
  rw [hSeparator] at hLength ⊢
  refine hWrap b _ _ _ _ (layout.spaces_lineBreak (level + 1)) ?_ (read_joinWith ?_ ?_ ?_ hne b ?_)
  · obtain ⟨a, parts, rfl⟩ := List.exists_cons_of_ne_nil hne
    obtain ⟨c, tail, hText, hc⟩ := hStart a List.mem_cons_self
    obtain ⟨more, hMore⟩ := Text.exists_joinWith_cons ((',' : CodePoint) :: gap) (f a)
      (parts.map f) (layout.lineBreak level ++ closing :: rest)
    rw [List.map_cons, hMore, hText]
    rintro d ⟨⟩
    exact hc
  · intro a ha
    obtain ⟨c, tail, hText, hc, -⟩ := hStart a ha
    exact ⟨c, tail, hText, hc⟩
  · intro a ha b' hb
    exact hLast a ha b' _ rest (layout.spaces_lineBreak level) hb
  · intro a ha b' next vs hb
    exact hNext a ha b' gap next vs rest hGap hb
  · omega

theorem reads_arr {limits inner : Limits} {layout : Layout} {level : Nat} {items : List Json}
    (hInner : limits.inner? = some inner)
    (h : ∀ v ∈ items, Reads inner (write layout (level + 1) v) v.joined) :
    Reads limits (write layout level (arr items)) (arr items).joined := by
  rw [write, writeItems_eq_map, joined, joinedItems_eq_map]
  show Reads limits (enclose layout level [('[' : CodePoint)] [(']' : CodePoint)] _) _
  refine reads_enclose arr (by decide) (fun b rest => readValue_bracket hInner b _)
    (fun b gap t vs rest => readValue_arr hInner) (fun v hv => (h v hv).start) ?_ ?_
  · intro v hv b behind rest hBehind hb
    exact readItems_last hBehind
      ((h v hv).read b _ hb (endsNumber_closing hBehind (by simp) rest))
  · intro v hv b gap next vs rest hGap hb hHead hNext
    exact readItems_next hGap hHead ((h v hv).read b _ hb (endsNumber_comma _)) hNext

theorem reads_obj {limits inner : Limits} {layout : Layout} {level : Nat}
    {members : List (Text × Json)} (hInner : limits.inner? = some inner)
    (h : ∀ m ∈ members, Reads inner (write layout (level + 1) m.2) m.2.joined) :
    Reads limits (write layout level (obj members)) (obj members).joined := by
  have hName : ∀ m ∈ members, ∀ rest,
      readName (writeString m.1 ++ ": " ++ write layout (level + 1) m.2 ++ rest)
        = .ok (m.1.joinSurrogates, write layout (level + 1) m.2 ++ rest) := by
    intro m hm rest
    rw [List.append_assoc _ (write layout (level + 1) m.2)]
    exact readName_writeString m.1 fun c hc => ((h m hm).head_append rest c hc).1
  rw [write, writeMembers_eq_map, joined, joinedMembers_eq_map]
  show Reads limits (enclose layout level [('{' : CodePoint)] [('}' : CodePoint)] _) _
  refine reads_enclose (fun ms => obj (Entries.ofPairs ms)) (by decide)
    (fun b rest => readValue_brace hInner b _) (fun b gap t vs rest => readValue_obj hInner)
    ?_ ?_ ?_
  · intro m hm
    exact ⟨'"', _, rfl, by decide, by decide⟩
  · intro m hm b behind rest hBehind hb
    rw [List.length_append] at hb
    exact readMembers_last hBehind (hName m hm _)
      ((h m hm).read b _ (by omega) (endsNumber_closing hBehind (by simp) rest))
  · intro m hm b gap next vs rest hGap hb hHead hNext
    rw [List.length_append] at hb
    exact readMembers_next hGap hHead (hName m hm _)
      ((h m hm).read b _ (by omega) (endsNumber_comma _)) hNext

/-- **What is written of a value reads as it**, in every layout and at every level. -/
theorem reads_write (layout : Layout) {limits : Limits} {v : Json} (h : v.Fits limits) :
    ∀ level, Reads limits (write layout level v) v.joined := by
  induction h with
  | null =>
    intro level
    exact reads_scalar ⟨'n', _, rfl, by decide, by decide⟩ fun rest _ => rfl
  | bool b =>
    intro level
    cases b with
    | true => exact reads_scalar ⟨'t', _, rfl, by decide, by decide⟩ fun rest _ => rfl
    | false => exact reads_scalar ⟨'f', _, rfl, by decide, by decide⟩ fun rest _ => rfl
  | int hi =>
    intro level
    rw [write, joined]
    exact reads_ofInt hi
  | str t =>
    intro level
    rw [write, joined]
    exact reads_writeString _ t
  | arr hInner _ ih =>
    intro level
    exact reads_arr hInner fun v hv => ih v hv (level + 1)
  | obj hInner _ ih =>
    intro level
    exact reads_obj hInner fun m hm => ih m hm (level + 1)

/-! ## ASCII -/

def Ascii (t : Text) : Prop := ∀ c ∈ t, c.isAscii = true

instance (t : Text) : Decidable (Ascii t) :=
  inferInstanceAs (Decidable (∀ c ∈ t, c.isAscii = true))

theorem Ascii.append {t u : Text} (ht : Ascii t) (hu : Ascii u) : Ascii (t ++ u) :=
  List.forall_mem_append.mpr ⟨ht, hu⟩

theorem ascii_hex (width n : Nat) : Ascii (Text.hex width n) := by
  induction width generalizing n with
  | zero => intro c hc; cases hc
  | succ width ih =>
    refine (ih (n / 16)).append fun c hc => ?_
    rw [List.mem_singleton.mp hc]
    exact (by decide : ∀ k < 16, (CodePoint.ofChar (Nat.digitChar k)).isAscii = true) (n % 16)
      (Nat.mod_lt _ (by omega))

theorem ascii_ofNat (n : Nat) : Ascii (Text.ofNat n) := by
  intro c hc
  have hDigit := Text.isDigit_of_mem_ofNat hc
  simp only [CodePoint.isDigit, Bool.and_eq_true, decide_eq_true_eq] at hDigit
  simp only [CodePoint.isAscii, decide_eq_true_eq]
  omega

theorem ascii_ofInt (i : Int) : Ascii (Text.ofInt i) := by
  cases i with
  | ofNat n => exact ascii_ofNat n
  | negSucc n =>
    intro c hc
    rcases List.mem_cons.mp hc with rfl | hc
    · decide
    · exact ascii_ofNat (n + 1) c hc

theorem ascii_writeChar (c : CodePoint) : Ascii (writeChar c) := by
  by_cases hLetter : c ∈ letters.map Prod.fst
  · obtain ⟨p, hp, rfl⟩ := List.mem_map.mp hLetter
    exact (by decide : ∀ p ∈ letters, Ascii (writeChar p.1)) p hp
  have hMark : Ascii "\\u" := by decide
  rw [writeChar_of_not_mem_letters hLetter]
  split
  · rename_i hPrint
    intro d hd
    rw [List.mem_singleton.mp hd]
    simp only [CodePoint.isAscii, decide_eq_true_eq]
    omega
  · split
    · exact hMark.append (ascii_hex 4 _)
    · exact (hMark.append (ascii_hex 4 _)).append (hMark.append (ascii_hex 4 _))

theorem ascii_writeString (t : Text) : Ascii (writeString t) := by
  have hQuote : Ascii "\"" := by decide
  refine (hQuote.append fun c hc => ?_).append hQuote
  obtain ⟨d, -, hd⟩ := List.mem_flatMap.mp hc
  exact ascii_writeChar d c hd

theorem Spaces.ascii {t : Text} (h : Spaces t) : Ascii t := by
  intro c hc
  have hSpace := h c hc
  simp only [isSpace, Bool.or_eq_true, decide_eq_true_eq] at hSpace
  rcases hSpace with ((rfl | rfl) | rfl) | rfl <;> decide

theorem ascii_enclose (layout : Layout) (level : Nat) {opening closing : Text}
    (hOpening : Ascii opening) (hClosing : Ascii closing) {texts : List Text}
    (h : ∀ t ∈ texts, Ascii t) : Ascii (enclose layout level opening closing texts) := by
  have hBreak : ∀ level, Ascii (layout.lineBreak level) := fun level =>
    (layout.spaces_lineBreak level).ascii
  have hJoined : Ascii (Text.joinWith (layout.separator (level + 1)) texts) := by
    intro c hc
    rcases Text.mem_joinWith hc with hc | ⟨t, ht, hc⟩
    · obtain ⟨gap, hGap, hSeparator⟩ := layout.separator_eq (level + 1)
      rw [hSeparator] at hc
      rcases List.mem_cons.mp hc with rfl | hc
      · decide
      · exact hGap.ascii c hc
    · exact h t ht c hc
  rw [enclose]
  split
  · exact hOpening.append hClosing
  · exact (((hOpening.append (hBreak _)).append hJoined).append (hBreak _)).append hClosing

/-- **What is written of a value is ASCII.** -/
theorem ascii_write (layout : Layout) {limits : Limits} {v : Json} (h : v.Fits limits) :
    ∀ level, Ascii (write layout level v) := by
  induction h with
  | null => intro level; rw [write]; decide
  | bool b =>
    intro level
    cases b with
    | true => rw [write]; decide
    | false => rw [write]; decide
  | int _ => intro level; rw [write]; exact ascii_ofInt _
  | str t => intro level; rw [write]; exact ascii_writeString t
  | arr _ _ ih =>
    intro level
    rw [write, writeItems_eq_map]
    refine ascii_enclose layout level (by decide) (by decide) fun t ht => ?_
    obtain ⟨v, hv, rfl⟩ := List.mem_map.mp ht
    exact ih v hv (level + 1)
  | obj _ _ ih =>
    intro level
    rw [write, writeMembers_eq_map]
    refine ascii_enclose layout level (by decide) (by decide) fun t ht => ?_
    obtain ⟨m, hm, rfl⟩ := List.mem_map.mp ht
    have hColon : Ascii ": " := by decide
    exact ((ascii_writeString m.1).append hColon).append (ih m hm (level + 1))

/-! ## Whole texts -/

/-- **A written value is parsed back**, with the surrogate pairs of its strings joined. -/
theorem parse_render (layout : Layout) {limits : Limits} {v : Json} (h : v.Fits limits) :
    parse limits (v.render layout) = .ok v.joined := by
  have hReads := reads_write layout h 0
  have hHead := hReads.head_append []
  rw [List.append_nil] at hHead
  have hMark : (write layout 0 v).head? ≠ some (.ofNat 0xFEFF) := by
    intro hMark
    exact absurd (ascii_write layout h 0 _ (List.mem_of_head? hMark)) (by decide)
  have hRead := hReads.read (2 * (write layout 0 v).length + 2) [] (by omega) nofun
  rw [List.append_nil] at hRead
  have hText : readText limits (write layout 0 v) = .ok v.joined := by
    rw [readText, if_neg hMark, skipSpaces_of_head fun c hc => (hHead c hc).1, hRead]
    rfl
  rw [parse, render, hText]
  rfl

end Json

end CustomProperties
