import CustomProperties.Proofs.Entries
import CustomProperties.Proofs.JsonScalar

/-!
# What a JSON text is read from

Values, items and members are read with each other, always with less of the budget, so what holds of
all of them is proved for the three at once, by induction on the budget.  What one step does is said
first (`readValue_eq_ok`, `readItems_eq_ok`, `readMembers_eq_ok`).

* `length_read`: what is left of a text is shorter than the text.
* `read_budget`: **the budget never runs out.**
* `distinct_of_parse`: **every object that is read has each name once.**
-/

namespace CustomProperties.Json

/-! ## What is left is shorter -/

theorem length_skipSpaces_le (t : Text) : (skipSpaces t).length ≤ t.length :=
  (List.dropWhile_suffix _).length_le

theorem length_drop_skipSpaces_le (t : Text) : ((skipSpaces t).drop 1).length ≤ t.length := by
  have hSpaces := length_skipSpaces_le t
  rw [List.length_drop]
  omega

theorem of_pushWritten_eq_ok {w : Written} {x : Outcome Fault (List Written)} {ws : List Written}
    {rest : Text} (h : pushWritten w x = .ok (ws, rest)) : ∃ vs, x = .ok (vs, rest) := by
  cases x with
  | error fault => cases h
  | ok read =>
    cases h
    exact ⟨read.1, rfl⟩

theorem length_readChars {start t rest : Text} {ws : List Written}
    (h : readChars start t = .ok (ws, rest)) : rest.length < t.length := by
  fun_induction readChars start t generalizing ws rest with
  | case1 => cases h
  | case2 =>
    cases h
    exact Nat.lt_succ_self _
  | case3 => cases h
  | case4 => cases h
  | case5 _ _ _ _ tail _ _ _ _ ih =>
    obtain ⟨vs, hTail⟩ := of_pushWritten_eq_ok h
    have hShorter := ih hTail
    simp only [List.length_cons]
    omega
  | case6 => cases h
  | case7 => cases h
  | case8 _ after _ _ _ _ ih =>
    obtain ⟨vs, hAfter⟩ := of_pushWritten_eq_ok h
    have hShorter := ih hAfter
    simp only [List.length_cons]
    omega
  | case9 => cases h
  | case10 => cases h
  | case11 _ tail _ _ _ ih =>
    obtain ⟨vs, hTail⟩ := of_pushWritten_eq_ok h
    exact Nat.lt_succ_of_lt (ih hTail)

theorem length_readString {start t rest s : Text} (h : readString start t = .ok (s, rest)) :
    rest.length < t.length := by
  obtain ⟨read, hRead, hEq⟩ := map_eq_ok_iff.mp h
  cases hEq
  exact length_readChars hRead

theorem length_expect {c : CodePoint} {kind : FaultKind} {t next : Text}
    (h : expect c kind t = .ok next) : next.length < t.length := by
  rw [expect] at h
  split at h
  · rename_i hHead
    cases h
    cases t with
    | nil => cases hHead
    | cons d t => exact Nat.lt_succ_of_le (length_skipSpaces_le t)
  · cases h

theorem length_readName {t name rest : Text} (h : readName t = .ok (name, rest)) :
    rest.length < t.length := by
  rw [readName] at h
  split at h
  · split at h
    · cases h
    · rename_i name' after hString
      obtain ⟨next, hColon, hEq⟩ := map_eq_ok_iff.mp h
      cases hEq
      have hAfter := length_readString hString
      have hSpaces := length_skipSpaces_le after
      have hNext := length_expect hColon
      rw [List.length_drop] at hAfter
      omega
  · cases h

theorem exists_of_integerDigits {t : Text} (h : (integerDigits t).isEmpty = false) :
    ∃ c tail, t = c :: tail ∧ c.isDigit = true := by
  cases t with
  | nil => cases h
  | cons c tail =>
    refine ⟨c, tail, rfl, ?_⟩
    rw [integerDigits] at h
    split at h
    · rename_i hc
      rw [hc]
      rfl
    · cases hc : c.isDigit with
      | true => rfl
      | false =>
        rw [List.takeWhile_cons_of_neg (Bool.not_eq_true _ ▸ hc)] at h
        cases h

/-- A number starts with a digit or with a sign and a digit, and takes at least these. -/
theorem of_readNumeral?_eq_some {t rest : Text} {n : Numeral}
    (h : readNumeral? t = some (n, rest)) :
    rest.length < t.length ∧ ∃ c tail, t = c :: tail ∧
      (c.isDigit = true ∨ c = ('-' : CodePoint) ∧ tail.head?.any CodePoint.isDigit = true) := by
  simp only [readNumeral?] at h
  generalize hBody : (if t.head? = some ('-' : CodePoint) then t.drop 1 else t) = body at h
  split at h
  · cases h
  rename_i hDigits
  cases h
  rw [Bool.not_eq_true] at hDigits
  obtain ⟨c, tail, rfl, hc⟩ := exists_of_integerDigits hDigits
  have hSome : 0 < (integerDigits (c :: tail)).length :=
    List.length_pos_iff.mpr (List.isEmpty_eq_false_iff.mp hDigits)
  have hStart : t = c :: tail ∨ t = ('-' : CodePoint) :: c :: tail := by
    split at hBody
    · rename_i hSign
      cases t with
      | nil => cases hSign
      | cons d t =>
        cases hSign
        exact Or.inr (congrArg _ hBody)
    · exact Or.inl hBody
  refine ⟨?_, ?_⟩
  · simp only [List.length_drop]
    rcases hStart with rfl | rfl
    · simp only [List.length_cons]
      omega
    · simp only [List.length_cons]
      omega
  · rcases hStart with rfl | rfl
    · exact ⟨c, tail, rfl, Or.inl hc⟩
    · exact ⟨_, _, rfl, Or.inr ⟨rfl, hc⟩⟩

theorem length_readScalar {limits : Limits} {t rest : Text} {v : Json}
    (h : readScalar limits t = .ok (v, rest)) : rest.length < t.length := by
  rw [readScalar] at h
  split at h
  · rename_i word value hFind
    cases h
    have hSome := (by decide : ∀ w ∈ words, w.1 ≠ []) _ (List.mem_of_find?_eq_some hFind)
    have hStart := List.find?_some hFind
    have hLength := (List.isPrefixOf_iff_prefix.mp hStart).length_le
    have hPos := List.length_pos_iff.mpr hSome
    rw [List.length_drop]
    dsimp only at hLength hPos
    omega
  · split at h
    · cases h
    · rename_i n rest' hNumeral
      split at h
      · cases h
      · cases h
        exact (of_readNumeral?_eq_some hNumeral).1

/-! ## What is read from what -/

/-- Behind an opening bracket the limits inside it hold. -/
theorem readValue_bracket {limits inner : Limits} (hInner : limits.inner? = some inner) (b : Nat)
    (rest : Text) :
    readValue limits (b + 1) (('[' : CodePoint) :: rest)
      = if (skipSpaces rest).head? = some (']' : CodePoint) then
          .ok (.arr [], (skipSpaces rest).drop 1)
        else (readItems inner b (skipSpaces rest)).map fun read => (.arr read.1, read.2) := by
  rw [readValue, if_neg (by decide), if_pos rfl, hInner]

theorem readValue_brace {limits inner : Limits} (hInner : limits.inner? = some inner) (b : Nat)
    (rest : Text) :
    readValue limits (b + 1) (('{' : CodePoint) :: rest)
      = if (skipSpaces rest).head? = some ('}' : CodePoint) then
          .ok (.obj [], (skipSpaces rest).drop 1)
        else (readMembers inner b (skipSpaces rest)).map fun read =>
          (.obj (Entries.ofPairs read.1), read.2) := by
  rw [readValue, if_neg (by decide), if_neg (by decide), if_pos rfl, hInner]

section

variable {limits : Limits} {budget : Nat} {t rest : Text}

/-- A value is a string, an array, an object or a scalar; names that are given twice are one. -/
theorem readValue_eq_ok {v : Json} (h : readValue limits (budget + 1) t = .ok (v, rest)) :
    (∃ u s, t = ('"' : CodePoint) :: u ∧ v = .str s ∧ readString t u = .ok (s, rest)) ∨
    (∃ u inner items, t = ('[' : CodePoint) :: u ∧ v = .arr items ∧
      (items = [] ∧ rest = (skipSpaces u).drop 1 ∨
        readItems inner budget (skipSpaces u) = .ok (items, rest))) ∨
    (∃ u inner pairs, t = ('{' : CodePoint) :: u ∧ v = .obj (Entries.ofPairs pairs) ∧
      (pairs = [] ∧ rest = (skipSpaces u).drop 1 ∨
        readMembers inner budget (skipSpaces u) = .ok (pairs, rest))) ∨
    readScalar limits t = .ok (v, rest) := by
  cases t with
  | nil =>
    rw [readValue] at h
    · cases h
    · simp
  | cons c u =>
    rw [readValue] at h
    split at h
    · rename_i hc
      split at h
      · cases h
      · rename_i s rest' hString
        cases h
        exact Or.inl ⟨u, s, by rw [hc], rfl, hString⟩
    split at h
    · rename_i hc
      refine Or.inr (Or.inl ?_)
      split at h
      · cases h
      · rename_i inner _
        split at h
        · cases h
          exact ⟨u, inner, [], by rw [hc], rfl, Or.inl ⟨rfl, rfl⟩⟩
        · obtain ⟨⟨items, rest'⟩, hItems, hEq⟩ := map_eq_ok_iff.mp h
          cases hEq
          exact ⟨u, inner, items, by rw [hc], rfl, Or.inr hItems⟩
    split at h
    · rename_i hc
      refine Or.inr (Or.inr (Or.inl ?_))
      split at h
      · cases h
      · rename_i inner _
        split at h
        · cases h
          exact ⟨u, inner, [], by rw [hc], rfl, Or.inl ⟨rfl, rfl⟩⟩
        · obtain ⟨⟨pairs, rest'⟩, hPairs, hEq⟩ := map_eq_ok_iff.mp h
          cases hEq
          exact ⟨u, inner, pairs, by rw [hc], rfl, Or.inr hPairs⟩
    · exact Or.inr (Or.inr (Or.inr h))

theorem readItems_eq_ok {vs : List Json} (h : readItems limits (budget + 1) t = .ok (vs, rest)) :
    ∃ v more next, readValue limits budget t = .ok (v, next) ∧ vs = v :: more ∧
      (more = [] ∧ rest = (skipSpaces next).drop 1 ∨
        ∃ after, expect ',' .noComma (skipSpaces next) = .ok after ∧
          readItems limits budget after = .ok (more, rest)) := by
  rw [readItems] at h
  split at h
  · cases h
  · rename_i v next hValue
    split at h
    · cases h
      exact ⟨v, [], next, hValue, rfl, Or.inl ⟨rfl, rfl⟩⟩
    · split at h
      · cases h
      · rename_i after hAfter
        obtain ⟨⟨more, rest'⟩, hMore, hEq⟩ := map_eq_ok_iff.mp h
        cases hEq
        exact ⟨v, more, next, hValue, rfl, Or.inr ⟨after, hAfter, hMore⟩⟩

theorem readMembers_eq_ok {ms : List (Text × Json)}
    (h : readMembers limits (budget + 1) t = .ok (ms, rest)) :
    ∃ name v more start next, readName t = .ok (name, start) ∧
      readValue limits budget start = .ok (v, next) ∧ ms = (name, v) :: more ∧
      (more = [] ∧ rest = (skipSpaces next).drop 1 ∨
        ∃ after, expect ',' .noComma (skipSpaces next) = .ok after ∧
          readMembers limits budget after = .ok (more, rest)) := by
  rw [readMembers] at h
  split at h
  · cases h
  · rename_i name start hName
    split at h
    · cases h
    · rename_i v next hValue
      split at h
      · cases h
        exact ⟨name, v, [], start, next, hName, hValue, rfl, Or.inl ⟨rfl, rfl⟩⟩
      · split at h
        · cases h
        · rename_i after hAfter
          obtain ⟨⟨more, rest'⟩, hMore, hEq⟩ := map_eq_ok_iff.mp h
          cases hEq
          exact ⟨name, v, more, start, next, hName, hValue, rfl, Or.inr ⟨after, hAfter, hMore⟩⟩

end

/-- Values, items and members are read with each other, always with less of the budget; what is
left of the text is shorter than the text. -/
theorem length_read (budget : Nat) :
    (∀ limits t v rest, readValue limits budget t = .ok (v, rest) → rest.length < t.length) ∧
    (∀ limits t vs rest, readItems limits budget t = .ok (vs, rest) → rest.length < t.length) ∧
    ∀ limits t ms rest, readMembers limits budget t = .ok (ms, rest) →
      rest.length < t.length := by
  induction budget with
  | zero =>
    refine ⟨fun limits t v rest h => ?_, fun limits t vs rest h => ?_, fun limits t ms rest h => ?_⟩
    · rw [readValue] at h
      cases h
    · rw [readItems] at h
      cases h
    · rw [readMembers] at h
      cases h
  | succ budget ih =>
    obtain ⟨hValues, hItems, hMembers⟩ := ih
    refine ⟨fun limits t v rest h => ?_, fun limits t vs rest h => ?_, fun limits t ms rest h => ?_⟩
    · rcases readValue_eq_ok h with ⟨u, s, rfl, rfl, hString⟩ |
        ⟨u, inner, items, rfl, rfl, ⟨rfl, rfl⟩ | hRead⟩ |
        ⟨u, inner, pairs, rfl, rfl, ⟨rfl, rfl⟩ | hRead⟩ | hScalar
      · exact Nat.lt_succ_of_lt (length_readString hString)
      · exact Nat.lt_succ_of_le (length_drop_skipSpaces_le u)
      · exact Nat.lt_succ_of_lt
          (Nat.lt_of_lt_of_le (hItems _ _ _ _ hRead) (length_skipSpaces_le u))
      · exact Nat.lt_succ_of_le (length_drop_skipSpaces_le u)
      · exact Nat.lt_succ_of_lt
          (Nat.lt_of_lt_of_le (hMembers _ _ _ _ hRead) (length_skipSpaces_le u))
      · exact length_readScalar hScalar
    · obtain ⟨v, more, next, hValue, rfl, ⟨rfl, rfl⟩ | ⟨after, hAfter, hMore⟩⟩ := readItems_eq_ok h
      · exact Nat.lt_of_le_of_lt (length_drop_skipSpaces_le next) (hValues _ _ _ _ hValue)
      · have hFirst := hValues _ _ _ _ hValue
        have hSpaces := length_skipSpaces_le next
        have hComma := length_expect hAfter
        have hLater := hItems _ _ _ _ hMore
        omega
    · obtain ⟨name, v, more, start, next, hName, hValue, rfl, hRest⟩ := readMembers_eq_ok h
      rcases hRest with ⟨rfl, rfl⟩ | ⟨after, hAfter, hMore⟩
      · have hStart := length_readName hName
        have hFirst := hValues _ _ _ _ hValue
        have hLast := length_drop_skipSpaces_le next
        omega
      · have hStart := length_readName hName
        have hFirst := hValues _ _ _ _ hValue
        have hSpaces := length_skipSpaces_le next
        have hComma := length_expect hAfter
        have hLater := hMembers _ _ _ _ hMore
        omega

/-! ## The budget is enough -/

theorem readValue_nil (limits : Limits) (budget : Nat) :
    readValue limits budget [] = .error (.refused ⟨.noValue, []⟩) := by
  cases budget with
  | zero => rw [readValue]
  | succ budget =>
    rw [readValue]
    simp

/-- What follows an item is shorter than the items by two characters at least. -/
theorem length_after_comma {limits : Limits} {budget : Nat} {t rest next : Text} {v : Json}
    (hValue : readValue limits budget t = .ok (v, rest))
    (hNext : expect ',' .noComma (skipSpaces rest) = .ok next) : next.length + 2 ≤ t.length := by
  have hFirst := (length_read budget).1 _ _ _ _ hValue
  have hSpaces := length_skipSpaces_le rest
  have hComma := length_expect hNext
  omega

/-- **The budget never runs out**: from twice the length of the text on, more of it changes
nothing. -/
theorem read_budget (b : Nat) :
    (∀ limits t b', 2 * t.length ≤ b → b ≤ b' →
      readValue limits b' t = readValue limits b t) ∧
    (∀ limits t b', 2 * t.length < b → b ≤ b' →
      readItems limits b' t = readItems limits b t) ∧
    ∀ limits t b', 2 * t.length < b → b ≤ b' →
      readMembers limits b' t = readMembers limits b t := by
  induction b with
  | zero =>
    refine ⟨fun limits t b' ht _ => ?_, fun limits t b' ht => ?_, fun limits t b' ht => ?_⟩
    · cases t with
      | nil => rw [readValue_nil, readValue_nil]
      | cons c u =>
        rw [List.length_cons] at ht
        omega
    · omega
    · omega
  | succ b ih =>
    obtain ⟨hValues, hItems, hMembers⟩ := ih
    refine ⟨fun limits t b' ht hb => ?_, fun limits t b' ht hb => ?_, fun limits t b' ht hb => ?_⟩
    · obtain ⟨b', rfl⟩ : ∃ n, b' = n + 1 := ⟨b' - 1, by omega⟩
      cases t with
      | nil => rw [readValue_nil, readValue_nil]
      | cons c u =>
        -- The bracket is one character and takes one of the budget, so twice the length of the
        -- items and one more is left for them.
        have hSpaces := length_skipSpaces_le u
        rw [List.length_cons] at ht
        have hArray : ∀ inner,
            readItems inner b' (skipSpaces u) = readItems inner b (skipSpaces u) :=
          fun inner => hItems inner _ b' (by omega) (by omega)
        have hObject : ∀ inner,
            readMembers inner b' (skipSpaces u) = readMembers inner b (skipSpaces u) :=
          fun inner => hMembers inner _ b' (by omega) (by omega)
        simp only [readValue, hArray, hObject]
    · obtain ⟨b', rfl⟩ : ∃ n, b' = n + 1 := ⟨b' - 1, by omega⟩
      rw [readItems, readItems, hValues limits t b' (by omega) (by omega)]
      cases hValue : readValue limits b t with
      | error failure => rfl
      | ok read =>
        obtain ⟨v, rest⟩ := read
        cases hNext : expect ',' .noComma (skipSpaces rest) with
        | error fault => simp only [hNext]
        | ok next =>
          have hShorter := length_after_comma hValue hNext
          simp only [hNext, hItems limits next b' (by omega) (by omega)]
    · obtain ⟨b', rfl⟩ : ∃ n, b' = n + 1 := ⟨b' - 1, by omega⟩
      rw [readMembers, readMembers]
      cases hName : readName t with
      | error fault => rfl
      | ok read =>
        obtain ⟨name, start⟩ := read
        have hStart := length_readName hName
        simp only [hValues limits start b' (by omega) (by omega)]
        cases hValue : readValue limits b start with
        | error failure => rfl
        | ok read =>
          obtain ⟨v, rest⟩ := read
          cases hNext : expect ',' .noComma (skipSpaces rest) with
          | error fault => simp only [hNext]
          | ok next =>
            have hShorter := length_after_comma hValue hNext
            simp only [hNext, hMembers limits next b' (by omega) (by omega)]

/-! ## Objects that are read have each name once -/

/-- Every object in a value has each name once. -/
inductive Distinct : Json → Prop
  | null : Distinct null
  | bool (b : Bool) : Distinct (bool b)
  | int (i : Int) : Distinct (int i)
  | real (x : Double) : Distinct (real x)
  | str (t : Text) : Distinct (str t)
  | arr {items : List Json} : (∀ v ∈ items, Distinct v) → Distinct (arr items)
  | obj {members : List (Text × Json)} : (members.map Prod.fst).Nodup →
      (∀ m ∈ members, Distinct m.2) → Distinct (obj members)

theorem distinct_ofPairs {pairs : List (Text × Json)} (h : ∀ m ∈ pairs, Distinct m.2) :
    Distinct (.obj (Entries.ofPairs pairs)) := by
  refine .obj (Entries.nodup_keys_ofPairs pairs) fun m hm => ?_
  rw [← Entries.get?_eq_some_iff (Entries.nodup_keys_ofPairs pairs), Entries.get?_ofPairs] at hm
  exact h m (Entries.mem_of_last? hm)

theorem distinct_value (n : Numeral) : n.value.Distinct := by
  rw [Numeral.value]
  split
  · exact .int _
  · exact .real _

theorem distinct_readScalar {limits : Limits} {t rest : Text} {v : Json}
    (h : readScalar limits t = .ok (v, rest)) : v.Distinct := by
  rw [readScalar] at h
  split at h
  · rename_i word value hFind
    cases h
    have hWord := List.mem_of_find?_eq_some hFind
    simp only [words, List.mem_cons, List.not_mem_nil, or_false, Prod.mk.injEq] at hWord
    rcases hWord with ⟨-, rfl⟩ | ⟨-, rfl⟩ | ⟨-, rfl⟩ | ⟨-, rfl⟩ | ⟨-, rfl⟩ | ⟨-, rfl⟩
    · exact .null
    · exact .bool true
    · exact .bool false
    all_goals exact .real _
  · split at h
    · cases h
    · split at h
      · cases h
      · cases h
        exact distinct_value _

theorem distinct_read (budget : Nat) :
    (∀ limits t v rest, readValue limits budget t = .ok (v, rest) → v.Distinct) ∧
    (∀ limits t vs rest, readItems limits budget t = .ok (vs, rest) → ∀ v ∈ vs, v.Distinct) ∧
    ∀ limits t ms rest, readMembers limits budget t = .ok (ms, rest) →
      ∀ m ∈ ms, m.2.Distinct := by
  induction budget with
  | zero =>
    refine ⟨fun limits t v rest h => ?_, fun limits t vs rest h => ?_, fun limits t ms rest h => ?_⟩
    · rw [readValue] at h
      cases h
    · rw [readItems] at h
      cases h
    · rw [readMembers] at h
      cases h
  | succ budget ih =>
    obtain ⟨hValues, hItems, hMembers⟩ := ih
    refine ⟨fun limits t v rest h => ?_, fun limits t vs rest h => ?_, fun limits t ms rest h => ?_⟩
    · rcases readValue_eq_ok h with ⟨_, s, -, rfl, -⟩ |
        ⟨_, _, items, -, rfl, ⟨rfl, -⟩ | hRead⟩ |
        ⟨_, _, pairs, -, rfl, ⟨rfl, -⟩ | hRead⟩ | hScalar
      · exact .str s
      · exact .arr (by simp)
      · exact .arr (hItems _ _ _ _ hRead)
      · exact distinct_ofPairs (by simp)
      · exact distinct_ofPairs (hMembers _ _ _ _ hRead)
      · exact distinct_readScalar hScalar
    · obtain ⟨v, more, next, hValue, rfl, hMore⟩ := readItems_eq_ok h
      refine List.forall_mem_cons.mpr ⟨hValues _ _ _ _ hValue, ?_⟩
      rcases hMore with ⟨rfl, -⟩ | ⟨after, -, hMore⟩
      · simp
      · exact hItems _ _ _ _ hMore
    · obtain ⟨name, v, more, start, next, -, hValue, rfl, hMore⟩ := readMembers_eq_ok h
      refine List.forall_mem_cons.mpr ⟨hValues _ _ _ _ hValue, ?_⟩
      rcases hMore with ⟨rfl, -⟩ | ⟨after, -, hMore⟩
      · simp
      · exact hMembers _ _ _ _ hMore

/-- **Every object that is read has each name once.** -/
theorem distinct_of_parse {limits : Limits} {t : Text} {v : Json} (h : parse limits t = .ok v) :
    v.Distinct := by
  rw [parse] at h
  cases hText : readText limits t with
  | error failure =>
    rw [hText] at h
    cases h
  | ok value =>
    rw [hText] at h
    cases h
    rw [readText] at hText
    split at hText
    · cases hText
    · split at hText
      · cases hText
      · rename_i value rest hValue
        split at hText
        · cases hText
          exact (distinct_read _).1 _ _ _ _ hValue
        · cases hText

end CustomProperties.Json
