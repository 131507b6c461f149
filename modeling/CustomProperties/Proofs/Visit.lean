import CustomProperties.Proofs.Walk

/-!
# The places where a walk stands

A walk stands at some places of its text and passes over the others: the second character of a
comment mark, and everything of a declaration behind its first hyphen.  `visits` lists the places
where it stands, with the state there and the text around them.

* `walk_eq_visits`: the walk is what the steps at these places do, one after the other.
* `Move.visits_eq`, `visits_abandoned`, `visits_found`: where a walk stands at a move and at a
  candidate, and where it goes on.
* `visits_ascending`: a walk stands at every place once, from left to right.
-/

namespace CustomProperties.Scan

/-- A place where a walk stands, between `previous` and `rest`. -/
structure Visit where
  offset : Nat
  state : State
  previous : Option CodePoint
  char : CodePoint
  rest : Text

def Visit.step (config : Config) (v : Visit) : Step :=
  v.state.step config v.offset v.previous v.char v.rest

def visits (config : Config) :
    (skip : Nat) → State → (offset : Nat) → (previous : Option CodePoint) → Text → List Visit
  | _, _, _, _, [] => []
  | skip + 1, s, offset, _, c :: rest => visits config skip s (offset + 1) (some c) rest
  | 0, s, offset, previous, c :: rest =>
    let v : Visit := ⟨offset, s, previous, c, rest⟩
    v :: visits config (v.step config).skip (v.step config).state (offset + 1) (some c) rest

/-- **A walk is what the steps at its places do**: it ends in the state that the last of them
leaves, and its candidates are those that they meet. -/
theorem walk_eq_visits (config : Config) (skip : Nat) (s : State) (offset : Nat)
    (previous : Option CodePoint) (t : Text) : walk config skip s offset previous t =
      { state := (visits config skip s offset previous t).foldl
          (fun _ v => (v.step config).state) s
        events := (visits config skip s offset previous t).filterMap
          fun v => (v.step config).event } := by
  induction t generalizing skip s offset previous with
  | nil =>
    cases skip with
    | zero => rfl
    | succ skip => rfl
  | cons c rest ih =>
    cases skip with
    | succ skip =>
      rw [walk, ih]
      rfl
    | zero =>
      rw [walk_cons, ih, visits]
      cases hEvent : (s.step config offset previous c rest).event with
      | none => simp [Trace.after, Visit.step, hEvent]
      | some event => simp [Trace.after, Visit.step, hEvent]

theorem visits_skip (config : Config) (s : State) (offset : Nat) (previous : Option CodePoint)
    (a rest : Text) : visits config a.length s offset previous (a ++ rest)
      = visits config 0 s (offset + a.length) (a.lastOr previous) rest := by
  induction a generalizing offset previous with
  | nil => rfl
  | cons c a ih =>
    rw [List.cons_append, List.length_cons, visits, ih, Text.lastOr_cons, Nat.add_right_comm,
      Nat.add_assoc]

theorem visits_skip_succ (config : Config) (s : State) (offset : Nat)
    (previous : Option CodePoint) (a : Text) (c : CodePoint) (rest : Text) :
    visits config (a.length + 1) s offset previous (a ++ c :: rest)
      = visits config 0 s (offset + a.length + 1) (some c) rest := by
  have h := visits_skip config s offset previous (a ++ [c]) rest
  rw [List.length_append, List.append_assoc, Text.lastOr_append] at h
  exact h

theorem Move.visits_cons {config : Config} {s s' : State} {previous : Option CodePoint}
    {a rest : Text} (h : Move config s previous a rest.head? s') (offset : Nat) :
    ∃ (c : CodePoint) (tail : Text), a = c :: tail ∧
      visits config 0 s offset previous (a ++ rest)
        = ⟨offset, s, previous, c, tail ++ rest⟩
          :: visits config 0 s' (offset + a.length) (a.lastOr previous) rest := by
  obtain ⟨c, tail, rfl, hStep⟩ := h.step_eq
  refine ⟨c, tail, rfl, ?_⟩
  rw [List.cons_append, visits, Visit.step, hStep, visits_skip, Text.lastOr_cons, List.length_cons,
    Nat.add_assoc, Nat.add_comm 1]

/-- A move stands at its first character only. -/
theorem Move.visits_eq {config : Config} {s s' : State} {previous : Option CodePoint}
    {a rest : Text} (h : Move config s previous a rest.head? s') (offset : Nat) :
    ∃ v : Visit, v.offset = offset ∧ v.state = s ∧
      visits config 0 s offset previous (a ++ rest)
        = v :: visits config 0 s' (offset + a.length) (a.lastOr previous) rest := by
  obtain ⟨c, tail, -, hVisits⟩ := h.visits_cons offset
  exact ⟨_, rfl, rfl, hVisits⟩

theorem visits_abandoned_cons {config : Config} {s : State} (hs : s.InBlock) {more : Text}
    {cause : Abandonment}
    (h : readCandidate config (('-' : CodePoint) :: ('-' : CodePoint) :: more) = .error cause)
    (offset : Nat) (previous : Option CodePoint) :
    visits config 0 s offset previous (('-' : CodePoint) :: ('-' : CodePoint) :: more)
      = ⟨offset, s, previous, '-', ('-' : CodePoint) :: more⟩
        :: visits config 0 s (offset + 1) (some '-') (('-' : CodePoint) :: more) := by
  rw [visits, Visit.step, hs.step_eq, State.candidate, h]

/-- So does an abandoned candidate. -/
theorem visits_abandoned {config : Config} {s : State} (hs : s.InBlock) {more : Text}
    {cause : Abandonment}
    (h : readCandidate config (('-' : CodePoint) :: ('-' : CodePoint) :: more) = .error cause)
    (offset : Nat) (previous : Option CodePoint) :
    ∃ v : Visit, v.offset = offset ∧ v.state = s ∧
      visits config 0 s offset previous (('-' : CodePoint) :: ('-' : CodePoint) :: more)
        = v :: visits config 0 s (offset + 1) (some '-') (('-' : CodePoint) :: more) :=
  ⟨_, rfl, rfl, visits_abandoned_cons hs h offset previous⟩

/-- Of a declaration the walk stands at the first hyphen, and goes on at the terminator or, without
standing at it, behind it. -/
theorem visits_found_cons {config : Config} {s : State} (hs : s.InBlock) (d : Spelling config)
    {x : CodePoint} (hx : isTerminator x = true) (offset : Nat) (previous : Option CodePoint)
    (rest : Text) :
    ∃ (tail : Text) (later : List Visit),
      visits config 0 s offset previous (d.head ++ (d.value ++ x :: rest))
        = ⟨offset, s, previous, '-', tail⟩ :: later ∧
      (visits config 0 s (offset + d.head.length + d.value.length) (d.value.lastOr (some ':'))
          (x :: rest) = later ∨
        ∃ v : Visit, v.char = (';' : CodePoint) ∧
          visits config 0 s (offset + d.head.length + d.value.length) (d.value.lastOr (some ':'))
            (x :: rest) = v :: later) := by
  obtain ⟨tail, hTail, hLast, hStep⟩ := hs.step_found d hx
  have hLength : d.head.length + d.value.length = tail.length + 1 := by
    rw [← List.length_append, hTail, List.length_cons]
  have hHead : visits config 0 s offset previous (d.head ++ (d.value ++ x :: rest))
      = ⟨offset, s, previous, '-', tail ++ x :: rest⟩ :: visits config
          (if x = ('}' : CodePoint) then tail.length else tail.length + 1) s (offset + 1)
          (some '-') (tail ++ x :: rest) := by
    rw [← List.append_assoc, hTail, List.cons_append, visits, Visit.step, hStep]
  refine ⟨_, _, hHead, ?_⟩
  rw [Nat.add_assoc, hLength, ← hLast]
  rcases isTerminator_iff.mp hx with rfl | rfl
  · -- The walk passes over the semicolon without standing at it.
    obtain ⟨c, after, hText, hVisits⟩ :=
      (hs.move_semicolon config (tail.lastOr (some '-')) rest.head?).visits_cons
        (offset + (tail.length + 1))
    cases hText
    have hOffset : offset + 1 + tail.length + 1 = offset + (tail.length + 1) + 1 := by omega
    rw [List.singleton_append] at hVisits
    rw [if_neg (by simp), visits_skip_succ, hVisits, hOffset]
    exact Or.inr ⟨_, rfl, rfl⟩
  · rw [if_pos rfl, visits_skip, Nat.add_assoc, Nat.add_comm 1]
    exact Or.inl rfl

theorem visits_found {config : Config} {s : State} (hs : s.InBlock) (d : Spelling config)
    {x : CodePoint} (hx : isTerminator x = true) (offset : Nat) (previous : Option CodePoint)
    (rest : Text) :
    ∃ (v : Visit) (later : List Visit), v.offset = offset ∧ v.state = s ∧
      visits config 0 s offset previous (d.head ++ (d.value ++ x :: rest)) = v :: later ∧
      later ⊆ visits config 0 s (offset + d.head.length + d.value.length)
        (d.value.lastOr (some ':')) (x :: rest) := by
  obtain ⟨tail, later, hVisits, hLater | ⟨v, -, hLater⟩⟩ :=
    visits_found_cons hs d hx offset previous rest
  · refine ⟨_, later, rfl, rfl, hVisits, ?_⟩
    rw [hLater]
    exact List.Subset.refl later
  · refine ⟨_, later, rfl, rfl, hVisits, ?_⟩
    rw [hLater]
    exact List.subset_cons_self v later

theorem visits_ascending (config : Config) (skip : Nat) (s : State) (offset : Nat)
    (previous : Option CodePoint) (t : Text) :
    (∀ v ∈ visits config skip s offset previous t, offset ≤ v.offset) ∧
      (visits config skip s offset previous t).Pairwise (·.offset < ·.offset) := by
  induction t generalizing skip s offset previous with
  | nil =>
    rw [visits]
    exact ⟨fun v hv => absurd hv List.not_mem_nil, .nil⟩
  | cons c rest ih =>
    cases skip with
    | succ skip =>
      obtain ⟨hLow, hOrder⟩ := ih skip s (offset + 1) (some c)
      rw [visits]
      exact ⟨fun v hv => Nat.le_of_succ_le (hLow v hv), hOrder⟩
    | zero =>
      rw [visits]
      obtain ⟨hLow, hOrder⟩ := ih _ _ (offset + 1) (some c)
      refine ⟨?_, List.pairwise_cons.mpr ⟨fun v hv => hLow v hv, hOrder⟩⟩
      intro v hv
      rcases List.mem_cons.mp hv with rfl | hv
      · exact Nat.le_refl offset
      · exact Nat.le_of_succ_le (hLow v hv)

end CustomProperties.Scan
