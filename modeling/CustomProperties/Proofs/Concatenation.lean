import CustomProperties.Proofs.Span
import Mathlib.Data.List.Forall2

/-!
# The scan of two texts one after the other

A walk that comes to the end of a text at rest, which is outside every block, comment and string
and with nothing but blanks since the last brace, has no business left there.  What follows is
walked over as if it stood alone, except that the blanks stand in front of its first selector, where
trimming takes them away again (`State.Padded`).

Three things could go wrong where the texts meet, and rest excludes two of them.  A comment mark
whose first half ends the first text would leave a slash in the prelude or the walk in a comment,
and a backslash in front of a quote would leave a backslash in the prelude or the walk in a string
(`Move.of_atRest`).  The third is a candidate of the first text whose search runs on into the
second; there the events say that none did (`Event.settled`).

* `walk_append`: the walk over the first text is not changed by the second.
* `walk_padded`: blanks in front of the prelude change nothing that a walk finds.
* `scan_append`: **the declarations of two texts are those of the first, then those of the second.**
-/

namespace CustomProperties

/-- The declaration `n` characters further on: both numbers of its id grow by `n`, as its span
does. -/
structure Declaration.Moved (n : Nat) (d d' : Declaration) : Prop where
  id : ∃ a b : Int, d.id = idAt a b ∧ d'.id = idAt (a + n) (b + n)
  name : d'.name = d.name
  value : d'.value = d.value
  start : d'.start = d.start + n
  stop : d'.stop = d.stop + n
  selector : d'.selector = d.selector

namespace Scan

/-- The walk stands outside every block, comment and string, with nothing but blanks since the last
brace. -/
structure State.AtRest (s : State) : Prop where
  normal : s.mode = .normal
  top : s.depth = 0
  blank : s.prelude.isBlank = true

instance (s : State) : Decidable s.AtRest :=
  decidable_of_iff (s.mode = .normal ∧ s.depth = 0 ∧ s.prelude.isBlank = true)
    ⟨fun h => ⟨h.1, h.2.1, h.2.2⟩, fun h => ⟨h.normal, h.top, h.blank⟩⟩

/-- The candidate was not abandoned because a search came to the end of the text. -/
def Event.settled : Event → Bool
  | found _ _ => true
  | abandoned _ cause => cause.nameStop?.isSome

/-! ## The end of the first text -/

/-- **A move to rest does not depend on what follows**, and leaves nothing escaped. -/
theorem Move.of_atRest {config : Config} {s s' : State} {previous next : Option CodePoint}
    {a : Text} (h : Move config s previous a next s') (hs' : s'.AtRest) :
    (∀ next', Move config s previous a next' s') ∧ Quote.escaped (a.lastOr previous) = false := by
  obtain ⟨hNormal, hTop, hBlank⟩ := hs'
  cases h with
  | closeComment hm => exact ⟨fun _ => .closeComment hm, rfl⟩
  | inComment hm =>
    rw [hm] at hNormal
    cases hNormal
  | @closeString q _ hm hp => exact ⟨fun _ => .closeString hm hp, q.escaped_char⟩
  | inString hm =>
    rw [State.mode_keepQuoted, hm] at hNormal
    cases hNormal
  | openComment hm => cases hNormal
  | openString hm =>
    rw [State.mode_keepQuoted] at hNormal
    cases hNormal
  | openBlock hm => exact ⟨fun _ => .openBlock hm, rfl⟩
  | closeBlock hm => exact ⟨fun _ => .closeBlock hm, rfl⟩
  | @prelude c _ hm hd ho =>
    have hc : c.isBlank = true := Text.isBlank_iff.mp hBlank c (by simp)
    refine ⟨fun next' => .prelude hm hd ⟨?_, ho.not_quote, ho.not_open, ho.not_close⟩, ?_⟩
    · rintro ⟨rfl, -⟩
      exact absurd hc (by decide)
    · have hne : c ≠ ('\\' : CodePoint) := by
        rintro rfl
        exact absurd hc (by decide)
      simpa [Quote.escaped] using hne
  | body hs =>
    have := hs.deep
    omega

def Trace.append (first second : Trace) : Trace :=
  { second with events := first.events ++ second.events }

theorem Trace.append_after (first second : Trace) (event : Event) :
    (first.append second).after (some event) = (first.after (some event)).append second := rfl

/-- **The walk over a text that ends at rest is not changed by what follows.** -/
theorem walk_append (config : Config) (s : State) (offset : Nat) (previous : Option CodePoint)
    (t behind : Text) (hRest : (walk config 0 s offset previous t).state.AtRest)
    (hSettled : ∀ e ∈ (walk config 0 s offset previous t).events, e.settled = true) :
    walk config 0 s offset previous (t ++ behind) = (walk config 0 s offset previous t).append
      (walk config 0 (walk config 0 s offset previous t).state (offset + t.length)
        (t.lastOr previous) behind) := by
  revert hRest hSettled
  refine walk_induction (motive := fun s offset previous t trace =>
    trace.state.AtRest → (∀ e ∈ trace.events, e.settled = true) →
    walk config 0 s offset previous (t ++ behind) = trace.append
      (walk config 0 trace.state (offset + t.length) (t.lastOr previous) behind))
    ?_ ?_ ?_ ?_ s offset previous t
  · intro s offset previous _ _
    rfl
  · intro s offset previous a rest s' _ hMove ih hRest hSettled
    have hMove' : Move config s previous a (rest ++ behind).head? s' := by
      cases rest with
      | nil =>
        rw [walk] at hRest
        exact (hMove.of_atRest hRest).1 _
      | cons c rest => exact hMove
    rw [List.append_assoc, hMove'.walk_eq, ih hRest hSettled, List.length_append, Nat.add_assoc,
      Text.lastOr_append]
  · intro s offset previous more cause hs hRead ih hRest hSettled
    have hLater : ∀ e ∈ (walk config 0 s (offset + 1) (some '-')
        (('-' : CodePoint) :: more)).events, e.settled = true :=
      fun e he => hSettled e (List.mem_cons_of_mem _ he)
    obtain ⟨n, hn⟩ := Option.isSome_iff_exists.mp (hSettled _ List.mem_cons_self)
    have hStop := nameEnd_stop_lt (stop?_of_readCandidate hRead hn)
    have hAgain : readCandidate config
        (('-' : CodePoint) :: ('-' : CodePoint) :: (more ++ behind)) = .error cause := by
      refine readCandidate_congr hRead hn ?_
      rw [← List.cons_append, ← List.cons_append, List.take_append_of_le_length hStop]
    rw [List.cons_append, List.cons_append, walk_abandoned hs hAgain, ← List.cons_append,
      ih hRest hLater, Trace.append_after, Text.lastOr_cons _ (_ :: more), List.length_cons,
      Nat.add_assoc, Nat.add_comm 1]
    rfl
  · intro s offset previous d x rest hs hx ih hRest hSettled
    have hLater : ∀ e ∈ (walk config 0 s (offset + d.head.length + d.value.length)
        (d.value.lastOr (some ':')) (x :: rest)).events, e.settled = true :=
      fun e he => hSettled e (List.mem_cons_of_mem _ he)
    have hLast : (d.head ++ (d.value ++ x :: rest)).lastOr previous
        = Text.lastOr (x :: rest) (d.value.lastOr (some ':')) := by simp
    have hLength : offset + (d.head ++ (d.value ++ x :: rest)).length
        = offset + d.head.length + d.value.length + (x :: rest).length := by
      rw [List.length_append, List.length_append]
      omega
    rw [List.append_assoc, List.append_assoc, List.cons_append, walk_found hs d hx,
      ← List.cons_append, ih hRest hLater, Trace.append_after, hLast, hLength]
    rfl

theorem not_escaped_of_atRest (config : Config) (s : State) (offset : Nat)
    (previous : Option CodePoint) (t : Text) (ht : t ≠ [])
    (hRest : (walk config 0 s offset previous t).state.AtRest) :
    Quote.escaped (t.lastOr previous) = false := by
  revert ht hRest
  refine walk_induction (motive := fun s offset previous t trace => t ≠ [] →
    trace.state.AtRest → Quote.escaped (t.lastOr previous) = false) ?_ ?_ ?_ ?_ s offset previous t
  · intro s offset previous ht
    exact absurd rfl ht
  · intro s offset previous a rest s' _ hMove ih _ hRest
    rw [Text.lastOr_append]
    cases rest with
    | nil =>
      rw [walk] at hRest
      exact (hMove.of_atRest hRest).2
    | cons c rest => exact ih (List.cons_ne_nil c rest) hRest
  · intro s offset previous more cause _ _ ih _ hRest
    exact ih (List.cons_ne_nil _ _) hRest
  · intro s offset previous d x rest _ _ ih _ hRest
    have h := ih (List.cons_ne_nil x rest) hRest
    rw [Text.lastOr_append, Text.lastOr_append]
    rwa [Text.lastOr_cons] at h ⊢

/-! ## The beginning of the second text -/

/-- Two states of which the first has more blanks in front of its prelude.  The selector counts
inside a block only. -/
structure State.Padded (s s' : State) : Prop where
  mode : s.mode = s'.mode
  depth : s.depth = s'.depth
  prelude : ∃ blanks : Text, blanks.isBlank = true ∧ s.prelude = blanks ++ s'.prelude
  selector : 0 < s.depth → s.selector = s'.selector

namespace State.Padded

variable {config : Config} {s s' : State}

theorem withMode (h : s.Padded s') (m : Mode) : { s with mode := m }.Padded { s' with mode := m } :=
  ⟨rfl, h.depth, h.prelude, h.selector⟩

theorem keepPrelude (h : s.Padded s') (c : CodePoint) :
    { s with prelude := s.prelude ++ [c] }.Padded { s' with prelude := s'.prelude ++ [c] } := by
  obtain ⟨blanks, hBlanks, hPrelude⟩ := h.prelude
  refine ⟨h.mode, h.depth, ⟨blanks, hBlanks, ?_⟩, h.selector⟩
  rw [hPrelude, List.append_assoc]

theorem keepQuoted (h : s.Padded s') (c : CodePoint) :
    (s.keepQuoted config c).Padded (s'.keepQuoted config c) := by
  by_cases hKeep : s.depth = 0 ∧ config.keepStrings = true
  · rw [State.keepQuoted, if_pos hKeep, State.keepQuoted, if_pos (h.depth ▸ hKeep)]
    exact h.keepPrelude c
  · rw [State.keepQuoted, if_neg hKeep, State.keepQuoted, if_neg (h.depth ▸ hKeep)]
    exact h

theorem openBlock (h : s.Padded s') : s.openBlock.Padded s'.openBlock := by
  obtain ⟨blanks, hBlanks, hPrelude⟩ := h.prelude
  refine ⟨h.mode, congrArg (· + 1) h.depth, ⟨[], rfl, rfl⟩, fun _ => ?_⟩
  show (if s.depth = 0 then s.prelude.trim else s.selector)
    = if s'.depth = 0 then s'.prelude.trim else s'.selector
  rw [← h.depth]
  by_cases hd : s.depth = 0
  · rw [if_pos hd, if_pos hd, hPrelude, Text.trim_blank_append hBlanks]
  · rw [if_neg hd, if_neg hd, h.selector (by omega)]

theorem closeBlock (h : s.Padded s') : s.closeBlock.Padded s'.closeBlock := by
  refine ⟨h.mode, congrArg (· - 1) h.depth, ⟨[], rfl, rfl⟩, fun hd => ?_⟩
  have hDeep : 0 < s.depth - 1 := hd
  show (if s.depth = 1 then [] else s.selector) = if s'.depth = 1 then [] else s'.selector
  rw [← h.depth, if_neg (by omega), if_neg (by omega), h.selector (by omega)]

theorem inStep (config : Config) : InStep config config State.Padded :=
  ⟨mode, depth, withMode, keepPrelude, keepQuoted, openBlock, closeBlock⟩

theorem declare_eq (h : s.Padded s') (hs : s.InBlock) (offset : Nat) (r : Reading) :
    s.declare config offset r = s'.declare config offset r := by
  simp only [State.declare, h.selector hs.deep]

end State.Padded

/-- **Blanks in front of the prelude change nothing that a walk finds.** -/
theorem walk_padded (config : Config) (s : State) (offset : Nat) (previous : Option CodePoint)
    (t : Text) (s' : State) (h : s.Padded s') :
    (walk config 0 s offset previous t).events = (walk config 0 s' offset previous t).events ∧
      (walk config 0 s offset previous t).state.Padded
        (walk config 0 s' offset previous t).state := by
  have hStep := State.Padded.inStep config
  revert s'
  refine walk_induction (motive := fun s offset previous t trace => ∀ s' : State, s.Padded s' →
    trace.events = (walk config 0 s' offset previous t).events ∧
      trace.state.Padded (walk config 0 s' offset previous t).state)
    ?_ ?_ ?_ ?_ s offset previous t
  · intro s offset previous s' h
    exact ⟨rfl, h⟩
  · intro s offset previous a rest s₁ _ hMove ih s' h
    obtain ⟨s₁', hMove', h₁⟩ := hStep.move h hMove
    rw [hMove'.walk_eq]
    exact ih s₁' h₁
  · intro s offset previous more cause hs hRead ih s' h
    obtain ⟨hEvents, hState⟩ := ih s' h
    rw [walk_abandoned (hStep.inBlock h hs) hRead]
    exact ⟨congrArg (_ :: ·) hEvents, hState⟩
  · intro s offset previous d x rest hs hx ih s' h
    obtain ⟨hEvents, hState⟩ := ih s' h
    rw [walk_found (hStep.inBlock h hs) d hx, h.declare_eq hs]
    exact ⟨congrArg (_ :: ·) hEvents, hState⟩

/-- Of the character in front it only matters whether it is a backslash. -/
theorem walk_escaped_congr {previous previous' : Option CodePoint}
    (h : Quote.escaped previous = Quote.escaped previous') (config : Config) (s : State)
    (offset : Nat) (t : Text) :
    walk config 0 s offset previous t = walk config 0 s offset previous' t := by
  cases t with
  | nil => rw [walk, walk]
  | cons c rest =>
    have hStep : s.step config offset previous c rest = s.step config offset previous' c rest := by
      simp only [State.step, h]
    rw [walk_cons, walk_cons, hStep]

theorem State.AtRest.padded {s : State} (hs : s.AtRest) : s.Padded {} :=
  ⟨hs.normal, hs.top, ⟨s.prelude, hs.blank, (List.append_nil _).symm⟩,
    fun hd => absurd hs.top (by omega)⟩

/-- **From rest a text is walked over as from the start**, only further on. -/
theorem events_of_atRest (config : Config) {s : State} (hs : s.AtRest)
    {previous : Option CodePoint} (hp : Quote.escaped previous = false) (n : Nat) (t : Text) :
    (walk config 0 s n previous t).events = (trace config t).events.map (Event.shift n) := by
  have hShift := walk_shift config {} 0 n none t
  rw [Nat.zero_add] at hShift
  have hFront : Quote.escaped previous = Quote.escaped none := hp
  rw [walk_escaped_congr hFront,
    (walk_padded config s n none t {} hs.padded).1, hShift]
  rfl

theorem moved_shift (n : Nat) (events : List Event)
    (h : ∀ c d, Event.found c d ∈ events → d.id = Declaration.idAt c d.start) :
    List.Forall₂ (Declaration.Moved n) (events.filterMap Event.declaration?)
      ((events.map (Event.shift n)).filterMap Event.declaration?) := by
  induction events with
  | nil => exact .nil
  | cons e events ih =>
    have hLater := ih fun c d hd => h c d (List.mem_cons_of_mem e hd)
    cases e with
    | abandoned c cause => exact hLater
    | found c d =>
      have hId := h c d List.mem_cons_self
      exact .cons ⟨⟨c, d.start, hId, rfl⟩, rfl, rfl, rfl, rfl, rfl⟩ hLater

theorem id_eq_of_found_mem {config : Config} {source : Text} {c : Nat} {d : Declaration}
    (h : Event.found c d ∈ (trace config source).events) :
    d.id = Declaration.idAt c d.start := by
  have hFinding : (c, d) ∈ (walkFrom config {} source).findings :=
    List.mem_filterMap.mpr ⟨_, h, rfl⟩
  exact ((wellPlaced_walkFrom config {} source).placed _ hFinding).id_eq

/-- **The declarations of two texts are those of the first, then those of the second**, which stand
further on by the length of the first.  The first text has to end at rest, and no search of a
candidate in it may have come to its end. -/
theorem scan_append (config : Config) (s t : Text) (hRest : (trace config s).state.AtRest)
    (hSettled : ∀ e ∈ (trace config s).events, e.settled = true) :
    ∃ ds : List Declaration, scan config (s ++ t) = scan config s ++ ds ∧
      List.Forall₂ (Declaration.Moved s.length) (scan config t) ds := by
  have hEscaped : Quote.escaped (s.lastOr none) = false := by
    by_cases hs : s = []
    · rw [hs]
      rfl
    · exact not_escaped_of_atRest config {} 0 none s hs hRest
  have hWalk := walk_append config {} 0 none s t hRest hSettled
  have hEvents := events_of_atRest config hRest hEscaped s.length t
  refine ⟨((trace config t).events.map (Event.shift s.length)).filterMap Event.declaration?, ?_,
    moved_shift s.length _ fun c d => id_eq_of_found_mem⟩
  rw [← hEvents]
  show (walk config 0 {} 0 none (s ++ t)).declarations = _
  rw [hWalk, Nat.zero_add]
  exact List.filterMap_append

/-- A rule with an abandoned candidate and blanks behind it, and another rule. -/
theorem scan_append_rules :
    (trace {} "a\x7b--;--b:1\x7d ").state.AtRest ∧
    (∀ e ∈ (trace {} "a\x7b--;--b:1\x7d ").events, e.settled = true) ∧
    ∃ ds : List Declaration,
      scan {} ("a\x7b--;--b:1\x7d " ++ "c\x7b--d:2\x7d") = scan {} "a\x7b--;--b:1\x7d " ++ ds ∧
      List.Forall₂ (Declaration.Moved 12) (scan {} "c\x7b--d:2\x7d") ds := by
  have hRest : (trace {} "a\x7b--;--b:1\x7d ").state.AtRest := by decide +kernel
  have hSettled : ∀ e ∈ (trace {} "a\x7b--;--b:1\x7d ").events, e.settled = true := by
    decide +kernel
  exact ⟨hRest, hSettled, scan_append {} _ "c\x7b--d:2\x7d" hRest hSettled⟩

end Scan

end CustomProperties
