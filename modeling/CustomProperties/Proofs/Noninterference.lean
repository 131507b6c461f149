import CustomProperties.Proofs.Stylesheet
import CustomProperties.Proofs.Walk
import Mathlib.Data.List.Forall2

/-!
# What a configuration can change

Three settings go into a scan, and only one of them can move its cursor.  The fallback selector and
the switch for quoted selectors reach the prelude and the selector of the state, which no test of a
walk looks at; so two walks under different settings stand at the same places in the same mode and
at the same depth (`State.Aligned`), and read the same candidates there.  The switch for comments in
values is looked at where a comment opens, and nowhere else.

* `readCandidate_eq_of_sameComments`: a candidate reads alike under two configurations that treat
  the comments in it alike.
* `events_walk_aligned`: the candidates of two walks in step are the same, selectors aside.
* `scan_agree`: **the settings for selectors change nothing but selectors**, and where no comment
  opens the setting for comments changes nothing at all.
-/

namespace CustomProperties

namespace Scan

variable {config config' : Config}

/-! ## Candidates -/

/-- Two configurations treat the comments in a text alike: either they agree about comments, or
there are none. -/
def SameComments (config config' : Config) (t : Text) : Prop :=
  config.skipComments = config'.skipComments ∨ ¬ commentOpen <:+: t

theorem SameComments.of_infix {t u : Text} (h : SameComments config config' t) (hu : u <:+: t) :
    SameComments config config' u :=
  h.imp_right fun hNone hOpen => hNone (hOpen.trans hu)

/-- Only where a comment opens does a value's state depend on the treatment of comments. -/
theorem ValueState.advance_of_not_commentOpen (b b' : Bool) (s : ValueState)
    (previous : Option CodePoint) {c : CodePoint} {next : Option CodePoint}
    (h : ¬ (c = ('/' : CodePoint) ∧ next = some ('*' : CodePoint))) :
    s.advance b previous c next = s.advance b' previous c next := by
  simp [advance, h]

theorem valueEnd_of_not_commentOpen (b b' : Bool) (s : ValueState) (previous : Option CodePoint)
    {t : Text} (h : ¬ commentOpen <:+: t) :
    valueEnd b s previous t = valueEnd b' s previous t := by
  induction t generalizing s previous with
  | nil => rfl
  | cons c t ih =>
    have hHere : ¬ (c = ('/' : CodePoint) ∧ t.head? = some ('*' : CodePoint)) := by
      rintro ⟨rfl, hStar⟩
      obtain ⟨rest, rfl⟩ := eq_cons_of_head? hStar
      exact h ⟨[], rest, rfl⟩
    have hLater : ¬ commentOpen <:+: t :=
      fun hOpen => h (hOpen.trans (List.suffix_cons c t).isInfix)
    rw [valueEnd, valueEnd, ValueState.advance_of_not_commentOpen b b' s previous hHere,
      ih _ _ hLater]

theorem SameComments.valueEnd_eq {t : Text} (h : SameComments config config' t) (s : ValueState)
    (previous : Option CodePoint) :
    valueEnd config.skipComments s previous t = valueEnd config'.skipComments s previous t := by
  rcases h with hSame | hNone
  · rw [hSame]
  · exact valueEnd_of_not_commentOpen _ _ s previous hNone

/-- **A candidate reads alike** under configurations that treat its comments alike. -/
theorem readCandidate_eq_of_sameComments {t : Text} (h : SameComments config config' t) :
    readCandidate config t = readCandidate config' t := by
  cases hEnd : nameEnd none none t with
  | endOfText => simp only [readCandidate, hEnd]
  | terminator n => simp only [readCandidate, hEnd]
  | colon n =>
    have hValue := (h.of_infix (List.drop_suffix (n + 1) t).isInfix).valueEnd_eq {} (some ':')
    simp only [readCandidate, hEnd, hValue]

def Spelling.recast (d : Spelling config) {x : CodePoint} (hx : isTerminator x = true) {rest : Text}
    (h : SameComments config config' (d.value ++ x :: rest)) : Spelling config' where
  name := d.name
  blanks := d.blanks
  value := d.value
  name_valid := d.name_valid
  blanks_blank := d.blanks_blank
  value_closed := closed_of_valueEnd hx
    ((h.valueEnd_eq {} (some ':')).symm.trans (d.value_closed.valueEnd_eq hx rest))

/-! ## Walks in step -/

/-- Two states in step: the walks stand in the same mode at the same depth, and have the same
selectors if they treat the strings in them alike. -/
structure State.Aligned (config config' : Config) (s s' : State) : Prop where
  mode : s.mode = s'.mode
  depth : s.depth = s'.depth
  prelude : config.keepStrings = config'.keepStrings → s.prelude = s'.prelude
  selector : config.keepStrings = config'.keepStrings → s.selector = s'.selector

namespace State.Aligned

variable {s s' : State}

theorem withMode (h : s.Aligned config config' s') (m : Mode) :
    { s with mode := m }.Aligned config config' { s' with mode := m } :=
  ⟨rfl, h.depth, h.prelude, h.selector⟩

theorem keepPrelude (h : s.Aligned config config' s') (c : CodePoint) :
    { s with prelude := s.prelude ++ [c] }.Aligned config config'
      { s' with prelude := s'.prelude ++ [c] } :=
  ⟨h.mode, h.depth, fun hKeep => congrArg (· ++ [c]) (h.prelude hKeep), h.selector⟩

theorem keepQuoted (h : s.Aligned config config' s') (c : CodePoint) :
    (s.keepQuoted config c).Aligned config config' (s'.keepQuoted config' c) := by
  rw [State.keepQuoted, State.keepQuoted]
  split
  · rename_i hKept
    split
    · exact h.keepPrelude c
    · -- Only one of the two configurations keeps strings, so nothing is asked of the preludes.
      rename_i hDropped
      refine ⟨h.mode, h.depth, ?_, h.selector⟩
      intro hKeep
      exact absurd ⟨h.depth ▸ hKept.1, hKeep ▸ hKept.2⟩ hDropped
  · rename_i hDropped
    split
    · rename_i hKept
      refine ⟨h.mode, h.depth, ?_, h.selector⟩
      intro hKeep
      exact absurd ⟨h.depth.symm ▸ hKept.1, hKeep.symm ▸ hKept.2⟩ hDropped
    · exact h

theorem openBlock (h : s.Aligned config config' s') :
    s.openBlock.Aligned config config' s'.openBlock := by
  refine ⟨h.mode, congrArg (· + 1) h.depth, fun _ => rfl, ?_⟩
  intro hKeep
  show (if s.depth = 0 then s.prelude.trim else s.selector)
    = if s'.depth = 0 then s'.prelude.trim else s'.selector
  rw [h.depth, h.prelude hKeep, h.selector hKeep]

theorem closeBlock (h : s.Aligned config config' s') :
    s.closeBlock.Aligned config config' s'.closeBlock := by
  refine ⟨h.mode, congrArg (· - 1) h.depth, fun _ => rfl, ?_⟩
  intro hKeep
  show (if s.depth = 1 then [] else s.selector) = if s'.depth = 1 then [] else s'.selector
  rw [h.depth, h.selector hKeep]

theorem inStep (config config' : Config) : InStep config config' (State.Aligned config config') :=
  ⟨mode, depth, withMode, keepPrelude, keepQuoted, openBlock, closeBlock⟩

end State.Aligned

end Scan

/-- The two declarations are the same, selectors aside. -/
structure Declaration.SameSpan (d d' : Declaration) : Prop where
  id : d.id = d'.id
  name : d.name = d'.name
  value : d.value = d'.value
  start : d.start = d'.start
  stop : d.stop = d'.stop

/-- The selectors are the same, or each is the fallback of its own configuration. -/
def Declaration.SameSelector (config config' : Config) (d d' : Declaration) : Prop :=
  d.selector = d'.selector ∨
    d.selector = config.fallbackSelector ∧ d'.selector = config'.fallbackSelector

theorem Declaration.eq_of_sameSpan {config config' : Config} {d d' : Declaration}
    (hSpan : d.SameSpan d') (hSelector : SameSelector config config' d d')
    (hFallback : config.fallbackSelector = config'.fallbackSelector) : d = d' := by
  have hSame : d.selector = d'.selector := by
    rcases hSelector with hSame | ⟨hd, hd'⟩
    · exact hSame
    · rw [hd, hd', hFallback]
  cases d
  cases d'
  obtain ⟨rfl, rfl, rfl, rfl, rfl⟩ := hSpan
  cases hSame
  rfl

namespace Scan

variable {config config' : Config}

/-- Two candidates at the same offset: both are abandoned for the same cause, or both are the same
declaration, with the same selector if strings in selectors are treated alike. -/
inductive Event.Agree (config config' : Config) : Event → Event → Prop
  | found (offset : Nat) {d d' : Declaration} : d.SameSpan d' →
      (config.keepStrings = config'.keepStrings → Declaration.SameSelector config config' d d') →
      Agree config config' (.found offset d) (.found offset d')
  | abandoned (offset : Nat) (cause : Abandonment) :
      Agree config config' (.abandoned offset cause) (.abandoned offset cause)

theorem State.Aligned.declare_agree {s s' : State} (h : s.Aligned config config' s') (offset : Nat)
    (r : Reading) : Event.Agree config config' (.found offset (s.declare config offset r))
      (.found offset (s'.declare config' offset r)) := by
  refine .found offset ⟨rfl, rfl, rfl, rfl, rfl⟩ ?_
  intro hKeep
  show (if s.selector.isEmpty then config.fallbackSelector else s.selector)
      = (if s'.selector.isEmpty then config'.fallbackSelector else s'.selector) ∨
    (if s.selector.isEmpty then config.fallbackSelector else s.selector) = config.fallbackSelector ∧
      (if s'.selector.isEmpty then config'.fallbackSelector else s'.selector)
        = config'.fallbackSelector
  rw [h.selector hKeep]
  by_cases hEmpty : s'.selector.isEmpty = true
  · rw [if_pos hEmpty, if_pos hEmpty]
    exact Or.inr ⟨rfl, rfl⟩
  · rw [if_neg hEmpty, if_neg hEmpty]
    exact Or.inl rfl

/-- **Walks in step meet the same candidates.** -/
theorem events_walk_aligned (s : State) (offset : Nat) (previous : Option CodePoint) (t : Text)
    (s' : State) (h : s.Aligned config config' s') (ht : SameComments config config' t) :
    List.Forall₂ (Event.Agree config config') (walk config 0 s offset previous t).events
      (walk config' 0 s' offset previous t).events := by
  have hStep := State.Aligned.inStep config config'
  revert s' h ht
  refine walk_induction (motive := fun s offset previous t trace => ∀ s' : State,
    s.Aligned config config' s' → SameComments config config' t →
    List.Forall₂ (Event.Agree config config') trace.events
      (walk config' 0 s' offset previous t).events) ?_ ?_ ?_ ?_ s offset previous t
  · intro s offset previous s' _ _
    rw [walk]
    exact .nil
  · intro s offset previous a rest s₁ _ hMove ih s' h ht
    obtain ⟨s₁', hMove', h₁⟩ := hStep.move h hMove
    rw [hMove'.walk_eq]
    exact ih s₁' h₁ (ht.of_infix (List.suffix_append a rest).isInfix)
  · intro s offset previous more cause hs hRead ih s' h ht
    rw [readCandidate_eq_of_sameComments ht] at hRead
    rw [walk_abandoned (hStep.inBlock h hs) hRead]
    exact .cons (.abandoned offset cause) (ih s' h (ht.of_infix (List.suffix_cons _ _).isInfix))
  · intro s offset previous d x rest hs hx ih s' h ht
    have hValue : SameComments config config' (d.value ++ x :: rest) :=
      ht.of_infix (List.suffix_append d.head _).isInfix
    have hRest : SameComments config config' (x :: rest) :=
      hValue.of_infix (List.suffix_append d.value _).isInfix
    have hFound := walk_found (hStep.inBlock h hs) (d.recast hx hValue) hx offset previous rest
    show List.Forall₂ _ _ (walk config' 0 s' offset previous
      ((d.recast hx hValue).head ++ ((d.recast hx hValue).value ++ x :: rest))).events
    rw [hFound]
    exact .cons (h.declare_agree offset d.reading) (ih s' h hRest)

theorem forall₂_declaration? {r : Declaration → Declaration → Prop}
    (hr : ∀ d d' : Declaration, d.SameSpan d' →
      (config.keepStrings = config'.keepStrings → Declaration.SameSelector config config' d d') →
      r d d')
    {es es' : List Event} (h : List.Forall₂ (Event.Agree config config') es es') :
    List.Forall₂ r (es.filterMap Event.declaration?) (es'.filterMap Event.declaration?) := by
  induction h with
  | nil => exact .nil
  | cons hHead _ ih =>
    cases hHead with
    | abandoned offset cause => exact ih
    | found offset hSpan hSelector => exact .cons (hr _ _ hSpan hSelector) ih

/-- **The settings for selectors change nothing but selectors.**  Two scans of a source whose
comments are treated alike find the same declarations, index by index.  If strings in selectors are
treated alike too, the selectors are the same or each is its own fallback; so configurations that
differ in the treatment of comments alone agree on every source in which no comment opens. -/
theorem scan_agree (config config' : Config) (source : Text)
    (h : config.skipComments = config'.skipComments ∨ ¬ commentOpen <:+: source) :
    List.Forall₂ Declaration.SameSpan (scan config source) (scan config' source) ∧
    (config.keepStrings = config'.keepStrings →
      List.Forall₂ (Declaration.SameSelector config config') (scan config source)
        (scan config' source)) ∧
    (config.keepStrings = config'.keepStrings →
      config.fallbackSelector = config'.fallbackSelector →
      scan config source = scan config' source) := by
  have hEvents : List.Forall₂ (Event.Agree config config') (trace config source).events
      (trace config' source).events :=
    events_walk_aligned {} 0 none source {} ⟨rfl, rfl, fun _ => rfl, fun _ => rfl⟩ h
  refine ⟨forall₂_declaration? (fun d d' hSpan _ => hSpan) hEvents, ?_, ?_⟩
  · intro hKeep
    exact forall₂_declaration? (fun d d' _ hSelector => hSelector hKeep) hEvents
  · intro hKeep hFallback
    have hSame : List.Forall₂ (· = ·) (scan config source) (scan config' source) := by
      refine forall₂_declaration? ?_ hEvents
      intro d d' hSpan hSelector
      exact Declaration.eq_of_sameSpan hSpan (hSelector hKeep) hFallback
    rwa [List.forall₂_eq_eq_eq] at hSame

/-- A quoted selector and an empty one, under configurations that differ in everything: the
selectors differ, and nothing else does. -/
theorem scan_agree_quotedSelector :
    ¬ commentOpen <:+: Text.ofString "'q' a\x7b--x:1;\x7d\x7b--y:2\x7d" ∧
    ((scan ⟨"", true, true⟩ "'q' a\x7b--x:1;\x7d\x7b--y:2\x7d").map (·.selector) = ["'q' a", ""] ∧
      (scan {} "'q' a\x7b--x:1;\x7d\x7b--y:2\x7d").map (·.selector) = ["a", "Global"]) ∧
    List.Forall₂ Declaration.SameSpan
      (scan ⟨"", true, true⟩ "'q' a\x7b--x:1;\x7d\x7b--y:2\x7d")
      (scan {} "'q' a\x7b--x:1;\x7d\x7b--y:2\x7d") := by
  have hNone : ¬ commentOpen <:+: Text.ofString "'q' a\x7b--x:1;\x7d\x7b--y:2\x7d" := by
    decide +kernel
  exact ⟨hNone, by decide +kernel, (scan_agree ⟨"", true, true⟩ {} _ (Or.inr hNone)).1⟩

end Scan

end CustomProperties
