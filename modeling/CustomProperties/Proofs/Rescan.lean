import CustomProperties.Proofs.Patch

/-!
# Scanning a patched text

The scan of a patched text finds the same declarations with their new values, if every new value is
closed and no abandoned candidate read into a value that may have changed (`Contained`).

The proof cuts the source at its declarations.  `Leads` says that the text in front of a
declaration, up to its colon, takes a walk there whatever stands behind the colon, and
`ledTo_of_declarations` finds such a text in every walk that comes to a declaration.  The patched
text has the same leads with other values behind them, so `relocated_walk` goes from one declaration
to the next in both texts at once.  The offsets drift apart by the changes of length, which is what
`Relocated` counts.

* `scan_patch`: **the scan of a patched text sees exactly the edits.**
-/

namespace CustomProperties

def Edits.resulting (edits : Edits) (d : Declaration) : Text := (edits.newValue? d).getD d.value

def Edits.growth (edits : Edits) (d : Declaration) : Int :=
  (edits.resulting d).length - d.value.length

def Edits.totalGrowth (edits : Edits) : List Declaration → Int
  | [] => 0
  | d :: ds => edits.growth d + edits.totalGrowth ds

namespace Scan

/-- The name search of an abandoned candidate stopped in front of the next declaration's value, if
another declaration follows. -/
def StopsBefore (offset : Nat) (cause : Abandonment) (next : Option Declaration) : Prop :=
  ∀ d ∈ next, ∃ n ∈ cause.nameStop?, (offset + n : Nat) < d.start

instance (offset : Nat) (cause : Abandonment) (next : Option Declaration) :
    Decidable (StopsBefore offset cause next) :=
  inferInstanceAs (Decidable (∀ d ∈ next, ∃ n ∈ cause.nameStop?, (offset + n : Nat) < d.start))

/-- Every abandoned candidate that a declaration follows was abandoned over its name, by what stands
in front of that declaration's value. -/
def Contained : List Event → Prop
  | [] => True
  | .found _ _ :: later => Contained later
  | .abandoned offset cause :: later =>
    StopsBefore offset cause (later.filterMap Event.declaration?).head? ∧ Contained later

instance decidableContained : (events : List Event) → Decidable (Contained events)
  | [] => .isTrue trivial
  | .found _ _ :: later => decidableContained later
  | .abandoned _ _ :: later => @instDecidableAnd _ _ _ (decidableContained later)

theorem Spelling.weave_cons {config : Config} (d : Spelling config) (edits : Edits)
    {e : Declaration} {selector before lead : Text}
    (he : e = d.declaration selector (before.length + lead.length)) :
    ∀ (tail : Text) (later : List Declaration),
      edits.weave (before ++ (lead ++ (d.head ++ (d.value ++ tail)))) before.length (e :: later)
        = lead ++ (d.head ++ (edits.resulting e
          ++ edits.weave (before ++ lead ++ d.head ++ d.value ++ tail)
            (before ++ lead ++ d.head ++ d.value).length later)) := by
  intro tail later
  have hStart : e.start = (before ++ lead ++ d.head).length := by
    rw [he, List.length_append, List.length_append]
    rfl
  have hStop : e.stop = (before ++ lead ++ d.head ++ d.value).length := by
    rw [he, List.length_append, List.length_append, List.length_append]
    rfl
  have hResulting : edits.resulting e = (edits.newValue? e).getD d.value := by
    rw [Edits.resulting, he]
    rfl
  have hLead : (before ++ (lead ++ (d.head ++ (d.value ++ tail)))).slice before.length
      (before ++ lead ++ d.head).length = lead ++ d.head := by
    rw [List.append_assoc before, List.length_append, ← List.append_assoc lead]
    exact Text.slice_append before (lead ++ d.head) _
  have hText : before ++ (lead ++ (d.head ++ (d.value ++ tail)))
      = before ++ lead ++ d.head ++ d.value ++ tail := by
    simp only [List.append_assoc]
  have hValue : (before ++ (lead ++ (d.head ++ (d.value ++ tail)))).slice
      (before ++ lead ++ d.head).length (before ++ lead ++ d.head ++ d.value).length = d.value := by
    rw [@List.length_append _ (before ++ lead ++ d.head), hText, List.append_assoc _ d.value]
    exact Text.slice_append (before ++ lead ++ d.head) d.value tail
  rw [Edits.weave, Edits.written_eq, hStart, hStop, hLead, hValue, hText, hResulting,
    List.append_assoc]

/-! ## In front of a declaration -/

/-- The text takes a walk to the declaration behind it, and meets no other on the way, whatever
stands behind the declaration's colon. -/
structure Leads (config : Config) (s : State) (previous : Option CodePoint) (lead : Text)
    (d : Spelling config) (s' : State) : Prop where
  inBlock : s'.InBlock
  walk_eq : ∀ (offset : Nat) (behind : Text),
    (walk config 0 s offset previous (lead ++ (d.head ++ behind))).declarations
      = (walk config 0 s' (offset + lead.length) (lead.lastOr previous)
          (d.head ++ behind)).declarations

theorem Spelling.head?_append_head {config : Config} (d : Spelling config) (lead : Text) :
    ∀ behind behind' : Text,
      (lead ++ (d.head ++ behind)).head? = (lead ++ (d.head ++ behind')).head? := by
  intro behind behind'
  cases lead with
  | cons c lead => rfl
  | nil =>
    cases h : d.head with
    | cons c head => rfl
    | nil =>
      have := d.length_head
      rw [h] at this
      cases this

theorem Leads.move {config : Config} {s s₁ s' : State} {previous : Option CodePoint}
    {a lead behind : Text} {d : Spelling config}
    (hMove : Move config s previous a (lead ++ (d.head ++ behind)).head? s₁)
    (h : Leads config s₁ (a.lastOr previous) lead d s') :
    Leads config s previous (a ++ lead) d s' := by
  refine ⟨h.inBlock, ?_⟩
  intro offset behind'
  rw [d.head?_append_head lead behind behind'] at hMove
  rw [List.append_assoc, hMove.walk_eq, h.walk_eq, Text.lastOr_append, List.length_append,
    Nat.add_assoc]

theorem Leads.abandoned {config : Config} {s s' : State} {previous : Option CodePoint}
    {lead behind : Text} {d : Spelling config} {cause : Abandonment} {n : Nat} (hs : s.InBlock)
    (hHyphen : (lead ++ (d.head ++ behind)).head? = some ('-' : CodePoint))
    (hRead : readCandidate config (('-' : CodePoint) :: (lead ++ (d.head ++ behind)))
      = .error cause)
    (hStop : cause.nameStop? = some n) (hn : n ≤ (lead ++ d.head).length)
    (h : Leads config s (some '-') lead d s') :
    Leads config s previous (('-' : CodePoint) :: lead) d s' := by
  refine ⟨h.inBlock, ?_⟩
  intro offset behind'
  -- The candidate is abandoned again: it only reads up to the colon of the declaration.
  have hSame : (('-' : CodePoint) :: (lead ++ (d.head ++ behind'))).take (n + 1)
      = (('-' : CodePoint) :: (lead ++ (d.head ++ behind))).take (n + 1) := by
    rw [List.take_succ_cons, List.take_succ_cons, ← List.append_assoc, ← List.append_assoc,
      List.take_append_of_le_length hn, List.take_append_of_le_length hn]
  have hAgain := readCandidate_congr hRead hStop hSame
  have hHead := (d.head?_append_head lead behind' behind).trans hHyphen
  obtain ⟨more, hMore⟩ := eq_cons_of_head? hHead
  have hWalk := h.walk_eq (offset + 1) behind'
  rw [hMore] at hAgain hWalk
  rw [List.cons_append, hMore, walk_abandoned hs hAgain, Trace.declarations_after_abandoned, hWalk,
    Text.lastOr_cons, List.length_cons, Nat.add_assoc, Nat.add_comm 1]

theorem Leads.declarations_eq {config : Config} {s s' : State} {previous : Option CodePoint}
    {lead v : Text} {d : Spelling config} {x : CodePoint} (h : Leads config s previous lead d s')
    (hv : Closed config v) (hx : isTerminator x = true) : ∀ (offset : Nat) (rest : Text),
    (walk config 0 s offset previous (lead ++ (d.head ++ (v ++ x :: rest)))).declarations
      = s'.declare config (offset + lead.length) { d.reading with value := v }
        :: (walk config 0 s' (offset + lead.length + d.head.length + v.length)
          (v.lastOr (some ':')) (x :: rest)).declarations := by
  intro offset rest
  let d' : Spelling config := { d with value := v, value_closed := hv }
  have hFound := walk_found h.inBlock d' hx (offset + lead.length) (lead.lastOr previous) rest
  rw [h.walk_eq]
  exact congrArg Trace.declarations hFound

/-- The walk is led to the declaration `e` and goes on to `later` from its terminator. -/
def LedTo (config : Config) (s : State) (offset : Nat) (previous : Option CodePoint) (t : Text)
    (e : Declaration) (later : List Declaration) : Prop :=
  ∃ (lead : Text) (d : Spelling config) (x : CodePoint) (rest : Text) (s' : State),
    t = lead ++ (d.head ++ (d.value ++ x :: rest)) ∧ isTerminator x = true ∧
    Leads config s previous lead d s' ∧
    e = s'.declare config (offset + lead.length) d.reading ∧
    (walk config 0 s' (offset + lead.length + d.head.length + d.value.length)
      (d.value.lastOr (some ':')) (x :: rest)).declarations = later ∧
    Contained (walk config 0 s' (offset + lead.length + d.head.length + d.value.length)
      (d.value.lastOr (some ':')) (x :: rest)).events

/-- **A walk that finds a declaration is led to the first one.** -/
theorem ledTo_of_declarations : ∀ (config : Config) (s : State) (offset : Nat)
    (previous : Option CodePoint) (t : Text) (e : Declaration) (later : List Declaration),
    (walk config 0 s offset previous t).declarations = e :: later →
    Contained (walk config 0 s offset previous t).events →
    LedTo config s offset previous t e later := by
  intro config s offset previous t e later
  refine walk_induction (motive := fun s offset previous t trace =>
    trace.declarations = e :: later → Contained trace.events →
      LedTo config s offset previous t e later) ?_ ?_ ?_ ?_ s offset previous t
  · intro s offset previous h
    cases h
  · intro s offset previous a rest s₁ _ hMove ih h hContained
    obtain ⟨lead, d, x, after, s', rfl, hx, hLeads, he, hLater⟩ := ih h hContained
    refine ⟨a ++ lead, d, x, after, s', by rw [List.append_assoc], hx, hLeads.move hMove, ?_⟩
    rw [List.length_append, ← Nat.add_assoc]
    exact ⟨he, hLater⟩
  · intro s offset previous more cause hs hRead ih h hContained
    rw [Trace.declarations_after_abandoned] at h
    obtain ⟨hStop, hRest⟩ : StopsBefore offset cause (walk config 0 s (offset + 1) (some '-')
        (('-' : CodePoint) :: more)).declarations.head? ∧ _ := hContained
    obtain ⟨lead, d, x, after, s', hText, hx, hLeads, he, hLater⟩ := ih h hRest
    rw [h] at hStop
    obtain ⟨n, hn, hBound⟩ := hStop e rfl
    rw [hText] at hRead ⊢
    refine ⟨('-' : CodePoint) :: lead, d, x, after, s', by rw [List.cons_append], hx,
      hLeads.abandoned hs (by rw [← hText]; rfl) hRead hn ?_, ?_⟩
    · rw [he, State.declare_reading] at hBound
      simp only [Spelling.declaration] at hBound
      rw [List.length_append]
      omega
    · rw [List.length_cons, Nat.add_comm lead.length, ← Nat.add_assoc]
      exact ⟨he, hLater⟩
  · intro s offset previous d x rest hs hx _ h hContained
    rw [Trace.declarations_after_found] at h
    obtain ⟨rfl, rfl⟩ := List.cons.inj h
    exact ⟨[], d, x, rest, s, rfl, hx, ⟨hs, fun _ _ => rfl⟩, rfl, rfl, hContained⟩

/-! ## From one declaration to the next -/

/-- The declarations of a patched text, against those of the source: `shift` is how much further
back they stand. -/
inductive Relocated (edits : Edits) : (shift : Int) → List Declaration → List Declaration → Prop
  | nil {shift : Int} : Relocated edits shift [] []
  | cons {shift : Int} {d d' : Declaration} {ds ds' : List Declaration} :
      d'.name = d.name → d'.selector = d.selector → d'.value = edits.resulting d →
      d'.start = d.start + shift → Relocated edits (shift + edits.growth d) ds ds' →
      Relocated edits shift (d :: ds) (d' :: ds')

theorem declarations_eq_nil_of_offset : ∀ (config : Config) (s : State) (offset offset' : Nat)
    (previous : Option CodePoint) (t : Text),
    (walk config 0 s offset previous t).declarations = [] →
    (walk config 0 s offset' previous t).declarations = [] := by
  intro config s offset offset' previous t h
  have hShift : ∀ n, (walk config 0 s n previous t).declarations
      = (walk config 0 s 0 previous t).events.filterMap (Event.declaration? ∘ Event.shift n) := by
    intro n
    have := walk_shift config s 0 n previous t
    rw [Nat.zero_add] at this
    rw [this, Trace.declarations, Trace.shift, List.filterMap_map]
  rw [hShift, List.filterMap_eq_nil_iff] at h ⊢
  intro event hEvent
  have hNone := h event hEvent
  cases event with
  | found c d => cases hNone
  | abandoned c cause => rfl

/-- The character in front of a text matters only if the text does not start with a terminator. -/
theorem walk_previous {previous previous' : Option CodePoint} {t : Text}
    (h : previous' = previous ∨ ∃ x, t.head? = some x ∧ isTerminator x = true) :
    ∀ (config : Config) (s : State) (offset : Nat),
      walk config 0 s offset previous' t = walk config 0 s offset previous t := by
  intro config s offset
  rcases h with rfl | ⟨x, hHead, hx⟩
  · rfl
  · obtain ⟨rest, rfl⟩ := eq_cons_of_head? hHead
    exact walk_terminator hx config s offset previous' previous rest

/-- **A walk over the patched text finds the declarations with their new values.** -/
theorem relocated_walk (config : Config) (edits : Edits) : ∀ (ds : List Declaration)
    (before t : Text) (s : State) (offset' : Nat) (previous previous' : Option CodePoint),
    (walk config 0 s before.length previous t).declarations = ds →
    Contained (walk config 0 s before.length previous t).events →
    (∀ d ∈ ds, Closed config (edits.resulting d)) →
    (previous' = previous ∨ ∃ x, t.head? = some x ∧ isTerminator x = true) →
    (edits.weave (before ++ t) before.length ds).head? = t.head? ∧
      Relocated edits (offset' - before.length) ds (walk config 0 s offset' previous'
        (edits.weave (before ++ t) before.length ds)).declarations := by
  intro ds
  induction ds with
  | nil =>
    intro before t s offset' previous previous' h _ _ hPrevious
    have hWeave : edits.weave (before ++ t) before.length [] = t := by
      rw [Edits.weave, Text.since_natCast, List.drop_left]
    rw [hWeave, walk_previous hPrevious, declarations_eq_nil_of_offset _ _ _ offset' _ _ h]
    exact ⟨rfl, .nil⟩
  | cons e later ih =>
    intro before t s offset' previous previous' h hContained hClosed hPrevious
    obtain ⟨lead, d, x, rest, s', rfl, hx, hLeads, he, hLater, hRest⟩ :=
      ledTo_of_declarations config s before.length previous t e later h hContained
    rw [State.declare_reading] at he
    have hOffset : (before ++ lead ++ d.head ++ d.value).length
        = before.length + lead.length + d.head.length + d.value.length := by
      rw [List.length_append, List.length_append, List.length_append]
    obtain ⟨hHead, hRelocated⟩ := ih (before ++ lead ++ d.head ++ d.value) (x :: rest) s'
      (offset' + lead.length + d.head.length + (edits.resulting e).length)
      (d.value.lastOr (some ':')) ((edits.resulting e).lastOr (some ':'))
      (by rw [hOffset]; exact hLater) (by rw [hOffset]; exact hRest)
      (fun f hf => hClosed f (List.mem_cons_of_mem e hf)) (Or.inr ⟨x, rfl, hx⟩)
    obtain ⟨rest', hRest'⟩ := eq_cons_of_head? hHead
    have hWeave := d.weave_cons edits he (x :: rest) later
    rw [hRest'] at hWeave
    rw [hRest'] at hRelocated
    have hSame : (lead ++ (d.head ++ (edits.resulting e ++ x :: rest'))).head?
        = (lead ++ (d.head ++ (d.value ++ x :: rest))).head? := d.head?_append_head lead _ _
    rw [hWeave]
    refine ⟨hSame, ?_⟩
    rw [walk_previous (by rw [hSame]; exact hPrevious),
      hLeads.declarations_eq (hClosed e List.mem_cons_self) hx]
    have hShift : offset' - before.length + edits.growth e
        = (offset' + lead.length + d.head.length + (edits.resulting e).length : Nat)
          - ((before ++ lead ++ d.head ++ d.value).length : Int) := by
      rw [hOffset, Edits.growth, he]
      simp only [Spelling.declaration]
      omega
    rw [← hShift] at hRelocated
    refine .cons ?_ ?_ rfl ?_ hRelocated
    · rw [he]; rfl
    · rw [he]; rfl
    · rw [he]
      simp only [State.declare, Spelling.declaration, d.length_head]
      omega

namespace Relocated

variable {edits : Edits} {shift : Int} {ds ds' : List Declaration}

theorem length_eq (h : Relocated edits shift ds ds') : ds'.length = ds.length := by
  induction h with
  | nil => rfl
  | cons _ _ _ _ _ ih => rw [List.length_cons, ih, List.length_cons]

theorem exists_getElem? (h : Relocated edits shift ds ds') : ∀ (i : Nat) (d : Declaration),
    ds[i]? = some d → ∃ d', ds'[i]? = some d' ∧ d'.name = d.name ∧ d'.selector = d.selector ∧
      d'.value = edits.resulting d ∧
      d'.start = d.start + shift + edits.totalGrowth (ds.take i) := by
  induction h with
  | nil => intro i d hd; cases hd
  | @cons shift d d' ds ds' hName hSelector hValue hStart _ ih =>
    intro i e he
    cases i with
    | zero =>
      rw [List.getElem?_cons_zero] at he
      cases he
      refine ⟨d', rfl, hName, hSelector, hValue, ?_⟩
      rw [List.take_zero, Edits.totalGrowth]
      omega
    | succ i =>
      rw [List.getElem?_cons_succ] at he
      obtain ⟨e', he', hName', hSelector', hValue', hStart'⟩ := ih i e he
      refine ⟨e', by rw [List.getElem?_cons_succ]; exact he', hName', hSelector', hValue', ?_⟩
      rw [List.take_succ_cons, Edits.totalGrowth]
      omega

end Relocated

theorem relocated_scan (config : Config) (source : Text) (edits : Edits)
    (hClosed : ∀ d ∈ scan config source, Closed config (edits.resulting d))
    (hContained : Contained (trace config source).events) :
    Relocated edits 0 (scan config source)
      (scan config (patch source (scan config source) edits).text) := by
  have hText := patch_text edits (spansApart_scan config source) (.refl _)
    ((scan_ascending config source).imp fun hab => hab.1)
  rw [hText]
  exact (relocated_walk config edits _ [] source {} 0 none none rfl hContained hClosed
    (Or.inl rfl)).2

/-- **The scan of a patched text sees exactly the edits.** -/
theorem scan_patch (config : Config) (source : Text) (edits : Edits)
    (hClosed : ∀ d ∈ scan config source, Closed config (edits.resulting d))
    (hContained : Contained (trace config source).events) :
    (scan config (patch source (scan config source) edits).text).length
        = (scan config source).length ∧
      ∀ (i : Nat) (d : Declaration), (scan config source)[i]? = some d →
        ∃ d', (scan config (patch source (scan config source) edits).text)[i]? = some d' ∧
          d'.name = d.name ∧ d'.selector = d.selector ∧ d'.value = edits.resulting d ∧
          d'.start = d.start + edits.totalGrowth ((scan config source).take i) := by
  have h := relocated_scan config source edits hClosed hContained
  refine ⟨h.length_eq, ?_⟩
  intro i d hd
  obtain ⟨d', hd', hName, hSelector, hValue, hStart⟩ := h.exists_getElem? i d hd
  exact ⟨d', hd', hName, hSelector, hValue, by rw [hStart, Int.add_zero]⟩

/-- An abandoned candidate, a comment with a quote in it, and two declarations, the first of which
becomes longer by two characters. -/
theorem scan_patch_after_candidate :
    (∀ d ∈ scan {} "x\x7b--!;--a:1;/*'*/--b:2\x7d",
      Closed {} (Edits.resulting [("6-10", some "(;)")] d)) ∧
    Contained (trace {} "x\x7b--!;--a:1;/*'*/--b:2\x7d").events ∧
    ∃ d', (scan {} (patch "x\x7b--!;--a:1;/*'*/--b:2\x7d"
        (scan {} "x\x7b--!;--a:1;/*'*/--b:2\x7d") [("6-10", some "(;)")]).text)[1]? = some d' ∧
      d'.value = ("2" : Text) ∧ d'.start = 21 + 2 := by
  have hClosed : ∀ d ∈ scan {} "x\x7b--!;--a:1;/*'*/--b:2\x7d",
      Closed {} (Edits.resulting [("6-10", some "(;)")] d) := by decide +kernel
  have hContained : Contained (trace {} "x\x7b--!;--a:1;/*'*/--b:2\x7d").events := by
    decide +kernel
  obtain ⟨d', hd', -, -, hValue, hStart⟩ := (scan_patch {} _ _ hClosed hContained).2 1
    ⟨"17-21", "--b", "2", 21, 22, "x"⟩ (by decide +kernel)
  exact ⟨hClosed, hContained, d', hd', hValue.trans (by decide +kernel),
    hStart.trans (by decide +kernel)⟩

end Scan

end CustomProperties
