import CustomProperties.Proofs.Numeral
import CustomProperties.Proofs.Walk

/-!
# Where the declarations of a scan stand

A declaration found at an offset says exactly where it stands: its name, its colon, its value and
its terminator are in the source at the offsets that it carries (`Placed`).  A walk goes on at the
terminator of what it found, and a terminator is no hyphen, so the next candidate lies behind it
(`WellPlaced`).  Both hold from whatever state a walk starts, and so for every scan of a source,
the first one as well as those that go on from the state an earlier one left.

* `placed_declaration`: a declaration is placed where it is spelled.
* `wellPlaced_walk`: so are all of a walk, each one behind the one before.
* `wellPlaced_scans`: the same for every scan, with ids that differ.
-/

namespace CustomProperties.Scan

/-- A candidate that is a declaration, with the offset of its first hyphen. -/
def Event.finding? : Event → Option (Nat × Declaration)
  | found offset d => some (offset, d)
  | abandoned _ _ => none

def Trace.findings (trace : Trace) : List (Nat × Declaration) :=
  trace.events.filterMap Event.finding?

@[simp] theorem Trace.findings_after_found (trace : Trace) (offset : Nat) (d : Declaration) :
    (trace.after (some (.found offset d))).findings = (offset, d) :: trace.findings := rfl

@[simp] theorem Trace.findings_after_abandoned (trace : Trace) (offset : Nat)
    (cause : Abandonment) :
    (trace.after (some (.abandoned offset cause))).findings = trace.findings := rfl

theorem Trace.declarations_eq_map (trace : Trace) :
    trace.declarations = trace.findings.map Prod.snd := by
  rw [Trace.declarations, Trace.findings, List.map_filterMap]
  congr 1
  funext e
  cases e with
  | found offset d => rfl
  | abandoned offset cause => rfl

/-- The declaration stands in the source where it says, with its first hyphen at `c`. -/
structure Placed (source : Text) (c : Nat) (d : Declaration) : Prop where
  hyphens : source.slice c (c + 2 : Nat) = PropertyName.mark
  id_eq : d.id = Declaration.idAt c d.start
  name_room : c + 3 ≤ d.start - 1
  colon : source[(d.start - 1).toNat]? = some (':' : CodePoint)
  name_eq : ∃ blanks : Text, blanks.isBlank = true ∧
    source.slice c (d.start - 1) = d.name ++ blanks
  name_valid : ∃ body : Text, body ≠ [] ∧ d.name = PropertyName.mark ++ body ∧
    ∀ x ∈ body, x.isNameChar = true
  start_le_stop : d.start ≤ d.stop
  stop_lt : d.stop < source.length
  value_eq : source.slice d.start d.stop = d.value
  terminator : source[d.stop.toNat]? = some (';' : CodePoint) ∨
    source[d.stop.toNat]? = some ('}' : CodePoint)

/-- Every declaration is placed, and each one lies behind the terminator of those before it. -/
structure WellPlaced (source : Text) (found : List (Nat × Declaration)) : Prop where
  placed : ∀ p ∈ found, Placed source p.1 p.2
  apart : found.Pairwise fun p q => p.2.stop < q.1

theorem getElem?_append_cons_length (a : Text) (x : CodePoint) (rest : Text) :
    (a ++ x :: rest)[a.length]? = some x := by
  simp

/-- **A declaration is placed where it is spelled.** -/
theorem placed_declaration {config : Config} (d : Spelling config) {x : CodePoint}
    (hx : isTerminator x = true) (selector before rest : Text) :
    Placed (before ++ (d.head ++ (d.value ++ x :: rest))) before.length
      (d.declaration selector before.length) := by
  obtain ⟨body, hBody, hMark, hChars⟩ := PropertyName.isValid_iff.mp d.name_valid
  have hStart : (d.declaration selector before.length).start = (before ++ d.head).length := by
    rw [List.length_append]
    rfl
  have hStop : (d.declaration selector before.length).stop
      = (before ++ d.head ++ d.value).length := by
    rw [List.length_append, List.length_append]
    rfl
  have hColon : (d.declaration selector before.length).start - 1
      = (before ++ (d.name ++ d.blanks)).length := by
    rw [hStart, Spelling.head, ← List.append_assoc, List.length_append, List.length_singleton]
    omega
  refine ⟨?_, rfl, ?_, ?_, ⟨d.blanks, d.blanks_blank, ?_⟩, ⟨body, hBody, hMark, hChars⟩, ?_, ?_, ?_,
    ?_⟩
  · -- The two hyphens are the first part of the name.
    have hText : d.head ++ (d.value ++ x :: rest) = PropertyName.mark
        ++ (body ++ d.blanks ++ [(':' : CodePoint)] ++ (d.value ++ x :: rest)) := by
      simp [Spelling.head, hMark]
    rw [hText]
    exact Text.slice_append before PropertyName.mark _
  · have := List.length_pos_iff.mpr hBody
    have hTwo : PropertyName.mark.length = 2 := rfl
    rw [hColon, hMark]
    simp only [List.length_append, hTwo]
    omega
  · rw [hColon, Int.toNat_natCast]
    have hText : before ++ (d.head ++ (d.value ++ x :: rest))
        = before ++ (d.name ++ d.blanks) ++ (':' : CodePoint) :: (d.value ++ x :: rest) := by
      simp [Spelling.head]
    rw [hText, getElem?_append_cons_length]
  · have hText : d.head ++ (d.value ++ x :: rest)
        = (d.name ++ d.blanks) ++ (':' : CodePoint) :: (d.value ++ x :: rest) := by
      simp [Spelling.head]
    rw [hColon, hText, List.length_append]
    exact Text.slice_append before (d.name ++ d.blanks) _
  · rw [hStart, hStop, @List.length_append _ (before ++ d.head)]
    omega
  · rw [hStop, ← List.append_assoc, ← List.append_assoc, @List.length_append _ _ (x :: rest),
      List.length_cons]
    omega
  · rw [hStart, hStop, @List.length_append _ _ d.value, ← List.append_assoc]
    exact Text.slice_append (before ++ d.head) d.value _
  · rw [hStop, Int.toNat_natCast, ← List.append_assoc, ← List.append_assoc,
      getElem?_append_cons_length]
    rcases isTerminator_iff.mp hx with rfl | rfl
    · exact Or.inl rfl
    · exact Or.inr rfl

/-- A candidate starts with a hyphen, so it does not start at a terminator. -/
theorem Placed.ne_of_terminator {source : Text} {c n : Nat} {d : Declaration} {x : CodePoint}
    (h : Placed source c d) (hn : source[n]? = some x) (hx : isTerminator x = true) : c ≠ n := by
  rintro rfl
  have hHead := congrArg List.head? h.hyphens
  rw [Text.slice_natCast, List.head?_drop, List.getElem?_take_of_lt (by omega), hn] at hHead
  rw [Option.some.inj hHead] at hx
  exact absurd hx (by decide)

/-- **The declarations of a walk are placed, each behind those before it.** -/
theorem wellPlaced_walk (config : Config) (s : State) (offset : Nat) (previous : Option CodePoint)
    (t before : Text) (hBefore : before.length = offset) :
    (∀ p ∈ (walk config 0 s offset previous t).findings, offset ≤ p.1) ∧
      WellPlaced (before ++ t) (walk config 0 s offset previous t).findings := by
  refine walk_induction
    (motive := fun _ offset _ t trace => ∀ before : Text, before.length = offset →
      (∀ p ∈ trace.findings, offset ≤ p.1) ∧ WellPlaced (before ++ t) trace.findings)
    ?_ ?_ ?_ ?_ s offset previous t before hBefore
  · intro s offset previous before _
    exact ⟨fun p hp => absurd hp List.not_mem_nil, fun p hp => absurd hp List.not_mem_nil, .nil⟩
  · intro s offset previous a rest s' _ _ ih before hBefore
    obtain ⟨hLow, hPlaced⟩ := ih (before ++ a) (by rw [List.length_append, hBefore])
    rw [List.append_assoc] at hPlaced
    exact ⟨fun p hp => by have := hLow p hp; omega, hPlaced⟩
  · intro s offset previous more cause _ _ ih before hBefore
    obtain ⟨hLow, hPlaced⟩ := ih (before ++ [('-' : CodePoint)]) (by simp [hBefore])
    rw [List.append_assoc] at hPlaced
    rw [Trace.findings_after_abandoned]
    exact ⟨fun p hp => by have := hLow p hp; omega, hPlaced⟩
  · intro s offset previous d x rest _ hx ih before hBefore
    subst hBefore
    obtain ⟨hLow, hPlaced⟩ := ih (before ++ d.head ++ d.value) (by simp [Nat.add_assoc])
    have hText : before ++ d.head ++ d.value ++ x :: rest
        = before ++ (d.head ++ (d.value ++ x :: rest)) := by simp
    rw [Trace.findings_after_found]
    refine ⟨?_, ?_, ?_⟩
    · intro p hp
      rcases List.mem_cons.mp hp with rfl | hp
      · exact Nat.le_refl _
      · have := hLow p hp
        omega
    · intro p hp
      rcases List.mem_cons.mp hp with rfl | hp
      · rw [State.declare_reading]
        exact placed_declaration d hx _ before rest
      · exact hText ▸ hPlaced.placed p hp
    · refine List.pairwise_cons.mpr ⟨fun p hp => ?_, hPlaced.apart⟩
      -- The walk goes on at the terminator, and no candidate starts there.
      have hne := (hPlaced.placed p hp).ne_of_terminator
        (getElem?_append_cons_length (before ++ d.head ++ d.value) x rest) hx
      have hge := hLow p hp
      rw [List.length_append, List.length_append] at hne
      rw [State.declare_reading]
      simp only [Spelling.declaration]
      omega

theorem wellPlaced_walkFrom (config : Config) (s : State) (source : Text) :
    WellPlaced source (walkFrom config s source).findings :=
  (wellPlaced_walk config s 0 none source [] rfl).2

namespace WellPlaced

variable {source : Text} {found : List (Nat × Declaration)}

theorem ascending (h : WellPlaced source found) :
    (found.map Prod.snd).Pairwise fun a b => a.start < b.start ∧ a.stop < b.start := by
  refine List.pairwise_map.mpr (h.apart.imp_of_mem fun {p q} hp hq hApart => ?_)
  have hp := (h.placed p hp).start_le_stop
  have hq := (h.placed q hq).name_room
  omega

theorem nodup_ids (h : WellPlaced source found) : ((found.map Prod.snd).map (·.id)).Nodup := by
  rw [List.map_map]
  refine List.pairwise_map.mpr (h.apart.imp_of_mem fun {p q} hp hq hApart => ?_)
  have hRoom := (h.placed p hp).name_room
  have hOrder := (h.placed p hp).start_le_stop
  intro hId
  rw [Function.comp, Function.comp, (h.placed p hp).id_eq, (h.placed q hq).id_eq,
    Declaration.idAt_inj] at hId
  omega

end WellPlaced

theorem exists_placed_of_mem_scan {config : Config} {source : Text} {d : Declaration}
    (hd : d ∈ scan config source) : ∃ c, Placed source c d := by
  rw [scan, Trace.declarations_eq_map] at hd
  obtain ⟨p, hp, rfl⟩ := List.mem_map.mp hd
  exact ⟨p.1, (wellPlaced_walkFrom config {} source).placed p hp⟩

theorem isValid_name_of_mem_scan {config : Config} {source : Text} {d : Declaration}
    (hd : d ∈ scan config source) : PropertyName.isValid d.name = true := by
  obtain ⟨c, hPlaced⟩ := exists_placed_of_mem_scan hd
  exact PropertyName.isValid_iff.mpr hPlaced.name_valid

theorem exists_walkFrom_of_mem_scanRepeatedly {config : Config} {source : Text} {times : Nat}
    {s : State} {ds : List Declaration} (h : ds ∈ scanRepeatedly config source times s) :
    ∃ s', ds = (walkFrom config s' source).declarations := by
  induction times generalizing s with
  | zero => cases h
  | succ times ih =>
    rcases List.mem_cons.mp h with rfl | h
    · exact ⟨s, rfl⟩
    · exact ih h

/-- **The span invariant of every scan**, the first of a source or one that goes on from whatever
state earlier scans left. -/
theorem wellPlaced_scans (config : Config) (source : Text) (s : State) :
    (walkFrom config s source).declarations
        = (walkFrom config s source).findings.map Prod.snd ∧
      WellPlaced source (walkFrom config s source).findings ∧
      ((walkFrom config s source).declarations.Pairwise fun a b =>
        a.start < b.start ∧ a.stop < b.start) ∧
      ((walkFrom config s source).declarations.map (·.id)).Nodup ∧
      (∀ (times : Nat) (ds : List Declaration), ds ∈ scanRepeatedly config source times s →
        ∃ found : List (Nat × Declaration), ds = found.map Prod.snd ∧ WellPlaced source found) ∧
      ∀ a b c d : Int, Declaration.idAt a b = Declaration.idAt c d ↔ a = c ∧ b = d := by
  have hPlaced := wellPlaced_walkFrom config s source
  have hMap := (walkFrom config s source).declarations_eq_map
  refine ⟨hMap, hPlaced, ?_, ?_, ?_, fun a b c d => Declaration.idAt_inj⟩
  · rw [hMap]
    exact hPlaced.ascending
  · rw [hMap]
    exact hPlaced.nodup_ids
  · intro times ds hds
    obtain ⟨s', rfl⟩ := exists_walkFrom_of_mem_scanRepeatedly hds
    exact ⟨_, Trace.declarations_eq_map _, wellPlaced_walkFrom config s' source⟩

end CustomProperties.Scan
