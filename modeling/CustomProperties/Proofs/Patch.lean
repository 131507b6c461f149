import CustomProperties.Patch
import CustomProperties.Proofs.Span
import CustomProperties.Proofs.StableSort

/-!
# A patch changes the edited spans and nothing else

A patch replaces spans from the last to the first, on a text whose length changes at every step.
What carries the proof is that a step only reads the text in front of its own span and the text
behind it: when the spans behind `k` are done, the text is still the source up to `k`, and from
there on it is the source with those spans replaced (`foldr_apply_text`).  Replaced from the first
to the last, with everything between copied from the source, the text is `Edits.weave`.

* `patch_text`: the patched text is that weave, whatever order the declarations come in.
* `spansApart_scan`: the declarations of a scan have spans of this kind.
* `patch_lossless`: both, and that edits which change nothing give the source back.
-/

namespace CustomProperties

/-- What stands in the place of a declaration's value: its edit, if there is one that differs from
the value, and else the source. -/
def Edits.written (edits : Edits) (source : Text) (d : Declaration) : Text :=
  match edits.get? d.id with
  | some (some value) => if value = d.value then source.slice d.start d.stop else value
  | _ => source.slice d.start d.stop

/-- The source from an offset on, with what is written in the place of every span. -/
def Edits.weave (edits : Edits) (source : Text) : (offset : Int) → List Declaration → Text
  | offset, [] => source.since offset
  | offset, d :: rest =>
    source.slice offset d.start ++ (edits.written source d ++ edits.weave source d.stop rest)

/-- The spans lie in the source, start at different places and do not overlap. -/
structure SpansApart (source : Text) (ds : List Declaration) : Prop where
  within : ∀ d ∈ ds, 0 ≤ d.start ∧ d.start ≤ d.stop ∧ d.stop ≤ source.length
  distinct : ds.Pairwise fun a b => a.start ≠ b.start
  apart : ds.Pairwise fun a b => a.stop ≤ b.start ∨ b.stop ≤ a.start

instance (source : Text) (ds : List Declaration) : Decidable (SpansApart source ds) :=
  decidable_of_iff
    ((∀ d ∈ ds, 0 ≤ d.start ∧ d.start ≤ d.stop ∧ d.stop ≤ source.length) ∧
      ds.Pairwise (fun a b => a.start ≠ b.start) ∧
      ds.Pairwise fun a b => a.stop ≤ b.start ∨ b.stop ≤ a.start)
    ⟨fun h => ⟨h.1, h.2.1, h.2.2⟩, fun h => ⟨h.within, h.distinct, h.apart⟩⟩

theorem Edits.written_eq (edits : Edits) (source : Text) (d : Declaration) :
    edits.written source d = (edits.newValue? d).getD (source.slice d.start d.stop) := by
  rw [written, newValue?]
  cases edits.get? d.id with
  | none => rfl
  | some edit =>
    cases edit with
    | none => rfl
    | some value =>
      by_cases h : value = d.value
      · simp [h]
      · simp [h]

/-! ## Spans in order -/

theorem Text.take_eq_append_slice (t : Text) {a b : Nat} (h : a ≤ b) :
    t.take b = t.take a ++ t.slice a b := by
  rw [Text.slice_natCast, ← Nat.min_eq_left h, ← List.take_take, Nat.min_eq_left h,
    List.take_append_drop]

/-- The text after one more span, when the source is intact up to the end of the span. -/
theorem Patched.apply_text (edits : Edits) {source behind : Text} {d : Declaration} {p : Patched}
    {a b : Nat} (hText : p.text = source.take b ++ behind) (hStart : d.start = a)
    (hStop : d.stop = b) (hOrder : a ≤ b) (hBound : b ≤ source.length) :
    (p.apply edits d).text = source.take a ++ (edits.written source d ++ behind) := by
  have hLength : (source.take b).length = b := by rw [List.length_take, Nat.min_eq_left hBound]
  rw [Edits.written_eq, hStart, hStop, Patched.apply]
  cases edits.newValue? d with
  | none =>
    show p.text = source.take a ++ (source.slice a b ++ behind)
    rw [hText, source.take_eq_append_slice hOrder, List.append_assoc]
  | some value =>
    show p.text.replaceSpan d.start d.stop value = source.take a ++ (value ++ behind)
    rw [hText, hStart, hStop, Text.replaceSpan, Text.upTo_natCast, Text.since_natCast,
      List.take_append_of_le_length (by omega), List.take_take, Nat.min_eq_left hOrder,
      List.drop_left' hLength, List.append_assoc]

/-- **The source stays intact in front of the spans that are done.** -/
theorem foldr_apply_text (edits : Edits) (source : Text) (es : List Declaration) (k : Nat)
    (hk : k ≤ source.length)
    (hWithin : ∀ d ∈ es, k ≤ d.start ∧ d.start ≤ d.stop ∧ d.stop ≤ source.length)
    (hApart : es.Pairwise fun a b => a.stop ≤ b.start) :
    (es.foldr (fun d p => Patched.apply edits p d) ⟨source, 0⟩).text
      = source.take k ++ edits.weave source k es := by
  induction es generalizing k with
  | nil =>
    rw [Edits.weave, Text.since_natCast, List.take_append_drop]
    rfl
  | cons d es ih =>
    obtain ⟨hLow, hOrder, hBound⟩ := hWithin d List.mem_cons_self
    obtain ⟨hNext, hRest⟩ := List.pairwise_cons.mp hApart
    obtain ⟨a, ha⟩ := Int.eq_ofNat_of_zero_le (show 0 ≤ d.start by omega)
    obtain ⟨b, hb⟩ := Int.eq_ofNat_of_zero_le (show 0 ≤ d.stop by omega)
    have hBehind := ih b (by omega) (fun e he => by
      have := hNext e he
      have := hWithin e (List.mem_cons_of_mem d he)
      omega) hRest
    rw [List.foldr_cons, Patched.apply_text edits hBehind ha hb (by omega) (by omega),
      Edits.weave, ha, hb, source.take_eq_append_slice (show k ≤ a by omega), List.append_assoc]

/-! ## Any order -/

namespace SpansApart

variable {source : Text} {ds es : List Declaration}

theorem perm (h : SpansApart source ds) (hPerm : es.Perm ds) : SpansApart source es where
  within d hd := h.within d (hPerm.mem_iff.mp hd)
  distinct := (hPerm.pairwise_iff fun hab => hab.symm).mpr h.distinct
  apart := (hPerm.pairwise_iff fun hab => hab.symm).mpr h.apart

theorem stop_le_start (h : SpansApart source es) (hAscending : es.Pairwise (·.start < ·.start)) :
    es.Pairwise fun a b => a.stop ≤ b.start := by
  refine (hAscending.and h.apart).imp_of_mem fun {a b} ha hb hab => ?_
  obtain ⟨hStart, hStop | hStop⟩ := hab
  · exact hStop
  · have := h.within b hb
    omega

end SpansApart

theorem eq_of_perm_of_ascending {ds es : List Declaration} (hPerm : ds.Perm es)
    (hds : ds.Pairwise (·.start < ·.start)) (hes : es.Pairwise (·.start < ·.start)) : ds = es :=
  hPerm.eq_of_pairwise (fun a b _ _ hab hba => by omega) hds hes

namespace Declaration

theorem sortDescending_perm (ds : List Declaration) : (sortDescending ds).Perm ds :=
  stableSort_perm ds

theorem sortAscending_perm (ds : List Declaration) : (sortAscending ds).Perm ds :=
  stableSort_perm ds

theorem sortDescending_pairwise (ds : List Declaration) :
    (sortDescending ds).Pairwise fun a b => b.start ≤ a.start :=
  stableSort_pairwise (fun a b => by omega) (fun a b c hab hbc => by omega) ds

theorem sortAscending_pairwise (ds : List Declaration) :
    (sortAscending ds).Pairwise fun a b => a.start ≤ b.start :=
  stableSort_pairwise (fun a b => by omega) (fun a b c hab hbc => by omega) ds

end Declaration

namespace SpansApart

variable {source : Text} {ds : List Declaration}

theorem sortAscending_ascending (h : SpansApart source ds) :
    (Declaration.sortAscending ds).Pairwise (·.start < ·.start) := by
  have hDistinct := (h.perm (Declaration.sortAscending_perm ds)).distinct
  exact ((Declaration.sortAscending_pairwise ds).and hDistinct).imp fun hab => by omega

theorem sortDescending_eq (h : SpansApart source ds) {es : List Declaration} (hPerm : es.Perm ds)
    (hAscending : es.Pairwise (·.start < ·.start)) :
    Declaration.sortDescending ds = es.reverse := by
  have hSort := Declaration.sortDescending_perm ds
  have hDistinct := (h.perm hSort).distinct
  have hReverse : (Declaration.sortDescending ds).reverse.Pairwise (·.start < ·.start) := by
    rw [List.pairwise_reverse]
    exact ((Declaration.sortDescending_pairwise ds).and hDistinct).imp fun hab => by omega
  have hSame := eq_of_perm_of_ascending
    ((List.reverse_perm _).trans (hSort.trans hPerm.symm)) hReverse hAscending
  rw [← hSame, List.reverse_reverse]

end SpansApart

/-- **The patched text is the source with the spans replaced in ascending order.** -/
theorem patch_text (edits : Edits) {source : Text} {ds es : List Declaration}
    (h : SpansApart source ds) (hPerm : es.Perm ds)
    (hAscending : es.Pairwise (·.start < ·.start)) :
    (patch source ds edits).text = edits.weave source 0 es := by
  have hes := h.perm hPerm
  rw [patch, h.sortDescending_eq hPerm hAscending, List.foldl_reverse,
    foldr_apply_text edits source es 0 (Nat.zero_le _) hes.within (hes.stop_le_start hAscending),
    List.take_zero, List.nil_append]
  rfl

theorem patch_text_of_unchanged {edits : Edits} {ds : List Declaration}
    (h : ∀ d ∈ ds, edits.newValue? d = none) (source : Text) :
    (patch source ds edits).text = source := by
  have hFold : ∀ (es : List Declaration), (∀ d ∈ es, edits.newValue? d = none) →
      ∀ p : Patched, es.foldl (Patched.apply edits) p = p := by
    intro es
    induction es with
    | nil => intro _ p; rfl
    | cons d es ih =>
      intro h p
      rw [List.foldl_cons, Patched.apply, h d List.mem_cons_self]
      exact ih (fun e he => h e (List.mem_cons_of_mem d he)) p
  rw [patch, hFold _ fun d hd => h d ((Declaration.sortDescending_perm ds).mem_iff.mp hd)]

/-! ## Declarations of a scan -/

theorem scan_ascending (config : Config) (source : Text) :
    (Scan.scan config source).Pairwise fun a b => a.start < b.start ∧ a.stop < b.start := by
  rw [Scan.scan, Scan.Trace.declarations_eq_map]
  exact (Scan.wellPlaced_walkFrom config {} source).ascending

theorem spansApart_scan (config : Config) (source : Text) :
    SpansApart source (Scan.scan config source) where
  within d hd := by
    obtain ⟨first, hPlaced⟩ := Scan.exists_placed_of_mem_scan hd
    have hRoom := hPlaced.name_room
    have hOrder := hPlaced.start_le_stop
    have hBound := hPlaced.stop_lt
    omega
  distinct := (scan_ascending config source).imp fun hab => by omega
  apart := (scan_ascending config source).imp fun hab => by omega

theorem nodup_ids_scan (config : Config) (source : Text) :
    ((Scan.scan config source).map (·.id)).Nodup := by
  rw [Scan.scan, Scan.Trace.declarations_eq_map]
  exact (Scan.wellPlaced_walkFrom config {} source).nodup_ids

theorem slice_of_mem_scan {config : Config} {source : Text} {d : Declaration}
    (hd : d ∈ Scan.scan config source) : source.slice d.start d.stop = d.value := by
  obtain ⟨first, hPlaced⟩ := Scan.exists_placed_of_mem_scan hd
  exact hPlaced.value_eq

theorem Scan.mem_source_of_mem_value {config : Config} {source : Text} {d : Declaration}
    (hd : d ∈ scan config source) : ∀ c ∈ d.value, c ∈ source := by
  rw [← slice_of_mem_scan hd]
  exact fun c hc => Text.mem_of_mem_slice hc

/-- **A patch loses nothing.**  It copies the source outside the edited spans, whatever order the
declarations come in; the declarations of a scan are of this kind under every configuration; and
edits that are missing or repeat the value give the source back. -/
theorem patch_lossless (source : Text) (edits : Edits) :
    (∀ ds : List Declaration, SpansApart source ds →
      ((Declaration.sortAscending ds).Perm ds ∧
        (Declaration.sortAscending ds).Pairwise (·.start < ·.start) ∧
        (patch source ds edits).text
          = edits.weave source 0 (Declaration.sortAscending ds)) ∧
      ∀ es : List Declaration, es.Perm ds →
        (patch source es edits).text = (patch source ds edits).text) ∧
    (∀ (config : Config) (ds : List Declaration), ds.Perm (Scan.scan config source) →
      (patch source ds edits).text = edits.weave source 0 (Scan.scan config source)) ∧
    ∀ config : Config,
      (∀ d ∈ Scan.scan config source, edits.get? d.id = none ∨ edits.get? d.id = some none ∨
        edits.get? d.id = some (some d.value)) →
      (patch source (Scan.scan config source) edits).text = source := by
  refine ⟨fun ds h => ?_, fun config ds hPerm => ?_, fun config h => ?_⟩
  · have hPerm := Declaration.sortAscending_perm ds
    have hAscending := h.sortAscending_ascending
    have hText := patch_text edits h hPerm hAscending
    refine ⟨⟨hPerm, hAscending, hText⟩, fun es hes => ?_⟩
    rw [hText, patch_text edits (h.perm hes) (hPerm.trans hes.symm) hAscending]
  · exact patch_text edits ((spansApart_scan config source).perm hPerm) hPerm.symm
      ((scan_ascending config source).imp fun hab => hab.1)
  · refine patch_text_of_unchanged (fun d hd => ?_) source
    rw [Edits.newValue?]
    rcases h d hd with hd | hd | hd
    · rw [hd]; rfl
    · rw [hd]; rfl
    · rw [hd]
      exact if_pos rfl

/-- Two spans in descending order, one edited to a longer text and one to nothing, with an edit
under an unknown id; and a scanned source with an edit that repeats the value. -/
theorem patch_lossless_descending :
    (SpansApart "--a:1;--b:22;"
        [⟨"6-10", "--b", "22", 10, 12, "x"⟩, ⟨"0-4", "--a", "1", 4, 5, "x"⟩] ∧
      (patch "--a:1;--b:22;" [⟨"6-10", "--b", "22", 10, 12, "x"⟩, ⟨"0-4", "--a", "1", 4, 5, "x"⟩]
        [("0-4", some "333"), ("7-9", some "4"), ("6-10", some "")]).text = "--a:333;--b:;") ∧
    (patch "x\x7b--a:1\x7d" (Scan.scan {} "x\x7b--a:1\x7d") [("2-6", some "1")]).text
      = "x\x7b--a:1\x7d" := by
  have hApart : SpansApart "--a:1;--b:22;"
      [⟨"6-10", "--b", "22", 10, 12, "x"⟩, ⟨"0-4", "--a", "1", 4, 5, "x"⟩] := by decide
  refine ⟨⟨hApart, ?_⟩, ?_⟩
  · rw [((patch_lossless "--a:1;--b:22;" _).1 _ hApart).1.2.2]
    decide
  · exact (patch_lossless "x\x7b--a:1\x7d" _).2.2 {} (by decide +kernel)

end CustomProperties
