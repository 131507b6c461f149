import CustomProperties.Proofs.Span
import CustomProperties.Session
import Mathlib.Data.List.Infix

/-!
# What a term matches

A term matches a field if its lower-case form stands somewhere in the lower-case form of the field.
Both are lowered by themselves, and all but one character are lowered wherever they stand to the
same.  A capital sigma is lowered according to what stands around it, and at the ends of a term less
stands around it than at the same place of the field.  So a term that stands in a field is found
there if every capital sigma of it ends a word in the term exactly if it ends a word in the field
(`SigmasAgree`); that is so for every term without one.  A term whose sigma ends a word of the field
only may be missed.

* `lowerBetween`: a part of a text, lowered in its place.
* `lowerBetween_of_sigmasAgree`: when it is lowered there as by itself.
* `matching_finds`: **a term that stands in a field matches it, if its sigmas agree.**
* `matching_misses_final_sigma`: without that condition it need not.
-/

namespace CustomProperties

namespace Text

theorem occursIn_iff {part whole : Text} : occursIn part whole = true ↔ part <:+: whole := by
  induction whole with
  | nil => rw [occursIn, List.isEmpty_iff, List.infix_nil]
  | cons c whole ih =>
    rw [occursIn, Bool.or_eq_true, ih, List.isPrefixOf_iff_prefix, List.infix_cons_iff]

/-! ## Lower case in place -/

def capitalSigma : CodePoint := .ofNat 0x3A3

/-- A capital sigma between the characters before it, nearest first, and those after it ends a
word. -/
def endsWord (before after : Text) : Bool := metCase before && !metCase after

theorem lowerAt_congr {before after before' after' : Text} {c : CodePoint}
    (h : c = capitalSigma → endsWord before after = endsWord before' after') :
    lowerAt before c after = lowerAt before' c after' := by
  by_cases hc : c.val = 0x3A3
  · have hSigma : c = capitalSigma := by rw [capitalSigma, ← hc, CodePoint.ofNat_val]
    have hAgree := h hSigma
    rw [endsWord, endsWord] at hAgree
    simp only [lowerAt, hc, hAgree]
  · simp only [lowerAt, if_neg hc]

/-- The lower-case form that a text has between the characters before it, nearest first, and those
after it. -/
def lowerBetween (before : Text) : (t after : Text) → Text
  | [], _ => []
  | c :: t, after => lowerAt before c (t ++ after) ++ lowerBetween (c :: before) t after

theorem lowerFrom_append (before t after : Text) : lowerFrom before (t ++ after)
    = lowerBetween before t after ++ lowerFrom (t.reverse ++ before) after := by
  induction t generalizing before with
  | nil => rfl
  | cons c t ih =>
    rw [List.cons_append, lowerFrom, ih, lowerBetween, List.append_assoc, List.reverse_cons,
      List.append_assoc, List.singleton_append]

theorem lowerBetween_nil (before t : Text) : lowerBetween before t [] = lowerFrom before t := by
  have h := lowerFrom_append before t []
  rw [List.append_nil, lowerFrom, List.append_nil] at h
  exact h.symm

/-- A part of a text, lowered in its place, stands in the lower-case form of the text. -/
theorem lowerBetween_infix_lower (before t after : Text) :
    lowerBetween before.reverse t after <:+: lower (before ++ t ++ after) := by
  rw [lower, List.append_assoc, lowerFrom_append, List.append_nil, lowerFrom_append,
    ← List.append_assoc]
  exact List.infix_append _ _ _

theorem lowerBetween_congr {t before before' after after' : Text}
    (h : ∀ i c, t[i]? = some c →
      lowerAt ((t.take i).reverse ++ before) c (t.drop (i + 1) ++ after)
        = lowerAt ((t.take i).reverse ++ before') c (t.drop (i + 1) ++ after')) :
    lowerBetween before t after = lowerBetween before' t after' := by
  induction t generalizing before before' with
  | nil => rfl
  | cons c t ih =>
    have hTail : lowerBetween (c :: before) t after = lowerBetween (c :: before') t after' := by
      refine ih fun i d hd => ?_
      have hNext := h (i + 1) d hd
      rwa [List.take_succ_cons, List.reverse_cons, List.append_assoc, List.append_assoc,
        List.singleton_append, List.singleton_append, List.drop_succ_cons] at hNext
    rw [lowerBetween, lowerBetween, hTail]
    exact congrArg (· ++ _) (h 0 c rfl)

/-- Every capital sigma of a text ends a word in the text exactly if it ends one between the
characters before the text and those after it. -/
def SigmasAgree (before t after : Text) : Prop :=
  ∀ i < t.length, t[i]? = some capitalSigma →
    endsWord (t.take i).reverse (t.drop (i + 1))
      = endsWord (before ++ t.take i).reverse (t.drop (i + 1) ++ after)

instance (before t after : Text) : Decidable (SigmasAgree before t after) :=
  inferInstanceAs (Decidable (∀ i < t.length, _ → _))

theorem sigmasAgree_of_not_mem {t : Text} (h : capitalSigma ∉ t) (before after : Text) :
    SigmasAgree before t after :=
  fun _ _ hi => absurd (List.mem_of_getElem? hi) h

/-- **A text whose sigmas agree is lowered in its place as by itself.** -/
theorem lowerBetween_of_sigmasAgree {before t after : Text} (h : SigmasAgree before t after) :
    lowerBetween before.reverse t after = lower t := by
  rw [lower, ← lowerBetween_nil]
  refine lowerBetween_congr fun i c hc => lowerAt_congr ?_
  rintro rfl
  have hAgree := h i (List.getElem?_eq_some_iff.mp hc).1 hc
  rw [List.reverse_append] at hAgree
  rw [List.append_nil, List.append_nil]
  exact hAgree.symm

end Text

/-! ## Matching -/

namespace Session

theorem mem_matching_iff {s : Session} {term : Text} {d : Declaration} : d ∈ s.matching term ↔
    d ∈ s.declarations ∧ (term.lower <:+: d.name.lower ∨ term.lower <:+: d.selector.lower) := by
  rw [matching, List.mem_filter, Bool.or_eq_true, Text.occursIn_iff, Text.occursIn_iff]

/-- **A term that stands in the name or the selector of a declaration matches it**, if its capital
sigmas agree.  In a name there are none.  The matches stand in the order of the source, and the
empty term matches every declaration. -/
theorem matching_finds (config : Config) (source : Text) (s : Session)
    (hs : s.declarations = Scan.scan config source) (term : Text) :
    (s.matching term).Sublist s.declarations ∧
    (term = [] → s.matching term = s.declarations) ∧
    ∀ d ∈ s.declarations,
      (term <:+: d.name → d ∈ s.matching term) ∧
      (Text.capitalSigma ∉ term → term <:+: d.selector → d ∈ s.matching term) ∧
      ∀ before after : Text, d.selector = before ++ term ++ after →
        Text.SigmasAgree before term after → d ∈ s.matching term := by
  have hFound : ∀ {field before after : Text}, field = before ++ term ++ after →
      Text.SigmasAgree before term after → term.lower <:+: field.lower := by
    rintro field before after rfl hAgree
    rw [← Text.lowerBetween_of_sigmasAgree hAgree]
    exact Text.lowerBetween_infix_lower before term after
  refine ⟨List.filter_sublist, ?_, fun d hd => ⟨?_, ?_, ?_⟩⟩
  · rintro rfl
    refine List.filter_eq_self.mpr fun d _ => ?_
    rw [Bool.or_eq_true, Text.occursIn_iff]
    exact Or.inl List.nil_infix
  · rintro ⟨before, after, hName⟩
    have hSigma : Text.capitalSigma ∉ term := by
      intro hMem
      have hValid := Scan.isValid_name_of_mem_scan (hs ▸ hd)
      rw [← hName] at hValid
      have hChar := PropertyName.isNameChar_of_isValid hValid Text.capitalSigma (by simp [hMem])
      exact absurd hChar (by decide)
    exact mem_matching_iff.mpr ⟨hd, Or.inl (hFound hName.symm
      (Text.sigmasAgree_of_not_mem hSigma before after))⟩
  · rintro hSigma ⟨before, after, hSelector⟩
    exact mem_matching_iff.mpr ⟨hd, Or.inr (hFound hSelector.symm
      (Text.sigmasAgree_of_not_mem hSigma before after))⟩
  · intro before after hSelector hAgree
    exact mem_matching_iff.mpr ⟨hd, Or.inr (hFound hSelector hAgree)⟩

/-- A sigma in the middle of a word ends none there, and none by itself. -/
theorem matching_finds_inner_sigma :
    let alpha : CodePoint := .ofNat 0x391
    let source : Text := [alpha, Text.capitalSigma, alpha] ++ "\x7b--a:1\x7d"
    let d : Declaration := ⟨"4-8", "--a", "1", 8, 9, [alpha, Text.capitalSigma, alpha]⟩
    let s := Session.start {} source none
    s.declarations = Scan.scan {} source ∧ d ∈ s.declarations ∧
      d.selector = [alpha] ++ [Text.capitalSigma] ++ [alpha] ∧
      Text.SigmasAgree [alpha] [Text.capitalSigma] [alpha] ∧
      d ∈ s.matching [Text.capitalSigma] := by
  intro alpha source d s
  have hd : d ∈ s.declarations := by decide +kernel
  have hAgree : Text.SigmasAgree [alpha] [Text.capitalSigma] [alpha] := by decide +kernel
  exact ⟨rfl, hd, rfl, hAgree,
    ((matching_finds {} source s rfl _).2.2 d hd).2.2 [alpha] [alpha] rfl hAgree⟩

/-- A sigma at the end of a word ends it, and is lowered to another letter than by itself.  So the
term that is this sigma stands in the selector and is not found. -/
theorem matching_misses_final_sigma :
    let source : Text := [.ofNat 0x391, Text.capitalSigma] ++ "\x7b--a:1\x7d"
    let d : Declaration := ⟨"3-7", "--a", "1", 7, 8, [.ofNat 0x391, Text.capitalSigma]⟩
    let s := Session.start {} source none
    d ∈ s.declarations ∧ [Text.capitalSigma] <:+: d.selector ∧
      d ∉ s.matching [Text.capitalSigma] := by
  intro source d s
  refine ⟨?_, ⟨[.ofNat 0x391], [], rfl⟩, ?_⟩
  · decide +kernel
  · decide +kernel

end Session

end CustomProperties
