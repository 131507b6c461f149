import CustomProperties.Patch

/-!
# What sorting keeps

A sorted list has the elements of the list it came from, in the order of the relation that was
tested, if that relation is total and transitive.  Elements that may stand in either order keep the
order they came in: `SortedStably` says so of sorting by a key.
-/

namespace CustomProperties

variable {α : Type} {le : α → α → Bool}

theorem insertSorted_perm (a : α) (l : List α) : (insertSorted le a l).Perm (a :: l) := by
  induction l with
  | nil => exact .refl _
  | cons b l ih =>
    rw [insertSorted]
    split
    · exact .refl _
    · exact (ih.cons b).trans (.swap a b l)

theorem stableSort_perm (l : List α) : (stableSort le l).Perm l := by
  induction l with
  | nil => exact .refl _
  | cons a l ih => exact (insertSorted_perm a _).trans (ih.cons a)

/-! ## Order -/

section Order

variable {r : α → α → Prop} [DecidableRel r]

theorem insertSorted_pairwise (hTotal : ∀ a b, r a b ∨ r b a)
    (hTrans : ∀ a b c, r a b → r b c → r a c) (a : α) {l : List α} (h : l.Pairwise r) :
    (insertSorted (fun a b => decide (r a b)) a l).Pairwise r := by
  induction l with
  | nil => exact List.pairwise_singleton r a
  | cons b l ih =>
    obtain ⟨hHead, hTail⟩ := List.pairwise_cons.mp h
    rw [insertSorted]
    by_cases hab : r a b
    · rw [if_pos (decide_eq_true hab)]
      refine List.pairwise_cons.mpr ⟨?_, h⟩
      intro c hc
      rcases List.mem_cons.mp hc with rfl | hc
      · exact hab
      · exact hTrans a b c hab (hHead c hc)
    · rw [if_neg (by simpa using hab)]
      refine List.pairwise_cons.mpr ⟨?_, ih hTail⟩
      intro c hc
      rcases List.mem_cons.mp ((insertSorted_perm a l).mem_iff.mp hc) with rfl | hc
      · exact (hTotal b c).resolve_right hab
      · exact hHead c hc

theorem stableSort_pairwise (hTotal : ∀ a b, r a b ∨ r b a)
    (hTrans : ∀ a b c, r a b → r b c → r a c) (l : List α) :
    (stableSort (fun a b => decide (r a b)) l).Pairwise r := by
  induction l with
  | nil => exact .nil
  | cons a l ih => exact insertSorted_pairwise hTotal hTrans a ih

theorem stableSort_of_pairwise {l : List α} (h : l.Pairwise r) :
    stableSort (fun a b => decide (r a b)) l = l := by
  induction l with
  | nil => rfl
  | cons a l ih =>
    obtain ⟨hHead, hTail⟩ := List.pairwise_cons.mp h
    rw [stableSort, ih hTail]
    cases l with
    | nil => rfl
    | cons b l => rw [insertSorted, if_pos (decide_eq_true (hHead b List.mem_cons_self))]

theorem insertSorted_filter {p : α → Bool} (hTied : ∀ a b, p a = true → p b = true → r a b) (a : α)
    (l : List α) : (insertSorted (fun a b => decide (r a b)) a l).filter p = (a :: l).filter p := by
  induction l with
  | nil => rfl
  | cons b l ih =>
    rw [insertSorted]
    by_cases hab : r a b
    · rw [if_pos (decide_eq_true hab)]
    · rw [if_neg (by simpa using hab), List.filter_cons, ih]
      by_cases hb : p b = true
      · -- The element that is passed is tied with those of `p`, so the one inserted is not.
        have ha : ¬ p a = true := fun ha => hab (hTied a b ha hb)
        simp [ha, hb]
      · simp [hb, List.filter_cons]

/-- **Elements that may stand in either order keep their order.** -/
theorem stableSort_filter {p : α → Bool} (hTied : ∀ a b, p a = true → p b = true → r a b)
    (l : List α) : (stableSort (fun a b => decide (r a b)) l).filter p = l.filter p := by
  induction l with
  | nil => rfl
  | cons a l ih =>
    rw [stableSort, insertSorted_filter hTied, List.filter_cons, ih, List.filter_cons]

end Order

/-- The list `l` put in ascending order of a key, with elements of the same key in the order that
they have in `l`. -/
structure SortedStably (key : α → Int) (l sorted : List α) : Prop where
  ascending : sorted.Pairwise fun a b => key a ≤ key b
  stable : ∀ k : Int, sorted.filter (key · = k) = l.filter (key · = k)

theorem sortedStably_stableSort (key : α → Int) (l : List α) :
    SortedStably key l (stableSort (fun a b => key a ≤ key b) l) where
  ascending := stableSort_pairwise (fun a b => by omega) (fun a b c hab hbc => by omega) l
  stable k := stableSort_filter (fun a b ha hb => by simp at ha hb; omega) l

theorem SortedStably.filter {key : α → Int} {l sorted : List α} (h : SortedStably key l sorted)
    (p : α → Bool) : SortedStably key (l.filter p) (sorted.filter p) where
  ascending := h.ascending.filter p
  stable k := by
    rw [List.filter_filter, List.filter_filter]
    simp only [Bool.and_comm]
    rw [← List.filter_filter, ← List.filter_filter, h.stable k]

end CustomProperties
