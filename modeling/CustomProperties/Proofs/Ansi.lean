import CustomProperties.Proofs.Location
import CustomProperties.Text.Basic

/-!
# Texts without control sequences

A control sequence starts with an escape character and holds no line feed.  So a text without escape
characters stays as it is, whatever follows it, and a text loses its control sequences line by line.

* `Text.plain_append`: a text without escape characters stays.
* `Text.lines_plain`: **no control sequence goes over the end of a line.**
-/

namespace CustomProperties.Text

def escape : CodePoint := .ofNat 0x1B

theorem val_eq_iff_eq_escape {c : CodePoint} : c.val = 0x1B ↔ c = escape :=
  ⟨fun h => CodePoint.eq_of_val h, fun h => congrArg CodePoint.val h⟩

/-! ## Characters that stay -/

theorem plainAfter_sublist (skip : Nat) (t : Text) : (plainAfter skip t).Sublist t := by
  induction t generalizing skip with
  | nil => cases skip <;> exact List.Sublist.slnil
  | cons c rest ih =>
    cases skip with
    | succ skip => exact (ih skip).cons c
    | zero =>
      rw [plainAfter]
      split
      · split
        · exact (ih _).cons c
        · exact (ih 0).cons_cons c
      · exact (ih 0).cons_cons c

theorem mem_of_mem_plain {t : Text} {c : CodePoint} (h : c ∈ t.plain) : c ∈ t :=
  (plainAfter_sublist 0 t).mem h

/-- **A text without escape characters stays**, whatever follows it. -/
theorem plain_append {a : Text} (ha : escape ∉ a) (t : Text) : plain (a ++ t) = a ++ t.plain := by
  induction a with
  | nil => rfl
  | cons c a ih =>
    rw [List.mem_cons, not_or] at ha
    have hc : ¬ c.val = 0x1B := fun h => ha.1 (val_eq_iff_eq_escape.mp h).symm
    rw [List.cons_append, plain, plainAfter, if_neg hc, List.cons_append]
    exact congrArg (c :: ·) (ih ha.2)

theorem plain_of_not_mem {t : Text} (h : escape ∉ t) : t.plain = t := by
  have hAppend := plain_append h []
  rw [List.append_nil] at hAppend
  exact hAppend.trans (List.append_nil t)

/-! ## Lines -/

theorem controlTail?_le {t : Text} {n : Nat} (h : controlTail? t = some n) : n ≤ t.length := by
  simp only [controlTail?] at h
  split at h
  · split at h
    · rename_i hFinal
      cases h
      refine Nat.succ_le_of_lt (Nat.lt_of_not_le fun hLength => ?_)
      rw [List.drop_of_length_le hLength] at hFinal
      cases hFinal
    · cases h
  · cases h

/-- A search for the end of a class that starts in front of `x` ends in front of it as well. -/
theorem takeWhile_drop_append {p : CodePoint → Bool} {x : CodePoint} (hx : p x = false) {t : Text}
    {k : Nat} (hk : k ≤ t.length) (u : Text) :
    ((t ++ x :: u).drop k).takeWhile p = (t.drop k).takeWhile p ∧
      k + ((t.drop k).takeWhile p).length ≤ t.length := by
  have hLength := (List.takeWhile_sublist p (l := t.drop k)).length_le
  rw [List.length_drop] at hLength
  refine ⟨?_, by omega⟩
  rw [List.drop_append_of_le_length hk, List.takeWhile_append,
    List.takeWhile_cons_of_neg (by simp [hx]), List.append_nil]
  split
  · rename_i hAll
    exact ((List.takeWhile_sublist p).eq_of_length hAll).symm
  · rfl

theorem controlTail?_append_newline (t u : Text) :
    controlTail? (t ++ ('\n' : CodePoint) :: u) = controlTail? t := by
  cases t with
  | nil => rfl
  | cons c t =>
    obtain ⟨hParameters, hLe⟩ := takeWhile_drop_append (p := isParameter) (x := '\n') (by decide)
      (t := c :: t) (k := 1) (by simp) u
    obtain ⟨hIntermediates, hLe'⟩ := takeWhile_drop_append (p := isIntermediate) (x := '\n')
      (by decide) hLe u
    have hFinal : ∀ {k : Nat}, k ≤ (c :: t).length →
        (((c :: t) ++ ('\n' : CodePoint) :: u).drop k).head?.any isFinal
          = ((c :: t).drop k).head?.any isFinal := by
      intro k hk
      rw [List.drop_append_of_le_length hk]
      cases (c :: t).drop k with
      | nil => exact (by decide : isFinal '\n' = false)
      | cons d rest => rfl
    have hHead : ((c :: t) ++ ('\n' : CodePoint) :: u).head? = (c :: t).head? := rfl
    simp only [controlTail?, hHead, hParameters, hIntermediates, hFinal hLe']

theorem plainAfter_append_newline {skip : Nat} {t : Text} (h : skip ≤ t.length) (u : Text) :
    plainAfter skip (t ++ ('\n' : CodePoint) :: u)
      = plainAfter skip t ++ ('\n' : CodePoint) :: u.plain := by
  induction t generalizing skip with
  | nil =>
    cases Nat.le_zero.mp h
    rfl
  | cons c t ih =>
    cases skip with
    | succ skip => exact ih (Nat.le_of_succ_le_succ h)
    | zero =>
      rw [List.cons_append, plainAfter, plainAfter, controlTail?_append_newline]
      by_cases hc : c.val = 0x1B
      · rw [if_pos hc, if_pos hc]
        cases hTail : controlTail? t with
        | none => exact congrArg (c :: ·) (ih (Nat.zero_le _))
        | some n => exact ih (controlTail?_le hTail)
      · rw [if_neg hc, if_neg hc]
        exact congrArg (c :: ·) (ih (Nat.zero_le _))

theorem plain_append_newline (t u : Text) :
    plain (t ++ ('\n' : CodePoint) :: u) = t.plain ++ ('\n' : CodePoint) :: u.plain :=
  plainAfter_append_newline (Nat.zero_le _) u

/-- **No control sequence goes over the end of a line.** -/
theorem lines_plain (t : Text) : t.plain.lines = t.lines.map plain := by
  induction hn : t.length using Nat.strongRecOn generalizing t with
  | ind n ih =>
    subst hn
    by_cases hMem : ('\n' : CodePoint) ∈ t
    · obtain ⟨line, later, rfl, hLine⟩ := List.eq_append_cons_of_mem hMem
      have hShorter : later.length < (line ++ ('\n' : CodePoint) :: later).length := by
        rw [List.length_append, List.length_cons]
        omega
      have hPlain : ('\n' : CodePoint) ∉ plain line := fun h => hLine (mem_of_mem_plain h)
      rw [plain_append_newline, lines_append_newline, lines_append_newline, lines_of_not_mem hLine,
        lines_of_not_mem hPlain, ih later.length hShorter later rfl]
      rfl
    · have hPlain : ('\n' : CodePoint) ∉ t.plain := fun h => hMem (mem_of_mem_plain h)
      rw [lines_of_not_mem hMem, lines_of_not_mem hPlain]
      rfl

theorem count_newline_plain (t : Text) :
    t.plain.count ('\n' : CodePoint) = t.count ('\n' : CodePoint) := by
  have hPlain := (length_lines t.plain).1
  rw [lines_plain, List.length_map, (length_lines t).1] at hPlain
  exact (Nat.succ.inj hPlain).symm

-- A sequence that a line feed cuts off is no control sequence, and stays.
example : plain ([escape] ++ "[1mx" ++ [escape] ++ "[1\nm") = "x" ++ [escape] ++ "[1\nm" := by
  decide

end CustomProperties.Text
