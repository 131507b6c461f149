import CustomProperties.Proofs.Span

/-!
# The scan of a source that is cut off

A declaration is finished at its terminator, and nothing behind the terminator changes it.  The two
walks, over the source and over its beginning, do the same up to the last character before the cut.
From there on they may differ: a candidate that was a declaration may be cut, and then the walk over
the beginning abandons it and looks for others inside.  But all that the walk over the source finds
from there on ends behind the cut.

* `readCandidate_append`: a candidate that is a declaration stays one, whatever is put behind it.
* `finished_scan_take`: **the declarations that end before a cut come first in the scan of what is
  left.**
-/

namespace CustomProperties.Scan

theorem readCandidate_append {config : Config} {t : Text} {r : Reading}
    (hHead : t.head? = some ('-' : CodePoint)) (h : readCandidate config t = .ok r)
    (behind : Text) : readCandidate config (t ++ behind) = .ok r := by
  obtain ⟨d, x, rest, rfl, hx, rfl⟩ := exists_spelling_of_readCandidate hHead h
  rw [List.append_assoc, List.append_assoc, List.cons_append]
  exact readCandidate_head d hx (rest ++ behind)

theorem readCandidate_take {config : Config} {more : Text} {cause : Abandonment}
    (h : readCandidate config (('-' : CodePoint) :: ('-' : CodePoint) :: more) = .error cause)
    (n : Nat) : ∃ cause', readCandidate config
      (('-' : CodePoint) :: ('-' : CodePoint) :: more.take n) = .error cause' := by
  cases hRead : readCandidate config (('-' : CodePoint) :: ('-' : CodePoint) :: more.take n) with
  | error cause' => exact ⟨cause', rfl⟩
  | ok r =>
    have hWhole := readCandidate_append rfl hRead (more.drop n)
    rw [List.cons_append, List.cons_append, List.take_append_drop, h] at hWhole
    cases hWhole

theorem lt_stop_of_mem_walk {config : Config} {s : State} {offset : Nat}
    {previous : Option CodePoint} {t : Text} {d : Declaration}
    (h : d ∈ (walk config 0 s offset previous t).declarations) : offset < d.stop := by
  rw [Trace.declarations_eq_map] at h
  obtain ⟨p, hp, rfl⟩ := List.mem_map.mp h
  obtain ⟨hLow, hPlaced⟩ := wellPlaced_walk config s offset previous t
    (List.replicate offset default) List.length_replicate
  have hOffset := hLow p hp
  have hRoom := (hPlaced.placed p hp).name_room
  have hOrder := (hPlaced.placed p hp).start_le_stop
  omega

def finished (ds : List Declaration) (k : Nat) : List Declaration :=
  ds.filter fun d => d.stop < k

theorem finished_eq_nil {ds : List Declaration} {k : Nat} (h : ∀ d ∈ ds, k ≤ d.stop) :
    finished ds k = [] := by
  refine List.filter_eq_nil_iff.mpr fun d hd => ?_
  have := h d hd
  simpa using this

theorem finished_walk_eq_nil {offset k : Nat} (hk : k ≤ offset) (config : Config) (s : State)
    (previous : Option CodePoint) (t : Text) :
    finished (walk config 0 s offset previous t).declarations k = [] := by
  refine finished_eq_nil fun d hd => ?_
  have := lt_stop_of_mem_walk hd
  omega

/-- **What a walk finds before a cut comes first in the walk over what is left.** -/
theorem finished_walk_take (config : Config) (s : State) (offset : Nat)
    (previous : Option CodePoint) (t : Text) (n : Nat) :
    finished (walk config 0 s offset previous t).declarations (offset + n)
      <+: (walk config 0 s offset previous (t.take n)).declarations := by
  refine walk_induction (motive := fun s offset previous t trace => ∀ n : Nat,
    finished trace.declarations (offset + n)
      <+: (walk config 0 s offset previous (t.take n)).declarations)
    ?_ ?_ ?_ ?_ s offset previous t n
  · intro s offset previous n
    exact List.nil_prefix
  · intro s offset previous a rest s' _ hMove ih n
    by_cases hn : n ≤ a.length
    · rw [finished_walk_eq_nil (by omega)]
      exact List.nil_prefix
    · -- The character behind the move is still there, so it is a move in both texts.
      obtain ⟨i, rfl⟩ := Nat.exists_eq_add_of_lt (Nat.lt_of_not_le hn)
      have hNext : (rest.take (i + 1)).head? = rest.head? := by simp [List.head?_take]
      rw [← hNext] at hMove
      rw [Nat.add_assoc a.length, List.take_length_add_append, hMove.walk_eq, ← Nat.add_assoc]
      exact ih (i + 1)
  · intro s offset previous more cause hs hRead ih n
    rw [Trace.declarations_after_abandoned]
    by_cases hn : n ≤ 1
    · rw [finished_walk_eq_nil (by omega)]
      exact List.nil_prefix
    · obtain ⟨i, rfl⟩ := Nat.exists_eq_add_of_lt (Nat.lt_of_not_le hn)
      obtain ⟨cause', hCut⟩ := readCandidate_take hRead i
      have hRest := ih (i + 1)
      rw [List.take_succ_cons] at hRest
      have hTake : (('-' : CodePoint) :: ('-' : CodePoint) :: more).take (1 + i + 1)
          = ('-' : CodePoint) :: ('-' : CodePoint) :: more.take i := by
        rw [Nat.add_comm 1, List.take_succ_cons, List.take_succ_cons]
      have hOffset : offset + (1 + i + 1) = offset + 1 + (i + 1) := by omega
      rw [hTake, hOffset, walk_abandoned hs hCut, Trace.declarations_after_abandoned]
      exact hRest
  · intro s offset previous d x rest hs hx ih n
    have hStop : (s.declare config offset d.reading).stop
        = (offset + d.head.length + d.value.length : Nat) := by
      rw [State.declare_reading]
      rfl
    rw [Trace.declarations_after_found]
    by_cases hn : n ≤ d.head.length + d.value.length
    · have hNil : finished (s.declare config offset d.reading ::
          (walk config 0 s (offset + d.head.length + d.value.length) (d.value.lastOr (some ':'))
            (x :: rest)).declarations) (offset + n) = [] := by
        refine finished_eq_nil (List.forall_mem_cons.mpr ⟨by omega, fun e he => ?_⟩)
        have := lt_stop_of_mem_walk he
        omega
      rw [hNil]
      exact List.nil_prefix
    · obtain ⟨i, rfl⟩ := Nat.exists_eq_add_of_lt (Nat.lt_of_not_le hn)
      have hTake : (d.head ++ (d.value ++ x :: rest)).take
          (d.head.length + d.value.length + i + 1)
          = d.head ++ (d.value ++ x :: rest.take i) := by
        rw [Nat.add_assoc, Nat.add_assoc, List.take_length_add_append,
          List.take_length_add_append, List.take_succ_cons]
      have hOffset : offset + (d.head.length + d.value.length + i + 1)
          = offset + d.head.length + d.value.length + (i + 1) := by omega
      have hRest := ih (i + 1)
      rw [List.take_succ_cons] at hRest
      have hHere : (s.declare config offset d.reading).stop
          < (offset + d.head.length + d.value.length + (i + 1) : Nat) := by
        rw [hStop]
        omega
      rw [hTake, hOffset, walk_found hs d hx, Trace.declarations_after_found, finished,
        List.filter_cons_of_pos (by simpa using hHere)]
      exact List.cons_prefix_cons.mpr ⟨rfl, hRest⟩

/-- **The declarations that end before a cut come first in the scan of what is left.** -/
theorem finished_scan_take (config : Config) (source : Text) (k : Nat) :
    finished (scan config source) k <+: scan config (source.take k) := by
  have h := finished_walk_take config {} 0 none source k
  rwa [Nat.zero_add] at h

end CustomProperties.Scan
