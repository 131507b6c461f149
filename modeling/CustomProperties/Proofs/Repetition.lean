import CustomProperties.Proofs.Concatenation

/-!
# Scans of one source again and again

A scan goes on from the state in which the one before it ended.  That state matters, unless it is a
state at rest: then all that is left over are blanks, which stand in front of the first selector and
are trimmed away there.  So if the first scan comes to rest, the second one finds the same; and it
comes to rest as well, because it ends where the first one ended, but for blanks in the prelude.

* `stateAfter`: the state after a number of scans.
* `State.Padded.atRest`: more blanks do not disturb a state at rest.
* `scanRepeatedly_of_atRest`: **if the first scan comes to rest, all scans find the same and come to
  rest.**
-/

namespace CustomProperties.Scan

/-- The state after several scans of one source, where every scan goes on from the state in which
the one before it ended. -/
def stateAfter (config : Config) (source : Text) : (times : Nat) → State → State
  | 0, s => s
  | times + 1, s => stateAfter config source times (walkFrom config s source).state

theorem State.Padded.atRest {s s' : State} (h : s.Padded s') (hs' : s'.AtRest) : s.AtRest := by
  obtain ⟨blanks, hBlanks, hPrelude⟩ := h.prelude
  refine ⟨h.mode.trans hs'.normal, h.depth.trans hs'.top, ?_⟩
  rw [hPrelude, Text.isBlank_iff]
  intro c hc
  rcases List.mem_append.mp hc with hc | hc
  · exact Text.isBlank_iff.mp hBlanks c hc
  · exact Text.isBlank_iff.mp hs'.blank c hc

/-- **A scan from rest is a scan from the start**, and comes to rest if that one does. -/
theorem walkFrom_of_atRest {config : Config} {source : Text}
    (hRest : (trace config source).state.AtRest) {s : State} (hs : s.AtRest) :
    (walkFrom config s source).declarations = scan config source ∧
      (walkFrom config s source).state.AtRest := by
  obtain ⟨hEvents, hState⟩ := walk_padded config s 0 none source {} hs.padded
  exact ⟨congrArg (List.filterMap Event.declaration?) hEvents, hState.atRest hRest⟩

theorem scanRepeatedly_from_rest {config : Config} {source : Text}
    (hRest : (trace config source).state.AtRest) (times : Nat) {s : State} (hs : s.AtRest) :
    scanRepeatedly config source times s = List.replicate times (scan config source) ∧
      (stateAfter config source times s).AtRest := by
  induction times generalizing s with
  | zero => exact ⟨rfl, hs⟩
  | succ times ih =>
    obtain ⟨hFound, hNext⟩ := walkFrom_of_atRest hRest hs
    obtain ⟨hLater, hLast⟩ := ih hNext
    refine ⟨?_, hLast⟩
    rw [scanRepeatedly, hFound, hLater, List.replicate_succ]

/-- **If the first scan of a source comes to rest, all scans find the same and come to rest**,
however many follow it. -/
theorem scanRepeatedly_of_atRest (config : Config) (source : Text)
    (hRest : (trace config source).state.AtRest) (times : Nat) :
    scanRepeatedly config source (times + 1) {}
        = scan config source :: List.replicate times (scan config source) ∧
      (stateAfter config source (times + 1) {}).AtRest :=
  scanRepeatedly_from_rest hRest (times + 1) ⟨rfl, rfl, rfl⟩

/-- Blanks at both ends, an abandoned candidate, and a string that is kept in the first selector:
three scans. -/
theorem scanRepeatedly_of_atRest_blanks :
    let config : Config := { keepStrings := true }
    let source : Text := "\n 'q'a\x7b--;--b:1\x7d \n"
    (trace config source).state.AtRest ∧
      (trace config source).state.prelude ≠ [] ∧
      scanRepeatedly config source 3 {}
        = List.replicate 3 [⟨"10-14", "--b", "1", 14, 15, "'q'a"⟩] ∧
      (stateAfter config source 3 {}).AtRest := by
  intro config source
  have hRest : (trace config source).state.AtRest := by decide +kernel
  have hFirst : scan config source = [⟨"10-14", "--b", "1", 14, 15, "'q'a"⟩] := by decide +kernel
  have hScans := scanRepeatedly_of_atRest config source hRest 2
  rw [hFirst] at hScans
  exact ⟨hRest, by decide +kernel, hScans⟩

end CustomProperties.Scan
