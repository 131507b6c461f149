import CustomProperties.Proofs.EditCommand
import CustomProperties.Proofs.Padding
import CustomProperties.Proofs.Rescan

/-!
# Editing twice

Edits leave a text in which they find nothing more to do, if their values are closed and, unless
they are taken as they are, not blank.  The scan of the edited text finds the declarations of the
source with the results in them (`relocated_edited`).  Names and selectors are as before, so the
same declarations are edited; and each has its result already, because a value that is not blank
can be put between the same blanks again.

What is delivered to a file is the text itself.  Printing leaves out terminal control sequences, and
what is then left of a text need not be a text in which the edits find nothing to do.

* `result_of_edited`: the result of a declaration that has its result.
* `edited_edited`: **edits done twice are edits done once.**
* `runSet_idempotent`: the same for the command, with the same warnings.
* `runSet_printed_not_idempotent`: it does not hold of what is printed.
-/

namespace CustomProperties

namespace Scan

theorem closed_of_mem_scan {config : Config} {source : Text} {d : Declaration}
    (hd : d ∈ scan config source) : Closed config d.value := by
  have hWalk : ∀ d ∈ (walk config 0 {} 0 none source).declarations, Closed config d.value := by
    refine walk_induction (motive := fun _ _ _ _ trace =>
      ∀ d ∈ trace.declarations, Closed config d.value) ?_ ?_ ?_ ?_ {} 0 none source
    · intro s offset previous d hd
      cases hd
    · intro s offset previous a rest s' _ _ ih
      exact ih
    · intro s offset previous more cause _ _ ih
      rw [Trace.declarations_after_abandoned]
      exact ih
    · intro s offset previous d x rest _ _ ih
      rw [Trace.declarations_after_found, List.forall_mem_cons, State.declare_reading]
      exact ⟨d.value_closed, ih⟩
  exact hWalk d hd

namespace Relocated

variable {edits : Edits} {shift : Int} {ds ds' : List Declaration}

theorem map_eq (h : Relocated edits shift ds ds') :
    (ds'.map fun d => (d.name, d.selector)) = ds.map fun d => (d.name, d.selector) := by
  induction h with
  | nil => rfl
  | cons hName hSelector _ _ _ ih => rw [List.map_cons, List.map_cons, ih, hName, hSelector]

theorem exists_of_mem (h : Relocated edits shift ds ds') {d' : Declaration} (hd' : d' ∈ ds') :
    ∃ d ∈ ds, d'.name = d.name ∧ d'.selector = d.selector ∧ d'.value = edits.resulting d := by
  induction h with
  | nil => cases hd'
  | @cons shift d e ds ds' hName hSelector hValue _ _ ih =>
    rcases List.mem_cons.mp hd' with rfl | hd'
    · exact ⟨d, List.mem_cons_self, hName, hSelector, hValue⟩
    · obtain ⟨f, hf, hParts⟩ := ih hd'
      exact ⟨f, List.mem_cons_of_mem d hf, hParts⟩

end Relocated

end Scan

namespace EditInput

/-- The values can be put in again: they are closed, and those that get padding are not blank. -/
def Repeatable (input : EditInput) (config : Config) : Prop :=
  ∀ name ∈ input.names, ∀ v ∈ input.value? name,
    Scan.Closed config v ∧ (input.raw = false → v.isBlank = false)

instance (input : EditInput) (config : Config) : Decidable (input.Repeatable config) :=
  inferInstanceAs (Decidable (∀ name ∈ input.names, ∀ v ∈ input.value? name,
    Scan.Closed config v ∧ (input.raw = false → v.isBlank = false)))

section

variable {input : EditInput} {config : Config} {source : Text}

theorem Repeatable.of_value? (hInput : input.Repeatable config) {name v : Text}
    (hv : input.value? name = some v) :
    Scan.Closed config v ∧ (input.raw = false → v.isBlank = false) := by
  refine hInput name ?_ v hv
  by_contra hName
  rw [← keys_request] at hName
  rw [← get?_request, Entries.get?_of_not_mem hName] at hv
  cases hv

theorem closed_result (hInput : input.Repeatable config) {d : Declaration}
    (hd : Scan.Closed config d.value) : Scan.Closed config (input.result d) := by
  rw [result, newValue?]
  by_cases hUnder : d.Under input.selector
  · rw [if_pos hUnder]
    cases hValue : input.value? d.name with
    | none => exact hd
    | some v =>
      have hv := (hInput.of_value? hValue).1
      show Scan.Closed config (if input.raw then v else Padding.keep d.value v)
      split
      · exact hv
      · exact hv.keep d.value
  · rw [if_neg hUnder]
    exact hd

/-- **A declaration that has its result keeps it.** -/
theorem result_of_edited (hInput : input.Repeatable config) {d d' : Declaration}
    (hName : d'.name = d.name) (hSelector : d'.selector = d.selector)
    (hValue : d'.value = input.result d) : input.result d' = d'.value := by
  have hSame : d'.Under input.selector ↔ d.Under input.selector := by
    rw [Declaration.Under, Declaration.Under, hSelector]
  by_cases hUnder : d.Under input.selector
  · cases hAsked : input.value? d.name with
    | none => simp [result, newValue?, hName, hAsked]
    | some v =>
      have hOnce : d'.value = if input.raw then v else Padding.keep d.value v := by
        rw [hValue, result, newValue?, if_pos hUnder, hAsked]
        rfl
      have hTwice : input.result d' = if input.raw then v else Padding.keep d'.value v := by
        rw [result, newValue?, if_pos (hSame.mpr hUnder), hName, hAsked]
        rfl
      rw [hTwice]
      cases hRaw : input.raw with
      | true =>
        rw [hRaw] at hOnce
        exact hOnce.symm
      | false =>
        rw [hRaw] at hOnce
        have hOnce : d'.value = Padding.keep d.value v := hOnce
        -- The value stands there already, between the blanks that it would get.
        show Padding.keep d'.value v = d'.value
        rw [hOnce]
        exact Padding.keep_keep_self d.value ((hInput.of_value? hAsked).2 hRaw)
  · rw [result, newValue?, if_neg fun h => hUnder (hSame.mp h)]
    rfl

theorem resulting_session {file : Option Text} {d : Declaration}
    (hd : d ∈ Scan.scan config source) :
    (input.session config source file).edits.resulting d = input.result d := by
  rw [Edits.resulting, session, Session.newValue?_holding (nodup_ids_scan config source) hd]
  by_cases h : input.result d = d.value
  · rw [if_pos h, h]
    rfl
  · rw [if_neg h]
    rfl

theorem relocated_edited (hInput : input.Repeatable config)
    (hContained : Scan.Contained (Scan.trace config source).events) :
    Scan.Relocated (input.session config source none).edits 0 (Scan.scan config source)
      (Scan.scan config (input.edited config source)) := by
  have hClosed : ∀ d ∈ Scan.scan config source,
      Scan.Closed config ((input.session config source none).edits.resulting d) := by
    intro d hd
    rw [resulting_session hd]
    exact closed_result hInput (Scan.closed_of_mem_scan hd)
  rw [edited, ← (input.session_holds config source none).render_eq]
  exact Scan.relocated_scan config source _ hClosed hContained

theorem result_of_mem_edited (hInput : input.Repeatable config)
    (hContained : Scan.Contained (Scan.trace config source).events) :
    ∀ d ∈ Scan.scan config (input.edited config source), input.result d = d.value := by
  intro d' hd'
  obtain ⟨d, hd, hName, hSelector, hValue⟩ :=
    (relocated_edited hInput hContained).exists_of_mem hd'
  rw [resulting_session hd] at hValue
  exact result_of_edited hInput hName hSelector hValue

/-- **Edits done twice are edits done once.** -/
theorem edited_edited (hInput : input.Repeatable config)
    (hContained : Scan.Contained (Scan.trace config source).events) :
    input.edited config (input.edited config source) = input.edited config source :=
  input.edited_of_result_eq config _ (result_of_mem_edited hInput hContained)

theorem unmatched_congr {ds ds' : List Declaration}
    (h : (ds'.map fun d => (d.name, d.selector)) = ds.map fun d => (d.name, d.selector)) :
    input.unmatched ds' = input.unmatched ds := by
  have hPairs : ∀ (es : List Declaration) (name : Text),
      (∀ d ∈ es, ¬ d.Matches name input.selector) ↔
        ∀ p ∈ es.map fun d => (d.name, d.selector),
          ¬ (p.1 = name ∧ ∀ x ∈ input.selector, p.2 = x) := by
    intro es name
    rw [List.forall_mem_map]
    rfl
  rw [unmatched, unmatched]
  refine List.filter_congr fun name _ => ?_
  rw [decide_eq_decide, hPairs, hPairs, h]

theorem unmatched_edited (hInput : input.Repeatable config)
    (hContained : Scan.Contained (Scan.trace config source).events) :
    input.unmatched (Scan.scan config (input.edited config source))
      = input.unmatched (Scan.scan config source) :=
  unmatched_congr (relocated_edited hInput hContained).map_eq

end

end EditInput

namespace CommandLine

/-- Two runs that come to the same warnings and the same text to print leave the same behind. -/
theorem outcome_eq_of_say {x x' : Run Unit} {folder folder' : Folder} {t told : Text}
    (h : x.run.run { folder } = (say t).run.run (Console.told { folder } told))
    (h' : x'.run.run { folder := folder' }
      = (say t).run.run (Console.told { folder := folder' } told)) :
    x'.outcome folder' = { x.outcome folder with folder := folder' } ∧
      (Utf8.unencodable? t.plain = none → (x.outcome folder).stdout = t.plain) := by
  rw [Run.outcome, Run.outcome, h, h']
  cases hPlain : Utf8.unencodable? t.plain with
  | none =>
    rw [run_say hPlain, run_say hPlain]
    exact ⟨rfl, fun _ => rfl⟩
  | some place =>
    have hCrash : ∀ c : Console,
        (say t).run.run c = (.error (.crash (.unencodable place)), c) := by
      intro c
      rw [say, hPlain]
      rfl
    rw [hCrash, hCrash]
    refine ⟨rfl, ?_⟩
    intro hNone
    cases hNone

section

variable {folder folder' : Folder} {a : Arguments} {path source : Text}
  {document items : List (Text × Text)} {c : Console}

theorem exists_run_runSet (settings : Settings)
    (h : Supplies settings.limits folder a path source document items) (hc : c.folder = folder) :
    ∃ (count : Nat) (record : Log.Record),
      (runSet settings a path).run.run c = (deliver (a.value? .output)
        ((a.editInput document items).edited settings.config source) count).run.run
        (c.told (openingText settings path source (a.editInput document items)
          ++ shownLog settings.verbose [record])) := by
  have hRun := run_runSet h hc rfl
  rw [(EditInput.session_holds _ _ _ _).render_eq] at hRun
  exact ⟨_, _, hRun⟩

theorem exists_run_runSet_again (settings : Settings)
    (h : Supplies settings.limits folder a path
      ((a.editInput document items).edited settings.config source) document items)
    (hc : c.folder = folder)
    (hInput : (a.editInput document items).Repeatable settings.config)
    (hContained : Scan.Contained (Scan.trace settings.config source).events) :
    ∃ record : Log.Record, (runSet settings a path).run.run c = (deliver (a.value? .output)
        ((a.editInput document items).edited settings.config source) 0).run.run
      (c.told (openingText settings path
        ((a.editInput document items).edited settings.config source) (a.editInput document items)
          ++ shownLog settings.verbose [record])) := by
  have hRun := run_runSet h hc rfl
  have hHolds := (a.editInput document items).session_holds settings.config
    ((a.editInput document items).edited settings.config source) (some path)
  have hChanges := hHolds.changes_eq
  rw [List.filter_eq_nil_iff.mpr fun d hd => by
    simpa using EditInput.result_of_mem_edited hInput hContained d hd, List.map_nil] at hChanges
  have hRender := hHolds.render_eq.trans (EditInput.edited_edited hInput hContained)
  rw [hChanges, hRender] at hRun
  exact ⟨_, hRun⟩

/-- **`set` is idempotent.**  Run on the text that it has delivered, it delivers that text again and
warns of the same names. -/
theorem runSet_idempotent (settings : Settings)
    (h : Supplies settings.limits folder a path source document items)
    (hAgain : Supplies settings.limits folder' a path
      ((a.editInput document items).edited settings.config source) document items)
    (hInput : (a.editInput document items).Repeatable settings.config)
    (hContained : Scan.Contained (Scan.trace settings.config source).events) :
    let text := (a.editInput document items).edited settings.config source
    let warned := warnings path
      ((a.editInput document items).unmatched (Scan.scan settings.config source))
    (∀ c : Console, c.folder = folder → ∃ (count : Nat) (record : Log.Record),
      (runSet settings a path).run.run c = (deliver (a.value? .output) text count).run.run
        (c.told (shownLog settings.verbose ((Scan.trace settings.config source).log (some path))
          ++ warned ++ shownLog settings.verbose [record]))) ∧
    (∀ c : Console, c.folder = folder' → ∃ record : Log.Record,
      (runSet settings a path).run.run c = (deliver (a.value? .output) text 0).run.run
        (c.told (shownLog settings.verbose ((Scan.trace settings.config text).log (some path))
          ++ warned ++ shownLog settings.verbose [record]))) ∧
    (settings.verbose = false → a.value? .output = none →
      (runSet settings a path).outcome folder'
          = { (runSet settings a path).outcome folder with folder := folder' } ∧
        (Utf8.unencodable? text.plain = none →
          ((runSet settings a path).outcome folder).stdout = text.plain)) := by
  intro text warned
  have hOpening : openingText settings path text (a.editInput document items)
      = shownLog settings.verbose ((Scan.trace settings.config text).log (some path))
        ++ warned := by
    rw [openingText, EditInput.unmatched_edited hInput hContained]
  refine ⟨fun c hc => exists_run_runSet settings h hc, fun c hc => ?_, fun hQuiet hOutput => ?_⟩
  · rw [← hOpening]
    exact exists_run_runSet_again settings hAgain hc hInput hContained
  · obtain ⟨count, record, hRun⟩ := exists_run_runSet (c := { folder }) settings h rfl
    obtain ⟨record', hRun'⟩ := exists_run_runSet_again (c := { folder := folder' }) settings hAgain
      rfl hInput hContained
    rw [hOpening, hQuiet, hOutput] at hRun'
    rw [openingText, hQuiet, hOutput] at hRun
    exact outcome_eq_of_say hRun hRun'

/-- A candidate that is no declaration, a value with padding and a semicolon in parentheses for it,
and a name that no declaration has. -/
theorem runSet_idempotent_padded :
    let source : Text := "x\x7b--!;--a: 1 ;--b:2\x7d"
    let text : Text := "x\x7b--!;--a: (;) ;--b:2\x7d"
    let a : Arguments := { given := [⟨.assign, "a=(;)"⟩, ⟨.assign, "c=3"⟩] }
    let folder : Folder := [(["a.css"], .file (Utf8.encode source))]
    let folder' : Folder := [(["a.css"], .file (Utf8.encode text))]
    let items : List (Text × Text) := [("--a", "(;)"), ("--c", "3")]
    let limits : Json.Limits := .standard 900
    Supplies limits folder a "a.css" source [] items ∧
      (a.editInput [] items).edited {} source = text ∧
      Supplies limits folder' a "a.css" ((a.editInput [] items).edited {} source) [] items ∧
      (a.editInput [] items).Repeatable {} ∧
      Scan.Contained (Scan.trace {} source).events ∧
      (runSet ⟨{}, limits, false⟩ a "a.css").outcome folder'
        = { (runSet ⟨{}, limits, false⟩ a "a.css").outcome folder with folder := folder' } ∧
      ((runSet ⟨{}, limits, false⟩ a "a.css").outcome folder).stdout = text := by
  intro source text a folder folder' items limits
  have hText : (a.editInput [] items).edited {} source = text := by decide +kernel
  have hFirst : Supplies limits folder a "a.css" source [] items :=
    ⟨⟨_, rfl, by decide +kernel⟩, rfl, by decide +kernel, by decide +kernel⟩
  have hAgain : Supplies limits folder' a "a.css" ((a.editInput [] items).edited {} source) []
      items := by
    rw [hText]
    exact ⟨⟨_, rfl, by decide +kernel⟩, rfl, by decide +kernel, by decide +kernel⟩
  have hInput : (a.editInput [] items).Repeatable {} := by decide +kernel
  have hContained : Scan.Contained (Scan.trace {} source).events := by decide +kernel
  obtain ⟨hOutcome, hPrinted⟩ :=
    (runSet_idempotent ⟨{}, limits, false⟩ hFirst hAgain hInput hContained).2.2 rfl rfl
  refine ⟨hFirst, hText, hAgain, hInput, hContained, hOutcome, (hPrinted ?_).trans ?_⟩
  · rw [hText]
    decide +kernel
  · rw [hText]
    decide +kernel

/-- A value that begins a control sequence, which the text behind it completes.  Printed, the text
lacks the value and its semicolon, and the next run puts the value where nothing completes it. -/
theorem runSet_printed_not_idempotent :
    let source : Text := "x\x7b--a:1;m;\n\x7d"
    let printed : Text := "x\x7b--a:;\n\x7d"
    let value : Text := [.ofNat 0x1B, '[']
    let a : Arguments := { given := [⟨.raw, []⟩, ⟨.assign, ("a=" : Text) ++ value⟩] }
    let folder : Folder := [(["a.css"], .file (Utf8.encode source))]
    let folder' : Folder := [(["a.css"], .file (Utf8.encode printed))]
    let limits : Json.Limits := .standard 900
    Supplies limits folder a "a.css" source [] [("--a", value)] ∧
      Supplies limits folder' a "a.css" printed [] [("--a", value)] ∧
      (a.editInput [] [("--a", value)]).Repeatable {} ∧
      Scan.Contained (Scan.trace {} source).events ∧
      ((runSet ⟨{}, limits, false⟩ a "a.css").outcome folder).stdout = printed ∧
      ((runSet ⟨{}, limits, false⟩ a "a.css").outcome folder').stdout ≠ printed := by
  intro source printed value a folder folder' limits
  have hFirst : Supplies limits folder a "a.css" source [] [("--a", value)] :=
    ⟨⟨_, rfl, by decide +kernel⟩, rfl, by decide +kernel, by decide +kernel⟩
  have hAgain : Supplies limits folder' a "a.css" printed [] [("--a", value)] :=
    ⟨⟨_, rfl, by decide +kernel⟩, rfl, by decide +kernel, by decide +kernel⟩
  refine ⟨hFirst, hAgain, ?_, ?_, ?_, ?_⟩
  · decide +kernel
  · decide +kernel
  · decide +kernel
  · decide +kernel

end

end CommandLine

end CustomProperties
