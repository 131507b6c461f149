import CustomProperties.CommandLine.Basic
import CustomProperties.Proofs.EditRequest

/-!
# The commands that edit

`set` and `diff` make the same session, from a stylesheet, perhaps a document, and the items among
the arguments.  If all of these can be read (`Supplies`), then what the commands do is told by
`EditInput` alone: they warn of the names that no declaration has, and then one prints a report of
the changes and the other delivers the text with the changes in place.

* `run_bind`, `run_tell` and their neighbours: what a step of a run leaves on the console.
* `run_editSession`: the session of both commands.
* `editCommands_agree`: **both commands apply the same edits.**
-/

namespace CustomProperties.CommandLine

/-! ## Steps of a run -/

def Console.told (c : Console) (t : Text) : Console := { c with stderr := c.stderr ++ t }

theorem Console.told_told (c : Console) (t u : Text) : (c.told t).told u = c.told (t ++ u) := by
  rw [told, told, told, List.append_assoc]

theorem Console.told_nil (c : Console) : c.told [] = c := by
  rw [told, List.append_nil]

theorem run_bind {α β : Type} {x : Run α} {c c' : Console} {a : α}
    (h : x.run.run c = (.ok a, c')) (f : α → Run β) :
    (x >>= f).run.run c = (f a).run.run c' := by
  rw [ExceptT.run_bind, StateT.run_bind, h]
  rfl

theorem run_tell (t : Text) (c : Console) :
    (tell t).run.run c = (.ok (), c.told (escapeSurrogates t.plain)) := rfl

def shownLog (verbose : Bool) (records : List Log.Record) : Text :=
  if verbose then escapeSurrogates (records.flatMap fun r => r.line ++ "\n") else []

theorem run_report (verbose : Bool) (records : List Log.Record) (c : Console) :
    (report verbose records).run.run c = (.ok (), c.told (shownLog verbose records)) := by
  cases verbose with
  | true => rfl
  | false =>
    rw [shownLog, if_neg Bool.false_ne_true, Console.told_nil]
    rfl

theorem run_forM_tell (line : Text → Text) (names : List Text) (c : Console) :
    (names.forM fun name => tell (line name)).run.run c
      = (.ok (), c.told (names.flatMap fun name => escapeSurrogates (line name).plain)) := by
  induction names generalizing c with
  | nil =>
    rw [List.flatMap_nil, Console.told_nil]
    rfl
  | cons name names ih =>
    show StateT.run (tell (line name) >>= fun _ => names.forM (tell ∘ line)).run c = _
    rw [run_bind (run_tell (line name) c)]
    refine (ih _).trans ?_
    rw [Console.told_told, List.flatMap_cons]

theorem run_say {t : Text} (h : Utf8.unencodable? t.plain = none) (c : Console) :
    (say t).run.run c = (.ok (), { c with stdout := c.stdout ++ t.plain }) := by
  rw [say, h]
  rfl

theorem run_sayAll {texts : List Text} (h : ∀ t ∈ texts, Utf8.unencodable? t.plain = none)
    (c : Console) : (sayAll texts).run.run c
      = (.ok (), { c with stdout := c.stdout ++ texts.flatMap Text.plain }) := by
  rw [sayAll]
  induction texts generalizing c with
  | nil =>
    rw [List.flatMap_nil, List.append_nil]
    rfl
  | cons t texts ih =>
    show StateT.run (say t >>= fun _ => texts.forM say).run c = _
    rw [run_bind (run_say (h t List.mem_cons_self) c),
      ih fun u hu => h u (List.mem_cons_of_mem t hu), List.flatMap_cons, List.append_assoc]

/-! ## What the commands are given -/

def Arguments.editInput (a : Arguments) (document items : List (Text × Text)) : EditInput :=
  { document, items, selector := a.value? .selector, raw := a.has .raw }

/-- The entries of the document that the arguments name; without a document there are none. -/
def Arguments.document (a : Arguments) (limits : Json.Limits) (folder : Folder) :
    Except (Json.Failure EditError) (Entries Text Text) :=
  match a.value? .edits with
  | none => .ok []
  | some file => decodeEdits limits (folder.read file)

theorem eq_ok_of_toOption {ε α : Type} {x : Except ε α} {v : α} (h : x.toOption = some v) :
    x = .ok v := by
  cases x with
  | ok u => exact congrArg Except.ok (Option.some.inj h)
  | error e => cases h

def Stores (folder : Folder) (path source : Text) : Prop :=
  ∃ bytes, folder.read path = .ok bytes ∧ Utf8.decode bytes = .ok source

/-- All that the arguments name can be read, and there is at least one edit. -/
structure Supplies (limits : Json.Limits) (folder : Folder) (a : Arguments) (path source : Text)
    (document items : List (Text × Text)) : Prop where
  stores : Stores folder path source
  document_eq : a.document limits folder = .ok document
  items_eq : (a.values .assign).mapM Assignment.read = .ok items
  ne_nil : document ++ items ≠ []

def warning (path name : Text) : Text :=
  "Warning: no declaration named " ++ name ++ " in " ++ path ++ "\n"

def warnings (path : Text) (names : List Text) : Text :=
  names.flatMap fun name => escapeSurrogates (warning path name).plain

/-- What a command that edits tells before it comes to its result. -/
def openingText (settings : Settings) (path source : Text) (input : EditInput) : Text :=
  shownLog settings.verbose ((Scan.trace settings.config source).log (some path))
    ++ warnings path (input.unmatched (Scan.scan settings.config source))

theorem run_readStylesheet {path source : Text} {c : Console} (h : Stores c.folder path source) :
    (readStylesheet path).run.run c = (.ok source, c) := by
  obtain ⟨bytes, hRead, hDecode⟩ := h
  have hFile : (readFile path).run.run c = (.ok (.ok bytes), c) := by
    rw [← hRead]
    rfl
  rw [readStylesheet, run_bind hFile]
  simp only [hDecode]
  rfl

theorem run_openSession {path source : Text} {c : Console} (h : Stores c.folder path source)
    (settings : Settings) : (openSession settings path).run.run c
      = (.ok (Session.start settings.config source (some path)), c.told (shownLog settings.verbose
        ((Scan.trace settings.config source).log (some path)))) := by
  rw [openSession, run_bind (run_readStylesheet h), run_bind (run_report _ _ c)]
  rfl

section

variable {limits : Json.Limits} {folder : Folder} {a : Arguments} {path source : Text}
  {document items : List (Text × Text)} {c : Console}

theorem run_readEdits (h : Supplies limits folder a path source document items)
    (hc : c.folder = folder) :
    (readEdits limits (a.value? .edits)).run.run c = (.ok document, c) := by
  have hDocument := h.document_eq
  rw [Arguments.document] at hDocument
  cases hFile : a.value? .edits with
  | none =>
    rw [hFile] at hDocument
    cases hDocument
    rfl
  | some file =>
    rw [hFile] at hDocument
    have hRead : (readFile file).run.run c = (.ok (folder.read file), c) := by
      rw [← hc]
      rfl
    rw [readEdits, run_bind hRead]
    simp only at hDocument
    simp only [hDocument]
    rfl

theorem values_ne_nil (h : Supplies limits folder a path source document items) :
    (a.editInput document items).request.values ≠ [] := by
  have hKeys := (a.editInput document items).keys_request
  intro hNil
  rw [hNil] at hKeys
  have hNames : ∀ name, name ∉ (a.editInput document items).names := by
    rw [← hKeys]
    exact fun _ => List.not_mem_nil
  refine h.ne_nil (List.eq_nil_iff_forall_not_mem.mpr fun pair hPair => ?_)
  simp only [EditInput.names, List.mem_eraseDups, List.mem_append, not_or] at hNames
  rcases List.mem_append.mp hPair with hPair | hPair
  · exact (hNames (PropertyName.normalize pair.1)).1
      (List.mem_map_of_mem (List.mem_map_of_mem hPair))
  · exact (hNames pair.1).2 (List.mem_map_of_mem hPair)

/-- **The session of both commands** holds the result of the edits for each declaration. -/
theorem run_editSession {settings : Settings}
    (h : Supplies settings.limits folder a path source document items) (hc : c.folder = folder)
    (context : Context) :
    (editSession context settings a path).run.run c
      = (.ok ((a.editInput document items).session settings.config source (some path)),
        c.told (openingText settings path source (a.editInput document items))) := by
  have hItems : Assignment.readAll (a.values .assign) = .ok (Entries.ofPairs items) := by
    rw [Assignment.readAll, h.items_eq]
    rfl
  have hSome : (a.editInput document items).request.values.isEmpty = false := by
    rw [List.isEmpty_eq_false_iff]
    exact values_ne_nil h
  have hStores : Stores c.folder path source := by
    rw [hc]
    exact h.stores
  have hUnmatched := (a.editInput document items).unmatched_request
    (s := Session.start settings.config source (some path)) rfl
  -- The document and the items are read before the stylesheet, and neither leaves a trace.
  rw [editSession, run_bind (run_readEdits h hc)]
  simp only [hItems]
  show StateT.run (ExceptT.run (if (a.editInput document items).request.values.isEmpty then _
    else _)) c = _
  rw [hSome, if_neg Bool.false_ne_true, run_bind (run_openSession hStores settings)]
  show StateT.run (ExceptT.run (((a.editInput document items).request.unmatched _).forM (fun name =>
    tell (warning path name)) >>= fun _ => pure ((a.editInput document items).request.apply _))) _
    = _
  rw [hUnmatched, run_bind (run_forM_tell (warning path) _ _), Console.told_told,
    EditInput.apply_start]
  rfl

end

/-! ## What the commands make of it -/

def diffReport (changes : List Change) : List Text :=
  if changes = [] then ["No changes.\n"]
  else changes.map diffLine
    ++ [("\n" : Text), "Summary: " ++ (Text.ofNat changes.length ++ " change(s)") ++ "\n"]

/-- A text with some changes in it goes to a file, with a note on their number, or is printed. -/
def deliver (output : Option Text) (t : Text) (count : Nat) : Run Unit :=
  match output with
  | none => say t
  | some output => do
    putText output t
    tell ("Wrote " ++ FilePath.name output ++ " (" ++ (Text.ofNat count ++ " change(s)") ++ ")\n")

theorem diffReport_eq_noChanges_iff {changes : List Change} :
    diffReport changes = [("No changes.\n" : Text)] ↔ changes = [] := by
  constructor
  · intro h
    by_contra hne
    rw [diffReport, if_neg hne] at h
    have hLength := congrArg List.length h
    simp at hLength
  · rintro rfl
    rfl

theorem sayAll_diffReport (s : Session) : sayAll (diffReport s.changes)
    = (if s.changes.isEmpty then say "No changes.\n" else do
      sayAll (s.changes.map diffLine)
      say "\n"
      say ("Summary: " ++ countChanges s ++ "\n")) := by
  have hLast : ∀ t : Text, sayAll [t] = say t := fun t => bind_pure_unit
  by_cases h : s.changes = []
  · rw [h, diffReport, if_pos rfl, hLast]
    rfl
  · have hAppend : ∀ xs ys : List Text, sayAll (xs ++ ys) = (do sayAll xs; sayAll ys) :=
      fun xs ys => List.forM_append
    have hTwo : ∀ t u : Text, sayAll [t, u] = (do say t; say u) := by
      intro t u
      show (do say t; sayAll [u]) = _
      rw [hLast]
    rw [if_neg (by rwa [List.isEmpty_iff]), diffReport, if_neg h, hAppend, hTwo]
    rfl

section

variable {settings : Settings} {folder : Folder} {a : Arguments} {path source : Text}
  {document items : List (Text × Text)} {c : Console}

theorem run_runDiff (h : Supplies settings.limits folder a path source document items)
    (hc : c.folder = folder) : (runDiff settings a path).run.run c
      = (sayAll (diffReport ((a.editInput document items).session settings.config source
          (some path)).changes)).run.run
        (c.told (openingText settings path source (a.editInput document items))) := by
  rw [runDiff, run_bind (run_editSession h hc _), sayAll_diffReport]

theorem run_runSet (h : Supplies settings.limits folder a path source document items)
    (hc : c.folder = folder) {s : Session}
    (hs : s = (a.editInput document items).session settings.config source (some path)) :
    (runSet settings a path).run.run c
      = (deliver (a.value? .output) s.render s.changes.length).run.run
        (c.told (openingText settings path source (a.editInput document items)
          ++ shownLog settings.verbose [s.patched.record s.edits])) := by
  rw [runSet, run_bind (run_editSession h hc _), run_bind (run_report _ _ _),
    Console.told_told, ← hs]
  cases a.value? .output with
  | none => rfl
  | some output => rfl

/-- **Both commands apply the same edits.**  The session holds the result for each declaration, and
the names that no declaration has are told of first.  Then `diff` prints a report of the changes and
`set` delivers the text with their number; a report of no changes means that the text is the
source. -/
theorem editCommands_agree (settings : Settings)
    (h : Supplies settings.limits folder a path source document items) :
    let input := a.editInput document items
    let opening := openingText settings path source input
    ∃ s : Session,
      s.Holds source (some path) (Scan.scan settings.config source) input.result ∧
      (a.has .raw = true → ∀ pairs : List (Text × Text), (pairs.map Prod.fst).Nodup →
        (∀ name value, (name, value) ∈ pairs ↔ input.value? name = some value) →
        s = pairs.foldl (fun s pair => (s.proposeAll pair.1 pair.2 (a.value? .selector)).1)
          (Session.start settings.config source (some path))) ∧
      (diffReport s.changes = [("No changes.\n" : Text)] → s.render = source) ∧
      ∀ c : Console, c.folder = folder →
        (∀ context, (editSession context settings a path).run.run c = (.ok s, c.told opening)) ∧
        (runSet settings a path).run.run c
          = (deliver (a.value? .output) s.render s.changes.length).run.run
            (c.told (opening ++ shownLog settings.verbose [s.patched.record s.edits])) ∧
        (runDiff settings a path).run.run c
          = (sayAll (diffReport s.changes)).run.run (c.told opening) ∧
        ((∀ t ∈ diffReport s.changes, Utf8.unencodable? t.plain = none) →
          (runDiff settings a path).run.run c = (.ok (), { c.told opening with
            stdout := c.stdout ++ (diffReport s.changes).flatMap Text.plain })) := by
  intro input opening
  refine ⟨input.session settings.config source (some path), EditInput.session_holds _ _ _ _, ?_, ?_,
    ?_⟩
  · intro hRaw pairs hNodup hPairs
    exact input.session_eq_foldl _ _ _ hRaw hNodup hPairs
  · intro hReport
    exact EditInput.render_of_changes_eq_nil _ _ _ _ (diffReport_eq_noChanges_iff.mp hReport)
  · intro c hc
    refine ⟨run_editSession h hc, run_runSet h hc rfl, run_runDiff h hc, fun hPrintable => ?_⟩
    rw [run_runDiff h hc, run_sayAll hPrintable]
    rfl

/-- A document with two entries for one name and one that no declaration has, two items for one
name, and a selector that keeps the second rule out. -/
theorem editCommands_agree_overridden :
    let source : Text := "x\x7b--a: 1 ;--b:2\x7dy\x7b--a:3\x7d"
    let file : Text := "\x7b\"a\":\"5\",\"--c\":\"6\",\"--a\":\"7\"\x7d"
    let folder : Folder :=
      [(["a.css"], .file (Utf8.encode source)), (["e.json"], .file (Utf8.encode file))]
    let a : Arguments :=
      { given := [⟨.assign, "b=8"⟩, ⟨.edits, "e.json"⟩, ⟨.selector, "x"⟩, ⟨.assign, "--b= 9"⟩] }
    let document : List (Text × Text) := [("a", "5"), ("--c", "6"), ("--a", "7")]
    let settings : Settings := ⟨{}, .standard 900, false⟩
    Supplies settings.limits folder a "a.css" source document [("--b", "8"), ("--b", " 9")] ∧
      (runDiff settings a "a.css").run.run { folder } = (.ok (),
        { folder
          stdout := "x  --a: 1 -> 7\nx  --b: 2 -> 9\n\nSummary: 2 change(s)\n"
          stderr := "Warning: no declaration named --c in a.css\n" }) := by
  intro source file folder a document settings
  have hDocument : (a.document settings.limits folder).toOption = some document := by
    decide +kernel
  have hSupplies : Supplies settings.limits folder a "a.css" source document
      [("--b", "8"), ("--b", " 9")] :=
    ⟨⟨_, rfl, by decide +kernel⟩, eq_ok_of_toOption hDocument, by decide +kernel,
      by decide +kernel⟩
  obtain ⟨s, hHolds, -, -, hRuns⟩ := editCommands_agree settings hSupplies
  refine ⟨hSupplies, ((hRuns { folder } rfl).2.2.2 ?_).trans (Prod.ext rfl ?_)⟩
  · rw [hHolds.changes_eq]
    decide +kernel
  · rw [hHolds.changes_eq]
    decide +kernel

end

end CustomProperties.CommandLine
