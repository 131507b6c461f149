import CustomProperties.Proofs.Frame
import CustomProperties.Proofs.Padding
import CustomProperties.Proofs.Utf8

/-!
# The file that a run writes

A run that fails should leave every file as it was.  All steps but the last one of `set` do so, and
that last step first opens its file, which empties it, and then looks for the bytes of the text.  A
text with a surrogate in it has none, and by then the file is empty.

The stylesheet itself never brings a surrogate in, because it was read as strict UTF-8, so this
happens exactly if a value that some declaration gets holds one (`EditInput.GivesSurrogate`).

* `EditInput.unencodable?_edited_eq_none_iff`: which edits leave a text without bytes.
* `folder_program_or`: only a call of `set` with an output file touches a file.
* `folder_of_failing_run`: **a run that fails leaves every file as it was, unless it has emptied the
  output file for a value with a surrogate.**
-/

namespace CustomProperties

/-! ## Surrogates in an edited text -/

theorem CodePoint.not_isBlank_of_isSurrogate {c : CodePoint} (h : c.isSurrogate = true) :
    c.isBlank = false := by
  simp only [isSurrogate, Bool.and_eq_true, decide_eq_true_eq] at h
  simp only [isBlank, inRanges, blankRanges, List.any_cons, List.any_nil, Bool.or_eq_false_iff,
    Bool.and_eq_false_iff, decide_eq_false_iff_not, and_true]
  omega

theorem Text.not_mem_of_isBlank {c : CodePoint} (hc : c.isBlank = false) {blanks : Text}
    (hBlanks : blanks.isBlank = true) : c ∉ blanks := by
  intro hMem
  rw [isBlank_iff.mp hBlanks c hMem] at hc
  cases hc

theorem Text.mem_trim_iff {c : CodePoint} (hc : c.isBlank = false) {t : Text} :
    c ∈ t.trim ↔ c ∈ t := by
  refine ⟨mem_of_mem_trim, fun hMem => ?_⟩
  obtain ⟨after, hAfter, hSplit⟩ := eq_trimEnd_append t.trimStart
  rw [eq_leading_append t, hSplit] at hMem
  have hCore := (List.mem_append.mp hMem).resolve_left (not_mem_of_isBlank hc (leading_blank t))
  exact (List.mem_append.mp hCore).resolve_right (not_mem_of_isBlank hc hAfter)

theorem Padding.mem_keep_iff {c : CodePoint} (hc : c.isBlank = false) (old v : Text) :
    c ∈ keep old v ↔ c ∈ v := by
  cases hOld : old.isBlank with
  | true => rw [keep_of_blank hOld]
  | false =>
    have hParts := Text.padded_of_not_blank hOld
    rw [keep_of_not_blank hOld, List.mem_append, List.mem_append, Text.mem_trim_iff hc,
      or_iff_right (Text.not_mem_of_isBlank hc hParts.before_blank),
      or_iff_left (Text.not_mem_of_isBlank hc hParts.after_blank)]

/-- What a filled text holds besides characters of the source stands in a value. -/
theorem Text.mem_fill_iff {source : Text} {c : CodePoint} (hc : c ∉ source)
    (value : Declaration → Text) (offset : Int) (ds : List Declaration) :
    c ∈ source.fill value offset ds ↔ ∃ d ∈ ds, c ∈ value d := by
  induction ds generalizing offset with
  | nil =>
    have hSince : c ∉ source.since offset := fun hMem => hc (List.mem_of_mem_drop hMem)
    rw [Text.fill]
    simp [hSince]
  | cons d ds ih =>
    have hSlice : c ∉ source.slice offset d.start := fun hMem => hc (mem_of_mem_slice hMem)
    rw [Text.fill, List.mem_append, List.mem_append, ih, List.exists_mem_cons_iff,
      or_iff_right hSlice]

namespace EditInput

/-- A value that some declaration gets holds a surrogate. -/
def GivesSurrogate (input : EditInput) (config : Config) (source : Text) : Prop :=
  ∃ d ∈ Scan.scan config source, d.Under input.selector ∧
    ∃ value, input.value? d.name = some value ∧ ∃ c ∈ value, c.isSurrogate = true

theorem mem_result_iff (input : EditInput) {config : Config} {source : Text} {d : Declaration}
    (hd : d ∈ Scan.scan config source) {c : CodePoint} (hc : c.isSurrogate = true)
    (hSource : c ∉ source) : c ∈ input.result d ↔
      d.Under input.selector ∧ ∃ value, input.value? d.name = some value ∧ c ∈ value := by
  have hBlank := CodePoint.not_isBlank_of_isSurrogate hc
  have hOld : c ∉ d.value := fun hMem => hSource (Scan.mem_source_of_mem_value hd c hMem)
  rw [result, newValue?]
  by_cases hUnder : d.Under input.selector
  · rw [if_pos hUnder]
    cases hValue : input.value? d.name with
    | none => simp [hOld]
    | some value =>
      cases hRaw : input.raw with
      | true => simp [hUnder]
      | false => simp [hUnder, Padding.mem_keep_iff hBlank]
  · simp [hUnder, hOld]

/-- **An edited text has its bytes unless a declaration gets a value with a surrogate in it.** -/
theorem unencodable?_edited_eq_none_iff (input : EditInput) (config : Config) {source : Text}
    (hSource : ∀ c ∈ source, c.isSurrogate = false) :
    Utf8.unencodable? (input.edited config source) = none
      ↔ ¬ input.GivesSurrogate config source := by
  have hNot : ∀ c : CodePoint, c.isSurrogate = true → c ∉ source := by
    intro c hc hMem
    rw [hSource c hMem] at hc
    cases hc
  rw [Utf8.unencodable?, Utf8.surrogates?_eq_none_iff, GivesSurrogate]
  constructor
  · rintro hNone ⟨d, hd, hUnder, value, hValue, c, hMem, hc⟩
    have hResult := (input.mem_result_iff hd hc (hNot c hc)).mpr ⟨hUnder, value, hValue, hMem⟩
    have hEdited : c ∈ input.edited config source :=
      (Text.mem_fill_iff (hNot c hc) _ _ _).mpr ⟨d, hd, hResult⟩
    rw [hNone c hEdited] at hc
    cases hc
  · intro hNone c hEdited
    rw [← Bool.not_eq_true]
    intro hc
    obtain ⟨d, hd, hResult⟩ := (Text.mem_fill_iff (hNot c hc) _ _ _).mp hEdited
    obtain ⟨hUnder, value, hValue, hMem⟩ := (input.mem_result_iff hd hc (hNot c hc)).mp hResult
    exact hNone ⟨d, hd, hUnder, value, hValue, c, hMem, hc⟩

end EditInput

namespace CommandLine

/-! ## Calls that write -/

/-- The call of `set` comes to the point where it puts `source` with the edits of `input` into the
file `output`. -/
def Writes (limits : Json.Limits) (folder : Folder) (arguments : List Text) (output source : Text)
    (input : EditInput) : Prop :=
  ∃ (verbose : Bool) (a : Arguments) (path : Text) (document items : List (Text × Text)),
    Calls arguments verbose .set a path ∧ a.FilesInOrder folder ∧
      Supplies limits folder a path source document items ∧ a.value? .output = some output ∧
      a.editInput document items = input

theorem folder_runSet_or (settings : Settings) (a : Arguments) (path : Text) (c : Console) :
    ((runSet settings a path).run.run c).2.folder = c.folder ∨
      ∃ source document items output,
        Supplies settings.limits c.folder a path source document items ∧
        a.value? .output = some output := by
  refine folder_bind_or (keeps_editSession _ settings a path) fun session c' hSession => ?_
  obtain ⟨source, document, items, hSupplies⟩ := of_run_editSession hSession
  cases hOutput : a.value? .output with
  | none => exact Or.inl (((keeps_report _ _).bind fun _ => keeps_say _) c')
  | some output => exact Or.inr ⟨source, document, items, output, hSupplies, rfl⟩

theorem folder_runCommand_or {arguments rest : List Text} {p : Arguments} {command : Command}
    (hProgram : readArguments programOptions false arguments = .ok p) (hAsks : p.asks = false)
    (hOperands : p.operands = command.name :: rest) (settings : Settings) (c : Console) :
    ((runCommand settings command rest).run.run c).2.folder = c.folder ∨
      ∃ output source input, Writes settings.limits c.folder arguments output source input := by
  -- A step that ends well has left no trace, so the next one sees the same files.
  refine folder_bind_or (keeps_takeApart _ _ _ _) fun a c₁ hTake => ?_
  obtain ⟨hRead, rfl⟩ := of_run_takeApart hTake
  refine folder_bind_or (keeps_answerQuestions _ _) fun _ c₂ hAnswer => ?_
  obtain ⟨hQuiet, rfl⟩ := of_run_answerQuestions hAnswer
  refine folder_bind_or (.forM (keeps_checkOption _ _) _) fun _ c₃ hOptions => ?_
  obtain ⟨hFiles, rfl⟩ := of_run_checkOptions hOptions
  refine folder_bind_or (keeps_takeStylesheet _ _) fun path c₄ hStylesheet => ?_
  obtain ⟨hPath, hInOrder, rfl⟩ := of_run_takeStylesheet hStylesheet
  cases command with
  | list => exact Or.inl (keeps_runList settings a path c₄)
  | diff => exact Or.inl (keeps_runDiff settings a path c₄)
  | set =>
    rcases folder_runSet_or settings a path c₄ with
      hFolder | ⟨source, document, items, output, hSupplies, hOutput⟩
    · exact Or.inl hFolder
    · have hCalls : Calls arguments (p.has .verbose) .set a path :=
        ⟨⟨p, rest, hProgram, hAsks, rfl, hOperands, hRead⟩, hQuiet, hPath, hInOrder.flaw?_eq⟩
      exact Or.inr ⟨output, source, a.editInput document items, p.has .verbose, a, path, document,
        items, hCalls, hFiles, hSupplies, hOutput, rfl⟩

/-- **Only a call of `set` with an output file touches a file.** -/
theorem folder_program_or (config : Config) (limits : Json.Limits) (arguments : List Text)
    (c : Console) :
    ((program config limits arguments).run.run c).2.folder = c.folder ∨
      ∃ output source input, Writes limits c.folder arguments output source input := by
  rw [program]
  split
  · exact Or.inl (((keeps_tell _).bind fun _ => .throw _) c)
  refine folder_bind_or (keeps_takeApart _ _ _ _) fun p c₁ hTake => ?_
  obtain ⟨hProgram, rfl⟩ := of_run_takeApart hTake
  refine folder_bind_or (keeps_answerQuestions _ _) fun _ c₂ hAnswer => ?_
  obtain ⟨hAsks, rfl⟩ := of_run_answerQuestions hAnswer
  split
  · exact Or.inl (keeps_failUsage _ _ c₂)
  rename_i name rest hOperands
  split
  · rename_i command hName
    rw [Command.eq_name_of_ofName? hName] at hOperands
    exact folder_runCommand_or hProgram hAsks hOperands _ c₂
  · exact Or.inl (keeps_rejectCommand name p.operands c₂)

theorem Writes.run_program {limits : Json.Limits} {arguments : List Text} {output source : Text}
    {input : EditInput} {c : Console} (h : Writes limits c.folder arguments output source input)
    (config : Config) :
    ∃ (told : Text) (count : Nat), (program config limits arguments).run.run c
      = (deliver (some output) (input.edited config source) count).run.run (c.told told) := by
  obtain ⟨verbose, a, path, document, items, hCalls, hFiles, hSupplies, hOutput, rfl⟩ := h
  obtain ⟨bytes, hRead, -⟩ := hSupplies.stores
  rw [CommandLine.run_program hCalls (kind_of_read hRead)
    (fun key _ => hFiles.run_checkOption (some .set) key), Command.work,
    run_runSet hSupplies rfl rfl, hOutput, (EditInput.session_holds _ _ _ _).render_eq]
  exact ⟨_, _, rfl⟩

theorem Writes.isSurrogate_eq_false {limits : Json.Limits} {folder : Folder}
    {arguments : List Text} {output source : Text} {input : EditInput}
    (h : Writes limits folder arguments output source input) :
    ∀ c ∈ source, c.isSurrogate = false := by
  obtain ⟨_, _, _, _, _, -, -, hSupplies, -⟩ := h
  obtain ⟨bytes, -, hDecode⟩ := hSupplies.stores
  exact Utf8.isSurrogate_eq_false_of_decode hDecode

/-! ## Files that are written -/

/-- Opening the file `output` for writing empties the file at `place`. -/
structure Opens (folder : Folder) (output : Text) (place : List Text) : Prop where
  place_eq : folder.locateTarget output = .ok place
  not_unreadable : folder.get? place ≠ some .unreadable

section

variable {folder : Folder} {output t : Text} {place : List Text} {c : Console}

theorem Opens.create_eq (h : Opens folder output place) :
    folder.create output = .ok (place, folder.put place (.file [])) := by
  rw [Folder.create, h.place_eq]
  exact if_neg h.not_unreadable

theorem fill_put (folder : Folder) (place : List Text) (bytes : List UInt8) :
    Folder.fill (folder.put place (.file [])) place bytes
      = some (folder.put place (.file bytes)) := by
  rw [Folder.fill]
  cases bytes with
  | nil => rfl
  | cons b bytes =>
    rw [if_neg (by simp), Entries.get?_put, if_pos rfl, if_neg (by simp), Entries.put_put]

/-- The file has been emptied when its text turns out to have no bytes. -/
theorem Opens.run_putText_unencodable (h : Opens c.folder output place) {gap : Utf8.Unencodable}
    (hText : Utf8.unencodable? t = some gap) : (putText output t).run.run c
      = (.error (.crash (.unencodable gap)),
        { c with folder := c.folder.put place (.file []) }) := by
  have hGet : (get : Run Console).run.run c = (.ok c, c) := rfl
  rw [putText, run_bind hGet, h.create_eq]
  simp only [hText]
  rfl

theorem Opens.run_putText (h : Opens c.folder output place) (hText : Utf8.unencodable? t = none) :
    (putText output t).run.run c
      = (.ok (), { c with folder := c.folder.put place (.file (Utf8.encode t)) }) := by
  have hGet : (get : Run Console).run.run c = (.ok c, c) := rfl
  rw [putText, run_bind hGet, h.create_eq]
  simp only [hText, fill_put]
  rfl

/-- A file that cannot be opened, or cannot be filled, is left alone. -/
theorem folder_putText_or (output t : Text) (c : Console) :
    ((putText output t).run.run c).2.folder = c.folder ∨ ∃ place, Opens c.folder output place := by
  have hGet : (get : Run Console).run.run c = (.ok c, c) := rfl
  cases hPlace : c.folder.locateTarget output with
  | error fault =>
    have hCreate : c.folder.create output = .error fault := by
      rw [Folder.create, hPlace]
      rfl
    rw [putText, run_bind hGet, hCreate]
    exact Or.inl rfl
  | ok place =>
    by_cases hItem : c.folder.get? place = some .unreadable
    · have hCreate : c.folder.create output = .ok (place, c.folder) := by
        rw [Folder.create, hPlace]
        exact if_pos hItem
      rw [putText, run_bind hGet, hCreate]
      left
      cases hText : Utf8.unencodable? t with
      | some gap => rfl
      | none =>
        cases hBytes : (Utf8.encode t).isEmpty with
        | true =>
          simp only [Folder.fill, hBytes, if_true]
          rfl
        | false =>
          simp only [Folder.fill, hBytes, hItem, if_true]
          rfl
    · exact Or.inr ⟨place, hPlace, hItem⟩

end

/-- The call empties the file at `place`: it opens the file for a text that has no bytes, because of
a surrogate in a value that some declaration gets. -/
def Cuts (config : Config) (limits : Json.Limits) (folder : Folder) (arguments : List Text)
    (place : List Text) : Prop :=
  ∃ output source input, Writes limits folder arguments output source input ∧
    Opens folder output place ∧ input.GivesSurrogate config source

section

variable {config : Config} {limits : Json.Limits} {folder : Folder} {arguments : List Text}
  {output source : Text} {input : EditInput} {place : List Text}

theorem Cuts.run_eq (h : Cuts config limits folder arguments place) :
    (run config limits folder arguments).exitCode = 1 ∧
      (∃ gap, (run config limits folder arguments).crash = some (.unencodable gap)) ∧
      (run config limits folder arguments).folder = folder.put place (.file []) := by
  obtain ⟨output, source, input, hWrites, hOpens, hGives⟩ := h
  have hText : Utf8.unencodable? (input.edited config source) ≠ none := fun hNone =>
    (input.unencodable?_edited_eq_none_iff config hWrites.isSurrogate_eq_false).mp hNone hGives
  obtain ⟨gap, hGap⟩ := Option.ne_none_iff_exists'.mp hText
  obtain ⟨told, count, hRun⟩ := Writes.run_program (c := { folder }) hWrites config
  have hPut := Opens.run_putText_unencodable (c := Console.told { folder } told) hOpens hGap
  rw [deliver, run_bind_error hPut] at hRun
  rw [run, Run.outcome, hRun]
  exact ⟨rfl, ⟨gap, rfl⟩, rfl⟩

theorem Writes.run_eq (hWrites : Writes limits folder arguments output source input)
    (hOpens : Opens folder output place) (hGives : ¬ input.GivesSurrogate config source) :
    (run config limits folder arguments).exitCode = 0 ∧
      (run config limits folder arguments).folder
        = folder.put place (.file (Utf8.encode (input.edited config source))) := by
  have hText := (input.unencodable?_edited_eq_none_iff config hWrites.isSurrogate_eq_false).mpr
    hGives
  obtain ⟨told, count, hRun⟩ := Writes.run_program (c := { folder }) hWrites config
  have hPut := Opens.run_putText (c := Console.told { folder } told) hOpens hText
  rw [deliver, run_bind hPut, run_tell] at hRun
  rw [run, Run.outcome, hRun]
  exact ⟨rfl, rfl⟩

theorem Writes.folder_eq (hWrites : Writes limits folder arguments output source input)
    (hOpens : ∀ place, ¬ Opens folder output place) :
    (run config limits folder arguments).folder = folder := by
  obtain ⟨told, count, hRun⟩ := Writes.run_program (c := { folder }) hWrites config
  have hPut := (folder_putText_or output (input.edited config source)
    (Console.told { folder } told)).resolve_right fun ⟨place, h⟩ => hOpens place h
  show ((program config limits arguments).run.run { folder }).2.folder = folder
  rw [hRun, deliver, folder_bind fun _ => keeps_tell _]
  exact hPut

end

/-- **A run that fails leaves every file as it was**, whatever it was called with and wherever it
failed, unless it has emptied the output file for a value with a surrogate in it.  Such a run leaves
that file empty and the others as they were.  A run that comes to the point of writing and does not
fail leaves the whole text. -/
theorem folder_of_failing_run (config : Config) (limits : Json.Limits) (folder : Folder)
    (arguments : List Text) :
    let outcome := run config limits folder arguments
    (outcome.exitCode ≠ 0 → (∀ place, ¬ Cuts config limits folder arguments place) →
      outcome.folder = folder) ∧
    (∀ place, Cuts config limits folder arguments place → outcome.exitCode = 1 ∧
      (∃ gap, outcome.crash = some (.unencodable gap)) ∧
      outcome.folder = folder.put place (.file [])) ∧
    ∀ output source input place, Writes limits folder arguments output source input →
      Opens folder output place → ¬ input.GivesSurrogate config source →
      outcome.exitCode = 0 ∧
        outcome.folder = folder.put place (.file (Utf8.encode (input.edited config source))) := by
  intro outcome
  refine ⟨fun hFail hCuts => ?_, fun place hCuts => hCuts.run_eq,
    fun output source input place hWrites => hWrites.run_eq⟩
  -- A run that fails before its last step has touched no file; only that step is left to look at.
  rcases folder_program_or config limits arguments { folder } with
    hFolder | ⟨output, source, input, hWrites⟩
  · exact hFolder
  · by_cases hOpens : ∃ place, Opens folder output place
    · obtain ⟨place, hOpens⟩ := hOpens
      have hGives : ¬ input.GivesSurrogate config source := fun hGives =>
        hCuts place ⟨output, source, input, hWrites, hOpens, hGives⟩
      exact absurd (hWrites.run_eq hOpens hGives).1 hFail
    · exact hWrites.folder_eq fun place h => hOpens ⟨place, h⟩

/-- A stylesheet that is its own output, with a number for a value, which is refused before the
output is opened, and with a surrogate, which is noticed too late. -/
theorem folder_of_failing_run_inPlace :
    let source : Text := "x\x7b--a:1\x7d"
    let folder (value : Text) : Folder := [(["a.css"], .file (Utf8.encode source)),
      (["e.json"], .file (Utf8.encode ("\x7b\"a\":" ++ value ++ "\x7d")))]
    let number := folder "2"
    let surrogate := folder "\"\\ud800\""
    let arguments : List Text := ["set", "a.css", "--edits", "e.json", "-o", "a.css"]
    let limits : Json.Limits := .standard 900
    ((run {} limits number arguments).exitCode = 1 ∧
      (∀ place, ¬ Cuts {} limits number arguments place) ∧
      (run {} limits number arguments).folder = number) ∧
    Cuts {} limits surrogate arguments ["a.css"] ∧
      (run {} limits surrogate arguments).exitCode = 1 ∧
      (run {} limits surrogate arguments).folder = surrogate.put ["a.css"] (.file []) := by
  intro source folder number surrogate arguments limits
  refine ⟨?_, ?_⟩
  · have hExit : (run {} limits number arguments).exitCode = 1 := by decide +kernel
    have hCrash : (run {} limits number arguments).crash = none := by decide +kernel
    obtain ⟨hKeeps, hEmpties, -⟩ := folder_of_failing_run {} limits number arguments
    have hCuts : ∀ place, ¬ Cuts {} limits number arguments place := by
      intro place h
      obtain ⟨-, ⟨gap, hGap⟩, -⟩ := hEmpties place h
      rw [hCrash] at hGap
      cases hGap
    exact ⟨hExit, hCuts, hKeeps (by rw [hExit]; exact Nat.one_ne_zero) hCuts⟩
  · let a : Arguments :=
      { given := [⟨.edits, "e.json"⟩, ⟨.output, "a.css"⟩], operands := ["a.css"] }
    let document : List (Text × Text) := [("a", [.ofNat 0xD800])]
    have hCalls : Calls arguments false .set a "a.css" :=
      ⟨⟨{ operands := arguments }, arguments.tail, by decide +kernel, rfl, rfl, rfl,
        by decide +kernel⟩, rfl, rfl, by decide +kernel⟩
    have hFiles : a.FilesInOrder surrogate := by
      refine ⟨fun file hFile => ?_, fun file hFile => ?_⟩
      · cases hFile
        exact ⟨by decide +kernel, Or.inl (by decide +kernel)⟩
      · cases hFile
        exact ⟨by decide +kernel, Or.inl (by decide +kernel)⟩
    have hDocument : (a.document limits surrogate).toOption = some document := by decide +kernel
    have hSupplies : Supplies limits surrogate a "a.css" source document [] :=
      ⟨⟨_, rfl, by decide +kernel⟩, eq_ok_of_toOption hDocument, rfl, by simp [document]⟩
    have hGives : (a.editInput document []).GivesSurrogate {} source :=
      ⟨⟨"2-6", "--a", "1", 6, 7, "x"⟩, by decide +kernel, by decide, [.ofNat 0xD800],
        by decide +kernel, .ofNat 0xD800, List.mem_singleton_self _, rfl⟩
    have hCuts : Cuts {} limits surrogate arguments ["a.css"] :=
      ⟨"a.css", source, a.editInput document [],
        ⟨false, a, "a.css", document, [], hCalls, hFiles, hSupplies, rfl, rfl⟩,
        ⟨by decide +kernel, by decide +kernel⟩, hGives⟩
    obtain ⟨-, hEmpties, -⟩ := folder_of_failing_run {} limits surrogate arguments
    obtain ⟨hExit, -, hFolder⟩ := hEmpties ["a.css"] hCuts
    exact ⟨hCuts, hExit, hFolder⟩

/-- A surrogate in a value empties the stylesheet that was to be edited in its place. -/
theorem failing_run_empties_stylesheet :
    let source : Text := "x\x7b--a:1\x7d"
    let folder : Folder := [(["a.css"], .file (Utf8.encode source)),
      (["e.json"], .file (Utf8.encode "\x7b\"a\":\"\\ud800\"\x7d"))]
    let outcome :=
      run {} (.standard 900) folder ["set", "a.css", "--edits", "e.json", "-o", "a.css"]
    outcome.exitCode = 1 ∧ outcome.folder.get? ["a.css"] = some (.file []) ∧
      folder.get? ["a.css"] = some (.file (Utf8.encode source)) ∧ outcome.folder ≠ folder := by
  decide +kernel

end CommandLine

end CustomProperties
