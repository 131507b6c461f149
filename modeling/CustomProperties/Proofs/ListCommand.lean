import CustomProperties.Proofs.Ansi
import CustomProperties.Proofs.Invocation
import CustomProperties.Proofs.Selector
import CustomProperties.Proofs.Utf8

/-!
# What `list` prints

`list` prints an entry for each declaration and a line feed behind it.  An entry is made of visible
characters but for the selector and the trimmed value, and these come from the source as they are.
So an entry is one line exactly if neither holds a line feed, and it is printed as it is if neither
holds an escape character; control sequences are left out otherwise, but never one that reaches over
the end of a line or into the place at the start.  No two places are the same, so the entries can be
told apart.

* `mem_listEntry_iff`: what an entry holds besides visible characters.
* `run_list`: the outcome of a call of `list`.
* `list_lines`: **the lines that `list` prints.**
-/

namespace CustomProperties

/-! ## Visible characters -/

/-- A character from the space to the tilde. -/
def CodePoint.isVisible (c : CodePoint) : Bool := 0x20 ≤ c.val && c.val ≤ 0x7E

theorem CodePoint.isVisible_of_isDigit {c : CodePoint} (h : c.isDigit = true) :
    c.isVisible = true := by
  simp only [isDigit, isVisible, Bool.and_eq_true, decide_eq_true_eq] at h ⊢
  omega

theorem CodePoint.isVisible_of_isNameChar {c : CodePoint} (h : c.isNameChar = true) :
    c.isVisible = true := by
  simp only [isNameChar, Bool.or_eq_true, decide_eq_true_eq] at h
  rcases h with ((hLetter | hDigit) | rfl) | rfl
  · simp only [isLetter, isVisible, Bool.and_eq_true, Bool.or_eq_true, decide_eq_true_eq]
      at hLetter ⊢
    omega
  · exact isVisible_of_isDigit hDigit
  · decide
  · decide

theorem CodePoint.isVisible_of_isSurrogate {c : CodePoint} (h : c.isSurrogate = true) :
    c.isVisible = false := by
  simp only [isSurrogate, isVisible, Bool.and_eq_true, Bool.and_eq_false_iff, decide_eq_true_eq,
    decide_eq_false_iff_not] at h ⊢
  omega

theorem Text.isVisible_ofInt (i : Int) : ∀ c ∈ ofInt i, c.isVisible = true := by
  have hNat : ∀ n : Nat, ∀ c ∈ ofNat n, c.isVisible = true :=
    fun n c hc => CodePoint.isVisible_of_isDigit (isDigit_of_mem_ofNat hc)
  cases i with
  | ofNat n => exact hNat n
  | negSucc n => exact List.forall_mem_cons.mpr ⟨by decide, hNat (n + 1)⟩

/-! ## Lines -/

def Text.unlines (texts : List Text) : Text := texts.flatMap (· ++ [('\n' : CodePoint)])

theorem Text.lines_unlines (texts : List Text) :
    (unlines texts).lines = texts.flatMap lines ++ [[]] := by
  induction texts with
  | nil => rfl
  | cons t texts ih =>
    rw [unlines, List.flatMap_cons, List.append_assoc, List.singleton_append, lines_append_newline,
      ← unlines, ih, List.flatMap_cons, List.append_assoc]

theorem Text.count_newline_unlines (texts : List Text) :
    (unlines texts).count ('\n' : CodePoint)
      = texts.flatten.count ('\n' : CodePoint) + texts.length := by
  induction texts with
  | nil => rfl
  | cons t texts ih =>
    rw [unlines, List.flatMap_cons, ← unlines, List.count_append, List.count_append, ih,
      List.flatten_cons, List.count_append, List.length_cons, List.count_singleton_self]
    omega

/-! ## Declarations by their place -/

namespace Scan

variable {config : Config} {source : Text} {d e : Declaration}

/-- **The place of its value tells a declaration from all others.** -/
theorem eq_of_place_eq (hd : d ∈ scan config source) (he : e ∈ scan config source)
    (file : Option Text) (h : (d.location source file).place = (e.location source file).place) :
    d = e := by
  have hSpans := spansApart_scan config source
  have hStart : d.start = e.start := by
    obtain ⟨hLow, hOrder, hHigh⟩ := hSpans.within d hd
    obtain ⟨hLow', hOrder', hHigh'⟩ := hSpans.within e he
    rcases lt_trichotomy d.start e.start with hLess | hEq | hLess
    · exact absurd h (Location.place_lt_place hLow hLess (by omega) d.stop e.stop file).ne
    · exact hEq
    · exact absurd h (Location.place_lt_place hLow' hLess (by omega) e.stop d.stop file).ne'
  exact List.inj_on_of_nodup_map (List.pairwise_map.mpr hSpans.distinct) hd he hStart

end Scan

namespace CommandLine

/-! ## Entries -/

def listEntry (source : Text) (d : Declaration) : Text :=
  (d.location source none).shown ++ "  " ++ (d.selector ++ "  " ++ d.name ++ ": " ++ d.value.trim)

theorem listLine_eq (source : Text) (d : Declaration) :
    listLine source d = listEntry source d ++ [('\n' : CodePoint)] := by
  simp only [listLine, listEntry, Location.shown, Declaration.location, Location.ofSpan,
    List.append_assoc]
  rfl

section

variable {config : Config} {source : Text} {d e : Declaration}

theorem isVisible_place (source : Text) (d : Declaration) :
    ∀ c ∈ (d.location source none).shown ++ "  ", c.isVisible = true := by
  intro c hc
  simp only [Location.shown, Declaration.location, Location.ofSpan, List.mem_append] at hc
  rcases hc with ((hc | hc) | hc) | hc
  · exact Text.isVisible_ofInt _ c hc
  · exact List.all_eq_true.mp (by decide : List.all (":" : Text) CodePoint.isVisible = true) c hc
  · exact Text.isVisible_ofInt _ c hc
  · exact List.all_eq_true.mp (by decide : List.all ("  " : Text) CodePoint.isVisible = true) c hc

/-- **What an entry holds besides visible characters** stands in the selector or in the value. -/
theorem mem_listEntry_iff (hd : d ∈ Scan.scan config source) {c : CodePoint}
    (hc : c.isVisible = false) :
    c ∈ listEntry source d ↔ c ∈ d.selector ∨ c ∈ d.value.trim := by
  have hVisible : ∀ t : Text, t.all CodePoint.isVisible = true → c ∉ t := by
    intro t ht hMem
    rw [List.all_eq_true.mp ht c hMem] at hc
    cases hc
  have hPlace := hVisible _ (List.all_eq_true.mpr (isVisible_place source d))
  have hName : c ∉ d.name := hVisible _ (List.all_eq_true.mpr fun x hx =>
    CodePoint.isVisible_of_isNameChar
      (PropertyName.isNameChar_of_isValid (Scan.isValid_name_of_mem_scan hd) x hx))
  have hGap : c ∉ Text.ofString "  " := hVisible _ (by decide)
  have hColon : c ∉ Text.ofString ": " := hVisible _ (by decide)
  rw [listEntry, List.mem_append, or_iff_right hPlace]
  simp only [List.mem_append, hName, hGap, hColon, or_false]

theorem escape_not_mem_place (source : Text) (d : Declaration) :
    Text.escape ∉ (d.location source none).shown ++ "  " := by
  intro h
  exact absurd (isVisible_place source d _ h) (by decide)

theorem plain_listEntry (source : Text) (d : Declaration) : (listEntry source d).plain
    = (d.location source none).shown ++ "  "
      ++ Text.plain (d.selector ++ "  " ++ d.name ++ ": " ++ d.value.trim) :=
  Text.plain_append (escape_not_mem_place source d) _

/-- **Entries can be told apart**, control sequences or not. -/
theorem eq_of_plain_listEntry_eq (hd : d ∈ Scan.scan config source)
    (he : e ∈ Scan.scan config source)
    (h : (listEntry source d).plain = (listEntry source e).plain) : d = e := by
  rw [plain_listEntry, plain_listEntry] at h
  simp only [Location.shown, Declaration.location, Location.ofSpan, List.append_assoc] at h
  obtain ⟨hLine, h⟩ := Text.ofInt_append_cons_inj (x := ':') (by decide) h
  obtain ⟨hColumn, -⟩ := Text.ofInt_append_cons_inj (x := ' ') (by decide) h
  refine Scan.eq_of_place_eq hd he none ?_
  simp only [Location.place, Declaration.location, Location.ofSpan, hLine, hColumn]

theorem unencodable?_listLine (hd : d ∈ Scan.scan config source)
    (hSource : ∀ c ∈ source, c.isSurrogate = false)
    (hFallback : ∀ c ∈ config.fallbackSelector, c.isSurrogate = false) :
    Utf8.unencodable? (listLine source d).plain = none := by
  refine Utf8.surrogates?_eq_none_iff.mpr fun c hc => ?_
  rw [← Bool.not_eq_true]
  intro hSurrogate
  have hMem := Text.mem_of_mem_plain hc
  rw [listLine_eq, List.mem_append, List.mem_singleton] at hMem
  rcases hMem with hMem | rfl
  · rcases (mem_listEntry_iff hd (CodePoint.isVisible_of_isSurrogate hSurrogate)).mp hMem
      with hSelector | hValue
    · rcases Scan.mem_source_of_mem_selector hd with hEq | hFrom
      · rw [hFallback c (hEq ▸ hSelector)] at hSurrogate
        cases hSurrogate
      · rw [hSource c (hFrom c hSelector)] at hSurrogate
        cases hSurrogate
    · rw [hSource c (Scan.mem_source_of_mem_value hd c (Text.mem_of_mem_trim hValue))] at hSurrogate
      cases hSurrogate
  · cases hSurrogate

end

/-! ## The command -/

def Arguments.listed (a : Arguments) (config : Config) (source path : Text) : List Declaration :=
  (Session.start config source (some path)).matching ((a.value? .filter).getD [])

section

variable {folder : Folder} {arguments : List Text} {verbose : Bool} {a : Arguments}
  {path source : Text} {config : Config} {limits : Json.Limits}

theorem mem_scan_of_mem_listed {d : Declaration} (hd : d ∈ a.listed config source path) :
    d ∈ Scan.scan config source :=
  List.mem_of_mem_filter hd

theorem checkOption_list (h : Calls arguments verbose .list a path) :
    ∀ key ∈ a.keys, checkOption (some .list) a key = pure () := by
  obtain ⟨p, rest, -, -, -, -, hRead⟩ := h.program_eq
  intro key hKey
  rw [Arguments.keys, List.mem_eraseDups] at hKey
  have hTable := keys_readArguments hRead hKey
  have hKeys : Command.list.options.map (·.key) = [.filter, .json, .help] := rfl
  rw [hKeys] at hTable
  simp only [List.mem_cons, List.not_mem_nil, or_false] at hTable
  rcases hTable with rfl | rfl | rfl
  · rfl
  · rfl
  · rfl

theorem run_list (h : Calls arguments verbose .list a path) (hJson : a.has .json = false)
    (hSource : Stores folder path source)
    (hFallback : Utf8.unencodable? config.fallbackSelector = none)
    (hSome : a.listed config source path ≠ []) :
    run config limits folder arguments =
      { exitCode := 0
        stdout := Text.unlines
          ((a.listed config source path).map fun d => (listEntry source d).plain)
        stderr := shownLog verbose ((Scan.trace config source).log (some path))
        folder
        crash := none } := by
  obtain ⟨bytes, hRead, hDecode⟩ := hSource
  have hPrintable : ∀ t ∈ (a.listed config source path).map (listLine source),
      Utf8.unencodable? t.plain = none := by
    intro t ht
    obtain ⟨d, hd, rfl⟩ := List.mem_map.mp ht
    exact unencodable?_listLine (mem_scan_of_mem_listed hd)
      (Utf8.isSurrogate_eq_false_of_decode hDecode) (Utf8.surrogates?_eq_none_iff.mp hFallback)
  have hText : ((a.listed config source path).map (listLine source)).flatMap Text.plain
      = Text.unlines ((a.listed config source path).map fun d => (listEntry source d).plain) := by
    rw [Text.unlines, List.flatMap_map, List.flatMap_map]
    refine List.flatMap_congr fun d _ => ?_
    rw [listLine_eq]
    exact Text.plain_append_newline (listEntry source d) []
  have hRun : (program config limits arguments).run.run { folder } = (.ok (),
      { folder
        stdout := Text.unlines
          ((a.listed config source path).map fun d => (listEntry source d).plain)
        stderr := shownLog verbose ((Scan.trace config source).log (some path)) }) := by
    have hOptions : ∀ key ∈ a.keys, (checkOption (some .list) a key).run.run { folder }
        = (.ok (), { folder }) := by
      intro key hKey
      rw [checkOption_list h key hKey]
      rfl
    rw [run_program h (kind_of_read hRead) hOptions, Command.work, runList,
      run_bind (run_openSession ⟨bytes, hRead, hDecode⟩ { config, limits, verbose })]
    show StateT.run (ExceptT.run (if a.has .json = true then _
      else if (a.listed config source path).isEmpty = true then _
      else sayAll ((a.listed config source path).map (listLine source)))) _ = _
    rw [hJson, if_neg Bool.false_ne_true, if_neg (by rwa [List.isEmpty_iff]), run_sayAll hPrintable,
      hText]
    rfl
  rw [run, Run.outcome, hRun]

/-- An entry is one line if neither the selector nor the value goes over the end of a line. -/
theorem newline_mem_listEntry_iff {d : Declaration} (hd : d ∈ a.listed config source path) :
    ('\n' : CodePoint) ∈ (listEntry source d).plain
      ↔ ('\n' : CodePoint) ∈ d.selector ∨ ('\n' : CodePoint) ∈ d.value.trim := by
  have hEntry := mem_listEntry_iff (mem_scan_of_mem_listed hd)
    (by decide : CodePoint.isVisible '\n' = false)
  rw [← hEntry, ← List.count_pos_iff, Text.count_newline_plain, List.count_pos_iff]

/-- **The lines that `list` prints.**  Each declaration has its entry, with a line feed behind it
and without its control sequences, so the lines are those of the entries.  They are as many as the
declarations exactly if no selector and no trimmed value goes over the end of a line, and then each
entry is a line; it is printed as it is if it holds no escape character.  The entries of any two
declarations differ. -/
theorem list_lines (h : Calls arguments verbose .list a path) (hJson : a.has .json = false)
    (hSource : Stores folder path source)
    (hFallback : Utf8.unencodable? config.fallbackSelector = none)
    (hSome : a.listed config source path ≠ []) :
    let ds := a.listed config source path
    let shown := fun d => (listEntry source d).plain
    let outcome := run config limits folder arguments
    outcome =
      { exitCode := 0
        stdout := Text.unlines (ds.map shown)
        stderr := shownLog verbose ((Scan.trace config source).log (some path))
        folder
        crash := none } ∧
    outcome.stdout.lines = ds.flatMap (fun d => (listEntry source d).lines.map Text.plain) ++ [[]] ∧
    (outcome.stdout.count ('\n' : CodePoint) = ds.length ↔
      ∀ d ∈ ds, ('\n' : CodePoint) ∉ d.selector ∧ ('\n' : CodePoint) ∉ d.value.trim) ∧
    ((∀ d ∈ ds, ('\n' : CodePoint) ∉ d.selector ∧ ('\n' : CodePoint) ∉ d.value.trim) →
      outcome.stdout.lines = ds.map shown ++ [[]]) ∧
    (∀ d ∈ ds, Text.escape ∉ d.selector → Text.escape ∉ d.value.trim →
      shown d = listEntry source d) ∧
    ∀ d ∈ ds, ∀ e ∈ ds, shown d = shown e → d = e := by
  intro ds shown outcome
  have hOutcome : outcome = _ := run_list h hJson hSource hFallback hSome
  have hStdout : outcome.stdout = Text.unlines (ds.map shown) := congrArg Outcome.stdout hOutcome
  have hLines : outcome.stdout.lines = ds.flatMap (fun d => (shown d).lines) ++ [[]] := by
    rw [hStdout, Text.lines_unlines, List.flatMap_map]
  have hOne : ∀ d ∈ ds, ('\n' : CodePoint) ∉ shown d
      ↔ ('\n' : CodePoint) ∉ d.selector ∧ ('\n' : CodePoint) ∉ d.value.trim := by
    intro d hd
    rw [newline_mem_listEntry_iff hd, not_or]
  refine ⟨hOutcome, ?_, ?_, ?_, ?_, ?_⟩
  · rw [hLines]
    simp only [shown, Text.lines_plain]
  · rw [hStdout, Text.count_newline_unlines, List.length_map, Nat.add_eq_right,
      List.count_eq_zero]
    simp only [List.mem_flatten, List.mem_map, exists_exists_and_eq_and, not_exists, not_and]
    exact forall₂_congr hOne
  · intro hLine
    rw [hLines, List.map_eq_flatMap]
    exact congrArg (· ++ [[]])
      (List.flatMap_congr fun d hd => Text.lines_of_not_mem ((hOne d hd).mpr (hLine d hd)))
  · intro d hd hSelector hValue
    refine Text.plain_of_not_mem fun hMem => ?_
    rcases (mem_listEntry_iff (mem_scan_of_mem_listed hd) (by decide)).mp hMem with hMem | hMem
    · exact hSelector hMem
    · exact hValue hMem
  · intro d hd e he hShown
    exact eq_of_plain_listEntry_eq (mem_scan_of_mem_listed hd) (mem_scan_of_mem_listed he) hShown

/-- Two of three declarations are listed, under a selector with a control sequence in it. -/
theorem list_lines_filtered :
    let source : Text := "a\x7b--x:1\x7d\n\x1b[1mb\x7b--y: 2 ;--x:3\x7d"
    let folder : Folder := [(["a.css"], .file (Utf8.encode source))]
    let arguments : List Text := ["-v", "list", "a.css", "--filter=B"]
    let a : Arguments := { given := [⟨.filter, "B"⟩], operands := ["a.css"] }
    Calls arguments true .list a "a.css" ∧ Stores folder "a.css" source ∧
      (a.listed {} source "a.css").length = 2 ∧
      (run {} (.standard 900) folder arguments).stdout.lines
        = [("2:11  b  --y: 2" : Text), "2:19  b  --x: 3", ""] := by
  intro source folder arguments a
  have hCalls : Calls arguments true .list a "a.css" :=
    ⟨⟨{ given := [⟨.verbose, []⟩], operands := ["list", "a.css", "--filter=B"] },
      ["a.css", "--filter=B"], by decide +kernel, by decide, by decide, rfl, by decide +kernel⟩,
      by decide, rfl, by decide +kernel⟩
  have hStores : Stores folder "a.css" source := ⟨_, rfl, by decide +kernel⟩
  have hTwo : (a.listed {} source "a.css").length = 2 := by decide +kernel
  have hSome : a.listed {} source "a.css" ≠ [] := List.ne_nil_of_length_pos (by omega)
  obtain ⟨-, -, -, hLines, -⟩ := list_lines hCalls (by decide) hStores (by decide) hSome
  exact ⟨hCalls, hStores, hTwo, (hLines (by decide +kernel)).trans (by decide +kernel)⟩

/-- A selector of two lines makes two lines of one declaration. -/
theorem list_splits_selector :
    let source : Text := "a,\nb\x7b--x:1\x7d"
    let folder : Folder := [(["a.css"], .file (Utf8.encode source))]
    (Scan.scan {} source).length = 1 ∧
      (run {} (.standard 900) folder ["list", "a.css"]).stdout.lines
        = [("2:7  a," : Text), "b  --x: 1", ""] := by
  decide +kernel

end

end CommandLine

end CustomProperties
