import CustomProperties.Proofs.EditCommand

/-!
# Calling a command

Before a command does its work, the program takes its arguments apart twice, once for itself and
once for the command, answers questions for help and for the version, and checks the paths that it
was given.  Where nothing is asked and nothing is wrong, these steps leave no trace: the run is that
of the command alone.

* `keys_readArguments`: arguments are taken apart into options of the table only.
* `run_takeApart` and its neighbours: what each step does when nothing is wrong.
* `run_program`: **a call in order runs its command.**
-/

namespace CustomProperties.CommandLine

/-! ## Options of the table -/

/-- The options that one argument gives, with the one that waits for its value. -/
def OptionReading.keys (r : OptionReading) : List OptionKey :=
  r.given.map (·.key) ++ (r.pending.map Prod.fst).toList

theorem keys_readLetters {table : List OptionSpec} {letters : Text} {r : OptionReading}
    (h : readLetters table letters = .ok r) : r.keys ⊆ table.map (·.key) := by
  induction letters generalizing r with
  | nil =>
    cases h
    exact List.nil_subset _
  | cons c rest ih =>
    rw [readLetters] at h
    cases hSpec : table.find? (·.short = some c) with
    | none =>
      rw [hSpec] at h
      cases h
    | some spec =>
      have hKey : spec.key ∈ table.map (·.key) :=
        List.mem_map_of_mem (List.mem_of_find?_eq_some hSpec)
      simp only [hSpec] at h
      split at h
      · cases h
        split
        · exact List.cons_subset.mpr ⟨hKey, List.nil_subset _⟩
        · exact List.cons_subset.mpr ⟨hKey, List.nil_subset _⟩
      · cases hRest : readLetters table rest with
        | error fault =>
          rw [hRest] at h
          cases h
        | ok r' =>
          rw [hRest] at h
          cases h
          exact List.cons_subset.mpr ⟨hKey, ih hRest⟩

theorem keys_readOption {table : List OptionSpec} {argument : Text} {r : OptionReading}
    (h : readOption table argument = .ok r) : r.keys ⊆ table.map (·.key) := by
  simp only [readOption] at h
  split at h
  · rename_i spec hSpec
    have hKey : spec.key ∈ table.map (·.key) :=
      List.mem_map_of_mem (List.mem_of_find?_eq_some hSpec)
    split at h
    · cases h
      split
      · exact List.cons_subset.mpr ⟨hKey, List.nil_subset _⟩
      · exact List.cons_subset.mpr ⟨hKey, List.nil_subset _⟩
    · split at h
      · cases h
        exact List.cons_subset.mpr ⟨hKey, List.nil_subset _⟩
      · cases h
  · split at h
    · cases h
    · exact keys_readLetters h

/-- **Arguments are taken apart into options of the table only.** -/
theorem keys_readArguments {table : List OptionSpec} {optionsAnywhere : Bool}
    {arguments : List Text} {a : Arguments}
    (h : readArguments table optionsAnywhere arguments = .ok a) :
    a.given.map (·.key) ⊆ table.map (·.key) := by
  fun_induction readArguments table optionsAnywhere arguments generalizing a with
  | case1 =>
    cases h
    exact List.nil_subset _
  | case2 =>
    cases h
    exact List.nil_subset _
  | case3 => cases h
  | case4 argument rest _ _ given hOption ih =>
    obtain ⟨b, hRest, rfl⟩ := map_eq_ok_iff.mp h
    have hGiven := keys_readOption hOption
    rw [OptionReading.keys, Option.map_none, Option.toList_none, List.append_nil] at hGiven
    rw [Arguments.after, List.map_append]
    exact List.append_subset.mpr ⟨hGiven, ih hRest⟩
  | case5 => cases h
  | case6 argument _ _ given key name hOption value rest ih =>
    obtain ⟨b, hRest, rfl⟩ := map_eq_ok_iff.mp h
    have hGiven := keys_readOption hOption
    rw [OptionReading.keys, Option.map_some, Option.toList_some] at hGiven
    rw [Arguments.after, List.map_append, List.map_append]
    exact List.append_subset.mpr ⟨hGiven, ih hRest⟩
  | case7 argument rest _ _ _ ih =>
    obtain ⟨b, hRest, rfl⟩ := map_eq_ok_iff.mp h
    have hLater := ih hRest
    exact hLater
  | case8 =>
    cases h
    exact List.nil_subset _

/-! ## Steps in front of a command -/

theorem run_takeApart {table : List OptionSpec} {optionsAnywhere : Bool} {arguments : List Text}
    {a : Arguments} (h : readArguments table optionsAnywhere arguments = .ok a) (context : Context)
    (c : Console) :
    (takeApart context table optionsAnywhere arguments).run.run c = (.ok a, c) := by
  rw [takeApart, h]
  rfl

def Arguments.asks (a : Arguments) : Bool := a.has .help || a.has .version

theorem Arguments.asks_eq_false_iff {a : Arguments} : a.asks = false ↔
    a.given.find? (fun g => g.key = .help || g.key = .version) = none := by
  simp only [asks, has, Bool.or_eq_false_iff, List.any_eq_false, List.find?_eq_none,
    Bool.or_eq_true, not_or, forall_and]

theorem run_answerQuestions {a : Arguments} (h : a.asks = false) (context : Context) (c : Console) :
    (answerQuestions context a).run.run c = (.ok (), c) := by
  rw [answerQuestions, Arguments.asks_eq_false_iff.mp h]
  rfl

theorem kind_of_read {folder : Folder} {path : Text} {bytes : List UInt8}
    (h : folder.read path = .ok bytes) : folder.kind path = .file := by
  rw [Folder.read] at h
  cases hPlace : folder.locate path with
  | error fault =>
    rw [hPlace] at h
    cases h
  | ok place =>
    simp only [hPlace] at h
    rw [Folder.kind, hPlace]
    simp only [Folder.kindAt]
    split at h
    · rename_i hItem
      rw [hItem]
    all_goals cases h

theorem run_checkPath {path : Text} {c : Console} (hFlaw : FilePath.flaw? path = none)
    (hKind : c.folder.kind path = .file) (context : Context) (parameter : Text) (mayBeNew : Bool) :
    (checkPath context parameter path mayBeNew).run.run c = (.ok (), c) := by
  have hFile : (fileKind path).run.run c = (.ok .file, c) := by
    rw [fileKind, hFlaw, ← hKind]
    rfl
  rw [checkPath, run_bind hFile]
  rfl

theorem run_takeStylesheet {a : Arguments} {path : Text} {c : Console}
    (hOperands : a.operands = [path]) (hFlaw : FilePath.flaw? path = none)
    (hKind : c.folder.kind path = .file) (context : Context) :
    (takeStylesheet context a).run.run c = (.ok path, c) := by
  rw [takeStylesheet, hOperands]
  exact run_bind (run_checkPath hFlaw hKind context "'CSSFILE'" false) _

theorem run_forM_of_forall {α : Type} {f : α → Run Unit} {xs : List α} {c : Console}
    (h : ∀ x ∈ xs, (f x).run.run c = (.ok (), c)) : (xs.forM f).run.run c = (.ok (), c) := by
  induction xs with
  | nil => rfl
  | cons x xs ih =>
    obtain ⟨hx, hxs⟩ := List.forall_mem_cons.mp h
    show StateT.run (f x >>= fun _ => xs.forM f).run c = _
    rw [run_bind hx, ih hxs]

/-! ## Calls -/

def Command.work (settings : Settings) (a : Arguments) (path : Text) : Command → Run Unit
  | list => runList settings a path
  | set => runSet settings a path
  | diff => runDiff settings a path

/-- The arguments call a command with arguments `a` of its own, one of which is the path of a
stylesheet, and ask for nothing else. -/
structure Calls (arguments : List Text) (verbose : Bool) (command : Command) (a : Arguments)
    (path : Text) : Prop where
  program_eq : ∃ (p : Arguments) (rest : List Text),
    readArguments programOptions false arguments = .ok p ∧ p.asks = false ∧
      p.has .verbose = verbose ∧ p.operands = command.name :: rest ∧
      readArguments command.options true rest = .ok a
  asks_eq : a.asks = false
  operands_eq : a.operands = [path]
  flaw?_eq : FilePath.flaw? path = none

theorem Command.ofName?_name (command : Command) : ofName? command.name = some command := by
  cases command <;> rfl

theorem Command.eq_name_of_ofName? {name : Text} {command : Command}
    (h : ofName? name = some command) : name = command.name := by
  rw [ofName?] at h
  split_ifs at h with hList hSet hDiff <;> cases h
  · exact hList
  · exact hSet
  · exact hDiff

/-- **A call in order runs its command**, if the files that its options name are in order too. -/
theorem run_program {arguments : List Text} {verbose : Bool} {command : Command} {a : Arguments}
    {path : Text} (h : Calls arguments verbose command a path) {c : Console}
    (hKind : c.folder.kind path = .file)
    (hOptions : ∀ key ∈ a.keys, (checkOption (some command) a key).run.run c = (.ok (), c))
    (config : Config) (limits : Json.Limits) : (program config limits arguments).run.run c
      = (command.work { config, limits, verbose } a path).run.run c := by
  obtain ⟨p, rest, hProgram, hAsks, hVerbose, hOperands, hCommand⟩ := h.program_eq
  have hSome : ¬ arguments.isEmpty = true := by
    intro hNil
    rw [List.isEmpty_iff.mp hNil] at hProgram
    cases hProgram
    cases hOperands
  rw [program, if_neg hSome, run_bind (run_takeApart hProgram none c),
    run_bind (run_answerQuestions hAsks none c)]
  simp only [hOperands, Command.ofName?_name, hVerbose]
  rw [runCommand, run_bind (run_takeApart hCommand (some command) c),
    run_bind (run_answerQuestions h.asks_eq (some command) c),
    run_bind (run_forM_of_forall hOptions),
    run_bind (run_takeStylesheet h.operands_eq h.flaw?_eq hKind (some command))]
  cases command with
  | list => rfl
  | set => rfl
  | diff => rfl

end CustomProperties.CommandLine
