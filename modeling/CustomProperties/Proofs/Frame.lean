import CustomProperties.Proofs.Invocation

/-!
# What the steps of a run leave alone

Every step of a run but one leaves the files alone, however it ends (`Keeps`): it reads, prints,
warns or stops.  The exception is the step that fills a file, at the end of `set`.  So whatever
happens to a file happens after all other steps have ended well, and what a step that ended well
says about the arguments and the files holds there: an option in order, a path that leads to a
file, a document and a stylesheet that can be read.

* `Keeps.bind`: steps that leave the files alone do so one after the other.
* `exists_of_run_bind`: what ends well has a first step that ends well.
* `folder_bind_or`: a run leaves the files alone, or else its first step has ended well.
* `of_run_takeApart` and its neighbours: what it says that a step has ended well.
* `of_run_editSession`: **a session is made only if all that the arguments name can be read.**
-/

namespace CustomProperties.CommandLine

/-! ## Steps that leave the files alone -/

/-- A run that leaves the files alone, however it ends. -/
def Keeps {α : Type} (x : Run α) : Prop := ∀ c : Console, (x.run.run c).2.folder = c.folder

theorem run_bind_error {α β : Type} {x : Run α} {c c' : Console} {stop : Stop}
    (h : x.run.run c = (.error stop, c')) (f : α → Run β) :
    (x >>= f).run.run c = (.error stop, c') := by
  rw [ExceptT.run_bind, StateT.run_bind, h]
  rfl

theorem Keeps.pure {α : Type} (a : α) : Keeps (Pure.pure a) := fun _ => rfl

theorem Keeps.throw {α : Type} (stop : Stop) : Keeps (MonadExcept.throw stop : Run α) :=
  fun _ => rfl

/-- Steps that leave the files alone leave them as the step before them did. -/
theorem folder_bind {α β : Type} {f : α → Run β} (hf : ∀ a, Keeps (f a)) (x : Run α)
    (c : Console) : ((x >>= f).run.run c).2.folder = (x.run.run c).2.folder := by
  rcases hRun : x.run.run c with ⟨stop | a, c'⟩
  · rw [run_bind_error hRun]
  · rw [run_bind hRun, hf a c']

theorem Keeps.bind {α β : Type} {x : Run α} {f : α → Run β} (hx : Keeps x)
    (hf : ∀ a, Keeps (f a)) : Keeps (x >>= f) :=
  fun c => (folder_bind hf x c).trans (hx c)

theorem Keeps.forM {α : Type} {f : α → Run Unit} (hf : ∀ a, Keeps (f a)) (xs : List α) :
    Keeps (xs.forM f) := by
  induction xs with
  | nil => exact .pure ()
  | cons x xs ih => exact (hf x).bind fun _ => ih

theorem keeps_say (t : Text) : Keeps (say t) := by
  rw [say]
  split
  · exact fun _ => rfl
  · exact .throw _

theorem keeps_tell (t : Text) : Keeps (tell t) := fun _ => rfl

theorem keeps_report (verbose : Bool) (records : List Log.Record) :
    Keeps (report verbose records) := by
  rw [report]
  split
  · exact fun _ => rfl
  · exact .pure ()

theorem keeps_fail {α : Type} (code : Nat) (message : Text) : Keeps (fail code message : Run α) :=
  (keeps_tell _).bind fun _ => .throw _

theorem keeps_failUsage {α : Type} (context : Context) (message : Text) :
    Keeps (failUsage context message : Run α) :=
  (keeps_tell _).bind fun _ => keeps_fail _ _

theorem keeps_readFile (path : Text) : Keeps (readFile path) := fun _ => rfl

theorem keeps_fileKind (path : Text) : Keeps (fileKind path) := by
  rw [fileKind]
  split
  · exact .throw _
  · exact fun _ => rfl

theorem keeps_takeApart (context : Context) (table : List OptionSpec) (optionsAnywhere : Bool)
    (arguments : List Text) : Keeps (takeApart context table optionsAnywhere arguments) := by
  rw [takeApart]
  split
  · exact .pure _
  · exact keeps_failUsage _ _
  · exact keeps_fail _ _
  · exact keeps_fail _ _

theorem keeps_answerQuestions (context : Context) (a : Arguments) :
    Keeps (answerQuestions context a) := by
  rw [answerQuestions]
  split
  · exact .pure ()
  · exact (keeps_say _).bind fun _ => .throw _

theorem keeps_checkPath (context : Context) (parameter path : Text) (mayBeNew : Bool) :
    Keeps (checkPath context parameter path mayBeNew) := by
  refine (keeps_fileKind path).bind fun kind => ?_
  cases kind with
  | file => exact .pure ()
  | directory => exact keeps_failUsage _ _
  | absent =>
    dsimp only
    split
    · exact .pure ()
    · exact keeps_failUsage _ _

theorem keeps_checkOption (context : Context) (a : Arguments) (key : OptionKey) :
    Keeps (checkOption context a key) := by
  unfold checkOption
  split
  · exact keeps_checkPath _ _ _ _
  · exact keeps_checkPath _ _ _ _
  · exact .pure ()

theorem keeps_takeStylesheet (context : Context) (a : Arguments) :
    Keeps (takeStylesheet context a) := by
  rw [takeStylesheet]
  split
  · exact keeps_failUsage _ _
  · refine (keeps_checkPath _ _ _ _).bind fun _ => ?_
    split
    · exact .pure _
    · exact keeps_failUsage _ _

theorem keeps_openSession (settings : Settings) (path : Text) :
    Keeps (openSession settings path) := by
  have hRead : Keeps (readStylesheet path) := by
    refine (keeps_readFile path).bind fun bytes => ?_
    cases bytes with
    | error reason => exact keeps_fail _ _
    | ok bytes =>
      dsimp only
      split
      · exact .pure _
      · exact keeps_fail _ _
  exact hRead.bind fun _ => (keeps_report _ _).bind fun _ => .pure _

theorem keeps_editSession (context : Context) (settings : Settings) (a : Arguments) (path : Text) :
    Keeps (editSession context settings a path) := by
  have hEdits : Keeps (readEdits settings.limits (a.value? .edits)) := by
    cases a.value? .edits with
    | none => exact .pure _
    | some file =>
      refine (keeps_readFile file).bind fun bytes => ?_
      split
      · exact .pure _
      · exact keeps_fail _ _
      · exact .throw _
  refine hEdits.bind fun document => ?_
  split
  · exact keeps_failUsage _ _
  · dsimp only
    split
    · exact keeps_failUsage _ _
    · exact (keeps_openSession settings path).bind fun _ =>
        (Keeps.forM (fun _ => keeps_tell _) _).bind fun _ => .pure _

theorem keeps_runList (settings : Settings) (a : Arguments) (path : Text) :
    Keeps (runList settings a path) := by
  refine (keeps_openSession settings path).bind fun session => ?_
  dsimp only
  split
  · exact keeps_say _
  · split
    · exact keeps_say _
    · exact Keeps.forM keeps_say _

theorem keeps_runDiff (settings : Settings) (a : Arguments) (path : Text) :
    Keeps (runDiff settings a path) := by
  refine (keeps_editSession _ settings a path).bind fun session => ?_
  split
  · exact keeps_say _
  · exact (Keeps.forM keeps_say _).bind fun _ => (keeps_say _).bind fun _ => keeps_say _

theorem keeps_rejectCommand (name : Text) (operands : List Text) :
    Keeps (rejectCommand name operands) :=
  (keeps_takeApart _ _ _ _).bind fun _ => (keeps_answerQuestions _ _).bind fun _ =>
    keeps_failUsage _ _

/-! ## Steps that end well -/

theorem exists_of_run_bind {α β : Type} {x : Run α} {f : α → Run β} {c c' : Console} {b : β}
    (h : (x >>= f).run.run c = (.ok b, c')) :
    ∃ a c₁, x.run.run c = (.ok a, c₁) ∧ (f a).run.run c₁ = (.ok b, c') := by
  rcases hRun : x.run.run c with ⟨stop | a, c₁⟩
  · rw [run_bind_error hRun] at h
    cases h
  · rw [run_bind hRun] at h
    exact ⟨a, c₁, rfl, h⟩

theorem folder_bind_or {α β : Type} {x : Run α} {f : α → Run β} {c : Console} {p : Prop}
    (hx : Keeps x) (h : ∀ a c', x.run.run c = (.ok a, c') →
      ((f a).run.run c').2.folder = c'.folder ∨ p) :
    ((x >>= f).run.run c).2.folder = c.folder ∨ p := by
  have hFolder := hx c
  rcases hRun : x.run.run c with ⟨stop | a, c'⟩
  · rw [hRun] at hFolder
    rw [run_bind_error hRun]
    exact Or.inl hFolder
  · rw [hRun] at hFolder
    rw [run_bind hRun, ← hFolder]
    exact h a c' hRun

theorem run_fail_ne_ok {α : Type} {code : Nat} {message : Text} {c c' : Console} {a : α} :
    (fail code message : Run α).run.run c ≠ (.ok a, c') := by
  intro h
  cases h

theorem run_failUsage_ne_ok {α : Type} {context : Context} {message : Text} {c c' : Console}
    {a : α} : (failUsage context message : Run α).run.run c ≠ (.ok a, c') := by
  intro h
  cases h

section

variable {context : Context} {a : Arguments} {c c' : Console}

theorem of_run_takeApart {table : List OptionSpec} {optionsAnywhere : Bool}
    {arguments : List Text}
    (h : (takeApart context table optionsAnywhere arguments).run.run c = (.ok a, c')) :
    readArguments table optionsAnywhere arguments = .ok a ∧ c' = c := by
  rw [takeApart] at h
  split at h
  · rename_i hRead
    cases h
    exact ⟨hRead, rfl⟩
  · exact absurd h run_failUsage_ne_ok
  · exact absurd h run_fail_ne_ok
  · exact absurd h run_fail_ne_ok

theorem of_run_answerQuestions (h : (answerQuestions context a).run.run c = (.ok (), c')) :
    a.asks = false ∧ c' = c := by
  rw [answerQuestions] at h
  split at h
  · rename_i hNone
    cases h
    exact ⟨Arguments.asks_eq_false_iff.mpr hNone, rfl⟩
  · obtain ⟨_, _, -, hExit⟩ := exists_of_run_bind h
    cases hExit

/-- A path is in order for a parameter: the system can be asked for it, and it leads to a file, or
to nothing if that is enough. -/
structure PathInOrder (folder : Folder) (path : Text) (mayBeNew : Bool) : Prop where
  flaw?_eq : FilePath.flaw? path = none
  kind_eq : folder.kind path = .file ∨ mayBeNew = true ∧ folder.kind path = .absent

theorem of_run_fileKind {path : Text} {kind : Folder.Kind}
    (h : (fileKind path).run.run c = (.ok kind, c')) :
    FilePath.flaw? path = none ∧ kind = c.folder.kind path ∧ c' = c := by
  rw [fileKind] at h
  split at h
  · cases h
  · rename_i hFlaw
    cases h
    exact ⟨hFlaw, rfl, rfl⟩

theorem of_run_checkPath {parameter path : Text} {mayBeNew : Bool}
    (h : (checkPath context parameter path mayBeNew).run.run c = (.ok (), c')) :
    PathInOrder c.folder path mayBeNew ∧ c' = c := by
  obtain ⟨kind, c₁, hFile, hCheck⟩ := exists_of_run_bind h
  obtain ⟨hFlaw, hKind, rfl⟩ := of_run_fileKind hFile
  cases kind with
  | file =>
    cases hCheck
    exact ⟨⟨hFlaw, Or.inl hKind.symm⟩, rfl⟩
  | directory => exact absurd hCheck run_failUsage_ne_ok
  | absent =>
    cases mayBeNew with
    | true =>
      cases hCheck
      exact ⟨⟨hFlaw, Or.inr ⟨rfl, hKind.symm⟩⟩, rfl⟩
    | false => exact absurd hCheck run_failUsage_ne_ok

theorem PathInOrder.run_checkPath {path : Text} {mayBeNew : Bool}
    (h : PathInOrder c.folder path mayBeNew) (context : Context) (parameter : Text) :
    (checkPath context parameter path mayBeNew).run.run c = (.ok (), c) := by
  rcases h.kind_eq with hKind | ⟨rfl, hKind⟩
  · exact CommandLine.run_checkPath h.flaw?_eq hKind context parameter mayBeNew
  · have hAbsent : (fileKind path).run.run c = (.ok .absent, c) := by
      rw [fileKind, h.flaw?_eq, ← hKind]
      rfl
    rw [checkPath, run_bind hAbsent]
    rfl

structure Arguments.FilesInOrder (folder : Folder) (a : Arguments) : Prop where
  edits : ∀ file, a.value? .edits = some file → PathInOrder folder file false
  output : ∀ file, a.value? .output = some file → PathInOrder folder file true

theorem Arguments.mem_keys_of_value? {key : OptionKey} {value : Text}
    (h : a.value? key = some value) : key ∈ a.keys := by
  obtain ⟨g, hg, hValue⟩ := List.mem_filterMap.mp (List.mem_of_getLast? h)
  rw [Arguments.keys, List.mem_eraseDups]
  refine List.mem_map.mpr ⟨g, hg, ?_⟩
  by_contra hne
  rw [if_neg hne] at hValue
  cases hValue

/-- Steps that leave no trace where they end well, one after the other. -/
theorem of_run_forM {α : Type} {f : α → Run Unit}
    (hf : ∀ x c₁ c₂, (f x).run.run c₁ = (.ok (), c₂) → c₂ = c₁) {xs : List α}
    (h : (xs.forM f).run.run c = (.ok (), c')) :
    (∀ x ∈ xs, (f x).run.run c = (.ok (), c)) ∧ c' = c := by
  induction xs with
  | nil =>
    cases h
    exact ⟨fun x hx => absurd hx List.not_mem_nil, rfl⟩
  | cons x xs ih =>
    obtain ⟨_, c₁, hFirst, hRest⟩ := exists_of_run_bind h
    obtain rfl := hf x c c₁ hFirst
    obtain ⟨hLater, rfl⟩ := ih hRest
    exact ⟨List.forall_mem_cons.mpr ⟨hFirst, hLater⟩, rfl⟩

theorem of_run_checkOptions (h : (a.keys.forM (checkOption context a)).run.run c = (.ok (), c')) :
    a.FilesInOrder c.folder ∧ c' = c := by
  have hTrace : ∀ key c₁ c₂, (checkOption context a key).run.run c₁ = (.ok (), c₂) → c₂ = c₁ := by
    intro key c₁ c₂ hRun
    unfold checkOption at hRun
    split at hRun
    · exact (of_run_checkPath hRun).2
    · exact (of_run_checkPath hRun).2
    · cases hRun
      rfl
  obtain ⟨hKeys, rfl⟩ := of_run_forM hTrace h
  refine ⟨⟨fun file hFile => ?_, fun file hFile => ?_⟩, rfl⟩
  · have hRun := hKeys .edits (Arguments.mem_keys_of_value? hFile)
    simp only [checkOption, hFile] at hRun
    exact (of_run_checkPath hRun).1
  · have hRun := hKeys .output (Arguments.mem_keys_of_value? hFile)
    simp only [checkOption, hFile] at hRun
    exact (of_run_checkPath hRun).1

theorem Arguments.FilesInOrder.run_checkOption (h : a.FilesInOrder c.folder) (context : Context)
    (key : OptionKey) : (checkOption context a key).run.run c = (.ok (), c) := by
  unfold checkOption
  split
  · rename_i hFile
    exact (h.edits _ hFile).run_checkPath context _
  · rename_i hFile
    exact (h.output _ hFile).run_checkPath context _
  · rfl

theorem of_run_takeStylesheet {path : Text}
    (h : (takeStylesheet context a).run.run c = (.ok path, c')) :
    a.operands = [path] ∧ PathInOrder c.folder path false ∧ c' = c := by
  rw [takeStylesheet] at h
  split at h
  · exact absurd h run_failUsage_ne_ok
  · rename_i first surplus hOperands
    obtain ⟨_, c₁, hCheck, hSurplus⟩ := exists_of_run_bind h
    obtain ⟨hPath, rfl⟩ := of_run_checkPath hCheck
    cases surplus with
    | nil =>
      cases hSurplus
      exact ⟨hOperands, hPath, rfl⟩
    | cons second surplus => exact absurd hSurplus run_failUsage_ne_ok

/-! ## Sessions that are made -/

theorem of_run_readEdits {limits : Json.Limits} {document : Entries Text Text}
    (h : (readEdits limits (a.value? .edits)).run.run c = (.ok document, c')) :
    a.document limits c.folder = .ok document ∧ c' = c := by
  rw [Arguments.document]
  cases hFile : a.value? .edits with
  | none =>
    rw [hFile] at h
    cases h
    exact ⟨rfl, rfl⟩
  | some file =>
    rw [hFile] at h
    obtain ⟨bytes, c₁, hRead, hDecode⟩ := exists_of_run_bind h
    cases hRead
    dsimp only
    split at hDecode
    · rename_i hEdits
      cases hDecode
      exact ⟨hEdits, rfl⟩
    · exact absurd hDecode run_fail_ne_ok
    · cases hDecode

theorem of_run_openSession {settings : Settings} {path : Text} {session : Session}
    (h : (openSession settings path).run.run c = (.ok session, c')) :
    ∃ source, Stores c.folder path source := by
  obtain ⟨source, c₁, hRead, -⟩ := exists_of_run_bind h
  obtain ⟨bytes, c₂, hFile, hDecode⟩ := exists_of_run_bind hRead
  cases hFile
  split at hDecode
  · exact absurd hDecode run_fail_ne_ok
  · rename_i bytes hBytes
    split at hDecode
    · rename_i hText
      cases hDecode
      exact ⟨_, bytes, hBytes, hText⟩
    · exact absurd hDecode run_fail_ne_ok

/-- **A session is made only if all that the arguments name can be read.** -/
theorem of_run_editSession {settings : Settings} {path : Text} {session : Session}
    (h : (editSession context settings a path).run.run c = (.ok session, c')) :
    ∃ source document items, Supplies settings.limits c.folder a path source document items := by
  obtain ⟨document, c₁, hEdits, hRest⟩ := exists_of_run_bind h
  obtain ⟨hDocument, rfl⟩ := of_run_readEdits hEdits
  split at hRest
  · exact absurd hRest run_failUsage_ne_ok
  · rename_i assignments hAssignments
    obtain ⟨items, hItems, rfl⟩ := map_eq_ok_iff.mp hAssignments
    dsimp only at hRest
    split at hRest
    · exact absurd hRest run_failUsage_ne_ok
    · rename_i hSome
      obtain ⟨s, c₂, hOpen, -⟩ := exists_of_run_bind hRest
      obtain ⟨source, hSource⟩ := of_run_openSession hOpen
      refine ⟨source, document, items, hSource, hDocument, hItems, fun hNil => hSome ?_⟩
      obtain ⟨rfl, rfl⟩ := List.append_eq_nil_iff.mp hNil
      rfl

end

end CustomProperties.CommandLine
