import CustomProperties.Proofs.Entries
import CustomProperties.Proofs.Patch
import CustomProperties.Session
import Mathlib.Data.List.Nodup

/-!
# Runs of a session

A session can be written to and looked at in any order, and some of the writes may fail.  Whatever
is done, the session stays of one form: the source, its declarations, and one value for each of
them in source order (`Session.holding`).  An operation only changes which values these are, and
what it writes to a declaration can be told from the operation and the declaration alone
(`Operation.writes?`).  So after a run every declaration has the value that was written to it last.

All that a session shows is then read off the values: the two ways to find out about changes, the
list of changes, and the text with the values in place.

* `perform_holding`: what one operation does to the values.
* `run_holding`: what a run does to them.
* `run_holds`: **a session holds the value written last to each declaration, and shows it.**
-/

namespace CustomProperties

def Declaration.Matches (name : Text) (selector : Option Text) (d : Declaration) : Prop :=
  d.name = name ∧ ∀ x ∈ selector, d.selector = x

instance (name : Text) (selector : Option Text) (d : Declaration) :
    Decidable (d.Matches name selector) :=
  inferInstanceAs (Decidable (d.name = name ∧ ∀ x ∈ selector, d.selector = x))

/-- The source from an offset on, with `value d` in the place of the span of each declaration. -/
def Text.fill (source : Text) (value : Declaration → Text) :
    (offset : Int) → List Declaration → Text
  | offset, [] => source.since offset
  | offset, d :: rest =>
    source.slice offset d.start ++ (value d ++ Text.fill source value d.stop rest)

namespace Session

/-! ## Operations -/

inductive Query
  | find (id : Text)
  | anyChanged
  | changes
  | matching (term : Text)
  | render
  | size
  | summary
  | values
  | declarations
  | source

inductive Operation
  | propose (id value : Text)
  | proposeAll (name value : Text) (selector : Option Text)
  | restore (id : Text)
  | restoreAll
  | proposal (id : Text)
  | isChanged (id : Text)
  | look (query : Query)

inductive Answer
  | done
  | unknown (error : UnknownDeclaration)
  | text (t : Text)
  | flag (b : Bool)
  | number (n : Nat)
  | declaration (d : Option Declaration)
  | declarations (ds : List Declaration)
  | changes (cs : List Change)
  | values (values : Entries Text Text)
  | source (source : Text) (file : Option Text)

def answer (s : Session) : Query → Answer
  | .find id => .declaration (s.find? id)
  | .anyChanged => .flag s.anyChanged
  | .changes => .changes s.changes
  | .matching term => .declarations (s.matching term)
  | .render => .text s.render
  | .size => .number s.declarations.length
  | .summary => .text s.summary
  | .values => .values s.values
  | .declarations => .declarations s.declarations
  | .source => .source s.source s.file

/-- An operation that may fail; then the session stays as it is. -/
def attempt (s : Session) : Except UnknownDeclaration (Session × Answer) → Session × Answer
  | .ok result => result
  | .error error => (s, .unknown error)

def perform (s : Session) : Operation → Session × Answer
  | .propose id value => s.attempt ((s.propose id value).map (·, .done))
  | .proposeAll name value selector =>
    ((s.proposeAll name value selector).1, .number (s.proposeAll name value selector).2)
  | .restore id => s.attempt ((s.restore id).map (·, .done))
  | .restoreAll => (s.restoreAll, .done)
  | .proposal id => s.attempt ((s.proposal id).map (s, .text ·))
  | .isChanged id => s.attempt ((s.isChanged id).map (s, .flag ·))
  | .look query => (s, s.answer query)

def run (s : Session) (ops : List Operation) : Session :=
  ops.foldl (fun s op => (s.perform op).1) s

def Operation.subject? : Operation → Option Text
  | .propose id _ => some id
  | .restore id => some id
  | .proposal id => some id
  | .isChanged id => some id
  | _ => none

def Operation.writes? (d : Declaration) : Operation → Option Text
  | .propose id value => if d.id = id then some value else none
  | .proposeAll name value selector => if d.Matches name selector then some value else none
  | .restore id => if d.id = id then some d.value else none
  | .restoreAll => some d.value
  | _ => none

/-- The value written last to a declaration, or its own if there is none. -/
def latest (ops : List Operation) (d : Declaration) : Text :=
  (ops.reverse.findSome? (Operation.writes? d)).getD d.value

theorem attempt_read (s : Session) {α : Type} (result : Except UnknownDeclaration α)
    (f : α → Answer) : (s.attempt (result.map (s, f ·))).1 = s := by
  cases result with
  | ok a => rfl
  | error u => rfl

theorem attempt_write_of_unknown {s : Session} {result : Except UnknownDeclaration Session}
    {u : UnknownDeclaration} (h : (s.attempt (result.map (·, .done))).2 = .unknown u) :
    (s.attempt (result.map (·, .done))).1 = s := by
  cases result with
  | ok s' => cases h
  | error u => rfl

theorem perform_of_unknown (s : Session) {op : Operation} {u : UnknownDeclaration}
    (h : (s.perform op).2 = .unknown u) : (s.perform op).1 = s := by
  cases op with
  | propose id v => exact attempt_write_of_unknown h
  | restore id => exact attempt_write_of_unknown h
  | proposal id => exact attempt_read s _ _
  | isChanged id => exact attempt_read s _ _
  | proposeAll name v selector => cases h
  | restoreAll => cases h
  | look query => rfl

/-! ## Sessions that hold a value for each declaration -/

def holding (source : Text) (file : Option Text) (ds : List Declaration)
    (value : Declaration → Text) : Session :=
  { source, file, declarations := ds, values := ds.map fun d => (d.id, value d) }

section Holding

variable {source : Text} {file : Option Text} {ds : List Declaration}
  {value value' : Declaration → Text}

theorem holding_congr (h : ∀ d ∈ ds, value d = value' d) :
    holding source file ds value = holding source file ds value' := by
  have hValues : (ds.map fun d => (d.id, value d)) = ds.map fun d => (d.id, value' d) :=
    List.map_congr_left fun d hd => by rw [h d hd]
  rw [holding, holding, hValues]

theorem seed_eq (hds : (ds.map (·.id)).Nodup) : seed ds = ds.map fun d => (d.id, d.value) := by
  refine Entries.ofPairs_of_nodup ?_
  rw [List.map_map]
  exact hds

/-- The ids are all different, so the first declaration with an id is what a map from ids to
declarations has under it, where the last one would stay. -/
theorem find?_eq_get? {s : Session} (hds : (s.declarations.map (·.id)).Nodup) (id : Text) :
    s.find? id = (Entries.ofPairs (s.declarations.map fun d => (d.id, d))).get? id := by
  have hKeys : ((s.declarations.map fun d => (d.id, d)).map Prod.fst).Nodup := by
    rw [List.map_map]
    exact hds
  rw [Entries.ofPairs_of_nodup hKeys, find?]
  clear hds hKeys
  induction s.declarations with
  | nil => rfl
  | cons d ds ih =>
    rw [List.map_cons, Entries.get?, List.find?_cons]
    by_cases hd : d.id = id
    · simp [hd]
    · simp only [hd, decide_false, if_false]
      exact ih

theorem lookup_of_mem (hds : (ds.map (·.id)).Nodup) {d : Declaration} (hd : d ∈ ds) :
    (holding source file ds value).lookup d.id = .ok d := by
  have hFind : (holding source file ds value).find? d.id = some d := by
    cases h : ds.find? (·.id = d.id) with
    | none => exact absurd (List.find?_eq_none.mp h d hd) (by simp)
    | some e =>
      have hId : e.id = d.id := by simpa using List.find?_some h
      obtain rfl := List.inj_on_of_nodup_map hds (List.mem_of_find?_eq_some h) hd hId
      exact h
  rw [lookup, hFind]

theorem lookup_of_not_mem {id : Text} (h : id ∉ ds.map (·.id)) :
    (holding source file ds value).lookup id = .error ⟨id⟩ := by
  have hFind : (holding source file ds value).find? id = none := by
    refine List.find?_eq_none.mpr fun d hd => ?_
    have hne : d.id ≠ id := fun hId => h (List.mem_map.mpr ⟨d, hd, hId⟩)
    simpa using hne
  rw [lookup, hFind]

theorem valueOf_holding (hds : (ds.map (·.id)).Nodup) {d : Declaration} (hd : d ∈ ds) :
    (holding source file ds value).valueOf d = value d := by
  rw [valueOf, holding, Entries.get?_map_of_mem hds value hd]
  rfl

theorem get?_values_holding (hds : (ds.map (·.id)).Nodup) {d : Declaration} (hd : d ∈ ds) :
    (holding source file ds value).values.get? d.id
      = some ((holding source file ds value).valueOf d) := by
  rw [valueOf_holding hds hd, holding, Entries.get?_map_of_mem hds value hd]

/-! ## Writing -/

theorem put_holding (hds : (ds.map (·.id)).Nodup) {e : Declaration} (he : e ∈ ds) (v : Text) :
    (holding source file ds value).put e.id v
      = holding source file ds fun d => if d = e then v else value d := by
  have hPut : (holding source file ds value).put e.id v
      = holding source file ds fun d => if d.id = e.id then v else value d := by
    rw [put, holding, Entries.put_map_of_mem hds (List.mem_map_of_mem he) value v]
    rfl
  rw [hPut]
  refine holding_congr fun d hd => ?_
  by_cases h : d = e
  · rw [h, if_pos rfl, if_pos rfl]
  · rw [if_neg h, if_neg fun hId => h (List.inj_on_of_nodup_map hds hd he hId)]

theorem foldl_put_holding (hds : (ds.map (·.id)).Nodup) (v : Declaration → Text)
    (es : List Declaration) (hes : ∀ e ∈ es, e ∈ ds) :
    es.foldl (fun s e => s.put e.id (v e)) (holding source file ds value)
      = holding source file ds fun d => if d ∈ es then v d else value d := by
  induction es generalizing value with
  | nil => exact holding_congr fun d _ => by simp
  | cons e es ih =>
    rw [List.foldl_cons, put_holding hds (hes e List.mem_cons_self),
      ih fun f hf => hes f (List.mem_cons_of_mem e hf)]
    refine holding_congr fun d _ => ?_
    by_cases hd : d ∈ es
    · simp [hd]
    · by_cases he : d = e
      · simp [he]
      · simp [hd, he]

theorem isTarget_iff {name : Text} {selector : Option Text} {d : Declaration} :
    isTarget name selector d = true ↔ d.Matches name selector := by
  cases selector with
  | none => simp [isTarget, Declaration.Matches]
  | some x =>
    simp only [isTarget, Declaration.Matches, Bool.and_eq_true, Bool.or_eq_true, decide_eq_true_eq,
      reduceCtorEq, false_or, Option.some.injEq, Option.mem_def, forall_eq']
    exact and_congr_right fun _ => eq_comm

theorem attempt_put (hds : (ds.map (·.id)).Nodup) (v : Declaration → Text) (id : Text) :
    ((holding source file ds value).attempt ((((holding source file ds value).lookup id).map
        fun d => (holding source file ds value).put id (v d)).map (·, .done))).1
      = holding source file ds fun d =>
        (if d.id = id then some (v d) else none).getD (value d) := by
  by_cases hid : id ∈ ds.map (·.id)
  · obtain ⟨e, he, rfl⟩ := List.mem_map.mp hid
    rw [lookup_of_mem hds he]
    show (holding source file ds value).put e.id (v e) = _
    rw [put_holding hds he]
    refine holding_congr fun d hd => ?_
    by_cases h : d = e
    · simp [h]
    · have hne : d.id ≠ e.id := fun hId => h (List.inj_on_of_nodup_map hds hd he hId)
      simp [h, hne]
  · -- The id is no declaration's, so there is none that the operation says it writes to.
    rw [lookup_of_not_mem hid]
    refine holding_congr fun d hd => ?_
    have hne : d.id ≠ id := by
      rintro rfl
      exact hid (List.mem_map_of_mem hd)
    simp [hne]

/-- **One operation writes to each declaration what `writes?` says**, and nothing else. -/
theorem perform_holding (hds : (ds.map (·.id)).Nodup) (op : Operation) :
    ((holding source file ds value).perform op).1
      = holding source file ds fun d => (op.writes? d).getD (value d) := by
  cases op with
  | propose id v => exact attempt_put hds (fun _ => v) id
  | restore id => exact attempt_put hds (fun d => d.value) id
  | proposeAll name v selector =>
    show (ds.filter (isTarget name selector)).foldl (fun s e => s.put e.id v)
      (holding source file ds value) = _
    rw [foldl_put_holding hds (fun _ => v) _ fun e he => List.mem_of_mem_filter he]
    refine holding_congr fun d hd => ?_
    by_cases h : d.Matches name selector
    · simp [Operation.writes?, h, hd, isTarget_iff]
    · simp [Operation.writes?, h, isTarget_iff]
  | restoreAll =>
    show { holding source file ds value with values := seed ds } = _
    rw [seed_eq hds]
    rfl
  | proposal id => exact attempt_read _ _ _
  | isChanged id => exact attempt_read _ _ _
  | look query => rfl

/-- **After a run each declaration has the value written last.** -/
theorem run_holding (hds : (ds.map (·.id)).Nodup) (ops : List Operation) :
    (holding source file ds value).run ops = holding source file ds fun d =>
      (ops.reverse.findSome? (Operation.writes? d)).getD (value d) := by
  induction ops generalizing value with
  | nil => rfl
  | cons op ops ih =>
    have hRun : (holding source file ds value).run (op :: ops)
        = ((holding source file ds value).perform op).1.run ops := rfl
    rw [hRun, perform_holding hds, ih]
    refine holding_congr fun d _ => ?_
    rw [List.reverse_cons, List.findSome?_append, Option.getD_or, List.findSome?_singleton]

/-! ## Reading -/

theorem attempt_unknown_iff {α : Type} (hds : (ds.map (·.id)).Nodup) (id : Text)
    (u : UnknownDeclaration) (g : Declaration → α) (f : α → Session × Answer)
    (hf : ∀ a, (f a).2 ≠ .unknown u) :
    ((holding source file ds value).attempt
        ((((holding source file ds value).lookup id).map g).map f)).2 = .unknown u
      ↔ id ∉ ds.map (·.id) ∧ u = ⟨id⟩ := by
  by_cases hid : id ∈ ds.map (·.id)
  · obtain ⟨e, he, rfl⟩ := List.mem_map.mp hid
    rw [lookup_of_mem hds he]
    exact ⟨fun h => absurd h (hf (g e)), fun h => absurd hid h.1⟩
  · rw [lookup_of_not_mem hid]
    show Answer.unknown ⟨id⟩ = .unknown u ↔ _
    rw [Answer.unknown.injEq]
    exact ⟨fun h => ⟨hid, h.symm⟩, fun h => h.2.symm⟩

/-- **An operation fails exactly when it needs to know an id that no declaration has.** -/
theorem perform_unknown_iff (hds : (ds.map (·.id)).Nodup) (op : Operation)
    (u : UnknownDeclaration) :
    ((holding source file ds value).perform op).2 = .unknown u ↔
      ∃ id ∈ op.subject?, id ∉ ds.map (·.id) ∧ u = ⟨id⟩ := by
  have hSome : ∀ id : Text, (∃ id' ∈ some id, id' ∉ ds.map (·.id) ∧ u = ⟨id'⟩) ↔
      id ∉ ds.map (·.id) ∧ u = ⟨id⟩ := by simp
  cases op with
  | propose id v =>
    exact (attempt_unknown_iff hds id u _ (·, .done) (fun _ => nofun)).trans (hSome id).symm
  | restore id =>
    exact (attempt_unknown_iff hds id u _ (·, .done) (fun _ => nofun)).trans (hSome id).symm
  | proposal id =>
    exact (attempt_unknown_iff hds id u _ (_, .text ·) (fun _ => nofun)).trans (hSome id).symm
  | isChanged id =>
    exact (attempt_unknown_iff hds id u _ (_, .flag ·) (fun _ => nofun)).trans (hSome id).symm
  | proposeAll name v selector => simp [perform, Operation.subject?]
  | restoreAll => simp [perform, Operation.subject?]
  | look query => cases query <;> simp [perform, answer, Operation.subject?]

theorem isChanged_holding (hds : (ds.map (·.id)).Nodup) {d : Declaration} (hd : d ∈ ds) :
    (holding source file ds value).isChanged d.id = .ok (decide (value d ≠ d.value)) := by
  rw [isChanged, lookup_of_mem hds hd]
  show Except.ok (decide ((holding source file ds value).valueOf d ≠ d.value)) = _
  rw [valueOf_holding hds hd]

theorem anyChanged_iff (hds : (ds.map (·.id)).Nodup) :
    (holding source file ds value).anyChanged = true ↔ ∃ d ∈ ds, value d ≠ d.value := by
  rw [anyChanged, List.any_eq_true]
  refine exists_congr fun d => and_congr_right fun hd => ?_
  rw [differs, valueOf_holding hds hd, decide_eq_true_eq]

theorem newValue?_holding (hds : (ds.map (·.id)).Nodup) {d : Declaration} (hd : d ∈ ds) :
    (holding source file ds value).edits.newValue? d
      = if value d = d.value then none else some (value d) := by
  have hEdits : (holding source file ds value).edits = ds.map fun d => (d.id, some (value d)) := by
    rw [edits, holding, List.map_map]
    rfl
  rw [Edits.newValue?, hEdits, Entries.get?_map_of_mem hds _ hd]
  rfl

theorem changes_holding (hds : (ds.map (·.id)).Nodup)
    (hAscending : ds.Pairwise fun a b => a.start ≤ b.start) :
    (holding source file ds value).changes
      = (ds.filter fun d => value d ≠ d.value).map fun d => ⟨d, value d⟩ := by
  have hSorted : Declaration.sortAscending ds = ds := stableSort_of_pairwise hAscending
  have hEach : ∀ es : List Declaration, (∀ d ∈ es, d ∈ ds) →
      (es.filterMap fun d => ((holding source file ds value).edits.newValue? d).map (Change.mk d ·))
        = (es.filter fun d => value d ≠ d.value).map fun d => ⟨d, value d⟩ := by
    intro es
    induction es with
    | nil => intro _; rfl
    | cons d es ih =>
      intro hes
      have hRest := ih fun e he => hes e (List.mem_cons_of_mem d he)
      rw [List.filterMap_cons, newValue?_holding hds (hes d List.mem_cons_self), hRest]
      by_cases h : value d = d.value
      · simp [h]
      · simp [h]
  rw [Session.changes, CustomProperties.changes]
  show (Declaration.sortAscending ds).filterMap _ = _
  rw [hSorted]
  exact hEach ds fun d hd => hd

end Holding

theorem weave_eq_fill {edits : Edits} {source : Text} {value : Declaration → Text}
    {ds : List Declaration} (h : ∀ d ∈ ds, edits.written source d = value d) (offset : Int) :
    edits.weave source offset ds = source.fill value offset ds := by
  induction ds generalizing offset with
  | nil => rfl
  | cons d ds ih =>
    rw [Edits.weave, Text.fill, h d List.mem_cons_self,
      ih fun e he => h e (List.mem_cons_of_mem d he)]

theorem render_holding (config : Config) (source : Text) (file : Option Text)
    (value : Declaration → Text) :
    (holding source file (Scan.scan config source) value).render
      = source.fill value 0 (Scan.scan config source) := by
  have hds := nodup_ids_scan config source
  refine (patch_text _ (spansApart_scan config source) (.refl _)
    ((scan_ascending config source).imp fun hab => hab.1)).trans (weave_eq_fill ?_ 0)
  intro d hd
  rw [Edits.written_eq, newValue?_holding hds hd, slice_of_mem_scan hd]
  by_cases h : value d = d.value
  · rw [if_pos h, h]
    rfl
  · rw [if_neg h]
    rfl

/-! ## Whole runs -/

/-- The session holds `value d` for each declaration `d` of a source, and all that it answers agrees
with that. -/
structure Holds (s : Session) (source : Text) (file : Option Text) (ds : List Declaration)
    (value : Declaration → Text) : Prop where
  source_eq : s.source = source
  file_eq : s.file = file
  declarations_eq : s.declarations = ds
  /-- The ids stand in source order, -/
  values_eq : s.values = ds.map fun d => (d.id, value d)
  /-- and each of them once. -/
  ids_nodup : (s.values.map Prod.fst).Nodup
  proposal_eq : ∀ d ∈ ds, s.proposal d.id = .ok (value d)
  unknown_iff : ∀ (op : Operation) (u : UnknownDeclaration), (s.perform op).2 = .unknown u ↔
    ∃ id ∈ op.subject?, id ∉ ds.map (·.id) ∧ u = ⟨id⟩
  unknown_keeps : ∀ (op : Operation) (u : UnknownDeclaration),
    (s.perform op).2 = .unknown u → (s.perform op).1 = s
  count_eq : ∀ (name v : Text) (selector : Option Text),
    (s.perform (.proposeAll name v selector)).2
      = .number (ds.countP fun d => d.Matches name selector)
  isChanged_eq : ∀ d ∈ ds, s.isChanged d.id = .ok (decide (value d ≠ d.value))
  anyChanged_iff_isChanged : s.anyChanged = true ↔ ∃ id, s.isChanged id = .ok true
  anyChanged_iff_changes : s.anyChanged = true ↔ s.changes ≠ []
  changes_eq : s.changes = (ds.filter fun d => value d ≠ d.value).map fun d => ⟨d, value d⟩
  render_eq : s.render = source.fill value 0 ds

theorem start_eq_holding (config : Config) (source : Text) (file : Option Text) :
    Session.start config source file
      = holding source file (Scan.scan config source) fun d => d.value := by
  rw [Session.start, holding, seed_eq (nodup_ids_scan config source)]

/-- A session always has a value for each of its declarations, so none is ever made up for lack of
one. -/
theorem get?_values_run (config : Config) (source : Text) (file : Option Text)
    (ops : List Operation) {d : Declaration} (hd : d ∈ Scan.scan config source) :
    ((Session.start config source file).run ops).values.get? d.id
      = some (((Session.start config source file).run ops).valueOf d) := by
  have hds := nodup_ids_scan config source
  rw [start_eq_holding, run_holding hds]
  exact get?_values_holding hds hd

theorem holds_holding (config : Config) (source : Text) (file : Option Text)
    (value : Declaration → Text) :
    (holding source file (Scan.scan config source) value).Holds source file
      (Scan.scan config source) value := by
  have hds := nodup_ids_scan config source
  have hChanges : (holding source file (Scan.scan config source) value).changes = _ :=
    changes_holding hds ((scan_ascending config source).imp fun hab => by omega)
  refine ⟨rfl, rfl, rfl, rfl, ?_, ?_, perform_unknown_iff hds, fun op u => perform_of_unknown _, ?_,
    fun d => isChanged_holding hds, ?_, ?_, hChanges, render_holding config source file value⟩
  · rw [holding, List.map_map]
    exact hds
  · intro d hd
    rw [proposal, lookup_of_mem hds hd]
    exact congrArg Except.ok (valueOf_holding hds hd)
  · intro name v selector
    have hTarget : ∀ d, isTarget name selector d = decide (d.Matches name selector) := fun d => by
      rw [Bool.eq_iff_iff, isTarget_iff, decide_eq_true_eq]
    show Answer.number ((Scan.scan config source).filter (isTarget name selector)).length = _
    rw [List.countP_eq_length_filter, funext hTarget]
  · rw [anyChanged_iff hds]
    constructor
    · rintro ⟨d, hd, hne⟩
      exact ⟨d.id, by rw [isChanged_holding hds hd, decide_eq_true hne]⟩
    · rintro ⟨id, hid⟩
      by_cases hMem : id ∈ (Scan.scan config source).map (·.id)
      · obtain ⟨d, hd, rfl⟩ := List.mem_map.mp hMem
        rw [isChanged_holding hds hd, Except.ok.injEq, decide_eq_true_eq] at hid
        exact ⟨d, hd, hid⟩
      · rw [isChanged, lookup_of_not_mem hMem] at hid
        cases hid
  · rw [anyChanged_iff hds, hChanges, Ne, List.map_eq_nil_iff, List.filter_eq_nil_iff]
    simp

/-- **A session holds the value written last to each declaration, and shows it**, whatever was done
with it. -/
theorem run_holds (config : Config) (source : Text) (file : Option Text) (ops : List Operation) :
    ((Session.start config source file).run ops).Holds source file (Scan.scan config source)
      (latest ops) := by
  rw [start_eq_holding, run_holding (nodup_ids_scan config source)]
  exact holds_holding config source file (latest ops)

end Session

end CustomProperties
