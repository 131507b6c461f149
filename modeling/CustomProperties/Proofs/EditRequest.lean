import CustomProperties.CommandLine.EditRequest
import CustomProperties.Proofs.Session

/-!
# What a request changes

A request is made from the entries of a document and from items (`EditInput`).  Several of them may
be for one name, and two names of the document may become one when they are normalized.  What counts
is the last item for a name, and if there is none the last entry (`EditInput.value?`).  From that
alone follows the value of every declaration (`EditInput.result`), and from these what changes and
the text with the edits in place.

* `values_request`: the document and the items are one list of pairs.
* `apply_start`: **a request leaves each declaration with its result.**
* `session_eq_foldl`: values taken as they are could as well be proposed name by name.
-/

namespace CustomProperties

def Declaration.Under (selector : Option Text) (d : Declaration) : Prop :=
  ∀ x ∈ selector, d.selector = x

instance (selector : Option Text) (d : Declaration) : Decidable (d.Under selector) :=
  inferInstanceAs (Decidable (∀ x ∈ selector, d.selector = x))

theorem Declaration.matches_iff {name : Text} {selector : Option Text} {d : Declaration} :
    d.Matches name selector ↔ d.name = name ∧ d.Under selector := Iff.rfl

/-- What a request is made from: the entries of a document and the items, in the order given, and
which declarations they are for. -/
structure EditInput where
  document : List (Text × Text)
  items : List (Text × Text)
  selector : Option Text
  raw : Bool

namespace EditInput

def request (input : EditInput) : EditRequest :=
  { values := EditRequest.collect input.document (Entries.ofPairs input.items)
    selector := input.selector
    raw := input.raw }

def entries (input : EditInput) : List (Text × Text) :=
  input.document.map fun (name, value) => (PropertyName.normalize name, value)

/-- The value asked for under a name: that of the last item for it, or else of the last entry. -/
def value? (input : EditInput) (name : Text) : Option Text :=
  (Entries.last? input.items name).or (Entries.last? input.entries name)

/-- The names asked for, in the order in which they first appear. -/
def names (input : EditInput) : List Text :=
  (input.entries.map Prod.fst ++ input.items.map Prod.fst).eraseDups

def newValue? (input : EditInput) (d : Declaration) : Option Text :=
  if d.Under input.selector then
    (input.value? d.name).map fun value =>
      if input.raw then value else Padding.keep d.value value
  else none

def result (input : EditInput) (d : Declaration) : Text := (input.newValue? d).getD d.value

/-- The names asked for that no declaration has that the edits are for. -/
def unmatched (input : EditInput) (ds : List Declaration) : List Text :=
  input.names.filter fun name => ∀ d ∈ ds, ¬ d.Matches name input.selector

def session (input : EditInput) (config : Config) (source : Text) (file : Option Text) : Session :=
  Session.holding source file (Scan.scan config source) input.result

def edited (input : EditInput) (config : Config) (source : Text) : Text :=
  source.fill input.result 0 (Scan.scan config source)

/-! ## The values of a request -/

theorem values_request (input : EditInput) :
    input.request.values = Entries.ofPairs (input.entries ++ input.items) := by
  show Entries.putAll (Entries.ofPairs input.entries) (Entries.ofPairs input.items) = _
  rw [Entries.putAll_ofPairs, Entries.ofPairs, Entries.ofPairs, Entries.putAll, Entries.putAll,
    Entries.putAll, List.foldl_append]

theorem get?_request (input : EditInput) (name : Text) :
    input.request.values.get? name = input.value? name := by
  rw [values_request, Entries.get?_ofPairs, Entries.last?_append, value?]

theorem keys_request (input : EditInput) : input.request.values.map Prod.fst = input.names := by
  rw [values_request, Entries.keys_ofPairs, List.map_append]
  rfl

theorem nodup_keys_request (input : EditInput) : (input.request.values.map Prod.fst).Nodup := by
  rw [values_request]
  exact Entries.nodup_keys_ofPairs _

theorem unmatched_request (input : EditInput) {s : Session} {ds : List Declaration}
    (hs : s.declarations = ds) : input.request.unmatched s = input.unmatched ds := by
  have hEmpty : ∀ name, (s.targets name input.selector).isEmpty
      = decide (∀ d ∈ ds, ¬ d.Matches name input.selector) := by
    intro name
    rw [Bool.eq_iff_iff, decide_eq_true_eq, List.isEmpty_iff, Session.targets, hs,
      List.filter_eq_nil_iff]
    simp only [Session.isTarget_iff]
  rw [EditRequest.unmatched, keys_request, unmatched]
  exact List.filter_congr fun name _ => hEmpty name

end EditInput

/-! ## Applying a request -/

namespace EditRequest

section

variable {source : Text} {file : Option Text} {ds : List Declaration}
  {value : Declaration → Text}

theorem applyTo_holding (hds : (ds.map (·.id)).Nodup) (r : EditRequest) (name v : Text) :
    r.applyTo (Session.holding source file ds value) name v = Session.holding source file ds
      fun d => if d.Matches name r.selector then r.valueFor d v else value d := by
  show (ds.filter (Session.isTarget name r.selector)).foldl
    (fun s d => s.put d.id (r.valueFor d v)) (Session.holding source file ds value) = _
  rw [Session.foldl_put_holding hds (r.valueFor · v) _ fun e he => List.mem_of_mem_filter he]
  refine Session.holding_congr fun d hd => ?_
  simp [hd, Session.isTarget_iff]

def newValue? (r : EditRequest) (d : Declaration) : Option Text :=
  if d.Under r.selector then (r.values.get? d.name).map (r.valueFor d) else none

/-- The values of a request are proposed one name after the other, each to declarations that no
other name is for. -/
theorem apply_holding (hds : (ds.map (·.id)).Nodup) (selector : Option Text) (raw : Bool)
    {values : Entries Text Text} (hValues : (values.map Prod.fst).Nodup) :
    apply ⟨values, selector, raw⟩ (Session.holding source file ds value)
      = Session.holding source file ds fun d =>
        (newValue? ⟨values, selector, raw⟩ d).getD (value d) := by
  induction values generalizing value with
  | nil => exact Session.holding_congr fun d _ => by simp [newValue?, Entries.get?]
  | cons entry values ih =>
    obtain ⟨name, v⟩ := entry
    rw [List.map_cons, List.nodup_cons] at hValues
    have hStep : apply ⟨(name, v) :: values, selector, raw⟩ (Session.holding source file ds value)
        = apply ⟨values, selector, raw⟩ (Session.holding source file ds fun d =>
          if d.Matches name selector then valueFor ⟨values, selector, raw⟩ d v else value d) := by
      rw [← applyTo_holding hds ⟨values, selector, raw⟩]
      rfl
    rw [hStep, ih hValues.2]
    refine Session.holding_congr fun d _ => ?_
    by_cases hUnder : d.Under selector
    · by_cases hName : d.name = name
      · -- No later entry has this name, so what is proposed here stays.
        subst hName
        simp [newValue?, Declaration.matches_iff, hUnder, Entries.get?,
          Entries.get?_of_not_mem hValues.1, valueFor]
      · have hSame : valueFor ⟨(name, v) :: values, selector, raw⟩ d
            = valueFor ⟨values, selector, raw⟩ d := rfl
        simp [newValue?, Declaration.matches_iff, hUnder, Entries.get?, hName, Ne.symm hName, hSame]
    · simp [newValue?, Declaration.matches_iff, hUnder]

end

theorem apply_of_raw (values : Entries Text Text) (selector : Option Text) (s : Session) :
    apply ⟨values, selector, true⟩ s
      = values.foldl (fun s entry => (s.proposeAll entry.1 entry.2 selector).1) s := rfl

end EditRequest

namespace EditInput

variable (input : EditInput) (config : Config) (source : Text) (file : Option Text)

/-- **A request leaves each declaration with its result.** -/
theorem apply_start : input.request.apply (Session.start config source file)
    = input.session config source file := by
  rw [Session.start_eq_holding]
  refine (EditRequest.apply_holding (nodup_ids_scan config source) _ _
    (nodup_keys_request input)).trans (Session.holding_congr fun d _ => ?_)
  have hNew : input.request.newValue? d = input.newValue? d := by
    rw [EditRequest.newValue?, get?_request, newValue?]
    rfl
  rw [result, ← hNew]
  rfl

/-- Values taken as they are could as well be proposed name by name, in any order. -/
theorem session_eq_foldl (hRaw : input.raw = true) {pairs : List (Text × Text)}
    (hNodup : (pairs.map Prod.fst).Nodup)
    (hPairs : ∀ name value, (name, value) ∈ pairs ↔ input.value? name = some value) :
    input.session config source file = pairs.foldl
      (fun s pair => (s.proposeAll pair.1 pair.2 input.selector).1)
      (Session.start config source file) := by
  have hGet : ∀ name, Entries.get? pairs name = input.value? name := by
    intro name
    refine Option.ext fun value => ?_
    rw [Entries.get?_eq_some_iff hNodup, hPairs]
  rw [← EditRequest.apply_of_raw, Session.start_eq_holding,
    EditRequest.apply_holding (nodup_ids_scan config source) _ _ hNodup]
  refine Session.holding_congr fun d _ => ?_
  rw [result, newValue?, EditRequest.newValue?, hGet, hRaw]
  rfl

theorem session_holds : (input.session config source file).Holds source file
    (Scan.scan config source) input.result :=
  Session.holds_holding config source file input.result

theorem edited_of_result_eq (h : ∀ d ∈ Scan.scan config source, input.result d = d.value) :
    input.edited config source = source := by
  rw [edited, ← (input.session_holds config source none).render_eq]
  refine patch_text_of_unchanged (fun d hd => ?_) source
  rw [session, Session.newValue?_holding (nodup_ids_scan config source) hd, if_pos (h d hd)]

theorem render_of_changes_eq_nil (h : (input.session config source file).changes = []) :
    (input.session config source file).render = source := by
  rw [(input.session_holds config source file).changes_eq, List.map_eq_nil_iff,
    List.filter_eq_nil_iff] at h
  rw [(input.session_holds config source file).render_eq]
  exact input.edited_of_result_eq config source fun d hd => by simpa using h d hd

end EditInput

end CustomProperties
