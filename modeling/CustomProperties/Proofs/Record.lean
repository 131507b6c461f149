import CustomProperties.Proofs.JsonValue
import CustomProperties.Record

/-!
# Declarations as JSON and back

The JSON text of a list of declarations reads as the list again, whatever the indent, except for one
thing that JSON escapes cannot tell apart: a high surrogate and a low surrogate right behind it come
back as the one code point that they encode.

* `ofJson_toJson`: one declaration, on the side of JSON values.
* `listOfJson_listToJson`: **the round trip of a list of declarations.**
-/

namespace CustomProperties.Declaration

def texts (d : Declaration) : List Text := [d.id, d.name, d.value, d.selector]

def joined (d : Declaration) : Declaration :=
  { d with
    id := d.id.joinSurrogates
    name := d.name.joinSurrogates
    value := d.value.joinSurrogates
    selector := d.selector.joinSurrogates }

theorem joined_eq_self_iff {d : Declaration} : d.joined = d ↔ ∀ t ∈ d.texts, ¬ t.HasPair := by
  have hFields : d.joined = d ↔ d.id.joinSurrogates = d.id ∧ d.name.joinSurrogates = d.name ∧
      d.value.joinSurrogates = d.value ∧ d.selector.joinSurrogates = d.selector := by
    cases d
    simp [joined]
  rw [hFields]
  simp only [Text.joinSurrogates_eq_self_iff, texts, List.forall_mem_cons, List.not_mem_nil,
    false_implies, implies_true, and_true]

theorem map_joined_eq_self_iff {ds : List Declaration} :
    ds.map joined = ds ↔ ∀ d ∈ ds, ∀ t ∈ d.texts, ¬ t.HasPair := by
  induction ds with
  | nil => simp
  | cons d ds ih =>
    rw [List.map_cons, List.cons.injEq, ih, joined_eq_self_iff, List.forall_mem_cons]

/-- The limits let the JSON text of a list of declarations through: an array of objects, with
indices of so many digits. -/
structure Readable (limits : Json.Limits) (ds : List Declaration) : Prop where
  depth : ∀ depth ∈ limits.depth, 2 ≤ depth
  start : ∀ d ∈ ds, limits.AllowsInt d.start
  stop : ∀ d ∈ ds, limits.AllowsInt d.stop

theorem readable_unlimited (ds : List Declaration) : Readable {} ds :=
  ⟨nofun, fun _ _ => nofun, fun _ _ => nofun⟩

theorem Readable.fits {limits : Json.Limits} {ds : List Declaration} (h : Readable limits ds) :
    (Json.arr (ds.map toJson)).Fits limits := by
  obtain ⟨outer, inner, hOuter, hInner, hDigits⟩ : ∃ outer inner, limits.inner? = some outer ∧
      outer.inner? = some inner ∧ inner.digits = limits.digits := by
    cases hDepth : limits.depth with
    | none =>
      have hSame : limits.inner? = some limits := by rw [Json.Limits.inner?, hDepth]
      exact ⟨limits, limits, hSame, hSame, rfl⟩
    | some depth =>
      obtain ⟨n, rfl⟩ : ∃ n, depth = n + 2 := ⟨depth - 2, by have := h.depth depth hDepth; omega⟩
      refine ⟨{ limits with depth := some (n + 1) }, { limits with depth := some n }, ?_, rfl, rfl⟩
      rw [Json.Limits.inner?, hDepth]
  refine .arr hOuter fun v hv => ?_
  obtain ⟨d, hd, rfl⟩ := List.mem_map.mp hv
  refine .obj hInner ?_
  have hStart : inner.AllowsInt d.start := by
    rw [Json.Limits.AllowsInt, hDigits]
    exact h.start d hd
  have hStop : inner.AllowsInt d.stop := by
    rw [Json.Limits.AllowsInt, hDigits]
    exact h.stop d hd
  simp only [List.forall_mem_cons]
  exact ⟨.str _, .int hStop, .str _, .str _, .str _, .int hStart, .str _, nofun⟩

theorem ofJson_toJson (d : Declaration) : ofJson d.toJson.joined = .ok d.joined := by
  have hJoined : d.toJson.joined = .obj [("_type", .str "Declaration"), ("end_index", .int d.stop),
      ("id", .str d.joined.id), ("name", .str d.joined.name), ("selector", .str d.joined.selector),
      ("start_index", .int d.start), ("value", .str d.joined.value)] := by
    have hNames : [("_type" : Text), "end_index", "id", "name", "selector", "start_index",
        "value"].Nodup := by decide
    rw [toJson, Json.joined, Json.joinedMembers_eq_map]
    exact congrArg Json.obj (Entries.ofPairs_of_nodup hNames)
  rw [hJoined]
  rfl

theorem mapM_ofJson (ds : List Declaration) :
    (ds.map fun d => d.toJson.joined).mapM ofJson = .ok (ds.map joined) := by
  induction ds with
  | nil => rfl
  | cons d ds ih =>
    rw [List.map_cons, List.mapM_cons, ofJson_toJson, ih]
    rfl

/-- **Declarations come back from their JSON text** with the surrogate pairs of their texts joined.
The text is ASCII, and the indent makes no difference to what comes back; it is the list itself
exactly if no text in it has a pair.  Limits of the reader make no difference either, if the indices
have no more digits than they allow. -/
theorem listOfJson_listToJson (ds : List Declaration) (indent : Option Int) :
    Json.Ascii (listToJson ds (.ofIndent indent)) ∧
      listOfJson {} (listToJson ds (.ofIndent indent)) = .ok (ds.map joined) ∧
      (listOfJson {} (listToJson ds (.ofIndent indent)) = .ok ds ↔
        ∀ d ∈ ds, ∀ t ∈ d.texts, ¬ t.HasPair) ∧
      (∀ other, listOfJson {} (listToJson ds (.ofIndent other))
        = listOfJson {} (listToJson ds (.ofIndent indent))) ∧
      ∀ limits, Readable limits ds →
        listOfJson limits (listToJson ds (.ofIndent indent)) = .ok (ds.map joined) := by
  have hRead : ∀ limits other, Readable limits ds →
      listOfJson limits (listToJson ds (.ofIndent other)) = .ok (ds.map joined) := by
    intro limits other hReadable
    rw [listOfJson, listToJson, Json.parse_render _ hReadable.fits, Json.joined,
      Json.joinedItems_eq_map, List.map_map]
    exact congrArg (Except.mapError Json.Failure.refused) (mapM_ofJson ds)
  have hFree := fun other => hRead {} other (readable_unlimited ds)
  refine ⟨Json.ascii_write _ (readable_unlimited ds).fits 0, hFree indent, ?_, fun other => ?_,
    fun limits => hRead limits indent⟩
  · rw [hFree, Except.ok.injEq, map_joined_eq_self_iff]
  · rw [hFree, hFree]

end CustomProperties.Declaration
