import ModelSchema.Proofs.Contribution

namespace ModelSchema

namespace Kind

/-- The kinds of tags that alone write a keyword, each with that keyword. -/
def writers : List (Kind × String) :=
  [(.enum, "enum"), (.ref, "$ref"), (.default, "default"), (.const, "const")]

/-- The keywords that types, formats and single switches write. -/
def common : List String :=
  ["type", "bsonType", "items", "anyOf", "pattern", "format", "uniqueItems"]

theorem writer_unique :
    ∀ p ∈ writers, ∀ q ∈ (.ref, "$ref") :: keywords, q.2 = p.2 → q.1 = p.1 := by decide

theorem writers_not_common : ∀ p ∈ writers, p.2 ∉ common := by decide

end Kind

namespace Effect

variable {k : Kind} {key : String} {o : Options} {d : Declaration} {tag : Tag} {tags : List Tag}
  {e : Effect} {v : Value} {schema : Fields Value}

/-- The value that an effect writes under a keyword. -/
def written? (key : String) : Effect → Option Value
  | .keyword key' v => if key' = key then some v else none
  | _ => none

theorem written?_eq_some : e.written? key = some v ↔ e = .keyword key v := by
  cases e with
  | keyword key' w => simp [written?]
  | _ => simp [written?]

/-- The effect does not write this keyword. -/
def Spares (key : String) (e : Effect) : Prop := ∀ v, e ≠ .keyword key v

/-- A tag of another kind does not write the keyword. -/
theorem spares_ofTag (hwriter : (k, key) ∈ Kind.writers) (hkind : tag.kind? ≠ some k) :
    Attempt.GivesIn (Spares key) (ofTag o d tag) := by
  intro e h v hv
  have hmade := madeBy_ofTag o d tag e h
  rw [hv] at hmade
  cases hmade with
  | reference hk hcall =>
    have hsame := Kind.writer_unique _ hwriter (.ref, "$ref") List.mem_cons_self rfl
    exact hkind (hk.trans (congrArg some hsame))
  | keyword hk hkey =>
    have hsame := Kind.writer_unique _ hwriter _ (List.mem_cons_of_mem _ hkey) rfl
    exact hkind (hk.trans (congrArg some hsame))

theorem kind?_of_ofTag (hwriter : (k, key) ∈ Kind.writers)
    (h : ofTag o d tag = .ok (.keyword key v)) : tag.kind? = some k := by
  by_contra hkind
  exact spares_ofTag hwriter hkind _ h v rfl

theorem get?_onSchema (hcommon : key ∉ Kind.common) (e : Effect) (schema : Fields Value) :
    (e.onSchema schema).get? key = (e.written? key).or (schema.get? key) := by
  cases e with
  | keyword key' v =>
    rw [onSchema, Fields.get?_put, written?]
    by_cases hkey : key' = key
    · simp [hkey]
    · simp [hkey, Ne.symm hkey]
  | timestampOrEmpty =>
    have htype : key ≠ "type" := fun h => hcommon (h ▸ by decide)
    have hany : key ≠ "anyOf" := fun h => hcommon (h ▸ by decide)
    rw [onSchema, Fields.get?_put, if_neg hany, Fields.get?_erase htype]
    rfl
  | _ => rfl

/-- The last effect that writes a keyword gives its value. -/
theorem get?_foldl_onSchema (hcommon : key ∉ Kind.common) (es : List Effect)
    (schema : Fields Value) :
    (es.foldl onSchema schema).get? key =
      (es.filterMap (written? key)).getLast?.or (schema.get? key) := by
  induction es generalizing schema with
  | nil => rfl
  | cons e es ih =>
    rw [List.foldl_cons, ih, get?_onSchema hcommon, List.filterMap_cons]
    cases e.written? key with
    | none => rfl
    | some v =>
      rw [List.getLast?_cons]
      cases (es.filterMap (written? key)).getLast? <;> rfl

theorem mem_written : v ∈ (ofTags o d tags).filterMap (written? key) ↔
    ∃ tag ∈ tags, ofTag o d tag = .ok (.keyword key v) := by
  simp only [List.mem_filterMap, written?_eq_some, mem_ofTags]
  constructor
  · rintro ⟨e, ⟨tag, htag, hof⟩, rfl⟩
    exact ⟨tag, htag, hof⟩
  · rintro ⟨tag, htag, hof⟩
    exact ⟨_, ⟨tag, htag, hof⟩, rfl⟩

/-- What stands under a keyword was written by a tag of its kind. -/
theorem writer_of_get? (hwriter : (k, key) ∈ Kind.writers) (hschema : schema.get? key = none)
    (h : ((ofTags o d tags).foldl onSchema schema).get? key = some v) :
    ∃ tag ∈ tags, tag.kind? = some k ∧ ofTag o d tag = .ok (.keyword key v) := by
  rw [get?_foldl_onSchema (Kind.writers_not_common _ hwriter), hschema, Option.or_none] at h
  obtain ⟨tag, htag, hof⟩ := mem_written.mp (List.mem_of_getLast? h)
  exact ⟨tag, htag, kind?_of_ofTag hwriter hof, hof⟩

theorem get?_of_writer (hcommon : key ∉ Kind.common) (htag : tag ∈ tags)
    (hof : ofTag o d tag = .ok (.keyword key v)) (schema : Fields Value) :
    ∃ w, ((ofTags o d tags).foldl onSchema schema).get? key = some w := by
  have hmem := mem_written.mpr ⟨tag, htag, hof⟩
  rw [get?_foldl_onSchema hcommon]
  cases hlast : ((ofTags o d tags).filterMap (written? key)).getLast? with
  | none =>
    rw [List.getLast?_eq_none_iff.mp hlast] at hmem
    cases hmem
  | some w => exact ⟨w, rfl⟩

/-- Where all tags of its kind write the same value, the keyword has that value. -/
theorem get?_of_writers (hwriter : (k, key) ∈ Kind.writers) (hschema : schema.get? key = none)
    (htag : tag ∈ tags) (hof : ofTag o d tag = .ok (.keyword key v))
    (hsame : ∀ other ∈ tags, other.kind? = some k → ofTag o d other = ofTag o d tag) :
    ((ofTags o d tags).foldl onSchema schema).get? key = some v := by
  obtain ⟨w, hw⟩ := get?_of_writer (Kind.writers_not_common _ hwriter) htag hof schema
  obtain ⟨other, hother, hkind, hofother⟩ := writer_of_get? hwriter hschema hw
  rw [hsame other hother hkind, hof] at hofother
  cases hofother
  exact hw

end Effect

namespace FieldType

theorem get?_primitive {key : String} (hbson : key ≠ "bsonType") (htype : key ≠ "type")
    (hpattern : key ≠ "pattern") (name : Text) : (primitive name).get? key = none := by
  unfold primitive
  split
  · simp [Fields.get?, Ne.symm hbson]
  · split
    · simp [Fields.get?, Ne.symm htype, Ne.symm hpattern]
    · split <;> simp [Fields.get?, Ne.symm htype]

/-- The type of a field writes only keywords that are common. -/
theorem get?_resolve {field rawType : Text} {found tags : List Tag} {schema : Fields Value}
    {key : String} (hcommon : key ∉ Kind.common)
    (h : resolve field rawType found = .ok (schema, tags)) : schema.get? key = none := by
  have hne {key' : String} (hmem : key' ∈ Kind.common) : key ≠ key' :=
    fun he => hcommon (he ▸ hmem)
  have htype := @hne "type" (by decide)
  rcases resolve_eq_ok.mp h with ⟨-, i, -, rfl, -⟩ | ⟨-, rfl, -⟩
  · have hitems := @hne "items" (by decide)
    simp [arraySchema, Fields.get?, Ne.symm htype, Ne.symm hitems]
  · exact get?_primitive (hne (by decide)) htype (hne (by decide)) _

end FieldType

/-- The schema that the line of a field leaves in its block. -/
theorem Block.get?_addStatement {env : Setting} {line : SourceLine} {b : Block}
    (hfield : isTag line.text = false) (hok : (b.addStatement env line).failure = none) :
    ∃ d offset found schema tags, Declaration.read? line.text = some (d, offset) ∧
      Tag.scan offset d.rawType = .ok found ∧
      FieldType.resolve d.field d.rawType found = .ok (schema, tags) ∧
      (∀ tag ∈ tags, ∃ e, Effect.ofTag env.options d tag = .ok e) ∧
      (b.addStatement env line).state.properties.get? (Text.str d.field) =
        some (.object ((Effect.ofTags env.options d tags).foldl Effect.onSchema schema)) := by
  obtain ⟨c, events, htakes, hc, -⟩ := takes_of_ok hok
  cases htakes with
  | tag htag | skipped htag => simp [hfield] at htag
  | @field d schema tags ignored _ hprepare heffects =>
    obtain ⟨offset, found, hread, hscan, hresolve⟩ := prepare_eq_ok.mp hprepare
    refine ⟨d, offset, found, schema, tags, hread, hscan, hresolve, heffects, ?_⟩
    rw [state_addStatement hok, hc, absorb, Fields.get?_putAll]
    simp [Contribution.ofField, Fields.get?]

end ModelSchema
