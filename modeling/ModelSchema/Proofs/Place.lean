import ModelSchema.Proofs.Refinement

namespace ModelSchema

/-- The lines of a document form this forest. -/
structure Forest.Outlines (F : Forest) (text : Text) : Prop where
  lines : F.lines = SourceLine.read text
  wellFormed : F.WellFormed

namespace Forest.Outlines

variable {F G : Forest} {text : Text}

/-- The lines of a document form one forest at most. -/
theorem unique (hF : F.Outlines text) (hG : G.Outlines text) : F = G :=
  lines_inj hF.wellFormed hG.wellFormed (hF.lines.trans hG.lines.symm)

theorem nodup_numbers (hF : F.Outlines text) : (F.lines.map SourceLine.number).Nodup := by
  rw [hF.lines]
  exact SourceLine.nodup_numbers text

end Forest.Outlines

/-- A document that compiles has a forest, and the schema of the forest. -/
theorem exists_outlines {env : Setting} {text : Text} (hok : (compile env text).failure = none) :
    ∃ F : Forest, F.Outlines text ∧ F.Compiles env ∧ F.models ≤ 1 ∧
      (compile env text).state = F.schema env := by
  obtain ⟨F, hlines, hF, hc, hmodels⟩ := Machine.forest_of_run hok
  have houtlines : F.Outlines text := ⟨hlines, hF⟩
  have hrun := Machine.run_forest hF hc hmodels houtlines.nodup_numbers
  refine ⟨F, houtlines, hc, hmodels, ?_⟩
  rw [← Forest.toValue_placeAll hF hmodels, ← hrun.2, hlines]
  rfl

theorem Gathered.get?_unlessEmpty (k : String) (empty : Bool) (key : String) (v : Value) :
    Fields.get? k (unlessEmpty empty key v) =
      if key = k then if empty then none else some v else none := by
  cases empty <;> simp [unlessEmpty, Fields.get?]

theorem Fields.get?_filterMap {α : Type} (f : String → Option α) (k : String) (ks : List String) :
    get? k (ks.filterMap fun k => (f k).map fun v => (k, v)) = if k ∈ ks then f k else none := by
  induction ks with
  | nil => rfl
  | cons j ks ih =>
    by_cases hj : k = j
    · subst hj
      cases hf : f k with
      | none => simp [hf, ih]
      | some v => simp [hf, get?]
    · have hne : ¬j = k := fun h => hj h.symm
      cases hf : f j with
      | none => simp [hf, ih, hj]
      | some v => simp [hf, get?, ih, hj, hne]

theorem Fields.mem_keys_iff {α : Type} {k : String} {fs : Fields α} :
    k ∈ fs.keys ↔ ∃ v, fs.get? k = some v := by
  induction fs with
  | nil => simp [keys, get?]
  | cons e fs ih =>
    change k ∈ e.1 :: keys fs ↔ _
    by_cases h : e.1 = k
    · simp [get?, h]
    · have hne : ¬k = e.1 := fun he => h he.symm
      simp [get?, h, hne, ih]

namespace Forest

variable {env : Setting} {F : Forest} {key : String}

theorem mem_keys : key ∈ F.keys ↔ ∃ s ∈ F.sections, s.isDefinition = true ∧ s.key = key := by
  simp [keys, and_assoc]

theorem last?_eq_some {s : Section} (h : F.last? key = some s) :
    s.isDefinition = true ∧ s.key = key ∧ ∃ before after, F.sections = before ++ s :: after ∧
      ∀ t ∈ after, t.isDefinition = true → t.key ≠ key := by
  obtain ⟨hs, after, before, hsplit, hafter⟩ := List.find?_eq_some_iff_append.mp h
  simp only [Bool.and_eq_true, beq_iff_eq] at hs
  refine ⟨hs.1, hs.2, before.reverse, after.reverse, ?_, ?_⟩
  · have hreverse := congrArg List.reverse hsplit
    simpa using hreverse
  · intro t ht hdef hkey
    have hnot := hafter t (List.mem_reverse.mp ht)
    simp [hdef, hkey] at hnot

theorem last?_isSome : (F.last? key).isSome = true ↔ key ∈ F.keys := by
  simp [last?, mem_keys]

theorem get?_definitions (env : Setting) (F : Forest) (key : String) :
    (F.definitions env).get? key = (F.last? key).map (Section.node env) := by
  have hget := Fields.get?_filterMap (fun k => (F.last? k).map (Section.node env)) key F.keys
  simp only [Option.map_map] at hget
  refine hget.trans ?_
  split
  · rfl
  · rename_i hkey
    cases hlast : F.last? key with
    | none => rfl
    | some s => exact absurd (last?_isSome.mp (by rw [hlast]; rfl)) hkey

theorem mem_keys_definitions : key ∈ (F.definitions env).keys ↔ key ∈ F.keys := by
  rw [Fields.mem_keys_iff, get?_definitions, ← last?_isSome, Option.isSome_iff_exists]
  simp

end Forest

/-- The definitions of a schema. -/
def Value.definitions? (v : Value) : Option (Fields Value) :=
  (v.fields?.bind (Fields.get? "$defs")).bind fields?

/-- Where the object of a block can stand: at the root, or under the key of a definition. -/
inductive Place where
  | root
  | definition (key : String)

/-- The object at a place of a schema. Only a model gives the root a title, and only an array has
items. -/
def Value.objectAt? (v : Value) : Place → Option (Fields Value)
  | .root => v.fields?.filter (Fields.has "title")
  | .definition key =>
    match (v.definitions?.bind (Fields.get? key)).bind fields? with
    | none => none
    | some node =>
      match node.get? "items" with
      | none => some node
      | some items => items.fields?

/-- The block whose object stands at a place. -/
def Forest.blockAt? (F : Forest) : Place → Option Section
  | .root => F.model?
  | .definition key => F.last? key

namespace Forest

variable {env : Setting} {F : Forest} {p : Place}

theorem definitions?_schema : (F.schema env).definitions? = some (F.definitions env) := rfl

theorem objectAt?_of_blockAt? {s : Section} (h : F.blockAt? p = some s) :
    ∃ front, (F.schema env).objectAt? p = some (front ++ s.object env) ∧
      ∀ k, k ≠ "$defs" → k ≠ "title" → Fields.get? k front = none := by
  cases p with
  | root =>
    have hroot : F.root env = ("title", .text s.key) :: s.object env := by
      simp only [root, show F.model? = some s from h]
    refine ⟨[("$defs", .object (F.definitions env)), ("title", .text s.key)], ?_, ?_⟩
    · simp [Value.objectAt?, schema, Value.fields?, hroot, Fields.has, Fields.get?]
    · intro k hdefs htitle
      simp [Fields.get?, Ne.symm hdefs, Ne.symm htitle]
  | definition key =>
    refine ⟨[], ?_, fun _ _ _ => rfl⟩
    have hget : (F.definitions env).get? key = some (s.node env) := by
      rw [get?_definitions, show F.last? key = some s from h]
      rfl
    have hplain : Fields.get? "items" (s.object env) = none := by
      simp [Section.object, Fields.get?, ← Gathered.entries_eq_written, Gathered.entries,
        Gathered.plainEntries, Fields.get?_append, Gathered.get?_unlessEmpty]
    simp only [Value.objectAt?, definitions?_schema, Option.bind_some, hget, List.nil_append]
    have hdefinition := (last?_eq_some h).1
    cases hshape : s.heading.shape with
    | model => simp [Section.isDefinition, hshape] at hdefinition
    | object => simp [Section.node, hshape, Value.fields?, hplain]
    | array => simp [Section.node, hshape, Value.fields?, Fields.get?]

theorem objectAt?_of_blockAt?_eq_none (h : F.blockAt? p = none) :
    (F.schema env).objectAt? p = none := by
  cases p with
  | root =>
    have hroot : F.root env = [] := by simp only [root, show F.model? = none from h]
    simp [Value.objectAt?, schema, Value.fields?, hroot, Fields.has, Fields.get?]
  | definition key =>
    have hget : (F.definitions env).get? key = none := by
      rw [get?_definitions, show F.last? key = none from h]
      rfl
    simp [Value.objectAt?, definitions?_schema, hget]

/-- What stands at a place is the object of a block, but for the keys that only a root has. -/
theorem objectAt?_eq_some {node : Fields Value} (h : (F.schema env).objectAt? p = some node) :
    ∃ s, F.blockAt? p = some s ∧
      ∀ k, k ≠ "$defs" → k ≠ "title" → node.get? k = Fields.get? k (s.object env) := by
  cases hblock : F.blockAt? p with
  | none =>
    rw [objectAt?_of_blockAt?_eq_none hblock] at h
    cases h
  | some s =>
    obtain ⟨front, hnode, hfront⟩ := @objectAt?_of_blockAt? env F p s hblock
    rw [hnode] at h
    cases h
    refine ⟨s, rfl, fun k hdefs htitle => ?_⟩
    rw [Fields.get?_append, hfront k hdefs htitle, Option.none_or]

theorem mem_sections_of_blockAt? {s : Section} (h : F.blockAt? p = some s) : s ∈ F.sections := by
  cases p with
  | root => exact List.mem_of_find?_eq_some h
  | definition key =>
    obtain ⟨-, -, before, after, hsplit, -⟩ := last?_eq_some h
    simp [hsplit]

end Forest

end ModelSchema
