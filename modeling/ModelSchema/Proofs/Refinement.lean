import ModelSchema.Proofs.Document

namespace ModelSchema

namespace Gathered

/-- What a block can add to its schema, in order: whether it is empty, its key and its value. -/
def additions (g : Gathered) : List (Bool × String × Value) :=
  [(g.hints.isEmpty, "ui", g.hintsValue),
    (g.required.isEmpty, "required", .texts g.required),
    (g.rules.isEmpty, "allOf", .array (g.rules.map Rule.toValue)),
    (g.sort.isEmpty, "sort", .array (g.sort.map SortRule.toValue)),
    (g.breadcrumb.isEmpty, "breadcrumb", .array (g.breadcrumb.map BreadcrumbRule.toValue)),
    (g.collection.isEmpty && g.fieldPermissions.isEmpty, "permissions", .object g.permissions)]

/-- The additions that are not empty. -/
def written (g : Gathered) : Fields Value := (g.additions.filter (!·.1)).map Prod.snd

private theorem filter_cons_eq (a : Bool × String × Value) (as : List (Bool × String × Value)) :
    ((a :: as).filter (!·.1)).map Prod.snd =
      unlessEmpty a.1 a.2.1 a.2.2 ++ (as.filter (!·.1)).map Prod.snd := by
  cases hempty : a.1 <;> simp [unlessEmpty, hempty]

theorem permissions_isEmpty (g : Gathered) :
    g.permissions.isEmpty = (g.collection.isEmpty && g.fieldPermissions.isEmpty) := by
  unfold permissions
  cases g.collection.isEmpty <;> cases g.fieldPermissions.isEmpty <;> rfl

theorem entries_eq_written (g : Gathered) : g.entries = g.written := by
  simp only [written, additions, filter_cons_eq, List.filter_nil, List.map_nil, List.append_nil,
    entries, plainEntries, permissions_isEmpty, List.append_assoc]

end Gathered

namespace Section

/-- The key of a block is its name in small letters. -/
def key (s : Section) : String := FieldType.definitionKey s.heading.name

def isDefinition (s : Section) : Bool := s.heading.shape != .model

/-- The object that a block describes, from its own statements only. -/
def object (env : Setting) (s : Section) : Fields Value :=
  ("type", .text "object") :: ("properties", .object (s.frame env).properties) ::
    (s.frame env).gathered.written

def node (env : Setting) (s : Section) : Value :=
  match s.heading.shape with
  | .array => .object [("type", .text "array"), ("items", .object (s.object env))]
  | _ => .object (s.object env)

theorem frame_key (env : Setting) (s : Section) : (s.frame env).key = s.key :=
  congrArg (fun h : Heading => FieldType.definitionKey h.name) (s.frame_heading env)

theorem frame_number (env : Setting) (s : Section) :
    (s.frame env).header.number = s.heading.line.number :=
  congrArg (fun h : Heading => h.line.number) (s.frame_heading env)

theorem frame_shape (env : Setting) (s : Section) : (s.frame env).shape = s.heading.shape :=
  congrArg Heading.shape (s.frame_heading env)

theorem body_eq_object (env : Setting) (s : Section) :
    (s.frame env).body (s.frame env).gathered.entries = s.object env := by
  rw [Block.body, object, Gathered.entries_eq_written]

theorem closedSchema_eq_node (env : Setting) {s : Section} (h : s.isDefinition = true) :
    .object (s.frame env).closedSchema = s.node env := by
  have hshape := s.frame_shape env
  simp only [Block.closedSchema, Block.schema, node, body_eq_object, hshape]
  cases hcase : s.heading.shape with
  | model => simp [isDefinition, hcase] at h
  | object => rfl
  | array => rfl

theorem closedSchema_eq_root (env : Setting) {s : Section} (h : s.isDefinition = false) :
    (s.frame env).closedSchema = ("title", .text s.key) :: s.object env := by
  have hmodel : s.heading.shape = .model := by simpa [isDefinition] using h
  simp only [Block.closedSchema, Block.schema, body_eq_object, s.frame_shape env, hmodel,
    frame_key]

end Section

namespace Forest

/-- The keys of the definitions, in the order of their first headers. -/
def keys (F : Forest) : List String :=
  ((F.sections.filter Section.isDefinition).map Section.key).eraseDups

/-- The definition with this key whose header comes last. -/
def last? (F : Forest) (key : String) : Option Section :=
  F.sections.reverse.find? fun s => s.isDefinition && s.key == key

def definitions (env : Setting) (F : Forest) : Fields Value :=
  F.keys.filterMap fun k => (F.last? k).map fun s => (k, s.node env)

def model? (F : Forest) : Option Section := F.sections.find? (!·.isDefinition)

/-- What the model adds beside the definitions. -/
def root (env : Setting) (F : Forest) : Fields Value :=
  match F.model? with
  | none => []
  | some s => ("title", .text s.key) :: s.object env

def schema (env : Setting) (F : Forest) : Value :=
  .object (("$defs", .object (F.definitions env)) :: F.root env)

end Forest

namespace Document

variable {env : Setting}

theorem placeAll_definitions (ss : List Section) (d : Document) :
    (d.placeAll env ss).definitions =
      Fields.putAll ((ss.filter Section.isDefinition).map fun s =>
        (s.key, ⟨s.heading.line.number, (s.frame env).closedSchema⟩)) d.definitions := by
  induction ss generalizing d with
  | nil => rfl
  | cons s ss ih =>
    rw [placeAll_cons, ih]
    cases hs : s.isDefinition with
    | true =>
      have hshape : (s.frame env).shape ≠ .model := by
        rw [s.frame_shape env]
        simpa [Section.isDefinition] using hs
      rw [place_of_definition hshape, List.filter_cons_of_pos hs]
      simp only [define, List.map_cons, s.frame_key env, s.frame_number env]
      rfl
    | false =>
      have hshape : (s.frame env).shape = .model := by
        rw [s.frame_shape env]
        simpa [Section.isDefinition] using hs
      rw [place_of_model hshape, List.filter_cons_of_neg (by simp [hs])]

theorem placeAll_root (ss : List Section) (d : Document) :
    (d.placeAll env ss).root =
      (((ss.filter (!·.isDefinition)).getLast?).map fun s =>
        (s.frame env).closedSchema).getD d.root := by
  induction ss generalizing d with
  | nil => rfl
  | cons s ss ih =>
    rw [placeAll_cons, ih]
    cases hs : s.isDefinition with
    | true =>
      have hshape : (s.frame env).shape ≠ .model := by
        rw [s.frame_shape env]
        simpa [Section.isDefinition] using hs
      rw [place_of_definition hshape, List.filter_cons_of_neg (by simp [hs])]
      rfl
    | false =>
      have hshape : (s.frame env).shape = .model := by
        rw [s.frame_shape env]
        simpa [Section.isDefinition] using hs
      rw [place_of_model hshape, List.filter_cons_of_pos (by simp [hs])]
      cases hrest : ss.filter (!·.isDefinition) with
      | nil => rfl
      | cons t ts => simp [List.getLast?_cons]

end Document

namespace Fields

/-- Looking up a key among entries made from a list is finding the first of the list with it. -/
theorem get?_map {α β : Type} (k : String) (key : α → String) (f : α → β) (xs : List α) :
    get? k (xs.map fun x => (key x, f x)) = (xs.find? fun x => key x == k).map f := by
  induction xs with
  | nil => rfl
  | cons x xs ih =>
    by_cases hx : key x = k
    · simp [get?, hx]
    · simpa [get?, hx] using ih

end Fields

namespace Forest

variable {env : Setting}

theorem definitionsValue_placeAll (F : Forest) :
    (Document.placeAll env F.sections {}).definitionsValue = .object (F.definitions env) := by
  have hnode : ∀ s ∈ F.sections.filter Section.isDefinition,
      (s.key, Value.object (s.frame env).closedSchema) = (s.key, s.node env) := by
    intro s hs
    rw [Section.closedSchema_eq_node env (List.mem_filter.mp hs).2]
  rw [Document.definitionsValue, Document.placeAll_definitions,
    Fields.map_putAll fun d : Definition => Value.object d.schema, List.map_map]
  change Value.object (Fields.ofEntries ((F.sections.filter Section.isDefinition).map fun s =>
    (s.key, Value.object (s.frame env).closedSchema))) = _
  rw [List.map_congr_left hnode, Fields.ofEntries_eq, definitions]
  congr 1
  have hkeys : Fields.keys ((F.sections.filter Section.isDefinition).map fun s =>
      (s.key, s.node env)) = (F.sections.filter Section.isDefinition).map Section.key := by
    simp [Fields.keys]
  rw [hkeys]
  apply List.filterMap_congr
  intro k _
  have hfind : (F.sections.filter Section.isDefinition).reverse.find? (·.key == k) = F.last? k := by
    rw [← List.filter_reverse, List.find?_filter, last?]
    simp only [Bool.decide_and, Bool.decide_eq_true]
  rw [← List.map_reverse, Fields.get?_map, hfind, Option.map_map]
  rfl

theorem filter_models_length {F : Forest} (hF : F.WellFormed) :
    (F.sections.filter (!·.isDefinition)).length = F.models := by
  induction F with
  | nil => rfl
  | cons t F ih =>
    have hbody : t.body.sections.filter (!·.isDefinition) = [] := by
      rw [List.filter_eq_nil_iff]
      intro s hs
      have hshape := Body.sections_shape (hF t (by simp)).body s hs
      simpa [Section.isDefinition] using hshape
    have htail := ih fun u hu => hF u (by simp [hu])
    change ((⟨t.heading, t.body.own⟩ :: t.body.sections ++ sections F).filter
      (!·.isDefinition)).length = _
    rw [List.filter_append, List.filter_cons, hbody, models, List.countP_cons, ← models, ← htail]
    by_cases hmodel : t.heading.shape = .model
    · simp [Section.isDefinition, hmodel, Nat.add_comm]
    · simp [Section.isDefinition, hmodel]

theorem root_placeAll {F : Forest} (hF : F.WellFormed) (hmodels : F.models ≤ 1) :
    (Document.placeAll env F.sections {}).root = F.root env := by
  have hlength := filter_models_length hF
  rw [Document.placeAll_root, root, model?, ← List.head?_filter]
  cases hfilter : F.sections.filter (!·.isDefinition) with
  | nil => rfl
  | cons s ss =>
    -- The first model is also the last.
    rw [hfilter, List.length_cons] at hlength
    have hnil : ss = [] := List.eq_nil_of_length_eq_zero (by omega)
    have hs : s ∈ F.sections.filter (!·.isDefinition) := by simp [hfilter]
    have hmodel : s.isDefinition = false := by simpa using (List.mem_filter.mp hs).2
    rw [hnil]
    exact Section.closedSchema_eq_root env hmodel

theorem toValue_placeAll {F : Forest} (hF : F.WellFormed) (hmodels : F.models ≤ 1) :
    (Document.placeAll env F.sections {}).toValue = F.schema env := by
  rw [Document.toValue, definitionsValue_placeAll, root_placeAll hF hmodels]
  rfl

end Forest

/-- The lines of a document that compiles form one forest of blocks, with the blocks in the order
of their headers, and the schema is the schema of that forest. -/
theorem compile_refines_forest (env : Setting) (text : Text)
    (hok : (compile env text).failure = none) :
    ∃ F : Forest, (F.lines = SourceLine.read text ∧ F.WellFormed ∧ F.models ≤ 1) ∧
      (∀ G : Forest, G.lines = SourceLine.read text → G.WellFormed → G = F) ∧
      (F.sections.map fun s => s.heading.line).Sublist (SourceLine.read text) ∧
      (compile env text).state = F.schema env := by
  obtain ⟨hfeed, hstack⟩ := Machine.run_failure_eq_none.mp hok
  obtain ⟨F, hlines, hF, hc, hmodels⟩ := Machine.pending_of_feed rfl hfeed hstack
  refine ⟨F, ⟨hlines, hF, hmodels⟩, ?_, hlines ▸ F.sections_sublist, ?_⟩
  · intro G hG hwf
    exact Forest.lines_inj hwf hF (hG.trans hlines.symm)
  · -- The forest leads the machine through the same lines, and tells what it wrote.
    obtain ⟨modelLine, -, hstate⟩ := Machine.reaches_forest hF hc (m := {}) rfl rfl hmodels
    have hnodup : (F.lines.map SourceLine.number).Nodup := by
      rw [hlines]
      exact List.pairwise_map.mpr ((SourceLine.read_pairwise text).imp Nat.ne_of_lt)
    rw [hlines] at hstate
    have hdocument := congrArg Machine.document hstate
    have hwrite : F.write env {} = Document.placeAll env F.sections {} :=
      Forest.write_eq_placeAll hF hnodup {}
    change (Machine.run env (SourceLine.read text) {}).state.document.toValue = _
    rw [Machine.run_state hfeed, hdocument, hwrite, Document.toValue,
      Forest.definitionsValue_placeAll, Forest.root_placeAll hF hmodels]
    rfl

/-- A definition that is defined again inside itself, with a statement after the inner one. -/
def shadowedText : Text :=
  "def a object \x7b\ndef A array \x7b\nx: number\n\x7d\nw: text\n\x7d\n".toList ++
    "model M object \x7b\ny: a\n\x7d".toList

theorem compile_refines_forest_shadowed :
    (compile {} shadowedText).failure = none ∧
      ∃ F : Forest, (F.lines = SourceLine.read shadowedText ∧ F.WellFormed ∧ F.models ≤ 1) ∧
        (∀ G : Forest, G.lines = SourceLine.read shadowedText → G.WellFormed → G = F) ∧
        (F.sections.map fun s => s.heading.line).Sublist (SourceLine.read shadowedText) ∧
        (compile {} shadowedText).state = F.schema {} := by
  have hok : (compile {} shadowedText).failure = none := by decide +kernel
  exact ⟨hok, compile_refines_forest {} shadowedText hok⟩

end ModelSchema
