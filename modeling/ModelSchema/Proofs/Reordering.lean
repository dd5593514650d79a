import Mathlib.Logic.Function.Iterate
import ModelSchema.Proofs.Contribution

namespace ModelSchema

namespace Tag

/-- The names of the tags that are about the format. -/
def formatNames : List String := ["format", "email", "uuid"]

/-- The group of the tags with this name: the name, or `none` if they are about the format. Each
place that the tags of a field write to is written by one group. -/
def groupOf (name : String) : Option String := if name ∈ formatNames then none else some name

def group (t : Tag) : Option String := groupOf (Text.str t.name)

/-- The same tags in another order. Tags with the same name keep their order, and so do the tags
that are about the format. -/
structure Reordered (tags tags' : List Tag) : Prop where
  perm : tags.Perm tags'
  names : ∀ tag ∈ tags, tags.filter (·.name = tag.name) = tags'.filter (·.name = tag.name)
  formats : tags.filter (Text.str ·.name ∈ formatNames) =
    tags'.filter (Text.str ·.name ∈ formatNames)

variable {tags tags' : List Tag}

theorem Reordered.filter_name (h : Reordered tags tags') (name : Text) :
    tags.filter (·.name = name) = tags'.filter (·.name = name) := by
  by_cases hname : ∃ tag ∈ tags, tag.name = name
  · obtain ⟨tag, htag, rfl⟩ := hname
    exact h.names tag htag
  · have hnone (ts : List Tag) (hts : ts.Perm tags) : ts.filter (·.name = name) = [] := by
      rw [List.filter_eq_nil_iff]
      intro tag htag heq
      exact hname ⟨tag, hts.mem_iff.mp htag, of_decide_eq_true heq⟩
    rw [hnone tags (.refl _), hnone tags' h.perm.symm]

/-- The tags of every group keep their order. -/
theorem Reordered.filter_group (h : Reordered tags tags') (g : Option String) :
    tags.filter (·.group = g) = tags'.filter (·.group = g) := by
  cases g with
  | none =>
    have hgroup (tag : Tag) : tag.group = none ↔ Text.str tag.name ∈ formatNames := by
      simp [group, groupOf]
    simp only [hgroup]
    exact h.formats
  | some name =>
    have hgroup (tag : Tag) :
        tag.group = some name ↔ name ∉ formatNames ∧ tag.name = name.toList := by
      constructor
      · intro h
        by_cases hformat : Text.str tag.name ∈ formatNames
        · simp [group, groupOf, hformat] at h
        · obtain rfl : Text.str tag.name = name := by simpa [group, groupOf, hformat] using h
          exact ⟨hformat, by rw [Text.str, String.toList_ofList]⟩
      · intro h
        obtain ⟨hformat, hname⟩ := h
        have hstr : Text.str tag.name = name := by rw [hname, Text.str, String.ofList_toList]
        rw [group, hstr, groupOf, if_neg hformat]
    simp only [hgroup, ← List.filter_filter, Bool.decide_and, h.filter_name]

end Tag

namespace Effect

/-- The group of the tags that write a keyword. -/
def keywordGroup (key : String) : Option String :=
  if key = "anyOf" then none else if key = "$ref" then some "ref" else Tag.groupOf key

/-- A tag of this group can have the effect. -/
def Fits (group : Option String) : Effect → Prop
  | .require => group = some "required"
  | .hint _ => group = some "ui"
  | .permit _ => group = some "can"
  | .timestampOrEmpty => group = none
  | .keyword key _ => key ≠ "type" ∧ group = keywordGroup key
  | .ignore => True

variable {o : Options} {d : Declaration} {tag : Tag} {tags tags' : List Tag}

theorem groupOf_keywords : ∀ p ∈ Kind.keywords, p.2 ≠ "type" ∧
    ∀ q ∈ Kind.names, q.2 = p.1 → Tag.groupOf q.1 = keywordGroup p.2 := by decide

theorem group_of_kind {k : Kind} {g : Option String} (h : tag.kind? = some k)
    (hnames : ∀ q ∈ Kind.names, q.2 = k → Tag.groupOf q.1 = g) : tag.group = g :=
  hnames _ (Kind.mem_names h) rfl

theorem fits_ofTag (o : Options) (d : Declaration) (tag : Tag) :
    Attempt.GivesIn (Fits tag.group) (ofTag o d tag) := by
  intro e h
  cases madeBy_ofTag o d tag e h with
  | require hkind | hint hkind | permit hkind | timestampOrEmpty hkind =>
    exact group_of_kind hkind (by decide)
  | reference hkind hcall => exact ⟨by decide, group_of_kind hkind (by decide)⟩
  | keyword hkind hkey =>
    obtain ⟨htype, hgroup⟩ := groupOf_keywords _ hkey
    exact ⟨htype, group_of_kind hkind hgroup⟩
  | ignore hkind => trivial

/-- What only tags of one group can give is the same after a reordering. -/
theorem flatMap_ofTags {β : Type} {f : Effect → List β} (g : Option String)
    (hf : ∀ group e, Fits group e → f e ≠ [] → group = g) (h : Tag.Reordered tags tags') :
    (ofTags o d tags).flatMap f = (ofTags o d tags').flatMap f := by
  have hfilter (ts : List Tag) :
      (ofTags o d (ts.filter (·.group = g))).flatMap f = (ofTags o d ts).flatMap f := by
    induction ts with
    | nil => rfl
    | cons tag ts ih =>
      by_cases hgroup : tag.group = g
      · rw [List.filter_cons_of_pos (by simpa using hgroup)]
        simp only [ofTags, List.filterMap_cons] at ih ⊢
        cases (ofTag o d tag).toOption with
        | none => exact ih
        | some e => simp only [List.flatMap_cons, ih]
      · rw [List.filter_cons_of_neg (by simpa using hgroup), ih]
        simp only [ofTags, List.filterMap_cons]
        cases hof : ofTag o d tag with
        | error failure => rfl
        | ok e =>
          have hnil : f e = [] := by
            by_contra hne
            exact hgroup (hf _ e (fits_ofTag o d tag e hof) hne)
          simp only [Except.toOption, List.flatMap_cons, hnil, List.nil_append]
  rw [← hfilter tags, h.filter_group, hfilter]

end Effect

namespace Fields

variable {α : Type} {key : String}

theorem commute_erase_putAll {new : Fields α} (hnew : ∀ e ∈ new, e.1 ≠ key) :
    Function.Commute (erase key) (putAll new) := by
  intro old
  induction new generalizing old with
  | nil => rfl
  | cons e new ih =>
    obtain ⟨hne, hrest⟩ := List.forall_mem_cons.mp hnew
    rw [putAll, List.foldl_cons, ← putAll, ih hrest, erase_put hne]
    rfl

end Fields

namespace Effect

variable {o : Options} {d : Declaration} {tags tags' : List Tag}

/-- What an effect writes to the schema. -/
def entries : Effect → Fields Value
  | .keyword key v => [(key, v)]
  | .timestampOrEmpty => [("anyOf", FieldState.timestampOrEmpty)]
  | _ => []

/-- The effect removes the type from the schema. -/
def retypes : Effect → Bool
  | .timestampOrEmpty => true
  | _ => false

theorem onSchema_eq (e : Effect) (schema : Fields Value) :
    e.onSchema schema =
      Fields.putAll e.entries ((Fields.erase "type")^[if e.retypes then 1 else 0] schema) := by
  cases e <;> rfl

/-- No tag writes the type, so that all removals of it can come first. -/
theorem foldl_onSchema {es : List Effect} (h : ∀ e ∈ es, ∀ p ∈ e.entries, p.1 ≠ "type")
    (schema : Fields Value) :
    es.foldl onSchema schema =
      Fields.putAll (es.flatMap entries) ((Fields.erase "type")^[es.countP retypes] schema) := by
  induction es generalizing schema with
  | nil => rfl
  | cons e es ih =>
    obtain ⟨he, hes⟩ := List.forall_mem_cons.mp h
    have hcomm := (Fields.commute_erase_putAll he).iterate_left (es.countP retypes)
    rw [List.foldl_cons, ih hes, onSchema_eq, hcomm, ← Function.iterate_add_apply,
      ← Fields.putAll_append, ← List.flatMap_cons, ← List.countP_cons]

/-- An entry is written by the tags of its own group, and none is for the type. -/
theorem group_of_entry {group : Option String} {e : Effect} {p : String × Value}
    (hfits : Fits group e) (hp : p ∈ e.entries) : p.1 ≠ "type" ∧ group = keywordGroup p.1 := by
  cases e with
  | keyword key v =>
    obtain rfl : p = (key, v) := by simpa [entries] using hp
    exact hfits
  | timestampOrEmpty =>
    obtain rfl : p = ("anyOf", FieldState.timestampOrEmpty) := by simpa [entries] using hp
    exact ⟨by decide, hfits⟩
  | _ => cases hp

theorem entries_ne_type {e : Effect} (he : e ∈ ofTags o d tags) :
    ∀ p ∈ e.entries, p.1 ≠ "type" := by
  intro p hp
  obtain ⟨tag, -, hof⟩ := mem_ofTags.mp he
  exact (group_of_entry (fits_ofTag o d tag e hof) hp).1

theorem get?_foldl_onSchema_reordered (h : Tag.Reordered tags tags') (schema : Fields Value)
    (key : String) :
    ((ofTags o d tags).foldl onSchema schema).get? key =
      ((ofTags o d tags').foldl onSchema schema).get? key := by
  have hentries : ((ofTags o d tags).flatMap entries).filter (·.1 = key) =
      ((ofTags o d tags').flatMap entries).filter (·.1 = key) := by
    simp only [List.filter_flatMap]
    apply flatMap_ofTags (keywordGroup key) _ h
    intro group e hfits hne
    obtain ⟨p, hp⟩ := List.exists_mem_of_ne_nil _ hne
    obtain ⟨hentry, hkey⟩ := List.mem_filter.mp hp
    obtain rfl : p.1 = key := of_decide_eq_true hkey
    exact (group_of_entry hfits hentry).2
  have hwritten : Fields.get? key ((ofTags o d tags).flatMap entries).reverse =
      Fields.get? key ((ofTags o d tags').flatMap entries).reverse := by
    rw [← Fields.get?_filter, List.filter_reverse, hentries, ← List.filter_reverse,
      Fields.get?_filter]
  have hcount : (ofTags o d tags).countP retypes = (ofTags o d tags').countP retypes :=
    (h.perm.filterMap _).countP_eq _
  rw [foldl_onSchema (fun _ => entries_ne_type), foldl_onSchema (fun _ => entries_ne_type),
    Fields.get?_putAll, Fields.get?_putAll, hwritten, hcount]

theorem concat_gathered_reordered (h : Tag.Reordered tags tags') (field : String) :
    Gathered.concat ((ofTags o d tags).map (gathered field)) =
      Gathered.concat ((ofTags o d tags').map (gathered field)) := by
  have heach {β : Type} (proj : Gathered → List β) (g : Option String)
      (hproj : ∀ group e, Fits group e → proj (gathered field e) ≠ [] → group = g) :
      ((ofTags o d tags).map (gathered field)).flatMap proj =
        ((ofTags o d tags').map (gathered field)).flatMap proj := by
    rw [List.flatMap_map, List.flatMap_map]
    exact flatMap_ofTags g hproj h
  rw [Gathered.concat, Gathered.concat, heach Gathered.required (some "required") ?_,
    heach Gathered.hints (some "ui") ?_, heach Gathered.rules none ?_,
    heach Gathered.sort none ?_, heach Gathered.breadcrumb none ?_,
    heach Gathered.collection none ?_, heach Gathered.fieldPermissions (some "can") ?_]
  -- An effect has the entry of its group, or none at all.
  all_goals
    intro group e hfits hne
    cases e <;> first | exact hfits | exact absurd rfl hne

end Effect

namespace FieldState

variable {o : Options} {d : Declaration} {tags : List Tag} {s : FieldState}

theorem applyTags_eq_none : (applyTags o d tags s).failure = none ↔
    ∀ tag ∈ tags, ∃ e, Effect.ofTag o d tag = .ok e := by
  constructor
  · intro hok
    exact (applyTags_ok hok).1
  · intro hall
    by_contra hne
    obtain ⟨f, hf⟩ := Option.ne_none_iff_exists'.mp hne
    obtain ⟨before, tag, after, rfl, -, herror⟩ := applyTags_eq_some.mp hf
    obtain ⟨e, he⟩ := hall tag (by simp)
    cases he.symm.trans herror

/-- Tags that write to different places may change places. -/
theorem applyTags_reordered (o : Options) (d : Declaration) (s : FieldState) {tags tags' : List Tag}
    (h : Tag.Reordered tags tags') :
    let done := applyTags o d tags s
    let done' := applyTags o d tags' s
    (done.failure = none ↔ done'.failure = none) ∧
      (done.failure = none →
        (∀ key, done.state.schema.get? key = done'.state.schema.get? key) ∧
          done.state.gathered = done'.state.gathered) := by
  have hsame : (applyTags o d tags s).failure = none ↔ (applyTags o d tags' s).failure = none := by
    simp only [applyTags_eq_none, h.perm.mem_iff]
  refine ⟨hsame, fun hok => ?_⟩
  rw [(applyTags_ok hok).2, (applyTags_ok (hsame.mp hok)).2, foldl_apply, foldl_apply]
  refine ⟨Effect.get?_foldl_onSchema_reordered h s.schema, ?_⟩
  dsimp only
  rw [Effect.concat_gathered_reordered h]

/-- Tags of six names, two of them twice and two about the format. -/
def mixedTags : List Tag :=
  [⟨"required".toList, none, 8⟩, ⟨"email".toList, none, 18⟩, ⟨"ui".toList, some "a, b".toList, 25⟩,
    ⟨"format".toList, some "date-time".toList, 35⟩, ⟨"minLength".toList, some "3".toList, 54⟩,
    ⟨"ui".toList, some "c, d".toList, 68⟩, ⟨"minLength".toList, some "5".toList, 78⟩,
    ⟨"can".toList, some "view: \"all\"".toList, 92⟩]

/-- The same tags, the last of them first. -/
def turnedTags : List Tag :=
  [⟨"can".toList, some "view: \"all\"".toList, 92⟩, ⟨"minLength".toList, some "3".toList, 54⟩,
    ⟨"minLength".toList, some "5".toList, 78⟩, ⟨"email".toList, none, 18⟩,
    ⟨"format".toList, some "date-time".toList, 35⟩, ⟨"ui".toList, some "a, b".toList, 25⟩,
    ⟨"ui".toList, some "c, d".toList, 68⟩, ⟨"required".toList, none, 8⟩]

theorem applyTags_reordered_turned :
    let d : Declaration := ⟨"mail".toList, "string".toList⟩
    let s : FieldState := ⟨[("type", .text "string")], {}⟩
    let done := applyTags {} d mixedTags s
    let done' := applyTags {} d turnedTags s
    Tag.Reordered mixedTags turnedTags ∧ done.failure = none ∧
      done.state.schema.keys = ["format", "anyOf", "minLength"] ∧
      done'.state.schema.keys = ["minLength", "format", "anyOf"] ∧
      (∀ key, done.state.schema.get? key = done'.state.schema.get? key) ∧
      done.state.gathered = done'.state.gathered := by
  intro d s done done'
  have hreordered : Tag.Reordered mixedTags turnedTags := ⟨by decide, by decide, by decide⟩
  have hok : done.failure = none := by rfl
  have hkeys : done.state.schema.keys = ["format", "anyOf", "minLength"] := by rfl
  have hkeys' : done'.state.schema.keys = ["minLength", "format", "anyOf"] := by rfl
  exact ⟨hreordered, hok, hkeys, hkeys', (applyTags_reordered {} d s hreordered).2 hok⟩

end FieldState

end ModelSchema
