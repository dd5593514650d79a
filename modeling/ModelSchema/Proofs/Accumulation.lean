import ModelSchema.Proofs.Contribution
import ModelSchema.Proofs.Place
import ModelSchema.Proofs.Tokens

namespace ModelSchema

/-- The fields with a tag of kind `k`, in the order of the statements, each as often as it has such
a tag. -/
inductive Tagged (k : Kind) : List SourceLine → List String → Prop
  | nil : Tagged k [] []
  | tag {line : SourceLine} {lines : List SourceLine} {names : List String}
      (htag : Block.isTag line.text = true) (hrest : Tagged k lines names) :
      Tagged k (line :: lines) names
  | field {line : SourceLine} {d : Declaration} {offset : Nat} {tags : List Tag}
      {lines : List SourceLine} {names : List String} (htag : Block.isTag line.text = false)
      (hread : Declaration.read? line.text = some (d, offset))
      (htags : Tag.Reading (offset + 1) d.rawType tags) (hrest : Tagged k lines names) :
      Tagged k (line :: lines)
        (List.replicate (tags.countP (·.kind? = some k)) (Text.str d.field) ++ names)

namespace Gathered

/-- The fields that are named by tags of kind `k`. -/
def names (k : Kind) (g : Gathered) : List String :=
  match k with
  | .required => g.required
  | .ui => g.hints.keys
  | .can => g.fieldPermissions.map Prod.fst
  | _ => []

theorem names_concat (k : Kind) (gs : List Gathered) :
    (concat gs).names k = gs.flatMap (names k) := by
  cases k with
  | required => rfl
  | ui | can => exact List.map_flatMap
  | _ => simp [names]

end Gathered

namespace Effect

variable {d : Declaration} {tag : Tag} {e : Effect} {k : Kind}

theorem names_gathered (h : Of d tag e) (hk : k ∈ gathering) (field : String) :
    (e.gathered field).names k = if tag.kind? = some k then [field] else [] := by
  have hcases : k = .required ∨ k = .ui ∨ k = .can := by simpa [gathering] using hk
  cases h with
  | require hkind | hint hkind | permit hkind | reference hkind hcall =>
    rcases hcases with rfl | rfl | rfl <;> simp [hkind, gathered, Gathered.names, Fields.keys]
  | keyword hkind | timestampOrEmpty hkind | ignore hkind =>
    rw [if_neg (hkind k hk)]
    rcases hcases with rfl | rfl | rfl <;> rfl

theorem names_gathered_subset (k : Kind) (field : String) (e : Effect) :
    ∀ n ∈ (e.gathered field).names k, n = field := by
  cases e <;> cases k <;> simp [gathered, Gathered.names, Fields.keys]

theorem names_ofTags {o : Options} {tags : List Tag} (hk : k ∈ gathering)
    (hok : ∀ tag ∈ tags, ∃ e, ofTag o d tag = .ok e) (field : String) :
    (Gathered.concat ((ofTags o d tags).map (gathered field))).names k =
      List.replicate (tags.countP (·.kind? = some k)) field := by
  rw [Gathered.names_concat]
  induction tags with
  | nil => rfl
  | cons tag tags ih =>
    obtain ⟨⟨e, he⟩, hrest⟩ := List.forall_mem_cons.mp hok
    have htail := ih hrest
    have hcons : ofTags o d (tag :: tags) = e :: ofTags o d tags := by
      simp [ofTags, he, Except.toOption]
    rw [hcons, List.map_cons, List.flatMap_cons, htail,
      names_gathered (of_ofTag o d tag e he) hk, List.countP_cons]
    by_cases hkind : tag.kind? = some k
    · simp [hkind, List.replicate_succ]
    · simp [hkind]

end Effect

namespace FieldType

/-- The tag of an item reference is none by which a block gathers something. -/
theorem kind?_of_reference {tag : Tag} {name : Text}
    (h : tag.raw = "@ref(".toList ++ name ++ [')']) {k : Kind} (hk : k ∈ Effect.gathering) :
    tag.kind? ≠ some k := by
  intro hkind
  have hmem := Kind.mem_names hkind
  have hname {n : String} (hn : Text.str tag.name = n) : tag.name = n.toList := by
    rw [← hn, Text.str, String.toList_ofList]
  have hcases : k = .required ∨ k = .ui ∨ k = .can := by simpa [Effect.gathering] using hk
  rcases hcases with rfl | rfl | rfl
  all_goals
    have hn := hname (by simpa [Kind.names] using hmem)
    simp [Tag.raw, hn] at h

theorem countP_dropItemTag (i : Item) (tags : List Tag) {k : Kind} (hk : k ∈ Effect.gathering) :
    (dropItemTag i tags).countP (·.kind? = some k) = tags.countP (·.kind? = some k) := by
  cases i with
  | primitive name => rfl
  | reference name =>
    simp only [dropItemTag]
    rcases List.exists_or_eq_self_of_eraseP
      (fun tag : Tag => decide (tag.raw = "@ref(".toList ++ name ++ [')'])) tags with
      hsame | ⟨tag, before, after, -, htag, hsplit, herase⟩
    · rw [hsame]
    · have hkind := kind?_of_reference (of_decide_eq_true htag) hk
      rw [herase, hsplit]
      simp [hkind]

theorem countP_resolve {field rawType : Text} {found tags : List Tag} {schema : Fields Value}
    (h : resolve field rawType found = .ok (schema, tags)) {k : Kind} (hk : k ∈ Effect.gathering) :
    tags.countP (·.kind? = some k) = found.countP (·.kind? = some k) := by
  rcases resolve_eq_ok.mp h with ⟨-, i, -, -, rfl⟩ | ⟨-, -, rfl⟩
  · exact countP_dropItemTag i found hk
  · rfl

end FieldType

namespace Gathered

/-- Nothing was gathered by tags of kind `k` about the block. -/
def Lacks (k : Kind) (g : Gathered) : Prop :=
  match k with
  | .condition => g.rules = []
  | .sort => g.sort = []
  | .breadcrumb => g.breadcrumb = []
  | .can => g.collection = []
  | _ => True

theorem lacks_concat {k : Kind} {gs : List Gathered} :
    (concat gs).Lacks k ↔ ∀ g ∈ gs, g.Lacks k := by
  cases k <;> simp [Lacks, concat, List.flatMap_eq_nil_iff]

theorem lacks_gathered (k : Kind) (field : String) (e : Effect) : (e.gathered field).Lacks k := by
  cases e <;> cases k <;> simp [Effect.gathered, Lacks]

end Gathered

theorem Permission.compile_ne_nil {expression : Text} {p : Fields String}
    (h : compile expression = .ok p) : p ≠ [] := by
  unfold compile at h
  split at h
  · cases h
  · rename_i hpairs
    cases h
    rw [table, Ne, Fields.ofEntries_eq_nil]
    simpa using hpairs

namespace Addition

theorem lacks_gathered {o : Options} {t : Text} {a : Addition}
    (h : ofStatement? o t = some (.ok a)) {k : Kind} (hk : k ∈ kinds) :
    a.gathered.Lacks k ↔ Kind.ofName? (Block.leadingTag t) ≠ some k := by
  have hkind := kind_of_ofStatement? h
  have hcases : k = .condition ∨ k = .sort ∨ k = .breadcrumb ∨ k = .can := by
    simpa [kinds] using hk
  cases a with
  | rule r | sort r | breadcrumb r =>
    rcases hcases with rfl | rfl | rfl | rfl <;> simp [hkind, kind, gathered, Gathered.Lacks]
  | permissions p =>
    have hne : p ≠ [] := by
      simp only [ofStatement?, hkind, kind, Option.some.injEq] at h
      obtain ⟨p', hcompile, hp⟩ := Attempt.map_eq_ok.mp h
      cases hp
      exact Permission.compile_ne_nil hcompile
    rcases hcases with rfl | rfl | rfl | rfl <;>
      simp [hkind, kind, gathered, Gathered.Lacks, hne]

end Addition

namespace SourceLine

variable {env : Setting} {line : SourceLine} {b : Block} {k : Kind}

theorem names_of_tag (htag : Block.isTag line.text = true) (k : Kind) :
    (line.contribution env).gathered.names k = [] := by
  simp only [contribution, htag, if_true]
  split
  · rename_i a _
    cases a <;> cases k <;> rfl
  · cases k <;> rfl

theorem names_of_field (hok : (b.addStatement env line).failure = none) (hk : k ∈ Effect.gathering)
    {d : Declaration} {offset : Nat} {tags : List Tag} (htag : Block.isTag line.text = false)
    (hread : Declaration.read? line.text = some (d, offset))
    (htags : Tag.Reading (offset + 1) d.rawType tags) :
    (line.contribution env).gathered.names k =
      List.replicate (tags.countP (·.kind? = some k)) (Text.str d.field) := by
  obtain ⟨c, events, htakes, hc, -⟩ := Block.takes_of_ok hok
  rw [hc]
  cases htakes with
  | tag htag' | skipped htag' => simp [htag] at htag'
  | field _ hprepare heffects _ =>
    obtain ⟨offset', found, hread', hscan, hresolve⟩ := Block.prepare_eq_ok.mp hprepare
    rw [hread] at hread'
    cases hread'
    rw [Tag.scan_eq_ok.mpr htags] at hscan
    cases hscan
    rw [← FieldType.countP_resolve hresolve hk]
    exact Effect.names_ofTags hk heffects _

/-- The names that a statement gathers are keys of the properties that it declares. -/
theorem names_subset_keys (env : Setting) (line : SourceLine) (k : Kind) :
    ∀ n ∈ (line.contribution env).gathered.names k,
      n ∈ (line.contribution env).properties.keys := by
  intro n hn
  cases htag : Block.isTag line.text with
  | true => simp [names_of_tag htag] at hn
  | false =>
    simp only [contribution, htag, Bool.false_eq_true, if_false] at hn ⊢
    split at hn
    · simp only [Contribution.ofField, Gathered.names_concat, List.mem_flatMap, List.mem_map] at hn
      obtain ⟨g, ⟨e, -, rfl⟩, hn⟩ := hn
      simp [Contribution.ofField, Fields.keys, Effect.names_gathered_subset k _ e n hn]
    · cases k <;> simp [Gathered.names, Fields.keys] at hn

theorem lacks_contribution (hok : (b.addStatement env line).failure = none)
    (hk : k ∈ Addition.kinds) : (line.contribution env).gathered.Lacks k ↔ ¬line.IsAbout k := by
  obtain ⟨c, events, htakes, hc, -⟩ := Block.takes_of_ok hok
  rw [hc]
  have hnothing : ({} : Gathered).Lacks k := by cases k <;> simp [Gathered.Lacks]
  cases htakes with
  | field htag =>
    refine iff_of_true (Gathered.lacks_concat.mpr ?_) (by simp [IsAbout, htag])
    exact List.forall_mem_map.mpr fun e _ => Gathered.lacks_gathered k _ e
  | tag htag hadds => simp [IsAbout, htag, Addition.lacks_gathered hadds hk]
  | skipped htag hnone =>
    exact iff_of_true hnothing fun h => Addition.kind_of_ofStatement?_eq_none hnone hk h.2

end SourceLine

namespace Section

variable {env : Setting} {s : Section}

theorem names_contribution (env : Setting) (s : Section) (k : Kind) :
    (s.contribution env).gathered.names k =
      s.own.flatMap fun line => (line.contribution env).gathered.names k := by
  simp only [contribution, Contribution.concat, Gathered.names_concat, List.flatMap_map]

theorem mem_names_frame (hc : s.Compiles env) {k : Kind} {n : String} :
    n ∈ (s.frame env).gathered.names k ↔ n ∈ (s.contribution env).gathered.names k := by
  rw [gathered_frame hc]
  cases k with
  | ui =>
    change n ∈ (Fields.ofEntries (s.contribution env).gathered.hints).keys ↔ _
    rw [Fields.keys_ofEntries, List.mem_eraseDups]
    rfl
  | _ => simp [Gathered.names, Gathered.absorb]

/-- The names that a block gathers are keys of its properties. -/
theorem names_subset_properties (hc : s.Compiles env) {k : Kind} {n : String}
    (hn : n ∈ (s.frame env).gathered.names k) : n ∈ (s.frame env).properties.keys := by
  rw [mem_names_frame hc, names_contribution] at hn
  obtain ⟨line, hline, hn⟩ := List.mem_flatMap.mp hn
  obtain ⟨e, he, rfl⟩ := List.mem_map.mp (line.names_subset_keys env k n hn)
  rw [properties_frame hc, Fields.keys_ofEntries, List.mem_eraseDups]
  refine List.mem_map_of_mem ?_
  simp only [contribution, Contribution.concat, List.flatMap_map]
  exact List.mem_flatMap.mpr ⟨line, hline, he⟩

theorem lacks_frame (hc : s.Compiles env) {k : Kind} (hk : k ∈ Addition.kinds) :
    (s.frame env).gathered.Lacks k ↔ ∀ line ∈ s.own, ¬line.IsAbout k := by
  have hframe : (s.frame env).gathered.Lacks k ↔ (s.contribution env).gathered.Lacks k := by
    rw [gathered_frame hc]
    cases k with
    | can => exact Fields.ofEntries_eq_nil
    | _ => simp [Gathered.Lacks, Gathered.absorb]
  rw [hframe, contribution, Contribution.concat, Gathered.lacks_concat]
  simp only [List.map_map, List.forall_mem_map]
  exact forall₂_congr fun line hline => SourceLine.lacks_contribution (hc line hline) hk

end Section

namespace Tagged

variable {env : Setting} {b : Block} {lines : List SourceLine} {names : List String} {k : Kind}

theorem eq_flatMap (h : Tagged k lines names) (hk : k ∈ Effect.gathering)
    (hok : ∀ line ∈ lines, (b.addStatement env line).failure = none) :
    names = lines.flatMap fun line => (line.contribution env).gathered.names k := by
  induction h with
  | nil => rfl
  | tag htag hrest ih =>
    rw [List.flatMap_cons, SourceLine.names_of_tag htag, List.nil_append]
    exact ih (List.forall_mem_cons.mp hok).2
  | field htag hread htags hrest ih =>
    obtain ⟨hline, hlines⟩ := List.forall_mem_cons.mp hok
    rw [List.flatMap_cons, SourceLine.names_of_field hline hk htag hread htags, ← ih hlines]

/-- Statements that compile have tags that can be read. -/
theorem exists_of_ok (k : Kind) (hok : ∀ line ∈ lines, (b.addStatement env line).failure = none) :
    ∃ names, Tagged k lines names := by
  induction lines with
  | nil => exact ⟨[], .nil⟩
  | cons line lines ih =>
    obtain ⟨hline, hlines⟩ := List.forall_mem_cons.mp hok
    obtain ⟨names, hrest⟩ := ih hlines
    obtain ⟨c, events, htakes, -⟩ := Block.takes_of_ok hline
    cases htakes with
    | tag htag | skipped htag => exact ⟨names, .tag htag hrest⟩
    | field htag hprepare =>
      obtain ⟨offset, found, hread, hscan, -⟩ := Block.prepare_eq_ok.mp hprepare
      exact ⟨_, .field htag hread (Tag.scan_eq_ok.mp hscan) hrest⟩

theorem iff_eq_flatMap (hk : k ∈ Effect.gathering)
    (hok : ∀ line ∈ lines, (b.addStatement env line).failure = none) :
    Tagged k lines names ↔
      names = lines.flatMap fun line => (line.contribution env).gathered.names k := by
  refine ⟨fun h => h.eq_flatMap hk hok, ?_⟩
  rintro rfl
  obtain ⟨names, h⟩ := exists_of_ok k hok
  exact h.eq_flatMap hk hok ▸ h

end Tagged

theorem Gathered.get?_permissions_field (g : Gathered) : Fields.get? "field" g.permissions =
    if g.fieldPermissions.isEmpty then none else some g.fieldPermissionsValue := by
  simp [permissions, Fields.get?_append, get?_unlessEmpty]

namespace Section

/-- The object names only fields that it has among its properties. -/
structure NamesDeclared (node properties : Fields Value) : Prop where
  required : ∀ v, node.get? "required" = some v → ∃ names, v = .texts names ∧
    ∀ n ∈ names, n ∈ properties.keys
  ui : ∀ v, node.get? "ui" = some v → ∃ hints, v = .object hints ∧
    ∀ n ∈ Fields.keys hints, n ∈ properties.keys
  permissions : ∀ v, node.get? "permissions" = some v → ∃ permissions, v = .object permissions ∧
    ∀ w, Fields.get? "field" permissions = some w → ∃ maps : Fields Value,
      w = .array (maps.map fun e => .object [e]) ∧ ∀ e ∈ maps, e.1 ∈ properties.keys

/-- The object lists what the statements of the block gather, and nothing else. -/
structure Accounts (s : Section) (node : Fields Value) : Prop where
  declared : ∃ properties, node.get? "properties" = some (.object properties) ∧
    NamesDeclared node properties
  required : ∃ names, (∀ ns, Tagged .required s.own ns ↔ ns = names) ∧
    node.get? "required" = if names.isEmpty then none else some (.texts names)
  ui : node.get? "ui" = none ↔ Tagged .ui s.own []
  allOf : node.get? "allOf" = none ↔ ∀ line ∈ s.own, ¬line.IsAbout .condition
  sort : node.get? "sort" = none ↔ ∀ line ∈ s.own, ¬line.IsAbout .sort
  breadcrumb : node.get? "breadcrumb" = none ↔ ∀ line ∈ s.own, ¬line.IsAbout .breadcrumb
  permissions : node.get? "permissions" = none ↔
    (∀ line ∈ s.own, ¬line.IsAbout .can) ∧ Tagged .can s.own []

variable {env : Setting} {s : Section}

theorem get?_object (env : Setting) (s : Section) : ∀ a ∈ (s.frame env).gathered.additions,
    Fields.get? a.2.1 (s.object env) = if a.1 then none else some a.2.2 := by
  rw [object, ← Gathered.entries_eq_written]
  simp only [Gathered.additions, List.forall_mem_cons]
  simp [Gathered.entries, Gathered.plainEntries, Fields.get?, Fields.get?_append,
    Gathered.get?_unlessEmpty, Gathered.permissions_isEmpty]

theorem tagged_iff_eq_names (hc : s.Compiles env) {k : Kind} (hk : k ∈ Effect.gathering)
    {names : List String} :
    Tagged k s.own names ↔ names = (s.contribution env).gathered.names k := by
  rw [Tagged.iff_eq_flatMap hk hc, names_contribution]

theorem tagged_nil_iff (hc : s.Compiles env) {k : Kind} (hk : k ∈ Effect.gathering) :
    Tagged k s.own [] ↔ (s.frame env).gathered.names k = [] := by
  rw [tagged_iff_eq_names hc hk, eq_comm]
  simp only [List.eq_nil_iff_forall_not_mem, mem_names_frame hc]

theorem accounts (hc : s.Compiles env) {node : Fields Value}
    (hnode : ∀ k, k ≠ "$defs" → k ≠ "title" → node.get? k = Fields.get? k (s.object env)) :
    s.Accounts node := by
  have hget := s.get?_object env
  simp only [Gathered.additions, List.forall_mem_cons, List.not_mem_nil, false_implies,
    implies_true, and_true] at hget
  obtain ⟨hui, hrequired, hallOf, hsort, hbreadcrumb, hpermissions⟩ := hget
  rw [← hnode _ (by decide) (by decide)] at hui hrequired hallOf hsort hbreadcrumb hpermissions
  have hdeclared {k : Kind} {n : String} := @names_subset_properties env s hc k n
  constructor
  case declared =>
    refine ⟨(s.frame env).properties, hnode _ (by decide) (by decide), ?_, ?_, ?_⟩
    · intro v hv
      rw [hrequired, Option.ite_none_left_eq_some] at hv
      cases hv.2
      exact ⟨_, rfl, fun n => hdeclared (k := .required)⟩
    · intro v hv
      rw [hui, Option.ite_none_left_eq_some] at hv
      cases hv.2
      refine ⟨_, rfl, fun n hn => hdeclared (k := .ui) ?_⟩
      simpa [Gathered.names, Fields.keys] using hn
    · intro v hv
      rw [hpermissions, Option.ite_none_left_eq_some] at hv
      cases hv.2
      refine ⟨_, rfl, fun w hw => ?_⟩
      rw [Gathered.get?_permissions_field, Option.ite_none_left_eq_some] at hw
      cases hw.2
      refine ⟨(s.frame env).gathered.fieldPermissions.map fun e =>
        (e.1, Gathered.permissionTable e.2), ?_, ?_⟩
      · simp [Gathered.fieldPermissionsValue]
      · intro e he
        obtain ⟨p, hp, rfl⟩ := List.mem_map.mp he
        exact hdeclared (k := .can) (List.mem_map_of_mem hp)
  case required =>
    have hnames : (s.frame env).gathered.required = (s.contribution env).gathered.required := by
      rw [gathered_frame hc]
      rfl
    refine ⟨_, fun ns => tagged_iff_eq_names hc (by simp [Effect.gathering]), ?_⟩
    rw [hrequired, hnames]
    rfl
  case ui =>
    rw [hui, tagged_nil_iff hc (by simp [Effect.gathering])]
    simp [Gathered.names, Fields.keys]
  case allOf =>
    rw [hallOf, ← lacks_frame hc (by simp [Addition.kinds])]
    simp [Gathered.Lacks]
  case sort =>
    rw [hsort, ← lacks_frame hc (by simp [Addition.kinds])]
    simp [Gathered.Lacks]
  case breadcrumb =>
    rw [hbreadcrumb, ← lacks_frame hc (by simp [Addition.kinds])]
    simp [Gathered.Lacks]
  case permissions =>
    rw [hpermissions, ← lacks_frame hc (by simp [Addition.kinds]),
      tagged_nil_iff hc (by simp [Effect.gathering])]
    simp [Gathered.Lacks, Gathered.names]

end Section

/-- Wherever a block stands in the schema of a document, its object lists what the statements of
the block gather, and names only its fields. -/
theorem compile_accounts (env : Setting) (text : Text) (hok : (compile env text).failure = none) :
    ∃ F : Forest, F.Outlines text ∧ ∀ p,
      (∀ node, (compile env text).state.objectAt? p = some node →
        ∃ s, F.blockAt? p = some s ∧ s.Accounts node) ∧
      ∀ s, F.blockAt? p = some s → ∃ node, (compile env text).state.objectAt? p = some node := by
  obtain ⟨F, hF, hc, -, hstate⟩ := exists_outlines hok
  refine ⟨F, hF, fun p => ⟨?_, ?_⟩⟩
  · intro node hnode
    rw [hstate] at hnode
    obtain ⟨s, hs, hget⟩ := Forest.objectAt?_eq_some hnode
    have hcompiles : s.Compiles env := hc.sections s (Forest.mem_sections_of_blockAt? hs)
    exact ⟨s, hs, s.accounts hcompiles hget⟩
  · intro s hs
    obtain ⟨front, hnode, -⟩ := Forest.objectAt?_of_blockAt? hs
    exact ⟨_, hstate ▸ hnode⟩

/-- A block with a block inside it, a field that is declared twice, and a tag in an argument. -/
def accountedText : Text :=
  "model M object \x7b\na: text @required @pattern(@required)\ndef D array \x7b\n".toList ++
    "b: text @can(r: \"x\")\n\x7d\n@sort(a)\na: number @required @ui(x)\n\x7d".toList

theorem compile_accounts_nested :
    (compile {} accountedText).failure = none ∧
      ∃ F : Forest, F.Outlines accountedText ∧ ∀ p,
        (∀ node, (compile {} accountedText).state.objectAt? p = some node →
          ∃ s, F.blockAt? p = some s ∧ s.Accounts node) ∧
        ∀ s, F.blockAt? p = some s →
          ∃ node, (compile {} accountedText).state.objectAt? p = some node := by
  have hok : (compile {} accountedText).failure = none := by decide +kernel
  exact ⟨hok, compile_accounts {} accountedText hok⟩

end ModelSchema
