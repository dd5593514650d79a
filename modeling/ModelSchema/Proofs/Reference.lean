import ModelSchema.Proofs.Keyword
import ModelSchema.Proofs.Location
import ModelSchema.Proofs.Place
import ModelSchema.Proofs.Tokens

namespace ModelSchema

namespace Effect

theorem upToClose?_eq_some {t inner : Text} (h : upToClose? t = some inner) :
    ∃ after, t = inner ++ ')' :: after ∧ ')' ∉ inner := by
  induction t generalizing inner with
  | nil => cases h
  | cons c t ih =>
    simp only [upToClose?] at h
    split at h
    · rename_i hclose
      obtain rfl : c = ')' := by simpa using hclose
      cases h
      exact ⟨t, rfl, by simp⟩
    · rename_i hclose
      split at h
      · cases h
      · obtain ⟨rest, hrest, rfl⟩ := Option.map_eq_some_iff.mp h
        obtain ⟨after, rfl, hnot⟩ := ih hrest
        have hne : c ≠ ')' := by simpa using hclose
        exact ⟨after, rfl, by simp [Ne.symm hne, hnot]⟩

theorem searchCall?_eq_some {head t inner : Text} (h : searchCall? head t = some inner) :
    ∃ before after, t = before ++ (head ++ (inner ++ ')' :: after)) ∧ ')' ∉ inner := by
  induction t with
  | nil => cases h
  | cons c t ih =>
    simp only [searchCall?] at h
    split at h
    · rename_i found hfound
      cases h
      obtain ⟨rest, hrest, hclose⟩ := Option.bind_eq_some_iff.mp hfound
      obtain ⟨after, rfl, hnot⟩ := upToClose?_eq_some hclose
      have hstart := Text.after?_eq_some.mp hrest
      exact ⟨[], after, hstart, hnot⟩
    · obtain ⟨before, after, rfl, hnot⟩ := ih h
      exact ⟨c :: before, after, rfl, hnot⟩

end Effect

theorem FieldType.wordBetween?_eq_some {before after t word : Text}
    (h : wordBetween? before after t = some word) :
    ∃ rest, t = before ++ (word ++ (after ++ rest)) ∧ ∀ c ∈ word, Text.isWord c = true := by
  unfold wordBetween? at h
  split at h
  · cases h
  · rename_i rest hrest
    dsimp only at h
    split at h
    · rename_i hfits
      cases h
      obtain ⟨tail, htail⟩ := Text.startsWith_iff.mp (Bool.and_eq_true_iff.mp hfits).2
      refine ⟨tail, ?_, Text.takeWhile_all rest⟩
      rw [htail, List.takeWhile_append_dropWhile]
      exact Text.after?_eq_some.mp hrest
    · cases h

/-- The type of a field stands in its line. -/
theorem Declaration.read?_text {t : Text} {d : Declaration} {offset : Nat}
    (h : read? t = some (d, offset)) : ∃ before after, t = before ++ (d.rawType ++ after) := by
  obtain ⟨name, gap, after, rfl, -⟩ := read?_parts h
  exact ⟨name ++ ':' :: gap, after, by simp⟩

namespace SourceLine

/-- The line declares this field. -/
def Declares (field : String) (line : SourceLine) : Prop :=
  Block.isTag line.text = false ∧ ∃ d offset, Declaration.read? line.text = some (d, offset) ∧
    Text.str d.field = field

/-- The key is the text between an `@ref(` on the line and the next `)`, trimmed and in small
letters. -/
def Refers (k : String) (line : SourceLine) : Prop :=
  ∃ before inner after, line.text = before ++ ("@ref(".toList ++ (inner ++ ')' :: after)) ∧
    ')' ∉ inner ∧ k = Text.str (Text.lower (Text.strip inner))

/-- The line has a reference among its tags. -/
def HasReference (line : SourceLine) : Prop :=
  ∃ d offset tags, Declaration.read? line.text = some (d, offset) ∧
    Tag.Reading (offset + 1) d.rawType tags ∧ ∃ tag ∈ tags, tag.kind? = some .ref

end SourceLine

/-- The references in the schema of a field: its own, and that of its items. -/
def Value.references (v : Value) : List Value :=
  (v.fields?.bind (Fields.get? "$ref")).toList ++
    (((v.fields?.bind (Fields.get? "items")).bind fields?).bind (Fields.get? "$ref")).toList

namespace Effect

variable {d : Declaration} {tag : Tag} {e : Effect} {schema : Fields Value}

theorem items_onSchema (h : Of d tag e) :
    (e.onSchema schema).get? "items" = schema.get? "items" := by
  cases h with
  | keyword hkind href hitems => simp [onSchema, Fields.get?_put, Ne.symm hitems]
  | timestampOrEmpty => simp [onSchema, Fields.get?_put, Fields.get?_erase]
  | _ => simp [onSchema, Fields.get?_put]

theorem items_foldl {es : List Effect} (h : ∀ e ∈ es, ∃ tag, Of d tag e) :
    (es.foldl onSchema schema).get? "items" = schema.get? "items" := by
  induction es generalizing schema with
  | nil => rfl
  | cons e es ih =>
    obtain ⟨⟨tag, he⟩, hes⟩ := List.forall_mem_cons.mp h
    rw [List.foldl_cons, ih hes, items_onSchema he]

/-- A reference is to the first call of that name in the type. -/
theorem ofTag_ref {o : Options} (hkind : tag.kind? = some .ref) (h : ofTag o d tag = .ok e) :
    ∃ inner, searchCall? "@ref(".toList d.rawType = some inner ∧
      e = .keyword "$ref" (.text (FieldType.pointer inner)) := by
  simp only [ofTag, hkind, ofRef] at h
  split at h
  · cases h
  · rename_i inner hinner
    cases h
    exact ⟨inner, (Option.filter_eq_some_iff.mp hinner).1, rfl⟩

end Effect

namespace FieldType

variable {field rawType : Text} {found tags : List Tag} {schema : Fields Value}

theorem wordBetween?_of_item? {name : Text} (h : item? rawType = some (.reference name)) :
    wordBetween? "array(@ref(".toList "))".toList rawType = some name := by
  unfold item? at h
  split at h
  · rename_i word hword
    cases h
    exact hword
  · obtain ⟨word, -, hword⟩ := Option.map_eq_some_iff.mp h
    cases hword

/-- Before its tags take effect, a field refers by the items of its type alone. -/
theorem references_resolve (h : resolve field rawType found = .ok (schema, tags)) :
    schema.get? "$ref" = none ∧ ∀ items r, schema.get? "items" = some (.object items) →
      Fields.get? "$ref" items = some r → ∃ name rest, r = .text (pointer name) ∧
        rawType = "array(@ref(".toList ++ (name ++ ("))".toList ++ rest)) ∧
          ∀ c ∈ name, Text.isWord c = true := by
  rcases resolve_eq_ok.mp h with ⟨-, i, hi, rfl, -⟩ | ⟨-, rfl, -⟩
  · refine ⟨rfl, ?_⟩
    intro items r hitems hr
    obtain rfl : itemSchema i = items := by simpa [arraySchema, Fields.get?] using hitems
    cases i with
    | primitive name =>
      have hnone : (primitive name).get? "$ref" = none :=
        get?_primitive (by decide) (by decide) (by decide) name
      cases hnone.symm.trans hr
    | reference name =>
      obtain rfl : Value.text (pointer name) = r := by simpa [itemSchema, Fields.get?] using hr
      obtain ⟨rest, hraw, hword⟩ := wordBetween?_eq_some (wordBetween?_of_item? hi)
      exact ⟨name, rest, rfl, hraw, hword⟩
  · refine ⟨get?_primitive (by decide) (by decide) (by decide) _, fun items r hitems => ?_⟩
    rw [get?_primitive (by decide) (by decide) (by decide)] at hitems
    cases hitems

/-- The tags of a field are kept for it, unless the items refer. -/
theorem resolve_tags (h : resolve field rawType found = .ok (schema, tags)) :
    tags = found ∨ ∃ items r, schema.get? "items" = some (.object items) ∧
      Fields.get? "$ref" items = some r := by
  rcases resolve_eq_ok.mp h with ⟨-, i, -, rfl, rfl⟩ | ⟨-, -, rfl⟩
  · cases i with
    | primitive name => exact .inl rfl
    | reference name => exact .inr ⟨_, _, rfl, rfl⟩
  · exact .inl rfl

end FieldType

namespace SourceLine

variable {env : Setting} {line : SourceLine} {b : Block} {field : String} {v : Value}

/-- A call in the type of a field is one on its line. -/
theorem refers_of_rawType {d : Declaration} {offset : Nat} {before inner after : Text}
    (hread : Declaration.read? line.text = some (d, offset))
    (hraw : d.rawType = before ++ ("@ref(".toList ++ (inner ++ ')' :: after)))
    (hinner : ')' ∉ inner) : line.Refers (FieldType.definitionKey (Text.strip inner)) := by
  obtain ⟨front, back, htext⟩ := Declaration.read?_text hread
  refine ⟨front ++ before, inner, after ++ back, ?_, hinner, rfl⟩
  rw [htext, hraw]
  simp

/-- How the line of a field makes its schema. -/
inductive Makes (env : Setting) (line : SourceLine) (field : String) : Value → Prop
  | intro {d : Declaration} {offset : Nat} {found tags : List Tag} {schema : Fields Value}
      (htag : Block.isTag line.text = false)
      (hread : Declaration.read? line.text = some (d, offset)) (hfield : Text.str d.field = field)
      (hscan : Tag.scan offset d.rawType = .ok found)
      (hresolve : FieldType.resolve d.field d.rawType found = .ok (schema, tags))
      (heffects : ∀ tag ∈ tags, ∃ e, Effect.ofTag env.options d tag = .ok e) :
      Makes env line field
        (.object ((Effect.ofTags env.options d tags).foldl Effect.onSchema schema))

theorem makes_of_contribution (hok : (b.addStatement env line).failure = none)
    (h : Fields.get? field (line.contribution env).properties = some v) :
    line.Makes env field v := by
  obtain ⟨c, events, htakes, hc, -⟩ := Block.takes_of_ok hok
  rw [hc] at h
  cases htakes with
  | tag | skipped => cases h
  | field htag hprepare heffects =>
    obtain ⟨offset, found, hread, hscan, hresolve⟩ := Block.prepare_eq_ok.mp hprepare
    simp only [Contribution.ofField, Fields.get?, Option.ite_none_right_eq_some,
      Option.some.injEq] at h
    obtain ⟨hfield, rfl⟩ := h
    exact .intro htag hread hfield hscan hresolve heffects

/-- A statement writes a property if it declares the field. -/
theorem contribution_of_declares (hok : (b.addStatement env line).failure = none)
    (h : line.Declares field) :
    (Fields.get? field (line.contribution env).properties).isSome = true := by
  obtain ⟨htag, d, offset, hread, hfield⟩ := h
  obtain ⟨c, events, htakes, hc, -⟩ := Block.takes_of_ok hok
  rw [hc]
  cases htakes with
  | tag htag' | skipped htag' => simp [htag] at htag'
  | field _ hprepare =>
    obtain ⟨offset', found, hread', -, -⟩ := Block.prepare_eq_ok.mp hprepare
    rw [hread] at hread'
    cases hread'
    simp [Contribution.ofField, Fields.get?, hfield]

/-- A statement declares one field at most. -/
theorem length_properties (env : Setting) (line : SourceLine) :
    (line.contribution env).properties.length ≤ 1 := by
  unfold contribution
  split
  · split <;> simp
  · split <;> simp [Contribution.ofField]

namespace Makes

theorem declares (h : line.Makes env field v) : line.Declares field := by
  obtain ⟨htag, hread, hfield⟩ := h
  exact ⟨htag, _, _, hread, hfield⟩

/-- A field refers only by what stands on its line. -/
theorem refers (h : line.Makes env field v) :
    ∀ r ∈ v.references, ∃ k, r = .text ("#/$defs/" ++ k) ∧ line.Refers k := by
  obtain @⟨d, offset, found, tags, schema, htag, hread, hfield, hscan, hresolve, heffects⟩ := h
  obtain ⟨hplain, hitems⟩ := FieldType.references_resolve hresolve
  intro r hr
  simp only [Value.references, Value.fields?, Option.bind_some, List.mem_append,
    Option.mem_toList] at hr
  rcases hr with hr | hr
  · -- The type alone gives the field no reference, so a tag has written it.
    obtain ⟨tag, -, hkind, hof⟩ := Effect.writer_of_get? (k := .ref) (by decide) hplain hr
    obtain ⟨inner, hcall, he⟩ := Effect.ofTag_ref hkind hof
    injection he with _ hvalue
    obtain ⟨before, after, hraw, hinner⟩ := Effect.searchCall?_eq_some hcall
    exact ⟨_, hvalue, refers_of_rawType hread hraw hinner⟩
  · -- No tag changes the items, so they refer as the type says.
    rw [Effect.items_foldl (Effect.of_ofTags env.options d tags)] at hr
    obtain ⟨items, hentry, hr⟩ := Option.bind_eq_some_iff.mp hr
    obtain ⟨w, hw, hfields⟩ := Option.bind_eq_some_iff.mp hentry
    obtain rfl : w = .object items := by
      cases w with
      | object fs => exact congrArg Value.object (Option.some.inj hfields)
      | _ => cases hfields
    obtain ⟨name, rest, rfl, hraw, hword⟩ := hitems items r hw hr
    have hinner : ')' ∉ name := fun hmem => absurd (hword ')' hmem) (by decide)
    have hcall : d.rawType =
        "array(".toList ++ ("@ref(".toList ++ (name ++ ')' :: (')' :: rest))) := by
      rw [hraw]
      simp
    exact ⟨_, rfl, refers_of_rawType hread hcall hinner⟩

/-- A field with a reference among its tags refers. -/
theorem references_ne_nil (h : line.Makes env field v) (href : line.HasReference) :
    v.references ≠ [] := by
  obtain @⟨d, offset, found, tags, schema, htag, hread, hfield, hscan, hresolve, heffects⟩ := h
  obtain ⟨d', offset', found', hread', hreading, tag, hmem, hkind⟩ := href
  rw [hread] at hread'
  cases hread'
  rw [Tag.scan_eq_ok.mpr hreading] at hscan
  cases hscan
  rcases FieldType.resolve_tags hresolve with rfl | ⟨items, r, hitems, hr⟩
  · obtain ⟨e, he⟩ := heffects tag hmem
    obtain ⟨inner, -, rfl⟩ := Effect.ofTag_ref hkind he
    obtain ⟨r, hr⟩ := Effect.get?_of_writer (by decide) hmem he schema
    simp [Value.references, Value.fields?, hr]
  · have heach := Effect.of_ofTags env.options d tags
    simp [Value.references, Value.fields?, Effect.items_foldl heach, hitems, hr]

end Makes

end SourceLine

/-- Of entries that are made from a list, the last element with the key gives the value. -/
theorem Fields.get?_ofEntries_flatMap {α β : Type} {f : β → Fields α} (hf : ∀ x, (f x).length ≤ 1)
    {xs : List β} {k : String} {v : α} (h : (ofEntries (xs.flatMap f)).get? k = some v) :
    ∃ before x after, xs = before ++ x :: after ∧ (f x).get? k = some v ∧
      ∀ y ∈ after, (f y).get? k = none := by
  have hreverse (x : β) : (f x).reverse = f x := by
    cases hx : f x with
    | nil => rfl
    | cons e es =>
      have hlength := hf x
      rw [hx, List.length_cons] at hlength
      obtain rfl : es = [] := List.eq_nil_of_length_eq_zero (by omega)
      rfl
  have hget (ys : List β) : (ofEntries (ys.flatMap f)).get? k = get? k (ys.flatMap f).reverse := by
    simp [ofEntries, get?_putAll, get?]
  rw [hget] at h
  induction xs using List.reverseRecOn with
  | nil => cases h
  | append_singleton xs x ih =>
    simp only [List.flatMap_append, List.flatMap_singleton, List.reverse_append, hreverse,
      get?_append] at h
    cases hx : (f x).get? k with
    | some w =>
      rw [hx, Option.some_or] at h
      exact ⟨xs, x, [], rfl, hx.trans h, by simp⟩
    | none =>
      rw [hx, Option.none_or] at h
      obtain ⟨before, y, after, rfl, hy, hafter⟩ := ih h
      refine ⟨before, y, after ++ [x], by simp, hy, fun z hz => ?_⟩
      rcases List.mem_append.mp hz with hz | hz
      · exact hafter z hz
      · rw [List.mem_singleton.mp hz]
        exact hx

/-- The references in the schema of a field are those on its line. -/
structure Value.RefersBy (v : Value) (line : SourceLine) : Prop where
  pointers : ∀ r ∈ v.references, ∃ k, r = .text ("#/$defs/" ++ k) ∧ line.Refers k
  tags : line.HasReference → v.references ≠ []

namespace Section

variable {env : Setting} {s : Section} {field : String} {v : Value}

/-- The last line of the block that declares the field. -/
def LastDeclares (s : Section) (field : String) (line : SourceLine) : Prop :=
  ∃ before after, s.own = before ++ line :: after ∧ line.Declares field ∧
    ∀ l ∈ after, ¬l.Declares field

theorem refersBy_of_properties (hc : s.Compiles env)
    (h : (s.frame env).properties.get? field = some v) :
    ∃ line, s.LastDeclares field line ∧ v.RefersBy line := by
  rw [properties_frame hc, contribution, Contribution.concat, List.flatMap_map] at h
  obtain ⟨before, line, after, hown, hline, hafter⟩ :=
    Fields.get?_ofEntries_flatMap (SourceLine.length_properties env) h
  have hmakes := SourceLine.makes_of_contribution (hc line (by simp [hown])) hline
  refine ⟨line, ⟨before, after, hown, hmakes.declares, fun l hl hdeclares => ?_⟩, hmakes.refers,
    hmakes.references_ne_nil⟩
  have hsome := SourceLine.contribution_of_declares (hc l (by simp [hown, hl])) hdeclares
  rw [hafter l hl] at hsome
  cases hsome

end Section

/-- The header of a definition among these lines, whose name in small letters is the key. -/
structure Heading.Defines (h : Heading) (k : String) (lines : List SourceLine) : Prop where
  definition : h.IsDefinition
  mem : h.line ∈ lines
  key : Text.str (Text.lower h.name) = k

theorem Body.exists_section {F : Body} (hF : F.WellFormed) {h : Heading} (hdef : h.IsDefinition)
    (hmem : h.line ∈ F.lines) : ∃ s ∈ F.sections, s.heading = h := by
  induction F with
  | nil => cases hmem
  | statement line rest ih =>
    rcases List.mem_cons.mp hmem with rfl | hmem
    · exact absurd hdef.start hF.1.notDefinition
    · exact ih hF.2 hmem
  | block heading inner close rest ihInner ihRest =>
    simp only [lines, List.mem_cons, List.mem_append] at hmem
    rcases hmem with hline | hmem | hline | hmem
    · exact ⟨_, List.mem_cons_self, hF.1.ext hdef hline.symm⟩
    · obtain ⟨s, hs, hheading⟩ := ihInner hF.2.1 hmem
      exact ⟨s, by simp [sections, hs], hheading⟩
    · have hkind := LineKind.of_eq_definition.mpr hdef.start
      rw [hline, LineKind.of_eq_close.mpr hF.2.2.1] at hkind
      cases hkind
    · obtain ⟨s, hs, hheading⟩ := ihRest hF.2.2.2 hmem
      exact ⟨s, by simp [sections, hs], hheading⟩

namespace Forest

variable {F : Forest} {text : Text} {k : String}

/-- Every header of a definition opens a block. -/
theorem exists_section (hF : F.WellFormed) {h : Heading} (hdef : h.IsDefinition)
    (hmem : h.line ∈ F.lines) : ∃ s ∈ F.sections, s.heading = h := by
  obtain ⟨t, ht, hmem⟩ := List.mem_flatMap.mp hmem
  have hkind := LineKind.of_eq_definition.mpr hdef.start
  have hsections : ∀ s ∈ t.sections, s ∈ F.sections := fun s hs => List.mem_flatMap.mpr ⟨t, ht, hs⟩
  simp only [Tree.lines, List.mem_cons, List.mem_append, List.not_mem_nil, or_false] at hmem
  rcases hmem with hline | hmem | hline
  · refine ⟨_, hsections _ List.mem_cons_self, ?_⟩
    rcases (hF t ht).heading with htree | hmodel
    · exact htree.ext hdef hline.symm
    · rw [hline, LineKind.of_eq_model.mpr hmodel.start] at hkind
      cases hkind
  · obtain ⟨s, hs, hheading⟩ := Body.exists_section (hF t ht).body hdef hmem
    exact ⟨s, hsections s (List.mem_cons_of_mem _ hs), hheading⟩
  · rw [hline, LineKind.of_eq_close.mpr (hF t ht).close] at hkind
    cases hkind

theorem sections_definition (hF : F.WellFormed) {s : Section} (hs : s ∈ F.sections)
    (hdef : s.isDefinition = true) : s.heading.IsDefinition := by
  obtain ⟨t, ht, hs⟩ := List.mem_flatMap.mp hs
  rcases List.mem_cons.mp hs with rfl | hs
  · rcases (hF t ht).heading with htree | hmodel
    · exact htree
    · simp [Section.isDefinition, hmodel.shape] at hdef
  · exact Body.sections_definition (hF t ht).body s hs

namespace Outlines

theorem heading_defines (hF : F.Outlines text) {s : Section} (hs : s ∈ F.sections)
    (hdef : s.isDefinition = true) : s.heading.Defines s.key (SourceLine.read text) := by
  have hline : s.heading.line ∈ F.lines :=
    F.sections_sublist.subset (List.mem_map_of_mem hs)
  exact ⟨sections_definition hF.wellFormed hs hdef, hF.lines ▸ hline, rfl⟩

theorem section_of_defines (hF : F.Outlines text) {h : Heading}
    (hdefines : h.Defines k (SourceLine.read text)) :
    ∃ s ∈ F.sections, s.heading = h ∧ s.isDefinition = true ∧ s.key = k := by
  obtain ⟨hdef, hmem, hkey⟩ := hdefines
  obtain ⟨s, hs, rfl⟩ := exists_section hF.wellFormed hdef (hF.lines.symm ▸ hmem)
  exact ⟨s, hs, rfl, by simp [Section.isDefinition, hdef.shape], hkey⟩

/-- The keys are those of the headers. -/
theorem mem_keys_iff (hF : F.Outlines text) :
    k ∈ F.keys ↔ ∃ h : Heading, h.Defines k (SourceLine.read text) := by
  rw [mem_keys]
  constructor
  · rintro ⟨s, hs, hdef, rfl⟩
    exact ⟨s.heading, hF.heading_defines hs hdef⟩
  · rintro ⟨h, hdefines⟩
    obtain ⟨s, hs, -, hdef, hkey⟩ := hF.section_of_defines hdefines
    exact ⟨s, hs, hdef, hkey⟩

/-- No header with the key comes after that of the last block. -/
theorem number_le_last (hF : F.Outlines text) {s : Section} (hlast : F.last? k = some s)
    {h : Heading} (hdefines : h.Defines k (SourceLine.read text)) :
    h.line.number ≤ s.heading.line.number := by
  obtain ⟨t, ht, rfl, hdef, hkey⟩ := hF.section_of_defines hdefines
  obtain ⟨-, -, before, after, hsplit, hafter⟩ := last?_eq_some hlast
  -- Blocks stand in the order of their headers, also where one is inside another.
  have hordered : F.sections.Pairwise fun a b => a.heading.line.number < b.heading.line.number := by
    have hlines := SourceLine.read_pairwise text
    rw [← hF.lines] at hlines
    have hheaders := hlines.sublist F.sections_sublist
    rwa [List.pairwise_map] at hheaders
  rw [hsplit] at ht hordered
  rcases List.mem_append.mp ht with ht | ht
  · exact Nat.le_of_lt ((List.pairwise_append.mp hordered).2.2 t ht s List.mem_cons_self)
  · rcases List.mem_cons.mp ht with rfl | ht
    · exact Nat.le_refl _
    · exact absurd hkey (hafter t ht hdef)

end Outlines

end Forest

/-- In the schema of a document, a field refers as its last declaration says, to a key that a
definition has if its name comes to the same in small letters. The key leads to the last block with
such a name, wherever its header stands. -/
theorem compile_references (env : Setting) (text : Text) (hok : (compile env text).failure = none) :
    ∃ (F : Forest) (defs : Fields Value), F.Outlines text ∧
      (compile env text).state.definitions? = some defs ∧
      (∀ p node, (compile env text).state.objectAt? p = some node →
        ∃ s properties, F.blockAt? p = some s ∧ node.get? "properties" = some (.object properties) ∧
          ∀ field v, Fields.get? field properties = some v →
            ∃ line, s.LastDeclares field line ∧ v.RefersBy line) ∧
      (∀ k, k ∈ defs.keys ↔ ∃ h : Heading, h.Defines k (SourceLine.read text)) ∧
      ∀ k ∈ defs.keys, ∃ s ∈ F.sections, s.heading.Defines k (SourceLine.read text) ∧
        (∀ h : Heading, h.Defines k (SourceLine.read text) →
          h.line.number ≤ s.heading.line.number) ∧
        defs.get? k = some (s.node env) := by
  obtain ⟨F, hF, hc, -, hstate⟩ := exists_outlines hok
  rw [hstate]
  refine ⟨F, F.definitions env, hF, Forest.definitions?_schema, ?_, ?_, ?_⟩
  · intro p node hnode
    obtain ⟨s, hs, hget⟩ := Forest.objectAt?_eq_some hnode
    refine ⟨s, (s.frame env).properties, hs, hget _ (by decide) (by decide), fun field v hv => ?_⟩
    exact s.refersBy_of_properties (hc.sections s (Forest.mem_sections_of_blockAt? hs)) hv
  · intro k
    rw [Forest.mem_keys_definitions, hF.mem_keys_iff]
  · intro k hk
    rw [Forest.mem_keys_definitions, ← Forest.last?_isSome] at hk
    obtain ⟨s, hlast⟩ := Option.isSome_iff_exists.mp hk
    have hs := Forest.mem_sections_of_blockAt? (p := .definition k) hlast
    obtain ⟨hdef, rfl, -⟩ := Forest.last?_eq_some hlast
    refine ⟨s, hs, hF.heading_defines hs hdef, fun h => hF.number_le_last hlast, ?_⟩
    rw [Forest.get?_definitions, hlast]
    rfl

/-- A reference before its definition, and one to a block that replaces another from inside; the
names differ in their letters. -/
def crossedText : Text :=
  "model M object \x7b\na: t @ref( Inner )\n\x7d\ndef Outer object \x7b\n".toList ++
    "def inner array \x7b\n\x7d\ndef OUTER object \x7b\n\x7d\nz: array(@ref(outer))\n\x7d".toList

theorem compile_references_crossed :
    (compile {} crossedText).failure = none ∧
      ∃ (F : Forest) (defs : Fields Value), F.Outlines crossedText ∧
        (compile {} crossedText).state.definitions? = some defs ∧
        (∀ p node, (compile {} crossedText).state.objectAt? p = some node →
          ∃ s properties, F.blockAt? p = some s ∧
            node.get? "properties" = some (.object properties) ∧
            ∀ field v, Fields.get? field properties = some v →
              ∃ line, s.LastDeclares field line ∧ v.RefersBy line) ∧
        (∀ k, k ∈ defs.keys ↔ ∃ h : Heading, h.Defines k (SourceLine.read crossedText)) ∧
        ∀ k ∈ defs.keys, ∃ s ∈ F.sections, s.heading.Defines k (SourceLine.read crossedText) ∧
          (∀ h : Heading, h.Defines k (SourceLine.read crossedText) →
            h.line.number ≤ s.heading.line.number) ∧
          defs.get? k = some (s.node {}) := by
  have hok : (compile {} crossedText).failure = none := by decide +kernel
  exact ⟨hok, compile_references {} crossedText hok⟩

end ModelSchema
