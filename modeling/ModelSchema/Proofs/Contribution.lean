import ModelSchema.Proofs.Breakdown
import ModelSchema.Proofs.Document

namespace ModelSchema

theorem Fields.putAll_append {α : Type} (new more old : Fields α) :
    putAll (new ++ more) old = putAll more (putAll new old) := List.foldl_append

namespace Gathered

/-- Writes entries, in order. -/
def absorb (g new : Gathered) : Gathered where
  required := g.required ++ new.required
  hints := Fields.putAll new.hints g.hints
  rules := g.rules ++ new.rules
  sort := g.sort ++ new.sort
  breadcrumb := g.breadcrumb ++ new.breadcrumb
  collection := Fields.putAll new.collection g.collection
  fieldPermissions := g.fieldPermissions ++ new.fieldPermissions

/-- The entries of all, one after the other. A key can come more than once. -/
def concat (gs : List Gathered) : Gathered where
  required := gs.flatMap required
  hints := gs.flatMap hints
  rules := gs.flatMap rules
  sort := gs.flatMap sort
  breadcrumb := gs.flatMap breadcrumb
  collection := gs.flatMap collection
  fieldPermissions := gs.flatMap fieldPermissions

theorem absorb_nothing (g : Gathered) : g.absorb {} = g := by
  simp [absorb, Fields.putAll]

theorem absorb_concat_cons (g new : Gathered) (gs : List Gathered) :
    g.absorb (concat (new :: gs)) = (g.absorb new).absorb (concat gs) := by
  simp [absorb, concat, Fields.putAll_append]

theorem foldl_absorb (gs : List Gathered) (g : Gathered) :
    gs.foldl absorb g = g.absorb (concat gs) := by
  induction gs generalizing g with
  | nil => exact (absorb_nothing g).symm
  | cons new gs ih => rw [List.foldl_cons, ih, absorb_concat_cons]

end Gathered

/-- Entries for the properties of a block and for what it gathers. -/
structure Contribution where
  properties : Fields Value := []
  gathered : Gathered := {}

namespace Contribution

/-- The entries of all, one after the other. -/
def concat (cs : List Contribution) : Contribution :=
  ⟨cs.flatMap properties, .concat (cs.map gathered)⟩

end Contribution

namespace Block

def absorb (b : Block) (c : Contribution) : Block :=
  { b with properties := Fields.putAll c.properties b.properties
           gathered := b.gathered.absorb c.gathered }

theorem foldl_absorb (cs : List Contribution) (b : Block) :
    cs.foldl absorb b = b.absorb (.concat cs) := by
  induction cs generalizing b with
  | nil => simp [absorb, Contribution.concat, Gathered.concat, Gathered.absorb, Fields.putAll]
  | cons c cs ih =>
    rw [List.foldl_cons, ih]
    simp only [absorb, Contribution.concat, List.flatMap_cons, List.map_cons,
      Fields.putAll_append, Gathered.absorb_concat_cons]

end Block

namespace Kind

/-- The kinds of tags that write a keyword, each with that keyword. A limit is written under its
own name. -/
def keywords : List (Kind × String) :=
  [(.enum, "enum"), (.uniqueItems, "uniqueItems"), (.format, "format"), (.email, "format"),
    (.uuid, "format"), (.pattern, "pattern"), (.default, "default"), (.const, "const")] ++
  names.filterMap fun p => match p.2 with
    | .limit l => some (.limit l, p.1)
    | _ => none

/-- The kinds of tags that do something to a field. -/
def effective : List Kind := [.required, .ui, .can, .ref] ++ keywords.map Prod.fst

theorem mem_keywords_of_limit {name : Text} {l : Limit} (h : ofName? name = some (.limit l)) :
    (.limit l, Text.str name) ∈ keywords := by
  apply List.mem_append_right
  exact List.mem_filterMap.mpr ⟨_, mem_names h, rfl⟩

end Kind

namespace Effect

/-- The kinds of tags by which a block gathers something about the field. -/
def gathering : List Kind := [.required, .ui, .can]

/-- The schema of a field after an effect on it. -/
def onSchema (schema : Fields Value) : Effect → Fields Value
  | .keyword key v => schema.put key v
  | .timestampOrEmpty => (schema.erase "type").put "anyOf" FieldState.timestampOrEmpty
  | _ => schema

/-- The entry of an effect on a field, if it is for the block. -/
def gathered (field : String) : Effect → Gathered
  | .require => { required := [field] }
  | .hint h => { hints := [(field, h)] }
  | .permit p => { fieldPermissions := [(field, p)] }
  | _ => {}

theorem keywords_apart :
    ∀ p ∈ Kind.keywords, p.1 ∉ gathering ∧ p.2 ≠ "$ref" ∧ p.2 ≠ "items" := by decide

theorem gathering_effective : ∀ k ∈ gathering, k ∈ Kind.effective := by decide

/-- What a tag on a field can do. -/
inductive Of (d : Declaration) (tag : Tag) : Effect → Prop
  | require (hkind : tag.kind? = some .required) : Of d tag .require
  | hint {h : Hints} (hkind : tag.kind? = some .ui) : Of d tag (.hint h)
  | permit {p : Fields String} (hkind : tag.kind? = some .can) : Of d tag (.permit p)
  | reference {name : Text} (hkind : tag.kind? = some .ref)
      (hcall : searchCall? "@ref(".toList d.rawType = some name) :
      Of d tag (.keyword "$ref" (.text (FieldType.pointer name)))
  | keyword {key : String} {v : Value} (hkind : ∀ k ∈ gathering, tag.kind? ≠ some k)
      (href : key ≠ "$ref") (hitems : key ≠ "items") : Of d tag (.keyword key v)
  | timestampOrEmpty (hkind : ∀ k ∈ gathering, tag.kind? ≠ some k) : Of d tag .timestampOrEmpty
  | ignore (hkind : ∀ k ∈ gathering, tag.kind? ≠ some k) : Of d tag .ignore

/-- The effects that a tag has by its kind. -/
inductive MadeBy (d : Declaration) (tag : Tag) : Effect → Prop
  | require (hkind : tag.kind? = some .required) : MadeBy d tag .require
  | hint {h : Hints} (hkind : tag.kind? = some .ui) : MadeBy d tag (.hint h)
  | permit {p : Fields String} (hkind : tag.kind? = some .can) : MadeBy d tag (.permit p)
  | timestampOrEmpty (hkind : tag.kind? = some .format) : MadeBy d tag .timestampOrEmpty
  | reference {name : Text} (hkind : tag.kind? = some .ref)
      (hcall : searchCall? "@ref(".toList d.rawType = some name) :
      MadeBy d tag (.keyword "$ref" (.text (FieldType.pointer name)))
  | keyword {k : Kind} {key : String} {v : Value} (hkind : tag.kind? = some k)
      (hkey : (k, key) ∈ Kind.keywords) : MadeBy d tag (.keyword key v)
  | ignore (hkind : ∀ k ∈ Kind.effective, tag.kind? ≠ some k) : MadeBy d tag .ignore

open Attempt in
theorem madeBy_ofTag (o : Options) (d : Declaration) (tag : Tag) :
    GivesIn (MadeBy d tag) (ofTag o d tag) := by
  unfold ofTag
  cases hk : tag.kind? with
  | none => exact givesIn_ok (.ignore (by simp [hk]))
  | some k =>
    cases k with
    | required => exact givesIn_ok (.require hk)
    | ui =>
      refine GivesIn.bind (givesIn_any (needArgument tag)) fun a _ => ?_
      exact GivesIn.bind (givesIn_any _) fun order _ => givesIn_ok (.hint hk)
    | can => exact (givesIn_any _).map fun p _ => .permit hk
    | ref =>
      simp only [ofRef]
      split
      · exact givesIn_error _
      · rename_i name hname
        exact givesIn_ok (.reference hk (Option.filter_eq_some_iff.mp hname).1)
    | limit l =>
      have hkey := Kind.mem_keywords_of_limit hk
      refine GivesIn.bind (givesIn_any (needArgument tag)) fun a _ => ?_
      dsimp only
      split
      · exact GivesIn.bind (givesIn_any _) fun n _ => givesIn_ok (.keyword hk hkey)
      · exact givesIn_error _
    | format =>
      refine GivesIn.bind (givesIn_any (needArgument tag)) fun a _ => givesIn_ok ?_
      split
      · exact .timestampOrEmpty hk
      · exact .keyword hk (by decide)
    | enum =>
      simp only [ofEnum]
      split
      · exact givesIn_error _
      · exact givesIn_ok (.keyword hk (by decide))
    | default =>
      simp only [ofDefault]
      split
      · exact givesIn_error _
      · exact (givesIn_any _).map fun v _ => .keyword hk (by decide)
    | const =>
      simp only [ofConst]
      split
      · exact givesIn_error _
      · exact (givesIn_any _).map fun v _ => .keyword hk (by decide)
    | pattern => exact (givesIn_any _).map fun a _ => .keyword hk (by decide)
    | uniqueItems | uuid | email => exact givesIn_ok (.keyword hk (by decide))
    | condition | sort | breadcrumb => exact givesIn_ok (.ignore (by rw [hk]; decide))

theorem of_madeBy {d : Declaration} {tag : Tag} {e : Effect} (h : MadeBy d tag e) :
    Of d tag e := by
  have hother {k : Kind} (hkind : tag.kind? = some k) (hk : k ∉ gathering) :
      ∀ k' ∈ gathering, tag.kind? ≠ some k' := by
    intro k' hk' he
    obtain rfl : k = k' := Option.some.inj (hkind.symm.trans he)
    exact hk hk'
  cases h with
  | require hkind => exact .require hkind
  | hint hkind => exact .hint hkind
  | permit hkind => exact .permit hkind
  | timestampOrEmpty hkind => exact .timestampOrEmpty (hother hkind (by decide))
  | reference hkind hcall => exact .reference hkind hcall
  | keyword hkind hkey =>
    obtain ⟨hk, href, hitems⟩ := keywords_apart _ hkey
    exact .keyword (hother hkind hk) href hitems
  | ignore hkind => exact .ignore fun k hk => hkind k (gathering_effective k hk)

theorem of_ofTag (o : Options) (d : Declaration) (tag : Tag) :
    Attempt.GivesIn (Of d tag) (ofTag o d tag) := by
  intro e h
  exact of_madeBy (madeBy_ofTag o d tag e h)

/-- The effects of those tags that have one. -/
def ofTags (o : Options) (d : Declaration) (tags : List Tag) : List Effect :=
  tags.filterMap fun tag => (ofTag o d tag).toOption

theorem mem_ofTags {o : Options} {d : Declaration} {tags : List Tag} {e : Effect} :
    e ∈ ofTags o d tags ↔ ∃ tag ∈ tags, ofTag o d tag = .ok e := by
  have hsome (tag : Tag) : (ofTag o d tag).toOption = some e ↔ ofTag o d tag = .ok e := by
    cases ofTag o d tag <;> simp [Except.toOption]
  simp only [ofTags, List.mem_filterMap, hsome]

theorem of_ofTags (o : Options) (d : Declaration) (tags : List Tag) :
    ∀ e ∈ ofTags o d tags, ∃ tag, Of d tag e := by
  intro e he
  obtain ⟨tag, -, hof⟩ := mem_ofTags.mp he
  exact ⟨tag, of_ofTag o d tag e hof⟩

end Effect

namespace FieldState

variable {o : Options} {d : Declaration} {tags : List Tag}

theorem apply_eq (field : String) (s : FieldState) (e : Effect) :
    s.apply field e = ⟨e.onSchema s.schema, s.gathered.absorb (e.gathered field)⟩ := by
  cases e <;> simp [apply, Effect.onSchema, Effect.gathered, Gathered.absorb, Fields.putAll]

theorem foldl_apply (field : String) (es : List Effect) (s : FieldState) :
    es.foldl (apply field) s =
      ⟨es.foldl Effect.onSchema s.schema,
        s.gathered.absorb (.concat (es.map (Effect.gathered field)))⟩ := by
  rw [← Gathered.foldl_absorb]
  induction es generalizing s with
  | nil => rfl
  | cons e es ih =>
    rw [List.foldl_cons, ih, apply_eq]
    rfl

theorem applyTags_ok {s : FieldState} (hok : (applyTags o d tags s).failure = none) :
    (∀ tag ∈ tags, ∃ e, Effect.ofTag o d tag = .ok e) ∧
      (applyTags o d tags s).state =
        (Effect.ofTags o d tags).foldl (apply (Text.str d.field)) s := by
  induction tags generalizing s with
  | nil => exact ⟨by simp, rfl⟩
  | cons tag tags ih =>
    simp only [applyTags] at hok ⊢
    cases hof : Effect.ofTag o d tag with
    | error f => simp [hof, Outcome.fail] at hok
    | ok e =>
      simp only [hof] at hok
      obtain ⟨hall, hstate⟩ := ih (s := s.apply (Text.str d.field) e) hok
      refine ⟨List.forall_mem_cons.mpr ⟨⟨e, hof⟩, hall⟩, ?_⟩
      simp only [Outcome.after, hstate, Effect.ofTags, List.filterMap_cons, hof, Except.toOption]
      rfl

/-- While tags are applied, only tags without an effect are noted. -/
theorem applyTags_events_ignored (s : FieldState) :
    ∀ e ∈ (applyTags o d tags s).events, ∃ tag field, e = .ignoredTag tag field := by
  induction tags generalizing s with
  | nil => simp [applyTags, Outcome.ok]
  | cons tag tags ih =>
    simp only [applyTags]
    cases Effect.ofTag o d tag with
    | error f => simp [Outcome.fail]
    | ok effect =>
      intro e he
      rcases List.mem_append.mp he with he | he
      · cases effect with
        | ignore => exact ⟨tag.raw, d.field, by simpa [eventsOf] using he⟩
        | _ => simp [eventsOf] at he
      · exact ih _ e he

end FieldState

/-- What a tag about a block adds. -/
inductive Addition where
  | rule (r : Rule)
  | sort (r : SortRule)
  | breadcrumb (r : BreadcrumbRule)
  | permissions (p : Fields String)

namespace Addition

def kind : Addition → Kind
  | .rule _ => .condition
  | .sort _ => .sort
  | .breadcrumb _ => .breadcrumb
  | .permissions _ => .can

/-- The kinds of tags by which a block gathers something about itself. -/
def kinds : List Kind := [.condition, .sort, .breadcrumb, .can]

def gathered : Addition → Gathered
  | .rule r => { rules := [r] }
  | .sort r => { sort := [r] }
  | .breadcrumb r => { breadcrumb := [r] }
  | .permissions p => { collection := p }

/-- The addition that a statement makes, if its tag is about a block. -/
def ofStatement? (o : Options) (t : Text) : Option (Except Failure Addition) :=
  match Kind.ofName? (Block.leadingTag t) with
  | some .condition => some ((Rule.compile o t).map .rule)
  | some .sort => some ((SortRule.compile t).map .sort)
  | some .breadcrumb => some ((BreadcrumbRule.compile t).map .breadcrumb)
  | some .can => some ((Permission.compile t).map .permissions)
  | _ => none

theorem tagChange?_eq (o : Options) (t : Text) :
    Block.tagChange? o t =
      (ofStatement? o t).map (Except.map fun a g => g.absorb a.gathered) := by
  have hrule : Gathered.addRule = fun r g => g.absorb (gathered (.rule r)) := by
    funext r g
    simp [Gathered.addRule, gathered, Gathered.absorb, Fields.putAll]
  have hsort : Gathered.addSort = fun r g => g.absorb (gathered (.sort r)) := by
    funext r g
    simp [Gathered.addSort, gathered, Gathered.absorb, Fields.putAll]
  have hbreadcrumb : Gathered.addBreadcrumb = fun r g => g.absorb (gathered (.breadcrumb r)) := by
    funext r g
    simp [Gathered.addBreadcrumb, gathered, Gathered.absorb, Fields.putAll]
  have hcan : Gathered.addCollection = fun p g => g.absorb (gathered (.permissions p)) := by
    funext p g
    simp [Gathered.addCollection, gathered, Gathered.absorb, Fields.putAll]
  have hmap {α : Type} (x : Except Failure α) (f : α → Addition) :
      x.map (fun a g => Gathered.absorb g (f a).gathered) =
        (x.map f).map fun a g => g.absorb a.gathered := by cases x <;> rfl
  unfold Block.tagChange? ofStatement?
  rw [hrule, hsort, hbreadcrumb, hcan]
  cases Kind.ofName? (Block.leadingTag t) with
  | none => rfl
  | some k =>
    cases k with
    | condition => exact congrArg some (hmap _ Addition.rule)
    | sort => exact congrArg some (hmap _ Addition.sort)
    | breadcrumb => exact congrArg some (hmap _ Addition.breadcrumb)
    | can => exact congrArg some (hmap _ Addition.permissions)
    | _ => rfl

theorem kind_of_ofStatement? {o : Options} {t : Text} {a : Addition}
    (h : ofStatement? o t = some (.ok a)) : Kind.ofName? (Block.leadingTag t) = some a.kind := by
  unfold ofStatement? at h
  cases hk : Kind.ofName? (Block.leadingTag t) with
  | none => simp [hk] at h
  | some k =>
    cases k with
    | condition | sort | breadcrumb | can =>
      simp only [hk, Option.some.injEq] at h
      obtain ⟨r, -, rfl⟩ := Attempt.map_eq_ok.mp h
      rfl
    | _ => simp [hk] at h

theorem kind_of_ofStatement?_eq_none {o : Options} {t : Text} (h : ofStatement? o t = none)
    {k : Kind} (hk : k ∈ kinds) : Kind.ofName? (Block.leadingTag t) ≠ some k := by
  intro hkind
  have hcases : k = .condition ∨ k = .sort ∨ k = .breadcrumb ∨ k = .can := by
    simpa [kinds] using hk
  unfold ofStatement? at h
  rcases hcases with rfl | rfl | rfl | rfl <;> simp [hkind] at h

end Addition

namespace Contribution

/-- What a field with these tags contributes. -/
def ofField (o : Options) (d : Declaration) (schema : Fields Value) (tags : List Tag) :
    Contribution :=
  let effects := Effect.ofTags o d tags
  ⟨[(Text.str d.field, .object (effects.foldl Effect.onSchema schema))],
    .concat (effects.map (Effect.gathered (Text.str d.field)))⟩

end Contribution

/-- The statement is a tag of this kind about its block. -/
def SourceLine.IsAbout (k : Kind) (line : SourceLine) : Prop :=
  Block.isTag line.text = true ∧ Kind.ofName? (Block.leadingTag line.text) = some k

instance (k : Kind) (line : SourceLine) : Decidable (line.IsAbout k) :=
  inferInstanceAs (Decidable (_ ∧ _))

/-- The entries of a statement. -/
def SourceLine.contribution (env : Setting) (line : SourceLine) : Contribution :=
  if Block.isTag line.text then
    match Addition.ofStatement? env.options line.text with
    | some (.ok a) => ⟨[], a.gathered⟩
    | _ => {}
  else match Block.prepare env line with
    | .ok (d, schema, tags) => .ofField env.options d schema tags
    | .error _ => {}

namespace Block

variable {env : Setting} {line : SourceLine} {b : Block}

/-- What a statement can do without failing: its entries, and what is noted. -/
inductive Takes (env : Setting) (line : SourceLine) (b : Block) : Contribution → List Event → Prop
  | field {d : Declaration} {schema : Fields Value} {tags : List Tag} {ignored : List Event}
      (hfield : isTag line.text = false) (hprepare : prepare env line = .ok (d, schema, tags))
      (heffects : ∀ tag ∈ tags, ∃ e, Effect.ofTag env.options d tag = .ok e)
      (hignored : ∀ e ∈ ignored, ∃ tag field, e = .ignoredTag tag field) :
      Takes env line b (.ofField env.options d schema tags)
        (ignored ++ b.declaredTwice env line d.field)
  | tag {a : Addition} (htag : isTag line.text = true)
      (hadds : Addition.ofStatement? env.options line.text = some (.ok a)) :
      Takes env line b ⟨[], a.gathered⟩ []
  | skipped (htag : isTag line.text = true)
      (hnone : Addition.ofStatement? env.options line.text = none) :
      Takes env line b {} [.skipped env.source line.number line.text]

theorem takes_of_ok (hok : (b.addStatement env line).failure = none) :
    ∃ c events, Takes env line b c events ∧ line.contribution env = c ∧
      b.addStatement env line = .ok (b.absorb c) events := by
  simp only [addStatement, Option.map_eq_none_iff] at hok ⊢
  cases htag : isTag line.text with
  | true =>
    simp only [htag, if_true, addTag, Addition.tagChange?_eq] at hok ⊢
    simp only [SourceLine.contribution, htag, if_true]
    cases hadds : Addition.ofStatement? env.options line.text with
    | none =>
      refine ⟨_, _, .skipped htag hadds, rfl, ?_⟩
      simp [absorb, Gathered.absorb_nothing, Fields.putAll, Outcome.ok]
    | some x =>
      cases x with
      | error f => simp [hadds, Except.map, Outcome.fail] at hok
      | ok a => exact ⟨_, _, .tag htag hadds, rfl, rfl⟩
  | false =>
    simp only [htag, Bool.false_eq_true, if_false, addField] at hok ⊢
    simp only [SourceLine.contribution, htag, Bool.false_eq_true, if_false]
    cases hprepare : prepare env line with
    | error f => simp [hprepare, Outcome.fail] at hok
    | ok p =>
      obtain ⟨d, schema, tags⟩ := p
      simp only [hprepare] at hok ⊢
      have happly := @FieldState.applyTags_ok env.options d tags ⟨schema, b.gathered⟩
      have hignored := @FieldState.applyTags_events_ignored env.options d tags ⟨schema, b.gathered⟩
      cases ho : FieldState.applyTags env.options d tags ⟨schema, b.gathered⟩ with
      | mk s events failure =>
        rw [ho] at happly hignored
        cases failure with
        | some f => simp [ho, Outcome.fail] at hok
        | none =>
          obtain ⟨heffects, hstate⟩ := happly rfl
          refine ⟨_, _, .field htag hprepare heffects hignored, rfl, ?_⟩
          simp only at hstate
          simp only [Outcome.ok, store, hstate, FieldState.foldl_apply]
          rfl

theorem state_addStatement (hok : (b.addStatement env line).failure = none) :
    (b.addStatement env line).state = b.absorb (line.contribution env) := by
  obtain ⟨c, events, -, rfl, hadd⟩ := takes_of_ok hok
  rw [hadd]
  rfl

/-- The statements of a block write their entries in order. -/
theorem addAll_eq_absorb {lines : List SourceLine}
    (hok : ∀ line ∈ lines, (b.addStatement env line).failure = none) :
    b.addAll env lines = b.absorb (.concat (lines.map (SourceLine.contribution env))) := by
  rw [← foldl_absorb]
  induction lines generalizing b with
  | nil => rfl
  | cons line lines ih =>
    obtain ⟨hline, hlines⟩ := List.forall_mem_cons.mp hok
    have hrest := ih (b := (b.addStatement env line).state)
      fun l hl => (addStatement_failure env l _ b).trans (hlines l hl)
    change (b.addStatement env line).state.addAll env lines = _
    rw [hrest, state_addStatement hline]
    rfl

end Block

namespace Section

variable {env : Setting} {s : Section}

/-- The statements of the block compile. -/
def Compiles (env : Setting) (s : Section) : Prop :=
  ∀ line ∈ s.own, (s.heading.block.addStatement env line).failure = none

/-- The entries of all statements of the block. -/
def contribution (env : Setting) (s : Section) : Contribution :=
  .concat (s.own.map (SourceLine.contribution env))

theorem frame_eq_absorb (hc : s.Compiles env) :
    s.frame env = s.heading.block.absorb (s.contribution env) := Block.addAll_eq_absorb hc

theorem properties_frame (hc : s.Compiles env) :
    (s.frame env).properties = Fields.ofEntries (s.contribution env).properties := by
  rw [frame_eq_absorb hc]
  rfl

theorem gathered_frame (hc : s.Compiles env) :
    (s.frame env).gathered = Gathered.absorb {} (s.contribution env).gathered := by
  rw [frame_eq_absorb hc]
  rfl

end Section

end ModelSchema
