import ModelSchema.Proofs.Default
import ModelSchema.Proofs.Refinement
import ModelSchema.Proofs.Transport

namespace ModelSchema

namespace Fields

/-- The table with the value of one key changed. -/
def modify (key : String) (f : Value → Value) (fs : Fields Value) : Fields Value :=
  fs.map fun e => (e.1, if e.1 = key then f e.2 else e.2)

theorem modify_append (key : String) (f : Value → Value) (fs gs : Fields Value) :
    modify key f (fs ++ gs) = modify key f fs ++ modify key f gs := List.map_append

theorem modify_put (key : String) (f : Value → Value) (k : String) (v : Value)
    (fs : Fields Value) :
    modify key f (fs.put k v) = (modify key f fs).put k (if k = key then f v else v) := by
  induction fs with
  | nil => rfl
  | cons e fs ih =>
    by_cases hk : e.1 = k
    · simp [put, modify, hk]
    · simpa [put, modify, hk] using ih

theorem modify_erase (key : String) (f : Value → Value) (k : String) (fs : Fields Value) :
    modify key f (fs.erase k) = (modify key f fs).erase k := by
  induction fs with
  | nil => rfl
  | cons e fs ih =>
    by_cases hk : e.1 = k
    · simp [erase, modify, hk]
    · simpa [erase, modify, hk] using ih

end Fields

namespace Value

def onFields (f : Fields Value → Fields Value) : Value → Value
  | .object fs => .object (f fs)
  | v => v

def onItems (f : Value → Value) : Value → Value
  | .array vs => .array (vs.map f)
  | v => v

end Value

/-- The condition without the property that each level of its path requires. -/
def Rule.loosen : Fields Value → Fields Value
  | ("properties", .object [(segment, .object inner)]) :: rest =>
    ("properties", .object [(segment, .object (loosen inner))]) :: Fields.erase "required" rest
  | keywords => keywords

namespace Neutral

/-- A field with any default. -/
def field : Fields Value → Fields Value := Fields.modify "default" fun _ => .null

def properties : Fields Value → Fields Value := List.map fun e => (e.1, e.2.onFields field)

def rule : Fields Value → Fields Value := Fields.modify "if" (Value.onFields Rule.loosen)

def object (fs : Fields Value) : Fields Value :=
  Fields.modify "allOf" (Value.onItems (Value.onFields rule))
    (Fields.modify "properties" (Value.onFields properties) fs)

/-- The schema of a block, which describes an object or an array of objects. -/
def node (fs : Fields Value) : Fields Value :=
  object (Fields.modify "items" (Value.onFields object) fs)

/-- The schema of a document: without what conditions require along their paths, and with the
defaults of fields set to nothing. -/
def schema : Value → Value
  | .object (("$defs", .object defs) :: root) =>
    .object (("$defs", .object (defs.map fun e => (e.1, e.2.onFields node))) :: node root)
  | v => v

end Neutral

namespace Rule

def neutral (r : Rule) : Rule := { r with antecedent := loosen r.antecedent }

/-- No value among the keywords is an object. -/
def IsFlat (keywords : Fields Value) : Prop := ∀ e ∈ keywords, ∀ fs, e.2 ≠ .object fs

theorem loosen_of_isFlat {keywords : Fields Value} (h : IsFlat keywords) :
    loosen keywords = keywords := by
  unfold loosen
  split
  · exact absurd rfl (h _ List.mem_cons_self _)
  · rfl

theorem loosen_nest {keywords : Fields Value} (h : IsFlat keywords) (strict : Bool)
    (path : List Text) : loosen (nest strict path keywords) = nest false path keywords := by
  induction path with
  | nil => exact loosen_of_isFlat h
  | cons segment path ih =>
    change loosen (wrap strict segment (nest strict path keywords)) =
      wrap false segment (nest false path keywords)
    rw [← ih]
    cases strict <;> simp [wrap, loosen, Fields.erase]

open Attempt

theorem coerce_not_object (hint : Option Text) (raw : Text) :
    GivesIn (fun v => ∀ fs, v ≠ Value.object fs) (Literal.coerce hint raw) := by
  unfold Literal.coerce
  dsimp only
  split
  · exact givesIn_ok nofun
  · split
    · exact givesIn_ok nofun
    · split
      · exact (givesIn_any _).map fun n _ => nofun
      · exact givesIn_ok nofun

theorem isFlat_addCondition (expression : Text) {keywords : Fields Value} (h : IsFlat keywords)
    (tag : Tag) : GivesIn IsFlat (addCondition expression keywords tag) := by
  have hvalue (a : Text) :
      GivesIn (fun v => ∀ fs, v ≠ Value.object fs) (keywordValue tag.kind? a) := by
    unfold keywordValue
    split
    · exact givesIn_ok nofun
    · intro v hv
      exact coerce_not_object none a v (mapError_eq_ok.mp hv)
  unfold addCondition
  split
  · exact givesIn_error _
  · rename_i a ha
    refine (hvalue a).map ?_
    intro v hv e he
    rcases Fields.mem_put he with hsame | hmem
    · rw [hsame]
      exact hv
    · exact h e hmem

theorem assemble_neutral (o o' : Options) (path : List Text) (expression : Text)
    (conditions actions : List Tag) :
    (assemble o path expression conditions actions).map neutral =
      (assemble o' path expression conditions actions).map neutral := by
  unfold assemble
  split
  · rfl
  · split
    · rfl
    · have hflat : GivesIn IsFlat (conditions.foldlM (addCondition expression) []) :=
        givesIn_foldlM (fun keywords tag h => isFlat_addCondition expression h tag)
          (by simp [IsFlat]) conditions
      simp only [buildAntecedent]
      cases hkeywords : conditions.foldlM (addCondition expression) [] with
      | error f => rfl
      | ok keywords =>
        cases buildConsequent expression actions with
        | error f => rfl
        | ok consequent =>
          have hloosen := loosen_nest (hflat keywords hkeywords)
          have hsame : loosen (nest o.requireConditionProperties path keywords) =
              loosen (nest o'.requireConditionProperties path keywords) := by
            rw [hloosen, hloosen]
          exact congrArg (fun antecedent => Except.ok (⟨antecedent, consequent⟩ : Rule)) hsame

/-- Rules are the same but for what their conditions require. -/
theorem compile_neutral (o o' : Options) (expression : Text) :
    (compile o expression).map neutral = (compile o' expression).map neutral := by
  rw [compile_eq, compile_eq]
  cases parts expression with
  | error f => rfl
  | ok p =>
    obtain ⟨path, conditionText, actionText⟩ := p
    simp only
    cases Tag.scanPart conditionText with
    | error f => rfl
    | ok conditions =>
      cases Tag.scanPart actionText with
      | error f => rfl
      | ok actions => exact assemble_neutral o o' path expression conditions actions

end Rule

namespace Effect

def neutral : Effect → Effect
  | .keyword key v => .keyword key (if key = "default" then .null else v)
  | e => e

theorem ofTag_neutral {tag : Tag} (o o' : Options) (d : Declaration)
    (hshort : ∀ raw ∈ tag.default?, ¬LongInteger (Text.strip raw)) :
    (ofTag o d tag).map neutral = (ofTag o' d tag).map neutral := by
  by_cases hkind : tag.kind? = some .default
  · simp only [ofTag, hkind, ofDefault]
    cases ha : tag.argument with
    | none => rfl
    | some raw =>
      have hraw := hshort raw (by simp [Tag.default?, hkind, ha])
      have hvalue (o : Options) : (literalKeyword "default" (defaultHint o d) raw).map neutral =
          .ok (.keyword "default" .null) := by
        cases hcoerce : Literal.coerce (defaultHint o d) raw with
        | error f => exact absurd (Literal.coerce_eq_error.mp ⟨f, hcoerce⟩).2 hraw
        | ok v =>
          rw [literalKeyword, hcoerce]
          rfl
      exact (hvalue o).trans (hvalue o').symm
  · have hsame : ofTag o d tag = ofTag o' d tag := by
      unfold ofTag
      cases hk : tag.kind? with
      | none => rfl
      | some k =>
        cases k with
        | default => exact absurd hk hkind
        | _ => rfl
    rw [hsame]

end Effect

def Gathered.neutral (g : Gathered) : Gathered := { g with rules := g.rules.map Rule.neutral }

namespace FieldState

def neutral (s : FieldState) : FieldState := ⟨Neutral.field s.schema, s.gathered.neutral⟩

theorem apply_neutral (field : String) (s : FieldState) (e : Effect) :
    (s.apply field e).neutral = s.neutral.apply field e.neutral := by
  cases e with
  | keyword key v =>
    simp only [apply, neutral, Effect.neutral, Neutral.field, Fields.modify_put]
  | timestampOrEmpty =>
    simp only [apply, neutral, Effect.neutral, Neutral.field, Fields.modify_put,
      Fields.modify_erase]
    rfl
  | require => rfl
  | hint h => rfl
  | permit p => rfl
  | ignore => rfl

theorem eventsOf_neutral (d : Declaration) (tag : Tag) (e : Effect) :
    eventsOf d tag e.neutral = eventsOf d tag e := by
  cases e <;> rfl

theorem applyTags_neutral {tags : List Tag} {s s' : FieldState} (o o' : Options) (d : Declaration)
    (hshort : ∀ tag ∈ tags, ∀ raw ∈ tag.default?, ¬LongInteger (Text.strip raw))
    (h : s.neutral = s'.neutral) :
    (applyTags o d tags s).renumber .refl neutral =
      (applyTags o' d tags s').renumber .refl neutral := by
  induction tags generalizing s s' with
  | nil =>
    simp only [applyTags, Outcome.ok, Outcome.renumber_refl, h]
  | cons tag tags ih =>
    obtain ⟨htag, htags⟩ := List.forall_mem_cons.mp hshort
    have heffect := Effect.ofTag_neutral o o' d htag
    simp only [applyTags]
    cases hof : Effect.ofTag o d tag with
    | error f =>
      cases hof' : Effect.ofTag o' d tag with
      | ok e' =>
        rw [hof, hof'] at heffect
        cases heffect
      | error f' =>
        rw [hof, hof'] at heffect
        obtain rfl : f = f' := Except.error.inj heffect
        simp only [Outcome.fail, Outcome.renumber_refl, h]
    | ok e =>
      cases hof' : Effect.ofTag o' d tag with
      | error f' =>
        rw [hof, hof'] at heffect
        cases heffect
      | ok e' =>
        rw [hof, hof'] at heffect
        have hsame : e.neutral = e'.neutral := Except.ok.inj heffect
        have hevents : eventsOf d tag e = eventsOf d tag e' := by
          rw [← eventsOf_neutral, hsame, eventsOf_neutral]
        have hnext : (s.apply (Text.str d.field) e).neutral =
            (s'.apply (Text.str d.field) e').neutral := by
          rw [apply_neutral, apply_neutral, h, hsame]
        rw [Outcome.after_renumber, Outcome.after_renumber, ih htags hnext, hevents]

end FieldState

namespace Block

def neutral (b : Block) : Block :=
  { b with properties := Neutral.properties b.properties, gathered := b.gathered.neutral }

theorem modify_unlessEmpty (k : String) (f : Value → Value) (empty : Bool) (key : String)
    (v : Value) : Fields.modify k f (Gathered.unlessEmpty empty key v) =
      Gathered.unlessEmpty empty key (if key = k then f v else v) := by
  cases empty <;> rfl

theorem modify_items_entries (g : Gathered) (f : Value → Value) :
    Fields.modify "items" f g.entries = g.entries := by
  simp [Gathered.entries, Gathered.plainEntries, Fields.modify_append, modify_unlessEmpty]

theorem object_entries (g : Gathered) : Neutral.object g.entries = g.neutral.entries := by
  have hrules : Value.onItems (Value.onFields Neutral.rule) (.array (g.rules.map Rule.toValue)) =
      .array (g.neutral.rules.map Rule.toValue) := by
    simp only [Value.onItems, Gathered.neutral, List.map_map]
    rfl
  have hempty : g.neutral.rules.isEmpty = g.rules.isEmpty := by simp [Gathered.neutral]
  simp only [Neutral.object, Gathered.entries, Gathered.plainEntries, Fields.modify_append,
    modify_unlessEmpty, String.reduceEq, if_false, if_true, hrules, hempty]
  rfl

theorem node_schema (b : Block) {further : Fields Value}
    (hitems : ∀ f, Fields.modify "items" f further = further) :
    Neutral.node (b.schema further) = b.neutral.schema (Neutral.object further) := by
  have hbody (f : Value → Value) :
      Fields.modify "items" f (b.body further) = b.body further := by
    have h := hitems f
    simp only [Fields.modify] at h
    simp [Fields.modify, body, h]
  have hshape : b.neutral.shape = b.shape := rfl
  simp only [schema, hshape]
  cases b.shape with
  | model =>
    change Neutral.object (("title", .text b.key) :: Fields.modify "items" _ (b.body further)) = _
    rw [hbody]
    rfl
  | object =>
    change Neutral.object (Fields.modify "items" _ (b.body further)) = _
    rw [hbody]
    rfl
  | array => rfl

theorem openSchema_neutral (b : Block) : b.neutral.openSchema = Neutral.node b.openSchema := by
  have hnil : ∀ f, Fields.modify "items" f [] = [] := fun _ => rfl
  exact (b.node_schema hnil).symm

theorem closedSchema_neutral (b : Block) :
    b.neutral.closedSchema = Neutral.node b.closedSchema := by
  have h := b.node_schema (modify_items_entries b.gathered)
  rw [object_entries] at h
  exact h.symm

variable {b c : Block} {line : SourceLine}

theorem store_neutral (h : b.neutral = c.neutral) (field : Text) {s s' : FieldState}
    (hs : s.neutral = s'.neutral) : (b.store field s).neutral = (c.store field s').neutral := by
  have hstore (b : Block) (s : FieldState) : (b.store field s).neutral =
      { b.neutral with
        properties := b.neutral.properties.put (Text.str field) (.object s.neutral.schema)
        gathered := s.neutral.gathered } := by
    simp only [neutral, store, Neutral.properties]
    rw [Fields.map_put (Value.onFields Neutral.field)]
    rfl
  rw [hstore, hstore, h, hs]

theorem declaredTwice_neutral (source : String) (o o' : Options) (line : SourceLine)
    (field : Text) (h : b.neutral = c.neutral) :
    b.declaredTwice ⟨source, o⟩ line field = c.declaredTwice ⟨source, o'⟩ line field := by
  have hhas (b : Block) : b.properties.has (Text.str field) =
      b.neutral.properties.has (Text.str field) := by
    simp only [Fields.has, neutral, Neutral.properties, Fields.get?_mapValues, Option.isSome_map]
  have hname : b.neutral.name = c.neutral.name := by rw [h]
  simp only [declaredTwice, hhas b, hhas c, h]
  rw [show b.name = c.name from hname]

/-- Of a tag about the block only the conditions depend on the options. -/
theorem tagChange?_neutral (o o' : Options) (t : Text) {g g' : Gathered}
    (h : g.neutral = g'.neutral) :
    (tagChange? o t).map (Except.map fun f => (f g).neutral) =
      (tagChange? o' t).map (Except.map fun f => (f g').neutral) := by
  have hrule (g : Gathered) (r : Rule) : (g.addRule r).neutral =
      { g.neutral with rules := g.neutral.rules ++ [r.neutral] } := by
    simp [Gathered.addRule, Gathered.neutral]
  have hcommute {α : Type} (x : Except Failure α) (f : α → Gathered → Gathered)
      (hf : ∀ a g, (f a g).neutral = f a g.neutral) :
      (x.map f).map (fun f => (f g).neutral) = (x.map f).map fun f => (f g').neutral := by
    cases x with
    | error e => rfl
    | ok a =>
      have hsame : (f a g).neutral = (f a g').neutral := by rw [hf, hf, h]
      exact congrArg Except.ok hsame
  unfold tagChange?
  cases Kind.ofName? (leadingTag t) with
  | none => rfl
  | some k =>
    cases k with
    | condition =>
      have hcompile := Rule.compile_neutral o o' t
      apply congrArg some
      cases hr : Rule.compile o t with
      | error f =>
        cases hr' : Rule.compile o' t with
        | error f' =>
          rw [hr, hr'] at hcompile
          rw [Except.error.inj hcompile]
          rfl
        | ok r' =>
          rw [hr, hr'] at hcompile
          cases hcompile
      | ok r =>
        cases hr' : Rule.compile o' t with
        | error f' =>
          rw [hr, hr'] at hcompile
          cases hcompile
        | ok r' =>
          rw [hr, hr'] at hcompile
          have hneutral : r.neutral = r'.neutral := Except.ok.inj hcompile
          have hsame : (g.addRule r).neutral = (g'.addRule r').neutral := by
            rw [hrule, hrule, h, hneutral]
          exact congrArg Except.ok hsame
    | breadcrumb => exact congrArg some (hcommute _ Gathered.addBreadcrumb fun _ _ => rfl)
    | sort => exact congrArg some (hcommute _ Gathered.addSort fun _ _ => rfl)
    | can => exact congrArg some (hcommute _ Gathered.addCollection fun _ _ => rfl)
    | _ => rfl

theorem addTag_eq (env : Setting) (line : SourceLine) (b : Block) :
    (b.addTag env line).renumber .refl neutral =
      match (tagChange? env.options line.text).map
        (Except.map fun f => (f b.gathered).neutral) with
      | none => ⟨b.neutral, [.skipped env.source line.number line.text], none⟩
      | some (.error f) => ⟨b.neutral, [], some f⟩
      | some (.ok g) => ⟨{ b.neutral with gathered := g }, [], none⟩ := by
  rw [Outcome.renumber_refl, addTag]
  cases tagChange? env.options line.text with
  | none => rfl
  | some change => cases change <;> rfl

theorem addTag_neutral (source : String) (o o' : Options) (line : SourceLine)
    (h : b.neutral = c.neutral) :
    (b.addTag ⟨source, o⟩ line).renumber .refl neutral =
      (c.addTag ⟨source, o'⟩ line).renumber .refl neutral := by
  have hgathered : b.neutral.gathered = c.neutral.gathered := by rw [h]
  rw [addTag_eq, addTag_eq, h]
  simp only
  rw [tagChange?_neutral o o' line.text hgathered]

theorem addField_neutral (source : String) (o o' : Options) (h : b.neutral = c.neutral)
    (htag : isTag line.text = false)
    (hshort : ∀ p ∈ line.declaration?, ∀ raw ∈ p.2, ¬LongInteger (Text.strip raw)) :
    (b.addField ⟨source, o⟩ line).renumber .refl neutral =
      (c.addField ⟨source, o'⟩ line).renumber .refl neutral := by
  have hprepare : prepare ⟨source, o'⟩ line = prepare ⟨source, o⟩ line := rfl
  simp only [addField, hprepare]
  cases hp : prepare ⟨source, o⟩ line with
  | error f => simp only [Outcome.fail, Outcome.renumber_refl, h]
  | ok p =>
    obtain ⟨d, schema, tags⟩ := p
    have htags : ∀ tag ∈ tags, ∀ raw ∈ tag.default?, ¬LongInteger (Text.strip raw) := by
      intro tag hmem raw hraw
      apply hshort _ (SourceLine.declaration?_of_prepare htag hp)
      exact List.mem_filterMap.mpr ⟨tag, hmem, hraw⟩
    have hstart : (⟨schema, b.gathered⟩ : FieldState).neutral =
        (⟨schema, c.gathered⟩ : FieldState).neutral :=
      congrArg (FieldState.mk (Neutral.field schema)) (congrArg Block.gathered h)
    have happly := FieldState.applyTags_neutral o o' d htags hstart
    rw [Outcome.renumber_refl, Outcome.renumber_refl] at happly
    cases hx : FieldState.applyTags o d tags ⟨schema, b.gathered⟩ with
    | mk s events failure =>
      cases hx' : FieldState.applyTags o' d tags ⟨schema, c.gathered⟩ with
      | mk s' events' failure' =>
        rw [hx, hx'] at happly
        simp only [Outcome.mk.injEq] at happly
        obtain ⟨hs, rfl, rfl⟩ := happly
        simp only [hx, hx']
        cases failure with
        | some f => simp only [Outcome.fail, Outcome.renumber_refl, h]
        | none =>
          simp only [Outcome.ok, Outcome.renumber_refl, store_neutral h d.field hs,
            declaredTwice_neutral source o o' line d.field h]

theorem addStatement_neutral (source : String) (o o' : Options) (h : b.neutral = c.neutral)
    (hshort : ∀ p ∈ line.declaration?, ∀ raw ∈ p.2, ¬LongInteger (Text.strip raw)) :
    (b.addStatement ⟨source, o⟩ line).renumber .refl neutral =
      (c.addStatement ⟨source, o'⟩ line).renumber .refl neutral := by
  have hlocate {x x' : Outcome Block} (hx : x.renumber .refl neutral = x'.renumber .refl neutral) :
      (⟨x.state, x.events, x.failure.map (·.locate (Setting.lineStart ⟨source, o⟩ line))⟩ :
        Outcome Block).renumber .refl neutral =
      (⟨x'.state, x'.events, x'.failure.map (·.locate (Setting.lineStart ⟨source, o'⟩ line))⟩ :
        Outcome Block).renumber .refl neutral := by
    rw [Outcome.renumber_refl, Outcome.renumber_refl] at hx ⊢
    obtain ⟨hstate, hevents, hfailure⟩ := Outcome.mk.inj hx
    simp only [hstate, hevents, hfailure]
    rfl
  simp only [addStatement]
  cases htag : isTag line.text with
  | true => exact hlocate (addTag_neutral source o o' line h)
  | false => exact hlocate (addField_neutral source o o' h htag hshort)

end Block

/-- Blocks and schemas in their neutral form. -/
def Neutral.transport : Transport where
  numbers := .refl
  block := Block.neutral
  schema := node
  header_block _ := rfl
  name_block _ := rfl
  shape_block _ := rfl
  block_new _ _ _ := rfl
  openSchema_block := Block.openSchema_neutral
  closedSchema_block := Block.closedSchema_neutral

theorem Outcome.andThen_neutral {α : Type} {f : α → α} {x x' : Outcome α}
    {next next' : α → Outcome α} (h : x.renumber .refl f = x'.renumber .refl f)
    (hnext : f x.state = f x'.state →
      (next x.state).renumber .refl f = (next' x'.state).renumber .refl f) :
    (x.andThen next).renumber .refl f = (x'.andThen next').renumber .refl f := by
  obtain ⟨s, events, failure⟩ := x
  obtain ⟨s', events', failure'⟩ := x'
  simp only [renumber_refl, mk.injEq] at h
  obtain ⟨hs, rfl, rfl⟩ := h
  cases failure with
  | some g => simp only [andThen, renumber_refl, hs]
  | none =>
    simp only [andThen]
    rw [after_renumber, after_renumber, hnext hs]

namespace Machine

def neutral (m : Machine) : Machine := Neutral.transport.machine m

theorem schema_neutral (m : Machine) : m.neutral.schema = Neutral.schema m.schema := by
  simp only [schema, Document.toValue, Document.definitionsValue, neutral, Transport.machine,
    Transport.document, List.map_map]
  simp only [Neutral.schema, List.map_map]
  rfl

variable (source : String) (o o' : Options) {m n : Machine} {line : SourceLine}
  {lines : List SourceLine}

theorem addStatement_neutral (h : m.neutral = n.neutral)
    (hshort : ∀ p ∈ line.declaration?, ∀ raw ∈ p.2, ¬LongInteger (Text.strip raw)) :
    (m.addStatement ⟨source, o⟩ line).renumber .refl neutral =
      (n.addStatement ⟨source, o'⟩ line).renumber .refl neutral := by
  have hstacks : m.stack.map Block.neutral = n.stack.map Block.neutral := congrArg Machine.stack h
  cases hm : m.stack with
  | nil =>
    have hn : n.stack = [] := by simpa [hm] using hstacks.symm
    simp only [addStatement, hm, hn, failAt, Outcome.fail, Outcome.renumber_refl, h]
    rfl
  | cons b stack =>
    cases hn : n.stack with
    | nil => simp [hm, hn] at hstacks
    | cons c stack' =>
      rw [hm, hn, List.map_cons, List.map_cons, List.cons.injEq] at hstacks
      have hstatement := Block.addStatement_neutral source o o' hstacks.1 hshort
      have hfinish := Neutral.transport.finish m stack (b.addStatement ⟨source, o⟩ line)
      have hfinish' := Neutral.transport.finish n stack' (c.addStatement ⟨source, o'⟩ line)
      rw [addStatement_cons hm, addStatement_cons hn]
      refine hfinish.symm.trans (Eq.trans ?_ hfinish')
      change m.neutral.finish (stack.map Block.neutral) (Outcome.renumber .refl Block.neutral _) =
        n.neutral.finish (stack'.map Block.neutral) (Outcome.renumber .refl Block.neutral _)
      rw [h, hstacks.2, hstatement]

/-- A line does the same under any two options, up to neutral forms. -/
theorem step_neutral (h : m.neutral = n.neutral)
    (hshort : ∀ p ∈ line.declaration?, ∀ raw ∈ p.2, ¬LongInteger (Text.strip raw)) :
    (m.step ⟨source, o⟩ line).renumber .refl neutral =
      (n.step ⟨source, o'⟩ line).renumber .refl neutral := by
  -- Headers and ends of blocks look at the name of the source only.
  have hsame {x x' : Outcome Machine} {y : Machine → Outcome Machine}
      (hx : y m.neutral = x.renumber .refl neutral)
      (hx' : y n.neutral = x'.renumber .refl neutral) :
      x.renumber .refl neutral = x'.renumber .refl neutral := by rw [← hx, ← hx', h]
  simp only [step]
  cases LineKind.of line.text with
  | definition =>
    exact hsame (y := fun m => m.openDefinition ⟨source, o⟩ line)
      (Neutral.transport.openDefinition ⟨source, o⟩ m line)
      (Neutral.transport.openDefinition ⟨source, o'⟩ n line)
  | model =>
    exact hsame (y := fun m => m.openModel ⟨source, o⟩ line)
      (Neutral.transport.openModel ⟨source, o⟩ m line)
      (Neutral.transport.openModel ⟨source, o'⟩ n line)
  | close =>
    exact hsame (y := fun m => m.closeBlock ⟨source, o⟩ line)
      (Neutral.transport.closeBlock ⟨source, o⟩ m line)
      (Neutral.transport.closeBlock ⟨source, o'⟩ n line)
  | statement => exact addStatement_neutral source o o' h hshort

theorem feed_neutral (h : m.neutral = n.neutral)
    (hshort : ∀ line ∈ lines, ∀ p ∈ line.declaration?, ∀ raw ∈ p.2,
      ¬LongInteger (Text.strip raw)) :
    (feed ⟨source, o⟩ lines m).renumber .refl neutral =
      (feed ⟨source, o'⟩ lines n).renumber .refl neutral := by
  induction lines generalizing m n with
  | nil => simp only [feed, Outcome.ok, Outcome.renumber_refl, h]
  | cons line lines ih =>
    obtain ⟨hline, hlines⟩ := List.forall_mem_cons.mp hshort
    exact Outcome.andThen_neutral (step_neutral source o o' h hline) fun hnext => ih hnext hlines

theorem run_neutral (h : m.neutral = n.neutral)
    (hshort : ∀ line ∈ lines, ∀ p ∈ line.declaration?, ∀ raw ∈ p.2,
      ¬LongInteger (Text.strip raw)) :
    (run ⟨source, o⟩ lines m).renumber .refl neutral =
      (run ⟨source, o'⟩ lines n).renumber .refl neutral := by
  rw [run_eq_feed, run_eq_feed]
  refine Outcome.andThen_neutral (feed_neutral source o o' h hshort) ?_
  intro hend
  have hopen := Neutral.transport.unclosed? ⟨source, o⟩ (feed ⟨source, o⟩ lines m).state
  have hopen' := Neutral.transport.unclosed? ⟨source, o'⟩ (feed ⟨source, o'⟩ lines n).state
  have hsame : (neutral (feed ⟨source, o⟩ lines m).state).unclosed? ⟨source, o⟩ =
      (neutral (feed ⟨source, o'⟩ lines n).state).unclosed? ⟨source, o'⟩ := by
    rw [hend]
    rfl
  simp only [Outcome.renumber, hend]
  exact congrArg (Outcome.mk _ _) (hopen.symm.trans (hsame.trans hopen'))

end Machine

/-- Options change what they say and nothing else. With short integers a document has the same
failure and the same events under any two options, and the schemas have the same neutral form.
Where the default of a field is not the same, the field holds no numbers and the literal looks
like one: it is the text itself for typed defaults, and the number otherwise. -/
theorem compile_of_options (source : String) (o o' : Options) (text : Text)
    (hshort : ∀ line ∈ SourceLine.read text, ∀ p ∈ line.declaration?, ∀ raw ∈ p.2,
      ¬LongInteger (Text.strip raw)) :
    (compile ⟨source, o⟩ text).failure = (compile ⟨source, o'⟩ text).failure ∧
      (compile ⟨source, o⟩ text).events = (compile ⟨source, o'⟩ text).events ∧
      Neutral.schema (compile ⟨source, o⟩ text).state =
        Neutral.schema (compile ⟨source, o'⟩ text).state ∧
      ((compile ⟨source, o⟩ text).failure = none →
        ∃ F : Forest, F.lines = SourceLine.read text ∧ F.WellFormed ∧
          (compile ⟨source, o⟩ text).state = F.schema ⟨source, o⟩ ∧
          (compile ⟨source, o'⟩ text).state = F.schema ⟨source, o'⟩ ∧
          ∀ s ∈ F.sections, ∀ field v v', (s.frame ⟨source, o⟩).default? field = some v →
            (s.frame ⟨source, o'⟩).default? field = some v' → v ≠ v' →
            ∃ d raw, s.default? field = some (d, raw) ∧
              FieldType.declared d.rawType ∉ Literal.numericTypes ∧
              Number.isNumeral (Text.strip raw) = true ∧
              o.coercion.Reads (Text.strip raw) v ∧ o'.coercion.Reads (Text.strip raw) v') := by
  have hrun := Machine.run_neutral source o o' (m := {}) (n := {}) rfl hshort
  rw [Outcome.renumber_refl, Outcome.renumber_refl, Outcome.mk.injEq] at hrun
  obtain ⟨hstate, hevents, hfailure⟩ := hrun
  refine ⟨hfailure, hevents, ?_, ?_⟩
  · have hschema := congrArg Machine.schema hstate
    rwa [Machine.schema_neutral, Machine.schema_neutral] at hschema
  · intro hok
    have hok' : (compile ⟨source, o'⟩ text).failure = none := hfailure.symm.trans hok
    obtain ⟨F, hlines, hF, hc, hmodels⟩ := Machine.forest_of_run hok
    obtain ⟨G, hlines', hG, hc', -⟩ := Machine.forest_of_run hok'
    obtain rfl : F = G := Forest.lines_inj hF hG (hlines.trans hlines'.symm)
    have hnodup : (F.lines.map SourceLine.number).Nodup := by
      rw [hlines]
      exact SourceLine.nodup_numbers text
    have hschema {o : Options} (hc : F.Compiles ⟨source, o⟩) :
        (compile ⟨source, o⟩ text).state = F.schema ⟨source, o⟩ := by
      rw [← Forest.toValue_placeAll hF hmodels, ← (Machine.run_forest hF hc hmodels hnodup).2,
        hlines]
      rfl
    refine ⟨F, hlines, hF, hschema hc, hschema hc', ?_⟩
    intro s hs field v v' hv hv' hne
    rw [Section.frame_default? (hc.sections s hs)] at hv
    rw [Section.frame_default? (hc'.sections s hs)] at hv'
    obtain ⟨⟨d, raw⟩, hdefault, hvalue⟩ := Option.bind_eq_some_iff.mp hv
    have hvalue' : d.defaultValue? o' raw = some v' := by simpa [hdefault] using hv'
    exact ⟨d, raw, hdefault, Effect.coerce_of_options (Declaration.defaultValue?_eq_some.mp hvalue)
      (Declaration.defaultValue?_eq_some.mp hvalue') hne⟩

/-- A rule with keywords that are named like those of its path, and two defaults that look like
numbers. -/
def gradedText : Text :=
  "model M object \x7b\n  a: string @default( 1.50 )\n  n: integer @default(7)\n  ".toList ++
    "@if(p.q: @properties(x) @required(y), @required(a))\n\x7d".toList

def gradedTree : Tree :=
  ⟨⟨⟨1, "model M object \x7b".toList⟩, "M".toList, .model⟩,
    .statement ⟨2, "a: string @default( 1.50 )".toList⟩
      (.statement ⟨3, "n: integer @default(7)".toList⟩
        (.statement ⟨4, "@if(p.q: @properties(x) @required(y), @required(a))".toList⟩ .nil)),
    ⟨5, ['\x7d']⟩⟩

theorem gradedTree_wellFormed : gradedTree.WellFormed where
  heading := .inr (Heading.isModel_iff.mpr (by decide +kernel))
  body := ⟨LineKind.of_eq_statement.mp (by decide +kernel),
    LineKind.of_eq_statement.mp (by decide +kernel),
    LineKind.of_eq_statement.mp (by decide +kernel), trivial⟩
  close := LineKind.of_eq_close.mp (by decide +kernel)

theorem compile_of_options_graded :
    (∀ line ∈ SourceLine.read gradedText, ∀ p ∈ line.declaration?, ∀ raw ∈ p.2,
        ¬LongInteger (Text.strip raw)) ∧
      (compile ⟨"m.ls", ⟨.typed, true⟩⟩ gradedText).failure = none ∧
      (compile ⟨"m.ls", ⟨.legacy, false⟩⟩ gradedText).failure = none ∧
      Neutral.schema (compile ⟨"m.ls", ⟨.typed, true⟩⟩ gradedText).state =
        Neutral.schema (compile ⟨"m.ls", ⟨.legacy, false⟩⟩ gradedText).state ∧
      ∃ s ∈ Forest.sections [gradedTree], ∃ n d raw,
        (s.frame ⟨"m.ls", ⟨.typed, true⟩⟩).default? "a" = some (.text "1.50") ∧
        (s.frame ⟨"m.ls", ⟨.legacy, false⟩⟩).default? "a" = some (.number n) ∧
        s.default? "a" = some (d, raw) ∧ FieldType.declared d.rawType ∉ Literal.numericTypes ∧
        Number.isNumeral (Text.strip raw) = true ∧
        Coercion.Reads .typed (Text.strip raw) (.text "1.50") ∧
        Coercion.Reads .legacy (Text.strip raw) (.number n) := by
  have hbound : ∀ line ∈ SourceLine.read gradedText, ∀ p ∈ line.declaration?, ∀ raw ∈ p.2,
      (Text.strip raw).length ≤ Number.maxDigits := by decide +kernel
  have hshort : ∀ line ∈ SourceLine.read gradedText, ∀ p ∈ line.declaration?, ∀ raw ∈ p.2,
      ¬LongInteger (Text.strip raw) := by
    intro line hline p hp raw hraw hlong
    have hle := hbound line hline p hp raw hraw
    exact absurd hlong.length (by omega)
  have hok : (compile ⟨"m.ls", ⟨.typed, true⟩⟩ gradedText).failure = none := by decide +kernel
  obtain ⟨hfailure, -, hneutral, hdefaults⟩ :=
    compile_of_options "m.ls" ⟨.typed, true⟩ ⟨.legacy, false⟩ gradedText hshort
  refine ⟨hshort, hok, hfailure.symm.trans hok, hneutral, ?_⟩
  obtain ⟨F, hlines, hF, -, -, hall⟩ := hdefaults hok
  have hlines' : Forest.lines [gradedTree] = SourceLine.read gradedText := by decide +kernel
  have hwf : Forest.WellFormed [gradedTree] := by
    simpa [Forest.WellFormed] using gradedTree_wellFormed
  obtain rfl : F = [gradedTree] := Forest.lines_inj hF hwf (hlines.trans hlines'.symm)
  let s : Section := ⟨gradedTree.heading, gradedTree.body.own⟩
  have hs : s ∈ Forest.sections [gradedTree] := List.mem_cons_self
  have hv : (s.frame ⟨"m.ls", ⟨.typed, true⟩⟩).default? "a" = some (.text "1.50") := rfl
  obtain ⟨n, hn⟩ : ∃ n, (s.frame ⟨"m.ls", ⟨.legacy, false⟩⟩).default? "a" = some (.number n) :=
    ⟨_, rfl⟩
  have hne : Value.text "1.50" ≠ .number n := by
    intro h
    cases h
  obtain ⟨d, raw, hraw⟩ := hall s hs "a" _ _ hv hn hne
  exact ⟨s, hs, n, d, raw, hv, hn, hraw⟩

end ModelSchema
