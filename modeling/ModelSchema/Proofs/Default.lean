import ModelSchema.Proofs.Keyword

namespace ModelSchema

/-- What the text `t`, which looks like a number, becomes in a field that holds no numbers. -/
def Coercion.Reads (c : Coercion) (t : Text) (v : Value) : Prop :=
  match c with
  | .typed => v = .ofText t
  | .legacy => ∃ n, Number.parse t = .ok n ∧ v = .number n

namespace Literal

/-- Of the type only counts whether it allows a number. -/
theorem coerce_congr {hint hint' : Option Text} (h : allowsNumber hint = allowsNumber hint')
    (raw : Text) : coerce hint raw = coerce hint' raw := by
  simp only [coerce, h]

/-- A literal that is not the same with and without numbers is a numeral. -/
theorem coerce_of_differ {hint hint' : Option Text} {raw : Text} {v v' : Value}
    (hallows : allowsNumber hint = true) (hrefuses : allowsNumber hint' = false)
    (hv : coerce hint raw = .ok v) (hv' : coerce hint' raw = .ok v') (hne : v ≠ v') :
    Number.isNumeral (Text.strip raw) = true ∧ Coercion.Reads .legacy (Text.strip raw) v ∧
      Coercion.Reads .typed (Text.strip raw) v' := by
  simp only [coerce, hallows, hrefuses, Bool.and_true, Bool.and_false] at hv hv'
  cases hquote : between? Text.doubleQuote (Text.strip raw) with
  | some inner =>
    rw [hquote] at hv hv'
    exact absurd (Except.ok.inj (hv.symm.trans hv')) hne
  | none =>
    cases hswitch : switch? (Text.strip raw) with
    | some b =>
      rw [hquote, hswitch] at hv hv'
      exact absurd (Except.ok.inj (hv.symm.trans hv')) hne
    | none =>
      simp only [hquote, hswitch, Bool.false_eq_true, if_false, Except.ok.injEq] at hv hv'
      cases hnumeral : Number.isNumeral (Text.strip raw) with
      | false =>
        simp only [hnumeral, Bool.false_eq_true, if_false, Except.ok.injEq] at hv
        exact absurd (hv.symm.trans hv') hne
      | true =>
        simp only [hnumeral, if_true] at hv
        refine ⟨rfl, ?_, hv'.symm⟩
        cases hparse : Number.parse (Text.strip raw) with
        | error f =>
          rw [hparse] at hv
          cases hv
        | ok n =>
          rw [hparse] at hv
          exact ⟨n, hparse, (Except.ok.inj hv).symm⟩

end Literal

namespace Effect

variable {o o' : Options} {d : Declaration} {tag : Tag}

theorem defaultHint_refuses : Literal.allowsNumber (defaultHint o d) = false ↔
    o.coercion = .typed ∧ FieldType.declared d.rawType ∉ Literal.numericTypes := by
  cases hc : o.coercion <;> simp [defaultHint, hc, Literal.allowsNumber]

/-- A literal that is a number under `o` and a text under `o'`. -/
private theorem coerce_of_allows {raw : Text} {v v' : Value}
    (hallows : Literal.allowsNumber (defaultHint o d) = true)
    (hrefuses : Literal.allowsNumber (defaultHint o' d) = false)
    (hv : Literal.coerce (defaultHint o d) raw = .ok v)
    (hv' : Literal.coerce (defaultHint o' d) raw = .ok v') (hne : v ≠ v') :
    FieldType.declared d.rawType ∉ Literal.numericTypes ∧
      Number.isNumeral (Text.strip raw) = true ∧
      o.coercion.Reads (Text.strip raw) v ∧ o'.coercion.Reads (Text.strip raw) v' := by
  obtain ⟨hc', htype⟩ := defaultHint_refuses.mp hrefuses
  have hc : o.coercion = .legacy := by
    cases hcase : o.coercion with
    | legacy => rfl
    | typed =>
      have hfalse := defaultHint_refuses.mpr ⟨hcase, htype⟩
      rw [hallows] at hfalse
      cases hfalse
  rw [hc, hc']
  exact ⟨htype, Literal.coerce_of_differ hallows hrefuses hv hv' hne⟩

/-- A literal that is not the same under two options. -/
theorem coerce_of_options {raw : Text} {v v' : Value}
    (hv : Literal.coerce (defaultHint o d) raw = .ok v)
    (hv' : Literal.coerce (defaultHint o' d) raw = .ok v') (hne : v ≠ v') :
    FieldType.declared d.rawType ∉ Literal.numericTypes ∧
      Number.isNumeral (Text.strip raw) = true ∧
      o.coercion.Reads (Text.strip raw) v ∧ o'.coercion.Reads (Text.strip raw) v' := by
  have hdiffer : Literal.allowsNumber (defaultHint o d) ≠
      Literal.allowsNumber (defaultHint o' d) := by
    intro hsame
    rw [Literal.coerce_congr hsame] at hv
    exact hne (Except.ok.inj (hv.symm.trans hv'))
  cases hallows : Literal.allowsNumber (defaultHint o d) with
  | true =>
    have hrefuses : Literal.allowsNumber (defaultHint o' d) = false := by
      simpa [hallows] using hdiffer
    exact coerce_of_allows hallows hrefuses hv hv' hne
  | false =>
    have hallows' : Literal.allowsNumber (defaultHint o' d) = true := by
      simpa [hallows] using hdiffer
    obtain ⟨htype, hnumeral, hread', hread⟩ :=
      coerce_of_allows hallows' hallows hv' hv (Ne.symm hne)
    exact ⟨htype, hnumeral, hread, hread'⟩

theorem literalKeyword_eq_ok {key : String} {hint : Option Text} {raw : Text} {e : Effect} :
    literalKeyword key hint raw = .ok e ↔
      ∃ v, Literal.coerce hint raw = .ok v ∧ e = .keyword key v := by
  unfold literalKeyword
  cases Literal.coerce hint raw with
  | error f => simp [Except.mapError, Except.map]
  | ok v => simp [Except.mapError, Except.map, eq_comm]

/-- The effect does not set the default of a field. -/
def SparesDefault (e : Effect) : Prop := ∀ v, e ≠ .keyword "default" v

open Attempt

theorem sparesDefault_ofTag (o : Options) (d : Declaration) (hkind : tag.kind? ≠ some .default) :
    GivesIn SparesDefault (ofTag o d tag) :=
  spares_ofTag (by decide) hkind

end Effect

/-- The literal of a default. -/
def Tag.default? (tag : Tag) : Option Text :=
  if tag.kind? = some .default then tag.argument else none

/-- The value of a default. -/
def Declaration.defaultValue? (o : Options) (d : Declaration) (raw : Text) : Option Value :=
  (Literal.coerce (Effect.defaultHint o d) raw).toOption

theorem Declaration.defaultValue?_eq_some {o : Options} {d : Declaration} {raw : Text} {v : Value} :
    d.defaultValue? o raw = some v ↔ Literal.coerce (Effect.defaultHint o d) raw = .ok v := by
  unfold defaultValue?
  cases Literal.coerce (Effect.defaultHint o d) raw <;> simp [Except.toOption]

namespace FieldState

variable {o : Options} {d : Declaration}

/-- A tag sets the default of its field, or leaves it. -/
theorem apply_default {tag : Tag} {e : Effect} (h : Effect.ofTag o d tag = .ok e) (field : String)
    (s : FieldState) :
    (s.apply field e).schema.get? "default" =
      match tag.default? with
      | some raw => d.defaultValue? o raw
      | none => s.schema.get? "default" := by
  by_cases hkind : tag.kind? = some .default
  · have hdefault : Effect.ofDefault o d tag = .ok e := by simpa [Effect.ofTag, hkind] using h
    unfold Effect.ofDefault at hdefault
    cases ha : tag.argument with
    | none => simp [ha] at hdefault
    | some a =>
      simp only [ha] at hdefault
      obtain ⟨v, hv, rfl⟩ := Effect.literalKeyword_eq_ok.mp hdefault
      have htag : tag.default? = some a := by simp [Tag.default?, hkind, ha]
      simp only [htag, Declaration.defaultValue?, hv, apply]
      rw [Fields.get?_put, if_pos rfl]
      rfl
  · have htag : tag.default? = none := by simp [Tag.default?, hkind]
    have hspares := Effect.sparesDefault_ofTag o d hkind e h
    simp only [htag]
    cases e with
    | keyword key v =>
      have hne : ¬"default" = key := by
        intro hkey
        exact hspares v (by rw [hkey])
      simp only [apply, Fields.get?_put, if_neg hne]
    | timestampOrEmpty =>
      simp only [apply]
      rw [Fields.get?_put, if_neg (by decide), Fields.get?_erase (by decide)]
    | require => rfl
    | hint h => rfl
    | permit p => rfl
    | ignore => rfl

theorem applyTags_default {tags : List Tag} {s : FieldState}
    (hok : (applyTags o d tags s).failure = none) :
    (applyTags o d tags s).state.schema.get? "default" =
      match (tags.filterMap Tag.default?).getLast? with
      | some raw => d.defaultValue? o raw
      | none => s.schema.get? "default" := by
  induction tags generalizing s with
  | nil => rfl
  | cons tag tags ih =>
    simp only [applyTags] at hok ⊢
    cases hof : Effect.ofTag o d tag with
    | error f => simp [hof, Outcome.fail] at hok
    | ok e =>
      simp only [hof] at hok
      have hrest := ih (s := s.apply (Text.str d.field) e) hok
      simp only [Outcome.after, hrest, apply_default hof, List.filterMap_cons]
      cases tag.default? with
      | none => rfl
      | some t =>
        rw [List.getLast?_cons]
        cases (tags.filterMap Tag.default?).getLast? <;> rfl

end FieldState

namespace SourceLine

/-- The declaration that a statement makes, and the literals of its defaults. -/
def declaration? (line : SourceLine) : Option (Declaration × List Text) :=
  if Block.isTag line.text then none
  else match Block.prepare {} line with
    | .ok (d, _, tags) => some (d, tags.filterMap Tag.default?)
    | .error _ => none

/-- The same, if it is about this field. -/
def declares? (field : String) (line : SourceLine) : Option (Declaration × List Text) :=
  line.declaration?.filter fun p => Text.str p.1.field = field

theorem declaration?_of_prepare {env : Setting} {line : SourceLine} {d : Declaration}
    {schema : Fields Value} {tags : List Tag} (htag : Block.isTag line.text = false)
    (h : Block.prepare env line = .ok (d, schema, tags)) :
    line.declaration? = some (d, tags.filterMap Tag.default?) := by
  have hbare : Block.prepare {} line = .ok (d, schema, tags) :=
    Block.prepare_eq_ok.mpr (Block.prepare_eq_ok.mp h)
  simp [declaration?, htag, hbare]

end SourceLine

theorem FieldType.resolve_default {field rawType : Text} {found tags : List Tag}
    {schema : Fields Value} (h : resolve field rawType found = .ok (schema, tags)) :
    schema.get? "default" = none :=
  get?_resolve (by decide) h

namespace Block

variable {env : Setting} {b : Block} {line : SourceLine}

/-- The default of a field. -/
def default? (b : Block) (field : String) : Option Value :=
  ((b.properties.get? field).bind Value.fields?).bind (Fields.get? "default")

/-- The default that a declaration with these literals gives. -/
def lastDefault? (o : Options) (p : Declaration × List Text) : Option Value :=
  p.2.getLast?.bind (p.1.defaultValue? o)

theorem addStatement_default? (hok : (b.addStatement env line).failure = none) (field : String) :
    (b.addStatement env line).state.default? field =
      match line.declares? field with
      | some p => lastDefault? env.options p
      | none => b.default? field := by
  simp only [addStatement, Option.map_eq_none_iff] at hok ⊢
  cases htag : isTag line.text with
  | true =>
    have hnone : line.declares? field = none := by
      simp [SourceLine.declares?, SourceLine.declaration?, htag]
    rw [hnone]
    simp only [if_true, addTag]
    split <;> rfl
  | false =>
    simp only [htag, Bool.false_eq_true, if_false, addField] at hok ⊢
    cases hprepare : prepare env line with
    | error f => simp [hprepare, Outcome.fail] at hok
    | ok p =>
      obtain ⟨d, schema, tags⟩ := p
      simp only [hprepare] at hok ⊢
      have happly (h : (FieldState.applyTags env.options d tags ⟨schema, b.gathered⟩).failure =
          none) := FieldState.applyTags_default h
      cases ho : FieldState.applyTags env.options d tags ⟨schema, b.gathered⟩ with
      | mk s events failure =>
        rw [ho] at happly
        cases failure with
        | some f => simp [ho, Outcome.fail] at hok
        | none =>
          obtain ⟨offset, found, -, -, hresolve⟩ := prepare_eq_ok.mp hprepare
          have hdefault := happly rfl
          simp only [FieldType.resolve_default hresolve] at hdefault
          have hdeclaration := SourceLine.declaration?_of_prepare htag hprepare
          simp only [Outcome.ok, default?, store, Fields.get?_put]
          by_cases hfield : field = Text.str d.field
          · have hdeclares : line.declares? field = some (d, tags.filterMap Tag.default?) := by
              simp [SourceLine.declares?, hdeclaration, hfield]
            rw [hdeclares]
            simp only [if_pos hfield, Option.bind_some, Value.fields?, hdefault, lastDefault?]
            cases (tags.filterMap Tag.default?).getLast? <;> rfl
          · have hdeclares : line.declares? field = none := by
              simp [SourceLine.declares?, hdeclaration, Ne.symm hfield]
            simp only [hdeclares, if_neg hfield]

theorem addAll_default? {lines : List SourceLine}
    (hok : ∀ line ∈ lines, (b.addStatement env line).failure = none) (field : String) :
    (b.addAll env lines).default? field =
      match lines.reverse.findSome? (SourceLine.declares? field) with
      | some p => lastDefault? env.options p
      | none => b.default? field := by
  induction lines generalizing b with
  | nil => rfl
  | cons line lines ih =>
    obtain ⟨hline, hlines⟩ := List.forall_mem_cons.mp hok
    have hrest := ih (b := (b.addStatement env line).state)
      fun l hl => (addStatement_failure env l _ b).trans (hlines l hl)
    change ((b.addStatement env line).state.addAll env lines).default? field = _
    rw [hrest, List.reverse_cons, List.findSome?_append, addStatement_default? hline]
    cases lines.reverse.findSome? (SourceLine.declares? field) with
    | some p => rfl
    | none => cases hdeclares : line.declares? field <;> simp [hdeclares]

end Block

namespace Section

/-- The last literal of the last statement that declares a field, with its declaration. -/
def default? (s : Section) (field : String) : Option (Declaration × Text) :=
  (s.own.reverse.findSome? (SourceLine.declares? field)).bind fun p =>
    p.2.getLast?.map fun raw => (p.1, raw)

theorem frame_default? {env : Setting} {s : Section}
    (hok : ∀ line ∈ s.own, (s.heading.block.addStatement env line).failure = none)
    (field : String) :
    (s.frame env).default? field =
      (s.default? field).bind fun p => p.1.defaultValue? env.options p.2 := by
  rw [frame, Block.addAll_default? hok, default?]
  cases s.own.reverse.findSome? (SourceLine.declares? field) with
  | none => rfl
  | some p =>
    simp only [Block.lastDefault?, Option.bind_some]
    cases p.2.getLast? <;> rfl

end Section

end ModelSchema
