import ModelSchema.Proofs.Effect
import ModelSchema.Proofs.Rule
import ModelSchema.Proofs.Run

namespace ModelSchema

namespace Block

/-- A declaration is in order up to a tag that reads an integer with too many digits. -/
def FieldBreaks (env : Setting) (line : SourceLine) : Prop :=
  ∃ d offset found schema before tag after,
    Declaration.read? line.text = some (d, offset) ∧ Tag.scan offset d.rawType = .ok found ∧
      FieldType.resolve d.field d.rawType found = .ok (schema, before ++ tag :: after) ∧
      (∀ t ∈ before, ∃ e, Effect.ofTag env.options d t = .ok e) ∧
      Effect.ReadsLong env.options d tag

/-- How a statement breaks down: as a rule, or as a declaration. -/
def StatementBreaks (env : Setting) (line : SourceLine) (b : Breakdown) : Prop :=
  Rule.Breaks line.text b ∨
    (isTag line.text = false ∧ b = .tooManyDigits ∧ FieldBreaks env line)

variable {env : Setting} {line : SourceLine} {b : Block} {c : Breakdown}

theorem isReport_prepare (env : Setting) (line : SourceLine) :
    Attempt.FailsIn Failure.IsReport (prepare env line) := by
  unfold prepare
  split
  · refine (Tag.isReport_scanAt _ _ _ _).bind fun found => ?_
    exact (FieldType.bare_resolve _ _ found).isReport.bind fun p => Attempt.failsIn_ok _
  · exact Attempt.failsIn_error ⟨_, rfl⟩

theorem prepare_eq_ok {d : Declaration} {schema : Fields Value} {tags : List Tag} :
    prepare env line = .ok (d, schema, tags) ↔ ∃ offset found,
      Declaration.read? line.text = some (d, offset) ∧ Tag.scan offset d.rawType = .ok found ∧
        FieldType.resolve d.field d.rawType found = .ok (schema, tags) := by
  unfold prepare
  cases hread : Declaration.read? line.text with
  | none => simp
  | some p =>
    obtain ⟨d', offset⟩ := p
    constructor
    · intro h
      obtain ⟨found, hscan, h⟩ := Attempt.bind_eq_ok.mp h
      obtain ⟨p, hresolve, h⟩ := Attempt.bind_eq_ok.mp h
      cases h
      exact ⟨offset, found, rfl, Attempt.mapError_eq_ok.mp hscan, hresolve⟩
    · rintro ⟨offset', found, hsame, hscan, hresolve⟩
      cases hsame
      refine Attempt.bind_eq_ok.mpr ⟨found, Attempt.mapError_eq_ok.mpr hscan, ?_⟩
      exact Attempt.bind_eq_ok.mpr ⟨(schema, tags), hresolve, rfl⟩

theorem addField_eq_broken : (b.addField env line).failure = some (.broken c) ↔
    c = .tooManyDigits ∧ FieldBreaks env line := by
  unfold addField
  constructor
  · intro h
    split at h
    · rename_i f hprepare
      obtain rfl : f = .broken c := by simpa [Outcome.fail] using h
      exact absurd hprepare ((isReport_prepare env line).ne_broken c)
    · rename_i d schema tags hprepare
      split at h
      · rename_i s events f happly
        obtain rfl : f = .broken c := by simpa [Outcome.fail] using h
        obtain ⟨before, tag, after, rfl, hbefore, htag⟩ :=
          FieldState.applyTags_eq_some.mp (congrArg Outcome.failure happly)
        obtain ⟨hc, hlong⟩ := Effect.ofTag_eq_broken.mp htag
        obtain ⟨offset, found, hread, hscan, hresolve⟩ := prepare_eq_ok.mp hprepare
        exact ⟨hc, d, offset, found, schema, before, tag, after, hread, hscan, hresolve, hbefore,
          hlong⟩
      · cases h
  · rintro ⟨hc, d, offset, found, schema, before, tag, after, hread, hscan, hresolve, hbefore,
      hlong⟩
    have hprepare : prepare env line = .ok (d, schema, before ++ tag :: after) :=
      prepare_eq_ok.mpr ⟨offset, found, hread, hscan, hresolve⟩
    have happly : (FieldState.applyTags env.options d (before ++ tag :: after)
        ⟨schema, b.gathered⟩).failure = some (.broken c) :=
      FieldState.applyTags_eq_some.mpr
        ⟨before, tag, after, rfl, hbefore, Effect.ofTag_eq_broken.mpr ⟨hc, hlong⟩⟩
    simp only [hprepare]
    split
    · rename_i s events f houtcome
      rw [houtcome] at happly
      exact happly
    · rename_i s events houtcome
      rw [houtcome] at happly
      cases happly

theorem tagChange?_eq_broken {o : Options} {t : Text} (hstrip : Text.strip t = t) :
    tagChange? o t = some (.error (.broken c)) ↔ Rule.Breaks t c := by
  constructor
  · intro h
    rcases tagChange?_eq_error h with hrule | ⟨cause, -, hbare⟩
    · exact Rule.compile_eq_broken.mp hrule
    · cases hbare
  · intro h
    have hstart : "@if(".toList <+: t := by
      obtain ⟨path, conditionText, actionText, conditions, actions, hparts, -⟩ := h
      rw [← hstrip]
      exact Rule.starts_of_parts hparts
    simp only [tagChange?, Rule.kind_of_starts hstart, Option.some.injEq, Attempt.map_eq_error]
    exact Rule.compile_eq_broken.mpr h

theorem addTag_eq_broken (hstrip : Text.strip line.text = line.text) :
    (b.addTag env line).failure = some (.broken c) ↔ Rule.Breaks line.text c := by
  rw [← tagChange?_eq_broken (o := env.options) hstrip]
  unfold addTag
  split
  · simp_all [Outcome.ok]
  · simp_all [Outcome.fail]
  · simp_all [Outcome.ok]

theorem addStatement_eq_broken (hstrip : Text.strip line.text = line.text) :
    (b.addStatement env line).failure = some (.broken c) ↔ StatementBreaks env line c := by
  have hlocate (f : Option Failure) (l : Location) :
      f.map (·.locate l) = some (.broken c) ↔ f = some (.broken c) := by
    cases f with
    | none => simp
    | some f => cases f <;> simp [Failure.locate]
  simp only [addStatement, hlocate, StatementBreaks]
  cases htag : isTag line.text with
  | true =>
    simp only [if_true, addTag_eq_broken hstrip, Bool.true_eq_false, false_and, or_false]
  | false =>
    have hrule : ¬Rule.Breaks line.text c := by
      rintro ⟨path, conditionText, actionText, conditions, actions, hparts, -⟩
      have hstart := Rule.starts_of_parts hparts
      rw [hstrip] at hstart
      rw [Rule.isTag_of_starts hstart] at htag
      cases htag
    simp only [Bool.false_eq_true, if_false, addField_eq_broken, hrule, true_and, false_or]

end Block

theorem Cause.parse_mem_lineage (c : Cause) : Category.parse ∈ c.category.lineage := by
  cases c <;> simp [category, Category.lineage]

/-- The lines of a document are in order up to a statement in a block, which breaks down. -/
def BreaksOff (env : Setting) (text : Text) (b : Breakdown) : Prop :=
  ∃ before line after m, SourceLine.read text = before ++ line :: after ∧
    Machine.Reaches env before {} m ∧ m.stack ≠ [] ∧ line.IsStatement ∧
    Block.StatementBreaks env line b

theorem compile_eq_broken {env : Setting} {text : Text} {b : Breakdown} :
    (compile env text).failure = some (.broken b) ↔ BreaksOff env text b := by
  constructor
  · intro h
    rcases Machine.run_failure_eq_some.mp h with
      ⟨before, line, after, hlines, hok, hfail⟩ | ⟨-, hopen⟩
    · have hline : line ∈ SourceLine.read text := by simp [hlines]
      rcases Machine.step_failure hfail with ⟨c, hc⟩ | ⟨block, stack, hstack, hstatement, hb⟩
      · cases hc
      · refine ⟨before, line, after, _, hlines, ⟨hok, rfl⟩, by simp [hstack], hstatement, ?_⟩
        exact (Block.addStatement_eq_broken (SourceLine.strip_text_of_mem_read hline)).mp hb
    · obtain ⟨block, -, hr⟩ := Option.map_eq_some_iff.mp hopen
      cases hr
  · rintro ⟨before, line, after, m, hlines, ⟨hok, rfl⟩, hstack, hstatement, hbreaks⟩
    have hline : line ∈ SourceLine.read text := by simp [hlines]
    obtain ⟨block, stack, hstack⟩ := List.exists_cons_of_ne_nil hstack
    refine Machine.run_failure_eq_some.mpr (.inl ⟨before, line, after, hlines, hok, ?_⟩)
    rw [Machine.step_of_statement hstack hstatement]
    exact (Block.addStatement_eq_broken (SourceLine.strip_text_of_mem_read hline)).mpr hbreaks

/-- A document compiles or is reported about as one that cannot be parsed, exactly if it does not
break off; and it breaks off where its first failing statement does. -/
theorem compile_or_report_iff (env : Setting) (text : Text) :
    (((compile env text).failure = none ∨ ∃ r, (compile env text).failure = some (.reported r) ∧
        Category.parse ∈ r.cause.category.lineage) ↔ ∀ b, ¬BreaksOff env text b) ∧
      ∀ b, (compile env text).failure = some (.broken b) ↔ BreaksOff env text b := by
  refine ⟨?_, fun b => compile_eq_broken⟩
  simp only [← compile_eq_broken]
  cases (compile env text).failure with
  | none => simp
  | some f =>
    cases f with
    | reported r => simp [r.cause.parse_mem_lineage]
    | broken b => simp

/-- A rule that replaces the properties and then sets a keyword of one. -/
def replacedText : Text :=
  "model X object \x7b\n  a: string\n  ".toList ++
    "@if(a: @const(1), @properties(foo) @minimum(t,1))\n\x7d".toList

theorem compile_or_report_iff_replaced :
    (compile {} replacedText).failure = some (.broken .propertiesReplaced) ∧
      BreaksOff {} replacedText .propertiesReplaced := by
  have hbroken : (compile {} replacedText).failure = some (.broken .propertiesReplaced) := by
    decide +kernel
  exact ⟨hbroken, ((compile_or_report_iff {} replacedText).2 _).mp hbroken⟩

end ModelSchema
