import ModelSchema.Proofs.Location
import ModelSchema.Proofs.Transport

namespace ModelSchema

def Block.renumber (σ : Renumbering) (b : Block) : Block :=
  { b with header := b.header.renumber σ }

variable {σ : Renumbering}

theorem Cause.renumber_of_category {c : Cause} (hc : c.category ≠ .structural) :
    c.renumber σ = c := by
  cases c with
  | secondModel first => exact absurd rfl hc
  | _ => rfl

theorem Cause.category_renumber (c : Cause) : (c.renumber σ).category = c.category := by
  cases c <;> rfl

theorem Report.locate_renumber (r : Report Cause) (l : Location) :
    (r.locate l).renumber σ = (r.renumber σ).locate (l.renumber σ) := by
  obtain ⟨cause, location, text⟩ := r
  have hsettle : (Report.settle location l).renumber σ =
      Report.settle (location.map (Location.renumber σ)) (l.renumber σ) := by
    cases location with
    | none => rfl
    | some old =>
      simp only [Report.settle, Option.map_some, Location.renumber, σ.onInt_inj]
      split <;> rfl
  change (Report.raised cause (some (Report.settle location l))).renumber σ = .raised _ _
  rw [Report.renumber_raised, Option.map_some, hsettle]
  rfl

theorem Failure.locate_renumber (f : Failure) (l : Location) :
    (f.locate l).renumber σ = (f.renumber σ).locate (l.renumber σ) := by
  cases f with
  | reported r => exact congrArg Failure.reported (r.locate_renumber l)
  | broken b => rfl

namespace Failure

/-- The failure shows no line of a document. -/
def Fixed (σ : Renumbering) (f : Failure) : Prop := f.renumber σ = f

theorem Unplaced.fixed {f : Failure} (h : f.Unplaced) : f.Fixed σ := by
  rcases h with ⟨c, hc, hf⟩ | ⟨b, hf⟩
  · rw [hf, Fixed, renumber_because, Cause.renumber_of_category hc]
  · rw [hf]
    rfl

end Failure

open Attempt

theorem Tag.fixed_scanPart (t : Text) : FailsIn (Failure.Fixed σ) (scanPart t) := by
  intro f hf
  obtain ⟨u, -, hadrift⟩ := Tag.scanPart_eq_error.mp hf
  rw [hadrift, Failure.Fixed]
  change (Failure.located _ _).renumber σ = .located _ _
  rw [Failure.renumber_located, Location.renumber, σ.onInt_zero]
  rfl

theorem Rule.fixed_compile (o : Options) (expression : Text) :
    FailsIn (Failure.Fixed σ) (compile o expression) := by
  rw [compile_eq]
  split
  · exact FailsIn.mono (FailsIn.unplaced (bare_because _ rfl)) fun f hf => hf.fixed
  · rename_i path conditionText actionText hparts
    apply (Tag.fixed_scanPart conditionText).bind
    intro conditions
    apply (Tag.fixed_scanPart actionText).bind
    intro actions
    exact (unplaced_assemble o path expression conditions actions).mono fun f hf => hf.fixed

namespace FieldState

theorem applyTags_events (o : Options) (d : Declaration) (tags : List Tag) (s : FieldState) :
    (applyTags o d tags s).events.map (Event.renumber σ) = (applyTags o d tags s).events := by
  induction tags generalizing s with
  | nil => rfl
  | cons tag tags ih =>
    simp only [applyTags]
    cases Effect.ofTag o d tag with
    | error f => rfl
    | ok e =>
      have hevents : (eventsOf d tag e).map (Event.renumber σ) = eventsOf d tag e := by
        cases e <;> rfl
      simp only [Outcome.after, List.map_append, hevents, ih]

theorem applyTags_fixed {o : Options} {d : Declaration} {tags : List Tag} {s : FieldState}
    {f : Failure} (h : (applyTags o d tags s).failure = some f) : f.Fixed σ := by
  obtain ⟨before, tag, after, -, -, htag⟩ := applyTags_eq_some.mp h
  exact (Effect.unplaced_ofTag o d tag f htag).fixed

end FieldState

namespace Block

theorem prepare_renumber (env : Setting) (line : SourceLine) :
    prepare env (line.renumber σ) = (prepare env line).mapError (Failure.renumber σ) := by
  have htext : (line.renumber σ).text = line.text := rfl
  unfold prepare
  rw [htext]
  cases Declaration.read? line.text with
  | none => exact congrArg Except.error (Setting.renumber_failAt σ env line .notAField).symm
  | some p =>
    obtain ⟨d, offset⟩ := p
    simp only [Tag.scanAt]
    cases Tag.scan offset d.rawType with
    | error u =>
      exact congrArg Except.error (Failure.renumber_located σ
        ⟨env.source, line.number, u.column, none⟩ (.unterminated u.name)).symm
    | ok tags =>
      have hresolve := FieldType.bare_resolve d.field d.rawType tags
      change (FieldType.resolve d.field d.rawType tags >>= fun p => Except.ok (d, p.1, p.2)) =
        (FieldType.resolve d.field d.rawType tags >>= fun p => Except.ok (d, p.1, p.2)).mapError _
      cases hr : FieldType.resolve d.field d.rawType tags with
      | error f =>
        have hfixed : f.renumber σ = f := (hresolve.unplaced f hr).fixed
        exact congrArg Except.error hfixed.symm
      | ok p => rfl

theorem declaredTwice_renumber (env : Setting) (line : SourceLine) (field : Text) (b : Block) :
    (b.renumber σ).declaredTwice env (line.renumber σ) field =
      (b.declaredTwice env line field).map (Event.renumber σ) := by
  have hproperties : (b.renumber σ).properties = b.properties := rfl
  simp only [declaredTwice, hproperties]
  cases b.properties.has (Text.str field) <;> rfl

theorem addField_renumber (env : Setting) (line : SourceLine) (b : Block) :
    (b.renumber σ).addField env (line.renumber σ) =
      (b.addField env line).renumber σ (renumber σ) := by
  simp only [addField, prepare_renumber]
  cases prepare env line with
  | error f => rfl
  | ok p =>
    obtain ⟨d, schema, tags⟩ := p
    have hgathered : (b.renumber σ).gathered = b.gathered := rfl
    simp only [Except.mapError, hgathered]
    have hevents := FieldState.applyTags_events (σ := σ) env.options d tags ⟨schema, b.gathered⟩
    cases happly : FieldState.applyTags env.options d tags ⟨schema, b.gathered⟩ with
    | mk s events failure =>
      rw [happly] at hevents
      cases failure with
      | none =>
        simp only [Outcome.ok, Outcome.renumber, declaredTwice_renumber, List.map_append,
          Option.map_none]
        rw [show events.map (Event.renumber σ) = events from hevents]
        rfl
      | some f =>
        have hfixed : f.renumber σ = f :=
          FieldState.applyTags_fixed (congrArg Outcome.failure happly)
        simp only [Outcome.fail, Outcome.renumber, Option.map_some, hfixed]
        rw [show events.map (Event.renumber σ) = events from hevents]

theorem addTag_renumber (env : Setting) (line : SourceLine) (b : Block) :
    (b.renumber σ).addTag env (line.renumber σ) = (b.addTag env line).renumber σ (renumber σ) := by
  have htext : (line.renumber σ).text = line.text := rfl
  simp only [addTag, htext]
  split
  · rfl
  · rename_i f hchange
    have hfixed : f.renumber σ = f := by
      rcases tagChange?_eq_error hchange with hrule | hbare
      · exact Rule.fixed_compile env.options line.text f hrule
      · exact Failure.Unplaced.fixed (.inl hbare)
    simp only [Outcome.fail, Outcome.renumber, Option.map_some, hfixed, List.map_nil]
  · rfl

theorem addStatement_renumber (env : Setting) (line : SourceLine) (b : Block) :
    (b.renumber σ).addStatement env (line.renumber σ) =
      (b.addStatement env line).renumber σ (renumber σ) := by
  have htext : (line.renumber σ).text = line.text := rfl
  have hlocate (f : Option Failure) :
      (f.map (Failure.renumber σ)).map (·.locate (env.lineStart (line.renumber σ))) =
        (f.map (·.locate (env.lineStart line))).map (Failure.renumber σ) := by
    cases f with
    | none => rfl
    | some f => exact congrArg some (f.locate_renumber (env.lineStart line)).symm
  simp only [addStatement, htext, addTag_renumber, addField_renumber]
  cases isTag line.text with
  | true => simp only [if_true, Outcome.renumber, hlocate]
  | false => simp only [Bool.false_eq_true, if_false, Outcome.renumber, hlocate]

end Block

/-- New numbers and nothing else. -/
def Renumbering.transport (σ : Renumbering) : Transport where
  numbers := σ
  block := Block.renumber σ
  schema := id
  header_block _ := rfl
  name_block _ := rfl
  shape_block _ := rfl
  block_new _ _ _ := rfl
  openSchema_block _ := rfl
  closedSchema_block _ := rfl

theorem Document.definitionsValue_renumber (d : Document) :
    (σ.transport.document d).definitionsValue = d.definitionsValue := by
  simp only [definitionsValue, Transport.document, List.map_map]
  rfl

namespace Machine

def renumber (σ : Renumbering) (m : Machine) : Machine := σ.transport.machine m

theorem schema_renumber (m : Machine) : (m.renumber σ).schema = m.schema := by
  change Value.object (("$defs", (σ.transport.document m.document).definitionsValue) ::
    m.document.root) = _
  rw [Document.definitionsValue_renumber]
  rfl

theorem addStatement_renumber (env : Setting) (m : Machine) (line : SourceLine) :
    (m.renumber σ).addStatement env (line.renumber σ) =
      (m.addStatement env line).renumber σ (renumber σ) := by
  cases hstack : m.stack with
  | nil =>
    have hstack' : (m.renumber σ).stack = [] := congrArg (List.map (Block.renumber σ)) hstack
    simp only [addStatement, hstack, hstack']
    exact σ.transport.failAt env m line .outsideBlock
  | cons b stack =>
    have hstack' : (m.renumber σ).stack = b.renumber σ :: stack.map (Block.renumber σ) :=
      congrArg (List.map (Block.renumber σ)) hstack
    rw [addStatement_cons hstack, addStatement_cons hstack', Block.addStatement_renumber]
    exact σ.transport.finish m stack (b.addStatement env line)

theorem step_renumber (env : Setting) (m : Machine) (line : SourceLine) :
    (m.renumber σ).step env (line.renumber σ) = (m.step env line).renumber σ (renumber σ) := by
  have htext : (line.renumber σ).text = line.text := rfl
  simp only [step, htext]
  cases LineKind.of line.text with
  | definition => exact σ.transport.openDefinition env m line
  | model => exact σ.transport.openModel env m line
  | close => exact σ.transport.closeBlock env m line
  | statement => exact addStatement_renumber env m line

theorem feed_renumber (env : Setting) (lines : List SourceLine) (m : Machine) :
    feed env (lines.map (SourceLine.renumber σ)) (m.renumber σ) =
      (feed env lines m).renumber σ (renumber σ) := by
  induction lines generalizing m with
  | nil => rfl
  | cons line lines ih =>
    rw [List.map_cons, feed, feed, step_renumber]
    exact Outcome.andThen_renumber (ih _)

theorem run_renumber (env : Setting) (lines : List SourceLine) (m : Machine) :
    run env (lines.map (SourceLine.renumber σ)) (m.renumber σ) =
      (run env lines m).renumber σ (renumber σ) := by
  rw [run_eq_feed, run_eq_feed, feed_renumber]
  apply Outcome.andThen_renumber
  have hopen := σ.transport.unclosed? env (feed env lines m).state
  rw [Outcome.renumber]
  exact congrArg (Outcome.mk _ _) hopen

end Machine

end ModelSchema
