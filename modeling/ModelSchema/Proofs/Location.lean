import ModelSchema.Proofs.Effect
import ModelSchema.Proofs.Rule
import ModelSchema.Proofs.Run
import ModelSchema.Proofs.Scan

namespace ModelSchema

/-- The place is in this line, and shows it. -/
structure Location.On (env : Setting) (line : SourceLine) (l : Location) : Prop where
  source : l.source = env.source
  number : l.line = line.number
  snippet : l.snippet = some line.text
  column_pos : 1 ≤ l.column
  column_le : l.column ≤ line.text.length

theorem Location.lineStart_on (env : Setting) {line : SourceLine} (hline : line.text ≠ []) :
    (env.lineStart line).On env line := by
  have hlength : 1 ≤ line.text.length := List.length_pos_iff.mpr hline
  refine ⟨rfl, rfl, rfl, Int.le_refl 1, ?_⟩
  change (1 : Int) ≤ line.text.length
  omega

/-- The report has no place, or is at the start of the line, or at a column of it that does not
show the line yet. -/
def Report.Locatable (env : Setting) (line : SourceLine) (r : Report Cause) : Prop :=
  r.location = none ∨ r.location = some (env.lineStart line) ∨
    ∃ column : Int, r.location = some ⟨env.source, line.number, column, none⟩ ∧
      1 ≤ column ∧ column ≤ line.text.length

theorem Report.Locatable.locate {env : Setting} {line : SourceLine} {r : Report Cause}
    (h : r.Locatable env line) (hline : line.text ≠ []) :
    ∃ l, (r.locate (env.lineStart line)).location = some l ∧ l.On env line := by
  refine ⟨_, rfl, ?_⟩
  rcases h with h | h | ⟨column, h, hpos, hle⟩
  · rw [h]
    exact Location.lineStart_on env hline
  · rw [h]
    exact Location.lineStart_on env hline
  · simp only [h, Report.settle, Option.isNone_none, true_and, Setting.lineStart, if_true]
    exact ⟨rfl, rfl, rfl, hpos, hle⟩

namespace Unterminated

/-- The report about a tag in a text that stands in no source. -/
def adrift (u : Unterminated) : Report Cause :=
  .about ⟨"<string>", 0, u.column, none⟩ (.unterminated u.name)

/-- The line of such a report is not that of any later place. -/
theorem locate_adrift (u : Unterminated) {l : Location} (hl : l.line ≠ 0) :
    u.adrift.locate l = u.adrift := by
  have hne : ¬0 = l.line := fun h => hl h.symm
  rw [adrift, Report.locate_about]
  simp [Report.settle, hne]

end Unterminated

theorem Tag.scanPart_eq_error {t : Text} {f : Failure} :
    Tag.scanPart t = .error f ↔ ∃ u : Unterminated, u.OpenIn 0 t ∧ f = .reported u.adrift := by
  rw [scanPart, scanAt, Attempt.mapError_eq_error]
  constructor
  · rintro ⟨u, hu, rfl⟩
    exact ⟨u, scan_eq_error.mp hu, rfl⟩
  · rintro ⟨u, hu, rfl⟩
    exact ⟨u, scan_eq_error.mpr hu, rfl⟩

namespace Rule

/-- The tag `u` has no end inside the condition of a rule, or inside its actions if every tag of
the condition has an end. -/
def LeavesOpen (expression : Text) (u : Unterminated) : Prop :=
  ∃ path conditions actions, parts expression = .ok (path, conditions, actions) ∧
    (u.OpenIn 0 conditions ∨ (∀ v : Unterminated, ¬v.OpenIn 0 conditions) ∧ u.OpenIn 0 actions)

theorem compile_of_leavesOpen (o : Options) {expression : Text} {u : Unterminated}
    (h : LeavesOpen expression u) : compile o expression = .error (.reported u.adrift) := by
  obtain ⟨path, conditions, actions, hparts, hopen⟩ := h
  simp only [compile_eq, hparts]
  rcases hopen with hopen | ⟨hsettled, hopen⟩
  · rw [Tag.scanPart_eq_error.mpr ⟨u, hopen, rfl⟩]
    rfl
  · have hactions := Tag.scanPart_eq_error.mpr ⟨u, hopen, rfl⟩
    cases hscan : Tag.scanPart conditions with
    | error f =>
      obtain ⟨v, hv, -⟩ := Tag.scanPart_eq_error.mp hscan
      exact absurd hv (hsettled v)
    | ok tags =>
      rw [hactions]
      rfl

theorem compile_reported {o : Options} {expression : Text} {r : Report Cause}
    (h : compile o expression = .error (.reported r)) :
    r.location = none ∨ ∃ u, LeavesOpen expression u ∧ r = u.adrift := by
  rw [compile_eq] at h
  split at h
  · refine .inl (Attempt.FailsIn.location_eq_none ?_ h)
    exact Attempt.FailsIn.unplaced (Attempt.bare_because _ rfl)
  · rename_i path conditions actions hparts
    rcases Attempt.bind_eq_error.mp h with h | ⟨tags, hconditions, h⟩
    · obtain ⟨u, hu, hr⟩ := Tag.scanPart_eq_error.mp h
      cases hr
      exact .inr ⟨u, ⟨path, conditions, actions, hparts, .inl hu⟩, rfl⟩
    · rcases Attempt.bind_eq_error.mp h with h | ⟨tags', -, h⟩
      · obtain ⟨u, hu, hr⟩ := Tag.scanPart_eq_error.mp h
        cases hr
        refine .inr ⟨u, ⟨path, conditions, actions, hparts, .inr ⟨?_, hu⟩⟩, rfl⟩
        intro v hv
        rw [Tag.scanPart_eq_error.mpr ⟨v, hv, rfl⟩] at hconditions
        cases hconditions
      · exact .inl ((unplaced_assemble _ _ _ _ _).location_eq_none h)

end Rule

/-- The parts of the line of a field: its name up to the first colon, blanks, the type with its
tags, and blanks. -/
theorem Declaration.read?_parts {t : Text} {d : Declaration} {offset : Nat}
    (h : read? t = some (d, offset)) :
    ∃ name gap after, t = name ++ ':' :: (gap ++ (d.rawType ++ after)) ∧ ':' ∉ name ∧
      (∀ c ∈ gap, Text.isBlank c = true) ∧ (∀ c ∈ after, Text.isBlank c = true) ∧
      offset = name.length + 1 + gap.length := by
  unfold read? at h
  split at h
  · cases h
  · rename_i name rest hcut
    split at h
    · cases h
    · cases h
      obtain ⟨ht, hname⟩ := Text.cut?_eq_some.mp hcut
      obtain ⟨gap, after, hrest, hgap, hafter⟩ := Text.trim_eq Text.isBlank rest
      refine ⟨name, gap, after, ?_, hname, ?_, hafter, by rw [hgap]⟩
      · rw [ht, ← List.append_assoc gap]
        exact congrArg (fun r => name ++ ':' :: r) hrest
      · rw [hgap]
        exact Text.takeWhile_all rest

/-- A column in the type of a field is a column of the line. -/
theorem Declaration.read?_column {t : Text} {d : Declaration} {offset : Nat}
    (h : Declaration.read? t = some (d, offset)) : offset + d.rawType.length ≤ t.length := by
  obtain ⟨name, gap, after, rfl, -, -, -, rfl⟩ := read?_parts h
  simp only [List.length_append, List.length_cons]
  omega

namespace Block

variable {env : Setting} {line : SourceLine} {b : Block} {r : Report Cause}

theorem prepare_reported (h : prepare env line = .error (.reported r)) :
    r.Locatable env line := by
  unfold prepare at h
  split at h
  · rename_i d offset hread
    rcases Attempt.bind_eq_error.mp h with h | ⟨tags, -, h⟩
    · obtain ⟨u, hu, hr⟩ := Attempt.mapError_eq_error.mp h
      cases hr
      have hbounds := (Tag.scan_eq_error.mp hu).column_bounds
      have hcolumn := Declaration.read?_column hread
      exact .inr (.inr ⟨u.column, rfl, by omega, by omega⟩)
    · have hresolve := (FieldType.bare_resolve d.field d.rawType tags).unplaced.bind
        fun p => Attempt.failsIn_ok (d, p)
      exact .inl (hresolve.location_eq_none h)
  · cases h
    exact .inr (.inl rfl)

theorem addField_reported (h : (b.addField env line).failure = some (.reported r)) :
    r.Locatable env line := by
  unfold addField at h
  split at h
  · rename_i f hprepare
    cases h
    exact prepare_reported hprepare
  · split at h
    · rename_i s events f happly
      cases h
      obtain ⟨before, tag, after, -, -, htag⟩ :=
        FieldState.applyTags_eq_some.mp (congrArg Outcome.failure happly)
      exact .inl ((Effect.unplaced_ofTag _ _ tag).location_eq_none htag)
    · cases h

theorem addTag_reported (h : (b.addTag env line).failure = some (.reported r)) :
    r.location = none ∨ ∃ u, Rule.LeavesOpen line.text u ∧ r = u.adrift := by
  unfold addTag at h
  split at h
  · cases h
  · rename_i f hchange
    cases h
    rcases tagChange?_eq_error hchange with hrule | ⟨c, -, hbare⟩
    · exact Rule.compile_reported hrule
    · cases hbare
      exact .inl rfl
  · cases h

theorem addStatement_located (h : (b.addStatement env line).failure = some (.reported r)) :
    ∃ s : Report Cause, (if isTag line.text then b.addTag env line
      else b.addField env line).failure = some (.reported s) ∧
        s.locate (env.lineStart line) = r := by
  simp only [addStatement, Option.map_eq_some_iff] at h
  obtain ⟨f, hf, hlocate⟩ := h
  cases f with
  | broken c => cases hlocate
  | reported s => exact ⟨s, hf, Failure.reported.inj hlocate⟩

/-- A failing statement is reported in its line, unless it is a rule that leaves a tag open. -/
theorem addStatement_reported (hline : line.text ≠ []) (hnumber : 1 ≤ line.number)
    (h : (b.addStatement env line).failure = some (.reported r)) :
    (∃ l, r.location = some l ∧ l.On env line) ∨
      ∃ u, Rule.LeavesOpen line.text u ∧ r = u.adrift := by
  obtain ⟨s, hs, rfl⟩ := addStatement_located h
  split at hs
  · rcases addTag_reported hs with hnone | ⟨u, hu, rfl⟩
    · exact .inl (Report.Locatable.locate (.inl hnone) hline)
    · refine .inr ⟨u, hu, u.locate_adrift ?_⟩
      change (line.number : Int) ≠ 0
      omega
  · exact .inl ((addField_reported hs).locate hline)

/-- Whatever the text of the report was, it is made again when the statement locates it. -/
theorem addStatement_inStep (h : (b.addStatement env line).failure = some (.reported r)) :
    r.InStep := by
  obtain ⟨s, -, rfl⟩ := addStatement_located h
  exact s.inStep_locate (env.lineStart line)

theorem addStatement_of_leavesOpen (b : Block) {u : Unterminated} (hu : Rule.LeavesOpen line.text u)
    (hstart : "@if(".toList <+: line.text) (hnumber : 1 ≤ line.number) :
    (b.addStatement env line).failure = some (.reported u.adrift) := by
  have hcompile := Rule.compile_of_leavesOpen env.options hu
  have hchange : tagChange? env.options line.text = some (.error (.reported u.adrift)) := by
    simp only [tagChange?, Rule.kind_of_starts hstart, hcompile]
    rfl
  have hfailure : (b.addTag env line).failure = some (.reported u.adrift) := by
    simp only [addTag, hchange, Outcome.fail]
  have hplace : (env.lineStart line).line ≠ 0 := by
    change (line.number : Int) ≠ 0
    omega
  simp only [addStatement, Rule.isTag_of_starts hstart, if_true, hfailure, Option.map_some,
    Failure.locate, u.locate_adrift hplace]

end Block

namespace Machine

variable {env : Setting} {lines : List SourceLine}

/-- Open blocks began at lines that have been taken. -/
theorem header_mem_of_feed (hok : (feed env lines {}).failure = none) :
    ∀ b ∈ (feed env lines {}).state.stack, b.header ∈ lines := by
  refine feed_invariant (P := fun m => ∀ b ∈ m.stack, b.header ∈ lines) ?_ (by simp) hok
  intro line hline m m' hm hmove
  cases hmove with
  | definition h hh hdef =>
    subst hh
    exact List.forall_mem_cons.mpr ⟨hline, hm⟩
  | model h hh hmodel hdepth hfirst =>
    subst hh
    exact List.forall_mem_cons.mpr ⟨hline, hm⟩
  | close b stack hstack hclose =>
    rw [hstack] at hm
    exact (List.forall_mem_cons.mp hm).2
  | statement b stack hstack hstatement hok =>
    rw [hstack] at hm
    obtain ⟨hb, htail⟩ := List.forall_mem_cons.mp hm
    have hheader := congrArg Heading.line (Block.addStatement_heading env line b)
    refine List.forall_mem_cons.mpr ⟨?_, htail⟩
    rw [show (b.addStatement env line).state.header = b.header from hheader]
    exact hb

end Machine

/-- The lines of a document are in order up to a rule in a block, which leaves the tag `u` open. -/
def StopsInRule (env : Setting) (text : Text) (u : Unterminated) : Prop :=
  ∃ before line after m, SourceLine.read text = before ++ line :: after ∧
    Machine.Reaches env before {} m ∧ m.stack ≠ [] ∧ Rule.LeavesOpen line.text u

theorem StopsInRule.failure {env : Setting} {text : Text} {u : Unterminated}
    (h : StopsInRule env text u) : (compile env text).failure = some (.reported u.adrift) := by
  obtain ⟨before, line, after, m, hlines, ⟨hok, rfl⟩, hstack, hu⟩ := h
  have hline : line ∈ SourceLine.read text := by simp [hlines]
  obtain ⟨b, stack, hstack⟩ := List.exists_cons_of_ne_nil hstack
  have hstart : "@if(".toList <+: line.text := by
    obtain ⟨path, conditions, actions, hparts, -⟩ := hu
    rw [← SourceLine.strip_text_of_mem_read hline]
    exact Rule.starts_of_parts hparts
  have hstatement := LineKind.of_eq_statement.mp (Rule.lineKind_of_starts hstart)
  refine Machine.run_failure_eq_some.mpr (.inl ⟨before, line, after, hlines, hok, ?_⟩)
  rw [Machine.step_of_statement hstack hstatement]
  exact b.addStatement_of_leavesOpen hu hstart (SourceLine.number_pos_of_mem_read hline)

theorem compile_reported {env : Setting} {text : Text} {r : Report Cause}
    (h : (compile env text).failure = some (.reported r)) :
    (∃ l, r.location = some l ∧ ∃ line ∈ SourceLine.read text, l.On env line) ∨
      ∃ u, StopsInRule env text u := by
  -- Reports of the machine itself are about the start of a line.
  have hstart {line : SourceLine} {c : Cause} (hline : line ∈ SourceLine.read text)
      (hr : Failure.reported r = env.failAt line c) :
      ∃ l, r.location = some l ∧ ∃ line ∈ SourceLine.read text, l.On env line := by
    cases hr
    exact ⟨_, rfl, line, hline,
      Location.lineStart_on env (SourceLine.text_ne_nil_of_mem_read hline)⟩
  rcases Machine.run_failure_eq_some.mp h with
    ⟨before, line, after, hlines, hok, hfail⟩ | ⟨hok, hopen⟩
  · have hline : line ∈ SourceLine.read text := by simp [hlines]
    rcases Machine.step_failure hfail with ⟨c, hc⟩ | ⟨b, stack, hstack, -, hb⟩
    · exact .inl (hstart hline hc)
    · have hplaced := Block.addStatement_reported (SourceLine.text_ne_nil_of_mem_read hline)
        (SourceLine.number_pos_of_mem_read hline) hb
      rcases hplaced with ⟨l, hl, hon⟩ | ⟨u, hu, -⟩
      · exact .inl ⟨l, hl, line, hline, hon⟩
      · exact .inr ⟨u, before, line, after, _, hlines, ⟨hok, rfl⟩, by simp [hstack], hu⟩
  · obtain ⟨b, hb, hr⟩ := Option.map_eq_some_iff.mp hopen
    have hheader := Machine.header_mem_of_feed hok b (List.mem_of_mem_head? hb)
    exact .inl (hstart hheader hr.symm)

/-- The report that a document ends with carries the text of its cause and its place. -/
theorem compile_inStep {env : Setting} {text : Text} {r : Report Cause}
    (h : (compile env text).failure = some (.reported r)) : r.InStep := by
  rcases Machine.run_failure_eq_some.mp h with ⟨before, line, after, -, -, hfail⟩ | ⟨-, hopen⟩
  · rcases Machine.step_failure hfail with ⟨c, hc⟩ | ⟨b, stack, -, -, hb⟩
    · cases hc
      exact Report.inStep_raised c _
    · exact Block.addStatement_inStep hb
  · obtain ⟨b, -, hr⟩ := Option.map_eq_some_iff.mp hopen
    cases hr
    exact Report.inStep_raised _ _

/-- A report is about a line of its document, which it shows, exactly if the document does not
stop in a rule that leaves a tag open. If it does, the report is about line zero of no source. -/
theorem compile_report_on_line_iff (env : Setting) (text : Text) :
    (∀ u, StopsInRule env text u → (compile env text).failure = some (.reported u.adrift)) ∧
      ∀ r, (compile env text).failure = some (.reported r) →
        ((∃ l, r.location = some l ∧ ∃ line ∈ SourceLine.read text, l.On env line) ↔
          ∀ u, ¬StopsInRule env text u) := by
  refine ⟨fun u hu => hu.failure, fun r hr => ⟨?_, ?_⟩⟩
  · rintro ⟨l, hl, line, hline, hon⟩ u hu
    have hadrift : r = u.adrift := by
      have hsame := hr.symm.trans hu.failure
      simpa using hsame
    have hnumber := hon.number
    have hpos := SourceLine.number_pos_of_mem_read hline
    rw [hadrift] at hl
    cases hl
    change (0 : Int) = line.number at hnumber
    omega
  · intro hnone
    rcases compile_reported hr with hplaced | ⟨u, hu⟩
    · exact hplaced
    · exact absurd hu (hnone u)

/-- A rule whose action has no end. -/
def strayText : Text := "model A object \x7b\n@if(a: @const(1), @required(b)\n\x7d".toList

theorem compile_report_on_line_iff_stray :
    (compile {} strayText).failure =
        some (.reported (Unterminated.adrift ⟨"required".toList, 2⟩)) ∧
      ∃ u, StopsInRule {} strayText u := by
  have hfail : (compile {} strayText).failure =
      some (.reported (Unterminated.adrift ⟨"required".toList, 2⟩)) := by decide +kernel
  refine ⟨hfail, ?_⟩
  apply Classical.not_forall_not.mp
  rw [← (compile_report_on_line_iff {} strayText).2 _ hfail]
  rintro ⟨l, hl, line, hline, hon⟩
  have hnumber := hon.number
  have hpos := SourceLine.number_pos_of_mem_read hline
  cases hl
  change (0 : Int) = line.number at hnumber
  omega

end ModelSchema
