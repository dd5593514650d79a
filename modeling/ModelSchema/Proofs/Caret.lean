import ModelSchema.Proofs.Decomposition
import ModelSchema.Proofs.Ending
import ModelSchema.Proofs.FirstFailure
import ModelSchema.Proofs.Location
import ModelSchema.Proofs.Splitting

namespace ModelSchema

theorem Text.balanced_of_blank {t : Text} (h : ∀ c ∈ t, isBlank c = true) : Balanced t := by
  apply balanced_of_not_mem
  · intro hopen
    exact absurd (h _ hopen) (by decide)
  · intro hclose
    exact absurd (h _ hclose) (by decide)

/-- On the line of a field, the tag `name` begins after `front`, and its argument goes on to the
end. Before it stand the name of the field, the colon, and a row of complete tags. -/
structure SourceLine.LeavesOpen (line : SourceLine) (front name argument : Text) : Prop where
  text : line.text = front ++ '@' :: (name ++ '(' :: argument)
  front : ∃ (field gap : Text) (r : Row), front = field ++ ':' :: (gap ++ r.text) ∧
    ':' ∉ field ∧ (∀ c ∈ gap, Text.isBlank c = true) ∧
    r.Reads (field.length + 1 + gap.length : Nat) r.text
  word : ∀ c ∈ name, Text.isWord c = true
  argument : Text.Unclosed argument

theorem SourceLine.leavesOpen_of_row {line : SourceLine} {d : Declaration} {offset : Nat}
    {r : Row} {name : Text} (hread : Declaration.read? line.text = some (d, offset))
    (hopen : r.LeavesOpen offset d.rawType name) :
    ∃ front argument, line.LeavesOpen front name argument ∧
      front.length = offset + r.text.length := by
  obtain ⟨field, gap, after, htext, hfield, hgap, hafter, rfl⟩ := Declaration.read?_parts hread
  obtain ⟨argument, hraw, hargument⟩ := hopen.argument
  refine ⟨field ++ ':' :: (gap ++ r.text), argument ++ after, ⟨?_, ?_, hopen.word, ?_⟩, ?_⟩
  · rw [htext, hraw]
    simp
  · exact ⟨field, gap, r, rfl, hfield, hgap, hopen.row⟩
  · exact Text.unclosed_append hargument (Text.balanced_of_blank hafter).1
  · simp only [List.length_append, List.length_cons]
    omega

/-- A report about an argument or an expression, or no report. -/
def Failure.AboutArgument (f : Failure) : Prop :=
  ∀ r, f = .reported r →
    r.cause.category = .missingArgument ∨ r.cause.category = .expressionFormat

namespace Effect

open Attempt

theorem aboutArgument_because {α : Type} (c : Cause)
    (hc : c.category = .missingArgument ∨ c.category = .expressionFormat) :
    FailsIn Failure.AboutArgument (.error (.because c) : Except Failure α) := by
  apply failsIn_error
  intro r hr
  cases hr
  exact hc

theorem aboutArgument_number {α : Type} (y : Except Number.Fault α) :
    FailsIn Failure.AboutArgument (y.mapError Failure.ofNumberFault) := by
  intro f hf r hr
  obtain ⟨fault, -, rfl⟩ := mapError_eq_error.mp hf
  cases hr

theorem aboutArgument_needArgument (tag : Tag) :
    FailsIn Failure.AboutArgument (needArgument tag) := by
  unfold needArgument
  split
  · exact aboutArgument_because _ (.inl rfl)
  · split
    · exact aboutArgument_because _ (.inl rfl)
    · exact failsIn_ok _

/-- What a tag with its end can fail in. -/
theorem aboutArgument_ofTag (o : Options) (d : Declaration) (tag : Tag) :
    FailsIn Failure.AboutArgument (ofTag o d tag) := by
  have hneed := aboutArgument_needArgument tag
  unfold ofTag
  cases tag.kind? with
  | none => exact failsIn_ok _
  | some k =>
    cases k with
    | ui =>
      apply hneed.bind
      intro argument
      apply FailsIn.bind
      · unfold readOrder
        split
        · exact failsIn_ok _
        · exact aboutArgument_number _
      · intro order
        exact failsIn_ok _
    | limit l =>
      apply hneed.bind
      intro argument
      dsimp only
      split
      · exact (aboutArgument_number _).bind fun n => failsIn_ok _
      · exact aboutArgument_because _ (.inl rfl)
    | default =>
      simp only [ofDefault]
      split
      · exact aboutArgument_because _ (.inl rfl)
      · exact (aboutArgument_number _).map _
    | const =>
      simp only [ofConst]
      split
      · exact aboutArgument_because _ (.inl rfl)
      · exact (aboutArgument_number _).map _
    | enum =>
      simp only [ofEnum]
      split
      · exact aboutArgument_because _ (.inl rfl)
      · exact failsIn_ok _
    | ref =>
      simp only [ofRef]
      split
      · exact aboutArgument_because _ (.inl rfl)
      · exact failsIn_ok _
    | format => exact hneed.bind fun argument => failsIn_ok _
    | pattern => exact hneed.map _
    | can =>
      simp only [Permission.compile]
      split
      · exact (aboutArgument_because _ (.inr rfl)).map _
      · exact failsIn_ok _
    | required | uniqueItems | uuid | email | condition | sort | breadcrumb => exact failsIn_ok _

end Effect

namespace Block

variable {env : Setting} {line : SourceLine} {b : Block} {r : Report Cause} {name : Text}

theorem addField_unterminated (h : (b.addField env line).failure = some (.reported r))
    (hcause : r.cause = .unterminated name) :
    ∃ d offset row, Declaration.read? line.text = some (d, offset) ∧
      Row.LeavesOpen offset d.rawType row name ∧
      r = .about ⟨env.source, line.number, offset + row.text.length + 1, none⟩
        (.unterminated name) := by
  unfold addField at h
  split at h
  · rename_i f hprepare
    cases h
    unfold prepare at hprepare
    split at hprepare
    · rename_i d offset hread
      rcases Attempt.bind_eq_error.mp hprepare with hscan | ⟨tags, -, hresolve⟩
      · obtain ⟨row, name', hopen, hr⟩ := Tag.scanAt_eq_error_iff_row.mp hscan
        cases hr
        cases hcause
        exact ⟨d, offset, row, hread, hopen, rfl⟩
      · rcases Attempt.bind_eq_error.mp hresolve with hresolve | ⟨p, -, hp⟩
        · unfold FieldType.resolve FieldType.resolveArray at hresolve
          split at hresolve
          · split at hresolve
            · cases hresolve
            · cases hresolve
              cases hcause
          · cases hresolve
        · cases hp
    · cases hprepare
      cases hcause
  · split at h
    · rename_i s events f happly
      cases h
      obtain ⟨before, tag, after, -, -, htag⟩ :=
        FieldState.applyTags_eq_some.mp (congrArg Outcome.failure happly)
      have hcategory := Effect.aboutArgument_ofTag _ _ tag _ htag r rfl
      rw [hcause] at hcategory
      rcases hcategory with hcategory | hcategory
      · cases hcategory
      · cases hcategory
    · cases h

/-- The place of such a report is completed with the line. -/
theorem addStatement_unterminated (htag : isTag line.text = false)
    (h : (b.addStatement env line).failure = some (.reported r))
    (hcause : r.cause = .unterminated name) :
    ∃ front argument, line.LeavesOpen front name argument ∧
      r = .about ⟨env.source, line.number, front.length + 1, some line.text⟩
        (.unterminated name) := by
  obtain ⟨s, hs, rfl⟩ := addStatement_located h
  rw [htag, if_neg Bool.false_ne_true] at hs
  obtain ⟨d, offset, row, hread, hopen, rfl⟩ := addField_unterminated hs hcause
  obtain ⟨front, argument, hleaves, hlength⟩ := SourceLine.leavesOpen_of_row hread hopen
  refine ⟨front, argument, hleaves, ?_⟩
  -- The place has the number of this line and no snippet yet, so the line is put in.
  rw [hlength, Int.natCast_add, Report.locate_about]
  simp [Report.settle, Setting.lineStart]

end Block

theorem Text.ofInt_natCast (n : Nat) : ofInt n = ofNat n := by
  have hpos : ¬(n : Int) < 0 := by omega
  rw [ofInt, if_neg hpos, Int.natAbs_natCast]

namespace Location

/-- The number of a line with the bar after it. -/
def label (n : Nat) : Text := Text.padLeft 4 (Text.ofNat n) ++ " | ".toList

/-- The line under a statement; what it points at has `n` characters before it. -/
def marker (n : Nat) : Text := List.replicate n ' ' ++ "^^^".toList

theorem idxOf_marker (n : Nat) : (marker n).idxOf '^' = n := by
  have hblank : '^' ∉ List.replicate n ' ' := by
    intro h
    exact absurd (List.eq_of_mem_replicate h) (by decide)
  rw [marker, List.idxOf_append_of_notMem hblank, List.length_replicate]
  rfl

theorem text_of_snippet (source : String) (n : Nat) (front snippet : Text) (h : snippet ≠ []) :
    text ⟨source, n, front.length + 1, some snippet⟩ =
      source.toList ++ ':' :: (Text.ofNat n ++ ':' :: (Text.ofNat (front.length + 1) ++
        '\n' :: (label n ++ (snippet ++ '\n' :: marker (label n ++ front).length)))) := by
  obtain ⟨c, rest, rfl⟩ := List.exists_cons_of_ne_nil h
  have hcolumn : Text.ofInt (front.length + 1) = Text.ofNat (front.length + 1) :=
    Text.ofInt_natCast (front.length + 1)
  have hspaces : ((label n).length + ((front.length : Int) + 1) - 1).toNat =
      (label n ++ front).length := by
    rw [List.length_append]
    omega
  have hlabel : lineLabel n = label n := by rw [lineLabel, Text.ofInt_natCast, label]
  simp only [text, head, snippetText, Text.ofInt_natCast, hcolumn, hlabel, hspaces, marker,
    List.append_assoc, List.cons_append]

end Location

/-- A document that fails in the line of a field, for a tag without an end. The text of the report
is the place, the line with its number, the marker and the message, and the marker stands as far to
the right as the `@` of that tag in the line above. -/
theorem compile_marks_open_tag (env : Setting) (text : Text) {i : Nat} {line : SourceLine}
    {r : Report Cause} {name : Text} (hline : (SourceLine.read text)[i]? = some line)
    (hfield : Block.isTag line.text = false)
    (hfails : Machine.FailsAt env (SourceLine.read text) i (.reported r))
    (hcause : r.cause = .unterminated name) :
    (compile env text).failure = some (.reported r) ∧
      ∃ front argument, line.LeavesOpen front name argument ∧
        let above := Location.label line.number ++ line.text
        let marker := Location.marker (Location.label line.number ++ front).length
        r.text =
          env.source.toList ++ ':' :: (Text.ofNat line.number ++ ':' ::
            (Text.ofNat (front.length + 1) ++ '\n' :: (above ++ '\n' :: (marker ++
              '\n' :: ("Unterminated argument for @".toList ++ name))))) ∧
        above = Location.label line.number ++ front ++ '@' :: (name ++ '(' :: argument) ∧
        marker.idxOf '^' = (Location.label line.number ++ front).length ∧
        above[marker.idxOf '^']? = some '@' := by
  refine ⟨Machine.run_failure_iff_failsAt.mpr ⟨i, hfails⟩, ?_⟩
  have hmem : line ∈ SourceLine.read text := List.mem_of_getElem? hline
  have hne : line.text ≠ [] := SourceLine.text_ne_nil_of_mem_read hmem
  cases hfails with
  | unclosed hall hopen =>
    rw [List.getElem?_eq_none (Nat.le_refl _)] at hline
    cases hline
  | line hline' hbefore hfail =>
    obtain rfl := Option.some.inj (hline.symm.trans hline')
    obtain ⟨b, stack, -, -, hstatement⟩ :=
      (Machine.step_reported hfail).resolve_right fun hother => (hother name).1 hcause
    obtain ⟨front, argument, hleaves, rfl⟩ :=
      Block.addStatement_unterminated hfield hstatement hcause
    have habove : Location.label line.number ++ line.text =
        Location.label line.number ++ front ++ '@' :: (name ++ '(' :: argument) := by
      rw [hleaves.text, List.append_assoc]
    refine ⟨front, argument, hleaves, ?_, habove, Location.idxOf_marker _, ?_⟩
    · change Location.text _ ++ '\n' :: ("Unterminated argument for @".toList ++ name) = _
      rw [Location.text_of_snippet env.source line.number front line.text hne]
      simp only [List.append_assoc, List.cons_append]
    · rw [Location.idxOf_marker, habove, List.getElem?_append_right (Nat.le_refl _), Nat.sub_self]
      rfl

/-- A line inside a nested definition, with blanks around its colon, an item type and a complete tag
before the open one. -/
def hangingLine : SourceLine := ⟨4, "x\t : \t array(string) @ui(1) @pattern(a(b) @y".toList⟩

def hangingText : Text :=
  "model M object \x7b\n\n  def inner object \x7b\n    ".toList ++ hangingLine.text

theorem compile_marks_open_tag_nested :
    let r : Report Cause :=
      .about ⟨"<string>", 4, 29, some hangingLine.text⟩ (.unterminated "pattern".toList)
    (SourceLine.read hangingText)[2]? = some hangingLine ∧
      Block.isTag hangingLine.text = false ∧
      Machine.FailsAt {} (SourceLine.read hangingText) 2 (.reported r) ∧
      (compile {} hangingText).failure = some (.reported r) ∧
      ∃ front argument, hangingLine.LeavesOpen front "pattern".toList argument ∧
        (Location.label 4 ++ hangingLine.text)[(Location.marker
          (Location.label 4 ++ front).length).idxOf '^']? = some '@' := by
  intro r
  have hline : (SourceLine.read hangingText)[2]? = some hangingLine := by decide +kernel
  have hfield : Block.isTag hangingLine.text = false := by decide
  have hbefore : (Machine.feed {} ((SourceLine.read hangingText).take 2) {}).failure = none := by
    decide +kernel
  have hfail : ((Machine.feed {} ((SourceLine.read hangingText).take 2) {}).state.step {}
      hangingLine).failure = some (.reported r) := by
    decide +kernel
  have hfails : Machine.FailsAt {} (SourceLine.read hangingText) 2 (.reported r) :=
    .line hline ⟨hbefore, rfl⟩ hfail
  obtain ⟨hcompile, front, argument, hopen, -, -, -, hat⟩ :=
    compile_marks_open_tag {} hangingText hline hfield hfails rfl
  exact ⟨hline, hfield, hfails, hcompile, front, argument, hopen, hat⟩

end ModelSchema
