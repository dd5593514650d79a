import Mathlib.Algebra.Order.BigOperators.Group.List
import Mathlib.Algebra.Order.Ring.Nat
import ModelSchema.Proofs.FirstFailure
import ModelSchema.Proofs.Renumber

namespace ModelSchema

namespace Renumbering

/-- The given numbers, and after them such as are larger than all of these. -/
def extend (numbers : List Nat) (i : Nat) : Nat := (numbers[i]?).getD (numbers.sum + i + 1)

theorem extend_pos {numbers : List Nat} (hpos : ∀ n ∈ numbers, 1 ≤ n) (i : Nat) :
    1 ≤ extend numbers i := by
  rw [extend]
  cases hi : numbers[i]? with
  | none => simp
  | some n => exact hpos n (List.mem_of_getElem? hi)

theorem extend_injective {numbers : List Nat} (hnodup : numbers.Nodup) (i j : Nat)
    (h : extend numbers i = extend numbers j) : i = j := by
  have hlarge (i j n : Nat) (hi : numbers[i]? = some n) : n ≠ numbers.sum + j + 1 := by
    have hle := List.le_sum_of_mem (List.mem_of_getElem? hi)
    omega
  rw [extend, extend] at h
  cases hi : numbers[i]? with
  | none =>
    cases hj : numbers[j]? with
    | none =>
      simp only [hi, hj, Option.getD_none] at h
      omega
    | some n =>
      simp only [hi, hj, Option.getD_none, Option.getD_some] at h
      exact absurd h.symm (hlarge j i n hj)
  | some m =>
    cases hj : numbers[j]? with
    | none =>
      simp only [hi, hj, Option.getD_none, Option.getD_some] at h
      exact absurd h (hlarge i j m hi)
    | some n =>
      simp only [hi, hj, Option.getD_some] at h
      have hlt : i < numbers.length := (List.getElem?_eq_some_iff.mp hi).1
      apply (List.getElem?_inj hlt hnodup).mp
      rw [hi, hj, h]

/-- Gives the lines one, two and so on these numbers. -/
def ofNumbers (numbers : List Nat) (hpos : ∀ n ∈ numbers, 1 ≤ n) (hnodup : numbers.Nodup) :
    Renumbering :=
  ⟨fromOne (extend numbers), fromOne_zero _,
    fromOne_injective (extend_pos hpos) (extend_injective hnodup)⟩

theorem ofNumbers_apply {numbers : List Nat} (hpos : ∀ n ∈ numbers, 1 ≤ n)
    (hnodup : numbers.Nodup) {i n : Nat} (h : numbers[i]? = some n) :
    (ofNumbers numbers hpos hnodup).apply (i + 1) = n := by
  change numbers[i]?.getD _ = n
  rw [h]
  rfl

end Renumbering

namespace SourceLine

/-- The statements one to a line, from the first line on. -/
def enumerate (texts : List Text) : List SourceLine := texts.mapIdx fun i t => ⟨i + 1, t⟩

/-- Lines with numbers of their own are their statements, numbered. -/
theorem eq_renumber {lines : List SourceLine} (hpos : ∀ n ∈ lines.map number, 1 ≤ n)
    (hnodup : (lines.map number).Nodup) :
    lines = (enumerate (lines.map text)).map
      (renumber (.ofNumbers (lines.map number) hpos hnodup)) := by
  apply List.ext_getElem?
  intro i
  simp only [enumerate, List.getElem?_map, List.getElem?_mapIdx]
  cases hi : lines[i]? with
  | none => rfl
  | some line =>
    have hnumber : (lines.map number)[i]? = some line.number := by rw [List.getElem?_map, hi]; rfl
    change some line = some ⟨(Renumbering.ofNumbers _ hpos hnodup).apply (i + 1), line.text⟩
    rw [Renumbering.ofNumbers_apply hpos hnodup hnumber]

theorem numbers_pos (t : Text) : ∀ n ∈ (read t).map number, 1 ≤ n := by
  intro n hn
  obtain ⟨line, hline, rfl⟩ := List.mem_map.mp hn
  exact number_pos_of_mem_read hline

/-- The new numbers that make a document of its bare statements. -/
def numbering (text : Text) : Renumbering :=
  .ofNumbers ((read text).map number) (numbers_pos text) (nodup_numbers text)

theorem numbering_apply {text : Text} {i : Nat} {line : SourceLine}
    (h : (read text)[i]? = some line) : (numbering text).apply (i + 1) = line.number :=
  Renumbering.ofNumbers_apply _ _ (by rw [List.getElem?_map, h]; rfl)

theorem read_eq_renumber (text : Text) :
    read text = (enumerate ((read text).map SourceLine.text)).map (renumber (numbering text)) :=
  eq_renumber (numbers_pos text) (nodup_numbers text)

end SourceLine

/-- The failure is the same in two documents: the same breakdown, or reports of one category that
show the same text at the same column, and whose lines are those of one statement. A report that
is about no statement in the one document is about none in the other. -/
inductive Failure.SameAs (lines lines' : List SourceLine) : Failure → Failure → Prop
  | broken (b : Breakdown) : SameAs lines lines' (.broken b) (.broken b)
  | reported {r r' : Report Cause} {l l' : Location}
      (hcategory : r.cause.category = r'.cause.category)
      (hkind : r.cause.expressionKind? = r'.cause.expressionKind?)
      (hl : r.location = some l) (hl' : r'.location = some l') (hsource : l.source = l'.source)
      (hcolumn : l.column = l'.column) (hsnippet : l.snippet = l'.snippet)
      (hline : (∃ (i : Nat) (line line' : SourceLine), lines[i]? = some line ∧
          lines'[i]? = some line' ∧ l.line = line.number ∧ l'.line = line'.number) ∨
        l.line = 0 ∧ l'.line = 0) :
      SameAs lines lines' (.reported r) (.reported r')

theorem Cause.expressionKind?_renumber {σ : Renumbering} (c : Cause) :
    (c.renumber σ).expressionKind? = c.expressionKind? := by
  cases c <;> rfl

namespace Machine

variable {env : Setting} {σ : Renumbering}

theorem FailsAt.renumber {lines : List SourceLine} {i : Nat} {f : Failure}
    (h : FailsAt env lines i f) :
    FailsAt env (lines.map (SourceLine.renumber σ)) i (f.renumber σ) := by
  -- The machine before the first line has no numbers.
  have hreaches {a : List SourceLine} {m : Machine} (ha : Reaches env a {} m) :
      Reaches env (a.map (SourceLine.renumber σ)) {} (m.renumber σ) := by
    have hfeed : feed env (a.map (SourceLine.renumber σ)) {} = _ := feed_renumber env a {}
    rw [Reaches, hfeed]
    exact ⟨congrArg (Option.map (Failure.renumber σ)) ha.1, congrArg (Machine.renumber σ) ha.2⟩
  cases h with
  | line hline hbefore hfail =>
    have hbefore' := hreaches hbefore
    rw [List.map_take] at hbefore'
    refine .line (by rw [List.getElem?_map, hline]; rfl) hbefore' ?_
    rw [step_renumber]
    exact congrArg (Option.map (Failure.renumber σ)) hfail
  | unclosed hall hopen =>
    have hlength : lines.length = (lines.map (SourceLine.renumber σ)).length := by simp
    rw [hlength]
    refine .unclosed (hreaches hall) ?_
    exact (σ.transport.unclosed? env _).trans (congrArg (Option.map (Failure.renumber σ)) hopen)

end Machine

namespace Layout

variable {env : Setting} {text text' : Text}

/-- Taking lines is taking their statements, and numbering the outcome. -/
theorem run_numbered (env : Setting) {lines : List SourceLine}
    (hpos : ∀ n ∈ lines.map SourceLine.number, 1 ≤ n)
    (hnodup : (lines.map SourceLine.number).Nodup) :
    Machine.run env lines {} =
      (Machine.run env (SourceLine.enumerate (lines.map SourceLine.text)) {}).renumber
        (.ofNumbers (lines.map SourceLine.number) hpos hnodup)
        (Machine.renumber (.ofNumbers (lines.map SourceLine.number) hpos hnodup)) := by
  have hrun := Machine.run_renumber (σ := .ofNumbers (lines.map SourceLine.number) hpos hnodup) env
    (SourceLine.enumerate (lines.map SourceLine.text)) {}
  rw [← SourceLine.eq_renumber] at hrun
  exact hrun

theorem run_read (env : Setting) (text : Text) :
    Machine.run env (SourceLine.read text) {} =
      (Machine.run env
        (SourceLine.enumerate ((SourceLine.read text).map SourceLine.text)) {}).renumber
        (SourceLine.numbering text) (Machine.renumber (SourceLine.numbering text)) :=
  run_numbered env (SourceLine.numbers_pos text) (SourceLine.nodup_numbers text)

/-- Whether lines fail and what they build is told from their statements. -/
theorem run_of_same_texts (env : Setting) {lines lines' : List SourceLine}
    (hpos : ∀ n ∈ lines.map SourceLine.number, 1 ≤ n)
    (hnodup : (lines.map SourceLine.number).Nodup)
    (hpos' : ∀ n ∈ lines'.map SourceLine.number, 1 ≤ n)
    (hnodup' : (lines'.map SourceLine.number).Nodup)
    (hsame : lines.map SourceLine.text = lines'.map SourceLine.text) :
    ((Machine.run env lines {}).failure = none ↔ (Machine.run env lines' {}).failure = none) ∧
      (Machine.run env lines {}).state.schema = (Machine.run env lines' {}).state.schema := by
  rw [run_numbered env hpos hnodup, run_numbered env hpos' hnodup', hsame]
  simp only [Outcome.renumber, Machine.schema_renumber, Option.map_eq_none_iff, and_self]

theorem schema_eq (hsame : (SourceLine.read text).map SourceLine.text =
    (SourceLine.read text').map SourceLine.text) :
    (compile env text).state = (compile env text').state :=
  (run_of_same_texts env (SourceLine.numbers_pos text) (SourceLine.nodup_numbers text)
    (SourceLine.numbers_pos text') (SourceLine.nodup_numbers text') hsame).2

/-- The line of a report, as the number of a statement. -/
theorem line_of_report {r : Report Cause} {l : Location}
    (hfail : (compile env text).failure = some (.reported (r.renumber (SourceLine.numbering text))))
    (hl : r.location = some l) :
    (∃ i line, (SourceLine.read text)[i]? = some line ∧ l.line = (i + 1 : Nat)) ∨ l.line = 0 := by
  have hlocation : (r.renumber (SourceLine.numbering text)).location =
      some (l.renumber (SourceLine.numbering text)) := by
    simp [Report.renumber, hl]
  rcases compile_reported hfail with ⟨l', hl', line, hline, hon⟩ | ⟨u, hu⟩
  · obtain ⟨i, hi⟩ := List.mem_iff_getElem?.mp hline
    have hsame : l.renumber (SourceLine.numbering text) = l' :=
      Option.some.inj (hlocation.symm.trans hl')
    have hnumber : (SourceLine.numbering text).onInt l.line =
        (SourceLine.numbering text).onInt (i + 1 : Nat) := by
      rw [Renumbering.onInt_natCast, SourceLine.numbering_apply hi, ← hon.number, ← hsame]
      rfl
    exact .inl ⟨i, line, hi, (Renumbering.onInt_inj _).mp hnumber⟩
  · have hadrift : r.renumber (SourceLine.numbering text) = u.adrift := by
      have hsame := hfail.symm.trans hu.failure
      simpa using hsame
    rw [hadrift] at hlocation
    have hzero : (SourceLine.numbering text).onInt 0 =
        (SourceLine.numbering text).onInt l.line := by
      rw [Renumbering.onInt_zero]
      exact congrArg Location.line (Option.some.inj hlocation)
    exact .inr ((Renumbering.onInt_inj _).mp hzero).symm

theorem sameAs (hsame : (SourceLine.read text).map SourceLine.text =
      (SourceLine.read text').map SourceLine.text) {f : Failure}
    (hfail : (compile env text).failure = some (f.renumber (SourceLine.numbering text))) :
    (f.renumber (SourceLine.numbering text)).SameAs (SourceLine.read text) (SourceLine.read text')
      (f.renumber (SourceLine.numbering text')) := by
  cases f with
  | broken b => exact .broken b
  | reported r =>
    obtain ⟨l, hl⟩ : ∃ l, r.location = some l := by
      have hplaced : (r.renumber (SourceLine.numbering text)).location ≠ none := by
        rcases compile_reported hfail with ⟨l, hl, -⟩ | ⟨u, hu⟩
        · simp [hl]
        · have hadrift := hfail.symm.trans hu.failure
          simp only [Option.some.injEq, Failure.renumber, Failure.reported.injEq] at hadrift
          simp [hadrift, Unterminated.adrift, Report.about, Report.raised]
      exact Option.ne_none_iff_exists'.mp fun hnone => hplaced (by simp [Report.renumber, hnone])
    have hlocation (t : Text) : (r.renumber (SourceLine.numbering t)).location =
        some (l.renumber (SourceLine.numbering t)) := by
      simp [Report.renumber, hl]
    refine .reported ?_ ?_ (hlocation text) (hlocation text') rfl rfl rfl ?_
    · exact (Cause.category_renumber r.cause).trans (Cause.category_renumber r.cause).symm
    · exact (Cause.expressionKind?_renumber r.cause).trans
        (Cause.expressionKind?_renumber r.cause).symm
    · rcases line_of_report hfail hl with ⟨i, line, hi, hline⟩ | hline
      · have htexts := congrArg (fun ts => ts[i]?) hsame
        simp only [List.getElem?_map, hi, Option.map_some] at htexts
        obtain ⟨line', hi', -⟩ := Option.map_eq_some_iff.mp htexts.symm
        refine .inl ⟨i, line, line', hi, hi', ?_, ?_⟩
        · change (SourceLine.numbering text).onInt l.line = line.number
          rw [hline, Renumbering.onInt_natCast, SourceLine.numbering_apply hi]
        · change (SourceLine.numbering text').onInt l.line = line'.number
          rw [hline, Renumbering.onInt_natCast, SourceLine.numbering_apply hi']
      · refine .inr ⟨?_, ?_⟩
        · change (SourceLine.numbering text).onInt l.line = 0
          rw [hline, Renumbering.onInt_zero]
        · change (SourceLine.numbering text').onInt l.line = 0
          rw [hline, Renumbering.onInt_zero]

end Layout

/-- Documents with the same statements compile to the same schema, or both fail: at the same
statement and in the same way. -/
theorem compile_of_same_statements (env : Setting) (text text' : Text)
    (hsame : (SourceLine.read text).map SourceLine.text =
      (SourceLine.read text').map SourceLine.text) :
    (compile env text).state = (compile env text').state ∧
      ((compile env text).failure = none ↔ (compile env text').failure = none) ∧
      ∀ f, (compile env text).failure = some f →
        ∃ f' i, (compile env text').failure = some f' ∧
          Machine.FailsAt env (SourceLine.read text) i f ∧
          Machine.FailsAt env (SourceLine.read text') i f' ∧
          f.SameAs (SourceLine.read text) (SourceLine.read text') f' := by
  have hrun := Layout.run_read env text
  have hrun' := Layout.run_read env text'
  rw [← hsame] at hrun'
  let bare := Machine.run env
    (SourceLine.enumerate ((SourceLine.read text).map SourceLine.text)) {}
  have hfailure : (compile env text).failure =
      bare.failure.map (Failure.renumber (SourceLine.numbering text)) :=
    congrArg Outcome.failure hrun
  have hfailure' : (compile env text').failure =
      bare.failure.map (Failure.renumber (SourceLine.numbering text')) :=
    congrArg Outcome.failure hrun'
  refine ⟨Layout.schema_eq hsame, ?_, ?_⟩
  · rw [hfailure, hfailure', Option.map_eq_none_iff, Option.map_eq_none_iff]
  · intro f hf
    obtain ⟨g, hg, rfl⟩ := Option.map_eq_some_iff.mp (hfailure.symm.trans hf)
    obtain ⟨i, hi⟩ := Machine.run_failure_iff_failsAt.mp hg
    have hat := hi.renumber (σ := SourceLine.numbering text)
    have hat' := hi.renumber (σ := SourceLine.numbering text')
    rw [← SourceLine.read_eq_renumber] at hat
    rw [hsame, ← SourceLine.read_eq_renumber] at hat'
    refine ⟨g.renumber (SourceLine.numbering text'), i, ?_, hat, hat', Layout.sameAs hsame hf⟩
    rw [hfailure', hg]
    rfl

/-- Two models, one statement to a line. -/
def twoModelsText : Text := "model A object \x7b\n\x7d\nmodel B object \x7b\n\x7d".toList

/-- The same statements, indented, and among comments and blank lines. -/
def twoModelsSpreadText : Text :=
  "// note\n  model A object \x7b\r\n\n\t\x7d\r\n\r\n// and\nmodel B object \x7b \n  \x7d\n".toList

theorem compile_of_same_statements_spread :
    (SourceLine.read twoModelsText).map SourceLine.text =
        (SourceLine.read twoModelsSpreadText).map SourceLine.text ∧
      (compile {} twoModelsText).failure =
        some (.located ⟨"<string>", 3, 1, some "model B object \x7b".toList⟩ (.secondModel 1)) ∧
      (compile {} twoModelsSpreadText).failure =
        some (.located ⟨"<string>", 7, 1, some "model B object \x7b".toList⟩ (.secondModel 2)) ∧
      (compile {} twoModelsText).state = (compile {} twoModelsSpreadText).state := by
  have hsame : (SourceLine.read twoModelsText).map SourceLine.text =
      (SourceLine.read twoModelsSpreadText).map SourceLine.text := by decide +kernel
  have hschema := (compile_of_same_statements {} twoModelsText twoModelsSpreadText hsame).1
  exact ⟨hsame, by decide +kernel, by decide +kernel, hschema⟩

end ModelSchema
