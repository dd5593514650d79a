import ModelSchema.Proofs.FirstFailure
import ModelSchema.Proofs.Refinement
import ModelSchema.Proofs.Renumber

namespace ModelSchema

namespace Renumbering

theorem fromOne_add_injective (height : Nat) :
    ∀ a b, fromOne (· + 1 + height) a = fromOne (· + 1 + height) b → a = b := by
  apply fromOne_injective
  · intro i
    omega
  · intro i j h
    omega

/-- The numbers of lines that stand `height` lines further down. -/
def shift (height : Nat) : Renumbering :=
  ⟨fromOne (· + 1 + height), fromOne_zero _, fromOne_add_injective height⟩

theorem shift_apply {height n : Nat} (h : 1 ≤ n) : (shift height).apply n = n + height := by
  cases n with
  | zero => omega
  | succ n => rfl

end Renumbering

/-- How many lines a text takes, blank ones and comments included. -/
def Text.height (t : Text) : Nat := (splitOn '\n' t).length

namespace SourceLine

theorem readFrom_shift (height n : Nat) (raws : List Text) :
    readFrom (n + 1 + height) raws = (readFrom (n + 1) raws).map (renumber (.shift height)) := by
  induction raws generalizing n with
  | nil => rfl
  | cons raw raws ih =>
    have hraw : ofRaw? (n + 1 + height) raw =
        (ofRaw? (n + 1) raw).map (renumber (.shift height)) := by
      simp only [ofRaw?]
      split <;> rfl
    have hnext : n + 1 + height + 1 = n + 1 + 1 + height := by omega
    simp only [readFrom, List.map_append, hraw, hnext, ih]
    cases ofRaw? (n + 1) raw <;> rfl

/-- The lines of the second text follow those of the first. -/
theorem read_append (a b : Text) :
    read (a ++ '\n' :: b) = read a ++ (read b).map (renumber (.shift a.height)) := by
  have hstart : 1 + a.height = 0 + 1 + a.height := by omega
  rw [read, Text.splitOn_append, readFrom_append, ← Text.height, hstart, readFrom_shift]
  rfl

/-- The first line that starts as the header of a model. -/
def model? (lines : List SourceLine) : Option SourceLine := lines.find? isModel

theorem model?_renumber (σ : Renumbering) (lines : List SourceLine) :
    model? (lines.map (renumber σ)) = (model? lines).map (renumber σ) := List.find?_map

end SourceLine

theorem Forest.models_eq_zero {F : Forest} (hF : F.WellFormed)
    (hnone : SourceLine.model? F.lines = none) : F.models = 0 := by
  apply List.countP_eq_zero.mpr
  intro t ht hshape
  have hmem : t.heading.line ∈ F.lines := by
    apply List.mem_flatMap.mpr
    exact ⟨t, ht, by simp [Tree.lines]⟩
  have hline := List.find?_eq_none.mp hnone t.heading.line hmem
  rcases (hF t ht).heading with hdef | hmodel
  · exact hdef.shape (by simpa using hshape)
  · exact hline (by simpa [SourceLine.isModel] using LineKind.of_eq_model.mpr hmodel.start)

namespace Machine

variable {env : Setting} {a b : List SourceLine}

theorem feed_modelLine {lines : List SourceLine} {m : Machine}
    (hok : (feed env lines m).failure = none) :
    (feed env lines m).state.modelLine =
      m.modelLine.or ((SourceLine.model? lines).map SourceLine.number) := by
  induction lines generalizing m with
  | nil => simp [feed, Outcome.ok, SourceLine.model?]
  | cons line lines ih =>
    obtain ⟨hstep, hrest⟩ := Outcome.andThen_failure_eq_none.mp hok
    rw [feed, Outcome.andThen_state hstep, ih hrest]
    have hmove := moves_of_step hstep
    have hother (hkind : LineKind.of line.text ≠ .model) :
        SourceLine.model? (line :: lines) = SourceLine.model? lines := by
      simp [SourceLine.model?, SourceLine.isModel, hkind]
    generalize (m.step env line).state = m' at hmove
    cases hmove with
    | definition h hline hdef =>
      subst hline
      rw [hother (by simp [LineKind.of_eq_definition.mpr hdef.start])]
      rfl
    | model h hline hmodel hdepth hfirst =>
      subst hline
      have hhead : SourceLine.isModel h.line = true := by
        simp [SourceLine.isModel, LineKind.of_eq_model.mpr hmodel.start]
      simp [enter, hfirst, SourceLine.model?, hhead]
    | close b stack hstack hclose =>
      rw [hother (by simp [LineKind.of_eq_close.mpr hclose])]
      rfl
    | statement b stack hstack hline hok =>
      rw [hother (by simp [LineKind.of_eq_statement.mpr hline])]
      rfl

/-- A run after another: the second writes its definitions over those of the first. -/
theorem run_append (hnodup : ((a ++ b).map SourceLine.number).Nodup)
    (ha : (run env a {}).failure = none) (hb : (run env b {}).failure = none)
    (hmodel : SourceLine.model? a = none ∨ SourceLine.model? b = none) :
    (run env (a ++ b) {}).failure = none ∧
      (run env (a ++ b) {}).state.document.definitions =
        Fields.putAll (run env b {}).state.document.definitions
          (run env a {}).state.document.definitions ∧
      (SourceLine.model? b = none →
        (run env (a ++ b) {}).state.document.root = (run env a {}).state.document.root) ∧
      (SourceLine.model? a = none →
        (run env (a ++ b) {}).state.document.root = (run env b {}).state.document.root) := by
  obtain ⟨F, rfl, hF, hcF, hmF⟩ := forest_of_run ha
  obtain ⟨G, rfl, hG, hcG, hmG⟩ := forest_of_run hb
  rw [List.map_append] at hnodup
  have hnodupF := hnodup.sublist (List.sublist_append_left ..)
  have hnodupG := hnodup.sublist (List.sublist_append_right ..)
  have hmodels : Forest.models (F ++ G) ≤ 1 := by
    have hsum : Forest.models (F ++ G) = F.models + G.models := List.countP_append
    rcases hmodel with hnone | hnone
    · have hzero := Forest.models_eq_zero hF hnone
      omega
    · have hzero := Forest.models_eq_zero hG hnone
      omega
  have hlines : F.lines ++ G.lines = Forest.lines (F ++ G) := by simp [Forest.lines]
  have hsections : Forest.sections (F ++ G) = F.sections ++ G.sections := by
    simp [Forest.sections]
  rw [← List.map_append, hlines] at hnodup
  have hboth : Forest.WellFormed (F ++ G) := fun t ht => (List.mem_append.mp ht).elim (hF t) (hG t)
  have hcBoth : Forest.Compiles env (F ++ G) :=
    fun t ht => (List.mem_append.mp ht).elim (hcF t) (hcG t)
  obtain ⟨hok, hdocument⟩ := run_forest hboth hcBoth hmodels hnodup
  rw [hlines, hdocument, hsections, Document.placeAll_append,
    (run_forest hF hcF hmF hnodupF).2, (run_forest hG hcG hmG hnodupG).2]
  -- Without a model the sections of a forest leave the root as it is.
  have hroot {H : Forest} (hH : H.WellFormed) (hnone : SourceLine.model? H.lines = none)
      (d : Document) : (d.placeAll env H.sections).root = d.root := by
    have hlength := Forest.filter_models_length hH
    rw [Forest.models_eq_zero hH hnone] at hlength
    rw [Document.placeAll_root, List.eq_nil_of_length_eq_zero hlength]
    rfl
  refine ⟨hok, ?_, fun hnone => hroot hG hnone _, ?_⟩
  · rw [Document.placeAll_definitions G.sections, Document.placeAll_definitions G.sections]
    exact (Fields.putAll_ofEntries _ _).symm
  · intro hnone
    rw [Document.placeAll_root G.sections, Document.placeAll_root G.sections, hroot hF hnone]

/-- A second model is refused where it starts. -/
theorem run_append_models (hnodup : ((a ++ b).map SourceLine.number).Nodup)
    (ha : (run env a {}).failure = none) (hb : (run env b {}).failure = none)
    {first header : SourceLine} (hfirst : SourceLine.model? a = some first)
    (hheader : SourceLine.model? b = some header) :
    (run env (a ++ b) {}).failure = some (env.failAt header (.secondModel first.number)) := by
  obtain ⟨hkind, before, after, hlines, hbefore⟩ := List.find?_eq_some_iff_append.mp hheader
  have hkind : LineKind.of header.text = .model := by simpa [SourceLine.isModel] using hkind
  subst hlines
  -- What stands before the header has closed all its blocks, and so it is a run of its own.
  have hok := (run_failure_eq_none.mp hb).1
  rw [feed_append] at hok
  obtain ⟨hfeed, hrest⟩ := Outcome.andThen_failure_eq_none.mp hok
  have hstep := (Outcome.andThen_failure_eq_none.mp hrest).1
  have hdepth : (feed env before {}).state.depth = 0 := by
    by_contra hne
    have hopen : 0 < (feed env before {}).state.depth := Nat.pos_of_ne_zero hne
    simp [step, hkind, openModel, hopen, failAt, Outcome.fail] at hstep
  have hclosed : (run env before {}).failure = none := by
    apply run_failure_eq_none.mpr
    have hlength : _ + (feed env before {}).state.stack.length = 0 := hdepth
    exact ⟨hfeed, List.eq_nil_of_length_eq_zero (by omega)⟩
  have hnone : SourceLine.model? before = none := by
    apply List.find?_eq_none.mpr
    intro line hline
    simpa using hbefore line hline
  have hsub : ((a ++ before).map SourceLine.number).Sublist
      ((a ++ (before ++ header :: after)).map SourceLine.number) := by
    rw [← List.append_assoc]
    exact (List.sublist_append_left ..).map _
  obtain ⟨hboth, -⟩ := run_append (hnodup.sublist hsub) ha hclosed (.inr hnone)
  obtain ⟨hreach, hstack⟩ := run_failure_eq_none.mp hboth
  have hseen : (feed env (a ++ before) {}).state.modelLine = some first.number := by
    have hfind : SourceLine.model? (a ++ before) = some first := by
      rw [SourceLine.model?, List.find?_append]
      exact congrArg (fun l : Option SourceLine => l.or _) hfirst
    rw [feed_modelLine hreach, hfind]
    rfl
  have hbase : (feed env (a ++ before) {}).state.base = 0 := by
    refine feed_invariant (P := fun m => m.base = 0) ?_ rfl hreach
    intro line _ m m' hm hmove
    cases hmove <;> exact hm
  apply run_failure_eq_some.mpr
  refine .inl ⟨a ++ before, header, after, by simp, hreach, ?_⟩
  simp [step, hkind, openModel, depth, hbase, hstack, hseen, failAt, Outcome.fail]

end Machine

namespace Document

/-- The schemas of the definitions, by their keys. -/
def schemas (d : Document) : Fields Value := d.definitions.map fun e => (e.1, .object e.2.schema)

theorem schemas_renumber (σ : Renumbering) (d : Document) :
    (σ.transport.document d).schemas = d.schemas :=
  Value.object.inj (definitionsValue_renumber d)

theorem toValue_of_putAll {d first second : Document}
    (h : d.definitions = Fields.putAll second.definitions first.definitions) :
    d.toValue =
      .object (("$defs", .object (Fields.putAll second.schemas first.schemas)) :: d.root) := by
  rw [toValue, definitionsValue, h, Fields.map_putAll fun d : Definition => Value.object d.schema]
  rfl

end Document

namespace Concatenation

/-- What has been compiled of a text. -/
def document (env : Setting) (text : Text) : Document :=
  (Machine.run env (SourceLine.read text) {}).state.document

/-- The lines of the second text, with the numbers they have after the first. -/
def below (a b : Text) : List SourceLine :=
  (SourceLine.read b).map (SourceLine.renumber (.shift a.height))

variable {env : Setting} {a b : Text}

theorem nodup_numbers_below (a b : Text) :
    ((SourceLine.read a ++ below a b).map SourceLine.number).Nodup := by
  have hnodup := SourceLine.nodup_numbers (a ++ '\n' :: b)
  rwa [SourceLine.read_append] at hnodup

theorem run_below (env : Setting) (a b : Text) : Machine.run env (below a b) {} =
    (Machine.run env (SourceLine.read b) {}).renumber (.shift a.height)
      (Machine.renumber (.shift a.height)) :=
  Machine.run_renumber env (SourceLine.read b) {}

theorem run_below_failure (hb : (compile env b).failure = none) :
    (Machine.run env (below a b) {}).failure = none := by
  rw [run_below]
  exact Option.map_eq_none_iff.mpr hb

theorem model?_below (a b : Text) : SourceLine.model? (below a b) =
    (SourceLine.model? (SourceLine.read b)).map (SourceLine.renumber (.shift a.height)) :=
  SourceLine.model?_renumber (.shift a.height) (SourceLine.read b)

theorem compile_of_one_model (ha : (compile env a).failure = none)
    (hb : (compile env b).failure = none)
    (hmodel : SourceLine.model? (SourceLine.read a) = none ∨
      SourceLine.model? (SourceLine.read b) = none) :
    (compile env (a ++ '\n' :: b)).failure = none ∧ ∃ root,
      (compile env (a ++ '\n' :: b)).state = .object (("$defs",
        .object (Fields.putAll (document env b).schemas (document env a).schemas)) :: root) ∧
      (SourceLine.model? (SourceLine.read b) = none → root = (document env a).root) ∧
      (SourceLine.model? (SourceLine.read a) = none → root = (document env b).root) := by
  have hnone : SourceLine.model? (below a b) = none ↔
      SourceLine.model? (SourceLine.read b) = none := by
    rw [model?_below, Option.map_eq_none_iff]
  obtain ⟨hok, hdefinitions, hfirst, hsecond⟩ := Machine.run_append (nodup_numbers_below a b) ha
    (run_below_failure hb) (hmodel.imp_right hnone.mpr)
  have hstate := Document.toValue_of_putAll hdefinitions
  have hdocument : (Machine.run env (below a b) {}).state.document =
      (Renumbering.transport (.shift a.height)).document (document env b) := by
    rw [run_below]
    rfl
  rw [hdocument] at hstate hsecond
  rw [Document.schemas_renumber] at hstate
  simp only [compile, SourceLine.read_append]
  exact ⟨hok, _, hstate, fun h => hfirst (hnone.mpr h), hsecond⟩

theorem compile_of_two_models (ha : (compile env a).failure = none)
    (hb : (compile env b).failure = none) {first header : SourceLine}
    (hfirst : SourceLine.model? (SourceLine.read a) = some first)
    (hheader : SourceLine.model? (SourceLine.read b) = some header) :
    (compile env (a ++ '\n' :: b)).failure =
      some (env.failAt ⟨header.number + a.height, header.text⟩ (.secondModel first.number)) := by
  have hbelow : SourceLine.model? (below a b) = some (header.renumber (.shift a.height)) := by
    rw [model?_below, hheader]
    rfl
  have hpos := SourceLine.number_pos_of_mem_read (List.mem_of_find?_eq_some hheader)
  have hfail := Machine.run_append_models (nodup_numbers_below a b) ha (run_below_failure hb)
    hfirst hbelow
  rw [SourceLine.renumber, Renumbering.shift_apply hpos] at hfail
  simp only [compile, SourceLine.read_append]
  exact hfail

end Concatenation

/-- Documents that compile can be written one after the other, unless both have a model: then the
model of the second is refused, as an error of structure, at its header. Otherwise the definitions
of the second replace those of the first with the same keys and follow the others, and the rest
comes from the document that has the model. -/
theorem compile_append (env : Setting) (a b : Text) (ha : (compile env a).failure = none)
    (hb : (compile env b).failure = none) :
    ∃ defs defs' root root' : Fields Value,
      (compile env a).state = .object (("$defs", .object defs) :: root) ∧
      (compile env b).state = .object (("$defs", .object defs') :: root') ∧
      (SourceLine.model? (SourceLine.read b) = none →
        (compile env (a ++ '\n' :: b)).failure = none ∧
        (compile env (a ++ '\n' :: b)).state =
          .object (("$defs", .object (Fields.putAll defs' defs)) :: root)) ∧
      (SourceLine.model? (SourceLine.read a) = none →
        (compile env (a ++ '\n' :: b)).failure = none ∧
        (compile env (a ++ '\n' :: b)).state =
          .object (("$defs", .object (Fields.putAll defs' defs)) :: root')) ∧
      ∀ first header, SourceLine.model? (SourceLine.read a) = some first →
        SourceLine.model? (SourceLine.read b) = some header →
        (Cause.secondModel first.number).category = .structural ∧
        (compile env (a ++ '\n' :: b)).failure =
          some (env.failAt ⟨header.number + a.height, header.text⟩
            (.secondModel first.number)) := by
  refine ⟨(Concatenation.document env a).schemas, (Concatenation.document env b).schemas,
    (Concatenation.document env a).root, (Concatenation.document env b).root, rfl, rfl, ?_, ?_, ?_⟩
  · intro hnone
    obtain ⟨hok, root, hstate, hroot, -⟩ := Concatenation.compile_of_one_model ha hb (.inr hnone)
    rw [hroot hnone] at hstate
    exact ⟨hok, hstate⟩
  · intro hnone
    obtain ⟨hok, root, hstate, -, hroot⟩ := Concatenation.compile_of_one_model ha hb (.inl hnone)
    rw [hroot hnone] at hstate
    exact ⟨hok, hstate⟩
  · intro first header hfirst hheader
    exact ⟨rfl, Concatenation.compile_of_two_models ha hb hfirst hheader⟩

/-- Two definitions. -/
def libraryText : Text :=
  "def p object \x7b\n  a: string\n\x7d\n// more\ndef q array \x7b\n  c: p\n\x7d\n".toList

/-- Another definition for the first of them, and a model. -/
def orderText : Text :=
  "def P object \x7b\n  b: number\n\x7d\nmodel Order object \x7b\n  x: q @required\n\x7d".toList

theorem compile_append_order :
    (compile {} libraryText).failure = none ∧ (compile {} orderText).failure = none ∧
      SourceLine.model? (SourceLine.read libraryText) = none ∧
      (∃ defs defs' root root' : Fields Value,
        (compile {} libraryText).state = .object (("$defs", .object defs) :: root) ∧
        (compile {} orderText).state = .object (("$defs", .object defs') :: root') ∧
        (compile {} (libraryText ++ '\n' :: orderText)).failure = none ∧
        (compile {} (libraryText ++ '\n' :: orderText)).state =
          .object (("$defs", .object (Fields.putAll defs' defs)) :: root')) ∧
      (compile {} (orderText ++ '\n' :: orderText)).failure =
        some (.located ⟨"<string>", 10, 1, some "model Order object \x7b".toList⟩
          (.secondModel 4)) := by
  have hlibrary : (compile {} libraryText).failure = none := by decide +kernel
  have horder : (compile {} orderText).failure = none := by decide +kernel
  have hnone : SourceLine.model? (SourceLine.read libraryText) = none := by decide +kernel
  have hmodel : SourceLine.model? (SourceLine.read orderText) =
      some ⟨4, "model Order object \x7b".toList⟩ := by decide +kernel
  obtain ⟨defs, defs', root, root', hstate, hstate', -, hjoined, -⟩ :=
    compile_append {} libraryText orderText hlibrary horder
  obtain ⟨-, -, -, -, -, -, -, -, htwice⟩ := compile_append {} orderText orderText horder horder
  obtain ⟨-, hfail⟩ := htwice _ _ hmodel hmodel
  exact ⟨hlibrary, horder, hnone, ⟨defs, defs', root, root', hstate, hstate', hjoined hnone⟩, hfail⟩

end ModelSchema
