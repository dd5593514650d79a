import ModelSchema.Command.Run
import ModelSchema.Proofs.Magnitude
import ModelSchema.Proofs.Origin

namespace ModelSchema

/-- A value as the command prints it. -/
def printedText (v : Value) (indent : Option Nat) : Text :=
  (Command.Ending.printed (Json.render v indent)).output.toList

theorem printedText_eq (v : Value) (indent : Option Nat) :
    printedText v indent = Json.write indent 0 v ++ ['\n'] := by
  have hend : "\n".toList = ['\n'] := rfl
  change (String.ofList (Json.write indent 0 v) ++ "\n").toList = _
  rw [String.toList_append, String.toList_ofList, hend]

/-- The text is a printed form of the schema of a document: at an indent, or as the command puts it
out for a file with the document, under the options that it finds. -/
inductive Printed (env : Setting) (text : Text) : Text → Prop
  | indented (indent : Option Nat) :
      Printed env text (printedText (compile env text).state indent)
  | command {files : FileTree} {source : Path} {output config : Option Path} {width : Int}
      {events : List Event} {s : String} (hsource : env.source = source.toString)
      (hoptions : Command.loadOptions files source config = .ok (env.options, events))
      (htext : files.readText source = .ok text)
      (hprinted : (Command.runCompile files source output config width).ending = .printed s) :
      Printed env text (Command.runCompile files source output config width).ending.output.toList

namespace Command

variable {files : FileTree} {source : Path} {output config : Option Path} {width : Int}
  {events : List Event} {s : String} {o : Options} {text : Text}

theorem compileFailure_ne_printed (f : Failure) : compileFailure f ≠ .printed s := by
  unfold compileFailure
  split
  · simp
  · simp

/-- The schema of a file is that of the text read from it. -/
theorem compileSource_of_ok {v : Value}
    (hoptions : loadOptions files source config = .ok (o, events))
    (htext : files.readText source = .ok text)
    (h : (compileSource files source config).1 = .ok v) :
    v = (compile ⟨source.toString, o⟩ text).state := by
  simp only [compileSource, hoptions, htext] at h
  split at h
  · exact (Except.ok.inj h).symm
  · cases h

theorem compileSource_of_error {e : Ending}
    (hoptions : loadOptions files source config = .ok (o, events))
    (htext : files.readText source = .ok text)
    (h : (compileSource files source config).1 = .error e) : e ≠ .printed s := by
  simp only [compileSource, hoptions, htext] at h
  split at h
  · cases h
  · rename_i f hfailure
    rw [← Except.error.inj h]
    exact compileFailure_ne_printed f

/-- Only the schema of the source is printed. -/
theorem render_of_printed (hoptions : loadOptions files source config = .ok (o, events))
    (htext : files.readText source = .ok text)
    (hprinted : (runCompile files source output config width).ending = .printed s) :
    ∃ indent, s = Json.render (compile ⟨source.toString, o⟩ text).state indent := by
  unfold runCompile at hprinted
  split at hprinted
  · rename_i ending found hsource
    exact absurd hprinted (compileSource_of_error hoptions htext (congrArg Prod.fst hsource))
  · rename_i schema found hsource
    rw [← compileSource_of_ok hoptions htext (congrArg Prod.fst hsource)]
    split at hprinted
    · cases hprinted
    · rename_i indent hindent
      cases output with
      | none =>
        cases hprinted
        exact ⟨indent, rfl⟩
      | some path =>
        simp only [deliver] at hprinted
        split at hprinted
        · cases hprinted
        · cases hprinted

end Command

/-- A numeral with a point or an exponent stands as a literal in the document. -/
def HasLiteral (env : Setting) (text : Text) (n : Numeral) : Prop :=
  n.isInteger = false ∧ ∃ line ∈ SourceLine.read text, ∃ t, line.Offers env t ∧ n.Spells t

/-- The numeral is a literal of the document, and the schema has its double. -/
structure TakesNumeral (env : Setting) (text : Text) (n : Numeral) : Prop where
  literal : HasLiteral env text n
  mem : .float n.toDouble ∈ (compile env text).state.numbers

variable {env : Setting} {text : Text}

theorem int_or_hasLiteral (hok : (compile env text).failure = none) :
    (compile env text).state.Holds fun x =>
      (∃ i, x = .int i) ∨ ∃ n, HasLiteral env text n ∧ x = .float n.toDouble := by
  refine holds_compile hok ?_ ?_
  · intro i
    exact .inl ⟨i, rfl⟩
  · intro line hline t ht x hx
    cases hx with
    | int i => exact .inl ⟨i, rfl⟩
    | @float n hn hint => exact .inr ⟨n, ⟨hint, line, hline, t, ht, hn⟩, rfl⟩

theorem int_or_takesNumeral (hok : (compile env text).failure = none) {x : Number}
    (hx : x ∈ (compile env text).state.numbers) :
    (∃ i, x = .int i) ∨ ∃ n, TakesNumeral env text n ∧ x = .float n.toDouble := by
  rcases int_or_hasLiteral hok x hx with hint | ⟨n, hliteral, rfl⟩
  · exact .inl hint
  · exact .inr ⟨n, ⟨hliteral, hx⟩, rfl⟩

theorem isFinite_iff_of_compile (hok : (compile env text).failure = none) :
    (∀ x ∈ (compile env text).state.numbers, x.isFinite = true) ↔
      ∀ n, TakesNumeral env text n → n.magnitude < Double.overflow := by
  constructor
  · intro h n hn
    exact n.rounded_toDouble.isFinite_iff.mp (h _ hn.mem)
  · intro h x hx
    rcases int_or_takesNumeral hok hx with ⟨i, rfl⟩ | ⟨n, hn, rfl⟩
    · rfl
    · exact n.rounded_toDouble.isFinite_iff.mpr (h n hn)

theorem infinite_iff_of_compile (hok : (compile env text).failure = none) :
    (∃ x ∈ (compile env text).state.numbers, ∃ negative, x = .float (.infinite negative)) ↔
      ∃ n, TakesNumeral env text n ∧ Double.overflow ≤ n.magnitude := by
  constructor
  · intro h
    obtain ⟨x, hx, negative, rfl⟩ := h
    rcases int_or_takesNumeral hok hx with ⟨i, hi⟩ | ⟨n, hn, hdouble⟩
    · cases hi
    · refine ⟨n, hn, not_lt.mp fun hsmall => ?_⟩
      have hfinite := n.rounded_toDouble.isFinite_iff.mpr hsmall
      rw [← Number.float.inj hdouble] at hfinite
      cases hfinite
  · intro h
    obtain ⟨n, hn, hover⟩ := h
    exact ⟨_, hn.mem, n.negative, congrArg _ (n.rounded_toDouble.eq_infinite hover)⟩

theorem nan_not_mem_of_compile (hok : (compile env text).failure = none) :
    .float .nan ∉ (compile env text).state.numbers := by
  intro hmem
  rcases int_or_takesNumeral hok hmem with ⟨i, hi⟩ | ⟨n, -, hdouble⟩
  · cases hi
  · exact n.rounded_toDouble.ne_nan (Number.float.inj hdouble).symm

theorem Printed.eq_printedText {out : Text} (h : Printed env text out) :
    ∃ indent, out = printedText (compile env text).state indent := by
  cases h with
  | indented indent => exact ⟨indent, rfl⟩
  | command hsource hoptions htext hprinted =>
    obtain ⟨indent, rfl⟩ := Command.render_of_printed hoptions htext hprinted
    refine ⟨indent, ?_⟩
    rw [hprinted, ← hsource]
    rfl

/-- Every number of a schema is an integer or the double of a numeral that stands as a literal in
the document. That double is finite exactly below the overflow, and never not-a-number. So the
printed schema is JSON exactly if all numerals taken are below the overflow; otherwise it names an
infinity outside of all quotes. -/
theorem compile_prints_json_iff (env : Setting) (text : Text)
    (hok : (compile env text).failure = none) :
    (∀ x ∈ (compile env text).state.numbers,
      (∃ i, x = .int i) ∨ ∃ n, TakesNumeral env text n ∧ x = .float n.toDouble) ∧
    (∀ n, TakesNumeral env text n → n.toDouble ≠ .nan ∧
      (n.toDouble.isFinite = true ↔ n.magnitude < Double.overflow)) ∧
    ∀ out, Printed env text out →
      (Json.IsJson out ↔ ∀ n, TakesNumeral env text n → n.magnitude < Double.overflow) ∧
      ("Infinity".toList <:+: Json.unquoted .outside out ↔
        ∃ n, TakesNumeral env text n ∧ Double.overflow ≤ n.magnitude) ∧
      ¬"NaN".toList <:+: Json.unquoted .outside out := by
  refine ⟨?_, ?_, ?_⟩
  · intro x hx
    exact int_or_takesNumeral hok hx
  · intro n _
    exact ⟨n.rounded_toDouble.ne_nan, n.rounded_toDouble.isFinite_iff⟩
  · intro out hout
    obtain ⟨indent, rfl⟩ := hout.eq_printedText
    have hshows := Json.shows_line indent (compile env text).state
    rw [printedText_eq, Json.isJson_line_iff, hshows.infinity_iff, hshows.nan_iff]
    exact ⟨isFinite_iff_of_compile hok, infinite_iff_of_compile hok, nan_not_mem_of_compile hok⟩

/-- A limit without a finite double. -/
def hugeText : Text := "model A object \x7b\na: number @minimum(1e400)\n\x7d".toList

def hugeNumeral : Numeral := ⟨false, ['1'], none, some (false, ['4', '0', '0'])⟩

theorem hasLiteral_huge : HasLiteral {} hugeText hugeNumeral := by
  have hread : SourceLine.read hugeText = [⟨1, "model A object \x7b".toList⟩,
      ⟨2, "a: number @minimum(1e400)".toList⟩, ⟨3, ['\x7d']⟩] := by
    decide +kernel
  have hprepare : Block.prepare {} ⟨2, "a: number @minimum(1e400)".toList⟩ =
      .ok (⟨['a'], "number @minimum(1e400)".toList⟩, FieldType.primitive "number".toList,
        [⟨"minimum".toList, some "1e400".toList, 11⟩]) :=
    Block.prepare_eq_ok.mpr ⟨3, _, by decide +kernel, by decide +kernel, rfl⟩
  have hoffers := SourceLine.Offers.field (by decide +kernel) hprepare (List.mem_singleton_self _)
    (.inl ⟨.minimum, by decide +kernel⟩) rfl
  refine ⟨rfl, _, hread ▸ List.mem_cons_of_mem _ (List.mem_cons_self ..), _, hoffers, ?_⟩
  exact Numeral.read?_eq_some.mp (by decide +kernel)

theorem compile_prints_json_iff_huge :
    (compile {} hugeText).failure = none ∧
      ¬Json.IsJson (printedText (compile {} hugeText).state none) ∧
      "Infinity".toList <:+:
        Json.unquoted .outside (printedText (compile {} hugeText).state none) := by
  have hok : (compile {} hugeText).failure = none := by decide +kernel
  have hmem : .float hugeNumeral.toDouble ∈ (compile {} hugeText).state.numbers := by decide +kernel
  have htaken : TakesNumeral {} hugeText hugeNumeral := ⟨hasLiteral_huge, hmem⟩
  obtain ⟨-, hround, hprinted⟩ := compile_prints_json_iff {} hugeText hok
  obtain ⟨hjson, hinfinity, -⟩ := hprinted _ (.indented none)
  have hover : ¬hugeNumeral.magnitude < Double.overflow := by
    rw [← (hround hugeNumeral htaken).2]
    decide +kernel
  refine ⟨hok, ?_, hinfinity.mpr ⟨hugeNumeral, htaken, not_lt.mp hover⟩⟩
  intro hvalid
  exact hover (hjson.mp hvalid hugeNumeral htaken)

end ModelSchema
