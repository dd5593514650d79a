import ModelSchema.Proofs.Quotation

namespace ModelSchema.Permission

open Text (IsRun Balanced doubleQuote doubleQuoted)

/-- The statement about the block. -/
def blockLine (expression : Text) : Text := "@can(".toList ++ (expression ++ [')'])

/-- The type of a field with the same permissions. -/
def fieldType (expression : Text) : Text := "string ".toList ++ blockLine expression

/-- The declaration of a field with the same permissions. -/
def fieldLine (field expression : Text) : Text := field ++ ':' :: ' ' :: fieldType expression

def writtenPair (p : Text × Text) : Text := p.1 ++ ':' :: ' ' :: doubleQuoted p.2

/-- Pairs as they are usually written, `word: "text", word: "text"`. -/
def rendering (ps : List (Text × Text)) : Text :=
  List.intercalate ", ".toList (ps.map writtenPair)

namespace Scanner

/-- Pairs are found at quotes only. -/
theorem found_step {c : Char} (hc : c ≠ doubleQuote) (s : Scanner) :
    (s.step c).found = s.found := by
  obtain ⟨mode, found⟩ := s
  cases mode with
  | outside => rfl
  | word read =>
    simp only [step]
    split
    · rfl
    · split <;> rfl
  | colon word =>
    simp only [step, beq_iff_eq, hc, if_false]
    split <;> rfl
  | value word read => simp [step, hc]

theorem foldl_words {word : Text} (hword : ∀ c ∈ word, Text.isWord c = true) (read : Text)
    (found : List (Text × Text)) :
    word.foldl step ⟨.word read, found⟩ = ⟨.word (word.reverse ++ read), found⟩ := by
  induction word generalizing read with
  | nil => rfl
  | cons c word ih =>
    have hc : Text.isWord c = true := hword c (by simp)
    have hstep : step ⟨.word read, found⟩ c = ⟨.word (c :: read), found⟩ := by simp [step, hc]
    rw [List.foldl_cons, hstep, ih fun d hd => hword d (by simp [hd])]
    simp

theorem foldl_value {text : Text} (htext : doubleQuote ∉ text) (word read : Text)
    (found : List (Text × Text)) :
    text.foldl step ⟨.value word read, found⟩ = ⟨.value word (text.reverse ++ read), found⟩ := by
  induction text generalizing read with
  | nil => rfl
  | cons c text ih =>
    have hc : c ≠ doubleQuote := fun h => htext (by simp [h])
    have hstep : step ⟨.value word read, found⟩ c = ⟨.value word (c :: read), found⟩ := by
      simp [step, hc]
    rw [List.foldl_cons, hstep, ih fun h => htext (by simp [h])]
    simp

/-- A written pair is found as a whole, whatever its text looks like. -/
theorem foldl_writtenPair {p : Text × Text} (hword : IsRun Text.isWord p.1)
    (htext : doubleQuote ∉ p.2) (found : List (Text × Text)) :
    (writtenPair p).foldl step ⟨.outside, found⟩ = ⟨.outside, p :: found⟩ := by
  obtain ⟨word, text⟩ := p
  obtain ⟨c, more, rfl⟩ := List.exists_cons_of_ne_nil hword.1
  have hc : Text.isWord c = true := hword.2 c (by simp)
  have hfirst : step ⟨.outside, found⟩ c = ⟨.word [c], found⟩ := by simp [step, outsideStep, hc]
  have hcolon : step ⟨.word (more.reverse ++ [c]), found⟩ ':' = ⟨.colon (c :: more), found⟩ := by
    have hnot : Text.isWord ':' = false := by decide
    simp [step, hnot]
  have hspace : step ⟨.colon (c :: more), found⟩ ' ' = ⟨.colon (c :: more), found⟩ := by
    have hblank : Text.isBlank ' ' = true := by decide
    simp [step, hblank]
  have hopen : step ⟨.colon (c :: more), found⟩ doubleQuote = ⟨.value (c :: more) [], found⟩ := by
    have hblank : Text.isBlank doubleQuote = false := by decide
    simp [step, hblank]
  have hclose : step ⟨.value (c :: more) text.reverse, found⟩ doubleQuote =
      ⟨.outside, (c :: more, text) :: found⟩ := by simp [step]
  rw [writtenPair, List.cons_append, List.foldl_cons, hfirst, List.foldl_append,
    foldl_words fun d hd => hword.2 d (by simp [hd]), List.foldl_cons, hcolon, List.foldl_cons,
    hspace, doubleQuoted, List.foldl_cons, hopen, List.foldl_append, foldl_value htext,
    List.append_nil]
  exact hclose

theorem foldl_rendering {ps : List (Text × Text)}
    (h : ∀ p ∈ ps, IsRun Text.isWord p.1 ∧ doubleQuote ∉ p.2) (found : List (Text × Text)) :
    (rendering ps).foldl step ⟨.outside, found⟩ = ⟨.outside, ps.reverse ++ found⟩ := by
  induction ps generalizing found with
  | nil => rfl
  | cons p ps ih =>
    have hp := h p (by simp)
    have hpair := foldl_writtenPair hp.1 hp.2 found
    have hrest := ih (fun q hq => h q (by simp [hq])) (p :: found)
    have hcomma : ", ".toList.foldl step ⟨.outside, p :: found⟩ = ⟨.outside, p :: found⟩ := by
      simp only [String.reduceToList, List.foldl_cons, List.foldl_nil]
      rfl
    cases ps with
    | nil => simpa [rendering] using hpair
    | cons q ps =>
      have htext : rendering (p :: q :: ps) =
          writtenPair p ++ (", ".toList ++ rendering (q :: ps)) := by
        simp [rendering, List.intercalate]
      rw [htext, List.foldl_append, hpair, List.foldl_append, hcomma, hrest]
      simp

end Scanner

theorem pairs_rendering {ps : List (Text × Text)}
    (h : ∀ p ∈ ps, IsRun Text.isWord p.1 ∧ doubleQuote ∉ p.2) : pairs (rendering ps) = ps := by
  rw [pairs, Scanner.foldl_rendering h]
  simp

/-- The tag around an expression adds no pair and hides none. -/
theorem pairs_blockLine (expression : Text) : pairs (blockLine expression) = pairs expression := by
  have hhead : "@can(".toList.foldl Scanner.step ⟨.outside, []⟩ = ⟨.outside, []⟩ := by decide
  have hlast : ')' ≠ doubleQuote := by decide
  rw [pairs, pairs, blockLine, List.foldl_append, hhead, List.foldl_append, List.foldl_cons,
    List.foldl_nil, Scanner.found_step hlast]

theorem compile_blockLine_of_ok {expression : Text} {p : Fields String}
    (h : compile expression = .ok p) : compile (blockLine expression) = .ok p := by
  rw [compile] at h ⊢
  rw [table, pairs_blockLine]
  split at h
  · cases h
  · rename_i hpairs
    rw [if_neg hpairs]
    exact h

/-- An expression is refused for the lack of pairs, with a tag around it or without. -/
theorem compile_eq_error {expression : Text} {f : Failure} (h : compile expression = .error f) :
    f = .because (.permission expression) ∧
      compile (blockLine expression) = .error (.because (.permission (blockLine expression))) := by
  rw [compile] at h ⊢
  rw [pairs_blockLine]
  split at h
  · rename_i hpairs
    cases h
    rw [if_pos hpairs]
    exact ⟨rfl, rfl⟩
  · cases h

/-- The keys of the pairs as they first come, each with the text that comes last. -/
theorem compile_rendering {ps : List (Text × Text)} (hfull : ps ≠ [])
    (h : ∀ p ∈ ps, IsRun Text.isWord p.1 ∧ doubleQuote ∉ p.2) :
    ∃ t, compile (rendering ps) = .ok t ∧ t.keys = (ps.map fun p => Text.str p.1).eraseDups ∧
      ∀ before k v after, ps = before ++ (k, v) :: after → k ∉ after.map Prod.fst →
        t.get? (Text.str k) = some (Text.str v) := by
  have hpairs := pairs_rendering h
  refine ⟨table (rendering ps), ?_, ?_, ?_⟩
  · have hsome : (pairs (rendering ps)).isEmpty = false := by rw [hpairs]; simpa using hfull
    rw [compile, hsome]
    rfl
  · rw [table, hpairs, Fields.keys_ofEntries]
    simp [Fields.keys, Function.comp_def]
  · intro before k v after hsplit hlast
    have hlater : Fields.get? (Text.str k)
        (after.map fun p => (Text.str p.1, Text.str p.2)).reverse = none := by
      rw [Option.eq_none_iff_forall_not_mem]
      intro t ht
      have hkey : Text.str k ∈ Fields.keys
          (after.map fun p => (Text.str p.1, Text.str p.2)).reverse :=
        Fields.mem_keys_iff.mpr ⟨t, ht⟩
      simp only [Fields.keys, List.map_reverse, List.map_map, List.mem_reverse, List.mem_map,
        Function.comp_apply] at hkey
      obtain ⟨p, hp, hsame⟩ := hkey
      apply hlast
      rw [← String.ofList_injective hsame]
      exact List.mem_map_of_mem hp
    rw [table, hpairs, Fields.ofEntries, Fields.get?_putAll, hsplit, List.map_append, List.map_cons,
      List.reverse_append, List.reverse_cons, Fields.get?_append, Fields.get?_append, hlater]
    simp [Fields.get?]

theorem head?_fieldLine {field : Text} (hfield : IsRun Text.isWord field) (expression : Text) :
    ∃ c, (fieldLine field expression).head? = some c ∧ Text.isWord c = true := by
  obtain ⟨c, more, rfl⟩ := List.exists_cons_of_ne_nil hfield.1
  exact ⟨c, rfl, hfield.2 c (by simp)⟩

theorem strip_blockLine (before expression : Text)
    (hbefore : ∀ c ∈ (before ++ blockLine expression).head?, Text.isBlank c = false) :
    Text.strip (before ++ blockLine expression) = before ++ blockLine expression := by
  apply Text.trim_of_ends hbefore
  intro c hc
  rw [blockLine, ← List.append_assoc, ← List.append_assoc, List.getLast?_concat] at hc
  cases hc
  decide

theorem strip_fieldType (expression : Text) :
    Text.strip (fieldType expression) = fieldType expression :=
  strip_blockLine "string ".toList expression (by
    intro c hc
    cases hc
    decide)

theorem read?_fieldLine {field : Text} (hfield : IsRun Text.isWord field) (expression : Text) :
    Declaration.read? (fieldLine field expression) =
      some (⟨field, fieldType expression⟩, field.length + 2) := by
  have hcut : Text.cut? ':' (fieldLine field expression) =
      some (field, ' ' :: fieldType expression) :=
    Text.cut?_eq_some.mpr ⟨rfl, Text.not_mem_words hfield.2 (by decide)⟩
  have hname : Text.strip field = field := Text.strip_of_words hfield.2
  have hblank : Text.isBlankText field = false := by
    obtain ⟨c, more, rfl⟩ := List.exists_cons_of_ne_nil hfield.1
    have hc := Text.isBlank_eq_false_of_isWord (hfield.2 c (by simp))
    simp [Text.isBlankText, hc]
  have hspace : ∀ c ∈ [' '], Text.isBlank c = true := List.all_eq_true.mp (by decide)
  have hstrip : Text.strip (' ' :: fieldType expression) = fieldType expression :=
    (Text.trim_append_left hspace _).trans (strip_fieldType expression)
  have hgap : (' ' :: fieldType expression).takeWhile Text.isBlank = [' '] := rfl
  rw [Declaration.read?, hcut]
  simp only [hblank, Bool.false_eq_true, if_false, hname, hstrip, hgap, List.length_singleton]

theorem scan_fieldType {expression : Text} (hbalanced : Balanced expression) (offset : Int) :
    Tag.scan offset (fieldType expression) =
      .ok [⟨"can".toList, some expression, offset + 1 + 7⟩] := by
  have hgap : '@' ∉ "string ".toList := by decide
  have hname : ∀ c ∈ "can".toList, Text.isWord c = true := List.all_eq_true.mp (by decide)
  exact Tag.scan_eq_ok.mpr (Tag.Reading.gaps hgap (Tag.Reading.call hname hbalanced .nil))

theorem prepare_fieldLine (env : Setting) (n : Nat) {field expression : Text}
    (hfield : IsRun Text.isWord field) (hbalanced : Balanced expression) :
    ∃ schema column, Block.prepare env ⟨n, fieldLine field expression⟩ =
      .ok (⟨field, fieldType expression⟩, schema, [⟨"can".toList, some expression, column⟩]) :=
  ⟨_, _, Block.prepare_eq_ok.mpr ⟨_, _, read?_fieldLine hfield expression,
    scan_fieldType hbalanced _, FieldType.resolve_eq_ok.mpr (.inr ⟨rfl, rfl, rfl⟩)⟩⟩

theorem isTag_fieldLine {field : Text} (hfield : IsRun Text.isWord field) (expression : Text) :
    Block.isTag (fieldLine field expression) = false := by
  obtain ⟨c, hhead, hword⟩ := head?_fieldLine hfield expression
  have hat : Text.isWord '@' = false := by decide
  have hc : c ≠ '@' := by
    intro h
    rw [h, hat] at hword
    cases hword
  simp [Block.isTag, hhead, hc]

/-- What becomes of the declaration is what becomes of its expression. -/
theorem addStatement_fieldLine (env : Setting) (b : Block) (n : Nat) {field expression : Text}
    (hfield : IsRun Text.isWord field) (hbalanced : Balanced expression) :
    (∀ p, compile expression = .ok p →
      (b.addStatement env ⟨n, fieldLine field expression⟩).failure = none ∧
        (b.addStatement env ⟨n, fieldLine field expression⟩).state.gathered =
          { b.gathered with
            fieldPermissions := b.gathered.fieldPermissions ++ [(Text.str field, p)] }) ∧
      ∀ f, compile expression = .error f →
        (b.addStatement env ⟨n, fieldLine field expression⟩).failure =
          some (f.locate (env.lineStart ⟨n, fieldLine field expression⟩)) := by
  obtain ⟨schema, column, hprepare⟩ := prepare_fieldLine env n hfield hbalanced
  have heffect : Effect.ofTag env.options ⟨field, fieldType expression⟩
      ⟨"can".toList, some expression, column⟩ = (compile expression).map .permit := rfl
  constructor
  · intro p hp
    rw [hp] at heffect
    simp only [Block.addStatement, isTag_fieldLine hfield, Bool.false_eq_true, if_false,
      Block.addField, hprepare, FieldState.applyTags, heffect]
    exact ⟨rfl, rfl⟩
  · intro f hf
    rw [hf] at heffect
    simp only [Block.addStatement, isTag_fieldLine hfield, Bool.false_eq_true, if_false,
      Block.addField, hprepare, FieldState.applyTags, heffect]
    rfl

theorem addStatement_blockLine (env : Setting) (b : Block) (n : Nat) (expression : Text) :
    (∀ p, compile (blockLine expression) = .ok p →
      (b.addStatement env ⟨n, blockLine expression⟩).failure = none ∧
        (b.addStatement env ⟨n, blockLine expression⟩).state.gathered =
          { b.gathered with collection := Fields.putAll p b.gathered.collection }) ∧
      ∀ f, compile (blockLine expression) = .error f →
        (b.addStatement env ⟨n, blockLine expression⟩).failure =
          some (f.locate (env.lineStart ⟨n, blockLine expression⟩)) := by
  have htag : Block.isTag (blockLine expression) = true := rfl
  have hchange : Block.tagChange? env.options (blockLine expression) =
      some ((compile (blockLine expression)).map Gathered.addCollection) := rfl
  constructor
  · intro p hp
    rw [hp] at hchange
    simp only [Block.addStatement, htag, if_true, Block.addTag, hchange]
    exact ⟨rfl, rfl⟩
  · intro f hf
    rw [hf] at hchange
    simp only [Block.addStatement, htag, if_true, Block.addTag, hchange]
    rfl

/-- A word and a blank do not start a declaration: what follows its first word is a colon. -/
theorem not_prefix_fieldLine {head field : Text} (hhead : ∀ c ∈ head, Text.isWord c = true)
    (hfield : IsRun Text.isWord field) (expression : Text) :
    ¬head ++ [' '] <+: fieldLine field expression := by
  intro hstart
  obtain ⟨tail, htail⟩ := hstart
  rw [List.append_assoc, List.singleton_append] at htail
  have hspace : Text.isWord ' ' = false := by decide
  have hcolon : Text.isWord ':' = false := by decide
  have hafter := (Text.span_append (b := ' ' :: tail) hhead (by simp [hspace])).2
  have hafter' := (Text.span_append (b := ':' :: ' ' :: fieldType expression) hfield.2
    (by simp [hcolon])).2
  rw [htail] at hafter
  cases hafter.symm.trans hafter'

theorem isStatement_fieldLine (n : Nat) {field : Text} (hfield : IsRun Text.isWord field)
    (expression : Text) : SourceLine.IsStatement ⟨n, fieldLine field expression⟩ where
  notDefinition :=
    not_prefix_fieldLine (List.all_eq_true.mp (by decide : "def".toList.all Text.isWord = true))
      hfield expression
  notModel :=
    not_prefix_fieldLine (List.all_eq_true.mp (by decide : "model".toList.all Text.isWord = true))
      hfield expression
  notClose := by
    intro hclose
    obtain ⟨tail, htail : '\x7d' :: tail = fieldLine field expression⟩ := hclose
    obtain ⟨c, hhead, hword⟩ := head?_fieldLine hfield expression
    have hsame : some '\x7d' = some c := by rw [← hhead, ← htail]; rfl
    cases hsame
    exact absurd hword (by decide)

theorem read_of_line {t : Text} (hnewline : '\n' ∉ t) (hstrip : Text.strip t = t) (hne : t ≠ [])
    (hcomment : SourceLine.isComment t = false) : SourceLine.read t = [⟨1, t⟩] := by
  rw [SourceLine.read, Text.splitOn_of_not_mem hnewline]
  simp [SourceLine.readFrom, SourceLine.ofRaw?, hstrip, hne, hcomment]

theorem newline_not_mem_blockLine {expression : Text} (hnewline : '\n' ∉ expression) :
    '\n' ∉ blockLine expression := by
  simp [blockLine, hnewline]

theorem read_blockLine {expression : Text} (hnewline : '\n' ∉ expression) :
    SourceLine.read (blockLine expression) = [⟨1, blockLine expression⟩] := by
  have hstrip : Text.strip (blockLine expression) = blockLine expression :=
    strip_blockLine [] expression (by
      intro c hc
      cases hc
      decide)
  exact read_of_line (newline_not_mem_blockLine hnewline) hstrip (by simp [blockLine]) rfl

theorem read_fieldLine {field expression : Text} (hfield : IsRun Text.isWord field)
    (hnewline : '\n' ∉ expression) :
    SourceLine.read (fieldLine field expression) = [⟨1, fieldLine field expression⟩] := by
  obtain ⟨c, hhead, hword⟩ := head?_fieldLine hfield expression
  have htext : fieldLine field expression =
      (field ++ ": string ".toList) ++ blockLine expression := by
    rw [List.append_assoc]
    rfl
  have hnot : '\n' ∉ fieldLine field expression := by
    have hname : '\n' ∉ field := Text.not_mem_words hfield.2 (by decide)
    rw [htext, List.mem_append, List.mem_append, not_or, not_or]
    exact ⟨⟨hname, by decide⟩, newline_not_mem_blockLine hnewline⟩
  have hstrip : Text.strip (fieldLine field expression) = fieldLine field expression := by
    rw [htext]
    apply strip_blockLine
    rw [← htext, hhead]
    intro d hd
    cases hd
    exact Text.isBlank_eq_false_of_isWord hword
  have hne : fieldLine field expression ≠ [] := by
    intro hnil
    rw [hnil] at hhead
    cases hhead
  have hcomment : SourceLine.isComment (fieldLine field expression) = false := by
    rw [SourceLine.isComment, Bool.eq_false_iff]
    intro hstart
    obtain ⟨tail, htail⟩ := Text.startsWith_iff.mp hstart
    have hsame : some '/' = some c := by rw [← hhead, ← htail]; rfl
    cases hsame
    exact absurd hword (by decide)
  exact read_of_line hnot hstrip hne hcomment

/-- Both statements are accepted and read the same table: the field gets it for its own, and the
block takes it in. -/
structure Granted (env : Setting) (b : Block) (n : Nat) (field expression : Text)
    (p : Fields String) : Prop where
  fieldAccepted : (b.addStatement env ⟨n, fieldLine field expression⟩).failure = none
  blockAccepted : (b.addStatement env ⟨n, blockLine expression⟩).failure = none
  onField : (b.addStatement env ⟨n, fieldLine field expression⟩).state.gathered =
    { b.gathered with fieldPermissions := b.gathered.fieldPermissions ++ [(Text.str field, p)] }
  onBlock : (b.addStatement env ⟨n, blockLine expression⟩).state.gathered =
    { b.gathered with collection := Fields.putAll p b.gathered.collection }
  /-- A block without permissions takes in the table as it is. -/
  alone : b.gathered.collection = [] →
    (b.addStatement env ⟨n, blockLine expression⟩).state.gathered.collection = p

/-- The failure is a report about the form of a permission expression. -/
def IsFormatReport (f : Option Failure) : Prop :=
  ∃ r, f = some (.reported r) ∧ r.cause.category = .expressionFormat ∧
    r.cause.expressionKind? = some .permission

/-- Both statements are refused for the form of the expression. -/
structure Refused (env : Setting) (b : Block) (n : Nat) (field expression : Text) : Prop where
  onField : IsFormatReport (b.addStatement env ⟨n, fieldLine field expression⟩).failure
  onBlock : IsFormatReport (b.addStatement env ⟨n, blockLine expression⟩).failure

theorem isFormatReport_locate (expression : Text) (l : Location) :
    IsFormatReport (some ((Failure.because (.permission expression)).locate l)) :=
  ⟨_, rfl, rfl, rfl⟩

theorem putAll_nil_of_compile {expression : Text} {p : Fields String}
    (h : compile expression = .ok p) : Fields.putAll p [] = p := by
  unfold compile at h
  split at h
  · cases h
  · cases h
    rw [table, Fields.putAll_ofEntries]
    rfl

theorem granted_of_compile (env : Setting) (b : Block) (n : Nat) {field expression : Text}
    (hfield : IsRun Text.isWord field) (hbalanced : Balanced expression) {p : Fields String}
    (hp : compile expression = .ok p) : Granted env b n field expression p := by
  obtain ⟨hfieldOk, hfieldState⟩ := (addStatement_fieldLine env b n hfield hbalanced).1 p hp
  obtain ⟨hblockOk, hblockState⟩ :=
    (addStatement_blockLine env b n expression).1 p (compile_blockLine_of_ok hp)
  refine ⟨hfieldOk, hblockOk, hfieldState, hblockState, ?_⟩
  intro hempty
  rw [hblockState, hempty]
  exact putAll_nil_of_compile hp

/-- For every balanced expression on one line the declaration of a field and the statement about
the block are both accepted, with the same table, or both refused for the form of the expression.
If the expression lists pairs, they are accepted, and the table has the keys of the pairs as they
first come, each with the text that comes last. -/
theorem addStatement_permissions (env : Setting) (b : Block) (n : Nat) (field expression : Text)
    (hfield : IsRun Text.isWord field) (hbalanced : Balanced expression)
    (hnewline : '\n' ∉ expression) :
    (∀ t ∈ [fieldLine field expression, blockLine expression],
        SourceLine.read t = [⟨1, t⟩] ∧ SourceLine.IsStatement ⟨1, t⟩) ∧
      ((∃ p, Granted env b n field expression p) ∨ Refused env b n field expression) ∧
      ∀ ps, ps ≠ [] → (∀ p ∈ ps, IsRun Text.isWord p.1 ∧ doubleQuote ∉ p.2) →
        expression = rendering ps →
          ∃ p, Granted env b n field expression p ∧
            p.keys = (ps.map fun q => Text.str q.1).eraseDups ∧
            ∀ before k v after, ps = before ++ (k, v) :: after → k ∉ after.map Prod.fst →
              p.get? (Text.str k) = some (Text.str v) := by
  refine ⟨?_, ?_, ?_⟩
  · intro t ht
    simp only [List.mem_cons, List.not_mem_nil, or_false] at ht
    rcases ht with rfl | rfl
    · exact ⟨read_fieldLine hfield hnewline, isStatement_fieldLine 1 hfield expression⟩
    · exact ⟨read_blockLine hnewline, LineKind.of_eq_statement.mp rfl⟩
  · cases hcompile : compile expression with
    | ok p => exact .inl ⟨p, granted_of_compile env b n hfield hbalanced hcompile⟩
    | error f =>
      obtain ⟨rfl, hblock⟩ := compile_eq_error hcompile
      have honField := (addStatement_fieldLine env b n hfield hbalanced).2 _ hcompile
      have honBlock := (addStatement_blockLine env b n expression).2 _ hblock
      exact .inr ⟨honField ▸ isFormatReport_locate _ _, honBlock ▸ isFormatReport_locate _ _⟩
  · intro ps hfull hpairs hexpression
    obtain ⟨p, hp, hkeys, hvalues⟩ := compile_rendering hfull hpairs
    rw [← hexpression] at hp
    exact ⟨p, granted_of_compile env b n hfield hbalanced hp, hkeys, hvalues⟩

/-- A word comes twice, and the texts look like pairs, tags and calls. -/
def disguisedPairs : List (Text × Text) :=
  [("view".toList, "edit: x, (".toList), ("edit".toList, "a) @can(view: b)".toList),
    ("view".toList, "z".toList)]

theorem addStatement_permissions_disguised :
    Balanced (rendering disguisedPairs) ∧ '\n' ∉ rendering disguisedPairs ∧
      ∃ p, Granted {} { header := ⟨1, []⟩, name := [], shape := .object } 2 "def".toList
          (rendering disguisedPairs) p ∧
        p.keys = ["view", "edit"] ∧ p.get? "view" = some "z" ∧
        p.get? "edit" = some "a) @can(view: b)" := by
  have hbalanced : Balanced (rendering disguisedPairs) := by decide +kernel
  have hnewline : '\n' ∉ rendering disguisedPairs := by decide
  have hpairs : ∀ p ∈ disguisedPairs, IsRun Text.isWord p.1 ∧ doubleQuote ∉ p.2 := by
    decide
  obtain ⟨-, -, hlisted⟩ := addStatement_permissions {}
    { header := ⟨1, []⟩, name := [], shape := .object } 2 "def".toList _ (by decide) hbalanced
    hnewline
  obtain ⟨p, hgranted, hkeys, hvalues⟩ := hlisted disguisedPairs (by decide) hpairs rfl
  have hview := hvalues (disguisedPairs.take 2) "view".toList "z".toList [] rfl (by decide)
  have hedit := hvalues (disguisedPairs.take 1) "edit".toList _ (disguisedPairs.drop 2) rfl
    (by decide)
  exact ⟨hbalanced, hnewline, p, hgranted, hkeys, hview, hedit⟩

end ModelSchema.Permission
