import ModelSchema.Proofs.Division
import ModelSchema.Proofs.Rule

namespace ModelSchema

/-- The tag `n` columns further on. -/
def Tag.shift (n : Int) (t : Tag) : Tag := { t with column := t.column + n }

def Unterminated.shift (n : Int) (u : Unterminated) : Unterminated :=
  { u with column := u.column + n }

/-- The mode `n` columns further on. -/
def ScanMode.shift (n : Int) : ScanMode → ScanMode
  | .gap => .gap
  | .name start read => .name (start + n) read
  | .argument start word depth read => .argument (start + n) word depth read

namespace Scanner

/-- The scanner `n` columns further on, after other tags have been found. -/
def behind (n : Int) (before : List Tag) (s : Scanner) : Scanner :=
  ⟨s.column + n, s.mode.shift n, s.found.map (Tag.shift n) ++ before⟩

theorem gapStep_behind (n column : Int) (before found : List Tag) (c : Char) :
    gapStep (column + n) (found.map (Tag.shift n) ++ before) c =
      (gapStep column found c).behind n before := by
  have hnext : column + n + 1 = column + 1 + n := by omega
  by_cases hc : c = '@'
  · simp [gapStep, behind, ScanMode.shift, hc, hnext]
  · simp [gapStep, behind, ScanMode.shift, hc, hnext]

/-- A character is read in the same way wherever it stands. -/
theorem step_behind (n : Int) (before : List Tag) (s : Scanner) (c : Char) :
    (s.behind n before).step c = (s.step c).behind n before := by
  obtain ⟨column, mode, found⟩ := s
  have hnext : column + n + 1 = column + 1 + n := by omega
  cases mode with
  | gap => exact gapStep_behind n column before found c
  | name start read =>
    have hgap := gapStep_behind n column before (⟨read.reverse, none, start⟩ :: found) c
    simp only [step, behind, ScanMode.shift]
    split
    · simp [hnext]
    · split
      · simp [hnext]
      · exact hgap
  | argument start name depth read =>
    simp only [step, behind, ScanMode.shift]
    split
    · simp [hnext]
    · split
      · cases depth with
        | zero => simp [Tag.shift, hnext]
        | succ d => simp [hnext]
      · simp [hnext]

theorem foldl_behind (n : Int) (before : List Tag) (t : Text) (s : Scanner) :
    t.foldl step (s.behind n before) = (t.foldl step s).behind n before := by
  induction t generalizing s with
  | nil => rfl
  | cons c t ih => rw [List.foldl_cons, List.foldl_cons, step_behind, ih]

theorem finish_behind (n : Int) (before : List Tag) (s : Scanner) :
    (s.behind n before).finish =
      (s.finish.map fun tags => before.reverse ++ tags.map (Tag.shift n)).mapError
        (Unterminated.shift n) := by
  obtain ⟨column, mode, found⟩ := s
  cases mode with
  | gap => simp [finish, behind, ScanMode.shift, Except.map, Except.mapError]
  | name start read =>
    simp [finish, behind, ScanMode.shift, Tag.shift, Except.map, Except.mapError]
  | argument start name depth read => rfl

/-- A seam ends the tag before it, if that has no argument, and begins none. -/
theorem step_seam {s : Scanner} {tags : List Tag} {c : Char} (h : s.finish = .ok tags)
    (hword : Text.isWord c = false) (hopen : c ≠ '(') (hat : c ≠ '@') :
    s.step c = ⟨s.column + 1, .gap, tags.reverse⟩ := by
  obtain ⟨column, mode, found⟩ := s
  cases mode with
  | gap =>
    obtain rfl : found.reverse = tags := Except.ok.inj h
    simp [step, gapStep, hat]
  | name start read =>
    obtain rfl : (⟨read.reverse, none, start⟩ :: found).reverse = tags := Except.ok.inj h
    simp [step, gapStep, hword, hopen, hat]
  | argument start name depth read => cases h

end Scanner

namespace Tag

/-- Behind a seam the tags are those of the rest, and it fails as the rest does. -/
theorem scan_seam {offset : Int} {a : Text} {tags : List Tag} {c : Char}
    (h : scan offset a = .ok tags) (hword : Text.isWord c = false) (hopen : c ≠ '(')
    (hat : c ≠ '@') (b : Text) :
    scan offset (a ++ c :: b) =
      ((scan offset b).map fun more => tags ++ more.map (shift (a.length + 1))).mapError
        (Unterminated.shift (a.length + 1)) := by
  have hcolumn := (Scanner.reads_after offset a).1
  have hseam : (Scanner.after offset a).step c = _ := Scanner.step_seam h hword hopen hat
  have hbehind : (Scanner.after offset a).step c =
      (Scanner.init offset).behind (a.length + 1) tags.reverse := by
    have hnext : offset + a.length + 1 + 1 = offset + 1 + (a.length + 1) := by omega
    rw [hseam, hcolumn, hnext]
    rfl
  have hafter : (a ++ c :: b).foldl Scanner.step (.init offset) =
      b.foldl Scanner.step ((Scanner.after offset a).step c) := by
    rw [List.foldl_append, List.foldl_cons, Scanner.after]
  rw [scan, hafter, hbehind, Scanner.foldl_behind, Scanner.finish_behind, List.reverse_reverse]
  rfl

variable {source : String} {line offset : Int} {a b : Text} {tags : List Tag} {c : Char}

theorem scanAt_seam (h : scanAt source line offset a = .ok tags) (hword : Text.isWord c = false)
    (hopen : c ≠ '(') (hat : c ≠ '@') (b : Text) (all : List Tag) :
    scanAt source line offset (a ++ c :: b) = .ok all ↔
      ∃ more, scanAt source line offset b = .ok more ∧
        tags ++ more.map (shift (a.length + 1)) = all := by
  have hscan := Attempt.mapError_eq_ok.mp h
  rw [scanAt, Attempt.mapError_eq_ok, scan_seam hscan hword hopen hat, Attempt.mapError_eq_ok,
    Attempt.map_eq_ok, scanAt]
  simp only [Attempt.mapError_eq_ok]

/-- What is written of a tag: its name, its argument and its text. -/
def written (t : Tag) : Text × Option Text × Text := (t.name, t.argument, t.raw)

theorem map_written_shift (n : Int) (tags : List Tag) :
    (tags.map (shift n)).map written = tags.map written := by
  rw [List.map_map]
  rfl

end Tag

namespace Rule

/-- The body stands between the first colon of the expression and its last parenthesis. -/
def IsBody (expression body : Text) : Prop :=
  ∃ before after, expression = before ++ ':' :: (body ++ ')' :: after) ∧ ':' ∉ before ∧ ')' ∉ after

/-- The rule is built from these tags: the body is divided in two, and they are the tags of the two
parts. -/
structure BuiltFrom (o : Options) (expression : Text) (rule : Rule) (body : Text)
    (conditions actions : List Tag) : Prop where
  whole : IsBody expression body
  parts : ∃ path conditionText actionText,
    parts expression = .ok (path, conditionText, actionText) ∧
      body = conditionText ++ ',' :: actionText ∧
      Tag.scanPart conditionText = .ok conditions ∧ Tag.scanPart actionText = .ok actions ∧
      buildAntecedent o path expression conditions = .ok rule.antecedent ∧
      buildConsequent expression actions = .ok rule.consequent

/-- The two parts stand with a comma between them, after the first colon of the call. -/
theorem strip_of_parts {expression conditionText actionText : Text} {path : List Text}
    (h : parts expression = .ok (path, conditionText, actionText)) :
    ∃ property, ':' ∉ property ∧ Text.strip expression =
      "@if(".toList ++ (property ++ ':' :: (conditionText ++ ',' :: actionText) ++ [')']) := by
  unfold parts at h
  split at h
  · cases h
  · rename_i body hbody
    split at h
    · cases h
    · rename_i rest hcolon
      split at h
      · rename_i hsplit
        cases h
        obtain ⟨⟨property, rest'⟩, hcut, hpath⟩ := Option.bind_eq_some_iff.mp hcolon
        obtain ⟨_, -, hpair⟩ := Option.map_eq_some_iff.mp hpath
        obtain ⟨-, rfl⟩ := Prod.mk.inj hpair
        obtain ⟨hproperty, hfirst⟩ := Text.cut?_eq_some.mp hcut
        have hjoin := Text.intercalate_splitOutside ',' 0 (some 1) rest'
        have hrest : conditionText ++ ',' :: actionText = rest' := by
          rw [← hjoin, ← Text.splitTopLevel, hsplit, List.intercalate_cons_cons]
          simp
        refine ⟨property, hfirst, ?_⟩
        rw [Text.enclosed?_eq_some hbody, hproperty, hrest]
      · cases h

theorem isBody_of_parts {expression conditionText actionText : Text} {path : List Text}
    (h : parts expression = .ok (path, conditionText, actionText)) :
    IsBody expression (conditionText ++ ',' :: actionText) := by
  obtain ⟨property, hfirst, hstrip⟩ := strip_of_parts h
  obtain ⟨lead, trail, hexpression, hlead, htrail⟩ := Text.trim_eq Text.isBlank expression
  have hcolon : Text.isBlank ':' = false := by decide
  have hclose : Text.isBlank ')' = false := by decide
  have hbefore : ':' ∉ lead := by
    intro hmem
    rw [hlead] at hmem
    rw [Text.takeWhile_all _ _ hmem] at hcolon
    cases hcolon
  have hafter : ')' ∉ trail := by
    intro hmem
    rw [htrail _ hmem] at hclose
    cases hclose
  refine ⟨lead ++ ("@if(".toList ++ property), trail, ?_, ?_, hafter⟩
  · rw [← Text.strip, hstrip] at hexpression
    simpa using hexpression
  · simp [hbefore, hfirst]

theorem builtFrom_of_compile {o : Options} {expression : Text} {rule : Rule}
    (h : compile o expression = .ok rule) :
    ∃ body conditions actions, BuiltFrom o expression rule body conditions actions := by
  rw [compile_eq] at h
  split at h
  · cases h
  · rename_i path conditionText actionText hparts
    obtain ⟨conditions, hconditions, h⟩ := Attempt.bind_eq_ok.mp h
    obtain ⟨actions, hactions, h⟩ := Attempt.bind_eq_ok.mp h
    unfold assemble at h
    split at h
    · cases h
    · split at h
      · cases h
      · obtain ⟨antecedent, hantecedent, h⟩ := Attempt.bind_eq_ok.mp h
        obtain ⟨consequent, hconsequent, h⟩ := Attempt.bind_eq_ok.mp h
        cases h
        exact ⟨_, conditions, actions, isBody_of_parts hparts, path, conditionText, actionText,
          hparts, rfl, hconditions, hactions, hantecedent, hconsequent⟩

/-- The tags of the body are those of its two parts, each as it is written there. -/
theorem BuiltFrom.scan_body {o : Options} {expression body : Text} {rule : Rule}
    {conditions actions : List Tag} (h : BuiltFrom o expression rule body conditions actions) :
    ∃ tags, Tag.scanPart body = .ok tags ∧
      (conditions ++ actions).map Tag.written = tags.map Tag.written := by
  obtain ⟨path, conditionText, actionText, -, hbody, hconditions, hactions, -, -⟩ := h.parts
  have hcomma : Text.isWord ',' = false := by decide
  have hscan := (Tag.scanAt_seam hconditions hcomma (by decide) (by decide) actionText _).mpr
    ⟨actions, hactions, rfl⟩
  rw [hbody]
  refine ⟨_, hscan, ?_⟩
  rw [List.map_append, List.map_append, Tag.map_written_shift]

/-- Tags are found on both sides of a seam as if each side stood alone. So the conditions of a rule
followed by its actions are the tags of its whole body. -/
theorem compile_cuts_no_tag :
    (∀ (source : String) (line offset : Int) (a b : Text) (c : Char) (tags : List Tag),
        Tag.scanAt source line offset a = .ok tags →
        Text.isWord c = false → c ≠ '(' → c ≠ '@' →
        ((∃ all, Tag.scanAt source line offset (a ++ c :: b) = .ok all) ↔
          ∃ more, Tag.scanAt source line offset b = .ok more) ∧
        ∀ more, Tag.scanAt source line offset b = .ok more →
          Tag.scanAt source line offset (a ++ c :: b) =
            .ok (tags ++ more.map (Tag.shift (a.length + 1)))) ∧
      ∀ (o : Options) (expression : Text) (rule : Rule), compile o expression = .ok rule →
        ∃ body conditions actions tags, BuiltFrom o expression rule body conditions actions ∧
          Tag.scanPart body = .ok tags ∧
          (conditions ++ actions).map Tag.written = tags.map Tag.written := by
  constructor
  · intro source line offset a b c tags h hword hopen hat
    have hseam := Tag.scanAt_seam h hword hopen hat b
    refine ⟨⟨?_, ?_⟩, ?_⟩
    · intro hsucceeds
      obtain ⟨all, hall⟩ := hsucceeds
      obtain ⟨more, hmore, -⟩ := (hseam all).mp hall
      exact ⟨more, hmore⟩
    · intro hsucceeds
      obtain ⟨more, hmore⟩ := hsucceeds
      exact ⟨_, (hseam _).mpr ⟨more, hmore, rfl⟩⟩
    · intro more hmore
      exact (hseam _).mpr ⟨more, hmore, rfl⟩
  · intro o expression rule h
    obtain ⟨body, conditions, actions, hbuilt⟩ := builtFrom_of_compile h
    obtain ⟨tags, hscan, hwritten⟩ := hbuilt.scan_body
    exact ⟨body, conditions, actions, tags, hbuilt, hscan, hwritten⟩

/-- Before the comma that divides it, the depth goes below zero and comes back. -/
def strayRule : Text := " @if(a.b: )( @enum(x,y), ) @required(c))".toList

theorem compile_cuts_no_tag_stray :
    (∃ rule, compile {} strayRule = .ok rule ∧
      ∃ body conditions actions tags, BuiltFrom {} strayRule rule body conditions actions ∧
        Tag.scanPart body = .ok tags ∧
        (conditions ++ actions).map Tag.written = tags.map Tag.written) ∧
      Tag.scanAt "a" 3 4 "x @y".toList = .ok [⟨['y'], none, 7⟩] ∧
      Tag.scanAt "a" 3 4 "@z(1)".toList = .ok [⟨['z'], some ['1'], 5⟩] ∧
      Tag.scanAt "a" 3 4 ("x @y".toList ++ ')' :: "@z(1)".toList) =
        .ok ([⟨['y'], none, 7⟩] ++ [⟨['z'], some ['1'], 5⟩].map (Tag.shift 5)) := by
  have hleft : Tag.scanAt "a" 3 4 "x @y".toList = .ok [⟨['y'], none, 7⟩] := by rfl
  have hright : Tag.scanAt "a" 3 4 "@z(1)".toList = .ok [⟨['z'], some ['1'], 5⟩] := by rfl
  have hrule : ∃ rule, compile {} strayRule = .ok rule := ⟨_, rfl⟩
  obtain ⟨hseam, hwhole⟩ := compile_cuts_no_tag
  obtain ⟨rule, hrule⟩ := hrule
  obtain ⟨-, hboth⟩ := hseam "a" 3 4 "x @y".toList "@z(1)".toList ')' _ hleft (by decide)
    (by decide) (by decide)
  exact ⟨⟨rule, hrule, hwhole {} strayRule rule hrule⟩, hleft, hright, hboth _ hright⟩

end Rule

end ModelSchema
