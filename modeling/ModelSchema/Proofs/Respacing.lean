import ModelSchema.Proofs.Blanks
import ModelSchema.Proofs.Ending

namespace ModelSchema

open Text (Respaced SameOpening)
open SourceLine (rise)

theorem SourceLine.IsStatement.rise {line : SourceLine} (h : line.IsStatement) : rise [line] = 0 :=
  rise_of_neither (opens_of_isStatement h) (closes_of_isStatement h)

/-- The line by its number alone. -/
def SourceLine.bare (line : SourceLine) : SourceLine := ⟨line.number, []⟩

def Heading.bare (h : Heading) : Heading := { h with line := h.line.bare }

theorem Heading.bare_of_number (h : Heading) {line' : SourceLine}
    (hnumber : h.line.number = line'.number) :
    h.bare = Heading.bare ⟨line', h.name, h.shape⟩ := by
  rw [Heading.bare, Heading.bare, SourceLine.bare, SourceLine.bare, hnumber]

def Block.bare (b : Block) : Block := { b with header := b.header.bare }

theorem Block.bare_absorb (b : Block) (c : Contribution) :
    (b.absorb c).bare = b.bare.absorb c := rfl

namespace Machine

/-- The state without the texts of headers, which no later line looks at. -/
def bare (m : Machine) : Machine := { m with stack := m.stack.map Block.bare }

theorem bare_enter (h : Heading) (m : Machine) : (m.enter h).bare = m.bare.enter h.bare := rfl

theorem bare_leave (b : Block) (stack : List Block) (m : Machine) :
    (m.leave b stack).bare = m.bare.leave b.bare (stack.map Block.bare) := rfl

theorem bare_hold (b : Block) (stack : List Block) (m : Machine) :
    (m.hold b stack).bare = m.bare.hold b.bare (stack.map Block.bare) := rfl

variable {env : Setting} {line line' : SourceLine} {lines lines' : List SourceLine}
variable {m m' n n' : Machine}

theorem depth_bare (m : Machine) : m.bare.depth = m.depth := by
  simp [depth, bare]

theorem stack_of_bare {b : Block} {stack : List Block} (hm : m.bare = m'.bare)
    (hstack : m.stack = b :: stack) : ∃ b' stack', m'.stack = b' :: stack' ∧ b.bare = b'.bare ∧
      stack.map Block.bare = stack'.map Block.bare := by
  have hmap : m'.stack.map Block.bare = b.bare :: stack.map Block.bare := by
    have hsame := congrArg Machine.stack hm
    change m.stack.map Block.bare = m'.stack.map Block.bare at hsame
    rw [← hsame, hstack, List.map_cons]
  obtain ⟨b', stack', hstack', hb, hrest⟩ := List.map_eq_cons_iff.mp hmap
  exact ⟨b', stack', hstack', hb.symm, hrest.symm⟩

/-- A line with other blanks that starts as before does the same. -/
theorem Moves.respaced (hmove : Moves env line m n) (hpair : line.Paired Respaced line')
    (hopening : SameOpening line.text line'.text) (hm : m.bare = m'.bare) :
    ∃ n', Moves env line' m' n' ∧ n.bare = n'.bare := by
  cases hmove with
  | definition h hline hdef =>
    subst hline
    have hbare := h.bare_of_number hpair.1
    refine ⟨_, .definition ⟨line', h.name, h.shape⟩ rfl (hdef.respaced hpair hopening), ?_⟩
    rw [bare_enter, bare_enter, hm, hbare]
  | model h hline hmodel hdepth hfirst =>
    subst hline
    have hbare := h.bare_of_number hpair.1
    have hdepth' : m'.depth = 0 := by rw [← depth_bare, ← hm, depth_bare, hdepth]
    have hfirst' : m'.modelLine = none := (congrArg modelLine hm).symm.trans hfirst
    refine ⟨_, .model ⟨line', h.name, h.shape⟩ rfl (hmodel.respaced hpair hopening) hdepth' hfirst',
      ?_⟩
    rw [bare_enter, bare_enter, hbare, hpair.1]
    exact congrArg (fun x => enter (Heading.bare ⟨line', h.name, h.shape⟩)
      { x with modelLine := some line'.number }) hm
  | close b stack hstack hclose =>
    obtain ⟨b', stack', hstack', hb, hrest⟩ := stack_of_bare hm hstack
    rw [← hpair.eq_of_isClose hclose]
    refine ⟨_, .close b' stack' hstack' hclose, ?_⟩
    rw [bare_leave, bare_leave, hm, hb, hrest]
  | statement b stack hstack hline hok =>
    obtain ⟨b', stack', hstack', hb, hrest⟩ := stack_of_bare hm hstack
    obtain ⟨hok', hcontribution⟩ := Block.addStatement_respaced hpair hline hok b'
    refine ⟨_, .statement b' stack' hstack' (hline.respaced hpair hopening) hok', ?_⟩
    have hstate : (b.addStatement env line).state.bare =
        (b'.addStatement env line').state.bare := by
      rw [Block.state_addStatement hok, Block.state_addStatement hok', hcontribution,
        Block.bare_absorb, Block.bare_absorb, hb]
    rw [bare_hold, bare_hold, hm, hstate, hrest]

theorem Reaches.respaced (hreaches : Reaches env lines m n)
    (hpairs : List.Forall₂ (SourceLine.Paired Respaced) lines lines')
    (hopenings : List.Forall₂ (SourceLine.Paired SameOpening) lines lines')
    (hm : m.bare = m'.bare) : ∃ n', Reaches env lines' m' n' ∧ n.bare = n'.bare := by
  induction hpairs generalizing m m' with
  | nil =>
    obtain ⟨-, rfl⟩ := hreaches
    exact ⟨m', .nil, hm⟩
  | @cons line line' lines lines' hpair hpairs ih =>
    obtain ⟨hopening, hopenings⟩ := List.forall₂_cons.mp hopenings
    obtain ⟨hok, rfl⟩ := hreaches
    obtain ⟨hstep, hrest⟩ := Outcome.andThen_failure_eq_none.mp hok
    obtain ⟨next, hmove, hnext⟩ := (moves_of_step hstep).respaced hpair hopening.2 hm
    have hafter := (Outcome.andThen_state hstep (feed env lines)).symm
    obtain ⟨n', hn', hbare⟩ := ih ⟨hrest, hafter⟩ hopenings hnext
    exact ⟨n', .cons hmove hn', hbare⟩

theorem Reaches.moves (h : Reaches env lines m n) :
    ∀ line ∈ lines, ∃ before after, Moves env line before after := by
  refine rec_moves
    (P := fun lines _ _ => ∀ line ∈ lines, ∃ before after, Moves env line before after) ?_ ?_ h
  · intro m line hline
    cases hline
  · intro line lines m next m' hmove hrest other hother
    rcases List.mem_cons.mp hother with rfl | hother
    · exact ⟨m, next, hmove⟩
    · exact hrest other hother

theorem Moves.isDefinition (hmove : Moves env line m n) (hstart : "def ".toList <+: line.text) :
    ∃ h : Heading, h.line = line ∧ h.IsDefinition := by
  have hkind := LineKind.of_eq_definition.mpr hstart
  cases hmove with
  | definition h hline hdef => exact ⟨h, hline, hdef⟩
  | model h hline hmodel =>
    subst hline
    cases hkind.symm.trans (LineKind.of_eq_model.mpr hmodel.start)
  | close b stack _ hclose => cases hkind.symm.trans (LineKind.of_eq_close.mpr hclose)
  | statement b stack _ hline => exact absurd hstart hline.notDefinition

theorem Moves.isModel (hmove : Moves env line m n) (hstart : "model ".toList <+: line.text) :
    ∃ h : Heading, h.line = line ∧ h.IsModel := by
  have hkind := LineKind.of_eq_model.mpr hstart
  cases hmove with
  | definition h hline hdef =>
    subst hline
    cases hkind.symm.trans (LineKind.of_eq_definition.mpr hdef.start)
  | model h hline hmodel => exact ⟨h, hline, hmodel⟩
  | close b stack _ hclose => cases hkind.symm.trans (LineKind.of_eq_close.mpr hclose)
  | statement b stack _ hline => exact absurd hstart hline.notModel

/-- No field passes as a header: where a header has a name, it has its colon. -/
theorem Moves.not_header_of_field {name before before' rest rest' : Text}
    (hmove : Moves env line m n) (hbefore' : ∀ c ∈ before', Text.isBlank c = true)
    (hfield : Text.IsField (name ++ (before ++ ':' :: rest)))
    (ht : line.text = name ++ (before' ++ ':' :: rest')) :
    ¬"def ".toList <+: line.text ∧ ¬"model ".toList <+: line.text := by
  have hdefWord : "def ".toList = "def".toList ++ [' '] := by decide
  have hmodelWord : "model ".toList = "model".toList ++ [' '] := by decide
  constructor
  · intro hstart
    obtain ⟨h, hline, hdef⟩ := hmove.isDefinition hstart
    obtain ⟨after, _, hafter, _, hnext, -⟩ :=
      Header.definition?_eq_some.mp (Heading.isDefinition_iff.mp hdef).2.1
    rw [ht, hdefWord] at hstart
    rw [hline, ht] at hafter
    have hnone := Text.nextWord?_of_field hbefore' (List.all_eq_true.mp (by decide))
      (hdefWord ▸ hfield.notDefinition) hstart hafter
    cases hnone.symm.trans hnext
  · intro hstart
    obtain ⟨h, hline, hmodel⟩ := hmove.isModel hstart
    obtain ⟨gap, tail, hafter, hgap, hname, htail⟩ := hmodel.form
    have hnext := Header.nextWord?_eq_some.mpr ⟨gap, rfl, hgap, hname, htail⟩
    rw [ht, hmodelWord] at hstart
    rw [hline, ht] at hafter
    have hnone := Text.nextWord?_of_field hbefore' (List.all_eq_true.mp (by decide))
      (hmodelWord ▸ hfield.notModel) hstart hafter
    cases hnone.symm.trans hnext

theorem Moves.rise_of_definition (hmove : Moves env line m n)
    (hstart : "def ".toList <+: line.text) :
    rise [line] = 1 := by
  obtain ⟨h, rfl, hdef⟩ := hmove.isDefinition hstart
  exact SourceLine.rise_of_opens (SourceLine.opens_of_definition hdef)

theorem Moves.rise_of_model (hmove : Moves env line m n) (hstart : "model ".toList <+: line.text) :
    rise [line] = 1 := by
  obtain ⟨h, rfl, hmodel⟩ := hmove.isModel hstart
  exact SourceLine.rise_of_opens (SourceLine.opens_of_model hmodel)

/-- A line that is passed with other blanks leads at most as deep, and as deep only if it starts as
before. -/
theorem Moves.rise_respaced (hmove : Moves env line m n) (hmove' : Moves env line' m' n')
    (hpair : line.Paired Respaced line') :
    rise [line'] ≤ rise [line] ∧
      (rise [line'] = rise [line] → SameOpening line.text line'.text) := by
  have htext := hpair.2
  obtain ⟨t, ht⟩ : ∃ t, line.text = t := ⟨_, rfl⟩
  obtain ⟨t', ht'⟩ : ∃ t', line'.text = t' := ⟨_, rfl⟩
  rw [ht, ht'] at htext
  cases htext with
  | same =>
    rw [← hpair.eq (ht.trans ht'.symm)]
    exact ⟨Int.le_refl _, fun _ => .refl _⟩
  | definition hspace =>
    have hstart : "def ".toList <+: line.text := ht ▸ Text.starts_definition hspace
    have hmodel : ¬"model ".toList <+: line.text := ht ▸ Text.not_starts rfl
    have hmodel' : ¬"model ".toList <+: line'.text := ht' ▸ Text.not_starts rfl
    have hclose' : ¬['\x7d'] <+: line'.text := ht' ▸ Text.not_starts rfl
    have hrise := hmove.rise_of_definition hstart
    by_cases hstart' : "def ".toList <+: line'.text
    · rw [hrise, hmove'.rise_of_definition hstart']
      exact ⟨Int.le_refl _, fun _ => ⟨iff_of_true hstart hstart', iff_of_false hmodel hmodel'⟩⟩
    · rw [hrise, SourceLine.IsStatement.rise ⟨hstart', hmodel', hclose'⟩]
      exact ⟨by omega, fun h => by omega⟩
  | model hspace =>
    have hstart : "model ".toList <+: line.text := ht ▸ Text.starts_model hspace
    have hdef : ¬"def ".toList <+: line.text := ht ▸ Text.not_starts rfl
    have hdef' : ¬"def ".toList <+: line'.text := ht' ▸ Text.not_starts rfl
    have hclose' : ¬['\x7d'] <+: line'.text := ht' ▸ Text.not_starts rfl
    have hrise := hmove.rise_of_model hstart
    by_cases hstart' : "model ".toList <+: line'.text
    · rw [hrise, hmove'.rise_of_model hstart']
      exact ⟨Int.le_refl _, fun _ => ⟨iff_of_false hdef hdef', iff_of_true hstart hstart'⟩⟩
    · rw [hrise, SourceLine.IsStatement.rise ⟨hdef', hstart', hclose'⟩]
      exact ⟨by omega, fun h => by omega⟩
  | field hname hcolon hend hbefore hbefore' hafter hafter' hfield =>
    obtain ⟨hdef', hmodel'⟩ := hmove'.not_header_of_field hbefore' hfield ht'
    have hclose' : ¬['\x7d'] <+: line'.text := by
      rw [ht']
      exact Text.not_starts_respaced hbefore hbefore' (by decide) (by decide) hfield.notClose
    rw [← ht] at hfield
    rw [SourceLine.IsStatement.rise ⟨hfield.notDefinition, hfield.notModel, hfield.notClose⟩,
      SourceLine.IsStatement.rise ⟨hdef', hmodel', hclose'⟩]
    exact ⟨Int.le_refl _, fun _ => ⟨iff_of_false hfield.notDefinition hdef',
      iff_of_false hfield.notModel hmodel'⟩⟩

/-- Lines that are passed with other blanks lead at most as deep, and as deep only if each starts
as before. -/
theorem rise_respaced (hpairs : List.Forall₂ (SourceLine.Paired Respaced) lines lines')
    (hmoves : ∀ line ∈ lines, ∃ before after, Moves env line before after)
    (hmoves' : ∀ line ∈ lines', ∃ before after, Moves env line before after) :
    rise lines' ≤ rise lines ∧ (rise lines' = rise lines →
      List.Forall₂ (SourceLine.Paired SameOpening) lines lines') := by
  induction hpairs with
  | nil => exact ⟨Int.le_refl _, fun _ => .nil⟩
  | @cons line line' lines lines' hpair hpairs ih =>
    obtain ⟨before, after, hmove⟩ := hmoves line (by simp)
    obtain ⟨before', after', hmove'⟩ := hmoves' line' (by simp)
    obtain ⟨hle, hsame⟩ := hmove.rise_respaced hmove' hpair
    obtain ⟨hles, hsames⟩ := ih (fun l hl => hmoves l (by simp [hl]))
      (fun l hl => hmoves' l (by simp [hl]))
    have hsum := SourceLine.rise_append [line] lines
    have hsum' := SourceLine.rise_append [line'] lines'
    rw [List.singleton_append] at hsum hsum'
    refine ⟨by omega, fun heq => .cons ⟨hpair.1, hsame (by omega)⟩ (hsames (by omega))⟩

end Machine

/-- The documents differ at most in the blanks between the words of their lines. -/
def Respaces (text text' : Text) : Prop :=
  List.Forall₂ (fun raw raw' => Respaced (Text.strip raw) (Text.strip raw'))
    (Text.splitOn '\n' text) (Text.splitOn '\n' text')

/-- Each line starts with the word for a header and a space in both documents or in none. -/
def SameOpenings (text text' : Text) : Prop :=
  List.Forall₂ (fun raw raw' => SameOpening (Text.strip raw) (Text.strip raw'))
    (Text.splitOn '\n' text) (Text.splitOn '\n' text')

instance (text text' : Text) : Decidable (SameOpenings text text') :=
  inferInstanceAs (Decidable (List.Forall₂ _ _ _))

theorem compile_failure_eq_none {env : Setting} {text : Text} :
    (compile env text).failure = none ↔
      ∃ m, Machine.Reaches env (SourceLine.read text) {} m ∧ m.stack = [] := by
  change (Machine.run env (SourceLine.read text) {}).failure = none ↔ _
  rw [Machine.run_failure_eq_none]
  constructor
  · intro h
    exact ⟨_, ⟨h.1, rfl⟩, h.2⟩
  · intro h
    obtain ⟨m, ⟨hok, rfl⟩, hstack⟩ := h
    exact ⟨hok, hstack⟩

theorem compile_state {env : Setting} {text : Text} {m : Machine}
    (h : Machine.Reaches env (SourceLine.read text) {} m) :
    (compile env text).state = m.document.toValue := by
  change (Machine.run env (SourceLine.read text) {}).state.schema = _
  rw [Machine.run_state h.1, h.2]
  rfl

theorem rise_of_reaches {env : Setting} {lines : List SourceLine} {m : Machine}
    (h : Machine.Reaches env lines {} m) (hstack : m.stack = []) : rise lines = 0 := by
  have hdepth := h.depth
  have hbase := h.base
  simp only [Machine.depth, hstack, hbase, List.length_nil] at hdepth
  omega

/-- A document that compiles does so with other blanks exactly if its lines start as before with the
words for headers, and then it has the same schema. -/
theorem compile_respaced_iff (env : Setting) (text text' : Text) (hrespaces : Respaces text text')
    (hok : (compile env text).failure = none) :
    ((compile env text').failure = none ↔ SameOpenings text text') ∧
      (SameOpenings text text' → (compile env text').state = (compile env text).state) := by
  obtain ⟨m, hreaches, hstack⟩ := compile_failure_eq_none.mp hok
  have hpairs : List.Forall₂ (SourceLine.Paired Respaced) (SourceLine.read text)
      (SourceLine.read text') :=
    (SourceLine.forall₂_readFrom Respaced.same hrespaces 1).mpr hrespaces
  have hopenings : List.Forall₂ (SourceLine.Paired SameOpening) (SourceLine.read text)
      (SourceLine.read text') ↔ SameOpenings text text' :=
    SourceLine.forall₂_readFrom SameOpening.refl hrespaces 1
  have hsimulates (hsame : SameOpenings text text') : ∃ m',
      Machine.Reaches env (SourceLine.read text') {} m' ∧ m.bare = m'.bare :=
    hreaches.respaced hpairs (hopenings.mpr hsame) rfl
  refine ⟨⟨?_, ?_⟩, ?_⟩
  · intro hok'
    obtain ⟨m', hreaches', hstack'⟩ := compile_failure_eq_none.mp hok'
    have hrise := rise_of_reaches hreaches hstack
    have hrise' := rise_of_reaches hreaches' hstack'
    obtain ⟨-, hsame⟩ := Machine.rise_respaced hpairs hreaches.moves hreaches'.moves
    exact hopenings.mp (hsame (by omega))
  · intro hsame
    obtain ⟨m', hreaches', hbare⟩ := hsimulates hsame
    have hstacks : m.stack.map Block.bare = m'.stack.map Block.bare := congrArg Machine.stack hbare
    rw [hstack, List.map_nil] at hstacks
    exact compile_failure_eq_none.mpr ⟨m', hreaches', List.map_eq_nil_iff.mp hstacks.symm⟩
  · intro hsame
    obtain ⟨m', hreaches', hbare⟩ := hsimulates hsame
    have hdocument : m.bare.document = m'.bare.document := by rw [hbare]
    change m.document = m'.document at hdocument
    rw [compile_state hreaches, compile_state hreaches', hdocument]

def spacedText : Text :=
  "def A object \x7b\ndef: string @required\n\x7d\nmodel B object \x7b\n\x7d".toList

/-- A tab after each space, and one in front of a colon. -/
def tabbedText : Text :=
  "def \tA \tobject \x7b\ndef\t:string @required\n\x7d\nmodel \tB object \x7b\n\x7d".toList

/-- A tab in place of the space after the word for a header. -/
def turnedText : Text :=
  "def\tA object \x7b\ndef: string @required\n\x7d\nmodel B object \x7b\n\x7d".toList

/-- A space in front of the colon of a field that has the name of a header. -/
def coveredText : Text :=
  "def A object \x7b\ndef : string @required\n\x7d\nmodel B object \x7b\n\x7d".toList

/-- The lines of the document, with other blanks in its headers and its field. -/
def blankLines (gap inner before after modelGap : Text) : List Text :=
  ["def".toList ++ (gap ++ ("A".toList ++ (inner ++ (Shape.object.name ++ " \x7b".toList)))),
    "def".toList ++ (before ++ ':' :: (after ++ "string @required".toList)), "\x7d".toList,
    "model".toList ++ (modelGap ++ ("B".toList ++ " object \x7b".toList)), "\x7d".toList]

theorem respaces_blankLines {text : Text} {gap inner before after modelGap : Text}
    (htext : (Text.splitOn '\n' text).map Text.strip = blankLines gap inner before after modelGap)
    (hgap : Text.IsRun Text.isBlank gap) (hinner : Text.IsRun Text.isBlank inner)
    (hbefore : before.all Text.isBlank = true) (hafter : after.all Text.isBlank = true)
    (hmodelGap : Text.IsRun Text.isBlank modelGap) : Respaces spacedText text := by
  have hspaced : (Text.splitOn '\n' spacedText).map Text.strip =
      blankLines [' '] [' '] [] [' '] [' '] := by decide +kernel
  have hspace : Text.IsRun Text.isBlank [' '] := by decide
  have hends {t : Text} : Text.EndsWord (' ' :: t) := by
    intro c hc
    cases hc
    decide
  have hlast : ∀ c ∈ "def".toList.getLast?, Text.isBlank c = false := by
    intro c hc
    cases hc
    decide
  have hlines : List.Forall₂ Respaced ((Text.splitOn '\n' spacedText).map Text.strip)
      ((Text.splitOn '\n' text).map Text.strip) := by
    rw [hspaced, htext]
    exact .cons (.definition rfl hspace hgap (by decide) hspace hinner (by decide) hends)
      (.cons (.field (by decide) (by decide) hlast (by simp) (List.all_eq_true.mp hbefore) hspace.2
        (List.all_eq_true.mp hafter) ⟨by decide, by decide, by decide, by decide, by decide⟩)
      (.cons (.same _) (.cons (.model rfl hspace hmodelGap (by decide) hends)
        (.cons (.same _) .nil))))
  rw [List.forall₂_map_left_iff, List.forall₂_map_right_iff] at hlines
  exact hlines

/-- Of three documents with other blanks one has the same schema, and the others do not compile. -/
theorem compile_respaced_iff_tabbed :
    Respaces spacedText tabbedText ∧ Respaces spacedText turnedText ∧
      Respaces spacedText coveredText ∧ (compile {} spacedText).failure = none ∧
      (compile {} tabbedText).failure = none ∧
      (compile {} tabbedText).state = (compile {} spacedText).state ∧
      (compile {} turnedText).failure ≠ none ∧ (compile {} coveredText).failure ≠ none := by
  have htabbed : Respaces spacedText tabbedText :=
    @respaces_blankLines _ [' ', '\t'] [' ', '\t'] ['\t'] [] [' ', '\t'] (by decide +kernel)
      (by decide) (by decide) rfl rfl (by decide)
  have hturned : Respaces spacedText turnedText :=
    @respaces_blankLines _ ['\t'] [' '] [] [' '] [' '] (by decide +kernel)
      (by decide) (by decide) rfl rfl (by decide)
  have hcovered : Respaces spacedText coveredText :=
    @respaces_blankLines _ [' '] [' '] [' '] [' '] [' '] (by decide +kernel)
      (by decide) (by decide) rfl rfl (by decide)
  have hok : (compile {} spacedText).failure = none := by decide +kernel
  have hsame : SameOpenings spacedText tabbedText := by decide +kernel
  have hother : ¬SameOpenings spacedText turnedText := by decide +kernel
  have hother' : ¬SameOpenings spacedText coveredText := by decide +kernel
  obtain ⟨hiff, hstate⟩ := compile_respaced_iff {} spacedText tabbedText htabbed hok
  obtain ⟨hiff', -⟩ := compile_respaced_iff {} spacedText turnedText hturned hok
  obtain ⟨hiff'', -⟩ := compile_respaced_iff {} spacedText coveredText hcovered hok
  exact ⟨htabbed, hturned, hcovered, hok, hiff.mpr hsame, hstate hsame,
    fun h => hother (hiff'.mp h), fun h => hother' (hiff''.mp h)⟩

end ModelSchema
