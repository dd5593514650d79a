import ModelSchema.Proofs.Contribution
import ModelSchema.Proofs.Place

namespace ModelSchema

namespace Event

def isRedefined : Event → Bool
  | .redefined .. => true
  | _ => false

/-- A field of the block with this name is declared once more. -/
def isDeclaredTwice (name : Text) : Event → Bool
  | .declaredTwice _ _ _ block => block == name
  | _ => false

def isSkipped : Event → Bool
  | .skipped .. => true
  | _ => false

/-- The line of the statement that a warning is about. -/
def statement? : Event → Option Nat
  | .declaredTwice _ line _ _ => some line
  | .skipped _ line _ => some line
  | _ => none

theorem statement?_of_isDeclaredTwice {name : Text} (e : Event)
    (h : e.isDeclaredTwice name = true) : e.statement?.isSome = true := by
  cases e <;> simp_all [isDeclaredTwice, statement?]

theorem statement?_of_isSkipped (e : Event) (h : e.isSkipped = true) :
    e.statement?.isSome = true := by
  cases e <;> simp_all [isSkipped, statement?]

end Event

namespace Section

/-- The warning is about a statement of the block. -/
def concernedBy (s : Section) (e : Event) : Bool :=
  s.own.any fun line => e.statement? == some line.number

/-- The warnings about the statements of a block. -/
def warnings (s : Section) (events : List Event) : List Event := events.filter s.concernedBy

theorem concernedBy_iff {s : Section} {e : Event} : s.concernedBy e = true ↔
    ∃ n, e.statement? = some n ∧ n ∈ s.own.map SourceLine.number := by
  simp only [concernedBy, List.any_eq_true, beq_iff_eq, List.mem_map]
  constructor
  · rintro ⟨line, hline, he⟩
    exact ⟨line.number, he, line, hline, rfl⟩
  · rintro ⟨n, he, line, hline, rfl⟩
    exact ⟨line, hline, he⟩

end Section

namespace Gathered

/-- How many rules, orders and labels there are. -/
def listed (g : Gathered) : Nat := g.rules.length + g.sort.length + g.breadcrumb.length

theorem listed_absorb (g new : Gathered) : (g.absorb new).listed = g.listed + new.listed := by
  simp only [listed, absorb, List.length_append]
  omega

theorem listed_concat_effects (field : String) (es : List Effect) :
    (concat (es.map (Effect.gathered field))).listed = 0 := by
  induction es with
  | nil => rfl
  | cons e es ih =>
    have hcons : (concat ((e :: es).map (Effect.gathered field))).listed =
        (e.gathered field).listed + (concat (es.map (Effect.gathered field))).listed := by
      simp only [listed, concat, List.map_cons, List.flatMap_cons, List.length_append]
      omega
    have hnone : (e.gathered field).listed = 0 := by cases e <;> rfl
    rw [hcons, hnone, ih]

end Gathered

theorem Fields.length_keys_put {α : Type} (key : String) (v : α) (fs : Fields α) :
    (fs.put key v).keys.length = fs.keys.length + if fs.has key then 0 else 1 := by
  have hhas : fs.has key = true ↔ key ∈ fs.keys := by
    rw [has, mem_keys_iff, Option.isSome_iff_exists]
  rw [keys_put]
  by_cases h : key ∈ fs.keys
  · simp [h, hhas.mpr h]
  · have hnot : fs.has key = false := by simpa [h] using hhas
    simp [h, hnot]

namespace Block

variable {env : Setting} {line : SourceLine} {b : Block} {lines : List SourceLine}

/-- What is noted while these statements are added. -/
def notes (env : Setting) : List SourceLine → Block → List Event
  | [], _ => []
  | line :: lines, b =>
    (b.addStatement env line).events ++ notes env lines (b.addStatement env line).state

theorem countP_ignored {ignored : List Event}
    (h : ∀ e ∈ ignored, ∃ tag field, e = .ignoredTag tag field) {p : Event → Bool}
    (hp : ∀ tag field, p (.ignoredTag tag field) = false) :
    ignored.countP p = 0 := by
  rw [List.countP_eq_zero]
  intro e he
  obtain ⟨tag, field, rfl⟩ := h e he
  simp [hp]

/-- A declaration gives the block a new property, or a warning. -/
theorem addStatement_fields (hok : (b.addStatement env line).failure = none) :
    (b.addStatement env line).state.properties.keys.length +
        (b.addStatement env line).events.countP (Event.isDeclaredTwice b.name) =
      b.properties.keys.length + if isTag line.text then 0 else 1 := by
  obtain ⟨c, events, htakes, -, hadd⟩ := takes_of_ok hok
  rw [hadd]
  cases htakes with
  | tag htag | skipped htag => simp [Outcome.ok, absorb, Fields.putAll, htag, Event.isDeclaredTwice]
  | @field d schema tags ignored htag hprepare heffects hignored =>
    have hput : ∃ v, (b.absorb (.ofField env.options d schema tags)).properties =
        b.properties.put (Text.str d.field) v := ⟨_, rfl⟩
    obtain ⟨v, hput⟩ := hput
    have hcount := countP_ignored hignored (p := Event.isDeclaredTwice b.name) fun _ _ => rfl
    simp only [Outcome.ok, hput, Fields.length_keys_put, List.countP_append, hcount, htag,
      declaredTwice]
    split <;> simp [Event.isDeclaredTwice]

/-- A tag about a block gives it something more, or a warning, or is about permissions. -/
theorem addStatement_tags (hok : (b.addStatement env line).failure = none) :
    (b.addStatement env line).state.gathered.listed + (if line.IsAbout .can then 1 else 0) +
        (b.addStatement env line).events.countP Event.isSkipped =
      b.gathered.listed + if isTag line.text then 1 else 0 := by
  obtain ⟨c, events, htakes, -, hadd⟩ := takes_of_ok hok
  rw [hadd]
  simp only [Outcome.ok, absorb, Gathered.listed_absorb]
  cases htakes with
  | @field d schema tags ignored htag hprepare heffects hignored =>
    have hcount := countP_ignored hignored (p := Event.isSkipped) fun _ _ => rfl
    have htwice : (b.declaredTwice env line d.field).countP Event.isSkipped = 0 := by
      unfold declaredTwice
      split <;> rfl
    have habout : ¬line.IsAbout .can := by simp [SourceLine.IsAbout, htag]
    simp [List.countP_append, hcount, htwice, habout, htag, Contribution.ofField,
      Gathered.listed_concat_effects]
  | @tag a htag hadds =>
    have hkind := Addition.kind_of_ofStatement? hadds
    cases a <;>
      simp [SourceLine.IsAbout, htag, hkind, Addition.kind, Addition.gathered, Gathered.listed]
  | skipped htag hnone =>
    have habout : ¬line.IsAbout .can :=
      fun h => Addition.kind_of_ofStatement?_eq_none hnone (by simp [Addition.kinds]) h.2
    simp [habout, htag, Event.isSkipped, Gathered.listed]

/-- What is noted about a statement is a tag without an effect, or has the line of the statement. -/
theorem addStatement_statement? (hok : (b.addStatement env line).failure = none) :
    ∀ e ∈ (b.addStatement env line).events,
      (∃ tag field, e = .ignoredTag tag field) ∨ e.statement? = some line.number := by
  obtain ⟨c, events, htakes, -, hadd⟩ := takes_of_ok hok
  rw [hadd]
  intro e he
  cases htakes with
  | tag => cases he
  | skipped =>
    rw [List.mem_singleton.mp he]
    exact .inr rfl
  | @field d schema tags ignored htag hprepare heffects hignored =>
    rcases List.mem_append.mp he with he | he
    · exact .inl (hignored e he)
    · unfold declaredTwice at he
      split at he
      · rw [List.mem_singleton.mp he]
        exact .inr rfl
      · cases he

/-- What statements give a block and what is noted about them add up, if this is so for each. -/
theorem addAll_balance (h : Heading) (size : Block → Nat) (p : Event → Bool)
    (free due : SourceLine → Bool)
    (hstep : ∀ (b : Block) (line : SourceLine), b.heading = h →
      (b.addStatement env line).failure = none →
      size (b.addStatement env line).state + (if free line then 1 else 0) +
        (b.addStatement env line).events.countP p = size b + if due line then 1 else 0)
    (hb : b.heading = h) (hok : ∀ line ∈ lines, (b.addStatement env line).failure = none) :
    size (b.addAll env lines) + lines.countP free + (b.notes env lines).countP p =
      size b + lines.countP due := by
  induction lines generalizing b with
  | nil => rfl
  | cons line lines ih =>
    obtain ⟨hline, hlines⟩ := List.forall_mem_cons.mp hok
    have hrest := ih ((addStatement_heading env line b).trans hb)
      fun l hl => (addStatement_failure env l _ b).trans (hlines l hl)
    have hfirst := hstep b line hb hline
    change size ((b.addStatement env line).state.addAll env lines) + _ + _ = _
    simp only [notes, List.countP_append, List.countP_cons]
    omega

theorem addAll_fields (hok : ∀ line ∈ lines, (b.addStatement env line).failure = none) :
    (b.addAll env lines).properties.keys.length +
        (b.notes env lines).countP (Event.isDeclaredTwice b.name) =
      b.properties.keys.length + lines.countP fun line => !isTag line.text := by
  have hstep (c : Block) (line : SourceLine) (hc : c.heading = b.heading)
      (hline : (c.addStatement env line).failure = none) :
      (c.addStatement env line).state.properties.keys.length + (if false then 1 else 0) +
          (c.addStatement env line).events.countP (Event.isDeclaredTwice b.name) =
        c.properties.keys.length + if !isTag line.text then 1 else 0 := by
    have hname : c.name = b.name := congrArg Heading.name hc
    have hfields := addStatement_fields hline
    rw [hname] at hfields
    cases htag : isTag line.text <;> simpa [htag] using hfields
  have hbalance := addAll_balance b.heading (fun b => b.properties.keys.length)
    (Event.isDeclaredTwice b.name) (fun _ => false) (fun line => !isTag line.text) hstep rfl hok
  simpa using hbalance

theorem addAll_tags (hok : ∀ line ∈ lines, (b.addStatement env line).failure = none) :
    (b.addAll env lines).gathered.listed + lines.countP (fun line => line.IsAbout .can) +
        (b.notes env lines).countP Event.isSkipped =
      b.gathered.listed + lines.countP fun line => isTag line.text := by
  refine addAll_balance b.heading (fun b => b.gathered.listed) Event.isSkipped
    (fun line => line.IsAbout .can) (fun line => isTag line.text) ?_ rfl hok
  intro c line _ hline
  simpa using addStatement_tags hline

theorem notes_statement? (hok : ∀ line ∈ lines, (b.addStatement env line).failure = none) :
    ∀ e ∈ b.notes env lines, ∀ n, e.statement? = some n → n ∈ lines.map SourceLine.number := by
  induction lines generalizing b with
  | nil => simp [notes]
  | cons line lines ih =>
    obtain ⟨hline, hlines⟩ := List.forall_mem_cons.mp hok
    intro e he n hn
    rcases List.mem_append.mp he with he | he
    · rcases addStatement_statement? hline e he with ⟨tag, field, rfl⟩ | hsome
      · cases hn
      · rw [hsome] at hn
        cases hn
        exact List.mem_cons_self
    · have hrest := ih (b := (b.addStatement env line).state)
        fun l hl => (addStatement_failure env l _ b).trans (hlines l hl)
      exact List.mem_cons_of_mem _ (hrest e he n hn)

end Block

namespace Document

variable {d : Document} {b : Block} {schema : Fields Value}

theorem keys_publish (d : Document) (b : Block) (schema : Fields Value) :
    (d.publish b schema).definitions.keys = d.definitions.keys := by
  by_cases hmodel : b.shape = .model
  · rw [publish_of_model hmodel]
  · cases howns : d.owns b with
    | false => rw [publish_of_other hmodel howns]
    | true =>
      have hmem : b.key ∈ d.definitions.keys := by
        rw [Fields.mem_keys_iff]
        cases hget : d.definitions.get? b.key with
        | none => simp [owns, hget] at howns
        | some e => exact ⟨e, rfl⟩
      rw [publish_of_owner hmodel howns, define, Fields.keys_put, if_pos hmem]

end Document

namespace Machine

variable {env : Setting} {line : SourceLine} {lines : List SourceLine} {m m' : Machine}

/-- What is noted when a definition takes a key that another one has. -/
def redefinition (env : Setting) (h : Heading) (m : Machine) : List Event :=
  if m.document.definitions.has h.block.key then [.redefined env.source h.line.number h.name]
  else []

theorem openBlock_events {h : Heading} (hbody : Header.hasBody h.line.text = false)
    (events : List Event) : (m.openBlock env h.block events).events =
      events ++ [.opened h.shape h.name h.line.number (m.depth + 1)] := by
  have hheader : h.block.header = h.line := rfl
  simp only [openBlock, hheader, hbody, Bool.false_eq_true, if_false, Outcome.ok]
  rfl

theorem events_of_definition {h : Heading} (hdef : h.IsDefinition) (m : Machine) :
    (m.step env h.line).events =
      m.redefinition env h ++ [.opened h.shape h.name h.line.number (m.depth + 1)] := by
  obtain ⟨hkind, hread, hbody⟩ := Heading.isDefinition_iff.mp hdef
  simp only [step, hkind, openDefinition, hread]
  exact openBlock_events hbody _

theorem events_of_model {h : Heading} (hmodel : h.IsModel) (hdepth : m.depth = 0)
    (hfirst : m.modelLine = none) :
    (m.step env h.line).events = [.opened h.shape h.name h.line.number (m.depth + 1)] := by
  obtain ⟨hkind, hread, hshape, hbody⟩ := Heading.isModel_iff.mp hmodel
  have hblock : (⟨h.line, h.name, .model, [], {}⟩ : Block) = h.block := by
    rw [Heading.block, hshape]
  simp only [step, hkind, openModel, hdepth, hfirst, hread, hblock, Nat.lt_irrefl, if_false]
  rw [openBlock_events hbody]
  simp [depth] at hdepth ⊢
  omega

theorem events_of_close {b : Block} {stack : List Block} (hstack : m.stack = b :: stack)
    (hclose : line.IsClose) :
    (m.step env line).events = [.closed b.shape b.name line.number] := by
  simp [step, LineKind.of_eq_close.mpr hclose, closeBlock, hstack, Outcome.ok]

theorem events_of_statement {b : Block} {stack : List Block} (hstack : m.stack = b :: stack)
    (hline : line.IsStatement) :
    (m.step env line).events = (b.addStatement env line).events := by
  have hkind := LineKind.of_eq_statement.mpr hline
  cases ho : b.addStatement env line with
  | mk state events failure =>
    cases failure <;> simp [step, hkind, addStatement, hstack, ho, Outcome.ok, Outcome.fail]

/-- A header of a definition gives a new key, or a warning; no other line gives either. -/
theorem Moves.keys (h : Moves env line m m') :
    (m.document.definitions.keys.Nodup → m'.document.definitions.keys.Nodup) ∧
      m'.document.definitions.keys.length + (m.step env line).events.countP Event.isRedefined =
        m.document.definitions.keys.length +
          if LineKind.of line.text = .definition then 1 else 0 := by
  cases h with
  | definition h hline hdef =>
    subst hline
    have hkind := LineKind.of_eq_definition.mpr hdef.start
    have hput : (m.enter h).document.definitions = m.document.definitions.put h.block.key
        ⟨h.line.number, h.block.openSchema⟩ := by
      have hshape : h.block.shape ≠ .model := hdef.shape
      simp only [enter, Document.register_eq_place, Document.place_of_definition hshape]
      rfl
    rw [hput, events_of_definition hdef, Fields.length_keys_put, if_pos hkind]
    refine ⟨fun hnodup => Fields.nodup_keys_put hnodup _ _, ?_⟩
    unfold redefinition
    split <;> rfl
  | model h hline hmodel hdepth hfirst =>
    subst hline
    have hkind := LineKind.of_eq_model.mpr hmodel.start
    have hkeep : (enter h { m with modelLine := some h.line.number }).document.definitions =
        m.document.definitions := by
      have hshape : h.block.shape = .model := hmodel.shape
      simp only [enter, Document.register_eq_place, Document.place_of_model hshape]
    rw [hkeep, events_of_model hmodel hdepth hfirst, hkind]
    exact ⟨id, rfl⟩
  | close b stack hstack hclose =>
    rw [events_of_close hstack hclose, LineKind.of_eq_close.mpr hclose]
    simp only [leave, Document.keys_publish]
    exact ⟨id, rfl⟩
  | statement b stack hstack hline hok =>
    have hnone : (b.addStatement env line).events.countP Event.isRedefined = 0 := by
      rw [List.countP_eq_zero]
      intro e he hredefined
      rcases Block.addStatement_statement? hok e he with ⟨tag, field, rfl⟩ | hsome
      · cases hredefined
      · cases e <;> simp_all [Event.isRedefined, Event.statement?]
    rw [events_of_statement hstack hline, LineKind.of_eq_statement.mpr hline, hnone]
    simp only [hold, Document.keys_publish]
    exact ⟨id, rfl⟩

theorem Moves.statement? (h : Moves env line m m') :
    ∀ e ∈ (m.step env line).events, ∀ n, e.statement? = some n → n = line.number := by
  intro e he n hn
  cases h with
  | definition h hline hdef =>
    subst hline
    rw [events_of_definition hdef, redefinition] at he
    split at he
    · simp only [List.cons_append, List.nil_append, List.mem_cons, List.not_mem_nil,
        or_false] at he
      rcases he with rfl | rfl <;> cases hn
    · rw [List.mem_singleton.mp he] at hn
      cases hn
  | model h hline hmodel hdepth hfirst =>
    subst hline
    rw [events_of_model hmodel hdepth hfirst] at he
    rw [List.mem_singleton.mp he] at hn
    cases hn
  | close b stack hstack hclose =>
    rw [events_of_close hstack hclose] at he
    rw [List.mem_singleton.mp he] at hn
    cases hn
  | statement b stack hstack hline hok =>
    rw [events_of_statement hstack hline] at he
    rcases Block.addStatement_statement? hok e he with ⟨tag, field, rfl⟩ | hsome
    · cases hn
    · rw [hn] at hsome
      exact Option.some.inj hsome

theorem events_cons (hstep : (m.step env line).failure = none) :
    (feed env (line :: lines) m).events =
      (m.step env line).events ++ (feed env lines (m.step env line).state).events := by
  simp [feed, Outcome.andThen_of_ok hstep, Outcome.after]

theorem Reaches.events_append {a b : List SourceLine} (h : Reaches env a m m') :
    (feed env (a ++ b) m).events = (feed env a m).events ++ (feed env b m').events := by
  rw [feed_append, Outcome.andThen_of_ok h.1, h.2]
  rfl

theorem feed_keys (hok : (feed env lines m).failure = none)
    (hnodup : m.document.definitions.keys.Nodup) :
    (feed env lines m).state.document.definitions.keys.Nodup ∧
      (feed env lines m).state.document.definitions.keys.length +
          (feed env lines m).events.countP Event.isRedefined =
        m.document.definitions.keys.length +
          lines.countP fun line => LineKind.of line.text = .definition := by
  induction lines generalizing m with
  | nil => exact ⟨hnodup, rfl⟩
  | cons line lines ih =>
    obtain ⟨hstep, hrest⟩ := Outcome.andThen_failure_eq_none.mp hok
    obtain ⟨hkeep, hcount⟩ := (moves_of_step hstep).keys
    obtain ⟨hnodup', hcount'⟩ := ih hrest (hkeep hnodup)
    have hstate : (feed env (line :: lines) m).state =
        (feed env lines (m.step env line).state).state := Outcome.andThen_state hstep _
    rw [hstate, events_cons hstep, List.countP_append, List.countP_cons]
    refine ⟨hnodup', ?_⟩
    simp only [decide_eq_true_eq]
    omega

theorem feed_statement? (hok : (feed env lines m).failure = none) :
    ∀ e ∈ (feed env lines m).events, ∀ n, e.statement? = some n →
      n ∈ lines.map SourceLine.number := by
  induction lines generalizing m with
  | nil => simp [feed, Outcome.ok]
  | cons line lines ih =>
    obtain ⟨hstep, hrest⟩ := Outcome.andThen_failure_eq_none.mp hok
    intro e he n hn
    rw [events_cons hstep] at he
    rcases List.mem_append.mp he with he | he
    · rw [(moves_of_step hstep).statement? e he n hn]
      exact List.mem_cons_self
    · exact List.mem_cons_of_mem _ (ih hrest e he n hn)

/-- The lines, taken from the state `m`, pass through the block: after some of them it stands on
top, just opened, and its body and its end follow. -/
inductive Passes (env : Setting) (s : Section) (m : Machine) : List SourceLine → Prop
  | intro {before after : List SourceLine} {inner : Body} {close : SourceLine} {m' : Machine}
      {stack : List Block} (hbefore : Reaches env before m m')
      (hstack : m'.stack = s.heading.block :: stack) (hinner : inner.WellFormed)
      (hc : inner.Compiles env s.heading) (hown : inner.own = s.own) (hclose : close.IsClose) :
      Passes env s m (before ++ (inner.lines ++ close :: after))

theorem Passes.prepend {s : Section} {before : List SourceLine} (h : Passes env s m' lines)
    (hbefore : Reaches env before m m') : Passes env s m (before ++ lines) := by
  obtain ⟨hmiddle, hstack, hinner, hc, hown, hclose⟩ := h
  rw [← List.append_assoc]
  exact .intro (hbefore.append hmiddle) hstack hinner hc hown hclose

theorem Passes.append {s : Section} (h : Passes env s m lines) (after : List SourceLine) :
    Passes env s m (lines ++ after) := by
  obtain ⟨hbefore, hstack, hinner, hc, hown, hclose⟩ := h
  simp only [List.append_assoc, List.cons_append]
  exact .intro hbefore hstack hinner hc hown hclose

theorem passes_body {F : Body} (hF : F.WellFormed) {b : Block} {stack : List Block}
    (hstack : m.stack = b :: stack) (hc : F.Compiles env b.heading) :
    ∀ s ∈ F.sections, Passes env s m F.lines := by
  induction F generalizing m b stack with
  | nil => simp [Body.sections]
  | statement line rest ih =>
    intro s hs
    have hok := (Block.addStatement_failure env line b _).trans hc.1
    have hline : Reaches env [line] m (m.hold (b.addStatement env line).state stack) :=
      Reaches.cons (.statement b stack hstack hF.1 hok) Reaches.nil
    exact (ih hF.2 rfl (hc.2.addStatement line) s hs).prepend hline
  | block heading inner close rest ihInner ihRest =>
    intro s hs
    have hheader : Reaches env [heading.line] m (m.enter heading) :=
      Reaches.cons (.definition heading rfl hF.1) Reaches.nil
    simp only [Body.sections, List.mem_cons, List.mem_append] at hs
    rcases hs with rfl | hs | hs
    · have hpasses : Passes env ⟨heading, inner.own⟩ m
          ([heading.line] ++ (inner.lines ++ close :: rest.lines)) :=
        .intro hheader rfl hF.2.1 hc.1 rfl hF.2.2.1
      exact hpasses
    · have hpasses := ihInner hF.2.1 (m := m.enter heading) rfl hc.1 s hs
      exact (hpasses.append (close :: rest.lines)).prepend hheader
    · obtain ⟨m', hblock, hkept⟩ := reaches_nested hF hc.1 m
      rw [Tree.lines_of_body]
      exact (ihRest hF.2.2.2 (hkept.trans hstack) hc.2 s hs).prepend hblock

theorem enter_of_header {t : Tree} (ht : t.WellFormed)
    (hok : (m.step env t.heading.line).failure = none) :
    ∃ m' : Machine, (m.step env t.heading.line).state = m'.enter t.heading := by
  rcases ht.heading with hdef | hmodel
  · exact ⟨m, (step_of_moves (.definition t.heading rfl hdef)).2⟩
  · have hkind := LineKind.of_eq_model.mpr hmodel.start
    have hmove := moves_of_step hok
    generalize (m.step env t.heading.line).state = m' at hmove
    cases hmove with
    | definition h hline hdef =>
      have hother := LineKind.of_eq_definition.mpr hdef.start
      simp [hline, hkind] at hother
    | model h hline hmodel' =>
      rw [hmodel'.ext hmodel hline]
      exact ⟨{ m with modelLine := some t.heading.line.number }, rfl⟩
    | close b stack hstack hclose => simp [LineKind.of_eq_close.mpr hclose] at hkind
    | statement b stack hstack hline => simp [LineKind.of_eq_statement.mpr hline] at hkind

/-- A run that does not fail passes through every block. -/
theorem passes_forest {F : Forest} (hF : F.WellFormed) (hc : F.Compiles env)
    (hok : (feed env F.lines m).failure = none) : ∀ s ∈ F.sections, Passes env s m F.lines := by
  induction F generalizing m with
  | nil => simp [Forest.sections]
  | cons t F ih =>
    intro s hs
    have ht := hF t (by simp)
    have hct := hc t (by simp)
    obtain ⟨hstep, -⟩ := Outcome.andThen_failure_eq_none.mp hok
    obtain ⟨m₁, hstate⟩ := enter_of_header ht hstep
    have hheader : Reaches env [t.heading.line] m (m₁.enter t.heading) :=
      ⟨Outcome.andThen_failure_eq_none.mpr ⟨hstep, rfl⟩,
        (Outcome.andThen_state hstep _).trans hstate⟩
    obtain ⟨m₂, hbody⟩ : ∃ m₂, Reaches env (t.body.lines ++ [t.close]) (m₁.enter t.heading) m₂ :=
      ⟨_, reaches_rest ht hct m₁⟩
    have hlines : Forest.lines (t :: F) = [t.heading.line] ++ (t.body.lines ++ [t.close]) ++
        Forest.lines F := rfl
    have hs' : s ∈ t.sections ∨ s ∈ Forest.sections F := by simpa [Forest.sections] using hs
    rw [hlines]
    rcases hs' with hs | hs
    · refine Passes.append ?_ _
      rcases List.mem_cons.mp hs with rfl | hs
      · exact .intro hheader rfl ht.body hct rfl ht.close
      · exact ((passes_body ht.body rfl hct s hs).append [t.close]).prepend hheader
    · have hwhole := hheader.append hbody
      rw [hlines, feed_append, Outcome.andThen_failure_eq_none, hwhole.2] at hok
      have hrest := ih (fun u hu => hF u (by simp [hu])) (fun u hu => hc u (by simp [hu])) hok.2
      exact (hrest s hs).prepend hwhole

end Machine

/-- The lines of the blocks inside a body, with their headers and ends. -/
def Body.nested : Body → List SourceLine
  | nil => []
  | statement _ rest => rest.nested
  | block heading inner close rest => heading.line :: (inner.lines ++ [close]) ++ rest.nested

theorem Body.own_append_nested (F : Body) : (F.own ++ F.nested).Perm F.lines := by
  induction F with
  | nil => exact .refl _
  | statement line rest ih => exact ih.cons line
  | block heading inner close rest ihInner ihRest =>
    have hswap := List.perm_append_comm_assoc rest.own (heading.line :: (inner.lines ++ [close]))
      rest.nested
    rw [Tree.lines_of_body]
    exact hswap.trans (ihRest.append_left _)

namespace Machine

variable {env : Setting} {lines : List SourceLine} {m : Machine} {s : Section}

/-- A warning about no line of the inner blocks is one that the block itself gives. -/
theorem countP_body {F : Body} (hF : F.WellFormed) {b : Block} {stack : List Block}
    (hstack : m.stack = b :: stack) (hc : F.Compiles env b.heading) {p : Event → Bool}
    (hp : ∀ e, p e = true → ∃ n, e.statement? = some n ∧ n ∉ F.nested.map SourceLine.number) :
    (feed env F.lines m).events.countP p = (b.notes env F.own).countP p := by
  induction F generalizing m b stack with
  | nil => rfl
  | statement line rest ih =>
    have hok := (Block.addStatement_failure env line b _).trans hc.1
    obtain ⟨hstep, hstate⟩ := step_of_moves (.statement b stack hstack hF.1 hok)
    rw [Body.lines, events_cons hstep, hstate, events_of_statement hstack hF.1, List.countP_append,
      ih hF.2 rfl (hc.2.addStatement line) hp, Body.own, Block.notes, List.countP_append]
  | block heading inner close rest ihInner ihRest =>
    obtain ⟨m', hblock, hkept⟩ := reaches_nested hF hc.1 m
    have hinside : (feed env (Tree.lines ⟨heading, inner, close⟩) m).events.countP p = 0 := by
      rw [List.countP_eq_zero]
      intro e he hpe
      obtain ⟨n, hn, hnot⟩ := hp e hpe
      apply hnot
      rw [Body.nested, List.map_append]
      exact List.mem_append_left _ (feed_statement? hblock.1 e he n hn)
    have hp' : ∀ e, p e = true → ∃ n, e.statement? = some n ∧
        n ∉ rest.nested.map SourceLine.number := by
      intro e hpe
      obtain ⟨n, hn, hnot⟩ := hp e hpe
      refine ⟨n, hn, fun hmem => hnot ?_⟩
      rw [Body.nested, List.map_append]
      exact List.mem_append_right _ hmem
    rw [Tree.lines_of_body, hblock.events_append, List.countP_append, hinside, Nat.zero_add,
      ihRest hF.2.2.2 (hkept.trans hstack) hc.2 hp', Body.own]

/-- Lines without the statements of a block give no warnings about it. -/
theorem countP_warnings_of_disjoint (hok : (feed env lines m).failure = none)
    (hdisjoint : (s.own.map SourceLine.number).Disjoint (lines.map SourceLine.number))
    (p : Event → Bool) : (s.warnings (feed env lines m).events).countP p = 0 := by
  rw [List.countP_eq_zero]
  intro e he
  obtain ⟨he, habout⟩ := List.mem_filter.mp he
  obtain ⟨n, hn, hmem⟩ := Section.concernedBy_iff.mp habout
  exact absurd (feed_statement? hok e he n hn) (hdisjoint hmem)

/-- The warnings about the statements of a block are those that the block itself gives. -/
theorem Passes.countP_warnings (h : Passes env s m lines) (hok : (feed env lines m).failure = none)
    (hnodup : (lines.map SourceLine.number).Nodup) {p : Event → Bool}
    (hp : ∀ e, p e = true → e.statement?.isSome = true) :
    (s.warnings (feed env lines m).events).countP p =
      (s.heading.block.notes env s.own).countP p := by
  obtain @⟨before, after, inner, close, m', stack, hbefore, hstack, hinner, hc, hown, hclose⟩ := h
  obtain ⟨m'', hbody⟩ : ∃ m'', Reaches env inner.lines m' m'' :=
    ⟨_, reaches_body hinner hstack hc⟩
  have hafter : (feed env (close :: after) m'').failure = none := by
    have hrest := hbefore.append hbody
    rw [← List.append_assoc, feed_append, Outcome.andThen_failure_eq_none, hrest.2] at hok
    exact hok.2
  -- The numbers of the own statements are found in the body and nowhere else.
  have hperm := (inner.own_append_nested.map SourceLine.number).symm
  simp only [List.map_append, hown] at hperm hnodup
  obtain ⟨-, hrest, hbeforeRest⟩ := List.nodup_append'.mp hnodup
  obtain ⟨hnodupInner, -, hinnerAfter⟩ := List.nodup_append'.mp hrest
  obtain ⟨-, -, hownNested⟩ := List.nodup_append'.mp (hperm.nodup_iff.mp hnodupInner)
  have hmem {n : Nat} (hn : n ∈ s.own.map SourceLine.number) :
      n ∈ inner.lines.map SourceLine.number := hperm.mem_iff.mpr (List.mem_append_left _ hn)
  have hzeroBefore := countP_warnings_of_disjoint (s := s) hbefore.1
    (fun n hn hb => hbeforeRest hb (List.mem_append_left _ (hmem hn))) p
  have hzeroAfter := countP_warnings_of_disjoint (s := s) hafter
    (fun n hn ha => hinnerAfter (hmem hn) ha) p
  have hsplit : s.warnings (feed env (before ++ (inner.lines ++ close :: after)) m).events =
      s.warnings (feed env before m).events ++ (s.warnings (feed env inner.lines m').events ++
        s.warnings (feed env (close :: after) m'').events) := by
    rw [hbefore.events_append, hbody.events_append]
    simp only [Section.warnings, List.filter_append]
  have hbodyCount : (s.warnings (feed env inner.lines m').events).countP p =
      (s.warnings (s.heading.block.notes env s.own)).countP p := by
    rw [Section.warnings, Section.warnings, List.countP_filter, List.countP_filter, ← hown]
    refine countP_body hinner hstack hc fun e he => ?_
    obtain ⟨n, hn, hmem⟩ := Section.concernedBy_iff.mp (Bool.and_eq_true_iff.mp he).2
    exact ⟨n, hn, hownNested hmem⟩
  rw [hsplit, List.countP_append, List.countP_append, hzeroBefore, hzeroAfter, hbodyCount,
    Nat.zero_add, Nat.add_zero, Section.warnings, List.countP_filter]
  refine List.countP_congr fun e he => ?_
  have hcompiles : ∀ line ∈ s.own, (s.heading.block.addStatement env line).failure = none :=
    hown ▸ hc.own
  have hconcerned (hpe : p e = true) : s.concernedBy e = true := by
    obtain ⟨n, hn⟩ := Option.isSome_iff_exists.mp (hp e hpe)
    exact Section.concernedBy_iff.mpr ⟨n, hn, Block.notes_statement? hcompiles e he n hn⟩
  rw [Bool.and_eq_true]
  exact ⟨fun h => h.1, fun h => ⟨h, hconcerned h⟩⟩

/-- The block `s` of a document has become `b` when its end is taken. -/
inductive Completes (env : Setting) (lines : List SourceLine) (s : Section) (b : Block) : Prop
  | intro {before after : List SourceLine} {close : SourceLine} {m : Machine} {stack : List Block}
      (hlines : lines = before ++ close :: after) (hclose : close.IsClose)
      (hbefore : Reaches env before {} m) (hstack : m.stack = b :: stack)
      (hheading : b.heading = s.heading)

theorem Passes.completes (h : Passes env s {} lines) : Completes env lines s (s.frame env) := by
  obtain @⟨before, after, inner, close, m', stack, hbefore, hstack, hinner, hc, hown, hclose⟩ := h
  have hbody := reaches_body hinner hstack hc
  rw [hown] at hbody
  exact .intro (List.append_assoc ..).symm hclose (hbefore.append hbody) rfl (s.frame_heading env)

end Machine

/-- What a block declares is in it at its end, or one of these events warns about it. -/
structure Section.Conserved (s : Section) (b : Block) (events : List Event) : Prop where
  keys : b.properties.keys.Nodup
  fields : s.own.countP (fun line => !Block.isTag line.text) =
    b.properties.keys.length + (s.warnings events).countP (Event.isDeclaredTwice s.heading.name)
  tags : s.own.countP (fun line => Block.isTag line.text) =
    b.gathered.rules.length + b.gathered.sort.length + b.gathered.breadcrumb.length +
      s.own.countP (fun line => line.IsAbout .can) + (s.warnings events).countP Event.isSkipped

theorem Section.conserved {env : Setting} {s : Section} {lines : List SourceLine} {m : Machine}
    (hpasses : Machine.Passes env s m lines) (hok : (Machine.feed env lines m).failure = none)
    (hnodup : (lines.map SourceLine.number).Nodup) (hc : s.Compiles env) :
    s.Conserved (s.frame env) (Machine.feed env lines m).events := by
  constructor
  case keys =>
    rw [properties_frame hc]
    exact Fields.nodup_keys_ofEntries _
  case fields =>
    rw [hpasses.countP_warnings hok hnodup Event.statement?_of_isDeclaredTwice]
    have hfields := Block.addAll_fields hc
    have hnone : s.heading.block.properties.keys.length = 0 := rfl
    rw [hnone, Nat.zero_add] at hfields
    exact hfields.symm
  case tags =>
    rw [hpasses.countP_warnings hok hnodup Event.statement?_of_isSkipped]
    have htags := Block.addAll_tags hc
    have hnone : s.heading.block.gathered.listed = 0 := rfl
    rw [hnone, Nat.zero_add] at htags
    exact htags.symm

/-- Of a document that compiles, every header of a definition gives a key or a warning, and every
statement of a block gives the block something or a warning, also if the block is replaced later. -/
theorem compile_conserves_declarations (env : Setting) (text : Text)
    (hok : (compile env text).failure = none) :
    (∃ defs, (compile env text).state.definitions? = some defs ∧ defs.keys.Nodup ∧
      (SourceLine.read text).countP (fun line => LineKind.of line.text = .definition) =
        defs.keys.length + (compile env text).events.countP Event.isRedefined) ∧
    ∃ F : Forest, F.Outlines text ∧ ∀ s ∈ F.sections, ∃ b,
      Machine.Completes env (SourceLine.read text) s b ∧
      s.Conserved b (compile env text).events ∧
      ∀ p, F.blockAt? p = some s → ∃ node, (compile env text).state.objectAt? p = some node ∧
        ∀ k, k ≠ "$defs" → k ≠ "title" →
          node.get? k = Fields.get? k (b.body b.gathered.entries) := by
  obtain ⟨F, hF, hc, -, hstate⟩ := exists_outlines hok
  have hfeed := (Machine.run_failure_eq_none.mp hok).1
  have hevents : (compile env text).events =
      (Machine.feed env (SourceLine.read text) {}).events := by
    change (Machine.run env (SourceLine.read text) {}).events = _
    rw [Machine.run_eq_feed, Outcome.andThen_of_ok hfeed]
    simp [Outcome.after]
  rw [hevents]
  refine ⟨?_, F, hF, fun s hs => ⟨s.frame env, ?_, ?_, ?_⟩⟩
  · obtain ⟨hnodup, hcount⟩ := Machine.feed_keys hfeed (by simp [Fields.keys])
    have hdocument : (compile env text).state =
        (Machine.feed env (SourceLine.read text) {}).state.document.toValue := by
      rw [← Machine.run_state hfeed]
      rfl
    have hkeys (fs : Fields Definition) :
        Fields.keys (fs.map fun e => (e.1, Value.object e.2.schema)) = fs.keys := by
      simp [Fields.keys]
    refine ⟨_, by rw [hdocument]; rfl, ?_, ?_⟩
    · rw [hkeys]
      exact hnodup
    · rw [hkeys, hcount]
      simp [Fields.keys]
  · rw [← hF.lines] at hfeed ⊢
    exact (Machine.passes_forest hF.wellFormed hc hfeed s hs).completes
  · have hnodup := hF.nodup_numbers
    rw [← hF.lines] at hfeed ⊢
    have hpasses := Machine.passes_forest hF.wellFormed hc hfeed s hs
    exact s.conserved hpasses hfeed hnodup (hc.sections s hs)
  · intro p hp
    obtain ⟨front, hnode, hfront⟩ := Forest.objectAt?_of_blockAt? hp
    refine ⟨_, hstate ▸ hnode, fun k hdefs htitle => ?_⟩
    rw [Fields.get?_append, hfront k hdefs htitle, Option.none_or, s.body_eq_object]

/-- A definition that is replaced inside itself and goes on, with a field that is declared twice and
a tag without a meaning. -/
def replacedWithinText : Text :=
  "def a object \x7b\nx: t\ndef A object \x7b\n\x7d\nx: u\n".toList ++
    "@sort(x)\n@can(r: \"y\")\n@z\n\x7d".toList

theorem compile_conserves_declarations_replaced :
    (compile {} replacedWithinText).failure = none ∧
      (∃ defs, (compile {} replacedWithinText).state.definitions? = some defs ∧ defs.keys.Nodup ∧
        (SourceLine.read replacedWithinText).countP
            (fun line => LineKind.of line.text = .definition) =
          defs.keys.length + (compile {} replacedWithinText).events.countP Event.isRedefined) ∧
      ∃ F : Forest, F.Outlines replacedWithinText ∧ ∀ s ∈ F.sections, ∃ b,
        Machine.Completes {} (SourceLine.read replacedWithinText) s b ∧
        s.Conserved b (compile {} replacedWithinText).events ∧
        ∀ p, F.blockAt? p = some s →
          ∃ node, (compile {} replacedWithinText).state.objectAt? p = some node ∧
            ∀ k, k ≠ "$defs" → k ≠ "title" →
              node.get? k = Fields.get? k (b.body b.gathered.entries) := by
  have hok : (compile {} replacedWithinText).failure = none := by decide +kernel
  exact ⟨hok, compile_conserves_declarations {} replacedWithinText hok⟩

end ModelSchema
