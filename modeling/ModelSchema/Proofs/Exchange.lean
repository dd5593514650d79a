import ModelSchema.Proofs.Contribution
import ModelSchema.Proofs.Layout

namespace ModelSchema

/-- No part is written by both. -/
structure Gathered.Apart (g g' : Gathered) : Prop where
  required : g.required = [] ∨ g'.required = []
  hints : g.hints = [] ∨ g'.hints = []
  rules : g.rules = [] ∨ g'.rules = []
  sort : g.sort = [] ∨ g'.sort = []
  breadcrumb : g.breadcrumb = [] ∨ g'.breadcrumb = []
  collection : g.collection = [] ∨ g'.collection = []
  fieldPermissions : g.fieldPermissions = [] ∨ g'.fieldPermissions = []

structure Contribution.Apart (c c' : Contribution) : Prop where
  properties : c.properties = [] ∨ c'.properties = []
  gathered : c.gathered.Apart c'.gathered

theorem Gathered.append_comm {α : Type} {xs ys zs : List α} (h : ys = [] ∨ zs = []) :
    xs ++ ys ++ zs = xs ++ zs ++ ys := by
  rcases h with rfl | rfl <;> simp

theorem Fields.putAll_putAll_comm {α : Type} {new more : Fields α} (h : new = [] ∨ more = [])
    (old : Fields α) : putAll more (putAll new old) = putAll new (putAll more old) := by
  rcases h with rfl | rfl <;> rfl

theorem Block.absorb_comm {c c' : Contribution} (h : c.Apart c') (b : Block) :
    (b.absorb c).absorb c' = (b.absorb c').absorb c := by
  have hg := h.gathered
  simp only [absorb, Gathered.absorb, Fields.putAll_putAll_comm h.properties,
    Fields.putAll_putAll_comm hg.hints, Fields.putAll_putAll_comm hg.collection,
    Gathered.append_comm hg.required, Gathered.append_comm hg.rules,
    Gathered.append_comm hg.sort, Gathered.append_comm hg.breadcrumb,
    Gathered.append_comm hg.fieldPermissions]

namespace Contribution

theorem Apart.symm {c c' : Contribution} (h : c.Apart c') : c'.Apart c :=
  ⟨h.properties.symm, h.gathered.required.symm, h.gathered.hints.symm, h.gathered.rules.symm,
    h.gathered.sort.symm, h.gathered.breadcrumb.symm, h.gathered.collection.symm,
    h.gathered.fieldPermissions.symm⟩

/-- A declaration and a tag about the block write to different parts. -/
theorem apart_ofField (o : Options) (d : Declaration) (schema : Fields Value) (tags : List Tag)
    (a : Addition) : (ofField o d schema tags).Apart ⟨[], a.gathered⟩ := by
  have hnone {α : Type} {part : Gathered → List α}
      (h : ∀ e : Effect, part (e.gathered (Text.str d.field)) = []) (es : List Effect) :
      (es.map (Effect.gathered (Text.str d.field))).flatMap part = [] := by
    simp [List.flatMap_eq_nil_iff, h]
  refine ⟨.inr rfl, ?_, ?_, ?_, ?_, ?_, ?_, ?_⟩
  · exact .inr (by cases a <;> rfl)
  · exact .inr (by cases a <;> rfl)
  · exact .inl (hnone (fun e => by cases e <;> rfl) _)
  · exact .inl (hnone (fun e => by cases e <;> rfl) _)
  · exact .inl (hnone (fun e => by cases e <;> rfl) _)
  · exact .inl (hnone (fun e => by cases e <;> rfl) _)
  · exact .inr (by cases a <;> rfl)

theorem apart_of_kind {a a' : Addition} (h : a.kind ≠ a'.kind) :
    Apart ⟨[], a.gathered⟩ ⟨[], a'.gathered⟩ := by
  cases a <;> cases a' <;>
    first
    | exact absurd rfl h
    | exact ⟨.inl rfl, by constructor <;> simp [Addition.gathered]⟩

theorem apart_nothing (c : Contribution) : c.Apart {} := by
  refine ⟨.inr rfl, ?_⟩
  constructor <;> exact .inr rfl

end Contribution

namespace SourceLine

/-- The kind of a tag about a block; `none` if it has no meaning there. -/
def blockKind? (line : SourceLine) : Option Kind :=
  (Kind.ofName? (Block.leadingTag line.text)).filter (· ∈ Addition.kinds)

/-- A declaration and a tag about the block, or two such tags of different kinds. -/
def Apart (a b : SourceLine) : Prop :=
  Block.isTag a.text ≠ Block.isTag b.text ∨
    Block.isTag a.text = true ∧ Block.isTag b.text = true ∧ a.blockKind? ≠ b.blockKind?

theorem blockKind?_of_adds {o : Options} {line : SourceLine} {a : Addition}
    (h : Addition.ofStatement? o line.text = some (.ok a)) : line.blockKind? = some a.kind := by
  rw [blockKind?, Addition.kind_of_ofStatement? h]
  cases a <;> rfl

theorem apart_contribution {env : Setting} {a b : SourceLine} (h : a.Apart b) {x y : Block}
    (ha : (x.addStatement env a).failure = none) (hb : (y.addStatement env b).failure = none) :
    (a.contribution env).Apart (b.contribution env) := by
  obtain ⟨c, events, htakes, hc, -⟩ := Block.takes_of_ok ha
  obtain ⟨c', events', htakes', hc', -⟩ := Block.takes_of_ok hb
  rw [hc, hc']
  cases htakes with
  | skipped => exact (Contribution.apart_nothing c').symm
  | field hfield =>
    cases htakes' with
    | skipped => exact Contribution.apart_nothing _
    | tag => exact Contribution.apart_ofField ..
    | field hfield' => simp [Apart, hfield, hfield'] at h
  | tag htag hadds =>
    cases htakes' with
    | skipped => exact Contribution.apart_nothing _
    | field => exact (Contribution.apart_ofField ..).symm
    | tag htag' hadds' =>
      have hkind := h.resolve_left (by simp [htag, htag'])
      rw [blockKind?_of_adds hadds, blockKind?_of_adds hadds'] at hkind
      exact Contribution.apart_of_kind fun he => hkind.2.2 (congrArg some he)

end SourceLine

/-- What a body is made of: a statement, or a whole definition. -/
inductive Item where
  | statement (line : SourceLine)
  | block (t : Tree)

namespace Item

def lines : Item → List SourceLine
  | statement line => [line]
  | block t => t.lines

def WellFormed : Item → Prop
  | statement line => line.IsStatement
  | block t => t.WellFormed ∧ t.heading.IsDefinition

/-- The items write to different places. -/
def Apart : Item → Item → Prop
  | statement a, statement b => a.Apart b
  | statement _, block _ => True
  | block _, statement _ => True
  | block _, block _ => False

end Item

namespace Machine

variable {env : Setting} {m m' : Machine} {b : Block} {stack : List Block}

/-- A body that the machine takes compiles. -/
theorem compiles_of_feed {F : Body} (hF : F.WellFormed) (hstack : m.stack = b :: stack)
    (hok : (feed env F.lines m).failure = none) : F.Compiles env b.heading := by
  induction F generalizing m b stack with
  | nil => trivial
  | statement line rest ih =>
    obtain ⟨hstep, hrest⟩ := Outcome.andThen_failure_eq_none.mp hok
    have hline := (step_of_statement hstack hF.1).symm.trans hstep
    rw [(step_of_moves (.statement b stack hstack hF.1 hline)).2] at hrest
    have hcompiles := ih hF.2 rfl hrest
    rw [Block.addStatement_heading] at hcompiles
    exact ⟨(Block.addStatement_failure env line _ b).trans hline, hcompiles⟩
  | block heading inner close rest ihInner ihRest =>
    obtain ⟨-, hafter⟩ := Outcome.andThen_failure_eq_none.mp hok
    rw [(step_of_moves (.definition heading rfl hF.1)).2, feed_append,
      Outcome.andThen_failure_eq_none] at hafter
    have hinner := ihInner hF.2.1 (m := m.enter heading) rfl hafter.1
    obtain ⟨m', hblock, hkept⟩ := reaches_nested hF hinner m
    rw [Tree.lines_of_body, feed_append, Outcome.andThen_failure_eq_none, hblock.2] at hok
    exact ⟨hinner, ihRest hF.2.2.2 (hkept.trans hstack) hok.2⟩

theorem compiles_of_tree {t : Tree} (ht : t.WellFormed) (hdef : t.heading.IsDefinition)
    (hok : (feed env t.lines m).failure = none) : t.body.Compiles env t.heading := by
  obtain ⟨-, hafter⟩ := Outcome.andThen_failure_eq_none.mp hok
  rw [(step_of_moves (.definition t.heading rfl hdef)).2, feed_append,
    Outcome.andThen_failure_eq_none] at hafter
  exact compiles_of_feed ht.body (m := m.enter t.heading) rfl hafter.1

/-- A block inside others leaves the open ones as they are, and writes what it contains. -/
theorem reaches_tree {t : Tree} (ht : t.WellFormed) (hdef : t.heading.IsDefinition)
    (hc : t.body.Compiles env t.heading) (hnodup : (t.lines.map SourceLine.number).Nodup)
    (m : Machine) :
    Reaches env t.lines m
      { m with pos := m.pos + t.lines.length, document := m.document.placeAll env t.sections } := by
  rw [← Tree.write_eq_placeAll ht hnodup]
  exact reaches_definition ht hdef hc m

theorem reaches_statement {line : SourceLine} (hline : line.IsStatement)
    (hstack : m.stack = b :: stack) (hok : (b.addStatement env line).failure = none) :
    Reaches env [line] m (m.hold (b.absorb (line.contribution env)) stack) := by
  rw [← Block.state_addStatement hok]
  exact Reaches.cons (.statement b stack hstack hline hok) Reaches.nil

theorem stack_of_statement {line : SourceLine} (hline : line.IsStatement)
    (hok : (m.step env line).failure = none) :
    ∃ b stack, m.stack = b :: stack ∧ (b.addStatement env line).failure = none := by
  cases hstack : m.stack with
  | nil =>
    have hkind := LineKind.of_eq_statement.mpr hline
    simp [step, hkind, addStatement, hstack, failAt, Outcome.fail] at hok
  | cons b stack => exact ⟨b, stack, rfl, (step_of_statement hstack hline).symm.trans hok⟩

/-- Of two states of a block only the second is left in the document. -/
theorem hold_absorb (x : Block) (c : Contribution) :
    (m.hold x stack).hold (x.absorb c) stack =
      { m with pos := m.pos + 1 + 1, stack := x.absorb c :: stack
               document := m.document.publish (x.absorb c) (x.absorb c).openSchema } := by
  have hheading : x.heading = (x.absorb c).heading := rfl
  simp only [hold, Document.publish_congr hheading, Document.publish_publish]

theorem exchange_statements {a c : SourceLine} (ha : a.IsStatement) (hc : c.IsStatement)
    (hapart : a.Apart c) (hstack : m.stack = b :: stack)
    (hoka : (b.addStatement env a).failure = none) (hokc : (b.addStatement env c).failure = none) :
    ∃ m', Reaches env ([a] ++ [c]) m m' ∧ Reaches env ([c] ++ [a]) m m' := by
  have hcomm := Block.absorb_comm (SourceLine.apart_contribution hapart hoka hokc) b
  have hpair {a c : SourceLine} (ha : a.IsStatement) (hc : c.IsStatement)
      (hoka : (b.addStatement env a).failure = none)
      (hokc : (b.addStatement env c).failure = none) :
      Reaches env ([a] ++ [c]) m ((m.hold (b.absorb (a.contribution env)) stack).hold
        ((b.absorb (a.contribution env)).absorb (c.contribution env)) stack) :=
    (reaches_statement ha hstack hoka).append
      (reaches_statement hc rfl ((Block.addStatement_failure env c _ b).trans hokc))
  refine ⟨_, hpair ha hc hoka hokc, ?_⟩
  have hback := hpair hc ha hokc hoka
  rw [hold_absorb] at hback ⊢
  rw [hcomm]
  exact hback

theorem exchange_block {line : SourceLine} {t : Tree} (hline : line.IsStatement)
    (ht : t.WellFormed) (hdef : t.heading.IsDefinition) (hstack : m.stack = b :: stack)
    (hok : (b.addStatement env line).failure = none) (hc : t.body.Compiles env t.heading)
    (hnodup : (t.lines.map SourceLine.number).Nodup)
    (hheader : b.header.number ∉ t.lines.map SourceLine.number) :
    ∃ m', Reaches env ([line] ++ t.lines) m m' ∧ Reaches env (t.lines ++ [line]) m m' := by
  have hshape : ∀ s ∈ t.sections, s.heading.shape ≠ .model :=
    List.forall_mem_cons.mpr ⟨hdef.shape, Body.sections_shape ht.body⟩
  have hne : ∀ s ∈ t.sections, s.heading.line.number ≠ b.header.number := by
    intro s hs he
    apply hheader
    rw [← he]
    rcases List.mem_cons.mp hs with rfl | hs
    · exact List.mem_cons_self
    · simp only [Tree.lines, List.map_cons, List.map_append]
      exact List.mem_cons_of_mem _ (List.mem_append_left _ (Body.section_number_mem hs))
  let b' := b.absorb (line.contribution env)
  have hdocument : (m.document.placeAll env t.sections).publish b' b'.openSchema =
      (m.document.publish b' b'.openSchema).placeAll env t.sections :=
    Document.publish_placeAll hshape hne
  have hpos : m.pos + t.lines.length + 1 = m.pos + 1 + t.lines.length := by omega
  have hfirst := (reaches_statement hline hstack hok).append (reaches_tree ht hdef hc hnodup _)
  have hblock := reaches_tree ht hdef hc hnodup m
  have hsecond := hblock.append (@reaches_statement env _ b stack line hline hstack hok)
  refine ⟨_, hfirst, ?_⟩
  simp only [hold] at hsecond ⊢
  rw [hpos, hdocument] at hsecond
  exact hsecond

theorem Reaches.unique {lines : List SourceLine} {m'' : Machine} (h : Reaches env lines m m')
    (h' : Reaches env lines m m'') : m' = m'' := h.2.symm.trans h'.2

/-- Items that write to different places can be taken in either order. -/
theorem exchange {x y : Item} (hx : x.WellFormed) (hy : y.WellFormed) (hapart : x.Apart y)
    (hnodup : ((x.lines ++ y.lines).map SourceLine.number).Nodup)
    (hheaders : ∀ b ∈ m.stack, b.header.number ∉ (x.lines ++ y.lines).map SourceLine.number)
    (h : Reaches env (x.lines ++ y.lines) m m') : Reaches env (y.lines ++ x.lines) m m' := by
  -- Both orders lead to one state, and the first order leads to `m'`.
  suffices hboth : ∃ m'', Reaches env (x.lines ++ y.lines) m m'' ∧
      Reaches env (y.lines ++ x.lines) m m'' by
    obtain ⟨m'', hfirst, hsecond⟩ := hboth
    rw [h.unique hfirst]
    exact hsecond
  obtain ⟨hokx, hoky⟩ : (feed env x.lines m).failure = none ∧
      (feed env y.lines (feed env x.lines m).state).failure = none := by
    have hok := h.1
    rwa [feed_append, Outcome.andThen_failure_eq_none] at hok
  rw [List.map_append] at hnodup
  simp only [List.map_append, List.mem_append, not_or] at hheaders
  have hnodupx := hnodup.sublist (List.sublist_append_left ..)
  have hnodupy := hnodup.sublist (List.sublist_append_right ..)
  cases x with
  | statement a =>
    obtain ⟨b, stack, hstack, hoka⟩ :=
      stack_of_statement hx (Outcome.andThen_failure_eq_none.mp hokx).1
    cases y with
    | statement c =>
      rw [show (feed env (Item.lines (.statement a)) m).state = _ from
        (reaches_statement hx hstack hoka).2] at hoky
      have hstep := (Outcome.andThen_failure_eq_none.mp hoky).1
      rw [step_of_statement rfl hy] at hstep
      exact exchange_statements hx hy hapart hstack hoka
        ((Block.addStatement_failure env c b _).trans hstep)
    | block t =>
      have hheader := (hheaders b (by simp [hstack])).2
      have hc := compiles_of_tree hy.1 hy.2 hoky
      exact exchange_block hx hy.1 hy.2 hstack hoka hc hnodupy hheader
  | block t =>
    cases y with
    | statement c =>
      have hc := compiles_of_tree hx.1 hx.2 hokx
      rw [show (feed env (Item.lines (.block t)) m).state = _ from
        (reaches_tree hx.1 hx.2 hc hnodupx m).2] at hoky
      obtain ⟨b, stack, hstack, hokc⟩ :=
        stack_of_statement hy (Outcome.andThen_failure_eq_none.mp hoky).1
      have hstack : m.stack = b :: stack := hstack
      have hheader := (hheaders b (by simp [hstack])).1
      obtain ⟨m'', hsecond, hfirst⟩ :=
        exchange_block hy hx.1 hx.2 hstack hokc hc hnodupx hheader
      exact ⟨m'', hfirst, hsecond⟩
    | block u => exact hapart.elim

theorem reaches_append {a c : List SourceLine} {m'' : Machine} :
    Reaches env (a ++ c) m m'' ↔ ∃ m', Reaches env a m m' ∧ Reaches env c m' m'' := by
  constructor
  · intro h
    obtain ⟨hok, hstate⟩ := h
    rw [feed_append] at hok hstate
    obtain ⟨hfirst, hsecond⟩ := Outcome.andThen_failure_eq_none.mp hok
    rw [Outcome.andThen_state hfirst] at hstate
    exact ⟨_, ⟨hfirst, rfl⟩, hsecond, hstate⟩
  · rintro ⟨m', hfirst, hsecond⟩
    exact hfirst.append hsecond

/-- The exchange within a whole run. -/
theorem exchange_run {before after : List SourceLine} {x y : Item} (hx : x.WellFormed)
    (hy : y.WellFormed) (hapart : x.Apart y)
    (hnodup : ((before ++ (x.lines ++ y.lines) ++ after).map SourceLine.number).Nodup)
    (hok : (run env (before ++ (x.lines ++ y.lines) ++ after) {}).failure = none) :
    (run env (before ++ (y.lines ++ x.lines) ++ after) {}).failure = none ∧
      (run env (before ++ (y.lines ++ x.lines) ++ after) {}).state =
        (run env (before ++ (x.lines ++ y.lines) ++ after) {}).state := by
  obtain ⟨hfeed, hend⟩ := run_failure_eq_none.mp hok
  obtain ⟨m₂, hfront, hafter⟩ := reaches_append.mp ⟨hfeed, rfl⟩
  obtain ⟨m₁, hbefore, hitems⟩ := reaches_append.mp hfront
  have hfrontNodup : ((before ++ (x.lines ++ y.lines)).map SourceLine.number).Nodup :=
    hnodup.sublist ((List.sublist_append_left ..).map _)
  rw [List.map_append] at hfrontNodup
  obtain ⟨-, hitemsNodup, hdisjoint⟩ := List.nodup_append'.mp hfrontNodup
  have hheaders : ∀ b ∈ m₁.stack,
      b.header.number ∉ (x.lines ++ y.lines).map SourceLine.number := by
    intro b hb
    rw [← hbefore.2] at hb
    exact hdisjoint (List.mem_map_of_mem (header_mem_of_feed hbefore.1 b hb))
  have hitems' := exchange hx hy hapart hitemsNodup hheaders hitems
  have hswapped := (hbefore.append hitems').append hafter
  rw [run_failure_eq_none, run_state hfeed, run_state hswapped.1, hswapped.2]
  exact ⟨⟨hswapped.1, hend⟩, rfl⟩

end Machine

/-- Items of a block that stand next to each other and write to different places can be exchanged:
if the document compiles then so does the other one, to the same schema. -/
theorem compile_exchange (env : Setting) (text text' : Text) (before after : List SourceLine)
    (x y : Item) (hx : x.WellFormed) (hy : y.WellFormed) (hapart : x.Apart y)
    (hread : SourceLine.read text = before ++ (x.lines ++ y.lines) ++ after)
    (hread' : (SourceLine.read text').map SourceLine.text =
      (before ++ (y.lines ++ x.lines) ++ after).map SourceLine.text)
    (hok : (compile env text).failure = none) :
    (compile env text').failure = none ∧
      (compile env text').state = (compile env text).state := by
  have hperm : (before ++ (x.lines ++ y.lines) ++ after).Perm
      (before ++ (y.lines ++ x.lines) ++ after) :=
    (List.perm_append_comm.append_left before).append_right after
  have hnumbers := hperm.map SourceLine.number
  have hnodup := SourceLine.nodup_numbers text
  have hpos := SourceLine.numbers_pos text
  rw [hread] at hnodup hpos
  change (Machine.run env (SourceLine.read text) {}).failure = none at hok
  rw [hread] at hok
  obtain ⟨hok', hstate⟩ := Machine.exchange_run hx hy hapart hnodup hok
  have hsame := Layout.run_of_same_texts env (SourceLine.numbers_pos text')
    (SourceLine.nodup_numbers text') (fun n hn => hpos n (hnumbers.mem_iff.mpr hn))
    (hnumbers.nodup_iff.mp hnodup) hread'
  refine ⟨hsame.1.mpr hok', hsame.2.trans ?_⟩
  rw [hstate, ← hread]
  rfl

/-- A field, and after it a definition. -/
def fieldFirstText : Text :=
  "def A object \x7b\na: t\ndef B array \x7b\n@can(r: \"x\")\n\x7d\n\x7d".toList

/-- The same with the definition first, and laid out in another way. -/
def blockFirstText : Text :=
  "def A object \x7b\ndef B array \x7b\n@can(r: \"x\")\n\x7d\n\n a: t\n\x7d".toList

/-- The definition inside both. -/
def innerBlock : Tree :=
  ⟨⟨⟨3, "def B array \x7b".toList⟩, "B".toList, .array⟩,
    .statement ⟨4, "@can(r: \"x\")".toList⟩ .nil, ⟨5, "\x7d".toList⟩⟩

theorem innerBlock_wellFormed : innerBlock.WellFormed ∧ innerBlock.heading.IsDefinition := by
  have hdef : innerBlock.heading.IsDefinition :=
    Heading.isDefinition_iff.mpr ⟨by decide +kernel, by decide +kernel, by decide +kernel⟩
  refine ⟨⟨.inl hdef, ⟨LineKind.of_eq_statement.mp (by decide +kernel), trivial⟩, ?_⟩, hdef⟩
  exact LineKind.of_eq_close.mp (by decide +kernel)

theorem compile_exchange_inner :
    (compile {} fieldFirstText).failure = none ∧ (compile {} blockFirstText).failure = none ∧
      (compile {} blockFirstText).state = (compile {} fieldFirstText).state := by
  have hok : (compile {} fieldFirstText).failure = none := by decide +kernel
  exact ⟨hok, compile_exchange {} fieldFirstText blockFirstText
    [⟨1, "def A object \x7b".toList⟩] [⟨6, "\x7d".toList⟩] (.statement ⟨2, "a: t".toList⟩)
    (.block innerBlock) (LineKind.of_eq_statement.mp (by decide +kernel)) innerBlock_wellFormed
    trivial (by decide +kernel) (by decide +kernel) hok⟩

end ModelSchema
