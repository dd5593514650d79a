import ModelSchema.Proofs.Effect
import ModelSchema.Proofs.Ending
import ModelSchema.Proofs.Rule

namespace ModelSchema

namespace Grammar

variable {env : Setting}

theorem Items.append {h : Heading} {a b : List SourceLine} (ha : Items env h a)
    (hb : Items env h b) : Items env h (a ++ b) := by
  induction ha with
  | nil h => exact hb
  | statement hline hok hrest ih => exact .statement hline hok (ih hb)
  | definition hdef hinner hclose hrest ihInner ihRest =>
    rw [List.cons_append, List.append_assoc, List.cons_append]
    exact .definition hdef hinner hclose (ihRest hb)

theorem Doc.append {n k : Nat} {a b : List SourceLine} (ha : Doc env n a) (hb : Doc env k b) :
    Doc env (n + k) (a ++ b) := by
  induction ha with
  | nil =>
    rw [Nat.zero_add]
    exact hb
  | definition hdef hinner hclose hrest ih =>
    rw [List.cons_append, List.append_assoc, List.cons_append]
    exact .definition hdef hinner hclose ih
  | model hmodel hinner hclose hrest ih =>
    rw [List.cons_append, List.append_assoc, List.cons_append, Nat.add_right_comm]
    exact .model hmodel hinner hclose ih

/-- The lines of a document that ends inside the blocks under these headings, the innermost
first. -/
inductive Ongoing (env : Setting) : List Heading → List SourceLine → Prop
  | outside {n : Nat} {lines : List SourceLine} (hdoc : Doc env n lines) : Ongoing env [] lines
  | inside {h : Heading} {hs : List Heading} {lines inner : List SourceLine}
      (hrest : Ongoing env hs lines) (hheading : h.IsDefinition ∨ h.IsModel ∧ hs = [])
      (hinner : Items env h inner) : Ongoing env (h :: hs) (lines ++ h.line :: inner)

namespace Ongoing

variable {h : Heading} {hs : List Heading} {line : SourceLine} {lines : List SourceLine}

theorem enter (ho : Ongoing env hs lines) (hheading : h.IsDefinition ∨ h.IsModel ∧ hs = []) :
    Ongoing env (h :: hs) (lines ++ [h.line]) :=
  .inside ho hheading (.nil h)

theorem statement (ho : Ongoing env (h :: hs) lines) (hline : line.IsStatement)
    (hok : (h.block.addStatement env line).failure = none) :
    Ongoing env (h :: hs) (lines ++ [line]) := by
  cases ho with
  | inside hrest hheading hinner =>
    rw [List.append_assoc, List.cons_append]
    exact .inside hrest hheading (hinner.append (.statement hline hok (.nil h)))

/-- A block that ends becomes an item of the block around it, or a block of the document. -/
theorem close (ho : Ongoing env (h :: hs) lines) (hclose : line.IsClose) :
    Ongoing env hs (lines ++ [line]) := by
  cases ho with
  | inside hrest hheading hinner =>
    rw [List.append_assoc, List.cons_append]
    cases hrest with
    | outside hdoc =>
      rcases hheading with hdef | ⟨hmodel, -⟩
      · exact .outside (hdoc.append (.definition hdef hinner hclose .nil))
      · exact .outside (hdoc.append (.model hmodel hinner hclose .nil))
    | inside hrest hheading' hinner' =>
      rcases hheading with hdef | ⟨-, hnil⟩
      · have hitem := hinner'.append (.definition hdef hinner hclose (.nil _))
        rw [List.append_assoc, List.cons_append]
        exact .inside hrest hheading' hitem
      · cases hnil

/-- After the header of the innermost block come its items, with every block among them closed. -/
theorem innermost (ho : Ongoing env (h :: hs) lines) :
    ∃ before inner, lines = before ++ h.line :: inner ∧ Items env h inner := by
  cases ho with
  | @inside _ _ before inner hrest hheading hinner => exact ⟨before, inner, rfl, hinner⟩

end Ongoing

end Grammar

namespace Machine

open Grammar (Ongoing)

variable {env : Setting} {line : SourceLine} {lines before : List SourceLine} {m m' : Machine}

theorem Moves.ongoing (h : Moves env line m m')
    (ho : Ongoing env (m.stack.map Block.heading) before) :
    Ongoing env (m'.stack.map Block.heading) (before ++ [line]) := by
  cases h with
  | definition h hline hdef =>
    rw [← hline]
    exact ho.enter (.inl hdef)
  | model h hline hmodel hdepth hfirst =>
    have hstack : m.stack = [] := by
      have hlength : m.base + m.stack.length = 0 := hdepth
      exact List.eq_nil_of_length_eq_zero (by omega)
    rw [← hline]
    exact ho.enter (.inr ⟨hmodel, by rw [hstack]; rfl⟩)
  | close b stack hstack hclose =>
    rw [hstack] at ho
    exact ho.close hclose
  | statement b stack hstack hline hok =>
    rw [hstack] at ho
    have hblock : (b.heading.block.addStatement env line).failure = none :=
      (Block.addStatement_failure env line _ b).trans hok
    change Ongoing env ((b.addStatement env line).state.heading :: stack.map Block.heading) _
    rw [Block.addStatement_heading]
    exact ho.statement hline hblock

theorem Reaches.ongoing (h : Reaches env lines m m')
    (ho : Ongoing env (m.stack.map Block.heading) before) :
    Ongoing env (m'.stack.map Block.heading) (before ++ lines) := by
  revert before
  refine rec_moves (P := fun lines m m' => ∀ {before},
    Ongoing env (m.stack.map Block.heading) before →
      Ongoing env (m'.stack.map Block.heading) (before ++ lines)) ?_ ?_ h
  · intro m before ho
    rw [List.append_nil]
    exact ho
  · intro line lines m next m' hmove hrest before ho
    have hnext := hrest (hmove.ongoing ho)
    rwa [List.append_assoc, List.singleton_append] at hnext

end Machine

namespace Failure

/-- A report about a single statement, or no report. -/
def Particular (f : Failure) : Prop := ∀ r, f = .reported r → r.cause.category ≠ .structural

theorem Unplaced.particular {f : Failure} (h : f.Unplaced) : f.Particular := by
  intro r hr
  rcases h with ⟨c, hc, rfl⟩ | ⟨b, rfl⟩
  · cases hr
    exact hc
  · cases hr

theorem particular_located (l : Location) {c : Cause} (hc : (c.category == .structural) = false) :
    (located l c).Particular := by
  intro r hr h
  cases hr
  change c.category = .structural at h
  rw [h] at hc
  cases hc

theorem Particular.of_locate {f : Failure} (h : f.Particular) (l : Location) :
    (f.locate l).Particular := by
  intro r hr
  cases f with
  | broken b => cases hr
  | reported s =>
    cases hr
    exact h s rfl

end Failure

open Attempt

theorem Tag.particular_scanAt (source : String) (line offset : Int) (t : Text) :
    FailsIn Failure.Particular (scanAt source line offset t) := by
  intro f h
  obtain ⟨u, -, rfl⟩ := mapError_eq_error.mp h
  exact Failure.particular_located _ rfl

theorem Rule.particular_compile (o : Options) (expression : Text) :
    FailsIn Failure.Particular (compile o expression) := by
  rw [compile_eq]
  split
  · exact (FailsIn.unplaced (bare_because _ rfl)).mono fun f hf => hf.particular
  · rename_i path conditions actions hparts
    apply (Tag.particular_scanAt _ _ _ conditions).bind
    intro tags
    apply (Tag.particular_scanAt _ _ _ actions).bind
    intro tags'
    exact (unplaced_assemble o path expression tags tags').mono fun f hf => hf.particular

namespace Block

variable {env : Setting} {line : SourceLine} {b : Block} {f : Failure}

theorem particular_prepare (env : Setting) (line : SourceLine) :
    FailsIn Failure.Particular (prepare env line) := by
  unfold prepare
  split
  · rename_i d offset hread
    apply (Tag.particular_scanAt _ _ _ _).bind
    intro tags
    apply ((FieldType.bare_resolve d.field d.rawType tags).unplaced.mono
      fun f hf => hf.particular).bind
    intro p
    exact failsIn_ok _
  · exact failsIn_error (Failure.particular_located _ rfl)

theorem addStatement_particular (h : (b.addStatement env line).failure = some f) :
    f.Particular := by
  simp only [addStatement, Option.map_eq_some_iff] at h
  obtain ⟨g, hg, rfl⟩ := h
  apply Failure.Particular.of_locate
  split at hg
  · unfold addTag at hg
    split at hg
    · cases hg
    · rename_i g' hchange
      cases hg
      rcases tagChange?_eq_error hchange with hrule | hbare
      · exact Rule.particular_compile _ _ _ hrule
      · exact Failure.Unplaced.particular (.inl hbare)
    · cases hg
  · unfold addField at hg
    split at hg
    · rename_i g' hprepare
      cases hg
      exact particular_prepare env line _ hprepare
    · split at hg
      · rename_i s events g' happly
        cases hg
        obtain ⟨before, tag, after, -, -, htag⟩ :=
          FieldState.applyTags_eq_some.mp (congrArg Outcome.failure happly)
        exact (Effect.unplaced_ofTag _ _ tag _ htag).particular
      · cases hg

end Block

namespace Machine

variable {env : Setting} {line : SourceLine} {lines : List SourceLine} {m : Machine}
  {r : Report Cause} {name : Text}

/-- No line by itself is reported as a block without an end. -/
theorem step_ne_unclosed (h : (m.step env line).failure = some (.reported r)) :
    r.cause ≠ .unclosed name := by
  rcases step_reported h with ⟨b, stack, -, -, hstatement⟩ | hother
  · intro hcause
    apply Block.addStatement_particular hstatement r rfl
    rw [hcause]
    rfl
  · exact (hother name).2

/-- A run reports a block without an end exactly if it passes every line and a block is open
then. -/
theorem run_unclosed_iff : ((run env lines m).failure = some (.reported r) ∧
      r.cause = .unclosed name) ↔
    ∃ m' b, Reaches env lines m m' ∧ m'.stack.head? = some b ∧ b.name = name ∧
      r = .about (env.lineStart b.header) (.unclosed name) := by
  constructor
  · rintro ⟨hfail, hcause⟩
    rcases run_failure_eq_some.mp hfail with ⟨before, line, after, -, -, hstep⟩ | ⟨hok, hopen⟩
    · exact absurd hcause (step_ne_unclosed hstep)
    · obtain ⟨b, hb, hr⟩ := Option.map_eq_some_iff.mp hopen
      cases hr
      cases hcause
      exact ⟨_, b, ⟨hok, rfl⟩, hb, rfl, rfl⟩
  · rintro ⟨m', b, ⟨hok, hstate⟩, hb, rfl, rfl⟩
    refine ⟨run_failure_eq_some.mpr (.inr ⟨hok, ?_⟩), rfl⟩
    rw [hstate, unclosed?, hb]
    rfl

/-- Whether a block is open at the end is told by the headers and the ends among the lines. -/
theorem run_unclosed_iff_open :
    (∃ r name, (run env lines {}).failure = some (.reported r) ∧ r.cause = .unclosed name) ↔
      (∃ m, Reaches env lines {} m) ∧ SourceLine.openHeaders lines ≠ [] := by
  have hheaders {m : Machine} (hm : Reaches env lines {} m) :
      m.stack.map Block.header = SourceLine.openHeaders lines := hm.headers
  constructor
  · rintro ⟨r, name, hreport⟩
    obtain ⟨m, b, hm, hb, -⟩ := run_unclosed_iff.mp hreport
    refine ⟨⟨m, hm⟩, ?_⟩
    rw [← hheaders hm]
    intro hnil
    rw [List.map_eq_nil_iff.mp hnil] at hb
    cases hb
  · rintro ⟨⟨m, hm⟩, hopen⟩
    rw [← hheaders hm] at hopen
    cases hstack : m.stack with
    | nil =>
      rw [hstack] at hopen
      exact absurd rfl hopen
    | cons b stack =>
      have hb : m.stack.head? = some b := by rw [hstack]; rfl
      exact ⟨_, b.name, run_unclosed_iff.mpr ⟨m, b, hm, hb, rfl, rfl⟩⟩

end Machine

namespace Session

open SourceLine (openHeaders)

/-- The numbers of lines tell them apart, so that the text of a line is found by its number. -/
theorem lineText?_of_mem {env : Setting} {text : Text} {line : SourceLine}
    (hline : line ∈ SourceLine.read text) :
    (start env text).lineText? line.number = some line.text := by
  obtain ⟨before, after, hlines⟩ := List.append_of_mem hline
  have hordered := SourceLine.read_pairwise text
  rw [hlines] at hordered
  have hfind : (SourceLine.read text).find? (fun l => (l.number : Int) = line.number) =
      some line := by
    rw [List.find?_eq_some_iff_append]
    refine ⟨by simp, before, after, hlines, ?_⟩
    intro l hl
    have hlt := (List.pairwise_append.mp hordered).2.2 l hl line List.mem_cons_self
    have hne : ¬(l.number : Int) = line.number := by omega
    simp [hne]
  change ((SourceLine.read text).find? _).map SourceLine.text = _
  rw [hfind]
  rfl

/-- A fresh session reports a block without an end exactly if every line is passed and the lines
leave a block open. The report is about the innermost open block: after its header come whole items
only. It is at the header, which it shows, and the depth counts the open blocks. -/
theorem start_compile_unclosed_iff (env : Setting) (text : Text) :
    let s := start env text
    ((∃ r name, s.compile.failure = some (.reported r) ∧ r.cause = .unclosed name) ↔
        (∃ m, Machine.Reaches env s.lines {} m) ∧ openHeaders s.lines ≠ []) ∧
      ∀ r name, s.compile.failure = some (.reported r) → r.cause = .unclosed name →
        ∃ h hs before inner, Grammar.Ongoing env (h :: hs) s.lines ∧
          s.lines = before ++ h.line :: inner ∧ Grammar.Items env h inner ∧
          (openHeaders s.lines).head? = some h.line ∧
          r.cause.category = .structural ∧
          r.cause.message =
            "Block '".toList ++ h.name ++ "' is never closed (missing '\x7d')".toList ∧
          r.location = some ⟨env.source, h.line.number, 1, some h.line.text⟩ ∧
          s.lineText? h.line.number = some h.line.text ∧
          s.compile.state.machine.depth = (h :: hs).length ∧
          s.compile.state.machine.depth = (openHeaders s.lines).length := by
  intro s
  have hlines : s.lines = SourceLine.read text := rfl
  refine ⟨Machine.run_unclosed_iff_open, ?_⟩
  intro r name hfail hcause
  obtain ⟨m, b, hm, hb, rfl, rfl⟩ := Machine.run_unclosed_iff.mp ⟨hfail, hcause⟩
  obtain ⟨stack, hstack⟩ := List.head?_eq_some_iff.mp hb
  have hheaders : m.stack.map Block.header = openHeaders s.lines := hm.headers
  have hongoing : Grammar.Ongoing env (b.heading :: stack.map Block.heading) s.lines := by
    have ho := hm.ongoing (.outside .nil)
    rwa [hstack, List.map_cons, List.nil_append] at ho
  obtain ⟨before, inner, hsplit, hinner⟩ := hongoing.innermost
  have hheader : b.header ∈ SourceLine.read text := by
    rw [← hlines, hsplit]
    exact List.mem_append_right before List.mem_cons_self
  have hstate : s.compile.state.machine = m := (Machine.run_state hm.1).trans hm.2
  have hdepth : m.depth = (openHeaders s.lines).length := by
    rw [hm.depth_eq_open rfl]
    exact Nat.zero_add _
  refine ⟨b.heading, stack.map Block.heading, before, inner, hongoing, hsplit, hinner, ?_, rfl,
    rfl, rfl, lineText?_of_mem hheader, ?_, ?_⟩
  · rw [← hheaders, hstack]
    rfl
  · rw [hstate, hdepth, ← hheaders, hstack, List.length_map, List.length_cons,
      List.length_cons, List.length_map]
  · rw [hstate, hdepth]

/-- The model and a definition in it are open; the definition inside that one is closed. -/
def abandonedText : Text :=
  "//\n\nmodel M object \x7b\n def A object \x7b\n  def B array \x7b\n  \x7d\n  y: number".toList

theorem start_compile_unclosed_iff_abandoned :
    let s := start {} abandonedText
    (∃ r name, s.compile.failure = some (.reported r) ∧ r.cause = .unclosed name) ∧
      ∃ h hs before inner, Grammar.Ongoing {} (h :: hs) s.lines ∧
        s.lines = before ++ h.line :: inner ∧ Grammar.Items {} h inner ∧
        h.line = ⟨4, "def A object \x7b".toList⟩ ∧ hs.length = 1 ∧
        s.compile.state.machine.depth = 2 := by
  intro s
  obtain ⟨hiff, hreport⟩ := start_compile_unclosed_iff {} abandonedText
  have hopen : openHeaders s.lines =
      [⟨4, "def A object \x7b".toList⟩, ⟨3, "model M object \x7b".toList⟩] := by decide +kernel
  have hpassed : (Machine.feed {} s.lines {}).failure = none := by decide +kernel
  have hunclosed := hiff.mpr ⟨⟨_, hpassed, rfl⟩, by rw [hopen]; simp⟩
  obtain ⟨r, name, hfail, hcause⟩ := hunclosed
  obtain ⟨h, hs, before, inner, hongoing, hsplit, hinner, hhead, -, -, -, -, hcount, hdepth⟩ :=
    hreport r name hfail hcause
  rw [hopen] at hhead hdepth
  have hline := (Option.some.inj hhead).symm
  refine ⟨⟨r, name, hfail, hcause⟩, h, hs, before, inner, hongoing, hsplit, hinner, hline, ?_,
    hdepth⟩
  have hlength := hcount.symm.trans hdepth
  simpa using hlength

end Session

end ModelSchema
