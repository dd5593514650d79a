import ModelSchema.Proofs.Fields
import ModelSchema.Proofs.Outline

namespace ModelSchema

namespace Document

/-- Writes the schema of a block, whoever has its key. -/
def place (b : Block) (schema : Fields Value) (d : Document) : Document :=
  match b.shape with
  | .model => { d with root := schema }
  | _ => d.define b schema

variable {b c : Block} {s t : Fields Value} {d : Document}

theorem register_eq_place (b : Block) (d : Document) : d.register b = d.place b b.openSchema := by
  cases hshape : b.shape <;> simp [register, place, hshape]

theorem place_of_model (h : b.shape = .model) : d.place b s = { d with root := s } := by
  simp [place, h]

theorem place_of_definition (h : b.shape ≠ .model) : d.place b s = d.define b s := by
  cases hshape : b.shape <;> simp_all [place]

theorem publish_of_model (h : b.shape = .model) : d.publish b s = { d with root := s } := by
  simp [publish, h]

theorem publish_of_owner (h : b.shape ≠ .model) (howns : d.owns b = true) :
    d.publish b s = d.define b s := by
  cases hshape : b.shape <;> simp_all [publish]

theorem publish_of_other (h : b.shape ≠ .model) (howns : d.owns b = false) :
    d.publish b s = d := by
  cases hshape : b.shape <;> simp_all [publish]

theorem owns_define_self : (d.define b s).owns b = true := by
  simp [owns, define, Fields.get?_put]

/-- A block loses its key to another one, and keeps it otherwise. -/
theorem owns_define (hne : c.header.number ≠ b.header.number) :
    (d.define c s).owns b = if b.key = c.key then false else d.owns b := by
  by_cases hkey : b.key = c.key
  · simp [owns, define, Fields.get?_put, hkey, hne]
  · simp [owns, define, Fields.get?_put, hkey]

theorem define_define (hkey : b.key = c.key) : (d.define b s).define c t = d.define c t := by
  simp [define, hkey, Fields.put_put]

theorem define_comm (hkey : c.key ≠ b.key) (howns : d.owns b = true) :
    (d.define b s).define c t = (d.define c t).define b s := by
  have hhas : (d.definitions.get? b.key).isSome = true := by
    cases hget : d.definitions.get? b.key with
    | none => simp [owns, hget] at howns
    | some e => rfl
  simp [define, Fields.put_comm hkey _ _ hhas]

theorem publish_place_self : (d.place b s).publish b t = d.place b t := by
  by_cases hmodel : b.shape = .model
  · simp [place_of_model hmodel, publish_of_model hmodel]
  · rw [place_of_definition hmodel, place_of_definition hmodel,
      publish_of_owner hmodel owns_define_self, define_define rfl]

theorem publish_publish : (d.publish b s).publish b t = d.publish b t := by
  by_cases hmodel : b.shape = .model
  · simp [publish_of_model hmodel]
  · cases howns : d.owns b with
    | false => rw [publish_of_other hmodel howns]
    | true =>
      rw [publish_of_owner hmodel howns, publish_of_owner hmodel owns_define_self,
        publish_of_owner hmodel howns, define_define rfl]

/-- Two different blocks, not both models, do not interfere. -/
theorem publish_place (hne : c.header.number ≠ b.header.number) (hc : c.shape ≠ .model) :
    (d.place c s).publish b t = (d.publish b t).place c s := by
  rw [place_of_definition hc, place_of_definition hc]
  by_cases hmodel : b.shape = .model
  · simp [publish_of_model hmodel, define]
  · have hafter := @owns_define b c s d hne
    by_cases hkey : b.key = c.key
    · -- The block `c` takes the key, and `b` has nothing to write to.
      rw [if_pos hkey] at hafter
      rw [publish_of_other hmodel hafter]
      cases howns : d.owns b with
      | false => rw [publish_of_other hmodel howns]
      | true => rw [publish_of_owner hmodel howns, define_define hkey]
    · rw [if_neg hkey] at hafter
      cases howns : d.owns b with
      | false => rw [publish_of_other hmodel (hafter.trans howns), publish_of_other hmodel howns]
      | true =>
        rw [publish_of_owner hmodel (hafter.trans howns), publish_of_owner hmodel howns,
          define_comm (fun h => hkey h.symm) howns]

/-- Only the heading of a block tells where its schema goes. -/
theorem publish_congr (h : b.heading = c.heading) : d.publish b s = d.publish c s := by
  cases b
  cases c
  simp only [Block.heading, Heading.mk.injEq] at h
  obtain ⟨rfl, rfl, rfl⟩ := h
  rfl

theorem place_congr (h : b.heading = c.heading) : d.place b s = d.place c s := by
  cases b
  cases c
  simp only [Block.heading, Heading.mk.injEq] at h
  obtain ⟨rfl, rfl, rfl⟩ := h
  rfl

end Document

/-- The block that the statements of a section make. -/
def Section.frame (env : Setting) (s : Section) : Block := s.heading.block.addAll env s.own

theorem Section.frame_heading (env : Setting) (s : Section) : (s.frame env).heading = s.heading :=
  Block.addAll_heading env s.own s.heading.block

namespace Document

variable {env : Setting} {b : Block} {t : Fields Value} {d : Document}

/-- Writes complete blocks one after the other. -/
def placeAll (env : Setting) (ss : List Section) (d : Document) : Document :=
  ss.foldl (fun d s => d.place (s.frame env) (s.frame env).closedSchema) d

theorem placeAll_cons (s : Section) (ss : List Section) (d : Document) :
    d.placeAll env (s :: ss) =
      (d.place (s.frame env) (s.frame env).closedSchema).placeAll env ss := rfl

theorem placeAll_append (ss ts : List Section) (d : Document) :
    d.placeAll env (ss ++ ts) = (d.placeAll env ss).placeAll env ts := List.foldl_append

theorem publish_placeAll {ss : List Section} (hshape : ∀ s ∈ ss, s.heading.shape ≠ .model)
    (hne : ∀ s ∈ ss, s.heading.line.number ≠ b.header.number) :
    (d.placeAll env ss).publish b t = (d.publish b t).placeAll env ss := by
  induction ss generalizing d with
  | nil => rfl
  | cons s ss ih =>
    have hnumber : (s.frame env).header.number ≠ b.header.number := by
      have h := hne s (by simp)
      rwa [← Section.frame_heading env s] at h
    have hmodel : (s.frame env).shape ≠ .model := by
      have h := hshape s (by simp)
      rwa [← Section.frame_heading env s] at h
    rw [placeAll_cons, placeAll_cons,
      ih (fun s hs => hshape s (by simp [hs])) (fun s hs => hne s (by simp [hs])),
      publish_place hnumber hmodel]

end Document

/-- The numbers of a body's blocks are among the numbers of its lines. -/
theorem Body.section_number_mem {F : Body} {s : Section} (hs : s ∈ F.sections) :
    s.heading.line.number ∈ F.lines.map SourceLine.number := by
  have hline : s.heading.line ∈ F.lines :=
    F.sections_sublist.subset (List.mem_map.mpr ⟨s, hs, rfl⟩)
  exact List.mem_map.mpr ⟨s.heading.line, hline, rfl⟩

namespace Document

variable {env : Setting}

/-- A block closed over its body: the header, the body and the end together write the block and
the blocks inside it. -/
theorem publish_closed {F : Body} (hF : F.WellFormed) (h : Heading)
    (hnodup : (h.line.number :: F.lines.map SourceLine.number).Nodup)
    (hwrite : ∀ d : Document, ∀ s, (F.write env h.block d).publish h.block s =
      (d.placeAll env F.sections).publish h.block s) (d : Document) :
    (F.write env h.block (d.register h.block)).publish (h.block.addAll env F.own)
        (h.block.addAll env F.own).closedSchema =
      d.placeAll env (⟨h, F.own⟩ :: F.sections) := by
  have hheading := Block.addAll_heading env F.own h.block
  have hne : ∀ s ∈ F.sections, s.heading.line.number ≠ h.block.header.number := by
    intro s hs he
    have hnumber : h.line.number = s.heading.line.number := he.symm
    exact (List.nodup_cons.mp hnodup).1 (hnumber ▸ Body.section_number_mem hs)
  rw [publish_congr hheading, hwrite, register_eq_place,
    publish_placeAll (Body.sections_shape hF) hne, publish_place_self, placeAll_cons,
    ← place_congr hheading]
  rfl

end Document

/-- Up to the schema of the block that it fills, a body writes the blocks inside it. -/
theorem Body.publish_write (env : Setting) {F : Body} (hF : F.WellFormed) {b : Block}
    (hnodup : (b.header.number :: F.lines.map SourceLine.number).Nodup) (d : Document)
    (schema : Fields Value) :
    (F.write env b d).publish b schema = (d.placeAll env F.sections).publish b schema := by
  induction F generalizing b d schema with
  | nil => rfl
  | statement line rest ih =>
    let b' := (b.addStatement env line).state
    have hheading : b'.heading = b.heading := Block.addStatement_heading env line b
    have hnumber : b'.header.number = b.header.number :=
      congrArg (fun h : Heading => h.line.number) hheading
    have hrest : (b'.header.number :: rest.lines.map SourceLine.number).Nodup := by
      rw [hnumber]
      exact hnodup.sublist ((List.sublist_cons_self ..).cons_cons _)
    have hne : ∀ s ∈ rest.sections, s.heading.line.number ≠ b'.header.number := by
      intro s hs he
      exact (List.nodup_cons.mp hrest).1 (he ▸ Body.section_number_mem hs)
    have hshape := Body.sections_shape hF.2
    -- What the statement publishes is replaced when the block is published at the end.
    change (rest.write env b' (d.publish b' b'.openSchema)).publish b schema =
      (d.placeAll env rest.sections).publish b schema
    rw [← Document.publish_congr hheading, ← Document.publish_congr hheading, ih hF.2 hrest,
      Document.publish_placeAll hshape hne, Document.publish_placeAll hshape hne,
      Document.publish_publish]
  | block heading inner close rest ihInner ihRest =>
    have hinner : (heading.line.number :: inner.lines.map SourceLine.number).Nodup := by
      have hsub : (heading.line.number :: inner.lines.map SourceLine.number).Sublist
          (heading.line.number :: (inner.lines ++ close :: rest.lines).map SourceLine.number) := by
        rw [List.map_append]
        exact (List.sublist_append_left ..).cons_cons _
      exact (List.nodup_cons.mp hnodup).2.sublist hsub
    have hrest : (b.header.number :: rest.lines.map SourceLine.number).Nodup := by
      have hsub : (rest.lines.map SourceLine.number).Sublist
          ((Body.block heading inner close rest).lines.map SourceLine.number) := by
        simp only [Body.lines, List.map_cons, List.map_append]
        exact ((List.sublist_cons_self ..).trans (List.sublist_append_right ..)).cons _
      exact hnodup.sublist (hsub.cons_cons _)
    have hclosed := Document.publish_closed hF.2.1 heading hinner
      (fun d s => ihInner hF.2.1 hinner d s) d
    change (rest.write env b _).publish b schema = _
    rw [hclosed, ihRest hF.2.2.2 hrest, Body.sections, ← List.cons_append,
      Document.placeAll_append]

/-- A block writes itself and the blocks inside it, complete, in the order of their headers. -/
theorem Tree.write_eq_placeAll {env : Setting} {t : Tree} (ht : t.WellFormed)
    (hnodup : (t.lines.map SourceLine.number).Nodup) (d : Document) :
    t.write env d = d.placeAll env t.sections := by
  have hsub : (t.heading.line.number :: t.body.lines.map SourceLine.number).Sublist
      (t.lines.map SourceLine.number) := by
    simp only [Tree.lines, List.map_cons, List.map_append]
    exact (List.sublist_append_left ..).cons_cons _
  have hblock := hnodup.sublist hsub
  exact Document.publish_closed ht.body t.heading hblock
    (fun d s => Body.publish_write env ht.body hblock d s) d

namespace Forest

variable {env : Setting}

/-- A forest writes its blocks, complete, in the order of their headers. -/
theorem write_eq_placeAll {F : Forest} (hF : F.WellFormed)
    (hnodup : (F.lines.map SourceLine.number).Nodup) (d : Document) :
    F.write env d = d.placeAll env F.sections := by
  induction F generalizing d with
  | nil => rfl
  | cons t F ih =>
    have ht := hF t (by simp)
    have hlines : (Forest.lines (t :: F)).map SourceLine.number =
        t.lines.map SourceLine.number ++ (Forest.lines F).map SourceLine.number := by
      rw [← List.map_append]
      rfl
    rw [hlines] at hnodup
    have hwrite : t.write env d = d.placeAll env t.sections :=
      Tree.write_eq_placeAll ht (hnodup.sublist (List.sublist_append_left ..)) d
    have htail := ih (fun u hu => hF u (by simp [hu]))
      (hnodup.sublist (List.sublist_append_right ..)) (t.write env d)
    change Forest.write env F (t.write env d) = d.placeAll env (t.sections ++ Forest.sections F)
    rw [htail, hwrite, Document.placeAll_append]

end Forest

namespace Machine

variable {env : Setting}

theorem run_forest {F : Forest} (hF : F.WellFormed) (hc : F.Compiles env) (hmodels : F.models ≤ 1)
    (hnodup : (F.lines.map SourceLine.number).Nodup) :
    (run env F.lines {}).failure = none ∧
      (run env F.lines {}).state.document = Document.placeAll env F.sections {} := by
  obtain ⟨modelLine, hfeed, hstate⟩ := reaches_forest hF hc (m := {}) rfl rfl hmodels
  have hstack : (feed env F.lines {}).state.stack = [] := by rw [hstate]
  refine ⟨run_failure_eq_none.mpr ⟨hfeed, hstack⟩, ?_⟩
  rw [run_state hfeed, hstate]
  exact Forest.write_eq_placeAll hF hnodup {}

theorem forest_of_run {lines : List SourceLine} (hok : (run env lines {}).failure = none) :
    ∃ F : Forest, F.lines = lines ∧ F.WellFormed ∧ F.Compiles env ∧ F.models ≤ 1 := by
  obtain ⟨hfeed, hstack⟩ := run_failure_eq_none.mp hok
  exact pending_of_feed rfl hfeed hstack

end Machine

end ModelSchema
