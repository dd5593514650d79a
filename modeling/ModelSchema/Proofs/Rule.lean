import ModelSchema.Proofs.Fields
import ModelSchema.Proofs.Numeral
import ModelSchema.Source.Header

namespace ModelSchema

theorem Kind.mem_names {name : Text} {k : Kind} (h : ofName? name = some k) :
    (Text.str name, k) ∈ names := by
  obtain ⟨before, after, hsplit, -⟩ := List.lookup_eq_some_iff.mp h
  simp [hsplit]

namespace Rule

open Attempt

/-- A rule from its tags. -/
def assemble (o : Options) (path : List Text) (expression : Text) (conditions actions : List Tag) :
    Except Failure Rule :=
  if conditions.isEmpty then .error (.because (.condition .noConditions expression))
  else if actions.isEmpty then .error (.because (.condition .noActions expression))
  else do
    let antecedent ← buildAntecedent o path expression conditions
    let consequent ← buildConsequent expression actions
    return ⟨antecedent, consequent⟩

theorem compile_eq (o : Options) (expression : Text) : compile o expression =
    match parts expression with
    | .error f => .error (.because (.condition f expression))
    | .ok (path, conditionText, actionText) =>
      Tag.scanPart conditionText >>= fun conditions =>
        Tag.scanPart actionText >>= assemble o path expression conditions := by
  unfold compile
  cases parts expression with
  | error f => rfl
  | ok p =>
    change Tag.scanPart p.2.1 >>= _ = Tag.scanPart p.2.1 >>= _
    apply bind_congr (m := Except Failure)
    intro conditions
    apply bind_congr (m := Except Failure)
    intro actions
    cases conditions with
    | nil => rfl
    | cons c cs =>
      cases actions with
      | nil => rfl
      | cons a as => rfl

theorem unplaced_keywordValue (kind? : Option Kind) (argument : Text) :
    FailsIn Failure.Unplaced (keywordValue kind? argument) := by
  unfold keywordValue
  split
  · exact failsIn_ok _
  · exact unplaced_number _

theorem unplaced_addCondition (expression : Text) (keywords : Fields Value) (tag : Tag) :
    FailsIn Failure.Unplaced (addCondition expression keywords tag) := by
  unfold addCondition
  split
  · exact FailsIn.unplaced (bare_because _ rfl)
  · exact (unplaced_keywordValue _ _).map _

theorem unplaced_addAction (expression : Text) (done : Fields Value) (tag : Tag) :
    FailsIn Failure.Unplaced (addAction expression done tag) := by
  unfold addAction
  split
  · exact FailsIn.unplaced (bare_because _ rfl)
  · split
    · exact failsIn_ok _
    · split
      · refine (unplaced_keywordValue _ _).bind fun v => ?_
        unfold setTarget
        split
        · exact failsIn_ok _
        · exact failsIn_ok _
        · exact failsIn_error (.inr ⟨_, rfl⟩)
      · exact failsIn_ok _

theorem unplaced_assemble (o : Options) (path : List Text) (expression : Text)
    (conditions actions : List Tag) :
    FailsIn Failure.Unplaced (assemble o path expression conditions actions) := by
  unfold assemble
  split
  · exact FailsIn.unplaced (bare_because _ rfl)
  · split
    · exact FailsIn.unplaced (bare_because _ rfl)
    · refine FailsIn.bind ?_ fun antecedent => FailsIn.bind ?_ fun consequent => failsIn_ok _
      · exact (failsIn_foldlM (unplaced_addCondition expression) [] conditions).map _
      · exact failsIn_foldlM (unplaced_addAction expression) [] actions

/-- A text that can be taken apart as a rule begins as one. -/
theorem starts_of_parts {expression : Text} {p : List Text × Text × Text}
    (h : parts expression = .ok p) : "@if(".toList <+: Text.strip expression := by
  unfold parts at h
  split at h
  · cases h
  · rename_i body hbody
    exact ⟨_, (Text.enclosed?_eq_some hbody).symm⟩

theorem lineKind_of_starts {t : Text} (h : "@if(".toList <+: t) : LineKind.of t = .statement := by
  obtain ⟨rest, rfl⟩ := h
  rfl

theorem isTag_of_starts {t : Text} (h : "@if(".toList <+: t) : Block.isTag t = true := by
  obtain ⟨rest, rfl⟩ := h
  rfl

theorem kind_of_starts {t : Text} (h : "@if(".toList <+: t) :
    Kind.ofName? (Block.leadingTag t) = some .condition := by
  obtain ⟨rest, rfl⟩ := h
  have hname : Block.leadingTag ("@if(".toList ++ rest) = ['i', 'f'] := by
    change ('i' :: 'f' :: '(' :: rest).takeWhile Text.isWord = _
    have hi : Text.isWord 'i' = true := by decide
    have hf : Text.isWord 'f' = true := by decide
    have hopen : Text.isWord '(' = false := by decide
    simp [hi, hf, hopen]
  rw [hname]
  decide

/-- The value of a keyword is a number that cannot be read. -/
def Unreadable (kind? : Option Kind) (argument : Text) : Prop :=
  kind? ≠ some .enum ∧ LongInteger (Text.strip argument)

theorem keywordValue_of_unreadable {kind? : Option Kind} {argument : Text}
    (h : Unreadable kind? argument) :
    keywordValue kind? argument = .error (.broken .tooManyDigits) := by
  rw [keywordValue, if_neg h.1]
  exact Attempt.number_eq_broken.mpr ⟨rfl, Literal.coerce_eq_error.mpr ⟨rfl, h.2⟩⟩

theorem keywordValue_of_readable {kind? : Option Kind} {argument : Text}
    (h : ¬Unreadable kind? argument) : ∃ v, keywordValue kind? argument = .ok v := by
  unfold keywordValue
  split
  · exact ⟨_, rfl⟩
  · rename_i henum
    cases hcoerce : Literal.coerce none argument with
    | ok v => exact ⟨v, rfl⟩
    | error f =>
      have hlong := (Literal.coerce_eq_error.mp ⟨f, hcoerce⟩).2
      exact absurd ⟨henum, hlong⟩ h

def ConditionBreaks (tag : Tag) : Prop := ∃ a, tag.argument = some a ∧ Unreadable tag.kind? a

def ConditionPasses (tag : Tag) : Prop := ∃ a, tag.argument = some a ∧ ¬Unreadable tag.kind? a

theorem addCondition_eq_broken {expression : Text} {keywords : Fields Value} {tag : Tag}
    {b : Breakdown} : addCondition expression keywords tag = .error (.broken b) ↔
      b = .tooManyDigits ∧ ConditionBreaks tag := by
  unfold addCondition ConditionBreaks
  cases tag.argument with
  | none => simp [Failure.because]
  | some a =>
    rw [Attempt.map_eq_error]
    by_cases hread : Unreadable tag.kind? a
    · rw [keywordValue_of_unreadable hread]
      simp [hread, eq_comm]
    · obtain ⟨v, hv⟩ := keywordValue_of_readable hread
      simp [hv, hread]

theorem addCondition_eq_ok (expression : Text) (keywords : Fields Value) (tag : Tag) :
    (∃ done, addCondition expression keywords tag = .ok done) ↔ ConditionPasses tag := by
  unfold addCondition ConditionPasses
  cases tag.argument with
  | none => simp
  | some a =>
    by_cases hread : Unreadable tag.kind? a
    · simp [keywordValue_of_unreadable hread, hread, Except.map]
    · obtain ⟨v, hv⟩ := keywordValue_of_readable hread
      simp [hv, hread, Except.map]

theorem conditions_eq_ok (expression : Text) (keywords : Fields Value) {tags : List Tag} :
    (∃ done, tags.foldlM (addCondition expression) keywords = .ok done) ↔
      ∀ tag ∈ tags, ConditionPasses tag := by
  induction tags generalizing keywords with
  | nil => simp [pure, Except.pure]
  | cons tag tags ih =>
    rw [List.foldlM_cons, List.forall_mem_cons, ← addCondition_eq_ok expression keywords tag]
    cases hstep : addCondition expression keywords tag with
    | error f => simp [bind, Except.bind]
    | ok done => simp [bind, Except.bind, ih]

/-- The action writes a text in place of all properties. -/
def ReplacesProperties (tag : Tag) : Prop :=
  tag.name = "properties".toList ∧ ∃ a, tag.argument = some a ∧ target? a = none

/-- The action sets a keyword of a property to this value. -/
def SetsKeyword (tag : Tag) (value : Text) : Prop :=
  tag.kind? ≠ some .required ∧ ∃ a target, tag.argument = some a ∧ target? a = some (target, value)

def Replaced (before : List Tag) : Prop := ∃ tag ∈ before, ReplacesProperties tag

/-- After the actions `before`, the action breaks down. -/
def ActionBreaks (before : List Tag) (tag : Tag) (b : Breakdown) : Prop :=
  ∃ value, SetsKeyword tag value ∧
    ((b = .tooManyDigits ∧ Unreadable tag.kind? value) ∨
      (b = .propertiesReplaced ∧ ¬Unreadable tag.kind? value ∧ Replaced before))

def ActionPasses (before : List Tag) (tag : Tag) : Prop :=
  tag.argument ≠ none ∧ ∀ b, ¬ActionBreaks before tag b

theorem SetsKeyword.unique {tag : Tag} {v w : Text} (hv : SetsKeyword tag v)
    (hw : SetsKeyword tag w) : v = w := by
  obtain ⟨-, a, target, ha, hv⟩ := hv
  obtain ⟨-, a', target', ha', hw⟩ := hw
  obtain rfl : a = a' := Option.some.inj (ha.symm.trans ha')
  exact (Prod.mk.inj (Option.some.inj (hv.symm.trans hw))).2

theorem SetsKeyword.not_replaces {tag : Tag} {v : Text} (hv : SetsKeyword tag v) :
    ¬ReplacesProperties tag := by
  obtain ⟨-, a, target, ha, hv⟩ := hv
  rintro ⟨-, a', ha', hnone⟩
  obtain rfl : a = a' := Option.some.inj (ha.symm.trans ha')
  rw [hnone] at hv
  cases hv

/-- Whether an action that sets a keyword breaks down is a matter of its value and of the actions
before it. -/
theorem SetsKeyword.breaks_iff {before : List Tag} {tag : Tag} {v : Text}
    (hv : SetsKeyword tag v) {b : Breakdown} :
    ActionBreaks before tag b ↔ (b = .tooManyDigits ∧ Unreadable tag.kind? v) ∨
      (b = .propertiesReplaced ∧ ¬Unreadable tag.kind? v ∧ Replaced before) := by
  constructor
  · rintro ⟨w, hw, hb⟩
    rwa [hv.unique hw]
  · intro hb
    exact ⟨v, hv, hb⟩

theorem SetsKeyword.passes {before : List Tag} {tag : Tag} {v : Text} (hv : SetsKeyword tag v)
    (hread : ¬Unreadable tag.kind? v) (hbefore : ¬Replaced before) : ActionPasses before tag := by
  obtain ⟨-, a, target, ha, -⟩ := id hv
  refine ⟨by simp [ha], fun b hb => ?_⟩
  rcases hv.breaks_iff.mp hb with ⟨-, hlong⟩ | ⟨-, -, hr⟩
  · exact hread hlong
  · exact hbefore hr

/-- An action that sets no keyword cannot break down. -/
theorem passes_of_not_sets {before : List Tag} {tag : Tag} (ha : tag.argument ≠ none)
    (h : ∀ v, ¬SetsKeyword tag v) : ActionPasses before tag := by
  refine ⟨ha, ?_⟩
  rintro b ⟨v, hv, -⟩
  exact h v hv

/-- What the actions so far say about the properties of the schema that they have written. -/
structure Wrote (before : List Tag) (done : Fields Value) : Prop where
  replaced : Replaced before → ∃ t, done.get? "properties" = some (.text t)
  kept : ¬Replaced before → done.get? "properties" = none ∨
    ∃ targets, done.get? "properties" = some (.object targets)

theorem replaced_snoc {before : List Tag} {tag : Tag} :
    Replaced (before ++ [tag]) ↔ Replaced before ∨ ReplacesProperties tag := by
  simp [Replaced, or_and_right, exists_or]

/-- An action that leaves the properties alone. -/
theorem Wrote.put {before : List Tag} {done : Fields Value} (h : Wrote before done) {tag : Tag}
    (htag : ¬ReplacesProperties tag) {key : String} (hkey : "properties" ≠ key) (v : Value) :
    Wrote (before ++ [tag]) (done.put key v) := by
  have hsame : Replaced (before ++ [tag]) ↔ Replaced before := by
    simp [replaced_snoc, htag]
  refine ⟨fun hr => ?_, fun hr => ?_⟩
  · rw [Fields.get?_put, if_neg hkey]
    exact h.replaced (hsame.mp hr)
  · rw [Fields.get?_put, if_neg hkey]
    exact h.kept fun hr' => hr (hsame.mpr hr')

theorem wrote_targets {before : List Tag} {tag : Tag} (hbefore : ¬Replaced before)
    (htag : ¬ReplacesProperties tag) (done targets : Fields Value) :
    Wrote (before ++ [tag]) (done.put "properties" (.object targets)) := by
  refine ⟨fun hr => ?_, fun _ => .inr ⟨targets, ?_⟩⟩
  · rcases replaced_snoc.mp hr with hr | hr
    · exact absurd hr hbefore
    · exact absurd hr htag
  · rw [Fields.get?_put, if_pos rfl]

/-- The result of an action fits its place after the actions `before`. -/
inductive Fits (before : List Tag) (tag : Tag) : Except Failure (Fields Value) → Prop
  | reported (r : Report Cause) (h : tag.argument = none) : Fits before tag (.error (.reported r))
  | broken (b : Breakdown) (h : ActionBreaks before tag b) : Fits before tag (.error (.broken b))
  | ok (next : Fields Value) (h : ActionPasses before tag) (hw : Wrote (before ++ [tag]) next) :
      Fits before tag (.ok next)

theorem fits_require {before : List Tag} {done : Fields Value} (h : Wrote before done) {tag : Tag}
    (ha : tag.argument ≠ none) (hrequired : tag.kind? = some .required) (names : List Text) :
    Fits before tag (.ok (require names done)) := by
  have htag : ¬ReplacesProperties tag := by
    rintro ⟨hname, -⟩
    rw [Tag.kind?, hname] at hrequired
    exact absurd hrequired (by decide)
  refine .ok _ (passes_of_not_sets ha fun v hv => hv.1 hrequired) ?_
  unfold require
  split
  · exact h.put htag (by decide) _
  · exact h.put htag (by decide) _

theorem fits_flat {before : List Tag} {done : Fields Value} (h : Wrote before done) {tag : Tag}
    {a : Text} (ha : tag.argument = some a) (htarget : target? a = none) :
    Fits before tag (.ok (done.put (Text.str tag.name) (.ofText a))) := by
  have hpasses : ActionPasses before tag := by
    refine passes_of_not_sets (by simp [ha]) ?_
    rintro v ⟨-, a', target, ha', htarget'⟩
    obtain rfl : a = a' := Option.some.inj (ha.symm.trans ha')
    rw [htarget] at htarget'
    cases htarget'
  refine .ok _ hpasses ?_
  -- The one name that matters is that of the properties themselves.
  by_cases hname : tag.name = "properties".toList
  · have htag : ReplacesProperties tag := ⟨hname, a, ha, htarget⟩
    have hkey : Text.str tag.name = "properties" := by
      rw [hname]
      rfl
    refine ⟨fun _ => ⟨Text.str a, ?_⟩, fun hr => absurd (replaced_snoc.mpr (.inr htag)) hr⟩
    rw [hkey, Fields.get?_put, if_pos rfl]
    rfl
  · refine h.put (fun htag => hname htag.1) (fun hkey => hname ?_) _
    rw [hkey, Text.str, String.toList_ofList]

theorem fits_keyword {before : List Tag} {done : Fields Value} (h : Wrote before done) {tag : Tag}
    {value : Text} (hsets : SetsKeyword tag value) (target : String) :
    Fits before tag ((keywordValue tag.kind? value).bind
      (setTarget target (Text.str tag.name) · done)) := by
  -- The value is read before the properties are looked at.
  by_cases hread : Unreadable tag.kind? value
  · rw [keywordValue_of_unreadable hread]
    exact .broken _ (hsets.breaks_iff.mpr (.inl ⟨rfl, hread⟩))
  · obtain ⟨v, hv⟩ := keywordValue_of_readable hread
    simp only [hv, Except.bind]
    by_cases hreplaced : Replaced before
    · obtain ⟨t, ht⟩ := h.replaced hreplaced
      simp only [setTarget, ht]
      exact .broken _ (hsets.breaks_iff.mpr (.inr ⟨rfl, hread, hreplaced⟩))
    · have hpasses := hsets.passes hread hreplaced
      rcases h.kept hreplaced with hnone | ⟨targets, htargets⟩
      · simp only [setTarget, hnone]
        exact .ok _ hpasses (wrote_targets hreplaced hsets.not_replaces _ _)
      · simp only [setTarget, htargets]
        exact .ok _ hpasses (wrote_targets hreplaced hsets.not_replaces _ _)

theorem fits_addAction (expression : Text) {before : List Tag} {done : Fields Value}
    (h : Wrote before done) (tag : Tag) : Fits before tag (addAction expression done tag) := by
  unfold addAction
  split
  · rename_i hnone
    exact .reported _ hnone
  · rename_i a ha
    split
    · rename_i hrequired
      exact fits_require h (by simp [ha]) hrequired _
    · rename_i hrequired
      split
      · rename_i target value htarget
        exact fits_keyword h ⟨hrequired, a, target, ha, htarget⟩ _
      · rename_i htarget
        exact fits_flat h ha htarget

theorem addAction_eq_broken {expression : Text} {before : List Tag} {done : Fields Value}
    (h : Wrote before done) {tag : Tag} {b : Breakdown} :
    addAction expression done tag = .error (.broken b) ↔ ActionBreaks before tag b := by
  have hfits := fits_addAction expression h tag
  generalize addAction expression done tag = x at hfits
  cases hfits with
  | reported r hnone =>
    simp only [Except.error.injEq, reduceCtorEq, false_iff]
    rintro ⟨v, ⟨-, a, target, ha, -⟩, -⟩
    rw [hnone] at ha
    cases ha
  | broken c hc =>
    obtain ⟨v, hv, hcase⟩ := hc
    simp only [Except.error.injEq, Failure.broken.injEq, hv.breaks_iff]
    constructor
    · rintro rfl
      exact hcase
    · rintro (⟨rfl, hlong⟩ | ⟨rfl, hread, -⟩)
      · rcases hcase with ⟨rfl, -⟩ | ⟨-, hread, -⟩
        · rfl
        · exact absurd hlong hread
      · rcases hcase with ⟨-, hlong⟩ | ⟨rfl, -⟩
        · exact absurd hlong hread
        · rfl
  | ok next hpasses hw =>
    simp only [reduceCtorEq, false_iff]
    exact hpasses.2 b

/-- Actions that all pass, after the actions `before`. -/
def ActionsPass (before : List Tag) : List Tag → Prop
  | [] => True
  | tag :: tags => ActionPasses before tag ∧ ActionsPass (before ++ [tag]) tags

/-- Actions take effect one after the other if and only if all of them pass. -/
theorem actions_eq_ok (expression : Text) {before : List Tag} {done : Fields Value}
    (h : Wrote before done) (tags : List Tag) :
    (∃ last, tags.foldlM (addAction expression) done = .ok last ∧ Wrote (before ++ tags) last) ∧
        ActionsPass before tags ∨
      (∃ f, tags.foldlM (addAction expression) done = .error f) ∧ ¬ActionsPass before tags := by
  induction tags generalizing before done with
  | nil => exact .inl ⟨⟨done, rfl, by simpa using h⟩, trivial⟩
  | cons tag tags ih =>
    rw [List.foldlM_cons]
    have hfits := fits_addAction expression h tag
    generalize addAction expression done tag = x at hfits
    cases hfits with
    | reported r hnone => exact .inr ⟨⟨_, rfl⟩, fun hp => hp.1.1 hnone⟩
    | broken c hc => exact .inr ⟨⟨_, rfl⟩, fun hp => hp.1.2 c hc⟩
    | ok next hpasses hw =>
      rcases ih hw with ⟨⟨last, hlast, hwrote⟩, hall⟩ | ⟨⟨f, hf⟩, hnot⟩
      · refine .inl ⟨⟨last, hlast, ?_⟩, hpasses, hall⟩
        simpa using hwrote
      · exact .inr ⟨⟨f, hf⟩, fun hp => hnot hp.2⟩

def ConditionsBreak (tags : List Tag) : Prop :=
  ∃ before tag after, tags = before ++ tag :: after ∧ (∀ t ∈ before, ConditionPasses t) ∧
    ConditionBreaks tag

def ActionsBreak (tags : List Tag) (b : Breakdown) : Prop :=
  ∃ before tag after, tags = before ++ tag :: after ∧ ActionsPass [] before ∧
    ActionBreaks before tag b

/-- The tags of a rule can be found, and the first one of them that fails breaks down. -/
def Breaks (expression : Text) (b : Breakdown) : Prop :=
  ∃ path conditionText actionText conditions actions,
    parts expression = .ok (path, conditionText, actionText) ∧
      Tag.scan 0 conditionText = .ok conditions ∧ Tag.scan 0 actionText = .ok actions ∧
      conditions ≠ [] ∧ actions ≠ [] ∧
      ((b = .tooManyDigits ∧ ConditionsBreak conditions) ∨
        ((∀ t ∈ conditions, ConditionPasses t) ∧ ActionsBreak actions b))

theorem buildAntecedent_eq_broken {o : Options} {path : List Text} {expression : Text}
    {tags : List Tag} {b : Breakdown} :
    buildAntecedent o path expression tags = .error (.broken b) ↔
      b = .tooManyDigits ∧ ConditionsBreak tags := by
  rw [buildAntecedent, Attempt.map_eq_error, Attempt.foldlM_eq_error]
  constructor
  · rintro ⟨before, tag, after, done, hsplit, hbefore, htag⟩
    obtain ⟨hb, hbreaks⟩ := addCondition_eq_broken.mp htag
    have hpass := (conditions_eq_ok expression []).mp ⟨done, hbefore⟩
    exact ⟨hb, before, tag, after, hsplit, hpass, hbreaks⟩
  · rintro ⟨hb, before, tag, after, hsplit, hbefore, hbreaks⟩
    obtain ⟨done, hdone⟩ := (conditions_eq_ok expression []).mpr hbefore
    exact ⟨before, tag, after, done, hsplit, hdone, addCondition_eq_broken.mpr ⟨hb, hbreaks⟩⟩

theorem buildAntecedent_eq_ok (o : Options) (path : List Text) (expression : Text)
    {tags : List Tag} :
    (∃ antecedent, buildAntecedent o path expression tags = .ok antecedent) ↔
      ∀ tag ∈ tags, ConditionPasses tag := by
  rw [← conditions_eq_ok expression [], buildAntecedent]
  cases tags.foldlM (addCondition expression) [] <;> simp [Except.map]

theorem wrote_nil : Wrote [] [] := by
  refine ⟨?_, fun _ => .inl rfl⟩
  rintro ⟨tag, hmem, -⟩
  cases hmem

theorem buildConsequent_eq_broken (expression : Text) {tags : List Tag} {b : Breakdown} :
    buildConsequent expression tags = .error (.broken b) ↔ ActionsBreak tags b := by
  rw [buildConsequent, Attempt.foldlM_eq_error]
  constructor
  · rintro ⟨before, tag, after, done, hsplit, hbefore, htag⟩
    rcases actions_eq_ok expression wrote_nil before with ⟨⟨last, hlast, hw⟩, hall⟩ | ⟨⟨f, hf⟩, -⟩
    · obtain rfl : last = done := Except.ok.inj (hlast.symm.trans hbefore)
      exact ⟨before, tag, after, hsplit, hall, (addAction_eq_broken hw).mp htag⟩
    · rw [hf] at hbefore
      cases hbefore
  · rintro ⟨before, tag, after, hsplit, hall, hbreaks⟩
    rcases actions_eq_ok expression wrote_nil before with ⟨⟨last, hlast, hw⟩, -⟩ | ⟨-, hnot⟩
    · exact ⟨before, tag, after, last, hsplit, hlast, (addAction_eq_broken hw).mpr hbreaks⟩
    · exact absurd hall hnot

theorem assemble_eq_broken {o : Options} {path : List Text} {expression : Text}
    {conditions actions : List Tag} {b : Breakdown} :
    assemble o path expression conditions actions = .error (.broken b) ↔
      conditions ≠ [] ∧ actions ≠ [] ∧ ((b = .tooManyDigits ∧ ConditionsBreak conditions) ∨
        ((∀ t ∈ conditions, ConditionPasses t) ∧ ActionsBreak actions b)) := by
  unfold assemble
  cases conditions with
  | nil => simp [Failure.because]
  | cons c cs =>
    cases actions with
    | nil => simp [Failure.because]
    | cons a as =>
      simp only [List.isEmpty_cons, Bool.false_eq_true, if_false, ne_eq, reduceCtorEq,
        not_false_eq_true, true_and]
      rw [Attempt.bind_eq_error, buildAntecedent_eq_broken,
        ← buildAntecedent_eq_ok o path expression, ← buildConsequent_eq_broken expression]
      refine or_congr_right ⟨?_, ?_⟩
      · rintro ⟨antecedent, hantecedent, hrest⟩
        rcases Attempt.bind_eq_error.mp hrest with hrest | ⟨consequent, -, hrest⟩
        · exact ⟨⟨antecedent, hantecedent⟩, hrest⟩
        · cases hrest
      · rintro ⟨⟨antecedent, hantecedent⟩, hrest⟩
        exact ⟨antecedent, hantecedent, Attempt.bind_eq_error.mpr (.inl hrest)⟩

theorem compile_eq_broken {o : Options} {expression : Text} {b : Breakdown} :
    compile o expression = .error (.broken b) ↔ Breaks expression b := by
  rw [compile_eq]
  constructor
  · intro h
    split at h
    · cases h
    · rename_i path conditionText actionText hparts
      rcases Attempt.bind_eq_error.mp h with h | ⟨conditions, hconditions, h⟩
      · exact absurd h ((Tag.isReport_scanAt _ _ _ _).ne_broken b)
      · rcases Attempt.bind_eq_error.mp h with h | ⟨actions, hactions, h⟩
        · exact absurd h ((Tag.isReport_scanAt _ _ _ _).ne_broken b)
        · exact ⟨path, conditionText, actionText, conditions, actions, hparts,
            Attempt.mapError_eq_ok.mp hconditions, Attempt.mapError_eq_ok.mp hactions,
            assemble_eq_broken.mp h⟩
  · rintro ⟨path, conditionText, actionText, conditions, actions, hparts, hconditions, hactions,
      hbreaks⟩
    simp only [hparts]
    refine Attempt.bind_eq_error.mpr (.inr ⟨conditions, Attempt.mapError_eq_ok.mpr hconditions, ?_⟩)
    refine Attempt.bind_eq_error.mpr (.inr ⟨actions, Attempt.mapError_eq_ok.mpr hactions, ?_⟩)
    exact assemble_eq_broken.mpr hbreaks

end Rule

end ModelSchema
