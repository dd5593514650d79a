import ModelSchema.Proofs.Numeral

namespace ModelSchema

theorem LongInteger.ne_nil {t : Text} (h : LongInteger t) : t ≠ [] := by
  rintro rfl
  obtain ⟨sign, digits, hnil, -, -, hlong⟩ := h
  rw [(List.append_eq_nil_iff.mp hnil.symm).2] at hlong
  simp at hlong

theorem LongInteger.length {t : Text} (h : LongInteger t) : Number.maxDigits < t.length := by
  obtain ⟨sign, digits, rfl, -, -, hlong⟩ := h
  rw [List.length_append]
  omega

theorem LongInteger.not_blank {t : Text} (h : LongInteger (Text.strip t)) :
    Text.isBlankText t = false := by
  cases hblank : Text.isBlankText t with
  | false => rfl
  | true =>
    -- Nothing is left of a blank text.
    have hspan := Text.span_append (b := []) (List.all_eq_true.mp hblank) (by simp)
    rw [List.append_nil] at hspan
    have hnil : Text.strip t = [] := by simp [Text.strip, Text.trim, hspan.2]
    exact absurd hnil h.ne_nil

theorem Text.mem_of_mem_splitOn {sep : Char} {t piece : Text} (hpiece : piece ∈ splitOn sep t) :
    ∀ c ∈ piece, c ∈ t := by
  induction t generalizing piece with
  | nil => simp_all [splitOn]
  | cons d t ih =>
    intro c hc
    simp only [splitOn] at hpiece
    split at hpiece
    · rcases List.mem_cons.mp hpiece with rfl | hpiece
      · cases hc
      · exact List.mem_cons_of_mem d (ih hpiece c hc)
    · cases hsplit : splitOn sep t with
      | nil =>
        rw [hsplit] at hpiece
        simp_all [consFirst]
      | cons p ps =>
        rw [hsplit] at hpiece ih
        rcases List.mem_cons.mp hpiece with rfl | hpiece
        · rcases List.mem_cons.mp hc with rfl | hc
          · exact List.mem_cons_self
          · exact List.mem_cons_of_mem d (ih List.mem_cons_self c hc)
        · exact List.mem_cons_of_mem d (ih (List.mem_cons_of_mem p hpiece) c hc)

namespace Effect

open Attempt

theorem bare_needArgument (tag : Tag) : FailsIn Failure.Bare (needArgument tag) := by
  unfold needArgument
  split
  · exact bare_because _ rfl
  · split
    · exact bare_because _ rfl
    · exact failsIn_ok _

theorem bare_ofEnum (d : Declaration) : FailsIn Failure.Bare (ofEnum d) := by
  unfold ofEnum
  split
  · exact bare_because _ rfl
  · exact failsIn_ok _

theorem bare_ofRef (d : Declaration) : FailsIn Failure.Bare (ofRef d) := by
  unfold ofRef
  split
  · exact bare_because _ rfl
  · exact failsIn_ok _

theorem bare_ofFormat (tag : Tag) : FailsIn Failure.Bare (ofFormat tag) :=
  (bare_needArgument tag).bind fun _ => failsIn_ok _

theorem unplaced_literalKeyword (key : String) (hint : Option Text) (raw : Text) :
    FailsIn Failure.Unplaced (literalKeyword key hint raw) := (unplaced_number _).map _

theorem unplaced_ofUi (tag : Tag) : FailsIn Failure.Unplaced (ofUi tag) := by
  refine (bare_needArgument tag).unplaced.bind fun argument => ?_
  refine FailsIn.bind ?_ fun order => failsIn_ok _
  unfold readOrder
  split
  · exact failsIn_ok _
  · exact unplaced_number _

theorem unplaced_ofLimit (tag : Tag) : FailsIn Failure.Unplaced (ofLimit tag) := by
  refine (bare_needArgument tag).unplaced.bind fun argument => ?_
  dsimp only
  split
  · exact FailsIn.bind (unplaced_number _) fun n => failsIn_ok _
  · exact FailsIn.unplaced (bare_because _ rfl)

theorem unplaced_ofDefault (o : Options) (d : Declaration) (tag : Tag) :
    FailsIn Failure.Unplaced (ofDefault o d tag) := by
  unfold ofDefault
  split
  · exact FailsIn.unplaced (bare_because _ rfl)
  · exact unplaced_literalKeyword _ _ _

theorem unplaced_ofConst (d : Declaration) (tag : Tag) :
    FailsIn Failure.Unplaced (ofConst d tag) := by
  unfold ofConst
  split
  · exact FailsIn.unplaced (bare_because _ rfl)
  · exact unplaced_literalKeyword _ _ _

theorem unplaced_ofTag (o : Options) (d : Declaration) (tag : Tag) :
    FailsIn Failure.Unplaced (ofTag o d tag) := by
  unfold ofTag
  cases tag.kind? with
  | none => exact failsIn_ok _
  | some k =>
    cases k with
    | ui => exact unplaced_ofUi tag
    | limit l => exact unplaced_ofLimit tag
    | default => exact unplaced_ofDefault o d tag
    | const => exact unplaced_ofConst d tag
    | enum => exact (bare_ofEnum d).unplaced
    | ref => exact (bare_ofRef d).unplaced
    | format => exact (bare_ofFormat tag).unplaced
    | pattern => exact (bare_needArgument tag).unplaced.map _
    | can => exact (Permission.bare_compile _).unplaced.map _
    | required | uniqueItems | uuid | email | condition | sort | breadcrumb => exact failsIn_ok _

/-- The tag reads a number, and finds an integer with too many digits. -/
def ReadsLong (o : Options) (d : Declaration) (tag : Tag) : Prop :=
  ∃ a, tag.argument = some a ∧
    match tag.kind? with
    | some .ui => ∃ piece, (Text.splitOn ',' a)[3]? = some piece ∧ LongInteger (Text.strip piece)
    | some (.limit _) | some .const => LongInteger (Text.strip a)
    | some .default =>
      Literal.allowsNumber (defaultHint o d) = true ∧ LongInteger (Text.strip a)
    | _ => False

theorem needArgument_eq_ok {tag : Tag} {a : Text} :
    needArgument tag = .ok a ↔ tag.argument = some a ∧ Text.isBlankText a = false := by
  unfold needArgument
  cases tag.argument with
  | none => simp
  | some a' =>
    cases hblank : Text.isBlankText a' with
    | true =>
      simp only [hblank, if_true, reduceCtorEq, Option.some.injEq, false_iff]
      rintro ⟨rfl, h⟩
      rw [hblank] at h
      cases h
    | false =>
      simp only [hblank, Except.ok.injEq, Option.some.injEq, Bool.false_eq_true, if_false]
      constructor
      · rintro rfl
        exact ⟨rfl, hblank⟩
      · exact fun h => h.1

theorem literalKeyword_eq_broken {key : String} {hint : Option Text} {raw : Text} {b : Breakdown} :
    literalKeyword key hint raw = .error (.broken b) ↔
      b = .tooManyDigits ∧ Literal.allowsNumber hint = true ∧ LongInteger (Text.strip raw) := by
  rw [literalKeyword, map_eq_error, number_eq_broken, Literal.coerce_eq_error]

theorem readOrder_eq_broken {t : Text} (hstrip : Text.strip t = t) {b : Breakdown} :
    readOrder t = .error (.broken b) ↔ b = .tooManyDigits ∧ LongInteger t := by
  rw [← Number.integer?_long hstrip]
  unfold readOrder
  cases Number.integer? t with
  | none => simp
  | some n =>
    simp only [number_eq_broken, Number.ofIntegerNumeral_eq_error, Option.some.injEq,
      exists_eq_left']

theorem ofUi_eq_broken {tag : Tag} {b : Breakdown} :
    ofUi tag = .error (.broken b) ↔ b = .tooManyDigits ∧ ∃ a, tag.argument = some a ∧
      ∃ piece, (Text.splitOn ',' a)[3]? = some piece ∧ LongInteger (Text.strip piece) := by
  -- The order is the fourth piece of the argument, or empty.
  have horder (a : Text) : readOrder ((((Text.splitOn ',' a).map Text.strip)[3]?).getD []) =
      .error (.broken b) ↔ b = .tooManyDigits ∧
        ∃ piece, (Text.splitOn ',' a)[3]? = some piece ∧ LongInteger (Text.strip piece) := by
    rw [List.getElem?_map]
    cases (Text.splitOn ',' a)[3]? with
    | none =>
      rw [readOrder_eq_broken (by rfl)]
      have hnil : ¬LongInteger [] := fun h => h.ne_nil rfl
      simp [hnil]
    | some piece =>
      rw [Option.map_some, Option.getD_some, readOrder_eq_broken (Text.strip_strip piece)]
      simp
  unfold ofUi
  constructor
  · intro h
    rcases bind_eq_error.mp h with h | ⟨a, ha, h⟩
    · exact absurd h ((bare_needArgument tag).isReport.ne_broken b)
    · rcases bind_eq_error.mp h with h | ⟨order, -, h⟩
      · obtain ⟨hb, hlong⟩ := (horder a).mp h
        exact ⟨hb, a, (needArgument_eq_ok.mp ha).1, hlong⟩
      · cases h
  · rintro ⟨hb, a, ha, piece, hpiece, hlong⟩
    have hblank : Text.isBlankText a = false := by
      obtain ⟨c, hc, hmark⟩ := List.all_eq_false.mp hlong.not_blank
      have hmem := Text.mem_of_mem_splitOn (List.mem_of_getElem? hpiece) c hc
      exact List.all_eq_false.mpr ⟨c, hmem, hmark⟩
    refine bind_eq_error.mpr (.inr ⟨a, needArgument_eq_ok.mpr ⟨ha, hblank⟩, ?_⟩)
    exact bind_eq_error.mpr (.inl ((horder a).mpr ⟨hb, piece, hpiece, hlong⟩))

theorem ofLimit_eq_broken {tag : Tag} {b : Breakdown} :
    ofLimit tag = .error (.broken b) ↔
      b = .tooManyDigits ∧ ∃ a, tag.argument = some a ∧ LongInteger (Text.strip a) := by
  unfold ofLimit
  constructor
  · intro h
    rcases bind_eq_error.mp h with h | ⟨a, ha, h⟩
    · exact absurd h ((bare_needArgument tag).isReport.ne_broken b)
    · dsimp only at h
      split at h
      · rename_i hnumeral
        rcases bind_eq_error.mp h with h | ⟨n, -, h⟩
        · obtain ⟨hb, hf⟩ := number_eq_broken.mp h
          have hlong := (Number.parse_eq_error (Text.strip_strip a)).mp ⟨hnumeral, hf⟩
          exact ⟨hb, a, (needArgument_eq_ok.mp ha).1, hlong⟩
        · cases h
      · cases h
  · rintro ⟨hb, a, ha, hlong⟩
    obtain ⟨hnumeral, hf⟩ := (Number.parse_eq_error (Text.strip_strip a)).mpr hlong
    refine bind_eq_error.mpr
      (.inr ⟨a, needArgument_eq_ok.mpr ⟨ha, hlong.not_blank⟩, ?_⟩)
    simp only [hnumeral, if_true]
    exact bind_eq_error.mpr (.inl (number_eq_broken.mpr ⟨hb, hf⟩))

theorem ofTag_eq_broken {o : Options} {d : Declaration} {tag : Tag} {b : Breakdown} :
    ofTag o d tag = .error (.broken b) ↔ b = .tooManyDigits ∧ ReadsLong o d tag := by
  -- All other kinds of tags only report.
  have hother {x : Except Failure Effect} (hx : FailsIn Failure.Bare x) :
      x = .error (.broken b) ↔ b = .tooManyDigits ∧ ∃ a, tag.argument = some a ∧ False := by
    simp only [and_false, exists_false, iff_false]
    exact hx.isReport.ne_broken b
  unfold ofTag ReadsLong
  cases tag.kind? with
  | none => exact hother (failsIn_ok _)
  | some k =>
    cases k with
    | ui => exact ofUi_eq_broken
    | limit l => exact ofLimit_eq_broken
    | default =>
      unfold ofDefault
      cases tag.argument with
      | none => simp [Failure.because]
      | some a => simp [literalKeyword_eq_broken]
    | const =>
      unfold ofConst
      cases tag.argument with
      | none => simp [Failure.because]
      | some a => simp [literalKeyword_eq_broken, Literal.allowsNumber]
    | enum => exact hother (bare_ofEnum d)
    | ref => exact hother (bare_ofRef d)
    | format => exact hother (bare_ofFormat tag)
    | pattern => exact hother ((bare_needArgument tag).map _)
    | can => exact hother ((Permission.bare_compile _).map _)
    | required | uniqueItems | uuid | email | condition | sort | breadcrumb =>
      exact hother (failsIn_ok _)

end Effect

/-- Tags fail at the first of them that does, if those before it take effect. -/
theorem FieldState.applyTags_eq_some {o : Options} {d : Declaration} {tags : List Tag}
    {s : FieldState} {f : Failure} :
    (applyTags o d tags s).failure = some f ↔ ∃ before tag after, tags = before ++ tag :: after ∧
      (∀ t ∈ before, ∃ e, Effect.ofTag o d t = .ok e) ∧ Effect.ofTag o d tag = .error f := by
  induction tags generalizing s with
  | nil => simp [applyTags, Outcome.ok]
  | cons tag tags ih =>
    simp only [applyTags]
    cases hof : Effect.ofTag o d tag with
    | error g =>
      constructor
      · intro h
        obtain rfl : g = f := by simpa [Outcome.fail] using h
        exact ⟨[], tag, tags, rfl, by simp, hof⟩
      · rintro ⟨before, tag', after, hsplit, hbefore, hf⟩
        cases before with
        | nil =>
          obtain ⟨rfl, -⟩ := List.cons.inj hsplit
          rw [hof] at hf
          cases hf
          rfl
        | cons t before =>
          obtain ⟨rfl, -⟩ := List.cons.inj hsplit
          obtain ⟨e, he⟩ := hbefore tag (by simp)
          rw [hof] at he
          cases he
    | ok e =>
      change (applyTags o d tags _).failure = some f ↔ _
      rw [ih]
      constructor
      · rintro ⟨before, tag', after, rfl, hbefore, hf⟩
        refine ⟨tag :: before, tag', after, rfl, ?_, hf⟩
        exact List.forall_mem_cons.mpr ⟨⟨e, hof⟩, hbefore⟩
      · rintro ⟨before, tag', after, hsplit, hbefore, hf⟩
        cases before with
        | nil =>
          obtain ⟨rfl, -⟩ := List.cons.inj hsplit
          rw [hof] at hf
          cases hf
        | cons t before =>
          obtain ⟨rfl, rfl⟩ := List.cons.inj hsplit
          exact ⟨before, tag', after, rfl, (List.forall_mem_cons.mp hbefore).2, hf⟩

end ModelSchema
