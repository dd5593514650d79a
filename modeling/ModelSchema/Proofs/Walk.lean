import ModelSchema.Proofs.Rule
import ModelSchema.Schema.Validation

namespace ModelSchema

/-- Satisfaction of a schema by the keywords `properties` and `required` alone, which say nothing
about values other than objects. The schemas `levels` deep are left to `inner`. -/
def Satisfies (inner : Value → Value → Prop) : Nat → Value → Value → Prop
  | 0, schema, v => inner schema v
  | levels + 1, .object keywords, v => ∀ fs, v = .object fs →
      (∀ schemas, Fields.get? "properties" keywords = some (.object schemas) →
        ∀ key schema w, Fields.get? key schemas = some schema → Fields.get? key fs = some w →
          Satisfies inner levels schema w) ∧
      ∀ names, Fields.get? "required" keywords = some (.array names) →
        ∀ key, .text key ∈ names → Fields.has key fs = true
  | _ + 1, .bool b, _ => b = true
  | _ + 1, _, _ => False

/-- Where a path leads. -/
inductive Arrival where
  | reached (v : Value)
  /-- An object on the way lacks the next segment. -/
  | missing
  /-- A segment is to be looked up in something other than an object. -/
  | blocked

/-- The value that is reached satisfies `P`. Where a segment is missing, `absent` decides, and
where the way is blocked there is nothing to satisfy. -/
def Arrival.Meets (absent : Prop) (P : Value → Prop) : Arrival → Prop
  | .reached v => P v
  | .missing => absent
  | .blocked => True

/-- Walks from a value along a path. -/
def Value.walk : List Text → Value → Arrival
  | [], v => .reached v
  | segment :: path, .object fs =>
    match Fields.get? (Text.str segment) fs with
    | some w => walk path w
    | none => .missing
  | _ :: _, _ => .blocked

theorem Arrival.Meets.mono {p q : Prop} {P : Value → Prop} {a : Arrival} (h : p → q)
    (ha : a.Meets p P) : a.Meets q P := by
  cases a with
  | reached v => exact ha
  | missing => exact h ha
  | blocked => trivial

theorem Arrival.meets_congr {p q : Prop} {P : Value → Prop} {a : Arrival} (h : a ≠ .missing) :
    a.Meets p P ↔ a.Meets q P := by
  cases a with
  | reached v => exact Iff.rfl
  | missing => exact absurd rfl h
  | blocked => exact Iff.rfl

namespace Rule

variable {inner : Value → Value → Prop} {levels : Nat} {strict : Bool} {segment : Text}
  {schema : Fields Value} {fs : List (String × Value)} {v : Value}

theorem get?_properties_wrap : (wrap strict segment schema).get? "properties" =
    some (.object [(Text.str segment, .object schema)]) := rfl

theorem get?_required_wrap : (wrap strict segment schema).get? "required" =
    if strict then some (.array [.ofText segment]) else none := by
  cases strict with
  | false => rfl
  | true => rfl

theorem get?_ref_wrap : (wrap strict segment schema).get? "$ref" = none := by
  cases strict with
  | false => rfl
  | true => rfl

/-- An object satisfies one level if its property does, and if the property is there or need not
be. -/
theorem satisfies_wrap : Satisfies inner (levels + 1) (.object (wrap strict segment schema))
    (.object fs) ↔
      (∀ w, Fields.get? (Text.str segment) fs = some w →
        Satisfies inner levels (.object schema) w) ∧
      (strict = true → Fields.has (Text.str segment) fs = true) := by
  constructor
  · intro h
    obtain ⟨hproperties, hrequired⟩ := h fs rfl
    constructor
    · intro w hw
      exact hproperties _ get?_properties_wrap _ _ w (by simp [Fields.get?]) hw
    · intro hstrict
      have hnames : (wrap strict segment schema).get? "required" =
          some (.array [.ofText segment]) := by rw [get?_required_wrap, if_pos hstrict]
      exact hrequired _ hnames _ List.mem_cons_self
  · intro h fs' hfs
    obtain ⟨hproperty, hpresent⟩ := h
    obtain rfl : fs = fs' := Value.object.inj hfs
    constructor
    · intro schemas hschemas key schema' w hschema hw
      rw [get?_properties_wrap] at hschemas
      cases hschemas
      by_cases hkey : Text.str segment = key
      · subst hkey
        obtain rfl : Value.object schema = schema' := by simpa [Fields.get?] using hschema
        exact hproperty w hw
      · simp [Fields.get?, hkey] at hschema
    · intro names hnames key hmem
      rw [get?_required_wrap] at hnames
      cases hstrict : strict with
      | false => simp [hstrict] at hnames
      | true =>
        obtain rfl : [Value.ofText segment] = names := by simpa [hstrict] using hnames
        obtain rfl : key = Text.str segment := by simpa [Value.ofText] using hmem
        exact hpresent hstrict

/-- A condition is satisfied according to where its path leads. -/
theorem satisfies_nest (inner : Value → Value → Prop) (strict : Bool) (path : List Text)
    (keywords : Fields Value) (v : Value) :
    Satisfies inner path.length (.object (nest strict path keywords)) v ↔
      (v.walk path).Meets (strict = false) (inner (.object keywords)) := by
  induction path generalizing v with
  | nil => exact Iff.rfl
  | cons segment path ih =>
    have hnest : nest strict (segment :: path) keywords =
        wrap strict segment (nest strict path keywords) := rfl
    rw [hnest, List.length_cons]
    cases v with
    | object fs =>
      rw [satisfies_wrap, Value.walk, Fields.has]
      cases hfound : Fields.get? (Text.str segment) fs with
      | some w => simp [ih]
      | none => simp [Arrival.Meets]
    | null | bool b | number n | text s | array xs =>
      simp [Satisfies, Value.walk, Arrival.Meets]

end Rule

namespace Findings

theorem valid_under (step : String) (f : Findings) : (f.under step).valid = f.valid := by
  obtain ⟨issues, fault⟩ := f
  cases issues <;> cases fault <;> rfl

/-- The first check that finds something decides. -/
theorem valid_each_cons {α : Type} (check : α → Findings) (a : α) (as : List α) :
    (each check (a :: as)).valid =
      (check a).valid >>= fun passes => if passes then (each check as).valid else .ok false := by
  rw [each]
  obtain ⟨issues, fault⟩ := check a
  cases issues <;> cases fault <;> rfl

end Findings

namespace Schema

variable {ctx : Context} {fuel : Nat} {strict : Bool} {segment : Text} {schema : Fields Value}
  {fs : List (String × Value)} {v : Value}

/-- The two keywords of a level, one after the other. -/
theorem valid_each_wrap (check : String × Value → Findings) :
    (Findings.each check (Rule.wrap strict segment schema)).valid =
      (check ("properties", .object [(Text.str segment, .object schema)])).valid >>= fun passes =>
        if passes && strict then (check ("required", .array [.ofText segment])).valid
        else .ok passes := by
  rw [Rule.wrap, Findings.valid_each_cons]
  congr 1
  funext passes
  cases strict with
  | false => cases passes <;> rfl
  | true =>
    rw [if_pos rfl, Findings.valid_each_cons]
    cases (check ("required", .array [.ofText segment])).valid with
    | error fault => cases passes <;> rfl
    | ok present => cases passes <;> cases present <;> rfl

theorem valid_properties (check : Keyword.Check) :
    (Findings.ofExcept (Keyword.properties check
      (.object [(Text.str segment, .object schema)]) (.object fs))).valid =
        match Fields.get? (Text.str segment) fs with
        | some w => (check (.object schema) w).valid
        | none => .ok true := by
  have hone : Findings.ofExcept (Keyword.properties check
      (.object [(Text.str segment, .object schema)]) (.object fs)) =
        .each (fun e => match Fields.get? e.1 fs with
          | some w => Keyword.descend check e.1 e.2 w
          | none => .nothing) [(Text.str segment, .object schema)] := rfl
  rw [hone, Findings.valid_each_cons]
  cases hfound : Fields.get? (Text.str segment) fs with
  | none => rfl
  | some w =>
    have hdescend : Keyword.descend check (Text.str segment) (.object schema) w =
        (check (.object schema) w).under (Text.str segment) := rfl
    simp only [hdescend, Findings.valid_under]
    cases (check (.object schema) w).valid with
    | error fault => rfl
    | ok passes => cases passes <;> rfl

theorem valid_required : (Findings.ofExcept (Keyword.required (.array [.ofText segment])
    (.object fs))).valid = .ok (Fields.has (Text.str segment) fs) := by
  have hone : Findings.ofExcept (Keyword.required (.array [.ofText segment]) (.object fs)) =
      .each (fun name => .ofExcept (Keyword.requires fs name)) [.ofText segment] := rfl
  rw [hone, Findings.valid_each_cons]
  have hkey : Keyword.hasKey fs (.ofText segment) = .ok (Fields.has (Text.str segment) fs) := rfl
  rw [Keyword.requires, hkey]
  cases Fields.has (Text.str segment) fs <;> rfl

/-- One level of a condition passes a value on to the next level, if the property is there. -/
theorem valid_wrap : (checkTo ctx (fuel + 1) (.object (Rule.wrap strict segment schema))
    (.object fs)).valid =
      match Fields.get? (Text.str segment) fs with
      | some w => (checkTo ctx fuel (.object schema) w).valid
      | none => .ok !strict := by
  have hproperties (s : Fields Value) (x : Value) : Keyword.run ctx.formats (checkTo ctx fuel) s
      (.object fs) "properties" x = Keyword.properties (checkTo ctx fuel) x (.object fs) := rfl
  have hrequired (s : Fields Value) (x : Value) : Keyword.run ctx.formats (checkTo ctx fuel) s
      (.object fs) "required" x = Keyword.required x (.object fs) := rfl
  rw [checkTo, checkObject, Rule.get?_ref_wrap, valid_each_wrap, hproperties, hrequired,
    valid_properties, valid_required, Fields.has]
  cases hfound : Fields.get? (Text.str segment) fs with
  | none => cases strict <;> rfl
  | some w =>
    dsimp only
    cases (checkTo ctx fuel (.object schema) w).valid with
    | error fault => rfl
    | ok passes => cases passes <;> cases strict <;> rfl

theorem valid_wrap_other (h : ∀ fs, v ≠ .object fs) :
    (checkTo ctx (fuel + 1) (.object (Rule.wrap strict segment schema)) v).valid = .ok true := by
  have hproperties (s : Fields Value) (x : Value) :
      Keyword.run ctx.formats (checkTo ctx fuel) s v "properties" x = .ok .nothing := by
    cases v with
    | object fs => exact absurd rfl (h fs)
    | _ => rfl
  have hrequired (s : Fields Value) (x : Value) :
      Keyword.run ctx.formats (checkTo ctx fuel) s v "required" x = .ok .nothing := by
    cases v with
    | object fs => exact absurd rfl (h fs)
    | _ => rfl
  rw [checkTo, checkObject, Rule.get?_ref_wrap, valid_each_wrap, hproperties, hrequired]
  cases strict <;> rfl

/-- What the validator says of a value under a condition: what it says of the value at the end of
the path under the keywords, if the path leads there. -/
theorem valid_nest (ctx : Context) (fuel : Nat) (strict : Bool) (path : List Text)
    (keywords : Fields Value) (v : Value) :
    (checkTo ctx (fuel + path.length) (.object (Rule.nest strict path keywords)) v).valid =
      match v.walk path with
      | .reached w => (checkTo ctx fuel (.object keywords) w).valid
      | .missing => .ok !strict
      | .blocked => .ok true := by
  induction path generalizing v with
  | nil => rfl
  | cons segment path ih =>
    have hnest : Rule.nest strict (segment :: path) keywords =
        Rule.wrap strict segment (Rule.nest strict path keywords) := rfl
    rw [hnest, List.length_cons, ← Nat.add_assoc]
    cases v with
    | object fs =>
      rw [valid_wrap, Value.walk]
      cases hfound : Fields.get? (Text.str segment) fs with
      | some w => exact ih w
      | none => rfl
    | null | bool b | number n | text s | array xs =>
      exact valid_wrap_other (by simp)

end Schema

namespace Rule

theorem buildAntecedent_eq_nest {o : Options} {path : List Text} {expression : Text}
    {tags : List Tag} {a : Fields Value} :
    buildAntecedent o path expression tags = .ok a ↔
      ∃ keywords, tags.foldlM (addCondition expression) [] = .ok keywords ∧
        nest o.requireConditionProperties path keywords = a := Attempt.map_eq_ok

/-- The validator finds a condition satisfied exactly if it is, by what it finds of the value at the
end of the path. -/
theorem valid_antecedent_iff_satisfies {o : Options} {path : List Text} {expression : Text}
    {tags : List Tag} {a : Fields Value} (h : buildAntecedent o path expression tags = .ok a)
    (ctx : Schema.Context) (fuel : Nat) (v : Value) :
    (Schema.checkTo ctx (fuel + path.length) (.object a) v).valid = .ok true ↔
      Satisfies (fun schema w => (Schema.checkTo ctx fuel schema w).valid = .ok true)
        path.length (.object a) v := by
  obtain ⟨keywords, -, ha⟩ := buildAntecedent_eq_nest.mp h
  rw [← ha, Schema.valid_nest, satisfies_nest]
  cases v.walk path with
  | reached w => exact Iff.rfl
  | missing => simp [Arrival.Meets]
  | blocked => simp [Arrival.Meets]

/-- A condition that must find its properties is satisfied if its path leads to a value that the
keywords accept, or is blocked; one that need not find them also if a segment is missing. -/
theorem antecedent_satisfied_iff_walk {o : Options} {path : List Text} {expression : Text}
    {tags : List Tag} {a : Fields Value} (h : buildAntecedent o path expression tags = .ok a) :
    ∃ keywords strict lax, tags.foldlM (addCondition expression) [] = .ok keywords ∧
      buildAntecedent { o with requireConditionProperties := true } path expression tags =
        .ok strict ∧
      buildAntecedent { o with requireConditionProperties := false } path expression tags =
        .ok lax ∧
      a = (if o.requireConditionProperties then strict else lax) ∧
      ∀ (inner : Value → Value → Prop) (v : Value),
        (Satisfies inner path.length (.object strict) v ↔
          (v.walk path).Meets False (inner (.object keywords))) ∧
        (Satisfies inner path.length (.object lax) v ↔
          (v.walk path).Meets True (inner (.object keywords))) ∧
        (Satisfies inner path.length (.object strict) v →
          Satisfies inner path.length (.object lax) v) ∧
        (v.walk path ≠ .missing →
          (Satisfies inner path.length (.object strict) v ↔
            Satisfies inner path.length (.object lax) v)) := by
  obtain ⟨keywords, hkeywords, ha⟩ := buildAntecedent_eq_nest.mp h
  have hstrict (inner : Value → Value → Prop) (v : Value) :
      Satisfies inner path.length (.object (nest true path keywords)) v ↔
        (v.walk path).Meets False (inner (.object keywords)) := by
    simpa using satisfies_nest inner true path keywords v
  have hlax (inner : Value → Value → Prop) (v : Value) :
      Satisfies inner path.length (.object (nest false path keywords)) v ↔
        (v.walk path).Meets True (inner (.object keywords)) := by
    simpa using satisfies_nest inner false path keywords v
  refine ⟨keywords, nest true path keywords, nest false path keywords, hkeywords,
    buildAntecedent_eq_nest.mpr ⟨keywords, hkeywords, rfl⟩,
    buildAntecedent_eq_nest.mpr ⟨keywords, hkeywords, rfl⟩, ?_, ?_⟩
  · rw [← ha]
    cases o.requireConditionProperties <;> rfl
  · intro inner v
    rw [hstrict, hlax]
    refine ⟨Iff.rfl, Iff.rfl, ?_, ?_⟩
    · intro hmeets
      exact hmeets.mono False.elim
    · intro hwalk
      exact Arrival.meets_congr hwalk

/-- The path `a.a`, which has a segment twice. -/
def twicePath : List Text := ["a".toList, "a".toList]

/-- The keyword is named as one that the levels of the path are made of. -/
def requiredTags : List Tag := [⟨"required".toList, some "b".toList, 1⟩]

theorem antecedent_satisfied_iff_walk_twice :
    ∃ strict lax, buildAntecedent { requireConditionProperties := true } twicePath [] requiredTags =
        .ok strict ∧
      buildAntecedent { requireConditionProperties := false } twicePath [] requiredTags =
        .ok lax ∧
      ∀ inner : Value → Value → Prop,
        ¬Satisfies inner 2 (.object strict) (.object [("a", .object [])]) ∧
        Satisfies inner 2 (.object lax) (.object [("a", .object [])]) ∧
        Satisfies inner 2 (.object strict) (.object [("a", .null)]) ∧
        (Satisfies inner 2 (.object strict) (.object [("a", .object [("a", .null)])]) ↔
          inner (.object [("required", .text "b")]) .null) := by
  have h : buildAntecedent {} twicePath [] requiredTags =
      .ok (nest false twicePath [("required", .text "b")]) := rfl
  obtain ⟨keywords, strict, lax, hkeywords, hstrict, hlax, -, hholds⟩ :=
    antecedent_satisfied_iff_walk h
  obtain rfl : [("required", .text "b")] = keywords := Except.ok.inj hkeywords
  refine ⟨strict, lax, hstrict, hlax, ?_⟩
  intro inner
  have hmissing := hholds inner (.object [("a", .object [])])
  have hblocked := hholds inner (.object [("a", .null)])
  have hreached := hholds inner (.object [("a", .object [("a", .null)])])
  exact ⟨hmissing.1.mp, hmissing.2.1.mpr trivial, hblocked.1.mpr trivial, hreached.1⟩

end Rule

end ModelSchema
