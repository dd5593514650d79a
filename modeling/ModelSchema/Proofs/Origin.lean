import ModelSchema.Proofs.Contribution
import ModelSchema.Proofs.JsonText
import ModelSchema.Proofs.Spelling

namespace ModelSchema

variable {p : Number → Prop}

/-- All numbers of the value have the property. -/
def Value.Holds (p : Number → Prop) (v : Value) : Prop := ∀ x ∈ v.numbers, p x

namespace Fields

def Holds (p : Number → Prop) (fs : Fields Value) : Prop := ∀ e ∈ fs, e.2.Holds p

variable {fs new : Fields Value} {key : String} {v : Value}

theorem holds_nil : Holds p [] := by
  intro e he
  cases he

theorem holds_cons {e : String × Value} : Holds p (e :: fs) ↔ e.2.Holds p ∧ Holds p fs :=
  List.forall_mem_cons

theorem holds_append : Holds p (new ++ fs) ↔ Holds p new ∧ Holds p fs := List.forall_mem_append

theorem holds_single (hv : v.Holds p) : Holds p [(key, v)] := holds_cons.mpr ⟨hv, holds_nil⟩

theorem holds_pair {key' : String} {w : Value} (hv : v.Holds p) (hw : w.Holds p) :
    Holds p [(key, v), (key', w)] :=
  holds_cons.mpr ⟨hv, holds_single hw⟩

theorem Holds.put (h : Holds p fs) (hv : v.Holds p) : Holds p (fs.put key v) := by
  intro e he
  rcases mem_put he with hnew | hold
  · rw [hnew]
    exact hv
  · exact h e hold

theorem Holds.putAll (hnew : Holds p new) (h : Holds p fs) : Holds p (putAll new fs) := by
  induction new generalizing fs with
  | nil => exact h
  | cons e new ih =>
    obtain ⟨he, hrest⟩ := holds_cons.mp hnew
    exact ih hrest (h.put he)

theorem Holds.erase (h : Holds p fs) : Holds p (fs.erase key) := by
  induction fs with
  | nil => exact h
  | cons e fs ih =>
    obtain ⟨he, hrest⟩ := holds_cons.mp h
    simp only [Fields.erase]
    split
    · exact hrest
    · exact holds_cons.mpr ⟨he, ih hrest⟩

theorem Holds.get? (h : Holds p fs) (hv : fs.get? key = some v) : v.Holds p := by
  induction fs with
  | nil => cases hv
  | cons e fs ih =>
    obtain ⟨he, hrest⟩ := holds_cons.mp h
    simp only [Fields.get?] at hv
    split at hv
    · cases hv
      exact he
    · exact ih hrest hv

end Fields

namespace Value

theorem holds_text (s : String) : (text s).Holds p := by
  intro x hx
  cases hx

theorem holds_bool (b : Bool) : (bool b).Holds p := by
  intro x hx
  cases hx

theorem holds_number {x : Number} (h : p x) : (number x).Holds p := by
  intro y hy
  rw [numbers, List.mem_singleton] at hy
  rwa [hy]

theorem holds_array {vs : List Value} : (array vs).Holds p ↔ ∀ v ∈ vs, v.Holds p := by
  simp only [Holds, numbers]
  induction vs with
  | nil => simp [numbersItems]
  | cons v vs ih => rw [numbersItems, List.forall_mem_append, ih, List.forall_mem_cons]

theorem holds_object {fs : Fields Value} : (object fs).Holds p ↔ Fields.Holds p fs := by
  simp only [Holds, numbers]
  induction fs with
  | nil => simp [numbersFields, Fields.Holds]
  | cons e fs ih => rw [numbersFields, List.forall_mem_append, ih, Fields.holds_cons, Holds]

theorem Holds.fields? {v : Value} (h : v.Holds p) : Fields.Holds p (v.fields?.getD []) := by
  cases v with
  | object fs => exact holds_object.mp h
  | null | bool | number | text | array => exact Fields.holds_nil

/-- An array of texts. -/
theorem holds_map_text {α : Type} (f : α → String) (xs : List α) :
    (array (xs.map fun a => text (f a))).Holds p := by
  rw [holds_array, List.forall_mem_map]
  intro a _
  exact holds_text (f a)

end Value

/-- The fields of an entry, if it is an object. -/
theorem Fields.Holds.fieldsAt {fs : Fields Value} (h : Fields.Holds p fs) (key : String) :
    Fields.Holds p (((fs.get? key).bind Value.fields?).getD []) := by
  cases hv : fs.get? key with
  | none => exact Fields.holds_nil
  | some v => exact (h.get? hv).fields?

/-- A number that is read from the text: an integer, or the double of a numeral. -/
inductive Number.SpelledBy (t : Text) : Number → Prop
  | int (i : Int) : SpelledBy t (.int i)
  | float {n : Numeral} (hn : n.Spells t) (hint : n.isInteger = false) :
      SpelledBy t (.float n.toDouble)

theorem Number.spelledBy_of_parse {t : Text} {x : Number} (hstrip : Text.strip t = t)
    (hnumeral : isNumeral t = true) (h : parse t = .ok x) : x.SpelledBy t := by
  rw [isNumeral, dropFinalNewline_of_strip hstrip, Option.isSome_iff_exists] at hnumeral
  obtain ⟨n, hread⟩ := hnumeral
  have hn := Numeral.read?_eq_some.mp hread
  cases hint : n.isInteger with
  | false =>
    rw [parse_of_not_isInteger hn (.inl rfl) hint] at h
    cases h
    exact .float hn hint
  | true =>
    rw [parse, integer?_of_spells hn (.inl rfl), hint, if_pos rfl] at h
    obtain ⟨i, -, rfl⟩ := Attempt.map_eq_ok.mp h
    exact .int i

theorem Literal.holds_of_coerce {hint : Option Text} {raw : Text} {v : Value}
    (hp : allowsNumber hint = true → ∀ x, Number.SpelledBy (Text.strip raw) x → p x)
    (h : coerce hint raw = .ok v) : v.Holds p := by
  unfold coerce at h
  dsimp only at h
  split at h
  · cases h
    exact Value.holds_text _
  · split at h
    · cases h
      exact Value.holds_bool _
    · split at h
      · rename_i hnumber
        obtain ⟨hnumeral, hallowed⟩ := Bool.and_eq_true_iff.mp hnumber
        obtain ⟨x, hx, rfl⟩ := Attempt.map_eq_ok.mp h
        apply Value.holds_number
        exact hp hallowed x (Number.spelledBy_of_parse (Text.strip_strip raw) hnumeral hx)
      · cases h
        exact Value.holds_text _

/-- The tag sets a limit, a constant, or a default that can be a number. -/
def Tag.TakesNumber (o : Options) (d : Declaration) (tag : Tag) : Prop :=
  (∃ l, tag.kind? = some (.limit l)) ∨ tag.kind? = some .const ∨
    tag.kind? = some .default ∧ Literal.allowsNumber (Effect.defaultHint o d) = true

/-- The literals of a statement that can be numbers. -/
inductive SourceLine.Offers (env : Setting) (line : SourceLine) : Text → Prop
  | field {d : Declaration} {schema : Fields Value} {tags : List Tag} {tag : Tag} {a : Text}
      (hfield : Block.isTag line.text = false)
      (hprepare : Block.prepare env line = .ok (d, schema, tags)) (htag : tag ∈ tags)
      (hnumber : tag.TakesNumber env.options d) (ha : tag.argument = some a) :
      Offers env line (Text.strip a)
  | condition {path : List Text} {conditions actions : Text} {tags : List Tag} {tag : Tag}
      {a : Text}
      (hparts : Rule.parts line.text = .ok (path, conditions, actions))
      (hscan : Tag.scanPart conditions = .ok tags) (htag : tag ∈ tags)
      (henum : tag.kind? ≠ some .enum) (ha : tag.argument = some a) : Offers env line (Text.strip a)
  | action {path : List Text} {conditions actions : Text} {tags : List Tag} {tag : Tag} {a : Text}
      (hparts : Rule.parts line.text = .ok (path, conditions, actions))
      (hscan : Tag.scanPart actions = .ok tags) (htag : tag ∈ tags)
      (henum : tag.kind? ≠ some .enum) (ha : Rule.SetsKeyword tag a) :
      Offers env line (Text.strip a)

namespace Effect

open Attempt

/-- The numbers that the effect writes into the schema of a field have the property. -/
def Holds (p : Number → Prop) : Effect → Prop
  | .keyword _ v => v.Holds p
  | _ => True

theorem holds_literalKeyword {key : String} {hint : Option Text} {raw : Text}
    (hp : Literal.allowsNumber hint = true → ∀ x, Number.SpelledBy (Text.strip raw) x → p x) :
    GivesIn (Holds p) (literalKeyword key hint raw) := by
  intro e he
  obtain ⟨v, hv, rfl⟩ := map_eq_ok.mp he
  exact Literal.holds_of_coerce hp (mapError_eq_ok.mp hv)

theorem holds_ofLimit {tag : Tag}
    (hp : ∀ a, tag.argument = some a → ∀ x, Number.SpelledBy (Text.strip a) x → p x) :
    GivesIn (Holds p) (ofLimit tag) := by
  have hargument : GivesIn (fun a => tag.argument = some a) (needArgument tag) := by
    intro a ha
    exact (needArgument_eq_ok.mp ha).1
  refine hargument.bind fun a ha => ?_
  dsimp only
  split
  · rename_i hnumeral
    have hnumber : GivesIn p (parseNumber (Text.strip a)) := by
      intro x hx
      apply hp a ha x
      exact Number.spelledBy_of_parse (Text.strip_strip a) hnumeral (mapError_eq_ok.mp hx)
    exact hnumber.bind fun x hx => givesIn_ok (Value.holds_number hx)
  · exact givesIn_error _

theorem holds_ofTag (o : Options) (d : Declaration) {tag : Tag}
    (hp : tag.TakesNumber o d → ∀ a, tag.argument = some a →
      ∀ x, Number.SpelledBy (Text.strip a) x → p x) :
    GivesIn (Holds p) (ofTag o d tag) := by
  unfold ofTag
  cases hk : tag.kind? with
  | none => exact givesIn_ok trivial
  | some k =>
    cases k with
    | limit l => exact holds_ofLimit (hp (.inl ⟨l, hk⟩))
    | default =>
      simp only [ofDefault]
      split
      · exact givesIn_error _
      · rename_i a ha
        exact holds_literalKeyword fun hallowed => hp (.inr (.inr ⟨hk, hallowed⟩)) a ha
    | const =>
      simp only [ofConst]
      split
      · exact givesIn_error _
      · rename_i a ha
        exact holds_literalKeyword fun _ => hp (.inr (.inl hk)) a ha
    | required | condition | sort | breadcrumb => exact givesIn_ok trivial
    | uniqueItems => exact givesIn_ok (Value.holds_bool true)
    | uuid | email => exact givesIn_ok (Value.holds_text _)
    | enum =>
      simp only [ofEnum]
      split
      · exact givesIn_error _
      · exact givesIn_ok (Value.holds_map_text _ _)
    | ref =>
      simp only [ofRef]
      split
      · exact givesIn_error _
      · exact givesIn_ok (Value.holds_text _)
    | ui =>
      refine GivesIn.bind (givesIn_any (needArgument tag)) fun a _ => ?_
      exact GivesIn.bind (givesIn_any _) fun order _ => givesIn_ok trivial
    | format =>
      refine GivesIn.bind (givesIn_any (needArgument tag)) fun a _ => givesIn_ok ?_
      split
      · exact trivial
      · exact Value.holds_text _
    | pattern => exact (givesIn_any _).map fun a _ => Value.holds_text _
    | can => exact (givesIn_any _).map fun a _ => trivial

theorem holds_timestampOrEmpty : FieldState.timestampOrEmpty.Holds p := by
  intro x hx
  simp [FieldState.timestampOrEmpty, Value.numbers, Value.numbersItems, Value.numbersFields] at hx

theorem Holds.onSchema {e : Effect} (he : e.Holds p) {schema : Fields Value}
    (h : Fields.Holds p schema) : Fields.Holds p (e.onSchema schema) := by
  cases e with
  | keyword key v => exact h.put he
  | timestampOrEmpty => exact h.erase.put holds_timestampOrEmpty
  | require | hint | permit | ignore => exact h

theorem holds_foldl_onSchema {es : List Effect} (hes : ∀ e ∈ es, e.Holds p)
    {schema : Fields Value} (h : Fields.Holds p schema) :
    Fields.Holds p (es.foldl onSchema schema) := by
  induction es generalizing schema with
  | nil => exact h
  | cons e es ih =>
    obtain ⟨he, hrest⟩ := List.forall_mem_cons.mp hes
    exact ih hrest (he.onSchema h)

end Effect

namespace FieldType

theorem holds_primitive (name : Text) : Fields.Holds p (primitive name) := by
  unfold primitive
  repeat' split
  all_goals simp [Fields.Holds, Value.holds_text, Value.ofText]

theorem holds_itemSchema (i : Item) : Fields.Holds p (itemSchema i) := by
  cases i with
  | reference name => exact Fields.holds_single (Value.holds_text _)
  | primitive name => exact holds_primitive name

theorem holds_arraySchema (i : Item) : Fields.Holds p (arraySchema i) := by
  have hitems : (Value.object (itemSchema i)).Holds p := Value.holds_object.mpr (holds_itemSchema i)
  exact Fields.holds_pair (Value.holds_text _) hitems

theorem holds_resolve {field rawType : Text} {found tags : List Tag} {schema : Fields Value}
    (h : resolve field rawType found = .ok (schema, tags)) : Fields.Holds p schema := by
  unfold resolve at h
  split at h
  · unfold resolveArray at h
    split at h
    · cases h
      exact holds_arraySchema _
    · cases h
  · cases h
    exact holds_primitive _

end FieldType

namespace Rule

open Attempt

/-- The numbers of both schemas of the rule have the property. -/
def Holds (p : Number → Prop) (r : Rule) : Prop :=
  Fields.Holds p r.antecedent ∧ Fields.Holds p r.consequent

theorem Holds.toValue {r : Rule} (h : r.Holds p) : r.toValue.Holds p := by
  refine Value.holds_object.mpr (Fields.holds_pair ?_ ?_)
  · exact Value.holds_object.mpr h.1
  · exact Value.holds_object.mpr h.2

theorem holds_keywordValue {kind? : Option Kind} {a : Text}
    (hp : kind? ≠ some .enum → ∀ x, Number.SpelledBy (Text.strip a) x → p x) :
    GivesIn (Value.Holds p) (keywordValue kind? a) := by
  unfold keywordValue
  split
  · apply givesIn_ok
    rw [Value.texts, List.map_map]
    exact Value.holds_map_text _ _
  · rename_i henum
    intro v hv
    exact Literal.holds_of_coerce (fun _ => hp henum) (mapError_eq_ok.mp hv)

theorem holds_addCondition {expression : Text} {keywords : Fields Value} {tag : Tag}
    (hp : tag.kind? ≠ some .enum → ∀ a, tag.argument = some a →
      ∀ x, Number.SpelledBy (Text.strip a) x → p x)
    (h : Fields.Holds p keywords) :
    GivesIn (Fields.Holds p) (addCondition expression keywords tag) := by
  unfold addCondition
  split
  · exact givesIn_error _
  · rename_i a ha
    exact (holds_keywordValue fun henum => hp henum a ha).map fun v hv => h.put hv

theorem holds_wrap (strict : Bool) (segment : Text) {inner : Fields Value}
    (h : Fields.Holds p inner) : Fields.Holds p (wrap strict segment inner) := by
  have hproperty : Fields.Holds p [(Text.str segment, .object inner)] :=
    Fields.holds_single (Value.holds_object.mpr h)
  refine Fields.holds_cons.mpr ⟨Value.holds_object.mpr hproperty, ?_⟩
  split
  · exact Fields.holds_single (Value.holds_map_text Text.str [segment])
  · exact Fields.holds_nil

theorem holds_nest (strict : Bool) (path : List Text) {inner : Fields Value}
    (h : Fields.Holds p inner) : Fields.Holds p (nest strict path inner) := by
  induction path with
  | nil => exact h
  | cons segment path ih => exact holds_wrap strict segment ih

theorem holds_require (names : List Text) {done : Fields Value} (h : Fields.Holds p done) :
    Fields.Holds p (require names done) := by
  have hnew : ∀ v ∈ names.map Value.ofText, v.Holds p :=
    Value.holds_array.mp (Value.holds_map_text _ names)
  unfold require
  dsimp only
  split
  · rename_i old hold
    apply h.put
    rw [Value.holds_array, List.forall_mem_append]
    exact ⟨Value.holds_array.mp (h.get? hold), hnew⟩
  · exact h.put (Value.holds_array.mpr hnew)

theorem holds_setTarget {target keyword : String} {v : Value} (hv : v.Holds p)
    {done : Fields Value} (h : Fields.Holds p done) :
    GivesIn (Fields.Holds p) (setTarget target keyword v done) := by
  unfold setTarget
  split
  · have hkeyword : (Value.object [(keyword, v)]).Holds p :=
      Value.holds_object.mpr (Fields.holds_single hv)
    exact givesIn_ok (h.put (Value.holds_object.mpr (Fields.holds_single hkeyword)))
  · rename_i targets htargets
    have htable := Value.holds_object.mp (h.get? htargets)
    have hkeywords := htable.fieldsAt target
    exact givesIn_ok (h.put (Value.holds_object.mpr
      (htable.put (Value.holds_object.mpr (hkeywords.put hv)))))
  · exact givesIn_error _

theorem holds_addAction {expression : Text} {done : Fields Value} {tag : Tag}
    (hp : tag.kind? ≠ some .enum → ∀ a, SetsKeyword tag a →
      ∀ x, Number.SpelledBy (Text.strip a) x → p x)
    (h : Fields.Holds p done) :
    GivesIn (Fields.Holds p) (addAction expression done tag) := by
  unfold addAction
  split
  · exact givesIn_error _
  · rename_i a ha
    split
    · exact givesIn_ok (holds_require _ h)
    · rename_i hrequired
      split
      · rename_i target value htarget
        have hvalue := holds_keywordValue fun henum =>
          hp henum value ⟨hrequired, a, target, ha, htarget⟩
        exact hvalue.bind fun v hv => holds_setTarget hv h
      · exact givesIn_ok (h.put (Value.holds_text _))

theorem holds_compile (env : Setting) {line : SourceLine}
    (hp : ∀ t, line.Offers env t → ∀ x, Number.SpelledBy t x → p x) :
    GivesIn (Holds p) (compile env.options line.text) := by
  rw [compile_eq]
  split
  · exact givesIn_error _
  · rename_i path conditionText actionText hparts
    intro r hr
    obtain ⟨conditions, hconditions, hr⟩ := bind_eq_ok.mp hr
    obtain ⟨actions, hactions, hr⟩ := bind_eq_ok.mp hr
    have hantecedent : GivesIn (Fields.Holds p)
        (buildAntecedent env.options path line.text conditions) := by
      refine GivesIn.map (givesIn_foldlM_of_mem ?_ Fields.holds_nil)
        fun keywords hk => holds_nest _ path hk
      intro tag htag keywords hk
      exact holds_addCondition (fun henum a ha =>
        hp _ (.condition hparts hconditions htag henum ha)) hk
    have hconsequent : GivesIn (Fields.Holds p) (buildConsequent line.text actions) := by
      refine givesIn_foldlM_of_mem ?_ Fields.holds_nil
      intro tag htag done hd
      exact holds_addAction (fun henum a ha => hp _ (.action hparts hactions htag henum ha)) hd
    unfold assemble at hr
    split at hr
    · cases hr
    · split at hr
      · cases hr
      · obtain ⟨antecedent, ha, hr⟩ := bind_eq_ok.mp hr
        obtain ⟨consequent, hc, hr⟩ := bind_eq_ok.mp hr
        cases hr
        exact ⟨hantecedent _ ha, hconsequent _ hc⟩

end Rule

namespace Gathered

/-- The numbers of the rules have the property. -/
def Holds (p : Number → Prop) (g : Gathered) : Prop := ∀ r ∈ g.rules, r.Holds p

variable {g new : Gathered}

theorem holds_of_rules (h : g.rules = []) : g.Holds p := by
  intro r hr
  rw [h] at hr
  cases hr

theorem Holds.absorb (h : g.Holds p) (hnew : new.Holds p) : (g.absorb new).Holds p :=
  List.forall_mem_append.mpr ⟨h, hnew⟩

theorem holds_unlessEmpty {empty : Bool} {key : String} {v : Value} (hv : v.Holds p) :
    Fields.Holds p (unlessEmpty empty key v) := by
  unfold unlessEmpty
  split
  · exact Fields.holds_nil
  · exact Fields.holds_single hv

theorem holds_permissionTable (table : Fields String) : (permissionTable table).Holds p := by
  refine Value.holds_object.mpr ?_
  rw [Fields.Holds, List.forall_mem_map]
  intro e _
  exact Value.holds_text _

theorem holds_fieldPermissionsValue : g.fieldPermissionsValue.Holds p := by
  rw [fieldPermissionsValue, Value.holds_array, List.forall_mem_map]
  intro e _
  exact Value.holds_object.mpr (Fields.holds_single (holds_permissionTable e.2))

theorem holds_permissions : Fields.Holds p g.permissions := by
  refine Fields.holds_append.mpr ⟨?_, ?_⟩
  · exact holds_unlessEmpty (holds_permissionTable _)
  · exact holds_unlessEmpty holds_fieldPermissionsValue

theorem holds_sort (rs : List SortRule) : (Value.array (rs.map SortRule.toValue)).Holds p := by
  rw [Value.holds_array, List.forall_mem_map]
  intro r _
  exact Value.holds_object.mpr (Fields.holds_pair (Value.holds_text _) (Value.holds_text _))

theorem holds_breadcrumb (rs : List BreadcrumbRule) :
    (Value.array (rs.map BreadcrumbRule.toValue)).Holds p := by
  rw [Value.holds_array, List.forall_mem_map]
  intro r _
  exact Value.holds_object.mpr (Fields.holds_pair (Value.holds_text _) (Value.holds_text _))

variable (hint : ∀ i, p (.int i))

include hint

theorem holds_hints (h : Hints) : h.toValue.Holds p := by
  intro x hx
  have horder : x = .int h.order := by
    simpa [Hints.toValue, Value.numbers, Value.numbersFields, Value.ofText, Value.int] using hx
  rw [horder]
  exact hint h.order

theorem holds_hintsValue : g.hintsValue.Holds p := by
  refine Value.holds_object.mpr ?_
  rw [Fields.Holds, List.forall_mem_map]
  intro e _
  exact holds_hints hint e.2

theorem Holds.plainEntries (h : g.Holds p) : Fields.Holds p g.plainEntries := by
  have hrules : (Value.array (g.rules.map Rule.toValue)).Holds p := by
    rw [Value.holds_array, List.forall_mem_map]
    intro r hr
    exact (h r hr).toValue
  simp only [Gathered.plainEntries, Fields.holds_append]
  refine ⟨⟨⟨⟨?_, ?_⟩, ?_⟩, ?_⟩, ?_⟩
  · exact holds_unlessEmpty (holds_hintsValue hint)
  · exact holds_unlessEmpty (Value.holds_map_text id _)
  · exact holds_unlessEmpty hrules
  · exact holds_unlessEmpty (holds_sort g.sort)
  · exact holds_unlessEmpty (holds_breadcrumb g.breadcrumb)

theorem Holds.entries (h : g.Holds p) : Fields.Holds p g.entries := by
  refine Fields.holds_append.mpr ⟨h.plainEntries hint, holds_unlessEmpty ?_⟩
  exact Value.holds_object.mpr holds_permissions

end Gathered

/-- The numbers of the entries have the property. -/
def Contribution.Holds (p : Number → Prop) (c : Contribution) : Prop :=
  Fields.Holds p c.properties ∧ c.gathered.Holds p

namespace Block

def Holds (p : Number → Prop) (b : Block) : Prop :=
  Fields.Holds p b.properties ∧ b.gathered.Holds p

variable {b : Block}

theorem Holds.absorb (h : b.Holds p) {c : Contribution} (hc : c.Holds p) : (b.absorb c).Holds p :=
  ⟨hc.1.putAll h.1, h.2.absorb hc.2⟩

theorem Holds.schema (h : b.Holds p) {further : Fields Value} (hfurther : Fields.Holds p further) :
    Fields.Holds p (b.schema further) := by
  have hbody : Fields.Holds p (b.body further) :=
    Fields.holds_cons.mpr ⟨Value.holds_text _,
      Fields.holds_cons.mpr ⟨Value.holds_object.mpr h.1, hfurther⟩⟩
  unfold Block.schema
  split
  · exact Fields.holds_cons.mpr ⟨Value.holds_text _, hbody⟩
  · exact hbody
  · exact Fields.holds_pair (Value.holds_text _) (Value.holds_object.mpr hbody)

end Block

theorem Addition.compile_of_rule {o : Options} {t : Text} {r : Rule}
    (h : ofStatement? o t = some (.ok (.rule r))) : Rule.compile o t = .ok r := by
  unfold ofStatement? at h
  split at h
  · obtain ⟨r', hr, heq⟩ := Attempt.map_eq_ok.mp (Option.some.inj h)
    cases heq
    exact hr
  · obtain ⟨r', -, heq⟩ := Attempt.map_eq_ok.mp (Option.some.inj h)
    cases heq
  · obtain ⟨r', -, heq⟩ := Attempt.map_eq_ok.mp (Option.some.inj h)
    cases heq
  · obtain ⟨r', -, heq⟩ := Attempt.map_eq_ok.mp (Option.some.inj h)
    cases heq
  · cases h

section Statement

variable {env : Setting} {line : SourceLine}
  (hp : ∀ t, line.Offers env t → ∀ x, Number.SpelledBy t x → p x)

include hp

theorem Addition.holds_gathered {a : Addition}
    (h : ofStatement? env.options line.text = some (.ok a)) : a.gathered.Holds p := by
  cases a with
  | rule r =>
    intro r' hr
    rw [List.mem_singleton.mp hr]
    exact Rule.holds_compile env hp r (compile_of_rule h)
  | sort | breadcrumb | permissions => exact Gathered.holds_of_rules rfl

theorem Contribution.holds_ofField {d : Declaration} {schema : Fields Value} {tags : List Tag}
    (hfield : Block.isTag line.text = false)
    (hprepare : Block.prepare env line = .ok (d, schema, tags)) :
    (ofField env.options d schema tags).Holds p := by
  obtain ⟨offset, found, -, -, hresolve⟩ := Block.prepare_eq_ok.mp hprepare
  have heffects : ∀ e ∈ Effect.ofTags env.options d tags, e.Holds p := by
    intro e he
    obtain ⟨tag, htag, hof⟩ := Effect.mem_ofTags.mp he
    apply Effect.holds_ofTag env.options d _ e hof
    intro hnumber a ha
    exact hp _ (.field hfield hprepare htag hnumber ha)
  have hschema := Effect.holds_foldl_onSchema heffects (FieldType.holds_resolve hresolve)
  refine ⟨Fields.holds_single (Value.holds_object.mpr hschema), Gathered.holds_of_rules ?_⟩
  apply List.flatMap_eq_nil_iff.mpr
  intro g hg
  obtain ⟨e, -, rfl⟩ := List.mem_map.mp hg
  cases e <;> rfl

theorem SourceLine.holds_contribution : (line.contribution env).Holds p := by
  have hnothing : (({} : Contribution)).Holds p := ⟨Fields.holds_nil, Gathered.holds_of_rules rfl⟩
  unfold SourceLine.contribution
  split
  · split
    · rename_i a hadds
      refine ⟨Fields.holds_nil, ?_⟩
      exact Addition.holds_gathered hp hadds
    · exact hnothing
  · rename_i hfield
    split
    · rename_i d schema tags hprepare
      exact Contribution.holds_ofField hp (Bool.eq_false_iff.mpr hfield) hprepare
    · exact hnothing

end Statement

def Document.Holds (p : Number → Prop) (d : Document) : Prop :=
  (∀ e ∈ d.definitions, Fields.Holds p e.2.schema) ∧ Fields.Holds p d.root

namespace Document

variable {d : Document} {b : Block} {schema : Fields Value}

theorem Holds.define (h : d.Holds p) (hschema : Fields.Holds p schema) :
    (d.define b schema).Holds p := by
  refine ⟨fun e he => ?_, h.2⟩
  rcases Fields.mem_put he with hnew | hold
  · rw [hnew]
    exact hschema
  · exact h.1 e hold

theorem Holds.register (h : d.Holds p) (hb : b.Holds p) : (d.register b).Holds p := by
  have hschema := hb.schema Fields.holds_nil
  unfold Document.register
  split
  · exact ⟨h.1, hschema⟩
  · exact h.define hschema

theorem Holds.publish (h : d.Holds p) (hschema : Fields.Holds p schema) :
    (d.publish b schema).Holds p := by
  unfold Document.publish
  split
  · exact ⟨h.1, hschema⟩
  · split
    · exact h.define hschema
    · exact h

theorem Holds.toValue (h : d.Holds p) : d.toValue.Holds p := by
  have hdefinitions : d.definitionsValue.Holds p := by
    refine Value.holds_object.mpr ?_
    rw [Fields.Holds, List.forall_mem_map]
    intro e he
    exact Value.holds_object.mpr (h.1 e he)
  exact Value.holds_object.mpr (Fields.holds_cons.mpr ⟨hdefinitions, h.2⟩)

end Document

namespace Machine

def Holds (p : Number → Prop) (m : Machine) : Prop :=
  m.document.Holds p ∧ ∀ b ∈ m.stack, b.Holds p

variable {env : Setting} {line : SourceLine} {m m' : Machine}

theorem Holds.enter (hm : m.Holds p) (h : Heading) : (m.enter h).Holds p := by
  have hblock : h.block.Holds p := ⟨Fields.holds_nil, Gathered.holds_of_rules rfl⟩
  exact ⟨hm.1.register hblock, List.forall_mem_cons.mpr ⟨hblock, hm.2⟩⟩

theorem Moves.holds (hint : ∀ i, p (.int i))
    (hp : ∀ t, line.Offers env t → ∀ x, Number.SpelledBy t x → p x) (hm : m.Holds p)
    (h : Moves env line m m') : m'.Holds p := by
  cases h with
  | definition h => exact hm.enter h
  | model h => exact Holds.enter (m := { m with modelLine := some line.number }) hm h
  | close b stack hstack hclose =>
    obtain ⟨hdocument, hblocks⟩ := hm
    rw [hstack] at hblocks
    obtain ⟨hb, hrest⟩ := List.forall_mem_cons.mp hblocks
    exact ⟨hdocument.publish (hb.schema (hb.2.entries hint)), hrest⟩
  | statement b stack hstack hline hok =>
    obtain ⟨hdocument, hblocks⟩ := hm
    rw [hstack] at hblocks
    obtain ⟨hb, hrest⟩ := List.forall_mem_cons.mp hblocks
    have hnew : (b.addStatement env line).state.Holds p := by
      rw [Block.state_addStatement hok]
      exact hb.absorb (SourceLine.holds_contribution hp)
    exact ⟨hdocument.publish (hnew.schema Fields.holds_nil), List.forall_mem_cons.mpr ⟨hnew, hrest⟩⟩

end Machine

/-- The numbers of a schema are integers, or read from the literals of its document. -/
theorem holds_compile {env : Setting} {text : Text} (hok : (compile env text).failure = none)
    (hint : ∀ i, p (.int i))
    (hp : ∀ line ∈ SourceLine.read text, ∀ t, line.Offers env t → ∀ x, Number.SpelledBy t x → p x) :
    (compile env text).state.Holds p := by
  have hstart : ({} : Machine).Holds p := ⟨⟨by simp, Fields.holds_nil⟩, by simp⟩
  obtain ⟨hfeed, -⟩ := Machine.run_failure_eq_none.mp hok
  have hend := Machine.feed_invariant
    (fun line hline m m' hm hmoves => hmoves.holds hint (hp line hline) hm) hstart hfeed
  change (Machine.run env (SourceLine.read text) {}).state.document.toValue.Holds p
  rw [Machine.run_state hfeed]
  exact hend.1.toValue

end ModelSchema
