import ModelSchema.Proofs.Rule
import ModelSchema.Proofs.Splitting

namespace ModelSchema

/-- The value of a literal that can be read. -/
def Literal.value (raw : Text) : Value := (coerce none raw).toOption.getD .null

namespace Rule

open Text (IsRun Balanced Shields)

/-- A tag with an argument. -/
structure Call where
  keyword : Text
  argument : Text

inductive Action where
  /-- `@required(name,name)` -/
  | require (names : List Text)
  /-- `@keyword(target,value)` -/
  | assign (keyword target value : Text)
  /-- `@keyword(argument)`, about the object itself -/
  | state (keyword argument : Text)

structure Written where
  path : List Text
  conditions : List Call
  actions : List Action

namespace Call

def text (c : Call) : Text := '@' :: (c.keyword ++ '(' :: (c.argument ++ [')']))

structure WellFormed (c : Call) : Prop where
  keyword : ∀ x ∈ c.keyword, Text.isWord x = true
  argument : Balanced c.argument

end Call

/-- The value is no number that is too long to be read. -/
def Readable (keyword raw : Text) : Prop :=
  keyword ≠ "enum".toList → ¬LongInteger (Text.strip raw)

namespace Action

def call : Action → Call
  | require names => ⟨"required".toList, List.intercalate [','] names⟩
  | assign keyword target value => ⟨keyword, target ++ ',' :: value⟩
  | state keyword argument => ⟨keyword, argument⟩

def WellFormed : Action → Prop
  | require names => ∀ n ∈ names, IsRun Text.isWord n
  | assign keyword target value => (∀ c ∈ keyword, Text.isWord c = true) ∧
      keyword ≠ "required".toList ∧ IsRun Text.isWord target ∧ Balanced value ∧
      Readable keyword value
  | state keyword argument => (∀ c ∈ keyword, Text.isWord c = true) ∧
      keyword ≠ "required".toList ∧ keyword ≠ "properties".toList ∧ Balanced argument ∧
      Shields (· == ',') 0 argument

end Action

namespace Written

def text (r : Written) : Text :=
  "@if(".toList ++ (List.intercalate ['.'] r.path ++ ':' :: ' ' ::
    (List.intercalate [' '] (r.conditions.map Call.text) ++ ',' :: ' ' ::
      (List.intercalate [' '] (r.actions.map fun a => a.call.text) ++ [')'])))

structure WellFormed (r : Written) : Prop where
  pathFull : r.path ≠ []
  path : ∀ segment ∈ r.path, IsRun Text.isWord segment
  conditionsFull : r.conditions ≠ []
  conditions : ∀ c ∈ r.conditions, c.WellFormed ∧ Readable c.keyword c.argument
  actionsFull : r.actions ≠ []
  actions : ∀ a ∈ r.actions, a.WellFormed

end Written

/-- The value of a keyword that is set to this text. -/
def meaning (keyword raw : Text) : Value :=
  if keyword = "enum".toList then .texts ((Literal.choices raw).map Text.str)
  else Literal.value raw

/-- One object inside the other along the path, and `inner` at its end. -/
def along (strict : Bool) (inner : Fields Value) : List Text → Fields Value
  | [] => inner
  | segment :: path =>
    ("properties", .object [(Text.str segment, .object (along strict inner path))]) ::
      if strict then [("required", .texts [Text.str segment])] else []

namespace Action

/-- The key that the action writes to. -/
def key : Action → String
  | require _ => "required"
  | assign .. => "properties"
  | state keyword _ => Text.str keyword

def names : Action → List Text
  | require names => names
  | _ => []

/-- The property, its keyword and the value. -/
def assignment? : Action → Option (String × String × Value)
  | assign keyword target value =>
    some (Text.str target, Text.str keyword, meaning keyword value)
  | _ => none

def statement? : Action → Option (String × Value)
  | state keyword argument => some (Text.str keyword, .ofText argument)
  | _ => none

end Action

/-- The properties with their keywords. -/
def properties (es : List (String × String × Value)) : Fields Value :=
  Fields.tabulate (es.map Prod.fst) fun target =>
    .object (Fields.ofEntries ((es.filter (·.1 = target)).map Prod.snd))

/-- What the actions leave under a key: all names that they require, all properties that they are
about, or the last text. -/
def valueAt (as : List Action) (key : String) : Value :=
  if key = "required" then .array ((as.flatMap Action.names).map Value.ofText)
  else if key = "properties" then .object (properties (as.filterMap Action.assignment?))
  else (Fields.get? key (as.filterMap Action.statement?).reverse).getD .null

/-- The schema that the actions stand for. -/
def effect (as : List Action) : Fields Value :=
  Fields.tabulate (as.map Action.key) (valueAt as)

/-- The schema that the conditions stand for. -/
def demand (strict : Bool) (path : List Text) (cs : List Call) : Fields Value :=
  along strict
    (Fields.ofEntries (cs.map fun c => (Text.str c.keyword, meaning c.keyword c.argument))) path

/-- The tag is this call, at some column. -/
def Call.Spells (c : Call) (tag : Tag) : Prop :=
  tag.name = c.keyword ∧ tag.argument = some c.argument

/-- Calls with a blank before each. -/
def spaced (cs : List Call) : Text := cs.flatMap fun c => ' ' :: c.text

theorem spaced_eq {cs : List Call} (h : cs ≠ []) :
    ' ' :: List.intercalate [' '] (cs.map Call.text) = spaced cs := by
  induction cs with
  | nil => exact absurd rfl h
  | cons c cs ih =>
    cases cs with
    | nil => simp [spaced]
    | cons d cs =>
      have hrest := ih (by simp)
      simp only [List.map_cons] at hrest
      rw [List.map_cons, List.map_cons, List.intercalate_cons_cons, List.append_assoc,
        List.singleton_append, hrest]
      rfl

theorem reading_spaced {cs : List Call} (h : ∀ c ∈ cs, c.WellFormed) (column : Int) :
    ∃ tags, Tag.Reading column (spaced cs) tags ∧ List.Forall₂ Call.Spells cs tags := by
  induction cs generalizing column with
  | nil => exact ⟨[], .nil, .nil⟩
  | cons c cs ih =>
    have hc := h c (by simp)
    obtain ⟨tags, hreading, hspells⟩ := ih (fun d hd => h d (by simp [hd]))
      (column + 1 + c.keyword.length + c.argument.length + 3)
    refine ⟨⟨c.keyword, some c.argument, column + 1⟩ :: tags, ?_, .cons ⟨rfl, rfl⟩ hspells⟩
    have htext : spaced (c :: cs) =
        ' ' :: '@' :: (c.keyword ++ '(' :: (c.argument ++ ')' :: spaced cs)) := by
      simp [spaced, Call.text]
    rw [htext]
    exact .gap (by decide) (.call hc.keyword hc.argument hreading)

/-- A call closes what it opens, and what it holds is inside its parentheses. -/
theorem shields_call {c : Call} (h : c.WellFormed) : Shields (· == ',') 0 (' ' :: c.text) ∧
    (' ' :: c.text).count ')' = (' ' :: c.text).count '(' := by
  have hopen : '(' ∉ c.keyword := Text.not_mem_words h.keyword (by decide)
  have hclose : ')' ∉ c.keyword := Text.not_mem_words h.keyword (by decide)
  have hcomma : ',' ∉ c.keyword := Text.not_mem_words h.keyword (by decide)
  have hbalance := h.argument.2
  have htext : ' ' :: c.text = (' ' :: '@' :: c.keyword) ++ ('(' :: (c.argument ++ [')'])) := by
    simp [Call.text]
  rw [htext]
  constructor
  · refine Text.shields_append.mpr ⟨Text.shields_of_forall ?_, Text.shields_cons.mpr ⟨?_, ?_⟩⟩
    · intro x hx
      have hne : x ≠ ',' := by
        rintro rfl
        simp [hcomma] at hx
      simpa using hne
    · intro hsep
      exact absurd hsep (by decide)
    · refine Text.shields_append.mpr ⟨Text.shields_of_unclosed h.argument.1 ?_, ?_⟩
      · simp [List.count_eq_zero_of_not_mem hopen, List.count_eq_zero_of_not_mem hclose]
      · exact Text.shields_of_forall (by simp)
  · simp only [List.count_append, List.count_cons, List.count_nil, beq_iff_eq, Char.reduceEq,
      if_true, if_false, List.count_eq_zero_of_not_mem hopen,
      List.count_eq_zero_of_not_mem hclose]
    omega

theorem shields_spaced {cs : List Call} (h : ∀ c ∈ cs, c.WellFormed) :
    Shields (· == ',') 0 (spaced cs) ∧ (spaced cs).count ')' = (spaced cs).count '(' := by
  induction cs with
  | nil => exact ⟨Text.shields_nil, rfl⟩
  | cons c cs ih =>
    obtain ⟨hc, hcount⟩ := shields_call (h c (by simp))
    obtain ⟨hcs, hcounts⟩ := ih fun d hd => h d (by simp [hd])
    have hsplit : spaced (c :: cs) = (' ' :: c.text) ++ spaced cs := rfl
    have hdepth : (0 : Int) + (' ' :: c.text).count '(' - (' ' :: c.text).count ')' = 0 := by
      omega
    rw [hsplit]
    refine ⟨Text.shields_append.mpr ⟨hc, ?_⟩, ?_⟩
    · rw [hdepth]
      exact hcs
    · rw [List.count_append, List.count_append]
      omega

theorem path?_intercalate {path : List Text} (hfull : path ≠ [])
    (h : ∀ segment ∈ path, IsRun Text.isWord segment) :
    path? (List.intercalate ['.'] path) = some path := by
  have hsplit : Text.splitOn '.' (List.intercalate ['.'] path) = path :=
    Text.splitOn_intercalate hfull fun p hp => Text.not_mem_words (h p hp).2 (by decide)
  have hall : path.all Text.isWordText = true :=
    List.all_eq_true.mpr fun p hp => Text.isWordText_iff.mpr (h p hp)
  simp [path?, hsplit, hall]

theorem mem_intercalate {sep c : Char} {pieces : List Text}
    (h : c ∈ List.intercalate [sep] pieces) : c = sep ∨ ∃ p ∈ pieces, c ∈ p := by
  induction pieces with
  | nil => simp at h
  | cons p pieces ih =>
    cases pieces with
    | nil => exact .inr ⟨p, by simp, by simpa using h⟩
    | cons q pieces =>
      rw [List.intercalate_cons_cons, List.append_assoc, List.mem_append, List.mem_append,
        List.mem_singleton] at h
      rcases h with h | rfl | h
      · exact .inr ⟨p, by simp, h⟩
      · exact .inl rfl
      · rcases ih h with h | ⟨r, hr, hc⟩
        · exact .inl h
        · exact .inr ⟨r, by simp [hr], hc⟩

theorem mem_intercalate_words {sep c : Char} {words : List Text}
    (hwords : ∀ w ∈ words, IsRun Text.isWord w) (h : c ∈ List.intercalate [sep] words) :
    c = sep ∨ Text.isWord c = true := by
  rcases mem_intercalate h with hsep | ⟨w, hw, hc⟩
  · exact .inl hsep
  · exact .inr ((hwords w hw).2 c hc)

/-- The calls of a written rule. -/
def Written.calls (r : Written) : List Call := r.actions.map Action.call

theorem Written.text_eq {r : Written} (h : r.WellFormed) : r.text = "@if(".toList ++
    (List.intercalate ['.'] r.path ++ ':' :: (spaced r.conditions ++ ',' :: spaced r.calls) ++
      [')']) := by
  have hactions : r.calls ≠ [] := by simpa [calls] using h.actionsFull
  have hcalls : (r.actions.map fun a => a.call.text) = r.calls.map Call.text := by simp [calls]
  rw [text, hcalls, ← spaced_eq h.conditionsFull, ← spaced_eq hactions]
  simp only [List.append_assoc, List.cons_append]

theorem parts_text {r : Written} (h : r.WellFormed) :
    parts r.text = .ok (r.path, spaced r.conditions, spaced r.calls) := by
  have hcolon : ':' ∉ List.intercalate ['.'] r.path := by
    intro hmem
    exact absurd (mem_intercalate_words h.path hmem) (by decide)
  have hstripPath : Text.strip (List.intercalate ['.'] r.path) = List.intercalate ['.'] r.path := by
    have hblank {c : Char} (hc : c ∈ List.intercalate ['.'] r.path) : Text.isBlank c = false := by
      rcases mem_intercalate_words h.path hc with rfl | hword
      · decide
      · exact Text.isBlank_eq_false_of_isWord hword
    exact Text.trim_of_ends (fun c hc => hblank (List.mem_of_mem_head? hc))
      (fun c hc => hblank (List.mem_of_mem_getLast? hc))
  have hstrip : Text.strip r.text = r.text := by
    rw [Written.text_eq h, ← List.append_assoc]
    refine Text.trim_of_ends (fun c hc => ?_) (fun c hc => ?_)
    · obtain rfl : '@' = c := Option.some.inj hc
      decide
    · rw [List.getLast?_concat] at hc
      obtain rfl : ')' = c := Option.some.inj hc
      decide
  have hbody := Text.enclosed?_append "@if(".toList (List.intercalate ['.'] r.path ++
    ':' :: (spaced r.conditions ++ ',' :: spaced r.calls))
  have hcut := Text.cut?_eq_some.mpr ⟨(rfl : List.intercalate ['.'] r.path ++
    ':' :: (spaced r.conditions ++ ',' :: spaced r.calls) = _), hcolon⟩
  obtain ⟨hshields, hcount⟩ := shields_spaced fun c hc => (h.conditions c hc).1
  have hsplit := Text.splitTopLevel_first hshields hcount (c := ',') (by decide) (by decide)
    (by decide) (spaced r.calls)
  rw [parts, hstrip, Written.text_eq h, hbody]
  simp only [hcut, Option.bind_some, hstripPath, path?_intercalate h.pathFull h.path,
    Option.map_some, hsplit]

private theorem name_eq {name : Text} {s : String} (h : Text.str name = s) : name = s.toList := by
  rw [← h, Text.str, String.toList_ofList]

/-- A kind that has one name is found under that name only. -/
theorem kind_eq_iff {name : Text} {k : Kind} {s : String} (hs : Kind.ofName? s.toList = some k)
    (hone : ∀ e ∈ Kind.names, e.2 = k → e.1 = s) :
    Kind.ofName? name = some k ↔ name = s.toList := by
  constructor
  · intro h
    exact name_eq (hone _ (Kind.mem_names h) rfl)
  · intro h
    rw [h]
    exact hs

theorem kind_eq_enum {name : Text} : Kind.ofName? name = some .enum ↔ name = "enum".toList :=
  kind_eq_iff rfl (by decide)

theorem kind_eq_required {name : Text} :
    Kind.ofName? name = some .required ↔ name = "required".toList := kind_eq_iff rfl (by decide)

theorem keywordValue_eq {keyword raw : Text} (h : Readable keyword raw) :
    keywordValue (Kind.ofName? keyword) raw = .ok (meaning keyword raw) := by
  by_cases henum : keyword = "enum".toList
  · rw [keywordValue, if_pos (kind_eq_enum.mpr henum), meaning, if_pos henum]
  · have hkind : Kind.ofName? keyword ≠ some .enum := fun hk => henum (kind_eq_enum.mp hk)
    rw [keywordValue, if_neg hkind, meaning, if_neg henum, Literal.value]
    cases hcoerce : Literal.coerce none raw with
    | ok v => rfl
    | error f =>
      have hlong := (Literal.coerce_eq_error.mp ⟨f, hcoerce⟩).2
      exact absurd hlong (h henum)

theorem addConditions_eq {cs : List Call} {tags : List Tag}
    (hspells : List.Forall₂ Call.Spells cs tags) (h : ∀ c ∈ cs, Readable c.keyword c.argument)
    (expression : Text) (done : Fields Value) :
    tags.foldlM (addCondition expression) done = .ok (Fields.putAll
      (cs.map fun c => (Text.str c.keyword, meaning c.keyword c.argument)) done) := by
  induction hspells generalizing done with
  | nil => rfl
  | @cons c tag cs tags hc hspells ih =>
    have hvalue := keywordValue_eq (h c (by simp))
    have hstep : addCondition expression done tag =
        .ok (done.put (Text.str c.keyword) (meaning c.keyword c.argument)) := by
      simp only [addCondition, hc.2, Tag.kind?, hc.1, hvalue, Except.map]
    rw [List.foldlM_cons, hstep]
    exact ih (fun d hd => h d (by simp [hd])) _

theorem nest_eq_along (strict : Bool) (path : List Text) (inner : Fields Value) :
    nest strict path inner = along strict inner path := by
  induction path with
  | nil => rfl
  | cons segment path ih =>
    change wrap strict segment (nest strict path inner) = _
    rw [ih]
    rfl

theorem listedNames_intercalate {names : List Text} (h : ∀ n ∈ names, IsRun Text.isWord n) :
    listedNames (List.intercalate [','] names) = names := by
  by_cases hfull : names = []
  · subst hfull
    rfl
  · have hsplit : Text.splitOn ',' (List.intercalate [','] names) = names :=
      Text.splitOn_intercalate hfull fun n hn => Text.not_mem_words (h n hn).2 (by decide)
    have hstrip : names.map Text.strip = names := by
      rw [List.map_congr_left fun n hn => Text.strip_of_words (h n hn).2, List.map_id']
    rw [listedNames, hsplit, hstrip, List.filter_eq_self]
    intro n hn
    simpa using (h n hn).1

theorem target?_pair {target value : Text} (h : IsRun Text.isWord target) :
    target? (target ++ ',' :: value) = some (target, Text.strip value) := by
  have hnot {c : Char} (hc : Text.isWord c = false) : c ∉ target := Text.not_mem_words h.2 hc
  have hshields : Shields (· == ',') 0 target := by
    apply Text.shields_of_forall
    intro c hc
    have hne : c ≠ ',' := by
      rintro rfl
      exact hnot (by decide) hc
    simpa using hne
  have hcount : target.count ')' = target.count '(' := by
    rw [List.count_eq_zero_of_not_mem (hnot (by decide)),
      List.count_eq_zero_of_not_mem (hnot (by decide))]
  have hsplit := Text.splitTopLevel_first hshields hcount (c := ',') (by decide) (by decide)
    (by decide) value
  simp only [target?, hsplit, Text.strip_of_words h.2, Text.isWordText_iff.mpr h, if_true]

theorem target?_of_shields {argument : Text} (h : Shields (· == ',') 0 argument) :
    target? argument = none := by
  rw [target?, Text.splitTopLevel_of_shields h]

theorem meaning_strip (keyword raw : Text) :
    meaning keyword (Text.strip raw) = meaning keyword raw := by
  have hliteral : Literal.value (Text.strip raw) = Literal.value raw := by
    simp only [Literal.value, Literal.coerce, Text.strip_strip]
  rw [meaning, meaning, Literal.choices_strip, hliteral]

theorem ofEntries_concat {α : Type} (es : Fields α) (k : String) (v : α) :
    Fields.ofEntries (es ++ [(k, v)]) = (Fields.ofEntries es).put k v := by
  simp [Fields.ofEntries, Fields.putAll]

/-- The keywords of one property among others. -/
def keywordsOf (es : List (String × String × Value)) (target : String) : Fields Value :=
  Fields.ofEntries ((es.filter (·.1 = target)).map Prod.snd)

theorem properties_concat (es : List (String × String × Value)) (target keyword : String)
    (v : Value) : properties (es ++ [(target, keyword, v)]) =
      (properties es).put target (.object ((keywordsOf es target).put keyword v)) := by
  have hvalue : (keywordsOf es target).put keyword v =
      keywordsOf (es ++ [(target, keyword, v)]) target := by
    simp [keywordsOf, ofEntries_concat]
  rw [hvalue, properties, List.map_append]
  refine Fields.tabulate_concat fun l _ hl => ?_
  have hne : ¬target = l := fun e => hl e.symm
  simp [hne]

theorem get?_properties (es : List (String × String × Value)) (target : String) :
    (((properties es).get? target).bind Value.fields?).getD [] = keywordsOf es target := by
  rw [properties, Fields.get?_tabulate]
  split
  · rfl
  · rename_i hnone
    have hfilter : es.filter (·.1 = target) = [] := by
      rw [List.filter_eq_nil_iff]
      intro e he
      have hne : e.1 ≠ target := fun h => hnone (List.mem_map.mpr ⟨e, he, h⟩)
      simpa using hne
    rw [keywordsOf, hfilter]
    rfl

/-- An action changes the value under its own key only. -/
theorem valueAt_concat (as : List Action) (a : Action) {key : String} (h : key ≠ a.key) :
    valueAt (as ++ [a]) key = valueAt as key := by
  unfold valueAt
  cases a with
  | require names =>
    have hkey : ¬key = "required" := h
    simp [hkey, Action.assignment?, Action.statement?, List.filterMap_cons]
  | assign keyword target value =>
    have hkey : ¬key = "properties" := h
    simp [hkey, Action.names, Action.statement?, List.filterMap_cons]
  | state keyword argument =>
    have hkey : ¬Text.str keyword = key := Ne.symm h
    simp [Action.names, Action.assignment?, Action.statement?, List.filterMap_cons, Fields.get?,
      hkey]

theorem effect_concat (as : List Action) (a : Action) :
    effect (as ++ [a]) = (effect as).put a.key (valueAt (as ++ [a]) a.key) := by
  rw [effect, List.map_append]
  exact Fields.tabulate_concat fun l _ hl => valueAt_concat as a hl

theorem require_effect (as : List Action) (names : List Text) :
    require names (effect as) = effect (as ++ [.require names]) := by
  have hvalue : valueAt (as ++ [.require names]) "required" =
      .array ((as.flatMap Action.names).map Value.ofText ++ names.map Value.ofText) := by
    simp [valueAt, Action.names]
  rw [effect_concat, Action.key, hvalue, require, effect, Fields.get?_tabulate]
  by_cases hmem : "required" ∈ as.map Action.key
  · simp [hmem, valueAt]
  · have hnone : as.flatMap Action.names = [] := by
      rw [List.flatMap_eq_nil_iff]
      intro a ha
      cases a with
      | require ns => exact absurd (List.mem_map.mpr ⟨_, ha, rfl⟩) hmem
      | assign _ _ _ => rfl
      | state _ _ => rfl
    simp [hmem, hnone]

theorem setTarget_effect (as : List Action) (keyword target value : Text) :
    setTarget (Text.str target) (Text.str keyword) (meaning keyword value) (effect as) =
      .ok (effect (as ++ [.assign keyword target value])) := by
  let es := as.filterMap Action.assignment?
  have hvalue : valueAt (as ++ [.assign keyword target value]) "properties" =
      .object ((properties es).put (Text.str target)
        (.object ((keywordsOf es (Text.str target)).put (Text.str keyword)
          (meaning keyword value)))) := by
    rw [← properties_concat]
    simp [valueAt, Action.assignment?, es]
  have hget : (effect as).get? "properties" =
      if "properties" ∈ as.map Action.key then some (.object (properties es)) else none := by
    rw [effect, Fields.get?_tabulate]
    rfl
  rw [effect_concat, Action.key, hvalue, setTarget, hget]
  by_cases hmem : "properties" ∈ as.map Action.key
  · simp only [hmem, if_true, get?_properties]
  · have hnone : es = [] := by
      rw [List.filterMap_eq_nil_iff]
      intro a ha
      cases a with
      | require _ => rfl
      | assign _ _ _ => exact absurd (List.mem_map.mpr ⟨_, ha, rfl⟩) hmem
      | state _ _ => rfl
    simp only [hmem, if_false, hnone]
    rfl

theorem put_effect (as : List Action) {keyword : Text} (argument : Text)
    (hrequired : keyword ≠ "required".toList) (hproperties : keyword ≠ "properties".toList) :
    (effect as).put (Text.str keyword) (.ofText argument) =
      effect (as ++ [.state keyword argument]) := by
  have hr : ¬Text.str keyword = "required" := fun h => hrequired (name_eq h)
  have hp : ¬Text.str keyword = "properties" := fun h => hproperties (name_eq h)
  have hvalue : valueAt (as ++ [.state keyword argument]) (Text.str keyword) =
      .ofText argument := by
    simp [valueAt, hr, hp, Action.statement?, Fields.get?]
  rw [effect_concat, Action.key, hvalue]

theorem addAction_required {tag : Tag} {a : Text} (hkind : tag.kind? = some .required)
    (ha : tag.argument = some a) (expression : Text) (done : Fields Value) :
    addAction expression done tag = .ok (require (listedNames a) done) := by
  simp only [addAction, ha, hkind, if_true]

theorem addAction_target {tag : Tag} {a target value : Text} (hkind : tag.kind? ≠ some .required)
    (ha : tag.argument = some a) (htarget : target? a = some (target, value)) (expression : Text)
    (done : Fields Value) : addAction expression done tag =
      (keywordValue tag.kind? value).bind
        (setTarget (Text.str target) (Text.str tag.name) · done) := by
  simp only [addAction, ha, hkind, if_false, htarget]

theorem addAction_flat {tag : Tag} {a : Text} (hkind : tag.kind? ≠ some .required)
    (ha : tag.argument = some a) (htarget : target? a = none) (expression : Text)
    (done : Fields Value) : addAction expression done tag =
      .ok (done.put (Text.str tag.name) (.ofText a)) := by
  simp only [addAction, ha, hkind, if_false, htarget]

theorem addAction_effect (expression : Text) (as : List Action) {a : Action} (ha : a.WellFormed)
    {tag : Tag} (htag : a.call.Spells tag) :
    addAction expression (effect as) tag = .ok (effect (as ++ [a])) := by
  obtain ⟨hname, hargument⟩ := htag
  have hkind : tag.kind? = some .required ↔ a.call.keyword = "required".toList := by
    rw [Tag.kind?, hname, kind_eq_required]
  cases a with
  | require names =>
    have hlisted : listedNames (Action.require names).call.argument = names :=
      listedNames_intercalate ha
    rw [addAction_required (hkind.mpr rfl) hargument, hlisted, require_effect]
  | assign keyword target value =>
    obtain ⟨-, hrequired, htarget, -, hread⟩ := ha
    have hstrip : Readable keyword (Text.strip value) := by
      rw [Readable, Text.strip_strip]
      exact hread
    have hvalue : keywordValue tag.kind? (Text.strip value) = .ok (meaning keyword value) := by
      rw [Tag.kind?, hname, ← meaning_strip]
      exact keywordValue_eq hstrip
    rw [addAction_target (mt hkind.mp hrequired) hargument (target?_pair htarget), hvalue, hname,
      ← setTarget_effect]
    rfl
  | state keyword argument =>
    obtain ⟨-, hrequired, hproperties, -, hshields⟩ := ha
    rw [addAction_flat (mt hkind.mp hrequired) hargument (target?_of_shields hshields), hname,
      ← put_effect as argument hrequired hproperties]
    rfl

theorem addActions_effect (expression : Text) {as : List Action} (h : ∀ a ∈ as, a.WellFormed)
    {tags : List Tag} (hspells : List.Forall₂ Call.Spells (as.map Action.call) tags)
    (before : List Action) :
    tags.foldlM (addAction expression) (effect before) = .ok (effect (before ++ as)) := by
  induction as generalizing tags before with
  | nil =>
    cases hspells
    simp [pure, Except.pure]
  | cons a as ih =>
    obtain _ | ⟨htag, hspells⟩ := hspells
    rw [List.foldlM_cons, addAction_effect expression before (h a (by simp)) htag]
    have hrest := ih (fun b hb => h b (by simp [hb])) hspells (before ++ [a])
    rw [List.append_assoc, List.singleton_append] at hrest
    exact hrest

theorem Action.WellFormed.call {a : Action} (h : a.WellFormed) : a.call.WellFormed := by
  cases a with
  | require names =>
    have hkeyword : "required".toList.all Text.isWord = true := by decide
    refine ⟨List.all_eq_true.mp hkeyword, Text.balanced_of_not_mem (fun hc => ?_) fun hc => ?_⟩
    · exact absurd (mem_intercalate_words h hc) (by decide)
    · exact absurd (mem_intercalate_words h hc) (by decide)
  | assign keyword target value =>
    obtain ⟨hkeyword, -, htarget, hvalue, -⟩ := h
    have hcomma : Balanced [','] := Text.balanced_of_not_mem (by decide) (by decide)
    have hfront : Balanced target := Text.balanced_of_not_mem
      (Text.not_mem_words htarget.2 (by decide)) (Text.not_mem_words htarget.2 (by decide))
    exact ⟨hkeyword, Text.balanced_append hfront (Text.balanced_append hcomma hvalue)⟩
  | state keyword argument => exact ⟨h.1, h.2.2.2.1⟩

theorem compile_text (o : Options) {r : Written} (h : r.WellFormed) : compile o r.text =
    .ok ⟨demand o.requireConditionProperties r.path r.conditions, effect r.actions⟩ := by
  have hcalls : ∀ c ∈ r.calls, c.WellFormed := by
    intro c hc
    obtain ⟨a, ha, rfl⟩ := List.mem_map.mp hc
    exact (h.actions a ha).call
  obtain ⟨conditions, hreadConditions, hconditions⟩ :=
    reading_spaced (fun c hc => (h.conditions c hc).1) (0 + 1)
  obtain ⟨actions, hreadActions, hactions⟩ := reading_spaced hcalls (0 + 1)
  have hscanConditions : Tag.scanPart (spaced r.conditions) = .ok conditions :=
    Attempt.mapError_eq_ok.mpr (Tag.scan_eq_ok.mpr hreadConditions)
  have hscanActions : Tag.scanPart (spaced r.calls) = .ok actions :=
    Attempt.mapError_eq_ok.mpr (Tag.scan_eq_ok.mpr hreadActions)
  have hfull {cs : List Call} {tags : List Tag} (hs : List.Forall₂ Call.Spells cs tags)
      (hne : cs ≠ []) : tags.isEmpty = false := by
    cases hs with
    | nil => exact absurd rfl hne
    | cons _ _ => rfl
  have hantecedent : buildAntecedent o r.path r.text conditions =
      .ok (demand o.requireConditionProperties r.path r.conditions) := by
    rw [buildAntecedent, addConditions_eq hconditions fun c hc => (h.conditions c hc).2,
      Except.map, nest_eq_along]
    rfl
  have hconsequent : buildConsequent r.text actions = .ok (effect r.actions) :=
    addActions_effect r.text h.actions hactions []
  rw [compile_eq, parts_text h]
  have hcallsFull : r.calls ≠ [] := by simpa [Written.calls] using h.actionsFull
  simp only [hscanConditions, hscanActions, bind, Except.bind, assemble,
    hfull hconditions h.conditionsFull, hfull hactions hcallsFull, Bool.false_eq_true, if_false,
    hantecedent, hconsequent]
  rfl

/-- What is written is compiled to what its parts stand for: the conditions at the end of the path,
and the names, keywords and texts of all actions. -/
theorem compile_written (o : Options) (r : Written) (h : r.WellFormed) :
    (compile o r.text).map toValue = .ok (.object
      [("if", .object (demand o.requireConditionProperties r.path r.conditions)),
        ("then", .object (effect r.actions))]) := by
  rw [compile_text o h]
  rfl

/-- Separators of every kind inside arguments, a keyword that is set twice, and actions of the three
kinds in turn. -/
def crossed : Written where
  path := ["a".toList, "b_1".toList]
  conditions := [⟨"const".toList, "7".toList⟩, ⟨"enum".toList, " 'x', y:(@z,w) ".toList⟩,
    ⟨"const".toList, "(a: @b(c), d)".toList⟩]
  actions := [.require ["n".toList, "m".toList], .assign "minimum".toList "t".toList " 1 ".toList,
    .state "note".toList "(p, q) @r".toList, .require ["k".toList],
    .assign "enum".toList "t".toList "u, v".toList,
    .assign "minimum".toList "t".toList "2.5".toList]

theorem readable_of_short {keyword raw : Text} (h : (Text.strip raw).length ≤ Number.maxDigits) :
    Readable keyword raw := by
  rintro - ⟨sign, digits, ht, -, -, hlong⟩
  rw [ht, List.length_append] at h
  omega

theorem compile_written_crossed : crossed.WellFormed ∧
    crossed.text = ("@if(a.b_1: @const(7) @enum( 'x', y:(@z,w) ) @const((a: @b(c), d)), ".toList ++
      "@required(n,m) @minimum(t, 1 ) @note((p, q) @r) @required(k) @enum(t,u, v) ".toList ++
      "@minimum(t,2.5))".toList) ∧
    (compile ⟨.typed, true⟩ crossed.text).map toValue = .ok (.object
      [("if", .object
        [("properties", .object
          [("a", .object
            [("properties", .object
              [("b_1", .object
                [("const", .text "(a: @b(c), d)"), ("enum", .texts ["x", "y:(@z", "w)"])])]),
              ("required", .texts ["b_1"])])]),
          ("required", .texts ["a"])]),
        ("then", .object
          [("required", .texts ["n", "m", "k"]),
            ("properties", .object
              [("t", .object
                [("minimum", Literal.value "2.5".toList), ("enum", .texts ["u", "v"])])]),
            ("note", .text "(p, q) @r")])]) := by
  have hwell : crossed.WellFormed := by
    refine ⟨by decide, by decide, by decide, ?_, by decide, ?_⟩
    · intro c hc
      have hall : ∀ c ∈ crossed.conditions, c.keyword.all Text.isWord = true ∧
          Balanced c.argument ∧ (Text.strip c.argument).length ≤ Number.maxDigits := by decide
      obtain ⟨hkeyword, hargument, hshort⟩ := hall c hc
      exact ⟨⟨List.all_eq_true.mp hkeyword, hargument⟩, readable_of_short hshort⟩
    · have hassigned {keyword target value : Text} (hword : keyword.all Text.isWord = true)
          (hkind : keyword ≠ "required".toList) (htarget : IsRun Text.isWord target)
          (hvalue : Balanced value) (hshort : (Text.strip value).length ≤ Number.maxDigits) :
          (Action.assign keyword target value).WellFormed :=
        ⟨List.all_eq_true.mp hword, hkind, htarget, hvalue, readable_of_short hshort⟩
      have hstated : (Action.state "note".toList "(p, q) @r".toList).WellFormed := by
        refine ⟨List.all_eq_true.mp ?_, ?_, ?_, ?_, ?_⟩ <;> decide
      have hpair : ∀ n ∈ ["n".toList, "m".toList], IsRun Text.isWord n := by decide
      have hsingle : ∀ n ∈ ["k".toList], IsRun Text.isWord n := by decide
      refine List.forall_mem_cons.mpr ⟨hpair, List.forall_mem_cons.mpr
        ⟨hassigned ?_ ?_ ?_ ?_ ?_, List.forall_mem_cons.mpr ⟨hstated, List.forall_mem_cons.mpr
          ⟨hsingle, List.forall_mem_cons.mpr ⟨hassigned ?_ ?_ ?_ ?_ ?_,
            List.forall_mem_singleton.mpr (hassigned ?_ ?_ ?_ ?_ ?_)⟩⟩⟩⟩⟩ <;> decide
  refine ⟨hwell, rfl, ?_⟩
  rw [compile_written _ crossed hwell]
  rfl

end Rule

end ModelSchema
