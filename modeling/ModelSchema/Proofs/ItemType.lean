import ModelSchema.Proofs.Decomposition
import ModelSchema.Proofs.Reference
import ModelSchema.Proofs.Seam

namespace ModelSchema.FieldType

open Text (IsRun EndsWord)

/-- The word that spells an item type. -/
def Item.word : Item → Text
  | .reference name => name
  | .primitive name => name

/-- What stands before the word. -/
def Item.opening : Item → Text
  | .reference _ => "array(@ref(".toList
  | .primitive _ => "array(".toList

/-- What stands after the word. -/
def Item.closing : Item → Text
  | .reference _ => "))".toList
  | .primitive _ => ")".toList

/-- The start of the type of an array with these items. -/
def Item.head (i : Item) : Text := i.opening ++ (i.word ++ i.closing)

theorem Item.head_append (i : Item) (rest : Text) :
    i.head ++ rest = i.opening ++ (i.word ++ (i.closing ++ rest)) := by
  rw [head, List.append_assoc, List.append_assoc]

theorem Item.endsWord_closing (i : Item) (rest : Text) : EndsWord (i.closing ++ rest) := by
  intro c hc
  cases i with
  | reference name =>
    obtain rfl : ')' = c := Option.some.inj hc
    decide
  | primitive name =>
    obtain rfl : ')' = c := Option.some.inj hc
    decide

theorem wordBetween?_append (before : Text) {after word : Text} (hword : IsRun Text.isWord word)
    (rest : Text) (hafter : EndsWord (after ++ rest)) :
    wordBetween? before after (before ++ (word ++ (after ++ rest))) = some word := by
  have hstart : Text.after? before (before ++ (word ++ (after ++ rest))) =
      some (word ++ (after ++ rest)) := Text.after?_eq_some.mpr rfl
  obtain ⟨htake, hdrop⟩ := Text.span_append hword.2 hafter
  have hends : Text.startsWith after (after ++ rest) = true :=
    Text.startsWith_iff.mpr (List.prefix_append after rest)
  have hne : word.isEmpty = false := by simpa using hword.1
  simp [wordBetween?, hstart, htake, hdrop, hends, hne]

theorem isRun_of_wordBetween? {before after t word : Text}
    (h : wordBetween? before after t = some word) : IsRun Text.isWord word := by
  obtain ⟨-, -, hchars⟩ := wordBetween?_eq_some h
  refine ⟨?_, hchars⟩
  unfold wordBetween? at h
  split at h
  · cases h
  · dsimp only at h
    split at h
    · rename_i hfits
      cases h
      have hne := (Bool.and_eq_true_iff.mp hfits).1
      simpa using hne
    · cases h

/-- A text that goes on with a word is no text that goes on with a tag. -/
theorem wordBetween?_reference_primitive {word : Text} (hword : IsRun Text.isWord word)
    (rest : Text) :
    wordBetween? "array(@ref(".toList "))".toList ("array(".toList ++ (word ++ rest)) = none := by
  cases hfound : wordBetween? "array(@ref(".toList "))".toList ("array(".toList ++ (word ++ rest))
    with
  | none => rfl
  | some name =>
    obtain ⟨tail, htext, -⟩ := wordBetween?_eq_some hfound
    have hboth : "array(".toList ++ (word ++ rest) =
        "array(".toList ++ ("@ref(".toList ++ (name ++ ("))".toList ++ tail))) := htext
    have htag := List.append_cancel_left hboth
    obtain ⟨c, more, rfl⟩ := List.exists_cons_of_ne_nil hword.1
    have hc : c = '@' := (List.cons.inj htag).1
    have hnot : Text.isWord '@' = false := by decide
    have hyes : Text.isWord c = true := hword.2 c (by simp)
    rw [hc, hnot] at hyes
    cases hyes

/-- A type is that of an array exactly if it starts with a head, and the head gives the items. -/
theorem item?_eq_some {rawType : Text} {i : Item} :
    item? rawType = some i ↔ IsRun Text.isWord i.word ∧ ∃ rest, rawType = i.head ++ rest := by
  constructor
  · intro h
    unfold item? at h
    split at h
    · rename_i name hname
      cases h
      obtain ⟨rest, htext, -⟩ := wordBetween?_eq_some hname
      have hhead := htext.trans (Item.head_append (.reference name) rest).symm
      exact ⟨isRun_of_wordBetween? hname, rest, hhead⟩
    · obtain ⟨name, hname, rfl⟩ := Option.map_eq_some_iff.mp h
      obtain ⟨rest, htext, -⟩ := wordBetween?_eq_some hname
      have hhead := htext.trans (Item.head_append (.primitive name) rest).symm
      exact ⟨isRun_of_wordBetween? hname, rest, hhead⟩
  · intro h
    obtain ⟨hword, rest, rfl⟩ := h
    have hfound := wordBetween?_append i.opening hword rest (i.endsWord_closing rest)
    rw [Item.head_append, item?]
    cases i with
    | reference name =>
      have hreference : wordBetween? "array(@ref(".toList "))".toList _ = some name := hfound
      rw [hreference]
    | primitive name =>
      have hprimitive : wordBetween? "array(".toList ")".toList _ = some name := hfound
      have hother : wordBetween? "array(@ref(".toList "))".toList
          ((Item.primitive name).opening ++ _) = none :=
        wordBetween?_reference_primitive hword ((Item.primitive name).closing ++ rest)
      rw [hprimitive, hother]
      rfl

/-- The tags of a head that begins at column `offset + 1`. -/
def Item.tags (offset : Int) : Item → List Tag
  | .reference name => [⟨"ref".toList, some name, offset + 7⟩]
  | .primitive _ => []

/-- The head up to its last parenthesis, which closes it. -/
theorem Item.head_eq (i : Item) : ∃ front, i.head = front ++ [')'] ∧
    (IsRun Text.isWord i.word → ∀ offset, Tag.scan offset front = .ok (i.tags offset)) := by
  have harray : '@' ∉ "array(".toList := by decide
  cases i with
  | reference name =>
    refine ⟨"array(".toList ++ '@' :: ("ref".toList ++ '(' :: (name ++ [')'])), ?_, ?_⟩
    · change "array(@ref(".toList ++ (name ++ "))".toList) = _
      simp
    · intro hword offset
      have hname : ∀ c ∈ "ref".toList, Text.isWord c = true :=
        List.all_eq_true.mp (by decide : "ref".toList.all Text.isWord = true)
      have hbalanced : Text.Balanced name :=
        Text.balanced_of_not_mem (Text.not_mem_words hword.2 (by decide))
          (Text.not_mem_words hword.2 (by decide))
      have hcolumn : offset + 1 + ("array(".toList.length : Nat) = offset + 7 := by
        have hlength : "array(".toList.length = 6 := by decide
        omega
      refine Tag.scan_eq_ok.mpr (Tag.Reading.gaps harray ?_)
      rw [hcolumn]
      exact Tag.Reading.call hname hbalanced .nil
  | primitive name =>
    refine ⟨"array(".toList ++ name, ?_, ?_⟩
    · change "array(".toList ++ (name ++ ")".toList) = _
      simp
    · intro hword offset
      have hnot : '@' ∉ "array(".toList ++ name := by
        have hname : '@' ∉ name := Text.not_mem_words hword.2 (by decide)
        simp [hname]
      have hreading : Tag.Reading (offset + 1) ("array(".toList ++ name ++ []) [] :=
        Tag.Reading.gaps hnot .nil
      rw [List.append_nil] at hreading
      exact Tag.scan_eq_ok.mpr hreading

/-- Behind a head the tags are those of the rest, as many columns further on as the head is
long. -/
theorem Item.scanAt_head {i : Item} (hword : IsRun Text.isWord i.word) {source : String}
    {line offset : Int} {rest : Text} {all : List Tag}
    (h : Tag.scanAt source line offset (i.head ++ rest) = .ok all) :
    ∃ more, Tag.scanAt source line offset rest = .ok more ∧
      all = i.tags offset ++ more.map (Tag.shift i.head.length) := by
  obtain ⟨front, hhead, hfront⟩ := i.head_eq
  have hscan : Tag.scanAt source line offset front = .ok (i.tags offset) :=
    Attempt.mapError_eq_ok.mpr (hfront hword offset)
  have hlength : (i.head.length : Int) = front.length + 1 := by
    rw [hhead, List.length_append, List.length_singleton]
    omega
  rw [hhead, List.append_assoc, List.singleton_append] at h
  obtain ⟨more, hmore, rfl⟩ :=
    (Tag.scanAt_seam hscan (by decide) (by decide) (by decide) rest all).mp h
  exact ⟨more, hmore, by rw [hlength]⟩

/-- The tag that goes to the items is the one in the head. -/
theorem dropItemTag_head (i : Item) (offset : Int) (more : List Tag) :
    dropItemTag i (i.tags offset ++ more) = more := by
  cases i with
  | primitive name => rfl
  | reference name =>
    have hraw : Tag.raw ⟨"ref".toList, some name, offset + 7⟩ =
        "@ref(".toList ++ name ++ [')'] := by simp [Tag.raw]
    simp only [dropItemTag, Item.tags, List.singleton_append]
    exact List.eraseP_cons_of_pos (decide_eq_true hraw)

theorem resolveArray_head {i : Item} (hword : IsRun Text.isWord i.word) {source : String}
    {line offset : Int} {rest : Text} {all : List Tag}
    (h : Tag.scanAt source line offset (i.head ++ rest) = .ok all) (field : Text) :
    ∃ more, Tag.scanAt source line offset rest = .ok more ∧
      resolveArray field (i.head ++ rest) all =
        .ok (arraySchema i, more.map (Tag.shift i.head.length)) := by
  obtain ⟨more, hmore, rfl⟩ := Item.scanAt_head hword h
  have hitem : item? (i.head ++ rest) = some i := item?_eq_some.mpr ⟨hword, rest, rfl⟩
  refine ⟨more, hmore, ?_⟩
  rw [resolveArray, hitem]
  dsimp only
  rw [dropItemTag_head]

theorem pointer_of_words {name : Text} (h : ∀ c ∈ name, Text.isWord c = true) :
    pointer name = "#/$defs/" ++ Text.str (Text.lower name) := by
  rw [pointer, Text.strip_of_words h, definitionKey]

/-- The type of an array is accepted exactly if it starts with a head, `array(word)` or
`array(@ref(word))`. The word gives the items, the tags of the field are those of the text after
the head, and a type without a head is reported. -/
theorem resolveArray_takes_head (source : String) (line offset : Int) (field rawType : Text)
    (tags : List Tag) (hscan : Tag.scanAt source line offset rawType = .ok tags) :
    ((∃ r, resolveArray field rawType tags = .ok r) ↔
        ∃ w s, IsRun Text.isWord w ∧ (rawType = "array(".toList ++ (w ++ (")".toList ++ s)) ∨
          rawType = "array(@ref(".toList ++ (w ++ ("))".toList ++ s)))) ∧
      (∀ w s, IsRun Text.isWord w → rawType = "array(".toList ++ (w ++ (")".toList ++ s)) →
        ∃ more, Tag.scanAt source line offset s = .ok more ∧
          resolveArray field rawType tags =
            .ok ([("type", .text "array"), ("items", .object (primitive w))],
              more.map (Tag.shift ("array(".toList ++ (w ++ ")".toList)).length))) ∧
      (∀ w s, IsRun Text.isWord w → rawType = "array(@ref(".toList ++ (w ++ ("))".toList ++ s)) →
        ∃ more, Tag.scanAt source line offset s = .ok more ∧
          resolveArray field rawType tags =
            .ok ([("type", .text "array"),
                ("items", .object [("$ref", .text ("#/$defs/" ++ Text.str (Text.lower w)))])],
              more.map (Tag.shift ("array(@ref(".toList ++ (w ++ "))".toList)).length))) ∧
      ((¬∃ r, resolveArray field rawType tags = .ok r) →
        resolveArray field rawType tags = .error (.because (.arrayType field rawType))) := by
  refine ⟨⟨?_, ?_⟩, ?_, ?_, ?_⟩
  · intro hok
    obtain ⟨r, hr⟩ := hok
    cases hitem : item? rawType with
    | none => rw [resolveArray, hitem] at hr; cases hr
    | some i =>
      obtain ⟨hword, s, htext⟩ := item?_eq_some.mp hitem
      cases i with
      | reference w => exact ⟨w, s, hword, .inr (htext.trans (Item.head_append (.reference w) s))⟩
      | primitive w => exact ⟨w, s, hword, .inl (htext.trans (Item.head_append (.primitive w) s))⟩
  · intro hform
    obtain ⟨w, s, hword, hprimitive | hreference⟩ := hform
    · have hitem : item? rawType = some (.primitive w) :=
        item?_eq_some.mpr ⟨hword, s, hprimitive.trans (Item.head_append (.primitive w) s).symm⟩
      exact ⟨_, by rw [resolveArray, hitem]⟩
    · have hitem : item? rawType = some (.reference w) :=
        item?_eq_some.mpr ⟨hword, s, hreference.trans (Item.head_append (.reference w) s).symm⟩
      exact ⟨_, by rw [resolveArray, hitem]⟩
  · intro w s hword htext
    obtain rfl := htext.trans (Item.head_append (.primitive w) s).symm
    exact resolveArray_head (i := .primitive w) hword hscan field
  · intro w s hword htext
    obtain rfl := htext.trans (Item.head_append (.reference w) s).symm
    have hresolve := resolveArray_head (i := .reference w) hword hscan field
    rw [arraySchema, itemSchema, pointer_of_words hword.2] at hresolve
    exact hresolve
  · intro hnone
    cases hitem : item? rawType with
    | none => rw [resolveArray, hitem]
    | some i => exact absurd ⟨_, by rw [resolveArray, hitem]⟩ hnone

/-- The tag of the head stands in the text after it once more, and inside another tag. -/
def repeatedType : Text := "array(@ref(Item)) @ref(Item) @ui(@ref(Item)) @required".toList

/-- The tags after the head. -/
def repeatedTags : List Tag :=
  [⟨"ref".toList, some "Item".toList, 23⟩, ⟨"ui".toList, some "@ref(Item)".toList, 34⟩,
    ⟨"required".toList, none, 50⟩]

theorem resolveArray_takes_head_repeated :
    Tag.scanAt "a" 3 4 repeatedType =
        .ok (⟨"ref".toList, some "Item".toList, 11⟩ :: repeatedTags) ∧
      resolveArray "f".toList repeatedType
          (⟨"ref".toList, some "Item".toList, 11⟩ :: repeatedTags) =
        .ok ([("type", .text "array"), ("items", .object [("$ref", .text "#/$defs/item")])],
          repeatedTags) := by
  have hscan : Tag.scanAt "a" 3 4 repeatedType =
      .ok (⟨"ref".toList, some "Item".toList, 11⟩ :: repeatedTags) := by decide
  obtain ⟨-, -, hreference, -⟩ := resolveArray_takes_head "a" 3 4 "f".toList _ _ hscan
  obtain ⟨more, hmore, hresolve⟩ :=
    hreference "Item".toList " @ref(Item) @ui(@ref(Item)) @required".toList (by decide) (by decide)
  have htags : Tag.scanAt "a" 3 4 " @ref(Item) @ui(@ref(Item)) @required".toList =
      .ok (repeatedTags.map (Tag.shift (-17))) := by decide
  obtain rfl : more = repeatedTags.map (Tag.shift (-17)) := Except.ok.inj (hmore.symm.trans htags)
  have hkey : "#/$defs/" ++ Text.str (Text.lower "Item".toList) = "#/$defs/item" := by decide
  have hcolumns : (repeatedTags.map (Tag.shift (-17))).map (Tag.shift
      ("array(@ref(".toList ++ ("Item".toList ++ "))".toList)).length) = repeatedTags := by decide
  rw [hkey, hcolumns] at hresolve
  exact ⟨hscan, hresolve⟩

end ModelSchema.FieldType
