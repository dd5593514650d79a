import ModelSchema.Proofs.Attempt
import ModelSchema.Proofs.Text
import ModelSchema.Proofs.Tokens

namespace ModelSchema

/-- A gap, and then tags, each with the gap that follows it. -/
structure Row where
  gap : Text
  rest : List (Tag × Text)

namespace Row

/-- The text of tags with the gaps that follow them. -/
def restText (rest : List (Tag × Text)) : Text := rest.flatMap fun p => p.1.raw ++ p.2

def text (r : Row) : Text := r.gap ++ restText r.rest

def tags (r : Row) : List Tag := r.rest.map Prod.fst

def gaps (r : Row) : List Text := r.gap :: r.rest.map Prod.snd

/-- The row is a reading of the text, whose first character stands at column `offset + 1`. -/
structure Reads (offset : Int) (t : Text) (r : Row) : Prop where
  text : r.text = t
  gaps : ∀ g ∈ r.gaps, '@' ∉ g
  names : ∀ tag ∈ r.tags, ∀ c ∈ tag.name, Text.isWord c = true
  arguments : ∀ tag ∈ r.tags, ∀ a ∈ tag.argument, Text.Balanced a
  /-- A tag without an argument goes as far as it can. -/
  ends : ∀ before tag gap after, r.rest = before ++ (tag, gap) :: after → tag.argument = none →
    ∀ c ∈ (gap ++ restText after).head?, Text.isWord c = false ∧ c ≠ '('
  columns : ∀ before tag gap after, r.rest = before ++ (tag, gap) :: after →
    tag.column = offset + 1 + (r.gap ++ restText before).length

variable {offset : Int} {t g g' : Text} {tag : Tag} {rest : List (Tag × Text)}

theorem restText_cons : restText ((tag, g) :: rest) = tag.raw ++ (g ++ restText rest) := by
  simp [restText]

theorem reads_nil : (⟨g, []⟩ : Row).Reads offset t ↔ g = t ∧ '@' ∉ g := by
  constructor
  · intro h
    exact ⟨by simpa [Row.text, restText] using h.text, h.gaps g (by simp [Row.gaps])⟩
  · rintro ⟨rfl, hg⟩
    refine ⟨by simp [Row.text, restText], by simpa [Row.gaps] using hg, by simp [tags],
      by simp [tags], ?_, ?_⟩
    · intro before tag gap after h
      simp at h
    · intro before tag gap after h
      simp at h

/-- The tag stands behind column `offset`, before the text `t`. -/
structure Fits (offset : Int) (t : Text) (tag : Tag) : Prop where
  name : ∀ c ∈ tag.name, Text.isWord c = true
  argument : ∀ a ∈ tag.argument, Text.Balanced a
  ends : tag.argument = none → ∀ c ∈ t.head?, Text.isWord c = false ∧ c ≠ '('
  column : tag.column = offset + 1

/-- A row is read from its first tag on. -/
theorem reads_cons : (⟨g, (tag, g') :: rest⟩ : Row).Reads offset t ↔
    ∃ u, t = g ++ (tag.raw ++ u) ∧ '@' ∉ g ∧ Fits (offset + g.length) u tag ∧
      (⟨g', rest⟩ : Row).Reads (offset + g.length + tag.raw.length) u := by
  constructor
  · intro h
    have hcolumn : tag.column = offset + g.length + 1 := by
      have h0 := h.columns [] tag g' rest rfl
      simp only [restText, List.flatMap_nil, List.append_nil] at h0
      omega
    refine ⟨g' ++ restText rest, ?_, h.gaps g (by simp [Row.gaps]), ?_, ?_⟩
    · rw [← h.text, Row.text, restText_cons]
    · exact ⟨h.names tag (by simp [tags]), h.arguments tag (by simp [tags]),
        h.ends [] tag g' rest rfl, hcolumn⟩
    · refine ⟨rfl, fun x hx => h.gaps x ?_, fun x hx => h.names x ?_,
        fun x hx => h.arguments x ?_, ?_, ?_⟩
      · exact List.mem_cons_of_mem g hx
      · exact List.mem_cons_of_mem tag hx
      · exact List.mem_cons_of_mem tag hx
      · intro before x gap after hsplit
        exact h.ends ((tag, g') :: before) x gap after (congrArg _ hsplit)
      · intro before x gap after hsplit
        have hx := h.columns ((tag, g') :: before) x gap after (congrArg _ hsplit)
        simp only [restText_cons, List.length_append] at hx ⊢
        omega
  · rintro ⟨u, rfl, hg, hfits, h⟩
    have htext : g' ++ restText rest = u := h.text
    refine ⟨by rw [Row.text, restText_cons, htext], ?_, ?_, ?_, ?_, ?_⟩
    · exact List.forall_mem_cons.mpr ⟨hg, h.gaps⟩
    · exact List.forall_mem_cons.mpr ⟨hfits.name, h.names⟩
    · exact List.forall_mem_cons.mpr ⟨hfits.argument, h.arguments⟩
    · intro before x gap after hsplit
      cases before with
      | nil =>
        obtain ⟨hhead, rfl⟩ := List.cons.inj hsplit
        obtain ⟨rfl, rfl⟩ := Prod.mk.inj hhead
        rw [htext]
        exact hfits.ends
      | cons p before =>
        obtain ⟨-, hrest⟩ := List.cons.inj hsplit
        exact h.ends before x gap after hrest
    · intro before x gap after hsplit
      cases before with
      | nil =>
        obtain ⟨hhead, -⟩ := List.cons.inj hsplit
        obtain ⟨rfl, -⟩ := Prod.mk.inj hhead
        have hcolumn := hfits.column
        simp only [restText, List.flatMap_nil, List.append_nil]
        omega
      | cons p before =>
        obtain ⟨rfl, hrest⟩ := List.cons.inj hsplit
        have hcolumn := h.columns before x gap after hrest
        simp only [restText_cons, List.length_append] at hcolumn ⊢
        omega

end Row

namespace Tag

variable {column : Int} {t u : Text} {tags : List Tag}

theorem Reading.gaps {g : Text} (hg : '@' ∉ g) (h : Reading (column + g.length) t tags) :
    Reading column (g ++ t) tags := by
  induction g generalizing column with
  | nil => simpa using h
  | cons c g ih =>
    obtain ⟨hc, hg⟩ : '@' ≠ c ∧ '@' ∉ g := by simpa using hg
    refine .gap (Ne.symm hc) (ih hg ?_)
    have hnext : column + 1 + g.length = column + (c :: g).length := by
      rw [List.length_cons]
      omega
    rw [hnext]
    exact h

theorem Reading.tag {tag : Tag} (hfits : Row.Fits column u tag)
    (h : Reading (column + 1 + tag.raw.length) u tags) :
    Reading (column + 1) (tag.raw ++ u) (tag :: tags) := by
  obtain ⟨name, argument, start⟩ := tag
  obtain rfl : start = column + 1 := hfits.column
  cases argument with
  | none =>
    simp only [raw, List.append_nil, List.cons_append, List.length_cons] at h ⊢
    refine .bare hfits.name (hfits.ends rfl) ?_
    have hnext : column + 1 + name.length + 1 = column + 1 + ((name.length + 1 : Nat) : Int) := by
      omega
    rw [hnext]
    exact h
  | some a =>
    simp only [raw, List.append_assoc, List.cons_append, List.nil_append, List.length_cons,
      List.length_append, List.length_nil] at h ⊢
    refine .call hfits.name (hfits.argument a rfl) ?_
    have hnext : column + 1 + name.length + a.length + 3 =
        column + 1 + ((name.length + (a.length + (0 + 1) + 1) + 1 : Nat) : Int) := by omega
    rw [hnext]
    exact h

theorem reading_of_row {offset : Int} {r : Row} (h : r.Reads offset t) :
    Reading (offset + 1) t r.tags := by
  obtain ⟨gap, rest⟩ := r
  induction rest generalizing offset t gap with
  | nil =>
    obtain ⟨rfl, hgap⟩ := Row.reads_nil.mp h
    have hend : Reading (offset + 1) (gap ++ []) [] := Reading.gaps hgap .nil
    rwa [List.append_nil] at hend
  | cons p rest ih =>
    obtain ⟨u, rfl, hgap, hfits, hrest⟩ := Row.reads_cons.mp h
    apply Reading.gaps hgap
    have hstart : offset + 1 + gap.length = offset + gap.length + 1 := by omega
    rw [hstart]
    apply Reading.tag hfits
    have hnext : offset + gap.length + 1 + p.1.raw.length =
        offset + gap.length + p.1.raw.length + 1 := by omega
    rw [hnext]
    exact ih p.2 hrest

theorem row_of_reading (h : Reading column t tags) :
    ∃ r : Row, r.Reads (column - 1) t ∧ r.tags = tags := by
  -- Each rule adds to the front of the row: a character to its first gap, or a tag with no gap.
  induction h with
  | nil => exact ⟨⟨[], []⟩, Row.reads_nil.mpr ⟨rfl, by simp⟩, rfl⟩
  | @gap column c t tags hc hrest ih =>
    obtain ⟨⟨g, rest⟩, hr, rfl⟩ := ih
    have hc' : '@' ≠ c := Ne.symm hc
    refine ⟨⟨c :: g, rest⟩, ?_, rfl⟩
    cases rest with
    | nil =>
      obtain ⟨rfl, hg⟩ := Row.reads_nil.mp hr
      exact Row.reads_nil.mpr ⟨rfl, by simp [hc', hg]⟩
    | cons p rest =>
      obtain ⟨u, rfl, hg, hfits, hrest⟩ := Row.reads_cons.mp hr
      have hnext : column + 1 - 1 + g.length = column - 1 + (c :: g).length := by
        rw [List.length_cons]
        omega
      rw [hnext] at hfits hrest
      exact Row.reads_cons.mpr ⟨u, rfl, by simp [hc', hg], hfits, hrest⟩
  | @bare column name t tags hname hend hrest ih =>
    obtain ⟨⟨g, rest⟩, hr, rfl⟩ := ih
    refine ⟨⟨[], (⟨name, none, column⟩, g) :: rest⟩, Row.reads_cons.mpr ⟨t, ?_⟩, rfl⟩
    refine ⟨by simp [raw], by simp, ⟨hname, by simp, fun _ => hend, by simp⟩, ?_⟩
    have hnext : column + name.length + 1 - 1 = column - 1 + (([] : Text).length : Int) +
        (raw ⟨name, none, column⟩).length := by
      simp only [raw, List.length_nil, List.append_nil, List.length_cons]
      omega
    rw [← hnext]
    exact hr
  | @call column name argument t tags hname hargument hrest ih =>
    obtain ⟨⟨g, rest⟩, hr, rfl⟩ := ih
    refine ⟨⟨[], (⟨name, some argument, column⟩, g) :: rest⟩, Row.reads_cons.mpr ⟨t, ?_⟩, rfl⟩
    refine ⟨by simp [raw], by simp, ⟨hname, by simpa using hargument, by simp, by simp⟩, ?_⟩
    have hnext : column + name.length + argument.length + 3 - 1 = column - 1 +
        (([] : Text).length : Int) + (raw ⟨name, some argument, column⟩).length := by
      simp only [raw, List.length_nil, List.length_cons, List.length_append]
      omega
    rw [← hnext]
    exact hr

theorem scan_eq_ok_iff_row {offset : Int} :
    scan offset t = .ok tags ↔ ∃ r : Row, r.Reads offset t ∧ r.tags = tags := by
  rw [scan_eq_ok]
  constructor
  · intro h
    have hrow := row_of_reading h
    have hoffset : offset + 1 - 1 = offset := by omega
    rwa [hoffset] at hrow
  · rintro ⟨r, hr, rfl⟩
    exact reading_of_row hr

end Tag

namespace Row

variable {offset : Int} {t : Text}

/-- A gap ends at the next `@`. -/
private theorem gap_unique {g h u v : Text} (hg : '@' ∉ g) (hh : '@' ∉ h)
    (e : g ++ '@' :: u = h ++ '@' :: v) : g = h ∧ u = v := by
  have hcut := Text.cut?_eq_some.mpr ⟨(rfl : g ++ '@' :: u = g ++ '@' :: u), hg⟩
  have hcut' := Text.cut?_eq_some.mpr ⟨e, hh⟩
  rw [hcut] at hcut'
  exact Prod.mk.inj (Option.some.inj hcut')

theorem reads_of_same_tags {r s : Row} (hr : r.Reads offset t) (hs : s.Reads offset t)
    (htags : r.tags = s.tags) : r = s := by
  obtain ⟨g, rest⟩ := r
  obtain ⟨h, further⟩ := s
  induction rest generalizing offset t g h further with
  | nil =>
    cases further with
    | nil =>
      obtain ⟨rfl, -⟩ := reads_nil.mp hr
      obtain ⟨rfl, -⟩ := reads_nil.mp hs
      rfl
    | cons q further => simp [tags] at htags
  | cons p rest ih =>
    cases further with
    | nil => simp [tags] at htags
    | cons q further =>
      obtain ⟨tag, g'⟩ := p
      obtain ⟨tag', h'⟩ := q
      obtain ⟨htag, hrests⟩ := List.cons.inj htags
      obtain rfl : tag = tag' := htag
      obtain ⟨u, rfl, hg, -, hrest⟩ := reads_cons.mp hr
      obtain ⟨v, htext, hh, -, hfurther⟩ := reads_cons.mp hs
      have hraw : ∃ w, tag.raw = '@' :: w := ⟨_, rfl⟩
      obtain ⟨w, hw⟩ := hraw
      rw [hw, List.cons_append, List.cons_append] at htext
      obtain ⟨rfl, hsame⟩ := gap_unique hg hh htext
      obtain rfl := List.append_cancel_left hsame
      have htail := ih g' hrest h' further hfurther hrests
      obtain ⟨rfl, rfl⟩ := Row.mk.inj htail
      rfl

theorem reads_unique {r s : Row} (hr : r.Reads offset t) (hs : s.Reads offset t) : r = s := by
  have hscan := Tag.scan_eq_ok_iff_row.mpr ⟨r, hr, rfl⟩
  have hscan' := Tag.scan_eq_ok_iff_row.mpr ⟨s, hs, rfl⟩
  rw [hscan] at hscan'
  exact reads_of_same_tags hr hs (Except.ok.inj hscan')

/-- After a row that is complete, the text goes on with the tag `name` and an argument that is not
closed. -/
structure LeavesOpen (offset : Int) (t : Text) (r : Row) (name : Text) : Prop where
  row : r.Reads offset r.text
  word : ∀ c ∈ name, Text.isWord c = true
  argument : ∃ argument, t = r.text ++ '@' :: (name ++ '(' :: argument) ∧ Text.Unclosed argument

end Row

namespace Tag

variable {source : String} {line offset : Int} {t : Text} {f : Failure}

theorem scan_eq_error_iff_row {u : Unterminated} : scan offset t = .error u ↔
    ∃ r : Row, r.LeavesOpen offset t u.name ∧ u.column = offset + r.text.length + 1 := by
  rw [scan_eq_error]
  constructor
  · rintro ⟨before, argument, ht, hbegins, hopen⟩
    obtain ⟨tags, hsettled⟩ := hbegins.settled
    obtain ⟨r, hr, -⟩ := scan_eq_ok_iff_row.mp hsettled
    obtain rfl := hr.text
    exact ⟨r, ⟨hr, hbegins.word, argument, ht, hopen⟩, hbegins.column⟩
  · rintro ⟨r, ⟨hr, hword, argument, ht, hopen⟩, hcolumn⟩
    have hsettled := scan_eq_ok_iff_row.mpr ⟨r, hr, rfl⟩
    exact ⟨r.text, argument, ht, ⟨hcolumn, hword, _, hsettled⟩, hopen⟩

theorem scanAt_eq_error_iff_row : scanAt source line offset t = .error f ↔
    ∃ r name, Row.LeavesOpen offset t r name ∧
      f = .located ⟨source, line, offset + r.text.length + 1, none⟩ (.unterminated name) := by
  rw [scanAt, Attempt.mapError_eq_error]
  constructor
  · rintro ⟨u, hu, rfl⟩
    obtain ⟨r, hopen, hcolumn⟩ := scan_eq_error_iff_row.mp hu
    exact ⟨r, u.name, hopen, by rw [hcolumn]⟩
  · rintro ⟨r, name, hopen, rfl⟩
    exact ⟨⟨name, _⟩, scan_eq_error_iff_row.mpr ⟨r, hopen, rfl⟩, rfl⟩

theorem scanAt_eq_ok_iff_row {tags : List Tag} : scanAt source line offset t = .ok tags ↔
    ∃ r : Row, r.Reads offset t ∧ r.tags = tags := by
  rw [scanAt, Attempt.mapError_eq_ok, scan_eq_ok_iff_row]

/-- A text has at most one reading as a row of tags. Its tags are found if there is one; if there
is none, then a tag outside of all earlier ones is left open, and that is what is reported. -/
theorem scanAt_decides_row (source : String) (line offset : Int) (t : Text) :
    (∀ tags, scanAt source line offset t = .ok tags ↔
        ∃ r : Row, r.Reads offset t ∧ r.tags = tags) ∧
      (∀ r s : Row, r.Reads offset t → s.Reads offset t → r = s) ∧
      ((∃ r, scanAt source line offset t = .error (.reported r) ∧
          Category.parse ∈ r.cause.category.lineage) ↔ ¬∃ r : Row, r.Reads offset t) ∧
      ∀ f, scanAt source line offset t = .error f ↔
        ∃ r name, Row.LeavesOpen offset t r name ∧
          f = .located ⟨source, line, offset + r.text.length + 1, none⟩ (.unterminated name) := by
  refine ⟨fun _ => scanAt_eq_ok_iff_row, fun _ _ => Row.reads_unique, ⟨?_, ?_⟩,
    fun _ => scanAt_eq_error_iff_row⟩
  · rintro ⟨report, hreport, -⟩ ⟨r, hr⟩
    rw [scanAt_eq_ok_iff_row.mpr ⟨r, hr, rfl⟩] at hreport
    cases hreport
  · intro hnone
    cases hscan : scanAt source line offset t with
    | ok tags =>
      obtain ⟨r, hr, -⟩ := scanAt_eq_ok_iff_row.mp hscan
      exact absurd ⟨r, hr⟩ hnone
    | error f =>
      obtain ⟨r, name, -, rfl⟩ := scanAt_eq_error_iff_row.mp hscan
      exact ⟨_, rfl, List.mem_cons_self⟩

/-- A stray parenthesis, a tag next to one without a name, and an `@` inside an argument. -/
def crowdedText : Text := "n) @x@(b@c(d))e@f".toList

def crowdedTags : List Tag :=
  [⟨['x'], none, 8⟩, ⟨[], some "b@c(d)".toList, 10⟩, ⟨['f'], none, 20⟩]

/-- The last tag goes on to the end, over the one inside it. -/
def openText : Text := "@x(a) @y(@z(b)".toList

theorem scanAt_decides_row_crowded :
    (∃ r : Row, r.Reads 4 crowdedText ∧ r.tags = crowdedTags ∧
        ∀ s : Row, s.Reads 4 crowdedText → s = r) ∧
      (∃ r name, Row.LeavesOpen 0 openText r name ∧ Failure.located ⟨"a", 3, 7, none⟩
          (.unterminated ['y']) = .located ⟨"a", 3, 0 + r.text.length + 1, none⟩
            (.unterminated name)) ∧
      ¬∃ r : Row, r.Reads 0 openText := by
  obtain ⟨hfound, hunique, -, -⟩ := scanAt_decides_row "a" 3 4 crowdedText
  obtain ⟨-, -, hnone, hopen⟩ := scanAt_decides_row "a" 3 0 openText
  have hscan : scanAt "a" 3 4 crowdedText = .ok crowdedTags := by rfl
  have herror : scanAt "a" 3 0 openText =
      .error (.located ⟨"a", 3, 7, none⟩ (.unterminated ['y'])) := by rfl
  obtain ⟨r, hr, htags⟩ := (hfound crowdedTags).mp hscan
  refine ⟨⟨r, hr, htags, fun s hs => hunique s r hs hr⟩, (hopen _).mp herror, ?_⟩
  exact hnone.mp ⟨_, herror, List.mem_cons_self⟩

end Tag

end ModelSchema
