import Mathlib.Data.List.Induction
import ModelSchema.Error.Report

namespace ModelSchema

namespace Location

/-- Source, line and column. -/
def point (l : Location) : String × Int × Int := (l.source, l.line, l.column)

/-- The first snippet for a line. -/
def snippetFor? (line : Int) (places : List Location) : Option Text :=
  places.findSome? fun l => if l.line = line then l.snippet else none

/-- The first of these places. Without a snippet of its own it takes that of a later place on its
line. -/
def first? : List Location → Option Location
  | [] => none
  | l :: later => some { l with snippet := l.snippet.or (snippetFor? l.line later) }

theorem first?_toList (place : Option Location) : first? place.toList = place := by
  cases place with
  | none => rfl
  | some l => simp [first?, snippetFor?]

/-- One more place changes the first one as a report that is located there changes. -/
theorem first?_concat (places : List Location) (new : Location) :
    first? (places ++ [new]) = some (Report.settle (first? places) new) := by
  cases places with
  | nil => simp [first?, snippetFor?, Report.settle]
  | cons l later =>
    have hlater : snippetFor? l.line (later ++ [new]) =
        (snippetFor? l.line later).or (if new.line = l.line then new.snippet else none) := by
      simp [snippetFor?, List.findSome?_append]
    simp only [List.cons_append, first?, hlater, Report.settle]
    cases hown : l.snippet with
    | some own => simp
    | none =>
      cases hfound : snippetFor? l.line later with
      | some found => simp
      | none =>
        by_cases hline : new.line = l.line
        · simp [hline]
        · have hline' : ¬l.line = new.line := fun h => hline h.symm
          simp [hline, hline']

end Location

namespace Report

variable {ε : Type} [HasMessage ε]

/-- Locates a report at each place in turn. -/
def locateAll (places : List Location) (r : Report ε) : Report ε :=
  places.foldl (fun r l => r.locate l) r

theorem locateAll_concat (places : List Location) (l : Location) (r : Report ε) :
    r.locateAll (places ++ [l]) = (r.locateAll places).locate l := by
  simp [locateAll]

theorem cause_locateAll (places : List Location) (r : Report ε) :
    (r.locateAll places).cause = r.cause := by
  induction places generalizing r with
  | nil => rfl
  | cons l places ih => exact ih (r.locate l)

theorem location_locateAll (places : List Location) (r : Report ε) :
    (r.locateAll places).location = Location.first? (r.location.toList ++ places) := by
  induction places using List.reverseRecOn with
  | nil =>
    rw [List.append_nil, Location.first?_toList]
    rfl
  | append_singleton places l ih =>
    rw [locateAll_concat, ← List.append_assoc, Location.first?_concat, ← ih]
    rfl

theorem inStep_locateAll (places : List Location) {r : Report ε} (h : r.InStep) :
    (r.locateAll places).InStep := by
  induction places generalizing r with
  | nil => exact h
  | cons l places ih => exact ih (r.inStep_locate l)

theorem foldlM_locate? (places : List Location) (r : Report ε) :
    places.foldlM (fun r l => r.locate? (some l)) r = some (r.locateAll places) := by
  induction places generalizing r with
  | nil => rfl
  | cons l places ih => exact ih (r.locate l)

/-- The places that a report has seen, its own before the later ones. -/
def seen (places : List Location) (r : Report ε) : List Location := r.location.toList ++ places

/-- A report stays where it was first, whatever places come after. Its snippet is that of the first
place or else the first that a later place has for the same line. Its message is the one it began
with, and the text that it carries shows the place as it is now. -/
theorem locateAll_keeps_first (cause : ε) (own : Option Location) (places : List Location) :
    let r := raised cause own
    (r.locateAll places).cause = cause ∧
      (r.locateAll places).location.map Location.point =
        (r.seen places).head?.map Location.point ∧
      ((r.locateAll places).location.bind Location.snippet =
        (r.seen places).head?.bind fun first =>
          first.snippet.or (Location.snippetFor? first.line (r.seen places).tail)) ∧
      (r.locateAll places).text =
        (Location.first? (r.seen places)).elim [] (fun l => l.text ++ ['\n']) ++
          HasMessage.message cause ∧
      places.foldlM (fun r l => r.locate? (some l)) r = some (r.locateAll places) := by
  intro r
  have hlocation : (r.locateAll places).location = Location.first? (r.seen places) :=
    location_locateAll places r
  have hcause : (r.locateAll places).cause = cause := cause_locateAll places r
  have hstep : (r.locateAll places).InStep := inStep_locateAll places (inStep_raised cause own)
  refine ⟨hcause, ?_, ?_, ?_, foldlM_locate? places r⟩
  · rw [hlocation]
    cases r.seen places <;> rfl
  · rw [hlocation]
    cases r.seen places <;> rfl
  · rw [hstep, hlocation, hcause]
    cases Location.first? (r.seen places) with
    | none => rfl
    | some l => simp [words]

end Report

end ModelSchema
