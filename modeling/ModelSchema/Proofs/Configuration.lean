import ModelSchema.Config.Load
import ModelSchema.Proofs.Attempt
import ModelSchema.Proofs.Text

namespace ModelSchema.Config

/-- A directory, with what stands under the names of the two files in it. -/
structure Folder (files : FileTree) (dir : Path) (own project : Option Entry) : Prop where
  directory : files.look dir = .ok (some .directory)
  own : files.look (dir.child fileName) = .ok own
  project : files.look (dir.child projectFileName) = .ok project

/-- The file holds this text. -/
def Holds (e : Entry) (text : Text) : Prop :=
  ∃ bytes decoded, e = .file bytes ∧ Text.Utf8.decode? bytes = some decoded ∧
    FileTree.unifyNewlines decoded = text

/-- The file spells this table. -/
def Spells (e : Entry) (table : Fields Value) : Prop :=
  ∃ text, Holds e text ∧ Toml.parse text = .ok table

/-- How reading a file breaks off. -/
inductive Garbles : Entry → Failure → Prop
  | notUtf8 {bytes : List UInt8} (h : Text.Utf8.decode? bytes = none) :
      Garbles (.file bytes) (.file .notUtf8)
  | tooManyDigits {e : Entry} {text : Text} (hholds : Holds e text)
      (hparse : Toml.parse text = .error .tooManyDigits) : Garbles e .tooManyDigits

/-- How work breaks off over the value that has the options of a project somewhere in it. Dates are
among the values that hold nothing: they stand as null. -/
inductive Misplaces : Value → Failure → Prop
  | null : Misplaces .null .notAContainer
  | bool (b : Bool) : Misplaces (.bool b) .notAContainer
  | number (n : Number) : Misplaces (.number n) .notAContainer
  | item {xs : List Value} (h : .text tableName ∈ xs) : Misplaces (.array xs) .notATable
  | part {s : String} (h : tableName.toList <:+: s.toList) : Misplaces (.text s) .notATable
  | entry {tool : Fields Value} {v : Value} (hentry : tool.get? tableName = some v)
      (hv : ∀ table, v ≠ .object table) : Misplaces (.object tool) .notOptions

/-- How work breaks off over the two files of a directory, of which the first is preferred. -/
inductive Escapes : Option Entry → Option Entry → Failure → Prop
  | own {e : Entry} {project : Option Entry} {f : Failure} (h : Garbles e f) :
      Escapes (some e) project f
  | project {e : Entry} {f : Failure} (h : Garbles e f) : Escapes none (some e) f
  | misplaced {e : Entry} {table : Fields Value} {tool : Value} {f : Failure}
      (hspells : Spells e table) (htool : table.get? "tool" = some tool) (h : Misplaces tool f) :
      Escapes none (some e) f

/-- There is a result, or a message that says why there is none. -/
def Answered {α : Type} (r : Except Failure α) : Prop :=
  (∃ a, r = .ok a) ∨ ∃ f text, r = .error f ∧ f.message? = some text

theorem Answered.ok {α : Type} (a : α) : Answered (.ok a) := .inl ⟨a, rfl⟩

theorem Answered.unreadable {α : Type} (path : Path) :
    Answered (.error (.unreadable path) : Except Failure α) := .inr ⟨_, _, rfl, rfl⟩

theorem Answered.invalid {α : Type} (path : Path) (faults : List (String × OptionFault)) :
    Answered (.error (.invalid path faults) : Except Failure α) := .inr ⟨_, _, rfl, rfl⟩

theorem not_answered {α : Type} {f : Failure} (h : f.message? = none) :
    ¬Answered (.error f : Except Failure α) := by
  intro hanswered
  obtain ⟨a, ha⟩ | ⟨f', text, hf, htext⟩ := hanswered
  · cases ha
  · cases hf
    cases h.symm.trans htext

theorem Answered.map {α β : Type} {r : Except Failure α} (h : Answered r) (g : α → β) :
    Answered (g <$> r) := by
  obtain ⟨a, rfl⟩ | ⟨f, text, rfl, htext⟩ := h
  · exact .inl ⟨g a, rfl⟩
  · exact .inr ⟨f, text, rfl, htext⟩

theorem Garbles.message?_eq_none {e : Entry} {f : Failure} (h : Garbles e f) :
    f.message? = none := by
  cases h <;> rfl

theorem Misplaces.message?_eq_none {v : Value} {f : Failure} (h : Misplaces v f) :
    f.message? = none := by
  cases h <;> rfl

theorem Escapes.message?_eq_none {own project : Option Entry} {f : Failure}
    (h : Escapes own project f) : f.message? = none := by
  cases h with
  | own h => exact h.message?_eq_none
  | project h => exact h.message?_eq_none
  | misplaced _ _ h => exact h.message?_eq_none

section Reading

variable {files : FileTree} {path : Path} {e : Entry}

theorem find_of_look (h : files.look path = .ok (some e)) : files.find path = .ok e := by
  unfold FileTree.look at h
  split at h
  · rename_i found hfound
    cases h
    exact hfound
  · cases h
  · cases h

theorem readText_of_holds {text : Text} (hlook : files.look path = .ok (some e))
    (h : Holds e text) : files.readText path = .ok text := by
  obtain ⟨bytes, decoded, rfl, hdecoded, rfl⟩ := h
  simp [FileTree.readText, find_of_look hlook, bind, Except.bind, hdecoded, pure, Except.pure]

theorem readText_of_notUtf8 {bytes : List UInt8}
    (hlook : files.look path = .ok (some (.file bytes)))
    (h : Text.Utf8.decode? bytes = none) : files.readText path = .error .notUtf8 := by
  simp [FileTree.readText, find_of_look hlook, bind, Except.bind, h]

theorem readTable_of_spells {table : Fields Value} (hlook : files.look path = .ok (some e))
    (h : Spells e table) : readTable files path = .ok table := by
  obtain ⟨text, hholds, hparse⟩ := h
  simp [readTable, readText_of_holds hlook hholds, hparse]

theorem readTable_of_garbles {f : Failure} (hlook : files.look path = .ok (some e))
    (h : Garbles e f) : readTable files path = .error f := by
  cases h with
  | notUtf8 hdecode => simp [readTable, readText_of_notUtf8 hlook hdecode]
  | tooManyDigits hholds hparse => simp [readTable, readText_of_holds hlook hholds, hparse]

/-- A file spells a table, or is garbled, or there is a message. -/
theorem readTable_cases (hlook : files.look path = .ok (some e)) :
    (∃ table, Spells e table) ∨ (∃ f, Garbles e f) ∨
      readTable files path = .error (.unreadable path) := by
  cases e with
  | directory =>
    have hread : files.readText path = .error .isDirectory := by
      simp [FileTree.readText, find_of_look hlook, bind, Except.bind]
    exact .inr (.inr (by simp [readTable, hread]))
  | file bytes =>
    cases hdecode : Text.Utf8.decode? bytes with
    | none => exact .inr (.inl ⟨_, .notUtf8 hdecode⟩)
    | some decoded =>
      have hholds : Holds (.file bytes) (FileTree.unifyNewlines decoded) :=
        ⟨bytes, decoded, rfl, hdecode, rfl⟩
      cases hparse : Toml.parse (FileTree.unifyNewlines decoded) with
      | ok table => exact .inl ⟨table, _, hholds, hparse⟩
      | error fault =>
        cases fault with
        | tooManyDigits => exact .inr (.inl ⟨_, .tooManyDigits hholds hparse⟩)
        | malformed =>
          exact .inr (.inr (by simp [readTable, readText_of_holds hlook hholds, hparse]))

end Reading

theorem occursIn_iff (part t : Text) : occursIn part t = true ↔ part <:+: t := by
  induction t with
  | nil => simp [occursIn]
  | cons c t ih => simp [occursIn, Text.startsWith_iff, ih, List.infix_cons_iff]

theorem isText_iff (s : String) (v : Value) : isText s v = true ↔ v = .text s := by
  cases v with
  | text t =>
    rw [isText, beq_iff_eq, Value.text.injEq]
    exact eq_comm
  | _ => simp [isText]

/-- What is asked of the value under "tool" breaks off, either when the options are looked for, or
when they were found and are taken out. -/
theorem Misplaces.breaks {project : Fields Value} {tool : Value} {f : Failure}
    (htool : project.get? "tool" = some tool) (h : Misplaces tool f) (path : Path) :
    hasOptions project = .error f ∨
      hasOptions project = .ok true ∧ (optionsIn project >>= readOptions path) = .error f := by
  cases h with
  | null => exact .inl (by simp [hasOptions, htool, mentions])
  | bool b => exact .inl (by simp [hasOptions, htool, mentions])
  | number n => exact .inl (by simp [hasOptions, htool, mentions])
  | item hitem =>
    refine .inr ⟨?_, by simp [optionsIn, htool, bind, Except.bind]⟩
    simpa [hasOptions, htool, mentions, isText_iff] using hitem
  | part hpart =>
    refine .inr ⟨?_, by simp [optionsIn, htool, bind, Except.bind]⟩
    simpa [hasOptions, htool, mentions] using (occursIn_iff _ _).mpr hpart
  | @entry table v hentry hv =>
    refine .inr ⟨by simp [hasOptions, htool, mentions, Fields.has, hentry], ?_⟩
    have hin : optionsIn project = .ok v := by simp [optionsIn, htool, hentry]
    rw [hin]
    cases v with
    | object table => exact absurd rfl (hv table)
    | _ => rfl

theorem readOptions_answered (path : Path) (table : Fields Value) :
    Answered (readOptions path (.object table)) := by
  rw [readOptions]
  cases Options.ofTable table with
  | ok o => exact .ok o
  | error faults => exact .invalid path faults

/-- The options are misplaced, or there are none, or they are taken out and there is an answer. -/
theorem hasOptions_cases (project : Fields Value) (path : Path) :
    (∃ tool f, project.get? "tool" = some tool ∧ Misplaces tool f) ∨
      hasOptions project = .ok false ∨
      hasOptions project = .ok true ∧ Answered (optionsIn project >>= readOptions path) := by
  cases htool : project.get? "tool" with
  | none => exact .inr (.inl (by simp [hasOptions, htool]))
  | some tool =>
    cases tool with
    | null => exact .inl ⟨_, _, rfl, .null⟩
    | bool b => exact .inl ⟨_, _, rfl, .bool b⟩
    | number n => exact .inl ⟨_, _, rfl, .number n⟩
    | array xs =>
      by_cases hitem : .text tableName ∈ xs
      · exact .inl ⟨_, _, rfl, .item hitem⟩
      · have hany : xs.any (isText tableName) = false := by
          rw [Bool.eq_false_iff, ne_eq, List.any_eq_true]
          intro hexists
          obtain ⟨v, hv, htext⟩ := hexists
          exact hitem ((isText_iff _ _).mp htext ▸ hv)
        exact .inr (.inl (by simp only [hasOptions, htool, mentions, hany]))
    | text s =>
      by_cases hpart : tableName.toList <:+: s.toList
      · exact .inl ⟨_, _, rfl, .part hpart⟩
      · rw [← occursIn_iff, Bool.not_eq_true] at hpart
        exact .inr (.inl (by simp only [hasOptions, htool, mentions, hpart]))
    | object table =>
      cases hentry : Fields.get? tableName table with
      | none => exact .inr (.inl (by simp [hasOptions, htool, mentions, Fields.has, hentry]))
      | some v =>
        cases v with
        | object options =>
          have hin : optionsIn project = .ok (.object options) := by
            simp [optionsIn, htool, hentry]
          refine .inr (.inr ⟨by simp [hasOptions, htool, mentions, Fields.has, hentry], ?_⟩)
          rw [hin]
          exact readOptions_answered path options
        | _ => exact .inl ⟨_, _, rfl, .entry hentry (by simp)⟩

theorem look_eq_ok {files : FileTree} {path : Path} {e : Option Entry}
    (h : files.look path = .ok e) : look files path = .ok e := by
  rw [look, h]
  rfl

theorem name_child (dir : Path) (name : String) : (dir.child name).name = name := by
  simp [Path.name, Path.child]

/-- The note that the options of a file were loaded. -/
def noted (path : Path) (o : Options) : Options × List Event :=
  (o, [.optionsLoaded path.toString o])

section Loading

variable {files : FileTree} {path : Path}

theorem load_of_error {f : Failure} (h : readTable files path = .error f) :
    load files (some path) = .error f := by
  rw [load, h]
  rfl

theorem load_of_readTable {table : Fields Value} (h : readTable files path = .ok table) :
    load files (some path) = noted path <$>
      ((if path.name = projectFileName then optionsIn table else .ok (.object table)) >>=
        readOptions path) := by
  rw [load, h, map_eq_pure_bind, bind_assoc]
  by_cases hname : path.name = projectFileName
  · rw [if_pos hname]
    change (if path.name = projectFileName then _ else _) = _
    rw [if_pos hname]
    rfl
  · rw [if_neg hname]
    change (if path.name = projectFileName then _ else _) = _
    rw [if_neg hname]
    rfl

end Loading

namespace Folder

variable {files : FileTree} {dir : Path} {e : Entry} {own project : Option Entry}

theorem find_own (h : Folder files dir (some e) project) :
    find files dir = .ok (some (dir.child fileName)) := by
  simp [find, look_eq_ok h.directory, look_eq_ok h.own, bind, Except.bind, pure, Except.pure]

theorem find_nothing (h : Folder files dir none none) : find files dir = .ok none := by
  simp [find, look_eq_ok h.directory, look_eq_ok h.own, look_eq_ok h.project, bind, Except.bind,
    pure, Except.pure]

/-- Without a file of its own, the directory has the options of its project, if there are any. -/
theorem find_project (h : Folder files dir none (some e)) :
    find files dir =
      (fun found => if found then some (dir.child projectFileName) else none) <$>
        (readTable files (dir.child projectFileName) >>= hasOptions) := by
  rw [map_eq_pure_bind, bind_assoc]
  simp [find, look_eq_ok h.directory, look_eq_ok h.own, look_eq_ok h.project, bind, Except.bind]

theorem find_load_own (h : Folder files dir (some e) project) :
    (find files dir >>= load files) = load files (some (dir.child fileName)) := by
  rw [h.find_own]
  rfl

theorem load_own_answered {table : Fields Value} (h : Folder files dir (some e) project)
    (hspells : Spells e table) : Answered (load files (some (dir.child fileName))) := by
  have hname : (dir.child fileName).name ≠ projectFileName := by
    rw [name_child]
    decide
  rw [load_of_readTable (readTable_of_spells h.own hspells), if_neg hname]
  exact (readOptions_answered _ table).map _

/-- A project that was read gives its options, or the defaults if it has none. -/
theorem find_load_project {table : Fields Value} (h : Folder files dir none (some e))
    (hspells : Spells e table) :
    (find files dir >>= load files) = (do
      if ← hasOptions table then
        noted (dir.child projectFileName) <$>
          (optionsIn table >>= readOptions (dir.child projectFileName))
      else .ok ({}, [])) := by
  have hread := readTable_of_spells h.project hspells
  have hload := load_of_readTable hread
  rw [if_pos (name_child dir projectFileName)] at hload
  have hbind : (Except.ok table >>= hasOptions) = hasOptions table := rfl
  rw [h.find_project, hread, hbind]
  cases hasOptions table with
  | error f => rfl
  | ok found =>
    cases found with
    | false => rfl
    | true => exact hload

end Folder

theorem Escapes.find_load {files : FileTree} {dir : Path} {own project : Option Entry} {f : Failure}
    (h : Escapes own project f) (hfolder : Folder files dir own project) :
    (find files dir >>= load files) = .error f := by
  cases h with
  | own hgarbles =>
    rw [hfolder.find_load_own]
    exact load_of_error (readTable_of_garbles hfolder.own hgarbles)
  | project hgarbles =>
    rw [hfolder.find_project, readTable_of_garbles hfolder.project hgarbles]
    rfl
  | misplaced hspells htool hmisplaces =>
    rw [hfolder.find_load_project hspells]
    obtain hhas | ⟨hhas, hread⟩ := hmisplaces.breaks htool (dir.child projectFileName)
    · rw [hhas]
      rfl
    · rw [hhas, hread]
      rfl

/-- Whatever stands in the two files, there is an answer or an escape. -/
theorem Folder.answered_or_escapes {files : FileTree} {dir : Path} {own project : Option Entry}
    (h : Folder files dir own project) :
    Answered (find files dir >>= load files) ∨ ∃ f, Escapes own project f := by
  cases own with
  | some e =>
    rw [h.find_load_own]
    obtain ⟨table, hspells⟩ | ⟨f, hgarbles⟩ | hunreadable := readTable_cases h.own
    · exact .inl (h.load_own_answered hspells)
    · exact .inr ⟨f, .own hgarbles⟩
    · rw [load_of_error hunreadable]
      exact .inl (.unreadable _)
  | none =>
    cases project with
    | none =>
      rw [h.find_nothing]
      exact .inl (.ok _)
    | some e =>
      obtain ⟨table, hspells⟩ | ⟨f, hgarbles⟩ | hunreadable := readTable_cases h.project
      · rw [h.find_load_project hspells]
        obtain ⟨tool, f, htool, hmisplaces⟩ | hnone | ⟨hsome, hanswered⟩ :=
          hasOptions_cases table (dir.child projectFileName)
        · exact .inr ⟨f, .misplaced hspells htool hmisplaces⟩
        · rw [hnone]
          exact .inl (.ok _)
        · rw [hsome]
          exact .inl (hanswered.map _)
      · exact .inr ⟨f, .project hgarbles⟩
      · rw [h.find_project, hunreadable]
        exact .inl (.unreadable _)

/-- The options of a directory are found and loaded, or a message says why they are not, unless its
files let one of the other failures escape. Then it is this failure, which has no message. -/
theorem find_load_answered_iff {files : FileTree} {dir : Path} {own project : Option Entry}
    (h : Folder files dir own project) :
    (Answered (find files dir >>= load files) ↔ ¬∃ f, Escapes own project f) ∧
      ∀ f, Escapes own project f →
        (find files dir >>= load files) = .error f ∧ f.message? = none := by
  have hescapes : ∀ f, Escapes own project f →
      (find files dir >>= load files) = .error f ∧ f.message? = none :=
    fun f hf => ⟨hf.find_load h, hf.message?_eq_none⟩
  refine ⟨⟨?_, ?_⟩, hescapes⟩
  · intro hanswered hexists
    obtain ⟨f, hf⟩ := hexists
    obtain ⟨herror, hsilent⟩ := hescapes f hf
    rw [herror] at hanswered
    exact not_answered hsilent hanswered
  · intro hnone
    exact h.answered_or_escapes.resolve_right hnone

/-- A project whose options are a text. -/
def worded : Text := "[tool]\nlitespec = \"\"\n".toList

def wordedBytes : List UInt8 := worded.map fun c => c.val.toUInt8

def wordedFiles : FileTree := ⟨[(⟨.here, [projectFileName]⟩, .file wordedBytes)]⟩

/-- Nothing but an empty text for options. -/
def isWorded : Except Toml.Fault (Fields Value) → Bool
  | .ok [(first, .object [(second, .text s)])] =>
    first == "tool" && second == tableName && s == ""
  | _ => false

theorem parse_of_isWorded {r : Except Toml.Fault (Fields Value)} (h : isWorded r = true) :
    r = .ok [("tool", .object [(tableName, .text "")])] := by
  unfold isWorded at h
  split at h
  · simp only [Bool.and_eq_true, beq_iff_eq] at h
    obtain ⟨⟨rfl, rfl⟩, rfl⟩ := h
    rfl
  · cases h

/-- The project is read, its options are found, and there is no message that they are no table. -/
theorem find_load_answered_iff_worded :
    Folder wordedFiles ⟨.here, []⟩ none (some (.file wordedBytes)) ∧
      Escapes none (some (.file wordedBytes)) .notOptions ∧
      find wordedFiles ⟨.here, []⟩ = .ok (some ⟨.here, [projectFileName]⟩) ∧
      (find wordedFiles ⟨.here, []⟩ >>= load wordedFiles) = .error .notOptions ∧
      ¬Answered (find wordedFiles ⟨.here, []⟩ >>= load wordedFiles) := by
  have hfolder : Folder wordedFiles ⟨.here, []⟩ none (some (.file wordedBytes)) := ⟨rfl, rfl, rfl⟩
  have hholds : Holds (.file wordedBytes) worded :=
    ⟨wordedBytes, worded, rfl, by decide +kernel, by decide⟩
  have hparse := parse_of_isWorded (r := Toml.parse worded) (by decide +kernel)
  have hspells : Spells (.file wordedBytes) [("tool", .object [(tableName, .text "")])] :=
    ⟨worded, hholds, hparse⟩
  have hescapes : Escapes none (some (.file wordedBytes)) .notOptions :=
    .misplaced hspells rfl (.entry rfl (by simp))
  obtain ⟨hiff, hescape⟩ := find_load_answered_iff hfolder
  refine ⟨hfolder, hescapes, ?_, (hescape _ hescapes).1, fun h => hiff.mp h ⟨_, hescapes⟩⟩
  rw [hfolder.find_project, readTable_of_spells hfolder.project hspells]
  rfl

end ModelSchema.Config
