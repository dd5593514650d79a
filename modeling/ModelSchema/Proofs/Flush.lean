import Mathlib.Data.List.Forall2
import ModelSchema.Block.Scope
import ModelSchema.Proofs.Contribution
import ModelSchema.Proofs.Place

namespace ModelSchema

/-- The same value, up to the order of the entries of objects. -/
inductive Value.Alike : Value → Value → Prop
  | refl (v : Value) : Alike v v
  | array {xs ys : List Value} (h : List.Forall₂ Alike xs ys) : Alike (.array xs) (.array ys)
  | object {fs gs : Fields Value}
      (h : ∀ key, Option.Rel Alike (Fields.get? key fs) (Fields.get? key gs)) :
      Alike (.object fs) (.object gs)

theorem Value.alike_of_eq {x y : Option Value} (h : x = y) : Option.Rel Alike x y := by
  subst h
  cases x with
  | none => exact .none
  | some v => exact .some (.refl v)

theorem Fields.putAll_eq_nil {α : Type} {new old : Fields α} :
    putAll new old = [] ↔ new = [] ∧ old = [] := by
  have hput (key : String) (v : α) (fs : Fields α) : fs.put key v ≠ [] := by
    cases fs with
    | nil => simp [put]
    | cons e fs =>
      simp only [put]
      split <;> simp
  induction new generalizing old with
  | nil => simp [putAll]
  | cons e new ih =>
    change putAll new (old.put e.1 e.2) = [] ↔ _
    simp [ih, hput]

/-- In which order entries with different keys are looked through does not matter. -/
theorem Fields.get?_reverse {α : Type} {fs : Fields α} (h : fs.keys.Nodup) (key : String) :
    get? key fs.reverse = get? key fs := by
  induction fs with
  | nil => rfl
  | cons e fs ih =>
    obtain ⟨he, hrest⟩ := List.nodup_cons.mp h
    rw [List.reverse_cons, get?_append, ih hrest]
    by_cases hkey : e.1 = key
    · have hnone : get? key fs = none := by
        cases hget : get? key fs with
        | none => rfl
        | some v =>
          apply absurd _ he
          rw [hkey]
          exact mem_keys_iff.mpr ⟨v, hget⟩
      simp [get?, hkey, hnone]
    · simp [get?, hkey]

theorem Fields.get?_putAll_of_nodup {α : Type} {new : Fields α} (h : new.keys.Nodup)
    (old : Fields α) (key : String) :
    (putAll new old).get? key = (new.get? key).or (old.get? key) := by
  rw [get?_putAll, get?_reverse h]

/-- The entry with this key under `permissions`. -/
def Fields.permission? (target : Fields Value) (key : String) : Option Value :=
  ((target.get? "permissions").bind Value.fields?).bind (Fields.get? key)

/-- The permissions are an object, if there are any. -/
def Fields.HoldsPermissions (target : Fields Value) : Prop :=
  ∀ v, target.get? "permissions" = some v → ∃ fs, v = .object fs

namespace Gathered

/-- What is written under `permissions`: whether it is empty, its key and its value. -/
def permissionAdditions (g : Gathered) : List (Bool × String × Value) :=
  [(g.collection.isEmpty, "collection", permissionTable g.collection),
    (g.fieldPermissions.isEmpty, "field", g.fieldPermissionsValue)]

/-- Nothing is to be written under this key. -/
def Spare (additions : List (Bool × String × Value)) (key : String) : Prop :=
  ∀ a ∈ additions, a.2.1 = key → a.1 = true

instance (additions : List (Bool × String × Value)) (key : String) :
    Decidable (Spare additions key) :=
  inferInstanceAs (Decidable (∀ a ∈ additions, a.2.1 = key → a.1 = true))

/-- The entries of a target after a flush: those that are gathered, and else those that were
there. -/
structure Flushed (g : Gathered) (old new : Fields Value) : Prop where
  plain : ∀ key, key ≠ "permissions" →
    new.get? key = (Fields.get? key g.plainEntries).or (old.get? key)
  inner : ∀ key, new.permission? key = (Fields.get? key g.permissions).or (old.permission? key)
  kept : g.permissions = [] → new.get? "permissions" = old.get? "permissions"
  made : g.permissions ≠ [] → ∃ fs, new.get? "permissions" = some (.object fs)

variable {g more : Gathered} {key : String} {old new other : Fields Value}

theorem keys_unlessEmpty (empty : Bool) (key : String) (v : Value) :
    (unlessEmpty empty key v).keys.Sublist [key] := by
  cases empty <;> simp [unlessEmpty, Fields.keys]

theorem keys_plainEntries (g : Gathered) :
    g.plainEntries.keys.Sublist ["ui", "required", "allOf", "sort", "breadcrumb"] := by
  simp only [plainEntries, Fields.keys, List.map_append, List.append_assoc]
  apply (keys_unlessEmpty _ "ui" _).append
  apply (keys_unlessEmpty _ "required" _).append
  apply (keys_unlessEmpty _ "allOf" _).append
  exact (keys_unlessEmpty _ "sort" _).append (keys_unlessEmpty _ "breadcrumb" _)

theorem keys_permissions (g : Gathered) : g.permissions.keys.Sublist ["collection", "field"] := by
  simp only [permissions, Fields.keys, List.map_append]
  exact (keys_unlessEmpty _ "collection" _).append (keys_unlessEmpty _ "field" _)

theorem get?_permissions_plainEntries (g : Gathered) :
    Fields.get? "permissions" g.plainEntries = none := by
  simp [plainEntries, Fields.get?_append, get?_unlessEmpty]

/-- A flush into a target with room for permissions succeeds. -/
theorem flush_eq_ok (g : Gathered) (h : old.HoldsPermissions) :
    ∃ new, g.flush old = .ok new ∧ g.Flushed old new := by
  have hplain := Fields.get?_putAll_of_nodup (g.keys_plainEntries.nodup (by decide)) old
  have hpermissions : (Fields.putAll g.plainEntries old).get? "permissions" =
      old.get? "permissions" := by
    rw [hplain, get?_permissions_plainEntries, Option.none_or]
  have hinner (key : String) :
      (Fields.putAll g.plainEntries old).permission? key = old.permission? key := by
    simp only [Fields.permission?, hpermissions]
  rw [flush, flushPermissions]
  split
  · rename_i hempty
    have hnil := List.isEmpty_iff.mp hempty
    refine ⟨_, rfl, fun key _ => hplain key, fun key => ?_, fun _ => hpermissions, ?_⟩
    · rw [hinner, hnil]
      rfl
    · intro hne
      exact absurd hnil hne
  · rename_i hempty
    have hne : g.permissions ≠ [] := fun hnil => hempty (List.isEmpty_iff.mpr hnil)
    -- What stands under `permissions` is replaced by an object with these entries.
    have hwritten (fs : Fields Value)
        (hfs : ∀ key, fs.get? key =
          (Fields.get? key g.permissions).or (old.permission? key)) :
        g.Flushed old ((Fields.putAll g.plainEntries old).put "permissions" (.object fs)) := by
      refine ⟨fun key hkey => ?_, fun key => ?_, fun hnil => absurd hnil hne, fun _ => ⟨fs, ?_⟩⟩
      · rw [Fields.get?_put, if_neg hkey, hplain]
      · rw [Fields.permission?, Fields.get?_put, if_pos rfl]
        exact hfs key
      · rw [Fields.get?_put, if_pos rfl]
    rw [hpermissions]
    cases hold : old.get? "permissions" with
    | none =>
      refine ⟨_, rfl, hwritten _ fun key => ?_⟩
      simp [Fields.permission?, hold]
    | some v =>
      obtain ⟨fs, rfl⟩ := h v hold
      refine ⟨_, rfl, hwritten _ fun key => ?_⟩
      rw [Fields.get?_putAll_of_nodup (g.keys_permissions.nodup (by decide))]
      simp [Fields.permission?, hold, Value.fields?]

namespace Flushed

theorem holdsPermissions (h : g.Flushed old new) (hold : old.HoldsPermissions) :
    new.HoldsPermissions := by
  intro v hv
  by_cases hnil : g.permissions = []
  · rw [h.kept hnil] at hv
    exact hold v hv
  · obtain ⟨fs, hfs⟩ := h.made hnil
    rw [hfs] at hv
    exact ⟨fs, (Option.some.inj hv).symm⟩

/-- Two targets after the same flush differ in the order of their entries at most. -/
theorem alike (hnew : g.Flushed old new) (hother : g.Flushed old other) :
    Value.Alike (.object new) (.object other) := by
  apply Value.Alike.object
  intro key
  by_cases hkey : key = "permissions"
  · subst hkey
    by_cases hnil : g.permissions = []
    · exact Value.alike_of_eq ((hnew.kept hnil).trans (hother.kept hnil).symm)
    · obtain ⟨fs, hfs⟩ := hnew.made hnil
      obtain ⟨gs, hgs⟩ := hother.made hnil
      rw [hfs, hgs]
      refine .some (.object fun k => Value.alike_of_eq ?_)
      have hsame := (hnew.inner k).trans (hother.inner k).symm
      simpa [Fields.permission?, hfs, hgs, Value.fields?] using hsame
  · exact Value.alike_of_eq ((hnew.plain key hkey).trans (hother.plain key hkey).symm)

end Flushed

theorem get?_unlessEmpty_eq_none {empty : Bool} {k : String} {v : Value} :
    Fields.get? key (unlessEmpty empty k v) = none ↔ (k = key → empty = true) := by
  rw [get?_unlessEmpty]
  cases empty <;> simp

theorem get?_plainEntries_eq_none (hkey : key ≠ "permissions") :
    Fields.get? key g.plainEntries = none ↔ Spare g.additions key := by
  simp only [Spare, plainEntries, additions, Fields.get?_append, Option.or_eq_none_iff,
    get?_unlessEmpty_eq_none, List.forall_mem_cons, List.not_mem_nil, false_implies, implies_true,
    and_true, and_assoc, hkey.symm]

theorem get?_permissions_eq_none :
    Fields.get? key g.permissions = none ↔ Spare g.permissionAdditions key := by
  simp only [Spare, permissions, permissionAdditions, Fields.get?_append, Option.or_eq_none_iff,
    get?_unlessEmpty_eq_none, List.forall_mem_cons, List.not_mem_nil, false_implies, implies_true,
    and_true]

theorem permissions_eq_nil : g.permissions = [] ↔ g.collection = [] ∧ g.fieldPermissions = [] := by
  rw [← List.isEmpty_iff, permissions_isEmpty, Bool.and_eq_true, List.isEmpty_iff, List.isEmpty_iff]

theorem permissions_of_spare (h : Spare g.additions "permissions") : g.permissions = [] := by
  have hempty := h (g.collection.isEmpty && g.fieldPermissions.isEmpty, "permissions",
    .object g.permissions) (by simp [additions]) rfl
  rw [← List.isEmpty_iff, permissions_isEmpty]
  exact hempty

theorem get?_plainEntries_of_addition {a : Bool × String × Value} (ha : a ∈ g.additions)
    (hfull : a.1 = false) (hkey : a.2.1 ≠ "permissions") :
    Fields.get? a.2.1 g.plainEntries = some a.2.2 := by
  simp only [additions, List.mem_cons, List.not_mem_nil, or_false] at ha
  rcases ha with rfl | rfl | rfl | rfl | rfl | rfl
  all_goals simp_all [plainEntries, Fields.get?_append, get?_unlessEmpty]

theorem get?_permissions_of_addition {a : Bool × String × Value} (ha : a ∈ g.permissionAdditions)
    (hfull : a.1 = false) : Fields.get? a.2.1 g.permissions = some a.2.2 := by
  simp only [permissionAdditions, List.mem_cons, List.not_mem_nil, or_false] at ha
  rcases ha with rfl | rfl
  all_goals simp_all [permissions, Fields.get?_append, get?_unlessEmpty]

/-- What is empty after more was gathered was empty before. -/
theorem additions_of_absorb (h : Spare (g.absorb more).additions key) : Spare g.additions key := by
  simp only [Spare, additions, absorb, List.forall_mem_cons, List.isEmpty_iff, Fields.putAll_eq_nil,
    List.append_eq_nil_iff, Bool.and_eq_true] at h ⊢
  grind

theorem permissionAdditions_of_absorb (h : Spare (g.absorb more).permissionAdditions key) :
    Spare g.permissionAdditions key := by
  simp only [Spare, permissionAdditions, absorb, List.forall_mem_cons, List.isEmpty_iff,
    Fields.putAll_eq_nil, List.append_eq_nil_iff] at h ⊢
  grind

theorem permissions_of_absorb (h : (g.absorb more).permissions = []) : g.permissions = [] := by
  rw [permissions_eq_nil] at h ⊢
  exact ⟨(Fields.putAll_eq_nil.mp h.1).2, (List.append_eq_nil_iff.mp h.2).1⟩

end Gathered

/-- Adds to what is gathered. -/
def Addition.change : Addition → Gathered → Gathered
  | .rule r => Gathered.addRule r
  | .sort r => Gathered.addSort r
  | .breadcrumb r => Gathered.addBreadcrumb r
  | .permissions p => Gathered.addCollection p

theorem Addition.change_eq (a : Addition) (g : Gathered) : a.change g = g.absorb a.gathered := by
  cases a <;> simp [change, gathered, Gathered.addRule, Gathered.addSort, Gathered.addBreadcrumb,
    Gathered.addCollection, Gathered.absorb, Fields.putAll]

namespace Scope

/-- What can be done to a scope. -/
inductive Step where
  /-- A tag on a field takes effect. -/
  | tag (field : String) (e : Effect)
  /-- A tag about the block takes effect. -/
  | add (a : Addition)
  | flush

namespace Step

/-- Only adds to what is gathered. -/
def adds : Step → Bool
  | .flush => false
  | _ => true

/-- What the step adds. -/
def gathered : Step → Gathered
  | .tag field e => e.gathered field
  | .add a => a.gathered
  | .flush => {}

theorem concat_filter_adds (steps : List Step) :
    Gathered.concat ((steps.filter adds).map gathered) = .concat (steps.map gathered) := by
  induction steps with
  | nil => rfl
  | cons x steps ih =>
    have hcons (y : Gathered) (ys zs : List Gathered) (h : Gathered.concat ys = .concat zs) :
        Gathered.concat (y :: ys) = .concat (y :: zs) := by
      simp only [Gathered.concat, List.flatMap_cons, Gathered.mk.injEq] at h ⊢
      simp [h]
    cases x with
    | tag field e => exact hcons _ _ _ ih
    | add a => exact hcons _ _ _ ih
    | flush =>
      simp only [List.filter_cons, adds, Bool.false_eq_true, if_false, ih, List.map_cons, gathered]
      rfl

end Step

def perform (s : Scope) : Step → Except Breakdown Scope
  | .tag field e => .ok { s with gathered := (FieldState.apply field ⟨[], s.gathered⟩ e).gathered }
  | .add a => .ok { s with gathered := a.change s.gathered }
  | .flush => s.flush

def run (s : Scope) (steps : List Step) : Except Breakdown Scope := steps.foldlM perform s

/-- Where nothing is gathered, the target has what it had at the start. -/
structure Since (start : Fields Value) (s : Scope) : Prop where
  plain : ∀ key, key ≠ "permissions" → Fields.get? key s.gathered.plainEntries = none →
    s.target.get? key = start.get? key
  inner : ∀ key, Fields.get? key s.gathered.permissions = none →
    s.target.permission? key = start.permission? key
  outer : s.gathered.permissions = [] → s.target.get? "permissions" = start.get? "permissions"
  room : s.target.HoldsPermissions

variable {start new : Fields Value} {s t : Scope} {steps : List Step}

theorem since_self (h : s.target.HoldsPermissions) : s.Since s.target :=
  ⟨fun _ _ _ => rfl, fun _ _ => rfl, fun _ => rfl, h⟩

theorem Since.absorb (h : s.Since start) (more : Gathered) :
    Since start { s with gathered := s.gathered.absorb more } := by
  refine ⟨fun key hkey hnone => h.plain key hkey ?_, fun key hnone => h.inner key ?_,
    fun hnil => h.outer (Gathered.permissions_of_absorb hnil), h.room⟩
  · rw [Gathered.get?_plainEntries_eq_none hkey] at hnone ⊢
    exact Gathered.additions_of_absorb hnone
  · rw [Gathered.get?_permissions_eq_none] at hnone ⊢
    exact Gathered.permissionAdditions_of_absorb hnone

/-- A flush into the target leaves what one into the target at the start would. -/
theorem Since.flushed (h : s.Since start) (hnew : s.gathered.Flushed s.target new) :
    s.gathered.Flushed start new := by
  refine ⟨fun key hkey => ?_, fun key => ?_, fun hnil => (hnew.kept hnil).trans (h.outer hnil),
    hnew.made⟩
  · rw [hnew.plain key hkey]
    cases hget : Fields.get? key s.gathered.plainEntries with
    | none => simp [h.plain key hkey hget]
    | some v => simp
  · rw [hnew.inner key]
    cases hget : Fields.get? key s.gathered.permissions with
    | none => simp [h.inner key hget]
    | some v => simp

theorem Since.flush (h : s.Since start) : ∃ t, s.flush = .ok t ∧ t.gathered = s.gathered ∧
    s.gathered.Flushed start t.target ∧ t.Since start := by
  obtain ⟨new, hflush, hnew⟩ := s.gathered.flush_eq_ok h.room
  have hstart := h.flushed hnew
  refine ⟨{ s with target := new }, by rw [Scope.flush, hflush]; rfl, rfl, hstart, ?_⟩
  refine ⟨fun key hkey hnone => ?_, fun key hnone => ?_, hstart.kept,
    hnew.holdsPermissions h.room⟩
  · rw [hstart.plain key hkey, hnone, Option.none_or]
  · rw [hstart.inner key, hnone, Option.none_or]

theorem Since.perform (h : s.Since start) (x : Step) : ∃ t, s.perform x = .ok t ∧
    t.gathered = s.gathered.absorb x.gathered ∧ t.Since start ∧
      (x.adds = true → t.target = s.target) := by
  cases x with
  | tag field e =>
    refine ⟨_, rfl, ?_, ?_, fun _ => rfl⟩
    · rw [FieldState.apply_eq]
      rfl
    · rw [FieldState.apply_eq]
      exact h.absorb (e.gathered field)
  | add a =>
    refine ⟨_, rfl, a.change_eq s.gathered, ?_, fun _ => rfl⟩
    rw [a.change_eq]
    exact h.absorb a.gathered
  | flush =>
    obtain ⟨t, hflush, hgathered, -, ht⟩ := h.flush
    refine ⟨t, hflush, ?_, ht, ?_⟩
    · rw [hgathered]
      exact (Gathered.absorb_nothing s.gathered).symm
    · intro hadds
      cases hadds

theorem Since.run (h : s.Since start) (steps : List Step) : ∃ t, s.run steps = .ok t ∧
    t.gathered = s.gathered.absorb (.concat (steps.map Step.gathered)) ∧ t.Since start ∧
      ((∀ x ∈ steps, x.adds = true) → t.target = s.target) := by
  induction steps generalizing s with
  | nil => exact ⟨s, rfl, (Gathered.absorb_nothing s.gathered).symm, h, fun _ => rfl⟩
  | cons x steps ih =>
    obtain ⟨t, hx, hgathered, ht, htarget⟩ := h.perform x
    obtain ⟨u, hrun, hmore, hu, hlater⟩ := ih ht
    refine ⟨u, ?_, ?_, hu, ?_⟩
    · rw [Scope.run, List.foldlM_cons, hx]
      exact hrun
    · rw [hmore, hgathered, List.map_cons, Gathered.absorb_concat_cons]
    · intro hadds
      obtain ⟨hfirst, hrest⟩ := List.forall_mem_cons.mp hadds
      exact (hlater hrest).trans (htarget hfirst)

theorem run_append (s : Scope) (before after : List Step) :
    s.run (before ++ after) = (s.run before).bind fun t => t.run after := List.foldlM_append

theorem Since.run_flush (h : s.Since start) (steps : List Step) :
    ∃ t, s.run (steps ++ [.flush]) = .ok t ∧
      t.gathered = s.gathered.absorb (.concat (steps.map Step.gathered)) ∧
      t.gathered.Flushed start t.target := by
  obtain ⟨t, hrun, hgathered, ht, -⟩ := h.run steps
  obtain ⟨u, hflush, hsame, hu, -⟩ := ht.flush
  refine ⟨u, ?_, hsame.trans hgathered, ?_⟩
  · rw [run_append, hrun]
    change (t.flush >>= fun u => u.run []) = .ok u
    rw [hflush]
    rfl
  · rw [hsame]
    exact hu

/-- Flushes before the last one make no difference but in the order of entries. The last one leaves
what was in the target at the start, except where something was gathered, and until a flush the
target stays as it is. -/
theorem run_flush_once (s : Scope) (h : s.target.HoldsPermissions) (steps : List Step) :
    ∃ t u : Scope, s.run (steps ++ [.flush]) = .ok t ∧
      s.run (steps.filter Step.adds ++ [.flush]) = .ok u ∧
      Value.Alike (.object t.target) (.object u.target) ∧ t.gathered = u.gathered ∧
      t.gathered = s.gathered.absorb (.concat (steps.map Step.gathered)) ∧
      (∀ key, Gathered.Spare t.gathered.additions key →
        t.target.get? key = s.target.get? key) ∧
      (∀ key, Gathered.Spare t.gathered.permissionAdditions key →
        t.target.permission? key = s.target.permission? key) ∧
      (∀ a ∈ t.gathered.additions, a.1 = false → a.2.1 ≠ "permissions" →
        t.target.get? a.2.1 = some a.2.2) ∧
      (∀ a ∈ t.gathered.permissionAdditions, a.1 = false →
        t.target.permission? a.2.1 = some a.2.2) ∧
      ∀ before added, (∀ x ∈ added, x.adds = true) →
        ∃ v w, s.run before = .ok v ∧ s.run (before ++ added) = .ok w ∧ w.target = v.target := by
  have hstart := since_self h
  obtain ⟨t, ht, hgathered, hflushed⟩ := hstart.run_flush steps
  obtain ⟨u, hu, honce, hother⟩ := hstart.run_flush (steps.filter Step.adds)
  rw [Step.concat_filter_adds] at honce
  have hsame : t.gathered = u.gathered := hgathered.trans honce.symm
  rw [← hsame] at hother
  refine ⟨t, u, ht, hu, hflushed.alike hother, hsame, hgathered, ?_, ?_, ?_, ?_, ?_⟩
  · intro key hspare
    by_cases hkey : key = "permissions"
    · subst hkey
      exact hflushed.kept (Gathered.permissions_of_spare hspare)
    · rw [hflushed.plain key hkey, (Gathered.get?_plainEntries_eq_none hkey).mpr hspare,
        Option.none_or]
  · intro key hspare
    rw [hflushed.inner key, Gathered.get?_permissions_eq_none.mpr hspare, Option.none_or]
  · intro a ha hfull hkey
    rw [hflushed.plain _ hkey, Gathered.get?_plainEntries_of_addition ha hfull hkey, Option.some_or]
  · intro a ha hfull
    rw [hflushed.inner, Gathered.get?_permissions_of_addition ha hfull, Option.some_or]
  · intro before added hadds
    obtain ⟨v, hv, -, hsince, -⟩ := hstart.run before
    obtain ⟨w, hw, -, -, htarget⟩ := hsince.run added
    refine ⟨v, w, hv, ?_, htarget hadds⟩
    rw [run_append, hv]
    exact hw

/-- A target with an entry of its own, and one among its permissions. -/
def sharedTarget : Fields Value :=
  [("kind", .text "record"),
    ("permissions", .object [("owner", .text "admin"), ("field", .null)])]

/-- What is gathered first is not what is written first. -/
def crossedSteps : List Step :=
  [.tag "a" .require, .flush, .add (.sort ⟨['a'], ['b']⟩), .flush,
    .tag "a" (.hint ⟨['t'], [], 3, [], [], [], [], []⟩), .add (.permissions [("view", "me")])]

theorem run_flush_once_crossed :
    sharedTarget.HoldsPermissions ∧
      ∃ t u : Scope, run ⟨sharedTarget, {}⟩ (crossedSteps ++ [.flush]) = .ok t ∧
        run ⟨sharedTarget, {}⟩ (crossedSteps.filter Step.adds ++ [.flush]) = .ok u ∧
        t.target.keys = ["kind", "permissions", "required", "sort", "ui"] ∧
        u.target.keys = ["kind", "permissions", "ui", "required", "sort"] ∧
        Value.Alike (.object t.target) (.object u.target) ∧
        t.target.get? "kind" = some (.text "record") ∧
        t.target.permission? "owner" = some (.text "admin") ∧
        t.target.permission? "field" = some .null ∧
        t.target.get? "required" = some (.texts ["a"]) := by
  have hroom : sharedTarget.HoldsPermissions := by
    intro v hv
    exact ⟨_, (Option.some.inj hv).symm⟩
  obtain ⟨t, u, ht, hu, halike, -, hgathered, hkept, hinner, hwritten, -, -⟩ :=
    run_flush_once ⟨sharedTarget, {}⟩ hroom crossedSteps
  have hkeys (r : Except Breakdown Scope) (ks : List String) (v : Scope) (hr : r = .ok v)
      (hks : (r.map fun s => s.target.keys) = .ok ks) : v.target.keys = ks := by
    rw [hr] at hks
    exact Except.ok.inj hks
  refine ⟨hroom, t, u, ht, hu, hkeys _ _ t ht (by rfl), hkeys _ _ u hu (by rfl), halike,
    ?_, ?_, ?_, ?_⟩
  · apply hkept "kind"
    rw [hgathered]
    decide
  · apply hinner "owner"
    rw [hgathered]
    decide
  · apply hinner "field"
    rw [hgathered]
    decide
  · rw [hgathered] at hwritten
    exact hwritten (false, "required", .texts ["a"]) (.tail _ (.head _)) rfl (by decide)

end Scope

end ModelSchema
