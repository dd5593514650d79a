import ModelSchema.Block.Statement

namespace ModelSchema

namespace Attempt

variable {ε δ α β σ : Type}

theorem bind_eq_error {x : Except ε α} {f : α → Except ε β} {e : ε} :
    x >>= f = .error e ↔ x = .error e ∨ ∃ a, x = .ok a ∧ f a = .error e := by
  cases x <;> simp [bind, Except.bind]

theorem bind_eq_ok {x : Except ε α} {f : α → Except ε β} {b : β} :
    x >>= f = .ok b ↔ ∃ a, x = .ok a ∧ f a = .ok b := by
  cases x <;> simp [bind, Except.bind]

theorem map_eq_error {x : Except ε α} {f : α → β} {e : ε} :
    x.map f = .error e ↔ x = .error e := by
  cases x <;> simp [Except.map]

theorem map_eq_ok {x : Except ε α} {f : α → β} {b : β} :
    x.map f = .ok b ↔ ∃ a, x = .ok a ∧ f a = b := by
  cases x <;> simp [Except.map]

theorem mapError_eq_error {x : Except δ α} {f : δ → ε} {e : ε} :
    x.mapError f = .error e ↔ ∃ d, x = .error d ∧ f d = e := by
  constructor
  · intro h
    cases x with
    | ok a => cases h
    | error d => exact ⟨d, rfl, Except.error.inj h⟩
  · rintro ⟨d, rfl, rfl⟩
    rfl

theorem mapError_eq_ok {x : Except δ α} {f : δ → ε} {a : α} :
    x.mapError f = .ok a ↔ x = .ok a := by
  constructor
  · intro h
    cases x with
    | ok a' =>
      cases h
      rfl
    | error d => cases h
  · rintro rfl
    rfl

/-- A fold fails at the first element that its step fails on. -/
theorem foldlM_eq_error {f : σ → α → Except ε σ} {s : σ} {xs : List α} {e : ε} :
    xs.foldlM f s = .error e ↔ ∃ before x after t, xs = before ++ x :: after ∧
      before.foldlM f s = .ok t ∧ f t x = .error e := by
  induction xs generalizing s with
  | nil => simp [pure, Except.pure]
  | cons x xs ih =>
    rw [List.foldlM_cons, bind_eq_error]
    constructor
    · rintro (hx | ⟨t, hx, hrest⟩)
      · exact ⟨[], x, xs, s, rfl, rfl, hx⟩
      · obtain ⟨before, y, after, u, rfl, hbefore, hy⟩ := ih.mp hrest
        refine ⟨x :: before, y, after, u, rfl, ?_, hy⟩
        rw [List.foldlM_cons, hx]
        exact hbefore
    · rintro ⟨before, y, after, u, hsplit, hbefore, hy⟩
      cases before with
      | nil =>
        obtain ⟨rfl, rfl⟩ := List.cons.inj hsplit
        cases hbefore
        exact .inl hy
      | cons z before =>
        obtain ⟨rfl, rfl⟩ := List.cons.inj hsplit
        rw [List.foldlM_cons] at hbefore
        cases hx : f s x with
        | error e' =>
          rw [hx] at hbefore
          cases hbefore
        | ok t =>
          rw [hx] at hbefore
          exact .inr ⟨t, rfl, ih.mpr ⟨before, y, after, u, rfl, hbefore, hy⟩⟩

/-- If the attempt fails, then in this way. -/
def FailsIn (P : Failure → Prop) (x : Except Failure α) : Prop := ∀ f, x = .error f → P f

variable {P Q : Failure → Prop}

theorem failsIn_ok (a : α) : FailsIn P (.ok a) := by
  intro f h
  cases h

theorem failsIn_error {f : Failure} (hf : P f) : FailsIn P (.error f : Except Failure α) := by
  intro g h
  cases h
  exact hf

theorem FailsIn.mono {x : Except Failure α} (hx : FailsIn P x) (h : ∀ f, P f → Q f) :
    FailsIn Q x := fun f hf => h f (hx f hf)

theorem FailsIn.bind {x : Except Failure α} {f : α → Except Failure β} (hx : FailsIn P x)
    (hf : ∀ a, FailsIn P (f a)) : FailsIn P (x >>= f) := by
  intro g h
  rcases bind_eq_error.mp h with h | ⟨a, -, h⟩
  · exact hx g h
  · exact hf a g h

theorem FailsIn.map {x : Except Failure α} (hx : FailsIn P x) (f : α → β) :
    FailsIn P (x.map f) := fun g h => hx g (map_eq_error.mp h)

theorem failsIn_foldlM {f : σ → α → Except Failure σ} (hf : ∀ s a, FailsIn P (f s a)) (s : σ)
    (xs : List α) : FailsIn P (xs.foldlM f s) := by
  intro g h
  obtain ⟨before, x, after, t, -, -, hx⟩ := foldlM_eq_error.mp h
  exact hf t x g hx

/-- If the attempt succeeds, then with such a result. -/
def GivesIn (P : α → Prop) (x : Except ε α) : Prop := ∀ a, x = .ok a → P a

theorem givesIn_ok {P : α → Prop} {a : α} (ha : P a) : GivesIn P (.ok a : Except ε α) := by
  intro b h
  cases h
  exact ha

theorem givesIn_error {P : α → Prop} (e : ε) : GivesIn P (.error e : Except ε α) := by
  intro a h
  cases h

theorem GivesIn.bind {P : α → Prop} {Q : β → Prop} {x : Except ε α} {f : α → Except ε β}
    (hx : GivesIn P x) (hf : ∀ a, P a → GivesIn Q (f a)) : GivesIn Q (x >>= f) := by
  intro b h
  obtain ⟨a, ha, hb⟩ := bind_eq_ok.mp h
  exact hf a (hx a ha) b hb

theorem givesIn_any (x : Except ε α) : GivesIn (fun _ => True) x := fun _ _ => trivial

theorem GivesIn.map {P : α → Prop} {Q : β → Prop} {x : Except ε α} {f : α → β}
    (hx : GivesIn P x) (hf : ∀ a, P a → Q (f a)) : GivesIn Q (x.map f) := by
  cases x with
  | error e => exact givesIn_error e
  | ok a => exact givesIn_ok (hf a (hx a rfl))

theorem givesIn_foldlM_of_mem {P : σ → Prop} {f : σ → α → Except ε σ} {xs : List α}
    (hf : ∀ a ∈ xs, ∀ s, P s → GivesIn P (f s a)) {s : σ} (hs : P s) :
    GivesIn P (xs.foldlM f s) := by
  induction xs generalizing s with
  | nil => exact givesIn_ok hs
  | cons a xs ih =>
    obtain ⟨ha, hxs⟩ := List.forall_mem_cons.mp hf
    exact (ha s hs).bind fun t ht => ih hxs ht

theorem givesIn_foldlM {P : σ → Prop} {f : σ → α → Except ε σ}
    (hf : ∀ s a, P s → GivesIn P (f s a)) {s : σ} (hs : P s) (xs : List α) :
    GivesIn P (xs.foldlM f s) := givesIn_foldlM_of_mem (fun a _ s => hf s a) hs

end Attempt

namespace Failure

def IsReport (f : Failure) : Prop := ∃ r, f = .reported r

/-- A report without a place, about a single statement. -/
def Bare (f : Failure) : Prop := ∃ c : Cause, c.category ≠ .structural ∧ f = .because c

/-- Not a report with a place. -/
def Unplaced (f : Failure) : Prop := f.Bare ∨ ∃ b, f = .broken b

end Failure

namespace Attempt

variable {α : Type} {x : Except Failure α}

theorem bare_because (c : Cause) (hc : (c.category == .structural) = false) :
    FailsIn Failure.Bare (.error (.because c) : Except Failure α) := by
  refine failsIn_error ⟨c, ?_, rfl⟩
  intro h
  rw [h] at hc
  cases hc

theorem FailsIn.isReport (hx : FailsIn Failure.Bare x) : FailsIn Failure.IsReport x := by
  refine hx.mono ?_
  rintro f ⟨c, -, rfl⟩
  exact ⟨_, rfl⟩

theorem FailsIn.unplaced (hx : FailsIn Failure.Bare x) : FailsIn Failure.Unplaced x :=
  hx.mono fun _ => .inl

theorem FailsIn.ne_broken (hx : FailsIn Failure.IsReport x) (b : Breakdown) :
    x ≠ .error (.broken b) := by
  intro h
  obtain ⟨r, hr⟩ := hx _ h
  cases hr

theorem FailsIn.location_eq_none (hx : FailsIn Failure.Unplaced x) {r : Report Cause}
    (h : x = .error (.reported r)) : r.location = none := by
  rcases hx _ h with ⟨c, -, hc⟩ | ⟨b, hb⟩
  · cases hc
    rfl
  · cases hb

theorem unplaced_number (y : Except Number.Fault α) :
    FailsIn Failure.Unplaced (y.mapError Failure.ofNumberFault) := by
  cases y with
  | ok a => exact failsIn_ok a
  | error f => exact failsIn_error (.inr ⟨_, rfl⟩)

theorem number_eq_broken {y : Except Number.Fault α} {b : Breakdown} :
    y.mapError Failure.ofNumberFault = .error (.broken b) ↔
      b = .tooManyDigits ∧ ∃ f, y = .error f := by
  rw [mapError_eq_error]
  constructor
  · rintro ⟨f, hf, hb⟩
    cases hb
    exact ⟨rfl, f, hf⟩
  · rintro ⟨rfl, f, hf⟩
    exact ⟨f, hf, rfl⟩

end Attempt

open Attempt

theorem Tag.isReport_scanAt (source : String) (line offset : Int) (t : Text) :
    FailsIn Failure.IsReport (scanAt source line offset t) := by
  intro f h
  obtain ⟨u, -, rfl⟩ := mapError_eq_error.mp h
  exact ⟨_, rfl⟩

theorem FieldType.bare_resolve (field rawType : Text) (tags : List Tag) :
    FailsIn Failure.Bare (resolve field rawType tags) := by
  unfold resolve resolveArray
  split
  · split
    · exact failsIn_ok _
    · exact bare_because _ rfl
  · exact failsIn_ok _

theorem FieldType.resolve_eq_ok {field rawType : Text} {found tags : List Tag}
    {schema : Fields Value} : resolve field rawType found = .ok (schema, tags) ↔
      (isArray rawType = true ∧ ∃ i, item? rawType = some i ∧ arraySchema i = schema ∧
        dropItemTag i found = tags) ∨
      (isArray rawType = false ∧ primitive (declared rawType) = schema ∧ found = tags) := by
  unfold resolve resolveArray
  cases isArray rawType with
  | false => simp
  | true => cases item? rawType <;> simp

theorem Permission.bare_compile (expression : Text) :
    FailsIn Failure.Bare (compile expression) := by
  unfold compile
  split
  · exact bare_because _ rfl
  · exact failsIn_ok _

theorem SortRule.bare_compile (expression : Text) : FailsIn Failure.Bare (compile expression) := by
  unfold compile
  split
  · exact failsIn_ok _
  · exact bare_because _ rfl

theorem BreadcrumbRule.bare_compile (expression : Text) :
    FailsIn Failure.Bare (compile expression) := by
  unfold compile
  split
  · exact failsIn_ok _
  · exact bare_because _ rfl

/-- Of the tags about a block, only a rule can fail with more than a report without a place. -/
theorem Block.tagChange?_eq_error {o : Options} {t : Text} {f : Failure}
    (h : tagChange? o t = some (.error f)) : Rule.compile o t = .error f ∨ f.Bare := by
  unfold tagChange? at h
  split at h
  all_goals simp only [Option.some.injEq, map_eq_error, reduceCtorEq] at h
  · exact .inl h
  · exact .inr (BreadcrumbRule.bare_compile t f h)
  · exact .inr (SortRule.bare_compile t f h)
  · exact .inr (Permission.bare_compile t f h)

end ModelSchema
