import Mathlib.Data.List.Induction
import Mathlib.Data.List.Nodup
import ModelSchema.Value.Fields

namespace ModelSchema.Fields

variable {α β : Type}

theorem get?_put (key k : String) (v : α) (fs : Fields α) :
    (fs.put key v).get? k = if k = key then some v else fs.get? k := by
  induction fs with
  | nil =>
    by_cases h : k = key
    · simp [put, get?, h]
    · have hne : ¬key = k := fun e => h e.symm
      simp [put, get?, h, hne]
  | cons e fs ih =>
    by_cases hkey : e.1 = key
    · by_cases h : k = key
      · simp [put, get?, hkey, h]
      · have hne : ¬key = k := fun e => h e.symm
        simp [put, get?, hkey, h, hne]
    · by_cases h : e.1 = k
      · have hne : ¬k = key := fun hk => hkey (h.trans hk)
        simp [put, get?, h, hne]
      · simp [put, get?, hkey, h, ih]

theorem put_put (key : String) (v w : α) (fs : Fields α) :
    (fs.put key v).put key w = fs.put key w := by
  induction fs with
  | nil => simp [put]
  | cons e fs ih =>
    by_cases hkey : e.1 = key
    · simp [put, hkey]
    · simp [put, hkey, ih]

/-- Writing a key that is there already does not interfere with writing another one. -/
theorem put_comm {key k : String} (hne : k ≠ key) (v w : α) {fs : Fields α}
    (hkey : (fs.get? key).isSome = true) :
    (fs.put key v).put k w = (fs.put k w).put key v := by
  induction fs with
  | nil => simp [get?] at hkey
  | cons e fs ih =>
    by_cases he : e.1 = key
    · have hk : ¬e.1 = k := fun h => hne (h.symm.trans he)
      have hk' : ¬key = k := fun h => hne h.symm
      simp [put, he, hk']
    · have hrest : (get? key fs).isSome = true := by simpa [get?, he] using hkey
      by_cases hk : e.1 = k
      · simp [put, hk, hne]
      · simp [put, he, hk, ih hrest]

theorem get?_erase {key k : String} (hne : k ≠ key) (fs : Fields α) :
    (fs.erase key).get? k = fs.get? k := by
  induction fs with
  | nil => rfl
  | cons e fs ih =>
    by_cases hkey : e.1 = key
    · have hk : ¬key = k := fun h => hne h.symm
      simp [erase, get?, hkey, hk]
    · by_cases hk : e.1 = k
      · simp [erase, get?, hk, hne]
      · simp [erase, get?, hkey, hk, ih]

theorem erase_put {key k : String} (hne : k ≠ key) (v : α) (fs : Fields α) :
    (fs.put k v).erase key = (fs.erase key).put k v := by
  induction fs with
  | nil => simp [put, erase, hne]
  | cons e fs ih =>
    by_cases hk : e.1 = k
    · simp [put, erase, hk, hne]
    · by_cases hkey : e.1 = key
      · simp [put, erase, hkey, hne.symm]
      · simp [put, erase, hk, hkey, ih]

theorem get?_filter (key : String) (fs : Fields α) :
    get? key (fs.filter (·.1 = key)) = get? key fs := by
  induction fs with
  | nil => rfl
  | cons e fs ih =>
    by_cases hkey : e.1 = key
    · simp [get?, hkey]
    · simp [get?, hkey, ih]

theorem get?_mapValues (f : α → β) (key : String) (fs : Fields α) :
    get? key (fs.map fun e => (e.1, f e.2)) = (fs.get? key).map f := by
  induction fs with
  | nil => rfl
  | cons e fs ih =>
    by_cases h : e.1 = key
    · simp [get?, h]
    · simpa [get?, h] using ih

theorem map_put (f : α → β) (key : String) (v : α) (fs : Fields α) :
    (fs.put key v).map (fun e => (e.1, f e.2)) =
      Fields.put key (f v) (fs.map fun e => (e.1, f e.2)) := by
  induction fs with
  | nil => simp [put]
  | cons e fs ih =>
    by_cases hkey : e.1 = key
    · simp [put, hkey]
    · simp [put, hkey, ih]

theorem map_putAll (f : α → β) (new old : Fields α) :
    (putAll new old).map (fun e => (e.1, f e.2)) =
      putAll (new.map fun e => (e.1, f e.2)) (old.map fun e => (e.1, f e.2)) := by
  induction new generalizing old with
  | nil => rfl
  | cons e new ih =>
    change (putAll new (old.put e.1 e.2)).map _ = _
    rw [ih, map_put]
    rfl

theorem mem_put {key : String} {v : α} {fs : Fields α} {e : String × α} (h : e ∈ fs.put key v) :
    e.2 = v ∨ e ∈ fs := by
  induction fs with
  | nil =>
    obtain rfl : e = (key, v) := by simpa [put] using h
    exact .inl rfl
  | cons f fs ih =>
    simp only [put] at h
    split at h
    · rcases List.mem_cons.mp h with rfl | h
      · exact .inl rfl
      · exact .inr (List.mem_cons_of_mem f h)
    · rcases List.mem_cons.mp h with rfl | h
      · exact .inr List.mem_cons_self
      · rcases ih h with hv | hmem
        · exact .inl hv
        · exact .inr (List.mem_cons_of_mem f hmem)

/-- A key that is there already can be written before other keys. -/
theorem put_putAll {key : String} (v : α) {new old : Fields α} (hnew : key ∉ new.keys)
    (hold : (old.get? key).isSome = true) :
    (putAll new old).put key v = putAll new (old.put key v) := by
  induction new generalizing old with
  | nil => rfl
  | cons e new ih =>
    obtain ⟨hne, hrest⟩ : ¬key = e.1 ∧ key ∉ keys new := by simpa [keys] using hnew
    have hkept : ((old.put e.1 e.2).get? key).isSome = true := by
      rw [get?_put, if_neg hne]
      exact hold
    change (putAll new (old.put e.1 e.2)).put key v = putAll new ((old.put key v).put e.1 e.2)
    rw [ih hrest hkept, put_comm (Ne.symm hne) v e.2 hold]

/-- Writing a table that has one more entry. -/
theorem putAll_put {new : Fields α} (h : new.keys.Nodup) (key : String) (v : α) (old : Fields α) :
    putAll (new.put key v) old = (putAll new old).put key v := by
  induction new generalizing old with
  | nil => rfl
  | cons e new ih =>
    obtain ⟨he, hrest⟩ := List.nodup_cons.mp h
    by_cases hkey : e.1 = key
    · subst hkey
      have hput : put e.1 v (e :: new) = (e.1, v) :: new := by simp [put]
      rw [hput]
      change putAll new (old.put e.1 v) = (putAll new (old.put e.1 e.2)).put e.1 v
      rw [put_putAll v he (by simp [get?_put]), put_put]
    · have hput : put key v (e :: new) = e :: put key v new := by simp [put, hkey]
      rw [hput]
      exact ih hrest (old.put e.1 e.2)

theorem keys_put (key : String) (v : α) (fs : Fields α) :
    (fs.put key v).keys = if key ∈ fs.keys then fs.keys else fs.keys ++ [key] := by
  induction fs with
  | nil => simp [put, keys]
  | cons e fs ih =>
    by_cases h : e.1 = key
    · simp [put, keys, h]
    · have hne : ¬key = e.1 := fun he => h he.symm
      change keys _ = if key ∈ e.1 :: keys fs then e.1 :: keys fs else e.1 :: keys fs ++ [key]
      have hput : keys (put key v (e :: fs)) = e.1 :: keys (put key v fs) := by
        simp [put, keys, h]
      rw [hput, ih]
      by_cases hmem : key ∈ keys fs
      · simp [hmem]
      · simp [hmem, hne]

theorem nodup_keys_put {fs : Fields α} (h : fs.keys.Nodup) (key : String) (v : α) :
    (fs.put key v).keys.Nodup := by
  rw [keys_put]
  split
  · exact h
  · rename_i hnew
    rw [List.nodup_append]
    refine ⟨h, List.nodup_singleton key, ?_⟩
    intro a ha b hb hab
    rw [List.mem_singleton] at hb
    exact hnew (hb ▸ hab ▸ ha)

theorem nodup_keys_putAll (new : Fields α) {old : Fields α} (h : old.keys.Nodup) :
    (putAll new old).keys.Nodup := by
  induction new generalizing old with
  | nil => exact h
  | cons e new ih => exact ih (nodup_keys_put h e.1 e.2)

private theorem eraseDups_of_nodup {ks : List String} (h : ks.Nodup) : ks.eraseDups = ks := by
  induction ks with
  | nil => rfl
  | cons k ks ih =>
    obtain ⟨hk, hrest⟩ := List.nodup_cons.mp h
    have hkeep : ks.filter (fun b => !b == k) = ks := by
      rw [List.filter_eq_self]
      intro b hb
      have hne : b ≠ k := fun e => hk (e ▸ hb)
      simpa using hne
    rw [List.eraseDups_cons, hkeep, ih hrest]

theorem keys_putAll (new : Fields α) {old : Fields α} (h : old.keys.Nodup) :
    (putAll new old).keys = (old.keys ++ new.keys).eraseDups := by
  induction new generalizing old with
  | nil => simpa [putAll, keys] using (eraseDups_of_nodup h).symm
  | cons e new ih =>
    have hih := ih (nodup_keys_put h e.1 e.2)
    change (putAll new (old.put e.1 e.2)).keys = (old.keys ++ e.1 :: keys new).eraseDups
    rw [hih, keys_put]
    split
    · rename_i hmem
      simp [List.eraseDups_append, List.removeAll, hmem]
    · simp

theorem get?_append (k : String) (fs gs : Fields α) :
    get? k (fs ++ gs) = (get? k fs).or (get? k gs) := by
  induction fs with
  | nil => simp [get?]
  | cons e fs ih =>
    by_cases h : e.1 = k
    · simp [get?, h]
    · simpa [get?, h] using ih

theorem get?_putAll (k : String) (new old : Fields α) :
    (putAll new old).get? k = (get? k new.reverse).or (old.get? k) := by
  induction new generalizing old with
  | nil => simp [putAll, get?]
  | cons e new ih =>
    change (putAll new (old.put e.1 e.2)).get? k = _
    rw [ih, get?_put, List.reverse_cons, get?_append, Option.or_assoc]
    by_cases h : k = e.1
    · simp [get?, h]
    · have hne : ¬e.1 = k := fun he => h he.symm
      simp [get?, h, hne]

/-- A table without repeated keys is its keys, each with its value. -/
theorem eq_filterMap_keys {fs : Fields α} (h : fs.keys.Nodup) :
    fs = fs.keys.filterMap fun k => (fs.get? k).map fun v => (k, v) := by
  induction fs with
  | nil => rfl
  | cons e fs ih =>
    obtain ⟨he, hrest⟩ := List.nodup_cons.mp h
    have htail : ∀ k ∈ keys fs, get? k (e :: fs) = get? k fs := by
      intro k hk
      have hne : ¬e.1 = k := fun hek => he (hek ▸ hk)
      simp [get?, hne]
    have hmap : (keys fs).filterMap (fun k => (get? k (e :: fs)).map fun v => (k, v)) = fs := by
      rw [List.filterMap_congr (fun k hk => by rw [htail k hk])]
      exact (ih hrest).symm
    have hhead : get? e.1 (e :: fs) = some e.2 := by simp [get?]
    change _ = (e.1 :: keys fs).filterMap _
    rw [List.filterMap_cons, hhead, hmap]
    rfl

theorem nodup_keys_ofEntries (es : Fields α) : (ofEntries es).keys.Nodup :=
  nodup_keys_putAll es (by simp [keys])

theorem keys_ofEntries (es : Fields α) : (ofEntries es).keys = es.keys.eraseDups := by
  have h := @keys_putAll α es [] (by simp [keys])
  simpa [ofEntries, keys] using h

theorem ofEntries_eq_nil {es : Fields α} : ofEntries es = [] ↔ es = [] := by
  constructor
  · intro h
    have hkeys : es.keys.eraseDups = [] := by rw [← keys_ofEntries, h]; rfl
    cases es with
    | nil => rfl
    | cons e es => simp [keys, List.eraseDups_cons] at hkeys
  · rintro rfl
    rfl

/-- Entries written in order: the keys as they first come, each with the value that comes last. -/
theorem ofEntries_eq (es : Fields α) :
    ofEntries es =
      es.keys.eraseDups.filterMap fun k => (get? k es.reverse).map fun v => (k, v) := by
  rw [eq_filterMap_keys (nodup_keys_ofEntries es), keys_ofEntries]
  apply List.filterMap_congr
  intro k _
  simp [ofEntries, get?_putAll, get?]

theorem ext_of_nodup {fs gs : Fields α} (hfs : fs.keys.Nodup) (hkeys : fs.keys = gs.keys)
    (hget : ∀ k, fs.get? k = gs.get? k) : fs = gs := by
  have hgs : gs.keys.Nodup := hkeys ▸ hfs
  rw [eq_filterMap_keys hfs, eq_filterMap_keys hgs, hkeys]
  apply List.filterMap_congr
  intro k _
  rw [hget k]

/-- The table with these keys, as they first come, each with its value under `f`. -/
def tabulate (ks : List String) (f : String → α) : Fields α := ks.eraseDups.map fun k => (k, f k)

theorem keys_tabulate (ks : List String) (f : String → α) :
    (tabulate ks f).keys = ks.eraseDups := by
  simp [tabulate, keys, Function.comp_def]

theorem get?_tabulate (ks : List String) (f : String → α) (k : String) :
    (tabulate ks f).get? k = if k ∈ ks then some (f k) else none := by
  have hmap (ls : List String) :
      get? k (ls.map fun l => (l, f l)) = if k ∈ ls then some (f k) else none := by
    induction ls with
    | nil => rfl
    | cons l ls ih =>
      by_cases h : l = k
      · simp [get?, h]
      · have hne : ¬k = l := fun e => h e.symm
        simp only [List.map_cons, get?, h, if_false, ih, List.mem_cons, hne, false_or]
  rw [tabulate, hmap]
  simp only [List.mem_eraseDups]

theorem nodup_keys_tabulate (ks : List String) (f : String → α) : (tabulate ks f).keys.Nodup := by
  have hentries : (ofEntries (ks.map fun k => (k, ()))).keys = ks.eraseDups := by
    rw [keys_ofEntries]
    simp [keys, Function.comp_def]
  rw [keys_tabulate, ← hentries]
  exact nodup_keys_ofEntries _

/-- One more key, of which the values of the other keys do not depend. -/
theorem tabulate_concat {ks : List String} {k : String} {f g : String → α}
    (h : ∀ l ∈ ks, l ≠ k → g l = f l) : tabulate (ks ++ [k]) g = (tabulate ks f).put k (g k) := by
  apply ext_of_nodup (nodup_keys_tabulate _ _)
  · rw [keys_put, keys_tabulate, keys_tabulate, List.eraseDups_append]
    by_cases hmem : k ∈ ks
    · simp [List.removeAll, hmem]
    · simp [List.removeAll, hmem, List.eraseDups_cons]
  · intro l
    rw [get?_put, get?_tabulate, get?_tabulate]
    by_cases hl : l = k
    · simp [hl]
    · by_cases hmem : l ∈ ks
      · simp [hl, hmem, h l hmem hl]
      · simp [hl, hmem]

/-- Entries can be made a table of their own before they are written. -/
theorem putAll_ofEntries (es old : Fields α) : putAll (ofEntries es) old = putAll es old := by
  induction es using List.reverseRecOn with
  | nil => rfl
  | append_singleton es e ih =>
    have hlast (t : Fields α) : putAll (es ++ [e]) t = (putAll es t).put e.1 e.2 := by
      simp [putAll]
    rw [ofEntries, hlast, hlast, ← ofEntries, putAll_put (nodup_keys_ofEntries es), ih]

end ModelSchema.Fields
