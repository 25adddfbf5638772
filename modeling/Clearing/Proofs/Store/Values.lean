import Clearing.Store.Table

/-!
# The values of a table

What a table holds, as a list. A new name adds its value at the end and a known name has its value
replaced in place, so a table is counted through its values. Changing values in place, each by its
name, leaves the names and their order: putting a value under a known name is such a change.
-/

namespace Clearing.Table

variable {α : Type}

/-- A name that is not found is set at the end. -/
theorem set_of_find_eq_none {key : String} {es : List (String × α)} (h : find key es = none)
    (value : α) : set key value es = es ++ [(key, value)] := by
  induction es with
  | nil => rfl
  | cons e es ih =>
    obtain ⟨k, v⟩ := e
    by_cases hk : k = key
    · rw [find, if_pos hk] at h
      cases h
    · rw [find, if_neg hk] at h
      rw [set, if_neg hk, ih h, List.cons_append]

/-- A name that is found is set where it is. -/
theorem set_of_find_eq_some {key : String} {old : α} {es : List (String × α)}
    (h : find key es = some old) (value : α) :
    ∃ before after, es = before ++ (key, old) :: after ∧
      set key value es = before ++ (key, value) :: after := by
  induction es with
  | nil => exact absurd h nofun
  | cons e es ih =>
    obtain ⟨k, v⟩ := e
    by_cases hk : k = key
    · rw [find, if_pos hk] at h
      cases h
      subst hk
      exact ⟨[], es, rfl, by rw [set, if_pos rfl, List.nil_append]⟩
    · rw [find, if_neg hk] at h
      obtain ⟨before, after, he, hs⟩ := ih h
      refine ⟨(k, v) :: before, after, by rw [he, List.cons_append], ?_⟩
      rw [set, if_neg hk, hs, List.cons_append]

/-- A name that is found, and once, is set by changing its value. -/
theorem set_eq_map {key : String} {old : α} {es : List (String × α)} (h : find key es = some old)
    (nodup : (es.map Prod.fst).Nodup) (value : α) :
    set key value es = es.map fun e => (e.1, if e.1 = key then value else e.2) := by
  induction es with
  | nil => exact absurd h nofun
  | cons e es ih =>
    obtain ⟨k, v⟩ := e
    rw [List.map_cons, List.nodup_cons] at nodup
    by_cases hk : k = key
    · subst hk
      have hrest : es.map (fun e => (e.1, if e.1 = k then value else e.2)) = es := by
        refine (List.map_congr_left fun e he => ?_).trans (List.map_id es)
        have hother : e.1 ≠ k := fun hname => nodup.1 (List.mem_map.mpr ⟨e, he, hname⟩)
        rw [if_neg hother]
        rfl
      rw [set, if_pos rfl, List.map_cons, if_pos rfl, hrest]
    · rw [find, if_neg hk] at h
      rw [set, if_neg hk, List.map_cons, if_neg hk, ih h nodup.2]

variable {t : Table α} {key : String} {value : α}

/-- A value is held exactly when some name finds it. -/
theorem mem_values_iff : value ∈ t.values ↔ ∃ key, t.get? key = some value := by
  unfold values
  rw [List.mem_map]
  constructor
  · rintro ⟨⟨key, _⟩, hm, rfl⟩
    exact ⟨key, get?_eq_some_iff.mpr hm⟩
  · rintro ⟨key, h⟩
    exact ⟨(key, value), get?_eq_some_iff.mp h, rfl⟩

/-- A new name adds its value. -/
theorem values_put_of_absent (h : t.get? key = none) (value : α) :
    (t.put key value).values = t.values ++ [value] := by
  change (set key value t.entries).map (·.2) = _
  rw [set_of_find_eq_none h, List.map_append]
  rfl

/-- A known name has its value replaced. -/
theorem values_put_of_present {old : α} (h : t.get? key = some old) (value : α) :
    ∃ before after, t.values = before ++ old :: after ∧
      (t.put key value).values = before ++ value :: after := by
  obtain ⟨before, after, he, hs⟩ := set_of_find_eq_some h value
  refine ⟨before.map (·.2), after.map (·.2), ?_, ?_⟩
  · rw [values, he, List.map_append, List.map_cons]
  · change (set key value t.entries).map (·.2) = _
    rw [hs, List.map_append, List.map_cons]

/-- A name of values that is the name of their entries is held once. -/
theorem nodup_map_values {name : α → String} (h : ∀ key v, t.get? key = some v → name v = key) :
    (t.values.map name).Nodup := by
  have hn : t.values.map name = t.entries.map Prod.fst := by
    rw [values, List.map_map]
    refine List.map_congr_left fun e he => ?_
    exact h e.1 e.2 (get?_eq_some_iff.mpr he)
  rw [hn]
  exact t.nodup

section Alter

/-- Change the values in place, each by its name. -/
def alter (t : Table α) (f : String → α → α) : Table α :=
  ⟨t.entries.map fun e => (e.1, f e.1 e.2), by
    rw [List.map_map]
    exact t.nodup⟩

variable {f g : String → α → α}

@[simp] theorem get?_alter (t : Table α) (f : String → α → α) (key : String) :
    (t.alter f).get? key = (t.get? key).map (f key) := by
  change find key (t.entries.map fun e => (e.1, f e.1 e.2)) = (find key t.entries).map (f key)
  induction t.entries with
  | nil => rfl
  | cons e es ih =>
    obtain ⟨k, v⟩ := e
    by_cases hk : k = key
    · subst hk
      simp [find]
    · simpa [find, hk] using ih

/-- One change after the other is one change. -/
theorem alter_alter (t : Table α) (f g : String → α → α) :
    (t.alter f).alter g = t.alter fun key v => g key (f key v) := by
  simp [alter]

/-- Changes that agree on what a table holds make the same of it. -/
theorem alter_congr (h : ∀ key v, t.get? key = some v → f key v = g key v) :
    t.alter f = t.alter g := by
  have hentries : t.entries.map (fun e => (e.1, f e.1 e.2)) =
      t.entries.map fun e => (e.1, g e.1 e.2) := by
    refine List.map_congr_left fun e he => ?_
    rw [h e.1 e.2 (get?_eq_some_iff.mpr he)]
  simp only [alter, hentries]

/-- A change that leaves everything that a table holds leaves the table. -/
theorem alter_of_fixed (h : ∀ key v, t.get? key = some v → f key v = v) : t.alter f = t := by
  rw [alter_congr h]
  simp [alter]

/-- Putting a value under a known name changes the value of that name. -/
theorem put_eq_alter {old : α} (h : t.get? key = some old) (value : α) :
    t.put key value = t.alter fun name v => if name = key then value else v := by
  have hset := set_eq_map h t.nodup value
  simp only [put, alter, hset]

end Alter

end Clearing.Table
