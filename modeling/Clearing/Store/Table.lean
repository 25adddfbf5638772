/-!
# Tables

A table gives values to names. Entries stay in the order in which their names were first put in, and
each name has one entry. A table is seen through `get?`: every operation says what it does to it.
-/

namespace Clearing.Table

variable {α : Type}

/-- The value of a name among entries. -/
def find (key : String) : List (String × α) → Option α
  | [] => none
  | (k, v) :: rest => if k = key then some v else find key rest

/-- Give a value to a name, in place or at the end. -/
def set (key : String) (value : α) : List (String × α) → List (String × α)
  | [] => [(key, value)]
  | (k, v) :: rest => if k = key then (k, value) :: rest else (k, v) :: set key value rest

/-- Setting a name finds its new value and the old ones of the others. -/
theorem find_set (key : String) (value : α) (other : String) (es : List (String × α)) :
    find other (set key value es) = if key = other then some value else find other es := by
  induction es with
  | nil => simp [set, find]
  | cons e es ih =>
      obtain ⟨k, v⟩ := e
      by_cases h : k = key
      · subst h
        by_cases h' : k = other <;> simp [set, find, h']
      · by_cases h' : key = other
        · subst h'
          simpa [set, find, h] using ih
        · simp [set, find, h, h', ih]

/-- Setting a name adds it to the names or leaves them. -/
theorem mem_names_set (key : String) (value : α) (name : String) (es : List (String × α)) :
    name ∈ (set key value es).map Prod.fst ↔ name = key ∨ name ∈ es.map Prod.fst := by
  induction es with
  | nil => simp [set]
  | cons e es ih =>
      obtain ⟨k, v⟩ := e
      by_cases h : k = key
      · subst h
        simp [set]
      · simp only [set, h, if_false, List.map_cons, List.mem_cons, ih]
        exact or_left_comm

/-- Setting a name leaves each name with one entry. -/
theorem nodup_set (key : String) (value : α) {es : List (String × α)}
    (h : (es.map Prod.fst).Nodup) : ((set key value es).map Prod.fst).Nodup := by
  induction es with
  | nil => simp [set]
  | cons e es ih =>
      obtain ⟨k, v⟩ := e
      rw [List.map_cons, List.nodup_cons] at h
      by_cases he : k = key
      · rw [set, if_pos he, List.map_cons, List.nodup_cons]
        exact h
      · rw [set, if_neg he, List.map_cons, List.nodup_cons, mem_names_set, not_or]
        exact ⟨⟨he, h.1⟩, ih h.2⟩

/-- Dropping a name finds it no more and leaves the others. -/
theorem find_filter (key other : String) (es : List (String × α)) :
    find other (es.filter (·.1 ≠ key)) = if key = other then none else find other es := by
  induction es with
  | nil => simp [find]
  | cons e es ih =>
      obtain ⟨k, v⟩ := e
      by_cases h : k = key
      · subst h
        by_cases h' : k = other
        · subst h'
          simpa using ih
        · simpa [find, h'] using ih
      · by_cases h' : key = other
        · subst h'
          simpa [find, h] using ih
        · simp only [ne_eq, decide_not, h', if_false] at ih
          simp [find, h, h', ih]

/-- What is found for a name is one of its entries. -/
theorem mem_of_find {key : String} {value : α} {es : List (String × α)}
    (h : find key es = some value) : (key, value) ∈ es := by
  induction es with
  | nil => simp [find] at h
  | cons e es ih =>
      obtain ⟨k, v⟩ := e
      by_cases hk : k = key
      · rw [find, if_pos hk] at h
        rw [← hk, ← Option.some.inj h]
        exact List.mem_cons_self ..
      · rw [find, if_neg hk] at h
        exact List.mem_cons_of_mem _ (ih h)

/-- An entry is found by its name, when each name has one. -/
theorem find_of_mem {key : String} {value : α} {es : List (String × α)}
    (hn : (es.map Prod.fst).Nodup) (h : (key, value) ∈ es) : find key es = some value := by
  induction es with
  | nil => exact absurd h List.not_mem_nil
  | cons e es ih =>
      obtain ⟨k, v⟩ := e
      rw [List.map_cons, List.nodup_cons] at hn
      rcases List.mem_cons.mp h with he | hm
      · cases he
        exact if_pos rfl
      · have hk : k ≠ key := by
          rintro rfl
          exact hn.1 (List.mem_map.mpr ⟨(k, value), hm, rfl⟩)
        rw [find, if_neg hk]
        exact ih hn.2 hm

end Clearing.Table

namespace Clearing

/-- Values by name, each name once. -/
structure Table (α : Type) where
  entries : List (String × α)
  nodup : (entries.map Prod.fst).Nodup
  deriving DecidableEq, Repr

namespace Table

variable {α : Type}

/-- The table without entries. -/
def empty : Table α := ⟨[], List.nodup_nil⟩

instance : Inhabited (Table α) := ⟨empty⟩

/-- The value of a name. -/
def get? (t : Table α) (key : String) : Option α := find key t.entries

/-- Give a value to a name. -/
def put (t : Table α) (key : String) (value : α) : Table α :=
  ⟨set key value t.entries, nodup_set key value t.nodup⟩

/-- Forget a name. -/
def erase (t : Table α) (key : String) : Table α :=
  ⟨t.entries.filter (·.1 ≠ key), t.nodup.sublist (List.filter_sublist.map _)⟩

/-- The values in the order of the entries. -/
def values (t : Table α) : List α := t.entries.map (·.2)

@[simp] theorem get?_empty (key : String) : (empty : Table α).get? key = none := rfl

@[simp] theorem get?_put (t : Table α) (key : String) (value : α) (other : String) :
    (t.put key value).get? other = if key = other then some value else t.get? other :=
  find_set key value other t.entries

@[simp] theorem get?_erase (t : Table α) (key other : String) :
    (t.erase key).get? other = if key = other then none else t.get? other :=
  find_filter key other t.entries

/-- A value is found exactly when it is the entry of its name. -/
theorem get?_eq_some_iff {t : Table α} {key : String} {value : α} :
    t.get? key = some value ↔ (key, value) ∈ t.entries :=
  ⟨mem_of_find, find_of_mem t.nodup⟩

end Table

end Clearing
