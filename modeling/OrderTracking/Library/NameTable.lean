import Mathlib.Data.List.Nodup

/-!
# Tables of names

A table that gives every value of an enumeration a name of its own, read in both
directions. One value, the invalid one, also stands for every string that is not
a name.
-/

namespace OrderTracking

universe u v

/-- A one-to-one table of names for all values of a type. -/
structure NameTable (α : Type u) (β : Type v) where
  /-- The pairs of a value and its name. -/
  entries : List (α × β)
  /-- The value that strings outside the table stand for. -/
  invalid : α
  /-- The name of values outside the table. -/
  noName : β
  /-- Every value has an entry. -/
  total : ∀ value, value ∈ entries.map Prod.fst
  /-- No value has two entries. -/
  valuesNodup : (entries.map Prod.fst).Nodup
  /-- No name has two entries. -/
  namesNodup : (entries.map Prod.snd).Nodup

namespace NameTable

variable {α : Type u} {β : Type v} [DecidableEq α]

theorem lookup_eq_some_of_mem
    {entries : List (α × β)}
    (nodup : (entries.map Prod.fst).Nodup)
    {value : α}
    {name : β}
    (member : (value, name) ∈ entries) :
    entries.lookup value = some name := by
  induction entries with
  | nil => simp at member
  | cons entry entries inductionHypothesis =>
      obtain ⟨otherValue, otherName⟩ := entry
      rw [List.map_cons, List.nodup_cons] at nodup
      rcases List.mem_cons.mp member with equal | inTail
      · cases equal
        simp
      · have different : (value == otherValue) = false := by
          rw [beq_eq_false_iff_ne]
          rintro rfl
          exact nodup.1 (List.mem_map.mpr ⟨_, inTail, rfl⟩)
        rw [List.lookup_cons, different]
        exact inductionHypothesis nodup.2 inTail

theorem mem_of_lookup_eq_some
    {entries : List (α × β)}
    {value : α}
    {name : β}
    (found : entries.lookup value = some name) :
    (value, name) ∈ entries := by
  induction entries with
  | nil => simp at found
  | cons entry entries inductionHypothesis =>
      obtain ⟨otherValue, otherName⟩ := entry
      rw [List.lookup_cons] at found
      by_cases equal : value = otherValue
      · subst equal
        simp only [beq_self_eq_true, Option.some.injEq] at found
        rw [found]
        exact List.mem_cons_self
      · rw [beq_eq_false_iff_ne.mpr equal] at found
        exact List.mem_cons_of_mem _ (inductionHypothesis found)

/-- The name of a value. -/
def name (table : NameTable α β) (value : α) : β :=
  (table.entries.lookup value).getD table.noName

theorem mem_entries
    (table : NameTable α β)
    (value : α) :
    (value, table.name value) ∈ table.entries := by
  obtain ⟨entry, member, rfl⟩ := List.mem_map.mp (table.total value)
  rw [name, lookup_eq_some_of_mem table.valuesNodup member]
  exact member

variable [DecidableEq β]

/-- The value with the given name, or the invalid value. -/
def value (table : NameTable α β) (name : β) : α :=
  ((table.entries.map Prod.swap).lookup name).getD table.invalid

/-- The name of a value is read back as that value. -/
@[simp] theorem value_name
    (table : NameTable α β)
    (value : α) :
    table.value (table.name value) = value := by
  have swapped : (table.name value, value) ∈ table.entries.map Prod.swap :=
    List.mem_map.mpr ⟨_, table.mem_entries value, rfl⟩
  have nodup : ((table.entries.map Prod.swap).map Prod.fst).Nodup := by
    rw [List.map_map]
    exact table.namesNodup
  rw [NameTable.value, lookup_eq_some_of_mem nodup swapped]
  rfl

/-- A string that reads as a value other than the invalid one is its name. -/
theorem name_value
    (table : NameTable α β)
    {name : β}
    (valid : table.value name ≠ table.invalid) :
    table.name (table.value name) = name := by
  cases found : (table.entries.map Prod.swap).lookup name with
  | none => exact absurd (by rw [value, found]; rfl) valid
  | some result =>
      have member := mem_of_lookup_eq_some found
      obtain ⟨entry, inEntries, equal⟩ := List.mem_map.mp member
      cases equal
      rw [value, found, Option.getD_some, NameTable.name,
        lookup_eq_some_of_mem table.valuesNodup inEntries]
      rfl

end NameTable
end OrderTracking
