import Mathlib.Data.Finmap

/-!
# What holds of every stored value

A property of the values of a map that may depend on their keys. It survives the
removal of a key, and the insertion of a value that has it.
-/

namespace OrderTracking

universe u v w

variable {Key : Type u} {Value : Type v} [DecidableEq Key]
variable {map : Finmap fun _ : Key => Value} {key : Key} {value : Value}
variable {property : Key → Value → Prop}

theorem forall_lookup_insert
    (others : ∀ other result, other ≠ key → map.lookup other = some result →
      property other result)
    (new : property key value) :
    ∀ other result, (map.insert key value).lookup other = some result →
      property other result := by
  intro other result stored
  by_cases own : other = key
  · subst own
    rw [Finmap.lookup_insert, Option.some.injEq] at stored
    rwa [← stored]
  · rw [Finmap.lookup_insert_of_ne _ own] at stored
    exact others other result own stored

theorem forall_lookup_erase
    (others : ∀ other result, other ≠ key → map.lookup other = some result →
      property other result) :
    ∀ other result, (map.erase key).lookup other = some result →
      property other result := by
  intro other result stored
  by_cases own : other = key
  · rw [own, Finmap.lookup_erase] at stored
    cases stored
  · rw [Finmap.lookup_erase_ne own] at stored
    exact others other result own stored

/-- What is stored after an insertion is new or was stored before. -/
theorem lookup_insert_cases
    {other : Key}
    {result : Value}
    (stored : (map.insert key value).lookup other = some result) :
    other = key ∧ result = value ∨ other ≠ key ∧ map.lookup other = some result := by
  by_cases own : other = key
  · rw [own, Finmap.lookup_insert, Option.some.injEq] at stored
    exact Or.inl ⟨own, stored.symm⟩
  · rw [Finmap.lookup_insert_of_ne _ own] at stored
    exact Or.inr ⟨own, stored⟩

theorem lookup_of_lookup_erase
    {other : Key}
    {result : Value}
    (stored : (map.erase key).lookup other = some result) :
    map.lookup other = some result := by
  by_cases own : other = key
  · rw [own, Finmap.lookup_erase] at stored
    cases stored
  · rwa [Finmap.lookup_erase_ne own] at stored

/-- Maps with the same keys have corresponding values. -/
theorem map_entries_of_lookup
    {Result : Type w}
    {other : Finmap fun _ : Key => Result}
    {convert : Value → Result}
    (corresponds : ∀ key, other.lookup key = (map.lookup key).map convert) :
    other.entries.map (fun entry => entry.2) =
      map.entries.map fun entry => convert entry.2 := by
  have converted : other.entries =
      map.entries.map fun entry => ⟨entry.1, convert entry.2⟩ := by
    refine (other.nodup_entries.ext (Multiset.Nodup.map_on ?_ map.nodup_entries)).mpr ?_
    · intro first firstMember second secondMember same
      have firstStored := Finmap.lookup_eq_some_iff.mpr firstMember
      have secondStored := Finmap.lookup_eq_some_iff.mpr secondMember
      have sameKey : first.1 = second.1 := (Sigma.mk.inj same).1
      rw [sameKey, secondStored] at firstStored
      exact Sigma.ext sameKey (heq_of_eq (Option.some.inj firstStored.symm))
    · intro entry
      rw [← Finmap.lookup_eq_some_iff, corresponds, Option.map_eq_some_iff, Multiset.mem_map]
      constructor
      · rintro ⟨value, stored, isEntry⟩
        exact ⟨⟨entry.1, value⟩, Finmap.lookup_eq_some_iff.mp stored,
          Sigma.ext rfl (heq_of_eq isEntry)⟩
      · rintro ⟨⟨key, value⟩, member, rfl⟩
        exact ⟨value, Finmap.lookup_eq_some_iff.mpr member, rfl⟩
  rw [converted, Multiset.map_map]
  rfl

/-- Storing what is stored changes nothing. -/
theorem insert_eq_self_of_lookup
    (stored : map.lookup key = some value) :
    map.insert key value = map := by
  apply Finmap.ext_lookup
  intro other
  by_cases own : other = key
  · rw [own, Finmap.lookup_insert, stored]
  · rw [Finmap.lookup_insert_of_ne _ own]

/-- Storing a value and removing it again removes what was stored before. -/
theorem erase_insert_self
    (map : Finmap fun _ : Key => Value)
    (key : Key)
    (value : Value) :
    (map.insert key value).erase key = map.erase key := by
  apply Finmap.ext_lookup
  intro other
  by_cases own : other = key
  · rw [own, Finmap.lookup_erase, Finmap.lookup_erase]
  · rw [Finmap.lookup_erase_ne own, Finmap.lookup_erase_ne own,
      Finmap.lookup_insert_of_ne _ own]

end OrderTracking
