import Keepup.Credentials.Store

/-!
What saving a list of fields makes of the entry of a host or an integration: a
posted field has its new value, or is gone if that is empty, and every other
field stays.
-/

namespace Keepup

open Lib

/-- What a posted value leaves in an entry. -/
def Scalar.kept (value : Scalar) : Option Scalar := if value = .str "" then none else some value

namespace Entry

variable {entry other : Entry} {fields : List (String × Option Scalar)} {key : String}

theorem get?_saveField_ne {field : String} (value : Option Scalar) (h : key ≠ field) :
    (entry.saveField field value).get? key = entry.get? key := by
  cases value with
  | none => rfl
  | some value =>
      rw [saveField]
      split
      · exact Dict.get?_pop_ne _ h
      · exact Dict.get?_set_ne _ _ h

theorem get?_saveField_self (field : String) (value : Scalar) :
    (entry.saveField field (some value)).get? field = value.kept := by
  rw [saveField, Scalar.kept]
  split
  · exact Dict.get?_pop_self _ _
  · exact Dict.get?_set_self _ _ _

theorem saveFields_cons (field : String × Option Scalar) :
    entry.saveFields (field :: fields) = (entry.saveField field.1 field.2).saveFields fields := rfl

/-- A field that is not posted stays. -/
theorem get?_saveFields_of_not_posted (h : ∀ value, (key, some value) ∉ fields) :
    (entry.saveFields fields).get? key = entry.get? key := by
  induction fields generalizing entry with
  | nil => rfl
  | cons field rest ih =>
      obtain ⟨name, value⟩ := field
      rw [saveFields_cons, ih fun v hv => h v (List.mem_cons_of_mem _ hv)]
      by_cases hname : key = name
      · subst hname
        cases value with
        | none => rfl
        | some value => exact absurd List.mem_cons_self (h value)
      · exact get?_saveField_ne value hname

/-- A posted field does not depend on what was there. -/
theorem get?_saveFields_of_posted {value : Scalar} (h : (key, some value) ∈ fields) :
    (entry.saveFields fields).get? key = (other.saveFields fields).get? key := by
  induction fields generalizing entry other value with
  | nil => cases h
  | cons field rest ih =>
      rw [saveFields_cons, saveFields_cons]
      by_cases hrest : ∃ v, (key, some v) ∈ rest
      · obtain ⟨v, hv⟩ := hrest
        exact ih hv
      · rw [not_exists] at hrest
        rcases List.mem_cons.mp h with rfl | hlater
        · rw [get?_saveFields_of_not_posted hrest, get?_saveFields_of_not_posted hrest,
            get?_saveField_self, get?_saveField_self]
        · exact absurd hlater (hrest value)

/-- With no field posted twice, a posted field has the value that was posted. -/
theorem get?_saveFields_kept (hnodup : (fields.map Prod.fst).Nodup) {value : Scalar}
    (h : (key, some value) ∈ fields) : (entry.saveFields fields).get? key = value.kept := by
  induction fields generalizing entry with
  | nil => cases h
  | cons field rest ih =>
      rw [List.map_cons, List.nodup_cons] at hnodup
      rw [saveFields_cons]
      rcases List.mem_cons.mp h with rfl | hlater
      · have hrest : ∀ v, (key, some v) ∉ rest := fun v hv =>
          hnodup.1 (List.mem_map.mpr ⟨_, hv, rfl⟩)
        rw [get?_saveFields_of_not_posted hrest, get?_saveField_self]
      · exact ih hnodup.2 hlater

end Entry

end Keepup
