import Mathlib.Data.List.Nodup
import SqlGateway.Json.Basic

/-!
# Objects as ordered fields

What storing, looking up and appending do to the list of fields of an object. An object made by
storing has no key twice, and storing under a new key puts the field at the end. Values in which no
object has a key twice are those that a parser of JSON gives.
-/
namespace SqlGateway

namespace Object

theorem get?_append (key : String) (o p : Object) :
    get? key (o ++ p) = (get? key o).or (get? key p) := by
  induction o with
  | nil => rfl
  | cons field rest ih =>
      by_cases h : field.1 = key
      · simp [get?, h]
      · simpa [get?, h] using ih

theorem contains_append (key : String) (o p : Object) :
    contains key (o ++ p) = (contains key o || contains key p) := by
  simp only [contains, get?_append, Option.isSome_or]

theorem contains_iff_mem_keys {key : String} {o : Object} :
    contains key o = true ↔ key ∈ o.keys := by
  induction o with
  | nil => simp [contains, get?, keys]
  | cons field rest ih =>
      by_cases h : field.1 = key
      · simp [contains, get?, keys, h]
      · simp only [contains, get?, h, keys, List.map_cons, List.mem_cons, Ne.symm h, false_or]
        exact ih

theorem contains_insert_self (o : Object) (key : String) (value : Json) :
    contains key (o.insert key value) = true := by
  rw [contains, get?_insert_self]
  rfl

theorem contains_insert_of_contains {key : String} {o : Object} (h : contains key o = true)
    (other : String) (value : Json) : contains key (o.insert other value) = true := by
  by_cases hkey : key = other
  · rw [hkey]
    exact contains_insert_self o other value
  · rwa [contains, get?_insert_of_ne o value hkey]

theorem insert_of_not_contains {key : String} {o : Object} (h : contains key o = false)
    (value : Json) : o.insert key value = o ++ [(key, value)] := by
  induction o with
  | nil => rfl
  | cons field rest ih =>
      by_cases hk : field.1 = key
      · simp [contains, get?, hk] at h
      · have hrest : contains key rest = false := by simpa [contains, get?, hk] using h
        simp [insert, hk, ih hrest]

theorem keys_insert_of_contains {key : String} {o : Object} (h : contains key o = true)
    (value : Json) : (o.insert key value).keys = o.keys := by
  induction o with
  | nil => simp [contains, get?] at h
  | cons field rest ih =>
      by_cases hk : field.1 = key
      · simp [insert, keys, hk]
      · have hrest : contains key rest = true := by simpa [contains, get?, hk] using h
        have := ih hrest
        simp only [keys] at this ⊢
        simp [insert, hk, this]

theorem nodup_keys_insert {key : String} {o : Object} (h : o.keys.Nodup) (value : Json) :
    (o.insert key value).keys.Nodup := by
  by_cases hc : contains key o = true
  · rwa [keys_insert_of_contains hc]
  · have hn : key ∉ o.keys := fun hm => hc (contains_iff_mem_keys.mpr hm)
    rw [insert_of_not_contains (by simpa using hc), keys, List.map_append, List.nodup_append]
    refine ⟨h, List.nodup_singleton _, ?_⟩
    intro a ha b hb hab
    obtain rfl : b = key := by simpa using hb
    exact hn (hab ▸ ha)

theorem nodup_keys_insertAll (fields : Object) {o : Object} (h : o.keys.Nodup) :
    (insertAll fields o).keys.Nodup := by
  induction fields generalizing o with
  | nil => exact h
  | cons field rest ih => exact ih (nodup_keys_insert h field.2)

theorem get?_insertAll (key : String) (fields o : Object) :
    (insertAll fields o).get? key = (get? key fields.reverse).or (o.get? key) := by
  induction fields generalizing o with
  | nil => rfl
  | cons field rest ih =>
      change (insertAll rest (o.insert field.1 field.2)).get? key = _
      rw [ih, List.reverse_cons, get?_append, Option.or_assoc]
      congr 1
      by_cases h : field.1 = key
      · subst h
        simp [get?]
      · simp [get?, h, get?_insert_of_ne o field.2 (Ne.symm h)]

/-- Of several values under one key the last one counts. -/
theorem get?_ofFields (key : String) (fields : Object) :
    (ofFields fields).get? key = get? key fields.reverse := by
  rw [ofFields, get?_insertAll, get?, Option.or_none]

theorem contains_ofFields (key : String) (fields : Object) :
    contains key (ofFields fields) = contains key fields := by
  rw [Bool.eq_iff_iff, contains, get?_ofFields, ← contains, contains_iff_mem_keys,
    contains_iff_mem_keys, keys, keys, List.map_reverse, List.mem_reverse]

theorem keys_insert_congr {o p : Object} (h : o.keys = p.keys) (key : String) (v w : Json) :
    (o.insert key v).keys = (p.insert key w).keys := by
  have hcontains : contains key o = contains key p := by
    rw [Bool.eq_iff_iff, contains_iff_mem_keys, contains_iff_mem_keys, h]
  cases hc : contains key o with
  | true => rw [keys_insert_of_contains hc, keys_insert_of_contains (hcontains ▸ hc), h]
  | false =>
      rw [insert_of_not_contains hc, insert_of_not_contains (hcontains ▸ hc)]
      simpa [keys] using h

theorem nodup_keys_ofFields (fields : Object) : (ofFields fields).keys.Nodup :=
  nodup_keys_insertAll fields List.nodup_nil

theorem insertAll_of_nodup {fields o : Object} (h : (o ++ fields).keys.Nodup) :
    insertAll fields o = o ++ fields := by
  induction fields generalizing o with
  | nil => exact (List.append_nil o).symm
  | cons field rest ih =>
      have hcons : o ++ field :: rest = (o ++ [field]) ++ rest := List.append_cons o field rest
      have hnew : contains field.1 o = false := by
        refine (Bool.not_eq_true _).mp fun hc => ?_
        rw [keys, List.map_append, List.nodup_append] at h
        exact h.2.2 _ (contains_iff_mem_keys.mp hc) _ List.mem_cons_self rfl
      change insertAll rest (o.insert field.1 field.2) = _
      rw [insert_of_not_contains hnew, ih (hcons ▸ h), hcons]

/-- Fields with keys of their own are stored as they are. -/
theorem ofFields_of_nodup {fields : Object} (h : fields.keys.Nodup) : ofFields fields = fields :=
  insertAll_of_nodup h

theorem get?_of_mem {o : Object} (h : o.keys.Nodup) {key : String} {value : Json}
    (hmem : (key, value) ∈ o) : get? key o = some value := by
  induction o with
  | nil => cases hmem
  | cons field rest ih =>
      obtain ⟨hfield, hrest⟩ := List.nodup_cons.mp h
      rcases List.mem_cons.mp hmem with rfl | hmem
      · simp [get?]
      · have hne : field.1 ≠ key := by
          rintro rfl
          exact hfield (List.mem_map.mpr ⟨_, hmem, rfl⟩)
        rw [get?, if_neg hne]
        exact ih hrest hmem

theorem mem_of_get? {o : Object} {key : String} {value : Json} (h : get? key o = some value) :
    (key, value) ∈ o := by
  induction o with
  | nil => cases h
  | cons field rest ih =>
      obtain ⟨k, v⟩ := field
      rw [get?] at h
      split at h
      next hkey =>
        cases h
        exact hkey ▸ List.mem_cons_self
      · exact List.mem_cons_of_mem _ (ih h)

theorem mem_insert {field : String × Json} {key : String} {value : Json} {o : Object}
    (h : field ∈ o.insert key value) : field = (key, value) ∨ field ∈ o := by
  induction o with
  | nil => exact .inl (List.mem_singleton.mp h)
  | cons first rest ih =>
      rw [insert] at h
      split at h
      · rcases List.mem_cons.mp h with h | h
        · exact .inl h
        · exact .inr (List.mem_cons_of_mem first h)
      · rcases List.mem_cons.mp h with h | h
        · exact .inr (h ▸ List.mem_cons_self)
        · exact (ih h).imp_right (List.mem_cons_of_mem first)

theorem mem_insertAll {field : String × Json} {fields o : Object} (h : field ∈ insertAll fields o) :
    field ∈ fields ∨ field ∈ o := by
  induction fields generalizing o with
  | nil => exact .inr h
  | cons first rest ih =>
      rcases ih h with h | h
      · exact .inl (List.mem_cons_of_mem first h)
      · rcases mem_insert h with rfl | h
        · exact .inl List.mem_cons_self
        · exact .inr h

end Object

namespace Json

mutual

/-- No object in a value has a key twice. -/
def hasDistinctKeys : Json → Bool
  | .list items => itemsHaveDistinctKeys items
  | .object fields => decide (Object.keys fields).Nodup && fieldsHaveDistinctKeys fields
  | _ => true

def itemsHaveDistinctKeys : List Json → Bool
  | [] => true
  | item :: rest => item.hasDistinctKeys && itemsHaveDistinctKeys rest

def fieldsHaveDistinctKeys : Object → Bool
  | [] => true
  | (_, value) :: rest => value.hasDistinctKeys && fieldsHaveDistinctKeys rest

end

theorem itemsHaveDistinctKeys_iff {items : List Json} :
    itemsHaveDistinctKeys items = true ↔ ∀ item ∈ items, item.hasDistinctKeys = true := by
  induction items with
  | nil => simp [itemsHaveDistinctKeys]
  | cons item rest ih => simp [itemsHaveDistinctKeys, ih]

theorem fieldsHaveDistinctKeys_iff {fields : Object} :
    fieldsHaveDistinctKeys fields = true ↔ ∀ field ∈ fields, field.2.hasDistinctKeys = true := by
  induction fields with
  | nil => simp [fieldsHaveDistinctKeys]
  | cons field rest ih => simp [fieldsHaveDistinctKeys, ih]

theorem hasDistinctKeys_list {items : List Json} :
    (list items).hasDistinctKeys = true ↔ ∀ item ∈ items, item.hasDistinctKeys = true := by
  rw [hasDistinctKeys, itemsHaveDistinctKeys_iff]

theorem hasDistinctKeys_object {fields : Object} : (object fields).hasDistinctKeys = true ↔
    fields.keys.Nodup ∧ ∀ field ∈ fields, field.2.hasDistinctKeys = true := by
  rw [hasDistinctKeys, Bool.and_eq_true, decide_eq_true_iff, fieldsHaveDistinctKeys_iff]

/-- An object that is made by storing has no key twice if none of the values has. -/
theorem hasDistinctKeys_ofFields {fields : Object}
    (h : ∀ field, field ∈ fields → field.2.hasDistinctKeys = true) :
    (object (Object.ofFields fields)).hasDistinctKeys = true := by
  refine hasDistinctKeys_object.mpr ⟨Object.nodup_keys_ofFields fields, fun field hfield => ?_⟩
  exact (Object.mem_insertAll hfield).elim (h field) fun hnone => nomatch hnone

end Json

end SqlGateway
