import Mathlib.Data.List.Induction
import Mathlib.Data.List.Nodup
import Mathlib.Data.List.Perm.Basic
import Mathlib.Tactic.SplitIfs
import SqlGateway.Dictionary

/-!
# Dictionaries in ascending order

A dictionary whose keys ascend has one entry for each key, and is known once it is known what it
holds under every key. Storing and taking out keep the order.
-/
namespace SqlGateway.Dictionary

variable {α β : Type} {d : Dictionary α} {key : String}

/-- The keys ascend. -/
def Ascending (d : Dictionary α) : Prop := d.Pairwise fun a b => a.1 < b.1

theorem ascending_iff : d.Ascending ↔ d.keys.Pairwise (· < ·) := List.pairwise_map.symm

theorem Ascending.nodup (h : d.Ascending) : d.keys.Nodup := by
  refine List.Pairwise.map _ (fun a b hlt heq => ?_) h
  rw [heq] at hlt
  exact String.lt_irrefl _ hlt

theorem get?_eq_none_iff {key : String} : d.get? key = none ↔ key ∉ d.keys := by
  induction d with
  | nil => exact ⟨fun _ => List.not_mem_nil, fun _ => rfl⟩
  | cons first rest ih =>
      obtain ⟨k, v⟩ := first
      by_cases h : k = key
      · simp [get?, keys, h]
      · simp only [get?, h, if_false, keys, List.map_cons, List.mem_cons, Ne.symm h, false_or]
        exact ih

theorem mem_of_get? {α : Type} {d : Dictionary α} {key : String} {value : α}
    (h : d.get? key = some value) : (key, value) ∈ d := by
  induction d with
  | nil => cases h
  | cons entry rest ih =>
      obtain ⟨k, v⟩ := entry
      by_cases hk : k = key
      · subst hk
        obtain rfl : v = value := by simpa [get?] using h
        exact List.mem_cons_self
      · rw [get?, if_neg hk] at h
        exact List.mem_cons_of_mem _ (ih h)

theorem get?_of_mem (hd : d.Ascending) {value : α} (h : (key, value) ∈ d) :
    d.get? key = some value := by
  induction d with
  | nil => cases h
  | cons entry rest ih =>
      obtain ⟨k, v⟩ := entry
      obtain ⟨hfirst, hrest⟩ := List.pairwise_cons.mp hd
      rcases List.mem_cons.mp h with heq | h
      · cases heq
        simp [get?]
      · have hne : k ≠ key := by
          rintro rfl
          have hlt : k < k := hfirst (k, value) h
          exact String.lt_irrefl _ hlt
        simpa [get?, hne] using ih hrest h

theorem mem_keys_iff : key ∈ d.keys ↔ ∃ value, d.get? key = some value := by
  rw [← Option.ne_none_iff_exists', Ne, get?_eq_none_iff, not_not]

theorem contains_iff : d.contains key = true ↔ key ∈ d.keys := by
  rw [contains, Option.isSome_iff_exists, mem_keys_iff]

theorem mem_values_iff (hd : d.Ascending) {value : α} :
    value ∈ d.values ↔ ∃ key, d.get? key = some value := by
  constructor
  · intro h
    obtain ⟨⟨k, v⟩, hmem, rfl⟩ := List.mem_map.mp h
    exact ⟨k, get?_of_mem hd hmem⟩
  · rintro ⟨key, h⟩
    exact List.mem_map_of_mem (mem_of_get? h)

/-- Dictionaries in ascending order that hold the same under every key are equal. -/
theorem eq_of_get? {d' : Dictionary α} (hd : d.Ascending) (hd' : d'.Ascending)
    (h : ∀ key, d.get? key = d'.get? key) : d = d' := by
  have hsub {a b : Dictionary α} (hb : b.Ascending) (hab : ∀ key, a.get? key = b.get? key)
      (ha : a.Ascending) : a ⊆ b := by
    rintro ⟨key, value⟩ hmem
    exact mem_of_get? ((hab key).symm.trans (get?_of_mem ha hmem))
  have hnodup {a : Dictionary α} (ha : a.Ascending) : a.Nodup := ha.nodup.of_map _
  have hperm : d.Perm d' := (List.perm_ext_iff_of_nodup (hnodup hd) (hnodup hd')).mpr fun entry =>
    ⟨fun hmem => hsub hd' h hd hmem, fun hmem => hsub hd (fun key => (h key).symm) hd' hmem⟩
  refine hperm.eq_of_pairwise (fun a b _ _ hlt hgt => ?_) hd hd'
  exact absurd (String.lt_trans hlt hgt) (String.lt_irrefl _)

theorem mem_insert {entry : String × α} {key : String} {value : α}
    (h : entry ∈ d.insert key value) : entry = (key, value) ∨ entry ∈ d := by
  induction d with
  | nil => exact .inl (List.mem_singleton.mp h)
  | cons first rest ih =>
      rw [insert] at h
      split_ifs at h
      · exact (List.mem_cons.mp h).imp_right (List.mem_cons_of_mem _)
      · exact List.mem_cons.mp h
      · rcases List.mem_cons.mp h with rfl | h
        · exact .inr List.mem_cons_self
        · exact (ih h).imp_right (List.mem_cons_of_mem _)

theorem Ascending.insert (h : d.Ascending) (key : String) (value : α) :
    (d.insert key value).Ascending := by
  induction d with
  | nil => exact List.pairwise_singleton _ _
  | cons first rest ih =>
      obtain ⟨hfirst, hrest⟩ := List.pairwise_cons.mp h
      rw [Dictionary.insert]
      split_ifs with hkey hlt
      · exact List.pairwise_cons.mpr ⟨fun b hb => hkey ▸ hfirst b hb, hrest⟩
      · refine List.pairwise_cons.mpr ⟨fun b hb => ?_, h⟩
        rcases List.mem_cons.mp hb with rfl | hb
        · exact hlt
        · exact String.lt_trans hlt (hfirst b hb)
      · refine List.pairwise_cons.mpr ⟨fun b hb => ?_, ih hrest⟩
        rcases mem_insert hb with rfl | hb
        · exact Std.lt_of_le_of_ne (String.not_lt.mp hlt) hkey
        · exact hfirst b hb

theorem get?_insert (d : Dictionary α) (key name : String) (value : α) :
    (d.insert key value).get? name = if name = key then some value else d.get? name := by
  split_ifs with h
  · rw [h, get?_insert_self]
  · exact get?_insert_of_ne d value h

theorem mem_keys_insert (d : Dictionary α) (key name : String) (value : α) :
    name ∈ (d.insert key value).keys ↔ name = key ∨ name ∈ d.keys := by
  by_cases h : name = key
  · subst h
    simp [← not_iff_not, ← get?_eq_none_iff]
  · rw [← not_iff_not, ← get?_eq_none_iff, get?_insert_of_ne _ _ h, get?_eq_none_iff]
    simp [h]

/-- Storing what is there already changes nothing. -/
theorem insert_of_get? (hd : d.Ascending) {value : α} (h : d.get? key = some value) :
    d.insert key value = d := by
  refine eq_of_get? (hd.insert key value) hd fun name => ?_
  rw [get?_insert]
  split_ifs with hname
  · rw [hname, h]
  · rfl

theorem ascending_ofList (entries : List (String × α)) : (ofList entries).Ascending := by
  have hfold (entries : List (String × α)) {start : Dictionary α} (hstart : start.Ascending) :
      (entries.foldl (fun d entry => d.insert entry.1 entry.2) start).Ascending := by
    induction entries generalizing start with
    | nil => exact hstart
    | cons entry rest ih => exact ih (hstart.insert entry.1 entry.2)
  exact hfold entries List.Pairwise.nil

theorem ofList_concat (entries : List (String × α)) (entry : String × α) :
    ofList (entries ++ [entry]) = (ofList entries).insert entry.1 entry.2 := by
  simp [ofList]

theorem mem_of_mem_ofList {entries : List (String × α)} {entry : String × α}
    (h : entry ∈ ofList entries) : entry ∈ entries := by
  induction entries using List.reverseRecOn with
  | nil => exact h
  | append_singleton entries last ih =>
      rw [ofList_concat] at h
      rcases mem_insert h with rfl | h
      · simp
      · exact List.mem_append_left _ (ih h)

theorem keys_mapValues (f : α → β) (d : Dictionary α) : (d.mapValues f).keys = d.keys := by
  simp [mapValues, keys]

theorem Ascending.mapValues (h : d.Ascending) (f : α → β) : (d.mapValues f).Ascending := by
  rw [ascending_iff, keys_mapValues]
  exact ascending_iff.mp h

theorem get?_mapValues (f : α → β) (key : String) :
    (d.mapValues f).get? key = (d.get? key).map f := by
  induction d with
  | nil => rfl
  | cons first rest ih =>
      obtain ⟨k, v⟩ := first
      by_cases h : k = key
      · simp [mapValues, get?, h]
      · simpa [mapValues, get?, h] using ih

theorem Ascending.filter (h : d.Ascending) (p : String × α → Bool) : Ascending (d.filter p) :=
  List.Pairwise.sublist List.filter_sublist h

/-- What passes is found as before, and the rest is not. -/
theorem get?_filter (hd : d.Ascending) (p : α → Bool) (key : String) :
    get? key (d.filter fun entry => p entry.2) = (d.get? key).filter p := by
  cases hget : d.get? key with
  | none =>
      refine get?_eq_none_iff.mpr fun hmem => get?_eq_none_iff.mp hget ?_
      exact (List.filter_sublist.map Prod.fst).subset hmem
  | some value =>
      have hmem := mem_of_get? hget
      cases hp : p value with
      | true =>
          rw [Option.filter_some_pos hp]
          exact get?_of_mem (hd.filter _) (List.mem_filter.mpr ⟨hmem, hp⟩)
      | false =>
          rw [Option.filter_some_neg (by simp [hp])]
          refine get?_eq_none_iff.mpr fun hkey => ?_
          obtain ⟨other, hother⟩ := mem_keys_iff.mp hkey
          obtain ⟨hother, hpass⟩ := List.mem_filter.mp (mem_of_get? hother)
          obtain rfl : value = other := Option.some.inj (hget.symm.trans (get?_of_mem hd hother))
          rw [hp] at hpass
          cases hpass

theorem Ascending.erase (h : d.Ascending) (key : String) : (d.erase key).Ascending := h.filter _

theorem get?_erase (d : Dictionary α) (key name : String) :
    (d.erase key).get? name = if name = key then none else d.get? name := by
  induction d with
  | nil => simp [erase, get?]
  | cons entry rest ih =>
      obtain ⟨k, v⟩ := entry
      rw [erase] at ih
      rw [erase, List.filter_cons]
      by_cases hk : k = key
      · subst hk
        by_cases hname : name = k
        · simpa [hname] using ih
        · simpa [hname, get?, Ne.symm hname] using ih
      · by_cases hname : k = name
        · subst hname
          simp [hk, get?]
        · simpa [hk, hname, get?] using ih

/-- Taking out what is not there changes nothing. -/
theorem erase_of_not_mem (h : key ∉ d.keys) : d.erase key = d := by
  refine List.filter_eq_self.mpr fun entry hentry => bne_iff_ne.mpr ?_
  rintro rfl
  exact h (List.mem_map_of_mem hentry)

theorem mem_keys_erase (d : Dictionary α) (key name : String) :
    name ∈ (d.erase key).keys ↔ name ≠ key ∧ name ∈ d.keys := by
  simp [erase, keys, and_comm]

end SqlGateway.Dictionary
