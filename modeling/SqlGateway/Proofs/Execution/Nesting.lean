import SqlGateway.Execution.Write
import SqlGateway.Proofs.Json.Object
import Mathlib.Data.List.Induction

/-!
# Rows with the rows below them

What putting the rows of children into the rows of their parent makes of these. Under the key of a
child an object has a list: what was listed there before, if anything was, and then the rows of the
children with this key, one child after another. The rest of the object is as it was.
-/
namespace SqlGateway.Execution

open Mutation (Plan WriteNode)

/-- Keys with the rows that belong under them, in order. -/
abbrev Payloads := List (String × List Object)

namespace Payloads

def keys (below : Payloads) : List String := below.map (·.1)

/-- All that belongs under one key. -/
def under (below : Payloads) (key : String) : List Json :=
  (below.filter (·.1 == key)).flatMap fun payload => payload.2.map .object

theorem under_append (below more : Payloads) (key : String) :
    under (below ++ more) key = below.under key ++ more.under key := by
  rw [under, List.filter_append, List.flatMap_append]
  rfl

theorem under_of_not_mem {below : Payloads} {key : String} (h : key ∉ below.keys) :
    below.under key = [] := by
  have hnone : below.filter (·.1 == key) = [] := by
    rw [List.filter_eq_nil_iff]
    intro payload hpayload hkey
    exact h (List.mem_map.mpr ⟨payload, hpayload, by simpa using hkey⟩)
  rw [under, hnone]
  rfl

end Payloads

/-- What is listed under a key; nothing, if it is not a list. -/
def listed (key : String) (o : Object) : List Json :=
  match o.get? key with
  | some (.list items) => items
  | _ => []

/-- An object that was made of a row and the rows below it. -/
structure Gathers (row : Object) (below : Payloads) (o : Object) : Prop where
  get : ∀ key, o.get? key =
    if key ∈ below.keys then some (.list (listed key row ++ below.under key)) else row.get? key
  /-- The keys that are new stand last, each once. -/
  keys : ∃ new, o.keys = row.keys ++ new ∧ new.Nodup ∧
    ∀ key, key ∈ new ↔ key ∈ below.keys ∧ key ∉ row.keys

section Gathers
variable {row o : Object} {below : Payloads}

/-- Puts the rows of one child under its key. -/
def put (o : Object) (payload : String × List Object) : Object :=
  extend payload.1 (payload.2.map .object) o

theorem extend_eq (key : String) (rows : List Json) (o : Object) :
    extend key rows o = o.insert key (.list (listed key o ++ rows)) := by
  unfold extend listed
  split <;> simp_all

theorem Gathers.listed (h : Gathers row below o) (key : String) :
    listed key o = listed key row ++ below.under key := by
  by_cases hkey : key ∈ below.keys
  · rw [Execution.listed, h.get, if_pos hkey]
  · rw [Payloads.under_of_not_mem hkey, List.append_nil, Execution.listed, h.get, if_neg hkey]
    rfl

/-- The rows of one more child. -/
theorem Gathers.extend (h : Gathers row below o) (key : String) (rows : List Object) :
    Gathers row (below ++ [(key, rows)]) (extend key (rows.map .object) o) := by
  have hkeys : Payloads.keys (below ++ [(key, rows)]) = below.keys ++ [key] := List.map_append
  rw [extend_eq, h.listed]
  constructor
  · intro other
    rw [hkeys, Payloads.under_append]
    by_cases hother : other = key
    · subst hother
      rw [Object.get?_insert_self, if_pos (List.mem_append_right _ (List.mem_singleton_self _))]
      simp [Payloads.under]
    · rw [Object.get?_insert_of_ne _ _ hother, h.get]
      have hunder : Payloads.under [(key, rows)] other = [] :=
        Payloads.under_of_not_mem (by simpa [Payloads.keys] using hother)
      simp [hother, hunder]
  · obtain ⟨new, hnew, hnodup, hmem⟩ := h.keys
    rw [hkeys]
    cases hcontains : Object.contains key o with
    | true =>
        have hold : key ∈ o.keys := Object.contains_iff_mem_keys.mp hcontains
        refine ⟨new, (Object.keys_insert_of_contains hcontains _).trans hnew, hnodup,
          fun other => ?_⟩
        rw [hmem, List.mem_append, List.mem_singleton]
        constructor
        · exact fun ⟨hbelow, hrow⟩ => ⟨.inl hbelow, hrow⟩
        · rintro ⟨hbelow | rfl, hrow⟩
          · exact ⟨hbelow, hrow⟩
          · rw [hnew] at hold
            exact (hmem other).mp ((List.mem_append.mp hold).resolve_left hrow)
    | false =>
        have hfresh : key ∉ o.keys := fun hold => by
          rw [Object.contains_iff_mem_keys.mpr hold] at hcontains
          cases hcontains
        rw [hnew, List.mem_append, not_or] at hfresh
        refine ⟨new ++ [key], ?_, ?_, fun other => ?_⟩
        · rw [Object.insert_of_not_contains hcontains, Object.keys,
            List.map_append, ← Object.keys, hnew, List.append_assoc]
          rfl
        · exact List.nodup_append.mpr ⟨hnodup, List.nodup_singleton _, fun a ha b hb hab =>
            hfresh.2 (by rwa [hab, List.mem_singleton.mp hb] at ha)⟩
        · rw [List.mem_append, hmem, List.mem_append, List.mem_singleton]
          constructor
          · rintro (⟨hbelow, hrow⟩ | rfl)
            · exact ⟨.inl hbelow, hrow⟩
            · exact ⟨.inr rfl, hfresh.1⟩
          · rintro ⟨hbelow | rfl, hrow⟩
            · exact .inl ⟨hbelow, hrow⟩
            · exact .inr rfl

theorem gathers_nil (row : Object) : Gathers row [] row :=
  ⟨fun _ => rfl, [], (List.append_nil _).symm, List.nodup_nil, fun _ => by simp [Payloads.keys]⟩

/-- Rows put in one child after another are gathered. -/
theorem gathers_foldl (row : Object) (below : Payloads) :
    Gathers row below (below.foldl put row) := by
  induction below using List.reverseRecOn with
  | nil => exact gathers_nil row
  | append_singleton below payload ih =>
      rw [List.foldl_append]
      exact ih.extend payload.1 payload.2

end Gathers

section Children

/-- The children that belong to one row, with what each has to show. -/
def payloadsOf (nodes : List WriteNode) (children : List Nat) (payload : Nat → List Object)
    (row : Nat) : Payloads :=
  children.filterMap fun child =>
    (((nodes[child]?).bind (·.parent)).filter (·.row == row)).map fun link =>
      (link.key, payload child)

/-- Every row gathers what its own children have to show. -/
def Assembles (nodes : List WriteNode) (children : List Nat) (payload : Nat → List Object)
    (rows objects : List Object) : Prop :=
  objects.length = rows.length ∧ ∀ i row o, rows[i]? = some row → objects[i]? = some o →
    Gathers row (payloadsOf nodes children payload i) o

variable {nodes : List WriteNode} (payload : Nat → List Object)

/-- Puts the rows of one child where they belong. -/
def attach (nodes : List WriteNode) (payload : Nat → List Object) (rows : List Object)
    (child : Nat) : List Object :=
  match (nodes[child]?).bind (·.parent) with
  | none => rows
  | some link => rows.modify link.row (extend link.key ((payload child).map .object))

theorem length_attach (rows : List Object) (child : Nat) :
    (attach nodes payload rows child).length = rows.length := by
  unfold attach
  split
  · rfl
  · exact List.length_modify ..

theorem length_foldl_attach (children : List Nat) (rows : List Object) :
    (children.foldl (attach nodes payload) rows).length = rows.length := by
  induction children generalizing rows with
  | nil => rfl
  | cons child rest ih => exact (ih _).trans (length_attach payload rows child)

theorem getElem?_foldl_attach (children : List Nat) (rows : List Object) (i : Nat) :
    (children.foldl (attach nodes payload) rows)[i]? =
      (rows[i]?).map fun row => (payloadsOf nodes children payload i).foldl put row := by
  induction children generalizing rows with
  | nil => simp [payloadsOf]
  | cons child rest ih =>
      rw [List.foldl_cons, ih, attach, payloadsOf, payloadsOf, List.filterMap_cons]
      cases (nodes[child]?).bind (·.parent) with
      | none => rfl
      | some link =>
          dsimp only
          by_cases hrow : link.row = i
          · have hfilter : (some link).filter (·.row == i) = some link := by simp [hrow]
            rw [hfilter, hrow, List.getElem?_modify_eq, Option.map_eq_map, Option.map_map]
            rfl
          · have hfilter : (some link).filter (·.row == i) = none := by simp [hrow]
            rw [hfilter, List.getElem?_modify_ne _ _ hrow]
            rfl

theorem assembles_foldl (children : List Nat) (rows : List Object) :
    Assembles nodes children payload rows (children.foldl (attach nodes payload) rows) := by
  refine ⟨length_foldl_attach payload children rows, fun i row o hrow ho => ?_⟩
  rw [getElem?_foldl_attach, hrow] at ho
  cases ho
  exact gathers_foldl row _

/-- What the children of a write have to show; an empty object, if they have no answer. -/
def shown (p : Plan) (answers : Answers) (depth child : Nat) : List Object :=
  (nested p answers depth child).getD [[]]

theorem shown_of_nested {p : Plan} {answers : Answers} {depth child : Nat} {o : Object}
    (h : nested p answers depth child = some [o]) : shown p answers depth child = [o] := by
  rw [shown, h]
  rfl

/-- What is nested below a write that was answered. -/
theorem nested_succ {p : Plan} {answers : Answers} {depth id : Nat} {n : WriteNode}
    {rows : List Object} (hn : p.nodes[id]? = some n) (hrows : answerOf answers id = some rows) :
    nested p answers (depth + 1) id =
      some (n.children.foldl (attach p.nodes (shown p answers depth)) rows) := by
  rw [nested, hrows, hn]
  rfl

end Children

end SqlGateway.Execution
