import Mathlib.Data.List.Perm.Subperm
import SqlGateway.Proofs.Schema.Operations

/-!
# The two directions of a pair

The join of two tables can be asked for from either of them. A record of it stands under the names
of the two in their order, and storing one leaves a record in the other order where it is. So both
directions tell the same as long as no join of a pair is stored against a record of the pair that is
held.
-/
namespace SqlGateway.Schema

/-- A join of two tables, in either order. -/
def Join.relates (j : Join) (a b : String) : Bool :=
  (j.table1 == a && j.table2 == b) || (j.table1 == b && j.table2 == a)

theorem Join.key_of_relates {j : Join} {a b : String} (h : j.relates a b = true) :
    j.key = joinKey a b ∨ j.key = joinKey b a := by
  simp only [relates, Bool.or_eq_true, Bool.and_eq_true, beq_iff_eq] at h
  rcases h with ⟨rfl, rfl⟩ | ⟨rfl, rfl⟩
  · exact .inl rfl
  · exact .inr rfl

/-- Two lookups fail both, or find a join and the same with its sides exchanged. -/
def Mirrored : Except Error Join → Except Error Join → Prop
  | .ok j, .ok j' => j' = j.swapped
  | .error _, .error _ => True
  | _, _ => False

namespace Registry

variable {r r' : Registry} {table key a b : String} {j k : Join}

/-- The records of the joins of two tables. -/
def recordsOf (r : Registry) (a b : String) : List Join := r.joins.values.filter (·.relates a b)

/-- There is a record under the names of two tables in each order. -/
def BothWays (r : Registry) (a b : String) : Prop :=
  joinKey a b ∈ r.joins.keys ∧ joinKey b a ∈ r.joins.keys

/-- The two directions of a pair agree. -/
structure Agree (r : Registry) (a b : String) : Prop where
  single : (r.recordsOf a b).length ≤ 1
  mirrored : Mirrored (r.join a b) (r.join b a)

theorem join_eq (ha : r.hasTable a = true) (hb : r.hasTable b = true) :
    r.join a b = match r.joins.get? (joinKey a b), r.joins.get? (joinKey b a) with
      | some j, _ => .ok j
      | none, some j => .ok j.swapped
      | none, none => .error (.joinNotFound a b) := by
  rw [join, ha, hb]
  cases r.joins.get? (joinKey a b) <;> cases r.joins.get? (joinKey b a) <;> rfl

/-- Records that are all under one key are one. -/
theorem Orderly.length_recordsOf_le (h : r.Orderly) (key : String)
    (hall : ∀ j ∈ r.recordsOf a b, j.key = key) : (r.recordsOf a b).length ≤ 1 := by
  have hnodup : ((r.recordsOf a b).map (·.key)).Nodup :=
    (List.filter_sublist.map _).nodup (h.map_key_values ▸ h.joins.nodup)
  have hsub : (r.recordsOf a b).map (·.key) ⊆ [key] := fun other hother => by
    obtain ⟨j, hj, rfl⟩ := List.mem_map.mp hother
    exact List.mem_singleton.mpr (hall j hj)
  simpa using (List.subperm_of_subset hnodup hsub).length_le

theorem Orderly.key_mem (h : r.Orderly) (hj : j ∈ r.joins.values) : j.key ∈ r.joins.keys := by
  rw [← h.map_key_values]
  exact List.mem_map_of_mem hj

theorem Orderly.agree (h : r.Orderly) (ha : r.hasTable a = true) (hb : r.hasTable b = true)
    (hways : ¬r.BothWays a b) : r.Agree a b where
  single := by
    -- the order in which there is no record leaves the other one
    obtain hnone | hnone := not_and_or.mp hways
    · refine h.length_recordsOf_le (joinKey b a) fun j hj => ?_
      obtain ⟨hj, hrelates⟩ := List.mem_filter.mp hj
      exact (Join.key_of_relates hrelates).resolve_left fun hkey => hnone (hkey ▸ h.key_mem hj)
    · refine h.length_recordsOf_le (joinKey a b) fun j hj => ?_
      obtain ⟨hj, hrelates⟩ := List.mem_filter.mp hj
      exact (Join.key_of_relates hrelates).resolve_right fun hkey => hnone (hkey ▸ h.key_mem hj)
  mirrored := by
    rw [join_eq ha hb, join_eq hb ha]
    cases hab : r.joins.get? (joinKey a b) with
    | none => cases r.joins.get? (joinKey b a) <;> trivial
    | some j =>
        cases hba : r.joins.get? (joinKey b a) with
        | none => rfl
        | some k =>
            have hboth : r.BothWays a b :=
              ⟨Dictionary.mem_keys_iff.mpr ⟨j, hab⟩, Dictionary.mem_keys_iff.mpr ⟨k, hba⟩⟩
            exact absurd hboth hways

/-- A join given by hand is stored as it is given, beside the record in the other order. -/
theorem join_addJoin (ha : r.hasTable a = true) (hb : r.hasTable b = true)
    (hj : j.key = joinKey a b) (hk : r.joins.get? (joinKey b a) = some k)
    (hne : joinKey a b ≠ joinKey b a) :
    (r.addJoin j).join a b = .ok j ∧ (r.addJoin j).join b a = .ok k := by
  have hab : (r.addJoin j).joins.get? (joinKey a b) = some j := by
    rw [addJoin, hj, Dictionary.get?_insert_self]
  have hba : (r.addJoin j).joins.get? (joinKey b a) = some k := by
    rw [addJoin, hj, Dictionary.get?_insert_of_ne _ _ hne.symm, hk]
  have ha' : (r.addJoin j).hasTable a = true := ha
  have hb' : (r.addJoin j).hasTable b = true := hb
  rw [join_eq ha' hb', join_eq hb' ha', hab, hba]
  exact ⟨rfl, rfl⟩

/-- Activating a table stores joins under the keys of its foreign keys only. -/
theorem Orderly.mem_keys_activate (h : r.Orderly) (hok : r.activate table = .ok r')
    (hkey : key ∈ r'.joins.keys) :
    key ∈ (r.references table).map (fun x => joinKey x.referenced table) ∨ key ∈ r.joins.keys := by
  by_cases hown : key ∈ (r.references table).map fun x => joinKey x.referenced table
  · exact .inl hown
  · have hne : ∀ x ∈ r.references table, joinKey x.referenced table ≠ key := fun x hx heq =>
      hown (List.mem_map.mpr ⟨x, hx, heq⟩)
    obtain ⟨j, hj⟩ := Dictionary.mem_keys_iff.mp hkey
    rw [h.get?_activate_of_ne hok hne] at hj
    obtain ⟨held, hheld, -⟩ := Option.map_eq_some_iff.mp hj
    exact .inr (Dictionary.mem_keys_iff.mpr ⟨held, hheld⟩)

end Registry

namespace Operation

variable {r r' : Registry} {op : Operation} {key a b : String}

/-- The keys under which an operation stores joins. -/
def stored (r : Registry) : Operation → List String
  | .activate table => (r.references table).map fun x => joinKey x.referenced table
  | .addJoin j => [j.key]
  | _ => []

/-- An operation stores a join of two tables and comes to a record in each order. -/
def Opposes (op : Operation) (r : Registry) (a b : String) : Prop :=
  (joinKey a b ∈ op.stored r ∨ joinKey b a ∈ op.stored r) ∧
    joinKey a b ∈ op.stored r ++ r.joins.keys ∧ joinKey b a ∈ op.stored r ++ r.joins.keys

instance : Decidable (op.Opposes r a b) := inferInstanceAs (Decidable (_ ∧ _))

/-- Every record is one that was held or that the operation stores. -/
theorem mem_keys_outcome (h : r.Orderly) (hok : op.outcome r = .ok r')
    (hkey : key ∈ r'.joins.keys) : key ∈ op.stored r ++ r.joins.keys := by
  rw [List.mem_append]
  cases op with
  | capture captured =>
      obtain ⟨active, inactive, hcapture⟩ := h.capture_frame captured
      rw [← Except.ok.inj hok, hcapture] at hkey
      exact .inr hkey
  | insertTable table columns =>
      rw [← Except.ok.inj hok] at hkey
      exact .inr hkey
  | activate table => exact h.mem_keys_activate hok hkey
  | deactivate table =>
      obtain ⟨columns, hactive, rfl⟩ := Registry.deactivate_ok hok
      obtain ⟨j, hj⟩ := Dictionary.mem_keys_iff.mp hkey
      rw [(h.withInactive (h.tables_active hactive)).get?_unlinked] at hj
      obtain ⟨held, hheld, -⟩ := Option.map_eq_some_iff.mp hj
      exact .inr (Dictionary.mem_keys_iff.mpr ⟨held, Option.eq_some_of_filter_eq_some hheld⟩)
  | addJoin j =>
      rw [← Except.ok.inj hok] at hkey
      exact ((Dictionary.mem_keys_insert _ _ _ _).mp hkey).imp_left fun heq =>
        List.mem_singleton.mpr heq
  | removeJoin j =>
      rw [← Except.ok.inj hok] at hkey
      exact .inr ((Dictionary.mem_keys_erase _ _ _).mp hkey).2
  | attachMask table column rule =>
      obtain ⟨columns, c, -, -, rfl⟩ := h.attachMask_ok hok
      exact .inr hkey

/-- Records in both orders are come by only through an operation that stores one against the
other. -/
theorem not_bothWays_after (h : r.Orderly) (hways : ¬r.BothWays a b) (hop : ¬op.Opposes r a b) :
    ¬(op.after r).BothWays a b := by
  refine op.after_induction (motive := fun r' => ¬r'.BothWays a b) hways fun r' hok hboth => ?_
  have hab := mem_keys_outcome h hok hboth.1
  have hba := mem_keys_outcome h hok hboth.2
  refine hop ⟨?_, hab, hba⟩
  by_contra hnone
  obtain ⟨hnotab, hnotba⟩ := not_or.mp hnone
  exact hways ⟨(List.mem_append.mp hab).resolve_left hnotab,
    (List.mem_append.mp hba).resolve_left hnotba⟩

end Operation

/-- None of the operations stores a join of two tables against a record in the other order. -/
def Unopposed (a b : String) : Registry → List Operation → Prop
  | _, [] => True
  | r, op :: rest => ¬op.Opposes r a b ∧ Unopposed a b (op.after r) rest

instance decidableUnopposed (a b : String) :
    (r : Registry) → (ops : List Operation) → Decidable (Unopposed a b r ops)
  | _, [] => inferInstanceAs (Decidable True)
  | r, op :: rest =>
      have := decidableUnopposed a b (op.after r) rest
      inferInstanceAs (Decidable (_ ∧ _))

variable {a b : String}

theorem not_bothWays_of_unopposed {r : Registry} {ops : List Operation} (h : r.Orderly)
    (hways : ¬r.BothWays a b) (hops : Unopposed a b r ops) :
    ¬(ops.foldl (fun r op => op.after r) r).BothWays a b := by
  induction ops generalizing r with
  | nil => exact hways
  | cons op rest ih =>
      exact ih (Operation.orderly_after h) (Operation.not_bothWays_after h hways hops.1) hops.2

/-- Whatever operations are done: two active tables have one record at most and see the same join
from either side, unless there is a record in each order, and there is none in each order unless an
operation has stored one against the other. A join that is given by hand is stored in its own order,
and then each side sees its own. -/
theorem directions_agree_unless_opposed (defaultSchema : String) (ops : List Operation)
    (ha : (replay defaultSchema ops).hasTable a = true)
    (hb : (replay defaultSchema ops).hasTable b = true) : let r := replay defaultSchema ops
    (Unopposed a b (.empty defaultSchema) ops → ¬r.BothWays a b) ∧
    (¬r.BothWays a b → r.Agree a b) ∧
    ∀ j k, j.key = joinKey a b → r.joins.get? (joinKey b a) = some k → joinKey a b ≠ joinKey b a →
      (r.addJoin j).join a b = .ok j ∧ (r.addJoin j).join b a = .ok k :=
  ⟨not_bothWays_of_unopposed (Registry.orderly_empty defaultSchema) nofun,
    (orderly_replay defaultSchema ops).agree ha hb, fun _ _ => Registry.join_addJoin ha hb⟩

theorem directions_agree_unless_opposed_shop :
    let ops := [.capture shopColumns, .activate "users", .activate "orders"]
    let r := replay "public" ops
    let j := Join.custom "orders" ["id"] "users" ["id"]
    Unopposed "orders" "users" (.empty "public") ops ∧ r.Agree "orders" "users" ∧
      r.join "orders" "users" = .ok ⟨"orders", "users", ["user_id"], ["id"], true, false, none⟩ ∧
      (r.addJoin j).join "orders" "users" = .ok j ∧
      (r.addJoin j).join "users" "orders" =
        .ok ⟨"users", "orders", ["id"], ["user_id"], true, false, none⟩ := by
  have hops : Unopposed "orders" "users" (.empty "public")
      [.capture shopColumns, .activate "users", .activate "orders"] := by decide +kernel
  obtain ⟨hunopposed, hagree, hgiven⟩ :=
    directions_agree_unless_opposed (a := "orders") (b := "users") "public"
      [.capture shopColumns, .activate "users", .activate "orders"] rfl rfl
  exact ⟨hops, hagree (hunopposed hops), rfl, hgiven _ _ rfl rfl (by decide)⟩

/-- Orders refer to users, and a join of the two is given by hand with orders first. -/
theorem pair_given_both_ways_disagrees :
    let r := replay "public" [.capture shopColumns, .activate "users", .activate "orders",
      .addJoin (.custom "orders" ["id"] "users" ["id"])]
    r.hasTable "users" = true ∧ r.hasTable "orders" = true ∧
      (r.recordsOf "users" "orders").length = 2 ∧
      r.join "users" "orders" = .ok ⟨"users", "orders", ["id"], ["user_id"], true, false, none⟩ ∧
      r.join "orders" "users" = .ok ⟨"orders", "users", ["id"], ["id"], true, true, none⟩ ∧
      ¬Mirrored (r.join "users" "orders") (r.join "orders" "users") := by
  refine ⟨rfl, rfl, rfl, rfl, rfl, fun hmirrored => ?_⟩
  have hcolumns : ["id"] = ["user_id"] := congrArg Join.columns1 hmirrored
  exact absurd hcolumns (by decide)

end SqlGateway.Schema
