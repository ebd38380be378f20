import SqlGateway.Mutation.Planner

/-!
# A small shop

The registry that the concrete instances of the theorems are about: users, their orders and the
items of an order, with the joins between them.
-/
namespace SqlGateway.Shop

open Query (Compiler)
open Request (Field)
open Schema (Column Join Registry ValueType)

def key (table column : String) (type : ValueType) : Column :=
  (Column.plain table column type).asPrimaryKey

/-- The tables of the shop; the keys of users are of a given type. -/
def registryWith (keyType : ValueType) : Registry :=
  ((((Registry.empty "public").insertTable "users"
    [(key "users" "id" keyType).asAutoIncrement, .plain "users" "name" .text]).insertTable "orders"
    [(key "orders" "id" .integer).asAutoIncrement, .plain "orders" "user_id" .integer,
      .plain "orders" "total" .integer]).insertTable "items"
    [key "items" "id" .integer, .plain "items" "order_id" .integer]).addJoin
    (.custom "users" ["id"] "orders" ["user_id"]) |>.addJoin
    (.custom "orders" ["id"] "items" ["order_id"])

def registry : Registry := registryWith .integer

def compiler : Compiler := ⟨registry, .postgres, .passThrough, 1000⟩

def leaf (name : String) : Field := ⟨none, name, [], [], []⟩

def nested (name : String) (selection : List Field) : Field := ⟨none, name, [], [], selection⟩

end SqlGateway.Shop
