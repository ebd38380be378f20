import SqlGateway.Json.Record
import SqlGateway.Schema.Registry

/-!
# Stored registries

A registry as a JSON document, and back. A masking rule and a further join condition are written
only where there is one.
-/
namespace SqlGateway.Schema

open Json

namespace ForeignKey

def toJson (fk : ForeignKey) : Json := .object
  [("schema_name", .text fk.schemaName), ("table_name", .text fk.tableName),
    ("column_name", .text fk.columnName), ("delete_rule", ofOption .text fk.deleteRule)]

def ofJson? (v : Json) : Option ForeignKey := do
  let r ← record? ["schema_name", "table_name", "column_name", "delete_rule"] 4 v
  return {
    schemaName := ← required? r "schema_name" asText?
    tableName := ← required? r "table_name" asText?
    columnName := ← required? r "column_name" asText?
    deleteRule := ← optional? r "delete_rule" asText? }

end ForeignKey

/-- The name of a type, alone or as the only key of an object that holds null. -/
def ValueType.ofJson? : Json → Option ValueType
  | .text s => ValueType.ofStoredName? s
  | .object [(s, .null)] => ValueType.ofStoredName? s
  | _ => none

namespace Column

def fieldNames : List String :=
  ["schema_name", "table_name", "column_name", "native_type", "normalized_type", "is_primary_key",
    "is_unique", "is_nullable", "constraint_name", "ordinal_position", "default_value",
    "is_auto_increment", "max_length", "numeric_precision", "numeric_scale", "foreign_key",
    "masking_rule"]

def toJson (c : Column) : Json := .object <|
  [("schema_name", .text c.schemaName), ("table_name", .text c.tableName),
    ("column_name", .text c.columnName), ("native_type", .text c.nativeType),
    ("normalized_type", .text c.type.storedName), ("is_primary_key", .bool c.isPrimaryKey),
    ("is_unique", .bool c.isUnique), ("is_nullable", .bool c.isNullable),
    ("constraint_name", ofOption .text c.constraintName),
    ("ordinal_position", .int c.ordinalPosition),
    ("default_value", ofOption .text c.defaultValue),
    ("is_auto_increment", .bool c.isAutoIncrement),
    ("max_length", ofOption .int c.maxLength),
    ("numeric_precision", ofOption .int c.numericPrecision),
    ("numeric_scale", ofOption .int c.numericScale),
    ("foreign_key", ofOption ForeignKey.toJson c.foreignKey)]
  ++ (c.maskingRule.map fun rule => ("masking_rule", Json.text rule)).toList

def ofJson? (v : Json) : Option Column := do
  let r ← record? fieldNames 16 v
  return {
    schemaName := ← required? r "schema_name" asText?
    tableName := ← required? r "table_name" asText?
    columnName := ← required? r "column_name" asText?
    nativeType := ← required? r "native_type" asText?
    type := ← required? r "normalized_type" ValueType.ofJson?
    isPrimaryKey := ← required? r "is_primary_key" asBool?
    isUnique := ← required? r "is_unique" asBool?
    isNullable := ← required? r "is_nullable" asBool?
    constraintName := ← optional? r "constraint_name" asText?
    ordinalPosition := ← required? r "ordinal_position" asInt64?
    defaultValue := ← optional? r "default_value" asText?
    isAutoIncrement := ← required? r "is_auto_increment" asBool?
    maxLength := ← optional? r "max_length" asInt64?
    numericPrecision := ← optional? r "numeric_precision" asInt64?
    numericScale := ← optional? r "numeric_scale" asInt64?
    foreignKey := ← optional? r "foreign_key" ForeignKey.ofJson?
    maskingRule := ← optional? r "masking_rule" asText? }

end Column

namespace Join

def toJson (j : Join) : Json := .object <|
  [("table1", .text j.table1), ("table2", .text j.table2), ("table1_cols", ofTexts j.columns1),
    ("table2_cols", ofTexts j.columns2), ("is_active", .bool j.isActive),
    ("is_custom", .bool j.isCustom)]
  ++ (j.complexCondition.map fun tree => ("complex_condition", tree)).toList

def ofJson? (v : Json) : Option Join := do
  let r ← record?
    ["table1", "table2", "table1_cols", "table2_cols", "is_active", "is_custom",
      "complex_condition"] 6 v
  return {
    table1 := ← required? r "table1" asText?
    table2 := ← required? r "table2" asText?
    columns1 := ← required? r "table1_cols" texts?
    columns2 := ← required? r "table2_cols" texts?
    isActive := ← required? r "is_active" asBool?
    isCustom := ← required? r "is_custom" asBool?
    complexCondition := ← optional? r "complex_condition" some }

end Join

namespace Registry

def ofDictionary (f : α → Json) (d : Dictionary α) : Json := .object (d.map fun (k, v) => (k, f v))

def dictionary? (read : Json → Option α) (v : Json) : Option (Dictionary α) :=
  (entries? read v).map Dictionary.ofList

def toJson (r : Registry) : Json := .object
  [("default_schema", .text r.defaultSchema),
    ("schema_tables", ofDictionary (ofDictionary Column.toJson) r.active),
    ("other_tables", ofDictionary (ofDictionary Column.toJson) r.inactive),
    ("table_joins", ofDictionary Join.toJson r.joins),
    ("security_rules", ofDictionary id r.securityRules),
    ("transform_rules", ofDictionary id r.transformRules)]

def ofJson? (v : Json) : Option Registry := do
  let r ← record?
    ["default_schema", "schema_tables", "other_tables", "table_joins", "security_rules",
      "transform_rules"] 6 v
  return {
    defaultSchema := ← required? r "default_schema" asText?
    active := ← required? r "schema_tables" (dictionary? (dictionary? Column.ofJson?))
    inactive := ← required? r "other_tables" (dictionary? (dictionary? Column.ofJson?))
    joins := ← required? r "table_joins" (dictionary? Join.ofJson?)
    securityRules := ← required? r "security_rules" (dictionary? some)
    transformRules := ← required? r "transform_rules" (dictionary? some) }

end Registry

end SqlGateway.Schema
