import SqlGateway.Dialect.Basic

/-!
# Introspection

The statements that ask an engine what it holds: which schema is meant when none is named, and for
every column of every table its type, its keys and what it refers to. All four engines answer the
second with the same columns in the same order.
-/
namespace SqlGateway.Dialect

/-- The columns of every answer to the metadata query, in order. -/
def metadataColumns : List String :=
  ["table_schema", "table_name", "column_name", "data_type", "is_primary_key", "is_unique",
    "is_nullable", "constraint_name", "ordinal_position", "column_default", "is_auto_increment",
    "max_length", "numeric_precision", "numeric_scale", "ref_table_schema", "ref_table_name",
    "ref_column_name", "delete_rule"]

def postgresColumns : String := "
SELECT
    c.table_schema::text AS table_schema,
    c.table_name::text AS table_name,
    c.column_name::text AS column_name,
    c.data_type::text AS data_type,
    (pk.column_name IS NOT NULL) AS is_primary_key,
    (pk.column_name IS NOT NULL OR uq.column_name IS NOT NULL) AS is_unique,
    (c.is_nullable = 'YES') AS is_nullable,
    fk.constraint_name::text AS constraint_name,
    c.ordinal_position::bigint AS ordinal_position,
    c.column_default::text AS column_default,
    (COALESCE(c.column_default, '') LIKE 'nextval(%' OR c.is_identity = 'YES') AS is_auto_increment,
    c.character_maximum_length::bigint AS max_length,
    c.numeric_precision::bigint AS numeric_precision,
    c.numeric_scale::bigint AS numeric_scale,
    fk.ref_table_schema::text AS ref_table_schema,
    fk.ref_table_name::text AS ref_table_name,
    fk.ref_column_name::text AS ref_column_name,
    fk.delete_rule::text AS delete_rule
FROM information_schema.columns c
JOIN information_schema.tables t
    ON t.table_schema = c.table_schema
    AND t.table_name = c.table_name
    AND t.table_type = 'BASE TABLE'
LEFT JOIN (
    SELECT DISTINCT kcu.table_schema, kcu.table_name, kcu.column_name
    FROM information_schema.table_constraints tc
    JOIN information_schema.key_column_usage kcu
        ON kcu.constraint_name = tc.constraint_name
        AND kcu.constraint_schema = tc.constraint_schema
    WHERE tc.constraint_type = 'PRIMARY KEY'
) pk ON pk.table_schema = c.table_schema AND pk.table_name = c.table_name AND pk.column_name = c.column_name
LEFT JOIN (
    SELECT DISTINCT kcu.table_schema, kcu.table_name, kcu.column_name
    FROM information_schema.table_constraints tc
    JOIN information_schema.key_column_usage kcu
        ON kcu.constraint_name = tc.constraint_name
        AND kcu.constraint_schema = tc.constraint_schema
    WHERE tc.constraint_type = 'UNIQUE'
) uq ON uq.table_schema = c.table_schema AND uq.table_name = c.table_name AND uq.column_name = c.column_name
LEFT JOIN (
    SELECT
        kcu.table_schema, kcu.table_name, kcu.column_name, kcu.constraint_name,
        rku.table_schema AS ref_table_schema,
        rku.table_name AS ref_table_name,
        rku.column_name AS ref_column_name,
        rc.delete_rule
    FROM information_schema.referential_constraints rc
    JOIN information_schema.key_column_usage kcu
        ON kcu.constraint_name = rc.constraint_name
        AND kcu.constraint_schema = rc.constraint_schema
    JOIN information_schema.key_column_usage rku
        ON rku.constraint_name = rc.unique_constraint_name
        AND rku.constraint_schema = rc.unique_constraint_schema
        AND rku.ordinal_position = kcu.position_in_unique_constraint
) fk ON fk.table_schema = c.table_schema AND fk.table_name = c.table_name AND fk.column_name = c.column_name
WHERE c.table_schema NOT IN ('pg_catalog', 'information_schema')
ORDER BY c.table_schema, c.table_name, c.ordinal_position
"

def mysqlColumns : String := "
SELECT
    c.TABLE_SCHEMA AS table_schema,
    c.TABLE_NAME AS table_name,
    c.COLUMN_NAME AS column_name,
    c.DATA_TYPE AS data_type,
    (c.COLUMN_KEY = 'PRI') AS is_primary_key,
    (c.COLUMN_KEY IN ('PRI', 'UNI')) AS is_unique,
    (c.IS_NULLABLE = 'YES') AS is_nullable,
    k.CONSTRAINT_NAME AS constraint_name,
    CAST(c.ORDINAL_POSITION AS SIGNED) AS ordinal_position,
    c.COLUMN_DEFAULT AS column_default,
    (c.EXTRA LIKE '%auto_increment%') AS is_auto_increment,
    CAST(c.CHARACTER_MAXIMUM_LENGTH AS SIGNED) AS max_length,
    CAST(c.NUMERIC_PRECISION AS SIGNED) AS numeric_precision,
    CAST(c.NUMERIC_SCALE AS SIGNED) AS numeric_scale,
    k.REFERENCED_TABLE_SCHEMA AS ref_table_schema,
    k.REFERENCED_TABLE_NAME AS ref_table_name,
    k.REFERENCED_COLUMN_NAME AS ref_column_name,
    r.DELETE_RULE AS delete_rule
FROM information_schema.COLUMNS c
JOIN information_schema.TABLES t
    ON t.TABLE_SCHEMA = c.TABLE_SCHEMA
    AND t.TABLE_NAME = c.TABLE_NAME
    AND t.TABLE_TYPE = 'BASE TABLE'
LEFT JOIN information_schema.KEY_COLUMN_USAGE k
    ON k.TABLE_SCHEMA = c.TABLE_SCHEMA
    AND k.TABLE_NAME = c.TABLE_NAME
    AND k.COLUMN_NAME = c.COLUMN_NAME
    AND k.REFERENCED_TABLE_NAME IS NOT NULL
LEFT JOIN information_schema.REFERENTIAL_CONSTRAINTS r
    ON r.CONSTRAINT_SCHEMA = k.CONSTRAINT_SCHEMA
    AND r.CONSTRAINT_NAME = k.CONSTRAINT_NAME
WHERE c.TABLE_SCHEMA NOT IN ('mysql', 'information_schema', 'performance_schema', 'sys')
ORDER BY c.TABLE_SCHEMA, c.TABLE_NAME, c.ORDINAL_POSITION
"

def mssqlColumns : String := "
SELECT
    c.TABLE_SCHEMA AS table_schema,
    c.TABLE_NAME AS table_name,
    c.COLUMN_NAME AS column_name,
    c.DATA_TYPE AS data_type,
    CAST(CASE WHEN pk.COLUMN_NAME IS NOT NULL THEN 1 ELSE 0 END AS bit) AS is_primary_key,
    CAST(CASE WHEN pk.COLUMN_NAME IS NOT NULL OR uq.COLUMN_NAME IS NOT NULL THEN 1 ELSE 0 END AS bit) AS is_unique,
    CAST(CASE WHEN c.IS_NULLABLE = 'YES' THEN 1 ELSE 0 END AS bit) AS is_nullable,
    fk.constraint_name AS constraint_name,
    CAST(c.ORDINAL_POSITION AS bigint) AS ordinal_position,
    c.COLUMN_DEFAULT AS column_default,
    CAST(COALESCE(COLUMNPROPERTY(OBJECT_ID(QUOTENAME(c.TABLE_SCHEMA) + '.' + QUOTENAME(c.TABLE_NAME)), c.COLUMN_NAME, 'IsIdentity'), 0) AS bit) AS is_auto_increment,
    CAST(c.CHARACTER_MAXIMUM_LENGTH AS bigint) AS max_length,
    CAST(c.NUMERIC_PRECISION AS bigint) AS numeric_precision,
    CAST(c.NUMERIC_SCALE AS bigint) AS numeric_scale,
    fk.ref_table_schema AS ref_table_schema,
    fk.ref_table_name AS ref_table_name,
    fk.ref_column_name AS ref_column_name,
    fk.delete_rule AS delete_rule
FROM INFORMATION_SCHEMA.COLUMNS c
JOIN INFORMATION_SCHEMA.TABLES t
    ON t.TABLE_SCHEMA = c.TABLE_SCHEMA
    AND t.TABLE_NAME = c.TABLE_NAME
    AND t.TABLE_TYPE = 'BASE TABLE'
LEFT JOIN (
    SELECT DISTINCT ku.TABLE_SCHEMA, ku.TABLE_NAME, ku.COLUMN_NAME
    FROM INFORMATION_SCHEMA.TABLE_CONSTRAINTS tc
    JOIN INFORMATION_SCHEMA.KEY_COLUMN_USAGE ku
        ON ku.CONSTRAINT_NAME = tc.CONSTRAINT_NAME
        AND ku.CONSTRAINT_SCHEMA = tc.CONSTRAINT_SCHEMA
    WHERE tc.CONSTRAINT_TYPE = 'PRIMARY KEY'
) pk ON pk.TABLE_SCHEMA = c.TABLE_SCHEMA AND pk.TABLE_NAME = c.TABLE_NAME AND pk.COLUMN_NAME = c.COLUMN_NAME
LEFT JOIN (
    SELECT DISTINCT ku.TABLE_SCHEMA, ku.TABLE_NAME, ku.COLUMN_NAME
    FROM INFORMATION_SCHEMA.TABLE_CONSTRAINTS tc
    JOIN INFORMATION_SCHEMA.KEY_COLUMN_USAGE ku
        ON ku.CONSTRAINT_NAME = tc.CONSTRAINT_NAME
        AND ku.CONSTRAINT_SCHEMA = tc.CONSTRAINT_SCHEMA
    WHERE tc.CONSTRAINT_TYPE = 'UNIQUE'
) uq ON uq.TABLE_SCHEMA = c.TABLE_SCHEMA AND uq.TABLE_NAME = c.TABLE_NAME AND uq.COLUMN_NAME = c.COLUMN_NAME
LEFT JOIN (
    SELECT
        f.name AS constraint_name,
        SCHEMA_NAME(p.schema_id) AS table_schema,
        p.name AS table_name,
        pc.name AS column_name,
        SCHEMA_NAME(r.schema_id) AS ref_table_schema,
        r.name AS ref_table_name,
        rc.name AS ref_column_name,
        f.delete_referential_action_desc AS delete_rule
    FROM sys.foreign_keys f
    JOIN sys.foreign_key_columns fkc ON fkc.constraint_object_id = f.object_id
    JOIN sys.tables p ON p.object_id = fkc.parent_object_id
    JOIN sys.columns pc ON pc.object_id = fkc.parent_object_id AND pc.column_id = fkc.parent_column_id
    JOIN sys.tables r ON r.object_id = fkc.referenced_object_id
    JOIN sys.columns rc ON rc.object_id = fkc.referenced_object_id AND rc.column_id = fkc.referenced_column_id
) fk ON fk.table_schema = c.TABLE_SCHEMA AND fk.table_name = c.TABLE_NAME AND fk.column_name = c.COLUMN_NAME
WHERE c.TABLE_SCHEMA NOT IN ('sys', 'INFORMATION_SCHEMA')
ORDER BY c.TABLE_SCHEMA, c.TABLE_NAME, c.ORDINAL_POSITION
"

def sqliteColumns : String := "
SELECT
    'main' AS table_schema,
    m.name AS table_name,
    p.name AS column_name,
    p.type AS data_type,
    (p.pk > 0) AS is_primary_key,
    (p.pk > 0) AS is_unique,
    (p.\"notnull\" = 0 AND p.pk = 0) AS is_nullable,
    NULL AS constraint_name,
    p.cid + 1 AS ordinal_position,
    p.dflt_value AS column_default,
    (p.pk = 1 AND upper(p.type) = 'INTEGER') AS is_auto_increment,
    NULL AS max_length,
    NULL AS numeric_precision,
    NULL AS numeric_scale,
    CASE WHEN f.\"table\" IS NULL THEN NULL ELSE 'main' END AS ref_table_schema,
    f.\"table\" AS ref_table_name,
    f.\"to\" AS ref_column_name,
    f.on_delete AS delete_rule
FROM sqlite_master m
JOIN pragma_table_info(m.name) p
LEFT JOIN pragma_foreign_key_list(m.name) f ON f.\"from\" = p.name
WHERE m.type = 'table' AND m.name NOT LIKE 'sqlite_%'
ORDER BY m.name, p.cid
"

def metadataQuery : Dialect → String
  | .postgres => postgresColumns
  | .mysql => mysqlColumns
  | .mssql => mssqlColumns
  | .sqlite => sqliteColumns

/-- Asks for the schema whose tables go under their bare names. -/
def defaultSchemaQuery : Dialect → String
  | .postgres => "SELECT current_schema()::text"
  | .mysql => "SELECT DATABASE()"
  | .mssql => "SELECT SCHEMA_NAME()"
  | .sqlite => "SELECT 'main'"

/-- Asks whether a new connection is alive. -/
def probeQuery (_ : Dialect) : String := "SELECT 1"

end SqlGateway.Dialect
