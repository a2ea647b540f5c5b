import SqlAudit.DataType.Registry

/-!
The built-in types.  Their order is the order of registration: it breaks ties between suggestions
and orders the types that can take the place of another one.
-/

namespace SqlAudit
namespace Catalog

def names (dialects : List Dialect) : List String := dialects.map Dialect.name

/-- Conversion rules by the names of dialects. -/
def rules (targets : List (Dialect × String)) : List (String × String) :=
  targets.map fun rule => (rule.1.name, rule.2)

def numericTypes : List Descriptor :=
  [{ name := "TINYINT"
     category := .numeric
     dialects := names [.mysql, .sqlserver]
     aliases := ["INT1"]
     conversions := rules [(.postgresql, "SMALLINT"), (.sqlite, "INTEGER"), (.oracle, "NUMBER")]
     format := some (.integer (-128) 255)
     specificity := hundredths 97
     acceptsSize := true },
   { name := "SMALLINT"
     category := .numeric
     dialects := names [.mysql, .postgresql, .sqlserver, .oracle]
     aliases := ["INT2"]
     conversions := rules [(.sqlite, "INTEGER")]
     format := some (.integer (-32768) 32767)
     specificity := hundredths 95
     acceptsSize := true },
   { name := "INTEGER"
     category := .numeric
     dialects := names [.mysql, .postgresql, .sqlite, .sqlserver, .oracle]
     aliases := ["INT", "INT4", "MEDIUMINT", "SIGNED"]
     format := some (.integer (-(twoTo 31 : Int)) ((twoTo 31 : Int) - 1))
     specificity := hundredths 90
     acceptsSize := true },
   { name := "BIGINT"
     category := .numeric
     dialects := names [.mysql, .postgresql, .sqlserver]
     aliases := ["INT8"]
     conversions := rules [(.sqlite, "INTEGER"), (.oracle, "NUMBER")]
     format := some (.integer (-(twoTo 63 : Int)) ((twoTo 63 : Int) - 1))
     specificity := hundredths 85
     acceptsSize := true },
   { name := "SERIAL"
     category := .numeric
     dialects := names [.postgresql]
     aliases := ["SERIAL4", "SERIAL2", "SMALLSERIAL"]
     conversions := rules [(.mysql, "INTEGER"), (.sqlserver, "INTEGER"), (.sqlite, "INTEGER"),
       (.oracle, "NUMBER")] },
   { name := "BIGSERIAL"
     category := .numeric
     dialects := names [.postgresql]
     aliases := ["SERIAL8"]
     conversions := rules [(.mysql, "BIGINT"), (.sqlserver, "BIGINT"), (.sqlite, "INTEGER"),
       (.oracle, "NUMBER")] },
   { name := "DECIMAL"
     category := .numeric
     dialects := names [.mysql, .postgresql, .sqlserver]
     aliases := ["DEC", "FIXED"]
     conversions := rules [(.sqlite, "NUMERIC"), (.oracle, "NUMBER")]
     format := some .decimal
     specificity := hundredths 80
     acceptsPrecision := true },
   { name := "NUMERIC"
     category := .numeric
     dialects := names [.mysql, .postgresql, .sqlite, .sqlserver]
     conversions := rules [(.oracle, "NUMBER")]
     format := some .decimal
     specificity := hundredths 78
     acceptsPrecision := true },
   { name := "NUMBER"
     category := .numeric
     dialects := names [.oracle]
     conversions := rules [(.mysql, "DECIMAL"), (.postgresql, "NUMERIC"), (.sqlserver,
       "DECIMAL"), (.sqlite, "NUMERIC")]
     format := some .decimal
     specificity := hundredths 75
     acceptsPrecision := true },
   { name := "REAL"
     category := .numeric
     dialects := names [.mysql, .postgresql, .sqlite, .sqlserver]
     aliases := ["FLOAT4"]
     conversions := rules [(.oracle, "BINARY_DOUBLE")]
     format := some .float
     specificity := hundredths 62 },
   { name := "DOUBLE PRECISION"
     category := .numeric
     dialects := names [.mysql, .postgresql]
     aliases := ["DOUBLE", "FLOAT8"]
     conversions := rules [(.sqlite, "REAL"), (.sqlserver, "FLOAT"), (.oracle, "BINARY_DOUBLE")]
     format := some .float
     specificity := hundredths 60 },
   { name := "FLOAT"
     category := .numeric
     dialects := names [.mysql, .postgresql, .sqlserver, .oracle]
     conversions := rules [(.sqlite, "REAL")]
     format := some .float
     specificity := hundredths 60
     acceptsSize := true },
   { name := "BINARY_DOUBLE"
     category := .numeric
     dialects := names [.oracle]
     aliases := ["BINARY_FLOAT"]
     conversions := rules [(.mysql, "DOUBLE PRECISION"), (.postgresql, "DOUBLE PRECISION"),
       (.sqlserver, "FLOAT"), (.sqlite, "REAL")]
     format := some .float
     specificity := hundredths 55 }]

def monetaryTypes : List Descriptor :=
  [{ name := "MONEY"
     category := .monetary
     dialects := names [.postgresql, .sqlserver]
     aliases := ["SMALLMONEY"]
     conversions := rules [(.mysql, "DECIMAL"), (.sqlite, "NUMERIC"), (.oracle, "NUMBER")]
     format := some .money
     specificity := hundredths 90 }]

def booleanTypes : List Descriptor :=
  [{ name := "BOOLEAN"
     category := .boolean
     dialects := names [.mysql, .postgresql]
     aliases := ["BOOL"]
     conversions := rules [(.sqlserver, "BIT"), (.sqlite, "INTEGER"), (.oracle, "NUMBER")]
     format := some .boolean
     specificity := hundredths 96 },
   { name := "BIT"
     category := .boolean
     dialects := names [.mysql, .postgresql, .sqlserver]
     aliases := ["BIT VARYING", "VARBIT"]
     conversions := rules [(.sqlite, "INTEGER"), (.oracle, "NUMBER")]
     format := some .boolean
     specificity := hundredths 70
     acceptsSize := true }]

def stringTypes : List Descriptor :=
  [{ name := "CHAR"
     category := .string
     dialects := names [.mysql, .postgresql, .sqlserver, .oracle]
     aliases := ["CHARACTER", "NCHAR", "BPCHAR"]
     conversions := rules [(.sqlite, "TEXT")]
     format := some (.text (some 10))
     specificity := hundredths 55
     acceptsSize := true },
   { name := "VARCHAR"
     category := .string
     dialects := names [.mysql, .postgresql, .sqlserver]
     aliases := ["CHARACTER VARYING", "NVARCHAR", "NATIONAL CHARACTER VARYING"]
     conversions := rules [(.oracle, "VARCHAR2"), (.sqlite, "TEXT")]
     format := some (.text (some 255))
     specificity := hundredths 50
     acceptsSize := true },
   { name := "VARCHAR2"
     category := .string
     dialects := names [.oracle]
     aliases := ["NVARCHAR2"]
     conversions := rules [(.mysql, "VARCHAR"), (.postgresql, "VARCHAR"), (.sqlserver,
       "VARCHAR"), (.sqlite, "TEXT")]
     format := some (.text (some 4000))
     specificity := hundredths 45
     acceptsSize := true },
   { name := "TEXT"
     category := .string
     dialects := names [.mysql, .postgresql, .sqlite, .sqlserver]
     aliases := ["TINYTEXT", "MEDIUMTEXT", "LONGTEXT", "NTEXT", "CITEXT", "STRING"]
     conversions := rules [(.oracle, "CLOB")]
     format := some (.text none)
     specificity := hundredths 30 },
   { name := "CLOB"
     category := .string
     dialects := names [.oracle]
     aliases := ["NCLOB"]
     conversions := rules [(.mysql, "TEXT"), (.postgresql, "TEXT"), (.sqlite, "TEXT"),
       (.sqlserver, "VARCHAR")]
     format := some (.text none)
     specificity := hundredths 25 }]

def dateTimeTypes : List Descriptor :=
  [{ name := "DATE"
     category := .dateTime
     dialects := names [.mysql, .postgresql, .sqlserver, .oracle]
     conversions := rules [(.sqlite, "TEXT")]
     format := some .date
     specificity := hundredths 95 },
   { name := "TIME"
     category := .dateTime
     dialects := names [.mysql, .postgresql, .sqlserver]
     aliases := ["TIME WITHOUT TIME ZONE", "TIME WITH TIME ZONE", "TIMETZ"]
     conversions := rules [(.sqlite, "TEXT"), (.oracle, "TIMESTAMP")]
     format := some .time
     specificity := hundredths 95 },
   { name := "TIMESTAMP"
     category := .dateTime
     dialects := names [.mysql, .postgresql, .oracle]
     aliases := ["TIMESTAMP WITHOUT TIME ZONE"]
     conversions := rules [(.sqlserver, "DATETIME2"), (.sqlite, "TEXT")]
     format := some .dateTime
     specificity := hundredths 86 },
   { name := "TIMESTAMPTZ"
     category := .dateTime
     dialects := names [.postgresql, .oracle]
     aliases := ["TIMESTAMP WITH TIME ZONE"]
     conversions := rules [(.mysql, "TIMESTAMP"), (.sqlserver, "DATETIMEOFFSET"), (.sqlite,
       "TEXT")]
     format := some .dateTimeZone
     specificity := hundredths 90 },
   { name := "DATETIME"
     category := .dateTime
     dialects := names [.mysql, .sqlserver]
     aliases := ["SMALLDATETIME"]
     conversions := rules [(.postgresql, "TIMESTAMP"), (.oracle, "TIMESTAMP"), (.sqlite, "TEXT")]
     format := some .dateTime
     specificity := hundredths 85 },
   { name := "DATETIME2"
     category := .dateTime
     dialects := names [.sqlserver]
     conversions := rules [(.mysql, "DATETIME"), (.postgresql, "TIMESTAMP"), (.oracle,
       "TIMESTAMP"), (.sqlite, "TEXT")]
     format := some .dateTime
     specificity := hundredths 80 },
   { name := "DATETIMEOFFSET"
     category := .dateTime
     dialects := names [.sqlserver]
     conversions := rules [(.postgresql, "TIMESTAMPTZ"), (.oracle, "TIMESTAMPTZ"), (.mysql,
       "TIMESTAMP"), (.sqlite, "TEXT")]
     format := some .dateTimeZone
     specificity := hundredths 85 },
   { name := "YEAR"
     category := .dateTime
     dialects := names [.mysql]
     conversions := rules [(.postgresql, "SMALLINT"), (.sqlserver, "SMALLINT"), (.sqlite,
       "INTEGER"), (.oracle, "NUMBER")]
     format := some (.integer 1901 2155)
     specificity := hundredths 50 }]

def intervalTypes : List Descriptor :=
  [{ name := "INTERVAL"
     category := .interval
     dialects := names [.postgresql, .oracle]
     conversions := rules [(.mysql, "VARCHAR"), (.sqlserver, "VARCHAR"), (.sqlite, "TEXT")]
     format := some .interval
     specificity := hundredths 90 }]

def binaryTypes : List Descriptor :=
  [{ name := "BLOB"
     category := .binary
     dialects := names [.mysql, .sqlite, .oracle]
     aliases := ["TINYBLOB", "MEDIUMBLOB", "LONGBLOB"]
     conversions := rules [(.postgresql, "BYTEA"), (.sqlserver, "VARBINARY")]
     format := some .hex
     specificity := hundredths 40 },
   { name := "BYTEA"
     category := .binary
     dialects := names [.postgresql]
     conversions := rules [(.mysql, "BLOB"), (.sqlite, "BLOB"), (.oracle, "BLOB"), (.sqlserver,
       "VARBINARY")]
     format := some .hex
     specificity := hundredths 50 },
   { name := "VARBINARY"
     category := .binary
     dialects := names [.mysql, .sqlserver]
     aliases := ["BINARY", "BINARY VARYING", "IMAGE"]
     conversions := rules [(.postgresql, "BYTEA"), (.sqlite, "BLOB"), (.oracle, "RAW")]
     format := some .hex
     specificity := hundredths 45
     acceptsSize := true },
   { name := "RAW"
     category := .binary
     dialects := names [.oracle]
     aliases := ["LONG RAW"]
     conversions := rules [(.mysql, "VARBINARY"), (.sqlserver, "VARBINARY"), (.postgresql,
       "BYTEA"), (.sqlite, "BLOB")]
     format := some .hex
     specificity := hundredths 42
     acceptsSize := true }]

def documentTypes : List Descriptor :=
  [{ name := "JSON"
     category := .jsonXml
     dialects := names [.mysql, .postgresql, .oracle]
     conversions := rules [(.sqlserver, "VARCHAR"), (.sqlite, "TEXT")]
     format := some .json
     specificity := hundredths 90 },
   { name := "JSONB"
     category := .jsonXml
     dialects := names [.postgresql]
     conversions := rules [(.mysql, "JSON"), (.oracle, "JSON"), (.sqlserver, "VARCHAR"),
       (.sqlite, "TEXT")]
     format := some .json
     specificity := hundredths 88 },
   { name := "XML"
     category := .jsonXml
     dialects := names [.postgresql, .sqlserver, .oracle]
     aliases := ["XMLTYPE"]
     conversions := rules [(.mysql, "TEXT"), (.sqlite, "TEXT")]
     format := some .xml
     specificity := hundredths 90 }]

def uuidTypes : List Descriptor :=
  [{ name := "UUID"
     category := .uuid
     dialects := names [.postgresql]
     conversions := rules [(.sqlserver, "UNIQUEIDENTIFIER"), (.mysql, "CHAR"), (.sqlite,
       "TEXT"), (.oracle, "RAW")]
     format := some .uuid
     specificity := hundredths 100 },
   { name := "UNIQUEIDENTIFIER"
     category := .uuid
     dialects := names [.sqlserver]
     conversions := rules [(.postgresql, "UUID"), (.mysql, "CHAR"), (.sqlite, "TEXT"),
       (.oracle, "RAW")]
     format := some .uuid
     specificity := hundredths 98 }]

def networkTypes : List Descriptor :=
  [{ name := "INET"
     category := .network
     dialects := names [.postgresql]
     conversions := rules [(.mysql, "VARCHAR"), (.sqlserver, "VARCHAR"), (.oracle, "VARCHAR2"),
       (.sqlite, "TEXT")]
     format := some .ipAddress
     specificity := hundredths 98 },
   { name := "CIDR"
     category := .network
     dialects := names [.postgresql]
     conversions := rules [(.mysql, "VARCHAR"), (.sqlserver, "VARCHAR"), (.oracle, "VARCHAR2"),
       (.sqlite, "TEXT")]
     format := some .network
     specificity := hundredths 99 },
   { name := "MACADDR"
     category := .network
     dialects := names [.postgresql]
     aliases := ["MACADDR8"]
     conversions := rules [(.mysql, "VARCHAR"), (.sqlserver, "VARCHAR"), (.oracle, "VARCHAR2"),
       (.sqlite, "TEXT")]
     format := some .macAddress
     specificity := hundredths 99 }]

def spatialTypes : List Descriptor :=
  [{ name := "POINT"
     category := .spatial
     dialects := names [.mysql, .postgresql]
     conversions := rules [(.sqlserver, "GEOMETRY"), (.oracle, "GEOMETRY"), (.sqlite, "TEXT")]
     format := some .point
     specificity := hundredths 95 },
   { name := "GEOMETRY"
     category := .spatial
     dialects := names [.mysql, .postgresql, .sqlserver, .oracle]
     aliases := ["GEOGRAPHY", "LINESTRING", "POLYGON", "MULTIPOINT", "MULTILINESTRING",
       "MULTIPOLYGON", "SDO_GEOMETRY"]
     conversions := rules [(.sqlite, "BLOB")]
     format := some .geometry
     specificity := hundredths 85 }]

def enumerationTypes : List Descriptor :=
  [{ name := "ENUM"
     category := .enumeration
     dialects := names [.mysql]
     aliases := ["SET"]
     conversions := rules [(.postgresql, "TEXT"), (.sqlserver, "VARCHAR"), (.oracle,
       "VARCHAR2"), (.sqlite, "TEXT")] }]

def compositeTypes : List Descriptor :=
  [{ name := "ARRAY"
     category := .composite
     dialects := names [.postgresql]
     conversions := rules [(.mysql, "JSON"), (.oracle, "JSON"), (.sqlserver, "VARCHAR"),
       (.sqlite, "TEXT")]
     format := some .array
     specificity := hundredths 80 },
   { name := "HSTORE"
     category := .composite
     dialects := names [.postgresql]
     conversions := rules [(.mysql, "JSON"), (.oracle, "JSON"), (.sqlserver, "VARCHAR"),
       (.sqlite, "TEXT")] }]

def otherTypes : List Descriptor :=
  [{ name := "TSVECTOR"
     category := .other
     dialects := names [.postgresql]
     aliases := ["TSQUERY"]
     conversions := rules [(.mysql, "TEXT"), (.sqlserver, "VARCHAR"), (.oracle, "CLOB"),
       (.sqlite, "TEXT")] },
   { name := "ROWID"
     category := .other
     dialects := names [.oracle]
     aliases := ["UROWID"] },
   { name := "SQL_VARIANT"
     category := .other
     dialects := names [.sqlserver] }]

def descriptors : List Descriptor :=
  numericTypes ++ monetaryTypes ++ booleanTypes ++ stringTypes ++ dateTimeTypes ++
  intervalTypes ++ binaryTypes ++ documentTypes ++ uuidTypes ++ networkTypes ++
  spatialTypes ++ enumerationTypes ++ compositeTypes ++ otherTypes

def registry : Registry := Registry.ofDescriptors descriptors

end Catalog
end SqlAudit
