import Mpool.Database.FieldAccess

/-! The column types of `QueryResult.cpp`: the size of the buffer that is bound for
one, and the type a `Field` knows it by. -/

namespace Mpool.Database

/-- The types the code has a name for, and any other code the server may send. -/
inductive EnumFieldTypes where
  | MYSQL_TYPE_DECIMAL
  | MYSQL_TYPE_TINY
  | MYSQL_TYPE_SHORT
  | MYSQL_TYPE_LONG
  | MYSQL_TYPE_FLOAT
  | MYSQL_TYPE_DOUBLE
  | MYSQL_TYPE_NULL
  | MYSQL_TYPE_TIMESTAMP
  | MYSQL_TYPE_LONGLONG
  | MYSQL_TYPE_INT24
  | MYSQL_TYPE_DATE
  | MYSQL_TYPE_TIME
  | MYSQL_TYPE_DATETIME
  | MYSQL_TYPE_YEAR
  | MYSQL_TYPE_NEWDATE
  | MYSQL_TYPE_BIT
  | MYSQL_TYPE_NEWDECIMAL
  | MYSQL_TYPE_ENUM
  | MYSQL_TYPE_SET
  | MYSQL_TYPE_TINY_BLOB
  | MYSQL_TYPE_MEDIUM_BLOB
  | MYSQL_TYPE_LONG_BLOB
  | MYSQL_TYPE_BLOB
  | MYSQL_TYPE_VAR_STRING
  | MYSQL_TYPE_STRING
  | MYSQL_TYPE_GEOMETRY
  | other (code : Nat)
  deriving DecidableEq

/-- Of a `MYSQL_FIELD` what the size depends on. -/
structure MySQLField where
  type : EnumFieldTypes
  max_length : Nat
  deriving DecidableEq

/-- `SizeForType`, a `uint32`; `timeSize` is `sizeof(MYSQL_TIME)`. -/
def sizeForType (timeSize : Nat) (field : MySQLField) : Nat :=
  match field.type with
  | .MYSQL_TYPE_NULL => 0
  | .MYSQL_TYPE_TINY => 1
  | .MYSQL_TYPE_YEAR | .MYSQL_TYPE_SHORT => 2
  | .MYSQL_TYPE_INT24 | .MYSQL_TYPE_LONG | .MYSQL_TYPE_FLOAT => 4
  | .MYSQL_TYPE_DOUBLE | .MYSQL_TYPE_LONGLONG | .MYSQL_TYPE_BIT => 8
  | .MYSQL_TYPE_TIMESTAMP | .MYSQL_TYPE_DATE | .MYSQL_TYPE_TIME | .MYSQL_TYPE_DATETIME =>
    timeSize % 2 ^ 32
  | .MYSQL_TYPE_TINY_BLOB | .MYSQL_TYPE_MEDIUM_BLOB | .MYSQL_TYPE_LONG_BLOB | .MYSQL_TYPE_BLOB
  | .MYSQL_TYPE_STRING | .MYSQL_TYPE_VAR_STRING => (field.max_length + 1) % 2 ^ 32
  | .MYSQL_TYPE_DECIMAL | .MYSQL_TYPE_NEWDECIMAL => 64
  | _ => 0

def mysqlTypeToFieldType : EnumFieldTypes → DatabaseFieldTypes
  | .MYSQL_TYPE_NULL => .Null
  | .MYSQL_TYPE_TINY => .Int8
  | .MYSQL_TYPE_YEAR | .MYSQL_TYPE_SHORT => .Int16
  | .MYSQL_TYPE_INT24 | .MYSQL_TYPE_LONG => .Int32
  | .MYSQL_TYPE_LONGLONG | .MYSQL_TYPE_BIT => .Int64
  | .MYSQL_TYPE_FLOAT => .Float
  | .MYSQL_TYPE_DOUBLE => .Double
  | .MYSQL_TYPE_DECIMAL | .MYSQL_TYPE_NEWDECIMAL => .Decimal
  | .MYSQL_TYPE_TIMESTAMP | .MYSQL_TYPE_DATE | .MYSQL_TYPE_TIME | .MYSQL_TYPE_DATETIME => .Date
  | .MYSQL_TYPE_TINY_BLOB | .MYSQL_TYPE_MEDIUM_BLOB | .MYSQL_TYPE_LONG_BLOB | .MYSQL_TYPE_BLOB
  | .MYSQL_TYPE_STRING | .MYSQL_TYPE_VAR_STRING => .Binary
  | _ => .Null

end Mpool.Database
