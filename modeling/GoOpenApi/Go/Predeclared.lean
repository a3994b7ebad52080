import GoOpenApi.Go.Type

/-!
Types with a fixed shape: the predeclared names of the language and a few library types.
-/

namespace GoOpenApi

/-- Scalars with a fixed schema. -/
inductive Primitive where
  | bool | string
  | int | int8 | int16 | int32 | int64
  | uint | uint8 | uint16 | uint32 | uint64
  | float32 | float64
  /-- A slice of bytes, base64 in JSON. -/
  | bytes
  | dateTime | uuid
  | any
  | error
  deriving DecidableEq, Repr

namespace Primitive

def label : Primitive → String
  | bool => "bool" | string => "string"
  | int => "int" | int8 => "int8" | int16 => "int16" | int32 => "int32" | int64 => "int64"
  | uint => "uint" | uint8 => "uint8" | uint16 => "uint16" | uint32 => "uint32"
  | uint64 => "uint64"
  | float32 => "float32" | float64 => "float64"
  | bytes => "bytes" | dateTime => "date_time" | uuid => "uuid" | any => "any"
  | error => "error"

def all : List Primitive :=
  [bool, string, int, int8, int16, int32, int64, uint, uint8, uint16, uint32, uint64, float32,
    float64, bytes, dateTime, uuid, any, error]

def ofLabel? (s : String) : Option Primitive := all.find? (·.label == s)

/-- The predeclared types. Complex numbers have no JSON shape of their own. -/
def predeclared : List (String × Primitive) :=
  [("bool", bool), ("string", string), ("int", int), ("int8", int8), ("int16", int16),
    ("int32", int32), ("rune", int32), ("int64", int64), ("uint", uint), ("uint8", uint8),
    ("byte", uint8), ("uint16", uint16), ("uint32", uint32), ("uint64", uint64),
    ("uintptr", uint64), ("float32", float32), ("float64", float64), ("any", any),
    ("complex64", any), ("complex128", any), ("error", error)]

def ofName? (name : String) : Option Primitive := predeclared.lookup name

/-- Library types with a known JSON shape. -/
def wellKnown? (package name : String) : Option Primitive :=
  if package = "time" && name = "Time" then some dateTime
  else if package = "time" && name = "Duration" then some int64
  else if package = "encoding/json" && name = "RawMessage" then some any
  else if name = "UUID" && (Text.dropEnd? "uuid" package).isSome then some uuid
  else none

end Primitive

def isPredeclared (name : String) : Bool := (Primitive.ofName? name).isSome

/-- The type of a byte, which makes a slice of it a text in JSON. -/
def GoType.isByte : GoType → Bool
  | .named name none => name = "byte" || name = "uint8"
  | _ => false

end GoOpenApi
