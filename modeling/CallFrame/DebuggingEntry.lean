import CallFrame.Expression

/-!
# Debugging entries

A debugging entry describes one thing of the program by a list of attributes. Reading
entries is not the business of this library; whoever does hands one over, and the location
of the variable it describes is computed from its location attribute.

The first attribute of a name counts. A location that is not an expression is none.
-/

namespace CallFrame

/-- The value of an attribute, by the form it is stored in. -/
inductive AttributeValue where
  /-- A block of bytes, which older producers use for expressions. -/
  | block (bytes : Bytes)
  /-- A location expression. -/
  | expression (bytes : Bytes)
  /-- An unsigned constant. -/
  | unsigned (n : UInt64)
  /-- A signed constant. -/
  | signed (n : Int64)
  /-- A text. -/
  | text (s : String)
  deriving DecidableEq

namespace AttributeValue

/-- The location expression that the value stores, if it stores one. -/
def expression? : AttributeValue → Option Bytes
  | .block bytes | .expression bytes => some bytes
  | _ => none

end AttributeValue

/-- A debugging entry: its attributes by name, in order. -/
structure DebuggingEntry where
  /-- The attributes with their names. -/
  attributes : List (UInt16 × AttributeValue)
  deriving DecidableEq

namespace DebuggingEntry

/-- The name of the attribute that says what the entry is called. -/
def nameAttribute : UInt16 := 0x03

/-- The name of the attribute that says where a variable is. -/
def locationAttribute : UInt16 := 0x02

/-- The name of the attribute that says where a function's frame is. -/
def frameBaseAttribute : UInt16 := 0x40

/-- The value of the first attribute of a name. -/
def attribute? (entry : DebuggingEntry) (name : UInt16) : Option AttributeValue :=
  entry.attributes.lookup name

/-- The address of the variable that the entry describes, in the frame with the given
canonical frame address. -/
def location (entry : DebuggingEntry) (cfa : UInt64) : Except Fault UInt64 :=
  match (entry.attribute? locationAttribute).bind AttributeValue.expression? with
  | some expression => Expression.evaluate expression cfa
  | none => .error .noLocation

end DebuggingEntry

end CallFrame
