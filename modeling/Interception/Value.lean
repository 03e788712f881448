import Interception.Description

/-! Values that travel through intercepted calls: arguments, results, targets and attributes. A
value is of exactly one of the types below and is never converted from one to another, so a 32-bit
and a 64-bit number differ even where they denote the same integer. -/

namespace Interception

/-- An argument or result, by its type. -/
inductive Value where
  | unit
  | int32 (n : Int32)
  | int64 (n : Int64)
  | byte (n : UInt8)
  | bool (b : Bool)
  /-- Text that is fixed when the program is written. -/
  | literal (text : String)
  /-- Text that is made while the program runs. -/
  | text (text : String)
  /-- A value of a type of which nothing is known here; the label tells such values apart. -/
  | foreign (label : String)
  deriving DecidableEq, Inhabited

namespace Value

/-- The types that can be told apart, in the order in which they are asked for. -/
inductive Kind where
  | unit | int32 | int64 | byte | bool | literal | text | foreign
  deriving DecidableEq

def kind : Value → Kind
  | unit => .unit
  | int32 _ => .int32
  | int64 _ => .int64
  | byte _ => .byte
  | bool _ => .bool
  | literal _ => .literal
  | text _ => .text
  | foreign _ => .foreign

def is (v : Value) (k : Kind) : Bool :=
  v.kind = k

/-- Text and numbers are described by their content, every other value but unit by two dots. -/
def describe : Value → String
  | unit => "Value(())"
  | int32 n => Description.wrapped "Value" (toString n.toInt)
  | int64 n => Description.wrapped "Value" (toString n.toInt)
  | literal s => Description.wrapped "Value" (Description.quoted s)
  | text s => Description.wrapped "Value" (Description.quoted s)
  | byte _ | bool _ | foreign _ => "Value(..)"

def describeAll (values : List Value) : String :=
  Description.list (values.map describe)

end Value

/-- A value held in a memory cell. Copies share the cell, and two cells with equal content are
still two cells. -/
structure Cell where
  address : Nat
  content : Value

namespace Cell

def allocate (values : List Value) : List Cell :=
  (values.zipIdx).map fun (v, address) => ⟨address, v⟩

/-- Whether two holders share one cell. -/
def same (a b : Cell) : Bool :=
  a.address = b.address

end Cell

end Interception
