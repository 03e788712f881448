import Interception.Description

/-! Classes and methods, the identities on which interception decides. A class is known by its name
alone; the supertypes it declares are data that filters look at and equality does not. -/

namespace Interception

/-- A target class: its name and the supertypes it declares, in order of declaration. -/
structure Class where
  name : String
  supertypes : List String := []
  deriving Inhabited

namespace Class

/-- A class that declares no supertypes. -/
def named (name : String) : Class := { name }

/-- The class with further supertypes declared after those it has. -/
def implementing (c : Class) (supertypes : List String) : Class :=
  { c with supertypes := c.supertypes ++ supertypes }

/-- A class can be used as itself and as each of its supertypes. -/
def isA (c : Class) (name : String) : Bool :=
  c.name == name || c.supertypes.contains name

/-- Classes are equal when their names are. -/
instance : BEq Class where
  beq a b := a.name == b.name

instance : ToString Class where
  toString := name

def describe (c : Class) : String :=
  Description.record "ClassRef"
    [("name", Description.quoted c.name),
     ("supertypes", Description.list (c.supertypes.map Description.quoted))]

theorem beq_iff (a b : Class) : (a == b) = true ↔ a.name = b.name := by
  simp [BEq.beq]

end Class

/-- A method: the class that declares it, its name, and the types of its parameters. -/
structure Method where
  declaringClass : Class
  name : String
  parameters : List String := []
  deriving Inhabited

namespace Method

def arity (m : Method) : Nat := m.parameters.length

/-- Methods are equal when names, declaring classes and parameter types are. -/
instance : BEq Method where
  beq a b := a.name == b.name && a.declaringClass == b.declaringClass && a.parameters == b.parameters

/-- The signature of a method: class, name and parameter types. -/
def signature (m : Method) : String :=
  m.declaringClass.name ++ "::" ++ m.name ++ "(" ++ ", ".intercalate m.parameters ++ ")"

instance : ToString Method where
  toString := signature

end Method

/-- The number of different items of a list, by its equality. -/
def countDistinct {α : Type} [BEq α] (items : List α) : Nat :=
  items.eraseDups.length

end Interception
