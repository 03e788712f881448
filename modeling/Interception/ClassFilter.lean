import Interception.Consultation
import Interception.Method

/-! Predicates on the target class. Unions and intersections consult their members from left to right
and only until the verdict is known. -/

namespace Interception

/-- Decides to which target classes advice applies. -/
inductive ClassFilter (σ : Type) where
  | any
  /-- The classes that can be used as the named type. -/
  | assignableTo (name : String)
  | union (members : List (ClassFilter σ))
  | intersection (members : List (ClassFilter σ))
  | predicate (accepts : Class → Query σ Bool)

namespace ClassFilter

variable {σ : Type}

mutual

def accepts (c : Class) : ClassFilter σ → Query σ Bool
  | any => pure true
  | assignableTo name => pure (c.isA name)
  | union members => anyAccepts c members
  | intersection members => allAccept c members
  | predicate p => p c

/-- Whether some member accepts the class: the members after the first that does are not asked. -/
def anyAccepts (c : Class) : List (ClassFilter σ) → Query σ Bool
  | [] => pure false
  | member :: rest => do
    if ← accepts c member then pure true else anyAccepts c rest

/-- Whether every member accepts the class: the members after the first that does not are not
asked. -/
def allAccept (c : Class) : List (ClassFilter σ) → Query σ Bool
  | [] => pure true
  | member :: rest => do
    if ← accepts c member then allAccept c rest else pure false

end

/-- Every filter looks the same from outside. -/
def describe : ClassFilter σ → String := fun _ => "ClassFilter"

end ClassFilter

end Interception
