import Interception.Failure
import Interception.Method

/-! What can be known of one intercepted call without running it: its identity, what was asked for, and
the read-only picture of it that is published while it runs. -/

namespace Interception

/-- The identity of a call. A call and all forks of it have the same. -/
structure CallId where
  number : Nat
  deriving DecidableEq, Inhabited

/-- Names one invocation, started by a caller or forked, among all that a run has made. -/
structure Ref where
  index : Nat
  deriving DecidableEq, Inhabited

/-- What a caller asks of a proxy. Without a class the method's declaring class is meant. -/
structure Request where
  this : Value
  method : Method
  targetClass : Option Class := none
  arguments : List Value := []
  deriving Inhabited

def Request.actualClass (r : Request) : Class :=
  r.targetClass.getD r.method.declaringClass

/-- A read-only picture of a call at one moment. -/
structure JoinPoint where
  call : CallId
  this : Value
  method : Method
  targetClass : Class
  arguments : List Value
  deriving Inhabited

/-- How an entry of a chain is reached: always, or only by calls whose arguments it accepts. -/
inductive EntryKind where
  | interceptor
  | dynamic
  deriving DecidableEq

namespace EntryKind

def describe : EntryKind → String
  | interceptor => "Interceptor"
  | dynamic => "Dynamic"

def describeAll (kinds : List EntryKind) : String :=
  Description.list (kinds.map describe)

end EntryKind

/-- What can be read of an invocation, by the type of the answer. -/
inductive Facet : Type → Type where
  | call : Facet CallId
  | this : Facet Value
  | method : Facet Method
  | targetClass : Facet Class
  | arguments : Facet (List Value)
  | attached (key : String) : Facet (Option Value)
  /-- The position of the entry that was entered last, if any was. -/
  | position : Facet (Option Nat)
  | chain : Facet (List EntryKind)
  | joinPoint : Facet JoinPoint

end Interception
