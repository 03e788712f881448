import Interception.Advisor
import Interception.Journal

/-! Adapters turn advice into interceptors, and a registry holds the adapters that are in use. Around
advice needs none. When several adapters support one piece of advice each of them contributes an
interceptor, in the order in which they were registered. -/

namespace Interception

/-- Turns advice of some shape into interceptors. -/
structure Adapter (σ : Type) where
  supports : Advice σ → Bool
  /-- The interceptor for the advice of an advisor, if the adapter makes one. -/
  interceptor? : Advisor σ → Option (Interceptor σ)

namespace Adapter

variable {σ : Type}

def before : Adapter σ where
  supports
    | .before _ => true
    | _ => false
  interceptor? advisor :=
    match advisor.advice with
    | .before advice => some ⟨none, .before advice⟩
    | _ => none

def afterReturning : Adapter σ where
  supports
    | .afterReturning _ => true
    | _ => false
  interceptor? advisor :=
    match advisor.advice with
    | .afterReturning advice => some ⟨none, .afterReturning advice⟩
    | _ => none

def afterThrowing : Adapter σ where
  supports
    | .afterThrowing _ => true
    | _ => false
  interceptor? advisor :=
    match advisor.advice with
    | .afterThrowing advice => some ⟨none, .afterThrowing advice⟩
    | _ => none

/-- An adapter keeps its promise when it makes an interceptor of all advice that it supports. -/
def IsFaithful (a : Adapter σ) : Prop :=
  ∀ advisor : Advisor σ, a.supports advisor.advice = true → (a.interceptor? advisor).isSome = true

end Adapter

/-- The adapters in use, in the order in which they were registered. -/
structure Registry (σ : Type) where
  adapters : List (Adapter σ) := []

namespace Registry

variable {σ : Type}

def empty : Registry σ := {}

/-- The adapters for the three shapes that are not interceptors already. -/
def standard : Registry σ := ⟨[.before, .afterReturning, .afterThrowing]⟩

def register (r : Registry σ) (a : Adapter σ) : Registry σ := ⟨r.adapters ++ [a]⟩

def size (r : Registry σ) : Nat := r.adapters.length

/-- The event that reports a registry of one's own once it is complete. -/
def built (r : Registry σ) : Event := .registryBuilt r.size

/-- Around advice is always supported, other advice when some adapter supports it. -/
def supports (r : Registry σ) (advice : Advice σ) : Bool :=
  advice.interceptor?.isSome || r.adapters.any (·.supports advice)

/-- Around advice itself, then what the adapters that support the advice make of it. There may be
none. -/
def candidates (r : Registry σ) (advisor : Advisor σ) : List (Interceptor σ) :=
  advisor.advice.interceptor?.toList ++
    (r.adapters.filter (·.supports advisor.advice)).filterMap (·.interceptor? advisor)

/-- The interceptors for the advice of an advisor, of which there is at least one. -/
def interceptors (r : Registry σ) (advisor : Advisor σ) : Except AdvisorError (List (Interceptor σ)) :=
  match r.candidates advisor with
  | [] => .error (.unknownAdvice advisor.advice.kind)
  | found => .ok found

/-- An advisor that applies the advice everywhere, if the advice is supported. -/
def wrap (r : Registry σ) (advice : Advice σ) : Except AdvisorError (Advisor σ) :=
  if r.supports advice then .ok (.always advice) else .error (.unknownAdvice advice.kind)

def describe (r : Registry σ) : String :=
  Description.record "AdapterRegistry" [("adapters", toString r.size)]

end Registry

end Interception
