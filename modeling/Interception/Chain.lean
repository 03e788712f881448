import Interception.Advice
import Interception.MethodMatcher

/-! Chains: the interceptors that one call passes, in order. A chain does not change once it is made, so
it can be kept and shared between calls. -/

namespace Interception

/-- An element of a chain. -/
inductive Link (σ : Type) where
  /-- Run whenever it is reached. -/
  | plain (interceptor : Interceptor σ)
  /-- Run when it is reached by a call whose arguments are accepted, skipped otherwise. -/
  | dynamic (interceptor : Interceptor σ) (accepts : ArgumentPredicate σ)

namespace Link

variable {σ : Type}

def interceptor : Link σ → Interceptor σ
  | plain interceptor => interceptor
  | dynamic interceptor _ => interceptor

def kind : Link σ → EntryKind
  | plain _ => .interceptor
  | dynamic _ _ => .dynamic

/-- An interceptor under the terms of a matcher: its predicate on arguments, where it has one, is kept
for the call. -/
def under (matcher : MethodMatcher σ) (interceptor : Interceptor σ) : Link σ :=
  match matcher with
  | .static _ => plain interceptor
  | .dynamic _ accepts => dynamic interceptor accepts

def isDynamic (l : Link σ) : Bool := l.kind = .dynamic

end Link

/-- The interceptors that a call passes, the outermost first. -/
structure Chain (σ : Type) where
  links : List (Link σ) := []

namespace Chain

variable {σ : Type}

def empty : Chain σ := {}

def length (c : Chain σ) : Nat := c.links.length

def isEmpty (c : Chain σ) : Bool := c.links.isEmpty

def get? (c : Chain σ) (position : Nat) : Option (Link σ) := c.links[position]?

/-- The chain with one more link in front. -/
def prepend (l : Link σ) (c : Chain σ) : Chain σ := ⟨l :: c.links⟩

/-- The kinds of the links, in order. -/
def kinds (c : Chain σ) : List EntryKind := c.links.map Link.kind

def describe (c : Chain σ) : String := EntryKind.describeAll c.kinds

@[simp] theorem length_prepend (l : Link σ) (c : Chain σ) : (c.prepend l).length = c.length + 1 := rfl

end Chain

end Interception
