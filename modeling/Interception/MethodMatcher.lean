import Interception.ClassFilter
import Interception.NamePattern
import Interception.Value

/-! Predicates on methods. A method filter is decided while a chain is assembled, from the method and
the target class; it may ask to be told whether introductions apply to that class. A dynamic matcher
adds a predicate on the arguments, which is left for each call. -/

namespace Interception

/-- A method filter of the user's own. -/
structure MethodPredicate (σ : Type) where
  accepts : Method → Class → Query σ Bool
  /-- Whether the filter wants to know if introductions apply to the target class. -/
  introductionAware : Bool := false
  /-- The verdict when it is known whether introductions apply. -/
  acceptsKnowing : Bool → Method → Class → Query σ Bool := fun _ => accepts

/-- Decides from the method and the target class. -/
inductive MethodFilter (σ : Type) where
  | any
  /-- Methods whose name some pattern matches. -/
  | named (patterns : List String)
  | predicate (p : MethodPredicate σ)

namespace MethodFilter

variable {σ : Type}

def introductionAware : MethodFilter σ → Bool
  | any | named _ => false
  | predicate p => p.introductionAware

def accepts (method : Method) (target : Class) : MethodFilter σ → Query σ Bool
  | any => pure true
  | named patterns => pure (NamePattern.anyMatches patterns method.name)
  | predicate p => p.accepts method target

/-- The verdict when it is known whether introductions apply to the target class. Filters that do not
care give the verdict they always give. -/
def acceptsKnowing (introduced : Bool) (method : Method) (target : Class) :
    MethodFilter σ → Query σ Bool
  | any => pure true
  | named patterns => pure (NamePattern.anyMatches patterns method.name)
  | predicate p => p.acceptsKnowing introduced method target

/-- A filter that is a plain predicate on the method and the target class. -/
def ofPredicate (accepts : Method → Class → Query σ Bool) : MethodFilter σ :=
  predicate { accepts }

end MethodFilter

/-- Decides from the arguments of an actual call. -/
abbrev ArgumentPredicate (σ : Type) := Method → Class → List Value → Query σ Bool

/-- Decides to which methods, and to which of their calls, advice applies. -/
inductive MethodMatcher (σ : Type) where
  /-- Decided once, while a chain is assembled. -/
  | static (filter : MethodFilter σ)
  /-- Decided while a chain is assembled and again on the arguments of each call. -/
  | dynamic (filter : MethodFilter σ) (accepts : ArgumentPredicate σ)

namespace MethodMatcher

variable {σ : Type}

def any : MethodMatcher σ := static .any

/-- The half that is decided while a chain is assembled. -/
def filter : MethodMatcher σ → MethodFilter σ
  | static f => f
  | dynamic f _ => f

def isDynamic : MethodMatcher σ → Bool
  | static _ => false
  | dynamic _ _ => true

/-- A matcher on the arguments alone. -/
def ofArguments (accepts : Method → List Value → Query σ Bool) : MethodMatcher σ :=
  dynamic .any fun method _ arguments => accepts method arguments

def describe : MethodMatcher σ → String
  | static _ => "MethodMatcher::Static"
  | dynamic _ _ => "MethodMatcher::Dynamic"

end MethodMatcher

/-- Where advice applies: a predicate on the class and one on the method. -/
structure Pointcut (σ : Type) where
  classFilter : ClassFilter σ := .any
  methodMatcher : MethodMatcher σ := .any

namespace Pointcut

variable {σ : Type}

def always : Pointcut σ := {}

def named (patterns : List String) : Pointcut σ :=
  { methodMatcher := .static (.named patterns) }

def describe (p : Pointcut σ) : String :=
  Description.record "Pointcut"
    [("class_filter", p.classFilter.describe), ("method_matcher", p.methodMatcher.describe)]

end Pointcut

end Interception
