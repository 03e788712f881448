import Interception.Chain
import Interception.Registry

/-! Resolution: from a list of advisors to the chain for one method on one class. Advisors are visited in
order. Predicates are consulted only as far as needed, and whether introductions apply to the class is
found out at most once, when the first method filter wants to know. -/

namespace Interception

/-- What a chain is resolved for. -/
structure Site where
  method : Method
  targetClass : Class
  /-- The advisors were matched against the class before, so that class filters need not be asked. -/
  preFiltered : Bool := false

namespace Site

/-- The place of a method on a class, by default on the class that declares it. -/
def of (method : Method) (targetClass : Option Class) (preFiltered : Bool) : Site :=
  { method, targetClass := targetClass.getD method.declaringClass, preFiltered }

end Site

namespace Resolution

variable {σ : Type}

/-- Asks the class filter of the advisor at the position, unless that was done before. -/
def classAccepted (site : Site) (position : Nat) (filter : ClassFilter σ) : Inquiry σ Bool :=
  if site.preFiltered then pure true
  else Inquiry.ask (.classFilter position) site.targetClass (filter.accepts site.targetClass)

/-- Whether some introduction of the list applies to the class. The introductions after the first that
does are not asked. -/
def introduced (site : Site) : Nat → List (Advisor σ) → Inquiry σ Bool
  | _, [] => pure false
  | position, .introduction filter _ _ :: rest => do
    if ← Inquiry.ask (.introduction position) site.targetClass (filter.accepts site.targetClass) then pure true
    else introduced site (position + 1) rest
  | position, _ :: rest => introduced site (position + 1) rest

/-- Asks the method filter of the advisor at the position. `known` is whether introductions apply, if
that was found out already; it is answered back together with the verdict. -/
def methodAccepted (site : Site) (advisors : List (Advisor σ)) (known : Option Bool) (position : Nat)
    (filter : MethodFilter σ) : Inquiry σ (Bool × Option Bool) := do
  if filter.introductionAware then
    let has ← match known with
      | some has => pure has
      | none => introduced site 0 advisors
    let verdict ← Inquiry.ask (.methodFilterKnowing position has) site.targetClass
      (filter.acceptsKnowing has site.method site.targetClass)
    pure (verdict, some has)
  else
    let verdict ← Inquiry.ask (.methodFilter position) site.targetClass
      (filter.accepts site.method site.targetClass)
    pure (verdict, known)

def applies (site : Site) (advisors : List (Advisor σ)) (known : Option Bool) (position : Nat) :
    Advisor σ → Inquiry σ (Bool × Option Bool)
  | .conditional pointcut _ => do
    if ← classAccepted site position pointcut.classFilter then
      methodAccepted site advisors known position pointcut.methodMatcher.filter
    else pure (false, known)
  | .introduction filter _ _ => do pure (← classAccepted site position filter, known)
  | .unfiltered _ => pure (true, known)

/-- The terms on which the interceptors of an advisor stand in a chain. -/
def matcher : Advisor σ → MethodMatcher σ
  | .conditional pointcut _ => pointcut.methodMatcher
  | _ => .any

/-- What an advisor that applies contributes: its interceptors, next to each other and on the same
terms. -/
def block (registry : Registry σ) (advisor : Advisor σ) : Except AdvisorError (List (Link σ)) :=
  (registry.interceptors advisor).map fun interceptors => interceptors.map (Link.under (matcher advisor))

/-- Visits the advisors that are left, the first of which stands at the position, and joins their
contributions to the links found so far. Visiting ends at the first advisor that applies and whose
advice is not supported. -/
def visit (registry : Registry σ) (site : Site) (advisors : List (Advisor σ)) :
    Option Bool → Nat → List (Link σ) → List (Advisor σ) →
    Inquiry σ (Except AdvisorError (List (Link σ)))
  | _, _, found, [] => Consultation.answer (.ok found)
  | known, position, found, advisor :: rest =>
    Consultation.andThen (applies site advisors known position advisor) fun
      | (false, known) => visit registry site advisors known (position + 1) found rest
      | (true, known) =>
        match block registry advisor with
        | .error e => Consultation.answer (.error e)
        | .ok links => visit registry site advisors known (position + 1) (found ++ links) rest

end Resolution

/-- The chain for a site, or the error that the first applicable advisor with unsupported advice gives.
A chain that was found is reported. -/
def Registry.resolve {σ : Type} (registry : Registry σ) (advisors : List (Advisor σ)) (site : Site) :
    Inquiry σ (Except AdvisorError (Chain σ)) :=
  Consultation.andThen (Resolution.visit registry site advisors none 0 [] advisors) fun
    | .error e => Consultation.answer (.error e)
    | .ok links =>
      Consultation.andThen
        (Inquiry.report (.chainResolved site.method site.targetClass advisors.length links.length))
        fun _ => Consultation.answer (.ok ⟨links⟩)

end Interception
