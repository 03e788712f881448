import Interception.MethodMatcher
import Interception.Script.Forms

/-! The filters and matchers that forms stand for. They note what they decided, where the form asks for
it, and use no state. -/

namespace Interception.Script

variable {σ : Type}

/-- Notes a verdict and gives it. -/
def noted (text : String) (verdict : Bool) : Query σ Bool := do
  Consultation.write (text ++ "=" ++ Description.truth verdict)
  pure verdict

namespace FilterForm

mutual

def filter : FilterForm → ClassFilter σ
  | any => .any
  | assignableTo name => .assignableTo name
  | union members => .union (filters members)
  | intersection members => .intersection (filters members)
  | nameEndsWith ending => .predicate fun c => pure (ending.toList.isSuffixOf c.name.toList)
  | constant verdict => .predicate fun _ => pure verdict
  | logged label inner =>
    let inner := filter inner
    .predicate fun c => do
      let verdict ← inner.accepts c
      noted ("filter " ++ label ++ "(" ++ c.name ++ ")") verdict

def filters : List FilterForm → List (ClassFilter σ)
  | [] => []
  | form :: rest => filter form :: filters rest

end

end FilterForm

def MethodTest.holds (method : Method) (target : Class) : MethodTest → Bool
  | always => true
  | constant verdict => verdict
  | named name => method.name == name
  | arity n => method.arity == n
  | onClass name => target.isA name
  | declaredBy name => method.declaringClass.isA name
  | hasParameter type => method.parameters.contains type

def ArgumentTest.holds (method : Method) (arguments : List Value) : ArgumentTest → Bool
  | always => true
  | constant verdict => verdict
  | count n => arguments.length == n
  | methodNamed name => method.name == name
  | firstAbove bound =>
    match arguments with
    | .int32 n :: _ => n.toInt > bound
    | _ => false
  | someText text => arguments.contains (.text text)

/-- A method on a target class, as it is noted. -/
def place (method : Method) (target : Class) : String :=
  method.signature ++ " on " ++ target.name

/-- The method filter of a custom matcher. -/
def customFilter (label : String) (static : Bool) (awareness : Awareness) : MethodFilter σ :=
  let decide (method : Method) (target : Class) : Query σ Bool :=
    noted ("static " ++ label ++ "(" ++ place method target ++ ")") static
  match awareness with
  | .unaware => .predicate { accepts := decide }
  | .indifferent => .predicate { accepts := decide, introductionAware := true }
  | .expecting introduced => .predicate
    { accepts := decide
      introductionAware := true
      acceptsKnowing := fun has method target =>
        noted ("aware " ++ label ++ "(" ++ place method target ++ " has=" ++ Description.truth has ++ ")")
          (has == introduced) }

def MatcherForm.matcher : MatcherForm → MethodMatcher σ
  | any => .any
  | named patterns => .static (.named patterns)
  | methodTest label test => .static (.ofPredicate fun method target =>
      noted ("method_fn " ++ label ++ "(" ++ place method target ++ ")") (test.holds method target))
  | argumentTest label test => .ofArguments fun method arguments =>
      noted ("args_fn " ++ label ++ "(" ++ method.signature ++ " " ++ Value.describeAll arguments ++ ")")
        (test.holds method arguments)
  | custom label false static awareness _ => .static (customFilter label static awareness)
  | custom label true static awareness test =>
    .dynamic (customFilter label static awareness) fun method target arguments =>
      noted ("args " ++ label ++ "(" ++ place method target ++ " " ++ Value.describeAll arguments ++ ")")
        (test.holds method arguments)

end Interception.Script
