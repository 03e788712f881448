import Interception.Registry
import Interception.Chain
import Interception.Script.Predicates
import Interception.Script.Running

/-! The advice, adapters and advisors that forms stand for. Each piece of around advice is given a serial
number, by which its interceptor is known from then on. -/

namespace Interception.Script

def Handled.covers (failure : Failure) : Handled → Bool
  | causeOf type => (failure.cause.bind Cause.type) == some type
  | all => true
  | nothing => false
  | target => failure.isTarget
  | advice => failure.isAdvice

def around (steps : List Step) : Behaviour Memory :=
  .around fun r => nested r fun frame => runAll frame steps

/-- Runs a script of which only a failure matters. -/
def checked (subject : Subject) (first : Outcome) (steps : List Step) : Action (Except Failure Unit) := do
  let answer ← started subject first fun frame => runAll frame steps
  pure (answer.ofAdvice.map fun _ => ())

def before (id : String) (steps : List Step) : BeforeAdvice Memory := fun method arguments this => do
  Program.note ("before " ++ id ++ " " ++ method.signature ++ " args=" ++ Value.describeAll arguments ++
    " this=" ++ this.describe)
  checked (.arguments arguments) (.ok .unit) steps

def afterReturning (id : String) (steps : List Step) : AfterReturningAdvice Memory :=
  fun returned method arguments this => do
    Program.note ("after " ++ id ++ " " ++ method.signature ++ " returned=" ++ returned.describe ++
      " args=" ++ Value.describeAll arguments ++ " this=" ++ this.describe)
    checked (.arguments arguments) (.ok returned) steps

def afterThrowing (id : String) (handled : Handled) (steps : List Step) : ThrowsAdvice Memory :=
  let handler (r : Ref) (message : String) : Action (Except Failure Unit) := do
    Program.note ("throws " ++ id ++ " " ++ message)
    checked (.viewing r) (.ok .unit) steps
  match handled with
  | .causeOf type =>
    .onCause (fun cause => if cause.type == some type then some cause else none) fun r cause =>
      handler r cause.message
  | _ =>
    { handles := fun failure => do
        let verdict := handled.covers failure
        Consultation.write
          ("handles " ++ id ++ " " ++ failure.message ++ " = " ++ Description.truth verdict)
        pure verdict
      afterThrowing := fun r failure => handler r failure.message }

/-- The interceptor that the standard adapters make of advice, as a behaviour. -/
def behaviour? : Advice Memory → Option (Behaviour Memory)
  | .before advice => some (.before advice)
  | .afterReturning advice => some (.afterReturning advice)
  | .afterThrowing advice => some (.afterThrowing advice)
  | _ => none

def AdviceForm.advice (serial : Nat) : AdviceForm → Advice Memory
  | proceeding => .around ⟨some serial, .around Program.proceed⟩
  | exposing => .around ⟨some serial, .exposing⟩
  | around steps => .around ⟨some serial, Script.around steps⟩
  | recording name => .around ⟨some serial, .around fun r => do
      Program.note name
      Program.proceed r⟩
  | shortCircuit name value => .around ⟨some serial, .around fun _ => do
      Program.note name
      pure (.ok (.literal value))⟩
  | instrumented label => .around ⟨some serial, .instrumented label⟩
  | before id steps => .before (Script.before id steps)
  | afterReturning id steps => .afterReturning (Script.afterReturning id steps)
  | afterThrowing id handled steps => .afterThrowing (Script.afterThrowing id handled steps)
  | direct inner =>
    let advice := inner.advice serial
    match behaviour? advice with
    | some behaviour => .around ⟨some serial, behaviour⟩
    | none => advice
  | extension type payload => .extension type payload

def StandardAdapter.adapter : StandardAdapter → Adapter Memory
  | before => .before
  | afterReturning => .afterReturning
  | afterThrowing => .afterThrowing

/-- A script as the interceptor for an extension: the payload is noted and attached first. -/
def aroundPayload (advice : Advice Memory) (steps : List Step) : Behaviour Memory :=
  .around fun r => do
    match advice.payload? with
    | some (.foreign label) =>
      Program.note ("payload " ++ label)
      let _ ← Program.perform (.setAttribute r "payload" (.text label))
    | _ => pure ()
    nested r fun frame => runAll frame steps

def AdapterForm.adapter : AdapterForm → Adapter Memory
  | standard adapter => adapter.adapter
  | custom kinds making =>
    { supports := fun advice => kinds.contains advice.kind
      interceptor? := fun advisor =>
        match making with
        | .nothing => none
        | .standard adapter => adapter.adapter.interceptor? advisor
        | .steps steps => some ⟨none, aroundPayload advisor.advice steps⟩ }

def RegistryForm.registry (form : RegistryForm) : Registry Memory :=
  form.adapters.foldl (fun registry adapter => registry.register adapter.adapter)
    (if form.standard then .standard else .empty)

def AdvisorForm.advisor (serial : Nat) (form : AdvisorForm) : Advisor Memory :=
  let advice := form.advice.advice serial
  match form.place with
  | .everywhere => .always advice
  | .pointcut filter matcher =>
    .conditional { classFilter := filter.filter, methodMatcher := matcher.matcher } advice
  | .introduction filter interfaces => .introduction filter.filter advice interfaces
  | .unfiltered => .unfiltered advice

/-- The link that a form stands for. Advice that is no interceptor gives none. -/
def EntryForm.link? (serial : Nat) (form : EntryForm) : Option (Link Memory) :=
  (form.advice.advice serial).interceptor?.map (Link.under form.matcher.matcher)

end Interception.Script
