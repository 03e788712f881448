import Interception.Call

/-! Forms: callbacks written down as data. A script is a list of steps; filters, matchers, advice,
targets and adapters are described by forms that name a common case or hold scripts. Forms say nothing
about how they are run. -/

namespace Interception.Script

inductive FilterForm where
  | any
  | assignableTo (name : String)
  | union (members : List FilterForm)
  | intersection (members : List FilterForm)
  | nameEndsWith (ending : String)
  | constant (verdict : Bool)
  /-- The same verdict as the inner filter, noted under a label. -/
  | logged (label : String) (inner : FilterForm)
  deriving Inhabited

inductive MethodTest where
  | always
  | constant (verdict : Bool)
  | named (name : String)
  | arity (n : Nat)
  | onClass (name : String)
  /-- The declaring class can be used as the named class. -/
  | declaredBy (name : String)
  | hasParameter (type : String)

inductive ArgumentTest where
  | always
  | constant (verdict : Bool)
  | count (n : Nat)
  | methodNamed (name : String)
  | firstAbove (bound : Int)
  | someText (text : String)

/-- What a method filter does with the knowledge whether introductions apply. -/
inductive Awareness where
  | unaware
  /-- It asks to be told and then decides as if it had not. -/
  | indifferent
  /-- It accepts exactly if introductions apply, or exactly if they do not. -/
  | expecting (introduced : Bool)

inductive MatcherForm where
  | any
  | named (patterns : List String)
  | methodTest (label : String) (test : MethodTest)
  | argumentTest (label : String) (test : ArgumentTest)
  | custom (label : String) (dynamic static : Bool) (awareness : Awareness) (arguments : ArgumentTest)

mutual

/-- One step of a script. A script has a register with the last result, and may stand for advice on an
invocation or run without one. -/
inductive Step where
  | log (text : String)
  | proceed
  /-- Proceeds and keeps the result, also if it is a failure. -/
  | attempt
  | expose
  | fork (steps : List Step)
  | forkWith (arguments : List Value) (steps : List Step)
  | setArguments (arguments : List Value)
  | attach (key : String) (value : Value)
  | attached (key : String)
  | observe
  | describe
  | joinPoint
  /-- Looks up the current join point and fails without one. -/
  | needJoinPoint
  | depth
  | bind (steps : List Step)
  | bindAs (guard : String)
  | release (guard : String)
  | keepJoinPoint (name : String)
  | showJoinPoint (name : String)
  | return (value : Value)
  | propagate
  | fail (failure : Failure)
  | raise (cause : Cause)
  | result (value : Value)
  | argument (index : Nat)
  | wrap (label : String)
  | recover (value : Value)
  | exchange (failure : Failure)
  | logLast
  | repeat (times : Nat) (steps : List Step)
  | untilOk (times : Nat) (steps : List Step)
  | panic (message : String)
  | catch (steps : List Step)
  | thread (steps : List Step)
  | invoke (proxy : String) (request : Request) (target : TargetForm)
  | keep (name : String)
  | withKept (name : String) (steps : List Step)
  deriving Inhabited

inductive TargetForm where
  | echo
  | returning (text : String)
  | failing (message : String)
  /-- Runs the first script when it is called first, and so on; the last script repeats. -/
  | scripted (scripts : List (List Step))
  deriving Inhabited

end

/-- Failures that advice on failures is made for. -/
inductive Handled where
  /-- Those whose cause is of the named type. -/
  | causeOf (type : String)
  | all
  | nothing
  | target
  | advice

inductive AdviceForm where
  | proceeding
  | exposing
  | around (steps : List Step)
  | recording (name : String)
  | shortCircuit (name value : String)
  | instrumented (label : String)
  | before (id : String) (steps : List Step)
  | afterReturning (id : String) (steps : List Step)
  | afterThrowing (id : String) (handled : Handled) (steps : List Step)
  /-- The interceptor that an adapter would make of the inner advice, as around advice. -/
  | direct (inner : AdviceForm)
  | extension (type : String) (payload : Value)
  deriving Inhabited

inductive StandardAdapter where
  | before | afterReturning | afterThrowing

/-- What an adapter of one's own makes. -/
inductive MakingForm where
  | nothing
  | standard (adapter : StandardAdapter)
  | steps (steps : List Step)

inductive AdapterForm where
  | standard (adapter : StandardAdapter)
  | custom (kinds : List String) (making : MakingForm)

/-- Registries of one's own: with or without the standard adapters, then further ones. -/
structure RegistryForm where
  standard : Bool
  adapters : List AdapterForm

inductive PlaceForm where
  | everywhere
  | pointcut (filter : FilterForm) (matcher : MatcherForm)
  | introduction (filter : FilterForm) (interfaces : List String)
  | unfiltered

structure AdvisorForm where
  advice : AdviceForm
  place : PlaceForm

/-- Entries of a chain that is put together by hand. -/
structure EntryForm where
  advice : AdviceForm
  matcher : MatcherForm

end Interception.Script
