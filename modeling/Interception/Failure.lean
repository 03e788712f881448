import Interception.Value

/-! What can go wrong. Changing a list of advisors fails with an `AdvisorError`; an intercepted call
fails with a `Failure`, which tells whether the target, some advice or the assembly of the call is to
blame and, for the first two, carries the cause. A cause may itself be a failure of another call. -/

namespace Interception

/-- Reasons for which advisors cannot be assembled or changed. -/
inductive AdvisorError where
  /-- No adapter makes an interceptor of advice of this kind. -/
  | unknownAdvice (kind : String)
  | frozen
  /-- An introduction that introduces nothing. -/
  | emptyIntroduction
  | indexOutOfBounds (index length : Nat)
  deriving DecidableEq, Inhabited

namespace AdvisorError

def message : AdvisorError → String
  | unknownAdvice kind => "Advice of type " ++ kind ++ " is not supported by any registered adapter"
  | frozen => "Cannot modify advisors: configuration is frozen"
  | emptyIntroduction => "Introduction advisor introduces no interfaces"
  | indexOutOfBounds index length =>
    "Advisor index " ++ toString index ++ " out of bounds (len " ++ toString length ++ ")"

/-- The name under which an error is reported. -/
def label : AdvisorError → String
  | unknownAdvice _ => "UnknownAdviceType"
  | frozen => "Frozen"
  | emptyIntroduction => "EmptyIntroduction"
  | indexOutOfBounds _ _ => "IndexOutOfBounds"

def describe : AdvisorError → String
  | unknownAdvice kind => Description.wrapped "UnknownAdviceType" (Description.quoted kind)
  | frozen => "Frozen"
  | emptyIntroduction => "EmptyIntroduction"
  | indexOutOfBounds index length =>
    Description.record "IndexOutOfBounds" [("index", toString index), ("len", toString length)]

end AdvisorError

mutual

/-- Why a target or some advice failed. -/
inductive Cause where
  /-- An error of a type of its own, known by the name of the type. -/
  | typed (type message : String)
  | text (message : String)
  | advisor (error : AdvisorError)
  /-- The failure of another intercepted call. -/
  | failure (failure : Failure)
  deriving Inhabited

/-- Why an intercepted call failed. -/
inductive Failure where
  /-- A join point was asked for on a thread on which none is bound. -/
  | noJoinPoint
  | target (cause : Cause)
  | advice (cause : Cause)
  /-- The chain of interceptors could not be assembled. -/
  | advisor (error : AdvisorError)
  deriving Inhabited

end

mutual

def Cause.message : Cause → String
  | .typed _ message => message
  | .text message => message
  | .advisor error => error.message
  | .failure failure => failure.message

def Failure.message : Failure → String
  | .noJoinPoint => "No join point bound on the current thread; is ExposeInvocation in the chain?"
  | .target cause => "Target failure: " ++ cause.message
  | .advice cause => "Advice failure: " ++ cause.message
  | .advisor error => error.message

end

namespace Cause

/-- The type by which a cause is recognised. A bare message has none. -/
def type : Cause → Option String
  | typed type _ => some type
  | text _ => none
  | advisor _ => some "AdvisorError"
  | failure _ => some "Invocation"

end Cause

namespace Failure

/-- What the target or the advice failed with. Only the outermost cause is seen. -/
def cause : Failure → Option Cause
  | target cause => some cause
  | advice cause => some cause
  | noJoinPoint => none
  | advisor _ => none

def isTarget : Failure → Bool
  | target _ => true
  | _ => false

def isAdvice : Failure → Bool
  | advice _ => true
  | _ => false

/-- The name under which a failure is reported. -/
def label : Failure → String
  | noJoinPoint => "NoJoinPoint"
  | target _ => "Target"
  | advice _ => "Advice"
  | advisor error => "Advisor." ++ error.label

end Failure

/-- The result of an intercepted call. -/
abbrev Outcome := Except Failure Value

end Interception
