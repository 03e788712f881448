import Interception.Program

/-! Advice, the behaviour that is added to calls, and the interceptors that carry it out. Around advice
is an interceptor already. Advice of the other shapes is turned into one by an adapter, and extensions
are shapes of which only an adapter made for them knows anything. -/

namespace Interception

/-- Advice that runs ahead of the rest of the chain. -/
abbrev BeforeAdvice (σ : Type) := Method → List Value → Value → Program σ (Except Failure Unit)

/-- Advice that runs after the rest of the chain returned, on what it returned. -/
abbrev AfterReturningAdvice (σ : Type) :=
  Value → Method → List Value → Value → Program σ (Except Failure Unit)

/-- Advice that runs after the rest of the chain failed, for the failures that it handles. -/
structure ThrowsAdvice (σ : Type) where
  handles : Failure → Query σ Bool
  afterThrowing : Ref → Failure → Program σ (Except Failure Unit)

/-- Advice on failures whose cause is recognised. -/
def ThrowsAdvice.onCause {σ ε : Type} (recognise : Cause → Option ε)
    (handler : Ref → ε → Program σ (Except Failure Unit)) : ThrowsAdvice σ where
  handles failure := pure (failure.cause.bind recognise).isSome
  afterThrowing invocation failure :=
    match failure.cause.bind recognise with
    | some e => handler invocation e
    | none => pure (.ok ())

/-- What an interceptor does when a call reaches it. -/
inductive Behaviour (σ : Type) where
  /-- Advice that decides itself whether and how often the call goes on. -/
  | around (body : Ref → Program σ Outcome)
  | before (advice : BeforeAdvice σ)
  | afterReturning (advice : AfterReturningAdvice σ)
  | afterThrowing (advice : ThrowsAdvice σ)
  /-- Goes on and reports how that ended. -/
  | instrumented (label : String)
  /-- Publishes the invocation as the current join point while the call goes on. -/
  | exposing

/-- An element of a chain. Interceptors that the user supplied are told apart by their serial number;
one that an adapter made is no other interceptor. -/
structure Interceptor (σ : Type) where
  serial : Option Nat
  behaviour : Behaviour σ

def Interceptor.same {σ : Type} (a b : Interceptor σ) : Bool :=
  a.serial.isSome && a.serial == b.serial

/-- Behaviour that is added to calls, by its shape. -/
inductive Advice (σ : Type) where
  | around (interceptor : Interceptor σ)
  | before (advice : BeforeAdvice σ)
  | afterReturning (advice : AfterReturningAdvice σ)
  | afterThrowing (advice : ThrowsAdvice σ)
  /-- A shape that only an adapter made for it understands. -/
  | extension (type : String) (payload : Value)

namespace Advice

variable {σ : Type}

/-- The name of the shape. An extension goes by the name of its type. -/
def kind : Advice σ → String
  | around _ => "around"
  | before _ => "before"
  | afterReturning _ => "after-returning"
  | afterThrowing _ => "after-throwing"
  | extension type _ => type

def interceptor? : Advice σ → Option (Interceptor σ)
  | around interceptor => some interceptor
  | _ => none

def payload? : Advice σ → Option Value
  | extension _ payload => some payload
  | _ => none

def describe (a : Advice σ) : String :=
  Description.wrapped "Advice" a.kind

end Advice

end Interception
