import Interception.Bindings
import Interception.Consultation

/-! Programs: what callbacks do. Advice and targets are programs, and everything that they can do to
calls, bindings and the shared state is one of the forms below. A program is data. It is given meaning
where calls are executed, and whatever holds of every program is shown by induction on these forms. -/

namespace Interception

/-- One step that a callback takes on an invocation or on the bindings of its thread. -/
inductive Operation : Type → Type 1 where
  | read {α : Type} (invocation : Ref) (facet : Facet α) : Operation α
  /-- A copy of the invocation at the same position. -/
  | fork (invocation : Ref) : Operation Ref
  | setArguments (invocation : Ref) (arguments : List Value) : Operation Unit
  /-- Attaches a value and answers with the one it replaces. -/
  | setAttribute (invocation : Ref) (key : String) (value : Value) : Operation (Option Value)
  | bind (point : JoinPoint) : Operation Guard
  | release (guard : Guard) : Operation Unit
  | currentJoinPoint : Operation (Except Failure JoinPoint)
  | bindingDepth : Operation Nat

/-- A program on the shared state `σ`, by the type of its result. -/
inductive Program (σ : Type) : Type → Type 1 where
  | done {α : Type} (a : α) : Program σ α
  | andThen {α β : Type} (first : Program σ α) (next : α → Program σ β) : Program σ β
  /-- Uses the shared state, writes notes, or unwinds. -/
  | consult {α : Type} (q : Query σ α) : Program σ α
  | perform {α : Type} (op : Operation α) : Program σ α
  /-- Advances the invocation: runs the next entry of its chain, or the target after the last. -/
  | proceed (invocation : Ref) : Program σ Outcome
  /-- Publishes the invocation as the current join point and advances it. -/
  | expose (invocation : Ref) : Program σ Outcome
  /-- Calls through a proxy, if there is one of that name. -/
  | invoke (proxy : String) (request : Request)
      (target : Value → Method → List Value → Program σ (Except Cause Value)) :
      Program σ (Option Outcome)
  /-- Runs the body with the join point bound, and releases the binding however the body ends. -/
  | withBinding {α : Type} (point : JoinPoint) (body : Program σ α) : Program σ α
  | catching {α : Type} (body : Program σ α) : Program σ (Except Panic α)
  /-- Runs the body on a thread of its own and waits for it. A panic passes through. -/
  | onThread {α : Type} (body : Program σ α) : Program σ α

/-- The real method behind a proxy: given the target object, the method and the arguments. -/
abbrev Target (σ : Type) := Value → Method → List Value → Program σ (Except Cause Value)

namespace Program

variable {σ : Type}

instance : Monad (Program σ) where
  pure := done
  bind := andThen

def note (text : String) : Program σ Unit := consult (Consultation.write text)

def panic {α : Type} (message : String) : Program σ α := consult (Consultation.panic message)

def get : Program σ σ := consult Consultation.get

/-- Changes the shared state and answers with what the change yields. -/
def modifyGet {α : Type} (change : σ → α × σ) : Program σ α := consult (Consultation.modifyGet change)

def modify (change : σ → σ) : Program σ Unit := consult (Consultation.modify change)

def read {α : Type} (invocation : Ref) (facet : Facet α) : Program σ α := perform (.read invocation facet)

def fork (invocation : Ref) : Program σ Ref := perform (.fork invocation)

/-- A fork whose arguments are then replaced. -/
def forkWith (invocation : Ref) (arguments : List Value) : Program σ Ref := do
  let copy ← fork invocation
  perform (.setArguments copy arguments)
  pure copy

end Program

end Interception
