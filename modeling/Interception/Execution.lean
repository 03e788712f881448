import Interception.Proxy
import Interception.World

/-! Execution: what programs mean, and how a call advances through its chain. An invocation has a cursor
that only moves forward. Proceeding enters the next link whose terms the arguments meet, and runs the
target once no link is left, as often as it is asked to. Programs, links and proxies call one another,
so a run is given a depth, the number of calls that may be nested in one another. -/

namespace Interception

/-- What the links of a chain and the programs of callbacks ask for one level further down. -/
inductive Activation (σ : Type) where
  | proceed (invocation : Ref)
  | call (proxy : Proxy σ) (request : Request) (target : Target σ)

abbrev Engine (σ : Type) := Activation σ → Run σ Outcome

/-- The proxies that programs can call, by name. -/
abbrev Directory (σ : Type) := String → Option (Proxy σ)

variable {σ : Type}

/-- Publishes an invocation while it advances. When that unwinds, the binding is released and the
invocation keeps the slot that it was published in. -/
def Engine.expose (engine : Engine σ) (r : Ref) : Run σ Outcome := fun w =>
  let i := w.invocation r
  let (guard, w) := w.bind (some r) i.joinPoint
  let w := w.update r fun i => { i with exposedAt := some guard.slot }
  match engine (.proceed r) w with
  | (.finished outcome, w) =>
    (.finished outcome, (w.update r fun j => { j with exposedAt := i.exposedAt }).release guard)
  | (ending, w) => (ending, w.release guard)

/-- The meaning of a program. -/
def Program.run (directory : Directory σ) (engine : Engine σ) : {α : Type} → Program σ α → Run σ α
  | _, .done a => Run.finish a
  | _, .andThen first next => Run.andThen (first.run directory engine) fun a => (next a).run directory engine
  | _, .consult q => Run.consult q
  | _, .perform op => fun w =>
    let (a, w) := w.apply op
    (.finished a, w)
  | _, .proceed r => engine (.proceed r)
  | _, .expose r => engine.expose r
  | _, .invoke name request target =>
    match directory name with
    | none => Run.finish none
    | some proxy => Run.andThen (engine (.call proxy request target)) fun outcome => Run.finish (some outcome)
  | _, .withBinding point body => Run.withBinding point (body.run directory engine)
  | _, .catching body => Run.catching (body.run directory engine)
  | _, .onThread body => Run.onThread (body.run directory engine)

/-- Runs the target. Its failure is a failure of the call. -/
def Target.run (directory : Directory σ) (engine : Engine σ) (target : Target σ)
    (invocation : Option Ref) (this : Value) (method : Method) (arguments : List Value) :
    Run σ Outcome := do
  Run.record (.occurrence
    (.reached invocation this method arguments (← Run.thread) (← Run.bound)))
  let result ← (target this method arguments).run directory engine
  pure (result.mapError .target)

def Behaviour.run (directory : Directory σ) (engine : Engine σ) (r : Ref) : Behaviour σ → Run σ Outcome
  | .around body => (body r).run directory engine
  | .before advice => do
    let result ← (advice (← Run.read r .method) (← Run.read r .arguments) (← Run.read r .this)).run
      directory engine
    match result with
    | .error failure => pure (.error failure)
    | .ok () => engine (.proceed r)
  | .afterReturning advice => do
    match ← engine (.proceed r) with
    | .error failure => pure (.error failure)
    | .ok returned =>
      let result ← (advice returned (← Run.read r .method) (← Run.read r .arguments)
        (← Run.read r .this)).run directory engine
      pure (result.map fun () => returned)
  | .afterThrowing advice => do
    match ← engine (.proceed r) with
    | .ok returned => pure (.ok returned)
    | .error failure =>
      if ← Run.consult (advice.handles failure) then
        Run.report (.handlingFailure (← Run.read r .call) failure)
        let result ← (advice.afterThrowing r failure).run directory engine
        pure (result.bind fun () => .error failure)
      else pure (.error failure)
  | .instrumented label => do
    let outcome ← engine (.proceed r)
    let call ← Run.read r .call
    let method ← Run.read r .method
    match outcome with
    | .ok _ => Run.report (.completed call method label)
    | .error failure => Run.report (.failed call method label failure)
    pure outcome
  | .exposing => engine.expose r

def Run.step (r : Ref) : Run σ Unit := fun w =>
  (.finished (), w.update r fun i => { i with entered := i.entered + 1 })

def Run.enter (r : Ref) (position : Nat) : Run σ Unit := do
  Run.record (.occurrence
    (.entered r position (← Run.read r .position) (← Run.read r .arguments) (← Run.thread)
      (← Run.bound)))

/-- Advances an invocation that has the given links ahead of it, the first of which stands at the given
position. -/
def Engine.advance (directory : Directory σ) (engine : Engine σ) (r : Ref) :
    Nat → List (Link σ) → Run σ Outcome
  | _, [] => fun w =>
    let i := w.invocation r
    Run.andThen (Run.report (.invokingTarget i.call i.method))
      (fun () => Target.run directory engine i.target (some r) i.this i.method i.arguments) w
  | position, .plain interceptor :: _ => do
    Run.step r
    Run.report (.entering (← Run.read r .call) position)
    Run.enter r position
    interceptor.behaviour.run directory engine r
  | position, .dynamic interceptor accepts :: rest => do
    Run.step r
    let targetClass ← Run.read r .targetClass
    let arguments ← Run.read r .arguments
    Run.record (.occurrence (.matching r position targetClass arguments))
    if ← Run.consult (accepts (← Run.read r .method) targetClass arguments) then
      Run.report (.enteringDynamic (← Run.read r .call) position)
      Run.enter r position
      interceptor.behaviour.run directory engine r
    else
      Run.report (.skipping (← Run.read r .call) position)
      Run.record (.occurrence (.skipped r position))
      engine.advance directory r (position + 1) rest

/-- Advances an invocation: enters the next link that lets the call in, or runs the target. -/
def Engine.proceed (directory : Directory σ) (engine : Engine σ) (r : Ref) : Run σ Outcome :=
  Run.andThen (Run.record (.occurrence (.proceeding r))) fun () w =>
    let i := w.invocation r
    engine.advance directory r i.entered i.ahead w

/-- Calls through a proxy. A call to which no advice applies reaches the target at once. -/
def Engine.call (directory : Directory σ) (engine : Engine σ) (proxy : Proxy σ) (request : Request)
    (target : Target σ) : Run σ Outcome :=
  Run.inquire (proxy.chainFor request.method request.targetClass) fun
    | .error e => Run.finish (.error (.advisor e))
    | .ok chain =>
      if chain.isEmpty then
        Target.run directory engine target none request.this request.method request.arguments
      else fun w =>
        let (r, w) := w.start request chain target
        engine (.proceed r) w

/-- The engine for calls nested at most so deep. -/
def Engine.ofDepth (directory : Directory σ) : Nat → Engine σ
  | 0, _ => fun w => (.outOfDepth, w)
  | depth + 1, .proceed r => Engine.proceed directory (Engine.ofDepth directory depth) r
  | depth + 1, .call proxy request target =>
    Engine.call directory (Engine.ofDepth directory depth) proxy request target

end Interception
