import Interception.Script.Memory
import Interception.Script.Forms

/-! What scripts do. A script runs in a frame: on an invocation, which it may only look at or also
advance and change, or on bare arguments. Steps follow one another until one of them leaves the script. -/

namespace Interception.Script

/-- Where a script runs. -/
inductive Subject where
  /-- Without an invocation, on the arguments that the callback was given. -/
  | arguments (arguments : List Value)
  /-- With an invocation that can be looked at and copied. -/
  | viewing (invocation : Ref)
  /-- With an invocation that can be advanced and changed. -/
  | driving (invocation : Ref)

namespace Subject

def invocation? : Subject → Option Ref
  | arguments _ => none
  | viewing r | driving r => some r

def driven? : Subject → Option Ref
  | driving r => some r
  | _ => none

end Subject

/-- A script that is running: its subject and its register. -/
structure Frame where
  subject : Subject
  register : Register

/-- How a script was left before its end. -/
inductive Exit where
  | returned (value : Value)
  | failed (failure : Failure)
  | raised (cause : Cause)

/-- What a step leads to: the next step, or out of the script. -/
abbrev Flow := Except Exit Unit

def goOn : Action Flow := pure (.ok ())

def thenGoOn (p : Action Unit) : Action Flow := do
  p
  goOn

/-- Runs the second action unless the first left the script. -/
def followedBy (first next : Action Flow) : Action Flow := do
  match ← first with
  | .ok () => next
  | left => pure left

def repeated (body : Action Flow) : Nat → Action Flow
  | 0 => goOn
  | n + 1 => followedBy body (repeated body n)

/-- Runs the body up to the given number of times, until the register holds no failure. -/
def repeatedUntilOk (register : Register) (body : Action Flow) : Nat → Action Flow
  | 0 => goOn
  | n + 1 => followedBy body do
    match ← register.read with
    | .ok _ => goOn
    | .error _ => repeatedUntilOk register body n

/-- A join point as scripts note it, with whether it pictures the invocation at hand. -/
def describeJoinPoint (subject : Subject) (point : JoinPoint) : Action String := do
  let same ← match subject.invocation? with
    | none => pure "-"
    | some r => pure (Description.truth ((← Program.read r .call) = point.call))
  pure (point.method.signature ++ " class=" ++ point.targetClass.name ++
    " args=" ++ Value.describeAll point.arguments ++ " this=" ++ point.this.describe ++
    " same_id=" ++ same)

def noteJoinPoint (subject : Subject) (point : JoinPoint) : Action Unit := do
  Program.note ("jp " ++ (← describeJoinPoint subject point))

def noteObservation (r : Ref) : Action Unit := do
  let position ← Program.read r .position
  let chain ← Program.read r .chain
  let point ← Program.read r .joinPoint
  Program.note ("at " ++ Description.optional (position.map toString) ++
    " of " ++ EntryKind.describeAll chain ++ " " ++ point.method.signature ++
    " class=" ++ point.targetClass.name ++ " args=" ++ Value.describeAll point.arguments ++
    " this=" ++ point.this.describe)

/-- An invocation, as it is described to a reader. The identity is not shown. -/
def describeInvocation (r : Ref) : Action String := do
  let position ← Program.read r .position
  let chain ← Program.read r .chain
  let point ← Program.read r .joinPoint
  pure (Description.record "MethodInvocation"
    [("id", "ID"), ("method", point.method.signature),
     ("target_class", point.targetClass.describe),
     ("arguments", Value.describeAll point.arguments),
     ("current_index", Description.optional (position.map toString)),
     ("chain_len", toString chain.length)])

def describeAttached : Option Value → String
  | some value => value.describe
  | none => "none"

/-- What a script answers with, once it has ended: what it was left with, else its last result. -/
inductive Answer where
  | returned (value : Value)
  | failed (failure : Failure)
  | raised (cause : Cause)

/-- The answer of advice. A cause that was raised is a failure of the advice. -/
def Answer.ofAdvice : Answer → Outcome
  | returned value => .ok value
  | failed failure => .error failure
  | raised cause => .error (.advice cause)

/-- The answer of a target. A failure is the cause of the failure of the call. -/
def Answer.ofTarget : Answer → Except Cause Value
  | returned value => .ok value
  | failed failure => .error (.failure failure)
  | raised cause => .error cause

/-- Runs a script from its start, on a register of its own. -/
def started (subject : Subject) (first : Outcome) (body : Frame → Action Flow) : Action Answer := do
  let register ← Register.allocate first
  match ← body { subject, register } with
  | .error (.returned value) => pure (.returned value)
  | .error (.failed failure) => pure (.failed failure)
  | .error (.raised cause) => pure (.raised cause)
  | .ok () =>
    match ← register.read with
    | .ok value => pure (.returned value)
    | .error failure => pure (.failed failure)

/-- Runs a script on an invocation, as advice. -/
def nested (r : Ref) (body : Frame → Action Flow) : Action Outcome := do
  pure (← started (.driving r) (.ok .unit) body).ofAdvice

def driving (frame : Frame) (p : Ref → Action Unit) : Action Flow :=
  match frame.subject.driven? with
  | some r => thenGoOn (p r)
  | none => goOn

def viewing (frame : Frame) (p : Ref → Action Unit) : Action Flow :=
  match frame.subject.invocation? with
  | some r => thenGoOn (p r)
  | none => goOn

/-- The argument at an index: of the invocation, if there is one. -/
def argumentAt (subject : Subject) (index : Nat) : Action Value := do
  let arguments ← match subject with
    | .arguments given => pure given
    | .viewing r | .driving r => Program.read r .arguments
  pure (arguments.getD index .unit)

/-- Runs the body on a thread of its own. The guards of a thread end with it. -/
def onOwnThread (body : Action Flow) : Action Flow := do
  let guards := (← Program.get).guards
  let ended ← Program.catching (Program.onThread do
    Program.modify fun m => { m with guards := {} }
    body)
  Program.modify fun m => { m with guards }
  match ended with
  | .ok flow => pure flow
  | .error panic => Program.panic panic.message

/-- Takes what is kept under a name, runs the body on it, and puts it back unless the body unwinds. -/
def withKept (register : Register) (name : String) (body : Frame → Action Flow) : Action Unit := do
  match (← Program.get).kept.find? name with
  | none => Program.note "no stash"
  | some r =>
    Program.modify fun m => { m with kept := m.kept.erase name }
    let outcome ← nested r body
    Program.modify fun m => { m with kept := m.kept.insert name r }
    register.write outcome

def releaseHeld (name : String) : Action Unit := do
  match (← Program.get).guards.find? name with
  | none => Program.note "drop false"
  | some guard =>
    Program.modify fun m => { m with guards := m.guards.erase name }
    Program.perform (.release guard)
    Program.note "drop true"

/-- Binds the join point of an invocation and holds the guard under a name. A guard that was held under
the name is released after that. -/
def bindHeld (r : Ref) (name : String) : Action Unit := do
  let guard ← Program.perform (.bind (← Program.read r .joinPoint))
  let displaced := (← Program.get).guards.find? name
  Program.modify fun m => { m with guards := m.guards.insert name guard }
  match displaced with
  | some old => Program.perform (.release old)
  | none => pure ()
  Program.note ("bound at " ++ toString guard.slot)

mutual

/-- What one step does. Steps that need an invocation are passed over without one. -/
def Step.run (frame : Frame) : Step → Action Flow
  | .log text => thenGoOn (Program.note text)
  | .proceed =>
    match frame.subject.driven? with
    | none => goOn
    | some r => do
      match ← Program.proceed r with
      | .ok value => thenGoOn (frame.register.write (.ok value))
      | .error failure => pure (.error (.failed failure))
  | .attempt => driving frame fun r => do frame.register.write (← Program.proceed r)
  | .expose => driving frame fun r => do frame.register.write (← Program.expose r)
  | .fork steps => viewing frame fun r => do
    let copy ← Program.fork r
    frame.register.write (← nested copy fun inner => runAll inner steps)
  | .forkWith arguments steps => viewing frame fun r => do
    let copy ← Program.forkWith r arguments
    frame.register.write (← nested copy fun inner => runAll inner steps)
  | .setArguments arguments => driving frame fun r => Program.perform (.setArguments r arguments)
  | .attach key value => driving frame fun r => do
    let old ← Program.perform (.setAttribute r key value)
    Program.note ("set " ++ key ++ " was " ++ describeAttached old)
  | .attached key => viewing frame fun r => do
    Program.note ("attr " ++ key ++ " is " ++ describeAttached (← Program.read r (.attached key)))
  | .observe => viewing frame noteObservation
  | .describe => viewing frame fun r => do Program.note (← describeInvocation r)
  | .joinPoint => do
    match ← Program.perform .currentJoinPoint with
    | .ok point => thenGoOn (noteJoinPoint frame.subject point)
    | .error failure => thenGoOn (Program.note ("jp error " ++ failure.message))
  | .needJoinPoint => do
    match ← Program.perform .currentJoinPoint with
    | .ok point => thenGoOn (noteJoinPoint frame.subject point)
    | .error failure => pure (.error (.failed failure))
  | .depth => do
    let depth ← Program.perform .bindingDepth
    thenGoOn (Program.note ("depth " ++ toString depth))
  | .bind steps =>
    match frame.subject.invocation? with
    | none => runAll frame steps
    | some r => do
      let point ← Program.read r .joinPoint
      Program.withBinding point (runAll frame steps)
  | .bindAs guard => viewing frame fun r => bindHeld r guard
  | .release guard => thenGoOn (releaseHeld guard)
  | .keepJoinPoint name => viewing frame fun r => do
    let point ← Program.read r .joinPoint
    Program.modify fun m => { m with joinPoints := m.joinPoints.insert name point }
  | .showJoinPoint name => do
    match (← Program.get).joinPoints.find? name with
    | none => thenGoOn (Program.note "no snap")
    | some point => thenGoOn (do Program.note ("snap " ++ (← describeJoinPoint frame.subject point)))
  | .return value => pure (.error (.returned value))
  | .propagate => do
    match ← frame.register.read with
    | .ok _ => goOn
    | .error failure => pure (.error (.failed failure))
  | .fail failure => pure (.error (.failed failure))
  | .raise cause => pure (.error (.raised cause))
  | .result value => thenGoOn (frame.register.write (.ok value))
  | .argument index => thenGoOn (do
    frame.register.write (.ok (← argumentAt frame.subject index)))
  | .wrap label => do
    match ← frame.register.read with
    | .ok value => thenGoOn (frame.register.write (.ok (.text (label ++ "[" ++ value.describe ++ "]"))))
    | .error _ => goOn
  | .recover value => do
    match ← frame.register.read with
    | .ok _ => goOn
    | .error _ => thenGoOn (frame.register.write (.ok value))
  | .exchange failure => do
    match ← frame.register.read with
    | .ok _ => goOn
    | .error _ => thenGoOn (frame.register.write (.error failure))
  | .logLast => do
    match ← frame.register.read with
    | .ok value => thenGoOn (Program.note ("last ok " ++ value.describe))
    | .error failure => thenGoOn (Program.note ("last err " ++ failure.message))
  | .repeat times steps => repeated (runAll frame steps) times
  | .untilOk times steps => repeatedUntilOk frame.register (runAll frame steps) times
  | .panic message => Program.panic message
  | .catch steps => do
    match ← Program.catching (runAll frame steps) with
    | .ok flow => pure flow
    | .error panic => thenGoOn (Program.note ("caught " ++ panic.message))
  | .thread steps => onOwnThread (runAll frame steps)
  | .invoke proxy request target => do
    let counter ← Counter.allocate
    match ← Program.invoke proxy request (target.target counter) with
    | none => do
      Program.note "no proxy"
      thenGoOn (frame.register.write (.ok .unit))
    | some outcome => thenGoOn (frame.register.write outcome)
  | .keep name => viewing frame fun r => do
    let copy ← Program.fork r
    Program.modify fun m => { m with kept := m.kept.insert name copy }
  | .withKept name steps => thenGoOn (withKept frame.register name fun inner => runAll inner steps)

def runAll (frame : Frame) : List Step → Action Flow
  | [] => goOn
  | step :: rest => followedBy (step.run frame) (runAll frame rest)

/-- Runs the script for the given run of a target, the last one once the scripts are used up. -/
def runNth (frame : Frame) : Nat → List (List Step) → Action Flow
  | _, [] => goOn
  | 0, script :: _ => runAll frame script
  | _ + 1, [script] => runAll frame script
  | n + 1, _ :: rest => runNth frame n rest

/-- The target that a form stands for. Each one that is made counts its own runs. -/
def TargetForm.target (counter : Counter) : TargetForm → Target Memory
  | .echo => fun _ _ arguments => do
    Program.note "target"
    pure (.ok (arguments.headD .unit))
  | .returning text => fun _ _ _ => do
    Program.note "target"
    pure (.ok (.literal text))
  | .failing message => fun _ _ _ => do
    Program.note "target"
    pure (.error (.typed "Test" message))
  | .scripted scripts => fun this method arguments => do
    let n ← counter.next
    Program.note ("target #" ++ toString n ++ " " ++ method.signature ++
      " args=" ++ Value.describeAll arguments ++ " this=" ++ this.describe)
    let answer ← started (.arguments arguments) (.ok (arguments.headD .unit)) fun frame =>
      runNth frame n scripts
    pure answer.ofTarget

end

end Interception.Script
