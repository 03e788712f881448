import Interception.Proofs.Effects

/-! Accounts: runs that are told with their courses, everything that is done to cursors in them, in order,
each with the world that it leaves. An invocation that is told to advance first walks over links by
itself, until it has arrived at an interceptor or at the target; only then other code is run, up to
where the advance ends. Accounts are made for every form of program, and tell the same runs as the
programs. -/

namespace Interception

universe u

variable {σ α β : Type}

/-- A link to which an advancing invocation comes: its position, the arguments of the moment, and what
its argument predicate came to, where it has one. -/
structure Visit where
  position : Nat
  arguments : List Value
  verdict : Option (Except Panic Bool)

/-- Where an advance arrives. -/
inductive Arrival where
  /-- An interceptor is run; `current` is the position that the invocation tells of itself. -/
  | entered (position : Nat) (current : Option Nat)
  /-- The target is run. -/
  | reached
  /-- An argument predicate unwinds, and nothing is run. -/
  | unwound (panic : Panic)

/-- One advance: the links visited on the way, and where it arrived. -/
structure Advance where
  visits : List Visit
  arrival : Arrival

/-- What is run where an advance arrives. -/
inductive Stop (σ : Type) where
  | entered (position : Nat) (current : Option Nat) (behaviour : Behaviour σ)
  | reached
  | unwound (panic : Panic)

def Stop.arrival : Stop σ → Arrival
  | entered position current _ => .entered position current
  | reached => .reached
  | unwound panic => .unwound panic

namespace World

def stepOver (w : World σ) (r : Ref) : World σ := w.update r fun i => { i with entered := i.entered + 1 }

/-- What a consultation comes to, and the world that it leaves. -/
def consult {α : Type u} (w : World σ) (q : Inquiry σ α) : Except Panic α × World σ :=
  let reply := q w.state
  (reply.result, { w with state := reply.state }.record reply.written)

def ask (w : World σ) (r : Ref) (position : Nat) (accepts : ArgumentPredicate σ) :
    Except Panic Bool × World σ :=
  let i := w.invocation r
  (w.record [.occurrence (.matching r position i.targetClass i.arguments)]).consult
    (Inquiry.consult (accepts i.method i.targetClass i.arguments))

def enter (w : World σ) (r : Ref) (position : Nat) (event : Event) : World σ :=
  let i := w.invocation r
  (w.record [.event event]).record
    [.occurrence (.entered r position i.position i.arguments w.thread w.bindings)]

def skip (w : World σ) (r : Ref) (position : Nat) : World σ :=
  (w.record [.event (.skipping (w.invocation r).call position)]).record
    [.occurrence (.skipped r position)]

def reach (w : World σ) (r : Ref) : World σ :=
  let i := w.invocation r
  (w.record [.event (.invokingTarget i.call i.method)]).record
    [.occurrence (.reached (some r) i.this i.method i.arguments w.thread w.bindings)]

/-- An invocation comes to a link: it is let into the interceptor, or passes over the link, or the
argument predicate unwinds. -/
def visit (w : World σ) (r : Ref) (position : Nat) : Link σ → Visit × Option (Stop σ) × World σ
  | .plain interceptor =>
    let w := w.stepOver r
    let i := w.invocation r
    (⟨position, i.arguments, none⟩, some (.entered position i.position interceptor.behaviour),
      w.enter r position (.entering i.call position))
  | .dynamic interceptor accepts =>
    let w := w.stepOver r
    let arguments := (w.invocation r).arguments
    let (verdict, w) := w.ask r position accepts
    let i := w.invocation r
    (⟨position, arguments, some verdict⟩,
      match verdict with
      | .ok true => (some (.entered position i.position interceptor.behaviour),
        w.enter r position (.enteringDynamic i.call position))
      | .ok false => (none, w.skip r position)
      | .error panic => (some (.unwound panic), w))

/-- An invocation walks over the links, the first of which stands at the position, until it is let into
one or a predicate unwinds. -/
def through (r : Ref) : Nat → List (Link σ) → World σ → List Visit × Option (Stop σ) × World σ
  | _, [], w => ([], none, w)
  | position, link :: rest, w =>
    match w.visit r position link with
    | (visit, some stop, w) => ([visit], some stop, w)
    | (visit, none, w) =>
      let (visits, stop, w) := through r (position + 1) rest w
      (visit :: visits, stop, w)

/-- An invocation advances by itself, up to where other code is run. -/
def advance (w : World σ) (r : Ref) : List Visit × Stop σ × World σ :=
  let w := w.record [.occurrence (.proceeding r)]
  let i := w.invocation r
  match w.through r i.entered i.ahead with
  | (visits, some stop, w) => (visits, stop, w)
  | (visits, none, w) => (visits, .reached, w.reach r)

/-- What comes of a walk: the target is run if no link has let the call in. -/
def arrive (r : Ref) : List Visit × Option (Stop σ) × World σ → List Visit × Stop σ × World σ
  | (visits, some stop, w) => (visits, stop, w)
  | (visits, none, w) => (visits, .reached, w.reach r)

theorem advance_eq (w : World σ) (r : Ref) :
    w.advance r = arrive r ((w.record [.occurrence (.proceeding r)]).through r
      (w.invocation r).entered (w.invocation r).ahead) := rfl

end World

def Stop.run (directory : Directory σ) (engine : Engine σ) (r : Ref) : Stop σ → Run σ Outcome
  | .entered _ _ behaviour => behaviour.run directory engine r
  | .reached => fun w =>
    let i := w.invocation r
    Run.andThen ((i.target i.this i.method i.arguments).run directory engine)
      (fun result => Run.finish (result.mapError .target)) w
  | .unwound panic => fun w => (.unwinding panic, w)

section Advance

variable (directory : Directory σ) (engine : Engine σ) (r : Ref)

theorem Run.inquire_eq {α : Type u} (q : Inquiry σ α) (k : α → Run σ β) (w : World σ) :
    Run.inquire q k w =
      match w.consult q with
      | (.ok a, w) => k a w
      | (.error panic, w) => (.unwinding panic, w) := by
  simp only [Run.inquire, World.consult]
  cases (q w.state).result <;> rfl

theorem Run.consult_bind (q : Query σ α) (k : α → Run σ β) (w : World σ) :
    (Run.consult q >>= k) w =
      match w.consult (Inquiry.consult q) with
      | (.ok a, w) => k a w
      | (.error panic, w) => (.unwinding panic, w) := by
  change Run.andThen (Run.inquire (Inquiry.consult q) Run.finish) k w = _
  rw [Run.andThen, Run.inquire_eq]
  rcases w.consult (Inquiry.consult q) with ⟨_ | _, _⟩ <;> rfl

theorem Engine.advance_dynamic (position : Nat) (interceptor : Interceptor σ)
    (accepts : ArgumentPredicate σ) (rest : List (Link σ)) (w : World σ) :
    engine.advance directory r position (.dynamic interceptor accepts :: rest) w =
      match (w.stepOver r).ask r position accepts with
      | (.ok true, v) => interceptor.behaviour.run directory engine r
          (v.enter r position (.enteringDynamic (v.invocation r).call position))
      | (.ok false, v) => engine.advance directory r (position + 1) rest (v.skip r position)
      | (.error panic, v) => (.unwinding panic, v) := by
  let i := (w.stepOver r).invocation r
  let v := (w.stepOver r).record [.occurrence (.matching r position i.targetClass i.arguments)]
  change (Run.consult (accepts i.method i.targetClass i.arguments) >>= fun admitted =>
    if admitted then
      (do
        Run.report (.enteringDynamic (← Run.read r .call) position)
        Run.enter r position
        interceptor.behaviour.run directory engine r)
    else do
      Run.report (.skipping (← Run.read r .call) position)
      Run.record (.occurrence (.skipped r position))
      engine.advance directory r (position + 1) rest) v = _
  have hask : (w.stepOver r).ask r position accepts =
    v.consult (Inquiry.consult (accepts i.method i.targetClass i.arguments)) := rfl
  rw [Run.consult_bind, hask]
  rcases v.consult (Inquiry.consult (accepts i.method i.targetClass i.arguments)) with
    ⟨panic | _ | _, v⟩ <;> rfl

/-- Advancing over links is the walk over them, and then a run of what it arrives at. -/
theorem Engine.advance_eq (links : List (Link σ)) : ∀ (position : Nat) (w : World σ),
    engine.advance directory r position links w =
      match w.through r position links with
      | (_, some stop, w) => stop.run directory engine r w
      | (_, none, w) => Stop.reached.run directory engine r (w.reach r) := by
  induction links with
  | nil => exact fun _ _ => rfl
  | cons link rest ih =>
    intro position w
    cases link with
    | plain interceptor => rfl
    | dynamic interceptor accepts =>
      rw [Engine.advance_dynamic, World.through, World.visit]
      rcases (w.stepOver r).ask r position accepts with ⟨(panic | _ | _), v⟩
      · rfl
      · dsimp only
        rw [ih]
        rcases World.through r (position + 1) rest (v.skip r position) with ⟨visits, _ | stop, v'⟩ <;> rfl
      · rfl

theorem Engine.proceed_eq (w : World σ) :
    engine.proceed directory r w =
      (w.advance r).2.1.run directory engine r (w.advance r).2.2 := by
  change engine.advance directory r _ _ (w.record [.occurrence (.proceeding r)]) = _
  rw [Engine.advance_eq, World.advance]
  rcases (w.record [.occurrence (.proceeding r)]).through r _ _ with ⟨visits, (_ | stop), v⟩
  · rfl
  · rfl

end Advance

/-! ### Accounts -/

/-- What is done to a cursor at one moment of a run. -/
inductive Move where
  /-- An invocation is told to advance, and arrives. -/
  | advanced (invocation : Ref) (advance : Advance)
  /-- What an invocation arrived at has come to its end, and so has the advance. -/
  | ended (invocation : Ref)
  | forked (original copy : Ref)
  /-- A call through a proxy starts an invocation. -/
  | started (invocation : Ref)
  /-- Something is done that concerns no cursor. -/
  | other

/-- What is done at one moment, and the world as it is then. -/
abbrev Moment (σ : Type) := Move × World σ

abbrev Course (σ : Type) := List (Moment σ)

/-- A run, told with its course. -/
def Account (σ : Type) (α : Type) : Type 1 := World σ → (Ending α × World σ) × Course σ

namespace Account

def run (p : Account σ α) : Run σ α := fun w => (p w).1

def course (p : Account σ α) (w : World σ) : Course σ := (p w).2

def finish (a : α) : Account σ α := fun w => (Run.finish a w, [])

def andThen (p : Account σ α) (k : α → Account σ β) : Account σ β := fun w =>
  match p w with
  | ((.finished a, w), course) => ((k a w).1, course ++ (k a w).2)
  | ((.unwinding panic, w), course) => ((.unwinding panic, w), course)
  | ((.outOfDepth, w), course) => ((.outOfDepth, w), course)

instance : Monad (Account σ) where
  pure := finish
  bind := andThen

/-- A run that concerns no cursor. -/
def aside (p : Run σ α) : Account σ α := fun w => (p w, [(.other, (p w).2)])

/-- Looks at an invocation and goes on. -/
def look (r : Ref) (k : Invocation σ → Account σ α) : Account σ α := fun w => k (w.invocation r) w

/-- Consults a predicate and uses the answer. -/
def inquire {α : Type u} (q : Inquiry σ α) (k : α → Account σ β) : Account σ β := fun w =>
  let (result, w) := w.consult q
  match result with
  | .ok a => ((k a w).1, (.other, w) :: (k a w).2)
  | .error panic => ((.unwinding panic, w), [(.other, w)])

/-- Runs the body in the first world, and then puts the world in order again. -/
def within (enter : World σ → World σ) (body : Account σ α)
    (leave : World σ → Ending α × World σ → World σ) : Account σ α := fun w =>
  let inside := body (enter w)
  let left := leave w inside.1
  ((inside.1.1, left), (.other, enter w) :: inside.2 ++ [(.other, left)])

end Account

namespace World

def descend (w : World σ) : World σ := { w with bindings := .empty, waiting := w.bindings :: w.waiting }

def ascend (w : World σ) : World σ :=
  { w with bindings := w.waiting.headD .empty, waiting := w.waiting.tail }

end World

namespace Account

def catching (body : Account σ α) : Account σ (Except Panic α) := fun w =>
  (Run.catching body.run w, body.course w)

def withBinding (point : JoinPoint) (body : Account σ α) : Account σ α :=
  within (fun w => (w.bind none point).2) body fun w ended => ended.2.release ⟨w.bindings.depth⟩

def onThread (body : Account σ α) : Account σ α :=
  within World.descend body fun _ ended => ended.2.ascend

def forking (r : Ref) : Account σ Ref := fun w =>
  let (copy, w) := w.push (w.invocation r)
  ((.finished copy, w), [(.forked r copy, w)])

def starting (request : Request) (chain : Chain σ) (target : Target σ) (k : Ref → Account σ α) :
    Account σ α := fun w =>
  let (r, w) := w.start request chain target
  ((k r w).1, (.started r, w) :: (k r w).2)

def publishing (r : Ref) (body : Account σ α) : Account σ α :=
  within (·.publish r) body (World.withdraw · r)

end Account

/-- What the links of a chain and the programs of callbacks ask for, told with its course. -/
abbrev Engine.Accounts (σ : Type) := Activation σ → Account σ Outcome

section Accounts

variable (directory : Directory σ) (told : Engine.Accounts σ)

/-- Of all operations only a fork concerns a cursor. -/
def Operation.account : {α : Type} → Operation α → Account σ α
  | _, .fork r => .forking r
  | _, op => .aside fun w => (.finished (w.apply op).1, (w.apply op).2)

def Program.account : {α : Type} → Program σ α → Account σ α
  | _, .done a => .finish a
  | _, .andThen first next => .andThen (first.account) fun a => (next a).account
  | _, .consult q => .aside (Run.consult q)
  | _, .perform op => op.account
  | _, .proceed r => told (.proceed r)
  | _, .expose r => .publishing r (told (.proceed r))
  | _, .invoke name request target =>
    match directory name with
    | none => .finish none
    | some proxy => .andThen (told (.call proxy request target)) fun outcome => .finish (some outcome)
  | _, .withBinding point body => .withBinding point body.account
  | _, .catching body => .catching body.account
  | _, .onThread body => .onThread body.account

def Target.account (target : Target σ) (this : Value) (method : Method) (arguments : List Value) :
    Account σ Outcome := do
  let result ← (target this method arguments).account directory told
  pure (result.mapError .target)

/-- Runs the target for a call that needs no invocation. -/
def Target.accountAtOnce (target : Target σ) (this : Value) (method : Method)
    (arguments : List Value) : Account σ Outcome := do
  .aside do
    Run.record (.occurrence (.reached none this method arguments (← Run.thread) (← Run.bound)))
  target.account directory told this method arguments

def Behaviour.account (r : Ref) : Behaviour σ → Account σ Outcome
  | .around body => (body r).account directory told
  | .before advice => do
    let result ← .look r fun i => (advice i.method i.arguments i.this).account directory told
    match result with
    | .error failure => pure (.error failure)
    | .ok () => told (.proceed r)
  | .afterReturning advice => do
    match ← told (.proceed r) with
    | .error failure => pure (.error failure)
    | .ok returned =>
      let result ← .look r fun i =>
        (advice returned i.method i.arguments i.this).account directory told
      pure (result.map fun () => returned)
  | .afterThrowing advice => do
    match ← told (.proceed r) with
    | .ok returned => pure (.ok returned)
    | .error failure =>
      if ← .aside (Run.consult (advice.handles failure)) then
        .look r fun i => .aside (Run.report (.handlingFailure i.call failure))
        let result ← (advice.afterThrowing r failure).account directory told
        pure (result.bind fun () => .error failure)
      else pure (.error failure)
  | .instrumented label => do
    let outcome ← told (.proceed r)
    .look r fun i => .aside (Run.report (match outcome with
      | .ok _ => .completed i.call i.method label
      | .error failure => .failed i.call i.method label failure))
    pure outcome
  | .exposing => .publishing r (told (.proceed r))

def Stop.account (r : Ref) : Stop σ → Account σ Outcome
  | .entered _ _ behaviour => behaviour.account directory told r
  | .reached => .look r fun i => i.target.account directory told i.this i.method i.arguments
  | .unwound panic => fun w => ((.unwinding panic, w), [])

/-- An advance: what the invocation does by itself is one moment, and then follows what it arrived
at. -/
def Account.proceed (r : Ref) : Account σ Outcome := fun w =>
  let (visits, stop, w) := w.advance r
  let inside := stop.account directory told r w
  (inside.1, (.advanced r ⟨visits, stop.arrival⟩, w) :: inside.2 ++ [(.ended r, inside.1.2)])

def Account.call (proxy : Proxy σ) (request : Request) (target : Target σ) : Account σ Outcome :=
  .inquire (proxy.chainFor request.method request.targetClass) fun
    | .error e => .finish (.error (.advisor e))
    | .ok chain =>
      if chain.isEmpty then
        target.accountAtOnce directory told request.this request.method request.arguments
      else .starting request chain target fun r => told (.proceed r)

end Accounts

/-- The engine for calls nested at most so deep, told with its course. -/
def Engine.accounts (directory : Directory σ) : Nat → Engine.Accounts σ
  | 0, _ => fun w => ((.outOfDepth, w), [])
  | depth + 1, .proceed r => Account.proceed directory (Engine.accounts directory depth) r
  | depth + 1, .call proxy request target =>
    Account.call directory (Engine.accounts directory depth) proxy request target

/-! ### Accounts tell the runs -/

theorem Run.andThen_congr {p p' : Run σ α} {k k' : α → Run σ β} {w : World σ} (hp : p w = p' w)
    (hk : ∀ a, k a = k' a) : p.andThen k w = p'.andThen k' w := by
  simp only [Run.andThen, hp, hk]

namespace Account

theorem run_andThen (p : Account σ α) (k : α → Account σ β) :
    (p.andThen k).run = p.run.andThen fun a => (k a).run := by
  funext w
  simp only [run, andThen, Run.andThen]
  rcases p w with ⟨⟨_ | _ | _, _⟩, _⟩ <;> rfl

theorem run_inquire {γ : Type u} (q : Inquiry σ γ) (k : γ → Account σ β) :
    (inquire q k).run = Run.inquire q fun a => (k a).run := by
  funext w
  rw [Run.inquire_eq]
  simp only [run, inquire]
  rcases w.consult q with ⟨_ | _, _⟩ <;> rfl

theorem run_publishing {told : Engine.Accounts σ} {engine : Engine σ} (r : Ref)
    (h : (told (.proceed r)).run = engine (.proceed r)) :
    (publishing r (told (.proceed r))).run = engine.expose r := by
  funext w
  rw [Engine.expose_eq, ← h]
  rfl

end Account

section Accounts

variable {directory : Directory σ} {told : Engine.Accounts σ} {engine : Engine σ}

theorem Program.run_account (h : ∀ a, (told a).run = engine a) (p : Program σ α) :
    (p.account directory told).run = p.run directory engine := by
  induction p with
  | done a => rfl
  | andThen first next ihfirst ihnext =>
    rw [account, Account.run_andThen, ihfirst, run]
    exact congrArg _ (funext ihnext)
  | consult q => rfl
  | perform op => cases op <;> rfl
  | proceed r => exact h (.proceed r)
  | expose r => exact Account.run_publishing r (h (.proceed r))
  | invoke name request target =>
    rw [account, run]
    cases directory name with
    | none => rfl
    | some proxy =>
      rw [Account.run_andThen, h]
      rfl
  | withBinding point body ih =>
    rw [account, run, ← ih]
    rfl
  | catching body ih =>
    rw [account, run, ← ih]
    rfl
  | onThread body ih =>
    rw [account, run, ← ih]
    rfl

theorem Target.run_account (h : ∀ a, (told a).run = engine a) (target : Target σ) (this : Value)
    (method : Method) (arguments : List Value) :
    (target.account directory told this method arguments).run =
      Run.andThen ((target this method arguments).run directory engine)
        fun result => Run.finish (result.mapError .target) := by
  rw [← Program.run_account h]
  exact Account.run_andThen _ _

theorem Behaviour.run_account (h : ∀ a, (told a).run = engine a) (r : Ref) (b : Behaviour σ) :
    (b.account directory told r).run = b.run directory engine r := by
  have hprogram : ∀ {γ : Type} (p : Program σ γ) (w : World σ),
      (p.account directory told).run w = p.run directory engine w :=
    fun p w => congrFun (Program.run_account h p) w
  have hproceed : (told (.proceed r)).run = engine (.proceed r) := h _
  cases b with
  | around body => exact Program.run_account h (body r)
  | before advice =>
    refine (Account.run_andThen _ _).trans (funext fun w => Run.andThen_congr (hprogram _ w) ?_)
    intro result
    cases result with
    | error failure => rfl
    | ok _ => exact hproceed
  | afterReturning advice =>
    refine (Account.run_andThen _ _).trans ?_
    rw [hproceed]
    refine funext fun w => Run.andThen_congr rfl fun outcome => ?_
    cases outcome with
    | error failure => rfl
    | ok returned =>
      exact (Account.run_andThen _ _).trans
        (funext fun w => Run.andThen_congr (hprogram _ w) fun _ => rfl)
  | afterThrowing advice =>
    refine (Account.run_andThen _ _).trans ?_
    rw [hproceed]
    refine funext fun w => Run.andThen_congr rfl fun outcome => ?_
    cases outcome with
    | ok returned => rfl
    | error failure =>
      refine (Account.run_andThen _ _).trans (funext fun w => Run.andThen_congr rfl fun handled => ?_)
      cases handled with
      | false => rfl
      | true =>
        rw [if_pos rfl, if_pos rfl]
        refine (Account.run_andThen _ _).trans (funext fun w => ?_)
        have hrest : (Account.andThen ((advice.afterThrowing r failure).account directory told)
            fun result => (Account.finish (result.bind fun () => .error failure) :
              Account σ Outcome)).run =
          Run.andThen ((advice.afterThrowing r failure).run directory engine)
            fun result => (Run.finish (result.bind fun () => .error failure) : Run σ Outcome) :=
          (Account.run_andThen _ _).trans (funext fun w => Run.andThen_congr (hprogram _ w) fun _ => rfl)
        exact congrFun hrest (w.record [.event (.handlingFailure (w.invocation r).call failure)])
  | instrumented label =>
    refine (Account.run_andThen _ _).trans ?_
    rw [hproceed]
    refine funext fun w => Run.andThen_congr rfl fun outcome => ?_
    cases outcome <;> rfl
  | exposing => exact Account.run_publishing r hproceed

theorem Stop.run_account (h : ∀ a, (told a).run = engine a) (r : Ref) (stop : Stop σ) :
    (stop.account directory told r).run = stop.run directory engine r := by
  cases stop with
  | entered position current behaviour => exact behaviour.run_account h r
  | reached => exact funext fun w => congrFun (Target.run_account h _ _ _ _) w
  | unwound panic => rfl

theorem Account.run_proceed (h : ∀ a, (told a).run = engine a) (r : Ref) :
    (Account.proceed directory told r).run = engine.proceed directory r := by
  funext w
  rw [Engine.proceed_eq, ← Stop.run_account h]
  rfl

theorem Account.run_call (h : ∀ a, (told a).run = engine a) (proxy : Proxy σ) (request : Request)
    (target : Target σ) :
    (Account.call directory told proxy request target).run =
      engine.call directory proxy request target := by
  refine (Account.run_inquire _ _).trans (congrArg _ (funext fun resolved => ?_))
  cases resolved with
  | error e => rfl
  | ok chain =>
    have hatOnce : (target.accountAtOnce directory told request.this request.method
        request.arguments).run =
        target.run directory engine none request.this request.method request.arguments := by
      refine (Account.run_andThen _ _).trans (funext fun w => ?_)
      rw [Target.run_account h]
      rfl
    have hstarting : (starting request chain target fun r => told (.proceed r)).run = fun w =>
        engine (.proceed (w.start request chain target).1) (w.start request chain target).2 := by
      funext w
      rw [← h]
      rfl
    exact (apply_ite run _ _ _).trans (ite_congr rfl (fun _ => hatOnce) fun _ => hstarting)

/-- **Accounts tell the runs.** -/
theorem Engine.run_accounts (directory : Directory σ) (depth : Nat) (a : Activation σ) :
    (Engine.accounts directory depth a).run = Engine.ofDepth directory depth a := by
  induction depth generalizing a with
  | zero => cases a <;> rfl
  | succ depth ih =>
    cases a with
    | proceed r => exact Account.run_proceed ih r
    | call proxy request target => exact Account.run_call ih proxy request target

end Accounts

end Interception
