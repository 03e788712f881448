import Interception.Proofs.Effects

/-! Advisors nested directly in one another. Each advisor that applies runs around whatever the advisors
after it and the target come to: one pass over the list, without a chain, a cursor or an invocation.
Arguments are handed inwards and, as they then are, outwards again. -/

namespace Interception

variable {σ : Type}

/-- What advice does around the inner part of a call, given the arguments of the moment. -/
inductive Conduct (σ : Type) where
  /-- Comes first; if it fails, nothing inside is run. -/
  | before (run : List Value → Query σ (Except Failure Unit))
  /-- Comes after success, and sees the arguments as they are then. -/
  | afterReturning (run : Value → List Value → Query σ (Except Failure Unit))
  /-- Comes after a failure that it handles, and may put another in its place. -/
  | afterThrowing (handles : Failure → Query σ Bool)
    (run : Failure → List Value → Query σ (Except Failure Unit))
  /-- A prologue, which may fail and may replace the arguments; unless it failed, the inner part once; and
  an epilogue, which makes a result of what that came to. -/
  | around (prologue : List Value → Query σ (Except Failure Unit × List Value))
    (epilogue : Outcome → List Value → Query σ (Outcome × List Value))

namespace Conduct

/-- The conduct with something inside. The answer tells the outcome, and the arguments as they are in the
end. -/
def wrap (inner : List Value → Query σ (Outcome × List Value)) :
    Conduct σ → List Value → Query σ (Outcome × List Value)
  | before run, arguments => do
    match ← run arguments with
    | .error failure => pure (.error failure, arguments)
    | .ok () => inner arguments
  | afterReturning run, arguments => do
    match ← inner arguments with
    | (.error failure, arguments) => pure (.error failure, arguments)
    | (.ok returned, arguments) =>
      match ← run returned arguments with
      | .error failure => pure (.error failure, arguments)
      | .ok () => pure (.ok returned, arguments)
  | afterThrowing handles run, arguments => do
    match ← inner arguments with
    | (.ok returned, arguments) => pure (.ok returned, arguments)
    | (.error failure, arguments) =>
      if ← handles failure then
        match ← run failure arguments with
        | .error other => pure (.error other, arguments)
        | .ok () => pure (.error failure, arguments)
      else pure (.error failure, arguments)
  | around prologue epilogue, arguments => do
    match ← prologue arguments with
    | (.error failure, arguments) => pure (.error failure, arguments)
    | (.ok (), arguments) =>
      let (outcome, arguments) ← inner arguments
      epilogue outcome arguments

/-- Lets the call through and its outcome back. -/
def transparent : Conduct σ :=
  around (fun arguments => pure (.ok (), arguments)) fun outcome arguments => pure (outcome, arguments)

theorem transparent_wrap (inner : List Value → Query σ (Outcome × List Value)) :
    transparent.wrap inner = inner := by
  funext arguments
  exact (Consultation.answer_andThen _ _).trans (Consultation.andThen_answer _)

end Conduct

/-- An advisor and what its advice does. -/
abbrev Layer (σ : Type) := Advisor σ × Conduct σ

namespace Nesting

/-- Whether some introduction of the list applies to the class. -/
def introduced (c : Class) : List (Advisor σ) → Query σ Bool
  | [] => pure false
  | .introduction filter _ _ :: rest => do
    if ← filter.accepts c then pure true else introduced c rest
  | _ :: rest => introduced c rest

/-- Whether a class filter accepts the class of a site, if that was not found out before. -/
def inClass (site : Site) (filter : ClassFilter σ) : Query σ Bool :=
  if site.preFiltered then pure true else filter.accepts site.targetClass

/-- Whether a method filter accepts a site; `has` is whether introductions apply. -/
def onMethod (site : Site) (has : Bool) (filter : MethodFilter σ) : Query σ Bool :=
  if filter.introductionAware then filter.acceptsKnowing has site.method site.targetClass
  else filter.accepts site.method site.targetClass

/-- Whether an advisor applies at a site, whatever the arguments. -/
def applies (site : Site) (has : Bool) : Advisor σ → Query σ Bool
  | .conditional pointcut _ => do
    if ← inClass site pointcut.classFilter then onMethod site has pointcut.methodMatcher.filter
    else pure false
  | .introduction filter _ _ => inClass site filter
  | .unfiltered _ => pure true

/-- Whether an advisor that applies lets a call with these arguments in. -/
def admits (site : Site) (arguments : List Value) : Advisor σ → Query σ Bool
  | .conditional ⟨_, .dynamic _ accepts⟩ _ => accepts site.method site.targetClass arguments
  | _ => pure true

/-- The layers, the first outermost, around the target. -/
def through (site : Site) (has : Bool) (target : List Value → Query σ Outcome) :
    List (Layer σ) → List Value → Query σ (Outcome × List Value)
  | [], arguments => do pure (← target arguments, arguments)
  | (advisor, conduct) :: inside, arguments => do
    if ← applies site has advisor then
      if ← admits site arguments advisor then conduct.wrap (through site has target inside) arguments
      else through site has target inside arguments
    else through site has target inside arguments

/-- What the target gives, as the outcome of a call. -/
def innermost (returned : List Value → Query σ (Except Cause Value)) (arguments : List Value) :
    Query σ Outcome := do
  pure ((← returned arguments).mapError .target)

/-- The outcome of a call through the layers, of which those run that apply. -/
def call (site : Site) (layers : List (Layer σ)) (returned : List Value → Query σ (Except Cause Value))
    (arguments : List Value) : Query σ Outcome := do
  let has ← introduced site.targetClass (layers.map Prod.fst)
  let (outcome, _) ← through site has (innermost returned) layers arguments
  pure outcome

theorem call_of_introduced {site : Site} {has : Bool} {layers : List (Layer σ)}
    (h : introduced site.targetClass (layers.map Prod.fst) = Consultation.answer has)
    (returned : List Value → Query σ (Except Cause Value)) (arguments : List Value) :
    call site layers returned arguments = (do
      let (outcome, _) ← through site has (innermost returned) layers arguments
      pure outcome) := by
  rw [call, h]
  exact Consultation.answer_andThen _ _

end Nesting

/-! ### The conduct of advice -/

/-- The invocation is of the request. -/
structure Invocation.IsOf (request : Request) (i : Invocation σ) : Prop where
  this : i.this = request.this
  method : i.method = request.method
  targetClass : i.targetClass = request.actualClass

/-- Around advice of the usual form: a prologue and, unless it fails, the rest of the call and an
epilogue. -/
def Program.around (prologue : Ref → Program σ (Except Failure Unit))
    (epilogue : Ref → Outcome → Program σ Outcome) (r : Ref) : Program σ Outcome := do
  match ← prologue r with
  | .error failure => pure (.error failure)
  | .ok () => do
    let outcome ← Program.proceed r
    epilogue r outcome

section Conducts

variable (directory : Directory σ) (base : Nat) (request : Request)

/-- From the depth `base` on, the program comes to the same as the query. -/
def Program.Settles {α : Type} (p : Program σ α) (q : Query σ α) : Prop :=
  ∀ depth, base ≤ depth → (p.run directory (Engine.ofDepth directory depth)).Settles q

/-- From the depth `base` on, the program comes to the same as the query, for every invocation of the
request: it may look at the invocation, and it does not advance it. -/
def Program.Acts {α : Type} (p : Ref → Program σ α) (q : List Value → Query σ (α × List Value)) : Prop :=
  ∀ depth, base ≤ depth → ∀ r (i : Invocation σ), i.IsOf request →
    Run.Acts (· = i.entered) r i ((p r).run directory (Engine.ofDepth directory depth)) (q i.arguments)

/-- What an interceptor does with a call, told as conduct. -/
inductive Behaviour.Conducts : Behaviour σ → Conduct σ → Prop where
  | before {advice : BeforeAdvice σ} {run : List Value → Query σ (Except Failure Unit)}
    (h : ∀ arguments, (advice request.method arguments request.this).Settles directory base
      (run arguments)) :
    Conducts (.before advice) (.before run)
  | afterReturning {advice : AfterReturningAdvice σ}
    {run : Value → List Value → Query σ (Except Failure Unit)}
    (h : ∀ returned arguments, (advice returned request.method arguments request.this).Settles
      directory base (run returned arguments)) :
    Conducts (.afterReturning advice) (.afterReturning run)
  | afterThrowing {advice : ThrowsAdvice σ} {run : Failure → List Value → Query σ (Except Failure Unit)}
    (h : ∀ failure, Program.Acts directory base request (advice.afterThrowing · failure)
      fun arguments => do pure (← run failure arguments, arguments)) :
    Conducts (.afterThrowing advice) (.afterThrowing advice.handles run)
  | around {body : Ref → Program σ Outcome} {prologue : Ref → Program σ (Except Failure Unit)}
    {epilogue : Ref → Outcome → Program σ Outcome}
    {first : List Value → Query σ (Except Failure Unit × List Value)}
    {last : Outcome → List Value → Query σ (Outcome × List Value)}
    (hbody : ∀ r engine, (body r).run directory engine =
      (Program.around prologue epilogue r).run directory engine)
    (hfirst : Program.Acts directory base request prologue first)
    (hlast : ∀ outcome, Program.Acts directory base request (epilogue · outcome) (last outcome)) :
    Conducts (.around body) (.around first last)
  | instrumented (label : String) : Conducts (.instrumented label) .transparent
  | exposing : Conducts .exposing .transparent

end Conducts

/-- The interceptor that carries out advice of one of the four shapes. -/
def Advice.standard? : Advice σ → Option (Interceptor σ)
  | .around interceptor => some interceptor
  | .before advice => some ⟨none, .before advice⟩
  | .afterReturning advice => some ⟨none, .afterReturning advice⟩
  | .afterThrowing advice => some ⟨none, .afterThrowing advice⟩
  | .extension _ _ => none

end Interception
