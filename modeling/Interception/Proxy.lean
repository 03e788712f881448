import Interception.Resolution

/-! Proxies: a list of advisors with its configuration and the registry that supplies interceptors. The
list is changed one advisor at a time. A change answers and leaves a proxy, also when it fails. -/

namespace Interception

structure ProxyConfig where
  /-- The advisors were matched against the target class before. -/
  preFiltered : Bool := false
  /-- Every call is published as the current join point while it runs. -/
  exposeInvocation : Bool := false
  frozen : Bool := false
  deriving DecidableEq, Inhabited

namespace ProxyConfig

def describe (c : ProxyConfig) : String :=
  Description.record "ProxyConfig"
    [("pre_filtered", Description.truth c.preFiltered),
     ("expose_invocation", Description.truth c.exposeInvocation),
     ("frozen", Description.truth c.frozen)]

end ProxyConfig

/-- The advisors of one proxy, in the order in which they apply. -/
structure Proxy (σ : Type) where
  config : ProxyConfig
  registry : Registry σ := .standard
  advisors : List (Advisor σ) := []

namespace Proxy

variable {σ : Type}

/-- Why an advisor cannot be put at a position, if it cannot: the switch is looked at first, then the
position, then the advisor. -/
def insertionError? (p : Proxy σ) (position : Nat) (advisor : Advisor σ) : Option AdvisorError :=
  if p.config.frozen then some .frozen
  else if position > p.advisors.length then some (.indexOutOfBounds position p.advisors.length)
  else advisor.defect?

/-- Puts an advisor at a position, at most the end of the list; those from there on move back. -/
def insert (p : Proxy σ) (position : Nat) (advisor : Advisor σ) : Except AdvisorError Unit × Proxy σ :=
  match p.insertionError? position advisor with
  | some e => (.error e, p)
  | none => (.ok (), { p with advisors := p.advisors.insertIdx position advisor })

def add (p : Proxy σ) (advisor : Advisor σ) : Except AdvisorError Unit × Proxy σ :=
  p.insert p.advisors.length advisor

def remove (p : Proxy σ) (position : Nat) : Except AdvisorError (Advisor σ) × Proxy σ :=
  if p.config.frozen then (.error .frozen, p)
  else match p.advisors[position]? with
    | none => (.error (.indexOutOfBounds position p.advisors.length), p)
    | some advisor => (.ok advisor, { p with advisors := p.advisors.eraseIdx position })

/-- The advisor that applies the advice everywhere, if the proxy may be changed and the advice is
supported. -/
def advisorFor (p : Proxy σ) (advice : Advice σ) : Except AdvisorError (Advisor σ) :=
  if p.config.frozen then .error .frozen else p.registry.wrap advice

def addAdvice (p : Proxy σ) (advice : Advice σ) : Except AdvisorError Unit × Proxy σ :=
  match p.advisorFor advice with
  | .error e => (.error e, p)
  | .ok advisor => p.add advisor

def added (position : Nat) (advisor : Advisor σ) : Event :=
  .advisorAdded position advisor.advice.kind

/-- The link that publishes each call of a proxy that is set to. -/
def exposingLink : Link σ := .plain ⟨none, .exposing⟩

/-- The chain for a method on a class, by default the class that declares the method. -/
def chainFor (p : Proxy σ) (method : Method) (targetClass : Option Class) :
    Inquiry σ (Except AdvisorError (Chain σ)) :=
  Consultation.andThen
    (p.registry.resolve p.advisors (.of method targetClass p.config.preFiltered)) fun
    | .error e => Consultation.answer (.error e)
    | .ok chain =>
      Consultation.answer (.ok (if p.config.exposeInvocation then chain.prepend exposingLink else chain))

def describe (p : Proxy σ) : String :=
  Description.record "Advised"
    [("config", p.config.describe), ("advisors", toString p.advisors.length)]

end Proxy

end Interception
