import Interception.Bindings
import Interception.Consultation

/-! The journal of a run: everything that happened, in order. Callbacks write notes. The library
reports events, which an application may print. Beside both stand the occurrences themselves, each
recorded as it begins, so that a journal tells what happened whether or not an event reports it. -/

namespace Interception

universe u

/-- How much an event matters, the least first. -/
inductive Level where
  | trace | debug | info | warn | error
  deriving DecidableEq

namespace Level

def rank : Level → Nat
  | trace => 0
  | debug => 1
  | info => 2
  | warn => 3
  | error => 4

def describe : Level → String
  | trace => "TRACE"
  | debug => "DEBUG"
  | info => "INFO"
  | warn => "WARN"
  | error => "ERROR"

end Level

/-- What the library reports. -/
inductive Event where
  | registryBuilt (adapters : Nat)
  | advisorAdded (position : Nat) (kind : String)
  | chainResolved (method : Method) (targetClass : Class) (advisors interceptors : Nat)
  | entering (call : CallId) (position : Nat)
  | enteringDynamic (call : CallId) (position : Nat)
  | skipping (call : CallId) (position : Nat)
  | invokingTarget (call : CallId) (method : Method)
  | handlingFailure (call : CallId) (failure : Failure)
  | completed (call : CallId) (method : Method) (label : String)
  | failed (call : CallId) (method : Method) (label : String) (failure : Failure)

namespace Event

def level : Event → Level
  | registryBuilt _ | advisorAdded _ _ | chainResolved _ _ _ _ | completed _ _ _ => .debug
  | entering _ _ | enteringDynamic _ _ | skipping _ _ | invokingTarget _ _ | handlingFailure _ _ => .trace
  | failed _ _ _ _ => .warn

def message : Event → String
  | registryBuilt _ => "Adapter registry built"
  | advisorAdded _ _ => "Adding advisor"
  | chainResolved _ _ _ _ => "Resolved interceptor chain"
  | entering _ _ => "Entering interceptor"
  | enteringDynamic _ _ => "Entering dynamic interceptor"
  | skipping _ _ => "Dynamic matcher rejected call, skipping"
  | invokingTarget _ _ => "Invoking target"
  | handlingFailure _ _ => "Throws advice handling failure"
  | completed _ _ _ => "Call completed"
  | failed _ _ _ _ => "Call failed"

/-- The part of the library that reports an event, by the path under which it is switched on and off. -/
def source : Event → String
  | registryBuilt _ => "weft::advice::registry"
  | advisorAdded _ _ => "weft::advised"
  | chainResolved _ _ _ _ => "weft::chain::resolver"
  | entering _ _ | enteringDynamic _ _ | skipping _ _ | invokingTarget _ _ => "weft::invocation"
  | handlingFailure _ _ => "weft::advice::adapters"
  | completed _ _ _ | failed _ _ _ _ => "weft::advice::instrumented"

/-- What an event says beside its message: names, and values where these are the same in every run. The
identity of a call and a measured time are not, and are given by name alone. -/
def fields : Event → List (String × Option String)
  | registryBuilt adapters => [("adapters", toString adapters)]
  | advisorAdded position kind => [("position", toString position), ("kind", kind)]
  | chainResolved method targetClass advisors interceptors =>
    [("method", method.signature), ("target_class", targetClass.name),
     ("advisors", toString advisors), ("interceptors", toString interceptors)]
  | entering _ position | enteringDynamic _ position | skipping _ position =>
    [("invocation", none), ("index", toString position)]
  | invokingTarget _ method => [("invocation", none), ("method", method.signature)]
  | handlingFailure _ failure => [("invocation", none), ("error", failure.message)]
  | completed _ method label =>
    [("invocation", none), ("method", method.signature), ("label", label), ("elapsed_us", none)]
  | failed _ method label failure =>
    [("invocation", none), ("method", method.signature), ("label", label), ("elapsed_us", none),
     ("error", failure.message)]

/-- An event in one line: level, message and fields. -/
def line (e : Event) : String :=
  " ".intercalate (e.level.describe :: e.message :: e.fields.map fun
    | (name, some value) => name ++ "=" ++ value
    | (name, none) => name)

end Event

/-- A predicate that is consulted while a chain is assembled, with the position of its advisor. -/
inductive Question where
  | classFilter (position : Nat)
  /-- The filter of an introduction, asked whether introductions apply to the target class. -/
  | introduction (position : Nat)
  | methodFilter (position : Nat)
  /-- A method filter that is told whether introductions apply to the target class. -/
  | methodFilterKnowing (position : Nat) (introduced : Bool)
  deriving DecidableEq

/-- What happened, whether or not an event reports it. -/
inductive Occurrence where
  | asked (question : Question) (targetClass : Class)
  | answered (question : Question) (verdict : Bool)
  | proceeding (invocation : Ref)
  | matching (invocation : Ref) (position : Nat) (targetClass : Class) (arguments : List Value)
  /-- A link is passed over because its argument predicate did not accept the call. -/
  | skipped (invocation : Ref) (position : Nat)
  /-- The interceptor of a link is run; `current` is the position that the invocation tells of itself,
  and `bindings` are the join points bound on the thread. -/
  | entered (invocation : Ref) (position : Nat) (current : Option Nat) (arguments : List Value)
    (thread : Nat) (bindings : Bindings)
  /-- The target is run, for an invocation or for a call that needs none. -/
  | reached (invocation : Option Ref) (this : Value) (method : Method) (arguments : List Value)
    (thread : Nat) (bindings : Bindings)
  /-- A join point takes a slot: by hand, or to publish the invocation that it pictures. -/
  | bound (thread slot : Nat) (published : Option Ref) (point : JoinPoint)
  /-- The arguments of an invocation are replaced. It then looks like `point`, and `slot` is the one in
  which it remembers to be published. -/
  | replaced (invocation : Ref) (thread : Nat) (slot : Option Nat) (point : JoinPoint)
    (before after : Bindings)

/-- One line of a journal. -/
inductive Entry where
  | note (text : String)
  | event (event : Event)
  | occurrence (occurrence : Occurrence)

namespace Entry

/-- What a callback wrote. -/
def note? : Entry → Option String
  | note text => some text
  | _ => none

def event? : Entry → Option Event
  | event e => some e
  | _ => none

def occurrence? : Entry → Option Occurrence
  | occurrence o => some o
  | _ => none

end Entry

/-- A computation of the library itself, which may write every kind of entry. -/
abbrev Inquiry (σ : Type) (α : Type u) := Consultation σ Entry α

namespace Inquiry

variable {σ : Type}

/-- Consults a callback: what it writes are notes. -/
def consult {α : Type u} (q : Query σ α) : Inquiry σ α := q.mapWritten .note

def report (e : Event) : Inquiry σ Unit := Consultation.write (.event e)

/-- Asks a predicate about a class, and records that it is asked and what it answers. -/
def ask (question : Question) (targetClass : Class) (q : Query σ Bool) : Inquiry σ Bool := do
  Consultation.write (.occurrence (.asked question targetClass))
  let verdict ← consult q
  Consultation.write (.occurrence (.answered question verdict))
  pure verdict

/-- A callback writes nothing but notes. -/
theorem writes_consult {α : Type u} {P : Entry → Prop} (q : Query σ α) (hnote : ∀ text, P (.note text)) :
    Consultation.Writes P (consult q) := by
  intro s entry hentry
  obtain ⟨text, _, rfl⟩ := List.mem_map.mp hentry
  exact hnote text

/-- What a question leaves in the journal: that it is asked, notes, and the verdict that was given. -/
theorem writes_ask {P : Entry → Prop} {question : Question} {targetClass : Class} {q : Query σ Bool}
    (hnote : ∀ text, P (.note text)) (hasked : P (.occurrence (.asked question targetClass)))
    (hanswered : ∀ s verdict, (q s).result = .ok verdict →
      P (.occurrence (.answered question verdict))) :
    Consultation.Writes P (ask question targetClass q) := by
  intro s entry hentry
  simp only [ask, consult, bind, pure, Consultation.andThen, Consultation.write,
    Consultation.mapWritten, Consultation.answer] at hentry
  have hnotes : ∀ entry ∈ (q s).written.map Entry.note, P entry := writes_consult q hnote s
  cases hresult : (q s).result with
  | error panic =>
    rw [hresult] at hentry
    rcases List.mem_append.mp hentry with hfirst | hrest
    · exact List.mem_singleton.mp hfirst ▸ hasked
    · exact hnotes entry hrest
  | ok verdict =>
    simp only [hresult, List.append_nil] at hentry
    rcases List.mem_append.mp hentry with hfirst | hrest
    · exact List.mem_singleton.mp hfirst ▸ hasked
    · rcases List.mem_append.mp hrest with hinner | hlast
      · exact hnotes entry hinner
      · exact List.mem_singleton.mp hlast ▸ hanswered s verdict hresult

end Inquiry

end Interception
