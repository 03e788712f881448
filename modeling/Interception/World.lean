import Interception.Chain
import Interception.Journal

/-! The world of a run: the state that callbacks share, the invocations made so far, the join points
bound on each thread, and the journal. Operations of programs act on it; the running thread has its
bindings to itself, and those of the threads that wait for it to end lie beside them untouched. -/

namespace Interception

universe u

/-- One call on its way through a chain, or a fork of it. -/
structure Invocation (σ : Type) where
  call : CallId
  this : Value
  method : Method
  targetClass : Class
  arguments : List Value
  chain : Chain σ
  target : Target σ
  /-- How many links of the chain were entered or skipped. -/
  entered : Nat := 0
  attachments : List (String × Value) := []
  /-- The slot in which the invocation is published, while it is. -/
  exposedAt : Option Nat := none

namespace Invocation

variable {σ : Type}

/-- A new invocation, in front of the first link of its chain. -/
def start (call : CallId) (request : Request) (chain : Chain σ) (target : Target σ) : Invocation σ where
  call := call
  this := request.this
  method := request.method
  targetClass := request.actualClass
  arguments := request.arguments
  chain := chain
  target := target

instance : Inhabited (Invocation σ) where
  default := start default default .empty fun _ _ _ => .done (.ok .unit)

def ahead (i : Invocation σ) : List (Link σ) := i.chain.links.drop i.entered

/-- The position of the link that was reached last. -/
def position (i : Invocation σ) : Option Nat :=
  match i.entered with
  | 0 => none
  | n + 1 => some n

def joinPoint (i : Invocation σ) : JoinPoint where
  call := i.call
  this := i.this
  method := i.method
  targetClass := i.targetClass
  arguments := i.arguments

def attached (i : Invocation σ) (key : String) : Option Value := i.attachments.lookup key

/-- Attaches a value under a key, in place of one attached before. -/
def setAttribute (i : Invocation σ) (key : String) (value : Value) : Invocation σ :=
  { i with attachments := (key, value) :: i.attachments.filter fun (k, _) => k != key }

def read (i : Invocation σ) : {α : Type} → Facet α → α
  | _, .call => i.call
  | _, .this => i.this
  | _, .method => i.method
  | _, .targetClass => i.targetClass
  | _, .arguments => i.arguments
  | _, .attached key => i.attached key
  | _, .position => i.position
  | _, .chain => i.chain.kinds
  | _, .joinPoint => i.joinPoint

end Invocation

/-- Everything that a run can change. -/
structure World (σ : Type) where
  state : σ
  journal : Array Entry := #[]
  /-- All invocations made so far; references are positions. -/
  invocations : Array (Invocation σ) := #[]
  /-- How many calls were given an identity. -/
  calls : Nat := 0
  /-- The join points bound on the running thread. -/
  bindings : Bindings := .empty
  /-- Those bound on the threads that wait for the running one, the latest first. -/
  waiting : List Bindings := []

namespace World

variable {σ : Type}

def invocation (w : World σ) (r : Ref) : Invocation σ := w.invocations.getD r.index default

def update (w : World σ) (r : Ref) (change : Invocation σ → Invocation σ) : World σ :=
  { w with invocations := w.invocations.modify r.index change }

def push (w : World σ) (i : Invocation σ) : Ref × World σ :=
  (⟨w.invocations.size⟩, { w with invocations := w.invocations.push i })

def start (w : World σ) (request : Request) (chain : Chain σ) (target : Target σ) : Ref × World σ :=
  { w with calls := w.calls + 1 }.push (.start ⟨w.calls⟩ request chain target)

def record (w : World σ) (entries : List Entry) : World σ :=
  { w with journal := w.journal ++ entries }

/-- The running thread, by the number of threads that wait for it. -/
def thread (w : World σ) : Nat := w.waiting.length

/-- Binds a join point on the running thread: by hand, or to publish an invocation. -/
def bind (w : World σ) (published : Option Ref) (point : JoinPoint) : Guard × World σ :=
  let (guard, bindings) := w.bindings.bind point
  (guard, { w with bindings }.record [.occurrence (.bound w.thread guard.slot published point)])

def release (w : World σ) (guard : Guard) : World σ :=
  { w with bindings := w.bindings.release guard }

/-- Replaces the arguments of an invocation. Where the invocation is published, the slot is given a new
picture of it. -/
def setArguments (w : World σ) (r : Ref) (arguments : List Value) : World σ :=
  let w := w.update r fun i => { i with arguments }
  let i := w.invocation r
  let bindings := match i.exposedAt with
    | none => w.bindings
    | some slot => w.bindings.rebind slot i.joinPoint
  { w with bindings }.record
    [.occurrence (.replaced r w.thread i.exposedAt i.joinPoint w.bindings bindings)]

def apply (w : World σ) : {α : Type} → Operation α → α × World σ
  | _, .read r facet => ((w.invocation r).read facet, w)
  | _, .fork r => w.push (w.invocation r)
  | _, .setArguments r arguments => ((), w.setArguments r arguments)
  | _, .setAttribute r key value =>
    ((w.invocation r).attached key, w.update r fun i => i.setAttribute key value)
  | _, .bind point => w.bind none point
  | _, .release guard => ((), w.release guard)
  | _, .currentJoinPoint => (w.bindings.current, w)
  | _, .bindingDepth => (w.bindings.depth, w)

end World

inductive Ending (α : Type u) where
  | finished (a : α)
  | unwinding (panic : Panic)
  /-- Calls were nested more deeply than was allowed. -/
  | outOfDepth

/-- A computation on the world. -/
def Run (σ : Type) (α : Type) : Type 1 := World σ → Ending α × World σ

namespace Run

variable {σ α β : Type}

def finish (a : α) : Run σ α := fun w => (.finished a, w)

def andThen (p : Run σ α) (k : α → Run σ β) : Run σ β := fun w =>
  match p w with
  | (.finished a, w) => k a w
  | (.unwinding panic, w) => (.unwinding panic, w)
  | (.outOfDepth, w) => (.outOfDepth, w)

instance : Monad (Run σ) where
  pure := finish
  bind := andThen

def record (entry : Entry) : Run σ Unit := fun w => (.finished (), w.record [entry])

def report (e : Event) : Run σ Unit := record (.event e)

def read (r : Ref) (facet : Facet α) : Run σ α := fun w => (.finished ((w.invocation r).read facet), w)

def bound : Run σ Bindings := fun w => (.finished w.bindings, w)

def thread : Run σ Nat := fun w => (.finished w.thread, w)

/-- Consults a predicate and uses the answer. -/
def inquire {α : Type u} (q : Inquiry σ α) (k : α → Run σ β) : Run σ β := fun w =>
  let reply := q w.state
  let w := { w with state := reply.state }.record reply.written
  match reply.result with
  | .ok a => k a w
  | .error panic => (.unwinding panic, w)

def consult (q : Query σ α) : Run σ α := inquire (Inquiry.consult q) finish

/-- Binds a join point while the body runs. -/
def withBinding (point : JoinPoint) (body : Run σ α) : Run σ α := fun w =>
  let (guard, w) := w.bind none point
  let (ending, w) := body w
  (ending, w.release guard)

/-- Stops a panic of the body. -/
def catching (body : Run σ α) : Run σ (Except Panic α) := fun w =>
  match body w with
  | (.finished a, w) => (.finished (.ok a), w)
  | (.unwinding panic, w) => (.finished (.error panic), w)
  | (.outOfDepth, w) => (.outOfDepth, w)

/-- Runs the body on a thread of its own, on which nothing is bound, while this one waits. -/
def onThread (body : Run σ α) : Run σ α := fun w =>
  let (ending, w) := body { w with bindings := .empty, waiting := w.bindings :: w.waiting }
  (ending, { w with bindings := w.waiting.headD .empty, waiting := w.waiting.tail })

end Run

end Interception
