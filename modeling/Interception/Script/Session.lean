import Interception.Execution
import Interception.Script.Advising

/-! Sessions: commands on named proxies and kept invocations, one after another. A session owns a world,
so what scripts leave behind in one command is there for the next. -/

namespace Interception.Script

/-- How deeply the calls of a session may be nested. -/
def depthLimit : Nat := 10000

/-- Proxies by name, the world, and the serial number for the next piece of advice. -/
structure Session where
  proxies : List (String × Proxy Memory) := []
  world : World Memory := { state := {} }
  serial : Nat := 0
  /-- Where the journal was cleared last. -/
  cleared : Nat := 0
  /-- Whether events are shown among the lines of the journal. -/
  traced : Bool := false

inductive ChainForm where
  /-- The chain that the named proxy has for the call; the entries, if there is no such proxy. -/
  | ofProxy (name : String) (otherwise : List EntryForm)
  | entries (entries : List EntryForm)

inductive Command where
  | proxy (name : String) (config : ProxyConfig) (registry : Option RegistryForm)
  | add (proxy : String) (advisor : AdvisorForm)
  | insert (proxy : String) (position : Nat) (advisor : AdvisorForm)
  | addAdvice (proxy : String) (advice : AdviceForm)
  | remove (proxy : String) (position : Nat)
  | clone (proxy copy : String)
  | info (proxy : String)
  | chain (proxy : String) (method : Method) (targetClass : Option Class)
  | invocation (name : String) (chain : ChainForm) (request : Request) (target : TargetForm)
  | invoke (proxy : String) (request : Request) (target : TargetForm)
  | drive (name : String) (steps : List Step)
  | run (steps : List Step)
  | count (line : String)
  | clear

inductive Response where
  | done
  | noProxy
  | advisorError (e : AdvisorError)
  | advisor (advisor : Advisor Memory)
  | proxy (proxy : Proxy Memory)
  /-- A chain, with the advisors among which its interceptors are looked up. -/
  | chain (chain : Chain Memory) (advisors : List (Advisor Memory))
  | description (text : String)
  | outcome (outcome : Outcome)
  | panicked (message : String)
  | outOfDepth
  | count (n : Nat)

/-- The position of the first advisor whose own interceptor stands in the link. -/
def advisorOf? (advisors : List (Advisor Memory)) (link : Link Memory) : Option Nat :=
  advisors.findIdx? fun advisor => advisor.advice.interceptor?.any fun i => i.same link.interceptor

/-- The lines of a journal: notes, and events behind a sign, if they are wanted. -/
def lines (withEvents : Bool) (entries : List Entry) : List String :=
  entries.filterMap fun
    | .note text => some text
    | .event e => if withEvents then some ("@" ++ e.line) else none
    | .occurrence _ => none

namespace Session

def directory (s : Session) : Directory Memory := fun name => s.proxies.lookup name

def putProxy (s : Session) (name : String) (proxy : Proxy Memory) : Session :=
  { s with proxies := (name, proxy) :: s.proxies.filter fun (n, _) => n != name }

def nextSerial (s : Session) : Nat × Session := (s.serial, { s with serial := s.serial + 1 })

def report (s : Session) (e : Event) : Session := { s with world := s.world.record [.event e] }

def linesFrom (s : Session) (position : Nat) : List String :=
  lines s.traced (s.world.journal.toList.drop position)

def perform (s : Session) {α : Type} (p : Action α) (respond : α → Response) : Response × Session :=
  match p.run s.directory (Engine.ofDepth s.directory depthLimit) s.world with
  | (.finished a, world) => (respond a, { s with world })
  | (.unwinding panic, world) => (.panicked panic.message, { s with world })
  | (.outOfDepth, world) => (.outOfDepth, { s with world })

def inquire (s : Session) {α : Type 1} (q : Inquiry Memory α)
    (respond : α → Session → Response × Session) : Response × Session :=
  let reply := q s.world.state
  let s := { s with world := { s.world with state := reply.state }.record reply.written }
  match reply.result with
  | .ok a => respond a s
  | .error panic => (.panicked panic.message, s)

/-- Answers as a change of a proxy does, and keeps the proxy that it leaves. One that is made is
reported. -/
def change (s : Session) (name : String) (reported : Event)
    (changed : Except AdvisorError Unit × Proxy Memory) : Response × Session :=
  match changed with
  | (.error e, proxy) => (.advisorError e, s.putProxy name proxy)
  | (.ok (), proxy) => (.done, (s.report reported).putProxy name proxy)

/-- Does something with a proxy, if there is one of that name. -/
def withProxy (s : Session) (name : String) (p : Proxy Memory → Response × Session) : Response × Session :=
  match s.directory name with
  | none => (.noProxy, s)
  | some proxy => p proxy

/-- Puts an advisor at a position of a proxy, by default at the end. -/
def insert (s : Session) (name : String) (position : Option Nat) (form : AdvisorForm) : Response × Session :=
  s.withProxy name fun proxy =>
    let (serial, s) := s.nextSerial
    let advisor := form.advisor serial
    let position := position.getD proxy.advisors.length
    s.change name (Proxy.added position advisor) (proxy.insert position advisor)

/-- The links that entry forms stand for, each with a serial number of its own. -/
def links (s : Session) : List EntryForm → List (Link Memory) × Session
  | [] => ([], s)
  | form :: rest =>
    let (serial, s) := s.nextSerial
    let (others, s) := s.links rest
    ((form.link? serial).toList ++ others, s)

/-- Starts an invocation over a chain and keeps it under a name. -/
def keepInvocation (s : Session) (name : String) (request : Request) (target : TargetForm)
    (chain : Chain Memory) : Response × Session :=
  let (counter, s) := match Counter.allocate.run s.directory (fun _ w => (.outOfDepth, w)) s.world with
    | (.finished counter, world) => (counter, { s with world })
    | (_, world) => (⟨0⟩, { s with world })
  let (r, world) := s.world.start request chain (target.target counter)
  let s := { s with world }
  s.perform (do
    Program.modify fun m => { m with kept := m.kept.insert name r }
    describeInvocation r) .description

def execute (s : Session) : Command → Response × Session
  | .proxy name config none => (.done, s.putProxy name { config })
  | .proxy name config (some form) =>
    let registry := form.registry
    (.done, (s.report registry.built).putProxy name { config, registry })
  | .add name form => s.insert name none form
  | .insert name position form => s.insert name (some position) form
  | .addAdvice name form => s.withProxy name fun proxy =>
    let (serial, s) := s.nextSerial
    let advice := form.advice serial
    s.change name (.advisorAdded proxy.advisors.length advice.kind) (proxy.addAdvice advice)
  | .remove name position => s.withProxy name fun proxy =>
    match proxy.remove position with
    | (.error e, proxy) => (.advisorError e, s.putProxy name proxy)
    | (.ok advisor, proxy) => (.advisor advisor, s.putProxy name proxy)
  | .clone name copy => s.withProxy name fun proxy => (.done, s.putProxy copy proxy)
  | .info name => s.withProxy name fun proxy => (.proxy proxy, s)
  | .chain name method targetClass => s.withProxy name fun proxy =>
    s.inquire (proxy.chainFor method targetClass) fun
      | .error e, s => (.advisorError e, s)
      | .ok chain, s => (.chain chain proxy.advisors, s)
  | .invocation name chain request target =>
    let byHand (entries : List EntryForm) : Response × Session :=
      let (links, s) := s.links entries
      s.keepInvocation name request target ⟨links⟩
    match chain with
    | .entries entries => byHand entries
    | .ofProxy proxy otherwise =>
      match s.directory proxy with
      | none => byHand otherwise
      | some proxy => s.inquire (proxy.chainFor request.method request.targetClass) fun
        | .error e, s => (.advisorError e, s)
        | .ok chain, s => s.keepInvocation name request target chain
  | .invoke proxy request target =>
    s.perform (nestedWithout (runAll · [.invoke proxy request target])) .outcome
  | .drive name steps => s.perform (nestedWithout (runAll · [.withKept name steps])) .outcome
  | .run steps => s.perform (nestedWithout (runAll · steps)) .outcome
  | .count line =>
    (.count ((s.linesFrom s.cleared).count line), s)
  | .clear => (.done, { s with cleared := s.world.journal.size })
where
  nestedWithout (body : Frame → Action Flow) : Action Outcome := do
    pure (← started (.arguments []) (.ok .unit) body).ofAdvice

end Session

end Interception.Script
