import Interception.Script.Session

/-! A rehearsal: a short session in which a call succeeds and another fails, past an interceptor that
reports how calls end and one that lets no call in. It brings about most kinds of events and shows what a
filter makes of them. -/

namespace Interception.Logging

open Script

def rehearsedCall (target : TargetForm) : Command :=
  .invoke "proxy"
    { this := .unit, method := { declaringClass := .named "Service", name := "run" } } target

def rehearsal : List Command :=
  [.proxy "proxy" {} (some { standard := true, adapters := [] }),
   .addAdvice "proxy" (.instrumented "rehearsal"),
   .add "proxy"
     { advice := .proceeding,
       place := .pointcut .any (.argumentTest "never" (.constant false)) },
   rehearsedCall (.returning "done"),
   rehearsedCall (.failing "failed")]

/-- The events that the rehearsal reports, in order. -/
def rehearsedEvents : List Event :=
  let session := rehearsal.foldl (fun (s : Session) command => (s.execute command).2) {}
  session.world.journal.toList.filterMap Entry.event?

end Interception.Logging
