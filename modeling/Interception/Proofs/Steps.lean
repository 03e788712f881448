import Mathlib.Logic.Relation
import Interception.Execution
import Interception.Proofs.Blocks

/-! What a run can do to the world, one step at a time. Every run, of whatever programs and to whatever
depth, is a sequence of the steps below, however it ends; what each step keeps is therefore kept by
every run. -/

namespace Interception

variable {σ α β : Type}

/-- The entry tells of nothing that is done to a call or to a binding. -/
def Entry.IsQuiet : Entry → Prop
  | .occurrence (.entered _ _ _ _ _ _) => False
  | .occurrence (.reached _ _ _ _ _ _) => False
  | .occurrence (.bound _ _ _ _) => False
  | .occurrence (.replaced _ _ _ _ _ _) => False
  | _ => True

namespace World

/-- One change of the world. -/
inductive Step : World σ → World σ → Prop where
  /-- The shared state changes, and something is written. -/
  | write {w : World σ} (state : σ) (entries : List Entry) (hquiet : ∀ entry ∈ entries, entry.IsQuiet) :
    Step w ({ w with state }.record entries)
  | advance {w : World σ} (r : Ref) :
    Step w (w.update r fun i => { i with entered := i.entered + 1 })
  | enter {w : World σ} (r : Ref) (position : Nat) :
    Step w (w.record [.occurrence (.entered r position (w.invocation r).position
      (w.invocation r).arguments w.thread w.bindings)])
  /-- The target is run with the arguments of an invocation. -/
  | reach {w : World σ} (r : Ref) :
    Step w (w.record [.occurrence (.reached (some r) (w.invocation r).this (w.invocation r).method
      (w.invocation r).arguments w.thread w.bindings)])
  /-- The target is run without an invocation. -/
  | reachAtOnce {w : World σ} (this : Value) (method : Method) (arguments : List Value) :
    Step w (w.record [.occurrence (.reached none this method arguments w.thread w.bindings)])
  | start {w : World σ} (request : Request) (chain : Chain σ) (target : Target σ) :
    Step w (w.start request chain target).2
  | fork {w : World σ} (r : Ref) : Step w (w.push (w.invocation r)).2
  | replace {w : World σ} (r : Ref) (arguments : List Value) : Step w (w.setArguments r arguments)
  | attach {w : World σ} (r : Ref) (key : String) (value : Value) :
    Step w (w.update r fun i => i.setAttribute key value)
  | bind {w : World σ} (point : JoinPoint) : Step w (w.bind none point).2
  | publish {w : World σ} (r : Ref) : Step w (w.bind (some r) (w.invocation r).joinPoint).2
  /-- An invocation is told where it is published. -/
  | remember {w : World σ} (r : Ref) (slot : Option Nat) :
    Step w (w.update r fun i => { i with exposedAt := slot })
  | release {w : World σ} (guard : Guard) : Step w (w.release guard)
  /-- A thread is started, and the running one waits for it. -/
  | descend {w : World σ} : Step w { w with bindings := .empty, waiting := w.bindings :: w.waiting }
  /-- The running thread ends, and the one that waited goes on. -/
  | ascend {w : World σ} :
    Step w { w with bindings := w.waiting.headD .empty, waiting := w.waiting.tail }

/-- Any number of steps. -/
def Steps : World σ → World σ → Prop := Relation.ReflTransGen Step

namespace Steps

variable {w w' w'' : World σ}

theorem refl : Steps w w := Relation.ReflTransGen.refl

theorem trans (h : Steps w w') (h' : Steps w' w'') : Steps w w'' := Relation.ReflTransGen.trans h h'

theorem single (h : Step w w') : Steps w w' := Relation.ReflTransGen.single h

theorem tail (h : Steps w w') (h' : Step w' w'') : Steps w w'' := Relation.ReflTransGen.tail h h'

/-- What every step keeps, any number of steps keep. -/
theorem keeps {Inv : World σ → Prop} (hstep : ∀ {w w'}, Step w w' → Inv w → Inv w') (h : Steps w w')
    (hw : Inv w) : Inv w' := by
  induction h with
  | refl => exact hw
  | tail _ hlast ih => exact hstep hlast ih

end Steps

end World

/-! ### Resolution -/

theorem Resolution.Sound.isQuiet {site : Site} {advisors : List (Advisor σ)} {entry : Entry}
    (h : Resolution.Sound site advisors entry) : entry.IsQuiet := by
  cases entry with
  | note text => trivial
  | event e => trivial
  | occurrence o =>
    cases o with
    | entered => exact h
    | reached => exact h
    | bound => exact h
    | replaced => exact h
    | _ => trivial

/-- Whatever holds of all that a resolution may write, and of the event that ends it, holds of all that it
writes. -/
theorem Registry.writes_resolve {P : Entry → Prop} (registry : Registry σ)
    (advisors : List (Advisor σ)) (site : Site)
    (hsound : ∀ entry, Resolution.Directed site advisors entry → P entry)
    (hevent : ∀ method c n m, P (.event (.chainResolved method c n m))) :
    Consultation.Writes P (registry.resolve advisors site) := by
  have hvisit : Consultation.Writes P (Resolution.visit registry site advisors none 0 [] advisors) :=
    fun s entry hentry => hsound entry (Resolution.directed_visit rfl s entry hentry)
  refine hvisit.andThen fun visited => ?_
  cases visited with
  | error e => exact Consultation.writes_answer _ _
  | ok links =>
    exact (Consultation.writes_write (hevent _ _ _ _)).andThen fun _ => Consultation.writes_answer _ _

theorem Proxy.writes_chainFor_of {P : Entry → Prop} (p : Proxy σ) (method : Method)
    (targetClass : Option Class)
    (hsound : ∀ entry, Resolution.Directed (.of method targetClass p.config.preFiltered) p.advisors entry →
      P entry)
    (hevent : ∀ method c n m, P (.event (.chainResolved method c n m))) :
    Consultation.Writes P (p.chainFor method targetClass) := by
  refine (p.registry.writes_resolve p.advisors _ hsound hevent).andThen fun resolved => ?_
  cases resolved with
  | error e => exact Consultation.writes_answer _ _
  | ok chain => exact Consultation.writes_answer _ _

theorem Proxy.writes_chainFor (p : Proxy σ) (method : Method) (targetClass : Option Class) :
    Consultation.Writes Entry.IsQuiet (p.chainFor method targetClass) :=
  p.writes_chainFor_of method targetClass (fun _ h => h.1.isQuiet) fun _ _ _ _ => trivial

/-! ### Runs -/

/-- The run is a sequence of steps, however it ends. -/
def Run.Stepwise (p : Run σ α) : Prop := ∀ w, World.Steps w (p w).2

/-- Every activation that the engine carries out is a sequence of steps. -/
def Engine.Stepwise (engine : Engine σ) : Prop := ∀ a, Run.Stepwise (engine a)

namespace Run

open World (Step Steps)

theorem stepwise_finish (a : α) : Stepwise (finish a : Run σ α) := fun _ => .refl

theorem Stepwise.andThen {p : Run σ α} {k : α → Run σ β} (hp : p.Stepwise)
    (hk : ∀ a, (k a).Stepwise) : (p.andThen k).Stepwise := by
  intro w
  have hfirst := hp w
  simp only [Run.andThen]
  cases hrun : p w with
  | mk ending w' =>
    rw [hrun] at hfirst
    cases ending with
    | finished a => exact hfirst.trans (hk a w')
    | unwinding panic => exact hfirst
    | outOfDepth => exact hfirst

theorem Stepwise.bind {p : Run σ α} {k : α → Run σ β} (hp : p.Stepwise) (hk : ∀ a, (k a).Stepwise) :
    (p >>= k).Stepwise :=
  hp.andThen hk

theorem Stepwise.ite {c : Prop} [Decidable c] {p q : Run σ α} (hp : p.Stepwise) (hq : q.Stepwise) :
    (if c then p else q).Stepwise := by
  split
  · exact hp
  · exact hq

theorem stepwise_read (r : Ref) (facet : Facet α) : Stepwise (read r facet : Run σ α) := fun _ => .refl

theorem stepwise_record {entry : Entry} (h : entry.IsQuiet) : Stepwise (record entry : Run σ Unit) :=
  fun w => .single (.write w.state [entry] fun _ hmem => List.mem_singleton.mp hmem ▸ h)

theorem stepwise_report (e : Event) : Stepwise (report e : Run σ Unit) := stepwise_record trivial

theorem stepwise_inquire {γ : Type 1} {q : Inquiry σ γ} {k : γ → Run σ β}
    (hq : Consultation.Writes Entry.IsQuiet q) (hk : ∀ a, (k a).Stepwise) : (inquire q k).Stepwise := by
  intro w
  have hwrite : Steps w ({ w with state := (q w.state).state }.record (q w.state).written) :=
    .single (.write _ _ (hq w.state))
  simp only [inquire]
  cases (q w.state).result with
  | error panic => exact hwrite
  | ok a => exact hwrite.trans (hk a _)

theorem stepwise_consult (q : Query σ α) : Stepwise (consult q : Run σ α) := by
  intro w
  have hwrite : Steps w ({ w with state := (Inquiry.consult q w.state).state }.record
      (Inquiry.consult q w.state).written) :=
    .single (.write _ _ (Inquiry.writes_consult q (fun _ => trivial) w.state))
  simp only [consult, inquire]
  cases (Inquiry.consult q w.state).result with
  | error panic => exact hwrite
  | ok a => exact hwrite

theorem Stepwise.withBinding {body : Run σ α} (hbody : body.Stepwise) (point : JoinPoint) :
    (Run.withBinding point body).Stepwise :=
  fun _ => ((Steps.single (.bind point)).trans (hbody _)).tail (.release _)

theorem Stepwise.catching {body : Run σ α} (hbody : body.Stepwise) : (Run.catching body).Stepwise := by
  intro w
  have hrun := hbody w
  simp only [Run.catching]
  cases hend : body w with
  | mk ending w' =>
    rw [hend] at hrun
    cases ending <;> exact hrun

theorem Stepwise.onThread {body : Run σ α} (hbody : body.Stepwise) : (Run.onThread body).Stepwise :=
  fun _ => ((Steps.single .descend).trans (hbody _)).tail .ascend

theorem stepwise_step (r : Ref) : Stepwise (step r : Run σ Unit) := fun _ => .single (.advance r)

theorem stepwise_enter (r : Ref) (position : Nat) : Stepwise (enter r position : Run σ Unit) :=
  fun _ => .single (.enter r position)

end Run

open World (Step Steps)
open Run (Stepwise)

/-- Every operation is one step, or none. -/
theorem World.steps_apply (w : World σ) (op : Operation α) : Steps w (w.apply op).2 := by
  cases op with
  | read r facet => exact .refl
  | fork r => exact .single (.fork r)
  | setArguments r arguments => exact .single (.replace r arguments)
  | setAttribute r key value => exact .single (.attach r key value)
  | bind point => exact .single (.bind point)
  | release guard => exact .single (.release guard)
  | currentJoinPoint => exact .refl
  | bindingDepth => exact .refl

variable {directory : Directory σ} {engine : Engine σ}

theorem Engine.Stepwise.expose (hengine : engine.Stepwise) (r : Ref) : (engine.expose r).Stepwise := by
  intro w
  have hpublish : Steps w ((w.bind (some r) (w.invocation r).joinPoint).2.update r fun i =>
      { i with exposedAt := some w.bindings.depth }) :=
    (Steps.single (.publish r)).tail (.remember r _)
  have hproceed := hpublish.trans (hengine (.proceed r) _)
  simp only [Engine.expose]
  cases hrun : engine (.proceed r) ((w.bind (some r) (w.invocation r).joinPoint).2.update r fun i =>
      { i with exposedAt := some w.bindings.depth }) with
  | mk ending w' =>
    rw [hrun] at hproceed
    simp only [World.bind, Bindings.bind] at hrun ⊢
    rw [hrun]
    cases ending with
    | finished outcome => exact (hproceed.tail (.remember r _)).tail (.release _)
    | unwinding panic => exact hproceed.tail (.release _)
    | outOfDepth => exact hproceed.tail (.release _)

/-- Every program runs in steps, if what it asks of the engine does. -/
theorem Program.stepwise_run (hengine : engine.Stepwise) (p : Program σ α) :
    (p.run directory engine).Stepwise := by
  induction p with
  | done a => exact Run.stepwise_finish a
  | andThen first next ihfirst ihnext => exact ihfirst.andThen ihnext
  | consult q => exact Run.stepwise_consult q
  | perform op => exact fun w => w.steps_apply op
  | proceed r => exact hengine (.proceed r)
  | expose r => exact hengine.expose r
  | invoke name request target =>
    simp only [Program.run]
    cases directory name with
    | none => exact Run.stepwise_finish none
    | some proxy => exact (hengine (.call proxy request target)).andThen fun _ => Run.stepwise_finish _
  | withBinding point body ih => exact ih.withBinding point
  | catching body ih => exact ih.catching
  | onThread body ih => exact ih.onThread

/-- Where the target may be run, running it is a sequence of steps. -/
theorem Target.steps_run (hengine : engine.Stepwise) (target : Target σ) {w : World σ}
    {invocation : Option Ref} {this : Value} {method : Method} {arguments : List Value}
    (hreach : Step w (w.record
      [.occurrence (.reached invocation this method arguments w.thread w.bindings)])) :
    Steps w (target.run directory engine invocation this method arguments w).2 := by
  have htarget : ((target this method arguments).run directory engine).Stepwise :=
    Program.stepwise_run hengine _
  exact (Steps.single hreach).trans (htarget.bind (fun _ => Run.stepwise_finish _) _)

theorem Behaviour.stepwise_run (hengine : engine.Stepwise) (r : Ref) (b : Behaviour σ) :
    (b.run directory engine r).Stepwise := by
  have hproceed : (engine (.proceed r)).Stepwise := hengine (.proceed r)
  cases b with
  | around body => exact (body r).stepwise_run hengine
  | before advice =>
    refine (Run.stepwise_read r .method).bind fun method => (Run.stepwise_read r .arguments).bind
      fun arguments => (Run.stepwise_read r .this).bind fun this => ?_
    refine ((advice method arguments this).stepwise_run hengine).bind fun result => ?_
    cases result with
    | error failure => exact Run.stepwise_finish _
    | ok _ => exact hproceed
  | afterReturning advice =>
    refine hproceed.bind fun outcome => ?_
    cases outcome with
    | error failure => exact Run.stepwise_finish _
    | ok returned =>
      refine (Run.stepwise_read r .method).bind fun method => (Run.stepwise_read r .arguments).bind
        fun arguments => (Run.stepwise_read r .this).bind fun this => ?_
      exact ((advice returned method arguments this).stepwise_run hengine).bind
        fun _ => Run.stepwise_finish _
  | afterThrowing advice =>
    refine hproceed.bind fun outcome => ?_
    cases outcome with
    | ok returned => exact Run.stepwise_finish _
    | error failure =>
      refine (Run.stepwise_consult (advice.handles failure)).bind fun handled => ?_
      cases handled with
      | false => exact Run.stepwise_finish _
      | true =>
        refine (Run.stepwise_read r .call).bind fun call => (Run.stepwise_report _).bind fun _ => ?_
        exact ((advice.afterThrowing r failure).stepwise_run hengine).bind
          fun _ => Run.stepwise_finish _
  | instrumented label =>
    refine hproceed.bind fun outcome => (Run.stepwise_read r .call).bind fun call =>
      (Run.stepwise_read r .method).bind fun method => ?_
    cases outcome with
    | ok returned => exact (Run.stepwise_report _).bind fun _ => Run.stepwise_finish _
    | error failure => exact (Run.stepwise_report _).bind fun _ => Run.stepwise_finish _
  | exposing => exact hengine.expose r

theorem Engine.Stepwise.advance (hengine : engine.Stepwise) (r : Ref) (links : List (Link σ)) :
    ∀ position, (engine.advance directory r position links).Stepwise := by
  induction links with
  | nil =>
    intro position w
    -- the event comes first and leaves the invocation as it is
    exact (Run.stepwise_report _ w).trans (Target.steps_run hengine _ (.reach r))
  | cons link rest ih =>
    intro position
    cases link with
    | plain interceptor =>
      exact (Run.stepwise_step r).bind fun _ => (Run.stepwise_read r .call).bind fun _ =>
        (Run.stepwise_report _).bind fun _ => (Run.stepwise_enter r position).bind fun _ =>
          interceptor.behaviour.stepwise_run hengine r
    | dynamic interceptor accepts =>
      refine (Run.stepwise_step r).bind fun _ => (Run.stepwise_read r .targetClass).bind fun c =>
        (Run.stepwise_read r .arguments).bind fun arguments => (Run.stepwise_record (by trivial)).bind
          fun _ => (Run.stepwise_read r .method).bind fun method =>
            (Run.stepwise_consult (accepts method c arguments)).bind fun accepted => ?_
      cases accepted with
      | true =>
        exact (Run.stepwise_read r .call).bind fun _ => (Run.stepwise_report _).bind fun _ =>
          (Run.stepwise_enter r position).bind fun _ => interceptor.behaviour.stepwise_run hengine r
      | false =>
        exact (Run.stepwise_read r .call).bind fun _ => (Run.stepwise_report _).bind fun _ =>
          (Run.stepwise_record (by trivial)).bind fun _ => ih (position + 1)

theorem Engine.Stepwise.proceed (hengine : engine.Stepwise) (r : Ref) :
    (engine.proceed directory r).Stepwise :=
  (Run.stepwise_record (by trivial)).andThen fun _ w =>
    hengine.advance r (w.invocation r).ahead (w.invocation r).entered w

theorem Engine.Stepwise.call (hengine : engine.Stepwise) (proxy : Proxy σ) (request : Request)
    (target : Target σ) : (engine.call directory proxy request target).Stepwise := by
  refine Run.stepwise_inquire (proxy.writes_chainFor _ _) fun resolved => ?_
  cases resolved with
  | error e => exact Run.stepwise_finish _
  | ok chain =>
    exact .ite (fun _ => Target.steps_run hengine target (.reachAtOnce _ _ _))
      fun _ => (Steps.single (.start request chain target)).trans (hengine _ _)

/-- **Every run is a sequence of steps**, to whatever depth calls are nested in it. -/
theorem Engine.stepwise_ofDepth (directory : Directory σ) (depth : Nat) :
    (Engine.ofDepth directory depth).Stepwise := by
  induction depth with
  | zero => exact fun _ _ => .refl
  | succ depth ih =>
    intro a
    cases a with
    | proceed r => exact ih.proceed r
    | call proxy request target => exact ih.call proxy request target

namespace World

/-- The worlds that a session can come to: it runs programs, resolves chains, and keeps invocations
that it starts itself, in any order. -/
inductive Reachable : World σ → Prop where
  | initial (state : σ) : Reachable { state }
  | run {w : World σ} {α : Type} (h : Reachable w) (directory : Directory σ) (depth : Nat)
    (p : Program σ α) : Reachable (p.run directory (Engine.ofDepth directory depth) w).2
  | resolve {w : World σ} (h : Reachable w) (proxy : Proxy σ) (method : Method)
    (targetClass : Option Class) :
    Reachable ({ w with state := (proxy.chainFor method targetClass w.state).state }.record
      (proxy.chainFor method targetClass w.state).written)
  | start {w : World σ} (h : Reachable w) (request : Request) (chain : Chain σ) (target : Target σ) :
    Reachable (w.start request chain target).2
  | report {w : World σ} (h : Reachable w) (e : Event) : Reachable (w.record [.event e])

/-- What holds at first and is kept by every step holds in every world that can be reached. -/
theorem Reachable.induct {Inv : World σ → Prop} (hinitial : ∀ state, Inv { state })
    (hstep : ∀ {w w'}, Step w w' → Inv w → Inv w') {w : World σ} (h : Reachable w) : Inv w := by
  induction h with
  | initial state => exact hinitial state
  | run _ directory depth p ih =>
    exact (p.stepwise_run (Engine.stepwise_ofDepth directory depth) _).keeps hstep ih
  | resolve _ proxy method targetClass ih =>
    exact hstep (.write _ _ (proxy.writes_chainFor method targetClass _)) ih
  | start _ request chain target ih => exact hstep (.start request chain target) ih
  | report _ e ih =>
    exact hstep (.write _ [.event e] fun _ hmem => List.mem_singleton.mp hmem ▸ trivial) ih

end World

end Interception
