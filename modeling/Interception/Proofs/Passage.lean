import Interception.Proofs.Assembly

/-! The passage of a call through its chain comes to the same as the nested reading of the advisors. One
call of the engine advances an invocation by one link, whose interceptor asks the engine to advance it
further; by induction on the layers this unrolls to what each layer does around those inside it. -/

namespace Interception

variable {σ : Type} {directory : Directory σ} {base depth : Nat} {request : Request} {target : Target σ}
  {position : Nat} {links : List (Link σ)} {r : Ref} {i : Invocation σ}

/-- Anywhere in the chain. -/
def anywhere (_ : Nat) : Prop := True

/-- The invocation is of the request, for the target, and stands in front of the links, the first of
which has the position. -/
structure Invocation.Stands (request : Request) (target : Target σ) (position : Nat)
    (links : List (Link σ)) (i : Invocation σ) : Prop where
  isOf : i.IsOf request
  target : i.target = target
  entered : i.entered = position
  ahead : i.chain.links.drop position = links

namespace Invocation

theorem IsOf.moved (h : i.IsOf request) (arguments : List Value) (n : Nat) :
    { i with arguments, entered := n }.IsOf request :=
  ⟨h.this, h.method, h.targetClass⟩

theorem Stands.withArguments (h : i.Stands request target position links) (arguments : List Value) :
    { i with arguments }.Stands request target position links :=
  ⟨⟨h.isOf.this, h.isOf.method, h.isOf.targetClass⟩, h.target, h.entered, h.ahead⟩

theorem Stands.withExposedAt (h : i.Stands request target position links) (slot : Option Nat) :
    { i with exposedAt := slot }.Stands request target position links :=
  ⟨⟨h.isOf.this, h.isOf.method, h.isOf.targetClass⟩, h.target, h.entered, h.ahead⟩

/-- Past a link. -/
theorem Stands.step {link : Link σ} (h : i.Stands request target position (link :: links)) :
    { i with entered := position + 1 }.Stands request target (position + 1) links := by
  refine ⟨⟨h.isOf.this, h.isOf.method, h.isOf.targetClass⟩, h.target, rfl, ?_⟩
  change i.chain.links.drop (position + 1) = links
  rw [← List.tail_drop, h.ahead]
  rfl

end Invocation

open Run (Acts Settles)
open Consultation (answer)

/-! ### Interceptors -/

section Behaviour

variable {inner : List Value → Query σ (Outcome × List Value)}

/-- An interceptor does its conduct around what the rest of the chain comes to. -/
theorem Behaviour.Conducts.acts {behaviour : Behaviour σ} {conduct : Conduct σ}
    (h : behaviour.Conducts directory base request conduct) (hdepth : base ≤ depth)
    (hi : i.Stands request target position links)
    (hinner : ∀ j : Invocation σ, j.Stands request target position links →
      Acts anywhere r j (Engine.ofDepth directory depth (.proceed r)) (inner j.arguments)) :
    Acts anywhere r i (behaviour.run directory (Engine.ofDepth directory depth) r)
      (conduct.wrap inner i.arguments) := by
  have hend : ∀ (j : Invocation σ) (outcome : Outcome),
      Acts anywhere r j (Run.finish outcome) (answer (outcome, j.arguments)) :=
    fun j outcome => (Run.acts_finish outcome).weaken fun _ _ => trivial
  cases h with
  | @before advice run h =>
    have hadvice : ((advice i.method i.arguments i.this).run directory
        (Engine.ofDepth directory depth)).Settles (run i.arguments) := by
      rw [hi.isOf.method, hi.isOf.this]
      exact h i.arguments depth hdepth
    refine .of_read (.of_read (.of_read (hadvice.acts.bind_of_kept fun result => ?_)))
    cases result with
    | error failure => exact hend i _
    | ok _ => exact hinner i hi
  | @afterReturning advice run h =>
    refine (hinner i hi).bind fun outcome arguments n _ => ?_
    cases outcome with
    | error failure => exact hend _ _
    | ok returned =>
      have hadvice : ((advice returned i.method arguments i.this).run directory
          (Engine.ofDepth directory depth)).Settles (run returned arguments) := by
        rw [hi.isOf.method, hi.isOf.this]
        exact h returned arguments depth hdepth
      refine .of_read (.of_read (.of_read (hadvice.acts.bind_of_kept fun result => ?_)))
      cases result with
      | error failure => exact hend _ _
      | ok _ => exact hend _ _
  | @afterThrowing advice run h =>
    refine (hinner i hi).bind fun outcome arguments n _ => ?_
    cases outcome with
    | ok returned => exact hend _ _
    | error failure =>
      refine (Run.settles_consult _).acts.bind_of_kept fun handled => ?_
      cases handled with
      | false => exact hend _ _
      | true =>
        refine .of_read ((Run.acts_report _).bind_of_answer fun m hm => ?_)
        subst hm
        refine (h failure depth hdepth r _ (hi.isOf.moved arguments _)).bind_of_kept fun result => ?_
        cases result with
        | error other => exact hend _ _
        | ok _ => exact hend _ _
  | @around body prologue epilogue first last hbody hfirst hlast =>
    change Acts anywhere r i ((body r).run directory (Engine.ofDepth directory depth)) _
    rw [hbody]
    refine (hfirst depth hdepth r i hi.isOf).bind fun begun arguments n hn => ?_
    subst hn
    cases begun with
    | error failure => exact hend _ _
    | ok _ =>
      refine (hinner _ (hi.withArguments arguments)).bind fun outcome arguments' m _ => ?_
      exact (hlast outcome depth hdepth r _ (hi.isOf.moved arguments' m)).weaken fun _ _ => trivial
  | instrumented label =>
    rw [Conduct.transparent_wrap]
    rw [← Consultation.andThen_answer (inner i.arguments)]
    refine (hinner i hi).bind fun outcome arguments n _ => .of_read (.of_read ?_)
    cases outcome with
    | ok returned =>
      refine (Run.acts_report _).bind_of_answer fun m hm => ?_
      subst hm
      exact hend _ _
    | error failure =>
      refine (Run.acts_report _).bind_of_answer fun m hm => ?_
      subst hm
      exact hend _ _
  | exposing =>
    rw [Conduct.transparent_wrap]
    exact Acts.expose fun slot => hinner _ (hi.withExposedAt _)

end Behaviour

/-! ### Links -/

theorem Target.settles_run {engine : Engine σ} {this : Value} {method : Method} {arguments : List Value}
    {q : Query σ (Except Cause Value)} (h : ((target this method arguments).run directory engine).Settles q)
    (invocation : Option Ref) :
    (target.run directory engine invocation this method arguments).Settles
      (do pure ((← q).mapError .target)) := by
  intro w
  have hbody : ((target this method arguments).run directory engine >>= fun result =>
      (pure (result.mapError .target) : Run σ Outcome)).Settles (do pure ((← q).mapError .target)) :=
    h.andThen fun result => Run.settles_finish _
  exact (hbody (w.record
    [.occurrence (.reached invocation this method arguments w.thread w.bindings)])).of_record rfl rfl

/-- An invocation that stands in front of links advances over these. -/
theorem Engine.acts_proceed {engine : Engine σ} {q : Query σ (Outcome × List Value)}
    (hi : i.Stands request target position links)
    (h : Acts anywhere r i (engine.advance directory r position links) q) :
    Acts anywhere r i (engine.proceed directory r) q := by
  refine (Run.acts_occurrence _).bind_of_answer fun n hn => ?_
  subst hn
  refine h.congr fun w hw => ?_
  have hahead : i.ahead = links := by
    rw [Invocation.ahead, hi.entered]
    exact hi.ahead
  dsimp only
  rw [hw, hi.entered, hahead]

section Chain

variable {site : Site} {has : Bool} {advisor : Advisor σ} {conduct : Conduct σ}
  {layers inside : List (Layer σ)} {final : List Value → Query σ Outcome}

theorem Nesting.through_of_rejected (happlies : Nesting.applies site has advisor = answer false) :
    Nesting.through site has final ((advisor, conduct) :: inside) =
      Nesting.through site has final inside := by
  funext arguments
  rw [Nesting.through, happlies]
  exact Consultation.answer_andThen _ _

theorem Nesting.through_of_accepted (happlies : Nesting.applies site has advisor = answer true)
    (arguments : List Value) :
    Nesting.through site has final ((advisor, conduct) :: inside) arguments = (do
      if ← Nesting.admits site arguments advisor
      then conduct.wrap (Nesting.through site has final inside) arguments
      else Nesting.through site has final inside arguments) := by
  rw [Nesting.through, happlies]
  exact Consultation.answer_andThen _ _

/-- An interceptor that is entered, whatever event reports it. -/
theorem Behaviour.Conducts.acts_entered {behaviour : Behaviour σ}
    {inner : List Value → Query σ (Outcome × List Value)} {p : Nat}
    (h : behaviour.Conducts directory base request conduct) (hdepth : base ≤ depth)
    (hi : i.Stands request target position links)
    (hinner : ∀ j : Invocation σ, j.Stands request target position links →
      Acts anywhere r j (Engine.ofDepth directory depth (.proceed r)) (inner j.arguments))
    (event : CallId → Event) :
    Acts anywhere r i (Run.read r .call >>= fun call => Run.report (event call) >>= fun _ =>
        Run.enter r p >>= fun _ => behaviour.run directory (Engine.ofDepth directory depth) r)
      (conduct.wrap inner i.arguments) := by
  refine .of_read ((Run.acts_report _).bind_of_answer fun n hn => ?_)
  subst hn
  refine (Run.acts_enter p).bind_of_answer fun n hn => ?_
  subst hn
  exact h.acts hdepth hi hinner

/-- Advancing over the links of layers comes to the same as the layers around the target. -/
theorem Assembled.acts_advance (h : Assembled directory base request site has layers links)
    (hmethod : site.method = request.method) (hclass : site.targetClass = request.actualClass)
    (htarget : ∀ arguments depth, base ≤ depth → ∀ invocation,
      (target.run directory (Engine.ofDepth directory depth) invocation request.this request.method
        arguments).Settles (final arguments)) :
    ∀ {position depth : Nat} {i : Invocation σ}, base + links.length ≤ depth →
      i.Stands request target position links →
      Acts anywhere r i ((Engine.ofDepth directory depth).advance directory r position links)
        (Nesting.through site has final layers i.arguments) := by
  induction h with
  | nil =>
    intro position depth i hdepth hi
    have hrun : ∀ w : World σ, w.invocation r = i →
        (Engine.ofDepth directory depth).advance directory r position [] w =
          (Run.report (.invokingTarget i.call i.method) >>= fun _ =>
            i.target.run directory (Engine.ofDepth directory depth) (some r) i.this i.method
              i.arguments) w := by
      rintro w rfl
      rfl
    refine Acts.congr ?_ hrun
    refine (Run.acts_report _).bind_of_answer fun n hn => ?_
    subst hn
    rw [hi.target, hi.isOf.this, hi.isOf.method]
    exact (htarget i.arguments depth hdepth (some r)).acts.weaken fun _ _ => trivial
  | passed happlies h ih =>
    intro position depth i hdepth hi
    rw [Nesting.through_of_rejected happlies]
    exact ih hdepth hi
  | @linked advisor conduct interceptor inside links happlies hconduct h ih =>
    intro position depth i hdepth hi
    obtain ⟨lower, rfl⟩ : ∃ lower, depth = lower + 1 :=
      ⟨depth - 1, by rw [List.length_cons] at hdepth; omega⟩
    have hlower : base + links.length ≤ lower := by
      rw [List.length_cons] at hdepth
      omega
    have hbase : base ≤ lower + 1 := by omega
    -- one level further down the engine advances over the links inside
    have hinner : ∀ j : Invocation σ, j.Stands request target (position + 1) links →
        Acts anywhere r j (Engine.ofDepth directory (lower + 1) (.proceed r))
          (Nesting.through site has final inside j.arguments) :=
      fun j hj => Engine.acts_proceed hj (ih hlower hj)
    have hstep : ∀ n, n = i.entered + 1 →
        { i with entered := n }.Stands request target (position + 1) links := by
      rintro _ rfl
      rw [hi.entered]
      exact hi.step
    rw [Nesting.through_of_accepted happlies]
    rcases advisor.link_cases interceptor site with ⟨accepts, hlink, hadmits⟩ | ⟨hlink, hadmits⟩
    · rw [hlink, hadmits, hmethod, hclass, ← hi.isOf.method, ← hi.isOf.targetClass]
      refine Run.acts_step.bind_of_answer fun n hn => .of_read (.of_read ?_)
      have hi' := hstep n hn
      refine (Run.acts_occurrence _).bind_of_answer fun _ hn => .of_read ?_
      subst hn
      refine (Run.settles_consult _).acts.bind_of_kept fun admitted => ?_
      cases admitted with
      | true => exact hconduct.acts_entered hbase hi' hinner _
      | false =>
        refine .of_read ((Run.acts_report _).bind_of_answer fun _ hn => ?_)
        subst hn
        refine (Run.acts_occurrence _).bind_of_answer fun _ hn => ?_
        subst hn
        exact ih (by omega) hi'
    · rw [hlink, hadmits]
      change Acts _ _ _ _ ((answer true).andThen _)
      rw [Consultation.answer_andThen]
      refine Run.acts_step.bind_of_answer fun n hn => ?_
      exact hconduct.acts_entered hbase (hstep n hn) hinner _

/-- Advancing over a link that publishes the call comes to the same as over the links behind it. -/
theorem Assembled.acts_published (h : Assembled directory base request site has layers links)
    (hmethod : site.method = request.method) (hclass : site.targetClass = request.actualClass)
    (htarget : ∀ arguments depth, base ≤ depth → ∀ invocation,
      (target.run directory (Engine.ofDepth directory depth) invocation request.this request.method
        arguments).Settles (final arguments)) (hdepth : base + links.length < depth)
    (hi : i.Stands request target position (Proxy.exposingLink :: links)) :
    Acts anywhere r i
      ((Engine.ofDepth directory depth).advance directory r position (Proxy.exposingLink :: links))
      (Nesting.through site has final layers i.arguments) := by
  obtain ⟨lower, rfl⟩ : ∃ lower, depth = lower + 1 := ⟨depth - 1, by omega⟩
  have hinner : ∀ j : Invocation σ, j.Stands request target (position + 1) links →
      Acts anywhere r j (Engine.ofDepth directory (lower + 1) (.proceed r))
        (Nesting.through site has final layers j.arguments) :=
    fun j hj => Engine.acts_proceed hj (h.acts_advance hmethod hclass htarget (by omega) hj)
  have hexposing : Behaviour.exposing.Conducts directory base request Conduct.transparent := .exposing
  rw [← Conduct.transparent_wrap (Nesting.through site has final layers)]
  refine Run.acts_step.bind_of_answer fun n hn => ?_
  have hstep : { i with entered := n }.Stands request target (position + 1) links := by
    rw [hn, hi.entered]
    exact hi.step
  exact hexposing.acts_entered (by omega) hstep hinner _

/-- Where no link is contributed, the layers come to the target alone. -/
theorem Assembled.through_eq (h : Assembled directory base request site has layers []) :
    Nesting.through site has final layers = Nesting.through site has final [] := by
  generalize hlinks : ([] : List (Link σ)) = links at h
  induction h with
  | nil => rfl
  | passed happlies h ih =>
    rw [Nesting.through_of_rejected happlies]
    exact ih hlinks
  | linked => cases hlinks

end Chain

/-! ### Calls -/

theorem Run.Settles.inquire {α : Type 1} {p : Inquiry σ α} {a : α} {k : α → Run σ Outcome}
    {q : Query σ Outcome} (hk : (k a).Settles q) (h : p.Gives a) : (Run.inquire p k).Settles q := by
  intro w
  obtain ⟨hresult, hstate, hnotes⟩ := h w.state
  have hrun : Run.inquire p k w = k a (w.record (p w.state).written) := by
    simp only [Run.inquire, hresult, hstate]
  exact (hk _).of_record hnotes hrun

/-- What an invocation comes to that is started for a call, the call comes to. -/
theorem Engine.settles_start {chain : Chain σ} {inner : List Value → Query σ (Outcome × List Value)}
    (h : ∀ r (i : Invocation σ), i.Stands request target 0 chain.links →
      Acts anywhere r i ((Engine.ofDepth directory depth).advance directory r 0 chain.links)
        (inner i.arguments)) :
    Settles (fun w => Engine.ofDepth directory (depth + 1)
        (.proceed (w.start request chain target).1) (w.start request chain target).2)
      (do let (outcome, _) ← inner request.arguments; pure outcome) := by
  intro w
  let v : World σ := { w with calls := w.calls + 1 }
  let i : Invocation σ := .start ⟨w.calls⟩ request chain target
  have hstands : i.Stands request target 0 chain.links := ⟨⟨rfl, rfl, rfl⟩, rfl, rfl, rfl⟩
  have hsize : (v.push i).1.index < (v.push i).2.invocations.size := by
    simp [World.push]
  have hacts : Acts anywhere (v.push i).1 i
      (Engine.ofDepth directory (depth + 1) (.proceed (v.push i).1)) (inner i.arguments) :=
    Engine.acts_proceed hstands (h _ i hstands)
  obtain ⟨hcomes, _⟩ := hacts (v.push i).2 hsize (v.invocation_push i)
  have hanswer : Run.ComesTo (some (v.push i).1) none id (v.push i).2
      (Engine.ofDepth directory (depth + 1) (.proceed (v.push i).1))
      ((inner i.arguments).andThen fun c => answer c.1) :=
    hcomes.answering fun _ => rfl
  refine ⟨?_, hanswer.state, hanswer.ending⟩
  have hleaves := hanswer.leaves
  refine ⟨hleaves.notes, hleaves.waiting, hleaves.depth, fun slot _ => hleaves.slots slot (Option.some_ne_none slot).symm, ?_, ?_⟩
  · exact Nat.le_trans (by simp [World.push, v]) hleaves.size
  · intro r hr _
    have hne : some (v.push i).1 ≠ some r := by
      rintro heq
      cases heq
      exact Nat.lt_irrefl _ hr
    have hsize : r.index < (v.push i).2.invocations.size :=
      Nat.lt_of_lt_of_le hr (by simp [World.push, v])
    exact (hleaves.others r hsize hne).trans (World.invocation_push_of_lt hr i)

/-- **A call comes to the same as the advisors nested in one another.** The chain is resolved once and
walked by an invocation that its interceptors advance. With pure filters, and whatever the advice of the
advisors that apply does before and after the rest of the call, the outcome is that of the one pass over
the list, and so is what advice and target make of the state and what they write. As they may log what
they are given, they run in the same order and with the same arguments. Other calls and all bindings stay
as they were. -/
theorem Engine.settles_call (directory : Directory σ) (proxy : Proxy σ) (request : Request)
    (target : Target σ) (layers : List (Layer σ)) (returned : List Value → Query σ (Except Cause Value))
    (base depth : Nat) (hregistry : proxy.registry = .standard)
    (hadvisors : proxy.advisors = layers.map Prod.fst)
    (hpure : ∀ layer ∈ layers,
      layer.1.IsPure (.of request.method request.targetClass proxy.config.preFiltered))
    (hconduct : ∀ layer ∈ layers,
      layer.Applicable (.of request.method request.targetClass proxy.config.preFiltered) layers →
        layer.Conducts directory base request)
    (htarget : ∀ arguments,
      (target request.this request.method arguments).Settles directory base (returned arguments))
    (hdepth : base + layers.length + 2 ≤ depth) :
    (Engine.call directory (Engine.ofDepth directory depth) proxy request target).Settles
      (Nesting.call (.of request.method request.targetClass proxy.config.preFiltered) layers returned
        request.arguments) := by
  obtain ⟨has, links, hnested, hassembled, hlength, hchain⟩ :=
    Proxy.gives_chainFor hregistry hadvisors rfl hpure hconduct
  have hinnermost : ∀ arguments depth, base ≤ depth → ∀ invocation,
      (target.run directory (Engine.ofDepth directory depth) invocation request.this request.method
        arguments).Settles (Nesting.innermost returned arguments) :=
    fun arguments depth hdepth invocation => Target.settles_run (htarget arguments depth hdepth) invocation
  obtain ⟨lower, rfl⟩ : ∃ lower, depth = lower + 1 := ⟨depth - 1, by omega⟩
  rw [Nesting.call_of_introduced hnested]
  refine Run.Settles.inquire ?_ hchain
  cases proxy.config.exposeInvocation with
  | true =>
    exact Engine.settles_start fun r i hi =>
      hassembled.acts_published rfl rfl hinnermost (by omega) hi
  | false =>
    cases links with
    | nil =>
      -- no invocation is made for a call to which nothing applies
      rw [hassembled.through_eq]
      simp only [Nesting.through, bind_assoc, pure_bind, bind_pure]
      exact hinnermost request.arguments (lower + 1) (by omega) none
    | cons link links =>
      exact Engine.settles_start fun r i hi =>
        hassembled.acts_advance rfl rfl hinnermost (by omega) hi

/-- What was run, with the arguments that it was given. -/
abbrev Log := List (String × List Value)

/-- Logs what is run and answers. -/
def logged {α : Type} (name : String) (arguments : List Value) (a : α) : Query Log α := do
  Consultation.modify fun log => log ++ [(name, arguments)]
  pure a

/-- Before advice for every call. -/
def checking : Layer Log :=
  (.always (.before fun _ arguments _ => .consult (logged "check" arguments (.ok ()))),
    .before fun arguments => logged "check" arguments (.ok ()))

/-- A prologue that replaces the arguments. -/
def doubling (r : Ref) : Program Log (Except Failure Unit) := do
  Program.perform (.setArguments r [.int32 2])
  pure (.ok ())

/-- Around advice that replaces the arguments. -/
def converting : Layer Log :=
  (.always (.around ⟨some 0, .around (Program.around doubling fun _ outcome => pure outcome)⟩),
    .around (fun _ => pure (.ok (), [.int32 2])) fun outcome arguments => pure (outcome, arguments))

/-- Advice that no adapter understands, for classes of another kind. -/
def locking : Layer Log :=
  (.conditional { classFilter := .assignableTo "Lockable" } (.extension "lock" .unit), .transparent)

/-- After-returning advice for calls whose arguments were replaced. -/
def auditing : Layer Log :=
  (.conditional { methodMatcher := .ofArguments fun _ arguments => pure (arguments == [.int32 2]) }
      (.afterReturning fun _ _ arguments _ => .consult (logged "audit" arguments (.ok ()))),
    .afterReturning fun _ arguments => logged "audit" arguments (.ok ()))

/-- A call of no method in particular. -/
def paying : Request := { this := .unit, method := default, arguments := [.int32 1] }

theorem settles_call_audited :
    let layers : List (Layer Log) := [checking, converting, locking, auditing]
    let proxy : Proxy Log := { config := { exposeInvocation := true }, advisors := layers.map Prod.fst }
    let returned (arguments : List Value) : Query Log (Except Cause Value) :=
      logged "target" arguments (.ok .unit)
    let target : Target Log := fun _ _ arguments => .consult (returned arguments)
    let nested := Nesting.call (.of paying.method none false) layers returned paying.arguments
    (Engine.call (fun _ => none) (Engine.ofDepth (fun _ => none) 6) proxy paying target).Settles nested ∧
      (nested []).state = [("check", [.int32 1]), ("target", [.int32 2]), ("audit", [.int32 2])] := by
  intro layers proxy returned target nested
  refine ⟨?_, by decide +kernel⟩
  let site : Site := .of paying.method none false
  have hchecking : checking.Conducts (fun _ => none) 0 paying :=
    ⟨_, rfl, .before fun _ _ _ => Run.settles_consult _⟩
  have hdoubling : Program.Acts (fun _ => none) 0 paying doubling fun _ => pure (.ok (), [.int32 2]) := by
    intro depth _ r i _
    refine (Run.acts_setArguments [.int32 2]).bind_of_answer fun n hn => ?_
    subst hn
    exact Run.acts_finish _
  have hconverting : converting.Conducts (fun _ => none) 0 paying :=
    ⟨_, rfl, .around (fun _ _ => rfl) hdoubling fun _ _ _ _ _ _ => Run.acts_finish _⟩
  -- the class declares no such interface, so the advisor does not apply
  have hlocking : ¬ locking.Applicable site layers := by
    rintro ⟨_, _, happlies⟩
    have hverdict := congrArg (fun q => (q ([] : Log)).result) happlies
    cases hverdict
  have hauditing : auditing.Conducts (fun _ => none) 0 paying :=
    ⟨_, rfl, .afterReturning fun _ _ _ _ => Run.settles_consult _⟩
  have hpure : ∀ layer ∈ layers, layer.1.IsPure site := by
    have hany : (ClassFilter.accepts site.targetClass .any : Query Log Bool).IsPure :=
      ⟨true, by rw [ClassFilter.accepts]; rfl⟩
    have hlockable : (ClassFilter.accepts site.targetClass (.assignableTo "Lockable") :
        Query Log Bool).IsPure := ⟨_, by rw [ClassFilter.accepts]; rfl⟩
    have hmethod : (MethodFilter.accepts site.method site.targetClass .any : Query Log Bool).IsPure :=
      ⟨true, rfl⟩
    simp only [layers, List.forall_mem_cons]
    exact ⟨⟨hany, hmethod, fun _ => hmethod⟩, ⟨hany, hmethod, fun _ => hmethod⟩,
      ⟨hlockable, hmethod, fun _ => hmethod⟩, ⟨hany, hmethod, fun _ => hmethod⟩, List.forall_mem_nil _⟩
  have hconduct : ∀ layer ∈ layers, layer.Applicable site layers →
      layer.Conducts (fun _ => none) 0 paying := by
    simp only [layers, List.forall_mem_cons]
    exact ⟨fun _ => hchecking, fun _ => hconverting, fun h => absurd h hlocking, fun _ => hauditing,
      List.forall_mem_nil _⟩
  exact Engine.settles_call (fun _ => none) proxy paying target layers returned 0 6 rfl rfl hpure
    hconduct (fun _ _ _ => Run.settles_consult _) (by decide)

end Interception
