import Interception.Proofs.Course

/-! How a run unfolds. An advance encloses everything that is run where it has arrived, up to where it
ends. Where that is an interceptor which reports how its call came out, a run of its own lies inside, and
the report follows on it. Whatever else is done is done aside: no invocation advances, is started or is
forked by it. So a course tells what its run does, and what holds of such runs can be proved along the
way in which they unfold. -/

namespace Interception

variable {σ α β : Type}

namespace World

/-- The journal of the second world is that of the first, and the entries gained. -/
def Gains (w : World σ) (gained : List Entry) (w' : World σ) : Prop :=
  w'.journal.toList = w.journal.toList ++ gained

/-- What an entry may be that is written aside. What it pictures of an invocation shows the class that the
invocation has. -/
def Aside (w : World σ) : Entry → Prop
  | .note _ => True
  | .event (.chainResolved _ _ _ _) | .event (.handlingFailure _ _) => True
  | .occurrence (.asked _ _) | .occurrence (.answered _ _) => True
  | .occurrence (.reached none _ _ _ _ _) => True
  | .occurrence (.bound _ _ none _) => True
  | .occurrence (.bound _ _ (some r) point) => point.targetClass = (w.invocation r).targetClass
  | .occurrence (.replaced r _ _ point _ _) => point.targetClass = (w.invocation r).targetClass
  | _ => False

variable {w w' w'' : World σ} {gained more entries : List Entry} {entry : Entry}

theorem gains_nil (w : World σ) : w.Gains [] w := (List.append_nil _).symm

theorem Gains.append (h : w.Gains gained w') (h' : w'.Gains more w'') :
    w.Gains (gained ++ more) w'' := by
  rw [Gains, h', h, List.append_assoc]

theorem gains_record (w : World σ) (entries : List Entry) : w.Gains entries (w.record entries) :=
  Array.toList_appendList

theorem gains_of_eq (h : w'.journal = w.journal) : w.Gains [] w' := by
  rw [Gains, h, List.append_nil]

theorem Aside.unmarked (h : w.Aside entry) : entry.mark? = none := by
  cases entry with
  | note text => rfl
  | event e => rfl
  | occurrence o =>
    cases o with
    | reached invocation =>
      cases invocation with
      | none => rfl
      | some r => exact h.elim
    | asked | answered | bound | replaced => rfl
    | _ => exact h.elim

/-! ### What is done aside -/

/-- No cursor moves, and what the journal gains is written aside. -/
structure Stroke (w w' : World σ) : Prop extends Steady w w' where
  told : ∃ gained, w.Gains gained w' ∧ ∀ entry ∈ gained, w.Aside entry

/-- What is written aside of invocations can be written a moment earlier. -/
theorem Steady.aside (h : w.Steady w') (hentry : w'.Aside entry) : w.Aside entry := by
  have hclass : ∀ r, (w'.invocation r).targetClass = (w.invocation r).targetClass := fun r => by
    rw [h.invocations r]
  cases entry with
  | note text => trivial
  | event e => cases e <;> exact hentry
  | occurrence o =>
    cases o with
    | reached invocation => cases invocation <;> exact hentry
    | bound thread slot published point =>
      cases published with
      | none => trivial
      | some r =>
        calc point.targetClass = (w'.invocation r).targetClass := hentry
          _ = (w.invocation r).targetClass := hclass r
    | replaced r thread slot point before after =>
      calc point.targetClass = (w'.invocation r).targetClass := hentry
        _ = (w.invocation r).targetClass := hclass r
    | _ => exact hentry

theorem Stroke.trans (h : w.Stroke w') (h' : w'.Stroke w'') : w.Stroke w'' := by
  obtain ⟨gained, hgained, haside⟩ := h.told
  obtain ⟨more, hmore, haside'⟩ := h'.told
  refine ⟨h.toSteady.trans h'.toSteady, gained ++ more, hgained.append hmore, ?_⟩
  intro entry hentry
  rcases List.mem_append.mp hentry with hentry | hentry
  · exact haside entry hentry
  · exact h.toSteady.aside (haside' entry hentry)

theorem stroke_of_steady (h : w.Steady w') (hjournal : w'.journal = w.journal) : w.Stroke w' :=
  ⟨h, [], gains_of_eq hjournal, fun _ hentry => absurd hentry List.not_mem_nil⟩

theorem stroke_of_eq (hinvocations : w'.invocations = w.invocations) (hjournal : w'.journal = w.journal) :
    w.Stroke w' := by
  refine stroke_of_steady (steady_of_eq hinvocations fun r => ?_) hjournal
  rw [marks, hjournal, marks]

theorem stroke_update (w : World σ) (r : Ref) {change : Invocation σ → Invocation σ}
    (h : ∀ i : Invocation σ, i.Stays (change i)) : w.Stroke (w.update r change) :=
  stroke_of_steady (w.steady_update r h) rfl

theorem stroke_record (w : World σ) (h : ∀ entry ∈ entries, w.Aside entry) :
    w.Stroke (w.record entries) :=
  ⟨w.steady_record fun entry hentry => (h entry hentry).unmarked, entries, w.gains_record entries, h⟩

theorem stroke_entry (w : World σ) (h : w.Aside entry) : w.Stroke (w.record [entry]) :=
  w.stroke_record fun _ hentry => List.mem_singleton.mp hentry ▸ h

theorem stroke_consult {γ : Type*} (w : World σ) {q : Inquiry σ γ}
    (h : ∀ v : World σ, Consultation.Writes v.Aside q) : w.Stroke (w.consult q).2 := by
  have hstate : w.Stroke { w with state := (q w.state).state } := stroke_of_eq rfl rfl
  exact hstate.trans (stroke_record _ (h _ w.state))

theorem stroke_bind (w : World σ) (published : Option Ref) (point : JoinPoint)
    (h : w.Aside (.occurrence (.bound w.thread w.bindings.depth published point))) :
    w.Stroke (w.bind published point).2 := by
  have hbind : w.Stroke { w with bindings := (w.bindings.bind point).2 } := stroke_of_eq rfl rfl
  exact hbind.trans (stroke_entry _ h)

theorem stroke_publish (w : World σ) (r : Ref) : w.Stroke (w.publish r) := by
  have hbind : w.Stroke (w.bind (some r) (w.invocation r).joinPoint).2 := w.stroke_bind _ _ rfl
  exact hbind.trans (stroke_update _ r fun _ => rfl)

theorem stroke_release (w : World σ) (guard : Guard) : w.Stroke (w.release guard) := stroke_of_eq rfl rfl

theorem stroke_withdraw (w : World σ) (r : Ref) (ended : Ending α × World σ) :
    ended.2.Stroke (w.withdraw r ended) := by
  rcases ended with ⟨a | panic | _, v⟩
  · have hforget : v.Stroke (v.update r fun i => { i with exposedAt := (w.invocation r).exposedAt }) :=
      v.stroke_update r fun _ => rfl
    exact hforget.trans (stroke_release _ _)
  · exact v.stroke_release _
  · exact v.stroke_release _

theorem stroke_setArguments (w : World σ) (r : Ref) (arguments : List Value) :
    w.Stroke (w.setArguments r arguments) := by
  let replace (i : Invocation σ) : Invocation σ := { i with arguments }
  have hupdate : w.Stroke (w.update r replace) := w.stroke_update r fun _ => rfl
  refine hupdate.trans (Stroke.trans ?_ (stroke_entry _ rfl))
  exact stroke_of_eq rfl rfl

end World

theorem Resolution.Sound.aside {site : Site} {advisors : List (Advisor σ)} {entry : Entry}
    (h : Resolution.Sound site advisors entry) (w : World σ) : w.Aside entry := by
  cases entry with
  | note text => trivial
  | event e => exact h.elim
  | occurrence o =>
    cases o with
    | asked => trivial
    | answered => trivial
    | _ => exact h.elim

theorem Proxy.aside_chainFor (p : Proxy σ) (method : Method) (targetClass : Option Class) (w : World σ) :
    Consultation.Writes w.Aside (p.chainFor method targetClass) :=
  p.writes_chainFor_of method targetClass (fun _ hsound => hsound.1.aside w) fun _ _ _ _ => trivial

theorem Run.stroke_consult (q : Query σ α) (w : World σ) : w.Stroke (Run.consult q w).2 := by
  have hconsult := w.stroke_consult fun _ => Inquiry.writes_consult q fun _ => trivial
  rw [Run.consult, Run.inquire_eq]
  rcases hreply : w.consult (Inquiry.consult q) with ⟨_ | _, v⟩ <;> rw [hreply] at hconsult <;>
    exact hconsult

/-! ### Interceptors that report how a call came out -/

/-- One run of an interceptor that reports how its call came out. -/
structure Instrumentation (σ : Type) where
  label : String
  invocation : Ref
  /-- The position of its link. -/
  position : Nat
  /-- How deeply the calls inside of it may be nested. -/
  depth : Nat
  /-- The world in which it has been entered. -/
  begun : World σ

/-- The event reports how a call came out. -/
def Event.IsOutcome : Event → Prop
  | .completed _ _ _ | .failed _ _ _ _ => True
  | _ => False

namespace Instrumentation

variable (directory : Directory σ) (m : Instrumentation σ)

/-- What its own proceeding comes to. -/
def own : Ending Outcome × World σ := Engine.ofDepth directory m.depth (.proceed m.invocation) m.begun

/-- The event that reports what its own proceeding has come to, if that has finished. -/
def report? : Option Event :=
  let i := (m.own directory).2.invocation m.invocation
  match (m.own directory).1 with
  | .finished (.ok _) => some (.completed i.call i.method m.label)
  | .finished (.error failure) => some (.failed i.call i.method m.label failure)
  | _ => none

/-- The world in which it ends. -/
def ended : World σ :=
  match m.report? directory with
  | some e => (m.own directory).2.record [.event e]
  | none => (m.own directory).2

/-- The moment at which it reports, if it does. -/
def reporting : Course σ :=
  match m.report? directory with
  | some _ => [(.other, m.ended directory)]
  | none => []

theorem isOutcome_of_report? {e : Event} (h : m.report? directory = some e) : e.IsOutcome := by
  rw [report?] at h
  split at h
  · exact Option.some.inj h ▸ trivial
  · exact Option.some.inj h ▸ trivial
  · cases h

end Instrumentation

/-- The label of an interceptor that reports. -/
def Behaviour.label? : Behaviour σ → Option String
  | .instrumented label => some label
  | _ => none

/-- The label of the interceptor where an advance arrives, if it is one that reports. -/
def Stop.label? : Stop σ → Option String
  | .entered _ _ behaviour => behaviour.label?
  | _ => none

/-! ### Unfolding -/

/-- The run from the first world to the second, with the course, is put together of these parts. -/
inductive World.Unfolds (directory : Directory σ) : World σ → Course σ → World σ → Prop where
  | nil {w : World σ} : Unfolds directory w [] w
  | append {w v w' : World σ} {c d : Course σ} (first : Unfolds directory w c v)
    (rest : Unfolds directory v d w') : Unfolds directory w (c ++ d) w'
  | stroke {w w' : World σ} (h : w.Stroke w') : Unfolds directory w [(.other, w')] w'
  | forked {w : World σ} (r : Ref) :
    Unfolds directory w [(.forked r (w.push (w.invocation r)).1, (w.push (w.invocation r)).2)]
      (w.push (w.invocation r)).2
  | started {w : World σ} (request : Request) (chain : Chain σ) (target : Target σ) :
    Unfolds directory w
      [(.started (w.start request chain target).1, (w.start request chain target).2)]
      (w.start request chain target).2
  /-- An advance, and what is run where it arrives, unless that reports. -/
  | advanced {w v w' : World σ} {visits : List Visit} {stop : Stop σ} {c : Course σ} (r : Ref)
    (arrives : w.advance r = (visits, stop, v)) (hplain : stop.label? = none)
    (inside : Unfolds directory v c w') :
    Unfolds directory w ((.advanced r ⟨visits, stop.arrival⟩, v) :: c ++ [(.ended r, w')]) w'
  /-- An advance to an interceptor that reports. -/
  | instrumented {w : World σ} {visits : List Visit} {current : Option Nat} {c : Course σ}
    (m : Instrumentation σ)
    (arrives : w.advance m.invocation =
      (visits, .entered m.position current (.instrumented m.label), m.begun))
    (inside : Unfolds directory m.begun c (m.own directory).2) :
    Unfolds directory w
      ((.advanced m.invocation ⟨visits, .entered m.position current⟩, m.begun) ::
        (c ++ m.reporting directory) ++ [(.ended m.invocation, m.ended directory)])
      (m.ended directory)

/-- The account tells how its runs unfold. -/
def Account.Unfolding (directory : Directory σ) (p : Account σ α) : Prop :=
  ∀ w : World σ, w.Unfolds directory (p.course w) (p.run w).2

variable {directory : Directory σ}

namespace Account

theorem unfolding_finish (a : α) : Unfolding directory (finish a : Account σ α) := fun _ => .nil

theorem Unfolding.andThen {p : Account σ α} {k : α → Account σ β} (hp : p.Unfolding directory)
    (hk : ∀ a, (k a).Unfolding directory) : (p.andThen k).Unfolding directory := by
  intro w
  have hfirst := hp w
  simp only [course, run, Account.andThen] at hfirst ⊢
  rcases hrun : p w with ⟨⟨ending, v⟩, c⟩
  rw [hrun] at hfirst
  cases ending with
  | finished a => exact hfirst.append (hk a v)
  | unwinding panic => exact hfirst
  | outOfDepth => exact hfirst

theorem Unfolding.ite {c : Prop} [Decidable c] {p q : Account σ α} (hp : p.Unfolding directory)
    (hq : q.Unfolding directory) : (if c then p else q).Unfolding directory := by
  split
  · exact hp
  · exact hq

theorem unfolding_aside {p : Run σ α} (h : ∀ w, World.Stroke w (p w).2) :
    (aside p).Unfolding directory :=
  fun w => .stroke (h w)

theorem Unfolding.look {r : Ref} {k : Invocation σ → Account σ α}
    (h : ∀ i, (k i).Unfolding directory) : (look r k).Unfolding directory :=
  fun w => h _ w

theorem Unfolding.inquire {γ : Type*} {q : Inquiry σ γ} {k : γ → Account σ β}
    (hq : ∀ w : World σ, Consultation.Writes w.Aside q) (hk : ∀ a, (k a).Unfolding directory) :
    (inquire q k).Unfolding directory := by
  intro w
  have hconsult := w.stroke_consult hq
  simp only [course, run, Account.inquire]
  rcases hreply : w.consult q with ⟨_ | a, v⟩ <;> rw [hreply] at hconsult
  · exact .stroke hconsult
  · exact (World.Unfolds.stroke hconsult).append (hk a v)

theorem Unfolding.within {enter : World σ → World σ} {body : Account σ α}
    {leave : World σ → Ending α × World σ → World σ} (henter : ∀ w, World.Stroke w (enter w))
    (hbody : body.Unfolding directory) (hleave : ∀ w ended, World.Stroke ended.2 (leave w ended)) :
    (within enter body leave).Unfolding directory :=
  fun w => ((World.Unfolds.stroke (henter w)).append (hbody (enter w))).append
    (.stroke (hleave w _))

theorem Unfolding.catching {body : Account σ α} (h : body.Unfolding directory) :
    (catching body).Unfolding directory := by
  intro w
  have hbody := h w
  simp only [course, run, Account.catching, Run.catching] at hbody ⊢
  rcases hrun : body w with ⟨⟨_ | _ | _, v⟩, c⟩ <;> rw [hrun] at hbody <;> exact hbody

theorem Unfolding.withBinding {body : Account σ α} (h : body.Unfolding directory) (point : JoinPoint) :
    (withBinding point body).Unfolding directory :=
  .within (fun w => w.stroke_bind none point trivial) h fun _ _ => World.stroke_release _ _

theorem Unfolding.onThread {body : Account σ α} (h : body.Unfolding directory) :
    (onThread body).Unfolding directory :=
  .within (fun _ => World.stroke_of_eq rfl rfl) h fun _ _ => World.stroke_of_eq rfl rfl

theorem Unfolding.publishing {body : Account σ α} (h : body.Unfolding directory) (r : Ref) :
    (publishing r body).Unfolding directory :=
  .within (fun w => w.stroke_publish r) h fun w ended => w.stroke_withdraw r ended

theorem Unfolding.starting {k : Ref → Account σ α} (h : ∀ r, (k r).Unfolding directory)
    (request : Request) (chain : Chain σ) (target : Target σ) :
    (starting request chain target k).Unfolding directory :=
  fun _ => (World.Unfolds.started request chain target).append (h _ _)

end Account

section Accounts

variable {told : Engine.Accounts σ}

theorem Operation.unfolding_account (op : Operation α) :
    (op.account : Account σ α).Unfolding directory := by
  cases op with
  | fork r => exact fun w => .forked r
  | setArguments r arguments => exact Account.unfolding_aside fun w => w.stroke_setArguments r arguments
  | setAttribute r key value =>
    exact Account.unfolding_aside fun w => w.stroke_update r fun _ => rfl
  | bind point => exact Account.unfolding_aside fun w => w.stroke_bind none point trivial
  | release guard => exact Account.unfolding_aside fun w => w.stroke_release guard
  | read r facet => exact Account.unfolding_aside fun w => World.stroke_of_eq rfl rfl
  | currentJoinPoint => exact Account.unfolding_aside fun w => World.stroke_of_eq rfl rfl
  | bindingDepth => exact Account.unfolding_aside fun w => World.stroke_of_eq rfl rfl

theorem Program.unfolding_account (h : ∀ a, (told a).Unfolding directory) (p : Program σ α) :
    (p.account directory told).Unfolding directory := by
  induction p with
  | done a => exact Account.unfolding_finish a
  | andThen first next ihfirst ihnext => exact ihfirst.andThen ihnext
  | consult q => exact Account.unfolding_aside (Run.stroke_consult q)
  | perform op => exact op.unfolding_account
  | proceed r => exact h _
  | expose r => exact (h _).publishing r
  | invoke name request target =>
    rw [Program.account]
    cases directory name with
    | none => exact Account.unfolding_finish none
    | some proxy => exact (h _).andThen fun _ => Account.unfolding_finish _
  | withBinding point body ih => exact ih.withBinding point
  | catching body ih => exact ih.catching
  | onThread body ih => exact ih.onThread

theorem Target.unfolding_account (h : ∀ a, (told a).Unfolding directory) (target : Target σ)
    (this : Value) (method : Method) (arguments : List Value) :
    (target.account directory told this method arguments).Unfolding directory :=
  (Program.unfolding_account h _).andThen fun _ => Account.unfolding_finish _

theorem Behaviour.unfolding_account (h : ∀ a, (told a).Unfolding directory) (r : Ref)
    (b : Behaviour σ) (hplain : b.label? = none) :
    (b.account directory told r).Unfolding directory := by
  have hprogram : ∀ {γ : Type} (p : Program σ γ), (p.account directory told).Unfolding directory :=
    fun p => p.unfolding_account h
  have hproceed : (told (.proceed r)).Unfolding directory := h _
  cases b with
  | around body => exact hprogram (body r)
  | before advice =>
    refine (Account.Unfolding.look fun i => hprogram _).andThen fun result => ?_
    cases result with
    | error failure => exact Account.unfolding_finish _
    | ok _ => exact hproceed
  | afterReturning advice =>
    refine hproceed.andThen fun outcome => ?_
    cases outcome with
    | error failure => exact Account.unfolding_finish _
    | ok returned =>
      exact (Account.Unfolding.look fun i => hprogram _).andThen fun _ => Account.unfolding_finish _
  | afterThrowing advice =>
    refine hproceed.andThen fun outcome => ?_
    cases outcome with
    | ok returned => exact Account.unfolding_finish _
    | error failure =>
      refine (Account.unfolding_aside (Run.stroke_consult _)).andThen fun handled => ?_
      cases handled with
      | false => exact Account.unfolding_finish _
      | true =>
        rw [if_pos rfl]
        refine (Account.Unfolding.look fun i => Account.unfolding_aside fun w => ?_).andThen fun _ =>
          (hprogram _).andThen fun _ => Account.unfolding_finish _
        exact w.stroke_entry trivial
  | instrumented label => cases hplain
  | exposing => exact hproceed.publishing r

theorem Stop.unfolding_account (h : ∀ a, (told a).Unfolding directory) (r : Ref) (stop : Stop σ)
    (hplain : stop.label? = none) : (stop.account directory told r).Unfolding directory := by
  cases stop with
  | entered position current behaviour => exact behaviour.unfolding_account h r hplain
  | reached => exact .look fun i => i.target.unfolding_account h _ _ _
  | unwound panic => exact fun _ => .nil

/-- An interceptor that reports does what its own proceeding does, and then reports it. -/
theorem Instrumentation.account_eq (directory : Directory σ) (m : Instrumentation σ) :
    (Behaviour.instrumented m.label).account directory (Engine.accounts directory m.depth) m.invocation
        m.begun =
      (((m.own directory).1, m.ended directory),
        (Engine.accounts directory m.depth (.proceed m.invocation)).course m.begun ++
          m.reporting directory) := by
  have hown : (Engine.accounts directory m.depth (.proceed m.invocation) m.begun).1 =
      m.own directory := congrFun (Engine.run_accounts directory m.depth _) m.begun
  change Account.andThen (Engine.accounts directory m.depth (.proceed m.invocation)) _ m.begun = _
  rw [Account.andThen, reporting, ended, report?, ← hown, Account.course]
  rcases Engine.accounts directory m.depth (.proceed m.invocation) m.begun with
    ⟨⟨(failure | returned) | panic | _, v⟩, c⟩
  · rfl
  · rfl
  · simp only [List.append_nil]
  · simp only [List.append_nil]

theorem Account.unfolding_proceed {depth : Nat}
    (h : ∀ a, (Engine.accounts directory depth a).Unfolding directory) (r : Ref) :
    (Account.proceed directory (Engine.accounts directory depth) r).Unfolding directory := by
  intro w
  rcases harrives : w.advance r with ⟨visits, stop, v⟩
  simp only [course, run, Account.proceed, harrives]
  by_cases hplain : stop.label? = none
  · exact .advanced r harrives hplain (stop.unfolding_account h r hplain v)
  · cases stop with
    | entered position current behaviour =>
      cases behaviour with
      | instrumented label =>
        let m : Instrumentation σ := ⟨label, r, position, depth, v⟩
        have hinside : m.begun.Unfolds directory
            ((Engine.accounts directory depth (.proceed r)).course v) (m.own directory).2 := by
          rw [Instrumentation.own, ← Engine.run_accounts]
          exact h (.proceed r) v
        have haccount := m.account_eq directory
        rw [Stop.account, haccount]
        exact .instrumented m harrives hinside
      | _ => exact absurd rfl hplain
    | _ => exact absurd rfl hplain

theorem Account.unfolding_call (h : ∀ a, (told a).Unfolding directory) (proxy : Proxy σ)
    (request : Request) (target : Target σ) :
    (Account.call directory told proxy request target).Unfolding directory := by
  refine .inquire (proxy.aside_chainFor _ _) fun resolved => ?_
  cases resolved with
  | error e => exact unfolding_finish _
  | ok chain =>
    have hatOnce : (target.accountAtOnce directory told request.this request.method
        request.arguments).Unfolding directory := by
      refine (unfolding_aside fun w => ?_).andThen fun _ => target.unfolding_account h _ _ _
      exact w.stroke_entry trivial
    exact .ite hatOnce (.starting (fun r => h _) request chain target)

/-- **Courses tell how runs unfold**, those of all activations. -/
theorem Engine.unfolding_accounts (directory : Directory σ) (depth : Nat) (a : Activation σ) :
    (Engine.accounts directory depth a).Unfolding directory := by
  induction depth generalizing a with
  | zero => exact fun _ => .nil
  | succ depth ih =>
    cases a with
    | proceed r => exact Account.unfolding_proceed ih r
    | call proxy request target => exact Account.unfolding_call ih proxy request target

end Accounts

/-! ### Courses are sound -/

namespace World

variable {w w' : World σ} {c : Course σ}

theorem Unfolds.leads (h : w.Unfolds directory c w') : w.Leads c w' := by
  induction h with
  | nil => exact .nil
  | append _ _ ihfirst ihrest => exact ihfirst.append ihrest
  | stroke h => exact .single (.other h.toSteady)
  | forked r => exact .single (.forked r)
  | started request chain target => exact .single (.started request chain target)
  | @advanced w _ _ _ _ _ r arrives _ _ ih =>
    have hadvanced : w.Moves _ _ := .advanced r
    rw [arrives] at hadvanced
    exact .cons hadvanced (ih.append (.single (.ended r)))
  | @instrumented w _ _ _ m arrives _ ih =>
    have hadvanced : w.Moves _ _ := .advanced m.invocation
    rw [arrives] at hadvanced
    have hreporting : (m.own directory).2.Leads (m.reporting directory) (m.ended directory) := by
      rw [Instrumentation.reporting, Instrumentation.ended]
      cases m.report? directory with
      | none => exact .nil
      | some e => exact .single (.other (steady_entry _ rfl))
    exact .cons hadvanced ((ih.append hreporting).append (.single (.ended m.invocation)))

/-! ### What holds all along -/

/-- The relation holds of two worlds if the second comes out of the first by something that is done at one
moment of a run, or at many. -/
structure Progress (R : World σ → World σ → Prop) : Prop where
  refl (w : World σ) : R w w
  trans {w w' w'' : World σ} : R w w' → R w' w'' → R w w''
  stroke {w w' : World σ} : w.Stroke w' → R w w'
  advance (w : World σ) (r : Ref) : R w (w.advance r).2.2
  push (w : World σ) (i : Invocation σ) : R w (w.push i).2
  report (w : World σ) {e : Event} : e.IsOutcome → R w (w.record [.event e])

/-- The relation holds from each moment of the course to the next. -/
def Along (R : World σ → World σ → Prop) : World σ → Course σ → Prop
  | _, [] => True
  | w, (_, v) :: rest => R w v ∧ Along R v rest

variable {R : World σ → World σ → Prop} {d : Course σ}

theorem after_append (w : World σ) (c d : Course σ) : w.after (c ++ d) = (w.after c).after d := by
  induction c generalizing w with
  | nil => rfl
  | cons moment rest ih => exact ih moment.2

theorem along_append (w : World σ) (c d : Course σ) :
    Along R w (c ++ d) ↔ Along R w c ∧ Along R (w.after c) d := by
  induction c generalizing w with
  | nil => exact ⟨fun h => ⟨trivial, h⟩, fun h => h.2⟩
  | cons moment rest ih =>
    rw [List.cons_append, Along, Along, ih, and_assoc]
    rfl

theorem Progress.start (hR : Progress R) (w : World σ) (request : Request) (chain : Chain σ)
    (target : Target σ) : R w (w.start request chain target).2 := by
  have hcalls : w.Stroke { w with calls := w.calls + 1 } := stroke_of_eq rfl rfl
  exact hR.trans (hR.stroke hcalls) (hR.push _ _)

theorem Progress.after (hR : Progress R) (h : Along R w c) : R w (w.after c) := by
  induction c generalizing w with
  | nil => exact hR.refl w
  | cons moment rest ih => exact hR.trans h.1 (ih h.2)

theorem Unfolds.along (h : w.Unfolds directory c w') (hR : Progress R) : Along R w c := by
  induction h with
  | nil => trivial
  | append first _ ihfirst ihrest =>
    rw [along_append, first.leads.after]
    exact ⟨ihfirst, ihrest⟩
  | stroke h => exact ⟨hR.stroke h, trivial⟩
  | forked r => exact ⟨hR.push _ _, trivial⟩
  | started request chain target => exact ⟨hR.start _ _ _ _, trivial⟩
  | @advanced w v _ _ _ _ r arrives _ inside ih =>
    have hadvance : R w v := by
      have h := hR.advance w r
      rwa [arrives] at h
    rw [List.cons_append, Along, along_append, inside.leads.after]
    exact ⟨hadvance, ih, hR.refl _, trivial⟩
  | @instrumented w _ _ _ m arrives inside ih =>
    have hadvance : R w m.begun := by
      have h := hR.advance w m.invocation
      rwa [arrives] at h
    have hreporting : Along R (m.own directory).2 (m.reporting directory) ∧
        (m.own directory).2.after (m.reporting directory) = m.ended directory := by
      rw [Instrumentation.reporting, Instrumentation.ended]
      cases hreport : m.report? directory with
      | none => exact ⟨trivial, rfl⟩
      | some e => exact ⟨⟨hR.report _ (m.isOutcome_of_report? directory hreport), trivial⟩, rfl⟩
    rw [List.cons_append, Along, along_append, along_append, after_append, inside.leads.after,
      hreporting.2]
    exact ⟨hadvance, ⟨ih, hreporting.1⟩, hR.refl _, trivial⟩

theorem Unfolds.progress (h : w.Unfolds directory c w') (hR : Progress R) : R w w' :=
  h.leads.after ▸ hR.after (h.along hR)

/-- At every moment of a run, the relation holds with the beginning and with the end. -/
theorem Unfolds.progress_cut (h : w.Unfolds directory (c ++ d) w') (hR : Progress R) :
    R w (w.after c) ∧ R (w.after c) w' := by
  obtain ⟨hfirst, hlater⟩ := (along_append w c d).mp (h.along hR)
  have hend : (w.after c).after d = w' := by rw [← after_append, h.leads.after]
  exact ⟨hR.after hfirst, hend ▸ hR.after hlater⟩

end World

/-- What is done to cursors in the run of a program that begins in `w`. -/
def Program.course (p : Program σ α) (directory : Directory σ) (depth : Nat) (w : World σ) : Course σ :=
  (p.account directory (Engine.accounts directory depth)).course w

theorem Program.unfolds_course (p : Program σ α) (directory : Directory σ) (depth : Nat) (w : World σ) :
    w.Unfolds directory (p.course directory depth w)
      (p.run directory (Engine.ofDepth directory depth) w).2 := by
  rw [← Program.run_account (Engine.run_accounts directory depth)]
  exact p.unfolding_account (Engine.unfolding_accounts directory depth) w

theorem Program.leads_course (p : Program σ α) (directory : Directory σ) (depth : Nat) (w : World σ) :
    w.Leads (p.course directory depth w) (p.run directory (Engine.ofDepth directory depth) w).2 :=
  (p.unfolds_course directory depth w).leads

end Interception
