import Interception.Proofs.Blocks
import Interception.Proofs.Naming

/-! Uniform code. What is given once and used in both runs, such as the advisors of a proxy and the
interceptors that a registry makes of them, is uniform when it does the same in both, whatever names there are. A
proxy is uniform when its predicates and its interceptors are; then both runs find the same chains. -/

namespace Interception

universe u v

variable {σ : Type}

section Uniform

variable (C : Comparison σ)

/-- The consultation comes to the same answer from states that are the same. -/
def Consultation.IsUniform {ω : Type} {α : Type u} (q : Consultation σ ω α) : Prop :=
  ∀ N, C.base ≤ N → q.Like C N Eq q

/-- The behaviour does the same with an invocation, by whatever name it is given. -/
def Behaviour.IsUniform : Behaviour σ → Prop
  | .around body => ∀ N r r', C.base ≤ N → N.SameRef r r' → Program.Like C N Kin.plain (body r) (body r')
  | .before advice => ∀ N method arguments this, C.base ≤ N →
    Program.Like C N Kin.plain (advice method arguments this) (advice method arguments this)
  | .afterReturning advice => ∀ N returned method arguments this, C.base ≤ N →
    Program.Like C N Kin.plain (advice returned method arguments this) (advice returned method arguments this)
  | .afterThrowing advice =>
    (∀ failure, (advice.handles failure).IsUniform C) ∧ ∀ N r r' failure, C.base ≤ N → N.SameRef r r' →
      Program.Like C N Kin.plain (advice.afterThrowing r failure) (advice.afterThrowing r' failure)
  | .instrumented _ => True
  | .exposing => True

def Link.IsUniform : Link σ → Prop
  | .plain interceptor => interceptor.behaviour.IsUniform C
  | .dynamic interceptor accepts =>
    interceptor.behaviour.IsUniform C ∧
      ∀ method targetClass arguments, (accepts method targetClass arguments).IsUniform C

def ClassFilter.IsUniform (filter : ClassFilter σ) : Prop := ∀ c, (filter.accepts c).IsUniform C

structure MethodFilter.IsUniform (filter : MethodFilter σ) : Prop where
  accepts : ∀ method c, (filter.accepts method c).IsUniform C
  acceptsKnowing : ∀ introduced method c, (filter.acceptsKnowing introduced method c).IsUniform C

/-- The predicates by which the advisor tells where it applies are uniform. -/
def Advisor.AsksUniformly : Advisor σ → Prop
  | .conditional pointcut _ =>
    pointcut.classFilter.IsUniform C ∧ pointcut.methodMatcher.filter.IsUniform C
  | .introduction filter _ _ => filter.IsUniform C
  | .unfiltered _ => True

end Uniform

variable {C : Comparison σ}

namespace Consultation

variable {ω : Type}

theorem isUniform_answer {α : Type u} (a : α) : (answer a : Consultation σ ω α).IsUniform C :=
  fun _ _ _ _ hsame => ⟨.ok rfl, rfl, hsame⟩

theorem isUniform_write (entry : ω) : (write entry : Consultation σ ω Unit).IsUniform C :=
  fun _ _ _ _ hsame => ⟨.ok rfl, rfl, hsame⟩

theorem IsUniform.mapWritten {ω' : Type} {α : Type u} {q : Consultation σ ω α} (h : q.IsUniform C)
    (change : ω → ω') : (q.mapWritten change).IsUniform C := by
  intro N hbase s s' hsame
  obtain ⟨hresult, hwritten, hstate⟩ := h N hbase s s' hsame
  exact ⟨hresult, congrArg (List.map change) hwritten, hstate⟩

theorem IsUniform.andThen {α : Type u} {β : Type v} {p : Consultation σ ω α} {k : α → Consultation σ ω β}
    (hp : p.IsUniform C) (hk : ∀ a, (k a).IsUniform C) : (p.andThen k).IsUniform C := by
  intro N hbase s s' hsame
  obtain ⟨hresult, hwritten, hstate⟩ := hp N hbase s s' hsame
  simp only [Consultation.andThen]
  generalize p s = first at hresult hwritten hstate ⊢
  generalize p s' = first' at hresult hwritten hstate ⊢
  obtain ⟨result, t, written⟩ := first
  obtain ⟨result', t', written'⟩ := first'
  cases hresult with
  | error panic => exact ⟨.error panic, hwritten, hstate⟩
  | ok ha =>
    cases ha
    obtain ⟨hresult', hwritten', hstate'⟩ := hk _ N hbase t t' hstate
    exact ⟨hresult', congrArg₂ (· ++ ·) hwritten hwritten', hstate'⟩

/-- Where only equal states are the same, every consultation is uniform. -/
theorem isUniform_of_eq {α : Type u} (hsame : ∀ N s s', C.same N s s' ↔ s = s') (q : Consultation σ ω α) :
    q.IsUniform C := by
  intro N _ s s' h
  obtain rfl := (hsame N s s').mp h
  refine ⟨?_, rfl, (hsame N _ _).mpr rfl⟩
  cases (q s).result with
  | ok a => exact .ok rfl
  | error panic => exact .error panic

end Consultation

/-! ### Resolution -/

namespace Resolution

open Consultation

variable {site : Site} {advisors rest : List (Advisor σ)} {advisor : Advisor σ} {known : Option Bool}
  {position : Nat} {registry : Registry σ} {found links : List (Link σ)} {s : σ}

theorem uniform_ask {q : Query σ Bool} (h : q.IsUniform C) (question : Question) (targetClass : Class) :
    (Inquiry.ask question targetClass q).IsUniform C :=
  (isUniform_write _).andThen fun _ => (h.mapWritten _).andThen fun _ => (isUniform_write _).andThen
    fun _ => isUniform_answer _

theorem uniform_classAccepted {filter : ClassFilter σ} (h : filter.IsUniform C) :
    (classAccepted site position filter).IsUniform C := by
  cases hpre : site.preFiltered with
  | true =>
    rw [classAccepted_of_preFiltered filter hpre]
    exact isUniform_answer _
  | false =>
    rw [classAccepted_of_not_preFiltered filter hpre]
    exact uniform_ask (h _) _ _

theorem uniform_introduced (h : ∀ advisor ∈ rest, advisor.AsksUniformly C) :
    (introduced site position rest).IsUniform C := by
  induction rest generalizing position with
  | nil => exact isUniform_answer _
  | cons advisor rest ih =>
    obtain ⟨hadvisor, hrest⟩ := List.forall_mem_cons.mp h
    cases advisor with
    | conditional pointcut advice => exact ih hrest
    | unfiltered advice => exact ih hrest
    | introduction filter advice interfaces =>
      rw [introduced_introduction]
      refine (uniform_ask (hadvisor _) _ _).andThen fun has => ?_
      cases has with
      | true => exact isUniform_answer _
      | false => exact ih hrest

theorem uniform_applies (hall : ∀ advisor ∈ advisors, advisor.AsksUniformly C)
    (h : advisor.AsksUniformly C) : (applies site advisors known position advisor).IsUniform C := by
  cases advisor with
  | unfiltered advice => exact isUniform_answer _
  | introduction filter advice interfaces =>
    rw [applies_introduction]
    exact (uniform_classAccepted h).andThen fun _ => isUniform_answer _
  | conditional pointcut advice =>
    obtain ⟨hclass, hmethod⟩ := h
    rw [applies_conditional]
    refine (uniform_classAccepted hclass).andThen fun accepted => ?_
    cases accepted with
    | false => exact isUniform_answer _
    | true =>
      rw [if_pos rfl]
      cases haware : pointcut.methodMatcher.filter.introductionAware with
      | false =>
        rw [methodAccepted_unaware _ haware]
        exact (uniform_ask (hmethod.accepts _ _) _ _).andThen fun _ => isUniform_answer _
      | true =>
        rw [methodAccepted_aware _ haware]
        refine IsUniform.andThen ?_ fun has =>
          (uniform_ask (hmethod.acceptsKnowing _ _ _) _ _).andThen fun _ => isUniform_answer _
        cases known with
        | some has => exact isUniform_answer _
        | none => exact uniform_introduced hall

theorem uniform_visit (hall : ∀ advisor ∈ advisors, advisor.AsksUniformly C)
    (h : ∀ advisor ∈ rest, advisor.AsksUniformly C) :
    (visit registry site advisors known position found rest).IsUniform C := by
  induction rest generalizing known position found with
  | nil => exact isUniform_answer _
  | cons advisor rest ih =>
    obtain ⟨hadvisor, hrest⟩ := List.forall_mem_cons.mp h
    refine (uniform_applies hall hadvisor).andThen fun (applied, known) => ?_
    cases applied with
    | false => exact ih hrest
    | true =>
      cases hblock : block registry advisor with
      | error e => exact isUniform_answer _
      | ok links => exact ih hrest

/-- What holds of the interceptors of every advisor, on its terms, holds of all links that are found. -/
theorem visit_mem {P : Link σ → Prop} (h : ∀ advisor ∈ rest, ∀ interceptor ∈ registry.candidates advisor,
      P (Link.under (matcher advisor) interceptor)) (hfound : ∀ link ∈ found, P link)
    (hvisit : (visit registry site advisors known position found rest s).result = .ok (.ok links)) :
    ∀ link ∈ links, P link := by
  induction rest generalizing known position found s with
  | nil =>
    cases hvisit
    exact hfound
  | cons advisor rest ih =>
    obtain ⟨hadvisor, hrest⟩ := List.forall_mem_cons.mp h
    obtain ⟨⟨applied, known'⟩, _, hthen, _⟩ := andThen_ok hvisit
    cases applied with
    | false => exact ih hrest hfound hthen
    | true =>
      simp only at hthen
      cases hblock : block registry advisor with
      | error e =>
        rw [hblock] at hthen
        cases hthen
      | ok joined =>
        rw [hblock] at hthen
        refine ih hrest (List.forall_mem_append.mpr ⟨hfound, fun link hlink => ?_⟩) hthen
        rw [block_ok hblock, ← candidates_eq, ← funext (under_matcher advisor)] at hlink
        obtain ⟨interceptor, hmem, rfl⟩ := List.mem_map.mp hlink
        exact hadvisor interceptor hmem

end Resolution

/-! ### Proxies -/

namespace Proxy

/-- The proxy with its calls published or not. -/
def exposing (p : Proxy σ) (on : Bool) : Proxy σ :=
  { p with config := { p.config with exposeInvocation := on } }

/-- The chain for a method on a class, before a publishing link is put in front of it. -/
def resolve (p : Proxy σ) (method : Method) (targetClass : Option Class) :
    Inquiry σ (Except AdvisorError (Chain σ)) :=
  p.registry.resolve p.advisors (.of method targetClass p.config.preFiltered)

/-- Both proxies are the same, or differ in that only the second one publishes its calls. -/
inductive Shows : Proxy σ → Proxy σ → Prop where
  | same (p : Proxy σ) : Shows p p
  | published (p : Proxy σ) : Shows (p.exposing false) (p.exposing true)

/-- How the proxy finds its chains does not depend on names, and the links in the chains that it can find are
uniform. -/
structure IsUniform (C : Comparison σ) (p : Proxy σ) : Prop where
  resolving : ∀ method targetClass, (p.resolve method targetClass).IsUniform C
  chains : ∀ N s s' method targetClass chain, C.base ≤ N → C.same N s s' →
    (p.resolve method targetClass s).result = .ok (.ok chain) → ∀ link ∈ chain.links, link.IsUniform C

/-- A proxy is uniform if the predicates of its advisors are, and the interceptors that its registry makes of
them on the terms on which they stand in a chain. -/
theorem isUniform_of_advisors {p : Proxy σ} (hpredicates : ∀ advisor ∈ p.advisors, advisor.AsksUniformly C)
    (hlinks : ∀ advisor ∈ p.advisors, ∀ interceptor ∈ p.registry.candidates advisor,
      (Link.under (Resolution.matcher advisor) interceptor).IsUniform C) : p.IsUniform C where
  resolving method targetClass := by
    refine (Resolution.uniform_visit hpredicates hpredicates).andThen fun visited => ?_
    cases visited with
    | error e => exact Consultation.isUniform_answer _
    | ok links => exact (Consultation.isUniform_write _).andThen fun _ => Consultation.isUniform_answer _
  chains _ _ _ _ _ _ _ _ hresolve :=
    Resolution.visit_mem hlinks (fun _ hlink => absurd hlink List.not_mem_nil) (Registry.resolve_ok hresolve).1

end Proxy

end Interception
