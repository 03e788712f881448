import Interception.Proofs.Blocks
import Interception.Proofs.Nesting

/-! The chain that is assembled from pure predicates. When the answers of filters depend on nothing but
what they are asked about, a resolution changes no state, writes no note, and finds one link for each
advisor that the nested reading lets apply. -/

namespace Interception

universe u v

open Consultation (answer)

variable {σ : Type}

/-- In every state the computation answers so, changes nothing and writes no note. -/
def Inquiry.Gives {α : Type u} (p : Inquiry σ α) (a : α) : Prop :=
  ∀ s, (p s).result = .ok a ∧ (p s).state = s ∧ (p s).written.filterMap Entry.note? = []

namespace Inquiry

theorem gives_answer {α : Type u} (a : α) : Gives (σ := σ) (answer a) a := fun _ => ⟨rfl, rfl, rfl⟩

theorem Gives.andThen {α : Type u} {β : Type v} {p : Inquiry σ α} {a : α} {k : α → Inquiry σ β} {b : β}
    (hp : p.Gives a) (hk : (k a).Gives b) : Gives (p.andThen k) b := by
  intro s
  obtain ⟨hresult, hstate, hnotes⟩ := hp s
  obtain ⟨hresult', hstate', hnotes'⟩ := hk s
  have hrun : p.andThen k s = ⟨(k a s).result, (k a s).state, (p s).written ++ (k a s).written⟩ := by
    rw [Consultation.andThen, hresult, hstate]
  rw [hrun]
  exact ⟨hresult', hstate', by rw [List.filterMap_append, hnotes, hnotes', List.append_nil]⟩

theorem gives_report (e : Event) : Gives (report e : Inquiry σ Unit) () := fun _ => ⟨rfl, rfl, rfl⟩

theorem gives_ask (question : Question) (c : Class) (verdict : Bool) :
    Gives (ask question c (answer verdict : Query σ Bool)) verdict := fun _ => ⟨rfl, rfl, rfl⟩

end Inquiry

/-- The predicates of the advisor that are asked at the site are pure. -/
def Advisor.IsPure (site : Site) : Advisor σ → Prop
  | .conditional pointcut _ =>
    (pointcut.classFilter.accepts site.targetClass).IsPure ∧
      (pointcut.methodMatcher.filter.accepts site.method site.targetClass).IsPure ∧
      ∀ has, (pointcut.methodMatcher.filter.acceptsKnowing has site.method site.targetClass).IsPure
  | .introduction filter _ _ => (filter.accepts site.targetClass).IsPure
  | .unfiltered _ => True

/-- The link of an advisor asks for what the advisor admits. -/
theorem Advisor.link_cases (advisor : Advisor σ) (interceptor : Interceptor σ) (site : Site) :
    (∃ accepts, advisor.link interceptor = .dynamic interceptor accepts ∧
      ∀ arguments, Nesting.admits site arguments advisor =
        accepts site.method site.targetClass arguments) ∨
    (advisor.link interceptor = .plain interceptor ∧
      ∀ arguments, Nesting.admits site arguments advisor = answer true) := by
  cases advisor with
  | unfiltered advice => exact .inr ⟨rfl, fun _ => rfl⟩
  | introduction filter advice interfaces => exact .inr ⟨rfl, fun _ => rfl⟩
  | conditional pointcut advice =>
    obtain ⟨classFilter, matcher⟩ := pointcut
    cases matcher with
    | static filter => exact .inr ⟨rfl, fun _ => rfl⟩
    | dynamic filter accepts => exact .inl ⟨accepts, rfl, fun _ => rfl⟩

section Assembled

variable (directory : Directory σ) (base : Nat) (request : Request)

/-- The links that the layers contribute at a site, each with an interceptor that does the layer's
conduct. -/
inductive Assembled (site : Site) (has : Bool) : List (Layer σ) → List (Link σ) → Prop where
  | nil : Assembled site has [] []
  | passed {advisor : Advisor σ} {conduct : Conduct σ} {inside : List (Layer σ)} {links : List (Link σ)}
    (happlies : Nesting.applies site has advisor = answer false) (h : Assembled site has inside links) :
    Assembled site has ((advisor, conduct) :: inside) links
  | linked {advisor : Advisor σ} {conduct : Conduct σ} {interceptor : Interceptor σ}
    {inside : List (Layer σ)} {links : List (Link σ)}
    (happlies : Nesting.applies site has advisor = answer true)
    (hconduct : interceptor.behaviour.Conducts directory base request conduct)
    (h : Assembled site has inside links) :
    Assembled site has ((advisor, conduct) :: inside) (advisor.link interceptor :: links)

end Assembled

namespace Resolution

open Inquiry (Gives)

variable {site : Site} {advisors rest : List (Advisor σ)} {has : Bool}

theorem gives_classAccepted {filter : ClassFilter σ}
    (hpure : (filter.accepts site.targetClass).IsPure) :
    ∃ verdict, Nesting.inClass site filter = answer verdict ∧
      ∀ position, Gives (classAccepted site position filter) verdict := by
  cases hpre : site.preFiltered with
  | true =>
    refine ⟨true, if_pos hpre, fun position => ?_⟩
    rw [classAccepted_of_preFiltered filter hpre]
    exact Inquiry.gives_answer true
  | false =>
    obtain ⟨verdict, hverdict⟩ := hpure
    refine ⟨verdict, ?_, fun position => ?_⟩
    · rw [Nesting.inClass, hpre, ← hverdict]
      exact if_neg Bool.false_ne_true
    · rw [classAccepted_of_not_preFiltered filter hpre, hverdict]
      exact Inquiry.gives_ask _ _ verdict

/-- Both readings find out the same on introductions. -/
theorem gives_introduced (hpure : ∀ advisor ∈ rest, advisor.IsPure site) :
    ∃ has, Nesting.introduced site.targetClass rest = answer has ∧
      ∀ position, Gives (introduced site position rest) has := by
  induction rest with
  | nil => exact ⟨false, rfl, fun _ => Inquiry.gives_answer false⟩
  | cons advisor rest ih =>
    obtain ⟨has, hnested, hgives⟩ := ih fun a ha => hpure a (List.mem_cons_of_mem _ ha)
    cases advisor with
    | conditional pointcut advice => exact ⟨has, hnested, fun position => hgives (position + 1)⟩
    | unfiltered advice => exact ⟨has, hnested, fun position => hgives (position + 1)⟩
    | introduction filter advice interfaces =>
      obtain ⟨verdict, hverdict⟩ : (filter.accepts site.targetClass).IsPure :=
        hpure _ List.mem_cons_self
      refine ⟨verdict || has, ?_, fun position => ?_⟩
      · rw [Nesting.introduced, hverdict]
        cases verdict with
        | true => exact Consultation.answer_andThen _ _
        | false => exact (Consultation.answer_andThen _ _).trans hnested
      · rw [introduced_introduction, hverdict]
        refine (Inquiry.gives_ask _ _ verdict).andThen ?_
        cases verdict with
        | true => exact Inquiry.gives_answer true
        | false => exact hgives (position + 1)

/-- What is known of introductions, if anything, is whether they apply. -/
def KnowsOnly (has : Bool) (known : Option Bool) : Prop := ∀ h ∈ known, h = has

theorem gives_methodAccepted {filter : MethodFilter σ}
    (hintroduced : Gives (introduced site 0 advisors) has)
    (hpure : (filter.accepts site.method site.targetClass).IsPure)
    (hpure' : ∀ has, (filter.acceptsKnowing has site.method site.targetClass).IsPure) :
    ∃ verdict, Nesting.onMethod site has filter = answer verdict ∧
      ∀ known position, KnowsOnly has known → ∃ known', KnowsOnly has known' ∧
        Gives (methodAccepted site advisors known position filter) (verdict, known') := by
  cases haware : filter.introductionAware with
  | false =>
    obtain ⟨verdict, hverdict⟩ := hpure
    refine ⟨verdict, ?_, fun known position hknown => ⟨known, hknown, ?_⟩⟩
    · rw [Nesting.onMethod, haware, ← hverdict]
      exact if_neg Bool.false_ne_true
    · rw [methodAccepted_unaware filter haware, hverdict]
      exact (Inquiry.gives_ask _ _ verdict).andThen (Inquiry.gives_answer _)
  | true =>
    obtain ⟨verdict, hverdict⟩ := hpure' has
    refine ⟨verdict, ?_, fun known position hknown => ⟨some has, ?_, ?_⟩⟩
    · rw [Nesting.onMethod, haware, ← hverdict]
      exact if_pos rfl
    · intro h heq
      exact (Option.some.inj heq).symm
    · rw [methodAccepted_aware filter haware]
      refine Inquiry.Gives.andThen (a := has) ?_ ?_
      · cases known with
        | none => exact hintroduced
        | some h =>
          rw [hknown h rfl]
          exact Inquiry.gives_answer has
      · rw [hverdict]
        exact (Inquiry.gives_ask _ _ verdict).andThen (Inquiry.gives_answer _)

/-- Both readings let the same advisors apply. -/
theorem gives_applies {advisor : Advisor σ} (hintroduced : Gives (introduced site 0 advisors) has)
    (hpure : advisor.IsPure site) :
    ∃ verdict, Nesting.applies site has advisor = answer verdict ∧
      ∀ known position, KnowsOnly has known → ∃ known', KnowsOnly has known' ∧
        Gives (applies site advisors known position advisor) (verdict, known') := by
  cases advisor with
  | unfiltered advice =>
    exact ⟨true, rfl, fun known _ hknown => ⟨known, hknown, Inquiry.gives_answer _⟩⟩
  | introduction filter advice interfaces =>
    obtain ⟨verdict, hnested, hgives⟩ := gives_classAccepted hpure
    refine ⟨verdict, hnested, fun known position hknown => ⟨known, hknown, ?_⟩⟩
    rw [applies_introduction]
    exact (hgives position).andThen (Inquiry.gives_answer _)
  | conditional pointcut advice =>
    obtain ⟨hclass, hmethod, hknowing⟩ := hpure
    obtain ⟨accepted, hnested, hgives⟩ := gives_classAccepted hclass
    cases accepted with
    | false =>
      refine ⟨false, ?_, fun known position hknown => ⟨known, hknown, ?_⟩⟩
      · rw [Nesting.applies, hnested]
        exact Consultation.answer_andThen _ _
      · rw [applies_conditional]
        exact (hgives position).andThen (Inquiry.gives_answer _)
    | true =>
      obtain ⟨verdict, hnested', hgives'⟩ := gives_methodAccepted hintroduced hmethod hknowing
      refine ⟨verdict, ?_, fun known position hknown => ?_⟩
      · rw [Nesting.applies, hnested, ← hnested']
        exact Consultation.answer_andThen _ _
      · obtain ⟨known', hknown', hgives'⟩ := hgives' known position hknown
        refine ⟨known', hknown', ?_⟩
        rw [applies_conditional]
        exact (hgives position).andThen hgives'

/-- An advisor with advice of one of the four shapes contributes one link. -/
theorem block_standard {advisor : Advisor σ} {interceptor : Interceptor σ}
    (h : advisor.advice.standard? = some interceptor) :
    block Registry.standard advisor = .ok [advisor.link interceptor] := by
  have hinterceptors : Registry.standard.interceptors advisor = .ok [interceptor] := by
    cases hadvice : advisor.advice with
    | extension type payload =>
      rw [hadvice] at h
      cases h
    | _ =>
      rw [hadvice] at h
      cases h
      simp [Registry.interceptors, Registry.candidates, Registry.standard, Adapter.before,
        Adapter.afterReturning, Adapter.afterThrowing, hadvice, Advice.interceptor?]
  rw [block, hinterceptors, ← under_matcher]
  rfl

end Resolution

namespace Layer

variable (directory : Directory σ) (base : Nat) (request : Request)

/-- The advisor of the layer is one of those that apply at the site. -/
def Applicable (site : Site) (layers : List (Layer σ)) (layer : Layer σ) : Prop :=
  ∃ has, Nesting.introduced site.targetClass (layers.map Prod.fst) = answer has ∧
    Nesting.applies site has layer.1 = answer true

/-- The advice of the layer is of one of the four shapes, and does what the layer says. -/
def Conducts (layer : Layer σ) : Prop :=
  ∃ interceptor, layer.1.advice.standard? = some interceptor ∧
    interceptor.behaviour.Conducts directory base request layer.2

end Layer

section Resolve

open Inquiry (Gives)

variable {directory : Directory σ} {base : Nat} {request : Request} {site : Site} {has : Bool}
  {advisors : List (Advisor σ)} {layers : List (Layer σ)}

theorem Resolution.gives_visit (hintroduced : Gives (introduced site 0 advisors) has)
    (hpure : ∀ layer ∈ layers, layer.1.IsPure site)
    (hconduct : ∀ layer ∈ layers, Nesting.applies site has layer.1 = answer true →
      layer.Conducts directory base request) :
    ∃ links, Assembled directory base request site has layers links ∧ links.length ≤ layers.length ∧
      ∀ known position found, KnowsOnly has known →
        Gives (visit .standard site advisors known position found (layers.map Prod.fst))
          (.ok (found ++ links)) := by
  induction layers with
  | nil =>
    refine ⟨[], .nil, Nat.le_refl _, fun known position found _ => ?_⟩
    rw [List.append_nil]
    exact Inquiry.gives_answer _
  | cons layer inside ih =>
    obtain ⟨links, hassembled, hlength, hvisit⟩ :=
      ih (fun l hl => hpure l (List.mem_cons_of_mem _ hl))
        fun l hl => hconduct l (List.mem_cons_of_mem _ hl)
    obtain ⟨verdict, hnested, hgives⟩ := gives_applies hintroduced (hpure layer List.mem_cons_self)
    cases verdict with
    | false =>
      refine ⟨links, .passed hnested hassembled, Nat.le_succ_of_le hlength, ?_⟩
      intro known position found hknown
      obtain ⟨known', hknown', hgives⟩ := hgives known position hknown
      exact hgives.andThen (hvisit known' (position + 1) found hknown')
    | true =>
      obtain ⟨interceptor, hshape, hbehaviour⟩ := hconduct layer List.mem_cons_self hnested
      refine ⟨layer.1.link interceptor :: links, .linked hnested hbehaviour hassembled,
        Nat.succ_le_succ hlength, ?_⟩
      intro known position found hknown
      obtain ⟨known', hknown', hgives⟩ := hgives known position hknown
      have hrest := hvisit known' (position + 1) (found ++ [layer.1.link interceptor]) hknown'
      rw [List.append_assoc, List.singleton_append] at hrest
      refine hgives.andThen ?_
      simp only [block_standard hshape]
      exact hrest

/-- From pure predicates a proxy assembles the links of the layers whose advisors apply, behind the one
that publishes the call, if it is set to do so. -/
theorem Proxy.gives_chainFor {proxy : Proxy σ} (hregistry : proxy.registry = .standard)
    (hadvisors : proxy.advisors = layers.map Prod.fst)
    (hsite : site = .of request.method request.targetClass proxy.config.preFiltered)
    (hpure : ∀ layer ∈ layers, layer.1.IsPure site)
    (hconduct : ∀ layer ∈ layers, layer.Applicable site layers →
      layer.Conducts directory base request) :
    ∃ has links, Nesting.introduced site.targetClass (layers.map Prod.fst) = answer has ∧
      Assembled directory base request site has layers links ∧ links.length ≤ layers.length ∧
      Gives (proxy.chainFor request.method request.targetClass)
        (.ok (if proxy.config.exposeInvocation then (Chain.mk links).prepend Proxy.exposingLink
          else ⟨links⟩)) := by
  have hpure' : ∀ advisor ∈ layers.map Prod.fst, advisor.IsPure site := by
    intro advisor hadvisor
    obtain ⟨layer, hlayer, rfl⟩ := List.mem_map.mp hadvisor
    exact hpure layer hlayer
  obtain ⟨has, hnested, hintroduced⟩ := Resolution.gives_introduced hpure'
  obtain ⟨links, hassembled, hlength, hvisit⟩ :=
    Resolution.gives_visit (hintroduced 0) hpure fun layer hlayer happlies =>
      hconduct layer hlayer ⟨has, hnested, happlies⟩
  refine ⟨has, links, hnested, hassembled, hlength, ?_⟩
  have hfound := hvisit none 0 [] nofun
  have hresolve : Gives (Registry.standard.resolve (layers.map Prod.fst) site) (.ok ⟨links⟩) :=
    hfound.andThen ((Inquiry.gives_report _).andThen (Inquiry.gives_answer _))
  rw [Proxy.chainFor, hregistry, hadvisors, ← hsite]
  exact hresolve.andThen (Inquiry.gives_answer _)

end Resolve

end Interception
