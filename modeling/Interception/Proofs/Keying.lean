import Interception.Proofs.Assembly

/-! Resolved chains kept under a key. Methods are equal by name, declaring class and parameters, and
classes by name alone; class filters look further, at the supertypes that a class declares. So the
outcome of a resolution is decided by method and class, as far as equality tells these apart, only
where no filter is asked or equal classes can be used as the same types. -/

namespace Interception

open Consultation (answer)

variable {σ : Type}

/-! ### Filters of the library -/

/-- The filter is built from the library's own filters, and asks about none but the known types. -/
inductive ClassFilter.Asks (known : String → Prop) : ClassFilter σ → Prop where
  | any : Asks known .any
  | assignableTo {type : String} (h : known type) : Asks known (.assignableTo type)
  | union {members : List (ClassFilter σ)} (h : ∀ member ∈ members, Asks known member) :
    Asks known (.union members)
  | intersection {members : List (ClassFilter σ)} (h : ∀ member ∈ members, Asks known member) :
    Asks known (.intersection members)

/-- The filter is one of the library's own. -/
def MethodFilter.IsBuiltin : MethodFilter σ → Prop
  | .any | .named _ => True
  | .predicate _ => False

/-- The filters of the advisor are the library's own, and ask about none but the known types. -/
def Advisor.Asks (known : String → Prop) : Advisor σ → Prop
  | .conditional pointcut _ =>
    pointcut.classFilter.Asks known ∧ pointcut.methodMatcher.filter.IsBuiltin
  | .introduction filter _ _ => filter.Asks known
  | .unfiltered _ => True

/-- The filters of the advisor are the library's own, whatever types they ask about. -/
def Advisor.IsBuiltin (advisor : Advisor σ) : Prop := advisor.Asks fun _ => True

/-- The classes can be used as the same ones of the known types. -/
def Class.SameAmong (known : String → Prop) (c c' : Class) : Prop :=
  ∀ type, known type → c.isA type = c'.isA type

theorem Consultation.answer_inj {ω α : Type} (s : σ) {a b : α}
    (h : (answer a : Consultation σ ω α) = answer b) : a = b :=
  Except.ok.inj (congrArg Reply.result (congrFun h s))

namespace ClassFilter

variable {known : String → Prop} {c c' : Class} {filter : ClassFilter σ}

theorem anyAccepts_cons (member : ClassFilter σ) (rest : List (ClassFilter σ)) :
    anyAccepts c (member :: rest) = (member.accepts c).andThen fun accepted =>
      if accepted then answer true else anyAccepts c rest := by
  rw [anyAccepts]
  rfl

theorem allAccept_cons (member : ClassFilter σ) (rest : List (ClassFilter σ)) :
    allAccept c (member :: rest) = (member.accepts c).andThen fun accepted =>
      if accepted then allAccept c rest else answer false := by
  rw [allAccept]
  rfl

/-- The library's own filters are pure, and give classes that can be used as the same types the same
verdict. -/
theorem Asks.accepts_eq (h : filter.Asks known) (hsame : c.SameAmong known c') :
    ∃ verdict, filter.accepts c = answer verdict ∧ filter.accepts c' = answer verdict := by
  induction h with
  | any => exact ⟨true, by rw [accepts]; rfl, by rw [accepts]; rfl⟩
  | @assignableTo type htype =>
    refine ⟨c.isA type, by rw [accepts]; rfl, ?_⟩
    rw [accepts, hsame type htype]
    rfl
  | @union members _ ih =>
    rw [accepts, accepts]
    clear * - ih
    induction members with
    | nil => exact ⟨false, by rw [anyAccepts]; rfl, by rw [anyAccepts]; rfl⟩
    | cons member rest ihrest =>
      obtain ⟨first, hfirst, hfirst'⟩ := ih member List.mem_cons_self
      obtain ⟨later, hlater, hlater'⟩ := ihrest fun m hm => ih m (List.mem_cons_of_mem _ hm)
      rw [anyAccepts_cons, anyAccepts_cons, hfirst, hfirst', Consultation.answer_andThen,
        Consultation.answer_andThen]
      cases first with
      | true => exact ⟨true, rfl, rfl⟩
      | false => exact ⟨later, hlater, hlater'⟩
  | @intersection members _ ih =>
    rw [accepts, accepts]
    clear * - ih
    induction members with
    | nil => exact ⟨true, by rw [allAccept]; rfl, by rw [allAccept]; rfl⟩
    | cons member rest ihrest =>
      obtain ⟨first, hfirst, hfirst'⟩ := ih member List.mem_cons_self
      obtain ⟨later, hlater, hlater'⟩ := ihrest fun m hm => ih m (List.mem_cons_of_mem _ hm)
      rw [allAccept_cons, allAccept_cons, hfirst, hfirst', Consultation.answer_andThen,
        Consultation.answer_andThen]
      cases first with
      | true => exact ⟨later, hlater, hlater'⟩
      | false => exact ⟨false, rfl, rfl⟩

end ClassFilter

/-- The library's own method filters look at nothing but the name, and do not care about
introductions. -/
theorem MethodFilter.IsBuiltin.accepts_eq {filter : MethodFilter σ} (h : filter.IsBuiltin)
    {method method' : Method} (hname : method.name = method'.name) (c c' : Class) :
    filter.introductionAware = false ∧
      ∃ verdict, filter.accepts method c = answer verdict ∧ filter.accepts method' c' = answer verdict ∧
        ∀ has, filter.acceptsKnowing has method c = answer verdict ∧
          filter.acceptsKnowing has method' c' = answer verdict := by
  cases filter with
  | any => exact ⟨rfl, true, rfl, rfl, fun _ => ⟨rfl, rfl⟩⟩
  | named patterns =>
    refine ⟨rfl, NamePattern.anyMatches patterns method.name, rfl, ?_, fun _ => ⟨rfl, ?_⟩⟩
    · rw [hname]
      rfl
    · rw [hname]
      rfl
  | predicate p => exact h.elim

/-! ### Sites with equal keys -/

/-- Two sites that the advisors with known types cannot tell apart: the methods have one name, and the
classes, where filters are asked at all, can be used as the same ones of the known types. -/
structure Site.Alike (known : String → Prop) (site site' : Site) : Prop where
  name : site.method.name = site'.method.name
  preFiltered : site.preFiltered = site'.preFiltered
  sameClass : site.preFiltered = true ∨ site.targetClass.SameAmong known site'.targetClass

section Alike

variable {known : String → Prop} {site site' : Site} {advisor : Advisor σ}
  {advisors rest : List (Advisor σ)}

theorem Class.SameAmong.refl (known : String → Prop) (c : Class) : c.SameAmong known c :=
  fun _ _ => rfl

theorem Advisor.Asks.isPure (h : advisor.Asks known) (site : Site) : advisor.IsPure site := by
  have hpure : ∀ {filter : ClassFilter σ}, filter.Asks known →
      (filter.accepts site.targetClass).IsPure := by
    intro filter hfilter
    obtain ⟨verdict, hverdict, _⟩ := hfilter.accepts_eq (.refl known site.targetClass)
    exact ⟨verdict, hverdict⟩
  cases advisor with
  | unfiltered advice => trivial
  | introduction filter advice interfaces => exact hpure h
  | conditional pointcut advice =>
    obtain ⟨hclass, hmethod⟩ := h
    obtain ⟨_, verdict, haccepts, _, hknowing⟩ :=
      hmethod.accepts_eq (rfl : site.method.name = site.method.name) site.targetClass site.targetClass
    exact ⟨hpure hclass, ⟨verdict, haccepts⟩, fun has => ⟨verdict, (hknowing has).1⟩⟩

theorem Nesting.inClass_eq {filter : ClassFilter σ} (h : filter.Asks known)
    (halike : site.Alike known site') : Nesting.inClass site filter = Nesting.inClass site' filter := by
  rw [Nesting.inClass, Nesting.inClass, ← halike.preFiltered]
  rcases halike.sameClass with hpre | hsame
  · rw [if_pos hpre, if_pos hpre]
  · obtain ⟨verdict, hverdict, hverdict'⟩ := h.accepts_eq hsame
    rw [hverdict, hverdict']

theorem Nesting.applies_eq (h : advisor.Asks known) (halike : site.Alike known site') (has has' : Bool) :
    Nesting.applies site has advisor = Nesting.applies site' has' advisor := by
  cases advisor with
  | unfiltered advice => rfl
  | introduction filter advice interfaces => exact Nesting.inClass_eq h halike
  | conditional pointcut advice =>
    obtain ⟨hclass, hmethod⟩ := h
    obtain ⟨haware, verdict, haccepts, haccepts', _⟩ :=
      hmethod.accepts_eq halike.name site.targetClass site'.targetClass
    have hon : Nesting.onMethod site has pointcut.methodMatcher.filter =
        Nesting.onMethod site' has' pointcut.methodMatcher.filter := by
      simp only [Nesting.onMethod, haware, haccepts, haccepts', Bool.false_eq_true, if_false]
    rw [Nesting.applies, Nesting.applies, Nesting.inClass_eq hclass halike, hon]

namespace Resolution

open Inquiry (Gives)

theorem gives_visit_alike (registry : Registry σ) (s : σ) (halike : site.Alike known site')
    {has has' : Bool} (hintroduced : Gives (introduced site 0 advisors) has)
    (hintroduced' : Gives (introduced site' 0 advisors) has')
    (hrest : ∀ advisor ∈ rest, advisor.Asks known) :
    ∀ (told told' : Option Bool) (position : Nat) (found : List (Link σ)),
      KnowsOnly has told → KnowsOnly has' told' →
      ∃ outcome, Gives (visit registry site advisors told position found rest) outcome ∧
        Gives (visit registry site' advisors told' position found rest) outcome := by
  induction rest with
  | nil => exact fun _ _ _ found _ _ => ⟨.ok found, Inquiry.gives_answer _, Inquiry.gives_answer _⟩
  | cons advisor rest ih =>
    intro told told' position found htold htold'
    have hasks := hrest advisor List.mem_cons_self
    have hlater := ih fun a ha => hrest a (List.mem_cons_of_mem _ ha)
    obtain ⟨verdict, hverdict, hgives⟩ := gives_applies hintroduced (hasks.isPure site)
    obtain ⟨verdict', hverdict', hgives'⟩ := gives_applies hintroduced' (hasks.isPure site')
    have hsame : verdict' = verdict := by
      rw [Nesting.applies_eq hasks halike has has', hverdict'] at hverdict
      exact Consultation.answer_inj s hverdict
    subst hsame
    obtain ⟨next, hnext, hgives⟩ := hgives told position htold
    obtain ⟨next', hnext', hgives'⟩ := hgives' told' position htold'
    cases verdict' with
    | false =>
      obtain ⟨outcome, hvisit, hvisit'⟩ := hlater next next' (position + 1) found hnext hnext'
      exact ⟨outcome, hgives.andThen hvisit, hgives'.andThen hvisit'⟩
    | true =>
      cases hblock : block registry advisor with
      | error e =>
        refine ⟨.error e, hgives.andThen ?_, hgives'.andThen ?_⟩
        · simp only [hblock]
          exact Inquiry.gives_answer _
        · simp only [hblock]
          exact Inquiry.gives_answer _
      | ok links =>
        obtain ⟨outcome, hvisit, hvisit'⟩ :=
          hlater next next' (position + 1) (found ++ links) hnext hnext'
        refine ⟨outcome, hgives.andThen ?_, hgives'.andThen ?_⟩
        · simp only [hblock]
          exact hvisit
        · simp only [hblock]
          exact hvisit'

end Resolution

/-- Alike sites have one outcome: the same chain, or the same error. -/
theorem Registry.resolve_alike (registry : Registry σ) (hasks : ∀ advisor ∈ advisors, advisor.Asks known)
    (halike : site.Alike known site') (s s' : σ) :
    (registry.resolve advisors site s).result = (registry.resolve advisors site' s').result := by
  obtain ⟨has, _, hintroduced⟩ :=
    Resolution.gives_introduced fun advisor ha => (hasks advisor ha).isPure site
  obtain ⟨has', _, hintroduced'⟩ :=
    Resolution.gives_introduced fun advisor ha => (hasks advisor ha).isPure site'
  obtain ⟨outcome, hvisit, hvisit'⟩ := Resolution.gives_visit_alike registry s halike (hintroduced 0)
    (hintroduced' 0) hasks none none 0 [] nofun nofun
  -- the event that reports a chain is no part of the outcome
  have hresult : ∀ (there : Site) (t : σ),
      Inquiry.Gives (Resolution.visit registry there advisors none 0 [] advisors) outcome →
      (registry.resolve advisors there t).result = .ok (outcome.map Chain.mk) := by
    intro there t hgives
    have hresolve : Inquiry.Gives (registry.resolve advisors there) (outcome.map Chain.mk) := by
      refine hgives.andThen ?_
      cases outcome with
      | error e => exact Inquiry.gives_answer _
      | ok links => exact (Inquiry.gives_report _).andThen (Inquiry.gives_answer _)
    exact (hresolve t).1
  rw [hresult site s hvisit, hresult site' s' hvisit']

end Alike

/-- Advice for the classes that can be used as the type. -/
def typedAdvisor (type : String) : Advisor Unit :=
  .conditional { classFilter := .assignableTo type } (.before fun _ _ _ => pure (.ok ()))

theorem typedAdvisor_isBuiltin (type : String) : (typedAdvisor type).IsBuiltin :=
  ⟨.assignableTo trivial, trivial⟩

theorem resolve_typedAdvisor (type : String) (method : Method) (c : Class) :
    (Registry.standard.resolve [typedAdvisor type] (.of method (some c) false) ()).result =
      .ok (.ok ⟨if c.isA type then Registry.standard.block (typedAdvisor type) else []⟩) := by
  generalize hverdict : c.isA type = verdict
  have hfilter : (ClassFilter.assignableTo type : ClassFilter Unit).accepts c = answer verdict := by
    rw [ClassFilter.accepts, hverdict]
    rfl
  simp only [Registry.resolve, Resolution.visit, typedAdvisor, Resolution.applies_conditional,
    Resolution.classAccepted, Site.of, Option.getD_some, hfilter]
  cases verdict with
  | true => rfl
  | false => rfl

/-- The chains for one advisor tell the classes apart that cannot both be used as its type. -/
theorem isA_eq_of_resolve_typedAdvisor {type : String} {method method' : Method} {c c' : Class}
    (h : (Registry.standard.resolve [typedAdvisor type] (.of method (some c) false) ()).result =
      (Registry.standard.resolve [typedAdvisor type] (.of method' (some c') false) ()).result) :
    c.isA type = c'.isA type := by
  have hblock : Registry.standard.block (typedAdvisor type) ≠ [] := List.cons_ne_nil _ _
  rw [resolve_typedAdvisor, resolve_typedAdvisor] at h
  have hlinks := congrArg Chain.links (Except.ok.inj (Except.ok.inj h))
  cases hfirst : c.isA type with
  | true =>
    cases hsecond : c'.isA type with
    | true => rfl
    | false =>
      rw [hfirst, hsecond] at hlinks
      exact absurd hlinks hblock
  | false =>
    cases hsecond : c'.isA type with
    | true =>
      rw [hfirst, hsecond] at hlinks
      exact absurd hlinks.symm hblock
    | false => rfl

/-- Equal classes can be used as the same types when they declare the same supertypes, in whatever order
and whether or not they declare themselves. -/
theorem Class.isA_eq_iff {c c' : Class} (hclass : (c == c') = true) :
    (∀ type, c.isA type = c'.isA type) ↔
      ∀ type, type ≠ c.name → (type ∈ c.supertypes ↔ type ∈ c'.supertypes) := by
  have hname : c.name = c'.name := (beq_iff c c').mp hclass
  constructor
  · intro h type hother
    have hself : (c.name == type) = false := beq_false_of_ne (Ne.symm hother)
    have hsame := h type
    rw [isA, isA, ← hname, hself, Bool.false_or, Bool.false_or] at hsame
    rw [← List.contains_iff_mem, ← List.contains_iff_mem, hsame]
  · intro h type
    rw [isA, isA, ← hname]
    by_cases hself : type = c.name
    · rw [hself, beq_self_eq_true, Bool.true_or, Bool.true_or]
    · congr 1
      rw [Bool.eq_iff_iff, List.contains_iff_mem, List.contains_iff_mem]
      exact h type hself

/-- **What a key decides.** Equal methods and equal classes always resolve to one outcome, by whatever
advisors with filters of the library's own, if and only if these filters are not asked, or the two
classes declare the same supertypes. -/
theorem Class.key_decides_iff {method method' : Method} {c c' : Class}
    (hmethod : (method == method') = true) (hclass : (c == c') = true) (preFiltered : Bool) :
    (∀ (σ : Type) (registry : Registry σ) (advisors : List (Advisor σ)) (s s' : σ),
      (∀ advisor ∈ advisors, advisor.IsBuiltin) →
      (registry.resolve advisors (.of method (some c) preFiltered) s).result =
        (registry.resolve advisors (.of method' (some c') preFiltered) s').result) ↔
    preFiltered = true ∨ ∀ type, type ≠ c.name → (type ∈ c.supertypes ↔ type ∈ c'.supertypes) := by
  rw [← Class.isA_eq_iff hclass]
  constructor
  · intro hdecides
    cases preFiltered with
    | true => exact .inl rfl
    | false =>
      refine .inr fun type => isA_eq_of_resolve_typedAdvisor (hdecides Unit .standard _ () () ?_)
      intro advisor hadvisor
      rw [List.mem_singleton.mp hadvisor]
      exact typedAdvisor_isBuiltin type
  · intro hsame σ registry advisors s s' hbuiltin
    have hname : method.name = method'.name := by
      simp only [BEq.beq, Bool.and_eq_true, decide_eq_true_eq] at hmethod
      exact hmethod.1.1
    have halike : Site.Alike (fun _ => True) (.of method (some c) preFiltered)
        (.of method' (some c') preFiltered) := by
      refine ⟨hname, rfl, hsame.imp_right fun h => ?_⟩
      exact fun type _ => h type
    exact registry.resolve_alike hbuiltin halike s s'

theorem key_decides_reordered :
    let declared : Class := ⟨"Account", ["Audited", "Service"]⟩
    let reordered : Class := ⟨"Account", ["Service", "Audited"]⟩
    let advisors := [typedAdvisor "Audited", typedAdvisor "Lockable", typedAdvisor "Service"]
    let outcome := fun c : Class => (Registry.standard.resolve advisors (.of default (some c) false) ()).result
    (declared == reordered) = true ∧ outcome declared = outcome reordered := by
  intro declared reordered advisors outcome
  have hmethod : ((default : Method) == default) = true := by decide
  have hclass : (declared == reordered) = true := by decide
  have hdecides := (Class.key_decides_iff hmethod hclass false).mpr
    (.inr fun type _ => by rw [List.mem_pair, List.mem_pair]; exact or_comm)
  refine ⟨hclass, hdecides Unit .standard advisors () () fun advisor hadvisor => ?_⟩
  simp only [advisors, List.mem_cons, List.not_mem_nil, or_false] at hadvisor
  obtain rfl | rfl | rfl := hadvisor <;> exact typedAdvisor_isBuiltin _

/-- Equal keys, of which only the first is of a class that declares the type the advisor asks about. -/
theorem key_decides_undeclared :
    ∃ (method : Method) (c c' : Class) (advisors : List (Advisor Unit)),
      (method == method) = true ∧ (c == c') = true ∧ (∀ advisor ∈ advisors, advisor.IsBuiltin) ∧
      (Registry.standard.resolve advisors (.of method (some c) false) ()).result ≠
        (Registry.standard.resolve advisors (.of method (some c') false) ()).result := by
  refine ⟨default, ⟨"Account", ["Audited"]⟩, ⟨"Account", []⟩, [typedAdvisor "Audited"], by decide,
    by decide, ?_, fun h => ?_⟩
  · intro advisor hadvisor
    rw [List.mem_singleton.mp hadvisor]
    exact typedAdvisor_isBuiltin "Audited"
  · exact absurd (isA_eq_of_resolve_typedAdvisor h) (by decide)

end Interception
