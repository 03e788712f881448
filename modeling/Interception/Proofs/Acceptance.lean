import Interception.Proofs.Assembly
import Interception.Proofs.Editing

/-! Advice that was accepted. Whether advice is supported is decided by one pass over the adapters when it
is put in, and its interceptors are made by another when a chain is assembled. Where every adapter keeps
its promise the two agree, so a proxy into which nothing came but accepted advice always has a chain. -/

namespace Interception

variable {σ : Type}

/-- Every adapter of the registry keeps its promise. -/
def Registry.IsFaithful (registry : Registry σ) : Prop := ∀ adapter ∈ registry.adapters, adapter.IsFaithful

namespace Registry

variable {registry : Registry σ} {advisor : Advisor σ}

theorem isFaithful_standard : (standard : Registry σ).IsFaithful := by
  intro adapter hadapter advisor hsupports
  simp only [standard, List.mem_cons, List.not_mem_nil, or_false] at hadapter
  obtain rfl | rfl | rfl := hadapter <;>
    cases hadvice : advisor.advice <;>
    simp_all [Adapter.before, Adapter.afterReturning, Adapter.afterThrowing]

theorem IsFaithful.register (hregistry : registry.IsFaithful) {adapter : Adapter σ}
    (hadapter : adapter.IsFaithful) : (registry.register adapter).IsFaithful := by
  intro a ha
  rcases List.mem_append.mp ha with hold | hnew
  · exact hregistry a hold
  · rw [List.mem_singleton.mp hnew]
    exact hadapter

/-- What contributes an interceptor is around advice itself, or an adapter that supports the advice. -/
theorem supports_of_mem_candidates {interceptor : Interceptor σ}
    (h : interceptor ∈ registry.candidates advisor) : registry.supports advisor.advice = true := by
  unfold supports
  rcases List.mem_append.mp h with haround | hadapted
  · rw [Option.mem_toList.mp haround]
    rfl
  · obtain ⟨adapter, hadapter, _⟩ := List.mem_filterMap.mp hadapted
    obtain ⟨hmem, hsupports⟩ := List.mem_filter.mp hadapter
    rw [List.any_eq_true.mpr ⟨adapter, hmem, hsupports⟩, Bool.or_true]

theorem IsFaithful.exists_mem_candidates (hfaithful : registry.IsFaithful)
    (hsupports : registry.supports advisor.advice = true) :
    ∃ interceptor, interceptor ∈ registry.candidates advisor := by
  rcases Bool.or_eq_true_iff.mp hsupports with haround | hany
  · obtain ⟨interceptor, hinterceptor⟩ := Option.isSome_iff_exists.mp haround
    exact ⟨interceptor, List.mem_append_left _ (Option.mem_toList.mpr hinterceptor)⟩
  · obtain ⟨adapter, hmem, hadapter⟩ := List.any_eq_true.mp hany
    obtain ⟨interceptor, hinterceptor⟩ :=
      Option.isSome_iff_exists.mp (hfaithful adapter hmem advisor hadapter)
    refine ⟨interceptor, List.mem_append_right _ (List.mem_filterMap.mpr ⟨adapter, ?_, hinterceptor⟩)⟩
    exact List.mem_filter.mpr ⟨hmem, hadapter⟩

/-- The two passes over the adapters agree. -/
theorem IsFaithful.supports_iff (hfaithful : registry.IsFaithful) (advisor : Advisor σ) :
    registry.supports advisor.advice = true ↔
      ∃ interceptors, registry.interceptors advisor = .ok interceptors := by
  unfold interceptors
  constructor
  · intro hsupports
    obtain ⟨interceptor, hmem⟩ := hfaithful.exists_mem_candidates hsupports
    cases hcandidates : registry.candidates advisor with
    | nil =>
      rw [hcandidates] at hmem
      exact absurd hmem List.not_mem_nil
    | cons first others => exact ⟨first :: others, rfl⟩
  · rintro ⟨interceptors, hinterceptors⟩
    cases hcandidates : registry.candidates advisor with
    | nil =>
      rw [hcandidates] at hinterceptors
      cases hinterceptors
    | cons first others => exact supports_of_mem_candidates (hcandidates ▸ List.mem_cons_self)

/-- Every advisor of the list applies its advice everywhere, and the advice is supported. -/
def Accepts (registry : Registry σ) (advisors : List (Advisor σ)) : Prop :=
  ∀ advisor ∈ advisors, ∃ advice, advisor = .always advice ∧ registry.supports advice = true

theorem accepts_nil (registry : Registry σ) : registry.Accepts [] :=
  fun _ h => absurd h List.not_mem_nil

end Registry

/-! ### Histories -/

/-- The edit puts an advisor in as it is given, whether or not its advice is supported. -/
def Edit.IsUnchecked : Edit σ → Prop
  | .add _ | .insert _ _ => True
  | .remove _ | .addAdvice _ => False

namespace Proxy

variable {p : Proxy σ}

theorem insert_ok {position : Nat} {advisor : Advisor σ} (h : (p.insert position advisor).1 = .ok ()) :
    (p.insert position advisor).2 = { p with advisors := p.advisors.insertIdx position advisor } := by
  unfold insert at h ⊢
  cases herror : p.insertionError? position advisor with
  | some e =>
    rw [herror] at h
    cases h
  | none => rfl

/-- Accepted advice comes in as an advisor that applies it everywhere. -/
theorem addAdvice_ok {advice : Advice σ} (h : (p.addAdvice advice).1 = .ok ()) :
    p.registry.supports advice = true ∧ (p.addAdvice advice).2 =
      { p with advisors := p.advisors.insertIdx p.advisors.length (.always advice) } := by
  unfold addAdvice advisorFor Registry.wrap at h ⊢
  by_cases hfrozen : p.config.frozen = true
  · rw [if_pos hfrozen] at h
    cases h
  · rw [if_neg hfrozen] at h ⊢
    by_cases hsupports : p.registry.supports advice = true
    · rw [if_pos hsupports] at h ⊢
      exact ⟨hsupports, insert_ok h⟩
    · rw [if_neg hsupports] at h
      cases h

theorem remove_ok {position : Nat} {advisor : Advisor σ} (h : (p.remove position).1 = .ok advisor) :
    (p.remove position).2 = { p with advisors := p.advisors.eraseIdx position } := by
  unfold remove at h ⊢
  by_cases hfrozen : p.config.frozen = true
  · rw [if_pos hfrozen] at h
    cases h
  · rw [if_neg hfrozen] at h ⊢
    cases hposition : p.advisors[position]? with
    | none =>
      rw [hposition] at h
      cases h
    | some taken => rfl

/-- **What one edit keeps**, unless it puts in an advisor that was not looked at. -/
theorem accepts_edit (haccepts : p.registry.Accepts p.advisors) {edit : Edit σ}
    (hedit : edit.IsUnchecked → ∃ e, (p.edit edit).1 = .error e) :
    (p.edit edit).2.registry = p.registry ∧ p.registry.Accepts (p.edit edit).2.advisors := by
  have hrefused : ∀ e, (p.edit edit).1 = .error e →
      (p.edit edit).2.registry = p.registry ∧ p.registry.Accepts (p.edit edit).2.advisors := by
    intro e he
    rw [p.edit_refused edit he]
    exact ⟨rfl, haccepts⟩
  cases edit with
  | add advisor =>
    obtain ⟨e, he⟩ := hedit trivial
    exact hrefused e he
  | insert position advisor =>
    obtain ⟨e, he⟩ := hedit trivial
    exact hrefused e he
  | remove position =>
    cases hremove : (p.remove position).1 with
    | error e => exact hrefused e (congrArg (Except.map some) hremove)
    | ok taken =>
      have hleft : (p.edit (.remove position)).2 = _ := remove_ok hremove
      rw [hleft]
      exact ⟨rfl, fun a ha => haccepts a (List.mem_of_mem_eraseIdx ha)⟩
  | addAdvice advice =>
    cases hadd : (p.addAdvice advice).1 with
    | error e => exact hrefused e (congrArg (Except.map fun _ => none) hadd)
    | ok added =>
      obtain ⟨hsupports, hleft⟩ := addAdvice_ok hadd
      have hleft : (p.edit (.addAdvice advice)).2 = _ := hleft
      rw [hleft]
      refine ⟨rfl, fun a ha => ?_⟩
      rcases (List.mem_insertIdx (Nat.le_refl _)).mp ha with rfl | hold
      · exact ⟨advice, rfl, hsupports⟩
      · exact haccepts a hold

/-- What a history of edits keeps, unless one of them puts in an advisor that was not looked at. -/
theorem accepts_edits (history : List (Edit σ)) :
    ∀ {p : Proxy σ}, p.registry.Accepts p.advisors →
      (∀ x ∈ history.zip (p.edits history).1, x.1.IsUnchecked → ∃ e, x.2 = .error e) →
      (p.edits history).2.registry = p.registry ∧ p.registry.Accepts (p.edits history).2.advisors := by
  induction history with
  | nil => exact fun haccepts _ => ⟨rfl, haccepts⟩
  | cons edit rest ih =>
    intro p haccepts hhistory
    obtain ⟨hregistry, hkept⟩ := accepts_edit haccepts (hhistory _ List.mem_cons_self)
    rw [← hregistry] at hkept
    have hrest := ih hkept fun x hx => hhistory x (List.mem_cons_of_mem _ hx)
    rw [hregistry] at hrest
    exact hrest

end Proxy

/-! ### Chains -/

section Chains

open Inquiry (Gives)

variable {registry : Registry σ} {site : Site} {advisors rest : List (Advisor σ)}

/-- Advice that applies everywhere applies, whatever is known of introductions. -/
theorem Resolution.gives_applies_always (known : Option Bool) (position : Nat) (advice : Advice σ) :
    Gives (applies site advisors known position (.always advice)) (true, known) := by
  have hmethod : Gives (methodAccepted site advisors known position .any) (true, known) := by
    rw [methodAccepted_unaware _ rfl]
    exact (Inquiry.gives_ask _ _ true).andThen (Inquiry.gives_answer _)
  unfold Advisor.always
  rw [applies_conditional]
  have hclass : Gives (classAccepted site position (Pointcut.always : Pointcut σ).classFilter) true := by
    cases hpre : site.preFiltered with
    | true =>
      rw [classAccepted_of_preFiltered _ hpre]
      exact Inquiry.gives_answer true
    | false =>
      rw [classAccepted_of_not_preFiltered _ hpre]
      exact Inquiry.gives_ask _ _ true
  exact hclass.andThen hmethod

/-- A visit of accepted advice finds links, whatever the site. -/
theorem Registry.IsFaithful.gives_visit (hfaithful : registry.IsFaithful) (haccepts : registry.Accepts rest)
    (site : Site) (advisors : List (Advisor σ)) (known : Option Bool) (position : Nat)
    (found : List (Link σ)) :
    ∃ links, Gives (Resolution.visit registry site advisors known position found rest) (.ok links) := by
  induction rest generalizing position found with
  | nil => exact ⟨found, Inquiry.gives_answer _⟩
  | cons advisor rest ih =>
    obtain ⟨advice, rfl, hsupports⟩ := haccepts _ List.mem_cons_self
    obtain ⟨interceptors, hinterceptors⟩ := (hfaithful.supports_iff (.always advice)).mp hsupports
    have hblock : Resolution.block registry (.always advice) =
        .ok (interceptors.map (Link.under (Resolution.matcher (.always advice)))) := by
      rw [Resolution.block, hinterceptors]
      rfl
    obtain ⟨links, hlinks⟩ :=
      ih (fun a ha => haccepts a (List.mem_cons_of_mem _ ha)) (position + 1) (found ++ _)
    refine ⟨links, (Resolution.gives_applies_always known position advice).andThen ?_⟩
    simp only [hblock]
    exact hlinks

theorem Proxy.gives_chainFor_of_accepts {p : Proxy σ} (hfaithful : p.registry.IsFaithful)
    (haccepts : p.registry.Accepts p.advisors) (method : Method) (targetClass : Option Class) :
    ∃ chain, Gives (p.chainFor method targetClass) (.ok chain) := by
  obtain ⟨links, hlinks⟩ :=
    hfaithful.gives_visit haccepts (.of method targetClass p.config.preFiltered) p.advisors none 0 []
  have hresolve : Gives (p.registry.resolve p.advisors (.of method targetClass p.config.preFiltered))
      (.ok ⟨links⟩) :=
    hlinks.andThen ((Inquiry.gives_report _).andThen (Inquiry.gives_answer _))
  exact ⟨_, hresolve.andThen (Inquiry.gives_answer _)⟩

/-- **What was accepted can be resolved.** Over adapters that keep their promise advice is supported
exactly if every advisor that carries it has interceptors. So after every history of edits in which all
that came in was accepted advice, there is a chain for every method on every class, whatever the switches
of the proxy. -/
theorem Registry.accepted_resolves (registry : Registry σ) (hfaithful : registry.IsFaithful) :
    (∀ advisor, registry.supports advisor.advice = true ↔
      ∃ interceptors, registry.interceptors advisor = .ok interceptors) ∧
    ∀ (config : ProxyConfig) (history : List (Edit σ)),
      let edited := Proxy.edits { config, registry } history
      (∀ x ∈ history.zip edited.1, x.1.IsUnchecked → ∃ e, x.2 = .error e) →
      ∀ (switches : ProxyConfig) (method : Method) (targetClass : Option Class), ∃ chain,
        Gives (({ edited.2 with config := switches } : Proxy σ).chainFor method targetClass)
          (.ok chain) := by
  refine ⟨hfaithful.supports_iff, fun config history hhistory switches method targetClass => ?_⟩
  obtain ⟨hregistry, haccepts⟩ := Proxy.accepts_edits history registry.accepts_nil hhistory
  let p : Proxy σ := { (Proxy.edits { config, registry } history).2 with config := switches }
  have hsame : p.registry = registry := hregistry
  have hfaithful' : p.registry.IsFaithful := hsame ▸ hfaithful
  have haccepts' : p.registry.Accepts p.advisors := hsame ▸ haccepts
  exact Proxy.gives_chainFor_of_accepts hfaithful' haccepts' method targetClass

/-- Makes interceptors of advice of a kind of the user's own, and of around advice once more. -/
def auditAdapter : Adapter Unit where
  supports
    | .extension type _ => type == "audit"
    | .around _ => true
    | _ => false
  interceptor? _ := some ⟨some 1, .instrumented "audit"⟩

/-- Edits of which those are refused that would put in advice that was not looked at. -/
def acceptedOnly : List (Edit Unit) :=
  let proceeding : Advice Unit := .around ⟨some 0, .around Program.proceed⟩
  [.addAdvice (.before fun _ _ _ => pure (.ok ())),
   .addAdvice (.extension "audit" .unit),
   .insert 3 (.unfiltered (.extension "cache" .unit)),
   .addAdvice (.extension "cache" .unit),
   .remove 0,
   .add (.introduction .any (.extension "cache" .unit) []),
   .addAdvice proceeding]

theorem accepted_resolves_auditing :
    let registry := Registry.standard.register auditAdapter
    let edited := Proxy.edits { config := {}, registry } acceptedOnly
    registry.IsFaithful ∧
      (∀ x ∈ acceptedOnly.zip edited.1, x.1.IsUnchecked → ∃ e, x.2 = .error e) ∧
      ∃ chain : Chain Unit, chain.links.length = 4 ∧
        Gives (({ edited.2 with config := { exposeInvocation := true } } : Proxy Unit).chainFor default none)
          (.ok chain) := by
  intro registry edited
  have hfaithful : registry.IsFaithful := Registry.isFaithful_standard.register fun _ _ => rfl
  have hhistory : ∀ x ∈ acceptedOnly.zip edited.1, x.1.IsUnchecked → ∃ e, x.2 = .error e := by
    have hanswers : edited.1 =
        [.ok none, .ok none, .error (.indexOutOfBounds 3 2), .error (.unknownAdvice "cache"),
          .ok (some (.always (.before fun _ _ _ => pure (.ok ())))), .error .emptyIntroduction, .ok none] :=
      rfl
    rw [hanswers]
    simp [acceptedOnly, Edit.IsUnchecked]
  obtain ⟨chain, hchain⟩ := (registry.accepted_resolves hfaithful).2 {} acceptedOnly hhistory
    { exposeInvocation := true } default none
  have hresult := (hchain ()).1
  have hlength : chain.links.length = 4 := by
    cases hresult
    rfl
  exact ⟨hfaithful, hhistory, chain, hlength, hchain⟩

end Chains

end Interception
