import Interception.Proofs.Assembly

/-! Advisors that were matched against the class before. A proxy may be given only those whose class
filters accept the class of the target, and be told so: class filters are then not asked again, except to
find out about introductions. From pure predicates it assembles the same chain as from the whole list, or
fails with the same error. -/

namespace Interception

open Consultation (answer)

variable {σ : Type}

/-- Whether a query, asked in the state, is answered with yes. -/
def Query.holds (q : Query σ Bool) (s : σ) : Bool :=
  match (q s).result with
  | .ok verdict => verdict
  | .error _ => false

/-- Whether the advisor is left in a list that is matched against the class; `s` is the state in which
its class filter is asked then. -/
def Advisor.passes (c : Class) (s : σ) : Advisor σ → Bool
  | .conditional pointcut _ => Query.holds (pointcut.classFilter.accepts c) s
  | .introduction filter _ _ => Query.holds (filter.accepts c) s
  | .unfiltered _ => true

/-- The advisors that are left of a list that is matched against the class, in their order. -/
def Advisor.matching (c : Class) (s : σ) (advisors : List (Advisor σ)) : List (Advisor σ) :=
  advisors.filter (·.passes c s)

/-- A pure query answers with what it is found to hold. -/
theorem Query.eq_answer_of_holds {q : Query σ Bool} {s : σ} {verdict : Bool} (hpure : q.IsPure)
    (h : q.holds s = verdict) : q = answer verdict := by
  obtain ⟨a, rfl⟩ := hpure
  have ha : a = verdict := h
  rw [ha]

namespace Nesting

variable {method : Method} {c : Class} {s : σ} {has : Bool} {advisor : Advisor σ}

/-- An advisor that is left applies where it does in the whole list. -/
theorem applies_of_passes (hpure : advisor.IsPure ⟨method, c, false⟩) (hpasses : advisor.passes c s = true) :
    applies ⟨method, c, true⟩ has advisor = applies ⟨method, c, false⟩ has advisor := by
  cases advisor with
  | unfiltered advice => rfl
  | introduction filter advice interfaces =>
    have haccepts : filter.accepts c = answer true := Query.eq_answer_of_holds hpure hpasses
    exact haccepts.symm
  | conditional pointcut advice =>
    have haccepts : pointcut.classFilter.accepts c = answer true :=
      Query.eq_answer_of_holds hpure.1 hpasses
    have hclass : inClass ⟨method, c, false⟩ pointcut.classFilter =
        inClass ⟨method, c, true⟩ pointcut.classFilter :=
      haccepts
    simp only [applies, onMethod, hclass]

/-- An advisor that is not left does not apply. -/
theorem applies_of_not_passes (hpure : advisor.IsPure ⟨method, c, false⟩)
    (hpasses : advisor.passes c s = false) :
    applies ⟨method, c, false⟩ has advisor = answer false := by
  cases advisor with
  | unfiltered advice => cases hpasses
  | introduction filter advice interfaces =>
    have hrejects : filter.accepts c = answer false := Query.eq_answer_of_holds hpure hpasses
    exact hrejects
  | conditional pointcut advice =>
    have hrejects : pointcut.classFilter.accepts c = answer false :=
      Query.eq_answer_of_holds hpure.1 hpasses
    show Consultation.andThen (pointcut.classFilter.accepts c) _ = answer false
    rw [hrejects]
    exact Consultation.answer_andThen _ _

/-- What is left of a list introduces what the whole list does: an introduction that is not left does not
apply to the class. -/
theorem introduced_matching {advisors : List (Advisor σ)}
    (hpure : ∀ advisor ∈ advisors, advisor.IsPure ⟨method, c, false⟩) :
    introduced c (Advisor.matching c s advisors) = introduced c advisors := by
  induction advisors with
  | nil => rfl
  | cons advisor rest ih =>
    have hrest := ih fun a ha => hpure a (List.mem_cons_of_mem _ ha)
    unfold Advisor.matching at hrest ⊢
    rw [List.filter_cons]
    by_cases hpasses : advisor.passes c s = true
    · rw [if_pos hpasses]
      cases advisor with
      | conditional pointcut advice => exact hrest
      | unfiltered advice => exact hrest
      | introduction filter advice interfaces => simp only [introduced, hrest]
    · rw [if_neg hpasses, hrest]
      cases advisor with
      | conditional pointcut advice => rfl
      | unfiltered advice => rfl
      | introduction filter advice interfaces =>
        have hrejects : filter.accepts c = answer false :=
          Query.eq_answer_of_holds (hpure _ List.mem_cons_self) (Bool.eq_false_iff.mpr hpasses)
        show introduced c rest =
          Consultation.andThen (filter.accepts c) fun has => if has then answer true else introduced c rest
        rw [hrejects, Consultation.answer_andThen, if_neg Bool.false_ne_true]

end Nesting

section Prefiltered

open Inquiry (Gives)

variable {method : Method} {c : Class} {s : σ} {has : Bool}
  {advisors rest : List (Advisor σ)}

/-- One advisor in both lists: if it is left, it applies in both or in neither, and if it is not, it does
not apply in the whole list. -/
theorem Resolution.gives_applies_matching {advisor : Advisor σ}
    (hwhole : Gives (introduced ⟨method, c, false⟩ 0 advisors) has)
    (hleft : Gives (introduced ⟨method, c, true⟩ 0 (Advisor.matching c s advisors)) has)
    (hpure : advisor.IsPure ⟨method, c, false⟩) {known known' : Option Bool}
    (hknown : KnowsOnly has known) (hknown' : KnowsOnly has known') (position position' : Nat) :
    ∃ verdict learnt, KnowsOnly has learnt ∧
      Gives (applies ⟨method, c, false⟩ advisors known position advisor) (verdict, learnt) ∧
      (advisor.passes c s = false → verdict = false) ∧
      (advisor.passes c s = true → ∃ learnt', KnowsOnly has learnt' ∧
        Gives (applies ⟨method, c, true⟩ (Advisor.matching c s advisors) known' position' advisor)
          (verdict, learnt')) := by
  obtain ⟨verdict, hverdict, hgives⟩ := gives_applies hwhole hpure
  obtain ⟨learnt, hlearnt, hgives⟩ := hgives known position hknown
  refine ⟨verdict, learnt, hlearnt, hgives, fun hpasses => ?_, fun hpasses => ?_⟩
  · rw [Nesting.applies_of_not_passes hpure hpasses] at hverdict
    exact (Except.ok.inj (congrArg Reply.result (congrFun hverdict s))).symm
  · have hpure' : advisor.IsPure ⟨method, c, true⟩ := by cases advisor <;> exact hpure
    obtain ⟨verdict', hverdict', hgives'⟩ := gives_applies hleft hpure'
    have hsame : verdict' = verdict := by
      rw [Nesting.applies_of_passes hpure hpasses, hverdict] at hverdict'
      exact (Except.ok.inj (congrArg Reply.result (congrFun hverdict' s))).symm
    rw [← hsame]
    exact hgives' known' position' hknown'

/-- The two visits go over the advisors side by side; where they stand and what they know of introductions
may differ. -/
theorem Resolution.gives_visit_matching (registry : Registry σ)
    (hwhole : Gives (introduced ⟨method, c, false⟩ 0 advisors) has)
    (hleft : Gives (introduced ⟨method, c, true⟩ 0 (Advisor.matching c s advisors)) has)
    (hpure : ∀ advisor ∈ rest, advisor.IsPure ⟨method, c, false⟩) {known known' : Option Bool}
    (hknown : KnowsOnly has known) (hknown' : KnowsOnly has known') (position position' : Nat)
    (found : List (Link σ)) :
    ∃ visited,
      Gives (visit registry ⟨method, c, false⟩ advisors known position found rest) visited ∧
      Gives (visit registry ⟨method, c, true⟩ (Advisor.matching c s advisors) known' position' found
        (Advisor.matching c s rest)) visited := by
  induction rest generalizing known known' position position' found with
  | nil => exact ⟨.ok found, Inquiry.gives_answer _, Inquiry.gives_answer _⟩
  | cons advisor rest ih =>
    have hrest : ∀ advisor ∈ rest, advisor.IsPure ⟨method, c, false⟩ :=
      fun a ha => hpure a (List.mem_cons_of_mem _ ha)
    obtain ⟨verdict, learnt, hlearnt, happlies, hrejected, hpassed⟩ :=
      gives_applies_matching hwhole hleft (hpure advisor List.mem_cons_self) hknown hknown' position position'
    by_cases hpasses : advisor.passes c s = true
    · have hmatching : Advisor.matching c s (advisor :: rest) = advisor :: Advisor.matching c s rest :=
        List.filter_cons_of_pos hpasses
      rw [hmatching]
      obtain ⟨learnt', hlearnt', happlies'⟩ := hpassed hpasses
      cases verdict with
      | false =>
        obtain ⟨visited, hvisited, hvisited'⟩ :=
          ih hrest hlearnt hlearnt' (position + 1) (position' + 1) found
        exact ⟨visited, happlies.andThen hvisited, happlies'.andThen hvisited'⟩
      | true =>
        cases hblock : block registry advisor with
        | error e =>
          refine ⟨.error e, happlies.andThen ?_, happlies'.andThen ?_⟩
          · simp only [hblock]
            exact Inquiry.gives_answer _
          · simp only [hblock]
            exact Inquiry.gives_answer _
        | ok links =>
          obtain ⟨visited, hvisited, hvisited'⟩ :=
            ih hrest hlearnt hlearnt' (position + 1) (position' + 1) (found ++ links)
          refine ⟨visited, happlies.andThen ?_, happlies'.andThen ?_⟩
          · simp only [hblock]
            exact hvisited
          · simp only [hblock]
            exact hvisited'
    · have hmatching : Advisor.matching c s (advisor :: rest) = Advisor.matching c s rest :=
        List.filter_cons_of_neg hpasses
      rw [hmatching]
      -- only the whole list comes to this advisor, and passes it over
      rw [hrejected (Bool.eq_false_iff.mpr hpasses)] at happlies
      obtain ⟨visited, hvisited, hvisited'⟩ := ih hrest hlearnt hknown' (position + 1) position' found
      exact ⟨visited, happlies.andThen hvisited, hvisited'⟩

/-- **Matching a list against the class beforehand changes nothing.** From pure predicates, what is left of
the list comes to the same chain with class filters not asked again as the whole list does with class
filters asked, or to the same error. -/
theorem Registry.resolve_matching (registry : Registry σ) (advisors : List (Advisor σ)) (method : Method)
    (targetClass : Option Class)
    (hpure : ∀ advisor ∈ advisors, advisor.IsPure (.of method targetClass false)) (s : σ) :
    ∃ resolved,
      Gives (registry.resolve advisors (.of method targetClass false)) resolved ∧
      Gives (registry.resolve
        (Advisor.matching (targetClass.getD method.declaringClass) s advisors)
        (.of method targetClass true)) resolved := by
  generalize hc : targetClass.getD method.declaringClass = c
  have hwholeSite : Site.of method targetClass false = ⟨method, c, false⟩ := by rw [Site.of, hc]
  have hleftSite : Site.of method targetClass true = ⟨method, c, true⟩ := by rw [Site.of, hc]
  rw [hwholeSite] at hpure
  rw [hwholeSite, hleftSite]
  have hpureLeft : ∀ advisor ∈ Advisor.matching c s advisors, advisor.IsPure ⟨method, c, true⟩ := by
    intro advisor hadvisor
    have := hpure advisor (List.mem_of_mem_filter hadvisor)
    cases advisor <;> exact this
  obtain ⟨has, hnested, hwhole⟩ := Resolution.gives_introduced hpure
  obtain ⟨has', hnested', hleft⟩ := Resolution.gives_introduced hpureLeft
  have hsame : has' = has := by
    have hmatching := Nesting.introduced_matching (s := s) hpure
    rw [show Nesting.introduced c (Advisor.matching c s advisors) = answer has' from hnested',
      show Nesting.introduced c advisors = answer has from hnested] at hmatching
    exact Except.ok.inj (congrArg Reply.result (congrFun hmatching s))
  subst hsame
  have hnone : Resolution.KnowsOnly has' none := nofun
  obtain ⟨visited, hvisited, hvisited'⟩ :=
    Resolution.gives_visit_matching registry (hwhole 0) (hleft 0) hpure hnone hnone 0 0 []
  cases visited with
  | error e =>
    exact ⟨.error e, hvisited.andThen (Inquiry.gives_answer _), hvisited'.andThen (Inquiry.gives_answer _)⟩
  | ok links =>
    have hreported : ∀ event, Gives
        (Consultation.andThen (Inquiry.report event) fun _ =>
          (answer (.ok ⟨links⟩) : Inquiry σ (Except AdvisorError (Chain σ)))) (.ok ⟨links⟩) :=
      fun event => (Inquiry.gives_report event).andThen (Inquiry.gives_answer _)
    exact ⟨.ok ⟨links⟩, hvisited.andThen (hreported _), hvisited'.andThen (hreported _)⟩

/-- Unsupported advice and an introduction for classes of another name, advice that depends on
introductions, and an introduction for every class. -/
def mixedAdvisors : List (Advisor Unit) :=
  [.conditional { classFilter := .assignableTo "Other" } (.extension "audit" .unit),
   .introduction (.assignableTo "Other") (.around ⟨some 0, .around Program.proceed⟩) ["Audited"],
   .conditional
    { classFilter := .predicate fun c => pure (c.name != "Other")
      methodMatcher := .static (.predicate
        { accepts := fun _ _ => pure false
          introductionAware := true
          acceptsKnowing := fun has _ _ => pure has }) }
    (.before fun _ _ _ => pure (.ok ())),
   .introduction .any (.around ⟨some 1, .around Program.proceed⟩) ["Lockable"]]

theorem resolve_matching_mixed :
    let left := mixedAdvisors.drop 2
    Advisor.matching default () mixedAdvisors = left ∧
      ∃ chain : Chain Unit, chain.links = left.flatMap Registry.standard.block ∧
        Gives (Registry.standard.resolve mixedAdvisors (.of default none false)) (.ok chain) ∧
        Gives (Registry.standard.resolve left (.of default none true)) (.ok chain) := by
  intro left
  have hmatching : Advisor.matching (Option.getD none (default : Method).declaringClass) () mixedAdvisors =
    left := rfl
  have hpure : ∀ advisor ∈ mixedAdvisors, advisor.IsPure (.of default none false) := by
    intro advisor hadvisor
    simp only [mixedAdvisors, List.mem_cons, List.not_mem_nil, or_false] at hadvisor
    obtain rfl | rfl | rfl | rfl := hadvisor
    · exact ⟨⟨_, rfl⟩, ⟨_, rfl⟩, fun _ => ⟨_, rfl⟩⟩
    · exact ⟨_, rfl⟩
    · exact ⟨⟨_, rfl⟩, ⟨_, rfl⟩, fun _ => ⟨_, rfl⟩⟩
    · exact ⟨_, rfl⟩
  obtain ⟨resolved, hwhole, hleft⟩ :=
    Registry.resolve_matching Registry.standard mixedAdvisors default none hpure ()
  rw [hmatching] at hleft
  have hresolved : Except.ok resolved = .ok (.ok ⟨left.flatMap Registry.standard.block⟩) :=
    (hleft ()).1.symm
  cases hresolved
  exact ⟨hmatching, _, rfl, hwhole, hleft⟩

end Prefiltered

end Interception
