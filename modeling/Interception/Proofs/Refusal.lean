import Interception.Execution
import Interception.Proofs.Blocks

/-! Resolutions that fail. A resolution fails exactly at the first advisor that contributes and of whose
advice no interceptor can be made. Nothing that stands behind it counts, except that introductions
may have been asked after already, and a call for which no chain can be found does nothing but fail. -/

namespace Interception

variable {σ : Type}

/-- The advisor at the position contributes, and no interceptor can be made of its advice; `has` is
whether introductions apply. -/
def Verdicts.Refuses (v : Verdicts) (registry : Registry σ) (preFiltered has : Bool) (position : Nat)
    (advisor : Advisor σ) : Prop :=
  v.contributes preFiltered has position advisor = true ∧ registry.block advisor = []

instance (v : Verdicts) (registry : Registry σ) (preFiltered has : Bool) (position : Nat)
    (advisor : Advisor σ) : Decidable (v.Refuses registry preFiltered has position advisor) :=
  inferInstanceAs (Decidable (_ ∧ _))

/-- An advisor is refused and none in front of it is. -/
structure Verdicts.FirstRefused (v : Verdicts) (registry : Registry σ) (preFiltered : Bool)
    (advisors front : List (Advisor σ)) (advisor : Advisor σ) (behind : List (Advisor σ)) : Prop where
  stands : advisors = front ++ advisor :: behind
  refused : v.Refuses registry preFiltered (v.introduced advisors) front.length advisor
  first : ∀ a ∈ front.zipIdx, ¬v.Refuses registry preFiltered (v.introduced advisors) a.2 a.1

/-- The class filters of the introductions in a list, with their positions. -/
def introductions : Nat → List (Advisor σ) → List (Nat × ClassFilter σ)
  | _, [] => []
  | position, .introduction filter _ _ :: rest => (position, filter) :: introductions (position + 1) rest
  | position, _ :: rest => introductions (position + 1) rest

/-! ### Unwinding

A resolution unwinds only as a predicate does that it asks. -/

namespace Consultation

variable {ω : Type}

universe u v

/-- The computation unwinds only with panics that have the property. -/
def Unwinds {α : Type u} (P : Panic → Prop) (p : Consultation σ ω α) : Prop :=
  ∀ s panic, (p s).result = .error panic → P panic

theorem unwinds_answer {α : Type u} (P : Panic → Prop) (a : α) :
    Unwinds P (answer a : Consultation σ ω α) :=
  nofun

theorem Unwinds.andThen {α : Type u} {β : Type v} {P : Panic → Prop} {p : Consultation σ ω α}
    {k : α → Consultation σ ω β} (hp : Unwinds P p) (hk : ∀ a, Unwinds P (k a)) :
    Unwinds P (p.andThen k) := by
  intro s panic h
  simp only [Consultation.andThen] at h
  cases hresult : (p s).result with
  | error first =>
    rw [hresult] at h
    cases h
    exact hp s panic hresult
  | ok a =>
    rw [hresult] at h
    exact hk a _ panic h

end Consultation

/-- A predicate that can be asked unwound with the panic. -/
def Resolution.Unwound (site : Site) (advisors : List (Advisor σ)) (panic : Panic) : Prop :=
  ∃ (question : Question) (q : Query σ Bool) (s : σ),
    question.query? advisors site.method site.targetClass = some q ∧ (q s).result = .error panic

namespace Resolution

open Consultation

variable {site : Site} {advisors advisors' rest : List (Advisor σ)} {known known' : Option Bool}
  {position : Nat} {s : σ} {advisor : Advisor σ} {registry : Registry σ} {found : List (Link σ)}

theorem unwinds_ask {question : Question} {q : Query σ Bool}
    (hquery : question.query? advisors site.method site.targetClass = some q) :
    Unwinds (Unwound site advisors) (Inquiry.ask question site.targetClass q) := by
  refine Unwinds.andThen nofun fun _ => Unwinds.andThen (fun s panic h => ?_) fun _ =>
    Unwinds.andThen nofun fun _ => unwinds_answer _ _
  exact ⟨question, q, s, hquery, h⟩

theorem unwinds_classAccepted {filter : ClassFilter σ}
    (hquery : Question.query? advisors site.method site.targetClass (.classFilter position) =
      some (filter.accepts site.targetClass)) :
    Unwinds (Unwound site advisors) (classAccepted site position filter) := by
  cases hpre : site.preFiltered with
  | true =>
    rw [classAccepted_of_preFiltered filter hpre]
    exact unwinds_answer _ _
  | false =>
    rw [classAccepted_of_not_preFiltered filter hpre]
    exact unwinds_ask hquery

theorem unwinds_introduced (hrest : advisors.drop position = rest) :
    Unwinds (Unwound site advisors) (introduced site position rest) := by
  induction rest generalizing position with
  | nil => exact unwinds_answer _ _
  | cons advisor rest ih =>
    have hhere := getElem?_of_drop hrest
    have hnext := ih (drop_succ_of_drop hrest)
    cases advisor with
    | conditional pointcut advice => exact hnext
    | unfiltered advice => exact hnext
    | introduction filter advice interfaces =>
      rw [introduced_introduction]
      refine (unwinds_ask (by simp only [Question.query?, hhere])).andThen fun has => ?_
      cases has with
      | true => exact unwinds_answer _ _
      | false => exact hnext

theorem unwinds_applies (hhere : advisors[position]? = some advisor) :
    Unwinds (Unwound site advisors) (applies site advisors known position advisor) := by
  cases advisor with
  | unfiltered advice => exact unwinds_answer _ _
  | introduction filter advice interfaces =>
    rw [applies_introduction]
    exact (unwinds_classAccepted (by simp only [Question.query?, hhere])).andThen
      fun _ => unwinds_answer _ _
  | conditional pointcut advice =>
    rw [applies_conditional]
    refine (unwinds_classAccepted (by simp only [Question.query?, hhere])).andThen fun accepted => ?_
    cases accepted with
    | false => exact unwinds_answer _ _
    | true =>
      rw [if_pos rfl]
      cases haware : pointcut.methodMatcher.filter.introductionAware with
      | false =>
        rw [methodAccepted_unaware _ haware]
        exact (unwinds_ask (by simp only [Question.query?, hhere])).andThen
          fun _ => unwinds_answer _ _
      | true =>
        rw [methodAccepted_aware _ haware]
        refine Unwinds.andThen ?_ fun has =>
          (unwinds_ask (by simp only [Question.query?, hhere])).andThen fun _ => unwinds_answer _ _
        cases known with
        | some has => exact unwinds_answer _ _
        | none => exact unwinds_introduced rfl

theorem unwinds_visit (hrest : advisors.drop position = rest) :
    Unwinds (Unwound site advisors) (visit registry site advisors known position found rest) := by
  induction rest generalizing known position found with
  | nil => exact unwinds_answer _ _
  | cons advisor rest ih =>
    have hnext := drop_succ_of_drop hrest
    refine Unwinds.andThen (unwinds_applies (getElem?_of_drop hrest)) fun (applied, known) => ?_
    cases applied with
    | false => exact ih hnext
    | true =>
      cases hblock : block registry advisor with
      | error e => exact unwinds_answer _ _
      | ok links => exact ih hnext

/-! ### One advisor -/

theorem block_error {e : AdvisorError} (h : block registry advisor = .error e) :
    registry.block advisor = [] ∧ e = .unknownAdvice advisor.advice.kind := by
  unfold block Registry.interceptors at h
  rw [← candidates_eq]
  cases hcandidates : registry.candidates advisor with
  | nil =>
    rw [hcandidates] at h
    cases h
    exact ⟨rfl, rfl⟩
  | cons interceptor interceptors =>
    rw [hcandidates] at h
    cases h

theorem block_ne_nil {links : List (Link σ)} (h : block registry advisor = .ok links) :
    registry.block advisor ≠ [] := by
  unfold block Registry.interceptors at h
  rw [← candidates_eq]
  cases hcandidates : registry.candidates advisor with
  | nil =>
    rw [hcandidates] at h
    cases h
  | cons interceptor interceptors => exact List.cons_ne_nil _ _

/-! ### Introductions

The scan for introductions looks at nothing but them. -/

/-- Asks the introductions in turn until one applies. -/
def scan (site : Site) : List (Nat × ClassFilter σ) → Inquiry σ Bool
  | [] => pure false
  | (position, filter) :: rest => do
    if ← Inquiry.ask (.introduction position) site.targetClass (filter.accepts site.targetClass) then
      pure true
    else scan site rest

theorem introduced_eq_scan (position : Nat) (rest : List (Advisor σ)) :
    introduced site position rest = scan site (introductions position rest) := by
  induction rest generalizing position with
  | nil => rfl
  | cons advisor rest ih =>
    cases advisor with
    | conditional pointcut advice => exact ih (position + 1)
    | unfiltered advice => exact ih (position + 1)
    | introduction filter advice interfaces =>
      rw [introduced_introduction, ih (position + 1)]
      rfl

theorem applies_congr (h : introductions 0 advisors' = introductions 0 advisors) :
    applies site advisors' known position advisor = applies site advisors known position advisor := by
  have hscan : introduced site 0 advisors' = introduced site 0 advisors := by
    rw [introduced_eq_scan, introduced_eq_scan, h]
  cases advisor with
  | unfiltered advice => rfl
  | introduction filter advice interfaces => rfl
  | conditional pointcut advice =>
    rw [applies_conditional, applies_conditional]
    unfold methodAccepted
    rw [hscan]

/-! ### The visit -/

section Visit

variable (v : Verdicts)

theorem knows_none (advisors : List (Advisor σ)) : Knows v advisors none :=
  fun _ hhas => absurd hhas (Option.not_mem_none _)

variable {visited : Except AdvisorError (List (Link σ))} {front behind : List (Advisor σ)}

/-- How a visit that comes to an end goes over one advisor: it ends there if the advisor is refused, and
goes on behind it otherwise, by what it then knows and has found. -/
theorem visit_cons (hknown : Knows v advisors known)
    (h : (visit registry site advisors known position found (advisor :: rest) s).result = .ok visited)
    (hagree : v.Agrees
      (answers (visit registry site advisors known position found (advisor :: rest) s).written)) :
    (v.Refuses registry site.preFiltered (v.introduced advisors) position advisor ∧
      visited = .error (.unknownAdvice advisor.advice.kind) ∧
      ∀ rest', visit registry site advisors known position found (advisor :: rest') s =
        visit registry site advisors known position found [advisor] s) ∨
    ¬v.Refuses registry site.preFiltered (v.introduced advisors) position advisor ∧
      ∃ known' found' s' written, Knows v advisors known' ∧
        (visit registry site advisors known' (position + 1) found' rest s').result = .ok visited ∧
        v.Agrees (answers
          (visit registry site advisors known' (position + 1) found' rest s').written) ∧
        ∀ rest', visit registry site advisors known position found (advisor :: rest') s =
          let reply := visit registry site advisors known' (position + 1) found' rest' s'
          ⟨reply.result, reply.state, written ++ reply.written⟩ := by
  obtain ⟨⟨applied, known'⟩, happlied, hrest, hwritten⟩ := andThen_ok h
  change v.Agrees (answers (Consultation.andThen _ _ s).written) at hagree
  rw [hwritten, answers_append] at hagree
  obtain ⟨hverdict, hknown'⟩ :=
    applies_verdict v hknown happlied fun a ha => hagree a (List.mem_append_left _ ha)
  have hagreeRest := fun a ha => hagree a (List.mem_append_right _ ha)
  have hvisit : ∀ rest', visit registry site advisors known position found (advisor :: rest') s = _ :=
    fun _ => andThen_of_ok happlied
  cases applied with
  | false =>
    refine Or.inr ⟨fun hrefused => ?_, known', found, _, _, hknown', hrest, hagreeRest, hvisit⟩
    exact Bool.false_ne_true (hverdict.trans hrefused.1)
  | true =>
    cases hblock : block registry advisor with
    | error e =>
      simp only [hblock] at hrest hvisit
      cases hrest
      obtain ⟨hempty, rfl⟩ := block_error hblock
      exact Or.inl ⟨⟨hverdict.symm, hempty⟩, rfl, fun rest' => (hvisit rest').trans (hvisit []).symm⟩
    | ok found' =>
      simp only [hblock] at hrest hagreeRest hvisit
      exact Or.inr ⟨fun hrefused => block_ne_nil hblock hrefused.2, known', _, _, _, hknown', hrest,
        hagreeRest, hvisit⟩

/-- A chain is found only where no advisor is refused. -/
theorem visit_supported {links : List (Link σ)} (hknown : Knows v advisors known)
    (h : (visit registry site advisors known position found rest s).result = .ok (.ok links))
    (hagree : v.Agrees
      (answers (visit registry site advisors known position found rest s).written)) :
    ∀ a ∈ rest.zipIdx position,
      ¬v.Refuses registry site.preFiltered (v.introduced advisors) a.2 a.1 := by
  induction rest generalizing known position found s with
  | nil => exact fun _ ha => absurd ha List.not_mem_nil
  | cons advisor rest ih =>
    rw [List.zipIdx_cons]
    obtain ⟨_, hvisited, _⟩ | ⟨hsupported, known', found', s', _, hknown', h, hagree, _⟩ :=
      visit_cons v hknown h hagree
    · cases hvisited
    · intro a ha
      rcases List.mem_cons.mp ha with rfl | ha
      · exact hsupported
      · exact ih hknown' h hagree a ha

/-- A visit that ends without a chain ends at an advisor that is refused, and none in front of it is. -/
theorem visit_refused {e : AdvisorError} (hknown : Knows v advisors known)
    (h : (visit registry site advisors known position found rest s).result = .ok (.error e))
    (hagree : v.Agrees
      (answers (visit registry site advisors known position found rest s).written)) :
    ∃ front advisor behind, rest = front ++ advisor :: behind ∧
      v.Refuses registry site.preFiltered (v.introduced advisors) (position + front.length) advisor ∧
      (∀ a ∈ front.zipIdx position,
        ¬v.Refuses registry site.preFiltered (v.introduced advisors) a.2 a.1) ∧
      e = .unknownAdvice advisor.advice.kind := by
  induction rest generalizing known position found s with
  | nil => cases h
  | cons first rest ih =>
    obtain ⟨hrefused, hvisited, _⟩ | ⟨hsupported, known', found', s', _, hknown', h, hagree, _⟩ :=
      visit_cons v hknown h hagree
    · cases hvisited
      exact ⟨[], first, rest, rfl, hrefused, fun _ ha => absurd ha List.not_mem_nil, rfl⟩
    · obtain ⟨front, advisor, behind, rfl, hrefused, hfront, rfl⟩ := ih hknown' h hagree
      rw [show position + 1 + front.length = position + (first :: front).length by
        rw [List.length_cons]; omega] at hrefused
      refine ⟨first :: front, advisor, behind, rfl, hrefused, fun a ha => ?_, rfl⟩
      rw [List.zipIdx_cons] at ha
      rcases List.mem_cons.mp ha with rfl | ha
      · exact hsupported
      · exact hfront a ha

/-- A visit does not look behind an advisor that is refused. -/
theorem visit_behind (hknown : Knows v advisors known)
    (h : (visit registry site advisors known position found (front ++ advisor :: behind) s).result =
      .ok visited)
    (hagree : v.Agrees (answers
      (visit registry site advisors known position found (front ++ advisor :: behind) s).written))
    (hrefused : v.Refuses registry site.preFiltered (v.introduced advisors) (position + front.length)
      advisor) (behind' : List (Advisor σ)) :
    visit registry site advisors known position found (front ++ advisor :: behind') s =
      visit registry site advisors known position found (front ++ advisor :: behind) s := by
  induction front generalizing known position found s with
  | nil =>
    obtain ⟨_, _, hvisit⟩ | ⟨hsupported, _⟩ := visit_cons v hknown h hagree
    · exact (hvisit behind').trans (hvisit behind).symm
    · exact absurd hrefused hsupported
  | cons first front ih =>
    obtain ⟨_, _, hvisit⟩ | ⟨_, known', found', s', written, hknown', h, hagree, hvisit⟩ :=
      visit_cons v hknown h hagree
    · exact (hvisit _).trans (hvisit _).symm
    · rw [List.length_cons, show position + (front.length + 1) = position + 1 + front.length by omega]
        at hrefused
      refine (hvisit (front ++ advisor :: behind')).trans
        (Eq.trans ?_ (hvisit (front ++ advisor :: behind)).symm)
      rw [ih hknown' h hagree hrefused]

theorem visit_congr (h : introductions 0 advisors' = introductions 0 advisors) :
    visit registry site advisors' known position found rest =
      visit registry site advisors known position found rest := by
  induction rest generalizing known position found with
  | nil => rfl
  | cons advisor rest ih =>
    unfold visit
    rw [applies_congr h]
    simp only [ih]

end Visit

end Resolution

/-- A resolution is its visit, unless that finds a chain. -/
theorem Registry.resolve_error {registry : Registry σ} {advisors : List (Advisor σ)} {site : Site} {s : σ}
    {e : AdvisorError}
    (h : (Resolution.visit registry site advisors none 0 [] advisors s).result = .ok (.error e)) :
    registry.resolve advisors site s =
      ⟨.ok (.error e), (Resolution.visit registry site advisors none 0 [] advisors s).state,
        (Resolution.visit registry site advisors none 0 [] advisors s).written⟩ := by
  refine (Consultation.andThen_of_ok h).trans ?_
  simp only [Consultation.answer, List.append_nil]

/-- What is answered while a resolution comes to an end, its visit is answered. -/
theorem Registry.resolve_visited {registry : Registry σ} {advisors : List (Advisor σ)} {site : Site} {s : σ}
    {resolved : Except AdvisorError (Chain σ)}
    (h : (registry.resolve advisors site s).result = .ok resolved) :
    (Resolution.visit registry site advisors none 0 [] advisors s).result =
        .ok (resolved.map Chain.links) ∧
      answers (registry.resolve advisors site s).written =
        answers (Resolution.visit registry site advisors none 0 [] advisors s).written := by
  cases resolved with
  | ok chain => exact resolve_ok h
  | error e =>
    obtain ⟨visited, hvisited, hrest, _⟩ := Consultation.andThen_ok h
    cases visited with
    | ok links =>
      obtain ⟨_, hreport, hlast, _⟩ := Consultation.andThen_ok hrest
      cases hreport
      cases hlast
    | error e' =>
      cases hrest
      exact ⟨hvisited, by rw [resolve_error hvisited]⟩

/-- A resolution fails where an advisor is refused, and only there. -/
theorem Registry.resolve_fails_iff {registry : Registry σ} {advisors : List (Advisor σ)} {site : Site}
    {s : σ} {resolved : Except AdvisorError (Chain σ)} (v : Verdicts)
    (h : (registry.resolve advisors site s).result = .ok resolved)
    (hagree : v.Agrees (answers (registry.resolve advisors site s).written)) :
    (∃ e, resolved = .error e) ↔ ∃ a ∈ advisors.zipIdx,
      v.Refuses registry site.preFiltered (v.introduced advisors) a.2 a.1 := by
  obtain ⟨hvisited, hgiven⟩ := resolve_visited h
  rw [hgiven] at hagree
  have hknows := Resolution.knows_none v advisors
  cases resolved with
  | ok chain =>
    have hsupported := Resolution.visit_supported v hknows hvisited hagree
    exact ⟨nofun, fun ⟨a, ha, hrefused⟩ => absurd hrefused (hsupported a ha)⟩
  | error e =>
    obtain ⟨front, advisor, behind, hstands, hrefused, _⟩ :=
      Resolution.visit_refused v hknows hvisited hagree
    refine ⟨fun _ => ⟨(advisor, front.length), ?_, ?_⟩, fun _ => ⟨e, rfl⟩⟩
    · rw [hstands, List.zipIdx_append]
      exact List.mem_append_right _ (by rw [Nat.zero_add]; exact List.mem_cons_self)
    · rwa [Nat.zero_add] at hrefused

/-- A resolution that fails does so at the first advisor that is refused, and looks at nothing behind it
but introductions. -/
theorem Registry.resolve_first_refused {registry : Registry σ} {advisors : List (Advisor σ)} {site : Site}
    {s : σ} {e : AdvisorError} (v : Verdicts)
    (h : (registry.resolve advisors site s).result = .ok (.error e))
    (hagree : v.Agrees (answers (registry.resolve advisors site s).written)) :
    ∃ front advisor behind,
      v.FirstRefused registry site.preFiltered advisors front advisor behind ∧
      e = .unknownAdvice advisor.advice.kind ∧
      (∀ a ∈ answers (registry.resolve advisors site s).written,
        ∀ i ∈ a.1.place?, i ≤ front.length) ∧
      ∀ behind', introductions 0 (front ++ advisor :: behind') = introductions 0 advisors →
        registry.resolve (front ++ advisor :: behind') site s = registry.resolve advisors site s := by
  obtain ⟨hvisited, hgiven⟩ := resolve_visited h
  rw [hgiven] at hagree ⊢
  have hknows := Resolution.knows_none v advisors
  obtain ⟨front, advisor, behind, hstands, hrefused, hfirst, rfl⟩ :=
    Resolution.visit_refused v hknows hvisited hagree
  -- the visit of the list with something else behind the advisor is the same
  have hbehind : ∀ behind',
      Resolution.visit registry site advisors none 0 [] (front ++ advisor :: behind') s =
        Resolution.visit registry site advisors none 0 [] advisors s := by
    intro behind'
    have hwhole : Resolution.visit registry site advisors none 0 [] advisors s =
        Resolution.visit registry site advisors none 0 [] (front ++ advisor :: behind) s := by
      rw [← hstands]
    rw [hwhole] at hvisited hagree ⊢
    exact Resolution.visit_behind v hknows hvisited hagree hrefused behind'
  rw [Nat.zero_add] at hrefused
  refine ⟨front, advisor, behind, ⟨hstands, hrefused, hfirst⟩, rfl, fun a ha i hi => ?_,
    fun behind' hintroductions => ?_⟩
  · have hshort := (hbehind []).symm ▸ hvisited
    rw [← hbehind []] at ha
    have hbefore := ((Resolution.asks_visit s).2.2 _ hshort).2 a.1 (List.mem_map_of_mem ha)
    have hplace : i < 0 + (front ++ [advisor]).length :=
      Nat.lt_of_not_le fun hbehind => hbefore ⟨i, hi, hbehind⟩
    rw [List.length_append, List.length_singleton] at hplace
    omega
  · have hvisit : Resolution.visit registry site (front ++ advisor :: behind') none 0 []
        (front ++ advisor :: behind') s = Resolution.visit registry site advisors none 0 [] advisors s := by
      rw [Resolution.visit_congr hintroductions, hbehind]
    rw [resolve_error hvisited, resolve_error (hvisit.symm ▸ hvisited), hvisit]

/-- A resolution unwinds only as a predicate does that it asks. -/
theorem Registry.unwinds_resolve (registry : Registry σ) (advisors : List (Advisor σ)) (site : Site) :
    Consultation.Unwinds (Resolution.Unwound site advisors) (registry.resolve advisors site) := by
  refine (Resolution.unwinds_visit rfl).andThen fun visited => ?_
  cases visited with
  | error e => exact Consultation.unwinds_answer _ _
  | ok links => exact Consultation.Unwinds.andThen nofun fun _ => Consultation.unwinds_answer _ _

/-- A call for which no chain is found does nothing but fail, published or not. -/
theorem Engine.call_refused {p : Proxy σ} {request : Request} {w : World σ} {e : AdvisorError}
    (h : (p.registry.resolve p.advisors
      (.of request.method request.targetClass p.config.preFiltered) w.state).result = .ok (.error e))
    (exposeInvocation : Bool) (directory : Directory σ) (engine : Engine σ) (target : Target σ) :
    let reply := p.registry.resolve p.advisors
      (.of request.method request.targetClass p.config.preFiltered) w.state
    Engine.call directory engine { p with config := { p.config with exposeInvocation } } request target
        w =
      (.finished (.error (.advisor e)), { w with state := reply.state }.record reply.written) := by
  let published : Proxy σ := { p with config := { p.config with exposeInvocation } }
  have hchain : published.chainFor request.method request.targetClass w.state = _ :=
    Consultation.andThen_of_ok h
  simp only [Consultation.answer, List.append_nil] at hchain
  change Engine.call directory engine published request target w = _
  simp only [Engine.call, Run.inquire, hchain]
  rfl

/-- **A resolution fails exactly at the first advisor that contributes and is unsupported**, whatever
stands behind it, and a call through the proxy then does nothing but fail with that error. The verdicts on
which this rests were given by the advisors' own predicates, and none was asked for twice; where one of
these unwinds instead, so does the resolution. -/
theorem Proxy.refused_at_first (p : Proxy σ) (request : Request) (w : World σ) :
    let site := Site.of request.method request.targetClass p.config.preFiltered
    let reply := p.registry.resolve p.advisors site w.state
    let given := answers reply.written
    match reply.result with
    | .error panic => Resolution.Unwound site p.advisors panic
    | .ok resolved =>
      (∀ a ∈ given, a.1.Gave p.advisors request.method request.actualClass a.2) ∧
      (given.map Prod.fst).Nodup ∧
      ∀ v : Verdicts, v.Agrees given →
        ((∃ e, resolved = .error e) ↔ ∃ a ∈ p.advisors.zipIdx,
          v.Refuses p.registry p.config.preFiltered (v.introduced p.advisors) a.2 a.1) ∧
        ∀ e, resolved = .error e →
          ∃ front advisor behind,
            v.FirstRefused p.registry p.config.preFiltered p.advisors front advisor behind ∧
            e = .unknownAdvice advisor.advice.kind ∧
            (∀ a ∈ given, ∀ i ∈ a.1.place?, i ≤ front.length) ∧
            (∀ behind', introductions 0 (front ++ advisor :: behind') = introductions 0 p.advisors →
              p.registry.resolve (front ++ advisor :: behind') site w.state = reply) ∧
            (∀ entry ∈ reply.written, Resolution.Sound site p.advisors entry) ∧
            ∀ (exposeInvocation : Bool) (directory : Directory σ) (engine : Engine σ)
              (target : Target σ),
              Engine.call directory engine { p with config := { p.config with exposeInvocation } }
                  request target w =
                (.finished (.error (.advisor e)),
                  { w with state := reply.state }.record reply.written) := by
  intro site reply given
  cases hresult : reply.result with
  | error panic => exact p.registry.unwinds_resolve p.advisors site w.state panic hresult
  | ok resolved =>
    obtain ⟨hvisited, hgiven⟩ := Registry.resolve_visited hresult
    have hanswers : given = _ := hgiven
    refine ⟨fun a ha => ?_, ?_, fun v hagree =>
      ⟨Registry.resolve_fails_iff v hresult hagree, fun e he => ?_⟩⟩
    · rw [hanswers] at ha
      obtain ⟨entry, hentry, hanswer⟩ := List.mem_filterMap.mp ha
      exact (Resolution.writes_visit rfl w.state entry hentry).gave hanswer
    · rw [hanswers]
      exact (Resolution.asks_visit w.state).1
    · subst he
      obtain ⟨front, advisor, behind, hfirst, hkind, hplaces, hbehind⟩ :=
        Registry.resolve_first_refused v hresult hagree
      have hsound : ∀ entry ∈ reply.written, Resolution.Sound site p.advisors entry := by
        rw [show reply = _ from Registry.resolve_error hvisited]
        exact Resolution.writes_visit rfl w.state
      exact ⟨front, advisor, behind, hfirst, hkind, hplaces, hbehind, hsound,
        Engine.call_refused hresult⟩

/-- Advice of a kind that nothing supports, in front where it does not apply, and twice where it does.
Whether introductions apply is asked in between, and one behind does. -/
def unsupportedAdvisors : List (Advisor Nat) :=
  [.conditional { classFilter := .predicate fun _ => Consultation.modifyGet fun n => (false, n + 1) }
      (.extension "timing" .unit),
    .conditional
      { methodMatcher := .static (.predicate
          { accepts := fun _ _ => pure false
            introductionAware := true
            acceptsKnowing := fun has _ _ => pure has }) }
      (.before fun _ _ _ => pure (.ok ())),
    .unfiltered (.extension "audit" .unit),
    .introduction .any (.around ⟨some 0, .around Program.proceed⟩) ["Lockable"],
    .unfiltered (.extension "cache" .unit)]

theorem refused_at_first_unsupported :
    let p : Proxy Nat := { config := { exposeInvocation := true }, advisors := unsupportedAdvisors }
    let reply := p.registry.resolve p.advisors (.of default none false) 7
    reply.result = .ok (.error (.unknownAdvice "audit")) ∧
      Verdicts.Agrees (fun question => question ≠ .classFilter 0) (answers reply.written) ∧
      ∀ (directory : Directory Nat) (engine : Engine Nat) (target : Target Nat),
        engine.call directory p { this := .unit, method := default } target { state := 7 } =
          (.finished (.error (.advisor (.unknownAdvice "audit"))),
            World.record { state := 8 } reply.written) := by
  intro p reply
  have hresult : reply.result = .ok (.error (.unknownAdvice "audit")) := rfl
  have hagrees : Verdicts.Agrees (fun question => question ≠ .classFilter 0) (answers reply.written) := by
    unfold Verdicts.Agrees
    decide
  refine ⟨hresult, hagrees, fun directory engine target => ?_⟩
  obtain ⟨_, _, hrefused⟩ := p.refused_at_first { this := .unit, method := default } { state := 7 }
  obtain ⟨_, _, _, _, _, _, _, _, hcall⟩ := (hrefused _ hagrees).2 _ rfl
  exact hcall true directory engine target

end Interception
