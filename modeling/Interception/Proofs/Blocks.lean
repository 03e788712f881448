import Mathlib.Data.List.Nodup
import Interception.Resolution

/-! What a resolved chain consists of. The predicates of the advisors are asked while the chain is
assembled, and they may be programs with a memory of their own, so the verdicts on which a chain rests
are those that were given. On them the chain is the blocks of the advisors that contribute, in the
order of the list. -/

namespace Interception

universe u v

variable {σ : Type}

/-- The question that an entry records as answered, with the verdict. -/
def Entry.answer? : Entry → Option (Question × Bool)
  | .occurrence (.answered question verdict) => some (question, verdict)
  | _ => none

/-- The questions that were answered, with their verdicts, in order. -/
def answers (written : List Entry) : List (Question × Bool) := written.filterMap Entry.answer?

theorem answers_append (first second : List Entry) :
    answers (first ++ second) = answers first ++ answers second := by
  simp [answers]

theorem answers_notes (notes : List String) : answers (notes.map .note) = [] := by
  induction notes with
  | nil => rfl
  | cons note notes ih => exact ih

/-- The place in the list that a question asks about. Whether introductions apply is asked about the
whole list. -/
def Question.place? : Question → Option Nat
  | .classFilter i | .methodFilter i | .methodFilterKnowing i _ => some i
  | .introduction _ => none

/-- The predicate that a question puts, where the advisor at its position has it. -/
def Question.query? (advisors : List (Advisor σ)) (method : Method) (c : Class) :
    Question → Option (Query σ Bool)
  | .classFilter position =>
    match advisors[position]? with
    | some (.conditional pointcut _) => some (pointcut.classFilter.accepts c)
    | some (.introduction filter _ _) => some (filter.accepts c)
    | _ => none
  | .introduction position =>
    match advisors[position]? with
    | some (.introduction filter _ _) => some (filter.accepts c)
    | _ => none
  | .methodFilter position =>
    match advisors[position]? with
    | some (.conditional pointcut _) => some (pointcut.methodMatcher.filter.accepts method c)
    | _ => none
  | .methodFilterKnowing position introduced =>
    match advisors[position]? with
    | some (.conditional pointcut _) =>
      some (pointcut.methodMatcher.filter.acceptsKnowing introduced method c)
    | _ => none

/-- The predicate that the question puts gave the verdict. -/
def Question.Gave (advisors : List (Advisor σ)) (method : Method) (c : Class) (question : Question)
    (verdict : Bool) : Prop :=
  ∃ q s, question.query? advisors method c = some q ∧ (q s).result = .ok verdict

/-- A verdict on every question that can be put. -/
abbrev Verdicts := Question → Bool

namespace Verdicts

variable (v : Verdicts)

/-- The verdicts are those that were given. -/
def Agrees (given : List (Question × Bool)) : Prop := ∀ a ∈ given, v a.1 = a.2

/-- Whether some introduction applies, wherever in the list it stands. -/
def introduced (advisors : List (Advisor σ)) : Bool :=
  advisors.zipIdx.any fun (advisor, position) => advisor.isIntroduction && v (.introduction position)

/-- Whether the advisor at the position contributes; `has` is whether introductions apply. -/
def contributes (preFiltered has : Bool) (position : Nat) : Advisor σ → Bool
  | .conditional pointcut _ =>
    (preFiltered || v (.classFilter position)) &&
      if pointcut.methodMatcher.filter.introductionAware then v (.methodFilterKnowing position has)
      else v (.methodFilter position)
  | .introduction _ _ _ => preFiltered || v (.classFilter position)
  | .unfiltered _ => true

end Verdicts

/-- An interceptor of the advisor as a link: under the advisor's own predicate on arguments, where its
matcher has one. -/
def Advisor.link : Advisor σ → Interceptor σ → Link σ
  | .conditional ⟨_, .dynamic _ accepts⟩ _, interceptor => .dynamic interceptor accepts
  | _, interceptor => .plain interceptor

/-- The links of one advisor: around advice itself, then one for each adapter that supports the advice
and makes an interceptor of it. -/
def Registry.block (registry : Registry σ) (advisor : Advisor σ) : List (Link σ) :=
  ((match advisor.advice with
      | .around interceptor => [interceptor]
      | _ => []) ++
    registry.adapters.flatMap fun adapter =>
      if adapter.supports advisor.advice then (adapter.interceptor? advisor).toList else []).map
    advisor.link

theorem getElem?_of_drop {α : Type*} {l rest : List α} {a : α} {position : Nat}
    (h : l.drop position = a :: rest) : l[position]? = some a := by
  rw [← Nat.add_zero position, ← List.getElem?_drop, h]
  rfl

theorem drop_succ_of_drop {α : Type*} {l rest : List α} {a : α} {position : Nat}
    (h : l.drop position = a :: rest) : l.drop (position + 1) = rest := by
  rw [← List.tail_drop, h]
  rfl

namespace Consultation

variable {ω : Type}

theorem andThen_of_ok {α : Type u} {β : Type v} {p : Consultation σ ω α}
    {k : α → Consultation σ ω β} {s : σ} {a : α} (h : (p s).result = .ok a) :
    p.andThen k s =
      ⟨(k a (p s).state).result, (k a (p s).state).state,
        (p s).written ++ (k a (p s).state).written⟩ := by
  rw [Consultation.andThen, h]

end Consultation

theorem Inquiry.ask_ok {question : Question} {c : Class} {q : Query σ Bool} {s : σ} {verdict : Bool}
    (h : (Inquiry.ask question c q s).result = .ok verdict) :
    answers (Inquiry.ask question c q s).written = [(question, verdict)] := by
  simp only [Inquiry.ask, Inquiry.consult, bind, pure, Consultation.andThen, Consultation.write,
    Consultation.mapWritten, Consultation.answer] at h ⊢
  cases hq : (q s).result with
  | error panic =>
    rw [hq] at h
    cases h
  | ok b =>
    rw [hq] at h
    cases h
    simp only [answers_append, answers_notes]
    rfl

namespace Resolution

open Consultation

variable {site : Site} {advisors rest : List (Advisor σ)} {known known' : Option Bool}
  {position : Nat} {s : σ} {b : Bool}

/-! ### Verdicts

Each part of a resolution that comes to an end does so with the verdict that the specification reads
off the answers. -/

section Verdicts

variable (v : Verdicts)

theorem classAccepted_of_preFiltered (filter : ClassFilter σ) (hpre : site.preFiltered = true) :
    classAccepted site position filter = answer true :=
  if_pos hpre

theorem classAccepted_of_not_preFiltered (filter : ClassFilter σ) (hpre : site.preFiltered = false) :
    classAccepted site position filter =
      Inquiry.ask (.classFilter position) site.targetClass (filter.accepts site.targetClass) :=
  if_neg (by rw [hpre]; exact Bool.false_ne_true)

theorem introduced_introduction (filter : ClassFilter σ) (advice : Advice σ)
    (interfaces : List String) :
    introduced site position (.introduction filter advice interfaces :: rest) =
      (Inquiry.ask (.introduction position) site.targetClass (filter.accepts site.targetClass)).andThen
        fun has => if has then answer true else introduced site (position + 1) rest :=
  rfl

theorem introduced_other {advisor : Advisor σ} (hother : advisor.isIntroduction = false) :
    introduced site position (advisor :: rest) = introduced site (position + 1) rest := by
  cases advisor with
  | introduction filter advice interfaces => cases hother
  | conditional pointcut advice => rfl
  | unfiltered advice => rfl

theorem classAccepted_verdict {filter : ClassFilter σ}
    (h : (classAccepted site position filter s).result = .ok b)
    (hagree : v.Agrees (answers (classAccepted site position filter s).written)) :
    b = (site.preFiltered || v (.classFilter position)) := by
  cases hpre : site.preFiltered with
  | true =>
    rw [classAccepted_of_preFiltered filter hpre] at h
    cases h
    rfl
  | false =>
    rw [classAccepted_of_not_preFiltered filter hpre] at h hagree
    rw [Inquiry.ask_ok h] at hagree
    exact (hagree _ (List.mem_singleton.mpr rfl)).symm

theorem introduced_verdict (h : (introduced site position rest s).result = .ok b)
    (hagree : v.Agrees (answers (introduced site position rest s).written)) :
    b = (rest.zipIdx position).any fun (advisor, i) =>
      advisor.isIntroduction && v (.introduction i) := by
  induction rest generalizing position s with
  | nil =>
    cases h
    rfl
  | cons advisor rest ih =>
    simp only [List.zipIdx_cons, List.any_cons]
    cases hkind : advisor.isIntroduction with
    | false =>
      rw [introduced_other hkind] at h hagree
      rw [Bool.false_and, Bool.false_or]
      exact ih h hagree
    | true =>
      cases advisor with
      | conditional pointcut advice => cases hkind
      | unfiltered advice => cases hkind
      | introduction filter advice interfaces =>
        rw [introduced_introduction] at h hagree
        obtain ⟨has, hhas, h, hwritten⟩ := andThen_ok h
        rw [hwritten, answers_append, Inquiry.ask_ok hhas] at hagree
        have hfirst : v (.introduction position) = has := hagree _ List.mem_cons_self
        rw [hfirst, Bool.true_and]
        cases has with
        | true =>
          cases h
          rw [Bool.true_or]
        | false =>
          rw [Bool.false_or]
          exact ih h fun a ha => hagree a (List.mem_cons_of_mem _ ha)

theorem methodAccepted_aware (filter : MethodFilter σ) (haware : filter.introductionAware = true) :
    methodAccepted site advisors known position filter =
      (match known with
        | some has => answer has
        | none => introduced site 0 advisors).andThen fun has =>
      (Inquiry.ask (.methodFilterKnowing position has) site.targetClass
        (filter.acceptsKnowing has site.method site.targetClass)).andThen fun verdict =>
      answer (verdict, some has) := by
  unfold methodAccepted
  rw [if_pos haware]
  cases known <;> rfl

theorem methodAccepted_unaware (filter : MethodFilter σ) (haware : filter.introductionAware = false) :
    methodAccepted site advisors known position filter =
      (Inquiry.ask (.methodFilter position) site.targetClass
        (filter.accepts site.method site.targetClass)).andThen fun verdict =>
      answer (verdict, known) := by
  unfold methodAccepted
  rw [if_neg (by rw [haware]; exact Bool.false_ne_true)]
  rfl

/-- What is known of introductions is what the specification says of them. -/
def Knows (advisors : List (Advisor σ)) (known : Option Bool) : Prop :=
  ∀ has ∈ known, has = v.introduced advisors

theorem methodAccepted_verdict {filter : MethodFilter σ} (hknown : Knows v advisors known)
    (h : (methodAccepted site advisors known position filter s).result = .ok (b, known'))
    (hagree : v.Agrees (answers (methodAccepted site advisors known position filter s).written)) :
    b = (if filter.introductionAware then v (.methodFilterKnowing position (v.introduced advisors))
      else v (.methodFilter position)) ∧ Knows v advisors known' := by
  cases haware : filter.introductionAware with
  | false =>
    rw [methodAccepted_unaware filter haware] at h hagree
    obtain ⟨verdict, hverdict, h, hwritten⟩ := andThen_ok h
    cases h
    rw [hwritten, answers_append, Inquiry.ask_ok hverdict] at hagree
    exact ⟨(hagree _ List.mem_cons_self).symm, hknown⟩
  | true =>
    rw [methodAccepted_aware filter haware] at h hagree
    obtain ⟨has, hhas, h, hwritten⟩ := andThen_ok h
    obtain ⟨verdict, hverdict, h, hwritten'⟩ := andThen_ok h
    cases h
    rw [hwritten, hwritten', answers_append, answers_append, Inquiry.ask_ok hverdict] at hagree
    have hintroduced : has = v.introduced advisors := by
      cases known with
      | some has' =>
        cases hhas
        exact hknown has rfl
      | none =>
        exact introduced_verdict v hhas fun a ha => hagree a (List.mem_append_left _ ha)
    subst hintroduced
    refine ⟨(hagree _ (List.mem_append_right _ List.mem_cons_self)).symm, ?_⟩
    intro has hhas
    exact (Option.some.inj hhas).symm

theorem applies_conditional (pointcut : Pointcut σ) (advice : Advice σ) :
    applies site advisors known position (.conditional pointcut advice) =
      (classAccepted site position pointcut.classFilter).andThen fun accepted =>
      if accepted then methodAccepted site advisors known position pointcut.methodMatcher.filter
      else answer (false, known) :=
  rfl

theorem applies_introduction (filter : ClassFilter σ) (advice : Advice σ) (interfaces : List String) :
    applies site advisors known position (.introduction filter advice interfaces) =
      (classAccepted site position filter).andThen fun accepted => answer (accepted, known) :=
  rfl

theorem applies_verdict {advisor : Advisor σ} (hknown : Knows v advisors known)
    (h : (applies site advisors known position advisor s).result = .ok (b, known'))
    (hagree : v.Agrees (answers (applies site advisors known position advisor s).written)) :
    b = v.contributes site.preFiltered (v.introduced advisors) position advisor ∧
      Knows v advisors known' := by
  cases advisor with
  | unfiltered advice =>
    cases h
    exact ⟨rfl, hknown⟩
  | introduction filter advice interfaces =>
    rw [applies_introduction] at h hagree
    obtain ⟨accepted, haccepted, h, hwritten⟩ := andThen_ok h
    cases h
    rw [hwritten, answers_append] at hagree
    exact ⟨classAccepted_verdict v haccepted fun a ha => hagree a (List.mem_append_left _ ha), hknown⟩
  | conditional pointcut advice =>
    rw [applies_conditional] at h hagree
    obtain ⟨accepted, haccepted, h, hwritten⟩ := andThen_ok h
    rw [hwritten, answers_append] at hagree
    have hclass := classAccepted_verdict v haccepted fun a ha => hagree a (List.mem_append_left _ ha)
    simp only [Verdicts.contributes, ← hclass]
    cases accepted with
    | false =>
      cases h
      exact ⟨rfl, hknown⟩
    | true =>
      rw [Bool.true_and]
      exact methodAccepted_verdict v hknown h fun a ha => hagree a (List.mem_append_right _ ha)

theorem under_matcher (advisor : Advisor σ) (interceptor : Interceptor σ) :
    Link.under (matcher advisor) interceptor = advisor.link interceptor := by
  cases advisor with
  | unfiltered advice => rfl
  | introduction filter advice interfaces => rfl
  | conditional pointcut advice =>
    obtain ⟨classFilter, methodMatcher⟩ := pointcut
    cases methodMatcher <;> rfl

theorem candidates_eq (registry : Registry σ) (advisor : Advisor σ) :
    (registry.candidates advisor).map advisor.link = registry.block advisor := by
  have hadapters : (registry.adapters.filter (·.supports advisor.advice)).filterMap
      (·.interceptor? advisor) = registry.adapters.flatMap fun adapter =>
        if adapter.supports advisor.advice then (adapter.interceptor? advisor).toList else [] := by
    induction registry.adapters with
    | nil => rfl
    | cons adapter adapters ih =>
      rw [List.flatMap_cons, List.filter_cons, ← ih]
      cases hsupports : adapter.supports advisor.advice with
      | false => rfl
      | true =>
        rw [if_pos rfl, if_pos rfl, List.filterMap_cons]
        cases adapter.interceptor? advisor <;> rfl
  unfold Registry.candidates Registry.block
  rw [hadapters]
  cases advisor.advice <;> rfl

/-- A block that can be made is the one that the specification describes. -/
theorem block_ok {registry : Registry σ} {advisor : Advisor σ} {links : List (Link σ)}
    (h : block registry advisor = .ok links) : links = registry.block advisor := by
  unfold block Registry.interceptors at h
  rw [← candidates_eq, ← funext (under_matcher advisor)]
  cases hcandidates : registry.candidates advisor with
  | nil =>
    rw [hcandidates] at h
    cases h
  | cons interceptor interceptors =>
    rw [hcandidates] at h
    exact (Except.ok.inj h).symm

/-- The links that are joined to those found: the blocks of the advisors that contribute. -/
theorem visit_links {registry : Registry σ} {found links : List (Link σ)}
    (hknown : Knows v advisors known)
    (h : (visit registry site advisors known position found rest s).result = .ok (.ok links))
    (hagree : v.Agrees
      (answers (visit registry site advisors known position found rest s).written)) :
    links = found ++ (rest.zipIdx position).flatMap fun (advisor, i) =>
      if v.contributes site.preFiltered (v.introduced advisors) i advisor then registry.block advisor
      else [] := by
  induction rest generalizing known position found s with
  | nil =>
    cases h
    exact (List.append_nil _).symm
  | cons advisor rest ih =>
    obtain ⟨⟨applied, known'⟩, happlied, hrest, hwritten⟩ := andThen_ok h
    change v.Agrees (answers (Consultation.andThen _ _ s).written) at hagree
    rw [hwritten, answers_append] at hagree
    obtain ⟨hverdict, hknown'⟩ :=
      applies_verdict v hknown happlied fun a ha => hagree a (List.mem_append_left _ ha)
    have hagreeRest := fun a ha => hagree a (List.mem_append_right _ ha)
    simp only [List.zipIdx_cons, List.flatMap_cons, ← hverdict]
    cases applied with
    | false => exact ih hknown' hrest hagreeRest
    | true =>
      cases hblock : block registry advisor with
      | error e =>
        simp only [hblock] at hrest
        cases hrest
      | ok found' =>
        simp only [hblock] at hrest hagreeRest
        rw [ih hknown' hrest hagreeRest, block_ok hblock, List.append_assoc]
        rfl

end Verdicts

/-! ### Questions

No question is answered twice, also where a visit unwinds in the end: class and method filters are asked
as it comes to their advisor, and introductions in one scan. -/

/-- The questions that were answered, in order. -/
def questions (written : List Entry) : List Question := (answers written).map Prod.fst

theorem questions_append (first second : List Entry) :
    questions (first ++ second) = questions first ++ questions second := by
  rw [questions, answers_append, List.map_append]
  rfl

theorem questions_ask {question : Question} {c : Class} {q : Query σ Bool}
    (h : (Inquiry.ask question c q s).result = .ok b) :
    questions (Inquiry.ask question c q s).written = [question] := by
  rw [questions, Inquiry.ask_ok h]
  rfl

/-- The question can still be put when the visit has come to the position. -/
def Due (known : Option Bool) (position : Nat) : Question → Prop
  | .classFilter i | .methodFilter i | .methodFilterKnowing i _ => position ≤ i
  | .introduction _ => known = none

end Resolution

/-- The computation puts questions that are due, none of them twice, and when it answers leaves others that
are still due. -/
def Inquiry.Asks {α : Type u} (due : Question → Prop) (p : Inquiry σ α) (left : α → Question → Prop) : Prop :=
  ∀ s, (Resolution.questions (p s).written).Nodup ∧
    (∀ question ∈ Resolution.questions (p s).written, due question) ∧
    ∀ a, (p s).result = .ok a → (∀ question, left a question → due question) ∧
      ∀ question ∈ Resolution.questions (p s).written, ¬left a question

namespace Inquiry

open Consultation (answer)

variable {α : Type u} {β : Type v} {due : Question → Prop}

theorem asks_answer {a : α} {left : α → Question → Prop} (hleft : ∀ question, left a question → due question) :
    Asks due (answer a : Inquiry σ α) left := by
  intro s
  refine ⟨List.nodup_nil, fun _ hq => absurd hq List.not_mem_nil, fun b hb => ?_⟩
  cases hb
  exact ⟨hleft, fun _ hq => absurd hq List.not_mem_nil⟩

theorem asks_ask {question : Question} {c : Class} {q : Query σ Bool} (hdue : due question) :
    Asks due (ask question c q) fun _ other => due other ∧ other ≠ question := by
  intro s
  cases hresult : (ask question c q s).result with
  | ok verdict =>
    rw [Resolution.questions_ask hresult]
    refine ⟨List.nodup_singleton _, fun other hq => ?_, fun _ _ => ⟨fun _ h => h.1, fun other hq h => ?_⟩⟩
    · rw [List.mem_singleton.mp hq]
      exact hdue
    · exact h.2 (List.mem_singleton.mp hq)
  | error panic =>
    have hnone : Resolution.questions (ask question c q s).written = [] := by
      simp only [ask, consult, bind, pure, Consultation.andThen, Consultation.write,
        Consultation.mapWritten, Consultation.answer] at hresult ⊢
      cases hq : (q s).result with
      | error panic =>
        simp only [Resolution.questions, answers_append, answers_notes]
        rfl
      | ok verdict =>
        rw [hq] at hresult
        cases hresult
    rw [hnone]
    exact ⟨List.nodup_nil, fun _ hq => absurd hq List.not_mem_nil, fun _ h => by cases h⟩

theorem Asks.andThen {p : Inquiry σ α} {k : α → Inquiry σ β} {between : α → Question → Prop}
    {left : β → Question → Prop} (hp : p.Asks due between) (hk : ∀ a, (k a).Asks (between a) left) :
    Asks due (p.andThen k) left := by
  intro s
  obtain ⟨hnodup, hdue, hbetween⟩ := hp s
  cases hresult : (p s).result with
  | error panic =>
    have hrun : p.andThen k s = ⟨.error panic, (p s).state, (p s).written⟩ := by
      rw [Consultation.andThen, hresult]
    rw [hrun]
    exact ⟨hnodup, hdue, fun _ h => by cases h⟩
  | ok a =>
    rw [Consultation.andThen_of_ok hresult, Resolution.questions_append]
    obtain ⟨hsub, hgone⟩ := hbetween a hresult
    obtain ⟨hnodup', hdue', hleft⟩ := hk a (p s).state
    refine ⟨List.nodup_append.mpr ⟨hnodup, hnodup', ?_⟩, fun question hq => ?_, fun b hb => ?_⟩
    · rintro question hq _ hq' rfl
      exact hgone question hq (hdue' question hq')
    · rcases List.mem_append.mp hq with hq | hq
      · exact hdue question hq
      · exact hsub question (hdue' question hq)
    · obtain ⟨hsub', hgone'⟩ := hleft b hb
      refine ⟨fun question h => hsub question (hsub' question h), fun question hq h => ?_⟩
      rcases List.mem_append.mp hq with hq | hq
      · exact hgone question hq (hsub' question h)
      · exact hgone' question hq h

theorem Asks.weaken {p : Inquiry σ α} {left left' : α → Question → Prop} (hp : p.Asks due left)
    (hleft : ∀ a question, left' a question → left a question) : p.Asks due left' := by
  intro s
  obtain ⟨hnodup, hdue, h⟩ := hp s
  refine ⟨hnodup, hdue, fun a ha => ?_⟩
  obtain ⟨hsub, hgone⟩ := h a ha
  exact ⟨fun question h => hsub question (hleft a question h),
    fun question hq h => hgone question hq (hleft a question h)⟩

end Inquiry

namespace Resolution

open Consultation

variable {site : Site} {advisors rest : List (Advisor σ)} {known : Option Bool} {position : Nat}
  {due : Question → Prop}

theorem asks_classAccepted (filter : ClassFilter σ) (hdue : due (.classFilter position)) :
    Inquiry.Asks due (classAccepted site position filter)
      fun _ question => due question ∧ question ≠ .classFilter position := by
  cases hpre : site.preFiltered with
  | true =>
    rw [classAccepted_of_preFiltered filter hpre]
    exact Inquiry.asks_answer fun _ h => h.1
  | false =>
    rw [classAccepted_of_not_preFiltered filter hpre]
    exact Inquiry.asks_ask hdue

/-- The scan asks for introductions only, and leaves none. -/
theorem asks_introduced (hdue : ∀ i, position ≤ i → due (.introduction i)) :
    Inquiry.Asks due (introduced site position rest)
      fun _ question => due question ∧ ∀ i, question ≠ .introduction i := by
  induction rest generalizing position due with
  | nil => exact Inquiry.asks_answer fun _ h => h.1
  | cons advisor rest ih =>
    have hnext : ∀ i, position + 1 ≤ i → due (.introduction i) := fun i hi => hdue i (by omega)
    cases advisor with
    | conditional pointcut advice => exact ih hnext
    | unfiltered advice => exact ih hnext
    | introduction filter advice interfaces =>
      rw [introduced_introduction]
      refine (Inquiry.asks_ask (hdue position (Nat.le_refl _))).andThen fun has => ?_
      cases has with
      | true => exact Inquiry.asks_answer fun _ h => ⟨h.1, h.2 position⟩
      | false =>
        have hlater : ∀ i, position + 1 ≤ i →
            due (.introduction i) ∧ Question.introduction i ≠ .introduction position := by
          refine fun i hi => ⟨hnext i hi, fun heq => ?_⟩
          cases heq
          omega
        exact (ih hlater).weaken fun _ _ h => ⟨⟨h.1, h.2 position⟩, h.2⟩

/-- What is due at the next position was due at this one, and asks about no advisor at this one. -/
theorem Due.next {known' : Option Bool} {question : Question} (hdue : Due known' (position + 1) question)
    (hknown : known' = none → known = none) :
    Due known position question ∧ question ≠ .classFilter position ∧
      question ≠ .methodFilter position ∧ ∀ has, question ≠ .methodFilterKnowing position has := by
  cases question with
  | introduction i => exact ⟨hknown hdue, nofun, nofun, nofun⟩
  | _ i =>
    have hi : position + 1 ≤ i := hdue
    have hne : i ≠ position := by omega
    refine ⟨Nat.le_of_succ_le hi, ?_, ?_, ?_⟩ <;> simp [hne]

theorem asks_methodAccepted (filter : MethodFilter σ) :
    Inquiry.Asks (fun question => Due known position question ∧ question ≠ .classFilter position)
      (methodAccepted site advisors known position filter)
      fun verdict => Due verdict.2 (position + 1) := by
  cases haware : filter.introductionAware with
  | false =>
    rw [methodAccepted_unaware filter haware]
    refine (Inquiry.asks_ask ⟨Nat.le_refl _, nofun⟩).andThen fun verdict => Inquiry.asks_answer ?_
    intro question hdue
    obtain ⟨hhere, hclass, hmethod, _⟩ := hdue.next id
    exact ⟨⟨hhere, hclass⟩, hmethod⟩
  | true =>
    rw [methodAccepted_aware filter haware]
    have hscan : Inquiry.Asks
        (fun question => Due known position question ∧ question ≠ .classFilter position)
        (match known with
          | some has => answer has
          | none => introduced site 0 advisors) fun _ question =>
          (Due known position question ∧ question ≠ .classFilter position) ∧
            (known = none → ∀ i, question ≠ .introduction i) := by
      cases known with
      | some has => exact Inquiry.asks_answer fun _ h => h.1
      | none =>
        refine (asks_introduced fun i _ => ⟨rfl, nofun⟩).weaken fun _ _ h => ⟨h.1, h.2 rfl⟩
    refine hscan.andThen fun has => (Inquiry.asks_ask ⟨⟨Nat.le_refl _, nofun⟩, nofun⟩).andThen
      fun verdict => Inquiry.asks_answer fun question hdue => ?_
    obtain ⟨hhere, hclass, _, hknowing⟩ := Due.next hdue nofun
    refine ⟨⟨⟨hhere, hclass⟩, fun _ i heq => ?_⟩, hknowing has⟩
    rw [heq] at hdue
    cases hdue

theorem asks_applies (advisor : Advisor σ) :
    Inquiry.Asks (Due known position) (applies site advisors known position advisor)
      fun verdict => Due verdict.2 (position + 1) := by
  cases advisor with
  | unfiltered advice => exact Inquiry.asks_answer fun question hdue => (hdue.next id).1
  | introduction filter advice interfaces =>
    rw [applies_introduction]
    exact (asks_classAccepted filter (Nat.le_refl position)).andThen
      fun accepted => Inquiry.asks_answer fun question hdue => ⟨(hdue.next id).1, (hdue.next id).2.1⟩
  | conditional pointcut advice =>
    rw [applies_conditional]
    refine (asks_classAccepted pointcut.classFilter (Nat.le_refl position)).andThen fun accepted => ?_
    cases accepted with
    | false => exact Inquiry.asks_answer fun question hdue => ⟨(hdue.next id).1, (hdue.next id).2.1⟩
    | true => exact asks_methodAccepted pointcut.methodMatcher.filter

theorem Due.of_place {question : Question} (h : ∃ i ∈ question.place?, position ≤ i) :
    Due known position question := by
  obtain ⟨i, hplace, hi⟩ := h
  cases question with
  | introduction i => cases hplace
  | _ i =>
    cases hplace
    exact hi

/-- What a visit asks was due, and none of it asks about an advisor behind those that are visited. -/
theorem asks_visit {registry : Registry σ} {found : List (Link σ)} :
    Inquiry.Asks (Due known position) (visit registry site advisors known position found rest)
      fun _ question => ∃ i ∈ question.place?, position + rest.length ≤ i := by
  induction rest generalizing known position found with
  | nil => exact Inquiry.asks_answer fun _ => Due.of_place
  | cons advisor rest ih =>
    have hlength : position + 1 + rest.length = position + (advisor :: rest).length := by
      rw [List.length_cons]
      omega
    rw [← hlength]
    refine (asks_applies advisor).andThen fun (applied, known') => ?_
    cases applied with
    | false => exact ih
    | true =>
      cases hblock : block registry advisor with
      | error e =>
        refine Inquiry.asks_answer fun question h => Due.of_place ?_
        obtain ⟨i, hplace, hi⟩ := h
        exact ⟨i, hplace, Nat.le_trans (Nat.le_add_right _ _) hi⟩
      | ok links => exact ih

/-! ### Predicates

Every verdict is one that the advisor's own predicate gave. -/

/-- The entry is a note, a question, or a verdict that was given by the predicate its question puts. -/
def Sound (site : Site) (advisors : List (Advisor σ)) : Entry → Prop
  | .note _ => True
  | .occurrence (.asked _ _) => True
  | .occurrence (.answered question verdict) =>
    question.Gave advisors site.method site.targetClass verdict
  | _ => False

theorem Sound.gave {entry : Entry} {a : Question × Bool} (hsound : Sound site advisors entry)
    (hanswer : entry.answer? = some a) : a.1.Gave advisors site.method site.targetClass a.2 := by
  cases entry with
  | note text => cases hanswer
  | event e => cases hanswer
  | occurrence o =>
    cases o with
    | answered question verdict =>
      cases hanswer
      exact hsound
    | _ => cases hanswer

/-- The entry is sound, and a question that it puts is about the class of the site. -/
def Directed (site : Site) (advisors : List (Advisor σ)) (entry : Entry) : Prop :=
  Sound site advisors entry ∧
    ∀ question c, entry = .occurrence (.asked question c) → c = site.targetClass

theorem writes_ask_of_query {question : Question} {q : Query σ Bool}
    (hquery : question.query? advisors site.method site.targetClass = some q) :
    Writes (Directed site advisors) (Inquiry.ask question site.targetClass q) := by
  refine Inquiry.writes_ask (fun _ => ⟨trivial, nofun⟩) ⟨trivial, ?_⟩ fun s verdict hverdict => ?_
  · rintro _ _ ⟨⟩
    rfl
  · exact ⟨⟨q, s, hquery, hverdict⟩, nofun⟩

theorem writes_classAccepted {filter : ClassFilter σ}
    (hquery : Question.query? advisors site.method site.targetClass (.classFilter position) =
      some (filter.accepts site.targetClass)) :
    Writes (Directed site advisors) (classAccepted site position filter) := by
  cases hpre : site.preFiltered with
  | true =>
    rw [classAccepted_of_preFiltered filter hpre]
    exact writes_answer _ _
  | false =>
    rw [classAccepted_of_not_preFiltered filter hpre]
    exact writes_ask_of_query hquery

theorem writes_introduced (hrest : advisors.drop position = rest) :
    Writes (Directed site advisors) (introduced site position rest) := by
  induction rest generalizing position with
  | nil => exact writes_answer _ _
  | cons advisor rest ih =>
    have hhere := getElem?_of_drop hrest
    have hnext := ih (drop_succ_of_drop hrest)
    cases hkind : advisor.isIntroduction with
    | false =>
      rw [introduced_other hkind]
      exact hnext
    | true =>
      cases advisor with
      | conditional pointcut advice => cases hkind
      | unfiltered advice => cases hkind
      | introduction filter advice interfaces =>
        rw [introduced_introduction]
        refine (writes_ask_of_query (by simp only [Question.query?, hhere])).andThen fun has => ?_
        cases has with
        | true => exact writes_answer _ _
        | false => exact hnext

theorem writes_applies {advisor : Advisor σ} (hhere : advisors[position]? = some advisor) :
    Writes (Directed site advisors) (applies site advisors known position advisor) := by
  cases advisor with
  | unfiltered advice => exact writes_answer _ _
  | introduction filter advice interfaces =>
    rw [applies_introduction]
    exact (writes_classAccepted (by simp only [Question.query?, hhere])).andThen
      fun _ => writes_answer _ _
  | conditional pointcut advice =>
    rw [applies_conditional]
    refine (writes_classAccepted (by simp only [Question.query?, hhere])).andThen fun accepted => ?_
    cases accepted with
    | false => exact writes_answer _ _
    | true =>
      rw [if_pos rfl]
      cases haware : pointcut.methodMatcher.filter.introductionAware with
      | false =>
        rw [methodAccepted_unaware _ haware]
        exact (writes_ask_of_query (by simp only [Question.query?, hhere])).andThen
          fun _ => writes_answer _ _
      | true =>
        rw [methodAccepted_aware _ haware]
        refine Writes.andThen ?_ fun has =>
          (writes_ask_of_query (by simp only [Question.query?, hhere])).andThen
            fun _ => writes_answer _ _
        cases known with
        | some has => exact writes_answer _ _
        | none => exact writes_introduced rfl

theorem directed_visit {registry : Registry σ} {found : List (Link σ)}
    (hrest : advisors.drop position = rest) :
    Writes (Directed site advisors) (visit registry site advisors known position found rest) := by
  induction rest generalizing known position found with
  | nil => exact writes_answer _ _
  | cons advisor rest ih =>
    have hnext := drop_succ_of_drop hrest
    refine Writes.andThen (writes_applies (getElem?_of_drop hrest)) fun (applied, known) => ?_
    cases applied with
    | false => exact ih hnext
    | true =>
      cases hblock : block registry advisor with
      | error e => exact writes_answer _ _
      | ok links => exact ih hnext

theorem writes_visit {registry : Registry σ} {found : List (Link σ)}
    (hrest : advisors.drop position = rest) :
    Writes (Sound site advisors) (visit registry site advisors known position found rest) :=
  fun s entry hentry => (directed_visit hrest s entry hentry).1

end Resolution

/-- A resolution that ends with a chain: the visit ended with its links, and one event followed. -/
theorem Registry.resolve_ok {registry : Registry σ} {advisors : List (Advisor σ)} {site : Site} {s : σ}
    {chain : Chain σ} (h : (registry.resolve advisors site s).result = .ok (.ok chain)) :
    (Resolution.visit registry site advisors none 0 [] advisors s).result = .ok (.ok chain.links) ∧
      answers (registry.resolve advisors site s).written =
        answers (Resolution.visit registry site advisors none 0 [] advisors s).written := by
  obtain ⟨visited, hvisited, hrest, hwritten⟩ := Consultation.andThen_ok h
  cases visited with
  | error e => cases hrest
  | ok links =>
    obtain ⟨_, hreport, hlast, hwritten'⟩ := Consultation.andThen_ok hrest
    cases hreport
    cases hlast
    refine ⟨hvisited, ?_⟩
    rw [show (registry.resolve advisors site s).written = _ from hwritten, answers_append]
    exact List.append_nil _

/-- **A resolved chain is the blocks of the advisors that contribute, in the order of the list.** The
verdicts on which it rests were given by the advisors' own predicates, none was asked for twice, and
introductions count wherever in the list they stand. -/
theorem Registry.resolve_links (registry : Registry σ) (advisors : List (Advisor σ)) (method : Method)
    (targetClass : Option Class) (preFiltered : Bool) (s : σ) (chain : Chain σ)
    (h : (registry.resolve advisors (.of method targetClass preFiltered) s).result =
      .ok (.ok chain)) :
    let given := answers (registry.resolve advisors (.of method targetClass preFiltered) s).written
    (∀ a ∈ given, a.1.Gave advisors method (targetClass.getD method.declaringClass) a.2) ∧
      (given.map Prod.fst).Nodup ∧
      ∀ v : Verdicts, v.Agrees given →
        chain.links = advisors.zipIdx.flatMap fun (advisor, position) =>
          if v.contributes preFiltered (v.introduced advisors) position advisor
          then registry.block advisor else [] := by
  obtain ⟨hvisit, hgiven⟩ := resolve_ok h
  intro given
  refine ⟨fun a ha => ?_, ?_, fun v hagree => ?_⟩
  · rw [show given = _ from hgiven] at ha
    obtain ⟨entry, hentry, hanswer⟩ := List.mem_filterMap.mp ha
    exact (Resolution.writes_visit rfl s entry hentry).gave hanswer
  · rw [show given = _ from hgiven]
    exact (Resolution.asks_visit s).1
  · rw [show given = _ from hgiven] at hagree
    exact Resolution.visit_links v (fun _ hhas => by cases hhas) hvisit hagree

/-- Advice that depends on introductions and on the arguments, an introduction behind it, and advice
for every call. -/
def layeredAdvisors : List (Advisor Unit) :=
  [.conditional
    { methodMatcher := .dynamic
        (.predicate
          { accepts := fun _ _ => pure false
            introductionAware := true
            acceptsKnowing := fun has _ _ => pure has })
        fun _ _ arguments => pure !arguments.isEmpty }
    (.before fun _ _ _ => pure (.ok ())),
   .introduction .any (.around ⟨some 0, .around Program.proceed⟩) ["Lockable"],
   .unfiltered (.afterReturning fun _ _ _ _ => pure (.ok ()))]

theorem resolve_links_layered :
    (Registry.standard.resolve layeredAdvisors (.of default none false) ()).result =
      .ok (.ok ⟨layeredAdvisors.flatMap Registry.standard.block⟩) ∧
    layeredAdvisors.flatMap Registry.standard.block =
      layeredAdvisors.zipIdx.flatMap fun (advisor, position) =>
        if Verdicts.contributes (fun question => question ≠ .methodFilter 0) false true position advisor
        then Registry.standard.block advisor else [] := by
  have h : (Registry.standard.resolve layeredAdvisors (.of default none false) ()).result =
      .ok (.ok ⟨layeredAdvisors.flatMap Registry.standard.block⟩) := rfl
  refine ⟨h, ?_⟩
  exact (Registry.resolve_links _ _ _ _ _ _ _ h).2.2 (fun question => question ≠ .methodFilter 0)
    (by unfold Verdicts.Agrees; decide)

end Interception
