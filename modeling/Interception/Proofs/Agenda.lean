import Interception.Proofs.Refusal

/-! Which predicates a resolution asks, and in which order. The verdicts that are given determine the list
of questions, the agenda: the advisors are gone over up to the first that is refused, each with its class
filter and, if that accepts, its method filter, and the scan for introductions stands in front of the first
method filter that wants to know about them. A resolution does nothing but put these questions one after
another, and none of them twice. -/

namespace Interception

universe u v

open Consultation (answer andThen_ok)

variable {σ : Type}

/-! ### Agendas -/

/-- The elements of a list up to the first that has the property, which is the last of them. -/
def upTo {α : Type u} (P : α → Bool) : List α → List α
  | [] => []
  | a :: rest => if P a then [a] else a :: upTo P rest

/-- The question tells whether introductions apply, so this has to be found out before. -/
def Question.isKnowing : Question → Bool
  | .methodFilterKnowing _ _ => true
  | _ => false

/-- Puts the scan immediately in front of the first question that needs it, if there is one. -/
def withScan (scan : List Question) : List Question → List Question
  | [] => []
  | question :: rest =>
    if question.isKnowing then scan ++ question :: rest else question :: withScan scan rest

namespace Verdicts

variable (v : Verdicts)

/-- What is asked of the advisor at the position alone: its class filter, unless that was done before, and
its method filter if the class is accepted, in one of its two forms. -/
def agendaOf (preFiltered has : Bool) (position : Nat) : Advisor σ → List Question
  | .conditional pointcut _ =>
    (if preFiltered then [] else [.classFilter position]) ++
      if preFiltered || v (.classFilter position) then
        [if pointcut.methodMatcher.filter.introductionAware then .methodFilterKnowing position has
          else .methodFilter position]
      else []
  | .introduction _ _ _ => if preFiltered then [] else [.classFilter position]
  | .unfiltered _ => []

/-- The scan for introductions, which ends with the first that applies. -/
def scan (advisors : List (Advisor σ)) : List Question :=
  upTo v ((introductions 0 advisors).map fun introduction => .introduction introduction.1)

/-- What a resolution asks. -/
def agenda (registry : Registry σ) (preFiltered : Bool) (advisors : List (Advisor σ)) : List Question :=
  let has := v.introduced advisors
  let visited := upTo (fun (advisor, position) => v.Refuses registry preFiltered has position advisor)
    advisors.zipIdx
  withScan (v.scan advisors)
    (visited.flatMap fun (advisor, position) => v.agendaOf preFiltered has position advisor)

end Verdicts

theorem Verdicts.Agrees.first {α : Type u} {β : Type v} {v : Verdicts} {p : Inquiry σ α}
    {k : α → Inquiry σ β} {s : σ} (h : v.Agrees (answers (p.andThen k s).written)) :
    v.Agrees (answers (p s).written) := by
  rw [Consultation.andThen] at h
  cases hresult : (p s).result with
  | error panic =>
    rw [hresult] at h
    exact h
  | ok a =>
    simp only [hresult, answers_append] at h
    exact fun given hgiven => h given (List.mem_append_left _ hgiven)

theorem Verdicts.Agrees.second {α : Type u} {β : Type v} {v : Verdicts} {p : Inquiry σ α}
    {k : α → Inquiry σ β} {s : σ} {a : α} (h : v.Agrees (answers (p.andThen k s).written))
    (hresult : (p s).result = .ok a) : v.Agrees (answers (k a (p s).state).written) := by
  rw [Consultation.andThen_of_ok hresult, answers_append] at h
  exact fun given hgiven => h given (List.mem_append_right _ hgiven)

theorem Verdicts.Agrees.of_ask {v : Verdicts} {question : Question} {c : Class} {q : Query σ Bool} {s : σ}
    {verdict : Bool} (h : v.Agrees (answers (Inquiry.ask question c q s).written))
    (hresult : (Inquiry.ask question c q s).result = .ok verdict) : v question = verdict := by
  rw [Inquiry.ask_ok hresult] at h
  exact h _ List.mem_cons_self

theorem upTo_cons {α : Type u} (P : α → Bool) (a : α) (rest : List α) :
    upTo P (a :: rest) = [a] ++ if P a then [] else upTo P rest := by
  show (if P a then [a] else a :: upTo P rest) = _
  split <;> rfl

theorem withScan_cons (scan : List Question) (question : Question) (rest : List Question) :
    withScan scan (question :: rest) =
      if question.isKnowing then scan ++ question :: rest else question :: withScan scan rest :=
  rfl

theorem withScan_nil (agenda : List Question) : withScan [] agenda = agenda := by
  induction agenda with
  | nil => rfl
  | cons question rest ih =>
    rw [withScan_cons, ih]
    split <;> rfl

theorem withScan_append (scan first second : List Question) :
    withScan scan (first ++ second) =
      withScan scan first ++ withScan (if first.any Question.isKnowing then [] else scan) second := by
  induction first with
  | nil => rfl
  | cons question rest ih =>
    rw [List.cons_append, List.any_cons, withScan_cons, withScan_cons]
    cases question.isKnowing with
    | true =>
      rw [if_pos rfl, if_pos rfl, Bool.true_or, if_pos rfl, withScan_nil, List.append_assoc,
        List.cons_append]
    | false => rw [if_neg Bool.false_ne_true, if_neg Bool.false_ne_true, Bool.false_or, ih, List.cons_append]

/-- The question that an entry records as asked, and the class that it is asked about. -/
def Entry.asked? : Entry → Option (Question × Class)
  | .occurrence (.asked question targetClass) => some (question, targetClass)
  | _ => none

/-- The questions that were asked, in order. -/
def asked (written : List Entry) : List (Question × Class) := written.filterMap Entry.asked?

theorem asked_append (first second : List Entry) : asked (first ++ second) = asked first ++ asked second := by
  simp [asked]

theorem asked_notes (notes : List String) : asked (notes.map .note) = [] := by
  induction notes with
  | nil => rfl
  | cons note notes ih => exact ih

/-- Puts questions one after another to the predicates of the advisors, as far as these have them. -/
def interrogate (site : Site) (advisors : List (Advisor σ)) : List Question → Inquiry σ Unit
  | [] => answer ()
  | question :: rest =>
    match question.query? advisors site.method site.targetClass with
    | none => interrogate site advisors rest
    | some q => (Inquiry.ask question site.targetClass q).andThen fun _ => interrogate site advisors rest

theorem interrogate_cons (site : Site) (advisors : List (Advisor σ)) (question : Question)
    (rest : List Question) :
    interrogate site advisors (question :: rest) =
      match question.query? advisors site.method site.targetClass with
      | none => interrogate site advisors rest
      | some q =>
        (Inquiry.ask question site.targetClass q).andThen fun _ => interrogate site advisors rest :=
  rfl

theorem interrogate_append (site : Site) (advisors : List (Advisor σ)) (first second : List Question) :
    interrogate site advisors (first ++ second) =
      (interrogate site advisors first).andThen fun _ => interrogate site advisors second := by
  induction first with
  | nil => exact (Consultation.answer_andThen _ _).symm
  | cons question rest ih =>
    rw [List.cons_append, interrogate_cons, interrogate_cons, ih]
    cases question.query? advisors site.method site.targetClass with
    | none => rfl
    | some q => exact (Consultation.andThen_assoc _ _ _).symm

/-! ### Putting questions -/

/-- From the state, the computation does what putting the questions of the agenda comes to. If it unwinds,
those behind a certain question are not asked any more. -/
structure Inquiry.Puts {α : Type u} (site : Site) (advisors : List (Advisor σ)) (p : Inquiry σ α)
    (agenda : List Question) (s : σ) : Prop where
  heard : interrogate site advisors agenda s =
    ⟨(p s).result.map fun _ => (), (p s).state, (p s).written⟩
  first : asked (p s).written <+: agenda.map (·, site.targetClass)
  all : ∀ a, (p s).result = .ok a → asked (p s).written = agenda.map (·, site.targetClass)

namespace Inquiry

variable {α : Type u} {β : Type v} {site : Site} {advisors : List (Advisor σ)} {s : σ}

theorem puts_answer (a : α) : Puts site advisors (answer a) [] s where
  heard := rfl
  first := List.prefix_rfl
  all _ _ := rfl

theorem puts_ask {question : Question} {q : Query σ Bool}
    (hquery : question.query? advisors site.method site.targetClass = some q) :
    (ask question site.targetClass q).Puts site advisors [question] s := by
  have hasked : asked (ask question site.targetClass q s).written = [(question, site.targetClass)] := by
    simp only [ask, consult, bind, pure, Consultation.andThen, Consultation.write,
      Consultation.mapWritten, Consultation.answer]
    cases (q s).result with
    | error panic => simp only [asked_append, asked_notes]; rfl
    | ok verdict => simp only [asked_append, asked_notes]; rfl
  refine ⟨?_, ?_, fun _ _ => hasked⟩
  · rw [interrogate_cons, hquery]
    show (ask question site.targetClass q).andThen (fun _ => answer ()) s = _
    rw [Consultation.andThen]
    cases (ask question site.targetClass q s).result with
    | error panic => rfl
    | ok verdict => simp only [answer, List.append_nil, Except.map]
  · rw [hasked]
    exact List.prefix_rfl

theorem Puts.andThen {p : Inquiry σ α} {k : α → Inquiry σ β} {first second : List Question}
    (hp : p.Puts site advisors first s)
    (hk : ∀ a, (p s).result = .ok a → (k a).Puts site advisors second (p s).state) :
    Puts site advisors (p.andThen k) (first ++ second) s := by
  have hinterrogated : interrogate site advisors (first ++ second) s = _ :=
    congrFun (interrogate_append site advisors first second) s
  rw [Consultation.andThen, hp.heard] at hinterrogated
  cases hresult : (p s).result with
  | error panic =>
    have hrun : p.andThen k s = ⟨.error panic, (p s).state, (p s).written⟩ := by
      rw [Consultation.andThen, hresult]
    rw [hresult] at hinterrogated
    refine ⟨?_, ?_, fun a ha => ?_⟩
    · rw [hinterrogated, hrun]
      rfl
    · rw [hrun, List.map_append]
      exact hp.first.trans (List.prefix_append _ _)
    · rw [hrun] at ha
      cases ha
  | ok a =>
    have hsecond := hk a hresult
    have hrun : p.andThen k s = ⟨(k a (p s).state).result, (k a (p s).state).state,
        (p s).written ++ (k a (p s).state).written⟩ := Consultation.andThen_of_ok hresult
    have hasked : asked (p.andThen k s).written =
        first.map (·, site.targetClass) ++ asked (k a (p s).state).written := by
      rw [hrun, asked_append, hp.all a hresult]
    rw [hresult] at hinterrogated
    refine ⟨?_, ?_, fun b hb => ?_⟩
    · rw [hinterrogated, hrun]
      simp only [Except.map, hsecond.heard]
    · rw [hasked, List.map_append]
      exact (List.prefix_append_right_inj _).mpr hsecond.first
    · rw [hrun] at hb
      rw [hasked, hsecond.all b hb, List.map_append]

end Inquiry

namespace Resolution

open Inquiry (Puts)

variable {site : Site} {advisors rest : List (Advisor σ)} {known known' : Option Bool} {position : Nat}
  {s : σ} {advisor : Advisor σ} {b : Bool} (v : Verdicts)

theorem puts_classAccepted {filter : ClassFilter σ}
    (hquery : Question.query? advisors site.method site.targetClass (.classFilter position) =
      some (filter.accepts site.targetClass)) :
    Puts site advisors (classAccepted site position filter)
      (if site.preFiltered then [] else [.classFilter position]) s := by
  cases hpre : site.preFiltered with
  | true =>
    rw [classAccepted_of_preFiltered filter hpre]
    exact Inquiry.puts_answer true
  | false =>
    rw [classAccepted_of_not_preFiltered filter hpre]
    exact Inquiry.puts_ask hquery

/-- The scan ends with the first introduction that applies. -/
theorem puts_introduced (hrest : advisors.drop position = rest)
    (hagree : v.Agrees (answers (introduced site position rest s).written)) :
    Puts site advisors (introduced site position rest)
      (upTo v ((introductions position rest).map fun introduction => .introduction introduction.1)) s := by
  induction rest generalizing position s with
  | nil => exact Inquiry.puts_answer false
  | cons advisor rest ih =>
    have hhere := getElem?_of_drop hrest
    have hnext := drop_succ_of_drop hrest
    cases advisor with
    | conditional pointcut advice => exact ih hnext hagree
    | unfiltered advice => exact ih hnext hagree
    | introduction filter advice interfaces =>
      rw [introduced_introduction] at hagree ⊢
      show Puts site advisors _ (upTo v (.introduction position :: _)) s
      rw [upTo_cons]
      refine (Inquiry.puts_ask (by simp only [Question.query?, hhere])).andThen fun has hhas => ?_
      have hverdict : v (.introduction position) = has := hagree.first.of_ask hhas
      rw [hverdict]
      cases has with
      | true => exact Inquiry.puts_answer true
      | false => exact ih hnext (hagree.second hhas)

/-- What is left to be asked of introductions when something may be known of them already. -/
def pendingScan (scan : List Question) : Option Bool → List Question
  | none => scan
  | some _ => []

/-- Finds out whether introductions apply, unless that is known. -/
def findOut (site : Site) (advisors : List (Advisor σ)) : Option Bool → Inquiry σ Bool
  | some has => answer has
  | none => introduced site 0 advisors

theorem puts_findOut (hagree : v.Agrees (answers (findOut site advisors known s).written)) :
    Puts site advisors (findOut site advisors known) (pendingScan (v.scan advisors) known) s := by
  cases known with
  | some has => exact Inquiry.puts_answer has
  | none => exact puts_introduced v rfl hagree

theorem findOut_verdict (hknown : Knows v advisors known)
    (h : (findOut site advisors known s).result = .ok b)
    (hagree : v.Agrees (answers (findOut site advisors known s).written)) :
    b = v.introduced advisors := by
  cases known with
  | some has =>
    cases h
    exact hknown _ rfl
  | none => exact introduced_verdict v h hagree

theorem methodAccepted_findOut (filter : MethodFilter σ) (haware : filter.introductionAware = true) :
    methodAccepted site advisors known position filter =
      (findOut site advisors known).andThen fun has =>
      (Inquiry.ask (.methodFilterKnowing position has) site.targetClass
        (filter.acceptsKnowing has site.method site.targetClass)).andThen fun verdict =>
      answer (verdict, some has) := by
  rw [methodAccepted_aware filter haware]
  cases known <;> rfl

theorem puts_methodAccepted {pointcut : Pointcut σ} {advice : Advice σ} (hknown : Knows v advisors known)
    (hhere : advisors[position]? = some (.conditional pointcut advice))
    (hagree : v.Agrees
      (answers (methodAccepted site advisors known position pointcut.methodMatcher.filter s).written)) :
    Puts site advisors (methodAccepted site advisors known position pointcut.methodMatcher.filter)
      (withScan (pendingScan (v.scan advisors) known)
        [if pointcut.methodMatcher.filter.introductionAware then
            .methodFilterKnowing position (v.introduced advisors)
          else .methodFilter position]) s := by
  cases haware : pointcut.methodMatcher.filter.introductionAware with
  | false =>
    rw [methodAccepted_unaware _ haware]
    exact (Inquiry.puts_ask (by simp only [Question.query?, hhere])).andThen
      fun _ _ => Inquiry.puts_answer _
  | true =>
    rw [methodAccepted_findOut _ haware] at hagree ⊢
    refine (puts_findOut v hagree.first).andThen fun has hhas => ?_
    rw [findOut_verdict v hknown hhas hagree.first]
    exact (Inquiry.puts_ask (by simp only [Question.query?, hhere])).andThen
      fun _ _ => Inquiry.puts_answer _

theorem withScan_classFilter (preFiltered : Bool) (scan rest : List Question) :
    withScan scan ((if preFiltered then [] else [.classFilter position]) ++ rest) =
      (if preFiltered then [] else [.classFilter position]) ++ withScan scan rest := by
  cases preFiltered <;> rfl

/-- What is asked as the visit comes to one advisor: what there is to ask of it, with the scan if that is
needed now. -/
theorem puts_applies (hknown : Knows v advisors known) (hhere : advisors[position]? = some advisor)
    (hagree : v.Agrees (answers (applies site advisors known position advisor s).written)) :
    Puts site advisors (applies site advisors known position advisor)
      (withScan (pendingScan (v.scan advisors) known)
        (v.agendaOf site.preFiltered (v.introduced advisors) position advisor)) s := by
  cases advisor with
  | unfiltered advice => exact Inquiry.puts_answer _
  | introduction filter advice interfaces =>
    rw [applies_introduction, Verdicts.agendaOf, ← List.append_nil (ite _ _ _), withScan_classFilter]
    exact (puts_classAccepted (by simp only [Question.query?, hhere])).andThen
      fun _ _ => Inquiry.puts_answer _
  | conditional pointcut advice =>
    rw [applies_conditional] at hagree ⊢
    rw [Verdicts.agendaOf, withScan_classFilter]
    refine (puts_classAccepted (by simp only [Question.query?, hhere])).andThen fun accepted haccepted => ?_
    rw [← classAccepted_verdict v haccepted hagree.first]
    have hrest := hagree.second haccepted
    cases accepted with
    | false => exact Inquiry.puts_answer _
    | true => exact puts_methodAccepted v hknown hhere hrest

/-- What matching the method makes known of introductions. -/
theorem methodAccepted_known {filter : MethodFilter σ}
    (h : (methodAccepted site advisors known position filter s).result = .ok (b, known'))
    (scan : List Question) :
    pendingScan scan known' = if filter.introductionAware then [] else pendingScan scan known := by
  cases haware : filter.introductionAware with
  | false =>
    rw [methodAccepted_unaware filter haware] at h
    obtain ⟨_, _, h, _⟩ := andThen_ok h
    cases h
    rfl
  | true =>
    rw [methodAccepted_aware filter haware] at h
    obtain ⟨_, _, h, _⟩ := andThen_ok h
    obtain ⟨_, _, h, _⟩ := andThen_ok h
    cases h
    rfl

/-- The scan is still to be made if it was before and nothing that was asked needed it. -/
theorem applies_known (h : (applies site advisors known position advisor s).result = .ok (b, known'))
    (hagree : v.Agrees (answers (applies site advisors known position advisor s).written))
    (scan : List Question) (has : Bool) :
    pendingScan scan known' =
      if (v.agendaOf site.preFiltered has position advisor).any Question.isKnowing then []
      else pendingScan scan known := by
  have hclass : ∀ rest : List Question,
      ((if site.preFiltered then [] else [Question.classFilter position]) ++ rest).any Question.isKnowing =
        rest.any Question.isKnowing := by
    intro rest
    cases site.preFiltered <;> rfl
  cases advisor with
  | unfiltered advice =>
    cases h
    rfl
  | introduction filter advice interfaces =>
    obtain ⟨_, _, h, _⟩ := andThen_ok h
    cases h
    have hnone := hclass []
    rw [List.append_nil] at hnone
    rw [Verdicts.agendaOf, hnone]
    rfl
  | conditional pointcut advice =>
    obtain ⟨accepted, haccepted, h, _⟩ := andThen_ok h
    rw [Verdicts.agendaOf, hclass, ← classAccepted_verdict v haccepted hagree.first]
    cases accepted with
    | false =>
      cases h
      rfl
    | true =>
      rw [methodAccepted_known h scan]
      cases pointcut.methodMatcher.filter.introductionAware <;> rfl

/-- **One advisor after another**: a visit asks what there is to ask of the advisors up to the first that is
refused, and scans for introductions when that is needed first. -/
theorem puts_visit {registry : Registry σ} {found : List (Link σ)} (hknown : Knows v advisors known)
    (hrest : advisors.drop position = rest)
    (hagree : v.Agrees
      (answers (visit registry site advisors known position found rest s).written)) :
    Puts site advisors (visit registry site advisors known position found rest)
      (withScan (pendingScan (v.scan advisors) known)
        ((upTo (fun (advisor, position) => v.Refuses registry site.preFiltered (v.introduced advisors)
            position advisor) (rest.zipIdx position)).flatMap fun (advisor, position) =>
          v.agendaOf site.preFiltered (v.introduced advisors) position advisor)) s := by
  induction rest generalizing known position found s with
  | nil => exact Inquiry.puts_answer _
  | cons advisor rest ih =>
    have hnext := drop_succ_of_drop hrest
    rw [List.zipIdx_cons, upTo_cons, List.flatMap_append, List.flatMap_singleton, withScan_append]
    refine (puts_applies v hknown (getElem?_of_drop hrest) (Verdicts.Agrees.first hagree)).andThen
      fun (applied, known') happlied => ?_
    have hfirst := Verdicts.Agrees.first hagree
    have hlater := Verdicts.Agrees.second hagree happlied
    obtain ⟨hverdict, hknown'⟩ := applies_verdict v hknown happlied hfirst
    rw [← applies_known v happlied hfirst]
    cases applied with
    | false =>
      have hgoes : ¬v.Refuses registry site.preFiltered (v.introduced advisors) position advisor :=
        fun h => Bool.false_ne_true (hverdict.trans h.1)
      simp only [hgoes, decide_false]
      exact ih hknown' hnext hlater
    | true =>
      cases hblock : block registry advisor with
      | error e =>
        have hends : v.Refuses registry site.preFiltered (v.introduced advisors) position advisor :=
          ⟨hverdict.symm, (block_error hblock).1⟩
        simp only [hends, decide_true]
        exact Inquiry.puts_answer _
      | ok links =>
        have hgoes : ¬v.Refuses registry site.preFiltered (v.introduced advisors) position advisor :=
          fun h => block_ne_nil hblock h.2
        simp only [hblock] at hlater
        simp only [hgoes, decide_false]
        exact ih hknown' hnext hlater

end Resolution

/-- Verdicts of which none was given twice are agreed with. -/
theorem Verdicts.exists_agrees {given : List (Question × Bool)} (h : (given.map Prod.fst).Nodup) :
    ∃ v : Verdicts, v.Agrees given := by
  refine ⟨fun question => decide ((question, true) ∈ given), fun a ha => ?_⟩
  obtain ⟨question, verdict⟩ := a
  cases verdict with
  | true => exact decide_eq_true ha
  | false =>
    refine decide_eq_false fun htrue => ?_
    have hsame := List.inj_on_of_nodup_map h ha htrue rfl
    cases hsame

/-- The event that reports a chain, if there is one. -/
def Resolution.reported (site : Site) (advisors : List (Advisor σ)) :
    Except Panic (Except AdvisorError (Chain σ)) → List Entry
  | .ok (.ok chain) =>
    [.event (.chainResolved site.method site.targetClass advisors.length chain.links.length)]
  | _ => []

namespace Resolution

variable {site : Site} {advisors : List (Advisor σ)}
  {result : Except Panic (Except AdvisorError (Chain σ))}

theorem mem_reported {entry : Entry} (h : entry ∈ reported site advisors result) :
    ∃ event, entry = .event event := by
  unfold reported at h
  split at h
  · exact ⟨_, List.mem_singleton.mp h⟩
  · exact absurd h List.not_mem_nil

theorem answers_reported : answers (reported site advisors result) = [] := by
  unfold reported
  split <;> rfl

theorem asked_reported : asked (reported site advisors result) = [] := by
  unfold reported
  split <;> rfl

end Resolution

/-- A resolution is its visit, and reports a chain that this finds. -/
theorem Registry.resolve_eq_visit (registry : Registry σ) (advisors : List (Advisor σ)) (site : Site) (s : σ) :
    let visited := Resolution.visit registry site advisors none 0 [] advisors s
    let reply := registry.resolve advisors site s
    (reply.result.map fun _ => ()) = (visited.result.map fun _ => ()) ∧ reply.state = visited.state ∧
      reply.written = visited.written ++ Resolution.reported site advisors reply.result := by
  intro visited reply
  have hreply : reply = Consultation.andThen (Resolution.visit registry site advisors none 0 [] advisors) _ s :=
    rfl
  cases hresult : visited.result with
  | error panic =>
    rw [Consultation.andThen, hresult] at hreply
    rw [hreply]
    exact ⟨rfl, rfl, (List.append_nil _).symm⟩
  | ok found =>
    rw [Consultation.andThen_of_ok hresult] at hreply
    rw [hreply]
    cases found with
    | error e => exact ⟨rfl, rfl, rfl⟩
    | ok links => exact ⟨rfl, rfl, rfl⟩

/-- **The predicates that a resolution asks, and their order.** On the verdicts that are given, of which
none is given twice, a resolution comes to what putting the questions of the agenda comes to, in state, in
entries and in whether it unwinds; it adds nothing but the report of a chain. So the questions that are
asked are those of the agenda, or the first of them if a predicate unwinds, each about the class of the
site; and no argument predicate is consulted. -/
theorem Registry.resolve_puts_agenda (registry : Registry σ) (advisors : List (Advisor σ)) (method : Method)
    (targetClass : Option Class) (preFiltered : Bool) (s : σ) :
    let site := Site.of method targetClass preFiltered
    let reply := registry.resolve advisors site s
    let given := answers reply.written
    (given.map Prod.fst).Nodup ∧ (∃ v : Verdicts, v.Agrees given) ∧
      (∀ invocation position c arguments,
        .occurrence (.matching invocation position c arguments) ∉ reply.written) ∧
      ∀ v : Verdicts, v.Agrees given →
        let agenda := v.agenda registry preFiltered advisors
        let heard := interrogate site advisors agenda s
        (reply.result.map fun _ => ()) = heard.result ∧ reply.state = heard.state ∧
        reply.written = heard.written ++ Resolution.reported site advisors reply.result ∧
        asked reply.written <+: agenda.map (·, site.targetClass) ∧
        ∀ resolved, reply.result = .ok resolved →
          asked reply.written = agenda.map (·, site.targetClass) := by
  intro site reply given
  obtain ⟨hresult, hstate, hwritten⟩ := registry.resolve_eq_visit advisors site s
  have hgiven : given = answers (Resolution.visit registry site advisors none 0 [] advisors s).written := by
    show answers reply.written = _
    rw [hwritten, answers_append, Resolution.answers_reported, List.append_nil]
  have hasked : asked reply.written =
      asked (Resolution.visit registry site advisors none 0 [] advisors s).written := by
    rw [hwritten, asked_append, Resolution.asked_reported, List.append_nil]
  have hnodup : (given.map Prod.fst).Nodup := by
    rw [hgiven]
    exact (Resolution.asks_visit s).1
  refine ⟨hnodup, Verdicts.exists_agrees hnodup, fun invocation position c arguments hmatching => ?_,
    fun v hagree => ?_⟩
  · rw [hwritten] at hmatching
    rcases List.mem_append.mp hmatching with hvisited | hreported
    · exact Resolution.writes_visit rfl s _ hvisited
    · obtain ⟨event, hevent⟩ := Resolution.mem_reported hreported
      cases hevent
  · rw [hgiven] at hagree
    have hputs : Inquiry.Puts site advisors (Resolution.visit registry site advisors none 0 [] advisors)
        (v.agenda registry preFiltered advisors) s :=
      Resolution.puts_visit v (Resolution.knows_none v advisors) rfl hagree
    have hheard := hputs.heard
    refine ⟨hresult.trans ?_, hstate.trans ?_, hwritten.trans ?_, ?_, fun resolved hresolved => ?_⟩
    · rw [hheard]
    · rw [hheard]
    · rw [hheard]
    · rw [hasked]
      exact hputs.first
    · rw [hasked]
      rw [hresolved] at hresult
      cases hvisited : (Resolution.visit registry site advisors none 0 [] advisors s).result with
      | error panic =>
        rw [hvisited] at hresult
        cases hresult
      | ok visited => exact hputs.all visited hvisited

theorem resolve_puts_agenda_unsupported :
    let v : Verdicts := fun question => question ≠ .classFilter 0
    let reply := Registry.standard.resolve unsupportedAdvisors (.of default none false) 7
    v.Agrees (answers reply.written) ∧
      v.agenda Registry.standard false unsupportedAdvisors =
        [.classFilter 0, .classFilter 1, .introduction 3, .methodFilterKnowing 1 true] ∧
      asked reply.written =
        (v.agenda Registry.standard false unsupportedAdvisors).map (·, (default : Method).declaringClass) := by
  intro v reply
  have hagrees : v.Agrees (answers reply.written) := by
    unfold Verdicts.Agrees
    decide
  obtain ⟨_, _, _, hagenda⟩ := Registry.standard.resolve_puts_agenda unsupportedAdvisors default none false 7
  obtain ⟨_, _, _, _, hall⟩ := hagenda v hagrees
  exact ⟨hagrees, rfl, hall (.error (.unknownAdvice "audit")) rfl⟩

end Interception
