import Interception.Proofs.Cursor

/-! How often the argument predicate of one advisor is asked. All links that an advisor contributes to a
chain carry its predicate, and a call asks it at each of these links that it comes to, about the arguments
that it has there. So it is asked once where the advisor contributes one link, or where the call comes no
further than to the first; and the interceptors of the advisor are run together or not at all just where
all answers are the same. -/

namespace Interception

variable {σ : Type}

/-! ### Forks -/

namespace Course

/-- The invocations that are forked. -/
def forked (c : Course σ) : List Ref := c.filterMap fun
  | (.forked original _, _) => some original
  | _ => none

/-- The given invocations, their forks, and the forks of these. -/
def kinOf (kin : List Ref) : Course σ → List Ref
  | [] => kin
  | (.forked original copy, _) :: rest => kinOf (if original ∈ kin then kin ++ [copy] else kin) rest
  | _ :: rest => kinOf kin rest

/-- An invocation that is not forked has no kin. -/
theorem kinOf_of_not_forked {c : Course σ} {r : Ref} (h : r ∉ c.forked) : c.kinOf [r] = [r] := by
  induction c with
  | nil => rfl
  | cons moment rest ih =>
    obtain ⟨move, w⟩ := moment
    cases move with
    | forked original copy =>
      have hcons : forked ((.forked original copy, w) :: rest) = original :: forked rest := rfl
      rw [hcons, List.mem_cons, not_or] at h
      have hother : original ∉ [r] := fun hmem => h.1 (List.mem_singleton.mp hmem).symm
      rw [kinOf, if_neg hother]
      exact ih h.2
    | _ => exact ih h

end Course

/-! ### What the journal tells of links that are asked -/

/-- The link, if the mark tells that its interceptor is run. -/
def Mark.ran? : Mark → Option Nat
  | .entered position _ => some position
  | _ => none

/-- What the journal tells of the cursor of an invocation from one world to a later one. -/
def World.marksSince (w w' : World σ) (r : Ref) : List Mark := (w'.marks r).drop (w.marks r).length

namespace Advance

/-- The interceptors that are run are those of the links visited that let the call in. -/
theorem Ends.mem_ran {a : Advance} {k : Invocation σ} (h : a.Ends k) {position : Nat} :
    position ∈ a.marks.filterMap Mark.ran? ↔ ∃ v ∈ a.visits, v.position = position ∧ v.Admits := by
  have hvisit : ∀ v : Visit, v.marks.filterMap Mark.ran? = [] := by
    rintro ⟨position, arguments, _ | _ | _ | _⟩ <;> rfl
  have hvisits : (a.visits.flatMap Visit.marks).filterMap Mark.ran? = [] := by
    rw [List.filterMap_flatMap]
    simp [hvisit]
  have hmarks : a.marks.filterMap Mark.ran? = a.arrival.marks.filterMap Mark.ran? := by
    rw [Advance.marks, List.filterMap_append, List.filterMap_cons_none rfl, hvisits, List.nil_append]
  rw [hmarks]
  constructor
  · intro hmem
    cases harrival : a.arrival with
    | entered p current =>
      rw [harrival] at hmem
      obtain rfl : position = p := List.mem_singleton.mp hmem
      obtain ⟨rfl, hposition, _⟩ := h.entered _ _ harrival
      obtain ⟨v, hv, rfl⟩ := List.mem_map.mp hposition
      exact ⟨v, hv, rfl, (h.enters v hv).mp harrival⟩
    | reached =>
      rw [harrival] at hmem
      cases hmem
    | unwound panic =>
      rw [harrival] at hmem
      cases hmem
  · rintro ⟨v, hv, rfl, hadmits⟩
    rw [(h.enters v hv).mpr hadmits]
    exact List.mem_singleton_self _

end Advance

/-! ### Polls -/

/-- The position is one of the neighbouring positions of which `first` is the first. -/
def Within (first count position : Nat) : Prop := first ≤ position ∧ position < first + count

instance (first count position : Nat) : Decidable (Within first count position) :=
  inferInstanceAs (Decidable (_ ∧ _))

/-- The positions up to the last, as far as they are in the range. -/
theorem filter_range' (first count last : Nat) :
    (List.range' 0 last).filter (Within first count ·) =
      List.range' first (min count (last - first)) := by
  induction last with
  | zero => simp
  | succ last ih =>
    rw [List.range'_concat, List.filter_append, ih, Nat.zero_add, Nat.one_mul]
    by_cases hin : first ≤ last ∧ last < first + count
    · have hmin : min count (last + 1 - first) = min count (last - first) + 1 := by omega
      have hlast : last = first + min count (last - first) := by omega
      rw [hmin, List.range'_concat, Nat.one_mul, ← hlast]
      simp [Within, hin]
    · have hmin : min count (last + 1 - first) = min count (last - first) := by omega
      rw [hmin, List.filter_singleton]
      simp [Within, hin]

/-- What becomes of neighbouring links in the course of a call. -/
structure Poll where
  /-- The links at which the argument predicate is asked. -/
  asked : List Nat
  /-- The links whose interceptors are run. -/
  ran : List Nat
  /-- The visits to the links, with the answers. -/
  answers : List Visit

/-- What becomes of the links from `first` on in the course of a call, which leads from the first world
to the second: what the journal tells of the invocation and its forks, and their visits. -/
def Course.poll (c : Course σ) (w w' : World σ) (r : Ref) (first count : Nat) : Poll where
  asked := ((c.kinOf [r]).flatMap fun s => (w.marksSince w' s).filterMap Mark.asked?).filter
    (Within first count ·)
  ran := ((c.kinOf [r]).flatMap fun s => (w.marksSince w' s).filterMap Mark.ran?).filter
    (Within first count ·)
  answers := ((c.kinOf [r]).flatMap fun s => (c.advances s).flatMap (·.1.visits)).filter
    (Within first count ·.position)

/-- The poll of links that carry the predicate, in a call that has come to `entered`. -/
structure Poll.Follows (poll : Poll) (accepts : List Value → Query σ Bool) (first count entered : Nat) :
    Prop where
  /-- The predicate is asked once at each of the links to which the call has come, in their order. -/
  asked : poll.asked = List.range' first (min count (entered - first))
  positions : poll.answers.map Visit.position = poll.asked
  /-- It is asked about the arguments of the moment, in the state of the moment. -/
  answers : ∀ answer ∈ poll.answers, ∃ s, answer.verdict = some (accepts answer.arguments s).result
  /-- An interceptor is run if and only if the answer at its own link lets the call in. -/
  ran : ∀ position, position ∈ poll.ran ↔
    ∃ answer ∈ poll.answers, answer.position = position ∧ answer.verdict = some (.ok true)

namespace Poll.Follows

variable {poll : Poll} {accepts : List Value → Query σ Bool} {first count entered : Nat}

theorem length_le_one_iff (h : poll.Follows accepts first count entered) :
    poll.asked.length ≤ 1 ↔ count ≤ 1 ∨ entered ≤ first + 1 := by
  rw [h.asked, List.length_range']
  omega

theorem asked_nodup (h : poll.Follows accepts first count entered) : poll.asked.Nodup := by
  rw [h.asked]
  exact List.nodup_range'

/-- A call that has come past the links has run all of their interceptors or none if and only if all
answers were the same. -/
theorem together_iff (h : poll.Follows accepts first count entered) (hpast : first + count ≤ entered) :
    (poll.ran = [] ∨ ∀ position, Within first count position → position ∈ poll.ran) ↔
      ((∀ answer ∈ poll.answers, answer.verdict ≠ some (.ok true)) ∨
        ∀ answer ∈ poll.answers, answer.verdict = some (.ok true)) := by
  have hasked : ∀ position, Within first count position ↔ position ∈ poll.asked := by
    intro position
    rw [h.asked, List.mem_range'_1, Within]
    omega
  refine or_congr ?_ ?_
  · rw [List.eq_nil_iff_forall_not_mem]
    constructor
    · exact fun hnone answer hanswer hyes => hnone _ ((h.ran _).mpr ⟨answer, hanswer, rfl, hyes⟩)
    · intro hnone position hposition
      obtain ⟨answer, hanswer, _, hyes⟩ := (h.ran position).mp hposition
      exact hnone answer hanswer hyes
  · constructor
    · intro hall answer hanswer
      have hmem : answer.position ∈ poll.asked := h.positions ▸ List.mem_map_of_mem hanswer
      obtain ⟨other, hother, hsame, hyes⟩ := (h.ran _).mp (hall _ ((hasked _).mpr hmem))
      -- no link is asked twice, so the answer that let the call in is this one
      have hnodup : (poll.answers.map Visit.position).Nodup := h.positions ▸ h.asked_nodup
      exact List.inj_on_of_nodup_map hnodup hother hanswer hsame ▸ hyes
    · intro hall position hposition
      have hmem : position ∈ poll.answers.map Visit.position := h.positions ▸ (hasked position).mp hposition
      obtain ⟨answer, hanswer, rfl⟩ := List.mem_map.mp hmem
      exact (h.ran _).mpr ⟨answer, hanswer, rfl, hall answer hanswer⟩

end Poll.Follows

/-- There is nothing to ask where there are no links. -/
theorem Course.follows_poll_zero (c : Course σ) (w w' : World σ) (r : Ref) (first entered : Nat)
    (accepts : List Value → Query σ Bool) : (c.poll w w' r first 0).Follows accepts first 0 entered := by
  have hnowhere : ∀ position, ¬Within first 0 position := fun position h => by
    obtain ⟨hfrom, hto⟩ := h
    omega
  simp only [Course.poll, hnowhere, decide_false, List.filter_false]
  exact {
    asked := by rw [Nat.zero_min]; rfl
    positions := rfl
    answers := nofun
    ran := fun position => ⟨nofun, nofun⟩ }

namespace World.Travels

variable {v v' : World σ} {r : Ref} {advances : List (Advance × Invocation σ)} {first count : Nat}
  {accepts : ArgumentPredicate σ}

/-- At links that carry the predicate, a visit asks it. -/
theorem answers (h : v.Travels v' r advances)
    (hlinks : ∀ position, Within first count position → ∃ interceptor,
      (v.invocation r).chain.links[position]? = some (.dynamic interceptor accepts))
    {visit : Visit} (hvisit : visit ∈ advances.flatMap (·.1.visits))
    (hwithin : Within first count visit.position) :
    ∃ s, visit.verdict =
      some (accepts (v.invocation r).method (v.invocation r).targetClass visit.arguments s).result := by
  obtain ⟨⟨a, k⟩, ha, hin⟩ := List.mem_flatMap.mp hvisit
  have hroute : (v.invocation r).SameRoute k := (h.ends _ ha).2
  have hends : a.Ends k := (h.ends _ ha).1
  obtain ⟨hfits, harguments⟩ := hends.fits visit hin
  obtain ⟨interceptor, hlink⟩ := hlinks _ hwithin
  have hmethod : k.method = (v.invocation r).method := by rw [hroute]
  have hclass : k.targetClass = (v.invocation r).targetClass := by rw [hroute]
  rw [Visit.Fits, hroute.chain, hlink, hmethod, hclass, ← harguments] at hfits
  exact hfits

/-- What a journey from the start of a chain makes of links that carry the predicate. -/
theorem polls (h : v.Travels v' r advances) (hstart : (v.invocation r).entered = 0)
    (hlinks : ∀ position, Within first count position → ∃ interceptor,
      (v.invocation r).chain.links[position]? = some (.dynamic interceptor accepts)) :
    let visits := advances.flatMap (·.1.visits)
    let gained := advances.flatMap (·.1.marks)
    Poll.Follows
      { asked := (gained.filterMap Mark.asked?).filter (Within first count ·)
        ran := (gained.filterMap Mark.ran?).filter (Within first count ·)
        answers := visits.filter (Within first count ·.position) }
      (accepts (v.invocation r).method (v.invocation r).targetClass) first count
      (v'.invocation r).entered := by
  intro visits gained
  have hanswers : ∀ {visit : Visit}, visit ∈ visits → Within first count visit.position → ∃ s,
      visit.verdict =
        some (accepts (v.invocation r).method (v.invocation r).targetClass visit.arguments s).result :=
    fun hvisit hwithin => h.answers hlinks hvisit hwithin
  have hvisited : visits.map Visit.position = List.range' 0 (v'.invocation r).entered := by
    have horder := h.order
    rw [hstart, Nat.sub_zero] at horder
    rw [List.map_flatMap]
    exact horder
  have hgained : gained.filterMap Mark.asked? =
      (visits.filter (·.verdict.isSome)).map Visit.position := by
    rw [List.filterMap_flatMap, List.filter_flatMap, List.map_flatMap]
    exact congrArg (advances.flatMap ·) (funext fun a => a.1.filterMap_asked)
  -- of the links that carry the predicate, none is visited without a question
  have hasked : (gained.filterMap Mark.asked?).filter (Within first count ·) =
      (visits.filter (Within first count ·.position)).map Visit.position := by
    rw [hgained, List.filter_map, List.filter_filter]
    refine congrArg (List.map Visit.position) (List.filter_congr fun visit hvisit => ?_)
    by_cases hwithin : Within first count visit.position
    · obtain ⟨s, hverdict⟩ := hanswers hvisit hwithin
      simp [hwithin, hverdict]
    · simp [hwithin]
  exact {
    asked := by
      change List.filter _ _ = _
      rw [← filter_range', ← hvisited, List.filter_map]
      exact hasked
    positions := hasked.symm
    answers := by
      intro visit hvisit
      obtain ⟨hin, hwithin⟩ := List.mem_filter.mp hvisit
      exact hanswers hin (of_decide_eq_true hwithin)
    ran := by
      intro position
      change position ∈ List.filter _ _ ↔ _
      rw [List.mem_filter, List.filterMap_flatMap, List.mem_flatMap]
      constructor
      · rintro ⟨⟨a, ha, hran⟩, hwithin⟩
        obtain ⟨visit, hvisit, rfl, hadmits⟩ := (h.ends a ha).1.mem_ran.mp hran
        have hin : visit ∈ visits := List.mem_flatMap.mpr ⟨a, ha, hvisit⟩
        obtain ⟨s, hverdict⟩ := hanswers hin (of_decide_eq_true hwithin)
        refine ⟨visit, List.mem_filter.mpr ⟨hin, hwithin⟩, rfl, ?_⟩
        exact hadmits.resolve_left (by rw [hverdict]; nofun)
      · rintro ⟨visit, hvisit, rfl, hyes⟩
        obtain ⟨hin, hwithin⟩ := List.mem_filter.mp hvisit
        obtain ⟨a, ha, hvisit⟩ := List.mem_flatMap.mp hin
        exact ⟨⟨a, ha, (h.ends a ha).1.mem_ran.mpr ⟨visit, hvisit, rfl, .inr hyes⟩⟩, hwithin⟩ }

end World.Travels

/-! ### The links of one advisor -/

namespace Proxy

/-- What the advisors contribute on the verdicts, advisor by advisor. -/
def blocks (p : Proxy σ) (v : Verdicts) : List (List (Link σ)) :=
  p.advisors.zipIdx.map fun (advisor, position) =>
    if v.contributes p.config.preFiltered (v.introduced p.advisors) position advisor
    then p.registry.block advisor else []

/-- The position of the first link that the advisor at the index contributes: behind the link that
publishes the call, if there is one, and the links of the advisors before. -/
def blockStart (p : Proxy σ) (v : Verdicts) (index : Nat) : Nat :=
  (if p.config.exposeInvocation then 1 else 0) + ((p.blocks v).take index).flatten.length

/-- How many links the advisor at the index contributes. -/
def blockSize (p : Proxy σ) (v : Verdicts) (index : Nat) : Nat :=
  ((p.blocks v)[index]?.getD []).length

variable {p : Proxy σ} {v : Verdicts} {method : Method} {targetClass : Option Class} {s : σ}
  {chain : Chain σ}

theorem chainFor_links (hchain : (p.chainFor method targetClass s).result = .ok (.ok chain))
    (hagree : v.Agrees (answers (p.chainFor method targetClass s).written)) :
    chain.links = (if p.config.exposeInvocation then [exposingLink] else []) ++ (p.blocks v).flatten := by
  obtain ⟨resolved, hresolved, hrest, hwritten⟩ := Consultation.andThen_ok hchain
  cases resolved with
  | error e => cases hrest
  | ok found =>
    obtain ⟨hvisit, hgiven⟩ := Registry.resolve_ok hresolved
    have hagree' : v.Agrees (answers (Resolution.visit p.registry
        (.of method targetClass p.config.preFiltered) p.advisors none 0 [] p.advisors s).written) := by
      rw [← hgiven]
      intro a ha
      refine hagree a ?_
      rw [chainFor, hwritten, answers_append]
      exact List.mem_append_left _ ha
    have hlinks : found.links = (p.blocks v).flatten :=
      Resolution.visit_links v (fun _ hhas => by cases hhas) hvisit hagree'
    cases hrest
    rw [← hlinks]
    cases p.config.exposeInvocation <;> rfl

theorem blocks_getElem? {index : Nat} {advisor : Advisor σ} (h : p.advisors[index]? = some advisor) :
    (p.blocks v)[index]? =
      some (if v.contributes p.config.preFiltered (v.introduced p.advisors) index advisor
        then p.registry.block advisor else []) := by
  rw [blocks, List.getElem?_map, List.getElem?_zipIdx, h, Nat.zero_add]
  rfl

/-- The links of an advisor with an argument predicate carry that predicate. -/
theorem chainFor_block (hchain : (p.chainFor method targetClass s).result = .ok (.ok chain))
    (hagree : v.Agrees (answers (p.chainFor method targetClass s).written)) {index : Nat}
    {classFilter : ClassFilter σ} {filter : MethodFilter σ} {accepts : ArgumentPredicate σ}
    {advice : Advice σ}
    (hadvisor : p.advisors[index]? = some (.conditional ⟨classFilter, .dynamic filter accepts⟩ advice))
    {position : Nat} (hwithin : Within (p.blockStart v index) (p.blockSize v index) position) :
    ∃ interceptor, chain.links[position]? = some (.dynamic interceptor accepts) := by
  have hcarry : ∀ block, (p.blocks v)[index]? = some block →
      ∀ link ∈ block, ∃ interceptor, link = .dynamic interceptor accepts := by
    rw [blocks_getElem? hadvisor]
    rintro _ ⟨⟩ link hlink
    split at hlink
    · obtain ⟨interceptor, _, rfl⟩ := List.mem_map.mp hlink
      exact ⟨interceptor, rfl⟩
    · cases hlink
  obtain ⟨block, hblock⟩ : ∃ block, (p.blocks v)[index]? = some block := ⟨_, blocks_getElem? hadvisor⟩
  have hin : index < (p.blocks v).length := (List.getElem?_eq_some_iff.mp hblock).1
  have hcut : (p.blocks v).flatten = ((p.blocks v).take index).flatten ++
      (block ++ ((p.blocks v).drop (index + 1)).flatten) := by
    conv_lhs => rw [← List.take_append_drop index (p.blocks v), List.drop_eq_getElem_cons hin]
    rw [List.flatten_append, List.flatten_cons, (List.getElem?_eq_some_iff.mp hblock).2]
  have hlinks := p.chainFor_links hchain hagree
  rw [hcut, ← List.append_assoc] at hlinks
  obtain ⟨hfrom, hto⟩ := hwithin
  rw [blockStart] at hfrom hto
  rw [blockSize, hblock, Option.getD_some] at hto
  let before := (if p.config.exposeInvocation then [exposingLink] else []) ++
    ((p.blocks v).take index).flatten
  have hbefore : before.length =
      (if p.config.exposeInvocation then 1 else 0) + ((p.blocks v).take index).flatten.length := by
    rw [List.length_append]
    cases p.config.exposeInvocation <;> rfl
  have hoffset : position - before.length < block.length := by omega
  obtain ⟨interceptor, hlink⟩ := hcarry block hblock _ (List.getElem_mem hoffset)
  refine ⟨interceptor, ?_⟩
  rw [hlinks, List.getElem?_append_right (hbefore ▸ hfrom), List.getElem?_append_left hoffset,
    List.getElem?_eq_getElem hoffset, hlink]

/-! ### Calls -/

section Calls

variable (p : Proxy σ) (directory : Directory σ) (depth : Nat) (request : Request) (target : Target σ)
  (w : World σ)

/-- What is done to cursors in a call through the proxy. -/
def course : Course σ :=
  (Account.call directory (Engine.accounts directory depth) p request target).course w

/-- The world in which a call through the proxy ends. -/
def ended : World σ := (Engine.call directory (Engine.ofDepth directory depth) p request target w).2

theorem unfolds_course : w.Unfolds directory (p.course directory depth request target w)
    (p.ended directory depth request target w) := by
  rw [ended, ← Account.run_call (Engine.run_accounts directory depth) p request target]
  exact Account.unfolding_call (Engine.unfolding_accounts directory depth) p request target w

/-- The world in which the chain for a call has been looked for. -/
def resolved : World σ := (w.consult (p.chainFor request.method request.targetClass)).2

/-- The world in which a call that is to pass the chain has been given its invocation. -/
def begun (chain : Chain σ) : World σ := ((p.resolved request w).start request chain target).2

theorem stroke_resolved : w.Stroke (p.resolved request w) := w.stroke_consult (p.aside_chainFor _ _)

theorem size_begun (chain : Chain σ) :
    (p.begun request target w chain).invocations.size = w.invocations.size + 1 :=
  Array.size_push _

theorem invocation_begun (chain : Chain σ) :
    (p.begun request target w chain).invocation ⟨w.invocations.size⟩ =
      .start ⟨w.calls⟩ request chain target :=
  ({ p.resolved request w with calls := w.calls + 1 } : World σ).invocation_push _

/-- A call that passes a chain begins with an invocation of its own. -/
theorem course_eq
    (hchain : (p.chainFor request.method request.targetClass w.state).result = .ok (.ok chain))
    (hlinks : chain.isEmpty = false) :
    p.course directory depth request target w =
      (.other, p.resolved request w) ::
        (.started ⟨w.invocations.size⟩, p.begun request target w chain) ::
        (Engine.accounts directory depth (.proceed ⟨w.invocations.size⟩)).course
          (p.begun request target w chain) := by
  have hresolved : w.consult (p.chainFor request.method request.targetClass) =
      (.ok (.ok chain), p.resolved request w) := Prod.ext hchain rfl
  simp only [course, Account.course, Account.call, Account.inquire, hresolved, hlinks]
  rfl

/-- The invocation of a call then travels. -/
theorem travels_call
    (hchain : (p.chainFor request.method request.targetClass w.state).result = .ok (.ok chain))
    (hlinks : chain.isEmpty = false) :
    let r : Ref := ⟨w.invocations.size⟩
    let c := p.course directory depth request target w
    ∃ begun : World σ, begun.Travels (p.ended directory depth request target w) r (c.advances r) ∧
      begun.marks r = w.marks r ∧
      begun.invocation r = .start ⟨w.calls⟩ request chain target := by
  intro r c
  have hleads : w.Leads c _ := (p.unfolds_course directory depth request target w).leads
  rw [show c = _ from p.course_eq directory depth request target w hchain hlinks] at hleads ⊢
  cases hleads with
  | cons _ hleads =>
    cases hleads with
    | cons _ hleads =>
      have hbegun := p.invocation_begun request target w chain
      refine ⟨p.begun request target w chain, ?_, (p.stroke_resolved request w).marks r, hbegun⟩
      have hr : r.index < (p.begun request target w chain).invocations.size :=
        p.size_begun request target w chain ▸ Nat.lt_succ_self _
      exact hleads.travels hr (hbegun ▸ Nat.zero_le _)

end Calls

variable {directory : Directory σ} {depth : Nat} {request : Request} {target : Target σ} {w : World σ}

/-- The poll of the links that an advisor with an argument predicate contributes. -/
theorem follows_poll
    (hchain : (p.chainFor request.method request.targetClass w.state).result = .ok (.ok chain))
    (hagree : v.Agrees (answers (p.chainFor request.method request.targetClass w.state).written))
    {index : Nat} {classFilter : ClassFilter σ} {filter : MethodFilter σ} {accepts : ArgumentPredicate σ}
    {advice : Advice σ}
    (hadvisor : p.advisors[index]? = some (.conditional ⟨classFilter, .dynamic filter accepts⟩ advice))
    (hforks : ⟨w.invocations.size⟩ ∉ (p.course directory depth request target w).forked) :
    let r : Ref := ⟨w.invocations.size⟩
    let w' := p.ended directory depth request target w
    let first := p.blockStart v index
    let count := p.blockSize v index
    ((p.course directory depth request target w).poll w w' r first count).Follows
      (accepts request.method request.actualClass) first count (w'.invocation r).entered := by
  intro r w' first count
  cases hlinks : chain.isEmpty with
  | true =>
    have hnone : count = 0 := by
      by_contra hsome
      have hwithin : Within first count first := ⟨Nat.le_refl _, by omega⟩
      obtain ⟨interceptor, hlink⟩ := chainFor_block hchain hagree hadvisor hwithin
      rw [List.isEmpty_iff.mp hlinks] at hlink
      cases hlink
    rw [hnone]
    exact Course.follows_poll_zero _ _ _ _ _ _ _
  | false =>
    obtain ⟨begun, htravels, hmarks, hbegun⟩ :=
      p.travels_call directory depth request target w hchain hlinks
    have hstart : (begun.invocation r).entered = 0 := by
      rw [hbegun]
      rfl
    have hcarry : ∀ position, Within first count position → ∃ interceptor,
        (begun.invocation r).chain.links[position]? = some (.dynamic interceptor accepts) := by
      rw [hbegun]
      exact fun _ => chainFor_block hchain hagree hadvisor
    have hpolls := htravels.polls hstart hcarry
    have hsince : w.marksSince w' r =
        ((p.course directory depth request target w).advances r).flatMap (·.1.marks) := by
      rw [World.marksSince, htravels.told, hmarks, List.drop_left]
    rw [Course.poll, Course.kinOf_of_not_forked hforks, List.flatMap_singleton, List.flatMap_singleton,
      List.flatMap_singleton, hsince]
    rw [hbegun] at hpolls
    exact hpolls

/-- **How often an advisor's argument predicate is asked.** In a call of which no advice makes a fork,
the predicate is asked once at each link of the advisor that the call comes to, about the arguments that
the call has there. So it is asked at most once if and only if the advisor contributes no second link, or
the call does not come to it; and where the call comes past the links of the advisor, all of its
interceptors are run or none if and only if all of the answers let the call in or none does. -/
theorem asked_once_iff
    (hchain : (p.chainFor request.method request.targetClass w.state).result = .ok (.ok chain))
    (hagree : v.Agrees (answers (p.chainFor request.method request.targetClass w.state).written))
    {index : Nat} {classFilter : ClassFilter σ} {filter : MethodFilter σ} {accepts : ArgumentPredicate σ}
    {advice : Advice σ}
    (hadvisor : p.advisors[index]? = some (.conditional ⟨classFilter, .dynamic filter accepts⟩ advice))
    (hforks : ⟨w.invocations.size⟩ ∉ (p.course directory depth request target w).forked) :
    let r : Ref := ⟨w.invocations.size⟩
    let w' := p.ended directory depth request target w
    let first := p.blockStart v index
    let count := p.blockSize v index
    let entered := (w'.invocation r).entered
    let poll := (p.course directory depth request target w).poll w w' r first count
    poll.Follows (accepts request.method request.actualClass) first count entered ∧
      (poll.asked.length ≤ 1 ↔ count ≤ 1 ∨ entered ≤ first + 1) ∧
      (first + count ≤ entered →
        ((poll.ran = [] ∨ ∀ position, Within first count position → position ∈ poll.ran) ↔
          ((∀ answer ∈ poll.answers, answer.verdict ≠ some (.ok true)) ∨
            ∀ answer ∈ poll.answers, answer.verdict = some (.ok true)))) := by
  intro r w' first count entered poll
  have hfollows : poll.Follows _ first count entered := follows_poll hchain hagree hadvisor hforks
  exact ⟨hfollows, hfollows.length_le_one_iff, hfollows.together_iff⟩

end Proxy

/-! ### Advice that two adapters support -/

/-- An adapter for audit advice, all of which it turns into the same interceptor. -/
def auditor (serial : Nat) (body : Ref → Program Unit Outcome) : Adapter Unit where
  supports
    | .extension type _ => type == "audit"
    | _ => false
  interceptor? _ := some ⟨some serial, .around body⟩

/-- Accepts calls with an amount other than `0`. -/
def charges : ArgumentPredicate Unit := fun _ _ arguments => pure (arguments != [.int32 0])

/-- Audits such calls with two interceptors, the first of which clears the amount. Both go on. -/
def clearing : Proxy Unit where
  config := { exposeInvocation := true }
  registry := .register
    (.register .empty (auditor 0 fun r => do
      Program.perform (.setArguments r [.int32 0])
      Program.proceed r))
    (auditor 1 Program.proceed)
  advisors := [.conditional { methodMatcher := .dynamic .any charges } (.extension "audit" .unit)]

/-- A call with the amount `1`. -/
def charging : Request := { this := .unit, method := default, arguments := [.int32 1] }

/-- A target that does nothing. -/
def charged : Target Unit := fun _ _ _ => pure (.ok .unit)

/-- What is done to cursors in that call. -/
def chargedCourse : Course Unit := clearing.course (fun _ => none) 5 charging charged { state := () }

/-- The world in which it ends. -/
def chargedWorld : World Unit := clearing.ended (fun _ => none) 5 charging charged { state := () }

theorem asked_once_clearing :
    let first := clearing.blockStart (fun _ => true) 0
    let count := clearing.blockSize (fun _ => true) 0
    let poll := chargedCourse.poll { state := () } chargedWorld ⟨0⟩ first count
    (∃ chain, (clearing.chainFor charging.method charging.targetClass ()).result = .ok (.ok chain)) ∧
      ⟨0⟩ ∉ chargedCourse.forked ∧
      poll.Follows (charges charging.method charging.actualClass) first count
        (chargedWorld.invocation ⟨0⟩).entered ∧
      ¬poll.asked.length ≤ 1 := by
  intro first count poll
  obtain ⟨chain, hchain⟩ : ∃ chain,
      (clearing.chainFor charging.method charging.targetClass ()).result = .ok (.ok chain) := ⟨_, rfl⟩
  have hagree : Verdicts.Agrees (fun _ => true)
      (answers (clearing.chainFor charging.method charging.targetClass ()).written) := by
    unfold Verdicts.Agrees
    decide
  have hforks : ⟨0⟩ ∉ chargedCourse.forked := by decide +kernel
  have hsecond : ¬(count ≤ 1 ∨ (chargedWorld.invocation ⟨0⟩).entered ≤ first + 1) := by decide +kernel
  have hadvisor : clearing.advisors[0]? =
    some (.conditional ⟨.any, .dynamic .any charges⟩ (.extension "audit" .unit)) := rfl
  obtain ⟨hfollows, honce, -⟩ := Proxy.asked_once_iff hchain hagree hadvisor hforks
  exact ⟨⟨chain, hchain⟩, hforks, hfollows, fun h => hsecond (honce.mp h)⟩

/-- Both interceptors go on, and only the first of them is run. -/
theorem asked_twice_clearing :
    let first := clearing.blockStart (fun _ => true) 0
    let count := clearing.blockSize (fun _ => true) 0
    let poll := chargedCourse.poll { state := () } chargedWorld ⟨0⟩ first count
    ⟨0⟩ ∉ chargedCourse.forked ∧
      (chargedCourse.advances ⟨0⟩).map (·.1.positions) = [[0], [1], [2]] ∧
      poll.asked = [1, 2] ∧ poll.ran = [1] ∧
      ¬(poll.ran = [] ∨ ∀ position, Within first count position → position ∈ poll.ran) := by
  intro first count poll
  have hran : poll.ran = [1] := by decide +kernel
  refine ⟨by decide +kernel, by decide +kernel, by decide +kernel, hran, ?_⟩
  have hsecond : Within first count 2 ∧ 2 ∉ [1] := by decide +kernel
  rw [hran]
  rintro (hnone | hall)
  · cases hnone
  · exact hsecond.2 (hall 2 hsecond.1)

end Interception
