import Interception.Proofs.Unfolding

/-! Cursors. An advance moves the cursor of its invocation over the links ahead, one after another, until it
is let into one of them, an argument predicate unwinds, or no link is left; nothing else moves a cursor.
So whatever the advice of a chain does, with an invocation and with forks of it, each link is visited at
most once by each of them, in order, and the target is run at the end of the chain alone. -/

namespace Interception

variable {σ α : Type}

/-! ### Walking over links -/

/-- What a walk over links can come to, for a call with the method, the class and the arguments: the
visits on the way, and the arrival, unless it comes to the end of the links. -/
inductive Walk (method : Method) (targetClass : Class) (arguments : List Value) :
    Nat → List (Link σ) → List Visit → Option Arrival → Prop where
  | done {position : Nat} : Walk method targetClass arguments position [] [] none
  | plain {position : Nat} {interceptor : Interceptor σ} {rest : List (Link σ)} :
    Walk method targetClass arguments position (.plain interceptor :: rest)
      [⟨position, arguments, none⟩] (some (.entered position (some position)))
  | admitted {position : Nat} {interceptor : Interceptor σ} {accepts : ArgumentPredicate σ}
    {rest : List (Link σ)} (s : σ) (h : (accepts method targetClass arguments s).result = .ok true) :
    Walk method targetClass arguments position (.dynamic interceptor accepts :: rest)
      [⟨position, arguments, some (.ok true)⟩] (some (.entered position (some position)))
  | unwound {position : Nat} {interceptor : Interceptor σ} {accepts : ArgumentPredicate σ}
    {rest : List (Link σ)} (s : σ) (panic : Panic)
    (h : (accepts method targetClass arguments s).result = .error panic) :
    Walk method targetClass arguments position (.dynamic interceptor accepts :: rest)
      [⟨position, arguments, some (.error panic)⟩] (some (.unwound panic))
  | skipped {position : Nat} {interceptor : Interceptor σ} {accepts : ArgumentPredicate σ}
    {rest : List (Link σ)} {visits : List Visit} {arrival : Option Arrival} (s : σ)
    (h : (accepts method targetClass arguments s).result = .ok false)
    (later : Walk method targetClass arguments (position + 1) rest visits arrival) :
    Walk method targetClass arguments position (.dynamic interceptor accepts :: rest)
      (⟨position, arguments, some (.ok false)⟩ :: visits) arrival

namespace World

variable {w : World σ} {r : Ref}

theorem stepOver_self (hr : r.index < w.invocations.size) :
    (w.stepOver r).invocation r = { w.invocation r with entered := (w.invocation r).entered + 1 } :=
  invocation_update_self hr _

theorem stepOver_position (hr : r.index < w.invocations.size) :
    ((w.stepOver r).invocation r).position = some (w.invocation r).entered := by
  rw [stepOver_self hr]
  rfl

theorem invocations_visit (w : World σ) (r : Ref) (position : Nat) (link : Link σ) :
    (w.visit r position link).2.2.invocations = (w.stepOver r).invocations := by
  cases link with
  | plain interceptor => rfl
  | dynamic interceptor accepts =>
    have hask : ((w.stepOver r).ask r position accepts).2.invocations = (w.stepOver r).invocations := rfl
    rw [visit]
    rcases hreply : (w.stepOver r).ask r position accepts with ⟨_ | _ | _, v⟩ <;> rw [hreply] at hask <;>
      exact hask

theorem invocation_visit (w : World σ) (r : Ref) (position : Nat) (link : Link σ) (s : Ref) :
    (w.visit r position link).2.2.invocation s = (w.stepOver r).invocation s :=
  congrArg (·.getD s.index default) (w.invocations_visit r position link)

/-- What every visit to a link keeps, a walk over links keeps. -/
theorem keeps_through {P : World σ → Prop} {r : Ref}
    (hvisit : ∀ (w : World σ) position link, P w → P (w.visit r position link).2.2)
    (links : List (Link σ)) : ∀ (position : Nat) (w : World σ),
      P w → P (w.through r position links).2.2 := by
  induction links with
  | nil => exact fun _ _ hw => hw
  | cons link rest ih =>
    intro position w hw
    have hthen := hvisit w position link hw
    rw [through]
    rcases hrun : w.visit r position link with ⟨visit, _ | stop, v⟩ <;> rw [hrun] at hthen
    · exact ih _ v hthen
    · exact hthen

theorem size_through (w : World σ) (r : Ref) (position : Nat) (links : List (Link σ)) :
    (w.through r position links).2.2.invocations.size = w.invocations.size := by
  refine keeps_through (P := fun v => v.invocations.size = w.invocations.size) ?_ links position w rfl
  intro v position link hv
  rw [invocations_visit]
  exact (size_update _ _ _).trans hv

theorem others_through (w : World σ) {r s : Ref} (hne : r ≠ s) (position : Nat) (links : List (Link σ)) :
    (w.through r position links).2.2.invocation s = w.invocation s := by
  refine keeps_through (P := fun v => v.invocation s = w.invocation s) ?_ links position w rfl
  intro v position link hv
  rw [invocation_visit]
  exact (invocation_update_of_ne hne _).trans hv

/-- What an invocation walks over from where it stands, and where it then stands. -/
theorem walk_through (r : Ref) (links : List (Link σ)) : ∀ (w : World σ) (i : Invocation σ),
    r.index < w.invocations.size → w.invocation r = i →
      let (visits, stop, v) := w.through r i.entered links
      Walk i.method i.targetClass i.arguments i.entered links visits (stop.map Stop.arrival) ∧
        v.invocation r = { i with entered := i.entered + visits.length } := by
  induction links with
  | nil => exact fun w i _ hi => ⟨.done, hi⟩
  | cons link rest ih =>
    intro w i hr hi
    have hstep : (w.stepOver r).invocation r = { i with entered := i.entered + 1 } := hi ▸ stepOver_self hr
    have hposition : ((w.stepOver r).invocation r).position = some i.entered := by
      rw [hstep]
      rfl
    have harguments : ((w.stepOver r).invocation r).arguments = i.arguments := by rw [hstep]
    cases link with
    | plain interceptor =>
      simp only [through, visit, Option.map, Stop.arrival, hposition, harguments]
      exact ⟨.plain, hstep⟩
    | dynamic interceptor accepts =>
      have hverdict : ((w.stepOver r).ask r i.entered accepts).1 =
          (accepts i.method i.targetClass i.arguments w.state).result := by
        rw [ask, hstep]
        rfl
      have hasked : ((w.stepOver r).ask r i.entered accepts).2.invocations =
        (w.stepOver r).invocations := rfl
      have hthen : ((w.stepOver r).ask r i.entered accepts).2.invocation r =
        (w.stepOver r).invocation r := rfl
      simp only [through, visit, harguments]
      generalize (w.stepOver r).ask r i.entered accepts = asked at hverdict hasked hthen
      obtain ⟨verdict, v⟩ := asked
      replace hthen : v.invocation r = { i with entered := i.entered + 1 } := hthen.trans hstep
      cases verdict with
      | error panic =>
        exact ⟨.unwound w.state panic hverdict.symm, hthen⟩
      | ok admitted =>
        cases admitted with
        | true =>
          have hcurrent : (v.invocation r).position = some i.entered := by
            rw [hthen]
            rfl
          simp only [Option.map, Stop.arrival, hcurrent]
          exact ⟨.admitted w.state hverdict.symm, hthen⟩
        | false =>
          -- the walk goes on over the rest, with the cursor one further
          have hsize : (v.skip r i.entered).invocations.size = w.invocations.size :=
            (congrArg Array.size hasked).trans (size_update _ _ _)
          obtain ⟨hwalk, hlast⟩ := ih (v.skip r i.entered) _ (hsize ▸ hr) hthen
          refine ⟨.skipped w.state hverdict.symm hwalk, hlast.trans ?_⟩
          simp only [List.length_cons, Nat.add_assoc, Nat.add_comm 1]

/-! ### What the journal tells of a walk -/

theorem marks_ask (w : World σ) (r : Ref) (position : Nat) (accepts : ArgumentPredicate σ) (s : Ref) :
    (w.ask r position accepts).2.marks s =
      w.marks s ++ marksFor r s [.matching position (w.invocation r).arguments] :=
  ((steady_consult _ (Inquiry.writes_consult _ fun _ => rfl)).marks s).trans (w.marks_record_mark rfl s)

theorem marks_enter (w : World σ) (r : Ref) (position : Nat) (event : Event) (s : Ref) :
    (w.enter r position event).marks s =
      w.marks s ++ marksFor r s [.entered position (w.invocation r).position] := by
  rw [enter, marks_record_mark _ rfl, (steady_entry w rfl).marks]

theorem marks_skip (w : World σ) (r : Ref) (position : Nat) (s : Ref) :
    (w.skip r position).marks s = w.marks s ++ marksFor r s [.skipped position] := by
  rw [skip, marks_record_mark _ rfl, (steady_entry w rfl).marks]

theorem marks_reach (w : World σ) (r s : Ref) :
    (w.reach r).marks s = w.marks s ++ marksFor r s [.reached] := by
  rw [reach, marks_record_mark _ rfl, (steady_entry w rfl).marks]

theorem marks_visit (w : World σ) (r : Ref) (position : Nat) (link : Link σ) (s : Ref) :
    let (visit, stop, v) := w.visit r position link
    v.marks s = w.marks s ++ marksFor r s (visit.marks ++ stop.elim [] (·.arrival.marks)) := by
  have hstep : (w.stepOver r).marks s = w.marks s := rfl
  cases link with
  | plain interceptor => exact marks_enter _ _ _ _ _
  | dynamic interceptor accepts =>
    have hasked := marks_ask (w.stepOver r) r position accepts s
    rw [hstep] at hasked
    simp only [visit]
    generalize (w.stepOver r).ask r position accepts = asked at hasked
    obtain ⟨verdict, v⟩ := asked
    cases verdict with
    | error panic => exact hasked.trans (by simp [Visit.marks, Stop.arrival, Arrival.marks])
    | ok admitted =>
      cases admitted with
      | true => exact (marks_enter _ _ _ _ _).trans (by rw [hasked, List.append_assoc, marksFor_append]; rfl)
      | false => exact (marks_skip _ _ _ _).trans (by rw [hasked, List.append_assoc, marksFor_append]; rfl)

theorem marks_through (r : Ref) (links : List (Link σ)) (s : Ref) : ∀ (position : Nat) (w : World σ),
    let (visits, stop, v) := w.through r position links
    v.marks s = w.marks s ++
      marksFor r s (visits.flatMap Visit.marks ++ stop.elim [] (·.arrival.marks)) := by
  induction links with
  | nil =>
    intro _ w
    change w.marks s = _
    simp [marksFor]
  | cons link rest ih =>
    intro position w
    have hvisit := w.marks_visit r position link s
    rw [through]
    generalize w.visit r position link = visited at hvisit ⊢
    obtain ⟨visit, _ | stop, v⟩ := visited
    · refine (ih _ v).trans ?_
      rw [hvisit, List.append_assoc, marksFor_append]
      simp [List.flatMap_cons]
    · simpa [List.flatMap_cons] using hvisit

theorem marks_advance (w : World σ) (r s : Ref) :
    let (visits, stop, v) := w.advance r
    v.marks s = w.marks s ++ marksFor r s (Advance.marks ⟨visits, stop.arrival⟩) := by
  let told : World σ := w.record [.occurrence (.proceeding r)]
  have hproceeding : told.marks s = w.marks s ++ marksFor r s [.proceeding] := w.marks_record_mark rfl s
  have hthrough := marks_through r (w.invocation r).ahead s (w.invocation r).entered told
  rw [hproceeding] at hthrough
  rw [advance_eq]
  generalize told.through r (w.invocation r).entered (w.invocation r).ahead = walked at hthrough
  obtain ⟨visits, _ | stop, v⟩ := walked
  · refine (marks_reach v r s).trans ?_
    rw [hthrough, List.append_assoc, marksFor_append, List.append_assoc, marksFor_append]
    simp [Advance.marks, Stop.arrival, Arrival.marks]
  · refine hthrough.trans ?_
    rw [List.append_assoc, marksFor_append]
    rfl

end World

/-! ### What a walk has come to -/

/-- The link is let pass, or there is nothing to ask. -/
def Visit.Admits (v : Visit) : Prop := v.verdict = none ∨ v.verdict = some (.ok true)

/-- The visit is one to the link that stands at its position: an interceptor that is run whenever it is
reached is asked nothing, and of a dynamic one the predicate answered on the arguments. -/
def Visit.Fits (i : Invocation σ) (v : Visit) : Prop :=
  match i.chain.links[v.position]? with
  | none => False
  | some (.plain _) => v.verdict = none
  | some (.dynamic _ accepts) =>
    ∃ s, v.verdict = some (accepts i.method i.targetClass i.arguments s).result

/-- The positions of the links that are visited. -/
def Advance.positions (a : Advance) : List Nat := a.visits.map Visit.position

/-- What arriving after a visit means. -/
def Visit.Arrives (v : Visit) (arrival : Arrival) : Prop :=
  v.Admits ∧ arrival = .entered v.position (some v.position) ∨
    ∃ panic, v.verdict = some (.error panic) ∧ arrival = .unwound panic

namespace Walk

variable {method : Method} {targetClass : Class} {arguments : List Value} {position : Nat}
  {links : List (Link σ)} {visits : List Visit} {arrival : Option Arrival}

theorem positions (h : Walk method targetClass arguments position links visits arrival) :
    visits.map Visit.position = List.range' position visits.length := by
  induction h with
  | skipped s hs later ih => rw [List.map_cons, ih, List.length_cons, List.range'_succ]
  | _ => rfl

theorem length_le (h : Walk method targetClass arguments position links visits arrival) :
    visits.length ≤ links.length := by
  induction h with
  | done => exact Nat.le_refl _
  | skipped s hs later ih => exact Nat.succ_le_succ ih
  | _ => exact Nat.succ_le_succ (Nat.zero_le _)

/-- All links visited but the last pass the call on, and the last decides where the walk arrives. -/
theorem shape (h : Walk method targetClass arguments position links visits arrival) :
    (arrival = none ∧ visits.length = links.length ∧ ∀ v ∈ visits, v.verdict = some (.ok false)) ∨
      ∃ passed last a, visits = passed ++ [last] ∧ (∀ v ∈ passed, v.verdict = some (.ok false)) ∧
        arrival = some a ∧ last.Arrives a := by
  induction h with
  | done => exact .inl ⟨rfl, rfl, fun _ hv => absurd hv List.not_mem_nil⟩
  | plain => exact .inr ⟨[], _, _, rfl, fun _ hv => absurd hv List.not_mem_nil, rfl, .inl ⟨.inl rfl, rfl⟩⟩
  | admitted s hs =>
    exact .inr ⟨[], _, _, rfl, fun _ hv => absurd hv List.not_mem_nil, rfl, .inl ⟨.inr rfl, rfl⟩⟩
  | unwound s panic hs =>
    exact .inr ⟨[], _, _, rfl, fun _ hv => absurd hv List.not_mem_nil, rfl, .inr ⟨panic, rfl, rfl⟩⟩
  | @skipped here _ _ _ _ _ s hs later ih =>
    obtain ⟨hnone, hlength, hpassed⟩ | ⟨passed, last, a, hvisits, hpassed, harrival, hlast⟩ := ih
    · exact .inl ⟨hnone, congrArg Nat.succ hlength, List.forall_mem_cons.mpr ⟨rfl, hpassed⟩⟩
    · refine .inr ⟨⟨here, arguments, some (.ok false)⟩ :: passed, last, a, ?_,
        List.forall_mem_cons.mpr ⟨rfl, hpassed⟩, harrival, hlast⟩
      rw [hvisits, List.cons_append]

theorem fits {i : Invocation σ} (h : Walk i.method i.targetClass i.arguments position links visits arrival)
    (hlinks : i.chain.links.drop position = links) :
    ∀ v ∈ visits, v.Fits i ∧ v.arguments = i.arguments := by
  induction h with
  | done => exact fun v hv => absurd hv List.not_mem_nil
  | plain =>
    refine List.forall_mem_singleton.mpr ⟨?_, rfl⟩
    rw [Visit.Fits, getElem?_of_drop hlinks]
  | admitted s hs =>
    refine List.forall_mem_singleton.mpr ⟨?_, rfl⟩
    rw [Visit.Fits, getElem?_of_drop hlinks]
    exact ⟨s, congrArg some hs.symm⟩
  | unwound s panic hs =>
    refine List.forall_mem_singleton.mpr ⟨?_, rfl⟩
    rw [Visit.Fits, getElem?_of_drop hlinks]
    exact ⟨s, congrArg some hs.symm⟩
  | skipped s hs later ih =>
    refine List.forall_mem_cons.mpr ⟨⟨?_, rfl⟩, ih (drop_succ_of_drop hlinks)⟩
    rw [Visit.Fits, getElem?_of_drop hlinks]
    exact ⟨s, congrArg some hs.symm⟩

end Walk

/-! ### Advances -/

/-- Two invocations are on their way through the same chain for the same call, or one is the other at
another time. -/
def Invocation.SameRoute (i j : Invocation σ) : Prop :=
  j = { i with entered := j.entered, arguments := j.arguments, attachments := j.attachments,
               exposedAt := j.exposedAt }

namespace Invocation

variable {i j k : Invocation σ}

theorem SameRoute.trans (h : i.SameRoute j) (h' : j.SameRoute k) : i.SameRoute k := by
  rw [SameRoute, h', h]

theorem SameRoute.chain (h : i.SameRoute j) : j.chain = i.chain := by rw [h]

theorem SameRoute.call (h : i.SameRoute j) : j.call = i.call := by rw [h]

theorem SameRoute.method (h : i.SameRoute j) : j.method = i.method := by rw [h]

theorem SameRoute.targetClass (h : i.SameRoute j) : j.targetClass = i.targetClass := by rw [h]

theorem Stays.sameRoute (h : i.Stays j) : i.SameRoute j := by
  have hentered : j.entered = i.entered := by rw [h]
  rw [SameRoute, hentered]
  exact h

end Invocation

/-- What an advance has come to, after which the invocation is `k`. -/
structure Advance.Ends (a : Advance) (k : Invocation σ) : Prop where
  /-- Each link visited is asked about the arguments of the moment, if there is anything to ask. -/
  fits : ∀ v ∈ a.visits, v.Fits k ∧ v.arguments = k.arguments
  /-- The interceptor of a link visited is entered if and only if the link lets the call in. -/
  enters : ∀ v ∈ a.visits, a.arrival = .entered v.position (some v.position) ↔ v.Admits
  /-- An invocation that is let in tells of itself that it stands there, and it does. -/
  entered : ∀ position current, a.arrival = .entered position current →
    current = some position ∧ position ∈ a.positions ∧ k.entered = position + 1
  /-- The target is run at the end of the chain. -/
  reached : a.arrival = .reached → k.entered = k.chain.length
  /-- The advance unwinds if and only if a predicate does that it asks. -/
  unwinds : ∀ panic, a.arrival = .unwound panic ↔ ∃ v ∈ a.visits, v.verdict = some (.error panic)
  within : k.entered ≤ k.chain.length

theorem Visit.Admits.not_rejects {v : Visit} (h : v.Admits) : v.verdict ≠ some (.ok false) := by
  obtain h | h := h <;> rw [h] <;> nofun

theorem Visit.Admits.not_unwinds {v : Visit} (h : v.Admits) (panic : Panic) :
    v.verdict ≠ some (.error panic) := by
  obtain h | h := h <;> rw [h] <;> nofun

theorem Walk.last_position {method : Method} {targetClass : Class} {arguments : List Value}
    {position : Nat} {links : List (Link σ)} {passed : List Visit} {last : Visit}
    {arrival : Option Arrival}
    (h : Walk method targetClass arguments position links (passed ++ [last]) arrival) :
    last.position = position + passed.length ∧ ∀ v ∈ passed, v.position < last.position := by
  have hpositions := h.positions
  rw [List.map_append, List.length_append, List.length_singleton, List.range'_concat,
    Nat.one_mul] at hpositions
  obtain ⟨hpassed, hlast⟩ := List.append_inj' hpositions rfl
  have hposition : last.position = position + passed.length := List.singleton_inj.mp hlast
  refine ⟨hposition, fun v hv => ?_⟩
  have hmem : v.position ∈ List.range' position passed.length := hpassed ▸ List.mem_map_of_mem hv
  have hrange := List.mem_range'_1.mp hmem
  omega

theorem Walk.ends {k : Invocation σ} {position : Nat} {links : List (Link σ)} {visits : List Visit}
    {arrival : Option Arrival}
    (h : Walk k.method k.targetClass k.arguments position links visits arrival)
    (hlinks : k.chain.links.drop position = links) (hstart : position ≤ k.chain.length)
    (hthen : k.entered = position + visits.length) :
    Advance.Ends ⟨visits, arrival.getD .reached⟩ k := by
  have hlength : links.length + position = k.chain.length := by
    rw [← hlinks, List.length_drop]
    exact Nat.sub_add_cancel hstart
  have hwithin : k.entered ≤ k.chain.length := by
    have hvisits := h.length_le
    omega
  obtain ⟨rfl, hall, hpassed⟩ | ⟨passed, last, a, rfl, hpassed, rfl, hlast⟩ := h.shape
  · exact {
      fits := h.fits hlinks
      enters := fun v hv => ⟨nofun, fun hadmits => absurd (hpassed v hv) hadmits.not_rejects⟩
      entered := nofun
      reached := fun _ => by omega
      unwinds := fun panic => ⟨nofun, fun ⟨v, hv, herror⟩ => by cases (hpassed v hv).symm.trans herror⟩
      within := hwithin }
  obtain ⟨hposition, hbefore⟩ := h.last_position
  rw [List.length_append, List.length_singleton] at hthen
  have hmem : last ∈ passed ++ [last] := List.mem_append_right _ (List.mem_singleton_self _)
  have honly : ∀ v ∈ passed ++ [last], v.verdict ≠ some (.ok false) → v = last := by
    intro v hv hverdict
    obtain hv | hv := List.mem_append.mp hv
    · exact absurd (hpassed v hv) hverdict
    · exact List.mem_singleton.mp hv
  obtain ⟨hadmits, rfl⟩ | ⟨panic, herror, rfl⟩ := hlast
  · have henters : ∀ v ∈ passed ++ [last], v.position = last.position → v.Admits := by
      intro v hv heq
      obtain hv | hv := List.mem_append.mp hv
      · exact absurd heq (Nat.ne_of_lt (hbefore v hv))
      · exact List.mem_singleton.mp hv ▸ hadmits
    exact {
      fits := h.fits hlinks
      enters := fun v hv => ⟨fun heq => henters v hv (Arrival.entered.inj heq).1.symm,
        fun hadmits => by rw [honly v hv hadmits.not_rejects]; rfl⟩
      entered := by
        rintro p current ⟨⟩
        exact ⟨rfl, List.mem_map_of_mem hmem, by omega⟩
      reached := nofun
      unwinds := fun panic => ⟨nofun, fun ⟨v, hv, herror⟩ => by
        have hv : v = last := honly v hv fun h => by cases h.symm.trans herror
        exact absurd herror (hv ▸ hadmits.not_unwinds panic)⟩
      within := hwithin }
  · exact {
      fits := h.fits hlinks
      enters := fun v hv => ⟨nofun, fun hadmits =>
        absurd herror (honly v hv hadmits.not_rejects ▸ hadmits.not_unwinds panic)⟩
      entered := nofun
      reached := nofun
      unwinds := fun panic' => ⟨fun heq => Arrival.unwound.inj heq ▸ ⟨last, hmem, herror⟩,
        fun ⟨v, hv, herror'⟩ => by
          have hv : v = last := honly v hv fun h => by cases h.symm.trans herror'
          have heq := Option.some.inj (herror.symm.trans (hv ▸ herror'))
          exact congrArg Arrival.unwound (Except.error.inj heq)⟩
      within := hwithin }

namespace World

theorem size_advance (w : World σ) (r : Ref) :
    (w.advance r).2.2.invocations.size = w.invocations.size := by
  have hthrough := (w.record [.occurrence (.proceeding r)]).size_through r (w.invocation r).entered
    (w.invocation r).ahead
  rw [advance_eq]
  generalize World.through r (w.invocation r).entered (w.invocation r).ahead _ = walked at hthrough ⊢
  obtain ⟨visits, _ | stop, v⟩ := walked <;> exact hthrough

theorem others_advance (w : World σ) {r s : Ref} (hne : r ≠ s) :
    (w.advance r).2.2.invocation s = w.invocation s := by
  have hthrough := (w.record [.occurrence (.proceeding r)]).others_through hne (w.invocation r).entered
    (w.invocation r).ahead
  rw [advance_eq]
  generalize World.through r (w.invocation r).entered (w.invocation r).ahead _ = walked at hthrough ⊢
  obtain ⟨visits, _ | stop, v⟩ := walked <;> exact hthrough

theorem ends_advance (w : World σ) {r : Ref} {i : Invocation σ} (hr : r.index < w.invocations.size)
    (hi : w.invocation r = i) (hstart : i.entered ≤ i.chain.length) :
    let (visits, stop, v) := w.advance r
    v.invocation r = { i with entered := i.entered + visits.length } ∧
      visits.map Visit.position = List.range' i.entered visits.length ∧
      Advance.Ends ⟨visits, stop.arrival⟩ (v.invocation r) := by
  have hthrough := walk_through r i.ahead (w.record [.occurrence (.proceeding r)]) i hr hi
  rw [advance_eq, hi]
  generalize World.through r i.entered i.ahead _ = walked at hthrough ⊢
  obtain ⟨visits, stop, v⟩ := walked
  obtain ⟨hwalk, hthen⟩ := hthrough
  have hends : ∀ k : Invocation σ, k = { i with entered := i.entered + visits.length } →
      Advance.Ends ⟨visits, (stop.map Stop.arrival).getD .reached⟩ k := by
    rintro _ rfl
    exact Walk.ends hwalk rfl hstart rfl
  cases stop with
  | none => exact ⟨hthen, hwalk.positions, hends _ hthen⟩
  | some stop => exact ⟨hthen, hwalk.positions, hends _ hthen⟩

end World

/-! ### Travels -/

/-- The advances of one invocation, each with the invocation as it then is. -/
def Course.advances (r : Ref) (c : Course σ) : List (Advance × Invocation σ) :=
  c.filterMap fun
    | (.advanced s a, v) => if s = r then some (a, v.invocation r) else none
    | _ => none

/-- How an invocation travels from one world to a later one, by the advances that it makes in between. -/
structure World.Travels (v v' : World σ) (r : Ref) (advances : List (Advance × Invocation σ)) : Prop where
  route : (v.invocation r).SameRoute (v'.invocation r)
  /-- It never moves back. -/
  forward : (v.invocation r).entered ≤ (v'.invocation r).entered
  /-- It never moves beyond the end of the chain. -/
  within : (v'.invocation r).entered ≤ (v'.invocation r).chain.length
  /-- It visits the links in between, one after another and each of them once. -/
  order : advances.flatMap (·.1.positions) =
    List.range' (v.invocation r).entered ((v'.invocation r).entered - (v.invocation r).entered)
  ends : ∀ a ∈ advances, a.1.Ends a.2 ∧ (v.invocation r).SameRoute a.2
  /-- The journal tells the same. -/
  told : v'.marks r = v.marks r ++ advances.flatMap (·.1.marks)

namespace World

variable {v v' v'' w w' : World σ} {r : Ref} {advances later : List (Advance × Invocation σ)}

theorem travels_of_stays (hstays : (v.invocation r).Stays (v'.invocation r))
    (hmarks : v'.marks r = v.marks r)
    (hstart : (v.invocation r).entered ≤ (v.invocation r).chain.length) : v.Travels v' r [] := by
  have hentered : (v'.invocation r).entered = (v.invocation r).entered := by rw [hstays]
  have hchain : (v'.invocation r).chain = (v.invocation r).chain := by rw [hstays]
  exact {
    route := hstays.sameRoute
    forward := Nat.le_of_eq hentered.symm
    within := by rw [hentered, hchain]; exact hstart
    order := by rw [hentered, Nat.sub_self]; rfl
    ends := fun a ha => absurd ha List.not_mem_nil
    told := by rw [hmarks, List.flatMap_nil, List.append_nil] }

theorem Travels.trans (h : v.Travels v' r advances) (h' : v'.Travels v'' r later) :
    v.Travels v'' r (advances ++ later) where
  route := h.route.trans h'.route
  forward := Nat.le_trans h.forward h'.forward
  within := h'.within
  order := by
    have hforward := h.forward
    have hlater := h'.forward
    have hthere : (v'.invocation r).entered =
        (v.invocation r).entered + ((v'.invocation r).entered - (v.invocation r).entered) := by omega
    have hlength : (v''.invocation r).entered - (v.invocation r).entered =
        ((v'.invocation r).entered - (v.invocation r).entered) +
          ((v''.invocation r).entered - (v'.invocation r).entered) := by omega
    rw [List.flatMap_append, h.order, h'.order, hlength, ← List.range'_append_1, ← hthere]
  ends := List.forall_mem_append.mpr ⟨h.ends, fun a ha => ⟨(h'.ends a ha).1, h.route.trans (h'.ends a ha).2⟩⟩
  told := by rw [h'.told, h.told, List.flatMap_append, List.append_assoc]

theorem Moves.travels {move : Move} (h : w.Moves move w') (hr : r.index < w.invocations.size)
    (hstart : (w.invocation r).entered ≤ (w.invocation r).chain.length) :
    w.Travels w' r (Course.advances r [(move, w')]) := by
  cases h with
  | ended s => exact travels_of_stays rfl rfl hstart
  | forked s =>
    have hthen := invocation_push_of_lt hr (w.invocation s)
    exact travels_of_stays (by rw [hthen]; rfl) rfl hstart
  | started request chain target =>
    have hthen : (w.start request chain target).2.invocation r = w.invocation r :=
      invocation_push_of_lt (w := { w with calls := w.calls + 1 }) hr _
    exact travels_of_stays (by rw [hthen]; rfl) rfl hstart
  | other h => exact travels_of_stays (h.invocations r) (h.marks r) hstart
  | advanced s =>
    -- the one moment that moves a cursor, and only that of the invocation which advances
    have hmarks := w.marks_advance s r
    by_cases hs : s = r
    · subst hs
      have hadvance := w.ends_advance hr rfl hstart
      generalize w.advance s = advanced at hmarks hadvance ⊢
      obtain ⟨visits, stop, v⟩ := advanced
      obtain ⟨hthen, hpositions, hends⟩ := hadvance
      have hcourse : Course.advances s [(.advanced s ⟨visits, stop.arrival⟩, v)] =
          [(⟨visits, stop.arrival⟩, v.invocation s)] := by
        simp [Course.advances]
      have hroute : (w.invocation s).SameRoute (v.invocation s) := by
        rw [hthen]
        rfl
      rw [hcourse]
      exact {
        route := hroute
        forward := by rw [hthen]; exact Nat.le_add_right _ _
        within := hends.within
        order := by
          rw [hthen, Nat.add_sub_cancel_left, List.flatMap_singleton]
          exact hpositions
        ends := List.forall_mem_singleton.mpr ⟨hends, hroute⟩
        told := by
          rw [List.flatMap_singleton]
          simpa [marksFor] using hmarks }
    · have hothers := w.others_advance hs
      generalize w.advance s = advanced at hmarks hothers ⊢
      obtain ⟨visits, stop, v⟩ := advanced
      have hcourse : Course.advances r [(.advanced s ⟨visits, stop.arrival⟩, v)] = [] := by
        simp [Course.advances, hs]
      rw [hcourse]
      refine travels_of_stays ?_ ?_ hstart
      · rw [hothers]
        rfl
      · simpa [marksFor, hs] using hmarks

theorem Moves.size_le {move : Move} (h : w.Moves move w') : w.invocations.size ≤ w'.invocations.size := by
  cases h with
  | advanced s => exact Nat.le_of_eq (w.size_advance s).symm
  | ended s => exact Nat.le_refl _
  | forked s => exact Array.size_push _ ▸ Nat.le_succ _
  | started request chain target => exact Array.size_push _ ▸ Nat.le_succ _
  | other h => exact Nat.le_of_eq h.size.symm

theorem Leads.travels {c : Course σ} (h : w.Leads c w') (hr : r.index < w.invocations.size)
    (hstart : (w.invocation r).entered ≤ (w.invocation r).chain.length) :
    w.Travels w' r (c.advances r) := by
  induction h with
  | nil => exact travels_of_stays rfl rfl hstart
  | @cons w v w' move course first rest ih =>
    have hfirst := first.travels hr hstart
    have hrest := ih (Nat.lt_of_lt_of_le hr first.size_le) hfirst.within
    have hcons : Course.advances r ((move, v) :: course) =
        Course.advances r [(move, v)] ++ Course.advances r course :=
      List.filterMap_append (l := [(move, v)])
    rw [hcons]
    exact hfirst.trans hrest

end World

/-- Every invocation stands on its chain, or behind its last link. -/
def World.Placed (w : World σ) : Prop := ∀ r, (w.invocation r).entered ≤ (w.invocation r).chain.length

namespace World

variable {w w' : World σ} {c : Course σ}

theorem placed_push {i : Invocation σ} (hw : w.Placed) (hi : i.entered ≤ i.chain.length) :
    (w.push i).2.Placed := by
  intro r
  rw [invocation_push_eq]
  split
  · exact hi
  · exact hw r

theorem Moves.placed {move : Move} (h : w.Moves move w') (hw : w.Placed) : w'.Placed := by
  cases h with
  | ended s => exact hw
  | forked s => exact placed_push hw (hw s)
  | started request chain target => exact placed_push hw (Nat.zero_le _)
  | other h =>
    intro r
    rw [h.invocations r]
    exact hw r
  | advanced s =>
    intro r
    by_cases hr : r.index < w.invocations.size
    · exact ((World.Moves.advanced s).travels hr (hw r)).within
    · have hsize : (w.advance s).2.2.invocations.size ≤ r.index :=
        w.size_advance s ▸ Nat.le_of_not_lt hr
      rw [invocation_of_ge hsize]
      exact Nat.zero_le _

theorem Leads.placed (h : w.Leads c w') (hw : w.Placed) : w'.Placed := by
  induction h with
  | nil => exact hw
  | cons first _ ih => exact ih (first.placed hw)

/-- Wherever a session comes to, every invocation stands on its chain. -/
theorem Reachable.placed (h : w.Reachable) : w.Placed := by
  induction h with
  | initial state => exact fun _ => Nat.zero_le _
  | run _ directory depth p ih => exact (p.leads_course directory depth _).placed ih
  | resolve _ proxy method targetClass ih => exact ih
  | start _ request chain target ih => exact placed_push ih (Nat.zero_le _)
  | report _ e ih => exact ih

end World

/-! ### Counting -/

/-- The link, if the mark tells that its predicate is asked. -/
def Mark.asked? : Mark → Option Nat
  | .matching position _ => some position
  | _ => none

def Mark.isProceeding : Mark → Bool
  | .proceeding => true
  | _ => false

/-- An interceptor or the target is run. -/
def Mark.isArrival : Mark → Bool
  | .entered _ _ | .reached => true
  | _ => false

def Arrival.isUnwound : Arrival → Bool
  | .unwound _ => true
  | _ => false

/-- Predicates are asked at the links visited that have one, in their order. -/
theorem Advance.filterMap_asked (a : Advance) :
    a.marks.filterMap Mark.asked? = (a.visits.filter (·.verdict.isSome)).map Visit.position := by
  have hvisit : ∀ v : Visit, v.marks.filterMap Mark.asked? =
      ([v].filter (·.verdict.isSome)).map Visit.position := by
    rintro ⟨position, arguments, _ | _ | _ | _⟩ <;> rfl
  have hvisits : (a.visits.flatMap Visit.marks).filterMap Mark.asked? =
      (a.visits.filter (·.verdict.isSome)).map Visit.position := by
    induction a.visits with
    | nil => rfl
    | cons v rest ih =>
      rw [List.flatMap_cons, List.filterMap_append, hvisit, ih, ← List.map_append, ← List.filter_append,
        List.singleton_append]
  have harrival : a.arrival.marks.filterMap Mark.asked? = [] := by
    cases a.arrival <;> rfl
  rw [Advance.marks, List.filterMap_append, harrival, List.append_nil]
  exact hvisits

/-- Predicates are asked at links that are visited, in their order. -/
theorem Advance.asked_sublist (a : Advance) :
    (a.marks.filterMap Mark.asked?).Sublist a.positions := by
  rw [a.filterMap_asked]
  exact List.filter_sublist.map Visit.position

/-- Telling an invocation to advance comes to one arrival, unless a predicate unwinds. -/
theorem Advance.tally (a : Advance) :
    a.marks.countP Mark.isProceeding = 1 ∧
      a.marks.countP Mark.isArrival + (if a.arrival.isUnwound then 1 else 0) = 1 := by
  have hvisit : ∀ v : Visit, ∀ mark ∈ v.marks, mark.isProceeding = false ∧ mark.isArrival = false := by
    rintro ⟨position, arguments, _ | _ | _ | _⟩ <;>
      simp [Visit.marks, Mark.isProceeding, Mark.isArrival]
  have hvisits : ∀ mark ∈ a.visits.flatMap Visit.marks,
      mark.isProceeding = false ∧ mark.isArrival = false := by
    intro mark hmark
    obtain ⟨v, _, hv⟩ := List.mem_flatMap.mp hmark
    exact hvisit v mark hv
  have hproceeding : (a.visits.flatMap Visit.marks).countP Mark.isProceeding = 0 :=
    List.countP_eq_zero.mpr fun mark hmark => by simp [(hvisits mark hmark).1]
  have harrival : (a.visits.flatMap Visit.marks).countP Mark.isArrival = 0 :=
    List.countP_eq_zero.mpr fun mark hmark => by simp [(hvisits mark hmark).2]
  rw [Advance.marks, List.countP_append, List.countP_append, List.countP_cons, List.countP_cons,
    hproceeding, harrival]
  cases a.arrival <;> simp [Arrival.marks, Arrival.isUnwound, Mark.isProceeding, Mark.isArrival]

section Advances

variable (advances : List (Advance × Invocation σ))

theorem asked_sublist :
    ((advances.flatMap (·.1.marks)).filterMap Mark.asked?).Sublist (advances.flatMap (·.1.positions)) := by
  induction advances with
  | nil => exact .slnil
  | cons a rest ih =>
    rw [List.flatMap_cons, List.flatMap_cons, List.filterMap_append]
    exact a.1.asked_sublist.append ih

theorem tally :
    (advances.flatMap (·.1.marks)).countP Mark.isProceeding =
      (advances.flatMap (·.1.marks)).countP Mark.isArrival +
        advances.countP (·.1.arrival.isUnwound) := by
  induction advances with
  | nil => rfl
  | cons a rest ih =>
    obtain ⟨hproceeding, harrival⟩ := a.1.tally
    rw [List.flatMap_cons, List.countP_append, List.countP_append, List.countP_cons]
    omega

end Advances

/-- **Cursors advance in order.** On every stretch of every run, an invocation that is there at its
beginning, started or forked, travels as `World.Travels` and `Advance.Ends` say: it visits the links in
front of it one after another, each once and none beyond the end, and runs the interceptors of those
that let it in. Each predicate is asked at most once for it, and as often as it is told to advance, an
interceptor or the target is run, unless a predicate unwinds. -/
theorem Program.travels_course (p : Program σ α) (directory : Directory σ) (depth : Nat) (w : World σ)
    {before between later : Course σ}
    (hcourse : p.course directory depth w = before ++ between ++ later) {r : Ref}
    (hr : r.index < (w.after before).invocations.size)
    (hstart : ((w.after before).invocation r).entered ≤ ((w.after before).invocation r).chain.length) :
    let v := w.after before
    let v' := w.after (before ++ between)
    w.after (before ++ between ++ later) = (p.run directory (Engine.ofDepth directory depth) w).2 ∧
      v.Travels v' r (between.advances r) ∧
      ∃ gained, v'.marks r = v.marks r ++ gained ∧
        (gained.filterMap Mark.asked?).Sublist
          (List.range' (v.invocation r).entered
            ((v'.invocation r).entered - (v.invocation r).entered)) ∧
        gained.countP Mark.isProceeding =
          gained.countP Mark.isArrival + (between.advances r).countP (·.1.arrival.isUnwound) := by
  have hleads := p.leads_course directory depth w
  rw [hcourse] at hleads
  have hstretch : (w.after before).Leads between (w.after (before ++ between)) := by
    obtain ⟨hboth, _⟩ := hleads.cut
    obtain ⟨_, hbetween⟩ := hboth.cut
    exact hbetween
  have htravels := hstretch.travels hr hstart
  refine ⟨hleads.after, htravels, _, htravels.told, ?_, tally _⟩
  exact htravels.order ▸ asked_sublist _

/-! ### A call that is tried on a fork first -/

/-- Around advice that tries the call on a fork, and goes on with the call itself whatever that comes
to. -/
def rehearsing : Interceptor Unit where
  serial := some 0
  behaviour := .around fun r => do
    let copy ← Program.forkWith r [.int32 2]
    let _ ← Program.proceed copy
    Program.proceed r

/-- A chain whose second link lets in only calls with the argument `2`. -/
def rehearsed : Chain Unit where
  links := [.plain rehearsing, .dynamic rehearsing fun _ _ arguments => pure (arguments == [.int32 2])]

/-- The world in which a call on its way through that chain has just been started. -/
def rehearsal : World Unit :=
  (World.start { state := () } { this := .unit, method := default, arguments := [.int32 1] } rehearsed
    fun _ _ _ => pure (.ok .unit)).2

/-- Makes the call twice. -/
def repeating : Program Unit Outcome := do
  let _ ← Program.proceed ⟨0⟩
  Program.proceed ⟨0⟩

/-- What is done to cursors on the way. The first fork is made at the second moment. -/
def rehearsalCourse : Course Unit := repeating.course (fun _ => none) 6 rehearsal

theorem travels_course_rehearsed :
    let made := rehearsal.after (rehearsalCourse.take 2)
    let ended := rehearsal.after (rehearsalCourse.take 2 ++ rehearsalCourse.drop 2)
    let advances := Course.advances ⟨1⟩ (rehearsalCourse.drop 2)
    (1 < made.invocations.size ∧ (made.invocation ⟨1⟩).entered ≤ (made.invocation ⟨1⟩).chain.length) ∧
      made.Travels ended ⟨1⟩ advances ∧ advances.flatMap (·.1.positions) = [1] ∧ advances.length = 2 := by
  intro made ended advances
  have hcourse : rehearsalCourse = rehearsalCourse.take 2 ++ rehearsalCourse.drop 2 ++ [] := by
    rw [List.append_nil, List.take_append_drop]
  have hmade : 1 < made.invocations.size := by decide +kernel
  have hstart : (made.invocation ⟨1⟩).entered ≤ (made.invocation ⟨1⟩).chain.length := by decide +kernel
  exact ⟨⟨hmade, hstart⟩, (repeating.travels_course _ _ _ hcourse hmade hstart).2.1, by decide +kernel,
    by decide +kernel⟩

end Interception
