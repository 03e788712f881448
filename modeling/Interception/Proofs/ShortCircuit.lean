import Interception.Proofs.Cursor

/-! Short circuits. An interceptor that does not go on ends a call for all links behind it, as long as the
advice in front of it uses its cursors up: it works on the invocation that it is handed and on forks, and
leaves alone what was told to advance. Whoever forks first can try again as often as he likes. Only a
cursor that has passed the interceptor and is used once more gets by. -/

namespace Interception

variable {σ α : Type}

/-- An interceptor in front of the position is run. -/
def Arrival.isBefore (j : Nat) : Arrival → Bool
  | .entered position _ => position < j
  | _ => false

/-- The advance comes to no link behind the position, and not to the target. -/
structure Advance.StaysWithin (a : Advance) (j : Nat) : Prop where
  visits : ∀ position ∈ a.positions, position ≤ j
  entered : ∀ position current, a.arrival = .entered position current → position ≤ j
  reached : a.arrival ≠ .reached

/-- The invocations of a call that may be worked on after a moment, if those that may be before it are
`live`, and nothing at all if another one was worked on.

Telling an invocation to advance uses it up, except that it is handed on to an interceptor in front of
the position `j`, which may work on it until it ends. A fork may be worked on as long as it is not told to
advance itself. -/
def Moment.live? (call : CallId) (j : Nat) (live : List Ref) : Moment σ → Option (List Ref)
  | (.advanced r a, v) =>
    if (v.invocation r).call ≠ call then some live
    else if r ∈ live then some (if a.arrival.isBefore j then live else live.filter (· ≠ r))
    else none
  | (.ended r, _) => some (live.filter (· ≠ r))
  | (.forked original copy, v) =>
    if (v.invocation original).call ≠ call then some live
    else if original ∈ live then some (copy :: live)
    else none
  | (.started _, _) => some live
  | (.other, _) => some live

/-- Of the invocations of the call, only those are worked on that are not used up. -/
def Course.Careful (call : CallId) (j : Nat) (live : List Ref) (c : Course σ) : Prop :=
  (c.foldlM (Moment.live? call j) live).isSome

instance (call : CallId) (j : Nat) (live : List Ref) (c : Course σ) : Decidable (c.Careful call j live) :=
  inferInstanceAs (Decidable ((c.foldlM (Moment.live? call j) live).isSome = true))

/-- An advance that begins in front of an interceptor that is run whenever it is reached does not get
by it. -/
theorem Advance.Ends.stops {a : Advance} {k : Invocation σ} {start j : Nat} {interceptor : Interceptor σ}
    (hends : a.Ends k) (hpositions : a.positions = List.range' start (k.entered - start))
    (hstart : start ≤ j) (hlink : k.chain.links[j]? = some (.plain interceptor)) : a.StaysWithin j := by
  have hlength : j < k.chain.length := (List.getElem?_eq_some_iff.mp hlink).1
  have hbelow : ∀ position ∈ a.positions, position < k.entered := by
    intro position hposition
    have hrange := List.mem_range'_1.mp (hpositions ▸ hposition)
    omega
  by_cases hwithin : k.entered ≤ j
  · refine ⟨fun position hposition => ?_, fun position current h => ?_, fun h => ?_⟩
    · exact Nat.le_of_lt (Nat.lt_of_lt_of_le (hbelow position hposition) hwithin)
    · have hentered := (hends.entered position current h).2.2
      omega
    · have hreached := hends.reached h
      omega
  · have hmem : j ∈ a.positions := hpositions ▸ List.mem_range'_1.mpr ⟨hstart, by omega⟩
    obtain ⟨v, hv, rfl⟩ := List.mem_map.mp hmem
    have hfits := (hends.fits v hv).1
    rw [Visit.Fits, hlink] at hfits
    have harrival := (hends.enters v hv).mpr (.inl hfits)
    have hentered := (hends.entered _ _ harrival).2.2
    refine ⟨fun position hposition => ?_, fun position current h => ?_, fun h => ?_⟩
    · have hlt := hbelow position hposition
      omega
    · exact Nat.le_of_eq (Arrival.entered.inj (h.symm.trans harrival)).1
    · cases h.symm.trans harrival

namespace World

variable {w w' : World σ} {call : CallId} {chain : Chain σ} {j : Nat} {interceptor : Interceptor σ}
  {live : List Ref}

/-- An invocation of the call stands in front of the link. -/
structure Stands (w : World σ) (call : CallId) (chain : Chain σ) (j : Nat) (r : Ref) : Prop where
  exists_ : r.index < w.invocations.size
  call : (w.invocation r).call = call
  chain : (w.invocation r).chain = chain
  before : (w.invocation r).entered ≤ j

theorem Travels.stays {v v' : World σ} {r : Ref} (h : v.Travels v' r []) :
    (v'.invocation r).entered = (v.invocation r).entered := by
  have hlength := congrArg List.length h.order
  rw [List.flatMap_nil, List.length_range', List.length_nil] at hlength
  have hforward := h.forward
  omega

theorem Stands.travels {r : Ref} {move : Move} (h : w.Stands call chain j r)
    (hlink : chain.links[j]? = some (.plain interceptor)) (hmove : w.Moves move w') :
    w.Travels w' r (Course.advances r [(move, w')]) := by
  have hlength : j < chain.length := (List.getElem?_eq_some_iff.mp hlink).1
  refine hmove.travels h.exists_ ?_
  rw [h.chain]
  exact Nat.le_trans h.before (Nat.le_of_lt hlength)

theorem Stands.moves {r : Ref} {move : Move} (h : w.Stands call chain j r)
    (hlink : chain.links[j]? = some (.plain interceptor)) (hmove : w.Moves move w')
    (hbefore : (w'.invocation r).entered ≤ j) : w'.Stands call chain j r := by
  have hroute := (h.travels hlink hmove).route
  exact ⟨Nat.lt_of_lt_of_le h.exists_ hmove.size_le, by rw [hroute]; exact h.call,
    by rw [hroute]; exact h.chain, hbefore⟩

/-- Where the course makes no advance of it, the invocation keeps standing in front of the link. -/
theorem Stands.keeps {r : Ref} {move : Move} (h : w.Stands call chain j r)
    (hlink : chain.links[j]? = some (.plain interceptor)) (hmove : w.Moves move w')
    (hnone : Course.advances r [(move, w')] = []) : w'.Stands call chain j r := by
  have htravels := h.travels hlink hmove
  rw [hnone] at htravels
  exact h.moves hlink hmove (htravels.stays ▸ h.before)

theorem Stands.fork {r : Ref} (h : w.Stands call chain j r) :
    (w.push (w.invocation r)).2.Stands call chain j (w.push (w.invocation r)).1 := by
  have hthen := w.invocation_push (w.invocation r)
  exact ⟨Array.size_push _ ▸ Nat.lt_succ_self _, by rw [hthen]; exact h.call,
    by rw [hthen]; exact h.chain, by rw [hthen]; exact h.before⟩

/-- An advance from in front of the link does not get by it, and if it is let in before, the invocation
still stands in front of the link. -/
theorem Stands.advances {r : Ref} {a : Advance} (h : w.Stands call chain j r)
    (hlink : chain.links[j]? = some (.plain interceptor)) (hmove : w.Moves (.advanced r a) w') :
    a.StaysWithin j ∧ (a.arrival.isBefore j → w'.Stands call chain j r) := by
  have htravels := h.travels hlink hmove
  have hcourse : Course.advances r [(.advanced r a, w')] = [(a, w'.invocation r)] := by
    simp [Course.advances]
  rw [hcourse] at htravels
  have hends := (htravels.ends _ (List.mem_singleton_self _)).1
  have hpositions := htravels.order
  rw [List.flatMap_singleton] at hpositions
  have hchain : (w'.invocation r).chain = chain := htravels.route.chain.trans h.chain
  refine ⟨hends.stops hpositions h.before (hchain ▸ hlink), fun hbefore => h.moves hlink hmove ?_⟩
  cases harrival : a.arrival with
  | entered position current =>
    rw [harrival, Arrival.isBefore, decide_eq_true_iff] at hbefore
    have hentered : (w'.invocation r).entered = position + 1 :=
      (hends.entered position current harrival).2.2
    omega
  | reached => rw [harrival] at hbefore; cases hbefore
  | unwound panic => rw [harrival] at hbefore; cases hbefore

/-- One moment: what may be worked on stays in front of the link, and no advance gets by it. -/
theorem Moves.stops {move : Move} {next : List Ref} (h : w.Moves move w')
    (hlink : chain.links[j]? = some (.plain interceptor))
    (hlive : ∀ r ∈ live, w.Stands call chain j r)
    (hnext : Moment.live? call j live (move, w') = some next) :
    (∀ r ∈ next, w'.Stands call chain j r) ∧
      ∀ r a, move = .advanced r a → (w'.invocation r).call = call → a.StaysWithin j := by
  have hkeeps : ∀ t ∈ live, Course.advances t [(move, w')] = [] → w'.Stands call chain j t :=
    fun t ht hnone => (hlive t ht).keeps hlink h hnone
  cases move with
  | advanced r a =>
    have hothers : ∀ t ∈ live, t ≠ r → w'.Stands call chain j t := fun t ht hne =>
      hkeeps t ht (by simp [Course.advances, Ne.symm hne])
    rw [Moment.live?] at hnext
    by_cases hcall : (w'.invocation r).call = call
    · rw [if_neg (not_not.mpr hcall)] at hnext
      obtain ⟨hr, hnext⟩ := Option.ite_none_right_eq_some.mp hnext
      -- what advances is used up, unless it is handed on to advice in front of the link
      obtain ⟨hwithin, hhanded⟩ := (hlive r hr).advances hlink h
      refine ⟨fun t ht => ?_, fun _ _ hmove _ => (Move.advanced.inj hmove).2 ▸ hwithin⟩
      cases hbefore : a.arrival.isBefore j with
      | true =>
        rw [if_pos hbefore] at hnext
        cases hnext
        by_cases hne : t = r
        · exact hne ▸ hhanded hbefore
        · exact hothers t ht hne
      | false =>
        rw [if_neg (by simp [hbefore])] at hnext
        cases hnext
        obtain ⟨ht, hne⟩ := List.mem_filter.mp ht
        exact hothers t ht (by simpa using hne)
    · rw [if_pos hcall] at hnext
      cases hnext
      refine ⟨fun t ht => hothers t ht ?_, fun _ _ hmove hother => ?_⟩
      -- what may be worked on is of the call, and stays so
      · rintro rfl
        have hroute := ((hlive t ht).travels hlink h).route
        exact hcall (by rw [hroute]; exact (hlive t ht).call)
      · exact absurd ((Move.advanced.inj hmove).1 ▸ hother) hcall
  | ended r =>
    cases hnext
    exact ⟨fun t ht => hkeeps t (List.mem_of_mem_filter ht) rfl, fun _ _ hmove => by cases hmove⟩
  | forked original copy =>
    refine ⟨fun t ht => ?_, fun _ _ hmove => by cases hmove⟩
    rw [Moment.live?] at hnext
    by_cases hcall : (w'.invocation original).call = call
    · rw [if_neg (not_not.mpr hcall)] at hnext
      obtain ⟨horiginal, hnext⟩ := Option.ite_none_right_eq_some.mp hnext
      cases hnext
      cases h
      obtain rfl | ht := List.mem_cons.mp ht
      · exact (hlive _ horiginal).fork
      · exact hkeeps t ht rfl
    · rw [if_pos hcall] at hnext
      cases hnext
      exact hkeeps t ht rfl
  | started r =>
    cases hnext
    exact ⟨fun t ht => hkeeps t ht rfl, fun _ _ hmove => by cases hmove⟩
  | other =>
    cases hnext
    exact ⟨fun t ht => hkeeps t ht rfl, fun _ _ hmove => by cases hmove⟩

/-- On a careful course no advance of the call gets by the link. -/
theorem Leads.stops {c : Course σ} (h : w.Leads c w') (hlink : chain.links[j]? = some (.plain interceptor))
    (hlive : ∀ r ∈ live, w.Stands call chain j r) (hcareful : c.Careful call j live) :
    ∀ r a v, (.advanced r a, v) ∈ c → (v.invocation r).call = call → a.StaysWithin j := by
  induction h generalizing live with
  | nil => exact fun _ _ _ hmem => absurd hmem List.not_mem_nil
  | @cons w v w' move course first rest ih =>
    rw [Course.Careful, List.foldlM_cons] at hcareful
    obtain ⟨last, hlast⟩ := Option.isSome_iff_exists.mp hcareful
    obtain ⟨next, hnext, hthen⟩ := Option.bind_eq_some_iff.mp hlast
    obtain ⟨hstands, hwithin⟩ := first.stops hlink hlive hnext
    intro r a u hmem hcall
    obtain heq | hmem := List.mem_cons.mp hmem
    · cases heq
      exact hwithin r a rfl hcall
    · exact ih hstands (Option.isSome_iff_exists.mpr ⟨last, hthen⟩) r a u hmem hcall

end World

/-- **No bypass of a short circuit.** On a stretch of a run, let a call stand in front of a link that is run
whenever it is reached. If of the invocations of the call, this one and its forks, none is told to
advance or forked that is used up, and the link uses up what it is handed, no advance of any of them
comes to a link behind it or to the target. -/
theorem Program.stops_course (p : Program σ α) (directory : Directory σ) (depth : Nat) (w : World σ)
    {before between later : Course σ}
    (hcourse : p.course directory depth w = before ++ between ++ later) {r : Ref} {j : Nat}
    {interceptor : Interceptor σ} (hr : r.index < (w.after before).invocations.size)
    (hlink : ((w.after before).invocation r).chain.links[j]? = some (.plain interceptor))
    (hstart : ((w.after before).invocation r).entered ≤ j)
    (hcareful : between.Careful ((w.after before).invocation r).call j [r]) :
    w.after (before ++ between ++ later) = (p.run directory (Engine.ofDepth directory depth) w).2 ∧
      ∀ s a v, (.advanced s a, v) ∈ between →
        (v.invocation s).call = ((w.after before).invocation r).call → a.StaysWithin j := by
  have hleads := p.leads_course directory depth w
  rw [hcourse] at hleads
  obtain ⟨_, hbetween⟩ := hleads.cut.1.cut
  exact ⟨hleads.after,
    hbetween.stops hlink (List.forall_mem_singleton.mpr ⟨hr, rfl, rfl, hstart⟩) hcareful⟩

/-! ### A call that is refused, and tried again -/

/-- Around advice that keeps a fork unused, tries the call on another one with other arguments, and when
that fails goes on with the call itself. -/
def insisting : Interceptor Unit where
  serial := some 0
  behaviour := .around fun r => do
    let _ ← Program.fork r
    let copy ← Program.forkWith r [.int32 2]
    match ← Program.proceed copy with
    | .ok value => pure (.ok value)
    | .error _ => Program.proceed r

/-- Around advice that lets no call through. -/
def refusing : Interceptor Unit where
  serial := some 1
  behaviour := .around fun _ => pure (.error .noJoinPoint)

/-- The world in which a call has been started that is to be refused behind advice that insists. -/
def refused : World Unit :=
  (World.start { state := () } { this := .unit, method := default }
    ⟨[.plain insisting, .plain refusing, .plain insisting]⟩ fun _ _ _ => pure (.ok .unit)).2

/-- Makes the call, and then goes on with the fork that was left unused. -/
def persisting : Program Unit Outcome := do
  let _ ← Program.proceed ⟨0⟩
  Program.proceed ⟨1⟩

/-- What is done to cursors on the way. -/
def refusedCourse : Course Unit := persisting.course (fun _ => none) 6 refused

theorem stops_course_refused :
    let c := refusedCourse
    (0 < refused.invocations.size ∧ (refused.invocation ⟨0⟩).chain.length = 3 ∧
      (refused.invocation ⟨0⟩).entered ≤ 1 ∧ c.Careful ⟨0⟩ 1 [⟨0⟩]) ∧
    (c.map fun (_, v) => v.invocations.size).getLast? = some 3 ∧
    refused.after c = (persisting.run (fun _ => none) (Engine.ofDepth (fun _ => none) 6) refused).2 ∧
    ∀ s a v, (.advanced s a, v) ∈ c → (v.invocation s).call = ⟨0⟩ → a.StaysWithin 1 := by
  intro c
  have hcourse : refusedCourse = [] ++ c ++ [] := (List.append_nil c).symm
  have hcareful : c.Careful ⟨0⟩ 1 [⟨0⟩] := by decide +kernel
  refine ⟨⟨by decide +kernel, by decide +kernel, by decide +kernel, hcareful⟩, by decide +kernel, ?_⟩
  have hstops := persisting.stops_course _ _ _ hcourse (r := ⟨0⟩) (j := 1) (by decide +kernel) rfl
    (by decide +kernel) hcareful
  rw [← hcourse] at hstops
  exact hstops

end Interception
