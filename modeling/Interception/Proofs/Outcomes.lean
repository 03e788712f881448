import Interception.Proofs.Footprints

/-! The reports of interceptors that tell how a call came out. Such an interceptor does what its own
proceeding does, and then writes one event about it. Whatever other advice does around it and inside of
it, the event comes after everything that its proceeding writes and before everything that is written
after it has returned; so of two such runs of which one lies inside of the other, the one that was entered
last reports first, and each reports what came out where it stands. -/

namespace Interception

variable {σ : Type}

/-- The event, if it reports how a call came out. -/
def Entry.outcome? : Entry → Option Event
  | .event (.completed call method label) => some (.completed call method label)
  | .event (.failed call method label failure) => some (.failed call method label failure)
  | _ => none

/-- Which link is entered, and its label, if its interceptor is one that reports. -/
def Entry.instrumented? (w : World σ) : Entry → Option (Ref × Nat × String)
  | .occurrence (.entered r position _ _ _ _) =>
    (w.invocation r).chain.links[position]?.bind fun link =>
      link.interceptor.behaviour.label?.map fun label => (r, position, label)
  | _ => none

namespace Instrumentation

variable (directory : Directory σ) (m : Instrumentation σ)

/-- The link that was entered, and its label. -/
def place : Ref × Nat × String := (m.invocation, m.position, m.label)

/-- What the runs report, in their order. -/
def reports (runs : List (Instrumentation σ)) : List Event := runs.filterMap (·.report? directory)

/-- The run returns what its own proceeding returns, and reports it: that it completed, or that it failed
and with which error, and nothing if it did not come to an end. -/
structure Tells : Prop where
  returns : (Behaviour.instrumented m.label).run directory (Engine.ofDepth directory m.depth)
    m.invocation m.begun = ((m.own directory).1, m.ended directory)
  adds : (m.own directory).2.Gains ((m.report? directory).toList.map .event) (m.ended directory)
  completed : (∃ value, (m.own directory).1 = .finished (.ok value)) ↔
    ∃ e, m.report? directory = some e ∧ e.message = "Call completed"
  failed : ∀ failure, (m.own directory).1 = .finished (.error failure) →
    ∃ e, m.report? directory = some e ∧ e.message = "Call failed" ∧
      ("error", some failure.message) ∈ e.fields
  silent : m.report? directory = none ↔ ∀ outcome, (m.own directory).1 ≠ .finished outcome

theorem tells : m.Tells directory where
  returns := by
    rw [← Behaviour.run_account (Engine.run_accounts directory m.depth), Account.run, m.account_eq]
  adds := by
    rw [ended]
    cases m.report? directory with
    | none => exact World.gains_nil _
    | some e => exact World.gains_record _ [.event e]
  completed := by
    rw [report?]
    rcases (m.own directory).1 with (failure | value) | panic | _ <;> simp [Event.message]
  failed := by
    intro failure hfailed
    rw [report?, hfailed]
    exact ⟨_, rfl, rfl, by simp [Event.fields]⟩
  silent := by
    rw [report?]
    rcases (m.own directory).1 with (failure | value) | panic | _ <;> simp

/-- The course tells of the run: an advance arrives at its link in the world in which it begins, and that
advance ends in the world in which it ends. -/
def During (c : Course σ) : Prop :=
  ∃ visits current inside, (.advanced m.invocation ⟨visits, .entered m.position current⟩, m.begun) ::
    inside ++ [(.ended m.invocation, m.ended directory)] <:+: c

variable {directory m}

theorem During.mono {c d : Course σ} (h : m.During directory c) (hpart : c <:+: d) :
    m.During directory d := by
  obtain ⟨visits, current, inside, hcourse⟩ := h
  exact ⟨visits, current, inside, hcourse.trans hpart⟩

end Instrumentation

/-- Where an element of two lists in a row lies: in the first of them, or in the second. -/
theorem append_eq_split {α : Type*} {first second before after : List α} {a : α}
    (h : first ++ second = before ++ a :: after) :
    (∃ tail, first = before ++ a :: tail ∧ after = tail ++ second) ∨
      ∃ lead, before = first ++ lead ∧ second = lead ++ a :: after := by
  rcases List.append_eq_append_iff.mp h with ⟨lead, hbefore, hsecond⟩ | ⟨tail, hfirst, htail⟩
  · exact .inr ⟨lead, hbefore, hsecond⟩
  · cases tail with
    | nil => exact .inr ⟨[], by rw [hfirst, List.append_nil, List.append_nil], htail.symm⟩
    | cons b tail =>
      obtain ⟨rfl, hafter⟩ := List.cons.inj htail
      exact .inl ⟨tail, hfirst, hafter⟩

/-! ### Stretches of a run -/

namespace World

variable {directory : Directory σ} {w w' w'' v : World σ} {events more : List Event}
  {runs further : List (Instrumentation σ)} {m : Instrumentation σ} {gained : List Entry}

/-- Of the entries gained from the first world to the second, these report how calls came out. -/
def Yields (w : World σ) (events : List Event) (w' : World σ) : Prop :=
  ∃ gained, w.Gains gained w' ∧ gained.filterMap Entry.outcome? = events

theorem Yields.append (h : w.Yields events w') (h' : w'.Yields more w'') :
    w.Yields (events ++ more) w'' := by
  obtain ⟨gained, hgained, rfl⟩ := h
  obtain ⟨added, hadded, rfl⟩ := h'
  exact ⟨gained ++ added, hgained.append hadded, List.filterMap_append⟩

theorem yields_ended (directory : Directory σ) (m : Instrumentation σ) :
    (m.own directory).2.Yields (Instrumentation.reports directory [m]) (m.ended directory) := by
  refine ⟨_, (m.tells directory).adds, ?_⟩
  rw [Instrumentation.reports, List.filterMap_cons]
  cases hreport : m.report? directory with
  | none => rfl
  | some e =>
    have houtcome := m.isOutcome_of_report? directory hreport
    cases e with
    | completed => rfl
    | failed => rfl
    | _ => exact houtcome.elim

/-- The run of the interceptor begins after the first world and ends before the second. -/
def Contains (directory : Directory σ) (w : World σ) (m : Instrumentation σ) (w' : World σ) : Prop :=
  (∃ lead current arguments thread bindings, w.Gains (lead ++
    [.occurrence (.entered m.invocation m.position current arguments thread bindings)]) m.begun) ∧
  ∃ rest, (m.ended directory).Gains rest w'

theorem Contains.upTo (h : w.Contains directory m w') (hgained : w'.Gains gained w'') :
    w.Contains directory m w'' := by
  obtain ⟨hbegun, rest, hrest⟩ := h
  exact ⟨hbegun, _, hrest.append hgained⟩

theorem Contains.since (h : w'.Contains directory m w'') (hgained : w.Gains gained w') :
    w.Contains directory m w'' := by
  obtain ⟨⟨lead, current, arguments, thread, bindings, hbegun⟩, hrest⟩ := h
  refine ⟨⟨gained ++ lead, current, arguments, thread, bindings, ?_⟩, hrest⟩
  rw [List.append_assoc]
  exact hgained.append hbegun

/-- Where the run `m` lies between the two worlds: after the outer runs, which end before it is entered,
around the inner ones, which lie in its own proceeding, and before those that end after it. -/
structure Places (directory : Directory σ) (w : World σ) (outer inner : List (Instrumentation σ))
    (m : Instrumentation σ) (after : List (Instrumentation σ)) (w' : World σ) : Prop where
  here : w.Contains directory m w'
  before : ∀ k ∈ outer, w.Contains directory k m.begun
  inside : ∀ k ∈ inner, m.begun.Contains directory k (m.own directory).2
  /-- When it is entered, just the outer runs have reported. -/
  lead : w.Yields (Instrumentation.reports directory outer) m.begun
  /-- Its own proceeding adds just the reports of the inner runs; then comes its own. -/
  own : m.begun.Yields (Instrumentation.reports directory inner) (m.own directory).2
  rest : (m.ended directory).Yields (Instrumentation.reports directory after) w'

/-- Between the two worlds the runs end in their order, their reports are all that is reported, and each
of them encloses some of those that end before it. -/
structure Nests (directory : Directory σ) (w : World σ) (runs : List (Instrumentation σ))
    (w' : World σ) : Prop where
  yields : w.Yields (Instrumentation.reports directory runs) w'
  places : ∀ before m after, runs = before ++ m :: after →
    ∃ outer inner, before = outer ++ inner ∧ w.Places directory outer inner m after w'

theorem Nests.contains (h : w.Nests directory runs w') (hm : m ∈ runs) : w.Contains directory m w' := by
  obtain ⟨before, after, hsplit⟩ := List.append_of_mem hm
  obtain ⟨_, _, _, hplaces⟩ := h.places before m after hsplit
  exact hplaces.here

theorem nests_nil (h : w.Yields [] w') : w.Nests directory [] w' :=
  ⟨h, fun before m after hsplit => by cases before <;> cases hsplit⟩

/-- A run that lies in the first of two stretches. -/
theorem Places.append {outer inner after : List (Instrumentation σ)}
    (h : w.Places directory outer inner m after v)
    (h' : v.Yields (Instrumentation.reports directory further) w') :
    w.Places directory outer inner m (after ++ further) w' := by
  obtain ⟨added, hadded, hevents⟩ := h'
  refine { h with here := h.here.upTo hadded, rest := ?_ }
  rw [Instrumentation.reports, List.filterMap_append]
  exact h.rest.append ⟨added, hadded, hevents⟩

/-- A run that lies in the second. -/
theorem Nests.before {outer inner after : List (Instrumentation σ)} (h : w.Nests directory runs v)
    (h' : v.Places directory outer inner m after w') :
    w.Places directory (runs ++ outer) inner m after w' := by
  obtain ⟨gained, hgained, _⟩ := h.yields
  obtain ⟨lead, hlead, _⟩ := h'.lead
  refine { h' with here := h'.here.since hgained, before := ?_, lead := ?_ }
  · refine List.forall_mem_append.mpr ⟨fun k hk => (h.contains hk).upTo hlead, fun k hk => ?_⟩
    exact (h'.before k hk).since hgained
  · rw [Instrumentation.reports, List.filterMap_append]
    exact h.yields.append h'.lead

theorem Nests.append (h : w.Nests directory runs v) (h' : v.Nests directory further w') :
    w.Nests directory (runs ++ further) w' := by
  refine ⟨?_, fun before m after hsplit => ?_⟩
  · rw [Instrumentation.reports, List.filterMap_append]
    exact h.yields.append h'.yields
  · rcases append_eq_split hsplit with ⟨tail, hruns, rfl⟩ | ⟨lead, rfl, hfurther⟩
    · obtain ⟨outer, inner, hbefore, hplaces⟩ := h.places before m tail hruns
      exact ⟨outer, inner, hbefore, hplaces.append h'.yields⟩
    · obtain ⟨outer, inner, rfl, hplaces⟩ := h'.places lead m after hfurther
      exact ⟨runs ++ outer, inner, (List.append_assoc _ _ _).symm, h.before hplaces⟩

/-- A run around those that lie in its own proceeding. -/
theorem nests_enclosing (lead : List Entry) {current : Option Nat} {arguments : List Value}
    {thread : Nat} {bindings : Bindings}
    (hbegun : w.Gains (lead ++
      [.occurrence (.entered m.invocation m.position current arguments thread bindings)]) m.begun)
    (hquiet : lead.filterMap Entry.outcome? = [])
    (h : m.begun.Nests directory runs (m.own directory).2) :
    w.Nests directory (runs ++ [m]) (m.ended directory) := by
  have hlead : w.Yields [] m.begun :=
    ⟨_, hbegun, by rw [List.filterMap_append, hquiet]; rfl⟩
  have hended := yields_ended directory m
  have houter : w.Nests directory runs (m.own directory).2 := (nests_nil hlead).append h
  refine ⟨?_, fun before k after hsplit => ?_⟩
  · rw [Instrumentation.reports, List.filterMap_append]
    exact houter.yields.append hended
  · rcases append_eq_split hsplit with ⟨tail, hruns, rfl⟩ | ⟨lead', rfl, hlast⟩
    · obtain ⟨outer, inner, hbefore, hplaces⟩ := houter.places before k tail hruns
      exact ⟨outer, inner, hbefore, hplaces.append hended⟩
    · obtain ⟨rfl, rfl, rfl⟩ : lead' = [] ∧ m = k ∧ after = [] := by
        cases lead' with
        | nil => cases hlast; exact ⟨rfl, rfl, rfl⟩
        | cons a rest => cases rest <;> cases hlast
      refine ⟨[], runs, by rw [List.append_nil]; rfl, {
        here := ⟨⟨lead, current, arguments, thread, bindings, hbegun⟩, [], gains_nil _⟩
        before := fun k hk => absurd hk List.not_mem_nil
        inside := fun k hk => h.contains hk
        lead := hlead
        own := h.yields
        rest := ⟨[], gains_nil _, rfl⟩ }⟩

end World

/-! ### Which interceptors are entered -/

/-- Where an advance has arrived, and the label, if that is an interceptor which reports. -/
def Stop.instrumented? (r : Ref) : Stop σ → Option (Ref × Nat × String)
  | .entered position _ behaviour => behaviour.label?.map fun label => (r, position, label)
  | _ => none

namespace Footprints

variable {r : Ref} {i : Invocation σ} {position : Nat} {links : List (Link σ)} {entries : List Entry}
  {stop : Stop σ}

section Questions

variable {α : Type*} {f : Entry → Option α} {question : Entry} (hquestion : f question = none)
  (hnotes : ∀ text, f (.note text) = none) (notes : List String)

include hquestion hnotes

theorem filterMap_question : (question :: notes.map .note).filterMap f = [] := by
  simp [hquestion, hnotes]

/-- Where nothing is read off a question, it is read off the footprints after it. -/
theorem filterMap_after (later : List Entry) :
    (question :: notes.map .note ++ later).filterMap f = later.filterMap f := by
  rw [List.filterMap_append, filterMap_question hquestion hnotes, List.nil_append]

end Questions

/-- Nothing is reported on the way. -/
theorem quiet (h : Footprints r i position links entries stop) :
    entries.filterMap Entry.outcome? = [] := by
  induction h with
  | reached => rfl
  | plain => rfl
  | admitted asked notes => exact filterMap_after rfl (fun _ => rfl) notes _
  | unwound asked notes => exact filterMap_question rfl (fun _ => rfl) notes
  | skipped asked notes _ ih => exact (filterMap_after rfl (fun _ => rfl) notes _).trans ih

/-- The last footprint is that an interceptor is entered, where the walk stops at one. -/
theorem last_entered {place : Nat} {current : Option Nat} {behaviour : Behaviour σ}
    (h : Footprints r i position links entries (.entered place current behaviour)) :
    ∃ arguments thread bindings,
      [.occurrence (.entered r place current arguments thread bindings)] <:+ entries := by
  generalize hstop : Stop.entered place current behaviour = stop at h
  induction h with
  | reached => cases hstop
  | plain =>
    cases hstop
    exact ⟨_, _, _, List.suffix_cons _ _⟩
  | admitted =>
    cases hstop
    exact ⟨_, _, _, (List.suffix_cons _ _).trans (List.suffix_append _ _)⟩
  | unwound => cases hstop
  | skipped asked notes _ ih =>
    obtain ⟨arguments, thread, bindings, hlast⟩ := ih hstop
    exact ⟨_, _, _, hlast.trans ((List.suffix_append _ _).trans (List.suffix_append _ _))⟩

/-- Of the links that are walked over, just the one where the walk stops is entered. -/
theorem instrumented (h : Footprints r i position links entries stop) (u : World σ)
    (hlinks : i.chain.links.drop position = links)
    (hroute : links ≠ [] → i.SameRoute (u.invocation r)) :
    entries.filterMap (Entry.instrumented? u) = (stop.instrumented? r).toList := by
  have hentered : ∀ {position : Nat} {link : Link σ} {rest : List (Link σ)} (current : Option Nat)
      (arguments : List Value) (thread : Nat) (bindings : Bindings),
      i.chain.links.drop position = link :: rest → i.SameRoute (u.invocation r) →
      [Entry.occurrence (.entered r position current arguments thread bindings)].filterMap
        (Entry.instrumented? u) =
      ((Stop.entered position current link.interceptor.behaviour).instrumented? r).toList := by
    intro position link rest current arguments thread bindings hdrop hsame
    have hlink : (u.invocation r).chain.links[position]? = some link := by
      rw [hsame.chain, getElem?_of_drop hdrop]
    rw [List.filterMap_cons, Entry.instrumented?, hlink, Stop.instrumented?, Option.bind_some]
    cases link.interceptor.behaviour.label? <;> rfl
  induction h with
  | reached => rfl
  | plain => exact hentered _ _ _ _ hlinks (hroute (List.cons_ne_nil _ _))
  | admitted asked notes =>
    exact (filterMap_after rfl (fun _ => rfl) notes _).trans
      (hentered _ _ _ _ hlinks (hroute (List.cons_ne_nil _ _)))
  | unwound asked notes => exact filterMap_question rfl (fun _ => rfl) notes
  | skipped asked notes _ ih =>
    exact (filterMap_after rfl (fun _ => rfl) notes _).trans
      (ih (drop_succ_of_drop hlinks) fun _ => hroute (List.cons_ne_nil _ _))

end Footprints

namespace World

variable {directory : Directory σ} {w w' v : World σ} {entries : List Entry}
  {runs further : List (Instrumentation σ)}

theorem Aside.outcome? {entry : Entry} (h : w.Aside entry) : entry.outcome? = none := by
  cases entry with
  | event e =>
    cases e with
    | completed | failed => exact h.elim
    | _ => rfl
  | _ => rfl

theorem Aside.instrumented? {entry : Entry} (h : w.Aside entry) (u : World σ) :
    entry.instrumented? u = none := by
  cases entry with
  | occurrence o =>
    cases o with
    | entered => exact h.elim
    | _ => rfl
  | _ => rfl

/-- The runs are those of the interceptors that are entered between the two worlds, which are told by the
journal. -/
def Enters (w : World σ) (runs : List (Instrumentation σ)) (w' : World σ) : Prop :=
  w.Continues w' ∧ ∃ gained, w.Gains gained w' ∧
    ∀ u, w'.Continues u →
      (gained.filterMap (Entry.instrumented? u)).Perm (runs.map Instrumentation.place)

theorem Enters.append (h : w.Enters runs v) (h' : v.Enters further w') :
    w.Enters (runs ++ further) w' := by
  obtain ⟨hcontinues, gained, hgained, hruns⟩ := h
  obtain ⟨hcontinues', added, hadded, hfurther⟩ := h'
  refine ⟨hcontinues.trans hcontinues', gained ++ added, hgained.append hadded, fun u hu => ?_⟩
  rw [List.filterMap_append, List.map_append]
  exact (hruns u (hcontinues'.trans hu)).append (hfurther u hu)

theorem enters_nil (hcontinues : w.Continues w') {gained : List Entry} (hgained : w.Gains gained w')
    (hnone : ∀ u : World σ, gained.filterMap (Entry.instrumented? u) = []) : w.Enters [] w' :=
  ⟨hcontinues, gained, hgained, fun u _ => List.Perm.of_eq (hnone u)⟩

theorem Enters.perm (h : w.Enters runs w') (hperm : runs.Perm further) : w.Enters further w' := by
  obtain ⟨hcontinues, gained, hgained, hruns⟩ := h
  exact ⟨hcontinues, gained, hgained, fun u hu => (hruns u hu).trans (hperm.map _)⟩

theorem Stroke.enters (h : w.Stroke w') : w.Enters [] w' := by
  obtain ⟨gained, hgained, haside⟩ := h.told
  exact enters_nil h.toSteady.continues hgained fun u =>
    List.filterMap_eq_nil_iff.mpr fun entry hentry => (haside entry hentry).instrumented? u

theorem enters_push (w : World σ) (i : Invocation σ) : w.Enters [] (w.push i).2 :=
  enters_nil (w.continues_push i) (gains_of_eq rfl) fun _ => rfl

theorem enters_advance {r : Ref} {visits : List Visit} {stop : Stop σ}
    (arrives : w.advance r = (visits, stop, v))
    (hruns : runs.map Instrumentation.place = (stop.instrumented? r).toList) : w.Enters runs v := by
  obtain ⟨entries, hgained, hprints⟩ := gains_advance arrives
  have hcontinues : w.Continues v := by
    have h := progress_continues.advance w r
    rwa [arrives] at h
  refine ⟨hcontinues, _, hgained, fun u hu => ?_⟩
  rw [List.filterMap_cons_none rfl, hruns]
  exact List.Perm.of_eq (hprints.instrumented u rfl ((hcontinues.trans hu).route_ahead r))

theorem enters_ended (directory : Directory σ) (m : Instrumentation σ) :
    (m.own directory).2.Enters [] (m.ended directory) := by
  rw [Instrumentation.ended]
  cases hreport : m.report? directory with
  | none => exact enters_nil (.refl _) (gains_nil _) fun _ => rfl
  | some e =>
    exact enters_nil (progress_continues.report _ (m.isOutcome_of_report? directory hreport))
      (gains_record _ _) fun _ => rfl

theorem Stroke.nests (h : w.Stroke w') : w.Nests directory [] w' := by
  obtain ⟨gained, hgained, haside⟩ := h.told
  have hquiet : gained.filterMap Entry.outcome? = [] :=
    List.filterMap_eq_nil_iff.mpr fun entry hentry => (haside entry hentry).outcome?
  exact nests_nil ⟨gained, hgained, hquiet⟩

theorem nests_push (w : World σ) (i : Invocation σ) : w.Nests directory [] (w.push i).2 :=
  nests_nil ⟨[], gains_of_eq rfl, rfl⟩

/-- The runs of interceptors that report, in a run that unfolds from the first world to the second. -/
theorem Unfolds.nests {c : Course σ} (h : w.Unfolds directory c w') :
    ∃ runs, w.Nests directory runs w' ∧ w.Enters runs w' ∧ ∀ m ∈ runs, m.During directory c := by
  induction h with
  | nil =>
    refine ⟨[], nests_nil ⟨[], gains_nil _, rfl⟩, (stroke_of_eq rfl rfl).enters, ?_⟩
    exact List.forall_mem_nil _
  | append _ _ ihfirst ihrest =>
    obtain ⟨runs, hnests, henters, hduring⟩ := ihfirst
    obtain ⟨further, hnests', henters', hduring'⟩ := ihrest
    refine ⟨runs ++ further, hnests.append hnests', henters.append henters', ?_⟩
    exact List.forall_mem_append.mpr
      ⟨fun m hm => (hduring m hm).mono (List.prefix_append _ _).isInfix,
        fun m hm => (hduring' m hm).mono (List.suffix_append _ _).isInfix⟩
  | stroke h => exact ⟨[], h.nests, h.enters, List.forall_mem_nil _⟩
  | @forked w r => exact ⟨[], w.nests_push _, w.enters_push _, List.forall_mem_nil _⟩
  | @started w request chain target =>
    have hcalls : w.Stroke { w with calls := w.calls + 1 } := stroke_of_eq rfl rfl
    exact ⟨[], hcalls.nests.append (nests_push _ _), hcalls.enters.append (enters_push _ _),
      List.forall_mem_nil _⟩
  | @advanced w v w' visits stop _ r arrives hplain _ ih =>
    obtain ⟨runs, hnests, henters, hduring⟩ := ih
    obtain ⟨entries, hgained, hprints⟩ := gains_advance arrives
    have harrived : w.Nests directory [] v := nests_nil ⟨_, hgained, hprints.quiet⟩
    have hnone : stop.instrumented? r = none := by
      cases stop with
      | entered position current behaviour =>
        rw [Stop.instrumented?, show behaviour.label? = none from hplain]
        rfl
      | _ => rfl
    have hentered : w.Enters [] v := enters_advance arrives (by rw [hnone]; rfl)
    refine ⟨runs, harrived.append hnests, hentered.append henters, fun m hm => ?_⟩
    exact (hduring m hm).mono (List.infix_append [_] _ _)
  | @instrumented w visits current _ m arrives _ ih =>
    obtain ⟨runs, hnests, henters, hduring⟩ := ih
    obtain ⟨entries, hgained, hprints⟩ := gains_advance arrives
    have hquiet := hprints.quiet
    obtain ⟨arguments, thread, bindings, lead, rfl⟩ := hprints.last_entered
    rw [List.filterMap_append] at hquiet
    have hentered : w.Enters [m] m.begun := enters_advance arrives rfl
    refine ⟨runs ++ [m], ?_, ?_, List.forall_mem_append.mpr ⟨fun k hk => ?_, ?_⟩⟩
    · exact nests_enclosing (.occurrence (.proceeding m.invocation) :: lead) hgained
        (List.append_eq_nil_iff.mp hquiet).1 hnests
    · refine ((hentered.append henters).append (enters_ended directory m)).perm ?_
      rw [List.append_nil]
      exact List.perm_append_comm
    · refine ((hduring k hk).mono (List.prefix_append _ _).isInfix).mono (List.infix_append [_] _ _)
    · exact List.forall_mem_singleton.mpr ⟨visits, current, _, List.infix_refl _⟩

end World

/-- **The reports nest.** Between the beginning and the end of a run, of whatever is activated, there are
just as many runs of interceptors that report as are entered, at just these positions. Each of them returns
what its own proceeding returns, and reports that, and nothing else reports. The report comes after
everything that its own proceeding writes, so after the reports of the runs inside of it, and before
everything that is written once it has returned: of two runs that overlap, the one that is entered last
reports first. -/
theorem Engine.outcomes_nested (directory : Directory σ) (depth : Nat) (a : Activation σ) (w : World σ) :
    let w' := (Engine.ofDepth directory depth a w).2
    ∃ runs, w.Nests directory runs w' ∧
      (∃ gained, w.Gains gained w' ∧
        (gained.filterMap (Entry.instrumented? w')).Perm (runs.map Instrumentation.place)) ∧
      ∀ m ∈ runs, m.Tells directory ∧
        m.During directory ((Engine.accounts directory depth a).course w) := by
  intro w'
  have hunfolds := Engine.unfolding_accounts directory depth a w
  have hend : (Engine.accounts directory depth a).run w = Engine.ofDepth directory depth a w :=
    congrFun (Engine.run_accounts directory depth a) w
  rw [hend] at hunfolds
  obtain ⟨runs, hnests, ⟨_, gained, hgained, hruns⟩, hduring⟩ := hunfolds.nests
  exact ⟨runs, hnests, ⟨gained, hgained, hruns w' (.refl w')⟩,
    fun m hm => ⟨m.tells directory, hduring m hm⟩⟩

end Interception
