import Interception.Proofs.Footprints
import Interception.Proofs.Polling

/-! The class of a call. A request names the class on which it is to be carried out, or means the class
that declares the method. That is settled twice, as the chain is looked for and as the call is given its
invocation, and comes to the same class both times; from there it goes with the invocation, into its forks
and into every picture of it. So every predicate that is consulted for a call is consulted for the one
class. -/

namespace Interception

variable {σ : Type}

/-- The class that an entry tells an invocation to be on: an argument predicate of its chain is asked about
the class, or a slot is given a picture that shows it. -/
def Entry.class? : Entry → Option (Ref × Class)
  | .occurrence (.matching r _ targetClass _) => some (r, targetClass)
  | .occurrence (.bound _ _ (some r) point) => some (r, point.targetClass)
  | .occurrence (.replaced r _ _ point _ _) => some (r, point.targetClass)
  | _ => none

theorem Footprints.class_eq {r : Ref} {i : Invocation σ} {position : Nat} {links : List (Link σ)}
    {entries : List Entry} {stop : Stop σ} (h : Footprints r i position links entries stop) :
    ∀ entry ∈ entries, ∀ s c, entry.class? = some (s, c) → s = r ∧ c = i.targetClass := by
  have hnone : ∀ {entry : Entry}, entry.class? = none → ∀ s c, entry.class? = some (s, c) →
      s = r ∧ c = i.targetClass := by
    intro entry hentry s c hclass
    rw [hentry] at hclass
    cases hclass
  have hasked : ∀ (position : Nat) (asked : List Value) (notes : List String),
      ∀ entry ∈ .occurrence (.matching r position i.targetClass asked) :: notes.map Entry.note,
        ∀ s c, entry.class? = some (s, c) → s = r ∧ c = i.targetClass := by
    intro position asked notes entry hentry s c hclass
    rcases List.mem_cons.mp hentry with rfl | hentry
    · cases hclass
      exact ⟨rfl, rfl⟩
    · obtain ⟨text, _, rfl⟩ := List.mem_map.mp hentry
      cases hclass
  have htwo : ∀ {first second : Entry}, first.class? = none → second.class? = none →
      ∀ entry ∈ [first, second], ∀ s c, entry.class? = some (s, c) → s = r ∧ c = i.targetClass := by
    intro first second hfirst hsecond
    exact List.forall_mem_cons.mpr ⟨hnone hfirst, List.forall_mem_singleton.mpr (hnone hsecond)⟩
  induction h with
  | reached => exact htwo rfl rfl
  | plain => exact htwo rfl rfl
  | admitted asked notes => exact List.forall_mem_append.mpr ⟨hasked _ asked notes, htwo rfl rfl⟩
  | unwound asked notes => exact hasked _ asked notes
  | skipped asked notes later ih =>
    exact List.forall_mem_append.mpr ⟨hasked _ asked notes,
      List.forall_mem_append.mpr ⟨htwo rfl rfl, ih⟩⟩

namespace World

variable {w w' v : World σ} {entry : Entry} {s : Ref} {c targetClass : Class} {course : Course σ}

theorem Aside.class_eq (h : w.Aside entry) (hclass : entry.class? = some (s, c)) :
    c = (w.invocation s).targetClass := by
  cases entry with
  | note text => cases hclass
  | event e => cases hclass
  | occurrence o =>
    cases o with
    | bound thread slot published point =>
      cases published with
      | none => cases hclass
      | some r =>
        cases hclass
        exact h
    | replaced r thread slot point before after =>
      cases hclass
      exact h
    | matching => exact h.elim
    | _ => cases hclass

/-- Whatever is done, the journal tells every invocation to be on its own class. -/
theorem progress_class : Progress fun w w' : World σ =>
    w.Continues w' ∧ ∃ gained, w.Gains gained w' ∧
      ∀ entry ∈ gained, ∀ s c, s.index < w.invocations.size → entry.class? = some (s, c) →
        c = (w.invocation s).targetClass where
  refl w := ⟨.refl w, [], w.gains_nil, fun _ hentry => absurd hentry List.not_mem_nil⟩
  trans := by
    rintro w w' w'' ⟨hcontinues, gained, hgained, hclass⟩ ⟨hcontinues', more, hmore, hclass'⟩
    refine ⟨hcontinues.trans hcontinues', gained ++ more, hgained.append hmore, ?_⟩
    refine List.forall_mem_append.mpr ⟨hclass, fun entry hentry s c hs htells => ?_⟩
    calc c = (w'.invocation s).targetClass :=
          hclass' entry hentry s c (Nat.lt_of_lt_of_le hs hcontinues.size) htells
      _ = (w.invocation s).targetClass := (hcontinues.route s hs).targetClass
  stroke h := by
    obtain ⟨gained, hgained, haside⟩ := h.told
    exact ⟨progress_continues.stroke h, gained, hgained,
      fun entry hentry s c _ htells => (haside entry hentry).class_eq htells⟩
  advance w r := by
    have hcontinues := progress_continues.advance w r
    obtain ⟨entries, hgained, hprints⟩ := w.footprints_advance r
    refine ⟨hcontinues, _, hgained, List.forall_mem_cons.mpr ⟨nofun, ?_⟩⟩
    intro entry hentry s c _ htells
    obtain ⟨rfl, rfl⟩ := hprints.class_eq entry hentry s c htells
    rfl
  push w i :=
    ⟨w.continues_push i, [], gains_of_eq rfl, fun _ hentry => absurd hentry List.not_mem_nil⟩
  report w e he :=
    ⟨progress_continues.report w he, _, w.gains_record _, List.forall_mem_singleton.mpr nofun⟩

/-! ### Kin -/

/-- The invocation is there, stands on its chain, and is on the class. -/
structure OnClass (w : World σ) (targetClass : Class) (s : Ref) : Prop where
  made : s.index < w.invocations.size
  placed : (w.invocation s).entered ≤ (w.invocation s).chain.length
  eq : (w.invocation s).targetClass = targetClass

theorem Moves.onClass {move : Move} (h : w.Moves move v) (hs : w.OnClass targetClass s) :
    v.OnClass targetClass s := by
  have htravels := h.travels hs.made hs.placed
  exact ⟨Nat.lt_of_lt_of_le hs.made h.size_le, htravels.within,
    htravels.route.targetClass.trans hs.eq⟩

/-- A fork is on the class of its original. -/
theorem OnClass.copy (hs : w.OnClass targetClass s) :
    (w.push (w.invocation s)).2.OnClass targetClass (w.push (w.invocation s)).1 := by
  have hcopy : (w.push (w.invocation s)).2.invocation (w.push (w.invocation s)).1 = w.invocation s :=
    w.invocation_push _
  exact {
    made := Array.size_push _ ▸ Nat.lt_succ_self _
    placed := by
      rw [hcopy]
      exact hs.placed
    eq := by
      rw [hcopy]
      exact hs.eq }

/-- So are all forks that a run makes of invocations on the class, and the forks of these. -/
theorem Leads.onClass (h : w.Leads course w') : ∀ {kin : List Ref},
    (∀ s ∈ kin, w.OnClass targetClass s) → ∀ s ∈ course.kinOf kin, w'.OnClass targetClass s := by
  induction h with
  | nil => exact fun hkin => hkin
  | @cons w v w' move course first rest ih =>
    intro kin hkin
    have hthen : ∀ s ∈ kin, v.OnClass targetClass s := fun s hs => first.onClass (hkin s hs)
    cases first with
    | forked original =>
      rw [Course.kinOf]
      split
      · next hmem =>
        refine ih (List.forall_mem_append.mpr ⟨hthen, List.forall_mem_singleton.mpr ?_⟩)
        exact (hkin original hmem).copy
      · exact ih hthen
    | advanced | ended | started | other => exact ih hthen

end World

/-- The predicates that are asked while a chain is looked for are asked about the class of the request. -/
theorem Proxy.directed_chainFor (p : Proxy σ) (method : Method) (targetClass : Option Class) :
    Consultation.Writes
      (fun entry => (∀ a, entry.answer? = some a →
          a.1.Gave p.advisors method (targetClass.getD method.declaringClass) a.2) ∧
        ∀ question c, entry = .occurrence (.asked question c) →
          c = targetClass.getD method.declaringClass)
      (p.chainFor method targetClass) :=
  p.writes_chainFor_of method targetClass
    (fun _ hdirected => ⟨fun _ hanswer => hdirected.1.gave hanswer, hdirected.2⟩)
    fun _ _ _ _ => ⟨nofun, nofun⟩

namespace Proxy

variable (p : Proxy σ) (directory : Directory σ) (depth : Nat) (request : Request) (target : Target σ)
  (w : World σ)

/-- The invocation of a call and its forks are on the class of the request as soon as they are there. -/
theorem onClass_kin {chain : Chain σ}
    (hchain : (p.chainFor request.method request.targetClass w.state).result = .ok (.ok chain))
    (hlinks : chain.isEmpty = false) {before later : Course σ}
    (hcourse : p.course directory depth request target w = before ++ later) {s : Ref}
    (hs : s ∈ before.kinOf [⟨w.invocations.size⟩])
    (hmade : s.index < (w.after before).invocations.size) :
    (w.after before).OnClass request.actualClass s := by
  have hleads := (p.unfolds_course directory depth request target w).leads
  have hbegun := p.invocation_begun request target w chain
  rw [hcourse] at hleads
  rw [p.course_eq directory depth request target w hchain hlinks] at hcourse
  -- at the first two moments the invocation is still to be made
  match before, hcourse with
  | [], _ =>
    rw [List.mem_singleton.mp hs] at hmade
    exact absurd hmade (Nat.lt_irrefl _)
  | [_], hcourse =>
    cases hcourse
    rw [List.mem_singleton.mp (show s ∈ [_] from hs)] at hmade
    exact absurd ((p.stroke_resolved request w).size ▸ hmade) (Nat.lt_irrefl _)
  | _ :: _ :: rest, hcourse =>
    rw [List.cons_append, List.cons_append, List.cons.injEq, List.cons.injEq] at hcourse
    obtain ⟨rfl, rfl, _⟩ := hcourse
    cases hleads with
    | cons _ hleads =>
      cases hleads with
      | cons _ hleads =>
        have hstart : (p.begun request target w chain).OnClass request.actualClass
            ⟨w.invocations.size⟩ := {
          made := p.size_begun request target w chain ▸ Nat.lt_succ_self _
          placed := by
            rw [hbegun]
            exact Nat.zero_le _
          eq := by
            rw [hbegun]
            rfl }
        exact hleads.cut.1.onClass (List.forall_mem_singleton.mpr hstart) s hs

end Proxy

/-- **One class for the whole call.** The filters and matchers that are asked while the chain is looked for
are asked about the class of the request, and on it they gave their verdicts. From every moment of the call
on, its invocation and all forks of it that are there are on that class, in all that can be read of them
and in every picture of them; the argument predicates that they come to answer for it; and nothing in the
journal tells them to be on another. To name no class is to name the class that declares the method. -/
theorem Proxy.class_throughout (p : Proxy σ) (directory : Directory σ) (depth : Nat) (request : Request)
    (target : Target σ) (w : World σ) :
    let targetClass := request.actualClass
    let reply := p.chainFor request.method request.targetClass w.state
    (∀ question c, .occurrence (.asked question c) ∈ reply.written → c = targetClass) ∧
    (∀ a ∈ answers reply.written, a.1.Gave p.advisors request.method targetClass a.2) ∧
    (∀ chain, reply.result = .ok (.ok chain) → chain.isEmpty = false →
      ∀ before later, p.course directory depth request target w = before ++ later →
        let v := w.after before
        ∀ s ∈ before.kinOf [⟨w.invocations.size⟩], s.index < v.invocations.size →
          (v.invocation s).read .targetClass = targetClass ∧
          ((v.invocation s).read .joinPoint).targetClass = targetClass ∧
          (∀ a ∈ later.advances s, a.2.targetClass = targetClass ∧ ∀ visit ∈ a.1.visits, visit.Fits a.2) ∧
          ∃ gained, v.Gains gained (p.ended directory depth request target w) ∧
            ∀ entry ∈ gained, ∀ c, entry.class? = some (s, c) → c = targetClass) ∧
    ∀ engine : Engine σ, engine.call directory p { request with targetClass := none } target =
      engine.call directory p { request with targetClass := some request.method.declaringClass }
        target := by
  intro targetClass reply
  have hdirected := p.directed_chainFor request.method request.targetClass w.state
  refine ⟨fun question c hasked => (hdirected _ hasked).2 question c rfl, fun a ha => ?_, ?_,
    fun engine => rfl⟩
  · obtain ⟨entry, hentry, hanswer⟩ := List.mem_filterMap.mp ha
    exact (hdirected entry hentry).1 a hanswer
  · intro chain hchain hlinks before later hcourse v s hs hmade
    have hclass : v.OnClass targetClass s :=
      p.onClass_kin directory depth request target w hchain hlinks hcourse hs hmade
    have hunfolds := p.unfolds_course directory depth request target w
    rw [hcourse] at hunfolds
    have htravels := hunfolds.leads.cut.2.travels hmade hclass.placed
    obtain ⟨_, _, gained, hgained, htells⟩ := hunfolds.progress_cut World.progress_class
    refine ⟨hclass.eq, hclass.eq, fun a ha => ?_, gained, hgained, fun entry hentry c hcarries => ?_⟩
    · obtain ⟨hends, hroute⟩ := htravels.ends a ha
      exact ⟨hroute.targetClass.trans hclass.eq, fun visit hvisit => (hends.fits visit hvisit).1⟩
    · exact (htells entry hentry s c hmade hcarries).trans hclass.eq

end Interception
