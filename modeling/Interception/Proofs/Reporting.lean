import Interception.Proofs.Footprints
import Interception.Proofs.Polling

/-! The events that follow a call on its way: that an interceptor is entered, that a link is passed over,
that the target is run. Each of them is written just before that is done, and nothing of the kind is done
without such an event, with one exception: a call to which no advice applies runs its target at once, and
no event tells of it. -/

namespace Interception

variable {σ : Type}

/-- The event reports a step of a call on its way. -/
def Event.IsStep : Event → Prop
  | .entering _ _ | .enteringDynamic _ _ | .skipping _ _ | .invokingTarget _ _ => True
  | _ => False

namespace Occurrence

/-- A step of a call on its way. -/
def IsStep : Occurrence → Prop
  | .entered _ _ _ _ _ _ | .skipped _ _ | .reached _ _ _ _ _ _ => True
  | _ => False

/-- The target is run for a call that passes no chain. -/
def IsDirect : Occurrence → Prop
  | .reached none _ _ _ _ _ => True
  | _ => False

end Occurrence

def Entry.IsStep : Entry → Prop
  | .note _ => False
  | .event e => e.IsStep
  | .occurrence o => o.IsStep

namespace World

/-- The event reports the occurrence: it is about the same call and the same position, at which a link of
the kind stands that the event tells, or about a run of the target with the same method. -/
def Reports (w : World σ) : Event → Occurrence → Prop
  | .entering call position, .entered r place _ _ _ _ =>
    (w.invocation r).call = call ∧ place = position ∧
      (w.invocation r).chain.kinds[position]? = some .interceptor
  | .enteringDynamic call position, .entered r place _ _ _ _ =>
    (w.invocation r).call = call ∧ place = position ∧
      (w.invocation r).chain.kinds[position]? = some .dynamic
  | .skipping call position, .skipped r place =>
    (w.invocation r).call = call ∧ place = position ∧
      (w.invocation r).chain.kinds[position]? = some .dynamic
  | .invokingTarget _ method, .reached (some _) _ called _ _ _ => called = method
  | _, _ => False

/-- In the entries, each event that reports a step is followed at once by the step, and no step is without
its event, unless it is spared. -/
inductive Logs (w : World σ) (spared : Occurrence → Prop) : List Entry → Prop where
  | nil : Logs w spared []
  | other {entry : Entry} {rest : List Entry} (h : ¬entry.IsStep) (later : Logs w spared rest) :
    Logs w spared (entry :: rest)
  | reported {e : Event} {o : Occurrence} {rest : List Entry} (h : w.Reports e o)
    (later : Logs w spared rest) : Logs w spared (.event e :: .occurrence o :: rest)
  | unreported {o : Occurrence} {rest : List Entry} (h : spared o) (later : Logs w spared rest) :
    Logs w spared (.occurrence o :: rest)

/-- The entries are a faithful record of the steps. -/
def IsFaithful (w : World σ) (entries : List Entry) : Prop := w.Logs (fun _ => False) entries

variable {w w' : World σ} {spared : Occurrence → Prop} {entries more : List Entry}

theorem Logs.append (h : w.Logs spared entries) (h' : w.Logs spared more) :
    w.Logs spared (entries ++ more) := by
  induction h with
  | nil => exact h'
  | other hother _ ih => exact .other hother ih
  | reported hreports _ ih => exact .reported hreports ih
  | unreported hspared _ ih => exact .unreported hspared ih

/-- A report is of a step, and never of a target that is run at once. -/
theorem Reports.step {e : Event} {o : Occurrence} (h : w.Reports e o) : o.IsStep ∧ ¬o.IsDirect := by
  cases o with
  | entered => exact ⟨trivial, id⟩
  | skipped => exact ⟨trivial, id⟩
  | reached invocation =>
    cases invocation with
    | none => cases e <;> exact h.elim
    | some r => exact ⟨trivial, id⟩
  | _ => cases e <;> exact h.elim

/-- With no target run at once, the record is faithful, and only then. -/
theorem Logs.faithful_iff (h : w.Logs Occurrence.IsDirect entries) :
    w.IsFaithful entries ↔ ∀ o, .occurrence o ∈ entries → ¬o.IsDirect := by
  constructor
  · intro hfaithful
    clear h
    induction hfaithful with
    | nil => exact fun o ho => absurd ho List.not_mem_nil
    | @other entry rest hother _ ih =>
      intro o ho hdirect
      rcases List.mem_cons.mp ho with rfl | ho
      · cases o with
        | reached => exact hother trivial
        | _ => exact hdirect.elim
      · exact ih o ho hdirect
    | @reported e o' rest hreports _ ih =>
      intro o ho
      rcases List.mem_cons.mp ho with ho | ho
      · cases ho
      · rcases List.mem_cons.mp ho with ho | ho
        · cases ho
          exact hreports.step.2
        · exact ih o ho
    | unreported hspared => exact hspared.elim
  · intro hnone
    induction h with
    | nil => exact .nil
    | other hother _ ih => exact .other hother (ih fun o ho => hnone o (List.mem_cons_of_mem _ ho))
    | reported hreports _ ih =>
      exact .reported hreports
        (ih fun o ho => hnone o (List.mem_cons_of_mem _ (List.mem_cons_of_mem _ ho)))
    | unreported hdirect => exact absurd hdirect (hnone _ List.mem_cons_self)

/-! ### What is written aside, and what an advance leaves -/

theorem logs_notes (w : World σ) (spared : Occurrence → Prop) (notes : List String) :
    w.Logs spared (notes.map .note) := by
  induction notes with
  | nil => exact .nil
  | cons note rest ih => exact .other id ih

theorem Aside.step_direct {entry : Entry} (h : w.Aside entry) :
    ¬entry.IsStep ∨ ∃ o, entry = .occurrence o ∧ o.IsDirect := by
  cases entry with
  | note text => exact .inl id
  | event e =>
    left
    cases e with
    | chainResolved => exact id
    | handlingFailure => exact id
    | _ => exact h.elim
  | occurrence o =>
    cases o with
    | reached invocation =>
      cases invocation with
      | none => exact .inr ⟨_, rfl, trivial⟩
      | some r => exact h.elim
    | asked | answered | bound | replaced => exact .inl id
    | _ => exact h.elim

theorem logs_of_aside (u : World σ) (h : ∀ entry ∈ entries, w.Aside entry) :
    u.Logs Occurrence.IsDirect entries := by
  induction entries with
  | nil => exact .nil
  | cons entry rest ih =>
    have hrest := ih fun e he => h e (List.mem_cons_of_mem _ he)
    rcases (h entry List.mem_cons_self).step_direct with hother | ⟨o, rfl, hdirect⟩
    · exact .other hother hrest
    · exact .unreported hdirect hrest

end World

open World in
/-- The footprints of an invocation are a faithful record, as long as it stays on its route. -/
theorem Footprints.logs {r : Ref} {i : Invocation σ} {position : Nat} {links : List (Link σ)}
    {entries : List Entry} {stop : Stop σ} (h : Footprints r i position links entries stop)
    (spared : Occurrence → Prop) (u : World σ) (hlinks : i.chain.links.drop position = links)
    (hroute : links ≠ [] → i.SameRoute (u.invocation r)) : u.Logs spared entries := by
  have hkind : ∀ {position : Nat} {link : Link σ} {rest : List (Link σ)},
      i.chain.links.drop position = link :: rest → i.SameRoute (u.invocation r) →
      (u.invocation r).call = i.call ∧ (u.invocation r).chain.kinds[position]? = some link.kind := by
    intro position link rest hdrop hsame
    refine ⟨hsame.call, ?_⟩
    rw [hsame.chain, Chain.kinds, List.getElem?_map, getElem?_of_drop hdrop]
    rfl
  induction h with
  | reached => exact .reported rfl .nil
  | plain =>
    obtain ⟨hcall, hkind⟩ := hkind hlinks (hroute (List.cons_ne_nil _ _))
    exact .reported ⟨hcall, rfl, hkind⟩ .nil
  | admitted asked notes =>
    obtain ⟨hcall, hkind⟩ := hkind hlinks (hroute (List.cons_ne_nil _ _))
    refine .other id ((u.logs_notes spared notes).append ?_)
    exact .reported ⟨hcall, rfl, hkind⟩ .nil
  | unwound asked notes => exact .other id (u.logs_notes spared notes)
  | skipped asked notes later ih =>
    have hsame := hroute (List.cons_ne_nil _ _)
    obtain ⟨hcall, hkind⟩ := hkind hlinks hsame
    have hlater := ih (drop_succ_of_drop hlinks) fun _ => hsame
    refine .other id ((u.logs_notes spared notes).append ?_)
    exact .reported ⟨hcall, rfl, hkind⟩ hlater

namespace World

/-- Whatever is done, what the journal gains by it is a record in which nothing is unreported but a target
that is run at once, read at any later moment. -/
theorem progress_logs : Progress fun w w' : World σ =>
    w.Continues w' ∧ ∃ gained, w.Gains gained w' ∧
      ∀ u, w'.Continues u → u.Logs Occurrence.IsDirect gained where
  refl w := ⟨.refl w, [], w.gains_nil, fun _ _ => .nil⟩
  trans := by
    rintro w w' w'' ⟨hcontinues, gained, hgained, hlogs⟩ ⟨hcontinues', more, hmore, hlogs'⟩
    exact ⟨hcontinues.trans hcontinues', gained ++ more, hgained.append hmore,
      fun u hu => (hlogs u (hcontinues'.trans hu)).append (hlogs' u hu)⟩
  stroke h := by
    obtain ⟨gained, hgained, haside⟩ := h.told
    exact ⟨progress_continues.stroke h, gained, hgained, fun u _ => logs_of_aside u haside⟩
  advance w r := by
    have hcontinues := progress_continues.advance w r
    obtain ⟨entries, hgained, hprints⟩ := w.footprints_advance r
    exact ⟨hcontinues, _, hgained, fun u hu =>
      .other id (hprints.logs _ u rfl ((hcontinues.trans hu).route_ahead r))⟩
  push w i := ⟨w.continues_push i, [], gains_of_eq rfl, fun _ _ => .nil⟩
  report w e he := by
    refine ⟨progress_continues.report w he, [.event e], w.gains_record _, fun u _ => .other ?_ .nil⟩
    cases e with
    | completed => exact id
    | failed => exact id
    | _ => exact he.elim

end World

namespace Proxy

variable (p : Proxy σ) (directory : Directory σ) (depth : Nat) (request : Request) (target : Target σ)
  (w : World σ)

/-- A call to which no advice applies runs its target at once. -/
theorem ended_of_isEmpty {chain : Chain σ}
    (hchain : (p.chainFor request.method request.targetClass w.state).result = .ok (.ok chain))
    (hempty : chain.isEmpty = true) :
    let v := p.resolved request w
    p.ended directory depth request target w =
      ((target request.this request.method request.arguments).run directory
        (Engine.ofDepth directory depth)
        (v.record [.occurrence (.reached none request.this request.method request.arguments v.thread
          v.bindings)])).2 := by
  intro v
  have hconsult : w.consult (p.chainFor request.method request.targetClass) = (.ok (.ok chain), v) :=
    Prod.ext hchain rfl
  have hcall : Engine.call directory (Engine.ofDepth directory depth) p request target w =
      target.run directory (Engine.ofDepth directory depth) none request.this request.method
        request.arguments v := by
    rw [Engine.call, Run.inquire_eq, hconsult]
    exact congrFun (if_pos hempty) v
  rw [ended, hcall]
  change (Run.andThen ((target request.this request.method request.arguments).run directory
    (Engine.ofDepth directory depth)) (fun result => Run.finish (result.mapError Failure.target)) _).2 = _
  rw [Run.andThen]
  rcases (target request.this request.method request.arguments).run directory
    (Engine.ofDepth directory depth) _ with ⟨result | panic | _, v'⟩ <;> rfl

theorem direct_of_isEmpty {chain : Chain σ}
    (hchain : (p.chainFor request.method request.targetClass w.state).result = .ok (.ok chain))
    (hempty : chain.isEmpty = true) {gained : List Entry}
    (hgained : w.Gains gained (p.ended directory depth request target w)) :
    ∃ o, .occurrence o ∈ gained ∧ o.IsDirect := by
  rw [p.ended_of_isEmpty directory depth request target w hchain hempty] at hgained
  let v := p.resolved request w
  let direct : Occurrence :=
    .reached none request.this request.method request.arguments v.thread v.bindings
  obtain ⟨_, more, hmore, _⟩ := ((target request.this request.method request.arguments).unfolds_course
    directory depth _).progress World.progress_logs
  have hreached := (w.gains_consult (p.chainFor request.method request.targetClass)).append
    (v.gains_record [.occurrence direct])
  have heq : gained = _ := List.append_cancel_left (hgained.symm.trans (hreached.append hmore))
  refine ⟨direct, ?_, trivial⟩
  rw [heq]
  exact List.mem_append_left _ (List.mem_append_right _ List.mem_cons_self)

end Proxy

/-- **What the log tells of a call.** Of each interceptor and each target that is run in a call, and of
each link that is passed over, there is one event, just before it, about the same position, and there is
no such event without it, however often advice goes on, forks, or calls again. Only a target that is run
at once, for a call to which no advice applies, has no event: so the log is a faithful record exactly if
neither the call nor one inside of it is of that kind. -/
theorem Proxy.logs_call (p : Proxy σ) (directory : Directory σ) (depth : Nat) (request : Request)
    (target : Target σ) (w : World σ) :
    let w' := p.ended directory depth request target w
    ∃ gained, w.Gains gained w' ∧ w'.Logs Occurrence.IsDirect gained ∧
      (w'.IsFaithful gained ↔ ∀ o, .occurrence o ∈ gained → ¬o.IsDirect) ∧
      ∀ chain, (p.chainFor request.method request.targetClass w.state).result = .ok (.ok chain) →
        chain.isEmpty = true → ¬w'.IsFaithful gained := by
  intro w'
  obtain ⟨_, gained, hgained, hlogs⟩ :=
    (p.unfolds_course directory depth request target w).progress World.progress_logs
  have hfaithful := (hlogs w' (.refl w')).faithful_iff
  refine ⟨gained, hgained, hlogs w' (.refl w'), hfaithful, fun chain hchain hempty h => ?_⟩
  obtain ⟨o, ho, hdirect⟩ := p.direct_of_isEmpty directory depth request target w hchain hempty hgained
  exact hfaithful.mp h o ho hdirect

/-- A call through a proxy without advisors: its target is run, and the one event of the log tells that
there is nothing to pass on the way. -/
theorem unlogged_unadvised :
    let p : Proxy Unit := { config := {} }
    let request : Request := { this := .unit, method := default }
    let w : World Unit := { state := () }
    let w' := p.ended (fun _ => none) 1 request (fun _ _ _ => pure (.ok .unit)) w
    let direct : Occurrence := .reached none .unit default [] 0 .empty
    w.Gains [.event (.chainResolved default request.actualClass 0 0), .occurrence direct] w' ∧
      direct.IsStep ∧
      ¬w'.IsFaithful [.event (.chainResolved default request.actualClass 0 0), .occurrence direct] := by
  intro p request w w' direct
  refine ⟨rfl, trivial, fun h => ?_⟩
  have hlogs : w'.Logs Occurrence.IsDirect
      [.event (.chainResolved default request.actualClass 0 0), .occurrence direct] :=
    .other id (.unreported trivial .nil)
  exact hlogs.faithful_iff.mp h direct (List.mem_cons_of_mem _ List.mem_cons_self) trivial

end Interception
