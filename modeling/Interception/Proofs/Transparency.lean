import Interception.Proofs.Likeness

/-! Transparency. A link is transparent when it passes every call on, as it came and once, and hands back what
comes of it, and when nobody sees what it does besides. Links whose predicate rejects every call are, and so
are interceptors made of advice that returns, if what that advice does is behind the veil. -/

namespace Interception

variable {σ α β : Type}

/-! ### What nobody sees -/

/-- Nothing is done to cursors. -/
def Course.IsQuiet (c : Course σ) : Prop := ∀ moment ∈ c, moment.1 = .other

/-- Nothing changes between the worlds that everyone sees. -/
structure Veil.Unseen (veil : Veil σ) (w w' : World σ) : Prop where
  state : veil.same w.state w'.state
  calls : w'.calls = w.calls
  bindings : w'.bindings = w.bindings
  waiting : w'.waiting = w.waiting
  invocations : w'.invocations = w.invocations
  journal : ∃ entries, w'.journal.toList = w.journal.toList ++ entries ∧
    ∀ entry ∈ entries, entry.mark? = none ∧ entry.seen veil = none

/-- The outer run comes to what the inner one comes to, which is part of it, apart from what nobody sees. -/
structure Veil.Encloses (veil : Veil σ) (inner outer : (Ending α × World σ) × Course σ) : Prop where
  ending : outer.1.1 = inner.1.1
  unseen : veil.Unseen inner.1.2 outer.1.2
  course : ∃ c c', outer.2 = c ++ inner.2 ++ c' ∧ c.IsQuiet ∧ c'.IsQuiet

/-- The behaviour advances its invocation once, and does nothing else that anybody sees. -/
def Behaviour.IsTransparent (veil : Veil σ) (b : Behaviour σ) : Prop :=
  ∀ (directory : Directory σ) (told : Engine.Accounts σ) r w, ∃ v, veil.Unseen w v ∧
    veil.Encloses (told (.proceed r) v) (b.account directory told r w)

/-- The link passes every call on: its predicate rejects them all, or its interceptor is transparent. -/
def Link.IsTransparent (veil : Veil σ) : Link σ → Prop
  | .plain interceptor => interceptor.behaviour.IsTransparent veil
  | .dynamic _ accepts =>
    ∀ method targetClass arguments, accepts method targetClass arguments = Consultation.answer false

/-- The run finishes with an answer that has the property, and nobody sees what else it does. -/
def Account.Hides (veil : Veil σ) (p : Account σ α) (P : α → Prop) : Prop :=
  ∀ w, ∃ a v c, P a ∧ p w = ((.finished a, v), c) ∧ veil.Unseen w v ∧ c.IsQuiet

/-- The query gives an answer that has the property, and nobody sees what else it does. -/
def Consultation.IsPrivate (veil : Veil σ) (q : Query σ α) (P : α → Prop) : Prop :=
  ∀ s, (∃ a, P a ∧ (q s).result = .ok a) ∧ veil.same s (q s).state ∧
    ∀ text ∈ (q s).written, veil.own text

def Program.IsPrivate (veil : Veil σ) (p : Program σ α) (P : α → Prop) : Prop :=
  ∀ directory told, (p.account directory told).Hides veil P

variable {veil : Veil σ}

namespace Course

theorem isQuiet_nil : Course.IsQuiet ([] : Course σ) := fun _ h => absurd h List.not_mem_nil

theorem isQuiet_other (w : World σ) : Course.IsQuiet [(.other, w)] :=
  fun _ h => List.mem_singleton.mp h ▸ rfl

theorem IsQuiet.append {c d : Course σ} (hc : c.IsQuiet) (hd : d.IsQuiet) : Course.IsQuiet (c ++ d) :=
  List.forall_mem_append.mpr ⟨hc, hd⟩

end Course

namespace Veil

variable {w w' w'' : World σ}

theorem Unseen.refl (w : World σ) : veil.Unseen w w where
  state := veil.equivalence.refl _
  calls := rfl
  bindings := rfl
  waiting := rfl
  invocations := rfl
  journal := ⟨[], (List.append_nil _).symm, fun _ h => absurd h List.not_mem_nil⟩

theorem Unseen.trans (h : veil.Unseen w w') (h' : veil.Unseen w' w'') : veil.Unseen w w'' where
  state := veil.equivalence.trans h.state h'.state
  calls := h'.calls.trans h.calls
  bindings := h'.bindings.trans h.bindings
  waiting := h'.waiting.trans h.waiting
  invocations := h'.invocations.trans h.invocations
  journal := by
    obtain ⟨entries, hjournal, hentries⟩ := h.journal
    obtain ⟨entries', hjournal', hentries'⟩ := h'.journal
    exact ⟨entries ++ entries', by rw [hjournal', hjournal, List.append_assoc],
      List.forall_mem_append.mpr ⟨hentries, hentries'⟩⟩

theorem unseen_report (w : World σ) (e : Event) : veil.Unseen w (w.record [.event e]) :=
  { Unseen.refl w with
    journal := ⟨[.event e], Array.toList_appendList, List.forall_mem_singleton.mpr ⟨rfl, rfl⟩⟩ }

theorem unseen_consult (w : World σ) {q : Query σ α} {P : α → Prop} (hq : q.IsPrivate veil P) :
    veil.Unseen w (w.consult (Inquiry.consult q)).2 where
  state := (hq w.state).2.1
  calls := rfl
  bindings := rfl
  waiting := rfl
  invocations := rfl
  journal := by
    refine ⟨(q w.state).written.map Entry.note, Array.toList_appendList, fun entry hentry => ?_⟩
    obtain ⟨text, htext, rfl⟩ := List.mem_map.mp hentry
    exact ⟨rfl, if_pos ((hq w.state).2.2 text htext)⟩

theorem Encloses.refl (x : (Ending α × World σ) × Course σ) : veil.Encloses x x where
  ending := rfl
  unseen := .refl _
  course := ⟨[], [], by simp, Course.isQuiet_nil, Course.isQuiet_nil⟩

end Veil

/-! ### Hidden runs -/

namespace Account

variable {P : α → Prop} {Q : β → Prop}

theorem hides_finish {a : α} (ha : P a) : (finish a : Account σ α).Hides veil P :=
  fun w => ⟨a, w, [], ha, rfl, .refl w, Course.isQuiet_nil⟩

theorem Hides.andThen {p : Account σ α} {k : α → Account σ β} (hp : p.Hides veil P)
    (hk : ∀ a, P a → (k a).Hides veil Q) : (p.andThen k).Hides veil Q := by
  intro w
  obtain ⟨a, v, c, ha, hrun, hunseen, hquiet⟩ := hp w
  obtain ⟨b, v', c', hb, hrun', hunseen', hquiet'⟩ := hk a ha v
  refine ⟨b, v', c ++ c', hb, ?_, hunseen.trans hunseen', hquiet.append hquiet'⟩
  rw [Account.andThen, hrun]
  dsimp only
  rw [hrun']

theorem hides_look {r : Ref} {k : Invocation σ → Account σ α} (hk : ∀ i, (k i).Hides veil P) :
    (look r k).Hides veil P :=
  fun w => hk (w.invocation r) w

theorem hides_report (e : Event) : (aside (Run.report e) : Account σ Unit).Hides veil fun _ => True :=
  fun w => ⟨(), _, _, trivial, rfl, Veil.unseen_report w e, Course.isQuiet_other _⟩

theorem hides_consult {q : Query σ α} (hq : q.IsPrivate veil P) :
    (aside (Run.consult q)).Hides veil P := by
  intro w
  obtain ⟨a, ha, hresult⟩ := (hq w.state).1
  let v := (w.consult (Inquiry.consult q)).2
  have hrun : Run.consult q w = (.finished a, v) := by
    have hanswer : (w.consult (Inquiry.consult q)).1 = .ok a := hresult
    rw [Run.consult, Run.inquire_eq]
    generalize hreply : w.consult (Inquiry.consult q) = x at hanswer ⊢
    obtain ⟨result, v'⟩ := x
    cases hanswer
    exact congrArg (fun x => (Ending.finished a, x)) (congrArg Prod.snd hreply).symm
  have haside : aside (Run.consult q) w = ((.finished a, v), [(.other, v)]) := by rw [aside, hrun]
  exact ⟨a, v, _, ha, haside, Veil.unseen_consult w hq, Course.isQuiet_other v⟩

/-- What goes on after a run and changes nothing of its outcome encloses it. -/
theorem encloses_andThen {p : Account σ α} {k : α → Account σ α} (hk : ∀ a, (k a).Hides veil (· = a))
    (w : World σ) : veil.Encloses (p w) (p.andThen k w) := by
  simp only [Account.andThen]
  generalize p w = x
  obtain ⟨⟨ending, v⟩, c⟩ := x
  cases ending with
  | finished a =>
    obtain ⟨_, v', c', rfl, hrun, hunseen, hquiet⟩ := hk a v
    dsimp only
    rw [hrun]
    exact ⟨rfl, hunseen, [], c', rfl, Course.isQuiet_nil, hquiet⟩
  | unwinding panic => exact .refl _
  | outOfDepth => exact .refl _

/-- What nobody sees may be done first. -/
theorem Hides.encloses {p : Account σ α} {k : α → Account σ β} {inner : Account σ β}
    (hp : p.Hides veil P) (hk : ∀ a, P a → ∀ v, veil.Encloses (inner v) (k a v)) (w : World σ) :
    ∃ v, veil.Unseen w v ∧ veil.Encloses (inner v) (p.andThen k w) := by
  obtain ⟨a, v, c, ha, hrun, hunseen, hquiet⟩ := hp w
  obtain ⟨hending, hthen, d, d', hcourse, hd, hd'⟩ := hk a ha v
  refine ⟨v, hunseen, ?_⟩
  rw [Account.andThen, hrun]
  exact ⟨hending, hthen, c ++ d, d', by simp [hcourse], hquiet.append hd, hd'⟩

end Account

/-! ### Private programs -/

namespace Program

variable {P : α → Prop} {Q : β → Prop}

theorem isPrivate_done {a : α} (ha : P a) : (done a : Program σ α).IsPrivate veil P :=
  fun _ _ => Account.hides_finish ha

theorem isPrivate_consult {q : Query σ α} (hq : q.IsPrivate veil P) : (consult q).IsPrivate veil P :=
  fun _ _ => Account.hides_consult hq

theorem IsPrivate.andThen {p : Program σ α} {next : α → Program σ β} (hp : p.IsPrivate veil P)
    (hnext : ∀ a, P a → (next a).IsPrivate veil Q) : (p.andThen next).IsPrivate veil Q :=
  fun directory told => (hp directory told).andThen fun a ha => hnext a ha directory told

end Program

/-! ### Transparent behaviours -/

namespace Behaviour

/-- Around advice is transparent when it does what nobody sees, proceeds once, again does what nobody sees,
and ends with the outcome. -/
theorem isTransparent_around {first : Ref → Program σ α} {last : Ref → α → Outcome → Program σ β}
    (hfirst : ∀ r, (first r).IsPrivate veil fun _ => True)
    (hlast : ∀ r a outcome, (last r a outcome).IsPrivate veil fun _ => True) :
    (around fun r => (first r).andThen fun a => (Program.proceed r).andThen fun outcome =>
      (last r a outcome).andThen fun _ => .done outcome).IsTransparent veil :=
  fun directory told r w => (hfirst r directory told).encloses (fun a _ v =>
    Account.encloses_andThen (fun outcome =>
      (hlast r a outcome directory told).andThen fun _ _ => Account.hides_finish rfl) v) w

theorem isTransparent_instrumented (label : String) :
    (instrumented label : Behaviour σ).IsTransparent veil :=
  fun _ _ _ w => ⟨w, .refl w, Account.encloses_andThen (fun _ =>
    (Account.hides_look fun _ => Account.hides_report _).andThen fun _ _ => Account.hides_finish rfl) w⟩

theorem isTransparent_before {advice : BeforeAdvice σ}
    (hadvice : ∀ method arguments this, (advice method arguments this).IsPrivate veil (· = .ok ())) :
    (before advice).IsTransparent veil := by
  intro directory told r w
  refine Account.Hides.encloses (Account.hides_look fun i => hadvice _ _ _ directory told)
    (fun result hresult v => ?_) w
  subst hresult
  exact .refl _

theorem isTransparent_afterReturning {advice : AfterReturningAdvice σ}
    (hadvice : ∀ returned method arguments this,
      (advice returned method arguments this).IsPrivate veil (· = .ok ())) :
    (afterReturning advice).IsTransparent veil := by
  refine fun directory told r w => ⟨w, .refl w, Account.encloses_andThen (fun outcome => ?_) w⟩
  cases outcome with
  | error failure => exact Account.hides_finish rfl
  | ok returned =>
    have hlook := Account.hides_look (r := r) fun i =>
      hadvice returned i.method i.arguments i.this directory told
    refine hlook.andThen fun result hresult => ?_
    subst hresult
    exact Account.hides_finish rfl

theorem isTransparent_afterThrowing {advice : ThrowsAdvice σ}
    (hhandles : ∀ failure, (advice.handles failure).IsPrivate veil fun _ => True)
    (hadvice : ∀ r failure, (advice.afterThrowing r failure).IsPrivate veil (· = .ok ())) :
    (afterThrowing advice).IsTransparent veil := by
  refine fun directory told r w => ⟨w, .refl w, Account.encloses_andThen (fun outcome => ?_) w⟩
  cases outcome with
  | ok returned => exact Account.hides_finish rfl
  | error failure =>
    refine (Account.hides_consult (hhandles failure)).andThen fun handled _ => ?_
    cases handled with
    | false => exact Account.hides_finish rfl
    | true =>
      rw [if_pos rfl]
      refine (Account.hides_look fun _ => Account.hides_report _).andThen fun _ _ => ?_
      refine (hadvice r failure directory told).andThen fun result hresult => ?_
      subst hresult
      exact Account.hides_finish rfl

end Behaviour

end Interception
