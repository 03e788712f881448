import Interception.Proofs.Mimicry
import Interception.Proofs.Cursor

/-! Shifted cursors. Behind an inserted link the cursors of a call are one further than they would be without
it. Two invocations that walk over the same links from there, or from in front of it, come to the same;
and passing the link itself, when it rejects the call or is entered, is seen by no one. -/

namespace Interception

variable {σ α : Type}

namespace World

/-- A walk that is let in by one of the first links does not come to the others. -/
theorem through_append_of_some (r : Ref) (second : List (Link σ)) {stop : Stop σ} (first : List (Link σ)) :
    ∀ (position : Nat) (w : World σ), (w.through r position first).2.1 = some stop →
      w.through r position (first ++ second) = w.through r position first := by
  induction first with
  | nil => exact fun _ _ h => nomatch h
  | cons link rest ih =>
    intro position w h
    rw [through] at h
    rw [List.cons_append, through, through]
    generalize w.visit r position link = x at h ⊢
    obtain ⟨visit, _ | stop', v⟩ := x
    · dsimp only at h ⊢
      rw [ih (position + 1) v h]
    · rfl

/-- A walk that none of the first links lets in goes on with the others. -/
theorem through_append_of_none (r : Ref) (second : List (Link σ)) (first : List (Link σ)) :
    ∀ (position : Nat) (w : World σ) {visits : List Visit} {v : World σ},
      w.through r position first = (visits, none, v) →
        w.through r position (first ++ second) =
          (visits ++ (v.through r (position + first.length) second).1,
            (v.through r (position + first.length) second).2) := by
  induction first with
  | nil =>
    intro position w visits v h
    cases h
    rfl
  | cons link rest ih =>
    intro position w visits v h
    rw [through] at h
    rw [List.cons_append, through]
    generalize w.visit r position link = x at h ⊢
    obtain ⟨visit, _ | stop, v'⟩ := x
    · dsimp only at h ⊢
      generalize hrest : v'.through r (position + 1) rest = y at h
      obtain ⟨visits', stop', v''⟩ := y
      cases h
      rw [ih (position + 1) v' hrest, List.length_cons, Nat.add_assoc position 1, Nat.add_comm 1]
      rfl
    · cases h

theorem invocation_through {β : Type} {f : Invocation σ → β} (hf : ∀ i n, f { i with entered := n } = f i)
    (w : World σ) (r s : Ref) (position : Nat) (links : List (Link σ)) :
    f ((w.through r position links).2.2.invocation s) = f (w.invocation s) := by
  refine keeps_through (P := fun v => f (v.invocation s) = f (w.invocation s)) ?_ links position w rfl
  intro v position link hv
  rw [invocation_visit, ← hv]
  obtain ⟨_, _, hthen⟩ | ⟨_, hthen⟩ := Insertion.update_cases v r s fun i =>
    { i with entered := i.entered + 1 }
  · rw [stepOver, hthen, hf]
  · rw [stepOver, hthen]

end World

namespace Insertion

variable {I : Insertion σ} {w w' v v' : World σ} {r : Ref} {i i' : Invocation σ} {p q : Nat}

/-- A link of the invocation that stands at `p` stands at `q` once the other one is inserted. -/
def Lies (I : Insertion σ) (call : CallId) (p q : Nat) : Prop :=
  call = I.call ∧ (p < I.position ∧ q = p ∨ I.position ≤ p ∧ q = p + 1) ∨ call ≠ I.call ∧ q = p

theorem lowered_of_lies {m : Nat} (h : p < m ∧ q = p ∨ m ≤ p ∧ q = p + 1) : lowered m q = some p := by
  rw [lowered]
  obtain ⟨hlt, rfl⟩ | ⟨hle, rfl⟩ := h
  · rw [if_pos hlt]
  · rw [if_neg (by omega), if_neg (by omega), Nat.add_sub_cancel]

theorem Lies.lowerFor {call : CallId} (h : I.Lies call p q) : I.lowerFor call q = some p := by
  rw [Insertion.lowerFor]
  obtain ⟨hcall, hplace⟩ | ⟨hcall, rfl⟩ := h
  · rw [if_pos hcall, lowered_of_lies hplace]
  · rw [if_neg hcall]

theorem Lies.lower {ours : Ref → Bool} (h : I.Lies (w.invocation r).call p q) (hours : I.Fits ours w)
    (hr : r.index < w.invocations.size) : I.lower ours r q = some p := by
  have hfits := hours r hr
  rw [Insertion.lower]
  obtain ⟨hcall, hplace⟩ | ⟨hcall, rfl⟩ := h
  · rw [if_pos (hfits.mpr hcall), lowered_of_lies hplace]
  · rw [if_neg (fun h => hcall (hfits.mp h))]

theorem Twins.step (h : I.Twins i i') (hlies : I.Lies i.call i.entered i'.entered) :
    I.Twins { i with entered := i.entered + 1 } { i' with entered := i'.entered + 1 } := by
  refine ⟨by rw [h.same], ⟨h.blind.chain, h.blind.target⟩, ?_⟩
  obtain ⟨hcall, hchain, hchain', hshifted⟩ | ⟨hself, hnone⟩ := h.place
  · obtain ⟨_, hplace⟩ | ⟨hother, _⟩ := hlies
    · have hstepped : I.Shifted (i.entered + 1) (i'.entered + 1) := by
        rw [Shifted]
        omega
      exact .inl ⟨hcall, hchain, hchain', hstepped⟩
    · exact absurd hcall hother
  · exact .inr ⟨by rw [hself], hnone⟩

theorem Alike.stepOver (h : I.Alike w w')
    (hlies : I.Lies (w.invocation r).call (w.invocation r).entered (w'.invocation r).entered) :
    I.Alike (w.stepOver r) (w'.stepOver r) :=
  h.update r (fun _ => rfl) fun _ => (h.twins r).step hlies

theorem Alike.record_placed (h : I.Alike w w') (hr : r.index < w.invocations.size)
    (hlies : I.Lies (w.invocation r).call p q) {entry entry' : Entry}
    (hentry : ∀ change : Ref → Nat → Option Nat, change r q = some p →
      entry'.relocate change = some entry) :
    I.Alike (w.record [entry]) (w'.record [entry']) := by
  refine h.record fun ours hours => ?_
  have hrelocate := hentry (I.lower ours) (hlies.lower hours hr)
  simp [seenWithout, List.filterMap_cons, hrelocate]

theorem Alike.ask (h : I.Alike w w') (hr : r.index < w.invocations.size)
    (hlies : I.Lies (w.invocation r).call p q) {accepts : ArgumentPredicate σ}
    (haccepts : ∀ method targetClass arguments, (accepts method targetClass arguments).Respects I.veil) :
    (w'.ask r q accepts).1 = (w.ask r p accepts).1 ∧
      I.Alike (w.ask r p accepts).2 (w'.ask r q accepts).2 := by
  have htwins := h.twins r
  rw [World.ask, World.ask, htwins.targetClass, htwins.arguments, htwins.method]
  refine Alike.query ?_ (haccepts _ _ _)
  exact h.record_placed hr hlies fun change hchange => by simp [Entry.relocate, hchange]

theorem Alike.report (h : I.Alike w w') (event event' : Event) :
    I.Alike (w.record [.event event]) (w'.record [.event event']) :=
  h.record fun _ _ => rfl

theorem Alike.enter (h : I.Alike w w') (hr : r.index < w.invocations.size)
    (hlies : I.Lies (w.invocation r).call p q)
    (hp : (w.invocation r).position = some p) (hq : (w'.invocation r).position = some q)
    (event event' : Event) : I.Alike (w.enter r p event) (w'.enter r q event') := by
  have htwins := h.twins r
  have hthread : w'.thread = w.thread := congrArg List.length h.waiting
  rw [World.enter, World.enter, hp, hq, htwins.arguments, hthread, h.bindings]
  exact (h.report event event').record_placed hr hlies fun change hchange => by simp [Entry.relocate, hchange]

theorem Alike.skip (h : I.Alike w w') (hr : r.index < w.invocations.size)
    (hlies : I.Lies (w.invocation r).call p q) : I.Alike (w.skip r p) (w'.skip r q) := by
  rw [World.skip, World.skip]
  exact (h.report _ _).record_placed hr hlies fun change hchange => by simp [Entry.relocate, hchange]

theorem Alike.reach (h : I.Alike w w') (r : Ref) : I.Alike (w.reach r) (w'.reach r) := by
  have htwins := h.twins r
  have hthread : w'.thread = w.thread := congrArg List.length h.waiting
  rw [World.reach, World.reach, htwins.this, htwins.method, htwins.arguments, hthread, h.bindings]
  refine (h.report _ _).record fun ours _ => ?_
  rfl

/-! ### Walks -/

/-- What is run in both, at places that differ by the inserted link alone. -/
inductive StopsAlike (I : Insertion σ) (call : CallId) : Stop σ → Stop σ → Prop where
  | entered {p q : Nat} {current current' : Option Nat} {behaviour : Behaviour σ}
    (hplace : I.lowerFor call q = some p) (hblind : behaviour.IsBlind I.veil) :
    StopsAlike I call (.entered p current behaviour) (.entered q current' behaviour)
  | reached : StopsAlike I call .reached .reached
  | unwound (panic : Panic) : StopsAlike I call (.unwound panic) (.unwound panic)

theorem Alike.visit (h : I.Alike w w') (hr : r.index < w.invocations.size) {link : Link σ}
    (hlink : link.IsBlind I.veil) (hp : (w.invocation r).entered = p) (hq : (w'.invocation r).entered = q)
    (hlies : I.Lies (w.invocation r).call p q) :
    let x := w.visit r p link
    let x' := w'.visit r q link
    I.Alike x.2.2 x'.2.2 ∧ x'.1.verdict = x.1.verdict ∧
      Option.Rel (I.StopsAlike (w.invocation r).call) x.2.1 x'.2.1 := by
  have hr' : r.index < w'.invocations.size := h.size ▸ hr
  have hstep : I.Alike (w.stepOver r) (w'.stepOver r) := h.stepOver (by rw [hp, hq]; exact hlies)
  have hsize : r.index < (w.stepOver r).invocations.size := by
    rw [World.stepOver, World.size_update]
    exact hr
  have hcall : ((w.stepOver r).invocation r).call = (w.invocation r).call := by rw [World.stepOver_self hr]
  have hlies' : I.Lies ((w.stepOver r).invocation r).call p q := hcall ▸ hlies
  have hposition : ((w.stepOver r).invocation r).position = some p := hp ▸ World.stepOver_position hr
  have hposition' : ((w'.stepOver r).invocation r).position = some q := hq ▸ World.stepOver_position hr'
  cases link with
  | plain interceptor =>
    exact ⟨hstep.enter hsize hlies' hposition hposition' _ _, rfl,
      .some (.entered hlies.lowerFor hlink)⟩
  | dynamic interceptor accepts =>
    -- the predicate is blind, so it gives both the same verdict
    obtain ⟨hverdict, hasked⟩ := hstep.ask hsize hlies' hlink.2
    have hkept : ((w.stepOver r).ask r p accepts).2.invocations = (w.stepOver r).invocations := rfl
    have hkept' : ((w'.stepOver r).ask r q accepts).2.invocations = (w'.stepOver r).invocations := rfl
    simp only [World.visit]
    generalize (w.stepOver r).ask r p accepts = x at hverdict hasked hkept ⊢
    generalize (w'.stepOver r).ask r q accepts = x' at hverdict hasked hkept' ⊢
    obtain ⟨verdict, v⟩ := x
    obtain ⟨verdict', v'⟩ := x'
    cases hverdict
    have hthen : v.invocation r = (w.stepOver r).invocation r := congrArg (·.getD r.index default) hkept
    have hthen' : v'.invocation r = (w'.stepOver r).invocation r := congrArg (·.getD r.index default) hkept'
    have hsize : r.index < v.invocations.size := hkept.symm ▸ hsize
    rw [← hthen] at hlies' hposition
    rw [← hthen'] at hposition'
    cases verdict with
    | error panic => exact ⟨hasked, rfl, .some (.unwound panic)⟩
    | ok admitted =>
      cases admitted with
      | true =>
        exact ⟨hasked.enter hsize hlies' hposition hposition' _ _, rfl,
          .some (.entered hlies.lowerFor hlink.1)⟩
      | false => exact ⟨hasked.skip hsize hlies', rfl, .none⟩

/-- What two walks have come to, apart from the inserted link. -/
structure WalksAlike (I : Insertion σ) (call : CallId)
    (x x' : List Visit × Option (Stop σ) × World σ) : Prop where
  alike : I.Alike x.2.2 x'.2.2
  places : x'.1.filterMap (fun v => v.place?.bind (relocatePlace (I.lowerFor call))) =
    x.1.filterMap Visit.place?
  stops : Option.Rel (I.StopsAlike call) x.2.1 x'.2.1

theorem visit_position (w : World σ) (r : Ref) (position : Nat) (link : Link σ) :
    (w.visit r position link).1.position = position := by
  cases link <;> rfl

theorem Alike.through {call : CallId} (links : List (Link σ)) (hlinks : ∀ link ∈ links, link.IsBlind I.veil) :
    ∀ (w w' : World σ) (p q : Nat), I.Alike w w' → r.index < w.invocations.size →
      (w.invocation r).call = call → (w.invocation r).entered = p → (w'.invocation r).entered = q →
      (∀ k < links.length, I.Lies call (p + k) (q + k)) →
      I.WalksAlike call (w.through r p links) (w'.through r q links) := by
  induction links with
  | nil => exact fun w w' p q h _ _ _ _ _ => ⟨h, rfl, .none⟩
  | cons link rest ih =>
    intro w w' p q h hr hcall hp hq hlies
    obtain ⟨hlink, hrest⟩ := List.forall_mem_cons.mp hlinks
    have hhere : I.Lies call p q := hlies 0 (Nat.succ_pos _)
    obtain ⟨hthen, hverdict, hstops⟩ := h.visit hr hlink hp hq (hcall ▸ hhere)
    have hposition := visit_position w r p link
    have hposition' := visit_position w' r q link
    have hkept := (w.invocation_visit r p link r).trans (World.stepOver_self hr)
    have hkept' := (w'.invocation_visit r q link r).trans (World.stepOver_self (h.size ▸ hr))
    have hsize : r.index < (w.visit r p link).2.2.invocations.size := by
      rw [World.invocations_visit, World.stepOver, World.size_update]
      exact hr
    rw [World.through, World.through]
    rw [hcall] at hstops
    generalize w.visit r p link = x at *
    generalize w'.visit r q link = x' at *
    obtain ⟨visit, stop, v⟩ := x
    obtain ⟨visit', stop', v'⟩ := x'
    have hplace : visit'.place?.bind (relocatePlace (I.lowerFor call)) = visit.place? := by
      rw [Visit.place?, Visit.place?, hverdict, hposition, hposition']
      cases visit.verdict with
      | none => rfl
      | some verdict => simp [relocatePlace, hhere.lowerFor]
    cases hstops with
    | some hstop => exact ⟨hthen, by simp [List.filterMap_cons, hplace], .some hstop⟩
    | none =>
      have hwalk := ih hrest v v' (p + 1) (q + 1) hthen hsize (by rw [hkept]; exact hcall)
        (by rw [hkept, hp]) (by rw [hkept', hq]) fun k hk => by
          rw [Nat.add_assoc, Nat.add_assoc, Nat.add_comm 1]
          exact hlies (k + 1) (Nat.succ_lt_succ hk)
      exact ⟨hwalk.alike, by simp only [List.filterMap_cons, hplace, hwalk.places], hwalk.stops⟩

/-! ### Passing the inserted link -/

/-- Entries that no one sees may be written in the longer run alone. -/
theorem Alike.record_right (h : I.Alike w w') {entries : List Entry}
    (hhidden : ∀ ours, I.Fits ours w → I.seenWithout ours entries = []) :
    I.Alike w (w'.record entries) :=
  { h with
    journal := h.journal_append (List.append_nil _).symm Array.toList_appendList
      (fun _ hours => hours) fun ours hours => (hhidden ours hours).symm }

theorem Alike.report_right (h : I.Alike w w') (event : Event) : I.Alike w (w'.record [.event event]) :=
  h.record_right fun _ _ => rfl

theorem Alike.record_hidden (h : I.Alike w w') (hr : r.index < w.invocations.size)
    (hcall : (w.invocation r).call = I.call) {entry : Entry}
    (hentry : ∀ change : Ref → Nat → Option Nat, change r I.position = none → entry.relocate change = none) :
    I.Alike w (w'.record [entry]) := by
  refine h.record_right fun ours hours => ?_
  have hlower : I.lower ours r I.position = none := by
    rw [lower, if_pos ((hours r hr).mpr hcall), lowered, if_neg (Nat.lt_irrefl _), if_pos rfl]
  simp [seenWithout, hentry _ hlower]

theorem Alike.stepOver_right (h : I.Alike w w') (hours : I.Ours (w.invocation r) (w'.invocation r))
    (hp : (w.invocation r).entered = I.position) (hq : (w'.invocation r).entered = I.position) :
    I.Alike w (w'.stepOver r) := by
  refine h.of_twins (Eq.refl w.invocations.size) (w'.size_update r _) (fun _ => rfl) fun s => ?_
  change I.Twins (w.invocation s) ((w'.stepOver r).invocation s)
  obtain ⟨rfl, _, hthen⟩ | ⟨_, hthen⟩ := update_cases w' r s fun i => { i with entered := i.entered + 1 }
  · rw [World.stepOver, hthen]
    refine ⟨by rw [(h.twins r).same], (h.twins r).blind, .inl ⟨hours.call, hours.shorter, hours.longer, ?_⟩⟩
    exact .inr ⟨Nat.le_of_eq hp.symm, by rw [hp, hq]⟩
  · rw [World.stepOver, hthen]
    exact h.twins s

theorem Alike.enter_right (h : I.Alike w w') (hr : r.index < w.invocations.size)
    (hcall : (w.invocation r).call = I.call) (event : Event) :
    I.Alike w (w'.enter r I.position event) :=
  (h.report_right event).record_hidden hr hcall fun change hchange => by
    simp [Entry.relocate, hchange]

theorem Alike.skip_right (h : I.Alike w w') (hr : r.index < w.invocations.size)
    (hcall : (w.invocation r).call = I.call) (interceptor : Interceptor σ) {accepts : ArgumentPredicate σ}
    (haccepts : ∀ method targetClass arguments,
      accepts method targetClass arguments = Consultation.answer false)
    (hours : I.Ours (w.invocation r) (w'.invocation r)) (hp : (w.invocation r).entered = I.position)
    (hq : (w'.invocation r).entered = I.position) :
    let x' := w'.visit r I.position (.dynamic interceptor accepts)
    x'.2.1 = none ∧ I.Alike w x'.2.2 := by
  have hstep := h.stepOver_right hours hp hq
  have hasked : I.Alike w ((w'.stepOver r).ask r I.position accepts).2 := by
    rw [World.ask, haccepts]
    refine Alike.record_right ?_ fun _ _ => rfl
    exact hstep.record_hidden hr hcall fun change hchange => by simp [Entry.relocate, hchange]
  have hverdict : ((w'.stepOver r).ask r I.position accepts).1 = .ok false := by
    rw [World.ask, haccepts]
    rfl
  simp only [World.visit]
  generalize (w'.stepOver r).ask r I.position accepts = x' at hverdict hasked ⊢
  obtain ⟨verdict, v⟩ := x'
  cases hverdict
  refine ⟨rfl, ?_⟩
  exact (hasked.report_right _).record_hidden hr hcall fun change hchange => by
    simp [Entry.relocate, hchange]

/-! ### Links ahead -/

theorem Ours.exists_ (h : I.Alike w w') (hours : I.Ours (w.invocation r) (w'.invocation r)) :
    r.index < w.invocations.size := by
  by_contra hr
  have hout : w'.invocations.size ≤ r.index := h.size.symm ▸ Nat.le_of_not_lt hr
  have hlonger := hours.longer
  rw [World.invocation_of_ge hout] at hlonger
  have hlinks : (default : Invocation σ).chain.links = I.longer.links := congrArg Chain.links hlonger
  exact absurd hlinks.symm (List.append_ne_nil_of_right_ne_nil _ (List.cons_ne_nil _ _))

/-- Behind the insertion the same links are ahead. -/
theorem Ours.ahead_behind (h : I.Ours i i') (hp : I.position ≤ i.entered)
    (hq : i'.entered = i.entered + 1) : i'.ahead = i.ahead := by
  have htake : (I.chain.links.take I.position).length = I.position := List.length_take_of_le I.within
  have hlength : i'.entered - (I.chain.links.take I.position).length = i.entered - I.position + 1 := by
    omega
  rw [Invocation.ahead, Invocation.ahead, h.longer, h.shorter]
  change (I.chain.links.take I.position ++ I.link :: I.chain.links.drop I.position).drop i'.entered = _
  rw [List.drop_append, List.drop_eq_nil_of_le (by omega), List.nil_append, hlength, List.drop_succ_cons,
    List.drop_drop, Nat.add_sub_cancel' hp]

/-- In front of the insertion the inserted link is ahead among the others. -/
theorem Ours.ahead_before (h : I.Ours i i') (hp : i.entered ≤ I.position) (hq : i'.entered = i.entered) :
    ∃ first, first.length = I.position - i.entered ∧
      i.ahead = first ++ I.chain.links.drop I.position ∧
        i'.ahead = first ++ I.link :: I.chain.links.drop I.position := by
  have htake : (I.chain.links.take I.position).length = I.position := List.length_take_of_le I.within
  refine ⟨(I.chain.links.take I.position).drop i.entered, ?_, ?_, ?_⟩
  · rw [List.length_drop, htake]
  · rw [Invocation.ahead, h.shorter, ← List.drop_append_of_le_length (by omega), List.take_append_drop]
  · rw [Invocation.ahead, h.longer, hq, ← List.drop_append_of_le_length (by omega)]
    rfl

/-! ### Walks of twins -/

theorem Alike.through_self (h : I.Alike w w') (hself : w'.invocation r = w.invocation r)
    (hnone : (w.invocation r).call = I.call → (w.invocation r).chain.links = []) :
    I.WalksAlike (w.invocation r).call (w.through r (w.invocation r).entered (w.invocation r).ahead)
      (w'.through r (w.invocation r).entered (w.invocation r).ahead) := by
  cases hahead : (w.invocation r).ahead with
  | nil => exact ⟨h, rfl, .none⟩
  | cons link rest =>
    -- with a link ahead it cannot be of the call, nor be missing
    have hlinks : (w.invocation r).chain.links ≠ [] := by
      intro hempty
      rw [Invocation.ahead, hempty, List.drop_nil] at hahead
      cases hahead
    have hother : (w.invocation r).call ≠ I.call := fun hcall => hlinks (hnone hcall)
    have hr : r.index < w.invocations.size := by
      by_contra hr
      rw [World.invocation_of_ge (Nat.le_of_not_lt hr)] at hlinks
      exact hlinks rfl
    rw [← hahead]
    exact Alike.through _ (fun _ hlink => (h.twins r).blind.chain.of_drop hlink) w w' _ _ h hr rfl rfl
      (by rw [hself]) fun k _ => .inr ⟨hother, rfl⟩

theorem Alike.through_behind (h : I.Alike w w') (hours : I.Ours (w.invocation r) (w'.invocation r))
    (hp : I.position ≤ (w.invocation r).entered)
    (hq : (w'.invocation r).entered = (w.invocation r).entered + 1) :
    I.WalksAlike I.call (w.through r (w.invocation r).entered (w.invocation r).ahead)
      (w'.through r (w'.invocation r).entered (w'.invocation r).ahead) := by
  rw [hours.ahead_behind hp hq]
  refine Alike.through _ (fun _ hlink => (h.twins r).blind.chain.of_drop hlink) w w' _ _ h
    (hours.exists_ h) hours.call rfl rfl fun k _ => .inl ⟨rfl, .inr ⟨?_, ?_⟩⟩
  · omega
  · omega

theorem invocation_through_of_none (hr : r.index < w.invocations.size) (links : List (Link σ))
    (hnone : (w.through r (w.invocation r).entered links).2.1 = none) :
    (w.through r (w.invocation r).entered links).2.2.invocation r =
      { w.invocation r with entered := (w.invocation r).entered + links.length } := by
  have hwalk := World.walk_through r links w (w.invocation r) hr rfl
  generalize w.through r (w.invocation r).entered links = x at hnone hwalk ⊢
  obtain ⟨visits, stop, v⟩ := x
  cases hnone
  obtain ⟨hwalk, hthen⟩ := hwalk
  obtain ⟨_, hlength, _⟩ | ⟨_, _, _, _, _, harrival, _⟩ := hwalk.shape
  · rw [← hlength]
    exact hthen
  · cases harrival

/-- In front of the insertion an invocation walks over the same links in both, up to the inserted one. -/
theorem Alike.through_before (h : I.Alike w w') (hours : I.Ours (w.invocation r) (w'.invocation r))
    (hp : (w.invocation r).entered ≤ I.position)
    (hq : (w'.invocation r).entered = (w.invocation r).entered) {first : List (Link σ)}
    (hlength : first.length = I.position - (w.invocation r).entered)
    (hahead : (w.invocation r).ahead = first ++ I.chain.links.drop I.position) :
    let x := w.through r (w.invocation r).entered first
    let x' := w'.through r (w.invocation r).entered first
    I.WalksAlike I.call x x' ∧
      (x.2.1 = none → I.Ours (x.2.2.invocation r) (x'.2.2.invocation r) ∧
        (x.2.2.invocation r).entered = I.position ∧ (x'.2.2.invocation r).entered = I.position) := by
  have hr := hours.exists_ h
  have hblind : ∀ link ∈ first, link.IsBlind I.veil := fun _ hlink =>
    (h.twins r).blind.chain.of_drop (hahead ▸ List.mem_append_left _ hlink)
  have hwalks : I.WalksAlike I.call (w.through r (w.invocation r).entered first)
      (w'.through r (w.invocation r).entered first) :=
    Alike.through first hblind w w' _ _ h hr hours.call rfl hq
      fun k _ => .inl ⟨rfl, .inl ⟨by omega, rfl⟩⟩
  refine ⟨hwalks, fun hnone => ?_⟩
  have hnone' : (w'.through r (w'.invocation r).entered first).2.1 = none := by
    have hstops := hwalks.stops
    rw [hnone] at hstops
    rw [hq]
    generalize (w'.through r (w.invocation r).entered first).2.1 = stop' at hstops ⊢
    cases hstops
    rfl
  have hthen := invocation_through_of_none hr first hnone
  have hthen' := invocation_through_of_none (h.size ▸ hr) first hnone'
  rw [hq] at hthen'
  have hposition : (w.invocation r).entered + first.length = I.position := by omega
  rw [hthen, hthen', hposition]
  exact ⟨⟨hours.call, hours.shorter, hours.longer, .inl ⟨Nat.le_refl _, rfl⟩⟩, rfl, rfl⟩

/-- Behind the inserted link an invocation walks over the links that are ahead without it. -/
theorem Alike.through_past (h : I.Alike v v') (hours : I.Ours (v.invocation r) i')
    (hp : (v.invocation r).entered = I.position)
    (hpast : v'.invocation r = { i' with entered := I.position + 1 }) :
    (v'.invocation r).ahead = I.chain.links.drop I.position ∧
      I.WalksAlike I.call (v.through r I.position (I.chain.links.drop I.position))
        (v'.through r (I.position + 1) (I.chain.links.drop I.position)) := by
  have hthere : I.Ours (v.invocation r) (v'.invocation r) := by
    rw [hpast]
    exact ⟨hours.call, hours.shorter, hours.longer, .inr ⟨Nat.le_of_eq hp.symm, by rw [hp]⟩⟩
  have hentered : (v'.invocation r).entered = I.position + 1 := by rw [hpast]
  have hahead : (v.invocation r).ahead = I.chain.links.drop I.position := by
    rw [Invocation.ahead, hp, hours.shorter]
  have hahead' := hthere.ahead_behind (Nat.le_of_eq hp.symm) (by rw [hentered, hp])
  have hwalks := h.through_behind hthere (Nat.le_of_eq hp.symm) (by rw [hentered, hp])
  rw [hahead', hahead, hp, hentered] at hwalks
  exact ⟨hahead'.trans hahead, hwalks⟩

end Insertion

end Interception
