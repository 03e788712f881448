import Interception.Proofs.Blindness
import Interception.Proofs.Course

/-! Likeness. A link is inserted into the chain of one call. The worlds of the two runs, with and without it,
are alike as long as they differ in nothing but cursors, which are shifted against each other behind the
insertion, and in what lies behind the veil. Whatever blind code does to both of them leaves them
alike. -/

namespace Interception

universe u

variable {σ α β : Type}

/-- A link that is inserted into the chain of one call. -/
structure Insertion (σ : Type) where
  veil : Veil σ
  call : CallId
  /-- The chain without the link. -/
  chain : Chain σ
  link : Link σ
  /-- Where the link stands once it is inserted. -/
  position : Nat
  within : position ≤ chain.length
  /-- What the journal told before the call was started. -/
  before : List Entry

/-- The chain with the link inserted. -/
def Chain.insert (c : Chain σ) (position : Nat) (link : Link σ) : Chain σ :=
  ⟨c.links.take position ++ link :: c.links.drop position⟩

/-- The position without the inserted link, if another link stands there. -/
def lowered (m q : Nat) : Option Nat := if q < m then some q else if q = m then none else some (q - 1)

/-- The entry with other positions, if there are such. -/
def Entry.relocate (change : Ref → Nat → Option Nat) : Entry → Option Entry
  | .occurrence (.matching r q targetClass arguments) =>
    (change r q).map fun p => .occurrence (.matching r p targetClass arguments)
  | .occurrence (.skipped r q) => (change r q).map fun p => .occurrence (.skipped r p)
  | .occurrence (.entered r q current arguments thread bindings) =>
    (change r q).map fun p =>
      .occurrence (.entered r p (current.bind (change r)) arguments thread bindings)
  | entry => some entry

/-- What everyone sees of an entry: nothing of events and of the notes behind the veil, and not that an
invocation is told to advance. -/
def Entry.seen (veil : Veil σ) : Entry → Option Entry
  | .note text => if veil.own text then none else some (.note text)
  | .event _ => none
  | .occurrence (.proceeding _) => none
  | entry => some entry

namespace Insertion

variable (I : Insertion σ)

/-- The chain with the link. -/
def longer : Chain σ := I.chain.insert I.position I.link

/-- Where a link stands without the inserted one, for the invocations that are told to be of the call. -/
def lower (ours : Ref → Bool) (r : Ref) (q : Nat) : Option Nat :=
  if ours r then lowered I.position q else some q

/-- What everyone sees of entries of a run with the inserted link. -/
def seenWithout (ours : Ref → Bool) (entries : List Entry) : List Entry :=
  entries.filterMap fun entry => (entry.relocate (I.lower ours)).bind (Entry.seen I.veil)

/-- Of the invocations made so far, those of the call are told rightly. -/
def Fits (ours : Ref → Bool) (w : World σ) : Prop :=
  ∀ r : Ref, r.index < w.invocations.size → (ours r ↔ (w.invocation r).call = I.call)

/-- How cursors are shifted: by one behind the inserted link. In front of its position one cursor may have
passed it or not. -/
def Shifted (p q : Nat) : Prop := p ≤ I.position ∧ q = p ∨ I.position ≤ p ∧ q = p + 1

/-- An invocation of the call, with and without the inserted link. -/
structure Ours (i i' : Invocation σ) : Prop where
  call : i.call = I.call
  shorter : i.chain = I.chain
  longer : i'.chain = I.longer
  shifted : I.Shifted i.entered i'.entered

/-- One invocation in both runs. Those of other calls are the same. -/
structure Twins (i i' : Invocation σ) : Prop where
  same : i' = { i with chain := i'.chain, entered := i'.entered }
  blind : i.IsBlind I.veil
  place : I.Ours i i' ∨ i' = i ∧ (i.call = I.call → i.chain.links = [])

/-- Two worlds that differ only in cursors and behind the veil. -/
structure Alike (w w' : World σ) : Prop where
  state : I.veil.same w.state w'.state
  calls : w'.calls = w.calls
  bindings : w'.bindings = w.bindings
  waiting : w'.waiting = w.waiting
  size : w'.invocations.size = w.invocations.size
  twins : ∀ r, I.Twins (w.invocation r) (w'.invocation r)
  /-- The call has got its identity. -/
  fresh : I.call.number < w.calls
  journal : ∃ gained gained', w.journal.toList = I.before ++ gained ∧
    w'.journal.toList = I.before ++ gained' ∧
      ∀ ours, I.Fits ours w → gained.filterMap (Entry.seen I.veil) = I.seenWithout ours gained'

variable {I}

/-! ### Twins -/

section Twins

variable {i i' : Invocation σ}

theorem Twins.call (h : I.Twins i i') : i'.call = i.call := by rw [h.same]
theorem Twins.this (h : I.Twins i i') : i'.this = i.this := by rw [h.same]
theorem Twins.method (h : I.Twins i i') : i'.method = i.method := by rw [h.same]
theorem Twins.targetClass (h : I.Twins i i') : i'.targetClass = i.targetClass := by rw [h.same]
theorem Twins.arguments (h : I.Twins i i') : i'.arguments = i.arguments := by rw [h.same]
theorem Twins.target (h : I.Twins i i') : i'.target = i.target := by rw [h.same]
theorem Twins.attachments (h : I.Twins i i') : i'.attachments = i.attachments := by rw [h.same]
theorem Twins.exposedAt (h : I.Twins i i') : i'.exposedAt = i.exposedAt := by rw [h.same]
theorem Twins.joinPoint (h : I.Twins i i') : i'.joinPoint = i.joinPoint := by rw [h.same]; rfl

/-- An invocation without links ahead, and any invocation of another call, is its own twin. -/
theorem twins_self (hblind : i.IsBlind I.veil) (hplace : i.call = I.call → i.chain.links = []) :
    I.Twins i i :=
  ⟨rfl, hblind, .inr ⟨rfl, hplace⟩⟩

theorem Twins.change (h : I.Twins i i') {change : Invocation σ → Invocation σ}
    (hstays : ∀ j : Invocation σ, j.Stays (change j))
    (hsame : change i' = { change i with chain := i'.chain, entered := i'.entered }) :
    I.Twins (change i) (change i') := by
  have hchain : (change i).chain = i.chain := by rw [hstays i]
  have hcall : (change i).call = i.call := by rw [hstays i]
  have htarget : (change i).target = i.target := by rw [hstays i]
  have hentered : (change i).entered = i.entered := by rw [hstays i]
  have hchain' : (change i').chain = i'.chain := by rw [hstays i']
  have hentered' : (change i').entered = i'.entered := by rw [hstays i']
  refine ⟨by rw [hchain', hentered']; exact hsame, ⟨hchain ▸ h.blind.chain, htarget ▸ h.blind.target⟩, ?_⟩
  obtain hours | ⟨hself, hnone⟩ := h.place
  · exact .inl ⟨hcall.trans hours.call, hchain.trans hours.shorter, hchain'.trans hours.longer,
      by rw [hentered, hentered']; exact hours.shifted⟩
  · exact .inr ⟨by rw [hself], fun h => by rw [hchain]; exact hnone (hcall.symm.trans h)⟩

theorem Twins.read (h : I.Twins i i') {facet : Facet α} (hblind : facet.IsBlind) :
    i'.read facet = i.read facet := by
  cases facet with
  | call => exact h.call
  | this => exact h.this
  | method => exact h.method
  | targetClass => exact h.targetClass
  | arguments => exact h.arguments
  | attached key => exact congrArg (List.lookup key) h.attachments
  | position => exact hblind.elim
  | chain => exact hblind.elim
  | joinPoint => exact h.joinPoint

end Twins

/-! ### Entries -/

section Entries

/-- Only entries that tell of links have a position to change. -/
theorem relocate_of_unmarked {entry : Entry} (h : entry.mark? = none) (change : Ref → Nat → Option Nat) :
    entry.relocate change = some entry := by
  cases entry with
  | note text => rfl
  | event e => rfl
  | occurrence o => cases o <;> first | rfl | cases h

theorem seenWithout_append (ours : Ref → Bool) (first second : List Entry) :
    I.seenWithout ours (first ++ second) = I.seenWithout ours first ++ I.seenWithout ours second :=
  List.filterMap_append

theorem seenWithout_of_unmarked (ours : Ref → Bool) {entries : List Entry}
    (h : ∀ entry ∈ entries, entry.mark? = none) :
    entries.filterMap (Entry.seen I.veil) = I.seenWithout ours entries := by
  refine List.filterMap_congr fun entry hentry => ?_
  rw [relocate_of_unmarked (h entry hentry)]
  rfl

end Entries

/-! ### Alike worlds -/

section Alike

variable {w w' v v' : World σ}

theorem twins_default : I.Twins (default : Invocation σ) default :=
  twins_self ⟨fun _ hlink => absurd hlink List.not_mem_nil, fun _ _ _ => trivial⟩ fun _ => rfl

/-- The worlds stay alike when both journals go on with entries that are seen the same. -/
theorem Alike.journal_append (h : I.Alike w w') {entries entries' : List Entry}
    (hv : v.journal.toList = w.journal.toList ++ entries)
    (hv' : v'.journal.toList = w'.journal.toList ++ entries')
    (hfits : ∀ ours, I.Fits ours v → I.Fits ours w)
    (hseen : ∀ ours, I.Fits ours v →
      entries.filterMap (Entry.seen I.veil) = I.seenWithout ours entries') :
    ∃ gained gained', v.journal.toList = I.before ++ gained ∧ v'.journal.toList = I.before ++ gained' ∧
      ∀ ours, I.Fits ours v → gained.filterMap (Entry.seen I.veil) = I.seenWithout ours gained' := by
  obtain ⟨gained, gained', hgained, hgained', hsame⟩ := h.journal
  refine ⟨gained ++ entries, gained' ++ entries', ?_, ?_, fun ours hours => ?_⟩
  · rw [hv, hgained, List.append_assoc]
  · rw [hv', hgained', List.append_assoc]
  · rw [List.filterMap_append, seenWithout_append, hsame ours (hfits ours hours), hseen ours hours]

theorem Alike.record (h : I.Alike w w') {entries entries' : List Entry}
    (hseen : ∀ ours, I.Fits ours w →
      entries.filterMap (Entry.seen I.veil) = I.seenWithout ours entries') :
    I.Alike (w.record entries) (w'.record entries') :=
  { h with
    journal := h.journal_append Array.toList_appendList Array.toList_appendList (fun _ hours => hours)
      hseen }

theorem Alike.record_unmarked (h : I.Alike w w') {entries : List Entry}
    (hunmarked : ∀ entry ∈ entries, entry.mark? = none) :
    I.Alike (w.record entries) (w'.record entries) :=
  h.record fun ours _ => seenWithout_of_unmarked ours hunmarked

theorem Alike.record_entry (h : I.Alike w w') {entry : Entry} (hentry : entry.mark? = none) :
    I.Alike (w.record [entry]) (w'.record [entry]) :=
  h.record_unmarked fun _ hmem => List.mem_singleton.mp hmem ▸ hentry

theorem Alike.withState (h : I.Alike w w') {s s' : σ} (hs : I.veil.same s s') :
    I.Alike { w with state := s } { w' with state := s' } :=
  { h with state := hs }

theorem Alike.withBindings (h : I.Alike w w') (bindings : Bindings) :
    I.Alike { w with bindings } { w' with bindings } :=
  { h with bindings := rfl }

/-- The worlds stay alike when an invocation is changed in both, or in one, so that it stays its twin. -/
theorem Alike.of_twins (h : I.Alike w w') {invocations invocations' : Array (Invocation σ)}
    (hsize : invocations.size = w.invocations.size) (hsize' : invocations'.size = w'.invocations.size)
    (hcall : ∀ r, (World.invocation { w with invocations } r).call = (w.invocation r).call)
    (htwins : ∀ r, I.Twins (World.invocation { w with invocations } r)
      (World.invocation { w' with invocations := invocations' } r)) :
    I.Alike { w with invocations } { w' with invocations := invocations' } :=
  { h with
    size := hsize'.trans (h.size.trans hsize.symm)
    twins := htwins
    journal := by
      obtain ⟨gained, gained', hgained, hgained', hsame⟩ := h.journal
      refine ⟨gained, gained', hgained, hgained', fun ours hours => hsame ours fun r hr => ?_⟩
      rw [← hcall r]
      exact hours r (hsize ▸ hr) }

theorem update_cases (w : World σ) (r s : Ref) (change : Invocation σ → Invocation σ) :
    r = s ∧ r.index < w.invocations.size ∧ (w.update r change).invocation s = change (w.invocation s) ∨
      (r = s → w.invocations.size ≤ r.index) ∧ (w.update r change).invocation s = w.invocation s := by
  by_cases hs : r = s
  · subst hs
    by_cases hr : r.index < w.invocations.size
    · exact .inl ⟨rfl, hr, World.invocation_update_self hr change⟩
    · have hout : w.invocations.size ≤ r.index := Nat.le_of_not_lt hr
      refine .inr ⟨fun _ => hout, ?_⟩
      rw [World.invocation_of_ge hout, World.invocation_of_ge (w.size_update r change ▸ hout)]
  · exact .inr ⟨fun h => absurd h hs, World.invocation_update_of_ne hs change⟩

theorem Alike.update (h : I.Alike w w') (r : Ref) {change change' : Invocation σ → Invocation σ}
    (hcall : ∀ i, (change i).call = i.call)
    (htwins : r.index < w.invocations.size →
      I.Twins (change (w.invocation r)) (change' (w'.invocation r))) :
    I.Alike (w.update r change) (w'.update r change') := by
  refine h.of_twins (w.size_update r change) (w'.size_update r change') (fun s => ?_) fun s => ?_
  · obtain ⟨_, _, hthen⟩ | ⟨_, hthen⟩ := update_cases w r s change
    · exact (congrArg Invocation.call hthen).trans (hcall _)
    · exact congrArg Invocation.call hthen
  · change I.Twins ((w.update r change).invocation s) ((w'.update r change').invocation s)
    obtain ⟨hs, hr, hthen⟩ | ⟨hs, hthen⟩ := update_cases w r s change
    · have hr' : r.index < w'.invocations.size := h.size ▸ hr
      subst hs
      rw [hthen, World.invocation_update_self hr']
      exact htwins hr
    · obtain ⟨hs', hr', hthen'⟩ | ⟨_, hthen'⟩ := update_cases w' r s change'
      · have hr : r.index < w.invocations.size := h.size ▸ hr'
        exact absurd hr (Nat.not_lt_of_le (hs hs'))
      · rw [hthen, hthen']
        exact h.twins s

theorem Alike.change (h : I.Alike w w') (r : Ref) {change : Invocation σ → Invocation σ}
    (hstays : ∀ j : Invocation σ, j.Stays (change j))
    (hsame : ∀ i i' : Invocation σ, i' = { i with chain := i'.chain, entered := i'.entered } →
      change i' = { change i with chain := i'.chain, entered := i'.entered }) :
    I.Alike (w.update r change) (w'.update r change) :=
  h.update r (fun i => by rw [hstays i]) fun _ => (h.twins r).change hstays (hsame _ _ (h.twins r).same)

theorem Alike.push (h : I.Alike w w') {i i' : Invocation σ} (htwins : I.Twins i i') :
    (w'.push i').1 = (w.push i).1 ∧ I.Alike (w.push i).2 (w'.push i').2 := by
  refine ⟨congrArg Ref.mk h.size, { h with
    size := ?_
    twins := fun r => ?_
    journal := ?_ }⟩
  · exact (Array.size_push i').trans ((congrArg Nat.succ h.size).trans (Array.size_push i).symm)
  · rw [World.invocation_push_eq, World.invocation_push_eq, h.size]
    split
    · exact htwins
    · exact h.twins r
  · obtain ⟨gained, gained', hgained, hgained', hsame⟩ := h.journal
    refine ⟨gained, gained', hgained, hgained', fun ours hours => hsame ours fun r hr => ?_⟩
    have hr' : r.index < (w.push i).2.invocations.size :=
      (Array.size_push i).symm ▸ Nat.lt_succ_of_lt hr
    rw [← World.invocation_push_of_lt hr i]
    exact hours r hr'

/-! ### What blind code does to alike worlds -/

theorem Alike.fork (h : I.Alike w w') (r : Ref) :
    (w'.push (w'.invocation r)).1 = (w.push (w.invocation r)).1 ∧
      I.Alike (w.push (w.invocation r)).2 (w'.push (w'.invocation r)).2 :=
  h.push (h.twins r)

theorem Alike.start (h : I.Alike w w') (request : Request) {chain : Chain σ} {target : Target σ}
    (hchain : chain.IsBlind I.veil) (htarget : target.IsBlind I.veil) :
    (w'.start request chain target).1 = (w.start request chain target).1 ∧
      I.Alike (w.start request chain target).2 (w'.start request chain target).2 := by
  have hcounted : I.Alike { w with calls := w.calls + 1 } { w' with calls := w'.calls + 1 } :=
    { h with calls := congrArg Nat.succ h.calls, fresh := Nat.lt_succ_of_lt h.fresh }
  have hother : (⟨w.calls⟩ : CallId) ≠ I.call := fun heq =>
    Nat.ne_of_gt h.fresh (congrArg CallId.number heq)
  have htwins : I.Twins (.start ⟨w.calls⟩ request chain target) (.start ⟨w'.calls⟩ request chain target) := by
    rw [h.calls]
    exact twins_self ⟨hchain, htarget⟩ fun heq => absurd heq hother
  exact hcounted.push htwins

theorem Alike.consult {γ : Type u} (h : I.Alike w w') {q : Inquiry σ γ} (hq : q.Respects I.veil)
    (hunmarked : Consultation.Writes (fun entry => entry.mark? = none) q) :
    (w'.consult q).1 = (w.consult q).1 ∧ I.Alike (w.consult q).2 (w'.consult q).2 := by
  obtain ⟨hresult, hwritten, hstate⟩ := hq _ _ h.state
  refine ⟨hresult, ?_⟩
  change I.Alike _ (World.record { w' with state := (q w'.state).state } (q w'.state).written)
  rw [hwritten]
  exact (h.withState hstate).record_unmarked (hunmarked w.state)

theorem Alike.query {γ : Type u} (h : I.Alike w w') {q : Query σ γ} (hq : q.Respects I.veil) :
    (w'.consult (Inquiry.consult q)).1 = (w.consult (Inquiry.consult q)).1 ∧
      I.Alike (w.consult (Inquiry.consult q)).2 (w'.consult (Inquiry.consult q)).2 :=
  h.consult (hq.mapWritten Entry.note) (Inquiry.writes_consult q fun _ => rfl)

theorem Alike.bind (h : I.Alike w w') (published : Option Ref) (point : JoinPoint) :
    (w'.bind published point).1 = (w.bind published point).1 ∧
      I.Alike (w.bind published point).2 (w'.bind published point).2 := by
  have hthread : w'.thread = w.thread := congrArg List.length h.waiting
  refine ⟨congrArg (fun b => (b.bind point).1) h.bindings, ?_⟩
  change I.Alike _ (World.record { w' with bindings := (w'.bindings.bind point).2 }
    [.occurrence (.bound w'.thread (w'.bindings.bind point).1.slot published point)])
  rw [h.bindings, hthread]
  refine (h.withBindings _).record_entry ?_
  rfl

theorem Alike.release (h : I.Alike w w') (guard : Guard) :
    I.Alike (w.release guard) (w'.release guard) :=
  { h with bindings := congrArg (Bindings.release guard) h.bindings }

theorem Alike.setArguments (h : I.Alike w w') (r : Ref) (arguments : List Value) :
    I.Alike (w.setArguments r arguments) (w'.setArguments r arguments) := by
  have hchanged : I.Alike (w.update r fun i => { i with arguments })
      (w'.update r fun i => { i with arguments }) :=
    h.change r (fun _ => rfl) fun i i' hsame => by rw [hsame]
  have hthread : w'.thread = w.thread := congrArg List.length h.waiting
  have htwins := hchanged.twins r
  have hbindings : (w'.update r fun i => { i with arguments }).bindings =
    (w.update r fun i => { i with arguments }).bindings := hchanged.bindings
  have hthread' : (w'.update r fun i => { i with arguments }).thread =
    (w.update r fun i => { i with arguments }).thread := hthread
  simp only [World.setArguments]
  rw [htwins.exposedAt, htwins.joinPoint, hbindings, hthread']
  refine (hchanged.withBindings _).record_entry ?_
  rfl

theorem Alike.setAttribute (h : I.Alike w w') (r : Ref) (key : String) (value : Value) :
    I.Alike (w.update r fun i => i.setAttribute key value)
      (w'.update r fun i => i.setAttribute key value) :=
  h.change r (fun _ => rfl) fun i i' hsame => by rw [hsame]; rfl

theorem Alike.publish (h : I.Alike w w') (r : Ref) : I.Alike (w.publish r) (w'.publish r) := by
  have hbound := (h.bind (some r) (w.invocation r).joinPoint).2
  rw [World.publish, World.publish, (h.twins r).joinPoint, h.bindings]
  exact hbound.change r (fun _ => rfl) fun i i' hsame => by rw [hsame]

theorem Alike.withdraw (h : I.Alike w w') (r : Ref) {ending : Ending α} (hlater : I.Alike v v') :
    I.Alike (w.withdraw r (ending, v)) (w'.withdraw r (ending, v')) := by
  rw [World.withdraw, World.withdraw, (h.twins r).exposedAt, h.bindings]
  refine Alike.release ?_ _
  cases ending with
  | finished a => exact hlater.change r (fun _ => rfl) fun i i' hsame => by rw [hsame]
  | unwinding panic => exact hlater
  | outOfDepth => exact hlater

theorem Alike.descend (h : I.Alike w w') : I.Alike w.descend w'.descend := by
  rw [World.descend, World.descend, h.bindings, h.waiting]
  exact { h with bindings := rfl, waiting := rfl }

theorem Alike.ascend (h : I.Alike w w') : I.Alike w.ascend w'.ascend := by
  rw [World.ascend, World.ascend, h.waiting]
  exact { h with bindings := rfl, waiting := rfl }

theorem Alike.apply (h : I.Alike w w') {op : Operation α} (hop : op.IsBlind) :
    (w'.apply op).1 = (w.apply op).1 ∧ I.Alike (w.apply op).2 (w'.apply op).2 := by
  cases op with
  | read r facet => exact ⟨(h.twins r).read hop, h⟩
  | fork r => exact h.fork r
  | setArguments r arguments => exact ⟨rfl, h.setArguments r arguments⟩
  | setAttribute r key value =>
    exact ⟨congrArg (List.lookup key) (h.twins r).attachments, h.setAttribute r key value⟩
  | bind point => exact h.bind none point
  | release guard => exact ⟨rfl, h.release guard⟩
  | currentJoinPoint => exact ⟨congrArg Bindings.current h.bindings, h⟩
  | bindingDepth => exact ⟨congrArg Bindings.depth h.bindings, h⟩

end Alike

end Insertion

end Interception
