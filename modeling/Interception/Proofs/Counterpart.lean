import Interception.Proofs.Simulation
import Interception.Proofs.Uniformity

/-! Counterparts. Two worlds are counterparts of one another when they differ in identities, in publishing
links that stand in front of chains, and in the bindings of threads. What likewise programs do to both of
them, and what the library does backstage to either of them, leaves them so, once new names are given to
what is new. -/

namespace Interception

universe u

variable {σ α : Type}

/-! ### Worlds that differ in names -/

namespace Comparison

variable (C : Comparison σ) (N : Naming)

/-- One invocation in both runs. In the second one its chain begins with publishing links that it has passed
before all else. -/
structure Twins (shift : Nat) (i i' : Invocation σ) : Prop where
  call : N.SameCall i.call i'.call
  this : i'.this = i.this
  method : i'.method = i.method
  targetClass : i'.targetClass = i.targetClass
  arguments : i'.arguments = i.arguments
  attachments : i'.attachments = i.attachments
  chain : i'.chain.links = List.replicate shift Proxy.exposingLink ++ i.chain.links
  entered : i'.entered = i.entered + shift
  uniform : ∀ link ∈ i.chain.links, link.IsUniform C
  target : Target.Like C N i.target i'.target

/-- Two worlds that are the same up to identities, publishing links and bindings, and whose journals tell the
same runs of callbacks. -/
structure Alike (w w' : World σ) : Prop where
  base : C.base ≤ N
  state : C.same N w.state w'.state
  size : N.invocations.length = w.invocations.size
  calls : N.calls.length = w.calls
  twins : ∀ r c, N.Names r c → C.Twins N c.shift (w.invocation r) (w'.invocation c.ref)
  range : ∀ r' ∈ N.others, r'.index < w'.invocations.size
  idle : ∀ r' ∈ N.idle, (w'.invocation r').chain.links = [Proxy.exposingLink]
  callRange : ∀ c' ∈ N.calls, c'.number < w'.calls
  waiting : w'.waiting.length = w.waiting.length
  journal : ∃ gained gained', w.journal.toList = C.before ++ gained ∧
    w'.journal.toList = C.before ++ gained' ∧ N.Tells gained gained'

variable {C N} {N' : Naming} {w w' v v' : World σ} {i i' : Invocation σ} {shift : Nat} {r : Ref}
  {c : Counterpart}

theorem Twins.mono (h : C.Twins N shift i i') (hle : N ≤ N') : C.Twins N' shift i i' :=
  { h with call := h.call.mono hle, target := h.target.mono hle }

/-- Behind the publishing links both have the same links ahead. -/
theorem Twins.ahead (h : C.Twins N shift i i') : i'.ahead = i.ahead := by
  have hlength : i'.entered = (List.replicate shift (Proxy.exposingLink : Link σ)).length + i.entered := by
    rw [h.entered, List.length_replicate, Nat.add_comm]
  rw [Invocation.ahead, h.chain, hlength, List.drop_length_add_append]
  rfl

theorem Twins.joinPoint (h : C.Twins N shift i i') : N.SamePoint i.joinPoint i'.joinPoint :=
  ⟨h.call, by simp only [Invocation.joinPoint, h.this, h.method, h.targetClass, h.arguments]⟩

theorem Twins.read (h : C.Twins N shift i i') {facet : Facet α} (hblind : facet.IsBlind) :
    facet.kin N (i.read facet) (i'.read facet) := by
  cases facet with
  | call => exact h.call
  | this => exact h.this.symm
  | method => exact h.method.symm
  | targetClass => exact h.targetClass.symm
  | arguments => exact h.arguments.symm
  | attached key => exact (congrArg (List.lookup key) h.attachments).symm
  | position => exact hblind.elim
  | chain => exact hblind.elim
  | joinPoint => exact h.joinPoint

theorem Alike.thread (h : C.Alike N w w') : w'.thread = w.thread := h.waiting

theorem Alike.exists_ (h : C.Alike N w w') (hr : N.Names r c) :
    r.index < w.invocations.size ∧ c.ref.index < w'.invocations.size :=
  ⟨h.size ▸ hr.lt, h.range _ hr.mem_others⟩

theorem Alike.backstage (h : C.Alike N w w') (hw : w.Backstage v) (hw' : w'.Backstage v') :
    C.Alike N v v' where
  base := h.base
  state := by rw [hw.state, hw'.state]; exact h.state
  size := h.size.trans hw.size.symm
  calls := h.calls.trans hw.calls.symm
  twins r c hr := by
    have htwins := h.twins r c hr
    rw [hw.invocation, hw'.invocation]
    exact { htwins with }
  range r' hr' := by rw [hw'.size]; exact h.range r' hr'
  idle r' hr' := by rw [hw'.invocation]; exact h.idle r' hr'
  callRange c' hc' := by rw [hw'.calls]; exact h.callRange c' hc'
  waiting := by rw [hw.waiting, hw'.waiting]; exact h.waiting
  journal := by
    obtain ⟨gained, gained', hgained, hgained', htells⟩ := h.journal
    obtain ⟨entries, hentries, hback⟩ := hw.journal
    obtain ⟨entries', hentries', hback'⟩ := hw'.journal
    refine ⟨gained ++ entries, gained' ++ entries', ?_, ?_, ?_⟩
    · rw [hentries, hgained, List.append_assoc]
    · rw [hentries', hgained', List.append_assoc]
    · have htail : N.Tells (entries ++ []) ([] ++ entries') :=
        (Naming.tells_left hback).append (Naming.tells_right hback')
      rw [List.append_nil, List.nil_append] at htail
      exact htells.append htail

theorem Alike.record (h : C.Alike N w w') {entries entries' : List Entry} (ht : N.Tells entries entries') :
    C.Alike N (w.record entries) (w'.record entries') :=
  { h with
    journal := by
      obtain ⟨gained, gained', hgained, hgained', htells⟩ := h.journal
      refine ⟨gained ++ entries, gained' ++ entries', ?_, ?_, htells.append ht⟩
      · rw [← List.append_assoc, ← hgained]
        exact Array.toList_appendList
      · rw [← List.append_assoc, ← hgained']
        exact Array.toList_appendList }

theorem Alike.record_right (h : C.Alike N w w') {entries' : List Entry} (ht : N.Tells [] entries') :
    C.Alike N w (w'.record entries') :=
  { h with
    journal := by
      obtain ⟨gained, gained', hgained, hgained', htells⟩ := h.journal
      refine ⟨gained, gained' ++ entries', hgained, ?_, List.append_nil gained ▸ htells.append ht⟩
      rw [← List.append_assoc, ← hgained']
      exact Array.toList_appendList }

theorem Alike.entry (h : C.Alike N w w') {entry entry' : Entry} (he : N.SameEntry entry entry') :
    C.Alike N (w.record [entry]) (w'.record [entry']) :=
  h.record (.both he .nil)

theorem Alike.withState (h : C.Alike N w w') {s s' : σ} (hs : C.same N s s') :
    C.Alike N { w with state := s } { w' with state := s' } :=
  { h with state := hs }

/-- The worlds stay alike when an invocation is changed in both so that it stays its twin. -/
theorem Alike.update (h : C.Alike N w w') (hr : N.Names r c) {change change' : Invocation σ → Invocation σ}
    (htwins : C.Twins N c.shift (change (w.invocation r)) (change' (w'.invocation c.ref))) :
    C.Alike N (w.update r change) (w'.update c.ref change') :=
  { h with
    size := h.size.trans (w.size_update r change).symm
    range := fun s' hs' => by rw [World.size_update]; exact h.range s' hs'
    idle := fun s' hs' => by
      rw [World.invocation_update_of_ne (hr.ne_idle hs')]
      exact h.idle s' hs'
    twins := fun s d hs => by
      obtain ⟨hthere, hthere'⟩ := h.exists_ hr
      by_cases hsame : r = s
      · subst hsame
        obtain rfl := hr.unique hs
        rw [World.invocation_update_self hthere, World.invocation_update_self hthere']
        exact htwins
      · have hother : c.ref ≠ d.ref := fun heq => hsame (hr.injective hs heq)
        rw [World.invocation_update_of_ne hsame, World.invocation_update_of_ne hother]
        exact h.twins s d hs }

/-! ### New names -/

theorem Alike.new (h : C.Alike N w w') : (⟨w'.invocations.size⟩ : Ref) ∉ N.others :=
  fun hmem => Nat.lt_irrefl _ (h.range _ hmem)

theorem Alike.idle_push (h : C.Alike N w w') (i' : Invocation σ) :
    ∀ r' ∈ N.idle, ((w'.push i').2.invocation r').chain.links = [Proxy.exposingLink] := by
  intro r' hr'
  rw [World.invocation_push_of_lt (h.range r' (List.mem_append_right _ hr'))]
  exact h.idle r' hr'

theorem Alike.journal_mono (h : C.Alike N w w') (hle : N ≤ N') :
    ∃ gained gained', w.journal.toList = C.before ++ gained ∧
      w'.journal.toList = C.before ++ gained' ∧ N'.Tells gained gained' := by
  obtain ⟨gained, gained', hgained, hgained', htells⟩ := h.journal
  exact ⟨gained, gained', hgained, hgained', htells.mono hle⟩

/-- One more invocation in both worlds. -/
theorem Alike.push (h : C.Alike N w w') (htwins : C.Twins N shift i i') :
    ∃ N', N ≤ N' ∧ N'.Names (w.push i).1 ⟨(w'.push i').1, shift⟩ ∧
      C.Alike N' (w.push i).2 (w'.push i').2 := by
  let c : Counterpart := ⟨(w'.push i').1, shift⟩
  have hle : N ≤ N.named c h.new := N.le_named c h.new
  refine ⟨N.named c h.new, hle, Naming.names_named h.size.symm, {
    base := Naming.le_trans h.base hle
    state := C.mono hle h.state
    size := ?_
    calls := h.calls
    twins := fun r d hr => ?_
    range := fun r' hr' => ?_
    idle := h.idle_push i'
    callRange := h.callRange
    waiting := h.waiting
    journal := h.journal_mono hle }⟩
  · change (N.invocations ++ [c]).length = (w.invocations.push i).size
    rw [List.length_append, h.size, Array.size_push]
    rfl
  · obtain hold | ⟨hindex, rfl⟩ := hr.of_named
    · obtain ⟨hthere, hthere'⟩ := h.exists_ hold
      rw [World.invocation_push_of_lt hthere, World.invocation_push_of_lt hthere']
      exact (h.twins r d hold).mono hle
    · have hself : (w.push i).2.invocation r = i :=
        (w.invocation_push_eq i r).trans (if_pos (hindex.trans h.size))
      have hself' : (w'.push i').2.invocation c.ref = i' := w'.invocation_push i'
      rw [hself, hself']
      exact htwins.mono hle
  · change r'.index < (w'.invocations.push i').size
    rw [Array.size_push]
    obtain hold | rfl := Naming.mem_others_named hr'
    · exact Nat.lt_succ_of_lt (h.range r' hold)
    · exact Nat.lt_succ_self _

/-- One more call in both worlds. -/
theorem Alike.count (h : C.Alike N w w') :
    ∃ N', N ≤ N' ∧ N'.SameCall ⟨w.calls⟩ ⟨w'.calls⟩ ∧
      C.Alike N' { w with calls := w.calls + 1 } { w' with calls := w'.calls + 1 } := by
  have hnew : (⟨w'.calls⟩ : CallId) ∉ N.calls := fun hmem => Nat.lt_irrefl _ (h.callRange _ hmem)
  have hle : N ≤ N.called ⟨w'.calls⟩ hnew := N.le_called _ hnew
  refine ⟨N.called ⟨w'.calls⟩ hnew, hle, Naming.sameCall_called h.calls.symm, {
    base := Naming.le_trans h.base hle
    state := C.mono hle h.state
    size := h.size
    calls := ?_
    twins := fun r c hr => (h.twins r c hr).mono hle
    range := h.range
    idle := h.idle
    callRange := fun c' hc' => ?_
    waiting := h.waiting
    journal := h.journal_mono hle }⟩
  · change (N.calls ++ [_]).length = w.calls + 1
    rw [List.length_append, h.calls]
    rfl
  · obtain hold | hlast := List.mem_append.mp hc'
    · exact Nat.lt_succ_of_lt (h.callRange c' hold)
    · rw [List.mem_singleton.mp hlast]
      exact Nat.lt_succ_self _

/-- One more invocation in the second world alone. -/
theorem Alike.push_right (h : C.Alike N w w') (i' : Invocation σ)
    (hlinks : i'.chain.links = [Proxy.exposingLink]) :
    ∃ N', N ≤ N' ∧ (w'.push i').1 ∈ N'.idle ∧ C.Alike N' w (w'.push i').2 := by
  have hle : N ≤ N.idled ⟨w'.invocations.size⟩ h.new := N.le_idled _ h.new
  refine ⟨N.idled ⟨w'.invocations.size⟩ h.new, hle, List.mem_append_right _ (List.mem_singleton_self _), {
    base := Naming.le_trans h.base hle
    state := C.mono hle h.state
    size := h.size
    calls := h.calls
    twins := fun r c hr => ?_
    range := fun r' hr' => ?_
    idle := fun r' hr' => ?_
    callRange := h.callRange
    waiting := h.waiting
    journal := h.journal_mono hle }⟩
  · have hold : N.Names r c := hr
    rw [World.invocation_push_of_lt (h.exists_ hold).2]
    exact (h.twins r c hold).mono hle
  · change r'.index < (w'.invocations.push i').size
    rw [Array.size_push]
    obtain hold | rfl := Naming.mem_others_idled hr'
    · exact Nat.lt_succ_of_lt (h.range r' hold)
    · exact Nat.lt_succ_self _
  · obtain hold | hlast := List.mem_append.mp hr'
    · exact h.idle_push i' r' hold
    · have hself : (w'.push i').2.invocation r' = i' := by
        rw [List.mem_singleton.mp hlast]
        exact w'.invocation_push i'
      rw [hself]
      exact hlinks

/-- One more call in the second world alone. -/
theorem Alike.count_right (h : C.Alike N w w') : C.Alike N w { w' with calls := w'.calls + 1 } :=
  { h with callRange := fun c' hc' => Nat.lt_succ_of_lt (h.callRange c' hc') }

/-! ### What likewise code does -/

theorem Alike.consult {γ : Type u} {Q : γ → γ → Prop} {q q' : Inquiry σ γ} (h : C.Alike N w w')
    (hq : q.Like C N Q q') (hwrites : Consultation.Writes Entry.IsNameless q) :
    Kin.caught Q (w.consult q).1 (w'.consult q').1 ∧ C.Alike N (w.consult q).2 (w'.consult q').2 := by
  obtain ⟨hresult, hwritten, hstate⟩ := hq _ _ h.state
  refine ⟨hresult, ?_⟩
  change C.Alike N _ (World.record { w' with state := (q' w'.state).state } (q' w'.state).written)
  rw [hwritten]
  exact (h.withState hstate).record (Naming.tells_self (hwrites w.state))

theorem Alike.setArguments (h : C.Alike N w w') (hr : N.Names r c) (arguments : List Value) :
    C.Alike N (w.setArguments r arguments) (w'.setArguments c.ref arguments) := by
  have hchanged : C.Alike N (w.update r fun i => { i with arguments })
      (w'.update c.ref fun i => { i with arguments }) := by
    have htwins := h.twins r c hr
    exact h.update hr { htwins with arguments := rfl }
  exact hchanged.backstage (w.backstage_setArguments r arguments) (w'.backstage_setArguments c.ref arguments)

theorem Alike.setAttribute (h : C.Alike N w w') (hr : N.Names r c) (key : String) (value : Value) :
    C.Alike N (w.update r fun i => i.setAttribute key value)
      (w'.update c.ref fun i => i.setAttribute key value) := by
  have htwins := h.twins r c hr
  refine h.update hr { htwins with attachments := ?_ }
  simp only [Invocation.setAttribute, htwins.attachments]

theorem Alike.stepOver (h : C.Alike N w w') (hr : N.Names r c) :
    C.Alike N (w.stepOver r) (w'.stepOver c.ref) := by
  have htwins := h.twins r c hr
  refine h.update hr { htwins with entered := ?_ }
  rw [htwins.entered, Nat.add_right_comm]

theorem Alike.descend (h : C.Alike N w w') : C.Alike N w.descend w'.descend :=
  { h with waiting := congrArg Nat.succ h.waiting }

theorem Alike.ascend (h : C.Alike N w w') : C.Alike N w.ascend w'.ascend := by
  refine { h with waiting := ?_ }
  rw [World.ascend, World.ascend, List.length_tail, List.length_tail, h.waiting]

end Comparison

end Interception
