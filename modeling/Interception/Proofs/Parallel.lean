import Interception.Proofs.Pairing
import Interception.Proofs.Simulation

/-! Runs in parallel. Two worlds are alike under a pairing when the invocations that are paired have the same
ahead of them, the states are the same and the journals tell the same. What akin programs do to both of them
leaves them so, under the pairing that there is by then, and both runs end in the same way, at the same
depth. No invocation that was there before is touched unless it is paired. -/

namespace Interception

universe u

variable {σ α β : Type}

/-- Two runs that are compared, by the worlds in which they begin. -/
structure Parallel (σ : Type) extends Terms σ where
  first : World σ
  second : World σ

namespace Parallel

open Simulation (mimics_finish matches_finished)
open Coupling

variable (T : Parallel σ) (P : Pairing)

/-- Two invocations that have the same ahead of them, behind the links that were passed when they were
paired. -/
structure Twins (p : Pair) (i i' : Invocation σ) : Prop where
  this : i'.this = i.this
  method : i'.method = i.method
  targetClass : i'.targetClass = i.targetClass
  arguments : i'.arguments = i.arguments
  attachments : i'.attachments = i.attachments
  links : i'.chain.links.drop p.passed' = i.chain.links.drop p.passed
  entered : ∃ n, i.entered = p.passed + n ∧ i'.entered = p.passed' + n
  steady : ∀ link ∈ i.chain.links.drop p.passed, link.IsSteady T.toTerms p.whole
  target : Target.Akin T.toTerms P i.target i'.target

/-- Two worlds that are the same as far as invocations are paired, and whose journals tell the same runs of
callbacks. -/
structure Alike (w w' : World σ) : Prop where
  base : T.base ≤ P
  state : T.same P w.state w'.state
  twins : ∀ p ∈ P.pairs, T.Twins P p (w.invocation p.first) (w'.invocation p.second)
  range : ∀ p ∈ P.pairs, p.first.index < w.invocations.size ∧ p.second.index < w'.invocations.size
  size : T.first.invocations.size ≤ w.invocations.size
  /-- No old invocations were paired later. -/
  later : ∀ p ∈ P.pairs, p ∈ T.base.pairs ∨ T.first.invocations.size ≤ p.first.index
  /-- Old invocations that nobody has a use for are as they were, but for the slot that they remember. -/
  others : ∀ r : Ref, r.index < T.first.invocations.size → (∀ p ∈ T.base.pairs, p.first ≠ r) →
    w.invocation r = { T.first.invocation r with exposedAt := (w.invocation r).exposedAt }
  journal : ∃ gained gained', w.journal.toList = T.first.journal.toList ++ gained ∧
    w'.journal.toList = T.second.journal.toList ++ gained' ∧ P.Tells gained gained'

variable {T P} {P' : Pairing} {p : Pair} {i i' : Invocation σ} {w w' v v' : World σ} {r r' : Ref}
  {whole : Bool}

theorem Twins.mono (h : T.Twins P p i i') (hle : P ≤ P') : T.Twins P' p i i' :=
  { h with target := h.target.mono hle }

theorem Twins.ahead (h : T.Twins P p i i') : i'.ahead = i.ahead := by
  obtain ⟨n, hentered, hentered'⟩ := h.entered
  rw [Invocation.ahead, Invocation.ahead, hentered, hentered', ← List.drop_drop, ← List.drop_drop, h.links]

theorem Twins.link (h : T.Twins P p i i') (n : Nat) :
    i'.chain.links[p.passed' + n]? = i.chain.links[p.passed + n]? := by
  rw [← List.getElem?_drop, ← List.getElem?_drop, h.links]

theorem Twins.of_whole (h : T.Twins P p i i') (hwhole : p.whole = true) :
    i'.chain.links = i.chain.links ∧ i'.entered = i.entered := by
  obtain ⟨hpassed, hpassed'⟩ : p.passed = 0 ∧ p.passed' = 0 := by
    simpa [Pair.whole] using hwhole
  obtain ⟨n, hentered, hentered'⟩ := h.entered
  have hlinks := h.links
  rw [hpassed, hpassed'] at hlinks
  exact ⟨hlinks, by omega⟩

theorem Twins.read (h : T.Twins P p i i') {facet : Facet α} (hfacet : p.whole = true ∨ facet.IsBlind) :
    facet.bond P (i.read facet) (i'.read facet) := by
  cases facet with
  | call => exact trivial
  | this => exact h.this.symm
  | method => exact h.method.symm
  | targetClass => exact h.targetClass.symm
  | arguments => exact h.arguments.symm
  | attached key => exact (congrArg (List.lookup key) h.attachments).symm
  | position =>
    obtain ⟨_, hentered⟩ := h.of_whole (hfacet.resolve_right id)
    show i.position = i'.position
    rw [Invocation.position, Invocation.position, hentered]
  | chain =>
    obtain ⟨hlinks, _⟩ := h.of_whole (hfacet.resolve_right id)
    show i.chain.kinds = i'.chain.kinds
    rw [Chain.kinds, Chain.kinds, hlinks]
  | joinPoint =>
    show i'.joinPoint = { i.joinPoint with call := i'.call }
    simp only [Invocation.joinPoint, h.this, h.method, h.targetClass, h.arguments]

/-! ### What is done to worlds that are alike -/

theorem Alike.backstage (h : T.Alike P w w') (hw : w.Backstage v) (hw' : w'.Backstage v') :
    T.Alike P v v' where
  base := h.base
  state := by rw [hw.state, hw'.state]; exact h.state
  twins p hp := by
    have htwins := h.twins p hp
    rw [hw.invocation, hw'.invocation]
    exact { htwins with }
  range p hp := by rw [hw.size, hw'.size]; exact h.range p hp
  size := by rw [hw.size]; exact h.size
  later := h.later
  others r hr hfree := by
    have hkept := h.others r hr hfree
    rw [hw.invocation, hkept]
  journal := by
    obtain ⟨gained, gained', hgained, hgained', htells⟩ := h.journal
    obtain ⟨entries, hentries, hback⟩ := hw.journal
    obtain ⟨entries', hentries', hback'⟩ := hw'.journal
    refine ⟨gained ++ entries, gained' ++ entries', ?_, ?_, ?_⟩
    · rw [hentries, hgained, List.append_assoc]
    · rw [hentries', hgained', List.append_assoc]
    · exact htells.append (Pairing.tells_backstage hback hback')

theorem Alike.record (h : T.Alike P w w') {entries entries' : List Entry} (ht : P.Tells entries entries') :
    T.Alike P (w.record entries) (w'.record entries') :=
  { h with
    journal := by
      obtain ⟨gained, gained', hgained, hgained', htells⟩ := h.journal
      refine ⟨gained ++ entries, gained' ++ entries', ?_, ?_, htells.append ht⟩
      · rw [← List.append_assoc, ← hgained]
        exact Array.toList_appendList
      · rw [← List.append_assoc, ← hgained']
        exact Array.toList_appendList }

theorem Alike.entry (h : T.Alike P w w') {entry entry' : Entry} (he : P.SameEntry entry entry') :
    T.Alike P (w.record [entry]) (w'.record [entry']) :=
  h.record (.both he .nil)

/-- Anything may be bound on either thread. -/
theorem Alike.bound (h : T.Alike P w w') (point point' : JoinPoint) :
    T.Alike P (w.bind none point).2 (w'.bind none point').2 :=
  (h.backstage (w.backstage_bindings _) (w'.backstage_bindings _)).backstage
    (World.backstage_entry _ trivial) (World.backstage_entry _ trivial)

theorem Alike.withState (h : T.Alike P w w') {s s' : σ} (hs : T.same P s s') :
    T.Alike P { w with state := s } { w' with state := s' } :=
  { h with state := hs }

/-- The worlds stay alike when two invocations that are paired are changed so that they stay twins. -/
theorem Alike.update (h : T.Alike P w w') (hp : p ∈ P.pairs) {change change' : Invocation σ → Invocation σ}
    (htwins : T.Twins P p (change (w.invocation p.first)) (change' (w'.invocation p.second))) :
    T.Alike P (w.update p.first change) (w'.update p.second change') :=
  { h with
    twins := fun q hq => by
      obtain ⟨hthere, hthere'⟩ := h.range p hp
      by_cases hsame : p = q
      · subst hsame
        rw [World.invocation_update_self hthere, World.invocation_update_self hthere']
        exact htwins
      · have hfirst : p.first ≠ q.first := fun heq => hsame (Pairing.eq_of_first hp hq heq)
        have hsecond : p.second ≠ q.second := fun heq => hsame (Pairing.eq_of_second hp hq heq)
        rw [World.invocation_update_of_ne hfirst, World.invocation_update_of_ne hsecond]
        exact h.twins q hq
    range := fun q hq => by rw [World.size_update, World.size_update]; exact h.range q hq
    size := by rw [World.size_update]; exact h.size
    others := fun r hr hfree => by
      have hother : p.first ≠ r := by
        intro heq
        cases h.later p hp with
        | inl hbase => exact hfree p hbase heq
        | inr hlater => exact Nat.lt_irrefl _ (Nat.lt_of_lt_of_le (heq ▸ hr) hlater)
      rw [World.invocation_update_of_ne hother]
      exact h.others r hr hfree }

/-- One more invocation in both worlds. -/
theorem Alike.push (h : T.Alike P w w') {passed passed' : Nat}
    (htwins : T.Twins P ⟨(w.push i).1, (w'.push i').1, passed, passed'⟩ i i') :
    ∃ P', P ≤ P' ∧ ⟨(w.push i).1, (w'.push i').1, passed, passed'⟩ ∈ P'.pairs ∧
      T.Alike P' (w.push i).2 (w'.push i').2 := by
  let p : Pair := ⟨(w.push i).1, (w'.push i').1, passed, passed'⟩
  have hfirst : ∀ q ∈ P.pairs, q.first ≠ p.first := fun q hq heq =>
    Nat.ne_of_lt (h.range q hq).1 (congrArg Ref.index heq)
  have hsecond : ∀ q ∈ P.pairs, q.second ≠ p.second := fun q hq heq =>
    Nat.ne_of_lt (h.range q hq).2 (congrArg Ref.index heq)
  have hle : P ≤ P.joined p hfirst hsecond := Pairing.le_joined
  refine ⟨P.joined p hfirst hsecond, hle, List.mem_cons_self, {
    base := Pairing.le_trans h.base hle
    state := T.mono hle h.state
    twins := fun q hq => ?_
    range := fun q hq => ?_
    size := ?_
    later := fun q hq => ?_
    others := fun r hr hfree => ?_
    journal := ?_ }⟩
  · rcases List.mem_cons.mp hq with rfl | hold
    · rw [World.invocation_push, World.invocation_push]
      exact htwins.mono hle
    · obtain ⟨hthere, hthere'⟩ := h.range q hold
      rw [World.invocation_push_of_lt hthere, World.invocation_push_of_lt hthere']
      exact (h.twins q hold).mono hle
  · show q.first.index < (w.invocations.push i).size ∧ q.second.index < (w'.invocations.push i').size
    rw [Array.size_push, Array.size_push]
    rcases List.mem_cons.mp hq with rfl | hold
    · exact ⟨Nat.lt_succ_self _, Nat.lt_succ_self _⟩
    · obtain ⟨hthere, hthere'⟩ := h.range q hold
      omega
  · show T.first.invocations.size ≤ (w.invocations.push i).size
    rw [Array.size_push]
    exact Nat.le_succ_of_le h.size
  · rcases List.mem_cons.mp hq with rfl | hold
    · exact .inr h.size
    · exact h.later q hold
  · rw [World.invocation_push_of_lt (Nat.lt_of_lt_of_le hr h.size)]
    exact h.others r hr hfree
  · obtain ⟨gained, gained', hgained, hgained', htells⟩ := h.journal
    exact ⟨gained, gained', hgained, hgained', htells.mono hle⟩

theorem Alike.consult {γ : Type u} {Q : γ → γ → Prop} {q q' : Inquiry σ γ} (h : T.Alike P w w')
    (hq : q.Akin T.toTerms P Q q') (hwrites : Consultation.Writes Entry.IsNameless q) :
    Kin.caught Q (w.consult q).1 (w'.consult q').1 ∧ T.Alike P (w.consult q).2 (w'.consult q').2 := by
  obtain ⟨hresult, hwritten, hstate⟩ := hq _ _ h.state
  refine ⟨hresult, ?_⟩
  show T.Alike P _ (World.record { w' with state := (q' w'.state).state } (q' w'.state).written)
  rw [hwritten]
  exact (h.withState hstate).record (Pairing.tells_nameless (hwrites w.state))

theorem Alike.setArguments (h : T.Alike P w w') (hp : p ∈ P.pairs) (arguments : List Value) :
    T.Alike P (w.setArguments p.first arguments) (w'.setArguments p.second arguments) := by
  have hchanged : T.Alike P (w.update p.first fun i => { i with arguments })
      (w'.update p.second fun i => { i with arguments }) := by
    have htwins := h.twins p hp
    exact h.update hp { htwins with arguments := rfl }
  exact hchanged.backstage (w.backstage_setArguments p.first arguments)
    (w'.backstage_setArguments p.second arguments)

theorem Alike.setAttribute (h : T.Alike P w w') (hp : p ∈ P.pairs) (key : String) (value : Value) :
    T.Alike P (w.update p.first fun i => i.setAttribute key value)
      (w'.update p.second fun i => i.setAttribute key value) := by
  have htwins := h.twins p hp
  refine h.update hp { htwins with attachments := ?_ }
  simp only [Invocation.setAttribute, htwins.attachments]

theorem Alike.stepOver (h : T.Alike P w w') (hp : p ∈ P.pairs) :
    T.Alike P (w.stepOver p.first) (w'.stepOver p.second) := by
  have htwins := h.twins p hp
  obtain ⟨n, hentered, hentered'⟩ := htwins.entered
  refine h.update hp { htwins with entered := ⟨n + 1, ?_, ?_⟩ }
  · show (w.invocation p.first).entered + 1 = _
    rw [hentered, Nat.add_assoc]
  · show (w'.invocation p.second).entered + 1 = _
    rw [hentered', Nat.add_assoc]

/-! ### Runs -/

/-- Runs in parallel. The pairings that there are by then are the stages. -/
def coupling (T : Parallel σ) : Coupling σ Pairing where
  lead := none
  Later P P' := P ≤ P'
  refl := Pairing.le_refl
  trans := Pairing.le_trans
  Alike := T.Alike
  Seen _ _ := True
  seen_nil := trivial
  seen_append _ _ := trivial
  backstage := Alike.backstage
  descend h := { h with }
  ascend h := { h with }

/-- What two runs have come to matches. -/
abbrev Matches (T : Parallel σ) (P : Pairing) (Q : Bond α) (x x' : Ending α × World σ) : Prop :=
  T.coupling.toSimulation.Matches P Q (x, []) (x', [])

/-- From worlds that are alike the runs come to what matches. -/
abbrev Mimics (T : Parallel σ) (P : Pairing) (Q : Bond α) (p p' : Run σ α) : Prop :=
  T.coupling.toSimulation.Mimics P Q p p'

/-- No run is spared. -/
theorem Matches.result {Q : Bond α} {x x' : Ending α × World σ} (h : T.Matches P Q x x') :
    ∃ P', P ≤ P' ∧ x.1.Akin (Q P') x'.1 ∧ T.Alike P' x.2 x'.2 := by
  obtain ⟨P', hle, hending, halike, -⟩ := h fun ⟨_, hlead, _⟩ => nomatch hlead
  exact ⟨P', hle, hending, halike⟩

theorem mimics_same (a : α) : T.Mimics P Bond.same (Run.finish a) (Run.finish a) := mimics_finish rfl

theorem mimics_read (hr : P.Mates whole r r') (facet : Facet α) (hfacet : whole = true ∨ facet.IsBlind) :
    T.Mimics P facet.bond (Run.read r facet) (Run.read r' facet) := by
  intro w w' h
  obtain ⟨p, hp, rfl, rfl, hwhole⟩ := hr
  exact matches_finished h P.le_refl ((Alike.twins h p hp).read (hfacet.imp_left hwhole))

theorem reads_of_mates (hr : P.Mates whole r r') : T.coupling.Reads P r r' where
  call := mimics_read hr .call (.inr trivial)
  this := mimics_read hr .this (.inr trivial)
  method := mimics_read hr .method (.inr trivial)
  targetClass := mimics_read hr .targetClass (.inr trivial)
  arguments := mimics_read hr .arguments (.inr trivial)

theorem mimics_entry {entry entry' : Entry} (he : P.SameEntry entry entry') :
    T.Mimics P Bond.same (Run.record entry) (Run.record entry') :=
  mimics_record (K := T.coupling) fun _ _ h => Alike.entry h he

theorem mimics_step (hp : p ∈ P.pairs) : T.Mimics P Bond.same (Run.step p.first) (Run.step p.second) :=
  fun _ _ h => matches_finished (Alike.stepOver h hp) P.le_refl rfl

theorem mimics_enter (hp : p ∈ P.pairs) (n : Nat) :
    T.Mimics P Bond.same (Run.enter p.first (p.passed + n)) (Run.enter p.second (p.passed' + n)) := by
  intro w w' h
  have hentry : P.SameEntry
      (.occurrence (.entered p.first (p.passed + n) (w.invocation p.first).position
        (w.invocation p.first).arguments w.thread w.bindings))
      (.occurrence (.entered p.second (p.passed' + n) (w'.invocation p.second).position
        (w'.invocation p.second).arguments w'.thread w'.bindings)) := by
    rw [(h.twins p hp).arguments]
    exact .entered hp n _ _ _ _ _ _ _
  exact matches_finished (h.entry hentry) P.le_refl rfl

theorem mimics_akin {Q : Bond α} {q q' : Query σ α} (hq : q.Akin T.toTerms P (Q P) q') :
    T.Mimics P Q (Run.consult q) (Run.consult q') := by
  refine Simulation.mimics_consult fun w w' h => ?_
  have hnotes : (Inquiry.consult q).Akin T.toTerms P (Q P) (Inquiry.consult q') := fun s s' hs =>
    ⟨(hq s s' hs).1, congrArg (List.map Entry.note) (hq s s' hs).2.1, (hq s s' hs).2.2⟩
  exact Alike.consult h hnotes (Inquiry.writes_consult q fun _ => trivial)

theorem mimics_steady {q : Query σ α} (hq : q.IsSteady T.toTerms) :
    T.Mimics P Bond.same (Run.consult q) (Run.consult q) := by
  intro w w' h
  have hakin : q.Akin T.toTerms P (Bond.same P) q := hq P h.base _ (Naming.le_refl _)
  exact mimics_akin hakin w w' h

theorem Mimics.withBinding {Q : Bond α} {body body' : Run σ α} (h : T.Mimics P Q body body')
    (point point' : JoinPoint) :
    T.Mimics P Q (Run.withBinding point body) (Run.withBinding point' body') := by
  intro w w' halike
  exact (h _ _ (halike.bound point point')).backstage (World.backstage_bindings _ _)
    (World.backstage_bindings _ _)

/-- A copy has the same ahead of it as the invocation that it is a copy of. -/
theorem Alike.fork (h : T.Alike P w w') (hr : P.Mates whole r r') :
    ∃ P', P ≤ P' ∧ P'.Mates whole (w.push (w.invocation r)).1 (w'.push (w'.invocation r')).1 ∧
      T.Alike P' (w.push (w.invocation r)).2 (w'.push (w'.invocation r')).2 := by
  obtain ⟨p, hp, rfl, rfl, hwhole⟩ := hr
  have htwins := h.twins p hp
  have hcopies : T.Twins P ⟨(w.push (w.invocation p.first)).1, (w'.push (w'.invocation p.second)).1,
      p.passed, p.passed'⟩ (w.invocation p.first) (w'.invocation p.second) :=
    { htwins with }
  obtain ⟨P', hle, hcopy, hthen⟩ := h.push hcopies
  exact ⟨P', hle, ⟨_, hcopy, rfl, rfl, hwhole⟩, hthen⟩

/-- What the engine is asked for from worlds that are alike. -/
structure Follows (T : Parallel σ) (engine : Engine σ) : Prop where
  proceed : ∀ P r r', P.Mates false r r' →
    T.Mimics P Bond.same (engine (.proceed r)) (engine (.proceed r'))
  call : ∀ P proxy request target target', proxy.IsSteady T.toTerms → Target.Akin T.toTerms P target target' →
    T.Mimics P Bond.same (engine (.call proxy request target)) (engine (.call proxy request target'))

variable {directory : Directory σ} {engine : Engine σ}

/-- **Akin programs do likewise**, if the engine does. -/
theorem Follows.program (h : T.Follows engine) (hdirectory : directory.IsSteady T.toTerms) {Q : Bond α}
    {p p' : Program σ α} (hp : Program.Akin T.toTerms P Q p p') :
    T.Mimics P Q (p.run directory engine) (p'.run directory engine) := by
  induction hp with
  | done ha => exact mimics_finish ha
  | andThen _ _ ihfirst ihnext => exact ihfirst.andThen ihnext
  | consult hq => exact mimics_akin hq
  | read hr hfacet => exact mimics_read hr _ hfacet
  | fork hr =>
    intro w w' halike
    obtain ⟨P', hle, hcopy, hthen⟩ := halike.fork hr
    exact matches_finished hthen hle hcopy
  | setArguments hr arguments =>
    intro w w' halike
    obtain ⟨p, hp, rfl, rfl, _⟩ := hr
    exact matches_finished (halike.setArguments hp arguments) (Pairing.le_refl _) rfl
  | setAttribute hr key value =>
    intro w w' halike
    obtain ⟨p, hp, rfl, rfl, _⟩ := hr
    exact matches_finished (halike.setAttribute hp key value) (Pairing.le_refl _)
      (congrArg (List.lookup key) (halike.twins p hp).attachments).symm
  | bind point point' =>
    intro w w' halike
    exact matches_finished (halike.bound point point') (Pairing.le_refl _) trivial
  | release guard guard' =>
    intro w w' halike
    have hreleased : T.Alike _ (w.release guard) (w'.release guard') :=
      halike.backstage (w.backstage_bindings _) (w'.backstage_bindings _)
    exact matches_finished hreleased (Pairing.le_refl _) rfl
  | proceed hr => exact h.proceed _ _ _ hr
  | expose hr => exact mimics_expose (h.proceed _ _ _ hr)
  | @invoke P name request target target' htarget _ =>
    rw [Program.run, Program.run]
    cases hproxy : directory name with
    | none => exact mimics_same none
    | some proxy =>
      refine (h.call P proxy request target target' (hdirectory name proxy hproxy) htarget).andThen ?_
      rintro P' outcome _ _ rfl
      exact mimics_same (some outcome)
  | withBinding point point' _ ih => exact ih.withBinding point point'
  | catching _ ih => exact ih.catching
  | onThread _ ih => exact ih.onThread
  | weaken _ hbond ih => exact ih.weaken hbond

/-- A target is run with the same, by invocations that need not be paired. -/
theorem Follows.target (h : T.Follows engine) (hdirectory : directory.IsSteady T.toTerms)
    {target target' : Target σ} (htarget : Target.Akin T.toTerms P target target')
    (reached reached' : Option Ref) (this : Value) (method : Method) (arguments : List Value) :
    T.Mimics P Bond.same (target.run directory engine reached this method arguments)
      (target'.run directory engine reached' this method arguments) :=
  mimics_target (K := T.coupling) (fun _ _ halike => Alike.entry halike (.reached _ _ _ _ _ _ _ _ _))
    (h.program hdirectory (htarget P this method arguments P.le_refl))

theorem Follows.advises (h : T.Follows engine) (hdirectory : directory.IsSteady T.toTerms)
    {b : Behaviour σ} (hb : b.IsSteady T.toTerms whole) (hbase : T.base ≤ P) (hr : P.Mates whole r r') :
    T.coupling.Advises directory directory engine engine P r r' b := by
  cases b with
  | around body => exact h.program hdirectory (hb P r r' hbase hr)
  | before advice =>
    intro P' method arguments this hle
    exact h.program hdirectory (hb P' method arguments this (Pairing.le_trans hbase hle))
  | afterReturning advice =>
    intro P' returned method arguments this hle
    exact h.program hdirectory (hb P' returned method arguments this (Pairing.le_trans hbase hle))
  | afterThrowing advice =>
    intro P' failure hle
    have hadvice := hb.2 P' r r' failure (Pairing.le_trans hbase hle) (hr.mono hle)
    exact ⟨mimics_steady (hb.1 failure), h.program hdirectory hadvice⟩
  | instrumented label => exact trivial
  | exposing => exact trivial

theorem Follows.behaviour (h : T.Follows engine) (hdirectory : directory.IsSteady T.toTerms)
    {b : Behaviour σ} (hb : b.IsSteady T.toTerms whole) (hr : P.Mates whole r r') :
    T.Mimics P Bond.same (b.run directory engine r) (b.run directory engine r') := by
  intro w w' halike
  have hbase : T.base ≤ P := Alike.base halike
  exact mimics_behaviour (K := T.coupling) (fun _ hle => reads_of_mates (hr.mono hle))
    (fun P' hle => h.proceed P' r r' (hr.mono hle).blind) (h.advises hdirectory hb hbase hr) w w' halike

/-! ### Walks along chains -/

/-- Both invocations of a pair stand equally far behind the links that they had passed. -/
theorem Follows.walks (h : T.Follows engine) (hdirectory : directory.IsSteady T.toTerms) (p : Pair) :
    T.coupling.Walks directory directory engine engine p.first p.second
      (fun P n n' => p ∈ P.pairs ∧ ∃ k, n = p.passed + k ∧ n' = p.passed' + k)
      (·.IsSteady T.toTerms p.whole) where
  mono hstands hle := ⟨hle hstands.1, hstands.2⟩
  next := by
    rintro P _ _ ⟨hp, k, rfl, rfl⟩
    exact ⟨hp, k + 1, rfl, rfl⟩
  reads hstands := reads_of_mates (Pairing.mates_of_mem hstands.1)
  step hstands := mimics_step hstands.1
  matching := by
    rintro P _ _ ⟨hp, k, rfl, rfl⟩ targetClass arguments
    exact mimics_entry (.matching hp k targetClass arguments)
  skipped := by
    rintro P _ _ ⟨hp, k, rfl, rfl⟩
    exact mimics_entry (.skipped hp k)
  enter := by
    rintro P _ _ ⟨hp, k, rfl, rfl⟩
    exact mimics_enter hp k
  asks hlink method targetClass arguments := mimics_steady (hlink.2 method targetClass arguments)
  runs := by
    intro P n n' link hlink hstands
    have hr := Pairing.mates_of_mem hstands.1
    cases link with
    | plain interceptor => exact h.behaviour hdirectory hlink hr
    | dynamic interceptor accepts => exact h.behaviour hdirectory hlink.1 hr
  target := by
    rintro P _ _ ⟨hp, k, rfl, rfl⟩ w w' halike
    replace halike : T.Alike P w w' := halike
    have htwins := halike.twins p hp
    let i := w.invocation p.first
    let i' := w'.invocation p.second
    have htold : T.Alike P (w.record [.event (.invokingTarget i.call i.method)])
        (w'.record [.event (.invokingTarget i'.call i'.method)]) :=
      halike.backstage (w.backstage_entry trivial) (w'.backstage_entry trivial)
    have htarget : T.Mimics P Bond.same
        (i.target.run directory engine (some p.first) i.this i.method i.arguments)
        (i'.target.run directory engine (some p.second) i'.this i'.method i'.arguments) := by
      rw [htwins.this, htwins.method, htwins.arguments]
      exact h.target hdirectory htwins.target _ _ _ _ _
    exact htarget _ _ htold

/-- Both invocations of a pair go on in the same way. -/
theorem Follows.proceed_step (h : T.Follows engine) (hdirectory : directory.IsSteady T.toTerms)
    (hr : P.Mates false r r') :
    T.Mimics P Bond.same (engine.proceed directory r) (engine.proceed directory r') := by
  obtain ⟨p, hp, rfl, rfl, _⟩ := hr
  intro w w' halike
  have hstart : T.Alike P (w.record [.occurrence (.proceeding p.first)])
      (w'.record [.occurrence (.proceeding p.second)]) :=
    halike.backstage (w.backstage_entry trivial) (w'.backstage_entry trivial)
  have htwins := halike.twins p hp
  obtain ⟨n, hentered, hentered'⟩ := htwins.entered
  have hlinks : ∀ link ∈ (w.invocation p.first).ahead, link.IsSteady T.toTerms p.whole := by
    intro link hlink
    rw [Invocation.ahead, hentered, ← List.drop_drop] at hlink
    exact htwins.steady link (List.mem_of_mem_drop hlink)
  have hwalk := (h.walks hdirectory p).advance _ hlinks P _ _ ⟨hp, n, rfl, rfl⟩ _ _ hstart
  rw [← hentered, ← hentered'] at hwalk
  show T.Matches P Bond.same
    (engine.advance directory p.first (w.invocation p.first).entered (w.invocation p.first).ahead _)
    (engine.advance directory p.second (w'.invocation p.second).entered (w'.invocation p.second).ahead _)
  rw [htwins.ahead]
  exact hwalk

end Parallel

end Interception
