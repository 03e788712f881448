import Interception.Proofs.Exposure
import Interception.Proofs.Parallel

/-! Running the rest of a chain afresh. A copy of an invocation runs what is ahead of it just as a new
invocation does whose chain is no longer than that, provided that nobody looks at what is bound on the
thread or at identities, and the advice ahead looks neither at positions nor at chains. The invocation that was
copied is left as it was, so that the rest can be run once more, with the same arguments or with others. -/

namespace Interception

variable {σ : Type}

/-! ### Calls in parallel -/

namespace Parallel

variable {T : Parallel σ} {P : Pairing} {w w' v v' : World σ} {r r' : Ref} {directory : Directory σ}
  {engine : Engine σ}

/-- A call is started in both worlds. Its invocations have passed nothing. -/
theorem Alike.start (h : T.Alike P w w') (request : Request) {chain : Chain σ} {target target' : Target σ}
    (hlinks : ∀ link ∈ chain.links, link.IsSteady T.toTerms true)
    (htarget : Target.Akin T.toTerms P target target') :
    ∃ P', P ≤ P' ∧ P'.Mates true (w.start request chain target).1 (w'.start request chain target').1 ∧
      T.Alike P' (w.start request chain target).2 (w'.start request chain target').2 := by
  have hcounted : T.Alike P { w with calls := w.calls + 1 } { w' with calls := w'.calls + 1 } := { h with }
  have htwins : T.Twins P
      ⟨(w.start request chain target).1, (w'.start request chain target').1, 0, 0⟩
      (.start ⟨w.calls⟩ request chain target) (.start ⟨w'.calls⟩ request chain target') := {
    this := rfl
    method := rfl
    targetClass := rfl
    arguments := rfl
    attachments := rfl
    links := rfl
    entered := ⟨0, rfl, rfl⟩
    steady := hlinks
    target := htarget }
  obtain ⟨P', hle, hpair, hthen⟩ := hcounted.push htwins
  exact ⟨P', hle, Pairing.mates_of_mem hpair, hthen⟩

theorem Follows.dispatch (h : T.Follows engine) (hdirectory : directory.IsSteady T.toTerms) {chain : Chain σ}
    (hlinks : ∀ link ∈ chain.links, link.IsSteady T.toTerms true) (request : Request)
    {target target' : Target σ} (htarget : Target.Akin T.toTerms P target target') :
    T.Mimics P Bond.same (engine.dispatch directory chain request target)
      (engine.dispatch directory chain request target') := by
  obtain ⟨_ | ⟨link, rest⟩⟩ := chain
  · exact h.target hdirectory htarget none none _ _ _
  · intro w w' halike
    obtain ⟨P', hle, hr, hthen⟩ := halike.start request hlinks htarget
    exact (h.proceed P' _ _ hr.blind _ _ hthen).le hle

theorem Follows.call_step (h : T.Follows engine) (hdirectory : directory.IsSteady T.toTerms)
    {proxy : Proxy σ} (hproxy : proxy.IsSteady T.toTerms) (request : Request) {target target' : Target σ}
    (htarget : Target.Akin T.toTerms P target target') :
    T.Mimics P Bond.same (engine.call directory proxy request target)
      (engine.call directory proxy request target') := by
  intro w w' halike
  have hresolving : Consultation.Akin T.toTerms P Eq (proxy.resolve request.method request.targetClass)
      (proxy.resolve request.method request.targetClass) :=
    hproxy.resolving request.method request.targetClass P halike.base _ (Naming.le_refl _)
  obtain ⟨hresult, hthen⟩ := halike.consult hresolving (proxy.nameless_resolve _ _)
  refine Simulation.matches_call hresult hthen fun chain hchain => ?_
  have hlinks : ∀ link ∈ chain.links, link.IsSteady T.toTerms true :=
    hproxy.chains P w.state w'.state _ _ chain halike.base halike.state hchain
  exact h.dispatch hdirectory (Proxy.forall_assembled trivial hlinks) request htarget

/-- **The engine does the same in both worlds**, to any depth. -/
theorem follows_ofDepth (hdirectory : directory.IsSteady T.toTerms) (depth : Nat) :
    T.Follows (Engine.ofDepth directory depth) := by
  induction depth with
  | zero =>
    have hout : ∀ P a a', T.Mimics P Bond.same (Engine.ofDepth directory 0 a) (Engine.ofDepth directory 0 a') :=
      fun _ _ _ _ _ halike => Simulation.matches_outOfDepth halike
    exact ⟨fun P _ _ _ => hout P _ _, fun P _ _ _ _ _ _ => hout P _ _⟩
  | succ depth ih =>
    exact ⟨fun P r r' hr => ih.proceed_step hdirectory hr,
      fun P proxy request target target' hproxy htarget => ih.call_step hdirectory hproxy request htarget⟩

end Parallel

/-! ### Scenes -/

/-- That a callback is run, and with what: told without identities, threads and positions. What stands in a
chain is told as it is. -/
inductive Scene (σ : Type) where
  | noted (text : String)
  | asked (question : Question) (targetClass : Class)
  | answered (question : Question) (verdict : Bool)
  /-- The argument predicate of a link is consulted. -/
  | matching (link : Option (Link σ)) (method : Method) (targetClass : Class) (arguments : List Value)
  | skipped (link : Option (Link σ)) (method : Method)
  /-- The interceptor of a link is run. -/
  | advised (link : Option (Link σ)) (method : Method) (arguments : List Value)
  /-- The target is run. -/
  | reached (this : Value) (method : Method) (arguments : List Value)

namespace World

/-- The scene that an entry tells of, if it does. -/
def scene? (w : World σ) : Entry → Option (Scene σ)
  | .note text => some (.noted text)
  | .occurrence (.asked question targetClass) => some (.asked question targetClass)
  | .occurrence (.answered question verdict) => some (.answered question verdict)
  | .occurrence (.matching r position targetClass arguments) =>
    let i := w.invocation r
    some (.matching i.chain.links[position]? i.method targetClass arguments)
  | .occurrence (.skipped r position) =>
    let i := w.invocation r
    some (.skipped i.chain.links[position]? i.method)
  | .occurrence (.entered r position _ arguments _ _) =>
    let i := w.invocation r
    some (.advised i.chain.links[position]? i.method arguments)
  | .occurrence (.reached _ this method arguments _ _) => some (.reached this method arguments)
  | _ => none

/-- The scenes since the journal had so many entries, in order. -/
def scenes (w : World σ) (since : Nat) : List (Scene σ) := (w.journal.toList.drop since).filterMap w.scene?

theorem scene?_of_backstage (w : World σ) {entry : Entry} (h : entry.IsBackstage) : w.scene? entry = none := by
  cases entry with
  | note text => exact h.elim
  | event e => rfl
  | occurrence o => cases o <;> first | rfl | exact h.elim

end World

namespace Parallel

variable {T : Parallel σ} {P : Pairing} {w w' : World σ}

theorem Alike.scene?_eq (h : T.Alike P w w') {entry entry' : Entry} (hentry : P.SameEntry entry entry') :
    w'.scene? entry' = w.scene? entry := by
  cases hentry with
  | note text => rfl
  | asked question targetClass => rfl
  | answered question verdict => rfl
  | matching hp n targetClass arguments =>
    have htwins := h.twins _ hp
    simp only [World.scene?, htwins.method, htwins.link]
  | skipped hp n =>
    have htwins := h.twins _ hp
    simp only [World.scene?, htwins.method, htwins.link]
  | entered hp n current current' arguments thread thread' bindings bindings' =>
    have htwins := h.twins _ hp
    simp only [World.scene?, htwins.method, htwins.link]
  | reached r r' this method arguments thread thread' bindings bindings' => rfl

/-- Both journals tell the same scenes. -/
theorem Alike.scenes_eq (h : T.Alike P w w') :
    w'.scenes T.second.journal.size = w.scenes T.first.journal.size := by
  obtain ⟨gained, gained', hgained, hgained', htells⟩ := h.journal
  rw [World.scenes, World.scenes, hgained, hgained', ← Array.length_toList, ← Array.length_toList,
    List.drop_left, List.drop_left]
  clear hgained hgained'
  induction htells with
  | nil => rfl
  | both he _ ih => rw [List.filterMap_cons, List.filterMap_cons, h.scene?_eq he, ih]
  | left he _ ih => rw [List.filterMap_cons, World.scene?_of_backstage w he, ih]
  | right he _ ih => rw [List.filterMap_cons, World.scene?_of_backstage w' he, ih]

end Parallel

/-! ### Copies and new invocations -/

/-- Runs the rest of the chain on a copy of the invocation, with other arguments if there are some. -/
def Program.rerun (r : Ref) (replacement : Option (List Value)) : Program σ Outcome := do
  let copy ← match replacement with
    | none => Program.fork r
    | some arguments => Program.forkWith r arguments
  Program.proceed copy

namespace Invocation

/-- A new invocation over the links that are ahead of this one, with the same target object, method, class and
target, and the same attributes. -/
def anew (i : Invocation σ) (call : CallId) (arguments : List Value) : Invocation σ :=
  let request : Request := { this := i.this, method := i.method, targetClass := some i.targetClass, arguments }
  { start call request ⟨i.ahead⟩ i.target with attachments := i.attachments }

/-- What is ahead of the invocation may be run behind other links as well. -/
structure IsSteady (T : Terms σ) (i : Invocation σ) : Prop where
  links : ∀ link ∈ i.ahead, link.IsSteady T false
  target : Target.Akin T T.base i.target i.target

/-- Both invocations have the same ahead of them, and the same attached to them. -/
structure SameAhead (i i' : Invocation σ) : Prop where
  this : i'.this = i.this
  method : i'.method = i.method
  targetClass : i'.targetClass = i.targetClass
  arguments : i'.arguments = i.arguments
  attachments : i'.attachments = i.attachments
  ahead : i'.ahead = i.ahead
  target : i'.target = i.target

theorem sameAhead_anew (i : Invocation σ) (call : CallId) (arguments : List Value) :
    { i with arguments }.SameAhead (i.anew call arguments) :=
  ⟨rfl, rfl, rfl, rfl, rfl, rfl, rfl⟩

end Invocation

namespace World

variable (w : World σ) (r : Ref)

def given (replacement : Option (List Value)) : List Value := replacement.getD (w.invocation r).arguments

def copied (replacement : Option (List Value)) : Ref × World σ :=
  let (copy, v) := w.push (w.invocation r)
  (copy, match replacement with
    | none => v
    | some arguments => v.setArguments copy arguments)

/-- A new invocation over the links that are ahead of another one. -/
def afresh (arguments : List Value) : Ref × World σ :=
  { w with calls := w.calls + 1 }.push ((w.invocation r).anew ⟨w.calls⟩ arguments)

/-- The world after the rest of the chain was run once more on a copy. -/
def rerun (directory : Directory σ) (depth : Nat) (replacement : Option (List Value)) : World σ :=
  ((Program.rerun r replacement).run directory (Engine.ofDepth directory depth) w).2

/-- The world after the rest of the chain was run on one copy after the other. -/
def reruns (directory : Directory σ) (depth : Nat) (replacements : List (Option (List Value))) : World σ :=
  replacements.foldl (fun v replacement => v.rerun r directory depth replacement) w

variable {w r}

theorem update_push (i : Invocation σ) (change : Invocation σ → Invocation σ) :
    (w.push i).2.update (w.push i).1 change = (w.push (change i)).2 := by
  simp only [push, update, modify_push]

/-- The copy is one with the arguments given, and what else is done for it is done backstage. -/
theorem backstage_copied (replacement : Option (List Value)) :
    (w.push { w.invocation r with arguments := w.given r replacement }).2.Backstage
      (w.copied r replacement).2 := by
  cases replacement with
  | none => exact .refl _
  | some arguments =>
    have hreplaced := (w.push (w.invocation r)).2.backstage_setArguments (w.push (w.invocation r)).1 arguments
    rw [update_push] at hreplaced
    exact hreplaced

end World

theorem Program.run_rerun (directory : Directory σ) (engine : Engine σ) (r : Ref)
    (replacement : Option (List Value)) (w : World σ) :
    (Program.rerun r replacement).run directory engine w =
      engine (.proceed (w.copied r replacement).1) (w.copied r replacement).2 := by
  cases replacement <;> rfl

namespace Parallel

variable {T : Parallel σ} {P : Pairing} {w w' v v' : World σ} {i i' : Invocation σ}

/-- Invocations that have the same ahead of them are twins from where they stand. -/
theorem twins_of_ahead (hsteady : i.IsSteady T.toTerms) (hsame : i.SameAhead i') (r r' : Ref) :
    T.Twins T.base ⟨r, r', i.entered, i'.entered⟩ i i' where
  this := hsame.this
  method := hsame.method
  targetClass := hsame.targetClass
  arguments := hsame.arguments
  attachments := hsame.attachments
  links := hsame.ahead
  entered := ⟨0, rfl, rfl⟩
  steady link hlink := (hsteady.links link hlink).of_blind
  target := hsame.target ▸ hsteady.target

/-- Two new invocations that have the same ahead of them are advanced. -/
theorem Alike.proceed_new (h : T.Alike T.base w w') {directory : Directory σ}
    (hdirectory : directory.IsSteady T.toTerms) (depth : Nat) (hsteady : i.IsSteady T.toTerms)
    (hsame : i.SameAhead i') (hv : (w.push i).2.Backstage v) (hv' : (w'.push i').2.Backstage v') :
    T.Matches T.base Bond.same (Engine.ofDepth directory depth (.proceed (w.push i).1) v)
      (Engine.ofDepth directory depth (.proceed (w'.push i').1) v') := by
  obtain ⟨P, hle, hpair, hthen⟩ := h.push (twins_of_ahead hsteady hsame (w.push i).1 (w'.push i').1)
  have hfollows : T.Follows (Engine.ofDepth directory depth) := follows_ofDepth hdirectory depth
  have hmates := (Pairing.mates_of_mem hpair).blind
  exact (hfollows.proceed P _ _ hmates v v' (hthen.backstage hv hv')).le hle

end Parallel

/-! ### Worlds in which an invocation is run again -/

/-- The pair is of an invocation of the world with itself. It may be one that has passed some links. -/
structure Terms.Keeps (T : Terms σ) (w : World σ) (p : Pair) : Prop where
  same : p.second = p.first
  there : p.first.index < w.invocations.size
  passed : p.passed' = p.passed
  entered : p.passed ≤ (w.invocation p.first).entered
  steady : ∀ link ∈ (w.invocation p.first).chain.links.drop p.passed, link.IsSteady T p.whole
  target : Target.Akin T T.base (w.invocation p.first).target (w.invocation p.first).target

/-- The rest of the chain of the invocation can be run in this world on these terms. -/
structure Terms.Suits (T : Terms σ) (w : World σ) (r : Ref) : Prop where
  there : r.index < w.invocations.size
  state : T.same T.base w.state w.state
  /-- The invocations that code may have a use for. -/
  kept : ∀ p ∈ T.base.pairs, T.Keeps w p
  steady : (w.invocation r).IsSteady T

/-- Callbacks carry nothing over from one run to the next: they make nothing of the state that they share, and
have no use for invocations that were made before. -/
structure Terms.IsStateless (T : Terms σ) : Prop where
  base : T.base.pairs = []
  same : ∀ P s s', T.same P s s'

namespace Terms

variable {T : Terms σ} {w v : World σ} {r : Ref} {P : Pairing} {directory : Directory σ}

theorem Keeps.twins {p : Pair} (h : T.Keeps w p) :
    (Parallel.mk T w w).Twins T.base p (w.invocation p.first) (w.invocation p.second) := by
  obtain ⟨n, hn⟩ := Nat.exists_eq_add_of_le h.entered
  rw [h.same]
  exact {
    this := rfl
    method := rfl
    targetClass := rfl
    arguments := rfl
    attachments := rfl
    links := by rw [h.passed]
    entered := ⟨n, hn, by rw [h.passed]; exact hn⟩
    steady := h.steady
    target := h.target }

theorem alike_of_twins (hstate : T.same T.base v.state w.state)
    (htwins : ∀ p ∈ T.base.pairs, (Parallel.mk T v w).Twins T.base p (v.invocation p.first)
      (w.invocation p.second))
    (hrange : ∀ p ∈ T.base.pairs, p.first.index < v.invocations.size ∧ p.second.index < w.invocations.size) :
    (Parallel.mk T v w).Alike T.base v w where
  base := T.base.le_refl
  state := hstate
  twins := htwins
  range := hrange
  size := Nat.le_refl _
  later _ hp := .inl hp
  others _ _ _ := rfl
  journal := ⟨[], [], (List.append_nil _).symm, (List.append_nil _).symm, .nil⟩

theorem Suits.alike (h : T.Suits w r) : (Parallel.mk T w w).Alike T.base w w :=
  alike_of_twins h.state (fun p hp => (h.kept p hp).twins) fun p hp =>
    ⟨(h.kept p hp).there, (h.kept p hp).same ▸ (h.kept p hp).there⟩

theorem IsStateless.not_mem (h : T.IsStateless) (p : Pair) : p ∉ T.base.pairs := by
  rw [h.base]
  exact List.not_mem_nil

/-- Code that carries nothing over may be run in any two worlds. -/
theorem IsStateless.alike (h : T.IsStateless) (v w : World σ) : (Parallel.mk T v w).Alike T.base v w :=
  alike_of_twins (h.same _ _ _) (fun p hp => absurd hp (h.not_mem p)) fun p hp => absurd hp (h.not_mem p)

/-- A copy, and a new invocation over the links ahead, come to what matches. -/
theorem Suits.matches_afresh (h : T.Suits w r) (hdirectory : directory.IsSteady T) (depth : Nat)
    (replacement : Option (List Value)) :
    (Parallel.mk T w w).Matches T.base Bond.same
      ((Program.rerun r replacement).run directory (Engine.ofDepth directory depth) w)
      (Engine.ofDepth directory depth (.proceed (w.afresh r (w.given r replacement)).1)
        (w.afresh r (w.given r replacement)).2) := by
  have hcounted : (Parallel.mk T w w).Alike T.base w { w with calls := w.calls + 1 } := { h.alike with }
  have hsteady : { w.invocation r with arguments := w.given r replacement }.IsSteady T :=
    ⟨h.steady.links, h.steady.target⟩
  have hsame := (w.invocation r).sameAhead_anew ⟨w.calls⟩ (w.given r replacement)
  rw [Program.run_rerun]
  exact hcounted.proceed_new hdirectory depth hsteady hsame (World.backstage_copied replacement) (.refl _)

/-- Invocations that nobody has a use for are left as they were. -/
theorem Suits.rerun_leaves (h : T.Suits w r) (hdirectory : directory.IsSteady T) (depth : Nat)
    (replacement : Option (List Value)) {s : Ref} (hs : s.index < w.invocations.size)
    (hfree : ∀ p ∈ T.base.pairs, p.first ≠ s) :
    w.invocations.size ≤ (w.rerun r directory depth replacement).invocations.size ∧
      (w.rerun r directory depth replacement).invocation s = { w.invocation s with
        exposedAt := ((w.rerun r directory depth replacement).invocation s).exposedAt } := by
  obtain ⟨P, _, _, halike⟩ := (h.matches_afresh hdirectory depth replacement).result
  exact ⟨halike.size, halike.others s hs hfree⟩

/-! ### Running the rest once more -/

/-- What one run on a copy keeps. -/
theorem IsStateless.rerun_step (h : T.IsStateless) (hdirectory : directory.IsSteady T) (hsuits : T.Suits w r)
    (depth : Nat) (replacement : Option (List Value)) :
    T.Suits (w.rerun r directory depth replacement) r ∧
      (w.rerun r directory depth replacement).invocation r = { w.invocation r with
        exposedAt := ((w.rerun r directory depth replacement).invocation r).exposedAt } := by
  have hfree : ∀ p ∈ T.base.pairs, p.first ≠ r := fun p hp => absurd hp (h.not_mem p)
  obtain ⟨hsize, hkept⟩ := hsuits.rerun_leaves hdirectory depth replacement hsuits.there hfree
  refine ⟨{
    there := Nat.lt_of_lt_of_le hsuits.there hsize
    state := h.same _ _ _
    kept := fun p hp => absurd hp (h.not_mem p)
    steady := ?_ }, hkept⟩
  rw [hkept]
  exact ⟨hsuits.steady.links, hsuits.steady.target⟩

/-- However often the rest of the chain is run on copies, the invocation stays as it was. -/
theorem IsStateless.reruns_keep (h : T.IsStateless) (hdirectory : directory.IsSteady T) (depth : Nat)
    (replacements : List (Option (List Value))) (hsuits : T.Suits w r) :
    T.Suits (w.reruns r directory depth replacements) r ∧
      (w.reruns r directory depth replacements).invocation r = { w.invocation r with
        exposedAt := ((w.reruns r directory depth replacements).invocation r).exposedAt } := by
  induction replacements generalizing w with
  | nil => exact ⟨hsuits, rfl⟩
  | cons replacement rest ih =>
    obtain ⟨hthen, hkept⟩ := h.rerun_step hdirectory hsuits depth replacement
    obtain ⟨hlast, hkept'⟩ := ih hthen
    refine ⟨hlast, ?_⟩
    rw [hkept] at hkept'
    exact hkept'

theorem IsStateless.matches_rerun (h : T.IsStateless) (hdirectory : directory.IsSteady T) (depth : Nat)
    (hsuits : T.Suits v r)
    (hkept : v.invocation r = { w.invocation r with exposedAt := (v.invocation r).exposedAt })
    (replacement : Option (List Value)) :
    (Parallel.mk T v w).Matches T.base Bond.same
      ((Program.rerun r replacement).run directory (Engine.ofDepth directory depth) v)
      ((Program.rerun r replacement).run directory (Engine.ofDepth directory depth) w) := by
  have hsteady : { v.invocation r with arguments := v.given r replacement }.IsSteady T :=
    ⟨hsuits.steady.links, hsuits.steady.target⟩
  have hsame : { v.invocation r with arguments := v.given r replacement }.SameAhead
      { w.invocation r with arguments := w.given r replacement } := by
    rw [World.given, hkept]
    exact ⟨rfl, rfl, rfl, rfl, rfl, rfl, rfl⟩
  rw [Program.run_rerun, Program.run_rerun]
  exact (h.alike v w).proceed_new hdirectory depth hsteady hsame (World.backstage_copied replacement)
    (World.backstage_copied replacement)

end Terms

/-- **Running a copy is running the rest of the chain afresh.** In whatever world an invocation stands, however
many links it has passed, a copy of it, with its own arguments or with others, and a new invocation over
the links ahead come to the same: both runs end in the same way, and predicates, advice and targets have
the same scenes in the same order. They have to leave the bindings alone and to make nothing of identities,
and the advice ahead must look neither at positions nor at chains. All invocations that were there before,
if no code has a use for them, are left as they were, and so is the one that was copied, whatever was done
to the copy. If callbacks carry nothing over, the rest can be run any number of times, with whatever arguments,
and each run comes to what the first one would have come to. -/
theorem Program.rerun_afresh {T : Terms σ} {directory : Directory σ} (hdirectory : directory.IsSteady T)
    {w : World σ} {r : Ref} (hsuits : T.Suits w r) (depth : Nat) (replacement : Option (List Value)) :
    let engine := Engine.ofDepth directory depth
    let x := (Program.rerun r replacement).run directory engine w
    let fresh := w.afresh r (w.given r replacement)
    let y := engine (.proceed fresh.1) fresh.2
    (y.1 = x.1 ∧ y.2.scenes w.journal.size = x.2.scenes w.journal.size ∧
        ∃ P, (Parallel.mk T w w).Alike P x.2 y.2) ∧
      (∀ s : Ref, s.index < w.invocations.size → (∀ p ∈ T.base.pairs, p.first ≠ s) →
        x.2.invocation s = { w.invocation s with exposedAt := (x.2.invocation s).exposedAt }) ∧
      (T.IsStateless → ∀ replacements : List (Option (List Value)),
        let v := w.reruns r directory depth replacements
        let z := (Program.rerun r replacement).run directory engine v
        v.invocation r = { w.invocation r with exposedAt := (v.invocation r).exposedAt } ∧
          z.1 = x.1 ∧ z.2.scenes v.journal.size = x.2.scenes w.journal.size) := by
  intro engine x fresh y
  refine ⟨?_, fun s hs hfree => ?_, fun hstateless replacements => ?_⟩
  · obtain ⟨P, _, hending, halike⟩ := (hsuits.matches_afresh hdirectory depth replacement).result
    exact ⟨Ending.akin_eq_iff.mp hending, halike.scenes_eq, P, halike⟩
  · exact (hsuits.rerun_leaves hdirectory depth replacement hs hfree).2
  · obtain ⟨hthen, hkept⟩ := hstateless.reruns_keep hdirectory depth replacements hsuits
    obtain ⟨P, _, hending, halike⟩ :=
      (hstateless.matches_rerun hdirectory depth hthen hkept replacement).result
    exact ⟨hkept, (Ending.akin_eq_iff.mp hending).symm, halike.scenes_eq.symm⟩

/-! ### A published call whose rest is run on copies -/

/-- The world in which a call with the argument 1 is published, with the given links ahead. -/
def underWay (links : List (Link Nat)) (target : Target Nat) : World Nat :=
  (World.startPublished { state := 0 } { this := .unit, method := default, arguments := [.int32 1] } ⟨links⟩
    target).publish ⟨0⟩

/-- Around advice that changes the arguments and the attributes of its invocation, and goes on twice. -/
def restless : Interceptor Nat where
  serial := some 0
  behaviour := .around fun r => do
    Program.perform (.setArguments r [.int32 5])
    let _ ← Program.perform (.setAttribute r "tried" .unit)
    let copy ← Program.fork r
    let _ ← Program.proceed copy
    Program.proceed r

/-- Advice that notes that the call was let in. -/
def noting : Interceptor Nat where
  serial := some 1
  behaviour := .before fun _ _ _ => do
    Program.note "let in"
    pure (.ok ())

/-- Restless advice in front of advice that only applies to calls with arguments. -/
def restlessLinks : List (Link Nat) :=
  [.plain restless, .dynamic noting fun _ _ arguments => Consultation.answer !arguments.isEmpty]

/-- Around advice that notes where it stands. -/
def placing : Interceptor Nat where
  serial := some 2
  behaviour := .around fun r => do
    let position ← Program.read r .position
    Program.note (Nat.repr (position.getD 0))
    Program.proceed r

/-- The proxy of the calls that the target makes. -/
def placed : Proxy Nat where
  config := { exposeInvocation := true }
  advisors := [.always (.around placing)]

theorem rerun_afresh_restless :
    let w := underWay restlessLinks relaying
    let T : Terms Nat := ⟨.empty, fun _ _ _ => True, fun _ _ => trivial⟩
    let directory : Directory Nat := fun name => if name = "inner" then some placed else none
    let engine := Engine.ofDepth directory 7
    let x := (Program.rerun ⟨0⟩ (some [.int32 2])).run directory engine w
    let fresh := w.afresh ⟨0⟩ (w.given ⟨0⟩ (some [.int32 2]))
    let y := engine (.proceed fresh.1) fresh.2
    let v := w.reruns ⟨0⟩ directory 7 [none, some []]
    ((w.invocation ⟨0⟩).entered = 1 ∧ x.1 ≠ .outOfDepth ∧ x.2.state = 2 ∧
      (x.2.scenes w.journal.size).length = 25 ∧ v.state = 4 ∧ v.invocations.size = 9) ∧
      (y.1 = x.1 ∧ y.2.scenes w.journal.size = x.2.scenes w.journal.size ∧
        ∃ P, (Parallel.mk T w w).Alike P x.2 y.2) ∧
      (x.2.invocation ⟨0⟩).arguments = [.int32 1] ∧
      ((Program.rerun ⟨0⟩ (some [.int32 2])).run directory engine v).1 = x.1 ∧
      ((Program.rerun ⟨0⟩ (some [.int32 2])).run directory engine v).2.scenes v.journal.size =
        x.2.scenes w.journal.size := by
  intro w T directory engine x fresh y v
  have hrestless : restless.behaviour.IsSteady T false := fun P r r' _ hr =>
    .andThen (B := Bond.same) (.setArguments hr _) fun _ _ _ hle₁ _ =>
    .andThen (B := Bond.same) (.setAttribute (hr.mono hle₁) _ _) fun _ _ _ hle₂ _ =>
    have hr₂ := (hr.mono hle₁).mono hle₂
    .andThen (.fork hr₂) fun _ _ _ hle₃ hcopy =>
    .andThen (.proceed hcopy) fun _ _ _ hle₄ _ => .proceed ((hr₂.mono hle₃).mono hle₄)
  have hnoting : noting.behaviour.IsSteady T false := fun _ _ _ _ _ =>
    .andThen (B := Bond.same) (.consult fun _ _ _ => ⟨.ok rfl, rfl, trivial⟩) fun _ _ _ _ _ => .done rfl
  have hplacing : placing.behaviour.IsSteady T true := fun _ _ _ _ hr =>
    .andThen (.read hr (.inl rfl)) fun _ _ _ hle₁ hposition =>
    .andThen (B := Bond.same) (.consult fun _ _ _ => ⟨.ok rfl, hposition ▸ rfl, trivial⟩) fun _ _ _ hle₂ _ =>
    .proceed ((hr.mono hle₁).mono hle₂).blind
  have hfailing : ∀ P, Target.Akin T P failing failing := fun _ _ _ _ _ _ =>
    .andThen (B := Bond.same) (.consult fun _ _ _ => ⟨.ok rfl, rfl, trivial⟩) fun _ _ _ _ _ => .done rfl
  have hrelaying : Target.Akin T T.base relaying relaying := fun P _ _ _ _ =>
    .andThen (.invoke "inner" _ (hfailing P)) fun _ _ _ _ _ => .done rfl
  have hplaced : placed.IsSteady T := by
    refine Proxy.isSteady_of_advisors (fun P _ => ?_) ?_
    · exact List.forall_mem_singleton.mpr ⟨fun _ => Consultation.isUniform_answer true,
        ⟨fun _ _ => Consultation.isUniform_answer true, fun _ _ _ => Consultation.isUniform_answer true⟩⟩
    · exact List.forall_mem_singleton.mpr (List.forall_mem_singleton.mpr hplacing)
  have hdirectory : directory.IsSteady T := by
    intro name proxy hproxy
    obtain ⟨_, rfl⟩ : name = "inner" ∧ placed = proxy := by simpa [directory] using hproxy
    exact hplaced
  have hsuits : T.Suits w ⟨0⟩ := {
    there := by decide +kernel
    state := trivial
    kept := nofun
    steady := {
      links := List.forall_mem_cons.mpr ⟨hrestless, List.forall_mem_singleton.mpr
        ⟨hnoting, fun _ _ _ _ _ => Consultation.isUniform_answer _⟩⟩
      target := hrelaying } }
  have hends : x.1 ≠ .outOfDepth := by
    intro hout
    have hcheck : (match x.1 with | .outOfDepth => false | _ => true) = true := by decide +kernel
    rw [hout] at hcheck
    cases hcheck
  obtain ⟨hsame, hkept, hretries⟩ := Program.rerun_afresh hdirectory hsuits 7 (some [.int32 2])
  refine ⟨⟨by decide +kernel, hends, by decide +kernel, by decide +kernel, by decide +kernel,
    by decide +kernel⟩, hsame, ?_, ?_⟩
  · rw [hkept ⟨0⟩ hsuits.there nofun]
    rfl
  · exact (hretries ⟨rfl, fun _ _ _ => trivial⟩ [none, some []]).2

/-- A target that returns the first argument of the call that is published. -/
def telling : Target Nat := fun _ _ _ => do
  match ← Program.perform .currentJoinPoint with
  | .ok point => pure (.ok (point.arguments.headD .unit))
  | .error _ => pure (.ok .unit)

/-- A target that looks at what is bound can tell a copy, which replaces the arguments of the call that is
published, from a new invocation, which is not published, even if no advice is ahead. -/
theorem rerun_afresh_telling :
    let w := underWay [] telling
    let directory : Directory Nat := fun _ => none
    let engine := Engine.ofDepth directory 2
    let x := (Program.rerun ⟨0⟩ (some [.int32 2])).run directory engine w
    let fresh := w.afresh ⟨0⟩ (w.given ⟨0⟩ (some [.int32 2]))
    let y := engine (.proceed fresh.1) fresh.2
    (w.invocation ⟨0⟩).ahead = [] ∧ x.1 = .finished (.ok (.int32 2)) ∧ y.1 = .finished (.ok (.int32 1)) ∧
      y.1 ≠ x.1 := by
  intro w directory engine x fresh y
  have hcopy : x.1 = .finished (.ok (.int32 2)) := rfl
  have hnew : y.1 = .finished (.ok (.int32 1)) := rfl
  refine ⟨rfl, hcopy, hnew, ?_⟩
  rw [hcopy, hnew]
  simp

end Interception
