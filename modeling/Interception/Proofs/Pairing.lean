import Interception.Proofs.Uniformity

/-! Pairings. Two runs may do the same although an invocation of one of them has passed links of which the
invocation that stands for it in the other one knows nothing. A pairing says which invocations stand for one
another, and how many links each of them had passed when they were paired. Invocations that nobody has a
use for are left out. Pairings grow as invocations are made, and programs are akin when from invocations that
are paired they come to results that belong together. -/

namespace Interception

universe u

variable {σ : Type}

/-- Two invocations that stand for one another, one in each of two runs. -/
structure Pair where
  first : Ref
  second : Ref
  /-- How many links of its chain the first one had passed. -/
  passed : Nat
  /-- How many links of its chain the second one had passed. -/
  passed' : Nat

/-- Neither had passed any link, so they have the same chain and stand at the same position. -/
def Pair.whole (p : Pair) : Bool := p.passed == 0 && p.passed' == 0

/-- Pairs of which no two have an invocation in common. -/
structure Pairing where
  pairs : List Pair
  firsts : (pairs.map Pair.first).Nodup
  seconds : (pairs.map Pair.second).Nodup

namespace Pairing

/-- No invocations are paired. -/
def empty : Pairing := ⟨[], List.nodup_nil, List.nodup_nil⟩

/-- More pairs. -/
instance : LE Pairing where
  le P P' := P.pairs ⊆ P'.pairs

/-- The two references are to invocations that are paired. If `whole` is set, these have the same chain. -/
def Mates (P : Pairing) (whole : Bool) (r r' : Ref) : Prop :=
  ∃ p ∈ P.pairs, p.first = r ∧ p.second = r' ∧ (whole = true → p.whole = true)

variable {P P' P'' : Pairing} {p q : Pair} {r r' : Ref} {whole : Bool}

theorem le_refl (P : Pairing) : P ≤ P := List.Subset.refl P.pairs

theorem le_trans (h : P ≤ P') (h' : P' ≤ P'') : P ≤ P'' := List.Subset.trans h h'

theorem Mates.mono (h : P.Mates whole r r') (hle : P ≤ P') : P'.Mates whole r r' := by
  obtain ⟨p, hp, hmates⟩ := h
  exact ⟨p, hle hp, hmates⟩

theorem Mates.blind (h : P.Mates whole r r') : P.Mates false r r' := by
  obtain ⟨p, hp, hfirst, hsecond, _⟩ := h
  exact ⟨p, hp, hfirst, hsecond, nofun⟩

theorem mates_of_mem (hp : p ∈ P.pairs) : P.Mates p.whole p.first p.second := ⟨p, hp, rfl, rfl, id⟩

/-- An invocation of the first run is in one pair only. -/
theorem eq_of_first (hp : p ∈ P.pairs) (hq : q ∈ P.pairs) (h : p.first = q.first) : p = q :=
  List.inj_on_of_nodup_map P.firsts hp hq h

/-- An invocation of the second run is in one pair only. -/
theorem eq_of_second (hp : p ∈ P.pairs) (hq : q ∈ P.pairs) (h : p.second = q.second) : p = q :=
  List.inj_on_of_nodup_map P.seconds hp hq h

/-- One more pair, of invocations that are in none. -/
def joined (P : Pairing) (p : Pair) (hfirst : ∀ q ∈ P.pairs, q.first ≠ p.first)
    (hsecond : ∀ q ∈ P.pairs, q.second ≠ p.second) : Pairing where
  pairs := p :: P.pairs
  firsts := List.nodup_cons.mpr ⟨fun h => by
    obtain ⟨q, hq, heq⟩ := List.mem_map.mp h
    exact hfirst q hq heq, P.firsts⟩
  seconds := List.nodup_cons.mpr ⟨fun h => by
    obtain ⟨q, hq, heq⟩ := List.mem_map.mp h
    exact hsecond q hq heq, P.seconds⟩

theorem le_joined {hfirst : ∀ q ∈ P.pairs, q.first ≠ p.first}
    {hsecond : ∀ q ∈ P.pairs, q.second ≠ p.second} : P ≤ P.joined p hfirst hsecond :=
  List.subset_cons_self p P.pairs

/-! ### Journals -/

/-- Two entries that tell the same: the same note, or a predicate, an interceptor or the target run with the
same arguments, at places that are equally far behind the links passed before. -/
inductive SameEntry (P : Pairing) : Entry → Entry → Prop where
  | note (text : String) : SameEntry P (.note text) (.note text)
  | asked (question : Question) (targetClass : Class) :
    SameEntry P (.occurrence (.asked question targetClass)) (.occurrence (.asked question targetClass))
  | answered (question : Question) (verdict : Bool) :
    SameEntry P (.occurrence (.answered question verdict)) (.occurrence (.answered question verdict))
  | matching {p : Pair} (hp : p ∈ P.pairs) (n : Nat) (targetClass : Class) (arguments : List Value) :
    SameEntry P (.occurrence (.matching p.first (p.passed + n) targetClass arguments))
      (.occurrence (.matching p.second (p.passed' + n) targetClass arguments))
  | skipped {p : Pair} (hp : p ∈ P.pairs) (n : Nat) :
    SameEntry P (.occurrence (.skipped p.first (p.passed + n)))
      (.occurrence (.skipped p.second (p.passed' + n)))
  | entered {p : Pair} (hp : p ∈ P.pairs) (n : Nat) (current current' : Option Nat) (arguments : List Value)
      (thread thread' : Nat) (bindings bindings' : Bindings) :
    SameEntry P (.occurrence (.entered p.first (p.passed + n) current arguments thread bindings))
      (.occurrence (.entered p.second (p.passed' + n) current' arguments thread' bindings'))
  | reached (r r' : Option Ref) (this : Value) (method : Method) (arguments : List Value)
      (thread thread' : Nat) (bindings bindings' : Bindings) :
    SameEntry P (.occurrence (.reached r this method arguments thread bindings))
      (.occurrence (.reached r' this method arguments thread' bindings'))

/-- Two journals tell the same runs of callbacks, in the same order. -/
inductive Tells (P : Pairing) : List Entry → List Entry → Prop where
  | nil : Tells P [] []
  | both {e e' : Entry} {es es' : List Entry} (he : P.SameEntry e e') (h : Tells P es es') :
    Tells P (e :: es) (e' :: es')
  | left {e : Entry} {es es' : List Entry} (he : e.IsBackstage) (h : Tells P es es') :
    Tells P (e :: es) es'
  | right {e' : Entry} {es es' : List Entry} (he : e'.IsBackstage) (h : Tells P es es') :
    Tells P es (e' :: es')

variable {e e' : Entry} {es es' fs fs' : List Entry}

theorem SameEntry.mono (h : P.SameEntry e e') (hle : P ≤ P') : P'.SameEntry e e' := by
  cases h with
  | note text => exact .note text
  | asked question targetClass => exact .asked question targetClass
  | answered question verdict => exact .answered question verdict
  | matching hp n targetClass arguments => exact .matching (hle hp) n targetClass arguments
  | skipped hp n => exact .skipped (hle hp) n
  | entered hp n current current' arguments thread thread' bindings bindings' =>
    exact .entered (hle hp) n current current' arguments thread thread' bindings bindings'
  | reached r r' this method arguments thread thread' bindings bindings' =>
    exact .reached r r' this method arguments thread thread' bindings bindings'

theorem Tells.mono (h : P.Tells es es') (hle : P ≤ P') : P'.Tells es es' := by
  induction h with
  | nil => exact .nil
  | both he _ ih => exact .both (he.mono hle) ih
  | left he _ ih => exact .left he ih
  | right he _ ih => exact .right he ih

theorem Tells.append (h : P.Tells es es') (h' : P.Tells fs fs') : P.Tells (es ++ fs) (es' ++ fs') := by
  induction h with
  | nil => exact h'
  | both he _ ih => exact .both he ih
  | left he _ ih => exact .left he ih
  | right he _ ih => exact .right he ih

theorem tells_backstage (h : ∀ e ∈ es, e.IsBackstage) (h' : ∀ e ∈ es', e.IsBackstage) : P.Tells es es' := by
  induction es with
  | nil =>
    induction es' with
    | nil => exact .nil
    | cons e es' ih =>
      obtain ⟨he, hrest⟩ := List.forall_mem_cons.mp h'
      exact .right he (ih hrest)
  | cons e es ih =>
    obtain ⟨he, hrest⟩ := List.forall_mem_cons.mp h
    exact .left he (ih hrest)

/-- What tells of no invocation tells the same in both runs. -/
theorem tells_nameless (h : ∀ e ∈ es, e.IsNameless) : P.Tells es es := by
  induction es with
  | nil => exact .nil
  | cons e es ih =>
    obtain ⟨he, hrest⟩ := List.forall_mem_cons.mp h
    cases e with
    | note text => exact .both (.note text) (ih hrest)
    | event event => exact .left trivial (.right trivial (ih hrest))
    | occurrence o =>
      cases o with
      | asked question targetClass => exact .both (.asked question targetClass) (ih hrest)
      | answered question verdict => exact .both (.answered question verdict) (ih hrest)
      | _ => exact he.elim

end Pairing

/-! ### Programs -/

/-- When two values of the type belong together. -/
abbrev Bond (α : Type) := Pairing → α → α → Prop

namespace Bond

/-- Values that are the same. -/
def same {α : Type} : Bond α := fun _ => Eq

/-- Values that nothing is made of but what the bindings of a thread are told. -/
def any {α : Type} : Bond α := fun _ _ _ => True

def ref (whole : Bool) : Bond Ref := fun P => P.Mates whole

end Bond

/-- When two answers about a facet belong together. The identity of a call is no part of what is the same. -/
def Facet.bond : {α : Type} → Facet α → Bond α
  | _, .call => Bond.any
  | _, .joinPoint => fun _ point point' => point' = { point with call := point'.call }
  | _, .this => Bond.same
  | _, .method => Bond.same
  | _, .targetClass => Bond.same
  | _, .arguments => Bond.same
  | _, .attached _ => Bond.same
  | _, .position => Bond.same
  | _, .chain => Bond.same

/-- On what terms two runs are compared. -/
structure Terms (σ : Type) where
  /-- The invocations made before that code may have a use for. -/
  base : Pairing
  /-- The states that callbacks share are the same, for all that the callbacks make of them. -/
  same : Pairing → σ → σ → Prop
  mono : ∀ {P P' : Pairing} {s s' : σ}, P ≤ P' → same P s s' → same P' s s'

/-- The terms at one time, for consultations, which reach no invocations. -/
def Terms.at (T : Terms σ) (P : Pairing) : Comparison σ where
  base := ⟨[], [], [], List.nodup_nil, List.nodup_nil⟩
  same _ := T.same P
  mono _ h := h
  before := []

section Akin

variable (T : Terms σ)

/-- The consultations come to the same from states that are the same. -/
def Consultation.Akin {ω : Type} {α : Type u} (P : Pairing) (Q : α → α → Prop) (q q' : Consultation σ ω α) :
    Prop :=
  q.Like (T.at P) (T.at P).base Q q'

/-- The programs do the same, and come to results that belong together. They do not look at what is bound on
their thread, make nothing of the identities of calls, and look at positions and chains only where these
are the same. -/
inductive Program.Akin : {α : Type} → Pairing → Bond α → Program σ α → Program σ α → Prop where
  | done {α : Type} {P : Pairing} {Q : Bond α} {a a' : α} (h : Q P a a') : Akin P Q (.done a) (.done a')
  | andThen {α β : Type} {P : Pairing} {B : Bond α} {Q : Bond β} {first first' : Program σ α}
      {next next' : α → Program σ β} (hfirst : Akin P B first first')
      (hnext : ∀ P' a a', P ≤ P' → B P' a a' → Akin P' Q (next a) (next' a')) :
    Akin P Q (.andThen first next) (.andThen first' next')
  | consult {α : Type} {P : Pairing} {Q : Bond α} {q q' : Query σ α} (h : q.Akin T P (Q P) q') :
    Akin P Q (.consult q) (.consult q')
  | read {α : Type} {P : Pairing} {whole : Bool} {r r' : Ref} (hr : P.Mates whole r r') {facet : Facet α}
      (hfacet : whole = true ∨ facet.IsBlind) :
    Akin P facet.bond (.perform (.read r facet)) (.perform (.read r' facet))
  | fork {P : Pairing} {whole : Bool} {r r' : Ref} (hr : P.Mates whole r r') :
    Akin P (Bond.ref whole) (.perform (.fork r)) (.perform (.fork r'))
  | setArguments {P : Pairing} {r r' : Ref} (hr : P.Mates false r r') (arguments : List Value) :
    Akin P Bond.same (.perform (.setArguments r arguments)) (.perform (.setArguments r' arguments))
  | setAttribute {P : Pairing} {r r' : Ref} (hr : P.Mates false r r') (key : String) (value : Value) :
    Akin P Bond.same (.perform (.setAttribute r key value)) (.perform (.setAttribute r' key value))
  | bind {P : Pairing} (point point' : JoinPoint) :
    Akin P Bond.any (.perform (.bind point)) (.perform (.bind point'))
  | release {P : Pairing} (guard guard' : Guard) :
    Akin P Bond.same (.perform (.release guard)) (.perform (.release guard'))
  | proceed {P : Pairing} {r r' : Ref} (hr : P.Mates false r r') : Akin P Bond.same (.proceed r) (.proceed r')
  | expose {P : Pairing} {r r' : Ref} (hr : P.Mates false r r') : Akin P Bond.same (.expose r) (.expose r')
  | invoke {P : Pairing} (name : String) (request : Request) {target target' : Target σ}
      (htarget : ∀ P' this method arguments, P ≤ P' →
        Akin P' Bond.same (target this method arguments) (target' this method arguments)) :
    Akin P Bond.same (.invoke name request target) (.invoke name request target')
  | withBinding {α : Type} {P : Pairing} {Q : Bond α} (point point' : JoinPoint) {body body' : Program σ α}
      (hbody : Akin P Q body body') : Akin P Q (.withBinding point body) (.withBinding point' body')
  | catching {α : Type} {P : Pairing} {Q : Bond α} {body body' : Program σ α} (hbody : Akin P Q body body') :
    Akin P (fun P => Kin.caught (Q P)) (.catching body) (.catching body')
  | onThread {α : Type} {P : Pairing} {Q : Bond α} {body body' : Program σ α} (hbody : Akin P Q body body') :
    Akin P Q (.onThread body) (.onThread body')
  /-- Less may be asked of the results. -/
  | weaken {α : Type} {P : Pairing} {B Q : Bond α} {p p' : Program σ α} (h : Akin P B p p')
      (hbond : ∀ P' a a', P ≤ P' → B P' a a' → Q P' a a') : Akin P Q p p'

/-- The targets do the same, whenever they are run. -/
def Target.Akin (P : Pairing) (target target' : Target σ) : Prop :=
  ∀ P' this method arguments, P ≤ P' →
    Program.Akin T P' Bond.same (target this method arguments) (target' this method arguments)

/-! ### Code that is given once -/

/-- The consultation comes to the same answer from states that are the same. -/
def Consultation.IsSteady {ω : Type} {α : Type u} (q : Consultation σ ω α) : Prop :=
  ∀ P, T.base ≤ P → q.IsUniform (T.at P)

/-- The behaviour does the same with invocations that are paired: with all of them, or if `whole` is set with
those that have the same chain. -/
def Behaviour.IsSteady (whole : Bool) : Behaviour σ → Prop
  | .around body => ∀ P r r', T.base ≤ P → P.Mates whole r r' → Program.Akin T P Bond.same (body r) (body r')
  | .before advice => ∀ P method arguments this, T.base ≤ P →
    Program.Akin T P Bond.same (advice method arguments this) (advice method arguments this)
  | .afterReturning advice => ∀ P returned method arguments this, T.base ≤ P →
    Program.Akin T P Bond.same (advice returned method arguments this) (advice returned method arguments this)
  | .afterThrowing advice =>
    (∀ failure, (advice.handles failure).IsSteady T) ∧ ∀ P r r' failure, T.base ≤ P → P.Mates whole r r' →
      Program.Akin T P Bond.same (advice.afterThrowing r failure) (advice.afterThrowing r' failure)
  | .instrumented _ => True
  | .exposing => True

def Link.IsSteady (whole : Bool) : Link σ → Prop
  | .plain interceptor => interceptor.behaviour.IsSteady T whole
  | .dynamic interceptor accepts =>
    interceptor.behaviour.IsSteady T whole ∧
      ∀ method targetClass arguments, (accepts method targetClass arguments).IsSteady T

/-- How the proxy finds its chains, and the links in the chains that it can find, are steady. -/
structure Proxy.IsSteady (p : Proxy σ) : Prop where
  resolving : ∀ method targetClass, (p.resolve method targetClass).IsSteady T
  chains : ∀ P s s' method targetClass chain, T.base ≤ P → T.same P s s' →
    (p.resolve method targetClass s).result = .ok (.ok chain) → ∀ link ∈ chain.links, link.IsSteady T true

def Directory.IsSteady (directory : Directory σ) : Prop :=
  ∀ name proxy, directory name = some proxy → proxy.IsSteady T

end Akin

variable {T : Terms σ} {P P' : Pairing} {whole : Bool}

theorem Target.Akin.mono {target target' : Target σ} (h : Target.Akin T P target target') (hle : P ≤ P') :
    Target.Akin T P' target target' :=
  fun P'' this method arguments hle' => h P'' this method arguments (Pairing.le_trans hle hle')

/-- What does the same with all invocations that are paired does so with those that have the same chain. -/
theorem Behaviour.IsSteady.of_blind {b : Behaviour σ} (h : b.IsSteady T false) : b.IsSteady T whole := by
  cases b with
  | around body => exact fun P r r' hbase hr => h P r r' hbase hr.blind
  | afterThrowing advice => exact ⟨h.1, fun P r r' failure hbase hr => h.2 P r r' failure hbase hr.blind⟩
  | _ => exact h

theorem Link.IsSteady.of_blind {link : Link σ} (h : link.IsSteady T false) : link.IsSteady T whole := by
  cases link with
  | plain interceptor => exact Behaviour.IsSteady.of_blind h
  | dynamic interceptor accepts => exact ⟨Behaviour.IsSteady.of_blind h.1, h.2⟩

/-- A proxy is steady if the predicates of its advisors are, and the interceptors that its registry makes of
them on the terms on which they stand in a chain. -/
theorem Proxy.isSteady_of_advisors {p : Proxy σ}
    (hpredicates : ∀ P, T.base ≤ P → ∀ advisor ∈ p.advisors, advisor.AsksUniformly (T.at P))
    (hlinks : ∀ advisor ∈ p.advisors, ∀ interceptor ∈ p.registry.candidates advisor,
      (Link.under (Resolution.matcher advisor) interceptor).IsSteady T true) : p.IsSteady T where
  resolving method targetClass P hbase := by
    refine (Resolution.uniform_visit (hpredicates P hbase) (hpredicates P hbase)).andThen fun visited => ?_
    cases visited with
    | error e => exact Consultation.isUniform_answer _
    | ok links => exact (Consultation.isUniform_write _).andThen fun _ => Consultation.isUniform_answer _
  chains _ _ _ _ _ _ _ _ hresolve :=
    Resolution.visit_mem hlinks (fun _ hlink => absurd hlink List.not_mem_nil) (Registry.resolve_ok hresolve).1

end Interception
