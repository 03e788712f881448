import Interception.Proofs.Likeness
import Interception.Proofs.Simulation

/-! Mimicry. One account mimics another when from alike worlds it ends in the same way, in alike worlds, and
everyone sees the same of both on the way. A program that is blind mimics itself, if what it asks of the
engine is mimicked. One of the two runs may be given less depth than it needs; then nothing is said of the
other. -/

namespace Interception

universe u

variable {σ α β : Type}

/-! ### What is seen of a course -/

/-- A link or the target as it is run for an invocation: the place of the link, and what is then attached to
the invocation. -/
structure Sight where
  invocation : Ref
  place : Option Nat
  attachments : List (String × Value)

/-- The places that an arrival comes to. -/
def Arrival.places : Arrival → List (Option Nat)
  | .entered position _ => [some position]
  | .reached => [none]
  | .unwound _ => []

/-- The place, if the link there has a predicate that is asked. -/
def Visit.place? (v : Visit) : Option (Option Nat) := v.verdict.map fun _ => some v.position

/-- The places whose predicate is asked, and the one that is run. -/
def Advance.places (a : Advance) : List (Option Nat) := a.visits.filterMap Visit.place? ++ a.arrival.places

/-- The place with another position, if there is one. The target has none. -/
def relocatePlace (change : Nat → Option Nat) : Option Nat → Option (Option Nat)
  | none => some none
  | some position => (change position).map some

/-- What is seen at a moment, with the positions of links changed by call. -/
def Moment.sights (change : CallId → Nat → Option Nat) : Moment σ → List Sight
  | (.advanced r a, v) =>
    (a.places.filterMap (relocatePlace (change (v.invocation r).call))).map fun place =>
      ⟨r, place, (v.invocation r).attachments⟩
  | _ => []

def Course.sights (change : CallId → Nat → Option Nat) (c : Course σ) : List Sight :=
  c.flatMap (Moment.sights change)

namespace Insertion

/-- Where a link stands without the inserted one, by call. -/
def lowerFor (I : Insertion σ) (call : CallId) (q : Nat) : Option Nat :=
  if call = I.call then lowered I.position q else some q

theorem sights_append (change : CallId → Nat → Option Nat) (c d : Course σ) :
    Course.sights change (c ++ d) = c.sights change ++ d.sights change :=
  List.flatMap_append

theorem sights_within (change : CallId → Nat → Option Nat) (c : Course σ) (v v' : World σ) :
    Course.sights change ((.other, v) :: c ++ [(.other, v')]) = c.sights change := by
  simp [Course.sights, Moment.sights]

/-- The run without the inserted link and the one with it. What is alike stays so, hence there is one stage
only. -/
def simulation (I : Insertion σ) (longer : Bool) : Simulation σ (Moment σ) Unit where
  lead := some longer
  Later _ _ := True
  refl _ := trivial
  trans _ _ := trivial
  Alike _ := I.Alike
  Seen c c' := Course.sights (fun _ => some) c = Course.sights I.lowerFor c'
  seen_nil := rfl
  seen_append h h' := by rw [sights_append, sights_append, h, h']

variable (I : Insertion σ) (longer : Bool)

/-- What two runs have come to matches, if the one that leads has not run out of depth. -/
abbrev Matches (x x' : (Ending α × World σ) × Course σ) : Prop :=
  (I.simulation longer).Matches () (fun _ => Eq) x x'

/-- From alike worlds the accounts come to the same. -/
def Mimics (p p' : Account σ α) : Prop := ∀ w w', I.Alike w w' → I.Matches longer (p w) (p' w')

variable {I longer}

section Combinators

variable {w w' v v' : World σ}

theorem matches_iff {x x' : (Ending α × World σ) × Course σ} :
    I.Matches longer x x' ↔ (leading longer x.1.1 x'.1.1 ≠ .outOfDepth →
      x'.1.1 = x.1.1 ∧ I.Alike x.1.2 x'.1.2 ∧ x.2.sights (fun _ => some) = x'.2.sights I.lowerFor) := by
  constructor
  · intro h hdepth
    obtain ⟨_, _, hending, hrest⟩ := h fun ⟨_, hlead, hout⟩ => hdepth (Option.some.inj hlead ▸ hout)
    exact ⟨Ending.akin_eq_iff.mp hending, hrest⟩
  · intro h hspared
    obtain ⟨hending, hrest⟩ := h fun hout => hspared ⟨longer, rfl, hout⟩
    exact ⟨(), trivial, Ending.akin_eq_iff.mpr hending, hrest⟩

theorem matches_self (h : I.Alike v v') {ending : Ending α} {c c' : Course σ}
    (hsights : c.sights (fun _ => some) = c'.sights I.lowerFor) :
    I.Matches longer ((ending, v), c) ((ending, v'), c') :=
  matches_iff.mpr fun _ => ⟨rfl, h, hsights⟩

theorem matches_outOfDepth {x x' : (Ending α × World σ) × Course σ}
    (h : leading longer x.1.1 x'.1.1 = .outOfDepth) : I.Matches longer x x' :=
  matches_iff.mpr fun hdepth => absurd h hdepth

theorem Mimics.andThen {p p' : Account σ α} {k k' : α → Account σ β} (hp : I.Mimics longer p p')
    (hk : ∀ a, I.Mimics longer (k a) (k' a)) : I.Mimics longer (p.andThen k) (p'.andThen k') := by
  intro w w' h
  rw [Account.andThen_eq_told, Account.andThen_eq_told]
  refine (hp w w' h).andThen ?_
  rintro _ a _ _ rfl
  exact hk a

theorem mimics_finish (a : α) : I.Mimics longer (.finish a) (.finish a) :=
  fun _ _ h => matches_self h rfl

theorem mimics_aside {p p' : Run σ α}
    (hp : ∀ w w', I.Alike w w' → (p' w').1 = (p w).1 ∧ I.Alike (p w).2 (p' w').2) :
    I.Mimics longer (.aside p) (.aside p') := by
  intro w w' h
  obtain ⟨hending, hthen⟩ := hp w w' h
  exact matches_iff.mpr fun _ => ⟨hending, hthen, rfl⟩

theorem Mimics.ite {c : Prop} [Decidable c] {p p' q q' : Account σ α} (hp : I.Mimics longer p p')
    (hq : I.Mimics longer q q') :
    I.Mimics longer (if c then p else q) (if c then p' else q') := by
  split
  · exact hp
  · exact hq

theorem mimics_look {r : Ref} {k k' : Invocation σ → Account σ α}
    (hk : ∀ i i', I.Twins i i' → I.Mimics longer (k i) (k' i')) :
    I.Mimics longer (.look r k) (.look r k') :=
  fun w w' h => hk _ _ (h.twins r) w w' h

theorem mimics_consult {q : Query σ α} (hq : q.Respects I.veil) :
    I.Mimics longer (.aside (Run.consult q)) (.aside (Run.consult q)) := by
  refine mimics_aside fun w w' h => ?_
  obtain ⟨hresult, hthen⟩ := h.query hq
  rw [Run.consult, Run.inquire_eq, Run.inquire_eq]
  generalize w.consult (Inquiry.consult q) = x at hresult hthen ⊢
  generalize w'.consult (Inquiry.consult q) = x' at hresult hthen ⊢
  obtain ⟨result, v⟩ := x
  obtain ⟨result', v'⟩ := x'
  cases hresult
  cases result with
  | error panic => exact ⟨rfl, hthen⟩
  | ok a => exact ⟨rfl, hthen⟩

theorem mimics_inquire {γ : Type u} {q : Inquiry σ γ} {k k' : γ → Account σ β} (hq : q.Respects I.veil)
    (hunmarked : Consultation.Writes (fun entry => entry.mark? = none) q)
    (hk : ∀ s a, (q s).result = .ok a → I.Mimics longer (k a) (k' a)) :
    I.Mimics longer (.inquire q k) (.inquire q k') := by
  intro w w' h
  obtain ⟨hresult, hthen⟩ := h.consult hq hunmarked
  have hanswer : ∀ a, (w.consult q).1 = .ok a → I.Mimics longer (k a) (k' a) := fun a ha => hk w.state a ha
  simp only [Account.inquire]
  generalize w.consult q = x at hresult hthen hanswer ⊢
  generalize w'.consult q = x' at hresult hthen ⊢
  obtain ⟨result, v⟩ := x
  obtain ⟨result', v'⟩ := x'
  cases hresult
  cases result with
  | error panic => exact matches_self hthen rfl
  | ok a => exact hanswer a rfl v v' hthen

theorem Mimics.within {enter enter' : World σ → World σ} {body body' : Account σ α}
    {leave leave' : World σ → Ending α × World σ → World σ}
    (henter : ∀ w w', I.Alike w w' → I.Alike (enter w) (enter' w')) (hbody : I.Mimics longer body body')
    (hleave : ∀ w w' v v' ending, I.Alike w w' → I.Alike v v' →
      I.Alike (leave w (ending, v)) (leave' w' (ending, v'))) :
    I.Mimics longer (.within enter body leave) (.within enter' body' leave') := by
  intro w w' h
  have hinside := matches_iff.mp (hbody _ _ (henter w w' h))
  refine matches_iff.mpr ?_
  simp only [Account.within]
  generalize body (enter w) = x at hinside ⊢
  generalize body' (enter' w') = x' at hinside ⊢
  obtain ⟨⟨ending, v⟩, c⟩ := x
  obtain ⟨⟨ending', v'⟩, c'⟩ := x'
  intro hdepth
  obtain ⟨rfl, hthen, hsights⟩ := hinside hdepth
  exact ⟨rfl, hleave w w' v v' _ h hthen, by rw [sights_within, sights_within, hsights]⟩

theorem Mimics.catching {body body' : Account σ α} (h : I.Mimics longer body body') :
    I.Mimics longer (.catching body) (.catching body') := by
  intro w w' halike
  rw [Account.catching_eq_told, Account.catching_eq_told]
  refine (h w w' halike).catching.imp ?_
  rintro _ _ _ _ hcaught
  cases hcaught with
  | ok ha => rw [ha]
  | error panic => rfl

theorem Mimics.withBinding {body body' : Account σ α} (h : I.Mimics longer body body') (point : JoinPoint) :
    I.Mimics longer (.withBinding point body) (.withBinding point body') := by
  refine .within (fun w w' hw => (hw.bind none point).2) h fun w w' v v' ending hw hv => ?_
  rw [hw.bindings]
  exact hv.release _

theorem Mimics.onThread {body body' : Account σ α} (h : I.Mimics longer body body') :
    I.Mimics longer (.onThread body) (.onThread body') :=
  .within (fun _ _ hw => hw.descend) h fun _ _ _ _ _ _ hv => hv.ascend

theorem Mimics.publishing {body body' : Account σ α} (h : I.Mimics longer body body') (r : Ref) :
    I.Mimics longer (.publishing r body) (.publishing r body') :=
  .within (fun _ _ hw => hw.publish r) h fun _ _ _ _ _ hw hv => hw.withdraw r hv

theorem mimics_forking (r : Ref) : I.Mimics longer (.forking r) (.forking r) := by
  intro w w' h
  obtain ⟨hr, hthen⟩ := h.fork r
  simp only [Account.forking]
  rw [hr]
  exact matches_self hthen rfl

theorem mimics_starting {k k' : Ref → Account σ α} (hk : ∀ r, I.Mimics longer (k r) (k' r))
    (request : Request) {chain : Chain σ} {target : Target σ} (hchain : chain.IsBlind I.veil)
    (htarget : target.IsBlind I.veil) :
    I.Mimics longer (.starting request chain target k) (.starting request chain target k') := by
  intro w w' h
  obtain ⟨hr, hthen⟩ := h.start request hchain htarget
  have hgoes := hk (w.start request chain target).1 _ _ hthen
  simp only [Account.starting]
  rw [hr]
  exact hgoes

end Combinators

/-! ### Programs -/

section Programs

variable {directory : Directory σ} {told told' : Engine.Accounts σ}

theorem mimics_operation {op : Operation α} (hop : op.IsBlind) :
    I.Mimics longer (op.account : Account σ α) op.account := by
  have happly : I.Mimics longer (.aside fun w => (.finished (w.apply op).1, (w.apply op).2))
      (.aside fun w => (.finished (w.apply op).1, (w.apply op).2)) := by
    refine mimics_aside fun w w' h => ?_
    obtain ⟨ha, hthen⟩ := h.apply hop
    exact ⟨congrArg Ending.finished ha, hthen⟩
  cases op with
  | fork r => exact mimics_forking r
  | _ => exact happly

/-- What the engine is asked for from alike worlds. The proxies and targets that it is given are blind. -/
structure Follows (I : Insertion σ) (longer : Bool) (told told' : Engine.Accounts σ) : Prop where
  proceed : ∀ r, I.Mimics longer (told (.proceed r)) (told' (.proceed r))
  call : ∀ proxy request target, proxy.IsBlind I.veil → Target.IsBlind I.veil target →
    I.Mimics longer (told (.call proxy request target)) (told' (.call proxy request target))

theorem Follows.program (h : I.Follows longer told told') (hdirectory : directory.IsBlind I.veil)
    {p : Program σ α} (hp : p.IsBlind I.veil) :
    I.Mimics longer (p.account directory told) (p.account directory told') := by
  induction p with
  | done a => exact mimics_finish a
  | andThen first next ihfirst ihnext => exact (ihfirst hp.1).andThen fun a => ihnext a (hp.2 a)
  | consult q => exact mimics_consult hp
  | perform op => exact mimics_operation hp
  | proceed r => exact h.proceed r
  | expose r => exact (h.proceed r).publishing r
  | invoke name request target =>
    rw [Program.account, Program.account]
    cases hproxy : directory name with
    | none => exact mimics_finish none
    | some proxy =>
      exact (h.call proxy request target (hdirectory name proxy hproxy) hp).andThen
        fun outcome => mimics_finish (some outcome)
  | withBinding point body ih => exact (ih hp).withBinding point
  | catching body ih => exact (ih hp).catching
  | onThread body ih => exact (ih hp).onThread

theorem Follows.target (h : I.Follows longer told told') (hdirectory : directory.IsBlind I.veil)
    {target : Target σ} (htarget : target.IsBlind I.veil) (this : Value) (method : Method)
    (arguments : List Value) :
    I.Mimics longer (target.account directory told this method arguments)
      (target.account directory told' this method arguments) :=
  (h.program hdirectory (htarget this method arguments)).andThen fun _ => mimics_finish _

theorem Follows.behaviour (h : I.Follows longer told told') (hdirectory : directory.IsBlind I.veil)
    {b : Behaviour σ} (hb : b.IsBlind I.veil) (r : Ref) :
    I.Mimics longer (b.account directory told r) (b.account directory told' r) := by
  cases b with
  | around body => exact h.program hdirectory (hb r)
  | before advice =>
    refine (mimics_look fun i i' htwins => ?_).andThen fun result => ?_
    · rw [htwins.method, htwins.arguments, htwins.this]
      exact h.program hdirectory (hb _ _ _)
    · cases result with
      | error failure => exact mimics_finish _
      | ok _ => exact h.proceed r
  | afterReturning advice =>
    refine (h.proceed r).andThen fun outcome => ?_
    cases outcome with
    | error failure => exact mimics_finish _
    | ok returned =>
      refine (mimics_look fun i i' htwins => ?_).andThen fun result => mimics_finish _
      rw [htwins.method, htwins.arguments, htwins.this]
      exact h.program hdirectory (hb _ _ _ _)
  | afterThrowing advice =>
    refine (h.proceed r).andThen fun outcome => ?_
    cases outcome with
    | ok returned => exact mimics_finish _
    | error failure =>
      refine (mimics_consult (hb.1 failure)).andThen fun handled => ?_
      cases handled with
      | false => exact mimics_finish _
      | true =>
        rw [if_pos rfl, if_pos rfl]
        refine (mimics_look fun i i' htwins => ?_).andThen fun _ => ?_
        · rw [htwins.call]
          exact mimics_aside fun w w' hw => ⟨rfl, hw.record_entry rfl⟩
        · exact (h.program hdirectory (hb.2 r failure)).andThen fun _ => mimics_finish _
  | instrumented label =>
    refine (h.proceed r).andThen fun outcome => (mimics_look fun i i' htwins => ?_).andThen
      fun _ => mimics_finish _
    rw [htwins.call, htwins.method]
    exact mimics_aside fun w w' hw => ⟨rfl, hw.record_entry rfl⟩
  | exposing => exact (h.proceed r).publishing r

end Programs

end Insertion

end Interception
