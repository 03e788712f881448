import Interception.Proofs.Accounts
import Interception.Proofs.Naming

/-! Simulations. Two runs are compared from worlds that are alike. They match when they end in the same way,
in worlds that are alike at a stage no earlier than the one at which they began, and when the same was seen
on the way. Stages say what belongs together in the two worlds, and that grows while the runs go on. One of
the runs may be given less depth than it needs; then nothing is said of the other. What matching runs are
put together from is stated here once: the forms of programs, what interceptors do, and walks along
chains. -/

namespace Interception

universe u

variable {σ ι α β : Type} {ν : Type u}

/-! ### Backstage -/

/-- Nothing is done but that join points are bound or released and that invocations remember other slots, of
which the journal tells backstage. -/
structure World.Backstage (w v : World σ) : Prop where
  state : v.state = w.state
  calls : v.calls = w.calls
  size : v.invocations.size = w.invocations.size
  invocation : ∀ r, v.invocation r = { w.invocation r with exposedAt := (v.invocation r).exposedAt }
  waiting : v.waiting = w.waiting
  journal : ∃ entries, v.journal.toList = w.journal.toList ++ entries ∧ ∀ e ∈ entries, e.IsBackstage

namespace World

variable {u v w : World σ}

theorem Backstage.refl (w : World σ) : w.Backstage w :=
  ⟨rfl, rfl, rfl, fun _ => rfl, rfl, [], (List.append_nil _).symm, fun _ h => absurd h List.not_mem_nil⟩

theorem Backstage.trans (h : u.Backstage v) (h' : v.Backstage w) : u.Backstage w where
  state := h'.state.trans h.state
  calls := h'.calls.trans h.calls
  size := h'.size.trans h.size
  invocation r := by rw [h'.invocation, h.invocation]
  waiting := h'.waiting.trans h.waiting
  journal := by
    obtain ⟨entries, hjournal, hentries⟩ := h.journal
    obtain ⟨entries', hjournal', hentries'⟩ := h'.journal
    exact ⟨entries ++ entries', by rw [hjournal', hjournal, List.append_assoc],
      List.forall_mem_append.mpr ⟨hentries, hentries'⟩⟩

theorem backstage_record (w : World σ) {entries : List Entry} (h : ∀ e ∈ entries, e.IsBackstage) :
    w.Backstage (w.record entries) :=
  { Backstage.refl w with journal := ⟨entries, Array.toList_appendList, h⟩ }

theorem backstage_entry (w : World σ) {entry : Entry} (h : entry.IsBackstage) :
    w.Backstage (w.record [entry]) :=
  w.backstage_record fun _ hmem => List.mem_singleton.mp hmem ▸ h

theorem backstage_bindings (w : World σ) (bindings : Bindings) : w.Backstage { w with bindings } :=
  { Backstage.refl w with invocation := fun _ => rfl }

theorem backstage_remember (w : World σ) (r : Ref) (slot : Option Nat) :
    w.Backstage (w.update r fun i => { i with exposedAt := slot }) :=
  { Backstage.refl w with
    size := w.size_update r _
    invocation := fun s => by
      by_cases hs : r = s
      · subst hs
        by_cases hr : r.index < w.invocations.size
        · rw [invocation_update_self hr]
        · have hout : w.invocations.size ≤ r.index := Nat.le_of_not_lt hr
          rw [invocation_of_ge hout, invocation_of_ge (w.size_update r _ ▸ hout)]
      · rw [invocation_update_of_ne hs] }

theorem backstage_publish (w : World σ) (r : Ref) : w.Backstage (w.publish r) :=
  ((w.backstage_bindings _).trans (backstage_entry _ (by trivial))).trans (backstage_remember _ r _)

theorem backstage_withdraw (w : World σ) (r : Ref) (ended : Ending α × World σ) :
    ended.2.Backstage (w.withdraw r ended) := by
  obtain ⟨ending, v⟩ := ended
  cases ending with
  | finished a => exact (v.backstage_remember r _).trans (backstage_bindings _ _)
  | unwinding panic => exact v.backstage_bindings _
  | outOfDepth => exact v.backstage_bindings _

/-- Replacing arguments gives the slot a new picture backstage. -/
theorem backstage_setArguments (w : World σ) (r : Ref) (arguments : List Value) :
    (w.update r fun i => { i with arguments }).Backstage (w.setArguments r arguments) :=
  (backstage_bindings _ _).trans (backstage_entry _ (by trivial))

end World

/-! ### Endings -/

/-- Both runs end in the same way, with results that belong together. -/
inductive Ending.Akin (Q : α → α → Prop) : Ending α → Ending α → Prop where
  | finished {a a' : α} (h : Q a a') : Akin Q (.finished a) (.finished a')
  | unwinding (panic : Panic) : Akin Q (.unwinding panic) (.unwinding panic)
  | outOfDepth : Akin Q .outOfDepth .outOfDepth

theorem Ending.Akin.imp {P Q : α → α → Prop} {e e' : Ending α} (h : e.Akin P e')
    (himp : ∀ a a', P a a' → Q a a') : e.Akin Q e' := by
  cases h with
  | finished ha => exact .finished (himp _ _ ha)
  | unwinding panic => exact .unwinding panic
  | outOfDepth => exact .outOfDepth

theorem Ending.akin_eq_iff {e e' : Ending α} : e.Akin Eq e' ↔ e' = e := by
  constructor
  · intro h
    cases h with
    | finished ha => exact congrArg Ending.finished ha.symm
    | unwinding panic => rfl
    | outOfDepth => rfl
  · rintro rfl
    cases e' with
    | finished a => exact .finished rfl
    | unwinding panic => exact .unwinding panic
    | outOfDepth => exact .outOfDepth

/-- The run whose depth counts: the second one or the first one. -/
def leading (second : Bool) (ending ending' : Ending α) : Ending α := if second then ending' else ending

/-- What a run comes to, and what was seen on the way. -/
abbrev Told (σ : Type) (ν : Type u) (α : Type) := (Ending α × World σ) × List ν

namespace Told

/-- What comes of going on behind a run that finished. -/
def andThen (x : Told σ ν α) (k : α → World σ → Told σ ν β) : Told σ ν β :=
  match x with
  | ((.finished a, w), seen) => ((k a w).1, seen ++ (k a w).2)
  | ((.unwinding panic, w), seen) => ((.unwinding panic, w), seen)
  | ((.outOfDepth, w), seen) => ((.outOfDepth, w), seen)

/-- What comes of stopping a panic. -/
def catching (x : Told σ ν α) : Told σ ν (Except Panic α) :=
  match x with
  | ((.finished a, w), seen) => ((.finished (.ok a), w), seen)
  | ((.unwinding panic, w), seen) => ((.finished (.error panic), w), seen)
  | ((.outOfDepth, w), seen) => ((.outOfDepth, w), seen)

theorem andThen_run (p : Run σ α) (k : α → Run σ β) (w : World σ) :
    (p.andThen k w, ([] : List ν)) = andThen (p w, []) fun a v => (k a v, []) := by
  rw [Run.andThen]
  rcases p w with ⟨_ | _ | _, v⟩ <;> rfl

theorem catching_run (p : Run σ α) (w : World σ) :
    (p.catching w, ([] : List ν)) = catching (p w, []) := by
  rw [Run.catching]
  rcases p w with ⟨_ | _ | _, v⟩ <;> rfl

end Told

theorem Account.andThen_eq_told (p : Account σ α) (k : α → Account σ β) (w : World σ) :
    p.andThen k w = Told.andThen (p w) k := by
  rw [Account.andThen]
  rcases p w with ⟨⟨_ | _ | _, v⟩, c⟩ <;> rfl

theorem Account.catching_eq_told (p : Account σ α) (w : World σ) : p.catching w = Told.catching (p w) := by
  simp only [Account.catching, Account.run, Account.course, Run.catching]
  rcases p w with ⟨⟨_ | _ | _, v⟩, c⟩ <;> rfl

/-! ### Simulations -/

/-- How two runs are compared. -/
structure Simulation (σ : Type) (ν : Type u) (ι : Type) where
  /-- Which run may run out of depth without anything being said of the other: none, the second or the
  first one. -/
  lead : Option Bool
  Later : ι → ι → Prop
  refl (i : ι) : Later i i
  trans {i j k : ι} : Later i j → Later j k → Later i k
  Alike : ι → World σ → World σ → Prop
  Seen : List ν → List ν → Prop
  seen_nil : Seen [] []
  seen_append {c c' d d' : List ν} : Seen c c' → Seen d d' → Seen (c ++ d) (c' ++ d')

namespace Simulation

/-- When results of two runs belong together, at each stage. -/
abbrev Bond (ι α : Type) := ι → α → α → Prop

/-- The run that leads has run out of depth. -/
def Spares (S : Simulation σ ν ι) (e e' : Ending α) : Prop :=
  ∃ second, S.lead = some second ∧ leading second e e' = .outOfDepth

/-- What two runs have come to matches, if none is spared. -/
def Matches (S : Simulation σ ν ι) (i : ι) (Q : Bond ι α) (x x' : Told σ ν α) : Prop :=
  ¬ S.Spares x.1.1 x'.1.1 →
    ∃ j, S.Later i j ∧ x.1.1.Akin (Q j) x'.1.1 ∧ S.Alike j x.1.2 x'.1.2 ∧ S.Seen x.2 x'.2

/-- From worlds that are alike the runs come to what matches. -/
def Mimics (S : Simulation σ ν ι) (i : ι) (Q : Bond ι α) (p p' : Run σ α) : Prop :=
  ∀ w w', S.Alike i w w' → S.Matches i Q (p w, []) (p' w', [])

variable {S : Simulation σ ν ι} {i j : ι} {v v' w w' : World σ}

theorem matches_spared {Q : Bond ι α} {x x' : Told σ ν α} (h : S.Spares x.1.1 x'.1.1) :
    S.Matches i Q x x' :=
  fun hspared => absurd h hspared

theorem matches_finished {Q : Bond ι α} {a a' : α} (h : S.Alike j v v') (hlater : S.Later i j)
    (ha : Q j a a') : S.Matches i Q ((.finished a, v), []) ((.finished a', v'), []) :=
  fun _ => ⟨j, hlater, .finished ha, h, S.seen_nil⟩

theorem matches_unwinding {Q : Bond ι α} (h : S.Alike i v v') (panic : Panic) :
    S.Matches i Q ((.unwinding panic, v), []) ((.unwinding panic, v'), []) :=
  fun _ => ⟨i, S.refl i, .unwinding panic, h, S.seen_nil⟩

theorem matches_outOfDepth {Q : Bond ι α} (h : S.Alike i v v') :
    S.Matches i Q ((.outOfDepth, v), []) ((.outOfDepth, v'), []) :=
  fun _ => ⟨i, S.refl i, .outOfDepth, h, S.seen_nil⟩

namespace Matches

variable {P Q : Bond ι α} {x x' : Told σ ν α}

theorem le (h : S.Matches j Q x x') (hlater : S.Later i j) : S.Matches i Q x x' :=
  fun hspared => (h hspared).imp fun _ ⟨hlater', hrest⟩ => ⟨S.trans hlater hlater', hrest⟩

theorem imp (h : S.Matches i P x x') (himp : ∀ j a a', S.Later i j → P j a a' → Q j a a') :
    S.Matches i Q x x' := by
  intro hspared
  obtain ⟨j, hlater, hending, hrest⟩ := h hspared
  exact ⟨j, hlater, hending.imp fun a a' => himp j a a' hlater, hrest⟩

/-- Something is done behind the end that leaves the worlds alike. -/
theorem leave (h : S.Matches i Q x x') {c c' : List ν}
    (hworlds : ∀ j, S.Later i j → S.Alike j x.1.2 x'.1.2 → S.Alike j v v')
    (hseen : S.Seen x.2 x'.2 → S.Seen c c') :
    S.Matches i Q ((x.1.1, v), c) ((x'.1.1, v'), c') := by
  intro hspared
  obtain ⟨j, hlater, hending, halike, hthen⟩ := h hspared
  exact ⟨j, hlater, hending, hworlds j hlater halike, hseen hthen⟩

theorem andThen {Q : Bond ι β} {k k' : α → World σ → Told σ ν β} (h : S.Matches i P x x')
    (hk : ∀ j a a', S.Later i j → P j a a' →
      ∀ v v', S.Alike j v v' → S.Matches j Q (k a v) (k' a' v')) :
    S.Matches i Q (x.andThen k) (x'.andThen k') := by
  obtain ⟨⟨ending, v⟩, c⟩ := x
  obtain ⟨⟨ending', v'⟩, c'⟩ := x'
  intro hspared
  have hfirst : ¬ S.Spares ending ending' := by
    rintro ⟨second, hlead, hout⟩
    refine hspared ⟨second, hlead, ?_⟩
    cases second <;> cases hout <;> rfl
  obtain ⟨j, hlater, hending, halike, hseen⟩ := h hfirst
  cases hending with
  | finished ha =>
    obtain ⟨l, hlater', hending, hthen, hseen'⟩ := hk j _ _ hlater ha v v' halike hspared
    exact ⟨l, S.trans hlater hlater', hending, hthen, S.seen_append hseen hseen'⟩
  | unwinding panic => exact ⟨j, hlater, .unwinding panic, halike, hseen⟩
  | outOfDepth => exact ⟨j, hlater, .outOfDepth, halike, hseen⟩

theorem catching (h : S.Matches i Q x x') :
    S.Matches i (fun j => Kin.caught (Q j)) x.catching x'.catching := by
  obtain ⟨⟨ending, v⟩, c⟩ := x
  obtain ⟨⟨ending', v'⟩, c'⟩ := x'
  intro hspared
  have hfirst : ¬ S.Spares ending ending' := by
    rintro ⟨second, hlead, hout⟩
    refine hspared ⟨second, hlead, ?_⟩
    cases second <;> cases hout <;> rfl
  obtain ⟨j, hlater, hending, halike, hseen⟩ := h hfirst
  cases hending with
  | finished ha => exact ⟨j, hlater, .finished (.ok ha), halike, hseen⟩
  | unwinding panic => exact ⟨j, hlater, .finished (.error panic), halike, hseen⟩
  | outOfDepth => exact ⟨j, hlater, .outOfDepth, halike, hseen⟩

end Matches

theorem mimics_finish {Q : Bond ι α} {a a' : α} (ha : Q i a a') :
    S.Mimics i Q (Run.finish a) (Run.finish a') :=
  fun _ _ h => matches_finished h (S.refl i) ha

theorem mimics_same (a : α) : S.Mimics i (fun _ => Eq) (Run.finish a) (Run.finish a) := mimics_finish rfl

namespace Mimics

variable {P Q : Bond ι α} {p p' : Run σ α}

theorem andThen {Q : Bond ι β} {k k' : α → Run σ β} (hp : S.Mimics i P p p')
    (hk : ∀ j a a', S.Later i j → P j a a' → S.Mimics j Q (k a) (k' a')) :
    S.Mimics i Q (p.andThen k) (p'.andThen k') := by
  intro w w' h
  rw [Told.andThen_run, Told.andThen_run]
  exact (hp w w' h).andThen hk

theorem bind {Q : Bond ι β} {k k' : α → Run σ β} (hp : S.Mimics i P p p')
    (hk : ∀ j a a', S.Later i j → P j a a' → S.Mimics j Q (k a) (k' a')) :
    S.Mimics i Q (p >>= k) (p' >>= k') :=
  hp.andThen hk

theorem weaken (hp : S.Mimics i P p p') (himp : ∀ j a a', S.Later i j → P j a a' → Q j a a') :
    S.Mimics i Q p p' :=
  fun w w' h => (hp w w' h).imp himp

theorem catching (h : S.Mimics i Q p p') :
    S.Mimics i (fun j => Kin.caught (Q j)) (Run.catching p) (Run.catching p') := by
  intro w w' halike
  rw [Told.catching_run, Told.catching_run]
  exact (h w w' halike).catching

end Mimics

/-- A consultation that comes to the same in worlds that are alike. -/
theorem mimics_consult {Q : Bond ι α} {q q' : Query σ α}
    (hq : ∀ w w', S.Alike i w w' →
      Kin.caught (Q i) (w.consult (Inquiry.consult q)).1 (w'.consult (Inquiry.consult q')).1 ∧
        S.Alike i (w.consult (Inquiry.consult q)).2 (w'.consult (Inquiry.consult q')).2) :
    S.Mimics i Q (Run.consult q) (Run.consult q') := by
  intro w w' h
  obtain ⟨hresult, hthen⟩ := hq w w' h
  rw [Run.consult, Run.consult, Run.inquire_eq, Run.inquire_eq]
  generalize w.consult (Inquiry.consult q) = x at hresult hthen ⊢
  generalize w'.consult (Inquiry.consult q') = x' at hresult hthen ⊢
  obtain ⟨result, v⟩ := x
  obtain ⟨result', v'⟩ := x'
  cases hresult with
  | ok ha => exact matches_finished hthen (S.refl i) ha
  | error panic => exact matches_unwinding hthen panic

end Simulation

/-! ### Couplings -/

/-- A simulation of runs in which nothing is seen but the worlds, and to which it is all the same what is
bound on threads. -/
structure Coupling (σ ι : Type) extends Simulation σ PEmpty.{1} ι where
  backstage {i : ι} {v v' w w' : World σ} :
    Alike i w w' → w.Backstage v → w'.Backstage v' → Alike i v v'
  descend {i : ι} {w w' : World σ} : Alike i w w' → Alike i w.descend w'.descend
  ascend {i : ι} {w w' : World σ} : Alike i w w' → Alike i w.ascend w'.ascend

theorem Simulation.Matches.backstage {K : Coupling σ ι} {i : ι} {Q : Simulation.Bond ι α}
    {x x' : Ending α × World σ} {v v' : World σ} (h : K.Matches i Q (x, []) (x', []))
    (hv : x.2.Backstage v) (hv' : x'.2.Backstage v') : K.Matches i Q ((x.1, v), []) ((x'.1, v'), []) :=
  h.leave (fun _ _ halike => K.backstage halike hv hv') id

theorem Simulation.Mimics.onThread {K : Coupling σ ι} {i : ι} {Q : Simulation.Bond ι α}
    {body body' : Run σ α} (h : K.Mimics i Q body body') :
    K.Mimics i Q (Run.onThread body) (Run.onThread body') :=
  fun _ _ halike => (h _ _ (K.descend halike)).leave (fun _ _ hthen => K.ascend hthen) id

namespace Coupling

open Simulation

variable {K : Coupling σ ι} {i j : ι} {v v' w w' : World σ} {r r' : Ref}
  {directory directory' : Directory σ} {engine engine' : Engine σ}

theorem mimics_report (event event' : Event) :
    K.Mimics i (fun _ => Eq) (Run.report event) (Run.report event') :=
  fun w w' h => matches_finished
    (K.backstage h (w.backstage_entry (by trivial)) (w'.backstage_entry (by trivial))) (K.refl i) rfl

theorem mimics_record {entry entry' : Entry}
    (h : ∀ w w', K.Alike i w w' → K.Alike i (w.record [entry]) (w'.record [entry'])) :
    K.Mimics i (fun _ => Eq) (Run.record entry) (Run.record entry') :=
  fun w w' halike => matches_finished (h w w' halike) (K.refl i) rfl

theorem mimics_expose
    (hproceed : K.Mimics i (fun _ => Eq) (engine (.proceed r)) (engine' (.proceed r'))) :
    K.Mimics i (fun _ => Eq) (engine.expose r) (engine'.expose r') := by
  intro w w' h
  rw [Engine.expose_eq, Engine.expose_eq]
  have hpublished : K.Alike i (w.publish r) (w'.publish r') :=
    K.backstage h (w.backstage_publish r) (w'.backstage_publish r')
  exact (hproceed _ _ hpublished).backstage (w.backstage_withdraw r _) (w'.backstage_withdraw r' _)

/-- A target is run with the same, by invocations that belong together or by none. -/
theorem mimics_target {target target' : Target σ} {reached reached' : Option Ref} {this : Value}
    {method : Method} {arguments : List Value}
    (hreached : ∀ w w', K.Alike i w w' → K.Alike i
      (w.record [.occurrence (.reached reached this method arguments w.thread w.bindings)])
      (w'.record [.occurrence (.reached reached' this method arguments w'.thread w'.bindings)]))
    (hprogram : K.Mimics i (fun _ => Eq) ((target this method arguments).run directory engine)
      ((target' this method arguments).run directory' engine')) :
    K.Mimics i (fun _ => Eq) (target.run directory engine reached this method arguments)
      (target'.run directory' engine' reached' this method arguments) := by
  intro w w' halike
  have hruns : K.Mimics i (fun _ => Eq)
      (Run.andThen ((target this method arguments).run directory engine)
        fun result => Run.finish (result.mapError Failure.target))
      (Run.andThen ((target' this method arguments).run directory' engine')
        fun result => Run.finish (result.mapError Failure.target)) := by
    refine hprogram.andThen ?_
    rintro j result _ _ rfl
    exact mimics_same _
  exact hruns _ _ (hreached w w' halike)

/-! ### What interceptors do -/

/-- Two invocations of which advice is told the same, but for the identity of the call. -/
structure Reads (K : Coupling σ ι) (i : ι) (r r' : Ref) : Prop where
  call : K.Mimics i (fun _ _ _ => True) (Run.read r .call) (Run.read r' .call)
  this : K.Mimics i (fun _ => Eq) (Run.read r .this) (Run.read r' .this)
  method : K.Mimics i (fun _ => Eq) (Run.read r .method) (Run.read r' .method)
  targetClass : K.Mimics i (fun _ => Eq) (Run.read r .targetClass) (Run.read r' .targetClass)
  arguments : K.Mimics i (fun _ => Eq) (Run.read r .arguments) (Run.read r' .arguments)

/-- Advice is given the method, the arguments and the target object. -/
theorem mimics_reading {Q : Simulation.Bond ι α} (hreads : ∀ j, K.Later i j → K.Reads j r r')
    {k k' : Method → List Value → Value → Run σ α}
    (hk : ∀ j method arguments this, K.Later i j →
      K.Mimics j Q (k method arguments this) (k' method arguments this)) :
    K.Mimics i Q
      (do k (← Run.read r .method) (← Run.read r .arguments) (← Run.read r .this))
      (do k' (← Run.read r' .method) (← Run.read r' .arguments) (← Run.read r' .this)) := by
  refine (hreads i (K.refl i)).method.bind ?_
  rintro i₁ method _ h₁ rfl
  refine (hreads i₁ h₁).arguments.bind ?_
  rintro i₂ arguments _ h₂ rfl
  have h₁₂ := K.trans h₁ h₂
  refine (hreads i₂ h₁₂).this.bind ?_
  rintro i₃ this _ h₃ rfl
  exact hk i₃ method arguments this (K.trans h₁₂ h₃)

/-- The programs of a behaviour are mimicked, from now on. -/
def Advises (K : Coupling σ ι) (directory directory' : Directory σ) (engine engine' : Engine σ) (i : ι)
    (r r' : Ref) : Behaviour σ → Prop
  | .around body => K.Mimics i (fun _ => Eq) ((body r).run directory engine)
      ((body r').run directory' engine')
  | .before advice => ∀ j method arguments this, K.Later i j →
      K.Mimics j (fun _ => Eq) ((advice method arguments this).run directory engine)
        ((advice method arguments this).run directory' engine')
  | .afterReturning advice => ∀ j returned method arguments this, K.Later i j →
      K.Mimics j (fun _ => Eq) ((advice returned method arguments this).run directory engine)
        ((advice returned method arguments this).run directory' engine')
  | .afterThrowing advice => ∀ j failure, K.Later i j →
      K.Mimics j (fun _ => Eq) (Run.consult (advice.handles failure))
        (Run.consult (advice.handles failure)) ∧
      K.Mimics j (fun _ => Eq) ((advice.afterThrowing r failure).run directory engine)
        ((advice.afterThrowing r' failure).run directory' engine')
  | .instrumented _ | .exposing => True

/-- **Interceptors do likewise**, if their programs do and the engine does. -/
theorem mimics_behaviour {b : Behaviour σ} (hreads : ∀ j, K.Later i j → K.Reads j r r')
    (hproceed : ∀ j, K.Later i j →
      K.Mimics j (fun _ => Eq) (engine (.proceed r)) (engine' (.proceed r')))
    (hb : K.Advises directory directory' engine engine' i r r' b) :
    K.Mimics i (fun _ => Eq) (b.run directory engine r) (b.run directory' engine' r') := by
  have hgoes := hproceed i (K.refl i)
  cases b with
  | around body => exact hb
  | before advice =>
    refine mimics_reading hreads fun j method arguments this hlater => ?_
    refine (hb j method arguments this hlater).bind ?_
    rintro l result _ hlater' rfl
    cases result with
    | error failure => exact mimics_same _
    | ok _ => exact hproceed l (K.trans hlater hlater')
  | afterReturning advice =>
    refine hgoes.bind ?_
    rintro j outcome _ hlater rfl
    cases outcome with
    | error failure => exact mimics_same _
    | ok returned =>
      refine mimics_reading (fun l hl => hreads l (K.trans hlater hl))
        fun l method arguments this hl => ?_
      refine (hb l returned method arguments this (K.trans hlater hl)).bind ?_
      rintro _ result _ _ rfl
      exact mimics_same _
  | afterThrowing advice =>
    refine hgoes.bind ?_
    rintro j outcome _ hlater rfl
    cases outcome with
    | ok returned => exact mimics_same _
    | error failure =>
      refine (hb j failure hlater).1.bind ?_
      rintro j₁ handled _ h₁ rfl
      cases handled with
      | false => exact mimics_same _
      | true =>
        replace hlater := K.trans hlater h₁
        refine (hreads j₁ hlater).call.bind fun j₂ _ _ h₂ _ =>
          (mimics_report _ _).bind fun j₃ _ _ h₃ _ => ?_
        refine (hb j₃ failure (K.trans (K.trans hlater h₂) h₃)).2.bind ?_
        rintro _ result _ _ rfl
        exact mimics_same _
  | instrumented label =>
    refine hgoes.bind ?_
    rintro j outcome _ hlater rfl
    refine (hreads j hlater).call.bind fun j₁ _ _ h₁ _ => ?_
    refine (hreads j₁ (K.trans hlater h₁)).method.bind fun _ _ _ _ _ => ?_
    cases outcome with
    | ok returned => exact (mimics_report _ _).bind fun _ _ _ _ _ => mimics_same _
    | error failure => exact (mimics_report _ _).bind fun _ _ _ _ _ => mimics_same _
  | exposing => exact mimics_expose hgoes

/-! ### Walks along chains -/

/-- Two invocations walk along the same links. They stand at positions that belong together, and all that is
done at a link on the one side is mimicked on the other. -/
structure Walks (K : Coupling σ ι) (directory directory' : Directory σ) (engine engine' : Engine σ)
    (r r' : Ref) (Stands : ι → Nat → Nat → Prop) (Fits : Link σ → Prop) : Prop where
  mono {i j : ι} {n n' : Nat} : Stands i n n' → K.Later i j → Stands j n n'
  next {i : ι} {n n' : Nat} : Stands i n n' → Stands i (n + 1) (n' + 1)
  reads {i : ι} {n n' : Nat} : Stands i n n' → K.Reads i r r'
  step {i : ι} {n n' : Nat} : Stands i n n' → K.Mimics i (fun _ => Eq) (Run.step r) (Run.step r')
  matching {i : ι} {n n' : Nat} : Stands i n n' → ∀ targetClass arguments, K.Mimics i (fun _ => Eq)
    (Run.record (.occurrence (.matching r n targetClass arguments)))
    (Run.record (.occurrence (.matching r' n' targetClass arguments)))
  skipped {i : ι} {n n' : Nat} : Stands i n n' → K.Mimics i (fun _ => Eq)
    (Run.record (.occurrence (.skipped r n))) (Run.record (.occurrence (.skipped r' n')))
  enter {i : ι} {n n' : Nat} : Stands i n n' →
    K.Mimics i (fun _ => Eq) (Run.enter r n) (Run.enter r' n')
  asks {i : ι} {interceptor : Interceptor σ} {accepts : ArgumentPredicate σ} :
    Fits (.dynamic interceptor accepts) → ∀ method targetClass arguments, K.Mimics i (fun _ => Eq)
      (Run.consult (accepts method targetClass arguments))
      (Run.consult (accepts method targetClass arguments))
  runs {i : ι} {n n' : Nat} {link : Link σ} : Fits link → Stands i n n' → K.Mimics i (fun _ => Eq)
    (link.interceptor.behaviour.run directory engine r)
    (link.interceptor.behaviour.run directory' engine' r')
  target {i : ι} {n n' : Nat} : Stands i n n' → K.Mimics i (fun _ => Eq)
    (engine.advance directory r n []) (engine'.advance directory' r' n' [])

namespace Walks

variable {Stands : ι → Nat → Nat → Prop} {Fits : Link σ → Prop}
  (h : K.Walks directory directory' engine engine' r r' Stands Fits)

include h

/-- An interceptor that lets the call in. -/
theorem letIn {link : Link σ} (hlink : Fits link) {n n' : Nat} (hstands : Stands i n n')
    (event event' : CallId → Event) :
    K.Mimics i (fun _ => Eq)
      (do
        Run.report (event (← Run.read r .call))
        Run.enter r n
        link.interceptor.behaviour.run directory engine r)
      (do
        Run.report (event' (← Run.read r' .call))
        Run.enter r' n'
        link.interceptor.behaviour.run directory' engine' r') := by
  refine (h.reads hstands).call.bind fun i₁ _ _ h₁ _ => (mimics_report _ _).bind fun i₂ _ _ h₂ _ => ?_
  have hstands₂ := h.mono hstands (K.trans h₁ h₂)
  refine (h.enter hstands₂).bind fun i₃ _ _ h₃ _ => ?_
  exact h.runs hlink (h.mono hstands₂ h₃)

/-- **Walks along the same links come to the same.** -/
theorem advance (links : List (Link σ)) (hlinks : ∀ link ∈ links, Fits link) :
    ∀ i n n', Stands i n n' →
      K.Mimics i (fun _ => Eq) (engine.advance directory r n links)
        (engine'.advance directory' r' n' links) := by
  induction links with
  | nil => exact fun _ _ _ hstands => h.target hstands
  | cons link rest ih =>
    intro i n n' hstands
    obtain ⟨hlink, hrest⟩ := List.forall_mem_cons.mp hlinks
    cases link with
    | plain interceptor =>
      refine (h.step hstands).bind fun i₁ _ _ h₁ _ => ?_
      exact h.letIn hlink (h.mono hstands h₁) (.entering · n) (.entering · n')
    | dynamic interceptor accepts =>
      refine (h.step hstands).bind fun i₁ _ _ h₁ _ => ?_
      replace hstands := h.mono hstands h₁
      refine (h.reads hstands).targetClass.bind ?_
      rintro i₂ targetClass _ h₂ rfl
      replace hstands := h.mono hstands h₂
      refine (h.reads hstands).arguments.bind ?_
      rintro i₃ arguments _ h₃ rfl
      replace hstands := h.mono hstands h₃
      refine (h.matching hstands targetClass arguments).bind fun i₄ _ _ h₄ _ => ?_
      replace hstands := h.mono hstands h₄
      refine (h.reads hstands).method.bind ?_
      rintro i₅ method _ h₅ rfl
      replace hstands := h.mono hstands h₅
      refine (h.asks hlink method targetClass arguments).bind ?_
      rintro i₆ accepted _ h₆ rfl
      replace hstands := h.mono hstands h₆
      cases accepted with
      | true => exact h.letIn hlink hstands (.enteringDynamic · n) (.enteringDynamic · n')
      | false =>
        refine (h.reads hstands).call.bind fun i₇ _ _ h₇ _ =>
          (mimics_report _ _).bind fun i₈ _ _ h₈ _ => ?_
        replace hstands := h.mono hstands (K.trans h₇ h₈)
        refine (h.skipped hstands).bind fun i₉ _ _ h₉ _ => ?_
        exact ih hrest i₉ (n + 1) (n' + 1) (h.next (h.mono hstands h₉))

end Walks

end Coupling

end Interception
