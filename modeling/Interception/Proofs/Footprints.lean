import Interception.Proofs.Cursor

/-! What an advance leaves behind in the journal, entry by entry, and what is left of every invocation
after it: an invocation that was once made stays on its route, whatever a run does. -/

namespace Interception

variable {σ : Type}

/-! ### Routes -/

namespace World

/-- Every invocation of the first world is there in the second, on its route. -/
structure Continues (w w' : World σ) : Prop where
  size : w.invocations.size ≤ w'.invocations.size
  route : ∀ r : Ref, r.index < w.invocations.size → (w.invocation r).SameRoute (w'.invocation r)

variable {w w' w'' : World σ}

theorem Continues.refl (w : World σ) : w.Continues w := ⟨Nat.le_refl _, fun _ _ => rfl⟩

theorem Continues.trans (h : w.Continues w') (h' : w'.Continues w'') : w.Continues w'' where
  size := Nat.le_trans h.size h'.size
  route r hr := (h.route r hr).trans (h'.route r (Nat.lt_of_lt_of_le hr h.size))

theorem Steady.continues (h : w.Steady w') : w.Continues w' :=
  ⟨Nat.le_of_eq h.size.symm, fun r _ => (h.invocations r).sameRoute⟩

/-- An invocation that has links ahead was made before, and so it stays on its route. -/
theorem Continues.route_ahead (h : w.Continues w') (r : Ref) (hsome : (w.invocation r).ahead ≠ []) :
    (w.invocation r).SameRoute (w'.invocation r) := by
  refine h.route r ?_
  by_contra hout
  rw [invocation_of_ge (Nat.le_of_not_lt hout)] at hsome
  exact hsome rfl

theorem continues_push (w : World σ) (i : Invocation σ) : w.Continues (w.push i).2 where
  size := Array.size_push _ ▸ Nat.le_succ _
  route r hr := by
    rw [invocation_push_of_lt hr]
    rfl

theorem sameRoute_stepOver (w : World σ) (r s : Ref) :
    (w.invocation s).SameRoute ((w.stepOver r).invocation s) := by
  by_cases hs : r = s
  · subst hs
    by_cases hr : r.index < w.invocations.size
    · rw [stepOver_self hr]
      rfl
    · have hout : w.invocations.size ≤ r.index := Nat.le_of_not_lt hr
      have hthen : (w.stepOver r).invocations.size ≤ r.index :=
        Nat.le_trans (Nat.le_of_eq (size_update _ _ _)) hout
      rw [invocation_of_ge hout, invocation_of_ge hthen]
      rfl
  · rw [stepOver, invocation_update_of_ne hs]
    rfl

theorem sameRoute_through (w : World σ) (r s : Ref) (position : Nat) (links : List (Link σ)) :
    (w.invocation s).SameRoute ((w.through r position links).2.2.invocation s) := by
  refine keeps_through (P := fun v => (w.invocation s).SameRoute (v.invocation s)) ?_ links position w rfl
  intro v position link hv
  rw [invocation_visit]
  exact hv.trans (v.sameRoute_stepOver r s)

theorem sameRoute_advance (w : World σ) (r s : Ref) :
    (w.invocation s).SameRoute ((w.advance r).2.2.invocation s) := by
  have hthrough := (w.record [.occurrence (.proceeding r)]).sameRoute_through r s
    (w.invocation r).entered (w.invocation r).ahead
  rw [advance_eq]
  generalize World.through r (w.invocation r).entered (w.invocation r).ahead _ = walked at hthrough ⊢
  obtain ⟨visits, _ | stop, v⟩ := walked <;> exact hthrough

theorem progress_continues : Progress (Continues (σ := σ)) where
  refl := Continues.refl
  trans := Continues.trans
  stroke h := h.toSteady.continues
  advance w r := ⟨Nat.le_of_eq (w.size_advance r).symm, fun s _ => w.sameRoute_advance r s⟩
  push := continues_push
  report w _ _ := (w.steady_entry rfl).continues

end World

/-! ### Footprints -/

/-- What the invocation `r` leaves in the journal as it walks over the links, the first of which stands at
the position, up to where it stops. -/
inductive Footprints (r : Ref) (i : Invocation σ) : Nat → List (Link σ) → List Entry → Stop σ → Prop where
  | reached {position : Nat} (this : Value) (arguments : List Value) (thread : Nat)
    (bindings : Bindings) :
    Footprints r i position []
      [.event (.invokingTarget i.call i.method),
        .occurrence (.reached (some r) this i.method arguments thread bindings)]
      .reached
  | plain {position : Nat} {interceptor : Interceptor σ} {rest : List (Link σ)} (current : Option Nat)
    (arguments : List Value) (thread : Nat) (bindings : Bindings) :
    Footprints r i position (.plain interceptor :: rest)
      [.event (.entering i.call position),
        .occurrence (.entered r position current arguments thread bindings)]
      (.entered position current interceptor.behaviour)
  | admitted {position : Nat} {interceptor : Interceptor σ} {accepts : ArgumentPredicate σ}
    {rest : List (Link σ)} (asked : List Value) (notes : List String) (current : Option Nat)
    (arguments : List Value) (thread : Nat) (bindings : Bindings) :
    Footprints r i position (.dynamic interceptor accepts :: rest)
      (.occurrence (.matching r position i.targetClass asked) :: notes.map .note ++
        [.event (.enteringDynamic i.call position),
          .occurrence (.entered r position current arguments thread bindings)])
      (.entered position current interceptor.behaviour)
  | unwound {position : Nat} {interceptor : Interceptor σ} {accepts : ArgumentPredicate σ}
    {rest : List (Link σ)} (asked : List Value) (notes : List String) (panic : Panic) :
    Footprints r i position (.dynamic interceptor accepts :: rest)
      (.occurrence (.matching r position i.targetClass asked) :: notes.map .note)
      (.unwound panic)
  | skipped {position : Nat} {interceptor : Interceptor σ} {accepts : ArgumentPredicate σ}
    {rest : List (Link σ)} {entries : List Entry} {stop : Stop σ} (asked : List Value)
    (notes : List String) (later : Footprints r i (position + 1) rest entries stop) :
    Footprints r i position (.dynamic interceptor accepts :: rest)
      (.occurrence (.matching r position i.targetClass asked) :: notes.map .note ++
        ([.event (.skipping i.call position), .occurrence (.skipped r position)] ++ entries))
      stop

namespace World

theorem gains_consult {γ : Type*} (w : World σ) (q : Inquiry σ γ) :
    w.Gains (q w.state).written (w.consult q).2 :=
  World.gains_record { w with state := (q w.state).state } _

theorem gains_both (w : World σ) (first second : Entry) :
    w.Gains [first, second] ((w.record [first]).record [second]) :=
  (w.gains_record [first]).append (gains_record _ [second])

theorem gains_ask (w : World σ) (r : Ref) (position : Nat) (accepts : ArgumentPredicate σ) :
    ∃ notes : List String, w.Gains
      (.occurrence (.matching r position (w.invocation r).targetClass (w.invocation r).arguments) ::
        notes.map .note) (w.ask r position accepts).2 :=
  ⟨_, (w.gains_record [_]).append (gains_consult _ _)⟩

theorem footprints_arrive (r : Ref) (i : Invocation σ) (links : List (Link σ)) :
    ∀ (position : Nat) (w : World σ), i.SameRoute (w.invocation r) →
      let (_, stop, v) := arrive r (w.through r position links)
      ∃ entries, w.Gains entries v ∧ Footprints r i position links entries stop := by
  induction links with
  | nil =>
    intro position w hi
    refine ⟨_, w.gains_both _ _, ?_⟩
    rw [hi.call, hi.method]
    exact .reached _ _ _ _
  | cons link rest ih =>
    intro position w hi
    have hstep : i.SameRoute ((w.stepOver r).invocation r) := hi.trans (w.sameRoute_stepOver r r)
    cases link with
    | plain interceptor =>
      refine ⟨_, (w.stepOver r).gains_both _ _, ?_⟩
      rw [hstep.call]
      exact .plain _ _ _ _
    | dynamic interceptor accepts =>
      obtain ⟨notes, hnotes⟩ := (w.stepOver r).gains_ask r position accepts
      have hkept : ((w.stepOver r).ask r position accepts).2.invocation r =
        (w.stepOver r).invocation r := rfl
      rw [hstep.targetClass] at hnotes
      simp only [through, visit]
      generalize (w.stepOver r).ask r position accepts = asked at hnotes hkept
      obtain ⟨verdict, v⟩ := asked
      replace hkept : v.invocation r = (w.stepOver r).invocation r := hkept
      have hcall : (v.invocation r).call = i.call := by rw [hkept, hstep.call]
      cases verdict with
      | error panic => exact ⟨_, hnotes, .unwound _ _ _⟩
      | ok admitted =>
        cases admitted with
        | true =>
          refine ⟨_, hnotes.append (v.gains_both _ _), ?_⟩
          rw [hcall]
          exact .admitted _ _ _ _ _ _
        | false =>
          -- the walk goes on over the rest
          have hskip := v.gains_both (.event (.skipping (v.invocation r).call position))
            (.occurrence (.skipped r position))
          have hlater := ih (position + 1) (v.skip r position)
            (show i.SameRoute (v.invocation r) from hkept ▸ hstep)
          dsimp only
          generalize World.through r (position + 1) rest (v.skip r position) = walked at hlater ⊢
          obtain ⟨visits, _ | stop, v'⟩ := walked <;>
          · obtain ⟨entries, hentries, hprints⟩ := hlater
            refine ⟨_, hnotes.append (hskip.append hentries), ?_⟩
            rw [hcall]
            exact .skipped _ _ hprints

/-- What an advance leaves in the journal. -/
theorem footprints_advance (w : World σ) (r : Ref) :
    ∃ entries, w.Gains (.occurrence (.proceeding r) :: entries) (w.advance r).2.2 ∧
      Footprints r (w.invocation r) (w.invocation r).entered (w.invocation r).ahead entries
        (w.advance r).2.1 := by
  have htold := w.gains_record [.occurrence (.proceeding r)]
  have harrive := footprints_arrive r (w.invocation r) (w.invocation r).ahead (w.invocation r).entered
    (w.record [.occurrence (.proceeding r)]) rfl
  rw [advance_eq]
  generalize arrive r _ = arrived at harrive ⊢
  obtain ⟨visits, stop, v⟩ := arrived
  obtain ⟨entries, hentries, hprints⟩ := harrive
  exact ⟨entries, htold.append hentries, hprints⟩

/-- What an advance to the stop leaves in the journal. -/
theorem gains_advance {w v : World σ} {r : Ref} {visits : List Visit} {stop : Stop σ}
    (arrives : w.advance r = (visits, stop, v)) :
    ∃ entries, w.Gains (.occurrence (.proceeding r) :: entries) v ∧
      Footprints r (w.invocation r) (w.invocation r).entered (w.invocation r).ahead entries stop := by
  have hprints := w.footprints_advance r
  rwa [arrives] at hprints

end World

end Interception
