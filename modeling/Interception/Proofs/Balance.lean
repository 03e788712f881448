import Mathlib.Data.List.Forall2
import Interception.Proofs.Story

/-! Bindings are balanced. A ledger keeps, from the deeds of a story alone, which bindings are live on each
thread, the outermost first, and which guards each callback still holds. It can be kept only as long as
guards are scoped: a guard is dropped by the callback that bound it and holds no later one, and no
callback ends with a guard in its hands. Then the bindings of every thread are at every moment those of
the ledger, and whatever is asked for, however it ends, leaves them as they were. -/

namespace Interception

variable {σ α β : Type}

/-- What a binding is made for. -/
inductive Owner where
  /-- An invocation that is published while it advances. -/
  | frame (invocation : Ref)
  /-- A guard that a callback holds. -/
  | guard (guard : Guard)
  deriving DecidableEq

/-- A live binding, with the join point that it shows at the moment. -/
structure Binding where
  owner : Owner
  point : JoinPoint

/-- The bindings that are live, and the guards that are held. -/
structure Ledger where
  /-- The bindings of the running thread, the outermost first. -/
  live : List Binding := []
  /-- Those of the threads that wait, the latest first. -/
  waiting : List (List Binding) := []
  /-- The guards of each callback that runs, the innermost callback and the latest guard first. -/
  held : List (List Guard) := []

namespace Ledger

/-- Takes out the latest binding of the owner. -/
def remove (owner : Owner) (live : List Binding) : List Binding :=
  (live.reverse.eraseP (·.owner = owner)).reverse

/-- The ledger after a deed, unless the deed breaks the scope of a guard. -/
def next (ℓ : Ledger) : Deed → Option Ledger
  | .begun => some { ℓ with held := [] :: ℓ.held }
  | .ended =>
    match ℓ.held with
    | [] :: held => some { ℓ with held }
    | _ => none
  | .bound guard point =>
    match ℓ.held with
    | mine :: held =>
      some { ℓ with live := ℓ.live ++ [⟨.guard guard, point⟩], held := (guard :: mine) :: held }
    | [] => none
  | .dropped guard =>
    match ℓ.held with
    | (latest :: mine) :: held =>
      if latest = guard then some { ℓ with live := remove (.guard guard) ℓ.live, held := mine :: held }
      else none
    | _ => none
  | .published r point => some { ℓ with live := ℓ.live ++ [⟨.frame r, point⟩] }
  | .withdrawn r => some { ℓ with live := remove (.frame r) ℓ.live }
  | .redrawn slot point => some { ℓ with live := ℓ.live.modify slot fun b => { b with point } }
  | .descended => some { ℓ with live := [], waiting := ℓ.live :: ℓ.waiting }
  | .ascended => some { ℓ with live := ℓ.waiting.headD [], waiting := ℓ.waiting.tail }
  | .other => some ℓ

/-- The ledger after deeds, if it can be kept. -/
def along (ℓ : Ledger) : List Deed → Option Ledger
  | [] => some ℓ
  | deed :: rest => (ℓ.next deed).bind (·.along rest)

/-- The bindings of all threads, the running one first. -/
def pages (ℓ : Ledger) : List (List Binding) := ℓ.live :: ℓ.waiting

/-- The bindings of all threads, without what they show. -/
def owners (ℓ : Ledger) : List (List Owner) := ℓ.pages.map (·.map Binding.owner)

end Ledger

/-- What is bound in the world is what the ledger says, on every thread and in this order. -/
structure Ledger.Fits (ℓ : Ledger) (w : World σ) : Prop where
  live : w.bindings.points = ℓ.live.map Binding.point
  waiting : w.waiting.map Bindings.points = ℓ.waiting.map (·.map Binding.point)

/-- The bindings of the running thread and of those that wait are made for these owners, and the
callbacks hold these guards. -/
structure Ledger.Stands (base : List Owner) (waiting : List (List Owner)) (held : List (List Guard))
    (ℓ : Ledger) : Prop where
  live : ℓ.live.map Binding.owner = base
  waiting : ℓ.waiting.map (·.map Binding.owner) = waiting
  held : ℓ.held = held

/-- The guards of one callback, the latest first, stand in the slots from the given one on. -/
def Stacked (slot : Nat) : List Guard → Prop
  | [] => True
  | latest :: mine => latest.slot = slot + mine.length ∧ Stacked slot mine

/-- The innermost callback has put nothing but its guards on top of what stood there. -/
def Ledger.Holds (base : List Owner) (waiting : List (List Owner)) (held : List (List Guard))
    (ℓ : Ledger) : Prop :=
  ∃ mine, Stacked base.length mine ∧
    Stands (base ++ mine.reverse.map .guard) waiting (mine :: held) ℓ

/-- Bindings of these owners are still there where they stood, under others of the same thread and
behind threads that were started since. -/
def Ledger.Above (base : List Owner) (waiting : List (List Owner)) (ℓ : Ledger) : Prop :=
  ∃ newer page, ℓ.owners = newer ++ page :: waiting ∧ base <+: page

namespace Ledger

variable {ℓ ℓ' : Ledger} {w w' : World σ} {base : List Owner} {waiting : List (List Owner)}
  {held : List (List Guard)} {owner : Owner} {guard : Guard} {r : Ref} {point : JoinPoint}

theorem Stands.owners (h : Stands base waiting held ℓ) : ℓ.owners = base :: waiting := by
  rw [Ledger.owners, pages, List.map_cons, h.live, h.waiting]

theorem Stands.above (h : Stands base waiting held ℓ) : Above base waiting ℓ :=
  ⟨[], base, h.owners, List.prefix_refl base⟩

theorem Above.of_append {own : List Owner} (h : Above (base ++ own) waiting ℓ) :
    Above base waiting ℓ := by
  obtain ⟨newer, page, howners, hpage⟩ := h
  exact ⟨newer, page, howners, (List.prefix_append base own).trans hpage⟩

/-- What waits under a thread stands under all that is done on it. -/
theorem Above.of_thread (h : Above [] (base :: waiting) ℓ) : Above base waiting ℓ := by
  obtain ⟨newer, page, howners, _⟩ := h
  exact ⟨newer ++ [page], base, by rw [howners, List.append_assoc]; rfl, List.prefix_refl base⟩

theorem Holds.above (h : Holds base waiting held ℓ) : Above base waiting ℓ := by
  obtain ⟨_, _, hstands⟩ := h
  exact hstands.above.of_append

theorem Fits.of_eq (h : ℓ.Fits w) (hbindings : w'.bindings = w.bindings)
    (hwaiting : w'.waiting = w.waiting) : ℓ.Fits w' :=
  ⟨hbindings ▸ h.live, hwaiting ▸ h.waiting⟩

theorem Fits.depth (h : ℓ.Fits w) (hstands : Stands base waiting held ℓ) :
    w.bindings.depth = base.length := by
  rw [Bindings.depth, h.live, ← hstands.live, List.length_map, List.length_map]

/-! ### Deeds -/

theorem remove_concat (live : List Binding) (b : Binding) : remove b.owner (live ++ [b]) = live := by
  simp [remove]

/-- The latest binding of an owner is the one on top, if that is the owner's. -/
theorem Stands.remove (h : Stands (base ++ [owner]) waiting held ℓ) :
    (remove owner ℓ.live).map Binding.owner = base ∧
      (remove owner ℓ.live).map Binding.point = (ℓ.live.map Binding.point).take base.length := by
  obtain ⟨live, last, hlive, hbase, hlast⟩ := List.map_eq_append_iff.mp h.live
  obtain ⟨b, rfl, rfl⟩ := List.map_eq_singleton_iff.mp hlast
  rw [hlive, remove_concat, ← hbase]
  simp

theorem published (hfits : ℓ.Fits w) (h : Stands base waiting held ℓ)
    (hnext : ℓ.next (.published r (w.invocation r).joinPoint) = some ℓ') :
    ℓ'.Fits (w.publish r) ∧ Stands (base ++ [.frame r]) waiting held ℓ' := by
  cases hnext
  refine ⟨⟨?_, hfits.waiting⟩, ⟨?_, h.waiting, h.held⟩⟩
  · rw [List.map_append, ← hfits.live]
    rfl
  · rw [List.map_append, h.live]
    rfl

theorem withdrawn {ended : Ending α × World σ} (hfits : ℓ.Fits ended.2)
    (h : Stands (base ++ [.frame r]) waiting held ℓ) (hdepth : w.bindings.depth = base.length)
    (hnext : ℓ.next (.withdrawn r) = some ℓ') :
    ℓ'.Fits (w.withdraw r ended) ∧ Stands base waiting held ℓ' := by
  cases hnext
  obtain ⟨howners, hpoints⟩ := h.remove
  refine ⟨?_, howners, h.waiting, h.held⟩
  have hreleased : Fits { ℓ with live := remove (.frame r) ℓ.live }
      (ended.2.release ⟨w.bindings.depth⟩) := by
    refine ⟨?_, hfits.waiting⟩
    rw [hpoints, ← hfits.live, ← hdepth]
    rfl
  rcases ended with ⟨_ | _ | _, v⟩ <;> exact hreleased.of_eq rfl rfl

theorem begun (hfits : ℓ.Fits w) (h : Stands base waiting held ℓ) (hnext : ℓ.next .begun = some ℓ') :
    ℓ'.Fits w ∧ Holds base waiting held ℓ' := by
  cases hnext
  refine ⟨⟨hfits.live, hfits.waiting⟩, [], trivial, ?_, h.waiting, ?_⟩
  · exact h.live.trans (List.append_nil base).symm
  · exact congrArg ([] :: ·) h.held

theorem ended (hfits : ℓ.Fits w) (h : Holds base waiting held ℓ) (hnext : ℓ.next .ended = some ℓ') :
    ℓ'.Fits w ∧ Stands base waiting held ℓ' := by
  obtain ⟨mine, _, hstands⟩ := h
  simp only [next, hstands.held] at hnext
  cases mine with
  | cons latest mine => cases hnext
  | nil =>
    cases hnext
    exact ⟨⟨hfits.live, hfits.waiting⟩, hstands.live.trans (List.append_nil base), hstands.waiting, rfl⟩

theorem bound (hfits : ℓ.Fits w) (h : Holds base waiting held ℓ)
    (hnext : ℓ.next (.bound ⟨w.bindings.depth⟩ point) = some ℓ') :
    ℓ'.Fits (w.bind none point).2 ∧ Holds base waiting held ℓ' := by
  obtain ⟨mine, hstacked, hstands⟩ := h
  simp only [next, hstands.held] at hnext
  cases hnext
  refine ⟨⟨?_, hfits.waiting⟩, ⟨w.bindings.depth⟩ :: mine, ⟨?_, hstacked⟩, ?_, hstands.waiting, rfl⟩
  · rw [List.map_append, ← hfits.live]
    rfl
  · rw [hfits.depth hstands]
    simp
  · simp [hstands.live]

theorem dropped (hfits : ℓ.Fits w) (h : Holds base waiting held ℓ)
    (hnext : ℓ.next (.dropped guard) = some ℓ') :
    ℓ'.Fits (w.release guard) ∧ Holds base waiting held ℓ' := by
  obtain ⟨mine, hstacked, hstands⟩ := h
  simp only [next, hstands.held] at hnext
  cases mine with
  | nil => cases hnext
  | cons latest mine =>
    by_cases hlatest : latest = guard
    · subst hlatest
      simp only [if_true] at hnext
      cases hnext
      have hlast : Stands ((base ++ mine.reverse.map .guard) ++ [.guard latest]) waiting
          ((latest :: mine) :: held) ℓ := by
        rw [List.append_assoc]
        simpa using hstands
      obtain ⟨howners, hpoints⟩ := hlast.remove
      refine ⟨⟨?_, hfits.waiting⟩, mine, hstacked.2, howners, hstands.waiting, rfl⟩
      have hslot : latest.slot = (base ++ mine.reverse.map Owner.guard).length := by
        rw [hstacked.1]
        simp
      rw [hpoints, ← hfits.live, ← hslot]
      rfl
    · simp only [if_neg hlatest] at hnext
      cases hnext

theorem descended (hfits : ℓ.Fits w) (h : Stands base waiting held ℓ)
    (hnext : ℓ.next .descended = some ℓ') :
    ℓ'.Fits w.descend ∧ Stands [] (base :: waiting) held ℓ' := by
  cases hnext
  refine ⟨⟨rfl, ?_⟩, rfl, ?_, h.held⟩
  · exact congr (congrArg List.cons hfits.live) hfits.waiting
  · exact congr (congrArg List.cons h.live) h.waiting

theorem ascended (hfits : ℓ.Fits w) (h : Stands [] (base :: waiting) held ℓ)
    (hnext : ℓ.next .ascended = some ℓ') :
    ℓ'.Fits w.ascend ∧ Stands base waiting held ℓ' := by
  cases hnext
  obtain ⟨page, rest, hpages, hpage, hrest⟩ := List.map_eq_cons_iff.mp h.waiting
  have hwaiting := hfits.waiting
  rw [hpages] at hwaiting
  obtain ⟨bindings, threads, hthreads, hbindings, hrests⟩ := List.map_eq_cons_iff.mp hwaiting
  refine ⟨⟨?_, ?_⟩, ?_, ?_, h.held⟩
  · simpa [World.ascend, hthreads, hpages] using hbindings
  · simpa [World.ascend, hthreads, hpages] using hrests
  · simpa [hpages] using hpage
  · simpa [hpages] using hrest

theorem redraw_live (live : List Binding) (slot : Nat) (point : JoinPoint) :
    (live.modify slot fun b => { b with point }).map Binding.owner = live.map Binding.owner ∧
      (live.modify slot fun b => { b with point }).map Binding.point =
        (live.map Binding.point).set slot point := by
  induction live generalizing slot with
  | nil => cases slot <;> exact ⟨rfl, rfl⟩
  | cons b live ih =>
    cases slot with
    | zero => exact ⟨rfl, rfl⟩
    | succ slot =>
      obtain ⟨howners, hpoints⟩ := ih slot
      exact ⟨congrArg (b.owner :: ·) howners, congrArg (b.point :: ·) hpoints⟩

theorem Holds.redrawn {slot : Nat} (h : Holds base waiting held ℓ)
    (hnext : ℓ.next (.redrawn slot point) = some ℓ') : Holds base waiting held ℓ' := by
  cases hnext
  obtain ⟨mine, hstacked, hstands⟩ := h
  exact ⟨mine, hstacked, (redraw_live _ _ _).1.trans hstands.live, hstands.waiting, hstands.held⟩

/-- Where an invocation that is published is given other arguments, its slot is redrawn. -/
theorem replaced {arguments : List Value} (hfits : ℓ.Fits w) (h : Holds base waiting held ℓ)
    (hnext : ℓ.next ((Operation.setArguments r arguments).deed w) = some ℓ') :
    ℓ'.Fits (w.setArguments r arguments) ∧ Holds base waiting held ℓ' := by
  simp only [Operation.deed] at hnext
  cases hslot : ((w.update r fun i => { i with arguments }).invocation r).exposedAt with
  | none =>
    rw [hslot] at hnext
    cases hnext
    refine ⟨hfits.of_eq ?_ rfl, h⟩
    simp only [World.setArguments, hslot]
    rfl
  | some slot =>
    rw [hslot] at hnext
    refine ⟨?_, h.redrawn hnext⟩
    cases hnext
    refine ⟨?_, hfits.waiting⟩
    rw [(redraw_live _ _ _).2, ← hfits.live]
    simp only [World.setArguments, hslot]
    rfl

/-! ### Stories that keep a ledger -/

/-- Wherever the ledger can be kept along the moments, it has the property there, and whenever it can be
kept to the end, it ends as told. -/
def Follows (A : Ledger → World σ → Prop) : Ledger → List (Deed × World σ) → (Ledger → Prop) → Prop
  | ℓ, [], Q => Q ℓ
  | ℓ, (deed, w) :: rest, Q => ∀ ℓ', ℓ.next deed = some ℓ' → A ℓ' w ∧ Follows A ℓ' rest Q

section Follows

variable {A A' : Ledger → World σ → Prop} {Q Q' : Ledger → Prop}
  {first second moments : List (Deed × World σ)}

theorem Follows.append (h : Follows A ℓ first fun ℓ' => Follows A ℓ' second Q) :
    Follows A ℓ (first ++ second) Q := by
  induction first generalizing ℓ with
  | nil => exact h
  | cons moment rest ih =>
    intro ℓ' hnext
    obtain ⟨hhere, hrest⟩ := h ℓ' hnext
    exact ⟨hhere, ih hrest⟩

theorem Follows.mono (h : Follows A ℓ moments Q) (hA : ∀ ℓ w, A ℓ w → A' ℓ w)
    (hQ : ∀ ℓ, Q ℓ → Q' ℓ) : Follows A' ℓ moments Q' := by
  induction moments generalizing ℓ with
  | nil => exact hQ ℓ h
  | cons moment rest ih =>
    intro ℓ' hnext
    obtain ⟨hhere, hrest⟩ := h ℓ' hnext
    exact ⟨hA _ _ hhere, ih hrest⟩

theorem Follows.along (h : Follows A ℓ moments Q)
    (halong : ℓ.along (moments.map Prod.fst) = some ℓ') : Q ℓ' := by
  induction moments generalizing ℓ with
  | nil =>
    cases halong
    exact h
  | cons moment rest ih =>
    obtain ⟨ℓ₁, hnext, hrest⟩ := Option.bind_eq_some_iff.mp halong
    exact ih (h ℓ₁ hnext).2 hrest

theorem Follows.moment {earlier later : List (Deed × World σ)} (h : Follows A ℓ (earlier ++ later) Q)
    (hfirst : A ℓ w) (halong : ℓ.along (earlier.map Prod.fst) = some ℓ') : A ℓ' (w.atEnd earlier) := by
  induction earlier generalizing ℓ w with
  | nil =>
    cases halong
    exact hfirst
  | cons moment rest ih =>
    obtain ⟨ℓ₁, hnext, hrest⟩ := Option.bind_eq_some_iff.mp halong
    obtain ⟨hhere, hlater⟩ := h ℓ₁ hnext
    exact ih hlater hhere hrest

end Follows

end Ledger

open Ledger (Follows Fits Stands Holds Above)

/-- Whenever the ledger fits the world and `J` holds of it, the story keeps it so that it fits at every
moment, with `A`, and in the world in which the run ends, with `J`. -/
def Story.Keeps (A J : Ledger → Prop) (s : Story σ) (p : Run σ α) : Prop :=
  ∀ ℓ w, Fits ℓ w → J ℓ →
    Follows (fun ℓ' v => Fits ℓ' v ∧ A ℓ') ℓ (s w) fun ℓ' => Fits ℓ' (p w).2 ∧ J ℓ'

/-- Nothing is done to the bindings of any thread. -/
def World.SameThreads (w w' : World σ) : Prop := w'.bindings = w.bindings ∧ w'.waiting = w.waiting

namespace World

variable {w w' w'' : World σ}

theorem SameThreads.trans (h : w.SameThreads w') (h' : w'.SameThreads w'') : w.SameThreads w'' :=
  ⟨h'.1.trans h.1, h'.2.trans h.2⟩

theorem sameThreads_consult (q : Query σ α) (w : World σ) : w.SameThreads (Run.consult q w).2 := by
  simp only [Run.consult, Run.inquire_eq, World.consult]
  cases (Inquiry.consult q w.state).result <;> exact ⟨rfl, rfl⟩

theorem sameThreads_visit (r : Ref) (position : Nat) (link : Link σ) (w : World σ) :
    w.SameThreads (w.visit r position link).2.2 := by
  cases link with
  | plain interceptor => exact ⟨rfl, rfl⟩
  | dynamic interceptor accepts =>
    have hask : w.SameThreads ((w.stepOver r).ask r position accepts).2 := ⟨rfl, rfl⟩
    simp only [visit]
    rcases hverdict : (w.stepOver r).ask r position accepts with ⟨panic | _ | _, v⟩ <;>
      rw [hverdict] at hask <;> exact hask

theorem sameThreads_through (r : Ref) (links : List (Link σ)) : ∀ (position : Nat) (w : World σ),
    w.SameThreads (through r position links w).2.2 := by
  induction links with
  | nil => exact fun _ _ => ⟨rfl, rfl⟩
  | cons link rest ih =>
    intro position w
    have hvisit := sameThreads_visit r position link w
    simp only [through]
    rcases hmet : w.visit r position link with ⟨visit, _ | stop, v⟩ <;> rw [hmet] at hvisit
    · exact hvisit.trans (ih (position + 1) v)
    · exact hvisit

/-- What an invocation does by itself concerns no binding. -/
theorem sameThreads_advance (w : World σ) (r : Ref) : w.SameThreads (w.advance r).2.2 := by
  have hthrough := sameThreads_through r (w.invocation r).ahead (w.invocation r).entered
    (w.record [.occurrence (.proceeding r)])
  rw [advance_eq]
  rcases hwalk : through r (w.invocation r).entered (w.invocation r).ahead
    (w.record [.occurrence (.proceeding r)]) with ⟨visits, _ | stop, v⟩ <;>
    rw [hwalk] at hthrough <;> exact hthrough

end World

namespace Story

variable {A A' J J' : Ledger → Prop} {s : Story σ} {p : Run σ α} {base : List Owner}
  {waiting : List (List Owner)} {held : List (List Guard)}

theorem keeps_silent (h : ∀ w : World σ, w.SameThreads (p w).2) : Keeps A J silent p :=
  fun _ w hfits hj => ⟨hfits.of_eq (h w).1 (h w).2, hj⟩

theorem keeps_aside (hA : ∀ ℓ, J ℓ → A ℓ) (h : ∀ w : World σ, w.SameThreads (p w).2) :
    Keeps A J (aside p) p := by
  intro ℓ w hfits hj ℓ' hnext
  cases hnext
  have hthen : ℓ.Fits (p w).2 := hfits.of_eq (h w).1 (h w).2
  exact ⟨⟨hthen, hA ℓ hj⟩, hthen, hj⟩

theorem Keeps.andThen {next : α → Story σ} {k : α → Run σ β} (hs : Keeps A J s p)
    (hk : ∀ a, Keeps A J (next a) (k a)) : Keeps A J (s.andThen p next) (p.andThen k) := by
  intro ℓ w hfits hj
  refine (Follows.mono (hs ℓ w hfits hj) (fun _ _ h => h) fun ℓ' ⟨hfits', hj'⟩ => ?_).append
  simp only [Run.andThen]
  rcases hrun : p w with ⟨a | panic | _, v⟩ <;> rw [hrun] at hfits'
  · exact hk a ℓ' v hfits' hj'
  · exact ⟨hfits', hj'⟩
  · exact ⟨hfits', hj'⟩

/-- What is left to do concerns no binding. -/
theorem Keeps.map {k : α → Run σ β} (hs : Keeps A J s p)
    (hk : ∀ a (w : World σ), w.SameThreads (k a w).2) : Keeps A J s (p.andThen k) := by
  intro ℓ w hfits hj
  refine Follows.mono (hs ℓ w hfits hj) (fun _ _ h => h) fun ℓ' ⟨hfits', hj'⟩ => ?_
  simp only [Run.andThen]
  rcases hrun : p w with ⟨a | panic | _, v⟩ <;> rw [hrun] at hfits'
  · exact ⟨hfits'.of_eq (hk a v).1 (hk a v).2, hj'⟩
  · exact ⟨hfits', hj'⟩
  · exact ⟨hfits', hj'⟩

/-- A story between two deeds, which it keeps the ledger for. -/
theorem Keeps.within {opening closing : World σ → Deed × World σ} {q : Run σ β}
    (hA : ∀ ℓ, J ℓ → A ℓ) (hA' : ∀ ℓ, A' ℓ → A ℓ) (hJ' : ∀ ℓ, J' ℓ → A ℓ)
    (hopening : ∀ ℓ w ℓ', Fits ℓ w → J ℓ → ℓ.next (opening w).1 = some ℓ' →
      Fits ℓ' (opening w).2 ∧ J' ℓ')
    (hs : Keeps A' J' s p)
    (hclosing : ∀ ℓ w ℓ₁ ℓ', Fits ℓ w → J ℓ → Fits ℓ₁ (p (opening w).2).2 → J' ℓ₁ →
      ℓ₁.next (closing w).1 = some ℓ' → Fits ℓ' (closing w).2 ∧ J ℓ')
    (hq : ∀ w, (closing w).2 = (q w).2) : Keeps A J (within opening s closing) q := by
  intro ℓ w hfits hj ℓ₀ hnext
  obtain ⟨hfits₀, hj₀⟩ := hopening ℓ w ℓ₀ hfits hj hnext
  refine ⟨⟨hfits₀, hJ' ℓ₀ hj₀⟩, Follows.append ?_⟩
  refine Follows.mono (hs ℓ₀ _ hfits₀ hj₀) (fun ℓ v h => ⟨h.1, hA' ℓ h.2⟩)
    fun ℓ₁ ⟨hfits₁, hj₁⟩ ℓ' hnext' => ?_
  obtain ⟨hfits', hj'⟩ := hclosing ℓ w ℓ₁ ℓ' hfits hj hfits₁ hj₁ hnext'
  exact ⟨⟨hfits', hA ℓ' hj'⟩, hq w ▸ hfits', hj'⟩

theorem Keeps.callback (hs : ∀ base waiting held, Keeps (Above base waiting) (Holds base waiting held) s p) :
    Keeps (Above base waiting) (Stands base waiting held) (callback s p) p :=
  Keeps.within (fun _ h => h.above) (fun _ h => h) (fun _ h => h.above)
    (fun _ _ _ hfits h hnext => Ledger.begun hfits h hnext) (hs base waiting held)
    (fun _ _ _ _ _ _ hfits h hnext => Ledger.ended hfits h hnext) fun _ => rfl

theorem Keeps.publishing {engine : Engine σ} {r : Ref}
    (hs : ∀ base waiting held,
      Keeps (Above base waiting) (Stands base waiting held) s (engine (.proceed r))) :
    Keeps (Above base waiting) (Stands base waiting held) (publishing r s (engine (.proceed r)))
      (engine.expose r) := by
  refine Keeps.within (fun _ h => h.above) (fun _ h => h.of_append) (fun _ h => h.above.of_append)
    (fun _ _ _ hfits h hnext => Ledger.published hfits h hnext) (hs (base ++ [.frame r]) waiting held)
    (fun _ _ _ _ hfits h hfits₁ h₁ hnext => Ledger.withdrawn hfits₁ h₁ (hfits.depth h) hnext) fun w => ?_
  have htells := tells_publishing (s := silent) engine r w
  exact htells

theorem Keeps.onThread
    (hs : ∀ base waiting held, Keeps (Above base waiting) (Holds base waiting held) s p) :
    Keeps (Above base waiting) (Stands base waiting held) (onThread s p) (Run.onThread p) :=
  Keeps.within (fun _ h => h.above) (fun _ h => h.of_thread) (fun _ h => h.above.of_thread)
    (fun _ _ _ hfits h hnext => Ledger.descended hfits h hnext) (Keeps.callback hs)
    (fun _ _ _ _ _ _ hfits h hnext => Ledger.ascended hfits h hnext) fun _ => rfl

theorem Keeps.withBinding (point : JoinPoint)
    (hs : Keeps (Above base waiting) (Holds base waiting held) s p) :
    Keeps (Above base waiting) (Holds base waiting held) (withBinding point s p)
      (Run.withBinding point p) :=
  Keeps.within (fun _ h => h.above) (fun _ h => h) (fun _ h => h.above)
    (fun _ _ _ hfits h hnext => Ledger.bound hfits h hnext) hs
    (fun _ _ _ _ _ _ hfits h hnext => Ledger.dropped hfits h hnext) fun _ => rfl

/-- What is asked for in the middle of a callback leaves its guards where they are. -/
theorem Keeps.nested
    (hs : ∀ base waiting held, Keeps (Above base waiting) (Stands base waiting held) s p) :
    Keeps (Above base waiting) (Holds base waiting held) s p := by
  rintro ℓ w hfits ⟨mine, hstacked, hstands⟩
  exact Follows.mono (hs _ _ _ ℓ w hfits hstands) (fun _ _ h => ⟨h.1, h.2.of_append⟩)
    fun _ ⟨hfits', hstands'⟩ => ⟨hfits', mine, hstacked, hstands'⟩

end Story

/-! ### Programs and calls -/

section Runs

open Story (Keeps)

variable {directory : Directory σ} {engine : Engine σ} {told : Activation σ → Story σ}

/-- Whatever is asked for leaves the ledger as it was, up to what the bindings show. -/
def Engine.Balanced (engine : Engine σ) (told : Activation σ → Story σ) : Prop :=
  ∀ a base waiting held, Keeps (Above base waiting) (Stands base waiting held) (told a) (engine a)

/-- A program adds and drops no bindings but its own guards. -/
theorem Program.keeps_story (h : engine.Balanced told) (p : Program σ α) : ∀ base waiting held,
    Keeps (Above base waiting) (Holds base waiting held) (p.story directory engine told)
      (p.run directory engine) := by
  induction p with
  | done a => exact fun _ _ _ => Story.keeps_silent fun _ => ⟨rfl, rfl⟩
  | andThen first next ihfirst ihnext =>
    exact fun base waiting held =>
      (ihfirst base waiting held).andThen fun a => ihnext a base waiting held
  | consult q =>
    exact fun _ _ _ => Story.keeps_aside (fun _ h => h.above) (World.sameThreads_consult q)
  | perform op =>
    intro base waiting held ℓ w hfits hholds ℓ' hnext
    have hdone : ℓ'.Fits (w.apply op).2 ∧ Holds base waiting held ℓ' := by
      cases op with
      | bind point => exact Ledger.bound hfits hholds hnext
      | release guard => exact Ledger.dropped hfits hholds hnext
      | setArguments r arguments => exact Ledger.replaced hfits hholds hnext
      | _ =>
        cases hnext
        exact ⟨hfits.of_eq rfl rfl, hholds⟩
    exact ⟨⟨hdone.1, hdone.2.above⟩, hdone⟩
  | proceed r => exact fun _ _ _ => Keeps.nested (h (.proceed r))
  | expose r => exact fun _ _ _ => Keeps.nested fun _ _ _ => Keeps.publishing (h (.proceed r))
  | invoke name request target =>
    intro base waiting held
    simp only [story, run]
    cases directory name with
    | none => exact Story.keeps_silent fun _ => ⟨rfl, rfl⟩
    | some proxy => exact (Keeps.nested (h (.call proxy request target))).map fun _ _ => ⟨rfl, rfl⟩
  | withBinding point body ih => exact fun base waiting held => (ih base waiting held).withBinding point
  | catching body ih =>
    intro base waiting held ℓ w hfits hholds
    refine Follows.mono (ih base waiting held ℓ w hfits hholds) (fun _ _ h => h) fun ℓ' hended => ?_
    simp only [run, Run.catching]
    rcases hrun : body.run directory engine w with ⟨_ | _ | _, v⟩ <;> rw [hrun] at hended <;>
      exact hended
  | onThread body ih => exact fun _ _ _ => Keeps.nested fun _ _ _ => Keeps.onThread ih

variable {base : List Owner} {waiting : List (List Owner)} {held : List (List Guard)}

theorem Program.keeps_callback (h : engine.Balanced told) (p : Program σ α) :
    Keeps (Above base waiting) (Stands base waiting held) (p.callback directory engine told)
      (p.run directory engine) :=
  Keeps.callback (p.keeps_story h)

theorem Behaviour.keeps_story (h : engine.Balanced told) (r : Ref) (b : Behaviour σ) :
    Keeps (Above base waiting) (Stands base waiting held) (b.story directory engine told r)
      (b.run directory engine r) := by
  have hproceed := h (.proceed r) base waiting held
  cases b with
  | around body => exact (body r).keeps_callback h
  | before advice =>
    intro ℓ w
    let i := w.invocation r
    refine ((advice i.method i.arguments i.this).keeps_callback h).andThen (fun result => ?_) ℓ w
    cases result with
    | error failure => exact Story.keeps_silent fun _ => ⟨rfl, rfl⟩
    | ok _ => exact hproceed
  | afterReturning advice =>
    refine hproceed.andThen fun outcome => ?_
    cases outcome with
    | error failure => exact Story.keeps_silent fun _ => ⟨rfl, rfl⟩
    | ok returned =>
      intro ℓ w
      let i := w.invocation r
      exact ((advice returned i.method i.arguments i.this).keeps_callback h).map
        (fun _ _ => ⟨rfl, rfl⟩) ℓ w
  | afterThrowing advice =>
    refine hproceed.andThen fun outcome => ?_
    cases outcome with
    | ok returned => exact Story.keeps_silent fun _ => ⟨rfl, rfl⟩
    | error failure =>
      refine Keeps.andThen (Story.keeps_aside (fun _ h => h.above) (World.sameThreads_consult _))
        fun handled => ?_
      cases handled with
      | false => exact Story.keeps_silent fun _ => ⟨rfl, rfl⟩
      | true =>
        intro ℓ w
        let report : Run σ Unit := Run.report (.handlingFailure (w.invocation r).call failure)
        have hreport : Keeps (Above base waiting) (Stands base waiting held) (.aside report) report :=
          Story.keeps_aside (fun _ h => h.above) fun _ => ⟨rfl, rfl⟩
        have hadvice : Keeps (Above base waiting) (Stands base waiting held)
            ((advice.afterThrowing r failure).callback directory engine told)
            (((advice.afterThrowing r failure).run directory engine).andThen fun result =>
              Run.finish (result.bind fun () => (.error failure : Outcome))) :=
          ((advice.afterThrowing r failure).keeps_callback h).map fun _ _ => ⟨rfl, rfl⟩
        exact hreport.andThen (fun _ => hadvice) ℓ w
  | instrumented label =>
    refine hproceed.andThen fun outcome ℓ w => ?_
    cases outcome <;> exact Story.keeps_aside (fun _ h => h.above) (fun _ => ⟨rfl, rfl⟩) ℓ w
  | exposing => exact Keeps.publishing (h (.proceed r))

theorem Stop.keeps_story (h : engine.Balanced told) (r : Ref) (stop : Stop σ) :
    Keeps (Above base waiting) (Stands base waiting held) (stop.story directory engine told r)
      (stop.run directory engine r) := by
  cases stop with
  | entered position current behaviour => exact behaviour.keeps_story h r
  | reached =>
    intro ℓ w
    let i := w.invocation r
    exact ((i.target i.this i.method i.arguments).keeps_callback h).map (fun _ _ => ⟨rfl, rfl⟩) ℓ w
  | unwound panic => exact Story.keeps_silent fun _ => ⟨rfl, rfl⟩

theorem Story.keeps_proceed (h : engine.Balanced told) (r : Ref) :
    Keeps (Above base waiting) (Stands base waiting held) (Story.proceed directory engine told r)
      (engine.proceed directory r) := by
  intro ℓ w hfits hstands ℓ' hnext
  cases hnext
  obtain ⟨hbindings, hwaiting⟩ := w.sameThreads_advance r
  have hthen : ℓ.Fits (w.advance r).2.2 := hfits.of_eq hbindings hwaiting
  rw [Engine.proceed_eq]
  exact ⟨⟨hthen, hstands.above⟩, (w.advance r).2.1.keeps_story h r ℓ _ hthen hstands⟩

theorem Story.keeps_call (h : engine.Balanced told) (proxy : Proxy σ) (request : Request)
    (target : Target σ) :
    Keeps (Above base waiting) (Stands base waiting held)
      (Story.call directory engine told proxy request target)
      (engine.call directory proxy request target) := by
  intro ℓ w hfits hstands
  have hconsult : w.SameThreads
      (w.consult (proxy.chainFor request.method request.targetClass)).2 := ⟨rfl, rfl⟩
  rw [Engine.call, Run.inquire_eq]
  simp only [Story.call]
  rcases hresolved : w.consult (proxy.chainFor request.method request.targetClass) with ⟨resolved, v⟩
  rw [hresolved] at hconsult
  intro ℓ' hnext
  cases hnext
  have hthen : ℓ.Fits v := hfits.of_eq hconsult.1 hconsult.2
  refine ⟨⟨hthen, hstands.above⟩, ?_⟩
  rcases resolved with panic | e | chain
  · exact ⟨hthen, hstands⟩
  · exact ⟨hthen, hstands⟩
  · dsimp only
    cases hempty : chain.isEmpty with
    | false =>
      intro ℓ' hnext
      cases hnext
      have hstarted : ℓ.Fits (v.start request chain target).2 := hthen.of_eq rfl rfl
      exact ⟨⟨hstarted, hstands.above⟩, h _ base waiting held ℓ _ hstarted hstands⟩
    | true =>
      intro ℓ' hnext
      cases hnext
      let u := v.record [.occurrence
        (.reached none request.this request.method request.arguments v.thread v.bindings)]
      have hreached : ℓ.Fits u := hthen.of_eq rfl rfl
      have htarget : Keeps (Above base waiting) (Stands base waiting held)
          ((target request.this request.method request.arguments).callback directory engine told)
          (((target request.this request.method request.arguments).run directory engine).andThen
            fun result => Run.finish (result.mapError .target : Outcome)) :=
        (Program.keeps_callback h _).map fun _ _ => ⟨rfl, rfl⟩
      exact ⟨⟨hreached, hstands.above⟩, htarget ℓ u hreached hstands⟩

/-- Whatever is asked for, with calls nested to whatever depth, leaves the ledger as it was. -/
theorem Engine.balanced_ofDepth (directory : Directory σ) (depth : Nat) :
    (Engine.ofDepth directory depth).Balanced (Engine.stories directory depth) := by
  induction depth with
  | zero => exact fun _ _ _ _ => Story.keeps_silent fun _ => ⟨rfl, rfl⟩
  | succ depth ih =>
    intro a base waiting held
    cases a with
    | proceed r => exact Story.keeps_proceed ih r
    | call proxy request target => exact Story.keeps_call ih proxy request target

end Runs

/-! ### Counting -/

/-- The invocation for which a binding is made, if it is made for one. -/
def Binding.frame? (b : Binding) : Option Ref :=
  match b.owner with
  | .frame r => some r
  | .guard _ => none

/-- The guard for which a binding is made, if it is made for one. -/
def Binding.guard? (b : Binding) : Option Guard :=
  match b.owner with
  | .frame _ => none
  | .guard guard => some guard

/-- A thread on which these bindings are live shows as many, and shows none only if there are none. -/
structure Bindings.Counts (b : Bindings) (live : List Binding) : Prop where
  depth : b.depth = (live.filterMap Binding.frame?).length + (live.filterMap Binding.guard?).length
  current : b.current = .error .noJoinPoint ↔
    (live.filterMap Binding.frame?).length + (live.filterMap Binding.guard?).length = 0

theorem length_frames_guards (live : List Binding) :
    (live.filterMap Binding.frame?).length + (live.filterMap Binding.guard?).length = live.length := by
  induction live with
  | nil => rfl
  | cons b live ih =>
    obtain ⟨owner, point⟩ := b
    cases owner <;>
      simp only [List.filterMap_cons, Binding.frame?, Binding.guard?, List.length_cons] <;> omega

theorem Bindings.current_eq_error_iff (b : Bindings) : b.current = .error .noJoinPoint ↔ b.points = [] := by
  rw [← List.getLast?_eq_none_iff, current]
  cases b.points.getLast? with
  | none => exact iff_of_true rfl rfl
  | some point => exact iff_of_false nofun nofun

theorem Bindings.counts_of_points {b : Bindings} {live : List Binding}
    (h : b.points = live.map Binding.point) : b.Counts live := by
  constructor
  · rw [length_frames_guards, depth, h, List.length_map]
  · rw [length_frames_guards, current_eq_error_iff, h, List.map_eq_nil_iff, List.length_eq_zero_iff]

/-- Where a ledger fits, every thread shows what is live on it. -/
theorem Ledger.Fits.counts {ℓ : Ledger} {w : World σ} (h : ℓ.Fits w) :
    List.Forall₂ Bindings.Counts (w.bindings :: w.waiting) ℓ.pages := by
  refine .cons (Bindings.counts_of_points h.live) ?_
  have hwaiting := h.waiting
  rw [← List.forall₂_eq_eq_eq, List.forall₂_map_left_iff, List.forall₂_map_right_iff] at hwaiting
  exact hwaiting.imp fun _ _ => Bindings.counts_of_points

/-- What threads show is as deep as the ledger has bindings for them. -/
theorem Ledger.depths_of_counts {ℓ : Ledger} {threads : List Bindings}
    (h : List.Forall₂ Bindings.Counts threads ℓ.pages) :
    threads.map Bindings.depth = ℓ.owners.map List.length := by
  rw [owners, List.map_map, ← List.forall₂_eq_eq_eq, List.forall₂_map_left_iff,
    List.forall₂_map_right_iff]
  refine h.imp fun b page hcounts => ?_
  rw [hcounts.depth, length_frames_guards]
  exact (List.length_map _).symm

/-- **Bindings are balanced.** As long as guards are scoped, so that a ledger of them can be kept, every
thread shows at every moment as many bindings as invocations are published on it and guards are live,
and none of those that were live at first is removed or moved. Whatever was asked for, and however it
ended, as much is bound on every thread in the end as at first, for the same owners in the same order. -/
theorem Engine.bindings_balanced (directory : Directory σ) (depth : Nat) (a : Activation σ)
    (w : World σ) (ℓ : Ledger) (hfits : ℓ.Fits w) :
    let story := Engine.stories directory depth a w
    let w' := (Engine.ofDepth directory depth a w).2
    w.atEnd story = w' ∧
      (∀ earlier later, story = earlier ++ later →
        ∀ ℓ', ℓ.along (earlier.map Prod.fst) = some ℓ' →
          let v := w.atEnd earlier
          List.Forall₂ Bindings.Counts (v.bindings :: v.waiting) ℓ'.pages ∧
            ℓ'.Fits v ∧ Above (ℓ.live.map Binding.owner) ℓ.owners.tail ℓ') ∧
      ∀ ℓ', ℓ.along (story.map Prod.fst) = some ℓ' →
        (w'.bindings :: w'.waiting).map Bindings.depth = (w.bindings :: w.waiting).map Bindings.depth ∧
          ℓ'.Fits w' ∧ ℓ'.owners = ℓ.owners ∧ ℓ'.held = ℓ.held := by
  intro story w'
  have hstands : Stands (ℓ.live.map Binding.owner) ℓ.owners.tail ℓ.held ℓ := ⟨rfl, rfl, rfl⟩
  have hfollows : Follows (fun ℓ' v => ℓ'.Fits v ∧ Above _ _ ℓ') ℓ story fun ℓ' =>
      ℓ'.Fits w' ∧ Stands _ _ _ ℓ' :=
    Engine.balanced_ofDepth directory depth a _ _ _ ℓ w hfits hstands
  refine ⟨Engine.tells_stories directory depth a w, fun earlier later hstory ℓ' halong => ?_,
    fun ℓ' halong => ?_⟩
  · rw [hstory] at hfollows
    have hmoment := hfollows.moment ⟨hfits, hstands.above⟩ halong
    exact ⟨hmoment.1.counts, hmoment⟩
  · obtain ⟨hfits', hstands'⟩ := hfollows.along halong
    have howners : ℓ'.owners = ℓ.owners := hstands'.owners.trans hstands.owners.symm
    refine ⟨?_, hfits', howners, hstands'.held⟩
    rw [Ledger.depths_of_counts hfits'.counts, howners, Ledger.depths_of_counts hfits.counts]

/-- Holds a guard over a call that unwinds, makes another call on a thread of its own, and goes on. -/
def holding (r : Ref) : Program Unit Outcome := do
  let guard ← .perform (.bind (Invocation.start default default .empty (σ := Unit)
    fun _ _ _ => .done (.ok .unit)).joinPoint)
  let _ ← Program.catching (.invoke "inner" default fun _ _ _ => .panic "lost")
  .perform (.release guard)
  let _ ← Program.onThread (.invoke "inner" default fun _ _ _ => .done (.ok .unit))
  .proceed r

/-- A proxy that publishes its calls. -/
def publishingProxy (advisors : List (Advisor Unit)) : Proxy Unit :=
  { config := { exposeInvocation := true }, advisors }

def innerDirectory : Directory Unit := fun name =>
  if name = "inner" then some (publishingProxy []) else none

/-- A call that holds a guard over one nested call and makes another on a thread of its own. -/
def holdingCall : Activation Unit :=
  .call (publishingProxy [.unfiltered (.around ⟨some 0, .around holding⟩)]) default
    fun _ _ _ => .done (.ok .unit)

/-- For whom bindings are live after the first deeds of that call, if a ledger can be kept so far. -/
def holdingOwners (n : Nat) : Option (List (List Owner)) :=
  (({} : Ledger).along (((Engine.stories innerDirectory 9 holdingCall { state := () }).take n).map
    Prod.fst)).map Ledger.owners

theorem bindings_balanced_holding :
    let w : World Unit := { state := () }
    let story := Engine.stories innerDirectory 9 holdingCall w
    let depthsAt (n : Nat) :=
      ((w.atEnd (story.take n)).bindings :: (w.atEnd (story.take n)).waiting).map Bindings.depth
    holdingOwners 14 = some [[.frame ⟨0⟩, .guard ⟨1⟩, .frame ⟨1⟩]] ∧ depthsAt 14 = [3] ∧
      holdingOwners 24 = some [[.frame ⟨2⟩], [.frame ⟨0⟩]] ∧ depthsAt 24 = [1, 1] ∧
      holdingOwners 34 = some [[]] ∧
      ((Engine.ofDepth innerDirectory 9 holdingCall w).2.bindings ::
        (Engine.ofDepth innerDirectory 9 holdingCall w).2.waiting).map Bindings.depth = [0] := by
  intro w story depthsAt
  have hunwinding : holdingOwners 14 = some [[.frame ⟨0⟩, .guard ⟨1⟩, .frame ⟨1⟩]] := by
    decide +kernel
  have helsewhere : holdingOwners 24 = some [[.frame ⟨2⟩], [.frame ⟨0⟩]] := by decide +kernel
  have hended : holdingOwners 34 = some [[]] := by decide +kernel
  have hlength : story.length = 34 := by decide +kernel
  obtain ⟨_, hmoment, hend⟩ := Engine.bindings_balanced innerDirectory 9 holdingCall w {} ⟨rfl, rfl⟩
  have hdepths : ∀ n owners, holdingOwners n = some owners → depthsAt n = owners.map List.length := by
    intro n owners h
    obtain ⟨ℓ, halong, rfl⟩ := Option.map_eq_some_iff.mp h
    exact Ledger.depths_of_counts (hmoment _ _ (List.take_append_drop n story).symm ℓ halong).1
  refine ⟨hunwinding, hdepths 14 _ hunwinding, helsewhere, hdepths 24 _ helsewhere, hended, ?_⟩
  obtain ⟨ℓ, halong, _⟩ := Option.map_eq_some_iff.mp hended
  rw [List.take_of_length_le (Nat.le_of_eq hlength)] at halong
  exact (hend ℓ halong).1

end Interception
