import Mathlib.Data.List.Induction
import Interception.Proofs.Steps

/-! What stands in the slots of a thread. The journal records whenever a join point takes a slot and
whenever an invocation that remembers a slot has its arguments replaced. In every run, a slot in use
holds what it was given last by one of these; so the journal tells when code that is handed no
invocation sees the arguments with which the call goes on, and when the picture of another call is
overwritten. -/

namespace Interception

variable {σ α : Type}

deriving instance DecidableEq for Class, Method, JoinPoint, Bindings, Occurrence

namespace Occurrence

/-- The join point that the occurrence puts into the slot of the thread. Only a slot in use can be given
a new picture. -/
def puts? (thread slot : Nat) : Occurrence → Option JoinPoint
  | .bound t k _ point => if t = thread ∧ k = slot then some point else none
  | .replaced _ t k point before _ =>
    if t = thread ∧ k = some slot ∧ slot < before.depth then some point else none
  | _ => none

/-- The invocation, if any, and the join point for which the occurrence takes the slot of the thread. -/
def takes? (thread slot : Nat) : Occurrence → Option (Option Ref × JoinPoint)
  | .bound t k published point => if t = thread ∧ k = slot then some (published, point) else none
  | _ => none

/-- The arguments with which an interceptor or the target is run, the thread on which this happens, and
what is bound there. -/
def begins? : Occurrence → Option (List Value × Nat × Bindings)
  | .entered _ _ _ arguments thread bindings => some (arguments, thread, bindings)
  | .reached _ _ _ arguments thread bindings => some (arguments, thread, bindings)
  | _ => none

end Occurrence

/-- What the last of the entries that tell something tells. -/
def lastOf (f : Occurrence → Option α) (entries : List Entry) : Option α :=
  (entries.filterMap fun entry => entry.occurrence?.bind f).getLast?

/-- What the slot of the thread was given last. -/
def standing (thread slot : Nat) (entries : List Entry) : Option JoinPoint :=
  lastOf (Occurrence.puts? thread slot) entries

/-- For what the slot of the thread was taken last. -/
def taken (thread slot : Nat) (entries : List Entry) : Option (Option Ref × JoinPoint) :=
  lastOf (Occurrence.takes? thread slot) entries

/-- Each occurrence has the property, given what stands before it. -/
def Everywhere (P : List Entry → Occurrence → Prop) (entries : List Entry) : Prop :=
  ∀ earlier o later, entries = earlier ++ .occurrence o :: later → P earlier o

theorem lastOf_concat (f : Occurrence → Option α) (entries : List Entry) (entry : Entry) :
    lastOf f (entries ++ [entry]) = (entry.occurrence?.bind f).or (lastOf f entries) := by
  unfold lastOf
  cases h : entry.occurrence?.bind f with
  | none => simp [h]
  | some a => simp [h]

theorem everywhere_nil (P : List Entry → Occurrence → Prop) : Everywhere P [] := by
  intro earlier o later h
  exact absurd h.symm (List.append_ne_nil_of_right_ne_nil _ (List.cons_ne_nil _ _))

theorem everywhere_concat {P : List Entry → Occurrence → Prop} {entries : List Entry} {entry : Entry} :
    Everywhere P (entries ++ [entry]) ↔
      Everywhere P entries ∧ ∀ o, entry = .occurrence o → P entries o := by
  constructor
  · intro h
    refine ⟨fun earlier o later heq => ?_, fun o heq => h entries o [] (by rw [heq])⟩
    exact h earlier o (later ++ [entry]) (by rw [heq, List.append_assoc, List.cons_append])
  · rintro ⟨hentries, hlast⟩ earlier o later heq
    rcases List.eq_nil_or_concat later with rfl | ⟨later, final, rfl⟩
    · obtain ⟨rfl, hentry⟩ := List.append_inj' heq rfl
      exact hlast o (List.singleton_inj.mp hentry)
    · rw [List.concat_eq_append, ← List.cons_append, ← List.append_assoc] at heq
      exact hentries earlier o later (List.append_inj' heq rfl).1

theorem split_of_getElem? {entries : List Entry} {n : Nat} {o : Occurrence}
    (h : entries[n]?.bind Entry.occurrence? = some o) :
    entries = entries.take n ++ .occurrence o :: entries.drop (n + 1) := by
  obtain ⟨entry, hentry, ho⟩ := Option.bind_eq_some_iff.mp h
  have hoccurrence : entry = .occurrence o := by
    cases entry <;> cases ho
    rfl
  obtain ⟨hlt, hget⟩ := List.getElem?_eq_some_iff.mp hentry
  rw [← hoccurrence, ← hget, List.getElem_cons_drop, List.take_append_drop]

theorem everywhere_iff_getElem? {P : List Entry → Occurrence → Prop} {entries : List Entry} :
    Everywhere P entries ↔
      ∀ n < entries.length, ∀ o ∈ entries[n]?.bind Entry.occurrence?, P (entries.take n) o := by
  constructor
  · intro h n _ o ho
    exact h _ o _ (split_of_getElem? ho)
  · intro h earlier o later heq
    have hentry : entries[earlier.length]? = some (.occurrence o) := by
      rw [heq, List.getElem?_append_right (Nat.le_refl _), Nat.sub_self]
      rfl
    have hearlier : entries.take earlier.length = earlier := by
      rw [heq, List.take_left]
    have hP := h earlier.length (List.getElem?_eq_some_iff.mp hentry).1 o (by rw [hentry]; rfl)
    rwa [hearlier] at hP

instance {P : List Entry → Occurrence → Prop} [∀ earlier o, Decidable (P earlier o)]
    (entries : List Entry) : Decidable (Everywhere P entries) :=
  decidable_of_iff _ everywhere_iff_getElem?.symm

/-! ### Slots in use -/

/-- A slot in use holds what it was given last. -/
def Bindings.Follows (entries : List Entry) (thread : Nat) (b : Bindings) : Prop :=
  ∀ slot point, b.points[slot]? = some point → standing thread slot entries = some point

/-- The occurrence tells of bindings that follow the journal so far, and of a replacement that does no
more than rebind the slot that the invocation remembers. -/
def Occurrence.Agrees (earlier : List Entry) : Occurrence → Prop
  | .entered _ _ _ _ thread bindings => bindings.Follows earlier thread
  | .reached _ _ _ _ thread bindings => bindings.Follows earlier thread
  | .replaced _ thread none _ before after => before.Follows earlier thread ∧ after = before
  | .replaced _ thread (some slot) point before after =>
    before.Follows earlier thread ∧ after = before.rebind slot point
  | _ => True

/-- The bindings of all threads, the running one first, follow the journal. -/
def Follow (entries : List Entry) : List Bindings → Prop
  | [] => True
  | b :: waiting => b.Follows entries waiting.length ∧ Follow entries waiting

namespace World

/-- The journal tells what stands in the slots, now and at every moment before. -/
structure Tracked (w : World σ) : Prop where
  agrees : Everywhere Occurrence.Agrees w.journal.toList
  follow : Follow w.journal.toList (w.bindings :: w.waiting)

theorem toList_record (w : World σ) (entries : List Entry) :
    (w.record entries).journal.toList = w.journal.toList ++ entries := by
  simp [record]

theorem record_append (w : World σ) (first second : List Entry) :
    w.record (first ++ second) = (w.record first).record second := by
  have h : w.journal ++ (first ++ second) = w.journal ++ first ++ second :=
    Array.toList_inj.mp (by simp)
  rw [record, h]
  rfl

end World

namespace Bindings

variable {entries : List Entry} {thread : Nat} {b : Bindings}

theorem follows_empty : (empty : Bindings).Follows entries thread :=
  fun _ _ h => by cases h

/-- An entry that puts nothing into the slots of the thread leaves them as they stand. -/
theorem Follows.concat {entry : Entry} (h : b.Follows entries thread)
    (hnone : ∀ slot, entry.occurrence?.bind (Occurrence.puts? thread slot) = none) :
    b.Follows (entries ++ [entry]) thread := by
  intro slot point hpoint
  rw [standing, lastOf_concat, hnone slot, Option.none_or]
  exact h slot point hpoint

theorem Follows.release (h : b.Follows entries thread) (guard : Guard) :
    (b.release guard).Follows entries thread := by
  intro slot point hpoint
  rw [Bindings.release, List.getElem?_take] at hpoint
  split at hpoint
  · exact h slot point hpoint
  · cases hpoint

theorem Follows.bind (h : b.Follows entries thread) (published : Option Ref) (point : JoinPoint) :
    (b.bind point).2.Follows
      (entries ++ [.occurrence (.bound thread (b.bind point).1.slot published point)]) thread := by
  intro slot q hq
  rw [standing, lastOf_concat]
  simp only [Bindings.bind, depth] at hq
  by_cases hslot : b.points.length = slot
  · subst hslot
    rw [List.getElem?_concat_length] at hq
    simp [Entry.occurrence?, Occurrence.puts?, Bindings.bind, depth, Option.some.inj hq]
  · have hlt : slot < b.points.length := by
      have := (List.getElem?_eq_some_iff.mp hq).1
      simp only [List.length_append, List.length_singleton] at this
      omega
    rw [List.getElem?_append_left hlt] at hq
    have hputs : Occurrence.puts? thread slot
        (.bound thread (b.bind point).1.slot published point) = none :=
      if_neg fun hboth => hslot hboth.2
    rw [Entry.occurrence?, Option.bind_some, hputs, Option.none_or]
    exact h slot q hq

theorem Follows.rebind (h : b.Follows entries thread) (r : Ref) (k : Nat) (point : JoinPoint) :
    (b.rebind k point).Follows (entries ++
      [.occurrence (.replaced r thread (some k) point b (b.rebind k point))]) thread := by
  intro slot q hq
  change (b.points.set k point)[slot]? = some q at hq
  rw [standing, lastOf_concat, Entry.occurrence?, Option.bind_some]
  by_cases hslot : k = slot
  · subst hslot
    obtain ⟨hlt, hpoint⟩ := List.getElem?_eq_some_iff.mp hq
    rw [List.length_set] at hlt
    rw [List.getElem_set_self] at hpoint
    rw [Occurrence.puts?, if_pos ⟨rfl, rfl, hlt⟩, hpoint, Option.some_or]
  · rw [List.getElem?_set_ne hslot] at hq
    have hputs : Occurrence.puts? thread slot
        (.replaced r thread (some k) point b (b.rebind k point)) = none :=
      if_neg fun hall => hslot (Option.some.inj hall.2.1)
    rw [hputs, Option.none_or]
    exact h slot q hq

end Bindings

/-- An entry that puts nothing into slots of the threads below leaves all of them as they stand. -/
theorem Follow.concat {entries : List Entry} {entry : Entry} {frames : List Bindings}
    (h : Follow entries frames)
    (hnone : ∀ thread < frames.length, ∀ slot,
      entry.occurrence?.bind (Occurrence.puts? thread slot) = none) :
    Follow (entries ++ [entry]) frames := by
  induction frames with
  | nil => trivial
  | cons b waiting ih =>
    refine ⟨h.1.concat (hnone waiting.length (Nat.lt_succ_self _)), ih h.2 fun thread hlt => ?_⟩
    exact hnone thread (Nat.lt_succ_of_lt hlt)

namespace World

variable {w w' : World σ}

/-- Occurrences that put nothing anywhere can be recorded, if they agree with the journal. -/
theorem Tracked.record (h : w.Tracked) {entry : Entry}
    (hagrees : ∀ o, entry = .occurrence o → o.Agrees w.journal.toList)
    (hnone : ∀ thread slot, entry.occurrence?.bind (Occurrence.puts? thread slot) = none) :
    (w.record [entry]).Tracked := by
  constructor
  · rw [toList_record]
    exact everywhere_concat.mpr ⟨h.agrees, hagrees⟩
  · rw [toList_record]
    exact h.follow.concat fun thread _ slot => hnone thread slot

theorem Tracked.record_quiet (h : w.Tracked) {entries : List Entry}
    (hquiet : ∀ entry ∈ entries, entry.IsQuiet) : (w.record entries).Tracked := by
  induction entries using List.reverseRecOn with
  | nil =>
    constructor
    · rw [toList_record, List.append_nil]
      exact h.agrees
    · rw [toList_record, List.append_nil]
      exact h.follow
  | append_singleton entries entry ih =>
    have hw := ih fun e he => hquiet e (List.mem_append_left _ he)
    have hlast : entry.IsQuiet := hquiet entry (List.mem_append_right _ (List.mem_singleton.mpr rfl))
    rw [record_append]
    refine hw.record (fun o ho => ?_) fun thread slot => ?_
    · subst ho
      cases o <;> trivial
    · cases entry with
      | note text => rfl
      | event e => rfl
      | occurrence o => cases o <;> first | rfl | exact hlast.elim

/-- A join point that takes a slot of the running thread is recorded as it does. -/
theorem Tracked.bind (h : w.Tracked) (published : Option Ref) (point : JoinPoint) :
    (w.bind published point).2.Tracked := by
  constructor
  · change Everywhere _ (World.record _ _).journal.toList
    rw [toList_record]
    refine everywhere_concat.mpr ⟨h.agrees, fun o ho => ?_⟩
    cases ho
    trivial
  · change Follow (World.record _ _).journal.toList _
    rw [toList_record]
    refine ⟨h.follow.1.bind published point, h.follow.2.concat fun thread hlt slot => ?_⟩
    exact if_neg fun hboth => Nat.ne_of_gt hlt hboth.1

/-- A replacement is recorded as it rebinds the slot that the invocation remembers, if it does. -/
theorem Tracked.replace (h : w.Tracked) (r : Ref) (slot : Option Nat) (point : JoinPoint) :
    let after := match slot with
      | none => w.bindings
      | some slot => w.bindings.rebind slot point
    ({ w with bindings := after }.record
      [.occurrence (.replaced r w.thread slot point w.bindings after)]).Tracked := by
  intro after
  -- nothing is put into the slots of the threads that wait
  have hwaiting : Follow (w.journal.toList ++
      [.occurrence (.replaced r w.thread slot point w.bindings after)]) w.waiting :=
    h.follow.2.concat fun thread hlt k => if_neg fun hall => Nat.ne_of_gt hlt hall.1
  constructor
  · rw [toList_record]
    refine everywhere_concat.mpr ⟨h.agrees, fun o ho => ?_⟩
    cases ho
    cases slot with
    | none => exact ⟨h.follow.1, rfl⟩
    | some k => exact ⟨h.follow.1, rfl⟩
  · rw [toList_record]
    refine ⟨?_, hwaiting⟩
    cases slot with
    | none => exact h.follow.1.concat fun k => if_neg fun hall => nomatch hall.2.1
    | some k => exact h.follow.1.rebind r k point

/-- **What one step keeps.** -/
theorem Tracked.step (hstep : Step w w') (h : w.Tracked) : w'.Tracked := by
  cases hstep with
  | write state entries hquiet =>
    have hw : ({ w with state } : World σ).Tracked := ⟨h.agrees, h.follow⟩
    exact hw.record_quiet hquiet
  | advance r => exact ⟨h.agrees, h.follow⟩
  | enter r position =>
    refine h.record (fun o ho => ?_) fun _ _ => rfl
    cases ho
    exact h.follow.1
  | reach r =>
    refine h.record (fun o ho => ?_) fun _ _ => rfl
    cases ho
    exact h.follow.1
  | reachAtOnce this method arguments =>
    refine h.record (fun o ho => ?_) fun _ _ => rfl
    cases ho
    exact h.follow.1
  | start request chain target => exact ⟨h.agrees, h.follow⟩
  | fork r => exact ⟨h.agrees, h.follow⟩
  | replace r arguments =>
    have hw : (w.update r fun i => { i with arguments }).Tracked := ⟨h.agrees, h.follow⟩
    exact hw.replace r _ _
  | attach r key value => exact ⟨h.agrees, h.follow⟩
  | bind point => exact h.bind none point
  | publish r => exact h.bind (some r) _
  | remember r slot => exact ⟨h.agrees, h.follow⟩
  | release guard => exact ⟨h.agrees, h.follow.1.release guard, h.follow.2⟩
  | descend => exact ⟨h.agrees, Bindings.follows_empty, h.follow⟩
  | ascend =>
    refine ⟨h.agrees, ?_⟩
    have hfollow := h.follow.2
    cases hwaiting : w.waiting with
    | nil => exact ⟨Bindings.follows_empty, trivial⟩
    | cons b waiting =>
      rw [hwaiting] at hfollow
      exact hfollow

/-- **What every run keeps.** -/
theorem Reachable.tracked (h : w.Reachable) : w.Tracked :=
  h.induct (fun _ => ⟨everywhere_nil _, Bindings.follows_empty, trivial⟩) fun hstep => Tracked.step hstep

end World

/-! ### Looking up the current join point -/

section Lookup

variable {entries earlier later : List Entry} {thread : Nat} {arguments : List Value}
  {b bindings : Bindings} {o : Occurrence}

theorem Occurrence.Agrees.follows (h : o.Agrees earlier)
    (hbegins : o.begins? = some (arguments, thread, bindings)) : bindings.Follows earlier thread := by
  cases o with
  | entered => cases hbegins; exact h
  | reached => cases hbegins; exact h
  | _ => cases hbegins

/-- What is looked up is what the slot on top was given last. -/
theorem Bindings.Follows.current (h : b.Follows entries thread) (hbound : 0 < b.depth) :
    ∃ point, b.current = .ok point ∧ standing thread (b.depth - 1) entries = some point := by
  have hlast : b.points.getLast? = b.points[b.depth - 1]? := List.getLast?_eq_getElem?
  have hlt : b.depth - 1 < b.points.length := by
    have hdepth : b.depth = b.points.length := rfl
    omega
  have hpoint : b.points[b.depth - 1]? = some b.points[b.depth - 1] := List.getElem?_eq_getElem hlt
  refine ⟨b.points[b.depth - 1], ?_, h _ _ hpoint⟩
  rw [Bindings.current, hlast, hpoint]

/-- **The arguments that code without an invocation sees.** Whenever an interceptor or the target is run
on a thread on which something is bound, the current join point tells the arguments of the very
invocation that is run just in case the picture that was put last into the slot on top does: by the
binding that took it, or since then by an invocation that remembers the slot, be it the one that is run,
the one that it is a fork of, or another fork. -/
theorem World.Reachable.current_arguments_iff {w : World σ} (hw : w.Reachable)
    (hjournal : w.journal.toList = earlier ++ .occurrence o :: later)
    (hbegins : o.begins? = some (arguments, thread, bindings)) (hbound : 0 < bindings.depth) :
    (∃ point, bindings.current = .ok point ∧ point.arguments = arguments) ↔
      ∃ point, standing thread (bindings.depth - 1) earlier = some point ∧
        point.arguments = arguments := by
  have hfollows := (hw.tracked.agrees earlier o later hjournal).follows hbegins
  obtain ⟨point, hcurrent, hstanding⟩ := hfollows.current hbound
  constructor
  · rintro ⟨other, hother, harguments⟩
    rw [hcurrent] at hother
    cases hother
    exact ⟨point, hstanding, harguments⟩
  · rintro ⟨other, hother, harguments⟩
    rw [hstanding] at hother
    cases hother
    exact ⟨point, hcurrent, harguments⟩

end Lookup

/-- A proxy that publishes its calls and has one piece of around advice for all of them. -/
def publishing (body : Ref → Program σ Outcome) : Proxy σ where
  config := { exposeInvocation := true }
  advisors := [.always (.around ⟨some 0, .around body⟩)]

/-- A call with one argument of the method with the given name. -/
def requestOf (name : String) (n : Int32) : Request where
  this := .unit
  method := { declaringClass := .named "Account", name }
  arguments := [.int32 n]

/-- The picture of such a call. -/
def pictureOf (name : String) (call : Nat) (n : Int32) : JoinPoint where
  call := ⟨call⟩
  this := .unit
  method := (requestOf name n).method
  targetClass := .named "Account"
  arguments := [.int32 n]

/-- Makes calls through a proxy, one after another, to a target that does nothing. -/
def calling : List Request → Program σ Unit
  | [] => pure ()
  | request :: rest => do
    let _ ← Program.invoke "accounts" request fun _ _ _ => pure (.ok .unit)
    calling rest

/-- The world after calls through a proxy that publishes them. -/
def afterCalls (state : σ) (body : Ref → Program σ Outcome) (requests : List Request) : World σ :=
  ((calling requests).run (fun _ => some (publishing body))
    (Engine.ofDepth (fun _ => some (publishing body)) 8) { state }).2

theorem reachable_afterCalls (state : σ) (body : Ref → Program σ Outcome) (requests : List Request) :
    (afterCalls state body requests).Reachable :=
  .run (.initial state) _ _ _

/-- Advice that replaces the arguments of the invocation before it advances it. -/
def rewriting (r : Ref) : Program Unit Outcome := do
  Program.perform (.setArguments r [.int32 2])
  Program.proceed r

theorem current_arguments_rewriting :
    ∃ earlier later point, (afterCalls () rewriting [requestOf "pay" 1]).journal.toList =
        earlier ++ .occurrence (.reached (some ⟨0⟩) .unit (requestOf "pay" 1).method [.int32 2] 0
          ⟨[point]⟩) :: later ∧
      ∃ current, (Bindings.mk [point]).current = .ok current ∧ current.arguments = [.int32 2] := by
  have hreached : (afterCalls () rewriting [requestOf "pay" 1]).journal.toList[15]?.bind
      Entry.occurrence? = some (.reached (some ⟨0⟩) .unit (requestOf "pay" 1).method [.int32 2] 0
        ⟨[pictureOf "pay" 0 2]⟩) := by decide +kernel
  have hstanding : standing 0 0 ((afterCalls () rewriting [requestOf "pay" 1]).journal.toList.take 15) =
      some (pictureOf "pay" 0 2) := by decide +kernel
  have hjournal := split_of_getElem? hreached
  refine ⟨_, _, _, hjournal, ?_⟩
  exact (World.Reachable.current_arguments_iff (reachable_afterCalls _ _ _) hjournal rfl
    Nat.zero_lt_one).mpr ⟨_, hstanding, rfl⟩

/-- Advice that makes a fork with other arguments, and advances the invocation itself. -/
def forking (r : Ref) : Program Unit Outcome := do
  let _ ← Program.forkWith r [.int32 2]
  Program.proceed r

/-- A fork that is given other arguments changes what the target sees of the call, though the target is
run for the invocation that was published and is still. -/
theorem current_arguments_forking :
    ∃ (w : World Unit) (earlier later : List Entry) (r : Ref) (this : Value) (method : Method)
      (arguments : List Value) (thread : Nat) (bindings : Bindings) (published point : JoinPoint),
      w.Reachable ∧
      w.journal.toList =
        earlier ++ .occurrence (.reached (some r) this method arguments thread bindings) :: later ∧
      taken thread (bindings.depth - 1) earlier = some (some r, published) ∧
      bindings.current = .ok point ∧ point.arguments ≠ arguments := by
  have hreached : (afterCalls () forking [requestOf "pay" 1]).journal.toList[15]?.bind
      Entry.occurrence? = some (.reached (some ⟨0⟩) .unit (requestOf "pay" 1).method [.int32 1] 0
        ⟨[pictureOf "pay" 0 2]⟩) := by decide +kernel
  have htaken : taken 0 0 ((afterCalls () forking [requestOf "pay" 1]).journal.toList.take 15) =
      some (some ⟨0⟩, pictureOf "pay" 0 1) := by decide +kernel
  refine ⟨afterCalls () forking [requestOf "pay" 1], _, _, _, _, _, _, _, _, _, pictureOf "pay" 0 2,
    reachable_afterCalls _ _ _, split_of_getElem? hreached, htaken, rfl, ?_⟩
  show ([.int32 2] : List Value) ≠ [.int32 1]
  decide

/-! ### Pictures of other calls -/

namespace Occurrence

/-- The occurrence overwrites no join point but one of the same call, which was published and not bound
by hand. -/
def Spares (earlier : List Entry) : Occurrence → Prop
  | .replaced _ thread _ point before after =>
    after.depth = before.depth ∧
      ∀ slot old, before.points[slot]? = some old → after.points[slot]? ≠ some old →
        old.call = point.call ∧ ∃ r taker, taken thread slot earlier = some (some r, taker)
  | _ => True

/-- Where the occurrence gives another picture to the slot that an invocation remembers, the slot was
taken last to publish the same call. -/
def KeepsPlace (earlier : List Entry) : Occurrence → Prop
  | .replaced _ thread (some slot) point before after =>
    after.points[slot]? ≠ before.points[slot]? →
      ∃ r taker, taken thread slot earlier = some (some r, taker) ∧ taker.call = point.call
  | _ => True

instance (earlier : List Entry) : (o : Occurrence) → Decidable (o.KeepsPlace earlier)
  | .replaced _ thread (some slot) point before after => by
    refine decidable_of_iff (after.points[slot]? ≠ before.points[slot]? →
      (taken thread slot earlier).any (fun (published, taker) =>
        published.isSome && decide (taker.call = point.call)) = true) (imp_congr_right fun _ => ?_)
    rcases taken thread slot earlier with _ | ⟨_ | r, taker⟩ <;> simp
  | .replaced _ _ none _ _ _ => isTrue trivial
  | .asked _ _ => isTrue trivial
  | .answered _ _ => isTrue trivial
  | .proceeding _ => isTrue trivial
  | .matching _ _ _ _ => isTrue trivial
  | .skipped _ _ => isTrue trivial
  | .entered _ _ _ _ _ _ => isTrue trivial
  | .reached _ _ _ _ _ _ => isTrue trivial
  | .bound _ _ _ _ => isTrue trivial

end Occurrence

/-- Every slot that was given something holds a picture of the call for which it was taken last. -/
def SameCall (entries : List Entry) : Prop :=
  ∀ thread slot point, standing thread slot entries = some point →
    ∃ published taker, taken thread slot entries = some (published, taker) ∧ taker.call = point.call

section Sparing

variable {entries earlier : List Entry} {o : Occurrence}

theorem sameCall_nil : SameCall [] := by
  intro thread slot point h
  cases h

/-- An entry by which nothing is put anywhere and no slot is taken. -/
theorem SameCall.concat_of_none (h : SameCall entries) {entry : Entry}
    (hputs : ∀ thread slot, entry.occurrence?.bind (Occurrence.puts? thread slot) = none)
    (htakes : ∀ thread slot, entry.occurrence?.bind (Occurrence.takes? thread slot) = none) :
    SameCall (entries ++ [entry]) := by
  intro thread slot point hstanding
  rw [standing, lastOf_concat, hputs, Option.none_or] at hstanding
  rw [taken, lastOf_concat, htakes, Option.none_or]
  exact h thread slot point hstanding

theorem SameCall.concat_bound (h : SameCall entries) (t k : Nat) (published : Option Ref)
    (point : JoinPoint) : SameCall (entries ++ [.occurrence (.bound t k published point)]) := by
  intro thread slot q hstanding
  rw [standing, lastOf_concat, Entry.occurrence?, Option.bind_some, Occurrence.puts?] at hstanding
  rw [taken, lastOf_concat, Entry.occurrence?, Option.bind_some, Occurrence.takes?]
  by_cases hslot : t = thread ∧ k = slot
  · rw [if_pos hslot, Option.some_or] at hstanding ⊢
    cases hstanding
    exact ⟨published, point, rfl, rfl⟩
  · rw [if_neg hslot, Option.none_or] at hstanding ⊢
    exact h thread slot q hstanding

/-- A replacement that changes nothing but the picture of a slot taken for the same call. -/
theorem SameCall.concat_replaced (h : SameCall entries) {r : Ref} {t : Nat} {k : Option Nat}
    {point : JoinPoint} {before after : Bindings} (hfollows : before.Follows entries t)
    (hsame : ∀ slot old, k = some slot → before.points[slot]? = some old → old.call = point.call) :
    SameCall (entries ++ [.occurrence (.replaced r t k point before after)]) := by
  intro thread slot q hstanding
  rw [standing, lastOf_concat, Entry.occurrence?, Option.bind_some, Occurrence.puts?] at hstanding
  have htaken : taken thread slot (entries ++ [.occurrence (.replaced r t k point before after)]) =
      taken thread slot entries := by
    rw [taken, lastOf_concat]
    rfl
  rw [htaken]
  by_cases hslot : t = thread ∧ k = some slot ∧ slot < before.depth
  · obtain ⟨rfl, hk, hlt⟩ := hslot
    rw [if_pos ⟨rfl, hk, hlt⟩, Option.some_or] at hstanding
    cases hstanding
    have hold : before.points[slot]? = some before.points[slot] := List.getElem?_eq_getElem hlt
    obtain ⟨published, taker, htaker, hcall⟩ := h t slot _ (hfollows slot _ hold)
    exact ⟨published, taker, htaker, hcall.trans (hsame slot _ hk hold)⟩
  · rw [if_neg hslot, Option.none_or] at hstanding
    exact h thread slot q hstanding

theorem SameCall.concat (h : SameCall earlier) (hagrees : o.Agrees earlier)
    (hspares : o.Spares earlier) : SameCall (earlier ++ [.occurrence o]) := by
  cases o with
  | bound t k published point => exact h.concat_bound t k published point
  | replaced r t k point before after =>
    cases k with
    | none => exact h.concat_replaced hagrees.1 fun _ _ hk => nomatch hk
    | some k =>
      obtain ⟨hfollows, rfl⟩ := hagrees
      refine h.concat_replaced hfollows fun slot old hk hold => ?_
      cases hk
      by_cases hkept : (before.rebind k point).points[k]? = some old
      · have hlt := (List.getElem?_eq_some_iff.mp hold).1
        have hnew : (before.rebind k point).points[k]? = some point := List.getElem?_set_self hlt
        rw [hnew] at hkept
        rw [Option.some.inj hkept]
      · exact (hspares.2 k old hold hkept).1
  | _ => exact h.concat_of_none (fun _ _ => rfl) fun _ _ => rfl

theorem Occurrence.spares_iff_keepsPlace (hagrees : o.Agrees earlier) (hsame : SameCall earlier) :
    o.Spares earlier ↔ o.KeepsPlace earlier := by
  cases o with
  | replaced r t k point before after =>
    cases k with
    | none =>
      obtain ⟨_, rfl⟩ := hagrees
      exact iff_of_true ⟨rfl, fun _ _ hold hchanged => absurd hold hchanged⟩ trivial
    | some k =>
      obtain ⟨hfollows, rfl⟩ := hagrees
      constructor
      · rintro ⟨_, hspares⟩ hchanged
        cases hold : before.points[k]? with
        | none =>
          have hunused : (before.rebind k point).points[k]? = none := by
            rw [Bindings.rebind, List.getElem?_set_self', hold]
            rfl
          exact absurd (hunused.trans hold.symm) hchanged
        | some old =>
          rw [hold] at hchanged
          obtain ⟨hcall, publisher, taker, htaken⟩ := hspares k old hold hchanged
          obtain ⟨_, _, htaken', hcall'⟩ := hsame t k old (hfollows k old hold)
          rw [htaken] at htaken'
          cases htaken'
          exact ⟨publisher, taker, htaken, hcall'.trans hcall⟩
      · intro hkeeps
        refine ⟨Bindings.depth_rebind k point before, fun slot old hold hchanged => ?_⟩
        by_cases hslot : k = slot
        · subst hslot
          obtain ⟨publisher, taker, htaken, hcall⟩ := hkeeps (by rw [hold]; exact hchanged)
          obtain ⟨_, _, htaken', hcall'⟩ := hsame t k old (hfollows k old hold)
          rw [htaken] at htaken'
          cases htaken'
          exact ⟨hcall'.symm.trans hcall, publisher, taker, htaken⟩
        · rw [Bindings.rebind, List.getElem?_set_ne hslot] at hchanged
          exact absurd hold hchanged
  | _ => exact Iff.rfl

/-- As long as nothing foreign is overwritten, what stands in a slot is of the call that took it; so the
first picture to be overwritten that should not be is found at the first slot that was taken anew. -/
theorem everywhere_spares (hagrees : Everywhere Occurrence.Agrees entries) :
    (Everywhere Occurrence.Spares entries ↔ Everywhere Occurrence.KeepsPlace entries) ∧
      (Everywhere Occurrence.Spares entries → SameCall entries) := by
  induction entries using List.reverseRecOn with
  | nil => exact ⟨iff_of_true (everywhere_nil _) (everywhere_nil _), fun _ => sameCall_nil⟩
  | append_singleton entries entry ih =>
    obtain ⟨hagrees, hlast⟩ := everywhere_concat.mp hagrees
    obtain ⟨hiff, hsame⟩ := ih hagrees
    constructor
    · rw [everywhere_concat, everywhere_concat]
      constructor
      · rintro ⟨hspares, ho⟩
        exact ⟨hiff.mp hspares, fun o heq =>
          (Occurrence.spares_iff_keepsPlace (hlast o heq) (hsame hspares)).mp (ho o heq)⟩
      · rintro ⟨hkeeps, ho⟩
        have hspares := hiff.mpr hkeeps
        exact ⟨hspares, fun o heq =>
          (Occurrence.spares_iff_keepsPlace (hlast o heq) (hsame hspares)).mpr (ho o heq)⟩
    · intro hall
      obtain ⟨hspares, ho⟩ := everywhere_concat.mp hall
      cases entry with
      | note text => exact (hsame hspares).concat_of_none (fun _ _ => rfl) fun _ _ => rfl
      | event e => exact (hsame hspares).concat_of_none (fun _ _ => rfl) fun _ _ => rfl
      | occurrence o => exact (hsame hspares).concat (hlast o rfl) (ho o rfl)

end Sparing

/-- **Whose picture is overwritten.** Up to any moment of any run, replacements of arguments have
overwritten nothing but join points that were published for the same call if and only if each slot that
they gave another picture was last taken to publish the same call. A fork that is kept, or an invocation
whose frame was left by a panic, remembers a slot for which this need not be so. -/
theorem World.Reachable.overwrites_none_iff {w : World σ} (hw : w.Reachable) {entries : List Entry}
    (hbegin : entries <+: w.journal.toList) :
    Everywhere Occurrence.Spares entries ↔ Everywhere Occurrence.KeepsPlace entries := by
  obtain ⟨later, hlater⟩ := hbegin
  have hagrees : Everywhere Occurrence.Agrees entries := by
    intro earlier o rest heq
    refine hw.tracked.agrees earlier o (rest ++ later) ?_
    rw [← hlater, heq, List.append_assoc, List.cons_append]
  exact (everywhere_spares hagrees).1

theorem overwrites_none_rewriting :
    Everywhere Occurrence.Spares (afterCalls () rewriting [requestOf "pay" 1]).journal.toList := by
  have hkeeps : Everywhere Occurrence.KeepsPlace
      (afterCalls () rewriting [requestOf "pay" 1]).journal.toList := by decide +kernel
  exact (World.Reachable.overwrites_none_iff (reachable_afterCalls () rewriting [requestOf "pay" 1])
    List.prefix_rfl).mpr hkeeps

/-- Advice that keeps a fork of the first call and gives it other arguments in every later one. -/
def straying (r : Ref) : Program (Option Ref) Outcome := do
  match ← Program.get with
  | none => do
    let copy ← Program.fork r
    Program.modify fun _ => some copy
  | some copy => Program.perform (.setArguments copy [.int32 2])
  Program.proceed r

/-- The fork that is kept from one call overwrites the picture of another. -/
theorem overwrites_none_straying :
    ∃ w : World (Option Ref), w.Reachable ∧ ¬ Everywhere Occurrence.Spares w.journal.toList := by
  let w := afterCalls none straying [requestOf "pay" 1, requestOf "ship" 3]
  have hreplaced : w.journal.toList[27]?.bind Entry.occurrence? =
      some (.replaced ⟨1⟩ 0 (some 0) (pictureOf "pay" 0 2) ⟨[pictureOf "ship" 1 3]⟩
        ⟨[pictureOf "pay" 0 2]⟩) := by decide +kernel
  refine ⟨w, reachable_afterCalls _ _ _, fun hspares => ?_⟩
  obtain ⟨_, hold⟩ := hspares _ _ _ (split_of_getElem? hreplaced)
  have hcall := (hold 0 (pictureOf "ship" 1 3) rfl (by decide)).1
  exact absurd hcall (by decide)

end Interception
