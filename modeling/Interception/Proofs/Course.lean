import Interception.Proofs.Accounts
import Interception.Proofs.Steps

/-! Where a course leads. At each of its moments one thing is done to one cursor, which makes the world of
that moment out of the one before; between two such moments every invocation stays where it stands, and
the journal tells nothing of any cursor. So what a run does to cursors can be read off its course, and
is what its journal tells. -/

namespace Interception

variable {σ α β : Type}

/-! ### What the journal tells of cursors -/

/-- What an entry tells of the cursor of an invocation. -/
inductive Mark where
  | proceeding
  | matching (position : Nat) (arguments : List Value)
  | skipped (position : Nat)
  | entered (position : Nat) (current : Option Nat)
  | reached

/-- The mark that an entry is, and of which invocation. -/
def Entry.mark? : Entry → Option (Ref × Mark)
  | .occurrence (.proceeding r) => some (r, .proceeding)
  | .occurrence (.matching r position _ arguments) => some (r, .matching position arguments)
  | .occurrence (.skipped r position) => some (r, .skipped position)
  | .occurrence (.entered r position current _ _ _) => some (r, .entered position current)
  | .occurrence (.reached (some r) _ _ _ _ _) => some (r, .reached)
  | _ => none

/-- The marks of one invocation among the entries. -/
def marksOf (r : Ref) (entries : List Entry) : List Mark :=
  (entries.filterMap Entry.mark?).filterMap fun (s, mark) => if s = r then some mark else none

/-- What the journal tells of the cursor of an invocation. -/
def World.marks (w : World σ) (r : Ref) : List Mark := marksOf r w.journal.toList

/-- What the journal tells of a visit, except that the interceptor is entered. -/
def Visit.marks (v : Visit) : List Mark :=
  match v.verdict with
  | none => []
  | some (.ok false) => [.matching v.position v.arguments, .skipped v.position]
  | some _ => [.matching v.position v.arguments]

def Arrival.marks : Arrival → List Mark
  | .entered position current => [.entered position current]
  | .reached => [.reached]
  | .unwound _ => []

/-- What the journal tells of an advance. -/
def Advance.marks (a : Advance) : List Mark :=
  .proceeding :: a.visits.flatMap Visit.marks ++ a.arrival.marks

theorem marksOf_append (r : Ref) (first second : List Entry) :
    marksOf r (first ++ second) = marksOf r first ++ marksOf r second := by
  simp [marksOf, List.filterMap_append]

theorem marksOf_eq_nil (r : Ref) {entries : List Entry} (h : ∀ entry ∈ entries, entry.mark? = none) :
    marksOf r entries = [] := by
  rw [marksOf, List.filterMap_eq_nil_iff.mpr h]
  rfl

/-- Marks of the invocation `s`, as far as they are of `r`. -/
def marksFor (s r : Ref) (marks : List Mark) : List Mark := if s = r then marks else []

theorem marksFor_append (s r : Ref) (first second : List Mark) :
    marksFor s r first ++ marksFor s r second = marksFor s r (first ++ second) := by
  by_cases h : s = r <;> simp [marksFor, h]

theorem marksOf_singleton (r : Ref) {entry : Entry} {s : Ref} {mark : Mark}
    (h : entry.mark? = some (s, mark)) : marksOf r [entry] = marksFor s r [mark] := by
  rw [marksOf, List.filterMap_cons_some h, List.filterMap_nil]
  by_cases hs : s = r <;> simp [marksFor, hs]

/-- The invocation stays where it stands, but may be given other arguments, attachments, and another slot
to remember. -/
def Invocation.Stays (i j : Invocation σ) : Prop :=
  j = { i with arguments := j.arguments, attachments := j.attachments, exposedAt := j.exposedAt }

theorem Invocation.Stays.trans {i j k : Invocation σ} (h : i.Stays j) (h' : j.Stays k) : i.Stays k := by
  rw [Stays, h', h]

namespace World

theorem marks_record (w : World σ) (entries : List Entry) (r : Ref) :
    (w.record entries).marks r = w.marks r ++ marksOf r entries := by
  rw [marks, marks, ← marksOf_append, record, Array.toList_appendList]

theorem marks_record_mark (w : World σ) {entry : Entry} {s : Ref} {mark : Mark}
    (h : entry.mark? = some (s, mark)) (r : Ref) :
    (w.record [entry]).marks r = w.marks r ++ marksFor s r [mark] := by
  rw [marks_record, marksOf_singleton r h]

theorem marks_record_unmarked (w : World σ) {entries : List Entry}
    (h : ∀ entry ∈ entries, entry.mark? = none) (r : Ref) : (w.record entries).marks r = w.marks r := by
  rw [marks_record, marksOf_eq_nil r h, List.append_nil]

/-! ### Moments at which no cursor moves -/

/-- Every invocation stays where it stands, and the journal tells nothing of any cursor. -/
structure Steady (w w' : World σ) : Prop where
  size : w'.invocations.size = w.invocations.size
  invocations : ∀ r, (w.invocation r).Stays (w'.invocation r)
  marks : ∀ r, w'.marks r = w.marks r

variable {w w' w'' : World σ}

theorem steady_of_eq (hinvocations : w'.invocations = w.invocations) (hmarks : ∀ r, w'.marks r = w.marks r) :
    w.Steady w' where
  size := congrArg Array.size hinvocations
  invocations r := by
    have hr : w'.invocation r = w.invocation r := congrArg (·.getD r.index default) hinvocations
    rw [hr]
    rfl
  marks := hmarks

theorem Steady.trans (h : w.Steady w') (h' : w'.Steady w'') : w.Steady w'' where
  size := h'.size.trans h.size
  invocations r := (h.invocations r).trans (h'.invocations r)
  marks r := (h'.marks r).trans (h.marks r)

theorem steady_record (w : World σ) {entries : List Entry}
    (h : ∀ entry ∈ entries, entry.mark? = none) : w.Steady (w.record entries) :=
  steady_of_eq rfl (w.marks_record_unmarked h)

theorem steady_entry (w : World σ) {entry : Entry} (h : entry.mark? = none) :
    w.Steady (w.record [entry]) :=
  w.steady_record fun _ hentry => List.mem_singleton.mp hentry ▸ h

theorem steady_update (w : World σ) (r : Ref) {change : Invocation σ → Invocation σ}
    (h : ∀ i : Invocation σ, i.Stays (change i)) : w.Steady (w.update r change) where
  size := w.size_update r change
  invocations s := by
    by_cases hs : r = s
    · subst hs
      by_cases hr : r.index < w.invocations.size
      · rw [invocation_update_self hr]
        exact h _
      · have hout : w.invocations.size ≤ r.index := Nat.le_of_not_lt hr
        rw [invocation_of_ge hout, invocation_of_ge (w.size_update r change ▸ hout)]
        rfl
    · rw [invocation_update_of_ne hs]
      rfl
  marks _ := rfl

theorem steady_consult {γ : Type*} (w : World σ) {q : Inquiry σ γ}
    (h : Consultation.Writes (fun entry => entry.mark? = none) q) : w.Steady (w.consult q).2 :=
  (steady_of_eq rfl fun _ => rfl : w.Steady { w with state := (q w.state).state }).trans
    (steady_record _ (h w.state))

/-! ### Where courses lead -/

/-- What is done at one moment makes the second world out of the first. -/
inductive Moves : World σ → Move → World σ → Prop where
  | advanced {w : World σ} (r : Ref) :
    Moves w (.advanced r ⟨(w.advance r).1, (w.advance r).2.1.arrival⟩) (w.advance r).2.2
  | ended {w : World σ} (r : Ref) : Moves w (.ended r) w
  | forked {w : World σ} (r : Ref) :
    Moves w (.forked r (w.push (w.invocation r)).1) (w.push (w.invocation r)).2
  | started {w : World σ} (request : Request) (chain : Chain σ) (target : Target σ) :
    Moves w (.started (w.start request chain target).1) (w.start request chain target).2
  | other {w w' : World σ} (h : w.Steady w') : Moves w .other w'

/-- The moments of the course follow on one another, from the first world to the second. -/
inductive Leads : World σ → Course σ → World σ → Prop where
  | nil {w : World σ} : Leads w [] w
  | cons {w v w' : World σ} {move : Move} {course : Course σ} (first : w.Moves move v)
    (rest : v.Leads course w') : Leads w ((move, v) :: course) w'

/-- The world in which a course ends that begins in `w`. -/
def after (w : World σ) : Course σ → World σ
  | [] => w
  | (_, v) :: rest => v.after rest

variable {c d : Course σ}

theorem Leads.after (h : w.Leads c w') : w.after c = w' := by
  induction h with
  | nil => rfl
  | cons _ _ ih => exact ih

theorem Leads.append (h : w.Leads c w') (h' : w'.Leads d w'') : w.Leads (c ++ d) w'' := by
  induction h with
  | nil => exact h'
  | cons first _ ih => exact .cons first (ih h')

theorem Leads.single {move : Move} (h : w.Moves move w') : w.Leads [(move, w')] w' := .cons h .nil

theorem Leads.cut (h : w.Leads (c ++ d) w') : w.Leads c (w.after c) ∧ (w.after c).Leads d w' := by
  induction c generalizing w with
  | nil => exact ⟨.nil, h⟩
  | cons moment rest ih =>
    cases h with
    | cons first hrest =>
      obtain ⟨hthen, hlater⟩ := ih hrest
      exact ⟨.cons first hthen, hlater⟩

end World

theorem Resolution.Sound.unmarked {site : Site} {advisors : List (Advisor σ)} {entry : Entry}
    (h : Resolution.Sound site advisors entry) : entry.mark? = none := by
  cases entry with
  | note text => rfl
  | event e => rfl
  | occurrence o =>
    cases o with
    | asked => rfl
    | answered => rfl
    | _ => exact h.elim

end Interception
