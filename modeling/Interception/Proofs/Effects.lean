import Interception.Execution

/-! Runs that come to the same as a query. A query reads and changes the shared state, writes notes and
may unwind; a run settles one when it ends as the query does and leaves everything else as it was: the
invocations that were there before, and all bindings. A run that works on an invocation of its own may
besides give it other arguments, advance it, and give another picture to the slot that it remembers. -/

namespace Interception

variable {σ α β : Type}

/-- What callbacks wrote. -/
def World.notes (w : World σ) : List String := w.journal.toList.filterMap Entry.note?

/-- How a run ends that comes to the given result. -/
def Ending.of : Except Panic α → Ending α
  | .ok a => .finished a
  | .error panic => .unwinding panic

/-- What is left by a run that writes the notes and works on nothing but the invocation `own`, if any, and
the picture of it in the slot `exposed`, if any. -/
structure World.Leaves (own : Option Ref) (exposed : Option Nat) (w : World σ) (written : List String)
    (w' : World σ) : Prop where
  notes : w'.notes = w.notes ++ written
  waiting : w'.waiting = w.waiting
  depth : w'.bindings.depth = w.bindings.depth
  slots : ∀ slot, exposed ≠ some slot → w'.bindings.points[slot]? = w.bindings.points[slot]?
  size : w.invocations.size ≤ w'.invocations.size
  others : ∀ r : Ref, r.index < w.invocations.size → own ≠ some r → w'.invocation r = w.invocation r

namespace World

variable {own : Option Ref} {exposed : Option Nat} {w w' w'' : World σ} {first second : List String}

theorem Leaves.refl (own : Option Ref) (exposed : Option Nat) (w : World σ) :
    w.Leaves own exposed [] w where
  notes := (List.append_nil _).symm
  waiting := rfl
  depth := rfl
  slots _ _ := rfl
  size := Nat.le_refl _
  others _ _ _ := rfl

theorem Leaves.trans (h : w.Leaves own exposed first w') (h' : w'.Leaves own exposed second w'') :
    w.Leaves own exposed (first ++ second) w'' where
  notes := by rw [h'.notes, h.notes, List.append_assoc]
  waiting := h'.waiting.trans h.waiting
  depth := h'.depth.trans h.depth
  slots slot hslot := (h'.slots slot hslot).trans (h.slots slot hslot)
  size := Nat.le_trans h.size h'.size
  others r hr hown := (h'.others r (Nat.lt_of_lt_of_le hr h.size) hown).trans (h.others r hr hown)

/-- A run that works on no invocation leaves what one may leave that works on some. -/
theorem Leaves.weaken (h : w.Leaves none none first w') (own : Option Ref) (exposed : Option Nat) :
    w.Leaves own exposed first w' where
  notes := h.notes
  waiting := h.waiting
  depth := h.depth
  slots slot _ := h.slots slot (by simp)
  size := h.size
  others r hr _ := h.others r hr (by simp)

theorem notes_record (w : World σ) (entries : List Entry) :
    (w.record entries).notes = w.notes ++ entries.filterMap Entry.note? := by
  simp [notes, record]

theorem leaves_record (w : World σ) (own : Option Ref) (exposed : Option Nat) (entries : List Entry) :
    w.Leaves own exposed (entries.filterMap Entry.note?) (w.record entries) :=
  { Leaves.refl own exposed w with notes := w.notes_record entries }

theorem invocation_update_self {r : Ref} (hr : r.index < w.invocations.size)
    (change : Invocation σ → Invocation σ) :
    (w.update r change).invocation r = change (w.invocation r) := by
  simp [invocation, update, Array.getD_eq_getD_getElem?, Array.getElem_modify_self, hr]

theorem invocation_update_of_ne {r r' : Ref} (hne : r ≠ r') (change : Invocation σ → Invocation σ) :
    (w.update r change).invocation r' = w.invocation r' := by
  have hindex : r.index ≠ r'.index := by
    cases r
    cases r'
    simpa using hne
  simp [invocation, update, Array.getD_eq_getD_getElem?, Array.getElem?_modify, hindex]

theorem size_update (w : World σ) (r : Ref) (change : Invocation σ → Invocation σ) :
    (w.update r change).invocations.size = w.invocations.size :=
  Array.size_modify

theorem invocation_push_eq (w : World σ) (i : Invocation σ) (r : Ref) :
    (w.push i).2.invocation r = if r.index = w.invocations.size then i else w.invocation r := by
  simp only [push, invocation, Array.getD_eq_getD_getElem?, Array.getElem?_push]
  split <;> rfl

theorem invocation_push (w : World σ) (i : Invocation σ) : (w.push i).2.invocation (w.push i).1 = i :=
  (w.invocation_push_eq i _).trans (if_pos rfl)

theorem invocation_push_of_lt {r : Ref} (hr : r.index < w.invocations.size) (i : Invocation σ) :
    (w.push i).2.invocation r = w.invocation r := by
  rw [invocation_push_eq, if_neg (Nat.ne_of_lt hr)]

/-- There are no invocations beyond those made so far. -/
theorem invocation_of_ge {r : Ref} (hr : w.invocations.size ≤ r.index) : w.invocation r = default := by
  simp [invocation, Array.getD_eq_getD_getElem?, hr]

theorem leaves_update (w : World σ) (r : Ref) (exposed : Option Nat)
    (change : Invocation σ → Invocation σ) : w.Leaves (some r) exposed [] (w.update r change) :=
  { Leaves.refl (some r) exposed w with
    size := Nat.le_of_eq (w.size_update r change).symm
    others := fun r' _ hne => invocation_update_of_ne (fun h => hne (by rw [h])) change }

/-- Giving another picture to a slot, if it is in use, changes no other. -/
theorem leaves_rebind (w : World σ) (own : Option Ref) (slot : Option Nat) (point : JoinPoint)
    {entry : Entry} (hentry : entry.note? = none) :
    let bindings := match slot with
      | none => w.bindings
      | some slot => w.bindings.rebind slot point
    w.Leaves own slot [] ({ w with bindings }.record [entry]) := by
  intro bindings
  have hleaves := { w with bindings }.leaves_record own slot [entry]
  rw [List.filterMap_cons_none hentry, List.filterMap_nil] at hleaves
  cases slot with
  | none => exact { hleaves with }
  | some k =>
    exact { hleaves with
      depth := Bindings.depth_rebind k point w.bindings
      slots := fun slot hne => List.getElem?_set_ne fun h => hne (by rw [h]) }

/-- A slot that is taken on top and released again leaves the slots below as they were. -/
theorem Leaves.release_bind {r : Ref} {point : JoinPoint} {change : Invocation σ → Invocation σ}
    (h : ((w.bind (some r) point).2.update r change).Leaves (some r) (some w.bindings.depth) first w')
    (exposed : Option Nat) : w.Leaves (some r) exposed first (w'.release ⟨w.bindings.depth⟩) := by
  have hpoints : w'.bindings.points.take w.bindings.depth = w.bindings.points := by
    refine List.ext_getElem? fun slot => ?_
    rw [List.getElem?_take]
    split
    · next hlt =>
      have hne : some w.bindings.depth ≠ some slot := fun heq => Nat.ne_of_gt hlt (Option.some.inj heq)
      exact (h.slots slot hne).trans (List.getElem?_append_left hlt)
    · next hge => exact (List.getElem?_eq_none (Nat.le_of_not_lt hge)).symm
  have hbindings : (w'.release ⟨w.bindings.depth⟩).bindings = w.bindings := congrArg Bindings.mk hpoints
  have hnotes : ((w.bind (some r) point).2.update r change).notes = w.notes := by
    change (World.record _ _).notes = _
    rw [notes_record]
    exact List.append_nil _
  have hsize : ((w.bind (some r) point).2.update r change).invocations.size = w.invocations.size :=
    size_update _ r change
  constructor
  · exact hnotes ▸ h.notes
  · exact h.waiting
  · rw [hbindings]
  · intro slot _
    rw [hbindings]
  · exact hsize ▸ h.size
  · intro r' hr' hne
    have hupdate : ((w.bind (some r) point).2.update r change).invocation r' = w.invocation r' :=
      invocation_update_of_ne (fun heq => hne (by rw [heq])) change
    exact (h.others r' (hsize ▸ hr') hne).trans hupdate

end World

/-! ### Publication -/

namespace World

def publish (w : World σ) (r : Ref) : World σ :=
  (w.bind (some r) (w.invocation r).joinPoint).2.update r fun i =>
    { i with exposedAt := some w.bindings.depth }

/-- Ends a publication that was begun in the world `w`. -/
def withdraw (w : World σ) (r : Ref) (ended : Ending α × World σ) : World σ :=
  World.release
    (match ended.1 with
      | .finished _ => ended.2.update r fun i => { i with exposedAt := (w.invocation r).exposedAt }
      | _ => ended.2)
    ⟨w.bindings.depth⟩

end World

theorem Engine.expose_match (engine : Engine σ) (r : Ref) (w : World σ) :
    engine.expose r w = match engine (.proceed r) (w.publish r) with
      | (.finished outcome, v) => (.finished outcome,
          (v.update r fun j => { j with exposedAt := (w.invocation r).exposedAt }).release ⟨w.bindings.depth⟩)
      | (ending, v) => (ending, v.release ⟨w.bindings.depth⟩) := rfl

/-- Publishing is advancing between two steps, of which the second undoes the first. -/
theorem Engine.expose_eq (engine : Engine σ) (r : Ref) (w : World σ) :
    engine.expose r w =
      ((engine (.proceed r) (w.publish r)).1, w.withdraw r (engine (.proceed r) (w.publish r))) := by
  rw [expose_match, World.withdraw]
  rcases engine (.proceed r) (w.publish r) with ⟨outcome | panic | _, v⟩ <;> rfl

namespace Run

open Consultation (answer)

variable {γ δ : Type} {own : Option Ref} {exposed : Option Nat} {view : γ → α} {view' : δ → β}
  {w : World σ}

theorem andThen_finished {p : Run σ α} {k : α → Run σ β} {a : α} (h : (p w).1 = .finished a) :
    p.andThen k w = k a (p w).2 := by
  rw [andThen]
  rcases hrun : p w with ⟨ending, w'⟩
  rw [hrun] at h
  rw [show ending = .finished a from h]

theorem andThen_unwinding {p : Run σ α} {k : α → Run σ β} {panic : Panic}
    (h : (p w).1 = .unwinding panic) : p.andThen k w = (.unwinding panic, (p w).2) := by
  rw [andThen]
  rcases hrun : p w with ⟨ending, w'⟩
  rw [hrun] at h
  rw [show ending = .unwinding panic from h]

/-- From the world `w`, the run comes to the same as the query, of whose answers it gives what the view
tells, and works on nothing but `own`. -/
structure ComesTo (own : Option Ref) (exposed : Option Nat) (view : γ → α) (w : World σ) (p : Run σ α)
    (q : Query σ γ) : Prop where
  leaves : w.Leaves own exposed (q w.state).written (p w).2
  state : (p w).2.state = (q w.state).state
  ending : (p w).1 = Ending.of ((q w.state).result.map view)

theorem comesTo_answer {p : Run σ α} {c : γ} {w' : World σ} (hrun : p w = (.finished (view c), w'))
    (hleaves : w.Leaves own exposed [] w') (hstate : w'.state = w.state) :
    ComesTo own exposed view w p (answer c) := by
  constructor
  · rw [hrun]
    exact hleaves
  · rw [hrun]
    exact hstate
  · rw [hrun]
    rfl

theorem ComesTo.andThen {p : Run σ α} {q : Query σ γ} {k : α → Run σ β} {l : γ → Query σ δ}
    (hp : ComesTo own exposed view w p q)
    (hk : ∀ c, (q w.state).result = .ok c → ComesTo own exposed view' (p w).2 (k (view c)) (l c)) :
    ComesTo own exposed view' w (p.andThen k) (q.andThen l) := by
  cases hresult : (q w.state).result with
  | error panic =>
    have hending : (p w).1 = .unwinding panic := by
      rw [hp.ending, hresult]
      rfl
    have hq : q.andThen l w.state = ⟨.error panic, (q w.state).state, (q w.state).written⟩ := by
      rw [Consultation.andThen, hresult]
    constructor
    · rw [andThen_unwinding hending, hq]
      exact hp.leaves
    · rw [andThen_unwinding hending, hq]
      exact hp.state
    · rw [andThen_unwinding hending, hq]
      rfl
  | ok c =>
    have hending : (p w).1 = .finished (view c) := by
      rw [hp.ending, hresult]
      rfl
    have hq : q.andThen l w.state = ⟨(l c (q w.state).state).result, (l c (q w.state).state).state,
        (q w.state).written ++ (l c (q w.state).state).written⟩ := by
      rw [Consultation.andThen, hresult]
    have hnext := hk c hresult
    constructor
    · rw [andThen_finished hending, hq]
      exact hp.leaves.trans (hp.state ▸ hnext.leaves)
    · rw [andThen_finished hending, hq, ← hp.state]
      exact hnext.state
    · rw [andThen_finished hending, hq, ← hp.state]
      exact hnext.ending

/-- What is made of the answers may as well be told by the query. -/
theorem ComesTo.answering {p : Run σ α} {q : Query σ γ} (h : ComesTo own exposed view w p q)
    {f : γ → δ} {view' : δ → α} (hview : ∀ c, view' (f c) = view c) :
    ComesTo own exposed view' w p (q.andThen fun c => answer (f c)) := by
  cases hresult : (q w.state).result with
  | error panic =>
    have hq : q.andThen (fun c => answer (f c)) w.state =
        ⟨.error panic, (q w.state).state, (q w.state).written⟩ := by
      rw [Consultation.andThen, hresult]
    refine ⟨by rw [hq]; exact h.leaves, by rw [hq]; exact h.state, ?_⟩
    rw [hq, h.ending, hresult]
    rfl
  | ok c =>
    have hq : q.andThen (fun c => answer (f c)) w.state =
        ⟨.ok (f c), (q w.state).state, (q w.state).written⟩ := by
      rw [Consultation.andThen, hresult]
      simp [answer]
    refine ⟨by rw [hq]; exact h.leaves, by rw [hq]; exact h.state, ?_⟩
    rw [hq, h.ending, hresult]
    exact congrArg Ending.finished (hview c).symm

/-- Entries written first, if none is a note, count for nothing. -/
theorem ComesTo.of_record {p p' : Run σ α} {q : Query σ γ} {entries : List Entry}
    (h : ComesTo own exposed view (w.record entries) p' q)
    (hentries : entries.filterMap Entry.note? = []) (hrun : p w = p' (w.record entries)) :
    ComesTo own exposed view w p q := by
  have hrecord := w.leaves_record own exposed entries
  rw [hentries] at hrecord
  exact ⟨hrun ▸ hrecord.trans h.leaves, hrun ▸ h.state, hrun ▸ h.ending⟩

theorem ComesTo.weaken {p : Run σ α} {q : Query σ γ} (h : ComesTo none none view w p q) :
    ComesTo own exposed view w p q :=
  ⟨h.leaves.weaken own exposed, h.state, h.ending⟩

/-! ### Runs that work on no invocation -/

/-- In every world the run comes to the same as the query, and leaves calls and bindings as they are. -/
def Settles (p : Run σ α) (q : Query σ α) : Prop := ∀ w, ComesTo none none id w p q

theorem settles_finish (a : α) : Settles (finish a : Run σ α) (answer a) :=
  fun w => comesTo_answer rfl (.refl _ _ w) rfl

theorem Settles.andThen {p : Run σ α} {q : Query σ α} {k : α → Run σ β} {l : α → Query σ β}
    (hp : p.Settles q) (hk : ∀ a, (k a).Settles (l a)) : (p.andThen k).Settles (q.andThen l) :=
  fun w => (hp w).andThen fun a _ => hk a _

theorem notes_of_notes (notes : List String) :
    (notes.map Entry.note).filterMap Entry.note? = notes := by
  rw [List.filterMap_map]
  exact List.filterMap_some

theorem settles_consult (q : Query σ α) : Settles (consult q) q := by
  intro w
  let w' : World σ := { w with state := (q w.state).state }.record ((q w.state).written.map .note)
  have hrun : consult q w = (Ending.of ((q w.state).result.map id), w') := by
    simp only [consult, inquire, Inquiry.consult, Consultation.mapWritten]
    cases (q w.state).result <;> rfl
  have hleaves : w.Leaves none none (q w.state).written w' := by
    have h := World.leaves_record { w with state := (q w.state).state } none none
      ((q w.state).written.map .note)
    rw [notes_of_notes] at h
    exact { h with }
  constructor
  · rw [hrun]
    exact hleaves
  · rw [hrun]
    rfl
  · rw [hrun]

/-! ### Runs that work on one invocation

The query of such a run answers beside the result with the arguments that the invocation then has.
`cursor` tells where it then stands. -/

/-- Wherever `r` is the invocation `i`, the run comes to the same as the query. -/
def Acts (cursor : Nat → Prop) (r : Ref) (i : Invocation σ) (p : Run σ α)
    (q : Query σ (α × List Value)) : Prop :=
  ∀ w : World σ, r.index < w.invocations.size → w.invocation r = i →
    ComesTo (some r) i.exposedAt Prod.fst w p q ∧
      ∀ a arguments, (q w.state).result = .ok (a, arguments) →
        ∃ n, cursor n ∧ (p w).2.invocation r = { i with arguments, entered := n }

section Acts

variable {cursor cursor' : Nat → Prop} {r : Ref} {i : Invocation σ} {p : Run σ α}
  {q : Query σ (α × List Value)}

theorem Acts.weaken (h : Acts cursor r i p q) (hcursor : ∀ n, cursor n → cursor' n) :
    Acts cursor' r i p q := by
  intro w hr hi
  obtain ⟨hp, hinvocation⟩ := h w hr hi
  refine ⟨hp, fun a arguments hresult => ?_⟩
  obtain ⟨n, hn, hthen⟩ := hinvocation a arguments hresult
  exact ⟨n, hcursor n hn, hthen⟩

/-- Only what the run does where `r` is `i` counts. -/
theorem Acts.congr {p' : Run σ α} (h : Acts cursor r i p' q)
    (heq : ∀ w : World σ, w.invocation r = i → p w = p' w) : Acts cursor r i p q := by
  intro w hr hi
  obtain ⟨hp, hinvocation⟩ := h w hr hi
  have hrun := heq w hi
  exact ⟨⟨hrun ▸ hp.leaves, hrun ▸ hp.state, hrun ▸ hp.ending⟩, hrun ▸ hinvocation⟩

/-- The second part is looked at for those answers only that the first one can give. -/
theorem Acts.bind_of_result {k : α → Run σ β} {l : α × List Value → Query σ (β × List Value)}
    (hp : Acts cursor r i p q)
    (hk : ∀ s a arguments n, (q s).result = .ok (a, arguments) → cursor n →
      Acts cursor' r { i with arguments, entered := n } (k a) (l (a, arguments))) :
    Acts cursor' r i (p >>= k) (q.andThen l) := by
  intro w hr hi
  obtain ⟨hfirst, hinvocation⟩ := hp w hr hi
  -- what the second part does, from the world that the first one leaves
  have hnext : ∀ a arguments, (q w.state).result = .ok (a, arguments) →
      ∃ n, Acts cursor' r { i with arguments, entered := n } (k a) (l (a, arguments)) ∧
        r.index < (p w).2.invocations.size ∧
        (p w).2.invocation r = { i with arguments, entered := n } := by
    intro a arguments hresult
    obtain ⟨n, hn, hthen⟩ := hinvocation a arguments hresult
    exact ⟨n, hk _ a arguments n hresult hn, Nat.lt_of_lt_of_le hr hfirst.leaves.size, hthen⟩
  constructor
  · refine hfirst.andThen fun c hresult => ?_
    obtain ⟨n, hacts, hsize, hthen⟩ := hnext c.1 c.2 hresult
    exact (hacts _ hsize hthen).1
  · intro b arguments' hresult
    obtain ⟨c, hc, hb, _⟩ := Consultation.andThen_ok hresult
    obtain ⟨n, hacts, hsize, hthen⟩ := hnext c.1 c.2 hc
    have hending : (p w).1 = .finished c.1 := by
      rw [hfirst.ending, hc]
      rfl
    change ∃ n, cursor' n ∧ (p.andThen k w).2.invocation r = _
    rw [andThen_finished hending]
    rw [← hfirst.state] at hb
    exact (hacts _ hsize hthen).2 b arguments' hb

theorem Acts.bind {k : α → Run σ β} {l : α × List Value → Query σ (β × List Value)}
    (hp : Acts cursor r i p q)
    (hk : ∀ a arguments n, cursor n →
      Acts cursor' r { i with arguments, entered := n } (k a) (l (a, arguments))) :
    Acts cursor' r i (p >>= k) (q.andThen l) :=
  hp.bind_of_result fun _ a arguments n _ hn => hk a arguments n hn

/-- A first part that looks at nothing shared leaves the query of the second part. -/
theorem Acts.bind_of_answer {a : α} {arguments : List Value} {k : α → Run σ β}
    {l : Query σ (β × List Value)} (hp : Acts cursor r i p (answer (a, arguments)))
    (hk : ∀ n, cursor n → Acts cursor' r { i with arguments, entered := n } (k a) l) :
    Acts cursor' r i (p >>= k) l := by
  have h : Acts cursor' r i (p >>= k) ((answer (a, arguments)).andThen fun _ => l) := by
    refine hp.bind_of_result fun s a' arguments' n hresult hn => ?_
    cases hresult
    exact hk n hn
  rwa [Consultation.answer_andThen] at h

/-- What settles a query works on no invocation, so `r` is still `i` afterwards. -/
theorem Settles.acts {q : Query σ α} (h : p.Settles q) :
    Acts (· = i.entered) r i p (q.andThen fun a => answer (a, i.arguments)) := by
  intro w hr hi
  refine ⟨(h w).weaken.answering fun _ => rfl, fun a arguments hresult => ?_⟩
  obtain ⟨_, _, hanswer, _⟩ := Consultation.andThen_ok hresult
  cases hanswer
  refine ⟨i.entered, rfl, ?_⟩
  rw [(h w).leaves.others r hr nofun, hi]

/-- A first part that leaves the invocation as it is. -/
theorem Acts.bind_of_kept {q : Query σ α} {k : α → Run σ β} {l : α → Query σ (β × List Value)}
    (hp : Acts (· = i.entered) r i p (q.andThen fun a => answer (a, i.arguments)))
    (hk : ∀ a, Acts cursor r i (k a) (l a)) : Acts cursor r i (p >>= k) (q.andThen l) := by
  have h : Acts cursor r i (p >>= k)
      ((q.andThen fun a => answer (a, i.arguments)).andThen fun answered => l answered.1) := by
    refine hp.bind_of_result fun s a arguments n hresult hn => ?_
    obtain ⟨_, _, hanswer, _⟩ := Consultation.andThen_ok hresult
    cases hanswer
    subst hn
    exact hk a
  rw [Consultation.andThen_assoc] at h
  simpa only [Consultation.answer_andThen] using h

/-- Reading a facet of the invocation goes on with what it is. -/
theorem Acts.of_read {facet : Facet α} {k : α → Run σ β} {q : Query σ (β × List Value)}
    (h : Acts cursor r i (k (i.read facet)) q) : Acts cursor r i (read r facet >>= k) q := by
  refine h.congr fun w hw => ?_
  rw [← hw]
  rfl

theorem acts_finish (a : α) : Acts (· = i.entered) r i (finish a) (answer (a, i.arguments)) := by
  have h : Acts (· = i.entered) r i (finish a : Run σ α) _ := (settles_finish a).acts
  rwa [Consultation.answer_andThen] at h

/-- A run that does no more than to write an entry which is no note. -/
theorem acts_of_record {a : α}
    (h : ∀ w : World σ, w.invocation r = i →
      ∃ entry : Entry, entry.note? = none ∧ p w = (.finished a, w.record [entry])) :
    Acts (· = i.entered) r i p (answer (a, i.arguments)) := by
  intro w hr hi
  obtain ⟨entry, hentry, hrun⟩ := h w hi
  have hleaves := w.leaves_record (some r) i.exposedAt [entry]
  rw [List.filterMap_cons_none hentry, List.filterMap_nil] at hleaves
  refine ⟨comesTo_answer hrun hleaves rfl, fun a arguments hresult => ?_⟩
  cases hresult
  refine ⟨i.entered, rfl, ?_⟩
  rw [hrun]
  exact hi

theorem acts_report (e : Event) :
    Acts (· = i.entered) r i (report e : Run σ Unit) (answer ((), i.arguments)) :=
  acts_of_record fun _ _ => ⟨.event e, rfl, rfl⟩

theorem acts_occurrence (o : Occurrence) :
    Acts (· = i.entered) r i (record (.occurrence o) : Run σ Unit) (answer ((), i.arguments)) :=
  acts_of_record fun _ _ => ⟨.occurrence o, rfl, rfl⟩

theorem acts_enter (position : Nat) :
    Acts (· = i.entered) r i (enter r position : Run σ Unit) (answer ((), i.arguments)) :=
  acts_of_record fun w _ => ⟨.occurrence (.entered r position (w.invocation r).position
    (w.invocation r).arguments w.thread w.bindings), rfl, rfl⟩

theorem acts_step :
    Acts (· = i.entered + 1) r i (step r : Run σ Unit) (answer ((), i.arguments)) := by
  intro w hr hi
  refine ⟨comesTo_answer rfl (w.leaves_update r _ _) rfl, fun a arguments hresult => ?_⟩
  cases hresult
  refine ⟨i.entered + 1, rfl, ?_⟩
  change (w.update r _).invocation r = _
  rw [World.invocation_update_self hr, hi]

theorem acts_setArguments (arguments : List Value) :
    Acts (· = i.entered) r i (fun w => (.finished (), w.setArguments r arguments))
      (answer ((), arguments)) := by
  intro w hr hi
  let replace (j : Invocation σ) : Invocation σ := { j with arguments }
  have hthen : (w.update r replace).invocation r = { i with arguments } := by
    rw [World.invocation_update_self hr, hi]
  have hrebind : (w.update r replace).Leaves (some r) ((w.update r replace).invocation r).exposedAt []
      (w.setArguments r arguments) :=
    World.leaves_rebind _ _ _ _ rfl
  rw [hthen] at hrebind
  have hleaves : w.Leaves (some r) i.exposedAt [] (w.setArguments r arguments) :=
    (w.leaves_update r i.exposedAt replace).trans hrebind
  refine ⟨comesTo_answer rfl hleaves rfl, fun _ _ hresult => ?_⟩
  cases hresult
  exact ⟨i.entered, rfl, hthen⟩

/-- Publishing an invocation while it advances changes nothing that its query tells. -/
theorem Acts.expose {engine : Engine σ} {q : Query σ (Outcome × List Value)}
    (h : ∀ slot, Acts cursor r { i with exposedAt := some slot } (engine (.proceed r)) q) :
    Acts cursor r i (engine.expose r) q := by
  intro w hr hi
  let publish (j : Invocation σ) : Invocation σ := { j with exposedAt := some w.bindings.depth }
  let restore (j : Invocation σ) : Invocation σ := { j with exposedAt := (w.invocation r).exposedAt }
  let w₁ : World σ := w.publish r
  have hr₁ : r.index < w₁.invocations.size := Nat.lt_of_lt_of_eq hr (World.size_update _ r publish).symm
  have hi₁ : w₁.invocation r = publish i :=
    (World.invocation_update_self (w := (w.bind (some r) (w.invocation r).joinPoint).2) hr publish).trans
      (congrArg publish hi)
  obtain ⟨hcomes, hinvocation⟩ := h w.bindings.depth w₁ hr₁ hi₁
  have hleaves := hcomes.leaves.release_bind i.exposedAt
  have hending := hcomes.ending
  have hstate := hcomes.state
  have hsize := hcomes.leaves.size
  have hexpose : engine.expose r w =
      ((engine (.proceed r) w₁).1, w.withdraw r (engine (.proceed r) w₁)) := engine.expose_eq r w
  rcases hproceed : engine (.proceed r) w₁ with ⟨ending, w₂⟩
  rw [hproceed] at hinvocation hleaves hending hstate hsize hexpose
  change ending = Ending.of ((q w.state).result.map Prod.fst) at hending
  cases hresult : (q w.state).result with
  | error panic =>
    have hrun : engine.expose r w = (.unwinding panic, w₂.release ⟨w.bindings.depth⟩) := by
      rw [hexpose, hending, hresult]
      rfl
    refine ⟨⟨hrun ▸ hleaves, hrun ▸ hstate, ?_⟩, fun _ _ heq => by cases heq⟩
    rw [hrun, hresult]
    rfl
  | ok answered =>
    obtain ⟨n, hn, hthen⟩ := hinvocation answered.1 answered.2 hresult
    have hrun : engine.expose r w =
        (.finished answered.1, (w₂.release ⟨w.bindings.depth⟩).update r restore) := by
      rw [hexpose, hending, hresult]
      rfl
    have hrestored : w.Leaves (some r) i.exposedAt (q w.state).written
        ((w₂.release ⟨w.bindings.depth⟩).update r restore) := by
      have h := hleaves.trans (World.leaves_update _ r i.exposedAt restore)
      rwa [List.append_nil] at h
    refine ⟨⟨hrun ▸ hrestored, hrun ▸ hstate, ?_⟩, fun outcome arguments heq => ?_⟩
    · rw [hrun, hresult]
      rfl
    · cases heq
      refine ⟨n, hn, ?_⟩
      have hr₂ : r.index < w₂.invocations.size := Nat.lt_of_lt_of_le hr₁ hsize
      rw [hrun]
      refine (World.invocation_update_self (w := w₂.release ⟨w.bindings.depth⟩) hr₂ restore).trans ?_
      change restore (w₂.invocation r) = _
      rw [hthen]
      subst hi
      rfl

end Acts

end Run

end Interception
