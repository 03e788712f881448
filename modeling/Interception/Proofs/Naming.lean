import Interception.Proofs.Blindness

/-! Names. Callbacks know invocations and calls by identities, which serve to tell them apart and for nothing
else. Where two runs do the same, but one of them starts invocations that the other one has no use for,
what is the same in both goes by different identities. A naming says which identities belong together.
It grows while the runs go on, and programs are alike when from identities that belong together they come
to results that belong together, under whatever names there are by then. -/

namespace Interception

universe u

variable {σ : Type}

/-- An invocation of one run as it is found in the other one. -/
structure Counterpart where
  ref : Ref
  /-- How many publishing links stand in front of its chain there, beside those that it has here. -/
  shift : Nat

/-- Which identities of two runs belong together. -/
structure Naming where
  /-- The counterparts of the invocations made so far, in order. -/
  invocations : List Counterpart
  /-- The identities that the calls made so far have in the other run, in order. -/
  calls : List CallId
  /-- The invocations of the other run that belong to calls which need none in this one. -/
  idle : List Ref
  distinct : (invocations.map Counterpart.ref ++ idle).Nodup
  calls_distinct : calls.Nodup

namespace Naming

/-- An invocation and its counterpart. -/
def Names (N : Naming) (r : Ref) (c : Counterpart) : Prop := N.invocations[r.index]? = some c

/-- Two references to one invocation. -/
def SameRef (N : Naming) (r r' : Ref) : Prop := ∃ shift, N.Names r ⟨r', shift⟩

/-- The identities of one call. -/
def SameCall (N : Naming) (c c' : CallId) : Prop := N.calls[c.number]? = some c'

/-- Two pictures that differ in the identity of the call alone. -/
def SamePoint (N : Naming) (p p' : JoinPoint) : Prop :=
  N.SameCall p.call p'.call ∧ p' = { p with call := p'.call }

/-- More names. Those that were given stay. -/
instance : LE Naming where
  le N N' := N.invocations <+: N'.invocations ∧ N.calls <+: N'.calls ∧ N.idle <+: N'.idle

variable {N N' N'' : Naming} {r s r' s' : Ref} {c d : Counterpart}

theorem le_refl (N : Naming) : N ≤ N := ⟨List.prefix_rfl, List.prefix_rfl, List.prefix_rfl⟩

theorem le_trans (h : N ≤ N') (h' : N' ≤ N'') : N ≤ N'' :=
  ⟨h.1.trans h'.1, h.2.1.trans h'.2.1, h.2.2.trans h'.2.2⟩

theorem getElem?_of_prefix {α : Type u} {l l' : List α} (h : l <+: l') {n : Nat} {a : α}
    (ha : l[n]? = some a) : l'[n]? = some a := by
  obtain ⟨rest, rfl⟩ := h
  have hn : n < l.length := (List.getElem?_eq_some_iff.mp ha).1
  rw [List.getElem?_append_left hn, ha]

theorem Names.mono (h : N.Names r c) (hle : N ≤ N') : N'.Names r c := getElem?_of_prefix hle.1 h

theorem SameRef.mono (h : N.SameRef r r') (hle : N ≤ N') : N'.SameRef r r' :=
  h.imp fun _ hnames => hnames.mono hle

theorem SameCall.mono {c c' : CallId} (h : N.SameCall c c') (hle : N ≤ N') : N'.SameCall c c' :=
  getElem?_of_prefix hle.2.1 h

theorem Names.lt (h : N.Names r c) : r.index < N.invocations.length := (List.getElem?_eq_some_iff.mp h).1

theorem Names.mem (h : N.Names r c) : c ∈ N.invocations := List.mem_of_getElem? h

/-- An invocation has one counterpart. -/
theorem Names.unique (h : N.Names r c) (h' : N.Names r d) : c = d := Option.some.inj (h.symm.trans h')

/-- No two invocations have the same counterpart. -/
theorem Names.injective (h : N.Names r c) (h' : N.Names s d) (hsame : c.ref = d.ref) : r = s := by
  have hdistinct : (N.invocations.map Counterpart.ref).Nodup := (List.nodup_append.mp N.distinct).1
  have hr : (N.invocations.map Counterpart.ref)[r.index]? = some c.ref := by
    rw [List.getElem?_map, h, Option.map_some]
  have hs : (N.invocations.map Counterpart.ref)[s.index]? = some c.ref := by
    rw [List.getElem?_map, h', Option.map_some, hsame]
  have hindex : r.index = s.index :=
    (List.getElem?_inj (by rw [List.length_map]; exact h.lt) hdistinct).mp (hr.trans hs.symm)
  cases r
  cases s
  exact congrArg Ref.mk hindex

/-! ### Names that are new -/

/-- The invocations of the other run that are accounted for. -/
def others (N : Naming) : List Ref := N.invocations.map Counterpart.ref ++ N.idle

theorem Names.mem_others (h : N.Names r c) : c.ref ∈ N.others :=
  List.mem_append_left _ (List.mem_map_of_mem h.mem)

theorem Names.ne_idle (h : N.Names r c) (hs : s ∈ N.idle) : c.ref ≠ s :=
  (List.nodup_append.mp N.distinct).2.2 c.ref (List.mem_map_of_mem h.mem) s hs

/-- One more invocation, which the other run did not account for. -/
def named (N : Naming) (c : Counterpart) (hnew : c.ref ∉ N.others) : Naming :=
  { N with
    invocations := N.invocations ++ [c]
    distinct := by
      have hperm : (c.ref :: N.others).Perm ((N.invocations ++ [c]).map Counterpart.ref ++ N.idle) := by
        rw [List.map_append, List.append_assoc]
        exact List.perm_middle.symm
      exact hperm.nodup_iff.mp (List.nodup_cons.mpr ⟨hnew, N.distinct⟩) }

/-- One more call, under an identity that is new to the other run. -/
def called (N : Naming) (c : CallId) (hnew : c ∉ N.calls) : Naming :=
  { N with
    calls := N.calls ++ [c]
    calls_distinct := by
      have hperm : (c :: N.calls).Perm (N.calls ++ [c]) := (List.perm_append_singleton c N.calls).symm
      exact hperm.nodup_iff.mp (List.nodup_cons.mpr ⟨hnew, N.calls_distinct⟩) }

/-- One more invocation of the other run that is not needed here. -/
def idled (N : Naming) (r : Ref) (hnew : r ∉ N.others) : Naming :=
  { N with
    idle := N.idle ++ [r]
    distinct := by
      rw [← List.append_assoc]
      have hperm : (r :: N.others).Perm (N.others ++ [r]) := (List.perm_append_singleton r _).symm
      exact hperm.nodup_iff.mp (List.nodup_cons.mpr ⟨hnew, N.distinct⟩) }

theorem le_named (N : Naming) (c : Counterpart) (hnew : c.ref ∉ N.others) : N ≤ N.named c hnew :=
  ⟨List.prefix_append _ _, List.prefix_rfl, List.prefix_rfl⟩

theorem le_called (N : Naming) (c : CallId) (hnew : c ∉ N.calls) : N ≤ N.called c hnew :=
  ⟨List.prefix_rfl, List.prefix_append _ _, List.prefix_rfl⟩

theorem le_idled (N : Naming) (r : Ref) (hnew : r ∉ N.others) : N ≤ N.idled r hnew :=
  ⟨List.prefix_rfl, List.prefix_rfl, List.prefix_append _ _⟩

theorem names_named {hnew : c.ref ∉ N.others} (hr : r.index = N.invocations.length) :
    (N.named c hnew).Names r c := by
  rw [Names, named, hr, List.getElem?_concat_length]

theorem Names.of_named {hnew : c.ref ∉ N.others} (h : (N.named c hnew).Names r d) :
    N.Names r d ∨ r.index = N.invocations.length ∧ d = c := by
  rw [Names, named, List.getElem?_append] at h
  split at h
  · exact .inl h
  · have hlength := (List.getElem?_eq_some_iff.mp h).1
    rw [List.length_singleton] at hlength
    have hindex : r.index = N.invocations.length := by omega
    rw [hindex, Nat.sub_self] at h
    exact .inr ⟨hindex, (Option.some.inj h).symm⟩

theorem sameCall_called {a c : CallId} {hnew : c ∉ N.calls} (ha : a.number = N.calls.length) :
    (N.called c hnew).SameCall a c := by
  rw [SameCall, called, ha, List.getElem?_concat_length]

theorem mem_others_named {hnew : c.ref ∉ N.others} (h : r ∈ (N.named c hnew).others) :
    r ∈ N.others ∨ r = c.ref := by
  simp only [others, named, List.map_append, List.map_cons, List.map_nil, List.mem_append,
    List.mem_singleton] at h ⊢
  exact or_right_comm.mp h

theorem mem_others_idled {s : Ref} {hnew : s ∉ N.others} (h : r ∈ (N.idled s hnew).others) :
    r ∈ N.others ∨ r = s := by
  simp only [others, idled, ← List.append_assoc] at h ⊢
  exact (List.mem_append.mp h).imp_right List.mem_singleton.mp

end Naming

/-! ### Journals -/

/-- The entry tells neither what a callback wrote nor that one was run. -/
def Entry.IsBackstage : Entry → Prop
  | .event _ => True
  | .occurrence (.proceeding _) => True
  | .occurrence (.bound _ _ _ _) => True
  | .occurrence (.replaced _ _ _ _ _ _) => True
  | _ => False

/-- The entry tells of no invocation. -/
def Entry.IsNameless : Entry → Prop
  | .note _ => True
  | .event _ => True
  | .occurrence (.asked _ _) => True
  | .occurrence (.answered _ _) => True
  | _ => False

namespace Naming

/-- The target is run for the same invocation, or for none. -/
inductive SameReach (N : Naming) : Option Ref → Option Ref → Prop where
  | invocation {r r' : Ref} (h : N.SameRef r r') : SameReach N (some r) (some r')
  | atOnce : SameReach N none none
  /-- The other run has an invocation of its own for the call. -/
  | idle {r' : Ref} (h : r' ∈ N.idle) : SameReach N none (some r')

/-- Two entries that tell the same: the same note, or a predicate, an interceptor or the target run for the
same invocation with the same arguments. The links in front of a chain shift the positions behind them. -/
inductive SameEntry (N : Naming) : Entry → Entry → Prop where
  | note (text : String) : SameEntry N (.note text) (.note text)
  | asked (question : Question) (targetClass : Class) :
    SameEntry N (.occurrence (.asked question targetClass)) (.occurrence (.asked question targetClass))
  | answered (question : Question) (verdict : Bool) :
    SameEntry N (.occurrence (.answered question verdict)) (.occurrence (.answered question verdict))
  | matching {r r' : Ref} {shift : Nat} (h : N.Names r ⟨r', shift⟩) (position : Nat) (targetClass : Class)
      (arguments : List Value) :
    SameEntry N (.occurrence (.matching r position targetClass arguments))
      (.occurrence (.matching r' (position + shift) targetClass arguments))
  | skipped {r r' : Ref} {shift : Nat} (h : N.Names r ⟨r', shift⟩) (position : Nat) :
    SameEntry N (.occurrence (.skipped r position)) (.occurrence (.skipped r' (position + shift)))
  | entered {r r' : Ref} {shift : Nat} (h : N.Names r ⟨r', shift⟩) (position : Nat)
      (current current' : Option Nat) (arguments : List Value) (thread : Nat) (bindings bindings' : Bindings) :
    SameEntry N (.occurrence (.entered r position current arguments thread bindings))
      (.occurrence (.entered r' (position + shift) current' arguments thread bindings'))
  | reached {r r' : Option Ref} (h : N.SameReach r r') (this : Value) (method : Method)
      (arguments : List Value) (thread : Nat) (bindings bindings' : Bindings) :
    SameEntry N (.occurrence (.reached r this method arguments thread bindings))
      (.occurrence (.reached r' this method arguments thread bindings'))

/-- The entry tells that a link is entered which publishes the call in the other run alone. -/
def Publishes (N : Naming) : Entry → Prop
  | .occurrence (.entered r' position _ _ _ _) =>
    r' ∈ N.idle ∧ position = 0 ∨ ∃ c ∈ N.invocations, c.ref = r' ∧ position < c.shift
  | _ => False

/-- Two journals tell the same runs of callbacks, in the same order. -/
inductive Tells (N : Naming) : List Entry → List Entry → Prop where
  | nil : Tells N [] []
  | both {e e' : Entry} {es es' : List Entry} (he : N.SameEntry e e') (h : Tells N es es') :
    Tells N (e :: es) (e' :: es')
  | left {e : Entry} {es es' : List Entry} (he : e.IsBackstage) (h : Tells N es es') :
    Tells N (e :: es) es'
  | right {e' : Entry} {es es' : List Entry} (he : e'.IsBackstage ∨ N.Publishes e') (h : Tells N es es') :
    Tells N es (e' :: es')

variable {N N' : Naming} {e e' : Entry} {es es' fs fs' : List Entry}

theorem SameReach.mono {r r' : Option Ref} (h : N.SameReach r r') (hle : N ≤ N') : N'.SameReach r r' := by
  cases h with
  | invocation h => exact .invocation (h.mono hle)
  | atOnce => exact .atOnce
  | idle h => exact .idle (hle.2.2.subset h)

theorem SameEntry.mono (h : N.SameEntry e e') (hle : N ≤ N') : N'.SameEntry e e' := by
  cases h with
  | note text => exact .note text
  | asked question targetClass => exact .asked question targetClass
  | answered question verdict => exact .answered question verdict
  | matching h position targetClass arguments => exact .matching (h.mono hle) position targetClass arguments
  | skipped h position => exact .skipped (h.mono hle) position
  | entered h position current current' arguments thread bindings bindings' =>
    exact .entered (h.mono hle) position current current' arguments thread bindings bindings'
  | reached h this method arguments thread bindings bindings' =>
    exact .reached (h.mono hle) this method arguments thread bindings bindings'

theorem Publishes.mono (h : N.Publishes e) (hle : N ≤ N') : N'.Publishes e := by
  cases e with
  | note text => exact h
  | event event => exact h
  | occurrence o =>
    cases o with
    | entered r' position current arguments thread bindings =>
      obtain ⟨hidle, hfirst⟩ | ⟨c, hc, hshift⟩ := h
      · exact .inl ⟨hle.2.2.subset hidle, hfirst⟩
      · exact .inr ⟨c, hle.1.subset hc, hshift⟩
    | _ => exact h

theorem Tells.mono (h : N.Tells es es') (hle : N ≤ N') : N'.Tells es es' := by
  induction h with
  | nil => exact .nil
  | both he _ ih => exact .both (he.mono hle) ih
  | left he _ ih => exact .left he ih
  | right he _ ih => exact .right (he.imp_right (·.mono hle)) ih

theorem Tells.append (h : N.Tells es es') (h' : N.Tells fs fs') : N.Tells (es ++ fs) (es' ++ fs') := by
  induction h with
  | nil => exact h'
  | both he _ ih => exact .both he ih
  | left he _ ih => exact .left he ih
  | right he _ ih => exact .right he ih

theorem tells_left (h : ∀ e ∈ es, e.IsBackstage) : N.Tells es [] := by
  induction es with
  | nil => exact .nil
  | cons e es ih =>
    obtain ⟨he, hrest⟩ := List.forall_mem_cons.mp h
    exact .left he (ih hrest)

theorem tells_right (h : ∀ e ∈ es', e.IsBackstage) : N.Tells [] es' := by
  induction es' with
  | nil => exact .nil
  | cons e es' ih =>
    obtain ⟨he, hrest⟩ := List.forall_mem_cons.mp h
    exact .right (.inl he) (ih hrest)

/-- What tells of no invocation tells the same in both runs. -/
theorem tells_self (h : ∀ e ∈ es, e.IsNameless) : N.Tells es es := by
  induction es with
  | nil => exact .nil
  | cons e es ih =>
    obtain ⟨he, hrest⟩ := List.forall_mem_cons.mp h
    cases e with
    | note text => exact .both (.note text) (ih hrest)
    | event event => exact .left trivial (.right (.inl trivial) (ih hrest))
    | occurrence o =>
      cases o with
      | asked question targetClass => exact .both (.asked question targetClass) (ih hrest)
      | answered question verdict => exact .both (.answered question verdict) (ih hrest)
      | _ => exact he.elim

end Naming

/-! ### Programs -/

/-- When two values of the type belong together. -/
abbrev Kin (α : Type) := Naming → α → α → Prop

namespace Kin

/-- Values without identities. -/
def plain {α : Type} : Kin α := fun _ => Eq

def ref : Kin Ref := Naming.SameRef

/-- Results of which a panic may take the place. A panic carries no identity. -/
inductive caught {α : Type u} (Q : α → α → Prop) : Except Panic α → Except Panic α → Prop where
  | ok {a a' : α} (h : Q a a') : caught Q (.ok a) (.ok a')
  | error (panic : Panic) : caught Q (.error panic) (.error panic)

end Kin

/-- When two answers about a facet belong together. -/
def Facet.kin (N : Naming) : {α : Type} → Facet α → α → α → Prop
  | _, .call => N.SameCall
  | _, .joinPoint => N.SamePoint
  | _, .this => Kin.plain N
  | _, .method => Kin.plain N
  | _, .targetClass => Kin.plain N
  | _, .arguments => Kin.plain N
  | _, .attached _ => Kin.plain N
  | _, .position => Kin.plain N
  | _, .chain => Kin.plain N

/-- Two runs from states that are the same up to identities. -/
structure Comparison (σ : Type) where
  /-- The names that are given when the runs begin. -/
  base : Naming
  /-- The states that callbacks share are the same, up to identities. -/
  same : Naming → σ → σ → Prop
  mono : ∀ {N N' : Naming} {s s' : σ}, N ≤ N' → same N s s' → same N' s s'
  /-- What the journals told before the runs began. -/
  before : List Entry

section Like

variable (C : Comparison σ)

/-- The consultations come to the same from states that are the same. -/
def Consultation.Like {ω : Type} {α : Type u} (N : Naming) (Q : α → α → Prop) (q q' : Consultation σ ω α) :
    Prop :=
  ∀ s s', C.same N s s' → Kin.caught Q (q s).result (q' s').result ∧ (q' s').written = (q s).written ∧
    C.same N (q s).state (q' s').state

/-- The programs do the same, and come to results that belong together. They do with identities nothing but
what can be done with any names, look neither at positions nor at chains, and leave the bindings of their
thread alone. -/
inductive Program.Like : {α : Type} → Naming → Kin α → Program σ α → Program σ α → Prop where
  | done {α : Type} {N : Naming} {Q : Kin α} {a a' : α} (h : Q N a a') : Like N Q (.done a) (.done a')
  | andThen {α β : Type} {N : Naming} {P : Kin α} {Q : Kin β} {first first' : Program σ α}
      {next next' : α → Program σ β} (hfirst : Like N P first first')
      (hnext : ∀ N' a a', N ≤ N' → P N' a a' → Like N' Q (next a) (next' a')) :
    Like N Q (.andThen first next) (.andThen first' next')
  | consult {α : Type} {N : Naming} {Q : Kin α} {q q' : Query σ α} (h : q.Like C N (Q N) q') :
    Like N Q (.consult q) (.consult q')
  | read {α : Type} {N : Naming} {r r' : Ref} (hr : N.SameRef r r') {facet : Facet α}
      (hfacet : facet.IsBlind) :
    Like N (fun N => facet.kin N) (.perform (.read r facet)) (.perform (.read r' facet))
  | fork {N : Naming} {r r' : Ref} (hr : N.SameRef r r') :
    Like N Kin.ref (.perform (.fork r)) (.perform (.fork r'))
  | setArguments {N : Naming} {r r' : Ref} (hr : N.SameRef r r') (arguments : List Value) :
    Like N Kin.plain (.perform (.setArguments r arguments)) (.perform (.setArguments r' arguments))
  | setAttribute {N : Naming} {r r' : Ref} (hr : N.SameRef r r') (key : String) (value : Value) :
    Like N Kin.plain (.perform (.setAttribute r key value)) (.perform (.setAttribute r' key value))
  | proceed {N : Naming} {r r' : Ref} (hr : N.SameRef r r') : Like N Kin.plain (.proceed r) (.proceed r')
  | expose {N : Naming} {r r' : Ref} (hr : N.SameRef r r') : Like N Kin.plain (.expose r) (.expose r')
  | invoke {N : Naming} (name : String) (request : Request) {target target' : Target σ}
      (htarget : ∀ N' this method arguments, N ≤ N' →
        Like N' Kin.plain (target this method arguments) (target' this method arguments)) :
    Like N Kin.plain (.invoke name request target) (.invoke name request target')
  | catching {α : Type} {N : Naming} {Q : Kin α} {body body' : Program σ α} (hbody : Like N Q body body') :
    Like N (fun N => Kin.caught (Q N)) (.catching body) (.catching body')
  | onThread {α : Type} {N : Naming} {Q : Kin α} {body body' : Program σ α} (hbody : Like N Q body body') :
    Like N Q (.onThread body) (.onThread body')
  /-- Less may be asked of the results. -/
  | weaken {α : Type} {N : Naming} {P Q : Kin α} {p p' : Program σ α} (h : Like N P p p')
      (hkin : ∀ N' a a', N ≤ N' → P N' a a' → Q N' a a') : Like N Q p p'

/-- The targets do the same, whenever they are run. -/
def Target.Like (N : Naming) (target target' : Target σ) : Prop :=
  ∀ N' this method arguments, N ≤ N' →
    Program.Like C N' Kin.plain (target this method arguments) (target' this method arguments)

theorem Target.Like.mono {C : Comparison σ} {N N' : Naming} {target target' : Target σ}
    (h : Target.Like C N target target') (hle : N ≤ N') : Target.Like C N' target target' :=
  fun N'' this method arguments hle' => h N'' this method arguments (Naming.le_trans hle hle')

end Like

end Interception
