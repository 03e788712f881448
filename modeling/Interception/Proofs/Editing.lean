import Mathlib.Data.List.Nodup
import Interception.Proxy

/-! Editing the advisors of a proxy. Four operations change the list, one advisor at a time, and each looks
at the switch, the position and the advisor before it changes anything. Over every history of such edits
the list is that of a plain list, whose elements remember by which edit they were put in; so it can be
told which advisors survive, and in which order they stand. -/

namespace Interception

universe u v

variable {σ : Type}

/-- A change that is asked for. -/
inductive Edit (σ : Type) where
  | add (advisor : Advisor σ)
  | insert (position : Nat) (advisor : Advisor σ)
  | remove (position : Nat)
  | addAdvice (advice : Advice σ)

/-- What an edit answers: the advisor that it took out, if it took one out, or why it was refused. -/
abbrev Edit.Answer (σ : Type) := Except AdvisorError (Option (Advisor σ))

namespace Proxy

/-- Carries out one edit. -/
def edit (p : Proxy σ) : Edit σ → Edit.Answer σ × Proxy σ
  | .add advisor => (p.add advisor).map (·.map fun _ => none) id
  | .insert position advisor => (p.insert position advisor).map (·.map fun _ => none) id
  | .remove position => (p.remove position).map (·.map some) id
  | .addAdvice advice => (p.addAdvice advice).map (·.map fun _ => none) id

/-- Carries out one edit after another. -/
def edits (p : Proxy σ) : List (Edit σ) → List (Edit.Answer σ) × Proxy σ
  | [] => ([], p)
  | edit :: rest =>
    let (answer, p) := p.edit edit
    let (answers, p) := p.edits rest
    (answer :: answers, p)

end Proxy

/-! ### The plain list -/

/-- An advisor in a list, with the number of the edit that put it there. -/
structure Placement (σ : Type) where
  edit : Nat
  advisor : Advisor σ

/-- What decides beside the list whether an edit is made. -/
structure EditTerms (σ : Type) where
  frozen : Bool
  supports : Advice σ → Bool

namespace EditTerms

variable (terms : EditTerms σ)

/-- Puts an advisor at a position of the list. -/
def placed (n : Nat) (position : Nat) (advisor : Advisor σ) (l : List (Placement σ)) :
    Edit.Answer σ × List (Placement σ) :=
  if terms.frozen then (.error .frozen, l)
  else if position ≤ l.length then
    if advisor.isIntroduction ∧ advisor.interfaces = [] then (.error .emptyIntroduction, l)
    else (.ok none, l.take position ++ ⟨n, advisor⟩ :: l.drop position)
  else (.error (.indexOutOfBounds position l.length), l)

/-- What the edit of the given number makes of the list. -/
def apply (n : Nat) (l : List (Placement σ)) : Edit σ → Edit.Answer σ × List (Placement σ)
  | .add advisor => terms.placed n l.length advisor l
  | .insert position advisor => terms.placed n position advisor l
  | .remove position =>
    if terms.frozen then (.error .frozen, l)
    else match l.drop position with
      | [] => (.error (.indexOutOfBounds position l.length), l)
      | first :: later => (.ok (some first.advisor), l.take position ++ later)
  | .addAdvice advice =>
    if terms.frozen then (.error .frozen, l)
    else if terms.supports advice then (.ok none, l ++ [⟨n, .always advice⟩])
    else (.error (.unknownAdvice advice.kind), l)

/-- What edits make of the list, the first of which has the given number. -/
def applyAll : Nat → List (Placement σ) → List (Edit σ) → List (Edit.Answer σ) × List (Placement σ)
  | _, l, [] => ([], l)
  | n, l, edit :: rest =>
    let (answer, l) := terms.apply n l edit
    let (answers, l) := applyAll (n + 1) l rest
    (answer :: answers, l)

end EditTerms

def Proxy.terms (p : Proxy σ) : EditTerms σ := ⟨p.config.frozen, p.registry.supports⟩

/-- The proxy has the advisors of the plain list. -/
def Proxy.Lists (p : Proxy σ) (l : List (Placement σ)) : Prop := p.advisors = l.map Placement.advisor

/-! ### One edit -/

theorem Advisor.defect?_eq (advisor : Advisor σ) :
    advisor.defect? =
      if advisor.isIntroduction ∧ advisor.interfaces = [] then some .emptyIntroduction else none := by
  cases advisor with
  | conditional pointcut advice => rfl
  | unfiltered advice => rfl
  | introduction filter advice interfaces => cases interfaces <;> rfl

theorem insertIdx_of_le {α : Type u} {l : List α} {position : Nat} (h : position ≤ l.length) (a : α) :
    l.insertIdx position a = l.take position ++ a :: l.drop position := by
  induction l generalizing position with
  | nil =>
    cases Nat.le_zero.mp h
    rfl
  | cons b l ih =>
    cases position with
    | zero => rfl
    | succ position => exact congrArg (b :: ·) (ih (Nat.le_of_succ_le_succ h))

namespace Proxy

/-- The proxy answers as the plain list does, and lists what that then holds. -/
structure Agrees {β : Type u} (p : Proxy σ) (edited : β × Proxy σ)
    (plain : β × List (Placement σ)) : Prop where
  answer : edited.1 = plain.1
  config : edited.2.config = p.config
  registry : edited.2.registry = p.registry
  lists : edited.2.Lists plain.2

variable {p : Proxy σ} {l : List (Placement σ)}

theorem Lists.length (h : p.Lists l) : p.advisors.length = l.length := by
  rw [h, List.length_map]

/-- A refused edit leaves the proxy as it was. -/
theorem Lists.refused (h : p.Lists l) (e : AdvisorError) :
    p.Agrees ((.error e : Edit.Answer σ), p) (.error e, l) :=
  ⟨rfl, rfl, rfl, h⟩

theorem insert_of_frozen (hfrozen : p.config.frozen = true) (position : Nat) (advisor : Advisor σ) :
    p.insert position advisor = (.error .frozen, p) := by
  rw [insert, insertionError?, if_pos hfrozen]

theorem insert_of_not_frozen (hfrozen : p.config.frozen = false) (position : Nat) (advisor : Advisor σ) :
    p.insert position advisor =
      if position ≤ p.advisors.length then
        if advisor.isIntroduction ∧ advisor.interfaces = [] then (.error .emptyIntroduction, p)
        else (.ok (), { p with advisors := p.advisors.insertIdx position advisor })
      else (.error (.indexOutOfBounds position p.advisors.length), p) := by
  rw [insert, insertionError?, if_neg (by rw [hfrozen]; exact Bool.false_ne_true), advisor.defect?_eq]
  by_cases hposition : position ≤ p.advisors.length
  · rw [if_neg (Nat.not_lt_of_le hposition), if_pos hposition]
    by_cases hempty : advisor.isIntroduction ∧ advisor.interfaces = []
    · rw [if_pos hempty, if_pos hempty]
    · rw [if_neg hempty, if_neg hempty]
  · rw [if_pos (Nat.lt_of_not_le hposition), if_neg hposition]

theorem not_terms_frozen (hfrozen : p.config.frozen = false) : ¬p.terms.frozen = true := fun h =>
  Bool.false_ne_true (hfrozen.symm.trans h)

theorem Lists.insert (h : p.Lists l) (n position : Nat) (advisor : Advisor σ) :
    p.Agrees (p.edit (.insert position advisor)) (p.terms.placed n position advisor l) := by
  rw [edit]
  cases hfrozen : p.config.frozen with
  | true =>
    have hterms : p.terms.frozen = true := hfrozen
    rw [insert_of_frozen hfrozen, EditTerms.placed, if_pos hterms]
    exact h.refused .frozen
  | false =>
    rw [insert_of_not_frozen hfrozen, EditTerms.placed, if_neg (not_terms_frozen hfrozen), h.length]
    split
    · next hposition =>
      split
      · exact h.refused .emptyIntroduction
      · refine ⟨rfl, rfl, rfl, ?_⟩
        change p.advisors.insertIdx position advisor = (l.take position ++ _ :: l.drop position).map _
        rw [insertIdx_of_le (h.length.symm ▸ hposition), h, List.map_append, List.map_cons, List.map_take,
          List.map_drop]
    · exact h.refused (.indexOutOfBounds position l.length)

theorem Lists.remove (h : p.Lists l) (n position : Nat) :
    p.Agrees (p.edit (.remove position)) (p.terms.apply n l (.remove position)) := by
  rw [edit, Proxy.remove, EditTerms.apply]
  cases hfrozen : p.config.frozen with
  | true =>
    have hterms : p.terms.frozen = true := hfrozen
    rw [if_pos rfl, if_pos hterms]
    exact h.refused .frozen
  | false =>
    rw [if_neg Bool.false_ne_true, if_neg (not_terms_frozen hfrozen)]
    have hfirst : p.advisors[position]? = ((l.drop position).map Placement.advisor).head? := by
      rw [h, List.map_drop, List.head?_drop]
    cases hdrop : l.drop position with
    | nil =>
      rw [hdrop] at hfirst
      rw [hfirst, h.length]
      exact h.refused (.indexOutOfBounds position l.length)
    | cons first later =>
      rw [hdrop] at hfirst
      rw [hfirst]
      refine ⟨rfl, rfl, rfl, ?_⟩
      have hlater : later = l.drop (position + 1) := by
        rw [← List.tail_drop, hdrop]
        rfl
      change p.advisors.eraseIdx position = (l.take position ++ later).map _
      rw [List.eraseIdx_eq_take_drop_succ, h, List.map_append, hlater, List.map_take, List.map_drop]

theorem Lists.addAdvice (h : p.Lists l) (n : Nat) (advice : Advice σ) :
    p.Agrees (p.edit (.addAdvice advice)) (p.terms.apply n l (.addAdvice advice)) := by
  rw [edit, Proxy.addAdvice, advisorFor, EditTerms.apply]
  cases hfrozen : p.config.frozen with
  | true =>
    have hterms : p.terms.frozen = true := hfrozen
    rw [if_pos rfl, if_pos hterms]
    exact h.refused .frozen
  | false =>
    have hterms := not_terms_frozen hfrozen
    have hsupports : p.terms.supports advice = p.registry.supports advice := rfl
    rw [if_neg Bool.false_ne_true, if_neg hterms, Registry.wrap, hsupports]
    cases p.registry.supports advice with
    | false => exact h.refused (.unknownAdvice advice.kind)
    | true =>
      have hadded := h.insert n l.length (.always advice)
      rw [EditTerms.placed, if_neg hterms, if_pos (Nat.le_refl _), if_neg (fun h => nomatch h.1),
        List.take_length, List.drop_length, ← h.length] at hadded
      exact hadded

/-- **One edit** does to the proxy what it does to the plain list. -/
theorem Lists.edit (h : p.Lists l) (n : Nat) (edit : Edit σ) :
    p.Agrees (p.edit edit) (p.terms.apply n l edit) := by
  cases edit with
  | add advisor =>
    rw [Proxy.edit, Proxy.add, EditTerms.apply, h.length]
    exact h.insert n l.length advisor
  | insert position advisor => exact h.insert n position advisor
  | remove position => exact h.remove n position
  | addAdvice advice => exact h.addAdvice n advice

end Proxy

/-! ### Histories -/

/-- An introduction stands in a list only if it introduces something. -/
def Placement.IsUsable (x : Placement σ) : Prop :=
  ¬(x.advisor.isIntroduction ∧ x.advisor.interfaces = [])

namespace EditTerms

variable {terms : EditTerms σ} {n : Nat} {l : List (Placement σ)}

/-- What one edit can do to the list: nothing, or one advisor comes in, or one goes. -/
inductive Does (terms : EditTerms σ) (n : Nat) (l : List (Placement σ)) :
    Edit.Answer σ × List (Placement σ) → Prop where
  | refuse (e : AdvisorError) : Does terms n l (.error e, l)
  | put (first later : List (Placement σ)) (advisor : Advisor σ) (hopen : terms.frozen = false)
    (hsplit : l = first ++ later) (husable : Placement.IsUsable ⟨n, advisor⟩) :
    Does terms n l (.ok none, first ++ ⟨n, advisor⟩ :: later)
  | take (first later : List (Placement σ)) (taken : Placement σ) (hopen : terms.frozen = false)
    (hsplit : l = first ++ taken :: later) :
    Does terms n l (.ok (some taken.advisor), first ++ later)

theorem does_placed (position : Nat) (advisor : Advisor σ) :
    Does terms n l (terms.placed n position advisor l) := by
  unfold placed
  split
  · exact .refuse .frozen
  · next hfrozen =>
    split
    · split
      · exact .refuse .emptyIntroduction
      · next husable =>
        exact .put _ _ advisor (Bool.eq_false_iff.mpr hfrozen) (List.take_append_drop position l).symm husable
    · exact .refuse (.indexOutOfBounds position l.length)

theorem does_apply (edit : Edit σ) : Does terms n l (terms.apply n l edit) := by
  cases edit with
  | add advisor => exact does_placed l.length advisor
  | insert position advisor => exact does_placed position advisor
  | remove position =>
    rw [apply]
    split
    · exact .refuse .frozen
    · next hfrozen =>
      have hsplit := List.take_append_drop position l
      split
      · exact .refuse (.indexOutOfBounds position l.length)
      · next first later hdrop =>
        rw [hdrop] at hsplit
        exact .take _ _ first (Bool.eq_false_iff.mpr hfrozen) hsplit.symm
  | addAdvice advice =>
    rw [apply]
    split
    · exact .refuse .frozen
    · next hfrozen =>
      split
      · exact .put l [] (.always advice) (Bool.eq_false_iff.mpr hfrozen) (List.append_nil l).symm
          fun h => nomatch h.1
      · exact .refuse (.unknownAdvice advice.kind)

/-- Every edit before the given number put in at most one advisor, which is usable, and none did while the
list was frozen. -/
structure Sound (terms : EditTerms σ) (n : Nat) (l : List (Placement σ)) : Prop where
  earlier : ∀ x ∈ l, x.edit < n
  once : (l.map Placement.edit).Nodup
  usable : ∀ x ∈ l, Placement.IsUsable x
  frozen : terms.frozen = true → l = []

theorem sound_nil (terms : EditTerms σ) : Sound terms 0 [] where
  earlier _ h := absurd h List.not_mem_nil
  once := List.nodup_nil
  usable _ h := absurd h List.not_mem_nil
  frozen _ := rfl

/-- Of a sound list any sublist is sound. -/
theorem Sound.sublist (h : Sound terms n l) {l' : List (Placement σ)} (hsub : l'.Sublist l) :
    Sound terms (n + 1) l' where
  earlier x hx := Nat.lt_succ_of_lt (h.earlier x (hsub.subset hx))
  once := h.once.sublist (hsub.map _)
  usable x hx := h.usable x (hsub.subset hx)
  frozen hfrozen := List.sublist_nil.mp (h.frozen hfrozen ▸ hsub)

/-- **What one edit keeps.** -/
theorem Sound.does (h : Sound terms n l) {made : Edit.Answer σ × List (Placement σ)}
    (hdoes : Does terms n l made) : Sound terms (n + 1) made.2 := by
  cases hdoes with
  | refuse e => exact h.sublist (List.Sublist.refl l)
  | take first later taken hopen hsplit =>
    subst hsplit
    exact h.sublist ((List.sublist_cons_self taken later).append_left first)
  | put first later advisor hopen hsplit husable =>
    subst hsplit
    have hmem : ∀ x ∈ first ++ ⟨n, advisor⟩ :: later, x = ⟨n, advisor⟩ ∨ x ∈ first ++ later := by
      intro x hx
      simpa [or_left_comm] using hx
    refine ⟨fun x hx => ?_, ?_, fun x hx => ?_, fun hfrozen => ?_⟩
    · obtain rfl | hold := hmem x hx
      · exact Nat.lt_succ_self n
      · exact Nat.lt_succ_of_lt (h.earlier x hold)
    · have hfresh : n ∉ (first ++ later).map Placement.edit := by
        intro hn
        obtain ⟨x, hx, hedit⟩ := List.mem_map.mp hn
        exact Nat.lt_irrefl n (hedit ▸ h.earlier x hx)
      rw [List.map_append, List.map_cons, List.nodup_middle, ← List.map_append]
      exact List.nodup_cons.mpr ⟨hfresh, h.once⟩
    · obtain rfl | hold := hmem x hx
      · exact husable
      · exact h.usable x hold
    · exact Bool.false_ne_true (hopen.symm.trans hfrozen) |>.elim

/-- Those that are still there after an edit stand in the order in which they stood. -/
theorem Does.survivors {made : Edit.Answer σ × List (Placement σ)} (h : Does terms n l made) :
    (made.2.filter fun x => x.edit < n).Sublist l := by
  cases h with
  | refuse e => exact List.filter_sublist
  | take first later taken hopen hsplit =>
    subst hsplit
    exact List.filter_sublist.trans ((List.sublist_cons_self taken later).append_left first)
  | put first later advisor hopen hsplit husable =>
    subst hsplit
    have hnew : ((first ++ ⟨n, advisor⟩ :: later).filter fun x => x.edit < n) =
        (first ++ later).filter fun x => x.edit < n := by
      simp
    rw [hnew]
    exact List.filter_sublist

theorem sound_applyAll (history : List (Edit σ)) :
    ∀ {n : Nat} {l : List (Placement σ)}, Sound terms n l →
      Sound terms (n + history.length) (terms.applyAll n l history).2 := by
  induction history with
  | nil => exact fun h => h
  | cons edit rest ih =>
    intro n l h
    have hrest := ih (h.does (does_apply edit))
    rw [Nat.add_assoc, Nat.add_comm 1] at hrest
    exact hrest

theorem survivors_applyAll (history : List (Edit σ)) :
    ∀ {n : Nat} {l : List (Placement σ)},
      ((terms.applyAll n l history).2.filter fun x => x.edit < n).Sublist l := by
  induction history with
  | nil => exact List.filter_sublist
  | cons edit rest ih =>
    intro n l
    have hrest := ih (n := n + 1) (l := (terms.apply n l edit).2)
    -- what was there before the first edit was there before the second one
    have hlater : ∀ l' : List (Placement σ), (l'.filter fun x => x.edit < n) =
        (l'.filter fun x => x.edit < n + 1).filter fun x => x.edit < n := by
      intro l'
      rw [List.filter_filter]
      refine List.filter_congr fun x _ => ?_
      by_cases hx : x.edit < n
      · simp [hx, Nat.lt_succ_of_lt hx]
      · simp [hx]
    change ((terms.applyAll (n + 1) (terms.apply n l edit).2 rest).2.filter _).Sublist l
    rw [hlater]
    exact (hrest.filter _).trans (does_apply edit).survivors

theorem applyAll_append (later : List (Edit σ)) (earlier : List (Edit σ)) :
    ∀ (n : Nat) (l : List (Placement σ)), (terms.applyAll n l (earlier ++ later)).2 =
      (terms.applyAll (n + earlier.length) (terms.applyAll n l earlier).2 later).2 := by
  induction earlier with
  | nil => exact fun _ _ => rfl
  | cons edit rest ih =>
    intro n l
    have hrest := ih (n + 1) (terms.apply n l edit).2
    rw [Nat.add_assoc, Nat.add_comm 1] at hrest
    exact hrest

end EditTerms

/-- Edits do to a proxy what they do to the plain list. -/
theorem Proxy.Lists.edits (history : List (Edit σ)) :
    ∀ {p : Proxy σ} {l : List (Placement σ)}, p.Lists l → ∀ n,
      p.Agrees (p.edits history) (p.terms.applyAll n l history) := by
  induction history with
  | nil => exact fun h _ => ⟨rfl, rfl, rfl, h⟩
  | cons edit rest ih =>
    intro p l h n
    have hfirst := h.edit n edit
    have hrest := ih hfirst.lists (n + 1)
    have hterms : (p.edit edit).2.terms = p.terms := by
      rw [terms, terms, hfirst.config, hfirst.registry]
    rw [hterms] at hrest
    exact ⟨congrArg₂ List.cons hfirst.answer hrest.answer, hrest.config.trans hfirst.config,
      hrest.registry.trans hfirst.registry, hrest.lists⟩

namespace Proxy

variable {p : Proxy σ} {e : AdvisorError}

/-! ### Refusals -/

theorem insert_refused {position : Nat} {advisor : Advisor σ}
    (h : (p.insert position advisor).1 = .error e) : (p.insert position advisor).2 = p := by
  unfold insert at h ⊢
  cases herror : p.insertionError? position advisor with
  | some e' => rfl
  | none =>
    rw [herror] at h
    cases h

theorem addAdvice_refused {advice : Advice σ} (h : (p.addAdvice advice).1 = .error e) :
    (p.addAdvice advice).2 = p := by
  unfold addAdvice at h ⊢
  cases hadvisor : p.advisorFor advice with
  | error e' => rfl
  | ok advisor =>
    rw [hadvisor] at h
    exact insert_refused h

theorem remove_refused {position : Nat} (h : (p.remove position).1 = .error e) :
    (p.remove position).2 = p := by
  unfold remove at h ⊢
  by_cases hfrozen : p.config.frozen = true
  · rw [if_pos hfrozen]
  · rw [if_neg hfrozen] at h ⊢
    cases hposition : p.advisors[position]? with
    | none => rfl
    | some advisor =>
      rw [hposition] at h
      cases h

theorem eq_error_of_map {α : Type u} {β : Type v} {answer : Except AdvisorError α} {f : α → β}
    (h : answer.map f = .error e) : answer = .error e := by
  cases answer with
  | error e' => exact congrArg _ (Except.error.inj h)
  | ok a => cases h

theorem edit_refused (p : Proxy σ) (edit : Edit σ) (h : (p.edit edit).1 = .error e) :
    (p.edit edit).2 = p := by
  cases edit with
  | add advisor => exact insert_refused (eq_error_of_map h)
  | insert position advisor => exact insert_refused (eq_error_of_map h)
  | remove position => exact remove_refused (eq_error_of_map h)
  | addAdvice advice => exact addAdvice_refused (eq_error_of_map h)

end Proxy

/-- **The advisors of a proxy are those of a plain list**, over every history of edits that begins with an
empty list, and every edit is answered as the plain list answers it. One that is refused changes
nothing. What an earlier part of the history left and a later part did not take out stands in the order
in which it stood; introductions in the list introduce something; and a frozen proxy stays empty. -/
theorem Proxy.edits_eq_applyAll (config : ProxyConfig) (registry : Registry σ)
    (earlier later : List (Edit σ)) :
    let terms : EditTerms σ := ⟨config.frozen, registry.supports⟩
    let p := Proxy.edits { config, registry } (earlier ++ later)
    let l := terms.applyAll 0 [] (earlier ++ later)
    (p.1 = l.1 ∧ p.2.advisors = l.2.map Placement.advisor) ∧
      (∀ edit e, (p.2.edit edit).1 = .error e → (p.2.edit edit).2 = p.2) ∧
      ((l.2.map Placement.edit).Nodup ∧
        (l.2.filter fun x => x.edit < earlier.length).Sublist (terms.applyAll 0 [] earlier).2) ∧
      (∀ advisor ∈ p.2.advisors, ¬(advisor.isIntroduction ∧ advisor.interfaces = [])) ∧
      (config.frozen = true → p.2.advisors = []) := by
  intro terms p l
  have hlists : p.2.advisors = l.2.map Placement.advisor ∧ p.1 = l.1 := by
    have hempty : Proxy.Lists ({ config, registry } : Proxy σ) [] := rfl
    have hagrees := Proxy.Lists.edits (earlier ++ later) hempty 0
    exact ⟨hagrees.lists, hagrees.answer⟩
  have hsound : EditTerms.Sound terms _ l.2 :=
    EditTerms.sound_applyAll (earlier ++ later) (EditTerms.sound_nil terms)
  refine ⟨⟨hlists.2, hlists.1⟩, fun edit e => p.2.edit_refused edit, ⟨hsound.once, ?_⟩, ?_, ?_⟩
  · have hsurvivors : ((terms.applyAll (0 + earlier.length) (terms.applyAll 0 [] earlier).2 later).2.filter
        fun x => x.edit < 0 + earlier.length).Sublist (terms.applyAll 0 [] earlier).2 :=
      EditTerms.survivors_applyAll later
    rw [← EditTerms.applyAll_append, Nat.zero_add] at hsurvivors
    exact hsurvivors
  · intro advisor hadvisor
    rw [hlists.1] at hadvisor
    obtain ⟨x, hx, rfl⟩ := List.mem_map.mp hadvisor
    exact hsound.usable x hx
  · intro hfrozen
    rw [hlists.1, hsound.frozen hfrozen]
    rfl

/-- Edits of which each meets another check, or none. -/
def rearranging : List (Edit Unit) :=
  let proceeding : Advice Unit := .around ⟨some 0, .around Program.proceed⟩
  [.add (.introduction .any proceeding []),
   .addAdvice (.before fun _ _ _ => pure (.ok ())),
   .addAdvice (.extension "audit" .unit),
   .insert 2 (.introduction .any proceeding []),
   .insert 0 (.introduction .any proceeding ["Lockable"]),
   .remove 1,
   .remove 1]

example :
    let p := Proxy.edits { config := {} } rearranging
    (p.1.map fun | .error e => some e | .ok _ => none) =
      [some .emptyIntroduction, none, some (.unknownAdvice "audit"), some (.indexOutOfBounds 2 1), none,
        none, some (.indexOutOfBounds 1 1)] ∧
      p.2.advisors.map Advisor.interfaces = [["Lockable"]] := by
  exact ⟨rfl, rfl⟩

end Interception
