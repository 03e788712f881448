import Interception.Proofs.Keying

/-! Filters that are put together from other filters by unions and intersections, to any depth. What a
tree of them comes to is the boolean reading of its leaves; which leaves it consults, and in which
order, is seen by running it on leaves that record each time they are asked. -/

namespace Interception

open Consultation (answer andThen)

variable {σ ι : Type} {c : Class}

/-- The two ways to put filters together. -/
inductive Junction where
  | union
  | intersection

namespace Junction

/-- The verdict of one member that settles the verdict of the whole. -/
def decisive : Junction → Bool
  | union => true
  | intersection => false

/-- What the verdicts of the members come to: whether any of them accepts, or whether all do. -/
def reading : Junction → List Bool → Bool
  | union, verdicts => verdicts.any id
  | intersection, verdicts => verdicts.all id

/-- The filter over the members. -/
def filter : Junction → List (ClassFilter σ) → ClassFilter σ
  | union => .union
  | intersection => .intersection

/-- Nobody has decided yet when the members are used up. -/
theorem reading_nil (k : Junction) : k.reading [] = !k.decisive := by cases k <;> rfl

theorem reading_cons (k : Junction) (verdict : Bool) (rest : List Bool) :
    k.reading (verdict :: rest) = if verdict = k.decisive then k.decisive else k.reading rest := by
  cases k <;> cases verdict <;> rfl

theorem accepts_nil (k : Junction) :
    (k.filter [] : ClassFilter σ).accepts c = answer (!k.decisive) := by
  cases k with
  | union =>
    change (ClassFilter.union []).accepts c = _
    rw [ClassFilter.accepts, ClassFilter.anyAccepts]
    rfl
  | intersection =>
    change (ClassFilter.intersection []).accepts c = _
    rw [ClassFilter.accepts, ClassFilter.allAccept]
    rfl

theorem accepts_cons (k : Junction) (member : ClassFilter σ) (rest : List (ClassFilter σ)) :
    (k.filter (member :: rest)).accepts c = (member.accepts c).andThen fun verdict =>
      if verdict = k.decisive then answer k.decisive else (k.filter rest).accepts c := by
  cases k with
  | union =>
    change (ClassFilter.union (member :: rest)).accepts c = _
    rw [ClassFilter.accepts, ClassFilter.anyAccepts_cons, filter, ClassFilter.accepts]
    rfl
  | intersection =>
    change (ClassFilter.intersection (member :: rest)).accepts c = _
    rw [ClassFilter.accepts, ClassFilter.allAccept_cons, filter, ClassFilter.accepts]
    congr 1
    funext verdict
    cases verdict <;> rfl

theorem accepts_append (k : Junction) (before after : List (ClassFilter σ)) :
    (k.filter (before ++ after)).accepts c = ((k.filter before).accepts c).andThen fun verdict =>
      if verdict = k.decisive then answer k.decisive else (k.filter after).accepts c := by
  induction before with
  | nil =>
    rw [accepts_nil, Consultation.answer_andThen, if_neg (by cases k <;> decide)]
    rfl
  | cons member rest ih =>
    rw [List.cons_append, accepts_cons, accepts_cons, Consultation.andThen_assoc]
    congr 1
    funext verdict
    by_cases hverdict : verdict = k.decisive
    · rw [if_pos hverdict, if_pos hverdict, Consultation.answer_andThen, if_pos rfl]
    · rw [if_neg hverdict, if_neg hverdict, ih]

/-- A junction that stands directly inside one of the same kind can be taken apart. -/
theorem accepts_splice (k : Junction) (before inner after : List (ClassFilter σ)) :
    (k.filter (before ++ k.filter inner :: after)).accepts c =
      (k.filter (before ++ inner ++ after)).accepts c := by
  rw [accepts_append, accepts_append k (before ++ inner), accepts_append k before,
    Consultation.andThen_assoc]
  congr 1
  funext verdict
  by_cases hverdict : verdict = k.decisive
  · rw [if_pos hverdict, if_pos hverdict, Consultation.answer_andThen, if_pos rfl]
  · rw [if_neg hverdict, if_neg hverdict, accepts_cons]

end Junction

/-! ### Trees -/

/-- A tree of unions and intersections, with a name at each leaf. -/
inductive Composite (ι : Type) where
  | leaf (name : ι)
  | junction (kind : Junction) (members : List (Composite ι))

namespace Composite

mutual

/-- The tree as a filter, given the filter that each name stands for. -/
def filter (leaves : ι → ClassFilter σ) : Composite ι → ClassFilter σ
  | leaf name => leaves name
  | junction k members => k.filter (filters leaves members)

def filters (leaves : ι → ClassFilter σ) : List (Composite ι) → List (ClassFilter σ)
  | [] => []
  | member :: rest => filter leaves member :: filters leaves rest

end

mutual

/-- The leaves from left to right. -/
def leaves : Composite ι → List ι
  | leaf name => [name]
  | junction _ members => leavesAmong members

def leavesAmong : List (Composite ι) → List ι
  | [] => []
  | member :: rest => leaves member ++ leavesAmong rest

end

mutual

/-- The boolean reading of the tree, given the vote of each leaf. -/
def reads (vote : ι → Bool) : Composite ι → Bool
  | leaf name => vote name
  | junction k members => k.reading (readings vote members)

def readings (vote : ι → Bool) : List (Composite ι) → List Bool
  | [] => []
  | member :: rest => reads vote member :: readings vote rest

end

mutual

/-- The leaves that have to be asked: a member of a junction has its turn only while none before it was
decisive. -/
def consults (vote : ι → Bool) : Composite ι → List ι
  | leaf name => [name]
  | junction k members => consultsAmong vote k members

def consultsAmong (vote : ι → Bool) (k : Junction) : List (Composite ι) → List ι
  | [] => []
  | member :: rest =>
    consults vote member ++
      if reads vote member = k.decisive then [] else consultsAmong vote k rest

end

theorem filters_append (leaves : ι → ClassFilter σ) (before after : List (Composite ι)) :
    filters leaves (before ++ after) = filters leaves before ++ filters leaves after := by
  induction before with
  | nil => rfl
  | cons member rest ih =>
    rw [List.cons_append, filters, ih, filters]
    rfl

end Composite

/-! ### Leaves that record that they are asked -/

/-- One question to a leaf: the class it was asked about, and its answer, unless it panicked. -/
structure Consulted (ι : Type) where
  name : ι
  targetClass : Class
  verdict : Except Panic Bool

/-- The filter, with a record of each question at the end of the state. -/
def ClassFilter.recorded (name : ι) (f : ClassFilter σ) : ClassFilter (σ × List (Consulted ι)) :=
  .predicate fun c s =>
    let reply := f.accepts c s.1
    ⟨reply.result, (reply.state, s.2 ++ [⟨name, c, reply.result⟩]), reply.written⟩

namespace Composite

/-- The questions that the leaves are asked, in order, when the tree is asked about the class. -/
def consulted (t : Composite ι) (leaves : ι → ClassFilter σ) (c : Class) (s : σ) :
    List (Consulted ι) :=
  ((t.filter fun name => (leaves name).recorded name).accepts c (s, [])).state.2

/-- The votes are what the leaves answered, as far as they answered. -/
def Agrees (vote : ι → Bool) (questions : List (Consulted ι)) : Prop :=
  ∀ question ∈ questions, ∀ verdict, question.verdict = .ok verdict → vote question.name = verdict

/-- What asking the given leaves about the class should come to: all of them answer and give the
verdict, or the first that panics is the last to be asked. -/
def Settles (vote : ι → Bool) (c : Class) (names : List ι) (verdict : Bool)
    (questions : List (Consulted ι)) : Except Panic Bool → Prop
  | .ok accepted =>
    accepted = verdict ∧ questions = names.map fun name => ⟨name, c, .ok (vote name)⟩
  | .error panic => ∃ before name after, names = before ++ name :: after ∧
    questions = (before.map fun name => ⟨name, c, .ok (vote name)⟩) ++ [⟨name, c, .error panic⟩]

/-- The replacement of one junction, somewhere in the tree, that stands directly inside a junction of
its own kind, by its members in place. -/
inductive Splices : Composite ι → Composite ι → Prop where
  | here (k : Junction) (before inner after : List (Composite ι)) :
    Splices (junction k (before ++ junction k inner :: after))
      (junction k (before ++ inner ++ after))
  | within {t t' : Composite ι} (k : Junction) (before after : List (Composite ι))
    (h : Splices t t') :
    Splices (junction k (before ++ t :: after)) (junction k (before ++ t' :: after))

theorem Splices.accepts_eq {t t' : Composite ι} (h : Splices t t') (leaves : ι → ClassFilter σ) :
    (t.filter leaves).accepts c = (t'.filter leaves).accepts c := by
  induction h with
  | here k before inner after =>
    simp only [filter, filters_append, filters]
    exact k.accepts_splice _ _ _
  | within k before after h ih =>
    simp only [filter, filters_append, filters, Junction.accepts_append, Junction.accepts_cons, ih]

/-! ### What a run of the recording tree records -/

variable {vote : ι → Bool} {names later : List ι} {questions more : List (Consulted ι)}

/-- Two filters do the same, the second one recording what it asks: questions to names from the list, in
its order and about the class, that settle the reading. -/
def Records (c : Class) (names : List ι) (reads : (ι → Bool) → Bool)
    (consults : (ι → Bool) → List ι) (plain : Query σ Bool)
    (recording : Query (σ × List (Consulted ι)) Bool) : Prop :=
  ∀ s record, ∃ questions : List (Consulted ι),
    recording (s, record) =
      ⟨(plain s).result, ((plain s).state, record ++ questions), (plain s).written⟩ ∧
    (questions.map Consulted.name).Sublist names ∧
    (∀ question ∈ questions, question.targetClass = c) ∧
    ∀ vote, Agrees vote questions →
      Settles vote c (consults vote) (reads vote) questions (plain s).result

theorem records_leaf (name : ι) (f : ClassFilter σ) :
    Records c [name] (fun vote => vote name) (fun _ => [name]) (f.accepts c)
      ((f.recorded name).accepts c) := by
  intro s record
  refine ⟨[⟨name, c, (f.accepts c s).result⟩], ?_, ?_, ?_, ?_⟩
  · simp only [ClassFilter.recorded, ClassFilter.accepts]
  · exact List.Sublist.refl _
  · intro question hquestion
    rw [List.mem_singleton.mp hquestion]
  · intro vote hagrees
    cases hresult : (f.accepts c s).result with
    | error panic => exact ⟨[], name, [], rfl, rfl⟩
    | ok verdict =>
      have hvote : vote name = verdict := hagrees _ (List.mem_singleton.mpr rfl) verdict hresult
      exact ⟨hvote.symm, by rw [List.map_singleton, hvote]⟩

theorem records_nil (k : Junction) :
    Records (σ := σ) c ([] : List ι) (fun _ => k.reading []) (fun _ => [])
      ((k.filter []).accepts c) ((k.filter []).accepts c) := by
  intro s record
  refine ⟨[], ?_, List.Sublist.refl _, ?_, ?_⟩
  · rw [Junction.accepts_nil, Junction.accepts_nil, List.append_nil]
    rfl
  · exact fun _ h => absurd h List.not_mem_nil
  · intro vote _
    rw [Junction.accepts_nil, Junction.reading_nil]
    exact ⟨rfl, rfl⟩

/-- A leaf that is asked first leaves the rest of the names to be settled. -/
theorem Settles.append {result : Except Panic Bool} {verdict : Bool}
    (h : Settles vote c later verdict more result) :
    Settles vote c (names ++ later) verdict
      ((names.map fun name => ⟨name, c, .ok (vote name)⟩) ++ more) result := by
  cases result with
  | ok accepted =>
    obtain ⟨haccepted, rfl⟩ := h
    exact ⟨haccepted, by rw [List.map_append]⟩
  | error panic =>
    obtain ⟨before, name, after, rfl, rfl⟩ := h
    exact ⟨names ++ before, name, after, by rw [List.append_assoc],
      by rw [List.map_append, List.append_assoc]⟩

/-- One more member in front: it is asked first, and the others only if it was not decisive. -/
theorem Records.cons {k : Junction} {f : ClassFilter σ} {f' : ClassFilter (σ × List (Consulted ι))}
    {rest : List (ClassFilter σ)} {rest' : List (ClassFilter (σ × List (Consulted ι)))}
    {first : (ι → Bool) → Bool} {asks asksLater : (ι → Bool) → List ι}
    {readings : (ι → Bool) → List Bool}
    (hfirst : Records c names first asks (f.accepts c) (f'.accepts c))
    (hrest : Records c later (fun vote => k.reading (readings vote)) asksLater
      ((k.filter rest).accepts c) ((k.filter rest').accepts c)) :
    Records c (names ++ later) (fun vote => k.reading (first vote :: readings vote))
      (fun vote => asks vote ++ if first vote = k.decisive then [] else asksLater vote)
      ((k.filter (f :: rest)).accepts c) ((k.filter (f' :: rest')).accepts c) := by
  intro s record
  obtain ⟨questions, heq, hsublist, hclass, hsettles⟩ := hfirst s record
  rw [Junction.accepts_cons, Junction.accepts_cons]
  cases hresult : (f.accepts c s).result with
  | error panic =>
    rw [hresult] at heq hsettles
    refine ⟨questions, ?_, hsublist.trans (List.sublist_append_left names later), hclass, ?_⟩
    · simp only [andThen, heq, hresult]
    · intro vote hagrees
      simp only [andThen, hresult]
      obtain ⟨before, name, after, hnames, hquestions⟩ := hsettles vote hagrees
      exact ⟨before, name, after ++ _, by rw [hnames, List.append_assoc, List.cons_append],
        hquestions⟩
  | ok verdict =>
    rw [hresult] at heq hsettles
    by_cases hdecisive : verdict = k.decisive
    · refine ⟨questions, ?_, hsublist.trans (List.sublist_append_left names later), hclass, ?_⟩
      · simp only [andThen, heq, hresult, if_pos hdecisive, answer]
      · intro vote hagrees
        obtain ⟨hverdict, hquestions⟩ := hsettles vote hagrees
        simp only [andThen, hresult, if_pos hdecisive, answer, Junction.reading_cons,
          if_pos (hverdict.symm.trans hdecisive), List.append_nil]
        exact ⟨rfl, hquestions⟩
    · obtain ⟨more, heqRest, hsublistRest, hclassRest, hsettlesRest⟩ :=
        hrest (f.accepts c s).state (record ++ questions)
      refine ⟨questions ++ more, ?_, ?_, ?_, ?_⟩
      · simp only [andThen, heq, hresult, if_neg hdecisive, heqRest, List.append_assoc]
      · rw [List.map_append]
        exact hsublist.append hsublistRest
      · intro question hquestion
        rcases List.mem_append.mp hquestion with hfirst | hlater
        · exact hclass question hfirst
        · exact hclassRest question hlater
      · intro vote hagrees
        obtain ⟨hverdict, hquestions⟩ :=
          hsettles vote fun q hq => hagrees q (List.mem_append_left _ hq)
        have hlater := hsettlesRest vote fun q hq => hagrees q (List.mem_append_right _ hq)
        simp only [andThen, hresult, if_neg hdecisive, Junction.reading_cons,
          if_neg (fun h => hdecisive (hverdict.trans h))]
        rw [hquestions]
        exact hlater.append

mutual

theorem records (t : Composite ι) (leaves : ι → ClassFilter σ) (c : Class) :
    Records c t.leaves (fun vote => t.reads vote) (fun vote => t.consults vote)
      ((t.filter leaves).accepts c)
      ((t.filter fun name => (leaves name).recorded name).accepts c) := by
  cases t with
  | leaf name => exact records_leaf name (leaves name)
  | junction k members => exact records_among k members leaves c

theorem records_among (k : Junction) (members : List (Composite ι)) (leaves : ι → ClassFilter σ)
    (c : Class) :
    Records c (leavesAmong members) (fun vote => k.reading (readings vote members))
      (fun vote => consultsAmong vote k members) ((k.filter (filters leaves members)).accepts c)
      ((k.filter (filters (fun name => (leaves name).recorded name) members)).accepts c) := by
  cases members with
  | nil => exact records_nil k
  | cons member rest => exact (records member leaves c).cons (records_among k rest leaves c)

end

/-- Distinct leaves are asked once each, so some assignment agrees with everything they answered. -/
theorem exists_agrees (questions : List (Consulted ι))
    (h : (questions.map Consulted.name).Nodup) : ∃ vote, Agrees vote questions := by
  classical
  induction questions with
  | nil => exact ⟨fun _ => false, fun _ hquestion => absurd hquestion List.not_mem_nil⟩
  | cons first rest ih =>
    obtain ⟨hfresh, hrest⟩ := List.nodup_cons.mp h
    obtain ⟨vote, hvote⟩ := ih hrest
    refine ⟨fun name => if name = first.name then first.verdict.toOption.getD false else vote name,
      fun question hquestion verdict hverdict => ?_⟩
    rcases List.mem_cons.mp hquestion with rfl | hlater
    · simp only [if_pos, hverdict]
      rfl
    · have hother : question.name ≠ first.name :=
        fun hname => hfresh (hname ▸ List.mem_map_of_mem hlater)
      simp only [if_neg hother]
      exact hvote question hlater verdict hverdict

/-- **Reading a tree of filters.** The recording leaves change nothing. The leaves are asked from left to
right, each at most once and all of them about the class, and by what they answer, the verdict is the
boolean reading of the tree, for which exactly the leaves were asked whose turn came while everything
around them was undecided, or those of them up to one that panicked. To splice a junction into one of
its own kind around it changes neither what the tree does nor what its leaves are asked. -/
theorem accepts_reads (t : Composite ι) (leaves : ι → ClassFilter σ) (c : Class) (s : σ) :
    let reply := (t.filter leaves).accepts c s
    (t.filter fun name => (leaves name).recorded name).accepts c (s, []) =
      ⟨reply.result, (reply.state, t.consulted leaves c s), reply.written⟩ ∧
    ((t.consulted leaves c s).map Consulted.name).Sublist t.leaves ∧
    (∀ question ∈ t.consulted leaves c s, question.targetClass = c) ∧
    (t.leaves.Nodup → ∃ vote, Agrees vote (t.consulted leaves c s)) ∧
    (∀ vote, Agrees vote (t.consulted leaves c s) →
      Settles vote c (t.consults vote) (t.reads vote) (t.consulted leaves c s) reply.result) ∧
    ∀ t', Splices t t' →
      (t'.filter leaves).accepts c s = reply ∧
      t'.consulted leaves c s = t.consulted leaves c s := by
  intro reply
  obtain ⟨questions, heq, hsublist, hclass, hsettles⟩ := t.records leaves c s []
  have hconsulted : t.consulted leaves c s = questions := by
    rw [consulted, heq]
    rfl
  rw [hconsulted]
  refine ⟨heq, hsublist, hclass, ?_, hsettles, ?_⟩
  · intro hdistinct
    exact exists_agrees questions (hdistinct.sublist hsublist)
  · intro t' hsplices
    refine ⟨congrFun (hsplices.accepts_eq leaves).symm s, ?_⟩
    rw [consulted, ← hsplices.accepts_eq, ← hconsulted]
    rfl

end Composite

end Interception
