/-! Computations by which predicates are consulted. A consultation may read and change the state that
the callbacks share, write entries, and unwind with a panic; it can reach nothing else, in particular
no call under way and no binding. A `Query` is what a callback may do as a predicate: its entries are
notes. -/

namespace Interception

universe u v

/-- A callback unwinds instead of answering. -/
structure Panic where
  message : String
  deriving DecidableEq

/-- What a consultation leaves behind: its result, the state, and what it wrote, in order. -/
structure Reply (σ ω : Type) (α : Type u) where
  result : Except Panic α
  state : σ
  written : List ω

/-- A computation on the state `σ` that writes entries of type `ω`. -/
def Consultation (σ ω : Type) (α : Type u) : Type u := σ → Reply σ ω α

/-- What a callback may do as a predicate. -/
abbrev Query (σ : Type) (α : Type u) := Consultation σ String α

namespace Consultation

variable {σ ω : Type} {α β : Type u}

def answer (a : α) : Consultation σ ω α := fun s => ⟨.ok a, s, []⟩

/-- Runs the second computation on what the first answered; a panic ends both. -/
def andThen {β : Type v} (p : Consultation σ ω α) (k : α → Consultation σ ω β) :
    Consultation σ ω β := fun s =>
  let first := p s
  match first.result with
  | .ok a =>
    let second := k a first.state
    ⟨second.result, second.state, first.written ++ second.written⟩
  | .error panic => ⟨.error panic, first.state, first.written⟩

instance : Monad (Consultation.{u} σ ω) where
  pure := answer
  bind := andThen

def get : Consultation σ ω σ := fun s => ⟨.ok s, s, []⟩

/-- Changes the state and answers with what the change yields. -/
def modifyGet {α : Type} (change : σ → α × σ) : Consultation σ ω α := fun s =>
  ⟨.ok (change s).1, (change s).2, []⟩

def modify (change : σ → σ) : Consultation σ ω Unit := modifyGet fun s => ((), change s)

def write (entry : ω) : Consultation σ ω Unit := fun s => ⟨.ok (), s, [entry]⟩

def panic (message : String) : Consultation σ ω α := fun s => ⟨.error ⟨message⟩, s, []⟩

/-- Applies a function to every entry, which lets a consultation take part in a larger one. -/
def mapWritten {ω' : Type} (change : ω → ω') (p : Consultation σ ω α) :
    Consultation σ ω' α := fun s =>
  let reply := p s
  ⟨reply.result, reply.state, reply.written.map change⟩

/-- A predicate is pure when it answers by its argument alone. -/
def IsPure (p : Consultation σ ω α) : Prop := ∃ a, p = answer a

theorem answer_andThen (a : α) (k : α → Consultation σ ω β) : (answer a).andThen k = k a := by
  funext s; simp [answer, andThen]

theorem andThen_answer (p : Consultation σ ω α) : p.andThen answer = p := by
  funext s
  simp only [andThen, answer]
  rcases h : p s with ⟨_ | _, _, _⟩ <;> simp

theorem andThen_assoc {γ : Type u} (p : Consultation σ ω α) (k : α → Consultation σ ω β)
    (l : β → Consultation σ ω γ) : (p.andThen k).andThen l = p.andThen fun a => (k a).andThen l := by
  funext s
  simp only [andThen]
  rcases p s with ⟨_ | a, s', written⟩
  · rfl
  · simp only
    rcases k a s' with ⟨_ | b, s'', written'⟩ <;> simp

/-- A computation that answered did so on the answer of its first part. -/
theorem andThen_ok {β : Type v} {p : Consultation σ ω α} {k : α → Consultation σ ω β} {s : σ} {b : β}
    (h : (p.andThen k s).result = .ok b) :
    ∃ a, (p s).result = .ok a ∧ (k a (p s).state).result = .ok b ∧
      (p.andThen k s).written = (p s).written ++ (k a (p s).state).written := by
  simp only [andThen] at h ⊢
  cases hfirst : (p s).result with
  | ok a =>
    rw [hfirst] at h
    exact ⟨a, rfl, h, rfl⟩
  | error panic =>
    rw [hfirst] at h
    cases h

/-- Everything that the computation writes, whichever state it starts in, has the property. -/
def Writes (P : ω → Prop) (p : Consultation σ ω α) : Prop := ∀ s, ∀ entry ∈ (p s).written, P entry

theorem writes_answer (P : ω → Prop) (a : α) : Writes P (answer a : Consultation σ ω α) :=
  fun _ _ hentry => absurd hentry List.not_mem_nil

theorem writes_write {P : ω → Prop} {entry : ω} (h : P entry) :
    Writes P (write entry : Consultation σ ω Unit) :=
  fun _ _ hentry => List.mem_singleton.mp hentry ▸ h

theorem Writes.andThen {β : Type v} {P : ω → Prop} {p : Consultation σ ω α}
    {k : α → Consultation σ ω β} (hp : Writes P p) (hk : ∀ a, Writes P (k a)) :
    Writes P (p.andThen k) := by
  intro s entry hentry
  simp only [Consultation.andThen] at hentry
  cases hresult : (p s).result with
  | error panic =>
    rw [hresult] at hentry
    exact hp s entry hentry
  | ok a =>
    rw [hresult] at hentry
    rcases List.mem_append.mp hentry with hfirst | hsecond
    · exact hp s entry hfirst
    · exact hk a _ entry hsecond

instance : LawfulMonad (Consultation.{u} σ ω) :=
  LawfulMonad.mk' _ andThen_answer answer_andThen andThen_assoc

end Consultation

end Interception
