import Interception.Execution

/-! Blindness. A callback may have a part of the shared state to itself, and write notes of its own. Code is
blind when it does not depend on what lies behind that veil, and asks no invocation for the position of
its cursor or for its chain. All else it may do as it likes. -/

namespace Interception

universe u

variable {σ α β : Type}

/-- What callbacks keep to themselves. Two states are the same for everyone else if they differ in their
part alone. -/
structure Veil (σ : Type) where
  same : σ → σ → Prop
  equivalence : Equivalence same
  /-- Their notes. -/
  own : String → Bool

/-- The consultation comes to the same in states that are the same for it. -/
def Consultation.Respects {ω : Type} {α : Type u} (veil : Veil σ) (q : Consultation σ ω α) : Prop :=
  ∀ s s', veil.same s s' → (q s').result = (q s).result ∧ (q s').written = (q s).written ∧
    veil.same (q s).state (q s').state

def Facet.IsBlind : {α : Type} → Facet α → Prop
  | _, .position => False
  | _, .chain => False
  | _, _ => True

def Operation.IsBlind : {α : Type} → Operation α → Prop
  | _, .read _ facet => facet.IsBlind
  | _, _ => True

def Program.IsBlind (veil : Veil σ) : {α : Type} → Program σ α → Prop
  | _, .done _ => True
  | _, .andThen first next => first.IsBlind veil ∧ ∀ a, (next a).IsBlind veil
  | _, .consult q => q.Respects veil
  | _, .perform op => op.IsBlind
  | _, .proceed _ => True
  | _, .expose _ => True
  | _, .invoke _ _ target => ∀ this method arguments, (target this method arguments).IsBlind veil
  | _, .withBinding _ body => body.IsBlind veil
  | _, .catching body => body.IsBlind veil
  | _, .onThread body => body.IsBlind veil

def Target.IsBlind (veil : Veil σ) (target : Target σ) : Prop :=
  ∀ this method arguments, (target this method arguments).IsBlind veil

def Behaviour.IsBlind (veil : Veil σ) : Behaviour σ → Prop
  | .around body => ∀ r, (body r).IsBlind veil
  | .before advice => ∀ method arguments this, (advice method arguments this).IsBlind veil
  | .afterReturning advice =>
    ∀ returned method arguments this, (advice returned method arguments this).IsBlind veil
  | .afterThrowing advice =>
    (∀ failure, (advice.handles failure).Respects veil) ∧
      ∀ r failure, (advice.afterThrowing r failure).IsBlind veil
  | .instrumented _ => True
  | .exposing => True

def Link.IsBlind (veil : Veil σ) : Link σ → Prop
  | .plain interceptor => interceptor.behaviour.IsBlind veil
  | .dynamic interceptor accepts =>
    interceptor.behaviour.IsBlind veil ∧
      ∀ method targetClass arguments, (accepts method targetClass arguments).Respects veil

def Chain.IsBlind (veil : Veil σ) (chain : Chain σ) : Prop := ∀ link ∈ chain.links, link.IsBlind veil

/-- The chains that the proxy assembles are blind, and so is how it does it. -/
structure Proxy.IsBlind (veil : Veil σ) (p : Proxy σ) : Prop where
  assembling : ∀ method targetClass, (p.chainFor method targetClass).Respects veil
  chains : ∀ method targetClass s chain,
    (p.chainFor method targetClass s).result = .ok (.ok chain) → chain.IsBlind veil

def Directory.IsBlind (veil : Veil σ) (directory : Directory σ) : Prop :=
  ∀ name proxy, directory name = some proxy → proxy.IsBlind veil

structure Invocation.IsBlind (veil : Veil σ) (i : Invocation σ) : Prop where
  chain : i.chain.IsBlind veil
  target : i.target.IsBlind veil

namespace Consultation

variable {veil : Veil σ} {ω ω' : Type}

theorem Respects.mapWritten {α : Type u} {q : Consultation σ ω α} (h : q.Respects veil)
    (change : ω → ω') : (q.mapWritten change).Respects veil := by
  intro s s' hsame
  obtain ⟨hresult, hwritten, hstate⟩ := h s s' hsame
  exact ⟨hresult, congrArg (List.map change) hwritten, hstate⟩

end Consultation

theorem Chain.IsBlind.of_drop {veil : Veil σ} {chain : Chain σ} {position : Nat} {link : Link σ}
    (h : chain.IsBlind veil) (hlink : link ∈ chain.links.drop position) : link.IsBlind veil :=
  h link (List.mem_of_mem_drop hlink)

end Interception
