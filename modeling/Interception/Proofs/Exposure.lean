import Interception.Proofs.Likewise
import Interception.Proofs.Steps

/-! Calls with and without publication. A proxy that publishes its calls puts one link in front of every chain,
so that an invocation stands one link further, and a call to which no advice applies gets an invocation at
all. Code that treats identities as names, looks neither at positions nor at chains, and leaves the
bindings alone, does likewise in both cases, however calls are nested, forked and repeated. -/

namespace Interception

universe u

variable {σ : Type}

/-! ### How a call is published -/

theorem modify_push {α : Type u} (a : Array α) (x : α) (f : α → α) :
    (a.push x).modify a.size f = a.push (f x) := by
  refine Array.ext (by simp) fun k hk hk' => ?_
  have hplace : k < a.size ∨ k = a.size := by
    rw [Array.size_push] at hk'
    omega
  obtain hlt | rfl := hplace
  · rw [Array.getElem_modify_of_ne (by omega), Array.getElem_push_lt hlt, Array.getElem_push_lt hlt]
  · rw [Array.getElem_modify_self, Array.getElem_push_eq, Array.getElem_push_eq]

namespace World

variable {w : World σ}

/-- Starts a call through a proxy that publishes it, up to where the link in front of the chain is entered. -/
def startPublished (w : World σ) (request : Request) (chain : Chain σ) (target : Target σ) : World σ :=
  let (r, w) := w.start request (chain.prepend Proxy.exposingLink) target
  ((w.record [.occurrence (.proceeding r)]).visit r 0 Proxy.exposingLink).2.2

/-- The invocation of a published call, once it has entered the link in front of its chain. -/
def published (w : World σ) (request : Request) (chain : Chain σ) (target : Target σ) : Invocation σ :=
  { Invocation.start ⟨w.calls⟩ request (chain.prepend Proxy.exposingLink) target with entered := 1 }

/-- The world with the invocation of a published call, before the journal tells of it. -/
def withPublished (w : World σ) (request : Request) (chain : Chain σ) (target : Target σ) : World σ :=
  ({ w with calls := w.calls + 1 }.push (w.published request chain target)).2

theorem startPublished_eq (w : World σ) (request : Request) (chain : Chain σ) (target : Target σ) :
    w.startPublished request chain target =
      ((w.withPublished request chain target).record
        [.occurrence (.proceeding ⟨w.invocations.size⟩)]).enter ⟨w.invocations.size⟩ 0
          (.entering ⟨w.calls⟩ 0) := by
  have hstep : (w.start request (chain.prepend Proxy.exposingLink) target).2.stepOver
      ⟨w.invocations.size⟩ = w.withPublished request chain target := by
    simp only [start, stepOver, update, push, withPublished, published, modify_push]
    rfl
  have hcall : ((w.withPublished request chain target).invocation ⟨w.invocations.size⟩).call = ⟨w.calls⟩ :=
    congrArg Invocation.call (invocation_push _ _)
  rw [← hcall, ← hstep]
  rfl

end World

theorem Engine.proceed_published (directory : Directory σ) (engine : Engine σ) (w : World σ)
    (request : Request) (chain : Chain σ) (target : Target σ) :
    engine.proceed directory ⟨w.invocations.size⟩
        (w.start request (chain.prepend Proxy.exposingLink) target).2 =
      engine.expose ⟨w.invocations.size⟩ (w.startPublished request chain target) := by
  have hself : (w.start request (chain.prepend Proxy.exposingLink) target).2.invocation
      ⟨w.invocations.size⟩ = .start ⟨w.calls⟩ request (chain.prepend Proxy.exposingLink) target :=
    World.invocation_push _ _
  rw [Engine.proceed_eq, World.advance_eq, hself]
  rfl

/-! ### How a call is made -/

/-- The chain of a call, with the publishing link in front of it where the proxy is set to publish. -/
def Proxy.assembled (p : Proxy σ) (chain : Chain σ) : Chain σ :=
  if p.config.exposeInvocation then chain.prepend Proxy.exposingLink else chain

/-- A call along a chain: to the target at once if the chain is empty. -/
def Engine.dispatch (directory : Directory σ) (engine : Engine σ) (chain : Chain σ) (request : Request)
    (target : Target σ) : Run σ Outcome :=
  if chain.isEmpty then Target.run directory engine target none request.this request.method request.arguments
  else fun w => engine (.proceed (w.start request chain target).1) (w.start request chain target).2

theorem Chain.eq_empty_or_cons (chain : Chain σ) : chain = .empty ∨ ∃ link rest, chain = ⟨link :: rest⟩ := by
  obtain ⟨_ | ⟨link, rest⟩⟩ := chain
  · exact .inl rfl
  · exact .inr ⟨link, rest, rfl⟩

theorem Engine.dispatch_empty (directory : Directory σ) (engine : Engine σ) (request : Request)
    (target : Target σ) (w : World σ) :
    engine.dispatch directory .empty request target w =
      target.run directory engine none request.this request.method request.arguments w := rfl

theorem Engine.dispatch_cons (directory : Directory σ) (engine : Engine σ) (link : Link σ)
    (rest : List (Link σ)) (request : Request) (target : Target σ) (w : World σ) :
    engine.dispatch directory ⟨link :: rest⟩ request target w =
      engine (.proceed (w.start request ⟨link :: rest⟩ target).1) (w.start request ⟨link :: rest⟩ target).2 :=
  rfl

theorem Engine.call_eq (directory : Directory σ) (engine : Engine σ) (p : Proxy σ) (request : Request)
    (target : Target σ) (w : World σ) :
    engine.call directory p request target w =
      match w.consult (p.resolve request.method request.targetClass) with
      | (.ok (.ok chain), v) => engine.dispatch directory (p.assembled chain) request target v
      | (.ok (.error e), v) => (.finished (.error (.advisor e)), v)
      | (.error panic, v) => (.unwinding panic, v) := by
  simp only [Engine.call, Run.inquire, Proxy.chainFor, Consultation.andThen, World.consult, Proxy.resolve]
  generalize p.registry.resolve p.advisors
    (.of request.method request.targetClass p.config.preFiltered) w.state = reply
  obtain ⟨panic | e | chain, state, written⟩ := reply
  · rfl
  · simp only [Consultation.answer, List.append_nil]
    rfl
  · simp only [Consultation.answer, List.append_nil]
    rfl

theorem Engine.dispatch_published (directory : Directory σ) (depth : Nat) (chain : Chain σ)
    (request : Request) (target : Target σ) (w : World σ) :
    (Engine.ofDepth directory (depth + 1)).dispatch directory (chain.prepend Proxy.exposingLink) request
        target w =
      (Engine.ofDepth directory depth).expose ⟨w.invocations.size⟩ (w.startPublished request chain target) :=
  Engine.proceed_published directory _ w request chain target

/-- The world of a published call to which no advice applies, up to where the target is run. -/
def World.upToTarget (w : World σ) (request : Request) (target : Target σ) : World σ :=
  let r : Ref := ⟨w.invocations.size⟩
  (((w.startPublished request .empty target).publish r).record [.occurrence (.proceeding r)]).record
    [.event (.invokingTarget ⟨w.calls⟩ request.method)]

theorem World.backstage_upToTarget (w : World σ) (request : Request) (target : Target σ) :
    (w.startPublished request .empty target).Backstage (w.upToTarget request target) :=
  ((World.backstage_publish _ _).trans (World.backstage_entry _ (by trivial))).trans
    (World.backstage_entry _ (by trivial))

theorem World.invocation_published (w : World σ) (request : Request) (chain : Chain σ) (target : Target σ) :
    ∃ exposedAt, ((w.startPublished request chain target).publish ⟨w.invocations.size⟩).invocation
      ⟨w.invocations.size⟩ = { w.published request chain target with exposedAt } := by
  have hself : (w.startPublished request chain target).invocation ⟨w.invocations.size⟩ =
      w.published request chain target := by
    rw [World.startPublished_eq]
    exact World.invocation_push _ _
  have hkept := ((w.startPublished request chain target).backstage_publish ⟨w.invocations.size⟩).invocation
    ⟨w.invocations.size⟩
  rw [hself] at hkept
  exact ⟨_, hkept⟩

/-- Behind the last link the target is run. -/
theorem Engine.proceed_of_ahead (directory : Directory σ) (engine : Engine σ) {r : Ref} {w : World σ}
    (hahead : (w.invocation r).ahead = []) :
    engine.proceed directory r w =
      (w.invocation r).target.run directory engine (some r) (w.invocation r).this (w.invocation r).method
        (w.invocation r).arguments ((w.record [.occurrence (.proceeding r)]).record
          [.event (.invokingTarget (w.invocation r).call (w.invocation r).method)]) := by
  have hproceed : engine.proceed directory r w = engine.advance directory r (w.invocation r).entered
      (w.invocation r).ahead (w.record [.occurrence (.proceeding r)]) := rfl
  rw [hproceed, hahead]
  rfl

/-- Behind the publishing link of an empty chain the target is run. -/
theorem Engine.ofDepth_empty (directory : Directory σ) (depth : Nat) (w : World σ) (request : Request)
    (target : Target σ) :
    Engine.ofDepth directory (depth + 1) (.proceed ⟨w.invocations.size⟩)
        ((w.startPublished request .empty target).publish ⟨w.invocations.size⟩) =
      target.run directory (Engine.ofDepth directory depth) (some ⟨w.invocations.size⟩) request.this
        request.method request.arguments (w.upToTarget request target) := by
  obtain ⟨exposedAt, hself⟩ := w.invocation_published request .empty target
  have hahead : (((w.startPublished request .empty target).publish ⟨w.invocations.size⟩).invocation
      ⟨w.invocations.size⟩).ahead = [] := by
    rw [hself]
    rfl
  have hproceed := Engine.proceed_of_ahead directory (Engine.ofDepth directory depth) hahead
  rw [hself] at hproceed
  exact hproceed

/-! ### Calls from worlds that are alike -/

theorem Resolution.Sound.isNameless {site : Site} {advisors : List (Advisor σ)} {entry : Entry}
    (h : Resolution.Sound site advisors entry) : entry.IsNameless := by
  cases entry with
  | note text => trivial
  | event e => trivial
  | occurrence o => cases o <;> trivial

theorem Proxy.nameless_resolve (p : Proxy σ) (method : Method) (targetClass : Option Class) :
    Consultation.Writes Entry.IsNameless (p.resolve method targetClass) :=
  p.registry.writes_resolve p.advisors _ (fun _ hsound => hsound.1.isNameless) fun _ _ _ _ => trivial

theorem Proxy.forall_assembled {P : Link σ → Prop} {p : Proxy σ} {chain : Chain σ}
    (hexposing : P Proxy.exposingLink) (hlinks : ∀ link ∈ chain.links, P link) :
    ∀ link ∈ (p.assembled chain).links, P link := by
  rw [Proxy.assembled]
  split
  · exact List.forall_mem_cons.mpr ⟨hexposing, hlinks⟩
  · exact hlinks

/-- Calls match if looking for their chains comes to the same and what is done along the chains matches. -/
theorem Simulation.matches_call {ν : Type u} {ι : Type} {S : Simulation σ ν ι} {i : ι} {w w' : World σ}
    {directory directory' : Directory σ} {engine engine' : Engine σ} {p p' : Proxy σ} {request : Request}
    {target target' : Target σ}
    (hresult : Kin.caught Eq (w.consult (p.resolve request.method request.targetClass)).1
      (w'.consult (p'.resolve request.method request.targetClass)).1)
    (halike : S.Alike i (w.consult (p.resolve request.method request.targetClass)).2
      (w'.consult (p'.resolve request.method request.targetClass)).2)
    (hdispatch : ∀ chain,
      (w.consult (p.resolve request.method request.targetClass)).1 = .ok (.ok chain) →
        S.Mimics i (fun _ => Eq) (engine.dispatch directory (p.assembled chain) request target)
          (engine'.dispatch directory' (p'.assembled chain) request target')) :
    S.Matches i (fun _ => Eq) (engine.call directory p request target w, [])
      (engine'.call directory' p' request target' w', []) := by
  rw [Engine.call_eq, Engine.call_eq]
  generalize w.consult (p.resolve request.method request.targetClass) = x at hresult halike hdispatch ⊢
  generalize w'.consult (p'.resolve request.method request.targetClass) = x' at hresult halike ⊢
  obtain ⟨result, v⟩ := x
  obtain ⟨result', v'⟩ := x'
  cases hresult with
  | error panic => exact matches_unwinding halike panic
  | ok hresolved =>
    rename_i resolved resolved'
    cases hresolved
    cases resolved with
    | error e => exact matches_finished halike (S.refl i) rfl
    | ok chain => exact hdispatch chain rfl v v' halike

namespace Comparison

open Simulation

variable {C : Comparison σ} {longer : Bool} {N : Naming} {w w' v' : World σ}

theorem Alike.start (h : C.Alike N w w') (request : Request) {chain : Chain σ} {target target' : Target σ}
    (hlinks : ∀ link ∈ chain.links, link.IsUniform C) (htarget : Target.Like C N target target') :
    ∃ N', N ≤ N' ∧ N'.SameRef (w.start request chain target).1 (w'.start request chain target').1 ∧
      C.Alike N' (w.start request chain target).2 (w'.start request chain target').2 := by
  obtain ⟨N₁, hle₁, hcall, hcounted⟩ := h.count
  have htwins : C.Twins N₁ 0 (.start ⟨w.calls⟩ request chain target)
      (.start ⟨w'.calls⟩ request chain target') := {
    call := hcall
    this := rfl
    method := rfl
    targetClass := rfl
    arguments := rfl
    attachments := rfl
    chain := rfl
    entered := rfl
    uniform := hlinks
    target := htarget.mono hle₁ }
  obtain ⟨N₂, hle₂, hnames, hthen⟩ := hcounted.push htwins
  exact ⟨N₂, Naming.le_trans hle₁ hle₂, ⟨0, hnames⟩, hthen⟩

/-- Entering a publishing link that only the second run has is not told in the first one. -/
theorem Alike.enter_right (h : C.Alike N w v') {r' : Ref}
    (hpublishes : r' ∈ N.idle ∨ ∃ c ∈ N.invocations, c.ref = r' ∧ 0 < c.shift) (event : Event) :
    C.Alike N w ((v'.record [.occurrence (.proceeding r')]).enter r' 0 event) := by
  have hproceeding : C.Alike N w (v'.record [.occurrence (.proceeding r')]) :=
    h.backstage (.refl w) (v'.backstage_entry trivial)
  have hevent : C.Alike N w ((v'.record [.occurrence (.proceeding r')]).record [.event event]) :=
    hproceeding.backstage (.refl w) (World.backstage_entry _ trivial)
  have hhidden : r' ∈ N.idle ∧ 0 = 0 ∨ ∃ c ∈ N.invocations, c.ref = r' ∧ 0 < c.shift :=
    hpublishes.imp_left fun hidle => ⟨hidle, rfl⟩
  exact hevent.record_right (.right (.inr hhidden) .nil)

/-- A call is started, and published in the second world. -/
theorem Alike.startPublished (h : C.Alike N w w') (request : Request) (chain : Chain σ)
    {target target' : Target σ} (hlinks : ∀ link ∈ chain.links, link.IsUniform C)
    (htarget : Target.Like C N target target') :
    ∃ N', N ≤ N' ∧ N'.SameRef (w.start request chain target).1 ⟨w'.invocations.size⟩ ∧
      C.Alike N' (w.start request chain target).2 (w'.startPublished request chain target') := by
  obtain ⟨N₁, hle₁, hcall, hcounted⟩ := h.count
  have htwins : C.Twins N₁ 1 (.start ⟨w.calls⟩ request chain target) (w'.published request chain target') := {
    call := hcall
    this := rfl
    method := rfl
    targetClass := rfl
    arguments := rfl
    attachments := rfl
    chain := rfl
    entered := rfl
    uniform := hlinks
    target := htarget.mono hle₁ }
  obtain ⟨N₂, hle₂, hnames, hthen⟩ := hcounted.push htwins
  refine ⟨N₂, Naming.le_trans hle₁ hle₂, ⟨1, hnames⟩, ?_⟩
  rw [World.startPublished_eq]
  exact hthen.enter_right (.inr ⟨_, hnames.mem, rfl, Nat.one_pos⟩) _

/-- A call that needs no invocation in the first world is published in the second one, up to where the target
is run. -/
theorem Alike.upToTarget (h : C.Alike N w w') (request : Request) (target : Target σ) :
    ∃ N', N ≤ N' ∧ (⟨w'.invocations.size⟩ : Ref) ∈ N'.idle ∧ C.Alike N' w (w'.upToTarget request target) := by
  obtain ⟨N', hle, hidle, hthen⟩ := h.count_right.push_right (w'.published request .empty target) rfl
  refine ⟨N', hle, hidle, ?_⟩
  have hstarted : C.Alike N' w (w'.startPublished request .empty target) := by
    rw [World.startPublished_eq]
    exact hthen.enter_right (.inl hidle) _
  exact hstarted.backstage (.refl w) (w'.backstage_upToTarget request target)

variable {directory directory' : Directory σ} {engine engine' : Engine σ}

theorem Follows.dispatch (h : C.Follows longer engine engine') (hdirectory : directory.Shows C directory')
    {chain : Chain σ} (hlinks : ∀ link ∈ chain.links, link.IsUniform C) (request : Request)
    {target target' : Target σ} (htarget : Target.Like C N target target') :
    C.Mimics longer N Kin.plain (engine.dispatch directory chain request target)
      (engine'.dispatch directory' chain request target') := by
  obtain ⟨_ | ⟨link, rest⟩⟩ := chain
  · exact h.target hdirectory htarget .atOnce _ _ _
  · intro w w' halike
    obtain ⟨N', hle, hr, hthen⟩ := halike.start request hlinks htarget
    exact (h.proceed N' _ _ hr _ _ hthen).le hle

/-- How deep one of the runs may nest its calls so that it is sure to get as far as the one that leads. For
every call that the first run makes, the second one may advance twice more. -/
def Enough (longer : Bool) (depth depth' : Nat) : Prop :=
  if longer then depth' ≤ depth else 3 * depth ≤ depth'

/-- While the first run makes one call, the second one may advance up to three times. -/
theorem Enough.lower {depth depth' : Nat} (k : Nat) (hk : k < 3)
    (h : Enough longer (depth + 1) (depth' + k + 1)) : Enough longer depth depth' := by
  cases longer <;> simp only [Enough, if_true, if_false, Bool.false_eq_true] at h ⊢ <;> omega

/-- Where the second run has no depth left, it is the one that leads. -/
theorem Enough.leads {depth depth' : Nat} (h : Enough longer (depth + 1) depth') (hfew : depth' < 3) :
    longer = true := by
  cases longer with
  | true => rfl
  | false =>
    simp only [Enough, if_false, Bool.false_eq_true] at h
    omega

theorem matches_outOfDepth {α : Type} {Q : Kin α} {x x' : Ending α × World σ} (hlonger : longer = true)
    (hout : x'.1 = .outOfDepth) : C.Matches longer N Q x x' := by
  refine matches_spared (spares_iff.mpr ?_)
  rw [hlonger]
  exact hout

/-- The second run publishes a call that the first one does not publish. -/
theorem Enough.dispatch_published {depth depth' : Nat} (henough : Enough longer (depth + 1) (depth' + 1))
    (ih : ∀ lower, Enough longer depth lower →
      C.Follows longer (Engine.ofDepth directory depth) (Engine.ofDepth directory' lower))
    (hdirectory : directory.Shows C directory') {chain : Chain σ}
    (hlinks : ∀ link ∈ chain.links, link.IsUniform C) (request : Request) {target target' : Target σ}
    (htarget : Target.Like C N target target') :
    C.Mimics longer N Kin.plain ((Engine.ofDepth directory depth).dispatch directory chain request target)
      ((Engine.ofDepth directory' depth').dispatch directory' (chain.prepend Proxy.exposingLink) request
        target') := by
  intro w w' halike
  cases depth' with
  | zero => exact matches_outOfDepth (henough.leads (by omega)) rfl
  | succ lower =>
    rw [Engine.dispatch_published, Engine.expose_eq]
    obtain rfl | ⟨link, rest, rfl⟩ := chain.eq_empty_or_cons
    · -- the first run needs no invocation for the call
      cases lower with
      | zero => exact matches_outOfDepth (henough.leads (by omega)) rfl
      | succ lowest =>
        obtain ⟨N', hle, hidle, hthen⟩ := halike.upToTarget request target'
        have hbelow := ih lowest (henough.lower 2 (by decide))
        have hruns := hbelow.target hdirectory (htarget.mono hle) (.idle hidle) request.this request.method
          request.arguments _ _ hthen
        rw [← Engine.ofDepth_empty] at hruns
        rw [Engine.dispatch_empty]
        exact (hruns.backstage (.refl _) (World.backstage_withdraw _ _ _)).le hle
    · let chain : Chain σ := ⟨link :: rest⟩
      obtain ⟨N', hle, hr, hthen⟩ := halike.startPublished request chain hlinks htarget
      have hpublished := hthen.backstage (.refl _)
        ((w'.startPublished request chain target').backstage_publish ⟨w'.invocations.size⟩)
      have hbelow := ih lower (henough.lower 1 (by decide))
      have hruns := hbelow.proceed N' _ _ hr _ _ hpublished
      rw [Engine.dispatch_cons]
      exact (hruns.backstage (.refl _) (World.backstage_withdraw _ _ _)).le hle

theorem Enough.call_step {depth depth' : Nat} (henough : Enough longer (depth + 1) (depth' + 1))
    (ih : ∀ lower, Enough longer depth lower →
      C.Follows longer (Engine.ofDepth directory depth) (Engine.ofDepth directory' lower))
    (hdirectory : directory.Shows C directory') {proxy proxy' : Proxy σ} (hshows : proxy.Shows proxy')
    (huniform : proxy.IsUniform C) (request : Request) {target target' : Target σ}
    (htarget : Target.Like C N target target') :
    C.Mimics longer N Kin.plain (Engine.call directory (Engine.ofDepth directory depth) proxy request target)
      (Engine.call directory' (Engine.ofDepth directory' depth') proxy' request target') := by
  intro w w' halike
  have hsame : proxy'.resolve = proxy.resolve := by
    cases hshows <;> rfl
  obtain ⟨hresult, hthen⟩ := halike.consult
    (huniform.resolving request.method request.targetClass N halike.base) (proxy.nameless_resolve _ _)
  refine matches_call (by rw [hsame]; exact hresult) (by rw [hsame]; exact hthen) fun chain hchain => ?_
  have hlinks : ∀ link ∈ chain.links, link.IsUniform C :=
    huniform.chains N w.state w'.state _ _ chain halike.base halike.state hchain
  cases hshows with
  | same p =>
    have hbelow := ih depth' (henough.lower 0 (by decide))
    exact hbelow.dispatch hdirectory (Proxy.forall_assembled trivial hlinks) request htarget
  | published p => exact henough.dispatch_published ih hdirectory hlinks request htarget

/-- **The engines of both runs do likewise.** -/
theorem follows_ofDepth (hdirectory : directory.Shows C directory') (depth : Nat) :
    ∀ depth', Enough longer depth depth' →
      C.Follows longer (Engine.ofDepth directory depth) (Engine.ofDepth directory' depth') := by
  -- by induction on the depth of the first run, which makes one step where the second one may make three
  induction depth with
  | zero =>
    intro depth' henough
    have hout : ∀ N a a', C.Mimics longer N Kin.plain (Engine.ofDepth directory 0 a)
        (Engine.ofDepth directory' depth' a') := by
      intro N a a' w w' _
      refine matches_spared (spares_iff.mpr ?_)
      cases longer with
      | false => rfl
      | true =>
        cases Nat.le_zero.mp henough
        rfl
    exact ⟨fun N _ _ _ => hout N _ _, fun N _ _ _ _ _ _ _ _ => hout N _ _⟩
  | succ depth ih =>
    intro depth' henough
    cases depth' with
    | zero =>
      have hlonger := henough.leads (by omega)
      exact ⟨fun _ _ _ _ _ _ _ => matches_outOfDepth hlonger rfl,
        fun _ _ _ _ _ _ _ _ _ _ _ _ => matches_outOfDepth hlonger rfl⟩
    | succ lower =>
      exact ⟨fun N r r' hr => (ih lower (henough.lower 0 (by decide))).proceed_step hdirectory hr,
        fun N proxy proxy' request target target' hshows huniform htarget =>
          henough.call_step ih hdirectory hshows huniform request htarget⟩

end Comparison

/-! ### Turns of callbacks -/

/-- That a callback is run, and with what: told without identities, and with places in chains that do not
count publishing links. -/
inductive Turn where
  | noted (text : String)
  | asked (question : Question) (targetClass : Class)
  | answered (question : Question) (verdict : Bool)
  /-- An argument predicate is consulted. -/
  | matching (method : Method) (place : Nat) (targetClass : Class) (arguments : List Value)
  | skipped (method : Method) (place : Nat)
  /-- Advice is run. -/
  | advised (method : Method) (place : Nat) (arguments : List Value) (thread : Nat)
  /-- The target is run. -/
  | reached (this : Value) (method : Method) (arguments : List Value) (thread : Nat)

/-- Whether the link publishes calls and does nothing else. -/
def Link.publishes (link : Link σ) : Bool :=
  match link.interceptor.behaviour with
  | .exposing => true
  | _ => false

@[simp] theorem Link.publishes_exposingLink : (Proxy.exposingLink : Link σ).publishes = true := rfl

/-- How many links that are not publishing stand in front of the position. -/
def Invocation.place (i : Invocation σ) (position : Nat) : Nat :=
  ((i.chain.links.take position).filter fun link => !link.publishes).length

/-- The turn that an entry tells of, if it does. -/
def World.turn? (w : World σ) : Entry → Option Turn
  | .note text => some (.noted text)
  | .occurrence (.asked question targetClass) => some (.asked question targetClass)
  | .occurrence (.answered question verdict) => some (.answered question verdict)
  | .occurrence (.matching r position targetClass arguments) =>
    let i := w.invocation r
    some (.matching i.method (i.place position) targetClass arguments)
  | .occurrence (.skipped r position) =>
    let i := w.invocation r
    some (.skipped i.method (i.place position))
  | .occurrence (.entered r position _ arguments thread _) =>
    let i := w.invocation r
    if i.chain.links[position]?.any Link.publishes then none
    else some (.advised i.method (i.place position) arguments thread)
  | .occurrence (.reached _ this method arguments thread _) => some (.reached this method arguments thread)
  | _ => none

/-- The turns of callbacks since the journal had so many entries, in order. -/
def World.turns (w : World σ) (since : Nat) : List Turn := (w.journal.toList.drop since).filterMap w.turn?

namespace Comparison

variable {C : Comparison σ} {N : Naming} {w w' : World σ} {i i' : Invocation σ} {shift : Nat}

theorem Twins.links (h : C.Twins N shift i i') (position : Nat) :
    i'.chain.links[position + shift]? = i.chain.links[position]? := by
  rw [h.chain, List.getElem?_append_right (by simp), List.length_replicate, Nat.add_sub_cancel]

theorem Twins.links_front (h : C.Twins N shift i i') {position : Nat} (hposition : position < shift) :
    i'.chain.links[position]? = some Proxy.exposingLink := by
  rw [h.chain, List.getElem?_append_left (by simpa using hposition), List.getElem?_replicate, if_pos hposition]

theorem Twins.place (h : C.Twins N shift i i') (position : Nat) :
    i'.place (position + shift) = i.place position := by
  have hfront :
      (List.replicate shift (Proxy.exposingLink : Link σ)).filter (fun link => !link.publishes) = [] :=
    List.filter_eq_nil_iff.mpr fun link hlink => by
      rw [List.eq_of_mem_replicate hlink]
      simp [Link.publishes_exposingLink]
  rw [Invocation.place, Invocation.place, h.chain, List.take_append, List.length_replicate,
    Nat.add_sub_cancel, List.take_of_length_le (by simp), List.filter_append, hfront]
  rfl

theorem turn?_of_backstage (w : World σ) {entry : Entry} (h : entry.IsBackstage) : w.turn? entry = none := by
  cases entry with
  | note text => exact h.elim
  | event e => rfl
  | occurrence o => cases o <;> first | rfl | exact h.elim

/-- Entering a link that only the second run has is nobody's turn. -/
theorem Alike.turn?_of_publishes (h : C.Alike N w w') {entry : Entry} (hentry : N.Publishes entry) :
    w'.turn? entry = none := by
  cases entry with
  | note text => exact hentry.elim
  | event e => rfl
  | occurrence o =>
    cases o with
    | entered r' position current arguments thread bindings =>
      have hlink : (w'.invocation r').chain.links[position]? = some Proxy.exposingLink := by
        obtain ⟨hidle, rfl⟩ | ⟨c, hc, rfl, hshift⟩ := hentry
        · rw [h.idle r' hidle]
          rfl
        · obtain ⟨k, hk⟩ := List.mem_iff_getElem?.mp hc
          exact (h.twins ⟨k⟩ c hk).links_front hshift
      simp [World.turn?, hlink]
    | _ => exact hentry.elim

theorem Alike.turn?_eq (h : C.Alike N w w') {entry entry' : Entry} (hentry : N.SameEntry entry entry') :
    w'.turn? entry' = w.turn? entry := by
  cases hentry with
  | note text => rfl
  | asked question targetClass => rfl
  | answered question verdict => rfl
  | matching hr position targetClass arguments =>
    have htwins := h.twins _ _ hr
    simp only [World.turn?, htwins.method, htwins.place]
  | skipped hr position =>
    have htwins := h.twins _ _ hr
    simp only [World.turn?, htwins.method, htwins.place]
  | entered hr position current current' arguments thread bindings bindings' =>
    have htwins := h.twins _ _ hr
    simp only [World.turn?, htwins.method, htwins.place, htwins.links]
  | reached hr this method arguments thread bindings bindings' => rfl

/-- Both journals tell the same turns. -/
theorem Alike.turns_eq (h : C.Alike N w w') :
    w'.turns C.before.length = w.turns C.before.length := by
  obtain ⟨gained, gained', hgained, hgained', htells⟩ := h.journal
  rw [World.turns, World.turns, hgained, hgained', List.drop_left, List.drop_left]
  clear hgained hgained'
  induction htells with
  | nil => rfl
  | both he _ ih => rw [List.filterMap_cons, List.filterMap_cons, h.turn?_eq he, ih]
  | left he _ ih => rw [List.filterMap_cons, turn?_of_backstage w he, ih]
  | right he _ ih =>
    have hnone := he.elim (turn?_of_backstage w') h.turn?_of_publishes
    rw [List.filterMap_cons, hnone, ih]

end Comparison

/-! ### Calls that start in one world -/

/-- Everything by its own name. -/
def World.names (w : World σ) : Naming where
  invocations := (List.range w.invocations.size).map fun k => ⟨⟨k⟩, 0⟩
  calls := (List.range w.calls).map CallId.mk
  idle := []
  distinct := by
    rw [List.append_nil, List.map_map]
    exact List.nodup_range.map fun _ _ h => congrArg Ref.index h
  calls_distinct := List.nodup_range.map fun _ _ h => congrArg CallId.number h

/-- Both runs start in the world, and the invocations that were made before are uniform. -/
structure Comparison.StartsAt (C : Comparison σ) (w : World σ) : Prop where
  base : C.base = w.names
  before : C.before = w.journal.toList
  state : C.same C.base w.state w.state
  calls : ∀ r : Ref, r.index < w.invocations.size → (w.invocation r).call.number < w.calls
  links : ∀ r : Ref, r.index < w.invocations.size → ∀ link ∈ (w.invocation r).chain.links, link.IsUniform C
  targets : ∀ r : Ref, r.index < w.invocations.size →
    Target.Like C C.base (w.invocation r).target (w.invocation r).target

theorem World.names_self {w : World σ} {r : Ref} {c : Counterpart} (h : w.names.Names r c) :
    r.index < w.invocations.size ∧ c = ⟨r, 0⟩ := by
  rw [Naming.Names, names, List.getElem?_map] at h
  obtain ⟨k, hk, rfl⟩ := Option.map_eq_some_iff.mp h
  obtain ⟨hlt, hget⟩ := List.getElem?_eq_some_iff.mp hk
  rw [List.getElem_range] at hget
  rw [List.length_range] at hlt
  exact ⟨hlt, by rw [← hget]⟩

theorem Comparison.StartsAt.alike {C : Comparison σ} {w : World σ} (h : C.StartsAt w) :
    C.Alike C.base w w where
  base := C.base.le_refl
  state := h.state
  size := by rw [h.base, World.names, List.length_map, List.length_range]
  calls := by rw [h.base, World.names, List.length_map, List.length_range]
  twins r c hr := by
    rw [h.base] at hr
    obtain ⟨hthere, rfl⟩ := World.names_self hr
    exact {
      call := by
        rw [h.base]
        simp [Naming.SameCall, World.names, h.calls r hthere]
      this := rfl
      method := rfl
      targetClass := rfl
      arguments := rfl
      attachments := rfl
      chain := rfl
      entered := rfl
      uniform := h.links r hthere
      target := h.targets r hthere }
  range r' hr' := by
    rw [h.base] at hr'
    simp only [Naming.others, World.names, List.append_nil, List.map_map, List.mem_map, List.mem_range] at hr'
    obtain ⟨k, hk, rfl⟩ := hr'
    exact hk
  idle r' hr' := by
    rw [h.base] at hr'
    cases hr'
  callRange c' hc' := by
    rw [h.base] at hc'
    simp only [World.names, List.mem_map, List.mem_range] at hc'
    obtain ⟨k, hk, rfl⟩ := hc'
    exact hk
  waiting := rfl
  journal := ⟨[], [], by rw [h.before, List.append_nil], by rw [h.before, List.append_nil], .nil⟩

/-! ### Calls to which no advice applies -/

def Ending.map {α β : Type} (f : α → β) : Ending α → Ending β
  | .finished a => .finished (f a)
  | .unwinding panic => .unwinding panic
  | .outOfDepth => .outOfDepth

/-- From the world `v` a call comes to one run of its target in the world `u`, with what is requested, and to
nothing else: nobody has had a turn before, the state and the other invocations are as they were, and the
result is returned, a failure as one of the target with its cause. -/
structure Target.RunsAlone (directory : Directory σ) (engine : Engine σ) (target : Target σ) (request : Request)
    (v u : World σ) (x : Ending Outcome × World σ) : Prop where
  state : u.state = v.state
  invocations : ∀ r : Ref, r.index < v.invocations.size → u.invocation r = v.invocation r
  turns : u.turns v.journal.size = [.reached request.this request.method request.arguments v.thread]
  ending : x.1 = ((target request.this request.method request.arguments).run directory engine u).1.map
    fun result => result.mapError .target
  after : ((target request.this request.method request.arguments).run directory engine u).2.Backstage x.2

theorem Target.run_eq (directory : Directory σ) (engine : Engine σ) (target : Target σ) (reached : Option Ref)
    (this : Value) (method : Method) (arguments : List Value) (w : World σ) :
    target.run directory engine reached this method arguments w =
      let y := (target this method arguments).run directory engine
        (w.record [.occurrence (.reached reached this method arguments w.thread w.bindings)])
      (y.1.map fun result => result.mapError .target, y.2) := by
  change Run.andThen ((target this method arguments).run directory engine)
    (fun result => Run.finish (result.mapError Failure.target)) _ = _
  simp only [Run.andThen]
  rcases (target this method arguments).run directory engine _ with ⟨result | panic | _, v⟩ <;> rfl

theorem World.turns_append (w v : World σ) {entries : List Entry}
    (h : w.journal.toList = v.journal.toList ++ entries) :
    w.turns v.journal.size = entries.filterMap w.turn? := by
  rw [World.turns, h, ← Array.length_toList, List.drop_left]

/-- Where the chain is empty, the target is called at once. -/
theorem Target.runsAlone_atOnce (directory : Directory σ) (engine : Engine σ) (target : Target σ)
    (request : Request) (v : World σ) :
    Target.RunsAlone directory engine target request v
      (v.record [.occurrence
        (.reached none request.this request.method request.arguments v.thread v.bindings)])
      (target.run directory engine none request.this request.method request.arguments v) := by
  rw [Target.run_eq]
  exact {
    state := rfl
    invocations := fun _ _ => rfl
    turns := by
      rw [World.turns_append _ v Array.toList_appendList]
      rfl
    ending := rfl
    after := .refl _ }

theorem World.upToTarget_invocation (w : World σ) (request : Request) (target : Target σ) {r : Ref}
    (hr : r.index < w.invocations.size) : (w.upToTarget request target).invocation r = w.invocation r := by
  have hother : (⟨w.invocations.size⟩ : Ref) ≠ r := fun h => Nat.ne_of_gt hr (congrArg Ref.index h)
  have hpublish : (w.upToTarget request target).invocation r =
      (w.startPublished request .empty target).invocation r := World.invocation_update_of_ne hother _
  rw [hpublish, World.startPublished_eq]
  exact World.invocation_push_of_lt (w := { w with calls := w.calls + 1 }) hr _

/-- Until the target is run, the journal tells of nothing but the publishing link. -/
theorem World.upToTarget_journal (w : World σ) (request : Request) (target : Target σ) :
    ∃ first last : List Entry, ∃ current arguments thread bindings,
      (w.upToTarget request target).journal.toList = w.journal.toList ++ (first ++
        .occurrence (.entered ⟨w.invocations.size⟩ 0 current arguments thread bindings) :: last) ∧
      (∀ entry ∈ first, entry.IsBackstage) ∧ ∀ entry ∈ last, entry.IsBackstage := by
  let r : Ref := ⟨w.invocations.size⟩
  let v := ((w.withPublished request .empty target).record [.occurrence (.proceeding r)]).record
    [.event (.entering ⟨w.calls⟩ 0)]
  have hbefore : (w.withPublished request .empty target).Backstage v :=
    (World.backstage_entry _ (by trivial)).trans (World.backstage_entry _ (by trivial))
  obtain ⟨first, hfirst, hfirst'⟩ := hbefore.journal
  obtain ⟨last, hlast, hlast'⟩ := (w.backstage_upToTarget request target).journal
  have hentered : (w.startPublished request .empty target).journal.toList = v.journal.toList ++
      [.occurrence (.entered r 0 (v.invocation r).position (v.invocation r).arguments v.thread v.bindings)] := by
    rw [startPublished_eq]
    exact Array.toList_appendList
  refine ⟨first, last, (v.invocation r).position, (v.invocation r).arguments, v.thread, v.bindings, ?_, hfirst',
    hlast'⟩
  rw [hlast, hentered, hfirst, List.append_assoc, List.append_assoc]
  rfl

/-- Where the chain holds the publishing link alone, the target is called behind it. -/
theorem Target.runsAlone_published (directory : Directory σ) (depth : Nat) (target : Target σ)
    (request : Request) (v : World σ) :
    ∃ u, Target.RunsAlone directory (Engine.ofDepth directory depth) target request v u
      ((Engine.ofDepth directory (depth + 2)).dispatch directory
        (Chain.empty.prepend Proxy.exposingLink) request target v) := by
  let r : Ref := ⟨v.invocations.size⟩
  let u := (v.upToTarget request target).record [.occurrence (.reached (some r) request.this request.method
    request.arguments (v.upToTarget request target).thread (v.upToTarget request target).bindings)]
  let y := (target request.this request.method request.arguments).run directory
    (Engine.ofDepth directory depth) u
  let ended : Ending Outcome × World σ := (y.1.map fun result => result.mapError .target, y.2)
  have hruns : Engine.ofDepth directory (depth + 1) (.proceed r)
      ((v.startPublished request .empty target).publish r) = ended := by
    rw [Engine.ofDepth_empty, Target.run_eq]
  have hcall : (Engine.ofDepth directory (depth + 2)).dispatch directory
      (Chain.empty.prepend Proxy.exposingLink) request target v =
        (ended.1, (v.startPublished request .empty target).withdraw r ended) := by
    rw [Engine.dispatch_published, Engine.expose_eq, hruns]
  rw [hcall]
  refine ⟨u, {
    state := (v.backstage_upToTarget request target).state
    invocations := fun s hs => v.upToTarget_invocation request target hs
    turns := ?_
    ending := rfl
    after := World.backstage_withdraw _ r ended }⟩
  obtain ⟨first, last, current, arguments, thread, bindings, hjournal, hfirst, hlast⟩ :=
    v.upToTarget_journal request target
  have hself : (u.invocation r).chain.links = [Proxy.exposingLink] := by
    obtain ⟨exposedAt, hself⟩ := v.invocation_published request .empty target
    exact congrArg (fun i : Invocation σ => i.chain.links) hself
  have hgained : u.journal.toList = v.journal.toList ++ (first ++
      .occurrence (.entered r 0 current arguments thread bindings) :: last ++
        [.occurrence (.reached (some r) request.this request.method request.arguments
          (v.upToTarget request target).thread (v.upToTarget request target).bindings)]) := by
    rw [← List.append_assoc, ← hjournal]
    exact Array.toList_appendList
  have hnone : ∀ entries : List Entry, (∀ entry ∈ entries, entry.IsBackstage) →
      entries.filterMap u.turn? = [] := fun entries hentries =>
    List.filterMap_eq_nil_iff.mpr fun entry hentry => Comparison.turn?_of_backstage u (hentries entry hentry)
  have hentered : u.turn? (.occurrence (.entered r 0 current arguments thread bindings)) = none := by
    simp [World.turn?, hself]
  rw [World.turns_append _ v hgained, List.filterMap_append, List.filterMap_append, List.filterMap_cons,
    hentered, hnone first hfirst, hnone last hlast]
  rfl

theorem Engine.call_of_empty {directory : Directory σ} {engine : Engine σ} {p : Proxy σ} {request : Request}
    {target : Target σ} {w : World σ}
    (hempty : (p.resolve request.method request.targetClass w.state).result = .ok (.ok .empty)) :
    engine.call directory p request target w = engine.dispatch directory (p.assembled .empty) request target
      (w.consult (p.resolve request.method request.targetClass)).2 := by
  have hconsult : w.consult (p.resolve request.method request.targetClass) =
      (.ok (.ok .empty), (w.consult (p.resolve request.method request.targetClass)).2) :=
    Prod.ext hempty rfl
  rw [Engine.call_eq, hconsult]

/-- **Nobody observes whether calls are published.** A call is made through a proxy that publishes its calls and
through one that does not, and so are the calls nested in it, in a world in which other calls may be under
way. If all code treats identities as names, looks neither at positions nor at chains, and leaves the
bindings alone, both runs end in the same way, the callbacks have the same turns with the same arguments,
and the worlds are alike; neither run has to be known to come to an end. Where no advice applies, whatever
code there is, the call is one run of the target in both, at once or behind the publishing link, and a
failure of the target is returned as such, with its cause. -/
theorem Proxy.publication_unobserved {C : Comparison σ} {w : World σ} (hstart : C.StartsAt w)
    {directory directory' : Directory σ} (hdirectory : directory.Shows C directory') {proxy : Proxy σ}
    (hproxy : proxy.IsUniform C) (request : Request) {target : Target σ}
    (htarget : Target.Like C C.base target target) (depth depth' : Nat) :
    let x := Engine.ofDepth directory depth (.call (proxy.exposing false) request target) w
    let x' := Engine.ofDepth directory' depth' (.call (proxy.exposing true) request target) w
    (3 * depth ≤ depth' ∧ x.1 ≠ .outOfDepth ∨ depth' ≤ depth ∧ x'.1 ≠ .outOfDepth →
      x'.1 = x.1 ∧ x'.2.turns w.journal.size = x.2.turns w.journal.size ∧ ∃ N, C.Alike N x.2 x'.2) ∧
    ((proxy.resolve request.method request.targetClass w.state).result = .ok (.ok .empty) →
      let v := (w.consult (proxy.resolve request.method request.targetClass)).2
      let engine := Engine.ofDepth directory depth
      (∃ u, Target.RunsAlone directory engine target request v u
        (Engine.ofDepth directory (depth + 1) (.call (proxy.exposing false) request target) w)) ∧
      ∃ u, Target.RunsAlone directory engine target request v u
        (Engine.ofDepth directory (depth + 3) (.call (proxy.exposing true) request target) w)) := by
  intro x x'
  refine ⟨fun hdepth => ?_, fun hempty => ?_⟩
  · have hsame : ∀ longer, Comparison.Enough longer depth depth' → C.Matches longer C.base Kin.plain x x' :=
      fun longer henough => (Comparison.follows_ofDepth hdirectory depth depth' henough).call C.base _ _ request
        target target (.published proxy) ⟨hproxy.resolving, hproxy.chains⟩ htarget w w hstart.alike
    have hends : ∃ N, C.base ≤ N ∧ x.1.Akin Eq x'.1 ∧ C.Alike N x.2 x'.2 ∧ True := by
      obtain ⟨henough, hends⟩ | ⟨henough, hends⟩ := hdepth
      · exact hsame false henough (mt Comparison.spares_iff.mp hends)
      · exact hsame true henough (mt Comparison.spares_iff.mp hends)
    obtain ⟨N, _, hending, halike, -⟩ := hends
    have hturns := halike.turns_eq
    rw [hstart.before, Array.length_toList] at hturns
    exact ⟨Ending.akin_eq_iff.mp hending, hturns, N, halike⟩
  · intro v engine
    have hoff : Engine.ofDepth directory (depth + 1) (.call (proxy.exposing false) request target) w =
        target.run directory engine none request.this request.method request.arguments v :=
      Engine.call_of_empty (p := proxy.exposing false) hempty
    have hon : Engine.ofDepth directory (depth + 3) (.call (proxy.exposing true) request target) w =
        (Engine.ofDepth directory (depth + 2)).dispatch directory (Chain.empty.prepend Proxy.exposingLink)
          request target v :=
      Engine.call_of_empty (p := proxy.exposing true) hempty
    rw [hoff, hon]
    exact ⟨⟨_, Target.runsAlone_atOnce directory engine target request v⟩,
      Target.runsAlone_published directory depth target request v⟩

/-! ### A call that is repeated and calls another one -/

/-- Around advice that first tries the call on a fork with another argument. -/
def retrying : Interceptor Nat where
  serial := some 0
  behaviour := .around fun r => do
    let copy ← Program.forkWith r [.int32 2]
    let _ ← Program.proceed copy
    Program.proceed r

/-- A target that counts how often it is run, and fails. -/
def failing : Target Nat := fun _ _ _ => do
  Program.modify (· + 1)
  pure (.error (.text "closed"))

/-- A target that makes a call of its own, through a proxy without advice. -/
def relaying : Target Nat := fun _ _ _ => do
  let _ ← Program.invoke "inner" { this := .unit, method := default } failing
  pure (.ok .unit)

def advised : Proxy Nat where
  config := {}
  advisors := [.always (.around retrying)]

def bare : Proxy Nat where
  config := {}

/-- The proxy without advice, by its name, with its calls published or not. -/
def relayed (on : Bool) : Directory Nat := fun name => if name = "inner" then some (bare.exposing on) else none

theorem publication_unobserved_retrying :
    let w : World Nat := { state := 0 }
    let C : Comparison Nat := ⟨w.names, fun _ s s' => s = s', fun _ h => h, []⟩
    let request : Request := { this := .unit, method := default, arguments := [.int32 1] }
    let x := Engine.ofDepth (relayed false) 6 (.call (advised.exposing false) request relaying) w
    let x' := Engine.ofDepth (relayed true) 18 (.call (advised.exposing true) request relaying) w
    let v := (w.consult (bare.resolve request.method request.targetClass)).2
    let y' := Engine.ofDepth (relayed false) 4 (.call (bare.exposing true) request failing) w
    (x.1 ≠ .outOfDepth ∧ x.2.state = 2 ∧ x.2.invocations.size = 2 ∧ x'.2.invocations.size = 4 ∧
      (x.2.turns 0).length = 9) ∧
      (x'.1 = x.1 ∧ x'.2.turns 0 = x.2.turns 0 ∧ ∃ N, C.Alike N x.2 x'.2) ∧
      ∃ u, Target.RunsAlone (relayed false) (Engine.ofDepth (relayed false) 1) failing request v u y' := by
  intro w C request x x' v y'
  have hanything : ∀ {ω α : Type} (q : Consultation Nat ω α), q.IsUniform C := fun q =>
    Consultation.isUniform_of_eq (fun _ _ _ => Iff.rfl) q
  have hstart : C.StartsAt w := {
    base := rfl
    before := rfl
    state := rfl
    calls := fun _ hr => absurd hr (Nat.not_lt_zero _)
    links := fun _ hr => absurd hr (Nat.not_lt_zero _)
    targets := fun _ hr => absurd hr (Nat.not_lt_zero _) }
  have hbase : ∀ N, C.base ≤ N := fun _ => ⟨List.nil_prefix, List.nil_prefix, List.nil_prefix⟩
  have hfailing : ∀ N, Target.Like C N failing failing := fun _ N' _ _ _ _ =>
    .andThen (P := Kin.plain) (.consult (hanything _ N' (hbase N'))) fun _ _ _ _ _ => .done rfl
  have hrelaying : Target.Like C C.base relaying relaying := fun N' _ _ _ _ =>
    .andThen (.invoke "inner" _ (hfailing N')) fun _ _ _ _ _ => .done rfl
  have hretrying : retrying.behaviour.IsUniform C := fun N r r' _ hr =>
    .andThen (P := Kin.ref)
      (.andThen (.fork hr) fun _ _ _ _ hcopy => .andThen (.setArguments hcopy _)
        fun _ _ _ hle _ => .done (hcopy.mono hle))
      fun _ _ _ hle hcopy => .andThen (.proceed hcopy)
        fun _ _ _ hle' _ => .proceed ((hr.mono hle).mono hle')
  have hadvised : advised.IsUniform C := by
    refine Proxy.isUniform_of_advisors ?_ ?_
    · exact List.forall_mem_singleton.mpr
        ⟨fun _ => hanything _, ⟨fun _ _ => hanything _, fun _ _ _ => hanything _⟩⟩
    · exact List.forall_mem_singleton.mpr (List.forall_mem_singleton.mpr hretrying)
  have hbare : bare.IsUniform C :=
    Proxy.isUniform_of_advisors (fun _ h => absurd h List.not_mem_nil) fun _ h => absurd h List.not_mem_nil
  have hdirectory : (relayed false).Shows C (relayed true) := by
    intro name
    simp only [relayed]
    split
    · exact ⟨.some (.published bare), fun _ hproxy =>
        Option.some.inj hproxy ▸ ⟨hbare.resolving, hbare.chains⟩⟩
    · exact ⟨.none, nofun⟩
  have hends : x.1 ≠ .outOfDepth := by
    intro hout
    have hcheck : (match x.1 with | .outOfDepth => false | _ => true) = true := by decide +kernel
    rw [hout] at hcheck
    cases hcheck
  refine ⟨⟨hends, by decide +kernel, by decide +kernel, by decide +kernel, by decide +kernel⟩, ?_, ?_⟩
  · exact (Proxy.publication_unobserved hstart hdirectory hadvised request hrelaying 6 18).1
      (.inl ⟨by decide, hends⟩)
  · exact ((Proxy.publication_unobserved hstart hdirectory hbare request (hfailing _) 1 3).2 rfl).2

end Interception
