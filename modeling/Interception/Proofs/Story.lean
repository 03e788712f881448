import Interception.Proofs.Accounts

/-! Stories: what is done to the bindings of the threads while a run goes on, told one deed after
another, each with the world of that moment. Bindings are made and released by frames that publish an
invocation and by callbacks, by hand; a story also tells when callbacks begin to run and when they end,
so that it can be seen which of them a guard belongs to. A story does not tell what is bound: that is
left to be read off. -/

namespace Interception

universe u

variable {σ α β : Type}

/-- What is done at one moment. -/
inductive Deed where
  /-- A callback begins to run. -/
  | begun
  /-- The callback that began last, of those that still run, ends: it returns, fails or unwinds. -/
  | ended
  /-- A callback binds a join point by hand. -/
  | bound (guard : Guard) (point : JoinPoint)
  | dropped (guard : Guard)
  /-- An invocation is published. -/
  | published (invocation : Ref) (point : JoinPoint)
  /-- The publication of an invocation ends. -/
  | withdrawn (invocation : Ref)
  /-- The slot is given another picture. -/
  | redrawn (slot : Nat) (point : JoinPoint)
  /-- A thread is started, and the running one waits for it. -/
  | descended
  /-- The running thread ends, and the one that waits for it goes on. -/
  | ascended
  /-- Something is done that concerns no binding. -/
  | other

/-- What a run does, from the world in which it begins. -/
abbrev Story (σ : Type) := World σ → List (Deed × World σ)

namespace Story

/-- Nothing is done. -/
def silent : Story σ := fun _ => []

/-- The run concerns no binding. -/
def aside (p : Run σ α) : Story σ := fun w => [(.other, (p w).2)]

/-- The story of a first part, whose run is given, and then that of what follows on its answer. -/
def andThen (s : Story σ) (p : Run σ α) (next : α → Story σ) : Story σ := fun w =>
  s w ++ match p w with
    | (.finished a, v) => next a v
    | _ => []

/-- The story between two deeds. -/
def within (opening : World σ → Deed × World σ) (s : Story σ) (closing : World σ → Deed × World σ) :
    Story σ := fun w =>
  opening w :: s (opening w).2 ++ [closing w]

/-- The story of a callback. -/
def callback (s : Story σ) (p : Run σ α) : Story σ :=
  within (fun w => (.begun, w)) s fun w => (.ended, (p w).2)

def publishing (r : Ref) (s : Story σ) (p : Run σ Outcome) : Story σ :=
  within (fun w => (.published r (w.invocation r).joinPoint, w.publish r)) s
    fun w => (.withdrawn r, w.withdraw r (p (w.publish r)))

def withBinding (point : JoinPoint) (s : Story σ) (p : Run σ α) : Story σ :=
  within (fun w => (.bound ⟨w.bindings.depth⟩ point, (w.bind none point).2)) s
    fun w => (.dropped ⟨w.bindings.depth⟩, (Run.withBinding point p w).2)

/-- What is done on a thread of its own is a callback of its own. -/
def onThread (s : Story σ) (p : Run σ α) : Story σ :=
  within (fun w => (.descended, w.descend)) (callback s p) fun w => (.ascended, (Run.onThread p w).2)

end Story

/-- What an operation does to bindings. -/
def Operation.deed (w : World σ) : {α : Type} → Operation α → Deed
  | _, .bind point => .bound ⟨w.bindings.depth⟩ point
  | _, .release guard => .dropped guard
  | _, .setArguments r arguments =>
    let i := (w.update r fun i => { i with arguments }).invocation r
    match i.exposedAt with
    | some slot => .redrawn slot i.joinPoint
    | none => .other
  | _, _ => .other

section Stories

variable (directory : Directory σ) (engine : Engine σ) (told : Activation σ → Story σ)

def Program.story : {α : Type} → Program σ α → Story σ
  | _, .done _ => .silent
  | _, .andThen first next =>
    .andThen first.story (first.run directory engine) fun a => (next a).story
  | _, .consult q => .aside (Run.consult q)
  | _, .perform op => fun w => [(op.deed w, (w.apply op).2)]
  | _, .proceed r => told (.proceed r)
  | _, .expose r => .publishing r (told (.proceed r)) (engine (.proceed r))
  | _, .invoke name request target =>
    match directory name with
    | none => .silent
    | some proxy => told (.call proxy request target)
  | _, .withBinding point body => .withBinding point body.story (body.run directory engine)
  | _, .catching body => body.story
  | _, .onThread body => .onThread body.story (body.run directory engine)

/-- The story of a program as a callback. -/
def Program.callback (p : Program σ α) : Story σ :=
  .callback (p.story directory engine told) (p.run directory engine)

def Behaviour.story (r : Ref) : Behaviour σ → Story σ
  | .around body => (body r).callback directory engine told
  | .before advice => fun w =>
    let i := w.invocation r
    let p := advice i.method i.arguments i.this
    Story.andThen (p.callback directory engine told) (p.run directory engine) (fun
      | .error _ => .silent
      | .ok () => told (.proceed r)) w
  | .afterReturning advice =>
    .andThen (told (.proceed r)) (engine (.proceed r)) fun
      | .error _ => .silent
      | .ok returned => fun w =>
        let i := w.invocation r
        (advice returned i.method i.arguments i.this).callback directory engine told w
  | .afterThrowing advice =>
    .andThen (told (.proceed r)) (engine (.proceed r)) fun
      | .ok _ => .silent
      | .error failure =>
        .andThen (.aside (Run.consult (advice.handles failure))) (Run.consult (advice.handles failure))
          fun handled =>
            if handled then fun w =>
              let report : Run σ Unit := Run.report (.handlingFailure (w.invocation r).call failure)
              Story.andThen (.aside report) report
                (fun () => (advice.afterThrowing r failure).callback directory engine told) w
            else .silent
  | .instrumented label =>
    .andThen (told (.proceed r)) (engine (.proceed r)) fun outcome w =>
      Story.aside (Run.report (match outcome with
        | .ok _ => .completed (w.invocation r).call (w.invocation r).method label
        | .error failure =>
          .failed (w.invocation r).call (w.invocation r).method label failure)) w
  | .exposing => .publishing r (told (.proceed r)) (engine (.proceed r))

def Stop.story (r : Ref) : Stop σ → Story σ
  | .entered _ _ behaviour => behaviour.story directory engine told r
  | .reached => fun w =>
    let i := w.invocation r
    (i.target i.this i.method i.arguments).callback directory engine told w
  | .unwound _ => .silent

/-- What the invocation does by itself, up to where other code is run, concerns no binding. -/
def Story.proceed (r : Ref) : Story σ := fun w =>
  let (_, stop, w) := w.advance r
  (.other, w) :: stop.story directory engine told r w

def Story.call (proxy : Proxy σ) (request : Request) (target : Target σ) : Story σ := fun w =>
  let (resolved, w) := w.consult (proxy.chainFor request.method request.targetClass)
  (.other, w) ::
    match resolved with
    | .error _ | .ok (.error _) => []
    | .ok (.ok chain) =>
      if chain.isEmpty then
        let w := w.record [.occurrence
          (.reached none request.this request.method request.arguments w.thread w.bindings)]
        (.other, w) ::
          (target request.this request.method request.arguments).callback directory engine told w
      else
        let (r, w) := w.start request chain target
        (.other, w) :: told (.proceed r) w

end Stories

/-- The story of what is asked for, with calls nested at most so deep. -/
def Engine.stories (directory : Directory σ) : Nat → Activation σ → Story σ
  | 0, _ => .silent
  | depth + 1, .proceed r =>
    .proceed directory (Engine.ofDepth directory depth) (Engine.stories directory depth) r
  | depth + 1, .call proxy request target =>
    .call directory (Engine.ofDepth directory depth) (Engine.stories directory depth) proxy request target

/-! ### Stories are told to the end -/

/-- The world of the last moment, where there is one. -/
def World.atEnd (w : World σ) : List (Deed × World σ) → World σ
  | [] => w
  | (_, v) :: rest => v.atEnd rest

theorem World.atEnd_append (w : World σ) (first second : List (Deed × World σ)) :
    w.atEnd (first ++ second) = (w.atEnd first).atEnd second := by
  induction first generalizing w with
  | nil => rfl
  | cons moment rest ih => exact ih moment.2

/-- The story ends in the world in which the run ends. -/
def Story.Tells (s : Story σ) (p : Run σ α) : Prop := ∀ w, w.atEnd (s w) = (p w).2

namespace Story

variable {s : Story σ} {p : Run σ α}

theorem Tells.andThen {k : α → Run σ β} {next : α → Story σ} (hs : s.Tells p)
    (hk : ∀ a, (next a).Tells (k a)) : (s.andThen p next).Tells (p.andThen k) := by
  intro w
  have hfirst := hs w
  simp only [Story.andThen, Run.andThen]
  rw [World.atEnd_append, hfirst]
  rcases p w with ⟨a | panic | _, v⟩
  · exact hk a v
  · rfl
  · rfl

/-- What is left to do changes nothing. -/
theorem Tells.map {k : α → Run σ β} (hs : s.Tells p) (hk : ∀ a w, (k a w).2 = w) :
    s.Tells (p.andThen k) := by
  intro w
  rw [hs w, Run.andThen]
  rcases p w with ⟨a | panic | _, v⟩
  · exact (hk a v).symm
  · rfl
  · rfl

theorem tells_within {opening closing : World σ → Deed × World σ} (h : ∀ w, (closing w).2 = (p w).2) :
    (within opening s closing).Tells p := by
  intro w
  rw [within, List.cons_append, World.atEnd, World.atEnd_append, ← h w]
  rfl

theorem tells_publishing (engine : Engine σ) (r : Ref) :
    (publishing r s (engine (.proceed r))).Tells (engine.expose r) := by
  refine tells_within fun w => ?_
  change World.withdraw w r (engine (.proceed r) (w.publish r)) = _
  rw [Engine.expose_eq]

end Story

section Stories

open Story (Tells)

variable {directory : Directory σ} {engine : Engine σ} {told : Activation σ → Story σ}

theorem Program.tells_callback (p : Program σ α) :
    (p.callback directory engine told).Tells (p.run directory engine) :=
  Story.tells_within fun _ => rfl

theorem Program.tells_story (h : ∀ a, (told a).Tells (engine a)) (p : Program σ α) :
    (p.story directory engine told).Tells (p.run directory engine) := by
  induction p with
  | done a => exact fun _ => rfl
  | andThen first next ihfirst ihnext => exact ihfirst.andThen ihnext
  | consult q => exact fun _ => rfl
  | perform op => exact fun _ => rfl
  | proceed r => exact h (.proceed r)
  | expose r => exact Story.tells_publishing engine r
  | invoke name request target =>
    simp only [story, run]
    cases directory name with
    | none => exact fun _ => rfl
    | some proxy => exact (h (.call proxy request target)).map fun _ _ => rfl
  | withBinding point body ih => exact Story.tells_within fun _ => rfl
  | catching body ih =>
    intro w
    refine (ih w).trans ?_
    simp only [run, Run.catching]
    rcases body.run directory engine w with ⟨_ | _ | _, v⟩ <;> rfl
  | onThread body ih => exact Story.tells_within fun _ => rfl

theorem Behaviour.tells_story (h : ∀ a, (told a).Tells (engine a)) (r : Ref) (b : Behaviour σ) :
    (b.story directory engine told r).Tells (b.run directory engine r) := by
  have hproceed := h (.proceed r)
  cases b with
  | around body => exact Program.tells_callback (body r)
  | before advice =>
    intro w
    let i := w.invocation r
    refine (Program.tells_callback (advice i.method i.arguments i.this)).andThen (fun result => ?_) w
    cases result with
    | error failure => exact fun _ => rfl
    | ok _ => exact hproceed
  | afterReturning advice =>
    refine hproceed.andThen fun outcome => ?_
    cases outcome with
    | error failure => exact fun _ => rfl
    | ok returned =>
      intro w
      let i := w.invocation r
      exact (Program.tells_callback (advice returned i.method i.arguments i.this)).map
        (fun _ _ => rfl) w
  | afterThrowing advice =>
    refine hproceed.andThen fun outcome => ?_
    cases outcome with
    | ok returned => exact fun _ => rfl
    | error failure =>
      refine Tells.andThen (fun _ => rfl) fun handled => ?_
      cases handled with
      | false => exact fun _ => rfl
      | true =>
        intro w
        let report : Run σ Unit := Run.report (.handlingFailure (w.invocation r).call failure)
        have hreport : (Story.aside report).Tells report := fun _ => rfl
        have hadvice : ((advice.afterThrowing r failure).callback directory engine told).Tells
            (((advice.afterThrowing r failure).run directory engine).andThen fun result =>
              Run.finish (result.bind fun () => (.error failure : Outcome))) :=
          (Program.tells_callback _).map fun _ _ => rfl
        exact hreport.andThen (fun _ => hadvice) w
  | instrumented label =>
    refine hproceed.andThen fun outcome w => ?_
    cases outcome <;> rfl
  | exposing => exact Story.tells_publishing engine r

theorem Stop.tells_story (h : ∀ a, (told a).Tells (engine a)) (r : Ref) (stop : Stop σ) :
    (stop.story directory engine told r).Tells (stop.run directory engine r) := by
  cases stop with
  | entered position current behaviour => exact behaviour.tells_story h r
  | reached =>
    intro w
    let i := w.invocation r
    exact (Program.tells_callback (i.target i.this i.method i.arguments)).map (fun _ _ => rfl) w
  | unwound panic => exact fun _ => rfl

theorem Story.tells_proceed (h : ∀ a, (told a).Tells (engine a)) (r : Ref) :
    (Story.proceed directory engine told r).Tells (engine.proceed directory r) := by
  intro w
  rw [Engine.proceed_eq]
  exact (w.advance r).2.1.tells_story h r (w.advance r).2.2

theorem Story.tells_call (h : ∀ a, (told a).Tells (engine a)) (proxy : Proxy σ) (request : Request)
    (target : Target σ) :
    (Story.call directory engine told proxy request target).Tells
      (engine.call directory proxy request target) := by
  intro w
  rw [Engine.call, Run.inquire_eq]
  simp only [Story.call]
  rcases w.consult (proxy.chainFor request.method request.targetClass) with ⟨panic | e | chain, v⟩
  · rfl
  · rfl
  · cases hempty : chain.isEmpty with
    | false =>
      dsimp only
      rw [hempty]
      exact h (.proceed (v.start request chain target).1) (v.start request chain target).2
    | true =>
      dsimp only
      rw [hempty]
      have htarget : ((target request.this request.method request.arguments).callback directory engine
          told).Tells (((target request.this request.method request.arguments).run directory
            engine).andThen fun result => Run.finish (result.mapError .target : Outcome)) :=
        (Program.tells_callback _).map fun _ _ => rfl
      exact htarget _

/-- **Stories are told to the end.** -/
theorem Engine.tells_stories (directory : Directory σ) (depth : Nat) (a : Activation σ) :
    (Engine.stories directory depth a).Tells (Engine.ofDepth directory depth a) := by
  induction depth generalizing a with
  | zero => exact fun _ => rfl
  | succ depth ih =>
    cases a with
    | proceed r => exact Story.tells_proceed ih r
    | call proxy request target => exact Story.tells_call ih proxy request target

end Stories

end Interception
