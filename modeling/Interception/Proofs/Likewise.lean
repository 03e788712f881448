import Interception.Proofs.Counterpart

/-! Doing likewise. Two runs from worlds that are alike do likewise when they end in the same way, in worlds
that are alike under the names there are by then. Programs that are alike do likewise, and so do behaviour
and walks along chains, if what they ask of the engine does. -/

namespace Interception

variable {σ α : Type}

/-- Each proxy of the second directory is that of the first one, except that it may publish its calls. -/
def Directory.Shows (C : Comparison σ) (directory directory' : Directory σ) : Prop :=
  ∀ name, Option.Rel Proxy.Shows (directory name) (directory' name) ∧
    ∀ proxy, directory name = some proxy → proxy.IsUniform C

namespace Comparison

open Simulation Coupling

variable (C : Comparison σ) (longer : Bool)

/-- Runs from worlds that differ in names. The names that there are by then are the stages. -/
def coupling : Coupling σ Naming where
  lead := some longer
  Later N N' := N ≤ N'
  refl := Naming.le_refl
  trans := Naming.le_trans
  Alike := C.Alike
  Seen _ _ := True
  seen_nil := trivial
  seen_append _ _ := trivial
  backstage := Alike.backstage
  descend := Alike.descend
  ascend := Alike.ascend

/-- What two runs have come to matches, if the one that leads has not run out of depth. -/
abbrev Matches (N : Naming) (Q : Kin α) (x x' : Ending α × World σ) : Prop :=
  (C.coupling longer).toSimulation.Matches N Q (x, []) (x', [])

/-- From worlds that are alike the runs come to what matches. -/
abbrev Mimics (N : Naming) (Q : Kin α) (p p' : Run σ α) : Prop :=
  (C.coupling longer).toSimulation.Mimics N Q p p'

variable {C longer} {N N' : Naming} {w w' v v' : World σ} {r r' : Ref} {c : Counterpart}

/-- Nothing is said where the run that leads has run out of depth. -/
theorem spares_iff {e e' : Ending α} :
    (C.coupling longer).Spares e e' ↔ leading longer e e' = .outOfDepth :=
  ⟨fun ⟨_, hlead, hout⟩ => Option.some.inj hlead ▸ hout, fun hout => ⟨longer, rfl, hout⟩⟩

theorem mimics_plain (a : α) : C.Mimics longer N Kin.plain (Run.finish a) (Run.finish a) :=
  mimics_finish rfl

theorem mimics_read (hr : N.SameRef r r') (facet : Facet α) (hfacet : facet.IsBlind) :
    C.Mimics longer N (fun N => facet.kin N) (Run.read r facet) (Run.read r' facet) := by
  intro w w' h
  obtain ⟨shift, hnames⟩ := hr
  exact matches_finished h N.le_refl ((h.twins r _ hnames).read hfacet)

theorem reads_of_sameRef (hr : N.SameRef r r') : (C.coupling longer).Reads N r r' where
  call := (mimics_read hr .call trivial).weaken fun _ _ _ _ _ => trivial
  this := mimics_read hr .this trivial
  method := mimics_read hr .method trivial
  targetClass := mimics_read hr .targetClass trivial
  arguments := mimics_read hr .arguments trivial

theorem mimics_entry {entry entry' : Entry} (he : N.SameEntry entry entry') :
    C.Mimics longer N Kin.plain (Run.record entry) (Run.record entry') :=
  mimics_record (K := C.coupling longer) fun _ _ h => Alike.entry h he

theorem mimics_step (hr : N.Names r c) : C.Mimics longer N Kin.plain (Run.step r) (Run.step c.ref) :=
  fun _ _ h => matches_finished (Alike.stepOver h hr) N.le_refl rfl

theorem mimics_enter (hr : N.Names r c) (position : Nat) :
    C.Mimics longer N Kin.plain (Run.enter r position) (Run.enter c.ref (position + c.shift)) := by
  intro w w' h
  have htwins := h.twins r c hr
  have hentry : N.SameEntry
      (.occurrence (.entered r position (w.invocation r).position (w.invocation r).arguments w.thread w.bindings))
      (.occurrence (.entered c.ref (position + c.shift) (w'.invocation c.ref).position
        (w'.invocation c.ref).arguments w'.thread w'.bindings)) := by
    rw [htwins.arguments, h.thread]
    exact .entered hr _ _ _ _ _ _ _
  exact matches_finished (h.entry hentry) N.le_refl rfl

theorem mimics_like {Q : Kin α} {q q' : Query σ α} (hq : q.Like C N (Q N) q') :
    C.Mimics longer N Q (Run.consult q) (Run.consult q') := by
  refine Simulation.mimics_consult fun w w' h => ?_
  have hnotes : (Inquiry.consult q).Like C N (Q N) (Inquiry.consult q') := fun s s' hs =>
    ⟨(hq s s' hs).1, congrArg (List.map Entry.note) (hq s s' hs).2.1, (hq s s' hs).2.2⟩
  exact Alike.consult h hnotes (Inquiry.writes_consult q fun _ => trivial)

theorem mimics_uniform {q : Query σ α} (hq : q.IsUniform C) :
    C.Mimics longer N Kin.plain (Run.consult q) (Run.consult q) := by
  intro w w' h
  have hlike : q.Like C N (Kin.plain N) q := hq N h.base
  exact mimics_like hlike w w' h

/-! ### Programs -/

theorem mimics_fork (hr : N.SameRef r r') {directory directory' : Directory σ} {engine engine' : Engine σ} :
    C.Mimics longer N Kin.ref ((Program.fork r).run directory engine)
      ((Program.fork r').run directory' engine') := by
  intro w w' h
  obtain ⟨shift, hnames⟩ := hr
  obtain ⟨N', hle, hcopy, hthen⟩ := h.push (h.twins r _ hnames)
  exact matches_finished hthen hle ⟨shift, hcopy⟩

/-- What the two engines are asked for from worlds that are alike. -/
structure Follows (C : Comparison σ) (longer : Bool) (engine engine' : Engine σ) : Prop where
  proceed : ∀ N r r', N.SameRef r r' →
    C.Mimics longer N Kin.plain (engine (.proceed r)) (engine' (.proceed r'))
  call : ∀ N proxy proxy' request target target', proxy.Shows proxy' → proxy.IsUniform C →
    Target.Like C N target target' →
      C.Mimics longer N Kin.plain (engine (.call proxy request target)) (engine' (.call proxy' request target'))

variable {directory directory' : Directory σ} {engine engine' : Engine σ}

theorem Follows.program (h : C.Follows longer engine engine') (hdirectory : directory.Shows C directory')
    {Q : Kin α} {p p' : Program σ α} (hp : Program.Like C N Q p p') :
    C.Mimics longer N Q (p.run directory engine) (p'.run directory' engine') := by
  induction hp with
  | done ha => exact mimics_finish ha
  | andThen _ _ ihfirst ihnext => exact ihfirst.andThen ihnext
  | consult hq => exact mimics_like hq
  | read hr hfacet => exact mimics_read hr _ hfacet
  | fork hr => exact mimics_fork hr
  | setArguments hr arguments =>
    intro w w' halike
    obtain ⟨shift, hnames⟩ := hr
    exact matches_finished (halike.setArguments hnames arguments) (Naming.le_refl _) rfl
  | setAttribute hr key value =>
    intro w w' halike
    obtain ⟨shift, hnames⟩ := hr
    have htwins := halike.twins _ _ hnames
    exact matches_finished (halike.setAttribute hnames key value) (Naming.le_refl _)
      (congrArg (List.lookup key) htwins.attachments).symm
  | proceed hr => exact h.proceed _ _ _ hr
  | expose hr => exact mimics_expose (h.proceed _ _ _ hr)
  | @invoke N name request target target' htarget _ =>
    obtain ⟨hshows, huniform⟩ := hdirectory name
    rw [Program.run, Program.run]
    cases hproxy : directory name with
    | none =>
      rw [hproxy] at hshows
      cases hproxy' : directory' name with
      | none => exact mimics_plain none
      | some proxy' =>
        rw [hproxy'] at hshows
        cases hshows
    | some proxy =>
      rw [hproxy] at hshows
      cases hproxy' : directory' name with
      | none =>
        rw [hproxy'] at hshows
        cases hshows
      | some proxy' =>
        rw [hproxy'] at hshows
        cases hshows with
        | some hshows =>
          refine (h.call N proxy proxy' request target target' hshows (huniform proxy hproxy)
            htarget).andThen ?_
          rintro N' outcome _ _ rfl
          exact mimics_plain (some outcome)
  | catching _ ih => exact ih.catching
  | onThread _ ih => exact ih.onThread
  | weaken _ hkin ih => exact ih.weaken hkin

theorem Follows.target (h : C.Follows longer engine engine') (hdirectory : directory.Shows C directory')
    {target target' : Target σ} (htarget : Target.Like C N target target') {reached reached' : Option Ref}
    (hreached : N.SameReach reached reached') (this : Value) (method : Method) (arguments : List Value) :
    C.Mimics longer N Kin.plain (target.run directory engine reached this method arguments)
      (target'.run directory' engine' reached' this method arguments) := by
  refine mimics_target (K := C.coupling longer) (fun w w' halike => ?_)
    (h.program hdirectory (htarget N this method arguments N.le_refl))
  replace halike : C.Alike N w w' := halike
  change C.Alike N _ _
  rw [halike.thread]
  exact halike.entry (.reached hreached _ _ _ _ _ _)

theorem Follows.advises (h : C.Follows longer engine engine') (hdirectory : directory.Shows C directory')
    {b : Behaviour σ} (hb : b.IsUniform C) (hbase : C.base ≤ N) (hr : N.SameRef r r') :
    (C.coupling longer).Advises directory directory' engine engine' N r r' b := by
  cases b with
  | around body => exact h.program hdirectory (hb N r r' hbase hr)
  | before advice =>
    intro N' method arguments this hle
    exact h.program hdirectory (hb N' method arguments this (Naming.le_trans hbase hle))
  | afterReturning advice =>
    intro N' returned method arguments this hle
    exact h.program hdirectory (hb N' returned method arguments this (Naming.le_trans hbase hle))
  | afterThrowing advice =>
    intro N' failure hle
    have hadvice := hb.2 N' r r' failure (Naming.le_trans hbase hle) (hr.mono hle)
    exact ⟨mimics_uniform (hb.1 failure), h.program hdirectory hadvice⟩
  | instrumented label => exact trivial
  | exposing => exact trivial

theorem Follows.behaviour (h : C.Follows longer engine engine') (hdirectory : directory.Shows C directory')
    {b : Behaviour σ} (hb : b.IsUniform C) (hr : N.SameRef r r') :
    C.Mimics longer N Kin.plain (b.run directory engine r) (b.run directory' engine' r') := by
  intro w w' halike
  have hbase : C.base ≤ N := Alike.base halike
  exact mimics_behaviour (K := C.coupling longer) (fun _ hle => reads_of_sameRef (hr.mono hle))
    (fun N' hle => h.proceed N' r r' (hr.mono hle)) (h.advises hdirectory hb hbase hr) w w' halike

/-! ### Walks along chains -/

/-- An invocation and its counterpart stand at positions that differ by the publishing links in front. -/
theorem Follows.walks (h : C.Follows longer engine engine') (hdirectory : directory.Shows C directory')
    (r : Ref) (c : Counterpart) :
    (C.coupling longer).Walks directory directory' engine engine' r c.ref
      (fun N n n' => N.Names r c ∧ n' = n + c.shift) (·.IsUniform C) where
  mono hstands hle := ⟨hstands.1.mono hle, hstands.2⟩
  next := by
    rintro N n _ ⟨hr, rfl⟩
    exact ⟨hr, Nat.add_right_comm n c.shift 1⟩
  reads hstands := reads_of_sameRef ⟨c.shift, hstands.1⟩
  step hstands := mimics_step hstands.1
  matching := by
    rintro N n _ ⟨hr, rfl⟩ targetClass arguments
    exact mimics_entry (.matching hr n targetClass arguments)
  skipped := by
    rintro N n _ ⟨hr, rfl⟩
    exact mimics_entry (.skipped hr n)
  enter := by
    rintro N n _ ⟨hr, rfl⟩
    exact mimics_enter hr n
  asks hlink method targetClass arguments := mimics_uniform (hlink.2 method targetClass arguments)
  runs := by
    intro N n n' link hlink hstands
    cases link with
    | plain interceptor => exact h.behaviour hdirectory hlink ⟨c.shift, hstands.1⟩
    | dynamic interceptor accepts => exact h.behaviour hdirectory hlink.1 ⟨c.shift, hstands.1⟩
  target := by
    rintro N n _ ⟨hr, rfl⟩ w w' halike
    replace halike : C.Alike N w w' := halike
    have htwins := halike.twins r c hr
    let i := w.invocation r
    let i' := w'.invocation c.ref
    have htold : C.Alike N (w.record [.event (.invokingTarget i.call i.method)])
        (w'.record [.event (.invokingTarget i'.call i'.method)]) :=
      halike.backstage (w.backstage_entry trivial) (w'.backstage_entry trivial)
    have htarget : C.Mimics longer N Kin.plain
        (i.target.run directory engine (some r) i.this i.method i.arguments)
        (i'.target.run directory' engine' (some c.ref) i'.this i'.method i'.arguments) := by
      rw [htwins.this, htwins.method, htwins.arguments]
      exact h.target hdirectory htwins.target (.invocation ⟨c.shift, hr⟩) _ _ _
    exact htarget _ _ htold

theorem Follows.proceed_step (h : C.Follows longer engine engine') (hdirectory : directory.Shows C directory')
    (hr : N.SameRef r r') :
    C.Mimics longer N Kin.plain (engine.proceed directory r) (engine'.proceed directory' r') := by
  obtain ⟨shift, hnames⟩ := hr
  intro w w' halike
  have hstart : C.Alike N (w.record [.occurrence (.proceeding r)])
      (w'.record [.occurrence (.proceeding r')]) :=
    halike.backstage (w.backstage_entry trivial) (w'.backstage_entry trivial)
  have htwins := hstart.twins r _ hnames
  have hlinks : ∀ link ∈ (w.invocation r).ahead, link.IsUniform C := fun link hlink =>
    htwins.uniform link (List.mem_of_mem_drop hlink)
  have hwalk := (h.walks hdirectory r ⟨r', shift⟩).advance _ hlinks N (w.invocation r).entered _
    ⟨hnames, rfl⟩ _ _ hstart
  have hahead : (w'.invocation r').ahead = (w.invocation r).ahead := htwins.ahead
  have hentered : (w'.invocation r').entered = (w.invocation r).entered + shift := htwins.entered
  rw [← hentered] at hwalk
  change C.Matches longer N Kin.plain
    (engine.advance directory r (w.invocation r).entered (w.invocation r).ahead _)
    (engine'.advance directory' r' (w'.invocation r').entered (w'.invocation r').ahead _)
  rw [hahead]
  exact hwalk

end Comparison

end Interception
