import Interception.Proofs.Shift
import Interception.Proofs.Transparency

/-! An inserted link. An invocation of the call walks over the links in front of it as it would without it,
then passes it, and goes on behind it with the links that would have been next. So whatever the two
engines are asked for, they answer alike, by induction on how deep calls are nested; and so do the runs of
any blind program. -/

namespace Interception

variable {σ α β : Type}

/-! ### Advances -/

namespace Insertion

variable {I : Insertion σ} {w w' v v' : World σ} {r : Ref} {longer : Bool}

/-- What two advances have come to, apart from the inserted link. -/
structure AdvancesAlike (I : Insertion σ) (call : CallId)
    (x x' : List Visit × Stop σ × World σ) : Prop where
  alike : I.Alike x.2.2 x'.2.2
  places : x'.1.filterMap (fun v => v.place?.bind (relocatePlace (I.lowerFor call))) =
    x.1.filterMap Visit.place?
  stops : I.StopsAlike call x.2.1 x'.2.1

theorem WalksAlike.arrive {call : CallId} {x x' : List Visit × Option (Stop σ) × World σ}
    (h : I.WalksAlike call x x') (r : Ref) :
    I.AdvancesAlike call (World.arrive r x) (World.arrive r x') := by
  obtain ⟨visits, stop, v⟩ := x
  obtain ⟨visits', stop', v'⟩ := x'
  obtain ⟨halike, hplaces, hstops⟩ := h
  cases hstops with
  | some hstop => exact ⟨halike, hplaces, hstop⟩
  | none => exact ⟨halike.reach r, hplaces, .reached⟩

theorem WalksAlike.append {call : CallId} {x x' : List Visit × Option (Stop σ) × World σ}
    (h : I.WalksAlike call x x') {visits visits' : List Visit}
    (hplaces : visits'.filterMap (fun v => v.place?.bind (relocatePlace (I.lowerFor call))) =
      visits.filterMap Visit.place?) :
    I.WalksAlike call (visits ++ x.1, x.2) (visits' ++ x'.1, x'.2) :=
  ⟨h.alike, by rw [List.filterMap_append, List.filterMap_append, hplaces, h.places], h.stops⟩

theorem Alike.unseen (h : I.Alike w w') (hunseen : I.veil.Unseen w' v') : I.Alike w v' := by
  obtain ⟨entries, hjournal, hentries⟩ := hunseen.journal
  have htwins : ∀ s, v'.invocation s = w'.invocation s := fun s =>
    congrArg (·.getD s.index default) hunseen.invocations
  exact {
    state := I.veil.equivalence.trans h.state hunseen.state
    calls := hunseen.calls.trans h.calls
    bindings := hunseen.bindings.trans h.bindings
    waiting := hunseen.waiting.trans h.waiting
    size := (congrArg Array.size hunseen.invocations).trans h.size
    twins := fun s => htwins s ▸ h.twins s
    fresh := h.fresh
    journal := by
      refine h.journal_append (List.append_nil _).symm hjournal (fun _ hours => hours)
        fun ours _ => ?_
      rw [← seenWithout_of_unmarked ours fun entry hentry => (hentries entry hentry).1]
      exact (List.filterMap_eq_nil_iff.mpr fun entry hentry => (hentries entry hentry).2).symm }

/-! ### What is seen of an advance -/

theorem relocatePlace_some : relocatePlace (some : Nat → Option Nat) = some := by
  funext place
  cases place <;> rfl

theorem sights_quiet (change : CallId → Nat → Option Nat) {c : Course σ} (hc : c.IsQuiet) :
    c.sights change = [] := by
  refine List.flatMap_eq_nil_iff.mpr fun moment hmoment => ?_
  obtain ⟨move, v⟩ := moment
  cases hc _ hmoment
  rfl

theorem sights_advanced (a : Advance) (v : World σ) :
    Moment.sights (fun _ => some) (.advanced r a, v) =
      a.places.map fun place => ⟨r, place, (v.invocation r).attachments⟩ := by
  simp [Moment.sights, relocatePlace_some]

theorem StopsAlike.places {call : CallId} {stop stop' : Stop σ} (h : I.StopsAlike call stop stop') :
    stop'.arrival.places.filterMap (relocatePlace (I.lowerFor call)) = stop.arrival.places := by
  cases h with
  | entered hplace hblind => simp [Stop.arrival, Arrival.places, relocatePlace, hplace]
  | reached => rfl
  | unwound panic => rfl

theorem AdvancesAlike.sights {call : CallId} {x x' : List Visit × Stop σ × World σ}
    (h : I.AdvancesAlike call x x') (hcall : (x.2.2.invocation r).call = call) :
    Moment.sights I.lowerFor (.advanced r ⟨x'.1, x'.2.1.arrival⟩, x'.2.2) =
      Moment.sights (fun _ => some) (.advanced r ⟨x.1, x.2.1.arrival⟩, x.2.2) := by
  have htwins := h.alike.twins r
  rw [sights_advanced, Moment.sights, htwins.call, hcall, htwins.attachments, Advance.places,
    List.filterMap_append, List.filterMap_filterMap, h.places, h.stops.places]
  rfl

section Accounts

variable {directory : Directory σ} {told told' told'' : Engine.Accounts σ}

theorem Follows.stop (h : I.Follows longer told told') (hdirectory : directory.IsBlind I.veil)
    {call : CallId} {stop stop' : Stop σ} (hstops : I.StopsAlike call stop stop') (r : Ref) :
    I.Mimics longer (stop.account directory told r) (stop'.account directory told' r) := by
  cases hstops with
  | entered hplace hblind => exact h.behaviour hdirectory hblind r
  | reached =>
    refine mimics_look fun i i' htwins => ?_
    rw [htwins.target, htwins.this, htwins.method, htwins.arguments]
    exact h.target hdirectory htwins.blind.target _ _ _
  | unwound panic => exact fun _ _ halike => matches_self halike rfl

/-- What an invocation does from where an advance has come to. -/
def conclude (directory : Directory σ) (told : Engine.Accounts σ) (r : Ref)
    (x : List Visit × Stop σ × World σ) : (Ending Outcome × World σ) × Course σ :=
  let inside := x.2.1.account directory told r x.2.2
  (inside.1, (.advanced r ⟨x.1, x.2.1.arrival⟩, x.2.2) :: inside.2 ++ [(.ended r, inside.1.2)])

theorem proceed_eq_conclude (w : World σ) :
    Account.proceed directory told r w = conclude directory told r (w.advance r) := rfl

theorem sights_moments (change : CallId → Nat → Option Nat) (moment : Moment σ) (c : Course σ)
    (v : World σ) :
    Course.sights change (moment :: c ++ [(.ended r, v)]) = moment.sights change ++ c.sights change := by
  simp [Course.sights, Moment.sights]

theorem invocation_arrive (r : Ref) (x : List Visit × Option (Stop σ) × World σ) :
    ((World.arrive r x).2.2.invocation r) = x.2.2.invocation r := by
  obtain ⟨visits, _ | stop, v⟩ := x <;> rfl

theorem arrive_append (r : Ref) (visits : List Visit) (x : List Visit × Option (Stop σ) × World σ) :
    World.arrive r (visits ++ x.1, x.2) = (visits ++ (World.arrive r x).1, (World.arrive r x).2) := by
  obtain ⟨visits', _ | stop, v⟩ := x <;> rfl

/-- Two invocations go on alike where their advances have come to the same. -/
theorem Follows.conclude (h : I.Follows longer told told') (hdirectory : directory.IsBlind I.veil)
    {call : CallId} {x x' : List Visit × Stop σ × World σ} (hx : I.AdvancesAlike call x x')
    (hcall : (x.2.2.invocation r).call = call) :
    I.Matches longer (Insertion.conclude directory told r x) (Insertion.conclude directory told' r x') := by
  have hinside := h.stop hdirectory hx.stops r _ _ hx.alike
  refine hinside.leave (fun _ _ halike => halike) fun hsights => ?_
  change Course.sights _ _ = Course.sights _ _ at hsights ⊢
  rw [sights_moments, sights_moments, hx.sights hcall, hsights]

theorem Follows.walked (h : I.Follows longer told told') (hdirectory : directory.IsBlind I.veil)
    {x x' : List Visit × Option (Stop σ) × World σ}
    (hwalks : I.WalksAlike (x.2.2.invocation r).call x x') :
    I.Matches longer (Insertion.conclude directory told r (World.arrive r x))
      (Insertion.conclude directory told' r (World.arrive r x')) :=
  h.conclude hdirectory (hwalks.arrive r) (congrArg Invocation.call (invocation_arrive r x))

/-- One invocation goes on while the other one passes an interceptor that nobody sees. -/
theorem Follows.cross (h : I.Follows longer told told'') (hdirectory : directory.IsBlind I.veil)
    {x x' : List Visit × Stop σ × World σ} (hx : I.AdvancesAlike I.call x x')
    (hcall : (x.2.2.invocation r).call = I.call) {visits visits' : List Visit} {visit : Visit}
    {current : Option Nat} {v : World σ}
    (hplaces : visits'.filterMap (fun v => v.place?.bind (relocatePlace (I.lowerFor I.call))) =
      visits.filterMap Visit.place?)
    (hvisit : visit.place? = none) (hthere : (v.invocation r).call = I.call)
    (hattached : (v.invocation r).attachments = (x.2.2.invocation r).attachments)
    {outer : (Ending Outcome × World σ) × Course σ}
    (houter : I.veil.Encloses (Insertion.conclude directory told'' r x') outer) :
    I.Matches longer (Insertion.conclude directory told r (visits ++ x.1, x.2))
      (outer.1, (.advanced r ⟨visits' ++ [visit], .entered I.position current⟩, v) :: outer.2 ++
        [(.ended r, outer.1.2)]) := by
  have hinside := matches_iff.mp (h.stop hdirectory hx.stops r _ _ hx.alike)
  obtain ⟨hending, hunseen, c, c', hcourse, hquiet, hquiet'⟩ := houter
  refine matches_iff.mpr fun hdepth => ?_
  have hlead : leading longer (x.2.1.account directory told r x.2.2).1.1
      (x'.2.1.account directory told'' r x'.2.2).1.1 ≠ .outOfDepth := by
    have hsame : (x'.2.1.account directory told'' r x'.2.2).1.1 = outer.1.1 := hending.symm
    rw [hsame]
    exact hdepth
  obtain ⟨hsame, hthen, hsights⟩ := hinside hlead
  refine ⟨hending.trans hsame, hthen.unseen hunseen, ?_⟩
  -- what is seen of the advance that ends at the inserted interceptor are the links it came by
  have hpassed : Moment.sights I.lowerFor
      (.advanced r ⟨visits' ++ [visit], .entered I.position current⟩, v) =
        (visits.filterMap Visit.place?).map fun place => ⟨r, place, (x.2.2.invocation r).attachments⟩ := by
    have hhidden : relocatePlace (I.lowerFor I.call) (some I.position) = none := by
      simp [relocatePlace, lowerFor, lowered]
    rw [Moment.sights, hthere, hattached, Advance.places, List.filterMap_append, List.filterMap_filterMap,
      List.filterMap_append, hplaces]
    simp [hvisit, Arrival.places, hhidden]
  -- the advance that the interceptor makes shows the rest of what the single one shows
  have hlater := hx.sights hcall
  have hboth : Moment.sights (fun _ => some) (.advanced r ⟨visits ++ x.1, x.2.1.arrival⟩, x.2.2) =
      ((visits.filterMap Visit.place?).map fun place => ⟨r, place, (x.2.2.invocation r).attachments⟩) ++
        Moment.sights (fun _ => some) (.advanced r ⟨x.1, x.2.1.arrival⟩, x.2.2) := by
    rw [sights_advanced, sights_advanced, Advance.places, Advance.places, List.filterMap_append,
      List.append_assoc, List.map_append]
  simp only [Insertion.conclude] at hcourse ⊢
  rw [sights_moments, sights_moments, hcourse, sights_append, sights_append, sights_quiet _ hquiet,
    sights_quiet _ hquiet', sights_moments, hpassed, hlater, hboth, hsights]
  simp

/-- What the longer run asks the engine for next: it goes on, if the depth allows it. -/
def GoesOn (I : Insertion σ) (longer : Bool) (directory : Directory σ) (told told' : Engine.Accounts σ) :
    Prop :=
  (∃ told'', I.Follows longer told told'' ∧
    ∀ r, told' (.proceed r) = Account.proceed directory told'' r) ∨
  longer = true ∧ ∀ r w, told' (.proceed r) w = ((.outOfDepth, w), [])

/-- An invocation that comes to an interceptor that nobody sees. -/
theorem GoesOn.pass_plain (hnext : I.GoesOn longer directory told told')
    (hdirectory : directory.IsBlind I.veil) {interceptor : Interceptor σ}
    (hbehaviour : interceptor.behaviour.IsTransparent I.veil) (h : I.Alike v v')
    (hours : I.Ours (v.invocation r) (v'.invocation r)) (hp : (v.invocation r).entered = I.position)
    (hq : (v'.invocation r).entered = I.position) {visits visits' : List Visit}
    (hplaces : visits'.filterMap (fun v => v.place?.bind (relocatePlace (I.lowerFor I.call))) =
      visits.filterMap Visit.place?) :
    I.Matches longer
      (Insertion.conclude directory told r (World.arrive r
        (visits ++ (v.through r I.position (I.chain.links.drop I.position)).1,
          (v.through r I.position (I.chain.links.drop I.position)).2)))
      (Insertion.conclude directory told' r (World.arrive r
        (visits' ++ (v'.through r I.position (.plain interceptor :: I.chain.links.drop I.position)).1,
          (v'.through r I.position (.plain interceptor :: I.chain.links.drop I.position)).2))) := by
  have hr := hours.exists_ h
  -- the world in which the inserted interceptor is run
  let e := (v'.stepOver r).enter r I.position
    (.entering ((v'.stepOver r).invocation r).call I.position)
  have hentered : I.Alike v e := (h.stepOver_right hours hp hq).enter_right hr hours.call _
  have hthen : e.invocation r = { v'.invocation r with entered := I.position + 1 } :=
    (World.stepOver_self (h.size ▸ hr)).trans (by rw [hq])
  obtain ⟨u, hunseen, hencloses⟩ := hbehaviour directory told' r e
  have hkept : u.invocation r = e.invocation r := congrArg (·.getD r.index default) hunseen.invocations
  obtain ⟨told'', hfollows, hproceed⟩ | ⟨rfl, hout⟩ := hnext
  · let u' := u.record [.occurrence (.proceeding r)]
    have halike : I.Alike v u' := (hentered.unseen hunseen).record_right fun _ _ => rfl
    have hpast : u'.invocation r = { v'.invocation r with entered := I.position + 1 } := hkept.trans hthen
    obtain ⟨hahead, hwalks⟩ := halike.through_past hours hp hpast
    have hadvance : u.advance r =
        World.arrive r (u'.through r (I.position + 1) (I.chain.links.drop I.position)) := by
      rw [World.advance_eq]
      change World.arrive r (u'.through r (u'.invocation r).entered (u'.invocation r).ahead) = _
      rw [hahead, hpast]
    rw [hproceed, proceed_eq_conclude, hadvance] at hencloses
    rw [arrive_append]
    refine hfollows.cross hdirectory (hwalks.arrive r) ?_ hplaces rfl ?_ ?_ hencloses
    · rw [invocation_arrive, World.invocation_through (f := Invocation.call) fun _ _ => rfl]
      exact hours.call
    · exact (congrArg Invocation.call hthen).trans ((h.twins r).call.trans hours.call)
    · refine (congrArg Invocation.attachments hthen).trans ((h.twins r).attachments.trans ?_)
      rw [invocation_arrive, World.invocation_through (f := Invocation.attachments) fun _ _ => rfl]
  · refine matches_outOfDepth ?_
    have hending := hencloses.ending
    rw [hout] at hending
    exact hending

theorem Alike.through_rejecting (h : I.Alike v v') (hours : I.Ours (v.invocation r) (v'.invocation r))
    (hp : (v.invocation r).entered = I.position) (hq : (v'.invocation r).entered = I.position)
    (interceptor : Interceptor σ) {accepts : ArgumentPredicate σ}
    (haccepts : ∀ method targetClass arguments,
      accepts method targetClass arguments = Consultation.answer false) :
    I.WalksAlike I.call (v.through r I.position (I.chain.links.drop I.position))
      (v'.through r I.position (.dynamic interceptor accepts :: I.chain.links.drop I.position)) := by
  have hr := hours.exists_ h
  obtain ⟨hpasses, hthen⟩ := h.skip_right hr hours.call interceptor haccepts hours hp hq
  have hposition := visit_position v' r I.position (.dynamic interceptor accepts)
  have hkept := (v'.invocation_visit r I.position (.dynamic interceptor accepts) r).trans
    (World.stepOver_self (h.size ▸ hr))
  rw [World.through]
  generalize v'.visit r I.position (.dynamic interceptor accepts) = x at hpasses hthen hposition hkept ⊢
  obtain ⟨visit, stop, u⟩ := x
  cases hpasses
  obtain ⟨halike, hplaces, hstops⟩ := (hthen.through_past hours hp (by rw [hkept, hq])).2
  -- the place of the inserted link is not seen
  have hhidden : visit.place?.bind (relocatePlace (I.lowerFor I.call)) = none := by
    rw [Visit.place?, hposition]
    cases visit.verdict with
    | none => rfl
    | some verdict => simp [relocatePlace, lowerFor, lowered]
  exact ⟨halike, by simp only [List.filterMap_cons, hhidden, hplaces], hstops⟩

/-- Two invocations that stand in front of the inserted link, after walks over the links before it. -/
theorem Follows.pass (hfollows : I.Follows longer told told')
    (hnext : I.GoesOn longer directory told told') (hdirectory : directory.IsBlind I.veil)
    (hlink : I.link.IsTransparent I.veil) (h : I.Alike v v')
    (hours : I.Ours (v.invocation r) (v'.invocation r)) (hp : (v.invocation r).entered = I.position)
    (hq : (v'.invocation r).entered = I.position) {visits visits' : List Visit}
    (hplaces : visits'.filterMap (fun v => v.place?.bind (relocatePlace (I.lowerFor I.call))) =
      visits.filterMap Visit.place?) :
    I.Matches longer
      (Insertion.conclude directory told r (World.arrive r
        (visits ++ (v.through r I.position (I.chain.links.drop I.position)).1,
          (v.through r I.position (I.chain.links.drop I.position)).2)))
      (Insertion.conclude directory told' r (World.arrive r
        (visits' ++ (v'.through r I.position (I.link :: I.chain.links.drop I.position)).1,
          (v'.through r I.position (I.link :: I.chain.links.drop I.position)).2))) := by
  cases hkind : I.link with
  | plain interceptor =>
    rw [hkind] at hlink
    exact hnext.pass_plain hdirectory hlink h hours hp hq hplaces
  | dynamic interceptor accepts =>
    rw [hkind] at hlink
    have hwalks := (h.through_rejecting hours hp hq interceptor hlink).append hplaces
    have hcall : ((v.through r I.position (I.chain.links.drop I.position)).2.2.invocation r).call =
        I.call := (World.invocation_through (fun _ _ => rfl) v r r _ _).trans hours.call
    exact hfollows.walked hdirectory (hcall.symm ▸ hwalks)

/-- Two invocations that have the inserted link ahead, or would have. -/
theorem Follows.before (hfollows : I.Follows longer told told')
    (hnext : I.GoesOn longer directory told told') (hdirectory : directory.IsBlind I.veil)
    (hlink : I.link.IsTransparent I.veil) (h : I.Alike v v')
    (hours : I.Ours (v.invocation r) (v'.invocation r)) (hp : (v.invocation r).entered ≤ I.position)
    (hq : (v'.invocation r).entered = (v.invocation r).entered) :
    I.Matches longer
      (Insertion.conclude directory told r
        (World.arrive r (v.through r (v.invocation r).entered (v.invocation r).ahead)))
      (Insertion.conclude directory told' r
        (World.arrive r (v'.through r (v'.invocation r).entered (v'.invocation r).ahead))) := by
  obtain ⟨first, hlength, hahead, hahead'⟩ := hours.ahead_before hp hq
  obtain ⟨hwalks, hnone⟩ := h.through_before hours hp hq hlength hahead
  have hposition : (v.invocation r).entered + first.length = I.position := by omega
  have hcall : ((v.through r (v.invocation r).entered first).2.2.invocation r).call = I.call :=
    (World.invocation_through (fun _ _ => rfl) v r r _ _).trans hours.call
  rw [hahead, hahead', hq]
  generalize hx : v.through r (v.invocation r).entered first = x at hwalks hnone hcall
  generalize hx' : v'.through r (v.invocation r).entered first = x' at hwalks hnone
  obtain ⟨visits, stop, u⟩ := x
  obtain ⟨visits', stop', u'⟩ := x'
  have hstops := hwalks.stops
  cases hstops with
  | some hstop =>
    -- one of the first links is run in both
    rw [World.through_append_of_some r _ first _ v (congrArg (·.2.1) hx),
      World.through_append_of_some r _ first _ v' (congrArg (·.2.1) hx'), hx, hx']
    exact hfollows.walked hdirectory (hcall.symm ▸ hwalks)
  | none =>
    obtain ⟨hthere, hpassed, hpassed'⟩ := hnone rfl
    rw [World.through_append_of_none r _ first _ v hx, World.through_append_of_none r _ first _ v' hx',
      hposition]
    exact hfollows.pass hnext hdirectory hlink hwalks.alike hthere hpassed hpassed' hwalks.places

theorem Follows.proceed_step (h : I.Follows longer told told')
    (hnext : I.GoesOn longer directory told told') (hdirectory : directory.IsBlind I.veil)
    (hlink : I.link.IsTransparent I.veil) (r : Ref) :
    I.Mimics longer (Account.proceed directory told r) (Account.proceed directory told' r) := by
  intro w w' halike
  let v := w.record [.occurrence (.proceeding r)]
  let v' := w'.record [.occurrence (.proceeding r)]
  have hstart : I.Alike v v' := halike.record fun _ _ => rfl
  have hcall : ((v.through r (v.invocation r).entered (v.invocation r).ahead).2.2.invocation r).call =
      (v.invocation r).call := World.invocation_through (fun _ _ => rfl) v r r _ _
  rw [proceed_eq_conclude, proceed_eq_conclude, World.advance_eq, World.advance_eq]
  change I.Matches longer
    (Insertion.conclude directory told r
      (World.arrive r (v.through r (v.invocation r).entered (v.invocation r).ahead)))
    (Insertion.conclude directory told' r
      (World.arrive r (v'.through r (v'.invocation r).entered (v'.invocation r).ahead)))
  obtain hours | ⟨hself, hnone⟩ := (hstart.twins r).place
  · obtain ⟨hp, hq⟩ | ⟨hp, hq⟩ := hours.shifted
    · exact h.before hnext hdirectory hlink hstart hours hp hq
    · have hwalks := hstart.through_behind hours hp hq
      exact h.walked hdirectory ((hcall.trans hours.call).symm ▸ hwalks)
  · have hwalks := hstart.through_self hself hnone
    rw [hself]
    exact h.walked hdirectory (hcall.symm ▸ hwalks)

theorem Follows.call_step (h : I.Follows longer told told') (hdirectory : directory.IsBlind I.veil)
    {proxy : Proxy σ} (hproxy : proxy.IsBlind I.veil) (request : Request) {target : Target σ}
    (htarget : target.IsBlind I.veil) :
    I.Mimics longer (Account.call directory told proxy request target)
      (Account.call directory told' proxy request target) := by
  have hunmarked := proxy.writes_chainFor_of request.method request.targetClass
    (fun _ hsound => hsound.1.unmarked) fun _ _ _ _ => rfl
  refine mimics_inquire (hproxy.assembling _ _) hunmarked fun s resolved hresolved => ?_
  cases resolved with
  | error e => exact mimics_finish _
  | ok chain =>
    have hatOnce : I.Mimics longer
        (target.accountAtOnce directory told request.this request.method request.arguments)
        (target.accountAtOnce directory told' request.this request.method request.arguments) := by
      let tell (w : World σ) : World σ := w.record
        [.occurrence (.reached none request.this request.method request.arguments w.thread w.bindings)]
      have htold : ∀ w w', I.Alike w w' → I.Alike (tell w) (tell w') := by
        intro w w' hw
        have hthread : w'.thread = w.thread := congrArg List.length hw.waiting
        simp only [tell]
        rw [hthread, hw.bindings]
        exact hw.record_entry rfl
      have hreached : I.Mimics longer (.aside fun w => (.finished (), tell w))
          (.aside fun w => (.finished (), tell w)) :=
        mimics_aside fun w w' hw => ⟨rfl, htold w w' hw⟩
      exact hreached.andThen fun _ => h.target hdirectory htarget _ _ _
    have hchain : chain.IsBlind I.veil := hproxy.chains _ _ s chain hresolved
    exact hatOnce.ite (mimics_starting (fun r => h.proceed r) request hchain htarget)

/-- How deep one of the runs may nest its calls so that it is sure to get as far as the one that leads. The
longer run nests an advance of its own in every advance of the shorter one, at most. -/
def Enough (longer : Bool) (depth depth' : Nat) : Prop :=
  if longer then depth' ≤ depth else 2 * depth ≤ depth'

/-- **The engines of both runs answer alike.** -/
theorem follows_accounts (hdirectory : directory.IsBlind I.veil) (hlink : I.link.IsTransparent I.veil)
    (depth : Nat) :
    ∀ depth', Enough longer depth depth' →
      I.Follows longer (Engine.accounts directory depth) (Engine.accounts directory depth') := by
  -- by induction on the depth of the shorter run, which goes one step where the longer one may go two
  induction depth with
  | zero =>
    intro depth' henough
    have hout : ∀ a w w',
        I.Matches longer (Engine.accounts directory 0 a w) (Engine.accounts directory depth' a w') := by
      intro a w w'
      refine matches_outOfDepth ?_
      cases longer with
      | false => rfl
      | true =>
        cases Nat.le_zero.mp henough
        rfl
    exact ⟨fun r w w' _ => hout _ w w', fun proxy request target _ _ w w' _ => hout _ w w'⟩
  | succ depth ih =>
    intro depth' henough
    cases depth' with
    | zero =>
      have hlonger : longer = true := by
        cases longer with
        | false => simp [Enough] at henough
        | true => rfl
      subst hlonger
      exact ⟨fun _ _ _ _ => matches_outOfDepth rfl, fun _ _ _ _ _ _ _ _ => matches_outOfDepth rfl⟩
    | succ lower =>
      have hnear : Enough longer depth lower := by
        cases longer <;> simp only [Enough, if_true, if_false, Bool.false_eq_true] at henough ⊢ <;> omega
      have hfollows := ih lower hnear
      have hnext : I.GoesOn longer directory (Engine.accounts directory depth)
          (Engine.accounts directory lower) := by
        cases lower with
        | zero =>
          cases longer with
          | true => exact .inr ⟨rfl, fun _ _ => rfl⟩
          | false =>
            simp only [Enough, if_false, Bool.false_eq_true] at henough
            omega
        | succ lowest =>
          refine .inl ⟨Engine.accounts directory lowest, ih lowest ?_, fun _ => rfl⟩
          cases longer <;> simp only [Enough, if_true, if_false, Bool.false_eq_true] at henough ⊢ <;> omega
      exact ⟨fun r => hfollows.proceed_step hnext hdirectory hlink r,
        fun proxy request target hproxy htarget => hfollows.call_step hdirectory hproxy request htarget⟩

end Accounts

theorem alike_start {w : World σ} (hcall : I.call = ⟨w.calls⟩) (hbefore : I.before = w.journal.toList)
    (hothers : ∀ r : Ref, r.index < w.invocations.size →
      (w.invocation r).IsBlind I.veil ∧ (w.invocation r).call ≠ I.call)
    (request : Request) {target : Target σ} (hchain : I.chain.IsBlind I.veil)
    (htarget : target.IsBlind I.veil) :
    I.Alike (w.start request I.chain target).2 (w.start request I.longer target).2 := by
  have hcounted : I.Alike { w with calls := w.calls + 1 } { w with calls := w.calls + 1 } := {
    state := I.veil.equivalence.refl _
    calls := rfl
    bindings := rfl
    waiting := rfl
    size := rfl
    twins := fun r => by
      by_cases hr : r.index < w.invocations.size
      · obtain ⟨hblind, hother⟩ := hothers r hr
        exact twins_self hblind fun h => absurd h hother
      · have hout := World.invocation_of_ge (w := { w with calls := w.calls + 1 }) (Nat.le_of_not_lt hr)
        rw [hout]
        exact twins_default
    fresh := hcall ▸ Nat.lt_succ_self _
    journal := ⟨[], [], by simp [hbefore], by simp [hbefore], fun _ _ => rfl⟩ }
  have htwins : I.Twins (.start ⟨w.calls⟩ request I.chain target)
      (.start ⟨w.calls⟩ request I.longer target) :=
    ⟨rfl, ⟨hchain, htarget⟩, .inl ⟨hcall.symm, rfl, rfl, .inl ⟨Nat.zero_le _, rfl⟩⟩⟩
  exact (hcounted.push htwins).2

end Insertion

/-- **Nobody observes that a transparent link is inserted.** A call is started, once with a chain and once
with the link inserted in it. All code of others is blind to what is behind the veil and asks for no
position and no chain; otherwise it is any code. If the link passes every call on, the two runs end in
the same way, in worlds that differ in cursors and behind the veil alone, as do their journals; and the
links that are asked or run, and the target, find the same attachments. Neither run has to be known to
come to an end: where one of them does, so does the other one, if it may go deep enough. -/
theorem Program.insert_unobserved {veil : Veil σ} {directory : Directory σ}
    (hdirectory : directory.IsBlind veil) {w : World σ}
    (hothers : ∀ r : Ref, r.index < w.invocations.size →
      (w.invocation r).IsBlind veil ∧ (w.invocation r).call ≠ ⟨w.calls⟩)
    (request : Request) {chain : Chain σ} (hchain : chain.IsBlind veil) {target : Target σ}
    (htarget : target.IsBlind veil) {link : Link σ} (hlink : link.IsTransparent veil) {position : Nat}
    (hposition : position ≤ chain.length) {p : Program σ α} (hp : p.IsBlind veil) (depth depth' : Nat) :
    let I : Insertion σ := ⟨veil, ⟨w.calls⟩, chain, link, position, hposition, w.journal.toList⟩
    let v := (w.start request chain target).2
    let v' := (w.start request (chain.insert position link) target).2
    let x := p.run directory (Engine.ofDepth directory depth) v
    let x' := p.run directory (Engine.ofDepth directory depth') v'
    2 * depth ≤ depth' ∧ x.1 ≠ .outOfDepth ∨ depth' ≤ depth ∧ x'.1 ≠ .outOfDepth →
      x'.1 = x.1 ∧ I.Alike x.2 x'.2 ∧
        (p.course directory depth v).sights (fun _ => some) =
          (p.course directory depth' v').sights I.lowerFor := by
  intro I v v' x x' hdepth
  have hstart : I.Alike v v' := Insertion.alike_start rfl rfl hothers request hchain htarget
  have hrun : (p.account directory (Engine.accounts directory depth) v).1 = x :=
    congrFun (Program.run_account (Engine.run_accounts directory depth) p) v
  have hrun' : (p.account directory (Engine.accounts directory depth') v').1 = x' :=
    congrFun (Program.run_account (Engine.run_accounts directory depth') p) v'
  have hmatches : ∀ longer, Insertion.Enough longer depth depth' →
      I.Matches longer (x, p.course directory depth v) (x', p.course directory depth' v') := by
    intro longer henough
    have hfollows : I.Follows longer (Engine.accounts directory depth) (Engine.accounts directory depth') :=
      Insertion.follows_accounts hdirectory hlink depth depth' henough
    rw [← hrun, ← hrun']
    exact hfollows.program hdirectory hp v v' hstart
  obtain ⟨henough, hends⟩ | ⟨henough, hends⟩ := hdepth
  · exact Insertion.matches_iff.mp (hmatches false henough) hends
  · exact Insertion.matches_iff.mp (hmatches true henough) hends

/-! ### Advice that counts by itself -/

/-- Of two counters the second one is kept by advice that notes it. -/
def counted : Veil (Nat × Nat) where
  same s s' := s.1 = s'.1
  equivalence := ⟨fun _ => rfl, Eq.symm, Eq.trans⟩
  own text := text == "counted"

/-- Advice that counts the calls that come to it. -/
def counting : Interceptor (Nat × Nat) where
  serial := none
  behaviour := .before fun _ _ _ => do
    Program.consult fun s => ⟨.ok (), (s.1, s.2 + 1), ["counted"]⟩
    pure (.ok ())

/-- Around advice that first tries the call on a fork with another argument. -/
def exploring : Interceptor (Nat × Nat) where
  serial := some 0
  behaviour := .around fun r => do
    let copy ← Program.forkWith r [.int32 2]
    let _ ← Program.proceed copy
    Program.proceed r

/-- A chain whose second link notes whom it was asked about, and lets in only calls with the argument
`2`. -/
def explored : Chain (Nat × Nat) where
  links := [.plain exploring, .dynamic exploring fun _ _ arguments s =>
    ⟨.ok (arguments == [.int32 2]), (s.1 + 1, s.2), ["asked"]⟩]

/-- Makes the call, and once more when the chain is exhausted. -/
def exhausting : Program (Nat × Nat) Outcome := do
  let _ ← Program.proceed ⟨0⟩
  Program.proceed ⟨0⟩

theorem insert_unobserved_counting :
    let request : Request := { this := .unit, method := default, arguments := [.int32 1] }
    let target : Target (Nat × Nat) := fun _ _ _ => pure (.ok .unit)
    let w : World (Nat × Nat) := { state := (0, 0) }
    let I : Insertion (Nat × Nat) := ⟨counted, ⟨0⟩, explored, .plain counting, 1, by decide, []⟩
    let v := (w.start request explored target).2
    let v' := (w.start request (explored.insert 1 (.plain counting)) target).2
    let x := exhausting.run (fun _ => none) (Engine.ofDepth (fun _ => none) 4) v
    let x' := exhausting.run (fun _ => none) (Engine.ofDepth (fun _ => none) 8) v'
    (x.1 ≠ .outOfDepth ∧ x.2.state = (2, 0) ∧ x'.2.state = (2, 2) ∧
      ((exhausting.course (fun _ => none) 4 v).sights fun _ => some).length = 8) ∧
      x'.1 = x.1 ∧ I.Alike x.2 x'.2 ∧
        (exhausting.course (fun _ => none) 4 v).sights (fun _ => some) =
          (exhausting.course (fun _ => none) 8 v').sights I.lowerFor := by
  intro request target w I v v' x x'
  have hdirectory : Directory.IsBlind counted (fun _ => none) := fun _ _ h => nomatch h
  have hexploring : exploring.behaviour.IsBlind counted := fun _ =>
    ⟨⟨trivial, fun _ => ⟨trivial, fun _ => trivial⟩⟩, fun _ => ⟨trivial, fun _ => trivial⟩⟩
  have hasking : ∀ arguments : List Value, Consultation.Respects counted
      (fun s => ⟨.ok (arguments == [.int32 2]), (s.1 + 1, s.2), ["asked"]⟩ : Query (Nat × Nat) Bool) :=
    fun _ _ _ h => ⟨rfl, rfl, congrArg (· + 1) h⟩
  have hchain : explored.IsBlind counted :=
    List.forall_mem_cons.mpr ⟨hexploring, List.forall_mem_singleton.mpr ⟨hexploring, fun _ _ => hasking⟩⟩
  have htarget : target.IsBlind counted := fun _ _ _ => trivial
  have hcounts : Consultation.IsPrivate counted
      (fun s => ⟨.ok (), (s.1, s.2 + 1), ["counted"]⟩ : Query (Nat × Nat) Unit) fun _ => True :=
    fun _ => ⟨⟨(), trivial, rfl⟩, rfl, fun _ htext => List.mem_singleton.mp htext ▸ rfl⟩
  have hlink : (Link.plain counting).IsTransparent counted :=
    Behaviour.isTransparent_before fun _ _ _ =>
      (Program.isPrivate_consult hcounts).andThen fun _ _ => Program.isPrivate_done rfl
  have hprogram : exhausting.IsBlind counted := ⟨trivial, fun _ => trivial⟩
  have hends : x.1 ≠ .outOfDepth := by
    intro hout
    have hcheck : (match x.1 with | .outOfDepth => false | _ => true) = true := by decide +kernel
    rw [hout] at hcheck
    cases hcheck
  refine ⟨⟨hends, by decide +kernel, by decide +kernel, by decide +kernel⟩, ?_⟩
  exact Program.insert_unobserved hdirectory (fun _ h => absurd h (Nat.not_lt_zero _)) request hchain htarget
    hlink (by decide) hprogram 4 8 (.inl ⟨by decide, hends⟩)

end Interception
