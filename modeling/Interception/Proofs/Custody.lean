import Mathlib.Data.List.Nodup
import Interception.Bindings

/-! Guards that are dropped in any order. A guard knows a slot and not the binding for which it was handed
out, and dropping it empties the slot and all above. As long as every guard is dropped no more than once,
this ends no binding that was there before the first of them was handed out; what stands above belongs to
guards that are still held. But a guard may be held longer than its binding stands, and once its slot is
taken again, dropping it ends the binding of another. -/

namespace Interception

/-- A guard that is held, and the join point that was bound for it. Bindings are numbered as they are
made. -/
structure Holding where
  number : Nat
  guard : Guard
  point : JoinPoint

/-- What the holder of guards does: binds a join point, or drops the guard of one binding. -/
inductive Handling where
  | bind (point : JoinPoint)
  | drop (number : Nat)

/-- The bindings of a thread, and the guards that are held for them. -/
structure Custody where
  bindings : Bindings
  /-- The number of the binding that stands in each slot. Those that were there before have none. -/
  standing : List (Option Nat)
  /-- How many bindings were made. -/
  made : Nat := 0
  /-- The guards that were handed out and not dropped yet, in the order of their bindings. -/
  held : List Holding := []

namespace Custody

/-- No guard is held yet, whatever is bound. -/
def atop (bindings : Bindings) : Custody :=
  { bindings, standing := List.replicate bindings.depth none }

def bind (c : Custody) (point : JoinPoint) : Custody where
  bindings := (c.bindings.bind point).2
  standing := c.standing ++ [some c.made]
  made := c.made + 1
  held := c.held ++ [⟨c.made, (c.bindings.bind point).1, point⟩]

def drop (c : Custody) (h : Holding) : Custody where
  bindings := c.bindings.release h.guard
  standing := c.standing.take h.guard.slot
  made := c.made
  held := c.held.filter (·.number ≠ h.number)

/-- A guard that is not held can not be dropped. -/
def handle (c : Custody) : Handling → Custody
  | .bind point => c.bind point
  | .drop number =>
    match c.held.find? (·.number = number) with
    | some h => c.drop h
    | none => c

def after (c : Custody) (handlings : List Handling) : Custody := handlings.foldl handle c

/-- An invocation that is published in the slot has got other arguments. -/
def rebind (c : Custody) (slot : Nat) (point : JoinPoint) : Custody :=
  { c with bindings := c.bindings.rebind slot point }

/-- The binding for which the guard was handed out is still there. -/
def Stands (c : Custody) (h : Holding) : Prop := some h.number ∈ c.standing

instance (c : Custody) (h : Holding) : Decidable (c.Stands h) :=
  inferInstanceAs (Decidable (_ ∈ _))

/-- What holders of guards and invocations can make of the bindings of a thread. -/
inductive Reachable : Custody → Prop where
  | atop (bindings : Bindings) : Reachable (atop bindings)
  | handle {c : Custody} (h : Reachable c) (handling : Handling) : Reachable (c.handle handling)
  | rebind {c : Custody} (h : Reachable c) (slot : Nat) (point : JoinPoint) :
    Reachable (c.rebind slot point)

/-! ### What stands in the slots -/

/-- Above the first `base` slots stand the bindings of the given guards, one above the other. -/
structure Sound (base : Nat) (c : Custody) (own : List Holding) : Prop where
  depth : c.bindings.depth = base + own.length
  standing : c.standing = List.replicate base none ++ own.map fun h => some h.number
  /-- They are held, and their bindings were made in this order. -/
  held : own.Sublist c.held
  numbers : (c.held.map Holding.number).Pairwise (· < ·)
  made : ∀ h ∈ c.held, h.number < c.made
  /-- Each stands in the slot that its guard knows. -/
  slots : own.map (·.guard.slot) = List.range' base own.length
  above : ∀ h ∈ c.held, base ≤ h.guard.slot
  /-- What stands was below every binding that was made later, even if that is gone. -/
  below : ∀ g ∈ c.held, ∀ h ∈ own, h.number < g.number → h.guard.slot < g.guard.slot

section Sound

variable {base : Nat} {c : Custody} {own : List Holding}

theorem sound_atop (bindings : Bindings) : Sound bindings.depth (atop bindings) [] where
  depth := rfl
  standing := (List.append_nil _).symm
  held := List.nil_sublist _
  numbers := .nil
  made _ hg := absurd hg List.not_mem_nil
  slots := rfl
  above _ hg := absurd hg List.not_mem_nil
  below _ hg := absurd hg List.not_mem_nil

theorem Sound.rebind (h : Sound base c own) (slot : Nat) (point : JoinPoint) :
    Sound base (c.rebind slot point) own :=
  { h with depth := (Bindings.depth_rebind slot point c.bindings).trans h.depth }

/-- A binding that stands is found in the slot that its guard knows. -/
theorem Sound.slot_lt (h : Sound base c own) {g : Holding} (hg : g ∈ own) :
    g.guard.slot < c.bindings.depth := by
  have hmem : g.guard.slot ∈ List.range' base own.length := h.slots ▸ List.mem_map_of_mem hg
  have hrange := List.mem_range'_1.mp hmem
  exact h.depth ▸ hrange.2

/-- Held guards are told apart by the numbers of their bindings. -/
theorem Sound.eq_of_number (h : Sound base c own) {g k : Holding} (hg : g ∈ c.held) (hk : k ∈ c.held)
    (hnumber : g.number = k.number) : g = k :=
  List.inj_on_of_nodup_map (h.numbers.imp Nat.ne_of_lt) hg hk hnumber

theorem Sound.bind (h : Sound base c own) (point : JoinPoint) :
    Sound base (c.bind point) (own ++ [⟨c.made, ⟨c.bindings.depth⟩, point⟩]) where
  depth := by
    rw [List.length_append, List.length_singleton, ← Nat.add_assoc, ← h.depth]
    exact Bindings.depth_bind point c.bindings
  standing := by
    change c.standing ++ _ = _
    rw [h.standing, List.map_append, List.append_assoc]
    rfl
  held := h.held.append (List.Sublist.refl _)
  numbers := by
    change ((c.held ++ _).map Holding.number).Pairwise _
    rw [List.map_append, List.pairwise_append]
    refine ⟨h.numbers, List.pairwise_singleton _ _, fun n hn m hm => ?_⟩
    obtain ⟨g, hg, rfl⟩ := List.mem_map.mp hn
    exact List.mem_singleton.mp hm ▸ h.made g hg
  made := by
    intro g hg
    obtain hg | hg := List.mem_append.mp hg
    · exact Nat.lt_succ_of_lt (h.made g hg)
    · exact List.mem_singleton.mp hg ▸ Nat.lt_succ_self _
  slots := by
    rw [List.map_append, h.slots, List.length_append, List.length_singleton, List.range'_concat,
      Nat.one_mul, ← h.depth]
    rfl
  above := by
    intro g hg
    obtain hg | hg := List.mem_append.mp hg
    · exact h.above g hg
    · rw [List.mem_singleton.mp hg]
      exact Nat.le_trans (Nat.le_add_right _ _) (Nat.le_of_eq h.depth.symm)
  below := by
    intro g hg k hk hlt
    obtain hg | hg := List.mem_append.mp hg <;> obtain hk | hk := List.mem_append.mp hk
    · exact h.below g hg k hk hlt
    · -- the new binding was made after all others
      rw [List.mem_singleton.mp hk] at hlt
      exact absurd hlt (Nat.lt_asymm (h.made g hg))
    · rw [List.mem_singleton.mp hg]
      exact h.slot_lt hk
    · rw [List.mem_singleton.mp hg, List.mem_singleton.mp hk] at hlt
      exact absurd hlt (Nat.lt_irrefl _)

theorem Sound.drop (h : Sound base c own) {g : Holding} (hg : g ∈ c.held) :
    Sound base (c.drop g) (own.take (g.guard.slot - base)) := by
  have habove := h.above g hg
  have hlength : (own.take (g.guard.slot - base)).length = min (g.guard.slot - base) own.length :=
    List.length_take
  have hslots : (own.take (g.guard.slot - base)).map (·.guard.slot) =
      List.range' base (min (g.guard.slot - base) own.length) := by
    rw [List.map_take, h.slots]
    obtain hle | hle := Nat.le_total (g.guard.slot - base) own.length
    · rw [Nat.min_eq_left hle, List.take_range'_of_length_ge hle]
    · rw [Nat.min_eq_right hle, List.take_range'_of_length_le hle]
  have hother : ∀ k ∈ own.take (g.guard.slot - base), k.number ≠ g.number := by
    intro k hk hnumber
    have hmem : k.guard.slot ∈ List.range' base (min (g.guard.slot - base) own.length) :=
      hslots ▸ List.mem_map_of_mem hk
    have hrange := List.mem_range'_1.mp hmem
    have hsame : k = g := h.eq_of_number (h.held.subset (List.mem_of_mem_take hk)) hg hnumber
    rw [hsame] at hrange
    omega
  have hheld : ∀ k ∈ (c.drop g).held, k ∈ c.held := fun _ hk => List.mem_of_mem_filter hk
  exact {
    depth := by
      change (c.bindings.points.take g.guard.slot).length = _
      have hdepth : c.bindings.points.length = base + own.length := h.depth
      rw [List.length_take, hdepth, hlength]
      omega
    standing := by
      change c.standing.take g.guard.slot = _
      rw [h.standing, List.take_append, List.length_replicate, List.take_of_length_le, List.map_take]
      rwa [List.length_replicate]
    held := by
      have hkept : (own.take (g.guard.slot - base)).filter (·.number ≠ g.number) =
          own.take (g.guard.slot - base) :=
        List.filter_eq_self.mpr fun k hk => decide_eq_true (hother k hk)
      rw [← hkept]
      exact ((List.take_sublist _ _).trans h.held).filter _
    numbers := h.numbers.sublist (List.filter_sublist.map _)
    made := fun k hk => h.made k (hheld k hk)
    slots := by rw [hslots, hlength]
    above := fun k hk => h.above k (hheld k hk)
    below := fun k hk j hj => h.below k (hheld k hk) j (List.mem_of_mem_take hj) }

/-- The guards whose bindings stand are held. -/
theorem Sound.stands_iff (h : Sound base c own) {g : Holding} (hg : g ∈ c.held) :
    c.Stands g ↔ g ∈ own := by
  rw [Stands, h.standing, List.mem_append, List.mem_map]
  constructor
  · rintro (hbefore | ⟨k, hk, hnumber⟩)
    · cases List.eq_of_mem_replicate hbefore
    · exact h.eq_of_number (h.held.subset hk) hg (Option.some.inj hnumber) ▸ hk
  · exact fun hmem => .inr ⟨g, hmem, rfl⟩

theorem Sound.getElem_slot (h : Sound base c own) {i : Nat} (hi : i < own.length) :
    own[i].guard.slot = base + i := by
  have hget : (own.map (·.guard.slot))[i]? = some own[i].guard.slot := by
    rw [List.getElem?_map, List.getElem?_eq_getElem hi]
    rfl
  rw [h.slots, List.getElem?_range' hi, Nat.one_mul] at hget
  exact (Option.some.inj hget).symm

/-- What is bound are the old join points, and above them those of the given guards. -/
def Shows (c : Custody) (old : List JoinPoint) (own : List Holding) : Prop :=
  c.bindings.points = old ++ own.map Holding.point

/-- Whatever is done with guards keeps this, and the look of the bindings. -/
theorem Sound.handle (h : Sound base c own) (handling : Handling) :
    ∃ own', Sound base (c.handle handling) own' ∧ ∀ old : List JoinPoint, old.length = base →
      c.Shows old own → (c.handle handling).Shows old own' := by
  cases handling with
  | bind point =>
    refine ⟨_, h.bind point, fun old _ hpoints => ?_⟩
    change c.bindings.points ++ [point] = _
    rw [hpoints, List.map_append, List.append_assoc]
    rfl
  | drop number =>
    rw [Custody.handle]
    cases hfind : c.held.find? (·.number = number) with
    | none => exact ⟨own, h, fun _ _ hpoints => hpoints⟩
    | some g =>
      have hg : g ∈ c.held := List.mem_of_find?_eq_some hfind
      refine ⟨_, h.drop hg, fun old hlength hpoints => ?_⟩
      change c.bindings.points.take g.guard.slot = _
      rw [hpoints, List.take_append, List.take_of_length_le (hlength ▸ h.above g hg), hlength,
        List.map_take]

theorem Sound.after (handlings : List Handling) (h : Sound base c own) :
    ∃ own', Sound base (c.after handlings) own' ∧ ∀ old : List JoinPoint, old.length = base →
      c.Shows old own → (c.after handlings).Shows old own' := by
  induction handlings generalizing c own with
  | nil => exact ⟨own, h, fun _ _ hpoints => hpoints⟩
  | cons handling rest ih =>
    obtain ⟨next, hnext, hthen⟩ := h.handle handling
    obtain ⟨own', hown', hlater⟩ := ih hnext
    exact ⟨own', hown', fun old hlength hpoints => hlater old hlength (hthen old hlength hpoints)⟩

end Sound

/-- **Guards end nothing that was there before, in whatever order they are dropped.** At every moment the
old bindings are at the bottom of the stack, unchanged. All others belong to guards that are still held,
stand in the slots of these one above the other, and were made in this order. Once no guard is held, the
old bindings are all there is. -/
theorem atop_after_stands (S : Bindings) (handlings : List Handling) :
    let c := (atop S).after handlings
    ∃ own : List Holding,
      c.bindings.points = S.points ++ own.map Holding.point ∧
      own.Sublist c.held ∧ (∀ h ∈ c.held, c.Stands h ↔ h ∈ own) ∧
      (c.held.map Holding.number).Pairwise (· < ·) ∧
      own.map (·.guard.slot) = List.range' S.depth own.length ∧
      (c.held = [] → c.bindings = S) := by
  intro c
  obtain ⟨own, hsound, hlook⟩ := (sound_atop S).after handlings
  have hpoints : c.bindings.points = S.points ++ own.map Holding.point :=
    hlook S.points rfl (List.append_nil S.points).symm
  refine ⟨own, hpoints, hsound.held, fun h hh => hsound.stands_iff hh, hsound.numbers, hsound.slots,
    fun hnone => ?_⟩
  have hown : own = [] := List.sublist_nil.mp (hnone ▸ hsound.held)
  rw [hown, List.map_nil, List.append_nil] at hpoints
  exact congrArg Bindings.mk hpoints

/-! ### Guards that are held for too long -/

theorem Reachable.sound {c : Custody} (h : c.Reachable) : ∃ base own, Sound base c own := by
  induction h with
  | atop bindings => exact ⟨_, _, sound_atop bindings⟩
  | handle _ handling ih =>
    obtain ⟨base, own, hsound⟩ := ih
    obtain ⟨own', hown', _⟩ := hsound.handle handling
    exact ⟨base, own', hown'⟩
  | rebind _ slot point ih =>
    obtain ⟨base, own, hsound⟩ := ih
    exact ⟨base, own, hsound.rebind slot point⟩

section Stale

variable {base : Nat} {c : Custody} {own : List Holding} {g : Holding}

/-- Dropping a guard empties nothing if and only if its slot is empty. -/
theorem drop_bindings_eq_iff : (c.drop g).bindings = c.bindings ↔ c.bindings.depth ≤ g.guard.slot := by
  constructor
  · intro h
    have hdepth : (c.bindings.points.take g.guard.slot).length = c.bindings.points.length :=
      congrArg Bindings.depth h
    rw [List.length_take] at hdepth
    exact Nat.le_trans (Nat.le_of_eq hdepth.symm) (Nat.min_le_left _ _)
  · intro h
    exact congrArg Bindings.mk (List.take_of_length_le h)

/-- A slot above the old bindings is empty if and only if no binding stands there or above. -/
theorem Sound.depth_le_iff (h : Sound base c own) {slot : Nat} (habove : base ≤ slot) :
    c.bindings.depth ≤ slot ↔ ∀ k ∈ own, k.guard.slot < slot := by
  rw [h.depth]
  constructor
  · intro hle k hk
    have hlt := h.slot_lt hk
    rw [h.depth] at hlt
    exact Nat.lt_of_lt_of_le hlt hle
  · intro hall
    by_contra hlt
    have hi : slot - base < own.length := by omega
    have hslot := h.getElem_slot hi
    have hless := hall _ (List.getElem_mem hi)
    omega

/-- Bindings below the slot of a guard that is dropped stay. -/
theorem Sound.mem_take (h : Sound base c own) {k : Holding} (hk : k ∈ own) {slot : Nat}
    (hlt : k.guard.slot < slot) : k ∈ own.take (slot - base) := by
  obtain ⟨i, hi, rfl⟩ := List.getElem_of_mem hk
  have hslot := h.getElem_slot hi
  have hlength : i < (own.take (slot - base)).length := by
    rw [List.length_take]
    omega
  have hget : (own.take (slot - base))[i] = own[i] := List.getElem_take
  exact hget ▸ List.getElem_mem hlength

end Stale

/-- **When a late drop does no harm.** The binding of a guard is gone, but the guard is still held. Dropping
it changes nothing if and only if all bindings that stand with guards of their own are in lower slots. Every
binding that the drop ends was made later than the one that is gone, and its own guard is still held. -/
theorem Reachable.drop_gone_iff {c : Custody} (hc : c.Reachable) {g : Holding} (hg : g ∈ c.held)
    (hgone : ¬ c.Stands g) :
    ((c.drop g).bindings = c.bindings ↔ ∀ h ∈ c.held, c.Stands h → h.guard.slot < g.guard.slot) ∧
    ∀ h ∈ c.held, c.Stands h → ¬ (c.drop g).Stands h →
      g.number < h.number ∧ g.guard.slot ≤ h.guard.slot ∧ h ∈ (c.drop g).held := by
  obtain ⟨base, own, hsound⟩ := hc.sound
  constructor
  · rw [drop_bindings_eq_iff, hsound.depth_le_iff (hsound.above g hg)]
    constructor
    · exact fun hall h hh hstands => hall h ((hsound.stands_iff hh).mp hstands)
    · intro hall k hk
      have hheld := hsound.held.subset hk
      exact hall k hheld ((hsound.stands_iff hheld).mpr hk)
  · intro h hh hstands hended
    have hown := (hsound.stands_iff hh).mp hstands
    have hother : h.number ≠ g.number := by
      intro hnumber
      rw [hsound.eq_of_number hh hg hnumber] at hstands
      exact hgone hstands
    have hheld : h ∈ (c.drop g).held := List.mem_filter.mpr ⟨hh, decide_eq_true hother⟩
    have hslot : g.guard.slot ≤ h.guard.slot := by
      by_contra hlt
      have hkept := hsound.mem_take hown (Nat.lt_of_not_le hlt)
      exact hended (((hsound.drop hg).stands_iff hheld).mpr hkept)
    have hnumber : g.number < h.number := by
      by_contra hle
      have hbelow := hsound.below g hg h hown (Nat.lt_of_le_of_ne (Nat.le_of_not_lt hle) hother)
      exact Nat.not_lt_of_le hslot hbelow
    exact ⟨hnumber, hslot, hheld⟩

/-! ### A slot that is taken again -/

/-- Two join points are bound, the first of them is unbound, and then others are bound. The guard of the
second is still held. -/
def retaken (others : List JoinPoint) : Custody :=
  (atop .empty).after ([.bind default, .bind default, .drop 0] ++ others.map .bind)

theorem reachable_after {c : Custody} (hc : c.Reachable) (handlings : List Handling) :
    (c.after handlings).Reachable := by
  induction handlings generalizing c with
  | nil => exact hc
  | cons handling rest ih => exact ih (hc.handle handling)

theorem reachable_retaken (others : List JoinPoint) : (retaken others).Reachable :=
  reachable_after (.atop .empty) _

/-- The guard whose binding is gone, with slot 1. -/
def overdue : Holding := ⟨1, ⟨1⟩, default⟩

/-- As long as only slot 0 is taken again, its guard does no harm. -/
theorem drop_gone_below :
    let c := retaken [default]
    (overdue ∈ c.held ∧ ¬ c.Stands overdue) ∧ (c.drop overdue).bindings = c.bindings := by
  intro c
  have hheld : overdue ∈ c.held := List.mem_cons_self
  have hgone : ¬ c.Stands overdue := by decide
  refine ⟨⟨hheld, hgone⟩, ((reachable_retaken _).drop_gone_iff hheld hgone).1.mpr fun h hh hstands => ?_⟩
  obtain rfl | rfl := List.mem_pair.mp (show h ∈ [overdue, ⟨2, ⟨0⟩, default⟩] from hh)
  · exact absurd hstands hgone
  · exact Nat.zero_lt_one

/-- When slot 1 is taken again, dropping it ends the binding there, whose own guard is held. -/
theorem drop_gone_retaken :
    let c := retaken [default, default]
    let later : Holding := ⟨3, ⟨1⟩, default⟩
    c.Reachable ∧ overdue ∈ c.held ∧ ¬ c.Stands overdue ∧ (c.drop overdue).bindings ≠ c.bindings ∧
      c.Stands later ∧ later ∈ (c.drop overdue).held ∧ ¬ (c.drop overdue).Stands later := by
  intro c later
  refine ⟨reachable_retaken _, List.mem_cons_self, by decide, fun h => ?_, by decide, ?_, by decide⟩
  · have hdepth : (1 : Nat) = 2 := congrArg Bindings.depth h
    exact absurd hdepth (by decide)
  · exact List.mem_cons_of_mem _ List.mem_cons_self

end Custody

end Interception
