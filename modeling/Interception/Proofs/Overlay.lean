import Interception.Proofs.Manual

/-! What a tree of settings says of a switch, when the tree was laid together from others by a library
that follows its manual. Of trees that hold truth values for the switches they mention, the last that
mentions a switch decides it. Nothing is asked of other keys. -/

namespace Interception

/-- A switch of a proxy. -/
inductive Switch where
  | preFiltered
  | exposeInvocation
  | frozen

namespace Switch

/-- The key of a switch in the table of a proxy's settings. -/
def key : Switch → String
  | preFiltered => "pre_filtered"
  | exposeInvocation => "expose_invocation"
  | frozen => "frozen"

/-- How a proxy has a switch. -/
def get : Switch → ProxyConfig → Bool
  | preFiltered, config => config.preFiltered
  | exposeInvocation, config => config.exposeInvocation
  | frozen, config => config.frozen

end Switch

namespace Settings

variable {τ ε : Type}

/-! ### What trees say of the switches -/

namespace Manual

/-- A table in which every switch that it has is a truth value. -/
structure HoldsSwitches (manual : Manual τ ε) (tree : τ) : Prop where
  isTable : manual.isTable tree
  truth : ∀ (switch : Switch) (value : τ), manual.get? tree switch.key = some value →
    (manual.truth? value).isSome

/-- A table in which the settings of proxies, if it has any, are a table of switches. -/
structure IsPlain (manual : Manual τ ε) (tree : τ) : Prop where
  isTable : manual.isTable tree
  proxy : ∀ proxy, manual.get? tree "proxy" = some proxy → manual.HoldsSwitches proxy

/-- The truth value under a key, if there is one. -/
def truthUnder? (manual : Manual τ ε) (tree : τ) (key : String) : Option Bool :=
  (manual.get? tree key).bind manual.truth?

/-- What a tree says of a switch, if it mentions it. -/
def said (manual : Manual τ ε) (switch : Switch) (tree : τ) : Option Bool :=
  (manual.get? tree "proxy").bind (manual.truthUnder? · switch.key)

end Manual

namespace Library.Follows

variable {library : Library τ ε} {manual : Manual τ ε} {below above tree : τ}

theorem holdsSwitches_empty (h : library.Follows manual) : manual.HoldsSwitches manual.empty where
  isTable := h.isTable_empty
  truth switch value hvalue := by
    rw [h.get?_empty] at hvalue
    cases hvalue

theorem isPlain_empty (h : library.Follows manual) : manual.IsPlain manual.empty where
  isTable := h.isTable_empty
  proxy proxy hproxy := by
    rw [h.get?_empty] at hproxy
    cases hproxy

theorem said_empty (h : library.Follows manual) (switch : Switch) :
    manual.said switch manual.empty = none := by
  rw [Manual.said, h.get?_empty]
  rfl

/-- A switch of the upper table stands as it is; one that it has not is that of the lower table. -/
theorem get?_overlay_switch (h : library.Follows manual) (hbelow : manual.HoldsSwitches below)
    (habove : manual.HoldsSwitches above) (switch : Switch) :
    manual.get? (manual.overlay below above) switch.key =
      (manual.get? above switch.key).or (manual.get? below switch.key) := by
  rw [h.get?_overlay switch.key hbelow.isTable habove.isTable]
  cases hvalue : manual.get? above switch.key with
  | none => rfl
  | some value =>
    have hleaf := h.truth_value (habove.truth switch value hvalue)
    exact congrArg some (h.overlay_value _ hleaf)

theorem holdsSwitches_overlay (h : library.Follows manual) (hbelow : manual.HoldsSwitches below)
    (habove : manual.HoldsSwitches above) : manual.HoldsSwitches (manual.overlay below above) where
  isTable := h.isTable_overlay hbelow.isTable habove.isTable
  truth switch value hvalue := by
    rw [h.get?_overlay_switch hbelow habove] at hvalue
    obtain hvalue | ⟨-, hvalue⟩ := Option.or_eq_some_iff.mp hvalue
    · exact habove.truth switch value hvalue
    · exact hbelow.truth switch value hvalue

theorem truthUnder?_overlay (h : library.Follows manual) (hbelow : manual.HoldsSwitches below)
    (habove : manual.HoldsSwitches above) (switch : Switch) :
    manual.truthUnder? (manual.overlay below above) switch.key =
      (manual.truthUnder? above switch.key).or (manual.truthUnder? below switch.key) := by
  rw [Manual.truthUnder?, Manual.truthUnder?, h.get?_overlay_switch hbelow habove]
  cases hvalue : manual.get? above switch.key with
  | none => rfl
  | some value =>
    obtain ⟨b, hb⟩ := Option.isSome_iff_exists.mp (habove.truth switch value hvalue)
    simp [hb]

theorem isPlain_overlay (h : library.Follows manual) (hbelow : manual.IsPlain below)
    (habove : manual.IsPlain above) : manual.IsPlain (manual.overlay below above) where
  isTable := h.isTable_overlay hbelow.isTable habove.isTable
  proxy proxy hproxy := by
    rw [h.get?_overlay "proxy" hbelow.isTable habove.isTable] at hproxy
    cases hnew : manual.get? above "proxy" with
    | none =>
      rw [hnew] at hproxy
      exact hbelow.proxy proxy hproxy
    | some new =>
      rw [hnew, Manual.merged, Option.some.injEq] at hproxy
      subst hproxy
      refine h.holdsSwitches_overlay ?_ (habove.proxy new hnew)
      cases hold : manual.get? below "proxy" with
      | none => exact h.holdsSwitches_empty
      | some old => exact hbelow.proxy old hold

/-- **What the upper tree says of a switch counts; where it says nothing, what the lower one says does.**
-/
theorem said_overlay (h : library.Follows manual) (hbelow : manual.IsPlain below)
    (habove : manual.IsPlain above) (switch : Switch) :
    manual.said switch (manual.overlay below above) =
      (manual.said switch above).or (manual.said switch below) := by
  rw [Manual.said, Manual.said, Manual.said, h.get?_overlay "proxy" hbelow.isTable habove.isTable]
  cases hnew : manual.get? above "proxy" with
  | none => rfl
  | some new =>
    -- The table of the upper tree is laid over that of the lower one, or over an empty one.
    cases hold : manual.get? below "proxy" with
    | none =>
      have hover := h.truthUnder?_overlay h.holdsSwitches_empty (habove.proxy new hnew) switch
      have hempty : manual.truthUnder? manual.empty switch.key = none := by
        rw [Manual.truthUnder?, h.get?_empty, Option.bind_none]
      rw [hempty] at hover
      exact hover
    | some old => exact h.truthUnder?_overlay (hbelow.proxy old hold) (habove.proxy new hnew) switch

theorem isPlain_foldl (h : library.Follows manual) {trees : List τ} (hbelow : manual.IsPlain below)
    (htrees : ∀ tree ∈ trees, manual.IsPlain tree) :
    manual.IsPlain (trees.foldl manual.overlay below) := by
  induction trees generalizing below with
  | nil => exact hbelow
  | cons first rest ih =>
    have hfirst := h.isPlain_overlay hbelow (htrees first List.mem_cons_self)
    exact ih hfirst fun tree htree => htrees tree (List.mem_cons_of_mem first htree)

/-- Of trees that are laid over one another the last that mentions a switch decides it. -/
theorem said_foldl (h : library.Follows manual) {trees : List τ} (hbelow : manual.IsPlain below)
    (htrees : ∀ tree ∈ trees, manual.IsPlain tree) (switch : Switch) :
    manual.said switch (trees.foldl manual.overlay below) =
      (trees.reverse.findSome? (manual.said switch)).or (manual.said switch below) := by
  -- By induction on the trees, over whatever lies below them.
  induction trees generalizing below with
  | nil => rfl
  | cons first rest ih =>
    have hfirst := htrees first List.mem_cons_self
    have hrest : ∀ tree ∈ rest, manual.IsPlain tree := fun tree htree =>
      htrees tree (List.mem_cons_of_mem first htree)
    rw [List.foldl_cons, ih (h.isPlain_overlay hbelow hfirst) hrest, h.said_overlay hbelow hfirst,
      List.reverse_cons, List.findSome?_append, Option.or_assoc, List.findSome?_singleton]

end Library.Follows

/-! ### What the variables say of the switches -/

/-- If all that is found is the same, it does not matter where the search begins. -/
theorem findSome?_eq_some_of_unique {α β : Type} {f : α → Option β} {l : List α} {a : α} {b : β}
    (hmem : a ∈ l) (hb : f a = some b) (hunique : ∀ x ∈ l, ∀ c, f x = some c → c = b) :
    l.findSome? f = some b := by
  cases hfound : l.findSome? f with
  | none =>
    rw [List.findSome?_eq_none_iff.mp hfound a hmem] at hb
    cases hb
  | some c =>
    obtain ⟨x, hx, hc⟩ := List.exists_of_findSome?_eq_some hfound
    rw [hunique x hx c hc]

section Keys

variable {start separator name text : String} {keys : List String} {host : Host}

theorem cutAt_ne_nil (separator : List Char) (left : Nat) (text : List Char) :
    cutAt separator left text ≠ [] := by
  fun_induction cutAt separator left text with
  | case1 => exact List.cons_ne_nil _ _
  | case2 _ _ _ ih => exact ih
  | case3 => exact List.cons_ne_nil _ _
  | case4 _ _ _ ih => rwa [ne_eq, List.modifyHead_eq_nil_iff]

theorem ne_nil_of_keysOf? (h : keysOf? start separator name = some keys) : keys ≠ [] := by
  rw [keysOf?] at h
  split at h
  · obtain rfl := Option.some.inj h
    exact mt List.map_eq_nil_iff.mp (cutAt_ne_nil _ _ _)
  · cases h

theorem Host.mem_entries_of_textUnder? (h : host.textUnder? start separator keys = some text) :
    (keys, text) ∈ host.entries start separator := by
  obtain ⟨before, after, happend, -⟩ := List.lookup_eq_some_iff.mp h
  refine List.mem_reverse.mp ?_
  rw [happend]
  exact List.mem_append_right before List.mem_cons_self

theorem Host.ne_nil_of_textUnder? (h : host.textUnder? start separator keys = some text) :
    keys ≠ [] := by
  obtain ⟨⟨name, value⟩, -, hentry⟩ := List.mem_filterMap.mp (Host.mem_entries_of_textUnder? h)
  obtain ⟨found, hfound, heq⟩ := Option.map_eq_some_iff.mp hentry
  obtain ⟨rfl, -⟩ := Prod.mk.inj heq
  exact ne_nil_of_keysOf? hfound

end Keys

/-- The variables speak of switches as plainly as the other sources do: none is the settings of proxies
as a whole, none lies below a switch, and those of switches are truth values. -/
structure Host.IsPlain (host : Host) : Prop where
  proxy : host.textUnder? variableStart variableSeparator ["proxy"] = none
  truth : ∀ (switch : Switch) (rest : List String) (text : String),
    host.textUnder? variableStart variableSeparator ("proxy" :: switch.key :: rest) = some text →
      rest = [] ∧ (truthIn? text).isSome

/-- What the variables say of a switch, if one of them mentions it. -/
def Host.said (host : Host) (switch : Switch) : Option Bool :=
  (host.textUnder? variableStart variableSeparator ["proxy", switch.key]).bind truthIn?

namespace Library.Follows

variable {library : Library τ ε} {manual : Manual τ ε} {host : Host} {keys : List String} {text : String}

/-- A value below the key of a switch is a truth value under it. -/
theorem holdsSwitches_nested (h : library.Follows manual) (hkeys : keys ≠ [])
    (htruth : ∀ (switch : Switch) rest, keys = switch.key :: rest → rest = [] ∧ (truthIn? text).isSome) :
    manual.HoldsSwitches (manual.nested keys (manual.parse text)) := by
  obtain ⟨key, rest, rfl⟩ := List.exists_cons_of_ne_nil hkeys
  refine ⟨h.isTable_single key _, fun switch value hvalue => ?_⟩
  rw [Manual.nested, List.foldr_cons, h.get?_single] at hvalue
  split at hvalue
  · rename_i hkey
    obtain ⟨rfl, hsome⟩ := htruth switch rest (by rw [hkey])
    obtain ⟨b, hb⟩ := Option.isSome_iff_exists.mp hsome
    obtain rfl := Option.some.inj hvalue
    rw [List.foldr_nil, h.parse_truth hb]
    rfl
  · cases hvalue

theorem truthUnder?_nested (h : library.Follows manual) (hkeys : keys ≠ [])
    (htruth : ∀ (switch : Switch) rest, keys = switch.key :: rest → rest = [] ∧ (truthIn? text).isSome)
    (switch : Switch) : manual.truthUnder? (manual.nested keys (manual.parse text)) switch.key =
      if keys = [switch.key] then truthIn? text else none := by
  obtain ⟨key, rest, rfl⟩ := List.exists_cons_of_ne_nil hkeys
  rw [Manual.truthUnder?, Manual.nested, List.foldr_cons, h.get?_single]
  by_cases hkey : switch.key = key
  · obtain ⟨rfl, hsome⟩ := htruth switch rest (by rw [hkey])
    obtain ⟨b, hb⟩ := Option.isSome_iff_exists.mp hsome
    rw [if_pos hkey, if_pos (by rw [hkey]), hb]
    exact h.parse_truth hb
  · rw [if_neg hkey, if_neg fun heq => hkey (List.cons.inj heq).1.symm]
    rfl

section Variable

variable (h : library.Follows manual) (hplain : host.IsPlain)
  (htext : host.textUnder? variableStart variableSeparator keys = some text)

include hplain htext in
/-- Below the key of the proxies a variable leads on, and a switch is where its keys end. -/
theorem rest_of_variable {rest : List String} (hkeys : keys = "proxy" :: rest) :
    rest ≠ [] ∧ ∀ (switch : Switch) below, rest = switch.key :: below →
      below = [] ∧ (truthIn? text).isSome := by
  subst hkeys
  refine ⟨?_, ?_⟩
  · rintro rfl
    rw [hplain.proxy] at htext
    cases htext
  · rintro switch below rfl
    exact hplain.truth switch below text htext

include h hplain htext

theorem isPlain_variable : manual.IsPlain (manual.nested keys (manual.parse text)) := by
  obtain ⟨key, rest, rfl⟩ := List.exists_cons_of_ne_nil (Host.ne_nil_of_textUnder? htext)
  refine ⟨h.isTable_single key _, fun proxy hproxy => ?_⟩
  rw [Manual.nested, List.foldr_cons, h.get?_single] at hproxy
  split at hproxy
  · rename_i hkey
    obtain ⟨hrest, htruth⟩ := rest_of_variable hplain htext (by rw [hkey])
    obtain rfl := Option.some.inj hproxy
    exact h.holdsSwitches_nested hrest htruth
  · cases hproxy

theorem said_variable (switch : Switch) :
    manual.said switch (manual.nested keys (manual.parse text)) =
      if keys = ["proxy", switch.key] then truthIn? text else none := by
  obtain ⟨key, rest, rfl⟩ := List.exists_cons_of_ne_nil (Host.ne_nil_of_textUnder? htext)
  rw [Manual.said, Manual.nested, List.foldr_cons, h.get?_single]
  by_cases hkey : "proxy" = key
  · obtain ⟨hrest, htruth⟩ := rest_of_variable hplain htext (by rw [hkey])
    have hunder := h.truthUnder?_nested hrest htruth switch
    simp only [hkey, List.cons.injEq, true_and]
    exact hunder
  · rw [if_neg hkey, if_neg fun heq => hkey (List.cons.inj heq).1.symm]
    rfl

end Variable

section Layered

variable (h : library.Follows manual) (hplain : host.IsPlain) {entries : List (List String × String)}
  (hentries : ∀ keys text,
    (keys, text) ∈ entries ↔ host.textUnder? variableStart variableSeparator keys = some text)

include h hplain hentries

theorem isPlain_entry : ∀ tree ∈ entries.map fun (keys, text) => manual.nested keys (manual.parse text),
    manual.IsPlain tree := by
  intro tree htree
  obtain ⟨⟨keys, text⟩, hmem, rfl⟩ := List.mem_map.mp htree
  exact h.isPlain_variable hplain ((hentries keys text).mp hmem)

/-- Only the last variable with the keys of a switch speaks of it, in whatever order the variables are
laid over one another. -/
theorem said_layered (switch : Switch) :
    manual.said switch (manual.layered entries) = host.said switch := by
  have hsaid : ∀ entry ∈ entries, manual.said switch (manual.nested entry.1 (manual.parse entry.2)) =
      if entry.1 = ["proxy", switch.key] then truthIn? entry.2 else none := fun entry hmem =>
    h.said_variable hplain ((hentries entry.1 entry.2).mp hmem) switch
  rw [Manual.layered, h.said_foldl h.isPlain_empty (h.isPlain_entry hplain hentries), h.said_empty,
    Option.or_none, ← List.map_reverse, List.findSome?_map, Host.said]
  cases htext : host.textUnder? variableStart variableSeparator ["proxy", switch.key] with
  | none =>
    refine List.findSome?_eq_none_iff.mpr fun entry hentry => ?_
    have hmem := List.mem_reverse.mp hentry
    refine (hsaid entry hmem).trans (if_neg fun hkeys => ?_)
    have hheld := (hentries entry.1 entry.2).mp hmem
    rw [hkeys, htext] at hheld
    cases hheld
  | some text =>
    obtain ⟨b, hb⟩ := Option.isSome_iff_exists.mp (hplain.truth switch [] text htext).2
    have hmem := (hentries _ text).mpr htext
    refine (findSome?_eq_some_of_unique (List.mem_reverse.mpr hmem) ((hsaid _ hmem).trans ?_) ?_).trans
      hb.symm
    · rw [if_pos rfl, hb]
    · intro entry hentry c hc
      have hmem := List.mem_reverse.mp hentry
      have hfound := (hsaid entry hmem).symm.trans hc
      split at hfound
      · rename_i hkeys
        have hheld := (hentries entry.1 entry.2).mp hmem
        rw [hkeys, htext] at hheld
        rw [← Option.some.inj hheld, hb] at hfound
        exact (Option.some.inj hfound).symm
      · cases hfound

end Layered

/-- **What the variables come to is plain, and says of a switch what the last variable with its keys
does.** -/
theorem collect_variables (h : library.Follows manual) (hplain : host.IsPlain) :
    ∃ tree, manual.collect host (.environment variableStart variableSeparator true) = .ok tree ∧
      manual.IsPlain tree ∧ ∀ switch, manual.said switch tree = host.said switch := by
  have hseparator : variableSeparator ≠ "" := by decide
  obtain ⟨entries, hentries, hcollect⟩ := h.collect_environment host variableStart hseparator
  exact ⟨_, hcollect, h.isPlain_foldl h.isPlain_empty (h.isPlain_entry hplain hentries),
    h.said_layered hplain hentries⟩

end Library.Follows

end Settings

end Interception
