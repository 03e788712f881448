import Interception.Proofs.Overlay

/-! Which source decides a switch of a proxy. The sources are the default file, the file that the caller
names, the file that the environment names, and the variables of the environment, in this order. Each
switch has the truth value from the last source that mentions it, whatever the sources say of the other
switches and of anything else. A file that is named and missing makes loading fail. All this holds with
every library that follows its manual. -/

namespace Interception

namespace Settings

section Libraries

variable {τ ε : Type} {library : Library τ ε} {manual : Manual τ ε} {host : Host}
  {path : Option String} {file : String} {tree : τ}

/-! ### Reading a tree -/

theorem ok_bind {α β : Type} (a : α) (f : α → Except ε β) : (Except.ok a >>= f) = f a := rfl

namespace Library.Follows

variable (h : library.Follows manual)

include h

/-- A switch that is left out is off, and one that is there is as it stands. -/
theorem orDefault_truth {field : String → Nat → Option τ} (htree : manual.HoldsSwitches tree)
    (hfield : ∀ name position, field name position = manual.get? tree name) (switch : Switch)
    (position : Nat) : orDefault false library.truth (field switch.key position) =
      .ok ((manual.truthUnder? tree switch.key).getD false) := by
  rw [hfield, Manual.truthUnder?]
  cases hvalue : manual.get? tree switch.key with
  | none => rfl
  | some value =>
    obtain ⟨b, hb⟩ := Option.isSome_iff_exists.mp (htree.truth switch value hvalue)
    rw [orDefault, h.truth_eq hb, Option.bind_some, hb]
    rfl

theorem proxyConfig_eq (htree : manual.HoldsSwitches tree) :
    ∃ config, proxyConfig library tree = .ok config ∧ ∀ switch : Switch,
      switch.get config = (manual.truthUnder? tree switch.key).getD false := by
  obtain ⟨field, hfields, hfield⟩ := h.fields_table htree.isTable
  have h0 := h.orDefault_truth htree hfield .preFiltered 0
  have h1 := h.orDefault_truth htree hfield .exposeInvocation 1
  have h2 := h.orDefault_truth htree hfield .frozen 2
  dsimp only [Switch.key] at h0 h1 h2
  rw [proxyConfig, hfields]
  simp only [ok_bind, h0, h1, h2]
  refine ⟨_, rfl, fun switch => ?_⟩
  cases switch <;> rfl

/-- From a plain tree each switch is read as the tree says, and is off if it says nothing. -/
theorem ofTree_eq (htree : manual.IsPlain tree) :
    ∃ settings, ofTree library tree = .ok settings ∧ ∀ switch : Switch,
      switch.get settings.proxy = (manual.said switch tree).getD false := by
  obtain ⟨field, hfields, hfield⟩ := h.fields_table htree.isTable
  rw [ofTree, hfields]
  simp only [ok_bind, hfield, Manual.said]
  cases hproxy : manual.get? tree "proxy" with
  | none =>
    refine ⟨{}, rfl, fun switch => ?_⟩
    cases switch <;> rfl
  | some proxy =>
    obtain ⟨config, hconfig, hswitches⟩ := h.proxyConfig_eq (htree.proxy proxy hproxy)
    simp only [orDefault, hconfig]
    exact ⟨{ proxy := config }, rfl, hswitches⟩

end Library.Follows

/-! ### The sources -/

theorem sources_eq (host : Host) (path : Option String) : sources host path =
    .file defaultFile false :: ((path.toList ++ (host.environment.lookup fileVariable).toList).map
      (.file · true) ++ [.environment variableStart variableSeparator true]) := by
  unfold sources
  cases path <;> cases host.environment.lookup fileVariable <;> rfl

/-- If one source cannot be read, none is. -/
theorem mapM_error {α β : Type} {f : α → Except ε β} {l : List α} {a : α} (hmem : a ∈ l)
    (ha : ∃ e, f a = .error e) : ∃ e, l.mapM f = .error e := by
  induction l with
  | nil => cases hmem
  | cons first rest ih =>
    rw [List.mapM_cons]
    cases hfirst : f first with
    | error e => exact ⟨e, rfl⟩
    | ok b =>
      obtain rfl | hrest := List.mem_cons.mp hmem
      · obtain ⟨e, he⟩ := ha
        rw [hfirst] at he
        cases he
      · obtain ⟨e, he⟩ := ih hrest
        exact ⟨e, by rw [he]; rfl⟩

theorem load_of_missing (h : library.Follows manual)
    (hnamed : path = some file ∨ host.environment.lookup fileVariable = some file)
    (hmissing : manual.find? host file = none) : ∃ e, load library host path = .error e := by
  have hmem : Source.file file true ∈ sources host path := by
    rw [sources_eq]
    obtain rfl | hvariable := hnamed
    · simp
    · simp [hvariable]
  obtain ⟨e, he⟩ := mapM_error hmem (h.collect_required hmissing)
  refine ⟨.load e, ?_⟩
  rw [load, h.build_eq, he]
  rfl

/-- A file is there, and this is what it is read as. -/
def Manual.Reads (manual : Manual τ ε) (host : Host) (file : String) (tree : τ) : Prop :=
  ∃ name text, manual.find? host file = some (name, text) ∧ manual.read name text = .ok tree

/-- What the files hold from which settings are read. A file that is named is there; the default file may
be missing. -/
structure Contents (manual : Manual τ ε) (host : Host) (path : Option String) where
  standard : Option τ
  named : Option τ
  fromVariable : Option τ
  standard_read : standard = none ∧ manual.find? host defaultFile = none ∨
    ∃ tree, standard = some tree ∧ manual.Reads host defaultFile tree
  named_read : Option.Rel (manual.Reads host) path named
  fromVariable_read : Option.Rel (manual.Reads host) (host.environment.lookup fileVariable) fromVariable

namespace Contents

/-- What the files hold, in the order of the files. -/
def files (contents : Contents manual host path) : List τ :=
  contents.standard.toList ++ (contents.named.toList ++ contents.fromVariable.toList)

/-- What the sources say of a switch, in their order: the files that are there, then the variables. -/
def said (contents : Contents manual host path) (switch : Switch) : List (Option Bool) :=
  contents.files.map (manual.said switch) ++ [host.said switch]

/-- What all sources come to, one after another. The default file counts as empty if it is missing. -/
def collected (contents : Contents manual host path) (vars : τ) : List τ :=
  contents.standard.getD manual.empty ::
    (contents.named.toList ++ (contents.fromVariable.toList ++ [vars]))

end Contents

namespace Library.Follows

variable (h : library.Follows manual)

include h

theorem collect_reads (hread : manual.Reads host file tree) (required : Bool) :
    manual.collect host (.file file required) = .ok tree := by
  obtain ⟨name, text, hfind, hread⟩ := hread
  rw [h.collect_file required hfind, hread]

theorem mapM_named {named : Option String} {content : Option τ}
    (hread : Option.Rel (manual.Reads host) named content) :
    (named.toList.map (Source.file · true)).mapM (manual.collect host) = .ok content.toList := by
  cases hread with
  | none => rfl
  | some hread =>
    simp only [Option.toList_some, List.map_cons, List.map_nil, List.mapM_cons, h.collect_reads hread]
    rfl

theorem collect_standard (contents : Contents manual host path) :
    manual.collect host (.file defaultFile false) = .ok (contents.standard.getD manual.empty) := by
  obtain ⟨hnone, hmissing⟩ | ⟨tree, hsome, hread⟩ := contents.standard_read
  · rw [hnone]
    exact h.collect_optional hmissing
  · rw [hsome]
    exact h.collect_reads hread false

/-- All sources can be read, each for what it holds. -/
theorem mapM_sources (contents : Contents manual host path)
    (htree : manual.collect host (.environment variableStart variableSeparator true) = .ok tree) :
    (sources host path).mapM (manual.collect host) = .ok (contents.collected tree) := by
  rw [sources_eq, List.mapM_cons, h.collect_standard contents, List.map_append, List.append_assoc,
    List.mapM_append, List.mapM_append, h.mapM_named contents.named_read,
    h.mapM_named contents.fromVariable_read, List.mapM_cons, htree]
  rfl

theorem isPlain_collected {contents : Contents manual host path}
    (hfiles : ∀ tree ∈ contents.files, manual.IsPlain tree) (htree : manual.IsPlain tree) :
    ∀ content ∈ contents.collected tree, manual.IsPlain content := by
  intro content hcontent
  rw [Contents.collected, List.mem_cons, ← List.append_assoc, List.mem_append, List.mem_singleton]
    at hcontent
  obtain rfl | hnamed | rfl := hcontent
  · cases hstandard : contents.standard with
    | none => exact h.isPlain_empty
    | some standard => exact hfiles standard (by simp [Contents.files, hstandard])
  · exact hfiles content (List.mem_append_right _ hnamed)
  · exact htree

/-- The last of the sources that speaks of a switch is found among what they come to. -/
theorem findSome?_collected (contents : Contents manual host path) {switch : Switch}
    (hsaid : manual.said switch tree = host.said switch) :
    (contents.collected tree).reverse.findSome? (manual.said switch) =
      (contents.said switch).reverse.findSome? id := by
  rw [Contents.said, ← hsaid, ← List.map_singleton, ← List.map_append, ← List.map_reverse,
    List.findSome?_map, Contents.files, Contents.collected, List.append_assoc, List.append_assoc]
  cases contents.standard with
  | none =>
    -- The missing file was collected as an empty one, which says nothing.
    rw [List.reverse_cons, List.findSome?_append, Option.getD_none, List.findSome?_singleton,
      h.said_empty, Option.or_none]
    rfl
  | some standard => rfl

end Library.Follows

/-- **The last source that mentions a switch decides it**, each switch by itself, and a switch that none
mentions is off. A file that is named has to be there, whatever the other sources are; the default file
may be missing. -/
theorem last_mention_decides (library : Library τ ε) (manual : Manual τ ε)
    (h : library.Follows manual) (host : Host) (path : Option String) :
    (∀ file, path = some file ∨ host.environment.lookup fileVariable = some file →
      manual.find? host file = none → ∃ e, load library host path = .error e) ∧
    ∀ contents : Contents manual host path,
      (∀ tree ∈ contents.files, manual.IsPlain tree) → host.IsPlain →
      ∃ settings, load library host path = .ok settings ∧ ∀ switch : Switch,
        switch.get settings.proxy = ((contents.said switch).reverse.findSome? id).getD false := by
  refine ⟨fun file => load_of_missing h, fun contents hfiles hhost => ?_⟩
  obtain ⟨vars, hcollect, hvars, hsaid⟩ := h.collect_variables hhost
  have hcollected := h.isPlain_collected hfiles hvars
  obtain ⟨settings, hread, hswitches⟩ := h.ofTree_eq (h.isPlain_foldl h.isPlain_empty hcollected)
  refine ⟨settings, ?_, fun switch => ?_⟩
  · rw [load, h.build_eq, h.mapM_sources contents hcollect]
    exact congrArg (Except.mapError LoadError.load) hread
  · rw [hswitches, h.said_foldl h.isPlain_empty hcollected, h.said_empty, Option.or_none,
      h.findSome?_collected contents (hsaid switch)]

end Libraries

/-! ### A library that follows its manual -/

/-- A tree of settings. -/
inductive Tree where
  | truth (b : Bool)
  /-- Any other value, as it is written. -/
  | scalar (text : String)
  | table (entries : List (String × Tree))

namespace Tree

/-- The entries of a table. A value has none. -/
def entries : Tree → List (String × Tree)
  | table entries => entries
  | _ => []

mutual

/-- Lays the second tree over the first. -/
def overlay (below : Tree) : Tree → Tree
  | table entries => table (overlayAll below entries ++ below.entries)
  | value => value

def overlayAll (below : Tree) : List (String × Tree) → List (String × Tree)
  | [] => []
  | (key, value) :: rest =>
    (key, overlay ((below.entries.lookup key).getD (table [])) value) :: overlayAll below rest

end

/-- The notions of the manual. The documents are those that can be read, each with what it says. -/
def notions (documents : List (String × Tree)) : Manual Tree String where
  isTable tree := ∃ entries, tree = table entries
  get? tree key := tree.entries.lookup key
  truth? tree := match tree with
    | truth b => some b
    | _ => none
  empty := table []
  single key value := table [(key, value)]
  overlay := overlay
  parse text := match truthIn? text with
    | some b => truth b
    | none => scalar text
  furtherNames name := [name ++ ".yaml", name ++ ".yml"]
  read name text := match documents.lookup text with
    | some tree => .ok tree
    | none => .error (name ++ " cannot be read")
  collect _ _ := .error "no source"

/-- The variables that count, each with its keys. -/
def lastEntries (host : Host) (start separator : String) : List (List String × String) :=
  (host.entries start separator).filter fun (keys, text) =>
    host.textUnder? start separator keys = some text

/-- What a source comes to. -/
def collect (documents : List (String × Tree)) (host : Host) : Source → Except String Tree
  | .file path required =>
    match (notions documents).find? host path with
    | some (name, text) => (notions documents).read name text
    | none => if required then .error (path ++ " not found") else .ok (table [])
  | .environment start separator _ =>
    .ok ((notions documents).layered (lastEntries host start separator))

def manual (documents : List (String × Tree)) : Manual Tree String :=
  { notions documents with collect := collect documents }

def library (documents : List (String × Tree)) : Library Tree String where
  build host sources := (sources.mapM (collect documents host)).map (·.foldl overlay (table []))
  fields tree := match tree with
    | table entries => .ok fun name _ => entries.lookup name
    | _ => .error "expected a table"
  truth tree := match tree with
    | truth b => .ok b
    | _ => .error "expected a boolean"
  wording e := e

theorem overlay_table (below : Tree) (entries : List (String × Tree)) :
    overlay below (table entries) = table (overlayAll below entries ++ below.entries) := by
  rw [overlay]

theorem lookup_overlayAll (below : Tree) (entries old : List (String × Tree)) (key : String) :
    (overlayAll below entries ++ old).lookup key = match entries.lookup key with
      | some value => some (overlay ((below.entries.lookup key).getD (table [])) value)
      | none => old.lookup key := by
  induction entries with
  | nil => rfl
  | cons first rest ih =>
    obtain ⟨name, value⟩ := first
    rw [overlayAll, List.cons_append, List.lookup_cons, List.lookup_cons, ih]
    by_cases hkey : key = name
    · subst hkey
      simp only [beq_self_eq_true]
    · simp only [beq_eq_false_iff_ne.mpr hkey]

theorem mem_lastEntries (host : Host) (start separator : String) (keys : List String) (text : String) :
    (keys, text) ∈ lastEntries host start separator ↔
      host.textUnder? start separator keys = some text := by
  simp only [lastEntries, List.mem_filter, decide_eq_true_eq, and_iff_right_iff_imp]
  exact Host.mem_entries_of_textUnder?

theorem follows (documents : List (String × Tree)) : (library documents).Follows (manual documents) where
  build_eq host sources := rfl
  isTable_empty := ⟨[], rfl⟩
  get?_empty key := rfl
  isTable_single key value := ⟨_, rfl⟩
  get?_single key other value := by
    change [(key, value)].lookup other = _
    by_cases hkey : other = key
    · simp [hkey]
    · simp [List.lookup_cons, hkey, beq_eq_false_iff_ne.mpr hkey]
  isTable_overlay := by
    rintro below - - ⟨new, rfl⟩
    exact ⟨_, overlay_table below new⟩
  get?_overlay := by
    rintro below - key - ⟨new, rfl⟩
    change (overlay below (table new)).entries.lookup key = (manual documents).merged _ (new.lookup key)
    rw [overlay_table, entries, lookup_overlayAll]
    cases new.lookup key <;> rfl
  overlay_value := by
    intro above below habove
    change overlay below above = above
    cases above with
    | table entries => exact absurd ⟨entries, rfl⟩ habove
    | truth b => rw [overlay]; simp
    | scalar text => rw [overlay]; simp
  truth_value := by
    rintro tree htruth ⟨entries, rfl⟩
    cases htruth
  collect_file := by
    intro host path name text required hfind
    change (notions documents).find? host path = some (name, text) at hfind
    simp only [manual, collect, hfind]
  collect_optional := by
    intro host path hfind
    change (notions documents).find? host path = none at hfind
    simp only [manual, collect, hfind]
    rfl
  collect_required := by
    intro host path hfind
    change (notions documents).find? host path = none at hfind
    simp [manual, collect, hfind]
  collect_environment host start separator _ :=
    ⟨lastEntries host start separator, mem_lastEntries host start separator, rfl⟩
  parse_truth := by
    intro text b htext
    simp only [manual, notions, htext]
  fields_table := by
    rintro tree ⟨entries, rfl⟩
    exact ⟨_, rfl, fun name position => rfl⟩
  truth_eq := by
    intro tree b htruth
    cases tree with
    | truth found =>
      obtain rfl := Option.some.inj htruth
      rfl
    | scalar text => cases htruth
    | table entries => cases htruth

theorem isPlain_proxy (documents : List (String × Tree)) {switches : List (String × Tree)}
    (h : ∀ (switch : Switch) value, switches.lookup switch.key = some value → ∃ b, value = truth b) :
    (manual documents).IsPlain (table [("proxy", table switches)]) where
  isTable := ⟨_, rfl⟩
  proxy proxy hproxy := by
    obtain rfl := Option.some.inj hproxy
    refine ⟨⟨_, rfl⟩, fun switch value hvalue => ?_⟩
    obtain ⟨b, rfl⟩ := h switch value hvalue
    rfl

end Tree

/-- The text of a file that turns two switches on, and what it says. -/
def baseDocument : String × Tree :=
  ("proxy:\n  frozen: true\n  pre_filtered: true\n",
    .table [("proxy", .table [("frozen", .truth true), ("pre_filtered", .truth true)])])

/-- The text of a file that turns one of them off, and what it says. -/
def extraDocument : String × Tree :=
  ("proxy:\n  frozen: false\n  x: 1\n",
    .table [("proxy", .table [("frozen", .truth false), ("x", .scalar "1")])])

/-- Two files, neither of which is the default one, and variables of which one names a file and one turns
a switch on. -/
def layeredHost : Host where
  files := fun path =>
    [("/etc/weft/base.yaml", baseDocument.1), ("./extra.yaml", extraDocument.1)].lookup path
  environment := [("WEFT_CONFIG", "./extra"), ("WEFT__PROXY__EXPOSE_INVOCATION", "TRUE"), ("WEFT__X", "1")]

theorem entries_layeredHost : layeredHost.entries variableStart variableSeparator =
    [(["proxy", "expose_invocation"], "TRUE"), (["x"], "1")] := by
  decide +kernel

theorem isPlain_layeredHost : layeredHost.IsPlain where
  proxy := by
    rw [Host.textUnder?, entries_layeredHost]
    rfl
  truth switch rest text htext := by
    have hmem := Host.mem_entries_of_textUnder? htext
    rw [entries_layeredHost] at hmem
    have htrue : (truthIn? "TRUE").isSome := by decide +kernel
    cases switch <;> simp_all [Switch.key]

/-- What the files hold when the caller names the other one. -/
def layeredContents : Contents (Tree.manual [baseDocument, extraDocument]) layeredHost
    (some "/etc/weft/base.yaml") where
  standard := none
  named := some baseDocument.2
  fromVariable := some extraDocument.2
  standard_read := .inl ⟨rfl, by decide +kernel⟩
  named_read := .some ⟨"/etc/weft/base.yaml", baseDocument.1, rfl, rfl⟩
  fromVariable_read := .some ⟨"./extra.yaml", extraDocument.1, rfl, rfl⟩

theorem isPlain_layeredContents (tree : Tree) (htree : tree ∈ layeredContents.files) :
    (Tree.manual [baseDocument, extraDocument]).IsPlain tree := by
  obtain rfl | rfl : tree = baseDocument.2 ∨ tree = extraDocument.2 := by
    simpa [Contents.files, layeredContents] using htree
  · refine Tree.isPlain_proxy _ fun switch value hvalue => ?_
    cases switch <;> cases hvalue <;> exact ⟨_, rfl⟩
  · refine Tree.isPlain_proxy _ fun switch value hvalue => ?_
    cases switch <;> cases hvalue
    exact ⟨_, rfl⟩

/-- The file that comes later turns off what it mentions and leaves the other switch on, the environment
turns on the third, and a file that is named and missing is an error. -/
theorem last_mention_decides_layered :
    (∃ e, load (Tree.library [baseDocument, extraDocument]) layeredHost (some "lost.yaml") = .error e) ∧
    ∃ settings, load (Tree.library [baseDocument, extraDocument]) layeredHost
        (some "/etc/weft/base.yaml") = .ok settings ∧
      settings.proxy.preFiltered = true ∧ settings.proxy.exposeInvocation = true ∧
      settings.proxy.frozen = false := by
  have hfollows := Tree.follows [baseDocument, extraDocument]
  have hmissing : (Tree.manual [baseDocument, extraDocument]).find? layeredHost "lost.yaml" = none := by
    decide +kernel
  obtain ⟨settings, hload, hswitches⟩ :=
    (last_mention_decides _ _ hfollows layeredHost (some "/etc/weft/base.yaml")).2 layeredContents
      isPlain_layeredContents isPlain_layeredHost
  refine ⟨?_, settings, hload, ?_, ?_, ?_⟩
  · exact (last_mention_decides _ _ hfollows layeredHost (some "lost.yaml")).1 "lost.yaml" (.inl rfl)
      hmissing
  · exact (hswitches .preFiltered).trans (by decide +kernel)
  · exact (hswitches .exposeInvocation).trans (by decide +kernel)
  · exact (hswitches .frozen).trans (by decide +kernel)

end Settings

end Interception
