import Interception.Proxy

/-! Settings and how they are loaded: from a file of a fixed name, if there is one, from a file that the
caller names, from a file that the environment names, and from variables of the environment. Which
sources there are, in which order they stand and what is read from them is decided here. Files and
variables are read, and sources are laid over one another, by a library for settings, which is a
parameter. -/

namespace Interception

structure Settings where
  proxy : ProxyConfig := {}
  deriving DecidableEq, Inhabited

namespace Settings

/-- The file that is read if it is there. -/
def defaultFile : String := "weft.yaml"

def fileVariable : String := "WEFT_CONFIG"

/-- What the names of variables that are settings start with. -/
def variableStart : String := "WEFT"

/-- What stands behind the start of such a name and between its keys. -/
def variableSeparator : String := "__"

/-- What a process finds: the texts of files by the paths that lead to them, and the variables of the
environment. -/
structure Host where
  files : String → Option String
  environment : List (String × String)

inductive Source where
  /-- A YAML file. If it is required it has to be there. -/
  | file (path : String) (required : Bool)
  /-- The variables of the environment that start alike. Their values may be parsed or taken as text. -/
  | environment (start separator : String) (parsed : Bool)

/-- A library for settings, as far as it is used. It makes trees of settings, or errors. -/
structure Library (τ ε : Type) where
  /-- Reads the sources and lays each of them over those before it. -/
  build : Host → List Source → Except ε τ
  /-- The fields of a record: by their names from a table, by their positions from a list. -/
  fields : τ → Except ε (String → Nat → Option τ)
  truth : τ → Except ε Bool
  wording : ε → String

inductive LoadError (ε : Type) where
  | load (cause : ε)

variable {τ ε : Type}

def LoadError.message (library : Library τ ε) : LoadError ε → String
  | load cause => "Failed to load configuration: " ++ library.wording cause

/-- The sources of the settings, the later ones over the earlier ones. -/
def sources (host : Host) (path : Option String) : List Source :=
  let standard := [.file defaultFile false]
  let withNamed := match path with
    | some file => standard ++ [.file file true]
    | none => standard
  let withFiles := match host.environment.lookup fileVariable with
    | some file => withNamed ++ [.file file true]
    | none => withNamed
  withFiles ++ [.environment variableStart variableSeparator true]

/-- Reads what a record may leave out. -/
def orDefault {α : Type} (default : α) (read : τ → Except ε α) : Option τ → Except ε α
  | none => .ok default
  | some tree => read tree

/-- The switches of a proxy. Fields of other names are passed over. -/
def proxyConfig (library : Library τ ε) (tree : τ) : Except ε ProxyConfig := do
  let field ← library.fields tree
  let standard : ProxyConfig := {}
  let preFiltered ← orDefault standard.preFiltered library.truth (field "pre_filtered" 0)
  let exposeInvocation ← orDefault standard.exposeInvocation library.truth (field "expose_invocation" 1)
  let frozen ← orDefault standard.frozen library.truth (field "frozen" 2)
  pure { preFiltered, exposeInvocation, frozen }

def ofTree (library : Library τ ε) (tree : τ) : Except ε Settings := do
  let field ← library.fields tree
  let standard : Settings := {}
  let proxy ← orDefault standard.proxy (proxyConfig library) (field "proxy" 0)
  pure { proxy }

def load (library : Library τ ε) (host : Host) (path : Option String) :
    Except (LoadError ε) Settings :=
  (library.build host (sources host path) >>= ofTree library).mapError .load

end Settings

end Interception
