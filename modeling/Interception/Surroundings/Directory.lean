import Interception.Settings

/-! A working directory, as a stand-in for the files that a process finds: paths lead from it to files
below it. Nothing is proved of it. -/

namespace Interception.Surroundings

/-- The texts of files by their names, which lead to them from the working directory. -/
abbrev Files := List (String × String)

abbrev Place := List String

def partsOf (path : String) : List String :=
  let cut (c : Char) (parts : List (List Char)) : List (List Char) :=
    if c = '/' then [] :: parts else parts.modifyHead (c :: ·)
  (path.toList.foldr cut [[]]).map String.ofList

/-- Whether a place is a directory: the working directory, or one with a file in it. -/
def isDirectory (files : Files) (place : Place) : Bool :=
  place.isEmpty || files.any fun (name, _) =>
    let names := partsOf name
    place.isPrefixOf names && place.length < names.length

/-- The place to which the parts of a path lead from another one. Every part but the first starts in a
directory. Nothing is known of places outside the working directory. -/
def walk? (files : Files) : Place → List String → Option Place
  | place, [] => some place
  | place, part :: rest =>
    if !isDirectory files place then none
    else if part = "" || part = "." then walk? files place rest
    else if part = ".." then if place.isEmpty then none else walk? files place.dropLast rest
    else walk? files (place ++ [part]) rest

/-- The text of the file to which the parts of a path lead. -/
def textAt? (files : Files) (parts : List String) : Option String := do
  let place ← walk? files [] parts
  if place.isEmpty then none else files.lookup ("/".intercalate place)

/-- A process in a working directory, which knows of no other files. -/
def hostIn (files : Files) (environment : List (String × String)) : Settings.Host where
  files path := if path.startsWith "/" then none else textAt? files (partsOf path)
  environment

end Interception.Surroundings
