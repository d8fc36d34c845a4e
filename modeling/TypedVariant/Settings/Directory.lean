import TypedVariant.Settings.Load

/-! # A directory and the paths from it

A directory is given by a listing of what lies in it and below it. A path is
followed part by part, and each part but the last must be a directory. What lies
above the directory is not listed: there the directories alone are known that a
path reaches by going up. Names and paths have a greatest length.
-/

namespace TypedVariant.Settings

def parentPart : String := ".."

/-- The paths below a directory, with the content of those that are files. -/
abbrev Listing := List (String × Option String)

inductive Place
  /-- A directory or file of the listing, by the names that lead to it, the last one first. -/
  | inside (names : List String)
  /-- A directory above the listing. -/
  | above
  /-- Behind a name that is too long. -/
  | overlong
  | nowhere
  deriving DecidableEq, Repr

/-- What a listing holds under the names that lead to it. -/
def Listing.stateOf (listing : Listing) : (names : List String) → FileState
  | [] => .directory
  | names =>
    match listing.find? (·.1 == "/".intercalate names.reverse) with
    | some (_, some content) => .file content
    | some (_, none) => .directory
    | none => .missing

namespace Place

def state (listing : Listing) : Place → FileState
  | inside names => listing.stateOf names
  | above => .directory
  | overlong => .overlong
  | nowhere => .missing

def nameLimit : Nat := 255

/-- The place one part of a path further on. -/
def step (listing : Listing) (place : Place) (part : String) : Place :=
  match place, place.state listing with
  | overlong, _ => overlong
  | _, .directory =>
    if nameLimit < part.utf8ByteSize then overlong
    else
      match place with
      | inside names =>
        if part = parentPart then
          match names with
          | [] => above
          | _ :: rest => inside rest
        else inside (part :: names)
      | _ => if part = parentPart then above else nowhere
  | _, _ => nowhere

end Place

def pathLimit : Nat := 4095

/-- The files that paths lead to from a directory. No name holds the null character. -/
def Listing.files (listing : Listing) : Files := fun path =>
  let start := if path.startsWith "/" then Place.above else .inside []
  if path.contains '\x00' then .missing
  else if pathLimit < path.utf8ByteSize then .overlong
  else ((pathParts path).foldl (Place.step listing) start).state listing

end TypedVariant.Settings
