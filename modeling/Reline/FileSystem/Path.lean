/-
  Reline.FileSystem.Path

  Paths as texts, and what can be said about them without a file system.

  A path is a text whose segments are separated by slashes. Empty segments and
  segments of one dot name nothing, a segment of two dots names the directory
  above.
-/

namespace Reline.FileSystem.Path

/-! ## Segments -/

/-- Splits characters at slashes; there is one segment more than slashes. -/
def splitSlash : List Char → List (List Char)
  | [] => [[]]
  | c :: rest =>
    match splitSlash rest with
    | [] => [[c]]
    | segment :: segments =>
      if c = '/' then [] :: segment :: segments else (c :: segment) :: segments

/-- The segments of a path. -/
def segments (path : String) : List String :=
  (splitSlash path.toList).map String.ofList

/-- The path of a list of segments. -/
def ofSegments (segments : List String) : String :=
  "/".intercalate segments

/-- Whether a path begins at the root. -/
def isAbsolute (path : String) : Bool :=
  path.toList.head? = some '/'

/-- Whether a path ends with a slash. -/
def endsWithSlash (path : String) : Bool :=
  path.toList.getLast? = some '/'

/-- Whether a segment names nothing. -/
def isNeutral (segment : String) : Bool :=
  segment = "" || segment = "."

/-- The segments that name something. -/
def names (path : String) : List String :=
  (segments path).filter fun segment => !isNeutral segment

/-! ## Parents and joining -/

/-- The list without neutral segments at its end. -/
def trimEnd (segments : List String) : List String :=
  (segments.reverse.dropWhile isNeutral).reverse

/-- A path as the segment that it cannot do without, empty for the root and a dot for the current
directory, and the segments behind that. -/
def anchor (path : String) : Option String × List String :=
  match segments path with
  | "" :: [] => (none, [])
  | "" :: rest => (some "", rest)
  | "." :: rest => (some ".", rest)
  | rest => (none, rest)

/-- The path of an anchor and the segments behind it. -/
def ofAnchor : Option String × List String → String
  | (none, segments) => ofSegments segments
  | (some "", segments) => "/" ++ ofSegments segments
  | (some anchor, segments) => ofSegments (anchor :: segments)

/-- The path without its last segment and the neutral ones around it; the root and the empty path
have no parent. -/
def parent (path : String) : Option String :=
  let (first, rest) := anchor path
  match trimEnd rest with
  | [] => if first = some "." then some "" else none
  | segment :: segments => some (ofAnchor (first, trimEnd (segment :: segments).dropLast))

/-- The path of `relative`, which is not absolute, taken from `base`. -/
def join (base relative : String) : String :=
  if base = "" || endsWithSlash base then base ++ relative else base ++ "/" ++ relative

/-- The absolute path of a path, given the current directory: neutral segments are dropped, those of
two dots, exactly two slashes in front and a slash at the end are kept. -/
def absolute (current path : String) : String :=
  let base :=
    match path.toList with
    | '/' :: '/' :: '/' :: _ => "/"
    | '/' :: '/' :: _ => "//"
    | '/' :: _ => "/"
    | _ => current
  let full := (names path).foldl join base
  if endsWithSlash path && !endsWithSlash full then full ++ "/" else full

end Reline.FileSystem.Path
