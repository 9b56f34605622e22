import Ploydok.Text.Segments

/-! Paths, read segment by segment: an empty segment and `.` stay where they are, `..` goes one up,
and at the root it stays there. -/

namespace Ploydok.Text

abbrev Segments := List (List Char)

def enter (dir : Segments) (segment : List Char) : Segments :=
  if segment = [] ∨ segment = ['.'] then dir
  else if segment = ['.', '.'] then dir.dropLast
  else dir ++ [segment]

def walk (dir : Segments) (segments : Segments) : Segments := segments.foldl enter dir

def pathSegments (path : List Char) : Segments := path.splitOn '/'

def normalizePath (path : List Char) : Segments := walk [] (pathSegments path)

def resolvePath (dir : Segments) (path : List Char) : Segments :=
  if startsWith path ['/'] then normalizePath path else walk dir (pathSegments path)

theorem walk_append (dir xs ys : Segments) : walk dir (xs ++ ys) = walk (walk dir xs) ys :=
  List.foldl_append

theorem pathSegments_append (a b : List Char) :
    pathSegments (a ++ '/' :: b) = pathSegments a ++ pathSegments b :=
  List.splitOn_append_cons_self a b

theorem normalizePath_append (a b : List Char) :
    normalizePath (a ++ '/' :: b) = walk (normalizePath a) (pathSegments b) := by
  rw [normalizePath,pathSegments_append,walk_append]
  rfl

/-- A leading `./` does nothing. -/
theorem walk_dot_slash (dir : Segments) (path : List Char) :
    walk dir (pathSegments (['.', '/'] ++ path)) = walk dir (pathSegments path) := by
  have hsplit : pathSegments (['.', '/'] ++ path) = ['.'] :: pathSegments path :=
    pathSegments_append ['.'] path
  rw [hsplit]
  rfl

end Ploydok.Text
