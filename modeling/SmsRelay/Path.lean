-- SUMMARY: File paths as text.
/-!
# File paths

Paths as text, with `/` between their steps. Two leading slashes are a root of
their own; three or more are as good as one.
-/

namespace SmsRelay.Path

def isAbsolute (path : String) : Bool := path.startsWith "/"

/-- A path below a directory. An absolute path stands for itself. -/
def join (directory path : String) : String :=
  if isAbsolute path then path
  else if directory = "" ∨ directory.endsWith "/" then directory ++ path
  else directory ++ "/" ++ path

/-- The steps of a path. -/
def steps (path : String) : List String := (path.splitOn "/").filter (· ≠ "")

/-- Take one step from a place, given as the steps to it with the last one first. A step up from
the root leads to the root. -/
def walk (place : List String) (step : String) : List String :=
  if step = "." then place
  else if step = ".." then place.tail
  else step :: place

/-- The place that steps from the root lead to. -/
def resolve (steps : List String) : List String := (steps.foldl walk []).reverse

/-- The slashes that an absolute path starts with, as far as they matter. -/
def rootOf (path : String) : String :=
  if path.startsWith "//" ∧ ¬path.startsWith "///" then "//" else "/"

/-- The shortest absolute path to the same place, for a path below a directory. -/
def absolute (directory path : String) : String :=
  let full := join directory path
  rootOf full ++ "/".intercalate (resolve (steps full))

/-- The last step of a path as written; empty if the path ends with a slash. -/
def lastStep (path : String) : String := (path.splitOn "/").getLastD ""

/-- All of a path before its last step, as written. -/
def parent (path : String) : String := "/".intercalate (path.splitOn "/").dropLast

/-- Whether a path is written as one to a directory. -/
def endsAsDirectory (path : String) : Bool := lastStep path ∈ ["", ".", ".."]

/-- Whether a place is a given directory or one above it. -/
def leadsTo (path directory : String) : Bool :=
  (resolve (steps path)).isPrefixOf (resolve (steps directory))

@[simp] theorem walk_dot (place : List String) : walk place "." = place := rfl

@[simp] theorem walk_dotdot (place : List String) : walk place ".." = place.tail := rfl

end SmsRelay.Path
