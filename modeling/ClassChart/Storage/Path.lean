import ClassChart.Text.Split

/-!
Paths in normal form: a root and the components below it.  Empty components and
`.` say nothing and are dropped; `..` is kept, because what it names depends on
the file system.
-/
namespace ClassChart

/-- A path.  The root is empty for a path relative to the working directory. -/
structure Path where
  root : String := ""
  parts : List String := []
deriving Repr, DecidableEq, Inhabited

namespace Path

def partsOf (s : String) : List String :=
  (Text.split '/' s).filter fun part => part != "" && part != "."

/-- The root of a written path.  Exactly two leading slashes are a root of their
own. -/
def rootOf (s : String) : String :=
  if Text.beginsWith "//" s && !Text.beginsWith "///" s then "//"
  else if Text.beginsWith "/" s then "/"
  else ""

def ofString (s : String) : Path :=
  ⟨rootOf s, partsOf s⟩

/-- The path of `s` seen from `p`.  A path with a root stands for itself. -/
def join (p : Path) (s : String) : Path :=
  if rootOf s = "" then { p with parts := p.parts ++ partsOf s } else ofString s

def text (p : Path) : String :=
  if p.root = "" && p.parts.isEmpty then "." else p.root ++ "/".intercalate p.parts

def parent (p : Path) : Path :=
  { p with parts := p.parts.dropLast }

example : (ofString "./o/").text = "o" ∧ (ofString "").text = "." := by decide +kernel

example : ((ofString "out").join "a//b/./c").text = "out/a/b/c" := by decide +kernel

example : ((ofString "out").join "/a").text = "/a" := by decide +kernel

end Path

end ClassChart
