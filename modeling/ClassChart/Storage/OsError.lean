import ClassChart.Text.Quoted

/-!
The ways in which an operation on the file system fails.
-/
namespace ClassChart

/-- Why an operation on the file system failed. -/
inductive Errno where
  | noEntry
  | denied
  | exists
  | notDirectory
  | isDirectory
  | noSpace
  | readOnly
  | nameTooLong
  | other (code : Nat) (text : String)
deriving Repr, DecidableEq, Inhabited

def Errno.code : Errno → Nat
  | .noEntry => 2
  | .denied => 13
  | .exists => 17
  | .notDirectory => 20
  | .isDirectory => 21
  | .noSpace => 28
  | .readOnly => 30
  | .nameTooLong => 36
  | .other code _ => code

def Errno.text : Errno → String
  | .noEntry => "No such file or directory"
  | .denied => "Permission denied"
  | .exists => "File exists"
  | .notDirectory => "Not a directory"
  | .isDirectory => "Is a directory"
  | .noSpace => "No space left on device"
  | .readOnly => "Read-only file system"
  | .nameTooLong => "File name too long"
  | .other _ text => text

/-- A failed operation: why, and on which path. -/
structure OsError where
  errno : Errno
  path : String
deriving Repr, DecidableEq, Inhabited

def OsError.message (e : OsError) : String :=
  s!"[Errno {e.errno.code}] {e.errno.text}: {Text.quoted e.path}"

end ClassChart
