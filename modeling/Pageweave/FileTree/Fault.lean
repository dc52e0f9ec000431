/-!
# Faults of the file system

Why a file could not be reached, read or written, with the number that the system gives it.
-/
namespace Pageweave

/-- The kinds of faults that advice is given about, and a few that only tests of it tell apart. -/
inductive FaultKind where
  | notFound | permissionDenied | alreadyExists | invalidData | other
  deriving DecidableEq

inductive FileFault where
  | missing | exists | notDirectory | isDirectory | nameTooLong | notEmpty | tooManyLinks
  | intoItself
  | notText
  | nulInName
  /-- An entry that a listing could not look at. -/
  | unreadable (path : String) (fault : FileFault)
  /-- A link to a directory that it lies in. -/
  | linkLoop (link ancestor : String)
  | other (kind : FaultKind) (text : String)
  deriving DecidableEq

namespace FileFault

def message : FileFault → String
  | .missing => "No such file or directory (os error 2)"
  | .exists => "File exists (os error 17)"
  | .notDirectory => "Not a directory (os error 20)"
  | .isDirectory => "Is a directory (os error 21)"
  | .nameTooLong => "File name too long (os error 36)"
  | .notEmpty => "Directory not empty (os error 39)"
  | .tooManyLinks => "Too many levels of symbolic links (os error 40)"
  | .intoItself => "Invalid argument (os error 22)"
  | .notText => "stream did not contain valid UTF-8"
  | .nulInName => "file name contained an unexpected NUL byte"
  | .unreadable path fault => "IO error for operation on " ++ path ++ ": " ++ fault.message
  | .linkLoop link ancestor => "File system loop found: " ++ link ++ " points to an ancestor " ++ ancestor
  | .other _ text => text

/-- What lies behind a fault. -/
def causes : FileFault → List String
  | .unreadable _ fault => fault.message :: fault.causes
  | _ => []

def kind : FileFault → FaultKind
  | .missing => .notFound
  | .exists => .alreadyExists
  | .notText => .invalidData
  | .unreadable _ fault => fault.kind
  | .other kind _ => kind
  | _ => .other

end FileFault
end Pageweave
