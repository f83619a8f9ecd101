/-!
# Input and output errors

An error has a kind.  It comes from the operating system, with its number, or from the program, with a text
of its own.
-/

namespace LevelLink

/-- Kinds of input and output errors. -/
inductive IoKind where
  | notFound | connectionRefused | alreadyExists | notADirectory | isADirectory | invalidFilename
  | invalidInput | invalidData | interrupted | unexpectedEof | storageFull | other
  deriving DecidableEq, Repr

/-- Errors of the operating system. -/
inductive SystemError where
  | noEntry | fileExists | notADirectory | isADirectory | noSpace | nameTooLong | connectionRefused
  deriving DecidableEq, Repr

namespace SystemError

def number : SystemError → Nat
  | noEntry => 2
  | fileExists => 17
  | notADirectory => 20
  | isADirectory => 21
  | noSpace => 28
  | nameTooLong => 36
  | connectionRefused => 111

def text : SystemError → String
  | noEntry => "No such file or directory"
  | fileExists => "File exists"
  | notADirectory => "Not a directory"
  | isADirectory => "Is a directory"
  | noSpace => "No space left on device"
  | nameTooLong => "File name too long"
  | connectionRefused => "Connection refused"

def kind : SystemError → IoKind
  | noEntry => .notFound
  | fileExists => .alreadyExists
  | notADirectory => .notADirectory
  | isADirectory => .isADirectory
  | noSpace => .storageFull
  | nameTooLong => .invalidFilename
  | connectionRefused => .connectionRefused

end SystemError

/-- An input or output error. -/
inductive IoError where
  | system (error : SystemError)
  | custom (kind : IoKind) (text : String)
  deriving DecidableEq, Repr

namespace IoError

def kind : IoError → IoKind
  | system e => e.kind
  | custom k _ => k

/-- The wording of an input or output error. -/
def message : IoError → String
  | system e => s!"{e.text} (os error {e.number})"
  | custom _ text => text

/-- The name of a file contains a NUL. -/
def nulInName : IoError := custom .invalidInput "file name contained an unexpected NUL byte"

end IoError
end LevelLink
