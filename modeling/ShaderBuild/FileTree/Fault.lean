namespace ShaderBuild

inductive FileFault
  | notFound
  | notExecutable
  | denied
  | alreadyExists
  | notDirectory
  | isDirectory
  | nameTooLong
  | tooManyLevels
  | zeroInName
  | notText
deriving DecidableEq, Repr, Inhabited

namespace FileFault

def reason : FileFault → String
  | notFound => "No such file or directory"
  | notExecutable => "Exec format error"
  | denied => "Permission denied"
  | alreadyExists => "File exists"
  | notDirectory => "Not a directory"
  | isDirectory => "Is a directory"
  | nameTooLong => "File name too long"
  | tooManyLevels => "Too many levels of symbolic links"
  | zeroInName => "file name contained an unexpected NUL byte"
  | notText => "stream did not contain valid UTF-8"

def number? : FileFault → Option Nat
  | notFound => some 2
  | notExecutable => some 8
  | denied => some 13
  | alreadyExists => some 17
  | notDirectory => some 20
  | isDirectory => some 21
  | nameTooLong => some 36
  | tooManyLevels => some 40
  | zeroInName | notText => none

def message (f : FileFault) : String :=
  match f.number? with
  | some n => s!"{f.reason} (os error {n})"
  | none => f.reason

end FileFault

end ShaderBuild
