/-!
# Plans of file access

A command reads or writes at most one file. Its plan says which, and what follows from the outcome,
so what a command does is a pure value and only carrying it out touches a disk.
-/

namespace ScopeMachine.Command

inductive FileFault where
  | notFound
  | isDirectory
  | notDirectory
  | nameTooLong
  | permissionDenied
  /-- The name has a NUL character in it. -/
  | nulInName
  /-- Any other reason, in the words of the system. -/
  | other (text : String)
  deriving DecidableEq, Repr

def FileFault.message : FileFault → String
  | notFound => "No such file or directory (os error 2)"
  | isDirectory => "Is a directory (os error 21)"
  | notDirectory => "Not a directory (os error 20)"
  | nameTooLong => "File name too long (os error 36)"
  | permissionDenied => "Permission denied (os error 13)"
  | nulInName => "file name contained an unexpected NUL byte"
  | other text => text

/-- What a command does about files on the way to its result. -/
inductive Plan (α : Type) where
  | done (result : α)
  | read (path : String) (next : Except FileFault (List UInt8) → α)
  | write (path : String) (content : List UInt8) (next : Except FileFault Unit → α)

namespace Plan

def map (f : α → β) : Plan α → Plan β
  | done result => done (f result)
  | read path next => read path fun r => f (next r)
  | write path content next => write path content fun r => f (next r)

end Plan

end ScopeMachine.Command
