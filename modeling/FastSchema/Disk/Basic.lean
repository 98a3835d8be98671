import FastSchema.Disk.Path

/-!
# Access to files

What a program may do with files, in any monad, and why it may fail, worded as the operating system
words it. A program written over it runs on a real disk as well as on a file system that is a value.
-/

namespace FastSchema

namespace Disk

/-- Why a step on a disk failed. The name of an entry and a whole path may be too long, neither may
hold a NUL character, and the content of a file has to be UTF-8. -/
inductive Failure where
  | notFound
  | alreadyExists
  | notDirectory
  | isDirectory
  | nameTooLong
  | nulInPath
  | notText
  | other (description : String)
deriving DecidableEq, Repr, Inhabited

def Failure.message : Failure → String
  | .notFound => "No such file or directory (os error 2)"
  | .alreadyExists => "File exists (os error 17)"
  | .notDirectory => "Not a directory (os error 20)"
  | .isDirectory => "Is a directory (os error 21)"
  | .nameTooLong => "File name too long (os error 36)"
  | .nulInPath => "file name contained an unexpected NUL byte"
  | .notText => "stream did not contain valid UTF-8"
  | .other description => description

end Disk

/-- What a program may do on a disk. A directory is created with those it lies in, and a file that
is written is created or has its content replaced. -/
structure Disk (m : Type → Type) where
  read : Disk.Path → m (Except Disk.Failure (List UInt8))
  createDirs : Disk.Path → m (Except Disk.Failure Unit)
  write : Disk.Path → List UInt8 → m (Except Disk.Failure Unit)

end FastSchema
