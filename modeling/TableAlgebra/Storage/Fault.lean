import TableAlgebra.Text.Utf8

/-!
# Faults of loading and saving

Why a path cannot be opened, why a source cannot become a table, and why a table cannot be written.
-/

namespace TableAlgebra.Storage

/-- Why a path leads to no file. -/
inductive PathCause where
  | notFound
  | permissionDenied
  | notDirectory
  | isDirectory
  | nameTooLong
  deriving Repr, DecidableEq

def PathCause.text : PathCause → Text
  | .notFound => "[Errno 2] No such file or directory"
  | .permissionDenied => "[Errno 13] Permission denied"
  | .notDirectory => "[Errno 20] Not a directory"
  | .isDirectory => "[Errno 21] Is a directory"
  | .nameTooLong => "[Errno 36] File name too long"

structure PathFault where
  cause : PathCause
  path : Text
  deriving Repr, DecidableEq

def PathFault.message (f : PathFault) : Text := f.cause.text ++ ": " ++ f.path.quote

/-- Why a device takes no more bytes, by number and wording. -/
structure DeviceFault where
  number : Nat
  wording : Text
  deriving Repr, DecidableEq

def DeviceFault.message (f : DeviceFault) : Text :=
  "[Errno " ++ .ofNat f.number ++ "] " ++ f.wording

/-- Why a source cannot become a table. -/
inductive LoadFault where
  | missing (source : Text)
  | unreadable (source : Text) (fault : PathFault)
  | notUtf8 (source : Text) (reason : Text.Utf8.Reason)
  | headerWidth (found : Nat) (table : Text) (expected : Nat)
  | recordWidth (found expected : Nat)
  | notInteger (field : Text)
  deriving Repr, DecidableEq

def LoadFault.message : LoadFault → Text
  | .missing s => "The specified file " ++ s ++ " does not exist"
  | .unreadable s f => "Unable to read " ++ s ++ ": " ++ f.message
  | .notUtf8 s r => s ++ " is not UTF-8 text: " ++ r.message
  | .headerWidth n t m =>
    "Header has " ++ .ofNat n ++ " column(s), " ++ t ++ " is defined with " ++ .ofNat m
  | .recordWidth n m => "Record has " ++ .ofNat n ++ " field(s), expected " ++ .ofNat m
  | .notInteger f => "Cannot convert '" ++ f ++ "' to int"

inductive SaveFault where
  | readOnly (target : Text)
  | unwritable (target : Text) (fault : PathFault)
  | cutShort (target : Text) (fault : DeviceFault)
  deriving Repr, DecidableEq

def SaveFault.message : SaveFault → Text
  | .readOnly t => "The file " ++ t ++ " cannot be written to."
  | .unwritable t f => "Unable to write " ++ t ++ ": " ++ f.message
  | .cutShort t f => "Unable to write " ++ t ++ ": " ++ f.message

end TableAlgebra.Storage
