import ClassDiagram.Text.Quoted
import ClassDiagram.Text.Utf8

/-!
# Failures to read a file

A file may be missing or not be a file, its path may be unusable, and its bytes may not be text.
-/

namespace ClassDiagram.Storage

inductive Fault where
  | missing
  | notADirectory
  | isADirectory
  | nameTooLong
  | other (code : Nat) (reason : String)
  deriving DecidableEq, Repr

namespace Fault

def code : Fault → Nat
  | missing => 2
  | notADirectory => 20
  | isADirectory => 21
  | nameTooLong => 36
  | other code _ => code

def reason : Fault → String
  | missing => "No such file or directory"
  | notADirectory => "Not a directory"
  | isADirectory => "Is a directory"
  | nameTooLong => "File name too long"
  | other _ reason => reason

def message (fault : Fault) (path : String) : String :=
  "[Errno " ++ toString fault.code ++ "] " ++ fault.reason ++ ": " ++ Text.quoted path

end Fault

/-- Files by their paths: the bytes at a path, or why they cannot be had. -/
abbrev Files := String → Except Fault (List UInt8)

inductive TextFault where
  /-- The path holds a null character, which no path can. -/
  | nullInPath
  | access (fault : Fault) (path : String)
  | encoding (fault : Text.Utf8.Fault)
  deriving DecidableEq, Repr

namespace TextFault

def message : TextFault → String
  | nullInPath => "embedded null byte"
  | access fault path => fault.message path
  | encoding fault => fault.message

end TextFault

end ClassDiagram.Storage
