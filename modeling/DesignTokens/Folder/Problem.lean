/-
# DesignTokens.Folder.Problem -- why a file cannot be used
-/

namespace DesignTokens

set_option autoImplicit false

inductive FileProblem where
  | missing
  | permission
  | notADirectory
  | directory
  | nameTooLong
  | other (number : Nat) (reason : String)
  deriving DecidableEq, Repr

namespace FileProblem

def number : FileProblem → Nat
  | missing => 2
  | permission => 13
  | notADirectory => 20
  | directory => 21
  | nameTooLong => 36
  | other n _ => n

def reason : FileProblem → String
  | missing => "No such file or directory"
  | permission => "Permission denied"
  | notADirectory => "Not a directory"
  | directory => "Is a directory"
  | nameTooLong => "File name too long"
  | other _ text => text

end FileProblem

end DesignTokens
