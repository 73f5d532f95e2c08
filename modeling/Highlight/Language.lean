/-!
# Languages

The languages covered differ only in their keywords and in whether a number sign opens a comment.
-/

namespace Highlight

/-- A language with comments and strings as in C. -/
structure Language where
  name : String
  /-- File extensions without the dot. -/
  extensions : List String
  keywords : List String
  /-- A number sign outside strings and comments opens a comment up to the end of the line. -/
  shellComments : Bool
  deriving DecidableEq, Repr

/-- A language of which only the name is known. -/
def Language.named (name : String) : Language :=
  ⟨name, [], [], false⟩

end Highlight
