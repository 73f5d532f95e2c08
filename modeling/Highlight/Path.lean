/-!
# File paths

A path is a row of components with slashes between them. Empty components and single dots lead
nowhere, and two dots lead to the folder above.
-/

namespace Highlight.Path

/-- The components of a path with those that lead nowhere left out. -/
def components (path : String) : List (List Char) :=
  (path.toList.splitOn '/').filter fun component => component ≠ [] && component ≠ ['.']

/-- The last component, unless it leads to the folder above. -/
def fileName? (path : String) : Option String := do
  let last ← (components path).getLast?
  if last = ['.', '.'] then none else some (String.ofList last)

/-- What follows the last dot of the file name. A name has no extension if it has no dot or if its
only dot is its first character; a name that ends in a dot has the empty extension. -/
def extension? (path : String) : Option String := do
  let name ← fileName? path
  let backwards := name.toList.reverse
  let extension := backwards.takeWhile (· ≠ '.')
  match backwards.dropWhile (· ≠ '.') with
  | [] => none
  | [_] => none
  | _ :: _ :: _ => some (String.ofList extension.reverse)

end Highlight.Path
