import Highlight.Failure

/-!
# Reading files

Files are read through a file store, which says for each path what its file holds or, in the words
of the system, why it cannot be read. A folder of files held in memory is such a store: a folder
exists if it is part of the name of a file in it.
-/

namespace Highlight

/-- What reading each path gives. -/
abbrev FileStore := String → Except String ByteArray

/-- The complaint about bytes that are no text. -/
def notUtf8 : String :=
  "stream did not contain valid UTF-8"

/-- The file at a path as text. -/
def FileStore.readText (store : FileStore) (path : String) : Except Failure String :=
  match store path with
  | .error complaint => .error (.read complaint)
  | .ok bytes =>
      match String.fromUTF8? bytes with
      | some text => .ok text
      | none => .error (.read notUtf8)

/-- Files by their paths in a folder. -/
structure Folder where
  files : List (List (List Char) × ByteArray)

namespace Folder

/-- The complaint about a path that leads nowhere. -/
def notFound : String :=
  "No such file or directory (os error 2)"

/-- The complaint about a path with a component that is a file and is used as a folder. -/
def notDirectory : String :=
  "Not a directory (os error 20)"

/-- The complaint about a folder that is read as a file. -/
def isDirectory : String :=
  "Is a directory (os error 21)"

/-- A component that stays where it is. -/
def isStay (component : List Char) : Bool :=
  component = [] || component = ['.']

/-- A component that leads to the folder above. -/
def isUp (component : List Char) : Bool :=
  component = ['.', '.']

/-- The files with their names as paths in the folder. -/
def ofList (files : List (String × ByteArray)) : Folder :=
  ⟨files.map fun (name, bytes) =>
    ((name.toList.splitOn '/').filter fun component => !isStay component, bytes)⟩

/-- The content of the file at a place. -/
def file? (folder : Folder) (place : List (List Char)) : Option ByteArray :=
  folder.files.lookup place

/-- There is a folder at a place: the one itself, or one that holds a file. -/
def isFolder (folder : Folder) (place : List (List Char)) : Bool :=
  place.isEmpty || folder.files.any fun (path, _) =>
    place.length < path.length && path.take place.length = place

/-- What reading gives where the components of a path are followed outside the folder: there are
folders only, and none that can be entered by a name. -/
def outside (path : List (List Char)) : Except String ByteArray :=
  if path.all fun component => isStay component || isUp component then .error isDirectory
  else .error notFound

/-- Follow the components of a path from a place in the folder and read the file there. -/
def walk (folder : Folder) (place : List (List Char)) :
    List (List Char) → Except String ByteArray
  | [] =>
      match folder.file? place with
      | some bytes => .ok bytes
      | none => if folder.isFolder place then .error isDirectory else .error notFound
  | component :: rest =>
      if folder.isFolder place then
        if isStay component then folder.walk place rest
        else if isUp component then
          if place.isEmpty then outside rest else folder.walk place.dropLast rest
        else folder.walk (place ++ [component]) rest
      else if (folder.file? place).isSome then .error notDirectory
      else .error notFound

/-- The folder as a file store. A path that starts with a slash starts outside the folder, any other
one inside, and the empty path leads nowhere. -/
def store (folder : Folder) : FileStore := fun path =>
  if path.isEmpty then .error notFound
  else
    let components := path.toList.splitOn '/'
    if path.front = '/' then outside components else folder.walk [] components

end Folder

end Highlight
