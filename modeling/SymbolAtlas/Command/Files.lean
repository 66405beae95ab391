import SymbolAtlas.Entries
import SymbolAtlas.Text.Lines
import SymbolAtlas.Text.Path

/-!
# Files of a directory

A directory holds files under relative paths. A path is followed component by component; a double
dot leads back out of a folder that exists, but never out of the directory itself. What is not a
file there, or is no text, cannot be read.
-/

namespace SymbolAtlas

/-- The text that the bytes of a file encode in UTF-8, with a line feed for every line break. -/
def fileText? (bytes : ByteArray) : Option Text :=
  (String.fromUTF8? bytes).map fun s => Text.unixBreaks s.toList

/-- The files of a directory by their relative paths. -/
structure Directory where
  files : Entries String ByteArray
  /-- Folders that exist whether or not they hold files. -/
  folders : List (List String)

namespace Directory

/-- Whether a list of components leads to a folder. -/
def isFolder (d : Directory) (parts : List String) : Bool :=
  parts = [] || d.folders.contains parts ||
    d.files.keys.any fun f =>
      let p := (Path.ofString f).parts
      parts.isPrefixOf p && parts.length < p.length

/-- Where a path leads, starting from a folder given by its components in reverse. -/
def follow (d : Directory) (here : List String) : List String → Option (List String)
  | [] => some here.reverse
  | part :: rest =>
    if d.isFolder here.reverse then
      if part = ".." then
        match here with
        | [] => none
        | _ :: up => d.follow up rest
      else d.follow (part :: here) rest
    else none

/-- The bytes of the file that a path leads to. -/
def bytes? (d : Directory) (path : Path) : Option ByteArray :=
  if path.root = "" then
    (d.follow [] path.parts).bind fun parts =>
      (d.files.toList.find? fun f => (Path.ofString f.1).parts = parts).map Prod.snd
  else none

/-- The text of the file that a path leads to. -/
def read? (d : Directory) (path : Path) : Option Text := (d.bytes? path).bind fileText?

end Directory

end SymbolAtlas
