import LayoutTech.FileTree.Basic
import LayoutTech.Technology.Document

/-!
# Technology files

A technology that was loaded from a file knows the file's absolute path, and the file's directory is
its default base path.
-/

namespace LayoutTech.Technology

def locate (t : Technology) (file : Path.Normal) : Technology :=
  { t with
    defaultBasePath := match file.parent? with
      | some directory => String.ofList directory.toText
      | none => t.defaultBasePath
    filePath := String.ofList file.toText }

def loadFile (codecs : Codecs) (tree : FileTree) (path : List Char) : Traced LayoutTech.Fault Technology := do
  let document ← .ofExcept ((tree.readText path).mapError (.file (String.ofList path)))
  let t ← parse codecs document
  pure (t.locate (tree.absolute path))

def saveFile (codecs : Codecs) (t : Technology) (tree : FileTree) (path : List Char) :
    Except LayoutTech.Fault FileTree := do
  let document ← t.write codecs .pretty
  (tree.writeText path document).mapError (.file (String.ofList path))

end LayoutTech.Technology
