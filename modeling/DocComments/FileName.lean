import DocComments.Language
import DocComments.Text.Find

/-! File names: the components of a path, its extension, and the language the extension tells. -/
namespace DocComments.FileName

/-- The components of a path. Empty ones and single dots lead nowhere and are left out. -/
def components (path : String) : List (List Char) :=
  (Text.splitOnChar '/' path.toList).filter fun part => !(part.isEmpty || part == ['.'])

/-- The last component, unless it leads to the parent directory. -/
def base? (path : String) : Option (List Char) :=
  match (components path).getLast? with
  | some part => if part == ['.', '.'] then none else some part
  | none => none

/-- What follows the last dot of a file name. A name whose only dot is its first character has no
extension. -/
def extensionOf? (base : List Char) : Option (List Char) :=
  match base.reverse.dropWhile (· != '.') with
  | _ :: _ :: _ => some (base.reverse.takeWhile (· != '.')).reverse
  | _ => none

def extension? (path : String) : Option String :=
  ((base? path).bind extensionOf?).map String.ofList

def language? (path : String) : Option Language :=
  (extension? path).bind Language.ofExtension?

def belongsTo (language : Language) (path : String) : Bool :=
  language.extensions.contains ("." ++ Text.lower ((extension? path).getD ""))

def join (directory entry : String) : String :=
  if directory.isEmpty || directory.toList.getLast? == some '/' then directory ++ entry
  else directory ++ "/" ++ entry

end DocComments.FileName
