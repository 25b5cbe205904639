import Mathlib.Data.List.Basic

/-! Parsed XML documents, as element trees present them: names in the `{namespace}local`
form, and the text before the first child. -/
namespace Smo

inductive Xml where
  | element (tag : String) (attributes : List (String × String)) (text : String)
      (children : List Xml)
  deriving Repr

namespace Xml

def tag : Xml → String
  | element tag _ _ _ => tag

def text : Xml → String
  | element _ _ text _ => text

def children : Xml → List Xml
  | element _ _ _ children => children

/-- `tag.rsplit("\x7d", 1)[-1]`. -/
def localPart (tag : String) : String :=
  String.ofList ((tag.toList.reverse.takeWhile (· ≠ '\x7d')).reverse)

def localName (node : Xml) : String := localPart node.tag

mutual

/-- `iter()`: the element and all below it, in document order. -/
def iter : Xml → List Xml
  | element tag attributes text children =>
    element tag attributes text children :: iterAll children

def iterAll : List Xml → List Xml
  | [] => []
  | node :: nodes => iter node ++ iterAll nodes

end

end Xml

end Smo
