import Smo.Lib.Text

/-! Python's `str` as its list of code points, with the methods the services use
on references and selectors. -/
namespace Smo

abbrev Str := List Char

namespace Str

instance : LawfulBEq Str := inferInstance

/-- The characters `str.strip()` drops (`str.isspace` of one character). -/
def isSpace (c : Char) : Bool :=
  (0x09 ≤ c.val && c.val ≤ 0x0D) || (0x1C ≤ c.val && c.val ≤ 0x20) || c.val == 0x85 ||
    c.val == 0xA0 || c.val == 0x1680 || (0x2000 ≤ c.val && c.val ≤ 0x200A) || c.val == 0x2028 ||
    c.val == 0x2029 || c.val == 0x202F || c.val == 0x205F || c.val == 0x3000

def strip (s : Str) : Str := Text.strip isSpace s

/-- `s.split(sep)` for a one-character separator. -/
def split (sep : Char) (s : Str) : List Str := s.splitOn sep

/-- `sep.join(parts)` for a one-character separator. -/
def join (sep : Char) (parts : List Str) : Str := Text.join sep parts

/-- `s.rstrip(c)`. -/
def rstrip (c : Char) (s : Str) : Str := s.rdropWhile (· == c)

end Str
end Smo
