/-! White space as trimming a line sees it: the Unicode `White_Space` property. -/
namespace TabKey.Text

def isSpace (c : Char) : Bool :=
  let n := c.toNat
  (0x09 ≤ n && n ≤ 0x0D) || n == 0x20 || n == 0x85 || n == 0xA0 || n == 0x1680 ||
    (0x2000 ≤ n && n ≤ 0x200A) || n == 0x2028 || n == 0x2029 || n == 0x202F ||
    n == 0x205F || n == 0x3000

def isBlank (cs : List Char) : Bool := cs.all isSpace

def margin (cs : List Char) : List Char := cs.takeWhile isSpace

def trimStart (cs : List Char) : List Char := cs.dropWhile isSpace

def trimEnd (cs : List Char) : List Char := (cs.reverse.dropWhile isSpace).reverse

def trim (cs : List Char) : List Char := trimEnd (trimStart cs)

@[simp] theorem margin_append_trimStart (cs : List Char) : margin cs ++ trimStart cs = cs :=
  List.takeWhile_append_dropWhile

end TabKey.Text
