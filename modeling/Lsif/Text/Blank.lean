/-! White space as the Unicode property White_Space has it (25 characters), trimming by it, and runs
of plain spaces. -/

namespace Lsif.Text

def blankRanges : List (Nat × Nat) :=
  [(0x09, 0x0D), (0x20, 0x20), (0x85, 0x85), (0xA0, 0xA0), (0x1680, 0x1680), (0x2000, 0x200A),
    (0x2028, 0x2029), (0x202F, 0x202F), (0x205F, 0x205F), (0x3000, 0x3000)]

def isBlank (c : Char) : Bool :=
  blankRanges.any fun r => r.1 ≤ c.toNat && c.toNat ≤ r.2

def trimStart (s : String) : String :=
  String.ofList (s.toList.dropWhile isBlank)

def trim (s : String) : String :=
  String.ofList (((s.toList.dropWhile isBlank).reverse.dropWhile isBlank).reverse)

def spaces (n : Nat) : String :=
  String.ofList (List.replicate n ' ')

end Lsif.Text
