import ImageCatalog.Text.Invisible

set_option autoImplicit false

namespace ImageCatalog

namespace Text

def hexDigit (n : Nat) : Char :=
  if n < 10 then Char.ofNat (0x30 + n) else Char.ofNat (0x57 + n)

def hexText (n : Nat) : List Char := (Nat.toDigits 16 n)

/-- Whether the character is replaced by its code point. -/
def isMasked (c : Char) : Bool :=
  if c.toNat < 0x7f then decide (c.toNat < 0x20) else isInvisible c

def quotedChar (c : Char) : List Char :=
  match c with
  | '\t' => ['\\', 't']
  | '\r' => ['\\', 'r']
  | '\n' => ['\\', 'n']
  | '"' => ['\\', '"']
  | '\\' => ['\\', '\\']
  | '\x00' => ['\\', '0']
  | c =>
    if isMasked c then ['\\', 'u', '\x7b'] ++ hexText c.toNat ++ ['\x7d'] else [c]

def quoted (s : String) : String :=
  String.ofList ('"' :: s.toList.flatMap quotedChar ++ ['"'])

end Text

end ImageCatalog
