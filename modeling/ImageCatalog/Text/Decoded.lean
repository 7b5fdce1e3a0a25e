set_option autoImplicit false

namespace ImageCatalog

namespace Text

/-- The characters of a stored text in their order, and `none` for each byte that belongs to no
character. -/
abbrev Decoded := List (Option Char)

def ofString (text : String) : Decoded := text.toList.map some

/-- What is stored from an index on. After a byte that starts no character, the next byte may start
one. -/
def decodeFrom (bytes : ByteArray) (index : Nat) : Decoded :=
  if index < bytes.size then
    match bytes.utf8DecodeChar? index with
    | some c => some c :: decodeFrom bytes (index + c.utf8Size)
    | none => none :: decodeFrom bytes (index + 1)
  else []
termination_by bytes.size - index
decreasing_by
  · have := c.utf8Size_pos
    omega
  · omega

def decode (bytes : ByteArray) : Decoded := decodeFrom bytes 0

end Text

end ImageCatalog
