/-
MarkerBlock.Encoding.Message — wording of the errors of reading and writing.
-/
import MarkerBlock.Encoding.Basic
import MarkerBlock.Text.Quoted

namespace MarkerBlock.Encoding

/-- Wording of a read error. -/
def DecodeError.message (page : CodePage) (e : DecodeError) : String :=
  s!"malformed {e.encoding.displayName page} input at byte {e.offset}"

/-- Wording of a write error. -/
def EncodeError.message (page : CodePage) (e : EncodeError) : String :=
  s!"character {Text.Quoted.char e.char} cannot be represented in {e.encoding.displayName page}"

end MarkerBlock.Encoding
