/-!
# Bytes as characters

Strings of scripts are bytes. Where a string is read letter by letter, each byte counts as the
character with its number; `Bytes.ofChars` goes back.
-/

namespace LedgerReports.Bytes

/-- The characters that the bytes are, one for each byte. -/
def toChars (bytes : ByteArray) : List Char := bytes.toList.map fun b => Char.ofNat b.toNat

/-- The bytes that characters below 256 stand for. -/
def ofChars (cs : List Char) : ByteArray := ⟨(cs.map Char.toUInt8).toArray⟩

end LedgerReports.Bytes
