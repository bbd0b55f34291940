/-! # Text as octets

Programs that know nothing of character sets see a text as octets. Here an octet is the character
with its number, so that such a text is a list of characters like any other.

* `octets`: the octets of a text, and `octetsOf` those of a byte string.
* `bytesOf`: the byte string with given octets. -/

namespace PaneRelay.Text

/-- The octets of a byte string. -/
def octetsOf (b : ByteArray) : List Char := b.data.toList.map fun x => Char.ofNat x.toNat

/-- The octets of a text. -/
def octets (s : String) : List Char := octetsOf s.toUTF8

/-- The byte string with given octets. -/
def bytesOf (l : List Char) : ByteArray := (l.map fun c => UInt8.ofNat c.toNat).toByteArray

end PaneRelay.Text
