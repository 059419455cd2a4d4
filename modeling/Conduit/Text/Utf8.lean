/-!
Bytes as text in UTF-8.
-/
namespace Conduit.Text

def decode? (bytes : List UInt8) : Option String := String.fromUTF8? ⟨bytes.toArray⟩

def encode (s : String) : List UInt8 := s.toUTF8.data.toList

end Conduit.Text
