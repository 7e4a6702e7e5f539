/-
Strings as the configuration and the command line hand them over.

`strings.TrimSpace` and `strconv.ParseUint` are modelled on bytes.  White space is what
`unicode.IsSpace` accepts, in UTF-8; a byte that is part of no valid encoding is not
white space.  Lower-casing, quoting and `netip.ParsePrefix` stay parameters.

A Go string need not be UTF-8, which is why strings that are looked into are byte
strings here.  Where a string is only handed on or ends up in a message, a Lean `String`
serves; `ascii` and `plain` lead from one to the other.
-/
import Neth.Addr
import Neth.Lib.Trim

namespace Neth

/-- The encodings of the white-space characters. -/
def spaces : List GoString :=
  [[0x09], [0x0a], [0x0b], [0x0c], [0x0d], [0x20],       -- `\t`, `\n`, `\v`, `\f`, `\r` and blank
    [0xc2, 0x85], [0xc2, 0xa0],                           -- U+0085, U+00A0
    [0xe1, 0x9a, 0x80],                                   -- U+1680
    [0xe2, 0x80, 0x80], [0xe2, 0x80, 0x81], [0xe2, 0x80, 0x82], [0xe2, 0x80, 0x83],
    [0xe2, 0x80, 0x84], [0xe2, 0x80, 0x85], [0xe2, 0x80, 0x86], [0xe2, 0x80, 0x87],
    [0xe2, 0x80, 0x88], [0xe2, 0x80, 0x89], [0xe2, 0x80, 0x8a],  -- U+2000 to U+200A
    [0xe2, 0x80, 0xa8], [0xe2, 0x80, 0xa9], [0xe2, 0x80, 0xaf],  -- U+2028, U+2029, U+202F
    [0xe2, 0x81, 0x9f], [0xe3, 0x80, 0x80]]               -- U+205F, U+3000

/-- `strings.TrimSpace`. -/
def trimSpace (s : GoString) : GoString := Trim.trim spaces s

/-- A string literal of the source. -/
def ascii (s : String) : GoString := s.toList.map fun c => UInt8.ofNat c.toNat

/-- `%s`, and what is concatenated to a message: a string as it is. -/
def plain (s : GoString) : String := String.ofList (s.map fun b => Char.ofNat b.toNat)

/-- What is used of `strings`, `fmt` and `net/netip` as it is. -/
structure Text where
  /-- `strings.ToLower`. -/
  toLower : GoString → GoString
  /-- `%q`. -/
  quote : GoString → String
  /-- `netip.ParsePrefix`. -/
  parsePrefix : GoString → Except String IPPrefix

namespace Text

variable (T : Text)

/-- The two errors of `strconv.ParseUint`. -/
def numError (s : GoString) (reason : String) : String :=
  "strconv.ParseUint: parsing " ++ T.quote s ++ ": " ++ reason

/-- One turn of the loop of `strconv.ParseUint(s, 10, 16)`. -/
def addDigit (s : GoString) (n : Nat) (c : UInt8) : Except String Nat :=
  if c < 48 ∨ 57 < c then throw (T.numError s "invalid syntax")
  else if n * 10 + (c.toNat - 48) > 65535 then throw (T.numError s "value out of range")
  else pure (n * 10 + (c.toNat - 48))

/-- `strconv.ParseUint(s, 10, 16)`. -/
def parseUint (s : GoString) : Except String Nat :=
  if s = [] then throw (T.numError s "invalid syntax") else s.foldlM (T.addDigit s) 0

end Text

end Neth
