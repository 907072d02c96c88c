/-
Bytes written with 64 characters.
-/

namespace Polyglot
namespace Text
namespace Base64

def digit? (c : Char) : Option Nat :=
  if 'A' ≤ c && c ≤ 'Z' then some (c.toNat - 'A'.toNat)
  else if 'a' ≤ c && c ≤ 'z' then some (c.toNat - 'a'.toNat + 26)
  else if c.isDigit then some (c.toNat - '0'.toNat + 52)
  else if c = '+' then some 62
  else if c = '/' then some 63
  else none

/-- Reads bytes from groups of four characters.  `place` is the place in the group, `left` the bits
that are left over from the last character, `pads` the number of signs that fill up the group;
`read` holds the bytes, latest first.  Other characters are passed over, and a group that has been
filled up ends the bytes. -/
def decode (place left pads : Nat) (read : List UInt8) : List Char → Option (List UInt8)
  | [] => if place = 0 then some read.reverse else none
  | c :: rest =>
      if c = '=' then
        if 2 ≤ place then
          if 4 ≤ place + pads + 1 then some read.reverse
          else decode place left (pads + 1) read rest
        else decode place left pads read rest
      else
        match digit? c with
        | none => decode place left pads read rest
        | some d =>
            match place with
            | 0 => decode 1 d 0 read rest
            | 1 => decode 2 (d % 16) 0 (UInt8.ofNat (left * 4 + d / 16) :: read) rest
            | 2 => decode 3 (d % 4) 0 (UInt8.ofNat (left * 16 + d / 4) :: read) rest
            | _ => decode 0 0 0 (UInt8.ofNat (left * 64 + d) :: read) rest

def decode? (s : List Char) : Option (List UInt8) := decode 0 0 0 [] s

end Base64
end Text
end Polyglot
