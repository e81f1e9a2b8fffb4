import CodeChart.Text.Basic

/-!
# Text from octets

UTF-8 is read one octet at a time.  Octets that no character starts with, and the start of a
character that is not carried on, become one replacement character each; nothing else is lost.

* `Utf8.decode`        the characters of some octets;
* `unifyLineEnds`      a text in which every line ends in a line feed;
* `textOfOctets`       the text of a file.
-/

namespace CodeChart

namespace Utf8

def replacement : Char := Char.ofNat 0xFFFD

/-- a character that has been started: how many octets are owed, the least and the greatest value
of the next one, and the bits so far -/
structure Started where
  owed : Nat
  least : Nat
  greatest : Nat
  bits : Nat
  deriving DecidableEq, Repr

inductive Lead where
  | whole (c : Char)
  | started (s : Started)
  | none
  deriving DecidableEq, Repr

/-- what the first octet of a character says -/
def lead (b : Nat) : Lead :=
  if b < 0x80 then .whole (Char.ofNat b)
  else if b < 0xC2 then .none
  else if b < 0xE0 then .started ⟨1, 0x80, 0xBF, b - 0xC0⟩
  else if b = 0xE0 then .started ⟨2, 0xA0, 0xBF, 0⟩
  else if b = 0xED then .started ⟨2, 0x80, 0x9F, 0xD⟩
  else if b < 0xF0 then .started ⟨2, 0x80, 0xBF, b - 0xE0⟩
  else if b = 0xF0 then .started ⟨3, 0x90, 0xBF, 0⟩
  else if b < 0xF4 then .started ⟨3, 0x80, 0xBF, b - 0xF0⟩
  else if b = 0xF4 then .started ⟨3, 0x80, 0x8F, 4⟩
  else .none

/-- the octet carries the character on -/
def Started.accepts (s : Started) (b : Nat) : Bool := s.least ≤ b && b ≤ s.greatest

def Started.bitsWith (s : Started) (b : Nat) : Nat := s.bits * 64 + (b - 0x80)

def decodeFrom (state : Option Started) : List UInt8 → Text
  | [] => if state.isSome then [replacement] else []
  | b :: rest =>
    let n := b.toNat
    match state with
    | some s =>
      if s.accepts n then
        if s.owed = 1 then Char.ofNat (s.bitsWith n) :: decodeFrom none rest
        else decodeFrom (some ⟨s.owed - 1, 0x80, 0xBF, s.bitsWith n⟩) rest
      else
        replacement :: match lead n with
          | .whole c => c :: decodeFrom none rest
          | .started s' => decodeFrom (some s') rest
          | .none => replacement :: decodeFrom none rest
    | none =>
      match lead n with
      | .whole c => c :: decodeFrom none rest
      | .started s => decodeFrom (some s) rest
      | .none => replacement :: decodeFrom none rest

def decode (octets : List UInt8) : Text := decodeFrom none octets

end Utf8

/-- a carriage return, with a line feed after it or alone, becomes a line feed -/
def unifyLineEnds : Text → Text
  | '\r' :: '\n' :: rest => '\n' :: unifyLineEnds rest
  | '\r' :: rest => '\n' :: unifyLineEnds rest
  | c :: rest => c :: unifyLineEnds rest
  | [] => []

def textOfOctets (octets : List UInt8) : Text := unifyLineEnds (Utf8.decode octets)

end CodeChart
