import CiPipeline.Text

/-!
# CiPipeline.Text.Utf8

Texts as bytes.

* `Utf8.encode` — the bytes of a text.
* `Utf8.decode` — the text of a sequence of bytes, or the first fault in it.
* `Utf8.Fault`  — which bytes cannot be read, and why.

Every character has bytes, as none is a surrogate; and no bytes are read as one.
-/

namespace CiPipeline

abbrev Bytes := List UInt8

namespace Utf8

def encodeChar (c : Char) : Bytes :=
  let v := c.toNat
  if v < 0x80 then [UInt8.ofNat v]
  else if v < 0x800 then [UInt8.ofNat (0xC0 + v / 64), UInt8.ofNat (0x80 + v % 64)]
  else if v < 0x10000 then
    [UInt8.ofNat (0xE0 + v / 4096), UInt8.ofNat (0x80 + v / 64 % 64), UInt8.ofNat (0x80 + v % 64)]
  else
    [UInt8.ofNat (0xF0 + v / 262144), UInt8.ofNat (0x80 + v / 4096 % 64),
      UInt8.ofNat (0x80 + v / 64 % 64), UInt8.ofNat (0x80 + v % 64)]

def encode (t : Text) : Bytes := t.flatMap encodeChar

inductive Fault.Reason where
  | startByte
  | continuationByte
  | endOfData
  deriving DecidableEq, Repr

/-- The bytes from `start` up to and without `stop`; `first` is the byte at `start`. -/
structure Fault where
  reason : Fault.Reason
  start : Nat
  stop : Nat
  first : UInt8
  deriving DecidableEq, Repr

/-- A character whose bytes are not all read: `owed` more follow, the next one between `low` and
`high`, and `value` is what the bytes so far contribute. -/
structure Pending where
  start : Nat
  first : UInt8
  owed : Nat
  low : Nat
  high : Nat
  value : Nat

/-- What the first byte of a longer character announces. The bounds on the second byte rule out
long forms of short characters, surrogates, and what lies beyond the last character. -/
def announced (start : Nat) (b : UInt8) : Option Pending :=
  let v := b.toNat
  if v < 0xC2 then none
  else if v < 0xE0 then some ⟨start, b, 1, 0x80, 0xBF, v - 0xC0⟩
  else if v = 0xE0 then some ⟨start, b, 2, 0xA0, 0xBF, 0⟩
  else if v = 0xED then some ⟨start, b, 2, 0x80, 0x9F, 0xD⟩
  else if v < 0xF0 then some ⟨start, b, 2, 0x80, 0xBF, v - 0xE0⟩
  else if v = 0xF0 then some ⟨start, b, 3, 0x90, 0xBF, 0⟩
  else if v < 0xF4 then some ⟨start, b, 3, 0x80, 0xBF, v - 0xF0⟩
  else if v = 0xF4 then some ⟨start, b, 3, 0x80, 0x8F, 4⟩
  else none

/-- Reads on at a position, in the middle of a character or between two. -/
def decodeFrom (position : Nat) : Option Pending → Bytes → Except Fault Text
  | none, [] => .ok []
  | some p, [] => .error ⟨.endOfData, p.start, position, p.first⟩
  | none, b :: rest =>
    if b.toNat < 0x80 then
      (decodeFrom (position + 1) none rest).map (Char.ofNat b.toNat :: ·)
    else match announced position b with
      | none => .error ⟨.startByte, position, position + 1, b⟩
      | some p => decodeFrom (position + 1) (some p) rest
  | some p, b :: rest =>
    if b.toNat < p.low ∨ p.high < b.toNat then
      .error ⟨.continuationByte, p.start, position, p.first⟩
    else
      let value := p.value * 64 + (b.toNat - 0x80)
      if p.owed ≤ 1 then (decodeFrom (position + 1) none rest).map (Char.ofNat value :: ·)
      else decodeFrom (position + 1)
        (some { p with owed := p.owed - 1, low := 0x80, high := 0xBF, value := value }) rest

/-- A byte order mark is a character like any other. -/
def decode (bytes : Bytes) : Except Fault Text := decodeFrom 0 none bytes

namespace Fault

def Reason.message : Reason → String
  | .startByte => "invalid start byte"
  | .continuationByte => "invalid continuation byte"
  | .endOfData => "unexpected end of data"

def hexByte (b : UInt8) : String :=
  let digits := Nat.toDigits 16 b.toNat
  "0x" ++ String.ofList (if digits.length < 2 then '0' :: digits else digits)

/-- A fault of one byte shows the byte, a longer one the positions of its ends. -/
def message (fault : Fault) : String :=
  let place :=
    if fault.stop = fault.start + 1 then
      "byte " ++ hexByte fault.first ++ " in position " ++ toString fault.start
    else
      "bytes in position " ++ toString fault.start ++ "-" ++ toString (fault.stop - 1)
  "'utf-8' codec can't decode " ++ place ++ ": " ++ fault.reason.message

end Fault

end Utf8
end CiPipeline
