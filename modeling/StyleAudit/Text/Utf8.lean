import StyleAudit.Text.Quoted

/-!
# Reading UTF-8

`decodeUtf8` reads bytes as text and names the first fault: where it starts,
how many bytes it covers, and which of three kinds it is. `unifyNewlines`
turns every line ending into a single line feed.
-/

namespace StyleAudit.Text

/-- What is wrong with a sequence of bytes that is not UTF-8. -/
inductive Utf8Fault
  | invalidStart
  | invalidContinuation
  | unexpectedEnd
  deriving DecidableEq, Repr

/-- The first fault of a sequence of bytes. -/
structure Utf8Error where
  fault : Utf8Fault
  position : Nat
  size : Nat
  firstByte : UInt8
  deriving DecidableEq, Repr

def Utf8Fault.reason : Utf8Fault → String
  | .invalidStart => "invalid start byte"
  | .invalidContinuation => "invalid continuation byte"
  | .unexpectedEnd => "unexpected end of data"

/-- The fault, the bytes it covers and the reason. -/
def Utf8Error.message (error : Utf8Error) : String :=
  let place :=
    if error.size = 1 then
      s!"byte 0x{hexadecimal 2 error.firstByte.toNat} in position {error.position}"
    else s!"bytes in position {error.position}-{error.position + error.size - 1}"
  s!"'utf-8' codec can't decode {place}: {error.fault.reason}"

def isContinuation (byte : UInt8) : Bool :=
  decide (0x80 ≤ byte ∧ byte < 0xc0)

/-- The byte may be the second of a sequence that starts with `lead`: overlong
forms, surrogates and code points past the last one are left out. -/
def mayFollow (lead byte : UInt8) : Bool :=
  isContinuation byte &&
    !(lead = 0xe0 && byte < 0xa0 || lead = 0xed && 0xa0 ≤ byte
      || lead = 0xf0 && byte < 0x90 || lead = 0xf4 && 0x90 ≤ byte)

def sequenceSize? (lead : UInt8) : Option Nat :=
  if lead < 0x80 then some 1
  else if lead < 0xc2 then none
  else if lead < 0xe0 then some 2
  else if lead < 0xf0 then some 3
  else if lead < 0xf5 then some 4
  else none

def lowBits (byte : UInt8) : Nat := byte.toNat % 64

/-- The first character of a sequence of bytes and the bytes after it, or the
kind of fault and how many bytes it covers. -/
def nextChar? : List UInt8 → Except (Utf8Fault × Nat) (Char × List UInt8)
  | [] => .error (.unexpectedEnd, 0)
  | a :: rest =>
    match sequenceSize? a, rest with
    | none, _ => .error (.invalidStart, 1)
    | some 1, rest => .ok (Char.ofNat a.toNat, rest)
    | some _, [] => .error (.unexpectedEnd, 1)
    | some size, b :: rest =>
      if !mayFollow a b then .error (.invalidContinuation, 1)
      else if size = 2 then .ok (Char.ofNat (a.toNat % 32 * 64 + lowBits b), rest)
      else match rest with
        | [] => .error (.unexpectedEnd, 2)
        | c :: rest =>
          if !isContinuation c then .error (.invalidContinuation, 2)
          else if size = 3 then
            .ok (Char.ofNat ((a.toNat % 16 * 64 + lowBits b) * 64 + lowBits c), rest)
          else match rest with
            | [] => .error (.unexpectedEnd, 3)
            | d :: rest =>
              if !isContinuation d then .error (.invalidContinuation, 3)
              else .ok (Char.ofNat
                (((a.toNat % 8 * 64 + lowBits b) * 64 + lowBits c) * 64 + lowBits d), rest)

/-- Decode at most `fuel` characters, the first byte standing at a position. -/
def decodeUtf8From (position : Nat) : (fuel : Nat) → List UInt8 → Except Utf8Error (List Char)
  | 0, _ => .ok []
  | _ + 1, [] => .ok []
  | fuel + 1, lead :: rest =>
    match nextChar? (lead :: rest) with
    | .error (fault, size) => .error ⟨fault, position, size, lead⟩
    | .ok (c, remaining) =>
      (decodeUtf8From (position + c.utf8Size) fuel remaining).map (c :: ·)

/-- The text that a sequence of bytes encodes. -/
def decodeUtf8 (bytes : List UInt8) : Except Utf8Error (List Char) :=
  decodeUtf8From 0 bytes.length bytes

/-- Carriage returns, alone or before a line feed, become line feeds. -/
def unifyNewlines : List Char → List Char
  | '\r' :: '\n' :: rest => '\n' :: unifyNewlines rest
  | '\r' :: rest => '\n' :: unifyNewlines rest
  | c :: rest => c :: unifyNewlines rest
  | [] => []

end StyleAudit.Text
