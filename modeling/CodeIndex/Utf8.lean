import CodeIndex.Text.Basic

/-!
# UTF-8

`next` reads one character of a byte sequence, or finds a fault: the bytes that can be no character,
and why. A fault is as short as possible: it ends before the first byte that cannot continue the
character. `decode` stops at the first fault, `decodeLenient` leaves the faulty bytes out.
-/

namespace CodeIndex.Utf8

/-- Why some bytes are no character. -/
inductive Reason where
  | invalidStart
  | invalidContinuation
  | unexpectedEnd
  deriving DecidableEq, Repr

/-- The reason in words. -/
def Reason.message : Reason → String
  | .invalidStart => "invalid start byte"
  | .invalidContinuation => "invalid continuation byte"
  | .unexpectedEnd => "unexpected end of data"

/-- One character and the bytes after it, or the faulty bytes, why they are faulty, and the bytes
after them. -/
inductive Next where
  | done
  | char (c : Char) (rest : List UInt8)
  | fault (bytes : List UInt8) (reason : Reason) (rest : List UInt8)

/-- A byte that continues a character. -/
def isContinuation (b : UInt8) : Bool := 0x80 ≤ b && b ≤ 0xBF

/-- A byte that may stand after the first byte of a character of three or four bytes. -/
def isSecond (first b : UInt8) : Bool :=
  if first = 0xE0 then 0xA0 ≤ b && b ≤ 0xBF
  else if first = 0xED then 0x80 ≤ b && b ≤ 0x9F
  else if first = 0xF0 then 0x90 ≤ b && b ≤ 0xBF
  else if first = 0xF4 then 0x80 ≤ b && b ≤ 0x8F
  else isContinuation b

/-- The six bits of a continuation byte after the bits `n`. -/
def push (n : Nat) (b : UInt8) : Nat := n * 64 + (b.toNat - 0x80)

/-- The first character of a byte sequence, or its fault. -/
def next : List UInt8 → Next
  | [] => .done
  | a :: r =>
    if a < 0x80 then .char (Char.ofNat a.toNat) r
    else if a < 0xC2 || a > 0xF4 then .fault [a] .invalidStart r
    else if a < 0xE0 then
      match r with
      | [] => .fault [a] .unexpectedEnd []
      | b :: r' =>
        if isContinuation b then .char (Char.ofNat (push (a.toNat - 0xC0) b)) r'
        else .fault [a] .invalidContinuation r
    else
      match r with
      | [] => .fault [a] .unexpectedEnd []
      | b :: r' =>
        if !isSecond a b then .fault [a] .invalidContinuation r
        else
          match r' with
          | [] => .fault [a, b] .unexpectedEnd []
          | c :: r'' =>
            if !isContinuation c then .fault [a, b] .invalidContinuation r'
            else if a < 0xF0 then .char (Char.ofNat (push (push (a.toNat - 0xE0) b) c)) r''
            else
              match r'' with
              | [] => .fault [a, b, c] .unexpectedEnd []
              | d :: r''' =>
                if isContinuation d then
                  .char (Char.ofNat (push (push (push (a.toNat - 0xF0) b) c) d)) r'''
                else .fault [a, b, c] .invalidContinuation r''

/-- A fault at a position of a byte sequence. -/
structure Fault where
  position : Nat
  bytes : List UInt8
  reason : Reason

/-- Two hexadecimal digits. -/
def hexByte (b : UInt8) : Text :=
  let digit (n : Nat) : Char := if n < 10 then Char.ofNat (48 + n) else Char.ofNat (87 + n)
  [digit (b.toNat / 16), digit (b.toNat % 16)]

/-- The fault in words. -/
def Fault.message (f : Fault) : Text :=
  let place := match f.bytes with
    | [b] => "byte 0x".toList ++ hexByte b ++ " in position ".toList ++ Text.ofNat f.position
    | bytes => "bytes in position ".toList ++ Text.ofNat f.position ++ "-".toList ++
        Text.ofNat (f.position + bytes.length - 1)
  "'utf-8' codec can't decode ".toList ++ place ++ ": ".toList ++ f.reason.message.toList

theorem next_char_length {bs rest : List UInt8} {c : Char} (h : next bs = .char c rest) :
    rest.length < bs.length := by
  unfold next at h
  repeat' split at h
  all_goals simp only [Next.char.injEq, reduceCtorEq] at h
  all_goals simp only [← h.2, List.length_cons]; omega

theorem next_fault_length {bs faulty rest : List UInt8} {reason : Reason}
    (h : next bs = .fault faulty reason rest) : rest.length < bs.length := by
  unfold next at h
  repeat' split at h
  all_goals simp only [Next.fault.injEq, reduceCtorEq] at h
  all_goals simp only [← h.2.2, List.length_cons, List.length_nil]; omega

/-- The text of a byte sequence from a position on, after the text `seen`, in reverse. -/
def decodeFrom (position : Nat) (seen : Text) (bs : List UInt8) : Except Fault Text :=
  match _h : next bs with
  | .done => .ok seen.reverse
  | .char c rest => decodeFrom (position + c.utf8Size) (c :: seen) rest
  | .fault bytes reason _ => .error ⟨position, bytes, reason⟩
termination_by bs.length
decreasing_by exact next_char_length _h

/-- The text that a byte sequence encodes, or its first fault. -/
def decode (bs : List UInt8) : Except Fault Text := decodeFrom 0 [] bs

/-- The text of a byte sequence without its faults, after the text `seen`, in reverse. -/
def decodeLenientFrom (seen : Text) (bs : List UInt8) : Text :=
  match _h : next bs with
  | .done => seen.reverse
  | .char c rest => decodeLenientFrom (c :: seen) rest
  | .fault _ _ rest => decodeLenientFrom seen rest
termination_by bs.length
decreasing_by
  · exact next_char_length _h
  · exact next_fault_length _h

/-- The text that a byte sequence encodes when its faults are left out. -/
def decodeLenient (bs : List UInt8) : Text := decodeLenientFrom [] bs

/-- The bytes of a character. -/
def encodeChar (c : Char) : List UInt8 :=
  let n := c.toNat
  let byte (n : Nat) : UInt8 := UInt8.ofNat n
  if n < 0x80 then [byte n]
  else if n < 0x800 then [byte (0xC0 + n / 64), byte (0x80 + n % 64)]
  else if n < 0x10000 then
    [byte (0xE0 + n / 4096), byte (0x80 + n / 64 % 64), byte (0x80 + n % 64)]
  else
    [byte (0xF0 + n / 262144), byte (0x80 + n / 4096 % 64), byte (0x80 + n / 64 % 64),
     byte (0x80 + n % 64)]

/-- The bytes of a text. -/
def encode (t : Text) : List UInt8 := t.flatMap encodeChar

end CodeIndex.Utf8
