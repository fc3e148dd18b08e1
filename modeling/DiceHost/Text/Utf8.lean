/-! # UTF-8

`encodeChar` writes one scalar value; `next` reads one scalar value or reports the
longest ill-formed run that starts here. The strict and the replacing decoder are
the two ways to read a whole byte list with `next`.
-/
namespace DiceHost.Text

def encodeChar (c : Char) : List UInt8 :=
  let n := c.toNat
  if n < 0x80 then [UInt8.ofNat n]
  else if n < 0x800 then [UInt8.ofNat (0xC0 + n / 64), UInt8.ofNat (0x80 + n % 64)]
  else if n < 0x10000 then
    [UInt8.ofNat (0xE0 + n / 4096), UInt8.ofNat (0x80 + n / 64 % 64),
      UInt8.ofNat (0x80 + n % 64)]
  else
    [UInt8.ofNat (0xF0 + n / 262144), UInt8.ofNat (0x80 + n / 4096 % 64),
      UInt8.ofNat (0x80 + n / 64 % 64), UInt8.ofNat (0x80 + n % 64)]

def encodeChars (cs : List Char) : List UInt8 := cs.flatMap encodeChar

/-- What stands at the head of a byte list. -/
inductive Head where
  | char (c : Char)
  | malformed
deriving DecidableEq, Repr

def isContinuation (b : UInt8) : Bool := 0x80 ≤ b && b ≤ 0xBF

/-- The value bits of a continuation byte. -/
def low (b : UInt8) : Nat := b.toNat - 0x80

/-- The bounds of the second byte of a three-byte form. -/
def secondOfThree (b0 b1 : UInt8) : Bool :=
  if b0 == 0xE0 then 0xA0 ≤ b1 && b1 ≤ 0xBF
  else if b0 == 0xED then 0x80 ≤ b1 && b1 ≤ 0x9F
  else isContinuation b1

/-- The bounds of the second byte of a four-byte form. -/
def secondOfFour (b0 b1 : UInt8) : Bool :=
  if b0 == 0xF0 then 0x90 ≤ b1 && b1 ≤ 0xBF
  else if b0 == 0xF4 then 0x80 ≤ b1 && b1 ≤ 0x8F
  else isContinuation b1

/-- Read one scalar value, or the longest prefix that no well-formed text contains. -/
def next : List UInt8 → Option (Head × List UInt8)
  | [] => none
  | b0 :: rest =>
    if b0 < 0x80 then some (.char (Char.ofNat b0.toNat), rest)
    else if 0xC2 ≤ b0 && b0 ≤ 0xDF then
      match rest with
      | b1 :: rest1 =>
        if isContinuation b1 then
          some (.char (Char.ofNat ((b0.toNat - 0xC0) * 64 + low b1)), rest1)
        else some (.malformed, rest)
      | [] => some (.malformed, [])
    else if 0xE0 ≤ b0 && b0 ≤ 0xEF then
      match rest with
      | b1 :: rest1 =>
        if secondOfThree b0 b1 then
          match rest1 with
          | b2 :: rest2 =>
            if isContinuation b2 then
              some (.char (Char.ofNat ((b0.toNat - 0xE0) * 4096 + low b1 * 64 + low b2)), rest2)
            else some (.malformed, rest1)
          | [] => some (.malformed, [])
        else some (.malformed, rest)
      | [] => some (.malformed, [])
    else if 0xF0 ≤ b0 && b0 ≤ 0xF4 then
      match rest with
      | b1 :: rest1 =>
        if secondOfFour b0 b1 then
          match rest1 with
          | b2 :: rest2 =>
            if isContinuation b2 then
              match rest2 with
              | b3 :: rest3 =>
                if isContinuation b3 then
                  some (.char (Char.ofNat ((b0.toNat - 0xF0) * 262144 + low b1 * 4096 +
                    low b2 * 64 + low b3)), rest3)
                else some (.malformed, rest2)
              | [] => some (.malformed, [])
            else some (.malformed, rest1)
          | [] => some (.malformed, [])
        else some (.malformed, rest)
      | [] => some (.malformed, [])
    else some (.malformed, rest)

/-- Every step consumes at least one byte. -/
theorem next_length {bytes rest : List UInt8} {head : Head} (h : next bytes = some (head, rest)) :
    rest.length < bytes.length := by
  unfold next at h
  split at h
  · contradiction
  · repeat' split at h
    all_goals
      simp only [Option.some.injEq, Prod.mk.injEq] at h
      obtain ⟨_, h⟩ := h
      subst h
      simp only [List.length_cons, List.length_nil]
      omega

/-- Read at most `steps` scalar values onto a reversed list; ill-formed input has no reading. -/
def decodeOnto : Nat → List Char → List UInt8 → Option (List Char)
  | 0, acc, bytes => if bytes.isEmpty then some acc.reverse else none
  | steps + 1, acc, bytes =>
    match next bytes with
    | none => some acc.reverse
    | some (.malformed, _) => none
    | some (.char c, rest) => decodeOnto steps (c :: acc) rest

/-- The characters of well-formed UTF-8; by `next_length` there are at most as many as bytes. -/
def decode? (bytes : List UInt8) : Option (List Char) := decodeOnto bytes.length [] bytes

/-- Read at most `steps` characters, writing U+FFFD for each ill-formed run. -/
def decodeReplacingOnto : Nat → List Char → List UInt8 → List Char
  | 0, acc, _ => acc.reverse
  | steps + 1, acc, bytes =>
    match next bytes with
    | none => acc.reverse
    | some (.malformed, rest) => decodeReplacingOnto steps (Char.ofNat 0xFFFD :: acc) rest
    | some (.char c, rest) => decodeReplacingOnto steps (c :: acc) rest

/-- The characters of any bytes, with U+FFFD for each ill-formed run. -/
def decodeReplacing (bytes : List UInt8) : List Char :=
  decodeReplacingOnto bytes.length [] bytes

/-- The text of well-formed UTF-8 bytes. -/
def ofBytes? (bytes : List UInt8) : Option String := (decode? bytes).map String.ofList

def ofBytesReplacing (bytes : List UInt8) : String := String.ofList (decodeReplacing bytes)

/-- The UTF-8 bytes of a text. -/
def bytesOf (s : String) : List UInt8 := s.toUTF8.toList

/-- The number of UTF-8 bytes of a text. -/
def byteLength (s : String) : Nat := s.utf8ByteSize

end DiceHost.Text
