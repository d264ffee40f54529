/-
  Decoding UTF-8.

  `decode?` accepts the shortest encodings of characters alone: no overlong
  forms, no surrogates and nothing above U+10FFFF.
-/
import ThemeProps.Text.Basic

namespace ThemeProps

/-- The bytes of a file. -/
abbrev Bytes := List UInt8

namespace Text

/-- The six bits of a continuation byte. -/
def continuation? (b : UInt8) : Option Nat :=
  if 0x80 ≤ b ∧ b ≤ 0xBF then some (b.toNat - 0x80) else none

/-- The character with a number from a range, if there is one. -/
def charBetween? (first last n : Nat) : Option Char :=
  if first ≤ n ∧ n ≤ last ∧ n.isValidChar then some (Char.ofNat n) else none

/-- The text that some bytes encode. -/
def decode? : Bytes → Option Text
  | [] => some []
  | a :: rest =>
    if a < 0x80 then (decode? rest).map (Char.ofNat a.toNat :: ·)
    else if a < 0xC0 then none
    else if a < 0xE0 then
      match rest with
      | b :: rest => do
        let b ← continuation? b
        let c ← charBetween? 0x80 0x7FF ((a.toNat - 0xC0) * 64 + b)
        return c :: (← decode? rest)
      | _ => none
    else if a < 0xF0 then
      match rest with
      | b :: c :: rest => do
        let b ← continuation? b
        let c ← continuation? c
        let c ← charBetween? 0x800 0xFFFF (((a.toNat - 0xE0) * 64 + b) * 64 + c)
        return c :: (← decode? rest)
      | _ => none
    else if a < 0xF8 then
      match rest with
      | b :: c :: d :: rest => do
        let b ← continuation? b
        let c ← continuation? c
        let d ← continuation? d
        let c ← charBetween? 0x10000 0x10FFFF ((((a.toNat - 0xF0) * 64 + b) * 64 + c) * 64 + d)
        return c :: (← decode? rest)
      | _ => none
    else none

/-- The text with every line break as a single line feed. -/
def normalizeBreaks : Text → Text
  | [] => []
  | '\r' :: '\n' :: cs => '\n' :: normalizeBreaks cs
  | '\r' :: cs => '\n' :: normalizeBreaks cs
  | c :: cs => c :: normalizeBreaks cs

end Text
end ThemeProps
