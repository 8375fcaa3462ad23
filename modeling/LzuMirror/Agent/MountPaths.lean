import Mathlib.Data.List.Basic
import Mathlib.Tactic.Common

/-!
# Mount points in mountinfo

`decode_mount_path` of `apps/lmt-agent/src/publication_fs.rs`. The kernel writes
a space, a tab, a newline and a backslash in a path as a backslash with three
octal digits; every other byte stands for itself.

The value of an escape is computed in `u8`, so digits above `\377` overflow;
`none` is that overflow.
-/

namespace LzuMirror

/-- `b'\\'`. -/
def backslash : UInt8 := 92

/-- `matches!(byte, b'0'..=b'7')`. -/
def isOctalDigit (byte : UInt8) : Bool := 48 ≤ byte && byte ≤ 55

/-- The result of `u8` arithmetic, unless it overflows. -/
def checkedU8 (value : ℕ) : Option UInt8 :=
  if value < 256 then some (UInt8.ofNat value) else none

/-- The value of three octal digits, computed as the source does. -/
def octalValue (first second third : UInt8) : Option UInt8 := do
  let high ← checkedU8 ((first.toNat - 48) * 64)
  let middle ← checkedU8 ((second.toNat - 48) * 8)
  let sum ← checkedU8 (high.toNat + middle.toNat)
  checkedU8 (sum.toNat + (third.toNat - 48))

/-- The digits of the escape at an index, if there is one. -/
def escapeAt (field : List UInt8) (index : ℕ) : Option (UInt8 × UInt8 × UInt8) :=
  if field[index]? = some backslash ∧ index + 3 < field.length then
    match field[index + 1]?, field[index + 2]?, field[index + 3]? with
    | some first, some second, some third =>
        if [first, second, third].all isOctalDigit then some (first, second, third) else none
    | _, _, _ => none
  else none

/-- The loop of `decode_mount_path`: what is decoded from an index on. -/
def decodeFrom (field : List UInt8) (index : ℕ) : Option (List UInt8) :=
  if _inside : index < field.length then
    match escapeAt field index with
    | some (first, second, third) =>
        (octalValue first second third).bind fun value =>
          (decodeFrom field (index + 4)).map (value :: ·)
    | none => (decodeFrom field (index + 1)).map (field[index] :: ·)
  else some []
termination_by field.length - index

/-- `decode_mount_path`. -/
def decodeMountPath (field : List UInt8) : Option (List UInt8) := decodeFrom field 0

/-- The bytes the kernel escapes: space, tab, newline and backslash. -/
def isEscaped (byte : UInt8) : Bool := [32, 9, 10, backslash].contains byte

/-- How the kernel writes a byte of a path. -/
def mountEscape (byte : UInt8) : List UInt8 :=
  if isEscaped byte then [backslash, 48 + byte / 64, 48 + byte / 8 % 8, 48 + byte % 8] else [byte]

/-- A path as mountinfo has it. -/
def encodeMountPath (path : List UInt8) : List UInt8 := path.flatMap mountEscape

/-- The digits of an escape are octal and give the byte back without an overflow. -/
theorem octalValue_mountEscape {byte : UInt8} (escaped : isEscaped byte = true) :
    [48 + byte / 64, 48 + byte / 8 % 8, 48 + byte % 8].all isOctalDigit = true ∧
      octalValue (48 + byte / 64) (48 + byte / 8 % 8) (48 + byte % 8) = some byte := by
  simp only [isEscaped, List.contains_iff_mem, List.mem_cons, List.not_mem_nil, or_false] at escaped
  rcases escaped with rfl | rfl | rfl | rfl <;> decide

variable {read rest : List UInt8}

theorem escapeAt_of_escape {first second third : UInt8}
    (octal : [first, second, third].all isOctalDigit = true) :
    escapeAt (read ++ backslash :: first :: second :: third :: rest) read.length =
      some (first, second, third) := by
  have lookup : ∀ offset, (read ++ backslash :: first :: second :: third :: rest)[read.length +
      offset]? = (backslash :: first :: second :: third :: rest)[offset]? := by
    intro offset
    rw [List.getElem?_append_right (Nat.le_add_right _ _), Nat.add_sub_cancel_left]
  have here := lookup 0
  unfold escapeAt
  rw [lookup 1, lookup 2, lookup 3]
  simp only [Nat.add_zero] at here
  rw [here]
  simp [octal]

/-- Only a backslash begins an escape. -/
theorem escapeAt_of_plain {byte : UInt8} (plain : byte ≠ backslash) :
    escapeAt (read ++ byte :: rest) read.length = none := by
  simp [escapeAt, plain]

/-- One round of the loop decodes what stands for one byte. -/
theorem decodeFrom_mountEscape (byte : UInt8) :
    decodeFrom (read ++ (mountEscape byte ++ rest)) read.length =
      (decodeFrom (read ++ (mountEscape byte ++ rest))
        (read.length + (mountEscape byte).length)).map (byte :: ·) := by
  have inside : read.length < (read ++ (mountEscape byte ++ rest)).length := by
    unfold mountEscape
    split <;> simp
  by_cases escaped : isEscaped byte = true
  · have shape : mountEscape byte =
        [backslash, 48 + byte / 64, 48 + byte / 8 % 8, 48 + byte % 8] := if_pos escaped
    have value := octalValue_mountEscape escaped
    rw [decodeFrom, dif_pos inside]
    simp only [shape, List.cons_append, List.nil_append, escapeAt_of_escape value.1, value.2]
    rfl
  · have plain : byte ≠ backslash := by
      rintro rfl
      exact escaped (by decide)
    have shape : mountEscape byte = [byte] := if_neg escaped
    rw [decodeFrom, dif_pos inside]
    simp only [shape, List.cons_append, List.nil_append, escapeAt_of_plain plain]
    simp

/-- From where an encoded path begins, the loop decodes it. -/
theorem decodeFrom_encode (path : List UInt8) (read : List UInt8) :
    decodeFrom (read ++ encodeMountPath path) read.length = some path := by
  induction path generalizing read with
  | nil =>
      rw [decodeFrom]
      simp [encodeMountPath]
  | cons byte path ih =>
      have later := ih (read ++ mountEscape byte)
      rw [List.append_assoc, List.length_append] at later
      rw [encodeMountPath, List.flatMap_cons, ← encodeMountPath, decodeFrom_mountEscape, later]
      rfl

/-- Decoding undoes the escaping of the kernel, and no escape of it overflows. -/
theorem decodeMountPath_encode (path : List UInt8) :
    decodeMountPath (encodeMountPath path) = some path :=
  decodeFrom_encode path []

end LzuMirror
