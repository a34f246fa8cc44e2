/-!
# Where bytes stop being UTF-8

`Utf8.fault?` finds the first place at which a sequence of bytes is no longer UTF-8, and says how
long the offending part is, or that the bytes end inside a character.
-/

namespace ClusterSync.Text

/-- Raw bytes, as the datastore keeps them. -/
abbrev Bytes := ByteArray

instance : DecidableEq Bytes := fun a b =>
  decidable_of_iff (a.data = b.data) ⟨fun h => ByteArray.ext h, fun h => by rw [h]⟩

/-- A fault in a byte sequence: the length of the valid part before it, and the length of the
part that can never be valid, or none if only more bytes could tell. -/
structure Utf8Fault where
  index : Nat
  length? : Option Nat
  deriving DecidableEq, Repr

namespace Utf8

/-- The range of a second byte after the given first byte, and how many bytes follow the first. -/
def lead (b : Nat) : Option (Nat × Nat × Nat) :=
  if 0xC2 ≤ b ∧ b ≤ 0xDF then some (1, 0x80, 0xBF)
  else if b = 0xE0 then some (2, 0xA0, 0xBF)
  else if (0xE1 ≤ b ∧ b ≤ 0xEC) ∨ b = 0xEE ∨ b = 0xEF then some (2, 0x80, 0xBF)
  else if b = 0xED then some (2, 0x80, 0x9F)
  else if b = 0xF0 then some (3, 0x90, 0xBF)
  else if 0xF1 ≤ b ∧ b ≤ 0xF3 then some (3, 0x80, 0xBF)
  else if b = 0xF4 then some (3, 0x80, 0x8F)
  else none

/-- Where a scan stands: between characters, or inside one that began at `start`, of which `seen`
bytes are there, `missing` are to come and the next lies between `low` and `high`. -/
inductive Position
  | between
  | inside (start seen missing low high : Nat)

/-- The first fault from a position on, `i` being the index of the next byte. -/
def faultFrom : Position → Nat → List UInt8 → Option Utf8Fault
  | .between, _, [] => none
  | .inside start _ _ _ _, _, [] => some ⟨start, none⟩
  | .between, i, b :: rest =>
    if b.toNat < 0x80 then faultFrom .between (i + 1) rest
    else
      match lead b.toNat with
      | none => some ⟨i, some 1⟩
      | some (follow, low, high) => faultFrom (.inside i 1 follow low high) (i + 1) rest
  | .inside start seen missing low high, i, b :: rest =>
    if low ≤ b.toNat ∧ b.toNat ≤ high then
      if missing ≤ 1 then faultFrom .between (i + 1) rest
      else faultFrom (.inside start (seen + 1) (missing - 1) 0x80 0xBF) (i + 1) rest
    else some ⟨start, some seen⟩

/-- The first fault of a byte sequence, if it is not UTF-8. -/
def fault? (bytes : Bytes) : Option Utf8Fault := faultFrom .between 0 bytes.data.toList

end Utf8

/-- The fault in words. -/
def Utf8Fault.message (f : Utf8Fault) : String :=
  match f.length? with
  | some n => s!"invalid utf-8 sequence of {n} bytes from index {f.index}"
  | none => s!"incomplete utf-8 byte sequence from index {f.index}"

/-- The text that bytes stand for, or the fault that keeps them from being text. -/
def Bytes.text (bytes : Bytes) : Except Utf8Fault String :=
  match String.fromUTF8? bytes with
  | some s => .ok s
  | none => .error ((Utf8.fault? bytes).getD ⟨0, none⟩)

end ClusterSync.Text
