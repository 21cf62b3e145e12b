/-
  FieldRemap.Text.Utf8 — the characters a byte string spells.

  A byte string need not be UTF-8. `decodeUtf8` gives its characters in order and marks each
  byte that belongs to none.
-/

namespace FieldRemap

def continues (low high : Nat) (byte : UInt8) : Bool :=
  low ≤ byte.toNat && byte.toNat ≤ high

def firstChar? (bytes : List UInt8) : Option (Char × Nat) :=
  match bytes with
  | [] => none
  | a :: rest =>
    let lead := a.toNat
    if lead < 0x80 then some (Char.ofNat lead, 1)
    else if 0xC2 ≤ lead && lead ≤ 0xDF then
      match rest with
      | b :: _ =>
        if continues 0x80 0xBF b then some (Char.ofNat ((lead - 0xC0) * 64 + (b.toNat - 0x80)), 2) else none
      | _ => none
    else if 0xE0 ≤ lead && lead ≤ 0xEF then
      match rest with
      | b :: c :: _ =>
        let low := if lead = 0xE0 then 0xA0 else 0x80
        let high := if lead = 0xED then 0x9F else 0xBF
        if continues low high b && continues 0x80 0xBF c then
          some (Char.ofNat ((lead - 0xE0) * 4096 + (b.toNat - 0x80) * 64 + (c.toNat - 0x80)), 3)
        else none
      | _ => none
    else if 0xF0 ≤ lead && lead ≤ 0xF4 then
      match rest with
      | b :: c :: d :: _ =>
        let low := if lead = 0xF0 then 0x90 else 0x80
        let high := if lead = 0xF4 then 0x8F else 0xBF
        if continues low high b && continues 0x80 0xBF c && continues 0x80 0xBF d then
          some (Char.ofNat ((lead - 0xF0) * 262144 + (b.toNat - 0x80) * 4096 + (c.toNat - 0x80) * 64 +
            (d.toNat - 0x80)), 4)
        else none
      | _ => none
    else none

/-- Reads characters one after another, the first `passed` bytes being read already. -/
def decodeLossy (passed : Nat) : List UInt8 → List (Option Char)
  | [] => []
  | byte :: rest =>
    match passed with
    | passed + 1 => decodeLossy passed rest
    | 0 =>
      match firstChar? (byte :: rest) with
      | some (c, width) => some c :: decodeLossy (width - 1) rest
      | none => none :: decodeLossy 0 rest

/-- The characters of a byte string, `none` for each byte that belongs to no character. -/
def decodeUtf8 (bytes : ByteArray) : List (Option Char) :=
  match String.fromUTF8? bytes with
  | some text => text.toList.map some
  | none => decodeLossy 0 bytes.toList

end FieldRemap
