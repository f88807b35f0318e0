import StellarSettle.Model.Entities

/-!
# Texts of ids

The database prints a `uuid` as 32 hexadecimal digits in lower case, in groups that hyphens
separate.  It reads more than it prints: digits in upper case, a hyphen or none after every four
digits, and braces around the whole.  One id therefore has many texts.
-/

namespace StellarSettle.UuidText

open StellarSettle.Entities (Uuid)

def hexDigits : List Char := "0123456789abcdef".toList

def hexDigit (value : ℕ) : Char := hexDigits.getD value '0'

def hexValue (digit : Char) : Option ℕ :=
  let value := hexDigits.idxOf digit.toLower
  if value < 16 then some value else none

theorem hexValue_hexDigit : ∀ value < 16, hexValue (hexDigit value) = some value := by decide

theorem hexDigit_ne : ∀ value < 16, hexDigit value ≠ '-' ∧ hexDigit value ≠ '\x7b' := by decide

/-! ## Groups of four digits -/

def printGroup (value : ℕ) : List Char :=
  [hexDigit (value / 4096 % 16), hexDigit (value / 256 % 16), hexDigit (value / 16 % 16),
    hexDigit (value % 16)]

def readGroup : List Char → Option (ℕ × List Char)
  | first :: second :: third :: fourth :: rest => do
      let first ← hexValue first
      let second ← hexValue second
      let third ← hexValue third
      let fourth ← hexValue fourth
      return (((first * 16 + second) * 16 + third) * 16 + fourth, rest)
  | _ => none

theorem readGroup_printGroup {value : ℕ} (hvalue : value < 65536) (rest : List Char) :
    readGroup (printGroup value ++ rest) = some (value, rest) := by
  have hsmall : ∀ digits : ℕ, digits % 16 < 16 := fun digits => Nat.mod_lt digits (by decide)
  have hsum : ((value / 4096 % 16 * 16 + value / 256 % 16) * 16 + value / 16 % 16) * 16 +
      value % 16 = value := by omega
  simp [printGroup, readGroup, hexValue_hexDigit _ (hsmall _), hsum]

def skipHyphen : List Char → List Char
  | '-' :: rest => rest
  | chars => chars

/-- A hyphen may follow every group but the last one. -/
def readGroups : ℕ → List Char → ℕ → Option (ℕ × List Char)
  | 0, chars, value => some (value, chars)
  | left + 1, chars, value => do
      let (group, rest) ← readGroup chars
      readGroups left (if left = 0 then rest else skipHyphen rest) (value * 65536 + group)

def printGroups (id : Uuid) : ℕ → List Char
  | 0 => []
  | left + 1 =>
      printGroup (id / 65536 ^ left % 65536) ++
        ((if 3 ≤ left ∧ left ≤ 6 then ['-'] else []) ++ printGroups id left)

/-- A group does not start with a hyphen. -/
theorem skipHyphen_printGroups (id : Uuid) (left : ℕ) :
    skipHyphen (printGroups id left) = printGroups id left := by
  cases left with
  | zero => rfl
  | succ left =>
      have hfirst := (hexDigit_ne (id / 65536 ^ left % 65536 / 4096 % 16)
        (Nat.mod_lt _ (by decide))).1
      rw [printGroups, printGroup, List.cons_append]
      unfold skipHyphen
      split
      · rename_i heq
        exact absurd (List.cons.inj heq).1 hfirst
      · rfl

theorem readGroups_printGroups (id : Uuid) (left : ℕ) :
    readGroups left (printGroups id left) (id / 65536 ^ left) = some (id, []) := by
  induction left with
  | zero => simp [readGroups, printGroups]
  | succ left ih =>
      have hvalue : id / 65536 ^ (left + 1) * 65536 + id / 65536 ^ left % 65536 =
          id / 65536 ^ left := by
        rw [pow_succ, ← Nat.div_div_eq_div_mul, Nat.div_add_mod']
      have hskip : (if left = 0 then
            (if 3 ≤ left ∧ left ≤ 6 then ['-'] else []) ++ printGroups id left
          else skipHyphen ((if 3 ≤ left ∧ left ≤ 6 then ['-'] else []) ++ printGroups id left)) =
          printGroups id left := by
        split
        · rename_i hzero
          rw [hzero]
          rfl
        · split
          · rfl
          · exact skipHyphen_printGroups id left
      rw [readGroups, printGroups, readGroup_printGroup (Nat.mod_lt _ (by decide))]
      simp only [Option.bind_eq_bind, Option.bind_some]
      rw [hvalue, hskip, ih]

/-! ## Texts -/

def printUuid (id : Uuid) : String := String.ofList (printGroups id 8)

/-- The whole text is read, but for the brace that closes it. -/
def readWhole (closing : List Char) (chars : List Char) : Option Uuid := do
  let (id, rest) ← readGroups 8 chars 0
  if rest = closing then some id else none

def readUuid (text : String) : Option Uuid :=
  match text.toList with
  | '\x7b' :: chars => readWhole ['\x7d'] chars
  | chars => readWhole [] chars

/-- What the database prints, it reads. -/
theorem readUuid_printUuid {id : Uuid} (hid : id < 2 ^ 128) :
    readUuid (printUuid id) = some id := by
  have hchars : (printUuid id).toList = printGroups id 8 := String.toList_ofList
  have hzero : id / 65536 ^ 8 = 0 := Nat.div_eq_of_lt (by simpa using hid)
  have hfirst := (hexDigit_ne (id / 65536 ^ 7 % 65536 / 4096 % 16) (Nat.mod_lt _ (by decide))).2
  have hread : readWhole [] (printGroups id 8) = some id := by
    have hgroups := readGroups_printGroups id 8
    rw [hzero] at hgroups
    rw [readWhole, hgroups]
    rfl
  rw [readUuid, hchars]
  split
  · rename_i chars heq
    rw [printGroups, printGroup, List.cons_append] at heq
    exact absurd (List.cons.inj heq).1 hfirst
  · exact hread

theorem printUuid_injective {left right : Uuid} (hleft : left < 2 ^ 128) (hright : right < 2 ^ 128)
    (heq : printUuid left = printUuid right) : left = right := by
  have hread := readUuid_printUuid hleft
  rw [heq, readUuid_printUuid hright] at hread
  exact (Option.some.inj hread).symm

/-- Digits in upper case name the same id. -/
example : readUuid "{6F1C0000000000000000000000000ABC}" =
      some 0x6f1c0000000000000000000000000abc ∧
    printUuid 0x6f1c0000000000000000000000000abc = "6f1c0000-0000-0000-0000-000000000abc" := by
  decide

end StellarSettle.UuidText
