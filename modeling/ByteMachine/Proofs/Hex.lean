import ByteMachine.Hex
import Mathlib.Data.List.Basic

/-!
Hexadecimal text read back: a row of bytes, each shown by two upper-case digits, with single blanks
between them.
-/

namespace ByteMachine.Hex

def digit? (c : Char) : Option Nat :=
  if '0' ≤ c ∧ c ≤ '9' then some (c.toNat - '0'.toNat)
  else if 'A' ≤ c ∧ c ≤ 'F' then some (c.toNat - 'A'.toNat + 10)
  else none

def pair? (high low : Char) : Option UInt8 := do
  return UInt8.ofNat (16 * (← digit? high) + (← digit? low))

def row? : List Char → Option (List UInt8)
  | [high, low] => do return [← pair? high low]
  | high :: low :: ' ' :: rest => do return (← pair? high low) :: (← row? rest)
  | _ => none

def upperDigit (n : Nat) : Char := n.digitChar.toUpper

theorem digit_upperDigit {n : Nat} (hn : n < 16) : digit? (upperDigit n) = some n := by
  have hall : ∀ n < 16, digit? (upperDigit n) = some n := by decide
  exact hall n hn

theorem upperByte_digits (byte : UInt8) :
    (upperByte byte).toList = [upperDigit (byte.toNat / 16), upperDigit (byte.toNat % 16)] := by
  have hall : ∀ n < 256, (padZeros 2 (upper n)).toList =
      [upperDigit (n / 16), upperDigit (n % 16)] := by
    decide +kernel
  exact hall byte.toNat byte.toNat_lt

theorem byte_digits (byte : UInt8) :
    (Hex.byte byte).toList =
      [Nat.digitChar (byte.toNat / 16), Nat.digitChar (byte.toNat % 16)] := by
  have hall : ∀ n < 256, (padZeros 2 (lower n)).toList =
      [Nat.digitChar (n / 16), Nat.digitChar (n % 16)] := by
    decide +kernel
  exact hall byte.toNat byte.toNat_lt

theorem pair_upperDigits (byte : UInt8) :
    pair? (upperDigit (byte.toNat / 16)) (upperDigit (byte.toNat % 16)) = some byte := by
  have hb := byte.toNat_lt
  have hsum : 16 * (byte.toNat / 16) + byte.toNat % 16 = byte.toNat := by omega
  rw [pair?, digit_upperDigit (by omega), digit_upperDigit (by omega)]
  change some (UInt8.ofNat (16 * (byte.toNat / 16) + byte.toNat % 16)) = some byte
  rw [hsum, UInt8.ofNat_toNat]

theorem row_upperBytes {bytes : List UInt8} (hne : bytes ≠ []) :
    row? (" ".intercalate (bytes.map upperByte)).toList = some bytes := by
  induction bytes with
  | nil => exact absurd rfl hne
  | cons byte rest ih =>
    have hpair := pair_upperDigits byte
    cases rest with
    | nil => simp [upperByte_digits, row?, hpair]
    | cons next rest =>
      have hrest := ih (List.cons_ne_nil next rest)
      rw [List.map_cons] at hrest
      have htext : (" ".intercalate ((byte :: next :: rest).map upperByte)).toList =
          upperDigit (byte.toNat / 16) :: upperDigit (byte.toNat % 16) :: ' ' ::
            (" ".intercalate (upperByte next :: rest.map upperByte)).toList := by
        rw [List.map_cons, List.map_cons, String.intercalate_cons_cons, String.toList_append,
          String.toList_append, upperByte_digits]
        rfl
      rw [htext, row?, hpair, hrest]
      rfl

end ByteMachine.Hex
