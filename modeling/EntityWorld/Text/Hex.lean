import EntityWorld.Bytes
set_option autoImplicit false

/-!
Bytes in hexadecimal: two digits each, the high one first. What is written is read back.
-/
namespace EntityWorld.Text

def hexDigit (n : Nat) : Char := Char.ofNat (if n < 10 then 48 + n else 87 + n)

def hexValue? (c : Char) : Option Nat :=
  if '0' ≤ c ∧ c ≤ '9' then some (c.toNat - 48)
  else if 'a' ≤ c ∧ c ≤ 'f' then some (c.toNat - 87)
  else if 'A' ≤ c ∧ c ≤ 'F' then some (c.toNat - 55)
  else none

def writeHex : Bytes → List Char
  | [] => []
  | b :: bs => hexDigit (b.toNat / 16) :: hexDigit (b.toNat % 16) :: writeHex bs

def readHex? : List Char → Option Bytes
  | [] => some []
  | [_] => none
  | high :: low :: rest => do
    let h ← hexValue? high
    let l ← hexValue? low
    let bs ← readHex? rest
    return UInt8.ofNat (16 * h + l) :: bs

theorem hexValue?_hexDigit : ∀ n, n < 16 → hexValue? (hexDigit n) = some n := by decide

theorem readHex?_writeHex (bs : Bytes) : readHex? (writeHex bs) = some bs := by
  induction bs with
  | nil => rfl
  | cons b bs ih =>
    have hb := b.toNat_lt
    have h1 := hexValue?_hexDigit (b.toNat / 16) (by omega)
    have h2 := hexValue?_hexDigit (b.toNat % 16) (by omega)
    have h3 : UInt8.ofNat (16 * (b.toNat / 16) + b.toNat % 16) = b := by
      rw [Nat.div_add_mod, UInt8.ofNat_toNat]
    simp only [writeHex, readHex?, h1, h2, ih, h3, Option.bind_eq_bind, Option.bind_some,
      Option.pure_def]

end EntityWorld.Text
