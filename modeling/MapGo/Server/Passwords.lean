import MapGo.Text

/-! Stored passwords: the text that is kept of a password, and how one is checked against it. -/
namespace MapGo.Server

/-- `bytes.hex` -/
def toHex (bytes : List UInt8) : List Char :=
  bytes.flatMap fun byte =>
    [Nat.digitChar (byte.toNat / 16), Nat.digitChar (byte.toNat % 16)]

def hexValue (c : Char) : Option Nat :=
  if '0' ≤ c ∧ c ≤ '9' then some (c.toNat - '0'.toNat)
  else if 'a' ≤ c ∧ c ≤ 'f' then some (c.toNat - 'a'.toNat + 10)
  else if 'A' ≤ c ∧ c ≤ 'F' then some (c.toNat - 'A'.toNat + 10)
  else none

/-- The white space of ASCII, which may stand between two bytes. -/
def asciiSpace (c : Char) : Bool := c = ' ' || ('\t' ≤ c && c ≤ '\r')

/-- `bytes.fromhex` -/
def fromHex : List Char → Option (List UInt8)
  | [] => some []
  | [c] => if asciiSpace c then some [] else none
  | c :: d :: rest =>
      if asciiSpace c then fromHex (d :: rest)
      else do
        let high ← hexValue c
        let low ← hexValue d
        let bytes ← fromHex rest
        return UInt8.ofNat (16 * high + low) :: bytes

/-- `text.split(separator, 1)` of a text with the separator in it. -/
def splitOnce (separator : Char) (text : List Char) : Option (List Char × List Char) :=
  if separator ∈ text then
    some (text.takeWhile (· ≠ separator), (text.dropWhile (· ≠ separator)).tail)
  else none

/-- `_derive` -/
abbrev Derive := String → List UInt8 → List UInt8

/-- `hash_password`, with the salt it has drawn. -/
def hashPassword (derive : Derive) (password : String) (salt : List UInt8) : String :=
  "scrypt$" ++ String.ofList (toHex salt) ++ "$" ++ String.ofList (toHex (derive password salt))

/-- `verify_password`; the older format has no mark and a colon. -/
def verifyPassword (derive : Derive) (password stored : String) : Bool :=
  let parts :=
    if Text.hasPrefix stored "scrypt$" then splitOnce '$' (stored.toList.drop 7)
    else splitOnce ':' stored.toList
  parts.any fun (saltHex, digestHex) =>
    (fromHex saltHex).any fun salt => fromHex digestHex = some (derive password salt)

variable {derive : Derive} {bytes salt : List UInt8}

theorem hexValue_digitChar {n : Nat} (digit : n < 16) : hexValue (Nat.digitChar n) = some n := by
  have all : ∀ n < 16, hexValue (Nat.digitChar n) = some n := by decide
  exact all n digit

theorem digitChar_visible {n : Nat} (digit : n < 16) :
    asciiSpace (Nat.digitChar n) = false ∧ Nat.digitChar n ≠ '$' := by
  have all : ∀ n < 16, asciiSpace (Nat.digitChar n) = false ∧ Nat.digitChar n ≠ '$' := by decide
  exact all n digit

theorem fromHex_toHex : fromHex (toHex bytes) = some bytes := by
  induction bytes with
  | nil => rfl
  | cons byte rest ih =>
      have small := byte.toNat_lt
      have high : byte.toNat / 16 < 16 := by omega
      have low : byte.toNat % 16 < 16 := Nat.mod_lt _ (by decide)
      have whole : 16 * (byte.toNat / 16) + byte.toNat % 16 = byte.toNat := Nat.div_add_mod ..
      have read : UInt8.ofNat (16 * (byte.toNat / 16) + byte.toNat % 16) = byte := by
        rw [whole, UInt8.ofNat_toNat]
      change fromHex (Nat.digitChar _ :: Nat.digitChar _ :: toHex rest) = _
      rw [fromHex, if_neg (by simp [(digitChar_visible high).1]), hexValue_digitChar high,
        hexValue_digitChar low, ih]
      exact congrArg (fun first => some (first :: rest)) read

theorem dollar_not_mem_toHex : '$' ∉ toHex bytes := by
  intro member
  obtain ⟨byte, -, found⟩ := List.mem_flatMap.mp member
  have small := byte.toNat_lt
  rcases List.mem_pair.mp found with high | low
  · exact (digitChar_visible (by omega)).2 high.symm
  · exact (digitChar_visible (Nat.mod_lt _ (by decide))).2 low.symm

theorem splitOnce_append {separator : Char} {before after : List Char}
    (absent : separator ∉ before) :
    splitOnce separator (before ++ separator :: after) = some (before, after) := by
  have other : ∀ c ∈ before, decide (c ≠ separator) = true := by
    intro c member
    exact decide_eq_true fun same => absent (same ▸ member)
  rw [splitOnce, if_pos (by simp), List.takeWhile_append_of_pos other,
    List.dropWhile_append_of_pos other]
  simp

/-- A password passes exactly if it derives what was derived from the stored one. -/
theorem verifyPassword_hashPassword (password other : String) :
    verifyPassword derive other (hashPassword derive password salt) =
      decide (derive other salt = derive password salt) := by
  have starts : Text.hasPrefix (hashPassword derive password salt) "scrypt$" = true := by
    rw [hashPassword, String.append_assoc, String.append_assoc]
    exact Text.hasPrefix_append ..
  have parts : splitOnce '$' ((hashPassword derive password salt).toList.drop 7) =
      some (toHex salt, toHex (derive password salt)) := by
    rw [← splitOnce_append dollar_not_mem_toHex]
    simp [hashPassword]
  simp only [verifyPassword, starts, if_true, parts, Option.any_some, fromHex_toHex,
    Option.some.injEq]
  exact decide_eq_decide.mpr eq_comm

end MapGo.Server
