import Mathlib

/-! Text as the list of its characters: parts of a text, what stands at its ends and between
separators, and decimal integers. -/
namespace Text

def hasPrefix (text start : String) : Bool := start.toList.isPrefixOf text.toList

def hasSuffix (text ending : String) : Bool := ending.toList.isSuffixOf text.toList

def contains (text part : String) : Bool := decide (part.toList <:+: text.toList)

def containsAny (text : String) (parts : List String) : Bool := parts.any (contains text)

/-- `text.split(separator)` -/
def split (separator : Char) (text : String) : List String :=
  (text.toList.splitOn separator).map String.ofList

/-- `text.split(separator, 1)[1]` of a text with the separator in it. -/
def afterFirst (separator : Char) (text : String) : String :=
  String.ofList (text.toList.dropWhile (· ≠ separator)).tail

/-- `text.rsplit(separator, 1)[-1]` -/
def afterLast (separator : Char) (text : String) : String :=
  String.ofList (text.toList.reverse.takeWhile (· ≠ separator)).reverse

def withoutPrefix (text start : String) : String :=
  String.ofList (text.toList.drop start.length)

/-- The text from a place on without the occurrences of a part, the first of them first. -/
def without (part : List Char) : List Char → Nat → List Char
  | [], _ => []
  | _ :: rest, skip + 1 => without part rest skip
  | c :: rest, 0 =>
      if part ≠ [] ∧ part.isPrefixOf (c :: rest) then without part rest (part.length - 1)
      else c :: without part rest 0

/-- `text.replace(part, "")` -/
def removeAll (part text : String) : String := String.ofList (without part.toList text.toList 0)

/-- The white space of `str.strip`. -/
def isSpace (c : Char) : Bool :=
  c.toNat ∈ [0x20, 0x85, 0xA0, 0x1680, 0x2028, 0x2029, 0x202F, 0x205F, 0x3000] ||
    (0x09 ≤ c.toNat && c.toNat ≤ 0x0D) || (0x1C ≤ c.toNat && c.toNat ≤ 0x1F) ||
    (0x2000 ≤ c.toNat && c.toNat ≤ 0x200A)

def stripped (text : List Char) : List Char :=
  ((text.dropWhile isSpace).reverse.dropWhile isSpace).reverse

def strip (text : String) : String := String.ofList (stripped text.toList)

/-- Groups of ASCII digits with single underscores between them, at most 4300 digits. -/
def toNatural (digits : List Char) : Option Nat :=
  let plain := digits.filter (· ≠ '_')
  if (digits.splitOn '_').all (fun group => !group.isEmpty && group.all Char.isDigit) ∧
    plain.length ≤ 4300 then some (Nat.ofDigitChars 10 plain 0)
  else none

/-- `int(text)` -/
def toInt (text : String) : Option Int :=
  match stripped text.toList with
  | '-' :: digits => (toNatural digits).map fun n => -(n : Int)
  | '+' :: digits => (toNatural digits).map Int.ofNat
  | digits => (toNatural digits).map Int.ofNat

theorem hasPrefix_append (start rest : String) : hasPrefix (start ++ rest) start = true := by
  simp [hasPrefix]

theorem hasPrefix_trans {text start shorter : String} (starts : hasPrefix text start = true)
    (first : hasPrefix start shorter = true) : hasPrefix text shorter = true :=
  List.isPrefixOf_iff_prefix.mpr
    ((List.isPrefixOf_iff_prefix.mp first).trans (List.isPrefixOf_iff_prefix.mp starts))

/-- A text starts with one of two texts only, if neither starts with the other. -/
theorem hasPrefix_of_apart {text start other : String} (starts : hasPrefix text start = true)
    (apart : hasPrefix start other = false ∧ hasPrefix other start = false) :
    hasPrefix text other = false := by
  by_contra both
  have first := List.isPrefixOf_iff_prefix.mp starts
  have second := List.isPrefixOf_iff_prefix.mp (Bool.not_eq_false _ ▸ both)
  rcases List.prefix_or_prefix_of_prefix first second with inside | inside
  · exact absurd (apart.2.symm.trans (List.isPrefixOf_iff_prefix.mpr inside)) Bool.false_ne_true
  · exact absurd (apart.1.symm.trans (List.isPrefixOf_iff_prefix.mpr inside)) Bool.false_ne_true

theorem number_plain {n : Nat} : ':' ∉ (toString n).toList := by
  intro member
  have digit := Nat.isDigit_of_mem_toDigits (by decide) (by decide) (Nat.toList_repr (n := n) ▸ member)
  exact absurd digit (by decide)

end Text
