import MapGo.Text

/-! JSON as Python's `json` reads and writes it: integers apart from floats, and the floats that
its dialect has besides the rational ones. -/
namespace MapGo

inductive Loaded where
  | null
  | bool (value : Bool)
  | int (value : Int)
  | float (value : ℚ)
  | infinity (negative : Bool)
  | nan
  | str (value : String)
  | list (items : List Loaded)
  | dict (entries : List (String × Loaded))

namespace Loaded

/-- The value counts as true. -/
def truthy : Loaded → Bool
  | .null => false
  | .bool value => value
  | .int value => value ≠ 0
  | .float value => value ≠ 0
  | .infinity _ | .nan => true
  | .str value => value ≠ ""
  | .list items => !items.isEmpty
  | .dict entries => !entries.isEmpty

/-- A character of a written string. -/
def escape (c : Char) : List Char :=
  if c = '"' then ['\\', '"']
  else if c = '\\' then ['\\', '\\']
  else if c = '\n' then ['\\', 'n']
  else if c = '\r' then ['\\', 'r']
  else if c = '\t' then ['\\', 't']
  else if c.toNat = 0x08 then ['\\', 'b']
  else if c.toNat = 0x0C then ['\\', 'f']
  else if c.toNat < 0x20 then
    "\\u00".toList ++ [Nat.digitChar (c.toNat / 16), Nat.digitChar (c.toNat % 16)]
  else [c]

def quoted (text : String) : List Char := '"' :: text.toList.flatMap escape ++ ['"']

def entryText (entry : String × List Char) : List Char := quoted entry.1 ++ ": ".toList ++ entry.2

section dumps
variable (floatRepr : ℚ → String)

mutual

/-- `json.dumps(value, ensure_ascii=False, sort_keys=True)`; `repr` writes a float. -/
def dumps : Loaded → List Char
  | .null => "null".toList
  | .bool value => if value then "true".toList else "false".toList
  | .int value => (toString value).toList
  | .float value => (floatRepr value).toList
  | .infinity negative => if negative then "-Infinity".toList else "Infinity".toList
  | .nan => "NaN".toList
  | .str value => quoted value
  | .list items => '[' :: ", ".toList.intercalate (dumpsItems items) ++ [']']
  | .dict entries =>
      let sorted := (dumpsEntries entries).mergeSort fun a b => decide (a.1 ≤ b.1)
      '{' :: ", ".toList.intercalate (sorted.map entryText) ++ ['}']

def dumpsItems : List Loaded → List (List Char)
  | [] => []
  | item :: items => dumps item :: dumpsItems items

def dumpsEntries : List (String × Loaded) → List (String × List Char)
  | [] => []
  | (key, value) :: entries => (key, dumps value) :: dumpsEntries entries

end

end dumps

section rewriting
variable (change : String → String)

mutual

/-- The value with every string in it changed, keys aside. -/
def mapStrings : Loaded → Loaded
  | .str value => .str (change value)
  | .list items => .list (mapStringsItems items)
  | .dict entries => .dict (mapStringsEntries entries)
  | value => value

def mapStringsItems : List Loaded → List Loaded
  | [] => []
  | item :: items => mapStrings item :: mapStringsItems items

def mapStringsEntries : List (String × Loaded) → List (String × Loaded)
  | [] => []
  | (key, value) :: entries => (key, mapStrings value) :: mapStringsEntries entries

end

end rewriting

section strings
variable (holds : String → Bool)

mutual

/-- Some string in the value, keys aside. -/
def anyString : Loaded → Bool
  | .str value => holds value
  | .list items => anyStringItems items
  | .dict entries => anyStringEntries entries
  | _ => false

def anyStringItems : List Loaded → Bool
  | [] => false
  | item :: items => anyString item || anyStringItems items

def anyStringEntries : List (String × Loaded) → Bool
  | [] => false
  | (_, value) :: entries => anyString value || anyStringEntries entries

end

end strings

/-! How long a written value is at least. -/

theorem length_le_intercalate {separator part : List Char} {parts : List (List Char)}
    (member : part ∈ parts) : part.length ≤ (separator.intercalate parts).length := by
  induction parts with
  | nil => exact absurd member List.not_mem_nil
  | cons first rest ih =>
      cases rest with
      | nil =>
          obtain rfl := List.mem_singleton.mp member
          simp [List.intercalate]
      | cons second more =>
          have joined : separator.intercalate (first :: second :: more) =
              first ++ (separator ++ separator.intercalate (second :: more)) := by
            simp [List.intercalate]
          rw [joined, List.length_append, List.length_append]
          obtain rfl | later := List.mem_cons.mp member
          · omega
          · have shorter := ih later
            omega

theorem length_intercalate_ge {parts : List (List Char)} :
    2 * parts.length ≤ (", ".toList.intercalate parts).length + 2 := by
  induction parts with
  | nil => exact Nat.zero_le _
  | cons first rest ih =>
      cases rest with
      | nil => exact Nat.le_add_left ..
      | cons second more =>
          have joined : ", ".toList.intercalate (first :: second :: more) =
              first ++ (", ".toList ++ ", ".toList.intercalate (second :: more)) := by
            simp [List.intercalate]
          have comma : ", ".toList.length = 2 := by decide
          rw [joined, List.length_append, List.length_append, comma, List.length_cons]
          omega

variable {floatRepr : ℚ → String}

theorem length_dumpsItems {items : List Loaded} :
    (dumpsItems floatRepr items).length = items.length := by
  induction items with
  | nil => rfl
  | cons item items ih => rw [dumpsItems, List.length_cons, List.length_cons, ih]

/-- A list is longer than its number of items. -/
theorem length_dumps_list {items : List Loaded} :
    2 * items.length ≤ (dumps floatRepr (.list items)).length := by
  have separated := @length_intercalate_ge (dumpsItems floatRepr items)
  rw [length_dumpsItems] at separated
  rw [dumps, List.length_append, List.length_cons, List.length_singleton]
  omega

theorem mem_dumpsEntries {key : String} {value : Loaded} {entries : List (String × Loaded)}
    (member : (key, value) ∈ entries) :
    (key, dumps floatRepr value) ∈ dumpsEntries floatRepr entries := by
  induction entries with
  | nil => exact absurd member List.not_mem_nil
  | cons entry entries ih =>
      obtain ⟨name, other⟩ := entry
      rw [dumpsEntries]
      obtain same | later := List.mem_cons.mp member
      · obtain ⟨rfl, rfl⟩ := Prod.mk.inj same
        exact List.mem_cons_self
      · exact List.mem_cons_of_mem _ (ih later)

/-- A dictionary is longer than each of its values. -/
theorem length_dumps_value {key : String} {value : Loaded} {entries : List (String × Loaded)}
    (member : (key, value) ∈ entries) :
    (dumps floatRepr value).length < (dumps floatRepr (.dict entries)).length := by
  have sorted : (key, dumps floatRepr value) ∈
      (dumpsEntries floatRepr entries).mergeSort fun a b => decide (a.1 ≤ b.1) :=
    List.mem_mergeSort.mpr (mem_dumpsEntries member)
  have inside := @length_le_intercalate ", ".toList _ _
    (List.mem_map_of_mem (f := entryText) sorted)
  rw [entryText, List.length_append, List.length_append] at inside
  dsimp only at inside
  rw [dumps, List.length_append, List.length_cons]
  omega

theorem mapStringsItems_replicate_int {change : String → String} {count : Nat} {n : Int} :
    mapStringsItems change (List.replicate count (.int n)) = List.replicate count (.int n) := by
  induction count with
  | zero => rfl
  | succ count ih => simp [List.replicate_succ, mapStringsItems, mapStrings, ih]

end Loaded

end MapGo
