import MapGo.Loaded

/-! Compact JSON with sorted keys. The text determines the value up to the order of its keys, since
every part of it shows where it ends. -/
namespace MapGo

/-- The texts of floats: `repr`, which tells them from integers by a point or an exponent. -/
structure FloatText where
  text : ℚ → List Char
  injective : Function.Injective text
  numeric : ∀ q, ∀ c ∈ text q, c.isDigit = true ∨ c ∈ ['-', '+', '.', 'e']
  marked : ∀ q, ∃ c ∈ text q, c = '.' ∨ c = 'e'

namespace Loaded

def memberText (entry : String × List Char) : List Char := quoted entry.1 ++ ':' :: entry.2

section
variable (floats : FloatText)

mutual

/-- The compact text of a value, in the order of its keys. -/
def written : Loaded → List Char
  | .null => "null".toList
  | .bool value => if value then "true".toList else "false".toList
  | .int value => (toString value).toList
  | .float value => floats.text value
  | .infinity negative => if negative then "-Infinity".toList else "Infinity".toList
  | .nan => "NaN".toList
  | .str value => quoted value
  | .list items => '[' :: [','].intercalate (writtenItems items) ++ [']']
  | .dict entries => '{' :: [','].intercalate (writtenMembers entries) ++ ['}']

def writtenItems : List Loaded → List (List Char)
  | [] => []
  | item :: items => written item :: writtenItems items

def writtenMembers : List (String × Loaded) → List (List Char)
  | [] => []
  | (key, value) :: entries => memberText (key, written value) :: writtenMembers entries

end

end

/-- The order of the entries of a dictionary. -/
def byKey (a b : String × Loaded) : Prop := a.1 ≤ b.1

instance : DecidableRel byKey := fun a b => inferInstanceAs (Decidable (a.1 ≤ b.1))

mutual

/-- The value with the keys of each dictionary in order. -/
def sortKeys : Loaded → Loaded
  | .list items => .list (sortKeysItems items)
  | .dict entries => .dict ((sortKeysEntries entries).insertionSort byKey)
  | value => value

def sortKeysItems : List Loaded → List Loaded
  | [] => []
  | item :: items => sortKeys item :: sortKeysItems items

def sortKeysEntries : List (String × Loaded) → List (String × Loaded)
  | [] => []
  | (key, value) :: entries => (key, sortKeys value) :: sortKeysEntries entries

end

/-- `json.dumps(value, ensure_ascii=False, sort_keys=True, separators=(",", ":"))` -/
def canonicalJson (floats : FloatText) (value : Loaded) : List Char := written floats value.sortKeys

/-- What follows a value inside a text, or at its end. -/
def Ends (rest : List Char) : Prop := ∀ c ∈ rest.head?, c = ',' ∨ c = ']' ∨ c = '}'

def Plain (text : List Char) : Prop := ∀ c ∈ text, c ≠ ',' ∧ c ≠ ']' ∧ c ≠ '}'

theorem Plain.append_inj {a b r r' : List Char} (plain : Plain a) (other : Plain b)
    (ends : Ends r) (ends' : Ends r') (same : a ++ r = b ++ r') : a = b ∧ r = r' := by
  have apart : ∀ {c : Char} {text rest : List Char}, Plain (c :: text) → ¬ Ends (c :: rest) := by
    intro c text rest plain ends
    obtain ⟨comma, bracket, brace⟩ := plain c List.mem_cons_self
    obtain same | same | same := ends c rfl
    · exact comma same
    · exact bracket same
    · exact brace same
  induction a generalizing b with
  | nil =>
      cases b with
      | nil => exact ⟨rfl, same⟩
      | cons d b =>
          rw [List.nil_append] at same
          exact absurd (same ▸ ends) (apart other)
  | cons c a ih =>
      cases b with
      | nil =>
          rw [List.nil_append] at same
          exact absurd (same ▸ ends') (apart plain)
      | cons d b =>
          obtain ⟨rfl, tails⟩ := List.cons.inj same
          obtain ⟨rfl, rest⟩ := ih (fun e member => plain e (List.mem_cons_of_mem _ member))
            (fun e member => other e (List.mem_cons_of_mem _ member)) tails
          exact ⟨rfl, rest⟩

/-! Strings: a character is told by its escape. -/

/-- The short escapes. -/
def shortEscapes : List (Char × Char) :=
  [('"', '"'), ('\\', '\\'), ('\n', 'n'), ('\r', 'r'), ('\t', 't'), (Char.ofNat 8, 'b'),
    (Char.ofNat 12, 'f')]

theorem escape_cases (c : Char) :
    (escape c = [c] ∧ c ≠ '"' ∧ c ≠ '\\') ∨
      (∃ letter, escape c = ['\\', letter] ∧ (c, letter) ∈ shortEscapes) ∨
      (escape c = "\\u00".toList ++ [Nat.digitChar (c.toNat / 16), Nat.digitChar (c.toNat % 16)] ∧
        c.toNat < 0x20) := by
  have short : ∀ {n : Nat} {letter : Char}, c.toNat = n → (Char.ofNat n, letter) ∈ shortEscapes →
      (c, letter) ∈ shortEscapes := by
    rintro n letter rfl member
    rwa [Char.ofNat_toNat] at member
  unfold escape
  split_ifs with quote slash newline feed tab back form control
  · exact .inr (.inl ⟨'"', rfl, by simp [quote, shortEscapes]⟩)
  · exact .inr (.inl ⟨'\\', rfl, by simp [slash, shortEscapes]⟩)
  · exact .inr (.inl ⟨'n', rfl, by simp [newline, shortEscapes]⟩)
  · exact .inr (.inl ⟨'r', rfl, by simp [feed, shortEscapes]⟩)
  · exact .inr (.inl ⟨'t', rfl, by simp [tab, shortEscapes]⟩)
  · exact .inr (.inl ⟨'b', rfl, short back (by simp [shortEscapes])⟩)
  · exact .inr (.inl ⟨'f', rfl, short form (by simp [shortEscapes])⟩)
  · exact .inr (.inr ⟨rfl, control⟩)
  · exact .inl ⟨rfl, quote, slash⟩

theorem shortEscapes_told : ∀ p ∈ shortEscapes, ∀ q ∈ shortEscapes, p.2 = q.2 → p.1 = q.1 := by
  decide

theorem shortEscapes_ne : ∀ p ∈ shortEscapes, p.2 ≠ 'u' := by decide

theorem digitChar_told : ∀ a < 16, ∀ b < 16, Nat.digitChar a = Nat.digitChar b → a = b := by
  decide

theorem escape_append_inj {c d : Char} {x y : List Char}
    (same : escape c ++ x = escape d ++ y) : c = d ∧ x = y := by
  have opening : "\\u00".toList = ['\\', 'u', '0', '0'] := rfl
  obtain ⟨first, -, plain⟩ | ⟨letter, first, member⟩ | ⟨first, control⟩ := escape_cases c <;>
    obtain ⟨second, -, plain'⟩ | ⟨letter', second, member'⟩ | ⟨second, control'⟩ :=
      escape_cases d <;>
    simp only [first, second, opening, List.cons_append, List.nil_append, List.cons.injEq] at same
  · exact same
  · exact absurd same.1 plain
  · exact absurd same.1 plain
  · exact absurd same.1.symm plain'
  · obtain ⟨-, rfl, same⟩ := same
    exact ⟨shortEscapes_told _ member _ member' rfl, same⟩
  · exact absurd same.2.1 (shortEscapes_ne _ member)
  · exact absurd same.1.symm plain'
  · exact absurd same.2.1.symm (shortEscapes_ne _ member')
  · obtain ⟨-, -, -, -, high, low, same⟩ := same
    have high := digitChar_told _ (by omega) _ (by omega) high
    have low := digitChar_told _ (by omega) _ (by omega) low
    exact ⟨Char.toNat_inj.mp (by omega), same⟩

theorem escape_ne_quote {c : Char} {x y : List Char} : escape c ++ x ≠ '"' :: y := by
  intro same
  have opening : "\\u00".toList = ['\\', 'u', '0', '0'] := rfl
  obtain ⟨written, quote, -⟩ | ⟨letter, written, -⟩ | ⟨written, -⟩ := escape_cases c <;>
    simp only [written, opening, List.cons_append, List.cons.injEq] at same
  · exact quote same.1
  · exact absurd same.1 (by decide)
  · exact absurd same.1 (by decide)

theorem escaped_append_inj {s t r r' : List Char}
    (same : s.flatMap escape ++ '"' :: r = t.flatMap escape ++ '"' :: r') : s = t ∧ r = r' := by
  induction s generalizing t with
  | nil =>
      cases t with
      | nil => exact ⟨rfl, (List.cons.inj same).2⟩
      | cons d t =>
          rw [List.flatMap_cons, List.append_assoc] at same
          exact absurd same.symm escape_ne_quote
  | cons c s ih =>
      cases t with
      | nil =>
          rw [List.flatMap_cons, List.append_assoc] at same
          exact absurd same escape_ne_quote
      | cons d t =>
          simp only [List.flatMap_cons, List.append_assoc] at same
          obtain ⟨rfl, tails⟩ := escape_append_inj same
          obtain ⟨rfl, rest⟩ := ih tails
          exact ⟨rfl, rest⟩

theorem quoted_append_inj {s t : String} {r r' : List Char}
    (same : quoted s ++ r = quoted t ++ r') : s = t ∧ r = r' := by
  simp only [quoted, List.cons_append, List.append_assoc, List.nil_append,
    List.cons.injEq, true_and] at same
  obtain ⟨text, rest⟩ := escaped_append_inj same
  exact ⟨String.toList_injective text, rest⟩

/-! Words and numbers: their texts run up to what ends them. -/

def atom : Loaded → Bool
  | .str _ | .list _ | .dict _ => false
  | .null | .bool _ | .int _ | .float _ | .infinity _ | .nan => true

/-- A character of a number. -/
def numeric (c : Char) : Bool := c.isDigit || ['-', '+', '.', 'e'].contains c

/-- A character that structures a text. -/
def isMark (c : Char) : Bool := [',', ']', '}', '"', '[', '{'].contains c

def Atomic (text : List Char) : Prop := text ≠ [] ∧ text.all (fun c => !isMark c) = true

instance {text : List Char} : Decidable (Atomic text) := inferInstanceAs (Decidable (_ ∧ _))

theorem atomic_of_numeric {text : List Char} (some_char : text ≠ [])
    (all_numeric : ∀ c ∈ text, numeric c = true) : Atomic text := by
  refine ⟨some_char, List.all_eq_true.mpr fun c member => ?_⟩
  have is_numeric := all_numeric c member
  by_contra mark
  simp only [isMark, List.contains_eq_mem, Bool.not_eq_true, Bool.not_eq_false', List.mem_cons,
    List.not_mem_nil, or_false, decide_eq_true_eq] at mark
  obtain rfl | rfl | rfl | rfl | rfl | rfl := mark <;> cases is_numeric

theorem int_numeric {n : Int} : ∀ c ∈ (toString n).toList, c.isDigit = true ∨ c = '-' := by
  intro c member
  have digits : ∀ {m : Nat}, c ∈ m.repr.toList → c.isDigit = true := fun inside =>
    Nat.isDigit_of_mem_toDigits (by decide) (by decide) (Nat.toList_repr ▸ inside)
  rw [Int.toString_eq_repr, Int.repr_eq_if] at member
  split at member
  · exact .inl (digits member)
  · rw [String.toList_append, List.mem_append] at member
    obtain sign | inside := member
    · exact .inr (List.mem_singleton.mp sign)
    · exact .inl (digits inside)

theorem int_ne_nil {n : Int} : (toString n).toList ≠ [] := by
  rw [Int.toString_eq_repr, Int.repr_eq_if]
  split <;> simp

variable {floats : FloatText}

def word : Loaded → Option String
  | .null => some "null"
  | .bool value => some (if value then "true" else "false")
  | .infinity negative => some (if negative then "-Infinity" else "Infinity")
  | .nan => some "NaN"
  | .int _ | .float _ | .str _ | .list _ | .dict _ => none

theorem atom_cases {value : Loaded} (is_atom : value.atom = true) :
    (∃ text, value.word = some text) ∨ (∃ n, value = .int n) ∨ ∃ q, value = .float q := by
  cases value with
  | null | nan | bool _ | infinity _ => exact .inl ⟨_, rfl⟩
  | int n => exact .inr (.inl ⟨n, rfl⟩)
  | float q => exact .inr (.inr ⟨q, rfl⟩)
  | str _ | list _ | dict _ => cases is_atom

/-- A word is written as it is, shows where it ends, and has a character that no number has. -/
theorem word_written {value : Loaded} {text : String} (is_word : value.word = some text) :
    written floats value = text.toList ∧ Atomic text.toList ∧
      text.toList.all numeric = false := by
  cases value with
  | null | nan =>
      cases is_word
      exact ⟨by simp only [written], by decide, by decide⟩
  | bool value | infinity value =>
      cases value <;> cases is_word
      all_goals exact ⟨by simp [written], by decide, by decide⟩
  | int _ | float _ | str _ | list _ | dict _ => cases is_word

theorem word_inj {value other : Loaded} {text : String} (is_word : value.word = some text)
    (is_word' : other.word = some text) : value = other := by
  have same := is_word.trans is_word'.symm
  cases value with
  | null | nan => cases other with
    | bool value | infinity value => cases value <;> simp [word] at same
    | null | nan => simp [word] at same ⊢
    | int _ | float _ | str _ | list _ | dict _ => cases is_word'
  | bool value | infinity value => cases other with
    | bool other | infinity other => cases value <;> cases other <;> simp [word] at same ⊢
    | null | nan => cases value <;> simp [word] at same
    | int _ | float _ | str _ | list _ | dict _ => cases is_word'
  | int _ | float _ | str _ | list _ | dict _ => cases is_word

theorem int_written {n : Int} : ∀ c ∈ written floats (.int n),
    numeric c = true ∧ c ≠ '.' ∧ c ≠ 'e' := by
  simp only [written]
  intro c member
  obtain digit | rfl := int_numeric c member
  · refine ⟨by simp [numeric, digit], ?_, ?_⟩ <;> (rintro rfl; cases digit)
  · exact ⟨rfl, by decide, by decide⟩

theorem float_written {q : ℚ} : (∀ c ∈ written floats (.float q), numeric c = true) ∧
    ∃ c ∈ written floats (.float q), c = '.' ∨ c = 'e' := by
  simp only [written]
  refine ⟨fun c member => ?_, floats.marked q⟩
  obtain digit | sign := floats.numeric q c member
  · simp [numeric, digit]
  · simp [numeric, sign]

theorem written_atomic {value : Loaded} (is_atom : value.atom = true) :
    Atomic (written floats value) := by
  obtain ⟨text, is_word⟩ | ⟨n, rfl⟩ | ⟨q, rfl⟩ := atom_cases is_atom
  · obtain ⟨same, atomic, -⟩ := @word_written floats _ _ is_word
    rwa [same]
  · refine atomic_of_numeric ?_ fun c member => (int_written c member).1
    simp only [written]
    exact int_ne_nil
  · obtain ⟨numbers, c, member, -⟩ := @float_written floats q
    exact atomic_of_numeric (List.ne_nil_of_mem member) numbers

/-- Words and numbers are told by their texts. -/
theorem written_atom_inj {value other : Loaded} (is_atom : value.atom = true)
    (is_atom' : other.atom = true) (same : written floats value = written floats other) :
    value = other := by
  have no_number : ∀ {word number : Loaded} {text : String}, word.word = some text →
      (∀ c ∈ written floats number, numeric c = true) →
      written floats word ≠ written floats number := by
    intro word number text is_word numbers same
    obtain ⟨written_word, -, marked⟩ := @word_written floats _ _ is_word
    rw [← written_word, same, List.all_eq_true.mpr numbers] at marked
    cases marked
  have ints : ∀ {n : Int}, ∀ c ∈ written floats (.int n), numeric c = true :=
    fun c member => (int_written c member).1
  have apart : ∀ {n : Int} {q : ℚ}, written floats (.int n) ≠ written floats (.float q) := by
    intro n q same
    obtain ⟨-, c, member, mark⟩ := @float_written floats q
    obtain ⟨-, no_point, no_exponent⟩ := int_written c (same ▸ member)
    exact mark.elim no_point no_exponent
  obtain ⟨text, is_word⟩ | ⟨n, rfl⟩ | ⟨q, rfl⟩ := atom_cases is_atom <;>
    obtain ⟨text', is_word'⟩ | ⟨n', rfl⟩ | ⟨q', rfl⟩ := atom_cases is_atom'
  · have texts := (@word_written floats _ _ is_word).1.symm.trans
      (same.trans (word_written is_word').1)
    obtain rfl := String.toList_injective texts
    exact word_inj is_word is_word'
  · exact absurd same (no_number is_word ints)
  · exact absurd same (no_number is_word float_written.1)
  · exact absurd same.symm (no_number is_word' ints)
  · simp only [written, Int.toString_eq_repr] at same
    rw [Int.repr_injective (String.toList_injective same)]
  · exact absurd same apart
  · exact absurd same.symm (no_number is_word' float_written.1)
  · exact absurd same.symm apart
  · simp only [written] at same
    rw [floats.injective same]

/-! Lists and dictionaries: each of their values is followed by a mark. -/

theorem Atomic.plain {text : List Char} (atomic : Atomic text) : Plain text := by
  intro c member
  have no_mark := List.all_eq_true.mp atomic.2 c member
  refine ⟨?_, ?_, ?_⟩ <;> (rintro rfl; cases no_mark)

theorem Atomic.append_ne {text r s : List Char} {c : Char} (atomic : Atomic text)
    (mark : isMark c = true) : text ++ r ≠ c :: s := by
  intro same
  cases text with
  | nil => exact atomic.1 rfl
  | cons d text =>
      obtain ⟨rfl, -⟩ := List.cons.inj same
      have no_mark := List.all_eq_true.mp atomic.2 d List.mem_cons_self
      rw [mark] at no_mark
      cases no_mark

/-- The parts that follow others, each with its comma. -/
def tails (parts : List (List Char)) : List Char := parts.flatMap fun part => ',' :: part

theorem tails_eq {parts : List (List Char)} (some_part : parts ≠ []) :
    ',' :: [','].intercalate parts = tails parts := by
  cases parts with
  | nil => exact absurd rfl some_part
  | cons part parts =>
      induction parts generalizing part with
      | nil => simp [tails, List.intercalate]
      | cons next parts ih =>
          have joined := ih next (List.cons_ne_nil _ _)
          have step : [','].intercalate (part :: next :: parts) =
              part ++ ',' :: [','].intercalate (next :: parts) := by
            simp [List.intercalate]
          rw [step, joined]
          simp [tails]

theorem ends_tails {parts : List (List Char)} {close : Char} {rest : List Char}
    (closes : close = ']' ∨ close = '}') : Ends (tails parts ++ close :: rest) := by
  cases parts with
  | nil =>
      intro c first
      cases first
      exact .inr closes
  | cons part parts =>
      intro c first
      cases first
      exact .inl rfl

/-- The joined parts are equal when they are with a comma ahead. -/
theorem tails_of_intercalate {parts others : List (List Char)} {close : Char} {r r' : List Char}
    (starts : ∀ part ∈ parts, ∀ x y, part ++ x ≠ close :: y)
    (starts' : ∀ part ∈ others, ∀ x y, part ++ x ≠ close :: y)
    (same : [','].intercalate parts ++ close :: r = [','].intercalate others ++ close :: r') :
    tails parts ++ close :: r = tails others ++ close :: r' := by
  have opens : ∀ {part : List Char} {parts : List (List Char)} {x : List Char},
      ∃ y, [','].intercalate (part :: parts) ++ x = part ++ y := by
    intro part parts x
    cases parts with
    | nil => exact ⟨x, by simp [List.intercalate]⟩
    | cons next parts => exact ⟨',' :: [','].intercalate (next :: parts) ++ x, by
        simp [List.intercalate]⟩
  cases parts with
  | nil => cases others with
    | nil => exact same
    | cons other others =>
        obtain ⟨y, start⟩ := @opens other others (close :: r')
        rw [start] at same
        exact absurd same.symm (starts' other List.mem_cons_self _ _)
  | cons part parts => cases others with
    | nil =>
        obtain ⟨y, start⟩ := @opens part parts (close :: r)
        rw [start] at same
        exact absurd same (starts part List.mem_cons_self _ _)
    | cons other others =>
        rw [← tails_eq (List.cons_ne_nil _ _), ← tails_eq (List.cons_ne_nil _ _), List.cons_append,
          List.cons_append, same]

theorem written_ne_bracket {value : Loaded} {x y : List Char} :
    written floats value ++ x ≠ ']' :: y := by
  cases value with
  | str _ | list _ | dict _ =>
      simp only [written, quoted]
      intro same
      cases same
  | null | bool _ | int _ | float _ | infinity _ | nan =>
      exact (written_atomic rfl).append_ne rfl

theorem writtenItems_start {items : List Loaded} :
    ∀ part ∈ writtenItems floats items, ∀ x y, part ++ x ≠ ']' :: y := by
  intro part member x y
  induction items with
  | nil =>
      simp only [writtenItems] at member
      cases member
  | cons item items ih =>
      simp only [writtenItems] at member
      obtain rfl | later := List.mem_cons.mp member
      · exact written_ne_bracket
      · exact ih later

theorem writtenMembers_start {entries : List (String × Loaded)} :
    ∀ part ∈ writtenMembers floats entries, ∀ x y, part ++ x ≠ '}' :: y := by
  intro part member x y
  induction entries with
  | nil =>
      simp only [writtenMembers] at member
      cases member
  | cons entry entries ih =>
      simp only [writtenMembers] at member
      obtain rfl | later := List.mem_cons.mp member
      · intro same
        simp only [memberText, quoted] at same
        cases same
      · exact ih later

theorem atom_append_ne {value other : Loaded} {x y : List Char} (is_atom : value.atom = true)
    (no_atom : other.atom = false) : written floats value ++ x ≠ written floats other ++ y := by
  cases other with
  | str _ | list _ | dict _ =>
      simp only [written, quoted, List.cons_append]
      exact (written_atomic is_atom).append_ne rfl
  | null | bool _ | int _ | float _ | infinity _ | nan => cases no_atom

mutual

/-- A value and what follows it are told from their text. -/
theorem written_append_inj {r r' : List Char} (ends : Ends r) (ends' : Ends r') :
    ∀ value other : Loaded, written floats value ++ r = written floats other ++ r' →
      value = other ∧ r = r'
  | value, other, same => by
      cases is_atom : value.atom <;> cases is_atom' : other.atom
      · cases value <;> cases other <;> simp only [atom, Bool.true_eq_false] at is_atom is_atom' <;>
          simp only [written, quoted, List.cons_append, List.append_assoc, List.cons.injEq,
            Char.reduceEq, false_and, true_and] at same
        case str.str s t =>
          have texts : quoted s ++ r = quoted t ++ r' := by
            simpa [quoted] using same
          obtain ⟨rfl, rest⟩ := quoted_append_inj texts
          exact ⟨rfl, rest⟩
        case list.list items others =>
          obtain ⟨rfl, rest⟩ := tails_items_inj items others
            (tails_of_intercalate writtenItems_start writtenItems_start same)
          exact ⟨rfl, rest⟩
        case dict.dict entries others =>
          obtain ⟨rfl, rest⟩ := tails_members_inj entries others
            (tails_of_intercalate writtenMembers_start writtenMembers_start same)
          exact ⟨rfl, rest⟩
      · exact absurd same.symm (atom_append_ne is_atom' is_atom)
      · exact absurd same (atom_append_ne is_atom is_atom')
      · obtain ⟨texts, rest⟩ := (written_atomic is_atom).plain.append_inj
          (written_atomic is_atom').plain ends ends' same
        exact ⟨written_atom_inj is_atom is_atom' texts, rest⟩

theorem tails_items_inj {r r' : List Char} : ∀ items others : List Loaded,
    tails (writtenItems floats items) ++ ']' :: r = tails (writtenItems floats others) ++ ']' :: r' →
      items = others ∧ r = r'
  | [], [], same => ⟨rfl, (List.cons.inj same).2⟩
  | [], other :: others, same => by
      simp only [writtenItems] at same
      cases same
  | item :: items, [], same => by
      simp only [writtenItems] at same
      cases same
  | item :: items, other :: others, same => by
      simp only [writtenItems, tails, List.flatMap_cons, List.cons_append, List.append_assoc,
        List.cons.injEq, true_and] at same
      obtain ⟨rfl, later⟩ := written_append_inj (ends_tails (.inl rfl)) (ends_tails (.inl rfl))
        item other same
      obtain ⟨rfl, rest⟩ := tails_items_inj items others later
      exact ⟨rfl, rest⟩

theorem tails_members_inj {r r' : List Char} : ∀ entries others : List (String × Loaded),
    tails (writtenMembers floats entries) ++ '}' :: r =
        tails (writtenMembers floats others) ++ '}' :: r' →
      entries = others ∧ r = r'
  | [], [], same => ⟨rfl, (List.cons.inj same).2⟩
  | [], (key, value) :: others, same => by
      simp only [writtenMembers] at same
      cases same
  | (key, value) :: entries, [], same => by
      simp only [writtenMembers] at same
      cases same
  | (key, value) :: entries, (key', value') :: others, same => by
      simp only [writtenMembers, memberText, tails, List.flatMap_cons, List.cons_append,
        List.append_assoc, List.cons.injEq, true_and] at same
      obtain ⟨rfl, colon⟩ := quoted_append_inj same
      obtain ⟨rfl, later⟩ := written_append_inj (ends_tails (.inr rfl)) (ends_tails (.inr rfl))
        value value' (List.cons.inj colon).2
      obtain ⟨rfl, rest⟩ := tails_members_inj entries others later
      exact ⟨rfl, rest⟩

end

theorem ends_nil : Ends [] := by
  intro c first
  cases first

/-- A text is the canonical one of values that are equal up to the order of their keys. -/
theorem canonicalJson_inj {value other : Loaded} :
    canonicalJson floats value = canonicalJson floats other ↔ value.sortKeys = other.sortKeys := by
  refine ⟨fun same => ?_, congrArg (written floats)⟩
  have texts : written floats value.sortKeys ++ [] = written floats other.sortKeys ++ [] := by
    rwa [List.append_nil, List.append_nil]
  exact (written_append_inj ends_nil ends_nil _ _ texts).1

/-- Lists that have the same keys in the same order, each once. -/
theorem eq_of_perm_of_keys {entries others : List (String × Loaded)}
    (keys : entries.map Prod.fst = others.map Prod.fst) (distinct : (entries.map Prod.fst).Nodup)
    (perm : entries.Perm others) : entries = others := by
  induction entries generalizing others with
  | nil => exact perm.nil_eq
  | cons entry entries ih => cases others with
    | nil => exact absurd perm.symm.nil_eq (List.cons_ne_nil _ _).symm
    | cons other others =>
        obtain ⟨key, value⟩ := entry
        obtain ⟨key', value'⟩ := other
        simp only [List.map_cons, List.cons.injEq] at keys
        obtain ⟨rfl, later_keys⟩ := keys
        obtain ⟨fresh, distinct⟩ := List.nodup_cons.mp distinct
        obtain same | later := List.mem_cons.mp (perm.mem_iff.mp List.mem_cons_self)
        · cases same
          rw [ih later_keys distinct perm.cons_inv]
        · have member := List.mem_map_of_mem (f := Prod.fst) later
          rw [← later_keys] at member
          exact absurd member fresh

/-- An object of texts, some of which may be missing. -/
def texts (members : List (String × Option String)) : Loaded :=
  .dict (members.map fun member => (member.1, member.2.elim .null .str))

theorem sortKeysEntries_texts {members : List (String × Option String)} :
    sortKeysEntries (members.map fun member => (member.1, member.2.elim .null .str)) =
      members.map fun member => (member.1, member.2.elim .null .str) := by
  induction members with
  | nil => rfl
  | cons member members ih =>
      obtain ⟨key, text⟩ := member
      rw [List.map_cons, sortKeysEntries, ih]
      cases text <;> rfl

/-- Objects of texts with the same keys are told by their canonical texts. -/
theorem texts_inj {members others : List (String × Option String)}
    (keys : members.map Prod.fst = others.map Prod.fst) (distinct : (members.map Prod.fst).Nodup)
    (same : canonicalJson floats (texts members) = canonicalJson floats (texts others)) :
    members = others := by
  have sorted := canonicalJson_inj.mp same
  simp only [texts, sortKeys, sortKeysEntries_texts, Loaded.dict.injEq] at sorted
  have perm := ((List.perm_insertionSort byKey _).symm.trans (List.Perm.of_eq sorted)).trans
    (List.perm_insertionSort byKey _)
  have text_keys : ∀ members : List (String × Option String),
      (members.map fun member => (member.1, member.2.elim Loaded.null .str)).map Prod.fst =
        members.map Prod.fst := by
    intro members
    simp [Function.comp_def]
  have entries := eq_of_perm_of_keys (by rw [text_keys, text_keys, keys])
    (by rwa [text_keys]) perm
  refine List.map_injective_iff.mpr ?_ entries
  rintro ⟨key, text⟩ ⟨key', text'⟩ same
  obtain ⟨rfl, values⟩ := Prod.mk.inj same
  cases text <;> cases text' <;> simp_all

end Loaded
end MapGo
