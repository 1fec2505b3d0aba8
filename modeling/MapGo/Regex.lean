import MapGo.Text

/-! Backtracking regular expressions. The matches at a place come in the order in which they are
tried, so the first of them is the match; loops give up iterations that consume nothing. -/

inductive Regex where
  | empty
  | char (accepts : Char → Bool)
  | seq (first next : Regex)
  | alt (first other : Regex)
  | star (greedy : Bool) (body : Regex)
  | group (index : Nat) (body : Regex)
  | start
  | finish
  | ahead (body : Regex)

namespace Regex

/-- A place in a text: what stands before it, the nearest first, what comes, and the groups. -/
structure Place where
  before : List Char
  after : List Char
  groups : List (Nat × List Char) := []

/-- What stands between two places of a text. -/
def between (p q : Place) : List Char := p.after.take (p.after.length - q.after.length)

def iterate (greedy : Bool) (step : Place → List Place) : Nat → Place → List Place
  | 0, p => [p]
  | fuel + 1, p =>
      let more := (step p).flatMap fun q =>
        if q.after.length < p.after.length then iterate greedy step fuel q else []
      if greedy then more ++ [p] else p :: more

/-- The matches from a place, those tried first before the others. -/
def run : Regex → Place → List Place
  | .empty, p => [p]
  | .char accepts, p =>
      match p.after with
      | [] => []
      | c :: rest =>
          if accepts c then [{ p with before := c :: p.before, after := rest }] else []
  | .seq first next, p => (first.run p).flatMap next.run
  | .alt first other, p => first.run p ++ other.run p
  | .star greedy body, p => iterate greedy body.run p.after.length p
  | .group index body, p =>
      (body.run p).map fun q => { q with groups := (index, between p q) :: q.groups }
  | .start, p => if p.before.isEmpty then [p] else []
  | .finish, p => if p.after.isEmpty || p.after == ['\n'] then [p] else []
  | .ahead body, p => if (body.run p).isEmpty then [] else [p]

/-- The zeros of the decimal digits of Unicode; their nine others follow each. -/
def decimalZeros : List Nat :=
  [0x30, 0x660, 0x6F0, 0x7C0, 0x966, 0x9E6, 0xA66, 0xAE6, 0xB66, 0xBE6, 0xC66, 0xCE6, 0xD66,
    0xDE6, 0xE50, 0xED0, 0xF20, 0x1040, 0x1090, 0x17E0, 0x1810, 0x1946, 0x19D0, 0x1A80, 0x1A90,
    0x1B50, 0x1BB0, 0x1C40, 0x1C50, 0xA620, 0xA8D0, 0xA900, 0xA9D0, 0xA9F0, 0xAA50, 0xABF0,
    0xFF10, 0x104A0, 0x10D30, 0x11066, 0x110F0, 0x11136, 0x111D0, 0x112F0, 0x11450, 0x114D0,
    0x11650, 0x116C0, 0x11730, 0x118E0, 0x11950, 0x11C50, 0x11D50, 0x11DA0, 0x11F50, 0x16A60,
    0x16AC0, 0x16B50, 0x1D7CE, 0x1D7D8, 0x1D7E2, 0x1D7EC, 0x1D7F6, 0x1E140, 0x1E2F0, 0x1E4F0,
    0x1E950, 0x1FBF0]

/-- The value of a decimal digit. -/
def digitValue (c : Char) : Option Nat :=
  (decimalZeros.find? fun least => least ≤ c.toNat && c.toNat < least + 10).map (c.toNat - ·)

/-- `int(text)` of a text of decimal digits. -/
def natural (digits : List Char) : Nat :=
  digits.foldl (fun n c => 10 * n + (digitValue c).getD 0) 0

section notions
variable (r : Regex)

def opt : Regex := .alt r .empty

def many : Regex := .star true r

def plus : Regex := .seq r (.star true r)

/-- `r+?` -/
def lazyPlus : Regex := .seq r (.star false r)

/-- `r{0,n}` -/
def upTo : Nat → Regex
  | 0 => .empty
  | n + 1 => opt (.seq r (upTo n))

def concat : List Regex → Regex
  | [] => .empty
  | [r] => r
  | r :: rest => .seq r (concat rest)

/-- The alternatives, of which there is at least one. -/
def choice (first : Regex) : List Regex → Regex
  | [] => first
  | other :: rest => .alt first (choice other rest)

def oneOf (chars : String) : Regex := .char fun c => chars.toList.contains c

def noneOf (chars : String) : Regex := .char fun c => !chars.toList.contains c

def word (text : String) : Regex := concat (text.toList.map fun c => .char (· == c))

def words (first : String) (others : List String) : Regex :=
  choice (word first) (others.map word)

end notions

/-- `.`: a newline ends the line. -/
def dot : Regex := .char (· ≠ '\n')

def space : Regex := .char Text.isSpace

/-- `\d` -/
def digit : Regex := .char fun c => (digitValue c).isSome

/-- A match in a text: what was skipped before it, and its end. -/
structure Found where
  skipped : List Char
  finish : Place

/-- The leftmost match in what comes after a place. -/
def find (r : Regex) : List Char → List Char → Option Found
  | before, [] => ((r.run ⟨before, [], []⟩).head?).map fun q => ⟨[], q⟩
  | before, c :: rest =>
      match (r.run ⟨before, c :: rest, []⟩).head? with
      | some q => some ⟨[], q⟩
      | none => (r.find (c :: before) rest).map fun found =>
          { found with skipped := c :: found.skipped }

/-- `re.search` -/
def search (r : Regex) (text : List Char) : Option Place := (r.find [] text).map Found.finish

/-- `re.fullmatch` -/
def fullmatch (r : Regex) (text : List Char) : Bool :=
  (r.run ⟨[], text, []⟩).any fun q => q.after.isEmpty

/-- What a group of the match holds: the text of its last pass. -/
def Place.group (p : Place) (index : Nat) : Option (List Char) := p.groups.lookup index

/-- The text after a place with every match replaced, for an expression that matches no empty
text. -/
def subFrom (r : Regex) (replacement : List Char) : Nat → List Char → List Char → List Char
  | 0, _, after => after
  | fuel + 1, before, after =>
      match r.find before after with
      | none => after
      | some found =>
          found.skipped ++ replacement ++
            r.subFrom replacement fuel found.finish.before found.finish.after

/-- `re.sub` -/
def sub (r : Regex) (replacement : List Char) (text : List Char) : List Char :=
  r.subFrom replacement text.length [] text

def splitFrom (r : Regex) : Nat → List Char → List Char → List (List Char)
  | 0, _, after => [after]
  | fuel + 1, before, after =>
      match r.find before after with
      | none => [after]
      | some found =>
          found.skipped :: r.splitFrom fuel found.finish.before found.finish.after

/-- `re.split`, for an expression without groups that matches no empty text. -/
def split (r : Regex) (text : List Char) : List (List Char) := r.splitFrom text.length [] text

/-! What a match has read, and what its groups hold. -/

open Computability

/-- The texts that an expression reads, whatever stands around them. -/
def language : Regex → Language Char
  | .char accepts => {text : List Char | ∃ c, accepts c = true ∧ text = [c]}
  | .seq first next => first.language * next.language
  | .alt first other => first.language + other.language
  | .star _ body => body.language∗
  | .group _ body => body.language
  | .empty | .start | .finish | .ahead _ => 1

/-- The expressions of the groups; those of a lookahead are given up. -/
def bodies : Regex → List (Nat × Regex)
  | .seq first next => first.bodies ++ next.bodies
  | .alt first other => first.bodies ++ other.bodies
  | .star _ body => body.bodies
  | .group index body => (index, body) :: body.bodies
  | .char _ | .empty | .start | .finish | .ahead _ => []

/-- From one place of a text to another, over a text of the language. -/
def Reads (l : Language Char) (p q : Place) : Prop :=
  ∃ text ∈ l, p.after = text ++ q.after ∧ q.before = text.reverse ++ p.before

/-- What the groups hold comes from before, or from one of the expressions. -/
def Captures (bodies : List (Nat × Regex)) (p q : Place) : Prop :=
  ∀ entry ∈ q.groups, entry ∈ p.groups ∨
    ∃ body, (entry.1, body) ∈ bodies ∧ entry.2 ∈ body.language

section soundness
variable {r : Regex} {p q : Place} {l m : Language Char}

theorem Reads.refl (nil : [] ∈ l) (p : Place) : Reads l p p := ⟨[], nil, rfl, rfl⟩

theorem Reads.trans {middle : Place} (first : Reads l p middle) (next : Reads m middle q) :
    Reads (l * m) p q := by
  obtain ⟨text, inside, after, before⟩ := first
  obtain ⟨more, insideMore, afterMore, beforeMore⟩ := next
  refine ⟨text ++ more, Language.append_mem_mul inside insideMore, ?_, ?_⟩
  · rw [after, afterMore, List.append_assoc]
  · rw [beforeMore, before, List.reverse_append, List.append_assoc]

theorem Reads.mono (reads : Reads l p q) (le : ∀ text ∈ l, text ∈ m) : Reads m p q := by
  obtain ⟨text, inside, rest⟩ := reads
  exact ⟨text, le text inside, rest⟩

theorem Reads.between_mem (reads : Reads l p q) : between p q ∈ l := by
  obtain ⟨text, inside, after, -⟩ := reads
  have length : p.after.length - q.after.length = text.length := by
    rw [after, List.length_append, Nat.add_sub_cancel]
  rw [between, length, after, List.take_left]
  exact inside

/-- A relation that iterations keep holds of the loop. -/
theorem iterate_induction {greedy : Bool} {step : Place → List Place} {P : Place → Place → Prop}
    (refl : ∀ p, P p p) (trans : ∀ p middle q, middle ∈ step p → P middle q → P p q)
    {fuel : Nat} (member : q ∈ iterate greedy step fuel p) : P p q := by
  induction fuel generalizing p with
  | zero =>
      obtain rfl := List.mem_singleton.mp member
      exact refl q
  | succ fuel ih =>
      have split : q = p ∨ ∃ middle ∈ step p, q ∈ iterate greedy step fuel middle := by
        rw [iterate] at member
        have either : q = p ∨ q ∈ (step p).flatMap fun middle =>
            if middle.after.length < p.after.length then iterate greedy step fuel middle else [] := by
          cases greedy with
          | true => simpa [or_comm] using member
          | false => simpa using member
        refine either.imp_right ?_
        intro later
        obtain ⟨middle, inside, last⟩ := List.mem_flatMap.mp later
        split at last
        · exact ⟨middle, inside, last⟩
        · exact absurd last List.not_mem_nil
      obtain rfl | ⟨middle, inside, last⟩ := split
      · exact refl q
      · exact trans p middle q inside (ih last)

theorem reads_of_run (member : q ∈ r.run p) : Reads r.language p q := by
  induction r generalizing p q with
  | empty =>
      obtain rfl := List.mem_singleton.mp member
      exact .refl Language.nil_mem_one q
  | char accepts =>
      rw [run] at member
      split at member
      · exact absurd member List.not_mem_nil
      · rename_i c rest after
        split at member
        · rename_i accepted
          obtain rfl := List.mem_singleton.mp member
          exact ⟨[c], ⟨c, accepted, rfl⟩, after, rfl⟩
        · exact absurd member List.not_mem_nil
  | seq first next ihFirst ihNext =>
      obtain ⟨middle, inside, last⟩ := List.mem_flatMap.mp member
      exact (ihFirst inside).trans (ihNext last)
  | alt first other ihFirst ihOther =>
      obtain inside | inside := List.mem_append.mp member
      · exact (ihFirst inside).mono fun _ => .inl
      · exact (ihOther inside).mono fun _ => .inr
  | star greedy body ih =>
      refine iterate_induction (.refl (Language.nil_mem_kstar _)) ?_ member
      intro p middle q inside later
      have le : body.language * body.language∗ ≤ body.language∗ := mul_kstar_le_kstar
      exact ((ih inside).trans later).mono fun _ inside => le inside
  | group index body ih =>
      obtain ⟨last, inside, rfl⟩ := List.mem_map.mp member
      have reads := ih inside
      exact reads
  | start =>
      rw [run] at member
      split at member
      · obtain rfl := List.mem_singleton.mp member
        exact .refl Language.nil_mem_one q
      · exact absurd member List.not_mem_nil
  | finish =>
      rw [run] at member
      split at member
      · obtain rfl := List.mem_singleton.mp member
        exact .refl Language.nil_mem_one q
      · exact absurd member List.not_mem_nil
  | ahead body =>
      rw [run] at member
      split at member
      · exact absurd member List.not_mem_nil
      · obtain rfl := List.mem_singleton.mp member
        exact .refl Language.nil_mem_one q

theorem Captures.refl {bodies : List (Nat × Regex)} (p : Place) : Captures bodies p p :=
  fun _ member => .inl member

theorem Captures.trans {bodies : List (Nat × Regex)} {middle : Place}
    (first : Captures bodies p middle) (next : Captures bodies middle q) : Captures bodies p q := by
  intro entry member
  obtain earlier | own := next entry member
  · exact first entry earlier
  · exact .inr own

theorem Captures.mono {bodies more : List (Nat × Regex)} (captures : Captures bodies p q)
    (le : bodies ⊆ more) : Captures more p q := by
  intro entry member
  obtain earlier | ⟨body, own, spelled⟩ := captures entry member
  · exact .inl earlier
  · exact .inr ⟨body, le own, spelled⟩

theorem captures_of_run (member : q ∈ r.run p) : Captures r.bodies p q := by
  induction r generalizing p q with
  | char accepts =>
      rw [run] at member
      split at member
      · exact absurd member List.not_mem_nil
      · split at member
        · obtain rfl := List.mem_singleton.mp member
          exact fun _ => .inl
        · exact absurd member List.not_mem_nil
  | seq first next ihFirst ihNext =>
      obtain ⟨middle, inside, last⟩ := List.mem_flatMap.mp member
      exact ((ihFirst inside).mono (List.subset_append_left ..)).trans
        ((ihNext last).mono (List.subset_append_right ..))
  | alt first other ihFirst ihOther =>
      obtain inside | inside := List.mem_append.mp member
      · exact (ihFirst inside).mono (List.subset_append_left ..)
      · exact (ihOther inside).mono (List.subset_append_right ..)
  | star greedy body ih =>
      refine iterate_induction Captures.refl ?_ member
      exact fun p middle q inside later => (ih inside).trans later
  | group index body ih =>
      obtain ⟨last, inside, rfl⟩ := List.mem_map.mp member
      intro entry captured
      obtain rfl | earlier := List.mem_cons.mp captured
      · exact .inr ⟨body, List.mem_cons_self, (reads_of_run inside).between_mem⟩
      · exact ((ih inside).mono (List.subset_cons_self ..)) entry earlier
  | empty =>
      obtain rfl := List.mem_singleton.mp member
      exact .refl q
  | start | finish =>
      rw [run] at member
      split at member
      · obtain rfl := List.mem_singleton.mp member
        exact .refl q
      · exact absurd member List.not_mem_nil
  | ahead body =>
      rw [run] at member
      split at member
      · exact absurd member List.not_mem_nil
      · obtain rfl := List.mem_singleton.mp member
        exact .refl q

/-- A match is a run from the place where it was found. -/
theorem run_of_find {before after : List Char} {found : Found}
    (present : r.find before after = some found) :
    ∃ p, p.groups = [] ∧ p.before = found.skipped.reverse ++ before ∧
      after = found.skipped ++ p.after ∧ found.finish ∈ r.run p := by
  induction after generalizing before found with
  | nil =>
      obtain ⟨q, first, rfl⟩ := Option.map_eq_some_iff.mp present
      exact ⟨⟨before, [], []⟩, rfl, rfl, rfl, List.mem_of_mem_head? first⟩
  | cons c rest ih =>
      rw [find] at present
      split at present
      · rename_i q first
        obtain rfl := Option.some.inj present
        exact ⟨⟨before, c :: rest, []⟩, rfl, rfl, rfl, List.mem_of_mem_head? first⟩
      · obtain ⟨later, found, rfl⟩ := Option.map_eq_some_iff.mp present
        obtain ⟨p, fresh, place, after, member⟩ := ih found
        refine ⟨p, fresh, ?_, ?_, member⟩
        · simp [place]
        · simp [after]

/-- The text of a group is read by one of its expressions. -/
theorem group_language {text held : List Char} {index : Nat}
    (captured : (r.search text).bind (fun found => found.group index) = some held) :
    ∃ body, (index, body) ∈ r.bodies ∧ held ∈ body.language := by
  obtain ⟨finish, searched, lookup⟩ := Option.bind_eq_some_iff.mp captured
  obtain ⟨found, present, rfl⟩ := Option.map_eq_some_iff.mp searched
  obtain ⟨p, fresh, -, -, member⟩ := run_of_find present
  have entry : (index, held) ∈ found.finish.groups := by
    obtain ⟨newer, older, groups, -⟩ := List.lookup_eq_some_iff.mp lookup
    rw [groups]
    exact List.mem_append_right _ List.mem_cons_self
  obtain earlier | own := captures_of_run member (index, held) entry
  · rw [fresh] at earlier
    exact absurd earlier List.not_mem_nil
  · exact own

theorem length_le_of_upTo {n : Nat} {text : List Char}
    (single : ∀ text ∈ r.language, text.length ≤ 1) (member : text ∈ (upTo r n).language) :
    text.length ≤ n := by
  induction n generalizing text with
  | zero =>
      obtain rfl : text = [] := member
      exact Nat.le_refl 0
  | succ n ih =>
      obtain more | rfl := member
      · obtain ⟨first, inside, rest, later, rfl⟩ := Language.mem_mul.mp more
        have one := single first inside
        have others := ih later
        rw [List.length_append]
        omega
      · exact Nat.zero_le _

theorem length_of_digit {text : List Char} (member : text ∈ digit.language) : text.length = 1 := by
  obtain ⟨c, -, rfl⟩ := member
  rfl

end soundness

/-! Digits. -/

theorem digitValue_lt {c : Char} {value : Nat} (digit : digitValue c = some value) : value < 10 := by
  obtain ⟨least, found, rfl⟩ := Option.map_eq_some_iff.mp digit
  have inside := List.find?_some found
  simp only [Bool.and_eq_true, decide_eq_true_eq] at inside
  omega

theorem digitValue_of_ascii {c : Char} (least : 48 ≤ c.toNat) (below : c.toNat < 58) :
    digitValue c = some (c.toNat - 48) := by
  have found : (decimalZeros.find? fun least => least ≤ c.toNat && c.toNat < least + 10) =
      some 48 := by
    apply List.find?_cons_of_pos
    rw [Bool.and_eq_true, decide_eq_true_eq, decide_eq_true_eq]
    exact ⟨least, below⟩
  rw [digitValue, found]
  rfl

theorem getD_digitValue_lt (c : Char) : (digitValue c).getD 0 < 10 := by
  cases digit : digitValue c with
  | none => decide
  | some value => exact digitValue_lt digit

theorem natural_append (digits : List Char) (c : Char) :
    natural (digits ++ [c]) = 10 * natural digits + (digitValue c).getD 0 := by
  rw [natural, List.foldl_append]
  rfl

theorem natural_lt (digits : List Char) : natural digits < 10 ^ digits.length := by
  induction digits using List.reverseRecOn with
  | nil => decide
  | append_singleton digits c ih =>
      have last := getD_digitValue_lt c
      rw [natural_append, List.length_append, List.length_singleton, Nat.pow_succ]
      omega

end Regex
