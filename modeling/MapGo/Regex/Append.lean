import MapGo.Regex

/-! Matches in a text that goes on. A match that ends before the part behind is the same with and
without that part, so a text whose matches do not cross a border is split and rewritten part by
part. -/
namespace Regex

open List (Forall₂)

/-- Nothing in the expression looks at what comes behind a match. -/
def isLocal : Regex → Bool
  | .seq first next => first.isLocal && next.isLocal
  | .alt first other => first.isLocal && other.isLocal
  | .star _ body | .group _ body => body.isLocal
  | .finish | .ahead _ => false
  | .empty | .char _ | .start => true

/-- The same place with more text behind it. What stands before it matters at the start only. -/
structure Alike (more : List Char) (p q : Place) : Prop where
  after : q.after = p.after ++ more
  groups : q.groups = p.groups
  start : q.before = [] ↔ p.before = []

/-- The places with at least so much text behind them. -/
def keeping (more : List Char) (places : List Place) : List Place :=
  places.filter fun q => more.length ≤ q.after.length

/-- No match that begins in a text ends in what follows. -/
def Stays (r : Regex) (text more : List Char) : Prop :=
  ∀ first rest, first ≠ [] → first <:+ text → rest ≠ [] → rest <+: more →
    first ++ rest ∉ r.language

/-- Some place of the expression accepts the character. -/
def accepting (c : Char) : Regex → Bool
  | .char accepts => accepts c
  | .seq first next | .alt first next => first.accepting c || next.accepting c
  | .star _ body | .group _ body => body.accepting c
  | .empty | .start | .finish | .ahead _ => false

/-- No match is empty. -/
def consumes : Regex → Bool
  | .char _ => true
  | .seq first next => first.consumes || next.consumes
  | .alt first other => first.consumes && other.consumes
  | .group _ body => body.consumes
  | .star _ _ | .empty | .start | .finish | .ahead _ => false

section languages
variable {r : Regex} {text more before : List Char} {c : Char}

theorem accepting_of_mem (spelled : text ∈ r.language) (member : c ∈ text) :
    r.accepting c = true := by
  induction r generalizing text with
  | char accepts =>
      obtain ⟨only, accepted, rfl⟩ := spelled
      obtain rfl := List.mem_singleton.mp member
      exact accepted
  | seq first next ihFirst ihNext =>
      obtain ⟨left, inside, right, later, rfl⟩ := Language.mem_mul.mp spelled
      rw [accepting, Bool.or_eq_true]
      exact (List.mem_append.mp member).imp (ihFirst inside) (ihNext later)
  | alt first other ihFirst ihOther =>
      rw [accepting, Bool.or_eq_true]
      exact spelled.imp (fun inside => ihFirst inside member) fun inside => ihOther inside member
  | star greedy body ih =>
      obtain ⟨parts, rfl, inside⟩ := Language.mem_kstar.mp spelled
      obtain ⟨part, listed, member⟩ := List.mem_flatten.mp member
      exact ih (inside part listed) member
  | group index body ih => exact ih spelled member
  | empty | start | finish | ahead =>
      obtain rfl : text = [] := spelled
      exact absurd member List.not_mem_nil

theorem eq_of_mem_word {letters : String} (spelled : text ∈ (word letters).language) :
    text = letters.toList := by
  unfold word at spelled
  generalize letters.toList = chars at spelled ⊢
  induction chars generalizing text with
  | nil => exact spelled
  | cons d rest ih =>
      cases rest with
      | nil =>
          obtain ⟨c, accepted, rfl⟩ := spelled
          rw [beq_iff_eq.mp accepted]
      | cons =>
          obtain ⟨left, ⟨c, accepted, rfl⟩, right, later, rfl⟩ := Language.mem_mul.mp spelled
          rw [ih later, beq_iff_eq.mp accepted]
          rfl

theorem nil_not_mem (consuming : r.consumes = true) : [] ∉ r.language := by
  induction r with
  | char accepts =>
      rintro ⟨c, -, empty⟩
      contradiction
  | seq first next ihFirst ihNext =>
      intro spelled
      obtain ⟨left, inside, right, later, empty⟩ := Language.mem_mul.mp spelled
      obtain ⟨rfl, rfl⟩ := List.append_eq_nil_iff.mp empty
      rcases Bool.or_eq_true_iff.mp consuming with consuming | consuming
      · exact ihFirst consuming inside
      · exact ihNext consuming later
  | alt first other ihFirst ihOther =>
      obtain ⟨consumingFirst, consumingOther⟩ := Bool.and_eq_true_iff.mp consuming
      exact fun spelled => spelled.elim (ihFirst consumingFirst) (ihOther consumingOther)
  | group index body ih => exact ih consuming
  | star | empty | start | finish | ahead => contradiction

/-- A character that the expression does not accept is a border. -/
theorem stays_of_rejected (rejected : r.accepting c = false) : r.Stays text (c :: more) := by
  intro first rest _ _ occupied inside spelled
  obtain ⟨others, rfl⟩ : ∃ others, rest = c :: others := by
    cases rest with
    | nil => contradiction
    | cons head others => exact ⟨others, by rw [(List.cons_prefix_cons.mp inside).1]⟩
  have accepted := accepting_of_mem spelled (List.mem_append_right first List.mem_cons_self)
  exact absurd (rejected.symm.trans accepted) Bool.false_ne_true

theorem find_eq_none (absent : ∀ read ∈ r.language, ¬ read <:+: text) :
    r.find before text = none := by
  refine Option.eq_none_iff_forall_ne_some.mpr fun found present => ?_
  obtain ⟨p, -, -, after, member⟩ := run_of_find present
  obtain ⟨read, spelled, rest, -⟩ := reads_of_run member
  refine absent read spelled ⟨found.skipped, found.finish.after, ?_⟩
  rw [after, rest, List.append_assoc]

end languages

section alike
variable {r : Regex} {p q : Place} {more text before other : List Char} {places : List Place}
  {greedy : Bool} {step : Place → List Place}

theorem run_shrinks (member : q ∈ r.run p) : q.after.length ≤ p.after.length := by
  obtain ⟨text, -, after, -⟩ := reads_of_run member
  rw [after, List.length_append]
  omega

theorem iterate_shrinks (shrinks : ∀ p q, q ∈ step p → q.after.length ≤ p.after.length) {fuel : Nat}
    (member : q ∈ iterate greedy step fuel p) : q.after.length ≤ p.after.length :=
  iterate_induction (P := fun p q => q.after.length ≤ p.after.length) (fun _ => Nat.le_refl _)
    (fun p middle _ inside later => later.trans (shrinks p middle inside)) member

theorem keeping_append (first next : List Place) :
    keeping more (first ++ next) = keeping more first ++ keeping more next :=
  List.filter_append ..

theorem keeping_eq_self (enough : ∀ q ∈ places, more.length ≤ q.after.length) :
    keeping more places = places :=
  List.filter_eq_self.mpr fun q member => decide_eq_true (enough q member)

theorem keeping_eq_nil (short : ∀ q ∈ places, q.after.length < more.length) :
    keeping more places = [] := by
  refine List.filter_eq_nil_iff.mpr fun q member => ?_
  rw [decide_eq_true_eq, Nat.not_le]
  exact short q member

theorem Alike.single (alike : Alike more p q) : Forall₂ (Alike more) [p] (keeping more [q]) := by
  rw [keeping_eq_self]
  · exact .cons alike .nil
  · intro last member
    rw [List.mem_singleton.mp member, alike.after, List.length_append]
    omega

theorem keeping_flatMap {f : Place → List Place}
    (shrinks : ∀ q ∈ places, ∀ last ∈ f q, last.after.length ≤ q.after.length) :
    keeping more (places.flatMap f) = (keeping more places).flatMap fun q => keeping more (f q) := by
  induction places with
  | nil => rfl
  | cons q places ih =>
      have rest := ih fun q member => shrinks q (List.mem_cons_of_mem _ member)
      rw [List.flatMap_cons, keeping_append, rest]
      change _ = (keeping more ([q] ++ places)).flatMap _
      rw [keeping_append, List.flatMap_append]
      congr 1
      by_cases enough : more.length ≤ q.after.length
      · have kept : keeping more [q] = [q] := keeping_eq_self (by simpa using enough)
        rw [kept, List.flatMap_singleton]
      · have none : keeping more [q] = [] := keeping_eq_nil (by simpa using enough)
        rw [none, List.flatMap_nil]
        refine keeping_eq_nil fun last member => ?_
        have less := shrinks q List.mem_cons_self last member
        omega

/-- A loop with enough fuel is one more turn of itself. -/
theorem iterate_eq {fuel : Nat} (enough : p.after.length ≤ fuel) :
    iterate greedy step fuel p =
      let again := (step p).flatMap fun q =>
        if q.after.length < p.after.length then iterate greedy step (fuel - 1) q else []
      if greedy then again ++ [p] else p :: again := by
  cases fuel with
  | succ fuel => rfl
  | zero =>
      have none : ((step p).flatMap fun q => if q.after.length < p.after.length then
          iterate greedy step (0 - 1) q else []) = [] := by
        refine List.flatMap_eq_nil_iff.mpr fun q _ => if_neg ?_
        omega
      rw [none]
      cases greedy <;> rfl

theorem iterate_alike (shrinks : ∀ p q, q ∈ step p → q.after.length ≤ p.after.length)
    (each : ∀ {p q}, Alike more p q → Forall₂ (Alike more) (step p) (keeping more (step q)))
    {fuel fuel' : Nat} (alike : Alike more p q) (enough : p.after.length ≤ fuel)
    (enough' : q.after.length ≤ fuel') :
    Forall₂ (Alike more) (iterate greedy step fuel p)
      (keeping more (iterate greedy step fuel' q)) := by
  induction fuel using Nat.strong_induction_on generalizing p q fuel' with
  | _ fuel ih =>
    have size : q.after.length = p.after.length + more.length := by
      rw [alike.after, List.length_append]
    have again : Forall₂ (Alike more)
        ((step p).flatMap fun middle => if middle.after.length < p.after.length then
          iterate greedy step (fuel - 1) middle else [])
        (keeping more ((step q).flatMap fun middle => if middle.after.length < q.after.length then
          iterate greedy step (fuel' - 1) middle else [])) := by
      rw [keeping_flatMap]
      · refine List.rel_flatMap (each alike) fun first second same => ?_
        have length : second.after.length = first.after.length + more.length := by
          rw [same.after, List.length_append]
        by_cases less : first.after.length < p.after.length
        · rw [if_pos less, if_pos (by omega)]
          exact ih (fuel - 1) (by omega) same (by omega) (by omega)
        · rw [if_neg less, if_neg (by omega)]
          exact .nil
      · intro middle _ last member
        split at member
        · exact iterate_shrinks shrinks member
        · exact absurd member List.not_mem_nil
    rw [iterate_eq enough, iterate_eq enough']
    cases greedy with
    | true =>
        change Forall₂ _ (_ ++ [p]) (keeping more (_ ++ [q]))
        rw [keeping_append]
        exact List.rel_append again alike.single
    | false =>
        change Forall₂ _ ([p] ++ _) (keeping more ([q] ++ _))
        rw [keeping_append]
        exact List.rel_append alike.single again

/-- The matches that leave the part behind alone are those without it. -/
theorem run_alike (blind : r.isLocal = true) (alike : Alike more p q) :
    Forall₂ (Alike more) (r.run p) (keeping more (r.run q)) := by
  induction r generalizing p q with
  | empty => exact alike.single
  | char accepts =>
      have after := alike.after
      rw [run, run]
      cases here : p.after with
      | nil =>
          rw [here, List.nil_append] at after
          rw [keeping_eq_nil]
          · exact .nil
          · intro last member
            rw [after] at member
            cases more with
            | nil => exact absurd member List.not_mem_nil
            | cons c rest =>
                simp only at member
                split at member
                · obtain rfl := List.mem_singleton.mp member
                  exact Nat.lt_succ_self _
                · exact absurd member List.not_mem_nil
      | cons c rest =>
          rw [here, List.cons_append] at after
          simp only [after]
          split
          · have next : Alike more { p with before := c :: p.before, after := rest }
                { q with before := c :: q.before, after := rest ++ more } :=
              ⟨rfl, alike.groups, by simp⟩
            exact next.single
          · exact .nil
  | seq first next ihFirst ihNext =>
      obtain ⟨blindFirst, blindNext⟩ := Bool.and_eq_true_iff.mp blind
      change Forall₂ _ _ (keeping more ((first.run q).flatMap next.run))
      rw [keeping_flatMap fun _ _ _ => run_shrinks]
      exact List.rel_flatMap (ihFirst blindFirst alike) fun _ _ => ihNext blindNext
  | alt first other ihFirst ihOther =>
      obtain ⟨blindFirst, blindOther⟩ := Bool.and_eq_true_iff.mp blind
      change Forall₂ _ _ (keeping more (first.run q ++ other.run q))
      rw [keeping_append]
      exact List.rel_append (ihFirst blindFirst alike) (ihOther blindOther alike)
  | star greedy body ih =>
      exact iterate_alike (fun _ _ => run_shrinks) (ih blind) alike le_rfl le_rfl
  | group index body ih =>
      change Forall₂ _ ((body.run p).map _) (List.filter _ ((body.run q).map _))
      rw [List.filter_map, List.forall₂_map_left_iff, List.forall₂_map_right_iff]
      refine (ih blind alike).imp fun first second same => ⟨same.after, ?_, same.start⟩
      have held : between q second = between p first := by
        rw [between, between, alike.after, same.after, List.length_append, List.length_append,
          Nat.add_sub_add_right, List.take_append_of_le_length (Nat.sub_le _ _)]
      simp only [held, same.groups]
  | start =>
      by_cases first : p.before = []
      · simp only [run, first, alike.start.mpr first, List.isEmpty_nil, ↓reduceIte]
        exact alike.single
      · have later := mt alike.start.mp first
        simp only [run, List.isEmpty_iff, first, later, ↓reduceIte]
        exact .nil
  | finish => contradiction
  | ahead body => contradiction

/-- Without a match across the border every match of the longer text leaves the part behind. -/
theorem keeping_run (stays : r.Stays text more) (inside : p.after = text ++ more)
    (occupied : text ≠ []) : keeping more (r.run p) = r.run p := by
  refine keeping_eq_self fun q member => ?_
  obtain ⟨read, spelled, after, -⟩ := reads_of_run member
  by_contra short
  obtain ⟨rest, rfl⟩ := List.suffix_of_suffix_length_le (⟨read, after.symm⟩ : q.after <:+ p.after)
    ⟨text, inside.symm⟩ (Nat.le_of_not_le short)
  have same : read = text ++ rest := by
    rw [inside, ← List.append_assoc] at after
    exact (List.append_cancel_right after).symm
  refine stays text rest occupied (List.suffix_refl text) ?_ ⟨q.after, rfl⟩ (same ▸ spelled)
  rintro rfl
  exact short (by rw [List.nil_append])

theorem Stays.suffix {part : List Char} (stays : r.Stays text more) (inside : part <:+ text) :
    r.Stays part more :=
  fun first rest occupied suffix => stays first rest occupied (suffix.trans inside)

/-- The text that a match has read. -/
theorem reads_of_find {found : Found} (present : r.find before text = some found) :
    ∃ read ∈ r.language, text = found.skipped ++ (read ++ found.finish.after) ∧
      found.finish.before = (found.skipped ++ read).reverse ++ before := by
  obtain ⟨p, -, place, after, member⟩ := run_of_find present
  obtain ⟨read, spelled, rest, behind⟩ := reads_of_run member
  refine ⟨read, spelled, after.trans (congrArg _ rest), ?_⟩
  rw [behind, place, List.reverse_append, List.append_assoc]

theorem run_nil (inhabited : [] ∉ r.language) (empty : p.after = []) : r.run p = [] := by
  refine List.eq_nil_iff_forall_not_mem.mpr fun q member => ?_
  obtain ⟨read, spelled, after, -⟩ := reads_of_run member
  rw [empty] at after
  exact inhabited ((List.append_eq_nil_iff.mp after.symm).1 ▸ spelled)

/-- The leftmost match of a text that goes on. -/
theorem find_append (blind : r.isLocal = true) (inhabited : [] ∉ r.language)
    (stays : r.Stays text more) (start : other = [] ↔ before = []) :
    (∀ found, r.find before text = some found → ∃ found', r.find other (text ++ more) = some found' ∧
      found'.skipped = found.skipped ∧ Alike more found.finish found'.finish) ∧
    (r.find before text = none → r.find other (text ++ more) =
      (r.find (text.reverse ++ other) more).map fun found =>
        { found with skipped := text ++ found.skipped }) := by
  induction text generalizing before other with
  | nil =>
      have none : r.run ⟨before, [], []⟩ = [] := run_nil inhabited rfl
      constructor
      · intro found present
        rw [find, none] at present
        contradiction
      · intro _
        rw [List.nil_append]
        exact Option.map_id'.symm
  | cons c rest ih =>
      have same : Forall₂ (Alike more) (r.run ⟨before, c :: rest, []⟩)
          (r.run ⟨other, c :: rest ++ more, []⟩) := by
        rw [← keeping_run stays (p := ⟨other, c :: rest ++ more, []⟩) rfl (List.cons_ne_nil c rest)]
        exact run_alike blind ⟨rfl, rfl, start⟩
      have begun : c :: other = [] ↔ c :: before = [] := by simp
      obtain ⟨matched, missed⟩ := ih (stays.suffix (List.suffix_cons c rest)) begun
      rw [List.cons_append] at same ⊢
      rw [find, find]
      generalize r.run ⟨before, c :: rest, []⟩ = small at same ⊢
      generalize r.run ⟨other, c :: (rest ++ more), []⟩ = large at same ⊢
      cases same with
      | cons alike _ =>
          constructor
          · intro found present
            obtain rfl := Option.some.inj present
            exact ⟨_, rfl, rfl, alike⟩
          · intro none
            contradiction
      | nil =>
          simp only [List.head?_nil]
          constructor
          · intro found present
            obtain ⟨later, found, rfl⟩ := Option.map_eq_some_iff.mp present
            obtain ⟨found', present', skipped, alike⟩ := matched later found
            exact ⟨{ found' with skipped := c :: found'.skipped }, by rw [present']; rfl,
              by rw [skipped], alike⟩
          · intro none
            rw [missed (Option.map_eq_none_iff.mp none), List.reverse_cons, List.append_assoc,
              Option.map_map]
            rfl

/-- Without a match behind it the groups are those of the text alone. -/
theorem group_append (blind : r.isLocal = true) (inhabited : [] ∉ r.language)
    (stays : r.Stays text more) (absent : ∀ before, r.find before more = none) (index : Nat) :
    (r.search (text ++ more)).bind (fun found => found.group index) =
      (r.search text).bind fun found => found.group index := by
  have whole := find_append blind inhabited stays (Iff.refl (([] : List Char) = []))
  obtain ⟨matched, missed⟩ := whole
  rw [search, search]
  cases present : r.find [] text with
  | none => rw [missed present, absent, Option.map_none, Option.map_none]
  | some found =>
      obtain ⟨found', present', -, alike⟩ := matched found present
      rw [present', Option.map_some, Option.map_some, Option.bind_some, Option.bind_some,
        Place.group, Place.group, alike.groups]

end alike

/-- The last piece of some and the first of others as one. -/
def glue : List (List Char) → List (List Char) → List (List Char)
  | [], next => next
  | [last], [] => [last]
  | [last], piece :: rest => (last ++ piece) :: rest
  | piece :: other :: rest, next => piece :: glue (other :: rest) next

section pieces
variable {r : Regex} {more text before other replacement : List Char} {first next : List (List Char)}

theorem glue_cons (piece : List Char) (occupied : first ≠ []) :
    glue (piece :: first) next = piece :: glue first next := by
  cases first with
  | nil => contradiction
  | cons => rfl

theorem glue_empty (occupied : next ≠ []) : glue [[]] next = next := by
  cases next with
  | nil => contradiction
  | cons => rfl

theorem glue_skip (occupied : first ≠ []) : glue first ([] :: next) = first ++ next := by
  induction first with
  | nil => contradiction
  | cons piece rest ih =>
      cases rest with
      | nil => rw [glue, List.append_nil, List.singleton_append]
      | cons => exact congrArg (piece :: ·) (ih (List.cons_ne_nil _ _))

theorem splitFrom_ne_nil (fuel : Nat) : r.splitFrom fuel before text ≠ [] := by
  cases fuel with
  | zero => exact List.cons_ne_nil text []
  | succ fuel =>
      rw [splitFrom]
      split
      · exact List.cons_ne_nil text []
      · exact List.cons_ne_nil _ _

theorem finish_length {found : Found} (inhabited : [] ∉ r.language)
    (present : r.find before text = some found) : found.finish.after.length < text.length := by
  obtain ⟨read, spelled, after, -⟩ := reads_of_find present
  have positive : 0 < read.length := List.length_pos_iff.mpr fun empty =>
    inhabited (empty ▸ spelled)
  rw [after, List.length_append, List.length_append]
  omega

/-- The fuel of a split does not matter once it is enough. -/
theorem splitFrom_fuel (inhabited : [] ∉ r.language) {n m : Nat} (enough : text.length ≤ n)
    (enough' : text.length ≤ m) : r.splitFrom n before text = r.splitFrom m before text := by
  induction n generalizing text before m with
  | zero =>
      obtain rfl := List.eq_nil_of_length_eq_zero (Nat.le_zero.mp enough)
      cases m with
      | zero => rfl
      | succ m => rw [splitFrom, splitFrom, find, run_nil inhabited rfl]; rfl
  | succ n ih =>
      cases m with
      | zero =>
          obtain rfl := List.eq_nil_of_length_eq_zero (Nat.le_zero.mp enough')
          rw [splitFrom, splitFrom, find, run_nil inhabited rfl]
          rfl
      | succ m =>
          rw [splitFrom, splitFrom]
          cases present : r.find before text with
          | none => rfl
          | some found =>
              have less := finish_length inhabited present
              exact congrArg (found.skipped :: ·) (ih (by omega) (by omega))

/-- A text whose matches do not cross a border is split on both sides of it. -/
theorem splitFrom_append (blind : r.isLocal = true) (inhabited : [] ∉ r.language)
    (stays : r.Stays text more) (start : other = [] ↔ before = []) {n m k : Nat}
    (enough : text.length ≤ n) (enough' : (text ++ more).length ≤ m) (enoughMore : more.length ≤ k) :
    r.splitFrom m other (text ++ more) =
      glue (r.splitFrom n before text) (r.splitFrom k (text.reverse ++ other) more) := by
  induction n generalizing text before other m with
  | zero =>
      obtain rfl := List.eq_nil_of_length_eq_zero (Nat.le_zero.mp enough)
      rw [splitFrom, glue_empty (splitFrom_ne_nil k)]
      exact splitFrom_fuel inhabited enough' enoughMore
  | succ n ih =>
      obtain ⟨matched, missed⟩ := find_append blind inhabited stays start
      rw [splitFrom_fuel inhabited enough' (Nat.le_succ_of_le le_rfl),
        splitFrom_fuel inhabited enoughMore (Nat.le_succ_of_le le_rfl), splitFrom, splitFrom]
      cases present : r.find before text with
      | none =>
          rw [missed present, splitFrom]
          cases later : r.find (text.reverse ++ other) more with
          | none => rfl
          | some found =>
              have less := finish_length inhabited later
              have size : (text ++ more).length = text.length + more.length := List.length_append
              have rest : r.splitFrom (text ++ more).length found.finish.before found.finish.after =
                  r.splitFrom more.length found.finish.before found.finish.after :=
                splitFrom_fuel inhabited (by omega) (by omega)
              exact congrArg ((text ++ found.skipped) :: ·) rest
      | some found =>
          obtain ⟨found', present', skipped, alike⟩ := matched found present
          have after := alike.after
          have less := finish_length inhabited present
          obtain ⟨read, spelled, whole, behind⟩ := reads_of_find present
          obtain ⟨read', spelled', whole', behind'⟩ := reads_of_find present'
          have parts : text = (found.skipped ++ read') ++ found.finish.after := by
            rw [skipped, after, ← List.append_assoc, ← List.append_assoc] at whole'
            exact List.append_cancel_right whole'
          have context : found.finish.after.reverse ++ found'.finish.before =
              text.reverse ++ other := by
            rw [behind', skipped, ← List.append_assoc, ← List.reverse_append, ← parts]
          have first : found.finish.before ≠ [] := by
            rw [behind]
            rintro empty
            simp only [List.append_eq_nil_iff, List.reverse_eq_nil_iff] at empty
            exact inhabited (empty.1.2 ▸ spelled)
          have second : found'.finish.before ≠ [] := by
            rw [behind']
            rintro empty
            simp only [List.append_eq_nil_iff, List.reverse_eq_nil_iff] at empty
            exact inhabited (empty.1.2 ▸ spelled')
          simp only [present', skipped]
          rw [glue_cons _ (splitFrom_ne_nil n)]
          refine congrArg (found.skipped :: ·) ?_
          have begun : found'.finish.before = [] ↔ found.finish.before = [] :=
            iff_of_false second first
          rw [after, ih (stays.suffix ⟨found.skipped ++ read', parts.symm⟩) begun (by omega)
            (by rw [List.length_append, List.length_append]; omega), context]
          exact congrArg _ (splitFrom_fuel inhabited enoughMore (Nat.le_succ_of_le le_rfl))

theorem subFrom_eq (fuel : Nat) : r.subFrom replacement fuel before text =
    replacement.intercalate (r.splitFrom fuel before text) := by
  induction fuel generalizing before text with
  | zero => simp [subFrom, splitFrom]
  | succ fuel ih =>
      rw [subFrom, splitFrom]
      cases r.find before text with
      | none => simp
      | some found =>
          simp only [ih]
          cases pieces : r.splitFrom fuel found.finish.before found.finish.after with
          | nil => exact absurd pieces (splitFrom_ne_nil fuel)
          | cons piece rest => simp [List.intercalate_cons_cons]

theorem intercalate_glue (occupied : first ≠ []) (occupied' : next ≠ []) :
    replacement.intercalate (glue first next) =
      replacement.intercalate first ++ replacement.intercalate next := by
  induction first with
  | nil => contradiction
  | cons last rest ih =>
      cases rest with
      | nil =>
          cases next with
          | nil => contradiction
          | cons piece others => cases others <;> simp [glue, List.intercalate_cons_cons]
      | cons piece others =>
          have later := ih (List.cons_ne_nil piece others)
          rw [glue_cons _ (List.cons_ne_nil piece others)]
          cases glued : glue (piece :: others) next with
          | nil =>
              cases others <;> cases next <;> simp [glue] at glued
          | cons head tail =>
              rw [glued] at later
              simp [List.intercalate_cons_cons, later]

/-- The same for replacing. -/
theorem subFrom_append (blind : r.isLocal = true) (inhabited : [] ∉ r.language)
    (stays : r.Stays text more) (start : other = [] ↔ before = []) {n m k : Nat}
    (enough : text.length ≤ n) (enough' : (text ++ more).length ≤ m) (enoughMore : more.length ≤ k) :
    r.subFrom replacement m other (text ++ more) =
      r.subFrom replacement n before text ++
        r.subFrom replacement k (text.reverse ++ other) more := by
  rw [subFrom_eq, subFrom_eq, subFrom_eq,
    splitFrom_append blind inhabited stays start enough enough' enoughMore,
    intercalate_glue (splitFrom_ne_nil n) (splitFrom_ne_nil k)]

/-- Replacing leaves a text without matches. -/
theorem subFrom_of_find_none {fuel : Nat} (absent : r.find before text = none) :
    r.subFrom replacement fuel before text = text := by
  cases fuel with
  | zero => rfl
  | succ fuel => rw [subFrom, absent]

/-- Past its start a split does not depend on what stands before. -/
theorem splitFrom_context (blind : r.isLocal = true) (inhabited : [] ∉ r.language)
    (start : other = [] ↔ before = []) {n m : Nat} (enough : text.length ≤ n)
    (enough' : text.length ≤ m) : r.splitFrom n other text = r.splitFrom m before text := by
  have stays : r.Stays text [] := fun _ rest _ _ occupied inside =>
    absurd (List.prefix_nil.mp inside) occupied
  have split : r.splitFrom n other (text ++ []) = glue (r.splitFrom m before text)
      (r.splitFrom 0 (text.reverse ++ other) []) :=
    splitFrom_append blind inhabited stays start enough' (by rwa [List.append_nil]) le_rfl
  rw [List.append_nil] at split
  rw [split, splitFrom, glue_skip (splitFrom_ne_nil m), List.append_nil]

/-- What is replaced on the two sides of a character that the expression does not accept. -/
theorem subFrom_border (blind : r.isLocal = true) (inhabited : [] ∉ r.language) {c : Char}
    (rejected : r.accepting c = false) (start : other = [] ↔ before = []) {third : List Char}
    (later : third ≠ []) :
    r.subFrom replacement (text ++ c :: more).length other (text ++ c :: more) =
      r.subFrom replacement text.length before text ++
        c :: r.subFrom replacement more.length third more := by
  have alone (rest : List Char) : r.Stays [c] rest := by
    intro first rest occupied suffix _ _ spelled
    obtain ⟨d, others, rfl⟩ := List.exists_cons_of_ne_nil occupied
    obtain rfl : d = c := List.mem_singleton.mp (suffix.subset List.mem_cons_self)
    have accepted := accepting_of_mem spelled List.mem_cons_self
    exact absurd (rejected.symm.trans accepted) Bool.false_ne_true
  have absent (context : List Char) : r.find context [c] = none := by
    refine find_eq_none fun read spelled inside => ?_
    obtain ⟨d, others, rfl⟩ := List.exists_cons_of_ne_nil fun empty => inhabited (empty ▸ spelled)
    obtain rfl : d = c := List.mem_singleton.mp (inside.subset List.mem_cons_self)
    have accepted := accepting_of_mem spelled List.mem_cons_self
    exact absurd (rejected.symm.trans accepted) Bool.false_ne_true
  have first : r.subFrom replacement (text ++ c :: more).length other (text ++ c :: more) =
      r.subFrom replacement text.length before text ++
        r.subFrom replacement (c :: more).length (text.reverse ++ other) (c :: more) :=
    subFrom_append blind inhabited (stays_of_rejected rejected) start le_rfl le_rfl le_rfl
  have second : r.subFrom replacement (c :: more).length (text.reverse ++ other) ([c] ++ more) =
      r.subFrom replacement 1 (text.reverse ++ other) [c] ++
        r.subFrom replacement more.length ([c].reverse ++ (text.reverse ++ other)) more :=
    subFrom_append blind inhabited (alone more) Iff.rfl le_rfl le_rfl le_rfl
  have context : r.subFrom replacement more.length ([c].reverse ++ (text.reverse ++ other)) more =
      r.subFrom replacement more.length third more := by
    rw [subFrom_eq, subFrom_eq]
    exact congrArg _ (splitFrom_context blind inhabited
      (iff_of_false (List.cons_ne_nil c _) later) le_rfl le_rfl)
  rw [context, subFrom_of_find_none (absent _)] at second
  rw [first]
  exact congrArg _ second

end pieces

/-- The pieces of a split that are not empty. -/
def pieces (r : Regex) (before text : List Char) : List (List Char) :=
  (r.splitFrom text.length before text).filter (· ≠ [])

/-- An expression of separators, and of other borders that hold none of them. -/
structure Separates (separator : Char → Bool) (r : Regex) : Prop where
  shape : ∃ others, r = .alt (plus (.char separator)) others ∧
    ∀ c, separator c = true → others.accepting c = false
  blind : r.isLocal = true
  consuming : r.consumes = true

section separators
variable {r : Regex} {separator : Char → Bool} {before other third text more span after : List Char}
  {p : Place}

/-- A loop of one character reads all it can. -/
theorem iterate_span {fuel : Nat} (enough : p.after.length ≤ fuel)
    (accepted : ∀ c ∈ span, separator c = true) (ends : ∀ c ∈ after.head?, separator c = false)
    (here : p.after = span ++ after) :
    ∃ q, (iterate true (Regex.char separator).run fuel p).head? = some q ∧ q.after = after := by
  induction span generalizing p fuel with
  | nil =>
      have stuck : (Regex.char separator).run p = [] := by
        rw [run]
        cases empty : p.after with
        | nil => rfl
        | cons c rest =>
            have first : c ∈ after.head? := by
              rw [← show p.after = after from here, empty]
              rfl
            simp only [ends c first, Bool.false_eq_true, ↓reduceIte]
      rw [iterate_eq enough, stuck]
      exact ⟨p, rfl, here⟩
  | cons c rest ih =>
      have next : (Regex.char separator).run p =
          [{ p with before := c :: p.before, after := rest ++ after }] := by
        rw [run, here]
        simp only [List.cons_append, accepted c List.mem_cons_self, ↓reduceIte]
      have size := congrArg List.length here
      rw [List.cons_append, List.length_cons] at size
      have less : (rest ++ after).length ≤ fuel - 1 := by omega
      obtain ⟨q, first, last⟩ := ih (p := { p with before := c :: p.before, after := rest ++ after })
        less (fun c member => accepted c (List.mem_cons_of_mem _ member)) rfl
      rw [iterate_eq enough, next]
      refine ⟨q, ?_, last⟩
      simp only [List.flatMap_singleton, ↓reduceIte, size, Nat.lt_succ_self]
      rw [List.head?_append, first]
      rfl

/-- A run of separators is one border. -/
theorem splitFrom_run (separates : Separates separator r) (occupied : span ≠ [])
    (accepted : ∀ c ∈ span, separator c = true) (ends : ∀ c ∈ after.head?, separator c = false)
    (fuel : Nat) : ∃ before', before' ≠ [] ∧
      r.splitFrom (fuel + 1) before (span ++ after) = [] :: r.splitFrom fuel before' after := by
  obtain ⟨⟨others, rfl, -⟩, -, consuming⟩ := separates
  cases span with
  | nil => contradiction
  | cons c rest =>
      obtain ⟨q, first, last⟩ := iterate_span (p := ⟨c :: before, rest ++ after, []⟩) le_rfl
        (fun c member => accepted c (List.mem_cons_of_mem _ member)) ends rfl
      have found : (Regex.alt (plus (.char separator)) others).find before (c :: (rest ++ after)) =
          some ⟨[], q⟩ := by
        have head : ((Regex.alt (plus (.char separator)) others).run
            ⟨before, c :: (rest ++ after), []⟩).head? = some q := by
          rw [run, plus, run, run]
          simp only [accepted c List.mem_cons_self, ↓reduceIte, List.flatMap_singleton]
          rw [List.head?_append, run, first]
          rfl
        rw [find, head]
      obtain ⟨read, spelled, -, behind⟩ := reads_of_find found
      refine ⟨q.before, ?_, ?_⟩
      · rw [behind]
        intro empty
        simp only [List.append_eq_nil_iff, List.reverse_eq_nil_iff] at empty
        exact nil_not_mem consuming (empty.1.2 ▸ spelled)
      · rw [List.cons_append, splitFrom, found]
        simp only [last]

/-- The pieces on the two sides of some separators. -/
theorem pieces_span (separates : Separates separator r)
    (border : ∀ c ∈ text.getLast?, separator c = false) (occupied : span ≠ [])
    (accepted : ∀ c ∈ span, separator c = true) (ends : ∀ c ∈ after.head?, separator c = false)
    (start : other = [] ↔ before = []) (later : third ≠ []) :
    r.pieces other (text ++ (span ++ after)) = r.pieces before text ++ r.pieces third after := by
  have stays : r.Stays text (span ++ after) := by
    obtain ⟨others, rfl, apart⟩ := separates.shape
    intro first rest occupiedFirst suffix occupiedRest inside spelled
    obtain ⟨c, others', rfl⟩ := List.exists_cons_of_ne_nil occupied
    obtain ⟨d, more, rfl⟩ := List.exists_cons_of_ne_nil occupiedRest
    obtain rfl : d = c := (List.cons_prefix_cons.mp inside).1
    rcases spelled with spelled | spelled
    · have last := accepting_of_mem spelled (List.mem_append_left _ (List.getLast_mem occupiedFirst))
      have rejected := border (first.getLast occupiedFirst) (by
        rw [suffix.getLast occupiedFirst]
        exact List.getLast_mem_getLast? _)
      simp only [plus, accepting, rejected, Bool.or_self] at last
      contradiction
    · have head := accepting_of_mem spelled (List.mem_append_right first List.mem_cons_self)
      rw [apart d (accepted d List.mem_cons_self)] at head
      contradiction
  have consuming := nil_not_mem separates.consuming
  have split : r.splitFrom (text ++ (span ++ after)).length other (text ++ (span ++ after)) =
      glue (r.splitFrom text.length before text)
        (r.splitFrom ((span ++ after).length + 1) (text.reverse ++ other) (span ++ after)) :=
    splitFrom_append separates.blind (nil_not_mem separates.consuming) stays start le_rfl le_rfl
      (Nat.le_succ _)
  obtain ⟨before', first, next⟩ := splitFrom_run separates occupied accepted ends
    (span ++ after).length
  have context : r.splitFrom (span ++ after).length before' after =
      r.splitFrom after.length third after := by
    refine splitFrom_context separates.blind (nil_not_mem separates.consuming)
      (iff_of_false first later) ?_ le_rfl
    rw [List.length_append]
    omega
  rw [pieces, split, next, glue_skip (splitFrom_ne_nil _), List.filter_append, context]
  rfl

/-- A separator cuts a text into two that are split on their own. -/
theorem pieces_append (separates : Separates separator r) {c : Char} (border : separator c = true)
    (start : other = [] ↔ before = []) (later : third ≠ []) :
    r.pieces other (text ++ c :: more) = r.pieces before text ++ r.pieces third more := by
  have consuming := nil_not_mem separates.consuming
  have none (context : List Char) : r.pieces context [] = [] := by
    rw [pieces, List.length_nil, splitFrom]
    rfl
  have ends (rest : List Char) : ∀ c ∈ (rest.dropWhile separator).head?, separator c = false := by
    intro c first
    have stops := List.head?_dropWhile_not separator rest
    rwa [Option.mem_def.mp first] at stops
  have last : ∀ c ∈ (text.rdropWhile separator).getLast?, separator c = false := by
    intro c last
    have occupied : text.rdropWhile separator ≠ [] := by
      rintro empty
      rw [empty] at last
      contradiction
    rw [List.getLast?_eq_some_getLast occupied, Option.mem_some_iff] at last
    rw [← last]
    exact Bool.not_eq_true _ ▸ List.rdropWhile_last_not separator text occupied
  -- The run of separators around the border.
  have whole : text ++ c :: more = text.rdropWhile separator ++
      ((text.rtakeWhile separator ++ c :: more.takeWhile separator) ++
        more.dropWhile separator) := by
    rw [List.append_assoc, ← List.append_assoc (text.rdropWhile separator),
      List.rdropWhile_append_rtakeWhile, List.cons_append, List.takeWhile_append_dropWhile]
  have first : r.pieces before text = r.pieces before (text.rdropWhile separator) := by
    by_cases alone : text.rtakeWhile separator = []
    · conv_lhs => rw [← List.rdropWhile_append_rtakeWhile (p := separator) (l := text), alone,
        List.append_nil]
    · conv_lhs => rw [← List.rdropWhile_append_rtakeWhile (p := separator) (l := text)]
      rw [← List.append_nil (text.rtakeWhile separator), pieces_span separates last alone
        (fun c => List.mem_rtakeWhile_imp) (by simp) Iff.rfl later, none, List.append_nil]
  have second : r.pieces third more = r.pieces third (more.dropWhile separator) := by
    by_cases alone : more.takeWhile separator = []
    · conv_lhs => rw [← List.takeWhile_append_dropWhile (p := separator) (l := more), alone,
        List.nil_append]
    · conv_lhs => rw [← List.takeWhile_append_dropWhile (p := separator) (l := more),
        ← List.nil_append (_ ++ _)]
      rw [pieces_span separates (by simp) alone (fun c => List.mem_takeWhile_imp) (ends more)
        Iff.rfl later, none, List.nil_append]
  rw [whole, first, second]
  refine pieces_span separates last ?_ ?_ (ends more) start later
  · exact List.append_ne_nil_of_right_ne_nil _ (List.cons_ne_nil _ _)
  · intro d member
    rcases List.mem_append.mp member with member | member
    · exact List.mem_rtakeWhile_imp member
    · rcases List.mem_cons.mp member with rfl | member
      · exact border
      · exact List.mem_takeWhile_imp member

end separators

end Regex
