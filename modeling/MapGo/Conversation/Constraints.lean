import MapGo.Conversation.Answers

/-! The constraints of a planning intent. A constraint set in the request takes the place of the
one that the parser extracts from the text; an answer changes its own field in the request. -/
namespace MapGo.Conversation

variable {L : Leaves}

theorem one_fits : 0 ≤ (1 : Int) ∧ (1 : Int) ≤ 50 := by decide

theorem zero_fits : 0 ≤ (0 : Int) ∧ (0 : Int) ≤ 50 := by decide

theorem zero_fits_few : 0 ≤ (0 : Int) ∧ (0 : Int) ≤ 20 := by decide

theorem no_items_fit : ([] : List String).length ≤ 20 := by decide

def partyDefault (L : Leaves) : (partyProfile L).Model
  | .adults => (⟨1, one_fits⟩ : {n : Int // 0 ≤ n ∧ n ≤ 50})
  | .elderly | .children => (⟨0, zero_fits⟩ : {n : Int // 0 ≤ n ∧ n ≤ 50})
  | .wheelchairUsers | .pets => (⟨0, zero_fits_few⟩ : {n : Int // 0 ≤ n ∧ n ≤ 20})
  | .hasLuggage => false

theorem party_initial : (partyProfile L).Reads [] (partyDefault L) := by
  intro f
  cases f <;> rfl

def hardDefault (L : Leaves) : (hardConstraints L).Model
  | .latestReturnTime => none
  | .maxTotalDurationMinutes => none
  | .mustReturnToOrigin | .wheelchairAccessible => false
  | .requiredTaskOrder => ([] : List Int)
  | .avoidAreas | .mustPassAreas | .allowedDistricts => ⟨[], no_items_fit⟩
  | .party => partyDefault L
  | .maxWalkingMeters | .maxTotalCostYuan | .maxDetourMeters | .transportBudgetYuan
  | .diningBudgetYuan | .ticketBudgetYuan => none

theorem hard_initial : (hardConstraints L).Reads [] (hardDefault L) := by
  intro f
  cases f with
  | party => exact Schema.collect_eq_some_iff.mpr party_initial
  | _ => rfl

abbrev ConstraintSet (L : Leaves) := (tripConstraintSet L).Model

def constraintsDefault (L : Leaves) : ConstraintSet L
  | .hard => hardDefault L
  | .uncertain => ([] : List (uncertainConstraint L).Model)

namespace ConstraintSet

def hard (c : ConstraintSet L) : (hardConstraints L).Model := c .hard

def party (c : ConstraintSet L) : (partyProfile L).Model := c.hard .party

def uncertain (c : ConstraintSet L) : List (uncertainConstraint L).Model := c .uncertain

end ConstraintSet

/-- `request.constraints` -/
def PlanRequest.constraints (request : PlanRequest L) : Option (ConstraintSet L) :=
  request .constraints

def PlanRequest.text (request : PlanRequest L) : String :=
  (request .text : {text : String // 2 ≤ text.length ∧ text.length ≤ 4000}).val

/-- The constraints of `IntentAgent.run` for those that the parser has extracted. -/
def intentConstraints (parsed : ConstraintSet L) (request : PlanRequest L) : ConstraintSet L :=
  match request.constraints with
  | some constraints => constraints
  | none => parsed

variable (T : Texts)

/-- The request after an answer to one question. -/
def answeredRequest (L : Leaves) (request : PlanRequest L) (field : String) (value : Json) :
    Option (PlanRequest L) :=
  (applyClarificationAnswer T ((aiPlanRequest L).entries request) field value).bind fun data =>
    (aiPlanRequest L).validate (.object data)

/-- A confirmation that the user gives, or refuses. -/
def confirms (field : String) (value : Json) (accepted : Bool) : Bool :=
  Text.hasPrefix field "human_confirmation." && decide (coerceBool T value = some accepted)

/-- The text with what a refused confirmation appends to it. -/
def answeredText (field : String) (value : Json) (text : String) : String :=
  if confirms T field value false then
    if Text.afterFirst '.' field = "walking_distance" then
      text ++ "；用户不接受长距离步行，请少走路"
    else text ++ "；用户不接受高费用，请省钱优先"
  else text

/-- The answer sets the hard constraint. -/
def setsHard (field : String) (value : Json) (f : HardField) : Bool :=
  if Text.hasPrefix field "human_confirmation." then
    confirms T field value false && decide (f =
      if Text.afterFirst '.' field = "walking_distance" then .maxWalkingMeters
      else .maxTotalCostYuan)
  else !Text.hasPrefix field "constraints.hard.party." &&
    decide (f.key = Text.withoutPrefix field "constraints.hard.")

/-- The answer sets the field of the party. -/
def setsParty (field : String) (f : PartyField) : Bool :=
  Text.hasPrefix field "constraints.hard.party." && decide (f.key = Text.afterLast '.' field)

/-- Every constraint that was extracted is there, except what the answer sets. -/
structure Keeps (field : String) (value : Json) (parsed result : ConstraintSet L) : Prop where
  hard : ∀ f ≠ HardField.party, setsHard T field value f = false →
    parsed.hard f ≠ hardDefault L f → result.hard f = parsed.hard f
  party : setsHard T field value .party = false → ∀ f, setsParty field f = false →
    parsed.party f ≠ partyDefault L f → result.party f = parsed.party f
  uncertain : ∀ constraint ∈ parsed.uncertain, constraint ∈ result.uncertain

/-- The constraint set that the request carries. -/
def ownConstraints (request : PlanRequest L) : ConstraintSet L :=
  request.constraints.getD (constraintsDefault L)

variable {T} {request updated : PlanRequest L} {data : Dict} {field : String} {value : Json}

/-- The same in every field that the answer does not set. -/
structure Framed (T : Texts) (field : String) (value : Json) (before after : ConstraintSet L) :
    Prop where
  hard : ∀ f ≠ HardField.party, setsHard T field value f = false → after.hard f = before.hard f
  party : setsHard T field value .party = false → ∀ f, setsParty field f = false →
    after.party f = before.party f
  uncertain : after.uncertain = before.uncertain

theorem Framed.keeps_iff {before after parsed : ConstraintSet L}
    (framed : Framed T field value before after) :
    Keeps T field value parsed after ↔ Keeps T field value parsed before := by
  constructor
  · intro keeps
    constructor
    · intro f other unset extracted
      exact (framed.hard f other unset).symm.trans (keeps.hard f other unset extracted)
    · intro whole f unset extracted
      exact (framed.party whole f unset).symm.trans (keeps.party whole f unset extracted)
    · rw [← framed.uncertain]
      exact keeps.uncertain
  · intro keeps
    constructor
    · intro f other unset extracted
      exact (framed.hard f other unset).trans (keeps.hard f other unset extracted)
    · intro whole f unset extracted
      exact (framed.party whole f unset).trans (keeps.party whole f unset extracted)
    · rw [framed.uncertain]
      exact keeps.uncertain

/-- What `_ensure_hard_constraints` finds or makes. -/
structure Ensured (L : Leaves) (data : Dict) (own : ConstraintSet L) (hard : Dict) : Prop where
  found : (ensureHardConstraints data).lookup "hard" = some (.object hard)
  reads : (hardConstraints L).Reads hard own.hard
  party : (partyProfile L).Reads (childOrEmpty hard "party") own.party
  uncertain : ∃ value, (ensureHardConstraints data).lookup "uncertain" = some value ∧
    (uncertainConstraint L).formatted.list.validate value = some own.uncertain

theorem ensured_default (missing : ∀ constraints, data.lookup "constraints" ≠
    some (.object constraints)) : Ensured L data (constraintsDefault L) [] := by
  have made : ensureHardConstraints data = [("hard", .object []), ("uncertain", .array [])] := by
    unfold ensureHardConstraints
    split
    next constraints found => exact absurd found (missing constraints)
    next => rfl
  constructor
  · rw [made]
    rfl
  · exact hard_initial
  · exact party_initial
  · rw [made]
    exact ⟨.array [], rfl, rfl⟩

theorem ensured_stored {own : ConstraintSet L}
    (stored : data.lookup "constraints" = some (.object ((tripConstraintSet L).entries own))) :
    Ensured L data own ((hardConstraints L).entries own.hard) := by
  have made : ensureHardConstraints data = (((tripConstraintSet L).entries own).put "hard"
      (.object (childOrEmpty ((tripConstraintSet L).entries own) "hard"))).setdefault
        "uncertain" (.array []) := by
    unfold ensureHardConstraints
    rw [stored]
  have hard : ((tripConstraintSet L).entries own).lookup "hard" =
      some (.object ((hardConstraints L).entries own.hard)) :=
    Schema.lookup_entries (S := tripConstraintSet L) (f := .hard)
  have uncertain : ((tripConstraintSet L).entries own).lookup "uncertain" =
      some ((uncertainConstraint L).formatted.list.dump own.uncertain) :=
    Schema.lookup_entries (S := tripConstraintSet L) (f := .uncertain)
  have party : ((hardConstraints L).entries own.hard).lookup "party" =
      some (.object ((partyProfile L).entries own.party)) :=
    Schema.lookup_entries (S := hardConstraints L) (f := .party)
  have child : childOrEmpty ((tripConstraintSet L).entries own) "hard" =
      (hardConstraints L).entries own.hard := by
    rw [childOrEmpty, child, hard]
    rfl
  constructor
  · rw [made, child, Dict.lookup_setdefault_of_ne (by decide), Dict.lookup_put_self]
  · exact Schema.reads_entries
  · have here : childOrEmpty ((hardConstraints L).entries own.hard) "party" =
        (partyProfile L).entries own.party := by
      rw [childOrEmpty, MapGo.Conversation.child, party]
      rfl
    rw [here]
    exact Schema.reads_entries
  · refine ⟨_, ?_, Format.validate_dump _ own.uncertain⟩
    have kept : (((tripConstraintSet L).entries own).put "hard"
        (.object (childOrEmpty ((tripConstraintSet L).entries own) "hard"))).lookup "uncertain" =
          some ((uncertainConstraint L).formatted.list.dump own.uncertain) :=
      (Dict.lookup_put_of_ne (by decide)).trans uncertain
    rw [made, Dict.setdefault_of_lookup kept, kept]

/-- The request's own set is what an answer changes. -/
theorem constraints_written (constraints : ConstraintSet L) :
    (tripConstraintSet L).formatted.dump constraints ≠ .null := by
  intro written
  contradiction

theorem ensured_request (same : data.lookup "constraints" =
    ((aiPlanRequest L).entries request).lookup "constraints") :
    ∃ hard, Ensured L data (ownConstraints request) hard := by
  have stored : ((aiPlanRequest L).entries request).lookup "constraints" =
      some (((tripConstraintSet L).formatted.nullable constraints_written).dump request.constraints) :=
    Schema.lookup_entries (S := aiPlanRequest L) (f := .constraints)
  rw [stored] at same
  unfold ownConstraints
  cases own : request.constraints with
  | none =>
      rw [own] at same
      refine ⟨[], ensured_default fun constraints found => ?_⟩
      have found : some Json.null = some (Json.object constraints) := same.symm.trans found
      exact Json.noConfusion (Option.some.inj found)
  | some constraints =>
      rw [own] at same
      exact ⟨_, ensured_stored same⟩

/-- A changed set is read with its changed hard constraints, and the same uncertain ones. -/
theorem constraints_of_change {own : ConstraintSet L} {hard : Dict} {later : Dict}
    {change : Dict → Dict} (ensured : Ensured L data own hard)
    (same : later.lookup "constraints" = (changeHard data change).lookup "constraints")
    (valid : (aiPlanRequest L).validate (.object later) = some updated) :
    ∃ after, updated.constraints = some after ∧
      (hardConstraints L).validate (.object (change hard)) = some after.hard ∧
      after.uncertain = own.uncertain := by
  have child : childOrEmpty (ensureHardConstraints data) "hard" = hard := by
    rw [childOrEmpty, child, ensured.found]
    rfl
  have changed : later.lookup "constraints" = some (.object ((ensureHardConstraints data).put
      "hard" (.object (change hard)))) := by
    rw [same, changeHard, Dict.lookup_put_self, child]
  have read : ((tripConstraintSet L).formatted.nullable constraints_written).validate
      (.object ((ensureHardConstraints data).put "hard" (.object (change hard)))) =
        some updated.constraints :=
    (Schema.field_of_lookup (S := aiPlanRequest L) (f := .constraints) changed).symm.trans
      (Schema.reads_of_validate valid .constraints)
  obtain ⟨after, set, present⟩ := Option.map_eq_some_iff.mp read
  have reads : (tripConstraintSet L).Reads
      ((ensureHardConstraints data).put "hard" (.object (change hard))) after :=
    Schema.reads_of_validate set
  refine ⟨after, present.symm, ?_, ?_⟩
  · have found : ((ensureHardConstraints data).put "hard" (.object (change hard))).lookup "hard" =
        some (.object (change hard)) := Dict.lookup_put_self
    exact (Schema.field_of_lookup (S := tripConstraintSet L) (f := .hard) found).symm.trans
      (reads .hard)
  · obtain ⟨value, found, own_value⟩ := ensured.uncertain
    have found : ((ensureHardConstraints data).put "hard" (.object (change hard))).lookup
        "uncertain" = some value := (Dict.lookup_put_of_ne (by decide)).trans found
    have read := (Schema.field_of_lookup (S := tripConstraintSet L) (f := .uncertain)
      found).symm.trans (reads .uncertain)
    exact Option.some.inj (read.symm.trans own_value)

/-- A change that leaves the entries of other fields alone. -/
theorem framed_of_change {own after : ConstraintSet L} {hard changed : Dict}
    (ensured : Ensured L data own hard)
    (valid : (hardConstraints L).validate (.object changed) = some after.hard)
    (uncertain : after.uncertain = own.uncertain)
    (same : ∀ f, setsHard T field value f = false →
      changed.lookup (HardField.key f) = hard.lookup f.key) : Framed T field value own after := by
  have reads := Schema.reads_of_validate valid
  constructor
  · intro f _ unset
    exact ensured.reads.frame reads (same f unset)
  · intro whole f _
    have party : after.hard .party = own.hard .party :=
      ensured.reads.frame reads (same .party whole)
    exact congrFun party f
  · exact uncertain

/-- A change of one field of the party. -/
theorem framed_of_party {own after : ConstraintSet L} {hard : Dict} {name : String}
    (ensured : Ensured L data own hard)
    (valid : (hardConstraints L).validate (.object (hard.put "party"
      (.object ((childOrEmpty hard "party").put name value)))) = some after.hard)
    (uncertain : after.uncertain = own.uncertain)
    (sets : ∀ f, setsParty field f = false → PartyField.key f ≠ name) :
    Framed T field value own after := by
  have reads := Schema.reads_of_validate valid
  constructor
  · intro f other _
    have apart : HardField.key f ≠ "party" := fun same =>
      other ((hardConstraints L).distinct same)
    exact ensured.reads.frame reads (Dict.lookup_put_of_ne apart)
  · intro _ f unset
    have found : (hard.put "party" (.object ((childOrEmpty hard "party").put name value))).lookup
        "party" = some (.object ((childOrEmpty hard "party").put name value)) :=
      Dict.lookup_put_self
    have party := (Schema.field_of_lookup (S := hardConstraints L) (f := .party)
      found).symm.trans (reads .party)
    exact ensured.party.frame (Schema.reads_of_validate party)
      (Dict.lookup_put_of_ne (sets f unset))
  · exact uncertain

theorem lookup_putUnder {later : Dict} {key entry other : String} (different : other ≠ key)
    (put : putUnder data key entry value = some later) :
    later.lookup other = data.lookup other := by
  obtain ⟨entries, -, rfl⟩ := Option.map_eq_some_iff.mp put
  exact Dict.lookup_put_of_ne different

theorem lookup_appendText {phrase other : String} (different : other ≠ "text") :
    (appendText T data phrase).lookup other = data.lookup other :=
  Dict.lookup_put_of_ne different

/-- A refused confirmation sets one amount where there is none. -/
theorem rejected_frame {name phrase : String} {own : ConstraintSet L} {hard : Dict} {amount : Json}
    (ensured : Ensured L data own hard)
    (sets : ∀ f, setsHard T field value f = false → HardField.key f ≠ name)
    (valid : (aiPlanRequest L).validate (.object (appendText T (changeHard data fun hard =>
      hard.setdefault name amount) phrase)) = some updated) :
    ∃ after, updated.constraints = some after ∧ Framed T field value own after := by
  have same : (appendText T (changeHard data fun hard => hard.setdefault name amount)
      phrase).lookup "constraints" =
        (changeHard data fun hard => hard.setdefault name amount).lookup "constraints" :=
    lookup_appendText (by decide)
  obtain ⟨after, present, set, uncertain⟩ := constraints_of_change ensured same valid
  refine ⟨after, present, framed_of_change ensured set uncertain fun f unset => ?_⟩
  exact Dict.lookup_setdefault_of_ne (sets f unset)

theorem text_written : ((aiPlanRequest L).entries request).lookup "text" =
    some (.str request.text) :=
  Schema.lookup_entries (S := aiPlanRequest L) (f := .text)

theorem text_read {text : String} (found : data.lookup "text" = some (.str text))
    (valid : (aiPlanRequest L).validate (.object data) = some updated) : updated.text = text := by
  have read : (sizedText 2 4000).validate (.str text) = some (updated .text) :=
    (Schema.field_of_lookup (S := aiPlanRequest L) (f := .text) found).symm.trans
      (Schema.reads_of_validate valid .text)
  have sized : (if fits : 2 ≤ text.length ∧ text.length ≤ 4000 then
      some (⟨text, fits⟩ : {text : String // 2 ≤ text.length ∧ text.length ≤ 4000}) else none) =
        some (updated .text) := read
  split at sized
  next fits => exact (congrArg Subtype.val (Option.some.inj sized)).symm
  next => contradiction

/-- The text after a change of the constraints and an appended phrase. -/
theorem text_of_append {phrase : String} {change : Dict → Dict}
    (same : data.lookup "text" = ((aiPlanRequest L).entries request).lookup "text")
    (valid : (aiPlanRequest L).validate (.object (appendText T (changeHard data change) phrase)) =
      some updated) : updated.text = request.text ++ phrase := by
  have kept : (changeHard data change).lookup "text" = some (.str request.text) :=
    (Dict.lookup_put_of_ne (by decide)).trans (same.trans text_written)
  refine text_read ?_ valid
  rw [appendText, kept]
  exact Dict.lookup_put_self

/-- The constraint set of the request after an accepted confirmation. -/
theorem constraints_of_same {later : Dict}
    (same : later.lookup "constraints" = ((aiPlanRequest L).entries request).lookup "constraints")
    (valid : (aiPlanRequest L).validate (.object later) = some updated) :
    updated.constraints = request.constraints := by
  have before : (aiPlanRequest L).Reads ((aiPlanRequest L).entries request) request :=
    Schema.reads_entries
  have after : (aiPlanRequest L).Reads later updated := Schema.reads_of_validate valid
  have framed (f : RequestField) (same : later.lookup f.key =
      ((aiPlanRequest L).entries request).lookup f.key) : updated f = request f :=
    before.frame after same
  exact framed .constraints same

theorem confirmation_frame (starts : Text.hasPrefix field "human_confirmation." = true)
    (applied : applyConfirmation T ((aiPlanRequest L).entries request) field value = some data)
    (valid : (aiPlanRequest L).validate (.object data) = some updated) :
    updated.text = answeredText T field value request.text ∧
      (confirms T field value true = true ∧ updated.constraints = request.constraints ∨
        confirms T field value true = false ∧ ∃ after, updated.constraints = some after ∧
          Framed T field value (ownConstraints request) after) := by
  unfold applyConfirmation at applied
  dsimp only at applied
  split at applied
  next => contradiction
  next known =>
    obtain ⟨accepted, coerced, applied⟩ := Option.bind_eq_some_iff.mp applied
    obtain ⟨confirmed, put, answered⟩ := Option.bind_eq_some_iff.mp applied
    have same (key : String) (apart : key ≠ "human_confirmations") :
        confirmed.lookup key = ((aiPlanRequest L).entries request).lookup key :=
      lookup_putUnder apart put
    have confirms_eq (answer : Bool) :
        confirms T field value answer = decide (accepted = answer) := by
      simp only [confirms, starts, coerced, Bool.true_and, Option.some.injEq]
    split at answered
    next accepts =>
      obtain rfl := Option.some.inj answered
      constructor
      · rw [answeredText, confirms_eq, accepts]
        exact text_read ((same "text" (by decide)).trans text_written) valid
      · refine .inl ⟨?_, constraints_of_same (same "constraints" (by decide)) valid⟩
        rw [confirms_eq, accepts]
        rfl
    next rejects =>
      obtain rfl := Bool.eq_false_of_not_eq_true rejects
      have unset (f : HardField) (free : setsHard T field value f = false) :
          f ≠ if Text.afterFirst '.' field = "walking_distance" then .maxWalkingMeters
            else .maxTotalCostYuan := by
        rw [setsHard, if_pos starts, confirms_eq, decide_eq_true rfl, Bool.true_and] at free
        exact of_decide_eq_false free
      rw [answeredText, confirms_eq, decide_eq_true rfl, if_pos rfl]
      split at answered
      next walking =>
        rw [if_pos walking]
        obtain ⟨first, put_first, answered⟩ := Option.bind_eq_some_iff.mp answered
        obtain ⟨second, put_second, answered⟩ := Option.bind_eq_some_iff.mp answered
        obtain rfl := Option.some.inj answered
        have kept (key : String) (apart : key ≠ "human_confirmations")
            (other : key ≠ "preferences_answers") :
            second.lookup key = ((aiPlanRequest L).entries request).lookup key :=
          (lookup_putUnder other put_second).trans
            ((lookup_putUnder other put_first).trans (same key apart))
        obtain ⟨hard, ensured⟩ := ensured_request (kept "constraints" (by decide) (by decide))
        refine ⟨text_of_append (kept "text" (by decide) (by decide)) valid, .inr ⟨confirms_eq true,
          rejected_frame ensured (fun f free named => ?_) valid⟩⟩
        have other := unset f free
        rw [if_pos walking] at other
        exact other ((hardConstraints L).distinct named)
      next cost =>
        rw [if_neg cost]
        obtain ⟨first, put_first, answered⟩ := Option.bind_eq_some_iff.mp answered
        obtain rfl := Option.some.inj answered
        have kept (key : String) (apart : key ≠ "human_confirmations")
            (other : key ≠ "preferences_answers") :
            first.lookup key = ((aiPlanRequest L).entries request).lookup key :=
          (lookup_putUnder other put_first).trans (same key apart)
        obtain ⟨hard, ensured⟩ := ensured_request (kept "constraints" (by decide) (by decide))
        refine ⟨text_of_append (kept "text" (by decide) (by decide)) valid, .inr ⟨confirms_eq true,
          rejected_frame ensured (fun f free named => ?_) valid⟩⟩
        have other := unset f free
        rw [if_neg cost] at other
        exact other ((hardConstraints L).distinct named)

/-- An answer to a question about a hard constraint or the party. -/
theorem hard_frame (starts : Text.hasPrefix field "constraints.hard." = true)
    (applied : applyClarificationAnswer T ((aiPlanRequest L).entries request) field value =
      some data)
    (valid : (aiPlanRequest L).validate (.object data) = some updated) :
    updated.text = answeredText T field value request.text ∧
      ∃ after, updated.constraints = some after ∧
        Framed T field value (ownConstraints request) after := by
  have confirmation : Text.hasPrefix field "human_confirmation." = false :=
    Text.hasPrefix_of_apart starts (by decide)
  have tasks : Text.hasPrefix field "tasks." = false := Text.hasPrefix_of_apart starts (by decide)
  have preferences : Text.hasPrefix field "preferences." = false :=
    Text.hasPrefix_of_apart starts (by decide)
  have other : field ∉ ["origin", "departure_time", "transport_mode"] := by
    intro member
    simp only [List.mem_cons, List.not_mem_nil, or_false] at member
    rcases member with rfl | rfl | rfl <;> exact absurd starts (by decide)
  have unconfirmed : answeredText T field value request.text = request.text := by
    rw [answeredText, confirms, confirmation]
    rfl
  have kept (change : Dict → Dict) : (changeHard ((aiPlanRequest L).entries request)
      change).lookup "text" = some (.str request.text) :=
    (Dict.lookup_put_of_ne (by decide)).trans text_written
  obtain ⟨hard, ensured⟩ : ∃ hard, Ensured L ((aiPlanRequest L).entries request)
    (ownConstraints request) hard := ensured_request rfl
  rw [unconfirmed]
  simp only [applyClarificationAnswer, confirmation, other, tasks, preferences, Bool.false_eq_true,
    false_and, if_false] at applied
  split at applied
  next party =>
    obtain rfl := Option.some.inj applied
    obtain ⟨after, present, set, uncertain⟩ := constraints_of_change ensured rfl valid
    refine ⟨text_read (kept _) valid, after, present,
      framed_of_party ensured set uncertain fun f free named => ?_⟩
    rw [setsParty, party, Bool.true_and] at free
    exact of_decide_eq_false free named
  next single =>
    obtain rfl := Option.some.inj applied
    obtain ⟨after, present, set, uncertain⟩ := constraints_of_change ensured rfl valid
    refine ⟨text_read (kept _) valid, after, present,
      framed_of_change ensured set uncertain fun f free => ?_⟩
    apply Dict.lookup_put_of_ne
    intro named
    simp only [setsHard, confirmation, single, named, Bool.false_eq_true, if_false, Bool.not_false,
      Bool.true_and, decide_true] at free
    contradiction

/-- The request that an answer makes, and what becomes of its own constraint set. -/
theorem answered_frame (asked : Text.hasPrefix field "constraints.hard." = true ∨
    Text.hasPrefix field "human_confirmation." = true)
    (answered : answeredRequest T L request field value = some updated) :
    updated.text = answeredText T field value request.text ∧
      (confirms T field value true = true ∧ updated.constraints = request.constraints ∨
        confirms T field value true = false ∧ ∃ after, updated.constraints = some after ∧
          Framed T field value (ownConstraints request) after) := by
  obtain ⟨data, applied, valid⟩ := Option.bind_eq_some_iff.mp answered
  cases confirmation : Text.hasPrefix field "human_confirmation." with
  | true =>
      rw [applyClarificationAnswer, if_pos confirmation] at applied
      exact confirmation_frame confirmation applied valid
  | false =>
      have starts : Text.hasPrefix field "constraints.hard." = true :=
        asked.resolve_right (by rw [confirmation]; exact Bool.false_ne_true)
      obtain ⟨text, framed⟩ := hard_frame starts applied valid
      refine ⟨text, .inr ⟨?_, framed⟩⟩
      rw [confirms, confirmation, Bool.false_and]

theorem Keeps.refl (constraints : ConstraintSet L) : Keeps T field value constraints constraints :=
  ⟨fun _ _ _ _ => rfl, fun _ _ _ _ => rfl, fun _ member => member⟩

/-- The markers of a request that is to be followed in order. -/
def orderedMarkers : List String := ["先", "然后", "接着", "最后", "依次", "按顺序"]

/-- The constraints of `RuleBasedIntentParser.parse` for the number of tasks that it finds. -/
def ruleConstraints (L : Leaves) (tasks : String → Nat) (text : String) : ConstraintSet L
  | .hard => fun
    | .requiredTaskOrder =>
        if Text.containsAny text orderedMarkers then (List.range (tasks text)).map Int.ofNat
        else ([] : List Int)
    | f => hardDefault L f
  | .uncertain => ([] : List (uncertainConstraint L).Model)

/-- `f"…{reason}"[:300]` -/
def degradedReason (reason : String) : {text : String // 1 ≤ text.length ∧ text.length ≤ 300} :=
  ⟨String.ofList (("LLM 解析失败，已降级到规则解析器：" ++ reason).toList.take 300), by
    have written : 1 ≤ "LLM 解析失败，已降级到规则解析器：".length := by decide
    rw [String.length_ofList, List.length_take, String.length_toList, String.length_append]
    omega⟩

/-- What `FallbackIntentParser.parse` adds when the model has failed. -/
def degradedConstraint (L : Leaves) (reason : String) : (uncertainConstraint L).Model
  | .field =>
      (⟨"intent_parser", by decide⟩ : {text : String // 1 ≤ text.length ∧ text.length ≤ 100})
  | .reason => degradedReason reason
  | .confidence => (⟨9 / 20, by norm_num⟩ : {q : ℚ // 0 ≤ q ∧ q ≤ 1})
  | .safetyBufferMinutes => (⟨10, by decide⟩ : {n : Int // 0 ≤ n ∧ n ≤ 240})

def fallbackConstraints (L : Leaves) (tasks : String → Nat) (reason text : String) :
    ConstraintSet L
  | .hard => (ruleConstraints L tasks text).hard
  | .uncertain => (ruleConstraints L tasks text).uncertain ++ [degradedConstraint L reason]

theorem rule_order {tasks : String → Nat} {text : String}
    (ordered : Text.containsAny text orderedMarkers = true) :
    (ruleConstraints L tasks text).hard .requiredTaskOrder =
      (List.range (tasks text)).map Int.ofNat :=
  if_pos ordered

theorem ruleConstraints_of_unordered {tasks : String → Nat} {text : String}
    (unordered : Text.containsAny text orderedMarkers = false) :
    ruleConstraints L tasks text = constraintsDefault L := by
  funext part
  cases part with
  | hard =>
      funext f
      cases f with
      | requiredTaskOrder => exact if_neg (by rw [unordered]; exact Bool.false_ne_true)
      | _ => rfl
  | uncertain => rfl

/-- An answer keeps what is extracted from the text exactly where the request's own constraint
set has it already, or where there is still no such set after an accepted confirmation. -/
theorem answers_keep_constraints (T : Texts) (L : Leaves) (parse : String → ConstraintSet L)
    (request updated : PlanRequest L) (field : String) (value : Json)
    (asked : Text.hasPrefix field "constraints.hard." = true ∨
      Text.hasPrefix field "human_confirmation." = true)
    (answered : answeredRequest T L request field value = some updated) :
    Keeps T field value (parse updated.text) (intentConstraints (parse updated.text) updated) ↔
      confirms T field value true = true ∧ request.constraints = none ∨
        Keeps T field value (parse (answeredText T field value request.text))
          (ownConstraints request) := by
  obtain ⟨text, cases⟩ := answered_frame asked answered
  rw [← text]
  rcases cases with ⟨accepted, same⟩ | ⟨unaccepted, after, present, framed⟩
  · cases own : request.constraints with
    | none =>
        have parsed : intentConstraints (parse updated.text) updated = parse updated.text := by
          rw [intentConstraints, same, own]
        rw [parsed]
        exact iff_of_true (Keeps.refl _) (.inl ⟨accepted, rfl⟩)
    | some constraints =>
        have kept : intentConstraints (parse updated.text) updated = ownConstraints request := by
          rw [intentConstraints, same, own, ownConstraints, own]
          rfl
        rw [kept]
        constructor
        · exact .inr
        · intro holds
          exact holds.resolve_left fun bare => absurd bare.2 (Option.some_ne_none _)
  · have own : intentConstraints (parse updated.text) updated = after := by
      rw [intentConstraints, present]
    rw [own, framed.keeps_iff]
    constructor
    · exact .inr
    · intro holds
      exact holds.resolve_left fun bare => absurd (unaccepted.symm.trans bare.1) Bool.false_ne_true

theorem answers_keep_constraints_unordered :
    ∃ updated, answeredRequest plainTexts .plain (plainRequest ⟨"去博物馆", by decide⟩)
      "constraints.hard.max_walking_meters" (.number 3000) = some updated ∧
      Keeps plainTexts "constraints.hard.max_walking_meters" (.number 3000)
        (ruleConstraints .plain (fun _ => 1) updated.text)
        (intentConstraints (ruleConstraints .plain (fun _ => 1) updated.text) updated) := by
  have answers : (answeredRequest plainTexts .plain (plainRequest ⟨"去博物馆", by decide⟩)
      "constraints.hard.max_walking_meters" (.number 3000)).isSome := by decide +kernel
  obtain ⟨updated, answered⟩ := Option.isSome_iff_exists.mp answers
  refine ⟨updated, answered, (answers_keep_constraints _ _ _ _ updated _ _ (.inl (by decide))
    answered).mpr (.inr ?_)⟩
  have own : ownConstraints (plainRequest ⟨"去博物馆", by decide⟩) = constraintsDefault .plain := rfl
  rw [own, ruleConstraints_of_unordered (by decide)]
  exact Keeps.refl _

/-- The order and the safety buffer of a request are gone after an answer about walking. -/
theorem order_erased :
    ∃ updated, answeredRequest plainTexts .plain (plainRequest ⟨"先去博物馆，再去公园", by decide⟩)
      "constraints.hard.max_walking_meters" (.number 3000) = some updated ∧
      (fallbackConstraints .plain (fun _ => 2) "timeout" updated.text).hard .requiredTaskOrder =
        ([0, 1] : List Int) ∧
      (intentConstraints (fallbackConstraints .plain (fun _ => 2) "timeout" updated.text)
        updated).hard .requiredTaskOrder = ([] : List Int) ∧
      (intentConstraints (fallbackConstraints .plain (fun _ => 2) "timeout" updated.text)
        updated).uncertain = [] ∧
      ¬ Keeps plainTexts "constraints.hard.max_walking_meters" (.number 3000)
        (fallbackConstraints .plain (fun _ => 2) "timeout" updated.text)
        (intentConstraints (fallbackConstraints .plain (fun _ => 2) "timeout" updated.text)
          updated) := by
  have answers : (answeredRequest plainTexts .plain
      (plainRequest ⟨"先去博物馆，再去公园", by decide⟩) "constraints.hard.max_walking_meters"
        (.number 3000)).isSome := by decide +kernel
  obtain ⟨updated, answered⟩ := Option.isSome_iff_exists.mp answers
  have asked : Text.hasPrefix "constraints.hard.max_walking_meters" "constraints.hard." = true := by
    decide
  have unconfirmed : confirms plainTexts "constraints.hard.max_walking_meters" (.number 3000)
      true = false := by decide
  obtain ⟨text, cases⟩ := answered_frame (.inl asked) answered
  obtain ⟨-, after, present, framed⟩ := cases.resolve_left fun accepted =>
    absurd (unconfirmed.symm.trans accepted.1) Bool.false_ne_true
  have unset : setsHard plainTexts "constraints.hard.max_walking_meters" (.number 3000)
      .requiredTaskOrder = false := by decide
  have parsed : (fallbackConstraints .plain (fun _ => 2) "timeout" updated.text).hard
      .requiredTaskOrder = ([0, 1] : List Int) := by
    have marked : Text.containsAny "先去博物馆，再去公园" orderedMarkers = true := by decide
    have found : (ruleConstraints .plain (fun _ => 2) "先去博物馆，再去公园").hard
        .requiredTaskOrder = ([0, 1] : List Int) := rule_order marked
    rw [text]
    exact found
  have erased : (intentConstraints (fallbackConstraints .plain (fun _ => 2) "timeout"
      updated.text) updated).hard .requiredTaskOrder = ([] : List Int) := by
    rw [intentConstraints, present]
    exact framed.hard .requiredTaskOrder (by decide) unset
  have ordered : ([0, 1] : List Int) ≠ [] := List.cons_ne_nil _ _
  have certain : (intentConstraints (fallbackConstraints .plain (fun _ => 2) "timeout"
      updated.text) updated).uncertain = [] := by
    rw [intentConstraints, present]
    exact framed.uncertain
  refine ⟨updated, answered, parsed, erased, certain, fun keeps => ?_⟩
  have kept := keeps.hard .requiredTaskOrder (by decide) unset (by rw [parsed]; exact ordered)
  exact ordered (parsed.symm.trans (kept.symm.trans erased))

end MapGo.Conversation
