import MapGo.Conversation.Questions

/-! Which questions of a planning run can be answered. The intent stage and the search stage ask for
fields of the request; the route tools, the critic and the confirmation gate ask for fields that a
continuation refuses. -/
namespace MapGo.Conversation

variable {T : Texts} {L : Leaves} {stored : PlanRequest L} {field : String}

/-- Some answer to the field is let through, applied, and valid with the stored request. -/
def Answerable (T : Texts) (stored : PlanRequest L) (field : String) : Prop :=
  ∃ value, (updatedRequest T L stored [(field, value)]).isSome = true

theorem unanswerable (refused : supportedField field = false) : ¬ Answerable T stored field := by
  rintro ⟨value, answered⟩
  rw [updatedRequest, if_neg (by simp [refused])] at answered
  contradiction

/-- An answer that becomes a valid entry of the request. -/
theorem answerable_of_put {f : RequestField} {value entry : Json} {a : (aiPlanRequest L).Value f}
    (supported : supportedField field = true)
    (applied : applyClarificationAnswer T ((aiPlanRequest L).entries stored) field value =
      some (((aiPlanRequest L).entries stored).put f.key entry))
    (valid : ((aiPlanRequest L).format f).validate entry = some a) :
    Answerable T stored field := by
  have known : ∀ name ∈ ((aiPlanRequest L).entries stored).map Prod.fst,
      name ∈ (aiPlanRequest L).fields.map (aiPlanRequest L).key := by
    rw [Schema.keys_entries]
    exact fun _ member => member
  obtain ⟨later, checked⟩ := Schema.validate_put (S := aiPlanRequest L) known
    Schema.reads_entries valid
  have whole : (((aiPlanRequest L).entries stored).put f.key entry).filter (fun entry =>
      entry.1 ∈ (aiPlanRequest L).fields.map (aiPlanRequest L).key) =
        ((aiPlanRequest L).entries stored).put f.key entry := by
    apply List.filter_eq_self.mpr
    intro item member
    apply decide_eq_true
    rcases Dict.mem_keys_put.mp (List.mem_map_of_mem member) with old | new
    · exact known _ old
    · rw [new]
      exact List.mem_map_of_mem ((aiPlanRequest L).complete f)
  have updated : updatedRequest T L stored [(field, value)] = some later := by
    rw [updatedRequest, if_pos (by simpa using supported), applyAnswers, List.foldlM_cons, applied]
    simp only [List.foldlM_nil, Option.pure_def, Option.bind_eq_bind, Option.bind_some]
    rw [whole]
    exact checked
  exact ⟨value, by rw [updated]; rfl⟩

def somewhere (L : Leaves) : (coordinate L).Model
  | .lng => (⟨0, by norm_num⟩ : {q : ℚ // -180 ≤ q ∧ q ≤ 180})
  | .lat => (⟨0, by norm_num⟩ : {q : ℚ // -90 ≤ q ∧ q ≤ 90})

theorem origin_applied (data : Dict) (value : Json) :
    applyClarificationAnswer T data "origin" value = some (data.put "origin" value) := by
  have confirmation : Text.hasPrefix "origin" "human_confirmation." = false := by decide
  have own : "origin" ∈ ["origin", "departure_time", "transport_mode"] := by decide
  unfold applyClarificationAnswer
  rw [if_neg (by simp [confirmation]), if_pos own]

theorem answerable_origin : Answerable T stored "origin" := by
  have supported : supportedField "origin" = true := by decide
  have valid := ((aiPlanRequest L).format .origin).validate_dump (some (somewhere L))
  exact answerable_of_put supported (origin_applied _ _) valid

/-- The constraint set that an answer changes has no unknown entries. -/
theorem ensured_known (stored : PlanRequest L) :
    ∃ hard, Ensured L ((aiPlanRequest L).entries stored) (ownConstraints stored) hard ∧
    (∀ name ∈ (ensureHardConstraints ((aiPlanRequest L).entries stored)).map Prod.fst,
      name ∈ (tripConstraintSet L).fields.map (tripConstraintSet L).key) ∧
    ∀ name ∈ hard.map Prod.fst, name ∈ (hardConstraints L).fields.map (hardConstraints L).key := by
  have written : ((aiPlanRequest L).entries stored).lookup "constraints" =
      some (((tripConstraintSet L).formatted.nullable constraints_written).dump
        stored.constraints) :=
    Schema.lookup_entries (S := aiPlanRequest L) (f := .constraints)
  have both : ∀ name ∈ ["hard", "uncertain"],
      name ∈ (tripConstraintSet L).fields.map (tripConstraintSet L).key := fun _ member => member
  unfold ownConstraints
  cases own : stored.constraints with
  | none =>
      rw [own] at written
      have missing (constraints : Dict) : ((aiPlanRequest L).entries stored).lookup "constraints" ≠
          some (.object constraints) := by
        intro found
        have found : some Json.null = some (Json.object constraints) := written.symm.trans found
        exact Json.noConfusion (Option.some.inj found)
      have made : ensureHardConstraints ((aiPlanRequest L).entries stored) =
          [("hard", .object []), ("uncertain", .array [])] := by
        unfold ensureHardConstraints
        split
        next constraints found => exact absurd found (missing constraints)
        next => rfl
      refine ⟨[], ensured_default missing, ?_, List.forall_mem_nil _⟩
      rw [made]
      exact both
  | some constraints =>
      rw [own] at written
      have written : ((aiPlanRequest L).entries stored).lookup "constraints" =
          some (.object ((tripConstraintSet L).entries constraints)) := written
      refine ⟨_, ensured_stored written, ?_, ?_⟩
      · unfold ensureHardConstraints
        rw [written]
        intro name member
        rcases Dict.mem_keys_setdefault.mp member with put | rfl
        · rcases Dict.mem_keys_put.mp put with old | rfl
          · rwa [Schema.keys_entries] at old
          · exact both _ (by decide)
        · exact both _ (by decide)
      · rw [Schema.keys_entries]
        exact fun _ member => member

/-- A request takes a valid constraint set. -/
theorem constraints_valid {d : Dict} {constraints : ConstraintSet L}
    (valid : (tripConstraintSet L).validate (.object d) = some constraints) :
    ((aiPlanRequest L).format .constraints).validate (.object d) = some (some constraints) := by
  have read : ((tripConstraintSet L).formatted.nullable constraints_written).validate (.object d) =
      ((tripConstraintSet L).validate (.object d)).map some := rfl
  exact read.trans (congrArg (Option.map some) valid)

/-- With a valid hard constraint the constraint set stays valid. -/
theorem ensured_valid {data hard : Dict} {own : ConstraintSet L} {f : HardField}
    {value : Json} {a : (hardConstraints L).Value f} (ensured : Ensured L data own hard)
    (knownSet : ∀ name ∈ (ensureHardConstraints data).map Prod.fst,
      name ∈ (tripConstraintSet L).fields.map (tripConstraintSet L).key)
    (knownHard : ∀ name ∈ hard.map Prod.fst,
      name ∈ (hardConstraints L).fields.map (hardConstraints L).key)
    (valid : ((hardConstraints L).format f).validate value = some a) :
    ∃ later, (tripConstraintSet L).validate (.object ((ensureHardConstraints data).put "hard"
      (.object (hard.put f.key value)))) = some later := by
  obtain ⟨changed, checked⟩ := Schema.validate_put knownHard ensured.reads valid
  have reads : (tripConstraintSet L).Reads (ensureHardConstraints data) own := by
    intro part
    cases part with
    | hard =>
        exact (Schema.field_of_lookup (S := tripConstraintSet L) (f := .hard) ensured.found).trans
          (Schema.validate_object_iff.mpr ⟨knownHard, ensured.reads⟩)
    | uncertain =>
        obtain ⟨items, found, read⟩ := ensured.uncertain
        exact (Schema.field_of_lookup (S := tripConstraintSet L) (f := .uncertain) found).trans read
  have entry : ((tripConstraintSet L).format .hard).validate (.object (hard.put f.key value)) =
      some changed := checked
  exact Schema.validate_put (S := tripConstraintSet L) (f := .hard) knownSet reads entry

/-- The field of a hard constraint. -/
def hardField (f : HardField) : String := "constraints.hard." ++ f.key

theorem hardField_applied (f : HardField) (data : Dict) (value : Json) :
    applyClarificationAnswer T data (hardField f) value =
      some (changeHard data fun hard => hard.put f.key value) := by
  have passed : Text.hasPrefix (hardField f) "human_confirmation." = false ∧
      hardField f ∉ ["origin", "departure_time", "transport_mode"] ∧
      Text.hasPrefix (hardField f) "tasks." = false ∧
      Text.hasPrefix (hardField f) "preferences." = false ∧
      Text.hasPrefix (hardField f) "constraints.hard.party." = false := by
    cases f <;> decide
  have taken : Text.hasPrefix (hardField f) "constraints.hard." = true ∧
      Text.withoutPrefix (hardField f) "constraints.hard." = f.key := by
    cases f <;> decide
  obtain ⟨confirmation, own, task, preference, party⟩ := passed
  simp only [applyClarificationAnswer, confirmation, own, task, preference, party, taken,
    Bool.false_eq_true, false_and, if_false, if_true]

/-- A hard constraint can be answered with any value of its. -/
theorem answerable_hard {f : HardField} (a : (hardConstraints L).Value f) :
    Answerable T stored (hardField f) := by
  have supported : supportedField (hardField f) = true := by cases f <;> decide
  obtain ⟨hard, ensured, knownSet, knownHard⟩ := ensured_known stored
  obtain ⟨later, checked⟩ := ensured_valid ensured knownSet knownHard (Format.validate_dump _ a)
  have child : childOrEmpty (ensureHardConstraints ((aiPlanRequest L).entries stored)) "hard" =
      hard := by
    rw [childOrEmpty, child, ensured.found]
    rfl
  have applied := hardField_applied (T := T) f ((aiPlanRequest L).entries stored)
    (((hardConstraints L).format f).dump a)
  rw [changeHard, child] at applied
  exact answerable_of_put (f := .constraints) supported applied (constraints_valid checked)

/-- A new text in a dictionary of texts. -/
theorem text_put_valid (items : List (String × String)) (key text : String) :
    ∃ later, Format.text.dict.validate (.object (Dict.put
      (items.map fun item => (item.1, Json.str item.2)) key (.str text))) = some later := by
  have rewritten : ∃ later : List (String × String), Dict.put
      (items.map fun item => (item.1, Json.str item.2)) key (.str text) =
        later.map fun item => (item.1, Json.str item.2) := by
    unfold Dict.put
    split
    · refine ⟨items.map fun item => if item.1 = key then (key, text) else item, ?_⟩
      rw [List.map_map, List.map_map]
      apply List.map_congr_left
      intro item _
      by_cases same : item.1 = key
      · simp [same]
      · simp [same]
    · exact ⟨items ++ [(key, text)], by simp⟩
  obtain ⟨later, same⟩ := rewritten
  rw [same]
  exact ⟨later, Format.validate_dump Format.text.dict later⟩

/-- An answer that is a text in a dictionary of the request. -/
theorem answerable_override {f : RequestField} {index : String} {items : List (String × String)}
    (supported : supportedField field = true)
    (stores : ((aiPlanRequest L).entries stored).lookup f.key =
      some (.object (items.map fun item => (item.1, Json.str item.2))))
    (reads : ∀ value later, Format.text.dict.validate value = some later →
      ∃ a, ((aiPlanRequest L).format f).validate value = some a)
    (changes : ∀ data value, applyClarificationAnswer T data field value =
      putUnder data f.key index value) : Answerable T stored field := by
  obtain ⟨later, read⟩ := text_put_valid items index ""
  obtain ⟨a, valid⟩ := reads _ later read
  have applied := changes ((aiPlanRequest L).entries stored) (.str "")
  rw [putUnder, child, stores] at applied
  exact answerable_of_put supported applied valid

theorem choiceField_applied {index : Nat} (known : index < maxPlanningTasks) (data : Dict)
    (value : Json) : applyClarificationAnswer T data (choiceField index) value =
      putUnder data "task_poi_overrides" (toString index) value := by
  have passed : ∀ index < maxPlanningTasks,
      Text.hasPrefix (choiceField index) "human_confirmation." = false ∧
      choiceField index ∉ ["origin", "departure_time", "transport_mode"] ∧
      Text.hasSuffix (choiceField index) ".location" = false := by
    decide +kernel
  have taken : ∀ index < maxPlanningTasks, Text.hasPrefix (choiceField index) "tasks." = true ∧
      Text.hasSuffix (choiceField index) ".selected_poi_id" = true ∧
      taskIndex (choiceField index) = some (toString index) := by
    decide +kernel
  obtain ⟨confirmation, own, location⟩ := passed index known
  obtain ⟨task, chosen, place⟩ := taken index known
  simp only [applyClarificationAnswer, confirmation, own, location, task, chosen, place,
    Bool.false_eq_true, and_false, and_self, if_false, if_true, Option.bind_some]

theorem locationField_applied {index : Nat} (known : index < maxPlanningTasks) (data : Dict)
    (value : Json) : applyClarificationAnswer T data (locationField index) value =
      putUnder data "task_location_overrides" (toString index) value := by
  have passed : ∀ index < maxPlanningTasks,
      Text.hasPrefix (locationField index) "human_confirmation." = false ∧
      locationField index ∉ ["origin", "departure_time", "transport_mode"] := by
    decide +kernel
  have taken : ∀ index < maxPlanningTasks, Text.hasPrefix (locationField index) "tasks." = true ∧
      Text.hasSuffix (locationField index) ".location" = true ∧
      taskIndex (locationField index) = some (toString index) := by
    decide +kernel
  obtain ⟨confirmation, own⟩ := passed index known
  obtain ⟨task, location, place⟩ := taken index known
  simp only [applyClarificationAnswer, confirmation, own, task, location, place,
    Bool.false_eq_true, and_self, if_false, if_true, Option.bind_some]

theorem answerable_place (place : PlaceField field) : Answerable T stored field := by
  have supported : ∀ index < maxPlanningTasks, supportedField (choiceField index) = true ∧
      supportedField (locationField index) = true := by
    decide +kernel
  obtain ⟨index, known, rfl | rfl⟩ := place
  · have stores := Schema.lookup_entries (S := aiPlanRequest L) (m := stored)
      (f := .taskPoiOverrides)
    exact answerable_override (f := .taskPoiOverrides) (supported index known).1 stores
      (fun _ later read => ⟨later, read⟩) (choiceField_applied known)
  · have stores := Schema.lookup_entries (S := aiPlanRequest L) (m := stored)
      (f := .taskLocationOverrides)
    exact answerable_override (f := .taskLocationOverrides) (supported index known).2 stores
      (fun _ later read => ⟨later, read⟩) (locationField_applied known)

theorem answerable_required (required : field ∈ requiredFields) : Answerable T stored field := by
  simp only [requiredFields, List.mem_cons, List.not_mem_nil, or_false] at required
  rcases required with rfl | rfl | rfl
  · exact answerable_origin
  · exact answerable_hard (f := .wheelchairAccessible) true
  · exact answerable_hard (f := .maxWalkingMeters) none

end MapGo.Conversation
