import MapGo.JsonPath

/-! The minimization of payloads for the audit. Mappings that look like a coordinate, secrets and
raw texts give way to markers, long strings are cut, and nothing else changes. -/
namespace MapGo.Agents

open Json (Step)

/-- `REDACTED_COORDINATE` -/
def redactedCoordinate : Json :=
  .object [("redacted", .str "coordinate"), ("reason", .str "agent_artifact_minimized")]

def redactedValue : Json := .str "[REDACTED]"

def redactedText : Json := .str "[REDACTED_TEXT]"

def maxAgentArtifactStringLength : Nat := 800

def truncationSuffix : String := "...[truncated]"

def secretKeys : List String :=
  ["authorization", "token", "access_token", "refresh_token", "password", "secret", "api_key",
    "amap_key", "amap_jscode", "jscode", "location_encryption_key"]

def rawTextKeys : List String := ["text", "input_text", "raw_text", "user_text"]

/-- `str.lower`, as far as it produces Latin letters: those of ASCII, the Kelvin sign and the
dotted I. -/
def lower (text : String) : String :=
  String.ofList (text.toList.flatMap fun c =>
    match c.toNat with
    | 0x212A => ['k']
    | 0x0130 => ['i', Char.ofNat 0x0307]
    | _ => [c.toLower])

def secretKey (key : String) : Bool :=
  secretKeys.contains (lower key) ||
    ["_token", "_secret", "_key"].any fun ending => ending.toList.isSuffixOf (lower key).toList

def rawTextKey (key : String) : Bool := rawTextKeys.contains (lower key)

/-- `_looks_like_coordinate` -/
def looksLikeCoordinate (entries : Dict) : Bool :=
  let has (key : String) := entries.any fun entry => entry.1 == key
  (has "lng" && has "lat") || (has "longitude" && has "latitude")

def shorten (text : String) : String :=
  if maxAgentArtifactStringLength < text.length then
    String.ofList (text.toList.take maxAgentArtifactStringLength) ++ truncationSuffix
  else text

mutual

/-- `minimize_agent_payload` -/
def minimize : Json → Json
  | .object entries =>
      if looksLikeCoordinate entries then redactedCoordinate else .object (minimizeEntries entries)
  | .array items => .array (minimizeItems items)
  | .str text => .str (shorten text)
  | value => value

def minimizeItems : List Json → List Json
  | [] => []
  | item :: rest => minimize item :: minimizeItems rest

def minimizeEntries : List (String × Json) → List (String × Json)
  | [] => []
  | (key, item) :: rest =>
      (key,
        if secretKey key then redactedValue
        else if rawTextKey key then redactedText
        else minimize item) :: minimizeEntries rest

end

/-- What a mapping holds under a key. -/
def minimizeEntry (key : String) (item : Json) : Json :=
  if secretKey key then redactedValue else if rawTextKey key then redactedText else minimize item

/-- A key whose value is withheld. -/
def withheld (key : String) : Bool := secretKey key || rawTextKey key

mutual

/-- Two values differ only in secrets, raw texts and coordinates. -/
def Alike : Json → Json → Prop
  | .object entries, .object others =>
      (looksLikeCoordinate entries = true ∧ looksLikeCoordinate others = true) ∨
        AlikeEntries entries others
  | .array items, .array others => AlikeItems items others
  | value, other => value = other

def AlikeItems : List Json → List Json → Prop
  | [], [] => True
  | item :: rest, other :: others => Alike item other ∧ AlikeItems rest others
  | _, _ => False

def AlikeEntries : List (String × Json) → List (String × Json) → Prop
  | [], [] => True
  | (key, item) :: rest, (name, other) :: others =>
      key = name ∧ (withheld key = true ∨ Alike item other) ∧ AlikeEntries rest others
  | _, _ => False

end

/-- No mapping on the path looks like a coordinate, and no key on it is withheld. -/
def Exposed : Json → List Step → Prop
  | _, [] => True
  | value, step :: rest =>
      (∀ entries key, value = .object entries → step = .key key →
        looksLikeCoordinate entries = false ∧ withheld key = false) ∧
      ∀ next ∈ value.child step, Exposed next rest

/-- The outline of a value: its kind, its length or keys, and what it is if it has no parts. -/
def SameOutline : Json → Json → Prop
  | .object entries, other => looksLikeCoordinate entries = false →
      ∃ others, other = .object others ∧ others.map Prod.fst = entries.map Prod.fst
  | .array items, other => ∃ others, other = .array others ∧ others.length = items.length
  | .str text, other => other = .str (shorten text)
  | value, other => other = value

section
variable {value other node : Json} {entries others : Dict} {items : List Json} {key text : String}
  {path : List Step}

theorem minimizeItems_eq_map (items : List Json) : minimizeItems items = items.map minimize := by
  induction items with
  | nil => rfl
  | cons item rest ih => rw [minimizeItems, ih, List.map_cons]

theorem minimizeEntries_eq_map (entries : Dict) :
    minimizeEntries entries = entries.map fun entry => (entry.1, minimizeEntry entry.1 entry.2) := by
  induction entries with
  | nil => rfl
  | cons entry rest ih => rw [minimizeEntries, ih, List.map_cons, minimizeEntry]

theorem keys_minimizeEntries (entries : Dict) :
    (minimizeEntries entries).map Prod.fst = entries.map Prod.fst := by
  rw [minimizeEntries_eq_map, List.map_map]
  rfl

/-- Whether a mapping looks like a coordinate is a matter of its keys. -/
theorem looksLikeCoordinate_congr (same : others.map Prod.fst = entries.map Prod.fst) :
    looksLikeCoordinate others = looksLikeCoordinate entries := by
  have has (key : String) : others.any (fun entry => entry.1 == key) =
      entries.any fun entry => entry.1 == key := by
    have mapped := congrArg (fun keys : List String => keys.any fun name => name == key) same
    simp only [List.any_map, Function.comp_def] at mapped
    exact mapped
  simp only [looksLikeCoordinate, has]

theorem length_shorten (text : String) :
    (shorten text).length ≤ maxAgentArtifactStringLength + truncationSuffix.length := by
  unfold shorten
  split
  · rw [String.length_append, String.length_ofList, List.length_take]
    omega
  · omega

/-- A cut string is cut at the same place again. -/
theorem shorten_shorten (text : String) : shorten (shorten text) = shorten text := by
  by_cases long : maxAgentArtifactStringLength < text.length
  · have cut : shorten text =
        String.ofList (text.toList.take maxAgentArtifactStringLength) ++ truncationSuffix := by
      rw [shorten, if_pos long]
    have size : (text.toList.take maxAgentArtifactStringLength).length =
        maxAgentArtifactStringLength := by
      rw [List.length_take, String.length_toList]
      omega
    have still : maxAgentArtifactStringLength < (shorten text).length := by
      rw [cut, String.length_append, String.length_ofList, size]
      exact Nat.lt_add_of_pos_right (by decide)
    have head : (shorten text).toList.take maxAgentArtifactStringLength =
        text.toList.take maxAgentArtifactStringLength := by
      rw [cut, String.toList_append, String.toList_ofList, List.take_append_of_le_length size.ge,
        List.take_take, min_self]
    rw [shorten, if_pos still, head, ← cut]
  · have short : shorten text = text := by rw [shorten, if_neg long]
    rw [short, short]

theorem minimize_redactedCoordinate : minimize redactedCoordinate = redactedCoordinate := by
  decide +kernel

theorem minimizeEntry_minimizeEntry (idempotent : minimize (minimize value) = minimize value) :
    minimizeEntry key (minimizeEntry key value) = minimizeEntry key value := by
  unfold minimizeEntry
  split
  · rfl
  · split
    · rfl
    · exact idempotent

mutual

theorem minimize_minimize : ∀ value : Json, minimize (minimize value) = minimize value
  | .object entries => by
      by_cases located : looksLikeCoordinate entries = true
      · rw [minimize, if_pos located, minimize_redactedCoordinate]
      · have still : ¬ looksLikeCoordinate (minimizeEntries entries) = true := by
          rwa [looksLikeCoordinate_congr (keys_minimizeEntries entries)]
        rw [minimize, if_neg located, minimize, if_neg still, minimizeEntries_twice entries]
  | .array items => by rw [minimize, minimize, minimizeItems_twice items]
  | .str text => by rw [minimize, minimize, shorten_shorten]
  | .null => rfl
  | .bool _ => rfl
  | .number _ => rfl

theorem minimizeItems_twice : ∀ items : List Json,
    minimizeItems (minimizeItems items) = minimizeItems items
  | [] => rfl
  | item :: rest => by
      rw [minimizeItems, minimizeItems, minimize_minimize item, minimizeItems_twice rest]

theorem minimizeEntries_twice : ∀ entries : List (String × Json),
    minimizeEntries (minimizeEntries entries) = minimizeEntries entries
  | [] => rfl
  | (key, item) :: rest => by
      have again : minimizeEntry key (minimizeEntry key item) = minimizeEntry key item :=
        minimizeEntry_minimizeEntry (minimize_minimize item)
      simp only [minimizeEntry] at again
      rw [minimizeEntries, minimizeEntries, minimizeEntries_twice rest, again]

end

mutual

theorem minimize_congr : ∀ value other : Json, Alike value other → minimize value = minimize other
  | .object entries, .object others, alike => by
      rw [Alike] at alike
      rcases alike with ⟨located, moved⟩ | alike
      · rw [minimize, minimize, if_pos located, if_pos moved]
      · obtain ⟨keys, same⟩ := minimizeEntries_congr entries others alike
        rw [minimize, minimize, same, looksLikeCoordinate_congr keys]
  | .array items, .array others, alike => by
      rw [Alike] at alike
      rw [minimize, minimize, minimizeItems_congr items others alike]
  | .object _, .null, alike | .object _, .bool _, alike | .object _, .number _, alike
  | .object _, .str _, alike | .object _, .array _, alike | .array _, .null, alike
  | .array _, .bool _, alike | .array _, .number _, alike | .array _, .str _, alike
  | .array _, .object _, alike => by simp [Alike] at alike
  | .null, _, alike | .bool _, _, alike | .number _, _, alike | .str _, _, alike => by
      rw [Alike] at alike
      · rw [alike]
      all_goals simp

theorem minimizeItems_congr : ∀ items others : List Json, AlikeItems items others →
    minimizeItems items = minimizeItems others
  | [], [], _ => rfl
  | item :: rest, other :: others, alike => by
      rw [AlikeItems] at alike
      rw [minimizeItems, minimizeItems, minimize_congr item other alike.1,
        minimizeItems_congr rest others alike.2]
  | [], _ :: _, alike | _ :: _, [], alike => by simp [AlikeItems] at alike

theorem minimizeEntries_congr : ∀ entries others : List (String × Json),
    AlikeEntries entries others →
      entries.map Prod.fst = others.map Prod.fst ∧ minimizeEntries entries = minimizeEntries others
  | [], [], _ => ⟨rfl, rfl⟩
  | (key, item) :: rest, (name, other) :: others, alike => by
      rw [AlikeEntries] at alike
      obtain ⟨rfl, here, later⟩ := alike
      obtain ⟨keys, same⟩ := minimizeEntries_congr rest others later
      refine ⟨congrArg (key :: ·) keys, ?_⟩
      rw [minimizeEntries, minimizeEntries, same]
      rcases here with hidden | alike
      · rcases Bool.or_eq_true_iff.mp hidden with secret | raw
        · rw [if_pos secret, if_pos secret]
        · rw [if_pos raw, if_pos raw]
      · rw [minimize_congr item other alike]
  | [], _ :: _, alike | _ :: _, [], alike => by simp [AlikeEntries] at alike

end

/-- Raw texts are no secrets. -/
theorem rawText_not_secret (raw : rawTextKey key = true) : secretKey key = false := by
  have apart : ∀ word ∈ rawTextKeys, (secretKeys.contains word ||
      ["_token", "_secret", "_key"].any fun ending =>
        ending.toList.isSuffixOf word.toList) = false := by decide
  exact apart _ (List.contains_iff_mem.mp raw)

theorem minimize_object_entries (shape : minimize value = .object entries) :
    looksLikeCoordinate entries = false ∧ ∀ key item, (key, item) ∈ entries →
      (secretKey key = true → item = redactedValue) ∧
      (rawTextKey key = true → item = redactedText) := by
  cases value with
  | object source =>
      rw [minimize] at shape
      split at shape
      · obtain rfl := Json.object.inj shape
        refine ⟨by decide, fun key item member => ?_⟩
        have plain : ∀ entry ∈ [("redacted", Json.str "coordinate"),
            ("reason", .str "agent_artifact_minimized")],
            secretKey entry.1 = false ∧ rawTextKey entry.1 = false := by decide +kernel
        obtain ⟨plain, readable⟩ := plain _ member
        simp [plain, readable]
      · rename_i place
        obtain rfl := Json.object.inj shape
        rw [looksLikeCoordinate_congr (keys_minimizeEntries source)]
        refine ⟨Bool.eq_false_iff.mpr place, fun key item member => ?_⟩
        rw [minimizeEntries_eq_map] at member
        obtain ⟨entry, -, same⟩ := List.mem_map.mp member
        obtain ⟨rfl, rfl⟩ := Prod.mk.inj same
        refine ⟨fun secret => if_pos secret, fun raw => ?_⟩
        rw [minimizeEntry, if_neg (Bool.eq_false_iff.mp (rawText_not_secret raw)), if_pos raw]
  | _ => simp [minimize] at shape

theorem minimize_str (shape : minimize value = .str text) :
    text.length ≤ maxAgentArtifactStringLength + truncationSuffix.length := by
  cases value with
  | object entries =>
      rw [minimize] at shape
      split at shape <;> contradiction
  | str source =>
      obtain rfl := Json.str.inj shape
      exact length_shorten source
  | _ => simp [minimize] at shape

theorem lookup_minimizeEntries (entries : Dict) (name : String) :
    (minimizeEntries entries).lookup name = (entries.lookup name).map (minimizeEntry name) := by
  induction entries with
  | nil => rfl
  | cons entry rest ih =>
      obtain ⟨key, item⟩ := entry
      rw [minimizeEntries, List.lookup_cons, List.lookup_cons, ih]
      cases here : name == key with
      | true =>
          obtain rfl := beq_iff_eq.mp here
          rfl
      | false => rfl

/-- The parts of a minimized value are minimized. -/
theorem child_minimize {step : Step} (found : (minimize value).child step = some node) :
    ∃ source, minimize source = node := by
  have entry (key : String) (item : Json) : ∃ source, minimize source = minimizeEntry key item := by
    unfold minimizeEntry
    split
    · exact ⟨redactedValue, by decide⟩
    · split
      · exact ⟨redactedText, by decide⟩
      · exact ⟨item, rfl⟩
  have member {entries : Dict} {name : String}
      (present : (minimizeEntries entries).lookup name = some node) :
      ∃ source, minimize source = node := by
    rw [lookup_minimizeEntries] at present
    obtain ⟨item, -, rfl⟩ := Option.map_eq_some_iff.mp present
    exact entry name item
  cases value with
  | object entries =>
      cases step with
      | index position =>
          rw [minimize] at found
          split at found <;> contradiction
      | key name =>
          rw [minimize] at found
          split at found
          · change List.lookup name (minimizeEntries [("redacted", .str "coordinate"),
              ("reason", .str "agent_artifact_minimized")]) = some node at found
            exact member found
          · exact member found
  | array items =>
      cases step with
      | key name => simp [minimize, Json.child] at found
      | index position =>
          rw [minimize, Json.child, minimizeItems_eq_map, List.getElem?_map] at found
          obtain ⟨item, -, rfl⟩ := Option.map_eq_some_iff.mp found
          exact ⟨item, rfl⟩
  | _ => cases step <;> simp [minimize, Json.child] at found

theorem follow_minimize (found : (minimize value).follow path = some node) :
    ∃ source, minimize source = node := by
  refine Json.follow_inherits (P := fun node => ∃ source, minimize source = node) ?_
    ⟨value, rfl⟩ found
  rintro _ step next ⟨source, rfl⟩ entered
  exact child_minimize entered

/-- An exposed part is minimized where it stands. -/
theorem follow_exposed (exposed : Exposed value path) :
    (minimize value).follow path = (value.follow path).map minimize := by
  induction path generalizing value with
  | nil => rfl
  | cons step rest ih =>
      obtain ⟨clear, onward⟩ := exposed
      have stepped : (minimize value).child step = (value.child step).map minimize := by
        cases value with
        | object entries =>
            cases step with
            | key name =>
                obtain ⟨nowhere, shown⟩ := clear entries name rfl rfl
                obtain ⟨plain, readable⟩ := Bool.or_eq_false_iff.mp shown
                have same : minimizeEntry name = minimize := by
                  funext item
                  simp [minimizeEntry, plain, readable]
                rw [minimize, if_neg (by simp [nowhere]), Json.child, lookup_minimizeEntries, same]
                rfl
            | index position =>
                rw [minimize]
                split <;> rfl
        | array items =>
            cases step with
            | key name => rfl
            | index position =>
                rw [minimize, Json.child, minimizeItems_eq_map, List.getElem?_map]
                rfl
        | _ => cases step <;> rfl
      rw [Json.follow_cons, Json.follow_cons, stepped]
      cases next : value.child step with
      | none => rfl
      | some part => exact ih (onward part next)

theorem outline_minimize (value : Json) : SameOutline value (minimize value) := by
  cases value with
  | object entries =>
      intro nowhere
      rw [minimize, if_neg (by simp [nowhere])]
      exact ⟨_, rfl, keys_minimizeEntries entries⟩
  | array items =>
      refine ⟨minimizeItems items, by rw [minimize], ?_⟩
      rw [minimizeItems_eq_map, List.length_map]
  | _ => exact rfl

end

/-- Nowhere in a minimized payload is there a coordinate, a secret, a raw text or a long string;
where nothing is withheld it has the outline of the payload; it is minimal, and payloads that
differ in withheld parts alone have the same one. -/
theorem payload_minimized (payload : Json) :
    (∀ path entries, (minimize payload).follow path = some (.object entries) →
      looksLikeCoordinate entries = false ∧ ∀ key item, (key, item) ∈ entries →
        (secretKey key = true → item = redactedValue) ∧
        (rawTextKey key = true → item = redactedText)) ∧
    (∀ path text, (minimize payload).follow path = some (.str text) →
      text.length ≤ maxAgentArtifactStringLength + truncationSuffix.length) ∧
    (∀ path, Exposed payload path →
      ((minimize payload).follow path).isSome = (payload.follow path).isSome ∧
      ∀ part kept, payload.follow path = some part → (minimize payload).follow path = some kept →
        SameOutline part kept) ∧
    minimize (minimize payload) = minimize payload ∧
    ∀ other, Alike payload other → minimize payload = minimize other := by
  refine ⟨?_, ?_, ?_, minimize_minimize payload, minimize_congr payload⟩
  · intro path entries found
    obtain ⟨source, shape⟩ := follow_minimize found
    exact minimize_object_entries shape
  · intro path text found
    obtain ⟨source, shape⟩ := follow_minimize found
    exact minimize_str shape
  · intro path exposed
    have placed := follow_exposed exposed
    refine ⟨by rw [placed, Option.isSome_map], fun part kept found follows => ?_⟩
    rw [placed, found] at follows
    obtain rfl := Option.some.inj follows
    exact outline_minimize part

end MapGo.Agents
