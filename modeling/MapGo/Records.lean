import MapGo.Json

/-! Formats of JSON values, each with what it writes and reads back, and records whose fields
have formats of their own. A record is a function of its fields, so that one field is read without
regard to the others. -/
namespace MapGo

/-- `dump` writes a value; `validate` reads what it writes, and possibly more. -/
structure Format (α : Type) where
  validate : Json → Option α
  dump : α → Json
  validate_dump : ∀ a, validate (dump a) = some a

namespace Format
variable {α : Type}

def any : Format Json where
  validate := some
  dump := id
  validate_dump _ := rfl

def text : Format String where
  validate
    | .str value => some value
    | _ => none
  dump := .str
  validate_dump _ := rfl

def nullable (f : Format α) (written : ∀ a, f.dump a ≠ .null) : Format (Option α) where
  validate
    | .null => some none
    | value => (f.validate value).map some
  dump
    | none => .null
    | some a => f.dump a
  validate_dump a := by
    cases a with
    | none => rfl
    | some a =>
        have some_value := f.validate_dump a
        dsimp only
        split
        next null => exact absurd null (written a)
        next => rw [some_value, Option.map_some]

/-- Only values with a property are valid. -/
def restrict (f : Format α) (p : α → Prop) [DecidablePred p] : Format {a // p a} where
  validate value := (f.validate value).bind fun a => if valid : p a then some ⟨a, valid⟩ else none
  dump a := f.dump a.val
  validate_dump a := by
    rw [f.validate_dump, Option.bind_some, dif_pos a.property]

theorem mapM_dump {β : Type} {write : α → β} {read : β → Option α}
    (back : ∀ a, read (write a) = some a) (items : List α) :
    (items.map write).mapM read = some items := by
  induction items with
  | nil => rfl
  | cons a rest ih =>
      rw [List.map_cons, List.mapM_cons, back a, ih]
      rfl

def list (f : Format α) : Format (List α) where
  validate
    | .array items => items.mapM f.validate
    | _ => none
  dump items := .array (items.map f.dump)
  validate_dump items := mapM_dump f.validate_dump items

def readEntry (f : Format α) (entry : String × Json) : Option (String × α) :=
  (f.validate entry.2).map (entry.1, ·)

/-- A dictionary with values of one format. -/
def dict (f : Format α) : Format (List (String × α)) where
  validate
    | .object entries => entries.mapM f.readEntry
    | _ => none
  dump items := .object (items.map fun item => (item.1, f.dump item.2))
  validate_dump items := by
    refine mapM_dump (fun item => ?_) items
    rw [readEntry, f.validate_dump, Option.map_some]

end Format

/-- The fields of a record, each under a key, with its default if it has one. -/
structure Schema where
  Field : Type
  fields : List Field
  key : Field → String
  Value : Field → Type
  format : ∀ f, Format (Value f)
  initial : ∀ f, Option (Value f)
  complete : ∀ f, f ∈ fields
  distinct : Function.Injective key

namespace Schema
variable (S : Schema)

/-- A valid record. -/
abbrev Model := ∀ f, S.Value f

def field (d : Dict) (f : S.Field) : Option (S.Value f) :=
  match d.lookup (S.key f) with
  | some value => (S.format f).validate value
  | none => S.initial f

/-- All values, or nothing. -/
def collect (values : ∀ f, Option (S.Value f)) : Option S.Model :=
  if all : ∀ f ∈ S.fields, (values f).isSome then
    some fun f => (values f).get (all f (S.complete f))
  else none

/-- No key is unknown, and every field is valid. -/
def validate : Json → Option S.Model
  | .object d =>
      if ∀ name ∈ d.map Prod.fst, name ∈ S.fields.map S.key then S.collect (S.field d) else none
  | _ => none

def entries (m : S.Model) : Dict :=
  S.fields.map fun f => (S.key f, (S.format f).dump (m f))

variable {S} {d : Dict} {m later : S.Model} {f other : S.Field}

theorem collect_eq_some_iff {values : ∀ f, Option (S.Value f)} :
    S.collect values = some m ↔ ∀ f, values f = some (m f) := by
  unfold collect
  constructor
  · intro collected f
    split at collected
    next all =>
      cases collected
      simp
    next => contradiction
  · intro each
    have all : ∀ f ∈ S.fields, (values f).isSome := fun f _ => by rw [each f]; rfl
    rw [dif_pos all]
    refine congrArg some (funext fun f => Option.get_of_eq_some _ (each f))

/-- Validation looks at each field by itself. -/
theorem validate_object_iff : S.validate (.object d) = some m ↔
    (∀ name ∈ d.map Prod.fst, name ∈ S.fields.map S.key) ∧ ∀ f, S.field d f = some (m f) := by
  rw [← collect_eq_some_iff, validate]
  split
  next known => exact (and_iff_right known).symm
  next unknown => exact iff_of_false (by simp) fun both => unknown both.1

theorem lookup_fields {β : Type} {write : S.Field → β} {fields : List S.Field}
    (member : f ∈ fields) :
    (fields.map fun g => (S.key g, write g)).lookup (S.key f) = some (write f) := by
  induction fields with
  | nil => contradiction
  | cons g rest ih =>
      rw [List.map_cons, List.lookup_cons]
      by_cases same : S.key f = S.key g
      · obtain rfl := S.distinct same
        simp
      · have apart : (S.key f == S.key g) = false := by simpa using same
        have later : f ∈ rest :=
          (List.mem_cons.mp member).resolve_left fun equal => same (congrArg S.key equal)
        rw [apart]
        exact ih later

@[simp] theorem lookup_entries :
    (S.entries m).lookup (S.key f) = some ((S.format f).dump (m f)) :=
  lookup_fields (S.complete f)

@[simp] theorem keys_entries : (S.entries m).map Prod.fst = S.fields.map S.key := by
  rw [entries, List.map_map]
  rfl

theorem field_entries : S.field (S.entries m) f = some (m f) := by
  rw [field, lookup_entries]
  exact (S.format f).validate_dump (m f)

/-- Records are compared by what they dump. -/
theorem entries_inj : S.entries m = S.entries later ↔ m = later := by
  constructor
  · intro same
    funext f
    have read : S.field (S.entries m) f = some (later f) := by rw [same, field_entries]
    exact Option.some.inj (field_entries.symm.trans read)
  · exact congrArg S.entries

instance : DecidableEq S.Model := fun _ _ => decidable_of_iff _ entries_inj

def formatted : Format S.Model where
  validate := S.validate
  dump m := .object (S.entries m)
  validate_dump m := by
    rw [validate_object_iff, keys_entries]
    exact ⟨fun _ member => member, fun _ => field_entries⟩

theorem field_of_lookup_eq {e : Dict} (same : e.lookup (S.key f) = d.lookup (S.key f)) :
    S.field e f = S.field d f := by
  rw [field, same, field]

/-- What a dictionary says about each field, unknown entries aside. -/
def Reads (S : Schema) (d : Dict) (m : S.Model) : Prop := ∀ f, S.field d f = some (m f)

theorem reads_entries : S.Reads (S.entries m) m := fun _ => field_entries

theorem reads_of_validate (valid : S.validate (.object d) = some m) : S.Reads d m :=
  (validate_object_iff.mp valid).2

theorem field_of_lookup {value : Json} (found : d.lookup (S.key f) = some value) :
    S.field d f = (S.format f).validate value := by
  rw [field, found]

/-- A change under one key is a change of its field alone. -/
theorem Reads.frame {e : Dict} (before : S.Reads d m) (after : S.Reads e later)
    (same : e.lookup (S.key f) = d.lookup (S.key f)) : later f = m f := by
  have read := after f
  rw [field_of_lookup_eq same, before f] at read
  exact (Option.some.inj read).symm

/-- A new entry is read by its own field; the others stay. -/
theorem field_put_of_ne {value : Json} (different : other ≠ f) :
    S.field (d.put (S.key f) value) other = S.field d other :=
  field_of_lookup_eq (Dict.lookup_put_of_ne (S.distinct.ne different))

theorem field_put_self {value : Json} :
    S.field (d.put (S.key f) value) f = (S.format f).validate value := by
  rw [field, Dict.lookup_put_self]

/-- A dictionary without unknown entries stays valid with a valid entry under a known key. -/
theorem validate_put {value : Json} {a : S.Value f}
    (known : ∀ name ∈ d.map Prod.fst, name ∈ S.fields.map S.key) (reads : S.Reads d m)
    (valid : (S.format f).validate value = some a) :
    ∃ later, S.validate (.object (d.put (S.key f) value)) = some later := by
  classical
  refine ⟨Function.update m f a, validate_object_iff.mpr ⟨?_, fun g => ?_⟩⟩
  · intro name member
    rcases Dict.mem_keys_put.mp member with old | rfl
    · exact known name old
    · exact List.mem_map_of_mem (S.complete f)
  · by_cases same : g = f
    · subst same
      rw [field_put_self, valid, Function.update_self]
    · rw [field_put_of_ne same, reads g, Function.update_of_ne same]

end Schema
end MapGo
