import Mathlib.Data.Finset.Sort
import Mathlib.Data.String.Basic
import Pelagos.Library.HashMap
import Pelagos.Library.Json

/-!
# Records and tagged enumerations in JSON

How derived serialisers write the fields of a record and how derived deserialisers read them:
skipped fields, defaults, options, internally and externally tagged variants.  A field is read back
when its name is not repeated and its codec reads back what it wrote, skipped or not.
-/

namespace Serde

/-- Why a value was not accepted. -/
inductive DecodeError where
  | invalidText
  | invalidType
  | invalidValue
  | missingField (name : String)
  | duplicateField (name : String)
  | unknownVariant (name : String)
  deriving DecidableEq

/-- Reads a JSON value. -/
abbrev Decoder (α : Type) := Json → Except DecodeError α

/-- Read a text, as `serde_json::from_str` does. -/
def fromText {α : Type} (decode : Decoder α) (text : String) : Except DecodeError α :=
  match Json.parse text with
  | none => .error .invalidText
  | some value => decode value

/-- The members of an object. -/
abbrev Members := List (String × Json)

/-- An order in which the entries of every map are visited. -/
structure MapOrder (κ υ : Type*) [DecidableEq κ] where
  entries : HashMap κ υ → List (κ × υ)
  distinct : ∀ map, ((entries map).map Prod.fst).Nodup
  complete : ∀ map key value, (key, value) ∈ entries map ↔ map.lookup key = some value

theorem sublist_entries {κ υ : Type*} (lookup : κ → Option υ) (keys : List κ) :
    ((keys.filterMap fun key => (lookup key).map fun value => (key, value)).map Prod.fst).Sublist
      keys := by
  induction keys with
  | nil => exact List.Sublist.refl _
  | cons key keys ih =>
      cases found : lookup key with
      | none => simpa [found] using ih.cons key
      | some value => simpa [found] using ih.cons_cons key

theorem mem_entries_iff {κ υ : Type*} {lookup : κ → Option υ} {keys : List κ} {key : κ} {value : υ}
    (listed : lookup key = some value → key ∈ keys) :
    (key, value) ∈ (keys.filterMap fun key => (lookup key).map fun value => (key, value)) ↔
      lookup key = some value := by
  rw [List.mem_filterMap]
  constructor
  · rintro ⟨other, -, entry⟩
    obtain ⟨_, found, same⟩ := Option.map_eq_some_iff.mp entry
    obtain ⟨rfl, rfl⟩ := Prod.mk.inj same
    exact found
  · intro found
    exact ⟨key, listed found, by simp [found]⟩

theorem mem_sort_keys {υ : Type*} {map : HashMap String υ} {key : String} {value : υ}
    (found : map.lookup key = some value) : key ∈ map.keys.sort (· ≤ ·) := by
  rw [Finset.mem_sort, Finmap.mem_keys, HashMap.mem_iff_lookup_ne_none, found]
  exact Option.some_ne_none value

/-- The entries of a map of texts, sorted by key. -/
def MapOrder.sorted (υ : Type*) : MapOrder String υ where
  entries map :=
    (map.keys.sort (· ≤ ·)).filterMap fun key => (map.lookup key).map fun value => (key, value)
  distinct map := (sublist_entries map.lookup _).nodup (Finset.sort_nodup _ _)
  complete _ _ _ := mem_entries_iff mem_sort_keys

/-- An order that starts with certain keys, where the map has them. -/
def MapOrder.startingWith (υ : Type*) (first : List String) (first_distinct : first.Nodup) :
    MapOrder String υ where
  entries map :=
    (first ++ (map.keys.sort (· ≤ ·)).filter (· ∉ first)).filterMap fun key =>
      (map.lookup key).map fun value => (key, value)
  distinct map := by
    refine (sublist_entries map.lookup _).nodup (List.nodup_append.mpr
      ⟨first_distinct, (Finset.sort_nodup _ _).filter _, fun key in_first other in_rest => ?_⟩)
    rintro rfl
    simp [in_first] at in_rest
  complete map key value := by
    refine mem_entries_iff fun found => ?_
    by_cases in_first : key ∈ first
    · exact List.mem_append_left _ in_first
    · exact List.mem_append_right _ (List.mem_filter.mpr ⟨mem_sort_keys found, by simpa⟩)

-- The two rules of `Except` are not proved by `rfl`: simp would then leave the evaluation of the
-- decoders to the kernel.
@[simp]
theorem ok_bind {α β : Type} (value : α) (next : α → Except DecodeError β) :
    (Except.ok value >>= next) = next value := by
  simp only [bind, Except.bind]

@[simp]
theorem pure_eq_ok {α : Type} (value : α) : (pure value : Except DecodeError α) = .ok value := by
  simp only [pure, Except.pure]

/-! ## Values -/

section Values

variable {α : Type}

def string : Decoder String
  | .string text => .ok text
  | _ => .error .invalidType

def bool : Decoder Bool
  | .bool value => .ok value
  | _ => .error .invalidType

def uint16 : Decoder UInt16
  | .integer value =>
      if 0 ≤ value ∧ value < 2 ^ 16 then .ok (UInt16.ofNat value.toNat) else .error .invalidValue
  | _ => .error .invalidType

def uint32 : Decoder UInt32
  | .integer value =>
      if 0 ≤ value ∧ value < 2 ^ 32 then .ok (UInt32.ofNat value.toNat) else .error .invalidValue
  | _ => .error .invalidType

def uint64 : Decoder UInt64
  | .integer value =>
      if 0 ≤ value ∧ value < 2 ^ 64 then .ok (UInt64.ofNat value.toNat) else .error .invalidValue
  | _ => .error .invalidType

def int32 : Decoder Int32
  | .integer value =>
      if -2 ^ 31 ≤ value ∧ value < 2 ^ 31 then .ok (Int32.ofInt value) else .error .invalidValue
  | _ => .error .invalidType

def option (decode : Decoder α) : Decoder (Option α)
  | .null => .ok none
  | value => some <$> decode value

def list (decode : Decoder α) : Decoder (List α)
  | .array items => items.mapM decode
  | _ => .error .invalidType

/-- A map; a later entry replaces an earlier one of the same key. -/
def map (decode : Decoder α) : Decoder (HashMap String α)
  | .object members =>
      members.foldlM (fun map member => do return map.insert member.1 (← decode member.2)) ∅
  | _ => .error .invalidType

def ofUInt16 (value : UInt16) : Json := .integer value.toNat

def ofUInt32 (value : UInt32) : Json := .integer value.toNat

def ofUInt64 (value : UInt64) : Json := .integer value.toNat

def ofInt32 (value : Int32) : Json := .integer value.toInt

def ofOption (encode : α → Json) : Option α → Json
  | none => .null
  | some value => encode value

def ofList (encode : α → Json) (items : List α) : Json := .array (items.map encode)

def ofMap (order : MapOrder String α) (encode : α → Json) (map : HashMap String α) : Json :=
  .object ((order.entries map).map fun entry => (entry.1, encode entry.2))

@[simp]
theorem string_string (text : String) : string (.string text) = .ok text := rfl

@[simp]
theorem bool_bool (value : Bool) : bool (.bool value) = .ok value := rfl

@[simp]
theorem uint16_ofUInt16 (value : UInt16) : uint16 (ofUInt16 value) = .ok value := by
  have bound : value.toNat < 2 ^ 16 := value.toNat_lt
  rw [ofUInt16, uint16, if_pos (by omega)]
  simp

@[simp]
theorem uint32_ofUInt32 (value : UInt32) : uint32 (ofUInt32 value) = .ok value := by
  have bound : value.toNat < 2 ^ 32 := value.toNat_lt
  rw [ofUInt32, uint32, if_pos (by omega)]
  simp

@[simp]
theorem uint64_ofUInt64 (value : UInt64) : uint64 (ofUInt64 value) = .ok value := by
  have bound : value.toNat < 2 ^ 64 := value.toNat_lt
  rw [ofUInt64, uint64, if_pos (by omega)]
  simp

@[simp]
theorem int32_ofInt32 (value : Int32) : int32 (ofInt32 value) = .ok value := by
  have lower := value.le_toInt
  have upper := value.toInt_lt
  rw [ofInt32, int32, if_pos (by omega)]
  simp

theorem list_ofList {β : Type} {decode : Decoder β} {encode : α → Json} {image : α → β}
    (reads : ∀ item, decode (encode item) = .ok (image item)) (items : List α) :
    list decode (ofList encode items) = .ok (items.map image) := by
  rw [ofList, list]
  induction items with
  | nil => rfl
  | cons item items ih =>
      rw [List.map_cons, List.mapM_cons, reads item, ih]
      rfl

@[simp]
theorem list_strings (texts : List String) : list string (ofList .string texts) = .ok texts := by
  simpa using list_ofList string_string texts

/-- A text is not `null`, so an optional text is told apart from a missing one. -/
@[simp]
theorem option_string (text : Option String) :
    option string (ofOption .string text) = .ok text := by
  cases text <;> rfl

@[simp]
theorem option_int32 (value : Option Int32) :
    option int32 (ofOption ofInt32 value) = .ok value := by
  cases value with
  | none => rfl
  | some value =>
      have read := int32_ofInt32 value
      simp only [ofOption, ofInt32] at read ⊢
      rw [option, read]
      · rfl
      · simp

/-- Entries with distinct keys are all found in the map that they are inserted into. -/
theorem lookup_foldl_insert {entries : List (String × α)}
    (distinct : (entries.map Prod.fst).Nodup) (map : HashMap String α) (key : String) :
    (entries.foldl (fun map entry => map.insert entry.1 entry.2) map).lookup key =
      match entries.find? fun entry => entry.1 = key with
      | some entry => some entry.2
      | none => map.lookup key := by
  induction entries generalizing map with
  | nil => rfl
  | cons entry entries ih =>
      obtain ⟨fresh, distinct_tail⟩ := List.nodup_cons.mp distinct
      rw [List.foldl_cons, ih distinct_tail, HashMap.lookup_insert_eq]
      by_cases same : entry.1 = key
      · have absent : (entries.find? fun other => other.1 = key) = none := by
          rw [List.find?_eq_none]
          intro other member
          simp only [decide_eq_true_eq]
          rintro rfl
          exact fresh (same ▸ List.mem_map_of_mem member)
        simp [same, absent]
      · simp [same, Ne.symm same]

theorem map_ofMap {order : MapOrder String α} {decode : Decoder α} {encode : α → Json}
    (reads : ∀ value, decode (encode value) = .ok value) (values : HashMap String α) :
    map decode (ofMap order encode values) = .ok values := by
  have inserted (entries : List (String × α)) (start : HashMap String α) :
      (entries.map fun entry => (entry.1, encode entry.2)).foldlM
          (fun map member => do return map.insert member.1 (← decode member.2)) start =
        (.ok (entries.foldl (fun map entry => map.insert entry.1 entry.2) start) :
          Except DecodeError (HashMap String α)) := by
    induction entries generalizing start with
    | nil => rfl
    | cons entry entries ih =>
        rw [List.map_cons, List.foldlM_cons, reads, List.foldl_cons, ← ih]
        rfl
  rw [ofMap, map, inserted]
  refine congrArg Except.ok (Finmap.ext_lookup fun key => ?_)
  rw [lookup_foldl_insert (order.distinct values)]
  cases found : (order.entries values).find? fun entry => entry.1 = key with
  | none =>
      cases stored : values.lookup key with
      | none => rfl
      | some value =>
          have entered := (order.complete values key value).mpr stored
          simpa using List.find?_eq_none.mp found (key, value) entered
  | some entry =>
      obtain rfl : entry.1 = key := by simpa using List.find?_some found
      exact ((order.complete values entry.1 entry.2).mp (List.mem_of_find?_eq_some found)).symm

end Values

/-! ## Fields -/

section Fields

variable {α : Type}

/-- The members that are not skipped. -/
def record (entries : List (String × Option Json)) : Members :=
  entries.filterMap fun entry => entry.2.map fun value => (entry.1, value)

/-- A field that is left out under a condition. -/
def skipIf (skipped : Bool) (value : Json) : Option Json := if skipped then none else some value

/-- The value of a field, if it is there. -/
def field (name : String) (members : Members) : Except DecodeError (Option Json) :=
  match members.filter fun member => member.1 = name with
  | [] => .ok none
  | [member] => .ok (some member.2)
  | _ => .error (.duplicateField name)

/-- A field without a default. -/
def required (decode : Decoder α) (name : String) (members : Members) : Except DecodeError α := do
  match ← field name members with
  | none => .error (.missingField name)
  | some value => decode value

/-- The value of a field that may be missing. -/
def orDefault (decode : Decoder α) (default : α) : Option Json → Except DecodeError α
  | none => .ok default
  | some value => decode value

/-- A field with a default. -/
def defaulted (decode : Decoder α) (default : α) (name : String) (members : Members) :
    Except DecodeError α := do
  orDefault decode default (← field name members)

theorem filter_record_of_notMem {name : String} {entries : List (String × Option Json)}
    (absent : name ∉ entries.map Prod.fst) :
    (record entries).filter (fun member => member.1 = name) = [] := by
  rw [List.filter_eq_nil_iff]
  intro member is_member
  obtain ⟨entry, is_entry, written⟩ := List.mem_filterMap.mp is_member
  obtain ⟨value, -, rfl⟩ := Option.map_eq_some_iff.mp written
  simp only [decide_eq_true_eq]
  rintro rfl
  exact absent (List.mem_map_of_mem is_entry)

/-- A field whose name is not repeated is found as it was written, or skipped. -/
theorem field_record_self {name : String} {value : Option Json}
    {entries : List (String × Option Json)} (absent : name ∉ entries.map Prod.fst) :
    field name (record ((name, value) :: entries)) = .ok value := by
  have others := filter_record_of_notMem absent
  cases value with
  | none =>
      change (match (record entries).filter (fun member => member.1 = name) with
        | [] => _ | [member] => _ | _ => _) = _
      rw [others]
  | some value =>
      change (match ((name, value) :: record entries).filter (fun member => member.1 = name) with
        | [] => _ | [member] => _ | _ => _) = _
      rw [List.filter_cons_of_pos (by simp), others]

theorem field_record_of_ne {name other : String} {value : Option Json}
    {entries : List (String × Option Json)} (different : other ≠ name) :
    field name (record ((other, value) :: entries)) = field name (record entries) := by
  have dropped : (record ((other, value) :: entries)).filter (fun member => member.1 = name) =
      (record entries).filter (fun member => member.1 = name) := by
    cases value with
    | none => rfl
    | some value => exact List.filter_cons_of_neg (by simpa using different)
  rw [field, field, dropped]

@[simp]
theorem required_record_self {decode : Decoder α} {name : String} {value : Json}
    {entries : List (String × Option Json)} (absent : name ∉ entries.map Prod.fst) :
    required decode name (record ((name, some value) :: entries)) = decode value := by
  rw [required, field_record_self absent]
  rfl

@[simp]
theorem required_record_of_ne {decode : Decoder α} {name other : String} {value : Option Json}
    {entries : List (String × Option Json)} (different : other ≠ name) :
    required decode name (record ((other, value) :: entries)) =
      required decode name (record entries) := by
  rw [required, required, field_record_of_ne different]

@[simp]
theorem defaulted_record_self {decode : Decoder α} {default : α} {name : String}
    {value : Option Json} {entries : List (String × Option Json)}
    (absent : name ∉ entries.map Prod.fst) :
    defaulted decode default name (record ((name, value) :: entries)) =
      orDefault decode default value := by
  rw [defaulted, field_record_self absent]
  rfl

@[simp]
theorem defaulted_record_of_ne {decode : Decoder α} {default : α} {name other : String}
    {value : Option Json} {entries : List (String × Option Json)} (different : other ≠ name) :
    defaulted decode default name (record ((other, value) :: entries)) =
      defaulted decode default name (record entries) := by
  rw [defaulted, defaulted, field_record_of_ne different]

@[simp]
theorem orDefault_some (decode : Decoder α) (default : α) (value : Json) :
    orDefault decode default (some value) = decode value := by
  rw [orDefault]

/-- A value that is only left out when it is the default is read back. -/
theorem orDefault_skipIf {decode : Decoder α} {default value : α} {skipped : Bool} {written : Json}
    (skips : skipped = true → value = default) (reads : decode written = .ok value) :
    orDefault decode default (skipIf skipped written) = .ok value := by
  cases skipped with
  | false => exact reads
  | true => exact congrArg Except.ok (skips rfl).symm

@[simp]
theorem orDefault_skip_false (value : Bool) :
    orDefault bool false (skipIf (!value) (.bool value)) = .ok value := by
  cases value <;> rfl

@[simp]
theorem orDefault_skip_empty (text : String) :
    orDefault string "" (skipIf text.isEmpty (.string text)) = .ok text :=
  orDefault_skipIf (fun empty => String.isEmpty_iff.mp empty) rfl

theorem orDefault_skip_no_entry {order : MapOrder String α} {decode : Decoder α}
    {encode : α → Json} (reads : ∀ value, decode (encode value) = .ok value)
    (values : HashMap String α) :
    orDefault (map decode) ∅ (skipIf (order.entries values).isEmpty (ofMap order encode values)) =
      .ok values := by
  refine orDefault_skipIf (fun empty => ?_) (map_ofMap reads values)
  refine Finmap.ext_lookup fun key => ?_
  rw [Finmap.lookup_empty]
  cases found : values.lookup key with
  | none => rfl
  | some value =>
      have entered := (order.complete values key value).mpr found
      rw [List.isEmpty_iff.mp empty] at entered
      cases entered

/-- An option that is left out when it is none is read back. -/
@[simp]
theorem orDefault_map_string (text : Option String) :
    orDefault (option string) none (text.map .string) = .ok text := by
  cases text <;> rfl

theorem orDefault_map_uint32 (value : Option UInt32) :
    orDefault (option uint32) none (value.map ofUInt32) = .ok value := by
  cases value with
  | none => rw [Option.map_none, orDefault]
  | some value =>
      have present : option uint32 (ofUInt32 value) = some <$> uint32 (ofUInt32 value) := by
        rw [ofUInt32, option]
        simp
      rw [Option.map_some, orDefault_some, present, uint32_ofUInt32]
      simp only [Functor.map, Except.map]

/-- A list that is left out when it is empty is read back. -/
theorem orDefault_skip_nil (texts : List String) :
    orDefault (list string) [] (skipIf texts.isEmpty (ofList .string texts)) = .ok texts :=
  orDefault_skipIf (fun empty => List.isEmpty_iff.mp empty) (list_strings texts)

end Fields

/-! ## Enumerations -/

section Enumerations

variable {α : Type}

/-- `#[serde(tag = "…")]`: the variant's name is one more member of the object. -/
def internallyTagged (tag : String) (ofVariant : String → Members → Except DecodeError α) :
    Decoder α
  | .object members => do
      match ← field tag members with
      | some (.string variant) =>
          ofVariant variant (members.filter fun member => member.1 ≠ tag)
      | some _ => .error .invalidType
      | none => .error (.missingField tag)
  | _ => .error .invalidType

/-- An object with the name of the variant before its fields. -/
def tagged (tag variant : String) (entries : List (String × Option Json)) : Json :=
  .object (record ((tag, some (.string variant)) :: entries))

/-- The default representation: an object whose one member is named after the variant. -/
def externallyTagged (ofVariant : String → Members → Except DecodeError α) : Decoder α
  | .object [(variant, .object members)] => ofVariant variant members
  | _ => .error .invalidType

theorem internallyTagged_tagged {tag variant : String} {entries : List (String × Option Json)}
    (ofVariant : String → Members → Except DecodeError α)
    (absent : tag ∉ entries.map Prod.fst) :
    internallyTagged tag ofVariant (tagged tag variant entries) =
      ofVariant variant (record entries) := by
  have untagged : (record ((tag, some (.string variant)) :: entries)).filter
      (fun member => member.1 ≠ tag) = record entries := by
    change ((tag, Json.string variant) :: record entries).filter _ = _
    rw [List.filter_cons_of_neg (by simp), List.filter_eq_self]
    intro member is_member
    have none_tagged := List.filter_eq_nil_iff.mp (filter_record_of_notMem absent) member is_member
    simpa using none_tagged
  rw [tagged, internallyTagged, field_record_self absent]
  exact congrArg (ofVariant variant) untagged

/-- The default representation of a variant with fields. -/
def variantObject (variant : String) (entries : List (String × Option Json)) : Json :=
  .object [(variant, .object (record entries))]

@[simp]
theorem externallyTagged_variantObject (ofVariant : String → Members → Except DecodeError α)
    (variant : String) (entries : List (String × Option Json)) :
    externallyTagged ofVariant (variantObject variant entries) =
      ofVariant variant (record entries) := by
  rw [variantObject, externallyTagged]

end Enumerations

/-! ## What is written can be read as text -/

theorem fits_record {depth : Nat} {entries : List (String × Option Json)}
    (fits : ∀ entry ∈ entries, ∀ value ∈ entry.2, value.Fits depth) :
    (Json.object (record entries)).Fits (depth + 1) := by
  intro member is_member
  obtain ⟨entry, is_entry, written⟩ := List.mem_filterMap.mp is_member
  obtain ⟨value, found, rfl⟩ := Option.map_eq_some_iff.mp written
  exact fits entry is_entry value found

theorem fits_variantObject {depth : Nat} {variant : String} {entries : List (String × Option Json)}
    (fits : ∀ entry ∈ entries, ∀ value ∈ entry.2, value.Fits depth) :
    (variantObject variant entries).Fits (depth + 2) := by
  intro member is_member
  obtain rfl := List.mem_singleton.mp is_member
  exact fits_record fits

@[simp]
theorem forall_skipIf {skipped : Bool} {value : Json} {property : Json → Prop} :
    (∀ written, skipIf skipped value = some written → property written) ↔
      (skipped = false → property value) := by
  cases skipped <;> simp [skipIf]

@[simp]
theorem fits_string (depth : Nat) (text : String) : (Json.string text).Fits depth := by
  cases depth <;> trivial

@[simp]
theorem fits_bool (depth : Nat) (value : Bool) : (Json.bool value).Fits depth := by
  cases depth <;> trivial

@[simp]
theorem fits_ofOption_string (depth : Nat) (text : Option String) :
    (ofOption .string text).Fits depth := by
  cases text with
  | none => cases depth <;> trivial
  | some text => exact fits_string depth text

@[simp]
theorem fits_ofUInt16 (depth : Nat) (value : UInt16) : (ofUInt16 value).Fits depth := by
  have bound : value.toNat < 2 ^ 16 := value.toNat_lt
  have in_range : Json.InRange value.toNat := ⟨by omega, by omega⟩
  cases depth <;> exact in_range

@[simp]
theorem fits_ofUInt32 (depth : Nat) (value : UInt32) : (ofUInt32 value).Fits depth := by
  have bound : value.toNat < 2 ^ 32 := value.toNat_lt
  have in_range : Json.InRange value.toNat := ⟨by omega, by omega⟩
  cases depth <;> exact in_range

@[simp]
theorem fits_ofUInt64 (depth : Nat) (value : UInt64) : (ofUInt64 value).Fits depth := by
  have bound : value.toNat < 2 ^ 64 := value.toNat_lt
  have in_range : Json.InRange value.toNat := ⟨by omega, by omega⟩
  cases depth <;> exact in_range

@[simp]
theorem fits_ofInt32 (depth : Nat) (value : Int32) : (ofInt32 value).Fits depth := by
  have lower := value.le_toInt
  have upper := value.toInt_lt
  have in_range : Json.InRange value.toInt := ⟨by omega, by omega⟩
  cases depth <;> exact in_range

@[simp]
theorem fits_ofOption_int32 (depth : Nat) (value : Option Int32) :
    (ofOption ofInt32 value).Fits depth := by
  cases value with
  | none => cases depth <;> trivial
  | some value => exact fits_ofInt32 depth value

theorem fits_ofList {α : Type} {depth : Nat} {encode : α → Json} {items : List α}
    (fits : ∀ item ∈ items, (encode item).Fits depth) : (ofList encode items).Fits (depth + 1) := by
  intro value member
  obtain ⟨item, is_item, rfl⟩ := List.mem_map.mp member
  exact fits item is_item

@[simp]
theorem fits_ofList_string (depth : Nat) (texts : List String) :
    (ofList .string texts).Fits (depth + 1) :=
  fits_ofList fun text _ => fits_string depth text

theorem fits_ofMap {α : Type} {depth : Nat} {order : MapOrder String α} {encode : α → Json}
    (fits : ∀ value, (encode value).Fits depth) (values : HashMap String α) :
    (ofMap order encode values).Fits (depth + 1) := by
  intro member is_member
  obtain ⟨entry, -, rfl⟩ := List.mem_map.mp is_member
  exact fits entry.2

end Serde
