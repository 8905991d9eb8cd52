import Pelagos.DockerShim.Events
import Pelagos.DockerShim.PsTable

/-!
# Listing containers

`docker ps` reads the table of `pelagos ps` and applies the filters itself, a label filter with what
`pelagos inspect` prints for each container.  A filter of any other form lets everything pass.
-/

namespace Pelagos.DockerShim

open Serde

/-- `PsRow`: one object of `docker ps --format json`. -/
structure PsObject where
  id : String
  names : String
  image : String
  status : String
  state : String

namespace PsObject

def members (row : PsObject) : List (String × Json) :=
  [("Id", .string row.id), ("Names", .string row.names), ("Image", .string row.image),
    ("Status", .string row.status), ("State", .string row.state)]

def ofEntry (entry : PsEntry) : PsObject :=
  { id := entry.name, names := entry.name, image := entry.image, status := entry.status,
    state := entry.status }

end PsObject

/-- What `cmd_ps` meets. -/
structure PsSurroundings where
  /-- The output of `pelagos ps`, with `--all` or without, unless it takes too long. -/
  listing : Bool → Option String
  /-- What `pelagos inspect` answers for a container, in time and readable. -/
  native : String → Option Json

/-- The label that a filter asks for. -/
def labelFilter (filter : String) : Option (String × String) :=
  (Text.stripPrefix filter "label=").bind fun kv =>
    (Text.splitOnce '=' kv.toList).map fun parts => (String.ofList parts.1, String.ofList parts.2)

/-- The first `retain`. -/
def retainLabelled (native : String → Option Json) (filters : List String)
    (entries : List PsEntry) : List PsEntry :=
  let labelFilters := filters.filterMap labelFilter
  if labelFilters = [] then entries
  else
    entries.filter fun entry =>
      let labels := nativeLabels (native entry.name)
      labelFilters.all fun wanted =>
        match labels.lookup wanted.1 with
        | some value => value == wanted.2
        | none => false

/-- The loop over the name filters. -/
def retainNamed (filters : List String) (entries : List PsEntry) : List PsEntry :=
  filters.foldl
    (fun entries filter =>
      match Text.stripPrefix filter "name=" with
      | some part => entries.filter fun entry => Text.contains entry.name part
      | none => entries)
    entries

/-- The text with spaces behind it up to `width`. -/
def padEnd (width : Nat) (text : String) : String :=
  text ++ String.ofList (List.replicate (width - text.length) ' ')

/-- The lines that are printed for the entries. -/
def psLines (quiet : Bool) (format : Option String) (entries : List PsEntry) : List String :=
  if quiet then entries.map PsEntry.name
  else if format.any fun form => Text.contains form "json" || form == "\x7b\x7bjson .\x7d\x7d" then
    entries.map fun entry => (Json.object (PsObject.ofEntry entry).members).toText
  else if entries = [] then []
  else
    (padEnd 30 "NAMES" ++ " " ++ padEnd 12 "STATUS" ++ " IMAGE") ::
      entries.map fun entry =>
        padEnd 30 entry.name ++ " " ++ padEnd 12 entry.status ++ " " ++ entry.image

/-- `cmd_ps`: the lines on standard output and the exit code. -/
def cmdPsResult (maps : CaseMaps) (surroundings : PsSurroundings) (all quiet : Bool)
    (filters : List String) (format : Option String) : List String × Int32 :=
  match surroundings.listing all with
  | none => ([], 1)
  | some output =>
      let entries := retainLabelled surroundings.native filters (parsePelagosPs maps output)
      (psLines quiet format (retainNamed filters entries), 0)

/-! ## What the filters ask for -/

/-- The container has this label. -/
def HasLabel (native : Option Json) (key value : String) : Prop :=
  ∃ members text, native.bind (·.get "labels") = some (.object members) ∧
    (Json.object members).get key = some text ∧ text.asStr.getD "" = value

/-- The container has the labels and the parts of its name that the filters ask for. -/
structure PassesFilters (native : Option Json) (name : String) (filters : List String) : Prop where
  labels : ∀ key value, '=' ∉ key.toList → "label=" ++ key ++ "=" ++ value ∈ filters →
    HasLabel native key value
  names : ∀ part, "name=" ++ part ∈ filters → part.toList <:+: name.toList

theorem labelFilter_eq_some_iff {filter key value : String} :
    labelFilter filter = some (key, value) ↔
      '=' ∉ key.toList ∧ filter = "label=" ++ key ++ "=" ++ value := by
  simp only [labelFilter, Option.bind_eq_some_iff, Option.map_eq_some_iff, Prod.mk.injEq]
  constructor
  · rintro ⟨kv, stripped, ⟨left, right⟩, split, rfl, rfl⟩
    obtain ⟨kv_eq, free⟩ := Text.splitOnce_eq_some split
    refine ⟨by simpa using free, ?_⟩
    rw [Text.stripPrefix_eq_some_iff.mp stripped]
    apply String.toList_inj.mp
    simp [kv_eq]
  · rintro ⟨free, rfl⟩
    refine ⟨key ++ "=" ++ value, ?_, (key.toList, value.toList), ?_, by simp, by simp⟩
    · rw [Text.stripPrefix_eq_some_iff, String.append_assoc, String.append_assoc,
        String.append_assoc]
    · have chars : (key ++ "=" ++ value).toList = key.toList ++ '=' :: value.toList := by simp
      rw [chars, Text.splitOnce_append value.toList free]

theorem lookup_nativeLabels (members : List (String × Json)) (key : String) :
    (members.foldl (fun (labels : HashMap String String) member =>
      labels.insert member.1 (member.2.asStr.getD "")) ∅).lookup key =
      ((Json.object members).get key).map fun text => text.asStr.getD "" := by
  induction members using List.reverseRecOn with
  | nil => rfl
  | append_singleton members member ih =>
      rw [List.foldl_append, List.foldl_cons, List.foldl_nil, HashMap.lookup_insert_eq, ih]
      simp only [Json.get, List.reverse_append, List.reverse_cons, List.reverse_nil,
        List.nil_append, List.cons_append, List.find?_cons]
      by_cases same : member.1 = key
      · simp [same]
      · have other : key ≠ member.1 := Ne.symm same
        simp [same, other]

theorem lookup_nativeLabels_iff {native : Option Json} {key value : String} :
    (nativeLabels native).lookup key = some value ↔ HasLabel native key value := by
  unfold nativeLabels HasLabel
  split
  · rename_i members found
    rw [lookup_nativeLabels, Option.map_eq_some_iff, found]
    constructor
    · rintro ⟨text, text_found, value_eq⟩
      exact ⟨members, text, rfl, text_found, value_eq⟩
    · rintro ⟨members, text, same, text_found, value_eq⟩
      cases same
      exact ⟨text, text_found, value_eq⟩
  · rename_i other
    constructor
    · intro found
      cases found
    · rintro ⟨members, text, found, -⟩
      exact absurd found (other members)

/-- Several filters one after the other. -/
theorem exists_keep_foldl {α β : Type} {step : List α → β → List α} {passes : β → α → Prop}
    (filters_each : ∀ item, ∃ keep : α → Bool,
      (∀ entries, step entries item = entries.filter keep) ∧
        ∀ entry, keep entry = true ↔ passes item entry) (items : List β) (entries : List α) :
    ∃ keep : α → Bool, items.foldl step entries = entries.filter keep ∧
      ∀ entry, keep entry = true ↔ ∀ item ∈ items, passes item entry := by
  induction items generalizing entries with
  | nil => exact ⟨fun _ => true, by simp, by simp⟩
  | cons item items ih =>
      obtain ⟨first, first_eq, first_iff⟩ := filters_each item
      obtain ⟨later, later_eq, later_iff⟩ := ih (entries.filter first)
      refine ⟨fun entry => first entry && later entry, ?_, fun entry => ?_⟩
      · rw [List.foldl_cons, first_eq, later_eq, List.filter_filter]
        simp only [Bool.and_comm]
      · rw [Bool.and_eq_true, first_iff, later_iff, List.forall_mem_cons]

theorem exists_retainNamed (filters : List String) (entries : List PsEntry) :
    ∃ keep : PsEntry → Bool, retainNamed filters entries = entries.filter keep ∧
      ∀ entry, keep entry = true ↔ ∀ part, "name=" ++ part ∈ filters →
        part.toList <:+: entry.name.toList := by
  obtain ⟨keep, kept, keep_iff⟩ := @exists_keep_foldl PsEntry String
    (fun entries filter =>
      match Text.stripPrefix filter "name=" with
      | some part => entries.filter fun entry => Text.contains entry.name part
      | none => entries)
    (fun filter entry => ∀ part, filter = "name=" ++ part → part.toList <:+: entry.name.toList)
    (fun filter => by
      cases stripped : Text.stripPrefix filter "name=" with
      | some part =>
          refine ⟨fun entry => Text.contains entry.name part, fun _ => rfl, fun entry => ?_⟩
          have contains_iff : Text.contains entry.name part = true ↔
              part.toList <:+: entry.name.toList := decide_eq_true_iff
          refine contains_iff.trans ⟨?_, ?_⟩
          · intro contained other filter_eq
            obtain rfl := Option.some.inj
              (stripped.symm.trans (Text.stripPrefix_eq_some_iff.mpr filter_eq))
            exact contained
          · intro each
            exact each part (Text.stripPrefix_eq_some_iff.mp stripped)
      | none =>
          refine ⟨fun _ => true, fun entries => by simp, fun entry => iff_of_true rfl ?_⟩
          intro part filter_eq
          cases stripped.symm.trans (Text.stripPrefix_eq_some_iff.mpr filter_eq))
    filters entries
  refine ⟨keep, kept, fun entry => ?_⟩
  rw [keep_iff]
  constructor
  · intro each part member
    exact each _ member part rfl
  · rintro wanted filter member part rfl
    exact wanted part member

theorem exists_retainLabelled (native : String → Option Json) (filters : List String)
    (entries : List PsEntry) :
    ∃ keep : PsEntry → Bool, retainLabelled native filters entries = entries.filter keep ∧
      ∀ entry, keep entry = true ↔ ∀ key value, '=' ∉ key.toList →
        "label=" ++ key ++ "=" ++ value ∈ filters → HasLabel (native entry.name) key value := by
  have wanted_iff {key value : String} : (key, value) ∈ filters.filterMap labelFilter ↔
      '=' ∉ key.toList ∧ "label=" ++ key ++ "=" ++ value ∈ filters := by
    rw [List.mem_filterMap]
    constructor
    · rintro ⟨filter, member, found⟩
      obtain ⟨free, rfl⟩ := labelFilter_eq_some_iff.mp found
      exact ⟨free, member⟩
    · rintro ⟨free, member⟩
      exact ⟨_, member, labelFilter_eq_some_iff.mpr ⟨free, rfl⟩⟩
  unfold retainLabelled
  dsimp only
  split
  · rename_i none_wanted
    refine ⟨fun _ => true, by simp, fun entry => iff_of_true rfl ?_⟩
    intro key value free member
    have wanted := wanted_iff.mpr ⟨free, member⟩
    rw [none_wanted] at wanted
    exact absurd wanted List.not_mem_nil
  · refine ⟨_, rfl, fun entry => ?_⟩
    rw [List.all_eq_true]
    constructor
    · intro each key value free member
      have passes := each (key, value) (wanted_iff.mpr ⟨free, member⟩)
      dsimp only at passes
      split at passes
      · rename_i found
        exact lookup_nativeLabels_iff.mp (beq_iff_eq.mp passes ▸ found)
      · cases passes
    · rintro has ⟨key, value⟩ wanted
      obtain ⟨free, member⟩ := wanted_iff.mp wanted
      have found := lookup_nativeLabels_iff.mpr (has key value free member)
      simp only [found, beq_self_eq_true]

/-- The rows that are not overlooked. -/
theorem entries_psTable (maps : CaseMaps) {header : List Char} (header_free : '\n' ∉ header)
    (rows : List PsRow) :
    parsePelagosPs maps (psTable header rows) =
      (rows.filter fun row => !decide (row.Hidden maps)).map PsRow.entry := by
  rw [parsePelagosPs_eq maps header_free]
  induction rows with
  | nil => rfl
  | cons row rows ih =>
      rw [List.filterMap_cons, ih]
      by_cases hidden : row.Hidden maps <;> simp [hidden]

theorem PsObject.fits (row : PsObject) : (Json.object row.members).Fits Json.depthLimit := by
  intro member is_member
  simp only [members, List.mem_cons, List.not_mem_nil, or_false] at is_member
  rcases is_member with rfl | rfl | rfl | rfl | rfl <;> exact fits_string 126 _

/-- `docker ps` lists the rows of the table in their order, those that the reader of the table does
not overlook and that have what every filter asks for; the objects read back line by line. -/
theorem ps_lists_matching_rows (maps : CaseMaps) (surroundings : PsSurroundings) (all : Bool)
    {header : List Char} (header_free : '\n' ∉ header) {rows : List PsRow}
    (listing : surroundings.listing all = some (psTable header rows)) (filters : List String) :
    ∃ keep : PsRow → Bool,
      (∀ row, keep row = true ↔ ¬ row.Hidden maps ∧
        PassesFilters (surroundings.native row.name.text) row.name.text filters) ∧
      (∀ format, cmdPsResult maps surroundings all true filters format =
        ((rows.filter keep).map fun row => row.name.text, 0)) ∧
      ∀ form, Text.contains form "json" = true →
        ((cmdPsResult maps surroundings all false filters (some form)).1.map Json.parse =
          (rows.filter keep).map fun row =>
            some (.object (PsObject.ofEntry row.entry).members)) := by
  obtain ⟨labelled, labelled_eq, labelled_iff⟩ := exists_retainLabelled surroundings.native filters
    (parsePelagosPs maps (psTable header rows))
  obtain ⟨named, named_eq, named_iff⟩ := exists_retainNamed filters
    (retainLabelled surroundings.native filters (parsePelagosPs maps (psTable header rows)))
  have listed : retainNamed filters (retainLabelled surroundings.native filters
      (parsePelagosPs maps (psTable header rows))) =
      (rows.filter fun row =>
        !decide (row.Hidden maps) && (labelled row.entry && named row.entry)).map PsRow.entry := by
    rw [named_eq, labelled_eq, entries_psTable maps header_free, List.filter_map, List.filter_map,
      List.filter_filter, List.filter_filter]
    congr 2
    funext row
    simp only [Function.comp_apply, Bool.and_comm]
  refine ⟨fun row => !decide (row.Hidden maps) && (labelled row.entry && named row.entry),
    fun row => ?_, fun format => ?_, fun form json => ?_⟩
  · rw [Bool.and_eq_true, Bool.and_eq_true, labelled_iff, named_iff, Bool.not_eq_true',
      decide_eq_false_iff_not]
    exact and_congr_right fun _ => ⟨fun passes => ⟨passes.1, passes.2⟩,
      fun passes => ⟨passes.labels, passes.names⟩⟩
  · rw [cmdPsResult, listing]
    simp only [listed, psLines, if_true, List.map_map]
    rfl
  · rw [cmdPsResult, listing]
    simp only [listed, psLines, Bool.false_eq_true, if_false, Option.any_some, json, Bool.true_or,
      if_true, List.map_map]
    refine List.map_congr_left fun row _ => ?_
    exact Json.parse_toText (PsObject.ofEntry row.entry).fits

theorem web_is_listed :
    let web := runningRow ⟨"web", by decide, List.forall_iff_forall_mem.mp (by decide)⟩ (by decide)
    let surroundings : PsSurroundings := ⟨fun _ => some (psTable [' '] [web]), fun _ => none⟩
    (cmdPsResult asciiCase surroundings true true ["name=we"] none).1 = ["web"] := by
  intro web surroundings
  obtain ⟨keep, keep_iff, quiet_eq, -⟩ :=
    ps_lists_matching_rows asciiCase surroundings true (by decide) rfl ["name=we"]
  have kept : keep web = true := by
    refine (keep_iff web).mpr ⟨by decide, ⟨?_, ?_⟩⟩
    · intro key value free member
      have opens := congrArg (fun text => text.toList.head?) (List.mem_singleton.mp member)
      simp at opens
    · intro part member
      have same := List.mem_singleton.mp member
      obtain rfl : part = "we" := by
        have front : "name=we" = "name=" ++ "we" := by decide
        rw [front] at same
        exact (String.append_right_inj "name=").mp same
      decide
  rw [quiet_eq, List.filter_cons_of_pos kept]
  rfl

end Pelagos.DockerShim
