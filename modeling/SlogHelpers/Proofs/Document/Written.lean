import SlogHelpers.Proofs.Document.Entries
import SlogHelpers.Proofs.Document.RoundTrip

/-!
The levels and attributes of a JSON document against its text: what a configuration has of the pairs
that are written in the lists of the document.
-/
namespace SlogHelpers.Document
open OfJson Fallible Entry

def writtenPairs : Json → List (String × Json)
  | .object members _ => members
  | _ => []

def writtenEntries (name : String) (members : List (String × Json)) : List (List (String × Json)) :=
  members.flatMap fun
    | (key, .array items _) => if key = name then items.map writtenPairs else []
    | _ => []

/-- The pairs of entries, with their values as they would be written. -/
def shownPairs {α : Type} (toJson : α → Json) (entries : List (Entry α)) : List (String × Json) :=
  (entries.flatMap (·.pairs)).map fun pair => (pair.1, toJson pair.2)

/-! ## One list -/

theorem severity_eq_ok {json : Json} {s : Severity} (h : severity json = .ok s) :
    json = .ofSeverity s := by
  unfold severity at h
  split at h
  · split at h
    · next hs =>
      cases h
      rw [Severity.ofInt?] at hs
      split at hs
      · cases hs
        rfl
      · cases hs
    · cases h
  · cases h

theorem string_eq_ok {json : Json} {s : String} (h : string json = .ok s) : json = .string s := by
  unfold string at h
  split at h <;> cases h
  rfl

section List

variable {α : Type} {value : Json → Except OfJson.Fault α} {toJson : α → Json}

theorem mapM_members_eq_ok (hv : ∀ json a, value json = .ok a → json = toJson a)
    {members : List (String × Json)} {pairs : List (String × α)}
    (h : (members.mapM fun (key, json) => do
      let v ← value json
      pure (key, v)) = .ok pairs) : members = pairs.map fun pair => (pair.1, toJson pair.2) := by
  induction members generalizing pairs with
  | nil =>
    cases h
    rfl
  | cons member rest ih =>
    obtain ⟨key, json⟩ := member
    rw [List.mapM_cons] at h
    obtain ⟨pair, hpair, h⟩ := bind_eq_ok.1 h
    obtain ⟨more, hmore, h⟩ := bind_eq_ok.1 h
    obtain ⟨v, hval, hpair⟩ := bind_eq_ok.1 hpair
    cases h
    cases hpair
    rw [List.map_cons, ← ih hmore, hv json v hval]

/-- An entry keeps the last value of each key of its object. -/
theorem entry_pairs (hv : ∀ json a, value json = .ok a → json = toJson a) {json : Json}
    {e : Entry α} (h : entry value json = .ok e) :
    (e.pairs.map fun pair => (pair.1, toJson pair.2)) = lastOfEach (writtenPairs json) := by
  cases json with
  | object members closed =>
    rw [entry] at h
    obtain ⟨pairs, hpairs, h⟩ := bind_eq_ok.1 h
    cases closed <;> cases h
    rw [pairs_ofList, ← lastOfEach_map, ← mapM_members_eq_ok hv hpairs]
    rfl
  | _ => cases h

theorem list_entries (hv : ∀ json a, value json = .ok a → json = toJson a) {json : Json}
    {entries : List (Entry α)} (h : list (entry value) json = .ok entries) :
    ∃ items, json = .array items true ∧
      shownPairs toJson entries = (items.map writtenPairs).flatMap lastOfEach := by
  cases json with
  | array items closed =>
    rw [list] at h
    obtain ⟨read, hread, h⟩ := bind_eq_ok.1 h
    cases closed <;> cases h
    refine ⟨items, rfl, ?_⟩
    clear h
    induction items generalizing entries with
    | nil =>
      cases hread
      rfl
    | cons item rest ih =>
      rw [List.mapM_cons] at hread
      obtain ⟨e, he, hread⟩ := bind_eq_ok.1 hread
      obtain ⟨more, hmore, hread⟩ := bind_eq_ok.1 hread
      cases hread
      have hrest := ih hmore
      rw [shownPairs] at hrest
      rw [shownPairs, List.flatMap_cons, List.map_append, hrest, entry_pairs hv he]
      rfl
  | _ => cases h

end List

/-! ## The whole document -/

theorem name_of_ofName? {name : String} {field : Field} (h : Field.ofName? name = some field) :
    field.name = name := by
  simpa using List.find?_some h

theorem writtenEntries_cons_of_ne {name key : String} (h : key ≠ name) (json : Json)
    (rest : List (String × Json)) :
    writtenEntries name ((key, json) :: rest) = writtenEntries name rest := by
  rw [writtenEntries, List.flatMap_cons]
  cases json <;> simp [h, writtenEntries]

theorem writtenEntries_cons (name : String) (items : List Json) (rest : List (String × Json)) :
    writtenEntries name ((name, .array items true) :: rest) =
      items.map writtenPairs ++ writtenEntries name rest := by
  simp [writtenEntries]

/-- The entries of a document come from the list under one name. -/
structure ReadsEntries {α : Type} (field : Field) (value : Json → Except OfJson.Fault α)
    (entries : Document → List (Entry α)) : Prop where
  start : entries {} = []
  set : ∀ {json document next}, reader.set field json document = .ok next →
    list (entry value) json = .ok (entries next)
  other : ∀ {other json document next}, other ≠ field → reader.set other json document = .ok next →
    entries next = entries document

theorem readsEntries_levels : ReadsEntries .levels severity Document.levels where
  start := rfl
  set h := by
    obtain ⟨levels, hlevels, h⟩ := bind_eq_ok.1 h
    cases h
    exact hlevels
  other {other json document next} hne h := by
    cases other with
    | levels => exact absurd rfl hne
    | _ =>
      obtain ⟨_, _, h⟩ := bind_eq_ok.1 h
      cases h
      rfl

theorem readsEntries_attributes : ReadsEntries .attrs string Document.attributes where
  start := rfl
  set h := by
    obtain ⟨attributes, hattributes, h⟩ := bind_eq_ok.1 h
    cases h
    exact hattributes
  other {other json document next} hne h := by
    cases other with
    | attrs => exact absurd rfl hne
    | _ =>
      obtain ⟨_, _, h⟩ := bind_eq_ok.1 h
      cases h
      rfl

/-- How a field of a document shows as pairs: it is read from a list of objects, and no other field
touches it. -/
structure ShowsEntries (field : Field) (shown : Document → List (String × Json)) : Prop where
  set : ∀ {json document next}, reader.set field json document = .ok next →
    ∃ items, json = .array items true ∧ shown next = (items.map writtenPairs).flatMap lastOfEach
  other : ∀ {other json document next}, other ≠ field → reader.set other json document = .ok next →
    shown next = shown document

theorem ShowsEntries.readNamed {field : Field} {shown : Document → List (String × Json)}
    (hshown : ShowsEntries field shown) {seen : List Field} {start result : Document}
    {members : List (String × Json)} (hstart : field ∉ seen → shown start = [])
    (h : reader.readNamed seen start members = .ok result) :
    shown result = shown start ++ (writtenEntries field.name members).flatMap lastOfEach := by
  induction members generalizing seen start with
  | nil =>
    cases h
    simp [writtenEntries]
  | cons member rest ih =>
    obtain ⟨name, json⟩ := member
    obtain ⟨found, next, hfound, hseen, hset, hrest⟩ := readNamed_cons_eq_ok.1 h
    obtain rfl : found.name = name := name_of_ofName? hfound
    by_cases hf : found = field
    · -- Its name does not come again.
      subst hf
      obtain ⟨items, rfl, hnext⟩ := hshown.set hset
      rw [ih (fun hn => absurd List.mem_cons_self hn) hrest, hnext, hstart hseen,
        writtenEntries_cons, List.flatMap_append]
      rfl
    · have hne : found.name ≠ field.name := by
        intro he
        revert hf he
        cases found <;> cases field <;> decide
      have hnext := hshown.other hf hset
      rw [writtenEntries_cons_of_ne hne, ← hnext]
      refine ih (fun hn => ?_) hrest
      rw [hnext]
      exact hstart fun hm => hn (List.mem_cons_of_mem _ hm)

theorem ReadsEntries.shows {α : Type} {toJson : α → Json} {value : Json → Except OfJson.Fault α}
    {field : Field} {entries : Document → List (Entry α)} (hr : ReadsEntries field value entries)
    (hv : ∀ json a, value json = .ok a → json = toJson a) :
    ShowsEntries field fun document => shownPairs toJson (entries document) where
  set h := list_entries hv (hr.set h)
  other hne h := congrArg (shownPairs toJson) (hr.other hne h)

theorem showsEntries_levels :
    ShowsEntries .levels fun document => shownPairs .ofSeverity document.levels :=
  readsEntries_levels.shows fun _ _ => severity_eq_ok

theorem showsEntries_attributes :
    ShowsEntries .attrs fun document => shownPairs .string document.attributes :=
  readsEntries_attributes.shows fun _ _ => string_eq_ok

/-- What pairs are kept of the objects in a list. -/
structure Kept (entries : List (List (String × Json))) (pairs : List (String × Json)) : Prop where
  /-- Of each object every name once, in the place where it first stands and with the value that
  stands there last. -/
  last : pairs = entries.flatMap lastOfEach
  /-- They are just the pairs that are written where no name comes twice in one object, and only
  there. -/
  written_iff : pairs = entries.flatten ↔ ∀ members ∈ entries, (members.map Prod.fst).Nodup

theorem kept_of_eq {entries : List (List (String × Json))} {pairs : List (String × Json)}
    (h : pairs = entries.flatMap lastOfEach) : Kept entries pairs :=
  ⟨h, h ▸ flatMap_lastOfEach_eq_flatten_iff⟩

/-- The levels and the attributes of a configuration against the text of its document. -/
theorem toConfig_written {text : String} {members : List (String × Json)} {document : Document}
    (hs : Json.Spells text.toList (.object members true))
    (h : Document.read .json text = .ok document) :
    Kept (writtenEntries "levels" members)
        (document.toConfig.levels.map fun level => (level.1, Json.ofSeverity level.2)) ∧
      Kept (writtenEntries "attrs" members)
        (document.toConfig.attributes.map fun pair => (pair.1, Json.string pair.2)) := by
  obtain ⟨hread, -⟩ := (read_json_eq_ok hs).1 h
  exact ⟨kept_of_eq (showsEntries_levels.readNamed (fun _ => rfl) hread),
    kept_of_eq (showsEntries_attributes.readNamed (fun _ => rfl) hread)⟩

/-- One object in which a name comes again, behind another one with the same severity. -/
def repeatingMembers : List (String × Json) :=
  [("levels", .array [.object
    [("info", .ofSeverity 0), ("notice", .ofSeverity 0), ("info", .ofSeverity 0)] true] true)]

def repeatingText : String := (Json.object repeatingMembers true).pretty

def repeatingDocument : Document where
  levels := [.ofList [("info", 0), ("notice", 0), ("info", 0)]]

theorem spells_repeatingText :
    Json.Spells repeatingText.toList (.object repeatingMembers true) := by
  have hs := Json.whole_ofSeverity 0
  rw [repeatingText, Json.pretty, String.toList_ofList]
  exact Json.spells_printed ⟨rfl, ⟨rfl, ⟨rfl, hs, hs, hs, trivial⟩, trivial⟩, trivial⟩

theorem read_repeatingText : Document.read .json repeatingText = .ok repeatingDocument :=
  (read_json_eq_ok spells_repeatingText).2 ⟨rfl, rfl⟩

theorem toConfig_written_repeatingText :
    Document.read .json repeatingText = .ok repeatingDocument ∧
      Kept [[("info", .ofSeverity 0), ("notice", .ofSeverity 0), ("info", .ofSeverity 0)]]
        (repeatingDocument.toConfig.levels.map fun level => (level.1, Json.ofSeverity level.2)) :=
  ⟨read_repeatingText, (toConfig_written spells_repeatingText read_repeatingText).1⟩

/-- Three pairs are written, of which two are kept: the last one is not there to win over the one
before it. -/
theorem not_written_repeatingText :
    Document.read .json repeatingText = .ok repeatingDocument ∧
      repeatingDocument.toConfig.levels = [("info", 0), ("notice", 0)] ∧
      (writtenEntries "levels" repeatingMembers).flatten =
        [("info", .ofSeverity 0), ("notice", .ofSeverity 0), ("info", .ofSeverity 0)] ∧
      (repeatingDocument.toConfig.levels.map fun level => (level.1, Json.ofSeverity level.2)) ≠
        (writtenEntries "levels" repeatingMembers).flatten :=
  ⟨read_repeatingText, rfl, rfl, fun h => absurd (congrArg List.length h) (by decide)⟩

end SlogHelpers.Document
