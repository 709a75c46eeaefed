import SlogHelpers.Proofs.Document.Shape

/-!
Which JSON texts are documents: objects whose members have the shapes of their fields, each at most
once, without empty entries. An empty entry that is the only fault is told by its place.
-/
namespace SlogHelpers.Document
open OfJson Fallible
open Json (Term)

/-! ## The block about the logger -/

theorem loggerField_ofName?_eq_some {name : String} {field : LoggerField} :
    LoggerField.ofName? name = some field ↔
      (field = .api ∧ name = "api") ∨ (field = .ctx ∧ (name = "ctx" ∨ name = "context")) := by
  constructor
  · intro h
    unfold LoggerField.ofName? at h
    split at h
    · exact .inl ⟨(Option.some.inj h).symm, rfl⟩
    · exact .inr ⟨(Option.some.inj h).symm, .inr rfl⟩
    · exact .inr ⟨(Option.some.inj h).symm, .inl rfl⟩
    · cases h
  · rintro (⟨rfl, rfl⟩ | ⟨rfl, rfl | rfl⟩)
    · rfl
    · rfl
    · rfl

def LoggerFits : LoggerField → Json → Prop
  | .api, json => ∃ api, optionalString json = .ok api
  | .ctx, json => ∃ context, boolean json = .ok context

theorem exists_setLogger_eq_ok (field : LoggerField) (json : Json) (settings : LoggerSettings) :
    (∃ next, loggerReader.set field json settings = .ok next) ↔ LoggerFits field json := by
  cases field with
  | api => exact exists_bind_pure_eq_ok
  | ctx => exact exists_bind_pure_eq_ok

theorem loggerMember_iff (member : String × Term) :
    (∃ field, LoggerField.ofName? member.1 = some field ∧ member.2.whole = true ∧
      LoggerFits field member.2.found) ↔
      (member.1 = "api" ∧ member.2.IsOptionalString) ∨
        ((member.1 = "ctx" ∨ member.1 = "context") ∧ member.2.IsBoolean) := by
  simp only [loggerField_ofName?_eq_some]
  constructor
  · rintro ⟨field, ⟨rfl, hn⟩ | ⟨rfl, hn⟩, hfits⟩
    · exact .inl ⟨hn, (takes_optionalString _).1 hfits⟩
    · exact .inr ⟨hn, (takes_boolean _).1 hfits⟩
  · rintro (⟨hn, hshape⟩ | ⟨hn, hshape⟩)
    · exact ⟨.api, .inl ⟨rfl, hn⟩, (takes_optionalString _).2 hshape⟩
    · exact ⟨.ctx, .inr ⟨rfl, hn⟩, (takes_boolean _).2 hshape⟩

/-- The two names of one field exclude each other. -/
theorem nodup_loggerFields_iff {names : List String}
    (hn : ∀ name ∈ names, name = "api" ∨ name = "ctx" ∨ name = "context") :
    (names.map LoggerField.ofName?).Nodup ↔
      names.Nodup ∧ ¬ ("ctx" ∈ names ∧ "context" ∈ names) := by
  constructor
  · intro h
    refine ⟨.of_map _ h, fun hboth => ?_⟩
    have hsame := List.inj_on_of_nodup_map h hboth.1 hboth.2 rfl
    simp at hsame
  · rintro ⟨h, hboth⟩
    refine List.Nodup.map_on (fun a ha b hb he => ?_) h
    obtain rfl | rfl | rfl := hn a ha
    · obtain rfl | rfl | rfl := hn b hb
      · rfl
      · cases he
      · cases he
    · obtain rfl | rfl | rfl := hn b hb
      · cases he
      · rfl
      · exact absurd ⟨ha, hb⟩ hboth
    · obtain rfl | rfl | rfl := hn b hb
      · cases he
      · exact absurd ⟨hb, ha⟩ hboth
      · rfl

theorem isLoggerBlock_iff {members : List (String × Term)} :
    (Term.wholeMembers members = true ∧
        ∃ settings, loggerReader.readNamed [] {} (Term.foundMembers members) = .ok settings) ↔
      Term.IsLoggerBlock members := by
  have hnames (h : ∀ member ∈ members, (member.1 = "api" ∧ member.2.IsOptionalString) ∨
      ((member.1 = "ctx" ∨ member.1 = "context") ∧ member.2.IsBoolean)) :
      ∀ name ∈ members.map Prod.fst, name = "api" ∨ name = "ctx" ∨ name = "context" := by
    refine List.forall_mem_map.2 fun member hm => ?_
    obtain ⟨hn, -⟩ | ⟨hn, -⟩ := h member hm
    · exact .inl hn
    · exact .inr hn
  have hfields : (members.map fun member => loggerReader.field? member.1) =
      (members.map Prod.fst).map LoggerField.ofName? := List.map_map.symm
  rw [exists_readNamed_found_eq_ok exists_setLogger_eq_ok, hfields]
  constructor
  · rintro ⟨hmembers, hnodup⟩
    have hshapes := fun member hm => (loggerMember_iff member).1 (hmembers member hm)
    obtain ⟨hdistinct, hsingle⟩ := (nodup_loggerFields_iff (hnames hshapes)).1 hnodup
    exact ⟨hshapes, hdistinct, hsingle⟩
  · rintro ⟨hshapes, hdistinct, hsingle⟩
    exact ⟨fun member hm => (loggerMember_iff member).2 (hshapes member hm),
      (nodup_loggerFields_iff (hnames hshapes)).2 ⟨hdistinct, hsingle⟩⟩

theorem exists_map_some_eq_ok {α : Type} {result : Except OfJson.Fault α} :
    (∃ found, result.map some = .ok found) ↔ ∃ a, result = .ok a := by
  cases result with
  | error fault => simp [Except.map]
  | ok a => simp [Except.map]

theorem logger_eq_ok {json : Json} {settings : Option LoggerSettings}
    (h : OfJson.logger json = .ok settings) :
    json = .null ∨ (∃ items closed, json = .array items closed) ∨
      ∃ members closed, json = .object members closed := by
  cases json with
  | null => exact .inl rfl
  | array items closed => exact .inr (.inl ⟨items, closed, rfl⟩)
  | object members closed => exact .inr (.inr ⟨members, closed, rfl⟩)
  | _ => cases h

/-- The place of the block takes arrays too, in the order of the fields. -/
theorem takes_logger {term : Term} (h : ∀ items, term ≠ .array items) :
    (term.whole = true ∧ ∃ settings, OfJson.logger term.found = .ok settings) ↔ term.IsLogger := by
  have hread (members : List (String × Term)) :
      (∃ settings, OfJson.logger (Term.object members).found = .ok settings) ↔
      Term.wholeMembers members = true ∧
        ∃ settings, loggerReader.readNamed [] {} (Term.foundMembers members) = .ok settings :=
    exists_map_some_eq_ok.trans (exists_bind_ifClosed_eq_ok (f := id))
  constructor
  · rintro ⟨-, settings, hs⟩
    obtain hnull | ⟨jsons, closed, harray⟩ | ⟨jsons, closed, hobject⟩ := logger_eq_ok hs
    · exact .inl (Term.foundOf hnull)
    · obtain ⟨items, rfl, -⟩ := Term.foundOf harray
      exact absurd rfl (h items)
    · obtain ⟨members, rfl, -⟩ := Term.foundOf hobject
      exact .inr ⟨members, rfl, isLoggerBlock_iff.1 ((hread members).1 ⟨settings, hs⟩)⟩
  · rintro (rfl | ⟨members, rfl, hblock⟩)
    · exact ⟨rfl, none, rfl⟩
    · have hr := isLoggerBlock_iff.2 hblock
      exact ⟨hr.1, (hread members).2 hr⟩

/-! ## Documents -/

theorem field_ofName?_eq_some {name : String} {field : Field} :
    Field.ofName? name = some field ↔ name = field.name := by
  constructor
  · intro h
    exact (name_of_ofName? h).symm
  · rintro rfl
    cases field <;> rfl

def Fits : Field → Json → Prop
  | .pkg, json => ∃ pkg, optionalString json = .ok pkg
  | .imports, json => ∃ imports, list string json = .ok imports
  | .levels, json => ∃ levels, list (entry severity) json = .ok levels
  | .consts, json => ∃ constants, list string json = .ok constants
  | .attrs, json => ∃ attributes, list (entry string) json = .ok attributes
  | .logger, json => ∃ settings, OfJson.logger json = .ok settings

theorem exists_set_eq_ok (field : Field) (json : Json) (document : Document) :
    (∃ next, reader.set field json document = .ok next) ↔ Fits field json := by
  cases field with
  | pkg => exact exists_bind_pure_eq_ok
  | imports => exact exists_bind_pure_eq_ok
  | levels => exact exists_bind_pure_eq_ok
  | consts => exact exists_bind_pure_eq_ok
  | attrs => exact exists_bind_pure_eq_ok
  | logger => exact exists_bind_pure_eq_ok

theorem fits_iff_shape {field : Field} {term : Term}
    (h : field = .logger → ∀ items, term ≠ .array items) :
    (term.whole = true ∧ Fits field term.found) ↔ field.Shape term := by
  cases field with
  | pkg => exact takes_optionalString term
  | imports => exact takes_list takes_string term
  | levels => exact takes_list (takes_entry takes_severity) term
  | consts => exact takes_list takes_string term
  | attrs => exact takes_list (takes_entry takes_string) term
  | logger => exact takes_logger (h rfl)

/-- The members of an object that is a document, but for empty entries. -/
structure IsDocument (members : List (String × Term)) : Prop where
  fields : ∀ member ∈ members, ∃ field : Field, member.1 = field.name ∧ field.Shape member.2
  distinct : (members.map Prod.fst).Nodup

theorem nodup_fields_iff {names : List String}
    (hn : ∀ name ∈ names, ∃ field : Field, name = field.name) :
    (names.map Field.ofName?).Nodup ↔ names.Nodup := by
  refine ⟨.of_map _, fun h => List.Nodup.map_on (fun a ha b hb he => ?_) h⟩
  obtain ⟨field, hf⟩ := hn a ha
  rw [field_ofName?_eq_some.2 hf] at he
  rw [hf, field_ofName?_eq_some.1 he.symm]

theorem isDocument_iff {members : List (String × Term)}
    (hl : ∀ items, ("logger", .array items) ∉ members) :
    (Term.wholeMembers members = true ∧
      ∃ document, reader.readNamed [] {} (Term.foundMembers members) = .ok document) ↔
      IsDocument members := by
  have hshape (member : String × Term) (hm : member ∈ members) {field : Field}
      (hn : member.1 = field.name) :
      (member.2.whole = true ∧ Fits field member.2.found) ↔ field.Shape member.2 := by
    refine fits_iff_shape fun hf items ht => hl items ?_
    obtain ⟨name, term⟩ := member
    obtain rfl : name = "logger" := hn.trans (congrArg Field.name hf)
    obtain rfl : term = .array items := ht
    exact hm
  have hfields : (members.map fun member => reader.field? member.1) =
      (members.map Prod.fst).map Field.ofName? := List.map_map.symm
  rw [exists_readNamed_found_eq_ok exists_set_eq_ok, hfields]
  constructor
  · rintro ⟨hmembers, hnodup⟩
    have hnamed : ∀ member ∈ members,
        ∃ field : Field, member.1 = field.name ∧ field.Shape member.2 := by
      intro member hm
      obtain ⟨field, hf, hfits⟩ := hmembers member hm
      have hn := field_ofName?_eq_some.1 hf
      exact ⟨field, hn, (hshape member hm hn).1 hfits⟩
    have hnames : ∀ name ∈ members.map Prod.fst, ∃ field : Field, name = field.name :=
      List.forall_mem_map.2 fun member hm => (hnamed member hm).imp fun _ h => h.1
    exact ⟨hnamed, (nodup_fields_iff hnames).1 hnodup⟩
  · rintro ⟨hnamed, hdistinct⟩
    have hnames : ∀ name ∈ members.map Prod.fst, ∃ field : Field, name = field.name :=
      List.forall_mem_map.2 fun member hm => (hnamed member hm).imp fun _ h => h.1
    refine ⟨fun member hm => ?_, (nodup_fields_iff hnames).2 hdistinct⟩
    obtain ⟨field, hn, hs⟩ := hnamed member hm
    exact ⟨field, field_ofName?_eq_some.2 hn, (hshape member hm hn).2 hs⟩

/-! ## Empty entries -/

/-- The first empty object of the list under a name stands there. -/
def EmptyAt (name : String) (members : List (String × Term)) (index : Nat) : Prop :=
  ∃ items, (name, Term.array items) ∈ members ∧ items.findIdx? Term.isEmptyObject = some index

section Entries

variable {α : Type} {value : Json → Except OfJson.Fault α} {term : Term}

theorem lastOfEach_cons_ne_nil (pair : String × α) (rest : List (String × α)) :
    Entry.lastOfEach (pair :: rest) ≠ [] := by
  intro h
  have hm : pair.1 ∈ ((pair :: rest).map Prod.fst).eraseDups :=
    List.mem_eraseDups.2 List.mem_cons_self
  rw [← Entry.keys_lastOfEach, h] at hm
  cases hm

theorem isEmpty_pairs {e : Entry α} (h : entry value term.found = .ok e) :
    e.pairs.isEmpty = term.isEmptyObject := by
  obtain ⟨jsons, hfound, -⟩ := exists_entry_eq_ok.1 ⟨e, h⟩
  obtain ⟨members, rfl, rfl, hw⟩ := Term.foundOf hfound
  rw [hfound, entry] at h
  obtain ⟨pairs, hpairs, hclosed⟩ := bind_eq_ok.1 h
  obtain rfl := Except.ok.inj hclosed
  have hpairs := mapM_eq_ok.1 hpairs
  rw [Entry.pairs_ofList]
  cases members with
  | nil =>
    cases hpairs
    rfl
  | cons member rest =>
    cases hpairs with
    | cons _ _ => exact List.isEmpty_eq_false_iff.2 (lastOfEach_cons_ne_nil _ _)

theorem findIdx?_entries {entries : List (Entry α)}
    (h : list (entry value) term.found = .ok entries) :
    ∃ items, term = .array items ∧
      entries.findIdx? (·.pairs.isEmpty) = items.findIdx? Term.isEmptyObject := by
  obtain ⟨jsons, hfound, -⟩ := exists_list_eq_ok.1 ⟨entries, h⟩
  obtain ⟨items, rfl, rfl, hw⟩ := Term.foundOf hfound
  refine ⟨items, rfl, ?_⟩
  rw [hfound, list] at h
  obtain ⟨read, hread, hclosed⟩ := bind_eq_ok.1 h
  obtain rfl := Except.ok.inj hclosed
  rw [Term.foundItems_of_whole hw, mapM_eq_ok, List.forall₂_map_left_iff] at hread
  clear hfound h hclosed hw
  induction hread with
  | nil => rfl
  | cons hentry _ ih => rw [List.findIdx?_cons, List.findIdx?_cons, isEmpty_pairs hentry, ih]

variable {field : Field} {entries : Document → List (Entry α)} {members : List (String × Term)}
  {document : Document}

/-- The first entry without pairs stands where the first empty object is written. -/
theorem ReadsEntries.findIdx?_eq_some (hr : ReadsEntries field value entries)
    (hw : Term.wholeMembers members = true)
    (h : reader.readNamed [] {} (Term.foundMembers members) = .ok document) {index : Nat} :
    (entries document).findIdx? (·.pairs.isEmpty) = some index ↔
      EmptyAt field.name members index := by
  rw [Term.foundMembers_of_whole hw] at h
  have hlisted {name : String} {term : Term} (hm : (name, term) ∈ members)
      (hn : name = field.name) :
      list (entry value) term.found = .ok (entries document) := by
    have hfound : (name, term.found) ∈ members.map fun member => (member.1, member.2.found) :=
      List.mem_map.2 ⟨_, hm, rfl⟩
    obtain ⟨record, next, hset, hshown⟩ :=
      readNamed_set hr.other hfound (field_ofName?_eq_some.2 hn) h
    rw [hshown]
    exact hr.set hset
  constructor
  · intro hi
    by_cases hnone : ∀ member ∈ members, member.1 ≠ field.name
    · have hkept : entries document = entries {} := by
        refine readNamed_kept hr.other (.inr (List.forall_mem_map.2 fun member hm hf => ?_)) h
        exact hnone member hm (field_ofName?_eq_some.1 hf)
      rw [hkept, hr.start] at hi
      cases hi
    · simp only [not_forall, not_not] at hnone
      obtain ⟨⟨name, term⟩, hm, hn⟩ := hnone
      obtain ⟨items, rfl, hsame⟩ := findIdx?_entries (hlisted hm hn)
      exact ⟨items, hn ▸ hm, hsame ▸ hi⟩
  · rintro ⟨items, hm, hi⟩
    obtain ⟨found, he, hsame⟩ := findIdx?_entries (hlisted hm rfl)
    obtain rfl := Term.array.inj he
    rw [hsame, hi]

end Entries

/-! ## Whole texts -/

theorem emptyEntry?_eq_none {document : Document} :
    document.emptyEntry? = none ↔
      document.levels.findIdx? (·.pairs.isEmpty) = none ∧
        document.attributes.findIdx? (·.pairs.isEmpty) = none := by
  unfold emptyEntry?
  cases document.levels.findIdx? (·.pairs.isEmpty) with
  | some index => simp
  | none => simp

variable {text : String} {members : List (String × Term)}

theorem isDocument_of_read {document : Document} (h : Json.Says text.toList (.object members))
    (hl : ∀ items, ("logger", .array items) ∉ members)
    (hr : Document.read .json text = .ok document) :
    IsDocument members := by
  rw [read_json_of_said h] at hr
  obtain ⟨found, hfound, -⟩ := bind_eq_ok.1 hr
  have hread := (exists_bind_ifClosed_eq_ok (f := id)).1 ⟨found, mapError_eq_ok.1 hfound⟩
  exact (isDocument_iff hl).1 hread

/-- What is left to check of a document is whether it has empty entries. -/
theorem read_of_isDocument (h : Json.Says text.toList (.object members))
    (hl : ∀ items, ("logger", .array items) ∉ members) (hd : IsDocument members) :
    ∃ document, Document.read .json text = checked document ∧
      (∀ index, document.levels.findIdx? (·.pairs.isEmpty) = some index ↔
        EmptyAt "levels" members index) ∧
      ∀ index, document.attributes.findIdx? (·.pairs.isEmpty) = some index ↔
        EmptyAt "attrs" members index := by
  obtain ⟨hw, document, hr⟩ := (isDocument_iff hl).2 hd
  refine ⟨document, ?_, fun _ => readsEntries_levels.findIdx?_eq_some hw hr,
    fun _ => readsEntries_attributes.findIdx?_eq_some hw hr⟩
  rw [read_json_of_said h, hw, hr]
  rfl

/-- A JSON text that says an object is a document if and only if its members have the shapes of
their fields, each field comes at most once, and no entry is empty. Of empty entries the first one
is told, levels before attributes. -/
theorem exists_read_json_iff (h : Json.Says text.toList (.object members))
    (hl : ∀ items, ("logger", .array items) ∉ members) :
    ((∃ document, Document.read .json text = .ok document) ↔
      IsDocument members ∧
        ∀ index, ¬ EmptyAt "levels" members index ∧ ¬ EmptyAt "attrs" members index) ∧
    (IsDocument members →
      (∀ index, EmptyAt "levels" members index →
        Document.read .json text = .error (.emptyEntry .level index)) ∧
      ((∀ index, ¬ EmptyAt "levels" members index) →
        ∀ index, EmptyAt "attrs" members index →
          Document.read .json text = .error (.emptyEntry .attr index))) := by
  refine ⟨⟨?_, ?_⟩, fun hd => ⟨fun index hi => ?_, fun hnone index hi => ?_⟩⟩
  · rintro ⟨result, hr⟩
    have hd := isDocument_of_read h hl hr
    obtain ⟨document, hread, hlevels, hattributes⟩ := read_of_isDocument h hl hd
    obtain ⟨hempty, -⟩ := checked_eq_ok.1 (hread.symm.trans hr)
    obtain ⟨hl, ha⟩ := emptyEntry?_eq_none.1 hempty
    refine ⟨hd, fun index => ⟨fun hi => ?_, fun hi => ?_⟩⟩
    · rw [← hlevels, hl] at hi
      cases hi
    · rw [← hattributes, ha] at hi
      cases hi
  · rintro ⟨hd, hnone⟩
    obtain ⟨document, hread, hlevels, hattributes⟩ := read_of_isDocument h hl hd
    refine ⟨document, hread.trans (checked_eq_ok.2 ⟨emptyEntry?_eq_none.2 ⟨?_, ?_⟩, rfl⟩)⟩
    · exact Option.eq_none_iff_forall_ne_some.2 fun index hi =>
        (hnone index).1 ((hlevels index).1 hi)
    · exact Option.eq_none_iff_forall_ne_some.2 fun index hi =>
        (hnone index).2 ((hattributes index).1 hi)
  · obtain ⟨document, hread, hlevels, -⟩ := read_of_isDocument h hl hd
    rw [hread, checked, emptyEntry?, (hlevels index).2 hi]
  · obtain ⟨document, hread, hlevels, hattributes⟩ := read_of_isDocument h hl hd
    have hn : document.levels.findIdx? (·.pairs.isEmpty) = none :=
      Option.eq_none_iff_forall_ne_some.2 fun index hi => hnone index ((hlevels index).1 hi)
    rw [hread, checked, emptyEntry?, hn, (hattributes index).2 hi]
    rfl

def emptyEntryMembers : List (String × Term) := [
  ("levels", .array [.object [("low", .number (.ofInt (-7)))], .object []]),
  ("attrs", .array [.object []])]

def emptyEntryText : String :=
  "\x7b\"levels\":[\x7b\"low\":-7\x7d,\x7b\x7d],\"attrs\":[\x7b\x7d]\x7d"

theorem says_emptyEntryText : Json.Says emptyEntryText.toList (.object emptyEntryMembers) := by
  have hnone : Json.Spaces [] := List.forall_mem_nil _
  have helement {term : Term} {t : List Char} (h : Json.Writes (.value term) t) :
      Json.Writes (.element term) t := by
    simpa using Json.Writes.element hnone h hnone
  have hname (name : String) := Json.spelledString_printedString name
  have hempty := helement (.emptyObject hnone)
  have hseven := helement (.number (Json.Numeral.wellFormed_ofInt (-7)))
  have hlow := helement (.object (.lastMember hnone (hname "low") hnone hseven))
  have hlevels := helement (.array (.moreElements hlow (.lastElement hempty)))
  have hattrs := helement (.array (.lastElement hempty))
  have hmembers := Json.Writes.moreMembers hnone (hname "levels") hnone hlevels
    (.lastMember hnone (hname "attrs") hnone hattrs)
  have htext : emptyEntryText.toList = _ := String.toList_ofList
  rw [htext]
  exact helement (.object hmembers)

theorem exists_read_json_iff_emptyEntryText :
    Json.Says emptyEntryText.toList (.object emptyEntryMembers) ∧
      (∀ items, ("logger", .array items) ∉ emptyEntryMembers) ∧ IsDocument emptyEntryMembers ∧
      EmptyAt "levels" emptyEntryMembers 1 ∧ EmptyAt "attrs" emptyEntryMembers 0 ∧
      (¬ ∃ document, Document.read .json emptyEntryText = .ok document) ∧
      Document.read .json emptyEntryText = .error (.emptyEntry .level 1) := by
  have hlogger : ∀ items, ("logger", .array items) ∉ emptyEntryMembers := by
    intro items
    simp [emptyEntryMembers]
  have hseven : Term.IsSeverity (.number (.ofInt (-7))) :=
    ⟨_, rfl, rfl, rfl, by decide, by decide, by decide⟩
  have hlevels : Term.IsList (Term.IsEntry Term.IsSeverity)
      (.array [.object [("low", .number (.ofInt (-7)))], .object []]) := by
    refine ⟨_, rfl, ?_⟩
    simp only [List.forall_mem_cons]
    exact ⟨⟨_, rfl, List.forall_mem_singleton.2 hseven⟩, ⟨_, rfl, nofun⟩, nofun⟩
  have hattrs : Term.IsList (Term.IsEntry Term.IsString) (.array [.object []]) :=
    ⟨_, rfl, List.forall_mem_singleton.2 ⟨_, rfl, nofun⟩⟩
  have hdocument : IsDocument emptyEntryMembers := by
    refine ⟨?_, by decide⟩
    rw [emptyEntryMembers, List.forall_mem_cons, List.forall_mem_singleton]
    exact ⟨⟨.levels, rfl, hlevels⟩, .attrs, rfl, hattrs⟩
  have hlevel : EmptyAt "levels" emptyEntryMembers 1 := ⟨_, List.mem_cons_self, rfl⟩
  have hattr : EmptyAt "attrs" emptyEntryMembers 0 :=
    ⟨_, List.mem_cons_of_mem _ List.mem_cons_self, rfl⟩
  obtain ⟨haccepted, hfaults⟩ := exists_read_json_iff says_emptyEntryText hlogger
  exact ⟨says_emptyEntryText, hlogger, hdocument, hlevel, hattr, fun hd =>
    ((haccepted.1 hd).2 1).1 hlevel, (hfaults hdocument).1 1 hlevel⟩

end SlogHelpers.Document
