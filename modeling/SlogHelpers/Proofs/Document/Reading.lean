import SlogHelpers.Document.Read
import SlogHelpers.Proofs.Fallible
import SlogHelpers.Proofs.Json.Reading

/-!
Documents from JSON texts, as far as they depend only on the value that a text says.
-/
namespace SlogHelpers.Document
open Fallible

section Record

variable {φ ρ ν ε : Type} [DecidableEq φ] {reader : RecordReader φ ρ ν ε} {seen : List φ}
  {start next : ρ} {name : String} {value : ν} {rest : List (String × ν)} {field : φ}

theorem readNamed_cons (hf : reader.field? name = some field) (hs : field ∉ seen)
    (hv : reader.set field value start = .ok next) :
    reader.readNamed seen start ((name, value) :: rest) =
      reader.readNamed (field :: seen) next rest := by
  simp only [RecordReader.readNamed, hf, if_neg hs, hv]
  rfl

theorem readNamed_cons_eq_ok {result : ρ} :
    reader.readNamed seen start ((name, value) :: rest) = .ok result ↔
      ∃ field next, reader.field? name = some field ∧ field ∉ seen ∧
        reader.set field value start = .ok next ∧
        reader.readNamed (field :: seen) next rest = .ok result := by
  constructor
  · intro h
    rw [RecordReader.readNamed] at h
    split at h
    · cases h
    · next field hf =>
      split at h
      · cases h
      · next hs =>
        obtain ⟨next, hv, h⟩ := bind_eq_ok.1 h
        exact ⟨field, next, hf, hs, hv, h⟩
  · rintro ⟨field, next, hf, hs, hv, h⟩
    rw [readNamed_cons hf hs hv, h]

variable {δ : Type} {shown : ρ → δ} {members : List (String × ν)} {result : ρ}

/-- What only one field sets stays as it is until the field comes. -/
theorem readNamed_kept
    (hother : ∀ {other value record next}, other ≠ field →
      reader.set other value record = .ok next → shown next = shown record)
    (hnone : field ∈ seen ∨ ∀ member ∈ members, reader.field? member.1 ≠ some field)
    (h : reader.readNamed seen start members = .ok result) : shown result = shown start := by
  induction members generalizing seen start with
  | nil =>
    cases h
    rfl
  | cons member rest ih =>
    obtain ⟨name, value⟩ := member
    obtain ⟨found, next, hf, hs, hv, hrest⟩ := readNamed_cons_eq_ok.1 h
    have hne : found ≠ field := by
      rintro rfl
      obtain hseen | hnone := hnone
      · exact hs hseen
      · exact hnone (name, value) List.mem_cons_self hf
    have hnone :=
      hnone.imp (List.mem_cons_of_mem found) fun hm member h => hm member (List.mem_cons_of_mem _ h)
    rw [ih hnone hrest, hother hne hv]

/-- What only one field sets is there in the end as that field has set it. -/
theorem readNamed_set
    (hother : ∀ {other value record next}, other ≠ field →
      reader.set other value record = .ok next → shown next = shown record)
    (hm : (name, value) ∈ members) (hf : reader.field? name = some field)
    (h : reader.readNamed seen start members = .ok result) :
    ∃ record next, reader.set field value record = .ok next ∧ shown result = shown next := by
  induction members generalizing seen start with
  | nil => cases hm
  | cons member rest ih =>
    obtain ⟨other, given⟩ := member
    obtain ⟨found, next, hfound, hs, hv, hrest⟩ := readNamed_cons_eq_ok.1 h
    obtain he | hm := List.mem_cons.1 hm
    · cases he
      obtain rfl : found = field := Option.some.inj (hfound.symm.trans hf)
      exact ⟨start, next, hv, readNamed_kept hother (.inl List.mem_cons_self) hrest⟩
    · exact ih hm hrest

end Record

theorem checked_eq_ok {document result : Document} :
    checked document = .ok result ↔ document.emptyEntry? = none ∧ document = result := by
  rw [checked]
  cases document.emptyEntry? with
  | none => simp
  | some place => simp

variable {text : String} {result : Document}

section Terms

variable {members : List (String × Json.Term)}

theorem isBlankText_of_said (h : Json.Says text.toList (.object members)) :
    Text.isBlankText text = false := by
  have hmem : ∀ t, Json.Says t (.object members) → '\x7b' ∈ t := by
    intro t h
    cases h with
    | element _ hv _ => cases hv <;> simp
  rw [Text.isBlankText, List.all_eq_false]
  exact ⟨_, hmem _ h, by decide⟩

/-- What a text is read as that says an object. -/
theorem read_json_of_said (h : Json.Says text.toList (.object members)) :
    Document.read .json text =
      (OfJson.reader.readNamed [] {} (Json.Term.foundMembers members) >>=
        OfJson.ifClosed (Json.Term.wholeMembers members)).mapError OfJson.Fault.toDocumentFault >>=
          checked := by
  have hread : OfJson.read text = OfJson.reader.readNamed [] {} (Json.Term.foundMembers members) >>=
      OfJson.ifClosed (Json.Term.wholeMembers members) := by
    rw [OfJson.read, Json.read_of_said h]
    simp only [Json.Term.found, Json.Term.whole, OfJson.document, OfJson.record]
    cases OfJson.reader.readNamed [] {} (Json.Term.foundMembers members) with
    | error fault => rfl
    | ok document =>
      cases Json.Term.wholeMembers members with
      | true => rfl
      | false => rfl
  rw [Document.read, isBlankText_of_said h, readAs, hread, if_neg (by decide)]

end Terms

/-- What a text is read as that spells an object. -/
theorem read_json_eq_ok {members : List (String × Json)}
    (h : Json.Spells text.toList (.object members true)) :
    Document.read .json text = .ok result ↔
      OfJson.reader.readNamed [] {} members = .ok result ∧ result.emptyEntry? = none := by
  obtain ⟨term, hsays, hfound, -⟩ := Json.saidBy_of_spelled h
  obtain ⟨terms, rfl, rfl, hwhole⟩ := Json.Term.foundOf hfound
  rw [read_json_of_said hsays, hwhole, bind_eq_ok]
  constructor
  · rintro ⟨document, hd, hc⟩
    obtain ⟨he, rfl⟩ := checked_eq_ok.1 hc
    obtain ⟨read, hread, hclosed⟩ := bind_eq_ok.1 (mapError_eq_ok.1 hd)
    obtain rfl := Except.ok.inj hclosed
    exact ⟨hread, he⟩
  · rintro ⟨hd, he⟩
    exact ⟨result, mapError_eq_ok.2 (bind_eq_ok.2 ⟨result, hd, rfl⟩), checked_eq_ok.2 ⟨he, rfl⟩⟩

end SlogHelpers.Document
