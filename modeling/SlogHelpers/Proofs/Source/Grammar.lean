import SlogHelpers.Proofs.Lists
import SlogHelpers.Proofs.Source.Tokens

/-!
Go's grammar of types over tokens. Where the grammar looks at more than the tokens of a construct,
at how the entries of a parameter list are written, at what type is embedded or at how a literal is
spelled, a reading may be given the liberty not to look; with no liberty at all, the types are those
of the language.
-/
namespace SlogHelpers.Source

/-- What a reading of types may not look at. -/
inductive Liberty where
  /-- Some entries of a parameter list have names and others have none. -/
  | mixedEntries
  /-- A field without a name has a type that is no name. -/
  | embeddedType
  | number
  | string
  deriving DecidableEq, Repr

/-- What a type is, as far as it matters to where it may stand. -/
inductive Kind where
  | identifier
  | named
  | pointer
  | other
  deriving DecidableEq, Repr

def Kind.pointed : Kind → Kind
  | .identifier => .pointer
  | .named => .pointer
  | _ => .other

/-- How an entry of a parameter list is written. -/
inductive Entry where
  /-- As an identifier: a type, or a name whose type stands in a later entry. -/
  | identifier
  | type
  | named
  deriving DecidableEq, Repr

/-- How an entry is written that has a type of the kind and no name. -/
def Kind.entry : Kind → Entry
  | .identifier => .identifier
  | _ => .type

/-- All entries are types, or all have names: an identifier without a type has that of the next
entry with one. -/
def Uniform (entries : List Entry) : Prop :=
  .named ∉ entries ∨ (.type ∉ entries ∧ entries.getLast? = some .named)

instance (entries : List Entry) : Decidable (Uniform entries) := inferInstanceAs (Decidable (_ ∨ _))

inductive Phrase where
  | typeName (kind : Kind)
  | type (kind : Kind)
  | arguments
  | length
  | variadic (kind : Kind)
  | entry (entry : Entry)
  | entries (entries : List Entry)
  | parameters
  | signature
  | term
  | union
  | element
  | names
  | tag
  | field
  /-- Items with semicolons between them, as they stand between braces. -/
  | body (item : Phrase)

/-- The tokens make up the phrase, if these liberties are taken. -/
inductive Derives (allowed : Liberty → Prop) : Phrase → List Token → Prop
  -- Types.
  | identifier {name} (hn : isIdentifierChars name = true) :
    Derives allowed (.typeName .identifier) [.word name]
  | qualified {package name} (hp : isIdentifierChars package = true)
    (hn : isIdentifierChars name = true) :
    Derives allowed (.typeName .named) [.word package, .mark .dot, .word name]
  | named {kind ts} (h : Derives allowed (.typeName kind) ts) : Derives allowed (.type kind) ts
  | instantiated {kind ts us} (h : Derives allowed (.typeName kind) ts)
    (ha : Derives allowed .arguments us) :
    Derives allowed (.type .named) (ts ++ .mark .openSquare :: us ++ [.mark .closeSquare])
  | parenthesized {kind ts} (h : Derives allowed (.type kind) ts) :
    Derives allowed (.type .other) (.mark .openRound :: ts ++ [.mark .closeRound])
  | pointer {kind ts} (h : Derives allowed (.type kind) ts) :
    Derives allowed (.type kind.pointed) (.mark .star :: ts)
  | slice {kind ts} (h : Derives allowed (.type kind) ts) :
    Derives allowed (.type .other) (.mark .openSquare :: .mark .closeSquare :: ts)
  | array {kind ts us} (hl : Derives allowed .length ts) (h : Derives allowed (.type kind) us) :
    Derives allowed (.type .other) (.mark .openSquare :: ts ++ .mark .closeSquare :: us)
  | map {key kind ts us} (hk : Derives allowed (.type key) ts)
    (h : Derives allowed (.type kind) us) :
    Derives allowed (.type .other)
      (.keyword .map :: .mark .openSquare :: ts ++ .mark .closeSquare :: us)
  | channel {kind ts} (h : Derives allowed (.type kind) ts) :
    Derives allowed (.type .other) (.keyword .chan :: ts)
  | sendChannel {kind ts} (h : Derives allowed (.type kind) ts) :
    Derives allowed (.type .other) (.keyword .chan :: .mark .arrow :: ts)
  | receiveChannel {kind ts} (h : Derives allowed (.type kind) ts) :
    Derives allowed (.type .other) (.mark .arrow :: .keyword .chan :: ts)
  | function {ts} (h : Derives allowed .signature ts) :
    Derives allowed (.type .other) (.keyword .func :: ts)
  | interface {ts} (h : Derives allowed (.body .element) ts) :
    Derives allowed (.type .other)
      (.keyword .interface :: .mark .openCurly :: ts ++ [.mark .closeCurly])
  | struct {ts} (h : Derives allowed (.body .field) ts) :
    Derives allowed (.type .other)
      (.keyword .struct :: .mark .openCurly :: ts ++ [.mark .closeCurly])
  -- Type arguments; a comma may follow the last one.
  | lastArgument {kind ts} (h : Derives allowed (.type kind) ts) : Derives allowed .arguments ts
  | lastArgumentComma {kind ts} (h : Derives allowed (.type kind) ts) :
    Derives allowed .arguments (ts ++ [.mark .comma])
  | moreArguments {kind ts us} (h : Derives allowed (.type kind) ts)
    (hs : Derives allowed .arguments us) :
    Derives allowed .arguments (ts ++ .mark .comma :: us)
  -- Lengths of arrays: of the constant expressions, literals and names.
  | literalLength {digits} (h : isIntLiteral digits = true ∨ allowed .number) :
    Derives allowed .length [.number digits]
  | constantLength {kind ts} (h : Derives allowed (.typeName kind) ts) : Derives allowed .length ts
  -- Parameters; a comma may follow the last entry.
  | single {kind ts} (h : Derives allowed (.type kind) ts) : Derives allowed (.variadic kind) ts
  | variadic {kind ts} (h : Derives allowed (.type kind) ts) :
    Derives allowed (.variadic .other) (.mark .dots :: ts)
  | unnamedEntry {kind ts} (h : Derives allowed (.variadic kind) ts) :
    Derives allowed (.entry kind.entry) ts
  | namedEntry {name kind ts} (hn : isIdentifierChars name = true)
    (h : Derives allowed (.variadic kind) ts) :
    Derives allowed (.entry .named) (.word name :: ts)
  | noEntry : Derives allowed (.entries []) []
  | lastEntry {e ts} (h : Derives allowed (.entry e) ts) : Derives allowed (.entries [e]) ts
  | moreEntries {e es ts us} (h : Derives allowed (.entry e) ts)
    (hs : Derives allowed (.entries es) us) :
    Derives allowed (.entries (e :: es)) (ts ++ .mark .comma :: us)
  | parameters {es ts} (h : Derives allowed (.entries es) ts)
    (hu : Uniform es ∨ allowed .mixedEntries) :
    Derives allowed .parameters (.mark .openRound :: ts ++ [.mark .closeRound])
  | noResult {ts} (h : Derives allowed .parameters ts) : Derives allowed .signature ts
  | results {ts us} (h : Derives allowed .parameters ts) (hr : Derives allowed .parameters us) :
    Derives allowed .signature (ts ++ us)
  | result {kind ts us} (h : Derives allowed .parameters ts)
    (hr : Derives allowed (.type kind) us) :
    Derives allowed .signature (ts ++ us)
  -- Bodies; a semicolon may follow the last item.
  | noItem {item} : Derives allowed (.body item) []
  | lastItem {item ts} (h : Derives allowed item ts) : Derives allowed (.body item) ts
  | moreItems {item ts us} (h : Derives allowed item ts) (hs : Derives allowed (.body item) us) :
    Derives allowed (.body item) (ts ++ .mark .semicolon :: us)
  -- Elements of interfaces.
  | typeTerm {kind ts} (h : Derives allowed (.type kind) ts) : Derives allowed .term ts
  | underlyingTerm {kind ts} (h : Derives allowed (.type kind) ts) :
    Derives allowed .term (.mark .tilde :: ts)
  | lastTerm {ts} (h : Derives allowed .term ts) : Derives allowed .union ts
  | moreTerms {ts us} (h : Derives allowed .term ts) (hs : Derives allowed .union us) :
    Derives allowed .union (ts ++ .mark .bar :: us)
  | method {name ts} (hn : isIdentifierChars name = true) (h : Derives allowed .signature ts) :
    Derives allowed .element (.word name :: ts)
  | typeElement {ts} (h : Derives allowed .union ts) : Derives allowed .element ts
  -- Fields of structs.
  | lastName {name} (hn : isIdentifierChars name = true) : Derives allowed .names [.word name]
  | moreNames {name ts} (hn : isIdentifierChars name = true) (hs : Derives allowed .names ts) :
    Derives allowed .names (.word name :: .mark .comma :: ts)
  | noTag : Derives allowed .tag []
  | rawTag {body} : Derives allowed .tag [.raw body]
  | interpretedTag {literal} (h : isInterpretedLiteral literal = true ∨ allowed .string) :
    Derives allowed .tag [.interpreted literal]
  | namedField {kind ts us ws} (hn : Derives allowed .names ts)
    (h : Derives allowed (.type kind) us)
    (ht : Derives allowed .tag ws) : Derives allowed .field (ts ++ us ++ ws)
  | embeddedField {kind ts us} (h : Derives allowed (.type kind) ts)
    (hk : kind ≠ .other ∨ allowed .embeddedType)
    (ht : Derives allowed .tag us) : Derives allowed .field (ts ++ us)

/-! ## Occasions -/

/-- The tokens of a type give occasion to the liberty. -/
def Liberty.Occasion (ts : List Token) : Liberty → Prop
  | .mixedEntries => .mark .openRound ∈ ts ∧ .mark .comma ∈ ts
  | .embeddedType => .keyword .struct ∈ ts
  | .number => ∃ digits, .number digits ∈ ts ∧ isIntLiteral digits = false
  | .string => ∃ literal, .interpreted literal ∈ ts ∧ isInterpretedLiteral literal = false

/-- Whether the phrase is part of a struct's body by itself. -/
def Phrase.InStruct : Phrase → Prop
  | .field => True
  | .body item => item.InStruct
  | _ => False

/-- Every liberty is allowed that the tokens give occasion to; a field by itself gives occasion to
embed any type. -/
structure Suits (allowed : Liberty → Prop) (p : Phrase) (ts : List Token) : Prop where
  occasion : ∀ liberty : Liberty, liberty.Occasion ts → allowed liberty
  inStruct : p.InStruct → allowed .embeddedType

variable {allowed taken : Liberty → Prop} {p q : Phrase} {ts us : List Token}

theorem Liberty.Occasion.mono {liberty : Liberty} (h : liberty.Occasion us) (hs : us ⊆ ts) :
    liberty.Occasion ts := by
  cases liberty with
  | mixedEntries => exact ⟨hs h.1, hs h.2⟩
  | embeddedType => exact hs h
  | number =>
    obtain ⟨digits, hd, hn⟩ := h
    exact ⟨digits, hs hd, hn⟩
  | string =>
    obtain ⟨literal, hl, hn⟩ := h
    exact ⟨literal, hs hl, hn⟩

theorem Suits.part (h : Suits allowed p ts) (hs : us ⊆ ts) (hq : q.InStruct → p.InStruct) :
    Suits allowed q us :=
  ⟨fun liberty ho => h.occasion liberty (ho.mono hs), fun hi => h.inStruct (hq hi)⟩

theorem Suits.same (h : Suits allowed p ts) (hq : q.InStruct → p.InStruct) : Suits allowed q ts :=
  h.part (List.Subset.refl ts) hq

theorem Suits.left (h : Suits allowed p (ts ++ us)) (hq : q.InStruct → p.InStruct) :
    Suits allowed q ts :=
  h.part (List.subset_append_left ts us) hq

theorem Suits.right (h : Suits allowed p (ts ++ us)) (hq : q.InStruct → p.InStruct) :
    Suits allowed q us :=
  h.part (List.subset_append_right ts us) hq

theorem Suits.tail {x : Token} (h : Suits allowed p (x :: ts)) (hq : q.InStruct → p.InStruct) :
    Suits allowed q ts :=
  h.part (List.subset_cons_self x ts) hq

theorem uniform_of_no_comma {es : List Entry} (h : Derives taken (.entries es) ts)
    (hc : .mark .comma ∉ ts) :
    Uniform es := by
  cases h with
  | noEntry => exact .inl (List.not_mem_nil)
  | @lastEntry e => cases e <;> decide
  | moreEntries => exact absurd (List.mem_append_right _ List.mem_cons_self) hc

/-- Of the liberties that are taken, those suffice that there is occasion for. -/
theorem Derives.narrow (h : Derives taken p ts) (hs : Suits allowed p ts) :
    Derives allowed p ts := by
  induction h with
  | identifier hn => exact .identifier hn
  | qualified hp hn => exact .qualified hp hn
  | named _ ih => exact .named (ih (hs.same nofun))
  | instantiated _ _ ih iha =>
    exact .instantiated (ih ((hs.left id).left nofun)) (iha (((hs.left id).right id).tail nofun))
  | parenthesized _ ih => exact .parenthesized (ih ((hs.left id).tail nofun))
  | pointer _ ih => exact .pointer (ih (hs.tail nofun))
  | slice _ ih => exact .slice (ih ((hs.tail id).tail nofun))
  | array _ _ ihl ih => exact .array (ihl ((hs.left id).tail nofun)) (ih ((hs.right id).tail nofun))
  | map _ _ ihk ih =>
    exact .map (ihk (((hs.left id).tail id).tail nofun)) (ih ((hs.right id).tail nofun))
  | channel _ ih => exact .channel (ih (hs.tail nofun))
  | sendChannel _ ih => exact .sendChannel (ih ((hs.tail id).tail nofun))
  | receiveChannel _ ih => exact .receiveChannel (ih ((hs.tail id).tail nofun))
  | function _ ih => exact .function (ih (hs.tail nofun))
  | interface _ ih => exact .interface (ih (((hs.left id).tail id).tail nofun))
  | struct _ ih =>
    -- Only here does a part need a liberty whose occasion is not among its own tokens.
    have hin : allowed .embeddedType := hs.occasion .embeddedType List.mem_cons_self
    have hbody : Suits allowed (.type .other) _ := (((hs.left id).tail id).tail nofun)
    exact .struct (ih ⟨hbody.occasion, fun _ => hin⟩)
  | lastArgument _ ih => exact .lastArgument (ih (hs.same nofun))
  | lastArgumentComma _ ih => exact .lastArgumentComma (ih (hs.left nofun))
  | moreArguments _ _ ih ihs =>
    exact .moreArguments (ih (hs.left nofun)) (ihs ((hs.right id).tail nofun))
  | @literalLength digits _ =>
    refine .literalLength ?_
    cases hd : isIntLiteral digits with
    | true => exact .inl rfl
    | false => exact .inr (hs.occasion .number ⟨digits, List.mem_singleton_self _, hd⟩)
  | constantLength _ ih => exact .constantLength (ih (hs.same nofun))
  | single _ ih => exact .single (ih (hs.same nofun))
  | «variadic» _ ih => exact .variadic (ih (hs.tail nofun))
  | unnamedEntry _ ih => exact .unnamedEntry (ih (hs.same nofun))
  | namedEntry hn _ ih => exact .namedEntry hn (ih (hs.tail nofun))
  | noEntry => exact .noEntry
  | lastEntry _ ih => exact .lastEntry (ih (hs.same nofun))
  | moreEntries _ _ ih ihs =>
    exact .moreEntries (ih (hs.left nofun)) (ihs ((hs.right id).tail nofun))
  | @parameters es ts h _ ih =>
    refine .parameters (ih ((hs.left id).tail nofun)) ?_
    -- Without a comma there is one entry at most.
    by_cases hc : .mark .comma ∈ ts
    · have hin : .mark .comma ∈ .mark .openRound :: ts ++ [.mark .closeRound] :=
        List.mem_append_left _ (List.mem_cons_of_mem _ hc)
      exact .inr (hs.occasion .mixedEntries ⟨List.mem_cons_self, hin⟩)
    · exact .inl (uniform_of_no_comma h hc)
  | noResult _ ih => exact .noResult (ih (hs.same nofun))
  | results _ _ ih ihr => exact .results (ih (hs.left nofun)) (ihr (hs.right nofun))
  | result _ _ ih ihr => exact .result (ih (hs.left nofun)) (ihr (hs.right nofun))
  | noItem => exact .noItem
  | lastItem _ ih => exact .lastItem (ih (hs.same id))
  | moreItems _ _ ih ihs => exact .moreItems (ih (hs.left id)) (ihs ((hs.right id).tail id))
  | typeTerm _ ih => exact .typeTerm (ih (hs.same nofun))
  | underlyingTerm _ ih => exact .underlyingTerm (ih (hs.tail nofun))
  | lastTerm _ ih => exact .lastTerm (ih (hs.same nofun))
  | moreTerms _ _ ih ihs => exact .moreTerms (ih (hs.left nofun)) (ihs ((hs.right id).tail nofun))
  | method hn _ ih => exact .method hn (ih (hs.tail nofun))
  | typeElement _ ih => exact .typeElement (ih (hs.same nofun))
  | lastName hn => exact .lastName hn
  | moreNames hn _ ih => exact .moreNames hn (ih ((hs.tail id).tail nofun))
  | noTag => exact .noTag
  | rawTag => exact .rawTag
  | @interpretedTag literal _ =>
    refine .interpretedTag ?_
    cases hl : isInterpretedLiteral literal with
    | true => exact .inl rfl
    | false => exact .inr (hs.occasion .string ⟨literal, List.mem_singleton_self _, hl⟩)
  | namedField _ _ _ ihn ih iht =>
    exact .namedField (ihn ((hs.left id).left nofun)) (ih ((hs.left id).right nofun))
      (iht (hs.right nofun))
  | embeddedField _ _ _ ih iht =>
    exact .embeddedField (ih (hs.left nofun)) (.inr (hs.inStruct trivial)) (iht (hs.right nofun))

def IsType (allowed : Liberty → Prop) (text : String) : Prop :=
  ∃ ts kind, tokens? text.toList = some ts ∧ Derives allowed (.type kind) ts

def IsGoType (text : String) : Prop := IsType (fun _ => False) text

/-! ## Inversion -/

namespace Derives

variable {kind : Kind} {word name other literal : List Char} {e : Entry} {es : List Entry}

/-- What the first token of a type tells of it. -/
def Begins (allowed : Liberty → Prop) (kind : Kind) : Token → List Token → Prop
  | .word _, ts =>
    (kind = .identifier ∧ ts = []) ∨ ∃ us, ts = .mark .dot :: us ∨ ts = .mark .openSquare :: us
  | .keyword .func, ts => Derives allowed .signature ts
  | .keyword .struct, ts =>
    ∃ us, ts = .mark .openCurly :: us ++ [.mark .closeCurly] ∧ Derives allowed (.body .field) us
  | .mark .openSquare, ts => kind = .other ∧ ((∃ us, ts = .mark .closeSquare :: us) ∨
      ∃ us ws, ts = us ++ .mark .closeSquare :: ws ∧ Derives allowed .length us)
  | .interpreted _, _ => False
  | _, _ => True

theorem begins (h : Derives allowed (.type kind) ts) :
    ∃ x us, ts = x :: us ∧ Begins allowed kind x us := by
  cases h with
  | named h =>
    cases h with
    | identifier => exact ⟨_, _, rfl, .inl ⟨rfl, rfl⟩⟩
    | qualified => exact ⟨_, _, rfl, .inr ⟨_, .inl rfl⟩⟩
  | instantiated h ha =>
    cases h with
    | identifier => exact ⟨_, _, rfl, .inr ⟨_, .inr rfl⟩⟩
    | qualified => exact ⟨_, _, rfl, .inr ⟨_, .inl rfl⟩⟩
  | slice => exact ⟨_, _, rfl, rfl, .inl ⟨_, rfl⟩⟩
  | array hl => exact ⟨_, _, rfl, rfl, .inr ⟨_, _, rfl, hl⟩⟩
  | function h => exact ⟨_, _, rfl, h⟩
  | struct h => exact ⟨_, _, rfl, _, rfl, h⟩
  | _ => exact ⟨_, _, rfl, trivial⟩

theorem begins_cons {x : Token} (h : Derives allowed (.type kind) (x :: ts)) :
    Begins allowed kind x ts := by
  obtain ⟨_, _, hs, hb⟩ := h.begins
  cases hs
  exact hb

theorem ne_nil (h : Derives allowed (.type kind) ts) : ts ≠ [] := by
  obtain ⟨_, _, rfl, -⟩ := h.begins
  exact List.cons_ne_nil _ _

theorem variadic_of_entry (h : Derives allowed (.entry e) ts) :
    (∃ kind, e = kind.entry ∧ Derives allowed (.variadic kind) ts) ∨
      e = .named ∧ ∃ name us kind, ts = .word name :: us ∧ Derives allowed (.variadic kind) us := by
  cases h with
  | unnamedEntry h => exact .inl ⟨_, rfl, h⟩
  | namedEntry hn h => exact .inr ⟨rfl, _, _, _, rfl, h⟩

theorem type_of_variadic (h : Derives allowed (.variadic kind) (.word word :: ts)) :
    Derives allowed (.type kind) (.word word :: ts) := by
  cases h with
  | single h => exact h

theorem named_of_two_words (h : Derives allowed (.entry e) (.word word :: .word other :: ts)) :
    e = .named := by
  obtain ⟨kind, -, h⟩ | ⟨he, -⟩ := variadic_of_entry h
  · obtain ⟨-, hs⟩ | ⟨_, hs | hs⟩ := (type_of_variadic h).begins_cons
    · cases hs
    · cases hs
    · cases hs
  · exact he

theorem identifier_of_word (h : Derives allowed (.entry e) [.word word]) : e = .identifier := by
  obtain ⟨kind, rfl, hv⟩ | ⟨-, _, _, kind, hs, h⟩ := variadic_of_entry h
  · obtain ⟨rfl, -⟩ | ⟨_, hs | hs⟩ := (type_of_variadic hv).begins_cons
    · rfl
    · cases hs
    · cases hs
  · cases hs
    cases h with
    | single h => exact absurd rfl h.ne_nil

theorem not_entry_comma :
    ¬ Derives allowed (.entry e) (.word word :: .word other :: .mark .comma :: ts) := by
  intro h
  obtain rfl := named_of_two_words h
  obtain ⟨kind, he, -⟩ | ⟨-, _, _, kind, hs, h⟩ := variadic_of_entry h
  · cases kind <;> cases he
  · cases hs
    obtain ⟨-, hs⟩ | ⟨_, hs | hs⟩ := (type_of_variadic h).begins_cons
    · cases hs
    · cases hs
    · cases hs

theorem entries_of_mixed
    (h : Derives allowed (.entries es) [.word word, .word name, .mark .comma, .word other]) :
    es = [.named, .identifier] := by
  generalize hts : [Token.word word, .word name, .mark .comma, .word other] = ts at h
  cases h with
  | noEntry => cases hts
  | lastEntry h =>
    subst hts
    exact absurd h not_entry_comma
  | moreEntries h hs =>
    obtain ⟨rfl, rfl⟩ : _ = [Token.word word, .word name] ∧ _ = [Token.word other] := by
      simpa [List.cons_eq_append_iff] using hts
    obtain rfl := named_of_two_words h
    generalize hus : [Token.word other] = us at hs
    cases hs with
    | noEntry => cases hus
    | lastEntry h =>
      subst hus
      rw [identifier_of_word h]
    | moreEntries => simp [List.cons_eq_append_iff] at hus

theorem parameters_of_signature (h : Derives allowed .signature ts) :
    ∃ us ws, ts = us ++ ws ∧ Derives allowed .parameters us := by
  cases h with
  | noResult h => exact ⟨_, [], (List.append_nil _).symm, h⟩
  | results h => exact ⟨_, _, rfl, h⟩
  | result h => exact ⟨_, _, rfl, h⟩

theorem entries_of_signature (us : List Token)
    (h : Derives allowed .signature (.mark .openRound :: us ++ [.mark .closeRound]))
    (hn : .mark .closeRound ∉ us) :
    ∃ es, Derives allowed (.entries es) us ∧ (Uniform es ∨ allowed .mixedEntries) := by
  obtain ⟨ps, ws, hs, hp⟩ := parameters_of_signature h
  cases hp with
  | @parameters es ts hes hu =>
    have ht : us ++ [.mark .closeRound] = ts ++ .mark .closeRound :: ws := by simpa using hs
    obtain ⟨rfl, -, -⟩ | ⟨rest, -, rfl⟩ := Lists.append_singleton_eq_append_cons ht
    · exact ⟨es, hes, hu⟩
    · exact absurd (List.mem_append_right _ List.mem_cons_self) hn

theorem field_of_body (h : Derives allowed (.body .field) ts) (hne : ts ≠ [])
    (hs : .mark .semicolon ∉ ts) :
    Derives allowed .field ts := by
  cases h with
  | noItem => exact absurd rfl hne
  | lastItem h => exact h
  | moreItems => exact absurd (List.mem_append_right _ List.mem_cons_self) hs

theorem word_of_names (h : Derives allowed .names ts) : ∃ name us, ts = .word name :: us := by
  cases h with
  | lastName => exact ⟨_, _, rfl⟩
  | moreNames => exact ⟨_, _, rfl⟩

theorem literal_of_tag (h : Derives allowed .tag [.interpreted literal]) :
    isInterpretedLiteral literal = true ∨ allowed .string := by
  cases h with
  | interpretedTag h => exact h

theorem literal_of_length (h : Derives allowed .length [.number word]) :
    isIntLiteral word = true ∨ allowed .number := by
  cases h with
  | literalLength h => exact h
  | constantLength h => cases h

theorem embedded_slice
    (h : Derives allowed .field [.mark .openSquare, .mark .closeSquare, .word word]) :
    allowed .embeddedType := by
  generalize hts : [Token.mark .openSquare, .mark .closeSquare, .word word] = ts at h
  cases h with
  | namedField hn =>
    obtain ⟨name, us, rfl⟩ := word_of_names hn
    cases hts
  | embeddedField h hk ht =>
    obtain ⟨x, us, rfl, hb⟩ := h.begins
    obtain ⟨rfl, -⟩ := List.cons.inj hts
    exact hk.resolve_left (not_not_intro hb.1)

theorem tag_of_word (h : Derives allowed .field [.word word, .interpreted literal]) :
    Derives allowed .tag [.interpreted literal] := by
  generalize hts : [Token.word word, .interpreted literal] = ts at h
  cases h with
  | namedField hn h =>
    obtain ⟨name, us, rfl⟩ := word_of_names hn
    obtain ⟨x, ws, rfl, hb⟩ := h.begins
    cases us with
    | nil =>
      obtain ⟨-, hts⟩ := List.cons.inj hts
      obtain ⟨rfl, -⟩ := List.cons.inj hts
      exact hb.elim
    | cons => simp at hts
  | embeddedField h hk ht =>
    obtain ⟨x, us, rfl, hb⟩ := h.begins
    obtain ⟨rfl, hts⟩ := List.cons.inj hts
    obtain ⟨rfl, rfl⟩ | ⟨rfl, rfl⟩ :
        (us = [] ∧ _ = [Token.interpreted literal]) ∨ (us = [.interpreted literal] ∧ _ = []) := by
      simpa [List.cons_eq_append_iff] using hts
    · exact ht
    · obtain ⟨-, hs⟩ | ⟨_, hs | hs⟩ := hb
      · cases hs
      · cases hs
      · cases hs

end Derives

end SlogHelpers.Source
