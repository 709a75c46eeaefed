import SlogHelpers.Source.TypeText

/-!
Go types as trees. A tree has one text, in which spaces stand where they are usually written, and a
height, which counts the types around each other.
-/
namespace SlogHelpers.Source

/-! ## Names, lengths and tags -/

abbrev Identifier := { cs : List Char // isIdentifierChars cs = true }

structure TypeName where
  package : Option Identifier
  name : Identifier

def TypeName.text (type : TypeName) : List Char :=
  (type.package.elim [] fun package => package.1 ++ ['.']) ++ type.name.1

inductive ArrayLength where
  | digits (first : { c : Char // c.isDigit = true })
    (more : { cs : List Char // cs.all Char.isDigit = true })
  | constant (name : TypeName)

def ArrayLength.text : ArrayLength → List Char
  | .digits first more => first.1 :: more.1
  | .constant name => name.text

inductive Direction where
  | both
  | receive
  | send

def Direction.word : Direction → List Char
  | .both => ['c', 'h', 'a', 'n', ' ']
  | .receive => ['<', '-', 'c', 'h', 'a', 'n', ' ']
  | .send => ['c', 'h', 'a', 'n', '<', '-', ' ']

inductive TagPart where
  | plain (c : { c : Char // c ≠ '\\' ∧ c ≠ '"' ∧ c ≠ '\n' })
  /-- The character behind a backslash. -/
  | escaped (c : Char)

def TagPart.text : TagPart → List Char
  | .plain c => [c.1]
  | .escaped c => ['\\', c]

inductive Tag where
  | raw (cs : { cs : List Char // '\x60' ∉ cs })
  | quoted (parts : List TagPart)

def Tag.text : Tag → List Char
  | .raw cs => '\x60' :: (cs.1 ++ ['\x60'])
  | .quoted parts => '"' :: (parts.flatMap TagPart.text ++ ['"'])

/-! ## Trees -/

mutual

inductive TypeTree where
  /-- A name, with type arguments if there are any. -/
  | named (name : TypeName) (arguments : List TypeTree)
  | pointer (type : TypeTree)
  | slice (type : TypeTree)
  | array (length : ArrayLength) (type : TypeTree)
  | map (key value : TypeTree)
  | channel (direction : Direction) (type : TypeTree)
  | function (parameters : List Parameter) (result : Result)
  | interface (elements : List Element)
  | struct (fields : List Field)

/-- `T`, `...T`, `name T` or `name ...T`. -/
inductive Parameter where
  | mk (name : Option Identifier) (variadic : Bool) (type : TypeTree)

inductive Result where
  | nothing
  | single (type : TypeTree)
  | list (results : List Parameter)

inductive Element where
  | method (name : Identifier) (parameters : List Parameter) (result : Result)
  | union (first : Term) (more : List Term)

inductive Term where
  | mk (tilde : Bool) (type : TypeTree)

inductive Field where
  | named (first : Identifier) (more : List Identifier) (type : TypeTree) (tag : Option Tag)
  /-- A named type or a pointer to one. -/
  | embedded (pointer : Bool) (name : TypeName) (arguments : List TypeTree) (tag : Option Tag)

end

/-- A piece of the text of a type: characters, or the text of a type inside. -/
inductive Fragment where
  | chars (cs : List Char)
  | type (type : TypeTree)

def Fragment.type? : Fragment → Option TypeTree
  | .chars _ => none
  | .type inner => some inner

/-! ## Texts, with the types inside left open -/

def commaList (items : List (List Fragment)) : List Fragment :=
  [Fragment.chars [',', ' ']].intercalate items

def bodyFragments : List (List Fragment) → List Fragment
  | [] => [.chars ['\x7d']]
  | items => .chars [' '] :: [Fragment.chars [';', ' ']].intercalate items ++ [.chars [' ', '\x7d']]

def Parameter.fragments : Parameter → List Fragment
  | .mk name variadic type =>
    [.chars (name.elim [] fun name => name.1 ++ [' ']),
      .chars (if variadic then ['.', '.', '.'] else []), .type type]

def parameterFragments (parameters : List Parameter) : List Fragment :=
  commaList (parameters.map Parameter.fragments) ++ [.chars [')']]

def Result.fragments : Result → List Fragment
  | .nothing => []
  | .single type => [.chars [' '], .type type]
  | .list results => .chars [' ', '('] :: parameterFragments results

def Term.fragments : Term → List Fragment
  | .mk tilde type => [.chars (if tilde then ['~'] else []), .type type]

def Element.fragments : Element → List Fragment
  | .method name parameters result =>
    .chars (name.1 ++ ['(']) :: parameterFragments parameters ++ result.fragments
  | .union first more =>
    [Fragment.chars [' ', '|', ' ']].intercalate ((first :: more).map Term.fragments)

def tagText (tag : Option Tag) : List Char := tag.elim [] fun tag => ' ' :: tag.text

def embeddedType (pointer : Bool) (name : TypeName) (arguments : List TypeTree) : TypeTree :=
  if pointer then .pointer (.named name arguments) else .named name arguments

def Field.fragments : Field → List Fragment
  | .named first more type tag =>
    [.chars (first.1 ++ more.flatMap (fun name => ',' :: ' ' :: name.1) ++ [' ']), .type type,
      .chars (tagText tag)]
  | .embedded pointer name arguments tag =>
    [.type (embeddedType pointer name arguments), .chars (tagText tag)]

def TypeTree.fragments : TypeTree → List Fragment
  | .named name [] => [.chars name.text]
  | .named name arguments =>
    .chars (name.text ++ ['[']) :: commaList (arguments.map fun type => [.type type]) ++
      [.chars [']']]
  | .pointer type => [.chars ['*'], .type type]
  | .slice type => [.chars ['[', ']'], .type type]
  | .array length type => [.chars ('[' :: (length.text ++ [']'])), .type type]
  | .map key value => [.chars ['m', 'a', 'p', '['], .type key, .chars [']'], .type value]
  | .channel direction type => [.chars direction.word, .type type]
  | .function parameters result =>
    .chars ['f', 'u', 'n', 'c', '('] :: parameterFragments parameters ++ result.fragments
  | .interface elements =>
    .chars ['i', 'n', 't', 'e', 'r', 'f', 'a', 'c', 'e', '\x7b'] ::
      bodyFragments (elements.map Element.fragments)
  | .struct fields =>
    .chars ['s', 't', 'r', 'u', 'c', 't', '\x7b'] :: bodyFragments (fields.map Field.fragments)

/-! ## The types inside -/

/-- The types whose texts are among the fragments. -/
def typesOf (fragments : List Fragment) : List TypeTree := fragments.filterMap Fragment.type?

@[simp] theorem typesOf_nil : typesOf [] = [] := rfl

@[simp] theorem typesOf_chars (cs : List Char) (fragments : List Fragment) :
    typesOf (.chars cs :: fragments) = typesOf fragments := rfl

@[simp] theorem typesOf_type (type : TypeTree) (fragments : List Fragment) :
    typesOf (.type type :: fragments) = type :: typesOf fragments := rfl

@[simp] theorem typesOf_append (fragments more : List Fragment) :
    typesOf (fragments ++ more) = typesOf fragments ++ typesOf more := List.filterMap_append

theorem typesOf_intercalate (between : List Char) (items : List (List Fragment)) :
    typesOf ([Fragment.chars between].intercalate items) = items.flatMap typesOf := by
  induction items with
  | nil => rfl
  | cons item items ih =>
    cases items with
    | nil => simp
    | cons next items => simp [List.intercalate_cons_cons, ih]

@[simp] theorem typesOf_commaList (items : List (List Fragment)) :
    typesOf (commaList items) = items.flatMap typesOf :=
  typesOf_intercalate _ items

@[simp] theorem typesOf_bodyFragments (items : List (List Fragment)) :
    typesOf (bodyFragments items) = items.flatMap typesOf := by
  cases items with
  | nil => rfl
  | cons item items => simp [bodyFragments, typesOf_intercalate]

def Parameter.type : Parameter → TypeTree
  | .mk _ _ type => type

@[simp] theorem typesOf_parameter (parameter : Parameter) :
    typesOf parameter.fragments = [parameter.type] := by
  cases parameter
  rfl

@[simp] theorem typesOf_parameterFragments (parameters : List Parameter) :
    typesOf (parameterFragments parameters) = parameters.map Parameter.type := by
  simp [parameterFragments, List.flatMap_map, ← List.map_eq_flatMap]

def Result.types : Result → List TypeTree
  | .nothing => []
  | .single type => [type]
  | .list results => results.map Parameter.type

@[simp] theorem typesOf_result (result : Result) : typesOf result.fragments = result.types := by
  cases result <;> simp [Result.fragments, Result.types]

def Term.type : Term → TypeTree
  | .mk _ type => type

@[simp] theorem typesOf_term (term : Term) : typesOf term.fragments = [term.type] := by
  cases term
  rfl

def Element.types : Element → List TypeTree
  | .method _ parameters result => parameters.map Parameter.type ++ result.types
  | .union first more => (first :: more).map Term.type

@[simp] theorem typesOf_element (element : Element) :
    typesOf element.fragments = element.types := by
  cases element with
  | method name parameters result => simp [Element.fragments, Element.types]
  | union first more =>
    simp [Element.fragments, Element.types, typesOf_intercalate, List.flatMap_map,
      ← List.map_eq_flatMap]

def Field.type : Field → TypeTree
  | .named _ _ type _ => type
  | .embedded pointer name arguments _ => embeddedType pointer name arguments

@[simp] theorem typesOf_field (field : Field) : typesOf field.fragments = [field.type] := by
  cases field <;> rfl

namespace TypeTree

def children (type : TypeTree) : List TypeTree := typesOf type.fragments

@[simp] theorem children_named (name : TypeName) (arguments : List TypeTree) :
    (named name arguments).children = arguments := by
  cases arguments <;> simp [children, fragments, List.flatMap_map]

@[simp] theorem children_pointer (type : TypeTree) : (pointer type).children = [type] := rfl

@[simp] theorem children_slice (type : TypeTree) : (slice type).children = [type] := rfl

@[simp] theorem children_array (length : ArrayLength) (type : TypeTree) :
    (array length type).children = [type] := rfl

@[simp] theorem children_map (key value : TypeTree) : (map key value).children = [key, value] := rfl

@[simp] theorem children_channel (direction : Direction) (type : TypeTree) :
    (channel direction type).children = [type] := rfl

@[simp] theorem children_function (parameters : List Parameter) (result : Result) :
    (function parameters result).children = parameters.map Parameter.type ++ result.types := by
  simp [children, fragments]

@[simp] theorem children_interface (elements : List Element) :
    (interface elements).children = elements.flatMap Element.types := by
  simp [children, fragments, List.flatMap_map]

@[simp] theorem children_struct (fields : List Field) :
    (struct fields).children = fields.map Field.type := by
  simp [children, fragments, List.flatMap_map, ← List.map_eq_flatMap]

end TypeTree

/-! ## Types inside are smaller -/

variable {inner : TypeTree}

theorem sizeOf_parameter_type (parameter : Parameter) :
    sizeOf parameter.type < sizeOf parameter := by
  cases parameter
  simp only [Parameter.type, Parameter.mk.sizeOf_spec]
  omega

theorem sizeOf_lt_of_mem_parameters {parameters : List Parameter}
    (h : inner ∈ parameters.map Parameter.type) :
    sizeOf inner < sizeOf parameters := by
  obtain ⟨parameter, hp, rfl⟩ := List.mem_map.1 h
  exact Nat.lt_trans (sizeOf_parameter_type parameter) (List.sizeOf_lt_of_mem hp)

theorem sizeOf_lt_of_mem_result {result : Result} (h : inner ∈ result.types) :
    sizeOf inner < sizeOf result := by
  cases result with
  | nothing => cases h
  | single type =>
    obtain rfl := List.mem_singleton.1 h
    simp
  | list results =>
    have hlt := sizeOf_lt_of_mem_parameters h
    simp only [Result.list.sizeOf_spec]
    omega

theorem sizeOf_term_type (term : Term) : sizeOf term.type < sizeOf term := by
  cases term
  simp only [Term.type, Term.mk.sizeOf_spec]
  omega

theorem sizeOf_lt_of_mem_element {element : Element} (h : inner ∈ element.types) :
    sizeOf inner < sizeOf element := by
  cases element with
  | method name parameters result =>
    simp only [Element.method.sizeOf_spec]
    obtain h | h := List.mem_append.1 h
    · have hlt := sizeOf_lt_of_mem_parameters h
      omega
    · have hlt := sizeOf_lt_of_mem_result h
      omega
  | union first more =>
    obtain ⟨term, hterm, rfl⟩ := List.mem_map.1 h
    have hlt := Nat.lt_trans (sizeOf_term_type term) (List.sizeOf_lt_of_mem hterm)
    simp only [List.cons.sizeOf_spec, Element.union.sizeOf_spec] at hlt ⊢
    omega

theorem sizeOf_field_type (field : Field) : sizeOf field.type < sizeOf field := by
  cases field with
  | named first more type tag =>
    simp only [Field.type, Field.named.sizeOf_spec]
    omega
  | embedded pointer name arguments tag =>
    have hpointer : sizeOf pointer = 1 := by cases pointer <;> rfl
    have htag : 0 < sizeOf tag := by
      cases tag with
      | none => simp
      | some tag => simp only [Option.some.sizeOf_spec]; omega
    simp only [Field.type, embeddedType, Field.embedded.sizeOf_spec]
    split
    · simp only [TypeTree.pointer.sizeOf_spec, TypeTree.named.sizeOf_spec]
      omega
    · simp only [TypeTree.named.sizeOf_spec]
      omega

namespace TypeTree

theorem sizeOf_lt_of_mem_children {type : TypeTree} (h : inner ∈ type.children) :
    sizeOf inner < sizeOf type := by
  cases type with
  | named name arguments =>
    rw [children_named] at h
    have hlt := List.sizeOf_lt_of_mem h
    simp only [named.sizeOf_spec]
    omega
  | function parameters result =>
    rw [children_function] at h
    simp only [function.sizeOf_spec]
    obtain h | h := List.mem_append.1 h
    · have hlt := sizeOf_lt_of_mem_parameters h
      omega
    · have hlt := sizeOf_lt_of_mem_result h
      omega
  | interface elements =>
    rw [children_interface] at h
    obtain ⟨element, he, h⟩ := List.mem_flatMap.1 h
    have hlt := Nat.lt_trans (sizeOf_lt_of_mem_element h) (List.sizeOf_lt_of_mem he)
    simp only [interface.sizeOf_spec]
    omega
  | struct fields =>
    rw [children_struct] at h
    obtain ⟨field, hf, rfl⟩ := List.mem_map.1 h
    have hlt := Nat.lt_trans (sizeOf_field_type field) (List.sizeOf_lt_of_mem hf)
    simp only [struct.sizeOf_spec]
    omega
  | map key value =>
    simp only [children_map, List.mem_cons, List.not_mem_nil, or_false] at h
    simp only [map.sizeOf_spec]
    obtain rfl | rfl := h <;> omega
  | array length type =>
    obtain rfl := List.mem_singleton.1 h
    simp only [array.sizeOf_spec]
    omega
  | channel direction type =>
    obtain rfl := List.mem_singleton.1 h
    simp only [channel.sizeOf_spec]
    omega
  | pointer type =>
    obtain rfl := List.mem_singleton.1 h
    simp
  | slice type =>
    obtain rfl := List.mem_singleton.1 h
    simp

/-! ## Texts and heights -/

def text (type : TypeTree) : List Char :=
  type.fragments.attach.flatMap fun
    | ⟨.chars cs, _⟩ => cs
    | ⟨.type inner, _⟩ => inner.text
termination_by sizeOf type
decreasing_by exact sizeOf_lt_of_mem_children (List.mem_filterMap.2 ⟨_, ‹_›, rfl⟩)

/-- How many types stand around each other, this one included. -/
def height (type : TypeTree) : Nat :=
  (type.children.attach.map fun inner => inner.1.height).foldr max 0 + 1
termination_by sizeOf type
decreasing_by exact sizeOf_lt_of_mem_children inner.2

theorem height_le_succ_iff {type : TypeTree} {n : Nat} :
    type.height ≤ n + 1 ↔ ∀ inner ∈ type.children, inner.height ≤ n := by
  have hmax (ns : List Nat) : ns.foldr max 0 ≤ n ↔ ∀ m ∈ ns, m ≤ n := by
    induction ns with
    | nil => simp
    | cons m ns ih => rw [List.foldr_cons, Nat.max_le, ih, List.forall_mem_cons]
  rw [height, Nat.add_le_add_iff_right, hmax, List.forall_mem_map]
  simp

theorem height_pos (type : TypeTree) : 0 < type.height := by
  rw [height]
  exact Nat.succ_pos _

end TypeTree

def Fragment.text : Fragment → List Char
  | .chars cs => cs
  | .type inner => inner.text

/-- The characters of fragments, one after the other. -/
def textOf (fragments : List Fragment) : List Char := fragments.flatMap Fragment.text

theorem TypeTree.text_eq (type : TypeTree) : type.text = textOf type.fragments := by
  have hvalues :
      (type.fragments.attach.map Subtype.val).flatMap Fragment.text = textOf type.fragments := by
    rw [List.attach_map_subtype_val, textOf]
  rw [TypeTree.text, ← hvalues, List.flatMap_map]
  refine congrArg (List.flatMap · type.fragments.attach) (funext fun fragment => ?_)
  obtain ⟨fragment, _⟩ := fragment
  cases fragment <;> rfl

@[simp] theorem textOf_nil : textOf [] = [] := rfl

@[simp] theorem textOf_chars (cs : List Char) (fragments : List Fragment) :
    textOf (.chars cs :: fragments) = cs ++ textOf fragments := rfl

@[simp] theorem textOf_type (type : TypeTree) (fragments : List Fragment) :
    textOf (.type type :: fragments) = type.text ++ textOf fragments := rfl

@[simp] theorem textOf_append (fragments more : List Fragment) :
    textOf (fragments ++ more) = textOf fragments ++ textOf more := List.flatMap_append

@[simp] theorem textOf_intercalate (between : List Char) (items : List (List Fragment)) :
    textOf ([Fragment.chars between].intercalate items) =
      between.intercalate (items.map textOf) := by
  induction items with
  | nil => rfl
  | cons item items ih =>
    cases items with
    | nil => simp
    | cons next items => simpa [List.intercalate_cons_cons] using ih

namespace TypeTree

theorem text_pointer (type : TypeTree) : (pointer type).text = ['*'] ++ type.text := by
  rw [text_eq]
  simp [fragments]

theorem text_slice (type : TypeTree) : (slice type).text = ['[', ']'] ++ type.text := by
  rw [text_eq]
  simp [fragments]

theorem text_array (length : ArrayLength) (type : TypeTree) :
    (array length type).text = ['['] ++ (length.text ++ [']'] ++ type.text) := by
  rw [text_eq]
  simp [fragments]

theorem text_map (key value : TypeTree) :
    (map key value).text = ['m', 'a', 'p', '['] ++ (key.text ++ [']'] ++ value.text) := by
  rw [text_eq]
  simp [fragments]

theorem text_channel (direction : Direction) (type : TypeTree) :
    (channel direction type).text = direction.word ++ type.text := by
  rw [text_eq]
  simp [fragments]

theorem text_function (parameters : List Parameter) (result : Result) :
    (function parameters result).text =
      ['f', 'u', 'n', 'c', '('] ++ textOf (parameterFragments parameters ++ result.fragments) :=
  text_eq _

theorem text_interface (elements : List Element) :
    (interface elements).text =
      ['i', 'n', 't', 'e', 'r', 'f', 'a', 'c', 'e', '\x7b'] ++
        textOf (bodyFragments (elements.map Element.fragments)) :=
  text_eq _

theorem text_struct (fields : List Field) :
    (struct fields).text = ['s', 't', 'r', 'u', 'c', 't', '\x7b'] ++
      textOf (bodyFragments (fields.map Field.fragments)) :=
  text_eq _

/-- A map to structs with two pointers and an embedded type. -/
def nestedExample : TypeTree :=
  .map (.named ⟨none, ⟨['i', 'n', 't'], by decide⟩⟩ []) (.struct [
    .named ⟨['A'], by decide⟩ [⟨['B'], by decide⟩]
      (.pointer (.named ⟨none, ⟨['T'], by decide⟩⟩ [])) none,
    .embedded false ⟨some ⟨['f'], by decide⟩, ⟨['F'], by decide⟩⟩ []
      (some (.raw ⟨['x'], by decide⟩))])

example : String.ofList nestedExample.text = "map[int]struct\x7b A, B *T; f.F \x60x\x60 \x7d" ∧
    nestedExample.height = 4 := by
  cbv

end TypeTree

end SlogHelpers.Source
