import SlogHelpers.Proofs.Source.Yields

/-!
Readers of types go forward: what each of them leaves of a text stands at the end of it and is
shorter. Only a tag may be missing, and then all of the text is left.
-/
namespace SlogHelpers.Source.TypeText

/-- Whatever the reader takes off a text, the rest stands at its end. -/
def LeavesEnd (t : Taker) : Prop := t.Yields ⊤

variable {t : Taker} {s rest : List Char}

theorem LeavesEnd.suffix (ht : LeavesEnd t) (h : t.rest? s = some rest) : rest <:+ s := by
  obtain ⟨word, -, rfl⟩ := ht s rest h
  exact List.suffix_append word rest

theorem suffix_of_past? {c : Char} (h : (past? c).rest? s = some rest) : rest <:+ s :=
  rest?_past?_eq_some.1 h ▸ List.suffix_cons c rest

theorem skipSpaces_suffix (s : List Char) : skipSpaces s <:+ s := List.dropWhile_suffix _

theorem strip_suffix (word s : List Char) : (strip word s).1 <:+ s := by
  obtain ⟨w, -, hs⟩ := exists_optional word s
  exact ⟨w, hs.symm⟩

theorem suffix_of_tagRest? (h : tagRest? s = some rest) : rest <:+ s := by
  obtain ⟨word, -, rfl⟩ := tag_yields h
  exact List.suffix_append word rest

/-! ## Constructs -/

theorem identifier_leavesEnd : LeavesEnd identifier := identifier_yields.mono le_top

theorem typeName_leavesEnd : LeavesEnd typeName := typeName_yields.mono le_top

theorem arrayLength_leavesEnd : LeavesEnd arrayLength := arrayLength_yields.mono le_top

theorem typeArguments_leavesEnd (ht : LeavesEnd t) : LeavesEnd (typeArguments t) :=
  ht.typeArguments le_top le_top

theorem parameter_leavesEnd (ht : LeavesEnd t) : LeavesEnd (parameter t) := ht.parameter.mono le_top

theorem parameters_leavesEnd (ht : LeavesEnd t) : LeavesEnd (parameters t) :=
  ((parameter_leavesEnd ht).itemsThen le_top le_top le_top).spaced.mono le_top

theorem signature_leavesEnd (ht : LeavesEnd t) : LeavesEnd (signature t) :=
  (parameters_leavesEnd ht).signature ht le_top le_top le_top

theorem body_leavesEnd (ht : LeavesEnd t) : LeavesEnd (body t) :=
  (ht.itemsThen le_top le_top le_top).spaced.mono le_top

theorem unionTerm_leavesEnd (ht : LeavesEnd t) : LeavesEnd (unionTerm t) :=
  (ht.marked (by decide)).mono le_top

theorem interfaceElement_leavesEnd (ht : LeavesEnd t) : LeavesEnd (interfaceElement t) :=
  ((signature_leavesEnd ht).interfaceElement ((unionTerm_leavesEnd ht).union le_top le_top)).mono
    le_top

theorem namedField_leavesEnd (ht : LeavesEnd t) : LeavesEnd (namedField t) :=
  ((Taker.Yields.fieldNames le_top le_top).namedField ht).mono le_top

theorem field_leavesEnd (ht : LeavesEnd t) : LeavesEnd (field t) :=
  ((namedField_leavesEnd ht).field ht).mono le_top

theorem opening_take_leavesEnd (ht : LeavesEnd t) (opening : Opening) :
    LeavesEnd (opening.take t) := by
  have hclosed {u : Taker} (hu : LeavesEnd u) : LeavesEnd ((u.andThen (past? ']')).andThen t) :=
    ((hu.andThen Taker.Yields.past?).andThen ht).mono le_top
  cases opening with
  | map => exact hclosed ht
  | array => exact hclosed arrayLength_leavesEnd
  | function => exact signature_leavesEnd ht
  | interface => exact body_leavesEnd (interfaceElement_leavesEnd ht)
  | struct => exact body_leavesEnd (field_leavesEnd ht)
  | _ => exact ht

theorem take_leavesEnd (levels : Nat) : LeavesEnd (take levels) := by
  refine Taker.Yields.take (fun t ht word opening _ => ?_) (fun t ht => ?_) levels
  · exact ⟨⊤, opening_take_leavesEnd ht opening, le_top⟩
  · exact (typeArguments_leavesEnd ht).named.mono le_top

/-- The constructs that take something off every text they are found in. -/
inductive Construct where
  | type
  | typeArguments
  /-- With the parenthesis in front, like parameters. -/
  | signature
  | parameters
  | parameter
  | interfaceBody
  | structBody
  | interfaceElement
  | field
  | namedField
  | typeName
  | arrayLength
  | identifier

/-- The reader of a construct in which types nest at most `levels` deep. -/
def Construct.reader (levels : Nat) : Construct → Taker
  | .type => take levels
  | .typeArguments => TypeText.typeArguments (take levels)
  | .signature => (past? '(').andThen (TypeText.signature (take levels))
  | .parameters => (past? '(').andThen (TypeText.parameters (take levels))
  | .parameter => TypeText.parameter (take levels)
  | .interfaceBody => body (TypeText.interfaceElement (take levels))
  | .structBody => body (TypeText.field (take levels))
  | .interfaceElement => TypeText.interfaceElement (take levels)
  | .field => TypeText.field (take levels)
  | .namedField => TypeText.namedField (take levels)
  | .typeName => TypeText.typeName
  | .arrayLength => TypeText.arrayLength
  | .identifier => TypeText.identifier

theorem Construct.leavesEnd (construct : Construct) (levels : Nat) :
    LeavesEnd (construct.reader levels) := by
  have ht := take_leavesEnd levels
  cases construct with
  | type => exact ht
  | typeArguments => exact typeArguments_leavesEnd ht
  | signature => exact (Taker.Yields.past?.andThen (signature_leavesEnd ht)).mono le_top
  | parameters => exact (Taker.Yields.past?.andThen (parameters_leavesEnd ht)).mono le_top
  | parameter => exact parameter_leavesEnd ht
  | interfaceBody => exact body_leavesEnd (interfaceElement_leavesEnd ht)
  | structBody => exact body_leavesEnd (field_leavesEnd ht)
  | interfaceElement => exact interfaceElement_leavesEnd ht
  | field => exact field_leavesEnd ht
  | namedField => exact namedField_leavesEnd ht
  | typeName => exact typeName_leavesEnd
  | arrayLength => exact arrayLength_leavesEnd
  | identifier => exact identifier_leavesEnd

end SlogHelpers.Source.TypeText
