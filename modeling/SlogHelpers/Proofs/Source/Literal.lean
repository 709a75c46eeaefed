import SlogHelpers.Source.Literal

/-!
Interpreted string literals as Go reads them: octets, told by characters and by escapes, up to the
next quote. A literal made from a text is read as the octets of that text, whatever follows it.
-/
namespace SlogHelpers.Source.Interpreted

def letterEscapes : List (Char × Char) := [
  ('a', '\x07'), ('b', '\x08'), ('f', '\x0c'), ('n', '\n'), ('r', '\x0d'), ('t', '\t'),
  ('v', '\x0b'), ('\\', '\\'), ('"', '"')]

/-- So many digits to the base tell an octet. -/
def octetEscape? (base count : Nat) (cs : List Char) : Option (List UInt8 × List Char) :=
  if cs.length < count then none
  else (Text.digitsIn? base (cs.take count)).bind fun code =>
    if code < 0x100 then some ([code.toUInt8], cs.drop count) else none

/-- So many hexadecimal digits tell a character. -/
def charEscape? (count : Nat) (cs : List Char) : Option (List UInt8 × List Char) :=
  if cs.length < count then none
  else (Text.hexChar? (cs.take count)).map fun c => (String.utf8EncodeChar c, cs.drop count)

def escape? : List Char → Option (List UInt8 × List Char)
  | [] => none
  | c :: rest =>
    match letterEscapes.lookup c with
    | some d => some (String.utf8EncodeChar d, rest)
    | none =>
      if c = 'x' then octetEscape? 16 2 rest
      else if c = 'u' then charEscape? 4 rest
      else if c = 'U' then charEscape? 8 rest
      else octetEscape? 8 3 (c :: rest)

/-- The octets of one character or escape and what follows it. -/
def element? : List Char → Option (List UInt8 × List Char)
  | [] => none
  | c :: rest =>
    if c = '\\' then escape? rest
    else if c = '"' ∨ c = '\n' then none
    else some (String.utf8EncodeChar c, rest)

theorem length_octetEscape?_le {base count : Nat} {cs rest : List Char} {octets : List UInt8}
    (h : octetEscape? base count cs = some (octets, rest)) : rest.length + count = cs.length := by
  rw [octetEscape?] at h
  split at h
  · cases h
  · next hc =>
    obtain ⟨code, -, h⟩ := Option.bind_eq_some_iff.1 h
    split at h
    · obtain ⟨-, rfl⟩ := Prod.mk.inj (Option.some.inj h)
      rw [List.length_drop]
      omega
    · cases h

theorem length_charEscape?_le {count : Nat} {cs rest : List Char} {octets : List UInt8}
    (h : charEscape? count cs = some (octets, rest)) : rest.length + count = cs.length := by
  rw [charEscape?] at h
  split at h
  · cases h
  · next hc =>
    obtain ⟨c, -, h⟩ := Option.map_eq_some_iff.1 h
    obtain ⟨-, rfl⟩ := Prod.mk.inj h
    rw [List.length_drop]
    omega

theorem length_escape?_lt {cs rest : List Char} {octets : List UInt8}
    (h : escape? cs = some (octets, rest)) : rest.length < cs.length := by
  cases cs with
  | nil => cases h
  | cons c cs =>
    rw [escape?] at h
    rw [List.length_cons]
    split at h
    · obtain ⟨-, rfl⟩ := Prod.mk.inj (Option.some.inj h)
      omega
    · split at h
      · have hl := length_octetEscape?_le h
        omega
      · split at h
        · have hl := length_charEscape?_le h
          omega
        · split at h
          · have hl := length_charEscape?_le h
            omega
          · have hl := length_octetEscape?_le h
            rw [List.length_cons] at hl
            omega

theorem length_element?_lt {cs rest : List Char} {octets : List UInt8}
    (h : element? cs = some (octets, rest)) : rest.length < cs.length := by
  cases cs with
  | nil => cases h
  | cons c cs =>
    rw [element?] at h
    rw [List.length_cons]
    split at h
    · have hl := length_escape?_lt h
      omega
    · split at h
      · cases h
      · obtain ⟨-, rfl⟩ := Prod.mk.inj (Option.some.inj h)
        omega

/-- The octets up to the next quote and what follows it. -/
def contents? (cs : List Char) : Option (List UInt8 × List Char) :=
  if cs.head? = some '"' then some ([], cs.tail)
  else
    match _h : element? cs with
    | none => none
    | some (octets, rest) => (contents? rest).map fun found => (octets ++ found.1, found.2)
termination_by cs.length
decreasing_by exact length_element?_lt _h

def octets? : List Char → Option (List UInt8 × List Char)
  | [] => none
  | c :: rest => if c = '"' then contents? rest else none

def text? (cs : List Char) : Option (String × List Char) :=
  (octets? cs).bind fun found => (String.fromUTF8? found.1.toByteArray).map fun s => (s, found.2)

variable {c : Char} {rest : List Char}

theorem hex_four_of_isControl (h : Text.isControl c = true) :
    ((Text.hex 4 c.toNat).toList.length = 4 ∧ Text.hexChar? (Text.hex 4 c.toNat).toList = some c) ∧
      ∀ d ∈ (Text.hex 4 c.toNat).toList, Text.isControl d = false := by
  have hall : ((List.range 0xA0).all fun n =>
      let digits := List.replicate (4 - (Nat.toDigits 16 n).length) '0' ++ Nat.toDigits 16 n
      (digits.length == 4 && Text.hexChar? digits == some (Char.ofNat n)) &&
        digits.all fun d => !Text.isControl d) = true := by
    decide +kernel
  have hn : c.toNat < 0xA0 := by
    simp only [Text.isControl, Bool.or_eq_true, Bool.and_eq_true, decide_eq_true_eq] at h
    omega
  have hc := List.all_eq_true.1 hall c.toNat (List.mem_range.2 hn)
  simp only [Char.ofNat_toNat, Bool.and_eq_true, beq_iff_eq, List.all_eq_true, Bool.not_eq_true']
    at hc
  rw [Text.hex, String.toList_ofList]
  exact hc

theorem escape?_hex (h : Text.isControl c = true) :
    escape? ('u' :: (Text.hex 4 c.toNat).toList ++ rest) =
      some (String.utf8EncodeChar c, rest) := by
  obtain ⟨⟨hlen, hchar⟩, -⟩ := hex_four_of_isControl h
  have hcount : ¬ ((Text.hex 4 c.toNat).toList ++ rest).length < 4 := by
    rw [List.length_append, hlen]
    omega
  have hu : letterEscapes.lookup 'u' = none := rfl
  rw [List.cons_append, escape?, hu]
  simp only [Char.reduceEq, if_false, if_true]
  rw [charEscape?, if_neg hcount, List.take_left' hlen, List.drop_left' hlen, hchar,
    Option.map_some]

theorem element?_literalChar :
    element? (literalChar c ++ rest) = some (String.utf8EncodeChar c, rest) := by
  rw [literalChar.eq_def]
  split
  · rfl
  · rfl
  · rfl
  · rfl
  · rfl
  · next hquote hslash hbreak _ _ =>
    split
    · next hc =>
      rw [List.cons_append, element?, if_pos rfl]
      exact escape?_hex hc
    · rw [List.singleton_append, element?, if_neg hslash, if_neg (not_or.2 ⟨hquote, hbreak⟩)]

theorem head?_literalChar : (literalChar c ++ rest).head? ≠ some '"' := by
  rw [literalChar.eq_def]
  split
  · simp
  · simp
  · simp
  · simp
  · simp
  · next hquote _ _ _ _ =>
    split
    · simp
    · simpa using hquote

theorem contents?_of_element? {cs : List Char} {octets : List UInt8} (hq : cs.head? ≠ some '"')
    (h : element? cs = some (octets, rest)) :
    contents? cs = (contents? rest).map fun found => (octets ++ found.1, found.2) := by
  rw [contents?.eq_def, if_neg hq]
  split
  · next hn =>
    rw [h] at hn
    cases hn
  · next hs =>
    rw [h] at hs
    obtain ⟨rfl, rfl⟩ := Prod.mk.inj (Option.some.inj hs)
    rfl

theorem contents?_literalChars (cs : List Char) :
    contents? (cs.flatMap literalChar ++ '"' :: rest) =
      some (cs.flatMap String.utf8EncodeChar, rest) := by
  induction cs with
  | nil =>
    rw [contents?.eq_def]
    rfl
  | cons c cs ih =>
    rw [List.flatMap_cons, List.append_assoc,
      contents?_of_element? head?_literalChar element?_literalChar, ih]
    rfl

/-- The literal of a text is read as that text, whatever follows it. -/
theorem text?_literal (s : String) (rest : List Char) :
    text? ((literal s).toList ++ rest) = some (s, rest) := by
  have ho : octets? ((literal s).toList ++ rest) =
      some (s.toList.flatMap String.utf8EncodeChar, rest) := by
    rw [literal, String.toList_ofList, List.cons_append, List.cons_append, octets?, if_pos rfl,
      List.append_assoc]
    exact contents?_literalChars s.toList
  have hs : String.fromUTF8? s.toByteArray = some s := by
    rw [String.fromUTF8?, dif_pos s.isValidUTF8]
    rfl
  have hb : (s.toList.flatMap String.utf8EncodeChar).toByteArray = s.toByteArray :=
    String.utf8Encode_toList
  rw [text?, ho, Option.bind_some, hb, hs, Option.map_some]

theorem isControl_of_mem_literalChar {d : Char} (h : d ∈ literalChar c) :
    Text.isControl d = false := by
  have hall {cs : List Char} (hcs : (cs.all fun e => !Text.isControl e) = true) (hd : d ∈ cs) :
      Text.isControl d = false := by simpa using List.all_eq_true.1 hcs d hd
  rw [literalChar.eq_def] at h
  split at h
  · exact hall (by decide) h
  · exact hall (by decide) h
  · exact hall (by decide) h
  · exact hall (by decide) h
  · exact hall (by decide) h
  · split at h
    · next hc =>
      obtain h | h := List.mem_append.1 (show d ∈ ['\\', 'u'] ++ (Text.hex 4 c.toNat).toList from h)
      · exact hall (by decide) h
      · exact (hex_four_of_isControl hc).2 d h
    · next hc =>
      obtain rfl := List.mem_singleton.1 h
      exact Bool.eq_false_iff.2 hc

theorem isControl_of_mem_literal {s : String} {d : Char} (h : d ∈ (literal s).toList) :
    Text.isControl d = false := by
  obtain h | h | h : d = '"' ∨ d ∈ s.toList.flatMap literalChar ∨ d = '"' := by
    simpa [literal] using h
  · subst h
    rfl
  · obtain ⟨c, -, hc⟩ := List.mem_flatMap.1 h
    exact isControl_of_mem_literalChar hc
  · subst h
    rfl

end SlogHelpers.Source.Interpreted
