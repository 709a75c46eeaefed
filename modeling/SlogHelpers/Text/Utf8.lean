/-!
Text from octets. The octet that a character begins with tells how many follow it and in what range
each of them lies; the first octet out of its range is where a text goes wrong.
-/
namespace SlogHelpers.Text.Utf8

/-- The ranges of the octets that follow the first one of a character; none if no character begins
with it. -/
def followers? (lead : Nat) : Option (List (Nat × Nat)) :=
  if lead < 0x80 then some []
  else if lead < 0xC2 then none
  else if lead < 0xE0 then some [(0x80, 0xBF)]
  else if lead = 0xE0 then some [(0xA0, 0xBF), (0x80, 0xBF)]
  else if lead = 0xED then some [(0x80, 0x9F), (0x80, 0xBF)]
  else if lead < 0xF0 then some [(0x80, 0xBF), (0x80, 0xBF)]
  else if lead = 0xF0 then some [(0x90, 0xBF), (0x80, 0xBF), (0x80, 0xBF)]
  else if lead < 0xF4 then some [(0x80, 0xBF), (0x80, 0xBF), (0x80, 0xBF)]
  else if lead = 0xF4 then some [(0x80, 0x8F), (0x80, 0xBF), (0x80, 0xBF)]
  else none

/-- The bits of a character that its first octet holds, if `n` more follow. -/
def leadBits (lead n : Nat) : Nat :=
  match n with
  | 0 => lead
  | 1 => lead % 0x20
  | 2 => lead % 0x10
  | _ => lead % 0x08

inductive Front (octets : List UInt8) where
  | char (c : Char) (rest : { rest : List UInt8 // rest.length ≤ octets.length })
  /-- The octets so far begin no character together with the next one. -/
  | broken (length : Nat) (rest : { rest : List UInt8 // rest.length ≤ octets.length })
  | cut
  deriving DecidableEq

/-- The rest of a character whose bits so far are `bits`, after `taken` octets of it. -/
def follow (bits taken : Nat) (ranges : List (Nat × Nat)) (octets : List UInt8) : Front octets :=
  match ranges, octets with
  | [], octets => .char (Char.ofNat bits) ⟨octets, Nat.le_refl _⟩
  | _ :: _, [] => .cut
  | (low, high) :: ranges, octet :: rest =>
    if low ≤ octet.toNat ∧ octet.toNat ≤ high then
      match follow (bits * 0x40 + octet.toNat % 0x40) (taken + 1) ranges rest with
      | .char c ⟨after, h⟩ => .char c ⟨after, Nat.le_succ_of_le h⟩
      | .broken length ⟨after, h⟩ => .broken length ⟨after, Nat.le_succ_of_le h⟩
      | .cut => .cut
    else .broken taken ⟨octet :: rest, Nat.le_refl _⟩

/-- The character that an octet and those after it begin with. -/
def front (lead : UInt8) (rest : List UInt8) : Front rest :=
  match followers? lead.toNat with
  | none => .broken 1 ⟨rest, Nat.le_refl _⟩
  | some ranges => follow (leadBits lead.toNat ranges.length) 1 ranges rest

inductive Fault where
  /-- So many octets from the place on begin no character. -/
  | broken (length index : Nat)
  | cut (index : Nat)
  deriving DecidableEq, Repr

def Fault.message : Fault → String
  | .broken length index =>
    String.join
      ["invalid utf-8 sequence of ", toString length, " bytes from index ", toString index]
  | .cut index => String.join ["incomplete utf-8 byte sequence from index ", toString index]

/-- The characters of octets that begin at the index. -/
def chars (index : Nat) (octets : List UInt8) : Except Fault (List Char) :=
  match octets with
  | [] => .ok []
  | lead :: rest =>
    match front lead rest with
    | .char c ⟨after, _h⟩ => do
      let cs ← chars (index + (rest.length + 1 - after.length)) after
      pure (c :: cs)
    | .broken length _ => .error (.broken length index)
    | .cut => .error (.cut index)
termination_by octets.length
decreasing_by simp only [List.length_cons]; omega

/-- The characters of octets, with one replacement character for each run that is none. -/
def charsOrReplacements (octets : List UInt8) : List Char :=
  match octets with
  | [] => []
  | lead :: rest =>
    match front lead rest with
    | .char c ⟨after, _h⟩ => c :: charsOrReplacements after
    | .broken _ ⟨after, _h⟩ => '\ufffd' :: charsOrReplacements after
    | .cut => ['\ufffd']
termination_by octets.length
decreasing_by all_goals (simp only [List.length_cons]; omega)

def decode (bytes : ByteArray) : Except Fault String :=
  (chars 0 bytes.data.toList).map String.ofList

def decodeLossy (bytes : ByteArray) : String :=
  String.ofList (charsOrReplacements bytes.data.toList)

end SlogHelpers.Text.Utf8
