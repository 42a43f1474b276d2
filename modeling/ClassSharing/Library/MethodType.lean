import ClassSharing.Fault

/-!
# Method types

Erased method signatures. A signature is written as its parameter types between parentheses,
followed by its return type, each type one letter: `(LI)V`.

## Main definitions

* `BasicType`, `BasicType.parseAll`: erased types, and the reader of a run of parameter types
* `MethodType`, `MethodType.text`, `MethodType.parse`
-/

namespace ClassSharing

/-- An erased type. -/
inductive BasicType where
  | ref | int | long | float | double | void
deriving DecidableEq, Inhabited

namespace BasicType

/-- The types that a parameter can have. -/
def parameterTypes : List BasicType := [ref, int, long, float, double]

/-- The letter of a type. -/
def letter : BasicType → UInt8
  | ref => 0x4C
  | int => 0x49
  | long => 0x4A
  | float => 0x46
  | double => 0x44
  | void => 0x56

/-- The parameter type with a given letter. -/
def ofLetter? (b : UInt8) : Option BasicType := parameterTypes.find? fun t => t.letter = b

/-- Reads a run of parameter types that begins at position `i` of `text`. -/
def parseFrom (text : Text) : (i : Nat) → Bytes → Except Fault (List BasicType)
  | _, [] => .ok []
  | i, b :: rest =>
    match ofLetter? b with
    | none => .error (.of (.basicType b i text))
    | some t =>
      match parseFrom text (i + 1) rest with
      | .ok ts => .ok (t :: ts)
      | .error e => .error e

/-- Reads a text that consists of the letters of parameter types. -/
def parseAll (text : Text) : Except Fault (List BasicType) := parseFrom text 0 text.bytes

/-- The letters of types. -/
def letters (ts : List BasicType) : Text := ⟨ts.map letter⟩

end BasicType

/-- An erased method signature. -/
structure MethodType where
  parameters : List BasicType
  result : BasicType
deriving DecidableEq, Inhabited

namespace MethodType

/-- The opening parenthesis. -/
def openMark : UInt8 := 0x28

/-- The closing parenthesis. -/
def closeMark : UInt8 := 0x29

/-- The written form of a signature. -/
def text (mt : MethodType) : Text :=
  ⟨openMark :: (mt.parameters.map BasicType.letter ++ [closeMark, mt.result.letter])⟩

/-- Reads the return type: void, or a type that a parameter can have. A byte that is no type is
reported as the character with its number. -/
def parseResult (b : UInt8) : Except Fault BasicType :=
  if b = BasicType.void.letter then .ok .void
  else match BasicType.ofLetter? b with
    | some t => .ok t
    | none =>
      let shown := Text.ofChar (Char.ofNat b.toNat)
      .error (.of (.basicType (shown.bytes.headD b) 0 shown))

/-- Reads a signature. The first closing parenthesis has to be the last byte but one. -/
def parse (text : Text) : Except Fault MethodType :=
  match text.bytes with
  | [] => .error (.of (.methodType text))
  | b :: rest =>
    let parameters := rest.takeWhile (· ≠ closeMark)
    match rest.dropWhile (· ≠ closeMark) with
    | [_, result] =>
      if b ≠ openMark then .error (.of (.methodType text))
      else match BasicType.parseAll ⟨parameters⟩ with
        | .error e => .error e
        | .ok ts =>
          match parseResult result with
          | .error e => .error e
          | .ok r => .ok ⟨ts, r⟩
    | _ => .error (.of (.methodType text))

end MethodType

end ClassSharing
