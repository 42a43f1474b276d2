/-!
# Byte strings as text

Names, string values and messages are byte strings. They are usually UTF-8, but nothing requires
it: a class name or an archived string may hold any bytes, so `Text` is a list of bytes and not a
`String`. String literals coerce to their UTF-8 bytes.

## Main definitions

* `Text`: a byte string, with concatenation and `Text.join`
* `Bytes.precedes`, `Text.precedes`: the strict byte-wise order that every sorted listing uses
* `Text.decimal`, `Text.hexadecimal`, `Text.paddedHexadecimal`: numbers as text
* `Text.dropPrefix?`, `Text.splitOn`: cutting text apart

## Main results

* `Bytes.precedes_irrefl`, `Bytes.precedes_trans`, `Bytes.precedes_trichotomy`: the order is a
  strict linear order
* `Text.atMost_total`, `Text.atMost_antisymm`, `Text.atMost_trans`: so is the order of texts, as a
  linear order
-/

namespace ClassSharing

/-- A string of raw bytes. -/
abbrev Bytes := List UInt8

/-- A byte string used as a name, a string value or a message. -/
structure Text where
  /-- The bytes, first to last. -/
  bytes : Bytes
deriving DecidableEq, Inhabited, Hashable

/-! ### The byte-wise order -/

namespace Bytes

/-- The strict lexicographic order of byte strings. -/
def precedes : Bytes → Bytes → Bool
  | _, [] => false
  | [], _ :: _ => true
  | a :: as, b :: bs => decide (a < b) || (a == b && precedes as bs)

theorem precedes_irrefl (a : Bytes) : precedes a a = false := by
  induction a with
  | nil => rfl
  | cons x xs ih => simp [precedes, ih]

theorem precedes_trans {a b c : Bytes} (hab : precedes a b = true) (hbc : precedes b c = true) :
    precedes a c = true := by
  induction a generalizing b c with
  | nil =>
    cases c with
    | nil => cases b <;> simp [precedes] at hbc
    | cons z zs => rfl
  | cons x xs ih =>
    cases b with
    | nil => simp [precedes] at hab
    | cons y ys =>
      cases c with
      | nil => simp [precedes] at hbc
      | cons z zs =>
        simp only [precedes, Bool.or_eq_true, decide_eq_true_eq, Bool.and_eq_true,
          beq_iff_eq] at hab hbc ⊢
        rcases hab with h | ⟨rfl, h⟩
        · rcases hbc with h' | ⟨rfl, h'⟩
          · exact Or.inl (UInt8.lt_trans h h')
          · exact Or.inl h
        · rcases hbc with h' | ⟨rfl, h'⟩
          · exact Or.inl h'
          · exact Or.inr ⟨rfl, ih h h'⟩

theorem precedes_trichotomy (a b : Bytes) :
    precedes a b = true ∨ a = b ∨ precedes b a = true := by
  induction a generalizing b with
  | nil => cases b <;> simp [precedes]
  | cons x xs ih =>
    cases b with
    | nil => simp [precedes]
    | cons y ys =>
      simp only [precedes, Bool.or_eq_true, decide_eq_true_eq, Bool.and_eq_true, beq_iff_eq,
        List.cons.injEq]
      rcases Nat.lt_trichotomy x.toNat y.toNat with h | h | h
      · exact Or.inl (Or.inl (UInt8.lt_iff_toNat_lt.2 h))
      · obtain rfl := UInt8.toNat_inj.1 h
        rcases ih ys with h' | h' | h'
        · exact Or.inl (Or.inr ⟨rfl, h'⟩)
        · exact Or.inr (Or.inl ⟨rfl, h'⟩)
        · exact Or.inr (Or.inr (Or.inr ⟨rfl, h'⟩))
      · exact Or.inr (Or.inr (Or.inl (UInt8.lt_iff_toNat_lt.2 h)))

end Bytes

namespace Text

/-! ### Building text -/

/-- The UTF-8 bytes of a string. -/
def ofString (s : String) : Text := ⟨s.toList.flatMap String.utf8EncodeChar⟩

instance : Coe String Text := ⟨ofString⟩

instance : Append Text := ⟨fun a b => ⟨a.bytes ++ b.bytes⟩⟩

/-- The text without bytes. -/
def empty : Text := ⟨[]⟩

/-- Whether the text has no bytes. -/
def isEmpty (t : Text) : Bool := t.bytes.isEmpty

/-- The number of bytes. -/
def length (t : Text) : Nat := t.bytes.length

/-- The UTF-8 bytes of one character. -/
def ofChar (c : Char) : Text := ⟨String.utf8EncodeChar c⟩

/-- Texts one after another with a separator between neighbours. -/
def join (separator : Text) : List Text → Text
  | [] => empty
  | [t] => t
  | t :: u :: rest => t ++ separator ++ join separator (u :: rest)

theorem isEmpty_iff {t : Text} : t.isEmpty = true ↔ t = empty := by
  obtain ⟨bytes⟩ := t
  exact List.isEmpty_iff.trans (mk.injEq bytes []).to_iff.symm

@[simp] theorem bytes_append (a b : Text) : (a ++ b).bytes = a.bytes ++ b.bytes := rfl

theorem append_assoc (a b c : Text) : a ++ b ++ c = a ++ (b ++ c) := by
  cases a; cases b; cases c
  exact congrArg Text.mk (List.append_assoc ..)

/-! ### Order -/

/-- The strict byte-wise order of texts. -/
def precedes (a b : Text) : Bool := Bytes.precedes a.bytes b.bytes

/-- Whether `a` comes before `b` or equals it. -/
def atMost (a b : Text) : Bool := !precedes b a

theorem atMost_total (a b : Text) : a.atMost b = true ∨ b.atMost a = true := by
  cases h : Bytes.precedes b.bytes a.bytes with
  | false => exact Or.inl (by simp [atMost, precedes, h])
  | true =>
    refine Or.inr ?_
    cases h' : Bytes.precedes a.bytes b.bytes with
    | false => simp [atMost, precedes, h']
    | true =>
      have := Bytes.precedes_trans h h'
      simp [Bytes.precedes_irrefl] at this

theorem atMost_antisymm {a b : Text} (hab : a.atMost b = true) (hba : b.atMost a = true) :
    a = b := by
  simp only [atMost, precedes, Bool.not_eq_true'] at hab hba
  rcases Bytes.precedes_trichotomy a.bytes b.bytes with h | h | h
  · simp [hba] at h
  · cases a; cases b; exact congrArg Text.mk h
  · simp [hab] at h

theorem atMost_trans {a b c : Text} (hab : a.atMost b = true) (hbc : b.atMost c = true) :
    a.atMost c = true := by
  simp only [atMost, precedes, Bool.not_eq_true'] at hab hbc ⊢
  cases h : Bytes.precedes c.bytes a.bytes with
  | false => rfl
  | true =>
    rcases Bytes.precedes_trichotomy a.bytes b.bytes with h' | h' | h'
    · simp [Bytes.precedes_trans h h'] at hbc
    · simp [← h', h] at hbc
    · simp [hab] at h'

/-- A list of texts in byte-wise order, repetitions kept. -/
def sorted (ts : List Text) : List Text := ts.mergeSort atMost

/-- Drops every text that repeats its left neighbour. -/
def dropRepeats : List Text → List Text
  | [] => []
  | [t] => [t]
  | t :: u :: rest => if t = u then dropRepeats (u :: rest) else t :: dropRepeats (u :: rest)

/-- The texts of a list in byte-wise order, each once. -/
def sortedUnique (ts : List Text) : List Text := dropRepeats (sorted ts)

/-! ### Numbers -/

/-- ASCII characters as bytes. -/
def ofDigits (cs : List Char) : Text := ⟨cs.map fun c => c.toNat.toUInt8⟩

/-- A natural number in base ten. -/
def decimal (n : Nat) : Text := ofDigits (Nat.toDigits 10 n)

/-- An integer in base ten, with a minus sign if negative. -/
def signedDecimal (n : Int) : Text :=
  if n < 0 then "-" ++ decimal n.natAbs else decimal n.natAbs

/-- A natural number in base sixteen, lower case. -/
def hexadecimal (n : Nat) : Text := ofDigits (Nat.toDigits 16 n)

/-- A number in base sixteen, filled with zeros on the left to at least `width` digits. -/
def paddedHexadecimal (width n : Nat) : Text :=
  let digits := Nat.toDigits 16 n
  ofDigits (List.replicate (width - digits.length) '0' ++ digits)

/-- A 64-bit word as sixteen digits. -/
def word64 (n : UInt64) : Text := paddedHexadecimal 16 n.toNat

/-! ### Cutting -/

/-- The rest of a list after a given beginning, if it begins so. -/
def dropFront? : Bytes → Bytes → Option Bytes
  | [], rest => some rest
  | _ :: _, [] => none
  | a :: as, b :: bs => if a = b then dropFront? as bs else none

/-- What follows `start` in a text that begins with it. -/
def dropPrefix? (start t : Text) : Option Text := (dropFront? start.bytes t.bytes).map Text.mk

/-- Whether the text begins with `start`. -/
def beginsWith (start t : Text) : Bool := (dropPrefix? start t).isSome

/-- The pieces between the occurrences of a byte; a list without it is its own only piece. -/
def splitBytes (separator : UInt8) : Bytes → List Bytes
  | [] => [[]]
  | b :: bs =>
    if b = separator then [] :: splitBytes separator bs
    else match splitBytes separator bs with
      | [] => [[b]]
      | piece :: pieces => (b :: piece) :: pieces

/-- The pieces of a text between the occurrences of a byte. -/
def splitOn (separator : UInt8) (t : Text) : List Text := (splitBytes separator t.bytes).map Text.mk

end Text

end ClassSharing
