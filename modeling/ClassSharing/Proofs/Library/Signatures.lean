import ClassSharing.Library.MethodType
import Mathlib.Data.List.TakeWhile

/-!
# Written signatures

A method type has one written form, and a text is read as a method type exactly if it is the written
form of one. Void is no type of a parameter, so it is the only type that a return can have and a
parameter cannot.

Reading cuts a text at its first closing parenthesis, which is the one in front of the return type
because no letter of a type is a parenthesis. A byte beyond ASCII is the letter of no type, wherever
it stands.

## Main definitions

* `MethodType.Written`: the texts that are signatures, letter by letter

## Main results

* `BasicType.parseFrom_eq_ok_iff`: the runs of parameter types
* `MethodType.parse_eq_ok_iff`: the texts that are read, with what is read from them
* `MethodType.signatures_exact`: signatures are read exactly
-/

namespace ClassSharing

/-! ### Letters -/

namespace BasicType

theorem ofLetter?_letter {t : BasicType} (h : t ≠ .void) : ofLetter? t.letter = some t := by
  cases t with
  | void => exact absurd rfl h
  | ref | int | long | float | double => rfl

/-- The letters of the types that a parameter can have. -/
theorem ofLetter?_eq_some_iff {b : UInt8} {t : BasicType} :
    ofLetter? b = some t ↔ b = t.letter ∧ t ≠ .void := by
  constructor
  · intro h
    rw [ofLetter?] at h
    have hletter : t.letter = b := by simpa using List.find?_some h
    refine ⟨hletter.symm, ?_⟩
    rintro rfl
    exact absurd (List.mem_of_find?_eq_some h) (by decide)
  · rintro ⟨rfl, ht⟩
    exact ofLetter?_letter ht

/-- **A run of letters is read as the types that they are the letters of.** -/
theorem parseFrom_eq_ok_iff {text : Text} {i : Nat} {bs : Bytes} {ts : List BasicType} :
    parseFrom text i bs = .ok ts ↔ bs = ts.map letter ∧ ∀ t ∈ ts, t ≠ .void := by
  induction bs generalizing i ts with
  | nil => cases ts <;> simp [parseFrom]
  | cons b rest ih =>
    rw [parseFrom]
    cases hb : ofLetter? b with
    | none =>
      refine ⟨nofun, ?_⟩
      rintro ⟨heq, hts⟩
      cases ts with
      | nil => cases heq
      | cons t ts =>
        have hread := ofLetter?_letter (hts t List.mem_cons_self)
        rw [← (List.cons.inj heq).1, hb] at hread
        cases hread
    | some t =>
      obtain ⟨rfl, ht⟩ := ofLetter?_eq_some_iff.1 hb
      simp only
      constructor
      · intro h
        cases hrest : parseFrom text (i + 1) rest with
        | error fault =>
          rw [hrest] at h
          cases h
        | ok us =>
          rw [hrest] at h
          obtain rfl := Except.ok.inj h
          obtain ⟨rfl, hus⟩ := ih.1 hrest
          exact ⟨rfl, List.forall_mem_cons.2 ⟨ht, hus⟩⟩
      · rintro ⟨heq, hts⟩
        cases ts with
        | nil => cases heq
        | cons u us =>
          obtain ⟨hu, hus⟩ := List.forall_mem_cons.1 hts
          obtain ⟨hletter, htail⟩ := List.cons.inj heq
          rw [hletter, ofLetter?_letter hu] at hb
          obtain rfl := Option.some.inj hb
          rw [ih.2 ⟨htail, hus⟩]

end BasicType

namespace MethodType

open BasicType

/-- Every type can be a return type. -/
theorem parseResult_eq_ok_iff {b : UInt8} {t : BasicType} :
    parseResult b = .ok t ↔ b = t.letter := by
  rw [parseResult]
  by_cases hb : b = BasicType.void.letter
  · rw [if_pos hb, hb]
    cases t <;> decide
  · rw [if_neg hb]
    cases hread : ofLetter? b with
    | none =>
      refine ⟨nofun, ?_⟩
      rintro rfl
      have hvoid : t ≠ .void := fun heq => hb (congrArg letter heq)
      rw [ofLetter?_letter hvoid] at hread
      cases hread
    | some u =>
      obtain ⟨rfl, hu⟩ := ofLetter?_eq_some_iff.1 hread
      constructor
      · intro h
        rw [Except.ok.inj h]
      · intro heq
        have hvoid : t ≠ .void := by
          rintro rfl
          exact hb heq
        rw [heq, ofLetter?_letter hvoid] at hread
        exact congrArg Except.ok (Option.some.inj hread).symm

/-! ### Signatures -/

/-- No letter is the mark that parameters end at. -/
theorem letter_ne_closeMark (t : BasicType) : t.letter ≠ closeMark := by
  cases t <;> decide

/-- The marks of a signature delimit its parts. -/
theorem parse_of_bytes {text : Text} {ps : Bytes} {r : UInt8} {mt : MethodType}
    (hps : closeMark ∉ ps) (h : text.bytes = openMark :: (ps ++ [closeMark, r])) :
    parse text = .ok mt ↔ parseAll ⟨ps⟩ = .ok mt.parameters ∧ parseResult r = .ok mt.result := by
  have hall : ∀ b ∈ ps, decide (b ≠ closeMark) = true := fun b hb =>
    decide_eq_true fun heq => hps (heq ▸ hb)
  have htake : (ps ++ [closeMark, r]).takeWhile (· ≠ closeMark) = ps := by
    rw [List.takeWhile_append_of_pos hall, List.takeWhile_cons_of_neg (by simp), List.append_nil]
  have hdrop : (ps ++ [closeMark, r]).dropWhile (· ≠ closeMark) = [closeMark, r] := by
    rw [List.dropWhile_append_of_pos hall, List.dropWhile_cons_of_neg (by simp)]
  rw [parse, h]
  simp only [htake, hdrop, ne_eq, not_true_eq_false, if_false]
  obtain ⟨ts, t⟩ := mt
  cases parseAll ⟨ps⟩ with
  | error fault => exact ⟨nofun, fun hread => nomatch hread.1⟩
  | ok us =>
    cases parseResult r with
    | error fault => exact ⟨nofun, fun hread => nomatch hread.2⟩
    | ok u => simp only [Except.ok.injEq, mk.injEq]

/-- What is read is cut at the marks. -/
theorem exists_of_parse {text : Text} {mt : MethodType} (h : parse text = .ok mt) :
    ∃ ps r, closeMark ∉ ps ∧ text.bytes = openMark :: (ps ++ [closeMark, r]) := by
  rw [parse] at h
  split at h
  · cases h
  · rename_i b rest hbytes
    simp only at h
    split at h
    · rename_i c result hdrop
      split at h
      · cases h
      · rename_i hopen
        refine ⟨rest.takeWhile (· ≠ closeMark), result, ?_, ?_⟩
        · intro hmem
          simpa using List.mem_takeWhile_imp hmem
        · have hmark : c = closeMark := by
            have hhead := List.head?_dropWhile_not (· ≠ closeMark) rest
            rw [hdrop] at hhead
            simpa using hhead
          rw [hbytes, not_not.1 hopen, ← hmark, ← hdrop, hmark, List.takeWhile_append_dropWhile]
    · cases h

/-- **The texts that are read as method types.** -/
theorem parse_eq_ok_iff {text : Text} {mt : MethodType} :
    parse text = .ok mt ↔ text = mt.text ∧ ∀ p ∈ mt.parameters, p ≠ .void := by
  obtain ⟨bytes⟩ := text
  obtain ⟨ts, t⟩ := mt
  constructor
  · intro h
    obtain ⟨ps, r, hps, hbytes⟩ := exists_of_parse h
    obtain ⟨hparameters, hresult⟩ := (parse_of_bytes hps hbytes).1 h
    obtain ⟨rfl, hts⟩ := parseFrom_eq_ok_iff.1 hparameters
    obtain rfl := parseResult_eq_ok_iff.1 hresult
    exact ⟨congrArg Text.mk hbytes, hts⟩
  · rintro ⟨htext, hts⟩
    have hmarks : closeMark ∉ ts.map letter := by
      intro hmem
      obtain ⟨u, -, hu⟩ := List.mem_map.1 hmem
      exact letter_ne_closeMark u hu
    exact (parse_of_bytes hmarks (congrArg Text.bytes htext)).2
      ⟨parseFrom_eq_ok_iff.2 ⟨rfl, hts⟩, parseResult_eq_ok_iff.2 rfl⟩

/-- A signature, letter by letter: the letters of parameter types between parentheses, and behind
them the letter of a return type. -/
def Written (text : Text) : Prop :=
  ∃ (ps : Bytes) (r : UInt8),
    text.bytes = ("(" : Text).bytes ++ ps ++ (")" : Text).bytes ++ [r] ∧
      (∀ b ∈ ps, b ∈ ("LIJFD" : Text).bytes) ∧ r ∈ ("LIJFDV" : Text).bytes

theorem letter_mem (t : BasicType) : t.letter ∈ ("LIJFDV" : Text).bytes := by
  cases t <;> decide

theorem letter_mem_parameters {t : BasicType} (h : t ≠ .void) :
    t.letter ∈ ("LIJFD" : Text).bytes := by
  cases t with
  | void => exact absurd rfl h
  | ref | int | long | float | double => decide

theorem exists_letter {b : UInt8} (h : b ∈ ("LIJFDV" : Text).bytes) :
    ∃ t : BasicType, t.letter = b := by
  have hletters : ("LIJFDV" : Text).bytes
      = [ref, int, long, float, double, void].map letter := rfl
  obtain ⟨t, -, ht⟩ := List.mem_map.1 (hletters ▸ h)
  exact ⟨t, ht⟩

/-- Letters of parameter types are the letters of a list of them. -/
theorem exists_letters {ps : Bytes} (h : ∀ b ∈ ps, b ∈ ("LIJFD" : Text).bytes) :
    ∃ ts : List BasicType, ts.map letter = ps ∧ ∀ t ∈ ts, t ≠ .void := by
  induction ps with
  | nil => exact ⟨[], rfl, nofun⟩
  | cons b rest ih =>
    obtain ⟨hb, hrest⟩ := List.forall_mem_cons.1 h
    obtain ⟨ts, rfl, hts⟩ := ih hrest
    have hletters : ("LIJFD" : Text).bytes = parameterTypes.map letter := rfl
    obtain ⟨t, ht, rfl⟩ := List.mem_map.1 (hletters ▸ hb)
    refine ⟨t :: ts, rfl, List.forall_mem_cons.2 ⟨?_, hts⟩⟩
    rintro rfl
    exact absurd ht (by decide)

/-- The signatures are the texts of the method types without void parameters. -/
theorem written_iff {text : Text} :
    Written text ↔ ∃ mt : MethodType, text = mt.text ∧ ∀ p ∈ mt.parameters, p ≠ .void := by
  obtain ⟨bytes⟩ := text
  constructor
  · rintro ⟨ps, r, hbytes, hps, hr⟩
    obtain ⟨ts, rfl, hts⟩ := exists_letters hps
    obtain ⟨t, rfl⟩ := exists_letter hr
    refine ⟨⟨ts, t⟩, congrArg Text.mk (hbytes.trans ?_), hts⟩
    rw [List.append_assoc]
    rfl
  · rintro ⟨⟨ts, t⟩, htext, hts⟩
    refine ⟨ts.map letter, t.letter, (congrArg Text.bytes htext).trans ?_, ?_, letter_mem t⟩
    · rw [List.append_assoc]
      rfl
    · intro b hb
      obtain ⟨u, hu, rfl⟩ := List.mem_map.1 hb
      exact letter_mem_parameters (hts u hu)

/-- **Signatures are read exactly.** A text is read if and only if it is a signature, the text of
what is read is what was given, and every method type without void parameters is read from its
text. -/
theorem signatures_exact :
    (∀ text : Text, (∃ mt, parse text = .ok mt) ↔ Written text) ∧
      (∀ (text : Text) (mt : MethodType), parse text = .ok mt → mt.text = text) ∧
      ∀ mt : MethodType, (∀ p ∈ mt.parameters, p ≠ .void) → parse mt.text = .ok mt := by
  refine ⟨fun text => ?_, fun text mt h => (parse_eq_ok_iff.1 h).1.symm,
    fun mt h => parse_eq_ok_iff.2 ⟨rfl, h⟩⟩
  rw [written_iff]
  exact exists_congr fun mt => parse_eq_ok_iff

/-- A signature with a parameter of every type. -/
theorem signatures_exact_allTypes :
    parse "(LIJFD)V" = .ok ⟨[.ref, .int, .long, .float, .double], .void⟩ ∧ Written "(LIJFD)V" :=
  have h : parse "(LIJFD)V" = .ok ⟨[.ref, .int, .long, .float, .double], .void⟩ :=
    signatures_exact.2.2 ⟨[.ref, .int, .long, .float, .double], .void⟩ (by decide)
  ⟨h, (signatures_exact.1 _).1 ⟨_, h⟩⟩

end MethodType

end ClassSharing
