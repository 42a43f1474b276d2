import ClassSharing.Text.Utf8

/-!
# Numbers, truth values and moments of the settings format

A value that is neither a text nor a collection is one word: a truth value, a whole number in one of
four bases, a floating-point number, or a date, a time or both. Digits may be grouped by single
underscores; a decimal number has no leading zero; whole numbers fit in 64 bits with a sign, and
floating-point numbers do not overflow.

## Main definitions

* `Toml.Scalar`: what a word or a text denotes
* `Toml.integer?`, `Toml.isFloat`: numbers
* `Toml.isMoment`: dates and times
* `Toml.word?`: the scalar that a word denotes
-/

namespace ClassSharing

namespace Toml

/-- A value that is no collection. -/
inductive Scalar where
  | text (t : Text)
  | boolean (b : Bool)
  | integer (n : Int)
  /-- A floating-point number, as it was written. -/
  | float (literal : List Char)
  /-- A date, a time or both, as they were written. -/
  | moment (literal : List Char)
deriving DecidableEq, Inhabited

/-! ### Digits -/

/-- The value of a digit, if it is one in a base of at most sixteen. -/
def digit? (base : Nat) (c : Char) : Option Nat :=
  let n := c.toNat
  let value :=
    if c.isDigit then n - 48
    else if 'a' ≤ c && c ≤ 'f' then n - 87
    else if 'A' ≤ c && c ≤ 'F' then n - 55
    else base
  if value < base then some value else none

/-- The digits of a word. Each underscore stands between two digits. -/
def digits? (base : Nat) : List Char → Option (List Nat)
  | [] => none
  | c :: rest =>
    match digit? base c with
    | none => none
    | some d =>
      match rest with
      | [] => some [d]
      | '_' :: more => (digits? base more).map (d :: ·)
      | next :: more => (digits? base (next :: more)).map (d :: ·)

/-- The number that digits denote. -/
def ofDigits (base : Nat) (ds : List Nat) : Nat := ds.foldl (fun n d => n * base + d) 0

/-- Whether a zero stands in front of other digits. -/
def hasLeadingZero : List Nat → Bool
  | 0 :: _ :: _ => true
  | _ => false

/-- Whether a word has a minus sign, and the word without its sign. -/
def splitSign : List Char → Bool × List Char
  | '-' :: cs => (true, cs)
  | '+' :: cs => (false, cs)
  | cs => (false, cs)

/-! ### Numbers -/

/-- A number that fits in 64 bits with a sign. -/
def inRange? (n : Int) : Option Int :=
  if -0x8000000000000000 ≤ n ∧ n < 0x8000000000000000 then some n else none

/-- A whole number in a base that stands in front of it. -/
def basedInteger? (base : Nat) (cs : List Char) : Option Int :=
  (digits? base cs).bind fun ds => inRange? (ofDigits base ds)

/-- A decimal whole number. -/
def decimalInteger? (cs : List Char) : Option Int :=
  let (negative, body) := splitSign cs
  match digits? 10 body with
  | none => none
  | some ds =>
    if hasLeadingZero ds then none
    else inRange? (if negative then -(ofDigits 10 ds : Int) else ofDigits 10 ds)

/-- The whole number that a word denotes. -/
def integer? : List Char → Option Int
  | '0' :: 'x' :: cs => basedInteger? 16 cs
  | '0' :: 'o' :: cs => basedInteger? 8 cs
  | '0' :: 'b' :: cs => basedInteger? 2 cs
  | cs => decimalInteger? cs

/-- The exponent that digits denote; past ten thousand its exact value does not matter. -/
def exponentOf (ds : List Nat) : Nat := ds.foldl (fun n d => if n < 10000 then n * 10 + d else n) 0

/-- The least magnitude that rounds to no double-precision number. -/
def overflowBound : Nat := Nat.pow 2 1024 - Nat.pow 2 970

/-- Whether `mantissa * 10 ^ exponent` is below the bound. -/
def isFinite (mantissa : Nat) (exponent : Int) : Bool :=
  if 0 ≤ exponent then mantissa * Nat.pow 10 exponent.toNat < overflowBound
  else mantissa < overflowBound * Nat.pow 10 (-exponent).toNat

/-- The digits behind the point: none without a point, at least one with it. -/
def fraction? : List Char → Option (List Nat)
  | [] => some []
  | _ :: cs => digits? 10 cs

/-- The exponent behind its mark, zero without one. -/
def exponent? : List Char → Option Int
  | [] => some 0
  | _ :: cs =>
    let (negative, body) := splitSign cs
    (digits? 10 body).map fun ds =>
      if negative then -(exponentOf ds : Int) else exponentOf ds

/-- Whether a word denotes a floating-point number with a point or an exponent. -/
def isFloat (cs : List Char) : Bool :=
  let (_, body) := splitSign cs
  let (mantissa, exponent) := body.span fun c => c ≠ 'e' && c ≠ 'E'
  let (whole, fraction) := mantissa.span (· ≠ '.')
  match digits? 10 whole, fraction? fraction, exponent? exponent with
  | some ws, some fs, some e =>
    !hasLeadingZero ws && !(fraction.isEmpty && exponent.isEmpty)
      && isFinite (ofDigits 10 (ws ++ fs)) (e - fs.length)
  | _, _, _ => false

/-- Whether a word denotes an infinity or no number at all. -/
def isSpecialFloat (cs : List Char) : Bool :=
  let (_, body) := splitSign cs
  body = "inf".toList || body = "nan".toList

/-! ### Moments -/

/-- A number of exactly `width` digits, and the rest. -/
def fixedNumber? (width : Nat) (cs : List Char) : Option (Nat × List Char) :=
  let ds := cs.take width
  if ds.length = width then
    (ds.mapM (digit? 10)).map fun values => (ofDigits 10 values, cs.drop width)
  else none

/-- What follows a character. -/
def after? (c : Char) : List Char → Option (List Char)
  | d :: rest => if d = c then some rest else none
  | [] => none

/-- The number of days of a month. -/
def daysIn (year month : Nat) : Nat :=
  if month = 2 then
    if year % 4 = 0 && (year % 100 ≠ 0 || year % 400 = 0) then 29 else 28
  else if month ∈ [4, 6, 9, 11] then 30
  else 31

/-- What follows a date. -/
def afterDate? (cs : List Char) : Option (List Char) := do
  let (year, cs) ← fixedNumber? 4 cs
  let (month, cs) ← fixedNumber? 2 (← after? '-' cs)
  let (day, cs) ← fixedNumber? 2 (← after? '-' cs)
  if 1 ≤ month && month ≤ 12 && 1 ≤ day && day ≤ daysIn year month then some cs else none

/-- What follows the fraction of a second, which may be missing. -/
def afterFraction : List Char → List Char
  | '.' :: d :: rest => if d.isDigit then rest.dropWhile Char.isDigit else '.' :: d :: rest
  | cs => cs

/-- What follows a time of day. The seconds may be missing. -/
def afterTime? (cs : List Char) : Option (List Char) := do
  let (hour, cs) ← fixedNumber? 2 cs
  let (minute, cs) ← fixedNumber? 2 (← after? ':' cs)
  if 24 ≤ hour || 60 ≤ minute then none
  else match after? ':' cs with
    | none => some cs
    | some cs =>
      let (second, cs) ← fixedNumber? 2 cs
      if 60 ≤ second then none else some (afterFraction cs)

/-- Whether the rest of a moment is the offset of a time zone. Offsets of a whole day and of a whole
hour of minutes are tolerated. -/
def isOffset : List Char → Bool
  | ['Z'] => true
  | sign :: cs =>
    (sign = '+' || sign = '-') &&
      (match fixedNumber? 2 cs with
      | some (hours, ':' :: cs) =>
        match fixedNumber? 2 cs with
        | some (minutes, []) => hours ≤ 24 && minutes ≤ 60
        | _ => false
      | _ => false)
  | [] => false

/-- The spelling in which moments are compared: a blank and either case of the marks count. -/
def momentChar (c : Char) : Char :=
  if c = 'z' then 'Z' else if c = 't' || c = ' ' then 'T' else c

/-- Whether a word denotes a date, a time of day, or a date and a time with or without an offset. -/
def isMoment (cs : List Char) : Bool :=
  let cs := cs.map momentChar
  match afterDate? cs with
  | some [] => true
  | some ('T' :: rest) =>
    match afterTime? rest with
    | some [] => true
    | some offset => isOffset offset
    | none => false
  | some _ => false
  | none => afterTime? cs = some []

/-! ### Words -/

/-- The scalar that a word denotes. -/
def word? (cs : List Char) : Option Scalar :=
  if cs = "true".toList then some (.boolean true)
  else if cs = "false".toList then some (.boolean false)
  else match integer? cs with
    | some n => some (.integer n)
    | none => if isSpecialFloat cs || isFloat cs then some (.float cs) else none

end Toml

end ClassSharing
