import AssemblyDigest.Toml.Item
import AssemblyDigest.Toml.Quoted

/-! # Unquoted TOML values

Numbers, booleans, dates and times are written without quotes. The reader of a document
cuts out the longest run of characters that such a value could hold; this module says
which runs are values. Integers must fit 64 bits, and no written decimal may be too large
for a double.
-/

namespace AssemblyDigest

namespace Toml

/-- Whether a character may occur in an unquoted value. -/
def isBareValueChar (char : Char) : Bool :=
  char.isAlphanum || char = '_' || char = '+' || char = '-' || char = '.' || char = ':'

/-- The digits of a number whose digits may be separated by single underscores. -/
def groupedDigits? (isDigit : Char → Bool) : Text → Option Text
  | [] => none
  | [digit] => if isDigit digit then some [digit] else none
  | digit :: '_' :: rest =>
      if isDigit digit then (groupedDigits? isDigit rest).map (digit :: ·) else none
  | digit :: rest =>
      if isDigit digit then (groupedDigits? isDigit rest).map (digit :: ·) else none

/-- The number that digits of a base stand for. -/
def numberOf (base : Nat) (digits : Text) : Nat :=
  digits.foldl (fun number digit => number * base + (Text.hexDigit? digit).getD 0) 0

/-- The digits of a decimal number, which starts with zero only if it is zero. -/
def decimalDigits? (text : Text) : Option Text :=
  match groupedDigits? Char.isDigit text with
  | some ['0'] => some ['0']
  | some ('0' :: _) => none
  | some digits => some digits
  | none => none

/-- The sign of a number and the rest of its text. -/
def splitSign : Text → Bool × Text
  | '-' :: rest => (true, rest)
  | '+' :: rest => (false, rest)
  | text => (false, text)

/-- A number with its sign, if it fits 64 bits. -/
def fitting? (negative : Bool) (number : Nat) : Option Scalar :=
  if number < 1 <<< 63 ∨ (negative ∧ number = 1 <<< 63) then
    some (.integer (if negative then -(number : Int) else number))
  else none

/-- The digits of a base. -/
def isBaseDigit (base : Nat) (char : Char) : Bool :=
  match base with
  | 2 => char = '0' || char = '1'
  | 8 => '0' ≤ char && char ≤ '7'
  | _ => char.isDigit || ('a' ≤ char && char ≤ 'f') || ('A' ≤ char && char ≤ 'F')

/-- An integer in a base other than ten. -/
def basedInteger? (base : Nat) (text : Text) : Option Scalar := do
  fitting? false (numberOf base (← groupedDigits? (isBaseDigit base) text))

/-- An integer. -/
def integer? : Text → Option Scalar
  | '0' :: 'x' :: rest => basedInteger? 16 rest
  | '0' :: 'o' :: rest => basedInteger? 8 rest
  | '0' :: 'b' :: rest => basedInteger? 2 rest
  | text => do
      let (negative, rest) := splitSign text
      fitting? negative (numberOf 10 (← decimalDigits? rest))

/-- Whether a character belongs to a group of digits. -/
def isGroupedDigit (char : Char) : Bool :=
  char.isDigit || char = '_'

/-- The exponent of a number. -/
def exponent? (text : Text) : Option Int := do
  let (negative, rest) := splitSign text
  let size := numberOf 10 (← groupedDigits? Char.isDigit rest)
  some (if negative then -(size : Int) else size)

/-- The digits after the point of a number, none if there is no point, and its exponent;
at least one of the two is written. -/
def fraction? : Text → Option (Text × Int)
  | '.' :: rest =>
      let digits := rest.takeWhile isGroupedDigit
      match groupedDigits? Char.isDigit digits, rest.dropWhile isGroupedDigit with
      | some digits, [] => some (digits, 0)
      | some digits, mark :: exponent =>
          if mark = 'e' ∨ mark = 'E' then (exponent? exponent).map (digits, ·) else none
      | none, _ => none
  | mark :: exponent =>
      if mark = 'e' ∨ mark = 'E' then (exponent? exponent).map ([], ·) else none
  | [] => none

/-- A floating-point number. -/
def float? (text : Text) : Option Scalar :=
  let (negative, rest) := splitSign text
  match rest with
  | ['i', 'n', 'f'] => some (.float (.infinite negative))
  | ['n', 'a', 'n'] => some (.float .nan)
  | _ => do
      let whole ← decimalDigits? (rest.takeWhile isGroupedDigit)
      let (digits, exponent) ← fraction? (rest.dropWhile isGroupedDigit)
      match Binary64.ofDecimal negative (numberOf 10 (whole ++ digits))
          (exponent - digits.length) with
      | .infinite false => none
      | value => some (.float value)

/-- The number that two digits stand for, if it lies within bounds. -/
def twoDigits? (low high : Nat) (tens ones : Char) : Option Nat :=
  let number := numberOf 10 [tens, ones]
  if tens.isDigit ∧ ones.isDigit ∧ low ≤ number ∧ number ≤ high then some number else none

/-- The number of days of a month. -/
def daysIn (year month : Nat) : Nat :=
  if month = 2 then
    if (year % 4 = 0 ∧ year % 100 ≠ 0) ∨ year % 400 = 0 then 29 else 28
  else if month = 4 ∨ month = 6 ∨ month = 9 ∨ month = 11 then 30
  else 31

/-- What follows a date at the front of a text. -/
def dropDate? : Text → Option Text
  | y₁ :: y₂ :: y₃ :: y₄ :: '-' :: m₁ :: m₂ :: '-' :: d₁ :: d₂ :: rest =>
      let year := [y₁, y₂, y₃, y₄]
      match twoDigits? 1 12 m₁ m₂ with
      | some month =>
          if year.all Char.isDigit ∧
              (twoDigits? 1 (daysIn (numberOf 10 year) month) d₁ d₂).isSome then
            some rest
          else none
      | none => none
  | _ => none

/-- What follows a time of day at the front of a text. A sixtieth second is allowed. -/
def dropTime? : Text → Option Text
  | h₁ :: h₂ :: ':' :: m₁ :: m₂ :: ':' :: s₁ :: s₂ :: rest =>
      if (twoDigits? 0 23 h₁ h₂).isSome ∧ (twoDigits? 0 59 m₁ m₂).isSome ∧
          (twoDigits? 0 60 s₁ s₂).isSome then
        match rest with
        | '.' :: digit :: more =>
            if digit.isDigit then some (more.dropWhile Char.isDigit) else none
        | '.' :: [] => none
        | _ => some rest
      else none
  | _ => none

/-- Whether a text is the offset of a time zone. -/
def isOffset : Text → Bool
  | ['Z'] => true
  | ['z'] => true
  | [sign, h₁, h₂, ':', m₁, m₂] =>
      (sign = '+' || sign = '-') && (twoDigits? 0 23 h₁ h₂).isSome &&
        (twoDigits? 0 59 m₁ m₂).isSome
  | _ => false

/-- Whether a text is a time of day, with or without an offset. -/
def isZonedTime (text : Text) : Bool :=
  match dropTime? text with
  | some rest => rest.isEmpty || isOffset rest
  | none => false

/-- A date, a time, or both joined by the letter T. -/
def datetime? (text : Text) : Option Scalar :=
  match dropDate? text with
  | some [] => some (.datetime text)
  | some (mark :: time) =>
      if (mark = 'T' ∨ mark = 't') ∧ isZonedTime time then some (.datetime text) else none
  | none => if dropTime? text = some [] then some (.datetime text) else none

/-- The value of an unquoted run of characters. -/
def bareScalar? (text : Text) : Option Scalar :=
  if text = ['t', 'r', 'u', 'e'] then some (.boolean true)
  else if text = ['f', 'a', 'l', 's', 'e'] then some (.boolean false)
  else ((datetime? text).or (float? text)).or (integer? text)

/-- Reads an unquoted value. A date may be followed by one blank and a time. -/
def readBare? (text : Text) : Option (Scalar × Text) := do
  let run := text.takeWhile isBareValueChar
  let rest := text.dropWhile isBareValueChar
  match dropDate? run, rest with
  | some [], ' ' :: digit :: more =>
      if digit.isDigit then
        let time := (digit :: more).takeWhile isBareValueChar
        if isZonedTime time then
          some (.datetime (run ++ ' ' :: time), (digit :: more).dropWhile isBareValueChar)
        else none
      else some (← bareScalar? run, rest)
  | _, _ => some (← bareScalar? run, rest)

end Toml

end AssemblyDigest
