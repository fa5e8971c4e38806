import RpcGateway.Config.Setting
import RpcGateway.Config.Toml.Text
import RpcGateway.Number.Binary64

/-!
# TOML scalars

Numbers, truth values, dates and times.

**Numbers.**  Digits may be grouped by single underscores.  An integer has at most 64 bits; a number
with a point or an exponent is a floating-point number and must not be too large for one.

**Dates and times.**  They have no type of their own among settings and become texts in a uniform
spelling.
-/

namespace RpcGateway
namespace Toml

/-- The grouped digits at the front of a text, and what follows. -/
def digitRun (p : Char → Bool) : List Char → List Char × List Char
  | [] => ([], [])
  | [c] => if p c then ([c], []) else ([], [c])
  | c :: d :: rest =>
      if p c then
        let (ds, r) := digitRun p (d :: rest)
        (c :: ds, r)
      else if c == '_' && p d then digitRun p (d :: rest)
      else ([], c :: d :: rest)

/-- Reads grouped digits, at least one. -/
def digits (p : Char → Bool) : Reader (List Char)
  | c :: rest => if p c then some (digitRun p (c :: rest)) else none
  | [] => none

/-- Reads a sign, if there is one; tells whether it is negative. -/
def sign : List Char → Bool × List Char
  | '+' :: rest => (false, rest)
  | '-' :: rest => (true, rest)
  | cs => (false, cs)

/-- Reads decimal digits without a zero in front. -/
def decimal : Reader (List Char)
  | '0' :: rest => some (['0'], rest)
  | cs => digits Char.isDigit cs

def valueOf (base : Nat) (ds : List Char) : Nat :=
  ds.foldl (fun n c => n * base + (Ascii.hexValue? c).getD 0) 0

/-- An integer of 64 bits. -/
def whole? (n : Int) : Option Scalar :=
  if Decimal.minInt64 ≤ n ∧ n ≤ Decimal.maxInt64 then some (.whole n) else none

/-- Reads an integer of 64 bits in a base. -/
def based (base : Nat) (p : Char → Bool) : Reader Scalar := fun cs =>
  match digits p cs with
  | none => none
  | some (ds, rest) => (whole? (valueOf base ds)).map fun v => (v, rest)

def isOctal (c : Char) : Bool :=
  '0' ≤ c && c ≤ '7'

def isBinary (c : Char) : Bool :=
  c == '0' || c == '1'

def integer : Reader Scalar
  | '0' :: 'x' :: rest => based 16 (fun c => (Ascii.hexValue? c).isSome) rest
  | '0' :: 'o' :: rest => based 8 isOctal rest
  | '0' :: 'b' :: rest => based 2 isBinary rest
  | cs =>
      let (negative, rest) := sign cs
      match decimal rest with
      | none => none
      | some (ds, rest) =>
          let n : Int := valueOf 10 ds
          (whole? (if negative then -n else n)).map fun v => (v, rest)

/-- Reads an exponent, if there is one. -/
def exponent? : Reader Int
  | c :: rest =>
      if c = 'e' ∨ c = 'E' then
        let (negative, rest) := sign rest
        match digits Char.isDigit rest with
        | none => none
        | some (ds, rest) =>
            let n : Int := valueOf 10 ds
            some (if negative then -n else n, rest)
      else some (0, c :: rest)
  | [] => some (0, [])

/-- A signed number, unless it is positive and too large. -/
def real? (negative : Bool) (x : Binary64) : Option Scalar :=
  if negative then some (.real x.neg)
  else if x.isInfinite then none
  else some (.real x)

/-- Reads what makes a number a floating-point number, behind its first digits. -/
def floatTail (negative : Bool) (ds : List Char) : Reader Scalar
  | '.' :: rest =>
      match digits Char.isDigit rest with
      | none => none
      | some (fs, rest) =>
          match exponent? rest with
          | none => none
          | some (e, rest) =>
              (real? negative (Binary64.ofDecimal (valueOf 10 (ds ++ fs)) (e - fs.length))).map
                fun v => (v, rest)
  | c :: rest =>
      if c = 'e' ∨ c = 'E' then
        match exponent? (c :: rest) with
        | none => none
        | some (e, rest) =>
            (real? negative (Binary64.ofDecimal (valueOf 10 ds) e)).map fun v => (v, rest)
      else none
  | [] => none

/-- Reads a floating-point number. -/
def float : Reader Scalar := fun cs =>
  let (negative, rest) := sign cs
  match rest with
  | 'i' :: 'n' :: 'f' :: rest =>
      some (.real (if negative then Binary64.infinity.neg else .infinity), rest)
  | 'n' :: 'a' :: 'n' :: rest =>
      some (.real (if negative then Binary64.nan.neg else .nan), rest)
  | rest =>
      match decimal rest with
      | none => none
      | some (ds, rest) => floatTail negative ds rest

/-!
## Dates and times
-/

/-- Reads a number of exactly so many digits within bounds. -/
def field (count least greatest : Nat) : Reader Nat := fun cs =>
  let ds := cs.take count
  if ds.length = count && ds.all Char.isDigit then
    let n := valueOf 10 ds
    if least ≤ n && n ≤ greatest then some (n, cs.drop count) else none
  else none

/-- Reads one character. -/
def mark (c : Char) : List Char → Option (List Char)
  | d :: rest => if d = c then some rest else none
  | [] => none

def daysOf (year month : Nat) : Nat :=
  if month = 2 then
    if year % 4 = 0 ∧ (year % 100 ≠ 0 ∨ year % 400 = 0) then 29 else 28
  else if month = 4 ∨ month = 6 ∨ month = 9 ∨ month = 11 then 30
  else 31

/-- A number with zeros in front. -/
def padded (width n : Nat) : List Char :=
  let ds := Decimal.ofNat n
  List.replicate (width - ds.length) '0' ++ ds

def date : Reader (List Char) := fun cs => do
  let (year, cs) ← field 4 0 9999 cs
  let cs ← mark '-' cs
  let (month, cs) ← field 2 1 12 cs
  let cs ← mark '-' cs
  let (day, cs) ← field 2 1 (daysOf year month) cs
  return (padded 4 year ++ '-' :: padded 2 month ++ '-' :: padded 2 day, cs)

/-- Reads a fraction of a second, if there is one. -/
def secondFraction : Reader (List Char)
  | '.' :: cs =>
      let ds := cs.takeWhile Char.isDigit
      if ds.isEmpty then none
      else
        let shown := ((ds.take 9).reverse.dropWhile (· == '0')).reverse
        some (if shown.isEmpty then [] else '.' :: shown, cs.dropWhile Char.isDigit)
  | cs => some ([], cs)

def time : Reader (List Char) := fun cs => do
  let (hour, cs) ← field 2 0 23 cs
  let cs ← mark ':' cs
  let (minute, cs) ← field 2 0 59 cs
  let cs ← mark ':' cs
  let (second, cs) ← field 2 0 60 cs
  let (fraction, cs) ← secondFraction cs
  return (padded 2 hour ++ ':' :: padded 2 minute ++ ':' :: padded 2 second ++ fraction, cs)

/-- Reads the hours and minutes of an offset. -/
def offsetFields (sign : Char) : Reader (List Char) := fun cs => do
  let (hour, cs) ← field 2 0 23 cs
  let cs ← mark ':' cs
  let (minute, cs) ← field 2 0 59 cs
  let shown := if hour = 0 ∧ minute = 0 then '+' else sign
  return (shown :: padded 2 hour ++ ':' :: padded 2 minute, cs)

/-- Reads an offset, if there is one. -/
def offset : Reader (List Char)
  | 'Z' :: cs => some (['Z'], cs)
  | 'z' :: cs => some (['Z'], cs)
  | '+' :: cs => offsetFields '+' cs
  | '-' :: cs => offsetFields '-' cs
  | cs => some ([], cs)

/-- Whether a character may stand between a date and a time. -/
def isDelimiter (c : Char) : Bool :=
  c == 'T' || c == 't' || c == ' '

/-- Reads the time behind a date, if there is one. -/
def timeBehind (shown : List Char) : Reader (List Char)
  | c :: cs =>
      if isDelimiter c then
        match time cs with
        | none => if c = ' ' then some (shown, c :: cs) else none
        | some (t, cs) => (offset cs).map fun o => (shown ++ 'T' :: t ++ o.1, o.2)
      else some (shown, c :: cs)
  | [] => some (shown, [])

/-- Reads a date, a time, or both. -/
def dateTime : Reader Scalar := fun cs =>
  let r :=
    match date cs with
    | some (d, cs) => timeBehind d cs
    | none => time cs
  r.map fun r => (.text (String.ofList r.1), r.2)

def word (w : String) (v : Scalar) : Reader Scalar := fun cs =>
  (w.toList.isPrefixOf? cs).map fun rest => (v, rest)

def bareScalar : Reader Scalar := fun cs =>
  (dateTime cs).orElse fun _ =>
    (float cs).orElse fun _ =>
      (integer cs).orElse fun _ =>
        (word "true" (.flag true) cs).orElse fun _ => word "false" (.flag false) cs

end Toml
end RpcGateway
