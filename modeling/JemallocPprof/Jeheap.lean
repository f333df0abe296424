import JemallocPprof.Cast
import JemallocPprof.Lib.Numeral
import JemallocPprof.Lib.Text
import JemallocPprof.StackProfile

/-!
# `parse_jeheap`

The parser walks the lines of a heap dump with one slot, the stack that still
waits for its weight. The reader is what `BufRead::lines` yields: each line, or
the error of reading it. Numbers follow the grammars of `str::parse` for f64
and of `usize::from_str_radix`.
-/

namespace JemallocPprof
set_option autoImplicit false
open Lib

/-- The f64 operations of the parser over a carrier `F` of f64 values. -/
class F64 (F : Type) extends F64Cast F where
  /-- The value of a decimal literal. -/
  ofRat : ℚ → F
  inf : F
  nan : F
  neg : F → F
  exp : F → F
  sub : F → F → F
  mul : F → F → F
  div : F → F → F

/-- `str::trim` removes these (the property White_Space). -/
def isWhitespace (c : Char) : Bool :=
  let n := c.toNat
  (9 ≤ n && n ≤ 13) || n == 32 || n == 0x85 || n == 0xA0 || n == 0x1680 ||
  (0x2000 ≤ n && n ≤ 0x200A) || n == 0x2028 || n == 0x2029 || n == 0x202F || n == 0x205F ||
  n == 0x3000

/-- `split_ascii_whitespace` splits at these. -/
def isAsciiWhitespace (c : Char) : Bool :=
  c == ' ' || c == '\t' || c == '\n' || c == '\x0C' || c == '\r'

/-- `usize::from_str_radix`: an optional plus sign, then at least one digit. -/
def usizeFromStrRadix (radix : Nat) (src : List Char) : Option UInt64 :=
  let digits := match src with
    | '+' :: rest => rest
    | _ => src
  if digits = [] then none
  else (parseDigits radix digits).bind fun n => if n < 2 ^ 64 then some (UInt64.ofNat n) else none

/-- The exponent of a decimal literal, after its `e`. -/
def parseExponent (src : List Char) : Option Int :=
  let (negative, digits) := match src with
    | '-' :: rest => (true, rest)
    | '+' :: rest => (false, rest)
    | _ => (false, src)
  if digits = [] then none
  else (parseDigits 10 digits).map fun n => if negative then -(n : Int) else n

/-- `Digit+ | Digit+ '.' Digit* | Digit* '.' Digit+`, with an optional exponent. -/
def parseNumber (src : List Char) : Option ℚ :=
  let (whole, rest) := src.span Char.isDigit
  let (fraction, rest) := match rest with
    | '.' :: rest => rest.span Char.isDigit
    | _ => ([], rest)
  if whole ++ fraction = [] then none
  else do
    let significand ← parseDigits 10 (whole ++ fraction)
    let exponent ← match rest with
      | [] => some 0
      | 'e' :: rest | 'E' :: rest => parseExponent rest
      | _ => none
    some (significand * (10 : ℚ) ^ (exponent - fraction.length))

/-- `str::parse::<f64>`. -/
def parseF64 {F : Type} [F64 F] (src : List Char) : Option F :=
  let (negative, body) := match src with
    | '-' :: rest => (true, rest)
    | '+' :: rest => (false, rest)
    | _ => (false, src)
  let lower := String.ofList (body.map Char.toLower)
  let value :=
    if lower = "inf" ∨ lower = "infinity" then some F64.inf
    else if lower = "nan" then some F64.nan
    else (parseNumber body).map F64.ofRat
  value.map fun v => if negative then F64.neg v else v

/-- An error of the reader. -/
inductive IoError where
  /-- "stream did not contain valid UTF-8" -/
  | invalidData
  | other
  deriving DecidableEq

/-- Why `parse_jeheap` gives up. -/
inductive JeheapError where
  | io (error : IoError)
  /-- "Heap dump file was empty" -/
  | empty
  | parseFloat
  | parseInt
  /-- "Stack without corresponding weight!" -/
  | stackWithoutWeight
  deriving DecidableEq

/-- `BufRead::lines`: pieces between line feeds, a final empty one dropped, a
carriage return before a line feed dropped, each decoded strictly. -/
def bufReadLines (bytes : Bytes) : List (Except IoError String) :=
  let pieces := bytes.splitOn 0x0A
  let ended := pieces.dropLast.map fun piece =>
    if piece.getLast? = some 0x0D then piece.dropLast else piece
  let last := pieces.getLast?.toList.filter (· ≠ [])
  (ended ++ last).map fun piece =>
    match fromUtf8 piece with
    | some line => .ok line
    | none => .error .invalidData

section
variable {F : Type} [F64 F]

/-- Un-bias `bytes` sampled in `nObjs` objects, after jeprof's `AdjustSamples`. -/
def unbias (nObjs bytesInSampledObjs samplingRate : F) : F :=
  let one : F := F64.ofRat 1
  let ratio := F64.div (F64.div bytesInSampledObjs nObjs) samplingRate
  let scaleFactor := F64.div one (F64.sub one (F64.exp (F64.neg ratio)))
  F64.mul bytesInSampledObjs scaleFactor

/-- The words of a line. -/
def lineWords (line : String) : List (List Char) :=
  words isAsciiWhitespace (trimBoth isWhitespace line.toList)

/-- The address a word of a stack line stands for. -/
def parseAddr (word : List Char) : Except JeheapError UInt64 :=
  match usizeFromStrRadix 16 (trimStartMatches ['0', 'x'] word) with
  | some addr => .ok addr
  | none => .error .parseInt

/-- `str::parse::<f64>` with its error. -/
def parseFloat (word : List Char) : Except JeheapError F :=
  match parseF64 word with
  | some value => .ok value
  | none => .error .parseFloat

/-- `cur_stack` and `profile`. -/
structure JeheapState (F : Type) where
  curStack : Option (List UInt64)
  profile : StackProfile F
  deriving DecidableEq

/-- `if !words.is_empty() && words[0] == "@"`. -/
def stackLine (ws : List (List Char)) (s : JeheapState F) : Except JeheapError (JeheapState F) :=
  match ws with
  | ['@'] :: rest =>
    if s.curStack.isSome then .error .stackWithoutWeight
    else do
      let addrs ← rest.mapM parseAddr
      .ok { s with curStack := some addrs.reverse }
  | _ => .ok s

/-- `if words.len() > 2 && words[0] == "t*:"`. -/
def totalLine (samplingRate : F) (ws : List (List Char)) (s : JeheapState F) :
    Except JeheapError (JeheapState F) :=
  match ws with
  | ['t', '*', ':'] :: count :: bytes :: _ =>
    match s.curStack with
    | some addrs => do
      let nObjs ← parseFloat (count.rdropWhile (· == ':'))
      let bytesInSampledObjs ← parseFloat bytes
      let weight := unbias nObjs bytesInSampledObjs samplingRate
      .ok { curStack := none, profile := s.profile.pushStack ⟨addrs, weight⟩ none }
    | none => .ok s
  | _ => .ok s

/-- The body of the loop over `lines`. -/
def jeheapLine (samplingRate : F) (s : JeheapState F) (line : Except IoError String) :
    Except JeheapError (JeheapState F) :=
  match line with
  | .error e => .error (.io e)
  | .ok line => do
    let s ← stackLine (lineWords line) s
    totalLine samplingRate (lineWords line) s

/-- `parse_jeheap`. -/
def parseJeheap (lines : List (Except IoError String)) (mappings : Option (List Mapping)) :
    Except JeheapError (StackProfile F) :=
  match lines with
  | [] => .error .empty
  | .error e :: _ => .error (.io e)
  | .ok firstLine :: lines => do
    let samplingRate : F ← parseFloat (trimStartMatches "heap_v2/".toList firstLine.toList)
    let s ← lines.foldlM (jeheapLine samplingRate) ⟨none, .default⟩
    if s.curStack.isSome then .error .stackWithoutWeight
    else .ok ((mappings.getD []).foldl StackProfile.pushMapping s.profile)

end

end JemallocPprof
