import Gpt2Runtime.Basic
/-
# Numbers and token lists on the command line (`app/gpt2_generate.cpp`, `app/gpt2_benchmark.cpp`)

| here | there |
| --- | --- |
| `fromDigits`, `fromChars` | `std::from_chars` in base 10 for an integer type with the values from `lo` to `hi`; a type without negative values reads no `-` |
| `parseSize`             | `parse_size` (`gpt2_generate.cpp:47-54`, `gpt2_benchmark.cpp:67-74`) |
| `parseItem`             | one item of the loop of `parse_tokens` |
| `parseTokens`           | `parse_tokens` (`gpt2_generate.cpp:56-79`, `gpt2_benchmark.cpp:76-99`; the two are the same) |

A `string_view` is the list of its characters; `result.ptr` is the text from there on.
-/

namespace Gpt2Runtime.CommandLine

inductive Errc where
  | invalidArgument
  | resultOutOfRange
deriving DecidableEq, Repr

/-- `std::from_chars_result` and the variable that was passed in, which is 0 unless a number was stored. -/
structure FromChars where
  ec : Option Errc
  ptr : List Char
  value : Int

/-- The digits at the front of `body`, which is `text` after its sign. -/
def fromDigits (lo hi sign : Int) (text body : List Char) : FromChars :=
  let digits := body.takeWhile Char.isDigit
  let rest := body.dropWhile Char.isDigit
  let value := sign * Nat.ofDigitChars 10 digits 0
  if digits = [] then ⟨some .invalidArgument, text, 0⟩
  else if lo ≤ value ∧ value ≤ hi then ⟨none, rest, value⟩
  else ⟨some .resultOutOfRange, rest, 0⟩

def fromChars (lo hi : Int) (text : List Char) : FromChars :=
  if lo < 0 ∧ text.head? = some '-' then fromDigits lo hi (-1) text text.tail else fromDigits lo hi 1 text text

/-- The conversion used the whole text. -/
def FromChars.Complete (result : FromChars) : Prop := result.ec = none ∧ result.ptr = []

instance (result : FromChars) : Decidable result.Complete := inferInstanceAs (Decidable (_ ∧ _))

def parseSize (text : List Char) (option : String) : Except Exc UInt64 := do
  let result := fromChars 0 (2 ^ 64 - 1) text
  throwIf (¬result.Complete) (.invalidArgument ("invalid value for " ++ option))
  pure (UInt64.ofNat result.value.toNat)

def parseItem (item : List Char) : Except Exc Int32 := do
  throwIf (item = []) (.invalidArgument "--tokens contains an empty token ID")
  let result := fromChars (-2 ^ 31) (2 ^ 31 - 1) item
  throwIf (¬result.Complete) (.invalidArgument "--tokens contains an invalid token ID")
  pure (Int32.ofInt result.value)

/-- `while (!text.empty())`; the text from the first comma on is empty when there is none. -/
def parseTokensLoop (tokens : List Int32) (text : List Char) : Except Exc (List Int32) :=
  if text = [] then .ok tokens
  else do
    let token ← parseItem (text.takeWhile (· ≠ ','))
    match _h : text.dropWhile (· ≠ ',') with
    | [] => pure (tokens ++ [token])
    | _ :: text' => parseTokensLoop (tokens ++ [token]) text'
termination_by text.length
decreasing_by
  have hle := (List.dropWhile_suffix (l := text) (· ≠ ',')).length_le
  rw [_h, List.length_cons] at hle
  omega

def parseTokens (text : List Char) : Except Exc (List Int32) := do
  let tokens ← parseTokensLoop [] text
  throwIf (tokens = []) (.invalidArgument "--tokens must contain at least one token ID")
  pure tokens

end Gpt2Runtime.CommandLine
