import LiquidityBand.Double.Text
import LiquidityBand.Text.Quoted

/-!
# What can be wrong with a JSON text

* `Json.Problem` lists the faults of a text: either it is no JSON at all, or its values are not
  those of the type that is read;
* `Json.Problem.message?` is the wording of a fault of the second class.
-/

namespace LiquidityBand.Json

/-- A value that stands where another was expected. -/
inductive Found where
  | null
  | boolean (value : Bool)
  | integer (value : Int)
  | double (value : Float)
  | text (value : String)
  | sequence
  | object

/-- What is wrong with a numeral in quotes. -/
inductive NumeralProblem where
  | empty
  | invalidDigit
  | tooLarge
  deriving DecidableEq, Repr

/-- What is wrong with a text. -/
inductive Problem where
  /-- The text is not JSON, or a number is beyond all bounds. -/
  | malformed
  | invalidType (found : Found) (expected : String)
  | invalidValue (found : Found) (expected : String)
  | invalidLength (length : Nat) (expected : String)
  | missingField (name : String)
  | duplicateField (name : String)
  | unknownVariant (name : String) (expected : List String)
  | numeral (problem : NumeralProblem)

/-- A name between grave accents. -/
def accented (name : String) : String := "\x60" ++ name ++ "\x60"

/-- The description of a value that was not expected. -/
def Found.describe : Found → String
  | null => "null"
  | boolean value => "boolean " ++ accented (if value then "true" else "false")
  | integer value => "integer " ++ accented (toString value)
  | double value => "floating point " ++ accented (Double.scientificText value)
  | text value => "string " ++ Quoted.quote value
  | sequence => "sequence"
  | object => "map"

/-- The wording of a numeral's fault. -/
def NumeralProblem.message : NumeralProblem → String
  | empty => "cannot parse integer from empty string"
  | invalidDigit => "invalid digit found in string"
  | tooLarge => "number too large to fit in target type"

/-- The names that were expected instead of another. -/
def alternatives (names : List String) : String :=
  match names.map accented with
  | [] => "there are no variants"
  | [a] => "expected " ++ a
  | [a, b] => "expected " ++ a ++ " or " ++ b
  | all => "expected one of " ++ ", ".intercalate all

/-- The wording of a fault; a text that is no JSON has none. -/
def Problem.message? : Problem → Option String
  | malformed => none
  | invalidType found expected =>
      some ("invalid type: " ++ found.describe ++ ", expected " ++ expected)
  | invalidValue found expected =>
      some ("invalid value: " ++ found.describe ++ ", expected " ++ expected)
  | invalidLength length expected =>
      some ("invalid length " ++ toString length ++ ", expected " ++ expected)
  | missingField name => some ("missing field " ++ accented name)
  | duplicateField name => some ("duplicate field " ++ accented name)
  | unknownVariant name expected =>
      some ("unknown variant " ++ accented name ++ ", " ++ alternatives expected)
  | numeral problem => some problem.message

end LiquidityBand.Json
