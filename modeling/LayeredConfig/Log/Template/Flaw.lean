import LayeredConfig.Fault

/-! Why a message template cannot be filled in. -/

namespace LayeredConfig.Template

inductive Flaw where
  | unusedArguments
  | missingArgument
  | notMap
  | unclosedKey
  | unfinished
  | widthTooBig
  | precisionTooBig
  | widthTooLarge
  | precisionTooLarge
  | sizeNotInteger
  | unknownConversion (c : CodePoint) (index : Nat)
  | notNumber (c : CodePoint) (typeName : Text)
  | notInteger (c : CodePoint) (typeName : Text)
  | notReal (typeName : Text)
  | notCharacter
  | noSuchCharacter
  | nanToInteger
  | infinityToInteger
  | tooLargeForReal
  | noEntry (key : Text)
  | listKey
  | bytesKey
  | tooManyDigits
deriving DecidableEq, Repr

namespace Flaw

/-- A character of a template as messages show it. -/
def shown (c : CodePoint) : CodePoint :=
  if 31 ≤ c.value ∧ c.value ≤ 126 then c else .scalar '?'

def message : Flaw → Text
  | unusedArguments => "not all arguments converted during string formatting"
  | missingArgument => "not enough arguments for format string"
  | notMap => "format requires a mapping"
  | unclosedKey => "incomplete format key"
  | unfinished => "incomplete format"
  | widthTooBig => "width too big"
  | precisionTooBig => "precision too big"
  | widthTooLarge => "Python int too large to convert to C ssize_t"
  | precisionTooLarge => "Python int too large to convert to C int"
  | sizeNotInteger => "* wants int"
  | unknownConversion c index =>
    ("unsupported format character '" : Text) ++ shown c :: ("' (0x" : Text) ++
      Numeral.digits 16 c.value ++ (") at index " : Text) ++ Numeral.ofNat index
  | notNumber c typeName =>
    .scalar '%' :: c :: (" format: a real number is required, not " : Text) ++ typeName
  | notInteger c typeName =>
    .scalar '%' :: c :: (" format: an integer is required, not " : Text) ++ typeName
  | notReal typeName => ("must be real number, not " : Text) ++ typeName
  | notCharacter => "%c requires int or char"
  | noSuchCharacter => "%c arg not in range(0x110000)"
  | nanToInteger => "cannot convert float NaN to integer"
  | infinityToInteger => "cannot convert float infinity to integer"
  | tooLargeForReal => "int too large to convert to float"
  | noEntry key => key.quoted
  | listKey => "list indices must be integers or slices, not str"
  | bytesKey => "byte indices must be integers or slices, not str"
  | tooManyDigits => Fault.tooManyDigits.message

end Flaw

end LayeredConfig.Template
