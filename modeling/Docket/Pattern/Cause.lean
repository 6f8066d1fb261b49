/-!
Why a pattern cannot be used.
-/

set_option autoImplicit false
set_option relaxedAutoImplicit false

namespace Docket.Pattern

inductive Cause where
  | tooDeep
  | tooLarge
  | unclosedGroup
  | unopenedGroup
  | lookAround
  | badGroupName
  | repeatedGroupName
  | badFlags
  | nothingToRepeat
  | badRepetition
  | badEscape
  | backReference
  | unicodeClass
  | badCodePoint
  | badWordBoundary
  | unclosedClass
  | nestedClass
  | classOperator
  | badClassItem
  | badClassRange
  /-- The steps allowed for reading ran out; no pattern needs as many. -/
  | unfinished
  deriving DecidableEq

def Cause.message : Cause → String
  | .tooDeep => "the pattern nests too deep"
  | .tooLarge => "the pattern takes too much memory"
  | .unclosedGroup => "a group has no closing parenthesis"
  | .unopenedGroup => "a closing parenthesis has no group"
  | .lookAround => "look-around is not supported"
  | .badGroupName => "a group name is missing or invalid"
  | .repeatedGroupName => "two groups have one name"
  | .badFlags => "the flags of a group are invalid"
  | .nothingToRepeat => "a repetition has nothing to repeat"
  | .badRepetition => "the count of a repetition is invalid"
  | .badEscape => "an escape is not known"
  | .backReference => "back-references are not supported"
  | .unicodeClass => "classes of Unicode properties are not supported"
  | .badCodePoint => "an escape gives no code point"
  | .badWordBoundary => "a word boundary is not known"
  | .unclosedClass => "a class has no closing bracket"
  | .nestedClass => "a class stands inside a class"
  | .classOperator => "operators between classes are not supported"
  | .badClassItem => "an escape cannot stand in a class"
  | .badClassRange => "a range of a class is invalid"
  | .unfinished => "the pattern takes too many steps to read"

end Docket.Pattern
