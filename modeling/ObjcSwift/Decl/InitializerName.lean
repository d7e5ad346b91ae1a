import ObjcSwift.Text.LetterCase

/-!
# Names of initializers

An Objective-C initializer is named `init`, or `initWith` and a word that starts with a capital
letter. In Swift it is named `init`, and the word, with its first letter in lower case, is the label
of its first argument.
-/

namespace ObjcSwift

/-- What follows `initWith` in a name that starts so. -/
def afterInitWith? (name : String) : Option String :=
  let head := "initWith".toList
  if head.isPrefixOf name.toList then some (String.ofList (name.toList.drop head.length)) else none

/-- Whether a text starts with an ASCII capital letter. -/
def startsWithCapital (text : String) : Bool :=
  text.toList.head?.any Char.isUpper

/-- Whether a name or a first keyword is that of an initializer. -/
def isInitializerName (name : String) : Bool :=
  name == "init" || (afterInitWith? name).any startsWithCapital

/-- The label that the name of an initializer gives to its first argument. -/
def initializerLabel? (name : String) : Option String :=
  ((afterInitWith? name).filter fun word => !word.isEmpty).map Text.lowerFirst

end ObjcSwift
