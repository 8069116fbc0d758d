namespace SheetTemplate

inductive FaultKind where
  | type | value | zeroDivision | overflow | property | undefined | guarded | key | name
  | notImplemented | invalidDecimal | decimalByZero | filterArgument | templateRuntime
  | image | fileMissing | jsonText | yamlText | yamlToken | yamlNode | yamlValue | noColumns
  | tableText | syntaxText | index | illegalCharacter | memory
  deriving DecidableEq, Repr

def FaultKind.title : FaultKind → String
  | type => "TypeError"
  | value => "ValueError"
  | zeroDivision => "ZeroDivisionError"
  | overflow => "OverflowError"
  | property => "AttributeError"
  | undefined => "UndefinedError"
  | guarded => "SecurityError"
  | key => "KeyError"
  | name => "NameError"
  | notImplemented => "NotImplementedError"
  | invalidDecimal => "InvalidOperation"
  | decimalByZero => "DivisionByZero"
  | filterArgument => "FilterArgumentError"
  | templateRuntime => "TemplateRuntimeError"
  | image => "UnidentifiedImageError"
  | fileMissing => "FileNotFoundError"
  | jsonText => "JSONDecodeError"
  | yamlText => "ParserError"
  | yamlToken => "ScannerError"
  | yamlNode => "ComposerError"
  | yamlValue => "ConstructorError"
  | noColumns => "EmptyDataError"
  | tableText => "ParserError"
  | syntaxText => "SyntaxError"
  | index => "IndexError"
  | illegalCharacter => "IllegalCharacterError"
  | memory => "MemoryError"

structure Fault where
  kind : FaultKind
  text : String
  deriving DecidableEq, Repr

namespace Fault

def badType (text : String) : Fault := ⟨.type, text⟩

def badValue (text : String) : Fault := ⟨.value, text⟩

def operands (op left right : String) : Fault :=
  .badType ("unsupported operand type(s) for " ++ op ++ ": '" ++ left ++ "' and '" ++ right ++ "'")

def ordering (op left right : String) : Fault :=
  .badType ("'" ++ op ++ "' not supported between instances of '" ++ left ++ "' and '" ++ right ++ "'")

def notIterable (name : String) : Fault := .badType ("'" ++ name ++ "' object is not iterable")

def notCallable (name : String) : Fault := .badType ("'" ++ name ++ "' object is not callable")

def notSubscriptable (name : String) : Fault :=
  .badType ("'" ++ name ++ "' object is not subscriptable")

def invalidDecimal : Fault := ⟨.invalidDecimal, "[<class 'decimal.InvalidOperation'>]"⟩

end Fault

end SheetTemplate
