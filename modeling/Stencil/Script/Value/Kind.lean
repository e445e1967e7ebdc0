import Stencil.Text.Basic

/-!
# The kinds of values

Every value of a script has a kind, which has a name and, most often, a parent. The exceptions form a
tree of kinds of their own, and so do the contexts that hold the bindings of a template.
-/

namespace Stencil.Script

/-- The kinds of exceptions. -/
inductive ExceptionKind where
  | baseException | systemExit | keyboardInterrupt | generatorExit | exception
  | stopIteration | stopAsyncIteration
  | arithmeticError | floatingPointError | overflowError | zeroDivisionError
  | assertionError | attributeError | bufferError | eofError | importError | moduleNotFoundError
  | lookupError | indexError | keyError | memoryError | nameError | unboundLocalError
  | osError | fileExistsError | fileNotFoundError | isADirectoryError | notADirectoryError
  | permissionError | timeoutError | referenceError
  | runtimeError | notImplementedError | recursionError | syntaxError | indentationError | tabError
  | systemError | typeError | valueError | unicodeError | unicodeDecodeError | unicodeEncodeError
  | warning | userWarning | deprecationWarning | runtimeWarning
  deriving DecidableEq, Repr, Inhabited

namespace ExceptionKind

/-- All kinds of exceptions. -/
def all : List ExceptionKind := [
  baseException, systemExit, keyboardInterrupt, generatorExit, exception,
  stopIteration, stopAsyncIteration,
  arithmeticError, floatingPointError, overflowError, zeroDivisionError,
  assertionError, attributeError, bufferError, eofError, importError, moduleNotFoundError,
  lookupError, indexError, keyError, memoryError, nameError, unboundLocalError,
  osError, fileExistsError, fileNotFoundError, isADirectoryError, notADirectoryError,
  permissionError, timeoutError, referenceError,
  runtimeError, notImplementedError, recursionError, syntaxError, indentationError, tabError,
  systemError, typeError, valueError, unicodeError, unicodeDecodeError, unicodeEncodeError,
  warning, userWarning, deprecationWarning, runtimeWarning]

/-- The name of a kind. -/
def name : ExceptionKind → String
  | baseException => "BaseException"
  | systemExit => "SystemExit"
  | keyboardInterrupt => "KeyboardInterrupt"
  | generatorExit => "GeneratorExit"
  | exception => "Exception"
  | stopIteration => "StopIteration"
  | stopAsyncIteration => "StopAsyncIteration"
  | arithmeticError => "ArithmeticError"
  | floatingPointError => "FloatingPointError"
  | overflowError => "OverflowError"
  | zeroDivisionError => "ZeroDivisionError"
  | assertionError => "AssertionError"
  | attributeError => "AttributeError"
  | bufferError => "BufferError"
  | eofError => "EOFError"
  | importError => "ImportError"
  | moduleNotFoundError => "ModuleNotFoundError"
  | lookupError => "LookupError"
  | indexError => "IndexError"
  | keyError => "KeyError"
  | memoryError => "MemoryError"
  | nameError => "NameError"
  | unboundLocalError => "UnboundLocalError"
  | osError => "OSError"
  | fileExistsError => "FileExistsError"
  | fileNotFoundError => "FileNotFoundError"
  | isADirectoryError => "IsADirectoryError"
  | notADirectoryError => "NotADirectoryError"
  | permissionError => "PermissionError"
  | timeoutError => "TimeoutError"
  | referenceError => "ReferenceError"
  | runtimeError => "RuntimeError"
  | notImplementedError => "NotImplementedError"
  | recursionError => "RecursionError"
  | syntaxError => "SyntaxError"
  | indentationError => "IndentationError"
  | tabError => "TabError"
  | systemError => "SystemError"
  | typeError => "TypeError"
  | valueError => "ValueError"
  | unicodeError => "UnicodeError"
  | unicodeDecodeError => "UnicodeDecodeError"
  | unicodeEncodeError => "UnicodeEncodeError"
  | warning => "Warning"
  | userWarning => "UserWarning"
  | deprecationWarning => "DeprecationWarning"
  | runtimeWarning => "RuntimeWarning"

/-- The kind that a kind of exception belongs to. -/
def parent? : ExceptionKind → Option ExceptionKind
  | baseException => none
  | systemExit | keyboardInterrupt | generatorExit | exception => some baseException
  | floatingPointError | overflowError | zeroDivisionError => some arithmeticError
  | moduleNotFoundError => some importError
  | indexError | keyError => some lookupError
  | unboundLocalError => some nameError
  | fileExistsError | fileNotFoundError | isADirectoryError | notADirectoryError
  | permissionError | timeoutError => some osError
  | notImplementedError | recursionError => some runtimeError
  | indentationError => some syntaxError
  | tabError => some indentationError
  | unicodeError => some valueError
  | unicodeDecodeError | unicodeEncodeError => some unicodeError
  | userWarning | deprecationWarning | runtimeWarning => some warning
  | _ => some exception

/-- The kind of a name; two old names stand for the errors of the operating system. -/
def ofName? (s : String) : Option ExceptionKind :=
  if s = "IOError" || s = "EnvironmentError" then some osError
  else all.find? (·.name == s)

end ExceptionKind

/-- The kinds of contexts: those that keep their bindings and escape as text or HTML does, one with a
store of its own, one whose attributes are the bindings, one that holds nothing, and one that lacks an
escape and so is no context. -/
inductive ContextKind where
  | text | html | keyed | duck | bare | incomplete
  deriving DecidableEq, Repr, Inhabited

/-- The name of a kind of context. -/
def ContextKind.name : ContextKind → String
  | text => "TemplateContext"
  | html => "HtmlTemplateContext"
  | keyed => "Keyed"
  | duck => "Duck"
  | bare => "Bare"
  | incomplete => "NotContext"

/-- The kinds of values. -/
inductive Kind where
  | object | type | none | ellipsis | notImplemented
  | bool | int | float | str | bytes | list | tuple | dict | set | frozenSet | range | slice
  | function | native | nativeMethod | method
  | generator | enumerate | zip | map | filter | reversed
  | listIterator | listReverseIterator | tupleIterator | strIterator | rangeIterator | setIterator
  | keyIterator | valueIterator | itemIterator | callIterator
  | keyView | valueView | itemView | cell | property | staticMethod | classMethod
  | exception (e : ExceptionKind)
  | context (c : ContextKind)
  /-- A kind that scripts can hold values of, but not name. -/
  | foreign (name : String)
  deriving DecidableEq, Repr, Inhabited

namespace Kind

/-- The name of a kind. -/
def name : Kind → String
  | object => "object"
  | type => "type"
  | none => "NoneType"
  | ellipsis => "ellipsis"
  | notImplemented => "NotImplementedType"
  | bool => "bool"
  | int => "int"
  | float => "float"
  | str => "str"
  | bytes => "bytes"
  | list => "list"
  | tuple => "tuple"
  | dict => "dict"
  | set => "set"
  | frozenSet => "frozenset"
  | range => "range"
  | slice => "slice"
  | function => "function"
  | native => "builtin_function_or_method"
  | nativeMethod => "method_descriptor"
  | method => "method"
  | generator => "generator"
  | enumerate => "enumerate"
  | zip => "zip"
  | map => "map"
  | filter => "filter"
  | reversed => "reversed"
  | listIterator => "list_iterator"
  | listReverseIterator => "list_reverseiterator"
  | tupleIterator => "tuple_iterator"
  | strIterator => "str_ascii_iterator"
  | rangeIterator => "range_iterator"
  | setIterator => "set_iterator"
  | keyIterator => "dict_keyiterator"
  | valueIterator => "dict_valueiterator"
  | itemIterator => "dict_itemiterator"
  | callIterator => "callable_iterator"
  | keyView => "dict_keys"
  | valueView => "dict_values"
  | itemView => "dict_items"
  | cell => "cell"
  | property => "property"
  | staticMethod => "staticmethod"
  | classMethod => "classmethod"
  | exception e => e.name
  | context c => c.name
  | foreign s => s

/-- The kind that a kind belongs to. -/
def parent? : Kind → Option Kind
  | object => Option.none
  | bool => some int
  | exception e => match e.parent? with
    | some p => some (exception p)
    | Option.none => some object
  | context .html => some (context .text)
  | _ => some object

/-- A kind and the kinds it belongs to, at most as many as the bound. -/
def lineage : Nat → Kind → List Kind
  | 0, _ => []
  | n + 1, k => k :: match k.parent? with
    | some p => lineage n p
    | Option.none => []

/-- A kind and all kinds it belongs to; no chain of parents is longer than six. -/
def ancestors (k : Kind) : List Kind :=
  lineage 6 k

/-- Whether a kind is another one or belongs to it. -/
def isA (k other : Kind) : Bool :=
  k.ancestors.contains other

/-- The kinds that scripts can name, exceptions apart. -/
def named : List Kind := [
  object, type, bool, int, float, str, bytes, list, tuple, dict, set, frozenSet, range, slice,
  enumerate, zip, map, filter, reversed, property, staticMethod, classMethod]

/-- The kind of a name in scripts. -/
def ofName? (s : String) : Option Kind :=
  match named.find? (·.name == s) with
  | some k => some k
  | Option.none => (ExceptionKind.ofName? s).map exception

end Kind

end Stencil.Script
