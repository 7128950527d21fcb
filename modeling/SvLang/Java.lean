import SvLang.Numeric.Layout
import SvLang.Program

/-!
# Java output

The variables of a program become the local variables of one Java method.  Every other statement is
left out, and so is a variable whose initializer has no Java form here: a call, a step, a `return`,
a comparison or an assignment.

## What is here

* `Value` and `Declaration`: the part of Java that is written, and how a program gives rise to it
  (`Value.ofExpr?`, `Declaration.ofStmt?`).
* `Value.render`, `Declaration.render` and `mainClass`: its text.  Grouping is made visible:
  an operation inside an operation stands in parentheses.
-/

set_option autoImplicit false

namespace SvLang.Java

/-! ## The part of Java that is written -/

/-- The types of local variables. -/
inductive VariableType where
  | int | double | string
  deriving DecidableEq, Repr

/-- The name of the type. -/
def VariableType.spelling : VariableType → String
  | int => "int" | double => "double" | string => "String"

/-- What a variable is set to. -/
inductive Value where
  | int (n : Int)
  | double (x : Float)
  | string (content : String)
  | variable (name : String)
  | operation (left : Value) (op : ArithmeticOp) (right : Value)

/-- A local variable.  Without a value it is declared and not set. -/
structure Declaration where
  type : VariableType
  name : String
  value? : Option Value

/-! ## From programs -/

/-- The value of an expression, if it has a Java form.  A whole number of 32 bits becomes an `int`,
and every other number a `double`. -/
def Value.ofExpr? : Expr → Option Value
  | .number .numeric x =>
    match Binary64.int32? x with
    | some n => some (.int n)
    | none => some (.double x)
  | .number _ x => some (.double x)
  | .text _ content => some (.string content)
  | .identifier id => some (.variable id.name)
  | .binary left (.arithmetic op) right =>
    match ofExpr? left, ofExpr? right with
    | some l, some r => some (.operation l op r)
    | _, _ => none
  | _ => none

/-- The type of the variable that a value is stored in.  It is read off the form of the value, and
a name or an operation is taken for an `int`. -/
def Value.type : Value → VariableType
  | int _ => .int
  | double _ => .double
  | string _ => .string
  | .variable _ => .int
  | operation .. => .int

/-- The local variable of a statement, if it has one. -/
def Declaration.ofStmt? : Stmt → Option Declaration
  | .variable id _ none => some ⟨.int, id.name, none⟩
  | .variable id _ (some e) => (Value.ofExpr? e).map fun v ↦ ⟨v.type, id.name, some v⟩
  | _ => none

/-- The local variables of a program, in order. -/
def declarations (p : Program) : List Declaration := p.body.filterMap Declaration.ofStmt?

/-! ## Text -/

/-- How one character is written in a string literal. -/
def escaped (c : Char) : List Char :=
  if c = '\x22' then ['\\', '\x22']
  else if c = '\\' then ['\\', '\\']
  else if c = '\n' then ['\\', 'n']
  else if c = '\t' then ['\\', 't']
  else if c = '\r' then ['\\', 'r']
  else [c]

/-- The characters of the string literal that denotes a text. -/
def quotedChars (cs : List Char) : List Char := '\x22' :: (cs.flatMap escaped ++ ['\x22'])

/-- The string literal that denotes a text. -/
def quoted (s : String) : String := String.ofList (quotedChars s.toList)

/-- Numbers are written as in listings, but values that are not finite by their Java names. -/
def doubleLayout : Layout :=
  { Layout.listing with
    nan := "Double.NaN"
    infinity := "Double.POSITIVE_INFINITY"
    negativeInfinity := "Double.NEGATIVE_INFINITY" }

/-- Puts the text of an operation into parentheses, so that it can stand inside another. -/
def Value.grouped (v : Value) (text : String) : String :=
  match v with
  | operation .. => "(" ++ text ++ ")"
  | _ => text

/-- The text of a value. -/
def Value.render : Value → String
  | int n => toString n
  | double x => doubleLayout.write x
  | string content => quoted content
  | .variable name => name
  | operation left op right =>
    left.grouped left.render ++ " " ++ (BinaryOp.arithmetic op).spelling ++ " " ++
      right.grouped right.render

/-- The text of a declaration, with its semicolon. -/
def Declaration.render (d : Declaration) : String :=
  match d.value? with
  | none => s!"{d.type.spelling} {d.name};"
  | some v => s!"{d.type.spelling} {d.name} = {v.render};"

/-- The lines above the declarations. -/
def header : String :=
  "public class Main \x7b\n    public static void main(String[] args) \x7b\n"

/-- The lines below the declarations. -/
def footer : String := "    \x7d\n\x7d\n"

/-- The line of a declaration, at the depth of a method body. -/
def Declaration.line (d : Declaration) : String := "        " ++ d.render ++ "\n"

/-- The class whose main method declares these variables. -/
def mainClass (ds : List Declaration) : String :=
  header ++ String.join (ds.map Declaration.line) ++ footer

/-- The Java text of a program. -/
def emit (p : Program) : String := mainClass (declarations p)

end SvLang.Java
