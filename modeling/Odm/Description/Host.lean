import Odm.Description.Query
import Odm.Host.Expr

/-!
# Descriptions of host expressions

An expression is described by its kind and its parts. Static calls and static members have
the same kinds as those of an object, which is null.
-/

namespace Odm.HostExpr

/-- An expression of a kind, with its parts. -/
def ofKind (kind : String) (parts : List (String × Value)) : Value :=
  .record (("e", .str kind) :: parts)

/-- A parameter of a lambda. -/
def describeParameter (parameter : String × HostType) : Value :=
  .record [("name", .str parameter.1), ("t", parameter.2.describe)]

mutual

def describe : HostExpr → Value
  | .constant v type => ofKind "const" [("v", v), ("t", type.describe)]
  | .parameter name type => ofKind "param" [("name", .str name), ("t", type.describe)]
  | .member source name type =>
    ofKind "member" [("of", source.describe), ("name", .str name), ("t", type.describe)]
  | .staticMember name type =>
    ofKind "member" [("of", .null), ("name", .str name), ("t", type.describe)]
  | .call object method arguments =>
    ofKind "call" [("on", object.describe), ("m", method.describe),
      ("args", .arr (describeAll arguments))]
  | .staticCall method arguments =>
    ofKind "call" [("on", .null), ("m", method.describe), ("args", .arr (describeAll arguments))]
  | .binary op left right type =>
    ofKind "bin" [("op", .str op.code), ("l", left.describe), ("r", right.describe),
      ("t", type.describe)]
  | .unary op operand type =>
    ofKind "un" [("op", .str op.code), ("x", operand.describe), ("t", type.describe)]
  | .conditional test ifTrue ifFalse type =>
    ofKind "cond" [("test", test.describe), ("then", ifTrue.describe),
      ("else", ifFalse.describe), ("t", type.describe)]
  | .construct type members arguments =>
    ofKind "new" [("t", type.describe), ("members", .strs members),
      ("args", .arr (describeAll arguments))]
  | .memberInit type members arguments bindings =>
    ofKind "init" [("t", type.describe), ("members", .strs members),
      ("args", .arr (describeAll arguments)), ("binds", .arr (describeBindings bindings))]
  | .newArray element items =>
    ofKind "newarr" [("t", element.describe), ("items", .arr (describeAll items))]
  | .listInit type members arguments items =>
    ofKind "listinit" [("t", type.describe), ("members", .strs members),
      ("args", .arr (describeAll arguments)), ("items", .arr (describeAll items))]
  | .lambda parameters body =>
    ofKind "lambda" [("params", .items describeParameter parameters), ("body", body.describe)]
  | .invoke function arguments type =>
    ofKind "invoke" [("f", function.describe), ("args", .arr (describeAll arguments)),
      ("t", type.describe)]
  | .shaper entityType buffer =>
    ofKind "shaper" [("type", .str entityType), ("buf", buffer.describe)]
  | .projected path type =>
    ofKind "binding" [("path", .str (OutputPath.text path)), ("t", type.describe)]
  | .query node => ofKind "query" [("node", node.describe)]

def describeAll : List HostExpr → List Value
  | [] => []
  | e :: rest => e.describe :: describeAll rest

/-- The assignments of an object construction. -/
def describeBindings : List (String × HostExpr) → List Value
  | [] => []
  | (name, e) :: rest =>
    .record [("name", .str name), ("x", e.describe)] :: describeBindings rest

end

end Odm.HostExpr
