import Odm.Host.Literal
import Odm.Query.Binding
import Odm.Query.Mapping
import Odm.Query.Methods
import Odm.Query.Select

/-!
# Translating host expressions

A translator turns host expressions into scalar nodes against a select statement. Members of
an entity are bound to fields of its document, operators and conditionals to nodes of their
own, object constructions with known values to constants. An expression that the document
store cannot compute is translated to nothing, which is no error; errors are faults of the
query, such as a member looked up on an unrelated type.

Three things are changed on the way. Conversions that the host compiler puts around small
integers and enumerations are dropped from the operands of binary operators. A coalescing
`l ?? r` becomes the conditional `l != null ? l : r`. A chain of conversions around the
source of a member only says on which type the member is looked up.
-/

namespace Odm

/-- Translates host expressions under a schema. -/
structure Translator where
  schema : Schema
  /-- Rules for methods, tried before the built-in ones. -/
  methods : List MethodRule := []
  /-- Rules for members that documents do not store. -/
  members : List MemberRule := []

/-- An attempt to translate something: an error, nothing, or a result. -/
abbrev Attempt := OptionT (Except QueryError)

namespace Attempt

/-- A result or nothing. -/
def ofOption {α : Type} (result : Option α) : Attempt α := OptionT.mk (.ok result)

/-- A part of a query that has to be a scalar. -/
def scalar (part : Attempt Node) : Attempt Scalar := do ofOption (← part).scalar?

/-- A scalar as a part of a query. -/
def node (s : Option Scalar) : Attempt Node := ofOption (s.map .scalar)

end Attempt

namespace HostExpr

/-- Whether a conversion of an operand of one type to another is the compiler's own: from a
small integer or an enumeration to the integer type it is computed in. -/
def isImplicitConversion (operand target : HostType) : Bool :=
  let inner := operand.unwrap.underlying?.getD operand.unwrap
  inner = target.unwrap || (target.unwrap = .int32 && inner.widensToInt32)

/-- The type that the conversions around an expression ask for: the innermost one that is
neither object nor the type the expression has anyway. -/
def convertedType? : HostExpr → Option HostType
  | .unary op operand type =>
    if op.isConversion then
      operand.convertedType? <|>
        if type = .object ∨ type = operand.type then none else some type
    else none
  | _ => none

/-- Whether a call with these arguments is an access to a property by its name. -/
def isAccess (method : Method) (arguments : List HostExpr) : Bool :=
  method.isPropertyAccessor && match arguments with
    | [_, .constant (.str _) _] => true
    | _ => false

end HostExpr

namespace Translator

/-- The member of that name of an entity; other parts of a query have none. -/
def bindMember (t : Translator) (part : Node) (requested : Option HostType) (name : String) :
    Attempt Node :=
  match part with
  | .entity shape =>
    OptionT.mk (shape.bindMember t.schema name (some (requested.getD shape.type)) false)
  | _ => Attempt.ofOption none

/-- A scalar seen as another type: the scalar itself where nothing changes for the document
store, a conversion where the type is object, and nothing otherwise. -/
def convert (operand : Scalar) (type : HostType) : Option Scalar :=
  if (type.isInterface && operand.type.implements type) || type.unwrap = operand.type
      || type.unwrap = .enumBase then
    some operand
  else if type = .object then operand.convert .object
  else none

/-- A unary operator over its translated operand. -/
def applyUnary (op : HostUnaryOp) (type : HostType) (operand : Scalar) : Option Scalar :=
  match op with
  | .not => operand.not
  | .negate => operand.negate
  | .convert => convert operand type
  | .typeAs | .arrayLength | .quote => none

/-- An object construction as a constant. -/
def visitLiteral (e : HostExpr) : Attempt Node :=
  Attempt.node (e.literal?.map fun value => .literal value e.type)

mutual

/-- The part of a query that an expression stands for. With `stripped` set, as for operands of
binary operators, the compiler's own conversions around the expression are dropped. -/
def visit (t : Translator) (q : Select) (stripped : Bool) : HostExpr → Attempt Node
  | .constant value type => pure (.scalar (.literal value type))
  | .parameter name type => pure (.scalar (.placeholder name type))
  | .member source name type =>
    (do t.bindMember (← t.visitSource q source) source.convertedType? name) <|> do
      let object ← Attempt.scalar (t.visit q false source)
      Attempt.node (MemberRule.firstOf t.members (some object) name type)
  | .staticMember name type => Attempt.node (MemberRule.firstOf t.members none name type)
  | .call object method arguments =>
    if HostExpr.isAccess method arguments then t.visitAccess q arguments
    else do
      let object ← Attempt.scalar (t.visit q false object)
      let arguments ← t.visitAll q arguments
      Attempt.node
        (MethodRule.firstOf (MethodRule.withBuiltIn t.methods) (some object) method arguments)
  | .staticCall method arguments =>
    if HostExpr.isAccess method arguments then t.visitAccess q arguments
    else do
      let arguments ← t.visitAll q arguments
      Attempt.node (MethodRule.firstOf (MethodRule.withBuiltIn t.methods) none method arguments)
  | .binary op left right _ =>
    if op = .coalesce then do
      let tested ← Attempt.scalar (t.visit q true left)
      let test ← Attempt.ofOption (tested.combine .notEqual (.literal .null left.type))
      let ifTrue ← Attempt.scalar (t.visit q false left)
      let ifFalse ← Attempt.scalar (t.visit q false right)
      Attempt.node (Scalar.choose test ifTrue ifFalse)
    else do
      let left ← Attempt.scalar (t.visit q true left)
      let right ← Attempt.scalar (t.visit q true right)
      Attempt.node (left.combine op right)
  | .unary op operand type =>
    if stripped && op = .convert && HostExpr.isImplicitConversion operand.type type then
      t.visit q true operand
    else do
      let operand ← Attempt.scalar (t.visit q false operand)
      Attempt.node (applyUnary op type operand)
  | .conditional test ifTrue ifFalse _ => do
    let test ← Attempt.scalar (t.visit q false test)
    let ifTrue ← Attempt.scalar (t.visit q false ifTrue)
    let ifFalse ← Attempt.scalar (t.visit q false ifFalse)
    Attempt.node (Scalar.choose test ifTrue ifFalse)
  | .construct type members arguments => visitLiteral (.construct type members arguments)
  | .memberInit type members arguments bindings =>
    visitLiteral (.memberInit type members arguments bindings)
  | .newArray _ _ | .listInit _ _ _ _ | .lambda _ _ | .invoke _ _ _ =>
    Attempt.ofOption none
  | .shaper _ buffer => t.visit q false buffer
  | .projected path _ => OptionT.lift (q.mapped path)
  | .query node => pure node

/-- The scalars that expressions stand for, from left to right up to the first that has
none. -/
def visitAll (t : Translator) (q : Select) : List HostExpr → Attempt (List Scalar)
  | [] => pure []
  | e :: rest => do
    let s ← Attempt.scalar (t.visit q false e)
    let ss ← t.visitAll q rest
    pure (s :: ss)

/-- What an expression leads to as the source of a member, conversions aside: an entity, or a
member of one. -/
def visitSource (t : Translator) (q : Select) : HostExpr → Attempt Node
  | .shaper _ buffer => t.visit q false buffer
  | .member source name _ => do
    t.bindMember (← t.visitSource q source) source.convertedType? name
  | .call _ method arguments | .staticCall method arguments =>
    if HostExpr.isAccess method arguments then t.visitAccess q arguments
    else Attempt.ofOption none
  | .unary op operand _ =>
    if op.isConversion then t.visitSource q operand else Attempt.ofOption none
  | _ => Attempt.ofOption none

/-- The property accessed by a call with these arguments. -/
def visitAccess (t : Translator) (q : Select) : List HostExpr → Attempt Node
  | [source, .constant (.str name) _] => do
    t.bindMember (← t.visitSource q source) source.convertedType? name
  | _ => Attempt.ofOption none

end

/-- A scalar with all its mappings. A node left without one would be a fault of the rules that
made it. -/
def finish (s : Scalar) : Except QueryError (Option Scalar) :=
  match s.applyMapping none with
  | none => .ok none
  | some s =>
    match s.firstUnmapped? with
    | none => .ok (some s)
    | some unmapped => .error (.unmapped unmapped.text)

/-- The scalar node that an expression is translated to, if there is one. -/
def translate (t : Translator) (q : Select) (e : HostExpr) :
    Except QueryError (Option Scalar) := do
  match ← (Attempt.scalar (t.visit q false e)).run with
  | none => return none
  | some s => finish s

end Translator

end Odm
