/-
  Expression trees.

  Each node remembers the spot of the token that introduced it: a binary
  operation that of its operator, a call that of its name.

  * `Expr.render` writes a tree with parentheses round every operation;
  * `Expr.write` refuses if an integer in the tree is too long to be written;
  * `Expr.unspotted` forgets the spots;
  * `Expr.nodes` lists the nodes, operands before their operation.
-/
import Reckon.Number.Basic

namespace Reckon

/-- An expression. -/
inductive Expr where
  | literal (value : Number) (spot : Int)
  | var (name : String) (spot : Int)
  | unary (op : String) (operand : Expr) (spot : Int)
  | binary (op : String) (lhs rhs : Expr) (spot : Int)
  | call (name : String) (args : List Expr) (spot : Int)

namespace Expr

/-! ## Text -/

mutual

/-- The tree as text, with parentheses round every operation. -/
def render : Expr → String
  | literal n _ => n.text
  | .var x _ => x
  | unary op e _ => "(" ++ op ++ render e ++ ")"
  | binary op l r _ => "(" ++ render l ++ " " ++ op ++ " " ++ render r ++ ")"
  | call f args _ => f ++ "(" ++ ", ".intercalate (renderAll args) ++ ")"

/-- The texts of several trees. -/
def renderAll : List Expr → List String
  | [] => []
  | e :: es => render e :: renderAll es

end

mutual

/-- Whether every number in the tree is short enough to be written out. -/
def isWritable : Expr → Bool
  | literal n _ => n.isWritable
  | .var _ _ => true
  | unary _ e _ => isWritable e
  | binary _ l r _ => isWritable l && isWritable r
  | call _ args _ => areWritable args

/-- Whether every number in several trees is short enough to be written out. -/
def areWritable : List Expr → Bool
  | [] => true
  | e :: es => isWritable e && areWritable es

end

/-- The tree as text, if all its numbers are short enough.  The stack may have no room for that:
    see `Host.write`. -/
def write (e : Expr) : Except Fault String :=
  if e.isWritable then .ok e.render else .error .tooManyDigits

/-! ## Spots -/

mutual

/-- A tree with its spots forgotten. -/
def unspotted : Expr → Expr
  | literal n _ => literal n 0
  | .var x _ => .var x 0
  | unary op e _ => unary op (unspotted e) 0
  | binary op l r _ => binary op (unspotted l) (unspotted r) 0
  | call f args _ => call f (unspottedAll args) 0

/-- Trees with their spots forgotten. -/
def unspottedAll : List Expr → List Expr
  | [] => []
  | e :: es => unspotted e :: unspottedAll es

end

/-! ## Nodes -/

/-- A node without its operands. -/
inductive Node where
  | literal (value : Number) (spot : Int)
  | var (name : String) (spot : Int)
  | unary (op : String) (spot : Int)
  | binary (op : String) (spot : Int)
  | call (name : String) (spot : Int) (arity : Nat)

mutual

/-- The nodes of a tree in post-order, before a list of others. -/
def nodesBefore : Expr → List Node → List Node
  | literal n p, tail => .literal n p :: tail
  | .var x p, tail => .var x p :: tail
  | unary op e p, tail => nodesBefore e (.unary op p :: tail)
  | binary op l r p, tail => nodesBefore l (nodesBefore r (.binary op p :: tail))
  | call f args p, tail => allNodesBefore args (.call f p args.length :: tail)

/-- The nodes of several trees in post-order, before a list of others. -/
def allNodesBefore : List Expr → List Node → List Node
  | [], tail => tail
  | e :: es, tail => nodesBefore e (allNodesBefore es tail)

end

/-- The nodes of a tree, from left to right and operands before their operation. -/
def nodes (e : Expr) : List Node := nodesBefore e []

end Expr

end Reckon
