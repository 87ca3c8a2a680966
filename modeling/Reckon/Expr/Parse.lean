/-
  Reading expressions from tokens, by precedence, loosest first:

  ```text
  sum      := product (('+' | '-') product)*          to the left
  product  := power (('*' | '/' | '%') power)*        to the left
  power    := negation ('^' power)?                   to the right
  negation := '-' negation | primary
  primary  := number | name | name '(' arguments ')' | '(' sum ')'
  ```

  Every function reads a longest phrase from the start of a token list and
  returns the tokens after it, which are fewer.  An expression nests one level
  deeper inside parentheses, in a list of arguments that is not empty, in the
  operand of a minus and in an exponent; a token that would lead below
  `maxDepth` levels is refused.

  * `Expr.parse` reads a whole token list;
  * `Expr.parseText` reads a text.
-/
import Reckon.Expr.Basic
import Reckon.Token.Scan

namespace Reckon

/-- How deep expressions may nest. -/
def maxDepth : Nat := 100

/-- The error that refuses a token. -/
def Token.refused (t : Token) : Error := .unexpectedToken t.text t.spot

/-- What reading a phrase yields: its meaning, and fewer than `n` tokens after it. -/
abbrev Parsed (α : Type) (n : Nat) := Except Error { r : α × List Token // r.2.length < n }

/-- Passes the parenthesis that closes the opening one. -/
def Token.close (opening : Token) : (ts : List Token) → Parsed Unit ts.length
  | [] => .error (.unmatchedParen opening.spot)
  | t :: rest =>
    if t.lexeme = .closing then .ok ⟨((), rest), Nat.lt_succ_self _⟩ else .error t.refused

namespace Expr

mutual

/-- Reads a sum. -/
def parseSum (stop : Int) (depth : Nat) (ts : List Token) : Parsed Expr ts.length :=
  match parseProduct stop depth ts with
  | .error e => .error e
  | .ok ⟨(lhs, rest), h⟩ => parseSumFrom stop depth ts.length lhs rest h
termination_by 8 * ts.length + 6
decreasing_by
  · omega
  · simp only at h
    omega

/-- Reads the rest of a sum, after its first terms. -/
def parseSumFrom (stop : Int) (depth n : Nat) (lhs : Expr) (ts : List Token)
    (h : ts.length < n) : Parsed Expr n :=
  match ts with
  | [] => .ok ⟨(lhs, []), h⟩
  | t :: rest =>
    match t.additive? with
    | none => .ok ⟨(lhs, t :: rest), h⟩
    | some op =>
      match parseProduct stop depth rest with
      | .error e => .error e
      | .ok ⟨(rhs, rest'), h'⟩ =>
        parseSumFrom stop depth n (.binary op lhs rhs t.spot) rest'
          (Nat.lt_trans h' (Nat.lt_trans (Nat.lt_succ_self _) h))
termination_by 8 * ts.length + 5
decreasing_by
  · simp only [List.length_cons]
    omega
  · simp only [List.length_cons] at *
    omega

/-- Reads a product. -/
def parseProduct (stop : Int) (depth : Nat) (ts : List Token) : Parsed Expr ts.length :=
  match parsePower stop depth ts with
  | .error e => .error e
  | .ok ⟨(lhs, rest), h⟩ => parseProductFrom stop depth ts.length lhs rest h
termination_by 8 * ts.length + 4
decreasing_by
  · omega
  · simp only at h
    omega

/-- Reads the rest of a product, after its first factors. -/
def parseProductFrom (stop : Int) (depth n : Nat) (lhs : Expr) (ts : List Token)
    (h : ts.length < n) : Parsed Expr n :=
  match ts with
  | [] => .ok ⟨(lhs, []), h⟩
  | t :: rest =>
    match t.multiplicative? with
    | none => .ok ⟨(lhs, t :: rest), h⟩
    | some op =>
      match parsePower stop depth rest with
      | .error e => .error e
      | .ok ⟨(rhs, rest'), h'⟩ =>
        parseProductFrom stop depth n (.binary op lhs rhs t.spot) rest'
          (Nat.lt_trans h' (Nat.lt_trans (Nat.lt_succ_self _) h))
termination_by 8 * ts.length + 3
decreasing_by
  · simp only [List.length_cons]
    omega
  · simp only [List.length_cons] at *
    omega

/-- Reads a power. -/
def parsePower (stop : Int) (depth : Nat) (ts : List Token) : Parsed Expr ts.length :=
  match parseNegation stop depth ts with
  | .error e => .error e
  | .ok ⟨(base, []), h⟩ => .ok ⟨(base, []), h⟩
  | .ok ⟨(base, t :: rest), h⟩ =>
    match t.power? with
    | none => .ok ⟨(base, t :: rest), h⟩
    | some op =>
      if maxDepth ≤ depth then .error t.refused
      else
        match parsePower stop (depth + 1) rest with
        | .error e => .error e
        | .ok ⟨(exponent, rest'), h'⟩ =>
          .ok ⟨(.binary op base exponent t.spot, rest'),
            Nat.lt_trans h' (Nat.lt_trans (Nat.lt_succ_self _) h)⟩
termination_by 8 * ts.length + 2
decreasing_by
  · omega
  · simp only [List.length_cons] at h
    omega

/-- Reads a negation. -/
def parseNegation (stop : Int) (depth : Nat) (ts : List Token) : Parsed Expr ts.length :=
  match ts with
  | [] => .error (.unexpectedEnd stop)
  | t :: rest =>
    match t.negation? with
    | none => parsePrimary stop depth (t :: rest)
    | some op =>
      if maxDepth ≤ depth then .error t.refused
      else
        match parseNegation stop (depth + 1) rest with
        | .error e => .error e
        | .ok ⟨(operand, rest'), h⟩ =>
          .ok ⟨(.unary op operand t.spot, rest'), Nat.lt_succ_of_lt h⟩
termination_by 8 * ts.length + 1

/-- Reads a number, a name, a call or an expression in parentheses. -/
def parsePrimary (stop : Int) (depth : Nat) (ts : List Token) : Parsed Expr ts.length :=
  match ts with
  | [] => .error (.unexpectedEnd stop)
  | t :: rest =>
    match t.lexeme with
    | .number n => .ok ⟨(.literal n t.spot, rest), Nat.lt_succ_self _⟩
    | .name x =>
      match rest with
      | [] => .ok ⟨(.var x t.spot, []), Nat.lt_succ_self _⟩
      | p :: inner =>
        if p.lexeme = .opening then
          match parseArguments stop depth p inner with
          | .error e => .error e
          | .ok ⟨(args, rest'), h⟩ =>
            .ok ⟨(.call x args t.spot, rest'), Nat.lt_succ_of_lt (Nat.lt_succ_of_lt h)⟩
        else .ok ⟨(.var x t.spot, p :: inner), Nat.lt_succ_self _⟩
    | .opening =>
      if maxDepth ≤ depth then .error t.refused
      else
        match parseSum stop (depth + 1) rest with
        | .error e => .error e
        | .ok ⟨(inner, rest'), h⟩ =>
          match t.close rest' with
          | .error e => .error e
          | .ok ⟨((), rest''), h'⟩ =>
            .ok ⟨(inner, rest''), Nat.lt_succ_of_lt (Nat.lt_trans h' h)⟩
    | .operator _ | .closing | .comma | .other _ => .error t.refused
termination_by 8 * ts.length

/-- Reads the arguments of a call, after its opening parenthesis, and the closing one. -/
def parseArguments (stop : Int) (depth : Nat) (opening : Token) (ts : List Token) :
    Parsed (List Expr) ts.length :=
  match ts with
  | [] => .error (if maxDepth ≤ depth then opening.refused else .unexpectedEnd stop)
  | t :: rest =>
    if t.lexeme = .closing then .ok ⟨([], rest), Nat.lt_succ_self _⟩
    else if maxDepth ≤ depth then .error opening.refused
    else
      match parseSum stop (depth + 1) (t :: rest) with
      | .error e => .error e
      | .ok ⟨(first, rest'), h⟩ =>
        match parseArgumentsFrom stop (depth + 1) opening rest' with
        | .error e => .error e
        | .ok ⟨(more, rest''), h'⟩ => .ok ⟨(first :: more, rest''), Nat.lt_trans h' h⟩
termination_by 8 * ts.length + 7
decreasing_by
  · omega
  · simp only [List.length_cons] at *
    omega

/-- Reads the rest of the arguments, after some of them, and the closing parenthesis. -/
def parseArgumentsFrom (stop : Int) (depth : Nat) (opening : Token) (ts : List Token) :
    Parsed (List Expr) ts.length :=
  match ts with
  | [] => .error (.unmatchedParen opening.spot)
  | t :: rest =>
    match t.lexeme with
    | .closing => .ok ⟨([], rest), Nat.lt_succ_self _⟩
    | .comma =>
      match parseSum stop depth rest with
      | .error e => .error e
      | .ok ⟨(next, rest'), h⟩ =>
        match parseArgumentsFrom stop depth opening rest' with
        | .error e => .error e
        | .ok ⟨(more, rest''), h'⟩ =>
          .ok ⟨(next :: more, rest''), Nat.lt_succ_of_lt (Nat.lt_trans h' h)⟩
    | _ => .error t.refused
termination_by 8 * ts.length
decreasing_by
  · simp only [List.length_cons]
    omega
  · simp only [List.length_cons] at *
    omega

end

/-- The expression that a token list is, from its first token to its last. -/
def parse (ts : List Token) : Except Error Expr :=
  match parseSum (Token.endOf ts) 0 ts with
  | .error e => .error e
  | .ok ⟨(e, []), _⟩ => .ok e
  | .ok ⟨(_, t :: _), _⟩ => .error t.refused

/-- The expression that a text is. -/
def parseText (text : String) : Except Error Expr := do
  let ts ← Token.scan text
  parse ts

end Expr

end Reckon
