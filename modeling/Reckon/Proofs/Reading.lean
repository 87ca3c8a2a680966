/-
  The readers of expressions on plain lists.

  A reader also proves that it leaves fewer tokens than it was given.  Statements
  about what it reads need no such proof: `Phrase.read` forgets it, and the
  equations below say how the readers of the phrases call one another.

  * `Phrase.read`, `Chain.readFrom`, `readArguments`, `readArgumentsFrom`: the readers
    without proofs;
  * `read_length`: the tokens left over are fewer.
-/
import Reckon.Proofs.Grammar

namespace Reckon.Expr

/-- What a reader yields, without the proof that the rest is shorter. -/
def Parsed.plain {α : Type} {n : Nat} (r : Parsed α n) : Except Error (α × List Token) :=
  r.map Subtype.val

/-- Reads a phrase from the start of a token list. -/
def Phrase.read (stop : Int) (d : Nat) (ts : List Token) : Phrase → Except Error (Expr × List Token)
  | .sum => Parsed.plain (parseSum stop d ts)
  | .product => Parsed.plain (parseProduct stop d ts)
  | .power => Parsed.plain (parsePower stop d ts)
  | .negation => Parsed.plain (parseNegation stop d ts)
  | .primary => Parsed.plain (parsePrimary stop d ts)

/-- The kinds of phrases that are chains of operands, to the left. -/
inductive Chain where
  | sum
  | product

/-- A chain as a phrase. -/
def Chain.phrase : Chain → Phrase
  | .sum => .sum
  | .product => .product

/-- The operands of a chain. -/
def Chain.operand : Chain → Phrase
  | .sum => .product
  | .product => .power

/-- The sign between two operands of a chain. -/
def Chain.sign? : Chain → Token → Option String
  | .sum => Token.additive?
  | .product => Token.multiplicative?

/-- Reads the rest of a chain. -/
def Chain.readFrom (stop : Int) (d : Nat) (l : Expr) (ts : List Token) :
    Chain → Except Error (Expr × List Token)
  | .sum => Parsed.plain (parseSumFrom stop d (ts.length + 1) l ts (Nat.lt_succ_self _))
  | .product => Parsed.plain (parseProductFrom stop d (ts.length + 1) l ts (Nat.lt_succ_self _))

/-- Reads the arguments of a call after its parenthesis, and the closing one. -/
def readArguments (stop : Int) (d : Nat) (o : Token) (ts : List Token) :
    Except Error (List Expr × List Token) :=
  Parsed.plain (parseArguments stop d o ts)

/-- Reads the rest of the arguments of a call, and the closing parenthesis. -/
def readArgumentsFrom (stop : Int) (d : Nat) (o : Token) (ts : List Token) :
    Except Error (List Expr × List Token) :=
  Parsed.plain (parseArgumentsFrom stop d o ts)

/-! ## Steps -/

section
variable {ε ε' α β : Type} {r : Except ε α} {a : α} {b : β} {x : ε}

theorem bind_eq_ok {f : α → Except ε β} :
    r.bind f = .ok b ↔ ∃ a, r = .ok a ∧ f a = .ok b := by
  cases r <;> simp [Except.bind]

theorem map_eq_ok {f : α → β} :
    r.map f = .ok b ↔ ∃ a, r = .ok a ∧ f a = b := by
  cases r <;> simp [Except.map]

theorem bind_eq_error {f : α → Except ε β} :
    r.bind f = .error x ↔ r = .error x ∨ ∃ a, r = .ok a ∧ f a = .error x := by
  cases r <;> simp [Except.bind]

theorem map_eq_error {f : α → β} :
    r.map f = .error x ↔ r = .error x := by
  cases r <;> simp [Except.map]

theorem mapError_eq_ok {g : ε → ε'} : r.mapError g = .ok a ↔ r = .ok a := by
  cases r with
  | error x => constructor <;> rintro ⟨⟩
  | ok a => constructor <;> rintro ⟨⟩ <;> rfl

theorem mapError_eq_error {g : ε → ε'} {y : ε'} :
    r.mapError g = .error y ↔ ∃ x, r = .error x ∧ y = g x := by
  cases r with
  | error x =>
    constructor
    · rintro ⟨⟩
      exact ⟨x, rfl, rfl⟩
    · rintro ⟨_, ⟨⟩, rfl⟩
      rfl
  | ok a =>
    constructor
    · rintro ⟨⟩
    · rintro ⟨_, ⟨⟩, -⟩

end

/-! ## Loops -/

/-- The bound on the rest of a sum does not matter. -/
theorem parseSumFrom_plain {stop : Int} {d n m : Nat} : ∀ {l : Expr} {ts : List Token}
    (h : ts.length < n) (h' : ts.length < m),
    Parsed.plain (parseSumFrom stop d n l ts h) = Parsed.plain (parseSumFrom stop d m l ts h')
  | _, [], _, _ => by rw [parseSumFrom, parseSumFrom]; rfl
  | l, t :: ts, h, h' => by
    rw [parseSumFrom, parseSumFrom]
    cases t.additive? with
    | none => rfl
    | some g =>
      rcases parseProduct stop d ts with e | ⟨⟨r, rest⟩, hr⟩
      · rfl
      · have : rest.length < ts.length + 1 := Nat.lt_succ_of_lt hr
        exact parseSumFrom_plain _ _
termination_by _ ts => ts.length

/-- The bound on the rest of a product does not matter. -/
theorem parseProductFrom_plain {stop : Int} {d n m : Nat} : ∀ {l : Expr} {ts : List Token}
    (h : ts.length < n) (h' : ts.length < m),
    Parsed.plain (parseProductFrom stop d n l ts h) =
      Parsed.plain (parseProductFrom stop d m l ts h')
  | _, [], _, _ => by rw [parseProductFrom, parseProductFrom]; rfl
  | l, t :: ts, h, h' => by
    rw [parseProductFrom, parseProductFrom]
    cases t.multiplicative? with
    | none => rfl
    | some g =>
      rcases parsePower stop d ts with e | ⟨⟨r, rest⟩, hr⟩
      · rfl
      · have : rest.length < ts.length + 1 := Nat.lt_succ_of_lt hr
        exact parseProductFrom_plain _ _
termination_by _ ts => ts.length

section
variable {stop : Int} {d : Nat} {ts rest : List Token} {t o : Token} {l e : Expr} {es : List Expr}
  {x : String}

theorem read_chain (k : Chain) : k.phrase.read stop d ts =
    (k.operand.read stop d ts).bind fun r => k.readFrom stop d r.1 r.2 := by
  cases k with
  | sum =>
    unfold Chain.phrase Chain.operand Phrase.read Chain.readFrom
    dsimp only
    rw [parseSum]
    rcases parseProduct stop d ts with e | ⟨⟨l, rest⟩, h⟩
    · rfl
    · exact parseSumFrom_plain _ _
  | product =>
    unfold Chain.phrase Chain.operand Phrase.read Chain.readFrom
    dsimp only
    rw [parseProduct]
    rcases parsePower stop d ts with e | ⟨⟨l, rest⟩, h⟩
    · rfl
    · exact parseProductFrom_plain _ _

@[simp]
theorem readFrom_nil (k : Chain) : k.readFrom stop d l [] = .ok (l, []) := by
  cases k with
  | sum =>
    rw [Chain.readFrom, parseSumFrom]
    rfl
  | product =>
    rw [Chain.readFrom, parseProductFrom]
    rfl

theorem readFrom_cons (k : Chain) : k.readFrom stop d l (t :: ts) =
    match k.sign? t with
    | none => .ok (l, t :: ts)
    | some g => (k.operand.read stop d ts).bind fun r =>
      k.readFrom stop d (.binary g l r.1 t.spot) r.2 := by
  cases k with
  | sum =>
    rw [Chain.readFrom, parseSumFrom, Chain.sign?]
    cases t.additive? with
    | none => rfl
    | some g =>
      unfold Chain.operand Phrase.read Chain.readFrom
      dsimp only
      rcases parseProduct stop d ts with e | ⟨⟨r, rest⟩, h⟩
      · rfl
      · exact parseSumFrom_plain _ _
  | product =>
    rw [Chain.readFrom, parseProductFrom, Chain.sign?]
    cases t.multiplicative? with
    | none => rfl
    | some g =>
      unfold Chain.operand Phrase.read Chain.readFrom
      dsimp only
      rcases parsePower stop d ts with e | ⟨⟨r, rest⟩, h⟩
      · rfl
      · exact parseProductFrom_plain _ _

/-! ## Operands -/

/-- Reads the exponent of a power, if it has one. -/
def readExponent (stop : Int) (d : Nat) (b : Expr) : List Token → Except Error (Expr × List Token)
  | [] => .ok (b, [])
  | t :: ts =>
    match t.power? with
    | none => .ok (b, t :: ts)
    | some g =>
      if maxDepth ≤ d then .error t.refused
      else (Phrase.read stop (d + 1) ts .power).map fun r => (.binary g b r.1 t.spot, r.2)

theorem read_power : Phrase.read stop d ts .power =
    (Phrase.read stop d ts .negation).bind fun r => readExponent stop d r.1 r.2 := by
  unfold Phrase.read
  rw [parsePower]
  rcases parseNegation stop d ts with e | ⟨⟨b, _ | ⟨t, rest⟩⟩, h⟩
  · rfl
  · rfl
  · simp only [Parsed.plain, Except.map, Except.bind, readExponent, Phrase.read]
    cases t.power? with
    | none => rfl
    | some g =>
      by_cases hd : maxDepth ≤ d
      · simp [hd]
      · simp only [hd, if_false]
        rcases parsePower stop (d + 1) rest with e | ⟨⟨x, rest'⟩, h'⟩ <;> rfl

@[simp]
theorem read_negation_nil : Phrase.read stop d [] .negation = .error (.unexpectedEnd stop) := by
  rw [Phrase.read, parseNegation]
  rfl

theorem read_negation_cons : Phrase.read stop d (t :: ts) .negation =
    match t.negation? with
    | none => Phrase.read stop d (t :: ts) .primary
    | some g =>
      if maxDepth ≤ d then .error t.refused
      else (Phrase.read stop (d + 1) ts .negation).map fun r => (.unary g r.1 t.spot, r.2) := by
  unfold Phrase.read
  rw [parseNegation]
  cases t.negation? with
  | none => rfl
  | some g =>
    by_cases hd : maxDepth ≤ d
    · simp only [hd, if_true]
      rfl
    · simp only [hd, if_false]
      rcases parseNegation stop (d + 1) ts with e | ⟨⟨x, rest⟩, h⟩ <;> rfl

/-- A chain without a first operand. -/
theorem read_chain_error {err : Error} (k : Chain) (h : k.operand.read stop d ts = .error err) :
    k.phrase.read stop d ts = .error err := by
  rw [read_chain, h]
  rfl

@[simp]
theorem read_sum_nil : Phrase.read stop d [] .sum = .error (.unexpectedEnd stop) := by
  have hp : Phrase.read stop d [] .power = .error (.unexpectedEnd stop) := by
    rw [read_power, read_negation_nil]
    rfl
  exact read_chain_error .sum (read_chain_error .product hp)

/-! ## Primaries -/

/-- Reads the parenthesis that closes an opening one. -/
def readClose (o : Token) : List Token → Except Error (List Token)
  | [] => .error (.unmatchedParen o.spot)
  | t :: ts => if t.lexeme = .closing then .ok ts else .error t.refused

@[simp]
theorem read_primary_nil : Phrase.read stop d [] .primary = .error (.unexpectedEnd stop) := by
  rw [Phrase.read, parsePrimary]
  rfl

theorem read_primary_cons : Phrase.read stop d (t :: ts) .primary =
    match t.lexeme with
    | .number n => .ok (.literal n t.spot, ts)
    | .name x =>
      match ts with
      | [] => .ok (.var x t.spot, [])
      | o :: us =>
        if o.lexeme = .opening then
          (readArguments stop d o us).map fun r => (.call x r.1 t.spot, r.2)
        else .ok (.var x t.spot, o :: us)
    | .opening =>
      if maxDepth ≤ d then .error t.refused
      else (Phrase.read stop (d + 1) ts .sum).bind fun r =>
        (readClose t r.2).map fun us => (r.1, us)
    | .operator _ | .closing | .comma | .other _ => .error t.refused := by
  unfold Phrase.read readArguments
  rw [parsePrimary]
  cases t.lexeme with
  | number | operator | closing | comma | other => rfl
  | name x =>
    rcases ts with _ | ⟨o, us⟩
    · rfl
    · by_cases ho : o.lexeme = .opening
      · simp only [ho, if_true]
        rcases parseArguments stop d o us with e | ⟨⟨es, rest⟩, h⟩ <;> rfl
      · simp only [ho, if_false]
        rfl
  | opening =>
    by_cases hd : maxDepth ≤ d
    · simp only [hd, if_true]
      rfl
    · simp only [hd, if_false]
      rcases parseSum stop (d + 1) ts with e | ⟨⟨e, _ | ⟨c, rest⟩⟩, h⟩
      · rfl
      · rfl
      · simp only [Token.close]
        by_cases hc : c.lexeme = .closing
        · simp [hc, Parsed.plain, Except.map, Except.bind, readClose]
        · simp [hc, Parsed.plain, Except.map, Except.bind, readClose]

@[simp]
theorem readArguments_nil : readArguments stop d o [] =
    .error (if maxDepth ≤ d then o.refused else .unexpectedEnd stop) := by
  rw [readArguments, parseArguments]
  rfl

theorem readArguments_cons : readArguments stop d o (t :: ts) =
    if t.lexeme = .closing then .ok ([], ts)
    else if maxDepth ≤ d then .error o.refused
    else (Phrase.read stop (d + 1) (t :: ts) .sum).bind fun r =>
      (readArgumentsFrom stop (d + 1) o r.2).map fun r' => (r.1 :: r'.1, r'.2) := by
  rw [readArguments, parseArguments]
  by_cases ht : t.lexeme = .closing
  · simp only [ht, if_true]
    rfl
  by_cases hd : maxDepth ≤ d
  · simp only [ht, hd, if_false, if_true]
    rfl
  simp only [ht, hd, if_false, Phrase.read, readArgumentsFrom]
  rcases parseSum stop (d + 1) (t :: ts) with e | ⟨⟨e, rest⟩, h⟩
  · rfl
  · simp only [Parsed.plain, Except.map, Except.bind]
    rcases parseArgumentsFrom stop (d + 1) o rest with e | ⟨⟨es, rest⟩, h⟩ <;> rfl

@[simp]
theorem readArgumentsFrom_nil :
    readArgumentsFrom stop d o [] = .error (.unmatchedParen o.spot) := by
  rw [readArgumentsFrom, parseArgumentsFrom]
  rfl

theorem readArgumentsFrom_cons : readArgumentsFrom stop d o (t :: ts) =
    if t.lexeme = .closing then .ok ([], ts)
    else if t.lexeme = .comma then
      (Phrase.read stop d ts .sum).bind fun r =>
        (readArgumentsFrom stop d o r.2).map fun r' => (r.1 :: r'.1, r'.2)
    else .error t.refused := by
  unfold Phrase.read readArgumentsFrom
  rw [parseArgumentsFrom]
  cases t.lexeme with
  | closing => rfl
  | comma =>
    simp only [reduceCtorEq, if_false, if_true]
    rcases parseSum stop d ts with e | ⟨⟨e, rest⟩, h⟩
    · rfl
    · simp only [Parsed.plain, Except.map, Except.bind]
      rcases parseArgumentsFrom stop d o rest with e | ⟨⟨es, rest⟩, h⟩ <;> rfl
  | _ => rfl

/-- The tree of a token list, by the reader of sums. -/
theorem parse_eq : parse ts =
    (Phrase.read (Token.endOf ts) 0 ts .sum).bind fun r =>
      match r.2 with
      | [] => .ok r.1
      | t :: _ => .error t.refused := by
  unfold parse Phrase.read
  rcases parseSum (Token.endOf ts) 0 ts with e | ⟨⟨e, _ | ⟨t, rest⟩⟩, h⟩ <;> rfl

/-! ## Progress -/

theorem Parsed.length_of_plain {α : Type} {n : Nat} {r : Parsed α n} {a : α}
    (h : Parsed.plain r = .ok (a, rest)) : rest.length < n := by
  rcases r with e | ⟨⟨a', rest'⟩, hr⟩
  · cases h
  · cases h
    exact hr

/-- A phrase takes at least one token. -/
theorem read_length {p : Phrase} (h : p.read stop d ts = .ok (e, rest)) :
    rest.length < ts.length := by
  cases p <;> exact Parsed.length_of_plain h

end

end Reckon.Expr
