/-
  Tokens written otherwise, at other spots.

  A parser looks at what its tokens stand for.  It copies their spots into the tree, and
  their texts and spots into its errors, and never looks at either.  So what it makes of
  tokens that are written otherwise or stand elsewhere is what it made of the tokens before,
  with the copies changed alike.

  * `Relabelling`: a change of texts and spots, and what it does to tokens, trees and errors;
  * `read_relabel`: every reader commutes with it;
  * `parse_relabel`: and so does the parser, if the end of the tokens moves with their spots;
  * `parse_sameLexemes`: tokens that stand for the same are parsed alike, texts and spots aside.
-/
import Reckon.Proofs.Spots

namespace Reckon

/-- A change of the texts and of the spots of tokens. -/
structure Relabelling where
  word : String → String
  spot : Int → Int

namespace Relabelling

variable (ρ : Relabelling)

/-- A token with its text and its spot changed. -/
def token (t : Token) : Token := ⟨ρ.word t.text, ρ.spot t.spot, t.lexeme⟩

/-- An error about tokens with their texts and spots changed. -/
def error : Error → Error
  | .unexpectedToken w p => .unexpectedToken (ρ.word w) (ρ.spot p)
  | .unmatchedParen p => .unmatchedParen (ρ.spot p)
  | .unexpectedEnd p => .unexpectedEnd (ρ.spot p)
  | e => e

mutual

/-- A tree with its spots changed. -/
def tree : Expr → Expr
  | .literal n p => .literal n (ρ.spot p)
  | .var x p => .var x (ρ.spot p)
  | .unary op e p => .unary op (tree e) (ρ.spot p)
  | .binary op l r p => .binary op (tree l) (tree r) (ρ.spot p)
  | .call f args p => .call f (trees args) (ρ.spot p)

/-- Trees with their spots changed. -/
def trees : List Expr → List Expr
  | [] => []
  | e :: es => tree e :: trees es

end

/-- What a reader yields, with what it makes of the tokens, the tokens left and errors changed. -/
def result {α : Type} (f : α → α) (r : Except Error (α × List Token)) :
    Except Error (α × List Token) :=
  (r.mapError ρ.error).map fun x => (f x.1, x.2.map ρ.token)

variable {α β : Type} {f : α → α} {g : β → β}

@[simp]
theorem lexeme_token (t : Token) : (ρ.token t).lexeme = t.lexeme := rfl

@[simp]
theorem spot_token (t : Token) : (ρ.token t).spot = ρ.spot t.spot := rfl

@[simp]
theorem refused_token (t : Token) : (ρ.token t).refused = ρ.error t.refused := rfl

@[simp]
theorem sign?_token (k : Expr.Chain) (t : Token) : k.sign? (ρ.token t) = k.sign? t := by
  cases k <;> rfl

@[simp]
theorem power?_token (t : Token) : (ρ.token t).power? = t.power? := rfl

@[simp]
theorem negation?_token (t : Token) : (ρ.token t).negation? = t.negation? := rfl

@[simp]
theorem result_ok (a : α) (ts : List Token) :
    ρ.result f (.ok (a, ts)) = .ok (f a, ts.map ρ.token) := rfl

@[simp]
theorem result_error (e : Error) : ρ.result f (.error e) = .error (ρ.error e) := rfl

variable {ρ}

/-- One reader after another, on the tokens that the first leaves. -/
theorem result_bind {r : Except Error (α × List Token)}
    {k k' : α × List Token → Except Error (β × List Token)}
    (hk : ∀ a ts, r = .ok (a, ts) → k' (f a, ts.map ρ.token) = ρ.result g (k (a, ts))) :
    (ρ.result f r).bind k' = ρ.result g (r.bind k) := by
  rcases r with e | ⟨a, ts⟩
  · rfl
  · exact hk a ts rfl

/-- A step that makes something else of what was read. -/
theorem result_map {r : Except Error (α × List Token)} {k k' : α × List Token → β × List Token}
    (hk : ∀ a ts, k' (f a, ts.map ρ.token) = (g (k (a, ts)).1, (k (a, ts)).2.map ρ.token)) :
    (ρ.result f r).map k' = ρ.result g (r.map k) := by
  rcases r with e | ⟨a, ts⟩
  · rfl
  · exact congrArg Except.ok (hk a ts)

end Relabelling

namespace Expr

variable {ρ : Relabelling} {stop : Int} {d : Nat}

open Relabelling (result_bind result_map)

/-! ## Readers -/

theorem readClose_relabel (o : Token) (e : Expr) : ∀ ts,
    ((readClose (ρ.token o) (ts.map ρ.token)).map fun us => (ρ.tree e, us)) =
      ρ.result ρ.tree ((readClose o ts).map fun us => (e, us))
  | [] => rfl
  | t :: ts => by
    rw [List.map_cons, readClose, readClose, Relabelling.lexeme_token]
    split <;> rfl

/-- The rank of the operands of a chain among phrases that begin with the same token. -/
def Chain.rank : Chain → Nat
  | .sum => 5
  | .product => 3

mutual

theorem read_chain_relabel (k : Chain) (d : Nat) (ts : List Token) :
    k.phrase.read (ρ.spot stop) d (ts.map ρ.token) = ρ.result ρ.tree (k.phrase.read stop d ts) := by
  rw [read_chain, read_chain, read_operand_relabel k d ts]
  refine result_bind fun l us hl => ?_
  have := read_length hl
  exact readFrom_relabel k d l us
termination_by 8 * ts.length + k.rank + 1

theorem read_operand_relabel (k : Chain) (d : Nat) (ts : List Token) :
    k.operand.read (ρ.spot stop) d (ts.map ρ.token) =
      ρ.result ρ.tree (k.operand.read stop d ts) := by
  cases k with
  | sum => exact read_chain_relabel .product d ts
  | product => exact read_power_relabel d ts
termination_by 8 * ts.length + k.rank
decreasing_by all_goals simp only [Chain.rank]; omega

theorem readFrom_relabel (k : Chain) (d : Nat) (l : Expr) : ∀ ts,
    k.readFrom (ρ.spot stop) d (ρ.tree l) (ts.map ρ.token) =
      ρ.result ρ.tree (k.readFrom stop d l ts)
  | [] => by simp
  | t :: ts => by
    rw [List.map_cons, readFrom_cons, readFrom_cons, Relabelling.sign?_token]
    cases k.sign? t with
    | none => rfl
    | some g =>
      simp only [read_operand_relabel k d ts]
      refine result_bind fun r us hr => ?_
      have := read_length hr
      exact readFrom_relabel k d (.binary g l r t.spot) us
termination_by ts => 8 * ts.length
decreasing_by all_goals cases k <;> simp only [List.length_cons, Chain.rank] <;> omega

theorem read_power_relabel (d : Nat) (ts : List Token) :
    Phrase.read (ρ.spot stop) d (ts.map ρ.token) .power =
      ρ.result ρ.tree (Phrase.read stop d ts .power) := by
  rw [read_power, read_power, read_negation_relabel d ts]
  refine result_bind fun b us hb => ?_
  have := read_length hb
  exact readExponent_relabel d b us
termination_by 8 * ts.length + 2

theorem readExponent_relabel (d : Nat) (b : Expr) : ∀ ts,
    readExponent (ρ.spot stop) d (ρ.tree b) (ts.map ρ.token) =
      ρ.result ρ.tree (readExponent stop d b ts)
  | [] => rfl
  | t :: ts => by
    rw [List.map_cons, readExponent, readExponent, Relabelling.power?_token]
    cases t.power? with
    | none => rfl
    | some g =>
      by_cases hd : maxDepth ≤ d
      · simp [hd]
      · simp only [hd, if_false, read_power_relabel (d + 1) ts]
        exact result_map fun r us => rfl
termination_by ts => 8 * ts.length

theorem read_negation_relabel (d : Nat) : ∀ ts,
    Phrase.read (ρ.spot stop) d (ts.map ρ.token) .negation =
      ρ.result ρ.tree (Phrase.read stop d ts .negation)
  | [] => by simp [Relabelling.error]
  | t :: ts => by
    have hp := read_primary_relabel d (t :: ts)
    rw [List.map_cons] at hp ⊢
    rw [read_negation_cons, read_negation_cons, Relabelling.negation?_token]
    cases t.negation? with
    | none => exact hp
    | some g =>
      by_cases hd : maxDepth ≤ d
      · simp [hd]
      · simp only [hd, if_false, read_negation_relabel (d + 1) ts]
        exact result_map fun r us => rfl
termination_by ts => 8 * ts.length + 1

theorem read_primary_relabel (d : Nat) : ∀ ts,
    Phrase.read (ρ.spot stop) d (ts.map ρ.token) .primary =
      ρ.result ρ.tree (Phrase.read stop d ts .primary)
  | [] => by simp [Relabelling.error]
  | t :: ts => by
    rw [List.map_cons, read_primary_cons, read_primary_cons, Relabelling.lexeme_token]
    cases t.lexeme with
    | number | operator | closing | comma | other => rfl
    | name x =>
      rcases ts with _ | ⟨o, us⟩
      · rfl
      · by_cases ho : o.lexeme = .opening
        · simp only [List.map_cons, Relabelling.lexeme_token, ho, if_true,
            readArguments_relabel d o us]
          exact result_map fun es us => rfl
        · simp only [List.map_cons, Relabelling.lexeme_token, ho, if_false]
          rfl
    | opening =>
      by_cases hd : maxDepth ≤ d
      · simp [hd]
      · have hs : Phrase.read (ρ.spot stop) (d + 1) (ts.map ρ.token) .sum =
            ρ.result ρ.tree (Phrase.read stop (d + 1) ts .sum) := read_chain_relabel .sum (d + 1) ts
        simp only [hd, if_false, hs]
        exact result_bind fun e us _ => readClose_relabel t e us
termination_by ts => 8 * ts.length
decreasing_by all_goals simp only [List.length_cons, Chain.rank]; omega

theorem readArguments_relabel (d : Nat) (o : Token) : ∀ ts,
    readArguments (ρ.spot stop) d (ρ.token o) (ts.map ρ.token) =
      ρ.result ρ.trees (readArguments stop d o ts)
  | [] => by
    by_cases hd : maxDepth ≤ d <;> simp [hd, Relabelling.error]
  | t :: ts => by
    have hs : Phrase.read (ρ.spot stop) (d + 1) ((t :: ts).map ρ.token) .sum =
        ρ.result ρ.tree (Phrase.read stop (d + 1) (t :: ts) .sum) :=
      read_chain_relabel .sum (d + 1) (t :: ts)
    rw [List.map_cons] at hs ⊢
    rw [readArguments_cons, readArguments_cons, Relabelling.lexeme_token]
    by_cases ht : t.lexeme = .closing
    · simp only [ht, if_true]
      rfl
    by_cases hd : maxDepth ≤ d
    · simp [ht, hd]
    simp only [ht, hd, if_false, hs]
    refine result_bind fun e us he => ?_
    have := read_length he
    rw [readArgumentsFrom_relabel (d + 1) o us]
    exact result_map fun es us => rfl
termination_by ts => 8 * ts.length + 7
decreasing_by all_goals simp only [List.length_cons, Chain.rank] at *; omega

theorem readArgumentsFrom_relabel (d : Nat) (o : Token) : ∀ ts,
    readArgumentsFrom (ρ.spot stop) d (ρ.token o) (ts.map ρ.token) =
      ρ.result ρ.trees (readArgumentsFrom stop d o ts)
  | [] => by simp [Relabelling.error]
  | t :: ts => by
    have hs : Phrase.read (ρ.spot stop) d (ts.map ρ.token) .sum =
        ρ.result ρ.tree (Phrase.read stop d ts .sum) := read_chain_relabel .sum d ts
    rw [List.map_cons, readArgumentsFrom_cons, readArgumentsFrom_cons, Relabelling.lexeme_token]
    by_cases ht : t.lexeme = .closing
    · simp only [ht, if_true]
      rfl
    by_cases hc : t.lexeme = .comma
    · rw [if_neg ht, if_neg ht, if_pos hc, if_pos hc, hs]
      refine result_bind fun e us he => ?_
      have := read_length he
      rw [readArgumentsFrom_relabel d o us]
      exact result_map fun es us => rfl
    · simp [ht, hc]
termination_by ts => 8 * ts.length
decreasing_by all_goals simp only [List.length_cons, Chain.rank] at *; omega

end

/-! ## Whole token lists -/

/-- **The parser commutes with changes of texts and spots**, if the end of the tokens moves as
    their spots do. -/
theorem parse_relabel {ts : List Token}
    (hend : Token.endOf (ts.map ρ.token) = ρ.spot (Token.endOf ts)) :
    parse (ts.map ρ.token) = ((parse ts).mapError ρ.error).map ρ.tree := by
  have hs : Phrase.read (ρ.spot (Token.endOf ts)) 0 (ts.map ρ.token) .sum =
      ρ.result ρ.tree (Phrase.read (Token.endOf ts) 0 ts .sum) := read_chain_relabel .sum 0 ts
  rw [parse_eq, parse_eq, hend, hs]
  rcases Phrase.read (Token.endOf ts) 0 ts .sum with e | ⟨e, _ | ⟨t, rest⟩⟩ <;> rfl

end Expr

/-! ## Tokens without texts and spots -/

theorem endOf_map (f : Token → Token) (ts : List Token) : Token.endOf (ts.map f) =
    match ts.getLast? with
    | none => 0
    | some t => (f t).stop := by
  unfold Token.endOf
  rw [List.getLast?_map]
  cases ts.getLast? <;> rfl

/-- The change that leaves neither texts nor spots of tokens. -/
def blinding : Relabelling := ⟨fun _ => "", fun _ => 0⟩

mutual

theorem tree_blinding : ∀ e : Expr, blinding.tree e = e.unspotted
  | .literal n p => by
    rw [Relabelling.tree, Expr.unspotted]
    rfl
  | .var x p => by
    rw [Relabelling.tree, Expr.unspotted]
    rfl
  | .unary op e p => by
    rw [Relabelling.tree, Expr.unspotted, tree_blinding e]
    rfl
  | .binary op l r p => by
    rw [Relabelling.tree, Expr.unspotted, tree_blinding l, tree_blinding r]
    rfl
  | .call f args p => by
    rw [Relabelling.tree, Expr.unspotted, trees_blinding args]
    rfl

theorem trees_blinding : ∀ es : List Expr, blinding.trees es = Expr.unspottedAll es
  | [] => rfl
  | e :: es => by rw [Relabelling.trees, Expr.unspottedAll, tree_blinding e, trees_blinding es]

end

namespace Expr

variable {ts us : List Token} {e : Expr}

/-- **Tokens with the same lexemes are parsed alike**, as the same tree or with the same error,
    apart from texts and spots. -/
theorem parse_sameLexemes (h : SameLexemes us ts) :
    ((parse us).mapError blinding.error).map unspotted =
      ((parse ts).mapError blinding.error).map unspotted := by
  have hblind : ∀ vs, ((parse vs).mapError blinding.error).map unspotted =
      parse (vs.map blinding.token) := by
    intro vs
    have hend : Token.endOf (vs.map blinding.token) = blinding.spot (Token.endOf vs) := by
      rw [endOf_map]
      cases vs.getLast? <;> rfl
    rw [parse_relabel hend, funext tree_blinding]
  have hmap : ∀ vs : List Token,
      vs.map blinding.token = (vs.map Token.lexeme).map fun l => ⟨"", 0, l⟩ := by
    intro vs
    rw [List.map_map]
    rfl
  rw [hblind, hblind, hmap, hmap, h]

/-- Tokens with the lexemes of an accepted expression are accepted as the same tree, spots aside. -/
theorem parse_relay (h : parse ts = .ok e) (hu : SameLexemes us ts) :
    ∃ e', parse us = .ok e' ∧ e'.unspotted = e.unspotted := by
  have hs := parse_sameLexemes hu
  rw [h] at hs
  obtain ⟨e', he', hs⟩ := map_eq_ok.1 hs
  exact ⟨e', mapError_eq_ok.1 he', hs⟩

end Expr

end Reckon
