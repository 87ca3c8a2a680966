/-
  Reading step by step.

  The readers of phrases call one another.  Here they are procedures of a machine that goes through
  a token list with a cursor and counts the nesting level up and down.  The calls that are active
  stand on a stack, with what each has in hand and where the cursor was when it began and when its
  loop went round.

  * `Procedure`, `Call`, `Config`, `step`: the machine;
  * `Reads`: what the reader of a procedure yields;
  * `Ends`: a configuration that the machine comes to an end from, and with which result;
  * `ends_of_reads`: the machine ends with what the reader yields.
-/
import Mathlib.Logic.Relation
import Reckon.Proofs.Reading

namespace Reckon.Reader

open Reckon.Expr (Phrase Chain readArguments readArgumentsFrom)

/-! ## Configurations -/

/-- What is read by a procedure of its own. -/
inductive Procedure where
  | phrase (p : Phrase)
  /-- The arguments of a call, with both parentheses. -/
  | arguments
  deriving DecidableEq

/-- What an active call waits for, and what it has in hand. -/
inductive Wait where
  /-- An operand of a chain, after the operands before it and a sign. -/
  | chain (k : Chain) (before : Option (Expr × String × Int))
  /-- The base of a power. -/
  | base
  | exponent (base : Expr) (op : String) (spot : Int)
  /-- The operand of a negation. -/
  | operand (op : String) (spot : Int)
  /-- A primary that is no negation. -/
  | primary
  /-- A sum in parentheses. -/
  | inner (opening : Token)
  /-- The arguments of a function. -/
  | arguments (name : String) (spot : Int)
  /-- An argument, after those before it. -/
  | argument (opening : Token) (before : List Expr)

/-- The procedure that waits. -/
def Wait.procedure : Wait → Procedure
  | chain k _ => .phrase k.phrase
  | base | exponent .. => .phrase .power
  | operand .. | primary => .phrase .negation
  | inner _ | arguments .. => .phrase .primary
  | argument .. => .arguments

/-- Whether what is waited for stands one nesting level deeper. -/
def Wait.nests : Wait → Bool
  | exponent .. | operand .. | inner _ | argument .. => true
  | chain .. | base | primary | arguments .. => false

/-- A call that has begun and waits for another. -/
structure Call where
  wait : Wait
  /-- The cursor when the call began and at each round of its loop since, the latest first. -/
  marks : List Nat

/-- What the machine is about. -/
inductive Focus where
  | enter (q : Procedure)
  /-- A call returns a tree. -/
  | tree (e : Expr)
  /-- A call returns arguments. -/
  | trees (es : List Expr)
  | error (x : Error)

/-- A state of the machine. -/
structure Config where
  cursor : Nat
  depth : Nat
  /-- The active calls, the innermost first. -/
  calls : List Call
  focus : Focus

/-! ## Steps -/

section
variable (ts : List Token)

/-- Whether the token at a cursor stands for a lexeme. -/
def isAt (i : Nat) (l : Lexeme) : Bool := ts[i]?.any (·.lexeme = l)

/-- The token at a cursor with the sign that it can be. -/
def signAt (sign? : Token → Option String) (i : Nat) : Option (Token × String) :=
  ts[i]?.bind fun t => (sign? t).map (t, ·)

/-- Enters a procedure one level deeper, on behalf of a call. -/
def descend (t : Token) (i d : Nat) (a : Call) (as : List Call) (q : Procedure) : Config :=
  if maxDepth < d + 1 then ⟨i, d + 1, as, .error t.refused⟩ else ⟨i, d + 1, a :: as, .enter q⟩

/-- Passes the closing parenthesis and returns one level up. -/
def ascend (o : Token) (i d : Nat) (as : List Call) (f : Focus) : Config :=
  match ts[i]? with
  | none => ⟨i, d, as, .error (.unmatchedParen o.spot)⟩
  | some t => if t.lexeme = .closing then ⟨i + 1, d - 1, as, f⟩ else ⟨i, d, as, .error t.refused⟩

/-- Begins a primary with its first token. -/
def beginPrimary (t : Token) (i d : Nat) (as : List Call) : Config :=
  match t.lexeme with
  | .number n => ⟨i + 1, d, as, .tree (.literal n t.spot)⟩
  | .name x =>
    if isAt ts (i + 1) .opening then ⟨i + 1, d, ⟨.arguments x t.spot, [i]⟩ :: as, .enter .arguments⟩
    else ⟨i + 1, d, as, .tree (.var x t.spot)⟩
  | .opening => descend t (i + 1) d ⟨.inner t, [i]⟩ as (.phrase .sum)
  | .operator _ | .closing | .comma | .other _ => ⟨i, d, as, .error t.refused⟩

/-- Begins a phrase. -/
def beginPhrase (i d : Nat) (as : List Call) : Phrase → Config
  | .sum => ⟨i, d, ⟨.chain .sum none, [i]⟩ :: as, .enter (.phrase .product)⟩
  | .product => ⟨i, d, ⟨.chain .product none, [i]⟩ :: as, .enter (.phrase .power)⟩
  | .power => ⟨i, d, ⟨.base, [i]⟩ :: as, .enter (.phrase .negation)⟩
  | .negation =>
    match signAt ts Token.negation? i with
    | none => ⟨i, d, ⟨.primary, [i]⟩ :: as, .enter (.phrase .primary)⟩
    | some (t, g) => descend t (i + 1) d ⟨.operand g t.spot, [i]⟩ as (.phrase .negation)
  | .primary =>
    match ts[i]? with
    | none => ⟨i, d, as, .error (.unexpectedEnd (Token.endOf ts))⟩
    | some t => beginPrimary ts t i d as

/-- Begins arguments with the token that opens them. -/
def beginArguments (o : Token) (i d : Nat) (as : List Call) : Config :=
  if isAt ts (i + 1) .closing then ⟨i + 2, d, as, .trees []⟩
  else descend o (i + 1) d ⟨.argument o [], [i]⟩ as (.phrase .sum)

/-- An operand of a chain with those before it. -/
def chained (e : Expr) : Option (Expr × String × Int) → Expr
  | none => e
  | some (l, g, p) => .binary g l e p

/-- Goes on with a call that has waited for a tree, if it has. -/
def resume (i d : Nat) (marks : List Nat) (as : List Call) (e : Expr) : Wait → Option Config
  | .chain k before =>
    match signAt ts k.sign? i with
    | none => some ⟨i, d, as, .tree (chained e before)⟩
    | some (t, g) =>
      let rest : Call := ⟨.chain k (some (chained e before, g, t.spot)), i :: marks⟩
      some ⟨i + 1, d, rest :: as, .enter (.phrase k.operand)⟩
  | .base =>
    match signAt ts Token.power? i with
    | none => some ⟨i, d, as, .tree e⟩
    | some (t, g) => some (descend t (i + 1) d ⟨.exponent e g t.spot, marks⟩ as (.phrase .power))
  | .exponent b g p => some ⟨i, d - 1, as, .tree (.binary g b e p)⟩
  | .operand g p => some ⟨i, d - 1, as, .tree (.unary g e p)⟩
  | .primary => some ⟨i, d, as, .tree e⟩
  | .inner o => some (ascend ts o i d as (.tree e))
  | .arguments _ _ => none
  | .argument o before =>
    if isAt ts i .comma then
      some ⟨i + 1, d, ⟨.argument o (before ++ [e]), i :: marks⟩ :: as, .enter (.phrase .sum)⟩
    else some (ascend ts o i d as (.trees (before ++ [e])))

/-- A step of the machine, if there is one. -/
def step : Config → Option Config
  | ⟨i, d, as, .enter (.phrase p)⟩ => some (beginPhrase ts i d as p)
  | ⟨i, d, as, .enter .arguments⟩ => ts[i]?.map fun o => beginArguments ts o i d as
  | ⟨i, d, ⟨w, marks⟩ :: as, .tree e⟩ => resume ts i d marks as e w
  | ⟨i, d, ⟨.arguments x p, _⟩ :: as, .trees es⟩ => some ⟨i, d, as, .tree (.call x es p)⟩
  | _ => none

/-- Any number of steps. -/
def Reaches : Config → Config → Prop := Relation.ReflTransGen fun c c' => step ts c = some c'

/-- The machine comes to an end: with what a reader reads, at the tokens that it leaves, or with its
    error. -/
def Ends {α : Type} (c : Config) (d : Nat) (as : List Call) (f : α → Focus)
    (r : Except Error (α × List Token)) : Prop :=
  match r with
  | .ok (a, rest) => ∃ j, j ≤ ts.length ∧ ts.drop j = rest ∧ Reaches ts c ⟨j, d, as, f a⟩
  | .error x => ∃ c', Reaches ts c c' ∧ c'.focus = .error x

end

section
variable {ts rest us : List Token} {c n : Config} {i j d d' : Nat} {as as' : List Call} {α β : Type}
  {f : α → Focus} {g : β → Focus} {r : Except Error (α × List Token)} {x : Error} {t o : Token}
  {l : Lexeme} {sign? : Token → Option String} {e : Expr} {a : α} {b : β}

/-! ## Tokens at a cursor -/

theorem drop_of_some (h : ts[i]? = some t) : ts.drop i = t :: ts.drop (i + 1) := by
  obtain ⟨hi, rfl⟩ := List.getElem?_eq_some_iff.1 h
  exact List.drop_eq_getElem_cons hi

theorem drop_of_none (h : ts[i]? = none) : ts.drop i = [] :=
  List.drop_eq_nil_of_le (List.getElem?_eq_none_iff.1 h)

theorem lt_of_some (h : ts[i]? = some t) : i < ts.length := (List.getElem?_eq_some_iff.1 h).1

/-! ## Ends -/

theorem Ends.step (hs : Reader.step ts c = some n) (h : Ends ts n d as f r) :
    Ends ts c d as f r := by
  unfold Ends at h ⊢
  rcases r with x | ⟨a, rest⟩
  · obtain ⟨c', hr, hx⟩ := h
    exact ⟨c', .head hs hr, hx⟩
  · obtain ⟨j, hj, hd, hr⟩ := h
    exact ⟨j, hj, hd, .head hs hr⟩

theorem ends_ok (hj : j ≤ ts.length) : Ends ts ⟨j, d, as, f a⟩ d as f (.ok (a, ts.drop j)) :=
  ⟨j, hj, rfl, .refl⟩

theorem ends_error (h : c.focus = .error x) : Ends ts c d as f (.error x) := ⟨c, .refl, h⟩

/-- The machine ends what it has begun, and goes on from there. -/
theorem Ends.bind {k : α × List Token → Except Error (β × List Token)} (h : Ends ts c d' as' f r)
    (hk : ∀ a j, j ≤ ts.length → r = .ok (a, ts.drop j) →
      Ends ts ⟨j, d', as', f a⟩ d as g (k (a, ts.drop j))) : Ends ts c d as g (r.bind k) := by
  rcases r with x | ⟨a, rest⟩
  · exact h
  · obtain ⟨j, hj, rfl, hr⟩ := h
    have hk := hk a j hj rfl
    unfold Ends at hk ⊢
    show match k (a, ts.drop j) with
      | .ok (b, rest) => _
      | .error x => _
    rcases hb : k (a, ts.drop j) with x | ⟨b, rest⟩
    · rw [hb] at hk
      obtain ⟨c', hc, hx⟩ := hk
      exact ⟨c', hr.trans hc, hx⟩
    · rw [hb] at hk
      obtain ⟨j', hj', hd, hc⟩ := hk
      exact ⟨j', hj', hd, hr.trans hc⟩

theorem Ends.map {k : α × List Token → β × List Token} (h : Ends ts c d' as' f r)
    (hk : ∀ a j, j ≤ ts.length → r = .ok (a, ts.drop j) →
      Ends ts ⟨j, d', as', f a⟩ d as g (.ok (k (a, ts.drop j)))) : Ends ts c d as g (r.map k) := by
  have hm : r.map k = r.bind fun a => .ok (k a) := by cases r <;> rfl
  rw [hm]
  exact h.bind hk

/-! ## Readers -/

/-- The machine ends a phrase that it enters with what the reader of the phrase yields. -/
def EndsPhrase (ts : List Token) (p : Phrase) (i : Nat) : Prop :=
  ∀ d as, Ends ts ⟨i, d, as, .enter (.phrase p)⟩ d as .tree
    (p.read (Token.endOf ts) d (ts.drop i))

/-- The machine ends every phrase after a cursor so. -/
def EndsLater (ts : List Token) (i : Nat) : Prop :=
  ∀ p j, i < j → j ≤ ts.length → EndsPhrase ts p j

/-- A phrase takes the cursor on. -/
theorem lt_of_read {p : Phrase} {stop : Int}
    (h : p.read stop d (ts.drop i) = .ok (e, ts.drop j)) (hj : j ≤ ts.length) : i < j := by
  have hl := Expr.read_length h
  rw [List.length_drop, List.length_drop] at hl
  omega

theorem signAt_of_none (h : ts[i]? = none) : signAt ts sign? i = none := by
  rw [signAt, h]
  rfl

theorem signAt_of_some (h : ts[i]? = some t) : signAt ts sign? i = (sign? t).map (t, ·) := by
  rw [signAt, h]
  rfl

/-- The loop of a chain. -/
theorem ends_readFrom {k : Chain} {j : Nat} {e : Expr} {before : Option (Expr × String × Int)}
    {marks : List Nat} (later : EndsLater ts i) (hi : i ≤ j) (hj : j ≤ ts.length) :
    Ends ts ⟨j, d, ⟨.chain k before, marks⟩ :: as, .tree e⟩ d as .tree
      (k.readFrom (Token.endOf ts) d (chained e before) (ts.drop j)) := by
  rcases ht : ts[j]? with _ | t
  · rw [drop_of_none ht, Expr.readFrom_nil, ← drop_of_none ht]
    refine .step (n := ⟨j, d, as, .tree (chained e before)⟩) ?_ (ends_ok hj)
    rw [step, resume, signAt_of_none ht]
  rw [drop_of_some ht, Expr.readFrom_cons]
  rcases hg : k.sign? t with _ | g
  · rw [← drop_of_some ht]
    refine .step (n := ⟨j, d, as, .tree (chained e before)⟩) ?_ (ends_ok hj)
    rw [step, resume, signAt_of_some ht, hg]
    rfl
  · have hlt := lt_of_some ht
    refine .step (n := ⟨j + 1, d, ⟨.chain k (some (chained e before, g, t.spot)), j :: marks⟩ :: as,
      .enter (.phrase k.operand)⟩) ?_ ?_
    · rw [step, resume, signAt_of_some ht, hg]
      rfl
    · refine (later k.operand (j + 1) (by omega) hlt d _).bind fun r j' hj' hr => ?_
      have := lt_of_read hr hj'
      exact ends_readFrom later (by omega) hj'
termination_by ts.length - j

theorem endsPhrase_chain (k : Chain) (h : EndsPhrase ts k.operand i) (later : EndsLater ts i) :
    EndsPhrase ts k.phrase i := by
  intro d as
  rw [Expr.read_chain]
  refine .step (n := ⟨i, d, ⟨.chain k none, [i]⟩ :: as, .enter (.phrase k.operand)⟩) ?_ ?_
  · cases k <;> rfl
  · refine (h d _).bind fun e j hj hr => ?_
    exact ends_readFrom later (Nat.le_of_lt (lt_of_read hr hj)) hj

/-- What stands one level deeper is refused, or entered and ended. -/
theorem ends_descend {q : Procedure} {a : Call} {k : Except Error (β × List Token)}
    (h : ¬ maxDepth ≤ d → Ends ts ⟨i, d + 1, a :: as, .enter q⟩ d as g k) :
    Ends ts (descend t i d a as q) d as g (if maxDepth ≤ d then .error t.refused else k) := by
  unfold descend
  by_cases hd : maxDepth ≤ d
  · rw [if_pos hd, if_pos (Nat.lt_succ_of_le hd)]
    exact ends_error rfl
  · rw [if_neg hd, if_neg (by omega)]
    exact h hd

theorem endsPhrase_power (h : EndsPhrase ts .negation i) (later : EndsLater ts i) :
    EndsPhrase ts .power i := by
  intro d as
  rw [Expr.read_power]
  refine .step (n := ⟨i, d, ⟨.base, [i]⟩ :: as, .enter (.phrase .negation)⟩) rfl ?_
  refine (h d _).bind fun b j hj hr => ?_
  have hij := lt_of_read hr hj
  rcases ht : ts[j]? with _ | t
  · rw [drop_of_none ht, Expr.readExponent, ← drop_of_none ht]
    refine .step (n := ⟨j, d, as, .tree b⟩) ?_ (ends_ok hj)
    rw [step, resume, signAt_of_none ht]
  rw [drop_of_some ht, Expr.readExponent]
  rcases hg : t.power? with _ | g
  · rw [← drop_of_some ht]
    refine .step (n := ⟨j, d, as, .tree b⟩) ?_ (ends_ok hj)
    rw [step, resume, signAt_of_some ht, hg]
    rfl
  · refine .step (n := descend t (j + 1) d ⟨.exponent b g t.spot, [i]⟩ as (.phrase .power)) ?_ ?_
    · rw [step, resume, signAt_of_some ht, hg]
      rfl
    · refine ends_descend fun _ => ?_
      refine (later .power (j + 1) (by omega) (lt_of_some ht) _ _).map fun e j' hj' _ => ?_
      exact .step rfl (ends_ok hj')

/-- A negation without a sign is a primary. -/
theorem ends_primary (h : EndsPhrase ts .primary i) : Ends ts
    ⟨i, d, ⟨.primary, [i]⟩ :: as, .enter (.phrase .primary)⟩ d as .tree
    (Phrase.read (Token.endOf ts) d (ts.drop i) .primary) := by
  have hm : Ends ts ⟨i, d, ⟨.primary, [i]⟩ :: as, .enter (.phrase .primary)⟩ d as .tree
      ((Phrase.read (Token.endOf ts) d (ts.drop i) .primary).map id) :=
    (h d (⟨.primary, [i]⟩ :: as)).map fun e j hj _ => .step rfl (ends_ok hj)
  rwa [Except.map_id] at hm

theorem endsPhrase_negation (h : EndsPhrase ts .primary i) (later : EndsLater ts i) :
    EndsPhrase ts .negation i := by
  intro d as
  rcases ht : ts[i]? with _ | t
  · have hr : Phrase.read (Token.endOf ts) d (ts.drop i) .negation =
        Phrase.read (Token.endOf ts) d (ts.drop i) .primary := by
      rw [drop_of_none ht, Expr.read_negation_nil, Expr.read_primary_nil]
    rw [hr]
    refine .step ?_ (ends_primary h)
    rw [step, beginPhrase, signAt_of_none ht]
  rw [drop_of_some ht, Expr.read_negation_cons, ← drop_of_some ht]
  rcases hg : t.negation? with _ | g
  · refine .step ?_ (ends_primary h)
    rw [step, beginPhrase, signAt_of_some ht, hg]
    rfl
  · refine .step (n := descend t (i + 1) d ⟨.operand g t.spot, [i]⟩ as (.phrase .negation)) ?_ ?_
    · rw [step, beginPhrase, signAt_of_some ht, hg]
      rfl
    · refine ends_descend fun _ => ?_
      refine (later .negation (i + 1) (by omega) (lt_of_some ht) _ _).map fun e j hj _ => ?_
      exact .step rfl (ends_ok hj)

/-! ## Parentheses -/

/-- The closing parenthesis is passed as its reader passes it. -/
theorem ends_ascend : Ends ts (ascend ts o i (d + 1) as (f a)) d as f
    ((Expr.readClose o (ts.drop i)).map fun us => (a, us)) := by
  unfold ascend
  rcases ht : ts[i]? with _ | t
  · rw [drop_of_none ht]
    exact ends_error rfl
  rw [drop_of_some ht, Expr.readClose]
  by_cases hc : t.lexeme = .closing
  · simp only [hc, if_true]
    exact ends_ok (lt_of_some ht)
  · simp only [hc, if_false]
    exact ends_error rfl

/-- After the last argument the parenthesis is closed. -/
theorem readArgumentsFrom_of_not_comma {stop : Int} (h : isAt ts i .comma = false) :
    readArgumentsFrom stop d o (ts.drop i) =
      (Expr.readClose o (ts.drop i)).map fun us => ([], us) := by
  rcases ht : ts[i]? with _ | t
  · rw [drop_of_none ht, Expr.readArgumentsFrom_nil]
    rfl
  have hc : t.lexeme ≠ .comma := by simpa [isAt, ht] using h
  rw [drop_of_some ht, Expr.readArgumentsFrom_cons, Expr.readClose, if_neg hc]
  split <;> rfl

/-- The loop of arguments. -/
theorem ends_readArgumentsFrom {j : Nat} {e : Expr} {before : List Expr} {marks : List Nat}
    (later : EndsLater ts i) (hi : i ≤ j) :
    Ends ts ⟨j, d + 1, ⟨.argument o before, marks⟩ :: as, .tree e⟩ d as .trees
      ((readArgumentsFrom (Token.endOf ts) (d + 1) o (ts.drop j)).map fun r =>
        (before ++ e :: r.1, r.2)) := by
  rcases hc : isAt ts j .comma
  · have hr : ((readArgumentsFrom (Token.endOf ts) (d + 1) o (ts.drop j)).map fun r =>
          (before ++ e :: r.1, r.2)) =
        (Expr.readClose o (ts.drop j)).map fun us => (before ++ [e], us) := by
      rw [readArgumentsFrom_of_not_comma hc]
      cases Expr.readClose o (ts.drop j) <;> rfl
    rw [hr]
    refine .step (n := ascend ts o j (d + 1) as (.trees (before ++ [e]))) ?_ ends_ascend
    rw [step, resume, hc, if_neg Bool.false_ne_true]
  · obtain ⟨t, ht, htc⟩ : ∃ t, ts[j]? = some t ∧ t.lexeme = .comma := by
      simpa [isAt, Option.any_eq_true] using hc
    have hr : ((readArgumentsFrom (Token.endOf ts) (d + 1) o (ts.drop j)).map fun r =>
          (before ++ e :: r.1, r.2)) =
        (Phrase.read (Token.endOf ts) (d + 1) (ts.drop (j + 1)) .sum).bind fun r =>
          (readArgumentsFrom (Token.endOf ts) (d + 1) o r.2).map fun r' =>
            (before ++ [e] ++ r.1 :: r'.1, r'.2) := by
      rw [drop_of_some ht, Expr.readArgumentsFrom_cons, htc, if_neg (by simp), if_pos rfl]
      rcases Phrase.read (Token.endOf ts) (d + 1) (ts.drop (j + 1)) .sum with x | r
      · rfl
      · show ((readArgumentsFrom _ _ _ r.2).map _).map _ = (readArgumentsFrom _ _ _ r.2).map _
        cases readArgumentsFrom (Token.endOf ts) (d + 1) o r.2 with
        | error => rfl
        | ok r' => simp [Except.map]
    have hlt := lt_of_some ht
    rw [hr]
    refine .step (n := ⟨j + 1, d + 1, ⟨.argument o (before ++ [e]), j :: marks⟩ :: as,
      .enter (.phrase .sum)⟩) ?_ ?_
    · rw [step, resume, hc, if_pos rfl]
    · refine (later .sum (j + 1) (by omega) hlt _ _).bind fun e' j' hj' hr => ?_
      have := lt_of_read hr hj'
      exact ends_readArgumentsFrom later (by omega)
termination_by ts.length - j

theorem ends_arguments (ht : ts[i]? = some o) (later : EndsLater ts i) :
    Ends ts ⟨i, d, as, .enter .arguments⟩ d as .trees
      (readArguments (Token.endOf ts) d o (ts.drop (i + 1))) := by
  have hlt := lt_of_some ht
  have hsum := later .sum (i + 1) (Nat.lt_succ_self i) hlt
  refine .step (n := beginArguments ts o i d as) (by rw [step, ht]; rfl) ?_
  unfold beginArguments
  rcases ht' : ts[i + 1]? with _ | t
  · have hr : readArguments (Token.endOf ts) d o (ts.drop (i + 1)) =
        if maxDepth ≤ d then .error o.refused
        else
          (Phrase.read (Token.endOf ts) (d + 1) (ts.drop (i + 1)) .sum).map
            fun r => ([], r.2) := by
      rw [drop_of_none ht', Expr.readArguments_nil, Expr.read_sum_nil]
      split <;> rfl
    rw [hr, if_neg (by simp [isAt, ht'])]
    refine ends_descend fun _ => (hsum _ _).map fun e j hj hr => ?_
    rw [drop_of_none ht', Expr.read_sum_nil] at hr
    cases hr
  rw [drop_of_some ht', Expr.readArguments_cons, ← drop_of_some ht']
  by_cases hc : t.lexeme = .closing
  · rw [if_pos hc, if_pos (by simp [isAt, ht', hc])]
    exact ends_ok (lt_of_some ht')
  · rw [if_neg hc, if_neg (by simp [isAt, ht', hc])]
    refine ends_descend fun _ => (hsum _ _).bind fun e j hj hr => ?_
    exact ends_readArgumentsFrom later (Nat.le_of_lt (Nat.lt_of_succ_lt (lt_of_read hr hj)))

theorem endsPhrase_primary (later : EndsLater ts i)
    (h : ∀ o, ts[i + 1]? = some o → ∀ d as, Ends ts ⟨i + 1, d, as, .enter .arguments⟩ d as .trees
      (readArguments (Token.endOf ts) d o (ts.drop (i + 2)))) : EndsPhrase ts .primary i := by
  intro d as
  rcases ht : ts[i]? with _ | t
  · rw [drop_of_none ht, Expr.read_primary_nil]
    refine .step (n := ⟨i, d, as, .error (.unexpectedEnd (Token.endOf ts))⟩) ?_ (ends_error rfl)
    rw [step, beginPhrase, ht]
  have hlt := lt_of_some ht
  refine .step (n := beginPrimary ts t i d as) (by rw [step, beginPhrase, ht]) ?_
  rw [drop_of_some ht, Expr.read_primary_cons, beginPrimary]
  cases t.lexeme with
  | number n => exact ends_ok hlt
  | operator | closing | comma | other => exact ends_error rfl
  | opening =>
    refine ends_descend fun _ => (later .sum (i + 1) (by omega) hlt _ _).bind fun e j hj _ => ?_
    exact .step rfl ends_ascend
  | name x =>
    dsimp only
    rcases ht' : ts[i + 1]? with _ | o
    · rw [if_neg (by simp [isAt, ht']), drop_of_none ht']
      dsimp only
      rw [← drop_of_none ht']
      exact ends_ok hlt
    rw [drop_of_some ht']
    by_cases ho : o.lexeme = .opening
    · simp only [ho, if_true]
      rw [if_pos (by simp [isAt, ht', ho])]
      exact (h o ht' _ _).map fun es j hj _ => .step rfl (ends_ok hj)
    · simp only [ho, if_false]
      rw [if_neg (by simp [isAt, ht', ho]), ← drop_of_some ht']
      exact ends_ok hlt

/-- **The machine ends a phrase with what the reader yields**, by way of the phrases after it. -/
theorem endsPhrase (p : Phrase) (i : Nat) : EndsPhrase ts p i := by
  have later : EndsLater ts i := fun p j hi hj => endsPhrase p j
  have primary : EndsPhrase ts .primary i := by
    refine endsPhrase_primary later fun o ho d as => ends_arguments ho fun p j hi hj => ?_
    exact endsPhrase p j
  have negation := endsPhrase_negation primary later
  have power := endsPhrase_power negation later
  have product := endsPhrase_chain .product power later
  have sum := endsPhrase_chain .sum product later
  cases p with
  | sum => exact sum
  | product => exact product
  | power => exact power
  | negation => exact negation
  | primary => exact primary
termination_by ts.length - i

/-! ## Procedures -/

/-- What a procedure's reader yields at a cursor and a nesting level.  The reader of arguments
    begins at their opening parenthesis. -/
inductive Reads (ts : List Token) (i d : Nat) :
    Procedure → Except Error (Focus × List Token) → Prop
  | phrase (p : Phrase) : Reads ts i d (.phrase p)
      ((p.read (Token.endOf ts) d (ts.drop i)).map fun r => (.tree r.1, r.2))
  | arguments {o : Token} : ts[i]? = some o → o.lexeme = .opening → Reads ts i d .arguments
      ((readArguments (Token.endOf ts) d o (ts.drop (i + 1))).map fun r => (.trees r.1, r.2))

/-- **The machine ends with what the reader yields**, whatever calls are active. -/
theorem ends_of_reads {q : Procedure} {r : Except Error (Focus × List Token)} (h : Reads ts i d q r)
    (as : List Call) : Ends ts ⟨i, d, as, .enter q⟩ d as id r := by
  cases h with
  | phrase p => exact (endsPhrase p i d as).map fun e j hj _ => ends_ok hj
  | arguments ho _ =>
    exact (ends_arguments ho fun p j _ _ => endsPhrase p j).map fun es j hj _ => ends_ok hj

end

end Reckon.Reader
