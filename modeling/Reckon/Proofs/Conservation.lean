/-
  No token is lost, doubled or moved.

  The numbers, names and operators of an expression are the nodes of its tree, in order and each
  at its own spot (`Derives.inOrder_eq`).  What is left are parentheses, which match
  (`Derives.matched`), and the commas between the arguments of calls.

  * `callsWritten`: the calls among tokens, each with as many arguments as its commas part;
    `invocations`: the calls in a tree;
  * `Derives.callsWritten_append`, `Derives.countP_comma`: the calls and the commas of a phrase;
  * `parse_conserves`: all of this, of tokens that are read as a tree.
-/
import Mathlib.Algebra.GroupWithZero.Nat
import Reckon.Proofs.Nesting
import Reckon.Proofs.Parsing

namespace Reckon.Expr

/-! ## Calls -/

/-- A call without its arguments. -/
structure Invocation where
  name : String
  spot : Int
  /-- The number of arguments. -/
  arity : Nat
  deriving DecidableEq

mutual

/-- The calls in a tree, in the order of the text. -/
def invocations : Expr → List Invocation
  | literal _ _ | .var _ _ => []
  | unary _ e _ => invocations e
  | binary _ l r _ => invocations l ++ invocations r
  | call f args p => ⟨f, p, args.length⟩ :: invocationsAll args

/-- The calls in several trees. -/
def invocationsAll : List Expr → List Invocation
  | [] => []
  | e :: es => invocations e ++ invocationsAll es

end

/-- How many commas stand directly inside some parentheses, from a place on where as many others are
    open in them. -/
def ownCommas : Nat → List Token → Nat
  | _, [] => 0
  | n, t :: ts =>
    match t.lexeme with
    | .opening => ownCommas (n + 1) ts
    | .closing => if n = 0 then 0 else ownCommas (n - 1) ts
    | .comma => if n = 0 then ownCommas n ts + 1 else ownCommas n ts
    | .number _ | .name _ | .operator _ | .other _ => ownCommas n ts

/-- How many arguments are written after the opening parenthesis of a call: none if it is closed at
    once, else one more than there are commas directly inside. -/
def argumentsWritten : List Token → Nat
  | [] => 0
  | t :: ts => if t.lexeme = .closing then 0 else ownCommas 0 (t :: ts) + 1

/-- The calls among tokens, in order: the names with an opening parenthesis after them. -/
def callsWritten : List Token → List Invocation
  | [] => []
  | f :: ts =>
    match f.lexeme with
    | .name x =>
      if opensCall ts then ⟨x, f.spot, argumentsWritten ts.tail⟩ :: callsWritten ts
      else callsWritten ts
    | .number _ | .operator _ | .opening | .closing | .comma | .other _ => callsWritten ts

/-- **A tree holds all that its tokens say**, once and in order. -/
structure Conserves (ts : List Token) (e : Expr) : Prop where
  /-- The numbers, names and operators are the nodes of the tree. -/
  nodes : inOrder e = nodeTokens ts
  /-- Every other token is a parenthesis or a comma. -/
  rest : ∀ t ∈ ts, t.lexeme.isNode = false →
    t.lexeme = .opening ∨ t.lexeme = .closing ∨ t.lexeme = .comma
  matched : Matched ts
  /-- The commas in the parentheses of a call part its arguments. -/
  calls : invocations e = callsWritten ts
  /-- And there are no other commas. -/
  commas : ts.countP (·.lexeme = .comma) = ((invocations e).map (·.arity - 1)).sum

variable {p : Phrase} {d n : Nat} {ts us : List Token} {t o c f : Token} {x : String} {e : Expr}
  {es : List Expr}

/-! ## The tokens of a phrase -/

mutual

/-- In a phrase there are nodes, parentheses and commas. -/
theorem Derives.rest {p d ts e} : Derives p d ts e → ∀ t ∈ ts, t.lexeme.isNode = false →
    t.lexeme = .opening ∨ t.lexeme = .closing ∨ t.lexeme = .comma
  | .sum h | .product h | .power h | .negation h => h.rest
  | .addition h ht _ h' | .multiplication h ht _ h' | .exponentiation h ht _ h' =>
    List.forall_mem_append.2 ⟨h.rest, List.forall_mem_cons.2 ⟨by simp [ht, Lexeme.isNode], h'.rest⟩⟩
  | .opposite ht _ h => List.forall_mem_cons.2 ⟨by simp [ht, Lexeme.isNode], h.rest⟩
  | .number ht | .name ht => by simp [ht, Lexeme.isNode]
  | .parens ho _ h hc => by
    refine List.forall_mem_cons.2 ⟨by simp [ho], List.forall_mem_append.2 ⟨h.rest, ?_⟩⟩
    simp [hc]
  | .bareCall hf ho hc => by simp [hf, ho, hc, Lexeme.isNode]
  | .call hf ho _ h hc => by
    refine List.forall_mem_cons.2 ⟨by simp [hf, Lexeme.isNode], List.forall_mem_cons.2
      ⟨by simp [ho], List.forall_mem_append.2 ⟨h.rest, ?_⟩⟩⟩
    simp [hc]

theorem Arguments.rest {d ts es} : Arguments d ts es → ∀ t ∈ ts, t.lexeme.isNode = false →
    t.lexeme = .opening ∨ t.lexeme = .closing ∨ t.lexeme = .comma
  | .one h => h.rest
  | .more h hc hs =>
    List.forall_mem_append.2 ⟨h.rest, List.forall_mem_cons.2 ⟨by simp [hc], hs.rest⟩⟩

end

/-! ## The commas of a phrase -/

theorem ownCommas_plain (ht : t.lexeme.isNode = true) :
    ownCommas n (t :: ts) = ownCommas n ts := by
  rw [ownCommas]
  split <;> simp_all [Lexeme.isNode]

theorem ownCommas_opening (ho : o.lexeme = .opening) :
    ownCommas n (o :: ts) = ownCommas (n + 1) ts := by rw [ownCommas, ho]

theorem ownCommas_closing (hc : c.lexeme = .closing) :
    ownCommas (n + 1) (c :: ts) = ownCommas n ts := by
  simp only [ownCommas, hc, Nat.succ_ne_zero, if_false, Nat.add_sub_cancel]

theorem ownCommas_closed (hc : c.lexeme = .closing) : ownCommas 0 (c :: ts) = 0 := by
  simp only [ownCommas, hc, if_true]

theorem ownCommas_comma (hc : c.lexeme = .comma) :
    ownCommas n (c :: ts) = ownCommas n ts + if n = 0 then 1 else 0 := by
  simp only [ownCommas, hc]
  split <;> rfl

theorem Arguments.length_ne_zero (h : Arguments d ts es) : es.length ≠ 0 := by cases h <;> simp

mutual

/-- The commas of a phrase stand in parentheses of its own. -/
theorem Derives.ownCommas_append {p d ts e} : Derives p d ts e → ∀ n us,
    ownCommas n (ts ++ us) = ownCommas n us
  | .sum h, n, us | .product h, n, us | .power h, n, us | .negation h, n, us =>
    h.ownCommas_append n us
  | .addition h ht _ h', n, us | .multiplication h ht _ h', n, us
  | .exponentiation h ht _ h', n, us => by
    rw [List.append_assoc, List.cons_append, h.ownCommas_append,
      ownCommas_plain (by simp [ht, Lexeme.isNode]), h'.ownCommas_append]
  | .opposite ht _ h, n, us => by
    rw [List.cons_append, ownCommas_plain (by simp [ht, Lexeme.isNode]), h.ownCommas_append]
  | .number ht, n, us | .name ht, n, us => by
    rw [List.singleton_append, ownCommas_plain (by simp [ht, Lexeme.isNode])]
  | .parens ho _ h hc, n, us => by
    rw [List.cons_append, List.append_assoc, ownCommas_opening ho, h.ownCommas_append,
      List.singleton_append, ownCommas_closing hc]
  | .bareCall hf ho hc, n, us => by
    rw [List.cons_append, List.cons_append, List.singleton_append,
      ownCommas_plain (by simp [hf, Lexeme.isNode]), ownCommas_opening ho, ownCommas_closing hc]
  | .call hf ho _ h hc, n, us => by
    rw [List.cons_append, List.cons_append, List.append_assoc,
      ownCommas_plain (by simp [hf, Lexeme.isNode]), ownCommas_opening ho, h.ownCommas_append,
      List.singleton_append, ownCommas_closing hc, if_neg (Nat.succ_ne_zero n), Nat.add_zero]

/-- The commas between arguments are one less than these. -/
theorem Arguments.ownCommas_append {d ts es} : Arguments d ts es → ∀ n us,
    ownCommas n (ts ++ us) = ownCommas n us + if n = 0 then es.length - 1 else 0
  | .one h, n, us => by
    rw [h.ownCommas_append]
    simp
  | .more h hc hs, n, us => by
    have hlen := hs.length_ne_zero
    rw [List.append_assoc, List.cons_append, h.ownCommas_append, ownCommas_comma hc,
      hs.ownCommas_append, List.length_cons]
    split <;> omega

end

/-- After the parenthesis of a call its arguments are written. -/
theorem Arguments.argumentsWritten (h : Arguments d ts es) (hc : c.lexeme = .closing) :
    argumentsWritten (ts ++ c :: us) = es.length := by
  have hlen := h.length_ne_zero
  have hcommas := h.ownCommas_append 0 (c :: us)
  obtain ⟨t, ts, rfl, ht⟩ := h.exists_cons
  rw [ownCommas_closed hc, if_pos rfl] at hcommas
  rw [List.cons_append] at hcommas ⊢
  rw [Expr.argumentsWritten, if_neg ht, hcommas]
  omega

/-! ## The calls of a phrase -/

theorem callsWritten_plain (hf : ∀ x, f.lexeme ≠ .name x) :
    callsWritten (f :: ts) = callsWritten ts := by
  rw [callsWritten]
  split
  · exact absurd ‹_› (hf _)
  all_goals rfl

theorem callsWritten_name (ho : opensCall ts = false) :
    callsWritten (f :: ts) = callsWritten ts := by
  rw [callsWritten]
  split
  · rw [ho]
    rfl
  all_goals rfl

theorem callsWritten_call (hf : f.lexeme = .name x) (ho : o.lexeme = .opening) :
    callsWritten (f :: o :: ts) = ⟨x, f.spot, argumentsWritten ts⟩ :: callsWritten ts := by
  have hn : ∀ y, o.lexeme ≠ .name y := by simp [ho]
  rw [callsWritten, hf]
  simp only [opensCall_cons, ho, decide_true, if_true, List.tail_cons, callsWritten_plain hn]

mutual

/-- **The calls written in a phrase are those of its tree.** -/
theorem Derives.callsWritten_append {p d ts e} : Derives p d ts e → ∀ us, opensCall us = false →
    callsWritten (ts ++ us) = invocations e ++ callsWritten us
  | .sum h, us, hu | .product h, us, hu | .power h, us, hu | .negation h, us, hu =>
    h.callsWritten_append us hu
  | .addition h ht _ h', us, hu | .multiplication h ht _ h', us, hu
  | .exponentiation h ht _ h', us, hu => by
    rw [List.append_assoc, List.cons_append, h.callsWritten_append _ (by simp [ht]),
      callsWritten_plain (by simp [ht]), h'.callsWritten_append us hu, invocations,
      List.append_assoc]
  | .opposite ht _ h, us, hu => by
    rw [List.cons_append, callsWritten_plain (by simp [ht]), h.callsWritten_append us hu,
      invocations]
  | .number ht, us, hu | .name ht, us, hu => by
    rw [List.singleton_append, callsWritten_name hu, invocations, List.nil_append]
  | .parens ho _ h hc, us, hu => by
    rw [List.cons_append, List.append_assoc, List.singleton_append,
      callsWritten_plain (by simp [ho]), h.callsWritten_append _ (by simp [hc]),
      callsWritten_plain (by simp [hc])]
  | .bareCall hf ho hc, us, hu => by
    rw [List.cons_append, List.cons_append, List.singleton_append, callsWritten_call hf ho,
      Expr.argumentsWritten, if_pos hc, callsWritten_plain (by simp [hc]), invocations,
      invocationsAll]
    rfl
  | .call hf ho _ h hc, us, hu => by
    rw [List.cons_append, List.cons_append, List.append_assoc, List.singleton_append,
      callsWritten_call hf ho, h.argumentsWritten hc, h.callsWritten_append _ (by simp [hc]),
      callsWritten_plain (by simp [hc]), invocations, List.cons_append]

theorem Arguments.callsWritten_append {d ts es} : Arguments d ts es → ∀ us, opensCall us = false →
    callsWritten (ts ++ us) = invocationsAll es ++ callsWritten us
  | .one h, us, hu => by
    rw [h.callsWritten_append us hu, invocationsAll, invocationsAll, List.append_nil]
  | .more h hc hs, us, hu => by
    rw [List.append_assoc, List.cons_append, h.callsWritten_append _ (by simp [hc]),
      callsWritten_plain (by simp [hc]), hs.callsWritten_append us hu, invocationsAll,
      List.append_assoc]

end

mutual

/-- **The commas in a phrase** part the arguments of its calls. -/
theorem Derives.countP_comma {p d ts e} : Derives p d ts e →
    ts.countP (·.lexeme = .comma) = ((invocations e).map (·.arity - 1)).sum
  | .sum h | .product h | .power h | .negation h => h.countP_comma
  | .addition h ht _ h' | .multiplication h ht _ h' | .exponentiation h ht _ h' => by
    simp [List.countP_append, invocations, ht, h.countP_comma, h'.countP_comma]
  | .opposite ht _ h => by simp [invocations, ht, h.countP_comma]
  | .number ht | .name ht => by simp [invocations, ht]
  | .parens ho _ h hc => by
    simp [List.countP_append, ho, hc, h.countP_comma]
  | .bareCall hf ho hc => by
    simp [invocations, invocationsAll, hf, ho, hc]
  | .call hf ho _ h hc => by
    simp [List.countP_append, invocations, hf, ho, hc, h.countP_comma]

theorem Arguments.countP_comma {d ts es} : Arguments d ts es →
    ts.countP (·.lexeme = .comma) =
      es.length - 1 + ((invocationsAll es).map (·.arity - 1)).sum
  | .one h => by simp [invocationsAll, h.countP_comma]
  | .more h hc hs => by
    have hlen := hs.length_ne_zero
    simp only [List.countP_append, List.countP_cons, invocationsAll, hc, h.countP_comma,
      hs.countP_comma, List.map_append, List.sum_append, List.length_cons, decide_true, if_true]
    omega

end

/-! ## Whole token lists -/

/-- **No token is lost, doubled or moved.**  Of tokens that are read as a tree, the numbers, names
    and operators are the nodes of the tree in order, each at its own spot.  The others are
    parentheses that match, and commas: in the parentheses of each call one less than it has
    arguments, and nowhere else. -/
theorem parse_conserves (hs : ∀ t ∈ ts, t.IsSigned) (h : parse ts = .ok e) : Conserves ts e := by
  have hd := derives_of_parse hs h
  refine ⟨hd.inOrder_eq, hd.rest, hd.matched, ?_, hd.countP_comma⟩
  have hc := hd.callsWritten_append [] rfl
  rw [List.append_nil, callsWritten, List.append_nil] at hc
  exact hc.symm

/-- A call with two arguments, one of them in parentheses, less a call without any. -/
theorem parse_conserves_calls :
    let f : Token := ⟨"f", 0, .name "f"⟩
    let one : Token := ⟨"1", 2, .number (.int 1)⟩
    let comma : Token := ⟨",", 3, .comma⟩
    let x : Token := ⟨"x", 6, .name "x"⟩
    let minus : Token := ⟨"-", 10, .operator "-"⟩
    let g : Token := ⟨"g", 12, .name "g"⟩
    let opens (p : Int) : Token := ⟨"(", p, .opening⟩
    let closes (p : Int) : Token := ⟨")", p, .closing⟩
    let ts := [f, opens 1, one, comma, opens 5, x, closes 7, closes 8, minus, g, opens 13,
      closes 14]
    let e : Expr := .binary "-" (.call "f" [.literal (.int 1) 2, .var "x" 6] 0) (.call "g" [] 12) 10
    (∀ t ∈ ts, t.IsSigned) ∧ parse ts = .ok e ∧ Conserves ts e := by
  intro f one comma x minus g opens closes ts e
  have hx : Derives .sum 1 [opens 5, x, closes 7] _ :=
    .ofPrimary (.parens rfl (by decide) (.ofPrimary (.name rfl)) rfl)
  have hf : Derives .sum 0 _ (.call "f" [.literal (.int 1) 2, .var "x" 6] 0) :=
    .ofPrimary (.call (f := f) (o := opens 1) (c := closes 8) rfl rfl (by decide)
      (.more (c := comma) (.ofPrimary (.number (t := one) rfl)) rfl (.one hx)) rfl)
  have hg : Derives .product 0 [g, opens 13, closes 14] (.call "g" [] 12) :=
    .ofPrimary (.bareCall rfl rfl rfl)
  have hd : Derives .sum 0 ts e := .addition (t := minus) hf rfl (by decide) hg
  exact ⟨hd.isSigned, hd.parse_eq, parse_conserves hd.isSigned hd.parse_eq⟩

end Reckon.Expr
