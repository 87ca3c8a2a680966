/-
  How deep expressions nest.

  Going through tokens from the left, a `Place` tells the nesting level at which an
  operand would stand.  The level rises inside parentheses, after a minus before an
  operand and after the sign of a power; the sign of a sum or a product and a comma bring
  it back to that of the innermost parentheses.

  * `operands`: the numbers and names among tokens, each with its level;
  * `Forms.after`: a phrase leaves the place where it began, apart from its operand;
  * `forms_iff_nesting_le`: an expression needs as many levels as its deepest operand.
-/
import Reckon.Proofs.Forms

namespace Reckon

/-- Lexemes that are operands, or the names of calls. -/
def Lexeme.isOperand : Lexeme → Bool
  | .number _ | .name _ => true
  | .operator _ | .opening | .closing | .comma | .other _ => false

namespace Expr

/-! ## Places -/

/-- A place among tokens. -/
structure Place where
  /-- The level of the innermost parentheses. -/
  floor : Nat
  /-- The level of a power, of which the exponent is one level deeper. -/
  root : Nat
  /-- The level of an operand that stands here. -/
  level : Nat
  /-- Whether an operand ends here. -/
  operand : Bool
  /-- Floors and roots outside the innermost parentheses, and outside those around them. -/
  outer : List (Nat × Nat)

namespace Place

/-- A place where a sum begins at a level. -/
def fresh (n : Nat) (outer : List (Nat × Nat)) : Place := ⟨n, n, n, false, outer⟩

/-- The place before all tokens. -/
def start : Place := fresh 0 []

/-- The place after a token. -/
def step (q : Place) (t : Token) : Place :=
  match t.lexeme with
  | .number _ | .name _ => { q with operand := true }
  | .operator _ =>
    if q.operand then
      let n := if t.power?.isSome then q.root + 1 else q.floor
      { q with root := n, level := n, operand := false }
    else { q with level := q.level + 1 }
  | .opening => fresh (q.level + 1) ((q.floor, q.root) :: q.outer)
  | .closing =>
    match q.outer with
    | [] => q
    | (floor, root) :: outer => ⟨floor, root, root, true, outer⟩
  | .comma => { q with root := q.floor, level := q.floor, operand := false }
  | .other _ => q

/-- The place after tokens. -/
def after (q : Place) (ts : List Token) : Place := ts.foldl step q

end Place

/-- Whether tokens begin with an opening parenthesis, so that a name before them is called. -/
def opensCall : List Token → Bool
  | [] => false
  | t :: _ => t.lexeme = .opening

/-- A number or a name among tokens. -/
structure Operand where
  lexeme : Lexeme
  /-- Whether it is the name of a call. -/
  called : Bool
  /-- The nesting level at which it stands. -/
  level : Nat

/-- The numbers and names among tokens. -/
def operands : Place → List Token → List Operand
  | _, [] => []
  | q, t :: ts =>
    if t.lexeme.isOperand then ⟨t.lexeme, opensCall ts, q.level⟩ :: operands (q.step t) ts
    else operands (q.step t) ts

/-- The nesting level of the deepest operand. -/
def nesting (ts : List Token) : Nat := ((operands .start ts).map Operand.level).foldr max 0

section
variable {p : Phrase} {k : Chain} {m n d : Nat} {ts us : List Token} {t o c f : Token}
  {g x : String} {e l r : Expr} {es : List Expr} {q q' : Place}

/-! ## Steps -/

namespace Place

@[simp]
theorem after_nil : q.after [] = q := rfl

@[simp]
theorem after_cons : q.after (t :: ts) = (q.step t).after ts := rfl

@[simp]
theorem after_append : q.after (ts ++ us) = (q.after ts).after us := List.foldl_append

theorem step_number {n : Number} (ht : t.lexeme = .number n) :
    q.step t = { q with operand := true } := by simp [step, ht]

theorem step_name (ht : t.lexeme = .name x) : q.step t = { q with operand := true } := by
  simp [step, ht]

theorem step_opening (ho : o.lexeme = .opening) :
    q.step o = fresh (q.level + 1) ((q.floor, q.root) :: q.outer) := by simp [step, ho]

theorem step_closing (hc : c.lexeme = .closing) {a b : Nat} {outer : List (Nat × Nat)}
    (hq : q.outer = (a, b) :: outer) : q.step c = ⟨a, b, b, true, outer⟩ := by
  simp [step, hc, hq]

theorem step_comma (hc : c.lexeme = .comma) : q.step c =
    { q with root := q.floor, level := q.floor, operand := false } := by simp [step, hc]

/-- The sign between two operands of a chain. -/
theorem step_chain (hk : k.sign? t = some g) (hq : q.operand = true) :
    q.step t = fresh q.floor q.outer := by
  simp [step, Chain.lexeme_of_sign? hk, Chain.power?_eq_none hk, hq, fresh]

/-- The sign of a power. -/
theorem step_power (ht : t.power? = some g) (hq : q.operand = true) : q.step t =
    { q with root := q.root + 1, level := q.root + 1, operand := false } := by
  simp [step, (power?_eq_some.1 ht).1, ht, hq]

/-- The sign of a negation. -/
theorem step_negation (ht : t.negation? = some g) (hq : q.operand = false) :
    q.step t = { q with level := q.level + 1 } := by
  simp [step, (negation?_eq_some.1 ht).1, hq]

/-! ## Places of phrases -/

/-- A place where a phrase of a kind can begin at a level. -/
def Awaits (q : Place) (d : Nat) : Phrase → Prop
  | .sum | .product => q = fresh d q.outer
  | .power => q.operand = false ∧ q.level = d ∧ q.root = d
  | .negation | .primary => q.operand = false ∧ q.level = d

/-- A place where a phrase of a kind that began at another ends. -/
def Ends (q q' : Place) : Phrase → Prop
  | .sum | .product | .power => ∃ r n, q' = { q with root := r, level := n, operand := true }
  | .negation | .primary => ∃ n, q' = { q with level := n, operand := true }

theorem Awaits.operand (h : q.Awaits d k.phrase) : q.Awaits d k.operand := by
  cases k with
  | sum => exact h
  | product =>
    have h : q = fresh d q.outer := h
    rw [h]
    exact ⟨rfl, rfl, rfl⟩

theorem Awaits.negation (h : q.Awaits d .power) : q.Awaits d .negation := ⟨h.1, h.2.1⟩

theorem Awaits.minus (h : q.Awaits d .negation) (ht : t.negation? = some g) :
    (q.step t).Awaits (d + 1) .negation := by
  rw [step_negation ht h.1]
  exact ⟨h.1, congrArg (· + 1) h.2⟩

theorem awaits_inside (hq : q.level = d) (ho : o.lexeme = .opening) :
    (q.step o).Awaits (d + 1) .sum := by
  rw [step_opening ho, hq]
  rfl

theorem Awaits.inside (h : q.Awaits d .primary) (ho : o.lexeme = .opening) :
    (q.step o).Awaits (d + 1) .sum := awaits_inside h.2 ho

theorem Awaits.arguments (h : q.Awaits d .primary) (hf : f.lexeme = .name x)
    (ho : o.lexeme = .opening) : ((q.step f).step o).Awaits (d + 1) .sum := by
  have hl : (q.step f).level = d := by rw [step_name hf, h.2]
  exact awaits_inside hl ho

theorem Ends.power (h : q.Ends q' .negation) : q.Ends q' .power := by
  obtain ⟨n, rfl⟩ := h
  exact ⟨q.root, n, rfl⟩

/-- The sign of a chain brings back the place where it began. -/
theorem Ends.step_chain (h : q.Ends q' k.phrase) (hq : q.Awaits d k.phrase)
    (hk : k.sign? t = some g) : q'.step t = q := by
  have hf : q = fresh d q.outer := by cases k <;> exact hq
  obtain ⟨r, n, rfl⟩ : ∃ r n, q' = { q with root := r, level := n, operand := true } := by
    cases k <;> exact h
  rw [Place.step_chain hk rfl]
  rw [hf]
  rfl

/-- So does a comma. -/
theorem Ends.step_comma (h : q.Ends q' .sum) (hq : q.Awaits d .sum) (hc : c.lexeme = .comma) :
    q'.step c = q := by
  have hf : q = fresh d q.outer := hq
  obtain ⟨r, n, rfl⟩ := h
  rw [Place.step_comma hc]
  rw [hf]
  rfl

/-- The sign of a power leads one level deeper. -/
theorem Ends.step_power (h : q.Ends q' .negation) (hq : q.Awaits d .power)
    (ht : t.power? = some g) :
    q'.step t = { q with root := d + 1, level := d + 1, operand := false } := by
  obtain ⟨n, rfl⟩ := h
  rw [Place.step_power ht rfl, hq.2.2]

/-- A closing parenthesis leads back outside. -/
theorem Ends.step_closing (h : (q.step o).Ends q' .sum) (ho : o.lexeme = .opening)
    (hc : c.lexeme = .closing) : q.Ends (q'.step c) .primary := by
  obtain ⟨r, n, rfl⟩ := h
  rw [step_opening ho]
  exact ⟨q.root, Place.step_closing hc rfl⟩

end Place

mutual

/-- **A phrase ends where it began**, but for the operand that stands there now. -/
theorem Forms.after {p d ts e} : Forms m p d ts e → ∀ {q : Place}, q.Awaits d p →
    q.Ends (q.after ts) p
  | .sum h, _, hq => h.after (hq.operand (k := .sum))
  | .addition h ht h', q, hq => by
    rw [Place.after_append, Place.after_cons, (h.after hq).step_chain (k := .sum) hq ht]
    exact h'.after (hq.operand (k := .sum))
  | .product h, _, hq => h.after (hq.operand (k := .product))
  | .multiplication h ht h', q, hq => by
    rw [Place.after_append, Place.after_cons, (h.after hq).step_chain (k := .product) hq ht]
    exact h'.after (hq.operand (k := .product))
  | .power h, _, hq => (h.after hq.negation).power
  | .exponentiation h ht _ h', q, hq => by
    rw [Place.after_append, Place.after_cons, (h.after hq.negation).step_power hq ht]
    obtain ⟨r, n, hr⟩ := h'.after (q := { q with root := _, level := _, operand := false })
      ⟨rfl, rfl, rfl⟩
    exact ⟨r, n, hr⟩
  | .negation h, _, hq => h.after hq
  | .opposite ht _ h, q, hq => by
    obtain ⟨n, hn⟩ := h.after (hq.minus ht)
    rw [Place.after_cons, hn, Place.step_negation ht hq.1]
    exact ⟨n, rfl⟩
  | .number ht, q, _ => by
    rw [Place.after_cons, Place.after_nil, Place.step_number ht]
    exact ⟨q.level, rfl⟩
  | .name ht, q, _ => by
    rw [Place.after_cons, Place.after_nil, Place.step_name ht]
    exact ⟨q.level, rfl⟩
  | .parens ho _ h hc, q, hq => by
    rw [Place.after_cons, Place.after_append, Place.after_cons, Place.after_nil]
    exact (h.after (hq.inside ho)).step_closing ho hc
  | .bareCall hf ho hc, q, hq => by
    rw [Place.after_cons, Place.after_cons, Place.after_cons, Place.after_nil, Place.step_name hf,
      Place.step_opening ho, Place.step_closing hc rfl]
    exact ⟨q.root, rfl⟩
  | .call hf ho _ h hc, q, hq => by
    rw [Place.after_cons, Place.after_cons, Place.after_append, Place.after_cons, Place.after_nil]
    obtain ⟨n, hn⟩ := (h.after (hq.arguments hf ho)).step_closing ho hc
    rw [hn, Place.step_name hf]
    exact ⟨n, rfl⟩

theorem FormsAll.after {d ts es} : FormsAll m d ts es → ∀ {q : Place}, q.Awaits d .sum →
    q.Ends (q.after ts) .sum
  | .one h, _, hq => h.after hq
  | .more h hc hs, q, hq => by
    rw [Place.after_append, Place.after_cons, (h.after hq).step_comma hq hc]
    exact hs.after hq

end

/-! ## Operands of phrases -/

@[simp]
theorem opensCall_nil : opensCall [] = false := rfl

@[simp]
theorem opensCall_cons : opensCall (t :: ts) = decide (t.lexeme = .opening) := rfl

theorem opensCall_append (h : opensCall us = false) : opensCall (ts ++ us) = opensCall ts := by
  cases ts with
  | nil => exact h
  | cons t ts => rfl

@[simp]
theorem operands_nil : operands q [] = [] := rfl

theorem operands_cons : operands q (t :: ts) =
    if t.lexeme.isOperand then ⟨t.lexeme, opensCall ts, q.level⟩ :: operands (q.step t) ts
    else operands (q.step t) ts := rfl

theorem operands_append (h : opensCall us = false) :
    operands q (ts ++ us) = operands q ts ++ operands (q.after ts) us := by
  induction ts generalizing q with
  | nil => rfl
  | cons t ts ih =>
    rw [List.cons_append, operands_cons, operands_cons, opensCall_append h, ih]
    split
    · rfl
    · rfl

/-- The operands on both sides of a token that is neither an operand nor opens parentheses. -/
theorem operands_between (ht : t.lexeme.isOperand = false) (ho : t.lexeme ≠ .opening) :
    operands q (ts ++ t :: us) = operands q ts ++ operands ((q.after ts).step t) us := by
  rw [operands_append (by simpa using ho), operands_cons, ht]
  rfl

theorem Forms.operands_chain (h : Forms m k.phrase d ts l) (hq : q.Awaits d k.phrase)
    (hk : k.sign? t = some g) : operands q (ts ++ t :: us) = operands q ts ++ operands q us := by
  have ht := Chain.lexeme_of_sign? hk
  rw [operands_between (by rw [ht]; rfl) (by simp [ht]), (h.after hq).step_chain hq hk]

theorem Forms.operands_comma (h : Forms m .sum d ts e) (hq : q.Awaits d .sum)
    (hc : c.lexeme = .comma) : operands q (ts ++ c :: us) = operands q ts ++ operands q us := by
  rw [operands_between (by rw [hc]; rfl) (by simp [hc]), (h.after hq).step_comma hq hc]

theorem Forms.operands_power (h : Forms m .negation d ts l) (hq : q.Awaits d .power)
    (ht : t.power? = some g) : ∃ q' : Place, q'.Awaits (d + 1) .power ∧
      operands q (ts ++ t :: us) = operands q ts ++ operands q' us := by
  have hg := (power?_eq_some.1 ht).1
  rw [operands_between (by rw [hg]; rfl) (by simp [hg]), (h.after hq.negation).step_power hq ht]
  exact ⟨_, ⟨rfl, rfl, rfl⟩, rfl⟩

theorem operands_minus (ht : t.negation? = some g) :
    operands q (t :: ts) = operands (q.step t) ts := by
  rw [operands_cons, (negation?_eq_some.1 ht).1]
  rfl

theorem operands_number {n : Number} (ht : t.lexeme = .number n) :
    operands q [t] = [⟨.number n, false, q.level⟩] := by
  rw [operands_cons, ht]
  rfl

theorem operands_name (ht : t.lexeme = .name x) :
    operands q [t] = [⟨.name x, false, q.level⟩] := by
  rw [operands_cons, ht]
  rfl

theorem operands_parens (ho : o.lexeme = .opening) (hc : c.lexeme = .closing) :
    operands q (o :: (ts ++ [c])) = operands (q.step o) ts := by
  have hi : o.lexeme.isOperand = false := by rw [ho]; rfl
  rw [operands_cons, hi, operands_between (by rw [hc]; rfl) (by simp [hc]), operands_nil,
    List.append_nil]
  rfl

theorem operands_call (hf : f.lexeme = .name x) (ho : o.lexeme = .opening)
    (hc : c.lexeme = .closing) : operands q (f :: o :: (ts ++ [c])) =
      ⟨.name x, true, q.level⟩ :: operands ((q.step f).step o) ts := by
  have hi : f.lexeme.isOperand = true := by rw [hf]; rfl
  rw [operands_cons, hi, operands_parens ho hc, opensCall_cons, hf]
  simp [ho]

mutual

/-- **A phrase needs no level below its operands.** -/
theorem Forms.tighten {p d ts e} : Forms m p d ts e → ∀ {q : Place}, q.Awaits d p →
    (∀ a ∈ operands q ts, a.level ≤ n) → d ≤ n ∧ Forms n p d ts e
  -- `d ≤ n` goes along: inside a nested phrase it says that the phrase may be nested
  | .sum h, q, hq, ha => by
    obtain ⟨hd, h⟩ := h.tighten (hq.operand (k := .sum)) ha
    exact ⟨hd, .sum h⟩
  | .addition h ht h', q, hq, ha => by
    rw [h.operands_chain (k := .sum) hq ht] at ha
    obtain ⟨ha, ha'⟩ := List.forall_mem_append.1 ha
    obtain ⟨hd, h⟩ := h.tighten hq ha
    obtain ⟨-, h'⟩ := h'.tighten (hq.operand (k := .sum)) ha'
    exact ⟨hd, .addition h ht h'⟩
  | .product h, q, hq, ha => by
    obtain ⟨hd, h⟩ := h.tighten (hq.operand (k := .product)) ha
    exact ⟨hd, .product h⟩
  | .multiplication h ht h', q, hq, ha => by
    rw [h.operands_chain (k := .product) hq ht] at ha
    obtain ⟨ha, ha'⟩ := List.forall_mem_append.1 ha
    obtain ⟨hd, h⟩ := h.tighten hq ha
    obtain ⟨-, h'⟩ := h'.tighten (hq.operand (k := .product)) ha'
    exact ⟨hd, .multiplication h ht h'⟩
  | .power h, q, hq, ha => by
    obtain ⟨hd, h⟩ := h.tighten hq.negation ha
    exact ⟨hd, .power h⟩
  | .exponentiation h ht _ h', q, hq, ha => by
    obtain ⟨q', hq', heq⟩ := h.operands_power hq ht
    rw [heq] at ha
    obtain ⟨ha, ha'⟩ := List.forall_mem_append.1 ha
    obtain ⟨hd, h⟩ := h.tighten hq.negation ha
    obtain ⟨hd', h'⟩ := h'.tighten hq' ha'
    exact ⟨hd, .exponentiation h ht hd' h'⟩
  | .negation h, q, hq, ha => by
    obtain ⟨hd, h⟩ := h.tighten hq ha
    exact ⟨hd, .negation h⟩
  | .opposite ht _ h, q, hq, ha => by
    rw [operands_minus ht] at ha
    obtain ⟨hd, h⟩ := h.tighten (hq.minus ht) ha
    exact ⟨Nat.le_of_lt hd, .opposite ht hd h⟩
  | .number ht, q, hq, ha => by
    rw [operands_number ht, List.forall_mem_singleton, hq.2] at ha
    exact ⟨ha, .number ht⟩
  | .name ht, q, hq, ha => by
    rw [operands_name ht, List.forall_mem_singleton, hq.2] at ha
    exact ⟨ha, .name ht⟩
  | .parens ho _ h hc, q, hq, ha => by
    rw [operands_parens ho hc] at ha
    obtain ⟨hd, h⟩ := h.tighten (hq.inside ho) ha
    exact ⟨Nat.le_of_lt hd, .parens ho hd h hc⟩
  | .bareCall hf ho hc, q, hq, ha => by
    rw [← List.nil_append [_], operands_call hf ho hc, List.forall_mem_cons, hq.2] at ha
    exact ⟨ha.1, .bareCall hf ho hc⟩
  | .call hf ho _ h hc, q, hq, ha => by
    rw [operands_call hf ho hc, List.forall_mem_cons] at ha
    obtain ⟨hd, h⟩ := h.tighten (hq.arguments hf ho) ha.2
    exact ⟨Nat.le_of_lt hd, .call hf ho hd h hc⟩

theorem FormsAll.tighten {d ts es} : FormsAll m d ts es → ∀ {q : Place}, q.Awaits d .sum →
    (∀ a ∈ operands q ts, a.level ≤ n) → d ≤ n ∧ FormsAll n d ts es
  | .one h, q, hq, ha => by
    obtain ⟨hd, h⟩ := h.tighten hq ha
    exact ⟨hd, .one h⟩
  | .more h hc hs, q, hq, ha => by
    rw [h.operands_comma hq hc] at ha
    obtain ⟨ha, ha'⟩ := List.forall_mem_append.1 ha
    obtain ⟨hd, h⟩ := h.tighten hq ha
    obtain ⟨-, hs⟩ := hs.tighten hq ha'
    exact ⟨hd, .more h hc hs⟩

end

mutual

/-- No operand of a phrase is deeper than the levels that it needs. -/
theorem Forms.level_le {p d ts e} : Forms m p d ts e → ∀ {q : Place}, q.Awaits d p → d ≤ m →
    ∀ a ∈ operands q ts, a.level ≤ m
  | .sum h, q, hq, hd => h.level_le (hq.operand (k := .sum)) hd
  | .addition h ht h', q, hq, hd => by
    rw [h.operands_chain (k := .sum) hq ht, List.forall_mem_append]
    exact ⟨h.level_le hq hd, h'.level_le (hq.operand (k := .sum)) hd⟩
  | .product h, q, hq, hd => h.level_le (hq.operand (k := .product)) hd
  | .multiplication h ht h', q, hq, hd => by
    rw [h.operands_chain (k := .product) hq ht, List.forall_mem_append]
    exact ⟨h.level_le hq hd, h'.level_le (hq.operand (k := .product)) hd⟩
  | .power h, q, hq, hd => h.level_le hq.negation hd
  | .exponentiation h ht hm h', q, hq, hd => by
    obtain ⟨q', hq', heq⟩ := h.operands_power hq ht
    rw [heq, List.forall_mem_append]
    exact ⟨h.level_le hq.negation hd, h'.level_le hq' hm⟩
  | .negation h, q, hq, hd => h.level_le hq hd
  | .opposite ht hm h, q, hq, _ => by
    rw [operands_minus ht]
    exact h.level_le (hq.minus ht) hm
  | .number ht, q, hq, hd => by
    rw [operands_number ht, List.forall_mem_singleton, hq.2]
    exact hd
  | .name ht, q, hq, hd => by
    rw [operands_name ht, List.forall_mem_singleton, hq.2]
    exact hd
  | .parens ho hm h hc, q, hq, _ => by
    rw [operands_parens ho hc]
    exact h.level_le (hq.inside ho) hm
  | .bareCall hf ho hc, q, hq, hd => by
    rw [← List.nil_append [_], operands_call hf ho hc, List.forall_mem_cons, hq.2]
    exact ⟨hd, List.forall_mem_nil _⟩
  | .call hf ho hm h hc, q, hq, hd => by
    rw [operands_call hf ho hc, List.forall_mem_cons, hq.2]
    exact ⟨hd, h.level_le (hq.arguments hf ho) hm⟩

theorem FormsAll.level_le {d ts es} : FormsAll m d ts es → ∀ {q : Place}, q.Awaits d .sum →
    d ≤ m → ∀ a ∈ operands q ts, a.level ≤ m
  | .one h, q, hq, hd => h.level_le hq hd
  | .more h hc hs, q, hq, hd => by
    rw [h.operands_comma hq hc, List.forall_mem_append]
    exact ⟨h.level_le hq hd, hs.level_le hq hd⟩

end

/-! ## The nesting of an expression -/

theorem nesting_le : nesting ts ≤ n ↔ ∀ a ∈ operands .start ts, a.level ≤ n := by
  unfold nesting
  induction operands .start ts with
  | nil => simp
  | cons a as ih =>
    rw [List.map_cons, List.foldr_cons, Nat.max_le, ih, List.forall_mem_cons]

theorem Place.awaits_start : Place.start.Awaits 0 .sum := rfl

/-- **An expression needs the levels of its deepest operand**, and no others. -/
theorem forms_iff_nesting_le (h : Forms m .sum 0 ts e) : Forms n .sum 0 ts e ↔ nesting ts ≤ n := by
  rw [nesting_le]
  constructor
  · intro h
    exact h.level_le Place.awaits_start (Nat.zero_le n)
  · intro ha
    exact (h.tighten Place.awaits_start ha).2

end

end Expr

end Reckon
